import ApiSurface.Proofs.Transcript

/-! Levels of outputs. An event must pass the common level before the level of an output counts, so
outputs follow their own levels exactly if none of these lies below the common one. -/

namespace ApiSurface

theorem Text.closedLines_ne_nil (text : Text) : text.closedLines ≠ [] := by
  induction text with
  | nil => simp [closedLines]
  | cons point rest ih =>
      rw [closedLines]
      split
      · exact ih
      split
      · simp
      · split
        · simp
        · simp

theorem LineForm.lines_ne_nil (form : LineForm) (entries : Entries) : form.lines entries ≠ [] := by
  cases form with
  | json => simp [lines]
  | console => exact Text.closedLines_ne_nil _

theorem Severity.passes_trans {severity middle level : Severity}
    (reached : severity.passes middle = true) (above : middle.passes level = true) :
    severity.passes level = true := by
  simp only [passes, decide_eq_true_eq] at reached above ⊢
  omega

namespace LogSettings

variable {settings : LogSettings} {output : LogOutput}

/-- What an event adds to a sink where only the levels of the outputs count. -/
def fairShare (settings : LogSettings) (time : Text) (runId : Option Text) (event : Logged)
    (sink : Sink) : List Text :=
  (settings.takers event.severity sink).flatMap fun output =>
    output.form.lines (LogRecord.written (event.data time runId))

theorem mem_takers_iff {severity : Severity} {sink : Sink} :
    output ∈ settings.takers severity sink ↔ output ∈ settings.outputs ∧
      Logging.sinkOf output.destination = sink ∧
        severity.passes (settings.levelOf output) = true := by
  simp [takers]

/-- The common level comes first. -/
theorem share_eq (member : output ∈ settings.outputs) (time : Text) (runId : Option Text)
    (event : Logged) (sink : Sink) : settings.share time runId event sink =
      if event.severity.passes settings.level then settings.fairShare time runId event sink
      else [] := by
  have outputs : settings.outputs.isEmpty = false := by
    simpa using List.ne_nil_of_mem member
  cases passed : event.severity.passes settings.level with
  | false => simp [share_of_stopped passed]
  | true => simp [share, routes, passed, outputs, fairShare, List.flatMap_map, Logged.linesIn]

end LogSettings

namespace Session

/-- A request logs one event: on a logger of this library under fields that may be used, or elsewhere. -/
inductive Logs (session : Session) : Request → Logged → Prop
  | own {call : Call} : call.isMisnamed session.logging.level = false →
      Logs session (.log call) (.own call.record)
  | foreign {verb : Verb} {event : Value} : Logs session (.foreign verb event) (.foreign verb event)

theorem Logs.answer_lines {session : Session} {settings : LogSettings} {request : Request}
    {event : Logged} (logs : session.Logs request event)
    (follows : session.logging.Follows settings) (time : Text) (sink : Sink) :
    (session.answer time request).1.logging.journal.lines sink = session.logging.journal.lines sink ++
      settings.share time session.ids.current event sink := by
  rw [Session.answer_lines follows]
  cases logs with
  | own named =>
      rw [follows.level] at named
      simp [Request.logged, named, LogSettings.shares]
  | foreign => simp [Request.logged, LogSettings.shares]

/-- An event is written to the places of the outputs by exactly those whose own level it reaches. -/
def FollowsOwnLevels (session : Session) (settings : LogSettings) : Prop :=
  ∀ time request event, session.Logs request event → ∀ output ∈ settings.outputs,
    (session.answer time request).1.logging.journal.lines (Logging.sinkOf output.destination) =
      session.logging.journal.lines (Logging.sinkOf output.destination) ++
        settings.fairShare time session.ids.current event (Logging.sinkOf output.destination)

variable {session : Session} {settings : LogSettings}

theorem follows_later (follows : session.logging.Follows settings) {later : List (Text × Request)}
    (kept : ∀ request ∈ later, request.2.settings? = none) :
    (session.run later).logging.Follows settings := by
  induction later generalizing session with
  | nil => exact follows
  | cons request rest ih =>
      exact ih (answer_tells follows (kept request (by simp))).follows
        fun other member => kept other (by simp [member])

theorem followsOwnLevels_iff (follows : session.logging.Follows settings) :
    session.FollowsOwnLevels settings ↔
      ∀ output ∈ settings.outputs, (settings.levelOf output).passes settings.level = true := by
  constructor
  · intro own output member
    by_contra below
    have logs : session.Logs (.foreign { severity := settings.levelOf output } .null) _ := .foreign
    have written := own [] _ _ logs output member
    rw [logs.answer_lines follows, LogSettings.share_eq member, if_neg (by exact below),
      List.append_cancel_left_eq] at written
    -- The output itself should have taken an event of its own level.
    have taker : output ∈ settings.takers (settings.levelOf output)
        (Logging.sinkOf output.destination) :=
      LogSettings.mem_takers_iff.mpr ⟨member, rfl, by simp [Severity.passes]⟩
    exact LineForm.lines_ne_nil _ _ (List.flatMap_eq_nil_iff.mp written.symm output taker)
  · intro above time request event logs output member
    rw [logs.answer_lines follows, LogSettings.share_eq member]
    split
    next => rfl
    next stopped =>
      have noTakers : settings.takers event.severity (Logging.sinkOf output.destination) = [] := by
        rw [List.eq_nil_iff_forall_not_mem]
        intro taker taking
        obtain ⟨among, _, reached⟩ := LogSettings.mem_takers_iff.mp taking
        exact stopped (Severity.passes_trans reached (above taker among))
      rw [LogSettings.fairShare, noTakers, List.flatMap_nil]

/-- However long a configuration has been in force, an event of any severity is written by exactly those
outputs whose level it reaches, provided that it reaches the common level. Hence outputs follow their
own levels exactly if none of these lies below the common one. -/
theorem own_levels_followed_iff (start : Session) (begun : Text) (settings : LogSettings)
    (configured : (start.answer begun (.configure settings)).2 = .ok none)
    (later : List (Text × Request)) (kept : ∀ request ∈ later, request.2.settings? = none) :
    let session := (start.answer begun (.configure settings)).1.run later
    (∀ time request event, session.Logs request event → ∀ output ∈ settings.outputs,
      (session.answer time request).1.logging.journal.lines (Logging.sinkOf output.destination) =
        session.logging.journal.lines (Logging.sinkOf output.destination) ++
          if event.severity.passes settings.level then
            settings.fairShare time session.ids.current event (Logging.sinkOf output.destination)
          else []) ∧
    (session.FollowsOwnLevels settings ↔
      ∀ output ∈ settings.outputs, (settings.levelOf output).passes settings.level = true) := by
  have follows : ((start.answer begun (.configure settings)).1.run later).logging.Follows settings :=
    follows_later (Logging.follows_configured (configure_of_success configured)) kept
  refine ⟨fun time request event logs output member => ?_, followsOwnLevels_iff follows⟩
  rw [logs.answer_lines follows, LogSettings.share_eq member]

/-- Everything goes to a file, and what is serious to the error stream as well. -/
def layeredSettings : LogSettings where
  level := .debug
  outputs := [{ form := .json, destination := .file ⟨false, ["log", "all.json"], by decide⟩ },
    { level := some .error }, { form := .json, level := some .warning }]

theorem own_levels_followed_of_layeredSettings :
    (({} : Session).answer "" (.configure layeredSettings)).2 = .ok none ∧
      ((({} : Session).answer "" (.configure layeredSettings)).1.run
        [("", .setId (some "r1")), ("", .foreign { severity := .info } "begun")]).FollowsOwnLevels
          layeredSettings := by
  have configured : (({} : Session).answer "" (.configure layeredSettings)).2 = .ok none := rfl
  refine ⟨configured, (own_levels_followed_iff {} "" layeredSettings configured _ ?_).2.mpr ?_⟩
  · simp [Request.settings?]
  · decide

/-- The only output asks for everything, below the common level. -/
def verboseSettings : LogSettings where
  level := .info
  outputs := [{ form := .json, level := some .debug }]

/-- An event that reaches the level of the only output is not written to it. -/
theorem verbose_output_cut_off :
    let session := (({} : Session).answer "" (.configure verboseSettings)).1
    (({} : Session).answer "" (.configure verboseSettings)).2 = .ok none ∧
      session.Logs (.log { verb := { severity := .debug }, event := "begun" })
        (.own { severity := .debug, event := "begun" }) ∧
      Severity.debug.passes .debug = true ∧
      (session.answer "" (.log { verb := { severity := .debug }, event := "begun" })).1.logging.journal.lines
        .stderr = [] :=
  ⟨rfl, .own rfl, rfl, rfl⟩

end Session

end ApiSurface
