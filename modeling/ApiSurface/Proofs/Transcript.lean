import ApiSurface.Proofs.Delivery

/-! Whole runs of a session. Where no configuration fails, a run adds to every sink its transcript: what
its events add one after the other, each under the configuration before it and the id bound for it. -/

namespace ApiSurface

namespace Logging

theorem openOutput_lines (logging : Logging) (output : LogOutput) (sink : Sink) :
    (logging.openOutput output).1.journal.lines sink = logging.journal.lines sink := by
  unfold openOutput
  cases output.destination with
  | file path =>
      dsimp only
      split
      · exact logging.journal.openFile_lines path sink
      · exact logging.journal.openFile_lines path sink
  | _ => rfl

theorem openOutput_of_success {logging : Logging} {output : LogOutput}
    (opened : (logging.openOutput output).2 = none) :
    (logging.openOutput output).1.level = logging.level ∧
      (logging.openOutput output).1.outputs = logging.outputs ++
        [⟨output.form, sinkOf output.destination, output.level.getD logging.level⟩] := by
  unfold openOutput at opened ⊢
  dsimp only at opened ⊢
  split at opened
  · contradiction
  · exact ⟨rfl, rfl⟩

theorem openOutputs_cons (logging : Logging) (output : LogOutput) (rest : List LogOutput) :
    logging.openOutputs (output :: rest) =
      if (logging.openOutput output).2.isSome then logging.openOutput output
      else (logging.openOutput output).1.openOutputs rest := by
  rw [openOutputs]
  split
  next failed => simp [failed]
  next opened => simp [opened]

theorem openOutputs_lines (logging : Logging) (outputs : List LogOutput) (sink : Sink) :
    (logging.openOutputs outputs).1.journal.lines sink = logging.journal.lines sink := by
  induction outputs generalizing logging with
  | nil => rfl
  | cons output rest ih =>
      rw [openOutputs_cons]
      split
      · exact openOutput_lines logging output sink
      · rw [ih, openOutput_lines]

theorem openOutputs_of_success {logging : Logging} {outputs : List LogOutput}
    (opened : (logging.openOutputs outputs).2 = none) :
    (logging.openOutputs outputs).1.level = logging.level ∧
      (logging.openOutputs outputs).1.outputs = logging.outputs ++ outputs.map fun output =>
        ⟨output.form, sinkOf output.destination, output.level.getD logging.level⟩ := by
  induction outputs generalizing logging with
  | nil => simp [openOutputs]
  | cons output rest ih =>
      rw [openOutputs_cons] at opened ⊢
      cases first : (logging.openOutput output).2 with
      | some failure => simp [first] at opened
      | none =>
          obtain ⟨level, outputs⟩ := openOutput_of_success first
          simp only [first, Option.isSome_none, Bool.false_eq_true, if_false] at opened ⊢
          obtain ⟨restLevel, restOutputs⟩ := ih opened
          rw [restLevel, restOutputs, level, outputs, List.append_assoc]
          exact ⟨rfl, rfl⟩

theorem configure_lines (logging : Logging) (settings : LogSettings) (sink : Sink) :
    (logging.configure settings).1.journal.lines sink = logging.journal.lines sink :=
  openOutputs_lines _ _ _

theorem follows_configured {logging : Logging} {settings : LogSettings}
    (configured : (logging.configure settings).2 = none) :
    (logging.configure settings).1.Follows settings := by
  obtain ⟨level, outputs⟩ := openOutputs_of_success configured
  exact ⟨level, outputs⟩

end Logging

namespace Request

def settings? : Request → Option LogSettings
  | .configure settings => some settings
  | _ => none

/-- A notice is logged as an event of its own, under the id that is bound. -/
def noted (runId : Option Text) (notice : Notice) : Option Text × Logged :=
  (runId, .own {
    severity := notice.event.severity
    event := .text notice.event.name
    fields := notice.event.fields })

/-- The events that are logged on the way to a snapshot, and with it if it is there. -/
def loggedWith (ids : RunIds) (snapshot : Traced Snapshot)
    (next : Snapshot → List (Option Text × Logged)) : List (Option Text × Logged) :=
  snapshot.notices.map (noted ids.current) ++
    match snapshot.result with
    | .error _ => []
    | .ok snapshot => next snapshot

/-- A comparison logs its events under an id of its own. -/
def loggedComparing (ids : RunIds) (id : Option Text) (old new : Snapshot) :
    List (Option Text × Logged) :=
  match Comparison.checkedHierarchy new none with
  | .error _ => []
  | .ok hierarchy =>
    (Comparison.run old new hierarchy .standard).notices.map (noted (ids.enter id).2.current)

/-- The events that a request logs, with the id that is bound for each. -/
def logged (level : Severity) (ids : RunIds) : Request → List (Option Text × Logged)
  | .log call => if call.isMisnamed level then [] else [(ids.current, .own call.record)]
  | .foreign verb event => [(ids.current, .foreign verb event)]
  | .compare id old new =>
    loggedWith ids old fun old => loggedWith ids new fun new => loggedComparing ids id old new
  | _ => []

/-- The ids behind a request. -/
def idsAfter (ids : RunIds) : Request → RunIds
  | .setId id => (ids.set id).2
  | .clearId => ids.clear
  | .compare id old new =>
    match old.result, new.result with
    | .ok _, .ok new => ids.afterComparison id (Comparison.checkedHierarchy new none)
    | _, _ => ids
  | _ => ids

end Request

namespace LogSettings

/-- What events add to a sink one after the other. -/
def shares (settings : LogSettings) (time : Text) (events : List (Option Text × Logged))
    (sink : Sink) : List Text :=
  events.flatMap fun event => settings.share time event.1 event.2 sink

end LogSettings

namespace Session

/-- One state of a session follows another by writing events, with the same settings in force. -/
structure Tells (settings : LogSettings) (time : Text) (before after : Session)
    (events : List (Option Text × Logged)) : Prop where
  follows : after.logging.Follows settings
  lines : ∀ sink, after.logging.journal.lines sink =
    before.logging.journal.lines sink ++ settings.shares time events sink

variable {settings : LogSettings} {time : Text} {session : Session}

theorem Tells.refl (follows : session.logging.Follows settings) :
    Tells settings time session session [] :=
  ⟨follows, fun sink => by simp [LogSettings.shares]⟩

theorem Tells.trans {middle after : Session} {first second : List (Option Text × Logged)}
    (left : Tells settings time session middle first)
    (right : Tells settings time middle after second) :
    Tells settings time session after (first ++ second) :=
  ⟨right.follows, fun sink => by
    rw [right.lines, left.lines, List.append_assoc, LogSettings.shares, LogSettings.shares,
      LogSettings.shares, List.flatMap_append]⟩

/-- Only the logging counts. -/
theorem Tells.congr {before middle after : Session} {events : List (Option Text × Logged)}
    (tells : Tells settings time session after events)
    (same : before.logging = session.logging) (again : middle.logging = after.logging) :
    Tells settings time before middle events := by
  refine ⟨again ▸ tells.follows, fun sink => ?_⟩
  rw [again, same, tells.lines]

theorem tells_event (follows : session.logging.Follows settings) (runId : Option Text)
    (event : Logged) :
    Tells settings time session { session with logging := session.logging.take time runId event }
      [(runId, event)] :=
  ⟨follows.take time runId event, fun sink => by
    rw [follows.take_lines]
    simp [LogSettings.shares]⟩

theorem writeNotices_tells (follows : session.logging.Follows settings) (notices : List Notice) :
    Tells settings time session (session.writeNotices time notices)
      (notices.map (Request.noted session.ids.current)) := by
  induction notices generalizing session with
  | nil => exact .refl follows
  | cons notice rest ih =>
      have first : Tells settings time session _ [Request.noted session.ids.current notice] :=
        tells_event follows session.ids.current (Request.noted session.ids.current notice).2
      exact first.trans (ih first.follows)

theorem withSnapshot_tells (follows : session.logging.Follows settings) (snapshot : Traced Snapshot)
    {next : Session → Snapshot → Session × Reply}
    {events : Snapshot → List (Option Text × Logged)}
    (goesOn : ∀ (middle : Session) (made : Snapshot), middle.logging.Follows settings →
      middle.ids = session.ids → Tells settings time middle (next middle made).1 (events made)) :
    Tells settings time session (session.withSnapshot time snapshot next).1
      (Request.loggedWith session.ids snapshot events) := by
  have noted : Tells settings time session (session.writeNotices time snapshot.notices) _ :=
    writeNotices_tells follows snapshot.notices
  unfold withSnapshot Request.loggedWith
  dsimp only
  cases snapshot.result with
  | error failure => exact noted.trans (.refl noted.follows)
  | ok made => exact noted.trans (goesOn _ made noted.follows rfl)

theorem compare_tells (follows : session.logging.Follows settings) (id : Option Text)
    (old new : Snapshot) :
    Tells settings time session (session.compare time id old new).1
      (Request.loggedComparing session.ids id old new) := by
  unfold compare Request.loggedComparing
  cases Comparison.checkedHierarchy new none with
  | error fault => exact .refl follows
  | ok hierarchy =>
      have entered : ({ session with ids := (session.ids.enter id).2 } :
        Session).logging.Follows settings := follows
      exact (writeNotices_tells entered _).congr rfl rfl

/-- A request that is no configuration writes its events. -/
theorem answer_tells (follows : session.logging.Follows settings) {request : Request}
    (configures : request.settings? = none) :
    Tells settings time session (session.answer time request).1
      (request.logged settings.level session.ids) := by
  cases request with
  | configure settings => contradiction
  | log call =>
      simp only [answer, Request.logged, follows.level]
      split
      · exact .refl follows
      · exact tells_event follows session.ids.current (.own call.record)
  | foreign verb event => exact tells_event follows session.ids.current (.foreign verb event)
  | setId id => exact (Tells.refl follows).congr rfl rfl
  | clearId => exact (Tells.refl follows).congr rfl rfl
  | compare id old new =>
      refine withSnapshot_tells follows old fun first oldMade firstFollows sameIds => ?_
      rw [← sameIds]
      refine withSnapshot_tells firstFollows new fun second newMade secondFollows again => ?_
      rw [← again]
      exact compare_tells secondFollows id oldMade newMade

theorem compare_ids (session : Session) (time : Text) (id : Option Text) (old new : Snapshot) :
    (session.compare time id old new).1.ids =
      session.ids.afterComparison id (Comparison.checkedHierarchy new none) := by
  unfold compare RunIds.afterComparison
  cases Comparison.checkedHierarchy new none <;> rfl

theorem answer_ids (session : Session) (time : Text) (request : Request) :
    (session.answer time request).1.ids = request.idsAfter session.ids := by
  cases request with
  | log call =>
      simp only [answer, Request.idsAfter]
      split <;> rfl
  | compare id old new =>
      unfold answer withSnapshot Request.idsAfter
      dsimp only
      cases old.result with
      | error failure => rfl
      | ok oldMade =>
          cases new.result with
          | error failure => rfl
          | ok newMade => exact compare_ids _ time id oldMade newMade
  | _ => rfl

/-- Requests one after the other, each with the time that it is made at. -/
def run (session : Session) : List (Text × Request) → Session
  | [] => session
  | (time, request) :: rest => (session.answer time request).1.run rest

/-- None of the configurations in a run fails. -/
def Succeeds (session : Session) : List (Text × Request) → Prop
  | [] => True
  | (time, request) :: rest =>
    (request.settings?.isSome = true → (session.answer time request).2 = .ok none) ∧
      (session.answer time request).1.Succeeds rest

end Session

/-- The settings in force behind a run in which no configuration fails. -/
def LogSettings.behind (settings : LogSettings) : List (Text × Request) → LogSettings
  | [] => settings
  | (_, request) :: rest => (request.settings?.getD settings).behind rest

/-- What a run adds to a sink where no configuration fails. It is found from the configurations, the
events and the ids alone. -/
def LogSettings.transcript (sink : Sink) (settings : LogSettings) (ids : RunIds) :
    List (Text × Request) → List Text
  | [] => []
  | (time, request) :: rest =>
    settings.shares time (request.logged settings.level ids) sink ++
      (request.settings?.getD settings).transcript sink (request.idsAfter ids) rest

namespace Session

variable {settings : LogSettings} {time : Text} {session : Session}

theorem configure_of_success {given : LogSettings}
    (configured : (session.answer time (.configure given)).2 = .ok none) :
    (session.logging.configure given).2 = none := by
  simp only [answer] at configured
  split at configured
  next failed => contradiction
  next opened => exact opened

theorem follows_answer (follows : session.logging.Follows settings) {request : Request}
    (succeeds : request.settings?.isSome = true → (session.answer time request).2 = .ok none) :
    (session.answer time request).1.logging.Follows (request.settings?.getD settings) := by
  cases given : request.settings? with
  | none => exact (answer_tells follows given).follows
  | some settings =>
      cases request with
      | configure given =>
          cases Option.some.inj ‹_›
          exact Logging.follows_configured (configure_of_success (succeeds rfl))
      | _ => contradiction

theorem answer_lines (follows : session.logging.Follows settings) (request : Request) (sink : Sink) :
    (session.answer time request).1.logging.journal.lines sink =
      session.logging.journal.lines sink ++
        settings.shares time (request.logged settings.level session.ids) sink := by
  cases given : request.settings? with
  | none => exact (answer_tells follows given).lines sink
  | some settings =>
      cases request with
      | configure given =>
          simp [answer, Request.logged, LogSettings.shares, Logging.configure_lines]
      | _ => contradiction

theorem follows_run (follows : session.logging.Follows settings) {requests : List (Text × Request)}
    (succeeds : session.Succeeds requests) :
    (session.run requests).logging.Follows (settings.behind requests) := by
  induction requests generalizing session settings with
  | nil => exact follows
  | cons request rest ih => exact ih (follows_answer follows succeeds.1) succeeds.2

/-- A run in which no configuration fails adds its transcript to every sink. -/
theorem run_lines (follows : session.logging.Follows settings) {requests : List (Text × Request)}
    (succeeds : session.Succeeds requests) (sink : Sink) :
    (session.run requests).logging.journal.lines sink =
      session.logging.journal.lines sink ++ settings.transcript sink session.ids requests := by
  induction requests generalizing session settings with
  | nil => simp [run, LogSettings.transcript]
  | cons request rest ih =>
      obtain ⟨time, request⟩ := request
      rw [run, ih (follows_answer follows succeeds.1) succeeds.2, answer_lines follows, answer_ids,
        LogSettings.transcript, List.append_assoc]

end Session

end ApiSurface
