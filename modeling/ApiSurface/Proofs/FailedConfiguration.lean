import ApiSurface.Proofs.Transcript

/-! What a configuration that fails leaves behind: the outputs before the first one that cannot be
opened, in place of all that were there. Main statement: later events are delivered as if nothing had
happened exactly if these outputs take every event the same way. -/

namespace ApiSurface

namespace Logging

theorem openOutput_of_failure {logging : Logging} {output : LogOutput} {failure : Failure}
    (failed : (logging.openOutput output).2 = some failure) :
    (logging.openOutput output).1.level = logging.level ∧
      (logging.openOutput output).1.outputs = logging.outputs := by
  unfold openOutput at failed ⊢
  dsimp only at failed ⊢
  split at failed
  · exact ⟨rfl, rfl⟩
  · contradiction

/-- Outputs are opened up to the first that fails, which leaves nothing but what it did to the journal. -/
theorem openOutputs_of_failure {logging : Logging} {outputs : List LogOutput} {failure : Failure}
    (failed : (logging.openOutputs outputs).2 = some failure) :
    ∃ done output rest, outputs = done ++ output :: rest ∧ (logging.openOutputs done).2 = none ∧
      ((logging.openOutputs done).1.openOutput output).2 = some failure ∧
      (logging.openOutputs outputs).1 = ((logging.openOutputs done).1.openOutput output).1 := by
  induction outputs generalizing logging with
  | nil => simp [openOutputs] at failed
  | cons output rest ih =>
      rw [openOutputs_cons] at failed ⊢
      cases first : (logging.openOutput output).2 with
      | some cause =>
          simp only [first, Option.isSome_some, if_true] at failed ⊢
          exact ⟨[], output, rest, rfl, rfl, first.trans failed, rfl⟩
      | none =>
          simp only [first, Option.isSome_none, Bool.false_eq_true, if_false] at failed ⊢
          obtain ⟨done, last, others, rfl, opened, broken, same⟩ := ih failed
          refine ⟨output :: done, last, others, rfl, ?_, ?_, ?_⟩
          · simp [openOutputs_cons, first, opened]
          · simpa [openOutputs_cons, first] using broken
          · simpa [openOutputs_cons, first] using same

/-- A configuration that fails leaves that of the outputs before the first one that cannot be opened. -/
theorem follows_of_failure {logging : Logging} {settings : LogSettings} {failure : Failure}
    (failed : (logging.configure settings).2 = some failure) :
    ∃ done output rest, settings.outputs = done ++ output :: rest ∧
      (logging.configure { settings with outputs := done }).2 = none ∧
      ((logging.configure { settings with outputs := done }).1.openOutput output).2 = some failure ∧
      (logging.configure settings).1.Follows { settings with outputs := done } := by
  obtain ⟨done, output, rest, parts, opened, broken, same⟩ := openOutputs_of_failure failed
  obtain ⟨level, outputs⟩ := openOutputs_of_success opened
  obtain ⟨lastLevel, lastOutputs⟩ := openOutput_of_failure broken
  refine ⟨done, output, rest, parts, opened, broken, ?_, ?_⟩
  · rw [configure, same, lastLevel, level]
  · rw [configure, same, lastOutputs, outputs]
    rfl

/-- The ways in which an event is written to a sink, in order. -/
def routes (logging : Logging) (severity : Severity) (sink : Sink) : List (Option LineForm) :=
  if !severity.passes logging.level then []
  else if logging.outputs.isEmpty then
    if sink = .stderr ∧ severity.passes .warning = true then [none] else []
  else (logging.outputs.filter fun output =>
    output.sink = sink && severity.passes output.level).map fun output => some output.form

theorem Follows.routes_eq {logging : Logging} {settings : LogSettings}
    (follows : logging.Follows settings) (severity : Severity) (sink : Sink) :
    logging.routes severity sink = settings.routes severity sink := by
  simp [routes, LogSettings.routes, LogSettings.takers, follows.level, follows.outputs,
    List.filter_map, Function.comp_def]

end Logging

/-- A field whose name is free below the common level is taken for events that reach it. -/
theorem Call.isMisnamed_of_passes {call : Call} {level : Severity}
    (passed : call.verb.severity.passes level = true) :
    call.isMisnamed level = call.isMisnamed .debug := by
  have all : call.verb.severity.passes .debug = true := by
    cases call.verb.severity <;> rfl
  simp [isMisnamed, all, passed]

namespace LogSettings

variable {left right : LogSettings}

theorem share_congr (same : ∀ severity sink, left.routes severity sink = right.routes severity sink)
    (time : Text) (runId : Option Text) (event : Logged) (sink : Sink) :
    left.share time runId event sink = right.share time runId event sink := by
  rw [share, share, same]

/-- A field whose name is free below the common level only keeps the event from being written there
too. -/
theorem shares_call (settings : LogSettings) (time : Text) (ids : RunIds) (call : Call) (sink : Sink) :
    settings.shares time ((Request.log call).logged settings.level ids) sink =
      if call.isMisnamed .debug then [] else settings.share time ids.current (.own call.record) sink := by
  simp only [Request.logged]
  cases passed : call.verb.severity.passes settings.level with
  | true =>
      rw [Call.isMisnamed_of_passes passed]
      split
      · rfl
      · simp [shares]
  | false =>
      have stopped : (Logged.own call.record).severity.passes settings.level = false := passed
      have unwritten := share_of_stopped stopped time ids.current sink
      rw [unwritten, ite_self]
      split
      · rfl
      · simp [shares, unwritten]

theorem shares_congr (same : ∀ severity sink, left.routes severity sink = right.routes severity sink)
    (time : Text) (ids : RunIds) (request : Request) (sink : Sink) :
    left.shares time (request.logged left.level ids) sink =
      right.shares time (request.logged right.level ids) sink := by
  cases request with
  | log call => rw [shares_call, shares_call, share_congr same]
  | _ =>
      exact List.flatMap_congr fun event _ => share_congr same time event.1 event.2 sink

theorem transcript_congr
    (same : ∀ severity sink, left.routes severity sink = right.routes severity sink) (sink : Sink)
    (ids : RunIds) (requests : List (Text × Request)) :
    left.transcript sink ids requests = right.transcript sink ids requests := by
  induction requests generalizing left right ids with
  | nil => rfl
  | cons request rest ih =>
      rw [transcript, transcript, shares_congr same]
      cases request.2.settings? with
      | none => rw [Option.getD_none, Option.getD_none, ih same]
      | some settings => rfl

/-- An event to tell the ways of writing by. -/
def trial (severity : Severity) : Logged := .foreign { severity } "x"

def trialLine (severity : Severity) (route : Option LineForm) : Text :=
  ((trial severity).linesIn [] none route).headD []

theorem trial_linesIn (severity : Severity) (route : Option LineForm) :
    (trial severity).linesIn [] none route = [trialLine severity route] := by
  rcases route with - | - | - <;> cases severity <;> decide +kernel

/-- What the line of a trial begins with, another character for each way of writing it. -/
def trialMark : Option LineForm → CodePoint
  | none => .ofChar 'x'
  | some .json => .ofChar '\x7b'
  | some .console => .ofChar '['

theorem trialLine_head? (severity : Severity) (route : Option LineForm) :
    (trialLine severity route).head? = some (trialMark route) := by
  rcases route with - | - | - <;> cases severity <;> decide +kernel

theorem trialMark_injective : Function.Injective trialMark := by
  rintro (- | - | -) (- | - | -) same <;> revert same <;> decide

theorem trialLine_injective (severity : Severity) : Function.Injective (trialLine severity) := by
  intro left right same
  apply trialMark_injective
  rw [← Option.some_inj, ← trialLine_head? severity, ← trialLine_head? severity, same]

theorem share_trial (settings : LogSettings) (severity : Severity) (sink : Sink) :
    settings.share [] none (trial severity) sink =
      (settings.routes severity sink).map (trialLine severity) := by
  rw [List.map_eq_flatMap]
  exact List.flatMap_congr fun route _ => trial_linesIn severity route

end LogSettings

/-- The only output of settings by a level and a form is a stream. -/
theorem LogSettings.simple_outputs {homes : Homes} {level : Value} {form : LineForm}
    {settings : LogSettings} (checked : (simple homes level form).orFail = .ok settings) :
    settings.outputs = [{ form }] := by
  unfold simple at checked
  cases read : LogSettings.read homes (.map [("level", level)]) with
  | refused first others => simp [read, Schema.Checked.map, Schema.Checked.orFail] at checked
  | accepted accepted =>
      simp only [read, Schema.Checked.map, Schema.Checked.orFail, Except.ok.injEq] at checked
      rw [← checked]

namespace Session

variable {session left right : Session}

theorem exists_follows_answer {request : Request} (time : Text)
    (known : (∃ current, session.logging.Follows current) ∨ request.settings?.isSome = true) :
    ∃ current, (session.answer time request).1.logging.Follows current := by
  cases given : request.settings? with
  | none =>
      obtain ⟨current, follows⟩ := known.resolve_right (by simp [given])
      exact ⟨current, (answer_tells follows given).follows⟩
  | some settings =>
      cases request with
      | configure settings =>
          change ∃ current, (session.logging.configure settings).1.Follows current
          cases outcome : (session.logging.configure settings).2 with
          | none => exact ⟨settings, Logging.follows_configured outcome⟩
          | some failure =>
              obtain ⟨done, _, _, _, _, _, follows⟩ := Logging.follows_of_failure outcome
              exact ⟨_, follows⟩
      | _ => contradiction

theorem exists_follows_run {requests : List (Text × Request)}
    (known : (∃ current, session.logging.Follows current) ∨
      ∃ request ∈ requests, request.2.settings?.isSome = true) :
    ∃ current, (session.run requests).logging.Follows current := by
  induction requests generalizing session with
  | nil => exact known.resolve_right (by simp)
  | cons request rest ih =>
      rw [List.exists_mem_cons_iff, ← or_assoc] at known
      exact ih (known.imp_left (exists_follows_answer request.1))

/-- Whatever is asked for later adds the same to every sink, unless a later configuration fails. -/
def DeliversAlike (left right : Session) : Prop :=
  ∀ later : List (Text × Request), left.Succeeds later → right.Succeeds later → ∀ sink,
    ∃ added, (left.run later).logging.journal.lines sink = left.logging.journal.lines sink ++ added ∧
      (right.run later).logging.journal.lines sink = right.logging.journal.lines sink ++ added

theorem deliversAlike_of_routes {leftSettings rightSettings : LogSettings}
    (leftFollows : left.logging.Follows leftSettings)
    (rightFollows : right.logging.Follows rightSettings) (sameIds : left.ids = right.ids)
    (same : ∀ severity sink, leftSettings.routes severity sink = rightSettings.routes severity sink) :
    left.DeliversAlike right := by
  intro later leftSucceeds rightSucceeds sink
  refine ⟨_, run_lines leftFollows leftSucceeds sink, ?_⟩
  rw [run_lines rightFollows rightSucceeds, LogSettings.transcript_congr same, sameIds]

/-- The ways of writing show in what a trial adds once no id is bound. -/
theorem run_trial_lines {settings : LogSettings} (follows : session.logging.Follows settings)
    (severity : Severity) (sink : Sink) :
    (session.run [([], .clearId), ([], .foreign { severity } "x")]).logging.journal.lines sink =
      session.logging.journal.lines sink ++
        (settings.routes severity sink).map (LogSettings.trialLine severity) := by
  have cleared : (session.answer [] .clearId).1.logging.Follows settings := follows
  rw [← LogSettings.share_trial]
  exact cleared.take_lines [] none (LogSettings.trial severity) sink

theorem routes_of_deliversAlike {leftSettings rightSettings : LogSettings}
    (leftFollows : left.logging.Follows leftSettings)
    (rightFollows : right.logging.Follows rightSettings) (alike : left.DeliversAlike right)
    (severity : Severity) (sink : Sink) :
    leftSettings.routes severity sink = rightSettings.routes severity sink := by
  obtain ⟨added, leftAdds, rightAdds⟩ := alike [([], .clearId), ([], .foreign { severity } "x")]
    ⟨nofun, nofun, trivial⟩ ⟨nofun, nofun, trivial⟩ sink
  rw [run_trial_lines leftFollows, List.append_cancel_left_eq] at leftAdds
  rw [run_trial_lines rightFollows, List.append_cancel_left_eq] at rightAdds
  exact (LogSettings.trialLine_injective severity).list_map (leftAdds.trans rightAdds.symm)

theorem deliversAlike_iff {leftSettings rightSettings : LogSettings}
    (leftFollows : left.logging.Follows leftSettings)
    (rightFollows : right.logging.Follows rightSettings) (sameIds : left.ids = right.ids) :
    left.DeliversAlike right ↔
      ∀ severity sink, left.logging.routes severity sink = right.logging.routes severity sink := by
  simp only [leftFollows.routes_eq, rightFollows.routes_eq]
  exact ⟨routes_of_deliversAlike leftFollows rightFollows,
    deliversAlike_of_routes leftFollows rightFollows sameIds⟩

/-- A configuration by a level and a form alone. The level is checked before anything is done. -/
def configureSimply (session : Session) (homes : Homes) (time : Text) (level : Value)
    (form : LineForm) : Session × Reply :=
  match (LogSettings.simple homes level form).orFail with
  | .error failure => (session, .error failure)
  | .ok settings => session.answer time (.configure settings)

theorem configureSimply_of_failure {homes : Homes} {time : Text} {level : Value} {form : LineForm}
    {failure : Failure} (failed : (session.configureSimply homes time level form).2 = .error failure) :
    (session.configureSimply homes time level form).1 = session := by
  unfold configureSimply at failed ⊢
  cases checked : (LogSettings.simple homes level form).orFail with
  | error cause => rfl
  | ok settings =>
      -- A stream is always there.
      simp only [checked, answer, Logging.configure, LogSettings.simple_outputs checked] at failed
      contradiction

/-- A configuration that fails leaves what would have come of the outputs before the first one that
cannot be opened, and writes nothing; later events are delivered as without it exactly if these outputs
write every event in the same ways to the same places. One that fails at its level leaves everything. -/
theorem failed_configuration_unnoticed_iff (start : Session) (earlier : List (Text × Request))
    (configured : ∃ request ∈ earlier, request.2.settings?.isSome = true) (time : Text)
    (settings : LogSettings) (failure : Failure)
    (failed : ((start.run earlier).answer time (.configure settings)).2 = .error failure) :
    let before := start.run earlier
    let after := (before.answer time (.configure settings)).1
    (∃ done output rest, settings.outputs = done ++ output :: rest ∧
      (before.logging.configure { settings with outputs := done }).2 = none ∧
      ((before.logging.configure { settings with outputs := done }).1.openOutput output).2 =
        some failure ∧
      after.logging.Follows { settings with outputs := done }) ∧
    after.ids = before.ids ∧
    (∀ sink, after.logging.journal.lines sink = before.logging.journal.lines sink) ∧
    (before.DeliversAlike after ↔
      ∀ severity sink, before.logging.routes severity sink = after.logging.routes severity sink) ∧
    ∀ homes level form cause, (before.configureSimply homes time level form).2 = .error cause →
      (before.configureSimply homes time level form).1 = before := by
  have broken : ((start.run earlier).logging.configure settings).2 = some failure := by
    simp only [answer] at failed
    split at failed
    next cause outcome => exact outcome.trans (congrArg some (Except.error.inj failed))
    next => contradiction
  obtain ⟨current, followsCurrent⟩ : ∃ current, (start.run earlier).logging.Follows current :=
    exists_follows_run (.inr configured)
  obtain ⟨done, output, rest, parts, opened, unopened, followsDone⟩ :=
    Logging.follows_of_failure broken
  refine ⟨⟨done, output, rest, parts, opened, unopened, followsDone⟩, rfl,
    Logging.configure_lines _ _, ?_, fun _ _ _ _ => configureSimply_of_failure⟩
  exact deliversAlike_iff followsCurrent followsDone rfl

/-- No file can be opened in the place of the outermost directory. -/
def rootOutput : LogOutput where
  destination := .file ⟨false, [], nofun⟩

theorem failed_configuration_unnoticed_behind_stream :
    let before := ({} : Session).run [("", .configure {})]
    (before.answer "" (.configure { outputs := [{}, rootOutput, {}] })).2 = .error .directory ∧
      before.DeliversAlike (before.answer "" (.configure { outputs := [{}, rootOutput, {}] })).1 := by
  have failed : ((({} : Session).run [("", .configure {})]).answer ""
      (.configure { outputs := [{}, rootOutput, {}] })).2 = .error .directory := rfl
  obtain ⟨_, _, _, alike, _⟩ := failed_configuration_unnoticed_iff {} [("", .configure {})]
    ⟨_, List.mem_singleton_self _, rfl⟩ "" _ _ failed
  exact ⟨failed, alike.mpr fun _ _ => rfl⟩

/-- A failed configuration takes away the outputs that were there: an event that would have been written
to the error stream is written nowhere. -/
theorem failed_configuration_loses_outputs :
    let before := ({} : Session).run [("", .configure {})]
    let after := (before.answer "" (.configure { outputs := [rootOutput, {}] })).1
    (before.answer "" (.configure { outputs := [rootOutput, {}] })).2 = .error .directory ∧
      (before.answer "" (.foreign { severity := .info } "begun")).1.logging.journal.lines .stderr =
        [Text.ofString "[info] begun"] ∧
      (after.answer "" (.foreign { severity := .info } "begun")).1.logging.journal.lines .stderr = [] :=
  ⟨rfl, by decide +kernel, rfl⟩

end Session

end ApiSurface
