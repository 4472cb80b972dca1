import ApiSurface.Proofs.Layers
import ApiSurface.Proofs.OwnLevels
import ApiSurface.Proofs.ToldFields

/-! A configuration takes the place of all before it. What an event writes is decided by the last one
and by the id that is bound; main statement: it is written by the outputs of the last configuration,
once by each at most, exactly if there are any. -/

namespace ApiSurface

namespace Entries

theorem get?_foldl_put {fields : Entries} {name : Value} (absent : fields.get? name = none)
    (entries : Entries) :
    (fields.foldl (fun entries field => entries.put field.1 field.2) entries).get? name =
      entries.get? name := by
  induction fields generalizing entries with
  | nil => rfl
  | cons field rest ih =>
      rw [get?_cons] at absent
      split at absent
      next => contradiction
      next other => rw [List.foldl_cons, ih absent, get?_put, if_neg other]

end Entries

namespace LogRecord

/-- The name under which the bound id stands in the data of an event. -/
def idName : Text := "run_id"

theorem entries_of_bound (record : LogRecord) (time id : Text) :
    record.entries time (some id) = (record.entries time none).put idName (.text id) := rfl

theorem get?_put_other (entries : Entries) {name : Text} (differs : name ≠ idName) (value : Value) :
    (entries.put name value).get? idName = entries.get? idName := by
  have other : ¬ (Value.text name).sameKey idName = true := by
    rw [Value.sameKey_text_iff]
    exact fun same => differs (Value.text.inj same)
  rw [Entries.get?_put, if_neg other]

theorem get?_put_idName (entries : Entries) (value : Value) :
    (entries.put idName value).get? idName = some value := by
  rw [Entries.get?_put, if_pos ((Value.sameKey_text_iff _ _).mpr rfl)]

theorem entries_get?_of_unbound {record : LogRecord} (free : record.fields.get? idName = none)
    (time : Text) : (record.entries time none).get? idName = none := by
  have named : (if record.logger.isBlank then [] else
      [("logger", record.logger)] : Entries).get? idName = none := by
    split
    · rfl
    · exact Entries.get?_cons _ [] _
  have given := (Entries.get?_foldl_put free _).trans named
  unfold entries
  dsimp only
  rw [get?_put_other _ (by decide), get?_put_other _ (by decide)]
  split
  · exact given
  · rw [get?_put_other _ (by decide)]
    exact given

theorem entries_get?_idName {record : LogRecord} (free : record.fields.get? idName = none)
    (time : Text) (runId : Option Text) :
    (record.entries time runId).get? idName = runId.map .text := by
  cases runId with
  | none => exact entries_get?_of_unbound free time
  | some id =>
      rw [entries_of_bound, get?_put_idName]
      rfl

theorem written_get? (entries : Entries) {name : Text} (shown : name ∉ passingNames) :
    (written entries).get? name = entries.get? name := by
  unfold written Entries.get?
  rw [List.find?_filter]
  congr 2
  funext entry
  cases here : entry.1.sameKey (.text name) with
  | false => simp
  | true =>
      rw [(Value.sameKey_text_iff _ _).mp here]
      have notPassing : (passingNames.any fun passing => (Value.text name).sameKey passing) = false := by
        rw [List.any_eq_false]
        intro passing member same
        cases (Value.sameKey_text_iff _ _).mp same
        exact shown member
      simp [notPassing]

end LogRecord

/-- The data of an event holds the bound id exactly if one is bound, unless it has a field of that name,
and a bound id can be read in the text that the lines of every form are cut from. -/
structure Logged.ShowsId (event : Logged) (time : Text) (runId : Option Text) : Prop where
  held : event.record.fields.get? LogRecord.idName = none →
    (LogRecord.written (event.data time runId)).get? LogRecord.idName = runId.map .text
  told : ∀ id, runId = some id → ∀ form : LineForm, ∃ text,
    form.lines (LogRecord.written (event.data time runId)) = form.cut text ∧
      form.told LogRecord.idName id <:+: text

theorem Logged.showsId (event : Logged) (time : Text) (runId : Option Text) :
    event.ShowsId time runId where
  held free := by
    rw [LogRecord.written_get? _ (by decide)]
    exact LogRecord.entries_get?_idName free time runId
  told id bound form := by
    have found : (LogRecord.written (event.data time runId)).get? LogRecord.idName =
        some (.text id) := by
      rw [LogRecord.written_get? _ (by decide), bound]
      exact LogRecord.get?_put_idName _ _
    obtain ⟨entry, first, content⟩ := Option.map_eq_some_iff.mp found
    have same := List.find?_some first
    obtain ⟨name, value⟩ := entry
    cases (Value.sameKey_text_iff name LogRecord.idName).mp same
    cases content
    exact ⟨_, form.lines_eq _,
      form.told_infix_text (List.mem_of_find?_eq_some first) (by decide) (by decide)⟩

namespace Session

/-- Events are written by outputs of the settings alone, and once by each output at most. -/
structure Replaces (session : Session) (settings : LogSettings) : Prop where
  elsewhere : ∀ time request event, session.Logs request event → ∀ sink,
    (∀ output ∈ settings.outputs, Logging.sinkOf output.destination ≠ sink) →
      (session.answer time request).1.logging.journal.lines sink = session.logging.journal.lines sink
  once : ∀ time request event, session.Logs request event → ∀ sink, ∃ takers : List LogOutput,
    takers.Sublist (settings.outputs.filter fun output =>
      Logging.sinkOf output.destination = sink) ∧
    (session.answer time request).1.logging.journal.lines sink =
      session.logging.journal.lines sink ++ takers.flatMap fun output =>
        output.form.lines (LogRecord.written (event.data time session.ids.current))

variable {session : Session} {settings : LogSettings}

theorem Logs.exists_takers {request : Request} {event : Logged} (logs : session.Logs request event)
    (follows : session.logging.Follows settings) (given : settings.outputs ≠ []) (time : Text)
    (sink : Sink) : ∃ takers : List LogOutput,
      takers.Sublist (settings.outputs.filter fun output =>
        Logging.sinkOf output.destination = sink) ∧
      (session.answer time request).1.logging.journal.lines sink =
        session.logging.journal.lines sink ++ takers.flatMap fun output =>
          output.form.lines (LogRecord.written (event.data time session.ids.current)) := by
  obtain ⟨output, member⟩ := List.exists_mem_of_ne_nil _ given
  rw [logs.answer_lines follows, LogSettings.share_eq member]
  split
  · refine ⟨settings.takers event.severity sink, ?_, rfl⟩
    rw [LogSettings.takers, ← List.filter_filter]
    exact List.filter_sublist.filter _
  · exact ⟨[], List.nil_sublist _, rfl⟩

theorem replaces_iff (follows : session.logging.Follows settings) :
    session.Replaces settings ↔ settings.outputs ≠ [] := by
  constructor
  · intro replaces none
    have logs : session.Logs (.foreign { severity := .critical } .null) _ := .foreign
    have silent := replaces.elsewhere [] _ _ logs .stderr (by simp [none])
    -- Without any output a critical event still reaches the error stream.
    have route : settings.routes .critical .stderr = [Option.none] := by
      have passed : Severity.critical.passes settings.level = true := by
        cases settings.level <;> rfl
      simp [LogSettings.routes, passed, none]
      rfl
    rw [logs.answer_lines follows, List.append_right_eq_self, LogSettings.share,
      Logged.severity, Logged.record, route] at silent
    simp [Logged.linesIn, Text.closedLines_ne_nil] at silent
  · intro given
    refine ⟨fun time request event logs sink away => ?_,
      fun time request event logs sink => logs.exists_takers follows given time sink⟩
    obtain ⟨takers, among, written⟩ := logs.exists_takers follows given time sink
    have noneHere : (settings.outputs.filter fun output =>
        Logging.sinkOf output.destination = sink) = [] := by
      rw [List.filter_eq_nil_iff]
      exact fun output member => by simpa using away output member
    rw [noneHere] at among
    rw [written, List.sublist_nil.mp among, List.flatMap_nil, List.append_nil]

/-- Behind a configuration, a run in which none fails adds its transcript to what was written before.
What an event writes then is decided by the last configuration and the bound id, which it shows; and
outputs of this configuration alone write it, once each at most, exactly if there are any. -/
theorem reconfiguring_replaces_iff (before : Session) (begun : Text) (settings : LogSettings)
    (configured : (before.answer begun (.configure settings)).2 = .ok none)
    (later : List (Text × Request))
    (succeeds : (before.answer begun (.configure settings)).1.Succeeds later) :
    let session := (before.answer begun (.configure settings)).1.run later
    (∀ sink, session.logging.journal.lines sink =
      before.logging.journal.lines sink ++ settings.transcript sink before.ids later) ∧
    (∀ time request event, session.Logs request event →
      (∀ sink, (session.answer time request).1.logging.journal.lines sink =
        session.logging.journal.lines sink ++
          (settings.behind later).share time session.ids.current event sink) ∧
      event.ShowsId time session.ids.current) ∧
    (session.Replaces (settings.behind later) ↔ (settings.behind later).outputs ≠ []) := by
  have begins := Logging.follows_configured (configure_of_success configured)
  have follows : ((before.answer begun (.configure settings)).1.run later).logging.Follows
      (settings.behind later) := follows_run begins succeeds
  refine ⟨fun sink => ?_, fun time request event logs => ⟨fun sink => ?_, ?_⟩, replaces_iff follows⟩
  · rw [run_lines begins succeeds]
    exact congrArg (· ++ _) (Logging.configure_lines _ _ _)
  · exact logs.answer_lines follows time sink
  · exact event.showsId time _

/-- Events and an id under two further configurations. -/
def changingRequests : List (Text × Request) :=
  [("", .log { verb := { severity := .error }, event := "lost", fields := [("step", .int 1)] }),
    ("", .setId (some "r1")), ("", .configure layeredSettings), ("", .configure {}),
    ("", .foreign { severity := .info } "begun")]

theorem reconfiguring_replaces_of_changingRequests :
    let session := (({} : Session).answer "" (.configure layeredSettings)).1
    (({} : Session).answer "" (.configure layeredSettings)).2 = .ok none ∧
      session.Succeeds changingRequests ∧ (session.run changingRequests).Replaces {} := by
  have configured : (({} : Session).answer "" (.configure layeredSettings)).2 = .ok none := rfl
  have succeeds : (({} : Session).answer "" (.configure layeredSettings)).1.Succeeds
      changingRequests :=
    ⟨nofun, nofun, fun _ => rfl, fun _ => rfl, nofun, trivial⟩
  have replaced := reconfiguring_replaces_iff {} "" layeredSettings configured changingRequests succeeds
  exact ⟨configured, succeeds, replaced.2.2.mpr (List.cons_ne_nil _ _)⟩

/-- Nothing is to be written anywhere. -/
def silentSettings : LogSettings where
  outputs := []

/-- A configuration without outputs leaves serious events from elsewhere to the error stream, and there
they do not show the bound id. -/
theorem silent_configuration_still_writes :
    let session := ({} : Session).run
      [("", .configure {}), ("", .configure silentSettings), ("", .setId (some "r1"))]
    ({} : Session).Succeeds
      [("", .configure {}), ("", .configure silentSettings), ("", .setId (some "r1"))] ∧
      session.ids.current = some (Text.ofString "r1") ∧
      session.logging.journal.lines .stderr = [] ∧
      (session.answer "" (.foreign { severity := .warning } "late")).1.logging.journal.lines .stderr =
        [Text.ofString "late"] :=
  ⟨⟨fun _ => rfl, fun _ => rfl, nofun, trivial⟩, rfl, rfl, rfl⟩

end Session

end ApiSurface
