import ApiSurface.Proofs.Scoping
import Mathlib.Data.List.Basic

/-! What a session of logging writes. An event adds to every sink what the settings in force say of it,
and a whole run adds what its events add one after the other. -/

namespace ApiSurface

namespace Journal

theorem lines_append (journal : Journal) (sink : Sink) (added : List Text) (other : Sink) :
    (journal.append sink added).lines other =
      journal.lines other ++ if other = sink then added else [] := by
  by_cases same : other = sink
  · subst same
    simp [append, lines, Assoc.lookup_put]
  · simp [append, lines, Assoc.lookup_put, same]

theorem makeDirectories_written (journal : Journal) (done parts : List Text) :
    (journal.makeDirectories done parts).1.written = journal.written := by
  induction parts generalizing journal done with
  | nil => rfl
  | cons part rest ih =>
      simp only [makeDirectories]
      split
      · rfl
      split
      · rfl
      split
      · exact ih journal _
      · exact ih _ _

theorem makeParents_written (journal : Journal) (parts : List Text) :
    (journal.makeParents parts).1.written = journal.written := by
  unfold makeParents
  split
  · rfl
  split
  · rfl
  · exact makeDirectories_written journal [] parts

theorem openFile_lines (journal : Journal) (path : AbsolutePath) (sink : Sink) :
    (journal.openFile path).1.lines sink = journal.lines sink := by
  have prepared : (journal.makeParents path.parts.dropLast).1.lines sink = journal.lines sink := by
    rw [lines, lines, makeParents_written]
  unfold openFile
  dsimp only
  split
  · exact prepared
  · rw [lines_append, prepared]
    simp

end Journal

/-- An event on its way to the outputs: of one of this library's loggers, or a text from elsewhere. -/
inductive Logged
  | own (record : LogRecord)
  | foreign (verb : Verb) (event : Value)

namespace Logged

/-- What outputs show of an event. -/
def record : Logged → LogRecord
  | .own record => record
  | .foreign verb event => {
      severity := verb.severity
      event := event.shown
      fields := if verb.isTraced then [("exc_info", .list [.null, .null, .null])] else [] }

def severity (event : Logged) : Severity := event.record.severity

def data (event : Logged) (time : Text) (runId : Option Text) : Entries :=
  event.record.entries time runId

/-- The text of an event where there are no outputs. -/
def plain (event : Logged) (time : Text) (runId : Option Text) : Text :=
  match event with
  | .own record => (Value.map (record.entries time runId)).written
  | .foreign verb event => if verb.isTraced then Logging.withTrace event.shown else event.shown

/-- The lines of an event in a form, or as it is. -/
def linesIn (event : Logged) (time : Text) (runId : Option Text) : Option LineForm → List Text
  | some form => form.lines (LogRecord.written (event.data time runId))
  | none => (event.plain time runId).closedLines

end Logged

namespace LogSettings

/-- The level that an output really has. -/
def levelOf (settings : LogSettings) (output : LogOutput) : Severity :=
  output.level.getD settings.level

/-- The outputs at a sink that take an event of some severity, once it has passed the common level. -/
def takers (settings : LogSettings) (severity : Severity) (sink : Sink) : List LogOutput :=
  settings.outputs.filter fun output =>
    Logging.sinkOf output.destination = sink && severity.passes (settings.levelOf output)

/-- The ways in which an event is written to a sink, in order: in the form of each output that takes
it, or as it is where there are no outputs at all. -/
def routes (settings : LogSettings) (severity : Severity) (sink : Sink) : List (Option LineForm) :=
  if !severity.passes settings.level then []
  else if settings.outputs.isEmpty then
    if sink = .stderr ∧ severity.passes .warning = true then [none] else []
  else (settings.takers severity sink).map fun output => some output.form

/-- What an event adds to a sink. -/
def share (settings : LogSettings) (time : Text) (runId : Option Text) (event : Logged)
    (sink : Sink) : List Text :=
  (settings.routes event.severity sink).flatMap (event.linesIn time runId)

theorem share_of_stopped {settings : LogSettings} {event : Logged}
    (stopped : event.severity.passes settings.level = false) (time : Text) (runId : Option Text)
    (sink : Sink) : settings.share time runId event sink = [] := by
  simp [share, routes, stopped]

end LogSettings

namespace Logging

/-- The settings are in force. -/
structure Follows (logging : Logging) (settings : LogSettings) : Prop where
  level : logging.level = settings.level
  outputs : logging.outputs = settings.outputs.map fun output =>
    ⟨output.form, sinkOf output.destination, settings.levelOf output⟩

def take (logging : Logging) (time : Text) (runId : Option Text) : Logged → Logging
  | .own record => logging.write time runId record
  | .foreign verb event => logging.writeForeign time runId verb event

theorem take_eq (logging : Logging) (time : Text) (runId : Option Text) (event : Logged) :
    logging.take time runId event =
      logging.deliver event.severity (event.data time runId) (event.plain time runId) := by
  cases event <;> rfl

theorem Follows.deliver {logging : Logging} {settings : LogSettings}
    (follows : logging.Follows settings) (severity : Severity) (entries : Entries) (plain : Text) :
    (logging.deliver severity entries plain).Follows settings := by
  unfold Logging.deliver lastResort
  split
  · exact follows
  split
  · split
    · exact ⟨follows.level, follows.outputs⟩
    · exact follows
  · exact ⟨follows.level, follows.outputs⟩

theorem foldl_writeTo_lines (severity : Severity) (entries : Entries) (sink : Sink)
    (outputs : List OpenOutput) (journal : Journal) :
    (outputs.foldl (writeTo severity entries) journal).lines sink = journal.lines sink ++
      (outputs.filter fun output => output.sink = sink && severity.passes output.level).flatMap
        fun output => output.form.lines (LogRecord.written entries) := by
  induction outputs generalizing journal with
  | nil => simp
  | cons output rest ih =>
      rw [List.foldl_cons, ih, writeTo]
      cases taken : severity.passes output.level with
      | false => simp [taken]
      | true =>
          by_cases here : output.sink = sink
          · subst here
            simp [Journal.lines_append, taken]
          · have away : ¬ sink = output.sink := fun same => here same.symm
            simp [Journal.lines_append, taken, here, away]

variable {logging : Logging} {settings : LogSettings}

theorem Follows.take (follows : logging.Follows settings) (time : Text) (runId : Option Text)
    (event : Logged) : (logging.take time runId event).Follows settings := by
  rw [take_eq]
  exact follows.deliver _ _ _

/-- An event adds to every sink what the settings in force say of it. -/
theorem Follows.take_lines (follows : logging.Follows settings) (time : Text)
    (runId : Option Text) (event : Logged) (sink : Sink) :
    (logging.take time runId event).journal.lines sink =
      logging.journal.lines sink ++ settings.share time runId event sink := by
  rw [take_eq, Logging.deliver, follows.level, follows.outputs, LogSettings.share,
    LogSettings.routes]
  cases event.severity.passes settings.level with
  | false => simp
  | true =>
      cases none : settings.outputs.isEmpty with
      | true =>
          have noOutputs : settings.outputs = [] := List.isEmpty_iff.mp none
          cases serious : event.severity.passes .warning with
          | false => simp [noOutputs, lastResort, serious]
          | true =>
              by_cases here : sink = .stderr
              · simp [noOutputs, lastResort, serious, here, Journal.lines_append, Logged.linesIn]
              · simp [noOutputs, lastResort, serious, here, Journal.lines_append]
      | false =>
          have outputs : (settings.outputs.map fun output => (⟨output.form,
              sinkOf output.destination, settings.levelOf output⟩ : OpenOutput)).isEmpty = false := by
            rw [List.isEmpty_map, none]
          simp [outputs, foldl_writeTo_lines, List.filter_map, List.flatMap_map, Function.comp_def,
            Logged.linesIn, LogSettings.takers]

end Logging

end ApiSurface
