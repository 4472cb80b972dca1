import ApiSurface.Log.Journal
import ApiSurface.Log.Line
import ApiSurface.Log.Verb

/-!
Writing events to the configured outputs. An event must reach the common level first and then the
level of each output. A new configuration replaces the outputs of the one before it.
-/

namespace ApiSurface

structure OpenOutput where
  form : LineForm
  sink : Sink
  level : Severity

structure Logging where
  level : Severity := .warning
  outputs : List OpenOutput := []
  journal : Journal := {}

namespace Logging

def sinkOf : Destination → Sink
  | .stdout => .stdout
  | .stderr => .stderr
  | .file path => .file (AbsolutePath.resolvedParts path.parts)

def openOutput (logging : Logging) (output : LogOutput) : Logging × Option Failure :=
  let (journal, failure) := match output.destination with
    | .file path => logging.journal.openFile path
    | _ => (logging.journal, none)
  match failure with
  | some failure => ({ logging with journal }, some failure)
  | none =>
    let opened := ⟨output.form, sinkOf output.destination, output.level.getD logging.level⟩
    ({ logging with journal, outputs := logging.outputs ++ [opened] }, none)

def openOutputs (logging : Logging) : List LogOutput → Logging × Option Failure
  | [] => (logging, none)
  | output :: rest =>
    match logging.openOutput output with
    | (failed, some failure) => (failed, some failure)
    | (opened, none) => openOutputs opened rest

def configure (logging : Logging) (settings : LogSettings) : Logging × Option Failure :=
  openOutputs { logging with level := settings.level, outputs := [] } settings.outputs

/-- Without any output serious events still go to the error stream, as they are. -/
def lastResort (logging : Logging) (severity : Severity) (line : Text) : Logging :=
  if severity.passes .warning then
    { logging with journal := logging.journal.append .stderr line.closedLines }
  else logging

def writeTo (severity : Severity) (entries : Entries) (journal : Journal) (output : OpenOutput) :
    Journal :=
  if severity.passes output.level then
    journal.append output.sink (output.form.lines (LogRecord.written entries))
  else journal

def deliver (logging : Logging) (severity : Severity) (entries : Entries) (plain : Text) : Logging :=
  if !severity.passes logging.level then logging
  else if logging.outputs.isEmpty then logging.lastResort severity plain
  else { logging with
    journal := logging.outputs.foldl (writeTo severity entries) logging.journal }

def write (logging : Logging) (time : Text) (runId : Option Text) (record : LogRecord) : Logging :=
  let entries := record.entries time runId
  logging.deliver record.severity entries (Value.map entries).written

/-- Stands for the trace of an error where none is being handled. -/
def noTrace : Text := "NoneType: None"

def withTrace (message : Text) : Text :=
  if message.getLast? = some Text.lineFeed then message ++ noTrace else message ++ "\n" ++ noTrace

def writeForeign (logging : Logging) (time : Text) (runId : Option Text) (verb : Verb)
    (event : Value) : Logging :=
  let record : LogRecord := {
    severity := verb.severity
    event := event.shown
    fields := if verb.isTraced then [("exc_info", .list [.null, .null, .null])] else [] }
  let plain := if verb.isTraced then withTrace event.shown else event.shown
  logging.deliver verb.severity (record.entries time runId) plain

end Logging

def LogSettings.simple (homes : Homes) (level : Value) (form : LineForm) :
    Schema.Checked LogSettings :=
  (LogSettings.read homes (.map [("level", level)])).map fun settings =>
    { settings with outputs := [{ form }] }

end ApiSurface
