import ApiSurface.Homes
import ApiSurface.Log.Severity
import ApiSurface.Schema.Record
import ApiSurface.Schema.Scalar

/-!
The settings: where events are logged, and the policy of a comparison. Every field has a value of
its own, so that a source of settings may leave out any of them.
-/

namespace ApiSurface

inductive LineForm
  | json
  | console
  deriving DecidableEq

inductive Destination
  | stderr
  | stdout
  | file (path : AbsolutePath)
  deriving DecidableEq

/-- One of the places that events are written to; without a level it takes the common one. -/
structure LogOutput where
  form : LineForm := .console
  destination : Destination := .stderr
  level : Option Severity := none
  deriving DecidableEq

structure LogSettings where
  level : Severity := .info
  outputs : List LogOutput := [{}]
  deriving DecidableEq

structure Policy where
  suppressNewDeprecated : Bool := true
  nameLimit : Nat := 5
  positive : 1 ≤ nameLimit := by decide
  deriving DecidableEq

def Policy.standard : Policy := {}

structure Settings where
  logging : LogSettings := {}
  policy : Policy := .standard
  deriving DecidableEq

open Schema

namespace LineForm

def all : List LineForm := [.json, .console]

def word : LineForm → Text
  | .json => "json"
  | .console => "console"

def read : Reader LineForm := literal (all.map fun form => (form.word, form))

end LineForm

namespace Destination

def word : Destination → Text
  | .stderr => "stderr"
  | .stdout => "stdout"
  | .file path => path.shown

def ofText (homes : Homes) (input : Value) (content : Text) : Checked Destination :=
  if content = "stderr" then .accepted .stderr
  else if content = "stdout" then .accepted .stdout
  else match homes.locate content with
    | .found path => .accepted (.file path)
    | .relative => .refuse (.forbidden ("File destination must be absolute path: " ++ content)) input
    | .unknownUser => .refuse .unknownUser input
    | .unusable cause => .refuse (.forbidden cause.message) input

def read (homes : Homes) : Reader Destination := fun value => (text value).andThen (ofText homes value)

end Destination

def Severity.read : Reader Severity := literal (all.map fun severity => (severity.label, severity))

def LogOutput.read (homes : Homes) : Reader LogOutput :=
  openRecord "LogOutputConfig" fun entries => LogOutput.mk
    <$> defaulted "format" .console LineForm.read entries
    <*> defaulted "destination" .stderr (Destination.read homes) entries
    <*> defaulted "level" none (nullable Severity.read) entries

def LogSettings.read (homes : Homes) : Reader LogSettings :=
  openRecord "LoggingConfig" fun entries => LogSettings.mk
    <$> defaulted "level" .info Severity.read entries
    <*> defaulted "outputs" [{}] (list (LogOutput.read homes)) entries

namespace Policy

abbrev NameLimit := { limit : Nat // 1 ≤ limit }

def readNameLimit : Reader NameLimit := fun value => (whole value).andThen fun number =>
  if positive : 1 ≤ number.toNat then .accepted ⟨number.toNat, positive⟩
  else if (Value.int number).isShowable then
    .refuse (.forbidden ("Must be at least 1, got " ++ Text.ofInt number)) value
  else .refuse (.forbidden Flaw.digitLimit) value

def read : Reader Policy :=
  openRecord "DiffConfig" fun entries =>
    (fun suppress limit => (⟨suppress, limit.val, limit.property⟩ : Policy))
    <$> defaulted "suppress_new_deprecated" true flag entries
    <*> defaulted "breaking_summary_max_names" ⟨5, by decide⟩ readNameLimit entries

end Policy

namespace Settings

def fields (homes : Homes) (entries : Entries) : Checked Settings :=
  Settings.mk
    <$> defaulted "logging" {} (LogSettings.read homes) entries
    <*> defaulted "diff" {} Policy.read entries

def read (homes : Homes) : Reader Settings := openRecord "ApiDiffConfig" (fields homes)

def sectionNames : List Text := ["logging", "diff"]

def readClosed (homes : Homes) : Reader Settings :=
  closedRecord "ApiDiffSettings" sectionNames (fields homes)

end Settings

def LogOutput.dump (output : LogOutput) : Value :=
  let level : Value := match output.level with
    | none => .null
    | some level => .text level.label
  .map [("format", output.form.word), ("destination", output.destination.word), ("level", level)]

def LogSettings.dump (settings : LogSettings) : Value :=
  .map [("level", settings.level.label), ("outputs", .list (settings.outputs.map LogOutput.dump))]

def Policy.dump (policy : Policy) : Value :=
  .map [("suppress_new_deprecated", .bool policy.suppressNewDeprecated),
    ("breaking_summary_max_names", policy.nameLimit)]

def Settings.dump (settings : Settings) : Value :=
  .map [("logging", settings.logging.dump), ("diff", settings.policy.dump)]

end ApiSurface
