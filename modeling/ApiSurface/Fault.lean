import ApiSurface.Value.Display
import ApiSurface.Value.Equality

/-!
The errors that callers can act on. Every error has a code with a number and a name, a message and
details; the causes below fix all three.
-/

namespace ApiSurface

inductive Code
  | configParse
  | configValue
  | configMissing
  | snapshotParse
  | snapshotMissing
  | snapshotDuplicate
  | snapshotElement
  | snapshotHierarchy
  deriving DecidableEq

namespace Code

def all : List Code := [.configParse, .configValue, .configMissing, .snapshotParse,
  .snapshotMissing, .snapshotDuplicate, .snapshotElement, .snapshotHierarchy]

def number : Code → Nat
  | .configParse => 2001
  | .configValue => 2002
  | .configMissing => 2004
  | .snapshotParse => 3001
  | .snapshotMissing => 3002
  | .snapshotDuplicate => 3003
  | .snapshotElement => 3004
  | .snapshotHierarchy => 3005

def name : Code → Text
  | .configParse => "CONFIG_PARSE_ERROR"
  | .configValue => "CONFIG_INVALID_VALUE"
  | .configMissing => "CONFIG_FILE_NOT_FOUND"
  | .snapshotParse => "SNAPSHOT_PARSE_ERROR"
  | .snapshotMissing => "SNAPSHOT_FILE_NOT_FOUND"
  | .snapshotDuplicate => "SNAPSHOT_DUPLICATE_ELEMENT"
  | .snapshotElement => "SNAPSHOT_INVALID_ELEMENT"
  | .snapshotHierarchy => "SNAPSHOT_INVALID_HIERARCHY"

def ofNumber? (number : Int) : Option Code := all.find? fun code => (code.number : Int) == number

end Code

structure Problem where
  code : Code
  message : Value
  retryable : Value := .bool false
  details : Value := .map []

namespace Problem

def report (problem : Problem) : Entries := [
  ("code", problem.code.number),
  ("error", problem.code.name),
  ("message", problem.message),
  ("retryable", problem.retryable),
  ("details", problem.details)]

def shown (problem : Problem) : Text :=
  "[" ++ Text.ofNat problem.code.number ++ "] " ++ problem.code.name ++ ": " ++ problem.message.shown

def configParse (path reason : Value) : Problem where
  code := .configParse
  message := .text ("Failed to parse config at " ++ path.shown ++ ": " ++ reason.shown)
  details := .map [("path", path), ("reason", reason)]

def configValue (field value reason : Value) : Problem where
  code := .configValue
  message := .text ("Invalid value for '" ++ field.shown ++ "': " ++ reason.shown)
  details := .map [("field", field), ("value", value.shown), ("reason", reason)]

def configMissing (path : Value) : Problem where
  code := .configMissing
  message := .text ("Config file not found: " ++ path.shown)
  details := .map [("path", path)]

def snapshotParse (path reason : Value) : Problem where
  code := .snapshotParse
  message := .text ("Failed to parse snapshot at " ++ path.shown ++ ": " ++ reason.shown)
  details := .map [("path", path), ("reason", reason)]

def snapshotMissing (path : Value) : Problem where
  code := .snapshotMissing
  message := .text ("Snapshot file not found: " ++ path.shown)
  details := .map [("path", path)]

def duplicateElement (identity : Value) : Problem where
  code := .snapshotDuplicate
  message := .text ("Duplicate element in snapshot: " ++ identity.shown)
  details := .map [("identity", identity)]

def invalidElement (name reason : Value) : Problem where
  code := .snapshotElement
  message := .text ("Invalid element '" ++ name.shown ++ "': " ++ reason.shown)
  details := .map [("name", name), ("reason", reason)]

def invalidHierarchy (type reason : Value) : Problem where
  code := .snapshotHierarchy
  message := .text ("Invalid hierarchy entry for '" ++ type.shown ++ "': " ++ reason.shown)
  details := .map [("type", type), ("reason", reason)]

end Problem

inductive Fault
  | configParse (path reason : Text)
  | configValue (field : Text) (value : Value) (reason : Text)
  | configMissing (path : Text)
  | snapshotParse (path reason : Text)
  | snapshotMissing (path : Text)
  | duplicateElement (identity : Text)
  | invalidElement (name reason : Text)
  | invalidHierarchy (type reason : Text)
  deriving DecidableEq

namespace Fault

/-- Stands for the account of what is malformed in a document. -/
def malformed : Text := "<yaml>"

def notAMapping : Text := "top level must be a mapping"

def problem : Fault → Problem
  | .configParse path reason => .configParse path reason
  | .configValue field value reason => .configValue field value reason
  | .configMissing path => .configMissing path
  | .snapshotParse path reason => .snapshotParse path reason
  | .snapshotMissing path => .snapshotMissing path
  | .duplicateElement identity => .duplicateElement identity
  | .invalidElement name reason => .invalidElement name reason
  | .invalidHierarchy type reason => .invalidHierarchy type reason

end Fault

end ApiSurface
