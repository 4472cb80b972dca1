import ApiSurface.Fault
import ApiSurface.Reconcile
import ApiSurface.Schema.Checked
import ApiSurface.Yaml.Fault

/-!
The ways in which an operation can fail. A fault is meant for callers; the other failures come from
the places that data is read from and written to.
-/

namespace ApiSurface

inductive Failure
  | fault (cause : Fault)
  | breach (cause : Breach)
  | shape (first : Schema.Issue) (others : List Schema.Issue)
  /-- A scalar of a document has no value. -/
  | content (cause : Yaml.Fault)
  | encoding
  | directory
  | fileInTheWay
  | pathThroughFile
  | longPath
  | strangePath
  | environment
  | depth
  /-- The name of a setting or of a field of an event cannot be used. -/
  | name
  | unknownUser
  | unknownVerb
  | unshowable
  | unknownWord (input : Value) (category : Text)
  deriving DecidableEq

namespace Failure

def ofFlaw? : Schema.Flaw → Option Failure
  | .unknownUser => some .unknownUser
  | .unshowable => some .unshowable
  | _ => none

/-- Shape issues as a failure; a flaw that is more than an issue comes before all issues. -/
def ofIssues (first : Schema.Issue) (others : List Schema.Issue) : Failure :=
  ((first :: others).findSome? fun issue => ofFlaw? issue.flaw).getD (.shape first others)

def notValid (input : Value) (category : Text) : Text :=
  input.written ++ " is not a valid " ++ category

end Failure

def Schema.Checked.orFail {α : Type} : Schema.Checked α → Except Failure α
  | .accepted value => .ok value
  | .refused first others => .error (.ofIssues first others)

def Kind.ofValue : Value → Except Failure Kind
  | .text word => match ofWord? word with
    | some kind => .ok kind
    | none => .error (.unknownWord word "ElementKind")
  | input => .error (.unknownWord input "ElementKind")

def Obligation.ofValue : Value → Except Failure (Option Obligation)
  | .null => .ok none
  | .text word => match ofWord? word with
    | some obligation => .ok (some obligation)
    | none => .error (.unknownWord word "Obligation")
  | input => .error (.unknownWord input "Obligation")

def Code.ofValue (input : Value) : Except Failure Code :=
  match input.toInt?.bind ofNumber? with
  | some code => .ok code
  | none => .error (.unknownWord input "ErrorCode")

end ApiSurface
