import ApiSurface.Failure
import ApiSurface.Log.Severity

/-!
The words by which events are logged. Each stands for a severity; one of them also says that an
error is being handled.
-/

namespace ApiSurface

structure Verb where
  severity : Severity
  /-- Whether the event is about an error that is being handled. -/
  isTraced : Bool := false

namespace Verb

def otherName? (word : Text) : Option Severity :=
  if word = "warn" then some .warning
  else if word = "fatal" then some .critical
  else none

/-- The words that loggers of any origin know; the word for logging by number says too little. -/
def ofWord (word : Text) : Except Failure Verb :=
  match (Severity.ofWord? word).or (otherName? word) with
  | some severity => .ok { severity }
  | none =>
    if word = "exception" then .ok { severity := .error, isTraced := true }
    else if word = "log" then .error .name
    else .error .unknownVerb

/-- Words on a logger of this library that need something else than an event. -/
def misfits : List Text := ["bind", "new", "is_enabled_for", "get_effective_level"]

def ofOwnWord (word : Text) : Except Failure Verb :=
  if word = "msg" then .ok { severity := .info }
  else if misfits.contains word then .error .name
  else ofWord word

end Verb

end ApiSurface
