import ApiSurface.Text

/-!
The severity of events. An output takes the events of its own level and above.
-/

namespace ApiSurface

inductive Severity
  | debug
  | info
  | warning
  | error
  | critical
  deriving DecidableEq

namespace Severity

def all : List Severity := [.debug, .info, .warning, .error, .critical]

def rank : Severity → Nat
  | .debug => 10
  | .info => 20
  | .warning => 30
  | .error => 40
  | .critical => 50

def word : Severity → Text
  | .debug => "debug"
  | .info => "info"
  | .warning => "warning"
  | .error => "error"
  | .critical => "critical"

def label : Severity → Text
  | .debug => "DEBUG"
  | .info => "INFO"
  | .warning => "WARNING"
  | .error => "ERROR"
  | .critical => "CRITICAL"

def ofWord? (word : Text) : Option Severity := all.find? (·.word == word)

def ofLabel? (label : Text) : Option Severity := all.find? (·.label == label)

def passes (severity level : Severity) : Bool := level.rank ≤ severity.rank

end Severity

end ApiSurface
