import ApiSurface.Schema.Issue

/-!
Results of checking data against a shape. All issues are kept, in the order of the shape, and the
parts of a record are checked independently of each other.
-/

namespace ApiSurface.Schema

inductive Checked (α : Type)
  | accepted (value : α)
  | refused (first : Issue) (others : List Issue)

abbrev Reader (α : Type) := Value → Checked α

namespace Checked

variable {α β : Type}

def issues : Checked α → List Issue
  | .accepted _ => []
  | .refused first others => first :: others

def refuse (flaw : Flaw) (input : Value) : Checked α := .refused { flaw, input } []

def map (change : α → β) : Checked α → Checked β
  | .accepted value => .accepted (change value)
  | .refused first others => .refused first others

/-- Applies one part to another; the issues of the first part come first. -/
def both : Checked (α → β) → Checked α → Checked β
  | .accepted change, part => part.map change
  | .refused first others, part => .refused first (others ++ part.issues)

instance : Applicative Checked where
  pure := .accepted
  seq parts part := both parts (part ())

def andThen (next : α → Checked β) : Checked α → Checked β
  | .accepted value => next value
  | .refused first others => .refused first others

def within (place : Place) : Checked α → Checked α
  | .accepted value => .accepted value
  | .refused first others => .refused (first.within place) (others.map (·.within place))

def ofIssues : List Issue → Checked Unit
  | [] => .accepted ()
  | first :: others => .refused first others

end Checked

end ApiSurface.Schema
