import ApiSurface.Comparison
import ApiSurface.Text.Quoted

/-!
Ids of runs. An id is bound for the time of a block and given back afterwards, however the block
ends; where none is given, the bound one is used, or else a new one. The empty text is no id.

Where new ids come from is left open: nothing here says that two of them differ.
-/

namespace ApiSurface

/-- A source of random digits, thirty-two at a time. -/
structure IdSource where
  digits : Nat → Text
  size : ∀ number, (digits number).length = 32

namespace IdSource

def idAt (source : IdSource) (number : Nat) : Text := (source.digits number).take 12

/-- Counts, in the digits that ids are made of. -/
def counted : IdSource where
  digits number :=
    (Text.hexadecimal 12 (number + 1) ++ List.replicate 20 (CodePoint.ofChar '0')).take 32
  size number := by
    simp only [Text.hexadecimal, Text.ofChars, List.length_take, List.length_append,
      List.length_map, List.length_replicate]
    omega

end IdSource

structure RunIds where
  source : IdSource := .counted
  current : Option Text := none
  /-- How many ids were made so far. -/
  made : Nat := 0

namespace RunIds

def make (ids : RunIds) : Text × RunIds :=
  (ids.source.idAt ids.made, { ids with made := ids.made + 1 })

def orElse (id other : Option Text) : Option Text :=
  match id with
  | none | some [] => other
  | some id => some id

def set (ids : RunIds) (given : Option Text) : Text × RunIds :=
  match orElse given none with
  | some id => (id, { ids with current := some id })
  | none => (ids.make.1, { ids.make.2 with current := some ids.make.1 })

def clear (ids : RunIds) : RunIds := { ids with current := none }

/-- Binds the given id, or keeps the bound one, or binds a new one. -/
def enter (ids : RunIds) (given : Option Text) : Text × RunIds :=
  ids.set (orElse given ids.current)

def restore (before after : RunIds) : RunIds := { after with current := before.current }

/-- The state after a comparison, which binds an id unless its hierarchy is refused. -/
def afterComparison (ids : RunIds) (given : Option Text) (checked : Except Fault Hierarchy) : RunIds :=
  match checked with
  | .error _ => ids
  | .ok _ => ids.restore (ids.enter given).2

end RunIds

inductive Interruption
  | raised (message : Text)
  | failed (failure : Failure)

inductive Action
  | set (id : Option Text)
  | clear
  | get
  | compare (id : Option Text) (old new : Snapshot) (hierarchy : Option Hierarchy)
  | raise (message : Text)
  /-- A block with an id of its own; an interruption ends it, and goes on outside if it may. -/
  | bind (id : Option Text) (body : List Action) (propagates : Bool)

inductive Observation
  | set (id : Text)
  | cleared (current : Option Text)
  | seen (current : Option Text)
  | compared (current : Option Text)
  | entered (id : Text) (current : Option Text)
  | left (current : Option Text)
  | interrupted (cause : Interruption) (current : Option Text)

structure Course where
  observations : List Observation
  ids : RunIds
  interruption : Option Interruption := none

namespace Action

mutual

def run (ids : RunIds) : Action → Course
  | .set id => ⟨[.set (ids.set id).1], (ids.set id).2, none⟩
  | .clear => ⟨[.cleared ids.clear.current], ids.clear, none⟩
  | .get => ⟨[.seen ids.current], ids, none⟩
  | .compare id old new hierarchy =>
    let checked := Comparison.checkedHierarchy new hierarchy
    let after := ids.afterComparison id checked
    match (Comparison.ofSnapshots old new hierarchy .standard).result with
    | .ok _ => ⟨[.compared after.current], after, none⟩
    | .error failure => ⟨[], after, some (.failed failure)⟩
  | .raise message => ⟨[], ids, some (.raised message)⟩
  | .bind id body propagates =>
    let entered := ids.enter id
    let course := runAll entered.2 body
    let after := ids.restore course.ids
    let observations := .entered entered.1 entered.2.current :: course.observations
    match course.interruption with
    | none => ⟨observations ++ [.left after.current], after, none⟩
    | some cause =>
      ⟨observations ++ [.interrupted cause after.current], after, if propagates then some cause else none⟩

def runAll (ids : RunIds) : List Action → Course
  | [] => ⟨[], ids, none⟩
  | action :: rest =>
    let course := run ids action
    match course.interruption with
    | some cause => ⟨course.observations, course.ids, some cause⟩
    | none =>
      let later := runAll course.ids rest
      ⟨course.observations ++ later.observations, later.ids, later.interruption⟩

end

end Action

end ApiSurface
