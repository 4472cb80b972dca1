import ApiSurface.Element

/-!
What changed about one element between two versions, and the sentence that says so.
-/

namespace ApiSurface

/-- The old and new value of an aspect are present only when the aspect differs; a flag holds its
new value when it flipped. -/
structure Change where
  kind : Kind
  isRemoved : Bool := false
  oldIdentifier : Option Text := none
  newIdentifier : Option Text := none
  oldType : Option Text := none
  newType : Option Text := none
  oldObligation : Option Obligation := none
  newObligation : Option Obligation := none
  isPublic : Option Bool := none
  isDeprecated : Option Bool := none
  /-- The sibling that now carries the identifier. -/
  movedTo : Option Text := none
  deriving DecidableEq

namespace Change

def removed (kind : Kind) : Change := { kind, isRemoved := true }

def differing {α : Type} [DecidableEq α] (old new : Option α) : Option α × Option α :=
  if old = new then (none, none) else (old, new)

def flipped (old new : Bool) : Option Bool := if old = new then none else some new

def compared (old new : Element) : Change :=
  let identifiers := differing old.identifier new.identifier
  let types := differing old.declaredType new.declaredType
  let obligations := differing old.obligation new.obligation
  { kind := new.kind
    oldIdentifier := identifiers.1
    newIdentifier := identifiers.2
    oldType := types.1
    newType := types.2
    oldObligation := obligations.1
    newObligation := obligations.2
    isPublic := flipped old.isPublic new.isPublic
    isDeprecated := flipped old.isDeprecated new.isDeprecated }

def between? (old new : Element) : Option Change :=
  if old.identity = new.identity then some (compared old new) else none

def isEmpty (change : Change) : Bool :=
  !change.isRemoved && change.oldIdentifier.isNone && change.newIdentifier.isNone
    && change.oldType.isNone && change.newType.isNone && change.oldObligation.isNone
    && change.newObligation.isNone && change.isPublic.isNone && change.isDeprecated.isNone

/-- Whether both the identifier and the obligation were dropped. -/
def losesAnnotation (change : Change) : Bool :=
  change.oldIdentifier.isSome && change.newIdentifier.isNone && change.oldObligation.isSome
    && change.newObligation.isNone

def annotates (change : Change) (other : Element) : Bool :=
  change.losesAnnotation && other.identifier == change.oldIdentifier
    && other.obligation == change.oldObligation

def moveTo? (change : Change) (name : Text) : Option Change :=
  if change.losesAnnotation then some { change with movedTo := some name } else none

def typeLabel (change : Change) : Text :=
  if change.kind = .method then "Return type" else if change.kind.isMember then "Type" else "Parent"

def pairSegment (label : Text) : Option Text → Option Text → List Text
  | some old, some new => [label ++ " changed from “" ++ old ++ "” to “" ++ new ++ "”"]
  | none, some new => [label ++ " set to “" ++ new ++ "”"]
  | some old, none => [label ++ " “" ++ old ++ "” removed"]
  | none, none => []

def flagSegment (onTrue onFalse : Text) : Option Bool → List Text
  | some true => [onTrue]
  | some false => [onFalse]
  | none => []

def annotationSegments (change : Change) : List Text :=
  match change.movedTo with
  | some name => ["UML annotation moved to " ++ name]
  | none =>
    pairSegment "OGC/ISO identifier" change.oldIdentifier change.newIdentifier
      ++ pairSegment "Obligation" (change.oldObligation.map Obligation.label)
        (change.newObligation.map Obligation.label)

def segments (change : Change) : List Text :=
  flagSegment "Deprecated" "Not deprecated anymore" change.isDeprecated
    ++ change.annotationSegments
    ++ pairSegment change.typeLabel (change.oldType.map Text.afterLastDot)
      (change.newType.map Text.afterLastDot)
    ++ flagSegment "Made public" "Made protected" change.isPublic

def sentence (change : Change) : Text :=
  if change.isRemoved then "Removed." else Text.join ", " change.segments ++ "."

end Change

/-- One line of a report: an element and its change, or nothing if the element was added. -/
structure Entry where
  element : Element
  change : Option Change
  deriving DecidableEq

inductive Status
  | added
  | changed
  | removed
  deriving DecidableEq

def Status.word : Status → Text
  | .added => "added"
  | .changed => "changed"
  | .removed => "removed"

namespace Entry

def status (entry : Entry) : Status :=
  match entry.change with
  | none => .added
  | some change => if change.isRemoved then .removed else .changed

def sentence (entry : Entry) : Text :=
  match entry.change with
  | none => "Added."
  | some change => change.sentence

def isBreaking (entry : Entry) : Bool :=
  match entry.change with
  | none => false
  | some change =>
    change.isRemoved || change.isPublic == some false || change.oldType.isSome
      || change.newType.isSome

end Entry

end ApiSurface
