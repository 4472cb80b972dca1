import ApiSurface.Change
import ApiSurface.Hierarchy
import ApiSurface.Log.Event

/-!
Reconciling two snapshots. Elements that are equal on both sides are pruned and the others paired by
identity. Members that live on in an ancestor, and whatever stands inside an added or removed
container, are not reported; a lost annotation is traced to the sibling that now carries it.
-/

namespace ApiSurface

/-- A condition that the stages rely on and check; none of them fails on snapshots. -/
inductive Breach
  | repeatedIdentity
  | differentIdentity
  | emptyChange
  | annotationKept
  deriving DecidableEq

structure Work where
  old : List Element
  new : List Element
  unchanged : Nat

def prune (old new : Snapshot) : Work :=
  let unchanged := new.elements.filter (· ∈ old.elements)
  { old := old.elements.filter (· ∉ unchanged)
    new := new.elements.filter (· ∉ unchanged)
    unchanged := unchanged.length }

/-- The entries of the new side, the old elements without a counterpart, and the number of added
elements that are left out because they are deprecated already. -/
structure Pairing where
  entries : List Entry
  leftovers : List Element
  suppressed : Nat

def pairElement (suppress : Bool) (old : List Element) (element : Element) :
    Except Breach (Option Entry) :=
  match old.find? (·.identity == element.identity) with
  | none => .ok (if suppress && element.isDeprecated then none else some ⟨element, none⟩)
  | some counterpart =>
    match Change.between? counterpart element with
    | none => .error .differentIdentity
    | some change => if change.isEmpty then .error .emptyChange else .ok (some ⟨element, some change⟩)

def pairElements (suppress : Bool) (work : Work) : Except Breach Pairing := do
  if ¬ (work.old.map Element.identity).Nodup then throw .repeatedIdentity
  let paired ← work.new.mapM (pairElement suppress work.old)
  let entries := paired.filterMap id
  let matched := (entries.filter (·.change.isSome)).map (·.element.identity)
  return {
    entries
    leftovers := work.old.filter (·.identity ∉ matched)
    suppressed := paired.length - entries.length }

def isReparented (hierarchy : Hierarchy) (entries : List Entry) (old : Element) : Bool :=
  match old.containerName? with
  | none => false
  | some type => old.kind.isMember && entries.any fun entry =>
    let candidate := entry.element
    candidate.kind.isMember && candidate.name == old.name &&
      match candidate.containerName? with
      | none => false
      | some ancestor => hierarchy.reaches ancestor type

def wholesale (entries : List Entry) : List Path :=
  (entries.filter (·.status != .changed)).map (·.element.identity)

/-- Drops what stands directly inside an added or removed element. -/
def dropEnclosed (entries : List Entry) : List Entry :=
  let containers := wholesale entries
  entries.filter (·.element.container ∉ containers)

def moveTargets (entries : List Entry) (element : Element) (change : Change) : List Element :=
  (entries.map (·.element)).filter fun other =>
    other.kind.isMember && other.container == element.container && change.annotates other

/-- Traces the annotation that an entry lost, if exactly one sibling carries it. -/
def attributeMove (entries : List Entry) (entry : Entry) :
    Except Breach (Entry × Option Notice) :=
  match entry.change with
  | none => .ok (entry, none)
  | some change =>
    if entry.element.kind.isMember && change.losesAnnotation then
      match moveTargets entries entry.element change with
      | [target] =>
        match change.moveTo? target.name with
        | none => .error .annotationKept
        | some moved => .ok ({ entry with change := some moved },
            some (.moved entry.element.name target.name change.oldIdentifier))
      | _ => .ok (entry, none)
    else .ok (entry, none)

def attributeMoves (entries : List Entry) : Except Breach (List Entry × List Notice) := do
  let attributed ← entries.mapM (attributeMove entries)
  return (attributed.map (·.1), attributed.filterMap (·.2))

def sortEntries (entries : List Entry) : List Entry :=
  entries.mergeSort fun left right => left.element.precedes right.element

def countNotice (notice : Nat → Notice) (count : Nat) : List Notice :=
  if count = 0 then [] else [notice count]

structure Report where
  entries : List Entry
  notices : List Notice

def reconcile (old new : Snapshot) (hierarchy : Hierarchy) (suppress : Bool) :
    Except Breach Report := do
  let work := prune old new
  let pairing ← pairElements suppress work
  let removed := pairing.leftovers.filter (!isReparented hierarchy pairing.entries ·)
  let removals := removed.map fun element => Entry.mk element (some (.removed element.kind))
  let newEntries := dropEnclosed pairing.entries
  let oldEntries := dropEnclosed removals
  let (newEntries, moves) ← attributeMoves newEntries
  let entries := sortEntries (newEntries ++ oldEntries)
  let count (status : Status) : Nat := entries.countP (·.status == status)
  return {
    entries
    notices := [.pruned work.unchanged work.old.length work.new.length]
      ++ countNotice .suppressed pairing.suppressed
      ++ countNotice .reparented (pairing.leftovers.length - removed.length)
      ++ countNotice .enclosed (pairing.entries.length - newEntries.length)
      ++ countNotice .enclosed (removals.length - oldEntries.length)
      ++ moves
      ++ [.computed old.version new.version (count .added) (count .changed) oldEntries.length] }

end ApiSurface
