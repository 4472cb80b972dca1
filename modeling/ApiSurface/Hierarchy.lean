import ApiSurface.Assoc
import ApiSurface.Snapshot

/-!
The parents of types by name. A type has at most one parent; chains of parents may leave the
snapshot and may run in circles.
-/

namespace ApiSurface

structure Hierarchy where
  pairs : List (Text × Text)
  distinct : (pairs.map (·.1)).Nodup

namespace Hierarchy

def empty : Hierarchy := ⟨[], by simp⟩

def put (hierarchy : Hierarchy) (type parent : Text) : Hierarchy :=
  ⟨Assoc.put type parent hierarchy.pairs, Assoc.nodup_keys_put type parent _ hierarchy.distinct⟩

def ofPairs (pairs : List (Text × Text)) : Hierarchy :=
  pairs.foldl (fun hierarchy pair => hierarchy.put pair.1 pair.2) empty

def parent? (hierarchy : Hierarchy) (type : Text) : Option Text := hierarchy.pairs.lookup type

def ofSnapshot (snapshot : Snapshot) : Hierarchy :=
  ofPairs (snapshot.types.filterMap fun type => type.declaredType.map fun parent => (type.name, parent))

def flaw? (typeNames : List Text) (type parent : Text) : Option Text :=
  if !typeNames.contains type then some "not a type of the new snapshot"
  else if parent = [] then some "empty parent name"
  else if parent = type then some "type is its own parent"
  else none

def firstFlaw? (typeNames : List Text) (pairs : List (Text × Text)) : Option Fault :=
  pairs.findSome? fun pair =>
    (flaw? typeNames pair.1 pair.2).map fun reason => .invalidHierarchy pair.1 reason

def validate (hierarchy : Hierarchy) (snapshot : Snapshot) : Except Fault Unit :=
  match firstFlaw? (snapshot.types.map (·.name)) hierarchy.pairs with
  | some fault => .error fault
  | none => .ok ()

/-- Climbs from a type, at most `steps` times, and stops at a name that was seen before. -/
def climb (hierarchy : Hierarchy) (ancestor : Text) : Nat → List Text → Option Text → Bool
  | 0, _, _ => false
  | _ + 1, _, none => false
  | steps + 1, seen, some type =>
    if type ∈ seen then false
    else if type = ancestor then true
    else climb hierarchy ancestor steps (type :: seen) (hierarchy.parent? type)

def reaches (hierarchy : Hierarchy) (ancestor type : Text) : Bool :=
  hierarchy.climb ancestor (hierarchy.pairs.length + 1) [] (some type)

end Hierarchy

end ApiSurface
