import ApiSurface.Yaml.Content

/-!
From nodes to values. A part that stands in several places is put into all of them. Where a
collection is a part of itself, it is put into itself under a label, again and again up to a depth
below which nothing new comes.
-/

namespace ApiSurface.Yaml

def Made.value (part : NodeId → Value) : Made → Value
  | .leaf value => value
  | .list items => .list (items.map part)
  | .pairs items => .list (items.map fun item => .pair (part item.1) (part item.2))
  | .set items => .set items
  | .map entries => .map (entries.map fun entry => (entry.1, part entry.2))

def Made.parts : Made → List NodeId
  | .leaf _ | .set _ => []
  | .list items => items
  | .pairs items => items.flatMap fun item => [item.1, item.2]
  | .map entries => entries.map (·.2)

structure Unfolding where
  made : Array (Option Made)
  values : Array (Option Value)

namespace Unfolding

def value (unfolding : Unfolding) (id : NodeId) : Value := (unfolding.values[id]?.join).getD .null

/-- Finds the value of a node after those of its parts. There is none if a path of more parts than
there are nodes leads down from it, that is, in circles. -/
def settle? (unfolding : Unfolding) : Nat → NodeId → Option Unfolding
  | 0, _ => none
  | bound + 1, id =>
    match unfolding.values[id]?.join, unfolding.made[id]?.join with
    | some _, _ => some unfolding
    | none, none => some unfolding
    | none, some made => do
      let settled ← made.parts.foldlM (fun unfolding part => unfolding.settle? bound part) unfolding
      let value := made.value settled.value
      return { settled with values := settled.values.setIfInBounds id (some value) }

def labelled (unfolding : Unfolding) (id : NodeId) (made : Made) : Value :=
  match made with
  | .leaf value => value
  | made => .loop id (made.value unfolding.value)

def deepen (unfolding : Unfolding) : Unfolding :=
  { unfolding with
    values := unfolding.made.mapIdx fun id made => made.map (unfolding.labelled id) }

/-- How much deeper than its nodes are many a part of itself is unfolded. -/
def margin : Nat := 100

def deep (made : Array (Option Made)) : Unfolding :=
  let bottom : Array (Option Value) := made.mapIdx fun id _ => some (.loop id .null)
  (List.range (made.size + margin)).foldl (fun unfolding _ => unfolding.deepen) ⟨made, bottom⟩

end Unfolding

def Graph.value (graph : Graph) (id : NodeId) : Except Fault Value := do
  let made ← graph.made id
  let fresh : Unfolding := ⟨made, Array.replicate made.size none⟩
  match fresh.settle? (made.size + 1) id with
  | some settled => return settled.value id
  | none => return (Unfolding.deep made).value id

end ApiSurface.Yaml
