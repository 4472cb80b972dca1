import ApiSurface.Yaml.Node

/-!
Merge keys. A mapping takes over the entries of the mappings under its merge keys, in front of its
own ones, so that its own ones override them.
-/

namespace ApiSurface.Yaml.Graph

def splitMerge? (graph : Graph) : List NodeEntry → Option (NodeId × List NodeEntry)
  | [] => none
  | (key, value) :: rest =>
    if graph.tag? key = some .merge then some (value, rest)
    else (graph.splitMerge? rest).map fun (merged, others) => (merged, (key, value) :: others)

/-- A key that marks a default value is a text as soon as its mapping is read as one. -/
def plainKey (graph : Graph) (entry : NodeEntry) : Graph :=
  if graph.tag? entry.1 = some .value then graph.setTag entry.1 .str else graph

def prependEntries (graph : Graph) (id : NodeId) (merged : List NodeEntry) : Graph :=
  let own := graph.entries id
  (own.foldl plainKey graph).setBody id (.mapping (merged ++ own))

/-- Merges what stands under the merge keys of a mapping behind what is merged already. Every step
uses up one merge key of the graph, so that `bound` need not be more than there are entries. Of
several mappings under one key the first ones win. -/
def mergeWithin (graph : Graph) : Nat → NodeId → List NodeEntry → Except Fault Graph
  | 0, _, _ => .error .depth
  | bound + 1, id, merged =>
    match graph.splitMerge? (graph.entries id) with
    | none => .ok (graph.prependEntries id merged)
    | some (source, others) => do
      let graph := graph.setBody id (.mapping others)
      match graph.body? source with
      | some (.mapping _) =>
        let graph ← graph.mergeWithin bound source []
        graph.mergeWithin bound id (merged ++ graph.entries source)
      | some (.sequence items) =>
        let graph ← items.foldlM (fun graph item =>
          if graph.isMapping item then graph.mergeWithin bound item [] else .error .merge) graph
        graph.mergeWithin bound id (merged ++ items.reverse.flatMap graph.entries)
      | _ => throw .merge

def entryCount (graph : Graph) : Nat :=
  graph.nodes.foldl (fun count node => match node.body with
    | .mapping entries => count + entries.length
    | _ => count) 0

def merge (graph : Graph) (id : NodeId) : Except Fault Graph :=
  graph.mergeWithin (graph.entryCount + 1) id []

end ApiSurface.Yaml.Graph
