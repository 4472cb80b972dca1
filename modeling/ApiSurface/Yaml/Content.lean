import ApiSurface.Value.SlotOrder
import ApiSurface.Yaml.Binary
import ApiSurface.Yaml.Merge

/-!
What the nodes of a document are made into. Scalars get their values as soon as they are met;
collections are begun empty and filled in the order in which they were begun, so that the parts of
one collection come before the parts of these. Of several faults the first one in this order counts.
-/

namespace ApiSurface.Yaml

def flag (content : Text) : Except Fault Value :=
  let word := content.asciiLower
  if word == Text.ofString "yes" || word == Text.ofString "true" || word == Text.ofString "on" then
    .ok (.bool true)
  else if word == Text.ofString "no" || word == Text.ofString "false"
      || word == Text.ofString "off" then
    .ok (.bool false)
  else .error .flag

def spelling (content : Text) (fault : Fault) : Except Fault (List Char) :=
  match content.toChars? with
  | some chars => .ok chars
  | none => .error fault

/-- The value of a scalar. A number that is none can be told from those of other nodes. -/
def scalarValue (id : NodeId) (tag : Tag) (content : Text) : Except Fault Value :=
  match tag with
  | .null => .ok .null
  | .bool => flag content
  | .int => do return .int (← integerOf (← spelling content .number))
  | .float => do return .float (← floatOf (id + 1) (← spelling content .number))
  | .binary => do return .bytes (← binary (← spelling content .binary))
  | .timestamp => do
    match timestamp? (withoutLineEnd (← spelling content .timestamp)) with
    | some time => time.value
    | none => throw .timestamp
  | .str => .ok (.text content)
  | _ => .error .tag

/-- The text of a node that is read as a scalar: its own, or that of its default value. -/
def Graph.content (graph : Graph) : Nat → NodeId → Except Fault Text
  | 0, _ => .error .depth
  | bound + 1, id =>
    match graph.body? id with
    | some (.scalar content) => .ok content
    | some (.mapping entries) =>
      match entries.find? fun entry => graph.tag? entry.1 = some .value with
      | some entry => graph.content bound entry.2
      | none => .error .tag
    | _ => .error .tag

inductive Made
  | leaf (value : Value)
  | list (items : List NodeId)
  | pairs (items : List NodeEntry)
  | set (items : List Value)
  | map (entries : List (Value × NodeId))

/-- Nodes and what they were made into so far; the collections that are still to be filled wait,
latest first. -/
structure Making where
  graph : Graph
  made : Array (Option Made)
  waiting : List NodeId := []

namespace Making

def made? (making : Making) (id : NodeId) : Option Made := making.made[id]?.join

def put (making : Making) (id : NodeId) (made : Made) : Making :=
  { making with made := making.made.setIfInBounds id (some made) }

def begin (making : Making) (id : NodeId) (made : Made) : Making :=
  { making.put id made with waiting := id :: making.waiting }

def scalar (making : Making) (id : NodeId) (tag : Tag) : Except Fault Making := do
  let graph := making.graph
  let content ← graph.content (graph.size + 1) id
  if tag = .timestamp ∧ graph.isMapping id then throw .indirectTimestamp
  return making.put id (.leaf (← scalarValue id tag content))

def make (making : Making) (id : NodeId) : Except Fault Making :=
  match making.made? id, making.graph.tag? id with
  | some _, _ => .ok making
  | none, none => .error .grammar
  | none, some tag => match tag with
    | .seq => .ok (making.begin id (.list []))
    | .omap | .pairs => .ok (making.begin id (.pairs []))
    | .set => .ok (making.begin id (.set []))
    | .map => .ok (making.begin id (.map []))
    | .merge | .value | .unknown => .error .tag
    | tag => making.scalar id tag

def fillPairs (making : Making) (done : List NodeEntry) :
    List NodeId → Except Fault (Making × List NodeEntry)
  | [] => .ok (making, done.reverse)
  | item :: rest =>
    match making.graph.body? item with
    | some (.mapping [(key, value)]) => do
      fillPairs (← (← making.make key).make value) ((key, value) :: done) rest
    | _ => .error .tag

def key (making : Making) (id : NodeId) : Except Fault Value :=
  match making.made? id with
  | some (.leaf value) => .ok value
  | _ => .error .key

def fillEntries (making : Making) (done : List (Value × NodeId)) :
    List NodeEntry → Except Fault (Making × List (Value × NodeId))
  | [] => .ok (making, done)
  | (key, value) :: rest => do
    let making ← making.make key
    let name ← making.key key
    fillEntries (← making.make value) (name.assign value done) rest

def mappingEntries (making : Making) (id : NodeId) :
    Except Fault (Making × List (Value × NodeId)) := do
  if !making.graph.isMapping id then throw .tag
  let graph ← making.graph.merge id
  fillEntries { making with graph } [] (graph.entries id)

def fill (making : Making) (id : NodeId) : Except Fault Making := do
  match making.made? id, making.graph.body? id with
  | some (.list _), some (.sequence items) =>
    return (← items.foldlM make making).put id (.list items)
  | some (.pairs _), some (.sequence items) =>
    let (making, pairs) ← making.fillPairs [] items
    return making.put id (.pairs pairs)
  | some (.set _), _ =>
    let (making, entries) ← making.mappingEntries id
    return making.put id (.set (Value.slotOrder (entries.map (·.1))))
  | some (.map _), _ =>
    let (making, entries) ← making.mappingEntries id
    return making.put id (.map entries)
  | _, _ => throw .tag

/-- Fills what is waiting and then what was begun on the way, as long as `bound` allows; every
collection is begun only once. -/
def run (making : Making) : Nat → Except Fault Making
  | 0 => .ok making
  | bound + 1 =>
    if making.waiting.isEmpty then .ok making
    else do
      let filled ← making.waiting.reverse.foldlM fill { making with waiting := [] }
      filled.run bound

end Making

def Graph.made (graph : Graph) (id : NodeId) : Except Fault (Array (Option Made)) := do
  let making : Making := { graph, made := Array.replicate graph.size none }
  return (← (← making.make id).run (graph.size + 1)).made

end ApiSurface.Yaml
