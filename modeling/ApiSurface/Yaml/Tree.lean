import ApiSurface.Yaml.Node

/-!
Joining tokens to the nodes of a document. Collections that are still open wait on a stack, and
every token either fills the place that is open or closes a collection. A place that a token passes
over holds an empty scalar. A collection is a node from its first token on, so that its parts may
name it.
-/

namespace ApiSurface.Yaml

inductive MappingPlace
  | between
  | key
  | keyed (key : NodeId)
  | value (key : NodeId)

/-- Where a bracketed collection stands: at its start or after a comma, or after an item. -/
inductive FlowPlace
  | start
  | comma
  | item
  deriving DecidableEq

/-- An open collection with its finished parts, latest first. -/
inductive Frame
  | blockSequence (id : NodeId) (done : List NodeId) (waiting : Bool)
  | indentless (id : NodeId) (done : List NodeId) (waiting : Bool)
  | blockMapping (id : NodeId) (done : List NodeEntry) (place : MappingPlace)
  | flowSequence (id : NodeId) (done : List NodeId) (place : FlowPlace)
  | flowPair (place : MappingPlace)
  | flowMapping (id : NodeId) (done : List NodeEntry) (place : FlowPlace) (entry : MappingPlace)

structure Directives where
  version : Bool := false
  handles : List (Text × Text) := []

/-- Takes a directive. A version and the same handle may be given once. -/
def Directives.add (directives : Directives) (token : Token) : Except Fault Directives :=
  match token with
  | .version major =>
    if major = 1 ∧ !directives.version then .ok { directives with version := true }
    else .error .grammar
  | .tagHandle handle expansion =>
    if (directives.handles.lookup handle).isSome then .error .grammar
    else .ok { directives with handles := (handle, expansion) :: directives.handles }
  | _ => .ok directives

inductive Stage
  /-- Before anything but comments. -/
  | fresh
  | directed (directives : Directives)
  /-- Directly after its start mark. -/
  | marked
  | inside
  | after (root : NodeId)
  /-- After directives behind its node. -/
  | followed (directives : Directives)

structure Tree where
  stage : Stage := .fresh
  frames : List Frame := []
  properties : Properties := {}
  handles : List (Text × Text) := []
  anchors : List (Text × NodeId) := []
  graph : Graph := {}

namespace Tree

def defaultHandles : List (Text × Text) := [("!", "!"), ("!!", Tag.standard)]

def deepest : Nat := 490

def fill (tree : Tree) (node : NodeId) : Except Fault Tree :=
  match tree.frames with
  | [] => match tree.stage with
    | .marked | .inside => .ok { tree with stage := .after node }
    | _ => .error .grammar
  | frame :: outer =>
    let put (frame : Frame) : Except Fault Tree := .ok { tree with frames := frame :: outer }
    match frame with
    | .blockSequence id done true => put (.blockSequence id (node :: done) false)
    | .indentless id done true => put (.indentless id (node :: done) false)
    | .blockMapping id done .key => put (.blockMapping id done (.keyed node))
    | .blockMapping id done (.value key) =>
      put (.blockMapping id ((key, node) :: done) .between)
    | .flowSequence id done place =>
      if place = .item then .error .grammar else put (.flowSequence id (node :: done) .item)
    | .flowPair .key => put (.flowPair (.keyed node))
    | .flowPair (.value key) =>
      match outer with
      | .flowSequence id done _ :: outer =>
        .ok { tree with
          frames := .flowSequence id (tree.graph.size :: done) .item :: outer
          graph := tree.graph.add ⟨.map, .mapping [(key, node)]⟩ }
      | _ => .error .grammar
    | .flowMapping id done place .key => put (.flowMapping id done place (.keyed node))
    | .flowMapping id done _ (.value key) =>
      put (.flowMapping id ((key, node) :: done) .item .between)
    | .flowMapping id done place .between =>
      if place = .item then .error .grammar
      else
        .ok { tree with
          frames := .flowMapping id ((node, tree.graph.size) :: done) .item .between :: outer
          graph := tree.graph.add (Properties.emptyNode {}) }
    | _ => .error .grammar

def add (tree : Tree) (node : Node) : Except Fault Tree :=
  let added := { tree with properties := {}, graph := tree.graph.add node }
  match tree.properties.anchor with
  | none => .ok added
  | some name =>
    if (tree.anchors.lookup name).isSome then .error .anchor
    else .ok { added with anchors := (name, tree.graph.size) :: tree.anchors }

def addScalar (tree : Tree) (content : Text) (plain : Bool) : Except Fault Tree := do
  (← tree.add (tree.properties.scalar content plain)).fill tree.graph.size

def isWaiting (tree : Tree) : Bool :=
  match tree.frames with
  | [] => match tree.stage with
    | .marked => true
    | _ => false
  | .blockSequence _ _ waiting :: _ => waiting
  | .indentless _ _ waiting :: _ => waiting
  | .blockMapping _ _ .key :: _ => true
  | .blockMapping _ _ (.value _) :: _ => true
  | .flowPair .key :: _ => true
  | .flowPair (.value _) :: _ => true
  | .flowMapping _ _ _ .key :: _ => true
  | .flowMapping _ _ _ (.value _) :: _ => true
  | _ => false

/-- Whether a sequence without indentation of its own may begin here. -/
def allowsIndentless (tree : Tree) : Bool :=
  match tree.frames with
  | .blockMapping _ _ .key :: _ => true
  | .blockMapping _ _ (.value _) :: _ => true
  | _ => false

def beginsNode (tree : Tree) : Token → Bool
  | .reference _ | .anchor _ | .tag .. | .scalar .. => true
  | .flowSequenceStart | .flowMappingStart | .blockSequenceStart | .blockMappingStart => true
  | .blockEntry => tree.allowsIndentless
  | _ => false

def takesNode (tree : Tree) : Bool :=
  match tree.frames with
  | [] => true
  | .flowSequence _ _ place :: _ => place != .item
  | .flowMapping _ _ place .between :: _ => place != .item
  | _ => tree.isWaiting

def resolved (tree : Tree) : GivenTag → Except Fault GivenTag
  | .full name => .ok (.full name)
  | .handled handle suffix => match tree.handles.lookup handle with
    | some expansion => .ok (.full (expansion ++ suffix))
    | none => .error .grammar

/-- Looks up the handle of a tag; if only an anchor may still follow the tag, that is waited for. -/
def resolve (tree : Tree) (awaitsAnchor : Bool) : Except Fault Tree := do
  match tree.properties.tag with
  | none => return tree
  | some given =>
    if awaitsAnchor && tree.properties.anchor.isNone then return tree
    else return { tree with properties.tag := some (← tree.resolved given) }

def fillEmpty (tree : Tree) : Except Fault Tree :=
  if tree.isWaiting || !tree.properties.isEmpty then tree.addScalar [] true else .ok tree

def settle (tree : Tree) (token : Token) : Except Fault Tree :=
  if tree.beginsNode token then .ok tree else tree.fillEmpty

/-- Closes a sequence without indentation before anything but its next entry. -/
def closeIndentless (tree : Tree) (token : Token) : Except Fault Tree :=
  match tree.frames with
  | .indentless id done false :: outer =>
    if token = .blockEntry then .ok tree
    else { tree with
      frames := outer
      graph := tree.graph.setBody id (.sequence done.reverse) }.fill id
  | _ => .ok tree

def closeKey (tree : Tree) (token : Token) : Except Fault Tree :=
  if token = .value then .ok tree
  else
    let empty := tree.graph.size
    let graph := tree.graph.add (Properties.emptyNode {})
    match tree.frames with
    | .blockMapping id done (.keyed key) :: outer =>
      .ok { tree with frames := .blockMapping id ((key, empty) :: done) .between :: outer, graph }
    | .flowMapping id done _ (.keyed key) :: outer =>
      .ok { tree with
        frames := .flowMapping id ((key, empty) :: done) .item .between :: outer
        graph }
    | .flowPair (.keyed key) :: outer =>
      { tree with frames := .flowPair (.value key) :: outer, graph }.fill empty
    | _ => .ok tree

def enter (tree : Tree) : Except Fault Tree :=
  match tree.stage with
  | .fresh => .ok { tree with stage := .inside, handles := defaultHandles }
  | .marked => .ok { tree with stage := .inside }
  | .inside => .ok tree
  | _ => .error .grammar

def push (tree : Tree) (frame : Frame) : Except Fault Tree :=
  if tree.frames.length < deepest then .ok { tree with frames := frame :: tree.frames }
  else .error .depth

def begin (tree : Tree) (default : Tag) (frame : NodeId → Frame) : Except Fault Tree := do
  let tree ← tree.enter
  let tag := tree.properties.collectionTag default
  (← tree.add ⟨tag, .sequence []⟩).push (frame tree.graph.size)

def addProperty (tree : Tree) (token : Token) : Except Fault Tree := do
  let tree ← tree.enter
  match token, tree.properties with
  | .anchor name, ⟨none, tag⟩ => Tree.resolve { tree with properties := ⟨some name, tag⟩ } false
  | .tag handle suffix, ⟨anchor, none⟩ =>
    let given := match handle with
      | none => GivenTag.full suffix
      | some handle => .handled handle suffix
    Tree.resolve { tree with properties := ⟨anchor, some given⟩ } true
  | _, _ => throw .grammar

def scalar (tree : Tree) (content : Text) (plain : Bool) : Except Fault Tree := do
  (← tree.enter).addScalar content plain

def reference (tree : Tree) (name : Text) : Except Fault Tree := do
  let tree ← tree.enter
  if tree.properties.isEmpty then
    match tree.anchors.lookup name with
    | some node => tree.fill node
    | none => throw .anchor
  else throw .grammar

def entry (tree : Tree) : Except Fault Tree :=
  match tree.frames with
  | .blockSequence id done false :: outer =>
    .ok { tree with frames := .blockSequence id done true :: outer }
  | .indentless id done false :: outer =>
    .ok { tree with frames := .indentless id done true :: outer }
  | _ =>
    if tree.allowsIndentless then tree.begin .seq fun id => .indentless id [] true
    else .error .grammar

def key (tree : Tree) : Except Fault Tree :=
  match tree.frames with
  | .blockMapping id done .between :: outer =>
    .ok { tree with frames := .blockMapping id done .key :: outer }
  | .flowMapping id done place .between :: outer =>
    if place = .item then .error .grammar
    else .ok { tree with frames := .flowMapping id done place .key :: outer }
  | .flowSequence _ _ place :: _ =>
    if place = .item then .error .grammar else tree.push (.flowPair .key)
  | _ => .error .grammar

def value (tree : Tree) : Except Fault Tree :=
  match tree.frames with
  | .blockMapping id done (.keyed key) :: outer =>
    .ok { tree with frames := .blockMapping id done (.value key) :: outer }
  | .flowMapping id done place (.keyed key) :: outer =>
    .ok { tree with frames := .flowMapping id done place (.value key) :: outer }
  | .flowPair (.keyed key) :: outer => .ok { tree with frames := .flowPair (.value key) :: outer }
  | _ => .error .grammar

def comma (tree : Tree) : Except Fault Tree :=
  match tree.frames with
  | .flowSequence id done .item :: outer =>
    .ok { tree with frames := .flowSequence id done .comma :: outer }
  | .flowMapping id done .item .between :: outer =>
    .ok { tree with frames := .flowMapping id done .comma .between :: outer }
  | _ => .error .grammar

def close (tree : Tree) (token : Token) : Except Fault Tree :=
  let finish (outer : List Frame) (id : NodeId) (body : Body) : Except Fault Tree :=
    { tree with frames := outer, graph := tree.graph.setBody id body }.fill id
  match token, tree.frames with
  | .blockEnd, .blockSequence id done false :: outer => finish outer id (.sequence done.reverse)
  | .blockEnd, .blockMapping id done .between :: outer => finish outer id (.mapping done.reverse)
  | .flowSequenceEnd, .flowSequence id done _ :: outer => finish outer id (.sequence done.reverse)
  | .flowMappingEnd, .flowMapping id done _ .between :: outer =>
    finish outer id (.mapping done.reverse)
  | _, _ => .error .grammar

/-- Takes a directive before the document, or behind it, where a further document would follow. -/
def directive (tree : Tree) (token : Token) : Except Fault Tree := do
  match tree.stage, tree.frames with
  | .fresh, _ => return { tree with stage := .directed (← Directives.add {} token) }
  | .directed directives, _ => return { tree with stage := .directed (← directives.add token) }
  | .after _, [] => return { tree with stage := .followed (← Directives.add {} token) }
  | .followed directives, _ => return { tree with stage := .followed (← directives.add token) }
  | _, _ => throw .grammar

def start (tree : Tree) : Except Fault Tree :=
  match tree.stage with
  | .fresh => .ok { tree with stage := .marked, handles := defaultHandles }
  | .directed directives =>
    .ok { tree with stage := .marked, handles := directives.handles ++ defaultHandles }
  | _ => .error .grammar

def step (tree : Tree) (token : Token) : Except Fault Tree := do
  let tree ← tree.resolve (token matches .anchor _)
  let tree ← tree.settle token
  let tree ← tree.closeIndentless token
  let tree ← tree.closeKey token
  if tree.beginsNode token && !tree.takesNode then throw .grammar
  match token with
  | .version _ | .tagHandle .. | .otherDirective => tree.directive token
  | .documentStart => tree.start
  | .documentEnd => match tree.stage, tree.frames with
    | .after _, [] => return tree
    | _, _ => throw .grammar
  | .blockSequenceStart => tree.begin .seq fun id => .blockSequence id [] false
  | .blockMappingStart => tree.begin .map fun id => .blockMapping id [] .between
  | .flowSequenceStart => tree.begin .seq fun id => .flowSequence id [] .start
  | .flowMappingStart => tree.begin .map fun id => .flowMapping id [] .start .between
  | .blockEnd | .flowSequenceEnd | .flowMappingEnd => tree.close token
  | .blockEntry => tree.entry
  | .flowEntry => tree.comma
  | .key => tree.key
  | .value => tree.value
  | .reference name => tree.reference name
  | .anchor _ | .tag .. => tree.addProperty token
  | .scalar content plain => tree.scalar content plain

def root (tree : Tree) : Except Fault (Option (Graph × NodeId)) := do
  let tree ← (← tree.resolve false).fillEmpty
  match tree.stage, tree.frames with
  | .fresh, [] => return none
  | .after node, [] => return some (tree.graph, node)
  | _, _ => throw .grammar

end Tree

end ApiSurface.Yaml
