import ApiSurface.Yaml

/-! Documents in brackets as trees. Their tokens lead to one node after the other, each collection in
front of its parts. -/

namespace ApiSurface.Yaml

mutual

/-- A document without anchors, tags and blocks. A scalar comes with its value. -/
inductive Flow
  | scalar (content : Text) (plain : Bool) (value : Value)
  | list (items : FlowItems)
  | map (entries : FlowEntries)

inductive FlowItems
  | nil
  | cons (item : Flow) (rest : FlowItems)

inductive FlowEntries
  | nil
  | cons (key : Text) (value : Flow) (rest : FlowEntries)

end

def FlowItems.behindComma (tokens : List Token) : FlowItems → List Token
  | .nil => []
  | .cons .. => .flowEntry :: tokens

def FlowEntries.behindComma (tokens : List Token) : FlowEntries → List Token
  | .nil => []
  | .cons .. => .flowEntry :: tokens

mutual

def Flow.tokens : Flow → List Token
  | .scalar content plain _ => [.scalar content plain]
  | .list items => .flowSequenceStart :: (items.tokens ++ [.flowSequenceEnd])
  | .map entries => .flowMappingStart :: (entries.tokens ++ [.flowMappingEnd])

def FlowItems.tokens : FlowItems → List Token
  | .nil => []
  | .cons item rest => item.tokens ++ rest.behindComma rest.tokens

def FlowEntries.tokens : FlowEntries → List Token
  | .nil => []
  | .cons key value rest =>
    [.key, .scalar key false, .value] ++ (value.tokens ++ rest.behindComma rest.tokens)

end

mutual

def Flow.depth : Flow → Nat
  | .scalar .. => 0
  | .list items => items.depth + 1
  | .map entries => entries.depth + 1

def FlowItems.depth : FlowItems → Nat
  | .nil => 0
  | .cons item rest => max item.depth rest.depth

def FlowEntries.depth : FlowEntries → Nat
  | .nil => 0
  | .cons _ value rest => max value.depth rest.depth

end

mutual

def Flow.size : Flow → Nat
  | .scalar .. => 1
  | .list items => items.size + 1
  | .map entries => entries.size + 1

def FlowItems.size : FlowItems → Nat
  | .nil => 0
  | .cons item rest => item.size + rest.size

def FlowEntries.size : FlowEntries → Nat
  | .nil => 0
  | .cons _ value rest => value.size + 1 + rest.size

end

/-- The nodes of the items, where the first one has a given number. -/
def FlowItems.ids (id : NodeId) : FlowItems → List NodeId
  | .nil => []
  | .cons item rest => id :: rest.ids (id + item.size)

def FlowEntries.ids (id : NodeId) : FlowEntries → List NodeEntry
  | .nil => []
  | .cons _ value rest => (id, id + 1) :: rest.ids (id + 1 + value.size)

def keyNode (key : Text) : Node := ⟨.str, .scalar key⟩

mutual

def Flow.nodes (id : NodeId) : Flow → List Node
  | .scalar content plain _ => [({} : Properties).scalar content plain]
  | .list items => ⟨.seq, .sequence (items.ids (id + 1))⟩ :: items.nodes (id + 1)
  | .map entries => ⟨.map, .mapping (entries.ids (id + 1))⟩ :: entries.nodes (id + 1)

def FlowItems.nodes (id : NodeId) : FlowItems → List Node
  | .nil => []
  | .cons item rest => item.nodes id ++ rest.nodes (id + item.size)

def FlowEntries.nodes (id : NodeId) : FlowEntries → List Node
  | .nil => []
  | .cons key value rest =>
    keyNode key :: (value.nodes (id + 1) ++ rest.nodes (id + 1 + value.size))

end

def Graph.extend (graph : Graph) (nodes : List Node) : Graph := ⟨graph.nodes ++ nodes.toArray⟩

mutual

theorem Flow.length_nodes (id : NodeId) (flow : Flow) : (flow.nodes id).length = flow.size := by
  cases flow with
  | scalar => rfl
  | list items => simp [Flow.nodes, Flow.size, items.length_nodes]
  | map entries => simp [Flow.nodes, Flow.size, entries.length_nodes]

theorem FlowItems.length_nodes (id : NodeId) (items : FlowItems) :
    (items.nodes id).length = items.size := by
  cases items with
  | nil => rfl
  | cons item rest => simp [FlowItems.nodes, FlowItems.size, item.length_nodes, rest.length_nodes]

theorem FlowEntries.length_nodes (id : NodeId) (entries : FlowEntries) :
    (entries.nodes id).length = entries.size := by
  cases entries with
  | nil => rfl
  | cons key value rest =>
      simp [FlowEntries.nodes, FlowEntries.size, value.length_nodes, rest.length_nodes]
      omega

end

namespace Graph

theorem extend_extend (graph : Graph) (first second : List Node) :
    (graph.extend first).extend second = graph.extend (first ++ second) := by
  simp [extend]

theorem add_eq_extend (graph : Graph) (node : Node) : graph.add node = graph.extend [node] := by
  simp [add, extend]

@[simp] theorem extend_nil (graph : Graph) : graph.extend [] = graph := by
  simp [extend]

theorem size_extend (graph : Graph) (nodes : List Node) :
    (graph.extend nodes).size = graph.size + nodes.length := by
  simp [extend, size]

theorem setBody_extend (graph : Graph) (tag : Tag) (before after : Body) (nodes : List Node) :
    (graph.extend (⟨tag, before⟩ :: nodes)).setBody graph.size after =
      graph.extend (⟨tag, after⟩ :: nodes) := by
  obtain ⟨held⟩ := graph
  have modified (first : List Node) (node : Node) (change : Node → Node) :
      (first ++ node :: nodes).modify first.length change = first ++ change node :: nodes := by
    induction first with
    | nil => rfl
    | cons head rest ih => simp [ih]
  simp only [extend, setBody, size, Graph.mk.injEq, ← Array.toList_inj, Array.toList_modify,
    Array.toList_append]
  exact modified held.toList ⟨tag, before⟩ _

end Graph

/-- A node may begin in the open place. -/
def Frame.TakesNode : List Frame → Prop
  | [] => True
  | .flowSequence _ _ place :: _ => place ≠ .item
  | .flowMapping _ _ _ .key :: _ => True
  | .flowMapping _ _ _ (.value _) :: _ => True
  | _ => False

namespace Tree

def holding (tree : Tree) (frames : List Frame) (graph : Graph) : Tree := { tree with frames, graph }

/-- The document was entered, and nothing was said about the next node yet. -/
structure Open (tree : Tree) : Prop where
  bare : tree.properties = {}
  inside : tree.stage = .inside

theorem fill_item {tree : Tree} {place : FlowPlace} (next : place ≠ .item) {outer : List Frame}
    {graph : Graph} {id : NodeId} (done : List NodeId) (node : NodeId) :
    (tree.holding (.flowSequence id done place :: outer) graph).fill node =
      .ok (tree.holding (.flowSequence id (node :: done) .item :: outer) graph) := by
  simp [fill, holding, next]

theorem fill_value {tree : Tree} {outer : List Frame} {graph : Graph} {id : NodeId} (place : FlowPlace)
    (done : List NodeEntry) (key node : NodeId) :
    (tree.holding (.flowMapping id done place (.value key) :: outer) graph).fill node =
      .ok (tree.holding (.flowMapping id ((key, node) :: done) .item .between :: outer) graph) := rfl

namespace Open

variable {tree : Tree} (isOpen : tree.Open) {frames outer : List Frame} {graph : Graph} {id : NodeId}

include isOpen

theorem enter_holding : (tree.holding frames graph).enter = .ok (tree.holding frames graph) := by
  simp [enter, Tree.holding, isOpen.inside]

/-- A token that begins a node meets nothing that is still to be closed. -/
theorem step_node (takes : Frame.TakesNode frames) {token : Token}
    (begins : token matches .flowSequenceStart | .flowMappingStart | .scalar ..) :
    (tree.holding frames graph).step token = match token with
      | .flowSequenceStart => (tree.holding frames graph).begin .seq fun id => .flowSequence id [] .start
      | .flowMappingStart =>
        (tree.holding frames graph).begin .map fun id => .flowMapping id [] .start .between
      | .scalar content plain => (tree.holding frames graph).scalar content plain
      | _ => .ok tree := by
  have resolved : (tree.holding frames graph).resolve false = .ok (tree.holding frames graph) := by
    simp [resolve, Tree.holding, isOpen.bare, pure, Except.pure]
  have closed : (tree.holding frames graph).closeIndentless token = .ok (tree.holding frames graph) := by
    unfold closeIndentless
    split
    next same =>
      rw [show frames = _ from same] at takes
      exact takes.elim
    next => rfl
  have keyed : (tree.holding frames graph).closeKey token = .ok (tree.holding frames graph) := by
    unfold closeKey
    split
    next => rfl
    next =>
      split
      next same =>
        rw [show frames = _ from same] at takes
        exact takes.elim
      next same =>
        rw [show frames = _ from same] at takes
        exact takes.elim
      next same =>
        rw [show frames = _ from same] at takes
        exact takes.elim
      next => rfl
  have takesNode : (tree.holding frames graph).takesNode = true := by
    unfold Tree.takesNode isWaiting
    unfold Frame.TakesNode at takes
    split at takes
    next => rfl
    next => simpa [Tree.holding] using takes
    next => rfl
    next => rfl
    next => contradiction
  cases token <;> simp at begins <;>
    simp [Tree.step, resolved, settle, beginsNode, closed, keyed, takesNode, bind, Except.bind]

theorem add_holding (node : Node) :
    (tree.holding frames graph).add node = .ok (tree.holding frames (graph.extend [node])) := by
  simp [add, holding, isOpen.bare, Graph.add_eq_extend]

theorem step_scalar (takes : Frame.TakesNode frames) (content : Text) (plain : Bool) :
    (tree.holding frames graph).step (.scalar content plain) =
      (tree.holding frames (graph.extend [({} : Properties).scalar content plain])).fill
        graph.size := by
  have bare : (tree.holding frames graph).properties = {} := isOpen.bare
  rw [isOpen.step_node takes rfl]
  simp only [scalar, isOpen.enter_holding, bind, Except.bind, addScalar, bare, isOpen.add_holding]
  rfl

theorem begin_holding (shallow : frames.length < deepest) (tag : Tag) (frame : NodeId → Frame) :
    (tree.holding frames graph).begin tag frame =
      .ok (tree.holding (frame graph.size :: frames) (graph.extend [⟨tag, .sequence []⟩])) := by
  have bare : (tree.holding frames graph).properties = {} := isOpen.bare
  simp only [begin, isOpen.enter_holding, bind, Except.bind, bare, isOpen.add_holding,
    Properties.collectionTag, Properties.name?]
  simp [push, holding, shallow]

theorem step_comma (done : List NodeId) :
    (tree.holding (.flowSequence id done .item :: outer) graph).step .flowEntry =
      .ok (tree.holding (.flowSequence id done .comma :: outer) graph) := by
  simp [Tree.step, resolve, Tree.holding, isOpen.bare, settle, beginsNode, fillEmpty, isWaiting,
    closeIndentless, closeKey, comma, Properties.isEmpty, bind, Except.bind, pure, Except.pure]

theorem step_entryComma (done : List NodeEntry) :
    (tree.holding (.flowMapping id done .item .between :: outer) graph).step .flowEntry =
      .ok (tree.holding (.flowMapping id done .comma .between :: outer) graph) := by
  simp [Tree.step, resolve, Tree.holding, isOpen.bare, settle, beginsNode, fillEmpty, isWaiting,
    closeIndentless, closeKey, comma, Properties.isEmpty, bind, Except.bind, pure, Except.pure]

theorem step_key {place : FlowPlace} (next : place ≠ .item) (done : List NodeEntry) :
    (tree.holding (.flowMapping id done place .between :: outer) graph).step .key =
      .ok (tree.holding (.flowMapping id done place .key :: outer) graph) := by
  simp [Tree.step, resolve, Tree.holding, isOpen.bare, settle, beginsNode, fillEmpty, isWaiting,
    closeIndentless, closeKey, Tree.key, next, Properties.isEmpty, bind, Except.bind, pure,
    Except.pure]

theorem step_value (place : FlowPlace) (done : List NodeEntry) (key : NodeId) :
    (tree.holding (.flowMapping id done place (.keyed key) :: outer) graph).step .value =
      .ok (tree.holding (.flowMapping id done place (.value key) :: outer) graph) := by
  simp [Tree.step, resolve, Tree.holding, isOpen.bare, settle, beginsNode, fillEmpty, isWaiting,
    closeIndentless, closeKey, Tree.value, Properties.isEmpty, bind, Except.bind, pure, Except.pure]

theorem step_sequenceEnd (place : FlowPlace) (done : List NodeId) :
    (tree.holding (.flowSequence id done place :: outer) graph).step .flowSequenceEnd =
      (tree.holding outer (graph.setBody id (.sequence done.reverse))).fill id := by
  simp [Tree.step, resolve, Tree.holding, isOpen.bare, settle, beginsNode, fillEmpty, isWaiting,
    closeIndentless, closeKey, close, Properties.isEmpty, bind, Except.bind, pure, Except.pure]

theorem step_mappingEnd (place : FlowPlace) (done : List NodeEntry) :
    (tree.holding (.flowMapping id done place .between :: outer) graph).step .flowMappingEnd =
      (tree.holding outer (graph.setBody id (.mapping done.reverse))).fill id := by
  simp [Tree.step, resolve, Tree.holding, isOpen.bare, settle, beginsNode, fillEmpty, isWaiting,
    closeIndentless, closeKey, close, Properties.isEmpty, bind, Except.bind, pure, Except.pure]

theorem steps_key {place : FlowPlace} (next : place ≠ .item) (outer : List Frame) (graph : Graph)
    (id : NodeId) (done : List NodeEntry) (key : Text) :
    [Token.key, .scalar key false, .value].foldlM Tree.step
        (tree.holding (.flowMapping id done place .between :: outer) graph) =
      .ok (tree.holding (.flowMapping id done place (.value graph.size) :: outer)
        (graph.extend [keyNode key])) := by
  have named : (tree.holding (.flowMapping id done place .key :: outer) graph).step (.scalar key false) =
      .ok (tree.holding (.flowMapping id done place (.keyed graph.size) :: outer)
        (graph.extend [keyNode key])) := isOpen.step_scalar (by trivial) key false
  simp only [List.foldlM_cons, List.foldlM_nil, isOpen.step_key next, named, isOpen.step_value, bind,
    Except.bind, pure, Except.pure]

theorem steps_furtherItems {items : FlowItems} {done : List NodeId} (further : ∃ last,
      items.tokens.foldlM Tree.step (tree.holding (.flowSequence id done .comma :: outer) graph) =
        .ok (tree.holding (.flowSequence id ((items.ids graph.size).reverse ++ done) last :: outer)
          (graph.extend (items.nodes graph.size)))) : ∃ last,
      (items.behindComma items.tokens).foldlM Tree.step
          (tree.holding (.flowSequence id done .item :: outer) graph) =
        .ok (tree.holding (.flowSequence id ((items.ids graph.size).reverse ++ done) last :: outer)
          (graph.extend (items.nodes graph.size))) := by
  cases items with
  | nil =>
      exact ⟨.item, by simp [FlowItems.behindComma, FlowItems.ids, FlowItems.nodes, pure, Except.pure]⟩
  | cons item rest =>
      obtain ⟨last, onwards⟩ := further
      refine ⟨last, ?_⟩
      rw [FlowItems.behindComma, List.foldlM_cons, isOpen.step_comma]
      exact onwards

theorem steps_furtherEntries {entries : FlowEntries} {done : List NodeEntry} (further : ∃ last,
      entries.tokens.foldlM Tree.step
          (tree.holding (.flowMapping id done .comma .between :: outer) graph) =
        .ok (tree.holding
          (.flowMapping id ((entries.ids graph.size).reverse ++ done) last .between :: outer)
          (graph.extend (entries.nodes graph.size)))) : ∃ last,
      (entries.behindComma entries.tokens).foldlM Tree.step
          (tree.holding (.flowMapping id done .item .between :: outer) graph) =
        .ok (tree.holding
          (.flowMapping id ((entries.ids graph.size).reverse ++ done) last .between :: outer)
          (graph.extend (entries.nodes graph.size))) := by
  cases entries with
  | nil =>
      exact ⟨.item, by
        simp [FlowEntries.behindComma, FlowEntries.ids, FlowEntries.nodes, pure, Except.pure]⟩
  | cons key value rest =>
      obtain ⟨last, onwards⟩ := further
      refine ⟨last, ?_⟩
      rw [FlowEntries.behindComma, List.foldlM_cons, isOpen.step_entryComma]
      exact onwards

end Open

end Tree

open ApiSurface.Yaml.Tree

mutual

/-- The tokens of a tree add its nodes and fill the open place with the first of them. -/
theorem Flow.steps (flow : Flow) {tree : Tree} (isOpen : tree.Open) (frames : List Frame)
    (takes : Frame.TakesNode frames) (shallow : frames.length + flow.depth ≤ deepest) (graph : Graph) :
    flow.tokens.foldlM Tree.step (tree.holding frames graph) =
      (tree.holding frames (graph.extend (flow.nodes graph.size))).fill graph.size := by
  cases flow with
  | scalar content plain value =>
      simp only [Flow.tokens, List.foldlM_cons, List.foldlM_nil, isOpen.step_scalar takes, Flow.nodes]
      exact bind_pure (m := Except Fault) _
  | list items =>
      simp only [Flow.depth] at shallow
      have begun : (tree.holding frames graph).step .flowSequenceStart = .ok (tree.holding
          (.flowSequence graph.size [] .start :: frames) (graph.extend [⟨.seq, .sequence []⟩])) :=
        (isOpen.step_node takes rfl).trans (isOpen.begin_holding (by omega) _ _)
      obtain ⟨place, inside⟩ := items.steps isOpen .start (by simp) frames (by omega) graph.size []
        (graph.extend [⟨.seq, .sequence []⟩])
      simp only [Flow.tokens, List.foldlM_cons, List.foldlM_append, List.foldlM_nil, begun, inside, bind,
        Except.bind, isOpen.step_sequenceEnd, Graph.extend_extend, Graph.size_extend,
        List.cons_append, List.nil_append, Graph.setBody_extend, Flow.nodes]
      simp
      exact bind_pure (m := Except Fault) _
  | map entries =>
      simp only [Flow.depth] at shallow
      have begun : (tree.holding frames graph).step .flowMappingStart = .ok (tree.holding
          (.flowMapping graph.size [] .start .between :: frames)
          (graph.extend [⟨.map, .sequence []⟩])) :=
        (isOpen.step_node takes rfl).trans (isOpen.begin_holding (by omega) _ _)
      obtain ⟨place, inside⟩ := entries.steps isOpen .start (by simp) frames (by omega) graph.size []
        (graph.extend [⟨.map, .sequence []⟩])
      simp only [Flow.tokens, List.foldlM_cons, List.foldlM_append, List.foldlM_nil, begun, inside,
        bind, Except.bind, isOpen.step_mappingEnd, Graph.extend_extend, Graph.size_extend,
        List.cons_append, List.nil_append, Graph.setBody_extend, Flow.nodes]
      simp
      exact bind_pure (m := Except Fault) _

theorem FlowItems.steps (items : FlowItems) {tree : Tree} (isOpen : tree.Open) (place : FlowPlace)
    (next : place ≠ .item) (outer : List Frame) (shallow : outer.length + 1 + items.depth ≤ deepest)
    (id : NodeId) (done : List NodeId) (graph : Graph) : ∃ last,
      items.tokens.foldlM Tree.step (tree.holding (.flowSequence id done place :: outer) graph) =
        .ok (tree.holding (.flowSequence id ((items.ids graph.size).reverse ++ done) last :: outer)
          (graph.extend (items.nodes graph.size))) := by
  cases items with
  | nil => exact ⟨place, by simp [FlowItems.tokens, FlowItems.ids, FlowItems.nodes, pure, Except.pure]⟩
  | cons item rest =>
      simp only [FlowItems.depth] at shallow
      have first := item.steps isOpen (.flowSequence id done place :: outer) next
        (by simp; omega) graph
      rw [fill_item next] at first
      obtain ⟨last, further⟩ := isOpen.steps_furtherItems
        (rest.steps isOpen .comma (by simp) outer (by omega) id
          (graph.size :: done) (graph.extend (item.nodes graph.size)))
      rw [Graph.size_extend, item.length_nodes, Graph.extend_extend] at further
      refine ⟨last, ?_⟩
      rw [FlowItems.tokens, List.foldlM_append, first, FlowItems.ids, FlowItems.nodes]
      simpa [bind, Except.bind] using further

theorem FlowEntries.steps (entries : FlowEntries) {tree : Tree} (isOpen : tree.Open)
    (place : FlowPlace) (next : place ≠ .item) (outer : List Frame)
    (shallow : outer.length + 1 + entries.depth ≤ deepest) (id : NodeId) (done : List NodeEntry)
    (graph : Graph) : ∃ last,
      entries.tokens.foldlM Tree.step
          (tree.holding (.flowMapping id done place .between :: outer) graph) =
        .ok (tree.holding
          (.flowMapping id ((entries.ids graph.size).reverse ++ done) last .between :: outer)
          (graph.extend (entries.nodes graph.size))) := by
  cases entries with
  | nil =>
      exact ⟨place, by simp [FlowEntries.tokens, FlowEntries.ids, FlowEntries.nodes, pure, Except.pure]⟩
  | cons key value rest =>
      simp only [FlowEntries.depth] at shallow
      have named := isOpen.steps_key next outer graph id done key
      have first := value.steps isOpen
        (.flowMapping id done place (.value graph.size) :: outer) (by trivial)
        (by simp; omega) (graph.extend [keyNode key])
      rw [fill_value, Graph.size_extend, Graph.extend_extend] at first
      obtain ⟨last, further⟩ := isOpen.steps_furtherEntries
        (rest.steps isOpen .comma (by simp) outer (by omega) id
          ((graph.size, graph.size + 1) :: done)
          (graph.extend (keyNode key :: value.nodes (graph.size + 1))))
      have sized : (graph.extend (keyNode key :: value.nodes (graph.size + 1))).size =
          graph.size + 1 + value.size := by
        rw [Graph.size_extend, List.length_cons, value.length_nodes]
        omega
      rw [sized, Graph.extend_extend] at further
      refine ⟨last, ?_⟩
      rw [FlowEntries.tokens, List.foldlM_append, named, FlowEntries.ids, FlowEntries.nodes]
      simp only [List.foldlM_append, bind, Except.bind]
      rw [first]
      simpa using further

end

namespace Tree

def inner : Tree := { stage := .inside, handles := defaultHandles }

theorem inner_open : inner.Open := ⟨rfl, rfl⟩

theorem step_fresh {token : Token}
    (begins : token matches .flowSequenceStart | .flowMappingStart | .scalar ..) :
    Tree.step {} token = inner.step token := by
  cases token <;> simp at begins <;> rfl

end Tree

theorem Flow.exists_tokens (flow : Flow) : ∃ first rest, flow.tokens = first :: rest ∧
    first matches .flowSequenceStart | .flowMappingStart | .scalar .. := by
  cases flow with
  | scalar content plain value => exact ⟨_, _, rfl, rfl⟩
  | list items => exact ⟨_, _, rfl, rfl⟩
  | map entries => exact ⟨_, _, rfl, rfl⟩

theorem Flow.root (flow : Flow) (shallow : flow.depth ≤ deepest) :
    Scan.root ⟨flow.tokens, none⟩ = .ok (some (({} : Graph).extend (flow.nodes 0), 0)) := by
  obtain ⟨first, rest, tokens, begins⟩ := flow.exists_tokens
  have fresh : flow.tokens.foldlM Tree.step {} = flow.tokens.foldlM Tree.step inner := by
    rw [tokens, List.foldlM_cons, List.foldlM_cons, step_fresh begins]
  have stepped : flow.tokens.foldlM Tree.step inner =
      (inner.holding [] (({} : Graph).extend (flow.nodes 0))).fill 0 :=
    flow.steps inner_open [] (by trivial) (by simpa using shallow) {}
  rw [Scan.root, fresh, stepped]
  rfl

end ApiSurface.Yaml
