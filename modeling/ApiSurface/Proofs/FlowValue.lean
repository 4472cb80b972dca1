import ApiSurface.Proofs.ClearGraph
import ApiSurface.Proofs.FlowTree

/-! The value of a document in brackets is that of its tree. -/

namespace ApiSurface.Yaml

mutual

def Flow.value : Flow → Value
  | .scalar _ _ value => value
  | .list items => .list items.values
  | .map entries => .map (entries.assigned [])

def FlowItems.values : FlowItems → List Value
  | .nil => []
  | .cons item rest => item.value :: rest.values

def FlowEntries.assigned (done : Entries) : FlowEntries → Entries
  | .nil => done
  | .cons key value rest => rest.assigned (done.put (.text key) value.value)

end

mutual

/-- What the nodes stand for, in their order. -/
def Flow.meanings : Flow → List Value
  | .scalar _ _ value => [value]
  | .list items => .list items.values :: items.meanings
  | .map entries => .map (entries.assigned []) :: entries.meanings

def FlowItems.meanings : FlowItems → List Value
  | .nil => []
  | .cons item rest => item.meanings ++ rest.meanings

def FlowEntries.meanings : FlowEntries → List Value
  | .nil => []
  | .cons key value rest => .text key :: (value.meanings ++ rest.meanings)

end

mutual

/-- Every scalar is read as the value that it comes with. -/
def Flow.Sound : Flow → Prop
  | .scalar content plain value =>
    ∀ id, scalarValue id (({} : Properties).scalar content plain).tag content = .ok value
  | .list items => items.Sound
  | .map entries => entries.Sound

def FlowItems.Sound : FlowItems → Prop
  | .nil => True
  | .cons item rest => item.Sound ∧ rest.Sound

def FlowEntries.Sound : FlowEntries → Prop
  | .nil => True
  | .cons _ value rest => value.Sound ∧ rest.Sound

end

mutual

theorem Flow.length_meanings (flow : Flow) : flow.meanings.length = flow.size := by
  cases flow with
  | scalar => rfl
  | list items => simp [Flow.meanings, Flow.size, items.length_meanings]
  | map entries => simp [Flow.meanings, Flow.size, entries.length_meanings]

theorem FlowItems.length_meanings (items : FlowItems) : items.meanings.length = items.size := by
  cases items with
  | nil => rfl
  | cons item rest =>
      simp [FlowItems.meanings, FlowItems.size, item.length_meanings, rest.length_meanings]

theorem FlowEntries.length_meanings (entries : FlowEntries) :
    entries.meanings.length = entries.size := by
  cases entries with
  | nil => rfl
  | cons key value rest =>
      simp [FlowEntries.meanings, FlowEntries.size, value.length_meanings, rest.length_meanings]
      omega

end

theorem Flow.size_pos (flow : Flow) : 0 < flow.size := by
  cases flow <;> simp [Flow.size]

theorem FlowItems.ids_inside (items : FlowItems) (id : Nat) {item : Nat} (member : item ∈ items.ids id) :
    id ≤ item ∧ item < id + items.size := by
  cases items with
  | nil => contradiction
  | cons first rest =>
      have sized := first.size_pos
      simp only [FlowItems.size]
      rcases List.mem_cons.mp member with rfl | inRest
      · omega
      · have := rest.ids_inside _ inRest
        omega

theorem FlowEntries.ids_inside (entries : FlowEntries) (id : Nat) {key value : Nat}
    (member : (key, value) ∈ entries.ids id) :
    id ≤ key ∧ key < id + entries.size ∧ id ≤ value ∧ value < id + entries.size := by
  cases entries with
  | nil => contradiction
  | cons name first rest =>
      have sized := first.size_pos
      simp only [FlowEntries.size]
      rcases List.mem_cons.mp member with same | inRest
      · cases same
        omega
      · have := rest.ids_inside _ inRest
        omega

namespace Graph

/-- From a number on the graph has the given nodes, which mean the given values. -/
structure Holds (graph : Graph) (meaning : NodeId → Value) (id : Nat) (nodes : List Node)
    (values : List Value) : Prop where
  node : ∀ place node, nodes[place]? = some node → graph.node? (id + place) = some node
  value : ∀ place value, values[place]? = some value → meaning (id + place) = value

variable {graph : Graph} {meaning : NodeId → Value} {id : Nat}

theorem Holds.split {first second : List Node} {values others : List Value} {size : Nat}
    (holds : graph.Holds meaning id (first ++ second) (values ++ others))
    (nodesSize : first.length = size) (valuesSize : values.length = size) :
    graph.Holds meaning id first values ∧ graph.Holds meaning (id + size) second others := by
  refine ⟨⟨?_, ?_⟩, ⟨?_, ?_⟩⟩
  · intro place node found
    have inside := (List.getElem?_eq_some_iff.mp found).1
    exact holds.node place node (by rw [List.getElem?_append_left inside, found])
  · intro place value found
    have inside := (List.getElem?_eq_some_iff.mp found).1
    exact holds.value place value (by rw [List.getElem?_append_left inside, found])
  · intro place node found
    rw [Nat.add_assoc]
    apply holds.node
    rw [List.getElem?_append_right (by omega), nodesSize, Nat.add_sub_cancel_left, found]
  · intro place value found
    rw [Nat.add_assoc]
    apply holds.value
    rw [List.getElem?_append_right (by omega), valuesSize, Nat.add_sub_cancel_left, found]

theorem Holds.behind {node : Node} {nodes : List Node} {value : Value} {values : List Value}
    (holds : graph.Holds meaning id (node :: nodes) (value :: values)) :
    graph.node? id = some node ∧ meaning id = value ∧
      graph.Holds meaning (id + 1) nodes values := by
  have parted : graph.Holds meaning id ([node] ++ nodes) ([value] ++ values) := holds
  obtain ⟨first, rest⟩ := parted.split rfl rfl
  exact ⟨first.node 0 node rfl, first.value 0 value rfl, rest⟩

end Graph

section Clear

variable {graph : Graph} {meaning : NodeId → Value}

theorem Flow.meaning_eq (flow : Flow) {id : Nat}
    (holds : graph.Holds meaning id (flow.nodes id) flow.meanings) : meaning id = flow.value := by
  cases flow with
  | scalar content plain value => exact (Graph.Holds.behind holds).2.1
  | list items => exact (Graph.Holds.behind holds).2.1
  | map entries => exact (Graph.Holds.behind holds).2.1

theorem FlowItems.map_meaning (items : FlowItems) {id : Nat}
    (holds : graph.Holds meaning id (items.nodes id) items.meanings) :
    (items.ids id).map meaning = items.values := by
  cases items with
  | nil => rfl
  | cons item rest =>
      obtain ⟨first, further⟩ := holds.split (item.length_nodes id) item.length_meanings
      rw [FlowItems.ids, List.map_cons, item.meaning_eq first, rest.map_meaning further]
      rfl

theorem FlowEntries.foldl_put (entries : FlowEntries) {id : Nat} (done : Entries)
    (holds : graph.Holds meaning id (entries.nodes id) entries.meanings) :
    (entries.ids id).foldl (fun done entry => Entries.put (meaning entry.1) (meaning entry.2) done)
      done = entries.assigned done := by
  cases entries with
  | nil => rfl
  | cons key value rest =>
      obtain ⟨_, named, onwards⟩ := Graph.Holds.behind holds
      obtain ⟨first, further⟩ := onwards.split (value.length_nodes (id + 1)) value.length_meanings
      rw [FlowEntries.ids, List.foldl_cons, named, value.meaning_eq first, rest.foldl_put _ further]
      rfl

theorem FlowEntries.isKey (entries : FlowEntries) {id : Nat}
    (holds : graph.Holds meaning id (entries.nodes id) entries.meanings) {entry : NodeEntry}
    (member : entry ∈ entries.ids id) : ∃ key, graph.node? entry.1 = some (keyNode key) := by
  cases entries with
  | nil => contradiction
  | cons key value rest =>
      obtain ⟨isKey, _, onwards⟩ := Graph.Holds.behind holds
      obtain ⟨_, further⟩ := onwards.split (value.length_nodes (id + 1)) value.length_meanings
      rcases List.mem_cons.mp member with rfl | inRest
      · exact ⟨key, isKey⟩
      · exact rest.isKey further inRest

mutual

theorem Flow.clear (flow : Flow) (sound : flow.Sound) {id : Nat}
    (holds : graph.Holds meaning id (flow.nodes id) flow.meanings)
    (enough : id + flow.size ≤ graph.size) (node : Nat) (after : id ≤ node)
    (inside : node < id + flow.size) : graph.Clear meaning node := by
  cases flow with
  | scalar content plain value =>
      obtain ⟨found, means, _⟩ := Graph.Holds.behind holds
      simp only [Flow.size] at inside
      obtain rfl : node = id := by omega
      exact .scalar found (by rw [means]; exact sound node)
  | list items =>
      obtain ⟨found, means, parts⟩ := Graph.Holds.behind holds
      simp only [Flow.size] at inside enough
      by_cases first : node = id
      · subst first
        refine .list found ?_ (by rw [means, items.map_meaning parts])
        intro item member
        obtain ⟨behind, within⟩ := items.ids_inside (node + 1) member
        exact ⟨behind, Nat.lt_of_lt_of_le within (by omega)⟩
      · exact items.clear sound parts (by omega) node (by omega) (by omega)
  | map entries =>
      obtain ⟨found, means, parts⟩ := Graph.Holds.behind holds
      simp only [Flow.size] at inside enough
      by_cases first : node = id
      · subst first
        refine .map found ?_ (by rw [means, entries.foldl_put [] parts])
        intro entry member
        obtain ⟨key, value⟩ := entry
        obtain ⟨behind, within, valueBehind, valueWithin⟩ := entries.ids_inside (node + 1) member
        have bound : node + 1 + entries.size ≤ graph.size := by omega
        exact ⟨behind, Nat.lt_of_lt_of_le within bound, valueBehind,
          Nat.lt_of_lt_of_le valueWithin bound, entries.isKey parts member⟩
      · exact entries.clear sound parts (by omega) node (by omega) (by omega)

theorem FlowItems.clear (items : FlowItems) (sound : items.Sound) {id : Nat}
    (holds : graph.Holds meaning id (items.nodes id) items.meanings)
    (enough : id + items.size ≤ graph.size) (node : Nat) (after : id ≤ node)
    (inside : node < id + items.size) : graph.Clear meaning node := by
  cases items with
  | nil =>
      simp only [FlowItems.size] at inside
      omega
  | cons item rest =>
      obtain ⟨first, further⟩ := holds.split (item.length_nodes id) item.length_meanings
      simp only [FlowItems.size] at inside enough
      by_cases here : node < id + item.size
      · exact item.clear sound.1 first (by omega) node after here
      · exact rest.clear sound.2 further (by omega) node (by omega) (by omega)

theorem FlowEntries.clear (entries : FlowEntries) (sound : entries.Sound) {id : Nat}
    (holds : graph.Holds meaning id (entries.nodes id) entries.meanings)
    (enough : id + entries.size ≤ graph.size) (node : Nat) (after : id ≤ node)
    (inside : node < id + entries.size) : graph.Clear meaning node := by
  cases entries with
  | nil =>
      simp only [FlowEntries.size] at inside
      omega
  | cons key value rest =>
      obtain ⟨isKey, named, onwards⟩ := Graph.Holds.behind holds
      obtain ⟨first, further⟩ := onwards.split (value.length_nodes (id + 1)) value.length_meanings
      simp only [FlowEntries.size] at inside enough
      by_cases name : node = id
      · subst name
        exact .scalar isKey (by rw [named]; rfl)
      · by_cases here : node < id + 1 + value.size
        · exact value.clear sound.1 first (by omega) node (by omega) here
        · exact rest.clear sound.2 further (by omega) node (by omega) (by omega)

end

end Clear

theorem Flow.graph_value (flow : Flow) (sound : flow.Sound) :
    (({} : Graph).extend (flow.nodes 0)).value 0 = .ok flow.value := by
  have holds : (({} : Graph).extend (flow.nodes 0)).Holds (fun id => (flow.meanings[id]?).getD .null) 0
      (flow.nodes 0) flow.meanings := by
    constructor
    · intro place node found
      simpa [Graph.node?, Graph.extend] using found
    · intro place value found
      simp [found]
  have sized : (({} : Graph).extend (flow.nodes 0)).size = 0 + flow.size := by
    rw [Graph.size_extend, flow.length_nodes]
    rfl
  have inside : 0 < (({} : Graph).extend (flow.nodes 0)).size := by
    rw [sized, Nat.zero_add]
    exact flow.size_pos
  have clear (id : Nat) (bound : id < (({} : Graph).extend (flow.nodes 0)).size) :=
    flow.clear sound holds (Nat.le_of_eq sized.symm) id (Nat.zero_le id) (sized ▸ bound)
  rw [Graph.value_eq clear inside, flow.meaning_eq holds]

/-- A document whose tokens are those of a tree has the value of the tree. -/
theorem read_of_tokens {source : Source} (flow : Flow) (shallow : flow.depth ≤ Tree.deepest)
    (sound : flow.Sound) (tokens : source.tokens = ⟨flow.tokens, none⟩) :
    read source = .ok flow.value := by
  simp only [read, tokens, flow.root shallow, bind, Except.bind]
  exact flow.graph_value sound

end ApiSurface.Yaml
