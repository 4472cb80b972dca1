import ApiSurface.Yaml
import Mathlib.Data.List.Basic
import Mathlib.Data.List.Nodup

/-! What a graph without merge keys and circles is made into: the state that every step of making it
keeps, and the value that its root has in the end. -/

namespace ApiSurface.Yaml

namespace Graph

/-- What a node has become once it is finished. -/
def finished (graph : Graph) (meaning : NodeId → Value) (id : NodeId) : Made :=
  match graph.body? id with
  | some (.sequence items) => .list items
  | some (.mapping entries) =>
    .map (entries.foldl (fun done entry => (meaning entry.1).assign entry.2 done) [])
  | _ => .leaf (meaning id)

def begun (graph : Graph) (id : NodeId) : Made :=
  match graph.body? id with
  | some (.sequence _) => .list []
  | _ => .map []

/-- A node means a value that its parts make up. The parts stand behind it, and keys are texts. -/
inductive Clear (graph : Graph) (meaning : NodeId → Value) (id : NodeId) : Prop
  | scalar {tag : Tag} {content : Text} : graph.node? id = some ⟨tag, .scalar content⟩ →
      scalarValue id tag content = .ok (meaning id) → Clear graph meaning id
  | list {items : List NodeId} : graph.node? id = some ⟨.seq, .sequence items⟩ →
      (∀ item ∈ items, id < item ∧ item < graph.size) →
      meaning id = .list (items.map meaning) → Clear graph meaning id
  | map {entries : List NodeEntry} : graph.node? id = some ⟨.map, .mapping entries⟩ →
      (∀ entry ∈ entries, id < entry.1 ∧ entry.1 < graph.size ∧ id < entry.2 ∧
        entry.2 < graph.size ∧ ∃ key, graph.node? entry.1 = some ⟨.str, .scalar key⟩) →
      meaning id = .map (entries.foldl (fun done entry =>
        Entries.put (meaning entry.1) (meaning entry.2) done) []) → Clear graph meaning id

section Merge

variable {graph : Graph} {id : NodeId} {entries : List NodeEntry}

theorem setBody_self {node : Node} (found : graph.node? id = some node) :
    graph.setBody id node.body = graph := by
  obtain ⟨nodes⟩ := graph
  have present : nodes.toList[id]? = some node := by simpa [node?] using found
  simp only [setBody, mk.injEq, ← Array.toList_inj, Array.toList_modify]
  apply List.ext_getElem?
  intro index
  rw [List.getElem?_modify]
  by_cases same : id = index
  · subst same
    simp [present]
  · simp [same]

theorem merge_eq (isMap : graph.node? id = some ⟨.map, .mapping entries⟩)
    (keys : ∀ entry ∈ entries, graph.tag? entry.1 = some .str) : graph.merge id = .ok graph := by
  have own : graph.entries id = entries := by simp [Graph.entries, body?, isMap]
  have noMerge : graph.splitMerge? entries = none := by
    clear own isMap
    induction entries with
    | nil => rfl
    | cons entry rest ih =>
        have restKeys := ih fun other member => keys other (List.mem_cons_of_mem entry member)
        simp [splitMerge?, keys entry List.mem_cons_self, restKeys]
  have noDefault : entries.foldl plainKey graph = graph := by
    clear own isMap noMerge
    induction entries with
    | nil => rfl
    | cons entry rest ih =>
        have restKeys := ih fun other member => keys other (List.mem_cons_of_mem entry member)
        simp [plainKey, keys entry List.mem_cons_self, restKeys]
  simp only [merge, mergeWithin, own, noMerge, prependEntries, noDefault, List.nil_append]
  exact congrArg _ (setBody_self isMap)

end Merge

end Graph

section Assigned

variable {α β : Type} (name : NodeEntry → Value)

theorem mem_assign {key : Value} {held : α} {entries : List (Value × α)} {entry : Value × α}
    (member : entry ∈ key.assign held entries) : entry.2 = held ∨ entry ∈ entries := by
  induction entries with
  | nil =>
      simp only [Value.assign, List.mem_singleton] at member
      exact .inl (by rw [member])
  | cons first rest ih =>
      simp only [Value.assign] at member
      split at member
      · rcases List.mem_cons.mp member with rfl | inRest
        · exact .inl rfl
        · exact .inr (List.mem_cons_of_mem first inRest)
      · rcases List.mem_cons.mp member with rfl | inRest
        · exact .inr List.mem_cons_self
        · exact (ih inRest).imp_right (List.mem_cons_of_mem first)

theorem mem_assigned {entries : List NodeEntry} {done : List (Value × NodeId)}
    {held : Value × NodeId}
    (member : held ∈ entries.foldl (fun done entry => (name entry).assign entry.2 done) done) :
    (∃ entry ∈ entries, entry.2 = held.2) ∨ held ∈ done := by
  induction entries generalizing done with
  | nil => exact .inr member
  | cons entry rest ih =>
      rcases ih member with ⟨other, inRest, same⟩ | inDone
      · exact .inl ⟨other, List.mem_cons_of_mem entry inRest, same⟩
      · rcases mem_assign inDone with same | before
        · exact .inl ⟨entry, List.mem_cons_self, same.symm⟩
        · exact .inr before

theorem map_assign (f : α → β) (key : Value) (held : α) (entries : List (Value × α)) :
    (key.assign held entries).map (fun entry => (entry.1, f entry.2)) =
      key.assign (f held) (entries.map fun entry => (entry.1, f entry.2)) := by
  induction entries with
  | nil => rfl
  | cons first rest ih =>
      simp only [Value.assign, List.map_cons]
      split
      · rfl
      · rw [List.map_cons, ih]

theorem map_assigned (f : NodeId → Value) (entries : List NodeEntry) (done : List (Value × NodeId)) :
    (entries.foldl (fun done entry => (name entry).assign entry.2 done) done).map
        (fun entry => (entry.1, f entry.2)) =
      entries.foldl (fun done entry => Entries.put (name entry) (f entry.2) done)
        (done.map fun entry => (entry.1, f entry.2)) := by
  induction entries generalizing done with
  | nil => rfl
  | cons entry rest ih =>
      rw [List.foldl_cons, List.foldl_cons, ih, map_assign]
      rfl

end Assigned

namespace Graph

variable {graph : Graph} {meaning : NodeId → Value} {id : Nat}

theorem Clear.value_finished (clear : graph.Clear meaning id) :
    (graph.finished meaning id).value meaning = meaning id := by
  cases clear with
  | scalar found _ => simp [finished, body?, found, Made.value]
  | list found _ means => simp [finished, body?, found, Made.value, means]
  | map found _ means =>
      simp only [finished, body?, found, Option.map_some, Made.value, means]
      rw [map_assigned]
      rfl

theorem Clear.parts_behind (clear : graph.Clear meaning id) {part : Nat}
    (isPart : part ∈ (graph.finished meaning id).parts) : id < part ∧ part < graph.size := by
  cases clear with
  | scalar found _ => simp [finished, body?, found, Made.parts] at isPart
  | list found behind _ => exact behind part (by simpa [finished, body?, found, Made.parts] using isPart)
  | map found behind _ =>
      simp only [finished, body?, found, Option.map_some, Made.parts, List.mem_map] at isPart
      obtain ⟨held, member, rfl⟩ := isPart
      rcases mem_assigned _ member with ⟨entry, inEntries, same⟩ | inNone
      · obtain ⟨_, _, after, inside, _⟩ := behind entry inEntries
        exact same ▸ ⟨after, inside⟩
      · contradiction

end Graph

namespace Making

variable {graph : Graph} {meaning : NodeId → Value}

def left (making : Making) : Nat := making.made.toList.countP Option.isNone

/-- The state between two steps: collections that are still to be filled are begun, all other nodes
that are made are finished, and their parts are made. `rest` are the collections of this round. -/
structure Keeps (graph : Graph) (meaning : NodeId → Value) (making : Making) (rest : List NodeId) :
    Prop where
  same : making.graph = graph
  size : making.made.size = graph.size
  distinct : (rest ++ making.waiting).Nodup
  pending : ∀ id ∈ rest ++ making.waiting, id < graph.size ∧
    (∃ node, graph.node? id = some node ∧ ∀ content, node.body ≠ .scalar content) ∧
    making.made? id = some (graph.begun id)
  settled : ∀ id made, id ∉ rest ++ making.waiting → making.made? id = some made →
    made = graph.finished meaning id ∧ ∀ part ∈ made.parts, (making.made? part).isSome = true

/-- Nothing that was made is lost, and what was begun takes the place of something not made. -/
structure Follows (before after : Making) : Prop where
  kept : ∀ id, (before.made? id).isSome = true → (after.made? id).isSome = true
  potential : after.left + after.waiting.length ≤ before.left + before.waiting.length

theorem Follows.refl (making : Making) : Follows making making := ⟨fun _ => id, Nat.le_refl _⟩

theorem Follows.trans {first second third : Making} (one : Follows first second)
    (two : Follows second third) : Follows first third :=
  ⟨fun id isMade => two.kept id (one.kept id isMade), Nat.le_trans two.potential one.potential⟩

theorem made?_put (making : Making) {id : NodeId} (bound : id < making.made.size) (made : Made)
    (other : NodeId) :
    (making.put id made).made? other = if id = other then some made else making.made? other := by
  simp only [made?, put, Array.getElem?_setIfInBounds]
  by_cases same : id = other
  · subst same
    simp [bound]
  · simp [same]

theorem left_put (making : Making) {id : NodeId} (bound : id < making.made.size) (made : Made)
    (fresh : making.made? id = none) : (making.put id made).left + 1 = making.left := by
  have place : making.made.toList[id] = none := by
    simpa [made?, Array.getElem?_eq_getElem bound] using fresh
  have counted : 0 < making.made.toList.countP Option.isNone :=
    List.countP_pos_iff.mpr ⟨_, List.getElem_mem (by simpa using bound), by rw [place]; rfl⟩
  simp only [left, put, Array.toList_setIfInBounds]
  rw [List.countP_set (by simpa using bound), place]
  simp only [Option.isNone_none, Option.isNone_some, if_true, Bool.false_eq_true, if_false]
  omega

theorem left_put_of_made (making : Making) {id : NodeId} {old : Made}
    (isMade : making.made? id = some old) (made : Made) : (making.put id made).left = making.left := by
  have bound : id < making.made.size := by
    by_contra beyond
    simp [made?, Array.getElem?_eq_none (Nat.le_of_not_lt beyond)] at isMade
  have place : making.made.toList[id] = some old := by
    simpa [made?, Array.getElem?_eq_getElem bound] using isMade
  simp only [left, put, Array.toList_setIfInBounds]
  rw [List.countP_set (by simpa using bound), place]
  simp

theorem left_begin (making : Making) {id : NodeId} (bound : id < making.made.size) (made : Made)
    (fresh : making.made? id = none) :
    (making.begin id made).left + (making.begin id made).waiting.length =
      making.left + making.waiting.length := by
  have fewer := making.left_put bound made fresh
  change (making.put id made).left + (making.waiting.length + 1) = _
  omega

section Steps

variable {making : Making} {rest : List NodeId} {id : NodeId}

theorem Keeps.made?_of_fresh (keeps : Keeps graph meaning making rest) (fresh : making.made? id = none) :
    id ∉ rest ++ making.waiting := by
  intro member
  rw [(keeps.pending id member).2.2] at fresh
  contradiction

theorem Keeps.begin (keeps : Keeps graph meaning making rest) {node : Node}
    (found : graph.node? id = some node) (isCollection : ∀ content, node.body ≠ .scalar content)
    (bound : id < graph.size) (fresh : making.made? id = none) :
    Keeps graph meaning (making.begin id (graph.begun id)) rest := by
  have apart := keeps.made?_of_fresh fresh
  have bounded : id < making.made.size := keeps.size ▸ bound
  have after (other : NodeId) : (making.begin id (graph.begun id)).made? other =
      if id = other then some (graph.begun id) else making.made? other :=
    making.made?_put bounded _ other
  have members (other : NodeId) : other ∈ rest ++ id :: making.waiting ↔
      other = id ∨ other ∈ rest ++ making.waiting := by
    simp
    tauto
  constructor
  case same => exact keeps.same
  case size => simpa [Making.begin, put] using keeps.size
  case distinct =>
    exact List.nodup_middle.mpr (List.nodup_cons.mpr ⟨apart, keeps.distinct⟩)
  case pending =>
    intro other member
    rcases (members other).mp member with rfl | earlier
    · exact ⟨bound, ⟨node, found, isCollection⟩, by simp [after]⟩
    · obtain ⟨inside, collection, isBegun⟩ := keeps.pending other earlier
      refine ⟨inside, collection, ?_⟩
      rw [after, if_neg ?_, isBegun]
      rintro rfl
      exact apart earlier
  case settled =>
    intro other made notPending isMade
    have different : id ≠ other ∧ other ∉ rest ++ making.waiting := by
      constructor
      · rintro rfl
        exact notPending ((members id).mpr (.inl rfl))
      · intro earlier
        exact notPending ((members other).mpr (.inr earlier))
    rw [after, if_neg different.1] at isMade
    obtain ⟨isFinished, parts⟩ := keeps.settled other made different.2 isMade
    refine ⟨isFinished, ?_⟩
    intro part member
    rw [after]
    split
    · rfl
    · exact parts part member

theorem Keeps.put (keeps : Keeps graph meaning making rest) {fewer : List NodeId}
    (sub : fewer.Sublist rest) (notPending : id ∉ fewer ++ making.waiting)
    (others : ∀ other ∈ rest ++ making.waiting, other ≠ id → other ∈ fewer ++ making.waiting)
    (bound : id < graph.size)
    (parts : ∀ part ∈ (graph.finished meaning id).parts, (making.made? part).isSome = true) :
    Keeps graph meaning (making.put id (graph.finished meaning id)) fewer := by
  have after := making.made?_put (keeps.size ▸ bound) (graph.finished meaning id)
  have kept (part : NodeId) (isMade : (making.made? part).isSome = true) :
      ((making.put id (graph.finished meaning id)).made? part).isSome = true := by
    rw [after]
    split
    · rfl
    · exact isMade
  have subAll : (fewer ++ making.waiting).Sublist (rest ++ making.waiting) :=
    sub.append_right making.waiting
  constructor
  case same => exact keeps.same
  case size => simpa [Making.put] using keeps.size
  case distinct => exact keeps.distinct.sublist subAll
  case pending =>
    intro other member
    obtain ⟨inside, collection, isBegun⟩ := keeps.pending other (subAll.subset member)
    refine ⟨inside, collection, ?_⟩
    rw [after, if_neg ?_, isBegun]
    rintro rfl
    exact notPending member
  case settled =>
    intro other made notOther isMade
    rw [after] at isMade
    split at isMade
    next same =>
      subst same
      cases isMade
      exact ⟨rfl, fun part member => kept part (parts part member)⟩
    next different =>
      have notBefore : other ∉ rest ++ making.waiting := fun member =>
        notOther (others other member (Ne.symm different))
      obtain ⟨isFinished, partsMade⟩ := keeps.settled other made notBefore isMade
      exact ⟨isFinished, fun part member => kept part (partsMade part member)⟩

theorem follows_begin (bound : id < making.made.size) (made : Made) (fresh : making.made? id = none) :
    Follows making (making.begin id made) where
  kept := by
    intro other isMade
    change ((making.put id made).made? other).isSome = true
    rw [making.made?_put bound]
    split
    · rfl
    · exact isMade
  potential := Nat.le_of_eq (making.left_begin bound made fresh)

theorem follows_put (bound : id < making.made.size) (made : Made) :
    Follows making (making.put id made) where
  kept := by
    intro other isMade
    rw [making.made?_put bound]
    split
    · rfl
    · exact isMade
  potential := by
    have fewer : (making.put id made).left ≤ making.left := by
      cases before : making.made? id with
      | none =>
          have := making.left_put bound made before
          omega
      | some old => exact Nat.le_of_eq (making.left_put_of_made before made)
    exact Nat.add_le_add_right fewer _

theorem scalar_eq (same : making.graph = graph) {tag : Tag} {content : Text}
    (found : graph.node? id = some ⟨tag, .scalar content⟩) {value : Value}
    (read : scalarValue id tag content = .ok value) :
    making.scalar id tag = .ok (making.put id (.leaf value)) := by
  have text : graph.content (graph.size + 1) id = .ok content := by
    simp [Graph.content, Graph.body?, found]
  have notMap : graph.isMapping id = false := by
    simp [Graph.isMapping, Graph.body?, found]
  simp [Making.scalar, same, text, notMap, read, bind, Except.bind, pure, Except.pure]

theorem Keeps.make (keeps : Keeps graph meaning making rest) (clear : graph.Clear meaning id)
    (bound : id < graph.size) : ∃ after, making.make id = .ok after ∧
      Keeps graph meaning after rest ∧ (after.made? id).isSome = true ∧ Follows making after := by
  have bounded : id < making.made.size := keeps.size ▸ bound
  cases fresh : making.made? id with
  | some done =>
      refine ⟨making, ?_, keeps, by simp [fresh], Follows.refl making⟩
      simp [Making.make, fresh]
  | none =>
      have notPending := keeps.made?_of_fresh fresh
      have present (made : Made) : ((making.put id made).made? id).isSome = true := by
        rw [making.made?_put bounded, if_pos rfl]
        rfl
      cases clear with
      | @scalar tag content found read =>
          have isFinished : graph.finished meaning id = .leaf (meaning id) := by
            simp [Graph.finished, Graph.body?, found]
          have made := scalar_eq keeps.same found read
          refine ⟨making.put id (.leaf (meaning id)), ?_, ?_, present _, follows_put bounded _⟩
          · have tagged : making.graph.tag? id = some tag := by
              simp [keeps.same, Graph.tag?, found]
            rw [Making.make, fresh, tagged]
            cases tag with
            | seq | omap | pairs | set | map | merge | value | unknown => contradiction
            | _ => exact made
          · rw [← isFinished]
            exact keeps.put (List.Sublist.refl rest) notPending (fun _ member _ => member) bound
              (by simp [isFinished, Made.parts])
      | @list items found parts means =>
          have isBegun : graph.begun id = .list [] := by simp [Graph.begun, Graph.body?, found]
          have tagged : making.graph.tag? id = some .seq := by simp [keeps.same, Graph.tag?, found]
          refine ⟨making.begin id (graph.begun id), ?_, keeps.begin found (by simp) bound fresh,
            present _, follows_begin bounded _ fresh⟩
          rw [Making.make, fresh, tagged, isBegun]
      | @map entries found parts means =>
          have isBegun : graph.begun id = .map [] := by simp [Graph.begun, Graph.body?, found]
          have tagged : making.graph.tag? id = some .map := by simp [keeps.same, Graph.tag?, found]
          refine ⟨making.begin id (graph.begun id), ?_, keeps.begin found (by simp) bound fresh,
            present _, follows_begin bounded _ fresh⟩
          rw [Making.make, fresh, tagged, isBegun]

theorem Keeps.key_eq (keeps : Keeps graph meaning making rest)
    (isMade : (making.made? id).isSome = true) {tag : Tag} {content : Text}
    (found : graph.node? id = some ⟨tag, .scalar content⟩) : making.key id = .ok (meaning id) := by
  obtain ⟨made, held⟩ := Option.isSome_iff_exists.mp isMade
  have notPending : id ∉ rest ++ making.waiting := by
    intro member
    obtain ⟨_, ⟨node, isNode, collection⟩, _⟩ := keeps.pending id member
    rw [found] at isNode
    cases isNode
    exact collection content rfl
  have isFinished : graph.finished meaning id = .leaf (meaning id) := by
    simp [Graph.finished, Graph.body?, found]
  obtain ⟨rfl, _⟩ := keeps.settled id made notPending held
  rw [Making.key, held, isFinished]

end Steps

section Rounds

variable (clear : ∀ id < graph.size, graph.Clear meaning id) {rest : List NodeId}

include clear

theorem Keeps.makeAll (items : List NodeId) (inside : ∀ item ∈ items, item < graph.size)
    {making : Making} (keeps : Keeps graph meaning making rest) : ∃ after,
      items.foldlM Making.make making = .ok after ∧ Keeps graph meaning after rest ∧
        (∀ item ∈ items, (after.made? item).isSome = true) ∧ Follows making after := by
  induction items generalizing making with
  | nil => exact ⟨making, rfl, keeps, by simp, Follows.refl making⟩
  | cons item others ih =>
      have bound := inside item List.mem_cons_self
      obtain ⟨next, made, nextKeeps, isMade, follows⟩ := keeps.make (clear item bound) bound
      obtain ⟨after, onwards, afterKeeps, allMade, afterFollows⟩ :=
        ih (fun other member => inside other (List.mem_cons_of_mem item member)) nextKeeps
      refine ⟨after, ?_, afterKeeps, ?_, follows.trans afterFollows⟩
      · simp [made, onwards, bind, Except.bind]
      · intro other member
        rcases List.mem_cons.mp member with rfl | inOthers
        · exact afterFollows.kept other isMade
        · exact allMade other inOthers

theorem Keeps.fillEntries (entries : List NodeEntry)
    (inside : ∀ entry ∈ entries, entry.1 < graph.size ∧ entry.2 < graph.size ∧
      ∃ key, graph.node? entry.1 = some ⟨.str, .scalar key⟩)
    (done : List (Value × NodeId)) {making : Making} (keeps : Keeps graph meaning making rest) :
    ∃ after, making.fillEntries done entries = .ok (after,
        entries.foldl (fun done entry => (meaning entry.1).assign entry.2 done) done) ∧
      Keeps graph meaning after rest ∧
      (∀ entry ∈ entries, (after.made? entry.2).isSome = true) ∧ Follows making after := by
  induction entries generalizing making done with
  | nil => exact ⟨making, rfl, keeps, by simp, Follows.refl making⟩
  | cons entry others ih =>
      obtain ⟨keyInside, valueInside, key, isKey⟩ := inside entry List.mem_cons_self
      obtain ⟨first, made, firstKeeps, keyMade, follows⟩ :=
        keeps.make (clear entry.1 keyInside) keyInside
      have named := firstKeeps.key_eq keyMade isKey
      obtain ⟨second, valueMade, secondKeeps, isMade, secondFollows⟩ :=
        firstKeeps.make (clear entry.2 valueInside) valueInside
      obtain ⟨after, onwards, afterKeeps, allMade, afterFollows⟩ :=
        ih (fun other member => inside other (List.mem_cons_of_mem entry member))
          ((meaning entry.1).assign entry.2 done) secondKeeps
      refine ⟨after, ?_, afterKeeps, ?_, (follows.trans secondFollows).trans afterFollows⟩
      · simp [Making.fillEntries, made, named, valueMade, onwards, bind, Except.bind]
      · intro other member
        rcases List.mem_cons.mp member with rfl | inOthers
        · exact afterFollows.kept other.2 isMade
        · exact allMade other inOthers

theorem Keeps.mappingEntries {making : Making} {id : NodeId}
    (keeps : Keeps graph meaning making rest) {entries : List NodeEntry}
    (isMap : graph.node? id = some ⟨.map, .mapping entries⟩)
    (inside : ∀ entry ∈ entries, entry.1 < graph.size ∧ entry.2 < graph.size ∧
      ∃ key, graph.node? entry.1 = some ⟨.str, .scalar key⟩) :
    ∃ after, making.mappingEntries id = .ok (after,
        entries.foldl (fun done entry => (meaning entry.1).assign entry.2 done) []) ∧
      Keeps graph meaning after rest ∧
      (∀ entry ∈ entries, (after.made? entry.2).isSome = true) ∧ Follows making after := by
  have merged : graph.merge id = .ok graph := by
    apply Graph.merge_eq isMap
    intro entry member
    obtain ⟨_, _, key, isKey⟩ := inside entry member
    simp [Graph.tag?, isKey]
  obtain ⟨after, filled, held⟩ := keeps.fillEntries clear entries inside []
  refine ⟨after, ?_, held⟩
  have isMapping : graph.isMapping id = true := by simp [Graph.isMapping, Graph.body?, isMap]
  have own : graph.entries id = entries := by simp [Graph.entries, Graph.body?, isMap]
  have unchanged : ({ making with graph := graph } : Making) = making := by rw [← keeps.same]
  simp [Making.mappingEntries, keeps.same, isMapping, merged, own, unchanged, filled, bind, Except.bind]

omit clear in
theorem Keeps.finish {making : Making} {id : NodeId} (keeps : Keeps graph meaning making (id :: rest))
    (bound : id < graph.size)
    (parts : ∀ part ∈ (graph.finished meaning id).parts, (making.made? part).isSome = true) :
    Keeps graph meaning (making.put id (graph.finished meaning id)) rest ∧
      Follows making (making.put id (graph.finished meaning id)) := by
  have notPending : id ∉ rest ++ making.waiting := (List.nodup_cons.mp keeps.distinct).1
  refine ⟨keeps.put (List.sublist_cons_self id rest) notPending ?_ bound parts,
    follows_put (keeps.size ▸ bound) _⟩
  intro other member different
  exact (List.mem_cons.mp member).resolve_left different

theorem Keeps.fill {making : Making} {id : NodeId} (keeps : Keeps graph meaning making (id :: rest)) :
    ∃ after, making.fill id = .ok after ∧ Keeps graph meaning after rest ∧ Follows making after := by
  obtain ⟨bound, ⟨node, found, collection⟩, isBegun⟩ := keeps.pending id (by simp)
  cases clear id bound with
  | scalar isScalar _ =>
      rw [found] at isScalar
      cases isScalar
      exact absurd rfl (collection _)
  | @list items isList parts means =>
      have body : graph.body? id = some (.sequence items) := by simp [Graph.body?, isList]
      have isFinished : graph.finished meaning id = .list items := by simp [Graph.finished, body]
      have placeholder : making.made? id = some (.list []) := by
        simpa [Graph.begun, body] using isBegun
      obtain ⟨after, made, afterKeeps, allMade, follows⟩ :=
        keeps.makeAll clear items fun item member => (parts item member).2
      have finished := afterKeeps.finish bound (by simpa [isFinished, Made.parts] using allMade)
      refine ⟨_, ?_, finished.1, follows.trans finished.2⟩
      simp [Making.fill, placeholder, keeps.same, body, made, isFinished, bind, Except.bind, pure,
        Except.pure]
  | @map entries isMap parts means =>
      have body : graph.body? id = some (.mapping entries) := by simp [Graph.body?, isMap]
      have isFinished : graph.finished meaning id = .map
          (entries.foldl (fun done entry => (meaning entry.1).assign entry.2 done) []) := by
        simp [Graph.finished, body]
      have placeholder : making.made? id = some (.map []) := by
        simpa [Graph.begun, body] using isBegun
      obtain ⟨after, filled, afterKeeps, allMade, follows⟩ :=
        keeps.mappingEntries clear isMap fun entry member =>
          have ⟨_, keyInside, _, valueInside, isKey⟩ := parts entry member
          ⟨keyInside, valueInside, isKey⟩
      have finished := afterKeeps.finish bound (by
        intro part isPart
        simp only [isFinished, Made.parts, List.mem_map] at isPart
        obtain ⟨held, member, rfl⟩ := isPart
        rcases mem_assigned _ member with ⟨entry, inEntries, same⟩ | inNone
        · exact same ▸ allMade entry inEntries
        · contradiction)
      refine ⟨_, ?_, finished.1, follows.trans finished.2⟩
      simp [Making.fill, placeholder, filled, isFinished, bind, Except.bind, pure, Except.pure]

theorem Keeps.fillAll {making : Making} (keeps : Keeps graph meaning making rest) : ∃ after,
    rest.foldlM Making.fill making = .ok after ∧ Keeps graph meaning after [] ∧
      Follows making after := by
  induction rest generalizing making with
  | nil => exact ⟨making, rfl, keeps, Follows.refl making⟩
  | cons id others ih =>
      obtain ⟨next, filled, nextKeeps, follows⟩ := keeps.fill clear
      obtain ⟨after, onwards, afterKeeps, afterFollows⟩ := ih nextKeeps
      refine ⟨after, ?_, afterKeeps, follows.trans afterFollows⟩
      simp [filled, onwards, bind, Except.bind]

theorem Keeps.run (bound : Nat) {making : Making} (keeps : Keeps graph meaning making [])
    (enough : making.left + making.waiting.length ≤ bound) : ∃ after,
      making.run bound = .ok after ∧ Keeps graph meaning after [] ∧ after.waiting = [] ∧
        ∀ id, (making.made? id).isSome = true → (after.made? id).isSome = true := by
  -- A round may begin further collections, but each of them was left before: the potential falls.
  induction bound generalizing making with
  | zero =>
      have none : making.waiting = [] := List.eq_nil_of_length_eq_zero (by omega)
      exact ⟨making, rfl, keeps, none, fun _ isMade => isMade⟩
  | succ bound ih =>
      by_cases waiting : making.waiting = []
      · exact ⟨making, by simp [Making.run, waiting], keeps, waiting, fun _ isMade => isMade⟩
      · have members (id : NodeId) : id ∈ making.waiting.reverse ++ [] ↔ id ∈ [] ++ making.waiting := by
          simp
        have roundKeeps :
            Keeps graph meaning { making with waiting := [] } making.waiting.reverse := by
          constructor
          case same => exact keeps.same
          case size => exact keeps.size
          case distinct => simpa using keeps.distinct
          case pending => exact fun id member => keeps.pending id ((members id).mp member)
          case settled =>
            intro id made notPending isMade
            exact keeps.settled id made (fun member => notPending ((members id).mpr member)) isMade
        obtain ⟨filled, round, filledKeeps, follows⟩ := roundKeeps.fillAll clear
        have potential : filled.left + filled.waiting.length ≤ making.left := follows.potential
        have some : 0 < making.waiting.length := List.length_pos_iff.mpr waiting
        obtain ⟨after, onwards, afterKeeps, none, kept⟩ := ih filledKeeps (by omega)
        refine ⟨after, ?_, afterKeeps, none, fun id isMade => kept id (follows.kept id isMade)⟩
        have notEmpty : making.waiting.isEmpty = false := by simpa using waiting
        simp [Making.run, notEmpty, round, onwards, bind, Except.bind]

end Rounds

end Making

namespace Graph

variable {graph : Graph} {meaning : NodeId → Value}

/-- Everything that was made is finished, and so are its parts. -/
def Finished (graph : Graph) (meaning : NodeId → Value) (made : Array (Option Made)) : Prop :=
  ∀ id done, made[id]?.join = some done → done = graph.finished meaning id ∧
    ∀ part ∈ done.parts, (made[part]?.join).isSome = true

theorem made_eq (clear : ∀ id < graph.size, graph.Clear meaning id) {root : NodeId}
    (inside : root < graph.size) : ∃ made, graph.made root = .ok made ∧ made.size = graph.size ∧
      graph.Finished meaning made ∧ (made[root]?.join).isSome = true := by
  let start : Making := { graph, made := Array.replicate graph.size none }
  have nothing (id : NodeId) : start.made? id = none := by
    simp only [start, Making.made?, Array.getElem?_replicate]
    split <;> rfl
  have startKeeps : Making.Keeps graph meaning start [] := by
    constructor
    case same => rfl
    case size => simp [start]
    case distinct => simp [start]
    case pending => simp [start]
    case settled =>
      intro id made _ isMade
      rw [nothing] at isMade
      contradiction
  have startLeft : start.left = graph.size := by
    simp [start, Making.left, List.countP_replicate]
  obtain ⟨begun, made, begunKeeps, isMade, follows⟩ := startKeeps.make (clear root inside) inside
  have potential : begun.left + begun.waiting.length ≤ start.left + 0 := follows.potential
  obtain ⟨after, ran, afterKeeps, noneWaits, kept⟩ := begunKeeps.run clear (graph.size + 1) (by omega)
  refine ⟨after.made, ?_, afterKeeps.size, ?_, kept root isMade⟩
  · have madeRoot : Making.make { graph, made := Array.replicate graph.size none } root = .ok begun :=
      made
    simp [Graph.made, madeRoot, ran, bind, Except.bind, pure, Except.pure]
  · intro id done isDone
    exact afterKeeps.settled id done (by simp [noneWaits]) isDone

end Graph

theorem Made.value_congr {f g : NodeId → Value} (made : Made)
    (same : ∀ part ∈ made.parts, f part = g part) : made.value f = made.value g := by
  cases made with
  | leaf value => rfl
  | list items => exact congrArg _ (List.map_congr_left same)
  | pairs items =>
      apply congrArg Value.list
      apply List.map_congr_left
      intro item member
      rw [same item.1 (List.mem_flatMap.mpr ⟨item, member, by simp⟩),
        same item.2 (List.mem_flatMap.mpr ⟨item, member, by simp⟩)]
  | set items => rfl
  | map entries =>
      apply congrArg Value.map
      apply List.map_congr_left
      intro entry member
      rw [same entry.2 (List.mem_map_of_mem member)]

namespace Unfolding

variable {graph : Graph} {meaning : NodeId → Value}

/-- The values found so far are those that the nodes mean. -/
structure Agrees (meaning : NodeId → Value) (made : Array (Option Made)) (unfolding : Unfolding) :
    Prop where
  same : unfolding.made = made
  size : unfolding.values.size = made.size
  found : ∀ id value, unfolding.values[id]?.join = some value → value = meaning id

theorem Agrees.value_eq {made : Array (Option Made)} {unfolding : Unfolding}
    (agrees : Agrees meaning made unfolding) {id : NodeId}
    (known : (unfolding.values[id]?.join).isSome = true) : unfolding.value id = meaning id := by
  obtain ⟨value, held⟩ := Option.isSome_iff_exists.mp known
  rw [Unfolding.value, held, Option.getD_some]
  exact agrees.found id value held

/-- Nothing that was known is forgotten, and the values of some nodes are known now. -/
structure Learns (meaning : NodeId → Value) (made : Array (Option Made)) (before : Unfolding)
    (ids : List NodeId) (after : Unfolding) : Prop where
  agrees : Agrees meaning made after
  known : ∀ id ∈ ids, (after.values[id]?.join).isSome = true
  kept : ∀ id : NodeId, (before.values[id]?.join).isSome = true →
    (after.values[id]?.join).isSome = true

theorem settleAll_eq {made : Array (Option Made)} (bound : Nat) {parts : List NodeId}
    (each : ∀ part ∈ parts, ∀ unfolding, Agrees meaning made unfolding → ∃ after,
      unfolding.settle? bound part = some after ∧ Learns meaning made unfolding [part] after)
    {unfolding : Unfolding} (agrees : Agrees meaning made unfolding) : ∃ after,
      parts.foldlM (fun unfolding part => unfolding.settle? bound part) unfolding = some after ∧
        Learns meaning made unfolding parts after := by
  induction parts generalizing unfolding with
  | nil => exact ⟨unfolding, rfl, agrees, by simp, fun _ known => known⟩
  | cons part rest ih =>
      obtain ⟨next, settled, learns⟩ := each part List.mem_cons_self unfolding agrees
      obtain ⟨after, onwards, learnsRest⟩ :=
        ih (fun other member => each other (List.mem_cons_of_mem part member)) learns.agrees
      refine ⟨after, by simp [settled, onwards], learnsRest.agrees, ?_,
        fun id known => learnsRest.kept id (learns.kept id known)⟩
      intro other member
      rcases List.mem_cons.mp member with rfl | inRest
      · exact learnsRest.kept other (learns.known other (by simp))
      · exact learnsRest.known other inRest

theorem settle?_eq {made : Array (Option Made)} (sized : made.size = graph.size)
    (clear : ∀ id < graph.size, graph.Clear meaning id) (finished : graph.Finished meaning made)
    (bound : Nat) (id : Nat) (inside : id < graph.size) (enough : graph.size < bound + id)
    (isMade : (made[id]?.join).isSome = true) {unfolding : Unfolding}
    (agrees : Agrees meaning made unfolding) : ∃ after,
      unfolding.settle? bound id = some after ∧ Learns meaning made unfolding [id] after := by
  -- Parts stand behind what they are a part of: the way down ends at the last node.
  induction bound generalizing id unfolding with
  | zero => omega
  | succ bound ih =>
      obtain ⟨done, isDone⟩ := Option.isSome_iff_exists.mp isMade
      obtain ⟨rfl, partsMade⟩ := finished id done isDone
      cases fresh : unfolding.values[id]?.join with
      | some value =>
          refine ⟨unfolding, by simp [settle?, fresh], agrees, ?_, fun _ known => known⟩
          simp [fresh]
      | none =>
          obtain ⟨settled, parts, learns⟩ := settleAll_eq bound (fun part isPart other =>
            have behind := (clear id inside).parts_behind isPart
            ih part behind.2 (by omega) (partsMade part isPart)) agrees
          have means : (graph.finished meaning id).value settled.value = meaning id := by
            rw [Made.value_congr _ fun part isPart => learns.agrees.value_eq (learns.known part isPart)]
            exact (clear id inside).value_finished
          have unmade : unfolding.made[id]?.join = some (graph.finished meaning id) := by
            rw [agrees.same, isDone]
          have bounded : id < settled.values.size := by
            rw [learns.agrees.size, sized]
            exact inside
          have after (other : NodeId) :
              (settled.values.setIfInBounds id (some (meaning id)))[other]?.join =
                if id = other then some (meaning id) else settled.values[other]?.join := by
            rw [Array.getElem?_setIfInBounds]
            by_cases same : id = other
            · subst same
              simp [bounded]
            · simp [same]
          refine ⟨{ settled with values := settled.values.setIfInBounds id (some (meaning id)) },
            by simp [settle?, fresh, unmade, parts, means], ⟨learns.agrees.same, ?_, ?_⟩, ?_, ?_⟩
          · simpa using learns.agrees.size
          · intro other value known
            rw [after] at known
            split at known
            next same => exact same ▸ (Option.some.inj known).symm
            next => exact learns.agrees.found other value known
          · simp [after]
          · intro other known
            rw [after]
            split
            · rfl
            · exact learns.kept other known

end Unfolding

/-- A graph whose nodes are all clear has the value that its root means. -/
theorem Graph.value_eq {graph : Graph} {meaning : NodeId → Value}
    (clear : ∀ id < graph.size, graph.Clear meaning id) {root : NodeId} (inside : root < graph.size) :
    graph.value root = .ok (meaning root) := by
  obtain ⟨made, isMade, sized, finished, rootMade⟩ := Graph.made_eq clear inside
  have fresh : Unfolding.Agrees meaning made ⟨made, Array.replicate made.size none⟩ := by
    refine ⟨rfl, by simp, ?_⟩
    intro id value held
    simp only [Array.getElem?_replicate] at held
    split at held <;> contradiction
  obtain ⟨settled, runs, learns⟩ := Unfolding.settle?_eq sized clear finished
    (made.size + 1) root inside (by omega) rootMade fresh
  simp only [Graph.value, isMade, bind, Except.bind, runs]
  exact congrArg Except.ok (learns.agrees.value_eq (learns.known root (by simp)))

end ApiSurface.Yaml
