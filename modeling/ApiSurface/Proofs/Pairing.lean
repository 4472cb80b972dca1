import ApiSurface.Reconcile
import ApiSurface.Proofs.Difference
import ApiSurface.Proofs.Traversal

/-! Pairing the elements that differ. Every condition that is checked on the way holds, and what
comes out are the added and altered elements of the new side and the missing ones of the old side. -/

namespace ApiSurface

theorem Change.differing_none_iff {α : Type} [DecidableEq α] (old new : Option α) :
    (Change.differing old new).1.isNone = true ∧ (Change.differing old new).2.isNone = true ↔
      old = new := by
  unfold Change.differing
  split
  next same => simp [same]
  next different =>
    constructor
    · rintro ⟨oldNone, newNone⟩
      rw [Option.isNone_iff_eq_none] at oldNone newNone
      exact oldNone.trans newNone.symm
    · intro same
      contradiction

theorem Change.flipped_none_iff (old new : Bool) :
    (Change.flipped old new).isNone = true ↔ old = new := by
  unfold Change.flipped
  split
  next same => simp [same]
  next different => simp [different]

theorem Change.compared_isEmpty_iff {before after : Element}
    (same : before.identity = after.identity) :
    (Change.compared before after).isEmpty = true ↔ before = after := by
  have aspects : (Change.compared before after).isEmpty = true ↔
      before.identifier = after.identifier ∧ before.declaredType = after.declaredType ∧
        before.obligation = after.obligation ∧ before.isPublic = after.isPublic ∧
          before.isDeprecated = after.isDeprecated := by
    rw [← differing_none_iff before.identifier, ← differing_none_iff before.declaredType,
      ← differing_none_iff before.obligation, ← flipped_none_iff before.isPublic,
      ← flipped_none_iff before.isDeprecated]
    simp [compared, isEmpty, and_assoc]
  rw [aspects]
  constructor
  · rintro ⟨identifier, declaredType, obligation, isPublic, isDeprecated⟩
    obtain ⟨kind, name, container⟩ := (Element.identity_eq_iff before after).mp same
    obtain ⟨⟨_, _, _, _, _, _, _, _⟩, _, _⟩ := before
    obtain ⟨⟨_, _, _, _, _, _, _, _⟩, _, _⟩ := after
    simp_all
  · rintro rfl
    simp

/-- The entry of a new element beside the old version, or nothing if it is unchanged or left out. -/
def verdict (old : Snapshot) (suppress : Bool) (element : Element) : Option Entry :=
  match old.get? element.identity with
  | none => if suppress && element.isDeprecated then none else some ⟨element, none⟩
  | some before =>
    if before = element then none else some ⟨element, some (.compared before element)⟩

def newEntries (old new : Snapshot) (suppress : Bool) : List Entry :=
  new.elements.filterMap (verdict old suppress)

def leftovers (old new : Snapshot) : List Element :=
  old.elements.filter fun element => !new.hasIdentity element.identity

section Pruning

variable (old new : Snapshot)

theorem mem_prune_new (element : Element) :
    element ∈ (prune old new).new ↔ element ∈ new.elements ∧ element ∉ old.elements := by
  simp only [prune, List.mem_filter, decide_eq_true_eq]
  constructor
  · rintro ⟨member, changed⟩
    exact ⟨member, fun kept => changed ⟨member, kept⟩⟩
  · rintro ⟨member, changed⟩
    exact ⟨member, fun kept => changed kept.2⟩

theorem mem_prune_old (element : Element) :
    element ∈ (prune old new).old ↔ element ∈ old.elements ∧ element ∉ new.elements := by
  simp only [prune, List.mem_filter, decide_eq_true_eq]
  constructor
  · rintro ⟨member, changed⟩
    exact ⟨member, fun kept => changed ⟨kept, member⟩⟩
  · rintro ⟨member, changed⟩
    exact ⟨member, fun kept => changed kept.1⟩

theorem prune_old_distinct : ((prune old new).old.map Element.identity).Nodup :=
  old.distinct.sublist (List.filter_sublist.map _)

/-- An old element that a changed new element is compared with has not been pruned. -/
theorem find?_prune_old {element : Element} (member : element ∈ (prune old new).new) :
    (prune old new).old.find? (·.identity == element.identity) = old.get? element.identity := by
  have place := (mem_prune_new old new element).mp member
  ext before
  rw [Element.find?_identity_eq_some_iff (prune_old_distinct old new), Snapshot.get?_eq_some_iff,
    mem_prune_old]
  constructor
  · rintro ⟨⟨beforeMember, _⟩, same⟩
    exact ⟨beforeMember, same⟩
  · rintro ⟨beforeMember, same⟩
    refine ⟨⟨beforeMember, fun kept => ?_⟩, same⟩
    have equal : before = element := Element.eq_of_identity_eq new.distinct kept place.1 same
    exact place.2 (equal ▸ beforeMember)

end Pruning

theorem pairElement_prune (old new : Snapshot) (suppress : Bool) {element : Element}
    (member : element ∈ (prune old new).new) :
    pairElement suppress (prune old new).old element = .ok (verdict old suppress element) := by
  have changed := ((mem_prune_new old new element).mp member).2
  rw [pairElement, verdict, find?_prune_old old new member]
  cases found : old.get? element.identity with
  | none => rfl
  | some before =>
      have place := (old.get?_eq_some_iff element.identity before).mp found
      have different : before ≠ element := fun equal => changed (equal ▸ place.1)
      have differs : (Change.compared before element).isEmpty = false := by
        rw [← Bool.not_eq_true, Change.compared_isEmpty_iff place.2]
        exact different
      simp [Change.between?, place.2, differs, different]

theorem filterMap_prune_new (old new : Snapshot) (suppress : Bool) :
    (prune old new).new.filterMap (verdict old suppress) = newEntries old new suppress := by
  rw [newEntries, prune, List.filterMap_filter]
  apply List.filterMap_congr
  intro element member
  by_cases kept : element ∈ old.elements
  · have found : old.get? element.identity = some element :=
      (old.get?_eq_some_iff element.identity element).mpr ⟨kept, rfl⟩
    simp [verdict, found, member, kept]
  · simp [kept]

theorem verdict_eq_some_iff (old : Snapshot) (suppress : Bool) (element : Element)
    (entry : Entry) :
    verdict old suppress element = some entry ↔
      (element.identity ∉ old.identities ∧ ¬ (suppress = true ∧ element.isDeprecated = true) ∧
        entry = ⟨element, none⟩) ∨
      ∃ before ∈ old.elements, before.identity = element.identity ∧ before ≠ element ∧
        entry = ⟨element, some (.compared before element)⟩ := by
  have present (before : Element) := old.get?_eq_some_iff element.identity before
  rw [← old.get?_eq_none_iff, verdict]
  cases found : old.get? element.identity with
  | none =>
      simp only [found, reduceCtorEq, false_iff, not_and] at present
      have none_before : ¬ ∃ before ∈ old.elements, before.identity = element.identity ∧
          before ≠ element ∧ entry = ⟨element, some (.compared before element)⟩ := by
        rintro ⟨before, member, same, _⟩
        exact present before member same
      simp only [none_before, or_false, ← Bool.and_eq_true, true_and]
      cases suppress && element.isDeprecated <;> simp [eq_comm]
  | some before =>
      have place := (present before).mp found
      have only_before (other : Element) (member : other ∈ old.elements)
          (same : other.identity = element.identity) : before = other := by
        have equal : some before = some other := found.symm.trans ((present other).mpr ⟨member, same⟩)
        exact Option.some.inj equal
      by_cases unchanged : before = element
      · simp only [unchanged, if_true, reduceCtorEq, false_and, false_or, false_iff]
        rintro ⟨other, member, same, different, _⟩
        exact different ((only_before other member same).symm.trans unchanged)
      · simp only [unchanged, if_false, Option.some.injEq, reduceCtorEq, false_and, false_or]
        constructor
        · rintro rfl
          exact ⟨before, place.1, place.2, unchanged, rfl⟩
        · rintro ⟨other, member, same, _, rfl⟩
          rw [only_before other member same]

theorem mem_newEntries_iff (old new : Snapshot) (suppress : Bool) (entry : Entry) :
    entry ∈ newEntries old new suppress ↔
      (∃ element, Added old new suppress element ∧ entry = ⟨element, none⟩) ∨
      ∃ before after, Altered old new before after ∧
        entry = ⟨after, some (.compared before after)⟩ := by
  simp only [newEntries, List.mem_filterMap, verdict_eq_some_iff]
  constructor
  · rintro ⟨element, member, ⟨absent, kept, rfl⟩ | ⟨before, beforeMember, same, different, rfl⟩⟩
    · exact .inl ⟨element, ⟨member, absent, kept⟩, rfl⟩
    · exact .inr ⟨before, element, ⟨beforeMember, member, same, different⟩, rfl⟩
  · rintro (⟨element, ⟨member, absent, kept⟩, rfl⟩ |
      ⟨before, after, ⟨beforeMember, member, same, different⟩, rfl⟩)
    · exact ⟨element, member, .inl ⟨absent, kept, rfl⟩⟩
    · exact ⟨after, member, .inr ⟨before, beforeMember, same, different, rfl⟩⟩

theorem mem_leftovers_iff (old new : Snapshot) (element : Element) :
    element ∈ leftovers old new ↔ Missing old new element := by
  simp only [leftovers, List.mem_filter, Bool.not_eq_true', ← Bool.not_eq_true,
    Snapshot.hasIdentity_iff]
  constructor
  · rintro ⟨member, absent⟩
    exact ⟨member, absent⟩
  · intro missing
    exact ⟨missing.member, missing.absent⟩

theorem mem_matched_iff (old new : Snapshot) (suppress : Bool) (path : Path) :
    path ∈ ((newEntries old new suppress).filter (·.change.isSome)).map (·.element.identity) ↔
      ∃ before after, Altered old new before after ∧ after.identity = path := by
  simp only [List.mem_map, List.mem_filter, mem_newEntries_iff]
  constructor
  · rintro ⟨entry, ⟨⟨_, _, rfl⟩ | ⟨before, after, altered, rfl⟩, changed⟩, same⟩
    · contradiction
    · exact ⟨before, after, altered, same⟩
  · rintro ⟨before, after, altered, same⟩
    exact ⟨_, ⟨.inr ⟨before, after, altered, rfl⟩, rfl⟩, same⟩

theorem filter_prune_old (old new : Snapshot) (suppress : Bool) :
    ((prune old new).old.filter fun element => decide (element.identity ∉
      ((newEntries old new suppress).filter (·.change.isSome)).map (·.element.identity))) =
      leftovers old new := by
  rw [leftovers, prune, List.filter_filter]
  apply List.filter_congr
  intro element member
  rw [Bool.eq_iff_iff]
  simp only [Bool.and_eq_true, decide_eq_true_eq, mem_matched_iff, Bool.not_eq_true',
    ← Bool.not_eq_true, Snapshot.hasIdentity_iff, List.mem_filter]
  constructor
  · rintro ⟨unmatched, changed⟩ present
    obtain ⟨after, afterMember, same⟩ := List.mem_map.mp present
    by_cases equal : element = after
    · exact changed ⟨equal ▸ afterMember, member⟩
    · exact unmatched ⟨element, after, ⟨member, afterMember, same.symm, equal⟩, same⟩
  · intro absent
    constructor
    · rintro ⟨before, after, altered, same⟩
      exact absent (same ▸ List.mem_map_of_mem altered.afterMember)
    · rintro ⟨kept, _⟩
      exact absent (List.mem_map_of_mem kept)

theorem pairElements_prune (old new : Snapshot) (suppress : Bool) :
    pairElements suppress (prune old new) = .ok {
      entries := newEntries old new suppress
      leftovers := leftovers old new
      suppressed := (prune old new).new.length - (newEntries old new suppress).length } := by
  have paired : (prune old new).new.mapM (pairElement suppress (prune old new).old) =
      .ok ((prune old new).new.map (verdict old suppress)) :=
    mapM_eq_ok_map fun element member => pairElement_prune old new suppress member
  have entries : ((prune old new).new.map (verdict old suppress)).filterMap id =
      newEntries old new suppress := by
    rw [List.filterMap_map, Function.id_comp, filterMap_prune_new]
  simp only [pairElements, prune_old_distinct, not_true_eq_false, if_false, paired, bind,
    Except.bind, pure, Except.pure, entries, filter_prune_old, List.length_map]

theorem verdict_element {old : Snapshot} {suppress : Bool} {element : Element} {entry : Entry}
    (result : verdict old suppress element = some entry) : entry.element = element := by
  rcases (verdict_eq_some_iff old suppress element entry).mp result with
    ⟨_, _, rfl⟩ | ⟨_, _, _, _, rfl⟩ <;> rfl

theorem newEntries_distinct (old new : Snapshot) (suppress : Bool) :
    ((newEntries old new suppress).map (·.element.identity)).Nodup := by
  rw [List.Nodup, List.pairwise_map, newEntries, List.pairwise_filterMap]
  apply (List.pairwise_map.mp new.distinct).imp
  intro left right different leftEntry leftResult rightEntry rightResult
  rw [verdict_element leftResult, verdict_element rightResult]
  exact different

theorem leftovers_distinct (old new : Snapshot) :
    ((leftovers old new).map Element.identity).Nodup :=
  old.distinct.sublist (List.filter_sublist.map _)

theorem mem_map_newEntries_iff (old new : Snapshot) (suppress : Bool) (element : Element) :
    element ∈ (newEntries old new suppress).map (·.element) ↔ Fresh old new suppress element := by
  simp only [List.mem_map, mem_newEntries_iff, Fresh]
  constructor
  · rintro ⟨_, ⟨_, added, rfl⟩ | ⟨before, _, altered, rfl⟩, rfl⟩
    · exact .inl added
    · exact .inr ⟨before, altered⟩
  · rintro (added | ⟨before, altered⟩)
    · exact ⟨_, .inl ⟨element, added, rfl⟩, rfl⟩
    · exact ⟨_, .inr ⟨before, element, altered, rfl⟩, rfl⟩

end ApiSurface
