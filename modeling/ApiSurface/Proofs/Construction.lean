import ApiSurface.Proofs.Identity
import Mathlib.Data.List.Basic

/-! Snapshots are made of lists of elements. A list is refused at the first element whose identity an
earlier one has; any other list is kept as it is, and look-ups in the snapshot answer for the list. -/

namespace ApiSurface

theorem firstRepeated_eq_some_iff {α : Type} [DecidableEq α] (before items : List α) (item : α) :
    firstRepeated before items = some item ↔
      ∃ fresh rest, items = fresh ++ item :: rest ∧ fresh.Nodup ∧
        (∀ other ∈ fresh, other ∉ before) ∧ (item ∈ before ∨ item ∈ fresh) := by
  induction items generalizing before with
  | nil => simp [firstRepeated]
  | cons head tail ih =>
      by_cases present : head ∈ before
      · simp only [firstRepeated, present, if_true, Option.some.injEq]
        constructor
        · rintro rfl
          exact ⟨[], tail, rfl, .nil, by simp, .inl present⟩
        · rintro ⟨fresh, rest, split, _, absent, _⟩
          cases fresh with
          | nil => exact (List.cons.inj split).1
          | cons first more =>
              have same : head = first := (List.cons.inj split).1
              exact absurd present (absent head (same ▸ List.mem_cons_self))
      · simp only [firstRepeated, present, if_false, ih]
        constructor
        · rintro ⟨fresh, rest, rfl, distinct, absent, again⟩
          have headFresh : head ∉ fresh := fun member => absent head member List.mem_cons_self
          refine ⟨head :: fresh, rest, rfl, List.nodup_cons.mpr ⟨headFresh, distinct⟩, ?_, ?_⟩
          · intro other member
            rcases List.mem_cons.mp member with rfl | later
            · exact present
            · exact fun earlier => absent other later (List.mem_cons_of_mem head earlier)
          · rcases again with known | inFresh
            · rcases List.mem_cons.mp known with rfl | earlier
              · exact .inr List.mem_cons_self
              · exact .inl earlier
            · exact .inr (List.mem_cons_of_mem head inFresh)
        · rintro ⟨fresh, rest, split, distinct, absent, again⟩
          cases fresh with
          | nil =>
              have same : head = item := (List.cons.inj split).1
              rcases again with known | nowhere
              · exact absurd (same ▸ known) present
              · cases nowhere
          | cons first more =>
              obtain ⟨rfl, rfl⟩ := List.cons.inj split
              obtain ⟨headFresh, moreDistinct⟩ := List.nodup_cons.mp distinct
              refine ⟨more, rest, rfl, moreDistinct, ?_, ?_⟩
              · intro other member known
                rcases List.mem_cons.mp known with rfl | earlier
                · exact headFresh member
                · exact absent other (List.mem_cons_of_mem head member) earlier
              · rcases again with known | inFresh
                · exact .inl (List.mem_cons_of_mem head known)
                · rcases List.mem_cons.mp inFresh with rfl | later
                  · exact .inl List.mem_cons_self
                  · exact .inr later

/-- Elements at two places of the list have one identity. -/
def SharesIdentity (elements : List Element) : Prop :=
  ∃ (first second : Nat) (left right : Element), first < second ∧ elements[first]? = some left ∧
    elements[second]? = some right ∧ left.identity = right.identity

/-- The elements up to this one have different identities, and it has the identity of one of them. -/
def FirstSharing (elements : List Element) (element : Element) : Prop :=
  ∃ before after, elements = before ++ element :: after ∧ (before.map Element.identity).Nodup ∧
    ∃ earlier ∈ before, earlier.identity = element.identity

theorem sharesIdentity_iff (elements : List Element) :
    SharesIdentity elements ↔ ¬ (elements.map Element.identity).Nodup := by
  rw [List.Nodup, List.pairwise_map, List.pairwise_iff_getElem]
  simp only [not_forall, ne_eq, not_not]
  constructor
  · rintro ⟨first, second, left, right, inOrder, atFirst, atSecond, same⟩
    obtain ⟨firstBound, rfl⟩ := List.getElem?_eq_some_iff.mp atFirst
    obtain ⟨secondBound, rfl⟩ := List.getElem?_eq_some_iff.mp atSecond
    exact ⟨first, second, firstBound, secondBound, inOrder, same⟩
  · rintro ⟨first, second, firstBound, secondBound, inOrder, same⟩
    exact ⟨first, second, _, _, inOrder, List.getElem?_eq_getElem firstBound,
      List.getElem?_eq_getElem secondBound, same⟩

theorem firstRepeated_identity_iff (elements : List Element) (path : Path) :
    firstRepeated [] (elements.map Element.identity) = some path ↔
      ∃ element, FirstSharing elements element ∧ element.identity = path := by
  rw [firstRepeated_eq_some_iff]
  constructor
  · rintro ⟨fresh, rest, split, distinct, _, again⟩
    obtain ⟨before, others, rfl, rfl, behind⟩ := List.map_eq_append_iff.mp split
    obtain ⟨element, after, rfl, rfl, rfl⟩ := List.map_eq_cons_iff.mp behind
    have earlier := List.mem_map.mp (again.resolve_left List.not_mem_nil)
    exact ⟨element, ⟨before, after, rfl, distinct, earlier⟩, rfl⟩
  · rintro ⟨element, ⟨before, after, rfl, distinct, earlier⟩, rfl⟩
    refine ⟨before.map Element.identity, after.map Element.identity, ?_, distinct, by simp, ?_⟩
    · rw [List.map_append, List.map_cons]
    · exact .inr (List.mem_map.mpr earlier)

namespace Snapshot

/-- The snapshot has the elements of a list in their order, and finds each of them by its identity. -/
structure MadeOf (snapshot : Snapshot) (elements : List Element) (version : Option Text) : Prop where
  versioned : snapshot.version = version
  inOrder : snapshot.elements = elements
  found : ∀ path element, snapshot.get? path = some element ↔
    element ∈ elements ∧ element.identity = path ∧
      ∀ other ∈ elements, other.identity = path → other = element
  missed : ∀ path, snapshot.get? path = none ↔ ∀ element ∈ elements, element.identity ≠ path
  holdsIdentity : ∀ path, snapshot.hasIdentity path = true ↔ snapshot.get? path ≠ none
  holdsElement : ∀ element, snapshot.hasElement element = true ↔ element ∈ elements

theorem hasElement_iff (snapshot : Snapshot) (element : Element) :
    snapshot.hasElement element = true ↔ element ∈ snapshot.elements := by
  rw [hasElement, beq_iff_eq, get?_eq_some_iff]
  exact and_iff_left rfl

theorem madeOf_elements (snapshot : Snapshot) :
    snapshot.MadeOf snapshot.elements snapshot.version where
  versioned := rfl
  inOrder := rfl
  found := by
    intro path element
    rw [get?_eq_some_iff]
    constructor
    · rintro ⟨member, rfl⟩
      refine ⟨member, rfl, ?_⟩
      intro other otherMember same
      exact Element.eq_of_identity_eq snapshot.distinct otherMember member same
    · rintro ⟨member, same, _⟩
      exact ⟨member, same⟩
  missed := by
    intro path
    rw [get?_eq_none_iff]
    simp [identities]
  holdsIdentity := by
    intro path
    rw [hasIdentity, Option.isSome_iff_ne_none]
  holdsElement := snapshot.hasElement_iff

theorem build_eq_error_iff (elements : List Element) (version : Option Text) (fault : Fault) :
    build elements version = .error fault ↔
      ∃ element, FirstSharing elements element ∧
        fault = .duplicateElement element.identity.shown := by
  have repeated := firstRepeated_identity_iff elements
  unfold build
  split
  next path found =>
    obtain ⟨element, sharing, same⟩ := (repeated path).mp found
    simp only [Except.error.injEq]
    constructor
    · rintro rfl
      exact ⟨element, sharing, by rw [same]⟩
    · rintro ⟨other, otherSharing, rfl⟩
      have again := (repeated other.identity).mpr ⟨other, otherSharing, rfl⟩
      rw [Option.some.inj (found.symm.trans again)]
  next fresh =>
    simp only [reduceCtorEq, false_iff]
    rintro ⟨element, sharing, _⟩
    have found := (repeated element.identity).mpr ⟨element, sharing, rfl⟩
    rw [fresh] at found
    cases found

theorem exists_build_error_iff (elements : List Element) (version : Option Text) :
    (∃ fault, build elements version = .error fault) ↔ SharesIdentity elements := by
  rw [sharesIdentity_iff]
  constructor
  · rintro ⟨fault, refused⟩ distinct
    rw [build_eq_ok distinct version] at refused
    cases refused
  · intro shared
    cases repeated : firstRepeated [] (elements.map Element.identity) with
    | none => exact absurd (nodup_of_firstRepeated _ _ repeated).1 shared
    | some path =>
        obtain ⟨element, sharing, _⟩ := (firstRepeated_identity_iff elements path).mp repeated
        exact ⟨_, (build_eq_error_iff elements version _).mpr ⟨element, sharing, rfl⟩⟩

/-- A list is refused exactly if two of its elements have one identity, by the name of the first
element whose identity came before; of any other list a snapshot is made, which looks elements up as
they are in the list. -/
theorem build_exact (elements : List Element) (version : Option Text) :
    ((∃ fault, build elements version = .error fault) ↔ SharesIdentity elements) ∧
      (∀ fault, build elements version = .error fault → ∃ element, FirstSharing elements element ∧
        fault.problem.code = .snapshotDuplicate ∧
        fault.problem.details = .map [("identity", .text element.identity.shown)]) ∧
      (¬ SharesIdentity elements →
        ∃ snapshot, build elements version = .ok snapshot ∧ snapshot.MadeOf elements version) := by
  refine ⟨exists_build_error_iff elements version, ?_, ?_⟩
  · intro fault refused
    obtain ⟨element, sharing, rfl⟩ := (build_eq_error_iff elements version fault).mp refused
    exact ⟨element, sharing, rfl, rfl⟩
  · intro unshared
    have distinct := not_not.mp ((sharesIdentity_iff elements).not.mp unshared)
    exact ⟨_, build_eq_ok distinct version, madeOf_elements ⟨version, elements, distinct⟩⟩

end Snapshot

end ApiSurface
