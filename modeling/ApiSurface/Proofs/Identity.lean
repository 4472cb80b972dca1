import ApiSurface.Snapshot
import Mathlib.Data.List.Nodup

/-! Elements are found by their identities. Where no identity is there twice, what is found does not
depend on the order of the elements. -/

namespace ApiSurface

namespace Element

theorem identity_ne_nil (element : Element) : element.identity ≠ [] := by
  simp [identity]

theorem identity_eq_iff (left right : Element) :
    left.identity = right.identity ↔
      left.kind = right.kind ∧ left.name = right.name ∧ left.container = right.container := by
  simp [identity, and_assoc]

theorem eq_of_identity_eq {elements : List Element}
    (distinct : (elements.map identity).Nodup) {left right : Element}
    (leftMember : left ∈ elements) (rightMember : right ∈ elements)
    (same : left.identity = right.identity) : left = right :=
  List.inj_on_of_nodup_map distinct leftMember rightMember same

theorem find?_identity_eq_some_iff {elements : List Element}
    (distinct : (elements.map identity).Nodup) (path : Path) (element : Element) :
    elements.find? (·.identity == path) = some element ↔
      element ∈ elements ∧ element.identity = path := by
  constructor
  · intro found
    exact ⟨List.mem_of_find?_eq_some found, by simpa using List.find?_some found⟩
  · rintro ⟨member, same⟩
    cases found : elements.find? (·.identity == path) with
    | none =>
        have missed := List.find?_eq_none.mp found element member
        simp [same] at missed
    | some other =>
        have otherMember := List.mem_of_find?_eq_some found
        have otherSame : other.identity = path := by simpa using List.find?_some found
        rw [eq_of_identity_eq distinct otherMember member (otherSame.trans same.symm)]

end Element

/-- The converse of `nodup_of_firstRepeated`. -/
theorem firstRepeated_eq_none {α : Type} [DecidableEq α] {before items : List α}
    (distinct : items.Nodup) (fresh : ∀ item ∈ items, item ∉ before) :
    firstRepeated before items = none := by
  induction items generalizing before with
  | nil => rfl
  | cons item rest ih =>
      obtain ⟨absent, restDistinct⟩ := List.nodup_cons.mp distinct
      simp only [firstRepeated, fresh item (by simp), if_false]
      apply ih restDistinct
      intro other member again
      rcases List.mem_cons.mp again with rfl | earlier
      · exact absent member
      · exact fresh other (by simp [member]) earlier

namespace Snapshot

abbrev identities (snapshot : Snapshot) : List Path := snapshot.elements.map Element.identity

theorem get?_eq_some_iff (snapshot : Snapshot) (path : Path) (element : Element) :
    snapshot.get? path = some element ↔
      element ∈ snapshot.elements ∧ element.identity = path :=
  Element.find?_identity_eq_some_iff snapshot.distinct path element

theorem get?_eq_none_iff (snapshot : Snapshot) (path : Path) :
    snapshot.get? path = none ↔ path ∉ snapshot.identities := by
  simp [get?]

theorem hasIdentity_iff (snapshot : Snapshot) (path : Path) :
    snapshot.hasIdentity path = true ↔ path ∈ snapshot.identities := by
  rw [hasIdentity, Option.isSome_iff_ne_none, ne_eq, get?_eq_none_iff, not_not]

theorem build_eq_ok {elements : List Element}
    (distinct : (elements.map Element.identity).Nodup) (version : Option Text) :
    Snapshot.build elements version = .ok ⟨version, elements, distinct⟩ := by
  have fresh : firstRepeated [] (elements.map Element.identity) = none :=
    firstRepeated_eq_none distinct (by simp)
  unfold build
  split
  next found =>
    rw [fresh] at found
    contradiction
  next => rfl

theorem exists_build {elements : List Element}
    (distinct : (elements.map Element.identity).Nodup) (version : Option Text) :
    ∃ snapshot, Snapshot.build elements version = .ok snapshot ∧ snapshot.elements = elements :=
  ⟨_, build_eq_ok distinct version, rfl⟩

theorem get?_eq_of_perm {left right : Snapshot}
    (reordered : left.elements.Perm right.elements) (path : Path) :
    left.get? path = right.get? path := by
  ext element
  rw [get?_eq_some_iff, get?_eq_some_iff, reordered.mem_iff]

end Snapshot

end ApiSurface
