import ApiSurface.Proofs.Identity
import Mathlib.Data.List.Basic
import Mathlib.Order.Defs.Unbundled

/-! The order of a report. Its keys are compared lexicographically, and two elements have the same
key exactly when they have the same identity, however deep the containers stand in each other and
whatever they are called. So the keys put all identities in a row. -/

namespace ApiSurface

theorem SortKey.compare_eq_lex :
    (compare : SortKey → SortKey → Ordering) =
      compareLex (compareOn SortKey.order) (compareLex (compareOn SortKey.container)
        (compareLex (compareOn SortKey.name) (compareOn SortKey.chain))) := by
  funext left right
  cases left
  cases right
  simp [compare, instOrdSortKey.ord, compareLex, compareOn]

instance : Std.TransOrd SortKey := by
  unfold Std.TransOrd
  rw [SortKey.compare_eq_lex]
  infer_instance

theorem SortKey.eq_of_compare_eq {left right : SortKey} (same : compare left right = .eq) :
    left = right := by
  simp only [SortKey.compare_eq_lex, compareLex_eq_eq, compareOn,
    Std.LawfulEqOrd.compare_eq_iff_eq] at same
  obtain ⟨order, container, name, chain⟩ := same
  cases left
  cases right
  simp_all

instance : Std.LawfulEqOrd SortKey where
  compare_self := Std.ReflOrd.compare_self
  eq_of_compare := SortKey.eq_of_compare_eq

theorem strictTotal_of_injective {α β : Type} [Ord β] [Std.TransOrd β] [Std.LawfulEqOrd β]
    {key : α → β} (separates : Function.Injective key) :
    IsStrictTotalOrder α fun left right => compare (key left) (key right) = .lt where
  irrefl item before := by
    rw [Std.ReflOrd.compare_self] at before
    contradiction
  trans _ _ _ := Std.TransCmp.lt_trans
  trichotomous left right notBefore notAfter := by
    rw [← Std.OrientedCmp.gt_iff_lt] at notAfter
    cases outcome : compare (key left) (key right) with
    | lt => exact absurd outcome notBefore
    | eq => exact separates (Std.LawfulEqOrd.eq_of_compare outcome)
    | gt => exact absurd outcome notAfter

theorem Kind.order_injective : Function.Injective Kind.order := by
  intro left right same
  cases left <;> cases right <;> first | rfl | contradiction

/-- The number of a kind is written with one digit, so the name begins right after the colon. -/
theorem Kind.ofNat_order (kind : Kind) : ∃ digit, Text.ofNat kind.order = [digit] := by
  cases kind <;> exact ⟨_, rfl⟩

theorem Kind.ofNat_order_injective :
    Function.Injective fun kind : Kind => Text.ofNat kind.order := by
  intro left right same
  cases left <;> cases right <;> first | rfl | exact absurd same (by decide)

theorem Path.stepKey_injective : Function.Injective Path.stepKey := by
  intro left right same
  obtain ⟨leftDigit, leftWritten⟩ := left.kind.ofNat_order
  obtain ⟨rightDigit, rightWritten⟩ := right.kind.ofNat_order
  have parts : leftDigit = rightDigit ∧ left.name = right.name := by
    simpa [Path.stepKey, leftWritten, rightWritten] using same
  have kinds : left.kind = right.kind := by
    apply Kind.ofNat_order_injective
    simp only [leftWritten, rightWritten, parts.1]
  cases left
  cases right
  simp_all

theorem Path.sortKey_injective : Function.Injective Path.sortKey := by
  intro left right same
  exact List.map_injective_iff.mpr Path.stepKey_injective (List.reverse_injective same)

/-- Comes first by the steps from the outermost one inwards. -/
def Path.Before (left right : Path) : Prop := compare left.sortKey right.sortKey = .lt

/-- What elements are matched by: a step of their own, and the steps around it. -/
abbrev Identity := { path : Path // path ≠ [] }

namespace Identity

/-- The sort key of every element with the identity. -/
def sortKey (identity : Identity) : SortKey :=
  let own := identity.val.head identity.property
  let container : Path := identity.val.tail
  ⟨own.kind.order, container.name?.getD [], own.name, container.sortKey⟩

/-- No container and a container with an empty name give the same text. They are told apart by the
chain, which has no step for the one and a step for the other. -/
theorem sortKey_injective : Function.Injective sortKey := by
  rintro ⟨left, leftExists⟩ ⟨right, rightExists⟩ same
  obtain ⟨own, container, rfl⟩ := List.exists_cons_of_ne_nil leftExists
  obtain ⟨own', container', rfl⟩ := List.exists_cons_of_ne_nil rightExists
  simp only [sortKey, List.head_cons, List.tail_cons, SortKey.mk.injEq] at same
  obtain ⟨order, _, name, chain⟩ := same
  have kinds : own.kind = own'.kind := Kind.order_injective order
  have containers : container = container' := Path.sortKey_injective chain
  cases own
  cases own'
  simp_all

/-- Comes first in a report. -/
def Before (left right : Identity) : Prop := compare left.sortKey right.sortKey = .lt

end Identity

namespace Element

def place (element : Element) : Identity := ⟨element.identity, element.identity_ne_nil⟩

theorem sortKey_place (element : Element) : element.place.sortKey = element.sortKey := rfl

theorem sortKey_eq_iff (left right : Element) :
    left.sortKey = right.sortKey ↔ left.identity = right.identity := by
  rw [← sortKey_place, ← sortKey_place, Identity.sortKey_injective.eq_iff, Subtype.ext_iff]
  rfl

theorem precedes_trans (first second third : Element) (left : first.precedes second = true)
    (right : second.precedes third = true) : first.precedes third = true :=
  Std.TransCmp.isLE_trans left right

theorem precedes_total (left right : Element) :
    (left.precedes right || right.precedes left) = true := by
  have swapped : compare right.sortKey left.sortKey =
      (compare left.sortKey right.sortKey).swap := Std.OrientedCmp.eq_swap
  rw [precedes, precedes, swapped]
  cases compare left.sortKey right.sortKey <;> simp

theorem identity_eq_of_precedes {left right : Element} (forward : left.precedes right = true)
    (backward : right.precedes left = true) : left.identity = right.identity := by
  apply (sortKey_eq_iff left right).mp
  apply SortKey.eq_of_compare_eq
  exact Std.OrientedCmp.isLE_antisymm forward backward

theorem compare_eq_lt {left right : Element} (ordered : left.precedes right = true)
    (different : left.identity ≠ right.identity) :
    compare left.sortKey right.sortKey = .lt := by
  cases outcome : compare left.sortKey right.sortKey with
  | lt => rfl
  | eq => exact absurd ((sortKey_eq_iff left right).mp (SortKey.eq_of_compare_eq outcome)) different
  | gt => simp [precedes, outcome] at ordered

theorem precedes_iff (left right : Element) :
    left.precedes right = true ↔
      left.identity = right.identity ∨ left.place.Before right.place := by
  have same : left.identity = right.identity ↔ compare left.sortKey right.sortKey = .eq :=
    (sortKey_eq_iff left right).symm.trans Std.LawfulEqOrd.compare_eq_iff_eq.symm
  rw [same, Identity.Before, sortKey_place, sortKey_place, precedes]
  cases compare left.sortKey right.sortKey <;> decide

end Element

/-- The sort keys of two elements are the same exactly if their identities are, and no two identities
have the same chain of texts. So either key orders the identities strictly and totally, and a report
is in the order of the identities of its elements. -/
theorem sort_keys_separate_identities :
    (∀ left right : Element, left.sortKey = right.sortKey ↔ left.identity = right.identity) ∧
      Function.Injective Path.sortKey ∧
      IsStrictTotalOrder Path Path.Before ∧
      IsStrictTotalOrder Identity Identity.Before ∧
      (∀ left right : Element, left.place.Before right.place ↔
        compare left.sortKey right.sortKey = .lt) ∧
      ∀ left right : Element, left.precedes right = true ↔
        left.identity = right.identity ∨ left.place.Before right.place := by
  refine ⟨Element.sortKey_eq_iff, Path.sortKey_injective,
    strictTotal_of_injective Path.sortKey_injective,
    strictTotal_of_injective Identity.sortKey_injective, ?_, Element.precedes_iff⟩
  intro left right
  rw [Identity.Before, Element.sortKey_place, Element.sortKey_place]

end ApiSurface
