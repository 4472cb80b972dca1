import ApiSurface.Proofs.Reconciliation
import ApiSurface.Proofs.ReportOrder

/-! Reports are canonical: strictly in report order, and the same for every order of the elements and
of the parents they are made from. -/

namespace ApiSurface

theorem sortEntries_ordered (entries : List Entry) :
    (sortEntries entries).Pairwise fun left right =>
      left.element.precedes right.element = true :=
  List.pairwise_mergeSort
    (fun first second third => Element.precedes_trans first.element second.element third.element)
    (fun left right => Element.precedes_total left.element right.element) entries

theorem strictly_ordered_of_distinct {entries : List Entry}
    (ordered : entries.Pairwise fun left right => left.element.precedes right.element = true)
    (distinct : (entries.map (·.element.identity)).Nodup) :
    entries.Pairwise fun left right =>
      compare left.element.sortKey right.element.sortKey = .lt := by
  apply (ordered.and (List.pairwise_map.mp distinct)).imp
  rintro left right ⟨inOrder, different⟩
  exact Element.compare_eq_lt inOrder different

theorem entries_strictly_ordered (old new : Snapshot) (hierarchy : Hierarchy) (suppress : Bool) :
    (reportOf old new hierarchy suppress).entries.Pairwise fun left right =>
      compare left.element.sortKey right.element.sortKey = .lt :=
  strictly_ordered_of_distinct (sortEntries_ordered _) (entries_distinct old new hierarchy suppress)

theorem sortEntries_eq_of_perm {left right : List Entry} (reordered : left.Perm right)
    (distinct : (left.map (·.element.identity)).Nodup) : sortEntries left = sortEntries right := by
  have leftSorted : (sortEntries left).Perm left := List.mergeSort_perm _ _
  have rightSorted : (sortEntries right).Perm right := List.mergeSort_perm _ _
  apply List.Perm.eq_of_pairwise _ (sortEntries_ordered left) (sortEntries_ordered right)
    (leftSorted.trans (reordered.trans rightSorted.symm))
  intro first second firstMember secondMember forward backward
  apply List.inj_on_of_nodup_map distinct (leftSorted.mem_iff.mp firstMember)
    (reordered.mem_iff.mpr (rightSorted.mem_iff.mp secondMember))
  exact Element.identity_eq_of_precedes forward backward

section Reordering

variable {oldLeft oldRight newLeft newRight : Snapshot} {left right : Hierarchy}

theorem dropEnclosed_perm {first second : List Entry} (reordered : first.Perm second) :
    (dropEnclosed first).Perm (dropEnclosed second) := by
  have containers : (wholesale first).Perm (wholesale second) := (reordered.filter _).map _
  have same : dropEnclosed second =
      second.filter (·.element.container ∉ wholesale first) := by
    apply List.filter_congr
    intro entry _
    simp only [containers.mem_iff]
  rw [same]
  exact reordered.filter _

variable (oldReordered : oldLeft.elements.Perm oldRight.elements)
  (newReordered : newLeft.elements.Perm newRight.elements)
  (parentsReordered : left.pairs.Perm right.pairs)

include oldReordered newReordered

theorem newEntries_perm (suppress : Bool) :
    (newEntries oldLeft newLeft suppress).Perm (newEntries oldRight newRight suppress) := by
  have same : verdict oldLeft suppress = verdict oldRight suppress := by
    funext element
    rw [verdict, verdict, Snapshot.get?_eq_of_perm oldReordered]
  rw [newEntries, newEntries, same]
  exact newReordered.filterMap _

theorem leftovers_perm : (leftovers oldLeft newLeft).Perm (leftovers oldRight newRight) := by
  simp only [leftovers, Snapshot.hasIdentity, Snapshot.get?_eq_of_perm newReordered]
  exact oldReordered.filter _

theorem newSide_perm (suppress : Bool) :
    (newSide oldLeft newLeft suppress).Perm (newSide oldRight newRight suppress) := by
  have kept := dropEnclosed_perm (newEntries_perm oldReordered newReordered suppress)
  simp only [newSide, settle_eq_of_perm kept]
  exact kept.map _

include parentsReordered

theorem isReparented_eq_of_perm (suppress : Bool) (element : Element) :
    isReparented left (newEntries oldLeft newLeft suppress) element =
      isReparented right (newEntries oldRight newRight suppress) element := by
  have heirs (heir : Element) : heir ∈ (newEntries oldLeft newLeft suppress).map (·.element) ↔
      heir ∈ (newEntries oldRight newRight suppress).map (·.element) :=
    ((newEntries_perm oldReordered newReordered suppress).map _).mem_iff
  rw [Bool.eq_iff_iff]
  simp only [isReparented_iff_above, Hierarchy.Above, heirs,
    Hierarchy.climbs_iff_of_perm parentsReordered]

theorem oldSide_perm (suppress : Bool) :
    (oldSide oldLeft newLeft left suppress).Perm (oldSide oldRight newRight right suppress) := by
  apply dropEnclosed_perm
  simp only [removals,
    isReparented_eq_of_perm oldReordered newReordered parentsReordered suppress]
  exact ((leftovers_perm oldReordered newReordered).filter _).map _

theorem entries_eq_of_perm (suppress : Bool) :
    (reportOf oldLeft newLeft left suppress).entries =
      (reportOf oldRight newRight right suppress).entries := by
  have sides : (newSide oldLeft newLeft suppress ++ oldSide oldLeft newLeft left suppress).Perm
      (newSide oldRight newRight suppress ++ oldSide oldRight newRight right suppress) :=
    (newSide_perm oldReordered newReordered suppress).append
      (oldSide_perm oldReordered newReordered parentsReordered suppress)
  apply sortEntries_eq_of_perm sides
  have sorted := entries_perm oldLeft newLeft left suppress
  exact (sorted.map _).nodup_iff.mp (entries_distinct oldLeft newLeft left suppress)

end Reordering

/-- The entries of a report have different identities and strictly increasing sort keys, and they
are the same whatever order the elements and the parents were given in. -/
theorem report_canonical (old new : Snapshot) (hierarchy : Hierarchy) (suppress : Bool) :
    ∃ report, reconcile old new hierarchy suppress = .ok report ∧
      (report.entries.map (·.element.identity)).Nodup ∧
      (report.entries.Pairwise fun left right =>
        compare left.element.sortKey right.element.sortKey = .lt) ∧
      ∀ (oldAgain newAgain : Snapshot) (hierarchyAgain : Hierarchy),
        old.elements.Perm oldAgain.elements → new.elements.Perm newAgain.elements →
        hierarchy.pairs.Perm hierarchyAgain.pairs →
        ∃ again, reconcile oldAgain newAgain hierarchyAgain suppress = .ok again ∧
          again.entries = report.entries := by
  refine ⟨_, reconcile_eq_ok old new hierarchy suppress, entries_distinct old new hierarchy suppress,
    entries_strictly_ordered old new hierarchy suppress, ?_⟩
  intro oldAgain newAgain hierarchyAgain oldReordered newReordered parentsReordered
  refine ⟨_, reconcile_eq_ok oldAgain newAgain hierarchyAgain suppress, ?_⟩
  exact (entries_eq_of_perm oldReordered newReordered parentsReordered suppress).symm

end ApiSurface
