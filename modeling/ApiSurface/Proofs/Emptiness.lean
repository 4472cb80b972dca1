import ApiSurface.Proofs.Exactness
import ApiSurface.Proofs.Coverage

/-! An empty report tells that the versions are equal: whatever is added or removed has something
outermost around it that is due, and a member only moves to something that differs itself. -/

namespace ApiSurface

theorem entries_eq_nil_iff (old new : Snapshot) (hierarchy : Hierarchy) (suppress : Bool) :
    (reportOf old new hierarchy suppress).entries = [] ↔
      ∀ entry, ¬ Due old new hierarchy suppress entry := by
  rw [List.eq_nil_iff_forall_not_mem]
  constructor
  · intro nothing entry due
    obtain ⟨reported, member, _⟩ := exists_mem_of_due due
    exact nothing reported member
  · intro nothing entry member
    exact nothing entry.unattributed (due_of_mem member)

theorem exists_outermost {among : Element → Prop} {element : Element} (isAmong : among element) :
    ∃ outer, among outer ∧ Outermost among outer := by
  rcases outermost_or_enclosed among element with outermost | ⟨outer, outerAmong, outermost, _⟩
  · exact ⟨element, isAmong, outermost⟩
  · exact ⟨outer, outerAmong, outermost⟩

theorem nothing_due_iff (old new : Snapshot) (hierarchy : Hierarchy) (suppress : Bool) :
    (∀ entry, ¬ Due old new hierarchy suppress entry) ↔
      (∀ element, ¬ Added old new suppress element) ∧
        (∀ before after, ¬ Altered old new before after) ∧ ∀ element, ¬ Missing old new element := by
  constructor
  · intro nothing
    have noneAdded (element : Element) : ¬ Added old new suppress element := by
      intro added
      obtain ⟨outer, outerAdded, outermost⟩ := exists_outermost added
      exact nothing _ (Due.added outerAdded outermost)
    have noneAltered (before after : Element) : ¬ Altered old new before after := by
      intro altered
      have outermost : Outermost (Added old new suppress) after :=
        fun outer added => absurd added (noneAdded outer)
      exact nothing _ (Due.changed altered outermost altered.between?_eq)
    refine ⟨noneAdded, noneAltered, ?_⟩
    intro element missing
    -- A member that moved has an heir that is added or altered itself.
    by_cases moved : Moved old new hierarchy suppress element
    · obtain ⟨heir, added | ⟨before, altered⟩, _⟩ := moved.livesOn
      · exact noneAdded heir added
      · exact noneAltered before heir altered
    · have removed : Removed old new hierarchy suppress element := ⟨missing, moved⟩
      obtain ⟨outer, outerRemoved, outermost⟩ := exists_outermost removed
      exact nothing _ (Due.removed outerRemoved outermost)
  · rintro ⟨noneAdded, noneAltered, noneMissing⟩ entry due
    cases due with
    | added added _ => exact noneAdded _ added
    | changed altered _ _ => exact noneAltered _ _ altered
    | removed removed _ => exact noneMissing _ removed.missing

/-- Every old element is kept as it is exactly when none is missing or altered. -/
theorem kept_iff (old new : Snapshot) :
    (∀ element ∈ old.elements, element ∈ new.elements) ↔
      (∀ before after, ¬ Altered old new before after) ∧ ∀ element, ¬ Missing old new element := by
  constructor
  · intro kept
    refine ⟨fun before after altered => ?_, fun element missing => ?_⟩
    · exact altered.different (Element.eq_of_identity_eq new.distinct
        (kept before altered.beforeMember) altered.afterMember altered.same)
    · exact missing.absent (List.mem_map_of_mem (kept element missing.member))
  · rintro ⟨noneAltered, noneMissing⟩ element member
    have present : element.identity ∈ new.identities := by
      by_contra absent
      exact noneMissing element ⟨member, absent⟩
    obtain ⟨after, afterMember, same⟩ := List.mem_map.mp present
    have equal : element = after := by
      by_contra different
      exact noneAltered element after ⟨member, afterMember, same.symm, different⟩
    exact equal ▸ afterMember

/-- Where nothing is altered, nothing is added exactly when all that is new is left out. -/
theorem none_added_iff {old new : Snapshot}
    (noneAltered : ∀ before after, ¬ Altered old new before after) (suppress : Bool) :
    (∀ element, ¬ Added old new suppress element) ↔
      ∀ element ∈ new.elements, element ∉ old.elements →
        suppress = true ∧ element.isDeprecated = true := by
  constructor
  · intro noneAdded element member notOld
    have absent : element.identity ∉ old.identities := by
      intro present
      obtain ⟨before, beforeMember, same⟩ := List.mem_map.mp present
      have different : before ≠ element := fun equal => notOld (equal ▸ beforeMember)
      exact noneAltered before element ⟨beforeMember, member, same, different⟩
    by_contra wanted
    exact noneAdded element ⟨member, absent, wanted⟩
  · intro leftOut element added
    have notOld : element ∉ old.elements := fun inOld => added.absent (List.mem_map_of_mem inOld)
    exact added.wanted (leftOut element added.member notOld)

theorem entries_eq_nil_iff_kept (old new : Snapshot) (hierarchy : Hierarchy) (suppress : Bool) :
    (reportOf old new hierarchy suppress).entries = [] ↔
      (∀ element ∈ old.elements, element ∈ new.elements) ∧
        ∀ element ∈ new.elements, element ∉ old.elements →
          suppress = true ∧ element.isDeprecated = true := by
  rw [entries_eq_nil_iff, nothing_due_iff, kept_iff, and_comm]
  exact and_congr_right fun ⟨noneAltered, _⟩ => none_added_iff noneAltered suppress

/-- With everything reported, a report is empty exactly when both versions have the same elements.
Without deprecated additions it is also empty when these are the only difference. -/
theorem report_empty_iff (old new : Snapshot) (hierarchy : Hierarchy) :
    (∃ report, reconcile old new hierarchy false = .ok report ∧
      (report.entries = [] ↔ ∀ element, element ∈ old.elements ↔ element ∈ new.elements)) ∧
    ∃ report, reconcile old new hierarchy true = .ok report ∧
      (report.entries = [] ↔ (∀ element ∈ old.elements, element ∈ new.elements) ∧
        ∀ element ∈ new.elements, element ∉ old.elements → element.isDeprecated = true) := by
  refine ⟨⟨_, reconcile_eq_ok old new hierarchy false, ?_⟩,
    ⟨_, reconcile_eq_ok old new hierarchy true, ?_⟩⟩
  · rw [entries_eq_nil_iff_kept]
    constructor
    · rintro ⟨kept, nothingElse⟩ element
      refine ⟨kept element, fun member => ?_⟩
      by_contra notOld
      exact absurd (nothingElse element member notOld).1 Bool.false_ne_true
    · intro same
      exact ⟨fun element => (same element).mp,
        fun element member notOld => absurd ((same element).mpr member) notOld⟩
  · rw [entries_eq_nil_iff_kept]
    simp only [true_and]

end ApiSurface
