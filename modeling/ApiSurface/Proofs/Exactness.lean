import ApiSurface.Proofs.Reconciliation

/-! A report holds every due entry once and nothing else. -/

namespace ApiSurface

theorem due_of_mem {old new : Snapshot} {hierarchy : Hierarchy} {suppress : Bool} {entry : Entry}
    (member : entry ∈ (reportOf old new hierarchy suppress).entries) :
    Due old new hierarchy suppress entry.unattributed := by
  rcases (mem_entries_iff old new hierarchy suppress entry).mp member with
    ⟨element, added, outermost, rfl⟩ | ⟨before, after, altered, outermost, rfl⟩ |
      ⟨element, removed, outermost, rfl⟩
  · exact Due.added added outermost
  · rw [settle_unattributed]
    exact Due.changed altered outermost altered.between?_eq
  · exact Due.removed removed outermost

theorem exists_mem_of_due {old new : Snapshot} {hierarchy : Hierarchy} {suppress : Bool}
    {entry : Entry} (due : Due old new hierarchy suppress entry) :
    ∃ reported ∈ (reportOf old new hierarchy suppress).entries, reported.unattributed = entry := by
  cases due with
  | @added element added outermost =>
      exact ⟨_, (mem_entries_iff old new hierarchy suppress _).mpr
        (.inl ⟨element, added, outermost, rfl⟩), rfl⟩
  | @changed before after change altered outermost compared =>
      rw [altered.between?_eq, Option.some.injEq] at compared
      subst compared
      refine ⟨_, (mem_entries_iff old new hierarchy suppress _).mpr
        (.inr (.inl ⟨before, after, altered, outermost, rfl⟩)), ?_⟩
      rw [settle_unattributed]
      rfl
  | @removed element removed outermost =>
      exact ⟨_, (mem_entries_iff old new hierarchy suppress _).mpr
        (.inr (.inr ⟨element, removed, outermost, rfl⟩)), rfl⟩

theorem unattributed_of_mem {old new : Snapshot} {hierarchy : Hierarchy} {suppress : Bool}
    {entry : Entry} (member : entry ∈ (reportOf old new hierarchy suppress).entries)
    (unchanged : entry.status ≠ .changed) : entry.unattributed = entry := by
  rcases (mem_entries_iff old new hierarchy suppress entry).mp member with
    ⟨element, _, _, rfl⟩ | ⟨before, after, _, _, rfl⟩ | ⟨element, _, _, rfl⟩
  · rfl
  · rw [settle_status] at unchanged
    exact absurd (status_of_compared before after) unchanged
  · rfl

/-- Reconciling reports each due entry exactly once and nothing else. Where a lost annotation went
is left open here, and only changed entries tell it. -/
theorem reconcile_exact (old new : Snapshot) (hierarchy : Hierarchy) (suppress : Bool) :
    ∃ report, reconcile old new hierarchy suppress = .ok report ∧
      (report.entries.map Entry.unattributed).Nodup ∧
      (∀ entry, entry ∈ report.entries.map Entry.unattributed ↔
        Due old new hierarchy suppress entry) ∧
      ∀ entry ∈ report.entries, entry.status ≠ .changed → entry.unattributed = entry := by
  refine ⟨_, reconcile_eq_ok old new hierarchy suppress, ?_, ?_, ?_⟩
  · apply List.Nodup.of_map (·.element.identity)
    rw [List.map_map]
    exact entries_distinct old new hierarchy suppress
  · intro entry
    rw [List.mem_map]
    constructor
    · rintro ⟨reported, member, rfl⟩
      exact due_of_mem member
    · exact exists_mem_of_due
  · intro entry member unchanged
    exact unattributed_of_mem member unchanged

end ApiSurface
