import ApiSurface.Proofs.Exactness

/-! No difference is lost: what a report does not list itself stands inside something it lists, or
was left out for a stated reason. -/

namespace ApiSurface

def Report.Lists (report : Report) (status : Status) (element : Element) : Prop :=
  ∃ entry ∈ report.entries, entry.element = element ∧ entry.status = status

/-- Something around the element, at any depth, is listed. -/
def Report.Encloses (report : Report) (status : Status) (element : Element) : Prop :=
  ∃ outer, report.Lists status outer ∧ outer.identity <:+ element.container

@[simp] theorem Entry.unattributed_status (entry : Entry) :
    entry.unattributed.status = entry.status := by
  obtain ⟨element, change⟩ := entry
  cases change <;> rfl

theorem lists_of_due {old new : Snapshot} {hierarchy : Hierarchy} {suppress : Bool} {entry : Entry}
    (due : Due old new hierarchy suppress entry) :
    (reportOf old new hierarchy suppress).Lists entry.status entry.element := by
  obtain ⟨reported, member, rfl⟩ := exists_mem_of_due due
  exact ⟨reported, member, rfl, reported.unattributed_status.symm⟩

/-- Going outwards through elements of a kind ends at one that stands in no other. -/
theorem outermost_or_enclosed (among : Element → Prop) (element : Element) :
    Outermost among element ∨ ∃ outer, among outer ∧ Outermost among outer ∧
      outer.identity <:+ element.container := by
  -- the container of an enclosing element is shorter, also where containers are no elements
  generalize depth : element.container.length = length
  induction length using Nat.strongRecOn generalizing element with
  | ind length ih =>
      by_cases outermost : Outermost among element
      · exact .inl outermost
      · simp only [Outermost, not_forall, not_not] at outermost
        obtain ⟨outer, isAmong, inside⟩ := outermost
        have shorter : outer.container.length < length := by
          rw [← depth, inside]
          simp [Element.identity]
        right
        rw [inside]
        rcases ih outer.container.length shorter outer rfl with
          outerOutermost | ⟨further, furtherAmong, furtherOutermost, place⟩
        · exact ⟨outer, isAmong, outerOutermost, List.suffix_rfl⟩
        · exact ⟨further, furtherAmong, furtherOutermost, place.trans (List.suffix_cons _ _)⟩

theorem outermost_or_enclosed_by_added {old new : Snapshot} (hierarchy : Hierarchy) {suppress : Bool}
    (element : Element) :
    Outermost (Added old new suppress) element ∨
      (reportOf old new hierarchy suppress).Encloses .added element := by
  rcases outermost_or_enclosed (Added old new suppress) element with
    outermost | ⟨outer, added, outermost, place⟩
  · exact .inl outermost
  · exact .inr ⟨outer, lists_of_due (Due.added added outermost), place⟩

theorem removed_covered {old new : Snapshot} {hierarchy : Hierarchy} {suppress : Bool}
    {element : Element} (removed : Removed old new hierarchy suppress element) :
    (reportOf old new hierarchy suppress).Lists .removed element ∨
      (reportOf old new hierarchy suppress).Encloses .removed element := by
  rcases outermost_or_enclosed (Removed old new hierarchy suppress) element with
    outermost | ⟨outer, outerRemoved, outermost, place⟩
  · exact .inl (lists_of_due (Due.removed removed outermost))
  · exact .inr ⟨outer, lists_of_due (Due.removed outerRemoved outermost), place⟩

theorem altered_covered {old new : Snapshot} (hierarchy : Hierarchy) (suppress : Bool)
    {before after : Element} (altered : Altered old new before after) :
    (reportOf old new hierarchy suppress).Lists .changed after ∨
      (reportOf old new hierarchy suppress).Encloses .added after := by
  rcases outermost_or_enclosed_by_added hierarchy after with outermost | enclosed
  · exact .inl (lists_of_due (Due.changed altered outermost altered.between?_eq))
  · exact .inr enclosed

/-- Every difference between two snapshots is listed, or stands inside a listed element, or is a
member that moved or a deprecated addition that was not asked for. -/
theorem no_difference_lost (old new : Snapshot) (hierarchy : Hierarchy) (suppress : Bool) :
    ∃ report, reconcile old new hierarchy suppress = .ok report ∧
      (∀ element ∈ old.elements, element.identity ∉ new.identities →
        report.Lists .removed element ∨ Moved old new hierarchy suppress element ∨
          report.Encloses .removed element) ∧
      (∀ element ∈ new.elements, element.identity ∉ old.identities →
        report.Lists .added element ∨ (suppress = true ∧ element.isDeprecated = true) ∨
          report.Encloses .added element) ∧
      ∀ before ∈ old.elements, ∀ after ∈ new.elements, before.identity = after.identity →
        before ≠ after → report.Lists .changed after ∨ report.Encloses .added after := by
  refine ⟨_, reconcile_eq_ok old new hierarchy suppress, ?_, ?_, ?_⟩
  · intro element member absent
    by_cases moved : Moved old new hierarchy suppress element
    · exact .inr (.inl moved)
    · rcases removed_covered ⟨⟨member, absent⟩, moved⟩ with listed | enclosed
      · exact .inl listed
      · exact .inr (.inr enclosed)
  · intro element member absent
    by_cases unwanted : suppress = true ∧ element.isDeprecated = true
    · exact .inr (.inl unwanted)
    · rcases outermost_or_enclosed_by_added hierarchy element with outermost | enclosed
      · exact .inl (lists_of_due (Due.added ⟨member, absent, unwanted⟩ outermost))
      · exact .inr (.inr enclosed)
  · intro before beforeMember after afterMember same different
    exact altered_covered hierarchy suppress ⟨beforeMember, afterMember, same, different⟩

end ApiSurface
