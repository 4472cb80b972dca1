import ApiSurface.Proofs.Breakage
import ApiSurface.Proofs.Enclosure

/-! Comparing two versions the other way round. What changed is the same with its values swapped, and
what is removed one way is added the other way, apart from members that moved up. -/

namespace ApiSurface

namespace Change

/-- The change back: old and new values trade places, and a flag that flipped is flipped again. -/
def reversed (change : Change) : Change :=
  { change with
    oldIdentifier := change.newIdentifier
    newIdentifier := change.oldIdentifier
    oldType := change.newType
    newType := change.oldType
    oldObligation := change.newObligation
    newObligation := change.oldObligation
    isPublic := change.isPublic.map not
    isDeprecated := change.isDeprecated.map not }

@[simp] theorem reversed_reversed (change : Change) : change.reversed.reversed = change := by
  simp [reversed, Function.comp_def]

theorem differing_swap {α : Type} [DecidableEq α] (old new : Option α) :
    differing new old = (differing old new).swap := by
  by_cases same : old = new
  · simp [differing, same]
  · have different : new ≠ old := fun equal => same equal.symm
    simp [differing, same, different]

theorem flipped_swap (old new : Bool) : flipped new old = (flipped old new).map not := by
  cases old <;> cases new <;> rfl

theorem compared_reversed {before after : Element} (same : before.identity = after.identity) :
    compared after before = (compared before after).reversed := by
  have kinds := ((Element.identity_eq_iff before after).mp same).1
  simp only [compared, reversed, differing_swap before.identifier, differing_swap before.obligation,
    differing_swap before.declaredType, flipped_swap before.isPublic,
    flipped_swap before.isDeprecated, kinds, Prod.fst_swap, Prod.snd_swap]

end Change

/-- The report says how the element of an identity changed, apart from where a lost annotation
went. -/
def Report.ListsChange (report : Report) (path : Path) (change : Change) : Prop :=
  ∃ entry ∈ report.entries, entry.status = .changed ∧ entry.element.identity = path ∧
    entry.unattributed.change = some change

theorem Altered.symm {old new : Snapshot} {before after : Element}
    (altered : Altered old new before after) : Altered new old after before :=
  ⟨altered.afterMember, altered.beforeMember, altered.same.symm, altered.different.symm⟩

theorem lists_change_iff {old new : Snapshot} (nested : old.Nested) (hierarchy : Hierarchy)
    (suppress : Bool) (path : Path) (change : Change) :
    (reportOf old new hierarchy suppress).ListsChange path change ↔
      ∃ before after, Altered old new before after ∧ after.identity = path ∧
        Change.compared before after = change := by
  constructor
  · rintro ⟨entry, member, changed, same, told⟩
    rcases (mem_entries_iff old new hierarchy suppress entry).mp member with
      ⟨_, _, _, rfl⟩ | ⟨before, after, altered, _, rfl⟩ | ⟨_, _, _, rfl⟩
    · contradiction
    · rw [settle_element] at same
      rw [settle_unattributed] at told
      exact ⟨before, after, altered, same, Option.some.inj told⟩
    · contradiction
  · rintro ⟨before, after, altered, rfl, rfl⟩
    have due : Due old new hierarchy suppress ⟨after, some (.compared before after)⟩ :=
      Due.changed altered (altered.outermost nested) altered.between?_eq
    obtain ⟨entry, member, told⟩ := exists_mem_of_due due
    have element : entry.element = after := congrArg Entry.element told
    have status := entry.unattributed_status
    rw [told, status_of_compared] at status
    exact ⟨entry, member, status.symm, by rw [element], by rw [told]⟩

section BackAndForth

variable {old new : Snapshot}

theorem lists_change_reversed_iff (oldNested : old.Nested) (newNested : new.Nested)
    (there back : Hierarchy) (path : Path) (change : Change) :
    (reportOf old new there false).ListsChange path change ↔
      (reportOf new old back false).ListsChange path change.reversed := by
  rw [lists_change_iff oldNested, lists_change_iff newNested]
  constructor
  · rintro ⟨before, after, altered, rfl, rfl⟩
    exact ⟨after, before, altered.symm, altered.same, Change.compared_reversed altered.same⟩
  · rintro ⟨after, before, altered, rfl, turned⟩
    refine ⟨before, after, altered.symm, altered.same, ?_⟩
    rw [Change.compared_reversed altered.same, turned, Change.reversed_reversed]

theorem added_back_iff_missing (element : Element) :
    Added new old false element ↔ Missing old new element := by
  simp [added_iff_missing]

/-- Going back, an element is added exactly if nothing that has gone stands around it. -/
theorem lists_added_back_iff (back : Hierarchy) (element : Element) :
    (reportOf new old back false).Lists .added element ↔
      Missing old new element ∧ Outermost (Missing old new) element := by
  simp only [lists_added_iff, Outermost, added_back_iff_missing]

/-- Missing containers never moved where nothing stands in members. -/
theorem outermost_missing_iff {element : Element}
    (typesOutside : ∀ step ∈ element.container, step.kind.isMember = false)
    (hierarchy : Hierarchy) :
    Outermost (Missing old new) element ↔ Outermost (Removed old new hierarchy false) element := by
  constructor
  · intro outermost
    exact outermost.mono fun outer removed => removed.missing
  · intro outermost outer missing inside
    exact outermost outer (missing.removed_of_contains typesOutside inside hierarchy false) inside

end BackAndForth

/-- Two versions that were read, compared there and back with everything reported: both reports tell
the same changes, one with old and new values swapped. What is removed there is added on the way back,
and what is added back without being removed there is a member that moved. -/
theorem report_reversed {oldSource newSource : Text} {oldValue newValue : Value}
    {old new : Snapshot} (oldRead : Snapshot.ofValue oldSource oldValue = .ok old)
    (newRead : Snapshot.ofValue newSource newValue = .ok new) (there back : Hierarchy) :
    ∃ report reverse, reconcile old new there false = .ok report ∧
      reconcile new old back false = .ok reverse ∧
      (∀ path, (∃ change, report.ListsChange path change) ↔
        ∃ change, reverse.ListsChange path change) ∧
      (∀ path change, report.ListsChange path change ↔
        reverse.ListsChange path change.reversed) ∧
      (∀ element, report.Lists .removed element → reverse.Lists .added element) ∧
      ∀ element, reverse.Lists .added element → ¬ report.Lists .removed element →
        Moved old new there false element := by
  have changes := lists_change_reversed_iff (Snapshot.nested_of_ofValue oldRead)
    (Snapshot.nested_of_ofValue newRead) there back
  have outermost_iff {element : Element} (member : element ∈ old.elements) :
      Outermost (Missing old new) element ↔ Outermost (Removed old new there false) element :=
    outermost_missing_iff (Snapshot.not_member_of_container oldRead member) there
  refine ⟨_, _, reconcile_eq_ok old new there false, reconcile_eq_ok new old back false,
    fun path => ⟨?_, ?_⟩, changes, ?_, ?_⟩
  · rintro ⟨change, told⟩
    exact ⟨change.reversed, (changes path change).mp told⟩
  · rintro ⟨change, told⟩
    refine ⟨change.reversed, (changes path change.reversed).mpr ?_⟩
    rwa [Change.reversed_reversed]
  · intro element listed
    obtain ⟨removed, outermost⟩ := (lists_removed_iff old new there false element).mp listed
    exact (lists_added_back_iff back element).mpr ⟨removed.missing,
      (outermost_iff removed.missing.member).mpr outermost⟩
  · intro element added unlisted
    obtain ⟨missing, outermost⟩ := (lists_added_back_iff back element).mp added
    by_contra stays
    exact unlisted ((lists_removed_iff old new there false element).mpr ⟨⟨missing, stays⟩,
      (outermost_iff missing.member).mp outermost⟩)

def stopMethod : Value := .map [("name", "stop")]

def sizeMethod (type : Text) : Value := .map [("name", "size"), ("type", type)]

/-- One method is pulled up, one is removed, and one returns something else. -/
theorem report_reversed_of_reworked_family :
    Snapshot.ofValue "family" (familyData [] [runMethod, stopMethod, sizeMethod "int"]) =
        .ok (family [] [runMethod, stopMethod, sizeMethod "int"]) ∧
      Snapshot.ofValue "family" (familyData [runMethod] [sizeMethod "long"]) =
        .ok (family [runMethod] [sizeMethod "long"]) ∧
      ∃ report reverse,
        reconcile (family [] [runMethod, stopMethod, sizeMethod "int"])
          (family [runMethod] [sizeMethod "long"])
          (Hierarchy.ofPairs [("p.Child", "p.Parent")]) false = .ok report ∧
        reconcile (family [runMethod] [sizeMethod "long"])
          (family [] [runMethod, stopMethod, sizeMethod "int"]) .empty false = .ok reverse ∧
        (∀ path, (∃ change, report.ListsChange path change) ↔
          ∃ change, reverse.ListsChange path change) ∧
        (∀ path change, report.ListsChange path change ↔
          reverse.ListsChange path change.reversed) ∧
        (∀ element, report.Lists .removed element → reverse.Lists .added element) ∧
        ∀ element, reverse.Lists .added element → ¬ report.Lists .removed element →
          Moved (family [] [runMethod, stopMethod, sizeMethod "int"])
            (family [runMethod] [sizeMethod "long"])
            (Hierarchy.ofPairs [("p.Child", "p.Parent")]) false element := by
  have oldRead : Snapshot.ofValue "family" (familyData [] [runMethod, stopMethod, sizeMethod "int"]) =
      .ok (family [] [runMethod, stopMethod, sizeMethod "int"]) := rfl
  have newRead : Snapshot.ofValue "family" (familyData [runMethod] [sizeMethod "long"]) =
      .ok (family [runMethod] [sizeMethod "long"]) := rfl
  exact ⟨oldRead, newRead,
    report_reversed oldRead newRead (Hierarchy.ofPairs [("p.Child", "p.Parent")]) .empty⟩

end ApiSurface
