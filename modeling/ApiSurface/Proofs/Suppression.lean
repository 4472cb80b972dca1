import ApiSurface.Proofs.Breakage
import ApiSurface.Proofs.Reported

/-! Leaving out additions that are deprecated already. They are gone before moved members are looked
for, before enclosed elements are dropped and before lost annotations are traced, so that more than
the added entries may depend on them. -/

namespace ApiSurface

/-- The removed and the changed entries of a report. -/
def Report.withoutAdded (report : Report) : List Entry :=
  report.entries.filter (·.status != .added)

/-- The additions that are left out as deprecated take part in nothing else that is reported. -/
structure Uninvolved (old new : Snapshot) (hierarchy : Hierarchy) : Prop where
  /-- A member that moved to nothing but them stands in something removed, and holds nothing that is
  removed. -/
  heirs : ∀ member, Moved old new hierarchy false member → ¬ Moved old new hierarchy true member →
    ¬ Outermost (Removed old new hierarchy true) member ∧
      ∀ inner, Removed old new hierarchy false inner → inner.container ≠ member.identity
  /-- Nothing altered stands directly in one of them. -/
  containers : ∀ outer, LeftOut old new true outer → ∀ before after, Altered old new before after →
    after.container ≠ outer.identity
  /-- A lost annotation has the same successor without them. -/
  successors : ∀ before after, Altered old new before after → Outermost (Added old new false) after →
    ∀ sibling, Successor old new true before after sibling ↔
      Successor old new false before after sibling

section Flag

variable {old new : Snapshot} {hierarchy : Hierarchy} {suppress : Bool}

theorem Added.unsuppressed {element : Element} (added : Added old new suppress element) :
    Added old new false element :=
  ⟨added.member, added.absent, fun unwanted => Bool.noConfusion unwanted.1⟩

theorem LeftOut.added {element : Element} (leftOut : LeftOut old new suppress element) :
    Added old new false element :=
  ⟨leftOut.missing.member, leftOut.missing.absent, fun unwanted => Bool.noConfusion unwanted.1⟩

theorem Fresh.unsuppressed {element : Element} (fresh : Fresh old new suppress element) :
    Fresh old new false element := by
  rcases fresh with added | altered
  · exact .inl added.unsuppressed
  · exact .inr altered

theorem Carries.unsuppressed {before after sibling : Element}
    (carries : Carries old new suppress before after sibling) :
    Carries old new false before after sibling :=
  ⟨carries.fresh.unsuppressed, carries.isMember, carries.beside, carries.carries⟩

theorem Moved.unsuppressed {member : Element} (moved : Moved old new hierarchy suppress member) :
    Moved old new hierarchy false member := by
  obtain ⟨heir, fresh, rest⟩ := moved.livesOn
  exact ⟨moved.missing, moved.isMember, heir, fresh.unsuppressed, rest⟩

/-- Leaving out additions only ever adds removals. -/
theorem Removed.suppressed {element : Element} (removed : Removed old new hierarchy false element) :
    Removed old new hierarchy suppress element :=
  ⟨removed.missing, fun moved => removed.stays moved.unsuppressed⟩

theorem outermost_added_false_iff (element : Element) :
    Outermost (Added old new false) element ↔ Outermost (Added old new true) element ∧
      ∀ outer, LeftOut old new true outer → element.container ≠ outer.identity := by
  constructor
  · intro outermost
    exact ⟨outermost.mono fun outer added => added.unsuppressed,
      outermost.mono fun outer leftOut => leftOut.added⟩
  · rintro ⟨outermost, outside⟩ outer added
    have missing : Missing new old outer := ⟨added.member, added.absent⟩
    rcases missing.added_or_leftOut true with stillAdded | leftOut
    · exact outermost outer stillAdded
    · exact outside outer leftOut

theorem same_removals_iff (old new : Snapshot) (hierarchy : Hierarchy) :
    (∀ element, Removed old new hierarchy true element ∧
        Outermost (Removed old new hierarchy true) element ↔
      Removed old new hierarchy false element ∧
        Outermost (Removed old new hierarchy false) element) ↔
    ∀ member, Moved old new hierarchy false member → ¬ Moved old new hierarchy true member →
      ¬ Outermost (Removed old new hierarchy true) member ∧
        ∀ inner, Removed old new hierarchy false inner → inner.container ≠ member.identity := by
  constructor
  · intro same member moved stays
    have removed : Removed old new hierarchy true member := ⟨moved.missing, stays⟩
    refine ⟨fun outermost => ?_, fun inner innerRemoved inside => ?_⟩
    · exact ((same member).mp ⟨removed, outermost⟩).1.stays moved
    · -- Nothing else than the member can enclose what stands in it, and with everything reported
      -- the member has moved.
      have outermost : Outermost (Removed old new hierarchy false) inner := by
        intro outer outerRemoved within
        have equal : outer = member := Element.eq_of_identity_eq old.distinct
          outerRemoved.missing.member moved.missing.member (within.symm.trans inside)
        exact outerRemoved.stays (equal ▸ moved)
      exact ((same inner).mpr ⟨innerRemoved, outermost⟩).2 member removed inside
  · intro heirs element
    constructor
    · rintro ⟨removed, outermost⟩
      have stays : ¬ Moved old new hierarchy false element :=
        fun moved => (heirs element moved removed.stays).1 outermost
      exact ⟨⟨removed.missing, stays⟩,
        outermost.mono fun outer outerRemoved => outerRemoved.suppressed⟩
    · rintro ⟨removed, outermost⟩
      refine ⟨removed.suppressed, fun outer outerRemoved => ?_⟩
      by_cases moved : Moved old new hierarchy false outer
      · exact (heirs outer moved outerRemoved.stays).2 element removed
      · exact outermost outer ⟨outerRemoved.missing, moved⟩

theorem same_successors_of_attributed {before after : Element} {change : Change}
    (quiet : Attributed old new true before after change)
    (full : Attributed old new false before after change) (sibling : Element) :
    Successor old new true before after sibling ↔ Successor old new false before after sibling := by
  -- Both sides name the same sibling. The names of siblings may coincide, so that the candidate
  -- itself is found through what is a candidate under both flags.
  constructor
  · intro successor
    have named := (quiet.movedTo sibling.name).mpr ⟨sibling, successor, rfl⟩
    obtain ⟨other, otherSuccessor, _⟩ := (full.movedTo sibling.name).mp named
    exact otherSuccessor.only sibling successor.carries.unsuppressed ▸ otherSuccessor
  · intro successor
    have named := (full.movedTo sibling.name).mpr ⟨sibling, successor, rfl⟩
    obtain ⟨other, otherSuccessor, _⟩ := (quiet.movedTo sibling.name).mp named
    exact successor.only other otherSuccessor.carries.unsuppressed ▸ otherSuccessor

theorem same_changes_iff (old new : Snapshot) :
    (∀ before after change, Altered old new before after →
      (Outermost (Added old new true) after ∧ Attributed old new true before after change ↔
        Outermost (Added old new false) after ∧ Attributed old new false before after change)) ↔
    (∀ outer, LeftOut old new true outer → ∀ before after, Altered old new before after →
      after.container ≠ outer.identity) ∧
    ∀ before after, Altered old new before after → Outermost (Added old new false) after →
      ∀ sibling, Successor old new true before after sibling ↔
        Successor old new false before after sibling := by
  constructor
  · intro same
    refine ⟨fun outer leftOut before after altered inside => ?_,
      fun before after altered outermost => ?_⟩
    · obtain ⟨change, attributed, _⟩ := exists_attributed before (leftOut.outermost inside)
      have full := (same before after change altered).mp ⟨leftOut.outermost inside, attributed⟩
      exact full.1 outer leftOut.added inside
    · obtain ⟨change, attributed, _⟩ := exists_attributed before outermost
      have quiet := (same before after change altered).mpr ⟨outermost, attributed⟩
      exact same_successors_of_attributed quiet.2 attributed
  · rintro ⟨containers, successors⟩ before after change altered
    have outside : Outermost (Added old new true) after ↔ Outermost (Added old new false) after := by
      rw [outermost_added_false_iff]
      exact (and_iff_left fun outer leftOut => containers outer leftOut before after altered).symm
    rw [outside]
    exact and_congr_right fun outermost =>
      Attributed.congr (successors before after altered outermost) change

end Flag

theorem mem_withoutAdded_iff (old new : Snapshot) (hierarchy : Hierarchy) (suppress : Bool)
    (entry : Entry) :
    entry ∈ (reportOf old new hierarchy suppress).withoutAdded ↔
      entry.status ≠ .added ∧ Reported old new hierarchy suppress entry := by
  rw [Report.withoutAdded, List.mem_filter, mem_entries_iff_reported, and_comm, bne_iff_ne]

theorem withoutAdded_ordered (old new : Snapshot) (hierarchy : Hierarchy) (suppress : Bool) :
    (reportOf old new hierarchy suppress).withoutAdded.Pairwise Entry.Before :=
  (entries_ordered old new hierarchy suppress).filter _

theorem same_withoutAdded_iff (old new : Snapshot) (hierarchy : Hierarchy) :
    (reportOf old new hierarchy true).withoutAdded =
        (reportOf old new hierarchy false).withoutAdded ↔
      ∀ entry : Entry, entry.status ≠ .added →
        (Reported old new hierarchy true entry ↔ Reported old new hierarchy false entry) := by
  constructor
  · intro same entry status
    have member := mem_withoutAdded_iff old new hierarchy true entry
    rw [same, mem_withoutAdded_iff] at member
    exact ⟨fun reported => (member.mpr ⟨status, reported⟩).2,
      fun reported => (member.mp ⟨status, reported⟩).2⟩
  · intro same
    apply (withoutAdded_ordered old new hierarchy true).eq_of_mem_iff
      (withoutAdded_ordered old new hierarchy false)
    intro entry
    rw [mem_withoutAdded_iff, mem_withoutAdded_iff]
    exact and_congr_right (same entry)

theorem Reported.transfer {left right : Bool} {old new : Snapshot} {hierarchy : Hierarchy}
    (removals : ∀ element, Removed old new hierarchy left element ∧
        Outermost (Removed old new hierarchy left) element →
      Removed old new hierarchy right element ∧
        Outermost (Removed old new hierarchy right) element)
    (changes : ∀ before after change, Altered old new before after →
      Outermost (Added old new left) after ∧ Attributed old new left before after change →
        Outermost (Added old new right) after ∧ Attributed old new right before after change)
    {entry : Entry} (kept : entry.status ≠ .added)
    (reported : Reported old new hierarchy left entry) :
    Reported old new hierarchy right entry := by
  cases reported with
  | added _ _ => contradiction
  | changed altered outermost attributed =>
      rw [altered.reported_iff]
      exact changes _ _ _ altered ⟨outermost, attributed⟩
  | removed removed outermost =>
      rw [reported_removed_iff]
      exact removals _ ⟨removed, outermost⟩

theorem same_reported_iff (old new : Snapshot) (hierarchy : Hierarchy) :
    (∀ entry : Entry, entry.status ≠ .added →
        (Reported old new hierarchy true entry ↔ Reported old new hierarchy false entry)) ↔
      Uninvolved old new hierarchy := by
  constructor
  · intro same
    have removals := (same_removals_iff old new hierarchy).mp fun element => by
      rw [← reported_removed_iff, ← reported_removed_iff]
      exact same _ (by simp [Entry.status, Change.removed])
    have changes := (same_changes_iff old new).mp fun before after change altered => by
      rw [← altered.reported_iff hierarchy, ← altered.reported_iff hierarchy]
      exact same _ (by simp only [Entry.status]; split <;> simp)
    exact ⟨removals, changes.1, changes.2⟩
  · rintro ⟨heirs, containers, successors⟩ entry kept
    have removals := (same_removals_iff old new hierarchy).mpr heirs
    have changes := (same_changes_iff old new).mpr ⟨containers, successors⟩
    constructor
    · exact Reported.transfer (fun element => (removals element).mp)
        (fun before after change altered => (changes before after change altered).mp) kept
    · exact Reported.transfer (fun element => (removals element).mpr)
        (fun before after change altered => (changes before after change altered).mpr) kept

/-- Leaving out deprecated additions changes nothing about removed and changed entries exactly when
these additions take no part in them. -/
theorem same_without_left_out_iff (old new : Snapshot) (hierarchy : Hierarchy) :
    ∃ quiet full, reconcile old new hierarchy true = .ok quiet ∧
      reconcile old new hierarchy false = .ok full ∧
      (quiet.withoutAdded = full.withoutAdded ↔ Uninvolved old new hierarchy) := by
  refine ⟨_, _, reconcile_eq_ok old new hierarchy true, reconcile_eq_ok old new hierarchy false, ?_⟩
  rw [same_withoutAdded_iff, same_reported_iff]

def deprecatedRunMethod : Value := .map [("name", "run"), ("deprecated", .bool true)]

/-- A method that is deprecated as it is pulled up counts as removed if the new one is left out. -/
theorem pulled_up_deprecated_method_removed :
    ∃ quiet full,
      reconcile (family [] [runMethod]) (family [deprecatedRunMethod] [])
        (Hierarchy.ofPairs [("p.Child", "p.Parent")]) true = .ok quiet ∧
      reconcile (family [] [runMethod]) (family [deprecatedRunMethod] [])
        (Hierarchy.ofPairs [("p.Child", "p.Parent")]) false = .ok full ∧
      quiet.withoutAdded ≠ full.withoutAdded := by
  let old := family [] [runMethod]
  let new := family [deprecatedRunMethod] []
  let hierarchy := Hierarchy.ofPairs [("p.Child", "p.Parent")]
  let run : Element := ⟨{
    kind := .method
    name := "run"
    container := [⟨.interfaceType, "p.Child"⟩, ⟨.package, "p"⟩] }, by decide, by decide⟩
  have missing : Missing old new run := ⟨by decide, by decide⟩
  have moved : Moved old new hierarchy false run :=
    (isReparented_iff_moved missing hierarchy).mp (by decide)
  have stays : ¬ Moved old new hierarchy true run := by
    rw [← isReparented_iff_moved missing]
    decide
  have outermost : Outermost (Removed old new hierarchy true) run := by
    intro outer removed inside
    apply removed.missing.absent
    rw [← inside]
    decide
  refine ⟨_, _, reconcile_eq_ok old new hierarchy true, reconcile_eq_ok old new hierarchy false, ?_⟩
  rw [ne_eq, same_withoutAdded_iff]
  intro same
  have reported := (reported_removed_iff old new hierarchy true run).mpr
    ⟨⟨missing, stays⟩, outermost⟩
  have alike := (same _ (by decide)).mp reported
  exact ((reported_removed_iff old new hierarchy false run).mp alike).1.stays moved

end ApiSurface
