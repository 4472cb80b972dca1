import ApiSurface.Proofs.Canonical
import Mathlib.Data.List.Sort

/-! What stands in a report, said without the stages that make it: each entry with where a lost
annotation went. Reports are determined by what stands in them. -/

namespace ApiSurface

/-- A sibling that is reported too carries the annotation that was lost between two versions. -/
structure Carries (old new : Snapshot) (suppress : Bool) (before after sibling : Element) :
    Prop where
  fresh : Fresh old new suppress sibling
  isMember : sibling.kind.isMember = true
  beside : sibling.container = after.container
  carries : (Change.compared before after).annotates sibling = true

/-- The only sibling of a member that carries its lost annotation. -/
structure Successor (old new : Snapshot) (suppress : Bool) (before after sibling : Element) :
    Prop where
  isMember : after.kind.isMember = true
  carries : Carries old new suppress before after sibling
  only : ∀ other, Carries old new suppress before after other → other = sibling

/-- The change between two versions of an element, with the name of the successor if there is one. -/
structure Attributed (old new : Snapshot) (suppress : Bool) (before after : Element)
    (change : Change) : Prop where
  aspects : { change with movedTo := none } = Change.compared before after
  movedTo : ∀ name, change.movedTo = some name ↔
    ∃ sibling, Successor old new suppress before after sibling ∧ sibling.name = name

inductive Reported (old new : Snapshot) (hierarchy : Hierarchy) (suppress : Bool) : Entry → Prop
  | added {element} : Added old new suppress element →
      Outermost (Added old new suppress) element → Reported old new hierarchy suppress ⟨element, none⟩
  | changed {before after change} : Altered old new before after →
      Outermost (Added old new suppress) after →
      Attributed old new suppress before after change →
      Reported old new hierarchy suppress ⟨after, some change⟩
  | removed {element} : Removed old new hierarchy suppress element →
      Outermost (Removed old new hierarchy suppress) element →
      Reported old new hierarchy suppress ⟨element, some (.removed element.kind)⟩

section Attribution

variable {old new : Snapshot} {suppress : Bool} {before after : Element}

theorem Successor.unique {left right : Element}
    (first : Successor old new suppress before after left)
    (second : Successor old new suppress before after right) : left = right :=
  second.only left first.carries

theorem Attributed.unique {left right : Change}
    (first : Attributed old new suppress before after left)
    (second : Attributed old new suppress before after right) : left = right := by
  have aspects := first.aspects.trans second.aspects.symm
  have target : left.movedTo = right.movedTo := by
    ext name
    exact (first.movedTo name).trans (second.movedTo name).symm
  cases left
  cases right
  simp_all

theorem Attributed.not_removed {change : Change}
    (attributed : Attributed old new suppress before after change) : change.isRemoved = false :=
  congrArg Change.isRemoved attributed.aspects

theorem Attributed.congr {left right : Snapshot} {flag : Bool}
    (same : ∀ sibling, Successor old new suppress before after sibling ↔
      Successor left right flag before after sibling) (change : Change) :
    Attributed old new suppress before after change ↔
      Attributed left right flag before after change := by
  constructor
  · rintro ⟨aspects, movedTo⟩
    exact ⟨aspects, by simpa only [same] using movedTo⟩
  · rintro ⟨aspects, movedTo⟩
    exact ⟨aspects, by simpa only [same] using movedTo⟩

theorem Outermost.congr {among : Element → Prop} {left right : Element}
    (same : left.container = right.container) : Outermost among left ↔ Outermost among right := by
  simp only [Outermost, same]

theorem mem_moveTargets_iff (outermost : Outermost (Added old new suppress) after)
    (sibling : Element) :
    sibling ∈ moveTargets (dropEnclosed (newEntries old new suppress)) after
        (.compared before after) ↔ Carries old new suppress before after sibling := by
  simp only [moveTargets, List.mem_filter, List.mem_map, mem_kept_new_iff, Bool.and_eq_true,
    beq_iff_eq]
  constructor
  · rintro ⟨⟨entry, ⟨member, _⟩, rfl⟩, ⟨isMember, beside⟩, carries⟩
    have fresh : Fresh old new suppress entry.element :=
      (mem_map_newEntries_iff old new suppress _).mp (List.mem_map_of_mem member)
    exact ⟨fresh, isMember, beside, carries⟩
  · rintro ⟨fresh, isMember, beside, carries⟩
    obtain ⟨entry, member, rfl⟩ :=
      List.mem_map.mp ((mem_map_newEntries_iff old new suppress _).mpr fresh)
    -- Siblings share their container, so that a sibling of a kept element is kept as well.
    have alike : Outermost (Added old new suppress) entry.element :=
      (Outermost.congr beside).mpr outermost
    exact ⟨⟨entry, ⟨member, alike⟩, rfl⟩, ⟨isMember, beside⟩, carries⟩

theorem moveTargets_nodup (old new : Snapshot) (suppress : Bool) (element : Element)
    (change : Change) :
    (moveTargets (dropEnclosed (newEntries old new suppress)) element change).Nodup := by
  have kept : ((dropEnclosed (newEntries old new suppress)).map (·.element.identity)).Nodup :=
    (newEntries_distinct old new suppress).sublist (List.filter_sublist.map _)
  have distinct : ((dropEnclosed (newEntries old new suppress)).map (·.element)).Nodup := by
    apply List.Nodup.of_map Element.identity
    rw [List.map_map]
    exact kept
  exact distinct.filter _

theorem carrier?_eq_some_iff_successor (before : Element)
    (outermost : Outermost (Added old new suppress) after) (sibling : Element) :
    carrier? (dropEnclosed (newEntries old new suppress)) ⟨after, some (.compared before after)⟩ =
        some sibling ↔ Successor old new suppress before after sibling := by
  -- The candidates are distinct, hence this one alone exactly if nothing else is a candidate.
  have only : moveTargets (dropEnclosed (newEntries old new suppress)) after
      (.compared before after) = [sibling] ↔
        ∀ other, Carries old new suppress before after other ↔ other = sibling := by
    rw [← List.perm_singleton,
      List.perm_ext_iff_of_nodup (moveTargets_nodup old new suppress _ _) (List.nodup_singleton _)]
    simp only [mem_moveTargets_iff outermost, List.mem_singleton]
  rw [carrier?_eq_some_iff]
  simp only [Option.some.injEq, exists_eq_left', only]
  constructor
  · rintro ⟨isMember, _, exactly⟩
    exact ⟨isMember, (exactly sibling).mpr rfl, fun other => (exactly other).mp⟩
  · rintro ⟨isMember, carries, unique⟩
    have loses : Change.losesAnnotation (.compared before after) = true := by
      have annotates := carries.carries
      simp only [Change.annotates, Bool.and_eq_true] at annotates
      exact annotates.1.1
    refine ⟨isMember, loses, fun other => ⟨unique other, ?_⟩⟩
    rintro rfl
    exact carries

/-- Settling an entry names the successor in its change. -/
theorem exists_attributed (before : Element)
    (outermost : Outermost (Added old new suppress) after) :
    ∃ change, Attributed old new suppress before after change ∧
      settle (dropEnclosed (newEntries old new suppress)) ⟨after, some (.compared before after)⟩ =
        ⟨after, some change⟩ := by
  have successor := carrier?_eq_some_iff_successor before outermost
  unfold settle
  cases found : carrier? (dropEnclosed (newEntries old new suppress))
      ⟨after, some (.compared before after)⟩ with
  | none =>
      refine ⟨.compared before after, ⟨rfl, fun name => ?_⟩, rfl⟩
      constructor
      · intro named
        contradiction
      · rintro ⟨sibling, isSuccessor, _⟩
        have present := (successor sibling).mpr isSuccessor
        rw [found] at present
        contradiction
  | some target =>
      have isSuccessor := (successor target).mp found
      refine ⟨_, ⟨rfl, fun name => ?_⟩, rfl⟩
      constructor
      · intro named
        exact ⟨target, isSuccessor, Option.some.inj named⟩
      · rintro ⟨sibling, again, rfl⟩
        rw [isSuccessor.unique again]

theorem settle_eq_iff_attributed (outermost : Outermost (Added old new suppress) after)
    (entry : Entry) :
    entry = settle (dropEnclosed (newEntries old new suppress))
        ⟨after, some (.compared before after)⟩ ↔
      ∃ change, Attributed old new suppress before after change ∧ entry = ⟨after, some change⟩ := by
  obtain ⟨change, attributed, settled⟩ := exists_attributed before outermost
  rw [settled]
  constructor
  · rintro rfl
    exact ⟨change, attributed, rfl⟩
  · rintro ⟨other, again, rfl⟩
    rw [attributed.unique again]

end Attribution

theorem mem_entries_iff_reported (old new : Snapshot) (hierarchy : Hierarchy) (suppress : Bool)
    (entry : Entry) :
    entry ∈ (reportOf old new hierarchy suppress).entries ↔
      Reported old new hierarchy suppress entry := by
  rw [mem_entries_iff]
  constructor
  · rintro (⟨element, added, outermost, rfl⟩ | ⟨before, after, altered, outermost, settled⟩ |
      ⟨element, removed, outermost, rfl⟩)
    · exact Reported.added added outermost
    · obtain ⟨change, attributed, rfl⟩ := (settle_eq_iff_attributed outermost entry).mp settled
      exact Reported.changed altered outermost attributed
    · exact Reported.removed removed outermost
  · intro reported
    cases reported with
    | added added outermost => exact .inl ⟨_, added, outermost, rfl⟩
    | changed altered outermost attributed =>
        exact .inr (.inl ⟨_, _, altered, outermost,
          (settle_eq_iff_attributed outermost _).mpr ⟨_, attributed, rfl⟩⟩)
    | removed removed outermost => exact .inr (.inr ⟨_, removed, outermost, rfl⟩)

theorem reported_removed_iff (old new : Snapshot) (hierarchy : Hierarchy) (suppress : Bool)
    (element : Element) :
    Reported old new hierarchy suppress ⟨element, some (.removed element.kind)⟩ ↔
      Removed old new hierarchy suppress element ∧
        Outermost (Removed old new hierarchy suppress) element := by
  constructor
  · intro reported
    cases reported with
    | changed _ _ attributed => exact absurd attributed.not_removed (by simp [Change.removed])
    | removed removed outermost => exact ⟨removed, outermost⟩
  · rintro ⟨removed, outermost⟩
    exact Reported.removed removed outermost

theorem Altered.reported_iff {old new : Snapshot} {before after : Element}
    (altered : Altered old new before after) (hierarchy : Hierarchy) (suppress : Bool)
    (change : Change) :
    Reported old new hierarchy suppress ⟨after, some change⟩ ↔
      Outermost (Added old new suppress) after ∧
        Attributed old new suppress before after change := by
  constructor
  · intro reported
    cases reported with
    | @changed other _ _ again outermost attributed =>
        have same : other = before := Element.eq_of_identity_eq old.distinct again.beforeMember
          altered.beforeMember (again.same.trans altered.same.symm)
        exact ⟨outermost, same ▸ attributed⟩
    | removed removed _ =>
        exact absurd (List.mem_map_of_mem altered.afterMember) removed.missing.absent
  · rintro ⟨outermost, attributed⟩
    exact Reported.changed altered outermost attributed

theorem Fresh.member {old new : Snapshot} {suppress : Bool} {element : Element}
    (fresh : Fresh old new suppress element) : element ∈ new.elements := by
  rcases fresh with added | ⟨before, altered⟩
  · exact added.member
  · exact altered.afterMember

theorem Reported.member {old new : Snapshot} {hierarchy : Hierarchy} {suppress : Bool}
    {entry : Entry} (reported : Reported old new hierarchy suppress entry) :
    entry.element ∈ old.elements ∨ entry.element ∈ new.elements := by
  cases reported with
  | added added _ => exact .inr added.member
  | changed altered _ _ => exact .inr altered.afterMember
  | removed removed _ => exact .inl removed.missing.member

/-- The strict order of a report. -/
def Entry.Before (left right : Entry) : Prop :=
  compare left.element.sortKey right.element.sortKey = .lt

instance : Std.Irrefl Entry.Before where
  irrefl entry := by
    simp [Entry.Before]

instance : Std.Antisymm Entry.Before where
  antisymm left right forward backward := by
    have swapped : compare right.element.sortKey left.element.sortKey =
        (compare left.element.sortKey right.element.sortKey).swap := Std.OrientedCmp.eq_swap
    rw [Entry.Before] at forward backward
    rw [swapped, forward] at backward
    contradiction

theorem entries_ordered (old new : Snapshot) (hierarchy : Hierarchy) (suppress : Bool) :
    (reportOf old new hierarchy suppress).entries.Pairwise Entry.Before :=
  entries_strictly_ordered old new hierarchy suppress

end ApiSurface
