import ApiSurface.Proofs.Attribution
import ApiSurface.Proofs.Pairing

/-! Reconciling two snapshots as one plain function of its inputs. A report always comes out, and its
entries are the due ones, apart from where a lost annotation went. -/

namespace ApiSurface

def removals (old new : Snapshot) (hierarchy : Hierarchy) (suppress : Bool) : List Entry :=
  let gone := (leftovers old new).filter (!isReparented hierarchy (newEntries old new suppress) ·)
  gone.map fun element => ⟨element, some (.removed element.kind)⟩

def newSide (old new : Snapshot) (suppress : Bool) : List Entry :=
  let kept := dropEnclosed (newEntries old new suppress)
  kept.map (settle kept)

def oldSide (old new : Snapshot) (hierarchy : Hierarchy) (suppress : Bool) : List Entry :=
  dropEnclosed (removals old new hierarchy suppress)

def reportOf (old new : Snapshot) (hierarchy : Hierarchy) (suppress : Bool) : Report :=
  let work := prune old new
  let paired := newEntries old new suppress
  let kept := dropEnclosed paired
  let removed := removals old new hierarchy suppress
  let keptRemoved := oldSide old new hierarchy suppress
  let entries := sortEntries (newSide old new suppress ++ keptRemoved)
  let count (status : Status) : Nat := entries.countP (·.status == status)
  { entries
    notices := [.pruned work.unchanged work.old.length work.new.length]
      ++ countNotice .suppressed (work.new.length - paired.length)
      ++ countNotice .reparented ((leftovers old new).length - removed.length)
      ++ countNotice .enclosed (paired.length - kept.length)
      ++ countNotice .enclosed (removed.length - keptRemoved.length)
      ++ kept.filterMap (moveNotice? kept)
      ++ [.computed old.version new.version (count .added) (count .changed) keptRemoved.length] }

theorem reconcile_eq_ok (old new : Snapshot) (hierarchy : Hierarchy) (suppress : Bool) :
    reconcile old new hierarchy suppress = .ok (reportOf old new hierarchy suppress) := by
  simp only [reconcile, pairElements_prune, attributeMoves_eq_ok, bind, Except.bind, pure,
    Except.pure, reportOf, newSide, oldSide, removals, List.length_map]

theorem isReparented_iff_above (hierarchy : Hierarchy) (entries : List Entry)
    (element : Element) :
    isReparented hierarchy entries element = true ↔ element.kind.isMember = true ∧
      ∃ heir ∈ entries.map (·.element), heir.kind.isMember = true ∧ heir.name = element.name ∧
        hierarchy.Above heir element := by
  unfold isReparented Hierarchy.Above
  cases inside : element.containerName? with
  | none => simp
  | some type =>
      simp only [Bool.and_eq_true, List.any_eq_true, beq_iff_eq, Option.some.injEq,
        and_congr_right_iff]
      intro _
      constructor
      · rintro ⟨entry, member, ⟨isMember, sameName⟩, reached⟩
        cases outer : entry.element.containerName? with
        | none => simp [outer] at reached
        | some ancestor =>
            rw [outer] at reached
            have path := (hierarchy.reaches_iff_climbs ancestor type).mp reached
            exact ⟨entry.element, List.mem_map_of_mem member, isMember, sameName, ancestor, type,
              outer, rfl, path⟩
      · rintro ⟨heir, member, isMember, sameName, ancestor, type, outer, rfl, path⟩
        obtain ⟨entry, entryMember, rfl⟩ := List.mem_map.mp member
        refine ⟨entry, entryMember, ⟨isMember, sameName⟩, ?_⟩
        rw [outer]
        exact (hierarchy.reaches_iff_climbs ancestor type).mpr path

theorem isReparented_iff_moved {old new : Snapshot} {suppress : Bool} {element : Element}
    (missing : Missing old new element) (hierarchy : Hierarchy) :
    isReparented hierarchy (newEntries old new suppress) element = true ↔
      Moved old new hierarchy suppress element := by
  rw [isReparented_iff_above]
  simp only [mem_map_newEntries_iff]
  constructor
  · rintro ⟨isMember, livesOn⟩
    exact ⟨missing, isMember, livesOn⟩
  · intro moved
    exact ⟨moved.isMember, moved.livesOn⟩

theorem mem_removals_iff (old new : Snapshot) (hierarchy : Hierarchy) (suppress : Bool)
    (entry : Entry) :
    entry ∈ removals old new hierarchy suppress ↔
      ∃ element, Removed old new hierarchy suppress element ∧
        entry = ⟨element, some (.removed element.kind)⟩ := by
  simp only [removals, List.mem_map, List.mem_filter, mem_leftovers_iff]
  constructor
  · rintro ⟨element, ⟨missing, stays⟩, rfl⟩
    rw [Bool.not_eq_true', ← Bool.not_eq_true, isReparented_iff_moved missing] at stays
    exact ⟨element, ⟨missing, stays⟩, rfl⟩
  · rintro ⟨element, ⟨missing, stays⟩, rfl⟩
    refine ⟨element, ⟨missing, ?_⟩, rfl⟩
    rw [Bool.not_eq_true', ← Bool.not_eq_true, isReparented_iff_moved missing]
    exact stays

theorem mem_dropEnclosed_iff (entries : List Entry) (entry : Entry) :
    entry ∈ dropEnclosed entries ↔ entry ∈ entries ∧
      ∀ outer ∈ entries, outer.status ≠ .changed →
        entry.element.container ≠ outer.element.identity := by
  simp only [dropEnclosed, wholesale, List.mem_filter, decide_eq_true_eq, List.mem_map, not_exists,
    bne_iff_ne, and_imp, and_congr_right_iff, not_and]
  intro _
  constructor
  · intro outside outer member wholly same
    exact outside outer member wholly same.symm
  · intro outside outer member wholly same
    exact outside outer member wholly same.symm

theorem status_of_compared (before after : Element) :
    (Entry.mk after (some (.compared before after))).status = .changed := rfl

theorem mem_kept_new_iff (old new : Snapshot) (suppress : Bool) (entry : Entry) :
    entry ∈ dropEnclosed (newEntries old new suppress) ↔
      entry ∈ newEntries old new suppress ∧
        Outermost (Added old new suppress) entry.element := by
  rw [mem_dropEnclosed_iff]
  refine and_congr_right fun _ => ⟨fun outside outer added => ?_, fun outside outer member wholly => ?_⟩
  · exact outside ⟨outer, none⟩
      ((mem_newEntries_iff old new suppress _).mpr (.inl ⟨outer, added, rfl⟩)) (by simp [Entry.status])
  · rcases (mem_newEntries_iff old new suppress outer).mp member with
      ⟨element, added, rfl⟩ | ⟨before, after, _, rfl⟩
    · exact outside element added
    · exact absurd (status_of_compared before after) wholly

theorem mem_oldSide_iff (old new : Snapshot) (hierarchy : Hierarchy) (suppress : Bool)
    (entry : Entry) :
    entry ∈ oldSide old new hierarchy suppress ↔
      ∃ element, Removed old new hierarchy suppress element ∧
        Outermost (Removed old new hierarchy suppress) element ∧
          entry = ⟨element, some (.removed element.kind)⟩ := by
  simp only [oldSide, mem_dropEnclosed_iff, mem_removals_iff]
  constructor
  · rintro ⟨⟨element, removed, rfl⟩, outside⟩
    refine ⟨element, removed, fun outer outerRemoved => ?_, rfl⟩
    exact outside _ ⟨outer, outerRemoved, rfl⟩ (by simp [Entry.status, Change.removed])
  · rintro ⟨element, removed, outermost, rfl⟩
    refine ⟨⟨element, removed, rfl⟩, ?_⟩
    rintro _ ⟨outer, outerRemoved, rfl⟩ _
    exact outermost outer outerRemoved

theorem mem_newSide_iff (old new : Snapshot) (suppress : Bool) (entry : Entry) :
    entry ∈ newSide old new suppress ↔
      (∃ element, Added old new suppress element ∧ Outermost (Added old new suppress) element ∧
        entry = ⟨element, none⟩) ∨
      ∃ before after, Altered old new before after ∧ Outermost (Added old new suppress) after ∧
        entry = settle (dropEnclosed (newEntries old new suppress))
          ⟨after, some (.compared before after)⟩ := by
  simp only [newSide, List.mem_map, mem_kept_new_iff, mem_newEntries_iff]
  constructor
  · rintro ⟨source, ⟨⟨element, added, rfl⟩ | ⟨before, after, altered, rfl⟩, outermost⟩, rfl⟩
    · exact .inl ⟨element, added, outermost, settle_of_added _ rfl⟩
    · exact .inr ⟨before, after, altered, outermost, rfl⟩
  · rintro (⟨element, added, outermost, rfl⟩ | ⟨before, after, altered, outermost, rfl⟩)
    · exact ⟨_, ⟨.inl ⟨element, added, rfl⟩, outermost⟩, settle_of_added _ rfl⟩
    · exact ⟨_, ⟨.inr ⟨before, after, altered, rfl⟩, outermost⟩, rfl⟩

theorem entries_perm (old new : Snapshot) (hierarchy : Hierarchy) (suppress : Bool) :
    (reportOf old new hierarchy suppress).entries.Perm
      (newSide old new suppress ++ oldSide old new hierarchy suppress) :=
  List.mergeSort_perm _ _

/-- The three ways into a report. -/
theorem mem_entries_iff (old new : Snapshot) (hierarchy : Hierarchy) (suppress : Bool)
    (entry : Entry) :
    entry ∈ (reportOf old new hierarchy suppress).entries ↔
      (∃ element, Added old new suppress element ∧ Outermost (Added old new suppress) element ∧
        entry = ⟨element, none⟩) ∨
      (∃ before after, Altered old new before after ∧ Outermost (Added old new suppress) after ∧
        entry = settle (dropEnclosed (newEntries old new suppress))
          ⟨after, some (.compared before after)⟩) ∨
      ∃ element, Removed old new hierarchy suppress element ∧
        Outermost (Removed old new hierarchy suppress) element ∧
          entry = ⟨element, some (.removed element.kind)⟩ := by
  rw [(entries_perm old new hierarchy suppress).mem_iff, List.mem_append, mem_newSide_iff,
    mem_oldSide_iff, or_assoc]

theorem newSide_element_mem {old new : Snapshot} {suppress : Bool} {entry : Entry}
    (member : entry ∈ newSide old new suppress) : entry.element ∈ new.elements := by
  rcases (mem_newSide_iff old new suppress entry).mp member with
    ⟨_, added, _, rfl⟩ | ⟨_, _, altered, _, rfl⟩
  · exact added.member
  · rw [settle_element]
    exact altered.afterMember

theorem newSide_distinct (old new : Snapshot) (suppress : Bool) :
    ((newSide old new suppress).map (·.element.identity)).Nodup := by
  have kept : (newSide old new suppress).map (·.element.identity) =
      (dropEnclosed (newEntries old new suppress)).map (·.element.identity) := by
    simp [newSide]
  rw [kept]
  exact (newEntries_distinct old new suppress).sublist (List.filter_sublist.map _)

theorem oldSide_distinct (old new : Snapshot) (hierarchy : Hierarchy) (suppress : Bool) :
    ((oldSide old new hierarchy suppress).map (·.element.identity)).Nodup := by
  have removed : ((removals old new hierarchy suppress).map (·.element.identity)).Nodup := by
    simp only [removals, List.map_map, Function.comp_def]
    exact (leftovers_distinct old new).sublist (List.filter_sublist.map _)
  exact removed.sublist (List.filter_sublist.map _)

theorem entries_distinct (old new : Snapshot) (hierarchy : Hierarchy) (suppress : Bool) :
    ((reportOf old new hierarchy suppress).entries.map (·.element.identity)).Nodup := by
  rw [((entries_perm old new hierarchy suppress).map _).nodup_iff, List.map_append, List.nodup_append]
  refine ⟨newSide_distinct old new suppress, oldSide_distinct old new hierarchy suppress, ?_⟩
  intro path inNew other inOld same
  obtain ⟨added, addedMember, rfl⟩ := List.mem_map.mp inNew
  obtain ⟨gone, goneMember, rfl⟩ := List.mem_map.mp inOld
  obtain ⟨element, removed, _, rfl⟩ := (mem_oldSide_iff old new hierarchy suppress gone).mp goneMember
  exact removed.missing.absent (same ▸ List.mem_map_of_mem (newSide_element_mem addedMember))

theorem compared_of_counterpart (old new : Snapshot) {before after : Element}
    (member : after ∈ (prune old new).new)
    (found : (prune old new).old.find? (·.identity == after.identity) = some before) :
    ∃ change, Change.between? before after = some change ∧ change.isEmpty = false := by
  obtain ⟨beforeMember, same⟩ :=
    (Element.find?_identity_eq_some_iff (prune_old_distinct old new) _ before).mp found
  have different : before ≠ after := by
    intro equal
    have notNew := ((mem_prune_old old new before).mp beforeMember).2
    exact notNew (equal ▸ ((mem_prune_new old new after).mp member).1)
  refine ⟨_, if_pos same, ?_⟩
  rw [← Bool.not_eq_true, Change.compared_isEmpty_iff same]
  exact different

/-- Whatever is reconciled, a report comes out, and each condition holds where it is checked: the old
elements that differ are distinct, each is compared with a version of its own and not found the same,
and in any entries only a lost annotation is traced. -/
theorem reconcile_never_breaches (old new : Snapshot) (hierarchy : Hierarchy) (suppress : Bool) :
    (∃ report, reconcile old new hierarchy suppress = .ok report) ∧
      ((prune old new).old.map Element.identity).Nodup ∧
      (∀ after ∈ (prune old new).new, ∀ before,
        (prune old new).old.find? (·.identity == after.identity) = some before →
          ∃ change, Change.between? before after = some change ∧ change.isEmpty = false) ∧
      ∀ entries, ∃ attributed, attributeMoves entries = .ok attributed :=
  ⟨⟨_, reconcile_eq_ok old new hierarchy suppress⟩, prune_old_distinct old new,
    fun _ member _ found => compared_of_counterpart old new member found,
    fun entries => ⟨_, attributeMoves_eq_ok entries⟩⟩

end ApiSurface
