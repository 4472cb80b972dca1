import ApiSurface.Summary
import ApiSurface.Proofs.Breakage
import Mathlib.Algebra.BigOperators.Group.List.Basic
import Mathlib.Algebra.Ring.Nat

/-! Every element of both versions is counted once: it is unchanged, left out for one of the reasons
that are noted, or listed, an altered one on both sides. -/

namespace ApiSurface

/-- The number in a field of an event of the given name. Every other event counts nothing. -/
def Notice.number (name field : Text) (notice : Notice) : Nat :=
  if notice.event.name = name then
    (((notice.event.fields.get? field).bind Value.toInt?).getD 0).toNat
  else 0

def Report.logged (report : Report) (name field : Text) : Nat :=
  (report.notices.map (Notice.number name field)).sum

def Report.times (report : Report) (name : Text) : Nat :=
  report.notices.countP (·.event.name = name)

/-- Numbers by status, as they are printed; a zero is not printed. -/
def printed (number : Status → Nat) : Text :=
  match [Status.added, .changed, .removed].filter (number · != 0) with
  | [] => "No changes detected"
  | shown => Text.join ", " (shown.map fun status =>
      Text.ofNat (number status) ++ " " ++ status.word)

structure Report.Accounts (report : Report) (old new : Snapshot) : Prop where
  prunedOnce : report.times "unchanged_pruned" = 1
  computedOnce : report.times "api_diff_computed" = 1
  oldPruned : report.logged "unchanged_pruned" "unchanged" +
    report.logged "unchanged_pruned" "old_remaining" = old.size
  newPruned : report.logged "unchanged_pruned" "unchanged" +
    report.logged "unchanged_pruned" "new_remaining" = new.size
  statuses : ∀ status, report.logged "api_diff_computed" status.word =
    statusCount report.entries status
  shown : summary report.entries = printed fun status =>
    report.logged "api_diff_computed" status.word
  balance : old.size + new.size =
    2 * report.logged "unchanged_pruned" "unchanged" +
      report.logged "new_deprecated_suppressed" "count" +
      report.logged "reparented_members_skipped" "count" +
      report.logged "enclosed_elements_dropped" "count" +
      report.logged "api_diff_computed" "added" +
      2 * report.logged "api_diff_computed" "changed" +
      report.logged "api_diff_computed" "removed"

section Pruning

variable (old new : Snapshot)

theorem Snapshot.elements_nodup (snapshot : Snapshot) : snapshot.elements.Nodup :=
  snapshot.distinct.of_map

theorem prune_new_eq : (prune old new).new = new.elements.filter (· ∉ old.elements) := by
  apply List.filter_congr
  intro element member
  simp [member]

theorem prune_old_eq : (prune old new).old = old.elements.filter (· ∉ new.elements) := by
  apply List.filter_congr
  intro element member
  simp [member]

theorem shared_length : (old.elements.filter (· ∈ new.elements)).length =
    (new.elements.filter (· ∈ old.elements)).length := by
  apply List.Perm.length_eq
  apply (List.perm_ext_iff_of_nodup (old.elements_nodup.filter _)
    (new.elements_nodup.filter _)).mpr
  intro element
  simp only [List.mem_filter, decide_eq_true_eq, and_comm]

theorem size_new_eq : new.size = (prune old new).unchanged + (prune old new).new.length := by
  have split := List.length_eq_length_filter_add (l := new.elements) (· ∈ old.elements)
  simp only [← decide_not] at split
  rw [prune_new_eq]
  exact split

theorem size_old_eq : old.size = (prune old new).unchanged + (prune old new).old.length := by
  have split := List.length_eq_length_filter_add (l := old.elements) (· ∈ new.elements)
  simp only [← decide_not] at split
  rw [shared_length] at split
  rw [prune_old_eq]
  exact split

end Pruning

/-- The new elements that are found changed, by their identities. -/
def matched (old new : Snapshot) (suppress : Bool) : List Path :=
  ((newEntries old new suppress).filter (·.change.isSome)).map (·.element.identity)

section Stages

variable (old new : Snapshot) (hierarchy : Hierarchy) (suppress : Bool)

theorem matched_nodup : (matched old new suppress).Nodup :=
  (newEntries_distinct old new suppress).sublist (List.filter_sublist.map _)

/-- The old elements that differ are left over, or each of them is matched by a new one. -/
theorem prune_old_length : (prune old new).old.length =
    (matched old new suppress).length + (leftovers old new).length := by
  have split := List.length_eq_length_filter_add (l := (prune old new).old)
    (·.identity ∈ matched old new suppress)
  simp only [← decide_not] at split
  have paired : ((prune old new).old.filter (·.identity ∈ matched old new suppress)).map
      Element.identity |>.Perm (matched old new suppress) := by
    apply (List.perm_ext_iff_of_nodup
      ((prune_old_distinct old new).sublist (List.filter_sublist.map _))
      (matched_nodup old new suppress)).mpr
    intro path
    simp only [List.mem_map, List.mem_filter, decide_eq_true_eq]
    constructor
    · rintro ⟨element, ⟨_, found⟩, rfl⟩
      exact found
    · intro found
      obtain ⟨before, after, altered, same⟩ := (mem_matched_iff old new suppress path).mp found
      have identities : before.identity = path := altered.same.trans same
      have gone : before ∉ new.elements := by
        intro kept
        exact altered.different
          (Element.eq_of_identity_eq new.distinct kept altered.afterMember altered.same)
      refine ⟨before, ⟨?_, identities ▸ found⟩, identities⟩
      exact (mem_prune_old old new before).mpr ⟨altered.beforeMember, gone⟩
  have lengths := paired.length_eq
  rw [List.length_map] at lengths
  rw [split, lengths]
  exact congrArg _ (congrArg List.length (filter_prune_old old new suppress))

theorem newEntries_status {entry : Entry} (member : entry ∈ newEntries old new suppress) :
    entry.change = none ∧ entry.status = .added ∨
      entry.change.isSome = true ∧ entry.status = .changed := by
  rcases (mem_newEntries_iff old new suppress entry).mp member with
    ⟨_, _, rfl⟩ | ⟨_, _, _, rfl⟩
  · exact .inl ⟨rfl, rfl⟩
  · exact .inr ⟨rfl, rfl⟩

theorem matched_length : (matched old new suppress).length =
    statusCount (newEntries old new suppress) .changed := by
  rw [matched, List.length_map, ← List.countP_eq_length_filter]
  apply List.countP_congr
  intro entry member
  rcases newEntries_status old new suppress member with ⟨same, status⟩ | ⟨same, status⟩
  · simp [same, status]
  · simp [same, status]

/-- No altered element goes with an added one that it stands in. -/
theorem kept_changed (nested : old.Nested) :
    statusCount (dropEnclosed (newEntries old new suppress)) .changed =
      statusCount (newEntries old new suppress) .changed := by
  rw [statusCount, statusCount, dropEnclosed, List.countP_filter]
  apply List.countP_congr
  intro entry member
  simp only [Bool.and_eq_true, beq_iff_eq, and_iff_left_iff_imp]
  intro changed
  have kept : entry ∈ dropEnclosed (newEntries old new suppress) := by
    rw [mem_kept_new_iff]
    refine ⟨member, ?_⟩
    rcases (mem_newEntries_iff old new suppress entry).mp member with
      ⟨_, _, rfl⟩ | ⟨before, after, altered, rfl⟩
    · contradiction
    · exact altered.outermost nested
  exact (List.mem_filter.mp kept).2

theorem kept_status {entry : Entry}
    (member : entry ∈ dropEnclosed (newEntries old new suppress)) :
    entry.status = .added ∨ entry.status = .changed := by
  have paired : entry ∈ newEntries old new suppress := (List.mem_filter.mp member).1
  rcases newEntries_status old new suppress paired with ⟨_, added⟩ | ⟨_, changed⟩
  · exact .inl added
  · exact .inr changed

theorem kept_removed :
    statusCount (dropEnclosed (newEntries old new suppress)) .removed = 0 := by
  rw [statusCount, List.countP_eq_zero]
  intro entry member
  rcases kept_status old new suppress member with status | status
  · simp [status]
  · simp [status]

theorem kept_length : (dropEnclosed (newEntries old new suppress)).length =
    statusCount (dropEnclosed (newEntries old new suppress)) .added +
      statusCount (dropEnclosed (newEntries old new suppress)) .changed := by
  rw [statusCount, statusCount, List.length_eq_countP_add_countP (·.status == .added)]
  congr 1
  apply List.countP_congr
  intro entry member
  rcases kept_status old new suppress member with status | status
  · simp [status]
  · simp [status]

theorem statusCount_newSide (status : Status) : statusCount (newSide old new suppress) status =
    statusCount (dropEnclosed (newEntries old new suppress)) status := by
  simp [statusCount, newSide, List.countP_map, Function.comp_def]

theorem statusCount_oldSide (status : Status) :
    statusCount (oldSide old new hierarchy suppress) status =
      if status = .removed then (oldSide old new hierarchy suppress).length else 0 := by
  have removed (entry : Entry) (member : entry ∈ oldSide old new hierarchy suppress) :
      entry.status = .removed := by
    obtain ⟨_, _, _, rfl⟩ := (mem_oldSide_iff old new hierarchy suppress entry).mp member
    rfl
  split
  next same =>
    rw [statusCount, List.countP_eq_length]
    intro entry member
    simp [removed entry member, same]
  next different =>
    rw [statusCount, List.countP_eq_zero]
    intro entry member
    simp [removed entry member, Ne.symm different]

theorem statusCount_entries (status : Status) :
    statusCount (reportOf old new hierarchy suppress).entries status =
      statusCount (dropEnclosed (newEntries old new suppress)) status +
        if status = .removed then (oldSide old new hierarchy suppress).length else 0 := by
  rw [statusCount, (entries_perm old new hierarchy suppress).countP_eq, List.countP_append]
  exact congrArg₂ _ (statusCount_newSide old new suppress status)
    (statusCount_oldSide old new hierarchy suppress status)

theorem newEntries_length_le :
    (newEntries old new suppress).length ≤ (prune old new).new.length := by
  rw [← filterMap_prune_new]
  exact List.length_filterMap_le _ _

theorem removals_length_le :
    (removals old new hierarchy suppress).length ≤ (leftovers old new).length := by
  rw [removals, List.length_map]
  exact List.length_filter_le _ _

end Stages

theorem summary_eq_printed (entries : List Entry) :
    summary entries = printed (statusCount entries) := by
  have empty : entries.isEmpty = true ↔
      [Status.added, .changed, .removed].filter (statusCount entries · != 0) = [] := by
    rw [List.isEmpty_iff, List.filter_eq_nil_iff]
    constructor
    · rintro rfl
      simp [statusCount]
    · intro nothing
      rw [List.eq_nil_iff_forall_not_mem]
      intro entry member
      have none := nothing entry.status (by cases entry.status <;> simp)
      simp only [statusCount, bne_iff_ne, ne_eq, Decidable.not_not, List.countP_eq_zero] at none
      exact none entry member (beq_self_eq_true _)
  rw [summary, printed]
  by_cases nothing : entries.isEmpty = true
  · rw [if_pos nothing, empty.mp nothing]
  · rw [if_neg nothing]
    split
    next none => exact absurd (empty.mpr none) nothing
    next => rfl

section Events

theorem number_zero {notice : Notice} (zero : notice.event.fields = [(("count" : Value), .int 0)])
    (name field : Text) : notice.number name field = 0 := by
  simp only [Notice.number, zero, Entries.get?, List.find?_cons, List.find?_nil]
  split
  next => cases Value.sameKey "count" field <;> rfl
  next => rfl

theorem sum_countNotice {notice : Nat → Notice}
    (zero : (notice 0).event.fields = [(("count" : Value), .int 0)]) (name field : Text)
    (count : Nat) :
    ((countNotice notice count).map (Notice.number name field)).sum =
      (notice count).number name field := by
  unfold countNotice
  split
  next none => simp [none, number_zero zero]
  next some => simp

theorem moveNotice?_name {entries : List Entry} {entry : Entry} {notice : Notice}
    (noted : moveNotice? entries entry = some notice) :
    notice.event.name = "uml_move_detected" := by
  obtain ⟨target, _, rfl⟩ := Option.map_eq_some_iff.mp noted
  rfl

theorem sum_moves {name : Text} (other : Text.ofString "uml_move_detected" ≠ name)
    (field : Text) (entries : List Entry) :
    ((entries.filterMap (moveNotice? entries)).map (Notice.number name field)).sum = 0 := by
  apply List.sum_eq_zero
  intro number member
  obtain ⟨notice, noticed, rfl⟩ := List.mem_map.mp member
  obtain ⟨entry, _, noted⟩ := List.mem_filterMap.mp noticed
  exact if_neg (moveNotice?_name noted ▸ other)

variable (old new : Snapshot) (hierarchy : Hierarchy) (suppress : Bool)

theorem logged_reportOf {name : Text} (other : Text.ofString "uml_move_detected" ≠ name)
    (field : Text) :
    let number := Notice.number name field
    let work := prune old new
    let paired := newEntries old new suppress
    let removed := removals old new hierarchy suppress
    let report := reportOf old new hierarchy suppress
    report.logged name field =
      number (.pruned work.unchanged work.old.length work.new.length) +
        number (.suppressed (work.new.length - paired.length)) +
        number (.reparented ((leftovers old new).length - removed.length)) +
        number (.enclosed (paired.length - (dropEnclosed paired).length)) +
        number (.enclosed (removed.length - (dropEnclosed removed).length)) +
        number (.computed old.version new.version (statusCount report.entries .added)
          (statusCount report.entries .changed) (dropEnclosed removed).length) := by
  intro number work paired removed report
  simp only [Report.logged, report, reportOf, List.map_append, List.sum_append, List.map_cons,
    List.map_nil, List.sum_cons, List.sum_nil, sum_moves other]
  rw [sum_countNotice rfl, sum_countNotice rfl, sum_countNotice rfl, sum_countNotice rfl]
  rfl

theorem logged_numbers :
    let work := prune old new
    let paired := newEntries old new suppress
    let removed := removals old new hierarchy suppress
    let report := reportOf old new hierarchy suppress
    report.logged "unchanged_pruned" "unchanged" = work.unchanged ∧
    report.logged "unchanged_pruned" "old_remaining" = work.old.length ∧
    report.logged "unchanged_pruned" "new_remaining" = work.new.length ∧
    report.logged "new_deprecated_suppressed" "count" = work.new.length - paired.length ∧
    report.logged "reparented_members_skipped" "count" =
      (leftovers old new).length - removed.length ∧
    report.logged "enclosed_elements_dropped" "count" =
      paired.length - (dropEnclosed paired).length +
        (removed.length - (dropEnclosed removed).length) ∧
    report.logged "api_diff_computed" "added" = statusCount report.entries .added ∧
    report.logged "api_diff_computed" "changed" = statusCount report.entries .changed ∧
    report.logged "api_diff_computed" "removed" = (dropEnclosed removed).length := by
  intro work paired removed report
  refine ⟨?_, ?_, ?_, ?_, ?_, ?_, ?_, ?_, ?_⟩
  all_goals rw [logged_reportOf _ _ _ _ (by decide)]
  -- every event of another name counts 0
  · rfl
  · rfl
  · rfl
  · exact Nat.zero_add _
  · exact Nat.zero_add _
  · exact (Nat.add_zero _).trans (congrArg₂ _ (Nat.zero_add _) rfl)
  · exact Nat.zero_add _
  · exact Nat.zero_add _
  · exact Nat.zero_add _

/-- The names of the events that are not logged exactly once. -/
def occasional : List Text :=
  ["new_deprecated_suppressed", "reparented_members_skipped", "enclosed_elements_dropped",
    "uml_move_detected"]

theorem times_countNotice {notice : Nat → Notice} {count : Nat} {name : Text}
    (known : (notice count).event.name ∈ occasional) (other : name ∉ occasional) :
    (countNotice notice count).countP (·.event.name = name) = 0 := by
  have different : (notice count).event.name ≠ name := fun same => other (same ▸ known)
  unfold countNotice
  split <;> simp [different]

theorem times_moves {name : Text} (other : name ∉ occasional) (entries : List Entry) :
    (entries.filterMap (moveNotice? entries)).countP (·.event.name = name) = 0 := by
  rw [List.countP_eq_zero]
  intro notice member
  obtain ⟨entry, _, noted⟩ := List.mem_filterMap.mp member
  have known : notice.event.name ∈ occasional := moveNotice?_name noted ▸ by decide
  simpa using fun same : notice.event.name = name => other (same ▸ known)

theorem times_reportOf {name : Text} (other : name ∉ occasional) :
    let report := reportOf old new hierarchy suppress
    let work := prune old new
    report.times name =
      [Notice.pruned work.unchanged work.old.length work.new.length].countP
        (·.event.name = name) +
      [Notice.computed old.version new.version (statusCount report.entries .added)
        (statusCount report.entries .changed)
        (dropEnclosed (removals old new hierarchy suppress)).length].countP
        (·.event.name = name) := by
  intro report work
  simp only [Report.times, report, reportOf, List.countP_append, times_moves other]
  repeat rw [times_countNotice (by simp [Notice.event, occasional]) other]
  rfl

theorem statusCount_removed :
    statusCount (reportOf old new hierarchy suppress).entries .removed =
      (dropEnclosed (removals old new hierarchy suppress)).length := by
  rw [statusCount_entries, kept_removed, if_pos rfl, Nat.zero_add, oldSide]

end Events

theorem reportOf_accounts {old : Snapshot} (nested : old.Nested) (new : Snapshot)
    (hierarchy : Hierarchy) (suppress : Bool) :
    (reportOf old new hierarchy suppress).Accounts old new := by
  obtain ⟨unchanged, oldRemaining, newRemaining, suppressed, reparented, enclosed, added, changed,
    removed⟩ := logged_numbers old new hierarchy suppress
  have statuses (status : Status) :
      (reportOf old new hierarchy suppress).logged "api_diff_computed" status.word =
        statusCount (reportOf old new hierarchy suppress).entries status := by
    cases status with
    | added => exact added
    | changed => exact changed
    | removed => exact removed.trans (statusCount_removed old new hierarchy suppress).symm
  have oldSize := size_old_eq old new
  have newSize := size_new_eq old new
  constructor
  case oldPruned => rw [unchanged, oldRemaining, oldSize]
  case newPruned => rw [unchanged, newRemaining, newSize]
  case statuses => exact statuses
  case shown =>
    rw [summary_eq_printed]
    exact congrArg printed (funext fun status => (statuses status).symm)
  case balance =>
    have keptAdded : statusCount (reportOf old new hierarchy suppress).entries .added =
        statusCount (dropEnclosed (newEntries old new suppress)) .added :=
      statusCount_entries old new hierarchy suppress .added
    have keptChanged : statusCount (reportOf old new hierarchy suppress).entries .changed =
        statusCount (dropEnclosed (newEntries old new suppress)) .changed :=
      statusCount_entries old new hierarchy suppress .changed
    have oldPaired := prune_old_length old new suppress
    have newPaired := newEntries_length_le old new suppress
    have stays := removals_length_le old new hierarchy suppress
    have matched := matched_length old new suppress
    have keptAll := kept_changed old new suppress nested
    have keptLength := kept_length old new suppress
    have keptLe : (dropEnclosed (newEntries old new suppress)).length ≤
      (newEntries old new suppress).length := List.length_filter_le _ _
    have oldSideLe : (dropEnclosed (removals old new hierarchy suppress)).length ≤
      (removals old new hierarchy suppress).length := List.length_filter_le _ _
    omega
  case prunedOnce => rw [times_reportOf _ _ _ _ (by decide)]; rfl
  case computedOnce => rw [times_reportOf _ _ _ _ (by decide)]; rfl

/-- For an old version that was read, what is logged of a comparison accounts for every element of
both versions. -/
theorem every_element_accounted_for {source : Text} {value : Value} {old : Snapshot}
    (read : Snapshot.ofValue source value = .ok old) (new : Snapshot) (hierarchy : Hierarchy)
    (suppress : Bool) :
    ∃ report, reconcile old new hierarchy suppress = .ok report ∧ report.Accounts old new :=
  ⟨_, reconcile_eq_ok old new hierarchy suppress,
    reportOf_accounts (Snapshot.nested_of_ofValue read) new hierarchy suppress⟩

theorem every_element_accounted_for_of_pulled_up_method :
    Snapshot.ofValue "family" (familyData [] [runMethod]) = .ok (family [] [runMethod]) ∧
      ∃ report, reconcile (family [] [runMethod]) (family [runMethod] [])
          (Hierarchy.ofPairs [("p.Child", "p.Parent")]) true = .ok report ∧
        report.Accounts (family [] [runMethod]) (family [runMethod] []) := by
  have read : Snapshot.ofValue "family" (familyData [] [runMethod]) =
      .ok (family [] [runMethod]) := rfl
  exact ⟨read, every_element_accounted_for read _ _ _⟩

end ApiSurface
