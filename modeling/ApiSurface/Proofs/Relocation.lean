import ApiSurface.Proofs.Reconciliation

/-! Where lost annotations go. A report names the one sibling in it that carries an annotation, if
there is just one. Tracing annotations in any entries touches nothing else and is done at once. -/

namespace ApiSurface

theorem settle_of_change (entries : List Entry) (element : Element) {change : Change}
    (fresh : change.movedTo = none) :
    settle entries ⟨element, some change⟩ = ⟨element, some { change with
      movedTo := (carrier? entries ⟨element, some change⟩).map (·.name) }⟩ := by
  unfold settle
  cases carrier? entries ⟨element, some change⟩ with
  | none =>
      simp only [Option.map_none, ← fresh]
  | some target => rfl

section Again

variable (entries : List Entry)

theorem map_settle_element : (entries.map (settle entries)).map (·.element) =
    entries.map (·.element) := by
  simp [Function.comp_def]

theorem carrier?_unattributed (entry : Entry) :
    carrier? entries entry.unattributed = carrier? entries entry := by
  obtain ⟨element, change⟩ := entry
  cases change <;> rfl

theorem carrier?_settle (entry : Entry) :
    carrier? (entries.map (settle entries)) (settle entries entry) = carrier? entries entry := by
  have targets (element : Element) (change : Change) :
      moveTargets (entries.map (settle entries)) element change =
        moveTargets entries element change := by
    rw [moveTargets, map_settle_element, moveTargets]
  -- What carries an annotation depends on elements and on what was lost, which stay as they are.
  rw [← carrier?_unattributed, settle_unattributed, carrier?_unattributed]
  simp only [carrier?, targets]

theorem settle_settle (entry : Entry) :
    settle (entries.map (settle entries)) (settle entries entry) = settle entries entry := by
  rw [settle, carrier?_settle]
  cases found : carrier? entries entry with
  | none => rfl
  | some target =>
      rw [settle, found]
      cases entry.change <;> rfl

theorem moveNotice?_settle (entry : Entry) :
    moveNotice? (entries.map (settle entries)) (settle entries entry) =
      moveNotice? entries entry := by
  rw [moveNotice?, carrier?_settle, moveNotice?, settle_element]
  cases found : carrier? entries entry with
  | none => rfl
  | some target =>
      rw [settle, found]
      cases entry.change <;> rfl

theorem attributeMoves_settled :
    attributeMoves (entries.map (settle entries)) =
      .ok (entries.map (settle entries), entries.filterMap (moveNotice? entries)) := by
  rw [attributeMoves_eq_ok, List.map_map, List.filterMap_map]
  have entriesKept : settle (entries.map (settle entries)) ∘ settle entries = settle entries :=
    funext (settle_settle entries)
  have noticesKept : moveNotice? (entries.map (settle entries)) ∘ settle entries =
      moveNotice? entries := funext (moveNotice?_settle entries)
  rw [entriesKept, noticesKept]

end Again

/-- The entries, added or changed, of members beside an element that carry the annotation its change
has lost. -/
def Report.carriers (report : Report) (element : Element) (change : Change) : List Entry :=
  report.entries.filter fun other =>
    other.status != .removed && (other.element.kind.isMember &&
      other.element.container == element.container &&
      other.element.identifier == change.oldIdentifier &&
      other.element.obligation == change.oldObligation)

section Report

variable {old new : Snapshot} {hierarchy : Hierarchy} {suppress : Bool}

theorem status_of_mem_newEntries {entry : Entry} (member : entry ∈ newEntries old new suppress) :
    entry.status ≠ .removed := by
  rcases (mem_newEntries_iff old new suppress entry).mp member with
    ⟨element, _, rfl⟩ | ⟨before, after, _, rfl⟩
  · exact fun same => nomatch same
  · exact fun same => nomatch same

theorem status_of_mem_oldSide {entry : Entry} (member : entry ∈ oldSide old new hierarchy suppress) :
    entry.status = .removed := by
  obtain ⟨element, _, _, rfl⟩ := (mem_oldSide_iff old new hierarchy suppress entry).mp member
  rfl

variable (old new hierarchy suppress) in
/-- Nothing is lost between the stage that looks for siblings and the report. -/
theorem carriers_perm (element : Element) {change : Change}
    (loses : change.losesAnnotation = true) :
    (((reportOf old new hierarchy suppress).carriers element change).map (·.element)).Perm
      (moveTargets (dropEnclosed (newEntries old new suppress)) element change) := by
  let suits (other : Element) : Bool := other.kind.isMember && other.container == element.container &&
    other.identifier == change.oldIdentifier && other.obligation == change.oldObligation
  have listed : ((reportOf old new hierarchy suppress).carriers element change).Perm
      ((newSide old new suppress ++ oldSide old new hierarchy suppress).filter fun other =>
        other.status != .removed && suits other.element) :=
    (entries_perm old new hierarchy suppress).filter _
  have gone : ((oldSide old new hierarchy suppress).filter fun other =>
      other.status != .removed && suits other.element) = [] := by
    apply List.filter_eq_nil_iff.mpr
    intro entry member
    simp [status_of_mem_oldSide member]
  have kept : ((newSide old new suppress).filter fun other =>
        other.status != .removed && suits other.element).map (·.element) =
      ((dropEnclosed (newEntries old new suppress)).map (·.element)).filter suits := by
    rw [newSide, List.filter_map, List.map_map, List.filter_map]
    simp only [Function.comp_def, settle_element, settle_status]
    congr 1
    apply List.filter_congr
    intro entry member
    have present : entry.status ≠ .removed :=
      status_of_mem_newEntries (List.mem_of_mem_filter member)
    simp [present]
  have targets : moveTargets (dropEnclosed (newEntries old new suppress)) element change =
      ((dropEnclosed (newEntries old new suppress)).map (·.element)).filter suits := by
    simp [moveTargets, Change.annotates, loses, suits, Bool.and_assoc]
  rw [targets, ← kept]
  rw [List.filter_append, gone, List.append_nil] at listed
  exact listed.map _

theorem carriers_eq_singleton_iff (element : Element) {change : Change}
    (loses : change.losesAnnotation = true) (name : Text) :
    (∃ entry, (reportOf old new hierarchy suppress).carriers element change = [entry] ∧
        entry.element.name = name) ↔
      ∃ target, moveTargets (dropEnclosed (newEntries old new suppress)) element change = [target] ∧
        target.name = name := by
  have same := carriers_perm old new hierarchy suppress element loses
  constructor
  · rintro ⟨entry, alone, rfl⟩
    rw [alone] at same
    exact ⟨entry.element, List.singleton_perm.mp same |>.symm, rfl⟩
  · rintro ⟨target, alone, rfl⟩
    rw [alone, List.perm_singleton] at same
    obtain ⟨entry, listed, rfl⟩ := List.map_eq_singleton_iff.mp same
    exact ⟨entry, listed, rfl⟩

theorem movedTo_iff_carriers (before after : Element) (name : Text) :
    (carrier? (dropEnclosed (newEntries old new suppress))
        ⟨after, some (.compared before after)⟩).map (·.name) = some name ↔
      after.kind.isMember = true ∧ Change.losesAnnotation (.compared before after) = true ∧
        ∃ entry, (reportOf old new hierarchy suppress).carriers after
          (.compared before after) = [entry] ∧ entry.element.name = name := by
  simp only [Option.map_eq_some_iff, carrier?_eq_some_iff, Option.some.injEq, exists_eq_left']
  constructor
  · rintro ⟨target, ⟨isMember, loses, alone⟩, rfl⟩
    exact ⟨isMember, loses, (carriers_eq_singleton_iff after loses _).mpr ⟨target, alone, rfl⟩⟩
  · rintro ⟨isMember, loses, carried⟩
    obtain ⟨target, alone, same⟩ := (carriers_eq_singleton_iff after loses name).mp carried
    exact ⟨target, ⟨isMember, loses, alone⟩, same⟩

theorem relocated_of_mem {entry : Entry}
    (member : entry ∈ (reportOf old new hierarchy suppress).entries)
    (changed : entry.status = .changed) :
    ∃ before after, Altered old new before after ∧ entry = ⟨after, some {
      Change.compared before after with
      movedTo := (carrier? (dropEnclosed (newEntries old new suppress))
        ⟨after, some (.compared before after)⟩).map (·.name) }⟩ := by
  rcases (mem_entries_iff old new hierarchy suppress entry).mp member with
    ⟨_, _, _, rfl⟩ | ⟨before, after, altered, _, rfl⟩ | ⟨_, _, _, rfl⟩
  · contradiction
  · exact ⟨before, after, altered, settle_of_change _ after rfl⟩
  · contradiction

/-- An element that lost its annotation carries none, so it is not where its annotation went. -/
theorem identity_ne_of_carriers {before : Element} {entry target : Entry}
    (member : entry ∈ (reportOf old new hierarchy suppress).entries)
    (loses : Change.losesAnnotation (.compared before entry.element) = true)
    (carries : target ∈ (reportOf old new hierarchy suppress).carriers entry.element
      (.compared before entry.element)) :
    target.element.identity ≠ entry.element.identity := by
  intro same
  simp only [Report.carriers, List.mem_filter, Bool.and_eq_true, beq_iff_eq] at carries
  have itself : target = entry := List.inj_on_of_nodup_map
    (entries_distinct old new hierarchy suppress) carries.1 member same
  have carried := carries.2.2.1.2
  rw [itself] at carried
  by_cases kept : before.identifier = entry.element.identifier
  · simp [Change.losesAnnotation, Change.compared, Change.differing, kept] at loses
  · simp only [Change.compared, Change.differing, kept, if_false] at carried
    exact kept carried.symm

end Report

/-- A changed entry tells where its lost annotation went exactly if one entry alone, added or changed,
carries it beside the element; it tells the name of that one, which is never the element itself, and
else only what changed. Tracing annotations keeps any entries in place and finds nothing more when it
is done again. -/
theorem relocation_exact (old new : Snapshot) (hierarchy : Hierarchy) (suppress : Bool) :
    (∃ report, reconcile old new hierarchy suppress = .ok report ∧
      ∀ entry ∈ report.entries, ∀ change, entry.change = some change → entry.status = .changed →
        (∃ before ∈ old.elements,
          Change.between? before entry.element = some { change with movedTo := none }) ∧
        (∀ name, change.movedTo = some name ↔ entry.element.kind.isMember = true ∧
          change.losesAnnotation = true ∧ ∃ target,
            report.carriers entry.element change = [target] ∧ target.element.name = name) ∧
        (change.losesAnnotation = true → ∀ target ∈ report.carriers entry.element change,
          target.element.identity ≠ entry.element.identity)) ∧
    ∀ entries, ∃ settled notices, attributeMoves entries = .ok (settled, notices) ∧
      settled.map Entry.unattributed = entries.map Entry.unattributed ∧
      attributeMoves settled = .ok (settled, notices) := by
  refine ⟨⟨_, reconcile_eq_ok old new hierarchy suppress, ?_⟩, fun entries => ?_⟩
  · intro entry member change told changed
    obtain ⟨before, after, altered, rfl⟩ := relocated_of_mem member changed
    cases told
    refine ⟨⟨before, altered.beforeMember, altered.between?_eq⟩, fun name => ?_,
      fun loses target carries => ?_⟩
    · exact movedTo_iff_carriers before after name
    · exact identity_ne_of_carriers member loses carries
  · refine ⟨_, _, attributeMoves_eq_ok entries, ?_, attributeMoves_settled entries⟩
    simp [Function.comp_def]

end ApiSurface
