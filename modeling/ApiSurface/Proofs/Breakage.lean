import ApiSurface.Comparison
import ApiSurface.Proofs.Coverage
import ApiSurface.Proofs.Nesting

/-! Nothing breaking stays hidden: however elements are left out of a report, a breaking summary is
missing only if every old element is kept as it was or has moved. -/

namespace ApiSurface

/-- The version has the element with the same type, and not protected if it was public. -/
def Snapshot.Keeps (snapshot : Snapshot) (before : Element) : Prop :=
  ∃ after ∈ snapshot.elements, after.identity = before.identity ∧
    after.declaredType = before.declaredType ∧
      ¬ (before.isPublic = true ∧ after.isPublic = false)

theorem breakingSummary?_eq_none_iff (entries : List Entry) (limit : Int) :
    breakingSummary? entries limit = none ↔ ∀ entry ∈ entries, entry.isBreaking = false := by
  have counted : (entries.filter (·.isBreaking)).length = 0 ↔
      ∀ entry ∈ entries, entry.isBreaking = false := by
    simp [List.filter_eq_nil_iff]
  rw [← counted, breakingSummary?]
  split
  next nothing => simp [nothing]
  next something => simp [something]

theorem Entry.unattributed_isBreaking (entry : Entry) :
    entry.unattributed.isBreaking = entry.isBreaking := by
  obtain ⟨element, change⟩ := entry
  cases change <;> rfl

theorem isBreaking_compared_iff (before after : Element) :
    (Entry.mk after (some (.compared before after))).isBreaking = false ↔
      after.declaredType = before.declaredType ∧
        ¬ (before.isPublic = true ∧ after.isPublic = false) := by
  have types := Change.differing_none_iff before.declaredType after.declaredType
  have flag : (Change.flipped before.isPublic after.isPublic == some false) = false ↔
      ¬ (before.isPublic = true ∧ after.isPublic = false) := by
    cases before.isPublic <;> cases after.isPublic <;> decide
  rw [eq_comm (a := after.declaredType), ← types, ← flag]
  simp only [Entry.isBreaking, Change.compared]
  cases (Change.differing before.declaredType after.declaredType).1 <;>
    cases (Change.differing before.declaredType after.declaredType).2 <;> simp

theorem isBreaking_of_removed {entry : Entry} (removed : entry.status = .removed) :
    entry.isBreaking = true := by
  obtain ⟨element, change⟩ := entry
  cases change with
  | none => contradiction
  | some change =>
      simp only [Entry.status] at removed
      split at removed
      next gone => simp [Entry.isBreaking, gone]
      next => contradiction

theorem Report.not_lists_removed {report : Report}
    (harmless : ∀ entry ∈ report.entries, entry.isBreaking = false) (element : Element) :
    ¬ report.Lists .removed element := by
  rintro ⟨entry, member, _, removed⟩
  have breaking := isBreaking_of_removed removed
  rw [harmless entry member] at breaking
  contradiction

theorem no_breaking_iff_due {old new : Snapshot} {hierarchy : Hierarchy} {suppress : Bool} :
    (∀ entry ∈ (reportOf old new hierarchy suppress).entries, entry.isBreaking = false) ↔
      ∀ entry, Due old new hierarchy suppress entry → entry.isBreaking = false := by
  constructor
  · intro harmless entry due
    obtain ⟨reported, member, rfl⟩ := exists_mem_of_due due
    rw [Entry.unattributed_isBreaking]
    exact harmless reported member
  · intro harmless entry member
    rw [← Entry.unattributed_isBreaking]
    exact harmless _ (due_of_mem member)

/-- Where every old container is an element itself, no altered element stands in an added one. -/
theorem Altered.outermost {old new : Snapshot} {suppress : Bool} {before after : Element}
    (altered : Altered old new before after) (nested : old.Nested) :
    Outermost (Added old new suppress) after := by
  intro outer added inside
  have sameContainer := ((Element.identity_eq_iff before after).mp altered.same).2.2
  rcases nested before altered.beforeMember with top | contained
  · exact outer.identity_ne_nil (inside ▸ sameContainer ▸ top)
  · rw [sameContainer, inside] at contained
    exact added.absent contained

theorem harmless_of_due {old new : Snapshot} {hierarchy : Hierarchy} {suppress : Bool}
    (kept : ∀ before ∈ old.elements, new.Keeps before ∨ Moved old new hierarchy suppress before)
    {entry : Entry} (due : Due old new hierarchy suppress entry) : entry.isBreaking = false := by
  cases due with
  | added _ _ => rfl
  | @changed before after change altered _ compared =>
      rw [altered.between?_eq, Option.some.injEq] at compared
      subst compared
      rcases kept before altered.beforeMember with ⟨other, otherMember, same, unbroken⟩ | moved
      · have equal : other = after := Element.eq_of_identity_eq new.distinct otherMember
          altered.afterMember (same.trans altered.same)
        subst equal
        exact (isBreaking_compared_iff before other).mpr unbroken
      · have present : before.identity ∈ new.identities :=
          altered.same ▸ List.mem_map_of_mem altered.afterMember
        exact absurd present moved.missing.absent
  | @removed element removed _ =>
      rcases kept element removed.missing.member with ⟨after, afterMember, same, _⟩ | moved
      · exact absurd (same ▸ List.mem_map_of_mem afterMember) removed.missing.absent
      · exact absurd moved removed.stays

theorem kept_or_moved {old new : Snapshot} {hierarchy : Hierarchy} {suppress : Bool}
    (nested : old.Nested)
    (harmless : ∀ entry ∈ (reportOf old new hierarchy suppress).entries, entry.isBreaking = false)
    {before : Element} (member : before ∈ old.elements) :
    new.Keeps before ∨ Moved old new hierarchy suppress before := by
  by_cases present : before.identity ∈ new.identities
  · obtain ⟨after, afterMember, same⟩ := List.mem_map.mp present
    left
    by_cases equal : before = after
    · refine ⟨before, equal ▸ afterMember, rfl, rfl, ?_⟩
      rintro ⟨wasPublic, isProtected⟩
      simp [wasPublic] at isProtected
    · have altered : Altered old new before after := ⟨member, afterMember, same.symm, equal⟩
      have due : Due old new hierarchy suppress ⟨after, some (.compared before after)⟩ :=
        Due.changed altered (altered.outermost nested) altered.between?_eq
      have unbroken := no_breaking_iff_due.mp harmless _ due
      exact ⟨after, afterMember, same, (isBreaking_compared_iff before after).mp unbroken⟩
  · right
    by_contra stays
    -- a removal that the report leaves out stands inside one that it lists, which breaks as well
    rcases removed_covered ⟨⟨member, present⟩, stays⟩ with listed | ⟨outer, listed, _⟩
    · exact Report.not_lists_removed harmless before listed
    · exact Report.not_lists_removed harmless outer listed

theorem ofSnapshots_result {new : Snapshot} {hierarchy : Hierarchy}
    (accepted : hierarchy.validate new = .ok ()) (old : Snapshot) (policy : Policy) :
    (Comparison.ofSnapshots old new (some hierarchy) policy).result = .ok (Comparison.ofEntries
      old new policy (reportOf old new hierarchy policy.suppressNewDeprecated).entries) := by
  have checked : Comparison.checkedHierarchy new (some hierarchy) = .ok hierarchy := by
    simp [Comparison.checkedHierarchy, accepted, bind, Except.bind, pure, Except.pure]
  simp [Comparison.ofSnapshots, Comparison.run, checked, reconcile_eq_ok, bind, pure,
    Traced.andThen, Traced.ofFault, Traced.note, Except.mapError]

/-- For an old version that was read and a hierarchy that was accepted for the new one, a breaking
summary is missing exactly when every old element is kept as it was or has moved. -/
theorem no_hidden_breakage {source : Text} {value : Value} {old new : Snapshot}
    {hierarchy : Hierarchy} (read : Snapshot.ofValue source value = .ok old)
    (accepted : hierarchy.validate new = .ok ()) (policy : Policy) :
    ∃ comparison,
      (Comparison.ofSnapshots old new (some hierarchy) policy).result = .ok comparison ∧
      (comparison.breakingSummary = none ↔ ∀ before ∈ old.elements, new.Keeps before ∨
        Moved old new hierarchy policy.suppressNewDeprecated before) := by
  refine ⟨_, ofSnapshots_result accepted old policy, ?_⟩
  rw [Comparison.ofEntries, breakingSummary?_eq_none_iff]
  constructor
  · intro harmless before member
    exact kept_or_moved (Snapshot.nested_of_ofValue read) harmless member
  · intro kept
    exact no_breaking_iff_due.mpr fun entry due => harmless_of_due kept due

/-- A package with a type and its subtype, and the members that stand in each. -/
def familyData (inParent inChild : List Value) : Value :=
  .map [("packages", .list [.map [("name", "p"), ("types", .list [
    .map [("name", "p.Parent"), ("members", .list inParent)],
    .map [("name", "p.Child"), ("members", .list inChild)]])]])]

def family (inParent inChild : List Value) : Snapshot :=
  (Snapshot.ofValue "family" (familyData inParent inChild)).toOption.getD .empty

def runMethod : Value := .map [("name", "run")]

theorem no_hidden_breakage_of_pulled_up_method :
    Snapshot.ofValue "family" (familyData [] [runMethod]) = .ok (family [] [runMethod]) ∧
      (Hierarchy.ofPairs [("p.Child", "p.Parent")]).validate (family [runMethod] []) = .ok () ∧
      ∃ comparison,
        (Comparison.ofSnapshots (family [] [runMethod]) (family [runMethod] [])
          (some (Hierarchy.ofPairs [("p.Child", "p.Parent")])) .standard).result = .ok comparison ∧
        (comparison.breakingSummary = none ↔
          ∀ before ∈ (family [] [runMethod]).elements, (family [runMethod] []).Keeps before ∨
            Moved (family [] [runMethod]) (family [runMethod] [])
              (Hierarchy.ofPairs [("p.Child", "p.Parent")]) true before) := by
  have read : Snapshot.ofValue "family" (familyData [] [runMethod]) =
      .ok (family [] [runMethod]) := rfl
  have accepted : (Hierarchy.ofPairs [("p.Child", "p.Parent")]).validate
      (family [runMethod] []) = .ok () := rfl
  exact ⟨read, accepted, no_hidden_breakage read accepted .standard⟩

end ApiSurface
