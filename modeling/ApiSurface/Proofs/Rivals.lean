import ApiSurface.Proofs.Indifference
import ApiSurface.Proofs.Parentage
import ApiSurface.Proofs.Suppression

/-! Rival parents. Types of one name can declare different parents, of which the last one counts, so
that what a comparison without a given hierarchy tells may hang on the order of the elements. -/

namespace ApiSurface

/-- Both comparisons tell the same, or both fail. -/
def Comparison.SameOutcome (left right : Traced Comparison) : Prop :=
  match left.result, right.result with
  | .ok first, .ok second => first.entries = second.entries ∧ first.summary = second.summary ∧
      first.breakingSummary = second.breakingSummary
  | .error _, .error _ => True
  | _, _ => False

namespace Snapshot

/-- Two orders of a version are refused both or neither, and from every type they lead to the same
ones of the types that members stand in. -/
structure SameLineage (left right : Snapshot) : Prop where
  refused : left.Misdeclares ↔ right.Misdeclares
  ancestors : ¬ left.Misdeclares → ∀ member ∈ left.elements, member.kind.isMember = true →
    ∀ ancestor, member.containerName? = some ancestor → ∀ type,
      (Hierarchy.ofSnapshot left).Climbs type ancestor ↔
        (Hierarchy.ofSnapshot right).Climbs type ancestor

/-- No two types of one name declare different parents. -/
def DeclaresAlike (snapshot : Snapshot) : Prop :=
  ∀ first ∈ snapshot.elements, ∀ second ∈ snapshot.elements, ∀ name parent other,
    first.Declares name parent → second.Declares name other → parent = other

end Snapshot

section Hierarchies

variable {old new : Snapshot} {left right : Hierarchy}

theorem isReparented_eq_of_above (suppress : Bool)
    (same : ∀ heir ∈ new.elements, heir.kind.isMember = true → ∀ member,
      left.Above heir member ↔ right.Above heir member) (member : Element) :
    isReparented left (newEntries old new suppress) member =
      isReparented right (newEntries old new suppress) member := by
  rw [Bool.eq_iff_iff, isReparented_iff_above, isReparented_iff_above]
  refine and_congr_right fun _ => exists_congr fun heir => ?_
  refine and_congr_right fun among => and_congr_right fun isMember => and_congr_right fun _ => ?_
  have fresh := (mem_map_newEntries_iff old new suppress heir).mp among
  exact same heir fresh.member isMember member

/-- A hierarchy matters to a report only by what is above the members of the new version. -/
theorem entries_eq_of_above (suppress : Bool)
    (same : ∀ heir ∈ new.elements, heir.kind.isMember = true → ∀ member,
      left.Above heir member ↔ right.Above heir member) :
    (reportOf old new left suppress).entries = (reportOf old new right suppress).entries := by
  have removed : removals old new left suppress = removals old new right suppress := by
    simp only [removals, isReparented_eq_of_above suppress same]
  simp only [reportOf, oldSide, removed]

end Hierarchies

section Probe

variable (snapshot : Snapshot) (heir : Element) (type : Text)

/-- A member with the name of another one, in a type of any name that the version does not know. Its
path is longer than all that are known. -/
def probe : Element := ⟨{
  kind := heir.kind
  name := heir.name
  container := ⟨.interfaceType, type⟩ :: snapshot.identities.flatten },
  heir.named, fun _ => List.cons_ne_nil _ _⟩

theorem probe_unknown : (probe snapshot heir type).identity ∉ snapshot.identities := by
  intro known
  have short := (List.sublist_flatten_of_mem known).length_le
  simp only [probe, Element.identity, List.length_cons] at short
  omega

/-- A version that has everything but one member, and its probe. -/
def probed : Snapshot where
  elements := probe snapshot heir type :: snapshot.elements.filter (· ≠ heir)
  distinct := by
    rw [List.map_cons, List.nodup_cons]
    refine ⟨fun known => probe_unknown snapshot heir type ?_, ?_⟩
    · exact (List.filter_sublist.map _).subset known
    · exact snapshot.distinct.sublist (List.filter_sublist.map _)

theorem mem_probed_iff (element : Element) :
    element ∈ (probed snapshot heir type).elements ↔
      element = probe snapshot heir type ∨ element ∈ snapshot.elements ∧ element ≠ heir := by
  simp [probed]

theorem missing_probed_iff (element : Element) :
    Missing (probed snapshot heir type) snapshot element ↔ element = probe snapshot heir type := by
  constructor
  · rintro ⟨member, absent⟩
    rcases (mem_probed_iff snapshot heir type element).mp member with same | ⟨known, _⟩
    · exact same
    · exact absurd (List.mem_map_of_mem known) absent
  · rintro rfl
    exact ⟨(mem_probed_iff snapshot heir type _).mpr (.inl rfl), probe_unknown snapshot heir type⟩

variable {snapshot heir}

theorem fresh_probed_iff (among : heir ∈ snapshot.elements) (element : Element) :
    Fresh (probed snapshot heir type) snapshot false element ↔ element = heir := by
  have apart {other : Element} (known : other ∈ snapshot.elements) (different : other ≠ heir) :
      other ∈ (probed snapshot heir type).elements :=
    (mem_probed_iff snapshot heir type other).mpr (.inr ⟨known, different⟩)
  constructor
  · rintro (added | ⟨before, altered⟩)
    · by_contra different
      exact added.absent (List.mem_map_of_mem (apart added.member different))
    · rcases (mem_probed_iff snapshot heir type before).mp altered.beforeMember with
        rfl | ⟨known, _⟩
      · exact absurd (altered.same ▸ List.mem_map_of_mem altered.afterMember)
          (probe_unknown snapshot heir type)
      · exact absurd (Element.eq_of_identity_eq snapshot.distinct known altered.afterMember
          altered.same) altered.different
  · rintro rfl
    refine .inl ⟨among, fun known => ?_, by simp⟩
    obtain ⟨other, member, same⟩ := List.mem_map.mp known
    rcases (mem_probed_iff snapshot element type other).mp member with rfl | ⟨known, different⟩
    · exact probe_unknown snapshot element type (same ▸ List.mem_map_of_mem among)
    · exact different (Element.eq_of_identity_eq snapshot.distinct known among same)

/-- The probe is reported as removed unless its type lies below the one that the member stands in. -/
theorem reported_probe_iff (among : heir ∈ snapshot.elements) (isMember : heir.kind.isMember = true)
    {ancestor : Text} (inside : heir.containerName? = some ancestor) (hierarchy : Hierarchy) :
    ⟨probe snapshot heir type, some (.removed heir.kind)⟩ ∈
        (reportOf (probed snapshot heir type) snapshot hierarchy false).entries ↔
      ¬ hierarchy.Climbs type ancestor := by
  have missing := (missing_probed_iff snapshot heir type _).mpr rfl
  have outermost : Outermost (Removed (probed snapshot heir type) snapshot hierarchy false)
      (probe snapshot heir type) := by
    intro outer removed within
    rw [(missing_probed_iff snapshot heir type outer).mp removed.missing] at within
    simpa [Element.identity] using congrArg List.length within
  have moved : Moved (probed snapshot heir type) snapshot hierarchy false
      (probe snapshot heir type) ↔ hierarchy.Climbs type ancestor := by
    constructor
    · rintro ⟨_, _, other, fresh, _, _, above⟩
      rw [(fresh_probed_iff type among other).mp fresh] at above
      obtain ⟨place, below, isPlace, isBelow, path⟩ := above
      cases inside.symm.trans isPlace
      cases isBelow
      exact path
    · intro path
      exact ⟨missing, isMember, heir, (fresh_probed_iff type among heir).mpr rfl, isMember, rfl,
        ancestor, type, inside, rfl, path⟩
  rw [mem_entries_iff_reported, ← moved]
  refine (reported_removed_iff _ _ hierarchy false (probe snapshot heir type)).trans ?_
  constructor
  · rintro ⟨removed, _⟩
    exact removed.stays
  · intro stays
    exact ⟨⟨missing, stays⟩, outermost⟩

end Probe

section Outcome

variable {new newAgain : Snapshot}

theorem exists_failure_iff_misdeclares (old new : Snapshot) (policy : Policy) :
    (∃ failure, (Comparison.ofSnapshots old new none policy).result = .error failure) ↔
      new.Misdeclares := by
  rw [Comparison.ofSnapshots_none, Comparison.exists_failure_iff,
    Hierarchy.exists_validate_ofSnapshot_error_iff]

theorem result_of_declares (declares : ¬ new.Misdeclares) (old : Snapshot) (policy : Policy) :
    (Comparison.ofSnapshots old new none policy).result = .ok (Comparison.ofEntries old new policy
      (reportOf old new (.ofSnapshot new) policy.suppressNewDeprecated).entries) := by
  have accepted : (Hierarchy.ofSnapshot new).validate new = .ok () := by
    rw [← Hierarchy.exists_validate_ofSnapshot_error_iff] at declares
    cases validated : (Hierarchy.ofSnapshot new).validate new with
    | error fault => exact absurd ⟨fault, validated⟩ declares
    | ok done => rfl
  exact ofSnapshots_result accepted old policy

theorem sameOutcome_iff (old oldAgain : Snapshot) (policy : Policy) :
    Comparison.SameOutcome (Comparison.ofSnapshots old new none policy)
        (Comparison.ofSnapshots oldAgain newAgain none policy) ↔
      (new.Misdeclares ↔ newAgain.Misdeclares) ∧ (¬ new.Misdeclares →
        (reportOf old new (.ofSnapshot new) policy.suppressNewDeprecated).entries =
          (reportOf oldAgain newAgain (.ofSnapshot newAgain)
            policy.suppressNewDeprecated).entries) := by
  unfold Comparison.SameOutcome
  by_cases bad : new.Misdeclares
  · obtain ⟨failure, failed⟩ := (exists_failure_iff_misdeclares old new policy).mpr bad
    by_cases badAgain : newAgain.Misdeclares
    · obtain ⟨again, failedAgain⟩ :=
        (exists_failure_iff_misdeclares oldAgain newAgain policy).mpr badAgain
      simp [failed, failedAgain, bad, badAgain]
    · simp [failed, result_of_declares badAgain, bad, badAgain]
  · by_cases badAgain : newAgain.Misdeclares
    · obtain ⟨again, failedAgain⟩ :=
        (exists_failure_iff_misdeclares oldAgain newAgain policy).mpr badAgain
      simp [failedAgain, result_of_declares bad, bad, badAgain]
    · simp only [result_of_declares bad, result_of_declares badAgain, bad, badAgain,
        Comparison.ofEntries, not_false_eq_true, true_imp_iff, true_and]
      constructor
      · exact And.left
      · intro same
        rw [same]
        exact ⟨rfl, rfl, rfl⟩

theorem entries_eq_of_lineage {old oldAgain : Snapshot} (suppress : Bool)
    (oldReordered : old.elements.Perm oldAgain.elements)
    (newReordered : new.elements.Perm newAgain.elements) (lineage : new.SameLineage newAgain)
    (declares : ¬ new.Misdeclares) :
    (reportOf old new (.ofSnapshot new) suppress).entries =
      (reportOf oldAgain newAgain (.ofSnapshot newAgain) suppress).entries := by
  have above : ∀ heir ∈ new.elements, heir.kind.isMember = true → ∀ member,
      (Hierarchy.ofSnapshot new).Above heir member ↔
        (Hierarchy.ofSnapshot newAgain).Above heir member := by
    intro heir among isMember member
    refine exists_congr fun ancestor => exists_congr fun type => and_congr_right fun inside => ?_
    exact and_congr_right fun _ =>
      lineage.ancestors declares heir among isMember ancestor inside type
  rw [entries_eq_of_above suppress above]
  exact entries_eq_of_perm oldReordered newReordered (List.Perm.refl _) suppress

/-- A policy that reports everything. -/
def Policy.full : Policy := { Policy.standard with suppressNewDeprecated := false }

theorem sameLineage_of_sameOutcome (reordered : new.elements.Perm newAgain.elements)
    (same : ∀ old oldAgain : Snapshot, old.elements.Perm oldAgain.elements → ∀ policy,
      Comparison.SameOutcome (Comparison.ofSnapshots old new none policy)
        (Comparison.ofSnapshots oldAgain newAgain none policy)) :
    new.SameLineage newAgain where
  refused := by
    have outcome := same .empty .empty (List.Perm.refl _) .full
    exact ((sameOutcome_iff _ _ _).mp outcome).1
  ancestors := by
    intro declares member among isMember ancestor inside type
    have outcome := same (probed new member type) (probed new member type) (List.Perm.refl _) .full
    have entries : (reportOf (probed new member type) new (.ofSnapshot new) false).entries =
        (reportOf (probed new member type) new (.ofSnapshot newAgain) false).entries :=
      (((sameOutcome_iff _ _ _).mp outcome).2 declares).trans
        (entries_eq_of_perm (List.Perm.refl _) reordered.symm (List.Perm.refl _) false)
    -- The probe tells by being reported whether its type is below the one of the member.
    have here := reported_probe_iff type among isMember inside (.ofSnapshot new)
    have there := reported_probe_iff type among isMember inside (.ofSnapshot newAgain)
    rw [← entries] at there
    exact not_iff_not.mp (here.symm.trans there)

theorem exists_declaresLast {elements : List Element} {name parent : Text} {element : Element}
    (member : element ∈ elements) (declares : element.Declares name parent) :
    ∃ last, DeclaresLast elements name last := by
  induction elements using List.reverseRecOn with
  | nil => simp at member
  | append_singleton earlier final ih =>
      simp only [declaresLast_concat]
      by_cases speaks : ∃ last, final.Declares name last
      · obtain ⟨last, declaresToo⟩ := speaks
        exact ⟨last, .inl declaresToo⟩
      · rcases List.mem_append.mp member with inEarlier | isFinal
        · obtain ⟨last, declaresLast⟩ := ih inEarlier
          exact ⟨last, .inr ⟨not_exists.mp speaks, declaresLast⟩⟩
        · exact absurd ⟨parent, List.mem_singleton.mp isFinal ▸ declares⟩ speaks

theorem Snapshot.DeclaresAlike.declaresLast_iff (alike : new.DeclaresAlike) (name parent : Text) :
    DeclaresLast new.elements name parent ↔
      ∃ element ∈ new.elements, element.Declares name parent := by
  constructor
  · rintro ⟨before, element, after, split, declares, _⟩
    exact ⟨element, by simp [split], declares⟩
  · rintro ⟨element, member, declares⟩
    obtain ⟨last, declaresLast⟩ := exists_declaresLast member declares
    obtain ⟨before, other, after, split, declaresToo, silent⟩ := declaresLast
    have same : parent = last :=
      alike element member other (by simp [split]) name parent last declares declaresToo
    exact ⟨before, other, after, split, same ▸ declaresToo, silent⟩

theorem Snapshot.DeclaresAlike.reordered (alike : new.DeclaresAlike)
    (reordered : new.elements.Perm newAgain.elements) : newAgain.DeclaresAlike := by
  intro first firstMember second secondMember
  exact alike first (reordered.mem_iff.mpr firstMember) second
    (reordered.mem_iff.mpr secondMember)

theorem sameLineage_of_declaresAlike (reordered : new.elements.Perm newAgain.elements)
    (alike : new.DeclaresAlike) : new.SameLineage newAgain := by
  have last (name parent : Text) : DeclaresLast new.elements name parent ↔
      DeclaresLast newAgain.elements name parent := by
    rw [alike.declaresLast_iff, (alike.reordered reordered).declaresLast_iff]
    simp only [reordered.mem_iff]
  have parents (type parent : Text) : (Hierarchy.ofSnapshot new).parent? type = some parent ↔
      (Hierarchy.ofSnapshot newAgain).parent? type = some parent := by
    rw [Hierarchy.parent?_ofSnapshot_iff, Hierarchy.parent?_ofSnapshot_iff, last]
  refine ⟨?_, fun _ _ _ _ ancestor _ type => ⟨?_, ?_⟩⟩
  · simp only [Snapshot.Misdeclares, last]
  · exact Hierarchy.Climbs.mono fun type parent => (parents type parent).mp
  · exact Hierarchy.Climbs.mono fun type parent => (parents type parent).mpr

end Outcome

/-- What comparisons with a version tell depends on the order of its elements exactly if its types
lead to different ancestors of its members in the two orders, or are refused in one of them only. That
is never so where types of one name declare the same parent. The order of the old elements never
matters. -/
theorem order_irrelevant_iff {new newAgain : Snapshot}
    (reordered : new.elements.Perm newAgain.elements) :
    ((∀ old oldAgain : Snapshot, old.elements.Perm oldAgain.elements → ∀ policy,
      Comparison.SameOutcome (Comparison.ofSnapshots old new none policy)
        (Comparison.ofSnapshots oldAgain newAgain none policy)) ↔ new.SameLineage newAgain) ∧
    (new.DeclaresAlike → new.SameLineage newAgain) := by
  refine ⟨⟨sameLineage_of_sameOutcome reordered, ?_⟩, sameLineage_of_declaresAlike reordered⟩
  intro lineage old oldAgain oldReordered policy
  rw [sameOutcome_iff]
  exact ⟨lineage.refused, fun declares =>
    entries_eq_of_lineage policy.suppressNewDeprecated oldReordered reordered lineage declares⟩

/-- A class and an interface of one name, of which only the interface extends the base. -/
def twinClass : Element := ⟨{
  kind := .classType
  name := "p.Twin"
  container := [⟨.package, "p"⟩]
  declaredType := some "p.Other" }, by decide, by decide⟩

def twinInterface : Element := ⟨{
  kind := .interfaceType
  name := "p.Twin"
  container := [⟨.package, "p"⟩]
  declaredType := some "p.Base" }, by decide, by decide⟩

/-- The method is in the interface. -/
def ownRun : Snapshot := ⟨none, [runIn "p.Twin", twinClass, twinInterface], by decide⟩

/-- The method is in the base, in two orders. -/
def classLast : Snapshot := ⟨none, [runIn "p.Base", twinInterface, twinClass], by decide⟩

def interfaceLast : Snapshot := ⟨none, [runIn "p.Base", twinClass, twinInterface], by decide⟩

theorem twins_reordered : classLast.elements.Perm interfaceLast.elements :=
  .cons _ (.swap _ _ _)

theorem order_irrelevant_iff_of_twins :
    classLast.elements.Perm interfaceLast.elements ∧
      ((∀ old oldAgain : Snapshot, old.elements.Perm oldAgain.elements → ∀ policy,
        Comparison.SameOutcome (Comparison.ofSnapshots old classLast none policy)
          (Comparison.ofSnapshots oldAgain interfaceLast none policy)) ↔
        classLast.SameLineage interfaceLast) ∧
      (classLast.DeclaresAlike → classLast.SameLineage interfaceLast) :=
  ⟨twins_reordered, order_irrelevant_iff twins_reordered⟩

theorem twins_validate : (Hierarchy.ofSnapshot classLast).validate classLast = .ok () ∧
    (Hierarchy.ofSnapshot interfaceLast).validate interfaceLast = .ok () := ⟨rfl, rfl⟩

/-- A method that was pulled up is reported as removed if the class comes last, and counts as moved
if the interface does. -/
theorem pulled_up_method_lost_behind_twin :
    classLast.elements.Perm interfaceLast.elements ∧
      ¬ Comparison.SameOutcome (Comparison.ofSnapshots ownRun classLast none .standard)
        (Comparison.ofSnapshots ownRun interfaceLast none .standard) := by
  have missing : Missing ownRun classLast (runIn "p.Twin") := ⟨by decide, by decide⟩
  have missingAgain : Missing ownRun interfaceLast (runIn "p.Twin") := ⟨by decide, by decide⟩
  have stays : ¬ Moved ownRun classLast (.ofSnapshot classLast) true (runIn "p.Twin") := by
    rw [← isReparented_iff_moved missing]
    decide
  have moves : Moved ownRun interfaceLast (.ofSnapshot interfaceLast) true (runIn "p.Twin") :=
    (isReparented_iff_moved missingAgain _).mp (by decide)
  have outermost : Outermost (Removed ownRun classLast (.ofSnapshot classLast) true)
      (runIn "p.Twin") := by
    intro outer removed inside
    refine removed.missing.absent ?_
    rw [← inside]
    decide
  refine ⟨twins_reordered, fun outcome => ?_⟩
  rw [Comparison.SameOutcome, Comparison.ofSnapshots_none, Comparison.ofSnapshots_none,
    ofSnapshots_result twins_validate.1, ofSnapshots_result twins_validate.2] at outcome
  have same : (reportOf ownRun classLast (.ofSnapshot classLast) true).entries =
      (reportOf ownRun interfaceLast (.ofSnapshot interfaceLast) true).entries := outcome.1
  have listed := (mem_entries_iff_reported ownRun classLast (.ofSnapshot classLast) true _).mpr
    ((reported_removed_iff _ _ _ true (runIn "p.Twin")).mpr ⟨⟨missing, stays⟩, outermost⟩)
  rw [same, mem_entries_iff_reported, reported_removed_iff] at listed
  exact listed.1.stays moves

end ApiSurface
