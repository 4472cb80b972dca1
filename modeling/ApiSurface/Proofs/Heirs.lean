import ApiSurface.Proofs.Enclosure
import ApiSurface.Proofs.Suppression

/-! What hides a removal. A missing member counts as moved if a member of its name is new in its type
or further up, but also if one that has always been there was altered. -/

namespace ApiSurface

/-- A member has an heir of some kind: one of its name, in its type or in an ancestor of that. -/
structure Hierarchy.HasHeir (hierarchy : Hierarchy) (among : Element → Prop) (member : Element) :
    Prop where
  isMember : member.kind.isMember = true
  livesOn : ∃ heir, among heir ∧ heir.kind.isMember = true ∧ heir.name = member.name ∧
    hierarchy.Above heir member

/-- The new version of an altered element. -/
def AlteredTo (old new : Snapshot) (after : Element) : Prop :=
  ∃ before, Altered old new before after

/-- An element without counterpart is taken for a member that moved, so that nothing reports it. -/
structure Pairing.CountsAsMoved (pairing : Pairing) (hierarchy : Hierarchy) (member : Element) :
    Prop where
  leftover : member ∈ pairing.leftovers
  reparented : isReparented hierarchy pairing.entries member = true

/-- Whatever counts as moved has an heir of some kind. -/
def Pairing.MovesOnlyTo (pairing : Pairing) (hierarchy : Hierarchy) (among : Element → Prop) : Prop :=
  ∀ member, pairing.CountsAsMoved hierarchy member → hierarchy.HasHeir among member

theorem Hierarchy.HasHeir.mono {hierarchy : Hierarchy} {small large : Element → Prop}
    (inside : ∀ element, small element → large element) {member : Element}
    (inherited : hierarchy.HasHeir small member) : hierarchy.HasHeir large member := by
  obtain ⟨heir, among, rest⟩ := inherited.livesOn
  exact ⟨inherited.isMember, heir, inside heir among, rest⟩

section Heirs

variable {old new : Snapshot} {suppress : Bool}

theorem isReparented_iff_hasHeir (hierarchy : Hierarchy) (member : Element) :
    isReparented hierarchy (newEntries old new suppress) member = true ↔
      hierarchy.HasHeir (Added old new suppress) member ∨
        hierarchy.HasHeir (AlteredTo old new) member := by
  rw [isReparented_iff_above]
  simp only [mem_map_newEntries_iff]
  constructor
  · rintro ⟨isMember, heir, added | altered, rest⟩
    · exact .inl ⟨isMember, heir, added, rest⟩
    · exact .inr ⟨isMember, heir, altered, rest⟩
  · rintro (⟨isMember, heir, added, rest⟩ | ⟨isMember, heir, altered, rest⟩)
    · exact ⟨isMember, heir, .inl added, rest⟩
    · exact ⟨isMember, heir, .inr altered, rest⟩

theorem countsAsMoved_iff {pairing : Pairing}
    (paired : pairElements suppress (prune old new) = .ok pairing) (hierarchy : Hierarchy)
    (member : Element) :
    pairing.CountsAsMoved hierarchy member ↔ Missing old new member ∧
      (hierarchy.HasHeir (Added old new suppress) member ∨
        hierarchy.HasHeir (AlteredTo old new) member) := by
  rw [pairElements_prune] at paired
  cases paired
  rw [← mem_leftovers_iff, ← isReparented_iff_hasHeir]
  constructor
  · rintro ⟨leftover, reparented⟩
    exact ⟨leftover, reparented⟩
  · rintro ⟨leftover, reparented⟩
    exact ⟨leftover, reparented⟩

theorem countsAsMoved_iff_moved {pairing : Pairing}
    (paired : pairElements suppress (prune old new) = .ok pairing) (hierarchy : Hierarchy)
    (member : Element) :
    pairing.CountsAsMoved hierarchy member ↔ Moved old new hierarchy suppress member := by
  rw [countsAsMoved_iff paired, ← isReparented_iff_hasHeir]
  constructor
  · rintro ⟨missing, reparented⟩
    exact (isReparented_iff_moved missing hierarchy).mp reparented
  · intro moved
    exact ⟨moved.missing, (isReparented_iff_moved moved.missing hierarchy).mpr moved⟩

theorem movesOnlyTo_iff {pairing : Pairing}
    (paired : pairElements suppress (prune old new) = .ok pairing) (hierarchy : Hierarchy)
    {among : Element → Prop} (arrivals : ∀ element, Added old new suppress element → among element) :
    pairing.MovesOnlyTo hierarchy among ↔ ∀ member, Missing old new member →
      hierarchy.HasHeir (AlteredTo old new) member → hierarchy.HasHeir among member := by
  simp only [Pairing.MovesOnlyTo, countsAsMoved_iff paired]
  constructor
  · intro only member missing altered
    exact only member ⟨missing, .inr altered⟩
  · rintro only member ⟨missing, arrived | altered⟩
    -- What was added is of the wanted kind anyway: only what was altered can make a difference.
    · exact arrived.mono arrivals
    · exact only member missing altered

end Heirs

/-- A removal is hidden exactly by members that were added or altered. That no removal is hidden by
alterations alone is the case exactly if each missing member whose name was altered in its type or
further up has a member of that name there which is new as well. -/
theorem only_moves_hide_removals_iff (old new : Snapshot) (hierarchy : Hierarchy)
    (suppress : Bool) :
    ∃ pairing report,
      pairElements suppress (prune old new) = .ok pairing ∧
      reconcile old new hierarchy suppress = .ok report ∧
      (∀ member, pairing.CountsAsMoved hierarchy member → ¬ report.Lists .removed member) ∧
      (∀ member, pairing.CountsAsMoved hierarchy member ↔ Missing old new member ∧
        (hierarchy.HasHeir (Added old new suppress) member ∨
          hierarchy.HasHeir (AlteredTo old new) member)) ∧
      (pairing.MovesOnlyTo hierarchy (Missing new old) ↔
        ∀ member, Missing old new member → hierarchy.HasHeir (AlteredTo old new) member →
          hierarchy.HasHeir (Missing new old) member) := by
  have paired := pairElements_prune old new suppress
  refine ⟨_, _, paired, reconcile_eq_ok old new hierarchy suppress, ?_, ?_, ?_⟩
  · intro member counts listed
    obtain ⟨removed, _⟩ := (lists_removed_iff old new hierarchy suppress member).mp listed
    exact removed.stays ((countsAsMoved_iff_moved paired hierarchy member).mp counts)
  · exact countsAsMoved_iff paired hierarchy
  · exact movesOnlyTo_iff paired hierarchy fun element added => ⟨added.member, added.absent⟩

/-- A method that is gone counts as moved to the one that it overrode, once that is deprecated. -/
theorem overriding_method_hidden_by_deprecation :
    ∃ pairing report member,
      pairElements true (prune (family [runMethod] [runMethod]) (family [deprecatedRunMethod] [])) =
        .ok pairing ∧
      reconcile (family [runMethod] [runMethod]) (family [deprecatedRunMethod] [])
        (Hierarchy.ofPairs [("p.Child", "p.Parent")]) true = .ok report ∧
      Missing (family [runMethod] [runMethod]) (family [deprecatedRunMethod] []) member ∧
      pairing.CountsAsMoved (Hierarchy.ofPairs [("p.Child", "p.Parent")]) member ∧
      ¬ pairing.MovesOnlyTo (Hierarchy.ofPairs [("p.Child", "p.Parent")])
        (Missing (family [deprecatedRunMethod] []) (family [runMethod] [runMethod])) ∧
      ¬ report.Lists .removed member := by
  let old := family [runMethod] [runMethod]
  let new := family [deprecatedRunMethod] []
  let hierarchy := Hierarchy.ofPairs [("p.Child", "p.Parent")]
  let run : Element := ⟨{
    kind := .method
    name := "run"
    container := [⟨.interfaceType, "p.Child"⟩, ⟨.package, "p"⟩] }, by decide, by decide⟩
  have missing : Missing old new run := ⟨by decide, by decide⟩
  have moved : Moved old new hierarchy true run :=
    (isReparented_iff_moved missing hierarchy).mp (by decide)
  have present : ∀ element ∈ new.elements, element.identity ∈ old.identities := by decide
  have paired := pairElements_prune old new true
  have counts := (countsAsMoved_iff_moved paired hierarchy run).mpr moved
  refine ⟨_, _, run, paired, reconcile_eq_ok old new hierarchy true, missing, counts, ?_, ?_⟩
  · intro only
    obtain ⟨heir, arrived, _⟩ := (only run counts).livesOn
    exact arrived.absent (present heir arrived.member)
  · intro listed
    obtain ⟨removed, _⟩ := (lists_removed_iff old new hierarchy true run).mp listed
    exact removed.stays moved

end ApiSurface
