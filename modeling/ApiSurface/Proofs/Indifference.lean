import ApiSurface.Proofs.Reported

/-! A report depends on nothing but the difference of the two versions, so elements that both have
alike take no part in it. -/

namespace ApiSurface

/-- Between two pairs of versions the same elements are missing, new and altered. -/
structure SameDifference (old new otherOld otherNew : Snapshot) : Prop where
  missing : ∀ element, Missing old new element ↔ Missing otherOld otherNew element
  arrived : ∀ element, Missing new old element ↔ Missing otherNew otherOld element
  altered : ∀ before after, Altered old new before after ↔ Altered otherOld otherNew before after

namespace SameDifference

variable {old new otherOld otherNew : Snapshot} {hierarchy : Hierarchy} {suppress : Bool}
  {element before after sibling : Element}

theorem symm (same : SameDifference old new otherOld otherNew) :
    SameDifference otherOld otherNew old new :=
  ⟨fun element => (same.missing element).symm, fun element => (same.arrived element).symm,
    fun before after => (same.altered before after).symm⟩

variable (same : SameDifference old new otherOld otherNew)

include same

theorem added (added : Added old new suppress element) :
    Added otherOld otherNew suppress element := by
  rw [added_iff_missing] at added ⊢
  exact ⟨(same.arrived element).mp added.1, added.2⟩

theorem fresh (fresh : Fresh old new suppress element) :
    Fresh otherOld otherNew suppress element := by
  rcases fresh with added | ⟨before, altered⟩
  · exact .inl (same.added added)
  · exact .inr ⟨before, (same.altered before element).mp altered⟩

theorem moved (moved : Moved old new hierarchy suppress element) :
    Moved otherOld otherNew hierarchy suppress element := by
  obtain ⟨heir, fresh, rest⟩ := moved.livesOn
  exact ⟨(same.missing element).mp moved.missing, moved.isMember, heir, same.fresh fresh, rest⟩

theorem removed (removed : Removed old new hierarchy suppress element) :
    Removed otherOld otherNew hierarchy suppress element :=
  ⟨(same.missing element).mp removed.missing, fun moved => removed.stays (same.symm.moved moved)⟩

theorem carries (carries : Carries old new suppress before after sibling) :
    Carries otherOld otherNew suppress before after sibling :=
  ⟨same.fresh carries.fresh, carries.isMember, carries.beside, carries.carries⟩

theorem successor (successor : Successor old new suppress before after sibling) :
    Successor otherOld otherNew suppress before after sibling :=
  ⟨successor.isMember, same.carries successor.carries,
    fun other carries => successor.only other (same.symm.carries carries)⟩

theorem reported {entry : Entry} (reported : Reported old new hierarchy suppress entry) :
    Reported otherOld otherNew hierarchy suppress entry := by
  cases reported with
  | added added outermost =>
      exact Reported.added (same.added added) (outermost.mono fun _ => same.symm.added)
  | changed altered outermost attributed =>
      refine Reported.changed ((same.altered _ _).mp altered)
        (outermost.mono fun _ => same.symm.added) ?_
      exact (Attributed.congr (fun _ => ⟨same.successor, same.symm.successor⟩) _).mp attributed
  | removed removed outermost =>
      exact Reported.removed (same.removed removed) (outermost.mono fun _ => same.symm.removed)

theorem entries_eq (hierarchy : Hierarchy) (suppress : Bool) :
    (reportOf old new hierarchy suppress).entries =
      (reportOf otherOld otherNew hierarchy suppress).entries := by
  apply (entries_ordered old new hierarchy suppress).eq_of_mem_iff
    (entries_ordered otherOld otherNew hierarchy suppress)
  intro entry
  rw [mem_entries_iff_reported, mem_entries_iff_reported]
  exact ⟨same.reported, same.symm.reported⟩

end SameDifference

/-- One version has the elements of another and some more, which the other does not know. -/
structure Snapshot.Extends (more base : Snapshot) (shared : List Element) : Prop where
  member : ∀ element, element ∈ more.elements ↔ element ∈ base.elements ∨ element ∈ shared
  unknown : ∀ element ∈ shared, element.identity ∉ base.identities

section Shared

variable {old new oldMore newMore : Snapshot} {shared : List Element}

theorem Snapshot.Extends.mem_identities_iff {more base : Snapshot}
    (extended : more.Extends base shared) (path : Path) :
    path ∈ more.identities ↔ path ∈ base.identities ∨ path ∈ shared.map Element.identity := by
  simp only [Snapshot.identities, List.mem_map, extended.member, or_and_right, exists_or]

theorem missing_extended_iff (oldExtended : oldMore.Extends old shared)
    (newExtended : newMore.Extends new shared) (element : Element) :
    Missing old new element ↔ Missing oldMore newMore element := by
  constructor
  · rintro ⟨member, absent⟩
    refine ⟨(oldExtended.member element).mpr (.inl member), fun present => ?_⟩
    rcases (newExtended.mem_identities_iff _).mp present with inNew | inShared
    · exact absent inNew
    · obtain ⟨other, otherMember, same⟩ := List.mem_map.mp inShared
      exact oldExtended.unknown other otherMember (same ▸ List.mem_map_of_mem member)
  · rintro ⟨member, absent⟩
    rw [newExtended.mem_identities_iff, not_or] at absent
    rcases (oldExtended.member element).mp member with inOld | inShared
    · exact ⟨inOld, absent.1⟩
    · exact absurd (List.mem_map_of_mem inShared) absent.2

theorem altered_extended_iff (distinct : (shared.map Element.identity).Nodup)
    (oldExtended : oldMore.Extends old shared) (newExtended : newMore.Extends new shared)
    (before after : Element) :
    Altered old new before after ↔ Altered oldMore newMore before after := by
  constructor
  · rintro ⟨beforeMember, afterMember, same, different⟩
    exact ⟨(oldExtended.member before).mpr (.inl beforeMember),
      (newExtended.member after).mpr (.inl afterMember), same, different⟩
  · rintro ⟨beforeMember, afterMember, same, different⟩
    -- What is shared has the identity of nothing else, and of itself it has only one version.
    rcases (oldExtended.member before).mp beforeMember with inOld | beforeShared
    · rcases (newExtended.member after).mp afterMember with inNew | afterShared
      · exact ⟨inOld, inNew, same, different⟩
      · exact absurd (same ▸ List.mem_map_of_mem inOld) (oldExtended.unknown after afterShared)
    · rcases (newExtended.member after).mp afterMember with inNew | afterShared
      · exact absurd (same ▸ List.mem_map_of_mem inNew) (newExtended.unknown before beforeShared)
      · exact absurd (Element.eq_of_identity_eq distinct beforeShared afterShared same) different

theorem sameDifference_extended (distinct : (shared.map Element.identity).Nodup)
    (oldExtended : oldMore.Extends old shared) (newExtended : newMore.Extends new shared) :
    SameDifference old new oldMore newMore where
  missing := missing_extended_iff oldExtended newExtended
  arrived := missing_extended_iff newExtended oldExtended
  altered := altered_extended_iff distinct oldExtended newExtended

/-- A version can be extended by unknown elements at any places. -/
theorem exists_extended {base : Snapshot} {elements : List Element}
    (distinct : (shared.map Element.identity).Nodup)
    (unknown : ∀ element ∈ shared, element.identity ∉ base.identities)
    (inserted : elements.Perm (base.elements ++ shared)) (version : Option Text) :
    ∃ more, Snapshot.build elements version = .ok more ∧ more.Extends base shared := by
  have allDistinct : (elements.map Element.identity).Nodup := by
    rw [(inserted.map _).nodup_iff, List.map_append, List.nodup_append]
    refine ⟨base.distinct, distinct, ?_⟩
    intro path inBase other inShared same
    obtain ⟨element, member, rfl⟩ := List.mem_map.mp inShared
    exact unknown element member (same ▸ inBase)
  obtain ⟨more, built, moreElements⟩ := Snapshot.exists_build allDistinct version
  refine ⟨more, built, fun element => ?_, unknown⟩
  rw [moreElements, inserted.mem_iff, List.mem_append]

end Shared

/-- Elements that neither of two versions knows can be put into both, at any places in each, whatever
they are and wherever they stand. The report has the same entries as before. -/
theorem report_of_shared_elements {old new : Snapshot} {shared : List Element}
    (distinct : (shared.map Element.identity).Nodup)
    (notOld : ∀ element ∈ shared, element.identity ∉ old.identities)
    (notNew : ∀ element ∈ shared, element.identity ∉ new.identities)
    {oldElements newElements : List Element}
    (oldInserted : oldElements.Perm (old.elements ++ shared))
    (newInserted : newElements.Perm (new.elements ++ shared))
    (oldVersion newVersion : Option Text) (hierarchy : Hierarchy) (suppress : Bool) :
    ∃ oldMore newMore report again, Snapshot.build oldElements oldVersion = .ok oldMore ∧
      Snapshot.build newElements newVersion = .ok newMore ∧
      reconcile old new hierarchy suppress = .ok report ∧
      reconcile oldMore newMore hierarchy suppress = .ok again ∧
      again.entries = report.entries := by
  obtain ⟨oldMore, oldBuilt, oldExtended⟩ := exists_extended distinct notOld oldInserted oldVersion
  obtain ⟨newMore, newBuilt, newExtended⟩ := exists_extended distinct notNew newInserted newVersion
  have same := sameDifference_extended distinct oldExtended newExtended
  exact ⟨oldMore, newMore, _, _, oldBuilt, newBuilt, reconcile_eq_ok _ _ _ _,
    reconcile_eq_ok _ _ _ _, (same.entries_eq hierarchy suppress).symm⟩

/-- A method of a type in a package. With an identifier it is mandatory. -/
def methodOf (type name : Text) (named : name ≠ []) (identifier : Option Text) : Element := ⟨{
  kind := .method
  name
  container := [⟨.interfaceType, type⟩, ⟨.package, "p"⟩]
  identifier
  obligation := identifier.map fun _ => .mandatory }, named, fun _ => List.cons_ne_nil _ _⟩

def runIn (type : Text) : Element := methodOf type "run" (by decide) none

/-- The identifier of one method goes to another, and a third one is removed. -/
def retitled : Snapshot × Snapshot :=
  (⟨none, [methodOf "p.T" "title" (by decide) (some "title"),
    methodOf "p.T" "label" (by decide) none, runIn "p.T"], by decide⟩,
    ⟨none, [methodOf "p.T" "title" (by decide) none,
      methodOf "p.T" "label" (by decide) (some "title")], by decide⟩)

/-- The type around these methods, one more method in it with the same identifier, and one further up
with the name of the removed one. -/
def alongside : List Element :=
  [⟨{ kind := .interfaceType, name := "p.T", container := [⟨.package, "p"⟩] }, by decide, by decide⟩,
    methodOf "p.T" "heading" (by decide) (some "title"), runIn "p.Base"]

theorem report_of_shared_elements_of_alongside :
    (alongside.map Element.identity).Nodup ∧
      (∀ element ∈ alongside, element.identity ∉ retitled.1.identities) ∧
      (∀ element ∈ alongside, element.identity ∉ retitled.2.identities) ∧
      (alongside ++ retitled.1.elements).Perm (retitled.1.elements ++ alongside) ∧
      (retitled.2.elements ++ alongside).Perm (retitled.2.elements ++ alongside) ∧
      ∃ oldMore newMore report again,
        Snapshot.build (alongside ++ retitled.1.elements) none = .ok oldMore ∧
        Snapshot.build (retitled.2.elements ++ alongside) none = .ok newMore ∧
        reconcile retitled.1 retitled.2 (Hierarchy.ofPairs [("p.T", "p.Base")]) true = .ok report ∧
        reconcile oldMore newMore (Hierarchy.ofPairs [("p.T", "p.Base")]) true = .ok again ∧
        again.entries = report.entries := by
  have distinct : (alongside.map Element.identity).Nodup := by decide
  have notOld : ∀ element ∈ alongside, element.identity ∉ retitled.1.identities := by decide
  have notNew : ∀ element ∈ alongside, element.identity ∉ retitled.2.identities := by decide
  have oldInserted : (alongside ++ retitled.1.elements).Perm (retitled.1.elements ++ alongside) :=
    List.perm_append_comm
  have newInserted := List.Perm.refl (retitled.2.elements ++ alongside)
  exact ⟨distinct, notOld, notNew, oldInserted, newInserted, report_of_shared_elements distinct notOld
    notNew oldInserted newInserted none none (Hierarchy.ofPairs [("p.T", "p.Base")]) true⟩

end ApiSurface
