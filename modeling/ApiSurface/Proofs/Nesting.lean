import ApiSurface.Document
import ApiSurface.Proofs.Identity
import ApiSurface.Proofs.Traversal

/-! Snapshots that are read out of data are nested: every container is an element itself, and none of
them is a member. -/

namespace ApiSurface

def Draft.path (draft : Draft) : Path := ⟨draft.kind, draft.name⟩ :: draft.container

theorem Draft.toDraft_of_check {draft : Draft} {element : Element}
    (checked : draft.check = .ok element) : element.toDraft = draft := by
  unfold Draft.check at checked
  split at checked
  · split at checked
    · cases checked
      rfl
    · contradiction
  · contradiction

theorem Draft.toDraft_of_checks {drafts : List Draft} {elements : List Element}
    (checked : drafts.mapM Draft.check = .ok elements) : elements.map Element.toDraft = drafts := by
  have each := forall₂_of_mapM_eq_ok checked
  clear checked
  induction each with
  | nil => rfl
  | cons first _ ih => rw [List.map_cons, toDraft_of_check first, ih]

theorem Snapshot.elements_of_build {elements : List Element} {version : Option Text}
    {snapshot : Snapshot} (built : Snapshot.build elements version = .ok snapshot) :
    snapshot.elements = elements := by
  unfold Snapshot.build at built
  split at built
  · contradiction
  · cases built
    rfl

theorem Snapshot.version_of_build {elements : List Element} {version : Option Text}
    {snapshot : Snapshot} (built : Snapshot.build elements version = .ok snapshot) :
    snapshot.version = version := by
  unfold Snapshot.build at built
  split at built
  · contradiction
  · cases built
    rfl

/-- Each container is the one around all of them or one of them. -/
def Draft.NestedIn (outer : Path) (drafts : List Draft) : Prop :=
  ∀ draft ∈ drafts, draft.container = outer ∨ draft.container ∈ drafts.map Draft.path

theorem Draft.nestedIn_cons {outer : Path} {first : Draft} {rest : List Draft}
    (top : first.container = outer) (inside : NestedIn first.path rest) :
    NestedIn outer (first :: rest) := by
  intro draft member
  rcases List.mem_cons.mp member with rfl | inRest
  · exact .inl top
  · right
    rw [List.map_cons, List.mem_cons]
    exact inside draft inRest

theorem Draft.nestedIn_flatMap {α : Type} {outer : Path} {items : List α}
    {drafts : α → List Draft} (each : ∀ item ∈ items, NestedIn outer (drafts item)) :
    NestedIn outer (items.flatMap drafts) := by
  intro draft member
  obtain ⟨item, itemMember, place⟩ := List.mem_flatMap.mp member
  rcases each item itemMember draft place with top | inside
  · exact .inl top
  · obtain ⟨around, aroundMember, same⟩ := List.mem_map.mp inside
    right
    rw [← same]
    apply List.mem_map_of_mem
    exact List.mem_flatMap.mpr ⟨item, itemMember, aroundMember⟩

namespace Document

theorem drafts_nestedIn_of_type (outer : Path) (type : TypeItem) :
    Draft.NestedIn outer (type.drafts outer) := by
  apply Draft.nestedIn_cons rfl
  intro draft member
  obtain ⟨item, _, rfl⟩ := List.mem_map.mp member
  exact .inl rfl

theorem drafts_nestedIn_of_package (package : Package) : Draft.NestedIn [] package.drafts := by
  apply Draft.nestedIn_cons rfl
  apply Draft.nestedIn_flatMap
  intro type _
  exact drafts_nestedIn_of_type _ type

theorem drafts_nestedIn (document : Document) : Draft.NestedIn [] document.drafts := by
  apply Draft.nestedIn_flatMap
  intro package _
  exact drafts_nestedIn_of_package package

theorem not_member_of_container (document : Document) :
    ∀ draft ∈ document.drafts, ∀ step ∈ draft.container, step.kind.isMember = false := by
  intro draft member step around
  obtain ⟨package, _, inPackage⟩ := List.mem_flatMap.mp member
  rcases List.mem_cons.mp inPackage with rfl | inTypes
  · contradiction
  · obtain ⟨type, _, inType⟩ := List.mem_flatMap.mp inTypes
    rcases List.mem_cons.mp inType with rfl | inMembers
    · rw [List.mem_singleton.mp around]
      rfl
    · obtain ⟨item, _, rfl⟩ := List.mem_map.mp inMembers
      rcases List.mem_cons.mp around with rfl | outside
      · cases typeKind : type.kind <;> rfl
      · rw [List.mem_singleton.mp outside]
        rfl

theorem exists_build_of_snapshot {document : Document} {snapshot : Snapshot}
    (made : document.snapshot = .ok snapshot) :
    ∃ elements, document.drafts.mapM Draft.check = .ok elements ∧
      Snapshot.build elements document.version = .ok snapshot := by
  unfold Document.snapshot at made
  cases checked : document.drafts.mapM Draft.check with
  | error fault =>
      rw [checked] at made
      contradiction
  | ok elements =>
      rw [checked] at made
      exact ⟨elements, rfl, made⟩

theorem toDraft_of_snapshot {document : Document} {snapshot : Snapshot}
    (made : document.snapshot = .ok snapshot) :
    snapshot.elements.map Element.toDraft = document.drafts := by
  obtain ⟨elements, checked, built⟩ := exists_build_of_snapshot made
  rw [Snapshot.elements_of_build built]
  exact Draft.toDraft_of_checks checked

theorem version_of_snapshot {document : Document} {snapshot : Snapshot}
    (made : document.snapshot = .ok snapshot) : snapshot.version = document.version := by
  obtain ⟨_, _, built⟩ := exists_build_of_snapshot made
  exact Snapshot.version_of_build built

end Document

namespace Snapshot

def Nested (snapshot : Snapshot) : Prop :=
  ∀ element ∈ snapshot.elements, element.container = [] ∨ element.container ∈ snapshot.identities

theorem exists_document_of_ofValue {source : Text} {value : Value} {snapshot : Snapshot}
    (read : Snapshot.ofValue source value = .ok snapshot) :
    ∃ document, Document.read value = .accepted document ∧ document.snapshot = .ok snapshot := by
  unfold Snapshot.ofValue at read
  cases outcome : Document.read value with
  | accepted document =>
      refine ⟨document, rfl, ?_⟩
      rw [outcome] at read
      cases made : document.snapshot with
      | error fault => simp [made, Except.mapError] at read
      | ok result => simpa [made, Except.mapError] using read
  | refused first others => simp [outcome] at read

theorem exists_drafts_of_ofValue {source : Text} {value : Value} {snapshot : Snapshot}
    (read : Snapshot.ofValue source value = .ok snapshot) :
    ∃ document : Document, snapshot.elements.map Element.toDraft = document.drafts := by
  obtain ⟨document, _, made⟩ := exists_document_of_ofValue read
  exact ⟨document, Document.toDraft_of_snapshot made⟩

theorem nested_of_ofValue {source : Text} {value : Value} {snapshot : Snapshot}
    (read : Snapshot.ofValue source value = .ok snapshot) : snapshot.Nested := by
  obtain ⟨document, drafts⟩ := exists_drafts_of_ofValue read
  have identities : snapshot.identities = document.drafts.map Draft.path := by
    rw [← drafts, List.map_map]
    rfl
  intro element member
  rw [identities]
  apply Document.drafts_nestedIn document element.toDraft
  rw [← drafts]
  exact List.mem_map_of_mem member

theorem not_member_of_container {source : Text} {value : Value} {snapshot : Snapshot}
    (read : Snapshot.ofValue source value = .ok snapshot) {element : Element}
    (member : element ∈ snapshot.elements) :
    ∀ step ∈ element.container, step.kind.isMember = false := by
  obtain ⟨document, drafts⟩ := exists_drafts_of_ofValue read
  apply Document.not_member_of_container document element.toDraft
  rw [← drafts]
  exact List.mem_map_of_mem member

/-- In a nested snapshot whatever stands around an element, at any depth, is an element. -/
theorem Nested.mem_of_suffix {snapshot : Snapshot} (nested : snapshot.Nested) {outer path : Path}
    (nonempty : outer ≠ []) (place : outer <:+ path) (member : path ∈ snapshot.identities) :
    outer ∈ snapshot.identities := by
  induction path with
  | nil => exact absurd (List.suffix_nil.mp place) nonempty
  | cons step rest ih =>
      rcases List.suffix_cons_iff.mp place with same | further
      · exact same ▸ member
      · obtain ⟨element, elementMember, same⟩ := List.mem_map.mp member
        have container : element.container = rest := (List.cons.inj same).2
        rcases nested element elementMember with top | contained
        · rw [← container, top] at further
          exact absurd (List.suffix_nil.mp further) nonempty
        · exact ih further (container ▸ contained)

end Snapshot

end ApiSurface
