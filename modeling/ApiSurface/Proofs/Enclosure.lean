import ApiSurface.Proofs.Nesting
import ApiSurface.Proofs.Reported
import ApiSurface.Proofs.Coverage

/-! What stands inside an added or removed element is not listed on its own. For added elements this
ends at a container that is left out as deprecated: what it holds is listed unless it is deprecated
too. -/

namespace ApiSurface

/-- No listed element of a status stands, at any depth, inside an element of a kind. -/
def Report.ListsNoneInside (report : Report) (status : Status) (among : Element → Prop) : Prop :=
  ∀ inner, report.Lists status inner → ∀ outer, among outer →
    ¬ outer.identity <:+ inner.container

theorem lists_added_iff (old new : Snapshot) (hierarchy : Hierarchy) (suppress : Bool)
    (element : Element) :
    (reportOf old new hierarchy suppress).Lists .added element ↔
      Added old new suppress element ∧ Outermost (Added old new suppress) element := by
  constructor
  · rintro ⟨entry, member, rfl, added⟩
    cases (mem_entries_iff_reported old new hierarchy suppress entry).mp member with
    | added isAdded outermost => exact ⟨isAdded, outermost⟩
    | changed _ _ attributed =>
        simp only [Entry.status, attributed.not_removed] at added
        contradiction
    | removed _ _ => contradiction
  · rintro ⟨added, outermost⟩
    exact lists_of_due (Due.added added outermost)

theorem lists_removed_iff (old new : Snapshot) (hierarchy : Hierarchy) (suppress : Bool)
    (element : Element) :
    (reportOf old new hierarchy suppress).Lists .removed element ↔
      Removed old new hierarchy suppress element ∧
        Outermost (Removed old new hierarchy suppress) element := by
  constructor
  · rintro ⟨entry, member, rfl, removed⟩
    cases (mem_entries_iff_reported old new hierarchy suppress entry).mp member with
    | added _ _ => contradiction
    | changed _ _ attributed =>
        simp only [Entry.status, attributed.not_removed] at removed
        contradiction
    | removed isRemoved outermost => exact ⟨isRemoved, outermost⟩
  · rintro ⟨removed, outermost⟩
    exact lists_of_due (Due.removed removed outermost)

/-- Where an element stands inside one that only its own version has, so does its container. -/
theorem exists_missing_container {left right : Snapshot} (leftNested : left.Nested)
    (rightNested : right.Nested) {inner outer : Element} (member : inner ∈ left.elements)
    (missing : Missing left right outer) (inside : outer.identity <:+ inner.container) :
    ∃ around, Missing left right around ∧ inner.container = around.identity := by
  have contained : inner.container ∈ left.identities := by
    rcases leftNested inner member with top | contained
    · rw [top] at inside
      exact absurd (List.suffix_nil.mp inside) outer.identity_ne_nil
    · exact contained
  obtain ⟨around, aroundMember, same⟩ := List.mem_map.mp contained
  refine ⟨around, ⟨aroundMember, fun present => missing.absent ?_⟩, same.symm⟩
  exact rightNested.mem_of_suffix outer.identity_ne_nil (same ▸ inside) present

/-- Where nothing stands in members, a missing element with something in it is removed. -/
theorem Missing.removed_of_contains {old new : Snapshot} {inner outer : Element}
    (missing : Missing old new outer)
    (typesOutside : ∀ step ∈ inner.container, step.kind.isMember = false)
    (inside : inner.container = outer.identity) (hierarchy : Hierarchy) (suppress : Bool) :
    Removed old new hierarchy suppress outer := by
  refine ⟨missing, fun moved => ?_⟩
  have around : ⟨outer.kind, outer.name⟩ ∈ inner.container := by simp [inside, Element.identity]
  have notMember := typesOutside _ around
  rw [moved.isMember] at notMember
  contradiction

section Nested

variable {old new : Snapshot} (oldNested : old.Nested) (newNested : new.Nested)

include oldNested

/-- Nothing in an element that is new has been there before. -/
theorem missing_of_container {inner outer : Element} (member : inner ∈ new.elements)
    (missing : Missing new old outer) (inside : inner.container = outer.identity) :
    Missing new old inner := by
  refine ⟨member, fun present => missing.absent ?_⟩
  apply oldNested.mem_of_suffix outer.identity_ne_nil _ present
  rw [← inside]
  exact List.suffix_cons _ _

include newNested

theorem lists_none_inside_added_iff (hierarchy : Hierarchy) (suppress : Bool) :
    (reportOf old new hierarchy suppress).ListsNoneInside .added (Missing new old) ↔
      ∀ outer, LeftOut old new suppress outer → ∀ inner ∈ new.elements,
        inner.container = outer.identity → inner.isDeprecated = true := by
  simp only [Report.ListsNoneInside, lists_added_iff]
  constructor
  · intro noneInside outer leftOut inner member inside
    by_contra current
    -- What is left out takes no part in hiding, and the addition inside it has no other container.
    have missing := missing_of_container oldNested member leftOut.missing inside
    have added : Added old new suppress inner :=
      ⟨member, missing.absent, fun unwanted => current unwanted.2⟩
    apply noneInside inner ⟨added, leftOut.outermost inside⟩ outer leftOut.missing
    simp only [inside, List.suffix_rfl]
  · intro deprecated inner listed outer missing inside
    obtain ⟨added, outermost⟩ := listed
    obtain ⟨around, aroundMissing, within⟩ :=
      exists_missing_container newNested oldNested added.member missing inside
    rcases aroundMissing.added_or_leftOut suppress with aroundAdded | leftOut
    · exact outermost around aroundAdded within
    · exact added.wanted
        ⟨leftOut.unwanted.1, deprecated around leftOut inner added.member within⟩

/-- Where nothing stands in members, a removed container is never one that moved. -/
theorem lists_none_inside_removed
    (typesOutside : ∀ element ∈ old.elements, ∀ step ∈ element.container,
      step.kind.isMember = false) (hierarchy : Hierarchy) (suppress : Bool) :
    (reportOf old new hierarchy suppress).ListsNoneInside .removed (Missing old new) := by
  intro inner listed outer missing inside
  obtain ⟨removed, outermost⟩ := (lists_removed_iff old new hierarchy suppress inner).mp listed
  obtain ⟨around, aroundMissing, within⟩ :=
    exists_missing_container oldNested newNested removed.missing.member missing inside
  have aroundRemoved := aroundMissing.removed_of_contains
    (typesOutside inner removed.missing.member) within hierarchy suppress
  exact outermost around aroundRemoved within

end Nested

/-- Between two versions that were read, no removed entry stands in an element that only the old
version has. No added entry stands in one that only the new version has, exactly if an element that is
left out as deprecated holds nothing but deprecated elements. -/
theorem lists_none_inside_iff {oldSource newSource : Text} {oldValue newValue : Value}
    {old new : Snapshot} (oldRead : Snapshot.ofValue oldSource oldValue = .ok old)
    (newRead : Snapshot.ofValue newSource newValue = .ok new) (hierarchy : Hierarchy)
    (suppress : Bool) :
    ∃ report, reconcile old new hierarchy suppress = .ok report ∧
      report.ListsNoneInside .removed (Missing old new) ∧
      (report.ListsNoneInside .added (Missing new old) ↔
        ∀ outer, LeftOut old new suppress outer → ∀ inner ∈ new.elements,
          inner.container = outer.identity → inner.isDeprecated = true) := by
  have oldNested := Snapshot.nested_of_ofValue oldRead
  have newNested := Snapshot.nested_of_ofValue newRead
  refine ⟨_, reconcile_eq_ok old new hierarchy suppress, ?_, ?_⟩
  · exact lists_none_inside_removed oldNested newNested
      (fun _ => Snapshot.not_member_of_container oldRead) hierarchy suppress
  · exact lists_none_inside_added_iff oldNested newNested hierarchy suppress

/-- A package with a deprecated type that has a method. -/
def deprecatedTypeData (methodIsDeprecated : Bool) : Value :=
  .map [("packages", .list [.map [("name", "p"), ("types", .list [
    .map [("name", "p.T"), ("deprecated", .bool true), ("members", .list [
      .map [("name", "run"), ("deprecated", .bool methodIsDeprecated)]])]])]])]

def deprecatedType (methodIsDeprecated : Bool) : Snapshot :=
  (Snapshot.ofValue "surface" (deprecatedTypeData methodIsDeprecated)).toOption.getD .empty

theorem lists_none_inside_deprecated_type :
    Snapshot.ofValue "surface" (.map []) = .ok .empty ∧
      Snapshot.ofValue "surface" (deprecatedTypeData true) = .ok (deprecatedType true) ∧
      ∃ report, reconcile .empty (deprecatedType true) .empty true = .ok report ∧
        report.ListsNoneInside .removed (Missing .empty (deprecatedType true)) ∧
        (report.ListsNoneInside .added (Missing (deprecatedType true) .empty) ↔
          ∀ outer, LeftOut .empty (deprecatedType true) true outer →
            ∀ inner ∈ (deprecatedType true).elements,
              inner.container = outer.identity → inner.isDeprecated = true) := by
  have oldRead : Snapshot.ofValue "surface" (.map []) = .ok .empty := rfl
  have newRead : Snapshot.ofValue "surface" (deprecatedTypeData true) =
      .ok (deprecatedType true) := rfl
  exact ⟨oldRead, newRead, lists_none_inside_iff oldRead newRead .empty true⟩

/-- An added package is listed together with a method in it, since the type between them is left
out. -/
theorem lists_method_of_left_out_type :
    Snapshot.ofValue "surface" (.map []) = .ok .empty ∧
      Snapshot.ofValue "surface" (deprecatedTypeData false) = .ok (deprecatedType false) ∧
      ∃ report, reconcile .empty (deprecatedType false) .empty true = .ok report ∧
        (∃ package method, report.Lists .added package ∧ report.Lists .added method ∧
          package.identity <:+ method.container) ∧
        ¬ report.ListsNoneInside .added (Missing (deprecatedType false) .empty) := by
  let package : Element := ⟨{ kind := .package, name := "p" }, by decide, by decide⟩
  let type : Element := ⟨{
    kind := .interfaceType
    name := "p.T"
    container := package.identity
    isDeprecated := true }, by decide, by decide⟩
  let method : Element :=
    ⟨{ kind := .method, name := "run", container := type.identity }, by decide, by decide⟩
  have packageMember : package ∈ (deprecatedType false).elements := by decide
  have methodMember : method ∈ (deprecatedType false).elements := by decide
  have typeLeftOut : LeftOut .empty (deprecatedType false) true type :=
    ⟨⟨by decide, by decide⟩, by decide⟩
  have packageListed : (reportOf .empty (deprecatedType false) .empty true).Lists .added package := by
    refine (lists_added_iff _ _ _ _ _).mpr ⟨⟨packageMember, by decide, by decide⟩, ?_⟩
    intro outer _ inside
    exact outer.identity_ne_nil inside.symm
  have methodListed : (reportOf .empty (deprecatedType false) .empty true).Lists .added method :=
    (lists_added_iff _ _ _ _ _).mpr
      ⟨⟨methodMember, by decide, by decide⟩, typeLeftOut.outermost rfl⟩
  have place : package.identity <:+ method.container := by decide
  refine ⟨rfl, rfl, _, reconcile_eq_ok _ _ _ _,
    ⟨package, method, packageListed, methodListed, place⟩, ?_⟩
  intro noneInside
  exact noneInside method methodListed package ⟨packageMember, by decide⟩ place

end ApiSurface
