import ApiSurface.Proofs.Reported

/-! Parts of two versions that the rest has no say in. Whatever decides about an entry, its container,
its siblings and its heirs, is found in the part that its outermost element belongs to. -/

namespace ApiSurface

/-- The outermost step of an identity. -/
def Element.root (element : Element) : Step := element.identity.getLast element.identity_ne_nil

namespace Element

theorem root_eq_of_identity {left right : Element} (same : left.identity = right.identity) :
    left.root = right.root := by
  simp only [root, same]

theorem root_eq_of_contained {inner outer : Element} (inside : inner.container = outer.identity) :
    inner.root = outer.root := by
  simp only [root, identity, inside]
  exact List.getLast_cons _

theorem root_eq_of_siblings {left right : Element} (housed : left.container ≠ [])
    (same : left.container = right.container) : left.root = right.root := by
  simp only [root, identity, ← same, List.getLast_cons housed]

end Element

/-- Two versions hold the elements of two larger ones with certain roots, and their members find heirs
only among these. -/
structure Part (among : Step → Prop) (partOld partNew old new : Snapshot) (hierarchy : Hierarchy) :
    Prop where
  oldMember : ∀ element, element ∈ partOld.elements ↔ element ∈ old.elements ∧ among element.root
  newMember : ∀ element, element ∈ partNew.elements ↔ element ∈ new.elements ∧ among element.root
  heirs : ∀ member ∈ partOld.elements, ∀ heir ∈ new.elements, member.kind.isMember = true →
    heir.kind.isMember = true → hierarchy.Above heir member → among heir.root

section Part

variable {among : Step → Prop}

theorem mem_identities_iff_of_part {part whole : Snapshot}
    (member : ∀ element, element ∈ part.elements ↔ element ∈ whole.elements ∧ among element.root)
    {element : Element} (inside : among element.root) :
    element.identity ∈ part.identities ↔ element.identity ∈ whole.identities := by
  simp only [Snapshot.identities, List.mem_map, member]
  constructor
  · rintro ⟨other, ⟨otherMember, _⟩, same⟩
    exact ⟨other, otherMember, same⟩
  · rintro ⟨other, otherMember, same⟩
    exact ⟨other, ⟨otherMember, Element.root_eq_of_identity same ▸ inside⟩, same⟩

theorem missing_iff_of_part {partLeft partRight left right : Snapshot}
    (leftMember : ∀ element, element ∈ partLeft.elements ↔
      element ∈ left.elements ∧ among element.root)
    (rightMember : ∀ element, element ∈ partRight.elements ↔
      element ∈ right.elements ∧ among element.root) (element : Element) :
    Missing partLeft partRight element ↔ Missing left right element ∧ among element.root := by
  constructor
  · rintro ⟨member, absent⟩
    obtain ⟨inLeft, inside⟩ := (leftMember element).mp member
    rw [mem_identities_iff_of_part rightMember inside] at absent
    exact ⟨⟨inLeft, absent⟩, inside⟩
  · rintro ⟨⟨member, absent⟩, inside⟩
    rw [← mem_identities_iff_of_part rightMember inside] at absent
    exact ⟨(leftMember element).mpr ⟨member, inside⟩, absent⟩

theorem outermost_iff_of_part {inPart inWhole : Element → Prop}
    (part : ∀ outer, inPart outer ↔ inWhole outer ∧ among outer.root) {element : Element}
    (inside : among element.root) : Outermost inPart element ↔ Outermost inWhole element := by
  constructor
  · intro outermost outer isAmong contained
    have outerInside : among outer.root := Element.root_eq_of_contained contained ▸ inside
    exact outermost outer ((part outer).mpr ⟨isAmong, outerInside⟩) contained
  · intro outermost
    exact outermost.mono fun outer isAmong => ((part outer).mp isAmong).1

namespace Part

variable {partOld partNew old new : Snapshot} {hierarchy : Hierarchy}
  (part : Part among partOld partNew old new hierarchy)

include part

theorem missing_iff (element : Element) :
    Missing partOld partNew element ↔ Missing old new element ∧ among element.root :=
  missing_iff_of_part part.oldMember part.newMember element

theorem added_iff (suppress : Bool) (element : Element) :
    Added partOld partNew suppress element ↔ Added old new suppress element ∧ among element.root := by
  rw [added_iff_missing, added_iff_missing, missing_iff_of_part part.newMember part.oldMember,
    and_right_comm]

theorem altered_iff (before after : Element) :
    Altered partOld partNew before after ↔ Altered old new before after ∧ among after.root := by
  constructor
  · rintro ⟨beforeMember, afterMember, same, different⟩
    obtain ⟨afterInNew, inside⟩ := (part.newMember after).mp afterMember
    exact ⟨⟨((part.oldMember before).mp beforeMember).1, afterInNew, same, different⟩, inside⟩
  · rintro ⟨⟨beforeMember, afterMember, same, different⟩, inside⟩
    have beforeInside : among before.root := Element.root_eq_of_identity same ▸ inside
    exact ⟨(part.oldMember before).mpr ⟨beforeMember, beforeInside⟩,
      (part.newMember after).mpr ⟨afterMember, inside⟩, same, different⟩

theorem fresh_iff (suppress : Bool) (element : Element) :
    Fresh partOld partNew suppress element ↔ Fresh old new suppress element ∧ among element.root := by
  simp only [Fresh, part.added_iff, part.altered_iff, exists_and_right, or_and_right]

theorem moved_iff (suppress : Bool) (member : Element) :
    Moved partOld partNew hierarchy suppress member ↔
      Moved old new hierarchy suppress member ∧ among member.root := by
  constructor
  · rintro ⟨missing, isMember, heir, fresh, rest⟩
    obtain ⟨wholeMissing, inside⟩ := (part.missing_iff member).mp missing
    exact ⟨⟨wholeMissing, isMember, heir, ((part.fresh_iff suppress heir).mp fresh).1, rest⟩, inside⟩
  · rintro ⟨⟨wholeMissing, isMember, heir, fresh, heirIsMember, sameName, above⟩, inside⟩
    have missing := (part.missing_iff member).mpr ⟨wholeMissing, inside⟩
    have heirInside := part.heirs member missing.member heir fresh.member isMember heirIsMember above
    exact ⟨missing, isMember, heir, (part.fresh_iff suppress heir).mpr ⟨fresh, heirInside⟩,
      heirIsMember, sameName, above⟩

theorem removed_iff (suppress : Bool) (element : Element) :
    Removed partOld partNew hierarchy suppress element ↔
      Removed old new hierarchy suppress element ∧ among element.root := by
  constructor
  · rintro ⟨missing, stays⟩
    obtain ⟨wholeMissing, inside⟩ := (part.missing_iff element).mp missing
    exact ⟨⟨wholeMissing, fun moved => stays ((part.moved_iff suppress element).mpr ⟨moved, inside⟩)⟩,
      inside⟩
  · rintro ⟨⟨wholeMissing, stays⟩, inside⟩
    exact ⟨(part.missing_iff element).mpr ⟨wholeMissing, inside⟩,
      fun moved => stays ((part.moved_iff suppress element).mp moved).1⟩

theorem carries_iff (suppress : Bool) {before after : Element} (inside : among after.root)
    (sibling : Element) :
    Carries partOld partNew suppress before after sibling ↔
      Carries old new suppress before after sibling := by
  constructor
  · rintro ⟨fresh, isMember, beside, carries⟩
    exact ⟨((part.fresh_iff suppress sibling).mp fresh).1, isMember, beside, carries⟩
  · rintro ⟨fresh, isMember, beside, carries⟩
    -- A member stands in something, and what stands in one container has one root.
    have siblingInside : among sibling.root :=
      Element.root_eq_of_siblings (sibling.housed isMember) beside ▸ inside
    exact ⟨(part.fresh_iff suppress sibling).mpr ⟨fresh, siblingInside⟩, isMember, beside, carries⟩

theorem successor_iff (suppress : Bool) {before after : Element} (inside : among after.root)
    (sibling : Element) :
    Successor partOld partNew suppress before after sibling ↔
      Successor old new suppress before after sibling := by
  constructor
  · rintro ⟨isMember, carries, only⟩
    simp only [part.carries_iff suppress inside] at carries only
    exact ⟨isMember, carries, only⟩
  · rintro ⟨isMember, carries, only⟩
    simp only [← part.carries_iff suppress inside] at carries only
    exact ⟨isMember, carries, only⟩

/-- A report of a part has the entries of the whole report with the roots of the part. -/
theorem reported_iff (suppress : Bool) (entry : Entry) :
    Reported partOld partNew hierarchy suppress entry ↔
      Reported old new hierarchy suppress entry ∧ among entry.element.root := by
  constructor
  · intro reported
    cases reported with
    | @added element added outermost =>
        obtain ⟨wholeAdded, inside⟩ := (part.added_iff suppress element).mp added
        rw [outermost_iff_of_part (part.added_iff suppress) inside] at outermost
        exact ⟨Reported.added wholeAdded outermost, inside⟩
    | @changed before after change altered outermost attributed =>
        obtain ⟨wholeAltered, inside⟩ := (part.altered_iff before after).mp altered
        rw [outermost_iff_of_part (part.added_iff suppress) inside] at outermost
        rw [Attributed.congr (part.successor_iff suppress inside)] at attributed
        exact ⟨Reported.changed wholeAltered outermost attributed, inside⟩
    | @removed element removed outermost =>
        obtain ⟨wholeRemoved, inside⟩ := (part.removed_iff suppress element).mp removed
        rw [outermost_iff_of_part (part.removed_iff suppress) inside] at outermost
        exact ⟨Reported.removed wholeRemoved outermost, inside⟩
  · rintro ⟨reported, inside⟩
    cases reported with
    | @added element added outermost =>
        rw [← outermost_iff_of_part (part.added_iff suppress) inside] at outermost
        exact Reported.added ((part.added_iff suppress element).mpr ⟨added, inside⟩) outermost
    | @changed before after change altered outermost attributed =>
        rw [← outermost_iff_of_part (part.added_iff suppress) inside] at outermost
        rw [← Attributed.congr (part.successor_iff suppress inside)] at attributed
        exact Reported.changed ((part.altered_iff before after).mpr ⟨altered, inside⟩) outermost
          attributed
    | @removed element removed outermost =>
        rw [← outermost_iff_of_part (part.removed_iff suppress) inside] at outermost
        exact Reported.removed ((part.removed_iff suppress element).mpr ⟨removed, inside⟩) outermost

end Part

end Part

end ApiSurface
