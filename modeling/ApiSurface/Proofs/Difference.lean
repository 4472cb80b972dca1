import ApiSurface.Change
import ApiSurface.Proofs.Ancestry
import ApiSurface.Proofs.Identity

/-! What differs between two versions of a surface, said without the stages that find it. -/

namespace ApiSurface

structure Added (old new : Snapshot) (suppress : Bool) (element : Element) : Prop where
  member : element ∈ new.elements
  absent : element.identity ∉ old.identities
  wanted : ¬ (suppress = true ∧ element.isDeprecated = true)

structure Altered (old new : Snapshot) (before after : Element) : Prop where
  beforeMember : before ∈ old.elements
  afterMember : after ∈ new.elements
  same : before.identity = after.identity
  different : before ≠ after

theorem Altered.between?_eq {old new : Snapshot} {before after : Element}
    (altered : Altered old new before after) :
    Change.between? before after = some (.compared before after) := if_pos altered.same

structure Missing (old new : Snapshot) (element : Element) : Prop where
  member : element ∈ old.elements
  absent : element.identity ∉ new.identities

theorem added_iff_missing (old new : Snapshot) (suppress : Bool) (element : Element) :
    Added old new suppress element ↔
      Missing new old element ∧ ¬ (suppress = true ∧ element.isDeprecated = true) := by
  constructor
  · rintro ⟨member, absent, wanted⟩
    exact ⟨⟨member, absent⟩, wanted⟩
  · rintro ⟨⟨member, absent⟩, wanted⟩
    exact ⟨member, absent, wanted⟩

/-- A new element is left out since it is deprecated already. -/
structure LeftOut (old new : Snapshot) (suppress : Bool) (element : Element) : Prop where
  missing : Missing new old element
  unwanted : suppress = true ∧ element.isDeprecated = true

theorem Missing.added_or_leftOut {old new : Snapshot} {element : Element}
    (missing : Missing new old element) (suppress : Bool) :
    Added old new suppress element ∨ LeftOut old new suppress element := by
  by_cases unwanted : suppress = true ∧ element.isDeprecated = true
  · exact .inr ⟨missing, unwanted⟩
  · exact .inl ⟨missing.member, missing.absent, unwanted⟩

def Fresh (old new : Snapshot) (suppress : Bool) (element : Element) : Prop :=
  Added old new suppress element ∨ ∃ before, Altered old new before element

/-- The container of one member is an ancestor of the other's container, or the same. -/
def Hierarchy.Above (hierarchy : Hierarchy) (heir member : Element) : Prop :=
  ∃ ancestor type, heir.containerName? = some ancestor ∧ member.containerName? = some type ∧
    hierarchy.Climbs type ancestor

theorem Hierarchy.above_iff_reaches (hierarchy : Hierarchy) (heir member : Element) :
    hierarchy.Above heir member ↔ ∃ ancestor ∈ heir.containerName?, ∃ type ∈ member.containerName?,
      hierarchy.reaches ancestor type = true := by
  simp only [Above, reaches_iff_climbs, Option.mem_def]
  constructor
  · rintro ⟨ancestor, type, above, below, path⟩
    exact ⟨ancestor, above, type, below, path⟩
  · rintro ⟨ancestor, above, type, below, path⟩
    exact ⟨ancestor, type, above, below, path⟩

instance (hierarchy : Hierarchy) (heir member : Element) : Decidable (hierarchy.Above heir member) :=
  decidable_of_iff _ (hierarchy.above_iff_reaches heir member).symm

/-- A missing member lives on, under its name, as an added or altered member further up. -/
structure Moved (old new : Snapshot) (hierarchy : Hierarchy) (suppress : Bool)
    (member : Element) : Prop where
  missing : Missing old new member
  isMember : member.kind.isMember = true
  livesOn : ∃ heir, Fresh old new suppress heir ∧ heir.kind.isMember = true ∧
    heir.name = member.name ∧ hierarchy.Above heir member

structure Removed (old new : Snapshot) (hierarchy : Hierarchy) (suppress : Bool)
    (element : Element) : Prop where
  missing : Missing old new element
  stays : ¬ Moved old new hierarchy suppress element

/-- No element of a kind is the container of the given one. -/
def Outermost (among : Element → Prop) (element : Element) : Prop :=
  ∀ outer, among outer → element.container ≠ outer.identity

theorem Outermost.mono {small large : Element → Prop}
    (inside : ∀ element, small element → large element) {element : Element}
    (outermost : Outermost large element) : Outermost small element :=
  fun outer among => outermost outer (inside outer among)

/-- What stands directly in an element that is left out stands in no added one. -/
theorem LeftOut.outermost {old new : Snapshot} {suppress : Bool} {inner outer : Element}
    (leftOut : LeftOut old new suppress outer) (inside : inner.container = outer.identity) :
    Outermost (Added old new suppress) inner := by
  intro around added within
  have same : around = outer := Element.eq_of_identity_eq new.distinct added.member
    leftOut.missing.member (within.symm.trans inside)
  exact added.wanted (same ▸ leftOut.unwanted)

/-- The entries that a report owes, without what became of a lost annotation. -/
inductive Due (old new : Snapshot) (hierarchy : Hierarchy) (suppress : Bool) : Entry → Prop
  | added {element} : Added old new suppress element →
      Outermost (Added old new suppress) element → Due old new hierarchy suppress ⟨element, none⟩
  | changed {before after change} : Altered old new before after →
      Outermost (Added old new suppress) after → Change.between? before after = some change →
      Due old new hierarchy suppress ⟨after, some change⟩
  | removed {element} : Removed old new hierarchy suppress element →
      Outermost (Removed old new hierarchy suppress) element →
      Due old new hierarchy suppress ⟨element, some (.removed element.kind)⟩

/-- The entry without where the lost annotation went. -/
def Entry.unattributed (entry : Entry) : Entry :=
  { entry with change := entry.change.map ({ · with movedTo := none }) }

end ApiSurface
