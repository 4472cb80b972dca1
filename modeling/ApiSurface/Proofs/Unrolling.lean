import ApiSurface.Proofs.Nesting

/-! How a document is unrolled into elements. They come outermost first, each one directly followed
by what stands inside it, and nothing of the document is lost on the way. -/

namespace ApiSurface

namespace Document

section Unrolling

variable {α : Type} {shows : α → Element → Prop} {inside : α → Element → List Element → Prop}

/-- Items one after the other, each of them shown and directly followed by what is inside it. -/
inductive Unrolls (shows : α → Element → Prop) (inside : α → Element → List Element → Prop) :
    List α → List Element → Prop
  | nil : Unrolls shows inside [] []
  | cons {item element within items elements} : shows item element → inside item element within →
      Unrolls shows inside items elements →
      Unrolls shows inside (item :: items) (element :: (within ++ elements))

theorem unrolls_of_drafts {drafts : α → List Draft}
    (each : ∀ item elements, elements.map Element.toDraft = drafts item →
      ∃ element within, elements = element :: within ∧ shows item element ∧
        inside item element within)
    {items : List α} {elements : List Element}
    (listed : elements.map Element.toDraft = items.flatMap drafts) :
    Unrolls shows inside items elements := by
  induction items generalizing elements with
  | nil =>
      rw [List.flatMap_nil, List.map_eq_nil_iff] at listed
      subst listed
      exact Unrolls.nil
  | cons item rest ih =>
      rw [List.flatMap_cons] at listed
      obtain ⟨own, others, rfl, ownListed, othersListed⟩ := List.map_eq_append_iff.mp listed
      obtain ⟨element, within, rfl, shown, held⟩ := each item own ownListed
      exact Unrolls.cons shown held (ih othersListed)

/-- Where items begin at elements of a kind that nothing inside them has, what follows an item begins
at the next such element. -/
theorem append_inj_of_heads {begins : Element → Prop} {left right leftRest rightRest : List Element}
    (leftInside : ∀ element ∈ left, ¬ begins element)
    (rightInside : ∀ element ∈ right, ¬ begins element)
    (leftBegins : ∀ element ∈ leftRest.head?, begins element)
    (rightBegins : ∀ element ∈ rightRest.head?, begins element)
    (same : left ++ leftRest = right ++ rightRest) : left = right ∧ leftRest = rightRest := by
  rcases List.append_eq_append_iff.mp same with ⟨more, rfl, rfl⟩ | ⟨more, rfl, rfl⟩
  · cases more with
    | nil => simp
    | cons element others =>
        exact absurd (leftBegins element (by simp)) (rightInside element (by simp))
  · cases more with
    | nil => simp
    | cons element others =>
        exact absurd (rightBegins element (by simp)) (leftInside element (by simp))

theorem Unrolls.begins {begins : Element → Prop}
    (heads : ∀ item element, shows item element → begins element) {items : List α}
    {elements : List Element} (unrolls : Unrolls shows inside items elements) :
    ∀ element ∈ elements.head?, begins element := by
  cases unrolls with
  | nil => simp
  | cons shown _ _ => simpa using heads _ _ shown

theorem Unrolls.unique {left right : List α} {elements : List Element}
    (leftUnrolls : Unrolls shows inside left elements)
    (rightUnrolls : Unrolls shows inside right elements) (begins : Element → Prop)
    (heads : ∀ item element, shows item element → begins element)
    (others : ∀ item element within, inside item element within →
      ∀ inner ∈ within, ¬ begins inner)
    (determined : ∀ left right element within, shows left element → inside left element within →
      shows right element → inside right element within → left = right) : left = right := by
  induction leftUnrolls generalizing right with
  | nil =>
      cases rightUnrolls
      rfl
  | @cons item element within items rest shown held restUnrolls ih =>
      generalize all : element :: (within ++ rest) = elements at rightUnrolls
      cases rightUnrolls with
      | nil => contradiction
      | @cons other _ otherWithin _ otherRest otherShown otherHeld otherUnrolls =>
          obtain ⟨rfl, tails⟩ := List.cons.inj all
          obtain ⟨rfl, rfl⟩ := append_inj_of_heads (others _ _ _ held) (others _ _ _ otherHeld)
            (restUnrolls.begins heads) (otherUnrolls.begins heads) tails
          rw [determined item other element within shown held otherShown otherHeld,
            ih otherUnrolls]

theorem Unrolls.exists_of_mem {items : List α} {elements : List Element}
    (unrolls : Unrolls shows inside items elements) {inner : Element} (member : inner ∈ elements) :
    ∃ item element within, shows item element ∧ inside item element within ∧
      inner ∈ element :: within ∧ (element :: within).Sublist elements := by
  induction unrolls with
  | nil => contradiction
  | @cons item element within items rest shown held _ ih =>
      rw [← List.cons_append, List.mem_append] at member
      rcases member with own | later
      · exact ⟨item, element, within, shown, held, own, by simp⟩
      · obtain ⟨found, outer, others, outerShown, outerHeld, inOuter, place⟩ := ih later
        refine ⟨found, outer, others, outerShown, outerHeld, inOuter, place.trans ?_⟩
        rw [← List.cons_append]
        exact List.sublist_append_right _ _

end Unrolling

/-- The element has what is said of a member, and stands in the element of its type. -/
def Member.Shows (type : Element) (member : Member) (element : Element) : Prop :=
  element.toDraft = {
    kind := member.kind.kind
    name := member.name
    container := type.identity
    identifier := member.identifier
    declaredType := member.type
    obligation := member.obligation
    isPublic := member.isPublic
    isDeprecated := member.isDeprecated }

def TypeItem.Shows (package : Element) (type : TypeItem) (element : Element) : Prop :=
  element.toDraft = {
    kind := type.kind.kind
    name := type.name
    container := package.identity
    identifier := type.identifier
    declaredType := type.parent
    obligation := type.obligation
    isPublic := type.isPublic
    isDeprecated := type.isDeprecated }

def Package.Shows (package : Package) (element : Element) : Prop :=
  element.toDraft = { kind := .package, name := package.name, isDeprecated := package.isDeprecated }

def TypeItem.Holds (type : TypeItem) (element : Element) (within : List Element) : Prop :=
  List.Forall₂ (Member.Shows element) type.members within

def Package.Holds (package : Package) (element : Element) (within : List Element) : Prop :=
  Unrolls (TypeItem.Shows element) TypeItem.Holds package.types within

structure UnrollsTo (document : Document) (snapshot : Snapshot) : Prop where
  version : snapshot.version = document.version
  elements : Unrolls Package.Shows Package.Holds document.packages snapshot.elements

theorem TypeItem.holds_of_drafts {type : TypeItem} {element : Element} {within : List Element}
    (listed : within.map Element.toDraft = type.members.map (Member.draft element.identity)) :
    type.Holds element within := by
  have pairwise : List.Forall₂ (· = ·) (type.members.map (Member.draft element.identity))
      (within.map Element.toDraft) := List.forall₂_eq_eq_eq ▸ listed.symm
  rw [List.forall₂_map_left_iff, List.forall₂_map_right_iff] at pairwise
  exact pairwise.imp fun _ _ same => same.symm

theorem Package.holds_of_drafts {package : Package} {element : Element} {within : List Element}
    (listed : within.map Element.toDraft =
      package.types.flatMap (TypeItem.drafts element.identity)) :
    package.Holds element within := by
  apply unrolls_of_drafts (fun type elements own => ?_) listed
  obtain ⟨typeElement, members, rfl, shown, membersListed⟩ := List.map_eq_cons_iff.mp own
  have identity : typeElement.identity = ⟨type.kind.kind, type.name⟩ :: element.identity :=
    congrArg Draft.path shown
  refine ⟨typeElement, members, rfl, shown, TypeItem.holds_of_drafts ?_⟩
  rw [identity, membersListed]

theorem unrolls_packages {document : Document} {elements : List Element}
    (listed : elements.map Element.toDraft = document.drafts) :
    Unrolls Package.Shows Package.Holds document.packages elements := by
  apply unrolls_of_drafts (fun package elements own => ?_) listed
  obtain ⟨element, within, rfl, shown, typesListed⟩ := List.map_eq_cons_iff.mp own
  have identity : element.identity = [⟨.package, package.name⟩] := congrArg Draft.path shown
  refine ⟨element, within, rfl, shown, Package.holds_of_drafts ?_⟩
  rw [identity, typesListed]

theorem unrollsTo_of_snapshot {document : Document} {snapshot : Snapshot}
    (made : document.snapshot = .ok snapshot) : document.UnrollsTo snapshot :=
  ⟨version_of_snapshot made, unrolls_packages (toDraft_of_snapshot made)⟩

theorem TypeItem.Holds.exists_member {type : TypeItem} {element : Element} {within : List Element}
    (held : type.Holds element within) {inner : Element} (among : inner ∈ within) :
    ∃ member : Member, member.Shows element inner := by
  obtain ⟨place, bound, rfl⟩ := List.mem_iff_getElem.mp among
  have sameLength : type.members.length = within.length := List.Forall₂.length_eq held
  exact ⟨_, List.Forall₂.get held (sameLength ▸ bound) bound⟩

section Placement

/-- Packages stand in nothing, types in a package and members in a type that come before them. -/
inductive Placed (elements : List Element) (element : Element) : Prop
  | package : element.kind = .package → element.container = [] → Placed elements element
  | type (outer : Element) : element.kind.isType = true → outer.kind = .package →
      element.container = outer.identity → [outer, element].Sublist elements →
      Placed elements element
  | member (outer : Element) : element.kind.isMember = true → outer.kind.isType = true →
      element.container = outer.identity → [outer, element].Sublist elements →
      Placed elements element

theorem Member.Shows.isMember {type element : Element} {member : Member}
    (shown : member.Shows type element) : element.kind.isMember = true := by
  have kind : element.kind = member.kind.kind := congrArg Draft.kind shown
  rw [kind]
  cases member.kind <;> rfl

theorem TypeItem.Shows.isType {package element : Element} {type : TypeItem}
    (shown : type.Shows package element) : element.kind.isType = true := by
  have kind : element.kind = type.kind.kind := congrArg Draft.kind shown
  rw [kind]
  cases type.kind <;> rfl

theorem placed_in_package {package : Package} {element inner : Element} {within : List Element}
    (shown : package.Shows element) (held : package.Holds element within)
    (among : inner ∈ element :: within) : Placed (element :: within) inner := by
  have isPackage : element.kind = .package := congrArg Draft.kind shown
  rcases List.mem_cons.mp among with rfl | inPackage
  · exact Placed.package isPackage (congrArg Draft.container shown)
  · obtain ⟨type, outer, members, typeShown, typeHeld, inType, place⟩ :=
      held.exists_of_mem inPackage
    rcases List.mem_cons.mp inType with rfl | inMembers
    · exact Placed.type element typeShown.isType isPackage (congrArg Draft.container typeShown)
        ((List.singleton_sublist.mpr inPackage).cons_cons element)
    · obtain ⟨member, memberShown⟩ := typeHeld.exists_member inMembers
      have before : [outer, inner].Sublist (outer :: members) :=
        (List.singleton_sublist.mpr inMembers).cons_cons outer
      exact Placed.member outer memberShown.isMember typeShown.isType
        (congrArg Draft.container memberShown) ((before.trans place).cons element)

theorem Placed.mono {elements more : List Element} {element : Element}
    (placed : Placed elements element) (kept : elements.Sublist more) : Placed more element := by
  cases placed with
  | package kind top => exact Placed.package kind top
  | type outer kind outerKind inside before =>
      exact Placed.type outer kind outerKind inside (before.trans kept)
  | member outer kind outerKind inside before =>
      exact Placed.member outer kind outerKind inside (before.trans kept)

theorem UnrollsTo.placed {document : Document} {snapshot : Snapshot}
    (unrolls : document.UnrollsTo snapshot) :
    ∀ element ∈ snapshot.elements, Placed snapshot.elements element := by
  intro element among
  obtain ⟨package, outer, within, shown, held, inPackage, place⟩ :=
    unrolls.elements.exists_of_mem among
  exact (placed_in_package shown held inPackage).mono place

end Placement

section Uniqueness

theorem memberKind_injective {left right : MemberKind} (same : left.kind = right.kind) :
    left = right := by
  cases left <;> cases right <;> first | rfl | contradiction

theorem typeKind_injective {left right : TypeKind} (same : left.kind = right.kind) :
    left = right := by
  cases left <;> cases right <;> first | rfl | contradiction

theorem Member.unique_of_shows {type element : Element} {left right : Member}
    (leftShown : left.Shows type element) (rightShown : right.Shows type element) :
    left = right := by
  have same := leftShown.symm.trans rightShown
  obtain ⟨_, _, _, _, _, _, _⟩ := left
  obtain ⟨_, _, _, _, _, _, _⟩ := right
  simp only [Draft.mk.injEq] at same
  obtain ⟨kind, rfl, _, rfl, rfl, rfl, rfl, rfl⟩ := same
  rw [memberKind_injective kind]

theorem TypeItem.unique_of_shows {package element : Element} {within : List Element}
    {left right : TypeItem} (leftShown : left.Shows package element)
    (leftHeld : left.Holds element within) (rightShown : right.Shows package element)
    (rightHeld : right.Holds element within) : left = right := by
  have unique : Relator.LeftUnique (Member.Shows element) := fun _ _ _ => Member.unique_of_shows
  have members : left.members = right.members :=
    List.left_unique_forall₂' unique leftHeld rightHeld
  have same := leftShown.symm.trans rightShown
  obtain ⟨_, _, _, _, _, _, _, _⟩ := left
  obtain ⟨_, _, _, _, _, _, _, _⟩ := right
  simp only [Draft.mk.injEq] at same members
  obtain ⟨kind, rfl, _, rfl, rfl, rfl, rfl, rfl⟩ := same
  rw [typeKind_injective kind, members]

/-- Inside a type there are only members, so that the next type begins a new item. -/
theorem TypeItem.not_isType_of_holds {type : TypeItem} {element : Element} {within : List Element}
    (held : type.Holds element within) : ∀ inner ∈ within, ¬ inner.kind.isType = true := by
  intro inner among isType
  obtain ⟨member, shown⟩ := held.exists_member among
  have isMember := shown.isMember
  cases kind : inner.kind <;> simp [kind, Kind.isType, Kind.isMember] at isType isMember

theorem Package.unique_of_shows {element : Element} {within : List Element}
    {left right : Package} (leftShown : left.Shows element) (leftHeld : left.Holds element within)
    (rightShown : right.Shows element) (rightHeld : right.Holds element within) : left = right := by
  have types : left.types = right.types :=
    Unrolls.unique leftHeld rightHeld (·.kind.isType = true) (fun _ _ => TypeItem.Shows.isType)
      (fun _ _ _ => TypeItem.not_isType_of_holds) fun _ _ _ _ => TypeItem.unique_of_shows
  have same := leftShown.symm.trans rightShown
  obtain ⟨_, _, _⟩ := left
  obtain ⟨_, _, _⟩ := right
  simp only [Draft.mk.injEq] at same types
  obtain ⟨_, rfl, _, _, _, _, _, rfl⟩ := same
  rw [types]

theorem Package.not_isPackage_of_holds {package : Package} {element : Element}
    {within : List Element} (held : package.Holds element within) :
    ∀ inner ∈ within, ¬ inner.kind = .package := by
  intro inner among isPackage
  obtain ⟨type, outer, members, shown, typeHeld, inType, _⟩ := held.exists_of_mem among
  rcases List.mem_cons.mp inType with rfl | inMembers
  · have isType := shown.isType
    simp [isPackage, Kind.isType] at isType
  · obtain ⟨member, memberShown⟩ := typeHeld.exists_member inMembers
    have isMember := memberShown.isMember
    simp [isPackage, Kind.isMember] at isMember

theorem UnrollsTo.unique {left right : Document} {leftSnapshot rightSnapshot : Snapshot}
    (leftUnrolls : left.UnrollsTo leftSnapshot) (rightUnrolls : right.UnrollsTo rightSnapshot)
    (version : leftSnapshot.version = rightSnapshot.version)
    (elements : leftSnapshot.elements = rightSnapshot.elements) : left = right := by
  have packages : left.packages = right.packages :=
    leftUnrolls.elements.unique (elements ▸ rightUnrolls.elements) (·.kind = .package)
      (fun _ _ => congrArg Draft.kind) (fun _ _ _ => Package.not_isPackage_of_holds)
      fun _ _ _ _ => Package.unique_of_shows
  have versions := leftUnrolls.version.symm.trans (version.trans rightUnrolls.version)
  obtain ⟨_, _⟩ := left
  obtain ⟨_, _⟩ := right
  simp only at packages versions
  rw [packages, versions]

end Uniqueness

end Document

namespace Snapshot

/-- A snapshot that was read lists the parts of one document, each behind the one around it; and
whatever other data gives the same elements under the same version describes that document too. -/
theorem document_recovered {source : Text} {value : Value} {snapshot : Snapshot}
    (read : Snapshot.ofValue source value = .ok snapshot) :
    ∃ document, Document.read value = .accepted document ∧ document.UnrollsTo snapshot ∧
      (∀ element ∈ snapshot.elements, Document.Placed snapshot.elements element) ∧
      ∀ otherSource otherValue other, Snapshot.ofValue otherSource otherValue = .ok other →
        other.version = snapshot.version → other.elements = snapshot.elements →
          Document.read otherValue = .accepted document := by
  obtain ⟨document, accepted, made⟩ := exists_document_of_ofValue read
  have unrolls := Document.unrollsTo_of_snapshot made
  refine ⟨document, accepted, unrolls, unrolls.placed, ?_⟩
  intro otherSource otherValue other otherRead version elements
  obtain ⟨otherDocument, otherAccepted, otherMade⟩ := exists_document_of_ofValue otherRead
  have otherUnrolls := Document.unrollsTo_of_snapshot otherMade
  rw [otherAccepted, otherUnrolls.unique unrolls version elements]

/-- A package with an interface that has a method and a field, with as little said as possible. -/
def terseData : Value :=
  .map [("packages", .list [.map [("name", "p"), ("types", .list [
    .map [("name", "p.T"), ("members", .list [
      .map [("name", "run")], .map [("name", "size"), ("kind", "field"), ("type", "int")]])]])]])]

/-- The same in other words and in another order, with all that goes without saying. -/
def wordyData : Value :=
  .map [("packages", .list [.map [("types", .list [
    .map [("kind", "interface"), ("parent", .null), ("name", "p.T"), ("public", "yes"),
      ("members", .list [
        .map [("kind", "method"), ("name", "run"), ("type", .null), ("obligation", .null)],
        .map [("type", "int"), ("public", .int 1), ("kind", "field"), ("name", "size")]])]]),
    ("deprecated", "off"), ("name", "p")]]), ("version", .null)]

def surfaceOf (value : Value) : Snapshot := (ofValue "surface" value).toOption.getD .empty

theorem document_recovered_of_wordyData :
    ofValue "surface" terseData = .ok (surfaceOf terseData) ∧
      ofValue "surface" wordyData = .ok (surfaceOf wordyData) ∧
      (surfaceOf wordyData).elements = (surfaceOf terseData).elements ∧
      ∃ document, Document.read terseData = .accepted document ∧
        document.UnrollsTo (surfaceOf terseData) ∧
        (∀ element ∈ (surfaceOf terseData).elements,
          Document.Placed (surfaceOf terseData).elements element) ∧
        Document.read wordyData = .accepted document := by
  have terseRead : ofValue "surface" terseData = .ok (surfaceOf terseData) := rfl
  have wordyRead : ofValue "surface" wordyData = .ok (surfaceOf wordyData) := rfl
  have sameElements : (surfaceOf wordyData).elements = (surfaceOf terseData).elements := rfl
  obtain ⟨document, accepted, unrolls, placed, recovered⟩ := document_recovered terseRead
  exact ⟨terseRead, wordyRead, sameElements, document, accepted, unrolls, placed,
    recovered "surface" wordyData (surfaceOf wordyData) wordyRead rfl sameElements⟩

end Snapshot

end ApiSurface
