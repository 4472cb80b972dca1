import ApiSurface.Proofs.Breakage
import ApiSurface.Proofs.Part

/-! The report of two independent parts is the merge of their reports. -/

namespace ApiSurface

/-- No element of one list stands in the same outermost element as one of the other. -/
def Apart (first second : List Element) : Prop :=
  ∀ left ∈ first, ∀ right ∈ second, left.root ≠ right.root

instance (first second : List Element) : Decidable (Apart first second) :=
  inferInstanceAs (Decidable (∀ left ∈ first, ∀ right ∈ second, left.root ≠ right.root))

theorem Apart.symm {first second : List Element} (apart : Apart first second) :
    Apart second first :=
  fun left leftMember right rightMember same => apart right rightMember left leftMember same.symm

theorem Apart.mono {first second small other : List Element} (apart : Apart first second)
    (inFirst : small ⊆ first) (inSecond : other ⊆ second) : Apart small other :=
  fun left leftMember right rightMember => apart left (inFirst leftMember) right
    (inSecond rightMember)

/-- No climb from the container of an old member reaches that of a new member. -/
def Hierarchy.Separates (hierarchy : Hierarchy) (old new : Snapshot) : Prop :=
  ∀ member ∈ old.elements, ∀ heir ∈ new.elements, member.kind.isMember = true →
    heir.kind.isMember = true → ¬ hierarchy.Above heir member

instance (hierarchy : Hierarchy) (old new : Snapshot) : Decidable (hierarchy.Separates old new) :=
  inferInstanceAs (Decidable (∀ member ∈ old.elements, ∀ heir ∈ new.elements,
    member.kind.isMember = true → heir.kind.isMember = true → ¬ hierarchy.Above heir member))

def RootIn (elements : List Element) (root : Step) : Prop :=
  ∃ element ∈ elements, element.root = root

theorem rootIn_of_mem {elements : List Element} {element : Element} (member : element ∈ elements) :
    RootIn elements element.root :=
  ⟨element, member, rfl⟩

theorem Apart.not_rootIn {first second : List Element} (apart : Apart first second) {root : Step}
    (inSecond : RootIn second root) : ¬ RootIn first root := by
  obtain ⟨right, rightMember, rfl⟩ := inSecond
  rintro ⟨left, leftMember, same⟩
  exact apart left leftMember right rightMember same

/-- The elements of a part are those of the whole that share a root with it. -/
theorem Apart.mem_iff {first second : List Element} (apart : Apart first second)
    {part rest whole : Snapshot} (inFirst : part.elements ⊆ first) (inSecond : rest.elements ⊆ second)
    (wholeMember : ∀ element, element ∈ whole.elements ↔
      element ∈ part.elements ∨ element ∈ rest.elements) (element : Element) :
    element ∈ part.elements ↔ element ∈ whole.elements ∧ RootIn first element.root := by
  rw [wholeMember]
  constructor
  · intro member
    exact ⟨.inl member, rootIn_of_mem (inFirst member)⟩
  · rintro ⟨member | inRest, inside⟩
    · exact member
    · exact absurd inside (apart.not_rootIn (rootIn_of_mem (inSecond inRest)))

theorem Apart.part {partOld partNew restOld restNew old new : Snapshot} {hierarchy : Hierarchy}
    (apart : Apart (partOld.elements ++ partNew.elements) (restOld.elements ++ restNew.elements))
    (separates : hierarchy.Separates partOld restNew)
    (oldMember : ∀ element, element ∈ old.elements ↔
      element ∈ partOld.elements ∨ element ∈ restOld.elements)
    (newMember : ∀ element, element ∈ new.elements ↔
      element ∈ partNew.elements ∨ element ∈ restNew.elements) :
    Part (RootIn (partOld.elements ++ partNew.elements)) partOld partNew old new hierarchy where
  oldMember := apart.mem_iff (List.subset_append_left _ _) (List.subset_append_left _ _) oldMember
  newMember := apart.mem_iff (List.subset_append_right _ _) (List.subset_append_right _ _) newMember
  heirs member memberOld heir heirNew isMember heirIsMember above := by
    rcases (newMember heir).mp heirNew with inPart | inRest
    · exact rootIn_of_mem (List.mem_append_right _ inPart)
    · exact absurd above (separates member memberOld heir inRest isMember heirIsMember)

theorem distinct_append {first second : Snapshot} (apart : Apart first.elements second.elements) :
    ((first.elements ++ second.elements).map Element.identity).Nodup := by
  rw [List.map_append, List.nodup_append]
  refine ⟨first.distinct, second.distinct, ?_⟩
  intro path inFirst other inSecond same
  obtain ⟨left, leftMember, rfl⟩ := List.mem_map.mp inFirst
  obtain ⟨right, rightMember, rfl⟩ := List.mem_map.mp inSecond
  exact apart left leftMember right rightMember (Element.root_eq_of_identity same)

def mergeEntries (first second : List Entry) : List Entry :=
  first.merge second fun left right => left.element.precedes right.element

theorem mergeEntries_ordered {first second : List Entry}
    (firstOrdered : first.Pairwise Entry.Before) (secondOrdered : second.Pairwise Entry.Before)
    (distinct : ((first ++ second).map (·.element.identity)).Nodup) :
    (mergeEntries first second).Pairwise Entry.Before := by
  have inOrder : ∀ left right, Entry.Before left right →
      left.element.precedes right.element = true := by
    intro left right before
    rw [Entry.Before] at before
    rw [Element.precedes, before]
    rfl
  apply strictly_ordered_of_distinct
  · exact List.pairwise_merge
      (fun first second third => Element.precedes_trans first.element second.element third.element)
      (fun left right => Element.precedes_total left.element right.element) first second
      (firstOrdered.imp (inOrder _ _)) (secondOrdered.imp (inOrder _ _))
  · have merged : (mergeEntries first second).Perm (first ++ second) := List.merge_perm_append _
    exact (merged.map _).nodup_iff.mpr distinct

section Parts

variable {firstOld firstNew secondOld secondNew old new : Snapshot} {hierarchy : Hierarchy}
  {inFirst inSecond : Step → Prop} (firstPart : Part inFirst firstOld firstNew old new hierarchy)
  (secondPart : Part inSecond secondOld secondNew old new hierarchy)
  (disjoint : ∀ root, inFirst root → ¬ inSecond root)

include firstPart secondPart disjoint

theorem distinct_of_parts (suppress : Bool) :
    (((reportOf firstOld firstNew hierarchy suppress).entries ++
      (reportOf secondOld secondNew hierarchy suppress).entries).map
        (·.element.identity)).Nodup := by
  rw [List.map_append, List.nodup_append]
  refine ⟨entries_distinct firstOld firstNew hierarchy suppress,
    entries_distinct secondOld secondNew hierarchy suppress, ?_⟩
  intro path pathFirst other pathSecond same
  obtain ⟨left, leftMember, rfl⟩ := List.mem_map.mp pathFirst
  obtain ⟨right, rightMember, rfl⟩ := List.mem_map.mp pathSecond
  rw [mem_entries_iff_reported, firstPart.reported_iff] at leftMember
  rw [mem_entries_iff_reported, secondPart.reported_iff] at rightMember
  apply disjoint _ leftMember.2
  rw [Element.root_eq_of_identity same]
  exact rightMember.2

theorem entries_eq_merge
    (covered : ∀ element, element ∈ old.elements ∨ element ∈ new.elements →
      inFirst element.root ∨ inSecond element.root) (suppress : Bool) :
    (reportOf old new hierarchy suppress).entries =
      mergeEntries (reportOf firstOld firstNew hierarchy suppress).entries
        (reportOf secondOld secondNew hierarchy suppress).entries := by
  have merged := mergeEntries_ordered (entries_ordered firstOld firstNew hierarchy suppress)
    (entries_ordered secondOld secondNew hierarchy suppress)
    (distinct_of_parts firstPart secondPart disjoint suppress)
  apply (entries_ordered old new hierarchy suppress).eq_of_mem_iff merged
  intro entry
  rw [mergeEntries, List.mem_merge]
  simp only [mem_entries_iff_reported, firstPart.reported_iff, secondPart.reported_iff]
  rw [← and_or_left]
  exact (and_iff_left_of_imp fun reported => covered entry.element reported.member).symm

end Parts

/-- The versions of two independent parts can be put together, whatever they are called, and the
report of the whole is the merge of the reports of the parts. -/
theorem report_of_independent_parts {firstOld firstNew secondOld secondNew : Snapshot}
    {hierarchy : Hierarchy}
    (apart : Apart (firstOld.elements ++ firstNew.elements)
      (secondOld.elements ++ secondNew.elements))
    (forward : hierarchy.Separates firstOld secondNew)
    (backward : hierarchy.Separates secondOld firstNew)
    (oldVersion newVersion : Option Text) (suppress : Bool) :
    ∃ old new, Snapshot.build (firstOld.elements ++ secondOld.elements) oldVersion = .ok old ∧
      Snapshot.build (firstNew.elements ++ secondNew.elements) newVersion = .ok new ∧
      ∃ first second whole, reconcile firstOld firstNew hierarchy suppress = .ok first ∧
        reconcile secondOld secondNew hierarchy suppress = .ok second ∧
        reconcile old new hierarchy suppress = .ok whole ∧
        whole.entries = mergeEntries first.entries second.entries := by
  have oldApart : Apart firstOld.elements secondOld.elements :=
    apart.mono (List.subset_append_left _ _) (List.subset_append_left _ _)
  have newApart : Apart firstNew.elements secondNew.elements :=
    apart.mono (List.subset_append_right _ _) (List.subset_append_right _ _)
  obtain ⟨old, oldBuilt, oldElements⟩ := Snapshot.exists_build (distinct_append oldApart) oldVersion
  obtain ⟨new, newBuilt, newElements⟩ := Snapshot.exists_build (distinct_append newApart) newVersion
  have oldMember (element : Element) : element ∈ old.elements ↔
      element ∈ firstOld.elements ∨ element ∈ secondOld.elements := by
    rw [oldElements, List.mem_append]
  have newMember (element : Element) : element ∈ new.elements ↔
      element ∈ firstNew.elements ∨ element ∈ secondNew.elements := by
    rw [newElements, List.mem_append]
  have firstPart := apart.part forward oldMember newMember
  have secondPart := apart.symm.part backward (fun element => (oldMember element).trans or_comm)
    (fun element => (newMember element).trans or_comm)
  refine ⟨old, new, oldBuilt, newBuilt, _, _, _, reconcile_eq_ok _ _ _ _, reconcile_eq_ok _ _ _ _,
    reconcile_eq_ok _ _ _ _, ?_⟩
  apply entries_eq_merge firstPart secondPart (fun _ => apart.symm.not_rootIn)
  rintro element (inOld | inNew)
  · rcases (oldMember element).mp inOld with member | member
    · exact .inl (rootIn_of_mem (List.mem_append_left _ member))
    · exact .inr (rootIn_of_mem (List.mem_append_left _ member))
  · rcases (newMember element).mp inNew with member | member
    · exact .inl (rootIn_of_mem (List.mem_append_right _ member))
    · exact .inr (rootIn_of_mem (List.mem_append_right _ member))

/-- A package with a type that has the given members. -/
def shapeData (members : List Value) : Value :=
  .map [("packages", .list [.map [("name", "q"), ("types", .list [
    .map [("name", "q.Shape"), ("members", .list members)]])]])]

def shape (members : List Value) : Snapshot :=
  (Snapshot.ofValue "shape" (shapeData members)).toOption.getD .empty

/-- A method is pulled up in one package, and one of the same name is removed in another. -/
theorem report_of_family_and_shape :
    Apart ((family [] [runMethod]).elements ++ (family [runMethod] []).elements)
        ((shape [runMethod]).elements ++ (shape []).elements) ∧
      (Hierarchy.ofPairs [("p.Child", "p.Parent")]).Separates (family [] [runMethod]) (shape []) ∧
      (Hierarchy.ofPairs [("p.Child", "p.Parent")]).Separates (shape [runMethod])
        (family [runMethod] []) ∧
      ∃ old new,
        Snapshot.build ((family [] [runMethod]).elements ++ (shape [runMethod]).elements) none =
          .ok old ∧
        Snapshot.build ((family [runMethod] []).elements ++ (shape []).elements) none = .ok new ∧
        ∃ first second whole,
          reconcile (family [] [runMethod]) (family [runMethod] [])
            (Hierarchy.ofPairs [("p.Child", "p.Parent")]) true = .ok first ∧
          reconcile (shape [runMethod]) (shape [])
            (Hierarchy.ofPairs [("p.Child", "p.Parent")]) true = .ok second ∧
          reconcile old new (Hierarchy.ofPairs [("p.Child", "p.Parent")]) true = .ok whole ∧
          whole.entries = mergeEntries first.entries second.entries := by
  have apart : Apart ((family [] [runMethod]).elements ++ (family [runMethod] []).elements)
      ((shape [runMethod]).elements ++ (shape []).elements) := by decide
  have forward : (Hierarchy.ofPairs [("p.Child", "p.Parent")]).Separates
      (family [] [runMethod]) (shape []) := by decide
  have backward : (Hierarchy.ofPairs [("p.Child", "p.Parent")]).Separates
      (shape [runMethod]) (family [runMethod] []) := by decide
  exact ⟨apart, forward, backward,
    report_of_independent_parts apart forward backward none none true⟩

end ApiSurface
