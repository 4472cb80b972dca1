import ApiSurface.Proofs.Reversal

/-! A change tells all that two versions of an element differ in: applied to the old version it gives
the new one, and turned round it leads back. -/

namespace ApiSurface

theorem Element.toDraft_injective : Function.Injective Element.toDraft := by
  rintro ⟨_, _, _⟩ ⟨_, _, _⟩ rfl
  rfl

namespace Change

/-- An aspect after a change: the new value, or the one that it has if old and new do not differ. -/
def renewed {α : Type} [DecidableEq α] (value old new : Option α) : Option α :=
  if old = new then value else new

/-- An element after a change. -/
def apply (change : Change) (element : Element) : Element :=
  { element with
    identifier := renewed element.identifier change.oldIdentifier change.newIdentifier
    declaredType := renewed element.declaredType change.oldType change.newType
    obligation := renewed element.obligation change.oldObligation change.newObligation
    isPublic := change.isPublic.getD element.isPublic
    isDeprecated := change.isDeprecated.getD element.isDeprecated }

theorem renewed_differing {α : Type} [DecidableEq α] (old new : Option α) :
    renewed old (differing old new).1 (differing old new).2 = new := by
  by_cases same : old = new
  · simp [renewed, differing, same]
  · simp [renewed, differing, same]

theorem getD_flipped (old new : Bool) : (flipped old new).getD old = new := by
  cases old <;> cases new <;> rfl

theorem apply_compared {before after : Element} (same : before.identity = after.identity) :
    (compared before after).apply before = after := by
  obtain ⟨kind, name, container⟩ := (Element.identity_eq_iff before after).mp same
  apply Element.toDraft_injective
  simp only [apply, compared, renewed_differing, getD_flipped, kind, name, container]

section Between

variable {before after : Element} {change : Change}

theorem between?_eq_some_iff : between? before after = some change ↔
    before.identity = after.identity ∧ compared before after = change := by
  simp [between?]

theorem apply_of_between? (told : between? before after = some change) :
    change.apply before = after := by
  obtain ⟨same, rfl⟩ := between?_eq_some_iff.mp told
  exact apply_compared same

theorem between?_reversed (told : between? before after = some change) :
    between? after before = some change.reversed := by
  obtain ⟨same, rfl⟩ := between?_eq_some_iff.mp told
  exact between?_eq_some_iff.mpr ⟨same.symm, compared_reversed same⟩

theorem apply_reversed (told : between? before after = some change) :
    change.reversed.apply after = before :=
  apply_of_between? (between?_reversed told)

end Between

end Change

/-- Two versions of one element have a change between them. With it each version gives the other, so
that no other element of the identity has this change from the old or to the new version. It is empty
exactly if the versions are equal, and turned round it is the change back. -/
theorem change_applies_both_ways {before after : Element}
    (same : before.identity = after.identity) :
    ∃ change, Change.between? before after = some change ∧
      change.apply before = after ∧ change.reversed.apply after = before ∧
      (∀ other, Change.between? before other = some change → other = after) ∧
      (∀ other, Change.between? other after = some change → other = before) ∧
      (change.isEmpty = true ↔ before = after) ∧
      Change.between? after before = some change.reversed := by
  have told : Change.between? before after = some (.compared before after) := if_pos same
  have onward := Change.apply_of_between? told
  have back := Change.apply_reversed told
  refine ⟨_, told, onward, back, fun other again => ?_, fun other again => ?_,
    Change.compared_isEmpty_iff same, Change.between?_reversed told⟩
  · exact (Change.apply_of_between? again).symm.trans onward
  · exact (Change.apply_reversed again).symm.trans back

/-- A method that has no identifier. -/
def plainMethod : Element := ⟨{
  kind := .method
  name := "size"
  container := [⟨.classType, "p.T"⟩]
  declaredType := some "int"
  obligation := some .mandatory }, by decide, by decide⟩

/-- The method with an empty identifier and everything else about it changed. -/
def reworkedMethod : Element := ⟨{ plainMethod.toDraft with
  identifier := some ""
  declaredType := none
  obligation := some .optional
  isPublic := false
  isDeprecated := true }, by decide, by decide⟩

theorem change_applies_both_ways_of_reworked_method :
    plainMethod.identity = reworkedMethod.identity ∧
      ∃ change, Change.between? plainMethod reworkedMethod = some change ∧
        change.apply plainMethod = reworkedMethod ∧
        change.reversed.apply reworkedMethod = plainMethod ∧
        (∀ other, Change.between? plainMethod other = some change → other = reworkedMethod) ∧
        (∀ other, Change.between? other reworkedMethod = some change → other = plainMethod) ∧
        (change.isEmpty = true ↔ plainMethod = reworkedMethod) ∧
        Change.between? reworkedMethod plainMethod = some change.reversed :=
  ⟨rfl, change_applies_both_ways rfl⟩

end ApiSurface
