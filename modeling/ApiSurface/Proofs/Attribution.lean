import ApiSurface.Reconcile
import ApiSurface.Proofs.Difference
import ApiSurface.Proofs.Traversal

/-! Tracing lost annotations. An entry is only ever changed in where its annotation went. -/

namespace ApiSurface

/-- The only sibling that carries the annotation an entry lost. -/
def carrier? (entries : List Entry) (entry : Entry) : Option Element :=
  match entry.change with
  | none => none
  | some change =>
    if entry.element.kind.isMember && change.losesAnnotation then
      match moveTargets entries entry.element change with
      | [target] => some target
      | _ => none
    else none

def settle (entries : List Entry) (entry : Entry) : Entry :=
  match carrier? entries entry with
  | none => entry
  | some target =>
    { entry with change := entry.change.map ({ · with movedTo := some target.name }) }

def moveNotice? (entries : List Entry) (entry : Entry) : Option Notice :=
  (carrier? entries entry).map fun target =>
    .moved entry.element.name target.name (entry.change.bind Change.oldIdentifier)

theorem attributeMove_eq_ok (entries : List Entry) (entry : Entry) :
    attributeMove entries entry = .ok (settle entries entry, moveNotice? entries entry) := by
  obtain ⟨element, change⟩ := entry
  cases change with
  | none => rfl
  | some change =>
      simp only [attributeMove, settle, moveNotice?, carrier?]
      split
      next lost =>
        have loses : change.losesAnnotation = true := (Bool.and_eq_true_iff.mp lost).2
        cases targets : moveTargets entries element change with
        | nil => rfl
        | cons target others =>
            cases others with
            | nil => simp [Change.moveTo?, loses]
            | cons second more => rfl
      next => rfl

theorem attributeMoves_eq_ok (entries : List Entry) :
    attributeMoves entries =
      .ok (entries.map (settle entries), entries.filterMap (moveNotice? entries)) := by
  have attributed : entries.mapM (attributeMove entries) =
      .ok (entries.map fun entry => (settle entries entry, moveNotice? entries entry)) :=
    mapM_eq_ok_map fun entry _ => attributeMove_eq_ok entries entry
  simp [attributeMoves, attributed, bind, Except.bind, pure, Except.pure, List.filterMap_map,
    Function.comp_def]

theorem carrier?_eq_some_iff (entries : List Entry) (entry : Entry) (target : Element) :
    carrier? entries entry = some target ↔
      ∃ change, entry.change = some change ∧ entry.element.kind.isMember = true ∧
        change.losesAnnotation = true ∧ moveTargets entries entry.element change = [target] := by
  obtain ⟨element, change⟩ := entry
  cases change with
  | none => simp [carrier?]
  | some change =>
      simp only [carrier?, Bool.and_eq_true, Option.some.injEq, exists_eq_left']
      split
      next lost =>
        cases moveTargets entries element change with
        | nil => simp
        | cons first others => cases others <;> simp [lost]
      next kept =>
        simp only [reduceCtorEq, false_iff]
        rintro ⟨member, loses, _⟩
        exact kept ⟨member, loses⟩

theorem carrier?_eq_of_perm {left right : List Entry} (reordered : left.Perm right)
    (entry : Entry) : carrier? left entry = carrier? right entry := by
  ext target
  have targets (change : Change) : moveTargets left entry.element change = [target] ↔
      moveTargets right entry.element change = [target] := by
    have same : (moveTargets left entry.element change).Perm
        (moveTargets right entry.element change) := (reordered.map _).filter _
    constructor
    · intro alone
      exact List.singleton_perm.mp (alone ▸ same) |>.symm
    · intro alone
      exact List.perm_singleton.mp (alone ▸ same)
  simp only [carrier?_eq_some_iff, targets]

theorem settle_eq_of_perm {left right : List Entry} (reordered : left.Perm right) :
    settle left = settle right := by
  funext entry
  rw [settle, settle, carrier?_eq_of_perm reordered]

@[simp] theorem settle_element (entries : List Entry) (entry : Entry) :
    (settle entries entry).element = entry.element := by
  unfold settle
  split <;> rfl

@[simp] theorem settle_status (entries : List Entry) (entry : Entry) :
    (settle entries entry).status = entry.status := by
  unfold settle
  split
  next => rfl
  next => cases change : entry.change <;> simp [Entry.status, change]

@[simp] theorem settle_unattributed (entries : List Entry) (entry : Entry) :
    (settle entries entry).unattributed = entry.unattributed := by
  unfold settle
  split
  next => rfl
  next => cases change : entry.change <;> simp [Entry.unattributed, change]

theorem settle_of_added (entries : List Entry) {entry : Entry} (added : entry.change = none) :
    settle entries entry = entry := by
  have nowhere : carrier? entries entry = none := by simp [carrier?, added]
  rw [settle, nowhere]

end ApiSurface
