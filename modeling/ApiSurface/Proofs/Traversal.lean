import Mathlib.Data.List.Forall2

/-! Running over a list with an action that may fail: it succeeds when the action does on every
item, and then the results stand in the order of the items. -/

namespace ApiSurface

variable {ε α β : Type} {action : α → Except ε β}

theorem mapM_eq_ok_map {outcome : α → β} {items : List α}
    (each : ∀ item ∈ items, action item = .ok (outcome item)) :
    items.mapM action = .ok (items.map outcome) := by
  induction items with
  | nil => rfl
  | cons item rest ih =>
      have first := each item (by simp)
      have others := ih fun other member => each other (by simp [member])
      rw [List.mapM_cons, first, others]
      rfl

theorem forall₂_of_mapM_eq_ok {items : List α} {results : List β}
    (finished : items.mapM action = .ok results) :
    List.Forall₂ (fun item result => action item = .ok result) items results := by
  induction items generalizing results with
  | nil =>
      cases finished
      exact List.Forall₂.nil
  | cons item rest ih =>
      rw [List.mapM_cons] at finished
      cases first : action item with
      | error failure =>
          rw [first] at finished
          contradiction
      | ok result =>
          cases others : rest.mapM action with
          | error failure =>
              rw [first, others] at finished
              contradiction
          | ok more =>
              rw [first, others] at finished
              cases finished
              exact List.Forall₂.cons first (ih others)

theorem exists_mapM_eq_ok {items : List α}
    (each : ∀ item ∈ items, ∃ result, action item = .ok result) :
    ∃ results, items.mapM action = .ok results := by
  induction items with
  | nil => exact ⟨[], rfl⟩
  | cons item rest ih =>
      obtain ⟨result, first⟩ := each item (by simp)
      obtain ⟨results, others⟩ := ih fun other member => each other (by simp [member])
      refine ⟨result :: results, ?_⟩
      rw [List.mapM_cons, first, others]
      rfl

/-- It fails as the action does on the first item that it fails on. -/
theorem mapM_eq_error {before after : List α} {item : α} {failure : ε}
    (passed : ∀ other ∈ before, ∃ result, action other = .ok result)
    (failed : action item = .error failure) :
    (before ++ item :: after).mapM action = .error failure := by
  obtain ⟨results, finished⟩ := exists_mapM_eq_ok passed
  rw [List.mapM_append, finished, List.mapM_cons, failed]
  rfl

end ApiSurface
