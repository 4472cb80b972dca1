/-!
Lists of pairs in which every key has one place.
-/

namespace ApiSurface.Assoc

variable {α β : Type} [DecidableEq α]

/-- A key that is there already keeps its place and takes the later value. -/
def put (key : α) (value : β) : List (α × β) → List (α × β)
  | [] => [(key, value)]
  | pair :: rest => if pair.1 = key then (key, value) :: rest else pair :: put key value rest

theorem mem_keys_put {key name : α} {value : β} {pairs : List (α × β)}
    (found : name ∈ (put key value pairs).map (·.1)) : name = key ∨ name ∈ pairs.map (·.1) := by
  induction pairs with
  | nil => simpa [put] using found
  | cons pair rest ih =>
      by_cases same : pair.1 = key
      · simp only [put, same, if_true, List.map_cons, List.mem_cons] at found ⊢
        exact found.elim .inl fun inRest => .inr (.inr inRest)
      · simp only [put, same, if_false, List.map_cons, List.mem_cons] at found ⊢
        rcases found with found | found
        · exact .inr (.inl found)
        · rcases ih found with found | found
          · exact .inl found
          · exact .inr (.inr found)

theorem nodup_keys_put (key : α) (value : β) (pairs : List (α × β))
    (distinct : (pairs.map (·.1)).Nodup) : ((put key value pairs).map (·.1)).Nodup := by
  induction pairs with
  | nil => simp [put]
  | cons pair rest ih =>
      simp only [List.map_cons, List.nodup_cons] at distinct
      by_cases same : pair.1 = key
      · simpa [put, same] using distinct
      · simp only [put, same, if_false, List.map_cons, List.nodup_cons]
        refine ⟨fun again => ?_, ih distinct.2⟩
        rcases mem_keys_put again with found | found
        · exact same found
        · exact distinct.1 found

theorem lookup_put [BEq α] [LawfulBEq α] (key name : α) (value : β) (pairs : List (α × β)) :
    (put key value pairs).lookup name = if name == key then some value else pairs.lookup name := by
  induction pairs with
  | nil =>
      rw [put, List.lookup_cons]
      split <;> simp [*]
  | cons pair rest ih =>
      rw [put]
      split
      next same =>
        rw [List.lookup_cons, List.lookup_cons, same]
        split <;> simp [*]
      next different =>
        rw [List.lookup_cons, List.lookup_cons, ih]
        by_cases here : name = pair.1
        · subst here
          simp [different]
        · have other : (name == pair.1) = false := beq_eq_false_iff_ne.mpr here
          simp [other]

end ApiSurface.Assoc
