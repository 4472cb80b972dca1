import ApiSurface.Hierarchy
import Mathlib.Data.List.Nodup
import Mathlib.Data.List.Perm.Subperm

/-! What the bounded climb through the parents of types decides: the ancestors that any number of
steps leads to, also where the parents run in circles. Its bound is the least that never cuts one
off. -/

namespace ApiSurface.Hierarchy

/-- Climbing from a type leads to an ancestor in zero or more steps. -/
inductive Climbs (hierarchy : Hierarchy) : Text → Text → Prop
  | here (type) : Climbs hierarchy type type
  | up {type parent ancestor} : hierarchy.parent? type = some parent →
      Climbs hierarchy parent ancestor → Climbs hierarchy type ancestor

theorem Climbs.mono {left right : Hierarchy}
    (parents : ∀ type parent, left.parent? type = some parent → right.parent? type = some parent)
    {type ancestor : Text} (path : Climbs left type ancestor) : Climbs right type ancestor := by
  induction path with
  | here type => exact Climbs.here type
  | up found _ ih => exact Climbs.up (parents _ _ found) ih

theorem parent?_eq_some_iff (hierarchy : Hierarchy) (type parent : Text) :
    hierarchy.parent? type = some parent ↔ (type, parent) ∈ hierarchy.pairs := by
  obtain ⟨pairs, distinct⟩ := hierarchy
  change pairs.lookup type = some parent ↔ (type, parent) ∈ pairs
  induction pairs with
  | nil => simp
  | cons pair rest ih =>
      obtain ⟨key, value⟩ := pair
      simp only [List.map_cons, List.nodup_cons] at distinct
      by_cases same : type = key
      · subst same
        have absent : (type, parent) ∉ rest := fun member =>
          distinct.1 (List.mem_map_of_mem member)
        simp [absent, eq_comm]
      · have missed : (type == key) = false := by simpa using same
        simp [List.lookup_cons, missed, same, ih distinct.2]

/-- What a number of steps from parent to parent leads to, unless the parents end before. -/
def ancestor? (hierarchy : Hierarchy) : Nat → Text → Option Text
  | 0, type => some type
  | steps + 1, type => (hierarchy.parent? type).bind (hierarchy.ancestor? steps)

theorem ancestor?_succ_eq_some_iff (hierarchy : Hierarchy) (steps : Nat) (type ancestor : Text) :
    hierarchy.ancestor? (steps + 1) type = some ancestor ↔
      ∃ parent, hierarchy.parent? type = some parent ∧
        hierarchy.ancestor? steps parent = some ancestor := by
  simp [ancestor?, Option.bind_eq_some_iff]

theorem climbs_iff_ancestor? (hierarchy : Hierarchy) (type ancestor : Text) :
    Climbs hierarchy type ancestor ↔ ∃ steps, hierarchy.ancestor? steps type = some ancestor := by
  constructor
  · intro path
    induction path with
    | here type => exact ⟨0, rfl⟩
    | up found _ ih =>
        obtain ⟨steps, place⟩ := ih
        exact ⟨steps + 1, (ancestor?_succ_eq_some_iff _ _ _ _).mpr ⟨_, found, place⟩⟩
  · rintro ⟨steps, place⟩
    induction steps generalizing type with
    | zero =>
        cases place
        exact Climbs.here _
    | succ steps ih =>
        obtain ⟨parent, found, rest⟩ := (ancestor?_succ_eq_some_iff _ _ _ _).mp place
        exact Climbs.up found (ih parent rest)

theorem exists_ancestor?_of_climb {hierarchy : Hierarchy} {ancestor type : Text} {bound : Nat}
    {seen : List Text} (found : hierarchy.climb ancestor bound seen (some type) = true) :
    ∃ steps < bound, hierarchy.ancestor? steps type = some ancestor := by
  induction bound generalizing seen type with
  | zero => simp [climb] at found
  | succ bound ih =>
      simp only [climb] at found
      split at found
      · contradiction
      · split at found
        next arrived => exact ⟨0, by omega, congrArg some arrived⟩
        next =>
          cases above : hierarchy.parent? type with
          | none => cases bound <;> simp [above, climb] at found
          | some parent =>
              rw [above] at found
              obtain ⟨steps, fewer, place⟩ := ih found
              exact ⟨steps + 1, by omega,
                (ancestor?_succ_eq_some_iff _ _ _ _).mpr ⟨parent, above, place⟩⟩

/-- What a climb knows about the names it has seen: each is there once, none is the ancestor, and
each has a parent, which was seen too or is where the climb now stands. -/
structure Trail (hierarchy : Hierarchy) (ancestor : Text) (seen : List Text) (type : Text) :
    Prop where
  distinct : seen.Nodup
  missed : ancestor ∉ seen
  closed : ∀ name ∈ seen, ∃ parent, hierarchy.parent? name = some parent ∧
    (parent = type ∨ parent ∈ seen)

theorem Trail.length_le {hierarchy : Hierarchy} {ancestor type : Text} {seen : List Text}
    (trail : Trail hierarchy ancestor seen type) : seen.length ≤ hierarchy.pairs.length := by
  have inside : seen ⊆ hierarchy.pairs.map (·.1) := by
    intro name member
    obtain ⟨parent, found, _⟩ := trail.closed name member
    exact List.mem_map_of_mem ((parent?_eq_some_iff hierarchy name parent).mp found)
  simpa using (List.subperm_of_subset trail.distinct inside).length_le

theorem Trail.step {hierarchy : Hierarchy} {ancestor type parent : Text} {seen : List Text}
    (trail : Trail hierarchy ancestor seen type) (fresh : type ∉ seen) (different : type ≠ ancestor)
    (found : hierarchy.parent? type = some parent) :
    Trail hierarchy ancestor (type :: seen) parent := by
  refine ⟨List.nodup_cons.mpr ⟨fresh, trail.distinct⟩, ?_, ?_⟩
  · intro member
    rcases List.mem_cons.mp member with same | earlier
    · exact different same.symm
    · exact trail.missed earlier
  · intro name member
    rcases List.mem_cons.mp member with same | earlier
    · exact ⟨parent, same ▸ found, .inl rfl⟩
    · obtain ⟨above, aboveFound, place⟩ := trail.closed name earlier
      refine ⟨above, aboveFound, .inr ?_⟩
      rcases place with here | seenBefore
      · simp [here]
      · simp [seenBefore]

/-- A climb that has come round in a circle cannot reach an ancestor that it did not see. -/
theorem Trail.not_climbs {hierarchy : Hierarchy} {ancestor type : Text} {seen : List Text}
    (trail : Trail hierarchy ancestor seen type) (again : type ∈ seen) :
    ¬ Climbs hierarchy type ancestor := by
  have stays (name target : Text) (path : Climbs hierarchy name target) (inside : name ∈ seen) :
      target ∈ seen := by
    induction path with
    | here => exact inside
    | up found _ ih =>
        obtain ⟨parent, parentFound, place⟩ := trail.closed _ inside
        rw [found, Option.some.injEq] at parentFound
        subst parentFound
        rcases place with here | seenBefore
        · exact ih (here ▸ again)
        · exact ih seenBefore
  intro path
  exact trail.missed (stays type ancestor path again)

theorem Trail.start (hierarchy : Hierarchy) (ancestor type : Text) :
    Trail hierarchy ancestor [] type :=
  ⟨List.nodup_nil, by simp, by simp⟩

/-- The names on the way to an ancestor are different and have parents, so there are no more of them
than there are parents. -/
theorem Trail.exists_ancestor? {hierarchy : Hierarchy} {ancestor type : Text} {seen : List Text}
    (trail : Trail hierarchy ancestor seen type) (path : Climbs hierarchy type ancestor) :
    ∃ steps, steps + seen.length ≤ hierarchy.pairs.length ∧
      hierarchy.ancestor? steps type = some ancestor := by
  induction path generalizing seen with
  | here type => exact ⟨0, by simpa using trail.length_le, rfl⟩
  | @up type parent ancestor found rest ih =>
      by_cases arrived : type = ancestor
      · exact ⟨0, by simpa using trail.length_le, congrArg some arrived⟩
      · have fresh : type ∉ seen := fun again => trail.not_climbs again (Climbs.up found rest)
        obtain ⟨steps, short, place⟩ := ih (trail.step fresh arrived found)
        refine ⟨steps + 1, ?_, (ancestor?_succ_eq_some_iff _ _ _ _).mpr ⟨parent, found, place⟩⟩
        simp only [List.length_cons] at short
        omega

theorem climb_of_ancestor? {hierarchy : Hierarchy} {ancestor type : Text} {steps bound : Nat}
    {seen : List Text} (trail : Trail hierarchy ancestor seen type)
    (place : hierarchy.ancestor? steps type = some ancestor) (fewer : steps < bound) :
    hierarchy.climb ancestor bound seen (some type) = true := by
  induction bound generalizing seen type steps with
  | zero => omega
  | succ bound ih =>
      have fresh : type ∉ seen := fun again =>
        trail.not_climbs again ((climbs_iff_ancestor? _ _ _).mpr ⟨steps, place⟩)
      simp only [climb, fresh, if_false]
      by_cases arrived : type = ancestor
      · simp [arrived]
      · simp only [arrived, if_false]
        cases steps with
        | zero => exact absurd (Option.some.inj place) arrived
        | succ steps =>
            obtain ⟨parent, found, rest⟩ := (ancestor?_succ_eq_some_iff _ _ _ _).mp place
            rw [found]
            exact ih (trail.step fresh arrived found) rest (by omega)

/-- A climb finds the ancestors that are fewer steps away than its bound. -/
theorem climb_iff_ancestor? (hierarchy : Hierarchy) (ancestor type : Text) (bound : Nat) :
    hierarchy.climb ancestor bound [] (some type) = true ↔
      ∃ steps < bound, hierarchy.ancestor? steps type = some ancestor := by
  constructor
  · exact exists_ancestor?_of_climb
  · rintro ⟨steps, fewer, place⟩
    exact climb_of_ancestor? (Trail.start hierarchy ancestor type) place fewer

theorem exists_ancestor?_iff_within (hierarchy : Hierarchy) (ancestor type : Text) :
    (∃ steps, hierarchy.ancestor? steps type = some ancestor) ↔
      ∃ steps < hierarchy.pairs.length + 1, hierarchy.ancestor? steps type = some ancestor := by
  constructor
  · intro reached
    have path := (climbs_iff_ancestor? hierarchy type ancestor).mpr reached
    obtain ⟨steps, short, place⟩ := (Trail.start hierarchy ancestor type).exists_ancestor? path
    exact ⟨steps, Nat.lt_succ_of_le short, place⟩
  · rintro ⟨steps, _, place⟩
    exact ⟨steps, place⟩

/-- The bound on the climb never cuts off an ancestor. -/
theorem reaches_iff_climbs (hierarchy : Hierarchy) (ancestor type : Text) :
    hierarchy.reaches ancestor type = true ↔ Climbs hierarchy type ancestor := by
  rw [reaches, climb_iff_ancestor?, climbs_iff_ancestor?, exists_ancestor?_iff_within]

theorem climbs_iff_of_perm {left right : Hierarchy} (reordered : left.pairs.Perm right.pairs)
    (type ancestor : Text) : Climbs left type ancestor ↔ Climbs right type ancestor := by
  have parents (type parent : Text) :
      left.parent? type = some parent ↔ right.parent? type = some parent := by
    rw [parent?_eq_some_iff, parent?_eq_some_iff, reordered.mem_iff]
  constructor
  · exact Climbs.mono fun type parent => (parents type parent).mp
  · exact Climbs.mono fun type parent => (parents type parent).mpr

/-- Climbing decides whether any number of steps leads to an ancestor, wherever the parents lead. A
climb of any bound finds what is fewer steps away, and what can be reached at all is no more steps
away than there are parents. -/
theorem reaches_decides_ancestry (hierarchy : Hierarchy) (ancestor type : Text) :
    (hierarchy.reaches ancestor type = true ↔
      ∃ steps, hierarchy.ancestor? steps type = some ancestor) ∧
    (∀ bound, hierarchy.climb ancestor bound [] (some type) = true ↔
      ∃ steps < bound, hierarchy.ancestor? steps type = some ancestor) ∧
    ((∃ steps, hierarchy.ancestor? steps type = some ancestor) ↔
      ∃ steps < hierarchy.pairs.length + 1, hierarchy.ancestor? steps type = some ancestor) := by
  refine ⟨?_, climb_iff_ancestor? hierarchy ancestor type,
    exists_ancestor?_iff_within hierarchy ancestor type⟩
  rw [reaches_iff_climbs, climbs_iff_ancestor?]

/-- The name at a height of the ladder: each is a letter longer than the one below it. -/
def rung (height : Nat) : Text := List.replicate height 'a'

theorem rung_injective : Function.Injective rung := List.replicate_left_injective _

/-- Parents that form a single chain. -/
def ladder (size : Nat) : Hierarchy where
  pairs := (List.range size).map fun height => (rung height, rung (height + 1))
  distinct := by
    rw [List.map_map]
    exact List.Nodup.map rung_injective List.nodup_range

theorem ancestor?_ladder {size steps : Nat} (height : Nat) (inside : height + steps ≤ size) :
    (ladder size).ancestor? steps (rung height) = some (rung (height + steps)) := by
  induction steps generalizing height with
  | zero => rfl
  | succ steps ih =>
      have above : (ladder size).parent? (rung height) = some (rung (height + 1)) := by
        rw [parent?_eq_some_iff]
        exact List.mem_map.mpr ⟨height, List.mem_range.mpr (by omega), rfl⟩
      have rest : (ladder size).ancestor? steps (rung (height + 1)) =
          some (rung (height + 1 + steps)) := ih (height + 1) (by omega)
      rw [Nat.add_right_comm] at rest
      exact (ancestor?_succ_eq_some_iff _ _ _ _).mpr ⟨_, above, rest⟩

/-- No smaller bound would do: the top of a ladder is as many steps away as there are parents. -/
theorem climb_ladder (size : Nat) :
    (ladder size).pairs.length = size ∧ (ladder size).reaches (rung size) (rung 0) = true ∧
      (ladder size).climb (rung size) size [] (some (rung 0)) = false := by
  have place (steps : Nat) (inside : steps ≤ size) :
      (ladder size).ancestor? steps (rung 0) = some (rung steps) := by
    have counted := ancestor?_ladder 0 (by rwa [Nat.zero_add] : 0 + steps ≤ size)
    rwa [Nat.zero_add] at counted
  refine ⟨by simp [ladder], ?_, ?_⟩
  · rw [reaches_iff_climbs, climbs_iff_ancestor?]
    exact ⟨size, place size (Nat.le_refl size)⟩
  · rw [← Bool.not_eq_true, climb_iff_ancestor?]
    rintro ⟨steps, fewer, found⟩
    rw [place steps (Nat.le_of_lt fewer), Option.some.injEq] at found
    exact absurd (rung_injective found) (Nat.ne_of_lt fewer)

end ApiSurface.Hierarchy
