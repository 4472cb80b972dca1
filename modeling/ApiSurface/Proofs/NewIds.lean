import ApiSurface.RunId

/-!
Where ids of runs come from. Every id that a run binds was bound before it, was given on the way, or
was made on the way, and is then the one that its source has at that time.
-/

namespace ApiSurface

theorem IdSource.length_idAt (source : IdSource) (number : Nat) :
    (source.idAt number).length = 12 := by
  rw [idAt, List.length_take, source.size]
  rfl

theorem IdSource.idAt_ne_nil (source : IdSource) (number : Nat) : source.idAt number ≠ [] := by
  rw [← List.length_pos_iff, source.length_idAt]
  decide

namespace RunIds

theorem orElse_eq (id other : Option Text) :
    orElse id other = (id.filter (· ≠ [])).or other := by
  rcases id with - | - | ⟨point, rest⟩ <;> rfl

theorem set_of_some {given : Option Text} {id : Text} (ids : RunIds)
    (named : given.filter (· ≠ []) = some id) :
    ids.set given = (id, { ids with current := some id }) := by
  rw [set, orElse_eq, named]
  rfl

theorem set_of_none {given : Option Text} (ids : RunIds) (unnamed : given.filter (· ≠ []) = none) :
    ids.set given = (ids.source.idAt ids.made,
      { ids with current := some (ids.source.idAt ids.made), made := ids.made + 1 }) := by
  rw [set, orElse_eq, unnamed]
  rfl

theorem set_current (ids : RunIds) (given : Option Text) :
    (ids.set given).2.current = some (ids.set given).1 := by
  unfold set
  split <;> rfl

theorem set_ne_nil (ids : RunIds) (given : Option Text) : (ids.set given).1 ≠ [] := by
  cases named : given.filter (· ≠ []) with
  | none => simpa [ids.set_of_none named] using ids.source.idAt_ne_nil ids.made
  | some id => simpa [ids.set_of_some named] using (Option.filter_eq_some_iff.mp named).2

/-- The given id, or the bound one. The empty text is no id. -/
def known? (ids : RunIds) (given : Option Text) : Option Text :=
  (given.filter (· ≠ [])).or (ids.current.filter (· ≠ []))

/-- The id that is known, or a new one. -/
def chosen (ids : RunIds) (given : Option Text) : Text := (ids.known? given).getD ids.make.1

theorem known?_eq (ids : RunIds) (given : Option Text) :
    ids.known? given = (orElse given ids.current).filter (· ≠ []) := by
  unfold known?
  rcases given with - | - | ⟨point, rest⟩ <;> rcases ids.current with - | - | ⟨first, more⟩ <;> rfl

theorem enter_eq (ids : RunIds) (given : Option Text) : (ids.enter given).1 = ids.chosen given := by
  rw [enter, chosen, known?_eq]
  cases named : (orElse given ids.current).filter (· ≠ []) with
  | none => rw [ids.set_of_none named]; rfl
  | some id => rw [ids.set_of_some named]; rfl

theorem enter_current (ids : RunIds) (given : Option Text) :
    (ids.enter given).2.current = some (ids.chosen given) := by
  rw [← enter_eq]
  exact set_current ids _

theorem chosen_ne_nil (ids : RunIds) (given : Option Text) : ids.chosen given ≠ [] := by
  rw [← enter_eq]
  exact ids.set_ne_nil _

end RunIds

/-- A binding of an id: what is given for it, and the id itself. -/
structure Binding where
  given : Option Text
  id : Text
  deriving DecidableEq

namespace RunIds

/-- Where an id stems from in a run that begins with `first`: it was bound there, was given for a
binding, or was made before a time. -/
def Stems (first : RunIds) (bindings : List Binding) (time : Nat) (id : Text) : Prop :=
  first.current = some id ∨ (∃ binding ∈ bindings, binding.given = some id) ∨
    ∃ number, first.made ≤ number ∧ number < time ∧ first.source.idAt number = id

theorem Stems.later {first : RunIds} {bindings more : List Binding} {time later : Nat} {id : Text}
    (stems : first.Stems bindings time id) (longer : bindings ⊆ more) (elapsed : time ≤ later) :
    first.Stems more later id := by
  obtain bound | ⟨binding, member, given⟩ | ⟨number, low, high, same⟩ := stems
  · exact .inl bound
  · exact .inr (.inl ⟨binding, longer member, given⟩)
  · exact .inr (.inr ⟨number, low, by omega, same⟩)

/-- What is known of a state that a run from `first` comes to, after some bindings. -/
structure Follows (first : RunIds) (bindings : List Binding) (ids : RunIds) : Prop where
  source : ids.source = first.source
  made : first.made ≤ ids.made
  current : ∀ id, ids.current = some id → first.Stems bindings ids.made id
  bound : ∀ binding ∈ bindings, first.Stems bindings ids.made binding.id

theorem Follows.refl (ids : RunIds) : ids.Follows [] ids where
  source := rfl
  made := Nat.le_refl _
  current _ bound := .inl bound
  bound := nofun

section
variable {first ids : RunIds} {bindings : List Binding}

theorem Follows.clear (follows : first.Follows bindings ids) : first.Follows bindings ids.clear where
  source := follows.source
  made := follows.made
  current := nofun
  bound := follows.bound

/-- An id that is set stems from somewhere, and all others still do. -/
theorem Follows.extended {after : RunIds} {given : Option Text} {id : Text}
    (follows : first.Follows bindings ids) (source : after.source = ids.source)
    (made : ids.made ≤ after.made) (isCurrent : after.current = some id)
    (stems : first.Stems (bindings ++ [⟨given, id⟩]) after.made id) :
    first.Follows (bindings ++ [⟨given, id⟩]) after where
  source := source.trans follows.source
  made := Nat.le_trans follows.made made
  current other isOther := by
    rw [isCurrent] at isOther
    cases isOther
    exact stems
  bound binding member := by
    rcases List.mem_append.mp member with sooner | last
    · exact (follows.bound binding sooner).later (List.subset_append_left _ _) made
    · rw [List.mem_singleton.mp last]
      exact stems

theorem Follows.set {given used : Option Text} (follows : first.Follows bindings ids)
    (origin : ∀ id, used.filter (· ≠ []) = some id → given = some id ∨ ids.current = some id) :
    first.Follows (bindings ++ [⟨given, (ids.set used).1⟩]) (ids.set used).2 := by
  cases named : used.filter (· ≠ []) with
  | some id =>
      rw [ids.set_of_some named]
      refine follows.extended rfl (Nat.le_refl _) rfl ?_
      rcases origin id named with isGiven | isCurrent
      · exact .inr (.inl ⟨_, List.mem_append_right _ List.mem_cons_self, isGiven⟩)
      · exact (follows.current id isCurrent).later (List.subset_append_left _ _) (Nat.le_refl _)
  | none =>
      rw [ids.set_of_none named]
      refine follows.extended rfl (Nat.le_succ _) rfl ?_
      exact .inr (.inr ⟨ids.made, follows.made, Nat.lt_succ_self _, by rw [follows.source]⟩)

theorem Follows.enter (follows : first.Follows bindings ids) (given : Option Text) :
    first.Follows (bindings ++ [⟨given, (ids.enter given).1⟩]) (ids.enter given).2 := by
  apply follows.set
  intro id known
  rw [← known?_eq] at known
  rcases Option.or_eq_some_iff.mp known with isGiven | ⟨-, isCurrent⟩
  · exact .inl (Option.filter_eq_some_iff.mp isGiven).1
  · exact .inr (Option.filter_eq_some_iff.mp isCurrent).1

theorem Follows.restore {before : RunIds} {sooner : List Binding}
    (follows : first.Follows bindings ids) (followed : first.Follows sooner before)
    (longer : sooner ⊆ bindings) (made : before.made ≤ ids.made) :
    first.Follows bindings (before.restore ids) where
  source := follows.source
  made := follows.made
  current id isCurrent := (followed.current id isCurrent).later longer made
  bound := follows.bound

theorem made_le_enter (ids : RunIds) (given : Option Text) : ids.made ≤ (ids.enter given).2.made :=
  ((Follows.refl ids).enter given).made

end

/-- The id that the source has next differs from those that were made or given since `first`, and from
the one that was bound there. -/
structure MakesNew (first : RunIds) (bindings : List Binding) (ids : RunIds) : Prop where
  notMade : ∀ number < ids.made, first.made ≤ number →
    first.source.idAt number ≠ first.source.idAt ids.made
  notGiven : ∀ binding ∈ bindings, binding.given ≠ some (first.source.idAt ids.made)
  notBound : first.current ≠ some (first.source.idAt ids.made)

theorem MakesNew.not_stems {first ids : RunIds} {bindings : List Binding}
    (new : first.MakesNew bindings ids) :
    ¬ first.Stems bindings ids.made (first.source.idAt ids.made) := by
  rintro (bound | ⟨binding, member, given⟩ | ⟨number, low, high, same⟩)
  · exact new.notBound bound
  · exact new.notGiven binding member given
  · exact new.notMade number high low same

end RunIds

namespace Action

mutual

/-- The bindings that an action makes, also for a time. -/
def bindings (ids : RunIds) : Action → List Binding
  | .set id => [⟨id, (ids.set id).1⟩]
  | .compare id _ new hierarchy =>
    match Comparison.checkedHierarchy new hierarchy with
    | .error _ => []
    | .ok _ => [⟨id, (ids.enter id).1⟩]
  | .bind id body _ => ⟨id, (ids.enter id).1⟩ :: bindingsAll (ids.enter id).2 body
  | .clear | .get | .raise _ => []

def bindingsAll (ids : RunIds) : List Action → List Binding
  | [] => []
  | action :: rest =>
    match (run ids action).interruption with
    | some _ => bindings ids action
    | none => bindings ids action ++ bindingsAll (run ids action).ids rest

end

theorem run_compare_ids (ids : RunIds) (id : Option Text) (old new : Snapshot)
    (hierarchy : Option Hierarchy) :
    (run ids (.compare id old new hierarchy)).ids =
      ids.afterComparison id (Comparison.checkedHierarchy new hierarchy) := by
  rw [run]
  split <;> rfl

theorem run_bind_ids (ids : RunIds) (id : Option Text) (body : List Action) (propagates : Bool) :
    (run ids (.bind id body propagates)).ids =
      ids.restore (runAll (ids.enter id).2 body).ids := by
  rw [run]
  split <;> rfl

theorem follows_compare {first ids : RunIds} {earlier : List Binding}
    (follows : first.Follows earlier ids) (id : Option Text) (old new : Snapshot)
    (hierarchy : Option Hierarchy) :
    first.Follows (earlier ++ bindings ids (.compare id old new hierarchy))
      (run ids (.compare id old new hierarchy)).ids := by
  rw [run_compare_ids, bindings]
  cases Comparison.checkedHierarchy new hierarchy with
  | error fault =>
      rw [List.append_nil]
      exact follows
  | ok used =>
      exact (follows.enter id).restore follows (List.subset_append_left _ _) (ids.made_le_enter id)

mutual

theorem follows_run {first ids : RunIds} {earlier : List Binding}
    (follows : first.Follows earlier ids) (action : Action) :
    first.Follows (earlier ++ bindings ids action) (run ids action).ids := by
  match action with
  | .set id =>
      rw [run, bindings]
      exact follows.set fun named known => .inl (Option.filter_eq_some_iff.mp known).1
  | .clear => simpa [run, bindings] using follows.clear
  | .get => simpa [run, bindings] using follows
  | .compare id old new hierarchy => exact follows_compare follows id old new hierarchy
  | .raise message => simpa [run, bindings] using follows
  | .bind id body propagates =>
      -- Behind the block the id from before is bound again. It stems from where it did, since the
      -- body only makes more ids.
      have inside := follows_runAll (follows.enter id) body
      have grows := (follows_runAll (.refl (ids.enter id).2) body).made
      rw [run_bind_ids, bindings, List.append_cons]
      exact inside.restore follows (by simp) (Nat.le_trans (ids.made_le_enter id) grows)

theorem follows_runAll {first ids : RunIds} {earlier : List Binding}
    (follows : first.Follows earlier ids) (program : List Action) :
    first.Follows (earlier ++ bindingsAll ids program) (runAll ids program).ids := by
  match program with
  | [] => simpa [runAll, bindingsAll] using follows
  | action :: rest =>
      have step := follows_run follows action
      rw [runAll, bindingsAll]
      cases (run ids action).interruption with
      | some cause => exact step
      | none =>
          rw [← List.append_assoc]
          exact follows_runAll step rest

end

end Action

end ApiSurface
