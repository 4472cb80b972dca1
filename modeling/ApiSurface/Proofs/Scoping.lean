import ApiSurface.Log.Session
import ApiSurface.Proofs.NewIds

/-! Run ids are scoped: whatever a block does, and however it ends, the id that was bound before it is
bound again behind it, and no run ever binds the empty text. Where neither an id is given nor one is
bound, a block has an id that the run never had before, if the source of ids keeps making other ones. -/

namespace ApiSurface

/-- Observations between two bound ids. A block that is entered is left, or interrupted, with the id
that was bound before it. -/
inductive Scoped : Option Text → List Observation → Option Text → Prop
  | nothing {current} : Scoped current [] current
  | set {before id rest last} : id ≠ [] → Scoped (some id) rest last →
      Scoped before (.set id :: rest) last
  | cleared {before rest last} : Scoped none rest last → Scoped before (.cleared none :: rest) last
  | seen {current rest last} : Scoped current rest last → Scoped current (.seen current :: rest) last
  | compared {current rest last} : Scoped current rest last →
      Scoped current (.compared current :: rest) last
  | left {before id inner within rest last} : id ≠ [] → Scoped (some id) inner within →
      Scoped before rest last →
      Scoped before (.entered id (some id) :: (inner ++ .left before :: rest)) last
  | interrupted {before id inner within cause rest last} : id ≠ [] →
      Scoped (some id) inner within → Scoped before rest last →
      Scoped before (.entered id (some id) :: (inner ++ .interrupted cause before :: rest)) last

theorem Scoped.append {first middle last : Option Text} {left right : List Observation}
    (course : Scoped first left middle) (later : Scoped middle right last) :
    Scoped first (left ++ right) last := by
  induction course with
  | nothing => exact later
  | set named _ ih => exact .set named (ih later)
  | cleared _ ih => exact .cleared (ih later)
  | seen _ ih => exact .seen (ih later)
  | compared _ ih => exact .compared (ih later)
  | left named inner _ _ ih =>
      rw [List.cons_append, List.append_assoc]
      exact .left named inner (ih later)
  | interrupted named inner _ _ ih =>
      rw [List.cons_append, List.append_assoc]
      exact .interrupted named inner (ih later)

theorem Scoped.last_ne_empty {first last : Option Text} {observations : List Observation}
    (course : Scoped first observations last) (bound : first ≠ some []) : last ≠ some [] := by
  induction course with
  | nothing => exact bound
  | set named _ ih => exact ih (by simpa using named)
  | cleared _ ih => exact ih (by simp)
  | seen _ ih => exact ih bound
  | compared _ ih => exact ih bound
  | left _ _ _ _ ih => exact ih bound
  | interrupted _ _ _ _ ih => exact ih bound

namespace Action

theorem compare_current (ids : RunIds) (id : Option Text) (old new : Snapshot)
    (hierarchy : Option Hierarchy) :
    (run ids (.compare id old new hierarchy)).ids.current = ids.current := by
  rw [run_compare_ids]
  cases Comparison.checkedHierarchy new hierarchy with
  | error fault => rfl
  | ok used => rfl

theorem bind_current (ids : RunIds) (id : Option Text) (body : List Action) (propagates : Bool) :
    (run ids (.bind id body propagates)).ids.current = ids.current := by
  rw [run_bind_ids]
  rfl

theorem compare_scoped (ids : RunIds) (id : Option Text) (old new : Snapshot)
    (hierarchy : Option Hierarchy) :
    Scoped ids.current (run ids (.compare id old new hierarchy)).observations ids.current := by
  have same := compare_current ids id old new hierarchy
  rw [run] at same ⊢
  split at same
  next =>
    rw [same]
    exact .compared .nothing
  next => exact .nothing

theorem bind_scoped {ids : RunIds} {id : Option Text} {body : List Action} (propagates : Bool)
    {within : Option Text}
    (inner : Scoped (ids.enter id).2.current (runAll (ids.enter id).2 body).observations within) :
    Scoped ids.current (run ids (.bind id body propagates)).observations ids.current := by
  rw [RunIds.enter_current] at inner
  rw [run]
  split
  next =>
    simp only [RunIds.enter_eq, RunIds.enter_current]
    exact .left (ids.chosen_ne_nil id) inner .nothing
  next =>
    simp only [RunIds.enter_eq, RunIds.enter_current]
    exact .interrupted (ids.chosen_ne_nil id) inner .nothing

mutual

theorem run_scoped (ids : RunIds) (action : Action) :
    Scoped ids.current (run ids action).observations (run ids action).ids.current := by
  match action with
  | .set id =>
      simp only [run, RunIds.set_current]
      exact .set (ids.set_ne_nil id) .nothing
  | .clear => exact .cleared .nothing
  | .get => exact .seen .nothing
  | .compare id old new hierarchy =>
      rw [compare_current]
      exact compare_scoped ids id old new hierarchy
  | .raise message => exact .nothing
  | .bind id body propagates =>
      rw [bind_current]
      exact bind_scoped propagates (runAll_scoped (ids.enter id).2 body)

theorem runAll_scoped (ids : RunIds) (program : List Action) :
    Scoped ids.current (runAll ids program).observations (runAll ids program).ids.current := by
  match program with
  | [] => exact .nothing
  | action :: rest =>
      have first := run_scoped ids action
      rw [runAll]
      split
      next => exact first
      next => exact first.append (runAll_scoped (run ids action).ids rest)

end

/-- An action begins, in a state, in a run from another one: on its own or inside of blocks. The
bindings that the run has made before it come in their order. -/
inductive Begins : RunIds → List Action → List Binding → RunIds → Action → Prop
  | now {ids action rest} : Begins ids (action :: rest) [] ids action
  | later {ids first rest earlier start action} : (run ids first).interruption = none →
      Begins (run ids first).ids rest earlier start action →
      Begins ids (first :: rest) (bindings ids first ++ earlier) start action
  | inside {ids id body propagates rest earlier start action} :
      Begins (ids.enter id).2 body earlier start action →
      Begins ids (.bind id body propagates :: rest) (⟨id, (ids.enter id).1⟩ :: earlier) start action

/-- The states of a run: where it begins, around its actions, and inside blocks and comparisons right
after they were entered. -/
inductive Reaches (ids : RunIds) (program : List Action) : RunIds → Prop
  | initial : Reaches ids program ids
  | before {earlier start action} : Begins ids program earlier start action →
      Reaches ids program start
  | inBlock {earlier start id body propagates} :
      Begins ids program earlier start (.bind id body propagates) → Reaches ids program (start.enter id).2
  | inComparison {earlier start id old new hierarchy used} :
      Begins ids program earlier start (.compare id old new hierarchy) →
      Comparison.checkedHierarchy new hierarchy = .ok used →
      Reaches ids program (start.enter id).2
  | behind {earlier start action} : Begins ids program earlier start action →
      Reaches ids program (run start action).ids

theorem run_observed (ids : RunIds) (action : Action) (rest : List Action) :
    (run ids action).observations <:+: (runAll ids (action :: rest)).observations := by
  rw [runAll]
  split
  next => exact List.infix_rfl
  next => exact (List.prefix_append _ _).isInfix

theorem Begins.observed {ids start : RunIds} {program : List Action} {earlier : List Binding}
    {action : Action} (begun : Begins ids program earlier start action) :
    (run start action).observations <:+: (runAll ids program).observations := by
  induction begun with
  | now => exact run_observed _ _ _
  | later onwards _ ih =>
      rw [runAll, onwards]
      exact ih.trans (List.suffix_append _ _).isInfix
  | @inside ids id body propagates rest earlier start action _ ih =>
      refine ih.trans (List.IsInfix.trans ?_ (run_observed ids (.bind id body propagates) rest))
      rw [run]
      split
      next => exact ⟨[_], [_], rfl⟩
      next => exact ⟨[_], [_], rfl⟩

theorem Begins.current_ne_empty {ids start : RunIds} {program : List Action} {earlier : List Binding}
    {action : Action} (begun : Begins ids program earlier start action) (bound : ids.current ≠ some []) :
    start.current ≠ some [] := by
  induction begun with
  | now => exact bound
  | later _ _ ih => exact ih ((run_scoped _ _).last_ne_empty bound)
  | @inside ids id _ _ _ _ _ _ _ ih =>
      apply ih
      simpa [RunIds.enter_current] using ids.chosen_ne_nil id

theorem Reaches.current_ne_empty {ids state : RunIds} {program : List Action}
    (reached : Reaches ids program state) (bound : ids.current ≠ some []) :
    state.current ≠ some [] := by
  have entered (start : RunIds) (id : Option Text) : (start.enter id).2.current ≠ some [] := by
    simpa [RunIds.enter_current] using start.chosen_ne_nil id
  cases reached with
  | initial => exact bound
  | before begun => exact begun.current_ne_empty bound
  | inBlock _ => exact entered _ _
  | inComparison _ _ => exact entered _ _
  | behind begun => exact (run_scoped _ _).last_ne_empty (begun.current_ne_empty bound)

theorem bind_entered (ids : RunIds) (id : Option Text) (body : List Action) (propagates : Bool) :
    ∃ rest, (run ids (.bind id body propagates)).observations =
      .entered (ids.chosen id) (some (ids.chosen id)) :: rest := by
  rw [← RunIds.enter_current, ← RunIds.enter_eq, run]
  split
  next => exact ⟨_, rfl⟩
  next => exact ⟨_, rfl⟩

theorem Begins.follows {first ids start : RunIds} {program : List Action} {before earlier : List Binding}
    {action : Action} (begun : Begins ids program earlier start action)
    (follows : first.Follows before ids) : first.Follows (before ++ earlier) start := by
  induction begun generalizing before with
  | now => simpa using follows
  | later _ _ ih => simpa using ih (follows_run follows _)
  | inside _ ih => simpa using ih (follows.enter _)

theorem Begins.chosen_eq {ids start : RunIds} {program : List Action} {earlier : List Binding}
    {action : Action} {id : Option Text} (begun : Begins ids program earlier start action)
    (unknown : start.known? id = none) : start.chosen id = ids.source.idAt start.made := by
  rw [RunIds.chosen, unknown, ← (begun.follows (.refl ids)).source]
  rfl

theorem Begins.fresh {ids start : RunIds} {program : List Action} {earlier : List Binding}
    {action : Action} {id : Option Text} (begun : Begins ids program earlier start action)
    (unknown : start.known? id = none) (new : ids.MakesNew earlier start) :
    ids.current ≠ some (start.chosen id) ∧
      ∀ binding ∈ earlier, binding.id ≠ start.chosen id := by
  have follows := begun.follows (.refl ids)
  have other := new.not_stems
  rw [← begun.chosen_eq unknown] at other
  refine ⟨fun bound => other (.inl bound), ?_⟩
  intro binding member same
  exact other (same ▸ follows.bound binding member)

/-- Blocks and comparisons of a run keep their ids to themselves. -/
structure KeepsScopes (ids : RunIds) (program : List Action) : Prop where
  observed : Scoped ids.current (runAll ids program).observations (runAll ids program).ids.current
  part : ∀ earlier start action, Begins ids program earlier start action →
    (run start action).observations <:+: (runAll ids program).observations
  blockEntered : ∀ earlier start id body propagates,
    Begins ids program earlier start (.bind id body propagates) →
      ∃ rest, (run start (.bind id body propagates)).observations =
        .entered (start.chosen id) (some (start.chosen id)) :: rest
  blockLeft : ∀ earlier start id body propagates,
    Begins ids program earlier start (.bind id body propagates) →
      (run start (.bind id body propagates)).ids.current = start.current
  comparisonLeft : ∀ earlier start id old new hierarchy,
    Begins ids program earlier start (.compare id old new hierarchy) →
      (run start (.compare id old new hierarchy)).ids.current = start.current
  made : ∀ earlier start action id, Begins ids program earlier start action →
    start.known? id = none → start.chosen id = ids.source.idAt start.made
  fresh : ∀ earlier start action id, Begins ids program earlier start action →
    start.known? id = none → ids.MakesNew earlier start →
      ids.current ≠ some (start.chosen id) ∧ ∀ binding ∈ earlier, binding.id ≠ start.chosen id
  bound : ids.current ≠ some [] → ∀ state, Reaches ids program state → state.current ≠ some []

theorem keepsScopes (ids : RunIds) (program : List Action) : KeepsScopes ids program where
  observed := runAll_scoped ids program
  part _ _ _ begun := begun.observed
  blockEntered _ start id body propagates _ := bind_entered start id body propagates
  blockLeft _ start id body propagates _ := bind_current start id body propagates
  comparisonLeft _ start id old new hierarchy _ := compare_current start id old new hierarchy
  made _ _ _ _ begun unknown := begun.chosen_eq unknown
  fresh _ _ _ _ begun unknown new := begun.fresh unknown new
  bound bound _ reached := reached.current_ne_empty bound

end Action

/-- A comparison in a session gives back the id that was bound, and all that it notes is written with
the id it is entered with. -/
theorem Session.compare_scoped (session : Session) (time : Text) (id : Option Text)
    (old new : Snapshot) :
    (session.compare time id old new).1.ids.current = session.ids.current ∧
      ∀ hierarchy, Comparison.checkedHierarchy new none = .ok hierarchy →
        (session.compare time id old new).1.logging =
          ({ session with ids.current := some (session.ids.chosen id) }.writeNotices time
            (Comparison.run old new hierarchy .standard).notices).logging := by
  unfold compare
  cases checked : Comparison.checkedHierarchy new none with
  | error fault => simp
  | ok hierarchy =>
      refine ⟨rfl, ?_⟩
      rintro _ ⟨rfl⟩
      simp only [writeNotices, RunIds.enter_current]

/-- For every program and every id bound before it, ids are scoped to the blocks and comparisons that
they were entered with. -/
theorem run_ids_scoped (ids : RunIds) (program : List Action) :
    Action.KeepsScopes ids program ∧ ∀ (session : Session) (time : Text) (id : Option Text)
      (old new : Snapshot),
      (session.compare time id old new).1.ids.current = session.ids.current ∧
      ∀ hierarchy, Comparison.checkedHierarchy new none = .ok hierarchy →
        (session.compare time id old new).1.logging =
          ({ session with ids.current := some (session.ids.chosen id) }.writeNotices time
            (Comparison.run old new hierarchy .standard).notices).logging :=
  ⟨Action.keepsScopes ids program, Session.compare_scoped⟩

/-- A comparison and, behind what it clears, a block in a block have no other id than a new one. -/
def clearedInside : List Action :=
  [.compare none .empty .empty none,
    .bind (some "r1") [.clear, .bind none [.raise "stop"] false] false]

theorem new_id_behind_clearing :
    let earlier : List Binding := [⟨none, "000000000001"⟩, ⟨some "r1", "r1"⟩]
    let start : RunIds := { made := 1 }
    Action.Begins {} clearedInside earlier start (.bind none [.raise "stop"] false) ∧
      start.known? none = none ∧ RunIds.MakesNew {} earlier start ∧
      start.chosen none = "000000000002" ∧
      ∀ binding ∈ earlier, binding.id ≠ start.chosen none := by
  intro earlier start
  have begun : Action.Begins {} clearedInside earlier start (.bind none [.raise "stop"] false) :=
    .later rfl (.inside (.later rfl .now))
  have new : RunIds.MakesNew {} earlier start := ⟨by decide, by decide, by decide⟩
  have fresh := (run_ids_scoped {} clearedInside).1.fresh earlier start _ none begun rfl new
  exact ⟨begun, rfl, new, by decide, fresh.2⟩

end ApiSurface
