import ApiSurface.Proofs.Breakage
import Mathlib.Data.List.Induction

/-! The parents that the types of a version declare, and when a comparison refuses the given or the
declared ones. -/

namespace ApiSurface

structure Element.Declares (element : Element) (name parent : Text) : Prop where
  isType : element.kind.isType = true
  isNamed : element.name = name
  declares : element.declaredType = some parent

/-- Of the elements that declare a parent for a name, the last one declares this parent. -/
def DeclaresLast (elements : List Element) (name parent : Text) : Prop :=
  ∃ before element after, elements = before ++ element :: after ∧ element.Declares name parent ∧
    ∀ later ∈ after, ∀ other, ¬ later.Declares name other

namespace Snapshot

def HasType (snapshot : Snapshot) (name : Text) : Prop :=
  ∃ element ∈ snapshot.elements, element.kind.isType = true ∧ element.name = name

/-- The parent that the last of its types declares for a name is no name, or the same name. -/
def Misdeclares (snapshot : Snapshot) : Prop :=
  ∃ name parent, DeclaresLast snapshot.elements name parent ∧ (parent = [] ∨ parent = name)

/-- The first of the checks that a pair of a type and its parent fails. -/
inductive Rejects (snapshot : Snapshot) : Text → Text → Text → Prop
  | unknown {type parent} : ¬ snapshot.HasType type →
      Rejects snapshot type parent "not a type of the new snapshot"
  | nameless {type} : snapshot.HasType type → Rejects snapshot type [] "empty parent name"
  | circular {type} : snapshot.HasType type → type ≠ [] →
      Rejects snapshot type type "type is its own parent"

theorem exists_rejects_iff (snapshot : Snapshot) (type parent : Text) :
    (∃ reason, snapshot.Rejects type parent reason) ↔
      ¬ snapshot.HasType type ∨ parent = [] ∨ parent = type := by
  constructor
  · rintro ⟨_, unknown | _ | _⟩
    · exact .inl unknown
    · exact .inr (.inl rfl)
    · exact .inr (.inr rfl)
  · intro flawed
    by_cases isKnown : snapshot.HasType type
    · by_cases nameless : parent = []
      · exact ⟨_, nameless ▸ Rejects.nameless isKnown⟩
      · have circular : parent = type := by simpa [isKnown, nameless] using flawed
        subst circular
        exact ⟨_, .circular isKnown nameless⟩
    · exact ⟨_, .unknown isKnown⟩

end Snapshot

theorem declaresLast_concat (earlier : List Element) (element : Element) (name parent : Text) :
    DeclaresLast (earlier ++ [element]) name parent ↔
      element.Declares name parent ∨
        (∀ other, ¬ element.Declares name other) ∧ DeclaresLast earlier name parent := by
  constructor
  · rintro ⟨before, found, after, split, declares, last⟩
    rcases List.eq_nil_or_concat after with rfl | ⟨between, final, rfl⟩
    · obtain ⟨_, same⟩ := List.append_inj' split rfl
      exact .inl (List.singleton_inj.mp same ▸ declares)
    · rw [List.concat_eq_append, ← List.cons_append, ← List.append_assoc] at split
      obtain ⟨rfl, same⟩ := List.append_inj' split rfl
      refine .inr ⟨?_, before, found, between, rfl, declares, ?_⟩
      · exact List.singleton_inj.mp same ▸ last final (by simp)
      · exact fun later member => last later (by simp [member])
  · rintro (declares | ⟨silent, before, found, after, rfl, declares, last⟩)
    · exact ⟨earlier, element, [], rfl, declares, by simp⟩
    · refine ⟨before, found, after ++ [element], by simp, declares, ?_⟩
      intro later member
      rcases List.mem_append.mp member with inAfter | isLast
      · exact last later inAfter
      · exact List.mem_singleton.mp isLast ▸ silent

namespace Hierarchy

theorem ofPairs_concat (pairs : List (Text × Text)) (pair : Text × Text) :
    ofPairs (pairs ++ [pair]) = (ofPairs pairs).put pair.1 pair.2 := by
  simp [ofPairs]

theorem parent?_put (hierarchy : Hierarchy) (type parent name : Text) :
    (hierarchy.put type parent).parent? name =
      if name == type then some parent else hierarchy.parent? name :=
  Assoc.lookup_put type name parent hierarchy.pairs

/-- The pairs of a name and its parent that elements declare, in their order. -/
def declaredPairs (elements : List Element) : List (Text × Text) :=
  (elements.filter (·.kind.isType)).filterMap fun type =>
    type.declaredType.map fun parent => (type.name, parent)

theorem declaredPairs_concat (earlier : List Element) (element : Element) :
    (∃ name parent, element.Declares name parent ∧
      declaredPairs (earlier ++ [element]) = declaredPairs earlier ++ [(name, parent)]) ∨
    (∀ name parent, ¬ element.Declares name parent) ∧
      declaredPairs (earlier ++ [element]) = declaredPairs earlier := by
  by_cases isType : element.kind.isType = true
  · cases declared : element.declaredType with
    | some parent =>
        exact .inl ⟨element.name, parent, ⟨isType, rfl, declared⟩, by
          simp [declaredPairs, isType, declared]⟩
    | none =>
        refine .inr ⟨fun name parent declares => ?_, by simp [declaredPairs, isType, declared]⟩
        exact absurd (declared.symm.trans declares.declares) (by simp)
  · exact .inr ⟨fun name parent declares => isType declares.isType, by
      simp [declaredPairs, isType]⟩

/-- The parent of a name is the one that the last of its types declares. -/
theorem parent?_declared_iff (elements : List Element) (name parent : Text) :
    (ofPairs (declaredPairs elements)).parent? name = some parent ↔
      DeclaresLast elements name parent := by
  induction elements using List.reverseRecOn with
  | nil => simp [declaredPairs, ofPairs, empty, parent?, DeclaresLast]
  | append_singleton earlier element ih =>
      rw [declaresLast_concat]
      rcases declaredPairs_concat earlier element with ⟨type, last, declares, appended⟩ |
        ⟨silent, same⟩
      · rw [appended, ofPairs_concat, parent?_put]
        by_cases here : name = type
        · subst here
          have only (other : Text) : element.Declares name other ↔ last = other := by
            constructor
            · intro again
              exact Option.some.inj (declares.declares.symm.trans again.declares)
            · rintro rfl
              exact declares
          simp [only]
        · have other (parent : Text) : ¬ element.Declares name parent := fun again =>
            here (again.isNamed.symm.trans declares.isNamed)
          simp [here, other, ih]
      · rw [same, ih]
        simp [silent]

theorem parent?_ofSnapshot_iff (snapshot : Snapshot) (name parent : Text) :
    (ofSnapshot snapshot).parent? name = some parent ↔
      DeclaresLast snapshot.elements name parent :=
  parent?_declared_iff snapshot.elements name parent

theorem mem_ofSnapshot_iff (snapshot : Snapshot) (pair : Text × Text) :
    pair ∈ (ofSnapshot snapshot).pairs ↔ DeclaresLast snapshot.elements pair.1 pair.2 := by
  rw [← parent?_ofSnapshot_iff, parent?_eq_some_iff]

theorem hasType_of_mem {snapshot : Snapshot} {pair : Text × Text}
    (member : pair ∈ (ofSnapshot snapshot).pairs) : snapshot.HasType pair.1 := by
  obtain ⟨before, element, after, split, declares, _⟩ := (mem_ofSnapshot_iff snapshot pair).mp member
  exact ⟨element, by simp [split], declares.isType, declares.isNamed⟩

/-- The pairs before one are accepted, and that one is rejected for a reason. -/
def FirstRejected (hierarchy : Hierarchy) (snapshot : Snapshot) (type reason : Text) : Prop :=
  ∃ before parent after, hierarchy.pairs = before ++ (type, parent) :: after ∧
    (∀ earlier ∈ before, ∀ other, ¬ snapshot.Rejects earlier.1 earlier.2 other) ∧
    snapshot.Rejects type parent reason

theorem flaw?_eq_some_iff (snapshot : Snapshot) (type parent reason : Text) :
    flaw? (snapshot.types.map (·.name)) type parent = some reason ↔
      snapshot.Rejects type parent reason := by
  have listed : (snapshot.types.map (·.name)).contains type = true ↔ snapshot.HasType type := by
    simp [Snapshot.types, Snapshot.HasType, and_assoc]
  unfold flaw?
  constructor
  · intro found
    split at found
    next missed =>
      cases found
      rw [Bool.not_eq_true', ← Bool.not_eq_true, listed] at missed
      exact .unknown missed
    next hit =>
      rw [Bool.not_eq_true', Bool.not_eq_false, listed] at hit
      split at found
      next nameless =>
        cases found
        exact nameless ▸ .nameless hit
      next named =>
        split at found
        next circular =>
          cases found
          subst circular
          exact .circular hit named
        next => contradiction
  · intro rejected
    cases rejected with
    | unknown unknown =>
        rw [← listed, Bool.not_eq_true] at unknown
        simp only [unknown, Bool.not_false, if_true]
    | nameless isKnown =>
        simp only [listed.mpr isKnown, Bool.not_true, Bool.false_eq_true, if_false, if_true]
    | circular isKnown named =>
        simp only [listed.mpr isKnown, named, Bool.not_true, Bool.false_eq_true, if_false, if_true]

theorem flaw?_eq_none_iff (snapshot : Snapshot) (type parent : Text) :
    flaw? (snapshot.types.map (·.name)) type parent = none ↔
      ∀ reason, ¬ snapshot.Rejects type parent reason := by
  simp only [Option.eq_none_iff_forall_ne_some, ne_eq, flaw?_eq_some_iff]

theorem validate_eq_error_iff (hierarchy : Hierarchy) (snapshot : Snapshot) (fault : Fault) :
    hierarchy.validate snapshot = .error fault ↔
      ∃ type reason, hierarchy.FirstRejected snapshot type reason ∧
        fault = .invalidHierarchy type reason := by
  have found : hierarchy.validate snapshot = .error fault ↔
      firstFlaw? (snapshot.types.map (·.name)) hierarchy.pairs = some fault := by
    unfold validate
    split <;> simp [*]
  simp only [found, firstFlaw?, List.findSome?_eq_some_iff, Option.map_eq_some_iff,
    Option.map_eq_none_iff, flaw?_eq_some_iff, flaw?_eq_none_iff]
  constructor
  · rintro ⟨before, ⟨type, parent⟩, after, split, ⟨reason, rejected, rfl⟩, accepted⟩
    exact ⟨type, reason, ⟨before, parent, after, split, accepted, rejected⟩, rfl⟩
  · rintro ⟨type, reason, ⟨before, parent, after, split, accepted, rejected⟩, rfl⟩
    exact ⟨before, (type, parent), after, split, ⟨reason, rejected, rfl⟩, accepted⟩

theorem validate_eq_ok_iff (hierarchy : Hierarchy) (snapshot : Snapshot) :
    hierarchy.validate snapshot = .ok () ↔
      ∀ pair ∈ hierarchy.pairs, ∀ reason, ¬ snapshot.Rejects pair.1 pair.2 reason := by
  have found : hierarchy.validate snapshot = .ok () ↔
      firstFlaw? (snapshot.types.map (·.name)) hierarchy.pairs = none := by
    unfold validate
    split <;> simp [*]
  simp only [found, firstFlaw?, List.findSome?_eq_none_iff, Option.map_eq_none_iff,
    flaw?_eq_none_iff]

theorem exists_validate_error_iff (hierarchy : Hierarchy) (snapshot : Snapshot) :
    (∃ fault, hierarchy.validate snapshot = .error fault) ↔ ∃ pair ∈ hierarchy.pairs,
      ¬ snapshot.HasType pair.1 ∨ pair.2 = [] ∨ pair.2 = pair.1 := by
  have refused : (∃ fault, hierarchy.validate snapshot = .error fault) ↔
      hierarchy.validate snapshot ≠ .ok () := by
    cases hierarchy.validate snapshot <;> simp
  simp only [refused, ne_eq, validate_eq_ok_iff, ← snapshot.exists_rejects_iff, not_forall, not_not,
    exists_prop]

/-- The declared parents of a version name its own types. -/
theorem exists_validate_ofSnapshot_error_iff (snapshot : Snapshot) :
    (∃ fault, (ofSnapshot snapshot).validate snapshot = .error fault) ↔ snapshot.Misdeclares := by
  rw [exists_validate_error_iff]
  constructor
  · rintro ⟨⟨name, parent⟩, member, flawed⟩
    refine ⟨name, parent, (mem_ofSnapshot_iff snapshot _).mp member, ?_⟩
    exact flawed.resolve_left (not_not.mpr (hasType_of_mem member))
  · rintro ⟨name, parent, declares, flawed⟩
    exact ⟨(name, parent), (mem_ofSnapshot_iff snapshot _).mpr declares, .inr flawed⟩

theorem FirstRejected.reason_ne_unknown {snapshot : Snapshot} {type reason : Text}
    (first : (ofSnapshot snapshot).FirstRejected snapshot type reason) :
    reason ≠ "not a type of the new snapshot" := by
  obtain ⟨before, parent, after, split, _, rejected⟩ := first
  have member : (type, parent) ∈ (ofSnapshot snapshot).pairs := by simp [split]
  cases rejected with
  | unknown unknown => exact absurd (hasType_of_mem member) unknown
  | nameless _ => decide
  | circular _ _ => decide

end Hierarchy

namespace Comparison

/-- The comparison notes nothing and fails because of the parent of a type. -/
structure RefusedFor (outcome : Traced Comparison) (type reason : Text) : Prop where
  silent : outcome.notices = []
  failed : ∃ fault, outcome.result = .error (.fault fault) ∧
    fault.problem.code = .snapshotHierarchy ∧ fault = .invalidHierarchy type reason

theorem ofSnapshots_of_invalid {new : Snapshot} {hierarchy : Hierarchy} {fault : Fault}
    (invalid : hierarchy.validate new = .error fault) (old : Snapshot) (policy : Policy) :
    ofSnapshots old new (some hierarchy) policy = ⟨[], .error (.fault fault)⟩ := by
  have checked : checkedHierarchy new (some hierarchy) = .error fault := by
    simp [checkedHierarchy, invalid, bind, Except.bind]
  simp [ofSnapshots, checked, bind, Traced.andThen, Traced.ofFault, Except.mapError]

theorem ofSnapshots_none (old new : Snapshot) (policy : Policy) :
    ofSnapshots old new none policy = ofSnapshots old new (some (.ofSnapshot new)) policy := rfl

theorem exists_failure_iff (old new : Snapshot) (hierarchy : Hierarchy) (policy : Policy) :
    (∃ failure, (ofSnapshots old new (some hierarchy) policy).result = .error failure) ↔
      ∃ fault, hierarchy.validate new = .error fault := by
  constructor
  · rintro ⟨failure, failed⟩
    cases validated : hierarchy.validate new with
    | error fault => exact ⟨fault, rfl⟩
    | ok accepted =>
        rw [ofSnapshots_result validated] at failed
        contradiction
  · rintro ⟨fault, invalid⟩
    exact ⟨_, congrArg Traced.result (ofSnapshots_of_invalid invalid old policy)⟩

theorem exists_refusedFor {old new : Snapshot} {hierarchy : Hierarchy} {policy : Policy}
    {failure : Failure}
    (failed : (ofSnapshots old new (some hierarchy) policy).result = .error failure) :
    ∃ type reason, hierarchy.FirstRejected new type reason ∧
      RefusedFor (ofSnapshots old new (some hierarchy) policy) type reason := by
  obtain ⟨fault, invalid⟩ := (exists_failure_iff old new hierarchy policy).mp ⟨failure, failed⟩
  obtain ⟨type, reason, first, rfl⟩ := (hierarchy.validate_eq_error_iff new fault).mp invalid
  refine ⟨type, reason, first, ?_⟩
  rw [ofSnapshots_of_invalid invalid]
  exact ⟨rfl, _, rfl, rfl, rfl⟩

end Comparison

/-- When comparing fails. A given hierarchy is refused exactly if a pair names no type of the new
version, has no parent or leads back to itself, and then for the first such pair and the first of
these reasons. Without one it is refused exactly if the parent that a name is last declared with is
empty or the name, and never because of an unknown type. No refusal notes anything. -/
theorem comparison_refused_iff (old new : Snapshot) (policy : Policy) :
    (∀ hierarchy : Hierarchy,
      ((∃ failure, (Comparison.ofSnapshots old new (some hierarchy) policy).result =
          .error failure) ↔
        ∃ pair ∈ hierarchy.pairs, ¬ new.HasType pair.1 ∨ pair.2 = [] ∨ pair.2 = pair.1) ∧
      ∀ failure,
        (Comparison.ofSnapshots old new (some hierarchy) policy).result = .error failure →
          ∃ type reason, hierarchy.FirstRejected new type reason ∧
            Comparison.RefusedFor (Comparison.ofSnapshots old new (some hierarchy) policy)
              type reason) ∧
    ((∃ failure, (Comparison.ofSnapshots old new none policy).result = .error failure) ↔
      ∃ name parent, DeclaresLast new.elements name parent ∧ (parent = [] ∨ parent = name)) ∧
    ∀ failure, (Comparison.ofSnapshots old new none policy).result = .error failure →
      ∃ type reason, (Hierarchy.ofSnapshot new).FirstRejected new type reason ∧
        Comparison.RefusedFor (Comparison.ofSnapshots old new none policy) type reason ∧
        reason ≠ "not a type of the new snapshot" := by
  refine ⟨fun hierarchy => ⟨?_, ?_⟩, ?_, ?_⟩
  · rw [Comparison.exists_failure_iff, Hierarchy.exists_validate_error_iff]
  · intro failure failed
    exact Comparison.exists_refusedFor failed
  · rw [Comparison.ofSnapshots_none, Comparison.exists_failure_iff,
      Hierarchy.exists_validate_ofSnapshot_error_iff, Snapshot.Misdeclares]
  · intro failure failed
    rw [Comparison.ofSnapshots_none] at failed ⊢
    obtain ⟨type, reason, first, refused⟩ := Comparison.exists_refusedFor failed
    exact ⟨type, reason, first, refused, first.reason_ne_unknown⟩

end ApiSurface
