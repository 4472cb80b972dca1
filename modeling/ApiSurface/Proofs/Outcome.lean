import ApiSurface.Proofs.Nesting
import ApiSurface.Proofs.Refusal
import Mathlib.Data.List.Induction

/-! What comes of data: a snapshot, or one fault. Data that describes no document is malformed; of a
document the names are looked at first, and then which paths are there twice. -/

namespace ApiSurface

theorem firstRepeated_append_cons {α : Type} [DecidableEq α] {seen before after : List α} {item : α}
    (distinct : before.Nodup) (fresh : ∀ other ∈ before, other ∉ seen)
    (again : item ∈ seen ∨ item ∈ before) :
    firstRepeated seen (before ++ item :: after) = some item := by
  -- The prefix passes into what is seen, and stays free of repetitions on the way.
  induction before generalizing seen with
  | nil =>
      have isSeen : item ∈ seen := by simpa using again
      simp [firstRepeated, isSeen]
  | cons first rest ih =>
      obtain ⟨absent, restDistinct⟩ := List.nodup_cons.mp distinct
      have firstFresh : first ∉ seen := fresh first (by simp)
      simp only [List.cons_append, firstRepeated, firstFresh, if_false]
      apply ih restDistinct
      · intro other member seenBefore
        rcases List.mem_cons.mp seenBefore with rfl | earlier
        · exact absent member
        · exact fresh other (by simp [member]) earlier
      · rcases again with earlier | among
        · exact .inl (by simp [earlier])
        · rcases List.mem_cons.mp among with rfl | inRest
          · exact .inl (by simp)
          · exact .inr inRest

theorem exists_split_of_not_nodup {α : Type} {items : List α} (repeated : ¬ items.Nodup) :
    ∃ before item after, items = before ++ item :: after ∧ before.Nodup ∧ item ∈ before := by
  induction items using List.reverseRecOn with
  | nil => exact absurd List.nodup_nil repeated
  | append_singleton rest item ih =>
      by_cases distinct : rest.Nodup
      · refine ⟨rest, item, [], rfl, distinct, ?_⟩
        by_contra absent
        apply repeated
        rw [← List.concat_eq_append]
        exact distinct.concat absent
      · obtain ⟨before, again, after, rfl, fresh, member⟩ := ih distinct
        exact ⟨before, again, after ++ [item], by simp, fresh, member⟩

namespace Draft

theorem exists_check_eq_ok {draft : Draft} (named : draft.name ≠ [])
    (housed : draft.kind.isMember = true → draft.container ≠ []) :
    ∃ element, draft.check = .ok element := by
  rw [check, dif_pos named, dif_pos housed]
  exact ⟨_, rfl⟩

theorem check_of_unnamed {draft : Draft} (unnamed : draft.name = []) :
    draft.check = .error (.invalidElement draft.name.quoted "empty name") := by
  rw [check, dif_neg (not_not.mpr unnamed)]

end Draft

namespace Document

variable {document : Document}

def AllNamed (document : Document) : Prop := ∀ draft ∈ document.drafts, draft.name ≠ []

def AllDistinct (document : Document) : Prop := (document.drafts.map Draft.path).Nodup

def FirstUnnamed (document : Document) (draft : Draft) : Prop :=
  ∃ before after, document.drafts = before ++ draft :: after ∧
    (∀ other ∈ before, other.name ≠ []) ∧ draft.name = []

/-- No draft before this one repeats a path, and this one does. -/
def FirstRepeated (document : Document) (draft : Draft) : Prop :=
  ∃ before after, document.drafts = before ++ draft :: after ∧
    (before.map Draft.path).Nodup ∧ draft.path ∈ before.map Draft.path

theorem exists_firstUnnamed (unnamed : ¬ document.AllNamed) :
    ∃ draft, document.FirstUnnamed draft := by
  cases found : document.drafts.find? (fun draft => draft.name = []) with
  | none =>
      refine absurd (fun draft member => ?_) unnamed
      simpa using List.find?_eq_none.mp found draft member
  | some draft =>
      obtain ⟨isUnnamed, before, after, split, named⟩ := List.find?_eq_some_iff_append.mp found
      exact ⟨draft, before, after, split, by simpa using named, by simpa using isUnnamed⟩

theorem exists_firstRepeated (repeated : ¬ document.AllDistinct) :
    ∃ draft, document.FirstRepeated draft := by
  obtain ⟨paths, path, rest, split, distinct, again⟩ := exists_split_of_not_nodup repeated
  obtain ⟨before, following, drafts, rfl, tail⟩ := List.map_eq_append_iff.mp split
  obtain ⟨draft, after, rfl, rfl, rfl⟩ := List.map_eq_cons_iff.mp tail
  exact ⟨draft, before, after, drafts, distinct, again⟩

theorem housed_of_mem_drafts :
    ∀ draft ∈ document.drafts, draft.kind.isMember = true → draft.container ≠ [] := by
  intro draft member isMember
  obtain ⟨package, _, inPackage⟩ := List.mem_flatMap.mp member
  rcases List.mem_cons.mp inPackage with rfl | inTypes
  · contradiction
  · obtain ⟨type, _, inType⟩ := List.mem_flatMap.mp inTypes
    rcases List.mem_cons.mp inType with rfl | inMembers
    · cases typeKind : type.kind <;> simp [typeKind, TypeKind.kind, Kind.isMember] at isMember
    · obtain ⟨item, _, rfl⟩ := List.mem_map.mp inMembers
      exact List.cons_ne_nil _ _

theorem exists_checks (named : document.AllNamed) :
    ∃ elements, document.drafts.mapM Draft.check = .ok elements ∧
      elements.map Element.identity = document.drafts.map Draft.path := by
  obtain ⟨elements, checked⟩ := exists_mapM_eq_ok fun draft member =>
    Draft.exists_check_eq_ok (named draft member) (housed_of_mem_drafts draft member)
  refine ⟨elements, checked, ?_⟩
  rw [← Draft.toDraft_of_checks checked, List.map_map]
  rfl

theorem snapshot_of_distinct (named : document.AllNamed) (distinct : document.AllDistinct) :
    ∃ snapshot, document.snapshot = .ok snapshot := by
  obtain ⟨elements, checked, identities⟩ := exists_checks named
  have elementsDistinct : (elements.map Element.identity).Nodup := identities ▸ distinct
  obtain ⟨snapshot, built, _⟩ := Snapshot.exists_build elementsDistinct document.version
  refine ⟨snapshot, ?_⟩
  rw [Document.snapshot, checked]
  exact built

theorem snapshot_of_unnamed {draft : Draft} (first : document.FirstUnnamed draft) :
    document.snapshot = .error (.invalidElement draft.name.quoted "empty name") := by
  obtain ⟨before, after, split, named, unnamed⟩ := first
  have failed : document.drafts.mapM Draft.check =
      .error (.invalidElement draft.name.quoted "empty name") := by
    rw [split]
    refine mapM_eq_error (fun other member => ?_) (Draft.check_of_unnamed unnamed)
    have listed : other ∈ document.drafts := by simp [split, member]
    exact Draft.exists_check_eq_ok (named other member) (housed_of_mem_drafts other listed)
  rw [Document.snapshot, failed]
  rfl

theorem snapshot_of_repeated (named : document.AllNamed) {draft : Draft}
    (first : document.FirstRepeated draft) :
    document.snapshot = .error (.duplicateElement draft.path.shown) := by
  obtain ⟨elements, checked, identities⟩ := exists_checks named
  obtain ⟨before, after, split, distinct, again⟩ := first
  have found : firstRepeated [] (elements.map Element.identity) = some draft.path := by
    rw [identities, split, List.map_append, List.map_cons]
    exact firstRepeated_append_cons distinct (fun _ _ => List.not_mem_nil) (.inr again)
  rw [Document.snapshot, checked]
  change Snapshot.build elements document.version = _
  unfold Snapshot.build
  split
  next path repeated =>
    rw [found] at repeated
    cases repeated
    rfl
  next fresh =>
    rw [found] at fresh
    contradiction

theorem path_of_snapshot {snapshot : Snapshot} (made : document.snapshot = .ok snapshot) :
    document.drafts.map Draft.path = snapshot.identities := by
  rw [← toDraft_of_snapshot made, List.map_map]
  rfl

theorem allNamed_of_snapshot {snapshot : Snapshot} (made : document.snapshot = .ok snapshot) :
    document.AllNamed := by
  intro draft member
  rw [← toDraft_of_snapshot made] at member
  obtain ⟨element, _, rfl⟩ := List.mem_map.mp member
  exact element.named

theorem allDistinct_of_snapshot {snapshot : Snapshot} (made : document.snapshot = .ok snapshot) :
    document.AllDistinct := by
  rw [AllDistinct, path_of_snapshot made]
  exact snapshot.distinct

end Document

namespace Snapshot

open Document (Describes HasOversizedVersion)

/-- What comes of the data is settled by the document that it describes. -/
structure FollowsDescription (source : Text) (value : Value) : Prop where
  accepts : (∃ snapshot, ofValue source value = .ok snapshot) ↔
    ∃ document, Describes value document ∧ document.AllNamed ∧ document.AllDistinct
  holds : ∀ document snapshot, Describes value document → ofValue source value = .ok snapshot →
    snapshot.version = document.version ∧
      snapshot.elements.map Element.toDraft = document.drafts
  malformed : (∀ document, ¬ Describes value document) →
    ∃ reason, ofValue source value = .error (.fault (.snapshotParse source reason))
  unnamed : ∀ document draft, Describes value document → document.FirstUnnamed draft →
    ofValue source value = .error (.fault (.invalidElement draft.name.quoted "empty name"))
  repeated : ∀ document draft, Describes value document → document.AllNamed →
    document.FirstRepeated draft →
      ofValue source value = .error (.fault (.duplicateElement draft.path.shown))
  faults : ∀ failure, ofValue source value = .error failure → ∃ cause : Fault,
    failure = .fault cause ∧
      cause.problem.code ∈ [Code.snapshotParse, .snapshotElement, .snapshotDuplicate]

variable {source : Text} {value : Value}

theorem ofValue_of_describes (json : value.IsJson) (short : ¬ HasOversizedVersion value)
    {document : Document} (described : Describes value document) :
    ofValue source value = document.snapshot.mapError .fault := by
  have accepted := (Document.read_eq_accepted_iff json short document).mpr described
  rw [ofValue, accepted]

theorem ofValue_of_malformed (json : value.IsJson) (short : ¬ HasOversizedVersion value)
    (malformed : ∀ document, ¬ Describes value document) :
    ∃ reason, ofValue source value = .error (.fault (.snapshotParse source reason)) := by
  cases outcome : Document.read value with
  | accepted document =>
      exact absurd ((Document.read_eq_accepted_iff json short document).mp outcome)
        (malformed document)
  | refused first others =>
      refine ⟨first.path ++ ": " ++ first.flaw.message, ?_⟩
      rw [ofValue, outcome]
      simp only [Document.ofIssues_eq_shape_of_refused json short outcome]

theorem ofValue_of_oversized (oversized : HasOversizedVersion value) :
    ofValue source value = .error .unshowable := by
  obtain ⟨first, others, refused, unshowable⟩ := Document.refused_of_oversized oversized
  have failure : Failure.ofIssues first others = .unshowable := by
    simp [Failure.ofIssues, Failure.ofFlaw?, unshowable]
  rw [ofValue, refused]
  simp only [failure]

theorem exists_described_of_ofValue (json : value.IsJson) (short : ¬ HasOversizedVersion value)
    {snapshot : Snapshot} (read : ofValue source value = .ok snapshot) :
    ∃ document, Describes value document ∧ document.snapshot = .ok snapshot := by
  obtain ⟨document, accepted, made⟩ := exists_document_of_ofValue read
  exact ⟨document, (Document.read_eq_accepted_iff json short document).mp accepted, made⟩

theorem exists_ofValue (json : value.IsJson) (short : ¬ HasOversizedVersion value)
    {document : Document} (described : Describes value document) (named : document.AllNamed)
    (distinct : document.AllDistinct) : ∃ snapshot, ofValue source value = .ok snapshot := by
  obtain ⟨snapshot, made⟩ := Document.snapshot_of_distinct named distinct
  refine ⟨snapshot, ?_⟩
  rw [ofValue_of_describes json short described, made]
  rfl

theorem ofValue_of_firstUnnamed (json : value.IsJson) (short : ¬ HasOversizedVersion value)
    {document : Document} {draft : Draft} (described : Describes value document)
    (first : document.FirstUnnamed draft) : ofValue source value =
      .error (.fault (.invalidElement draft.name.quoted "empty name")) := by
  rw [ofValue_of_describes json short described, Document.snapshot_of_unnamed first]
  rfl

theorem ofValue_of_firstRepeated (json : value.IsJson) (short : ¬ HasOversizedVersion value)
    {document : Document} {draft : Draft} (described : Describes value document)
    (named : document.AllNamed) (first : document.FirstRepeated draft) :
    ofValue source value = .error (.fault (.duplicateElement draft.path.shown)) := by
  rw [ofValue_of_describes json short described, Document.snapshot_of_repeated named first]
  rfl

theorem exists_fault_of_ofValue (json : value.IsJson) (short : ¬ HasOversizedVersion value)
    {failure : Failure} (failed : ofValue source value = .error failure) :
    ∃ cause : Fault, failure = .fault cause ∧
      cause.problem.code ∈ [Code.snapshotParse, .snapshotElement, .snapshotDuplicate] := by
  -- A later rule is looked at only where the earlier ones hold.
  by_cases described : ∃ document, Describes value document
  · obtain ⟨document, described⟩ := described
    by_cases named : document.AllNamed
    · by_cases distinct : document.AllDistinct
      · obtain ⟨snapshot, read⟩ : ∃ snapshot, ofValue source value = .ok snapshot :=
          exists_ofValue json short described named distinct
        rw [read] at failed
        contradiction
      · obtain ⟨draft, first⟩ := Document.exists_firstRepeated distinct
        rw [ofValue_of_firstRepeated json short described named first] at failed
        cases failed
        exact ⟨_, rfl, by simp [Fault.problem, Problem.duplicateElement]⟩
    · obtain ⟨draft, first⟩ := Document.exists_firstUnnamed named
      rw [ofValue_of_firstUnnamed json short described first] at failed
      cases failed
      exact ⟨_, rfl, by simp [Fault.problem, Problem.invalidElement]⟩
  · obtain ⟨reason, refused⟩ : ∃ reason,
        ofValue source value = .error (.fault (.snapshotParse source reason)) :=
      ofValue_of_malformed json short (not_exists.mp described)
    rw [refused] at failed
    cases failed
    exact ⟨_, rfl, by simp [Fault.problem, Problem.snapshotParse]⟩

theorem followsDescription (json : value.IsJson) (short : ¬ HasOversizedVersion value) :
    FollowsDescription source value where
  accepts := by
    constructor
    · rintro ⟨snapshot, read⟩
      obtain ⟨document, described, made⟩ := exists_described_of_ofValue json short read
      exact ⟨document, described, Document.allNamed_of_snapshot made,
        Document.allDistinct_of_snapshot made⟩
    · rintro ⟨document, described, named, distinct⟩
      exact exists_ofValue json short described named distinct
  holds := by
    intro document snapshot described read
    rw [ofValue_of_describes json short described] at read
    have made : document.snapshot = .ok snapshot := by
      cases outcome : document.snapshot with
      | error fault => simp [outcome, Except.mapError] at read
      | ok result => simpa [outcome, Except.mapError] using read
    exact ⟨Document.version_of_snapshot made, Document.toDraft_of_snapshot made⟩
  malformed := ofValue_of_malformed json short
  unnamed _ _ := ofValue_of_firstUnnamed json short
  repeated _ _ := ofValue_of_firstRepeated json short
  faults _ := exists_fault_of_ofValue json short

theorem not_followsDescription (oversized : HasOversizedVersion value) :
    ¬ FollowsDescription source value := by
  intro follows
  obtain ⟨cause, same, _⟩ := follows.faults _ (ofValue_of_oversized oversized)
  contradiction

/-- Two packages of one name, and after them one that has no name. -/
def crowdedData : Value :=
  .map [("packages", .list [.map [("name", "p")], .map [("name", "p")], .map [("name", "")]])]

theorem isJson_single (name : Text) {content : Value} (json : content.IsJson) :
    (Value.map [(.text name, content)]).IsJson := by
  apply Value.IsJson.map
  · intro entry member
    cases List.mem_singleton.mp member
    exact ⟨name, rfl⟩
  · intro entry member
    cases List.mem_singleton.mp member
    exact json

theorem crowdedData_isJson : crowdedData.IsJson := by
  have named (name : Text) : (Value.map [("name", .text name)]).IsJson :=
    isJson_single "name" (Value.IsJson.text name)
  apply isJson_single "packages"
  apply Value.IsJson.list
  intro item among
  simp only [List.mem_cons, List.not_mem_nil, or_false] at among
  rcases among with rfl | rfl | rfl
  · exact named "p"
  · exact named "p"
  · exact named ""

def versionData (number : Int) : Value := .map [("version", .int number)]

theorem describes_versionData (number : Int) :
    Describes (versionData number) { version := some (Text.ofInt number) } := by
  refine ⟨_, rfl, ?_, ?_, rfl⟩
  · intro entry member
    cases List.mem_singleton.mp member
    exact ⟨"version", by simp, rfl⟩
  · exact Schema.MeansOrNull.some (by simp) (Schema.MeansTextOrNumber.int number)

theorem hasOversizedVersion_versionData {number : Int}
    (large : Nat.pow 10 Digits.most ≤ number.natAbs) : HasOversizedVersion (versionData number) := by
  refine ⟨_, number, rfl, ?_, rfl, large⟩
  intro entry member
  cases List.mem_singleton.mp member
  rfl

end Snapshot

end ApiSurface
