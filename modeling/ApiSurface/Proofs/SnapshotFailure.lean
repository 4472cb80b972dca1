import ApiSurface.Proofs.Outcome
import ApiSurface.Snapshot.File

/-! How loading a snapshot from a file can fail. What is wrong with the file is told as a fault, apart
from scalars that have no value, documents that are too deep, and a version too long to be written. -/

namespace ApiSurface

namespace Document

theorem code_of_snapshot_error {document : Document} {cause : Fault}
    (failed : document.snapshot = .error cause) :
    cause.problem.code ∈ [Code.snapshotElement, .snapshotDuplicate] := by
  by_cases named : document.AllNamed
  · by_cases distinct : document.AllDistinct
    · obtain ⟨snapshot, made⟩ := snapshot_of_distinct named distinct
      rw [made] at failed
      contradiction
    · obtain ⟨draft, first⟩ := exists_firstRepeated distinct
      rw [snapshot_of_repeated named first] at failed
      cases failed
      simp [Fault.problem, Problem.duplicateElement]
  · obtain ⟨draft, first⟩ := exists_firstUnnamed named
    rw [snapshot_of_unnamed first] at failed
    cases failed
    simp [Fault.problem, Problem.invalidElement]

end Document

namespace Snapshot

open Document (HasOversizedVersion)

/-- A failure that callers of snapshots can act on. -/
def IsFault (failure : Failure) : Prop :=
  ∃ cause : Fault, failure = .fault cause ∧ cause.problem.code ∈
    [Code.snapshotMissing, .snapshotParse, .snapshotElement, .snapshotDuplicate]

theorem isFault_of_ofValue_map {source : Text} {entries : Entries}
    (short : ¬ HasOversizedVersion (.map entries)) {failure : Failure}
    (failed : ofValue source (.map entries) = .error failure) : IsFault failure := by
  have finds := Document.read_map_findsIssues short
  unfold ofValue at failed
  cases outcome : Document.read (.map entries) with
  | accepted document =>
      cases made : document.snapshot with
      | ok snapshot => simp [outcome, made, Except.mapError] at failed
      | error cause =>
          simp only [outcome, made, Except.mapError, Except.error.injEq] at failed
          subst failed
          have code := Document.code_of_snapshot_error made
          exact ⟨cause, rfl, List.mem_of_mem_drop (i := 2) code⟩
  | refused first others =>
      rw [outcome] at finds
      simp only [outcome, Schema.Checked.ofIssues_eq_shape finds, Except.error.injEq] at failed
      subst failed
      exact ⟨_, rfl, by simp [Fault.problem, Problem.snapshotParse]⟩

/-- Notices aside, a snapshot is loaded from the entries of its file. -/
theorem load_result (file : NamedFile) : (load file).result =
    (fileEntries file).bind fun entries => ofValue file.path (.map entries) := by
  cases given : fileEntries file with
  | error failure =>
      simp [load, given, bind, Traced.andThen, Traced.ofExcept, Except.bind]
  | ok entries =>
      cases made : ofValue file.path (.map entries) <;>
        simp [load, given, made, noteBuilt, bind, pure, Traced.andThen, Traced.ofExcept, Traced.note,
          Except.bind]

/-- What a file holds that leads to a failure of another kind. -/
inductive Derails (file : NamedFile) : Failure → Prop
  /-- The document is too deep, or one of its scalars has no value. -/
  | content {bytes : List UInt8} {cause : Yaml.Fault} : file.state = .file bytes →
      Yaml.readBytes bytes = .error cause → cause.isForm = false → Derails file (.content cause)
  | version {bytes : List UInt8} {value : Value} {entries : Entries} : file.state = .file bytes →
      Yaml.readBytes bytes = .ok value → value.rootEntries? = some entries →
      HasOversizedVersion (.map entries) → Derails file .unshowable

theorem Derails.load_eq {file : NamedFile} {failure : Failure} (derails : Derails file failure) :
    (load file).result = .error failure := by
  rw [load_result, fileEntries]
  cases derails with
  | content isFile unread noForm =>
      simp [isFile, unread, noForm, Except.bind]
  | version isFile read isRoot oversized =>
      simp only [isFile, read, isRoot, Except.bind]
      exact ofValue_of_oversized oversized

theorem Derails.not_isFault {file : NamedFile} {failure : Failure} (derails : Derails file failure) :
    ¬ IsFault failure := by
  rintro ⟨cause, isFault, _⟩
  cases derails <;> contradiction

theorem derails_of_load {file : NamedFile} {failure : Failure}
    (failed : (load file).result = .error failure) (noFault : ¬ IsFault failure) :
    Derails file failure := by
  rw [load_result, fileEntries] at failed
  cases state : file.state with
  | missing =>
      simp only [state, Except.bind, Except.error.injEq] at failed
      subst failed
      exact absurd ⟨_, rfl, by simp [Fault.problem, Problem.snapshotMissing]⟩ noFault
  | directory =>
      simp only [state, Except.bind, Except.error.injEq] at failed
      subst failed
      exact absurd ⟨_, rfl, by simp [Fault.problem, Problem.snapshotMissing]⟩ noFault
  | file bytes =>
      cases read : Yaml.readBytes bytes with
      | error cause =>
          simp only [state, read, Except.bind, Except.error.injEq] at failed
          cases form : cause.isForm with
          | true =>
              simp only [form, if_true] at failed
              subst failed
              exact absurd ⟨_, rfl, by simp [Fault.problem, Problem.snapshotParse]⟩ noFault
          | false =>
              simp only [form, Bool.false_eq_true, if_false] at failed
              subst failed
              exact .content state read form
      | ok value =>
          cases root : value.rootEntries? with
          | none =>
              simp only [state, read, root, Except.bind, Except.error.injEq] at failed
              subst failed
              exact absurd ⟨_, rfl, by simp [Fault.problem, Problem.snapshotParse]⟩ noFault
          | some entries =>
              simp only [state, read, root, Except.bind] at failed
              by_cases oversized : HasOversizedVersion (.map entries)
              · rw [ofValue_of_oversized oversized] at failed
                cases failed
                exact .version state read root oversized
              · exact absurd (isFault_of_ofValue_map oversized failed) noFault

/-- A file whose version is a day that no calendar has. -/
def unknownDay : NamedFile :=
  ⟨"surface.yaml", .file ("version: 2001-02-30\n".toList.map Char.toUInt8)⟩

end Snapshot

end ApiSurface
