import ApiSurface.Proofs.JsonReading
import ApiSurface.Proofs.JsonTokens
import ApiSurface.Proofs.SnapshotFailure

/-! Snapshots from files with JSON. A text in a shared spelling is loaded as its value is; a tab
between two tokens is enough for a text to be refused. -/

namespace ApiSurface

namespace Json

theorem Writing.natAbs_lt {writing : Writing} (short : writing.Short) {number : Int}
    (isNumber : writing.value = .int number) : number.natAbs < Nat.pow 10 Digits.most := by
  cases writing with
  | number numeral =>
      rw [Writing.value, Numeral.value] at isNumber
      split at isNumber
      next isWhole =>
        have size : number.natAbs = Digits.decimal numeral.whole := by
          cases isNumber
          split <;> simp
        rw [size]
        exact decimal_lt numeral.are_digits (short isWhole)
      next => contradiction
  | bool flag => cases flag <;> cases isNumber
  | _ => cases isNumber

theorem Members.exists_of_assigned (members : Members) (short : members.Short) (done : Entries) :
    ∀ entry ∈ members.assigned done,
      entry ∈ done ∨ ∃ writing : Writing, writing.Short ∧ entry.2 = writing.value := by
  intro entry member
  cases members with
  | last before key afterKey beforeValue value after =>
      rcases Yaml.mem_assign member with same | inDone
      · exact .inr ⟨value, short, same⟩
      · exact .inl inDone
  | more before key afterKey beforeValue value after rest =>
      rcases rest.exists_of_assigned short.2 _ entry member with inPut | written
      · rcases Yaml.mem_assign inPut with same | inDone
        · exact .inr ⟨value, short.1, same⟩
        · exact .inl inDone
      · exact .inr written

theorem Writing.exists_of_get? {writing : Writing} (short : writing.Short) {entries : Entries}
    (isMap : writing.value = .map entries) {key value : Value} (found : entries.get? key = some value) :
    ∃ held : Writing, held.Short ∧ held.value = value := by
  obtain ⟨entry, first, rfl⟩ := Option.map_eq_some_iff.mp found
  have member := List.mem_of_find?_eq_some first
  cases writing with
  | emptyMap gap =>
      cases isMap
      contradiction
  | map members =>
      cases isMap
      rcases members.exists_of_assigned short [] entry member with inNone | ⟨held, heldShort, same⟩
      · contradiction
      · exact ⟨held, heldShort, same.symm⟩
  | number numeral =>
      rw [Writing.value, Numeral.value] at isMap
      split at isMap <;> cases isMap
  | bool flag => cases flag <;> cases isMap
  | _ => cases isMap

theorem Writing.not_hasOversizedVersion {writing : Writing} (short : writing.Short) :
    ¬ ApiSurface.Document.HasOversizedVersion writing.value := by
  rintro ⟨entries, number, isMap, _, found, large⟩
  obtain ⟨held, heldShort, isNumber⟩ := Writing.exists_of_get? short isMap found
  exact Nat.not_lt.mpr large (Writing.natAbs_lt heldShort isNumber)

end Json

namespace Snapshot

/-- The same snapshot, or faults of one code. -/
inductive SameOutcome : Except Failure Snapshot → Except Failure Snapshot → Prop
  | built (snapshot : Snapshot) : SameOutcome (.ok snapshot) (.ok snapshot)
  | failed {first second : Fault} : first.problem.code = second.problem.code →
      SameOutcome (.error (.fault first)) (.error (.fault second))

/-- The source of the data is only told in faults. -/
theorem ofValue_sameOutcome {entries : Entries}
    (short : ¬ Document.HasOversizedVersion (.map entries)) (first second : Text) :
    SameOutcome (ofValue first (.map entries)) (ofValue second (.map entries)) := by
  have finds := Document.read_map_findsIssues short
  unfold ofValue
  cases outcome : Document.read (.map entries) with
  | accepted document =>
      cases made : document.snapshot with
      | ok snapshot => simpa [made, Except.mapError] using SameOutcome.built snapshot
      | error cause =>
          simp only [made, Except.mapError]
          exact .failed rfl
  | refused issue others =>
      rw [outcome] at finds
      simp only [Schema.Checked.ofIssues_eq_shape finds]
      exact .failed rfl

variable {document : Json.Document} {entries : Entries}

theorem load_of_json (shared : document.Shared) (isMap : document.writing.value = .map entries)
    (path : Text) : (load ⟨path, .file (Text.encoded document.chars)⟩).result =
      ofValue path (.map entries) := by
  rw [load_result, fileEntries]
  simp only [document.read_eq shared isMap]
  rfl

/-- A text in a shared spelling is read as its value, and a file with it is loaded as that value is. -/
theorem load_sameOutcome_of_json (shared : document.Shared)
    (isMap : document.writing.value = .map entries) (path source : Text) :
    Json.parse? document.chars = some (.map entries) ∧
      SameOutcome (load ⟨path, .file (Text.encoded document.chars)⟩).result
        (ofValue source (.map entries)) := by
  have short := document.writing.short_of_shared shared.writing
  have bounded := Json.Writing.not_hasOversizedVersion short
  rw [isMap] at bounded
  constructor
  · rw [document.parse?_chars short, isMap]
  · rw [load_of_json shared isMap]
    exact ofValue_sameOutcome bounded path source

/-- A key with an escaped letter, a line break behind its colon, and a number with a signed exponent. -/
def spelledVersion : Json.Document :=
  ⟨[.space], .map (.last []
    (.unit '0' '0' '7' '6' ⟨0x76, by decide⟩ (by decide) :: Json.Piece.ofChars "ersion".toList)
    [.space] [.lineFeed, .space]
    (.number
      { negative := true, whole := ['1'], places := ['5', '0']
        exponent := some
          { upper := true, negative? := some false, digits := ['2'], given := by decide
            are_digits := by decide }
        given := by decide, are_digits := by decide, no_leading_zero := by decide
        are_places := by decide })
    []), [.lineFeed]⟩

theorem load_sameOutcome_of_spelledVersion : spelledVersion.Shared ∧
    Json.parse? spelledVersion.chars =
      some (.map [("version", .float (Binary64.ofDecimal true 150 0))]) ∧
    SameOutcome (load ⟨"surface.json", .file (Text.encoded spelledVersion.chars)⟩).result
      (ofValue unnamedSource (.map [("version", .float (Binary64.ofDecimal true 150 0))])) := by
  have shared : spelledVersion.Shared := by decide +kernel
  have value : spelledVersion.writing.value =
      .map [("version", .float (Binary64.ofDecimal true 150 0))] := rfl
  exact ⟨shared, load_sameOutcome_of_json shared value "surface.json" unnamedSource⟩

def tabbedVersion : Json.Document :=
  ⟨[], .map (.last [] (Json.Piece.ofChars "version".toList) [] [.tab]
    (.text (Json.Piece.ofChars ['1'])) []), []⟩

/-- The text is refused, although its value makes a snapshot. -/
theorem load_of_tabbedVersion :
    let value : Value := .map [("version", "1")]
    let loaded := (load ⟨"surface.json", .file (Text.encoded tabbedVersion.chars)⟩).result
    Json.parse? tabbedVersion.chars = some value ∧
      loaded = .error (.fault (.snapshotParse "surface.json" Fault.malformed)) ∧
        ¬ SameOutcome loaded (ofValue unnamedSource value) := by
  intro value loaded
  have refused : loaded = .error (.fault (.snapshotParse "surface.json" Fault.malformed)) := by
    decide +kernel
  have built : (ofValue unnamedSource value).isOk = true := by decide +kernel
  refine ⟨tabbedVersion.parse?_chars trivial, refused, ?_⟩
  rw [refused]
  intro same
  cases made : ofValue unnamedSource value with
  | ok snapshot =>
      rw [made] at same
      cases same
  | error failure =>
      rw [made] at built
      contradiction

end Snapshot

end ApiSurface
