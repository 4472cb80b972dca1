import ApiSurface.Proofs.Description

/-! What data is refused for. Every flaw that is found is an issue with the data, apart from a version
that is too long to be written, which is found before all issues. -/

namespace ApiSurface

namespace Schema

variable {α β : Type}

theorem Checked.eq_refused_of_issues {checked : Checked α} {first : Issue} {others : List Issue}
    (found : checked.issues = first :: others) : checked = .refused first others := by
  cases checked with
  | accepted value => contradiction
  | refused other more =>
      cases found
      rfl

/-- None of the flaws is more than an issue with the data. -/
def Checked.FindsIssues (checked : Checked α) : Prop :=
  ∀ issue ∈ checked.issues, Failure.ofFlaw? issue.flaw = none

theorem Checked.ofIssues_eq_shape {first : Issue} {others : List Issue}
    (finds : (Checked.refused first others : Checked α).FindsIssues) :
    Failure.ofIssues first others = .shape first others := by
  have nothingElse : (first :: others).findSome? (fun issue => Failure.ofFlaw? issue.flaw) = none :=
    List.findSome?_eq_none_iff.mpr finds
  rw [Failure.ofIssues, nothingElse, Option.getD_none]

namespace Checked.FindsIssues

theorem accepted (value : α) : (Checked.accepted value).FindsIssues := by
  simp [FindsIssues, issues]

theorem refuse {flaw : Flaw} (mere : Failure.ofFlaw? flaw = none) (input : Value) :
    (Checked.refuse flaw input : Checked α).FindsIssues := by
  simp [FindsIssues, issues, Checked.refuse, mere]

theorem map {checked : Checked α} (finds : checked.FindsIssues) (change : α → β) :
    (change <$> checked).FindsIssues := by
  rw [FindsIssues, issues_map]
  exact finds

theorem seq {parts : Checked (α → β)} {part : Checked α} (first : parts.FindsIssues)
    (second : part.FindsIssues) : (parts <*> part).FindsIssues := by
  intro issue member
  rw [issues_seq, List.mem_append] at member
  exact member.elim (first issue) (second issue)

theorem within {checked : Checked α} (finds : checked.FindsIssues) (place : Place) :
    (checked.within place).FindsIssues := by
  intro issue member
  rw [issues_within] at member
  obtain ⟨inner, innerMember, rfl⟩ := List.mem_map.mp member
  exact finds inner innerMember

theorem andThen {checked : Checked α} (finds : checked.FindsIssues) {next : α → Checked β}
    (nextFinds : ∀ value, (next value).FindsIssues) : (checked.andThen next).FindsIssues := by
  cases checked with
  | accepted value => exact nextFinds value
  | refused first others => exact finds

end Checked.FindsIssues

open Checked (FindsIssues)

theorem text_findsIssues (value : Value) : (text value).FindsIssues := by
  cases value with
  | text content => exact FindsIssues.accepted content
  | bytes content =>
      simp only [text]
      cases Text.utf8? content with
      | none => exact FindsIssues.refuse rfl _
      | some chars => exact FindsIssues.accepted _
  | _ => exact FindsIssues.refuse rfl _

theorem textOrNumber_findsIssues {value : Value}
    (short : ∀ number, value = .int number → (Value.int number).isShowable = true) :
    (textOrNumber value).FindsIssues := by
  unfold textOrNumber
  split
  next number =>
    rw [if_pos (short number rfl)]
    exact FindsIssues.accepted _
  next => exact FindsIssues.accepted _
  next => exact text_findsIssues value

theorem word_findsIssues {flaw : List Text → Flaw}
    (mere : ∀ words, Failure.ofFlaw? (flaw words) = none) (choices : List (Text × α)) (value : Value) :
    (word flaw choices value).FindsIssues := by
  cases value with
  | text content =>
      simp only [word]
      split
      · exact FindsIssues.refuse rfl _
      · split
        · exact FindsIssues.accepted _
        · exact FindsIssues.refuse (mere _) _
  | _ => exact FindsIssues.refuse (mere _) _

theorem flagOr_findsIssues {flaw : Flaw} (mere : Failure.ofFlaw? flaw = none) (input : Value)
    (found : Option Bool) : (flagOr flaw input found).FindsIssues := by
  cases found with
  | none => exact FindsIssues.refuse mere input
  | some flag => exact FindsIssues.accepted flag

theorem characters?_findsIssues {unreadable : Flaw} (mere : Failure.ofFlaw? unreadable = none)
    {value : Value} {checked : Checked (List Char)}
    (found : characters? unreadable value = some checked) : checked.FindsIssues := by
  unfold characters? at found
  split at found
  · split at found <;> cases found
    · exact FindsIssues.accepted _
    · exact FindsIssues.refuse rfl _
  · split at found <;> cases found
    · exact FindsIssues.accepted _
    · exact FindsIssues.refuse mere _
  · contradiction

theorem flag_findsIssues (value : Value) : (flag value).FindsIssues := by
  unfold flag
  split
  next checked found =>
    exact (characters?_findsIssues rfl found).andThen fun chars => flagOr_findsIssues rfl value _
  next =>
    split
    · exact FindsIssues.accepted _
    · split
      · exact flagOr_findsIssues rfl _ _
      · exact FindsIssues.refuse rfl _
    · split
      · split
        · exact flagOr_findsIssues rfl _ _
        · exact FindsIssues.refuse rfl _
      · exact FindsIssues.refuse rfl _
    · exact FindsIssues.refuse rfl _

section Compounds

variable {read : Reader α}

theorem nullable_findsIssues {value : Value} (finds : (read value).FindsIssues) :
    (nullable read value).FindsIssues := by
  unfold nullable
  split
  · exact FindsIssues.accepted none
  · exact finds.map some

theorem itemsFrom_findsIssues (finds : ∀ value, (read value).FindsIssues) (number : Nat)
    (items : List Value) : (itemsFrom read number items).FindsIssues := by
  induction items generalizing number with
  | nil => exact FindsIssues.accepted []
  | cons item rest ih => exact (((finds item).within _).map _).seq (ih (number + 1))

theorem list_findsIssues (finds : ∀ value, (read value).FindsIssues) (value : Value) :
    (list read value).FindsIssues := by
  unfold list
  split
  · exact itemsFrom_findsIssues finds 0 _
  · exact itemsFrom_findsIssues finds 0 _
  · exact FindsIssues.refuse rfl value

theorem required_findsIssues (finds : ∀ value, (read value).FindsIssues) (name : Text)
    (entries : Entries) : (required name read entries).FindsIssues := by
  unfold required
  split
  · exact (finds _).within _
  · exact (FindsIssues.refuse rfl _).within _

theorem defaulted_findsIssues_of_get? {entries : Entries} {name : Text}
    (finds : ∀ value, entries.get? name = some value → (read value).FindsIssues) (absent : α) :
    (defaulted name absent read entries).FindsIssues := by
  unfold defaulted
  split
  next value found => exact (finds value found).within _
  next => exact FindsIssues.accepted absent

theorem defaulted_findsIssues (finds : ∀ value, (read value).FindsIssues) (name : Text) (absent : α)
    (entries : Entries) : (defaulted name absent read entries).FindsIssues :=
  defaulted_findsIssues_of_get? (fun value _ => finds value) absent

theorem foreignEntries_findsIssues (names : List Text) (entries : Entries) :
    (foreignEntries names entries).FindsIssues := by
  intro issue member
  rw [foreignEntries, Checked.issues_ofIssues] at member
  obtain ⟨entry, _, found⟩ := List.mem_filterMap.mp member
  unfold foreignEntry? at found
  split at found
  · split at found
    · contradiction
    · cases found
      rfl
  · cases found
    rfl

theorem closedRecord_findsIssues {label : Text} {names : List Text} {fields : Entries → Checked α}
    {value : Value}
    (finds : ∀ entries, value.bare = .map entries →
      (∀ entry ∈ entries, isUnreadable entry.1 = false) → (fields entries).FindsIssues) :
    (closedRecord label names fields value).FindsIssues := by
  unfold closedRecord
  split
  next entries isMap =>
    split
    · exact FindsIssues.refuse rfl _
    next readable =>
      have fieldsFind := finds entries isMap (by simpa using List.find?_eq_none.mp readable)
      exact (fieldsFind.map _).seq (foreignEntries_findsIssues names entries)
  · exact FindsIssues.refuse rfl value

end Compounds

end Schema

namespace Document

open Schema

theorem optionalText_findsIssues (name : Text) (entries : Entries) :
    (defaulted name none (nullable text) entries).FindsIssues :=
  defaulted_findsIssues (fun value => nullable_findsIssues (text_findsIssues value)) name none entries

theorem optionalFlag_findsIssues (name : Text) (absent : Bool) (entries : Entries) :
    (defaulted name absent flag entries).FindsIssues :=
  defaulted_findsIssues flag_findsIssues name absent entries

theorem memberKind_findsIssues (value : Value) : (readMemberKind value).FindsIssues :=
  word_findsIssues (fun _ => rfl) _ value

theorem typeKind_findsIssues (value : Value) : (readTypeKind value).FindsIssues :=
  word_findsIssues (fun _ => rfl) _ value

theorem optionalObligation_findsIssues (entries : Entries) :
    (defaulted "obligation" none readObligation entries).FindsIssues :=
  defaulted_findsIssues (fun value => nullable_findsIssues (word_findsIssues (fun _ => rfl) _ value))
    "obligation" none entries

theorem member_findsIssues (value : Value) : (Member.read value).FindsIssues := by
  apply closedRecord_findsIssues
  intro entries _ _
  have name := (required_findsIssues text_findsIssues "name" entries).map Member.mk
  have kind := name.seq (defaulted_findsIssues memberKind_findsIssues "kind" .method entries)
  have identifier := kind.seq (optionalText_findsIssues "ogc_name" entries)
  have obligation := identifier.seq (optionalObligation_findsIssues entries)
  have type := obligation.seq (optionalText_findsIssues "type" entries)
  have isPublic := type.seq (optionalFlag_findsIssues "public" true entries)
  exact isPublic.seq (optionalFlag_findsIssues "deprecated" false entries)

theorem type_findsIssues (value : Value) : (TypeItem.read value).FindsIssues := by
  apply closedRecord_findsIssues
  intro entries _ _
  have name := (required_findsIssues text_findsIssues "name" entries).map TypeItem.mk
  have kind := name.seq (defaulted_findsIssues typeKind_findsIssues "kind" .interfaceType entries)
  have identifier := kind.seq (optionalText_findsIssues "ogc_name" entries)
  have obligation := identifier.seq (optionalObligation_findsIssues entries)
  have parent := obligation.seq (optionalText_findsIssues "parent" entries)
  have isPublic := parent.seq (optionalFlag_findsIssues "public" true entries)
  have isDeprecated := isPublic.seq (optionalFlag_findsIssues "deprecated" false entries)
  exact isDeprecated.seq
    (defaulted_findsIssues (list_findsIssues member_findsIssues) "members" [] entries)

theorem package_findsIssues (value : Value) : (Package.read value).FindsIssues := by
  apply closedRecord_findsIssues
  intro entries _ _
  have name := (required_findsIssues text_findsIssues "name" entries).map Package.mk
  have isDeprecated := name.seq (optionalFlag_findsIssues "deprecated" false entries)
  exact isDeprecated.seq
    (defaulted_findsIssues (list_findsIssues type_findsIssues) "types" [] entries)

theorem packages_findsIssues (entries : Entries) :
    (defaulted "packages" [] (list Package.read) entries).FindsIssues :=
  defaulted_findsIssues (list_findsIssues package_findsIssues) "packages" [] entries

theorem read_map_findsIssues {entries : Entries} (short : ¬ HasOversizedVersion (.map entries)) :
    (Document.read (.map entries)).FindsIssues := by
  apply closedRecord_findsIssues
  intro given isMap readable
  cases isMap
  refine ((defaulted_findsIssues_of_get? ?_ none).map _).seq (packages_findsIssues entries)
  intro version found
  apply nullable_findsIssues
  apply textOrNumber_findsIssues
  exact version_isShowable short readable found

theorem read_findsIssues {value : Value} (json : value.IsJson)
    (short : ¬ HasOversizedVersion value) : (Document.read value).FindsIssues := by
  cases json with
  | map _ _ => exact read_map_findsIssues short
  | _ => exact Checked.FindsIssues.refuse rfl _

theorem ofIssues_eq_shape_of_refused {value : Value} (json : value.IsJson)
    (short : ¬ HasOversizedVersion value) {first : Issue} {others : List Issue}
    (refused : Document.read value = .refused first others) :
    Failure.ofIssues first others = .shape first others := by
  have finds : (Document.read value).FindsIssues := read_findsIssues json short
  rw [refused] at finds
  exact Checked.ofIssues_eq_shape finds

/-- The version is read before all other fields. -/
theorem refused_of_oversized {value : Value} (oversized : HasOversizedVersion value) :
    ∃ first others, Document.read value = .refused first others ∧ first.flaw = .unshowable := by
  obtain ⟨entries, number, rfl, readable, found, large⟩ := oversized
  have unshowable : (Value.int number).isShowable = false := by
    rw [← Bool.not_eq_true, isShowable_int_iff]
    exact Nat.not_lt_of_le large
  have version : defaulted "version" none (nullable textOrNumber) entries =
      .refused ⟨.unshowable, [.field "version"], .int number⟩ [] := by
    simp only [defaulted, found, nullable, textOrNumber, unshowable, Bool.false_eq_true, if_false,
      Checked.refuse, Checked.map, Checked.within, Issue.within, List.map_nil]
  have noneUnreadable : entries.find? (fun entry => isUnreadable entry.1) = none :=
    List.find?_eq_none.mpr fun entry member => by simp [readable entry member]
  let others := (defaulted "packages" [] (list Package.read) entries).issues ++
    (foreignEntries ["version", "packages"] entries).issues
  refine ⟨⟨.unshowable, [.field "version"], .int number⟩, others,
    Checked.eq_refused_of_issues ?_, rfl⟩
  have fields : Document.read (.map entries) = (fun record _ => record) <$>
      (Document.mk <$> defaulted "version" none (nullable textOrNumber) entries
        <*> defaulted "packages" [] (list Package.read) entries) <*>
          foreignEntries ["version", "packages"] entries := by
    simp only [Document.read, closedRecord, Value.bare, noneUnreadable]
  rw [fields, Checked.issues_seq, Checked.issues_map, Checked.issues_seq, Checked.issues_map, version]
  rfl

end Document

end ApiSurface
