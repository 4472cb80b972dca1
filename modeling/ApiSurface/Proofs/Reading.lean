import ApiSurface.Failure
import ApiSurface.Schema.Record
import ApiSurface.Schema.Scalar
import Mathlib.Data.List.Forall2

/-! What readers make of JSON data. Beside each of them stands a relation that tells which data means
what, and the reader accepts exactly that. -/

namespace ApiSurface

/-- Data as JSON has it: maps have texts for keys, and there are no dates, bytes, pairs or sets. -/
inductive Value.IsJson : Value → Prop
  | null : IsJson .null
  | bool (flag) : IsJson (.bool flag)
  | int (number) : IsJson (.int number)
  | float (number) : IsJson (.float number)
  | text (content) : IsJson (.text content)
  | list {items} : (∀ item ∈ items, IsJson item) → IsJson (.list items)
  | map {entries : Entries} : (∀ entry ∈ entries, ∃ name, entry.1 = .text name) →
      (∀ entry ∈ entries, IsJson entry.2) → IsJson (.map entries)

namespace Schema

variable {α β : Type}

namespace Checked

@[simp] theorem map_eq_accepted_iff (change : α → β) (checked : Checked α) (result : β) :
    change <$> checked = .accepted result ↔
      ∃ value, checked = .accepted value ∧ change value = result := by
  cases checked <;> simp [Functor.map, both, map]

@[simp] theorem seq_eq_accepted_iff (parts : Checked (α → β)) (part : Checked α) (result : β) :
    parts <*> part = .accepted result ↔
      ∃ change value, parts = .accepted change ∧ part = .accepted value ∧ change value = result := by
  cases parts <;> cases part <;> simp [Seq.seq, both, map]

@[simp] theorem within_eq_accepted_iff (place : Place) (checked : Checked α) (value : α) :
    checked.within place = .accepted value ↔ checked = .accepted value := by
  cases checked <;> simp [within]

theorem ofIssues_eq_accepted_iff (issues : List Issue) :
    ofIssues issues = .accepted () ↔ issues = [] := by
  cases issues <;> simp [ofIssues]

@[simp] theorem issues_map (change : α → β) (checked : Checked α) :
    (change <$> checked).issues = checked.issues := by
  cases checked <;> rfl

@[simp] theorem issues_seq (parts : Checked (α → β)) (part : Checked α) :
    (parts <*> part).issues = parts.issues ++ part.issues := by
  cases parts <;> cases part <;> simp [Seq.seq, both, map, issues]

@[simp] theorem issues_within (place : Place) (checked : Checked α) :
    (checked.within place).issues = checked.issues.map (·.within place) := by
  cases checked <;> rfl

@[simp] theorem issues_ofIssues (issues : List Issue) : (ofIssues issues).issues = issues := by
  cases issues <;> rfl

end Checked

def ReadsAt (read : Reader α) (means : Value → α → Prop) (value : Value) : Prop :=
  ∀ content, read value = .accepted content ↔ means value content

/-- The reader takes from JSON data exactly what the data means. -/
def Reads (read : Reader α) (means : Value → α → Prop) : Prop :=
  ∀ value, value.IsJson → ReadsAt read means value

inductive MeansText : Value → Text → Prop
  | text (content) : MeansText (.text content) content

inductive MeansTextOrNumber : Value → Text → Prop
  | text (content) : MeansTextOrNumber (.text content) content
  | int (number) : MeansTextOrNumber (.int number) (Text.ofInt number)
  | float (number) : MeansTextOrNumber (.float number) (Text.ofChars number.render)

/-- A truth value, a number for it, or a word for it in any case. -/
inductive MeansFlag : Value → Bool → Prop
  | bool (flag) : MeansFlag (.bool flag) flag
  | int (flag) : MeansFlag (.int flag.toInt) flag
  | float {number flag} : number.toInt? = some flag.toInt → MeansFlag (.float number) flag
  | text {content chars flag} : content.toChars? = some chars →
      String.ofList (chars.map Char.toLower) ∈ (if flag then trueWords else falseWords) →
      MeansFlag (.text content) flag

def MeansWord (spelling : α → Text) (value : Value) (choice : α) : Prop :=
  value = .text (spelling choice)

inductive MeansOrNull (means : Value → α → Prop) : Value → Option α → Prop
  | null : MeansOrNull means .null none
  | some {value content} : value ≠ .null → means value content → MeansOrNull means value (some content)

def MeansList (means : Value → α → Prop) (value : Value) (contents : List α) : Prop :=
  ∃ items, value = .list items ∧ List.Forall₂ means items contents

section Scalars

theorem reads_text : Reads text MeansText := by
  intro value json content
  constructor
  · intro accepted
    cases json with
    | text content =>
        cases accepted
        exact MeansText.text content
    | _ => contradiction
  · rintro ⟨⟩
    rfl

theorem isShowable_int_iff (number : Int) :
    (Value.int number).isShowable = true ↔ number.natAbs < Nat.pow 10 Digits.most := by
  simp only [Value.isShowable, Value.isShowableWithin, decide_eq_true_eq]

theorem readsAt_textOrNumber {value : Value} (json : value.IsJson)
    (short : ∀ number, value = .int number → (Value.int number).isShowable = true) :
    ReadsAt textOrNumber MeansTextOrNumber value := by
  intro content
  constructor
  · intro accepted
    cases json with
    | int number =>
        rw [textOrNumber, if_pos (short number rfl)] at accepted
        cases accepted
        exact MeansTextOrNumber.int number
    | float number =>
        cases accepted
        exact MeansTextOrNumber.float number
    | text content =>
        cases accepted
        exact MeansTextOrNumber.text content
    | _ => contradiction
  · intro means
    cases means with
    | int number => rw [textOrNumber, if_pos (short number rfl)]
    | _ => rfl

theorem reads_word {choices : List (Text × α)} {spelling : α → Text}
    (flaw : List Text → Flaw)
    (listed : ∀ choice, choices.lookup (spelling choice) = some choice)
    (spelt : ∀ pair ∈ choices, pair.1 = spelling pair.2)
    (readable : ∀ choice, (spelling choice).toChars?.isNone = false) :
    Reads (word flaw choices) (MeansWord spelling) := by
  intro value json choice
  constructor
  · intro accepted
    cases json with
    | text content =>
        simp only [word] at accepted
        split at accepted
        · contradiction
        · split at accepted
          next found choice same =>
            cases accepted
            obtain ⟨_, _, split, _⟩ := List.lookup_eq_some_iff.mp same
            have member : (content, choice) ∈ choices := by simp [split]
            exact congrArg Value.text (spelt _ member)
          next => contradiction
    | _ => contradiction
  · rintro rfl
    simp [word, readable, listed]

theorem flagOfInt?_eq_some_iff (number : Int) (flag : Bool) :
    flagOfInt? number = some flag ↔ number = flag.toInt := by
  unfold flagOfInt?
  split
  next zero => cases flag <;> simp [zero]
  next notZero =>
    split
    next one => cases flag <;> simp [one]
    next notOne => cases flag <;> simp [notZero, notOne]

theorem flagOr_eq_accepted_iff (flaw : Flaw) (input : Value) (found : Option Bool) (flag : Bool) :
    flagOr flaw input found = .accepted flag ↔ found = some flag := by
  cases found <;> simp [flagOr, Checked.refuse]

theorem flagOfChars?_eq_some_iff (chars : List Char) (flag : Bool) :
    flagOfChars? chars = some flag ↔
      String.ofList (chars.map Char.toLower) ∈ (if flag then trueWords else falseWords) := by
  have apart : ∀ word ∈ trueWords, word ∉ falseWords := by decide
  simp only [flagOfChars?]
  generalize String.ofList (chars.map Char.toLower) = lowered
  by_cases isTrue : lowered ∈ trueWords
  · cases flag <;> simp [isTrue, apart lowered isTrue]
  · cases flag <;> simp [isTrue]

theorem flag_int_eq_accepted_iff (number : Int) (decided : Bool) :
    flag (.int number) = .accepted decided ↔ number = decided.toInt := by
  have small : isSmall decided.toInt = true := by cases decided <;> decide
  simp only [flag, characters?]
  split
  next => rw [flagOr_eq_accepted_iff, flagOfInt?_eq_some_iff]
  next large =>
    simp only [Checked.refuse, reduceCtorEq, false_iff]
    rintro rfl
    exact large small

theorem flag_float_eq_accepted_iff (number : Binary64) (decided : Bool) :
    flag (.float number) = .accepted decided ↔ number.toInt? = some decided.toInt := by
  have small : decided.toInt.natAbs < 0x8000000000000000 := by cases decided <;> decide
  simp only [flag, characters?]
  cases number.toInt? with
  | none => simp [Checked.refuse]
  | some whole =>
      simp only [Option.some.injEq]
      split
      next => rw [flagOr_eq_accepted_iff, flagOfInt?_eq_some_iff]
      next large =>
        simp only [Checked.refuse, reduceCtorEq, false_iff]
        rintro rfl
        exact large small

theorem flag_text_eq_accepted_iff (content : Text) (decided : Bool) :
    flag (.text content) = .accepted decided ↔
      ∃ chars, content.toChars? = some chars ∧ flagOfChars? chars = some decided := by
  simp only [flag, characters?]
  cases content.toChars? with
  | none => simp [Checked.refuse, Checked.andThen]
  | some chars => simp [Checked.andThen, flagOr_eq_accepted_iff]

theorem reads_flag : Reads flag MeansFlag := by
  intro value json decided
  constructor
  · intro accepted
    cases json with
    | bool known =>
        cases accepted
        exact MeansFlag.bool _
    | int number =>
        rw [(flag_int_eq_accepted_iff number decided).mp accepted]
        exact MeansFlag.int decided
    | float number => exact MeansFlag.float ((flag_float_eq_accepted_iff number decided).mp accepted)
    | text content =>
        obtain ⟨chars, readable, found⟩ := (flag_text_eq_accepted_iff content decided).mp accepted
        exact MeansFlag.text readable ((flagOfChars?_eq_some_iff chars decided).mp found)
    | _ => contradiction
  · intro means
    cases means with
    | bool => rfl
    | int => exact (flag_int_eq_accepted_iff _ decided).mpr rfl
    | float whole => exact (flag_float_eq_accepted_iff _ decided).mpr whole
    | text readable found =>
        exact (flag_text_eq_accepted_iff _ decided).mpr
          ⟨_, readable, (flagOfChars?_eq_some_iff _ decided).mpr found⟩

end Scalars

section Compounds

variable {read : Reader α} {means : Value → α → Prop}

theorem ReadsAt.nullable {value : Value} (reads : ReadsAt read means value) :
    ReadsAt (nullable read) (MeansOrNull means) value := by
  intro content
  by_cases isNull : value = .null
  · subst isNull
    constructor
    · intro accepted
      cases accepted
      exact MeansOrNull.null
    · intro meant
      cases meant with
      | null => rfl
      | some notNull _ => contradiction
  · have readOn : Schema.nullable read value = (read value).map some := by
      cases value <;> first | rfl | contradiction
    rw [readOn]
    constructor
    · intro accepted
      cases found : read value with
      | accepted inner =>
          rw [found] at accepted
          cases accepted
          exact MeansOrNull.some isNull ((reads inner).mp found)
      | refused first others =>
          rw [found] at accepted
          contradiction
    · intro meant
      cases meant with
      | null => contradiction
      | some _ meant => rw [(reads _).mpr meant, Checked.map]

theorem Reads.nullable (reads : Reads read means) :
    Reads (Schema.nullable read) (MeansOrNull means) :=
  fun value json => (reads value json).nullable

theorem itemsFrom_eq_accepted_iff (reads : Reads read means) (number : Nat) {items : List Value}
    (json : ∀ item ∈ items, item.IsJson) (contents : List α) :
    itemsFrom read number items = .accepted contents ↔ List.Forall₂ means items contents := by
  induction items generalizing number contents with
  | nil => simp [itemsFrom, eq_comm]
  | cons item rest ih =>
      have firstJson := json item (by simp)
      have restJson : ∀ other ∈ rest, other.IsJson := fun other member => json other (by simp [member])
      simp only [itemsFrom, Checked.seq_eq_accepted_iff, Checked.map_eq_accepted_iff,
        Checked.within_eq_accepted_iff, reads item firstJson _, ih _ restJson,
        List.forall₂_cons_left_iff]
      constructor
      · rintro ⟨_, others, ⟨first, meant, rfl⟩, restMeant, rfl⟩
        exact ⟨first, others, meant, restMeant, rfl⟩
      · rintro ⟨first, others, meant, restMeant, rfl⟩
        exact ⟨_, others, ⟨first, meant, rfl⟩, restMeant, rfl⟩

theorem Reads.list (reads : Reads read means) : Reads (Schema.list read) (MeansList means) := by
  intro value json contents
  constructor
  · intro accepted
    cases json with
    | list itemsJson => exact ⟨_, rfl, (itemsFrom_eq_accepted_iff reads 0 itemsJson _).mp accepted⟩
    | _ => contradiction
  · rintro ⟨items, rfl, meant⟩
    cases json with
    | list itemsJson => exact (itemsFrom_eq_accepted_iff reads 0 itemsJson _).mpr meant

/-- What a field of a map means, or what it means that the field is absent. -/
def FieldMeans (entries : Entries) (name : Text) (absent : Option α) (means : Value → α → Prop)
    (content : α) : Prop :=
  match entries.get? name with
  | some value => means value content
  | none => absent = some content

theorem isJson_of_get? {entries : Entries} (json : (Value.map entries).IsJson) {key value : Value}
    (found : entries.get? key = some value) : value.IsJson := by
  obtain ⟨entry, present, rfl⟩ := Option.map_eq_some_iff.mp found
  cases json with
  | map _ contents => exact contents entry (List.mem_of_find?_eq_some present)

theorem required_eq_accepted_iff {entries : Entries} {name : Text}
    (reads : ∀ value, entries.get? name = some value → ReadsAt read means value) (content : α) :
    required name read entries = .accepted content ↔
      FieldMeans entries name none means content := by
  unfold required FieldMeans
  cases found : entries.get? name with
  | none => simp [Checked.refuse]
  | some value => simp [reads value found content]

theorem defaulted_eq_accepted_iff {entries : Entries} {name : Text} {absent : α}
    (reads : ∀ value, entries.get? name = some value → ReadsAt read means value) (content : α) :
    defaulted name absent read entries = .accepted content ↔
      FieldMeans entries name (some absent) means content := by
  unfold defaulted FieldMeans
  cases found : entries.get? name with
  | none => simp
  | some value => simp [reads value found content]

theorem Reads.atField (reads : Reads read means) {entries : Entries}
    (json : (Value.map entries).IsJson) (name : Text) :
    ∀ value, entries.get? name = some value → ReadsAt read means value :=
  fun value found => reads value (isJson_of_get? json found)

def HasOnly (names : List Text) (entries : Entries) : Prop :=
  ∀ entry ∈ entries, ∃ name ∈ names, entry.1 = .text name

theorem foreignEntry?_eq_none_iff (names : List Text) (key value : Value) :
    foreignEntry? names key value = none ↔ ∃ name ∈ names, key = .text name := by
  unfold foreignEntry?
  cases key <;> simp

theorem foreignEntries_eq_accepted_iff (names : List Text) (entries : Entries) :
    foreignEntries names entries = .accepted () ↔ HasOnly names entries := by
  rw [foreignEntries, Checked.ofIssues_eq_accepted_iff, List.filterMap_eq_nil_iff]
  simp only [foreignEntry?_eq_none_iff, HasOnly]

theorem closedRecord_eq_accepted_iff {label : Text} {names : List Text}
    {fields : Entries → Checked α} (readable : ∀ name ∈ names, name.toChars?.isNone = false)
    {value : Value} (json : value.IsJson) (record : α) :
    closedRecord label names fields value = .accepted record ↔
      ∃ entries, value = .map entries ∧ HasOnly names entries ∧ fields entries = .accepted record := by
  cases json with
  | @map entries keys contents =>
      simp only [Value.map.injEq, exists_eq_left']
      simp only [closedRecord, Value.bare]
      split
      next entry unreadable =>
        simp only [Checked.refuse, reduceCtorEq, false_iff, not_and]
        intro only
        obtain ⟨name, member, same⟩ := only entry (List.mem_of_find?_eq_some unreadable)
        have isUnreadable : Schema.isUnreadable entry.1 = true := by
          simpa using List.find?_some unreadable
        rw [same, Schema.isUnreadable, readable name member] at isUnreadable
        contradiction
      next =>
        rw [← foreignEntries_eq_accepted_iff, Checked.seq_eq_accepted_iff]
        simp only [Checked.map_eq_accepted_iff]
        constructor
        · rintro ⟨_, ⟨⟩, ⟨_, accepted, rfl⟩, ownOnly, rfl⟩
          exact ⟨ownOnly, accepted⟩
        · rintro ⟨ownOnly, accepted⟩
          exact ⟨_, (), ⟨record, accepted, rfl⟩, ownOnly, rfl⟩
  | _ => simp [closedRecord, Value.bare, Checked.refuse]

end Compounds

end Schema

end ApiSurface
