import ApiSurface.Proofs.Precedence
import ApiSurface.Proofs.Refusal

/-! How loading settings can fail. What is wrong is told as a fault, apart from files that are no text,
scalars without a value, variables that hold no data, keys that are no texts, homes of unknown users, and
data that cannot be written into a message. -/

namespace ApiSurface

namespace Schema

variable {α β : Type} {failure : Failure}

namespace Checked

/-- A flaw was found that is more than an issue with the data. -/
def Hits (checked : Checked α) (failure : Failure) : Prop :=
  ∃ issue ∈ checked.issues, Failure.ofFlaw? issue.flaw = some failure

theorem FindsIssues.not_hits {checked : Checked α} (finds : checked.FindsIssues) :
    ¬ checked.Hits failure := by
  rintro ⟨issue, member, hit⟩
  rw [finds issue member] at hit
  contradiction

@[simp] theorem not_hits_accepted (value : α) : ¬ (Checked.accepted value).Hits failure :=
  (FindsIssues.accepted value).not_hits

theorem hits_refuse (flaw : Flaw) (input : Value) :
    (Checked.refuse flaw input : Checked α).Hits failure ↔ Failure.ofFlaw? flaw = some failure := by
  simp [Hits, refuse, issues]

@[simp] theorem hits_map (change : α → β) (checked : Checked α) :
    (change <$> checked).Hits failure ↔ checked.Hits failure := by
  simp [Hits]

@[simp] theorem hits_seq (parts : Checked (α → β)) (part : Checked α) :
    (parts <*> part).Hits failure ↔ parts.Hits failure ∨ part.Hits failure := by
  simp [Hits, or_and_right, exists_or]

@[simp] theorem hits_within (place : Place) (checked : Checked α) :
    (checked.within place).Hits failure ↔ checked.Hits failure := by
  simp [Hits, Issue.within]

theorem ofIssues_eq_of_hits {first : Issue} {others : List Issue}
    (hits : (Checked.refused first others : Checked α).Hits failure)
    (only : ∀ other, (Checked.refused first others : Checked α).Hits other → other = failure) :
    Failure.ofIssues first others = failure := by
  obtain ⟨issue, member, hit⟩ := hits
  obtain ⟨other, found⟩ : ∃ other,
      (first :: others).findSome? (fun issue => Failure.ofFlaw? issue.flaw) = some other := by
    rw [← Option.isSome_iff_exists, List.findSome?_isSome_iff]
    exact ⟨issue, member, by simp [hit]⟩
  obtain ⟨earlier, inIssues, earlierHit⟩ := List.exists_of_findSome?_eq_some found
  rw [Failure.ofIssues, found, Option.getD_some]
  exact only other ⟨earlier, inIssues, earlierHit⟩

end Checked

open Checked

variable {read : Reader α}

theorem hits_defaulted (name : Text) (absent : α) (entries : Entries) :
    (defaulted name absent read entries).Hits failure ↔
      ∃ value, entries.get? name = some value ∧ (read value).Hits failure := by
  unfold defaulted
  cases entries.get? (.text name) with
  | none => simp
  | some value => simp

theorem hits_itemsFrom (number : Nat) (items : List Value) :
    (itemsFrom read number items).Hits failure ↔ ∃ item ∈ items, (read item).Hits failure := by
  induction items generalizing number with
  | nil => simp [itemsFrom]
  | cons item rest ih => simp [itemsFrom, ih]

/-- The items of a value that is read as a list. -/
def listed? (value : Value) : Option (List Value) :=
  match value.bare with
  | .list items | .set items => some items
  | _ => none

theorem hits_list (value : Value) : (list read value).Hits failure ↔
    ∃ items, listed? value = some items ∧ ∃ item ∈ items, (read item).Hits failure := by
  unfold list listed?
  cases value.bare with
  | list items => simp [hits_itemsFrom]
  | set items => simp [hits_itemsFrom]
  | _ => simp [hits_refuse, Failure.ofFlaw?]

theorem hits_openRecord (label : Text) (fields : Entries → Checked α) (value : Value) :
    (openRecord label fields value).Hits failure ↔
      ∃ entries, value.fields? = some entries ∧ (fields entries).Hits failure := by
  unfold openRecord Value.fields?
  cases value.bare with
  | map entries => simp
  | _ => simp [hits_refuse, Failure.ofFlaw?]

theorem hits_closedRecord (label : Text) (names : List Text) (fields : Entries → Checked α)
    (entries : Entries) : (closedRecord label names fields (.map entries)).Hits failure ↔
      (∀ entry ∈ entries, isUnreadable entry.1 = false) ∧ (fields entries).Hits failure := by
  have foreign : ¬ (foreignEntries names entries).Hits failure :=
    (foreignEntries_findsIssues names entries).not_hits
  simp only [closedRecord, Value.bare]
  cases found : entries.find? fun entry => isUnreadable entry.1 with
  | none =>
      have readable : ∀ entry ∈ entries, isUnreadable entry.1 = false := by
        simpa using List.find?_eq_none.mp found
      simp only [hits_seq, hits_map, foreign, or_false]
      exact ⟨fun hit => ⟨readable, hit⟩, fun both => both.2⟩
  | some entry =>
      have unreadable := List.find?_some found
      have member := List.mem_of_find?_eq_some found
      constructor
      · simp [hits_refuse, Failure.ofFlaw?]
      · rintro ⟨readable, _⟩
        simp [readable entry member] at unreadable

theorem whole_findsIssues (value : Value) : (whole value).FindsIssues := by
  unfold whole
  split
  next checked found =>
    apply (characters?_findsIssues rfl found).andThen
    intro chars
    unfold wholeOfChars
    split
    next => exact .refuse rfl value
    next => exact .accepted _
  next =>
    split
    next => exact .accepted _
    next => exact .accepted _
    next number =>
      unfold wholeOfFloat
      split
      next =>
        split
        next => exact .refuse rfl _
        next =>
          split
          next => exact .accepted _
          next => exact .refuse rfl _
      next => exact .refuse rfl _
    next => exact .refuse rfl value

end Schema

open Schema (Checked)
open Schema.Checked (FindsIssues)

section Readers

variable (homes : Homes) (value : Value) (failure : Failure)

theorem Destination.hits_iff : (Destination.read homes value).Hits failure ↔
    failure = .unknownUser ∧
      ∃ content, Schema.text value = .accepted content ∧ homes.locate content = .unknownUser := by
  have texts := Schema.text_findsIssues value
  unfold Destination.read
  cases given : Schema.text value with
  | refused first others =>
      rw [given] at texts
      have none : ¬ (Checked.refused first others : Checked Destination).Hits failure :=
        FindsIssues.not_hits texts
      simpa [Checked.andThen] using none
  | accepted content =>
      simp only [Checked.andThen, ofText, Checked.accepted.injEq, exists_eq_left']
      by_cases isStderr : content = "stderr"
      · have located : homes.locate content = .relative := by rw [isStderr]; rfl
        simp [if_pos isStderr, located]
      · by_cases isStdout : content = "stdout"
        · have located : homes.locate content = .relative := by rw [isStdout]; rfl
          simp [if_neg isStderr, if_pos isStdout, located]
        · simp only [isStderr, isStdout, if_false]
          cases homes.locate content <;> simp [Checked.hits_refuse, Failure.ofFlaw?, eq_comm]

theorem LogOutput.hits_iff : (LogOutput.read homes value).Hits failure ↔
    ∃ word, value.child? "destination" = some word ∧ (Destination.read homes word).Hits failure := by
  have noForm (entries : Entries) :
      ¬ (Schema.defaulted "format" .console LineForm.read entries).Hits failure :=
    (Schema.defaulted_findsIssues (Schema.word_findsIssues (fun _ => rfl) _) _ _ _).not_hits
  have noLevel (entries : Entries) :
      ¬ (Schema.defaulted "level" none (Schema.nullable Severity.read) entries).Hits failure :=
    (Schema.defaulted_findsIssues (fun _ =>
      Schema.nullable_findsIssues (Schema.word_findsIssues (fun _ => rfl) _ _)) _ _ _).not_hits
  simp only [LogOutput.read, Schema.hits_openRecord, Checked.hits_seq, Checked.hits_map, noForm,
    noLevel, Schema.hits_defaulted, false_or, or_false, Value.child?, Option.bind_eq_some_iff]
  constructor
  · rintro ⟨entries, isMap, word, given, hits⟩
    exact ⟨word, ⟨entries, isMap, given⟩, hits⟩
  · rintro ⟨word, ⟨entries, isMap, given⟩, hits⟩
    exact ⟨entries, isMap, word, given, hits⟩

theorem LogSettings.hits_iff : (LogSettings.read homes value).Hits failure ↔
    ∃ data, value.child? "outputs" = some data ∧ ∃ items, Schema.listed? data = some items ∧
      ∃ item ∈ items, (LogOutput.read homes item).Hits failure := by
  have noLevel (entries : Entries) :
      ¬ (Schema.defaulted "level" .info Severity.read entries).Hits failure :=
    (Schema.defaulted_findsIssues (Schema.word_findsIssues (fun _ => rfl) _) _ _ _).not_hits
  simp only [LogSettings.read, Schema.hits_openRecord, Checked.hits_seq, Checked.hits_map, noLevel,
    Schema.hits_defaulted, Schema.hits_list, false_or, Value.child?, Option.bind_eq_some_iff]
  constructor
  · rintro ⟨entries, isMap, data, given, hits⟩
    exact ⟨data, ⟨entries, isMap, given⟩, hits⟩
  · rintro ⟨data, ⟨entries, isMap, given⟩, hits⟩
    exact ⟨entries, isMap, data, given, hits⟩

theorem Policy.readNameLimit_findsIssues : (Policy.readNameLimit value).FindsIssues := by
  apply (Schema.whole_findsIssues value).andThen
  intro number
  split
  next => exact .accepted _
  next =>
    split
    next => exact .refuse rfl value
    next => exact .refuse rfl value

theorem Policy.not_hits : ¬ (Policy.read value).Hits failure := by
  have noFlag (entries : Entries) :
      ¬ (Schema.defaulted "suppress_new_deprecated" true Schema.flag entries).Hits failure :=
    (Schema.defaulted_findsIssues Schema.flag_findsIssues _ _ _).not_hits
  have noLimit (entries : Entries) : ¬ (Schema.defaulted "breaking_summary_max_names"
      ⟨5, by decide⟩ readNameLimit entries).Hits failure :=
    (Schema.defaulted_findsIssues Policy.readNameLimit_findsIssues _ _ _).not_hits
  simp only [Policy.read, Schema.hits_openRecord, Schema.Checked.hits_seq, Schema.Checked.hits_map,
    noFlag, noLimit, or_self, and_false, exists_const, not_false_eq_true]

end Readers

namespace Settings

/-- An output is meant for the home directory of a user who is not known. -/
def NeedsUnknownHome (homes : Homes) (entries : Entries) : Prop :=
  ∃ data items item word content, (Value.map entries).at? outputsPath = some data ∧
    Schema.listed? data = some items ∧ item ∈ items ∧ item.child? "destination" = some word ∧
      Schema.text word = .accepted content ∧ homes.locate content = .unknownUser

theorem at?_outputsPath (entries : Entries) : (Value.map entries).at? outputsPath =
    (entries.get? "logging").bind (Value.child? · "outputs") := by
  have children (value : Value) : value.at? ["outputs"] = value.child? "outputs" := by
    simp [Value.at?]
  simp only [outputsPath, Value.at?_cons (.map entries), children]
  rfl

theorem fields_hits_iff (homes : Homes) (entries : Entries) (failure : Failure) :
    (fields homes entries).Hits failure ↔
      failure = .unknownUser ∧ NeedsUnknownHome homes entries := by
  have noPolicy (entries : Entries) :
      ¬ (Schema.defaulted "diff" {} Policy.read entries).Hits failure := by
    simp [Schema.hits_defaulted, Policy.not_hits]
  simp only [fields, Checked.hits_seq, Checked.hits_map, noPolicy, or_false, Schema.hits_defaulted,
    LogSettings.hits_iff, LogOutput.hits_iff, Destination.hits_iff, NeedsUnknownHome, at?_outputsPath,
    Option.bind_eq_some_iff]
  constructor
  · rintro ⟨part, isPart, data, given, items, isList, item, member, word, named, isUnknown, content,
      isText, located⟩
    exact ⟨isUnknown, data, items, item, word, content, ⟨part, isPart, given⟩, isList, member, named,
      isText, located⟩
  · rintro ⟨isUnknown, data, items, item, word, content, ⟨part, isPart, given⟩, isList, member, named,
      isText, located⟩
    exact ⟨part, isPart, data, given, items, isList, item, member, word, named, isUnknown, content,
      isText, located⟩

/-- The first check of the settings asks for the home of a user who is not known. -/
def StopsAtUnknownHome (homes : Homes) (entries : Entries) : Prop :=
  (∀ entry ∈ entries, Schema.isUnreadable entry.1 = false) ∧ NeedsUnknownHome homes entries

theorem readClosed_hits_iff (homes : Homes) (entries : Entries) (failure : Failure) :
    (readClosed homes (.map entries)).Hits failure ↔
      failure = .unknownUser ∧ StopsAtUnknownHome homes entries := by
  rw [readClosed, Schema.hits_closedRecord, fields_hits_iff, StopsAtUnknownHome, and_left_comm]

section Refused

variable {homes : Homes} {entries : Entries} {first : Schema.Issue} {others : List Schema.Issue}
  (refused : readClosed homes (.map entries) = .refused first others)

include refused

theorem ofIssues_of_unknownHome (stops : StopsAtUnknownHome homes entries) :
    Failure.ofIssues first others = .unknownUser := by
  have hits := readClosed_hits_iff homes entries
  rw [refused] at hits
  apply Checked.ofIssues_eq_of_hits ((hits _).mpr ⟨rfl, stops⟩)
  intro other hit
  exact ((hits other).mp hit).1

theorem ofIssues_of_knownHomes (goesOn : ¬ StopsAtUnknownHome homes entries) :
    Failure.ofIssues first others = .shape first others := by
  have hits := readClosed_hits_iff homes entries
  rw [refused] at hits
  apply Checked.ofIssues_eq_shape (α := Settings)
  intro issue member
  cases flaw : Failure.ofFlaw? issue.flaw with
  | none => rfl
  | some failure => exact absurd ((hits failure).mp ⟨issue, member, flaw⟩).2 goesOn

end Refused

/-- A failure that callers of settings can act on. -/
def IsFault (failure : Failure) : Prop :=
  ∃ cause : Fault, failure = .fault cause ∧
    cause.problem.code ∈ [Code.configMissing, .configParse, .configValue]

/-- The result is a failure of another kind. -/
def Strays {α : Type} (result : Except Failure α) (failure : Failure) : Prop :=
  result = .error failure ∧ ¬ IsFault failure

section Strays

variable {α β : Type} {failure : Failure}

@[simp] theorem not_strays_ok (value : α) : ¬ Strays (.ok value) failure := by
  simp [Strays]

theorem strays_error (other : Failure) :
    Strays (.error other : Except Failure α) failure ↔ failure = other ∧ ¬ IsFault other := by
  unfold Strays
  constructor
  · rintro ⟨⟨⟩, noFault⟩
    exact ⟨rfl, noFault⟩
  · rintro ⟨rfl, noFault⟩
    exact ⟨rfl, noFault⟩

theorem strays_bind (result : Except Failure α) (next : α → Except Failure β) :
    Strays (result >>= next) failure ↔
      Strays result failure ∨ ∃ value, result = .ok value ∧ Strays (next value) failure := by
  cases result with
  | error other => simp [Strays, bind, Except.bind]
  | ok value => simp [bind, Except.bind]

theorem not_isFault {failure : Failure} (other : ∀ cause, failure ≠ .fault cause) :
    ¬ IsFault failure := by
  rintro ⟨cause, same, _⟩
  exact other cause same

end Strays

end Settings

open Settings (IsFault Strays)

/-- What stands in the place of a settings file cannot be read as a document with values. -/
inductive NamedFile.Breaks (file : NamedFile) : Failure → Prop
  | directory : file.state = .directory → Breaks file .directory
  | encoding {bytes : List UInt8} : file.state = .file bytes →
      Yaml.read (Yaml.Source.ofFile bytes) = .error .brokenText → Breaks file .encoding
  | content {bytes : List UInt8} {cause : Yaml.Fault} : file.state = .file bytes →
      Yaml.read (Yaml.Source.ofFile bytes) = .error cause → cause ≠ .brokenText →
      cause.isForm = false → Breaks file (.content cause)

theorem NamedFile.strays_iff (file : NamedFile) (failure : Failure) :
    Strays file.entries failure ↔ file.Breaks failure := by
  constructor
  · rintro ⟨failed, noFault⟩
    unfold entries at failed
    cases state : file.state with
    | missing => simp [state] at failed
    | directory =>
        simp only [state, Except.error.injEq] at failed
        subst failed
        exact .directory state
    | file bytes =>
        cases read : Yaml.read (Yaml.Source.ofFile bytes) with
        | ok value =>
            cases root : value.rootEntries? with
            | some entries => simp [state, read, root] at failed
            | none =>
                simp only [state, read, root, Except.error.injEq] at failed
                subst failed
                exact absurd ⟨_, rfl, by simp [Fault.problem, Problem.configParse]⟩ noFault
        | error cause =>
            simp only [state, read, Except.error.injEq, NamedFile.failure] at failed
            by_cases broken : cause = .brokenText
            · rw [if_pos broken] at failed
              subst broken failed
              exact .encoding state read
            · rw [if_neg broken] at failed
              by_cases form : cause.isForm = true
              · rw [if_pos form] at failed
                subst failed
                exact absurd ⟨_, rfl, by simp [Fault.problem, Problem.configParse]⟩ noFault
              · rw [if_neg form] at failed
                subst failed
                exact .content state read broken (by simpa using form)
  · intro breaks
    unfold entries
    cases breaks with
    | directory state => simp [state, Settings.strays_error, IsFault]
    | encoding state read => simp [state, read, NamedFile.failure, Settings.strays_error, IsFault]
    | content state read broken form =>
        simp [state, read, NamedFile.failure, broken, form, Settings.strays_error, IsFault]

namespace Settings

section Variables

variable {α β : Type}

def failureOf? : Except Failure α → Option Failure
  | .error failure => some failure
  | .ok _ => none

theorem failureOf?_eq_some_iff (result : Except Failure α) (failure : Failure) :
    failureOf? result = some failure ↔ result = .error failure := by
  cases result <;> simp [failureOf?]

theorem failureOf?_bind {result : Except Failure α} {next : α → Except Failure β}
    (later : Option Failure) (same : ∀ value, result = .ok value → failureOf? (next value) = later) :
    failureOf? (result >>= next) = (failureOf? result).or later := by
  cases result with
  | error failure => rfl
  | ok value => exact same value rfl

def undecodable? (content : Text) : Option Failure := failureOf? (decoded content)

/-- What a variable holds for a field of a section that is given as data. -/
def dataOf? (sectionName : Text) (entry : Text × Text) : Option Text :=
  (after? (variablePrefix sectionName) entry.1).bind fun name =>
    if ({} : Rules).isComposite sectionName (nameParts "__" name.length name) && !entry.2.isEmpty then
      some entry.2
    else none

/-- What is read as data for a section, one after the other: the section as a whole, and the fields
that lie over it or make it up. -/
def askedFor (given : List (Text × Text)) (sectionName : Text) : List Text :=
  let ofFields := given.filterMap (dataOf? sectionName)
  match given.lookup (({} : Rules).named (({} : Rules).start ++ sectionName)) with
  | none => ofFields
  | some content => content :: match decoded content with
    | .ok (.map _) => ofFields
    | _ => []

theorem failureOf?_addVariable (sectionName : Text) (entries : Entries) (entry : Text × Text) :
    failureOf? (addVariable sectionName entries entry) =
      (dataOf? sectionName entry).bind undecodable? := by
  unfold addVariable dataOf?
  cases after? (variablePrefix sectionName) entry.1 with
  | none => rfl
  | some name =>
      simp only [Option.bind_some, Rules.setting]
      split
      next asked =>
        rw [Option.bind_some, undecodable?]
        cases decoded entry.2 <;> rfl
      next => rfl

theorem failureOf?_foldlM (sectionName : Text) (given : List (Text × Text)) (before : Entries) :
    failureOf? (given.foldlM (addVariable sectionName) before) =
      (given.filterMap (dataOf? sectionName)).findSome? undecodable? := by
  induction given generalizing before with
  | nil => rfl
  | cons entry rest ih =>
      rw [List.foldlM_cons, failureOf?_bind _ fun after _ => ih after, failureOf?_addVariable,
        List.filterMap_cons]
      cases dataOf? sectionName entry with
      | none => rfl
      | some content =>
          simp only [Option.bind_some, List.findSome?_cons]
          cases undecodable? content <;> rfl

theorem failureOf?_sectionValue (given : List (Text × Text)) (sectionName : Text) :
    failureOf? (({} : Rules).sectionValue given sectionName) =
      (askedFor given sectionName).findSome? undecodable? := by
  have ofFields : failureOf? (({} : Rules).sectionFields sectionName given) =
      (given.filterMap (dataOf? sectionName)).findSome? undecodable? :=
    failureOf?_foldlM sectionName given []
  unfold Rules.sectionValue askedFor
  cases given.lookup (({} : Rules).named (({} : Rules).start ++ sectionName)) with
  | none =>
      rw [failureOf?_bind none fun _ _ => rfl, ofFields, Option.or_none]
  | some content =>
      have noNull : ({} : Rules).isNull content = false := rfl
      simp only [noNull, Bool.false_eq_true, if_false, List.findSome?_cons, undecodable?]
      cases decoded content with
      | error failure => rfl
      | ok value =>
          cases value with
          | map entries =>
              change failureOf? ((({} : Rules).sectionFields sectionName given) >>= _) = _
              rw [failureOf?_bind none fun _ _ => rfl, ofFields, Option.or_none]
              rfl
          | _ => rfl

/-- What is read as data for the settings, section after section. -/
def askedForAll (environment : List (Text × Text)) : List Text :=
  sectionNames.flatMap (askedFor (({} : Rules).namedVariables environment))

theorem failureOf?_sections (environment : List (Text × Text)) :
    failureOf? (({} : Rules).sections environment) =
      (askedForAll environment).findSome? undecodable? := by
  let given := ({} : Rules).namedVariables environment
  have part (name : Text) : failureOf? (do
      return (← ({} : Rules).sectionValue given name).map fun value =>
        ((.text name, value) : Value × Value)) = (askedFor given name).findSome? undecodable? := by
    rw [failureOf?_bind none fun _ _ => rfl, failureOf?_sectionValue, Option.or_none]
  have each (names : List Text) : failureOf? (names.mapM fun name => do
      return (← ({} : Rules).sectionValue given name).map fun value =>
        ((.text name, value) : Value × Value)) =
      (names.flatMap (askedFor given)).findSome? undecodable? := by
    induction names with
    | nil => rfl
    | cons name rest ih =>
        rw [List.mapM_cons,
          failureOf?_bind ((rest.flatMap (askedFor given)).findSome? undecodable?), part,
          List.flatMap_cons, List.findSome?_append]
        intro value _
        rw [failureOf?_bind none fun _ _ => rfl, ih, Option.or_none]
  unfold Rules.sections
  rw [failureOf?_bind none fun _ _ => rfl, Option.or_none]
  exact each sectionNames

theorem decoded_failure {content : Text} {failure : Failure}
    (undecodable : undecodable? content = some failure) :
    failure = .environment ∨ failure = .depth := by
  rw [undecodable?, failureOf?_eq_some_iff, decoded] at undecodable
  split at undecodable
  next =>
    cases undecodable
    exact .inl rfl
  next =>
    split at undecodable
    next =>
      cases undecodable
      exact .inr rfl
    next =>
      split at undecodable
      next =>
        cases undecodable
        exact .inl rfl
      next => contradiction

theorem sections_strays_iff (environment : List (Text × Text)) (failure : Failure) :
    Strays (({} : Rules).sections environment) failure ↔
      (askedForAll environment).findSome? undecodable? = some failure := by
  rw [Strays, ← failureOf?_eq_some_iff, failureOf?_sections, and_iff_left_iff_imp]
  intro found
  obtain ⟨content, _, undecodable⟩ := List.exists_of_findSome?_eq_some found
  rcases decoded_failure undecodable with rfl | rfl
  · exact not_isFault nofun
  · exact not_isFault nofun

end Variables

theorem upperFile_not_strays (sources : Sources) (failure : Failure) :
    ¬ Strays sources.upperFile failure := by
  unfold Sources.upperFile
  split
  next => simp
  next =>
    split
    next => simp
    next => simp [strays_error, IsFault, Fault.problem, Problem.configMissing]

/-- What stands in the way of settings and is told as no fault, in the order in which it is met. -/
inductive Obstacle (homes : Homes) (sources : Sources) : Failure → Prop
  | globalFile {upper : NamedFile} {failure : Failure} : sources.upperFile = .ok upper →
      sources.globalFile.Breaks failure → Obstacle homes sources failure
  | upperFile {upper : NamedFile} {below : Entries} {failure : Failure} :
      sources.upperFile = .ok upper → sources.globalFile.entries = .ok below →
      upper.Breaks failure → Obstacle homes sources failure
  /-- Both files hold maps that are parts of themselves in the same place. -/
  | endless {upper : NamedFile} {below above : Entries} : sources.upperFile = .ok upper →
      sources.globalFile.entries = .ok below → upper.entries = .ok above →
      Entries.isEndlessLayer below above = true → Obstacle homes sources .depth
  | environment {files : Entries} {failure : Failure} : sources.fileEntries = .ok files →
      (askedForAll sources.environment).findSome? undecodable? = some failure →
      Obstacle homes sources failure
  | key {entries : Entries} : sources.entries homes = .ok entries →
      (∃ entry ∈ entries, isText entry.1 = false) → Obstacle homes sources .name
  | home {entries : Entries} : sources.entries homes = .ok entries →
      (∀ entry ∈ entries, isText entry.1 = true) → StopsAtUnknownHome homes entries →
      Obstacle homes sources .unknownUser
  /-- The data that is refused holds a number too long to be written. -/
  | unshowable {entries : Entries} {first : Schema.Issue} {others : List Schema.Issue} :
      sources.entries homes = .ok entries → (∀ entry ∈ entries, isText entry.1 = true) →
      ¬ StopsAtUnknownHome homes entries →
      readClosed homes (.map entries) = .refused first others → first.input.isShowable = false →
      Obstacle homes sources .unshowable

section Stages

variable {homes : Homes} {sources : Sources} {failure : Failure}

theorem fileEntries_strays_iff : Strays sources.fileEntries failure ↔
    ∃ upper, sources.upperFile = .ok upper ∧ (sources.globalFile.Breaks failure ∨
      ∃ below, sources.globalFile.entries = .ok below ∧ (upper.Breaks failure ∨
        ∃ above, upper.entries = .ok above ∧ Entries.isEndlessLayer below above = true ∧
          failure = .depth)) := by
  have layered (below above : Entries) : Strays (do
      if Entries.isEndlessLayer below above then throw Failure.depth
      return Entries.layer below above) failure ↔
        Entries.isEndlessLayer below above = true ∧ failure = .depth := by
    have noFault : ¬ IsFault .depth := not_isFault nofun
    cases Entries.isEndlessLayer below above with
    | true =>
        change Strays (.error .depth) failure ↔ _
        simp [strays_error, noFault]
    | false => simp [pure, Except.pure]
  simp only [Sources.fileEntries, strays_bind, upperFile_not_strays, false_or,
    NamedFile.strays_iff, layered]

theorem entries_strays_iff (only : Schema.HasOnly sectionNames sources.arguments)
    (unreserved : ∀ name ∈ sources.reserved, name ∉ sectionNames) :
    Strays (sources.entries homes) failure ↔ Strays sources.fileEntries failure ∨
      ∃ files, sources.fileEntries = .ok files ∧
        (askedForAll sources.environment).findSome? undecodable? = some failure := by
  simp only [Sources.entries, none_reserved only unreserved, Bool.false_eq_true, if_false,
    rules_ofArguments only, strays_bind]
  simp [pure, Except.pure, sections_strays_iff]

/-- The settings in the gathered entries, or the failure that callers are told. -/
def gathered (homes : Homes) (entries : Entries) : Except Failure Settings :=
  match readClosed homes (.map entries) with
  | .accepted settings => .ok settings
  | .refused first others => .error (loadFailure (.ofIssues first others))

theorem checked_strays_iff (entries : Entries) : Strays (gathered homes entries) failure ↔
    StopsAtUnknownHome homes entries ∧ failure = .unknownUser ∨
      ¬ StopsAtUnknownHome homes entries ∧ failure = .unshowable ∧ ∃ first others,
        readClosed homes (.map entries) = .refused first others ∧ first.input.isShowable = false := by
  unfold gathered
  cases refused : readClosed homes (.map entries) with
  | accepted settings =>
      have goesOn : ¬ StopsAtUnknownHome homes entries := by
        intro stops
        have hits := (readClosed_hits_iff homes entries .unknownUser).mpr ⟨rfl, stops⟩
        simp [refused] at hits
      simp [goesOn]
  | refused first others =>
      by_cases stops : StopsAtUnknownHome homes entries
      · have noFault : ¬ IsFault .unknownUser := not_isFault nofun
        simp [ofIssues_of_unknownHome refused stops, loadFailure, strays_error, stops, noFault]
      · have noFault : ¬ IsFault .unshowable := not_isFault nofun
        simp only [ofIssues_of_knownHomes refused stops, loadFailure, strays_error, stops]
        cases showable : first.input.isShowable with
        | true => simp [IsFault, Fault.problem, Problem.configValue, showable]
        | false => simp [noFault, showable]

theorem gather_strays_iff : Strays (gather homes sources) failure ↔
    Strays (sources.entries homes) failure ∨ ∃ entries, sources.entries homes = .ok entries ∧
      (entries.all (isText ·.1) = false ∧ failure = .name ∨
        entries.all (isText ·.1) = true ∧
          Strays (gathered homes entries) failure) := by
  rw [gather, strays_bind]
  refine or_congr_right (exists_congr fun entries => and_congr_right fun _ => ?_)
  have noFault : ¬ IsFault .name := not_isFault fun _ => Failure.noConfusion
  cases entries.all (isText ·.1) with
  | true =>
      simp only [Bool.true_eq_false, false_and, false_or, true_and]
      rfl
  | false =>
      change Strays (.error .name) failure ↔ _
      simp [strays_error, noFault]

end Stages

/-- A file holds one byte that begins no character. -/
def strayByteSources : Sources where
  globalFile := ⟨"/home/user/.config/apidiff/config.yaml", .missing⟩
  projectFile := ⟨"/project/.apidiff/config.yaml", .file [0xFF]⟩

/-- One of the outputs lies in the home of a user who is not known. -/
def strangeHomeSources : Sources where
  globalFile := ⟨"/home/user/.config/apidiff/config.yaml", .missing⟩
  projectFile := ⟨"/project/.apidiff/config.yaml", .missing⟩
  environment := [("Apidiff__Logging__Outputs", "[]"), ("APIDIFF__DIFF__WORD", "x")]
  arguments := [("logging", .map [("outputs", .list [.map [("destination", "stderr")],
    .map [("destination", "~guest/today.log")]])])]
  reserved := ["project_root", "config_path"]

end Settings

end ApiSurface
