import ApiSurface.Settings.Source
import ApiSurface.Proofs.Layers
import Mathlib.Data.List.Basic
import Mathlib.Data.List.Induction

/-! Environment variables as a source of settings: each field has a variable of its own, in any case,
and the sections hold what the variables of their fields hold. -/

namespace ApiSurface.Settings

inductive Field
  | level
  | outputs
  | suppressNewDeprecated
  | nameLimit
  deriving DecidableEq

namespace Field

def sectionName : Field → Text
  | .level | .outputs => "logging"
  | .suppressNewDeprecated | .nameLimit => "diff"

def name : Field → Text
  | .level => "level"
  | .outputs => "outputs"
  | .suppressNewDeprecated => "suppress_new_deprecated"
  | .nameLimit => "breaking_summary_max_names"

/-- The name of its variable, in lower case. -/
def variableName (field : Field) : Text := "apidiff__" ++ field.sectionName ++ "__" ++ field.name

/-- What the variable sets for the field; only outputs are given as JSON. -/
def parsed (field : Field) (content : Text) : Except Failure Value :=
  if field = .outputs ∧ content ≠ [] then decoded content else .ok (.text content)

theorem sectionName_mem (field : Field) : field.sectionName ∈ sectionNames := by
  cases field <;> decide

theorem sectionName_cases (field : Field) :
    field.sectionName = "logging" ∨ field.sectionName = "diff" := by
  cases field <;> decide

theorem name_injective : Function.Injective name := by
  intro first second same
  cases first <;> cases second <;> first | rfl | exact absurd same (by decide)

theorem variableName_injective : Function.Injective variableName := by
  intro first second same
  cases first <;> cases second <;> first | rfl | exact absurd same (by decide)

theorem nameParts_name (field : Field) :
    nameParts "__" field.name.length field.name = [field.name] := by
  cases field <;> decide +kernel

theorem setting_eq (field : Field) (content : Text) :
    ({} : Rules).setting field.sectionName [field.name] content =
      (field.parsed content).map fun value => { value } := by
  have composite : ({} : Rules).isComposite field.sectionName [field.name] =
      decide (field = .outputs) := by
    cases field <;> decide +kernel
  rw [Rules.setting, composite, parsed]
  by_cases json : field = .outputs ∧ content ≠ []
  · simp [json]
  · have plain : (decide (field = .outputs) && !content.isEmpty) = false := by
      simpa using json
    rw [if_neg json, plain]
    rfl

end Field

section Sections

/-- A map of the sections that there are. -/
def ofSections (logging diff : Option Value) : Entries :=
  [logging.map fun value => ((.text "logging", value) : Value × Value),
    diff.map fun value => (.text "diff", value)].filterMap id

variable (logging diff : Option Value)

theorem get?_logging : (ofSections logging diff).get? (.text "logging") = logging := by
  cases logging <;> cases diff <;> rfl

theorem get?_diff : (ofSections logging diff).get? (.text "diff") = diff := by
  cases logging <;> cases diff <;> rfl

variable {logging diff}

theorem mem_ofSections {entry : Value × Value} (member : entry ∈ ofSections logging diff) :
    entry.1 = .text "logging" ∧ logging = some entry.2 ∨
      entry.1 = .text "diff" ∧ diff = some entry.2 := by
  obtain ⟨held, among, same⟩ := List.mem_filterMap.mp member
  rcases List.mem_pair.mp among with rfl | rfl
  · obtain ⟨value, isLogging, rfl⟩ := Option.map_eq_some_iff.mp same
    exact .inl ⟨rfl, isLogging⟩
  · obtain ⟨value, isDiff, rfl⟩ := Option.map_eq_some_iff.mp same
    exact .inr ⟨rfl, isDiff⟩

theorem ofSections_sectioned
    (loggingMap : ∀ value, logging = some value →
      ∃ fields, value.fields? = some fields ∧ fields.Distinct)
    (diffMap : ∀ value, diff = some value →
      ∃ fields, value.fields? = some fields ∧ fields.Distinct) :
    (ofSections logging diff).Sectioned sectionNames := by
  have distinct : (ofSections logging diff).Distinct := by
    have apart : (Value.text "logging").sameKey (.text "diff") = false := rfl
    cases logging <;> cases diff <;> simp [ofSections, Entries.Distinct, apart]
  constructor
  case distinct => exact distinct
  case named =>
    intro entry member
    rcases mem_ofSections member with ⟨isLogging, _⟩ | ⟨isDiff, _⟩
    · exact ⟨"logging", by decide, isLogging⟩
    · exact ⟨"diff", by decide, isDiff⟩
  case maps =>
    intro name value found
    rw [Entries.get?_eq_some_iff distinct] at found
    rcases mem_ofSections found with ⟨_, held⟩ | ⟨_, held⟩
    · exact loggingMap value held
    · exact diffMap value held

end Sections

section Variables

def variablePrefix (sectionName : Text) : Text :=
  ({} : Rules).named (({} : Rules).start ++ sectionName) ++ "__"

theorem eq_logging_or_diff {sectionName : Text} (known : sectionName ∈ sectionNames) :
    sectionName = "logging" ∨ sectionName = "diff" := by
  simpa [sectionNames] using known

theorem named_start {sectionName : Text} (known : sectionName ∈ sectionNames) :
    ({} : Rules).named (({} : Rules).start ++ sectionName) =
      Text.ofString "apidiff__" ++ sectionName := by
  rcases eq_logging_or_diff known with rfl | rfl <;> decide +kernel

theorem after_variableName {sectionName : Text} (known : sectionName ∈ sectionNames)
    (field : Field) : after? (variablePrefix sectionName) field.variableName =
      if field.sectionName = sectionName then some field.name else none := by
  rw [variablePrefix, named_start known]
  rcases eq_logging_or_diff known with rfl | rfl <;> cases field <;> decide +kernel

theorem variablePrefix_begins {sectionName : Text} (known : sectionName ∈ sectionNames) :
    Text.ofString "apidiff__" <+: variablePrefix sectionName := by
  rw [variablePrefix, named_start known, List.append_assoc]
  exact List.prefix_append _ _

/-- A name that begins like the variables of settings is the one of a field. -/
def IsKnown (name : Text) : Prop :=
  Text.ofString "apidiff__" <+: name → ∃ field : Field, name = field.variableName

theorem after_of_other {sectionName name : Text} (known : sectionName ∈ sectionNames)
    (isKnown : IsKnown name)
    (other : ∀ field : Field, field.sectionName = sectionName → name ≠ field.variableName) :
    after? (variablePrefix sectionName) name = none := by
  by_cases begins : Text.ofString "apidiff__" <+: name
  · obtain ⟨field, rfl⟩ := isKnown begins
    rw [after_variableName known]
    exact if_neg fun same => other field same rfl
  · rw [after?]
    apply if_neg
    intro within
    exact begins ((variablePrefix_begins known).trans (List.isPrefixOf_iff_prefix.mp within))

/-- Sets what one variable holds for a section. -/
def addVariable (sectionName : Text) (entries : Entries) (entry : Text × Text) :
    Except Failure Entries :=
  match after? (variablePrefix sectionName) entry.1 with
  | none => .ok entries
  | some name => do
    let keys := nameParts "__" name.length name
    return putAt (← ({} : Rules).setting sectionName keys entry.2) keys entries

theorem sectionFields_eq (sectionName : Text) (given : List (Text × Text)) :
    ({} : Rules).sectionFields sectionName given = given.foldlM (addVariable sectionName) [] := rfl

theorem addVariable_of_field (field : Field) (entries : Entries) (content : Text) :
    addVariable field.sectionName entries (field.variableName, content) =
      (field.parsed content).map (entries.put field.name) := by
  have named := after_variableName field.sectionName_mem field
  rw [if_pos rfl] at named
  simp only [addVariable, named, field.nameParts_name, field.setting_eq]
  cases field.parsed content <;> rfl

theorem addVariable_of_other {sectionName : Text} (known : sectionName ∈ sectionNames)
    {entry : Text × Text} (isKnown : IsKnown entry.1)
    (other : ∀ field : Field, field.sectionName = sectionName → entry.1 ≠ field.variableName)
    (entries : Entries) : addVariable sectionName entries entry = .ok entries := by
  rw [addVariable, after_of_other known isKnown other]

/-- A variable is the one of a field in the section, or adds nothing to the section. -/
theorem addVariable_cases {sectionName : Text} (known : sectionName ∈ sectionNames)
    {entry : Text × Text} (isKnown : IsKnown entry.1) :
    (∃ field : Field, field.sectionName = sectionName ∧ entry.1 = field.variableName ∧
      ∀ entries, addVariable sectionName entries entry =
        (field.parsed entry.2).map (entries.put field.name)) ∨
    (∀ field : Field, field.sectionName = sectionName → entry.1 ≠ field.variableName) ∧
      ∀ entries, addVariable sectionName entries entry = .ok entries := by
  by_cases here : ∃ field : Field, field.sectionName = sectionName ∧
      entry.1 = field.variableName
  · obtain ⟨field, rfl, isVariable⟩ := here
    obtain ⟨name, content⟩ := entry
    subst isVariable
    exact .inl ⟨field, rfl, rfl, fun entries => addVariable_of_field field entries content⟩
  · have other : ∀ field : Field, field.sectionName = sectionName →
        entry.1 ≠ field.variableName := fun field inSection same => here ⟨field, inSection, same⟩
    exact .inr ⟨other, addVariable_of_other known isKnown other⟩

theorem lookup_eq_none {name : Text} {given : List (Text × Text)}
    (absent : name ∉ given.map (·.1)) : given.lookup name = none := by
  rw [List.lookup_eq_none_iff]
  intro entry member
  rw [bne_iff_ne]
  rintro rfl
  exact absent (List.mem_map_of_mem member)

theorem lookup_cons_of_field (field other : Field) (content : Text) (given : List (Text × Text)) :
    ((field.variableName, content) :: given).lookup other.variableName =
      if other = field then some content else given.lookup other.variableName := by
  rw [List.lookup_cons]
  by_cases same : other = field
  · simp [same]
  · have different : (other.variableName == field.variableName) = false :=
      beq_eq_false_iff_ne.mpr fun equal => same (Field.variableName_injective equal)
    rw [different, if_neg same]

theorem lookup_cons_of_other {entry : Text × Text} {name : Text} (other : entry.1 ≠ name)
    (given : List (Text × Text)) : (entry :: given).lookup name = given.lookup name := by
  rw [List.lookup_cons, beq_eq_false_iff_ne.mpr other.symm]

/-- What variables add to the entries of a section. -/
structure Gathers (sectionName : Text) (given : List (Text × Text)) (before after : Entries) :
    Prop where
  distinct : before.Distinct → after.Distinct
  named : ∀ entry ∈ after, (∃ earlier ∈ before, earlier.1 = entry.1) ∨
    ∃ field : Field, field.sectionName = sectionName ∧ entry.1 = .text field.name
  found : ∀ field : Field, field.sectionName = sectionName →
    after.get? (.text field.name) = match given.lookup field.variableName with
      | none => before.get? (.text field.name)
      | some content => (field.parsed content).toOption

theorem Gathers.of_field {field : Field} {content : Text} {value : Value}
    (parsed : field.parsed content = .ok value) {given : List (Text × Text)}
    (fresh : field.variableName ∉ given.map (·.1)) {before after : Entries}
    (onwards : Gathers field.sectionName given (before.put field.name value) after) :
    Gathers field.sectionName ((field.variableName, content) :: given) before after where
  distinct apart := onwards.distinct (Entries.distinct_put apart _ _)
  named := by
    intro entry member
    rcases onwards.named entry member with ⟨earlier, inPut, same⟩ | new
    · rcases Entries.mem_of_put inPut with isField | ⟨first, inBefore, before⟩
      · exact .inr ⟨field, rfl, same.symm.trans isField⟩
      · exact .inl ⟨first, inBefore, before.trans same⟩
    · exact .inr new
  found := by
    intro other inSection
    rw [onwards.found other inSection, lookup_cons_of_field, Entries.get?_put]
    by_cases same : other = field
    · subst same
      have here : (Value.text other.name).sameKey (.text other.name) = true :=
        (Value.sameKey_text_iff _ _).mpr rfl
      simp [lookup_eq_none fresh, here, parsed, Except.toOption]
    · have elsewhere : (Value.text field.name).sameKey (.text other.name) = false := by
        rw [← Bool.not_eq_true, Value.sameKey_text_iff, Value.text.injEq]
        exact fun equal => same (Field.name_injective equal.symm)
      simp [same, elsewhere]

theorem Gathers.of_other {sectionName : Text} {entry : Text × Text}
    (other : ∀ field : Field, field.sectionName = sectionName → entry.1 ≠ field.variableName)
    {given : List (Text × Text)} {before after : Entries}
    (onwards : Gathers sectionName given before after) :
    Gathers sectionName (entry :: given) before after where
  distinct := onwards.distinct
  named := onwards.named
  found := by
    intro field inSection
    rw [onwards.found field inSection, lookup_cons_of_other (other field inSection)]

theorem gathers_of_foldlM {sectionName : Text} (known : sectionName ∈ sectionNames)
    {given : List (Text × Text)} (isKnown : ∀ entry ∈ given, IsKnown entry.1)
    (distinct : (given.map (·.1)).Nodup) {before after : Entries}
    (added : given.foldlM (addVariable sectionName) before = .ok after) :
    Gathers sectionName given before after := by
  induction given generalizing before with
  | nil =>
      cases added
      exact ⟨id, fun entry member => .inl ⟨entry, member, rfl⟩, fun _ _ => rfl⟩
  | cons entry rest ih =>
      obtain ⟨fresh, others⟩ := List.nodup_cons.mp distinct
      have later : ∀ entry ∈ rest, IsKnown entry.1 :=
        fun entry member => isKnown entry (List.mem_cons_of_mem _ member)
      rw [List.foldlM_cons] at added
      rcases addVariable_cases known (isKnown entry List.mem_cons_self) with
        ⟨field, rfl, isVariable, adds⟩ | ⟨other, adds⟩
      · obtain ⟨name, content⟩ := entry
        subst isVariable
        rw [adds] at added
        cases parsed : field.parsed content with
        | error failure => simp [parsed, Except.map, bind, Except.bind] at added
        | ok value =>
            rw [parsed] at added
            exact .of_field parsed fresh (ih later others added)
      · rw [adds] at added
        exact .of_other other (ih later others added)

/-- What is given for the fields of a section can be parsed. -/
def Parses (sectionName : Text) (given : List (Text × Text)) : Prop :=
  ∀ field : Field, field.sectionName = sectionName → ∀ content,
    given.lookup field.variableName = some content → ∃ value, field.parsed content = .ok value

theorem parses_cons_of_field {field : Field} {given : List (Text × Text)}
    (fresh : field.variableName ∉ given.map (·.1)) (content : Text) :
    Parses field.sectionName ((field.variableName, content) :: given) ↔
      (∃ value, field.parsed content = .ok value) ∧ Parses field.sectionName given := by
  simp only [Parses, lookup_cons_of_field]
  constructor
  · intro all
    refine ⟨all field rfl content (if_pos rfl), ?_⟩
    intro other inSection text found
    apply all other inSection text
    rw [if_neg ?_]
    · exact found
    · rintro rfl
      simp [lookup_eq_none fresh] at found
  · rintro ⟨fine, all⟩ other inSection text found
    split at found
    next same =>
      cases found
      exact same ▸ fine
    next => exact all other inSection text found

theorem parses_cons_of_other {sectionName : Text} {entry : Text × Text}
    (other : ∀ field : Field, field.sectionName = sectionName → entry.1 ≠ field.variableName)
    (given : List (Text × Text)) :
    Parses sectionName (entry :: given) ↔ Parses sectionName given := by
  apply forall_congr'
  intro field
  apply forall_congr'
  intro inSection
  rw [lookup_cons_of_other (other field inSection)]

theorem exists_foldlM_iff {sectionName : Text} (known : sectionName ∈ sectionNames)
    {given : List (Text × Text)} (isKnown : ∀ entry ∈ given, IsKnown entry.1)
    (distinct : (given.map (·.1)).Nodup) (before : Entries) :
    (∃ after, given.foldlM (addVariable sectionName) before = .ok after) ↔
      Parses sectionName given := by
  induction given generalizing before with
  | nil => simp [Parses, pure, Except.pure]
  | cons entry rest ih =>
      obtain ⟨fresh, others⟩ := List.nodup_cons.mp distinct
      have later : ∀ entry ∈ rest, IsKnown entry.1 :=
        fun entry member => isKnown entry (List.mem_cons_of_mem _ member)
      rw [List.foldlM_cons]
      rcases addVariable_cases known (isKnown entry List.mem_cons_self) with
        ⟨field, rfl, isVariable, adds⟩ | ⟨other, adds⟩
      · obtain ⟨name, content⟩ := entry
        subst isVariable
        rw [adds, parses_cons_of_field fresh]
        cases field.parsed content with
        | error failure => simp [Except.map, bind, Except.bind]
        | ok value =>
            refine (ih later others (before.put field.name value)).trans ?_
            simp
      · rw [adds, parses_cons_of_other other]
        exact ih later others before

end Variables

section Environment

variable (environment : List (Text × Text))

/-- The content of a variable by its name in lower case; of several the last one counts. -/
def contentOf? (name : Text) : Option Text :=
  (environment.reverse.find? (·.1.lower == name)).map (·.2)

theorem namedVariables_eq : ({} : Rules).namedVariables environment =
    environment.foldl (fun entries entry => Assoc.put entry.1.lower entry.2 entries) [] := by
  have all : environment.filter (fun entry => !(({} : Rules).ignoresEmpty && entry.2.isEmpty)) =
      environment := List.filter_eq_self.mpr fun _ _ => rfl
  rw [Rules.namedVariables, all]
  rfl

theorem lookup_namedVariables (name : Text) :
    (({} : Rules).namedVariables environment).lookup name = contentOf? environment name := by
  rw [namedVariables_eq]
  induction environment using List.reverseRecOn with
  | nil => rfl
  | append_singleton earlier entry ih =>
      rw [List.foldl_append, List.foldl_cons, List.foldl_nil, Assoc.lookup_put, ih, contentOf?,
        contentOf?, List.reverse_append, List.reverse_singleton, List.singleton_append,
        List.find?_cons, Bool.beq_comm]
      cases entry.1.lower == name <;> rfl

theorem mem_namedVariables {entry : Text × Text}
    (member : entry ∈ ({} : Rules).namedVariables environment) :
    ∃ given ∈ environment, given.1.lower = entry.1 := by
  have keys : entry.1 ∈ (({} : Rules).namedVariables environment).map (·.1) :=
    List.mem_map_of_mem member
  rw [namedVariables_eq] at keys
  clear member
  induction environment using List.reverseRecOn with
  | nil => simp at keys
  | append_singleton earlier last ih =>
      rw [List.foldl_append, List.foldl_cons, List.foldl_nil] at keys
      rcases Assoc.mem_keys_put keys with same | before
      · exact ⟨last, by simp, same.symm⟩
      · obtain ⟨given, inEarlier, same⟩ := ih before
        exact ⟨given, by simp [inEarlier], same⟩

theorem namedVariables_distinct :
    ((({} : Rules).namedVariables environment).map (·.1)).Nodup := by
  rw [namedVariables_eq]
  induction environment using List.reverseRecOn with
  | nil => simp
  | append_singleton earlier last ih =>
      rw [List.foldl_append, List.foldl_cons, List.foldl_nil]
      exact Assoc.nodup_keys_put _ _ _ ih

/-- Only variables of fields have names like those of settings. -/
def KnownVariables : Prop := ∀ entry ∈ environment, IsKnown entry.1.lower

variable {environment}

theorem isKnown_of_mem (known : KnownVariables environment) {entry : Text × Text}
    (member : entry ∈ ({} : Rules).namedVariables environment) : IsKnown entry.1 := by
  obtain ⟨given, inEnvironment, same⟩ := mem_namedVariables environment member
  exact same ▸ known given inEnvironment

theorem lookup_section {sectionName : Text} (isSection : sectionName ∈ sectionNames)
    (known : KnownVariables environment) : (({} : Rules).namedVariables environment).lookup
      (({} : Rules).named (({} : Rules).start ++ sectionName)) = none := by
  apply lookup_eq_none
  intro found
  obtain ⟨entry, member, same⟩ := List.mem_map.mp found
  have isKnown := isKnown_of_mem known member
  rw [same, named_start isSection] at isKnown
  obtain ⟨field, whole⟩ := isKnown (List.prefix_append _ _)
  rcases eq_logging_or_diff isSection with rfl | rfl <;> cases field <;>
    exact absurd whole (by decide)

theorem spelled_eq {sectionName : Text} {fields : Entries} (distinct : fields.Distinct)
    (named : ∀ entry ∈ fields, ∃ field : Field, field.sectionName = sectionName ∧
      entry.1 = .text field.name) : spelled (fieldNames sectionName) fields = fields := by
  have spelling (field : Field) :
      (fieldNames field.sectionName).find? (· == field.name.lower) = some field.name := by
    cases field <;> decide +kernel
  rw [spelled, List.foldl_ext (g := fun done entry => done.put entry.1 entry.2)]
  · exact Entries.foldl_put [] distinct
  · intro done entry member
    obtain ⟨field, rfl, isField⟩ := named entry member
    simp only [isField, spelling]

/-- The fields of a section, unless there are none. -/
def sectionOfFields (fields : Entries) : Option Value :=
  if fields.isEmpty then none else some (.map fields)

theorem sectionValue_eq {sectionName : Text} (isSection : sectionName ∈ sectionNames)
    (known : KnownVariables environment) :
    ({} : Rules).sectionValue (({} : Rules).namedVariables environment) sectionName =
      (({} : Rules).sectionFields sectionName (({} : Rules).namedVariables environment)).map
        sectionOfFields := by
  rw [Rules.sectionValue, lookup_section isSection known]
  cases read : ({} : Rules).sectionFields sectionName (({} : Rules).namedVariables environment) with
  | error failure => rfl
  | ok fields =>
      have gathers := gathers_of_foldlM isSection (fun _ member => isKnown_of_mem known member)
        (namedVariables_distinct environment) read
      have named : ∀ entry ∈ fields, ∃ field : Field, field.sectionName = sectionName ∧
          entry.1 = .text field.name := by
        intro entry member
        rcases gathers.named entry member with ⟨earlier, absent, _⟩ | field
        · contradiction
        · exact field
      have spelling := spelled_eq (gathers.distinct List.Pairwise.nil) named
      simp only [bind, Except.bind, pure, Except.pure, Except.map, sectionOfFields,
        Rules.sectionOf, spelling]
      rfl

theorem sections_eq (known : KnownVariables environment) :
    ({} : Rules).sections environment = do
      let logging ← ({} : Rules).sectionFields "logging" (({} : Rules).namedVariables environment)
      let diff ← ({} : Rules).sectionFields "diff" (({} : Rules).namedVariables environment)
      return ofSections (sectionOfFields logging) (sectionOfFields diff) := by
  have loggingValue := sectionValue_eq (by decide : Text.ofString "logging" ∈ sectionNames) known
  have diffValue := sectionValue_eq (by decide : Text.ofString "diff" ∈ sectionNames) known
  simp only [Rules.sections, sectionNames, List.mapM_cons, List.mapM_nil, loggingValue, diffValue]
  cases ({} : Rules).sectionFields "logging" (({} : Rules).namedVariables environment) with
  | error => rfl
  | ok =>
      cases ({} : Rules).sectionFields "diff" (({} : Rules).namedVariables environment) with
      | error => rfl
      | ok => rfl

theorem exists_fields_of_sectionOfFields {fields : Entries} (distinct : fields.Distinct)
    {value : Value} (held : sectionOfFields fields = some value) :
    ∃ found, value.fields? = some found ∧ found.Distinct := by
  unfold sectionOfFields at held
  split at held
  next => contradiction
  next =>
    cases held
    exact ⟨fields, rfl, distinct⟩

theorem get?_sectionOfFields (fields : Entries) (key : Value) :
    ((sectionOfFields fields).bind Value.fields?).bind (Entries.get? · key) = fields.get? key := by
  cases fields <;> rfl

/-- What the variable of a field sets, if there is one. -/
def variableValue? (environment : List (Text × Text)) (field : Field) : Option Value :=
  (contentOf? environment field.variableName).bind fun content => (field.parsed content).toOption

theorem exists_of_bind_eq_ok {α β : Type} {result : Except Failure α} {next : α → Except Failure β}
    {value : β} (done : (result >>= next) = .ok value) :
    ∃ earlier, result = .ok earlier ∧ next earlier = .ok value := by
  cases result with
  | error failure => contradiction
  | ok earlier => exact ⟨earlier, rfl, done⟩

theorem sections_found (known : KnownVariables environment) {sections : Entries}
    (read : ({} : Rules).sections environment = .ok sections) :
    sections.Sectioned sectionNames ∧ ∀ field : Field,
      sections.field? field.sectionName field.name = variableValue? environment field := by
  have isKnown : ∀ entry ∈ ({} : Rules).namedVariables environment, IsKnown entry.1 :=
    fun _ member => isKnown_of_mem known member
  have distinct := namedVariables_distinct environment
  rw [sections_eq known] at read
  obtain ⟨logging, logged, read⟩ := exists_of_bind_eq_ok read
  obtain ⟨diff, compared, ⟨⟩⟩ := exists_of_bind_eq_ok read
  have loggingGathers := gathers_of_foldlM (by decide) isKnown distinct logged
  have diffGathers := gathers_of_foldlM (by decide) isKnown distinct compared
  constructor
  · apply ofSections_sectioned
    · intro value
      exact exists_fields_of_sectionOfFields (loggingGathers.distinct .nil)
    · intro value
      exact exists_fields_of_sectionOfFields (diffGathers.distinct .nil)
  · intro field
    rw [Entries.field?, variableValue?, ← lookup_namedVariables]
    rcases field.sectionName_cases with inSection | inSection
    · rw [inSection, get?_logging, get?_sectionOfFields, loggingGathers.found field inSection]
      cases (({} : Rules).namedVariables environment).lookup field.variableName <;> rfl
    · rw [inSection, get?_diff, get?_sectionOfFields, diffGathers.found field inSection]
      cases (({} : Rules).namedVariables environment).lookup field.variableName <;> rfl

theorem exists_sections_iff (known : KnownVariables environment) :
    (∃ sections, ({} : Rules).sections environment = .ok sections) ↔
      ∀ field : Field, ∀ content, contentOf? environment field.variableName = some content →
        ∃ value, field.parsed content = .ok value := by
  have isKnown : ∀ entry ∈ ({} : Rules).namedVariables environment, IsKnown entry.1 :=
    fun _ member => isKnown_of_mem known member
  have distinct := namedVariables_distinct environment
  have logging := exists_foldlM_iff (by decide : Text.ofString "logging" ∈ sectionNames)
    isKnown distinct []
  have diff := exists_foldlM_iff (by decide : Text.ofString "diff" ∈ sectionNames)
    isKnown distinct []
  simp only [Parses, lookup_namedVariables, ← sectionFields_eq] at logging diff
  rw [sections_eq known]
  constructor
  · rintro ⟨sections, read⟩ field
    obtain ⟨loggingFields, logged, read⟩ := exists_of_bind_eq_ok read
    obtain ⟨diffFields, compared, _⟩ := exists_of_bind_eq_ok read
    rcases field.sectionName_cases with inSection | inSection
    · exact logging.mp ⟨loggingFields, logged⟩ field inSection
    · exact diff.mp ⟨diffFields, compared⟩ field inSection
  · intro all
    obtain ⟨loggingFields, logged⟩ := logging.mpr fun field _ => all field
    obtain ⟨diffFields, compared⟩ := diff.mpr fun field _ => all field
    exact ⟨_, by rw [logged, compared]; rfl⟩

end Environment

end ApiSurface.Settings
