import ApiSurface.Proofs.Stability
import ApiSurface.Proofs.Variables
import Mathlib.Data.List.Find

/-! Which source decides a setting. Each field has the value that the highest source gives it,
whatever the sources say about other fields, and all that can stand in the way of that is told. -/

namespace ApiSurface

open Schema (Checked Reader)

namespace Schema

variable {α : Type}

/-- What a field has: the value that was read, or its own where there is none. -/
def Takes (absent : α) (read : Reader α) (result : α) : Option Value → Prop
  | none => absent = result
  | some value => read value = .accepted result

theorem defaulted_eq_accepted_iff_takes (name : Text) (absent : α) (read : Reader α)
    (entries : Entries) (result : α) :
    defaulted name absent read entries = .accepted result ↔
      Takes absent read result (entries.get? name) := by
  unfold defaulted
  cases entries.get? name with
  | none => simp [Takes]
  | some value => simp [Takes]

/-- No map is accepted. -/
def RefusesMaps (read : Reader α) : Prop :=
  ∀ value result, value.fields?.isSome = true → read value ≠ .accepted result

theorem takes_alike {absent : α} {read : Reader α} (refuses : RefusesMaps read)
    {left right : Option Value} (alike : Option.Rel Value.Alike left right) (result : α) :
    Takes absent read result left ↔ Takes absent read result right := by
  cases alike with
  | none => exact Iff.rfl
  | @some first second alike =>
      rcases alike with rfl | ⟨firstMap, secondMap⟩
      · exact Iff.rfl
      · constructor
        · intro accepted
          exact absurd accepted (refuses first result firstMap)
        · intro accepted
          exact absurd accepted (refuses second result secondMap)

theorem map_or_loop_of_fields {value : Value} (isMap : value.fields?.isSome = true) :
    (∃ entries, value = .map entries) ∨ ∃ label entries, value = .loop label (.map entries) := by
  cases value with
  | map entries => exact .inl ⟨entries, rfl⟩
  | loop label content =>
      cases content with
      | map entries => exact .inr ⟨label, entries, rfl⟩
      | _ => simp [Value.fields?, Value.bare] at isMap
  | _ => simp [Value.fields?, Value.bare] at isMap

theorem refusesMaps_of {read : Reader α}
    (plain : ∀ entries result, read (.map entries) ≠ .accepted result)
    (looped : ∀ label entries result, read (.loop label (.map entries)) ≠ .accepted result) :
    RefusesMaps read := by
  intro value result isMap
  rcases map_or_loop_of_fields isMap with ⟨entries, rfl⟩ | ⟨label, entries, rfl⟩
  · exact plain entries result
  · exact looped label entries result

theorem literal_refusesMaps (choices : List (Text × α)) : RefusesMaps (literal choices) :=
  refusesMaps_of (fun _ _ => nofun) fun _ _ _ => nofun

theorem flag_refusesMaps : RefusesMaps flag :=
  refusesMaps_of (fun _ _ => nofun) fun _ _ _ => nofun

theorem list_refusesMaps (read : Reader α) : RefusesMaps (list read) :=
  refusesMaps_of (fun _ _ => nofun) fun _ _ _ => nofun

theorem nameLimit_refusesMaps : RefusesMaps Policy.readNameLimit :=
  refusesMaps_of (fun _ _ => nofun) fun _ _ _ => nofun

/-- The entries of a section; there are none where there is no section. -/
def sectionEntries (entries : Entries) (sectionName : Text) : Entries :=
  ((entries.get? sectionName).bind Value.fields?).getD []

theorem get?_sectionEntries (entries : Entries) (sectionName name : Text) :
    (sectionEntries entries sectionName).get? (.text name) = entries.field? sectionName name := by
  rw [sectionEntries, Entries.field?]
  cases (entries.get? (.text sectionName)).bind Value.fields? <;> rfl

/-- A section that is absent is read as one without entries. -/
theorem defaulted_section_iff {names : List Text} {entries : Entries}
    (sectioned : entries.Sectioned names) {sectionName label : Text} {absent : α}
    {fields : Entries → Checked α} (empty : fields [] = .accepted absent) (result : α) :
    defaulted sectionName absent (openRecord label fields) entries = .accepted result ↔
      fields (sectionEntries entries sectionName) = .accepted result := by
  rw [defaulted_eq_accepted_iff_takes, sectionEntries]
  cases found : entries.get? (.text sectionName) with
  | none => simp [Takes, empty]
  | some value =>
      obtain ⟨held, isMap, _⟩ := sectioned.maps sectionName value found
      have read : openRecord label fields value = fields held := by
        have isSome : value.fields?.isSome = true := by rw [isMap]; rfl
        rcases map_or_loop_of_fields isSome with ⟨_, rfl⟩ | ⟨_, _, rfl⟩ <;> cases isMap <;> rfl
      simp [Takes, read, isMap]

theorem closedRecord_of_hasOnly {label : Text} {names : List Text} {fields : Entries → Checked α}
    (readable : ∀ name ∈ names, name.toChars?.isNone = false) {entries : Entries}
    (only : HasOnly names entries) (result : α) :
    closedRecord label names fields (.map entries) = .accepted result ↔
      fields entries = .accepted result := by
  have allReadable : entries.find? (fun entry => isUnreadable entry.1) = none := by
    rw [List.find?_eq_none]
    intro entry member
    obtain ⟨name, isName, same⟩ := only entry member
    simp [same, isUnreadable, readable name isName]
  have ownOnly := (foreignEntries_eq_accepted_iff names entries).mpr only
  simp only [closedRecord, Value.bare, allReadable, Checked.seq_eq_accepted_iff,
    Checked.map_eq_accepted_iff, ownOnly]
  constructor
  · rintro ⟨_, _, ⟨_, accepted, rfl⟩, _, rfl⟩
    exact accepted
  · intro accepted
    exact ⟨_, (), ⟨result, accepted, rfl⟩, trivial, rfl⟩

end Schema

namespace Settings

/-- What the settings have for a field, by the value that is given for it. -/
def Field.Takes (homes : Homes) (settings : Settings) : Field → Option Value → Prop
  | .level => Schema.Takes .info Severity.read settings.logging.level
  | .outputs => Schema.Takes [{}] (Schema.list (LogOutput.read homes)) settings.logging.outputs
  | .suppressNewDeprecated =>
    Schema.Takes true Schema.flag settings.policy.suppressNewDeprecated
  | .nameLimit =>
    Schema.Takes ⟨Policy.standard.nameLimit, Policy.standard.positive⟩ Policy.readNameLimit
      ⟨settings.policy.nameLimit, settings.policy.positive⟩

theorem Field.takes_alike {homes : Homes} {settings : Settings} (field : Field)
    {left right : Option Value} (alike : Option.Rel Value.Alike left right) :
    field.Takes homes settings left ↔ field.Takes homes settings right := by
  cases field with
  | level => exact Schema.takes_alike (Schema.literal_refusesMaps _) alike _
  | outputs => exact Schema.takes_alike (Schema.list_refusesMaps _) alike _
  | suppressNewDeprecated => exact Schema.takes_alike Schema.flag_refusesMaps alike _
  | nameLimit => exact Schema.takes_alike Schema.nameLimit_refusesMaps alike _

theorem readLogging_iff {homes : Homes} {entries : Entries}
    (sectioned : entries.Sectioned sectionNames) (logging : LogSettings) :
    Schema.defaulted "logging" {} (LogSettings.read homes) entries = .accepted logging ↔
      Schema.Takes .info Severity.read logging.level (entries.field? "logging" "level") ∧
      Schema.Takes [{}] (Schema.list (LogOutput.read homes)) logging.outputs
        (entries.field? "logging" "outputs") := by
  refine (Schema.defaulted_section_iff sectioned (by rfl) logging).trans ?_
  simp only [Schema.Checked.seq_eq_accepted_iff, Schema.Checked.map_eq_accepted_iff,
    Schema.defaulted_eq_accepted_iff_takes, Schema.get?_sectionEntries]
  constructor
  · rintro ⟨_, outputs, ⟨level, takesLevel, rfl⟩, takesOutputs, rfl⟩
    exact ⟨takesLevel, takesOutputs⟩
  · rintro ⟨takesLevel, takesOutputs⟩
    exact ⟨_, _, ⟨_, takesLevel, rfl⟩, takesOutputs, rfl⟩

theorem readPolicy_iff {entries : Entries} (sectioned : entries.Sectioned sectionNames)
    (policy : Policy) :
    Schema.defaulted "diff" {} Policy.read entries = .accepted policy ↔
      Schema.Takes true Schema.flag policy.suppressNewDeprecated
        (entries.field? "diff" "suppress_new_deprecated") ∧
      Schema.Takes ⟨Policy.standard.nameLimit, Policy.standard.positive⟩ Policy.readNameLimit
        ⟨policy.nameLimit, policy.positive⟩
        (entries.field? "diff" "breaking_summary_max_names") := by
  refine (Schema.defaulted_section_iff sectioned (by rfl) policy).trans ?_
  simp only [Schema.Checked.seq_eq_accepted_iff, Schema.Checked.map_eq_accepted_iff,
    Schema.defaulted_eq_accepted_iff_takes, Schema.get?_sectionEntries]
  constructor
  · rintro ⟨_, limit, ⟨suppress, takesFlag, rfl⟩, takesLimit, rfl⟩
    exact ⟨takesFlag, takesLimit⟩
  · rintro ⟨takesFlag, takesLimit⟩
    exact ⟨_, _, ⟨_, takesFlag, rfl⟩, takesLimit, rfl⟩

theorem fields_eq_accepted_iff {homes : Homes} {entries : Entries}
    (sectioned : entries.Sectioned sectionNames) (settings : Settings) :
    fields homes entries = .accepted settings ↔
      ∀ field : Field, field.Takes homes settings (entries.field? field.sectionName field.name) := by
  rw [fields, Schema.Checked.seq_eq_accepted_iff]
  simp only [Schema.Checked.map_eq_accepted_iff, readLogging_iff sectioned, readPolicy_iff sectioned]
  constructor
  · rintro ⟨_, policy, ⟨logging, ⟨takesLevel, takesOutputs⟩, rfl⟩, ⟨takesFlag, takesLimit⟩, rfl⟩ field
    cases field with
    | level => exact takesLevel
    | outputs => exact takesOutputs
    | suppressNewDeprecated => exact takesFlag
    | nameLimit => exact takesLimit
  · intro takes
    exact ⟨_, settings.policy, ⟨settings.logging, ⟨takes .level, takes .outputs⟩, rfl⟩,
      ⟨takes .suppressNewDeprecated, takes .nameLimit⟩, rfl⟩

section Arguments

theorem get?_foreign {arguments : Entries} (only : Schema.HasOnly sectionNames arguments) {name : Text}
    (foreign : name ∉ sectionNames) : arguments.get? (.text name) = none := by
  apply Entries.get?_eq_none
  intro entry member
  obtain ⟨known, isSection, same⟩ := only entry member
  rw [same, ← Bool.not_eq_true, Value.sameKey_text_iff, Value.text.injEq]
  rintro rfl
  exact foreign isSection

theorem rules_ofArguments {arguments : Entries} (only : Schema.HasOnly sectionNames arguments)
    (homes : Homes) : Rules.ofArguments homes arguments = .ok {} := by
  simp (disch := decide) only [Rules.ofArguments, get?_foreign only, Option.getD_none]
  rfl

theorem none_reserved {sources : Sources} (only : Schema.HasOnly sectionNames sources.arguments)
    (unreserved : ∀ name ∈ sources.reserved, name ∉ sectionNames) :
    (sources.reserved.any fun name => (sources.arguments.get? name).isSome) = false := by
  rw [List.any_eq_false]
  intro name member
  rw [get?_foreign only (unreserved name member)]
  simp

variable {arguments : Entries} (sectioned : arguments.Sectioned sectionNames)

include sectioned

theorem isNamed_eq {entry : Value × Value} (member : entry ∈ arguments) (name : Text) :
    isNamed name entry.1 = entry.1.sameKey (.text name) := by
  obtain ⟨known, isSection, same⟩ := sectioned.named entry member
  have small : known.lower = known := by
    rcases eq_logging_or_diff isSection with rfl | rfl <;> decide +kernel
  rw [same, isNamed, small]
  rfl

theorem find?_isNamed (name : Text) :
    (arguments.find? fun entry => isNamed name entry.1).map
        (fun entry => ((.text name, entry.2) : Value × Value)) =
      (arguments.get? (.text name)).map fun value => (.text name, value) := by
  rw [Entries.get?, Option.map_map]
  congr 1
  apply List.find?_congr
  intro entry member
  exact isNamed_eq sectioned member name

theorem argumentEntries_eq : argumentEntries arguments =
    ofSections (arguments.get? (.text "logging")) (arguments.get? (.text "diff")) := by
  have noOther : arguments.filter (fun entry => !(sectionNames.any (isNamed · entry.1) ||
      ruleNames.any fun name => entry.1.sameKey name)) = [] := by
    rw [List.filter_eq_nil_iff]
    intro entry member
    obtain ⟨name, isSection, same⟩ := sectioned.named entry member
    have isOwn : isNamed name entry.1 = true := by
      rw [isNamed_eq sectioned member, Value.sameKey_text_iff]
      exact same
    have known : sectionNames.any (isNamed · entry.1) = true :=
      List.any_eq_true.mpr ⟨name, isSection, isOwn⟩
    simp [known]
  rw [argumentEntries, noOther, List.append_nil, sectionNames, ofSections,
    ← find?_isNamed sectioned, ← find?_isNamed sectioned]
  simp only [List.filterMap_cons, List.filterMap_nil, id]

theorem argumentEntries_sectioned : (argumentEntries arguments).Sectioned sectionNames := by
  rw [argumentEntries_eq sectioned]
  exact ofSections_sectioned (sectioned.maps _) (sectioned.maps _)

theorem field?_argumentEntries (field : Field) :
    (argumentEntries arguments).field? field.sectionName field.name =
      arguments.field? field.sectionName field.name := by
  rw [argumentEntries_eq sectioned, Entries.field?, Entries.field?]
  rcases field.sectionName_cases with same | same
  · rw [same, get?_logging]
  · rw [same, get?_diff]

end Arguments

/-- All sources can be read, they hold sections only, and the variables among them are those of
fields. -/
structure Sources.Given (sources : Sources) (lower upper : Entries) : Prop where
  globalRead : sources.globalFile.entries = .ok lower
  upperRead : ∃ file, sources.upperFile = .ok file ∧ file.entries = .ok upper
  lowerSections : lower.Sectioned sectionNames
  upperSections : upper.Sectioned sectionNames
  argumentSections : sources.arguments.Sectioned sectionNames
  unreserved : ∀ name ∈ sources.reserved, name ∉ sectionNames
  known : KnownVariables sources.environment

/-- The value of a field in the environment; content that is no data stands for itself. -/
def Sources.environmentValue? (sources : Sources) (field : Field) : Option Value :=
  (contentOf? sources.environment field.variableName).map fun content =>
    (field.parsed content).toOption.getD (.text content)

/-- The value of a field in the highest source that has it. -/
def Sources.chosen? (sources : Sources) (lower upper : Entries) (field : Field) : Option Value :=
  (sources.arguments.field? field.sectionName field.name).or
    ((sources.environmentValue? field).or
      ((upper.field? field.sectionName field.name).or (lower.field? field.sectionName field.name)))

/-- The variable for the outputs holds data, if there is one and it is not empty. -/
def Sources.Decodable (sources : Sources) : Prop :=
  ∀ content, contentOf? sources.environment Field.outputs.variableName = some content →
    content ≠ [] → ∃ value, decoded content = .ok value

theorem decodable_iff (sources : Sources) : sources.Decodable ↔
    ∀ field : Field, ∀ content, contentOf? sources.environment field.variableName = some content →
      ∃ value, field.parsed content = .ok value := by
  constructor
  · intro decodable field content found
    rw [Field.parsed]
    split
    next json => exact decodable content (json.1 ▸ found) json.2
    next => exact ⟨_, rfl⟩
  · intro all content found nonempty
    obtain ⟨value, parsed⟩ := all .outputs content found
    rw [Field.parsed, if_pos ⟨rfl, nonempty⟩] at parsed
    exact ⟨value, parsed⟩

theorem Sources.entries_eq {sources : Sources} {lower upper : Entries}
    (given : sources.Given lower upper) (homes : Homes) :
    sources.entries homes = if Entries.isEndlessLayer lower upper then .error .depth else
      (({} : Rules).sections sources.environment).map fun sections =>
        (lower.layer upper).layer (sections.layer (argumentEntries sources.arguments)) := by
  obtain ⟨file, isUpper, upperRead⟩ := given.upperRead
  have only := given.argumentSections.named
  simp only [Sources.entries, none_reserved only given.unreserved, Sources.fileEntries, isUpper,
    given.globalRead, upperRead, rules_ofArguments only, bind, Except.bind, pure, Except.pure]
  cases Entries.isEndlessLayer lower upper with
  | true => rfl
  | false => cases ({} : Rules).sections sources.environment <;> rfl

theorem load_eq_ok_iff {homes : Homes} {sources : Sources} {entries : Entries}
    (read : sources.entries homes = .ok entries) (sectioned : entries.Sectioned sectionNames)
    (settings : Settings) : load homes sources = .ok settings ↔
      ∀ field : Field, field.Takes homes settings (entries.field? field.sectionName field.name) := by
  have texts : entries.all (isText ·.1) = true := by
    rw [List.all_eq_true]
    intro entry member
    obtain ⟨name, _, same⟩ := sectioned.named entry member
    rw [same]
    rfl
  have closed : readClosed homes (.map entries) = .accepted settings ↔
      fields homes entries = .accepted settings :=
    Schema.closedRecord_of_hasOnly (by decide +kernel) sectioned.named settings
  rw [← fields_eq_accepted_iff sectioned, ← closed, load_eq_gather]
  simp only [gather, read, texts, bind, Except.bind]
  cases readClosed homes (.map entries) with
  | accepted result => simp [pure, Except.pure]
  | refused first others => simp

theorem variableValue?_eq {sources : Sources} (decodable : sources.Decodable) (field : Field) :
    variableValue? sources.environment field = sources.environmentValue? field := by
  rw [variableValue?, Sources.environmentValue?]
  cases found : contentOf? sources.environment field.variableName with
  | none => rfl
  | some content =>
      obtain ⟨value, parsed⟩ := (decodable_iff sources).mp decodable field content found
      simp [parsed, Except.toOption]

/-- The layered sources have for each field what the highest of them gives it, or another map. -/
theorem field?_layered {sources : Sources} {lower upper : Entries}
    (given : sources.Given lower upper) {sections : Entries}
    (read : ({} : Rules).sections sources.environment = .ok sections) :
    let entries := (lower.layer upper).layer (sections.layer (argumentEntries sources.arguments))
    entries.Sectioned sectionNames ∧ ∀ field : Field,
      Option.Rel Value.Alike (entries.field? field.sectionName field.name)
        (sources.chosen? lower upper field) := by
  intro entries
  have decodable : sources.Decodable :=
    (decodable_iff sources).mpr ((exists_sections_iff given.known).mp ⟨sections, read⟩)
  obtain ⟨variableSections, found⟩ := sections_found given.known read
  have argumentSections := argumentEntries_sectioned given.argumentSections
  have files := Entries.layer_sectioned given.lowerSections given.upperSections
  have above := Entries.layer_sectioned variableSections argumentSections
  refine ⟨Entries.layer_sectioned files above, ?_⟩
  intro field
  rw [Entries.field?_layer files above, Entries.field?_layer variableSections argumentSections,
    Entries.field?_layer given.lowerSections given.upperSections, found field,
    field?_argumentEntries given.argumentSections, variableValue?_eq decodable]
  exact Value.overlay_overlay_alike (Value.overlay_alike (Value.alike_refl _) _) _ _

theorem load_eq_ok_iff_chosen {homes : Homes} {sources : Sources} {lower upper : Entries}
    (given : sources.Given lower upper) (settings : Settings) :
    load homes sources = .ok settings ↔
      Entries.isEndlessLayer lower upper = false ∧ sources.Decodable ∧
        ∀ field : Field, field.Takes homes settings (sources.chosen? lower upper field) := by
  have entries := Sources.entries_eq given homes
  have readable := (exists_sections_iff given.known).trans (decodable_iff sources).symm
  cases endless : Entries.isEndlessLayer lower upper with
  | true =>
      rw [endless] at entries
      simp [load_eq_gather, gather, entries, bind, Except.bind]
  | false =>
      rw [endless] at entries
      cases read : ({} : Rules).sections sources.environment with
      | error failure =>
          have undecodable : ¬ sources.Decodable := by
            rw [← readable, read]
            simp
          simp [load_eq_gather, gather, entries, read, bind, Except.bind, Except.map, undecodable]
      | ok sections =>
          rw [read] at entries
          obtain ⟨sectioned, alike⟩ := field?_layered given read
          have decodable : sources.Decodable := readable.mp ⟨sections, read⟩
          rw [load_eq_ok_iff entries sectioned]
          simp only [decodable, true_and]
          exact forall_congr' fun field => field.takes_alike (alike field)

/-- The settings that take each field from settings of its own. -/
def assembled (each : Field → Settings) : Settings where
  logging :=
    { level := (each .level).logging.level
      outputs := (each .outputs).logging.outputs }
  policy :=
    { suppressNewDeprecated := (each .suppressNewDeprecated).policy.suppressNewDeprecated
      nameLimit := (each .nameLimit).policy.nameLimit
      positive := (each .nameLimit).policy.positive }

theorem exists_takes_iff (homes : Homes) (value : Field → Option Value) :
    (∃ settings : Settings, ∀ field : Field, field.Takes homes settings (value field)) ↔
      ∀ field : Field, ∃ settings, field.Takes homes settings (value field) := by
  constructor
  · rintro ⟨settings, takes⟩ field
    exact ⟨settings, takes field⟩
  · intro valid
    choose each takes using valid
    refine ⟨assembled each, ?_⟩
    intro field
    cases field with
    | level => exact takes .level
    | outputs => exact takes .outputs
    | suppressNewDeprecated => exact takes .suppressNewDeprecated
    | nameLimit => exact takes .nameLimit

def limitData (limit : Int) : Entries :=
  [("diff", .map [("breaking_summary_max_names", .int limit)])]

theorem limitData_sectioned (limit : Int) : (limitData limit).Sectioned sectionNames :=
  Entries.sectioned_single (by decide) (List.pairwise_singleton _ _)

def fileOf (path : Text) (content : String) : NamedFile :=
  ⟨path, .file (content.toList.map Char.toUInt8)⟩

/-- Sources that set fields of one section apart from each other, some of them to nothing valid. -/
def mixedSources : Sources where
  globalFile :=
    fileOf "/home/user/.config/apidiff/config.yaml" "diff:\n  breaking_summary_max_names: 0\n"
  projectFile := fileOf "/project/.apidiff/config.yaml" "diff:\n  breaking_summary_max_names: 7\n"
  environment := [("APIDIFF__LOGGING__LEVEL", "DEBUG"),
    ("apidiff__diff__suppress_new_deprecated", "perhaps")]
  arguments := [("diff", .map [("suppress_new_deprecated", .bool false)])]

theorem mixedSources_given : mixedSources.Given (limitData 0) (limitData 7) where
  globalRead := by decide +kernel
  upperRead := ⟨mixedSources.projectFile, rfl, by decide +kernel⟩
  lowerSections := limitData_sectioned 0
  upperSections := limitData_sectioned 7
  argumentSections := Entries.sectioned_single (by decide) (List.pairwise_singleton _ _)
  unreserved := by simp [mixedSources]
  known := by
    intro entry member _
    rcases List.mem_pair.mp member with rfl | rfl
    · exact ⟨.level, by decide +kernel⟩
    · exact ⟨.suppressNewDeprecated, by decide +kernel⟩

def userHomes : Homes := { own := "/home/user" }

/-- Arguments give the outputs, and a variable for the outputs holds no data. -/
def overriddenSources : Sources where
  globalFile := ⟨"/home/user/.config/apidiff/config.yaml", .missing⟩
  projectFile := ⟨"/project/.apidiff/config.yaml", .missing⟩
  environment := [("APIDIFF__LOGGING__OUTPUTS", "x")]
  arguments := [("logging", .map [("outputs", .list [])])]

theorem overriddenSources_given : overriddenSources.Given [] [] where
  globalRead := rfl
  upperRead := ⟨overriddenSources.projectFile, rfl, rfl⟩
  lowerSections := Entries.sectioned_nil _
  upperSections := Entries.sectioned_nil _
  argumentSections := Entries.sectioned_single (by decide) (List.pairwise_singleton _ _)
  unreserved := by simp [overriddenSources]
  known := by
    intro entry member _
    rw [List.mem_singleton.mp member]
    exact ⟨.outputs, by decide +kernel⟩

theorem overriddenSources_valid (homes : Homes) (field : Field) :
    ∃ settings, field.Takes homes settings (overriddenSources.chosen? [] [] field) := by
  cases field with
  | level => exact ⟨{}, rfl⟩
  | outputs => exact ⟨{ logging := { outputs := [] } }, rfl⟩
  | suppressNewDeprecated => exact ⟨{}, rfl⟩
  | nameLimit => exact ⟨{}, rfl⟩

end Settings

end ApiSurface
