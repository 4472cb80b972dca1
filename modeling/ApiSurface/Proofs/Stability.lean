import ApiSurface.Proofs.KeyPaths
import ApiSurface.Proofs.Reading
import ApiSurface.Proofs.Wording
import ApiSurface.Settings.Source

/-! Settings that were checked stay what they are: written out as data and checked again, they are
accepted and come out the same. -/

namespace ApiSurface

namespace Text

theorem splitOn_append_cons {separator : CodePoint} {part : Text} (whole : separator ∉ part)
    (rest : Text) : splitOn separator (part ++ separator :: rest) = part :: splitOn separator rest := by
  induction part with
  | nil => simp [splitOn]
  | cons point more ih =>
      have other : point ≠ separator := fun same => whole (same ▸ List.mem_cons_self)
      have tail := ih fun among => whole (List.mem_cons_of_mem point among)
      rw [List.cons_append, splitOn, if_neg other, tail]

theorem splitOn_of_not_mem {separator : CodePoint} {part : Text} (whole : separator ∉ part) :
    splitOn separator part = [part] := by
  induction part with
  | nil => rfl
  | cons point more ih =>
      have other : point ≠ separator := fun same => whole (same ▸ List.mem_cons_self)
      have tail := ih fun among => whole (List.mem_cons_of_mem point among)
      rw [splitOn, if_neg other, tail]

end Text

namespace AbsolutePath

theorem isPathPart_iff (part : Text) :
    isPathPart part = true ↔ part ≠ [] ∧ part ≠ "." ∧ slash ∉ part := by
  simp [isPathPart, and_assoc]

theorem pathParts_slash (rest : Text) : pathParts (slash :: rest) = pathParts rest := by
  rw [pathParts, Text.splitOn, if_pos rfl, List.filter_cons_of_neg (by decide)]
  rfl

theorem pathParts_append {part : Text} (clean : isPathPart part = true) (rest : Text) :
    pathParts (part ++ slash :: rest) = part :: pathParts rest := by
  have whole := ((isPathPart_iff part).mp clean).2.2
  rw [pathParts, Text.splitOn_append_cons whole, List.filter_cons_of_pos clean]
  rfl

theorem pathParts_part {part : Text} (clean : isPathPart part = true) : pathParts part = [part] := by
  have whole := ((isPathPart_iff part).mp clean).2.2
  rw [pathParts, Text.splitOn_of_not_mem whole, List.filter_cons_of_pos clean, List.filter_nil]

theorem pathParts_join {parts : List Text} (clean : ∀ part ∈ parts, isPathPart part = true) :
    pathParts (Text.join "/" parts) = parts := by
  induction parts with
  | nil => rfl
  | cons part rest ih =>
      have partClean := clean part List.mem_cons_self
      have restParts := ih fun other among => clean other (List.mem_cons_of_mem part among)
      rw [Text.join_cons]
      cases rest with
      | nil => rw [List.flatMap_nil, List.append_nil, pathParts_part partClean]
      | cons next more =>
          rw [Text.join_cons] at restParts
          have split : ((next :: more).flatMap (("/" : Text) ++ ·)) =
              slash :: (next ++ more.flatMap (("/" : Text) ++ ·)) := rfl
          rw [split, pathParts_append partClean, restParts]

theorem head?_join_ne {parts : List Text} (clean : ∀ part ∈ parts, isPathPart part = true) :
    (Text.join "/" parts).head? ≠ some slash := by
  cases parts with
  | nil => exact nofun
  | cons part rest =>
      obtain ⟨nonempty, -, whole⟩ := (isPathPart_iff part).mp (clean part List.mem_cons_self)
      obtain ⟨point, more, rfl⟩ := List.exists_cons_of_ne_nil nonempty
      rw [Text.join_cons]
      intro isSlash
      exact whole (Option.some.inj isSlash ▸ List.mem_cons_self)

theorem startsDoubled_of_single {rest : Text} (single : rest.head? ≠ some slash) :
    startsDoubled (slash :: rest) = false := by
  cases rest with
  | nil => rfl
  | cons point more =>
      have other : (point == slash) = false :=
        beq_eq_false_iff_ne.mpr fun same => single (congrArg some same)
      simp [startsDoubled, other]

theorem startsDoubled_of_double {rest : Text} (single : rest.head? ≠ some slash) :
    startsDoubled (slash :: slash :: rest) = true := by
  simpa [startsDoubled] using single

theorem ofText?_shown (path : AbsolutePath) : ofText? path.shown = some path := by
  obtain ⟨isDoubled, parts, clean⟩ := path
  have single := head?_join_ne clean
  have parted := pathParts_join clean
  cases isDoubled with
  | false =>
      have text : (AbsolutePath.mk false parts clean).shown = slash :: Text.join "/" parts := rfl
      rw [ofText?, text]
      simp only [List.head?_cons, if_true, startsDoubled_of_single single, pathParts_slash, parted]
  | true =>
      have text : (AbsolutePath.mk true parts clean).shown =
          slash :: slash :: Text.join "/" parts := rfl
      rw [ofText?, text]
      simp only [List.head?_cons, if_true, startsDoubled_of_double single, pathParts_slash, parted]

theorem head?_shown (path : AbsolutePath) : path.shown.head? = some slash := by
  obtain ⟨isDoubled, parts, clean⟩ := path
  cases isDoubled <;> rfl

end AbsolutePath

open Schema (Checked)

theorem Homes.locate_shown (homes : Homes) (path : AbsolutePath) :
    homes.locate path.shown = .found path := by
  simp only [locate, AbsolutePath.ofText?_shown]

theorem Destination.read_word (homes : Homes) (destination : Destination) :
    Destination.read homes destination.word = .accepted destination := by
  cases destination with
  | stderr => rfl
  | stdout => rfl
  | file path =>
      have rooted := path.head?_shown
      have notStderr : path.shown ≠ ("stderr" : Text) := by
        intro same
        rw [same] at rooted
        exact absurd rooted (by decide)
      have notStdout : path.shown ≠ ("stdout" : Text) := by
        intro same
        rw [same] at rooted
        exact absurd rooted (by decide)
      simp only [Destination.read, Schema.text, Checked.andThen, word, ofText, notStderr, notStdout,
        if_false, homes.locate_shown]

theorem LineForm.read_word (form : LineForm) : LineForm.read form.word = .accepted form := by
  cases form <;> rfl

theorem Severity.read_label (severity : Severity) :
    Severity.read severity.label = .accepted severity := by
  cases severity <;> rfl

namespace Schema

variable {α : Type}

theorem defaulted_of_get? {name : Text} {absent content : α} {read : Reader α} {entries : Entries}
    {value : Value} (found : entries.get? name = some value) (accepted : read value = .accepted content) :
    defaulted name absent read entries = .accepted content := by
  simp only [defaulted, found, accepted, Checked.within]

theorem accepted_of_get? {name : Text} {absent content : α} {read : Reader α} {entries : Entries}
    {value : Value} (found : entries.get? name = some value)
    (accepted : defaulted name absent read entries = .accepted content) :
    read value = .accepted content := by
  simpa [defaulted, found] using accepted

theorem openRecord_eq {name : Text} {fields : Entries → Checked α} {value : Value}
    {entries : Entries} (isMap : value.fields? = some entries) :
    openRecord name fields value = fields entries := by
  have isRecord : value.bare = .map entries := by
    unfold Value.fields? at isMap
    split at isMap
    next found =>
      cases isMap
      exact found
    next => contradiction
  simp only [openRecord, isRecord]

theorem exists_of_itemsFrom {read : Reader α} {number : Nat} {items : List Value}
    {contents : List α} (accepted : itemsFrom read number items = .accepted contents) :
    ∀ item ∈ items, ∃ content, read item = .accepted content := by
  induction items generalizing number contents with
  | nil => exact nofun
  | cons first rest ih =>
      simp only [itemsFrom, Checked.seq_eq_accepted_iff, Checked.map_eq_accepted_iff,
        Checked.within_eq_accepted_iff] at accepted
      obtain ⟨_, others, ⟨content, firstAccepted, rfl⟩, restAccepted, rfl⟩ := accepted
      intro item member
      rcases List.mem_cons.mp member with rfl | inRest
      · exact ⟨content, firstAccepted⟩
      · exact ih restAccepted item inRest

theorem itemsFrom_dump {read : Reader α} {dump : α → Value}
    (each : ∀ item, read (dump item) = .accepted item) (number : Nat) (items : List α) :
    itemsFrom read number (items.map dump) = .accepted items := by
  induction items generalizing number with
  | nil => rfl
  | cons item rest ih =>
      rw [List.map_cons, itemsFrom, each, ih]
      rfl

end Schema

/-- An output without a level of its own has null in its place. -/
def Severity.dump? (level : Option Severity) : Value :=
  match level with
  | none => .null
  | some level => .text level.label

theorem Severity.read_dump? (level : Option Severity) :
    Schema.nullable Severity.read (dump? level) = .accepted level := by
  cases level with
  | none => rfl
  | some severity => cases severity <;> rfl

theorem LogOutput.read_dump (homes : Homes) (output : LogOutput) :
    LogOutput.read homes output.dump = .accepted output := by
  obtain ⟨form, destination, level⟩ := output
  let entries : Entries := [("format", form.word), ("destination", destination.word),
    ("level", Severity.dump? level)]
  have formField : Schema.defaulted "format" .console LineForm.read entries = .accepted form :=
    Schema.defaulted_of_get? (by rfl) (LineForm.read_word form)
  have destinationField :
      Schema.defaulted "destination" .stderr (Destination.read homes) entries =
        .accepted destination :=
    Schema.defaulted_of_get? (by rfl) (Destination.read_word homes destination)
  have levelField :
      Schema.defaulted "level" none (Schema.nullable Severity.read) entries = .accepted level :=
    Schema.defaulted_of_get? (by rfl) (Severity.read_dump? level)
  change LogOutput.mk <$> Schema.defaulted "format" .console LineForm.read entries
    <*> Schema.defaulted "destination" .stderr (Destination.read homes) entries
    <*> Schema.defaulted "level" none (Schema.nullable Severity.read) entries = _
  rw [formField, destinationField, levelField]
  rfl

theorem LogSettings.read_dump (homes : Homes) (settings : LogSettings) :
    LogSettings.read homes settings.dump = .accepted settings := by
  obtain ⟨level, outputs⟩ := settings
  let entries : Entries := [("level", level.label), ("outputs", .list (outputs.map LogOutput.dump))]
  have levelField : Schema.defaulted "level" .info Severity.read entries = .accepted level :=
    Schema.defaulted_of_get? (by rfl) (Severity.read_label level)
  have readOutputs : Schema.list (LogOutput.read homes) (.list (outputs.map LogOutput.dump)) =
      .accepted outputs :=
    Schema.itemsFrom_dump (LogOutput.read_dump homes) 0 outputs
  have outputsField :
      Schema.defaulted "outputs" [{}] (Schema.list (LogOutput.read homes)) entries =
        .accepted outputs :=
    Schema.defaulted_of_get? (by rfl) readOutputs
  change LogSettings.mk <$> Schema.defaulted "level" .info Severity.read entries
    <*> Schema.defaulted "outputs" [{}] (Schema.list (LogOutput.read homes)) entries = _
  rw [levelField, outputsField]
  rfl

theorem Policy.readNameLimit_eq {limit : Nat} (positive : 1 ≤ limit) :
    Policy.readNameLimit limit = .accepted ⟨limit, positive⟩ :=
  dif_pos positive

theorem Policy.read_dump (policy : Policy) : Policy.read policy.dump = .accepted policy := by
  obtain ⟨suppress, limit, positive⟩ := policy
  let entries : Entries := [("suppress_new_deprecated", .bool suppress),
    ("breaking_summary_max_names", limit)]
  have suppressField :
      Schema.defaulted "suppress_new_deprecated" true Schema.flag entries = .accepted suppress :=
    Schema.defaulted_of_get? (by rfl) (by rfl)
  have limitField :
      Schema.defaulted "breaking_summary_max_names" ⟨5, by decide⟩ readNameLimit entries =
        .accepted ⟨limit, positive⟩ :=
    Schema.defaulted_of_get? (by rfl) (readNameLimit_eq positive)
  change (fun suppress (limit : NameLimit) => (⟨suppress, limit.val, limit.property⟩ : Policy))
    <$> Schema.defaulted "suppress_new_deprecated" true Schema.flag entries
    <*> Schema.defaulted "breaking_summary_max_names" ⟨5, by decide⟩ readNameLimit entries = _
  rw [suppressField, limitField]
  rfl

namespace Settings

theorem read_dump (homes : Homes) (settings : Settings) :
    read homes settings.dump = .accepted settings := by
  obtain ⟨logging, policy⟩ := settings
  let entries : Entries := [("logging", logging.dump), ("diff", policy.dump)]
  have loggingField : Schema.defaulted "logging" {} (LogSettings.read homes) entries =
      .accepted logging :=
    Schema.defaulted_of_get? (by rfl) (LogSettings.read_dump homes logging)
  have policyField : Schema.defaulted "diff" {} Policy.read entries = .accepted policy :=
    Schema.defaulted_of_get? (by rfl) (Policy.read_dump policy)
  change Settings.mk <$> Schema.defaulted "logging" {} (LogSettings.read homes) entries
    <*> Schema.defaulted "diff" {} Policy.read entries = _
  rw [loggingField, policyField]
  rfl

/-- The second check of what was gathered finds nothing and alters nothing. -/
theorem load_eq_gather (homes : Homes) (sources : Sources) :
    load homes sources = gather homes sources := by
  rw [load]
  cases gather homes sources with
  | error failure => rfl
  | ok settings =>
      change (read homes settings.dump).orFail = _
      rw [read_dump]
      rfl

def limitPath : List Value := ["diff", "breaking_summary_max_names"]

def outputsPath : List Value := ["logging", "outputs"]

/-- What a text names as a destination; a home directory may stand at its beginning. -/
inductive Destination.Names (homes : Homes) : Text → Destination → Prop
  | stderr : Names homes "stderr" .stderr
  | stdout : Names homes "stdout" .stdout
  | file {word : Text} {path : AbsolutePath} : homes.locate word = .found path →
      Names homes word (.file path)

/-- Data that was accepted gives no limit below one and no destination that is nowhere. -/
structure KeepsRules (homes : Homes) (value : Value) : Prop where
  limit : ∀ data, value.at? limitPath = some data →
    ∃ number, Schema.whole data = .accepted number ∧ 1 ≤ number
  destinations : ∀ items, value.at? outputsPath = some (.list items) → ∀ item ∈ items, ∀ word,
    item.child? "destination" = some (.text word) → ∃ destination, Destination.Names homes word destination

theorem exists_section_of_at? {value data : Value} {outer inner : Value}
    (found : value.at? [outer, inner] = some data) :
    ∃ entries part fields, value.fields? = some entries ∧ entries.get? outer = some part ∧
      part.fields? = some fields ∧ fields.get? inner = some data := by
  obtain ⟨part, isPart, inPart⟩ := Option.bind_eq_some_iff.mp found
  obtain ⟨entries, isMap, inMap⟩ := Option.bind_eq_some_iff.mp isPart
  obtain ⟨given, isGiven, atEnd⟩ := Option.bind_eq_some_iff.mp inPart
  obtain ⟨fields, partIsMap, inFields⟩ := Option.bind_eq_some_iff.mp isGiven
  cases atEnd
  exact ⟨entries, part, fields, isMap, inMap, partIsMap, inFields⟩

theorem readNameLimit_whole {data : Value} {limit : Policy.NameLimit}
    (accepted : Policy.readNameLimit data = .accepted limit) :
    ∃ number, Schema.whole data = .accepted number ∧ 1 ≤ number := by
  unfold Policy.readNameLimit at accepted
  cases found : Schema.whole data with
  | refused first others => simp [found, Checked.andThen] at accepted
  | accepted number =>
      refine ⟨number, rfl, ?_⟩
      by_contra small
      have notPositive : ¬ 1 ≤ number.toNat := by omega
      simp only [found, Checked.andThen, dif_neg notPositive] at accepted
      split at accepted <;> cases accepted

theorem readText_names {homes : Homes} {word : Text} {destination : Destination}
    (accepted : Destination.read homes (.text word) = .accepted destination) :
    Destination.Names homes word destination := by
  simp only [Destination.read, Schema.text, Checked.andThen, Destination.ofText] at accepted
  split at accepted
  next isStderr =>
    cases accepted
    exact isStderr ▸ .stderr
  next =>
    split at accepted
    next isStdout =>
      cases accepted
      exact isStdout ▸ .stdout
    next =>
      split at accepted
      next found =>
        cases accepted
        exact .file found
      next => cases accepted
      next => cases accepted
      next => cases accepted

theorem readOutput_names {homes : Homes} {item : Value} {output : LogOutput}
    (accepted : LogOutput.read homes item = .accepted output) {word : Text}
    (given : item.child? "destination" = some (.text word)) :
    Destination.Names homes word output.destination := by
  obtain ⟨entries, isMap, found⟩ := Option.bind_eq_some_iff.mp given
  rw [LogOutput.read, Schema.openRecord_eq isMap] at accepted
  simp only [Checked.seq_eq_accepted_iff, Checked.map_eq_accepted_iff] at accepted
  obtain ⟨_, _, ⟨_, destination, ⟨_, _, rfl⟩, destinationRead, rfl⟩, _, rfl⟩ := accepted
  exact readText_names (Schema.accepted_of_get? found destinationRead)

theorem keepsRules {homes : Homes} {value : Value} {settings : Settings}
    (accepted : read homes value = .accepted settings) : KeepsRules homes value where
  limit := by
    intro data given
    obtain ⟨entries, part, fields, isMap, isPart, partIsMap, inPart⟩ := exists_section_of_at? given
    rw [read, Schema.openRecord_eq isMap, Settings.fields] at accepted
    simp only [Checked.seq_eq_accepted_iff, Checked.map_eq_accepted_iff] at accepted
    obtain ⟨_, policy, _, policyRead, _⟩ := accepted
    have partRead := Schema.accepted_of_get? isPart policyRead
    rw [Policy.read, Schema.openRecord_eq partIsMap] at partRead
    simp only [Checked.seq_eq_accepted_iff, Checked.map_eq_accepted_iff] at partRead
    obtain ⟨_, limit, _, limitRead, _⟩ := partRead
    exact readNameLimit_whole (Schema.accepted_of_get? inPart limitRead)
  destinations := by
    intro items given item member word named
    obtain ⟨entries, part, fields, isMap, isPart, partIsMap, inPart⟩ := exists_section_of_at? given
    rw [read, Schema.openRecord_eq isMap, Settings.fields] at accepted
    simp only [Checked.seq_eq_accepted_iff, Checked.map_eq_accepted_iff] at accepted
    obtain ⟨_, _, ⟨logging, loggingRead, rfl⟩, _, _⟩ := accepted
    have partRead := Schema.accepted_of_get? isPart loggingRead
    rw [LogSettings.read, Schema.openRecord_eq partIsMap] at partRead
    simp only [Checked.seq_eq_accepted_iff, Checked.map_eq_accepted_iff] at partRead
    obtain ⟨_, outputs, _, outputsRead, _⟩ := partRead
    have itemsRead : Schema.itemsFrom (LogOutput.read homes) 0 items = .accepted outputs :=
      Schema.accepted_of_get? inPart outputsRead
    obtain ⟨output, outputRead⟩ := Schema.exists_of_itemsFrom itemsRead item member
    exact ⟨output.destination, readOutput_names outputRead named⟩

/-- Written out as data the settings give a limit of at least one and destinations that are streams or
absolute paths, and they mean the same again. -/
structure Sound (homes : Homes) (settings : Settings) : Prop where
  limit : ∃ limit : Int, 1 ≤ limit ∧ settings.dump.at? limitPath = some (.int limit)
  destinations : ∃ outputs, settings.dump.at? outputsPath = some (.list outputs) ∧
    outputs.length = settings.logging.outputs.length ∧
    ∀ output ∈ outputs, ∃ word, output.child? "destination" = some (.text word) ∧
      (word = "stderr" ∨ word = "stdout" ∨ word.head? = some slash)
  reread : read homes settings.dump = .accepted settings

theorem sound (homes : Homes) (settings : Settings) : settings.Sound homes where
  limit := ⟨settings.policy.nameLimit, Int.ofNat_le.mpr settings.policy.positive, rfl⟩
  destinations := by
    refine ⟨settings.logging.outputs.map LogOutput.dump, rfl, List.length_map _, ?_⟩
    intro data member
    obtain ⟨output, _, rfl⟩ := List.mem_map.mp member
    refine ⟨output.destination.word, rfl, ?_⟩
    cases output.destination with
    | stderr => exact .inl rfl
    | stdout => exact .inr (.inl rfl)
    | file path => exact .inr (.inr path.head?_shown)
  reread := read_dump homes settings

/-- Data is accepted only if it keeps the rules, and whatever was accepted or loaded keeps them when it
is written out and means the same again; so the check that loading ends with alters nothing. -/
theorem accepted_settings_sound (homes : Homes) :
    (∀ value settings, read homes value = .accepted settings →
      KeepsRules homes value ∧ settings.Sound homes) ∧
    (∀ sources settings, load homes sources = .ok settings → settings.Sound homes) ∧
    (∀ sources, load homes sources = gather homes sources) :=
  ⟨fun _ settings accepted => ⟨keepsRules accepted, sound homes settings⟩,
    fun _ settings _ => sound homes settings, load_eq_gather homes⟩

def slashedHomes : Homes := { own := "//home/user/" }

/-- Data that says everything in another form than it is written out in. -/
def looseData : Value := .map [
  ("diff", .map [("suppress_new_deprecated", "OFF"), ("breaking_summary_max_names", "+07.0")]),
  ("logging", .map [("outputs", .list [
    .map [("destination", "~/./logs//today.log"), ("format", "json")],
    .map [("level", "ERROR"), ("destination", "///var/log/")]])])]

/-- The same data as arguments, over a file that says something else. -/
def looseSources : Sources where
  globalFile := ⟨"/home/user/.config/apidiff/config.yaml", .missing⟩
  projectFile := ⟨"/project/.apidiff/config.yaml",
    .file ("diff: {breaking_summary_max_names: 3}\n".toList.map Char.toUInt8)⟩
  arguments := (looseData.fields?).getD []

def looseSettings : Settings where
  logging :=
    { outputs := [
        { form := .json
          destination := .file ⟨true, ["home", "user", "logs", "today.log"], by decide⟩ },
        { destination := .file ⟨false, ["var", "log"], by decide⟩
          level := some .error }] }
  policy := { suppressNewDeprecated := false, nameLimit := 7 }

theorem accepted_settings_sound_of_looseData :
    read slashedHomes looseData = .accepted looseSettings ∧
    load slashedHomes looseSources = .ok looseSettings ∧
    KeepsRules slashedHomes looseData ∧ looseSettings.Sound slashedHomes ∧
    load slashedHomes looseSources = gather slashedHomes looseSources := by
  have accepted : read slashedHomes looseData = .accepted looseSettings := by rfl
  have loaded : load slashedHomes looseSources = .ok looseSettings := by
    decide +kernel
  obtain ⟨ofData, ofSources, same⟩ := accepted_settings_sound slashedHomes
  exact ⟨accepted, loaded, (ofData _ _ accepted).1, ofSources _ _ loaded, same looseSources⟩

end Settings

end ApiSurface
