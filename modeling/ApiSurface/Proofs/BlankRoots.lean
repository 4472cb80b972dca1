import ApiSurface.Proofs.SnapshotFailure
import ApiSurface.Settings.Source

/-! What is made of a document whose root is no map. As data it is always refused. In a file it is
refused exactly if it says something; a root that says nothing counts as an empty map. -/

namespace ApiSurface

variable {value : Value}

theorem Value.rootEntries?_of_noMap (noMap : value.fields? = none) :
    value.rootEntries? = if value.bare.isBlank then some [] else none := by
  unfold fields? at noMap
  unfold rootEntries?
  cases root : value.bare with
  | map entries => simp [root] at noMap
  | _ => rfl

theorem Document.read_of_noMap (noMap : value.fields? = none) :
    Document.read value = .refuse (.notRecord "_SnapshotDocument") value := by
  unfold Value.fields? at noMap
  unfold Document.read Schema.closedRecord
  cases root : value.bare with
  | map entries => simp [root] at noMap
  | _ => rfl

/-- A reader finds a document with this root in the file. -/
def NamedFile.HasRoot (read : List UInt8 → Except Yaml.Fault Value) (file : NamedFile)
    (value : Value) : Prop :=
  ∃ bytes, file.state = .file bytes ∧ read bytes = .ok value

namespace Snapshot

variable {file : NamedFile}

theorem fileEntries_of_noMap (root : file.HasRoot Yaml.readBytes value)
    (noMap : value.fields? = none) : fileEntries file =
      if value.bare.isBlank then .ok []
      else .error (.fault (.snapshotParse file.path Fault.notAMapping)) := by
  obtain ⟨bytes, isFile, read⟩ := root
  simp only [fileEntries, isFile, read, Value.rootEntries?_of_noMap noMap]
  cases value.bare.isBlank with
  | true => rfl
  | false => rfl

theorem load_of_noMap (root : file.HasRoot Yaml.readBytes value) (noMap : value.fields? = none) :
    (load file).result = if value.bare.isBlank then .ok empty
      else .error (.fault (.snapshotParse file.path Fault.notAMapping)) := by
  rw [load_result, fileEntries_of_noMap root noMap]
  cases value.bare.isBlank with
  | true => rfl
  | false => rfl

end Snapshot

theorem NamedFile.entries_of_noMap {file : NamedFile}
    (root : file.HasRoot (fun bytes => Yaml.read (.ofFile bytes)) value)
    (noMap : value.fields? = none) : file.entries =
      if value.bare.isBlank then .ok []
      else .error (.fault (.configParse file.path Fault.notAMapping)) := by
  obtain ⟨bytes, isFile, read⟩ := root
  simp only [entries, isFile, read, Value.rootEntries?_of_noMap noMap]
  cases value.bare.isBlank with
  | true => rfl
  | false => rfl

namespace Settings

variable {homes : Homes} {sources : Sources} {upper : NamedFile} {failure : Failure}

/-- None of the arguments has a name that no argument may have. -/
def Sources.Unreserved (sources : Sources) : Prop :=
  ∀ name ∈ sources.reserved, sources.arguments.get? name = none

theorem load_of_fileEntries (unreserved : sources.Unreserved)
    (failed : sources.fileEntries = .error failure) : load homes sources = .error failure := by
  have free : (sources.reserved.any fun name => (sources.arguments.get? name).isSome) = false := by
    rw [List.any_eq_false]
    intro name member
    simp [unreserved name member]
  have entries : sources.entries homes = .error failure := by
    simp [Sources.entries, free, failed, bind, Except.bind]
  simp [load, gather, entries, bind, Except.bind]

theorem load_of_globalFile (unreserved : sources.Unreserved) (isUpper : sources.upperFile = .ok upper)
    (failed : sources.globalFile.entries = .error failure) : load homes sources = .error failure := by
  apply load_of_fileEntries unreserved
  simp [Sources.fileEntries, isUpper, failed, bind, Except.bind]

theorem load_of_upperFile (unreserved : sources.Unreserved) (isUpper : sources.upperFile = .ok upper)
    {below : Entries} (read : sources.globalFile.entries = .ok below)
    (failed : upper.entries = .error failure) : load homes sources = .error failure := by
  apply load_of_fileEntries unreserved
  simp [Sources.fileEntries, isUpper, read, failed, bind, Except.bind]

end Settings

/-- What is made of a root that is no map, wherever it comes from. -/
structure Value.RefusedUnlessBlank (value : Value) : Prop where
  data : ∀ source, ∃ reason,
    Snapshot.ofValue source value = .error (.fault (.snapshotParse source reason))
  snapshot : ∀ file : NamedFile, file.HasRoot Yaml.readBytes value →
    ((Snapshot.load file).result = .error (.fault (.snapshotParse file.path Fault.notAMapping)) ↔
      value.bare.isBlank = false)
  blankSnapshot : ∀ file : NamedFile, file.HasRoot Yaml.readBytes value →
    value.bare.isBlank = true → (Snapshot.load file).result = .ok .empty
  settings : ∀ file : NamedFile, file.HasRoot (fun bytes => Yaml.read (.ofFile bytes)) value →
    (file.entries = .error (.fault (.configParse file.path Fault.notAMapping)) ↔
      value.bare.isBlank = false)
  blankSettings : ∀ file : NamedFile, file.HasRoot (fun bytes => Yaml.read (.ofFile bytes)) value →
    value.bare.isBlank = true → file.entries = .ok []
  globalFile : ∀ (homes : Homes) (sources : Settings.Sources) (upper : NamedFile),
    sources.Unreserved → sources.upperFile = .ok upper →
    sources.globalFile.HasRoot (fun bytes => Yaml.read (.ofFile bytes)) value →
    value.bare.isBlank = false → Settings.load homes sources =
      .error (.fault (.configParse sources.globalFile.path Fault.notAMapping))
  upperFile : ∀ (homes : Homes) (sources : Settings.Sources) (upper : NamedFile) (below : Entries),
    sources.Unreserved → sources.upperFile = .ok upper →
    sources.globalFile.entries = .ok below →
    upper.HasRoot (fun bytes => Yaml.read (.ofFile bytes)) value →
    value.bare.isBlank = false → Settings.load homes sources =
      .error (.fault (.configParse upper.path Fault.notAMapping))

/-- A root that is no map is refused as data, and in a file of a snapshot or of settings exactly if it
says something. -/
theorem misfit_root_refused_unless_blank (noMap : value.fields? = none) :
    value.RefusedUnlessBlank where
  data source := by
    rw [Snapshot.ofValue, Document.read_of_noMap noMap]
    exact ⟨_, rfl⟩
  snapshot file root := by
    rw [Snapshot.load_of_noMap root noMap]
    cases value.bare.isBlank with
    | true => simp
    | false => simp
  blankSnapshot file root blank := by
    rw [Snapshot.load_of_noMap root noMap, blank, if_pos rfl]
  settings file root := by
    rw [NamedFile.entries_of_noMap root noMap]
    cases value.bare.isBlank with
    | true => simp
    | false => simp
  blankSettings file root blank := by
    rw [NamedFile.entries_of_noMap root noMap, blank, if_pos rfl]
  globalFile homes sources upper unreserved isUpper root told := by
    apply Settings.load_of_globalFile unreserved isUpper
    simp [NamedFile.entries_of_noMap root noMap, told]
  upperFile homes sources upper below unreserved isUpper read root told := by
    apply Settings.load_of_upperFile unreserved isUpper read
    simp [NamedFile.entries_of_noMap root noMap, told]

/-- A list of one number in place of a map. -/
def numberedFile : NamedFile := ⟨"surface.yaml", .file ("- 1\n".toList.map Char.toUInt8)⟩

/-- The same file as the only one that settings are read from. -/
def numberedSources : Settings.Sources where
  globalFile := ⟨"/home/user/.config/apidiff/config.yaml", .missing⟩
  projectFile := numberedFile

theorem misfit_root_refused_of_numberedFile :
    (Value.list [.int 1]).fields? = none ∧ numberedFile.HasRoot Yaml.readBytes (.list [.int 1]) ∧
      (Snapshot.load numberedFile).result =
        .error (.fault (.snapshotParse "surface.yaml" Fault.notAMapping)) ∧
      Settings.load ⟨"/home/user", []⟩ numberedSources =
        .error (.fault (.configParse "surface.yaml" Fault.notAMapping)) := by
  have refused : (Value.list [.int 1]).RefusedUnlessBlank := misfit_root_refused_unless_blank rfl
  have asBytes : numberedFile.HasRoot Yaml.readBytes (.list [.int 1]) :=
    ⟨_, rfl, by decide +kernel⟩
  have asText : numberedFile.HasRoot (fun bytes => Yaml.read (.ofFile bytes)) (.list [.int 1]) :=
    ⟨_, rfl, by decide +kernel⟩
  have unreserved : numberedSources.Unreserved := by simp [Settings.Sources.Unreserved, numberedSources]
  exact ⟨rfl, asBytes, (refused.snapshot _ asBytes).mpr rfl,
    refused.upperFile _ _ _ [] unreserved rfl rfl asText rfl⟩

/-- A list of nothing in place of a map. -/
def blankFile : NamedFile := ⟨"surface.yaml", .file ("[]\n".toList.map Char.toUInt8)⟩

/-- An empty list is refused as data, but a file that holds it is taken for an empty one. -/
theorem blank_list_taken_for_empty_map :
    blankFile.HasRoot Yaml.readBytes (.list []) ∧
      (∃ reason, Snapshot.ofValue "surface.yaml" (.list []) =
        .error (.fault (.snapshotParse "surface.yaml" reason))) ∧
      (Snapshot.load blankFile).result = .ok .empty ∧ blankFile.entries = .ok [] := by
  have asBytes : blankFile.HasRoot Yaml.readBytes (.list []) :=
    ⟨_, rfl, by decide +kernel⟩
  have asText : blankFile.HasRoot (fun bytes => Yaml.read (.ofFile bytes)) (.list []) :=
    ⟨_, rfl, by decide +kernel⟩
  refine ⟨asBytes, ⟨_, rfl⟩, ?_, ?_⟩
  · exact Snapshot.load_of_noMap asBytes rfl
  · exact NamedFile.entries_of_noMap asText rfl

end ApiSurface
