import ApiSurface.Failure
import ApiSurface.FileState
import ApiSurface.Settings.Environment
import ApiSurface.Yaml

/-!
Loading settings. Arguments lie over environment variables, these over the file of the project or
an explicit file, and that over the global file.
-/

namespace ApiSurface

/-- What a fault of a settings file means; text that breaks off is no matter of the document. -/
def NamedFile.failure (file : NamedFile) (cause : Yaml.Fault) : Failure :=
  if cause = .brokenText then .encoding
  else if cause.isForm then .fault (.configParse file.path Fault.malformed)
  else .content cause

def NamedFile.entries (file : NamedFile) : Except Failure Entries :=
  match file.state with
  | .missing => .ok []
  | .directory => .error .directory
  | .file bytes =>
    match Yaml.read (Yaml.Source.ofFile bytes) with
    | .error cause => .error (file.failure cause)
    | .ok value =>
      match value.rootEntries? with
      | some entries => .ok entries
      | none => .error (.fault (.configParse file.path Fault.notAMapping))

namespace Settings

def projectPath : Text := ".apidiff/config.yaml"

def globalPath (home : AbsolutePath) : AbsolutePath :=
  home.below [".config", "apidiff", "config.yaml"] (by decide)

/-- The value of a field in a source, where null says nothing. -/
def fieldValue? (entries : Entries) (name : Value) : Option Value :=
  match entries.get? name with
  | none | some .null => none
  | some value => some value

structure Sources where
  globalFile : NamedFile
  projectFile : NamedFile
  /-- A file that is read in place of the project's and must be there. -/
  explicitFile : Option NamedFile := none
  environment : List (Text × Text) := []
  arguments : Entries := []
  reserved : List Text := []

def Sources.upperFile (sources : Sources) : Except Failure NamedFile :=
  match sources.explicitFile with
  | none => .ok sources.projectFile
  | some file =>
    match file.state with
    | .file _ => .ok file
    | _ => .error (.fault (.configMissing file.path))

def isNamed (name : Text) : Value → Bool
  | .text key => key.lower == name
  | _ => false

/-- The arguments that are settings: the sections under their own names, where the first of several
spellings counts, and then all others but the rules. -/
def argumentEntries (arguments : Entries) : Entries :=
  let sections := sectionNames.filterMap fun name =>
    (arguments.find? fun entry => isNamed name entry.1).map fun entry =>
      ((.text name, entry.2) : Value × Value)
  let isKnown (key : Value) : Bool :=
    sectionNames.any (isNamed · key) || ruleNames.any fun name => key.sameKey name
  sections ++ arguments.filter fun entry => !isKnown entry.1

def isText : Value → Bool
  | .text _ => true
  | _ => false

def Sources.fileEntries (sources : Sources) : Except Failure Entries := do
  let upperFile ← sources.upperFile
  let lower ← sources.globalFile.entries
  let upper ← upperFile.entries
  if Entries.isEndlessLayer lower upper then throw .depth
  return Entries.layer lower upper

def Sources.entries (homes : Homes) (sources : Sources) : Except Failure Entries := do
  if sources.reserved.any fun name => (sources.arguments.get? name).isSome then throw .name
  let files ← sources.fileEntries
  let rules ← Rules.ofArguments homes sources.arguments
  let upper := Entries.layer (← rules.sections sources.environment) (argumentEntries sources.arguments)
  return Entries.layer files upper

def loadFailure : Failure → Failure
  | .shape first _ =>
    if first.input.isShowable then
      .fault (.configValue first.path first.input first.flaw.message)
    else .unshowable
  | failure => failure

/-- The settings of all sources, checked once; of several issues the first one is reported. -/
def gather (homes : Homes) (sources : Sources) : Except Failure Settings := do
  let entries ← sources.entries homes
  if !entries.all (isText ·.1) then throw .name
  match readClosed homes (.map entries) with
  | .accepted settings => return settings
  | .refused first others => throw (loadFailure (.ofIssues first others))

/-- Settings from all sources. What was gathered is written out as data, and this is checked again. -/
def load (homes : Homes) (sources : Sources) : Except Failure Settings := do
  (read homes (← gather homes sources).dump).orFail

end Settings

end ApiSurface
