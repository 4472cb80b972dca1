import ApiSurface.Failure
import ApiSurface.Schema.Record
import ApiSurface.Schema.Scalar
import ApiSurface.Snapshot

/-!
Snapshots written as nested data: packages with their types, types with their members. The elements
of a document are listed outermost first, each one followed by what stands inside it.
-/

namespace ApiSurface.Document

inductive MemberKind
  | method
  | field
  deriving DecidableEq

def MemberKind.kind : MemberKind → Kind
  | .method => .method
  | .field => .field

structure Member where
  name : Text
  kind : MemberKind := .method
  identifier : Option Text := none
  obligation : Option Obligation := none
  type : Option Text := none
  isPublic : Bool := true
  isDeprecated : Bool := false
  deriving DecidableEq

inductive TypeKind
  | classType
  | interfaceType
  deriving DecidableEq

def TypeKind.kind : TypeKind → Kind
  | .classType => .classType
  | .interfaceType => .interfaceType

structure TypeItem where
  name : Text
  kind : TypeKind := .interfaceType
  identifier : Option Text := none
  obligation : Option Obligation := none
  parent : Option Text := none
  isPublic : Bool := true
  isDeprecated : Bool := false
  members : List Member := []
  deriving DecidableEq

structure Package where
  name : Text
  isDeprecated : Bool := false
  types : List TypeItem := []
  deriving DecidableEq

end Document

structure Document where
  version : Option Text := none
  packages : List Document.Package := []
  deriving DecidableEq

namespace Document

open Schema

def readObligation : Reader (Option Obligation) :=
  nullable (member (Obligation.all.map fun obligation => (obligation.word, obligation)))

def readMemberKind : Reader MemberKind :=
  literal [(Kind.method.word, .method), (Kind.field.word, .field)]

def readTypeKind : Reader TypeKind :=
  literal [(Kind.classType.word, .classType), (Kind.interfaceType.word, .interfaceType)]

def Member.read : Reader Member :=
  closedRecord "_MemberRecord"
    ["name", "kind", "ogc_name", "obligation", "type", "public", "deprecated"]
    fun entries => Member.mk
      <$> required "name" text entries
      <*> defaulted "kind" .method readMemberKind entries
      <*> defaulted "ogc_name" none (nullable text) entries
      <*> defaulted "obligation" none readObligation entries
      <*> defaulted "type" none (nullable text) entries
      <*> defaulted "public" true flag entries
      <*> defaulted "deprecated" false flag entries

def TypeItem.read : Reader TypeItem :=
  closedRecord "_TypeRecord"
    ["name", "kind", "ogc_name", "obligation", "parent", "public", "deprecated", "members"]
    fun entries => TypeItem.mk
      <$> required "name" text entries
      <*> defaulted "kind" .interfaceType readTypeKind entries
      <*> defaulted "ogc_name" none (nullable text) entries
      <*> defaulted "obligation" none readObligation entries
      <*> defaulted "parent" none (nullable text) entries
      <*> defaulted "public" true flag entries
      <*> defaulted "deprecated" false flag entries
      <*> defaulted "members" [] (list Member.read) entries

def Package.read : Reader Package :=
  closedRecord "_PackageRecord" ["name", "deprecated", "types"] fun entries => Package.mk
    <$> required "name" text entries
    <*> defaulted "deprecated" false flag entries
    <*> defaulted "types" [] (list TypeItem.read) entries

def read : Reader Document :=
  closedRecord "_SnapshotDocument" ["version", "packages"] fun entries => Document.mk
    <$> defaulted "version" none (nullable textOrNumber) entries
    <*> defaulted "packages" [] (list Package.read) entries

def Member.draft (container : Path) (member : Member) : Draft where
  kind := member.kind.kind
  name := member.name
  container
  identifier := member.identifier
  declaredType := member.type
  obligation := member.obligation
  isPublic := member.isPublic
  isDeprecated := member.isDeprecated

def TypeItem.drafts (container : Path) (type : TypeItem) : List Draft :=
  { kind := type.kind.kind
    name := type.name
    container
    identifier := type.identifier
    declaredType := type.parent
    obligation := type.obligation
    isPublic := type.isPublic
    isDeprecated := type.isDeprecated }
  :: type.members.map (Member.draft (⟨type.kind.kind, type.name⟩ :: container))

def Package.drafts (package : Package) : List Draft :=
  { kind := .package, name := package.name, isDeprecated := package.isDeprecated }
  :: package.types.flatMap (TypeItem.drafts [⟨.package, package.name⟩])

def drafts (document : Document) : List Draft := document.packages.flatMap Package.drafts

/-- The rules for single elements are checked before identities are compared. -/
def snapshot (document : Document) : Except Fault Snapshot := do
  Snapshot.build (← document.drafts.mapM Draft.check) document.version

end Document

def Snapshot.unnamedSource : Text := "<document>"

/-- Reads a snapshot out of data; of several issues the first one is reported. -/
def Snapshot.ofValue (source : Text) (value : Value) : Except Failure Snapshot :=
  match Document.read value with
  | .accepted document => document.snapshot.mapError .fault
  | .refused first others => .error (match Failure.ofIssues first others with
    | .shape issue _ => .fault (.snapshotParse source (issue.path ++ ": " ++ issue.flaw.message))
    | failure => failure)

end ApiSurface
