import ApiSurface.Document
import ApiSurface.Proofs.Reading

/-! Which data describes which document. Reading accepts the data that describes a document, and makes
that document of it. -/

namespace ApiSurface.Document

open Schema

structure Member.Fields (entries : Entries) (member : Member) : Prop where
  only : HasOnly ["name", "kind", "ogc_name", "obligation", "type", "public", "deprecated"] entries
  name : FieldMeans entries "name" none MeansText member.name
  kind : FieldMeans entries "kind" (some .method) (MeansWord fun kind => kind.kind.word) member.kind
  identifier : FieldMeans entries "ogc_name" (some none) (MeansOrNull MeansText) member.identifier
  obligation : FieldMeans entries "obligation" (some none)
    (MeansOrNull (MeansWord Obligation.word)) member.obligation
  type : FieldMeans entries "type" (some none) (MeansOrNull MeansText) member.type
  isPublic : FieldMeans entries "public" (some true) MeansFlag member.isPublic
  isDeprecated : FieldMeans entries "deprecated" (some false) MeansFlag member.isDeprecated

def MeansMember (value : Value) (member : Member) : Prop :=
  ∃ entries, value = .map entries ∧ Member.Fields entries member

structure TypeItem.Fields (entries : Entries) (type : TypeItem) : Prop where
  only : HasOnly
    ["name", "kind", "ogc_name", "obligation", "parent", "public", "deprecated", "members"] entries
  name : FieldMeans entries "name" none MeansText type.name
  kind : FieldMeans entries "kind" (some .interfaceType)
    (MeansWord fun kind => kind.kind.word) type.kind
  identifier : FieldMeans entries "ogc_name" (some none) (MeansOrNull MeansText) type.identifier
  obligation : FieldMeans entries "obligation" (some none)
    (MeansOrNull (MeansWord Obligation.word)) type.obligation
  parent : FieldMeans entries "parent" (some none) (MeansOrNull MeansText) type.parent
  isPublic : FieldMeans entries "public" (some true) MeansFlag type.isPublic
  isDeprecated : FieldMeans entries "deprecated" (some false) MeansFlag type.isDeprecated
  members : FieldMeans entries "members" (some []) (MeansList MeansMember) type.members

def MeansType (value : Value) (type : TypeItem) : Prop :=
  ∃ entries, value = .map entries ∧ TypeItem.Fields entries type

structure Package.Fields (entries : Entries) (package : Package) : Prop where
  only : HasOnly ["name", "deprecated", "types"] entries
  name : FieldMeans entries "name" none MeansText package.name
  isDeprecated : FieldMeans entries "deprecated" (some false) MeansFlag package.isDeprecated
  types : FieldMeans entries "types" (some []) (MeansList MeansType) package.types

def MeansPackage (value : Value) (package : Package) : Prop :=
  ∃ entries, value = .map entries ∧ Package.Fields entries package

structure Fields (entries : Entries) (document : Document) : Prop where
  only : HasOnly ["version", "packages"] entries
  version : FieldMeans entries "version" (some none) (MeansOrNull MeansTextOrNumber) document.version
  packages : FieldMeans entries "packages" (some []) (MeansList MeansPackage) document.packages

/-- The data is a map that has no other than the declared fields, and these mean what the document
holds. -/
def Describes (value : Value) (document : Document) : Prop :=
  ∃ entries, value = .map entries ∧ Fields entries document

/-- The version is an integer with more digits than are ever written. -/
def HasOversizedVersion (value : Value) : Prop :=
  ∃ (entries : Entries) (number : Int), value = .map entries ∧
    (∀ entry ∈ entries, isUnreadable entry.1 = false) ∧
      entries.get? ("version" : Text) = some (.int number) ∧
        Nat.pow 10 Digits.most ≤ number.natAbs

theorem reads_obligation :
    Reads readObligation (MeansOrNull (MeansWord Obligation.word)) := by
  apply Reads.nullable
  apply reads_word
  · intro obligation
    cases obligation <;> decide
  · decide
  · intro obligation
    cases obligation <;> decide

theorem reads_memberKind :
    Reads readMemberKind (MeansWord fun kind => kind.kind.word) := by
  apply reads_word
  · intro kind
    cases kind <;> decide
  · decide
  · intro kind
    cases kind <;> decide

theorem reads_typeKind : Reads readTypeKind (MeansWord fun kind => kind.kind.word) := by
  apply reads_word
  · intro kind
    cases kind <;> decide
  · decide
  · intro kind
    cases kind <;> decide

theorem reads_member : Reads Member.read MeansMember := by
  intro value json member
  rw [Member.read, closedRecord_eq_accepted_iff (by decide) json]
  refine exists_congr fun entries => and_congr_right fun isMap => ?_
  subst isMap
  simp only [Checked.seq_eq_accepted_iff, Checked.map_eq_accepted_iff,
    required_eq_accepted_iff (reads_text.atField json _),
    defaulted_eq_accepted_iff (reads_memberKind.atField json _),
    defaulted_eq_accepted_iff (reads_text.nullable.atField json _),
    defaulted_eq_accepted_iff (reads_obligation.atField json _),
    defaulted_eq_accepted_iff (reads_flag.atField json _)]
  constructor
  · rintro ⟨only, _, isDeprecated, ⟨_, isPublic, ⟨_, type, ⟨_, obligation, ⟨_, identifier,
      ⟨_, kind, ⟨name, nameMeant, rfl⟩, kindMeant, rfl⟩, identifierMeant, rfl⟩, obligationMeant, rfl⟩,
      typeMeant, rfl⟩, publicMeant, rfl⟩, deprecatedMeant, rfl⟩
    exact ⟨only, nameMeant, kindMeant, identifierMeant, obligationMeant, typeMeant, publicMeant,
      deprecatedMeant⟩
  · rintro ⟨only, name, kind, identifier, obligation, type, isPublic, isDeprecated⟩
    exact ⟨only, _, _, ⟨_, _, ⟨_, _, ⟨_, _, ⟨_, _, ⟨_, _, ⟨_, name, rfl⟩, kind, rfl⟩, identifier, rfl⟩,
      obligation, rfl⟩, type, rfl⟩, isPublic, rfl⟩, isDeprecated, rfl⟩

theorem reads_type : Reads TypeItem.read MeansType := by
  intro value json type
  rw [TypeItem.read, closedRecord_eq_accepted_iff (by decide) json]
  refine exists_congr fun entries => and_congr_right fun isMap => ?_
  subst isMap
  simp only [Checked.seq_eq_accepted_iff, Checked.map_eq_accepted_iff,
    required_eq_accepted_iff (reads_text.atField json _),
    defaulted_eq_accepted_iff (reads_typeKind.atField json _),
    defaulted_eq_accepted_iff (reads_text.nullable.atField json _),
    defaulted_eq_accepted_iff (reads_obligation.atField json _),
    defaulted_eq_accepted_iff (reads_flag.atField json _),
    defaulted_eq_accepted_iff (reads_member.list.atField json _)]
  constructor
  · rintro ⟨only, _, members, ⟨_, isDeprecated, ⟨_, isPublic, ⟨_, parent, ⟨_, obligation,
      ⟨_, identifier, ⟨_, kind, ⟨name, nameMeant, rfl⟩, kindMeant, rfl⟩, identifierMeant, rfl⟩,
      obligationMeant, rfl⟩, parentMeant, rfl⟩, publicMeant, rfl⟩, deprecatedMeant, rfl⟩,
      membersMeant, rfl⟩
    exact ⟨only, nameMeant, kindMeant, identifierMeant, obligationMeant, parentMeant, publicMeant,
      deprecatedMeant, membersMeant⟩
  · rintro ⟨only, name, kind, identifier, obligation, parent, isPublic, isDeprecated, members⟩
    exact ⟨only, _, _, ⟨_, _, ⟨_, _, ⟨_, _, ⟨_, _, ⟨_, _, ⟨_, _, ⟨_, name, rfl⟩, kind, rfl⟩,
      identifier, rfl⟩, obligation, rfl⟩, parent, rfl⟩, isPublic, rfl⟩, isDeprecated, rfl⟩,
      members, rfl⟩

theorem reads_package : Reads Package.read MeansPackage := by
  intro value json package
  rw [Package.read, closedRecord_eq_accepted_iff (by decide) json]
  refine exists_congr fun entries => and_congr_right fun isMap => ?_
  subst isMap
  simp only [Checked.seq_eq_accepted_iff, Checked.map_eq_accepted_iff,
    required_eq_accepted_iff (reads_text.atField json _),
    defaulted_eq_accepted_iff (reads_flag.atField json _),
    defaulted_eq_accepted_iff (reads_type.list.atField json _)]
  constructor
  · rintro ⟨only, _, types, ⟨_, isDeprecated, ⟨name, nameMeant, rfl⟩, deprecatedMeant, rfl⟩,
      typesMeant, rfl⟩
    exact ⟨only, nameMeant, deprecatedMeant, typesMeant⟩
  · rintro ⟨only, name, isDeprecated, types⟩
    exact ⟨only, _, _, ⟨_, _, ⟨_, name, rfl⟩, isDeprecated, rfl⟩, types, rfl⟩

theorem readable_of_hasOnly {names : List Text} (readable : ∀ name ∈ names, name.toChars?.isNone = false)
    {entries : Entries} (only : HasOnly names entries) :
    ∀ entry ∈ entries, isUnreadable entry.1 = false := by
  intro entry member
  obtain ⟨name, among, same⟩ := only entry member
  rw [same, isUnreadable, readable name among]

theorem version_isShowable {entries : Entries} (short : ¬ HasOversizedVersion (.map entries))
    (readable : ∀ entry ∈ entries, isUnreadable entry.1 = false) {version : Value}
    (found : entries.get? ("version" : Text) = some version) :
    ∀ number, version = .int number → (Value.int number).isShowable = true := by
  rintro number rfl
  rw [isShowable_int_iff]
  by_contra large
  exact short ⟨entries, number, rfl, readable, found, Nat.le_of_not_lt large⟩

theorem read_eq_accepted_iff {value : Value} (json : value.IsJson)
    (short : ¬ HasOversizedVersion value) (document : Document) :
    Document.read value = .accepted document ↔ Describes value document := by
  rw [Document.read, closedRecord_eq_accepted_iff (by decide) json]
  refine exists_congr fun entries => and_congr_right fun isMap => ?_
  subst isMap
  -- The keys come before the version: it is known to be short only where they can be read.
  have readsVersion (only : HasOnly ["version", "packages"] entries) :
      ∀ version, Entries.get? entries ("version" : Text) = some version →
        ReadsAt (nullable textOrNumber) (MeansOrNull MeansTextOrNumber) version := by
    intro version found
    apply ReadsAt.nullable
    apply readsAt_textOrNumber (isJson_of_get? json found)
    exact version_isShowable short (readable_of_hasOnly (by decide) only) found
  simp only [Checked.seq_eq_accepted_iff, Checked.map_eq_accepted_iff,
    defaulted_eq_accepted_iff (reads_package.list.atField json _)]
  constructor
  · rintro ⟨only, _, packages, ⟨version, accepted, rfl⟩, packagesMeant, rfl⟩
    exact ⟨only, (defaulted_eq_accepted_iff (readsVersion only) _).mp accepted, packagesMeant⟩
  · rintro ⟨only, version, packages⟩
    exact ⟨only, _, _, ⟨_, (defaulted_eq_accepted_iff (readsVersion only) _).mpr version, rfl⟩,
      packages, rfl⟩

end ApiSurface.Document
