import ApiSurface.Schema.Checked

/-!
Lists and records. A record is read from a map, field by field in the order of its declaration; an
open record ignores other entries of the map, a closed one refuses them in the order of the map.
-/

namespace ApiSurface.Schema

variable {α : Type}

def nullable (read : Reader α) : Reader (Option α)
  | .null => .accepted none
  | value => (read value).map some

def itemsFrom (read : Reader α) : Nat → List Value → Checked (List α)
  | _, [] => .accepted []
  | number, value :: rest =>
    List.cons <$> (read value).within (.item number) <*> itemsFrom read (number + 1) rest

/-- Sets are read as lists too. -/
def list (read : Reader α) : Reader (List α) := fun value =>
  match value.bare with
  | .list items => itemsFrom read 0 items
  | .set items => itemsFrom read 0 items
  | _ => .refuse .notList value

def required (name : Text) (read : Reader α) (entries : Entries) : Checked α :=
  match entries.get? name with
  | some value => (read value).within (.field name)
  | none => (Checked.refuse .missing (.map entries)).within (.field name)

def defaulted (name : Text) (absent : α) (read : Reader α) (entries : Entries) : Checked α :=
  match entries.get? name with
  | some value => (read value).within (.field name)
  | none => .accepted absent

def openRecord (name : Text) (fields : Entries → Checked α) : Reader α := fun value =>
  match value.bare with
  | .map entries => fields entries
  | _ => .refuse (.notRecord name) value

def foreignEntry? (names : List Text) (key value : Value) : Option Issue :=
  match key with
  | .text name => if name ∈ names then none else some ⟨.unknownField, [.field name], value⟩
  | _ => some ⟨.unnamedField, [.ofKey key], key⟩

def foreignEntries (names : List Text) (entries : Entries) : Checked Unit :=
  .ofIssues (entries.filterMap fun entry => foreignEntry? names entry.1 entry.2)

def isUnreadable : Value → Bool
  | .text content => content.toChars?.isNone
  | _ => false

/-- A key that is a text without being made of characters makes the whole record unreadable. -/
def closedRecord (name : Text) (names : List Text) (fields : Entries → Checked α) : Reader α :=
  fun value => match value.bare with
  | .map entries =>
    match entries.find? fun entry => isUnreadable entry.1 with
    | some entry => .refuse .unreadableText entry.1
    | none => (fun record _ => record) <$> fields entries <*> foreignEntries names entries
  | _ => .refuse (.notRecord name) value

end ApiSurface.Schema
