import ApiSurface.Assoc
import ApiSurface.Json
import ApiSurface.Settings
import ApiSurface.Settings.Rules
import ApiSurface.Value.Layer

/-!
Settings in environment variables. One variable may hold a whole section as JSON; variables whose
name goes on after the section set single fields, and these lie over the whole section.
-/

namespace ApiSurface.Settings

/-- How deep the collections in a variable may be nested. -/
def deepest : Nat := 980

def decoded (content : Text) : Except Failure Value :=
  match content.toChars?.bind Json.tokens? with
  | none => .error .environment
  | some tokens =>
    if deepest < Json.nesting 0 tokens then .error .depth
    else match Json.value? [] tokens with
      | none => .error .environment
      | some value => .ok value

/-- Variables by their names; of several with one name the last one counts. -/
def Rules.namedVariables (rules : Rules) (environment : List (Text × Text)) : List (Text × Text) :=
  (environment.filter fun entry => !(rules.ignoresEmpty && entry.2.isEmpty)).foldl
    (fun entries entry => Assoc.put (rules.named entry.1) entry.2 entries) []

def after? (start : Text) (text : Text) : Option Text :=
  if start.isPrefixOf text then some (text.drop start.length) else none

def cut? (separator : Text) : Text → Option (Text × Text)
  | [] => none
  | point :: rest =>
    match after? separator (point :: rest) with
    | some remaining => some ([], remaining)
    | none => (cut? separator rest).map fun found => (point :: found.1, found.2)

/-- The parts of a name, which is divided a number of times at most, from the left. -/
def nameParts (separator : Text) : Nat → Text → List Text
  | 0, name => [name]
  | divisions + 1, name => match cut? separator name with
    | none => [name]
    | some (part, rest) => part :: nameParts separator divisions rest

/-- The fields of sections that hold more than one scalar. -/
def Rules.isComposite (rules : Rules) (sectionName : Text) : List Text → Bool
  | [key] => sectionName == "logging"
    && (rules.named key == "outputs" || rules.named key == rules.named (rules.start ++ "outputs"))
  | _ => false

structure Setting where
  value : Value
  yields : Bool := false

def isFree : Option Value → Bool
  | none | some (.map []) => true
  | some _ => false

/-- Sets a value under nested keys; below a scalar nothing can be set. -/
def putAt (setting : Setting) : List Text → Entries → Entries
  | [], entries => entries
  | [key], entries =>
    if setting.yields && !isFree (entries.get? key) then entries else entries.put key setting.value
  | key :: keys, entries =>
    match entries.get? key with
    | some (.map inner) => entries.put key (.map (putAt setting keys inner))
    | some _ => entries
    | none => entries.put key (.map (putAt setting keys []))

def Rules.setting (rules : Rules) (sectionName : Text) (keys : List Text) (content : Text) :
    Except Failure Setting :=
  if rules.isComposite sectionName keys && !content.isEmpty then
    (decoded content).map fun value => { value }
  else if rules.isNull content then .ok { value := .null, yields := true }
  else .ok { value := content }

/-- The fields of a section that are set by variables of their own, in the order of these. -/
def Rules.sectionFields (rules : Rules) (sectionName : Text) (given : List (Text × Text)) :
    Except Failure Entries :=
  match rules.separator with
  | none => .ok []
  | some separator =>
    given.foldlM (fun entries entry =>
      match after? (rules.named (rules.start ++ sectionName) ++ separator) entry.1 with
      | none => .ok entries
      | some name => do
        if !rules.canDivide then throw .name
        let keys := nameParts separator (rules.divisions.getD name.length) name
        return putAt (← rules.setting sectionName keys entry.2) keys entries) []

def spelled (names : List Text) (entries : Entries) : Entries :=
  entries.foldl (fun done entry =>
    match entry.1 with
    | .text key => match names.find? (· == key.lower) with
      | some name => done.put name entry.2
      | none => done.put key entry.2
    | key => done.put key entry.2) []

def fieldNames (sectionName : Text) : List Text :=
  if sectionName = "logging" then ["level", "outputs"]
  else ["suppress_new_deprecated", "breaking_summary_max_names"]

def Rules.sectionOf (rules : Rules) (sectionName : Text) (entries : Entries) : Value :=
  .map (if rules.isExact then entries else spelled (fieldNames sectionName) entries)

/-- The data that variables hold for a section, if they hold any. A section as JSON that is no map
stands alone. -/
def Rules.sectionValue (rules : Rules) (given : List (Text × Text)) (sectionName : Text) :
    Except Failure (Option Value) :=
  match given.lookup (rules.named (rules.start ++ sectionName)) with
  | none => do
    let fields ← rules.sectionFields sectionName given
    return if fields.isEmpty then none else some (rules.sectionOf sectionName fields)
  | some content =>
    if rules.isNull content then .ok (some .null)
    else do
      match ← decoded content with
      | .map entries =>
        let fields ← rules.sectionFields sectionName given
        return some (rules.sectionOf sectionName (Entries.layer entries fields))
      | .null => return none
      | value => return some value

def Rules.sections (rules : Rules) (environment : List (Text × Text)) : Except Failure Entries := do
  let given := rules.namedVariables environment
  let sections ← sectionNames.mapM fun name => do
    return (← rules.sectionValue given name).map fun value =>
      ((.text name, value) : Value × Value)
  return sections.filterMap id

end ApiSurface.Settings
