import ApiSurface.Failure
import ApiSurface.Homes
import ApiSurface.Text.Lowercase

/-!
How environment variables are matched with settings. Arguments whose names begin with an underscore
may set these rules; all other arguments are settings themselves.
-/

namespace ApiSurface.Settings

structure Rules where
  start : Text := "APIDIFF__"
  isExact : Bool := false
  /-- Stands between the parts of a name; without it variables set whole sections only. -/
  separator : Option Text := some "__"
  divisions : Option Nat := none
  canDivide : Bool := true
  ignoresEmpty : Bool := false
  /-- The content that stands for null. -/
  nullWord : Option Text := none

/-- Arguments that are rules, or that say nothing here. -/
def ruleNames : List Text := ["_case_sensitive", "_nested_model_default_partial_update", "_env_prefix",
  "_env_file", "_env_file_encoding", "_env_ignore_empty", "_env_nested_delimiter",
  "_env_nested_max_split", "_env_parse_none_str", "_env_parse_enums", "_cli_prog_name",
  "_cli_parse_args", "_cli_settings_source", "_cli_parse_none_str", "_cli_hide_none_type",
  "_cli_avoid_json", "_cli_enforce_required", "_cli_use_class_docs_for_groups", "_cli_exit_on_error",
  "_cli_prefix", "_cli_flag_prefix_char", "_cli_implicit_flags", "_cli_ignore_unknown_args",
  "_cli_kebab_case", "_cli_shortcuts", "_secrets_dir"]

namespace Rules

def named (rules : Rules) (name : Text) : Text := if rules.isExact then name else name.lower

def isNull (rules : Rules) (content : Text) : Bool := rules.nullWord == some content

def withCase (rules : Rules) : Value → Rules
  | .null => rules
  | value => { rules with isExact := !value.isBlank }

def isNumber : Value → Bool
  | .bool _ | .int _ | .float _ => true
  | _ => false

def withStart (rules : Rules) : Value → Except Failure Rules
  | .null => .ok rules
  | .text start => .ok { rules with start }
  | _ => .error .environment

/-- Something else than a text separates by its written form, but cannot divide a name. -/
def withSeparator (rules : Rules) : Value → Rules
  | .null => rules
  | .text separator => { rules with separator := if separator.isEmpty then none else some separator }
  | value =>
    if value.isBlank then { rules with separator := none }
    else { rules with separator := some value.written, canDivide := false }

/-- The number of parts; none and negative numbers set no limit. -/
def withParts (rules : Rules) (value : Value) : Except Failure Rules :=
  if value.isBlank then .ok rules
  else match value with
    | .bool _ => .ok { rules with divisions := some 0 }
    | .int parts => .ok (if parts < 0 then rules else { rules with divisions := some (parts.toNat - 1) })
    | .float _ => .ok { rules with canDivide := false }
    | _ => .error .name

def withNullWord (rules : Rules) : Value → Rules
  | .text word => { rules with nullWord := some word }
  | _ => rules

/-- Files of variables are not read, but must be named by texts. -/
def checkFile (homes : Homes) : Value → Except Failure Unit
  | .text name => match homes.locate name with
    | .unknownUser => .error .unknownUser
    | .unusable _ => .error .unshowable
    | _ => .ok ()
  | _ => .error .name

def checkFiles (homes : Homes) : Value → Except Failure Unit
  | .null => .ok ()
  | .list names => names.forM (checkFile homes)
  | .map entries => (entries.map (·.1)).forM (checkFile homes)
  | value => checkFile homes value

def ofArguments (homes : Homes) (arguments : Entries) : Except Failure Rules := do
  let given (name : Text) : Value := (arguments.get? name).getD .null
  let rules := (({} : Rules).withCase (given "_case_sensitive")).withSeparator
    (given "_env_nested_delimiter")
  let rules := { rules with ignoresEmpty := !(given "_env_ignore_empty").isBlank }
  let rules := rules.withNullWord (given "_env_parse_none_str")
  let rules ← rules.withParts (given "_env_nested_max_split")
  let start := given "_env_prefix"
  if isNumber start then throw .name
  checkFiles homes (given "_env_file")
  rules.withStart start

end Rules

end ApiSurface.Settings
