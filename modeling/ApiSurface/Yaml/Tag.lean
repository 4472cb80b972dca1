import ApiSurface.Yaml.Number
import ApiSurface.Yaml.Timestamp

/-!
Tags say what a node stands for. A scalar without a tag has the one that its text suggests.
-/

namespace ApiSurface.Yaml

inductive Tag
  | null
  | bool
  | int
  | float
  | binary
  | timestamp
  | omap
  | pairs
  | set
  | str
  | seq
  | map
  | merge
  | value
  | unknown
  deriving DecidableEq

namespace Tag

def standard : Text := "tag:yaml.org,2002:"

def names : List (Text × Tag) := [
  ("null", .null), ("bool", .bool), ("int", .int), ("float", .float), ("binary", .binary),
  ("timestamp", .timestamp), ("omap", .omap), ("pairs", .pairs), ("set", .set), ("str", .str),
  ("seq", .seq), ("map", .map), ("merge", .merge), ("value", .value)]

def ofName (name : Text) : Tag :=
  if standard.isPrefixOf name then
    (names.lookup (name.drop standard.length)).getD .unknown
  else .unknown

def flagWords : List String := [
  "yes", "Yes", "YES", "no", "No", "NO", "true", "True", "TRUE", "false", "False", "FALSE",
  "on", "On", "ON", "off", "Off", "OFF"]

def nullWords : List String := ["", "~", "null", "Null", "NULL"]

def indicatorWords : List String := ["!", "&", "*"]

def ofWord (chars : List Char) : Tag :=
  let word := String.ofList chars
  if flagWords.contains word then .bool
  else if isFloat chars then .float
  else if isInteger chars then .int
  else if word == "<<" then .merge
  else if nullWords.contains word then .null
  else if isTimestamp chars then .timestamp
  else if word == "=" then .value
  else if indicatorWords.contains word then .unknown
  else .str

def ofPlain (content : Text) : Tag :=
  match content.toChars? with
  | none => .str
  | some chars => ofWord (withoutLineEnd chars)

end Tag

end ApiSurface.Yaml
