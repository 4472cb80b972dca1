import ApiSurface.Value.Display
import ApiSurface.Value.Equality

/-!
What can be wrong with data that should have a given shape, and where.
-/

namespace ApiSurface.Schema

inductive Flaw
  | missing
  | unknownField
  | unnamedField
  | notText
  /-- The text is not made of characters. -/
  | unreadableText
  | notList
  | notRecord (name : Text)
  | notLiteral (words : List Text)
  | notMember (words : List Text)
  | notFlag
  | unclearFlag
  | notWhole
  | notFinite
  | fractional
  | unclearWhole
  | oversized
  /-- A rule beyond the shape is broken. -/
  | forbidden (reason : Text)
  | unknownUser
  | unshowable
  deriving DecidableEq

namespace Flaw

def label : Flaw → Text
  | .missing => "missing"
  | .unknownField => "extra_forbidden"
  | .unnamedField => "invalid_key"
  | .notText => "string_type"
  | .unreadableText => "string_unicode"
  | .notList => "list_type"
  | .notRecord _ => "model_type"
  | .notLiteral _ => "literal_error"
  | .notMember _ => "enum"
  | .notFlag => "bool_type"
  | .unclearFlag => "bool_parsing"
  | .notWhole => "int_type"
  | .notFinite => "finite_number"
  | .fractional => "int_from_float"
  | .unclearWhole => "int_parsing"
  | .oversized => "int_parsing_size"
  | .forbidden _ => "value_error"
  | .unknownUser => "unknown_user"
  | .unshowable => "unshowable"

def alternatives : List Text → Text
  | [] => []
  | [word] => "'" ++ word ++ "'"
  | [first, last] => "'" ++ first ++ "' or '" ++ last ++ "'"
  | first :: rest => "'" ++ first ++ "', " ++ alternatives rest

def digitLimit : Text :=
  "Exceeds the limit (4300 digits) for integer string conversion; "
    ++ "use sys.set_int_max_str_digits() to increase the limit"

def message : Flaw → Text
  | .missing => "Field required"
  | .unknownField => "Extra inputs are not permitted"
  | .unnamedField => "Keys should be strings"
  | .notText => "Input should be a valid string"
  | .unreadableText => "Input should be a valid string, unable to parse raw data as a unicode string"
  | .notList => "Input should be a valid list"
  | .notRecord name => "Input should be a valid dictionary or instance of " ++ name
  | .notLiteral words => "Input should be " ++ alternatives words
  | .notMember words => "Input should be " ++ alternatives words
  | .notFlag => "Input should be a valid boolean"
  | .unclearFlag => "Input should be a valid boolean, unable to interpret input"
  | .notWhole => "Input should be a valid integer"
  | .notFinite => "Input should be a finite number"
  | .fractional => "Input should be a valid integer, got a number with a fractional part"
  | .unclearWhole => "Input should be a valid integer, unable to parse string as an integer"
  | .oversized => "Unable to parse input string as an integer, exceeded maximum size"
  | .forbidden reason => "Value error, " ++ reason
  | .unknownUser => "Could not determine home directory."
  | .unshowable => digitLimit

end Flaw

def isSmall (number : Int) : Bool :=
  -0x8000000000000000 ≤ number && number < 0x8000000000000000

inductive Place
  | field (name : Text)
  | item (number : Int)
  deriving DecidableEq

namespace Place

def shown : Place → Text
  | .field name => name
  | .item number => Text.ofInt number

/-- The place of a key of any kind; a small number is taken for an item. -/
def ofKey : Value → Place
  | .text name => .field name
  | .bool flag => .item flag.toInt
  | .int number =>
    if isSmall number then .item number
    else if (Value.int number).isShowable then .field (Text.ofInt number)
    else .field "<unprintable int object>"
  | key => .field key.written

end Place

structure Issue where
  flaw : Flaw
  places : List Place := []
  input : Value
  deriving DecidableEq

namespace Issue

def within (place : Place) (issue : Issue) : Issue := { issue with places := place :: issue.places }

def path (issue : Issue) : Text := Text.join "." (issue.places.map Place.shown)

end Issue

end ApiSurface.Schema
