import ApiSurface.Decimal.Digits
import ApiSurface.Schema.Checked
import ApiSurface.Text.Blank
import ApiSurface.Text.Utf8

/-!
Texts, words, truth values and whole numbers. Data that says the same in another form is accepted:
bytes that hold text, truth values and whole numbers written out, numbers for truth values.
-/

namespace ApiSurface.Schema

variable {α : Type}

def text : Reader Text
  | .text content => .accepted content
  | .bytes content => match Text.utf8? content with
    | some chars => .accepted (Text.ofChars chars)
    | none => .refuse .unreadableText (.bytes content)
  | value => .refuse .notText value

def textOrNumber : Reader Text
  | .int number =>
    if (Value.int number).isShowable then .accepted (Text.ofInt number)
    else .refuse .unshowable (.int number)
  | .float number => .accepted (Text.ofChars number.render)
  | value => text value

def word (flaw : List Text → Flaw) (choices : List (Text × α)) : Reader α
  | .text content =>
    if content.toChars?.isNone then .refuse .unreadableText (.text content)
    else match choices.lookup content with
      | some choice => .accepted choice
      | none => .refuse (flaw (choices.map (·.1))) (.text content)
  | value => .refuse (flaw (choices.map (·.1))) value

def literal (choices : List (Text × α)) : Reader α := word .notLiteral choices

def member (choices : List (Text × α)) : Reader α := word .notMember choices

/-- The characters of a value that is a text or bytes that hold text; bytes that hold none are
refused with the given flaw. -/
def characters? (unreadable : Flaw) (value : Value) : Option (Checked (List Char)) :=
  match value with
  | .text content => match content.toChars? with
    | some chars => some (.accepted chars)
    | none => some (.refuse .unreadableText value)
  | .bytes content => match Text.utf8? content with
    | some chars => some (.accepted chars)
    | none => some (.refuse unreadable value)
  | _ => none

def trueWords : List String := ["1", "on", "t", "true", "y", "yes"]

def falseWords : List String := ["0", "f", "false", "n", "no", "off"]

def flagOfChars? (chars : List Char) : Option Bool :=
  let lowered := String.ofList (chars.map Char.toLower)
  if lowered ∈ trueWords then some true else if lowered ∈ falseWords then some false else none

def flagOfInt? (number : Int) : Option Bool :=
  if number = 0 then some false else if number = 1 then some true else none

def flagOr (flaw : Flaw) (input : Value) : Option Bool → Checked Bool
  | some flag => .accepted flag
  | none => .refuse flaw input

def flag (value : Value) : Checked Bool :=
  match characters? .unclearFlag value with
  | some checked => checked.andThen fun chars => flagOr .unclearFlag value (flagOfChars? chars)
  | none => match value with
    | .bool flag => .accepted flag
    | .int number =>
      if isSmall number then flagOr .unclearFlag value (flagOfInt? number) else .refuse .notFlag value
    | .float number => match number.toInt? with
      | some whole =>
        if whole.natAbs < 0x8000000000000000 then flagOr .unclearFlag value (flagOfInt? whole)
        else .refuse .notFlag value
      | none => .refuse .notFlag value
    | _ => .refuse .notFlag value

/-- What a number goes on with after the zeros that it begins with, which may stand among
underscores: one of these characters stays where nothing else would stand before a point or at the
end. `last` is the latest of them. -/
def withoutZeros? (last : Char) : List Char → Option (List Char)
  | [] => some [last]
  | char :: rest =>
    if char == '0' || char == '_' then withoutZeros? char rest
    else if char == '.' then some (last :: char :: rest)
    else if char == '-' || char.isDigit then some (char :: rest)
    else none

def significant? : List Char → Option (List Char)
  | '0' :: rest => withoutZeros? '0' rest
  | char :: rest => if char.isDigit then some (char :: rest) else none
  | [] => none

def withoutPlaces? (chars : List Char) : Option (List Char) :=
  match chars.dropWhile (· != '.') with
  | [] => some chars
  | _ :: places =>
    if !places.isEmpty && places.all (· == '0') then some (chars.takeWhile (· != '.')) else none

def hasDoubled (mark : Char) : List Char → Bool
  | first :: second :: rest =>
    (first == mark && second == mark) || hasDoubled mark (second :: rest)
  | _ => false

def ungrouped (chars : List Char) : List Char :=
  if chars.head? == some '_' || chars.getLast? == some '_' || hasDoubled '_' chars then chars
  else chars.filter (· != '_')

def integer? (chars : List Char) : Option Int :=
  let negative := chars.head? == some '-'
  let digits := if negative then chars.drop 1 else chars
  if digits.isEmpty || !digits.all Char.isDigit || Digits.most < chars.length
      || (digits.head? == some '0' && digits.length != 1) then
    none
  else
    let magnitude : Int := Digits.decimal digits
    some (if negative then -magnitude else magnitude)

def signed? (negative : Bool) (chars : List Char) : Option Int := do
  let digits := ungrouped (← withoutPlaces? (← significant? chars))
  integer? (if negative then '-' :: digits else digits)

def whole? : List Char → Option Int
  | '-' :: rest => signed? true rest
  | '+' :: rest => signed? false rest
  | chars => signed? false chars

def wholeOfChars (input : Value) (chars : List Char) : Checked Int :=
  match whole? (Text.trimmed chars) with
  | none => .refuse .unclearWhole input
  | some number => .accepted number

def wholeOfFloat (number : Binary64) : Checked Int :=
  match number with
  | .finite .. => match number.toInt? with
    | none => .refuse .fractional (.float number)
    | some whole =>
      if whole.natAbs < 0x8000000000000000 then .accepted whole
      else .refuse .oversized (.float number)
  | _ => .refuse .notFinite (.float number)

def whole (value : Value) : Checked Int :=
  match characters? .unclearWhole value with
  | some checked => checked.andThen (wholeOfChars value)
  | none => match value with
    | .int number => .accepted number
    | .bool flag => .accepted flag.toInt
    | .float number => wholeOfFloat number
    | _ => .refuse .notWhole value

end ApiSurface.Schema
