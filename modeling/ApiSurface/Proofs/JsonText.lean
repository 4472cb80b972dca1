import ApiSurface.Json
import ApiSurface.Proofs.FlowValue

/-! JSON texts as trees with every choice of spelling: blanks, escapes and forms of numbers. Some of the
spellings mean the same in both notations. -/

namespace ApiSurface.Json

inductive Blank
  | space
  | tab
  | lineFeed
  | carriageReturn
  deriving DecidableEq

def Blank.char : Blank → Char
  | .space => ' '
  | .tab => '\t'
  | .lineFeed => '\n'
  | .carriageReturn => '\r'

abbrev Gap := List Blank

def Gap.chars (gap : Gap) : List Char := gap.map Blank.char

inductive Piece
  | plain (char : Char) (printable : 0x20 ≤ char.toNat) (bare : char ≠ '"' ∧ char ≠ '\\')
  | short (letter meaning : Char) (known : escaped? letter = some meaning)
  | unit (a b c d : Char) (point : CodePoint)
    (named : Digits.hexadecimal? [a, b, c, d] = some point.val)

namespace Piece

def chars : Piece → List Char
  | .plain char .. => [char]
  | .short letter .. => ['\\', letter]
  | .unit a b c d .. => ['\\', 'u', a, b, c, d]

def point : Piece → CodePoint
  | .plain char .. => CodePoint.ofChar char
  | .short _ meaning _ => CodePoint.ofChar meaning
  | .unit _ _ _ _ point _ => point

/-- The text of some pieces, in which two escaped surrogates may be one character. -/
def content : List Piece → Text
  | [] => []
  | .unit _ _ _ _ point _ :: rest => consUnit point (content rest)
  | piece :: rest => piece.point :: content rest

/-- Pieces for the characters that stand for themselves. -/
def ofChars (chars : List Char) : List Piece :=
  chars.filterMap fun char =>
    if plain : 0x20 ≤ char.toNat ∧ char ≠ '"' ∧ char ≠ '\\' then some (.plain char plain.1 plain.2)
    else none

def quoted (pieces : List Piece) : List Char := '"' :: (pieces.flatMap chars ++ ['"'])

/-- Two escapes that name the halves of one character. -/
def Joins (first second : Piece) : Prop :=
  (0xD800 ≤ first.point.val ∧ first.point.val < 0xDC00) ∧
    0xDC00 ≤ second.point.val ∧ second.point.val < 0xE000

/-- A character that YAML takes as it is: no control character, and none that ends a line. -/
def IsShared : Piece → Prop
  | .plain char .. => Yaml.isAllowed char = true ∧ Yaml.isBreak char = false ∧ char ≠ '\u0085'
  | _ => True

def Shared (pieces : List Piece) : Prop :=
  (∀ piece ∈ pieces, piece.IsShared) ∧ pieces.IsChain fun first second => ¬ Joins first second

end Piece

structure Exponent where
  upper : Bool
  negative? : Option Bool
  digits : List Char
  given : digits ≠ []
  are_digits : digits.all Char.isDigit = true

namespace Exponent

def sign (exponent : Exponent) : List Char :=
  match exponent.negative? with
  | none => []
  | some true => ['-']
  | some false => ['+']

def chars (exponent : Exponent) : List Char :=
  (if exponent.upper then 'E' else 'e') :: (exponent.sign ++ exponent.digits)

def value (exponent : Exponent) : Int :=
  let size : Int := Digits.decimal exponent.digits
  if exponent.negative? = some true then -size else size

end Exponent

/-- The parts of a number; without places there is no point. -/
structure Numeral where
  negative : Bool
  whole : List Char
  places : List Char
  exponent : Option Exponent
  given : whole ≠ []
  are_digits : whole.all Char.isDigit = true
  no_leading_zero : whole.head? = some '0' → whole = ['0']
  are_places : places.all Char.isDigit = true

namespace Numeral

def sign (numeral : Numeral) : List Char := if numeral.negative then ['-'] else []

def fraction (numeral : Numeral) : List Char :=
  if numeral.places = [] then [] else '.' :: numeral.places

def chars (numeral : Numeral) : List Char :=
  numeral.sign ++ (numeral.whole ++ (numeral.fraction ++ (numeral.exponent.elim [] Exponent.chars)))

def IsWhole (numeral : Numeral) : Prop := numeral.places = [] ∧ numeral.exponent = none

instance (numeral : Numeral) : Decidable numeral.IsWhole := by
  unfold IsWhole
  cases numeral.exponent with
  | none => exact decidable_of_iff (numeral.places = []) (by simp)
  | some exponent => exact isFalse (by simp)

def value (numeral : Numeral) : Value :=
  if numeral.IsWhole then
    .int (if numeral.negative then -(Digits.decimal numeral.whole : Int)
      else Digits.decimal numeral.whole)
  else
    .float (Binary64.ofDecimal numeral.negative (Digits.decimal (numeral.whole ++ numeral.places))
      (numeral.exponent.elim 0 Exponent.value - numeral.places.length))

/-- An integer that is not too long, or a number with a point whose exponent, if any, has a sign. -/
def Shared (numeral : Numeral) : Prop :=
  if numeral.IsWhole then numeral.whole.length ≤ Digits.most
  else numeral.places ≠ [] ∧ ∀ exponent ∈ numeral.exponent, exponent.negative? ≠ none

end Numeral

mutual

/-- A value with its spelling. -/
inductive Writing
  | null
  | bool (flag : Bool)
  | number (numeral : Numeral)
  | text (pieces : List Piece)
  | emptyList (gap : Gap)
  | list (items : Items)
  | emptyMap (gap : Gap)
  | map (members : Members)

/-- One or more items with the blanks around them. -/
inductive Items
  | last (before : Gap) (item : Writing) (after : Gap)
  | more (before : Gap) (item : Writing) (after : Gap) (rest : Items)

/-- One or more members, with the blanks around their keys and their values. -/
inductive Members
  | last (before : Gap) (key : List Piece) (afterKey beforeValue : Gap) (value : Writing)
    (after : Gap)
  | more (before : Gap) (key : List Piece) (afterKey beforeValue : Gap) (value : Writing)
    (after : Gap) (rest : Members)

end

mutual

def Writing.chars : Writing → List Char
  | .null => "null".toList
  | .bool true => "true".toList
  | .bool false => "false".toList
  | .number numeral => numeral.chars
  | .text pieces => Piece.quoted pieces
  | .emptyList gap => '[' :: (gap.chars ++ [']'])
  | .list items => '[' :: (items.chars ++ [']'])
  | .emptyMap gap => '\x7b' :: (gap.chars ++ ['\x7d'])
  | .map members => '\x7b' :: (members.chars ++ ['\x7d'])

def Items.chars : Items → List Char
  | .last before item after => before.chars ++ (item.chars ++ after.chars)
  | .more before item after rest =>
    before.chars ++ (item.chars ++ (after.chars ++ ',' :: rest.chars))

def Members.chars : Members → List Char
  | .last before key afterKey beforeValue value after =>
    before.chars ++ (Piece.quoted key ++ (afterKey.chars ++
      ':' :: (beforeValue.chars ++ (value.chars ++ after.chars))))
  | .more before key afterKey beforeValue value after rest =>
    before.chars ++ (Piece.quoted key ++ (afterKey.chars ++
      ':' :: (beforeValue.chars ++ (value.chars ++ (after.chars ++ ',' :: rest.chars)))))

end

mutual

def Writing.value : Writing → Value
  | .null => .null
  | .bool flag => .bool flag
  | .number numeral => numeral.value
  | .text pieces => .text (Piece.content pieces)
  | .emptyList _ => .list []
  | .list items => .list items.values
  | .emptyMap _ => .map []
  | .map members => .map (members.assigned [])

def Items.values : Items → List Value
  | .last _ item _ => [item.value]
  | .more _ item _ rest => item.value :: rest.values

/-- Members behind others; a repeated key keeps its last value. -/
def Members.assigned (done : Entries) : Members → Entries
  | .last _ key _ _ value _ => done.put (.text (Piece.content key)) value.value
  | .more _ key _ _ value _ rest => rest.assigned (done.put (.text (Piece.content key)) value.value)

end

mutual

/-- The same document in brackets. -/
def Writing.flow : Writing → Yaml.Flow
  | .null => .scalar "null" true .null
  | .bool true => .scalar "true" true (.bool true)
  | .bool false => .scalar "false" true (.bool false)
  | .number numeral => .scalar (Text.ofChars numeral.chars) true numeral.value
  | .text pieces => .scalar (Piece.content pieces) false (.text (Piece.content pieces))
  | .emptyList _ => .list .nil
  | .list items => .list items.flow
  | .emptyMap _ => .map .nil
  | .map members => .map members.flow

def Items.flow : Items → Yaml.FlowItems
  | .last _ item _ => .cons item.flow .nil
  | .more _ item _ rest => .cons item.flow rest.flow

def Members.flow : Members → Yaml.FlowEntries
  | .last _ key _ _ value _ => .cons (Piece.content key) value.flow .nil
  | .more _ key _ _ value _ rest => .cons (Piece.content key) value.flow rest.flow

end

mutual

theorem Writing.flow_value (writing : Writing) : writing.flow.value = writing.value := by
  cases writing with
  | list items => simp [Writing.flow, Writing.value, Yaml.Flow.value, items.flow_values]
  | map members => simp [Writing.flow, Writing.value, Yaml.Flow.value, members.flow_assigned]
  | bool flag => cases flag <;> rfl
  | _ => rfl

theorem Items.flow_values (items : Items) : items.flow.values = items.values := by
  cases items with
  | last before item after =>
      simp [Items.flow, Items.values, Yaml.FlowItems.values, item.flow_value]
  | more before item after rest =>
      simp [Items.flow, Items.values, Yaml.FlowItems.values, item.flow_value, rest.flow_values]

theorem Members.flow_assigned (members : Members) (done : Entries) :
    members.flow.assigned done = members.assigned done := by
  cases members with
  | last before key afterKey beforeValue value after =>
      simp [Members.flow, Members.assigned, Yaml.FlowEntries.assigned, value.flow_value]
  | more before key afterKey beforeValue value after rest =>
      simp [Members.flow, Members.assigned, Yaml.FlowEntries.assigned, value.flow_value,
        rest.flow_assigned]

end

/-- Blanks that YAML skips between tokens. -/
def Gap.Shared (gap : Gap) : Prop := Blank.tab ∉ gap

/-- A key whose colon follows on its line, not too far from its beginning. -/
def SharedKey (key : List Piece) (afterKey : Gap) : Prop :=
  Piece.Shared key ∧ (∀ blank ∈ afterKey, blank = .space) ∧
    (Piece.quoted key).length + afterKey.length ≤ Yaml.Lexer.keyReach

mutual

/-- Spellings that mean the same in both notations. -/
def Writing.Shared : Writing → Prop
  | .null | .bool _ => True
  | .number numeral => numeral.Shared
  | .text pieces => Piece.Shared pieces
  | .emptyList gap | .emptyMap gap => gap.Shared
  | .list items => items.Shared
  | .map members => members.Shared

def Items.Shared : Items → Prop
  | .last before item after => before.Shared ∧ item.Shared ∧ after.Shared
  | .more before item after rest => before.Shared ∧ item.Shared ∧ after.Shared ∧ rest.Shared

def Members.Shared : Members → Prop
  | .last before key afterKey beforeValue value after =>
    before.Shared ∧ SharedKey key afterKey ∧ beforeValue.Shared ∧ value.Shared ∧ after.Shared
  | .more before key afterKey beforeValue value after rest =>
    before.Shared ∧ SharedKey key afterKey ∧ beforeValue.Shared ∧ value.Shared ∧ after.Shared ∧
      rest.Shared

end

section Decisions

instance (piece : Piece) : Decidable piece.IsShared :=
  match piece with
  | .plain .. => inferInstanceAs (Decidable (_ ∧ _ ∧ _))
  | .short .. | .unit .. => isTrue trivial

instance (first second : Piece) : Decidable (Piece.Joins first second) :=
  inferInstanceAs (Decidable ((_ ∧ _) ∧ _))

instance (pieces : List Piece) : Decidable (Piece.Shared pieces) :=
  inferInstanceAs (Decidable (_ ∧ _))

instance (numeral : Numeral) : Decidable numeral.Shared :=
  if whole : numeral.IsWhole then
    decidable_of_iff (numeral.whole.length ≤ Digits.most) (by rw [Numeral.Shared, if_pos whole])
  else
    decidable_of_iff
      (numeral.places ≠ [] ∧ ∀ exponent ∈ numeral.exponent, exponent.negative? ≠ none)
      (by rw [Numeral.Shared, if_neg whole])

instance (gap : Gap) : Decidable gap.Shared := inferInstanceAs (Decidable (_ ∉ _))

instance (key : List Piece) (afterKey : Gap) : Decidable (SharedKey key afterKey) :=
  inferInstanceAs (Decidable (_ ∧ _ ∧ _))

mutual

def Writing.decideShared : (writing : Writing) → Decidable writing.Shared
  | .null | .bool _ => isTrue trivial
  | .number numeral => inferInstanceAs (Decidable numeral.Shared)
  | .text pieces => inferInstanceAs (Decidable (Piece.Shared pieces))
  | .emptyList gap | .emptyMap gap => inferInstanceAs (Decidable gap.Shared)
  | .list items => items.decideShared
  | .map members => members.decideShared

def Items.decideShared : (items : Items) → Decidable items.Shared
  | .last _ item _ =>
    have := item.decideShared
    inferInstanceAs (Decidable (_ ∧ _ ∧ _))
  | .more _ item _ rest =>
    have := item.decideShared
    have := rest.decideShared
    inferInstanceAs (Decidable (_ ∧ _ ∧ _ ∧ _))

def Members.decideShared : (members : Members) → Decidable members.Shared
  | .last _ _ _ _ value _ =>
    have := value.decideShared
    inferInstanceAs (Decidable (_ ∧ _ ∧ _ ∧ _ ∧ _))
  | .more _ _ _ _ value _ rest =>
    have := value.decideShared
    have := rest.decideShared
    inferInstanceAs (Decidable (_ ∧ _ ∧ _ ∧ _ ∧ _ ∧ _))

end

instance (writing : Writing) : Decidable writing.Shared := writing.decideShared

end Decisions

structure Document where
  before : Gap
  writing : Writing
  after : Gap

namespace Document

def chars (document : Document) : List Char :=
  document.before.chars ++ (document.writing.chars ++ document.after.chars)

structure Shared (document : Document) : Prop where
  before : document.before.Shared
  writing : document.writing.Shared
  after : document.after.Shared
  shallow : document.writing.flow.depth ≤ Yaml.Tree.deepest

instance (document : Document) : Decidable document.Shared :=
  decidable_of_iff (document.before.Shared ∧ document.writing.Shared ∧ document.after.Shared ∧
      document.writing.flow.depth ≤ Yaml.Tree.deepest)
    ⟨fun ⟨before, writing, after, shallow⟩ => ⟨before, writing, after, shallow⟩,
      fun shared => ⟨shared.before, shared.writing, shared.after, shared.shallow⟩⟩

end Document

end ApiSurface.Json
