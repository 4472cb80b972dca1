import ApiSurface.Decimal.Digits
import ApiSurface.Value

/-!
Reading JSON text. Besides the standard the words for the numbers that are not finite are read, a
repeated key keeps its last value, and an escape may name a single surrogate.
-/

namespace ApiSurface.Json

inductive Token
  | openList
  | closeList
  | openMap
  | closeMap
  | colon
  | comma
  | text (content : Text)
  | word (chars : List Char)

/-- Puts an escaped unit before a text; a high surrogate joins a low one that follows it. -/
def consUnit (unit : CodePoint) : Text → Text
  | [] => [unit]
  | next :: rest =>
    if 0xD800 ≤ unit.val ∧ unit.val < 0xDC00 ∧ 0xDC00 ≤ next.val ∧ next.val < 0xE000 then
      ((CodePoint.ofNat? (0x10000 + (unit.val - 0xD800) * 0x400 + (next.val - 0xDC00))).getD unit)
        :: rest
    else unit :: next :: rest

def escaped? : Char → Option Char
  | '"' => some '"'
  | '\\' => some '\\'
  | '/' => some '/'
  | 'b' => some '\x08'
  | 'f' => some '\x0c'
  | 'n' => some '\n'
  | 'r' => some '\r'
  | 't' => some '\t'
  | _ => none

def textBody : List Char → Option (Text × List Char)
  | [] => none
  | '"' :: rest => some ([], rest)
  | '\\' :: 'u' :: a :: b :: c :: d :: rest => do
    let unit ← CodePoint.ofNat? (← Digits.hexadecimal? [a, b, c, d])
    let (content, remaining) ← textBody rest
    return (consUnit unit content, remaining)
  | '\\' :: char :: rest => do
    let plain ← escaped? char
    let (content, remaining) ← textBody rest
    return (CodePoint.ofChar plain :: content, remaining)
  | char :: rest =>
    if char.toNat < 0x20 then none
    else do
      let (content, remaining) ← textBody rest
      return (CodePoint.ofChar char :: content, remaining)

theorem textBody_length {chars remaining : List Char} {content : Text}
    (read : textBody chars = some (content, remaining)) : remaining.length < chars.length := by
  fun_induction textBody chars generalizing content remaining with
  | case1 => simp at read
  | case2 rest =>
      simp only [Option.some.injEq, Prod.mk.injEq] at read
      simp [read.2]
  | case3 a b c d rest ih =>
      simp only [Option.bind_eq_bind, Option.pure_def, Option.bind_eq_some_iff, Option.some.injEq,
        Prod.mk.injEq] at read
      obtain ⟨_, _, _, _, ⟨_, inner⟩, found, _, rfl⟩ := read
      have shorter := ih found
      simp only [List.length_cons] at shorter ⊢
      omega
  | case4 char rest _ ih =>
      simp only [Option.bind_eq_bind, Option.pure_def, Option.bind_eq_some_iff, Option.some.injEq,
        Prod.mk.injEq] at read
      obtain ⟨_, _, ⟨_, inner⟩, found, _, rfl⟩ := read
      have shorter := ih found
      simp only [List.length_cons] at shorter ⊢
      omega
  | case5 => simp at read
  | case6 char rest _ _ _ _ ih =>
      simp only [Option.bind_eq_bind, Option.pure_def, Option.bind_eq_some_iff, Option.some.injEq,
        Prod.mk.injEq] at read
      obtain ⟨⟨_, inner⟩, found, _, rfl⟩ := read
      have shorter := ih found
      simp only [List.length_cons] at shorter ⊢
      omega

def isSpace (char : Char) : Bool :=
  char == ' ' || char == '\t' || char == '\n' || char == '\r'

def isWordChar (char : Char) : Bool :=
  !isSpace char && !(['[', ']', '{', '}', ':', ',', '"'].contains char)

def tokens? (chars : List Char) : Option (List Token) :=
  match chars with
  | [] => some []
  | '[' :: rest => (tokens? rest).map (.openList :: ·)
  | ']' :: rest => (tokens? rest).map (.closeList :: ·)
  | '{' :: rest => (tokens? rest).map (.openMap :: ·)
  | '}' :: rest => (tokens? rest).map (.closeMap :: ·)
  | ':' :: rest => (tokens? rest).map (.colon :: ·)
  | ',' :: rest => (tokens? rest).map (.comma :: ·)
  | '"' :: rest =>
    match _ : textBody rest with
    | none => none
    | some (content, remaining) => (tokens? remaining).map (.text content :: ·)
  | char :: rest =>
    if isSpace char then tokens? rest
    else (tokens? (rest.dropWhile isWordChar)).map (.word (char :: rest.takeWhile isWordChar) :: ·)
termination_by chars.length
decreasing_by
  all_goals simp only [List.length_cons]
  all_goals first
    | omega
    | exact Nat.lt_succ_of_lt (textBody_length ‹_›)
    | exact Nat.lt_succ_of_le (List.dropWhile_sublist isWordChar).length_le

def number? (chars : List Char) : Option Value := do
  let negative := chars.head? == some '-'
  let body := if negative then chars.drop 1 else chars
  let whole := body.takeWhile Char.isDigit
  guard (whole == ['0'] || (!whole.isEmpty && whole.head? != some '0'))
  let afterWhole := body.dropWhile Char.isDigit
  let (places, afterPlaces) ← match afterWhole with
    | '.' :: rest =>
      let places := rest.takeWhile Char.isDigit
      if places.isEmpty then none else some (places, rest.dropWhile Char.isDigit)
    | _ => some ([], afterWhole)
  let exponent ← match afterPlaces with
    | [] => some none
    | mark :: rest =>
      let negativeExponent := rest.head? == some '-'
      let size := if negativeExponent || rest.head? == some '+' then rest.drop 1 else rest
      if (mark == 'e' || mark == 'E') && !size.isEmpty && size.all Char.isDigit then
        let magnitude : Int := Digits.decimal size
        some (some (if negativeExponent then -magnitude else magnitude))
      else none
  if places.isEmpty && exponent.isNone then
    guard (whole.length ≤ Digits.most)
    let magnitude : Int := Digits.decimal whole
    return .int (if negative then -magnitude else magnitude)
  else
    return .float (Binary64.ofDecimal negative (Digits.decimal (whole ++ places))
      (exponent.getD 0 - places.length))

def word? (chars : List Char) : Option Value :=
  match String.ofList chars with
  | "null" => some .null
  | "true" => some (.bool true)
  | "false" => some (.bool false)
  | "NaN" => some (.float (.nan 0))
  | "Infinity" => some (.float (.infinite false))
  | "-Infinity" => some (.float (.infinite true))
  | _ => number? chars

/-- How many collections are open at most, beyond those that are open already. -/
def nesting (opened : Nat) : List Token → Nat
  | [] => opened
  | .openList :: rest => max opened (nesting (opened + 1) rest)
  | .openMap :: rest => max opened (nesting (opened + 1) rest)
  | .closeList :: rest => max opened (nesting (opened - 1) rest)
  | .closeMap :: rest => max opened (nesting (opened - 1) rest)
  | _ :: rest => nesting opened rest

/-- A collection that is still open, with its finished items, latest first. -/
inductive Frame
  | list (done : List Value)
  | map (done : Entries) (key : Text)

mutual

def value? (frames : List Frame) : List Token → Option Value
  | .openList :: .closeList :: rest => after? frames (.list []) rest
  | .openList :: rest => value? (.list [] :: frames) rest
  | .openMap :: .closeMap :: rest => after? frames (.map []) rest
  | .openMap :: .text key :: .colon :: rest => value? (.map [] key :: frames) rest
  | .text content :: rest => after? frames (.text content) rest
  | .word chars :: rest => do after? frames (← word? chars) rest
  | _ => none

def after? (frames : List Frame) (value : Value) : List Token → Option Value
  | [] => match frames with
    | [] => some value
    | _ => none
  | .comma :: .text next :: .colon :: rest => match frames with
    | .map done key :: outer => value? (.map (done.put key value) next :: outer) rest
    | _ => none
  | .comma :: rest => match frames with
    | .list done :: outer => value? (.list (value :: done) :: outer) rest
    | _ => none
  | .closeList :: rest => match frames with
    | .list done :: outer => after? outer (.list (value :: done).reverse) rest
    | _ => none
  | .closeMap :: rest => match frames with
    | .map done key :: outer => after? outer (.map (done.put key value)) rest
    | _ => none
  | _ => none

end

def parse? (chars : List Char) : Option Value := do value? [] (← tokens? chars)

end ApiSurface.Json
