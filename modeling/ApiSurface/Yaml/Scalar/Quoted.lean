import ApiSurface.Decimal.Digits
import ApiSurface.Yaml.Scalar.Plain

/-!
Scalars in quotes. Lines are folded as in plain scalars; a double-quoted scalar has escapes, a
single-quoted one writes its quote twice.
-/

namespace ApiSurface.Yaml.Quoted

/-- Blanks and breaks that were read but may still change; an escaped break stands for nothing. -/
inductive Pending
  | nothing
  | blanks (reversed : List Char)
  | lines (first : Option Char) (reversed : List Char)

def Pending.text : Pending → List Char
  | .nothing => []
  | .blanks reversed => reversed.reverse
  | .lines none reversed => reversed.reverse
  | .lines (some first) reversed => Plain.folded first reversed.reverse

inductive Mode
  | text (pending : Pending)
  | secondQuote
  | escape
  | hex (left number : Nat)

def flush (reversed : Text) (pending : Pending) : Text :=
  (Text.ofChars pending.text).reverse ++ reversed

def escaped? : Char → Option Char
  | '0' => some '\x00'
  | 'a' => some '\x07'
  | 'b' => some '\x08'
  | 't' => some '\t'
  | '\t' => some '\t'
  | 'n' => some '\n'
  | 'v' => some '\x0b'
  | 'f' => some '\x0c'
  | 'r' => some '\r'
  | 'e' => some '\x1b'
  | ' ' => some ' '
  | '"' => some '"'
  | '\\' => some '\\'
  | '/' => some '/'
  | 'N' => some '\u0085'
  | '_' => some '\u00a0'
  | 'L' => some '\u2028'
  | 'P' => some '\u2029'
  | _ => none

def escapeWidth? : Char → Option Nat
  | 'x' => some 2
  | 'u' => some 4
  | 'U' => some 8
  | _ => none

def codePoint (number : Nat) : Except Fault CodePoint :=
  match CodePoint.ofNat? number with
  | some point => .ok point
  | none => .error (if number < 0x80000000 then .codePoint else .hugeCodePoint)

def scan (double : Bool) (reversed : Text) (mode : Mode) :
    List Glyph → Except Fault (Text × List Glyph)
  | [] => .error .unfinished
  | glyph :: rest =>
    let char := glyph.char
    match mode with
    | .secondQuote => scan double (CodePoint.ofChar char :: reversed) (.text .nothing) rest
    | .escape =>
      match escaped? char, escapeWidth? char with
      | some plain, _ => scan double (CodePoint.ofChar plain :: reversed) (.text .nothing) rest
      | none, some width => scan double reversed (.hex width 0) rest
      | none, none =>
        if isBreak char then scan double reversed (.text (.lines none [])) rest
        else .error .token
    | .hex left number =>
      match Digits.hexadecimalDigit? char with
      | none => .error .token
      | some digit =>
        let number := number * 16 + digit
        if left ≤ 1 then
          match codePoint number with
          | .ok point => scan double (point :: reversed) (.text .nothing) rest
          | .error fault => .error fault
        else scan double reversed (.hex (left - 1) number) rest
    | .text pending =>
      if isEnd char then .error .token
      else if glyph.column = 0 && Glyph.startsDocumentMark (glyph :: rest) then .error .token
      else if isBlank char then
        match pending with
        | .nothing => scan double reversed (.text (.blanks [char])) rest
        | .blanks blanks => scan double reversed (.text (.blanks (char :: blanks))) rest
        | .lines .. => scan double reversed (.text pending) rest
      else if isBreak char then
        match pending with
        | .lines first breaks => scan double reversed (.text (.lines first (char :: breaks))) rest
        | _ => scan double reversed (.text (.lines (some char) [])) rest
      else
        let reversed := flush reversed pending
        if double && char == '\\' then scan double reversed .escape rest
        else if double && char == '"' then .ok (reversed.reverse, rest)
        else if !double && char == '\'' then
          if Glyph.peek rest == '\'' then scan double reversed .secondQuote rest
          else .ok (reversed.reverse, rest)
        else scan double (CodePoint.ofChar char :: reversed) (.text .nothing) rest

end ApiSurface.Yaml.Quoted
