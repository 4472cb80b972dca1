import ApiSurface.Yaml.Scalar.Plain
import ApiSurface.Yaml.Scalar.Quoted
import ApiSurface.Yaml.Token.Property

/-!
Splitting a document into tokens. A scalar or a collection may turn out to be a key only when a
colon follows it on the same line; until then its place is remembered as a candidate.
-/

namespace ApiSurface.Yaml

/-- A place where a key may have begun. A required one must be followed by its colon. -/
structure Candidate where
  token : Nat
  required : Bool
  index : Nat
  line : Nat
  column : Nat

/-- The tokens so far, latest first, with what decides about the next one. `depth` counts open
brackets, `columns` are those of the open blocks, innermost first, and `candidates` stand under the
depth at which they were found. -/
structure Lexer where
  tokens : List Token := []
  count : Nat := 0
  depth : Nat := 0
  columns : List Nat := []
  keyAllowed : Bool := true
  candidates : List (Nat × Candidate) := []

structure Scan where
  tokens : List Token
  fault : Option Fault

namespace Lexer

/-- How far the colon may be from the start of its key. -/
def keyReach : Nat := 1024

def emit (lexer : Lexer) (token : Token) : Lexer :=
  { lexer with tokens := token :: lexer.tokens, count := lexer.count + 1 }

def insert (lexer : Lexer) (place : Nat) (token : Token) : Lexer :=
  { lexer with
    tokens := lexer.tokens.insertIdx (lexer.count - place) token
    count := lexer.count + 1 }

def inFlow (lexer : Lexer) : Bool := lexer.depth != 0

def dropStale (lexer : Lexer) (glyph : Glyph) : Except Fault Lexer :=
  let isStale (candidate : Candidate) : Bool :=
    candidate.line != glyph.line || keyReach < glyph.index - candidate.index
  if lexer.candidates.any fun entry => isStale entry.2 && entry.2.required then .error .token
  else .ok { lexer with candidates := lexer.candidates.filter fun entry => !isStale entry.2 }

def dropCandidate (lexer : Lexer) : Except Fault Lexer :=
  if lexer.candidates.any fun entry => entry.1 == lexer.depth && entry.2.required then
    .error .token
  else
    .ok { lexer with candidates := lexer.candidates.filter fun entry => entry.1 != lexer.depth }

def saveCandidate (lexer : Lexer) (glyph : Glyph) : Except Fault Lexer := do
  if lexer.keyAllowed then
    let required := !lexer.inFlow && lexer.columns.head? == some glyph.column
    let lexer ← lexer.dropCandidate
    let candidate := ⟨lexer.count, required, glyph.index, glyph.line, glyph.column⟩
    return { lexer with candidates := (lexer.depth, candidate) :: lexer.candidates }
  else return lexer

def closeBlocks (lexer : Lexer) (stays : Nat → Bool) : Lexer :=
  if lexer.inFlow then lexer
  else
    let closed := (lexer.columns.takeWhile fun column => !stays column).length
    { lexer with
      tokens := List.replicate closed .blockEnd ++ lexer.tokens
      count := lexer.count + closed
      columns := lexer.columns.drop closed }

def opensBlock (lexer : Lexer) (column : Nat) : Bool :=
  match lexer.columns with
  | [] => true
  | current :: _ => current < column

def openBlock (lexer : Lexer) (column : Nat) (start : Token) : Lexer :=
  if lexer.opensBlock column then
    { lexer.emit start with columns := column :: lexer.columns }
  else lexer

def closeAll (lexer : Lexer) : Except Fault Lexer := do
  let lexer ← (lexer.closeBlocks fun _ => false).dropCandidate
  return { lexer with keyAllowed := false }

def startFlow (lexer : Lexer) (glyph : Glyph) (start : Token) : Except Fault Lexer := do
  let lexer ← lexer.saveCandidate glyph
  return { lexer with depth := lexer.depth + 1, keyAllowed := true }.emit start

def endFlow (lexer : Lexer) (close : Token) : Except Fault Lexer := do
  if lexer.inFlow then
    let lexer ← lexer.dropCandidate
    return { lexer with depth := lexer.depth - 1, keyAllowed := false }.emit close
  else throw .grammar

def flowEntry (lexer : Lexer) : Except Fault Lexer := do
  let lexer ← { lexer with keyAllowed := true }.dropCandidate
  return lexer.emit .flowEntry

def blockIndicator (lexer : Lexer) (glyph : Glyph) (start indicator : Token) (keyAllowed : Bool) :
    Except Fault Lexer := do
  if lexer.inFlow then
    let lexer ← { lexer with keyAllowed }.dropCandidate
    return lexer.emit indicator
  else if lexer.keyAllowed then
    let lexer ← { lexer.openBlock glyph.column start with keyAllowed }.dropCandidate
    return lexer.emit indicator
  else throw .token

/-- Takes a colon. The candidate of this depth, if there is one, becomes a key. -/
def valueIndicator (lexer : Lexer) (glyph : Glyph) : Except Fault Lexer := do
  match lexer.candidates.lookup lexer.depth with
  | some candidate =>
    let others := lexer.candidates.filter fun entry => entry.1 != lexer.depth
    let opens := !lexer.inFlow && lexer.opensBlock candidate.column
    let lexer := { lexer with candidates := others, keyAllowed := false }.insert candidate.token .key
    let lexer :=
      if opens then
        { lexer.insert candidate.token .blockMappingStart with
          columns := candidate.column :: lexer.columns }
      else lexer
    return lexer.emit .value
  | none => lexer.blockIndicator glyph .blockMappingStart .value (!lexer.inFlow)

def keyPart (lexer : Lexer) (glyph : Glyph) (scanned : Scanned) :
    Except Fault (Lexer × List Glyph) := do
  let lexer ← lexer.saveCandidate glyph
  let (token, rest) ← scanned
  return ({ lexer with keyAllowed := false }.emit token, rest)

def blockScalar (lexer : Lexer) (fold : Bool) (rest : List Glyph) :
    Except Fault (Lexer × List Glyph) := do
  let lexer ← { lexer with keyAllowed := true }.dropCandidate
  let least := (lexer.columns.head?.map (· + 1)).getD 1
  let (chars, rest) ← Block.scan fold least rest
  return (lexer.emit (.scalar (Text.ofChars chars) false), rest)

def plainScalar (lexer : Lexer) (glyph : Glyph) (rest : List Glyph) :
    Except Fault (Lexer × List Glyph) := do
  let lexer ← lexer.saveCandidate glyph
  let indent := (lexer.columns.head?.map (· + 1)).getD 0
  let scanned := Plain.scan lexer.inFlow indent (glyph :: rest)
  return ({ lexer with keyAllowed := scanned.broken }.emit (.scalar (Text.ofChars scanned.chars) true),
    scanned.remaining)

def beginsPlain (lexer : Lexer) (char next : Char) : Bool :=
  (!isGap char && !(['-', '?', ':', ',', '[', ']', '{', '}', '#', '&', '*', '!', '|', '>', '\'', '"',
      '%', '@', '`'].contains char))
    || (!isGap next && (char == '-' || (!lexer.inFlow && (char == '?' || char == ':'))))

def next (lexer : Lexer) (glyph : Glyph) (rest : List Glyph) :
    Except Fault (Lexer × List Glyph) := do
  let char := glyph.char
  let after := Glyph.peek rest
  let separated := isGap after
  if char == '%' && glyph.column == 0 then
    let lexer ← lexer.closeAll
    let (token, rest) ← scanDirective rest
    return (lexer.emit token, rest)
  else if glyph.column == 0 && Glyph.startsMark '-' (glyph :: rest) then
    return ((← lexer.closeAll).emit .documentStart, rest.drop 2)
  else if glyph.column == 0 && Glyph.startsMark '.' (glyph :: rest) then
    return ((← lexer.closeAll).emit .documentEnd, rest.drop 2)
  else if char == '[' then return (← lexer.startFlow glyph .flowSequenceStart, rest)
  else if char == '{' then return (← lexer.startFlow glyph .flowMappingStart, rest)
  else if char == ']' then return (← lexer.endFlow .flowSequenceEnd, rest)
  else if char == '}' then return (← lexer.endFlow .flowMappingEnd, rest)
  else if char == ',' then return (← lexer.flowEntry, rest)
  else if char == '-' && separated then
    return (← lexer.blockIndicator glyph .blockSequenceStart .blockEntry true, rest)
  else if char == '?' && (lexer.inFlow || separated) then
    return (← lexer.blockIndicator glyph .blockMappingStart .key (!lexer.inFlow), rest)
  else if char == ':' && (lexer.inFlow || separated) then
    return (← lexer.valueIndicator glyph, rest)
  else if char == '*' then
    lexer.keyPart glyph ((scanAnchor rest).map fun (name, rest) => (.reference name, rest))
  else if char == '&' then
    lexer.keyPart glyph ((scanAnchor rest).map fun (name, rest) => (.anchor name, rest))
  else if char == '!' then lexer.keyPart glyph (scanTag (glyph :: rest))
  else if char == '|' && !lexer.inFlow then lexer.blockScalar false rest
  else if char == '>' && !lexer.inFlow then lexer.blockScalar true rest
  else if char == '\'' || char == '"' then
    lexer.keyPart glyph ((Quoted.scan (char == '"') [] (.text .nothing) rest).map
      fun (content, rest) => (.scalar content false, rest))
  else if lexer.beginsPlain char after then lexer.plainScalar glyph rest
  else throw .token

def skipBlank (inComment broken : Bool) : List Glyph → Bool × List Glyph
  | [] => (broken, [])
  | glyph :: rest =>
    if isBreak glyph.char then skipBlank false true rest
    else if inComment && !isEnd glyph.char then skipBlank true broken rest
    else if glyph.char == ' ' then skipBlank false broken rest
    else if glyph.char == '#' then skipBlank true broken rest
    else (broken, glyph :: rest)

/-- Takes the next token or the end of the document, after which no glyphs are left to take. -/
def fetch (lexer : Lexer) (glyphs : List Glyph) : Except Fault (Lexer × Option (List Glyph)) := do
  match skipBlank false false glyphs with
  | (_, []) => throw .unfinished
  | (broken, glyph :: rest) =>
    let lexer := if broken && !lexer.inFlow then { lexer with keyAllowed := true } else lexer
    let lexer := (← lexer.dropStale glyph).closeBlocks (· ≤ glyph.column)
    if isEnd glyph.char then return (← lexer.closeAll, none)
    let (lexer, remaining) ← lexer.next glyph rest
    if remaining.isEmpty then throw .unfinished
    return (lexer, some remaining)

/-- The first token that may still change, because a candidate stands before it, or else the first
one that is not there yet. -/
def unsettled (lexer : Lexer) : Nat :=
  ((lexer.candidates.map fun entry => entry.2.token).min?).getD lexer.count

def stop (lexer : Lexer) (missing : Nat) (fault : Fault) : Scan :=
  ⟨lexer.tokens.reverse.take missing, some fault⟩

/-- Splits the glyphs as long as `bound` allows; `missing` is the first token that is not settled.
Every token takes a glyph, so that one more than there are is enough. -/
def run (barrier : Fault) (lexer : Lexer) (missing : Nat) : Nat → List Glyph → Scan
  | 0, _ => lexer.stop missing .token
  | bound + 1, glyphs =>
    match (glyphs.head?.map lexer.dropStale).getD (.ok lexer) with
    | .error fault => lexer.stop missing fault
    | .ok lexer =>
      match lexer.fetch glyphs with
      | .error fault => lexer.stop lexer.unsettled (if fault = .unfinished then barrier else fault)
      | .ok (finished, none) => ⟨finished.tokens.reverse, none⟩
      | .ok (fetched, some remaining) => fetched.run barrier lexer.unsettled bound remaining

end Lexer

/-- The tokens of a document as far as they go, and what stops them if something does. A fault stands
after the tokens that are settled when it is found. -/
def Source.tokens (source : Source) : Scan :=
  let glyphs := source.glyphs
  Lexer.run (source.barrier.getD .token) {} 0 (glyphs.length + 1) glyphs

end ApiSurface.Yaml
