import ApiSurface.Proofs.Placing
import Mathlib.Logic.Relation

/-! How a document in brackets is split into tokens, one step for each token. -/

namespace ApiSurface.Yaml

open Lexer (skipBlank)

/-- Behind an opening quote the scalar has some content, and some characters are left. -/
def Quoted.Reads (chars rest : List Char) (content : Text) (length : Nat) : Prop :=
  ∀ index line column, column ≠ 0 → ∃ after,
    Quoted.scan true [] (.text .nothing) (place index line column chars) =
        .ok (content, place (index + length) line after rest) ∧
      (place (index + length) line after rest).length ≤ (place index line column chars).length

namespace Lexer

/-- The lexer has taken some tokens and stands inside so many brackets. No block is open, and no key
must follow. -/
structure HasRead (lexer : Lexer) (tokens : List Token) (depth : Nat) : Prop where
  tokens : lexer.tokens = tokens.reverse
  depth : lexer.depth = depth
  columns : lexer.columns = []
  optional : ∀ entry ∈ lexer.candidates, entry.2.required = false

namespace HasRead

variable {lexer : Lexer} {tokens : List Token} {depth : Nat} (hasRead : lexer.HasRead tokens depth)

include hasRead

theorem emit (token : Token) : (lexer.emit token).HasRead (tokens ++ [token]) depth where
  tokens := by simp [Lexer.emit, hasRead.tokens]
  depth := hasRead.depth
  columns := hasRead.columns
  optional := hasRead.optional

theorem allowing (keyAllowed : Bool) : { lexer with keyAllowed }.HasRead tokens depth :=
  ⟨hasRead.tokens, hasRead.depth, hasRead.columns, hasRead.optional⟩

theorem within (inner : Nat) : { lexer with depth := inner }.HasRead tokens inner :=
  ⟨hasRead.tokens, rfl, hasRead.columns, hasRead.optional⟩

theorem filtered (keep : Nat × Candidate → Bool) :
    { lexer with candidates := lexer.candidates.filter keep }.HasRead tokens depth :=
  ⟨hasRead.tokens, hasRead.depth, hasRead.columns,
    fun entry member => hasRead.optional entry ((List.mem_filter.mp member).1)⟩

theorem dropStale_eq (glyph : Glyph) : lexer.dropStale glyph = .ok { lexer with
    candidates := lexer.candidates.filter fun entry =>
      !(entry.2.line != glyph.line || keyReach < glyph.index - entry.2.index) } := by
  have none : (lexer.candidates.any fun entry =>
      (entry.2.line != glyph.line || keyReach < glyph.index - entry.2.index) &&
        entry.2.required) = false := by
    rw [List.any_eq_false]
    intro entry member
    simp [hasRead.optional entry member]
  simp only [dropStale, none, Bool.false_eq_true, if_false]

theorem dropCandidate_eq : lexer.dropCandidate = .ok { lexer with
    candidates := lexer.candidates.filter fun entry => entry.1 != lexer.depth } := by
  have none : (lexer.candidates.any fun entry => entry.1 == lexer.depth && entry.2.required) =
      false := by
    rw [List.any_eq_false]
    intro entry member
    simp [hasRead.optional entry member]
  simp only [dropCandidate, none, Bool.false_eq_true, if_false]

theorem closeBlocks_eq (stays : Nat → Bool) : lexer.closeBlocks stays = lexer := by
  obtain ⟨tokens, count, depth, columns, keyAllowed, candidates⟩ := lexer
  have columns : columns = [] := hasRead.columns
  subst columns
  simp [closeBlocks]

theorem saveCandidate_eq (glyph : Glyph) : ∃ after, lexer.saveCandidate glyph = .ok after ∧
    after.HasRead tokens depth ∧ after.keyAllowed = lexer.keyAllowed ∧ after.count = lexer.count ∧
    (lexer.keyAllowed = true → ∃ others, after.candidates =
      (depth, ⟨lexer.count, false, glyph.index, glyph.line, glyph.column⟩) :: others) := by
  cases allowed : lexer.keyAllowed with
  | false => exact ⟨lexer, by simp [saveCandidate, allowed, pure, Except.pure], hasRead, allowed, rfl,
      fun isAllowed => Bool.noConfusion isAllowed⟩
  | true =>
      have notRequired : (!lexer.inFlow && lexer.columns.head? == some glyph.column) = false := by
        simp [hasRead.columns]
      let candidate : Candidate := ⟨lexer.count, false, glyph.index, glyph.line, glyph.column⟩
      let others := lexer.candidates.filter fun entry => entry.1 != lexer.depth
      refine ⟨{ lexer with candidates := (lexer.depth, candidate) :: others }, ?_, ?_, allowed, rfl,
        fun _ => ⟨others, by rw [hasRead.depth]⟩⟩
      · simp only [saveCandidate, allowed, if_true, hasRead.dropCandidate_eq, bind, Except.bind, pure,
          Except.pure, notRequired, candidate, others]
      · refine ⟨hasRead.tokens, hasRead.depth, hasRead.columns, ?_⟩
        intro entry member
        rcases List.mem_cons.mp member with rfl | earlier
        · rfl
        · exact hasRead.optional entry (List.mem_filter.mp earlier).1

end HasRead

/-- One token is taken, and fewer glyphs are left. -/
def Takes (before after : Lexer × List Glyph) : Prop :=
  ∃ ready, (before.2.head?.map before.1.dropStale).getD (.ok before.1) = .ok ready ∧
    ready.fetch before.2 = .ok (after.1, some after.2) ∧ after.2.length < before.2.length

theorem run_of_takes {before after : Lexer × List Glyph} (takes : Takes before after)
    (barrier : Fault) (missing bound : Nat) : ∃ settled,
      before.1.run barrier missing (bound + 1) before.2 =
        after.1.run barrier settled bound after.2 := by
  obtain ⟨ready, prepared, fetched, _⟩ := takes
  exact ⟨ready.unsettled, by simp only [run, prepared, fetched]⟩

theorem run_of_reaches {before after : Lexer × List Glyph}
    (reaches : Relation.ReflTransGen Takes before after) (barrier : Fault) (missing : Nat)
    {bound : Nat} (enough : before.2.length < bound) : ∃ settled left, after.2.length < left ∧
      before.1.run barrier missing bound before.2 = after.1.run barrier settled left after.2 := by
  induction reaches using Relation.ReflTransGen.head_induction_on generalizing missing bound with
  | refl => exact ⟨missing, bound, enough, rfl⟩
  | head takes _ ih =>
      cases bound with
      | zero => omega
      | succ bound =>
          obtain ⟨settled, ran⟩ := run_of_takes takes barrier missing bound
          obtain ⟨_, _, _, shorter⟩ := takes
          rw [ran]
          exact ih settled (by omega)

/-- The key that began at a candidate may end before a glyph. -/
def Candidate.Reaches (candidate : Candidate) (glyph : Glyph) : Prop :=
  candidate.line = glyph.line ∧ glyph.index - candidate.index ≤ keyReach

/-- The lexer before it takes the token that begins at a glyph. -/
structure Ready (lexer : Lexer) (glyphs : List Glyph) (glyph : Glyph) (rest : List Glyph)
    (tokens : List Token) (depth : Nat) (ready : Lexer) : Prop where
  hasRead : ready.HasRead tokens depth
  count : ready.count = lexer.count
  keyAllowed : depth ≠ 0 → ready.keyAllowed = lexer.keyAllowed
  keeps : ∀ candidate others, lexer.candidates = (depth, candidate) :: others →
    (∀ head ∈ glyphs.head?, Candidate.Reaches candidate head) → Candidate.Reaches candidate glyph →
      ∃ others, ready.candidates = (depth, candidate) :: others
  fetched : ∃ first, (glyphs.head?.map lexer.dropStale).getD (.ok lexer) = .ok first ∧
    first.fetch glyphs = (do
      if isEnd glyph.char then return (← ready.closeAll, none)
      let (after, remaining) ← ready.next glyph rest
      if remaining.isEmpty then throw .unfinished
      return (after, some remaining))
  fewer : rest.length < glyphs.length

theorem Ready.takes {lexer ready : Lexer} {glyphs rest : List Glyph} {glyph : Glyph}
    {tokens : List Token} {depth : Nat} (isReady : Ready lexer glyphs glyph rest tokens depth ready)
    (visible : isVisible glyph.char = true) {after : Lexer} {remaining : List Glyph}
    (stepped : ready.next glyph rest = .ok (after, remaining)) (some : remaining ≠ [])
    (shorter : remaining.length ≤ rest.length) : Takes (lexer, glyphs) (after, remaining) := by
  have notEnd : isEnd glyph.char = false := by
    simp only [isVisible, Bool.and_eq_true, Bool.not_eq_true'] at visible
    exact visible.2
  have notEmpty : remaining.isEmpty = false := by simpa using some
  obtain ⟨first, prepared, fetched⟩ := isReady.fetched
  refine ⟨first, prepared, ?_, Nat.lt_of_le_of_lt shorter isReady.fewer⟩
  rw [fetched]
  simp [notEnd, stepped, notEmpty, bind, Except.bind, pure, Except.pure]

theorem filter_reaching (depth : Nat) {candidate : Candidate} {glyph : Glyph}
    (reaches : Candidate.Reaches candidate glyph) (others : List (Nat × Candidate)) : ∃ left,
      (((depth, candidate) :: others).filter fun entry =>
        !(entry.2.line != glyph.line || keyReach < glyph.index - entry.2.index)) =
          (depth, candidate) :: left := by
  have near : ¬ keyReach < glyph.index - candidate.index := by
    have := reaches.2
    omega
  have kept : (!(candidate.line != glyph.line ||
      decide (keyReach < glyph.index - candidate.index))) = true := by
    simp [reaches.1, near]
  exact ⟨_, List.filter_cons_of_pos kept⟩

theorem HasRead.exists_ready {lexer : Lexer} {tokens : List Token} {depth : Nat}
    (hasRead : lexer.HasRead tokens depth) {glyphs rest : List Glyph} {glyph : Glyph}
    (skipped : (skipBlank false false glyphs).2 = glyph :: rest) :
    ∃ ready, Ready lexer glyphs glyph rest tokens depth ready := by
  cases glyphs with
  | nil => simp [skipBlank] at skipped
  | cons head tail =>
      obtain ⟨broken, read⟩ : ∃ broken, skipBlank false false (head :: tail) = (broken, glyph :: rest) :=
        ⟨_, Prod.ext rfl skipped⟩
      -- Old candidates are dropped twice: where the blanks begin, and where the token begins.
      let fresh (glyph : Glyph) (entry : Nat × Candidate) : Bool :=
        !(entry.2.line != glyph.line || decide (keyReach < glyph.index - entry.2.index))
      let first : Lexer := { lexer with candidates := lexer.candidates.filter (fresh head) }
      let opened : Lexer := if broken && !first.inFlow then { first with keyAllowed := true } else first
      have firstRead : first.HasRead tokens depth := hasRead.filtered (fresh head)
      have openedRead : opened.HasRead tokens depth := by
        simp only [opened]
        split
        · exact firstRead.allowing true
        · exact firstRead
      have openedCandidates : opened.candidates = first.candidates := by
        simp only [opened]
        split <;> rfl
      let ready : Lexer := { opened with candidates := opened.candidates.filter (fresh glyph) }
      have readyRead : ready.HasRead tokens depth := openedRead.filtered (fresh glyph)
      refine ⟨ready, readyRead, ?_, ?_, ?_, ⟨first, ?_, ?_⟩, ?_⟩
      · simp only [ready, opened]
        split <;> rfl
      · intro inside
        have inFlow : first.inFlow = true := by simpa [inFlow, firstRead.depth] using inside
        simp [ready, opened, inFlow, first]
      · intro candidate others held reachesHead reachesGlyph
        obtain ⟨left, kept⟩ := filter_reaching depth (reachesHead head rfl) others
        obtain ⟨last, keptAgain⟩ := filter_reaching depth reachesGlyph left
        refine ⟨last, ?_⟩
        simp only [ready, openedCandidates, first, held, fresh, kept, keptAgain]
      · simp [hasRead.dropStale_eq, first, fresh]
      · have closed : ready.closeBlocks (fun column => decide (column ≤ glyph.column)) = ready :=
          readyRead.closeBlocks_eq _
        have staled : opened.dropStale glyph = .ok ready := openedRead.dropStale_eq glyph
        simp only [fetch, read, bind, Except.bind]
        rw [staled]
        simp only [closed]
      · have longer := length_skipBlank false false (head :: tail)
        rw [read] at longer
        exact longer

inductive Bracket
  | square
  | curly

namespace Bracket

def opening : Bracket → Char
  | square => '['
  | curly => '{'

def closing : Bracket → Char
  | square => ']'
  | curly => '}'

def start : Bracket → Token
  | square => .flowSequenceStart
  | curly => .flowMappingStart

def stop : Bracket → Token
  | square => .flowSequenceEnd
  | curly => .flowMappingEnd

end Bracket

/-- Where a lexer stands, with the characters that are left to it. `keys` says that a key may begin. -/
structure Stands (state : Lexer × List Glyph) (tokens : List Token) (depth : Nat) (keys : Bool)
    (chars : List Char) : Prop where
  hasRead : state.1.HasRead tokens depth
  keys : keys = true → state.1.keyAllowed = true
  faces : Faces state.2 chars

namespace Stands

variable {state : Lexer × List Glyph} {tokens : List Token} {depth : Nat} {keys : Bool}
  {chars : List Char}

theorem skipAll {gap : List Char} (skipped : ∀ char ∈ gap, IsSkipped char)
    (stands : Stands state tokens depth keys (gap ++ chars)) : Stands state tokens depth keys chars :=
  ⟨stands.hasRead, stands.keys, stands.faces.skipAll skipped⟩

theorem exists_ready {char : Char} (visible : isVisible char = true)
    (stands : Stands state tokens depth keys (char :: chars)) : ∃ index line column ready,
      Ready state.1 state.2 ⟨char, index, line, column⟩
        (place (index + 1) line (nextColumn char column) chars) tokens depth ready := by
  obtain ⟨index, line, column, skipped⟩ := stands.faces.exists_glyphs visible
  obtain ⟨ready, isReady⟩ := stands.hasRead.exists_ready skipped
  exact ⟨index, line, column, ready, isReady⟩

theorem takes_mark {char : Char} (visible : isVisible char = true)
    (stands : Stands state tokens depth keys (char :: chars)) {token : Token} {inner : Nat}
    {allowed : Bool} (stepped : ∀ ready : Lexer, ready.HasRead tokens depth → ∀ index line column rest,
      ∃ after : Lexer, ready.next ⟨char, index, line, column⟩ rest = .ok (after, rest) ∧
        after.HasRead (tokens ++ [token]) inner ∧ after.keyAllowed = allowed) :
    ∃ after, Takes state after ∧ Stands after (tokens ++ [token]) inner allowed chars := by
  obtain ⟨index, line, column, ready, isReady⟩ := stands.exists_ready visible
  obtain ⟨after, next, hasRead, keyAllowed⟩ := stepped ready isReady.hasRead index line column
    (place (index + 1) line (nextColumn char column) chars)
  refine ⟨_, isReady.takes visible next (place_ne_nil _ _ _ _) (Nat.le_refl _), hasRead, ?_,
    faces_place _ _ _ _⟩
  exact fun isAllowed => keyAllowed.trans isAllowed

theorem takes_opening (bracket : Bracket)
    (stands : Stands state tokens depth keys (bracket.opening :: chars)) : ∃ after,
      Takes state after ∧ Stands after (tokens ++ [bracket.start]) (depth + 1) true chars := by
  refine stands.takes_mark (by cases bracket <;> rfl) ?_
  intro ready hasRead index line column rest
  obtain ⟨saved, isSaved, savedRead, _⟩ :=
    hasRead.saveCandidate_eq ⟨bracket.opening, index, line, column⟩
  refine ⟨_, ?_, ((savedRead.within (depth + 1)).allowing true).emit bracket.start, rfl⟩
  cases bracket
  all_goals
    simp only [Bracket.opening] at isSaved
    simp [next, Bracket.opening, Bracket.start, Glyph.startsMark_ne, startFlow, isSaved,
      savedRead.depth, emit, bind, Except.bind, pure, Except.pure]

theorem takes_closing (bracket : Bracket)
    (stands : Stands state tokens (depth + 1) keys (bracket.closing :: chars)) : ∃ after,
      Takes state after ∧ Stands after (tokens ++ [bracket.stop]) depth false chars := by
  refine stands.takes_mark (by cases bracket <;> rfl) ?_
  intro ready hasRead index line column rest
  have inFlow : ready.inFlow = true := by simp [inFlow, hasRead.depth]
  have dropped := hasRead.filtered fun entry => entry.1 != ready.depth
  refine ⟨_, ?_, ((dropped.within depth).allowing false).emit bracket.stop, rfl⟩
  cases bracket <;>
    simp [next, Bracket.closing, Bracket.stop, Glyph.startsMark_ne, endFlow, inFlow,
      hasRead.dropCandidate_eq, hasRead.depth, emit, bind, Except.bind, pure, Except.pure]

theorem reaches_behind_enclosed (bracket : Bracket) {inner : List Char} {inside : List Token}
    (body : ∀ opened, Stands opened (tokens ++ [bracket.start]) (depth + 1) true
        (inner ++ bracket.closing :: chars) → ∃ after, Relation.ReflTransGen Takes opened after ∧
      ∃ keys, Stands after (tokens ++ [bracket.start] ++ inside) (depth + 1) keys
        (bracket.closing :: chars))
    (stands : Stands state tokens depth keys
      (bracket.opening :: (inner ++ bracket.closing :: chars))) :
    ∃ after, Relation.ReflTransGen Takes state after ∧
      Stands after (tokens ++ bracket.start :: (inside ++ [bracket.stop])) depth false chars := by
  obtain ⟨opened, first, there⟩ := stands.takes_opening bracket
  obtain ⟨filled, reached, keys, behind⟩ := body opened there
  obtain ⟨closed, last, outside⟩ := behind.takes_closing bracket
  refine ⟨closed, ((Relation.ReflTransGen.single first).trans reached).tail last, ?_⟩
  simpa using outside

theorem takes_comma (stands : Stands state tokens depth keys (',' :: chars)) : ∃ after,
    Takes state after ∧ Stands after (tokens ++ [.flowEntry]) depth true chars := by
  refine stands.takes_mark (by decide) ?_
  intro ready hasRead index line column rest
  have allowed := hasRead.allowing true
  have dropped := allowed.filtered fun entry => entry.1 != ready.depth
  refine ⟨_, ?_, dropped.emit .flowEntry, rfl⟩
  simp [next, Glyph.startsMark_ne, flowEntry, allowed.dropCandidate_eq, bind, Except.bind, pure,
    Except.pure]

theorem next_quote {lexer saved : Lexer} {index line column : Nat} {glyphs rest : List Glyph}
    {content : Text} (isSaved : lexer.saveCandidate ⟨'"', index, line, column⟩ = .ok saved)
    (scanned : Quoted.scan true [] (.text .nothing) glyphs = .ok (content, rest)) :
    lexer.next ⟨'"', index, line, column⟩ glyphs =
      .ok ({ saved with keyAllowed := false }.emit (.scalar content false), rest) := by
  simp [next, Glyph.startsMark_ne, keyPart, isSaved, scanned, emit, Except.map, bind, Except.bind, pure,
    Except.pure]

theorem takes_quoted {rest : List Char} {content : Text} {length : Nat}
    (reads : Quoted.Reads chars rest content length)
    (stands : Stands state tokens depth keys ('"' :: chars)) : ∃ after,
      Takes state after ∧ Stands after (tokens ++ [.scalar content false]) depth false rest := by
  obtain ⟨index, line, column, ready, isReady⟩ := stands.exists_ready (by decide)
  obtain ⟨after, scanned, shorter⟩ := reads (index + 1) line (nextColumn '"' column) (by
    simp [nextColumn])
  obtain ⟨saved, isSaved, savedRead, _⟩ := isReady.hasRead.saveCandidate_eq ⟨'"', index, line, column⟩
  exact ⟨_, isReady.takes rfl (next_quote isSaved scanned) (place_ne_nil _ _ _ _) shorter,
    (savedRead.allowing false).emit _, fun _ => by contradiction, faces_place _ _ _ _⟩

theorem next_colon {lexer : Lexer} {before : List Token} {scalar : Token} (inFlow : depth ≠ 0)
    (hasRead : lexer.HasRead (before ++ [scalar]) depth) {candidate : Candidate}
    {others : List (Nat × Candidate)} (held : lexer.candidates = (depth, candidate) :: others)
    (last : lexer.count = candidate.token + 1) (glyph : Glyph) (isColon : glyph.char = ':')
    (rest : List Glyph) : ∃ after, lexer.next glyph rest = .ok (after, rest) ∧
      after.HasRead (before ++ [.key, scalar, .value]) depth := by
  obtain ⟨char, index, line, column⟩ := glyph
  subst isColon
  have isFlow : lexer.inFlow = true := by simpa [Lexer.inFlow, hasRead.depth] using inFlow
  have found : lexer.candidates.lookup lexer.depth = some candidate := by
    rw [held, hasRead.depth]
    simp
  have place : lexer.count - candidate.token = 1 := by omega
  have inserted : lexer.tokens.insertIdx 1 .key = scalar :: .key :: before.reverse := by
    rw [hasRead.tokens, List.reverse_append]
    rfl
  let after : Lexer := { lexer with
    tokens := .value :: scalar :: .key :: before.reverse
    count := lexer.count + 1 + 1
    keyAllowed := false
    candidates := lexer.candidates.filter fun entry => entry.1 != lexer.depth }
  have indicated : lexer.valueIndicator ⟨':', index, line, column⟩ = .ok after := by
    simp [valueIndicator, found, isFlow, Lexer.insert, place, inserted, emit, after, pure, Except.pure]
  have filtered := hasRead.filtered fun entry => entry.1 != lexer.depth
  refine ⟨after, ?_, by simp [after], filtered.depth, filtered.columns, filtered.optional⟩
  simp [next, Glyph.startsMark_ne, indicated, isFlow, bind, Except.bind, pure, Except.pure]

/-- A key in quotes and the colon after it, which stands on its line and not too far away. -/
theorem reaches_behind_key {rest : List Char} {spaces : Nat} {content : Text} {length : Nat}
    (inFlow : depth ≠ 0)
    (reads : Quoted.Reads chars (List.replicate spaces ' ' ++ ':' :: rest) content length)
    (near : length + 1 + spaces ≤ keyReach)
    (stands : Stands state tokens depth true ('"' :: chars)) : ∃ after,
      Relation.ReflTransGen Takes state after ∧
        Stands after (tokens ++ [.key, .scalar content false, .value]) depth false rest := by
  obtain ⟨index, line, column, ready, isReady⟩ := stands.exists_ready (by decide)
  obtain ⟨behind, scanned, shorter⟩ := reads (index + 1) line (nextColumn '"' column) (by
    simp [nextColumn])
  obtain ⟨saved, isSaved, savedRead, _, sameCount, isCandidate⟩ :=
    isReady.hasRead.saveCandidate_eq ⟨'"', index, line, column⟩
  obtain ⟨others, candidates⟩ := isCandidate ((isReady.keyAllowed inFlow).trans (stands.keys rfl))
  have first := isReady.takes rfl (next_quote isSaved scanned) (place_ne_nil _ _ _ _) shorter
  have scalarRead := (savedRead.allowing false).emit (.scalar content false)
  -- The quote was noted as the beginning of a key, and is near enough when the colon is met.
  obtain ⟨colonColumn, colon⟩ := skipBlank_spaces spaces (index + 1 + length) line behind rest
  obtain ⟨colonReady, isColonReady⟩ := scalarRead.exists_ready colon
  have headNear : ∀ head ∈ (place (index + 1 + length) line behind
      (List.replicate spaces ' ' ++ ':' :: rest)).head?,
        Candidate.Reaches ⟨ready.count, false, index, line, column⟩ head := by
    intro head isHead
    have placed : head.line = line ∧ head.index = index + 1 + length := by
      cases spaces with
      | zero =>
          rw [List.replicate_zero, List.nil_append, place_cons rfl] at isHead
          cases isHead
          exact ⟨rfl, rfl⟩
      | succ more =>
          rw [List.replicate_succ, List.cons_append, place_cons rfl] at isHead
          cases isHead
          exact ⟨rfl, rfl⟩
    refine ⟨placed.1.symm, ?_⟩
    rw [placed.2]
    simp only
    omega
  obtain ⟨left, held⟩ := isColonReady.keeps _ _ candidates headNear ⟨rfl, by simp only; omega⟩
  obtain ⟨after, next, hasRead⟩ := next_colon inFlow isColonReady.hasRead held
    (by rw [isColonReady.count, ← sameCount]; rfl)
    ⟨':', index + 1 + length + spaces, line, colonColumn⟩ rfl _
  have second := isColonReady.takes rfl next (place_ne_nil _ _ _ _) (Nat.le_refl _)
  exact ⟨_, (Relation.ReflTransGen.single first).tail second, hasRead, fun _ => by contradiction,
    faces_place _ _ _ _⟩

theorem next_word {lexer : Lexer} {glyph : Glyph} {rest : List Glyph}
    (begins : glyph.char.isAlphanum = true ∨
      (glyph.char = '-' ∧ (Glyph.peek rest).isAlphanum = true)) :
    lexer.next glyph rest = lexer.plainScalar glyph rest := by
  have apart {char other : Char} (isLetter : char.isAlphanum = true)
      (notLetter : other.isAlphanum = false) : char ≠ other := by
    rintro rfl
    rw [isLetter] at notLetter
    contradiction
  rcases begins with isLetter | ⟨isMinus, isLetter⟩
  · have different {other : Char} (notLetter : other.isAlphanum = false) : glyph.char ≠ other :=
      apart isLetter notLetter
    have noGap : isGap glyph.char = false := by
      simp (disch := decide) [isGap, isBlank, isLineEnd, isBreak, isEnd, different]
    have plain (next : Char) : lexer.beginsPlain glyph.char next = true := by
      simp (disch := decide) [beginsPlain, noGap, different]
    have noDash : glyph.char ≠ '-' := different (by decide)
    have noPoint : glyph.char ≠ '.' := different (by decide)
    simp (disch := decide) [next, Glyph.startsMark_ne noDash, Glyph.startsMark_ne noPoint, different,
      plain]
  · have noGap : isGap (Glyph.peek rest) = false := by
      have different {other : Char} (notLetter : other.isAlphanum = false) :
          Glyph.peek rest ≠ other := apart isLetter notLetter
      simp (disch := decide) [isGap, isBlank, isLineEnd, isBreak, isEnd, different]
    have noMark : Glyph.startsMark '-' (glyph :: rest) = false := by
      unfold Glyph.startsMark
      split
      next second third others same =>
        cases same
        have different : second.char ≠ '-' := apart isLetter (by decide)
        simp [different]
      next => rfl
    have noPoint : Glyph.startsMark '.' (glyph :: rest) = false :=
      Glyph.startsMark_ne (by simp [isMinus]) rest
    have plain : lexer.beginsPlain '-' (Glyph.peek rest) = true := by
      simp [beginsPlain, noGap]
    simp [next, noMark, noPoint, isMinus, noGap, plain]

theorem takes_word {word gap : List Char} {first : Char} {others : List Char} {delimiter : Char}
    (given : word = first :: others) (areWord : ∀ char ∈ word, isWordChar char = true)
    (begins : first.isAlphanum = true ∨
      (first = '-' ∧ ∃ second more, others = second :: more ∧ second.isAlphanum = true))
    (skipped : ∀ char ∈ gap, IsSkipped char) (isDelimiter : IsDelimiter delimiter) (inFlow : depth ≠ 0)
    (stands : Stands state tokens depth keys (word ++ (gap ++ delimiter :: chars))) : ∃ after,
      Takes state after ∧ Stands after (tokens ++ [.scalar (Text.ofChars word) true]) depth false
        (delimiter :: chars) := by
  subst given
  have visible := isVisible_of_isWordChar (areWord first List.mem_cons_self)
  have stays := fun char member => staysOnLine_of_isWordChar (areWord char member)
  obtain ⟨index, line, column, ready, isReady⟩ := stands.exists_ready visible
  obtain ⟨saved, isSaved, savedRead, _⟩ :=
    isReady.hasRead.saveCandidate_eq ⟨first, index, line, column⟩
  have savedFlow : saved.inFlow = true := by simpa [Lexer.inFlow, savedRead.depth] using inFlow
  obtain ⟨broken, start, row, last, scanned, shorter⟩ := Plain.scan_placed areWord skipped isDelimiter
    chars ((saved.columns.head?.map (· + 1)).getD 0) index line column
  rw [List.cons_append, place_cons (stays first List.mem_cons_self)] at scanned shorter
  have beginsHere : first.isAlphanum = true ∨ (first = '-' ∧ (Glyph.peek (place (index + 1) line
      (nextColumn first column) (others ++ (gap ++ delimiter :: chars)))).isAlphanum = true) := by
    refine begins.imp_right ?_
    rintro ⟨isMinus, second, more, rfl, isLetter⟩
    refine ⟨isMinus, ?_⟩
    rw [List.cons_append, place_cons (stays second (by simp))]
    exact isLetter
  have stepped : ready.next ⟨first, index, line, column⟩ (place (index + 1) line
      (nextColumn first column) (others ++ (gap ++ delimiter :: chars))) =
      .ok ({ saved with keyAllowed := broken }.emit (.scalar (Text.ofChars (first :: others)) true),
        place start row last (delimiter :: chars)) := by
    rw [next_word beginsHere, plainScalar, isSaved]
    simp only [bind, Except.bind, savedFlow, scanned]
    rfl
  exact ⟨_, isReady.takes visible stepped (place_ne_nil _ _ _ _) (Nat.le_of_lt_succ shorter),
    (savedRead.allowing broken).emit _, fun _ => by contradiction, faces_place _ _ _ _⟩

theorem run_at_end (stands : Stands state tokens 0 keys []) (barrier : Fault) (missing bound : Nat) :
    state.1.run barrier missing (bound + 1) state.2 = ⟨tokens, none⟩ := by
  obtain ⟨index, line, column, skipped⟩ := stands.faces
  have ended : (skipBlank false false (place index line column [])).2 =
      [⟨'\x00', index, line, column⟩] := rfl
  obtain ⟨ready, isReady⟩ := stands.hasRead.exists_ready (skipped.trans ended)
  obtain ⟨first, prepared, fetched⟩ := isReady.fetched
  have closed : ready.closeAll = .ok { ready with
      keyAllowed := false
      candidates := ready.candidates.filter fun entry => entry.1 != ready.depth } := by
    simp only [closeAll, isReady.hasRead.closeBlocks_eq, isReady.hasRead.dropCandidate_eq, bind,
      Except.bind, pure, Except.pure]
  have last : isEnd '\x00' = true := rfl
  rw [run, prepared]
  simp only [fetched, last, if_true, closed, bind, Except.bind, pure, Except.pure,
    isReady.hasRead.tokens, List.reverse_reverse]

end Stands

end Lexer

theorem head?_place {chars : List Char} (unmarked : chars.head? ≠ some '\uFEFF') :
    ∃ first rest, place 0 0 0 chars = first :: rest ∧ first.char ≠ '\uFEFF' := by
  unfold place
  split
  next => exact ⟨_, _, rfl, by decide⟩
  next => exact ⟨_, _, rfl, by decide⟩
  next char rest _ =>
    have notMark : char ≠ '\uFEFF' := by simpa using unmarked
    split
    · exact ⟨_, _, rfl, by decide⟩
    · split <;> exact ⟨_, _, rfl, notMark⟩

/-- What the lexer reaches at the end of a text are the tokens of the text. -/
theorem Source.tokens_eq {chars : List Char} (unmarked : chars.head? ≠ some '\uFEFF')
    {after : Lexer × List Glyph} {tokens : List Token} {keys : Bool}
    (reached : Relation.ReflTransGen Lexer.Takes ({}, place 0 0 0 chars) after)
    (stands : Lexer.Stands after tokens 0 keys []) :
    Source.tokens { chars } = ⟨tokens, none⟩ := by
  obtain ⟨first, rest, placed, notMark⟩ := head?_place unmarked
  have glyphs : Source.glyphs { chars } = place 0 0 0 chars := by
    simp [Source.glyphs, placed, notMark]
  obtain ⟨settled, left, enough, ran⟩ :=
    Lexer.run_of_reaches reached .token 0 (Nat.lt_succ_self (place 0 0 0 chars).length)
  cases left with
  | zero => omega
  | succ bound =>
      simp only [Source.tokens, glyphs, Option.getD_none]
      exact ran.trans (stands.run_at_end .token settled bound)

end ApiSurface.Yaml
