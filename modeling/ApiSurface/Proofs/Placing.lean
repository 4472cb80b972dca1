import ApiSurface.Yaml.Token.Lexer
import Mathlib.Tactic.Common

/-! Where characters stand, which blanks are skipped between them, and where words end. -/

namespace ApiSurface.Yaml

open Lexer (skipBlank)

section Placing

variable {char : Char} {chars : List Char} {index line column : Nat}

/-- Characters after which the line goes on. -/
def staysOnLine (char : Char) : Bool := !isBreak char && char != '\r' && char != '\u0085'

theorem place_cons (stays : staysOnLine char = true) : place index line column (char :: chars) =
    ⟨char, index, line, column⟩ :: place (index + 1) line (nextColumn char column) chars := by
  simp only [staysOnLine, Bool.and_eq_true, Bool.not_eq_true', bne_iff_ne] at stays
  obtain ⟨⟨noBreak, noReturn⟩, noNextLine⟩ := stays
  rw [place]
  · simp [noBreak, noReturn, noNextLine]
  · rintro rest rfl
    exact absurd rfl noReturn

theorem skipBlank_broken (inComment broken : Bool) (glyphs : List Glyph) :
    (skipBlank inComment broken glyphs).2 = (skipBlank inComment false glyphs).2 := by
  induction glyphs generalizing inComment broken with
  | nil => rfl
  | cons glyph rest ih =>
      simp only [skipBlank]
      split
      · rfl
      · split
        · exact ih true broken
        · split
          · exact ih false broken
          · split
            · exact ih true broken
            · rfl

theorem length_skipBlank (inComment broken : Bool) (glyphs : List Glyph) :
    (skipBlank inComment broken glyphs).2.length ≤ glyphs.length := by
  induction glyphs generalizing inComment broken with
  | nil => simp [skipBlank]
  | cons glyph rest ih =>
      have skipped (inComment broken : Bool) :
          (skipBlank inComment broken rest).2.length ≤ (glyph :: rest).length :=
        Nat.le_succ_of_le (ih inComment broken)
      simp only [skipBlank]
      split
      · exact skipped false true
      · split
        · exact skipped true broken
        · split
          · exact skipped false broken
          · split
            · exact skipped true broken
            · exact Nat.le_refl _

/-- Blanks apart, the glyphs are those of some characters. -/
def Faces (glyphs : List Glyph) (chars : List Char) : Prop :=
  ∃ index line column, (skipBlank false false glyphs).2 =
    (skipBlank false false (place index line column chars)).2

theorem faces_place (index line column : Nat) (chars : List Char) :
    Faces (place index line column chars) chars := ⟨index, line, column, rfl⟩

/-- Blanks that are skipped between tokens. -/
def IsSkipped (char : Char) : Prop := char ∈ [' ', '\n', '\r']

theorem Faces.skip {glyphs : List Glyph} (skipped : IsSkipped char)
    (faces : Faces glyphs (char :: chars)) : Faces glyphs chars := by
  obtain ⟨index, line, column, same⟩ := faces
  simp only [IsSkipped, List.mem_cons, List.not_mem_nil, or_false] at skipped
  rcases skipped with rfl | rfl | rfl
  · refine ⟨index + 1, line, column + 1, same.trans ?_⟩
    rw [place_cons rfl]
    rfl
  · refine ⟨index + 1, line + 1, 0, same.trans ?_⟩
    exact skipBlank_broken false true _
  · by_cases feed : ∃ rest, chars = '\n' :: rest
    · obtain ⟨rest, rfl⟩ := feed
      exact ⟨index + 1, line, column, same⟩
    · refine ⟨index + 1, line + 1, 0, same.trans ?_⟩
      rw [place]
      · exact skipBlank_broken false true _
      · exact fun rest _ isFeed => feed ⟨rest, isFeed⟩

theorem Faces.skipAll {glyphs : List Glyph} {gap : List Char} (skipped : ∀ char ∈ gap, IsSkipped char)
    (faces : Faces glyphs (gap ++ chars)) : Faces glyphs chars := by
  induction gap with
  | nil => exact faces
  | cons char rest ih =>
      exact ih (fun other member => skipped other (List.mem_cons_of_mem char member))
        (faces.skip (skipped char List.mem_cons_self))

def isVisible (char : Char) : Bool :=
  staysOnLine char && char != ' ' && char != '#' && !isEnd char

theorem Faces.exists_glyphs {glyphs : List Glyph} (visible : isVisible char = true)
    (faces : Faces glyphs (char :: chars)) : ∃ index line column,
      (skipBlank false false glyphs).2 = ⟨char, index, line, column⟩ ::
        place (index + 1) line (nextColumn char column) chars := by
  obtain ⟨index, line, column, same⟩ := faces
  refine ⟨index, line, column, ?_⟩
  simp only [isVisible, Bool.and_eq_true, Bool.not_eq_true', bne_iff_ne] at visible
  obtain ⟨⟨⟨stays, noSpace⟩, noComment⟩, _⟩ := visible
  have noBreak : isBreak char = false := by
    simp only [staysOnLine, Bool.and_eq_true, Bool.not_eq_true'] at stays
    exact stays.1.1
  rw [same, place_cons stays, skipBlank]
  simp [noBreak, noSpace, noComment]

theorem skipBlank_spaces (spaces index line column : Nat) (chars : List Char) : ∃ after,
    (skipBlank false false (place index line column (List.replicate spaces ' ' ++ ':' :: chars))).2 =
      ⟨':', index + spaces, line, after⟩ ::
        place (index + spaces + 1) line (nextColumn ':' after) chars := by
  induction spaces generalizing index column with
  | zero => exact ⟨column, by rw [List.replicate_zero, List.nil_append, place_cons rfl]; rfl⟩
  | succ spaces ih =>
      obtain ⟨after, skipped⟩ := ih (index + 1) (nextColumn ' ' column)
      refine ⟨after, ?_⟩
      rw [List.replicate_succ, List.cons_append, place_cons rfl]
      rw [Nat.add_right_comm] at skipped
      exact skipped

theorem length_place (index line column index' line' column' : Nat) (chars : List Char) :
    (place index line column chars).length = (place index' line' column' chars).length := by
  fun_induction place index line column chars generalizing index' line' column' with
  | case1 => rfl
  | case2 index line column rest ih =>
      rw [place, List.length_cons, List.length_cons, ih]
  | case3 index line column char rest notFeed ends ih =>
      rw [place]
      · simp only [ends, if_true, List.length_cons]
        exact congrArg (· + 1) (ih _ _ _)
      · exact notFeed
  | case4 index line column char rest notFeed notEnds isBreak ih =>
      rw [place]
      · simp only [notEnds, isBreak, if_true, Bool.false_eq_true, if_false, List.length_cons]
        exact congrArg (· + 1) (ih _ _ _)
      · exact notFeed
  | case5 index line column char rest notFeed notEnds notBreak ih =>
      rw [place]
      · simp only [notEnds, notBreak, Bool.false_eq_true, if_false, List.length_cons]
        exact congrArg (· + 1) (ih _ _ _)
      · exact notFeed

theorem place_ne_nil (index line column : Nat) (chars : List Char) :
    place index line column chars ≠ [] := by
  unfold place
  split
  · simp
  · simp
  · split
    · simp
    · split <;> simp

end Placing

theorem Glyph.startsMark_ne {mark : Char} {glyph : Glyph} (different : glyph.char ≠ mark)
    (rest : List Glyph) : Glyph.startsMark mark (glyph :: rest) = false := by
  unfold Glyph.startsMark
  split
  next same =>
    cases same
    simp [different]
  next => rfl

theorem place_line (line : List Char) (stays : ∀ char ∈ line, staysOnLine char = true)
    (index row column : Nat) (chars : List Char) : ∃ glyphs after,
      place index row column (line ++ chars) =
          glyphs ++ place (index + line.length) row after chars ∧
        glyphs.map Glyph.char = line ∧ column ≤ after := by
  induction line generalizing index column with
  | nil => exact ⟨[], column, rfl, rfl, Nat.le_refl column⟩
  | cons char rest ih =>
      obtain ⟨glyphs, after, placed, same, further⟩ :=
        ih (fun other member => stays other (List.mem_cons_of_mem char member)) (index + 1)
          (nextColumn char column)
      have further' : column ≤ nextColumn char column := by
        unfold nextColumn
        split <;> omega
      refine ⟨⟨char, index, row, column⟩ :: glyphs, after, ?_, by simp [same], by omega⟩
      rw [List.cons_append, place_cons (stays char List.mem_cons_self), placed, List.cons_append,
        List.length_cons, Nat.add_right_comm, Nat.add_assoc]

/-- Blanks between tokens are spaces and line feeds once they are placed. -/
theorem place_gap (gap : List Char) (skipped : ∀ char ∈ gap, IsSkipped char) {first : Char}
    (visible : isVisible first = true) (index line column : Nat) (chars : List Char) :
    ∃ blanks start row after, place index line column (gap ++ first :: chars) =
        blanks ++ place start row after (first :: chars) ∧
      ∀ glyph ∈ blanks, glyph.char = ' ' ∨ glyph.char = '\n' := by
  match gap with
  | [] => exact ⟨[], index, line, column, rfl, by simp⟩
  | char :: more =>
      have restSkipped : ∀ char ∈ more, IsSkipped char :=
        fun other member => skipped other (List.mem_cons_of_mem char member)
      have isSkipped := skipped char List.mem_cons_self
      simp only [IsSkipped, List.mem_cons, List.not_mem_nil, or_false] at isSkipped
      rcases isSkipped with rfl | rfl | rfl
      · obtain ⟨blanks, start, row, after, placed, areBlank⟩ :=
          place_gap more restSkipped visible (index + 1) line (column + 1) chars
        refine ⟨⟨' ', index, line, column⟩ :: blanks, start, row, after, ?_, by simpa using areBlank⟩
        rw [List.cons_append, place_cons rfl]
        exact congrArg _ placed
      · obtain ⟨blanks, start, row, after, placed, areBlank⟩ :=
          place_gap more restSkipped visible (index + 1) (line + 1) 0 chars
        exact ⟨⟨'\n', index, line, column⟩ :: blanks, start, row, after, congrArg _ placed,
          by simpa using areBlank⟩
      · by_cases feed : ∃ rest, more = '\n' :: rest
        · obtain ⟨rest, rfl⟩ := feed
          obtain ⟨blanks, start, row, after, placed, areBlank⟩ := place_gap rest
            (fun other member => restSkipped other (List.mem_cons_of_mem _ member)) visible (index + 2)
            (line + 1) 0 chars
          exact ⟨⟨'\n', index, line, column⟩ :: blanks, start, row, after, congrArg _ placed,
            by simpa using areBlank⟩
        · obtain ⟨blanks, start, row, after, placed, areBlank⟩ :=
            place_gap more restSkipped visible (index + 1) (line + 1) 0 chars
          refine ⟨⟨'\n', index, line, column⟩ :: blanks, start, row, after, ?_,
            by simpa using areBlank⟩
          rw [List.cons_append, place]
          · exact congrArg _ placed
          · intro rest _ isFeed
            cases more with
            | nil =>
                cases isFeed
                contradiction
            | cons next others =>
                cases isFeed
                exact feed ⟨others, rfl⟩
termination_by gap.length

section Words

open Plain

def isWordChar (char : Char) : Bool :=
  char.isAlphanum || char == '-' || char == '+' || char == '.'

theorem ne_of_isWordChar {char other : Char} (isWord : isWordChar char = true)
    (notWord : isWordChar other = false) : char ≠ other := by
  rintro rfl
  rw [isWord] at notWord
  contradiction

theorem staysOnLine_of_isWordChar {char : Char} (isWord : isWordChar char = true) :
    staysOnLine char = true := by
  have apart {other : Char} (notWord : isWordChar other = false) := ne_of_isWordChar isWord notWord
  simp (disch := decide) [staysOnLine, isBreak, apart]

theorem isVisible_of_isWordChar {char : Char} (isWord : isWordChar char = true) :
    isVisible char = true := by
  have apart {other : Char} (notWord : isWordChar other = false) := ne_of_isWordChar isWord notWord
  simp (disch := decide) [isVisible, staysOnLine_of_isWordChar isWord, isEnd, apart]

/-- A character that ends a word inside brackets. -/
def IsDelimiter (char : Char) : Prop := char ∈ [',', ']', '}']

theorem IsDelimiter.cases {char : Char} (delimiter : IsDelimiter char) :
    char = ',' ∨ char = ']' ∨ char = '}' := by
  simpa [IsDelimiter] using delimiter

theorem IsDelimiter.isVisible {char : Char} (delimiter : IsDelimiter char) :
    isVisible char = true := by
  rcases delimiter.cases with rfl | rfl | rfl <;> rfl

theorem IsDelimiter.noBlank {char : Char} (delimiter : IsDelimiter char) :
    char ≠ ' ' ∧ isBreak char = false := by
  rcases delimiter.cases with rfl | rfl | rfl <;> decide

theorem IsDelimiter.endsWord_cons {glyph : Glyph} (delimiter : IsDelimiter glyph.char)
    (rest : List Glyph) : endsWord true (glyph :: rest) = true ∧ glyph.char ≠ '#' := by
  rcases delimiter.cases with isComma | isBracket | isBrace <;> simp [endsWord, *]

theorem word_append {glyphs rest : List Glyph}
    (areWord : ∀ glyph ∈ glyphs, isWordChar glyph.char = true) (ended : endsWord true rest = true) :
    word true (glyphs ++ rest) = (glyphs.map Glyph.char, rest) := by
  induction glyphs with
  | nil =>
      cases rest with
      | nil => rfl
      | cons glyph others => simp [word, ended]
  | cons glyph others ih =>
      have isWord := areWord glyph List.mem_cons_self
      have apart {other : Char} (notWord : isWordChar other = false) := ne_of_isWordChar isWord notWord
      have goesOn : endsWord true (glyph :: (others ++ rest)) = false := by
        simp (disch := decide) [endsWord, isGap, isBlank, isLineEnd, isBreak, isEnd, apart]
      rw [List.cons_append, word, goesOn,
        ih fun other member => areWord other (List.mem_cons_of_mem glyph member)]
      rfl

variable {blanks rest : List Glyph} (areBlank : ∀ glyph ∈ blanks, glyph.char = ' ' ∨ glyph.char = '\n')
  {glyph : Glyph} (delimiter : IsDelimiter glyph.char)

include areBlank delimiter

theorem startsDocumentMark_gap : Glyph.startsDocumentMark (blanks ++ glyph :: rest) = false := by
  have apart : ∀ first more, blanks ++ glyph :: rest = first :: more →
      first.char ≠ '-' ∧ first.char ≠ '.' := by
    intro first more same
    cases blanks with
    | nil =>
        cases same
        rcases delimiter.cases with isComma | isBracket | isBrace <;> simp [*]
    | cons blank others =>
        cases same
        rcases areBlank first List.mem_cons_self with isSpace | isFeed <;> simp [*]
  cases found : blanks ++ glyph :: rest with
  | nil => simp at found
  | cons first more =>
      obtain ⟨noDash, noPoint⟩ := apart first more found
      simp [Glyph.startsDocumentMark, Glyph.startsMark_ne noDash, Glyph.startsMark_ne noPoint]

theorem furtherBreaks_gap : ∃ breaks,
    furtherBreaks (blanks ++ glyph :: rest) = (some breaks, glyph :: rest) := by
  have noBlank := delimiter.noBlank
  induction blanks with
  | nil => exact ⟨[], by simp [furtherBreaks, noBlank]⟩
  | cons blank others ih =>
      have othersBlank : ∀ glyph ∈ others, glyph.char = ' ' ∨ glyph.char = '\n' :=
        fun other member => areBlank other (List.mem_cons_of_mem blank member)
      obtain ⟨breaks, further⟩ := ih othersBlank
      rcases areBlank blank List.mem_cons_self with isSpace | isFeed
      · exact ⟨breaks, by simp [furtherBreaks, isSpace, further]⟩
      · refine ⟨'\n' :: breaks, ?_⟩
        simp [furtherBreaks, isFeed, isBreak, startsDocumentMark_gap othersBlank delimiter, further]

theorem gap_remaining : (gap (blanks ++ glyph :: rest)).remaining = glyph :: rest := by
  have noBlank := delimiter.noBlank
  have stop : (glyph :: rest).dropWhile (·.char == ' ') = glyph :: rest := by simp [noBlank.1]
  unfold gap
  rw [List.dropWhile_append, stop]
  cases left : blanks.dropWhile (·.char == ' ') with
  | nil => simp [noBlank.2]
  | cons blank more =>
      have moreBlank : ∀ other ∈ blank :: more, other.char = ' ' ∨ other.char = '\n' :=
        fun other member => areBlank other ((List.dropWhile_sublist _).subset (left ▸ member))
      have further : ∀ other ∈ more, other.char = ' ' ∨ other.char = '\n' :=
        fun other member => moreBlank other (List.mem_cons_of_mem blank member)
      have isFeed : blank.char = '\n' := by
        have notSpace := List.head_dropWhile_not (fun glyph : Glyph => glyph.char == ' ') (l := blanks)
          (by simp [left])
        simp only [left, List.head_cons, beq_eq_false_iff_ne] at notSpace
        exact (moreBlank blank List.mem_cons_self).resolve_left notSpace
      obtain ⟨breaks, remaining⟩ : ∃ breaks, furtherBreaks (more ++ glyph :: rest) =
          (some breaks, glyph :: rest) := furtherBreaks_gap further delimiter
      simp [isFeed, isBreak, startsDocumentMark_gap further delimiter, remaining]

theorem endsWord_gap : endsWord true (blanks ++ glyph :: rest) = true := by
  cases blanks with
  | nil => exact (delimiter.endsWord_cons rest).1
  | cons blank others =>
      rcases areBlank blank List.mem_cons_self with isSpace | isFeed <;>
        simp [endsWord, isGap, isBlank, isLineEnd, isBreak, *]

omit areBlank in
theorem words_delimiter (indent bound : Nat) (before : List Char) (broken : Bool) :
    words true indent before broken bound (glyph :: rest) = ⟨[], broken, glyph :: rest⟩ := by
  obtain ⟨ended, noComment⟩ := delimiter.endsWord_cons rest
  cases bound with
  | zero => rfl
  | succ bound => simp [words, Glyph.peek, noComment, word, ended]

theorem scan_word {first : Glyph} {others : List Glyph}
    (areWord : ∀ glyph ∈ first :: others, isWordChar glyph.char = true) (indent : Nat) : ∃ broken,
      scan true indent ((first :: others) ++ (blanks ++ glyph :: rest)) =
        ⟨(first :: others).map Glyph.char, broken, glyph :: rest⟩ := by
  have noComment : first.char ≠ '#' :=
    ne_of_isWordChar (areWord first List.mem_cons_self) (by decide)
  have remaining : (gap (blanks ++ glyph :: rest)).remaining = glyph :: rest :=
    gap_remaining areBlank delimiter
  have ended : endsWord true (blanks ++ glyph :: rest) = true := endsWord_gap areBlank delimiter
  have wordRead := word_append areWord ended
  have notHere : (Glyph.peek (first :: others ++ (blanks ++ glyph :: rest)) == '#') = false := by
    simpa [Glyph.peek] using noComment
  have notNext : (Glyph.peek (glyph :: rest) == '#') = false := by
    simpa [Glyph.peek] using (delimiter.endsWord_cons rest).2
  -- The one word is taken in the first round; the second one stops at the delimiter.
  rw [scan, List.length_append, List.length_cons, Nat.succ_add, words, notHere, wordRead]
  simp only [Bool.false_eq_true, if_false, remaining, notNext, words_delimiter delimiter]
  refine ⟨(gap (blanks ++ glyph :: rest)).broken, ?_⟩
  rw [if_neg (by simp)]
  split <;> simp

end Words

section PlacedWords

variable {first delimiter : Char} {others gap : List Char}

/-- A word is read up to the delimiter behind it, wherever they stand. -/
theorem Plain.scan_placed (areWord : ∀ char ∈ first :: others, isWordChar char = true)
    (skipped : ∀ char ∈ gap, IsSkipped char) (isDelimiter : IsDelimiter delimiter)
    (chars : List Char) (indent index line column : Nat) : ∃ broken start row last,
      Plain.scan true indent
          (place index line column ((first :: others) ++ (gap ++ delimiter :: chars))) =
        ⟨first :: others, broken, place start row last (delimiter :: chars)⟩ ∧
      (place start row last (delimiter :: chars)).length <
        (place index line column ((first :: others) ++ (gap ++ delimiter :: chars))).length := by
  have stays := fun char member => staysOnLine_of_isWordChar (areWord char member)
  obtain ⟨glyphs, after, placed, same, _⟩ := place_line (first :: others) stays index line column
    (gap ++ delimiter :: chars)
  obtain ⟨blanks, start, row, last, gapPlaced, areBlank⟩ := place_gap gap skipped
    isDelimiter.isVisible (index + (first :: others).length) line after chars
  have visible := isDelimiter.isVisible
  simp only [isVisible, Bool.and_eq_true] at visible
  have left : place start row last (delimiter :: chars) = ⟨delimiter, start, row, last⟩ ::
      place (start + 1) row (nextColumn delimiter last) chars := place_cons visible.1.1.1
  obtain ⟨head, tail, rfl, rfl, rfl⟩ := List.map_eq_cons_iff.mp same
  have glyphsAreWord : ∀ glyph ∈ head :: tail, isWordChar glyph.char = true :=
    fun glyph member => areWord glyph.char (List.mem_map_of_mem member)
  have isDelimiterGlyph : IsDelimiter (Glyph.mk delimiter start row last).char := isDelimiter
  obtain ⟨broken, scanned⟩ := scan_word areBlank isDelimiterGlyph glyphsAreWord indent
  rw [placed, gapPlaced, left]
  refine ⟨broken, start, row, last, ?_, ?_⟩
  · rw [left]
    exact scanned
  · rw [left]
    simp only [List.length_append, List.length_cons]
    omega

end PlacedWords

end ApiSurface.Yaml
