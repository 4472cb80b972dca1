import ApiSurface.Proofs.FlowLexing
import ApiSurface.Proofs.JsonText
import Mathlib.Data.List.Chain

/-! Texts in quotes: the pieces that both notations spell alike are read, one code point each. -/

namespace ApiSurface

namespace Yaml.Quoted

/-- Only blanks on one line are still pending. -/
def Pending.IsFlat : Pending → Prop
  | .lines .. => False
  | _ => True

theorem scan_text {reversed : Text} {pending : Pending} (flat : pending.IsFlat) {char : Char}
    (stays : staysOnLine char = true) (inner : isEnd char = false) (noQuote : char ≠ '"')
    (noEscape : char ≠ '\\') {index line column : Nat} (behind : column ≠ 0) (rest : List Glyph) :
    ∃ after held, Pending.IsFlat held ∧
      flush after held = CodePoint.ofChar char :: flush reversed pending ∧
      scan true reversed (.text pending) (⟨char, index, line, column⟩ :: rest) =
        scan true after (.text held) rest := by
  have noBreak : isBreak char = false := by
    simp only [staysOnLine, Bool.and_eq_true, Bool.not_eq_true'] at stays
    exact stays.1.1
  cases blank : isBlank char with
  | true =>
      cases pending with
      | nothing =>
          refine ⟨reversed, .blanks [char], trivial, rfl, ?_⟩
          rw [scan]
          simp [inner, behind, blank]
      | blanks earlier =>
          refine ⟨reversed, .blanks (char :: earlier), trivial, ?_, ?_⟩
          · simp [flush, Pending.text, Text.ofChars]
          · rw [scan]
            simp [inner, behind, blank]
      | lines first breaks => exact flat.elim
  | false =>
      refine ⟨CodePoint.ofChar char :: flush reversed pending, .nothing, trivial, rfl, ?_⟩
      rw [scan.eq_def]
      simp [inner, behind, blank, noBreak, noQuote, noEscape]

theorem scan_escape {reversed : Text} {pending : Pending} {index line column : Nat}
    (behind : column ≠ 0) (rest : List Glyph) :
    scan true reversed (.text pending) (⟨'\\', index, line, column⟩ :: rest) =
      scan true (flush reversed pending) .escape rest := by
  rw [scan.eq_def]
  simp [isEnd, behind, isBlank, isBreak]

theorem scan_closing {reversed : Text} {pending : Pending} {index line column : Nat}
    (behind : column ≠ 0) (rest : List Glyph) :
    scan true reversed (.text pending) (⟨'"', index, line, column⟩ :: rest) =
      .ok ((flush reversed pending).reverse, rest) := by
  rw [scan.eq_def]
  simp [isEnd, behind, isBlank, isBreak]

theorem escaped?_of_short {letter meaning : Char} (known : Json.escaped? letter = some meaning) :
    escaped? letter = some meaning := by
  unfold Json.escaped? at known
  split at known
  all_goals first
    | exact known
    | contradiction

theorem scan_hex {reversed : Text} {a b c d : Glyph} {point : CodePoint}
    (named : Digits.hexadecimal? [a.char, b.char, c.char, d.char] = some point.val)
    (rest : List Glyph) : scan true reversed (.hex 4 0) (a :: b :: c :: d :: rest) =
      scan true (point :: reversed) (.text .nothing) rest := by
  simp only [Digits.hexadecimal?, List.foldlM_cons, List.foldlM_nil, Option.bind_eq_bind,
    Option.bind_eq_some_iff, Option.map_eq_some_iff, Option.pure_def, Option.some.injEq] at named
  obtain ⟨_, ⟨first, isFirst, rfl⟩, _, ⟨second, isSecond, rfl⟩, _, ⟨third, isThird, rfl⟩, _,
    ⟨fourth, isFourth, rfl⟩, number⟩ := named
  have sum : ((first * 16 + second) * 16 + third) * 16 + fourth = point.val := by omega
  have pointed : codePoint (((first * 16 + second) * 16 + third) * 16 + fourth) = .ok point := by
    rw [sum, codePoint, CodePoint.ofNat?, dif_pos point.isLt]
  simp only [scan, isFirst, isSecond, isThird, isFourth]
  simp [pointed]

theorem scan_short {reversed : Text} {glyph : Glyph} {meaning : Char}
    (known : escaped? glyph.char = some meaning) (rest : List Glyph) :
    scan true reversed .escape (glyph :: rest) =
      scan true (CodePoint.ofChar meaning :: reversed) (.text .nothing) rest := by
  simp only [scan, known]

theorem scan_unit {reversed : Text} {mark : Glyph} (isUnit : mark.char = 'u') (rest : List Glyph) :
    scan true reversed .escape (mark :: rest) = scan true reversed (.hex 4 0) rest := by
  simp [scan, isUnit, escaped?, escapeWidth?]

end Yaml.Quoted

namespace Json

open Yaml (place staysOnLine)
open Yaml.Quoted (Pending)

def isPrintable (char : Char) : Bool := 0x20 ≤ char.toNat && char.toNat ≤ 0x7E

theorem staysOnLine_of_isPrintable {char : Char} (printable : isPrintable char = true) :
    staysOnLine char = true := by
  have apart {other : Char} (none : isPrintable other = false) : char ≠ other := by
    rintro rfl
    rw [printable] at none
    contradiction
  simp (disch := decide) [staysOnLine, Yaml.isBreak, apart]

theorem isAllowed_of_isPrintable {char : Char} (printable : isPrintable char = true) :
    Yaml.isAllowed char = true := by
  simp only [isPrintable, Bool.and_eq_true, decide_eq_true_eq] at printable
  simp [Yaml.isAllowed, printable]

theorem isPrintable_of_hexadecimal {char : Char} {digit : Nat}
    (isDigit : Digits.hexadecimalDigit? char = some digit) : isPrintable char = true := by
  have bounds {lower upper : Char} (between : lower ≤ char ∧ char ≤ upper)
      (low : 0x20 ≤ lower.toNat) (high : upper.toNat ≤ 0x7E) : isPrintable char = true := by
    have above : lower.toNat ≤ char.toNat := between.1
    have below : char.toNat ≤ upper.toNat := between.2
    simp only [isPrintable, Bool.and_eq_true, decide_eq_true_eq]
    omega
  unfold Digits.hexadecimalDigit? at isDigit
  split at isDigit
  next between => exact bounds between (by decide) (by decide)
  next =>
    split at isDigit
    next between => exact bounds between (by decide) (by decide)
    next =>
      split at isDigit
      next between => exact bounds between (by decide) (by decide)
      next => contradiction

namespace Piece

theorem isPrintable_of_escape {piece : Piece} (escape : ∀ char printable bare,
    piece ≠ .plain char printable bare) : ∀ char ∈ piece.chars, isPrintable char = true := by
  cases piece with
  | plain char printable bare => exact absurd rfl (escape char printable bare)
  | short letter meaning known =>
      have printable : isPrintable letter = true := by
        unfold escaped? at known
        split at known
        all_goals first
          | rfl
          | contradiction
      have mark : isPrintable '\\' = true := rfl
      simp [chars, printable, mark]
  | unit a b c d point named =>
      simp only [Digits.hexadecimal?, List.foldlM_cons, List.foldlM_nil, Option.bind_eq_bind,
        Option.bind_eq_some_iff, Option.map_eq_some_iff] at named
      obtain ⟨_, ⟨_, first, _⟩, _, ⟨_, second, _⟩, _, ⟨_, third, _⟩, _, ⟨_, fourth, _⟩, _⟩ := named
      have marks : isPrintable '\\' = true ∧ isPrintable 'u' = true := ⟨rfl, rfl⟩
      simp [chars, marks, isPrintable_of_hexadecimal first, isPrintable_of_hexadecimal second,
        isPrintable_of_hexadecimal third, isPrintable_of_hexadecimal fourth]

theorem stays (piece : Piece) (shared : piece.IsShared) :
    ∀ char ∈ piece.chars, staysOnLine char = true ∧ Yaml.isAllowed char = true := by
  by_cases escape : ∀ char printable bare, piece ≠ .plain char printable bare
  · intro char member
    have printable := isPrintable_of_escape escape char member
    exact ⟨staysOnLine_of_isPrintable printable, isAllowed_of_isPrintable printable⟩
  · simp only [ne_eq, not_forall, not_not] at escape
    obtain ⟨char, printable, bare, rfl⟩ := escape
    have noReturn : char ≠ '\r' := by
      rintro rfl
      exact absurd printable (by decide)
    simpa [chars, staysOnLine, shared.2.1, shared.2.2, noReturn] using shared.1

/-- One piece adds its code point to what was read. -/
theorem scan_piece (piece : Piece) (shared : piece.IsShared) {reversed : Text} {pending : Pending}
    (flat : pending.IsFlat) (index line : Nat) {column : Nat} (behind : column ≠ 0)
    (rest : List Char) : ∃ after held next, Pending.IsFlat held ∧ next ≠ 0 ∧
      Yaml.Quoted.flush after held = piece.point :: Yaml.Quoted.flush reversed pending ∧
      Yaml.Quoted.scan true reversed (.text pending)
          (place index line column (piece.chars ++ rest)) =
        Yaml.Quoted.scan true after (.text held)
          (place (index + piece.chars.length) line next rest) := by
  have stays := fun char member => (piece.stays shared char member).1
  have further (char : Char) : Yaml.nextColumn char column ≠ 0 := by
    unfold Yaml.nextColumn
    split <;> omega
  cases piece with
  | plain char printable bare =>
      have inner : Yaml.isEnd char = false := by
        simp only [Yaml.isEnd, beq_eq_false_iff_ne]
        rintro rfl
        exact absurd printable (by decide)
      have charStays := stays char (by simp [chars])
      obtain ⟨after, held, isFlat, flushed, scanned⟩ := Yaml.Quoted.scan_text flat charStays inner
        bare.1 bare.2 behind (place (index + 1) line (Yaml.nextColumn char column) rest)
      refine ⟨after, held, _, isFlat, further char, flushed, ?_⟩
      rw [chars, List.singleton_append, Yaml.place_cons charStays, scanned]
      rfl
  | short letter meaning known =>
      obtain ⟨glyphs, next, placed, same, notBefore⟩ := Yaml.place_line [letter]
        (fun char member => stays char (List.mem_cons_of_mem _ member)) (index + 1) line
        (Yaml.nextColumn '\\' column) rest
      obtain ⟨glyph, rfl, isLetter⟩ : ∃ glyph, glyphs = [glyph] ∧ glyph.char = letter := by
        simpa [List.map_eq_singleton_iff] using same
      have escaped := Yaml.Quoted.escaped?_of_short known
      rw [← isLetter] at escaped
      refine ⟨_, .nothing, next, trivial, ?_, rfl, ?_⟩
      · have := further '\\'
        omega
      · rw [chars, List.cons_append, Yaml.place_cons rfl, placed, Yaml.Quoted.scan_escape behind,
          List.singleton_append, Yaml.Quoted.scan_short escaped]
        rfl
  | unit a b c d point named =>
      obtain ⟨glyphs, next, placed, same, notBefore⟩ := Yaml.place_line ['u', a, b, c, d]
        (fun char member => stays char (List.mem_cons_of_mem _ member)) (index + 1) line
        (Yaml.nextColumn '\\' column) rest
      simp only [List.map_eq_cons_iff, List.map_eq_nil_iff] at same
      obtain ⟨mark, _, rfl, isUnit, first, _, rfl, rfl, second, _, rfl, rfl, third, _, rfl, rfl, fourth,
        _, rfl, rfl, rfl⟩ := same
      refine ⟨_, .nothing, next, trivial, ?_, rfl, ?_⟩
      · have := further '\\'
        omega
      · rw [chars, List.cons_append, Yaml.place_cons rfl, placed, Yaml.Quoted.scan_escape behind,
          List.cons_append, Yaml.Quoted.scan_unit isUnit]
        exact Yaml.Quoted.scan_hex named _

theorem scan_pieces (pieces : List Piece) (shared : ∀ piece ∈ pieces, piece.IsShared) (reversed : Text)
    (pending : Pending) (flat : pending.IsFlat) (index line : Nat) {column : Nat} (behind : column ≠ 0)
    (rest : List Char) : ∃ next,
      Yaml.Quoted.scan true reversed (.text pending)
          (place index line column (pieces.flatMap chars ++ '"' :: rest)) =
        .ok ((Yaml.Quoted.flush reversed pending).reverse ++ pieces.map point,
          place (index + ((pieces.flatMap chars).length + 1)) line next rest) := by
  -- What was read and the blanks still pending are general, since each piece alters them.
  induction pieces generalizing reversed pending index column with
  | nil =>
      refine ⟨Yaml.nextColumn '"' column, ?_⟩
      rw [List.flatMap_nil, List.nil_append, Yaml.place_cons rfl, Yaml.Quoted.scan_closing behind]
      simp
  | cons piece others ih =>
      obtain ⟨after, held, next, isFlat, further, flushed, scanned⟩ := piece.scan_piece
        (shared piece List.mem_cons_self) flat index line behind
        (others.flatMap chars ++ '"' :: rest)
      obtain ⟨last, onwards⟩ := ih (fun other member => shared other (List.mem_cons_of_mem piece member))
        after held isFlat (index + piece.chars.length) further
      refine ⟨last, ?_⟩
      rw [List.flatMap_cons, List.append_assoc, scanned, onwards, flushed]
      simp [Nat.add_assoc]

/-- Where no two escapes name one character, every piece is a code point of its own. -/
theorem content_eq {pieces : List Piece}
    (apart : pieces.IsChain fun first second => ¬ Joins first second) :
    content pieces = pieces.map point := by
  induction pieces with
  | nil => rfl
  | cons piece rest ih =>
      have restContent := ih apart.tail
      cases piece with
      | plain char printable bare => rw [content, restContent, List.map_cons]; simp
      | short letter meaning known => rw [content, restContent, List.map_cons]; simp
      | unit a b c d unit named =>
          rw [content, restContent, List.map_cons]
          cases rest with
          | nil => rfl
          | cons next others =>
              have notJoined := (List.isChain_cons_cons.mp apart).1
              simp only [Joins, point] at notJoined
              rw [List.map_cons, consUnit, if_neg]
              · rfl
              · intro joined
                exact notJoined ⟨⟨joined.1, joined.2.1⟩, joined.2.2⟩

theorem reads {pieces : List Piece} (shared : Piece.Shared pieces) (rest : List Char) :
    Yaml.Quoted.Reads (pieces.flatMap chars ++ '"' :: rest) rest (content pieces)
      ((pieces.flatMap chars).length + 1) := by
  intro index line column behind
  obtain ⟨next, scanned⟩ := scan_pieces pieces shared.1 [] .nothing trivial index line behind
    rest
  refine ⟨next, ?_, ?_⟩
  · rw [scanned, content_eq shared.2]
    rfl
  · have stays : ∀ char ∈ pieces.flatMap chars ++ ['"'], staysOnLine char = true := by
      intro char member
      rcases List.mem_append.mp member with inPieces | isQuote
      · obtain ⟨piece, inPieces, inPiece⟩ := List.mem_flatMap.mp inPieces
        exact (piece.stays (shared.1 piece inPieces) char inPiece).1
      · rw [List.mem_singleton.mp isQuote]
        rfl
    obtain ⟨glyphs, after, placed, _, _⟩ := Yaml.place_line _ stays index line column rest
    rw [List.append_assoc, List.singleton_append] at placed
    have sameLength := Yaml.length_place (index + ((pieces.flatMap chars).length + 1)) line next
      (index + (pieces.flatMap chars ++ ['"']).length) line after rest
    rw [placed, List.length_append, sameLength]
    omega

end Piece

end Json

end ApiSurface
