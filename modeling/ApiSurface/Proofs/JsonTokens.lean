import ApiSurface.Proofs.JsonScalars
import ApiSurface.Proofs.QuotedPieces
import ApiSurface.Proofs.Utf8

/-! The tokens of a text in a shared spelling are those of its document in brackets. -/

namespace ApiSurface

namespace Json

theorem Gap.isSkipped {gap : Gap} (shared : gap.Shared) :
    ∀ char ∈ gap.chars, Yaml.IsSkipped char := by
  intro char member
  obtain ⟨blank, inGap, rfl⟩ := List.mem_map.mp member
  cases blank with
  | tab => exact absurd inGap shared
  | space => simp [Yaml.IsSkipped, Blank.char]
  | lineFeed => simp [Yaml.IsSkipped, Blank.char]
  | carriageReturn => simp [Yaml.IsSkipped, Blank.char]

theorem SharedKey.spaces {key : List Piece} {afterKey : Gap} (shared : SharedKey key afterKey) :
    afterKey.chars = List.replicate afterKey.length ' ' := by
  rw [Gap.chars, List.eq_replicate_iff]
  refine ⟨List.length_map _, ?_⟩
  intro char member
  obtain ⟨blank, inGap, rfl⟩ := List.mem_map.mp member
  rw [shared.2.1 blank inGap]
  rfl

theorem Numeral.isWordChar (numeral : Numeral) :
    ∀ char ∈ numeral.chars, Yaml.isWordChar char = true := by
  intro char member
  rcases numeral.isNumeric char member with isDigit | mark
  · simp [Yaml.isWordChar, Char.isAlphanum, isDigit]
  · simp only [List.mem_cons, List.not_mem_nil, or_false] at mark
    rcases mark with rfl | rfl | rfl | rfl | rfl <;> rfl

open Yaml (IsSkipped IsDelimiter)
open Yaml.Lexer (Takes Stands)
open Relation (ReflTransGen)

section Tokens

variable {state : Yaml.Lexer × List Yaml.Glyph} {tokens : List Yaml.Token} {depth : Nat} {keys : Bool}
  {chars gap : List Char} {delimiter : Char}

theorem Numeral.spelled (numeral : Numeral) (skipped : ∀ char ∈ gap, IsSkipped char)
    (isDelimiter : IsDelimiter delimiter)
    (stands : Stands state tokens (depth + 1) keys (numeral.chars ++ (gap ++ delimiter :: chars))) :
    ∃ after, Takes state after ∧ Stands after (tokens ++ [.scalar (Text.ofChars numeral.chars) true])
      (depth + 1) false (delimiter :: chars) := by
  obtain ⟨first, rest, spelled⟩ := numeral.exists_chars
  have begins : first.isAlphanum = true ∨
      (first = '-' ∧ ∃ second more, rest = second :: more ∧ second.isAlphanum = true) := by
    rcases numeral.begins spelled with ⟨isMinus, _, isBody⟩ | ⟨isDigit, _, _⟩
    · obtain ⟨digit, others, _, isDigit, body⟩ := numeral.exists_body
      exact .inr ⟨isMinus, digit, _, isBody.trans body, by simp [Char.isAlphanum, isDigit]⟩
    · exact .inl (by simp [Char.isAlphanum, isDigit])
  exact stands.takes_word spelled numeral.isWordChar begins skipped isDelimiter (Nat.succ_ne_zero depth)

theorem Items.behindComma_flow (items : Items) (tokens : List Yaml.Token) :
    items.flow.behindComma tokens = .flowEntry :: tokens := by
  cases items <;> rfl

theorem Members.behindComma_flow (members : Members) (tokens : List Yaml.Token) :
    members.flow.behindComma tokens = .flowEntry :: tokens := by
  cases members <;> rfl

theorem key_named {before afterKey beforeValue : Gap} {key : List Piece} (beforeShared : before.Shared)
    (keyShared : SharedKey key afterKey) (valueShared : beforeValue.Shared)
    (stands : Stands state tokens (depth + 1) true (before.chars ++ (Piece.quoted key ++
      (afterKey.chars ++ ':' :: (beforeValue.chars ++ chars))))) : ∃ after,
      ReflTransGen Takes state after ∧
        Stands after (tokens ++ [.key, .scalar (Piece.content key) false, .value]) (depth + 1) false
          chars := by
  have reads := Piece.reads keyShared.1 (afterKey.chars ++ ':' :: (beforeValue.chars ++ chars))
  have near : (key.flatMap Piece.chars).length + 1 + 1 + afterKey.length ≤ Yaml.Lexer.keyReach := by
    have := keyShared.2.2
    simp only [Piece.quoted, List.length_cons, List.length_append] at this
    simpa using this
  have facing := stands.skipAll (Gap.isSkipped beforeShared)
  rw [Piece.quoted, List.cons_append, List.append_assoc] at facing
  rw [keyShared.spaces] at reads facing
  obtain ⟨after, reached, named⟩ := facing.reaches_behind_key (Nat.succ_ne_zero depth) reads near
  exact ⟨after, reached, named.skipAll (Gap.isSkipped valueShared)⟩

mutual

/-- A value inside brackets is split into the tokens of its tree. -/
theorem Writing.lexed (writing : Writing) (shared : writing.Shared)
    {state : Yaml.Lexer × List Yaml.Glyph} {tokens : List Yaml.Token} {depth : Nat} {keys : Bool}
    {gap chars : List Char} {delimiter : Char} (skipped : ∀ char ∈ gap, IsSkipped char)
    (isDelimiter : IsDelimiter delimiter)
    (stands : Stands state tokens (depth + 1) keys (writing.chars ++ (gap ++ delimiter :: chars))) :
    ∃ after, ReflTransGen Takes state after ∧
      Stands after (tokens ++ writing.flow.tokens) (depth + 1) false (delimiter :: chars) := by
  cases writing with
  | null =>
      obtain ⟨after, takes, there⟩ := stands.takes_word rfl (List.all_eq_true.mp rfl) (.inl rfl) skipped
        isDelimiter (Nat.succ_ne_zero depth)
      exact ⟨after, .single takes, there⟩
  | bool flag =>
      cases flag
      all_goals
        obtain ⟨after, takes, there⟩ := stands.takes_word rfl (List.all_eq_true.mp rfl) (.inl rfl) skipped
          isDelimiter (Nat.succ_ne_zero depth)
        exact ⟨after, .single takes, there⟩
  | number numeral =>
      obtain ⟨after, takes, there⟩ := numeral.spelled skipped isDelimiter stands
      exact ⟨after, .single takes, there⟩
  | text pieces =>
      simp only [Writing.chars, Piece.quoted, List.cons_append, List.append_assoc,
        List.nil_append] at stands
      obtain ⟨after, takes, there⟩ := stands.takes_quoted (Piece.reads shared _)
      exact ⟨after, .single takes, there.skipAll skipped⟩
  | emptyList inner =>
      simp only [Writing.chars, List.cons_append, List.append_assoc, List.nil_append] at stands
      obtain ⟨after, reached, there⟩ := stands.reaches_behind_enclosed .square fun opened inside =>
        ⟨opened, .refl, true, by simpa using inside.skipAll (Gap.isSkipped shared)⟩
      exact ⟨after, reached, there.skipAll skipped⟩
  | list items =>
      simp only [Writing.chars, List.cons_append, List.append_assoc, List.nil_append] at stands
      obtain ⟨after, reached, there⟩ := stands.reaches_behind_enclosed .square fun opened inside =>
        have ⟨after, reached, there⟩ := items.lexed shared inside
        ⟨after, reached, false, there⟩
      exact ⟨after, reached, there.skipAll skipped⟩
  | emptyMap inner =>
      simp only [Writing.chars, List.cons_append, List.append_assoc, List.nil_append] at stands
      obtain ⟨after, reached, there⟩ := stands.reaches_behind_enclosed .curly fun opened inside =>
        ⟨opened, .refl, true, by simpa using inside.skipAll (Gap.isSkipped shared)⟩
      exact ⟨after, reached, there.skipAll skipped⟩
  | map members =>
      simp only [Writing.chars, List.cons_append, List.append_assoc, List.nil_append] at stands
      obtain ⟨after, reached, there⟩ := stands.reaches_behind_enclosed .curly fun opened inside =>
        have ⟨after, reached, there⟩ := members.lexed shared inside
        ⟨after, reached, false, there⟩
      exact ⟨after, reached, there.skipAll skipped⟩

theorem Items.lexed (items : Items) (shared : items.Shared) {state : Yaml.Lexer × List Yaml.Glyph}
    {tokens : List Yaml.Token} {depth : Nat} {keys : Bool} {chars : List Char}
    (stands : Stands state tokens (depth + 1) keys (items.chars ++ ']' :: chars)) :
    ∃ after, ReflTransGen Takes state after ∧
      Stands after (tokens ++ items.flow.tokens) (depth + 1) false (']' :: chars) := by
  cases items with
  | last before item gap =>
      obtain ⟨beforeShared, itemShared, gapShared⟩ := shared
      simp only [Items.chars, List.append_assoc] at stands
      obtain ⟨after, reached, there⟩ := item.lexed itemShared (Gap.isSkipped gapShared)
        (by simp [IsDelimiter]) (stands.skipAll (Gap.isSkipped beforeShared))
      refine ⟨after, reached, ?_⟩
      simpa [Items.flow, Yaml.FlowItems.tokens, Yaml.FlowItems.behindComma] using there
  | more before item gap rest =>
      obtain ⟨beforeShared, itemShared, gapShared, restShared⟩ := shared
      simp only [Items.chars, List.append_assoc, List.cons_append] at stands
      obtain ⟨ended, reached, there⟩ := item.lexed itemShared (Gap.isSkipped gapShared)
        (by simp [IsDelimiter]) (stands.skipAll (Gap.isSkipped beforeShared))
      obtain ⟨next, comma, further⟩ := there.takes_comma
      obtain ⟨after, onwards, last⟩ := rest.lexed restShared further
      refine ⟨after, (reached.tail comma).trans onwards, ?_⟩
      simpa [Items.flow, Yaml.FlowItems.tokens, rest.behindComma_flow] using last

theorem Members.lexed (members : Members) (shared : members.Shared)
    {state : Yaml.Lexer × List Yaml.Glyph} {tokens : List Yaml.Token} {depth : Nat} {chars : List Char}
    (stands : Stands state tokens (depth + 1) true (members.chars ++ '}' :: chars)) :
    ∃ after, ReflTransGen Takes state after ∧
      Stands after (tokens ++ members.flow.tokens) (depth + 1) false ('}' :: chars) := by
  cases members with
  | last before key afterKey beforeValue value gap =>
      obtain ⟨beforeShared, keyShared, valueGapShared, valueShared, gapShared⟩ := shared
      simp only [Members.chars, List.append_assoc, List.cons_append] at stands
      obtain ⟨named, reached, there⟩ := key_named beforeShared keyShared valueGapShared stands
      obtain ⟨after, onwards, last⟩ := value.lexed valueShared (Gap.isSkipped gapShared)
        (by simp [IsDelimiter]) there
      refine ⟨after, reached.trans onwards, ?_⟩
      simpa [Members.flow, Yaml.FlowEntries.tokens, Yaml.FlowEntries.behindComma] using last
  | more before key afterKey beforeValue value gap rest =>
      obtain ⟨beforeShared, keyShared, valueGapShared, valueShared, gapShared, restShared⟩ := shared
      simp only [Members.chars, List.append_assoc, List.cons_append] at stands
      obtain ⟨named, reached, there⟩ := key_named beforeShared keyShared valueGapShared stands
      obtain ⟨ended, onwards, behind⟩ := value.lexed valueShared (Gap.isSkipped gapShared)
        (by simp [IsDelimiter]) there
      obtain ⟨next, comma, further⟩ := behind.takes_comma
      obtain ⟨after, restReached, last⟩ := rest.lexed restShared further
      refine ⟨after, ((reached.trans onwards).tail comma).trans restReached, ?_⟩
      simpa [Members.flow, Yaml.FlowEntries.tokens, rest.behindComma_flow] using last

end

end Tokens

section Allowed

theorem Gap.allowed (gap : Gap) : ∀ char ∈ gap.chars, Yaml.isAllowed char = true := by
  intro char member
  obtain ⟨blank, _, rfl⟩ := List.mem_map.mp member
  cases blank <;> rfl

theorem Piece.quoted_allowed {pieces : List Piece} (shared : ∀ piece ∈ pieces, piece.IsShared) :
    ∀ char ∈ Piece.quoted pieces, Yaml.isAllowed char = true := by
  intro char member
  simp only [Piece.quoted, List.mem_cons, List.mem_append, List.not_mem_nil, or_false] at member
  rcases member with rfl | inPieces | rfl
  · rfl
  · obtain ⟨piece, inPieces, inPiece⟩ := List.mem_flatMap.mp inPieces
    exact (piece.stays (shared piece inPieces) char inPiece).2
  · rfl

theorem Numeral.allowed (numeral : Numeral) :
    ∀ char ∈ numeral.chars, Yaml.isAllowed char = true := by
  intro char member
  apply isAllowed_of_isPrintable
  rcases numeral.isNumeric char member with isDigit | mark
  · have := isDigit_bounds isDigit
    simp only [isPrintable, Bool.and_eq_true, decide_eq_true_eq]
    omega
  · simp only [List.mem_cons, List.not_mem_nil, or_false] at mark
    rcases mark with rfl | rfl | rfl | rfl | rfl <;> rfl

mutual

theorem Writing.allowed (writing : Writing) (shared : writing.Shared) :
    ∀ char ∈ writing.chars, Yaml.isAllowed char = true := by
  have enclosed {opening closing : Char} {inner : List Char}
      (allowed : ∀ char ∈ inner, Yaml.isAllowed char = true) (opens : Yaml.isAllowed opening = true)
      (closes : Yaml.isAllowed closing = true) :
      ∀ char ∈ opening :: (inner ++ [closing]), Yaml.isAllowed char = true := by
    simp only [List.forall_mem_cons, List.forall_mem_append]
    exact ⟨opens, allowed, closes, List.forall_mem_nil _⟩
  cases writing with
  | null => exact List.all_eq_true.mp rfl
  | bool flag => cases flag <;> exact List.all_eq_true.mp rfl
  | number numeral => exact numeral.allowed
  | text pieces => exact Piece.quoted_allowed shared.1
  | emptyList gap => exact enclosed gap.allowed rfl rfl
  | list items => exact enclosed (items.allowed shared) rfl rfl
  | emptyMap gap => exact enclosed gap.allowed rfl rfl
  | map members => exact enclosed (members.allowed shared) rfl rfl

theorem Items.allowed (items : Items) (shared : items.Shared) :
    ∀ char ∈ items.chars, Yaml.isAllowed char = true := by
  cases items with
  | last before item gap =>
      simp only [Items.chars, List.forall_mem_append]
      exact ⟨before.allowed, item.allowed shared.2.1, gap.allowed⟩
  | more before item gap rest =>
      simp only [Items.chars, List.forall_mem_append, List.forall_mem_cons]
      exact ⟨before.allowed, item.allowed shared.2.1, gap.allowed, rfl, rest.allowed shared.2.2.2⟩

theorem Members.allowed (members : Members) (shared : members.Shared) :
    ∀ char ∈ members.chars, Yaml.isAllowed char = true := by
  cases members with
  | last before key afterKey beforeValue value gap =>
      obtain ⟨_, keyShared, _, valueShared, _⟩ := shared
      simp only [Members.chars, List.forall_mem_append, List.forall_mem_cons]
      exact ⟨before.allowed, Piece.quoted_allowed keyShared.1.1, afterKey.allowed, rfl,
        beforeValue.allowed, value.allowed valueShared, gap.allowed⟩
  | more before key afterKey beforeValue value gap rest =>
      obtain ⟨_, keyShared, _, valueShared, _, restShared⟩ := shared
      simp only [Members.chars, List.forall_mem_append, List.forall_mem_cons]
      exact ⟨before.allowed, Piece.quoted_allowed keyShared.1.1, afterKey.allowed, rfl,
        beforeValue.allowed, value.allowed valueShared, gap.allowed, rfl, rest.allowed restShared⟩

end

end Allowed

namespace Document

theorem allowed (document : Document) (shared : document.Shared) :
    ∀ char ∈ document.chars, Yaml.isAllowed char = true := by
  simp only [chars, List.forall_mem_append]
  exact ⟨document.before.allowed, document.writing.allowed shared.writing, document.after.allowed⟩

theorem unmarked (document : Document) {inner : List Char}
    (braced : document.writing.chars = '{' :: (inner ++ ['}'])) :
    document.chars.head? ≠ some '\uFEFF' := by
  rw [chars, braced]
  cases document.before with
  | nil => simp [Gap.chars]
  | cons blank rest => cases blank <;> simp [Gap.chars, Blank.char]

theorem tokens_eq (document : Document) (shared : document.Shared) {entries : Entries}
    (isMap : document.writing.value = .map entries) :
    Yaml.Source.tokens { chars := document.chars } = ⟨document.writing.flow.tokens, none⟩ := by
  -- Both kinds of maps stand in braces, whose inside is split by the lemmas above.
  obtain ⟨inner, inside, braced, tokens, body⟩ : ∃ inner inside,
      document.writing.chars = '{' :: (inner ++ ['}']) ∧
      document.writing.flow.tokens =
        Yaml.Lexer.Bracket.curly.start :: (inside ++ [Yaml.Lexer.Bracket.curly.stop]) ∧
      ∀ opened : Yaml.Lexer × List Yaml.Glyph,
        Stands opened [Yaml.Lexer.Bracket.curly.start] 1 true (inner ++ '}' :: document.after.chars) →
        ∃ after, ReflTransGen Takes opened after ∧ ∃ keys,
          Stands after (Yaml.Lexer.Bracket.curly.start :: inside) 1 keys
            ('}' :: document.after.chars) := by
    have writingShared := shared.writing
    cases writing : document.writing with
    | emptyMap gap =>
        rw [writing] at writingShared
        refine ⟨gap.chars, [], rfl, rfl, fun opened there => ⟨opened, .refl, true, ?_⟩⟩
        exact there.skipAll (Gap.isSkipped writingShared)
    | map members =>
        rw [writing] at writingShared
        refine ⟨members.chars, members.flow.tokens, rfl, rfl, fun opened there => ?_⟩
        obtain ⟨after, reached, behind⟩ := members.lexed writingShared there
        exact ⟨after, reached, false, behind⟩
    | number numeral =>
        simp only [writing, Writing.value, Numeral.value] at isMap
        split at isMap <;> contradiction
    | _ =>
        rw [writing] at isMap
        contradiction
  have start : Stands ({}, Yaml.place 0 0 0 document.chars) [] 0 true document.chars :=
    ⟨⟨rfl, rfl, rfl, fun _ member => by contradiction⟩, fun _ => rfl, Yaml.faces_place 0 0 0 _⟩
  have facing := start.skipAll (Gap.isSkipped shared.before)
  rw [braced, List.cons_append, List.append_assoc, List.singleton_append] at facing
  obtain ⟨after, reached, behind⟩ := facing.reaches_behind_enclosed .curly body
  rw [← List.append_nil document.after.chars] at behind
  have finished := behind.skipAll (Gap.isSkipped shared.after)
  rw [tokens]
  exact Yaml.Source.tokens_eq (document.unmarked braced) reached finished

/-- A map in a shared spelling is read as the value that it has. -/
theorem read_eq (document : Document) (shared : document.Shared) {entries : Entries}
    (isMap : document.writing.value = .map entries) :
    Yaml.readBytes (Text.encoded document.chars) = .ok (.map entries) := by
  rw [Yaml.readBytes, Yaml.Source.ofBytes_encoded (document.allowed shared),
    Yaml.read_of_tokens document.writing.flow shared.shallow (document.writing.sound shared.writing)
      (document.tokens_eq shared isMap), document.writing.flow_value, isMap]

end Document

end Json

end ApiSurface
