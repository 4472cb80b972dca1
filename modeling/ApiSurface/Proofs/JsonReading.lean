import ApiSurface.Proofs.JsonScalars

/-! The reader of JSON takes every spelling of a value for that value. -/

namespace ApiSurface.Json

/-- What is left does not go on with the word before it. -/
def Ends (rest : List Char) : Prop := ∀ char ∈ rest.head?, isWordChar char = false

theorem ends_cons {char : Char} {rest : List Char} (noWord : isWordChar char = false) :
    Ends (char :: rest) := by
  rintro _ ⟨⟩
  exact noWord

theorem ends_gap (gap : Gap) {rest : List Char} (ends : Ends rest) : Ends (gap.chars ++ rest) := by
  cases gap with
  | nil => exact ends
  | cons blank others => cases blank <;> exact ends_cons rfl

theorem tokens?_gap (gap : Gap) (rest : List Char) : tokens? (gap.chars ++ rest) = tokens? rest := by
  induction gap with
  | nil => rfl
  | cons blank others ih =>
      rw [← ih, Gap.chars, List.map_cons, List.cons_append, tokens?.eq_def]
      cases blank <;> simp [Blank.char, isSpace, Gap.chars]

theorem tokens?_word {first : Char} {others : List Char}
    (isWord : ∀ char ∈ first :: others, isWordChar char = true) {rest : List Char} (ends : Ends rest) :
    tokens? ((first :: others) ++ rest) = (tokens? rest).map (.word (first :: others) :: ·) := by
  obtain ⟨firstWord, othersWord⟩ := List.forall_mem_cons.mp isWord
  have apart {other : Char} (noWord : isWordChar other = false) : first ≠ other := by
    rintro rfl
    rw [firstWord] at noWord
    contradiction
  have noSpace : isSpace first = false := by
    simp only [isWordChar, Bool.and_eq_true, Bool.not_eq_true'] at firstWord
    exact firstWord.1
  have taken : (others ++ rest).takeWhile isWordChar = others := by
    rw [List.takeWhile_append_of_pos othersWord]
    cases rest with
    | nil => simp
    | cons next more => simp [ends next rfl]
  have dropped : (others ++ rest).dropWhile isWordChar = rest := by
    rw [List.dropWhile_append_of_pos othersWord]
    cases rest with
    | nil => rfl
    | cons next more => simp [ends next rfl]
  rw [List.cons_append, tokens?]
  · simp [noSpace, taken, dropped]
  all_goals exact apart (by decide)

namespace Piece

theorem textBody_pieces (pieces : List Piece) (rest : List Char) :
    textBody (pieces.flatMap chars ++ '"' :: rest) = some (content pieces, rest) := by
  induction pieces with
  | nil => rw [List.flatMap_nil, List.nil_append, textBody]; rfl
  | cons piece others ih =>
      rw [List.flatMap_cons, List.append_assoc]
      cases piece with
      | plain char printable bare =>
          have noControl : ¬ char.toNat < 0x20 := by omega
          rw [chars, List.singleton_append, textBody.eq_def]
          simp [bare, noControl, ih, content, point]
      | short letter meaning known =>
          have noUnit : letter ≠ 'u' := by
            rintro rfl
            contradiction
          simp only [chars, List.cons_append, List.nil_append]
          rw [textBody.eq_def]
          simp [noUnit, known, ih, content, point]
      | unit a b c d unit named =>
          simp only [chars, List.cons_append, List.nil_append]
          rw [textBody.eq_def]
          simp [named, CodePoint.ofNat?, unit.isLt, ih, content]

end Piece

mutual

def Writing.tokens : Writing → List Token
  | .null => [.word "null".toList]
  | .bool true => [.word "true".toList]
  | .bool false => [.word "false".toList]
  | .number numeral => [.word numeral.chars]
  | .text pieces => [.text (Piece.content pieces)]
  | .emptyList _ => [.openList, .closeList]
  | .list items => .openList :: (items.tokens ++ [.closeList])
  | .emptyMap _ => [.openMap, .closeMap]
  | .map members => .openMap :: (members.tokens ++ [.closeMap])

def Items.tokens : Items → List Token
  | .last _ item _ => item.tokens
  | .more _ item _ rest => item.tokens ++ .comma :: rest.tokens

def Members.tokens : Members → List Token
  | .last _ key _ _ value _ => .text (Piece.content key) :: .colon :: value.tokens
  | .more _ key _ _ value _ rest =>
    .text (Piece.content key) :: .colon :: (value.tokens ++ .comma :: rest.tokens)

end

theorem Numeral.isWord (numeral : Numeral) : ∀ char ∈ numeral.chars, isWordChar char = true := by
  intro char member
  have numeric := numeral.isNumeric char member
  simp (disch := decide) [isWordChar, isSpace, numeric.ne]

theorem tokens?_quoted (pieces : List Piece) (rest : List Char) :
    tokens? (Piece.quoted pieces ++ rest) = (tokens? rest).map (.text (Piece.content pieces) :: ·) := by
  rw [Piece.quoted, List.cons_append, List.append_assoc, tokens?]
  have read := Piece.textBody_pieces pieces rest
  split
  next none =>
    rw [List.singleton_append, read] at none
    contradiction
  next content remaining some =>
    rw [List.singleton_append, read] at some
    cases some
    rfl

mutual

/-- A value is split into its tokens, whatever stands behind it. -/
theorem Writing.tokens?_chars (writing : Writing) {rest : List Char} (ends : Ends rest) :
    tokens? (writing.chars ++ rest) = (tokens? rest).map (writing.tokens ++ ·) := by
  cases writing with
  | null => exact tokens?_word (List.all_eq_true.mp rfl) ends
  | bool flag => cases flag <;> exact tokens?_word (List.all_eq_true.mp rfl) ends
  | number numeral =>
      have isWord := numeral.isWord
      obtain ⟨first, others, chars⟩ := numeral.exists_chars
      simp only [Writing.chars, Writing.tokens, chars] at isWord ⊢
      exact tokens?_word isWord ends
  | text pieces => exact tokens?_quoted pieces rest
  | emptyList gap =>
      simp only [Writing.chars, List.cons_append, List.append_assoc, List.nil_append]
      simp [tokens?, tokens?_gap, Writing.tokens, Function.comp_def]
  | list items =>
      simp only [Writing.chars, List.cons_append, List.append_assoc, List.nil_append]
      rw [tokens?, items.tokens?_chars (ends_cons rfl), tokens?]
      simp [Writing.tokens, Function.comp_def]
  | emptyMap gap =>
      simp only [Writing.chars, List.cons_append, List.append_assoc, List.nil_append]
      simp [tokens?, tokens?_gap, Writing.tokens, Function.comp_def]
  | map members =>
      simp only [Writing.chars, List.cons_append, List.append_assoc, List.nil_append]
      rw [tokens?, members.tokens?_chars (ends_cons rfl), tokens?]
      simp [Writing.tokens, Function.comp_def]

theorem Items.tokens?_chars (items : Items) {rest : List Char} (ends : Ends rest) :
    tokens? (items.chars ++ rest) = (tokens? rest).map (items.tokens ++ ·) := by
  cases items with
  | last before item gap =>
      simp only [Items.chars, List.append_assoc]
      rw [tokens?_gap, item.tokens?_chars (ends_gap gap ends), tokens?_gap, Items.tokens]
  | more before item gap others =>
      simp only [Items.chars, List.append_assoc, List.cons_append]
      rw [tokens?_gap, item.tokens?_chars (ends_gap gap (ends_cons rfl)), tokens?_gap, tokens?,
        others.tokens?_chars ends]
      simp [Items.tokens, Function.comp_def]

theorem Members.tokens?_chars (members : Members) {rest : List Char} (ends : Ends rest) :
    tokens? (members.chars ++ rest) = (tokens? rest).map (members.tokens ++ ·) := by
  cases members with
  | last before key afterKey beforeValue value gap =>
      simp only [Members.chars, List.append_assoc, List.cons_append]
      rw [tokens?_gap, tokens?_quoted, tokens?_gap, tokens?, tokens?_gap,
        value.tokens?_chars (ends_gap gap ends), tokens?_gap]
      simp [Members.tokens, Function.comp_def]
  | more before key afterKey beforeValue value gap others =>
      simp only [Members.chars, List.append_assoc, List.cons_append]
      rw [tokens?_gap, tokens?_quoted, tokens?_gap, tokens?, tokens?_gap,
        value.tokens?_chars (ends_gap gap (ends_cons rfl)), tokens?_gap, tokens?,
        others.tokens?_chars ends]
      simp [Members.tokens, Function.comp_def]

end

theorem Exponent.unsigned_eq (exponent : Exponent) {spelled : List Char}
    (isSpelled : exponent.sign ++ exponent.digits = spelled) :
    (if spelled.head? = some '-' ∨ spelled.head? = some '+' then spelled.tail else spelled) =
      exponent.digits := by
  have areDigits := exponent.are_digits
  subst isSpelled
  cases digits : exponent.digits with
  | nil => exact absurd digits exponent.given
  | cons digit rest =>
      rw [digits, List.all_cons, Bool.and_eq_true] at areDigits
      have noMinus := ne_of_isDigit areDigits.1 (by decide : '-'.isDigit = false)
      have noPlus := ne_of_isDigit areDigits.1 (by decide : '+'.isDigit = false)
      unfold sign
      split <;> simp [noMinus, noPlus]

namespace Numeral

variable (numeral : Numeral)

theorem behindDigits : ∀ char ∈ (numeral.exponent.elim [] Exponent.chars).head?,
    char.isDigit = false ∧ char ≠ '.' := by
  cases numeral.exponent with
  | none => simp
  | some exponent =>
      rintro _ ⟨⟩
      split <;> decide

theorem whole_form : numeral.whole = ['0'] ∨ (numeral.whole ≠ [] ∧ numeral.whole.head? ≠ some '0') := by
  by_cases zero : numeral.whole.head? = some '0'
  · exact .inl (numeral.no_leading_zero zero)
  · exact .inr ⟨numeral.given, zero⟩

theorem takeWhile_body : numeral.body.takeWhile Char.isDigit = numeral.whole ∧
    numeral.body.dropWhile Char.isDigit =
      numeral.fraction ++ numeral.exponent.elim [] Exponent.chars := by
  have areDigits := List.all_eq_true.mp numeral.are_digits
  have behind : ∀ char ∈ (numeral.fraction ++ numeral.exponent.elim [] Exponent.chars).head?,
      char.isDigit = false := by
    unfold fraction
    split
    · exact fun char member => (numeral.behindDigits char member).1
    · rintro _ ⟨⟩
      rfl
  rw [body, List.takeWhile_append_of_pos areDigits, List.dropWhile_append_of_pos areDigits]
  cases rest : numeral.fraction ++ numeral.exponent.elim [] Exponent.chars with
  | nil => simp
  | cons next more => simp [behind next (by simp [rest])]

theorem takeWhile_places :
    (numeral.places ++ numeral.exponent.elim [] Exponent.chars).takeWhile Char.isDigit =
      numeral.places ∧
    (numeral.places ++ numeral.exponent.elim [] Exponent.chars).dropWhile Char.isDigit =
      numeral.exponent.elim [] Exponent.chars := by
  have areDigits := List.all_eq_true.mp numeral.are_places
  have behind := numeral.behindDigits
  rw [List.takeWhile_append_of_pos areDigits, List.dropWhile_append_of_pos areDigits]
  cases rest : numeral.exponent.elim [] Exponent.chars with
  | nil => simp
  | cons next more => simp [behind next (by simp [rest])]

theorem sign_chars : (numeral.chars.head? == some '-') = numeral.negative ∧
    (if numeral.negative then numeral.chars.drop 1 else numeral.chars) = numeral.body := by
  obtain ⟨first, rest, chars⟩ := numeral.exists_chars
  rw [chars]
  rcases numeral.begins chars with ⟨rfl, negative, body⟩ | ⟨isDigit, negative, body⟩
  · simp [negative, body]
  · have noMinus := ne_of_isDigit isDigit (by decide : '-'.isDigit = false)
    simp [negative, ← body, noMinus]

theorem number?_chars (short : numeral.IsWhole → numeral.whole.length ≤ Digits.most) :
    number? numeral.chars = some numeral.value := by
  unfold number?
  simp only [numeral.sign_chars, numeral.takeWhile_body]
  have wholeForm : (numeral.whole == ['0'] ||
      (!numeral.whole.isEmpty && numeral.whole.head? != some '0')) = true := by
    rcases numeral.whole_form with zero | ⟨given, notZero⟩
    · simp [zero]
    · simp [given, notZero]
  rw [wholeForm]
  -- With or without places, with or without an exponent: only the plainest form is an integer.
  by_cases pointed : numeral.places = []
  · simp only [fraction, pointed, if_true, List.nil_append]
    cases given : numeral.exponent with
    | none =>
        have isShort := short ⟨pointed, given⟩
        simp [pointed, value, IsWhole, given, guard, isShort]
    | some exponent =>
        have notWhole : ¬ numeral.IsWhole := by simp [IsWhole, given]
        have negative := exponent.dropSign_digits.2
        simp only [Option.elim_some, Exponent.chars]
        generalize spelled : exponent.sign ++ exponent.digits = rest at negative ⊢
        have unsigned := exponent.unsigned_eq spelled
        simp only [negative] at unsigned
        cases exponent.upper <;>
          simp [-List.all_eq_true, value, notWhole, pointed, given, Exponent.value, unsigned, negative,
            exponent.given, exponent.are_digits]
  · have notWhole : ¬ numeral.IsWhole := fun isWhole => pointed isWhole.1
    simp only [fraction, pointed, if_false, List.cons_append, numeral.takeWhile_places]
    cases given : numeral.exponent with
    | none => simp [pointed, value, notWhole, given]
    | some exponent =>
        have negative := exponent.dropSign_digits.2
        simp only [Option.elim_some, Exponent.chars]
        generalize spelled : exponent.sign ++ exponent.digits = rest at negative ⊢
        have unsigned := exponent.unsigned_eq spelled
        simp only [negative] at unsigned
        cases exponent.upper <;>
          simp [-List.all_eq_true, value, notWhole, pointed, given, Exponent.value, unsigned, negative,
            exponent.given, exponent.are_digits]

theorem word?_chars (short : numeral.IsWhole → numeral.whole.length ≤ Digits.most) :
    word? numeral.chars = some numeral.value := by
  rw [← numeral.number?_chars short]
  have notWord {word : String} {letter : Char} (inWord : letter ∈ word.toList)
      (notDigit : letter.isDigit = false) (noMark : letter ∉ ['-', '+', '.', 'e', 'E'])
      (same : String.ofList numeral.chars = word) : False := by
    subst same
    rw [String.toList_ofList] at inWord
    exact (numeral.isNumeric letter inWord).ne notDigit noMark rfl
  unfold word?
  split
  next same => exact (notWord (by decide : 'n' ∈ _) (by decide) (by decide) same).elim
  next same => exact (notWord (by decide : 't' ∈ _) (by decide) (by decide) same).elim
  next same => exact (notWord (by decide : 'f' ∈ _) (by decide) (by decide) same).elim
  next same => exact (notWord (by decide : 'N' ∈ _) (by decide) (by decide) same).elim
  next same => exact (notWord (by decide : 'I' ∈ _) (by decide) (by decide) same).elim
  next same => exact (notWord (by decide : 'I' ∈ _) (by decide) (by decide) same).elim
  next => rfl

end Numeral

mutual

/-- No integer is longer than the bound up to which integers are read. -/
def Writing.Short : Writing → Prop
  | .number numeral => numeral.IsWhole → numeral.whole.length ≤ Digits.most
  | .list items => items.Short
  | .map members => members.Short
  | _ => True

def Items.Short : Items → Prop
  | .last _ item _ => item.Short
  | .more _ item _ rest => item.Short ∧ rest.Short

def Members.Short : Members → Prop
  | .last _ _ _ _ value _ => value.Short
  | .more _ _ _ _ value _ rest => value.Short ∧ rest.Short

end

mutual

theorem Writing.short_of_shared (writing : Writing) (shared : writing.Shared) : writing.Short := by
  cases writing with
  | number numeral =>
      intro isWhole
      simpa [Writing.Shared, Numeral.Shared, isWhole] using shared
  | list items => exact items.short_of_shared shared
  | map members => exact members.short_of_shared shared
  | _ => trivial

theorem Items.short_of_shared (items : Items) (shared : items.Shared) : items.Short := by
  cases items with
  | last before item after => exact item.short_of_shared shared.2.1
  | more before item after rest =>
      exact ⟨item.short_of_shared shared.2.1, rest.short_of_shared shared.2.2.2⟩

theorem Members.short_of_shared (members : Members) (shared : members.Shared) : members.Short := by
  cases members with
  | last before key afterKey beforeValue value after =>
      exact value.short_of_shared shared.2.2.2.1
  | more before key afterKey beforeValue value after rest =>
      obtain ⟨_, _, _, valueShared, _, restShared⟩ := shared
      exact ⟨value.short_of_shared valueShared, rest.short_of_shared restShared⟩

end

def Token.Begins : Token → Prop
  | .openList | .openMap | .text _ | .word _ => True
  | _ => False

theorem Writing.exists_tokens (writing : Writing) :
    ∃ first others, writing.tokens = first :: others ∧ first.Begins := by
  cases writing with
  | bool flag => cases flag <;> exact ⟨_, _, rfl, trivial⟩
  | _ => exact ⟨_, _, rfl, trivial⟩

theorem Items.exists_tokens (items : Items) :
    ∃ first others, items.tokens = first :: others ∧ first.Begins := by
  cases items with
  | last before item after => exact item.exists_tokens
  | more before item after rest =>
      obtain ⟨first, others, tokens, begins⟩ := item.exists_tokens
      exact ⟨first, others ++ .comma :: rest.tokens, by simp [Items.tokens, tokens], begins⟩

theorem Writing.not_key (writing : Writing) {rest : List Token}
    (noColon : ∀ more, rest ≠ .colon :: more) (key : Text) (more : List Token) :
    writing.tokens ++ rest ≠ .text key :: .colon :: more := by
  intro same
  cases writing with
  | text pieces =>
      simp only [Writing.tokens, List.singleton_append, List.cons.injEq] at same
      exact noColon more same.2
  | bool flag => cases flag <;> cases same
  | _ => cases same

theorem Items.not_key (items : Items) {rest : List Token} (noColon : ∀ more, rest ≠ .colon :: more)
    (key : Text) (more : List Token) : items.tokens ++ rest ≠ .text key :: .colon :: more := by
  cases items with
  | last before item after => exact item.not_key noColon key more
  | more before item after others =>
      rw [Items.tokens, List.append_assoc]
      exact item.not_key (fun _ => by simp) key more

mutual

/-- A value is read from its tokens, inside whatever is open. -/
theorem Writing.value?_tokens (writing : Writing) (short : writing.Short) (frames : List Frame)
    (rest : List Token) :
    value? frames (writing.tokens ++ rest) = after? frames writing.value rest := by
  cases writing with
  | null => rfl
  | bool flag => cases flag <;> rfl
  | number numeral =>
      simp only [Writing.tokens, List.singleton_append, value?, numeral.word?_chars short]
      rfl
  | text pieces => rw [Writing.tokens, List.singleton_append, value?, Writing.value]
  | emptyList gap => rw [Writing.tokens, List.cons_append, List.singleton_append, value?, Writing.value]
  | list items =>
      rw [Writing.tokens, List.cons_append, List.append_assoc, List.singleton_append, value?]
      · exact items.value?_tokens short frames [] rest
      · obtain ⟨first, others, tokens, begins⟩ := items.exists_tokens
        intro more same
        rw [tokens] at same
        cases same
        exact begins
  | emptyMap gap => rw [Writing.tokens, List.cons_append, List.singleton_append, value?, Writing.value]
  | map members =>
      obtain ⟨key, tokens, spelled, read⟩ := members.value?_tokens short frames [] rest
      rw [Writing.tokens, List.cons_append, List.append_assoc, List.singleton_append, spelled, value?]
      exact read

theorem Items.value?_tokens (items : Items) (short : items.Short) (frames : List Frame)
    (done : List Value) (rest : List Token) :
    value? (.list done :: frames) (items.tokens ++ .closeList :: rest) =
      after? frames (.list (done.reverse ++ items.values)) rest := by
  cases items with
  | last before item after =>
      rw [Items.tokens, item.value?_tokens short, after?]
      simp [Items.values]
  | more before item after others =>
      rw [Items.tokens, List.append_assoc, List.cons_append, item.value?_tokens short.1, after?]
      · rw [others.value?_tokens short.2]
        simp [Items.values]
      · intro key more
        exact others.not_key (fun _ => by simp) key more

theorem Members.value?_tokens (members : Members) (short : members.Short) (frames : List Frame)
    (done : Entries) (rest : List Token) : ∃ key tokens,
      members.tokens ++ .closeMap :: rest = .text key :: .colon :: tokens ∧
        value? (.map done key :: frames) tokens =
          after? frames (.map (members.assigned done)) rest := by
  cases members with
  | last before key afterKey beforeValue value after =>
      refine ⟨Piece.content key, value.tokens ++ .closeMap :: rest, rfl, ?_⟩
      rw [value.value?_tokens short, after?, Members.assigned]
  | more before key afterKey beforeValue value after others =>
      obtain ⟨next, tokens, spelled, read⟩ :=
        others.value?_tokens short.2 frames (done.put (.text (Piece.content key)) value.value) rest
      refine ⟨Piece.content key, value.tokens ++ .comma :: (others.tokens ++ .closeMap :: rest),
        by simp [Members.tokens], ?_⟩
      rw [value.value?_tokens short.1, spelled, after?, read, Members.assigned]

end

/-- Every spelling of a value is read as that value, as long as its integers can be read. -/
theorem Document.parse?_chars (document : Document) (short : document.writing.Short) :
    parse? document.chars = some document.writing.value := by
  have ends : Ends document.after.chars := by
    rw [← List.append_nil document.after.chars]
    exact ends_gap document.after (by simp [Ends])
  have nothing : tokens? document.after.chars = some [] := by
    rw [← List.append_nil document.after.chars, tokens?_gap, tokens?]
  have read := document.writing.value?_tokens short [] []
  rw [parse?, chars, tokens?_gap, document.writing.tokens?_chars ends, nothing]
  exact read

end ApiSurface.Json
