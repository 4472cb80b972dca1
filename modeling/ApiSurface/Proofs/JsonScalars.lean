import ApiSurface.Proofs.DecimalNumbers
import ApiSurface.Proofs.JsonText
import Mathlib.Data.List.TakeWhile

/-! Numbers and words in a shared spelling have the same value in both notations. -/

namespace ApiSurface

namespace Json

/-- The characters that numbers are written with. -/
def IsNumeric (char : Char) : Prop := char.isDigit = true ∨ char ∈ ['-', '+', '.', 'e', 'E']

theorem IsNumeric.ne {char : Char} (numeric : IsNumeric char) {other : Char}
    (notDigit : other.isDigit = false) (noMark : other ∉ ['-', '+', '.', 'e', 'E']) :
    char ≠ other := by
  rintro rfl
  rcases numeric with isDigit | mark
  · rw [isDigit] at notDigit
    contradiction
  · exact noMark mark

theorem IsNumeric.isAscii {char : Char} (numeric : IsNumeric char) : char.toNat < 0x80 := by
  rcases numeric with isDigit | mark
  · have := isDigit_bounds isDigit
    omega
  · simp only [List.mem_cons, List.not_mem_nil, or_false] at mark
    rcases mark with rfl | rfl | rfl | rfl | rfl <;> decide

theorem isNumeric_of_digits {digits : List Char} (areDigits : digits.all Char.isDigit = true) :
    ∀ char ∈ digits, IsNumeric char :=
  fun char member => .inl (List.all_eq_true.mp areDigits char member)

theorem Exponent.isNumeric (exponent : Exponent) : ∀ char ∈ exponent.chars, IsNumeric char := by
  have signs : ∀ char ∈ exponent.sign, IsNumeric char := by
    unfold sign
    split <;> simp [IsNumeric]
  have mark : IsNumeric (if exponent.upper then 'E' else 'e') := by
    split <;> simp [IsNumeric]
  intro char member
  simp only [chars, List.mem_cons, List.mem_append] at member
  rcases member with rfl | inSign | inDigits
  · exact mark
  · exact signs char inSign
  · exact isNumeric_of_digits exponent.are_digits char inDigits

theorem Exponent.dropSign_digits (exponent : Exponent) :
    Yaml.dropSign (exponent.sign ++ exponent.digits) = exponent.digits ∧
      ((exponent.sign ++ exponent.digits).head? = some '-' ↔ exponent.negative? = some true) := by
  have areDigits := exponent.are_digits
  cases digits : exponent.digits with
  | nil => exact absurd digits exponent.given
  | cons digit rest =>
      rw [digits, List.all_cons, Bool.and_eq_true] at areDigits
      -- A digit does not look like a sign, so that only a sign that is there is dropped.
      have noMinus := ne_of_isDigit areDigits.1 (by decide : '-'.isDigit = false)
      have noPlus := ne_of_isDigit areDigits.1 (by decide : '+'.isDigit = false)
      unfold sign
      split <;> simp_all [Yaml.dropSign, Yaml.isSign]

namespace Numeral

variable (numeral : Numeral)

def body : List Char :=
  numeral.whole ++ (numeral.fraction ++ numeral.exponent.elim [] Exponent.chars)

theorem exists_body : ∃ digit rest, numeral.whole = digit :: rest ∧ digit.isDigit = true ∧
    numeral.body = digit :: (rest ++ (numeral.fraction ++ numeral.exponent.elim [] Exponent.chars)) := by
  have areDigits := numeral.are_digits
  cases whole : numeral.whole with
  | nil => exact absurd whole numeral.given
  | cons digit rest =>
      rw [whole, List.all_cons, Bool.and_eq_true] at areDigits
      exact ⟨digit, rest, rfl, areDigits.1, by simp [body, whole]⟩

theorem isNumeric : ∀ char ∈ numeral.chars, IsNumeric char := by
  intro char member
  simp only [chars, List.mem_append] at member
  rcases member with inSign | inWhole | inFraction | inExponent
  · unfold sign at inSign
    split at inSign <;> simp_all [IsNumeric]
  · exact isNumeric_of_digits numeral.are_digits char inWhole
  · unfold fraction at inFraction
    split at inFraction
    · contradiction
    · rcases List.mem_cons.mp inFraction with rfl | inPlaces
      · simp [IsNumeric]
      · exact isNumeric_of_digits numeral.are_places char inPlaces
  · cases given : numeral.exponent with
    | none => simp [given] at inExponent
    | some exponent =>
        rw [given] at inExponent
        exact exponent.isNumeric char inExponent

theorem begins {first : Char} {rest : List Char} (chars : numeral.chars = first :: rest) :
    (first = '-' ∧ numeral.negative = true ∧ rest = numeral.body) ∨
      (first.isDigit = true ∧ numeral.negative = false ∧ first :: rest = numeral.body) := by
  obtain ⟨digit, others, _, isDigit, body⟩ := numeral.exists_body
  have parts : numeral.sign ++ numeral.body = first :: rest := chars
  cases negative : numeral.negative with
  | true =>
      simp only [sign, negative, if_true, List.singleton_append, List.cons.injEq] at parts
      exact .inl ⟨parts.1.symm, rfl, parts.2.symm⟩
  | false =>
      simp only [sign, negative, Bool.false_eq_true, if_false, List.nil_append] at parts
      rw [parts] at body
      cases body
      exact .inr ⟨isDigit, rfl, parts.symm⟩

theorem exists_chars : ∃ first rest, numeral.chars = first :: rest := by
  obtain ⟨digit, others, _, _, body⟩ := numeral.exists_body
  have parts : numeral.chars = numeral.sign ++ numeral.body := rfl
  rw [parts, body]
  cases numeral.sign with
  | nil => exact ⟨_, _, rfl⟩
  | cons first rest => exact ⟨_, _, rfl⟩

theorem dropSign_body : Yaml.dropSign numeral.body = numeral.body := by
  obtain ⟨digit, others, _, isDigit, body⟩ := numeral.exists_body
  have plus := ne_of_isDigit isDigit (by decide : '+'.isDigit = false)
  have minus := ne_of_isDigit isDigit (by decide : '-'.isDigit = false)
  simp [body, Yaml.dropSign, Yaml.isSign, plus, minus]

theorem dropSign_chars : Yaml.dropSign numeral.chars = numeral.body := by
  obtain ⟨first, rest, chars⟩ := numeral.exists_chars
  rw [chars]
  rcases numeral.begins chars with ⟨rfl, _, rfl⟩ | ⟨isDigit, _, same⟩
  · simp [Yaml.dropSign, Yaml.isSign]
  · rw [same, dropSign_body]

theorem not_word {words : List String} (letters : ∀ word ∈ words,
      (word.toList.head?.all fun first => !first.isDigit && first != '-') = true) :
    String.ofList numeral.chars ∉ words := by
  intro member
  obtain ⟨first, rest, chars⟩ := numeral.exists_chars
  have noNumber := letters _ member
  simp only [String.toList_ofList, chars, List.head?_cons, Option.all_some, Bool.and_eq_true,
    Bool.not_eq_true', bne_iff_ne] at noNumber
  rcases numeral.begins chars with ⟨isMinus, _, _⟩ | ⟨isDigit, _, _⟩
  · exact noNumber.2 isMinus
  · rw [isDigit] at noNumber
    exact Bool.noConfusion noNumber.1

theorem withoutLineEnd_chars : Yaml.withoutLineEnd numeral.chars = numeral.chars := by
  have noBreak : numeral.chars.getLast? ≠ some '\n' := by
    intro last
    have numeric := numeral.isNumeric '\n' (List.mem_of_getLast? last)
    exact numeric.ne (by decide) (by decide) rfl
  simp [Yaml.withoutLineEnd, noBreak]

theorem not_flag : Yaml.Tag.flagWords.contains (String.ofList numeral.chars) = false := by
  have notWord : String.ofList numeral.chars ∉ Yaml.Tag.flagWords := numeral.not_word (by decide)
  simpa using notWord

theorem not_infinity : Yaml.isInfinity numeral.body = false := by
  obtain ⟨digit, others, _, isDigit, body⟩ := numeral.exists_body
  have noPoint := ne_of_isDigit isDigit (by decide : '.'.isDigit = false)
  simp [Yaml.isInfinity, body, noPoint]

theorem not_bare : ∀ digit rest, numeral.chars ≠ '.' :: digit :: rest := by
  intro digit rest chars
  rcases numeral.begins chars with ⟨isMinus, _, _⟩ | ⟨isDigit, _, _⟩
  · contradiction
  · contradiction

theorem isFloat_eq : Yaml.isFloat numeral.chars = Yaml.isPointed numeral.body := by
  have notNaN : Yaml.isNotANumber numeral.chars = false := by
    simp only [Yaml.isNotANumber, List.contains_eq_mem, List.mem_cons, List.not_mem_nil, or_false,
      decide_eq_false_iff_not, not_or]
    exact ⟨numeral.not_bare _ _, numeral.not_bare _ _, numeral.not_bare _ _⟩
  simp only [Yaml.isFloat, numeral.dropSign_chars, numeral.not_infinity, notNaN, Bool.or_false]
  split
  next bare => exact absurd bare (numeral.not_bare _ _)
  next => exact Bool.or_false _

section Whole

variable (isWhole : numeral.IsWhole)

include isWhole

theorem body_whole : numeral.body = numeral.whole := by
  simp [body, fraction, isWhole.1, isWhole.2]

theorem not_float : Yaml.isFloat numeral.chars = false := by
  have noPoint : ∀ char ∈ numeral.whole, (char != '.') = true := by
    intro char member
    have isDigit := List.all_eq_true.mp numeral.are_digits char member
    simpa using ne_of_isDigit isDigit (by decide : '.'.isDigit = false)
  rw [isFloat_eq, numeral.body_whole isWhole, Yaml.isPointed, List.dropWhile_eq_nil_iff.mpr noPoint]
  split
  next noRest => contradiction
  next => rfl

theorem isInteger_chars : Yaml.isInteger numeral.chars = true := by
  obtain ⟨digit, rest, whole, isDigit, _⟩ := numeral.exists_body
  have areDigits := numeral.are_digits
  rw [whole, List.all_cons, Bool.and_eq_true] at areDigits
  have noColon : ':' ∉ rest := fun member =>
    Bool.noConfusion (List.all_eq_true.mp areDigits.2 ':' member)
  have grouped : rest.all Yaml.isGroupedDigit = true := by
    rw [List.all_eq_true] at areDigits ⊢
    intro char member
    simp [Yaml.isGroupedDigit, areDigits.2 char member]
  rw [Yaml.isInteger, numeral.dropSign_chars, numeral.body_whole isWhole, whole]
  by_cases zero : digit = '0'
  · subst zero
    have alone := numeral.no_leading_zero (by simp [whole])
    rw [whole, List.cons.injEq] at alone
    rw [alone.2]
    rfl
  · split
    next same => simp_all
    next same => simp_all
    next same => simp_all
    next char others _ _ _ same =>
      cases same
      simp [isDigit, Yaml.splitChars_of_not_mem noColon, grouped]
    next same => contradiction

theorem tag_whole : Yaml.Tag.ofPlain (Text.ofChars numeral.chars) = .int := by
  rw [Yaml.Tag.ofPlain, Text.toChars?_ofChars]
  simp only [Yaml.Tag.ofWord, numeral.withoutLineEnd_chars, numeral.not_flag, numeral.not_float isWhole,
    numeral.isInteger_chars isWhole]
  rfl

theorem integerOf_chars (short : numeral.whole.length ≤ Digits.most) :
    Yaml.integerOf numeral.chars = .ok (if numeral.negative then -(Digits.decimal numeral.whole : Int)
      else Digits.decimal numeral.whole) := by
  obtain ⟨digit, others, whole, isDigit, _⟩ := numeral.exists_body
  have chars : numeral.chars = numeral.sign ++ numeral.whole := by
    rw [← numeral.body_whole isWhole]
    rfl
  by_cases zero : digit = '0'
  · subst zero
    have alone := numeral.no_leading_zero (by simp [whole])
    rw [chars, alone, sign]
    cases numeral.negative <;> rfl
  · have areDigits := numeral.are_digits
    rw [whole] at areDigits short
    have size := Yaml.integerIn_decimal areDigits zero short
    rw [chars, whole, sign]
    cases numeral.negative with
    | true =>
        simp only [if_true, List.singleton_append]
        rw [Yaml.integerOf_minus areDigits zero, size]
        rfl
    | false =>
        simp only [Bool.false_eq_true, if_false, List.nil_append]
        rw [Yaml.integerOf_decimal areDigits zero, size]

end Whole

section Pointed

variable (pointed : numeral.places ≠ [])

include pointed

theorem body_pointed : numeral.body =
    numeral.whole ++ '.' :: (numeral.places ++ numeral.exponent.elim [] Exponent.chars) := by
  simp [body, fraction, pointed]

theorem isFloat_chars (signed : ∀ exponent ∈ numeral.exponent, exponent.negative? ≠ none) :
    Yaml.isFloat numeral.chars = true := by
  obtain ⟨digit, rest, whole, isDigit, _⟩ := numeral.exists_body
  have noPoint : ∀ char ∈ numeral.whole, (char != '.') = true := by
    intro char member
    have isDigit := List.all_eq_true.mp numeral.are_digits char member
    simpa using ne_of_isDigit isDigit (by decide : '.'.isDigit = false)
  have noColon : ':' ∉ numeral.whole := fun member =>
    Bool.noConfusion (List.all_eq_true.mp numeral.are_digits ':' member)
  have grouped {digits : List Char} (areDigits : digits.all Char.isDigit = true) :
      ∀ char ∈ digits, Yaml.isGroupedDigit char = true := by
    intro char member
    simp [Yaml.isGroupedDigit, List.all_eq_true.mp areDigits char member]
  have exponent : Yaml.isExponent ((numeral.exponent.elim [] Exponent.chars).dropWhile
      Yaml.isGroupedDigit) = true := by
    cases given : numeral.exponent with
    | none => rfl
    | some exponent =>
        have marked : Yaml.isGroupedDigit (if exponent.upper then 'E' else 'e') = false := by
          split <;> rfl
        have notEmpty : exponent.digits.isEmpty = false := by
          simpa using exponent.given
        rw [Option.elim, Exponent.chars, List.dropWhile_cons_of_neg (by simp [marked]), Exponent.sign]
        cases sign : exponent.negative? with
        | none => exact absurd sign (signed exponent given)
        | some negative =>
            cases negative <;> cases exponent.upper <;>
              simp [Yaml.isExponent, Yaml.isSign, notEmpty, exponent.are_digits]
  have before : numeral.body.takeWhile (· != '.') = numeral.whole := by
    rw [numeral.body_pointed pointed, List.takeWhile_append_of_pos noPoint]
    simp
  have after : numeral.body.dropWhile (· != '.') =
      '.' :: (numeral.places ++ numeral.exponent.elim [] Exponent.chars) := by
    rw [numeral.body_pointed pointed, List.dropWhile_append_of_pos noPoint]
    simp
  have parts : (numeral.places ++ numeral.exponent.elim [] Exponent.chars).dropWhile
      Yaml.isGroupedDigit =
        (numeral.exponent.elim [] Exponent.chars).dropWhile Yaml.isGroupedDigit :=
    List.dropWhile_append_of_pos (grouped numeral.are_places)
  have all : numeral.whole.all Yaml.isGroupedDigit = true :=
    List.all_eq_true.mpr (grouped numeral.are_digits)
  have first : (numeral.whole.head?.map Char.isDigit).getD false = true := by simp [whole, isDigit]
  rw [isFloat_eq, Yaml.isPointed, before, after, Yaml.splitChars_of_not_mem noColon]
  simp [parts, exponent, all, first]

theorem tag_pointed (signed : ∀ exponent ∈ numeral.exponent, exponent.negative? ≠ none) :
    Yaml.Tag.ofPlain (Text.ofChars numeral.chars) = .float := by
  rw [Yaml.Tag.ofPlain, Text.toChars?_ofChars]
  simp only [Yaml.Tag.ofWord, numeral.withoutLineEnd_chars, numeral.not_flag,
    numeral.isFloat_chars pointed signed]
  rfl

end Pointed

/-- What stands behind the sign of a number with a point, in lower case. -/
def lowered : List Char :=
  numeral.whole ++ '.' :: (numeral.places ++
    numeral.exponent.elim [] fun exponent => 'e' :: (exponent.sign ++ exponent.digits))

theorem specialFloat?_of_digit {digit : Char} (isDigit : digit.isDigit = true) (rest : List Char) :
    Yaml.specialFloat? (digit :: rest) = none := by
  have apart {word : String} {first : Char} {others : List Char} (spelled : word.toList = first :: others)
      (notDigit : first.isDigit = false) : String.ofList (digit :: rest) ≠ word := by
    rintro rfl
    simp only [String.toList_ofList, List.cons.injEq] at spelled
    exact ne_of_isDigit isDigit notDigit spelled.1
  unfold Yaml.specialFloat?
  split
  next same => exact absurd same (apart rfl rfl)
  next same => exact absurd same (apart rfl rfl)
  next same => exact absurd same (apart rfl rfl)
  next => rfl

theorem decimal?_lowered : Yaml.decimal? numeral.lowered =
    some (Binary64.ofDecimal false (Digits.decimal (numeral.whole ++ numeral.places))
      (numeral.exponent.elim 0 Exponent.value - numeral.places.length)) := by
  have wholeDigits : ∀ char ∈ numeral.whole, char.isDigit = true :=
    List.all_eq_true.mp numeral.are_digits
  have placesDigits : ∀ char ∈ numeral.places, char.isDigit = true :=
    List.all_eq_true.mp numeral.are_places
  have whole : numeral.lowered.takeWhile Char.isDigit = numeral.whole := by
    rw [lowered, List.takeWhile_append_of_pos wholeDigits]
    simp
  have rest : numeral.lowered.dropWhile Char.isDigit = '.' :: (numeral.places ++
      numeral.exponent.elim [] fun exponent => 'e' :: (exponent.sign ++ exponent.digits)) := by
    rw [lowered, List.dropWhile_append_of_pos wholeDigits]
    simp
  rw [Yaml.decimal?]
  simp only [whole, rest]
  rw [List.takeWhile_append_of_pos placesDigits, List.dropWhile_append_of_pos placesDigits]
  cases given : numeral.exponent with
  | none => simp [numeral.given, guard]
  | some exponent =>
      have notEmpty : exponent.digits.isEmpty = false := by simpa using exponent.given
      obtain ⟨unsigned, minus⟩ := exponent.dropSign_digits
      simp [-List.head?_append, numeral.given, guard, unsigned, notEmpty, exponent.are_digits, minus,
        Exponent.value]

theorem isNumeric_lowered : ∀ char ∈ numeral.lowered, IsNumeric char := by
  intro char member
  simp only [lowered, List.mem_append, List.mem_cons] at member
  rcases member with inWhole | rfl | inPlaces | inExponent
  · exact isNumeric_of_digits numeral.are_digits char inWhole
  · simp [IsNumeric]
  · exact isNumeric_of_digits numeral.are_places char inPlaces
  · cases given : numeral.exponent with
    | none => simp [given] at inExponent
    | some exponent =>
        simp only [given, Option.elim_some, List.mem_cons] at inExponent
        rcases inExponent with rfl | inside
        · simp [IsNumeric]
        · exact exponent.isNumeric char (List.mem_cons_of_mem _ inside)

theorem exists_lowered : ∃ digit rest, numeral.lowered = digit :: rest ∧ digit.isDigit = true := by
  obtain ⟨digit, rest, whole, isDigit, _⟩ := numeral.exists_body
  exact ⟨digit, _, by rw [lowered, whole, List.cons_append], isDigit⟩

theorem floatIn_lowered : Yaml.floatIn numeral.lowered =
    .ok (Binary64.ofDecimal false (Digits.decimal (numeral.whole ++ numeral.places))
      (numeral.exponent.elim 0 Exponent.value - numeral.places.length)) := by
  obtain ⟨digit, rest, lowered, isDigit⟩ := numeral.exists_lowered
  have spelled : Yaml.spelled numeral.lowered = .ok numeral.lowered := by
    apply Yaml.spelled_of_ascii
    · exact fun char member => (numeral.isNumeric_lowered char member).isAscii
    · intro char member
      have numeric := numeral.isNumeric_lowered char member
      have apart {other : Char} (notDigit : other.isDigit = false)
          (noMark : other ∉ ['-', '+', '.', 'e', 'E']) := numeric.ne notDigit noMark
      simp [Yaml.isSpaceChar, apart]
  have number := numeral.decimal?_lowered
  have noMinus := ne_of_isDigit isDigit (by decide : '-'.isDigit = false)
  have noPlus := ne_of_isDigit isDigit (by decide : '+'.isDigit = false)
  rw [lowered] at spelled number ⊢
  simp [Yaml.floatIn, spelled, Yaml.dropSign, Yaml.isSign, noMinus, noPlus,
    specialFloat?_of_digit isDigit, number, bind, Except.bind, pure, Except.pure]

theorem map_toLower (pointed : numeral.places ≠ []) :
    numeral.chars.map Char.toLower = numeral.sign ++ numeral.lowered := by
  have sign : numeral.sign.map Char.toLower = numeral.sign := by
    unfold sign
    split <;> rfl
  have parts : numeral.chars = numeral.sign ++ numeral.body := rfl
  rw [parts, numeral.body_pointed pointed, lowered, List.map_append, sign, List.map_append,
    toLower_digits numeral.are_digits, List.map_cons, List.map_append,
    toLower_digits numeral.are_places]
  cases given : numeral.exponent with
  | none => rfl
  | some exponent =>
      have mark : (if exponent.upper then 'E' else 'e').toLower = 'e' := by split <;> rfl
      have sign : exponent.sign.map Char.toLower = exponent.sign := by
        unfold Exponent.sign
        split <;> rfl
      simp only [Option.elim_some, Exponent.chars, List.map_cons, mark, List.map_append, sign,
        toLower_digits exponent.are_digits]
      rfl

theorem floatOf_chars (pointed : numeral.places ≠ []) (payload : Nat) :
    Yaml.floatOf payload numeral.chars =
      .ok (Binary64.ofDecimal numeral.negative (Digits.decimal (numeral.whole ++ numeral.places))
        (numeral.exponent.elim 0 Exponent.value - numeral.places.length)) := by
  obtain ⟨digit, rest, lowered, isDigit⟩ := numeral.exists_lowered
  have noUnderscore : numeral.chars.filter (· != '_') = numeral.chars := by
    rw [List.filter_eq_self]
    intro char member
    simpa using (numeral.isNumeric char member).ne (by decide : '_'.isDigit = false) (by decide)
  have inLower := numeral.map_toLower pointed
  have noColon : numeral.lowered.contains ':' = false := by
    simp only [List.contains_eq_mem, decide_eq_false_iff_not]
    exact fun member => (numeral.isNumeric_lowered ':' member).ne (by decide) (by decide) rfl
  have number := numeral.floatIn_lowered
  have noMinus := ne_of_isDigit isDigit (by decide : '-'.isDigit = false)
  have noPlus := ne_of_isDigit isDigit (by decide : '+'.isDigit = false)
  have noPoint := ne_of_isDigit isDigit (by decide : '.'.isDigit = false)
  obtain ⟨minus, same⟩ := Binary64.ofDecimal_signed numeral.negative
    (Digits.decimal (numeral.whole ++ numeral.places))
    (numeral.exponent.elim 0 Exponent.value - numeral.places.length)
  have unsigned : Yaml.isSign digit = false := by simp [Yaml.isSign, noMinus, noPlus]
  have noNaN : (digit :: rest == ['.', 'n', 'a', 'n']) = false := by simp [noPoint]
  have noInfinity : (digit :: rest == ['.', 'i', 'n', 'f']) = false := by simp [noPoint]
  have positive : (digit == '-') = false := by simpa using noMinus
  rw [lowered] at noColon number inLower
  rw [Yaml.floatOf, noUnderscore, inLower, sign]
  cases negative : numeral.negative with
  | true =>
      rw [negative] at same
      simp only [if_true, List.singleton_append, show Yaml.isSign '-' = true from rfl, noNaN, noInfinity,
        noColon, Bool.false_eq_true, if_false, number, bind, Except.bind, beq_self_eq_true, ← minus,
        same]
      rfl
  | false =>
      rw [negative] at same
      simp only [Bool.false_eq_true, if_false, List.nil_append, unsigned, noNaN, noInfinity, noColon,
        number, bind, Except.bind, positive, same]
      rfl

/-- A shared number means the same in both notations. -/
theorem scalarValue_chars (shared : numeral.Shared) (id : Yaml.NodeId) :
    Yaml.scalarValue id (Yaml.Tag.ofPlain (Text.ofChars numeral.chars)) (Text.ofChars numeral.chars) =
      .ok numeral.value := by
  unfold Shared at shared
  by_cases isWhole : numeral.IsWhole
  · rw [if_pos isWhole] at shared
    rw [numeral.tag_whole isWhole, value, if_pos isWhole]
    simp [Yaml.scalarValue, Yaml.spelling, Text.toChars?_ofChars, numeral.integerOf_chars isWhole shared,
      bind, Except.bind, pure, Except.pure]
  · rw [if_neg isWhole] at shared
    rw [numeral.tag_pointed shared.1 shared.2, value, if_neg isWhole]
    simp [Yaml.scalarValue, Yaml.spelling, Text.toChars?_ofChars, numeral.floatOf_chars shared.1,
      bind, Except.bind, pure, Except.pure]

end Numeral

mutual

/-- Every scalar of a text in a shared spelling is read as the value that it has. -/
theorem Writing.sound (writing : Writing) (shared : writing.Shared) : writing.flow.Sound := by
  cases writing with
  | null => exact fun _ => rfl
  | bool flag =>
      cases flag with
      | false => exact fun _ => rfl
      | true => exact fun _ => rfl
  | number numeral => exact numeral.scalarValue_chars shared
  | text pieces => exact fun _ => rfl
  | emptyList gap => trivial
  | list items => exact items.sound shared
  | emptyMap gap => trivial
  | map members => exact members.sound shared

theorem Items.sound (items : Items) (shared : items.Shared) : items.flow.Sound := by
  cases items with
  | last before item after => exact ⟨item.sound shared.2.1, trivial⟩
  | more before item after rest =>
      exact ⟨item.sound shared.2.1, rest.sound shared.2.2.2⟩

theorem Members.sound (members : Members) (shared : members.Shared) : members.flow.Sound := by
  cases members with
  | last before key afterKey beforeValue value after =>
      exact ⟨value.sound shared.2.2.2.1, trivial⟩
  | more before key afterKey beforeValue value after rest =>
      exact ⟨value.sound shared.2.2.2.1, rest.sound shared.2.2.2.2.2⟩

end

end Json

end ApiSurface
