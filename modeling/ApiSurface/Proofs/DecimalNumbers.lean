import ApiSurface.Yaml.Number
import Mathlib.Algebra.Ring.Nat
import Mathlib.Data.Option.Basic

/-! Numbers in plain decimal digits: what YAML reads from them, and what signs do to them. -/

namespace ApiSurface

section Digits

variable {char : Char} {digits : List Char}

theorem ne_of_isDigit (isDigit : char.isDigit = true) {other : Char}
    (notDigit : other.isDigit = false) : char ≠ other := by
  rintro rfl
  rw [isDigit] at notDigit
  contradiction

theorem isDigit_bounds (isDigit : char.isDigit = true) : 48 ≤ char.toNat ∧ char.toNat ≤ 57 := by
  simpa [Char.isDigit, UInt32.le_iff_toNat_le] using isDigit

theorem digitIn?_ten (isDigit : char.isDigit = true) :
    Yaml.digitIn? 10 char = some (char.toNat - '0'.toNat) := by
  obtain ⟨lower, upper⟩ := isDigit_bounds isDigit
  have between : '0' ≤ char ∧ char ≤ '9' := by
    constructor <;> simpa [Char.le_def, UInt32.le_iff_toNat_le] using by assumption
  have small : char.toNat - 48 < 10 := by omega
  simp [Yaml.digitIn?, Digits.hexadecimalDigit?, between, guard, small]

theorem foldlM_digitIn? (areDigits : digits.all Char.isDigit = true) (start : Nat) :
    digits.foldlM (fun number char => (Yaml.digitIn? 10 char).map (10 * number + ·)) start =
      some (digits.foldl (fun number digit => 10 * number + (digit.toNat - '0'.toNat)) start) := by
  induction digits generalizing start with
  | nil => rfl
  | cons char rest ih =>
      simp only [List.all_cons, Bool.and_eq_true] at areDigits
      rw [List.foldlM_cons, digitIn?_ten areDigits.1, List.foldl_cons]
      exact ih areDigits.2 _

theorem foldl_decimal_lt (areDigits : digits.all Char.isDigit = true) {start bound : Nat}
    (below : start < bound) :
    digits.foldl (fun number digit => 10 * number + (digit.toNat - '0'.toNat)) start <
      bound * 10 ^ digits.length := by
  induction digits generalizing start bound with
  | nil => simpa using below
  | cons digit rest ih =>
      rw [List.all_cons, Bool.and_eq_true] at areDigits
      have bounds := isDigit_bounds areDigits.1
      have zero : '0'.toNat = 48 := rfl
      have next : 10 * start + (digit.toNat - '0'.toNat) < bound * 10 := by omega
      rw [List.foldl_cons, List.length_cons, Nat.pow_succ', ← Nat.mul_assoc]
      exact ih areDigits.2 next

theorem decimal_lt (areDigits : digits.all Char.isDigit = true) {length : Nat}
    (short : digits.length ≤ length) : Digits.decimal digits < Nat.pow 10 length := by
  have below := foldl_decimal_lt areDigits Nat.one_pos
  rw [Nat.one_mul] at below
  exact Nat.lt_of_lt_of_le below (Nat.pow_le_pow_right (Nat.succ_pos 9) short)

theorem toLower_digits (areDigits : digits.all Char.isDigit = true) :
    digits.map Char.toLower = digits := by
  have same (char : Char) (isDigit : char.isDigit = true) : char.toLower = char := by
    have below := (isDigit_bounds isDigit).2
    have notUpper : ¬ 'A'.val ≤ char.val := by
      rw [UInt32.le_iff_toNat_le]
      change ¬ 65 ≤ char.toNat
      omega
    exact dif_neg fun between => notUpper between.1
  induction digits with
  | nil => rfl
  | cons char rest ih =>
      rw [List.all_cons, Bool.and_eq_true] at areDigits
      rw [List.map_cons, same char areDigits.1, ih areDigits.2]

end Digits

namespace Text

theorem toChars?_ofChars (chars : List Char) : toChars? (ofChars chars) = some chars := by
  have back (char : Char) : (CodePoint.ofChar char).toChar? = some char := by
    have valid : char.toNat.isValidChar := char.valid
    rw [CodePoint.toChar?, CodePoint.ofChar, dif_pos valid]
    congr 1
  induction chars with
  | nil => rfl
  | cons char rest ih =>
      have restBack : (rest.map CodePoint.ofChar).mapM CodePoint.toChar? = some rest := ih
      simp [toChars?, ofChars, back, restBack]

end Text

namespace Binary64

theorem ofRatio_signed (negative : Bool) (numerator denominator : Nat) :
    (ofRatio true numerator denominator = (ofRatio false numerator denominator).negate) ∧
      ∀ payload, Yaml.withPayload payload (ofRatio negative numerator denominator) =
        ofRatio negative numerator denominator := by
  unfold ofRatio
  constructor
  · split
    · rfl
    · dsimp only
      split <;> split <;> rfl
  · intro payload
    split
    · rfl
    · dsimp only
      split <;> split <;> rfl

theorem ofDecimal_signed (negative : Bool) (digits : Nat) (exponent : Int) :
    (ofDecimal true digits exponent = (ofDecimal false digits exponent).negate) ∧
      ∀ payload, Yaml.withPayload payload (ofDecimal negative digits exponent) =
        ofDecimal negative digits exponent := by
  unfold ofDecimal
  dsimp only
  split
  · exact ⟨rfl, fun _ => rfl⟩
  · split
    · exact ⟨rfl, fun _ => rfl⟩
    · cases exponent with
      | ofNat up => exact ofRatio_signed negative _ _
      | negSucc down => exact ofRatio_signed negative _ _

end Binary64

namespace Yaml

theorem splitChars_of_not_mem {separator : Char} {chars : List Char} (none : separator ∉ chars) :
    splitChars separator chars = [chars] := by
  induction chars with
  | nil => rfl
  | cons char rest ih =>
      have different : ¬ char = separator := fun same => none (by simp [same])
      rw [splitChars, ih fun member => none (List.mem_cons_of_mem char member)]
      simp [different]

theorem trim_of_none {chars : List Char} (none : ∀ char ∈ chars, isSpaceChar char = false) :
    trim chars = chars := by
  have keep (chars : List Char) (none : ∀ char ∈ chars, isSpaceChar char = false) :
      chars.dropWhile isSpaceChar = chars := by
    cases chars with
    | nil => rfl
    | cons char rest => simp [none char List.mem_cons_self]
  rw [trim, keep chars none, keep chars.reverse (by simpa using none), List.reverse_reverse]

theorem spelled_of_ascii {chars : List Char} (ascii : ∀ char ∈ chars, char.toNat < 0x80)
    (noSpace : ∀ char ∈ chars, isSpaceChar char = false) : spelled chars = .ok chars := by
  have same : chars.mapM spelledChar? = some chars := by
    clear noSpace
    induction chars with
    | nil => rfl
    | cons char rest ih =>
        have first : spelledChar? char = some char := by
          simp [spelledChar?, ascii char List.mem_cons_self]
        simp [first, ih fun other member => ascii other (List.mem_cons_of_mem char member)]
  simp [spelled, same, trim_of_none noSpace]

theorem spelled_of_digits {digits : List Char} (areDigits : digits.all Char.isDigit = true) :
    spelled digits = .ok digits := by
  rw [List.all_eq_true] at areDigits
  apply spelled_of_ascii
  · intro char member
    have := isDigit_bounds (areDigits char member)
    omega
  · intro char member
    have apart {other : Char} (notDigit : other.isDigit = false) :=
      ne_of_isDigit (areDigits char member) notDigit
    simp [isSpaceChar, apart]

section Decimal

variable {digit : Char} {rest : List Char} (areDigits : (digit :: rest).all Char.isDigit = true)
  (notZero : digit ≠ '0')

include areDigits notZero

theorem integerIn_decimal (short : (digit :: rest).length ≤ Digits.most) :
    integerIn 10 (digit :: rest) = .ok (Digits.decimal (digit :: rest) : Int) := by
  have isDigit : digit.isDigit = true := List.all_eq_true.mp areDigits digit List.mem_cons_self
  have noMinus := ne_of_isDigit isDigit (by decide : '-'.isDigit = false)
  have noPlus := ne_of_isDigit isDigit (by decide : '+'.isDigit = false)
  have unsigned : dropSign (digit :: rest) = digit :: rest := by
    simp [dropSign, isSign, noMinus, noPlus]
  have unmarked : dropBaseMark 10 (digit :: rest) = digit :: rest := by
    unfold dropBaseMark
    split
    next same =>
      cases same
      contradiction
    next => rfl
  have notLong : decide (Digits.most < (digit :: rest).length) = false :=
    decide_eq_false (Nat.not_lt.mpr short)
  simp only [integerIn, spelled_of_digits areDigits, bind, Except.bind, unsigned, unmarked, notLong]
  simp [foldlM_digitIn? areDigits, noMinus, Digits.decimal, pure, Except.pure]

omit notZero in
theorem filter_digits : (digit :: rest).filter (· != '_') = digit :: rest := by
  rw [List.filter_eq_self]
  intro char member
  simpa using ne_of_isDigit (List.all_eq_true.mp areDigits char member)
    (by decide : '_'.isDigit = false)

omit notZero in
theorem contains_colon : (digit :: rest).contains ':' = false := by
  simp only [List.contains_eq_mem, decide_eq_false_iff_not]
  exact fun member => Bool.noConfusion (List.all_eq_true.mp areDigits ':' member)

theorem integerOf_decimal : integerOf (digit :: rest) = integerIn 10 (digit :: rest) := by
  have isDigit : digit.isDigit = true := List.all_eq_true.mp areDigits digit List.mem_cons_self
  have noMinus := ne_of_isDigit isDigit (by decide : '-'.isDigit = false)
  have noPlus := ne_of_isDigit isDigit (by decide : '+'.isDigit = false)
  have unsigned : isSign digit = false := by simp [isSign, noMinus, noPlus]
  have noColon := contains_colon areDigits
  simp only [integerOf, filter_digits areDigits, unsigned, Bool.false_eq_true, if_false, noColon]
  split
  next => simp_all
  next => simp_all
  next => simp_all
  next => simp_all
  next => simp_all
  next =>
    have noMinus' : (digit == '-') = false := by simpa using noMinus
    simp only [noMinus', Bool.false_eq_true, if_false]
    exact bind_pure (m := Except Fault) _

theorem integerOf_minus : integerOf ('-' :: digit :: rest) =
    (integerIn 10 (digit :: rest)).map fun size => -size := by
  have filtered := filter_digits areDigits
  have noColon := contains_colon areDigits
  have all : ('-' :: digit :: rest).filter (· != '_') = '-' :: digit :: rest := by
    rw [List.filter_cons_of_pos (by decide), filtered]
  simp only [integerOf, all, isSign, beq_self_eq_true, Bool.or_true, if_true, noColon,
    Bool.false_eq_true, if_false]
  split
  next => simp_all
  next => simp_all
  next => simp_all
  next => simp_all
  next => simp_all
  next => cases integerIn 10 (digit :: rest) <;> rfl

end Decimal

end Yaml

end ApiSurface
