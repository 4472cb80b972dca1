import ApiSurface.Yaml.Encoding
import Mathlib.Data.Option.Basic
import Mathlib.Tactic.Common

/-! Characters are read again from the bytes that encode them. -/

namespace ApiSurface

namespace Text

/-- A text file of some characters. -/
def encoded (chars : List Char) : List UInt8 := chars.flatMap String.utf8EncodeChar

theorem charOf?_toNat (char : Char) : charOf? char.toNat = some char := by
  have valid : char.toNat.isValidChar := char.valid
  rw [charOf?, dif_pos valid]
  congr 1

theorem byte_toNat (number : Nat) (small : number < 256) : (UInt8.ofNat number).toNat = number := by
  simp [Nat.mod_eq_of_lt small]

theorem leadByte?_one (byte : Nat) (low : byte < 0x80) : leadByte? byte = some (byte, 0, 0) := by
  simp [leadByte?, low]

theorem leadByte?_two (low : Nat) (small : low < 32) :
    leadByte? (low + 192) = some (low, 1, 0x80) := by
  have notOne : ¬ low + 192 < 0x80 := by omega
  have isTwo : 0xC0 ≤ low + 192 ∧ low + 192 < 0xE0 := by omega
  simp only [leadByte?, if_neg notOne, if_pos isTwo, Nat.add_sub_cancel]

theorem leadByte?_three (low : Nat) (small : low < 16) :
    leadByte? (low + 224) = some (low, 2, 0x800) := by
  have notOne : ¬ low + 224 < 0x80 := by omega
  have notTwo : ¬ (0xC0 ≤ low + 224 ∧ low + 224 < 0xE0) := by omega
  have isThree : 0xE0 ≤ low + 224 ∧ low + 224 < 0xF0 := by omega
  simp only [leadByte?, if_neg notOne, if_neg notTwo, if_pos isThree, Nat.add_sub_cancel]

theorem leadByte?_four (low : Nat) (small : low < 8) :
    leadByte? (low + 240) = some (low, 3, 0x10000) := by
  have notOne : ¬ low + 240 < 0x80 := by omega
  have notTwo : ¬ (0xC0 ≤ low + 240 ∧ low + 240 < 0xE0) := by omega
  have notThree : ¬ (0xE0 ≤ low + 240 ∧ low + 240 < 0xF0) := by omega
  have isFour : 0xF0 ≤ low + 240 ∧ low + 240 < 0xF8 := by omega
  simp only [leadByte?, if_neg notOne, if_neg notTwo, if_neg notThree, if_pos isFour,
    Nat.add_sub_cancel]

theorem utf8Tail_inside {number left least low : Nat} (small : low < 64) (more : 0 < left)
    (rest : List UInt8) : utf8Tail number (left + 1) least (UInt8.ofNat (low + 128) :: rest) =
      utf8Tail (number * 64 + low) left least rest := by
  have isInside : 0x80 ≤ low + 128 ∧ low + 128 < 0xC0 := by omega
  have notLast : left ≠ 0 := by omega
  rw [utf8Tail, byte_toNat _ (by omega), if_pos isInside, if_neg notLast, Nat.add_sub_cancel]

theorem utf8Tail_last {number least low : Nat} (small : low < 64) {char : Char}
    (same : number * 64 + low = char.toNat) (enough : least ≤ char.toNat) :
    utf8Tail number 1 least [UInt8.ofNat (low + 128)] = some [char] := by
  have isInside : 0x80 ≤ low + 128 ∧ low + 128 < 0xC0 := by omega
  rw [utf8Tail, byte_toNat _ (by omega), if_pos isInside, if_pos rfl, Nat.add_sub_cancel]
  simp [same, enough, charOf?_toNat, utf8Tail, guard]

theorem utf8?_one {char : Char} (low : char.toNat < 0x80) :
    utf8? [UInt8.ofNat char.toNat] = some [char] := by
  rw [utf8?, utf8Tail, byte_toNat _ (by omega), leadByte?_one _ low]
  simp [charOf?_toNat, utf8Tail]

theorem utf8?_more {byte : UInt8} {rest : List UInt8} {number more least : Nat}
    (lead : leadByte? byte.toNat = some (number, more, least)) (inside : more ≠ 0) :
    utf8? (byte :: rest) = utf8Tail number more least rest := by
  rw [utf8?, utf8Tail, lead]
  simp [inside]

theorem followers_eq {byte number more least : Nat}
    (lead : leadByte? byte = some (number, more, least)) : followers byte = more := by
  simp [followers, lead]

theorem encoded_char (char : Char) : ∃ byte rest, String.utf8EncodeChar char = byte :: rest ∧
    followers byte.toNat = rest.length ∧ utf8? (byte :: rest) = some [char] := by
  have bound : char.toNat < 0x110000 := (CodePoint.ofChar char).isLt
  have bytes : String.utf8EncodeChar char =
      if char.toNat ≤ 127 then [UInt8.ofNat char.toNat]
      else if char.toNat ≤ 2047 then
        [UInt8.ofNat (char.toNat / 64 % 32 + 192), UInt8.ofNat (char.toNat % 64 + 128)]
      else if char.toNat ≤ 65535 then
        [UInt8.ofNat (char.toNat / 4096 % 16 + 224), UInt8.ofNat (char.toNat / 64 % 64 + 128),
          UInt8.ofNat (char.toNat % 64 + 128)]
      else
        [UInt8.ofNat (char.toNat / 262144 % 8 + 240), UInt8.ofNat (char.toNat / 4096 % 64 + 128),
          UInt8.ofNat (char.toNat / 64 % 64 + 128), UInt8.ofNat (char.toNat % 64 + 128)] := rfl
  rw [bytes]
  split
  next one =>
    have lead := leadByte?_one (UInt8.ofNat char.toNat).toNat (by rw [byte_toNat] <;> omega)
    exact ⟨_, _, rfl, followers_eq lead, utf8?_one (by omega)⟩
  next =>
    split
    next =>
      have lead := leadByte?_two (char.toNat / 64 % 32) (by omega)
      rw [← byte_toNat (_ + 192) (by omega)] at lead
      refine ⟨_, _, rfl, followers_eq lead, ?_⟩
      rw [utf8?_more lead (by decide)]
      exact utf8Tail_last (by omega) (by omega) (by omega)
    next =>
      split
      next =>
        have lead := leadByte?_three (char.toNat / 4096 % 16) (by omega)
        rw [← byte_toNat (_ + 224) (by omega)] at lead
        refine ⟨_, _, rfl, followers_eq lead, ?_⟩
        rw [utf8?_more lead (by decide), utf8Tail_inside (by omega) (by decide)]
        exact utf8Tail_last (by omega) (by omega) (by omega)
      next =>
        have lead := leadByte?_four (char.toNat / 262144 % 8) (by omega)
        rw [← byte_toNat (_ + 240) (by omega)] at lead
        refine ⟨_, _, rfl, followers_eq lead, ?_⟩
        rw [utf8?_more lead (by decide), utf8Tail_inside (by omega) (by decide),
          utf8Tail_inside (by omega) (by decide)]
        exact utf8Tail_last (by omega) (by omega) (by omega)

theorem encoded_cons (char : Char) (chars : List Char) :
    encoded (char :: chars) = String.utf8EncodeChar char ++ encoded chars := List.flatMap_cons

theorem takeChars_encoded (chars : List Char) (taken bound : Nat)
    (enough : (encoded chars).length ≤ bound) :
    utf8Prefix.takeChars taken bound (encoded chars) = (taken + (encoded chars).length, chars) := by
  induction chars generalizing taken bound with
  | nil => cases bound <;> rfl
  | cons char chars ih =>
      obtain ⟨byte, rest, bytes, follow, read⟩ := encoded_char char
      rw [encoded_cons, bytes] at enough ⊢
      simp only [List.cons_append, List.length_cons, List.length_append] at enough ⊢
      obtain ⟨bound, rfl⟩ : ∃ fewer, bound = fewer + 1 := ⟨bound - 1, by omega⟩
      have onwards := ih (taken + rest.length + 1) bound (by omega)
      simp only [utf8Prefix.takeChars, follow, List.take_left, List.drop_left, read, onwards]
      congr 1
      omega

theorem utf8Prefix_encoded (chars : List Char) :
    utf8Prefix (encoded chars) = ((encoded chars).length, chars) := by
  rw [utf8Prefix, takeChars_encoded chars 0 _ (Nat.le_refl _), Nat.zero_add]

theorem encoded_begins {chars : List Char} {byte : UInt8} {rest : List UInt8}
    (begins : encoded chars = byte :: rest) : (leadByte? byte.toNat).isSome = true := by
  cases chars with
  | nil => contradiction
  | cons char chars =>
      obtain ⟨lead, more, bytes, _, read⟩ := encoded_char char
      rw [encoded_cons, bytes] at begins
      cases begins
      cases found : leadByte? byte.toNat with
      | none => simp [utf8?, utf8Tail, found] at read
      | some _ => rfl

end Text

namespace Yaml

/-- Characters that may all occur are the document that their bytes hold. -/
theorem Source.ofBytes_encoded {chars : List Char} (allowed : ∀ char ∈ chars, isAllowed char = true) :
    Source.ofBytes (Text.encoded chars) = { chars } := by
  have allAllowed : chars.findIdx? (fun char => !isAllowed char) = none := by
    rw [List.findIdx?_eq_none_iff]
    intro char member
    simp [allowed char member]
  unfold ofBytes
  split
  next isMark => exact absurd (Text.encoded_begins isMark) (by decide)
  next isMark => exact absurd (Text.encoded_begins isMark) (by decide)
  next => simp [ofUtf8, Text.utf8Prefix_encoded, ofPieces, allAllowed]

end Yaml

end ApiSurface
