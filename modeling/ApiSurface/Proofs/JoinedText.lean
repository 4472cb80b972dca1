import ApiSurface.Proofs.Wording

/-! Texts that are put together. A number is written with digits only, and parts that are joined can be
told apart again where none of them holds what stands between them. -/

namespace ApiSurface

theorem CodePoint.ofChar_injective : Function.Injective CodePoint.ofChar := by
  intro left right same
  exact Char.toNat_inj.mp (Fin.mk.inj same)

namespace Text

theorem ofNat_injective : Function.Injective ofNat := by
  intro left right same
  have digits : Nat.toDigits 10 left = Nat.toDigits 10 right :=
    List.map_injective_iff.mpr CodePoint.ofChar_injective same
  calc
    left = Nat.ofDigitChars 10 (Nat.toDigits 10 left) 0 := Nat.ofDigitChars_ten_toDigits.symm
    _ = Nat.ofDigitChars 10 (Nat.toDigits 10 right) 0 := by rw [digits]
    _ = right := Nat.ofDigitChars_ten_toDigits

theorem notMem_ofNat {char : Char} (noDigit : char.isDigit = false) (number : Nat) :
    CodePoint.ofChar char ∉ ofNat number := by
  intro member
  obtain ⟨digit, among, same⟩ := List.mem_map.mp member
  have isDigit := Nat.isDigit_of_mem_toDigits (by decide) (by decide) among
  rw [CodePoint.ofChar_injective same, noDigit] at isDigit
  contradiction

theorem ofNat_ne_nil (number : Nat) : ofNat number ≠ [] :=
  mt List.map_eq_nil_iff.mp Nat.toDigits_ne_nil

theorem join_singleton (separator part : Text) : join separator [part] = part :=
  List.intercalate_singleton

theorem join_cons_cons (separator part next : Text) (more : List Text) :
    join separator (part :: next :: more) =
      part ++ (separator ++ join separator (next :: more)) := by
  rw [join, List.intercalate_cons_cons, List.append_assoc, join]

theorem mem_join {separator : Text} {parts : List Text} {point : CodePoint}
    (member : point ∈ join separator parts) : point ∈ separator ∨ ∃ part ∈ parts, point ∈ part := by
  cases parts with
  | nil => cases member
  | cons part rest =>
      rw [join_cons, List.mem_append, List.mem_flatMap] at member
      rcases member with here | ⟨other, among, behind⟩
      · exact .inr ⟨part, List.mem_cons_self, here⟩
      · rcases List.mem_append.mp behind with between | inside
        · exact .inl between
        · exact .inr ⟨other, List.mem_cons_of_mem part among, inside⟩

/-- Parts that a separator beginning with the stop keeps apart. -/
def Separable (stop : CodePoint) (parts : List Text) : Prop := ∀ part ∈ parts, part ≠ [] ∧ stop ∉ part

theorem join_inj {stop : CodePoint} {gap : Text} {left right : List Text}
    (leftParts : Separable stop left) (rightParts : Separable stop right)
    (same : join (stop :: gap) left = join (stop :: gap) right) : left = right := by
  have ne_nil (part : Text) (rest : List Text) (parts : Separable stop (part :: rest)) :
      join (stop :: gap) (part :: rest) ≠ [] := by
    rw [join_cons]
    exact List.append_ne_nil_of_left_ne_nil (parts part List.mem_cons_self).1 _
  induction left generalizing right with
  | nil =>
      cases right with
      | nil => rfl
      | cons part' rest' => exact absurd same.symm (ne_nil part' rest' rightParts)
  | cons part rest ih =>
      cases right with
      | nil => exact absurd same (ne_nil part rest leftParts)
      | cons part' rest' =>
          obtain ⟨⟨_, whole⟩, restParts⟩ := List.forall_mem_cons.mp leftParts
          obtain ⟨⟨_, whole'⟩, restParts'⟩ := List.forall_mem_cons.mp rightParts
          cases rest with
          | nil =>
              cases rest' with
              | nil =>
                  rw [join_singleton, join_singleton] at same
                  rw [same]
              | cons next' more' =>
                  rw [join_cons_cons, join_singleton] at same
                  exact absurd (by simp [same]) whole
          | cons next more =>
              cases rest' with
              | nil =>
                  rw [join_cons_cons, join_singleton] at same
                  exact absurd (by simp [← same]) whole'
              | cons next' more' =>
                  rw [join_cons_cons, join_cons_cons] at same
                  obtain ⟨rfl, behind⟩ := until_inj whole whole' same
                  rw [ih restParts restParts' (List.append_cancel_left behind)]

end Text

end ApiSurface
