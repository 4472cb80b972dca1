import ApiSurface.Value.Layer
import Mathlib.Data.List.Pairwise
import Mathlib.Data.Option.Basic

/-! What is found in a map that was laid over another: the upper value, unless there is none, and
where both are maps their layers. -/

namespace ApiSurface

/-- A moment without the offset that it was written with, if there is one. -/
def Moment.stamp (moment : Moment) : (Int × Nat × Nat) ⊕ Moment :=
  match moment.offset with
  | some offset => .inl (moment.universalMinutes offset, moment.second, moment.microsecond)
  | none => .inr moment

theorem Moment.isSameInstant_iff (left right : Moment) :
    left.isSameInstant right = true ↔ left.stamp = right.stamp := by
  unfold isSameInstant stamp
  cases leftOffset : left.offset with
  | none =>
      cases rightOffset : right.offset with
      | none => simp
      | some offset =>
          simp only [beq_iff_eq, reduceCtorEq, iff_false]
          rintro rfl
          simp [leftOffset] at rightOffset
  | some offset =>
      cases rightOffset : right.offset with
      | none =>
          simp only [beq_iff_eq, reduceCtorEq, iff_false]
          rintro rfl
          simp [leftOffset] at rightOffset
      | some other => simp [and_assoc]

namespace Value

theorem sameScalar_symm {left right : Value} (same : sameScalar left right = true) :
    sameScalar right left = true := by
  unfold sameScalar at same
  split at same
  next => rfl
  next => exact beq_iff_eq.mpr (beq_iff_eq.mp same).symm
  next => exact beq_iff_eq.mpr (beq_iff_eq.mp same).symm
  next => exact beq_iff_eq.mpr (beq_iff_eq.mp same).symm
  next =>
    rw [Moment.isSameInstant_iff] at same
    exact (Moment.isSameInstant_iff _ _).mpr same.symm
  next => exact beq_iff_eq.mpr (beq_iff_eq.mp same).symm
  next => cases same

theorem sameScalar_congr {left right : Value} (same : sameScalar left right = true) (key : Value) :
    sameScalar left key = sameScalar right key := by
  unfold sameScalar at same
  split at same
  next => rfl
  next => rw [beq_iff_eq.mp same]
  next => rw [beq_iff_eq.mp same]
  next => rw [beq_iff_eq.mp same]
  next =>
    rw [Moment.isSameInstant_iff] at same
    cases key with
    | moment time =>
        rw [sameScalar, sameScalar, Bool.eq_iff_iff, Moment.isSameInstant_iff,
          Moment.isSameInstant_iff, same]
    | _ => rfl
  next => rw [beq_iff_eq.mp same]
  next => cases same

theorem sameKey_symm {left right : Value} (same : left.sameKey right = true) :
    right.sameKey left = true := by
  unfold sameKey at same ⊢
  cases leftNumber : left.toInt? <;> cases rightNumber : right.toInt? <;>
    simp only [leftNumber, rightNumber, Bool.false_eq_true] at same ⊢
  · exact sameScalar_symm same
  · exact beq_iff_eq.mpr (beq_iff_eq.mp same).symm

theorem sameKey_congr {left right : Value} (same : left.sameKey right = true) (key : Value) :
    left.sameKey key = right.sameKey key := by
  unfold sameKey at same ⊢
  cases leftNumber : left.toInt? <;> cases rightNumber : right.toInt? <;>
    simp only [leftNumber, rightNumber, Bool.false_eq_true] at same ⊢
  · cases key.toInt? with
    | none => exact sameScalar_congr same key
    | some number => rfl
  · rw [beq_iff_eq.mp same]
    cases key.toInt? <;> rfl

theorem sameKey_congr_right {left right : Value} (same : left.sameKey right = true) (key : Value) :
    key.sameKey left = key.sameKey right := by
  rw [Bool.eq_iff_iff]
  constructor
  · intro isLeft
    exact sameKey_symm ((sameKey_congr same key).symm.trans (sameKey_symm isLeft))
  · intro isRight
    exact sameKey_symm ((sameKey_congr same key).trans (sameKey_symm isRight))

/-- Two keys that are the same as a third one are the same. -/
theorem sameKey_of_common {left right key : Value} (here : left.sameKey key = true)
    (there : right.sameKey key = true) : left.sameKey right = true :=
  (sameKey_congr here right).trans (sameKey_symm there)

theorem sameKey_text_iff (key : Value) (name : Text) :
    key.sameKey (.text name) = true ↔ key = .text name := by
  cases key with
  | float number =>
      simp only [sameKey, toInt?, reduceCtorEq, iff_false]
      cases number.toInt? <;> simp [sameScalar]
  | _ => simp [sameKey, toInt?, sameScalar]

@[simp] theorem over_none (value : Value) : Value.over none value = value := by
  unfold Value.over
  split <;> rfl

/-- Equal values, or any two maps. -/
def Alike (left right : Value) : Prop :=
  left = right ∨ left.fields?.isSome = true ∧ right.fields?.isSome = true

theorem over_alike (lower : Option Value) (value : Value) :
    (Value.over lower value).Alike value := by
  unfold Value.over
  split
  next => split <;> exact .inr ⟨rfl, rfl⟩
  next => split <;> exact .inr ⟨rfl, rfl⟩
  next => exact .inl rfl

theorem over_map {lower : Value} {entries upper : Entries} {value : Value}
    (isLower : lower.fields? = some entries) (isUpper : value.fields? = some upper) :
    (Value.over (some lower) value).fields? = some (entries.layer upper) := by
  cases value with
  | map given =>
      cases isUpper
      simp only [Value.over, isLower, Option.bind_some]
      rfl
  | loop label content =>
      cases content with
      | map given =>
          cases isUpper
          simp only [Value.over, isLower, Option.bind_some]
          rfl
      | _ => simp [fields?, bare] at isUpper
  | _ => simp [fields?, bare] at isUpper

theorem Alike.trans {first second third : Value} (left : first.Alike second)
    (right : second.Alike third) : first.Alike third := by
  rcases left with rfl | ⟨firstMap, _⟩
  · exact right
  · rcases right with rfl | ⟨_, thirdMap⟩
    · exact .inr ⟨firstMap, ‹_›⟩
    · exact .inr ⟨firstMap, thirdMap⟩

/-- What is found where one value is laid over another, each if it is there. -/
def overlay (lower : Option Value) : Option Value → Option Value
  | none => lower
  | some value => some (Value.over lower value)

theorem alike_refl (value : Option Value) : Option.Rel Alike value value := by
  cases value with
  | none => exact .none
  | some value => exact .some (.inl rfl)

theorem overlay_alike {lower covered : Option Value} (alike : Option.Rel Alike lower covered)
    (upper : Option Value) : Option.Rel Alike (overlay lower upper) (upper.or covered) := by
  cases upper with
  | none => exact alike
  | some value => exact .some (over_alike lower value)

theorem overlay_overlay_alike {lower covered : Option Value}
    (alike : Option.Rel Alike lower covered) (middle upper : Option Value) :
    Option.Rel Alike (overlay lower (overlay middle upper)) (upper.or (middle.or covered)) := by
  cases upper with
  | none => exact overlay_alike alike middle
  | some value => exact .some ((over_alike lower _).trans (over_alike middle value))

end Value

namespace Entries

/-- No two entries have the same key. -/
def Distinct (entries : Entries) : Prop :=
  entries.Pairwise fun first second => first.1.sameKey second.1 = false

instance (entries : Entries) : Decidable entries.Distinct :=
  inferInstanceAs (Decidable (List.Pairwise _ _))

theorem get?_cons (entry : Value × Value) (rest : Entries) (key : Value) :
    get? (entry :: rest) key = if entry.1.sameKey key then some entry.2 else get? rest key := by
  simp only [get?, List.find?_cons]
  cases entry.1.sameKey key <;> rfl

theorem get?_congr {key name : Value} (same : key.sameKey name = true) (entries : Entries) :
    entries.get? key = entries.get? name := by
  simp only [get?, Value.sameKey_congr_right same]

theorem get?_put (key value : Value) (entries : Entries) (name : Value) :
    (entries.put key value).get? name =
      if key.sameKey name then some value else entries.get? name := by
  induction entries with
  | nil => exact get?_cons (key, value) [] name
  | cons entry rest ih =>
      rw [put, Value.assign]
      split
      next same =>
        rw [get?_cons, get?_cons, Value.sameKey_congr same name]
        split <;> rfl
      next different =>
        rw [get?_cons, get?_cons]
        split
        next here =>
          split
          next there => exact absurd (Value.sameKey_of_common here there) different
          next => rfl
        next => exact ih

theorem put_eq_append {key : Value} {entries : Entries}
    (fresh : ∀ entry ∈ entries, entry.1.sameKey key = false) (value : Value) :
    entries.put key value = entries ++ [(key, value)] := by
  induction entries with
  | nil => rfl
  | cons entry rest ih =>
      have different : ¬ entry.1.sameKey key = true := by simp [fresh entry]
      rw [put, Value.assign, if_neg different]
      exact congrArg (entry :: ·)
        (ih fun other member => fresh other (List.mem_cons_of_mem _ member))

theorem map_fst_put (key value : Value) (entries : Entries) :
    (entries.put key value).map (·.1) = entries.map (·.1) ∨
      ∀ entry ∈ entries, entry.1.sameKey key = false := by
  induction entries with
  | nil => exact .inr (by simp)
  | cons entry rest ih =>
      rw [put, Value.assign]
      split
      next => exact .inl rfl
      next different =>
        rw [Bool.not_eq_true] at different
        rcases ih with same | fresh
        · exact .inl (congrArg (entry.1 :: ·) same)
        · right
          intro other member
          rcases List.mem_cons.mp member with rfl | inRest
          · exact different
          · exact fresh other inRest

theorem distinct_put {entries : Entries} (distinct : entries.Distinct) (key value : Value) :
    (entries.put key value).Distinct := by
  rcases map_fst_put key value entries with same | fresh
  · have keys : (entries.map (·.1)).Pairwise fun first second => first.sameKey second = false :=
      List.pairwise_map.mpr distinct
    rw [← same] at keys
    exact List.pairwise_map.mp keys
  · rw [put_eq_append fresh, Distinct, List.pairwise_append]
    refine ⟨distinct, List.pairwise_singleton _ _, ?_⟩
    intro entry member other isLast
    rw [List.mem_singleton.mp isLast]
    exact fresh entry member

theorem Distinct.next {done rest : Entries} {entry : Value × Value}
    (distinct : (done ++ entry :: rest).Distinct) :
    (∀ earlier ∈ done, earlier.1.sameKey entry.1 = false) ∧ (done ++ [entry] ++ rest).Distinct := by
  constructor
  · intro earlier member
    exact (List.pairwise_append.mp distinct).2.2 earlier member entry List.mem_cons_self
  · simpa using distinct

/-- Entries that are put one after the other stand in that order. -/
theorem foldl_put (done : Entries) {entries : Entries} (distinct : (done ++ entries).Distinct) :
    entries.foldl (fun done entry => done.put entry.1 entry.2) done = done ++ entries := by
  induction entries generalizing done with
  | nil => simp
  | cons entry rest ih =>
      obtain ⟨fresh, again⟩ := distinct.next
      have appended : done.put entry.1 entry.2 = done ++ [entry] := put_eq_append fresh entry.2
      rw [List.foldl_cons, appended, ih _ again, List.append_assoc, List.singleton_append]

theorem distinct_layer {lower : Entries} (distinct : lower.Distinct) (upper : Entries) :
    (lower.layer upper).Distinct := by
  induction upper generalizing lower with
  | nil => exact distinct
  | cons entry rest ih =>
      rw [layer]
      exact ih (distinct_put distinct entry.1 _)

theorem mem_of_put {key value : Value} {entries : Entries} {entry : Value × Value}
    (member : entry ∈ entries.put key value) :
    entry.1 = key ∨ ∃ earlier ∈ entries, earlier.1 = entry.1 := by
  have keys : entry.1 ∈ (entries.put key value).map (·.1) := List.mem_map_of_mem member
  rcases map_fst_put key value entries with same | fresh
  · rw [same] at keys
    exact .inr (by simpa using keys)
  · rw [put_eq_append fresh, List.mem_append, List.mem_singleton] at member
    rcases member with earlier | rfl
    · exact .inr ⟨entry, earlier, rfl⟩
    · exact .inl rfl

theorem mem_of_layer {lower upper : Entries} {entry : Value × Value}
    (member : entry ∈ lower.layer upper) :
    (∃ other ∈ lower, other.1 = entry.1) ∨ ∃ other ∈ upper, other.1 = entry.1 := by
  induction upper generalizing lower with
  | nil => exact .inl ⟨entry, member, rfl⟩
  | cons head rest ih =>
      rw [layer] at member
      rcases ih member with ⟨other, inPut, same⟩ | ⟨other, inRest, same⟩
      · rcases mem_of_put inPut with isKey | ⟨earlier, inLower, before⟩
        · exact .inr ⟨head, List.mem_cons_self, isKey.symm.trans same⟩
        · exact .inl ⟨earlier, inLower, before.trans same⟩
      · exact .inr ⟨other, List.mem_cons_of_mem head inRest, same⟩

theorem get?_eq_none_iff (entries : Entries) (key : Value) :
    entries.get? key = none ↔ ∀ entry ∈ entries, entry.1.sameKey key = false := by
  simp [get?]

theorem get?_eq_none {entries : Entries} {key : Value}
    (absent : ∀ entry ∈ entries, entry.1.sameKey key = false) : entries.get? key = none :=
  (get?_eq_none_iff entries key).mpr absent

theorem get?_layer (lower : Entries) {upper : Entries} (distinct : upper.Distinct) (name : Value) :
    (lower.layer upper).get? name = Value.overlay (lower.get? name) (upper.get? name) := by
  induction upper generalizing lower with
  | nil => rfl
  | cons entry rest ih =>
      obtain ⟨key, value⟩ := entry
      obtain ⟨fresh, others⟩ := List.pairwise_cons.mp distinct
      rw [layer, ih _ others, get?_put, get?_cons]
      split
      next here =>
        have absent : get? rest name = none := by
          apply get?_eq_none
          intro other member
          rw [← Bool.not_eq_true]
          intro there
          exact Bool.false_ne_true ((fresh other member).symm.trans
            (Value.sameKey_of_common here there))
        rw [absent, get?_congr here]
        rfl
      next => rfl

theorem get?_eq_some_of_mem {entries : Entries} (distinct : entries.Distinct)
    {entry : Value × Value} (member : entry ∈ entries) {key : Value}
    (same : entry.1.sameKey key = true) : entries.get? key = some entry.2 := by
  induction entries with
  | nil => simp at member
  | cons head rest ih =>
      obtain ⟨fresh, others⟩ := List.pairwise_cons.mp distinct
      rw [get?_cons]
      rcases List.mem_cons.mp member with rfl | inRest
      · rw [if_pos same]
      · rw [if_neg, ih others inRest]
        intro here
        exact Bool.false_ne_true ((fresh entry inRest).symm.trans
          (Value.sameKey_of_common here same))

theorem get?_eq_some_iff {entries : Entries} (distinct : entries.Distinct) (name : Text)
    (value : Value) :
    entries.get? (.text name) = some value ↔ (.text name, value) ∈ entries := by
  constructor
  · intro found
    obtain ⟨entry, isFirst, rfl⟩ := Option.map_eq_some_iff.mp found
    have isName := List.find?_some isFirst
    rw [Value.sameKey_text_iff] at isName
    exact isName ▸ List.mem_of_find?_eq_some isFirst
  · intro member
    exact get?_eq_some_of_mem distinct member ((Value.sameKey_text_iff _ _).mpr rfl)

/-- The entries hold nothing but sections with some of the given names, each of them a map. -/
structure Sectioned (names : List Text) (entries : Entries) : Prop where
  distinct : entries.Distinct
  named : ∀ entry ∈ entries, ∃ name ∈ names, entry.1 = .text name
  maps : ∀ name value, entries.get? (.text name) = some value →
    ∃ fields, value.fields? = some fields ∧ fields.Distinct

theorem sectioned_nil (names : List Text) : Sectioned names [] where
  distinct := .nil
  named := by simp
  maps := by simp [get?]

theorem sectioned_single {names : List Text} {name : Text} (known : name ∈ names)
    {fields : Entries} (distinct : fields.Distinct) :
    Sectioned names [(.text name, .map fields)] where
  distinct := List.pairwise_singleton _ _
  named := by
    intro entry member
    rw [List.mem_singleton.mp member]
    exact ⟨name, known, rfl⟩
  maps := by
    intro other value found
    rw [get?_eq_some_iff (List.pairwise_singleton _ _), List.mem_singleton] at found
    cases found
    exact ⟨fields, rfl, distinct⟩

/-- What is held under a name in a section. -/
def field? (entries : Entries) (sectionName name : Text) : Option Value :=
  ((entries.get? (.text sectionName)).bind Value.fields?).bind (get? · (.text name))

theorem layer_sectioned {names : List Text} {lower upper : Entries}
    (below : lower.Sectioned names) (above : upper.Sectioned names) :
    (lower.layer upper).Sectioned names where
  distinct := distinct_layer below.distinct upper
  named := by
    intro entry member
    rcases mem_of_layer member with ⟨other, inLower, same⟩ | ⟨other, inUpper, same⟩
    · exact same ▸ below.named other inLower
    · exact same ▸ above.named other inUpper
  maps := by
    intro name value found
    rw [get?_layer lower above.distinct] at found
    cases upperFound : upper.get? (.text name) with
    | none =>
        rw [upperFound] at found
        exact below.maps name value found
    | some held =>
        obtain ⟨fields, isMap, distinct⟩ := above.maps name held upperFound
        rw [upperFound, Value.overlay, Option.some.injEq] at found
        subst found
        cases lowerFound : lower.get? (.text name) with
        | none =>
            rw [Value.over_none]
            exact ⟨fields, isMap, distinct⟩
        | some covered =>
            obtain ⟨earlier, wasMap, apart⟩ := below.maps name covered lowerFound
            exact ⟨_, Value.over_map wasMap isMap, distinct_layer apart fields⟩

theorem field?_layer {names : List Text} {lower upper : Entries}
    (below : lower.Sectioned names) (above : upper.Sectioned names) (sectionName name : Text) :
    (lower.layer upper).field? sectionName name =
      Value.overlay (lower.field? sectionName name) (upper.field? sectionName name) := by
  rw [field?, field?, field?, get?_layer lower above.distinct]
  cases upperFound : upper.get? (.text sectionName) with
  | none => rfl
  | some held =>
      obtain ⟨fields, isMap, distinct⟩ := above.maps sectionName held upperFound
      cases lowerFound : lower.get? (.text sectionName) with
      | none =>
          simp only [Value.overlay, Value.over_none, Option.bind_some, Option.bind_none, isMap]
          cases fields.get? (.text name) <;> rfl
      | some covered =>
          obtain ⟨earlier, wasMap, _⟩ := below.maps sectionName covered lowerFound
          simp only [Value.overlay, Option.bind_some, wasMap, isMap,
            Value.over_map wasMap isMap]
          exact get?_layer earlier distinct name

end Entries

end ApiSurface
