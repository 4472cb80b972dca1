import ApiSurface.Log.Line
import Mathlib.Data.List.Basic

/-! What the text of an event tells of its data: every entry of a line of JSON, and in a line for people
every field that is no part of the line itself. -/

namespace ApiSurface

theorem infix_intercalate {α : Type} (separator : List α) {part : List α} {parts : List (List α)}
    (member : part ∈ parts) : part <:+: separator.intercalate parts := by
  induction parts with
  | nil => contradiction
  | cons first rest ih =>
      cases rest with
      | nil => simp [List.mem_singleton.mp member]
      | cons next others =>
          rw [List.intercalate_cons_cons]
          rcases List.mem_cons.mp member with rfl | later
          · exact (List.prefix_append _ _).isInfix.trans (List.prefix_append _ _).isInfix
          · exact (ih later).trans (List.suffix_append _ _).isInfix

namespace Json

theorem written_map (entries : Entries) :
    written (.map entries) = ['\x7b'] ++ joined (writtenEntries entries) ++ ['\x7d'] := by
  rw [written]

theorem entryText_mem {entries : Entries} {entry : Value × Value} (member : entry ∈ entries) :
    keyText entry.1 ++ [':', ' '] ++ written entry.2 ∈ writtenEntries entries := by
  induction entries with
  | nil => contradiction
  | cons first rest ih =>
      rw [writtenEntries]
      rcases List.mem_cons.mp member with rfl | later
      · exact List.mem_cons_self
      · exact List.mem_cons_of_mem _ (ih later)

end Json

namespace Console

/-- The text goes on up to its end, which is no blank. -/
def EndsVisibly (text : Text) : Prop :=
  ∃ start last, text = start ++ [last] ∧ last ≠ CodePoint.ofChar ' '

theorem EndsVisibly.append {text : Text} (visible : EndsVisibly text) (before : Text) :
    EndsVisibly (before ++ text) := by
  obtain ⟨start, last, rfl, noBlank⟩ := visible
  exact ⟨before ++ start, last, by simp, noBlank⟩

theorem withoutEnd_append {text : Text} (visible : EndsVisibly text) (behind : Text) :
    withoutEnd (text ++ behind) = text ++ withoutEnd behind := by
  obtain ⟨start, last, rfl, noBlank⟩ := visible
  have stops : List.dropWhile (· == CodePoint.ofChar ' ') (last :: start.reverse) =
      last :: start.reverse := by
    simp [noBlank]
  unfold withoutEnd
  rw [List.reverse_append, List.reverse_append, List.reverse_singleton, List.singleton_append,
    List.dropWhile_append]
  split
  next blank => simp [stops, List.isEmpty_iff.mp blank]
  next => simp

theorem infix_withoutEnd {part text : Text} (inside : part <:+: text) (visible : EndsVisibly part) :
    part <:+: withoutEnd text := by
  obtain ⟨before, behind, rfl⟩ := inside
  rw [withoutEnd_append (visible.append before)]
  exact (List.suffix_append _ _).isInfix.trans (List.prefix_append _ _).isInfix

theorem quoted_endsVisibly (text : Text) : EndsVisibly text.quoted := by
  refine ⟨_, _, rfl, ?_⟩
  unfold Text.quoteOf
  split
  · decide
  · decide

/-- A field as it stands in a line. -/
def told (name content : Text) : Text := name ++ "=" ++ fieldText (.text content)

theorem told_endsVisibly (name content : Text) : EndsVisibly (told name content) := by
  unfold told fieldText
  dsimp only
  split
  next => exact (quoted_endsVisibly content).append _
  next plain =>
    rcases List.eq_nil_or_concat content with rfl | ⟨start, last, rfl⟩
    · exact ⟨name, _, by simp; rfl, by decide⟩
    · refine ⟨name ++ "=" ++ start, last, by simp, ?_⟩
      rintro rfl
      exact plain (by simp [isAmbiguous])

/-- Fields that are no part of the line itself stand in it under their names. -/
theorem told_infix {entries : Entries} {name content : Text}
    (member : ((.text name, .text content) : Value × Value) ∈ entries)
    (other : (columns.map (·.1)).contains name = false) (plain : appendixNames.contains name = false) :
    told name content <:+: text entries := by
  have named : (name, Value.text content) ∈ namedFields entries :=
    List.mem_filterMap.mpr ⟨_, member, rfl⟩
  have field : (name, Value.text content) ∈ otherFields entries := by
    rw [otherFields, List.mem_mergeSort, List.mem_filter]
    exact ⟨named, by simp only [other, plain]; rfl⟩
  have visible := told_endsVisibly name content
  refine (infix_withoutEnd ?_ visible).trans (List.prefix_append _ _).isInfix
  apply infix_intercalate
  rw [List.mem_filter, List.mem_append]
  refine ⟨.inr (List.mem_map.mpr ⟨_, field, rfl⟩), ?_⟩
  obtain ⟨start, last, shape, _⟩ := visible
  rw [shape]
  simp

end Console

namespace LineForm

/-- The text that the lines of an event are cut from. -/
def text (form : LineForm) (entries : Entries) : Text :=
  match form with
  | .json => Text.ofChars (Json.written (.map entries))
  | .console => Console.text entries

/-- How a text of a form tells a field that holds a text. -/
def told (form : LineForm) (name content : Text) : Text :=
  match form with
  | .json =>
    Text.ofChars (Json.keyText (.text name) ++ [':', ' '] ++ Json.written (.text content))
  | .console => Console.told name content

/-- A text of a form as lines: JSON is one line whatever stands in it. -/
def cut (form : LineForm) (text : Text) : List Text :=
  match form with
  | .json => [text]
  | .console => text.closedLines

theorem lines_eq (form : LineForm) (entries : Entries) :
    form.lines entries = form.cut (form.text entries) := by
  cases form <;> rfl

theorem told_infix_text (form : LineForm) {entries : Entries} {name content : Text}
    (member : ((.text name, .text content) : Value × Value) ∈ entries)
    (other : (Console.columns.map (·.1)).contains name = false)
    (plain : Console.appendixNames.contains name = false) :
    form.told name content <:+: form.text entries := by
  cases form with
  | console => exact Console.told_infix member other plain
  | json =>
      have inside : Json.keyText (.text name) ++ [':', ' '] ++ Json.written (.text content) <:+:
          Json.written (.map entries) := by
        rw [Json.written_map, Json.joined]
        refine List.IsInfix.trans ?_ (List.prefix_append _ _).isInfix
        refine List.IsInfix.trans ?_ (List.suffix_append _ _).isInfix
        exact infix_intercalate _ (Json.entryText_mem member)
      exact inside.map CodePoint.ofChar

end LineForm

end ApiSurface
