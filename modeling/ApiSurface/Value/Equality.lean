import ApiSurface.Value

/-! Equality of data can be decided, however deep its collections stand in each other. -/

namespace ApiSurface.Value

mutual

def equals : Value → Value → Bool
  | .null, .null => true
  | .bool left, .bool right => left = right
  | .int left, .int right => left = right
  | .float left, .float right => left = right
  | .text left, .text right => left = right
  | .date left, .date right => left = right
  | .moment left, .moment right => left = right
  | .bytes left, .bytes right => left = right
  | .list left, .list right | .set left, .set right => equalsAll left right
  | .pair first second, .pair other another => equals first other && equals second another
  | .map left, .map right => equalsEntries left right
  | .loop left content, .loop right other => left = right && equals content other
  | _, _ => false

def equalsAll : List Value → List Value → Bool
  | [], [] => true
  | item :: rest, other :: others => equals item other && equalsAll rest others
  | _, _ => false

def equalsEntries : List (Value × Value) → List (Value × Value) → Bool
  | [], [] => true
  | (key, held) :: rest, (other, another) :: others =>
    equals key other && equals held another && equalsEntries rest others
  | _, _ => false

end

mutual

theorem equals_iff (left right : Value) : equals left right = true ↔ left = right := by
  match left with
  | .null | .bool _ | .int _ | .float _ | .text _ | .date _ | .moment _ | .bytes _ =>
      cases right <;> simp [equals]
  | .list items | .set items =>
      have ih := equalsAll_iff items
      cases right <;> simp [equals, ih]
  | .pair first second =>
      have firstIh := equals_iff first
      have secondIh := equals_iff second
      cases right <;> simp [equals, firstIh, secondIh]
  | .map entries =>
      have ih := equalsEntries_iff entries
      cases right <;> simp [equals, ih]
  | .loop label content =>
      have ih := equals_iff content
      cases right <;> simp [equals, ih]

theorem equalsAll_iff (left right : List Value) : equalsAll left right = true ↔ left = right := by
  match left with
  | [] => cases right <;> simp [equalsAll]
  | item :: rest =>
      have ih := equals_iff item
      have restIh := equalsAll_iff rest
      cases right <;> simp [equalsAll, ih, restIh]

theorem equalsEntries_iff (left right : List (Value × Value)) :
    equalsEntries left right = true ↔ left = right := by
  match left with
  | [] => cases right <;> simp [equalsEntries]
  | (key, held) :: rest =>
      have keyIh := equals_iff key
      have heldIh := equals_iff held
      have restIh := equalsEntries_iff rest
      cases right <;> simp [equalsEntries, keyIh, heldIh, restIh, Prod.ext_iff]

end

instance : DecidableEq Value := fun left right => decidable_of_iff _ (equals_iff left right)

end ApiSurface.Value
