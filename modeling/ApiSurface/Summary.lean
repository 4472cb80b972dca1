import ApiSurface.Change

/-!
Short texts about a report: how many entries of each status it has, and which of them are breaking.
-/

namespace ApiSurface

def statusCount (entries : List Entry) (status : Status) : Nat := entries.countP (·.status == status)

def summary (entries : List Entry) : Text :=
  if entries.isEmpty then "No changes detected"
  else
    let counted := [Status.added, .changed, .removed].filter (statusCount entries · != 0)
    Text.join ", " (counted.map fun status =>
      Text.ofNat (statusCount entries status) ++ " " ++ status.word)

/-- The first items up to a limit; a negative limit leaves out so many items at the end. -/
def takeWithin {α : Type} (limit : Int) (items : List α) : List α :=
  items.take (if limit < 0 then (items.length + limit).toNat else limit.toNat)

def breakingSummary? (entries : List Entry) (limit : Int) : Option Text :=
  let breaking := entries.filter (·.isBreaking)
  let count := breaking.length
  if count = 0 then none
  else
    let names := Text.join ", " ((takeWithin limit breaking).map (·.element.name))
    let noun : Text := if count = 1 then " incompatible change: " else " incompatible changes: "
    let more : Text :=
      if limit < count then " (and " ++ Text.ofInt (count - limit) ++ " more)" else ""
    some (Text.ofNat count ++ noun ++ names ++ more)

end ApiSurface
