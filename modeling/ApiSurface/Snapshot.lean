import ApiSurface.Element

/-!
The elements of one version in order. No two of them have the same identity.
-/

namespace ApiSurface

/-- The first item that occurs among those before it. -/
def firstRepeated {α : Type} [DecidableEq α] (before : List α) : List α → Option α
  | [] => none
  | item :: rest => if item ∈ before then some item else firstRepeated (item :: before) rest

theorem nodup_of_firstRepeated {α : Type} [DecidableEq α] (before items : List α)
    (fresh : firstRepeated before items = none) :
    items.Nodup ∧ ∀ item ∈ items, item ∉ before := by
  induction items generalizing before with
  | nil => simp
  | cons item rest ih =>
      by_cases present : item ∈ before
      · simp [firstRepeated, present] at fresh
      · simp only [firstRepeated, present, if_false] at fresh
        obtain ⟨distinct, absent⟩ := ih _ fresh
        constructor
        · exact List.nodup_cons.mpr ⟨fun again => absent item again (by simp), distinct⟩
        · intro other member
          rcases List.mem_cons.mp member with rfl | inRest
          · exact present
          · exact fun again => absent other inRest (by simp [again])

structure Snapshot where
  version : Option Text := none
  elements : List Element
  distinct : (elements.map Element.identity).Nodup
  deriving DecidableEq

namespace Snapshot

def build (elements : List Element) (version : Option Text) : Except Fault Snapshot :=
  match repeated : firstRepeated [] (elements.map Element.identity) with
  | some identity => .error (.duplicateElement identity.shown)
  | none => .ok ⟨version, elements, (nodup_of_firstRepeated _ _ repeated).1⟩

def empty : Snapshot := ⟨none, [], by simp⟩

def size (snapshot : Snapshot) : Nat := snapshot.elements.length

def get? (snapshot : Snapshot) (identity : Path) : Option Element :=
  snapshot.elements.find? (·.identity == identity)

def hasIdentity (snapshot : Snapshot) (identity : Path) : Bool := (snapshot.get? identity).isSome

def hasElement (snapshot : Snapshot) (element : Element) : Bool :=
  snapshot.get? element.identity == some element

def types (snapshot : Snapshot) : List Element := snapshot.elements.filter (·.kind.isType)

def shown (snapshot : Snapshot) : Text :=
  let version : Text := match snapshot.version with
    | none => "None"
    | some version => version.quoted
  "Snapshot(version=" ++ version ++ ", elements=" ++ Text.ofNat snapshot.size ++ ")"

end Snapshot

end ApiSurface
