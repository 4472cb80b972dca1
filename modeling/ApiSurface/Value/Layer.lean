import ApiSurface.Value

/-!
Laying one map over another. Where both hold a map under a key the two are layered in turn,
otherwise the upper value replaces the lower one.
-/

namespace ApiSurface

mutual

def Value.over (lower : Option Value) : Value → Value
  | .map upper => match lower.bind Value.fields? with
    | some entries => .map (Entries.layer entries upper)
    | none => .map upper
  | .loop label (.map upper) => match lower.bind Value.fields? with
    | some entries => .map (Entries.layer entries upper)
    | none => .loop label (.map upper)
  | value => value

def Entries.layer (lower : Entries) : Entries → Entries
  | [] => lower
  | (key, value) :: rest => Entries.layer (lower.put key (Value.over (lower.get? key) value)) rest

end

/-- Whether a map that is a part of itself is unfolded no further here. -/
def Value.isBottom : Value → Bool
  | .loop _ .null => true
  | _ => false

/-- Whether a map may go on below a value. -/
def Value.isOpen (value : Value) : Bool := value.isBottom || value.fields?.isSome

mutual

/-- Whether two maps that are parts of themselves are laid over each other without end. -/
def Value.isEndlessOver (lower : Option Value) : Value → Bool
  | .map upper => match lower with
    | none => false
    | some value => value.isBottom || match value.fields? with
      | some entries => Entries.isEndlessLayer entries upper
      | none => false
  | .loop _ (.map upper) => match lower with
    | none => false
    | some value => value.isBottom || match value.fields? with
      | some entries => Entries.isEndlessLayer entries upper
      | none => false
  | .loop _ .null => (lower.map Value.isOpen).getD false
  | _ => false

def Entries.isEndlessLayer (lower : Entries) : Entries → Bool
  | [] => false
  | (key, value) :: rest =>
    Value.isEndlessOver (lower.get? key) value || Entries.isEndlessLayer lower rest

end

end ApiSurface
