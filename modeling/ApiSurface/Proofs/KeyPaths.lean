import ApiSurface.Proofs.Layers

/-! What is found along paths of keys in nested maps, of which one was laid over the other. -/

namespace ApiSurface

namespace Value

/-- Maps within maps, down to values that are no maps. A map has each of its keys once. -/
inductive Nested : Value → Prop
  | leaf {value : Value} : value.isOpen = false → Nested value
  | map {entries : Entries} : entries.Distinct →
      (∀ entry ∈ entries, entry.1.sameKey entry.1 = true) →
      (∀ entry ∈ entries, Nested entry.2) → Nested (.map entries)

/-- What a map holds under a key. -/
def child? (value key : Value) : Option Value := value.fields?.bind (Entries.get? · key)

/-- What is held at the end of a path of keys. -/
def at? : Value → List Value → Option Value
  | value, [] => some value
  | value, key :: rest => (value.child? key).bind (at? · rest)

/-- Something that is no map is held on the way, above the end of the path. -/
def Blocks (value : Value) (path : List Value) : Prop :=
  ∃ front held, front <+: path ∧ front ≠ path ∧ value.at? front = some held ∧ held.fields? = none

theorem fields?_of_not_open {value : Value} (notOpen : value.isOpen = false) :
    value.fields? = none := by
  rw [isOpen, Bool.or_eq_false_iff] at notOpen
  simpa using notOpen.2

theorem over_of_leaf {value : Value} (isLeaf : value.fields? = none) (lower : Option Value) :
    Value.over lower value = value := by
  unfold Value.over
  split
  next => cases isLeaf
  next => cases isLeaf
  next => rfl

theorem over_onto_leaf {lower : Value} (isLeaf : lower.fields? = none) (value : Value) :
    Value.over (some lower) value = value := by
  unfold Value.over
  split
  next => rw [Option.bind_some, isLeaf]
  next => rw [Option.bind_some, isLeaf]
  next => rfl

theorem overlay_none (value : Option Value) : overlay none value = value := by
  cases value with
  | none => rfl
  | some held => rw [overlay, over_none]

theorem child?_of_leaf {value : Value} (isLeaf : value.fields? = none) (key : Value) :
    value.child? key = none := by
  rw [child?, isLeaf, Option.bind_none]

theorem child?_over {value : Value} {upper : Entries} (isUpper : value.fields? = some upper)
    (distinct : upper.Distinct) (lower : Option Value) (key : Value) :
    (Value.over lower value).child? key =
      overlay (lower.bind (child? · key)) (value.child? key) := by
  cases lower with
  | none => rw [over_none, Option.bind_none, overlay_none]
  | some below =>
      rw [Option.bind_some]
      cases isLower : below.fields? with
      | none => rw [over_onto_leaf isLower, child?_of_leaf isLower, overlay_none]
      | some entries =>
          simp only [child?, over_map isLower isUpper, isLower, isUpper, Option.bind_some]
          exact Entries.get?_layer entries distinct key

theorem Nested.flat {entries : Entries} (distinct : entries.Distinct)
    (areKeys : ∀ entry ∈ entries, entry.1.sameKey entry.1 = true)
    (leaves : ∀ entry ∈ entries, entry.2.isOpen = false) : (Value.map entries).Nested :=
  .map distinct areKeys fun entry member => .leaf (leaves entry member)

theorem Nested.distinct {value : Value} (nested : value.Nested) {entries : Entries}
    (isMap : value.fields? = some entries) : entries.Distinct := by
  cases nested with
  | leaf notOpen => simp [fields?_of_not_open notOpen] at isMap
  | map distinct _ _ =>
      cases isMap
      exact distinct

theorem Nested.eq_map {value : Value} (nested : value.Nested) {entries : Entries}
    (isMap : value.fields? = some entries) : value = .map entries := by
  cases nested with
  | leaf notOpen => simp [fields?_of_not_open notOpen] at isMap
  | map _ _ _ =>
      cases isMap
      rfl

theorem Nested.child? {value : Value} (nested : value.Nested) {key held : Value}
    (found : value.child? key = some held) : held.Nested := by
  cases nested with
  | leaf notOpen => simp [child?_of_leaf (fields?_of_not_open notOpen)] at found
  | map _ _ below =>
      obtain ⟨entry, isFirst, rfl⟩ := Option.map_eq_some_iff.mp found
      exact below entry (List.mem_of_find?_eq_some isFirst)

theorem Nested.at? {value : Value} (nested : value.Nested) {path : List Value} {held : Value}
    (found : value.at? path = some held) : held.Nested := by
  induction path generalizing value with
  | nil =>
      cases found
      exact nested
  | cons key rest ih =>
      obtain ⟨child, isChild, atEnd⟩ := Option.bind_eq_some_iff.mp found
      exact ih (nested.child? isChild) atEnd

theorem at?_cons (value key : Value) (rest : List Value) :
    value.at? (key :: rest) = (value.child? key).bind (at? · rest) := rfl

theorem bind_at?_cons (value : Option Value) (key : Value) (rest : List Value) :
    value.bind (at? · (key :: rest)) = (value.bind (child? · key)).bind (at? · rest) := by
  rw [Option.bind_assoc]
  rfl

theorem not_blocks_nil (value : Value) : ¬ value.Blocks [] := by
  rintro ⟨front, held, isFront, short, _⟩
  exact short (List.prefix_nil.mp isFront)

theorem blocks_of_leaf {value : Value} (isLeaf : value.fields? = none) (key : Value)
    (rest : List Value) : value.Blocks (key :: rest) :=
  ⟨[], value, List.nil_prefix, nofun, rfl, isLeaf⟩

theorem blocks_cons_iff {value : Value} {entries : Entries} (isMap : value.fields? = some entries)
    (key : Value) (rest : List Value) :
    value.Blocks (key :: rest) ↔ ∃ child, value.child? key = some child ∧ child.Blocks rest := by
  constructor
  · rintro ⟨front, held, isFront, short, found, isLeaf⟩
    cases front with
    | nil =>
        cases found
        rw [isMap] at isLeaf
        cases isLeaf
    | cons first front =>
        obtain ⟨rfl, isRest⟩ := List.cons_prefix_cons.mp isFront
        obtain ⟨child, isChild, atEnd⟩ := Option.bind_eq_some_iff.mp found
        exact ⟨child, isChild, front, held, isRest, fun whole => short (whole ▸ rfl), atEnd, isLeaf⟩
  · rintro ⟨child, isChild, front, held, isFront, short, found, isLeaf⟩
    refine ⟨key :: front, held, List.cons_prefix_cons.mpr ⟨rfl, isFront⟩, ?_, ?_, isLeaf⟩
    · exact fun whole => short (List.cons.inj whole).2
    · rw [at?_cons, isChild, Option.bind_some, found]

/-- What is found at a path where one value was laid over another, of which the lower one may be
missing. -/
structure LayeredAt (lower : Option Value) (upper merged : Value) (path : List Value) : Prop where
  cut : upper.Blocks path → merged.at? path = none
  kept : upper.at? path = none → ¬ upper.Blocks path → merged.at? path = lower.bind (at? · path)
  joined : ∀ held, upper.at? path = some held →
    merged.at? path = some (Value.over (lower.bind (at? · path)) held)

section LayeredAt

variable {lower : Option Value} {upper merged : Value} {entries : Entries} {key : Value}
  {rest : List Value}

theorem layeredAt_nil (lower : Option Value) (upper : Value) :
    LayeredAt lower upper (Value.over lower upper) [] where
  cut := fun blocks => absurd blocks (not_blocks_nil upper)
  kept := nofun
  joined := by
    rintro held found
    cases found
    cases lower <;> rfl

theorem layeredAt_leaf (isLeaf : upper.fields? = none) : LayeredAt lower upper upper (key :: rest) where
  cut := fun _ => by rw [at?_cons, child?_of_leaf isLeaf, Option.bind_none]
  kept := fun _ passes => absurd (blocks_of_leaf isLeaf key rest) passes
  joined := by simp [at?_cons, child?_of_leaf isLeaf]

theorem layeredAt_absent (isMap : upper.fields? = some entries) (absent : upper.child? key = none)
    (same : merged.child? key = lower.bind (child? · key)) :
    LayeredAt lower upper merged (key :: rest) where
  cut := by simp [blocks_cons_iff isMap, absent]
  kept := fun _ _ => by rw [at?_cons, same, bind_at?_cons]
  joined := by simp [at?_cons, absent]

theorem layeredAt_child (isMap : upper.fields? = some entries) {child mergedChild : Value}
    (isChild : upper.child? key = some child) (isMerged : merged.child? key = some mergedChild)
    (below : LayeredAt (lower.bind (child? · key)) child mergedChild rest) :
    LayeredAt lower upper merged (key :: rest) where
  cut := by
    rw [blocks_cons_iff isMap, at?_cons, isMerged]
    rintro ⟨held, isHeld, blocks⟩
    cases isChild.symm.trans isHeld
    exact below.cut blocks
  kept := by
    rw [blocks_cons_iff isMap, at?_cons, at?_cons, isChild, isMerged, bind_at?_cons]
    intro absent passes
    exact below.kept absent fun blocks => passes ⟨child, rfl, blocks⟩
  joined := by
    rw [at?_cons, at?_cons, isChild, isMerged, bind_at?_cons]
    exact below.joined

theorem layeredAt_over (nested : upper.Nested) (lower : Option Value) (path : List Value) :
    LayeredAt lower upper (Value.over lower upper) path := by
  induction path generalizing lower upper with
  | nil => exact layeredAt_nil lower upper
  | cons key rest ih =>
      cases isUpper : upper.fields? with
      | none =>
          rw [over_of_leaf isUpper]
          exact layeredAt_leaf isUpper
      | some entries =>
          have merged := child?_over isUpper (nested.distinct isUpper) lower key
          cases isChild : upper.child? key with
          | none =>
              rw [isChild] at merged
              exact layeredAt_absent isUpper isChild merged
          | some child =>
              rw [isChild] at merged
              exact layeredAt_child isUpper isChild merged (ih (nested.child? isChild) _)

end LayeredAt

end Value

namespace Entries

/-- The keys of the lower map stay in their places, and the new ones follow in the order of the upper
map. -/
theorem map_fst_layer (lower : Entries) {upper : Entries} (distinct : upper.Distinct) :
    (lower.layer upper).map (·.1) =
      lower.map (·.1) ++ (upper.map (·.1)).filter fun key => (lower.get? key).isNone := by
  induction upper generalizing lower with
  | nil => simp [layer]
  | cons entry rest ih =>
      obtain ⟨key, value⟩ := entry
      obtain ⟨fresh, others⟩ := List.pairwise_cons.mp distinct
      have unseen (held : Value) : (rest.map (·.1)).filter (fun other =>
            ((lower.put key held).get? other).isNone) =
          (rest.map (·.1)).filter fun other => (lower.get? other).isNone := by
        apply List.filter_congr
        intro other member
        obtain ⟨entry, inRest, rfl⟩ := List.mem_map.mp member
        rw [get?_put, fresh entry inRest, if_neg Bool.false_ne_true]
      rw [layer, ih _ others, unseen, List.map_cons, List.filter_cons]
      cases found : lower.get? key with
      | none =>
          rw [put_eq_append ((get?_eq_none_iff lower key).mp found)]
          simp
      | some held =>
          rcases map_fst_put key (Value.over (some held) value) lower with same | absent
          · rw [same]
            rfl
          · rw [get?_eq_none absent] at found
            cases found

theorem layer_append (done : Entries) {entries : Entries} (distinct : (done ++ entries).Distinct) :
    done.layer entries = done ++ entries := by
  induction entries generalizing done with
  | nil => simp [layer]
  | cons entry rest ih =>
      obtain ⟨fresh, again⟩ := distinct.next
      rw [layer, get?_eq_none fresh, Value.over_none, put_eq_append fresh, ih _ again,
        List.append_assoc, List.singleton_append]

theorem put_eq_self {entries : Entries} (distinct : entries.Distinct) {entry : Value × Value}
    (member : entry ∈ entries) (isKey : entry.1.sameKey entry.1 = true) :
    entries.put entry.1 entry.2 = entries := by
  induction entries with
  | nil => simp at member
  | cons head rest ih =>
      obtain ⟨fresh, others⟩ := List.pairwise_cons.mp distinct
      rw [put, Value.assign]
      rcases List.mem_cons.mp member with rfl | inRest
      · rw [if_pos isKey]
      · rw [fresh entry inRest, if_neg Bool.false_ne_true]
        exact congrArg (head :: ·) (ih others inRest)

theorem layer_part {entries : Entries} (distinct : entries.Distinct)
    (areKeys : ∀ entry ∈ entries, entry.1.sameKey entry.1 = true)
    (same : ∀ entry ∈ entries, Value.over (some entry.2) entry.2 = entry.2) {part : Entries}
    (subset : part ⊆ entries) : entries.layer part = entries := by
  induction part with
  | nil => rfl
  | cons entry rest ih =>
      obtain ⟨member, others⟩ := List.cons_subset.mp subset
      have isKey := areKeys entry member
      rw [layer, get?_eq_some_of_mem distinct member isKey, same entry member,
        put_eq_self distinct member isKey, ih others]

end Entries

theorem Value.Nested.over_self {value : Value} (nested : value.Nested) :
    Value.over (some value) value = value := by
  induction nested with
  | leaf notOpen => exact Value.over_of_leaf (Value.fields?_of_not_open notOpen) _
  | map distinct areKeys _ same =>
      exact congrArg Value.map (Entries.layer_part distinct areKeys same (List.Subset.refl _))

namespace Entries

def at? (entries : Entries) (path : List Value) : Option Value := (Value.map entries).at? path

def Blocks (entries : Entries) (path : List Value) : Prop := (Value.map entries).Blocks path

/-- What is found at a path, the empty one included, where one nested map was laid over another. Two
maps are layered in turn, with the keys of the lower one first. Anything else that the upper map holds
replaces what is below, and hides it from the paths that go on. -/
structure LayeredAt (base override : Entries) (path : List Value) : Prop where
  replaced : ∀ value, override.at? path = some value → value.fields? = none →
    (base.layer override).at? path = some value
  cut : override.Blocks path → (base.layer override).at? path = none
  kept : override.at? path = none → ¬ override.Blocks path →
    (base.layer override).at? path = base.at? path
  joined : ∀ above below : Entries, override.at? path = some (.map above) →
    base.at? path = some (.map below) →
    (base.layer override).at? path = some (.map (below.layer above))
  adopted : ∀ above : Entries, override.at? path = some (.map above) →
    (∀ below, base.at? path ≠ some (.map below)) →
    (base.layer override).at? path = some (.map above)
  ordered : ∀ above below : Entries, override.at? path = some (.map above) →
    base.at? path = some (.map below) →
    (below.layer above).map (·.1) =
      below.map (·.1) ++ (above.map (·.1)).filter fun key => (below.get? key).isNone

variable {base override : Entries}

theorem layeredAt (nestedBase : (Value.map base).Nested) (nested : (Value.map override).Nested)
    (path : List Value) : LayeredAt base override path := by
  obtain ⟨cut, kept, joined⟩ := Value.layeredAt_over nested (some (.map base)) path
  refine ⟨?_, cut, kept, ?_, ?_, ?_⟩
  · intro value found isLeaf
    exact (joined value found).trans (congrArg some (Value.over_of_leaf isLeaf _))
  · intro above below found beneath
    refine (joined _ found).trans ?_
    rw [Option.bind_some, show (Value.map base).at? path = _ from beneath]
    rfl
  · intro above found noMap
    refine (joined _ found).trans (congrArg some ?_)
    rw [Option.bind_some]
    cases beneath : (Value.map base).at? path with
    | none => exact Value.over_none _
    | some value =>
        apply Value.over_onto_leaf
        rw [Option.eq_none_iff_forall_ne_some]
        intro below isMap
        have isNested : value.Nested := nestedBase.at? beneath
        exact noMap below (beneath.trans (congrArg some (isNested.eq_map isMap)))
  · intro above below found _
    exact map_fst_layer below ((nested.at? found).distinct rfl)

/-- Laying one nested map over another settles every path by what both hold there. A map stays as it
is over itself, over an empty one and below an empty one. -/
theorem layer_by_paths (nestedBase : (Value.map base).Nested)
    (nestedOverride : (Value.map override).Nested) :
    (∀ path, LayeredAt base override path) ∧
      base.layer base = base ∧ base.layer [] = base ∧ layer [] base = base := by
  refine ⟨layeredAt nestedBase nestedOverride, ?_, rfl, ?_⟩
  · exact Value.map.inj nestedBase.over_self
  · exact layer_append [] (nestedBase.distinct rfl)

/-- Two sections, and a flag. -/
def plainSettings : Entries :=
  [("logging", .map [("level", "INFO"), ("format", "json")]), ("diff", .map [("names", .int 5)]),
    ("strict", .bool true)]

/-- The same names in another order: a map in the place of the flag, nothing in that of a section, and
a section with another level and a further key. -/
def otherSettings : Entries :=
  [("strict", .map [("names", .bool false)]), ("diff", .null),
    ("logging", .map [("colour", .bool true), ("level", .null)])]

theorem plainSettings_nested : (Value.map plainSettings).Nested := by
  refine .map (by decide) (by decide) ?_
  simp only [plainSettings, List.forall_mem_cons]
  exact ⟨.flat (by decide) (by decide) (by decide), .flat (by decide) (by decide) (by decide),
    .leaf rfl, nofun⟩

theorem otherSettings_nested : (Value.map otherSettings).Nested := by
  refine .map (by decide) (by decide) ?_
  simp only [otherSettings, List.forall_mem_cons]
  exact ⟨.flat (by decide) (by decide) (by decide), .leaf rfl,
    .flat (by decide) (by decide) (by decide), nofun⟩

theorem layer_by_paths_of_settings :
    (Value.map plainSettings).Nested ∧ (Value.map otherSettings).Nested ∧
      (∀ path, LayeredAt plainSettings otherSettings path) ∧
      plainSettings.layer plainSettings = plainSettings ∧
      plainSettings.layer [] = plainSettings ∧ layer [] plainSettings = plainSettings :=
  ⟨plainSettings_nested, otherSettings_nested,
    layer_by_paths plainSettings_nested otherSettings_nested⟩

end Entries

end ApiSurface
