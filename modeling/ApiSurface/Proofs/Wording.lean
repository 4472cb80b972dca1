import ApiSurface.Change
import Mathlib.Data.List.Basic
import Mathlib.Data.List.DropRight

/-! What a sentence tells. The segments of a change are read back from its sentence one after the
other: each begins with words that no other one begins with, a quoted name ends at the next quote, and
the name behind a move at the next comma. -/

namespace ApiSurface

namespace Text

def closingQuote : CodePoint := CodePoint.ofChar '”'

def comma : CodePoint := CodePoint.ofChar ','

/-- Neither text is the beginning of the other one. -/
def Diverge (left right : Text) : Prop := ¬ left <+: right ∧ ¬ right <+: left

instance (left right : Text) : Decidable (Diverge left right) := inferInstanceAs (Decidable (_ ∧ _))

theorem Diverge.ne {left right : Text} (apart : Diverge left right) (rest rest' : Text) :
    left ++ rest ≠ right ++ rest' := by
  intro same
  have onRight : right <+: left ++ rest := same ▸ List.prefix_append right rest'
  rcases List.prefix_or_prefix_of_prefix (List.prefix_append left rest) onRight with first | second
  · exact apart.1 first
  · exact apart.2 second

theorem until_inj {stop : CodePoint} {left right rest rest' : Text} (leftFree : stop ∉ left)
    (rightFree : stop ∉ right) (same : left ++ stop :: rest = right ++ stop :: rest') :
    left = right ∧ rest = rest' := by
  induction left generalizing right with
  | nil =>
      cases right with
      | nil => exact ⟨rfl, (List.cons.inj same).2⟩
      | cons head tail =>
          exact absurd ((List.cons.inj same).1 ▸ List.mem_cons_self) rightFree
  | cons head tail ih =>
      cases right with
      | nil => exact absurd ((List.cons.inj same).1 ▸ List.mem_cons_self) leftFree
      | cons head' tail' =>
          obtain ⟨heads, tails⟩ := List.cons.inj same
          have rests := ih (fun inTail => leftFree (List.mem_cons_of_mem _ inTail))
            (fun inTail => rightFree (List.mem_cons_of_mem _ inTail)) tails
          exact ⟨by rw [heads, rests.1], rests.2⟩

theorem join_cons (separator part : Text) (parts : List Text) :
    join separator (part :: parts) = part ++ parts.flatMap (separator ++ ·) := by
  induction parts generalizing part with
  | nil => simp [join]
  | cons next rest ih =>
      unfold join at ih ⊢
      rw [List.intercalate_cons_cons, ih, List.flatMap_cons, List.append_assoc, List.append_assoc]

/-- What stands behind the last dot, where there is one, or the whole text. -/
theorem afterLastDot_eq_iff {text rest : Text} : text.afterLastDot = rest ↔
    CodePoint.ofChar '.' ∉ rest ∧
      (text = rest ∨ ∃ before, text = before ++ CodePoint.ofChar '.' :: rest) := by
  constructor
  · rintro rfl
    have undotted : CodePoint.ofChar '.' ∉ text.afterLastDot := fun inside => by
      simpa using List.mem_rtakeWhile_imp inside
    have parts : text.rdropWhile (· != CodePoint.ofChar '.') ++ text.afterLastDot = text :=
      List.rdropWhile_append_rtakeWhile
    refine ⟨undotted, ?_⟩
    rcases List.eq_nil_or_concat (text.rdropWhile (· != CodePoint.ofChar '.')) with
      nothing | ⟨before, last, ends⟩
    · rw [nothing] at parts
      exact .inl parts.symm
    · rw [List.concat_eq_append] at ends
      have isDot := List.rdropWhile_last_not (· != CodePoint.ofChar '.') text (by simp [ends])
      simp only [ends, List.getLast_append_singleton, bne_iff_ne, not_not] at isDot
      rw [ends, isDot, List.append_assoc] at parts
      exact .inr ⟨before, parts.symm⟩
  · rintro ⟨undotted, rfl | ⟨before, rfl⟩⟩
    · exact List.rtakeWhile_eq_self_iff.mpr fun point member => by
        simpa using ne_of_mem_of_not_mem member undotted
    · have rest_taken : ∀ point ∈ rest.reverse, (point != CodePoint.ofChar '.') = true := by
        intro point member
        simpa using ne_of_mem_of_not_mem (List.mem_reverse.mp member) undotted
      rw [afterLastDot, List.reverse_append, List.reverse_cons, List.append_assoc,
        List.takeWhile_append_of_pos rest_taken]
      simp

theorem mem_of_mem_afterLastDot {text : Text} {point : CodePoint}
    (member : point ∈ text.afterLastDot) : point ∈ text := by
  rcases (afterLastDot_eq_iff.mp (Eq.refl text.afterLastDot)).2 with whole | ⟨before, behind⟩
  · rwa [whole]
  · rw [behind]
    exact List.mem_append_right _ (List.mem_cons_of_mem _ member)

end Text

namespace Change

open Text

/-- Segments behind others, up to the full stop. -/
def trail (segments : List Text) : Text := segments.flatMap ((", " : Text) ++ ·) ++ "."

theorem trail_cons (segment : Text) (rest : List Text) :
    trail (segment :: rest) = (", " : Text) ++ (segment ++ trail rest) := by
  simp only [trail, List.flatMap_cons, List.append_assoc]

/-- Every segment begins with one of the marks. -/
def Opens (marks segments : List Text) : Prop :=
  ∀ segment ∈ segments, ∃ mark ∈ marks, mark <+: segment

theorem Opens.append {marks first second : List Text} (left : Opens marks first)
    (right : Opens marks second) : Opens marks (first ++ second) :=
  List.forall_mem_append.mpr ⟨left, right⟩

theorem Opens.mono {marks more segments : List Text} (opens : Opens marks segments)
    (subset : marks ⊆ more) : Opens more segments := by
  intro segment member
  obtain ⟨mark, among, isPrefix⟩ := opens segment member
  exact ⟨mark, subset among, isPrefix⟩

/-- A segment that begins with a mark of its own does not lead a trail with other marks. -/
theorem trail_ne {marks rest : List Text} (opens : Opens marks rest) {mark : Text}
    (apart : ∀ other ∈ marks, Diverge mark other) (tail : Text) :
    (", " : Text) ++ (mark ++ tail) ≠ trail rest := by
  cases rest with
  | nil =>
      have noStop : Diverge ", " "." := by decide
      exact noStop.ne _ []
  | cons segment rest =>
      obtain ⟨other, among, after, rfl⟩ := opens segment List.mem_cons_self
      rw [trail_cons, Ne, List.append_cancel_left_eq, List.append_assoc]
      exact (apart other among).ne _ _

section Slots

variable {marks rest rest' : List Text}

theorem flagSegment_opens (onTrue onFalse : Text) (flag : Option Bool) :
    Opens [onTrue, onFalse] (flagSegment onTrue onFalse flag) := by
  rcases flag with _ | _ | _ <;> simp [Opens, flagSegment]

theorem flag_told {onTrue onFalse : Text} (different : Diverge onTrue onFalse)
    (opens : Opens marks rest) (opens' : Opens marks rest')
    (apart : ∀ flag : Bool, ∀ other ∈ marks, Diverge (if flag then onTrue else onFalse) other)
    {flag flag' : Option Bool} (same : trail (flagSegment onTrue onFalse flag ++ rest) =
      trail (flagSegment onTrue onFalse flag' ++ rest')) :
    flag = flag' ∧ trail rest = trail rest' := by
  have told (flag : Bool) (rest : List Text) : trail (flagSegment onTrue onFalse (some flag) ++ rest) =
      (", " : Text) ++ ((if flag then onTrue else onFalse) ++ trail rest) := by
    cases flag <;> exact trail_cons _ _
  cases flag with
  | none =>
      cases flag' with
      | none => exact ⟨rfl, same⟩
      | some flag' =>
          rw [told] at same
          exact absurd same.symm (trail_ne opens (apart flag') _)
  | some flag =>
      rw [told] at same
      cases flag' with
      | none => exact absurd same (trail_ne opens' (apart flag) _)
      | some flag' =>
          rw [told, List.append_cancel_left_eq] at same
          cases flag <;> cases flag'
          · exact ⟨rfl, List.append_cancel_left same⟩
          · exact absurd same.symm (different.ne _ _)
          · exact absurd same (different.ne _ _)
          · exact ⟨rfl, List.append_cancel_left same⟩

/-- What stands between a label and the first quoted name, by which of the two values are there. -/
def pairStart : Bool → Bool → Text
  | true, true => " changed from “"
  | false, true => " set to “"
  | true, false => " “"
  | false, false => []

theorem pairStart_apart : ∀ before after before' after' : Bool, (before || after) = true →
    (before' || after') = true → ¬ (before = before' ∧ after = after') →
    Diverge (pairStart before after) (pairStart before' after') := by decide

theorem trail_changed (label old new : Text) (rest : List Text) :
    trail (pairSegment label (some old) (some new) ++ rest) =
      (", " : Text) ++ (label ++ (pairStart true true ++ (old ++ closingQuote ::
        ((" to “" : Text) ++ (new ++ closingQuote :: trail rest))))) := by
  rw [pairSegment, List.singleton_append, trail_cons]
  simp only [List.append_assoc]
  rfl

theorem trail_set (label new : Text) (rest : List Text) :
    trail (pairSegment label none (some new) ++ rest) =
      (", " : Text) ++ (label ++ (pairStart false true ++ (new ++ closingQuote :: trail rest))) := by
  rw [pairSegment, List.singleton_append, trail_cons]
  simp only [List.append_assoc]
  rfl

theorem trail_unset (label old : Text) (rest : List Text) :
    trail (pairSegment label (some old) none ++ rest) =
      (", " : Text) ++ (label ++ (pairStart true false ++ (old ++ closingQuote ::
        ((" removed" : Text) ++ trail rest)))) := by
  rw [pairSegment, List.singleton_append, trail_cons]
  simp only [List.append_assoc]
  rfl

theorem pairSegment_opens (label : Text) (old new : Option Text) :
    Opens [label] (pairSegment label old new) := by
  rcases old with _ | old <;> rcases new with _ | new <;>
    simp only [Opens, pairSegment, List.append_assoc, List.not_mem_nil, List.mem_singleton,
      false_imp_iff, implies_true, forall_eq, exists_eq_left, List.prefix_append]

theorem pair_absent_or_starts (label : Text) (old new : Option Text) (rest : List Text) :
    old = none ∧ new = none ∨ (old.isSome || new.isSome) = true ∧ ∃ tail : Text,
      trail (pairSegment label old new ++ rest) =
        (", " : Text) ++ (label ++ (pairStart old.isSome new.isSome ++ tail)) := by
  cases old with
  | none =>
      cases new with
      | none => exact .inl ⟨rfl, rfl⟩
      | some new => exact .inr ⟨rfl, _, trail_set label new rest⟩
  | some old =>
      cases new with
      | none => exact .inr ⟨rfl, _, trail_unset label old rest⟩
      | some new => exact .inr ⟨rfl, _, trail_changed label old new rest⟩

variable {label : Text} {old new old' new' : Option Text}

theorem pair_shape_told (opens : Opens marks rest) (opens' : Opens marks rest')
    (apart : ∀ other ∈ marks, Diverge label other)
    (same : trail (pairSegment label old new ++ rest) = trail (pairSegment label old' new' ++ rest')) :
    old.isSome = old'.isSome ∧ new.isSome = new'.isSome := by
  rcases pair_absent_or_starts label old new rest with ⟨rfl, rfl⟩ | ⟨present, tail, starts⟩
  · rcases pair_absent_or_starts label old' new' rest' with ⟨rfl, rfl⟩ | ⟨_, tail', starts'⟩
    · exact ⟨rfl, rfl⟩
    · rw [starts'] at same
      exact absurd same.symm (trail_ne opens apart _)
  · rw [starts] at same
    rcases pair_absent_or_starts label old' new' rest' with ⟨rfl, rfl⟩ | ⟨present', tail', starts'⟩
    · exact absurd same (trail_ne opens' apart _)
    · rw [starts', List.append_cancel_left_eq, List.append_cancel_left_eq] at same
      by_contra different
      exact (pairStart_apart _ _ _ _ present present' different).ne _ _ same

theorem pair_told (opens : Opens marks rest) (opens' : Opens marks rest')
    (apart : ∀ other ∈ marks, Diverge label other)
    (oldFree : ∀ name ∈ old, closingQuote ∉ name) (newFree : ∀ name ∈ new, closingQuote ∉ name)
    (oldFree' : ∀ name ∈ old', closingQuote ∉ name) (newFree' : ∀ name ∈ new', closingQuote ∉ name)
    (same : trail (pairSegment label old new ++ rest) = trail (pairSegment label old' new' ++ rest')) :
    old = old' ∧ new = new' ∧ trail rest = trail rest' := by
  obtain ⟨sameOld, sameNew⟩ := pair_shape_told opens opens' apart same
  rcases old with _ | old <;> rcases old' with _ | old' <;> try cases sameOld
  · rcases new with _ | new <;> rcases new' with _ | new' <;> try cases sameNew
    · exact ⟨rfl, rfl, same⟩
    · simp only [trail_set, List.append_cancel_left_eq] at same
      obtain ⟨rfl, rests⟩ := until_inj (newFree new rfl) (newFree' new' rfl) same
      exact ⟨rfl, rfl, rests⟩
  · rcases new with _ | new <;> rcases new' with _ | new' <;> try cases sameNew
    · simp only [trail_unset, List.append_cancel_left_eq] at same
      obtain ⟨rfl, rests⟩ := until_inj (oldFree old rfl) (oldFree' old' rfl) same
      exact ⟨rfl, rfl, List.append_cancel_left rests⟩
    · simp only [trail_changed, List.append_cancel_left_eq] at same
      obtain ⟨rfl, news⟩ := until_inj (oldFree old rfl) (oldFree' old' rfl) same
      obtain ⟨rfl, rests⟩ := until_inj (newFree new rfl) (newFree' new' rfl)
        (List.append_cancel_left news)
      exact ⟨rfl, rfl, rests⟩

theorem trail_stop_or_comma (rest : List Text) :
    rest = [] ∧ trail rest = "." ∨ ∃ tail : Text, trail rest = comma :: tail := by
  cases rest with
  | nil => exact .inl ⟨rfl, rfl⟩
  | cons segment rest => exact .inr ⟨_, trail_cons segment rest⟩

theorem destination_told {name name' : Text} (free : comma ∉ name) (free' : comma ∉ name')
    (same : name ++ trail rest = name' ++ trail rest') :
    name = name' ∧ trail rest = trail rest' := by
  have stops {name : Text} (free : comma ∉ name) : comma ∉ name ++ ("." : Text) := by
    rw [List.mem_append]
    exact not_or.mpr ⟨free, by decide⟩
  rcases trail_stop_or_comma rest with ⟨_, ends⟩ | ⟨tail, goesOn⟩
  · rcases trail_stop_or_comma rest' with ⟨_, ends'⟩ | ⟨tail', goesOn'⟩
    · rw [ends, ends'] at same ⊢
      exact ⟨List.append_cancel_right same, rfl⟩
    · rw [ends, goesOn'] at same
      exact absurd (same ▸ List.mem_append_right name' List.mem_cons_self) (stops free)
  · rcases trail_stop_or_comma rest' with ⟨_, ends'⟩ | ⟨tail', goesOn'⟩
    · rw [goesOn, ends'] at same
      exact absurd (same ▸ List.mem_append_right name List.mem_cons_self) (stops free')
    · rw [goesOn, goesOn'] at same ⊢
      obtain ⟨names, tails⟩ := until_inj free free' same
      exact ⟨names, congrArg (comma :: ·) tails⟩

end Slots

/-- No quoted name holds the closing quote, and the name behind a move holds no comma. -/
structure Legible (change : Change) : Prop where
  oldIdentifier : ∀ name ∈ change.oldIdentifier, closingQuote ∉ name
  newIdentifier : ∀ name ∈ change.newIdentifier, closingQuote ∉ name
  oldType : ∀ name ∈ change.oldType, closingQuote ∉ name
  newType : ∀ name ∈ change.newType, closingQuote ∉ name
  movedTo : ∀ name ∈ change.movedTo, comma ∉ name

/-- The changes agree on what is told of them. A move stands for the identifier and the obligation,
and a type is told without its package. -/
structure TellsAlike (left right : Change) : Prop where
  isDeprecated : left.isDeprecated = right.isDeprecated
  movedTo : left.movedTo = right.movedTo
  annotation : left.movedTo = none →
    left.oldIdentifier = right.oldIdentifier ∧ left.newIdentifier = right.newIdentifier ∧
      left.oldObligation = right.oldObligation ∧ left.newObligation = right.newObligation
  oldType : left.oldType.map afterLastDot = right.oldType.map afterLastDot
  newType : left.newType.map afterLastDot = right.newType.map afterLastDot
  isPublic : left.isPublic = right.isPublic

/-- The segments behind the annotation. -/
def ending (change : Change) : List Text :=
  pairSegment change.typeLabel (change.oldType.map afterLastDot) (change.newType.map afterLastDot)
    ++ flagSegment "Made public" "Made protected" change.isPublic

/-- What is told of the identifier and the obligation where there is no move. -/
def annotationPairs (change : Change) : List Text :=
  pairSegment "OGC/ISO identifier" change.oldIdentifier change.newIdentifier
    ++ pairSegment "Obligation" (change.oldObligation.map Obligation.label)
      (change.newObligation.map Obligation.label)

theorem annotationSegments_eq_pairs {change : Change} (stays : change.movedTo = none) :
    change.annotationSegments = change.annotationPairs := by
  rw [annotationSegments, stays]
  rfl

theorem trail_moved {change : Change} {name : Text} (moved : change.movedTo = some name)
    (rest : List Text) : trail (change.annotationSegments ++ rest) =
      (", " : Text) ++ (("UML annotation moved to " : Text) ++ (name ++ trail rest)) := by
  rw [annotationSegments, moved, List.singleton_append, trail_cons, List.append_assoc]

theorem segments_eq (change : Change) :
    change.segments = flagSegment "Deprecated" "Not deprecated anymore" change.isDeprecated ++
      (change.annotationSegments ++ change.ending) := by
  simp only [segments, ending, List.append_assoc]

def typeLabels : List Text := ["Return type", "Type", "Parent"]

def publicMarks : List Text := ["Made public", "Made protected"]

def annotationLabels : List Text := ["OGC/ISO identifier", "Obligation"]

def annotationMarks : List Text := "UML annotation moved to " :: annotationLabels

def deprecatedMarks : List Text := ["Deprecated", "Not deprecated anymore"]

theorem typeLabel_mem (change : Change) : change.typeLabel ∈ typeLabels := by
  unfold typeLabel
  split
  next => exact List.mem_cons_self
  next =>
    split
    next => exact List.mem_cons_of_mem _ List.mem_cons_self
    next => exact List.mem_cons_of_mem _ (List.mem_cons_of_mem _ List.mem_cons_self)

theorem ending_opens (change : Change) : Opens (typeLabels ++ publicMarks) change.ending := by
  refine .append ((pairSegment_opens _ _ _).mono ?_) ((flagSegment_opens _ _ _).mono ?_)
  · intro mark isLabel
    rw [List.mem_singleton.mp isLabel]
    exact List.mem_append_left _ change.typeLabel_mem
  · exact List.subset_append_right _ _

theorem annotationPairs_opens (change : Change) :
    Opens annotationLabels change.annotationPairs := by
  refine .append ((pairSegment_opens _ _ _).mono ?_) ((pairSegment_opens _ _ _).mono ?_)
  · decide
  · decide

theorem annotationSegments_opens (change : Change) :
    Opens annotationMarks change.annotationSegments := by
  cases moved : change.movedTo with
  | none =>
      rw [annotationSegments_eq_pairs moved]
      exact change.annotationPairs_opens.mono (List.subset_cons_self _ _)
  | some name =>
      rw [annotationSegments, moved]
      intro segment isMove
      rw [List.mem_singleton.mp isMove]
      exact ⟨_, List.mem_cons_self, List.prefix_append _ name⟩

theorem segments_opens (change : Change) :
    Opens (deprecatedMarks ++ (annotationMarks ++ (typeLabels ++ publicMarks))) change.segments := by
  rw [segments_eq]
  refine .append ((flagSegment_opens _ _ _).mono (List.subset_append_left _ _)) ?_
  refine .mono ?_ (List.subset_append_right _ _)
  exact .append (change.annotationSegments_opens.mono (List.subset_append_left _ _))
    (change.ending_opens.mono (List.subset_append_right _ _))

theorem closingQuote_notMem_afterLastDot {type : Option Text}
    (free : ∀ name ∈ type, closingQuote ∉ name) :
    ∀ name ∈ type.map afterLastDot, closingQuote ∉ name := by
  intro name member inside
  obtain ⟨full, isFull, rfl⟩ := Option.map_eq_some_iff.mp member
  exact free full isFull (mem_of_mem_afterLastDot inside)

theorem closingQuote_notMem_label {obligation : Option Obligation} :
    ∀ name ∈ obligation.map Obligation.label, closingQuote ∉ name := by
  intro name member
  obtain ⟨known, _, rfl⟩ := Option.map_eq_some_iff.mp member
  cases known <;> decide

theorem label_injective : Function.Injective Obligation.label := by
  intro left right
  cases left <;> cases right <;> decide

section Reading

variable {left right : Change}

theorem ending_told (sameKind : right.kind = left.kind) (legible : left.Legible)
    (legible' : right.Legible) (same : trail left.ending = trail right.ending) :
    left.oldType.map afterLastDot = right.oldType.map afterLastDot ∧
      left.newType.map afterLastDot = right.newType.map afterLastDot ∧
      left.isPublic = right.isPublic := by
  have sameLabel : right.typeLabel = left.typeLabel := by simp only [typeLabel, sameKind]
  have apart : ∀ label ∈ typeLabels, ∀ other ∈ publicMarks, Diverge label other := by decide
  rw [ending, ending, sameLabel] at same
  obtain ⟨olds, news, publics⟩ := pair_told (flagSegment_opens _ _ _) (flagSegment_opens _ _ _)
    (apart _ left.typeLabel_mem) (closingQuote_notMem_afterLastDot legible.oldType)
    (closingQuote_notMem_afterLastDot legible.newType)
    (closingQuote_notMem_afterLastDot legible'.oldType)
    (closingQuote_notMem_afterLastDot legible'.newType) same
  rw [← List.append_nil (flagSegment _ _ left.isPublic),
    ← List.append_nil (flagSegment _ _ right.isPublic)] at publics
  have atEnd : Opens [] [] := nofun
  have flags := flag_told (by decide) atEnd atEnd nofun publics
  exact ⟨olds, news, flags.1⟩

theorem annotationPairs_told {rest rest' : List Text}
    (opens : Opens (typeLabels ++ publicMarks) rest)
    (opens' : Opens (typeLabels ++ publicMarks) rest') (legible : left.Legible)
    (legible' : right.Legible)
    (same : trail (left.annotationPairs ++ rest) = trail (right.annotationPairs ++ rest')) :
    (left.oldIdentifier = right.oldIdentifier ∧ left.newIdentifier = right.newIdentifier ∧
      left.oldObligation = right.oldObligation ∧ left.newObligation = right.newObligation) ∧
      trail rest = trail rest' := by
  simp only [annotationPairs, List.append_assoc] at same
  have more {rest : List Text} (opens : Opens (typeLabels ++ publicMarks) rest)
      (old new : Option Text) : Opens ("Obligation" :: (typeLabels ++ publicMarks))
        (pairSegment "Obligation" old new ++ rest) :=
    .append ((pairSegment_opens _ _ _).mono (List.cons_subset_cons _ (List.nil_subset _)))
      (opens.mono (List.subset_cons_self _ _))
  obtain ⟨oldNames, newNames, obligations⟩ := pair_told (more opens _ _) (more opens' _ _)
    (by decide) legible.oldIdentifier legible.newIdentifier legible'.oldIdentifier
    legible'.newIdentifier same
  obtain ⟨olds, news, rests⟩ := pair_told opens opens' (by decide) closingQuote_notMem_label
    closingQuote_notMem_label closingQuote_notMem_label closingQuote_notMem_label obligations
  exact ⟨⟨oldNames, newNames, Option.map_injective label_injective olds,
    Option.map_injective label_injective news⟩, rests⟩

theorem annotation_told {rest rest' : List Text} (opens : Opens (typeLabels ++ publicMarks) rest)
    (opens' : Opens (typeLabels ++ publicMarks) rest') (legible : left.Legible)
    (legible' : right.Legible)
    (same : trail (left.annotationSegments ++ rest) = trail (right.annotationSegments ++ rest')) :
    left.movedTo = right.movedTo ∧
      (left.movedTo = none → left.oldIdentifier = right.oldIdentifier ∧
        left.newIdentifier = right.newIdentifier ∧ left.oldObligation = right.oldObligation ∧
        left.newObligation = right.newObligation) ∧ trail rest = trail rest' := by
  have apart : ∀ other ∈ annotationLabels ++ (typeLabels ++ publicMarks),
      Diverge "UML annotation moved to " other := by decide
  have pairsOpen {change : Change} {rest : List Text}
      (opens : Opens (typeLabels ++ publicMarks) rest) :
      Opens (annotationLabels ++ (typeLabels ++ publicMarks)) (change.annotationPairs ++ rest) :=
    .append (change.annotationPairs_opens.mono (List.subset_append_left _ _))
      (opens.mono (List.subset_append_right _ _))
  cases moved : left.movedTo with
  | none =>
      rw [annotationSegments_eq_pairs moved] at same
      cases moved' : right.movedTo with
      | none =>
          rw [annotationSegments_eq_pairs moved'] at same
          obtain ⟨annotations, rests⟩ := annotationPairs_told opens opens' legible legible' same
          exact ⟨rfl, fun _ => annotations, rests⟩
      | some name' =>
          rw [trail_moved moved'] at same
          exact absurd same.symm (trail_ne (pairsOpen opens) apart _)
  | some name =>
      rw [trail_moved moved] at same
      cases moved' : right.movedTo with
      | none =>
          rw [annotationSegments_eq_pairs moved'] at same
          exact absurd same (trail_ne (pairsOpen opens') apart _)
      | some name' =>
          rw [trail_moved moved', List.append_cancel_left_eq, List.append_cancel_left_eq] at same
          obtain ⟨rfl, rests⟩ := destination_told (legible.movedTo name moved)
            (legible'.movedTo name' moved') same
          exact ⟨rfl, nofun, rests⟩

theorem segments_told (sameKind : right.kind = left.kind) (legible : left.Legible)
    (legible' : right.Legible) (same : trail left.segments = trail right.segments) :
    left.TellsAlike right := by
  rw [segments_eq, segments_eq] at same
  obtain ⟨deprecations, annotated⟩ := flag_told (by decide)
    ((left.annotationSegments_opens.mono (List.subset_append_left _ _)).append
      (left.ending_opens.mono (List.subset_append_right _ _)))
    ((right.annotationSegments_opens.mono (List.subset_append_left _ _)).append
      (right.ending_opens.mono (List.subset_append_right _ _))) (by decide) same
  obtain ⟨moves, annotations, endings⟩ :=
    annotation_told left.ending_opens right.ending_opens legible legible' annotated
  obtain ⟨olds, news, publics⟩ := ending_told sameKind legible legible' endings
  exact ⟨deprecations, moves, annotations, olds, news, publics⟩

theorem TellsAlike.segments_eq (alike : left.TellsAlike right) (sameKind : right.kind = left.kind) :
    left.segments = right.segments := by
  have sameLabel : right.typeLabel = left.typeLabel := by simp only [typeLabel, sameKind]
  have annotations : left.annotationSegments = right.annotationSegments := by
    cases moved : left.movedTo with
    | none =>
        obtain ⟨oldNames, newNames, olds, news⟩ := alike.annotation moved
        rw [annotationSegments_eq_pairs moved, annotationSegments_eq_pairs (alike.movedTo ▸ moved),
          annotationPairs, annotationPairs, oldNames, newNames, olds, news]
    | some name =>
        have moved' : right.movedTo = some name := alike.movedTo ▸ moved
        rw [annotationSegments, annotationSegments, moved, moved']
  rw [segments, segments, annotations, sameLabel, alike.isDeprecated, alike.oldType, alike.newType,
    alike.isPublic]

end Reading

section Sentences

variable {change : Change}

theorem sentence_of_segments (stays : change.isRemoved = false) :
    change.segments = [] ∧ change.sentence = "." ∨ ∃ segment rest,
      change.segments = segment :: rest ∧ change.sentence = segment ++ trail rest := by
  rw [sentence, stays, if_neg Bool.false_ne_true]
  cases change.segments with
  | nil => exact .inl ⟨rfl, rfl⟩
  | cons segment rest =>
      refine .inr ⟨segment, rest, rfl, ?_⟩
      rw [Text.join_cons, List.append_assoc]
      rfl

theorem sentence_ne {text : Text} (stays : change.isRemoved = false)
    (apart : ∀ mark ∈ deprecatedMarks ++ (annotationMarks ++ (typeLabels ++ publicMarks)),
      Diverge mark text) (told : change.segments ≠ []) : change.sentence ≠ text := by
  rcases sentence_of_segments stays with ⟨empty, _⟩ | ⟨segment, rest, isFirst, isSentence⟩
  · exact absurd empty told
  · obtain ⟨mark, among, tail, rfl⟩ := change.segments_opens segment (by simp [isFirst])
    rw [isSentence, List.append_assoc, ← List.append_nil text]
    exact (apart mark among).ne _ []

theorem sentence_eq_stop_iff (stays : change.isRemoved = false) :
    change.sentence = "." ↔ change.segments = [] := by
  constructor
  · intro isStop
    by_contra told
    exact sentence_ne stays (by decide) told isStop
  · intro empty
    rw [sentence, stays, empty]
    rfl

theorem pairSegment_eq_nil_iff (label : Text) (old new : Option Text) :
    pairSegment label old new = [] ↔ old = none ∧ new = none := by
  cases old <;> cases new <;> simp [pairSegment]

theorem flagSegment_eq_nil_iff (onTrue onFalse : Text) (flag : Option Bool) :
    flagSegment onTrue onFalse flag = [] ↔ flag = none := by
  rcases flag with _ | _ | _ <;> simp [flagSegment]

theorem segments_eq_nil_iff (stays : change.isRemoved = false) :
    change.segments = [] ↔ change.isEmpty = true ∧ change.movedTo = none := by
  cases moved : change.movedTo with
  | none =>
      rw [segments_eq, annotationSegments_eq_pairs moved]
      simp only [annotationPairs, ending, List.append_eq_nil_iff, flagSegment_eq_nil_iff,
        pairSegment_eq_nil_iff, Option.map_eq_none_iff, isEmpty, stays, Bool.not_false,
        Bool.and_eq_true, Option.isNone_iff_eq_none]
      tauto
  | some name => simp [segments, annotationSegments, moved]

theorem trail_eq_of_sentence_eq {left right : Change} (stays : left.isRemoved = false)
    (stays' : right.isRemoved = false) (same : left.sentence = right.sentence) :
    trail left.segments = trail right.segments := by
  rcases sentence_of_segments stays with ⟨empty, isStop⟩ | ⟨segment, rest, isFirst, isSentence⟩
  · rw [isStop, eq_comm, sentence_eq_stop_iff stays'] at same
    rw [empty, same]
  · rcases sentence_of_segments stays' with
      ⟨empty', isStop'⟩ | ⟨segment', rest', isFirst', isSentence'⟩
    · rw [isStop', sentence_eq_stop_iff stays] at same
      rw [empty', same]
    · rw [isFirst, isFirst', trail_cons, trail_cons, ← isSentence, ← isSentence', same]

end Sentences

/-- As long as no name holds the mark that ends it, two changes of one kind have the same sentence
exactly if they agree on what is told of them. The sentence is a mere full stop exactly if nothing
changed, and it is never that of an addition or a removal. -/
theorem sentence_unambiguous {left : Change} (stays : left.isRemoved = false) :
    (left.sentence = "." ↔ left.isEmpty = true ∧ left.movedTo = none) ∧
    left.sentence ≠ "Added." ∧ left.sentence ≠ "Removed." ∧
    ∀ right : Change, right.isRemoved = false → right.kind = left.kind → left.Legible →
      right.Legible → (left.sentence = right.sentence ↔ left.TellsAlike right) := by
  have noOther {text : Text} (isNoStop : ("." : Text) ≠ text)
      (apart : ∀ mark ∈ deprecatedMarks ++ (annotationMarks ++ (typeLabels ++ publicMarks)),
        Diverge mark text) : left.sentence ≠ text := by
    by_cases told : left.segments = []
    · rwa [(sentence_eq_stop_iff stays).mpr told]
    · exact sentence_ne stays apart told
  refine ⟨?_, noOther (by decide) (by decide), noOther (by decide) (by decide), ?_⟩
  · rw [sentence_eq_stop_iff stays, segments_eq_nil_iff stays]
  · intro right stays' sameKind legible legible'
    constructor
    · intro same
      exact segments_told sameKind legible legible' (trail_eq_of_sentence_eq stays stays' same)
    · intro alike
      rw [sentence, sentence, stays, stays', alike.segments_eq sameKind]

/-- A field with a type of that name, from one package or another, whose annotation moved. -/
def retypedFrom (oldType : Text) : Change where
  kind := .field
  oldIdentifier := some "title"
  oldObligation := some .optional
  oldType := some oldType
  newType := some "p.Label"
  movedTo := some "label"

theorem sentence_unambiguous_of_retyped :
    (retypedFrom "p.Text").isRemoved = false ∧ (retypedFrom "q.Text").isRemoved = false ∧
      (retypedFrom "q.Text").kind = (retypedFrom "p.Text").kind ∧
      (retypedFrom "p.Text").Legible ∧ (retypedFrom "q.Text").Legible ∧
      ((retypedFrom "p.Text").sentence = "." ↔
        (retypedFrom "p.Text").isEmpty = true ∧ (retypedFrom "p.Text").movedTo = none) ∧
      (retypedFrom "p.Text").sentence ≠ "Added." ∧ (retypedFrom "p.Text").sentence ≠ "Removed." ∧
      ((retypedFrom "p.Text").sentence = (retypedFrom "q.Text").sentence ↔
        (retypedFrom "p.Text").TellsAlike (retypedFrom "q.Text")) := by
  have legible : (retypedFrom "p.Text").Legible :=
    ⟨by decide, by decide, by decide, by decide, by decide⟩
  have legible' : (retypedFrom "q.Text").Legible :=
    ⟨by decide, by decide, by decide, by decide, by decide⟩
  obtain ⟨stop, added, removed, unambiguous⟩ :=
    sentence_unambiguous (rfl : (retypedFrom "p.Text").isRemoved = false)
  exact ⟨rfl, rfl, rfl, legible, legible', stop, added, removed,
    unambiguous (retypedFrom "q.Text") rfl rfl legible legible'⟩

end Change

end ApiSurface
