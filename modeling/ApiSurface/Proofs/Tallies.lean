import ApiSurface.Proofs.Accounting
import ApiSurface.Proofs.JoinedText
import ApiSurface.Proofs.Stability

/-! What summaries tell. The numbers by status are those of the entries and can be read back from the
text; of the breaking entries the first ones are named, and all others are counted. -/

namespace ApiSurface

theorem Status.word_injective : Function.Injective Status.word := by
  intro left right same
  cases left <;> cases right <;> first | rfl | exact absurd same (by decide)

/-- How many entries have a status. -/
structure Tally where
  number : Nat
  status : Status

namespace Tally

def shown (tally : Tally) : Text := Text.ofNat tally.number ++ " " ++ tally.status.word

def listed : List Tally → Text
  | [] => "No changes detected"
  | tallies => Text.join ", " (tallies.map shown)

/-- The numbers of the statuses in report order, without those that are zero. -/
def ofNumbers (number : Status → Nat) : List Tally :=
  ([Status.added, .changed, .removed].filter (number · != 0)).map fun status =>
    ⟨number status, status⟩

theorem printed_eq_listed (number : Status → Nat) : printed number = listed (ofNumbers number) := by
  rw [printed, ofNumbers]
  cases [Status.added, .changed, .removed].filter (number · != 0) with
  | nil => rfl
  | cons first others => simp [listed, shown, Function.comp_def]

theorem shown_injective : Function.Injective shown := by
  intro left right same
  have space : ∀ number, CodePoint.ofChar ' ' ∉ Text.ofNat number :=
    Text.notMem_ofNat (by decide)
  rw [shown, shown, List.append_assoc, List.append_assoc] at same
  obtain ⟨numbers, words⟩ := Text.until_inj (space left.number) (space right.number) same
  cases left
  cases right
  simp_all [Text.ofNat_injective.eq_iff, Status.word_injective.eq_iff]

theorem shown_separable (tallies : List Tally) :
    Text.Separable Text.comma (tallies.map shown) := by
  intro part member
  obtain ⟨tally, _, rfl⟩ := List.mem_map.mp member
  have noComma : Text.comma ∉ Text.ofNat tally.number := Text.notMem_ofNat (by decide) _
  have noCommaInWord : Text.comma ∉ (" " : Text) ++ tally.status.word := by
    cases tally.status <;> decide
  rw [shown, List.append_assoc, List.mem_append]
  constructor
  · intro empty
    simp [Text.ofString, Text.ofChars] at empty
  · rintro (inNumber | inWord)
    · exact noComma inNumber
    · exact noCommaInWord inWord

/-- The text without numbers is none with numbers: it begins with a letter. -/
theorem listed_injective : Function.Injective listed := by
  have noNumbers (tally : Tally) (others : List Tally) : listed (tally :: others) ≠ listed [] := by
    intro same
    have letter : CodePoint.ofChar 'N' ∉ Text.ofNat tally.number := Text.notMem_ofNat (by decide) _
    obtain ⟨digit, digits, written⟩ := List.exists_cons_of_ne_nil (Text.ofNat_ne_nil tally.number)
    change Text.join ", " (tally.shown :: others.map shown) = _ at same
    rw [Text.join_cons, shown, written] at same
    have first : digit = CodePoint.ofChar 'N' := (List.cons.inj same).1
    rw [written, first] at letter
    exact letter List.mem_cons_self
  intro left right same
  cases left with
  | nil =>
      cases right with
      | nil => rfl
      | cons tally others => exact absurd same.symm (noNumbers tally others)
  | cons first others =>
      cases right with
      | nil => exact absurd same (noNumbers first others)
      | cons first' others' =>
          apply List.map_injective_iff.mpr shown_injective
          exact Text.join_inj (shown_separable _) (shown_separable _) same

end Tally

/-- The numbers are those of the statuses that occur, in the order of a report. -/
structure Counts (entries : List Entry) (tallies : List Tally) : Prop where
  inOrder : (tallies.map Tally.status).Sublist [.added, .changed, .removed]
  numbers : ∀ tally, tally ∈ tallies ↔
    tally.number = statusCount entries tally.status ∧ 0 < tally.number
  total : (tallies.map Tally.number).sum = entries.length

section Counting

variable (entries : List Entry)

theorem statusCount_total :
    statusCount entries .added + statusCount entries .changed + statusCount entries .removed =
      entries.length := by
  induction entries with
  | nil => rfl
  | cons entry rest ih =>
      simp only [statusCount, List.countP_cons, List.length_cons] at ih ⊢
      -- the entry adds one to the number of its own status alone
      cases entry.status <;>
        simp only [beq_iff_eq, reduceCtorEq, if_true, if_false] <;>
        omega

theorem sum_filter_ne_zero {α : Type} (number : α → Nat) (items : List α) :
    ((items.filter (number · != 0)).map number).sum = (items.map number).sum := by
  induction items with
  | nil => rfl
  | cons item rest ih =>
      by_cases zero : number item = 0
      · rw [List.filter_cons_of_neg (by simp [zero]), ih, List.map_cons, List.sum_cons, zero,
          Nat.zero_add]
      · rw [List.filter_cons_of_pos (by simp [zero]), List.map_cons, List.sum_cons, ih,
          List.map_cons, List.sum_cons]

theorem counts_ofNumbers : Counts entries (Tally.ofNumbers (statusCount entries)) where
  inOrder := by
    simp only [Tally.ofNumbers, List.map_map, Function.comp_def, List.map_id']
    exact List.filter_sublist
  numbers := by
    rintro ⟨number, status⟩
    have anyStatus : status ∈ [Status.added, .changed, .removed] := by cases status <;> simp
    simp only [Tally.ofNumbers, List.mem_map, List.mem_filter, Tally.mk.injEq, bne_iff_ne]
    constructor
    · rintro ⟨_, ⟨_, counted⟩, rfl, rfl⟩
      exact ⟨rfl, Nat.pos_of_ne_zero counted⟩
    · rintro ⟨rfl, positive⟩
      exact ⟨status, ⟨anyStatus, Nat.ne_of_gt positive⟩, rfl, rfl⟩
  total := by
    simp only [Tally.ofNumbers, List.map_map, Function.comp_def]
    rw [sum_filter_ne_zero, ← statusCount_total entries]
    simp [Nat.add_assoc]

/-- A part of a list without repetitions is told by its members. -/
theorem eq_filter_of_sublist {α : Type} [DecidableEq α] {part whole : List α}
    (sub : part.Sublist whole) (distinct : whole.Nodup) : part = whole.filter (· ∈ part) := by
  have kept : part.filter (· ∈ part) = part := List.filter_eq_self.mpr (by simp)
  have inside := sub.filter (· ∈ part)
  rw [kept] at inside
  have perm : part.Perm (whole.filter (· ∈ part)) := by
    apply (List.perm_ext_iff_of_nodup (distinct.sublist sub) (distinct.filter _)).mpr
    intro item
    simp only [List.mem_filter, decide_eq_true_eq, iff_and_self]
    exact fun member => sub.subset member
  exact inside.eq_of_length perm.length_eq

variable {entries} in
theorem Counts.eq_ofNumbers {tallies : List Tally} (counts : Counts entries tallies) :
    tallies = Tally.ofNumbers (statusCount entries) := by
  have numbered (tally : Tally) (member : tally ∈ tallies) :
      (⟨statusCount entries tally.status, tally.status⟩ : Tally) = tally := by
    rw [← ((counts.numbers tally).mp member).1]
  have statuses : tallies.map Tally.status =
      [Status.added, .changed, .removed].filter (statusCount entries · != 0) := by
    rw [eq_filter_of_sublist counts.inOrder (by decide)]
    apply List.filter_congr
    intro status _
    rw [Bool.eq_iff_iff, decide_eq_true_eq, bne_iff_ne, List.mem_map]
    constructor
    · rintro ⟨tally, member, rfl⟩
      obtain ⟨number, positive⟩ := (counts.numbers tally).mp member
      omega
    · intro counted
      exact ⟨⟨statusCount entries status, status⟩,
        (counts.numbers _).mpr ⟨rfl, Nat.pos_of_ne_zero counted⟩, rfl⟩
  rw [Tally.ofNumbers, ← statuses, List.map_map]
  exact ((List.map_congr_left numbered).trans (List.map_id tallies)).symm

theorem summary_eq_listed_iff (tallies : List Tally) :
    summary entries = Tally.listed tallies ↔ Counts entries tallies := by
  rw [summary_eq_printed, Tally.printed_eq_listed, Tally.listed_injective.eq_iff]
  constructor
  · rintro rfl
    exact counts_ofNumbers entries
  · exact fun counts => counts.eq_ofNumbers.symm

end Counting

/-- How many entries are breaking, which of them are named, and how many are not. -/
structure Breakdown where
  count : Nat
  names : List Text
  more : Nat

namespace Breakdown

def noun (count : Nat) : Text :=
  if count = 1 then " incompatible change: " else " incompatible changes: "

def remainder (more : Nat) : Text := if more = 0 then [] else " (and " ++ Text.ofNat more ++ " more)"

def shown (breakdown : Breakdown) : Text :=
  Text.ofNat breakdown.count ++ noun breakdown.count ++ Text.join ", " breakdown.names ++
    remainder breakdown.more

/-- The first breaking entries are named, up to the limit, and all others are counted. -/
structure Covers (breakdown : Breakdown) (entries : List Entry) (limit : Int) : Prop where
  counted : breakdown.count = (entries.filter (·.isBreaking)).length
  named : breakdown.names <+: (entries.filter (·.isBreaking)).map (·.element.name)
  limited : (breakdown.names.length : Int) = min (breakdown.count : Int) limit
  cut : limit < breakdown.count → (breakdown.more : Int) = breakdown.count - limit
  whole : breakdown.count ≤ limit → breakdown.more = 0
  balanced : breakdown.names.length + breakdown.more = breakdown.count

def ofEntries (entries : List Entry) (limit : Nat) : Breakdown where
  count := (entries.filter (·.isBreaking)).length
  names := ((entries.filter (·.isBreaking)).take limit).map (·.element.name)
  more := (entries.filter (·.isBreaking)).length - limit

theorem covers_ofEntries (entries : List Entry) (limit : Nat) :
    (ofEntries entries limit).Covers entries limit where
  counted := rfl
  named := (List.take_prefix _ _).map _
  limited := by
    simp only [ofEntries, List.length_map, List.length_take]
    omega
  cut := by
    simp only [ofEntries]
    omega
  whole := by
    simp only [ofEntries]
    omega
  balanced := by
    simp only [ofEntries, List.length_map, List.length_take]
    omega

theorem breakingSummary?_eq_shown {entries : List Entry} (limit : Nat)
    (breaks : ∃ entry ∈ entries, entry.isBreaking = true) :
    breakingSummary? entries limit = some (ofEntries entries limit).shown := by
  have present : (entries.filter (·.isBreaking)).length ≠ 0 := by
    simpa [List.filter_eq_nil_iff] using breaks
  have taken (items : List Entry) : takeWithin (limit : Int) items = items.take limit := by
    rw [takeWithin, if_neg (by omega), Int.toNat_natCast]
  have ending : (if (limit : Int) < (entries.filter (·.isBreaking)).length then
      (" (and " : Text) ++ Text.ofInt ((entries.filter (·.isBreaking)).length - limit) ++ " more)"
      else "") = remainder ((entries.filter (·.isBreaking)).length - limit) := by
    rw [remainder]
    split
    next cut =>
      rw [if_neg (by omega), ← Int.ofNat_sub (by omega)]
      rfl
    next whole =>
      rw [if_pos (by omega)]
      rfl
  simp only [breakingSummary?, if_neg present, taken, ending]
  rfl

/-- No name is empty, and none holds a comma or a bracket. -/
def Legible (breakdown : Breakdown) : Prop :=
  Text.Separable Text.comma breakdown.names ∧ ∀ name ∈ breakdown.names, CodePoint.ofChar '(' ∉ name

theorem noun_eq (count : Nat) : noun count = CodePoint.ofChar ' ' :: (noun count).tail := by
  unfold noun
  split <;> rfl

theorem remainder_zero : remainder 0 = [] := rfl

theorem remainder_succ (more : Nat) : remainder (more + 1) =
    [CodePoint.ofChar ' '] ++ CodePoint.ofChar '(' ::
      ("and " ++ (Text.ofNat (more + 1) ++ " more)")) :=
  rfl

theorem bracket_mem_remainder (names : Text) (more : Nat) :
    CodePoint.ofChar '(' ∈ names ++ remainder (more + 1) := by
  rw [remainder_succ]
  simp

theorem Legible.bracket_notMem {breakdown : Breakdown} (legible : breakdown.Legible) :
    CodePoint.ofChar '(' ∉ Text.join ", " breakdown.names := by
  intro member
  rcases Text.mem_join member with between | ⟨name, among, inside⟩
  · exact absurd between (by decide)
  · exact legible.2 name among inside

theorem names_told {left right : Breakdown} (leftLegible : left.Legible)
    (rightLegible : right.Legible)
    (same : Text.join ", " left.names ++ remainder left.more =
      Text.join ", " right.names ++ remainder right.more) :
    left.names = right.names ∧ left.more = right.more := by
  obtain ⟨_, names, more⟩ := left
  obtain ⟨_, names', more'⟩ := right
  have free : CodePoint.ofChar '(' ∉ Text.join ", " names := leftLegible.bracket_notMem
  have free' : CodePoint.ofChar '(' ∉ Text.join ", " names' := rightLegible.bracket_notMem
  have spaced {text : Text} (noBracket : CodePoint.ofChar '(' ∉ text) :
      CodePoint.ofChar '(' ∉ text ++ [CodePoint.ofChar ' '] := by
    rw [List.mem_append, not_or]
    exact ⟨noBracket, by decide⟩
  have joined (equal : Text.join ", " names = Text.join ", " names') : names = names' :=
    Text.join_inj leftLegible.1 rightLegible.1 equal
  cases more with
  | zero =>
      cases more' with
      | zero =>
          rw [remainder_zero, List.append_nil, List.append_nil] at same
          exact ⟨joined same, rfl⟩
      | succ more' =>
          rw [remainder_zero, List.append_nil] at same
          exact absurd (same ▸ bracket_mem_remainder _ more') free
  | succ more =>
      cases more' with
      | zero =>
          rw [remainder_zero, List.append_nil] at same
          exact absurd (same ▸ bracket_mem_remainder _ more) free'
      | succ more' =>
          simp only [remainder_succ, ← List.append_assoc] at same
          obtain ⟨texts, behind⟩ := Text.until_inj (spaced free) (spaced free') same
          have numbers := List.append_cancel_left (List.append_cancel_right behind)
          exact ⟨joined (List.append_cancel_right texts), Text.ofNat_injective numbers⟩

theorem shown_inj {left right : Breakdown} (leftLegible : left.Legible)
    (rightLegible : right.Legible) (same : left.shown = right.shown) : left = right := by
  have space (number : Nat) : CodePoint.ofChar ' ' ∉ Text.ofNat number :=
    Text.notMem_ofNat (by decide) number
  simp only [shown, List.append_assoc] at same
  rw [noun_eq left.count, noun_eq right.count] at same
  obtain ⟨numbers, behind⟩ := Text.until_inj (space left.count) (space right.count) same
  have counts : left.count = right.count := Text.ofNat_injective numbers
  rw [counts] at behind
  obtain ⟨names, more⟩ := names_told leftLegible rightLegible (List.append_cancel_left behind)
  cases left
  cases right
  simp_all

end Breakdown

/-- Some data that is accepted as a policy sets the limit of names. -/
def Policy.Allows (limit : Int) : Prop :=
  ∃ data policy, Policy.read data = .accepted policy ∧ limit = policy.nameLimit

theorem Policy.allows_iff (limit : Int) : Policy.Allows limit ↔ 1 ≤ limit := by
  constructor
  · rintro ⟨_, policy, _, rfl⟩
    exact Int.ofNat_le.mpr policy.positive
  · intro positive
    obtain ⟨number, rfl⟩ := Int.eq_ofNat_of_zero_le (by omega : 0 ≤ limit)
    let policy : Policy := ⟨true, number, by omega⟩
    exact ⟨policy.dump, policy, Policy.read_dump policy, rfl⟩

/-- A summary tells the numbers of its entries by status and nothing else. A breaking summary is there
exactly if an entry is breaking. With any limit that a policy can have, it names the first breaking
entries and counts the others, and where no name has marks of its own it cannot be read otherwise. -/
theorem summaries_count (entries : List Entry) {limit : Int} (allowed : Policy.Allows limit) :
    (∃ tallies, summary entries = Tally.listed tallies) ∧
      (∀ tallies, summary entries = Tally.listed tallies ↔ Counts entries tallies) ∧
      (breakingSummary? entries limit = none ↔ ∀ entry ∈ entries, entry.isBreaking = false) ∧
      ((∃ entry ∈ entries, entry.isBreaking = true) →
        ∃ breakdown : Breakdown, breakdown.Covers entries limit ∧
          breakingSummary? entries limit = some breakdown.shown ∧
          ∀ other : Breakdown, breakdown.Legible → other.Legible →
            breakingSummary? entries limit = some other.shown → other = breakdown) := by
  refine ⟨⟨_, (summary_eq_listed_iff entries _).mpr (counts_ofNumbers entries)⟩,
    summary_eq_listed_iff entries, breakingSummary?_eq_none_iff entries limit, ?_⟩
  intro breaks
  have positive := (Policy.allows_iff limit).mp allowed
  obtain ⟨number, rfl⟩ := Int.eq_ofNat_of_zero_le (by omega : 0 ≤ limit)
  have told := Breakdown.breakingSummary?_eq_shown number breaks
  refine ⟨_, Breakdown.covers_ofEntries entries number, told, ?_⟩
  intro other legible otherLegible again
  exact Breakdown.shown_inj otherLegible legible (Option.some.inj (again.symm.trans told))

def entryOf (name : Text) (named : name ≠ []) (change : Option Change) : Entry where
  element := ⟨{ kind := .method, name, container := [⟨.interfaceType, "p.T"⟩] }, named,
    fun _ => List.cons_ne_nil _ _⟩
  change

/-- Two methods are removed and one is made protected; a fourth one is deprecated only. -/
def withdrawals : List Entry :=
  [entryOf "area" (by decide) (some (.removed .method)),
    entryOf "bounds" (by decide) (some { kind := .method, isDeprecated := some true }),
    entryOf "depth" (by decide) (some { kind := .method, isPublic := some false }),
    entryOf "extent" (by decide) (some (.removed .method))]

theorem summaries_count_of_withdrawals :
    Policy.Allows 2 ∧ Counts withdrawals [⟨2, .changed⟩, ⟨2, .removed⟩] ∧
      ∃ breakdown : Breakdown, breakdown.Covers withdrawals 2 ∧
        breakingSummary? withdrawals 2 = some breakdown.shown := by
  have allowed : Policy.Allows 2 := (Policy.allows_iff 2).mpr (by decide)
  obtain ⟨_, tallied, _, told⟩ := summaries_count withdrawals allowed
  obtain ⟨breakdown, covers, shown, _⟩ := told (by decide)
  exact ⟨allowed, (tallied _).mp (by decide), breakdown, covers, shown⟩

end ApiSurface
