import Mathlib.Data.Finset.Card
import Mathlib.Data.List.Chain
import Mathlib.Data.List.Nodup
import Mathlib.Order.Interval.Set.Basic
import Mvfst.Common.IntervalSet
import Mvfst.Lib.ListSearch

/-!
What an `IntervalSet` stands for: the points its intervals cover. A set is valid when its
intervals are ordered with more than a unit between neighbours and end at most a unit below the
largest value. `intersectingRange` cuts a valid list into the intervals below the argument, those
it touches and those above; `insert` and `withdraw` rewrite only the middle part.
-/

namespace Mvfst

namespace Interval

/-- The points of `[start, end]`. -/
def Covers (i : Interval) (x : Nat) : Prop := i.start ≤ x ∧ x ≤ i.end

instance instDecidableCovers (i : Interval) (x : Nat) : Decidable (i.Covers x) :=
  inferInstanceAs (Decidable (_ ∧ _))

end Interval

/-- Some interval of the list covers `x`. -/
def Covered (intervals : List Interval) (x : Nat) : Prop := ∃ i ∈ intervals, i.Covers x

instance instDecidableCovered (intervals : List Interval) (x : Nat) : Decidable (Covered intervals x) :=
  inferInstanceAs (Decidable (∃ i ∈ intervals, i.Covers x))

@[simp] theorem covered_nil (x : Nat) : ¬ Covered [] x := by
  simp [Covered]

@[simp] theorem covered_cons (i : Interval) (rest : List Interval) (x : Nat) :
    Covered (i :: rest) x ↔ i.Covers x ∨ Covered rest x := by
  simp [Covered]

@[simp] theorem covered_append (xs ys : List Interval) (x : Nat) :
    Covered (xs ++ ys) x ↔ Covered xs x ∨ Covered ys x := by
  simp only [Covered, List.mem_append]
  constructor
  · rintro ⟨i, member | member, covers⟩
    · exact .inl ⟨i, member, covers⟩
    · exact .inr ⟨i, member, covers⟩
  · rintro (⟨i, member, covers⟩ | ⟨i, member, covers⟩)
    · exact ⟨i, .inl member, covers⟩
    · exact ⟨i, .inr member, covers⟩

/-- Consecutive intervals more than `unit` apart. -/
def Separated (unit : Nat) (intervals : List Interval) : Prop :=
  intervals.IsChain fun a b => a.end + unit < b.start

/-- Every interval is well formed and ends at most `unit` below `maxValue`. -/
def Bounded (unit maxValue : Nat) (intervals : List Interval) : Prop :=
  ∀ i ∈ intervals, i.start ≤ i.end ∧ i.end ≤ maxValue - unit

/-- Every interval ends more than `unit` before every later one. -/
def Sorted (unit : Nat) (intervals : List Interval) : Prop :=
  intervals.Pairwise fun a b => a.end + unit < b.start

theorem sorted_of_separated {unit : Nat} {intervals : List Interval}
    (wellFormed : ∀ i ∈ intervals, i.start ≤ i.end) (separated : Separated unit intervals) :
    Sorted unit intervals := by
  induction intervals with
  | nil => exact List.Pairwise.nil
  | cons a rest ih =>
    have restSorted := ih (fun i member => wellFormed i (List.mem_cons_of_mem a member))
      (List.isChain_cons.mp separated).2
    refine List.Pairwise.cons ?_ restSorted
    -- the first later interval is more than a unit away, and the others lie beyond it
    cases rest with
    | nil => simp
    | cons b more =>
      have near : a.end + unit < b.start := (List.isChain_cons_cons.mp separated).1
      intro c member
      rcases List.mem_cons.mp member with rfl | later
      · exact near
      · have far := (List.pairwise_cons.mp restSorted).1 c later
        have between := wellFormed b (by simp)
        omega

theorem separated_of_sorted {unit : Nat} {intervals : List Interval} (sorted : Sorted unit intervals) :
    Separated unit intervals :=
  List.Pairwise.isChain sorted

/-- `Sorted` over a list cut in three. -/
theorem sorted_append_three {unit : Nat} {lower middle upper : List Interval} :
    Sorted unit (lower ++ middle ++ upper) ↔
      Sorted unit lower ∧ Sorted unit middle ∧ Sorted unit upper ∧
        (∀ b ∈ lower, ∀ m ∈ middle, b.end + unit < m.start) ∧
        (∀ m ∈ middle, ∀ a ∈ upper, m.end + unit < a.start) ∧
        ∀ b ∈ lower, ∀ a ∈ upper, b.end + unit < a.start := by
  simp only [Sorted, List.pairwise_append, List.mem_append]
  constructor
  · rintro ⟨⟨lowerSorted, middleSorted, lowerMiddle⟩, upperSorted, across⟩
    exact ⟨lowerSorted, middleSorted, upperSorted, lowerMiddle,
      fun m member a later => across m (.inr member) a later,
      fun b member a later => across b (.inl member) a later⟩
  · rintro ⟨lowerSorted, middleSorted, upperSorted, lowerMiddle, middleUpper, lowerUpper⟩
    refine ⟨⟨lowerSorted, middleSorted, lowerMiddle⟩, upperSorted, ?_⟩
    rintro x (member | member) a later
    · exact lowerUpper x member a later
    · exact middleUpper x member a later

section Extremes

variable {unit : Nat} {intervals : List Interval}
  (wellFormed : ∀ i ∈ intervals, i.start ≤ i.end) (sorted : Sorted unit intervals)
include wellFormed sorted

/-- The first interval of a sorted list starts first. -/
theorem start_le_of_sorted {first : Interval} {rest : List Interval}
    (found : intervals = first :: rest) : ∀ r ∈ intervals, first.start ≤ r.start := by
  subst found
  intro r member
  rcases List.mem_cons.mp member with rfl | later
  · exact Nat.le_refl _
  · have apart := (List.pairwise_cons.mp sorted).1 r later
    have := wellFormed first List.mem_cons_self
    omega

/-- The last interval of a sorted list ends last. -/
theorem end_le_getLast_of_sorted (nonempty : intervals ≠ []) :
    ∀ r ∈ intervals, r.end ≤ (intervals.getLast nonempty).end := by
  have whole := List.dropLast_append_getLast nonempty
  intro r member
  rw [← whole] at member
  rcases List.mem_append.mp member with earlier | last
  · rw [← whole] at sorted
    have apart := (List.pairwise_append.mp sorted).2.2 r earlier _ (List.mem_singleton_self _)
    have := wellFormed _ (List.getLast_mem nonempty)
    omega
  · rw [List.mem_singleton.mp last]

end Extremes

/-- The points the intervals cover, interval by interval. -/
def pointList (intervals : List Interval) : List Nat :=
  intervals.flatMap fun i => List.range' i.start (i.end + 1 - i.start)

theorem mem_pointList {intervals : List Interval} {x : Nat} :
    x ∈ pointList intervals ↔ Covered intervals x := by
  simp only [pointList, List.mem_flatMap, List.mem_range'_1, Covered, Interval.Covers]
  constructor <;> rintro ⟨i, member, low, high⟩ <;> exact ⟨i, member, by omega, by omega⟩

theorem nodup_pointList {unit : Nat} {intervals : List Interval} (sorted : Sorted unit intervals) :
    (pointList intervals).Nodup := by
  rw [pointList, List.nodup_flatMap]
  refine ⟨fun i _ => List.nodup_range', ?_⟩
  apply List.Pairwise.imp _ sorted
  intro a b apart x inA inB
  rw [List.mem_range'_1] at inA inB
  omega

theorem length_pointList {intervals : List Interval} (wellFormed : ∀ i ∈ intervals, i.start ≤ i.end) :
    (pointList intervals).length = (intervals.map fun i => i.end - i.start + 1).sum := by
  rw [pointList, List.length_flatMap]
  congr 1
  apply List.map_congr_left
  intro i member
  have := wellFormed i member
  rw [List.length_range']
  omega

section Cut

variable {α : Type} (lower rest upper : List α) (first fallback : α)

theorem getD_first_of_cut : (lower ++ first :: rest ++ upper).getD lower.length fallback = first := by
  rw [List.getD_eq_getElem?_getD, List.append_assoc, List.getElem?_append_right (Nat.le_refl _),
    Nat.sub_self]
  rfl

theorem getD_last_of_cut :
    (lower ++ first :: rest ++ upper).getD (lower.length + (first :: rest).length - 1) fallback =
      (first :: rest).getLast (List.cons_ne_nil _ _) := by
  have index : lower.length + (first :: rest).length - 1 = lower.length + rest.length := by simp
  rw [List.getD_eq_getElem?_getD, index, List.append_assoc, List.getElem?_append_right (by omega),
    Nat.add_sub_cancel_left, List.getElem?_append_left (by simp), List.getLast_eq_getElem]
  simp

end Cut

section Decomposition

variable (unit : Nat) (interval : Interval) (intervals : List Interval)

/-- The test of the `lower_bound` in `intersectingRange`. -/
def endsBelow (a : Interval) : Bool := decide (a.end + unit < interval.start)

/-- The test of the walk in `intersectingRange`. -/
def startsWithin (a : Interval) : Bool := decide (a.start ≤ interval.end + unit)

/-- The intervals more than a unit below `interval`. -/
def below : List Interval := intervals.takeWhile (endsBelow unit interval)

/-- The intervals that meet `interval` or lie within a unit of it. -/
def touching : List Interval :=
  (intervals.dropWhile (endsBelow unit interval)).takeWhile (startsWithin unit interval)

/-- The intervals more than a unit above `interval`. -/
def above : List Interval :=
  (intervals.dropWhile (endsBelow unit interval)).dropWhile (startsWithin unit interval)

theorem below_append_touching_append_above :
    below unit interval intervals ++ touching unit interval intervals ++ above unit interval intervals =
      intervals := by
  simp only [below, touching, above, List.append_assoc, List.takeWhile_append_dropWhile]

variable {unit interval intervals}

theorem mem_of_mem_below {i : Interval} (member : i ∈ below unit interval intervals) :
    i ∈ intervals := by
  rw [← below_append_touching_append_above unit interval intervals]
  simp [member]

theorem mem_of_mem_touching {i : Interval} (member : i ∈ touching unit interval intervals) :
    i ∈ intervals := by
  rw [← below_append_touching_append_above unit interval intervals]
  simp [member]

theorem mem_of_mem_above {i : Interval} (member : i ∈ above unit interval intervals) :
    i ∈ intervals := by
  rw [← below_append_touching_append_above unit interval intervals]
  simp [member]

theorem endsBelow_of_mem_below {b : Interval} (member : b ∈ below unit interval intervals) :
    b.end + unit < interval.start := by
  simpa [endsBelow] using List.mem_takeWhile_imp member

theorem startsWithin_of_mem_touching {r : Interval} (member : r ∈ touching unit interval intervals) :
    r.start ≤ interval.end + unit := by
  simpa [startsWithin] using List.mem_takeWhile_imp member

section Sorted

variable (wellFormed : ∀ i ∈ intervals, i.start ≤ i.end) (sorted : Sorted unit intervals)
include wellFormed sorted

theorem partitioned_endsBelow :
    intervals.Pairwise fun x y => endsBelow unit interval y = true → endsBelow unit interval x = true := by
  apply List.Pairwise.imp_of_mem _ sorted
  intro x y _ yMember apart
  have := wellFormed y yMember
  simp only [endsBelow, decide_eq_true_eq]
  omega

theorem partitioned_startsWithin :
    intervals.Pairwise fun x y =>
      startsWithin unit interval y = true → startsWithin unit interval x = true := by
  apply List.Pairwise.imp_of_mem _ sorted
  intro x y xMember _ apart
  have := wellFormed x xMember
  simp only [startsWithin, decide_eq_true_eq]
  omega

/-- Past the intervals below, every interval reaches to within a unit of `interval`. -/
theorem reaches_of_mem_dropWhile {r : Interval}
    (member : r ∈ intervals.dropWhile (endsBelow unit interval)) :
    interval.start ≤ r.end + unit := by
  have := LowerBound.not_before_of_mem_dropWhile _ (partitioned_endsBelow wellFormed sorted) r member
  simp only [endsBelow, decide_eq_false_iff_not] at this
  omega

theorem reaches_of_mem_touching {r : Interval} (member : r ∈ touching unit interval intervals) :
    interval.start ≤ r.end + unit :=
  reaches_of_mem_dropWhile wellFormed sorted ((List.takeWhile_sublist _).subset member)

theorem startsAbove_of_mem_above {a : Interval} (member : a ∈ above unit interval intervals) :
    interval.end + unit < a.start := by
  have suffix := (List.dropWhile_suffix (endsBelow unit interval) (l := intervals)).sublist
  have := LowerBound.not_before_of_mem_dropWhile _
    (partitioned_startsWithin (fun i inside => wellFormed i (suffix.subset inside))
      (sorted.sublist suffix)) a member
  simp only [startsWithin, decide_eq_false_iff_not] at this
  omega

end Sorted

end Decomposition

namespace IntervalSet

variable {unit : Nat}

/-- A valid set: bounded intervals, consecutive ones more than a unit apart. -/
structure Valid (maxValue : Nat) (s : IntervalSet unit) : Prop where
  bounded : Bounded unit maxValue s.intervals
  separated : Separated unit s.intervals

theorem valid_empty (maxValue : Nat) : ({} : IntervalSet unit).Valid maxValue where
  bounded _ member := absurd member List.not_mem_nil
  separated := List.isChain_nil

/-- What `withdraw` keeps of the first touched interval: its part below `interval`. -/
def keptBelow (unit : Nat) (interval r : Interval) : List Interval :=
  if r.start + unit ≤ interval.start then [⟨r.start, interval.start - unit⟩] else []

/-- What `withdraw` keeps of the last touched interval: its part above `interval`. -/
def keptAbove (unit : Nat) (interval r : Interval) : List Interval :=
  if r.end ≥ interval.end + unit then [⟨interval.end + unit, r.end⟩] else []

@[simp] theorem mem_keptBelow {unit : Nat} {interval r m : Interval} :
    m ∈ keptBelow unit interval r ↔ r.start + unit ≤ interval.start ∧ m = ⟨r.start, interval.start - unit⟩ := by
  unfold keptBelow
  split_ifs with keep <;> simp [keep]

@[simp] theorem mem_keptAbove {unit : Nat} {interval r m : Interval} :
    m ∈ keptAbove unit interval r ↔ r.end ≥ interval.end + unit ∧ m = ⟨interval.end + unit, r.end⟩ := by
  unfold keptAbove
  split_ifs with keep <;> simp [keep]

/-- The points of the set. -/
def points (s : IntervalSet unit) : Set Nat := {x | Covered s.intervals x}

section Range

variable (s : IntervalSet unit) (interval : Interval)
  (wellFormed : ∀ i ∈ s.intervals, i.start ≤ i.end) (sorted : Sorted unit s.intervals)
include wellFormed sorted

/-- On a sorted list `intersectingRange` finds the intervals `interval` touches. -/
theorem intersectingRange_eq :
    s.intersectingRange interval =
      ((below unit interval s.intervals).length,
        (below unit interval s.intervals).length + (touching unit interval s.intervals).length) := by
  have first : LowerBound.lowerBound (endsBelow unit interval) s.intervals =
      (below unit interval s.intervals).length := by
    rw [LowerBound.lowerBound_eq_findIdx _ (partitioned_endsBelow wellFormed sorted), below,
      ListSearch.length_takeWhile]
  have whole := @List.takeWhile_append_dropWhile _ (endsBelow unit interval) s.intervals
  have rest : s.intervals.drop (below unit interval s.intervals).length =
      s.intervals.dropWhile (endsBelow unit interval) :=
    calc s.intervals.drop (below unit interval s.intervals).length
        = (s.intervals.takeWhile (endsBelow unit interval) ++
            s.intervals.dropWhile (endsBelow unit interval)).drop
            (s.intervals.takeWhile (endsBelow unit interval)).length := by rw [whole]; rfl
      _ = s.intervals.dropWhile (endsBelow unit interval) := List.drop_left
  change (LowerBound.lowerBound (endsBelow unit interval) s.intervals,
    LowerBound.lowerBound (endsBelow unit interval) s.intervals +
      ((s.intervals.drop (LowerBound.lowerBound (endsBelow unit interval) s.intervals)).takeWhile
        (startsWithin unit interval)).length) = _
  rw [first, rest]
  rfl

theorem insert_intervals_of_nil (none : touching unit interval s.intervals = []) :
    (s.insert interval).intervals =
      below unit interval s.intervals ++ interval :: above unit interval s.intervals := by
  unfold insert
  rw [intersectingRange_eq s interval wellFormed sorted]
  have whole := below_append_touching_append_above unit interval s.intervals
  generalize below unit interval s.intervals = lower at whole ⊢
  generalize touching unit interval s.intervals = middle at whole none ⊢
  generalize above unit interval s.intervals = upper at whole ⊢
  subst none
  rw [← whole]
  simp

theorem insert_intervals_of_cons {first : Interval} {rest : List Interval}
    (found : touching unit interval s.intervals = first :: rest) :
    (s.insert interval).intervals =
      below unit interval s.intervals ++
        ⟨min interval.start first.start,
          max interval.end ((first :: rest).getLast (List.cons_ne_nil _ _)).end⟩ ::
        above unit interval s.intervals := by
  unfold insert
  rw [intersectingRange_eq s interval wellFormed sorted]
  have whole := below_append_touching_append_above unit interval s.intervals
  generalize below unit interval s.intervals = lower at whole ⊢
  generalize touching unit interval s.intervals = middle at whole found ⊢
  generalize above unit interval s.intervals = upper at whole ⊢
  subst found
  rw [← whole]
  simp only [getD_first_of_cut, getD_last_of_cut]
  simp

omit wellFormed in
theorem sorted_parts :
    Sorted unit (below unit interval s.intervals) ∧ Sorted unit (touching unit interval s.intervals) ∧
      Sorted unit (above unit interval s.intervals) ∧
      (∀ b ∈ below unit interval s.intervals, ∀ m ∈ touching unit interval s.intervals,
        b.end + unit < m.start) ∧
      (∀ m ∈ touching unit interval s.intervals, ∀ a ∈ above unit interval s.intervals,
        m.end + unit < a.start) ∧
      ∀ b ∈ below unit interval s.intervals, ∀ a ∈ above unit interval s.intervals,
        b.end + unit < a.start := by
  rw [← sorted_append_three, below_append_touching_append_above]
  exact sorted

theorem withdraw_intervals_of_nil (none : touching unit interval s.intervals = []) :
    (s.withdraw interval).intervals = s.intervals := by
  unfold withdraw
  rw [intersectingRange_eq s interval wellFormed sorted, none]
  simp

theorem withdraw_intervals_of_cons (positive : 1 ≤ unit) (ordered : interval.start ≤ interval.end)
    {first : Interval} {rest : List Interval}
    (found : touching unit interval s.intervals = first :: rest) :
    (s.withdraw interval).intervals =
      below unit interval s.intervals ++ keptBelow unit interval first ++
        keptAbove unit interval ((first :: rest).getLast (List.cons_ne_nil _ _)) ++
        above unit interval s.intervals := by
  unfold withdraw
  rw [intersectingRange_eq s interval wellFormed sorted]
  have whole := below_append_touching_append_above unit interval s.intervals
  generalize below unit interval s.intervals = lower at whole ⊢
  generalize touching unit interval s.intervals = middle at whole found ⊢
  generalize above unit interval s.intervals = upper at whole ⊢
  subst found
  rw [← whole]
  have cutFirst : ¬ interval.end + unit ≤ interval.start - unit := by omega
  rcases List.eq_nil_or_concat rest with rfl | ⟨mid, last, rfl⟩
  · by_cases keepFirst : first.start + unit ≤ interval.start <;>
      by_cases keepLast : interval.end + unit ≤ first.end <;>
      simp [keptBelow, keptAbove, keepFirst, keepLast, cutFirst, List.set_append_right,
        List.take_append, List.drop_append, List.take_of_length_le, List.drop_of_length_le]
  · by_cases keepFirst : first.start + unit ≤ interval.start <;>
      by_cases keepLast : interval.end + unit ≤ last.end <;>
      simp [keptBelow, keptAbove, keepFirst, keepLast, List.set_append_right, List.take_append,
        List.drop_append, List.take_of_length_le, List.drop_of_length_le]

/-- `insert` keeps the intervals ordered with more than a unit between neighbours. -/
theorem insert_sorted : Sorted unit (s.insert interval).intervals := by
  obtain ⟨lowerSorted, -, upperSorted, lowerMiddle, middleUpper, lowerUpper⟩ :=
    sorted_parts s interval sorted
  cases found : touching unit interval s.intervals with
  | nil =>
    rw [insert_intervals_of_nil s interval wellFormed sorted found, ← List.singleton_append,
      ← List.append_assoc, sorted_append_three]
    refine ⟨lowerSorted, List.pairwise_singleton _ _, upperSorted, ?_, ?_, lowerUpper⟩
    · intro b member m single
      rw [List.mem_singleton.mp single]
      exact endsBelow_of_mem_below member
    · intro m single a member
      rw [List.mem_singleton.mp single]
      exact startsAbove_of_mem_above wellFormed sorted member
  | cons first rest =>
    -- the merged interval starts where the first touched one or `interval` does, and ends where
    -- the last touched one or `interval` does
    have lastTouched : (first :: rest).getLast (List.cons_ne_nil _ _) ∈ touching unit interval s.intervals := by
      rw [found]
      exact List.getLast_mem _
    rw [insert_intervals_of_cons s interval wellFormed sorted found, ← List.singleton_append,
      ← List.append_assoc, sorted_append_three]
    refine ⟨lowerSorted, List.pairwise_singleton _ _, upperSorted, ?_, ?_, lowerUpper⟩
    · intro b member m single
      rw [List.mem_singleton.mp single]
      have belowInterval := endsBelow_of_mem_below member
      have belowFirst := lowerMiddle b member first (by simp [found])
      simp only
      omega
    · intro m single a member
      rw [List.mem_singleton.mp single]
      have aboveInterval := startsAbove_of_mem_above wellFormed sorted member
      have aboveLast := middleUpper _ lastTouched a member
      simp only
      omega

/-- `insert` of a bounded interval keeps every interval bounded. -/
theorem insert_bounded {maxValue : Nat} (bounded : Bounded unit maxValue s.intervals)
    (fits : interval.start ≤ interval.end ∧ interval.end ≤ maxValue - unit) :
    Bounded unit maxValue (s.insert interval).intervals := by
  cases found : touching unit interval s.intervals with
  | nil =>
    rw [insert_intervals_of_nil s interval wellFormed sorted found]
    intro i member
    simp only [List.mem_append, List.mem_cons] at member
    rcases member with lower | rfl | upper
    · exact bounded i (mem_of_mem_below lower)
    · exact fits
    · exact bounded i (mem_of_mem_above upper)
  | cons first rest =>
    have lastTouched : (first :: rest).getLast (List.cons_ne_nil _ _) ∈ touching unit interval s.intervals := by
      rw [found]
      exact List.getLast_mem _
    rw [insert_intervals_of_cons s interval wellFormed sorted found]
    intro i member
    simp only [List.mem_append, List.mem_cons] at member
    rcases member with lower | rfl | upper
    · exact bounded i (mem_of_mem_below lower)
    · have lastBounded := bounded _ (mem_of_mem_touching lastTouched)
      simp only
      omega
    · exact bounded i (mem_of_mem_above upper)

/-- `withdraw` keeps the intervals ordered with more than a unit between neighbours. -/
theorem withdraw_sorted (positive : 1 ≤ unit) (ordered : interval.start ≤ interval.end) :
    Sorted unit (s.withdraw interval).intervals := by
  obtain ⟨lowerSorted, -, upperSorted, lowerMiddle, middleUpper, lowerUpper⟩ :=
    sorted_parts s interval sorted
  cases found : touching unit interval s.intervals with
  | nil =>
    rw [withdraw_intervals_of_nil s interval wellFormed sorted found]
    exact sorted
  | cons first rest =>
    have lastTouched : (first :: rest).getLast (List.cons_ne_nil _ _) ∈ touching unit interval s.intervals := by
      rw [found]
      exact List.getLast_mem _
    have firstTouched : first ∈ touching unit interval s.intervals := by simp [found]
    rw [withdraw_intervals_of_cons s interval wellFormed sorted positive ordered found,
      List.append_assoc (below unit interval s.intervals), sorted_append_three]
    refine ⟨lowerSorted, ?_, upperSorted, ?_, ?_, lowerUpper⟩
    · -- the two kept pieces lie on either side of `interval`
      simp only [Sorted, List.pairwise_append, mem_keptBelow, mem_keptAbove]
      refine ⟨?_, ?_, ?_⟩
      · unfold keptBelow
        split_ifs <;> simp
      · unfold keptAbove
        split_ifs <;> simp
      · rintro m ⟨keep, rfl⟩ m' ⟨keep', rfl⟩
        simp only
        omega
    · intro b member m kept
      have belowInterval := endsBelow_of_mem_below member
      rcases List.mem_append.mp kept with piece | piece
      · obtain ⟨-, rfl⟩ := mem_keptBelow.mp piece
        exact lowerMiddle b member first firstTouched
      · obtain ⟨-, rfl⟩ := mem_keptAbove.mp piece
        simp only
        omega
    · intro m kept a member
      have aboveInterval := startsAbove_of_mem_above wellFormed sorted member
      rcases List.mem_append.mp kept with piece | piece
      · obtain ⟨keep, rfl⟩ := mem_keptBelow.mp piece
        simp only
        omega
      · obtain ⟨-, rfl⟩ := mem_keptAbove.mp piece
        exact middleUpper _ lastTouched a member

/-- `withdraw` keeps every interval bounded. -/
theorem withdraw_bounded (positive : 1 ≤ unit) {maxValue : Nat}
    (bounded : Bounded unit maxValue s.intervals)
    (fits : interval.start ≤ interval.end ∧ interval.end ≤ maxValue - unit) :
    Bounded unit maxValue (s.withdraw interval).intervals := by
  cases found : touching unit interval s.intervals with
  | nil =>
    rw [withdraw_intervals_of_nil s interval wellFormed sorted found]
    exact bounded
  | cons first rest =>
    have lastTouched : (first :: rest).getLast (List.cons_ne_nil _ _) ∈ touching unit interval s.intervals := by
      rw [found]
      exact List.getLast_mem _
    have firstTouched : first ∈ touching unit interval s.intervals := by simp [found]
    rw [withdraw_intervals_of_cons s interval wellFormed sorted positive fits.1 found]
    intro i member
    simp only [List.mem_append, mem_keptBelow, mem_keptAbove] at member
    rcases member with ((lower | ⟨keep, rfl⟩) | ⟨keep, rfl⟩) | upper
    · exact bounded i (mem_of_mem_below lower)
    · have := bounded first (mem_of_mem_touching firstTouched)
      simp only
      omega
    · have := bounded _ (mem_of_mem_touching lastTouched)
      simp only
      omega
    · exact bounded i (mem_of_mem_above upper)

/-! ### Points, with a unit of 1 -/

omit wellFormed sorted in
theorem not_covers_of_covered_below {x : Nat} (covered : Covered (below unit interval s.intervals) x) :
    ¬ interval.Covers x := by
  obtain ⟨b, member, covers⟩ := covered
  have := endsBelow_of_mem_below member
  simp only [Interval.Covers] at covers ⊢
  omega

theorem not_covers_of_covered_above {x : Nat} (covered : Covered (above unit interval s.intervals) x) :
    ¬ interval.Covers x := by
  obtain ⟨a, member, covers⟩ := covered
  have := startsAbove_of_mem_above wellFormed sorted member
  simp only [Interval.Covers] at covers ⊢
  omega

/-- The facts about the touched intervals that the point arguments use. -/
theorem touching_facts {first : Interval} {rest : List Interval}
    (found : touching unit interval s.intervals = first :: rest) :
    (∀ r ∈ first :: rest, first.start ≤ r.start) ∧
      (∀ r ∈ first :: rest, r.end ≤ ((first :: rest).getLast (List.cons_ne_nil _ _)).end) ∧
      (∀ r ∈ first :: rest, interval.start ≤ r.end + unit) ∧
      ∀ r ∈ first :: rest, r.start ≤ interval.end + unit := by
  have touchingWellFormed : ∀ i ∈ first :: rest, i.start ≤ i.end :=
    fun i member => wellFormed i (mem_of_mem_touching (found ▸ member))
  have touchingSorted : Sorted unit (first :: rest) := found ▸ (sorted_parts s interval sorted).2.1
  exact ⟨start_le_of_sorted touchingWellFormed touchingSorted rfl,
    end_le_getLast_of_sorted touchingWellFormed touchingSorted (List.cons_ne_nil _ _),
    fun r member => reaches_of_mem_touching wellFormed sorted (found ▸ member),
    fun r member => startsWithin_of_mem_touching (found ▸ member)⟩

/-- Within `interval` only the touched intervals cover points. -/
theorem covered_iff_touching {x : Nat} (inside : interval.Covers x) :
    Covered s.intervals x ↔ Covered (touching unit interval s.intervals) x := by
  have whole : Covered s.intervals x ↔ Covered (below unit interval s.intervals ++
      touching unit interval s.intervals ++ above unit interval s.intervals) x := by
    rw [below_append_touching_append_above]
  have lower := mt (not_covers_of_covered_below s interval) (not_not.mpr inside)
  have upper := mt (not_covers_of_covered_above s interval wellFormed sorted) (not_not.mpr inside)
  rw [whole, covered_append, covered_append]
  tauto

/-! ### The insert version -/

theorem insert_insertVersion_of_nil (none : touching unit interval s.intervals = []) :
    (s.insert interval).insertVersion = s.insertVersion + 1 := by
  unfold insert
  rw [intersectingRange_eq s interval wellFormed sorted, none]
  simp

theorem insert_insertVersion_of_cons {first : Interval} {rest : List Interval}
    (found : touching unit interval s.intervals = first :: rest) :
    (s.insert interval).insertVersion =
      if max interval.end ((first :: rest).getLast (List.cons_ne_nil _ _)).end -
          min interval.start first.start > first.end - first.start
      then s.insertVersion + 1 else s.insertVersion := by
  unfold insert
  rw [intersectingRange_eq s interval wellFormed sorted]
  have whole := below_append_touching_append_above unit interval s.intervals
  generalize below unit interval s.intervals = lower at whole ⊢
  generalize touching unit interval s.intervals = middle at whole found ⊢
  generalize above unit interval s.intervals = upper at whole ⊢
  subst found
  rw [← whole]
  simp only [getD_first_of_cut, getD_last_of_cut]
  simp

/-- A merge adds a point exactly when it widens the first touched interval: with one touched
interval, when `interval` reaches past it; with several, always, since a unit or more lies
between the first two. -/
theorem exists_fresh_iff_widens (positive : 1 ≤ unit) (ordered : interval.start ≤ interval.end)
    {first : Interval} {rest : List Interval}
    (found : touching unit interval s.intervals = first :: rest) :
    (∃ x, interval.Covers x ∧ ¬ Covered s.intervals x) ↔
      max interval.end ((first :: rest).getLast (List.cons_ne_nil _ _)).end -
        min interval.start first.start > first.end - first.start := by
  obtain ⟨-, endsLast, reaches, within⟩ := touching_facts s interval wellFormed sorted found
  have firstWellFormed := wellFormed first (mem_of_mem_touching (found ▸ List.mem_cons_self))
  have firstReaches := reaches first List.mem_cons_self
  have outside_iff {x : Nat} (inside : interval.Covers x) :
      ¬ Covered s.intervals x ↔ ¬ Covered (first :: rest) x := by
    rw [covered_iff_touching s interval wellFormed sorted inside, found]
  cases rest with
  | nil =>
    simp only [List.getLast_singleton]
    constructor
    · rintro ⟨x, inside, outside⟩
      simp only [outside_iff inside, covered_cons, covered_nil, or_false, Interval.Covers] at outside
      simp only [Interval.Covers] at inside
      omega
    · intro widens
      by_cases early : interval.start < first.start
      · refine ⟨interval.start, ⟨Nat.le_refl _, ordered⟩, ?_⟩
        simp only [outside_iff ⟨Nat.le_refl _, ordered⟩, covered_cons, covered_nil, or_false,
          Interval.Covers]
        omega
      · refine ⟨interval.end, ⟨ordered, Nat.le_refl _⟩, ?_⟩
        simp only [outside_iff ⟨ordered, Nat.le_refl _⟩, covered_cons, covered_nil, or_false,
          Interval.Covers]
        omega
  | cons second rest =>
    -- the point just past the first touched interval (or the start of `interval`) is in
    -- `interval` and before every later touched interval
    have touchingSorted : Sorted unit (first :: second :: rest) :=
      found ▸ (sorted_parts s interval sorted).2.1
    have apart := (List.pairwise_cons.mp touchingSorted).1
    have secondApart := apart second List.mem_cons_self
    have secondWithin := within second (List.mem_cons_of_mem _ List.mem_cons_self)
    have secondEnds := endsLast second (List.mem_cons_of_mem _ List.mem_cons_self)
    have secondWellFormed := wellFormed second
      (mem_of_mem_touching (found ▸ List.mem_cons_of_mem _ List.mem_cons_self))
    have inside : interval.Covers (max interval.start (first.end + 1)) := ⟨by omega, by omega⟩
    refine iff_of_true ⟨_, inside, ?_⟩ (by omega)
    rw [outside_iff inside]
    rintro ⟨r, member, low, high⟩
    rcases List.mem_cons.mp member with rfl | later
    · omega
    · have := apart r later
      omega

/-- The version counts exactly the insertions that add a point. -/
theorem insert_insertVersion (positive : 1 ≤ unit) (ordered : interval.start ≤ interval.end) :
    ((∃ x, interval.Covers x ∧ ¬ Covered s.intervals x) →
        (s.insert interval).insertVersion = s.insertVersion + 1) ∧
      ((¬ ∃ x, interval.Covers x ∧ ¬ Covered s.intervals x) →
        (s.insert interval).insertVersion = s.insertVersion) := by
  cases found : touching unit interval s.intervals with
  | nil =>
    -- nothing touched: the start of `interval` is a new point
    have fresh : ¬ Covered s.intervals interval.start := by
      rw [covered_iff_touching s interval wellFormed sorted ⟨Nat.le_refl _, ordered⟩, found]
      exact covered_nil _
    rw [insert_insertVersion_of_nil s interval wellFormed sorted found]
    exact ⟨fun _ => rfl, fun none => absurd ⟨_, ⟨Nat.le_refl _, ordered⟩, fresh⟩ none⟩
  | cons first rest =>
    rw [insert_insertVersion_of_cons s interval wellFormed sorted found,
      exists_fresh_iff_widens s interval wellFormed sorted positive ordered found]
    split_ifs with widens
    · exact ⟨fun _ => rfl, fun narrow => absurd widens narrow⟩
    · exact ⟨fun wide => absurd wide widens, fun _ => rfl⟩

end Range

section Points

variable (s : IntervalSet 1) (interval : Interval)
  (wellFormed : ∀ i ∈ s.intervals, i.start ≤ i.end) (sorted : Sorted 1 s.intervals)
include wellFormed sorted

/-- The merged interval covers what the touched intervals and `interval` cover, and no more: with
a unit of 1 nothing lies between them. -/
theorem covers_merged_iff {first : Interval} {rest : List Interval}
    (found : touching 1 interval s.intervals = first :: rest) (x : Nat) :
    Interval.Covers ⟨min interval.start first.start,
        max interval.end ((first :: rest).getLast (List.cons_ne_nil _ _)).end⟩ x ↔
      Covered (first :: rest) x ∨ interval.Covers x := by
  obtain ⟨startsFirst, endsLast, reaches, within⟩ := touching_facts s interval wellFormed sorted found
  have lastTouched := List.getLast_mem (List.cons_ne_nil first rest)
  simp only [Covered, Interval.Covers]
  constructor
  · rintro ⟨low, high⟩
    by_cases inside : interval.start ≤ x ∧ x ≤ interval.end
    · exact .inr inside
    · -- outside `interval`, the point lies in the first or the last touched interval
      left
      by_cases early : x < interval.start
      · have := reaches first List.mem_cons_self
        exact ⟨first, List.mem_cons_self, by omega, by omega⟩
      · have := within _ lastTouched
        exact ⟨_, lastTouched, by omega, by omega⟩
  · rintro (⟨r, member, low, high⟩ | ⟨low, high⟩)
    · have := startsFirst r member
      have := endsLast r member
      omega
    · omega

/-- The pieces `withdraw` keeps cover what the touched intervals cover outside `interval`. -/
theorem covered_kept_iff {first : Interval} {rest : List Interval}
    (found : touching 1 interval s.intervals = first :: rest) (x : Nat) :
    Covered (keptBelow 1 interval first ++
        keptAbove 1 interval ((first :: rest).getLast (List.cons_ne_nil _ _))) x ↔
      Covered (first :: rest) x ∧ ¬ interval.Covers x := by
  obtain ⟨startsFirst, endsLast, reaches, within⟩ := touching_facts s interval wellFormed sorted found
  have lastTouched := List.getLast_mem (List.cons_ne_nil first rest)
  rw [covered_append]
  simp only [Covered, mem_keptBelow, mem_keptAbove, Interval.Covers]
  constructor
  · rintro (⟨m, ⟨keep, rfl⟩, low, high⟩ | ⟨m, ⟨keep, rfl⟩, low, high⟩)
    · have := reaches first List.mem_cons_self
      dsimp only at low high
      exact ⟨⟨first, List.mem_cons_self, by omega, by omega⟩, by omega⟩
    · have := within _ lastTouched
      dsimp only at low high
      exact ⟨⟨_, lastTouched, by omega, by omega⟩, by omega⟩
  · rintro ⟨⟨r, member, low, high⟩, outside⟩
    have := startsFirst r member
    have := endsLast r member
    by_cases early : x < interval.start
    · exact .inl ⟨_, ⟨by omega, rfl⟩, show first.start ≤ x by omega,
        show x ≤ interval.start - 1 by omega⟩
    · exact .inr ⟨_, ⟨by omega, rfl⟩, show interval.end + 1 ≤ x by omega,
        show x ≤ ((first :: rest).getLast (List.cons_ne_nil _ _)).end by omega⟩

theorem covered_insert (x : Nat) :
    Covered (s.insert interval).intervals x ↔ Covered s.intervals x ∨ interval.Covers x := by
  have whole : Covered s.intervals x ↔ Covered (below 1 interval s.intervals ++
      touching 1 interval s.intervals ++ above 1 interval s.intervals) x := by
    rw [below_append_touching_append_above]
  rw [whole]
  cases found : touching 1 interval s.intervals with
  | nil =>
    rw [insert_intervals_of_nil s interval wellFormed sorted found]
    simp only [covered_append, covered_cons, covered_nil]
    tauto
  | cons first rest =>
    rw [insert_intervals_of_cons s interval wellFormed sorted found]
    simp only [covered_append, covered_cons, covers_merged_iff s interval wellFormed sorted found]
    tauto

theorem covered_withdraw (ordered : interval.start ≤ interval.end) (x : Nat) :
    Covered (s.withdraw interval).intervals x ↔ Covered s.intervals x ∧ ¬ interval.Covers x := by
  have whole : Covered s.intervals x ↔ Covered (below 1 interval s.intervals ++
      touching 1 interval s.intervals ++ above 1 interval s.intervals) x := by
    rw [below_append_touching_append_above]
  -- the intervals below and above stay whole, and none of their points is in `interval`
  have lower : Covered (below 1 interval s.intervals) x → ¬ interval.Covers x :=
    not_covers_of_covered_below s interval
  have upper : Covered (above 1 interval s.intervals) x → ¬ interval.Covers x :=
    not_covers_of_covered_above s interval wellFormed sorted
  cases found : touching 1 interval s.intervals with
  | nil =>
    rw [withdraw_intervals_of_nil s interval wellFormed sorted found, whole, found]
    simp only [covered_append, covered_nil, or_false]
    tauto
  | cons first rest =>
    rw [withdraw_intervals_of_cons s interval wellFormed sorted (Nat.le_refl 1) ordered found, whole,
      found, List.append_assoc (below 1 interval s.intervals), covered_append, covered_append,
      covered_kept_iff s interval wellFormed sorted found, covered_append, covered_append]
    tauto

end Points

/-- On a sorted list with more than a unit between neighbours, the loop of `contains` answers
whether every point from `start` to `end` is covered. -/
theorem containsLoop_iff (positive : 1 ≤ unit) {start «end» : Nat} (ordered : start ≤ «end») :
    ∀ {intervals : List Interval}, (∀ i ∈ intervals, i.start ≤ i.end) → Sorted unit intervals →
      (containsLoop start «end» intervals = true ↔
        ∀ x, start ≤ x → x ≤ «end» → Covered intervals x)
  | [], _, _ => by
    simp only [containsLoop, Bool.false_eq_true, false_iff, not_forall]
    exact ⟨start, Nat.le_refl _, ordered, covered_nil start⟩
  | i :: rest, wellFormed, sorted => by
    have restSorted := (List.pairwise_cons.mp sorted).2
    have ih := containsLoop_iff positive ordered
      (fun r member => wellFormed r (List.mem_cons_of_mem i member)) restSorted
    -- nothing after `i` covers a point less than a unit past its end
    have restAbove : ∀ x, x ≤ i.end + unit → ¬ Covered rest x := by
      rintro x near ⟨r, member, low, -⟩
      have := (List.pairwise_cons.mp sorted).1 r member
      omega
    have iOrdered := wellFormed i List.mem_cons_self
    unfold containsLoop
    split_ifs with inside crossing
    · simp only [true_iff]
      intro x low high
      exact (covered_cons _ _ _).mpr (.inl ⟨by omega, by omega⟩)
    · -- `start` itself or the point just past `i` is missing
      simp only [false_iff, not_forall]
      by_cases early : start < i.start
      · refine ⟨start, Nat.le_refl _, ordered, ?_⟩
        rw [covered_cons]
        rintro (⟨low, -⟩ | covered)
        · omega
        · exact restAbove start (by omega) covered
      · refine ⟨i.end + 1, by omega, by omega, ?_⟩
        rw [covered_cons]
        rintro (⟨-, high⟩ | covered)
        · omega
        · exact restAbove _ (by omega) covered
    · rw [ih]
      constructor
      · intro covered x low high
        exact (covered_cons _ _ _).mpr (.inr (covered x low high))
      · intro covered x low high
        rcases (covered_cons _ _ _).mp (covered x low high) with ⟨-, inI⟩ | later
        · -- only `start = i.end` lies in `i`, and then the point after it is missing
          exfalso
          rcases (covered_cons _ _ _).mp (covered (i.end + 1) (by omega) (by omega)) with
            ⟨-, past⟩ | later'
          · omega
          · exact restAbove _ (by omega) later'
        · exact later

/-! ### Valid sets -/

section Valid

variable {maxValue : Nat} {s : IntervalSet unit} (valid : s.Valid maxValue)
include valid

theorem Valid.wellFormed : ∀ i ∈ s.intervals, i.start ≤ i.end :=
  fun i member => (valid.bounded i member).1

theorem Valid.sorted : Sorted unit s.intervals :=
  sorted_of_separated valid.wellFormed valid.separated

theorem insert_valid {interval : Interval}
    (fits : interval.start ≤ interval.end ∧ interval.end ≤ maxValue - unit) :
    (s.insert interval).Valid maxValue where
  bounded := insert_bounded s interval valid.wellFormed valid.sorted valid.bounded fits
  separated := separated_of_sorted (insert_sorted s interval valid.wellFormed valid.sorted)

theorem withdraw_valid (positive : 1 ≤ unit) {interval : Interval}
    (fits : interval.start ≤ interval.end ∧ interval.end ≤ maxValue - unit) :
    (s.withdraw interval).Valid maxValue where
  bounded := withdraw_bounded s interval valid.wellFormed valid.sorted positive valid.bounded fits
  separated := separated_of_sorted
    (withdraw_sorted s interval valid.wellFormed valid.sorted positive fits.1)

/-- Inserting one point leaves the version as it is exactly when the set has the point. -/
theorem insert_point_insertVersion_eq_iff (positive : 1 ≤ unit) (x : Nat) :
    (s.insert ⟨x, x⟩).insertVersion = s.insertVersion ↔ x ∈ s.points := by
  obtain ⟨grows, stays⟩ :=
    insert_insertVersion s ⟨x, x⟩ valid.wellFormed valid.sorted positive (Nat.le_refl x)
  have only : ∀ y, Interval.Covers ⟨x, x⟩ y → y = x := fun y ⟨low, high⟩ => Nat.le_antisymm high low
  by_cases present : Covered s.intervals x
  · refine iff_of_true (stays ?_) present
    rintro ⟨y, inside, outside⟩
    exact outside (only y inside ▸ present)
  · refine iff_of_false ?_ present
    rw [grows ⟨x, ⟨Nat.le_refl x, Nat.le_refl x⟩, present⟩]
    exact Nat.succ_ne_self _

theorem contains_iff (positive : 1 ≤ unit) {start «end» : Nat} (ordered : start ≤ «end») :
    s.contains start «end» = true ↔ Set.Icc start «end» ⊆ s.points := by
  rw [contains, containsLoop_iff positive ordered valid.wellFormed valid.sorted]
  constructor
  · rintro covered x ⟨low, high⟩
    exact covered x low high
  · intro covered x low high
    exact covered ⟨low, high⟩

end Valid

theorem points_insert {maxValue : Nat} {s : IntervalSet 1} (valid : s.Valid maxValue)
    (interval : Interval) :
    (s.insert interval).points = s.points ∪ Set.Icc interval.start interval.end := by
  ext x
  exact covered_insert s interval valid.wellFormed valid.sorted x

theorem points_withdraw {maxValue : Nat} {s : IntervalSet 1} (valid : s.Valid maxValue)
    {interval : Interval} (ordered : interval.start ≤ interval.end) :
    (s.withdraw interval).points = s.points \ Set.Icc interval.start interval.end := by
  ext x
  exact covered_withdraw s interval valid.wellFormed valid.sorted ordered x

/-- Inserting points the set does not have adds their number. -/
theorem length_pointList_insert {maxValue : Nat} {s : IntervalSet 1} (valid : s.Valid maxValue)
    {interval : Interval} (fits : interval.start ≤ interval.end ∧ interval.end ≤ maxValue - 1)
    (fresh : ∀ x, interval.Covers x → ¬ Covered s.intervals x) :
    (pointList (s.insert interval).intervals).length =
      (pointList s.intervals).length + (interval.end + 1 - interval.start) := by
  have points : (pointList (s.insert interval).intervals).toFinset =
      (pointList s.intervals).toFinset ∪ (List.range' interval.start (interval.end + 1 - interval.start)).toFinset := by
    ext x
    simp only [List.mem_toFinset, Finset.mem_union, mem_pointList, List.mem_range'_1,
      covered_insert s interval valid.wellFormed valid.sorted, Interval.Covers]
    exact or_congr_right ⟨fun ⟨low, high⟩ => ⟨low, by omega⟩, fun ⟨low, high⟩ => ⟨low, by omega⟩⟩
  have apart : Disjoint (pointList s.intervals).toFinset
      (List.range' interval.start (interval.end + 1 - interval.start)).toFinset := by
    rw [Finset.disjoint_left]
    intro x old new
    rw [List.mem_toFinset, mem_pointList] at old
    rw [List.mem_toFinset, List.mem_range'_1] at new
    exact fresh x ⟨by omega, by omega⟩ old
  rw [← List.toFinset_card_of_nodup (nodup_pointList (insert_valid valid fits).sorted), points,
    Finset.card_union_of_disjoint apart, List.toFinset_card_of_nodup (nodup_pointList valid.sorted),
    List.toFinset_card_of_nodup List.nodup_range', List.length_range']

/-- Withdrawing a point the set has removes one. -/
theorem length_pointList_withdraw {maxValue : Nat} {s : IntervalSet 1} (valid : s.Valid maxValue)
    {x : Nat} (fits : x ≤ maxValue - 1) (present : Covered s.intervals x) :
    (pointList (s.withdraw ⟨x, x⟩).intervals).length + 1 = (pointList s.intervals).length := by
  have points : (pointList (s.withdraw ⟨x, x⟩).intervals).toFinset =
      (pointList s.intervals).toFinset.erase x := by
    ext y
    simp only [List.mem_toFinset, Finset.mem_erase, mem_pointList,
      covered_withdraw s ⟨x, x⟩ valid.wellFormed valid.sorted (Nat.le_refl x), Interval.Covers]
    constructor
    · rintro ⟨covered, outside⟩
      exact ⟨by omega, covered⟩
    · rintro ⟨other, covered⟩
      exact ⟨covered, by omega⟩
  have member : x ∈ (pointList s.intervals).toFinset := by
    rw [List.mem_toFinset, mem_pointList]
    exact present
  rw [← List.toFinset_card_of_nodup
      (nodup_pointList (withdraw_valid valid (Nat.le_refl 1) ⟨Nat.le_refl x, fits⟩).sorted),
    points, Finset.card_erase_of_mem member, List.toFinset_card_of_nodup (nodup_pointList valid.sorted)]
  have : 0 < (pointList s.intervals).length := List.length_pos_of_mem (mem_pointList.mpr present)
  omega

theorem insert_withdraw_contains_unit_one (maxValue : Nat) (s : IntervalSet 1)
    (valid : s.Valid maxValue) (interval : Interval)
    (fits : interval.start ≤ interval.end ∧ interval.end ≤ maxValue - 1) :
    (s.insert interval).Valid maxValue ∧
      (s.insert interval).points = s.points ∪ Set.Icc interval.start interval.end ∧
      (s.withdraw interval).Valid maxValue ∧
      (s.withdraw interval).points = s.points \ Set.Icc interval.start interval.end ∧
      ∀ start «end», start ≤ «end» →
        (s.contains start «end» = true ↔ Set.Icc start «end» ⊆ s.points) :=
  ⟨insert_valid valid fits, points_insert valid interval, withdraw_valid valid (Nat.le_refl 1) fits,
    points_withdraw valid fits.1, fun _ _ ordered => contains_iff valid (Nat.le_refl 1) ordered⟩

/-- Inserting `[2, 3]` next to `[0, 1]` and withdrawing it again. -/
theorem insert_withdraw_contains_adjacent :
    (({ intervals := [⟨0, 1⟩, ⟨5, 6⟩] } : IntervalSet 1).insert ⟨2, 3⟩).points =
        ({ intervals := [⟨0, 1⟩, ⟨5, 6⟩] } : IntervalSet 1).points ∪ Set.Icc 2 3 ∧
      (({ intervals := [⟨0, 1⟩, ⟨5, 6⟩] } : IntervalSet 1).withdraw ⟨2, 3⟩).points =
        ({ intervals := [⟨0, 1⟩, ⟨5, 6⟩] } : IntervalSet 1).points \ Set.Icc 2 3 :=
  have laws := insert_withdraw_contains_unit_one (2 ^ 64 - 1) { intervals := [⟨0, 1⟩, ⟨5, 6⟩] }
    ⟨by unfold Bounded; decide, by unfold Separated; decide⟩ ⟨2, 3⟩ ⟨by decide, by decide⟩
  ⟨laws.2.1, laws.2.2.2.1⟩

/-- With a unit of 2 (the template allows any), `insert` merges `[0, 1]` and `[3, 4]`, two apart,
into `[0, 4]`, which covers 2, a point of neither. -/
theorem insert_unit_two_adds_point :
    ({ intervals := [⟨0, 1⟩] } : IntervalSet 2).Valid (2 ^ 64 - 1) ∧
      (({ intervals := [⟨0, 1⟩] } : IntervalSet 2).insert ⟨3, 4⟩).intervals = [⟨0, 4⟩] ∧
      2 ∈ (({ intervals := [⟨0, 1⟩] } : IntervalSet 2).insert ⟨3, 4⟩).points ∧
      2 ∉ ({ intervals := [⟨0, 1⟩] } : IntervalSet 2).points ∪ Set.Icc 3 4 := by
  have merged : (({ intervals := [⟨0, 1⟩] } : IntervalSet 2).insert ⟨3, 4⟩).intervals = [⟨0, 4⟩] := by
    decide
  refine ⟨⟨by unfold Bounded; decide, by unfold Separated; decide⟩, merged, ?_, ?_⟩
  · show Covered _ 2
    rw [merged]
    decide
  · rintro (covered | ⟨low, -⟩)
    · obtain ⟨i, member, low, high⟩ := covered
      rw [List.mem_singleton.mp member] at high
      exact absurd high (by decide)
    · exact absurd low (by decide)

end IntervalSet

end Mvfst
