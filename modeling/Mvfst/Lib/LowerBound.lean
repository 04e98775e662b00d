import Mathlib

/-!
`std::lower_bound` as the C++ standard library runs it: a binary search over `[first, first + len)`
that keeps every element before `first` on the near side of the comparison and every element from
`first + len` on the far side. On a list that is split into a run of elements satisfying `before`
followed by a run that does not, the search returns the length of the first run.
-/

namespace LowerBound

variable {α : Type}

/-- The search loop: `before x` is the comparator `comp(x, value)`, and `fuel` bounds the rounds
(each round shrinks `len`, so `len` rounds are enough). -/
def search (before : α → Bool) (xs : List α) : Nat → Nat → Nat → Nat
  | 0, first, _ => first
  | fuel + 1, first, len =>
    if len = 0 then first
    else
      let half := len / 2
      let middle := first + half
      if (xs[middle]?.map before).getD false then
        search before xs fuel (middle + 1) (len - half - 1)
      else search before xs fuel first half

/-- `std::lower_bound(xs.begin(), xs.end(), value, comp)` as an index. -/
def lowerBound (before : α → Bool) (xs : List α) : Nat :=
  search before xs xs.length 0 xs.length

section Partitioned

variable (before : α → Bool) (ys zs : List α)

/-- The loop invariant: the answer `ys.length` lies in `[first, first + len]` inside the list. -/
theorem search_eq_of_bracket (near : ∀ y ∈ ys, before y = true) (far : ∀ z ∈ zs, before z = false) :
    ∀ fuel first len, len ≤ fuel → first ≤ ys.length → ys.length ≤ first + len →
      first + len ≤ ys.length + zs.length → search before (ys ++ zs) fuel first len = ys.length := by
  intro fuel
  induction fuel with
  | zero =>
    intro first len room lower upper _
    simp only [search]
    omega
  | succ fuel ih =>
    intro first len room lower upper inside
    simp only [search]
    split
    · omega
    · rename_i nonempty
      have middle_lt : first + len / 2 < ys.length + zs.length := by omega
      by_cases left : first + len / 2 < ys.length
      · have lookup : (ys ++ zs)[first + len / 2]? = ys[first + len / 2]? :=
          List.getElem?_append_left left
        rw [lookup, List.getElem?_eq_getElem left]
        simp only [Option.map_some, Option.getD_some, near _ (List.getElem_mem left), if_true]
        exact ih _ _ (by omega) (by omega) (by omega) (by omega)
      · have right : first + len / 2 - ys.length < zs.length := by omega
        have lookup : (ys ++ zs)[first + len / 2]? = zs[first + len / 2 - ys.length]? :=
          List.getElem?_append_right (by omega)
        rw [lookup, List.getElem?_eq_getElem right]
        simp only [Option.map_some, Option.getD_some, far _ (List.getElem_mem right)]
        exact ih _ _ (by omega) (by omega) (by omega) (by omega)

/-- On a list whose elements satisfy `before` up to some point and fail it afterwards, the
binary search finds that point. -/
theorem lowerBound_append (near : ∀ y ∈ ys, before y = true) (far : ∀ z ∈ zs, before z = false) :
    lowerBound before (ys ++ zs) = ys.length := by
  unfold lowerBound
  rw [List.length_append]
  exact search_eq_of_bracket before ys zs near far _ 0 _ (Nat.le_refl _) (Nat.zero_le _)
    (by omega) (by omega)

/-- On a list where an element satisfying `before` is preceded only by such elements, all that
`dropWhile` leaves fails `before`. -/
theorem not_before_of_mem_dropWhile {xs : List α}
    (partitioned : xs.Pairwise fun x y => before y = true → before x = true) :
    ∀ z ∈ xs.dropWhile before, before z = false := by
  intro z member
  obtain ⟨first, rest, split⟩ := List.exists_cons_of_ne_nil (List.ne_nil_of_mem member)
  have head : before first = false := by
    simpa [split] using @List.head_dropWhile_not α before xs (by simp [split])
  have ordered : (first :: rest).Pairwise fun x y => before y = true → before x = true :=
    split ▸ partitioned.sublist (List.dropWhile_suffix before).sublist
  rcases List.mem_cons.mp (split ▸ member) with rfl | later
  · exact head
  · cases reached : before z
    · rfl
    · have := (List.pairwise_cons.mp ordered).1 z later reached
      simp [head] at this

/-- On such a list the binary search finds the first element that fails `before`. -/
theorem lowerBound_eq_findIdx {xs : List α}
    (partitioned : xs.Pairwise fun x y => before y = true → before x = true) :
    lowerBound before xs = xs.findIdx fun x => !before x := by
  have whole : xs.takeWhile before ++ xs.dropWhile before = xs := List.takeWhile_append_dropWhile
  calc lowerBound before xs = lowerBound before (xs.takeWhile before ++ xs.dropWhile before) := by
        rw [whole]
    _ = (xs.takeWhile before).length :=
        lowerBound_append before _ _ (fun y member => List.mem_takeWhile_imp member)
          (not_before_of_mem_dropWhile before partitioned)
    _ = xs.findIdx fun x => !before x := by
        rw [List.takeWhile_eq_take_findIdx_not, List.length_take]
        exact Nat.min_eq_left List.findIdx_le_length

end Partitioned

theorem search_map {β : Type} (before : α → Bool) (f : β → α) (xs : List β) (fuel first len : Nat) :
    search (fun x => before (f x)) xs fuel first len = search before (xs.map f) fuel first len := by
  induction fuel generalizing first len with
  | zero => rfl
  | succ fuel ih => simp only [search, List.getElem?_map, Option.map_map, Function.comp_def, ih]

/-- The search reads the elements only through `before`. -/
theorem lowerBound_map {β : Type} (before : α → Bool) (f : β → α) (xs : List β) :
    lowerBound (fun x => before (f x)) xs = lowerBound before (xs.map f) := by
  simp only [lowerBound, search_map, List.length_map]

example : lowerBound (fun n => decide (n < 5)) [1, 3, 5, 7, 9] = 2 := by decide

end LowerBound
