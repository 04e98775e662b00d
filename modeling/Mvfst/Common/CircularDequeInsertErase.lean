import Mvfst.Common.CircularDequeRefinement

/-!
`emplace`, `insert` and `erase` as `std::vector`'s insertion and erasure. An iterator into a
well-formed deque sits at the slot of an element, or at `end_`; read through the offsets of the
elements from the front, its arithmetic (`advance`, `decrement`, `distance_to`,
`wrappedDistance`) is the arithmetic of the offsets. The two moving loops then shift a run of
elements by some slots, forwards or backwards round the ring, and the erasing loops destroy a run.
-/

namespace Mvfst

namespace CircularDeque

variable {α : Type} {d : CircularDeque α} {v : List α}

theorem iterIndex_of_lt {t : Nat} (within : t < d.size) : d.iterIndex t = d.slotOf t :=
  if_neg (Nat.ne_of_lt within)

theorem advanceBy_neg (index m : Nat) : d.advanceBy index (-(m : Int)) = d.retreat index m := by
  unfold advanceBy
  split_ifs with nonneg
  · have zero : m = 0 := by omega
    subst zero
    rfl
  · rw [Int.natAbs_neg, Int.natAbs_natCast]

section Offsets

variable (wf : d.Wf)
include wf

theorem Wf.slotOf_zero : d.slotOf 0 = d.begin := by
  have := wf.beginLt
  unfold slotOf
  split_ifs <;> omega

theorem Wf.slotOf_lt_capacity {t : Nat} (within : t < d.capacity) : d.slotOf t < d.capacity := by
  have := wf.beginLt
  unfold slotOf
  split_ifs <;> omega

theorem Wf.iterIndex_injective {a b : Nat} (ha : a ≤ d.size) (hb : b ≤ d.size)
    (same : d.iterIndex a = d.iterIndex b) : a = b := by
  rcases Nat.lt_trichotomy a b with below | equal | above
  · rw [iterIndex_of_lt (by omega)] at same
    exact absurd same (wf.slotOf_ne_iterIndex below hb)
  · exact equal
  · rw [iterIndex_of_lt (t := b) (by omega)] at same
    exact absurd same.symm (wf.slotOf_ne_iterIndex above ha)

/-- The destination of `moveOrCopy` steps to the next offset's slot. -/
theorem Wf.slotOf_succ {t : Nat} (within : t + 1 < d.capacity) :
    (if d.slotOf t = d.capacity - 1 then 0 else d.slotOf t + 1) = d.slotOf (t + 1) := by
  have := wf.beginLt
  unfold slotOf
  split_ifs <;> omega

theorem Wf.slotOf_pred {t : Nat} (within : t + 1 < d.capacity) :
    (if d.slotOf (t + 1) = 0 then d.capacity - 1 else d.slotOf (t + 1) - 1) = d.slotOf t := by
  have := wf.beginLt
  unfold slotOf
  split_ifs <;> first | contradiction | omega

/-- The destination of `reverseMoveOrCopy` steps to the previous offset's slot, also from the
`end_` of either encoding. -/
theorem Wf.iterIndex_pred {t : Nat} (within : t < d.capacity) :
    (if d.iterIndex (t + 1) = 0 then d.capacity - 1 else d.iterIndex (t + 1) - 1) = d.slotOf t := by
  have := wf.beginLt
  have := wf.endLe
  have := wf.size_le
  unfold iterIndex slotOf
  -- a slot past the front is never 0, which `split_ifs` records as `False`
  rcases Nat.lt_or_ge d.end d.begin with wrap | straight
  · rw [size_of_wrapped wrap]
    split_ifs <;> first | contradiction | omega
  · rw [size_of_straight straight]
    split_ifs <;> first | contradiction | omega

theorem Wf.decrement_iterIndex {t : Nat} (within : t < d.size) :
    d.decrement (d.iterIndex (t + 1)) = d.slotOf t := by
  have := wf.beginLt
  have := wf.endLe
  unfold decrement iterIndex slotOf wrapped
  simp only [decide_eq_true_eq]
  rcases Nat.lt_or_ge d.end d.begin with wrap | straight
  · rw [size_of_wrapped wrap] at within ⊢
    split_ifs <;> first | contradiction | omega
  · rw [size_of_straight straight] at within ⊢
    split_ifs <;> first | contradiction | omega

theorem Wf.retreat_iterIndex {m : Nat} :
    ∀ {t : Nat}, m ≤ t → t ≤ d.size → d.retreat (d.iterIndex t) m = d.iterIndex (t - m) := by
  induction m with
  | zero => intro t _ _; rfl
  | succ m ih =>
    intro t enough within
    obtain ⟨t, rfl⟩ : ∃ s, t = s + 1 := ⟨t - 1, by omega⟩
    rw [retreat, wf.decrement_iterIndex (by omega), ← iterIndex_of_lt (by omega),
      ih (by omega) (by omega)]
    congr 1
    omega

theorem Wf.wrappedDistance_iterIndex {a b : Nat} (ordered : a ≤ b) (within : b ≤ d.size) :
    d.wrappedDistance (d.iterIndex a) (d.iterIndex b) = b - a := by
  have := wf.beginLt
  have := wf.endLe
  have := wf.size_le
  unfold wrappedDistance iterIndex slotOf
  rcases Nat.lt_or_ge d.end d.begin with wrap | straight
  · rw [size_of_wrapped wrap] at within ⊢
    split_ifs <;> omega
  · rw [size_of_straight straight] at within ⊢
    split_ifs <;> omega

/-- `distance_to` between the iterators of two offsets is their difference: on a wrapped deque
the two sides of the wrap compare the other way round, and the comparison says which side. -/
theorem Wf.distanceTo_iterIndex {a b : Nat} (ha : a ≤ d.size) (hb : b ≤ d.size) :
    d.distanceTo (d.iterIndex a) (d.iterIndex b) = (b : Int) - a := by
  unfold distanceTo
  by_cases same : d.iterIndex a = d.iterIndex b
  · rw [if_pos same, wf.iterIndex_injective ha hb same, sub_self]
  rw [if_neg same]
  have backward : (if d.wrapped = true then
      if (d.iterIndex a ≥ d.begin ∧ d.iterIndex b ≥ d.begin) ∨
          (d.iterIndex a ≤ d.end ∧ d.iterIndex b ≤ d.end) then d.iterIndex a > d.iterIndex b
      else d.iterIndex a < d.iterIndex b
    else d.iterIndex a > d.iterIndex b) ↔ b < a := by
    have := wf.beginLt
    have := wf.endLe
    have := wf.size_le
    have apart : a ≠ b := fun equal => same (congrArg d.iterIndex equal)
    unfold iterIndex slotOf wrapped at *
    simp only [decide_eq_true_eq]
    rcases Nat.lt_or_ge d.end d.begin with wrap | straight
    · rw [size_of_wrapped wrap] at ha hb ⊢
      split_ifs <;> omega
    · rw [size_of_straight straight] at ha hb ⊢
      split_ifs <;> omega
  dsimp only
  by_cases behind : b < a
  · rw [if_pos (backward.mpr behind), wf.wrappedDistance_iterIndex (Nat.le_of_lt behind) ha]
    omega
  · rw [if_neg (fun back => behind (backward.mp back)),
      wf.wrappedDistance_iterIndex (Nat.le_of_not_lt behind) hb]
    omega

theorem Wf.difference_iterIndex {a b : Nat} (ha : a ≤ d.size) (hb : b ≤ d.size) :
    d.difference (d.iterIndex a) (d.iterIndex b) = (a : Int) - b := by
  rw [difference, wf.distanceTo_iterIndex ha hb]
  omega

/-- The iterator's `operator+(1)` steps to the next offset, or to `end()` after the back. -/
theorem Wf.advance_iterIndex {t : Nat} (within : t < d.size) : d.advance (d.iterIndex t) 1 = d.iterIndex (t + 1) := by
  have := wf.beginLt
  have := wf.endLe
  have := wf.size_le
  -- the step reaches the modulus only from the last slot of the ring
  have reduce : ∀ n m : Nat, n ≤ m → n % m = if n = m then 0 else n := by
    intro n m below
    split_ifs with full
    · rw [full, Nat.mod_self]
    · exact Nat.mod_eq_of_lt (by omega)
  rw [iterIndex_of_lt within]
  unfold advance iterIndex slotOf wrapped
  simp only [decide_eq_true_eq]
  rw [if_neg one_ne_zero]
  rcases Nat.lt_or_ge d.end d.begin with wrap | straight
  · rw [size_of_wrapped wrap] at within ⊢
    rw [if_pos wrap, reduce _ _ (by split_ifs <;> omega)]
    split_ifs <;> omega
  · rw [size_of_straight straight] at within ⊢
    rw [if_neg (show ¬ d.end < d.begin by omega), reduce _ _ (by split_ifs <;> omega)]
    split_ifs <;> omega

theorem Wf.difference_begin {t : Nat} (within : t ≤ d.size) : d.difference (d.iterIndex t) d.begin = t := by
  rw [← wf.iterIndex_zero, wf.difference_iterIndex within (Nat.zero_le _)]
  omega

theorem Wf.advanceBy_begin {t : Nat} (within : t < d.size) : d.advanceBy d.begin t = d.slotOf t := by
  rw [advanceBy, if_pos (Int.natCast_nonneg t), Int.toNat_natCast]
  exact wf.advance_begin within

/-- The slot of offset `m` taken as the front: the offsets count from there. -/
theorem Wf.slotOf_from {storage : List (Option α)} {m e t : Nat} (within : m + t < d.capacity) :
    slotOf ⟨storage, d.capacity, d.slotOf m, e⟩ t = d.slotOf (m + t) := by
  have := wf.beginLt
  unfold slotOf
  dsimp only
  split_ifs <;> omega

theorem Wf.size_of_iterIndex {storage : List (Option α)} {m n : Nat} (ordered : m ≤ n) (within : n ≤ d.size)
    (front : m < d.size) : size ⟨storage, d.capacity, d.iterIndex m, d.iterIndex n⟩ = n - m := by
  have := wf.beginLt
  have := wf.endLe
  have := wf.size_le
  unfold size iterIndex slotOf
  dsimp only
  rcases Nat.lt_or_ge d.end d.begin with wrap | straight
  · rw [size_of_wrapped wrap] at within front ⊢
    split_ifs <;> omega
  · rw [size_of_straight straight] at within front ⊢
    split_ifs <;> omega

end Offsets

section Storage

theorem getD_set_none (storage : List (Option α)) (index index' : Nat) :
    (storage.set index none).getD index' none = if index' = index then none else storage.getD index' none := by
  rw [List.getD_eq_getElem?_getD, List.getElem?_set, List.getD_eq_getElem?_getD]
  split_ifs <;> simp_all

theorem getD_destroy (storage : List (Option α)) (indices : List Nat) (index : Nat) :
    (destroy storage indices).getD index none =
      if index ∈ indices then none else storage.getD index none := by
  induction indices generalizing storage with
  | nil => rfl
  | cons first rest ih =>
    rw [destroy, List.foldl_cons, ← destroy, ih, getD_set_none]
    by_cases later : index ∈ rest
    · simp [later]
    · by_cases here : index = first <;> simp [later, here]

theorem length_moveOrCopyLoop (last : Nat) :
    ∀ fuel (storage : List (Option α)) (iter dest : Nat),
      (d.moveOrCopyLoop last fuel storage iter dest).length = storage.length := by
  intro fuel
  induction fuel with
  | zero => intro storage iter dest; rfl
  | succ fuel ih =>
    intro storage iter dest
    unfold moveOrCopyLoop
    split
    · rfl
    · rw [ih, List.length_set]

theorem length_reverseMoveOrCopyLoop (first : Nat) :
    ∀ fuel (storage : List (Option α)) (iter dest : Nat),
      (d.reverseMoveOrCopyLoop first fuel storage iter dest).length = storage.length := by
  intro fuel
  induction fuel with
  | zero => intro storage iter dest; rfl
  | succ fuel ih =>
    intro storage iter dest
    unfold reverseMoveOrCopyLoop
    split
    · rfl
    · rw [ih, List.length_set]

variable (wf : d.Wf)
include wf

/-- Writing the slot of one offset leaves the slots of the others. -/
theorem Wf.getD_set_slotOf {storage : List (Option α)} (sized : storage.length = d.capacity) {o t : Nat}
    (ho : o < d.capacity) (ht : t < d.capacity) (value : Option α) :
    (storage.set (d.slotOf o) value).getD (d.slotOf t) none =
      if t = o then value else storage.getD (d.slotOf t) none := by
  split_ifs with same
  · subst same
    exact getD_set_self (by rw [sized]; exact wf.slotOf_lt_capacity ho)
  · exact getD_set_ne fun equal => same (wf.slotOf_injective ht ho equal.symm)

/-- `moveOrCopy`'s loop from the element at offset `i` to the one at `last`, writing from the slot
of offset `o` on: the slots of the offsets from `o` take the elements from `i` on. Each element is
read before the loop writes its slot, since the writes stay behind the reads. -/
theorem Wf.moveOrCopyLoop_spec {last : Nat} (within : last ≤ d.size) :
    ∀ fuel {i o : Nat} (storage : List (Option α)), storage.length = d.capacity → o < i → i ≤ last →
      last - i < fuel → ∀ t < d.capacity,
        (d.moveOrCopyLoop (d.iterIndex last) fuel storage (d.iterIndex i) (d.slotOf o)).getD (d.slotOf t) none =
          if o ≤ t ∧ t < o + (last - i) then storage.getD (d.slotOf (t + (i - o))) none
          else storage.getD (d.slotOf t) none := by
  have room := wf.size_le
  intro fuel
  induction fuel with
  | zero => intro i o storage _ _ _ short; omega
  | succ fuel ih =>
    intro i o storage sized behind upTo enough t ht
    by_cases done : i = last
    · subst done
      rw [moveOrCopyLoop, if_pos rfl, if_neg (by omega)]
    have inside : i < d.size := by omega
    have written := ih (i := i + 1) (o := o + 1)
      (storage.set (d.slotOf o) (storage.getD (d.slotOf i) none)) (by rw [List.length_set, sized])
      (by omega) (by omega) (by omega) t ht
    rw [moveOrCopyLoop, if_neg (fun same => done (wf.iterIndex_injective (by omega) within same)),
      iterIndex_of_lt inside, wf.increment_slotOf inside, wf.slotOf_succ (by omega), written]
    by_cases shifted : o + 1 ≤ t ∧ t < o + 1 + (last - (i + 1))
    · rw [if_pos shifted, if_pos (by omega), wf.getD_set_slotOf sized (by omega) (by omega), if_neg (by omega)]
      congr 2
      omega
    · rw [if_neg shifted, wf.getD_set_slotOf sized (by omega) ht]
      by_cases first : t = o
      · subst first
        rw [if_pos rfl, if_pos (by omega)]
        congr 2
        omega
      · rw [if_neg first, if_neg (by omega)]

/-- `reverseMoveOrCopy`'s loop from the element before offset `e` back to the one at `first`,
each to the slot `δ` offsets further on: the destination starts one past the slot of `e - 1 + δ`.
The writes stay ahead of the reads. -/
theorem Wf.reverseMoveOrCopyLoop_spec {first δ : Nat} (positive : 0 < δ) :
    ∀ fuel {e : Nat} (storage : List (Option α)) (dest : Nat), storage.length = d.capacity →
      first ≤ e → e ≤ d.size → e + δ ≤ d.capacity → e - first < fuel →
      (first < e → (if dest = 0 then d.capacity - 1 else dest - 1) = d.slotOf (e - 1 + δ)) →
      ∀ t < d.capacity,
        (d.reverseMoveOrCopyLoop (d.iterIndex first) fuel storage (d.iterIndex e) dest).getD
            (d.slotOf t) none =
          if first + δ ≤ t ∧ t < e + δ then storage.getD (d.slotOf (t - δ)) none
          else storage.getD (d.slotOf t) none := by
  have room := wf.size_le
  intro fuel
  induction fuel with
  | zero => intro e storage dest _ _ _ _ short; omega
  | succ fuel ih =>
    intro e storage dest sized upTo within fits enough previous t ht
    by_cases done : first = e
    · subst done
      rw [reverseMoveOrCopyLoop, if_pos rfl, if_neg (by omega)]
    obtain ⟨e, rfl⟩ : ∃ s, e = s + 1 := ⟨e - 1, by omega⟩
    have written := ih (e := e)
      (storage.set (d.slotOf (e + δ)) (storage.getD (d.slotOf e) none)) (d.slotOf (e + δ))
      (by rw [List.length_set, sized]) (by omega) (by omega) (by omega) (by omega)
      (fun _ => by
        obtain ⟨u, hu⟩ : ∃ u, e + δ = u + 1 := ⟨e + δ - 1, by omega⟩
        rw [hu, wf.slotOf_pred (by omega)]
        congr 1
        omega) t ht
    have destination : (if dest = 0 then d.capacity - 1 else dest - 1) = d.slotOf (e + δ) := by
      rw [previous (by omega), Nat.add_sub_cancel]
    rw [iterIndex_of_lt (t := e) (by omega)] at written
    rw [reverseMoveOrCopyLoop,
      if_neg (fun same => done (wf.iterIndex_injective within (by omega) same).symm)]
    dsimp only
    rw [destination, wf.decrement_iterIndex (by omega), written]
    by_cases shifted : first + δ ≤ t ∧ t < e + δ
    · rw [if_pos shifted, if_pos (by omega), wf.getD_set_slotOf sized (by omega) (by omega), if_neg (by omega)]
    · rw [if_neg shifted, wf.getD_set_slotOf sized (by omega) ht]
      by_cases last : t = e + δ
      · subst last
        rw [if_pos rfl, if_pos (by omega), Nat.add_sub_cancel]
      · rw [if_neg last, if_neg (by omega)]

/-- Destroying the walk from the element at offset `a` to the one at `b` empties their slots. -/
theorem Wf.getD_destroy_walk {storage : List (Option α)} {a b : Nat} (ordered : a ≤ b) (within : b ≤ d.size)
    {t : Nat} (ht : t < d.capacity) :
    (destroy storage (d.walk (d.iterIndex b) (d.capacity + 1) (d.iterIndex a))).getD (d.slotOf t) none =
      if a ≤ t ∧ t < b then none else storage.getD (d.slotOf t) none := by
  have room := wf.size_le
  rw [wf.walk_iterIndex within (b - a) a (by omega) _ (by omega), getD_destroy]
  congr 1
  apply propext
  rw [List.mem_map]
  constructor
  · rintro ⟨u, member, same⟩
    rw [List.mem_range'] at member
    obtain ⟨k, short, rfl⟩ := member
    have equal := wf.slotOf_injective (by omega) ht same
    omega
  · rintro ⟨low, high⟩
    exact ⟨t, List.mem_range'.mpr ⟨t - a, by omega, by omega⟩, rfl⟩

/-- A deque on the same ring whose front and end are the iterators of offsets `m ≤ n` holds the
values read at the slots of the offsets from `m` to `n`. -/
theorem Wf.refines_of_iterIndex {storage : List (Option α)} (sized : storage.length = d.capacity)
    {m n : Nat} (ordered : m ≤ n) (within : n ≤ d.size) (front : m < d.size) {w : List α}
    (length : w.length = n - m)
    (reads : ∀ t (inside : t < w.length), storage.getD (d.slotOf (m + t)) none = some w[t]) :
    (⟨storage, d.capacity, d.iterIndex m, d.iterIndex n⟩ : CircularDeque α).Refines w := by
  have room := wf.size_le
  have full := wf.size_lt (by omega)
  have newSize : size ⟨storage, d.capacity, d.iterIndex m, d.iterIndex n⟩ = n - m :=
    wf.size_of_iterIndex ordered within front
  have beginSlot : d.iterIndex m = d.slotOf m := iterIndex_of_lt front
  have bounded : d.iterIndex n ≤ d.capacity := by
    unfold iterIndex
    split_ifs
    · exact wf.endLe
    · exact Nat.le_of_lt (wf.slotOf_lt_capacity (by omega))
  have wf' : Wf ⟨storage, d.capacity, d.iterIndex m, d.iterIndex n⟩ :=
    { length := sized
      beginLt := .inr (by rw [beginSlot]; exact wf.slotOf_lt_capacity (by omega))
      endLe := bounded
      room := .inr (by rw [newSize]; dsimp only; omega) }
  rw [wf'.refines_iff]
  refine ⟨by rw [newSize, length], fun t inside => ?_⟩
  show storage.getD (slotOf ⟨storage, d.capacity, d.iterIndex m, d.iterIndex n⟩ t) none = _
  rw [beginSlot, wf.slotOf_from (by omega)]
  exact reads t inside

end Storage

section Erase

variable {first last : Nat}

/-- A run at the front goes by moving `begin_` to its end. -/
theorem Refines.eraseFront (r : d.Refines v) (before : last < v.length) :
    (⟨destroy d.storage (d.walk (d.iterIndex last) (d.capacity + 1) (d.iterIndex 0)), d.capacity,
      d.iterIndex last, d.end⟩ : CircularDeque α).Refines (v.drop last) := by
  have wf := r.wf
  have sized := r.size_eq
  rw [← iterIndex_size]
  apply wf.refines_of_iterIndex (by rw [length_destroy, wf.length]) (by omega) (Nat.le_refl _) (by omega)
  · rw [List.length_drop, sized]
  · intro t inside
    rw [List.length_drop] at inside
    rw [wf.getD_destroy_walk (Nat.zero_le _) (by omega) (by have := wf.size_le; omega), if_neg (by omega),
      List.getElem_drop]
    exact r.read_slotOf (by omega)

/-- A run at the back goes by moving `end_` to its start. -/
theorem Refines.eraseBack (r : d.Refines v) (before : first < v.length) :
    (⟨destroy d.storage (d.walk (d.iterIndex v.length) (d.capacity + 1) (d.iterIndex first)), d.capacity,
      d.begin, d.iterIndex first⟩ : CircularDeque α).Refines (v.take first) := by
  have wf := r.wf
  have sized := r.size_eq
  rw [← wf.iterIndex_zero]
  apply wf.refines_of_iterIndex (by rw [length_destroy, wf.length]) (Nat.zero_le _) (by omega) (by omega)
  · rw [List.length_take, Nat.sub_zero]
    omega
  · intro t inside
    rw [List.length_take] at inside
    rw [Nat.zero_add, wf.getD_destroy_walk (Nat.le_of_lt before) (by omega)
      (by have := wf.size_le; omega), if_neg (by omega), List.getElem_take]
    exact r.read_slotOf (by omega)

theorem getElem?_take_append_drop (ordered : first ≤ last) (within : last ≤ v.length) (t : Nat) :
    (v.take first ++ v.drop last)[t]? = if t < first then v[t]? else v[t + (last - first)]? := by
  have taken : (v.take first).length = first := by rw [List.length_take]; omega
  split_ifs with low
  · rw [List.getElem?_append_left (by omega), List.getElem?_take_of_lt low]
  · rw [List.getElem?_append_right (by omega), taken, List.getElem?_drop]
    congr 1
    omega

theorem Refines.getD_slotOf (r : d.Refines v) {t : Nat} (within : t < v.length) :
    d.storage.getD (d.slotOf t) none = v[t]? := by
  rw [List.getElem?_eq_getElem within]
  exact r.read_slotOf within

/-- In the middle, with fewer elements before the run than after it, the elements before it move
up against its end, and the slots they leave are destroyed. -/
theorem Refines.eraseMiddleFront (r : d.Refines v) (positive : 0 < first) (ordered : first < last)
    (before : last < v.length) :
    (⟨destroy (d.reverseMoveOrCopy d.storage (d.iterIndex 0) (d.iterIndex first) (d.iterIndex last))
        (d.walk (d.iterIndex (last - first)) (d.capacity + 1) (d.iterIndex 0)),
      d.capacity, d.iterIndex (last - first), d.end⟩ : CircularDeque α).Refines
        (v.take first ++ v.drop last) := by
  have wf := r.wf
  have sized := r.size_eq
  have room := wf.size_le
  have moved : d.reverseMoveOrCopy d.storage (d.iterIndex 0) (d.iterIndex first) (d.iterIndex last) =
      d.reverseMoveOrCopyLoop (d.iterIndex 0) (d.capacity + 1) d.storage (d.iterIndex first) (d.iterIndex last) :=
    if_neg (by
      rintro (same | same)
      · exact absurd (wf.iterIndex_injective (by omega) (by omega) same) (by omega)
      · exact absurd (wf.iterIndex_injective (by omega) (by omega) same) (by omega))
  have shift := wf.reverseMoveOrCopyLoop_spec (δ := last - first) (by omega) (d.capacity + 1)
    d.storage (d.iterIndex last) wf.length (Nat.zero_le first) (by omega) (by omega) (by omega)
    (fun _ => by
      obtain ⟨u, hu⟩ : ∃ u, last = u + 1 := ⟨last - 1, by omega⟩
      rw [iterIndex_of_lt (by omega), hu, wf.slotOf_pred (by omega)]
      congr 1
      omega)
  have total : (v.take first ++ v.drop last).length = v.length - (last - first) := by
    simp only [List.length_append, List.length_take, List.length_drop]
    omega
  rw [moved, ← iterIndex_size]
  apply wf.refines_of_iterIndex (m := last - first) (n := d.size)
    (by rw [length_destroy, length_reverseMoveOrCopyLoop, wf.length]) (by omega) (Nat.le_refl _) (by omega)
  · rw [total]
    omega
  · intro t inside
    rw [total] at inside
    rw [← List.getElem?_eq_getElem, wf.getD_destroy_walk (Nat.zero_le _) (by omega) (by omega), if_neg (by omega),
      shift _ (by omega), getElem?_take_append_drop (Nat.le_of_lt ordered) (by omega)]
    by_cases low : t < first
    · rw [if_pos (by omega), if_pos low, show last - first + t - (last - first) = t by omega]
      exact r.getD_slotOf (by omega)
    · rw [if_neg (by omega), if_neg low, show last - first + t = t + (last - first) by omega]
      exact r.getD_slotOf (by omega)

/-- In the middle, with fewer elements after the run, the elements after it move down against its
start, and the slots left at the back are destroyed. -/
theorem Refines.eraseMiddleBack (r : d.Refines v) (ordered : first < last) (before : last < v.length) :
    (⟨destroy (d.moveOrCopy d.storage (d.iterIndex last) d.end (d.iterIndex first))
        (d.walk d.end (d.capacity + 1) (d.iterIndex (v.length - (last - first)))),
      d.capacity, d.begin, d.iterIndex (v.length - (last - first))⟩ : CircularDeque α).Refines
        (v.take first ++ v.drop last) := by
  have wf := r.wf
  have sized := r.size_eq
  have room := wf.size_le
  have moved : d.moveOrCopy d.storage (d.iterIndex last) d.end (d.iterIndex first) =
      d.moveOrCopyLoop d.end (d.capacity + 1) d.storage (d.iterIndex last) (d.slotOf first) := by
    rw [moveOrCopy, if_neg, iterIndex_of_lt (t := first) (by omega)]
    rintro (same | same)
    · rw [← iterIndex_size] at same
      exact absurd (wf.iterIndex_injective (by omega) (Nat.le_refl _) same) (by omega)
    · exact absurd (wf.iterIndex_injective (by omega) (by omega) same) (by omega)
  have shift := wf.moveOrCopyLoop_spec (Nat.le_refl d.size) (d.capacity + 1) (i := last) (o := first)
    d.storage wf.length ordered (by omega) (by omega)
  have total : (v.take first ++ v.drop last).length = v.length - (last - first) := by
    simp only [List.length_append, List.length_take, List.length_drop]
    omega
  rw [moved, ← wf.iterIndex_zero, ← iterIndex_size]
  apply wf.refines_of_iterIndex (m := 0) (n := v.length - (last - first))
    (by rw [length_destroy, length_moveOrCopyLoop, wf.length]) (Nat.zero_le _) (by omega) (by omega)
  · rw [total]
    omega
  · intro t inside
    rw [total] at inside
    rw [← List.getElem?_eq_getElem, Nat.zero_add,
      wf.getD_destroy_walk (a := v.length - (last - first)) (by omega) (Nat.le_refl _) (by omega),
      if_neg (by omega),
      shift _ (by omega), getElem?_take_append_drop (Nat.le_of_lt ordered) (by omega)]
    by_cases low : t < first
    · rw [if_neg (by omega), if_pos low]
      exact r.getD_slotOf (by omega)
    · rw [if_pos (by omega), if_neg low]
      exact r.getD_slotOf (by omega)

/-- `erase(first, last)` on the iterators of offsets `first ≤ last` erases those elements from the
vector, and returns the iterator to the element after them. -/
theorem Refines.erase (r : d.Refines v) (ordered : first ≤ last) (within : last ≤ v.length) :
    (d.erase (d.iterIndex first) (d.iterIndex last)).1.Refines (v.take first ++ v.drop last) ∧
      (d.erase (d.iterIndex first) (d.iterIndex last)).2 =
        (d.erase (d.iterIndex first) (d.iterIndex last)).1.iterIndex first := by
  have wf := r.wf
  have sized := r.size_eq
  have room := wf.size_le
  by_cases same : first = last
  · subst same
    have kept : d.erase (d.iterIndex first) (d.iterIndex first) = (d, d.iterIndex first) := if_pos rfl
    rw [kept, List.take_append_drop]
    exact ⟨r, rfl⟩
  have apart : d.iterIndex first ≠ d.iterIndex last := fun equal =>
    same (wf.iterIndex_injective (by omega) (by omega) equal)
  unfold CircularDeque.erase
  rw [if_neg apart, wf.wrappedDistance_iterIndex ordered (by omega)]
  by_cases everything : last - first = d.size
  · -- the whole deque: `clear()`
    rw [if_pos everything]
    obtain ⟨rfl, rfl⟩ : first = 0 ∧ last = v.length := by omega
    have cleared := r.clear
    dsimp only
    rw [List.take_zero, List.drop_length, List.nil_append]
    refine ⟨cleared, ?_⟩
    rw [iterIndex, if_pos (by rw [cleared.size_eq]; rfl)]
  rw [if_neg everything]
  have front : d.iterIndex first = d.begin ↔ first = 0 :=
    ⟨fun equal => wf.iterIndex_injective (by omega) (Nat.zero_le _) (equal.trans wf.iterIndex_zero.symm),
      fun zero => zero ▸ wf.iterIndex_zero⟩
  have back : d.iterIndex last = d.end ↔ last = v.length :=
    ⟨fun equal => (wf.iterIndex_injective (by omega) (Nat.le_refl _) (equal.trans iterIndex_size.symm)).trans sized,
      fun full => by rw [full, ← sized, iterIndex_size]⟩
  by_cases atEnds : first = 0 ∨ last = v.length
  · rw [if_pos (by rwa [front, back])]
    dsimp only
    by_cases zero : first = 0
    · -- from the front
      subst zero
      rw [if_pos wf.iterIndex_zero]
      have erased := r.eraseFront (by omega : last < v.length)
      rw [List.take_zero, List.nil_append]
      exact ⟨erased, erased.wf.iterIndex_zero.symm⟩
    · -- to the back
      rw [if_neg (mt front.mp zero)]
      obtain rfl : last = v.length := by omega
      have erased := r.eraseBack (by omega : first < v.length)
      rw [List.drop_length, List.append_nil]
      exact ⟨erased, (if_pos (by rw [erased.size_eq, List.length_take]; omega)).symm⟩
  -- in the middle: the iterator arithmetic is the arithmetic of the offsets
  rw [if_neg (by rwa [front, back])]
  dsimp only
  have slotAt {t : Nat} (inside : t < v.length) : d.advanceBy d.begin (t : Int) = d.iterIndex t := by
    rw [wf.advanceBy_begin (by omega), iterIndex_of_lt (by omega)]
  have fromFront : d.wrappedDistance d.begin (d.iterIndex first) = first := by
    rw [← wf.iterIndex_zero, wf.wrappedDistance_iterIndex (Nat.zero_le _) (by omega), Nat.sub_zero]
  have toBack : d.wrappedDistance (d.iterIndex last) d.end = v.length - last := by
    rw [← iterIndex_size, wf.wrappedDistance_iterIndex (by omega) (Nat.le_refl _), sized]
  have removed : d.difference (d.iterIndex last) (d.iterIndex first) = ((last - first : Nat) : Int) := by
    rw [wf.difference_iterIndex (by omega) (by omega)]
    omega
  rw [fromFront, toBack, wf.difference_begin (by omega), wf.difference_begin (t := last) (by omega), slotAt (by omega),
    slotAt (t := last) (by omega)]
  by_cases shorter : first < v.length - last
  · -- the elements before the run move up
    rw [if_pos shorter, advanceBy_neg, wf.retreat_iterIndex (by omega) (by omega),
      wf.difference_begin (t := last - first) (by omega), slotAt (t := last - first) (by omega), ← wf.iterIndex_zero]
    have erased := r.eraseMiddleFront (by omega : 0 < first) (by omega : first < last) (by omega)
    refine ⟨erased, ?_⟩
    have newSize := erased.size_eq
    rw [List.length_append, List.length_take, List.length_drop] at newSize
    dsimp only
    rw [iterIndex_of_lt (t := last - first) (by omega)] at newSize ⊢
    refine ((iterIndex_of_lt (by omega)).trans ?_).symm
    rw [wf.slotOf_from (by omega), iterIndex_of_lt (t := last) (by omega)]
    congr 1
    omega
  · -- the elements after the run move down
    rw [if_neg shorter, removed, advanceBy_neg, ← iterIndex_size, wf.retreat_iterIndex (by omega) (Nat.le_refl _),
      iterIndex_size, sized]
    have erased := r.eraseMiddleBack (by omega : first < last) (by omega)
    refine ⟨erased, ?_⟩
    have newSize := erased.size_eq
    rw [List.length_append, List.length_take, List.length_drop] at newSize
    dsimp only
    -- the new deque keeps the old begin, so both iterators are the same slot
    refine (iterIndex_of_lt (by omega)).trans (if_neg ?_).symm
    omega

end Erase


section Emplace

variable {offset : Nat}

theorem length_moveOrCopy (storage : List (Option α)) (first last destFirst : Nat) :
    (d.moveOrCopy storage first last destFirst).length = storage.length := by
  unfold moveOrCopy
  split_ifs
  · rfl
  · exact length_moveOrCopyLoop last _ storage first destFirst

theorem length_reverseMoveOrCopy (storage : List (Option α)) (first last destLast : Nat) :
    (d.reverseMoveOrCopy storage first last destLast).length = storage.length := by
  unfold reverseMoveOrCopy
  split_ifs
  · rfl
  · exact length_reverseMoveOrCopyLoop first _ storage last destLast

variable (wf : d.Wf)
include wf

/-- The slot after the back that `emplace` in the middle fills: `end_`, or slot `0` once `end_`
reached `capacity_`. -/
theorem Wf.wrappedEnd_eq :
    (if d.end = d.capacity then d.advance d.end 1 else d.end) = if d.end = d.capacity then 0 else d.end := by
  have := wf.beginLt
  split_ifs with full
  · unfold advance wrapped
    rw [if_neg one_ne_zero, if_neg (by simp only [decide_eq_true_eq]; omega), full, Nat.mod_self]
  · rfl

theorem Wf.advance_back (room : d.size + 1 < d.capacity) :
    d.advance (if d.end = d.capacity then 0 else d.end) 1 = (if d.end = d.capacity then 0 else d.end) + 1 := by
  have := wf.beginLt
  have := wf.endLe
  unfold advance wrapped
  simp only [decide_eq_true_eq]
  rw [if_neg one_ne_zero]
  apply Nat.mod_eq_of_lt
  rcases Nat.lt_or_ge d.end d.begin with wrap | straight
  · rw [size_of_wrapped wrap] at room
    split_ifs <;> omega
  · rw [size_of_straight straight] at room
    split_ifs <;> omega

/-- The move of `emplace` towards the back: the elements from offset `first` on go one slot on. -/
theorem Wf.getD_reverseMoveOrCopy_toEnd {first : Nat} (inside : first < d.size) {storage : List (Option α)}
    (sized : storage.length = d.capacity) {t : Nat} (ht : t < d.capacity) :
    (d.reverseMoveOrCopy storage (d.slotOf first) (d.retreat d.end 1) d.end).getD (d.slotOf t) none =
      if first < t ∧ t < d.size then storage.getD (d.slotOf (t - 1)) none else storage.getD (d.slotOf t) none := by
  have room := wf.size_le
  rw [← iterIndex_size, wf.retreat_iterIndex (by omega) (Nat.le_refl _), ← iterIndex_of_lt inside]
  by_cases nothing : d.iterIndex first = d.iterIndex (d.size - 1) ∨ d.iterIndex (d.size - 1) = d.iterIndex d.size
  · -- `first` is the back element already
    rw [reverseMoveOrCopy, if_pos nothing]
    rcases nothing with same | same
    · have := wf.iterIndex_injective (by omega) (by omega) same
      rw [if_neg (by omega)]
    · have := wf.iterIndex_injective (by omega) (Nat.le_refl _) same
      omega
  · rw [reverseMoveOrCopy, if_neg nothing, wf.reverseMoveOrCopyLoop_spec Nat.one_pos (d.capacity + 1) storage
      (d.iterIndex d.size) sized (by omega : first ≤ d.size - 1) (by omega) (by omega) (by omega) ?_ t ht]
    · split_ifs <;> first | rfl | omega
    · intro _
      have pred := wf.iterIndex_pred (t := d.size - 1) (by omega)
      rwa [Nat.sub_add_cancel (by omega : 1 ≤ d.size), ← Nat.sub_add_cancel (by omega : 1 ≤ d.size - 1)] at pred

/-- The move of `emplace` towards the front: the elements after the front one and before offset
`last` go one slot back. -/
theorem Wf.getD_moveOrCopy_toFront {last : Nat} (positive : 0 < last) (inside : last < d.size)
    {storage : List (Option α)} (sized : storage.length = d.capacity) {t : Nat} (ht : t < d.capacity) :
    (d.moveOrCopy storage (d.advance d.begin 1) (d.slotOf last) d.begin).getD (d.slotOf t) none =
      if t + 1 < last then storage.getD (d.slotOf (t + 1)) none else storage.getD (d.slotOf t) none := by
  have room := wf.size_le
  rw [wf.advance_begin (by omega), ← wf.slotOf_zero, ← iterIndex_of_lt (t := 1) (by omega),
    ← iterIndex_of_lt inside]
  by_cases nothing : d.iterIndex 1 = d.iterIndex last ∨ d.iterIndex 1 = d.slotOf 0
  · -- `last` is the element after the front
    rw [moveOrCopy, if_pos nothing]
    rcases nothing with same | same
    · have := wf.iterIndex_injective (by omega) (by omega) same
      rw [if_neg (by omega)]
    · rw [iterIndex_of_lt (by omega)] at same
      exact absurd (wf.slotOf_injective (by omega) (by omega) same) (by omega)
  · rw [moveOrCopy, if_neg nothing, wf.moveOrCopyLoop_spec (Nat.le_of_lt inside) (d.capacity + 1) storage sized
      Nat.zero_lt_one (by omega) (by omega) t ht]
    split_ifs <;> first | rfl | omega

/-- A ring with room and one more slot at its back holds what the slots from its front read. -/
theorem Wf.refines_setBack (room : d.size + 1 < d.capacity) {storage : List (Option α)}
    (sized : storage.length = d.capacity) {w : List α} (length : w.length = d.size + 1)
    (reads : ∀ t < w.length, storage.getD (d.slotOf t) none = w[t]?) :
    (⟨storage, d.capacity, d.begin, (if d.end = d.capacity then 0 else d.end) + 1⟩ : CircularDeque α).Refines w := by
  have newSize := wf.size_setBack room storage
  have := wf.endLe
  have grown : Wf ⟨storage, d.capacity, d.begin, (if d.end = d.capacity then 0 else d.end) + 1⟩ :=
    { length := sized
      beginLt := wf.beginLt
      endLe := by dsimp only; split_ifs <;> omega
      room := .inr (by rw [newSize]; dsimp only; omega) }
  refine grown.refines_iff.mpr ⟨by rw [newSize, length], fun t inside => ?_⟩
  rw [← List.getElem?_eq_getElem inside]
  exact reads t inside

/-- A ring with room and one more slot before its front holds what that slot and then the old
slots read. -/
theorem Wf.refines_setFront (room : d.size + 1 < d.capacity) {storage : List (Option α)}
    (sized : storage.length = d.capacity) {w : List α} (length : w.length = d.size + 1)
    (front : storage.getD (d.slotOf (d.capacity - 1)) none = w[0]?)
    (reads : ∀ t < d.size, storage.getD (d.slotOf t) none = w[t + 1]?) :
    (⟨storage, d.capacity, if d.begin = 0 then d.capacity - 1 else d.begin - 1, d.end⟩ :
      CircularDeque α).Refines w := by
  have newSize := wf.size_setFront room storage
  have := wf.beginLt
  have grown : Wf ⟨storage, d.capacity, if d.begin = 0 then d.capacity - 1 else d.begin - 1, d.end⟩ :=
    { length := sized
      beginLt := .inr (by dsimp only; split_ifs <;> omega)
      endLe := wf.endLe
      room := .inr (by rw [newSize]; dsimp only; omega) }
  refine grown.refines_iff.mpr ⟨by rw [newSize, length], fun t inside => ?_⟩
  rw [← List.getElem?_eq_getElem inside]
  cases t with
  | zero =>
    show storage.getD (slotOf _ 0) none = _
    rw [grown.slotOf_zero]
    dsimp only
    rw [← wf.slotOf_before (by omega)]
    exact front
  | succ t =>
    show storage.getD (slotOf _ (t + 1)) none = _
    rw [slotOf_setFront wf storage (by omega)]
    exact reads t (by omega)

omit wf in
/-- `emplace` in the middle of a ring with room, at the iterator of offset `offset`: the side with
fewer elements moves one slot outwards, and the returned iterator is the new element's. -/
theorem Refines.emplaceInMiddle (r : d.Refines v) (room : v.length + 1 < d.capacity) (positive : 0 < offset)
    (inside : offset < v.length) (value : α) :
    (d.emplaceInMiddle (d.iterIndex offset) value).1.Refines (v.insertIdx offset value) ∧
      (d.emplaceInMiddle (d.iterIndex offset) value).2 =
        (d.emplaceInMiddle (d.iterIndex offset) value).1.iterIndex offset := by
  have wf := r.wf
  have sized := r.size_eq
  have := wf.size_le
  have length : (v.insertIdx offset value).length = d.size + 1 := by
    rw [List.length_insertIdx, if_pos (by omega), sized]
  have fromFront : d.wrappedDistance d.begin (d.iterIndex offset) = offset := by
    rw [← wf.iterIndex_zero, wf.wrappedDistance_iterIndex (Nat.zero_le _) (by omega), Nat.sub_zero]
  have toBack : d.wrappedDistance (d.iterIndex offset) d.end = v.length - offset := by
    rw [← iterIndex_size, wf.wrappedDistance_iterIndex (by omega) (Nat.le_refl _), sized]
  have position : d.advanceBy d.begin (d.difference (d.iterIndex offset) d.begin) = d.slotOf offset := by
    rw [wf.difference_begin (by omega), wf.advanceBy_begin (by omega)]
  unfold CircularDeque.emplaceInMiddle
  dsimp only
  rw [fromFront, toBack, position, iterIndex_of_lt (d := d) (t := offset) (by omega)]
  by_cases back : v.length - offset ≤ offset
  · -- the elements from `offset` on move one slot towards the back
    rw [if_pos back]
    dsimp only
    have prev : (if d.end = 0 then d.capacity - 1 else d.end - 1) = d.slotOf (d.size - 1) := by
      have pred := wf.iterIndex_pred (t := d.size - 1) (by omega)
      rwa [Nat.sub_add_cancel (by omega : 1 ≤ d.size), iterIndex_size] at pred
    rw [wf.wrappedEnd_eq, wf.advance_back (by omega), prev, read]
    refine ⟨wf.refines_setBack (by omega) ?_ length fun t inside => ?_, (if_neg ?_).symm⟩
    · simp only [List.length_set, length_reverseMoveOrCopy, wf.length]
    · rw [length] at inside
      rw [wf.getD_set_slotOf (by simp only [length_reverseMoveOrCopy, List.length_set, wf.length]) (by omega)
        (by omega), List.getElem?_insertIdx]
      by_cases here : t = offset
      · rw [if_pos here, if_neg (by omega), if_pos here, if_pos (by omega)]
      rw [if_neg here, wf.getD_reverseMoveOrCopy_toEnd (by omega) (by rw [List.length_set, wf.length]) (by omega),
        ← wf.slotOf_size (by omega)]
      by_cases shifted : offset < t ∧ t < d.size
      · rw [if_pos shifted, wf.getD_set_slotOf wf.length (by omega) (by omega), if_neg (by omega), if_neg (by omega),
          if_neg here]
        exact r.getD_slotOf (by omega)
      rw [if_neg shifted, wf.getD_set_slotOf wf.length (by omega) (by omega)]
      by_cases last : t = d.size
      · -- the old back element, copied to the new slot
        rw [if_pos last, if_neg (by omega), if_neg here, last]
        exact r.getD_slotOf (by omega)
      · rw [if_neg last, if_pos (by omega)]
        exact r.getD_slotOf (by omega)
    · rw [wf.size_setBack (by omega)]
      omega
  · -- the elements before `offset` move one slot towards the front
    rw [if_neg back]
    dsimp only
    obtain ⟨o, rfl⟩ : ∃ o, offset = o + 1 := ⟨offset - 1, by omega⟩
    have sized' : ((d.storage.set (if d.begin = 0 then d.capacity - 1 else d.begin - 1) (d.read d.begin))).length =
        d.capacity := by
      rw [List.length_set, wf.length]
    rw [wf.slotOf_pred (by omega)]
    refine ⟨wf.refines_setFront (by omega) ?_ length ?_ fun t inside => ?_,
      (slotOf_setFront wf _ (by omega)).symm.trans (if_neg ?_).symm⟩
    · simp only [List.length_set, length_moveOrCopy, wf.length]
    · -- the old front element, copied to the slot before it
      rw [wf.getD_set_slotOf (by rw [length_moveOrCopy, sized']) (by omega) (by omega), if_neg (by omega),
        wf.getD_moveOrCopy_toFront (by omega) (by omega) sized' (by omega), if_neg (by omega),
        ← wf.slotOf_before (by omega), wf.getD_set_slotOf wf.length (by omega) (by omega), if_pos rfl, read,
        ← wf.slotOf_zero, List.getElem?_insertIdx, if_pos (by omega)]
      exact r.getD_slotOf (by omega)
    · rw [wf.getD_set_slotOf (by rw [length_moveOrCopy, sized']) (by omega) (by omega), List.getElem?_insertIdx]
      by_cases here : t = o
      · rw [if_pos here, if_neg (by omega), if_pos (by omega), if_pos (by omega)]
      rw [if_neg here, wf.getD_moveOrCopy_toFront (by omega) (by omega) sized' (by omega),
        ← wf.slotOf_before (by omega)]
      by_cases low : t + 1 < o + 1
      · rw [if_pos low, wf.getD_set_slotOf wf.length (by omega) (by omega), if_neg (by omega), if_pos low]
        exact r.getD_slotOf (by omega)
      · rw [if_neg low, wf.getD_set_slotOf wf.length (by omega) (by omega), if_neg (by omega), if_neg (by omega),
          if_neg (by omega), Nat.add_sub_cancel]
        exact r.getD_slotOf (by omega)
    · rw [wf.size_setFront (by omega)]
      omega

omit wf in
/-- `emplace(pos, value)` at the iterator of offset `offset ≤ size()` inserts the value at that
offset of the vector and returns the iterator to it; `insert` is the same call. -/
theorem Refines.emplace (r : d.Refines v) (inside : offset ≤ v.length) (value : α) :
    (d.emplace (d.iterIndex offset) value).1.Refines (v.insertIdx offset value) ∧
      (d.emplace (d.iterIndex offset) value).2 = (d.emplace (d.iterIndex offset) value).1.iterIndex offset := by
  have wf := r.wf
  have sized := r.size_eq
  unfold CircularDeque.emplace
  by_cases atEnd : offset = v.length
  · -- at the end: emplace_back, which returns the iterator before the new end
    subst atEnd
    rw [if_pos (by rw [← sized, iterIndex_size])]
    dsimp only
    have pushed : (d.emplaceBack value).Refines (v ++ [value]) := r.pushBack value
    have newSize := pushed.size_eq
    rw [List.length_append, List.length_singleton] at newSize
    rw [List.insertIdx_length_self]
    refine ⟨pushed, ?_⟩
    rw [iterIndex_of_lt (d := d.emplaceBack value) (by omega), show v.length = (d.emplaceBack value).size - 1 by omega,
      pushed.wf.slotOf_last (by omega)]
    split_ifs <;> rfl
  have notEnd : d.iterIndex offset ≠ d.end := fun same =>
    atEnd ((wf.iterIndex_injective (by omega) (Nat.le_refl _) (same.trans iterIndex_size.symm)).trans sized)
  rw [if_neg notEnd]
  by_cases atFront : offset = 0
  · -- at the front: emplace_front
    subst atFront
    rw [if_pos wf.iterIndex_zero]
    dsimp only
    have pushed : (d.emplaceFront value).Refines (value :: v) := r.pushFront value
    rw [List.insertIdx_zero]
    exact ⟨pushed, pushed.wf.iterIndex_zero.symm⟩
  have notFront : d.iterIndex offset ≠ d.begin := fun same =>
    atFront (wf.iterIndex_injective (by omega) (Nat.zero_le _) (same.trans wf.iterIndex_zero.symm))
  rw [if_neg notFront]
  dsimp only
  rw [wf.difference_begin (by omega)]
  have := wf.size_le
  by_cases full : d.needSpace = true
  · -- a full ring grows first, and the position is found again at its offset from the new front
    rw [if_pos full]
    have spare : v.length + 1 = d.capacity := by
      unfold needSpace maxSize at full
      simp only [beq_iff_eq] at full
      split_ifs at full <;> omega
    have moved : d.maxSize ≠ growCapacity d.capacity := by
      unfold maxSize growCapacity
      split_ifs <;> omega
    have grown := r.resize (by unfold growCapacity; omega : v.length ≤ growCapacity d.capacity)
    have roomy : v.length + 1 < (d.resize (growCapacity d.capacity)).capacity := by
      rw [capacity_resize moved]
      unfold growCapacity
      omega
    rw [grown.wf.advanceBy_begin (by rw [grown.size_eq]; omega), ← iterIndex_of_lt (by rw [grown.size_eq]; omega)]
    exact grown.emplaceInMiddle roomy (by omega) (by omega) value
  · rw [if_neg full]
    have roomy : v.length + 1 < d.capacity := by
      unfold needSpace maxSize at full
      simp only [beq_iff_eq] at full
      have := wf.room
      split_ifs at full <;> omega
    exact r.emplaceInMiddle roomy (by omega) (by omega) value

end Emplace

end CircularDeque

end Mvfst
