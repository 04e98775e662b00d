import Mathlib.Data.List.GetD
import Mvfst.Common.CircularDeque

/-!
The deque as a sequence. A well-formed deque (`Wf`) reads, at its iterator's positions from
`begin()` to `end()`, the slots `begin_, begin_ + 1, ...` around the ring; `Refines d v` says
those slots hold exactly the values of `v`. The pushes, pops, `clear` and `resize` keep the
refinement with the matching `std::vector` operations. The assignments keep it only when they
start from slot 0: `clear()` leaves an empty deque's `begin_` where earlier pops left it, and the
copy then writes from slot 0 regardless.
-/

namespace Mvfst

namespace CircularDeque

variable {α : Type} (d : CircularDeque α)

/-- Indices in range, one slot free. -/
structure Wf : Prop where
  length : d.storage.length = d.capacity
  beginLt : d.capacity = 0 ∧ d.begin = 0 ∨ d.begin < d.capacity
  endLe : d.end ≤ d.capacity
  room : d.capacity = 0 ∨ d.size < d.capacity

/-- The slot of the element `offset` places after the front: around the ring at most once. -/
def slotOf (offset : Nat) : Nat :=
  if d.begin + offset < d.capacity then d.begin + offset else d.begin + offset - d.capacity

/-- The iterator index of the element `offset` places after the front, `end()` after the last. -/
def iterIndex (offset : Nat) : Nat := if offset = d.size then d.end else d.slotOf offset

/-- The deque holds the values of `v`, in order. -/
def Refines (v : List α) : Prop := d.Wf ∧ d.toList = v.map some

variable {d}

theorem size_of_wrapped (wrap : d.end < d.begin) : d.size = d.end + d.capacity - d.begin :=
  if_pos wrap

theorem size_of_straight (straight : d.begin ≤ d.end) : d.size = d.end - d.begin :=
  if_neg (Nat.not_lt.mpr straight)

theorem iterIndex_size : d.iterIndex d.size = d.end := if_pos rfl

section View

variable (wf : d.Wf)
include wf

theorem Wf.size_lt (allocated : 0 < d.capacity) : d.size < d.capacity := by
  rcases wf.room with none | room
  · omega
  · exact room

theorem Wf.empty_of_unallocated (unallocated : d.capacity = 0) : d.begin = 0 ∧ d.end = 0 := by
  have := wf.endLe
  rcases wf.beginLt with ⟨-, zero⟩ | below
  · omega
  · omega

theorem Wf.size_le : d.size ≤ d.capacity := by
  rcases Nat.eq_zero_or_pos d.capacity with unallocated | allocated
  · obtain ⟨beginZero, endZero⟩ := wf.empty_of_unallocated unallocated
    rw [size_of_straight (by omega)]
    omega
  · exact Nat.le_of_lt (wf.size_lt allocated)

/-- Two offsets within the ring never share a slot. -/
theorem Wf.slotOf_injective {offset offset' : Nat} (within : offset < d.capacity)
    (within' : offset' < d.capacity) (same : d.slotOf offset = d.slotOf offset') : offset = offset' := by
  have := wf.beginLt
  unfold slotOf at same
  split_ifs at same <;> omega

theorem Wf.slotOf_ne_end {offset : Nat} (within : offset < d.size) : d.slotOf offset ≠ d.end := by
  have := wf.endLe
  have := wf.beginLt
  unfold slotOf
  rcases Nat.lt_or_ge d.end d.begin with wrap | straight
  · rw [size_of_wrapped wrap] at within
    split_ifs <;> omega
  · rw [size_of_straight straight] at within
    split_ifs <;> omega

/-- The iterator steps from each element's slot to the next one's, and from the last to `end()`. -/
theorem Wf.increment_slotOf {offset : Nat} (within : offset < d.size) :
    d.increment (d.slotOf offset) = d.iterIndex (offset + 1) := by
  have := wf.endLe
  have := wf.beginLt
  have room := wf.size_le
  unfold increment iterIndex slotOf wrapped
  simp only [decide_eq_true_eq]
  rcases Nat.lt_or_ge d.end d.begin with wrap | straight
  · rw [size_of_wrapped wrap] at within room ⊢
    split_ifs <;> omega
  · rw [size_of_straight straight] at within room ⊢
    split_ifs <;> omega

theorem Wf.iterIndex_zero : d.iterIndex 0 = d.begin := by
  have := wf.beginLt
  unfold iterIndex slotOf
  rcases Nat.lt_or_ge d.end d.begin with wrap | straight
  · rw [size_of_wrapped wrap]
    split_ifs <;> omega
  · rw [size_of_straight straight]
    split_ifs <;> omega

theorem Wf.slotOf_ne_iterIndex {offset last : Nat} (before : offset < last) (within : last ≤ d.size) :
    d.slotOf offset ≠ d.iterIndex last := by
  unfold iterIndex
  split_ifs with atEnd
  · exact wf.slotOf_ne_end (by omega)
  · have := wf.size_le
    exact fun same => Nat.ne_of_lt before (wf.slotOf_injective (by omega) (by omega) same)

/-- From the slot of element `offset` the iterator walks over the slots of the elements up to
`last`, and stops there. -/
theorem Wf.walk_iterIndex {last : Nat} (within : last ≤ d.size) :
    ∀ remaining offset, offset + remaining = last → ∀ fuel, remaining < fuel →
      d.walk (d.iterIndex last) fuel (d.iterIndex offset) = (List.range' offset remaining).map d.slotOf := by
  intro remaining
  induction remaining with
  | zero =>
    intro offset reached fuel enough
    obtain ⟨fuel, rfl⟩ : ∃ rest, fuel = rest + 1 := ⟨fuel - 1, by omega⟩
    simp only [walk, Nat.add_zero] at reached ⊢
    simp [reached]
  | succ remaining ih =>
    intro offset reached fuel enough
    obtain ⟨fuel, rfl⟩ : ∃ rest, fuel = rest + 1 := ⟨fuel - 1, by omega⟩
    have inside : offset < d.size := by omega
    have index : d.iterIndex offset = d.slotOf offset := if_neg (by omega)
    rw [walk, index, if_neg (wf.slotOf_ne_iterIndex (by omega) within), wf.increment_slotOf inside,
      ih (offset + 1) (by omega) fuel (by omega), List.range'_succ, List.map_cons]

/-- The iterator visits the slots of the elements in order. -/
theorem Wf.slots_eq : d.slots = (List.range d.size).map d.slotOf := by
  have room := wf.size_le
  rw [slots, ← wf.iterIndex_zero, ← iterIndex_size,
    wf.walk_iterIndex (Nat.le_refl _) d.size 0 (Nat.zero_add _) _ (by omega), List.range_eq_range']

theorem Wf.toList_eq : d.toList = (List.range d.size).map fun offset => d.read (d.slotOf offset) := by
  rw [toList, wf.slots_eq, List.map_map]
  rfl

theorem Wf.length_toList : d.toList.length = d.size := by
  rw [wf.toList_eq, List.length_map, List.length_range]

theorem Wf.refines_iff {v : List α} :
    d.Refines v ↔ d.size = v.length ∧
      ∀ offset (within : offset < v.length), d.read (d.slotOf offset) = some v[offset] := by
  unfold Refines
  rw [wf.toList_eq]
  constructor
  · rintro ⟨-, same⟩
    have length := congrArg List.length same
    simp only [List.length_map, List.length_range] at length
    refine ⟨length, fun offset within => ?_⟩
    have entry := congrArg (·[offset]?) same
    simpa [List.getElem?_range (show offset < d.size by omega), within] using entry
  · rintro ⟨size, reads⟩
    refine ⟨wf, List.ext_getElem (by simp [size]) fun offset inside inside' => ?_⟩
    simp only [List.getElem_map, List.getElem_range]
    exact reads offset (by simpa using inside')

end View

theorem getD_set_self {storage : List (Option α)} {index : Nat} {value : Option α}
    (within : index < storage.length) : (storage.set index value).getD index none = value := by
  rw [List.getD_eq_getElem?_getD, List.getElem?_set_self within]
  rfl

theorem getD_set_ne {storage : List (Option α)} {index index' : Nat} {value : Option α}
    (apart : index ≠ index') : (storage.set index value).getD index' none = storage.getD index' none := by
  rw [List.getD_eq_getElem?_getD, List.getD_eq_getElem?_getD, List.getElem?_set_ne apart]

end CircularDeque

end Mvfst

namespace Mvfst

namespace CircularDeque

variable {α : Type} {d : CircularDeque α} {v : List α}

section Operations

theorem Refines.wf (r : d.Refines v) : d.Wf := r.1

theorem Refines.size_eq (r : d.Refines v) : d.size = v.length :=
  (r.wf.refines_iff.mp r).1

theorem Refines.read_slotOf (r : d.Refines v) {offset : Nat} (within : offset < v.length) :
    d.read (d.slotOf offset) = some v[offset] :=
  (r.wf.refines_iff.mp r).2 offset within

theorem Refines.getD_toList (r : d.Refines v) {offset : Nat} (within : offset < v.length) :
    d.toList.getD offset none = some v[offset] := by
  rw [r.2, List.getD_eq_getElem?_getD, List.getElem?_map, List.getElem?_eq_getElem within]
  rfl

/-- A resize to at least the size moves the elements to slots `0, 1, ...` of a new ring. -/
theorem Refines.resize (r : d.Refines v) {count : Nat} (enough : v.length ≤ count) :
    (d.resize count).Refines v := by
  unfold CircularDeque.resize
  split_ifs with unchanged
  · exact r
  have size := r.size_eq
  have length := r.wf.length_toList
  have wf : Wf ⟨(d.toList ++ List.replicate (count + 1) none).take (count + 1), count + 1, 0,
      min count d.size⟩ :=
    { length := by simp only [List.length_take, List.length_append, List.length_replicate]; omega
      beginLt := .inr (Nat.succ_pos count)
      endLe := by dsimp only; omega
      room := .inr (by rw [size_of_straight (Nat.zero_le _)]; dsimp only; omega) }
  rw [wf.refines_iff]
  refine ⟨by rw [size_of_straight (Nat.zero_le _)]; dsimp only; omega, fun offset within => ?_⟩
  have slot : slotOf ⟨(d.toList ++ List.replicate (count + 1) none).take (count + 1), count + 1, 0,
      min count d.size⟩ offset = offset := by
    unfold slotOf
    dsimp only
    rw [if_pos (by omega), Nat.zero_add]
  rw [slot, read]
  dsimp only
  rw [List.getD_eq_getElem?_getD, List.getElem?_take_of_lt (by omega), List.getElem?_append_left (by omega),
    ← List.getD_eq_getElem?_getD, r.getD_toList within]

theorem capacity_resize {count : Nat} (moved : d.maxSize ≠ count) : (d.resize count).capacity = count + 1 := by
  rw [CircularDeque.resize, if_neg moved]

/-- A full ring grows by half (or to `kInitCapacity` slots), which leaves room for one more. -/
theorem Refines.growIfNeeded (r : d.Refines v) :
    d.growIfNeeded.Refines v ∧ v.length + 1 < d.growIfNeeded.capacity := by
  have size := r.size_eq
  have fits := r.wf.size_le
  unfold CircularDeque.growIfNeeded
  by_cases full : d.needSpace = true
  · rw [if_pos full]
    simp only [needSpace, beq_iff_eq] at full
    have grown : d.size < (if d.capacity = 0 then kInitCapacity else growCapacity d.capacity) := by
      unfold maxSize at full
      unfold kInitCapacity growCapacity
      split_ifs at full ⊢ <;> omega
    have moved : d.maxSize ≠ (if d.capacity = 0 then kInitCapacity else growCapacity d.capacity) := by
      omega
    exact ⟨r.resize (by omega), by rw [capacity_resize moved]; omega⟩
  · rw [if_neg full]
    simp only [needSpace, beq_iff_eq] at full
    refine ⟨r, ?_⟩
    unfold maxSize at full
    split_ifs at full with unallocated
    · obtain ⟨beginZero, endZero⟩ := r.wf.empty_of_unallocated unallocated
      rw [size_of_straight (by omega)] at full
      omega
    · have := r.wf.size_lt (by omega)
      omega

/-- The back of a ring with room is the slot after the last element, `0` once `end_` reached
`capacity_`. -/
theorem Wf.slotOf_size (wf : d.Wf) (room : d.size + 1 < d.capacity) :
    d.slotOf d.size = if d.end = d.capacity then 0 else d.end := by
  have := wf.endLe
  have := wf.beginLt
  unfold slotOf
  rcases Nat.lt_or_ge d.end d.begin with wrap | straight
  · rw [size_of_wrapped wrap] at room ⊢
    split_ifs <;> omega
  · rw [size_of_straight straight] at room ⊢
    split_ifs <;> omega

/-- Writing the back slot of a ring with room adds one to the size. -/
theorem Wf.size_setBack (wf : d.Wf) (room : d.size + 1 < d.capacity) (storage : List (Option α)) :
    size ⟨storage, d.capacity, d.begin, (if d.end = d.capacity then 0 else d.end) + 1⟩ = d.size + 1 := by
  have := wf.endLe
  have := wf.beginLt
  rcases Nat.lt_or_ge ((if d.end = d.capacity then 0 else d.end) + 1) d.begin with wrap | straight
  · rw [size_of_wrapped wrap]
    dsimp only
    rcases Nat.lt_or_ge d.end d.begin with wrap' | straight'
    · rw [size_of_wrapped wrap'] at room ⊢
      split_ifs at wrap ⊢ <;> omega
    · rw [size_of_straight straight'] at room ⊢
      split_ifs at wrap ⊢ <;> omega
  · rw [size_of_straight straight]
    dsimp only
    rcases Nat.lt_or_ge d.end d.begin with wrap' | straight'
    · rw [size_of_wrapped wrap'] at room ⊢
      split_ifs at straight ⊢ <;> omega
    · rw [size_of_straight straight'] at room ⊢
      split_ifs at straight ⊢ <;> omega

theorem Refines.pushBack (r : d.Refines v) (value : α) : (d.pushBack value).Refines (v ++ [value]) := by
  obtain ⟨grown, room⟩ := r.growIfNeeded
  unfold CircularDeque.pushBack CircularDeque.emplaceBack
  generalize d.growIfNeeded = g at grown room ⊢
  dsimp only
  have wf := grown.wf
  have size := grown.size_eq
  have := wf.endLe
  have index : g.slotOf v.length = if g.end = g.capacity then 0 else g.end :=
    size ▸ wf.slotOf_size (by omega)
  have newSize := wf.size_setBack (by omega)
    (g.storage.set (if g.end = g.capacity then 0 else g.end) (some value))
  refine (Wf.refines_iff ?_).mpr ⟨?_, fun offset within => ?_⟩
  · exact {
      length := by simp only [List.length_set]; exact wf.length
      beginLt := wf.beginLt
      endLe := by dsimp only; split_ifs <;> omega
      room := .inr (by rw [newSize]; dsimp only; omega) }
  · rw [newSize, size, List.length_append, List.length_singleton]
  · -- the slots of the old elements are untouched, and the new one is at the old size
    show (g.storage.set _ (some value)).getD (g.slotOf offset) none = _
    rw [List.length_append, List.length_singleton] at within
    rcases Nat.lt_or_ge offset v.length with old | new
    · have apart : g.slotOf v.length ≠ g.slotOf offset := fun same =>
        Nat.ne_of_gt old (wf.slotOf_injective (by omega) (by omega) same)
      rw [← index, getD_set_ne apart, List.getElem_append_left old]
      exact grown.read_slotOf old
    · have same : offset = v.length := by omega
      subst same
      rw [← index, getD_set_self (by rw [wf.length, index]; split_ifs <;> omega)]
      simp

/-- The slot before the front, where `emplace_front` writes. -/
theorem Wf.slotOf_before (wf : d.Wf) (allocated : 0 < d.capacity) :
    d.slotOf (d.capacity - 1) = if d.begin = 0 then d.capacity - 1 else d.begin - 1 := by
  have := wf.beginLt
  unfold slotOf
  split_ifs <;> omega

theorem Wf.size_setFront (wf : d.Wf) (room : d.size + 1 < d.capacity) (storage : List (Option α)) :
    size ⟨storage, d.capacity, if d.begin = 0 then d.capacity - 1 else d.begin - 1, d.end⟩ = d.size + 1 := by
  have := wf.endLe
  have := wf.beginLt
  rcases Nat.lt_or_ge d.end (if d.begin = 0 then d.capacity - 1 else d.begin - 1) with wrap | straight
  · rw [size_of_wrapped wrap]
    dsimp only
    rcases Nat.lt_or_ge d.end d.begin with wrap' | straight'
    · rw [size_of_wrapped wrap'] at room ⊢
      split_ifs at wrap ⊢ <;> omega
    · rw [size_of_straight straight'] at room ⊢
      split_ifs at wrap ⊢ <;> omega
  · rw [size_of_straight straight]
    dsimp only
    rcases Nat.lt_or_ge d.end d.begin with wrap' | straight'
    · rw [size_of_wrapped wrap'] at room ⊢
      split_ifs at straight ⊢ <;> omega
    · rw [size_of_straight straight'] at room ⊢
      split_ifs at straight ⊢ <;> omega

theorem slotOf_setFront (wf : d.Wf) (storage : List (Option α)) {offset : Nat}
    (within : offset + 1 < d.capacity) :
    slotOf ⟨storage, d.capacity, if d.begin = 0 then d.capacity - 1 else d.begin - 1, d.end⟩ (offset + 1) =
      d.slotOf offset := by
  have := wf.beginLt
  unfold slotOf
  dsimp only
  split_ifs <;> omega

theorem Refines.pushFront (r : d.Refines v) (value : α) : (d.pushFront value).Refines (value :: v) := by
  obtain ⟨grown, room⟩ := r.growIfNeeded
  unfold CircularDeque.pushFront CircularDeque.emplaceFront
  generalize d.growIfNeeded = g at grown room ⊢
  dsimp only
  have wf := grown.wf
  have size := grown.size_eq
  have := wf.endLe
  have := wf.beginLt
  have before := wf.slotOf_before (by omega)
  have newSize := wf.size_setFront (by omega)
    (g.storage.set (if g.begin = 0 then g.capacity - 1 else g.begin - 1) (some value))
  refine (Wf.refines_iff ?_).mpr ⟨?_, fun offset within => ?_⟩
  · exact {
      length := by simp only [List.length_set]; exact wf.length
      beginLt := .inr (by dsimp only; split_ifs <;> omega)
      endLe := wf.endLe
      room := .inr (by rw [newSize]; dsimp only; omega) }
  · rw [newSize, size, List.length_cons]
  · rw [List.length_cons] at within
    cases offset with
    | zero =>
      -- the new front is the slot before the old one
      show (g.storage.set _ (some value)).getD (slotOf _ 0) none = _
      have front : slotOf ⟨g.storage.set (if g.begin = 0 then g.capacity - 1 else g.begin - 1) (some value),
          g.capacity, if g.begin = 0 then g.capacity - 1 else g.begin - 1, g.end⟩ 0 =
          if g.begin = 0 then g.capacity - 1 else g.begin - 1 := by
        unfold slotOf
        dsimp only
        split_ifs <;> omega
      rw [front, getD_set_self (by rw [wf.length]; split_ifs <;> omega)]
      rfl
    | succ offset =>
      show (g.storage.set _ (some value)).getD (slotOf _ (offset + 1)) none = _
      rw [slotOf_setFront wf _ (by omega)]
      have apart : g.slotOf (g.capacity - 1) ≠ g.slotOf offset := fun same =>
        absurd (wf.slotOf_injective (by omega) (by omega) same) (by omega)
      rw [← before, getD_set_ne apart]
      exact grown.read_slotOf (by omega)

theorem Refines.popFront (r : d.Refines v) (nonempty : v ≠ []) : d.popFront.Refines v.tail := by
  have wf := r.wf
  have sized := r.size_eq
  have := wf.endLe
  have := wf.beginLt
  have positive : 0 < v.length := List.length_pos_iff.mpr nonempty
  have allocated := wf.size_le
  unfold CircularDeque.popFront
  dsimp only
  have front : d.slotOf 0 = d.begin := by
    unfold slotOf
    split_ifs <;> omega
  by_cases wraps : d.begin + 1 = d.capacity
  · rw [if_pos wraps]
    -- the front was the last slot: the rest starts at slot 0
    have newSize : size ⟨d.storage.set d.begin none, d.capacity, 0, if d.end = d.capacity then 0 else d.end⟩ =
        d.size - 1 := by
      rw [size_of_straight (Nat.zero_le _)]
      dsimp only
      rcases Nat.lt_or_ge d.end d.begin with wrap | straight
      · rw [size_of_wrapped wrap] at sized ⊢
        split_ifs <;> omega
      · rw [size_of_straight straight] at sized ⊢
        split_ifs <;> omega
    refine (Wf.refines_iff ?_).mpr ⟨?_, fun offset within => ?_⟩
    · exact {
        length := by simp only [List.length_set]; exact wf.length
        beginLt := .inr (by dsimp only; omega)
        endLe := by dsimp only; split_ifs <;> omega
        room := .inr (by rw [newSize]; dsimp only; omega) }
    · rw [newSize, sized, List.length_tail]
    · rw [List.length_tail] at within
      have slot : slotOf ⟨d.storage.set d.begin none, d.capacity, 0,
          if d.end = d.capacity then 0 else d.end⟩ offset = d.slotOf (offset + 1) := by
        unfold slotOf
        dsimp only
        split_ifs <;> omega
      have apart : d.slotOf 0 ≠ d.slotOf (offset + 1) := fun same =>
        absurd (wf.slotOf_injective (by omega) (by omega) same) (by omega)
      show (d.storage.set d.begin none).getD _ none = _
      rw [slot, ← front, getD_set_ne apart, List.getElem_tail]
      exact r.read_slotOf (by omega)
  · rw [if_neg wraps]
    have newSize : size ⟨d.storage.set d.begin none, d.capacity, d.begin + 1, d.end⟩ = d.size - 1 := by
      rcases Nat.lt_or_ge d.end d.begin with wrap | straight
      · rw [size_of_wrapped wrap] at sized ⊢
        rw [size_of_wrapped (show d.end < d.begin + 1 by omega)]
        dsimp only
        omega
      · rw [size_of_straight straight] at sized ⊢
        rw [size_of_straight (show d.begin + 1 ≤ d.end by omega)]
        dsimp only
        omega
    refine (Wf.refines_iff ?_).mpr ⟨?_, fun offset within => ?_⟩
    · exact {
        length := by simp only [List.length_set]; exact wf.length
        beginLt := .inr (by dsimp only; omega)
        endLe := wf.endLe
        room := .inr (by rw [newSize]; dsimp only; omega) }
    · rw [newSize, sized, List.length_tail]
    · rw [List.length_tail] at within
      have slot : slotOf ⟨d.storage.set d.begin none, d.capacity, d.begin + 1, d.end⟩ offset =
          d.slotOf (offset + 1) := by
        unfold slotOf
        dsimp only
        split_ifs <;> omega
      have apart : d.slotOf 0 ≠ d.slotOf (offset + 1) := fun same =>
        absurd (wf.slotOf_injective (by omega) (by omega) same) (by omega)
      show (d.storage.set d.begin none).getD _ none = _
      rw [slot, ← front, getD_set_ne apart, List.getElem_tail]
      exact r.read_slotOf (by omega)

/-- The back element sits in the slot before `end()`, `end_ == 0` wrapping to the last slot. -/
theorem Wf.slotOf_last (wf : d.Wf) (nonempty : 0 < d.size) :
    d.slotOf (d.size - 1) = (if d.end = 0 then d.capacity else d.end) - 1 := by
  have := wf.endLe
  have := wf.beginLt
  have := wf.size_le
  unfold slotOf
  rcases Nat.lt_or_ge d.end d.begin with wrap | straight
  · rw [size_of_wrapped wrap] at nonempty ⊢
    split_ifs <;> omega
  · rw [size_of_straight straight] at nonempty ⊢
    split_ifs <;> omega

theorem Refines.popBack (r : d.Refines v) (nonempty : v ≠ []) : d.popBack.Refines v.dropLast := by
  have wf := r.wf
  have sized := r.size_eq
  have := wf.endLe
  have := wf.beginLt
  have positive : 0 < v.length := List.length_pos_iff.mpr nonempty
  have allocated := wf.size_le
  have last := wf.slotOf_last (by omega)
  unfold CircularDeque.popBack
  dsimp only
  have newSize : size ⟨d.storage.set ((if d.end = 0 then d.capacity else d.end) - 1) none, d.capacity, d.begin,
      (if d.end = 0 then d.capacity else d.end) - 1⟩ = d.size - 1 := by
    rcases Nat.lt_or_ge d.end d.begin with wrap | straight
    · rw [size_of_wrapped wrap] at sized ⊢
      rcases Nat.lt_or_ge ((if d.end = 0 then d.capacity else d.end) - 1) d.begin with wrap' | straight'
      · rw [size_of_wrapped wrap']
        dsimp only
        split_ifs at wrap' ⊢ <;> omega
      · rw [size_of_straight straight']
        dsimp only
        split_ifs at straight' ⊢ <;> omega
    · rw [size_of_straight straight] at sized ⊢
      rw [size_of_straight (show d.begin ≤ (if d.end = 0 then d.capacity else d.end) - 1 by split_ifs <;> omega)]
      dsimp only
      split_ifs <;> omega
  refine (Wf.refines_iff ?_).mpr ⟨?_, fun offset within => ?_⟩
  · exact {
      length := by simp only [List.length_set]; exact wf.length
      beginLt := wf.beginLt
      endLe := by dsimp only; split_ifs <;> omega
      room := .inr (by rw [newSize]; dsimp only; omega) }
  · rw [newSize, sized, List.length_dropLast]
  · rw [List.length_dropLast] at within
    have apart : d.slotOf (d.size - 1) ≠ d.slotOf offset := fun same =>
      absurd (wf.slotOf_injective (by omega) (by omega) same) (by omega)
    show (d.storage.set _ none).getD (d.slotOf offset) none = _
    rw [← last, getD_set_ne apart, List.getElem_dropLast]
    exact r.read_slotOf (by omega)

theorem length_destroy (storage : List (Option α)) (indices : List Nat) :
    (destroy storage indices).length = storage.length := by
  induction indices generalizing storage with
  | nil => rfl
  | cons index rest ih =>
    rw [destroy, List.foldl_cons, ← destroy, ih, List.length_set]

theorem Refines.clear (r : d.Refines v) : d.clear.Refines [] := by
  have wf := r.wf
  unfold CircularDeque.clear
  split_ifs with done
  · -- nothing to destroy: the deque is already empty
    have emptied : d.size = 0 := by
      rcases done with emptied | unallocated
      · simp only [empty, beq_iff_eq] at emptied
        rw [size_of_straight (Nat.le_of_eq emptied)]
        omega
      · have := wf.size_le
        omega
    have : v = [] := List.eq_nil_of_length_eq_zero (r.size_eq ▸ emptied)
    exact this ▸ r
  · rw [not_or] at done
    refine (Wf.refines_iff ?_).mpr ⟨?_, fun offset within => absurd within (Nat.not_lt_zero _)⟩
    · exact {
        length := by dsimp only; rw [length_destroy]; exact wf.length
        beginLt := .inr (by dsimp only; omega)
        endLe := Nat.zero_le _
        room := .inr (by rw [size_of_straight (Nat.le_refl _)]; dsimp only; omega) }
    · rw [size_of_straight (Nat.le_refl _)]
      rfl

/-- `begin() + index` lands on the slot of element `index`: `advance` reduces modulo
`capacity_` on a wrapped deque and modulo `capacity_ + 1` otherwise, and both agree there. -/
theorem Wf.advance_begin (wf : d.Wf) {index : Nat} (within : index < d.size) :
    d.advance d.begin index = d.slotOf index := by
  have := wf.endLe
  have := wf.beginLt
  unfold advance slotOf wrapped
  rcases Nat.eq_zero_or_pos index with zero | positive
  · rw [if_pos zero, zero, Nat.add_zero, if_pos (by have := wf.size_le; omega)]
  rw [if_neg (by omega)]
  rcases Nat.lt_or_ge d.end d.begin with wrap | straight
  · rw [size_of_wrapped wrap] at within
    rw [if_pos (decide_eq_true wrap)]
    split_ifs with below
    · exact Nat.mod_eq_of_lt below
    · rw [Nat.mod_eq_sub_mod (by omega), Nat.mod_eq_of_lt (by omega)]
  · rw [size_of_straight straight] at within
    rw [if_neg (by simp only [decide_eq_true_eq]; omega), if_pos (by omega)]
    exact Nat.mod_eq_of_lt (by omega)

theorem Refines.get (r : d.Refines v) {index : Nat} (within : index < v.length) :
    d.get index = some v[index] := by
  have sized := r.size_eq
  rw [CircularDeque.get, if_pos (by omega), r.wf.advance_begin (by omega)]
  exact r.read_slotOf within

theorem Refines.front (r : d.Refines v) (nonempty : 0 < v.length) : d.front = some v[0] := by
  have sized := r.size_eq
  have beginSlot : d.slotOf 0 = d.begin := by
    have := r.wf.beginLt
    have := r.wf.size_le
    unfold slotOf
    split_ifs <;> omega
  rw [CircularDeque.front, ← beginSlot]
  exact r.read_slotOf nonempty

theorem Refines.back (r : d.Refines v) (nonempty : 0 < v.length) :
    d.back = some v[v.length - 1] := by
  have sized := r.size_eq
  rw [CircularDeque.back, ← r.wf.slotOf_last (by omega), sized]
  exact r.read_slotOf (by omega)

end Operations

section Assignment

theorem capacity_clear : d.clear.capacity = d.capacity := by
  unfold CircularDeque.clear
  split_ifs <;> rfl

theorem maxSize_clear : d.clear.maxSize = d.maxSize := by
  simp only [maxSize, capacity_clear]

theorem begin_resize {count : Nat} (moved : d.maxSize ≠ count) : (d.resize count).begin = 0 := by
  rw [CircularDeque.resize, if_neg moved]

/-- `clear()` rewinds a deque to slot 0 unless it was empty, when it keeps its `begin_`. -/
theorem Refines.begin_clear (r : d.Refines v) (start : v ≠ [] ∨ d.begin = 0) : d.clear.begin = 0 := by
  unfold CircularDeque.clear
  split_ifs with done
  · rcases start with nonempty | zero
    · have emptied : d.size = 0 := by
        rcases done with emptied | unallocated
        · simp only [empty, beq_iff_eq] at emptied
          rw [size_of_straight (Nat.le_of_eq emptied)]
          omega
        · have := r.wf.size_le
          omega
      exact absurd (List.eq_nil_of_length_eq_zero (r.size_eq ▸ emptied)) nonempty
    · exact zero
  · rfl

/-- Values copied to slots `0, 1, ...` of a deque whose front is slot 0, with `end_` set past
them, are what the deque holds. -/
theorem Wf.refines_written (wf : d.Wf) (start : d.begin = 0) {l : List α}
    (fits : l.length < d.capacity ∨ l = []) :
    (⟨l.map some ++ d.storage.drop l.length, d.capacity, d.begin, l.length⟩ : CircularDeque α).Refines l := by
  have := wf.endLe
  have length := wf.length
  have bounded : l.length ≤ d.capacity := by
    rcases fits with room | rfl
    · omega
    · exact Nat.zero_le _
  have newSize : size (⟨l.map some ++ d.storage.drop l.length, d.capacity, d.begin, l.length⟩ :
      CircularDeque α) = l.length := by
    rw [size_of_straight (by dsimp only; omega)]
    dsimp only
    omega
  refine (Wf.refines_iff ?_).mpr ⟨newSize, fun offset within => ?_⟩
  · exact {
      length := by simp only [List.length_append, List.length_map, List.length_drop]; omega
      beginLt := by dsimp only; omega
      endLe := bounded
      room := by
        rw [newSize]
        rcases fits with room | rfl
        · exact .inr room
        · exact Nat.eq_zero_or_pos d.capacity }
  · have slot : slotOf (⟨l.map some ++ d.storage.drop l.length, d.capacity, d.begin, l.length⟩ :
        CircularDeque α) offset = offset := by
      unfold slotOf
      dsimp only
      split_ifs <;> omega
    rw [slot, read]
    dsimp only
    rw [List.getD_append _ _ _ _ (by simpa using within), List.getD_eq_getElem _ _ (by simpa using within),
      List.getElem_map]

/-- Values that fit in the ring without a resize fit in its slots, or there are none. -/
theorem fits_of_le_maxSize {l : List α} (within : l.length ≤ d.maxSize) : l.length < d.capacity ∨ l = [] := by
  unfold maxSize at within
  split_ifs at within
  · exact .inr (List.eq_nil_of_length_eq_zero (by omega))
  · exact .inl (by omega)

/-- `operator=(std::initializer_list)` holds the list, provided the copy starts at the front: the
deque was not empty, or its `begin_` was 0, or the list needed a resize. -/
theorem Refines.assignList (r : d.Refines v) (l : List α)
    (fromZero : v ≠ [] ∨ d.begin = 0 ∨ d.maxSize < l.length) : (d.assignList l).Refines l := by
  have cleared := r.clear
  unfold CircularDeque.assignList
  dsimp only
  by_cases grow : l.length > d.clear.maxSize
  · rw [if_pos grow]
    have moved : d.clear.maxSize ≠ max l.length kInitCapacity := by omega
    have grown := cleared.resize (Nat.zero_le (max l.length kInitCapacity))
    exact grown.wf.refines_written (begin_resize moved)
      (.inl (by rw [capacity_resize moved]; omega))
  · rw [if_neg grow]
    rw [maxSize_clear] at grow
    have start : v ≠ [] ∨ d.begin = 0 := by
      rcases fromZero with nonempty | zero | beyond
      · exact .inl nonempty
      · exact .inr zero
      · omega
    exact cleared.wf.refines_written (r.begin_clear start) (fits_of_le_maxSize (by rw [maxSize_clear]; omega))

/-- The copy assignment holds the other deque's values, provided the copy starts at the front:
the deque was not empty, or its `begin_` was 0, or the copy needed a resize. -/
theorem Refines.assign (r : d.Refines v) {other : CircularDeque α} {w : List α} (copied : other.Refines w)
    (fromZero : v ≠ [] ∨ d.begin = 0 ∨ d.maxSize ≠ w.length) : (d.assign other).Refines w := by
  have cleared := r.clear
  unfold CircularDeque.assign
  dsimp only
  rw [copied.2, copied.size_eq]
  by_cases moved : d.clear.maxSize = w.length
  · have unchanged : d.clear.resize w.length = d.clear := by
      rw [CircularDeque.resize, if_pos moved]
    rw [unchanged]
    rw [maxSize_clear] at moved
    have start : v ≠ [] ∨ d.begin = 0 := by
      rcases fromZero with nonempty | zero | beyond
      · exact .inl nonempty
      · exact .inr zero
      · omega
    exact cleared.wf.refines_written (r.begin_clear start) (fits_of_le_maxSize (by rw [maxSize_clear]; omega))
  · exact (cleared.resize (Nat.zero_le w.length)).wf.refines_written (begin_resize moved)
      (.inl (by rw [capacity_resize moved]; omega))

end Assignment

end CircularDeque

end Mvfst
