import Mathlib

/-!
# Binary min-heaps in a list

A binary heap stored level by level in a list: the parent of position `j > 0` is `(j - 1) / 2`.
The sifts of an array heap exchange an element with its parent, or with its least child
(`List.swap`), until the order is restored. What they need of the list before each exchange is
`UpReady` (only the edge into `i` may be out of order) or `DownReady` (only the edges out of
`i`); each direction has a step lemma (one exchange keeps the readiness, one level further) and a
stop lemma (no exchange is needed, the heap is ordered). Elements are compared through a key
into a linear order.

Beside the heap, `Tracks` says that a map from identities to positions is the inverse of the
heap's list of identities; the exchanges keep it when they rewrite the two moved entries.
-/

namespace BinaryHeap

section Order

variable {α κ : Type} [LinearOrder κ] (key : α → κ)

/-- Every element is at or after its parent. -/
def Ordered (xs : List α) : Prop :=
  ∀ j (inside : j < xs.length), 0 < j → key xs[(j - 1) / 2] ≤ key xs[j]

/-- Ready to sift `i` up: every edge but the one into `i` is in order, and the parent of `i` is
at or before the children of `i`. -/
structure UpReady (xs : List α) (i : Nat) : Prop where
  lt_length : i < xs.length
  except : ∀ j (inside : j < xs.length), 0 < j → j ≠ i → key xs[(j - 1) / 2] ≤ key xs[j]
  grand : ∀ j (inside : j < xs.length) (parent : (j - 1) / 2 = i), 0 < i →
    key xs[(i - 1) / 2] ≤ key xs[j]

/-- Ready to sift `i` down: every edge but those out of `i` is in order, and the parent of `i` is
at or before the children of `i`. -/
structure DownReady (xs : List α) (i : Nat) : Prop where
  except : ∀ j (inside : j < xs.length), 0 < j → (j - 1) / 2 ≠ i → key xs[(j - 1) / 2] ≤ key xs[j]
  grand : ∀ j (inside : j < xs.length) (parent : (j - 1) / 2 = i), 0 < i →
    key xs[(i - 1) / 2] ≤ key xs[j]

variable {key}

theorem ordered_nil : Ordered key ([] : List α) := fun _ inside => absurd inside (Nat.not_lt_zero _)

/-- An edge of an ordered heap, with the parent named. -/
theorem Ordered.parent_le {xs : List α} (ordered : Ordered key xs) {i j : Nat}
    (inside : j < xs.length) (pos : 0 < j) (parent : (j - 1) / 2 = i) (iInside : i < xs.length) :
    key xs[i] ≤ key xs[j] := by
  subst parent
  exact ordered j inside pos

/-- The first element of an ordered heap is at or before every element. -/
theorem Ordered.root_le {xs : List α} (ordered : Ordered key xs) :
    ∀ j (inside : j < xs.length), key xs[0] ≤ key xs[j] := by
  intro j
  induction j using Nat.strongRecOn with
  | ind j ih =>
    intro inside
    rcases Nat.eq_zero_or_pos j with root | pos
    · subst root
      exact le_refl _
    · have up : (j - 1) / 2 < j := by omega
      exact le_trans (ih _ up (by omega)) (ordered j inside pos)

/-- A prefix of an ordered heap is ordered. -/
theorem Ordered.dropLast {xs : List α} (ordered : Ordered key xs) : Ordered key xs.dropLast := by
  intro j inside pos
  rw [List.length_dropLast] at inside
  simp only [List.getElem_dropLast]
  exact ordered j (by omega) pos

/-- Appending keeps every edge of the old list: only the new last position may be out of order. -/
theorem Ordered.push {xs : List α} (ordered : Ordered key xs) (x : α) :
    UpReady key (xs ++ [x]) xs.length := by
  refine ⟨by simp, fun j inside pos other => ?_, fun j inside parent pos => ?_⟩
  · have old : j < xs.length := by simp at inside; omega
    rw [List.getElem_append_left old, List.getElem_append_left (by omega)]
    exact ordered j old pos
  · simp at inside
    omega

/-- Writing an element at or before the old one at `i` leaves only the edge into `i` to fix. -/
theorem Ordered.set_up {xs : List α} {i : Nat} (ordered : Ordered key xs) (inside : i < xs.length)
    {x : α} (smaller : key x ≤ key xs[i]) : UpReady key (xs.set i x) i := by
  refine ⟨by simpa using inside, fun j jInside pos other => ?_, fun j jInside parent pos => ?_⟩
  · rw [List.length_set] at jInside
    rw [List.getElem_set_ne (Ne.symm other)]
    by_cases child : (j - 1) / 2 = i
    · rw [getElem_congr_idx child, List.getElem_set_self]
      exact le_trans smaller (ordered.parent_le jInside pos child inside)
    · rw [List.getElem_set_ne (Ne.symm child)]
      exact ordered j jInside pos
  · rw [List.length_set] at jInside
    have grandparent : (i - 1) / 2 ≠ i := by omega
    rw [List.getElem_set_ne (Ne.symm grandparent), List.getElem_set_ne (by omega)]
    calc key xs[(i - 1) / 2] ≤ key xs[i] := ordered i inside pos
      _ ≤ key xs[j] := ordered.parent_le jInside (by omega) parent inside

/-- Writing an element at or after the parent of `i` leaves only the edges out of `i` to fix. -/
theorem Ordered.set_down {xs : List α} {i : Nat} (ordered : Ordered key xs) (inside : i < xs.length)
    {x : α} (larger : 0 < i → key xs[(i - 1) / 2] ≤ key x) : DownReady key (xs.set i x) i := by
  refine ⟨fun j jInside pos notChild => ?_, fun j jInside parent pos => ?_⟩
  · rw [List.length_set] at jInside
    rw [List.getElem_set_ne (Ne.symm notChild)]
    by_cases here : j = i
    · subst here
      rw [List.getElem_set_self]
      exact larger pos
    · rw [List.getElem_set_ne (Ne.symm here)]
      exact ordered j jInside pos
  · rw [List.length_set] at jInside
    have grandparent : (i - 1) / 2 ≠ i := by omega
    rw [List.getElem_set_ne (Ne.symm grandparent), List.getElem_set_ne (by omega)]
    calc key xs[(i - 1) / 2] ≤ key xs[i] := ordered i inside pos
      _ ≤ key xs[j] := ordered.parent_le jInside (by omega) parent inside

/-- Stop lemma of the sift up: once the edge into `i` is in order, the heap is. -/
theorem UpReady.ordered {xs : List α} {i : Nat} (ready : UpReady key xs i) (inside : i < xs.length)
    (settled : 0 < i → key xs[(i - 1) / 2] ≤ key xs[i]) : Ordered key xs := by
  intro j jInside pos
  by_cases here : j = i
  · subst here
    exact settled pos
  · exact ready.except j jInside pos here

/-- Step lemma of the sift up: exchanging `i` with a larger parent moves the one bad edge up. -/
theorem UpReady.swap {xs : List α} {i : Nat} (ready : UpReady key xs i) (inside : i < xs.length)
    (pos : 0 < i) (smaller : key xs[i] < key xs[(i - 1) / 2]) :
    UpReady key (xs.swap ((i - 1) / 2) i) ((i - 1) / 2) := by
  have parentInside : (i - 1) / 2 < xs.length := by omega
  have parentNe : (i - 1) / 2 ≠ i := by omega
  have parentInside' : (i - 1) / 2 < (xs.swap ((i - 1) / 2) i).length := by simpa using parentInside
  have inside' : i < (xs.swap ((i - 1) / 2) i).length := by simpa using inside
  have atParent : (xs.swap ((i - 1) / 2) i)[(i - 1) / 2] = xs[i] :=
    List.getElem_swap_left_of_lt inside _
  have atChild : (xs.swap ((i - 1) / 2) i)[i] = xs[(i - 1) / 2] :=
    List.getElem_swap_right_of_lt parentInside _
  refine ⟨by simpa using parentInside, fun j jInside jPos other => ?_,
    fun j jInside parent parentPos => ?_⟩
  · rw [List.length_swap] at jInside
    by_cases here : j = i
    · -- the old parent, now at `i`, is after the element that moved above it
      subst here
      rw [atParent, atChild]
      exact le_of_lt smaller
    · rw [List.getElem_swap_of_ne other here]
      by_cases child : (j - 1) / 2 = i
      · rw [getElem_congr_idx child, atChild]
        exact ready.grand j jInside child pos
      · by_cases sibling : (j - 1) / 2 = (i - 1) / 2
        · rw [getElem_congr_idx sibling, atParent]
          have edge := ready.except j jInside jPos here
          rw [getElem_congr_idx sibling] at edge
          exact le_trans (le_of_lt smaller) edge
        · rw [List.getElem_swap_of_ne sibling child]
          exact ready.except j jInside jPos here
  · rw [List.length_swap] at jInside
    have grandparentNe : ((i - 1) / 2 - 1) / 2 ≠ (i - 1) / 2 := by omega
    have grandparentNe' : ((i - 1) / 2 - 1) / 2 ≠ i := by omega
    rw [List.getElem_swap_of_ne grandparentNe grandparentNe']
    have aboveParent := ready.except ((i - 1) / 2) parentInside parentPos parentNe
    by_cases here : j = i
    · subst here
      rw [atChild]
      exact aboveParent
    · rw [List.getElem_swap_of_ne (by omega) here]
      have edge := ready.except j jInside (by omega) here
      rw [getElem_congr_idx parent] at edge
      exact le_trans aboveParent edge

/-- Stop lemma of the sift down: once no child of `i` is before it, the heap is ordered. -/
theorem DownReady.ordered {xs : List α} {i : Nat} (ready : DownReady key xs i)
    (inside : i < xs.length)
    (settled : ∀ d (dInside : d < xs.length), 0 < d → (d - 1) / 2 = i → key xs[i] ≤ key xs[d]) :
    Ordered key xs := by
  intro j jInside pos
  by_cases child : (j - 1) / 2 = i
  · rw [getElem_congr_idx child]
    exact settled j jInside pos child
  · exact ready.except j jInside pos child

/-- Step lemma of the sift down: exchanging `i` with its least child, when that child is before
it, moves the bad edges one level down. -/
theorem DownReady.swap {xs : List α} {i c : Nat} (ready : DownReady key xs i)
    (inside : c < xs.length) (iInside : i < xs.length) (pos : 0 < c) (child : (c - 1) / 2 = i)
    (smaller : key xs[c] < key xs[i])
    (least : ∀ d (dInside : d < xs.length), 0 < d → (d - 1) / 2 = i → key xs[c] ≤ key xs[d]) :
    DownReady key (xs.swap c i) c := by
  have childNe : c ≠ i := by omega
  have inside' : c < (xs.swap c i).length := by simpa using inside
  have iInside' : i < (xs.swap c i).length := by simpa using iInside
  have atChild : (xs.swap c i)[c] = xs[i] := List.getElem_swap_left_of_lt iInside _
  have atParent : (xs.swap c i)[i] = xs[c] := List.getElem_swap_right_of_lt inside _
  refine ⟨fun j jInside jPos notChild => ?_, fun j jInside parent _ => ?_⟩
  · rw [List.length_swap] at jInside
    by_cases here : j = c
    · subst here
      rw [getElem_congr_idx child, atParent, atChild]
      exact le_of_lt smaller
    · by_cases atI : j = i
      · -- `i` now holds the least child, still after the parent of `i`
        subst atI
        have grandparentNe : (j - 1) / 2 ≠ c := by omega
        have grandparentNe' : (j - 1) / 2 ≠ j := by omega
        rw [List.getElem_swap_of_ne grandparentNe grandparentNe', atParent]
        exact ready.grand c inside child jPos
      · rw [List.getElem_swap_of_ne here atI]
        by_cases sibling : (j - 1) / 2 = i
        · rw [getElem_congr_idx sibling, atParent]
          exact least j jInside jPos sibling
        · rw [List.getElem_swap_of_ne notChild sibling]
          exact ready.except j jInside jPos sibling
  · rw [List.length_swap] at jInside
    rw [getElem_congr_idx child, atParent, List.getElem_swap_of_ne (by omega) (by omega)]
    have edge := ready.except j jInside (by omega) (by omega)
    rw [getElem_congr_idx parent] at edge
    exact edge

/-- Exchanging a position with the last one and dropping the last writes the old last element
at that position of the shorter list. -/
theorem dropLast_swap_last {xs : List α} {i : Nat} (inside : i < xs.length - 1) :
    (xs.swap i (xs.length - 1)).dropLast = xs.dropLast.set i xs[xs.length - 1] := by
  apply List.ext_getElem
  · simp
  · intro j inSwapped _
    simp only [List.length_dropLast, List.length_swap] at inSwapped
    simp only [List.getElem_dropLast, List.getElem_set]
    by_cases here : j = i
    · subst here
      simp only [if_true]
      exact List.getElem_swap_left_of_lt (by omega) _
    · rw [if_neg (Ne.symm here), List.getElem_swap_of_ne here (by omega)]

/-- Exchanging a position with the last one and dropping the last takes out that position's
element and keeps the others. -/
theorem dropLast_swap_last_perm {xs : List α} {k : Nat} (inside : k < xs.length) :
    ((xs.swap k (xs.length - 1)).dropLast ++ [xs[k]]).Perm xs := by
  have nonempty : xs.swap k (xs.length - 1) ≠ [] := by
    rw [← List.length_pos_iff, List.length_swap]
    omega
  have last : (xs.swap k (xs.length - 1)).getLast nonempty = xs[k] := by
    rw [List.getLast_eq_getElem]
    simp only [List.length_swap]
    exact List.getElem_swap_right_of_lt inside _
  have restored : (xs.swap k (xs.length - 1)).dropLast ++ [xs[k]] = xs.swap k (xs.length - 1) := by
    rw [← last, List.dropLast_append_getLast]
  rw [restored]
  exact List.swap_perm ..

/-- Exchanging two positions commutes with mapping the elements. -/
theorem map_swap {ι : Type} (f : α → ι) (xs : List α) (a b : Nat) :
    (xs.swap a b).map f = (xs.map f).swap a b := by
  apply List.ext_getElem
  · simp
  · intro k _ _
    simp only [List.getElem_map, List.getElem_swap, List.length_map]
    split_ifs <;> rfl

/-- In a duplicate-free list, the positions holding the element at `k` are `k` alone. -/
theorem position_iff_of_nodup {ids : List α} (nodup : ids.Nodup) {k : Nat} (kInside : k < ids.length)
    (i : Nat) : (∃ inside : i < ids.length, ids[i] = ids[k]) ↔ i = k := by
  constructor
  · rintro ⟨inside, same⟩
    exact nodup.getElem_inj_iff.mp same
  · rintro rfl
    exact ⟨kInside, rfl⟩

end Order

section Positions

variable {ι β : Type} [DecidableEq ι] (pos : Nat → β)

/-- `positions` is the inverse of `ids` on the values `pos i`: an identity is mapped to `pos i`
exactly when it is at position `i`. -/
def Tracks (positions : ι → Option β) (ids : List ι) : Prop :=
  ∀ id i, positions id = some (pos i) ↔ ∃ inside : i < ids.length, ids[i] = id

variable {pos} {positions : ι → Option β} {ids : List ι}

/-- Rewriting the entries of the two exchanged identities keeps the inverse. -/
theorem Tracks.swap (tracks : Tracks pos positions ids) (injective : Function.Injective pos)
    (nodup : ids.Nodup) {a b : Nat} (aInside : a < ids.length) (bInside : b < ids.length) :
    Tracks pos (Function.update (Function.update positions ids[b] (some (pos a))) ids[a]
      (some (pos b))) (ids.swap a b) := by
  have swapped : (ids.swap a b).Nodup := (List.swap_perm ids a b).nodup_iff.mpr nodup
  have aInside' : a < (ids.swap a b).length := by simpa using aInside
  have bInside' : b < (ids.swap a b).length := by simpa using bInside
  have atA : (ids.swap a b)[a] = ids[b] := List.getElem_swap_left_of_lt bInside aInside'
  have atB : (ids.swap a b)[b] = ids[a] := List.getElem_swap_right_of_lt aInside bInside'
  intro id i
  by_cases isA : id = ids[a]
  · -- the old element of `a` is now at `b`
    subst isA
    rw [Function.update_self, ← atB, position_iff_of_nodup swapped bInside', Option.some.injEq,
      injective.eq_iff, eq_comm]
  · rw [Function.update_of_ne isA]
    by_cases isB : id = ids[b]
    · subst isB
      rw [Function.update_self, ← atA, position_iff_of_nodup swapped aInside', Option.some.injEq,
        injective.eq_iff, eq_comm]
    · -- an identity that did not move keeps its entry and its position
      rw [Function.update_of_ne isB, tracks id i]
      constructor
      · rintro ⟨inside, found⟩
        have notA : i ≠ a := by rintro rfl; exact isA found.symm
        have notB : i ≠ b := by rintro rfl; exact isB found.symm
        exact ⟨by simpa using inside, by rw [List.getElem_swap_of_ne notA notB]; exact found⟩
      · rintro ⟨inside, found⟩
        have notA : i ≠ a := by rintro rfl; exact isB (atA ▸ found).symm
        have notB : i ≠ b := by rintro rfl; exact isA (atB ▸ found).symm
        rw [List.getElem_swap_of_ne notA notB] at found
        exact ⟨by simpa using inside, found⟩

/-- Appending an identity absent from the list, with its entry at the new last position. -/
theorem Tracks.push (tracks : Tracks pos positions ids) (injective : Function.Injective pos) {x : ι}
    (absent : x ∉ ids) :
    Tracks pos (Function.update positions x (some (pos ids.length))) (ids ++ [x]) := by
  intro id i
  by_cases isX : id = x
  · subst isX
    rw [Function.update_self, Option.some.injEq, injective.eq_iff]
    constructor
    · rintro rfl
      exact ⟨by simp, by simp⟩
    · rintro ⟨inside, found⟩
      by_contra other
      have old : i < ids.length := by simp at inside; omega
      rw [List.getElem_append_left old] at found
      exact absent (found ▸ List.getElem_mem old)
  · rw [Function.update_of_ne isX, tracks id i]
    constructor
    · rintro ⟨inside, found⟩
      exact ⟨by simp; omega, by rw [List.getElem_append_left inside]; exact found⟩
    · rintro ⟨inside, found⟩
      have old : i < ids.length := by
        by_contra past
        have last : i = ids.length := by simp at inside; omega
        subst last
        simp at found
        exact isX found.symm
      rw [List.getElem_append_left old] at found
      exact ⟨old, found⟩

/-- Removing position `k` the way an array heap does (the last identity moves to `k` and the last
position goes): the moved identity's entry is rewritten and the removed one's dropped. -/
theorem Tracks.eraseAt (tracks : Tracks pos positions ids) (injective : Function.Injective pos)
    (nodup : ids.Nodup) {k : Nat} (inside : k < ids.length) :
    Tracks pos (Function.update (Function.update positions ids[ids.length - 1] (some (pos k))) ids[k]
      none) ((ids.swap k (ids.length - 1)).dropLast) := by
  have lastInside : ids.length - 1 < ids.length := by omega
  have shorter : ∀ i (inside' : i < ((ids.swap k (ids.length - 1)).dropLast).length)
      (old : i < ids.length),
      ((ids.swap k (ids.length - 1)).dropLast)[i] = if i = k then ids[ids.length - 1] else ids[i] := by
    intro i inside' _
    simp only [List.length_dropLast, List.length_swap] at inside'
    rw [List.getElem_dropLast]
    split
    · rename_i here
      subst here
      exact List.getElem_swap_left_of_lt lastInside _
    · rename_i other
      exact List.getElem_swap_of_ne other (by omega) _
  intro id i
  by_cases removed : id = ids[k]
  · -- the removed identity has no entry, and it is not in the shorter list
    subst removed
    rw [Function.update_self]
    simp only [reduceCtorEq, false_iff]
    rintro ⟨inside', found⟩
    rw [shorter i inside' (by simp at inside'; omega)] at found
    simp only [List.length_dropLast, List.length_swap] at inside'
    split at found
    · have same := nodup.getElem_inj_iff.mp found
      omega
    · have same := nodup.getElem_inj_iff.mp found
      omega
  · rw [Function.update_of_ne removed]
    by_cases moved : id = ids[ids.length - 1]
    · -- the moved identity is at `k` now
      subst moved
      have lastNe : ids.length - 1 ≠ k := fun same => removed (by simp only [same])
      rw [Function.update_self, Option.some.injEq, injective.eq_iff]
      constructor
      · intro same
        subst same
        refine ⟨by simp; omega, ?_⟩
        rw [shorter k (by simp; omega) inside, if_pos rfl]
      · rintro ⟨inside', found⟩
        rw [shorter i inside' (by simp at inside'; omega)] at found
        simp only [List.length_dropLast, List.length_swap] at inside'
        split at found
        · rename_i here
          exact here.symm
        · have same := nodup.getElem_inj_iff.mp found
          omega
    · rw [Function.update_of_ne moved, tracks id i]
      constructor
      · rintro ⟨inside', found⟩
        have notK : i ≠ k := by rintro rfl; exact removed found.symm
        have notLast : i ≠ ids.length - 1 := by rintro rfl; exact moved found.symm
        refine ⟨by simp; omega, ?_⟩
        rw [shorter i (by simp; omega) inside', if_neg notK]
        exact found
      · rintro ⟨inside', found⟩
        rw [shorter i inside' (by simp at inside'; omega)] at found
        simp only [List.length_dropLast, List.length_swap] at inside'
        split at found
        · exact absurd found.symm moved
        · exact ⟨by omega, found⟩


/-- Sending each identity of a duplicate-free list to its position, and every other identity to
an entry that is no position, tracks the list. -/
theorem tracks_idxOf (injective : Function.Injective pos) (nodup : ids.Nodup)
    (unplaced : ∀ id i, positions id ≠ some (pos i)) :
    Tracks pos (fun id => if id ∈ ids then some (pos (ids.idxOf id)) else positions id) ids := by
  intro id i
  dsimp only
  split
  · rename_i member
    rw [Option.some.injEq, injective.eq_iff]
    constructor
    · rintro rfl
      exact ⟨List.idxOf_lt_length_iff.mpr member, List.getElem_idxOf _⟩
    · rintro ⟨inside, rfl⟩
      exact nodup.idxOf_getElem i inside
  · rename_i absent
    exact ⟨fun entry => absurd entry (unplaced id i),
      fun ⟨inside, found⟩ => absurd (found ▸ List.getElem_mem inside) absent⟩

/-- An entry that is no position, for an identity outside the list, keeps the inverse. -/
theorem Tracks.update_absent (tracks : Tracks pos positions ids) {x : ι} (absent : x ∉ ids)
    {v : Option β} (unplaced : ∀ i, v ≠ some (pos i)) :
    Tracks pos (Function.update positions x v) ids := by
  intro id i
  by_cases same : id = x
  · subst same
    rw [Function.update_self]
    exact ⟨fun entry => absurd entry (unplaced i),
      fun ⟨inside, found⟩ => absurd (found ▸ List.getElem_mem inside) absent⟩
  · rw [Function.update_of_ne same]
    exact tracks id i

end Positions

end BinaryHeap
