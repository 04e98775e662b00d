import Mvfst.Priority.HTTPPriorityQueue

/-!
# The heap of the HTTP priority queue

The sifts `heapifyUp` and `heapifyDown` of `HTTPPriorityQueue.cpp`, over the list `heap_` and the
heap part of the index map. Between sequential elements `Element::operator<` is the lexicographic
order on `key` (priority number, then identifier), so each exchange of a sift is an instance of
`BinaryHeap.UpReady.swap` or `BinaryHeap.DownReady.swap` on the list, and of
`BinaryHeap.Tracks.swap` on the index map while the map holds the heap positions. `Sifted` says
what an exchange keeps, and the loops keep it by induction on their fuel.
-/

namespace Mvfst.Priority

namespace HTTPPriorityQueue

open BinaryHeap

/-! ## The order of the heap -/

/-- The order of the heap: the priority's number, then the identifier's. -/
def key (e : Element) : ℕ ×ₗ ℕ := toLex (e.priority.toUint64.toNat, e.identifier.asUint64.toNat)

/-- No element of the heap is incremental: the `CHECK` of `assignIndex`. -/
def AllSequential (heap : List Element) : Prop := ∀ e ∈ heap, e.priority.incremental = false

theorem lt_eq_true_iff {a b : Element} (sequential : b.priority.incremental = false) :
    a.lt b = true ↔ key a < key b := by
  rw [key, key, Prod.Lex.toLex_lt_toLex]
  unfold Element.lt
  simp only [sequential, Bool.or_false, UInt64.lt_iff_toNat_lt, decide_eq_true_eq]
  split_ifs with below above <;> simp <;> omega

theorem le_eq_true_iff {a b : Element} (sequential : a.priority.incremental = false) :
    a.le b = true ↔ key a ≤ key b := by
  rw [Element.le, Bool.not_eq_true', ← Bool.not_eq_true, lt_eq_true_iff sequential, not_lt]

theorem lessAt_eq_true_iff {heap : List Element} (sequential : AllSequential heap) {i j : Nat}
    (jInside : j < heap.length) :
    lessAt heap i j = true ↔ ∃ iInside : i < heap.length, key heap[i] < key heap[j] := by
  unfold lessAt
  rw [List.getElem?_eq_getElem jInside]
  by_cases iInside : i < heap.length
  · rw [List.getElem?_eq_getElem iInside]
    simp only [lt_eq_true_iff (sequential _ (List.getElem_mem jInside))]
    exact ⟨fun before => ⟨iInside, before⟩, fun ⟨_, before⟩ => before⟩
  · rw [List.getElem?_eq_none (by omega)]
    simp [iInside]

/-- `smallestOf` is `index` when no child is before it, and otherwise the least child. -/
theorem smallestOf_spec {heap : List Element} (sequential : AllSequential heap) {index : Nat}
    (inside : index < heap.length) :
    (smallestOf heap index = index ∧
        ∀ d (dInside : d < heap.length), 0 < d → (d - 1) / 2 = index → key heap[index] ≤ key heap[d]) ∨
      ∃ smallestInside : smallestOf heap index < heap.length,
        0 < smallestOf heap index ∧ (smallestOf heap index - 1) / 2 = index ∧
        key heap[smallestOf heap index] < key heap[index] ∧
        ∀ d (dInside : d < heap.length), 0 < d → (d - 1) / 2 = index →
          key heap[smallestOf heap index] ≤ key heap[d] := by
  have children : ∀ d, 0 < d → (d - 1) / 2 = index → d = 2 * index + 1 ∨ d = 2 * index + 2 := by
    intro d pos parent
    omega
  unfold smallestOf
  by_cases left : lessAt heap (2 * index + 1) index = true
  · obtain ⟨leftInside, leftBefore⟩ := (lessAt_eq_true_iff sequential inside).mp left
    simp only [left, if_true]
    by_cases right : lessAt heap (2 * index + 2) (2 * index + 1) = true
    · -- the right child is before the left one, which is before `index`
      obtain ⟨rightInside, rightBefore⟩ := (lessAt_eq_true_iff sequential leftInside).mp right
      simp only [right, if_true]
      refine .inr ⟨rightInside, by omega, by omega, lt_trans rightBefore leftBefore, ?_⟩
      intro d dInside pos parent
      rcases children d pos parent with rfl | rfl
      · exact le_of_lt rightBefore
      · exact le_refl _
    · simp only [right, Bool.false_eq_true, if_false]
      refine .inr ⟨leftInside, by omega, by omega, leftBefore, ?_⟩
      intro d dInside pos parent
      rcases children d pos parent with rfl | rfl
      · exact le_refl _
      · exact not_lt.mp fun before =>
          right ((lessAt_eq_true_iff sequential leftInside).mpr ⟨dInside, before⟩)
  · simp only [left, Bool.false_eq_true, if_false]
    have leftAfter : ∀ leftInside : 2 * index + 1 < heap.length,
        key heap[index] ≤ key heap[2 * index + 1] := fun leftInside =>
      not_lt.mp fun before => left ((lessAt_eq_true_iff sequential inside).mpr ⟨leftInside, before⟩)
    by_cases right : lessAt heap (2 * index + 2) index = true
    · obtain ⟨rightInside, rightBefore⟩ := (lessAt_eq_true_iff sequential inside).mp right
      simp only [right, if_true]
      refine .inr ⟨rightInside, by omega, by omega, rightBefore, ?_⟩
      intro d dInside pos parent
      rcases children d pos parent with rfl | rfl
      · exact le_of_lt (lt_of_lt_of_le rightBefore (leftAfter dInside))
      · exact le_refl _
    · simp only [right, Bool.false_eq_true, if_false]
      refine .inl ⟨trivial, ?_⟩
      intro d dInside pos parent
      rcases children d pos parent with rfl | rfl
      · exact leftAfter dInside
      · exact not_lt.mp fun before =>
          right ((lessAt_eq_true_iff sequential inside).mpr ⟨dInside, before⟩)

/-! ## The heap part of the index map -/

/-- A heap position as an index map entry. -/
def heapEntry (i : Nat) : IndexMapElem := ⟨false, i⟩

theorem heapEntry_injective : Function.Injective heapEntry :=
  fun _ _ same => (IndexMapElem.mk.inj same).2

/-- The heap entries of the index map: exactly the heap positions while the index is on, none
while it is off. -/
def HeapIndexed (q : HTTPPriorityQueue) : Prop :=
  (q.useIndexMapForSequential = true →
      Tracks heapEntry q.indexMap (q.heap.map (·.identifier))) ∧
    (q.useIndexMapForSequential = false → ∀ id i, q.indexMap id ≠ some (heapEntry i))

theorem addIndex_eq (q : HTTPPriorityQueue) (id : Identifier) (indexElem : IndexMapElem) :
    q.addIndex id indexElem =
      { q with
        indexMap :=
          if q.useIndexMapForSequential || indexElem.incremental then
            Function.update q.indexMap id (some indexElem)
          else q.indexMap } := by
  unfold addIndex
  split <;> rfl

/-- The two index map writes of an exchange, while the index is on. -/
theorem exchange_eq (q : HTTPPriorityQueue) (a b : Nat) (x y : Element) :
    ({ q with heap := q.heap.swap a b }.assignIndex x a).assignIndex y b =
      { q with
        heap := q.heap.swap a b
        indexMap :=
          if q.useIndexMapForSequential then
            Function.update (Function.update q.indexMap x.identifier (some (heapEntry a)))
              y.identifier (some (heapEntry b))
          else q.indexMap } := by
  cases q.useIndexMapForSequential <;> simp [assignIndex, addIndex_eq, heapEntry]

/-! ## What an exchange keeps -/

/-- What the exchanges of a sift keep: only the heap and the index map change, the heap is
permuted, the entries of identities outside the heap stay, and an index map that tracks the
heap still does. -/
structure Sifted (q q' : HTTPPriorityQueue) : Prop where
  frame : ∃ heap indexMap, q' = { q with heap, indexMap }
  perm : q'.heap.Perm q.heap
  outside : ∀ id, id ∉ q.heap.map (·.identifier) → q'.indexMap id = q.indexMap id
  written : ∀ id, q'.indexMap id = q.indexMap id ∨ ∃ i, q'.indexMap id = some (heapEntry i)
  indexed : HeapIndexed q → (q.heap.map (·.identifier)).Nodup → HeapIndexed q'

theorem Sifted.refl (q : HTTPPriorityQueue) : Sifted q q :=
  ⟨⟨q.heap, q.indexMap, rfl⟩, List.Perm.refl _, fun _ _ => rfl, fun _ => .inl rfl,
    fun indexed _ => indexed⟩

theorem Sifted.trans {q q' q'' : HTTPPriorityQueue} (first : Sifted q q') (second : Sifted q' q'') :
    Sifted q q'' := by
  obtain ⟨heap', indexMap', rfl⟩ := first.frame
  obtain ⟨heap'', indexMap'', rfl⟩ := second.frame
  have samePerm : (heap'.map (·.identifier)).Perm (q.heap.map (·.identifier)) := first.perm.map _
  refine ⟨⟨heap'', indexMap'', rfl⟩, second.perm.trans first.perm, fun id absent => ?_,
    fun id => ?_,
    fun indexed nodup => second.indexed (first.indexed indexed nodup) (samePerm.nodup_iff.mpr nodup)⟩
  · rw [second.outside id (fun present => absent (samePerm.subset present)), first.outside id absent]
  · rcases second.written id with same | moved
    · rw [same]
      exact first.written id
    · exact .inr moved

/-- One exchange of two heap positions, with the two index map writes. -/
theorem sifted_exchange (q : HTTPPriorityQueue) {a b : Nat} (aInside : a < q.heap.length)
    (bInside : b < q.heap.length) :
    Sifted q (({ q with heap := q.heap.swap a b }.assignIndex q.heap[b] a).assignIndex q.heap[a] b) := by
  rw [exchange_eq]
  refine ⟨⟨_, _, rfl⟩, List.swap_perm _ _ _, fun id absent => ?_, fun id => ?_,
    fun ⟨indexed, unindexed⟩ nodup => ?_⟩
  · have movedB : q.heap[b].identifier ≠ id := fun same =>
      absent (List.mem_map.mpr ⟨_, List.getElem_mem bInside, same⟩)
    have movedA : q.heap[a].identifier ≠ id := fun same =>
      absent (List.mem_map.mpr ⟨_, List.getElem_mem aInside, same⟩)
    dsimp only
    split
    · rw [Function.update_of_ne (Ne.symm movedA), Function.update_of_ne (Ne.symm movedB)]
    · rfl
  · -- the two writes are heap positions
    dsimp only
    split
    · simp only [Function.update_apply]
      split_ifs
      · exact .inr ⟨b, rfl⟩
      · exact .inr ⟨a, rfl⟩
      · exact .inl rfl
    · exact .inl rfl
  · refine ⟨fun enabled => ?_, fun disabled => ?_⟩
    · dsimp only at enabled
      simp only [enabled, if_true]
      have swapped := (indexed enabled).swap heapEntry_injective nodup (a := a) (b := b)
        (by simpa using aInside) (by simpa using bInside)
      simp only [List.getElem_map] at swapped
      rw [map_swap]
      exact swapped
    · dsimp only at disabled
      simp only [disabled, Bool.false_eq_true, if_false]
      exact unindexed disabled

/-- An exchange does not read the index map: a write outside the heap commutes with it. -/
theorem exchange_update_outside (q : HTTPPriorityQueue) (a b : Nat) (x y : Element) {ghost : Identifier}
    (v : Option IndexMapElem) (other : x.identifier ≠ ghost ∧ y.identifier ≠ ghost) :
    ({ q with heap := q.heap.swap a b, indexMap := Function.update q.indexMap ghost v }.assignIndex x
        a).assignIndex y b =
      { (({ q with heap := q.heap.swap a b }.assignIndex x a).assignIndex y b) with
        indexMap :=
          Function.update (({ q with heap := q.heap.swap a b }.assignIndex x a).assignIndex y b).indexMap
            ghost v } := by
  have exchanged := exchange_eq { q with indexMap := Function.update q.indexMap ghost v } a b x y
  dsimp only at exchanged
  rw [exchanged, exchange_eq]
  cases q.useIndexMapForSequential
  · rfl
  · simp only [if_true]
    rw [Function.update_comm other.2, Function.update_comm other.1]

/-! ## The sift up -/

theorem heapifyUpLoop_succ (fuel : Nat) (q : HTTPPriorityQueue) {index : Nat} (pos : 0 < index)
    (inside : index < q.heap.length) :
    heapifyUpLoop (fuel + 1) q index =
      if q.heap[(index - 1) / 2].le q.heap[index] then q
      else
        heapifyUpLoop fuel
          (({ q with heap := q.heap.swap ((index - 1) / 2) index }.assignIndex q.heap[index]
              ((index - 1) / 2)).assignIndex q.heap[(index - 1) / 2] index)
          ((index - 1) / 2) := by
  rw [heapifyUpLoop, if_neg (by omega)]
  dsimp only
  rw [List.getElem?_eq_getElem (by omega : (index - 1) / 2 < q.heap.length),
    List.getElem?_eq_getElem inside]

/-- Past the end of the heap the sift up does nothing. -/
theorem heapifyUpLoop_of_outside (fuel : Nat) (q : HTTPPriorityQueue) {index : Nat}
    (outside : q.heap.length ≤ index) : heapifyUpLoop fuel q index = q := by
  cases fuel with
  | zero => rfl
  | succ fuel =>
    rw [heapifyUpLoop]
    split_ifs
    · rfl
    · dsimp only
      rw [List.getElem?_eq_none outside]
      cases q.heap[(index - 1) / 2]? <;> rfl

theorem heapifyUpLoop_sifted : ∀ (fuel : Nat) (q : HTTPPriorityQueue) (index : Nat),
    Sifted q (heapifyUpLoop fuel q index)
  | 0, q, _ => Sifted.refl q
  | fuel + 1, q, index => by
    by_cases pos : 0 < index
    · by_cases inside : index < q.heap.length
      · rw [heapifyUpLoop_succ fuel q pos inside]
        split
        · exact Sifted.refl q
        · exact (sifted_exchange q (by omega) inside).trans (heapifyUpLoop_sifted fuel _ _)
      · rw [heapifyUpLoop_of_outside _ _ (by omega)]
        exact Sifted.refl q
    · rw [heapifyUpLoop, if_pos (by omega)]
      exact Sifted.refl q

theorem heapifyUpLoop_update_outside : ∀ (fuel : Nat) (q : HTTPPriorityQueue) (index : Nat)
    {ghost : Identifier} (v : Option IndexMapElem), ghost ∉ q.heap.map (·.identifier) →
    heapifyUpLoop fuel { q with indexMap := Function.update q.indexMap ghost v } index =
      { heapifyUpLoop fuel q index with
        indexMap := Function.update (heapifyUpLoop fuel q index).indexMap ghost v }
  | 0, q, _, _, _, _ => rfl
  | fuel + 1, q, index, ghost, v, absent => by
    by_cases pos : 0 < index
    · by_cases inside : index < q.heap.length
      · have updated := heapifyUpLoop_succ fuel { q with indexMap := Function.update q.indexMap ghost v }
          pos inside
        dsimp only at updated
        rw [updated, heapifyUpLoop_succ fuel q pos inside]
        split
        · rfl
        · have other : q.heap[index].identifier ≠ ghost ∧ q.heap[(index - 1) / 2].identifier ≠ ghost :=
            ⟨fun same => absent (List.mem_map.mpr ⟨_, List.getElem_mem inside, same⟩),
              fun same => absent (List.mem_map.mpr ⟨_, List.getElem_mem (by omega), same⟩)⟩
          rw [exchange_update_outside q _ _ _ _ v other]
          exact heapifyUpLoop_update_outside fuel _ _ v (by simpa [exchange_eq, map_swap] using absent)
      · rw [heapifyUpLoop_of_outside (fuel + 1) q (by omega),
          heapifyUpLoop_of_outside (fuel + 1) _ (by exact (by omega : q.heap.length ≤ index))]
    · simp only [heapifyUpLoop, if_pos (Nat.eq_zero_of_not_pos pos)]

theorem heapifyUpLoop_ordered : ∀ (fuel : Nat) (q : HTTPPriorityQueue) (index : Nat),
    index ≤ fuel → AllSequential q.heap → UpReady key q.heap index →
    Ordered key (heapifyUpLoop fuel q index).heap
  | 0, q, index, bounded, _, ready => by
    obtain rfl : index = 0 := by omega
    exact ready.ordered ready.lt_length (fun pos => absurd pos (Nat.lt_irrefl 0))
  | fuel + 1, q, index, bounded, sequential, ready => by
    have inside := ready.lt_length
    by_cases pos : 0 < index
    · rw [heapifyUpLoop_succ fuel q pos inside]
      split
      · rename_i settled
        exact ready.ordered inside fun _ =>
          (le_eq_true_iff (sequential _ (List.getElem_mem _))).mp settled
      · -- the element goes up past its parent
        rename_i unsettled
        have smaller : key q.heap[index] < key q.heap[(index - 1) / 2] := by
          have notLe := mt (le_eq_true_iff (sequential _ (List.getElem_mem _))).mpr (by simpa using unsettled)
          exact not_le.mp notLe
        apply heapifyUpLoop_ordered fuel _ _ (by omega)
        · rw [exchange_eq]
          exact fun e member => sequential e ((List.swap_perm _ _ _).subset member)
        · rw [exchange_eq]
          exact ready.swap inside pos smaller
    · obtain rfl : index = 0 := by omega
      rw [heapifyUpLoop, if_pos rfl]
      exact ready.ordered inside (fun pos => absurd pos (Nat.lt_irrefl 0))

theorem heapifyUp_sifted (q : HTTPPriorityQueue) (index : Nat) : Sifted q (q.heapifyUp index) :=
  heapifyUpLoop_sifted index q index

theorem heapifyUp_ordered {q : HTTPPriorityQueue} {index : Nat} (sequential : AllSequential q.heap)
    (ready : UpReady key q.heap index) : Ordered key (q.heapifyUp index).heap :=
  heapifyUpLoop_ordered index q index (le_refl _) sequential ready

/-! ## The sift down -/

/-! ## The sift down -/

theorem lessAt_inside {heap : List Element} {i j : Nat} (less : lessAt heap i j = true) :
    i < heap.length ∧ j < heap.length := by
  unfold lessAt at less
  split at less
  · rename_i a b atI atJ
    exact ⟨(List.getElem?_eq_some_iff.mp atI).1, (List.getElem?_eq_some_iff.mp atJ).1⟩
  · cases less

/-- `smallestOf` moves only to a child that is inside the heap, from a position inside it. -/
theorem smallestOf_inside {heap : List Element} {index : Nat} (moved : smallestOf heap index ≠ index) :
    smallestOf heap index < heap.length ∧ index < heap.length := by
  unfold smallestOf at moved ⊢
  by_cases left : lessAt heap (2 * index + 1) index = true
  · have leftInside := lessAt_inside left
    simp only [left, if_true] at moved ⊢
    by_cases right : lessAt heap (2 * index + 2) (2 * index + 1) = true
    · simp only [right, if_true]
      exact ⟨(lessAt_inside right).1, leftInside.2⟩
    · simp only [right, Bool.false_eq_true, if_false]
      exact leftInside
  · simp only [left, Bool.false_eq_true, if_false] at moved ⊢
    by_cases right : lessAt heap (2 * index + 2) index = true
    · simp only [right, if_true]
      exact lessAt_inside right
    · simp [right] at moved

theorem heapifyDownLoop_stop (fuel : Nat) (q : HTTPPriorityQueue) {index : Nat}
    (settled : smallestOf q.heap index = index) : heapifyDownLoop (fuel + 1) q index = q := by
  rw [heapifyDownLoop, if_pos settled]

theorem heapifyDownLoop_exchange (fuel : Nat) (q : HTTPPriorityQueue) {index : Nat}
    (moved : smallestOf q.heap index ≠ index) (smallestInside : smallestOf q.heap index < q.heap.length)
    (inside : index < q.heap.length) :
    heapifyDownLoop (fuel + 1) q index =
      heapifyDownLoop fuel
        (({ q with heap := q.heap.swap (smallestOf q.heap index) index }.assignIndex q.heap[index]
            (smallestOf q.heap index)).assignIndex q.heap[smallestOf q.heap index] index)
        (smallestOf q.heap index) := by
  rw [heapifyDownLoop, if_neg moved, List.getElem?_eq_getElem smallestInside,
    List.getElem?_eq_getElem inside]

theorem heapifyDownLoop_sifted : ∀ (fuel : Nat) (q : HTTPPriorityQueue) (index : Nat),
    Sifted q (heapifyDownLoop fuel q index)
  | 0, q, _ => Sifted.refl q
  | fuel + 1, q, index => by
    by_cases moved : smallestOf q.heap index = index
    · rw [heapifyDownLoop_stop fuel q moved]
      exact Sifted.refl q
    · obtain ⟨smallestInside, inside⟩ := smallestOf_inside moved
      rw [heapifyDownLoop_exchange fuel q moved smallestInside inside]
      exact (sifted_exchange q smallestInside inside).trans (heapifyDownLoop_sifted fuel _ _)

theorem heapifyDownLoop_update_outside : ∀ (fuel : Nat) (q : HTTPPriorityQueue) (index : Nat)
    {ghost : Identifier} (v : Option IndexMapElem), ghost ∉ q.heap.map (·.identifier) →
    heapifyDownLoop fuel { q with indexMap := Function.update q.indexMap ghost v } index =
      { heapifyDownLoop fuel q index with
        indexMap := Function.update (heapifyDownLoop fuel q index).indexMap ghost v }
  | 0, q, _, _, _, _ => rfl
  | fuel + 1, q, index, ghost, v, absent => by
    by_cases moved : smallestOf q.heap index = index
    · rw [heapifyDownLoop_stop fuel q moved,
        heapifyDownLoop_stop fuel { q with indexMap := Function.update q.indexMap ghost v } moved]
    · obtain ⟨smallestInside, inside⟩ := smallestOf_inside moved
      have updated := heapifyDownLoop_exchange fuel
        { q with indexMap := Function.update q.indexMap ghost v } moved smallestInside inside
      dsimp only at updated
      rw [updated, heapifyDownLoop_exchange fuel q moved smallestInside inside]
      have other : q.heap[index].identifier ≠ ghost ∧
          q.heap[smallestOf q.heap index].identifier ≠ ghost :=
        ⟨fun same => absent (List.mem_map.mpr ⟨_, List.getElem_mem inside, same⟩),
          fun same => absent (List.mem_map.mpr ⟨_, List.getElem_mem smallestInside, same⟩)⟩
      rw [exchange_update_outside q _ _ _ _ v other]
      exact heapifyDownLoop_update_outside fuel _ _ v (by simpa [exchange_eq, map_swap] using absent)

theorem heapifyDownLoop_ordered : ∀ (fuel : Nat) (q : HTTPPriorityQueue) (index : Nat),
    q.heap.length ≤ fuel + index → AllSequential q.heap → DownReady key q.heap index →
    Ordered key (heapifyDownLoop fuel q index).heap
  | 0, q, index, bounded, _, ready => by
    -- no child of `index` is inside the heap
    change Ordered key q.heap
    intro j inside pos
    exact ready.except j inside pos (by omega)
  | fuel + 1, q, index, bounded, sequential, ready => by
    by_cases inside : index < q.heap.length
    · rcases smallestOf_spec sequential inside with ⟨settled, least⟩ | ⟨smallestInside, pos, child, smaller, least⟩
      · rw [heapifyDownLoop_stop fuel q settled]
        exact ready.ordered inside least
      · -- the element goes down in place of its least child
        have moved : smallestOf q.heap index ≠ index := by omega
        rw [heapifyDownLoop_exchange fuel q moved smallestInside inside]
        apply heapifyDownLoop_ordered fuel _ _ (by rw [exchange_eq]; simp; omega)
        · rw [exchange_eq]
          exact fun e member => sequential e ((List.swap_perm _ _ _).subset member)
        · rw [exchange_eq]
          exact ready.swap smallestInside inside pos child smaller least
    · have settled : smallestOf q.heap index = index := by
        by_contra moved
        exact inside (smallestOf_inside moved).2
      rw [heapifyDownLoop_stop fuel q settled]
      intro j jInside pos
      exact ready.except j jInside pos (by omega)

theorem heapifyDown_sifted (q : HTTPPriorityQueue) (index : Nat) : Sifted q (q.heapifyDown index) :=
  heapifyDownLoop_sifted q.heap.length q index

theorem heapifyDown_ordered {q : HTTPPriorityQueue} {index : Nat} (sequential : AllSequential q.heap)
    (ready : DownReady key q.heap index) : Ordered key (q.heapifyDown index).heap :=
  heapifyDownLoop_ordered q.heap.length q index (Nat.le_add_right _ _) sequential ready


end HTTPPriorityQueue

end Mvfst.Priority
