import Mvfst.Priority.HTTPPriorityQueueHeap
import Mathlib.Algebra.BigOperators.Group.Finset.Piecewise
import Mathlib.Algebra.BigOperators.Fin

/-!
# The invariant of the HTTP priority queue

`Wf` is what every operation of `HTTPPriorityQueue.cpp` keeps: the heap holds sequential,
schedulable elements in heap order with distinct identifiers, each round robin holds incremental
identifiers of its urgency, no identifier is in two places, `roundRobinElements_` counts the
round robins' identifiers, `lowestRoundRobin_` is the least urgency with a non-empty round robin
(8 when there is none), and the index map holds exactly the round robin urgencies and, while
`useIndexMapForSequential_` is set, the heap positions.

The heap part and the round robin part are kept by separate lemmas (`HeapWf`, `RoundRobinsWf`);
an operation's lemma puts them together with what it does to the identifiers and the index map.
-/

namespace Mvfst.Priority

set_option linter.dupNamespace false

namespace HTTPPriorityQueue

open BinaryHeap

/-! ## The round robins -/

/-- The invariant of the round robins, their count and the lowest urgency. -/
structure RoundRobinsWf (roundRobins : Fin 8 → RoundRobin Identifier) (elements lowest : Nat) :
    Prop where
  wf : ∀ u, (roundRobins u).Wf
  apart : ∀ id u v, id ∈ (roundRobins u).list → id ∈ (roundRobins v).list → u = v
  count : elements = ∑ u, (roundRobins u).list.length
  lowest_le : lowest ≤ 8
  below : ∀ u : Fin 8, u.val < lowest → (roundRobins u).list = []
  at_lowest : ∀ u : Fin 8, u.val = lowest → (roundRobins u).list ≠ []

theorem sum_update_add (f : Fin 8 → Nat) (u : Fin 8) (b : Nat) :
    ∑ v, Function.update f u b v + f u = ∑ v, f v + b := by
  rw [Finset.sum_update_of_mem (Finset.mem_univ u), Finset.sdiff_singleton_eq_erase,
    ← Finset.add_sum_erase Finset.univ f (Finset.mem_univ u)]
  omega

/-- The length of a round robin's list, after one of them changed. -/
theorem sum_length_update (roundRobins : Fin 8 → RoundRobin Identifier) (u : Fin 8)
    (rr : RoundRobin Identifier) :
    ∑ v, (Function.update roundRobins u rr v).list.length + (roundRobins u).list.length =
      ∑ v, (roundRobins v).list.length + rr.list.length := by
  have lengths := sum_update_add (fun v => (roundRobins v).list.length) u rr.list.length
  rw [← lengths]
  congr 2
  funext v
  simp only [Function.update_apply]
  split_ifs <;> rfl

/-- The loop that moves `lowestRoundRobin_` up stops at the first non-empty round robin. -/
theorem skipEmptyRoundRobins_spec (roundRobins : Fin 8 → RoundRobin Identifier) :
    ∀ fuel lowest, 8 ≤ lowest + fuel → lowest ≤ 8 →
      (∀ u : Fin 8, u.val < lowest → (roundRobins u).list = []) →
      skipEmptyRoundRobins roundRobins fuel lowest ≤ 8 ∧
        (∀ u : Fin 8, u.val < skipEmptyRoundRobins roundRobins fuel lowest → (roundRobins u).list = []) ∧
        (∀ u : Fin 8, u.val = skipEmptyRoundRobins roundRobins fuel lowest → (roundRobins u).list ≠ [])
  | 0, lowest, enough, bounded, below => by
    obtain rfl : lowest = 8 := by omega
    unfold skipEmptyRoundRobins
    exact ⟨le_refl _, below, fun u same => absurd same (by omega)⟩
  | fuel + 1, lowest, enough, bounded, below => by
    unfold skipEmptyRoundRobins
    split
    · rename_i inside
      split
      · -- an empty round robin: the loop goes on past it
        rename_i empty
        apply skipEmptyRoundRobins_spec roundRobins fuel (lowest + 1) (by omega) (by omega)
        intro u lower
        by_cases same : u.val = lowest
        · have : u = ⟨lowest, inside⟩ := Fin.ext same
          subst this
          exact List.isEmpty_iff.mp empty
        · exact below u (by omega)
      · rename_i nonempty
        refine ⟨bounded, below, fun u same => ?_⟩
        have : u = ⟨lowest, inside⟩ := Fin.ext same
        subst this
        exact fun empty => nonempty (List.isEmpty_iff.mpr empty)
    · refine ⟨bounded, below, fun u same => absurd u.isLt (by omega)⟩

variable {roundRobins : Fin 8 → RoundRobin Identifier} {elements lowest : Nat}

/-- The members of the round robins after one of them took a new identifier. -/
theorem mem_update_insert (wf : ∀ u, (roundRobins u).Wf) (u v : Fin 8) (id x : Identifier) :
    x ∈ (Function.update roundRobins u ((roundRobins u).insert id) v).list ↔
      (v = u ∧ x = id) ∨ x ∈ (roundRobins v).list := by
  by_cases here : v = u
  · subst here
    rw [Function.update_self, RoundRobin.insert_list, List.mem_insertIdx (wf v).nextIt_le]
    simp
  · rw [Function.update_of_ne here]
    simp [here]

/-- The members of the round robins after one of them lost one of its identifiers. -/
theorem RoundRobinsWf.mem_update_erase (wf : RoundRobinsWf roundRobins elements lowest) {u : Fin 8}
    {id : Identifier} (present : id ∈ (roundRobins u).list) (v : Fin 8) (x : Identifier) :
    x ∈ (Function.update roundRobins u ((roundRobins u).erase id).1 v).list ↔
      x ∈ (roundRobins v).list ∧ x ≠ id := by
  by_cases here : v = u
  · subst here
    rw [Function.update_self, RoundRobin.erase_list (wf.wf v), (wf.wf v).nodup.mem_erase_iff, and_comm]
  · rw [Function.update_of_ne here]
    constructor
    · intro member
      exact ⟨member, fun same => here (wf.apart x v u member (same ▸ present))⟩
    · exact fun ⟨member, _⟩ => member

/-- A new identifier at the end of one round robin's turn. -/
theorem RoundRobinsWf.insert (wf : RoundRobinsWf roundRobins elements lowest) {id : Identifier}
    (fresh : ∀ v, id ∉ (roundRobins v).list) (u : Fin 8) :
    RoundRobinsWf (Function.update roundRobins u ((roundRobins u).insert id)) (elements + 1)
      (if u.val < lowest then u.val else lowest) := by
  have members : ∀ x, x ∈ ((roundRobins u).insert id).list ↔ x = id ∨ x ∈ (roundRobins u).list :=
    fun x => by rw [RoundRobin.insert_list, List.mem_insertIdx (wf.wf u).nextIt_le]
  have grown : ((roundRobins u).insert id).list.length = (roundRobins u).list.length + 1 := by
    rw [RoundRobin.insert_list, List.length_insertIdx_of_le_length (wf.wf u).nextIt_le]
  have nonempty : ((roundRobins u).insert id).list ≠ [] :=
    List.ne_nil_of_mem ((members id).mpr (.inl rfl))
  refine ⟨fun v => ?_, fun x v w inV inW => ?_, ?_, ?_, fun v lower => ?_, fun v same => ?_⟩
  · by_cases here : v = u
    · subst here
      rw [Function.update_self]
      exact (wf.wf v).insert (fresh v)
    · rw [Function.update_of_ne here]
      exact wf.wf v
  · -- the new identifier is in no other round robin
    have located : ∀ y, x ∈ (Function.update roundRobins u ((roundRobins u).insert id) y).list →
        (y = u ∧ x = id) ∨ x ∈ (roundRobins y).list := by
      intro y member
      by_cases here : y = u
      · subst here
        rw [Function.update_self, members] at member
        rcases member with new | old
        · exact .inl ⟨rfl, new⟩
        · exact .inr old
      · rw [Function.update_of_ne here] at member
        exact .inr member
    rcases located v inV with ⟨atU, isNew⟩ | oldV <;> rcases located w inW with ⟨atU', isNew'⟩ | oldW
    · exact atU.trans atU'.symm
    · exact absurd (isNew ▸ oldW) (fresh w)
    · exact absurd (isNew' ▸ oldV) (fresh v)
    · exact wf.apart x v w oldV oldW
  · have lengths := sum_length_update roundRobins u ((roundRobins u).insert id)
    rw [wf.count]
    omega
  · have := wf.lowest_le
    split <;> omega
  · have below : v.val < lowest := by split at lower <;> omega
    have other : v ≠ u := by
      rintro rfl
      split at lower <;> omega
    rw [Function.update_of_ne other]
    exact wf.below v below
  · by_cases here : v = u
    · subst here
      rw [Function.update_self]
      exact nonempty
    · rw [Function.update_of_ne here]
      split at same
      · exact absurd (Fin.ext (by omega)) here
      · exact wf.at_lowest v same

/-- An identifier out of its round robin; the lowest urgency moves up past the round robins
left empty. -/
theorem RoundRobinsWf.erase (wf : RoundRobinsWf roundRobins elements lowest) {id : Identifier}
    {u : Fin 8} (present : id ∈ (roundRobins u).list) :
    RoundRobinsWf (Function.update roundRobins u ((roundRobins u).erase id).1) (elements - 1)
      (if u.val = lowest ∧ ((roundRobins u).erase id).1.empty = true then
        skipEmptyRoundRobins (Function.update roundRobins u ((roundRobins u).erase id).1) 8 lowest
      else lowest) := by
  have erased := RoundRobin.erase_list (wf.wf u) id
  have shrunk : ((roundRobins u).erase id).1.list.length + 1 = (roundRobins u).list.length := by
    rw [erased, List.length_erase_of_mem present]
    have := List.length_pos_of_mem present
    omega
  have atLeast : lowest ≤ u.val := by
    by_contra lower
    rw [wf.below u (by omega)] at present
    cases present
  have updatedWf : ∀ v, (Function.update roundRobins u ((roundRobins u).erase id).1 v).Wf := by
    intro v
    by_cases here : v = u
    · subst here
      rw [Function.update_self]
      exact (wf.wf v).erase id
    · rw [Function.update_of_ne here]
      exact wf.wf v
  have updatedBelow : ∀ v : Fin 8, v.val < lowest →
      (Function.update roundRobins u ((roundRobins u).erase id).1 v).list = [] := by
    intro v lower
    rw [Function.update_of_ne (by rintro rfl; omega)]
    exact wf.below v lower
  refine ⟨updatedWf, fun x v w inV inW => ?_, ?_, ?_, ?_, ?_⟩
  · have old : ∀ y, x ∈ (Function.update roundRobins u ((roundRobins u).erase id).1 y).list →
        x ∈ (roundRobins y).list := by
      intro y member
      by_cases here : y = u
      · subst here
        rw [Function.update_self, erased] at member
        exact List.mem_of_mem_erase member
      · rwa [Function.update_of_ne here] at member
    exact wf.apart x v w (old v inV) (old w inW)
  · have lengths := sum_length_update roundRobins u ((roundRobins u).erase id).1
    rw [wf.count]
    omega
  all_goals split
  · exact (skipEmptyRoundRobins_spec _ 8 lowest (by omega) wf.lowest_le updatedBelow).1
  · exact wf.lowest_le
  · exact (skipEmptyRoundRobins_spec _ 8 lowest (by omega) wf.lowest_le updatedBelow).2.1
  · exact updatedBelow
  · exact (skipEmptyRoundRobins_spec _ 8 lowest (by omega) wf.lowest_le updatedBelow).2.2
  · -- the lowest round robin is still there, or was not the one that changed
    rename_i kept
    intro v same
    by_cases here : v = u
    · subst here
      rw [Function.update_self]
      intro empty
      exact kept ⟨same, List.isEmpty_iff.mpr empty⟩
    · rw [Function.update_of_ne here]
      exact wf.at_lowest v same

/-- Round robins with the same lists, as after `getNext`, `consume` or `advanceAfterNext`. -/
theorem RoundRobinsWf.same_lists (wf : RoundRobinsWf roundRobins elements lowest)
    {roundRobins' : Fin 8 → RoundRobin Identifier} (wf' : ∀ u, (roundRobins' u).Wf)
    (lists : ∀ u, (roundRobins' u).list = (roundRobins u).list) :
    RoundRobinsWf roundRobins' elements lowest := by
  refine ⟨wf', fun x v w inV inW => ?_, ?_, wf.lowest_le, fun v lower => ?_, fun v same => ?_⟩
  · rw [lists] at inV inW
    exact wf.apart x v w inV inW
  · simp only [lists]
    exact wf.count
  · rw [lists]
    exact wf.below v lower
  · rw [lists]
    exact wf.at_lowest v same

/-! ## The whole queue -/

/-- A priority the queue may hold: not paused, and set (`Priority(basePriority)` replaces an unset
one by the default). -/
def Priority.Schedulable (priority : Priority) : Prop :=
  priority.paused = false ∧ priority.uninitialized = false

/-- The invariant of the heap and of its part of the index map. -/
structure HeapWf (q : HTTPPriorityQueue) : Prop where
  sequential : AllSequential q.heap
  schedulable : ∀ e ∈ q.heap, e.priority.Schedulable
  ordered : Ordered key q.heap
  nodup : (q.heap.map (·.identifier)).Nodup
  indexed : HeapIndexed q

structure Wf (q : HTTPPriorityQueue) : Prop where
  heap : HeapWf q
  roundRobins : RoundRobinsWf q.roundRobins q.roundRobinElements q.lowestRoundRobin
  apart : ∀ id u, id ∈ q.heap.map (·.identifier) → id ∉ (q.roundRobins u).list
  roundRobinIndexed : ∀ id n, q.indexMap id = some ⟨true, n⟩ ↔
    ∃ u : Fin 8, u.val = n ∧ id ∈ (q.roundRobins u).list
  erasedSchedulable : ∀ e ∈ q.erased, e.priority.Schedulable

/-- The identifier is in the heap or in a round robin. -/
def Present (q : HTTPPriorityQueue) (id : Identifier) : Prop :=
  id ∈ q.heap.map (·.identifier) ∨ ∃ u, id ∈ (q.roundRobins u).list

/-- The queue holds `id` at `priority`: as a heap element, or in the round robin of urgency `u` at
`Priority(u, true)`, the priority `erase` records for it. -/
def Holds (q : HTTPPriorityQueue) (id : Identifier) (priority : Priority) : Prop :=
  (∃ e ∈ q.heap, e.identifier = id ∧ e.priority = priority) ∨
    ∃ u : Fin 8, id ∈ (q.roundRobins u).list ∧ priority = Priority.make u.val true 0

variable {q : HTTPPriorityQueue} {id : Identifier} {found : FindResult}

/-- While the heap index is on, a heap identifier has its position in the index map. -/
theorem HeapIndexed.mem_heap (indexed : HeapIndexed q) (enabled : q.useIndexMapForSequential = true)
    {i : Nat} (inside : i < q.heap.length) :
    q.indexMap q.heap[i].identifier = some (heapEntry i) :=
  (indexed.1 enabled _ i).mpr ⟨by simpa using inside, by simp⟩

/-- What `find` returns for an identifier of a round robin. -/
theorem find_incremental (wf : q.Wf) (finding : q.find id = some found)
    (incremental : found.elem.incremental = true) :
    found.indexed = true ∧ ∃ u : Fin 8, u.val = found.elem.index ∧ id ∈ (q.roundRobins u).list := by
  unfold find at finding
  split at finding
  · rename_i elem entry
    cases finding
    refine ⟨rfl, (wf.roundRobinIndexed id elem.index).mp ?_⟩
    rw [entry]
    cases elem
    simp only at incremental
    rw [incremental]
  · split at finding
    · split at finding
      · cases finding
        cases incremental
      · cases finding
    · cases finding

/-- What `find` returns for an identifier of the heap: its position, from the index map exactly
when the heap index is on. -/
theorem find_sequential (wf : q.Wf) (finding : q.find id = some found)
    (sequential : found.elem.incremental = false) :
    found.indexed = q.useIndexMapForSequential ∧
      ∃ inside : found.elem.index < q.heap.length, q.heap[found.elem.index].identifier = id := by
  unfold find at finding
  split at finding
  · rename_i elem entry
    cases finding
    cases elem with
    | mk incremental index =>
      simp only at sequential
      subst sequential
      cases enabled : q.useIndexMapForSequential
      · exact absurd entry (wf.heap.indexed.2 enabled id index)
      · obtain ⟨inside, located⟩ := (wf.heap.indexed.1 enabled id index).mp entry
        exact ⟨rfl, by simpa using inside, by simpa using located⟩
  · split at finding
    · rename_i disabled
      split at finding
      · rename_i i search
        cases finding
        obtain ⟨inside, satisfied, _⟩ := List.findIdx?_eq_some_iff_getElem.mp search
        simp only [Bool.and_eq_true, Bool.not_eq_true', beq_iff_eq] at satisfied
        exact ⟨by simpa using disabled, inside, satisfied.2⟩
      · cases finding
    · cases finding

/-- `find` finds exactly the identifiers in the queue. -/
theorem find_eq_none_iff (wf : q.Wf) : q.find id = none ↔ ¬ q.Present id := by
  have inRoundRobin : ∀ u, id ∈ (q.roundRobins u).list → q.indexMap id = some ⟨true, u.val⟩ :=
    fun u member => (wf.roundRobinIndexed id u.val).mpr ⟨u, rfl, member⟩
  constructor
  · intro missing present
    have unmapped : q.indexMap id = none := by
      unfold find at missing
      split at missing
      · cases missing
      · assumption
    rcases present with inHeap | ⟨u, member⟩
    · obtain ⟨i, inside, located⟩ := List.getElem_of_mem inHeap
      simp only [List.getElem_map, List.length_map] at located inside
      cases enabled : q.useIndexMapForSequential
      · -- the linear search of the heap meets it
        have search : q.heap.findIdx? (fun elem => !elem.priority.incremental && elem.identifier == id) =
            none := by
          unfold find at missing
          rw [unmapped, enabled] at missing
          simp only [Bool.not_false, if_true] at missing
          split at missing
          · cases missing
          · assumption
        have skipped := List.findIdx?_eq_none_iff.mp search q.heap[i] (List.getElem_mem inside)
        simp [wf.heap.sequential _ (List.getElem_mem inside), located] at skipped
      · have mapped := wf.heap.indexed.mem_heap enabled inside
        rw [located, unmapped] at mapped
        cases mapped
    · rw [inRoundRobin u member] at unmapped
      cases unmapped
  · intro absent
    have unmapped : q.indexMap id = none := by
      cases entry : q.indexMap id with
      | none => rfl
      | some elem =>
        exfalso
        cases elem with
        | mk incremental index =>
          cases incremental
          · cases enabled : q.useIndexMapForSequential
            · exact wf.heap.indexed.2 enabled id index entry
            · obtain ⟨inside, located⟩ := (wf.heap.indexed.1 enabled id index).mp entry
              exact absent (.inl (located ▸ List.getElem_mem inside))
          · obtain ⟨u, _, member⟩ := (wf.roundRobinIndexed id index).mp entry
            exact absent (.inr ⟨u, member⟩)
    unfold find
    rw [unmapped]
    dsimp only
    split
    · rw [List.findIdx?_eq_none_iff.mpr]
      intro e member
      simp only [Bool.and_eq_false_iff, Bool.not_eq_false', beq_eq_false_iff_ne, ne_eq]
      exact .inr fun same => absent (.inl (List.mem_map.mpr ⟨e, member, same⟩))
    · rfl

/-- An identifier the queue does not hold has no entry in the index map. -/
theorem Wf.entry_none (wf : q.Wf) (absent : ¬ q.Present id) : q.indexMap id = none := by
  cases entry : q.indexMap id with
  | none => rfl
  | some elem =>
    exfalso
    obtain ⟨incremental, index⟩ := elem
    cases incremental
    · cases enabled : q.useIndexMapForSequential
      · exact wf.heap.indexed.2 enabled id index entry
      · obtain ⟨inside, located⟩ := (wf.heap.indexed.1 enabled id index).mp entry
        exact absent (.inl (located ▸ List.getElem_mem inside))
    · obtain ⟨u, _, member⟩ := (wf.roundRobinIndexed id index).mp entry
      exact absent (.inr ⟨u, member⟩)

/-- A change of the heap, its index and the flag, that keeps the round robins and their entries. -/
theorem Wf.of_heap_change {q' : HTTPPriorityQueue} (wf : q.Wf)
    (frame : ∃ heap indexMap useSeq, q' = { q with heap, indexMap, useIndexMapForSequential := useSeq })
    (heapWf : HeapWf q') (apart : ∀ x u, x ∈ q'.heap.map (·.identifier) → x ∉ (q.roundRobins u).list)
    (kept : ∀ x u, x ∈ (q.roundRobins u).list → q'.indexMap x = q.indexMap x)
    (noRoundRobin : ∀ x n, q'.indexMap x = some ⟨true, n⟩ → q.indexMap x = some ⟨true, n⟩) :
    q'.Wf := by
  obtain ⟨heap, indexMap, useSeq, rfl⟩ := frame
  refine ⟨heapWf, wf.roundRobins, apart, fun x n => ⟨fun entry => ?_, fun ⟨u, same, member⟩ => ?_⟩,
    wf.erasedSchedulable⟩
  · exact (wf.roundRobinIndexed x n).mp (noRoundRobin x n entry)
  · rw [kept x u member]
    exact (wf.roundRobinIndexed x n).mpr ⟨u, same, member⟩

/-! ## Building and dropping the heap index -/

theorem foldl_addIndex_zipIdx (heap : List Element) (sequential : AllSequential heap)
    (nodup : (heap.map (·.identifier)).Nodup) :
    ∀ (n : Nat) (q : HTTPPriorityQueue), q.useIndexMapForSequential = true →
      (heap.zipIdx n).foldl
          (fun q (elem, i) =>
            if !elem.priority.incremental then q.addIndex elem.identifier ⟨false, i⟩ else q) q =
        { q with
          indexMap := fun id =>
            if id ∈ heap.map (·.identifier) then
              some (heapEntry (n + (heap.map (·.identifier)).idxOf id))
            else q.indexMap id } := by
  induction heap with
  | nil =>
    intro n q _
    simp
  | cons e rest ih =>
    intro n q enabled
    have eSequential : e.priority.incremental = false := sequential e (List.mem_cons_self ..)
    rw [List.map_cons, List.nodup_cons] at nodup
    obtain ⟨eFresh, restNodup⟩ := nodup
    have restSequential : AllSequential rest := fun x member =>
      sequential x (List.mem_cons_of_mem _ member)
    rw [List.zipIdx_cons, List.foldl_cons, ih restSequential restNodup (n + 1) _ ?still]
    case still => simp [eSequential, addIndex_eq, enabled]
    simp only [eSequential, Bool.not_false, if_true, addIndex_eq, enabled, Bool.true_or]
    congr 1
    funext id
    simp only [List.map_cons, List.mem_cons]
    by_cases inRest : id ∈ rest.map (·.identifier)
    · have other : e.identifier ≠ id := fun same => eFresh (same ▸ inRest)
      simp only [inRest, or_true, if_true, List.idxOf_cons_ne _ other, heapEntry]
      congr 2
      omega
    · by_cases isE : id = e.identifier
      · subst isE
        rw [if_pos (Or.inl rfl), List.idxOf_cons_self, Function.update_self, if_neg inRest]
        rfl
      · simp [inRest, isE]

theorem buildSequentialIndex_eq (q : HTTPPriorityQueue) (sequential : AllSequential q.heap)
    (nodup : (q.heap.map (·.identifier)).Nodup) (enabled : q.useIndexMapForSequential = true) :
    q.buildSequentialIndex =
      { q with
        indexMap := fun id =>
          if id ∈ q.heap.map (·.identifier) then
            some (heapEntry ((q.heap.map (·.identifier)).idxOf id))
          else q.indexMap id } := by
  unfold buildSequentialIndex
  rw [foldl_addIndex_zipIdx q.heap sequential nodup 0 q enabled]
  simp only [Nat.zero_add]

/-- The first lines of `insert`: the heap index is built once the heap has 100 elements. -/
def prepareIndex (q : HTTPPriorityQueue) : HTTPPriorityQueue :=
  if !q.useIndexMapForSequential && decide (q.heap.length ≥ kBuildIndexThreshold) then
    { q with useIndexMapForSequential := true }.buildSequentialIndex
  else q

theorem prepareIndex_eq (sequential : AllSequential q.heap)
    (nodup : (q.heap.map (·.identifier)).Nodup) :
    q.prepareIndex =
      if !q.useIndexMapForSequential && decide (q.heap.length ≥ kBuildIndexThreshold) then
        { q with
          useIndexMapForSequential := true
          indexMap := fun id =>
            if id ∈ q.heap.map (·.identifier) then
              some (heapEntry ((q.heap.map (·.identifier)).idxOf id))
            else q.indexMap id }
      else q := by
  unfold prepareIndex
  split
  · exact buildSequentialIndex_eq { q with useIndexMapForSequential := true } sequential nodup rfl
  · rfl

theorem Wf.prepareIndex (wf : q.Wf) : q.prepareIndex.Wf := by
  rw [prepareIndex_eq wf.heap.sequential wf.heap.nodup]
  split
  · rename_i building
    have disabled : q.useIndexMapForSequential = false := by
      revert building
      cases q.useIndexMapForSequential <;> simp
    refine wf.of_heap_change ⟨_, _, _, rfl⟩ ⟨wf.heap.sequential, wf.heap.schedulable, wf.heap.ordered,
      wf.heap.nodup, fun _ => ?_, fun off => absurd off (by simp)⟩ wf.apart (fun x u member => ?_)
      (fun x n entry => ?_)
    · exact tracks_idxOf heapEntry_injective wf.heap.nodup (wf.heap.indexed.2 disabled)
    · have absent : x ∉ q.heap.map (·.identifier) := fun inHeap => wf.apart x u inHeap member
      simp [absent]
    · dsimp only at entry
      split at entry
      · cases entry
      · exact entry
  · exact wf

/-- The first lines of `insert` write heap entries only, so they commute with writing an entry
outside the heap. -/
theorem prepareIndex_update_outside (sequential : AllSequential q.heap)
    (nodup : (q.heap.map (·.identifier)).Nodup) {x : Identifier}
    (absent : x ∉ q.heap.map (·.identifier)) (v : Option IndexMapElem) :
    ({ q with indexMap := Function.update q.indexMap x v } : HTTPPriorityQueue).prepareIndex =
      { q.prepareIndex with indexMap := Function.update q.prepareIndex.indexMap x v } := by
  rw [prepareIndex_eq (q := { q with indexMap := Function.update q.indexMap x v }) sequential nodup,
    prepareIndex_eq sequential nodup]
  split
  · congr 1
    funext y
    by_cases same : y = x
    · subst same
      simp [absent]
    · simp only [Function.update_of_ne same]
  · rfl

/-- The first lines of `insert` touch only the entries of the heap. -/
theorem prepareIndex_outside (wf : q.Wf) {x : Identifier} (absent : x ∉ q.heap.map (·.identifier)) :
    q.prepareIndex.indexMap x = q.indexMap x := by
  rw [prepareIndex_eq wf.heap.sequential wf.heap.nodup]
  split
  · simp [absent]
  · rfl

theorem foldl_addIndex_frame (steps : List (Element × Nat)) :
    ∀ q : HTTPPriorityQueue, ∃ indexMap,
      steps.foldl
          (fun q (elem, i) =>
            if !elem.priority.incremental then q.addIndex elem.identifier ⟨false, i⟩ else q) q =
        { q with indexMap } := by
  induction steps with
  | nil => exact fun q => ⟨q.indexMap, rfl⟩
  | cons step rest ih =>
    intro q
    obtain ⟨elem, i⟩ := step
    obtain ⟨stepMap, stepped⟩ : ∃ indexMap,
        (if !elem.priority.incremental then q.addIndex elem.identifier ⟨false, i⟩ else q) =
          { q with indexMap } := by
      split
      · exact ⟨_, addIndex_eq ..⟩
      · exact ⟨q.indexMap, rfl⟩
    obtain ⟨indexMap, folded⟩ := ih { q with indexMap := stepMap }
    refine ⟨indexMap, ?_⟩
    rw [List.foldl_cons]
    dsimp only
    rw [stepped, folded]

/-- `prepareIndex` changes the index map and the flag only. -/
theorem prepareIndex_frame (q : HTTPPriorityQueue) :
    ∃ indexMap useSeq, q.prepareIndex = { q with indexMap, useIndexMapForSequential := useSeq } := by
  unfold prepareIndex
  split
  · obtain ⟨indexMap, built⟩ := foldl_addIndex_frame q.heap.zipIdx { q with useIndexMapForSequential := true }
    exact ⟨indexMap, true, built⟩
  · exact ⟨q.indexMap, q.useIndexMapForSequential, rfl⟩

theorem Present.of_prepareIndex (present : q.prepareIndex.Present id) : q.Present id := by
  obtain ⟨indexMap, useSeq, same⟩ := prepareIndex_frame q
  rw [same] at present
  exact present

/-! ## Insertion -/

/-- What a sift keeps of the heap part of the invariant; the order is the sift's own result. -/
theorem Sifted.heapWf {q' : HTTPPriorityQueue} (sifted : Sifted q q') (sequential : AllSequential q.heap)
    (schedulable : ∀ e ∈ q.heap, e.priority.Schedulable) (nodup : (q.heap.map (·.identifier)).Nodup)
    (indexed : HeapIndexed q) (ordered : Ordered key q'.heap) : HeapWf q' where
  sequential e member := sequential e (sifted.perm.mem_iff.mp member)
  schedulable e member := schedulable e (sifted.perm.mem_iff.mp member)
  ordered := ordered
  nodup := ((sifted.perm.map _).nodup_iff).mpr nodup
  indexed := sifted.indexed indexed nodup

/-- A sift writes only heap entries, so the round robin entries after it were there before. -/
theorem Sifted.incremental_entry {q' : HTTPPriorityQueue} (sifted : Sifted q q') {x : Identifier}
    {n : Nat} (entry : q'.indexMap x = some ⟨true, n⟩) : q.indexMap x = some ⟨true, n⟩ := by
  rcases sifted.written x with same | ⟨i, placed⟩
  · rwa [← same]
  · rw [placed] at entry
    cases entry

/-- The incremental branch of `insert`: the identifier goes to the round robin of its urgency. -/
theorem Wf.insertRoundRobin (wf : q.Wf) (fresh : ¬ q.Present id) (u : Fin 8) :
    ({ q with
        roundRobins := Function.update q.roundRobins u ((q.roundRobins u).insert id)
        roundRobinElements := q.roundRobinElements + 1
        indexMap := Function.update q.indexMap id (some ⟨true, u.val⟩)
        lowestRoundRobin := if u.val < q.lowestRoundRobin then u.val else q.lowestRoundRobin } :
      HTTPPriorityQueue).Wf := by
  have freshHeap : id ∉ q.heap.map (·.identifier) := fun member => fresh (.inl member)
  have freshRoundRobins : ∀ v, id ∉ (q.roundRobins v).list := fun v member => fresh (.inr ⟨v, member⟩)
  have members := mem_update_insert wf.roundRobins.wf u
  have notHeapEntry : ∀ i, some (⟨true, u.val⟩ : IndexMapElem) ≠ some (heapEntry i) := by
    intro i same
    cases same
  refine ⟨⟨wf.heap.sequential, wf.heap.schedulable, wf.heap.ordered, wf.heap.nodup,
      fun enabled => (wf.heap.indexed.1 enabled).update_absent freshHeap notHeapEntry,
      fun disabled x i => ?_⟩,
    wf.roundRobins.insert freshRoundRobins u, fun x v inHeap => ?_, fun x n => ?_,
    wf.erasedSchedulable⟩
  · dsimp only
    by_cases same : x = id
    · subst same
      rw [Function.update_self]
      exact notHeapEntry i
    · rw [Function.update_of_ne same]
      exact wf.heap.indexed.2 disabled x i
  · have other : x ≠ id := fun same => freshHeap (same ▸ inHeap)
    rw [members]
    rintro (⟨_, same⟩ | old)
    · exact other same
    · exact wf.apart x v inHeap old
  · dsimp only
    by_cases same : x = id
    · -- the new identifier is in the round robin of its urgency and no other
      subst same
      rw [Function.update_self]
      constructor
      · intro entry
        cases entry
        exact ⟨u, rfl, (members u x x).mpr (.inl ⟨rfl, rfl⟩)⟩
      · rintro ⟨v, atV, member⟩
        rcases (members v x x).mp member with ⟨rfl, _⟩ | old
        · rw [atV]
        · exact absurd old (freshRoundRobins v)
    · rw [Function.update_of_ne same, wf.roundRobinIndexed x n]
      simp only [members, same, and_false, false_or]

/-- The sequential branch of `insert`: the element goes last in the heap and is sifted up. -/
theorem Wf.push (wf : q.Wf) (fresh : ¬ q.Present id) {priority : Priority}
    (sequential : priority.incremental = false) (schedulable : priority.Schedulable) :
    (({ q with heap := q.heap ++ [Element.mk priority id] }.addIndex id ⟨false, q.heap.length⟩).heapifyUp
      q.heap.length).Wf := by
  have freshHeap : id ∉ q.heap.map (·.identifier) := fun member => fresh (.inl member)
  have freshRoundRobins : ∀ v, id ∉ (q.roundRobins v).list := fun v member => fresh (.inr ⟨v, member⟩)
  set pushed := { q with heap := q.heap ++ [Element.mk priority id] }.addIndex id ⟨false, q.heap.length⟩
    with pushed_def
  have heap : pushed.heap = q.heap ++ [Element.mk priority id] := by
    rw [pushed_def, addIndex_eq]
  have ids : pushed.heap.map (·.identifier) = q.heap.map (·.identifier) ++ [id] := by
    rw [heap, List.map_append]
    rfl
  have indexMap : pushed.indexMap =
      if q.useIndexMapForSequential then Function.update q.indexMap id (some (heapEntry q.heap.length))
      else q.indexMap := by
    rw [pushed_def, addIndex_eq]
    cases q.useIndexMapForSequential <;> rfl
  have flag : pushed.useIndexMapForSequential = q.useIndexMapForSequential := by
    rw [pushed_def, addIndex_eq]
  have pushedSequential : AllSequential pushed.heap := by
    intro e member
    rw [heap, List.mem_append, List.mem_singleton] at member
    rcases member with old | rfl
    · exact wf.heap.sequential e old
    · exact sequential
  have pushedSchedulable : ∀ e ∈ pushed.heap, e.priority.Schedulable := by
    intro e member
    rw [heap, List.mem_append, List.mem_singleton] at member
    rcases member with old | rfl
    · exact wf.heap.schedulable e old
    · exact schedulable
  have pushedNodup : (pushed.heap.map (·.identifier)).Nodup := by
    rw [ids, List.nodup_append]
    exact ⟨wf.heap.nodup, List.nodup_singleton id, fun x old y new same => by
      rw [List.mem_singleton] at new
      exact freshHeap (new ▸ same ▸ old)⟩
  have pushedIndexed : HeapIndexed pushed := by
    constructor
    · intro enabled
      rw [flag] at enabled
      rw [indexMap, if_pos enabled, ids]
      have tracks := (wf.heap.indexed.1 enabled).push heapEntry_injective freshHeap
      rwa [List.length_map] at tracks
    · intro disabled
      rw [flag] at disabled
      rw [indexMap, if_neg (by simpa using disabled)]
      exact wf.heap.indexed.2 disabled
  have ready : UpReady key pushed.heap q.heap.length := by
    rw [heap]
    exact wf.heap.ordered.push _
  have sifted := heapifyUp_sifted pushed q.heap.length
  obtain ⟨siftedHeap, siftedMap, same⟩ := sifted.frame
  refine wf.of_heap_change ⟨siftedHeap, siftedMap, q.useIndexMapForSequential, ?_⟩
    (sifted.heapWf pushedSequential pushedSchedulable pushedNodup pushedIndexed
      (heapifyUp_ordered pushedSequential ready))
    (fun x v inHeap member => ?_) (fun x v member => ?_) (fun x n entry => ?_)
  · rw [same, pushed_def, addIndex_eq]
  · -- the sift only permutes the heap, whose identifiers are the old ones and the new one
    rw [((sifted.perm.map _).mem_iff), ids, List.mem_append, List.mem_singleton] at inHeap
    rcases inHeap with old | rfl
    · exact wf.apart x v old member
    · exact freshRoundRobins v member
  · have other : x ≠ id := fun same => freshRoundRobins v (same ▸ member)
    have outside : x ∉ pushed.heap.map (·.identifier) := by
      rw [ids, List.mem_append, List.mem_singleton, not_or]
      exact ⟨fun inHeap => wf.apart x v inHeap member, other⟩
    rw [sifted.outside x outside, indexMap]
    split
    · rw [Function.update_of_ne other]
    · rfl
  · have before := sifted.incremental_entry entry
    rw [indexMap] at before
    split at before
    · by_cases same : x = id
      · subst same
        rw [Function.update_self] at before
        cases before
      · rwa [Function.update_of_ne same] at before
    · exact before

theorem insert_incremental (q : HTTPPriorityQueue) (id : Identifier) {priority : Priority}
    (incremental : priority.incremental = true) :
    q.insert id priority =
      { q.prepareIndex with
        roundRobins := Function.update q.prepareIndex.roundRobins priority.urgency
          ((q.prepareIndex.roundRobins priority.urgency).insert id)
        roundRobinElements := q.prepareIndex.roundRobinElements + 1
        indexMap := Function.update q.prepareIndex.indexMap id (some ⟨true, priority.urgency.val⟩)
        lowestRoundRobin :=
          if priority.urgency.val < q.prepareIndex.lowestRoundRobin then priority.urgency.val
          else q.prepareIndex.lowestRoundRobin } := by
  unfold insert
  rw [← prepareIndex]
  simp only [incremental, if_true, setRoundRobin, roundRobinAt, Fin.ofNat_val_eq_self, addIndex_eq,
    Bool.or_true]
  split <;> rfl

theorem insert_sequential (q : HTTPPriorityQueue) (id : Identifier) {priority : Priority}
    (sequential : priority.incremental = false) :
    q.insert id priority =
      ({ q.prepareIndex with heap := q.prepareIndex.heap ++ [Element.mk priority id] }.addIndex id
          ⟨false, q.prepareIndex.heap.length⟩).heapifyUp q.prepareIndex.heap.length := by
  unfold insert
  rw [← prepareIndex]
  simp only [sequential, Bool.false_eq_true, if_false, List.length_append, List.length_singleton,
    Nat.add_sub_cancel]

theorem Wf.insert (wf : q.Wf) (fresh : ¬ q.Present id) {priority : Priority}
    (schedulable : priority.Schedulable) : (q.insert id priority).Wf := by
  have prepared := wf.prepareIndex
  have freshPrepared : ¬ q.prepareIndex.Present id := fun present => fresh present.of_prepareIndex
  cases incremental : priority.incremental
  · rw [insert_sequential q id incremental]
    exact prepared.push freshPrepared incremental schedulable
  · rw [insert_incremental q id incremental]
    exact prepared.insertRoundRobin freshPrepared priority.urgency


/-! ## Erasure -/

/-- The queue of `eraseImpl` once the last element `last` filled the hole at `k`, with its entry,
before the sift. -/
def fillHole (q : HTTPPriorityQueue) (k : Nat) (last : Element) : HTTPPriorityQueue :=
  { q with
    heap := (q.heap.swap k (q.heap.length - 1)).dropLast
    indexMap :=
      if q.useIndexMapForSequential then Function.update q.indexMap last.identifier (some (heapEntry k))
      else q.indexMap }

/-- The sequential branch of `eraseImpl`: the last element fills the hole at `k` and goes up or
down from there. -/
theorem eraseImpl_sequential (q : HTTPPriorityQueue) (id : Identifier) {k : Nat}
    (inside : k < q.heap.length) :
    q.eraseImpl id ⟨false, k⟩ =
      let filled := q.fillHole k q.heap[q.heap.length - 1]
      if k ≠ q.heap.length - 1 then
        if k > 0 && lessAt filled.heap k ((k - 1) / 2) then filled.heapifyUp k
        else filled.heapifyDown k
      else filled := by
  unfold eraseImpl
  dsimp only
  rw [List.getElem?_eq_getElem (by omega)]
  simp only [Bool.false_eq_true, if_false, assignIndex, addIndex_eq, Bool.or_false]
  rfl

/-- The queue without `id`'s entry in the index map, as `removeIndex` leaves it where it erases. -/
def clearEntry (q : HTTPPriorityQueue) (id : Identifier) : HTTPPriorityQueue :=
  { q with indexMap := Function.update q.indexMap id none }

@[simp] theorem clearEntry_heap : (q.clearEntry id).heap = q.heap := rfl

@[simp] theorem clearEntry_useIndexMapForSequential :
    (q.clearEntry id).useIndexMapForSequential = q.useIndexMapForSequential := rfl

theorem clearEntry_indexMap : (q.clearEntry id).indexMap = Function.update q.indexMap id none := rfl

/-- The sifts move heap entries only, so they commute with clearing an entry outside the heap. -/
theorem heapifyUp_clearEntry (absent : id ∉ q.heap.map (·.identifier)) (k : Nat) :
    (q.clearEntry id).heapifyUp k = (q.heapifyUp k).clearEntry id :=
  heapifyUpLoop_update_outside k q k none absent

theorem heapifyDown_clearEntry (absent : id ∉ q.heap.map (·.identifier)) (k : Nat) :
    (q.clearEntry id).heapifyDown k = (q.heapifyDown k).clearEntry id :=
  heapifyDownLoop_update_outside q.heap.length q k none absent

/-- What `eraseImpl` does for an identifier of the queue: only the heap, the index map and the
round robins with their bookkeeping change; without the identifier's entry the queue is `Wf`; the
identifier is gone and the others are held as before; and its entry is left for `removeIndex`. -/
structure Erased (q r : HTTPPriorityQueue) (id : Identifier) : Prop where
  frame : ∃ heap indexMap roundRobins elements lowest,
    r = { q with heap, indexMap, roundRobins, roundRobinElements := elements, lowestRoundRobin := lowest }
  wf : (r.clearEntry id).Wf
  holds : ∀ x priority, r.Holds x priority ↔ q.Holds x priority ∧ x ≠ id
  entry : r.indexMap id = q.indexMap id

theorem fillHole_perm {k : Nat} (inside : k < q.heap.length) :
    ((q.fillHole k q.heap[q.heap.length - 1]).heap ++ [q.heap[k]]).Perm q.heap :=
  dropLast_swap_last_perm inside

section FillHole

variable {k : Nat} (wf : q.Wf) (inside : k < q.heap.length)
include wf inside

theorem fillHole_nodup_append :
    ((q.fillHole k q.heap[q.heap.length - 1]).heap.map (·.identifier) ++ [q.heap[k].identifier]).Nodup := by
  have := (((fillHole_perm inside).map (·.identifier)).nodup_iff).mpr wf.heap.nodup
  rwa [List.map_append] at this

theorem fillHole_absent :
    q.heap[k].identifier ∉ (q.fillHole k q.heap[q.heap.length - 1]).heap.map (·.identifier) := by
  have disjoint := (List.nodup_append.mp (fillHole_nodup_append wf inside)).2.2
  exact fun member => disjoint _ member _ (List.mem_singleton_self _) rfl

theorem mem_fillHole {e : Element} :
    e ∈ (q.fillHole k q.heap[q.heap.length - 1]).heap ↔
      e ∈ q.heap ∧ e.identifier ≠ q.heap[k].identifier := by
  have perm := fillHole_perm inside
  constructor
  · intro kept
    refine ⟨perm.subset (List.mem_append_left _ kept), fun same => fillHole_absent wf inside ?_⟩
    rw [← same]
    exact List.mem_map_of_mem kept
  · rintro ⟨member, other⟩
    rcases List.mem_append.mp (perm.mem_iff.mpr member) with kept | hole
    · exact kept
    · rw [List.mem_singleton] at hole
      exact absurd (congrArg Element.identifier hole) other

/-- Without the erased identifier's entry, the filled queue's index map tracks its heap. -/
theorem fillHole_indexed :
    HeapIndexed ((q.fillHole k q.heap[q.heap.length - 1]).clearEntry q.heap[k].identifier) := by
  constructor
  · intro enabled
    simp only [clearEntry_useIndexMapForSequential, fillHole] at enabled
    have tracks := (wf.heap.indexed.1 enabled).eraseAt heapEntry_injective wf.heap.nodup
      (k := k) (by simpa using inside)
    simp only [List.length_map, List.getElem_map, ← map_swap, ← List.map_dropLast] at tracks
    rw [clearEntry_indexMap, clearEntry_heap]
    simp only [fillHole, enabled, if_true]
    exact tracks
  · intro disabled x i
    simp only [clearEntry_useIndexMapForSequential, fillHole] at disabled
    rw [clearEntry_indexMap]
    simp only [fillHole, disabled, Bool.false_eq_true, if_false]
    by_cases same : x = q.heap[k].identifier
    · subst same
      rw [Function.update_self]
      exact Option.some_ne_none _ |>.symm
    · rw [Function.update_of_ne same]
      exact wf.heap.indexed.2 disabled x i

/-- The entry the filled queue keeps for the erased identifier is its old one. -/
theorem fillHole_entry :
    (q.fillHole k q.heap[q.heap.length - 1]).indexMap q.heap[k].identifier = q.indexMap q.heap[k].identifier := by
  simp only [fillHole]
  split
  · rename_i enabled
    by_cases last : q.heap[k].identifier = q.heap[q.heap.length - 1].identifier
    · -- the erased element was the last one, and its entry was its position already
      rw [last, Function.update_self, ← last]
      exact ((wf.heap.indexed.1 enabled) _ k).mpr ⟨by simpa using inside, by simp⟩ |>.symm
    · rw [Function.update_of_ne last]
  · rfl

/-- Any sift of the filled queue that leaves its heap in order is an erasure. -/
theorem erased_of_sift {r : HTTPPriorityQueue} (sifted : Sifted (q.fillHole k q.heap[q.heap.length - 1]) r)
    (removed : Sifted ((q.fillHole k q.heap[q.heap.length - 1]).clearEntry q.heap[k].identifier)
      (r.clearEntry q.heap[k].identifier))
    (ordered : Ordered key r.heap) : Erased q r q.heap[k].identifier := by
  have absent := fillHole_absent wf inside
  have nodup := (List.nodup_append.mp (fillHole_nodup_append wf inside)).1
  have heapWf : HeapWf (r.clearEntry q.heap[k].identifier) :=
    removed.heapWf (fun e member => wf.heap.sequential e ((mem_fillHole wf inside).mp member).1)
      (fun e member => wf.heap.schedulable e ((mem_fillHole wf inside).mp member).1) nodup
      (fillHole_indexed wf inside) ordered
  have members : ∀ e, e ∈ r.heap ↔ e ∈ q.heap ∧ e.identifier ≠ q.heap[k].identifier := fun e => by
    rw [sifted.perm.mem_iff, mem_fillHole wf inside]
  have erasedInHeap : q.heap[k].identifier ∈ q.heap.map (·.identifier) :=
    List.mem_map_of_mem (List.getElem_mem inside)
  -- an entry the filled queue did not write is an old one
  have oldEntry : ∀ x, x ≠ q.heap[k].identifier → x ∉ q.heap.map (·.identifier) →
      ((q.fillHole k q.heap[q.heap.length - 1]).clearEntry q.heap[k].identifier).indexMap x = q.indexMap x := by
    intro x other outside
    have notLast : x ≠ q.heap[q.heap.length - 1].identifier :=
      fun same => outside (same ▸ List.mem_map_of_mem (List.getElem_mem (by omega)))
    rw [clearEntry_indexMap, Function.update_of_ne other]
    simp only [fillHole]
    split
    · rw [Function.update_of_ne notLast]
    · rfl
  obtain ⟨heap, indexMap, same⟩ := sifted.frame
  refine ⟨⟨heap, indexMap, q.roundRobins, q.roundRobinElements, q.lowestRoundRobin, by rw [same]; rfl⟩,
    ?wf, fun x priority => ?holds, ?entry⟩
  case wf =>
    refine wf.of_heap_change ⟨heap, Function.update indexMap q.heap[k].identifier none,
      q.useIndexMapForSequential, by rw [same]; rfl⟩ heapWf (fun x u inHeap => ?_)
      (fun x u member => ?_) (fun x n entry => ?_)
    · obtain ⟨e, member, rfl⟩ := List.mem_map.mp inHeap
      exact wf.apart _ u (List.mem_map_of_mem ((members e).mp member).1)
    · have outside : x ∉ q.heap.map (·.identifier) := fun inHeap => wf.apart x u inHeap member
      have other : x ≠ q.heap[k].identifier := fun same => outside (same ▸ erasedInHeap)
      rw [removed.outside x (fun inFilled => outside ?_), oldEntry x other outside]
      obtain ⟨e, filled, rfl⟩ := List.mem_map.mp inFilled
      exact List.mem_map_of_mem ((mem_fillHole wf inside).mp filled).1
    · have before := removed.incremental_entry entry
      rw [clearEntry_indexMap] at before
      by_cases other : x = q.heap[k].identifier
      · rw [other, Function.update_self] at before
        cases before
      · rw [Function.update_of_ne other] at before
        simp only [fillHole] at before
        split at before
        · by_cases last : x = q.heap[q.heap.length - 1].identifier
          · rw [last, Function.update_self] at before
            cases before
          · rwa [Function.update_of_ne last] at before
        · exact before
  case holds =>
    have roundRobins : r.roundRobins = q.roundRobins := by rw [same]; rfl
    unfold Holds
    rw [roundRobins]
    constructor
    · rintro (⟨e, member, located, rfl⟩ | ⟨u, member, rfl⟩)
      · have kept := (members e).mp member
        exact ⟨.inl ⟨e, kept.1, located, rfl⟩, located ▸ kept.2⟩
      · refine ⟨.inr ⟨u, member, rfl⟩, fun same => ?_⟩
        exact wf.apart x u (same ▸ erasedInHeap) member
    · rintro ⟨⟨e, member, located, rfl⟩ | ⟨u, member, rfl⟩, other⟩
      · exact .inl ⟨e, (members e).mpr ⟨member, located ▸ other⟩, located, rfl⟩
      · exact .inr ⟨u, member, rfl⟩
  case entry =>
    rw [sifted.outside _ absent, fillHole_entry wf inside]

end FillHole

/-- The sequential branch of `eraseImpl` is an erasure: the moved element goes up when it is
before its new parent, and down otherwise. -/
theorem Wf.eraseHeap (wf : q.Wf) {k : Nat} (inside : k < q.heap.length) :
    Erased q (q.eraseImpl q.heap[k].identifier ⟨false, k⟩) q.heap[k].identifier := by
  have absent := fillHole_absent wf inside
  have sequential : AllSequential (q.fillHole k q.heap[q.heap.length - 1]).heap :=
    fun e member => wf.heap.sequential e ((mem_fillHole wf inside).mp member).1
  rw [eraseImpl_sequential q _ inside]
  dsimp only
  split
  · rename_i notLast
    have shorter : k < q.heap.dropLast.length := by
      rw [List.length_dropLast]
      omega
    -- the filled heap is the heap without its last element, with that element written at `k`
    have filledHeap : (q.fillHole k q.heap[q.heap.length - 1]).heap =
        q.heap.dropLast.set k q.heap[q.heap.length - 1] :=
      dropLast_swap_last (by omega)
    -- the order between the moved element and its new parent
    have parentKey : 0 < k → (lessAt (q.fillHole k q.heap[q.heap.length - 1]).heap k ((k - 1) / 2) = true ↔
        key q.heap[q.heap.length - 1] < key q.heap[(k - 1) / 2]) := by
      intro pos
      have parentInside : (k - 1) / 2 < (q.fillHole k q.heap[q.heap.length - 1]).heap.length := by
        rw [filledHeap, List.length_set]
        omega
      rw [lessAt_eq_true_iff sequential parentInside]
      simp only [filledHeap, List.getElem_set, List.getElem_dropLast, if_true,
        if_neg (show k ≠ (k - 1) / 2 by omega)]
      exact ⟨fun ⟨_, before⟩ => before, fun before => ⟨by simpa using shorter, before⟩⟩
    split
    · rename_i up
      rw [Bool.and_eq_true, decide_eq_true_eq] at up
      have before := (parentKey up.1).mp up.2
      refine erased_of_sift wf inside (heapifyUp_sifted _ k) ?_ ?_
      · rw [← heapifyUp_clearEntry absent]
        exact heapifyUp_sifted _ k
      · apply heapifyUp_ordered sequential
        rw [filledHeap]
        apply wf.heap.ordered.dropLast.set_up shorter
        -- before its new parent, so before the element it replaced
        rw [List.getElem_dropLast]
        exact (lt_of_lt_of_le before (wf.heap.ordered.parent_le inside up.1 rfl (by omega))).le
    · rename_i down
      rw [Bool.and_eq_true, decide_eq_true_eq] at down
      refine erased_of_sift wf inside (heapifyDown_sifted _ k) ?_ ?_
      · rw [← heapifyDown_clearEntry absent]
        exact heapifyDown_sifted _ k
      · apply heapifyDown_ordered sequential
        rw [filledHeap]
        apply wf.heap.ordered.dropLast.set_down shorter
        intro pos
        rw [List.getElem_dropLast]
        exact not_lt.mp fun before => down ⟨pos, (parentKey pos).mpr before⟩
  · -- the erased element was the last one
    rename_i last
    have filledHeap : (q.fillHole k q.heap[q.heap.length - 1]).heap = q.heap.dropLast := by
      show (q.heap.swap k (q.heap.length - 1)).dropLast = q.heap.dropLast
      rw [← not_not.mp last, List.swap_self]
    refine erased_of_sift wf inside (Sifted.refl _) (Sifted.refl _) ?_
    rw [filledHeap]
    exact wf.heap.ordered.dropLast



/-- The incremental branch of `eraseImpl`: the identifier leaves its round robin, and the lowest
urgency moves up past the round robins left empty. -/
theorem eraseImpl_incremental (q : HTTPPriorityQueue) (id : Identifier) (u : Fin 8) :
    q.eraseImpl id ⟨true, u.val⟩ =
      { q with
        roundRobins := Function.update q.roundRobins u ((q.roundRobins u).erase id).1
        roundRobinElements := q.roundRobinElements - 1
        lowestRoundRobin :=
          if u.val = q.lowestRoundRobin ∧ ((q.roundRobins u).erase id).1.empty = true then
            skipEmptyRoundRobins (Function.update q.roundRobins u ((q.roundRobins u).erase id).1) 8
              q.lowestRoundRobin
          else q.lowestRoundRobin } := by
  unfold eraseImpl
  simp only [if_true, setRoundRobin, roundRobinAt, Fin.ofNat_val_eq_self, Bool.and_eq_true,
    decide_eq_true_eq]
  split <;> rfl

/-- The incremental branch of `eraseImpl` is an erasure. -/
theorem Wf.eraseRoundRobin (wf : q.Wf) {u : Fin 8} (present : id ∈ (q.roundRobins u).list) :
    Erased q (q.eraseImpl id ⟨true, u.val⟩) id := by
  have members := wf.roundRobins.mem_update_erase present
  have notInHeap : id ∉ q.heap.map (·.identifier) := fun inHeap => wf.apart id u inHeap present
  rw [eraseImpl_incremental]
  refine ⟨⟨_, _, _, _, _, rfl⟩, ⟨⟨wf.heap.sequential, wf.heap.schedulable, wf.heap.ordered, wf.heap.nodup,
      fun enabled => (wf.heap.indexed.1 enabled).update_absent notInHeap
        (fun _ => (Option.some_ne_none _).symm),
      fun disabled x i => ?_⟩, wf.roundRobins.erase present, fun x v inHeap member => ?_,
      fun x n => ?_, wf.erasedSchedulable⟩, fun x priority => ?_, rfl⟩
  · dsimp only [clearEntry]
    by_cases same : x = id
    · rw [same, Function.update_self]
      exact (Option.some_ne_none _).symm
    · rw [Function.update_of_ne same]
      exact wf.heap.indexed.2 disabled x i
  · exact wf.apart x v inHeap ((members v x).mp member).1
  · dsimp only [clearEntry]
    simp only [members]
    by_cases same : x = id
    · rw [same, Function.update_self]
      simp
    · rw [Function.update_of_ne same, wf.roundRobinIndexed x n]
      simp [same]
  · unfold Holds
    simp only [members]
    constructor
    · rintro (⟨e, member, located, rfl⟩ | ⟨v, ⟨member, other⟩, rfl⟩)
      · refine ⟨.inl ⟨e, member, located, rfl⟩, fun same => notInHeap ?_⟩
        rw [← same, ← located]
        exact List.mem_map_of_mem member
      · exact ⟨.inr ⟨v, member, rfl⟩, other⟩
    · rintro ⟨⟨e, member, located, rfl⟩ | ⟨v, member, rfl⟩, other⟩
      · exact .inl ⟨e, member, located, rfl⟩
      · exact .inr ⟨v, ⟨member, other⟩, rfl⟩

/-- The entry `find` returned came from the index map exactly when it says so. -/
theorem find_entry (finding : q.find id = some found) :
    q.indexMap id = if found.indexed then some found.elem else none := by
  unfold find at finding
  split at finding
  · rename_i elem entry
    cases finding
    exact entry
  · rename_i unmapped
    split at finding
    · split at finding
      · cases finding
        exact unmapped
      · cases finding
    · cases finding

/-- `eraseImpl` of what `find` returned is an erasure. -/
theorem Wf.eraseImpl (wf : q.Wf) (finding : q.find id = some found) :
    Erased q (q.eraseImpl id found.elem) id := by
  cases incremental : found.elem.incremental
  · obtain ⟨_, inside, located⟩ := find_sequential wf finding incremental
    have elem : found.elem = ⟨false, found.elem.index⟩ := by rw [← incremental]
    rw [elem, ← located]
    exact wf.eraseHeap inside
  · obtain ⟨_, u, atU, member⟩ := find_incremental wf finding incremental
    have elem : found.elem = ⟨true, u.val⟩ := by rw [← incremental, atU]
    rw [elem]
    exact wf.eraseRoundRobin member

/-- `removeIndex` of what `find` returned clears the erased identifier's entry. -/
theorem Erased.removeIndex {r : HTTPPriorityQueue} (erased : Erased q r id) (wf : q.Wf)
    (finding : q.find id = some found) : r.removeIndex id found.indexed = r.clearEntry id := by
  have entry := erased.entry
  rw [find_entry finding] at entry
  obtain ⟨heap, indexMap, roundRobins, elements, lowest, same⟩ := erased.frame
  have flag : r.useIndexMapForSequential = q.useIndexMapForSequential := by rw [same]
  cases indexed : found.indexed
  · -- the linear search found it, and there is no entry
    rw [indexed, if_neg Bool.false_ne_true] at entry
    unfold HTTPPriorityQueue.removeIndex clearEntry
    rw [if_neg Bool.false_ne_true, ← entry, Function.update_eq_self]
  · rw [indexed, if_pos rfl] at entry
    have removable : (r.useIndexMapForSequential || found.elem.incremental) = true := by
      cases incremental : found.elem.incremental
      · have sameFlag := (find_sequential wf finding incremental).1
        rw [flag, ← sameFlag, indexed, Bool.true_or]
      · rw [Bool.or_true]
    unfold HTTPPriorityQueue.removeIndex
    rw [if_pos rfl, entry]
    dsimp only
    rw [if_pos removable]
    rfl

/-- `destroySequentialIndex` keeps the round robin entries and drops the heap ones. -/
theorem Wf.destroySequentialIndex (wf : q.Wf) : q.destroySequentialIndex.Wf := by
  have kept : ∀ x, (q.destroySequentialIndex.indexMap x = q.indexMap x ∨
      q.destroySequentialIndex.indexMap x = none) ∧
      ∀ elem, q.destroySequentialIndex.indexMap x = some elem → elem.incremental = true := by
    intro x
    unfold HTTPPriorityQueue.destroySequentialIndex
    dsimp only
    split
    · rename_i elem entry
      split
      · exact ⟨.inl entry.symm, fun _ same => by cases same; assumption⟩
      · exact ⟨.inr rfl, fun _ same => by cases same⟩
    · rename_i unmapped
      exact ⟨.inl unmapped.symm, fun _ same => by cases same⟩
  refine wf.of_heap_change ⟨_, _, _, rfl⟩ ⟨wf.heap.sequential, wf.heap.schedulable, wf.heap.ordered,
      wf.heap.nodup, fun enabled => absurd enabled Bool.false_ne_true, fun _ x i placed => ?_⟩ wf.apart
    (fun x u member => ?_) (fun x n entry => ?_)
  · have := (kept x).2 _ placed
    cases this
  · have entry := (wf.roundRobinIndexed x u.val).mpr ⟨u, rfl, member⟩
    rcases (kept x).1 with same | dropped
    · exact same
    · unfold HTTPPriorityQueue.destroySequentialIndex at dropped
      simp [entry] at dropped
  · rcases (kept x).1 with same | dropped
    · rwa [← same]
    · rw [dropped] at entry
      cases entry

/-- Only `erasedSchedulable` reads the transaction's record. -/
theorem Wf.withErased (wf : q.Wf) {erased : List Element}
    (schedulable : ∀ e ∈ erased, e.priority.Schedulable) :
    ({ q with erased } : HTTPPriorityQueue).Wf :=
  ⟨⟨wf.heap.sequential, wf.heap.schedulable, wf.heap.ordered, wf.heap.nodup, wf.heap.indexed⟩,
    wf.roundRobins, wf.apart, wf.roundRobinIndexed, schedulable⟩

/-- A held priority is schedulable. -/
theorem Holds.schedulable (wf : q.Wf) {priority : Priority} (held : q.Holds id priority) :
    priority.Schedulable := by
  rcases held with ⟨e, member, _, rfl⟩ | ⟨u, _, rfl⟩
  · exact wf.heap.schedulable e member
  · exact ⟨rfl, rfl⟩

/-- The queue with the transaction's record of an identifier at the priority it is held at. -/
theorem Wf.record (wf : q.Wf) {priority : Priority} (held : q.Holds id priority) (transaction : Bool) :
    (if transaction then { q with erased := q.erased ++ [Element.mk priority id] } else q).Wf := by
  split
  · apply wf.withErased
    intro e member
    rcases List.mem_append.mp member with old | new
    · exact wf.erasedSchedulable e old
    · rw [List.mem_singleton.mp new]
      exact held.schedulable wf
  · exact wf

theorem find_record (recorded : Identifier) (priority : Priority) (transaction : Bool)
    (x : Identifier) :
    (if transaction then { q with erased := q.erased ++ [Element.mk priority recorded] } else q).find x =
      q.find x := by
  split <;> rfl

/-- What `erase` does: nothing to an identifier the queue does not hold; otherwise, while a
transaction is open it records the identifier at the priority it is held at, then erases it and
clears its entry; and last it drops the heap index once the heap has fewer than 50 elements. -/
theorem erase_cases (wf : q.Wf) (id : Identifier) :
    ∃ r, (r = q ∧ ¬ q.Present id ∨
        ∃ priority r', q.Holds id priority ∧
          Erased (if q.hasOpenTransaction then { q with erased := q.erased ++ [Element.mk priority id] }
            else q) r' id ∧ r = r'.clearEntry id) ∧
      q.erase id =
        if r.useIndexMapForSequential && decide (r.heap.length < kDestroyIndexThreshold) then
          r.destroySequentialIndex
        else r := by
  unfold erase
  cases finding : q.find id with
  | none => exact ⟨q, .inl ⟨rfl, (find_eq_none_iff wf).mp finding⟩, rfl⟩
  | some found =>
    dsimp only
    -- the priority recorded is the one the identifier is held at
    cases incremental : found.elem.incremental
    · obtain ⟨_, inside, located⟩ := find_sequential wf finding incremental
      have held : q.Holds id q.heap[found.elem.index].priority :=
        .inl ⟨_, List.getElem_mem inside, located, rfl⟩
      have recordedWf := wf.record held q.hasOpenTransaction
      have recordedFind :=
        (find_record id q.heap[found.elem.index].priority q.hasOpenTransaction id).trans finding
      have erased := recordedWf.eraseImpl recordedFind
      simp only [Bool.false_eq_true, if_false]
      rw [List.getElem?_eq_getElem inside]
      dsimp only
      exact ⟨_, .inr ⟨_, _, held, erased, erased.removeIndex recordedWf recordedFind⟩, rfl⟩
    · obtain ⟨_, u, atU, member⟩ := find_incremental wf finding incremental
      have held : q.Holds id (Priority.make found.elem.index true 0) := .inr ⟨u, member, by rw [atU]⟩
      have recordedWf := wf.record held q.hasOpenTransaction
      have recordedFind :=
        (find_record id (Priority.make found.elem.index true 0) q.hasOpenTransaction id).trans finding
      have erased := recordedWf.eraseImpl recordedFind
      simp only [if_true]
      exact ⟨_, .inr ⟨_, _, held, erased, erased.removeIndex recordedWf recordedFind⟩, rfl⟩

theorem Holds.present {priority : Priority} (held : q.Holds id priority) : q.Present id := by
  rcases held with ⟨e, member, located, _⟩ | ⟨u, member, _⟩
  · exact .inl (located ▸ List.mem_map_of_mem member)
  · exact .inr ⟨u, member⟩

/-- Dropping the heap index changes no identifier's priority. -/
theorem holds_destroySequentialIndex {priority : Priority} :
    q.destroySequentialIndex.Holds id priority ↔ q.Holds id priority := Iff.rfl

theorem Wf.erase (wf : q.Wf) (id : Identifier) : (q.erase id).Wf := by
  obtain ⟨r, erasure, erased⟩ := erase_cases wf id
  have erasedWf : r.Wf := by
    rcases erasure with ⟨rfl, _⟩ | ⟨_, _, _, erasedBy, rfl⟩
    · exact wf
    · exact erasedBy.wf
  rw [erased]
  split
  · exact erasedWf.destroySequentialIndex
  · exact erasedWf

/-- After `erase` the queue holds what it held, but not the identifier. -/
theorem holds_erase (wf : q.Wf) (id x : Identifier) (priority : Priority) :
    (q.erase id).Holds x priority ↔ q.Holds x priority ∧ x ≠ id := by
  obtain ⟨r, erasure, erased⟩ := erase_cases wf id
  have heldAfter : r.Holds x priority ↔ q.Holds x priority ∧ x ≠ id := by
    rcases erasure with ⟨rfl, absent⟩ | ⟨_, r', _, erasedBy, rfl⟩
    · refine ⟨fun held => ⟨held, ?_⟩, fun held => held.1⟩
      rintro rfl
      exact absent held.present
    · rw [show (r'.clearEntry id).Holds x priority ↔ r'.Holds x priority from Iff.rfl, erasedBy.holds]
      split <;> exact Iff.rfl
  rw [erased]
  split
  · exact holds_destroySequentialIndex.trans heldAfter
  · exact heldAfter

end HTTPPriorityQueue

end Mvfst.Priority
