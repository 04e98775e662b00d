import Mvfst.Priority.HTTPPriorityQueueInvariant

/-!
# What the HTTP priority queue holds

Seen from outside, `HTTPPriorityQueue` is a map from identifiers to priorities: `insertOrUpdate`
writes an identifier's priority (a paused one takes it out), `updateIfExist` does so only for an
identifier already there, `erase` takes one out, and `clear` empties the map. A round robin keeps
only the urgency of an incremental priority, so the map holds `Priority.heldAs` of what was
written.

`HoldsUpdated q q' id held` says `q'` holds what `q` holds, but `id` at `held`; each operation's
lemma gives it together with `Wf` of the result.
-/

namespace Mvfst.Priority

set_option linter.dupNamespace false

namespace HTTPPriorityQueue

open BinaryHeap

namespace Priority

/-- The priority the queue holds an identifier at once written at `priority`: a round robin keeps
only the urgency. -/
def heldAs (priority : Priority) : Priority :=
  if priority.incremental then make priority.urgency.val true 0 else priority

/-- The fields of a priority are read back from its number. -/
theorem toUint64Static_inj {a b : Priority} (same : a.toUint64Static = b.toUint64Static) :
    a.urgency = b.urgency ∧ a.paused = b.paused ∧ a.incremental = b.incremental ∧ a.order = b.order := by
  have numbers := congrArg UInt64.toNat same
  rw [toUint64Static_toNat, toUint64Static_toNat] at numbers
  have := a.order.toNat_lt
  have := b.order.toNat_lt
  have := Bool.toNat_le a.paused
  have := Bool.toNat_le b.paused
  have := Bool.toNat_le a.incremental
  have := Bool.toNat_le b.incremental
  have bool_eq : ∀ x y : Bool, x.toNat = y.toNat → x = y := by decide
  -- the order sits below bit 59, the other fields above it
  have orders : a.order.toNat = b.order.toNat := by omega
  have tops : 4 * a.urgency.val + 2 * a.paused.toNat + a.incremental.toNat =
      4 * b.urgency.val + 2 * b.paused.toNat + b.incremental.toNat := by omega
  exact ⟨Fin.ext (by omega), bool_eq _ _ (by omega), bool_eq _ _ (by omega), UInt32.toNat_inj.mp orders⟩

/-- Two set priorities with one number are one priority. -/
theorem toUint64_inj {a b : Priority} (aSet : a.uninitialized = false) (bSet : b.uninitialized = false)
    (same : a.toUint64 = b.toUint64) : a = b := by
  rw [toUint64, toUint64, if_neg (by simp [aSet]), if_neg (by simp [bSet])] at same
  obtain ⟨urgency, paused, incremental, order⟩ := toUint64Static_inj same
  cases a
  cases b
  simp only at urgency paused incremental order aSet bSet
  subst urgency paused incremental order aSet bSet
  rfl

/-- `Priority(basePriority)` is always set. -/
theorem ofBase_uninitialized (basePriority : Priority) : (ofBase basePriority).uninitialized = false := by
  unfold ofBase
  split
  · rfl
  · rename_i unset
    simpa using unset

end Priority

variable {q q' q'' : HTTPPriorityQueue} {id : Identifier} {found : FindResult}

/-- `q'` holds what `q` holds, but holds `id` at `held` (not at all when `held` is `none`). -/
def HoldsUpdated (q q' : HTTPPriorityQueue) (id : Identifier) (held : Option Priority) : Prop :=
  ∀ x priority, q'.Holds x priority ↔ if x = id then held = some priority else q.Holds x priority

theorem HoldsUpdated.trans {first second : Option Priority} (before : HoldsUpdated q q' id first)
    (after : HoldsUpdated q' q'' id second) : HoldsUpdated q q'' id second := by
  intro x priority
  rw [after x priority]
  split
  · rfl
  · rw [before x priority, if_neg ‹_›]

theorem present_iff_holds : q.Present id ↔ ∃ priority, q.Holds id priority := by
  constructor
  · rintro (inHeap | ⟨u, member⟩)
    · obtain ⟨e, member, located⟩ := List.mem_map.mp inHeap
      exact ⟨e.priority, .inl ⟨e, member, located, rfl⟩⟩
    · exact ⟨_, .inr ⟨u, member, rfl⟩⟩
  · rintro ⟨priority, held⟩
    exact held.present

theorem HoldsUpdated.absent (updated : HoldsUpdated q q' id none) : ¬ q'.Present id := by
  rw [present_iff_holds]
  rintro ⟨priority, held⟩
  rw [updated, if_pos rfl] at held
  cases held

theorem Erased.holdsUpdated {r : HTTPPriorityQueue} (erased : Erased q r id) : HoldsUpdated q r id none := by
  intro x priority
  rw [erased.holds]
  split
  · rename_i same
    exact ⟨fun held => absurd same held.2, fun none => by cases none⟩
  · rename_i other
    exact ⟨fun held => held.1, fun held => ⟨held, other⟩⟩

/-- An identifier is held at one priority at most. -/
theorem Holds.unique (wf : q.Wf) {first second : Priority} (held : q.Holds id first)
    (heldToo : q.Holds id second) : first = second := by
  rcases held with ⟨e, member, located, rfl⟩ | ⟨u, member, rfl⟩ <;>
    rcases heldToo with ⟨e', member', located', rfl⟩ | ⟨v, member', rfl⟩
  · -- two heap elements with one identifier are one element
    have same : e = e' := List.inj_on_of_nodup_map wf.heap.nodup member member' (located.trans located'.symm)
    rw [same]
  · exact absurd member' (wf.apart id v (located ▸ List.mem_map_of_mem member))
  · exact absurd member (wf.apart id u (located' ▸ List.mem_map_of_mem member'))
  · rw [wf.roundRobins.apart id u v member member']

/-- A queue that holds `id` at `priority` is its own update to it. -/
theorem holdsUpdated_self (wf : q.Wf) {priority : Priority} (held : q.Holds id priority) :
    HoldsUpdated q q id (some priority) := by
  intro x other
  split
  · rename_i same
    subst same
    exact ⟨fun heldToo => congrArg some (held.unique wf heldToo), fun same => Option.some.inj same ▸ held⟩
  · exact Iff.rfl

theorem holdsUpdated_absent (absent : ¬ q.Present id) : HoldsUpdated q q id none := by
  intro x other
  split
  · rename_i same
    subst same
    exact ⟨fun held => absurd held.present absent, fun none => by cases none⟩
  · exact Iff.rfl

/-! ## Insertion -/

theorem Sifted.roundRobins (sifted : Sifted q q') : q'.roundRobins = q.roundRobins := by
  obtain ⟨heap, indexMap, rfl⟩ := sifted.frame
  rfl

/-- After `insert` of an identifier it does not hold, the queue holds it at `heldAs`. -/
theorem holds_insert (wf : q.Wf) (fresh : ¬ q.Present id) (priority : Priority) :
    HoldsUpdated q (q.insert id priority) id (some priority.heldAs) := by
  have freshHeap : id ∉ q.heap.map (·.identifier) := fun member => fresh (.inl member)
  have freshRoundRobins : ∀ v, id ∉ (q.roundRobins v).list := fun v member => fresh (.inr ⟨v, member⟩)
  obtain ⟨indexMap, useSeq, prepared⟩ := prepareIndex_frame q
  intro x held
  cases incremental : priority.incremental
  · -- the new element joins the heap, which the sift permutes
    have perm : (q.insert id priority).heap.Perm (q.heap ++ [Element.mk priority id]) := by
      rw [insert_sequential q id incremental]
      refine (heapifyUp_sifted _ _).perm.trans ?_
      rw [addIndex_eq, prepared]
    have roundRobins : (q.insert id priority).roundRobins = q.roundRobins := by
      rw [insert_sequential q id incremental]
      refine (heapifyUp_sifted _ _).roundRobins.trans ?_
      rw [addIndex_eq, prepared]
    have members : ∀ e, e ∈ (q.insert id priority).heap ↔ e ∈ q.heap ∨ e = Element.mk priority id := by
      intro e
      rw [perm.mem_iff, List.mem_append, List.mem_singleton]
    unfold Holds
    simp only [roundRobins, members]
    split
    · rename_i same
      subst same
      have heldAs : priority.heldAs = priority := by rw [Priority.heldAs, incremental, if_neg Bool.false_ne_true]
      rw [heldAs, Option.some.injEq]
      constructor
      · rintro (⟨e, old | rfl, located, rfl⟩ | ⟨v, member, _⟩)
        · exact absurd (located ▸ List.mem_map_of_mem old) freshHeap
        · rfl
        · exact absurd member (freshRoundRobins v)
      · rintro rfl
        exact .inl ⟨_, .inr rfl, rfl, rfl⟩
    · rename_i other
      constructor
      · rintro (⟨e, old | rfl, located, rfl⟩ | inRoundRobin)
        · exact .inl ⟨e, old, located, rfl⟩
        · exact absurd located.symm other
        · exact .inr inRoundRobin
      · rintro (⟨e, old, located, rfl⟩ | inRoundRobin)
        · exact .inl ⟨e, .inl old, located, rfl⟩
        · exact .inr inRoundRobin
  · -- the identifier joins the round robin of its urgency
    rw [insert_incremental q id incremental, prepared]
    have members := mem_update_insert wf.roundRobins.wf priority.urgency
    unfold Holds
    dsimp only
    simp only [members]
    split
    · rename_i same
      subst same
      have heldAs : priority.heldAs = Priority.make priority.urgency.val true 0 := by
        rw [Priority.heldAs, incremental, if_pos rfl]
      rw [heldAs, Option.some.injEq]
      constructor
      · rintro (⟨e, old, located, rfl⟩ | ⟨v, ⟨rfl, -⟩ | old, rfl⟩)
        · exact absurd (located ▸ List.mem_map_of_mem old) freshHeap
        · rfl
        · exact absurd old (freshRoundRobins v)
      · rintro rfl
        exact .inr ⟨_, .inl ⟨rfl, rfl⟩, rfl⟩
    · rename_i other
      constructor
      · rintro (inHeap | ⟨v, ⟨-, same⟩ | old, rfl⟩)
        · exact .inl inHeap
        · exact absurd same other
        · exact .inr ⟨v, old, rfl⟩
      · rintro (inHeap | ⟨v, old, rfl⟩)
        · exact .inl inHeap
        · exact .inr ⟨v, .inr old, rfl⟩

theorem prepareIndex_flag (wf : q.Wf) (enabled : q.useIndexMapForSequential = true) :
    q.prepareIndex.useIndexMapForSequential = true := by
  rw [prepareIndex_eq wf.heap.sequential wf.heap.nodup, if_neg (by simp [enabled])]
  exact enabled

/-- `insert` overwrites an entry left for the identifier, except a sequential insertion without the
heap index, which writes no entry: then there must be none. -/
theorem insert_stale (wf : q.Wf) (fresh : ¬ q.Present id) {priority : Priority} {v : Option IndexMapElem}
    (overwritten : priority.incremental = true ∨ q.useIndexMapForSequential = true ∨ v = none) :
    ({ q with indexMap := Function.update q.indexMap id v } : HTTPPriorityQueue).insert id priority =
      q.insert id priority := by
  have freshHeap : id ∉ q.heap.map (·.identifier) := fun member => fresh (.inl member)
  have prepared := prepareIndex_update_outside wf.heap.sequential wf.heap.nodup freshHeap v
  cases incremental : priority.incremental
  · rw [insert_sequential _ id incremental, insert_sequential q id incremental, prepared]
    congr 1
    rw [addIndex_eq, addIndex_eq]
    dsimp only
    congr 1
    split
    · rw [Function.update_idem]
    · -- without the heap index there is no entry to overwrite, and none was left
      rename_i disabled
      have unindexed : q.useIndexMapForSequential = false := by
        cases enabled : q.useIndexMapForSequential
        · rfl
        · exact absurd (prepareIndex_flag wf enabled) (by simpa using disabled)
      have cleared : v = none := by
        rcases overwritten with incremental' | enabled | cleared
        · rw [incremental] at incremental'
          cases incremental'
        · rw [unindexed] at enabled
          cases enabled
        · exact cleared
      rw [cleared, Function.update_eq_self_iff, prepareIndex_outside wf freshHeap, wf.entry_none fresh]
  · rw [insert_incremental _ id incremental, insert_incremental q id incremental, prepared]
    dsimp only
    rw [Function.update_idem]

/-- The entry left by `eraseImpl` is overwritten by the `insert` after it, or there is none. -/
theorem insert_leftover {r : HTTPPriorityQueue} (wf : (r.clearEntry id).Wf) (absent : ¬ r.Present id)
    {priority : Priority}
    (overwritten : priority.incremental = true ∨ r.useIndexMapForSequential = true ∨ r.indexMap id = none) :
    r.insert id priority = (r.clearEntry id).insert id priority := by
  have restored : ({ r.clearEntry id with
      indexMap := Function.update (r.clearEntry id).indexMap id (r.indexMap id) } : HTTPPriorityQueue) = r := by
    rw [clearEntry_indexMap, Function.update_idem, Function.update_eq_self]
    rfl
  rw [← insert_stale wf absent overwritten, restored]

/-! ## Updates in place -/

/-- Writing `e'` at position `k` of a heap with distinct identifiers: the heap then holds `e'` and the
elements of the other identifiers. -/
theorem mem_set_of_nodup {heap : List Element} (nodup : (heap.map (·.identifier)).Nodup) {k : Nat}
    (inside : k < heap.length) (new e : Element) :
    e ∈ heap.set k new ↔ e = new ∨ (e ∈ heap ∧ e.identifier ≠ heap[k].identifier) := by
  have idsInside : k < (heap.map (·.identifier)).length := by simpa using inside
  constructor
  · intro member
    obtain ⟨i, iInside, found⟩ := List.mem_iff_getElem.mp member
    rw [List.getElem_set] at found
    split at found
    · exact .inl found.symm
    · rename_i other
      rw [List.length_set] at iInside
      refine .inr ⟨found ▸ List.getElem_mem _, fun same => other ?_⟩
      have located := (position_iff_of_nodup nodup idsInside i).mp
        ⟨by simpa using iInside, by simpa [← found] using same⟩
      exact located.symm
  · rintro (rfl | ⟨member, other⟩)
    · exact List.mem_set inside _
    · obtain ⟨i, iInside, rfl⟩ := List.mem_iff_getElem.mp member
      have different : k ≠ i := by
        rintro rfl
        exact other rfl
      have setInside : i < (heap.set k new).length := by simpa using iInside
      rw [← List.getElem_set_ne different setInside]
      exact List.getElem_mem setInside

theorem key_lt_of_toUint64_lt {a b : Element} (lower : a.priority.toUint64 < b.priority.toUint64) :
    key a < key b := by
  rw [key, key, Prod.Lex.toLex_lt_toLex]
  exact .inl (UInt64.lt_iff_toNat_lt.mp lower)

theorem AllSequential.set {heap : List Element} (sequential : AllSequential heap) (k : Nat) (new : Element)
    (newSequential : new.priority.incremental = false) : AllSequential (heap.set k new) := by
  intro e member
  rcases List.mem_or_eq_of_mem_set member with old | rfl
  · exact sequential e old
  · exact newSequential

/-- Any sift of the heap with a new sequential priority at `k` that leaves the heap in order is an
update of that identifier's priority. -/
theorem reprioritized_of_sift (wf : q.Wf) {k : Nat} (inside : k < q.heap.length) {priority : Priority}
    (sequential : priority.incremental = false) (schedulable : priority.Schedulable)
    {r : HTTPPriorityQueue} (sifted : Sifted { q with heap := q.heap.set k { q.heap[k] with priority } } r)
    (ordered : Ordered key r.heap) :
    r.Wf ∧ HoldsUpdated q r q.heap[k].identifier (some priority) := by
  have ids : (q.heap.set k { q.heap[k] with priority }).map (·.identifier) = q.heap.map (·.identifier) := by
    have self := List.set_getElem_self (show k < (q.heap.map (·.identifier)).length by simpa using inside)
    rw [List.getElem_map] at self
    rw [List.map_set]
    exact self
  have members : ∀ e, e ∈ r.heap ↔
      e = { q.heap[k] with priority } ∨ (e ∈ q.heap ∧ e.identifier ≠ q.heap[k].identifier) := by
    intro e
    rw [sifted.perm.mem_iff]
    exact mem_set_of_nodup wf.heap.nodup inside _ _
  have setMembers := mem_set_of_nodup wf.heap.nodup inside { q.heap[k] with priority }
  have heapWf := sifted.heapWf
    (fun e member => by
      rcases (setMembers e).mp member with rfl | ⟨old, _⟩
      · exact sequential
      · exact wf.heap.sequential e old)
    (fun e member => by
      rcases (setMembers e).mp member with rfl | ⟨old, _⟩
      · exact schedulable
      · exact wf.heap.schedulable e old)
    (by rw [ids]; exact wf.heap.nodup)
    ⟨fun enabled => by
      show Tracks heapEntry q.indexMap ((q.heap.set k { q.heap[k] with priority }).map (·.identifier))
      rw [ids]
      exact wf.heap.indexed.1 enabled, wf.heap.indexed.2⟩
    ordered
  obtain ⟨heap, indexMap, same⟩ := sifted.frame
  have roundRobins : r.roundRobins = q.roundRobins := by rw [same]
  have inHeap : ∀ x, x ∈ r.heap.map (·.identifier) ↔ x ∈ q.heap.map (·.identifier) := by
    intro x
    rw [(sifted.perm.map _).mem_iff, ids]
  refine ⟨wf.of_heap_change ⟨heap, indexMap, q.useIndexMapForSequential, by rw [same]⟩ heapWf
    (fun x u member => wf.apart x u ((inHeap x).mp member)) (fun x u member => ?_)
    (fun x n entry => sifted.incremental_entry entry), fun x held => ?_⟩
  · have outside : x ∉ q.heap.map (·.identifier) := fun member' => wf.apart x u member' member
    rw [sifted.outside x (by rw [ids]; exact outside)]
  · unfold Holds
    rw [roundRobins]
    simp only [members]
    split
    · rename_i located
      subst located
      constructor
      · rintro (⟨e, rfl | ⟨_, other⟩, located, rfl⟩ | ⟨u, member, _⟩)
        · rfl
        · exact absurd located other
        · exact absurd member (wf.apart _ u (List.mem_map_of_mem (List.getElem_mem inside)))
      · intro same
        cases same
        exact .inl ⟨_, .inl rfl, rfl, rfl⟩
    · rename_i other
      constructor
      · rintro (⟨e, rfl | ⟨member, _⟩, located, rfl⟩ | inRoundRobin)
        · exact absurd located.symm other
        · exact .inl ⟨e, member, located, rfl⟩
        · exact .inr inRoundRobin
      · rintro (⟨e, member, located, rfl⟩ | inRoundRobin)
        · exact .inl ⟨e, .inr ⟨member, located ▸ other⟩, located, rfl⟩
        · exact .inr inRoundRobin

/-- What `updateInSequential` does when it handles the update itself: nothing when the identifier
stays in its round robin or keeps its number, and otherwise it gives the heap element its new
priority and sifts it up when the number fell, down when it rose. -/
theorem updateInSequential_spec (wf : q.Wf) (finding : q.find id = some found) {priority : Priority}
    (set : priority.uninitialized = false) (handled : q.updateInSequential found.elem priority = some q') :
    priority.paused = false ∧ q'.Wf ∧ HoldsUpdated q q' id (some priority.heldAs) := by
  unfold updateInSequential at handled
  split at handled
  · cases handled
  · rename_i unpaused
    have schedulable : priority.Schedulable := ⟨by simpa using unpaused, set⟩
    refine ⟨schedulable.1, ?_⟩
    split at handled
    · -- an incremental entry or priority: only staying in the same round robin is handled here
      split at handled
      · rename_i both
        rw [Bool.and_eq_true] at both
        split at handled
        · rename_i sameUrgency
          cases handled
          obtain ⟨_, u, atU, member⟩ := find_incremental wf finding both.1
          have heldAs : priority.heldAs = Priority.make u.val true 0 := by
            rw [Priority.heldAs, if_pos both.2, atU, sameUrgency]
          exact ⟨wf, holdsUpdated_self wf (.inr ⟨u, member, heldAs⟩)⟩
        · cases handled
      · cases handled
    · rename_i neither
      rw [Bool.or_eq_true, not_or, Bool.not_eq_true, Bool.not_eq_true] at neither
      obtain ⟨elemSequential, sequential⟩ := neither
      have heldAs : priority.heldAs = priority := by
        rw [Priority.heldAs, sequential, if_neg Bool.false_ne_true]
      obtain ⟨_, inside, located⟩ := find_sequential wf finding elemSequential
      rw [List.getElem?_eq_getElem inside] at handled
      dsimp only at handled
      have oldSet := (wf.heap.schedulable _ (List.getElem_mem inside)).2
      split at handled
      · -- the same number is the same priority
        rename_i sameNumber
        cases handled
        have same := Priority.toUint64_inj oldSet set sameNumber
        exact ⟨wf, holdsUpdated_self wf (.inl ⟨_, List.getElem_mem inside, located, by rw [same, heldAs]⟩)⟩
      · rename_i differs
        have setSequential := wf.heap.sequential.set found.elem.index
          { q.heap[found.elem.index] with priority } sequential
        rw [heldAs, ← located]
        split at handled
        · -- a smaller number goes up
          rename_i lower
          cases handled
          refine reprioritized_of_sift wf inside sequential schedulable (heapifyUp_sifted _ _)
            (heapifyUp_ordered setSequential (wf.heap.ordered.set_up inside ?_))
          exact (key_lt_of_toUint64_lt lower).le
        · -- a larger one goes down
          rename_i notLower
          cases handled
          refine reprioritized_of_sift wf inside sequential schedulable (heapifyDown_sifted _ _)
            (heapifyDown_ordered setSequential (wf.heap.ordered.set_down inside fun pos => ?_))
          have higher : q.heap[found.elem.index].priority.toUint64 < priority.toUint64 := by
            have numbers : q.heap[found.elem.index].priority.toUint64.toNat ≠ priority.toUint64.toNat :=
              fun same => differs (UInt64.toNat_inj.mp same)
            rw [UInt64.lt_iff_toNat_lt] at notLower ⊢
            omega
          exact (wf.heap.ordered.parent_le inside pos rfl (by omega)).trans
            (key_lt_of_toUint64_lt higher).le

/-! ## Writing and updating priorities -/

/-- `insertOrUpdate` writes the identifier's priority: the queue then holds it at `heldAs`, or not at
all when the priority is paused. -/
theorem insertOrUpdate_spec (wf : q.Wf) (id : Identifier) (basePriority : Priority) :
    (q.insertOrUpdate id basePriority).Wf ∧
      HoldsUpdated q (q.insertOrUpdate id basePriority) id
        (if (Priority.ofBase basePriority).paused then none
          else some (Priority.ofBase basePriority).heldAs) := by
  have set := Priority.ofBase_uninitialized basePriority
  -- the last lines, on a queue that no longer holds the identifier
  have unlessPaused : ∀ r : HTTPPriorityQueue, r.Wf → HoldsUpdated q r id none →
      (if !(Priority.ofBase basePriority).paused then r.insert id (Priority.ofBase basePriority) else r).Wf ∧
        HoldsUpdated q
          (if !(Priority.ofBase basePriority).paused then r.insert id (Priority.ofBase basePriority) else r) id
          (if (Priority.ofBase basePriority).paused then none
            else some (Priority.ofBase basePriority).heldAs) := by
    intro r rWf updated
    cases paused : (Priority.ofBase basePriority).paused
    · simp only [Bool.not_false, if_true, Bool.false_eq_true, if_false]
      exact ⟨rWf.insert updated.absent ⟨paused, set⟩, updated.trans (holds_insert rWf updated.absent _)⟩
    · simp only [Bool.not_true, Bool.false_eq_true, if_false, if_true]
      exact ⟨rWf, updated⟩
  unfold insertOrUpdate
  cases finding : q.find id with
  | none => exact unlessPaused q wf (holdsUpdated_absent ((find_eq_none_iff wf).mp finding))
  | some found =>
    dsimp only
    cases handled : q.updateInSequential found.elem (Priority.ofBase basePriority) with
    | some updated =>
      obtain ⟨unpaused, updatedWf, holds⟩ := updateInSequential_spec wf finding set handled
      rw [unpaused, if_neg Bool.false_ne_true]
      exact ⟨updatedWf, holds⟩
    | none =>
      -- moving in or out of a round robin: erase, then insert again
      have erased := wf.eraseImpl finding
      dsimp only
      rw [erased.removeIndex wf finding]
      exact unlessPaused _ erased.wf erased.holdsUpdated

/-- `updateIfExist` leaves a queue that does not hold the identifier as it is. -/
theorem updateIfExist_of_absent (wf : q.Wf) (absent : ¬ q.Present id) (basePriority : Priority) :
    q.updateIfExist id basePriority = q := by
  unfold updateIfExist
  rw [(find_eq_none_iff wf).mpr absent]

/-- `updateIfExist` writes the priority of an identifier the queue holds. -/
theorem updateIfExist_spec (wf : q.Wf) (present : q.Present id) (basePriority : Priority) :
    (q.updateIfExist id basePriority).Wf ∧
      HoldsUpdated q (q.updateIfExist id basePriority) id
        (if (Priority.ofBase basePriority).paused then none
          else some (Priority.ofBase basePriority).heldAs) := by
  have set := Priority.ofBase_uninitialized basePriority
  unfold updateIfExist
  cases finding : q.find id with
  | none => exact absurd present ((find_eq_none_iff wf).mp finding)
  | some found =>
    dsimp only
    cases handled : q.updateInSequential found.elem (Priority.ofBase basePriority) with
    | some updated =>
      obtain ⟨unpaused, updatedWf, holds⟩ := updateInSequential_spec wf finding set handled
      rw [unpaused, if_neg Bool.false_ne_true]
      exact ⟨updatedWf, holds⟩
    | none =>
      have erased := wf.eraseImpl finding
      have absent := erased.holdsUpdated.absent
      dsimp only
      cases paused : (Priority.ofBase basePriority).paused
      · simp only [Bool.false_eq_true, if_false]
        -- the entry `eraseImpl` left is removed, overwritten, or not there
        have inserted : (if found.elem.incremental && !(Priority.ofBase basePriority).incremental &&
            !(q.eraseImpl id found.elem).useIndexMapForSequential then
              (q.eraseImpl id found.elem).removeIndex id found.indexed
            else q.eraseImpl id found.elem).insert id (Priority.ofBase basePriority) =
            ((q.eraseImpl id found.elem).clearEntry id).insert id (Priority.ofBase basePriority) := by
          split
          · rw [erased.removeIndex wf finding]
          · rename_i kept
            apply insert_leftover erased.wf absent
            cases incremental : found.elem.incremental
            · -- a sequential identifier has an entry only while the heap index is on
              have sameFlag := (find_sequential wf finding incremental).1
              obtain ⟨heap, indexMap, roundRobins, elements, lowest, frame⟩ := erased.frame
              rw [erased.entry, find_entry finding, sameFlag, frame]
              cases q.useIndexMapForSequential
              · exact .inr (.inr rfl)
              · exact .inr (.inl rfl)
            · rw [incremental] at kept
              cases newIncremental : (Priority.ofBase basePriority).incremental
              · cases flag : (q.eraseImpl id found.elem).useIndexMapForSequential
                · simp [newIncremental, flag] at kept
                · exact .inr (.inl rfl)
              · exact .inl rfl
        rw [inserted]
        exact ⟨erased.wf.insert absent ⟨paused, set⟩,
          erased.holdsUpdated.trans (holds_insert erased.wf absent _)⟩
      · simp only [if_true]
        rw [erased.removeIndex wf finding]
        exact ⟨erased.wf, erased.holdsUpdated⟩

/-! ## The transaction's record -/

/-- `q'` has the transaction's record of `q`: what every operation but `erase` and the transaction
calls leaves alone. -/
def KeepsTransaction (q q' : HTTPPriorityQueue) : Prop :=
  q'.erased = q.erased ∧ q'.hasOpenTransaction = q.hasOpenTransaction

theorem KeepsTransaction.trans (first : KeepsTransaction q q') (second : KeepsTransaction q' q'') :
    KeepsTransaction q q'' :=
  ⟨second.1.trans first.1, second.2.trans first.2⟩

theorem Sifted.keepsTransaction (sifted : Sifted q q') : KeepsTransaction q q' := by
  obtain ⟨heap, indexMap, rfl⟩ := sifted.frame
  exact ⟨rfl, rfl⟩

theorem insert_keepsTransaction (q : HTTPPriorityQueue) (id : Identifier) (priority : Priority) :
    KeepsTransaction q (q.insert id priority) := by
  obtain ⟨indexMap, useSeq, prepared⟩ := prepareIndex_frame q
  cases incremental : priority.incremental
  · rw [insert_sequential q id incremental]
    have pushed : KeepsTransaction q (({ q.prepareIndex with heap := q.prepareIndex.heap ++
        [Element.mk priority id] } : HTTPPriorityQueue).addIndex id ⟨false, q.prepareIndex.heap.length⟩) := by
      rw [addIndex_eq, prepared]
      exact ⟨rfl, rfl⟩
    exact pushed.trans (heapifyUp_sifted _ _).keepsTransaction
  · rw [insert_incremental q id incremental, prepared]
    exact ⟨rfl, rfl⟩

theorem Erased.keepsTransaction {r : HTTPPriorityQueue} (erased : Erased q r id) :
    KeepsTransaction q (r.clearEntry id) := by
  obtain ⟨heap, indexMap, roundRobins, elements, lowest, rfl⟩ := erased.frame
  exact ⟨rfl, rfl⟩

theorem updateInSequential_keepsTransaction {indexElem : IndexMapElem} {priority : Priority}
    (handled : q.updateInSequential indexElem priority = some q') : KeepsTransaction q q' := by
  have sameHeap : ∀ heap, KeepsTransaction q ({ q with heap } : HTTPPriorityQueue) := fun _ => ⟨rfl, rfl⟩
  unfold updateInSequential at handled
  repeat' split at handled
  all_goals first
    | (cases handled; exact ⟨rfl, rfl⟩)
    | (cases handled; exact (sameHeap _).trans (heapifyUp_sifted _ _).keepsTransaction)
    | (cases handled; exact (sameHeap _).trans (heapifyDown_sifted _ _).keepsTransaction)
    | cases handled

theorem insertOrUpdate_keepsTransaction (wf : q.Wf) (id : Identifier) (basePriority : Priority) :
    KeepsTransaction q (q.insertOrUpdate id basePriority) := by
  have unlessPaused : ∀ r : HTTPPriorityQueue, KeepsTransaction q r →
      KeepsTransaction q (if !(Priority.ofBase basePriority).paused then
        r.insert id (Priority.ofBase basePriority) else r) := by
    intro r kept
    split
    · exact kept.trans (insert_keepsTransaction _ _ _)
    · exact kept
  unfold insertOrUpdate
  cases finding : q.find id with
  | none => exact unlessPaused q ⟨rfl, rfl⟩
  | some found =>
    dsimp only
    cases handled : q.updateInSequential found.elem (Priority.ofBase basePriority) with
    | some updated => exact updateInSequential_keepsTransaction handled
    | none =>
      have erased := wf.eraseImpl finding
      dsimp only
      rw [erased.removeIndex wf finding]
      exact unlessPaused _ erased.keepsTransaction

theorem updateIfExist_keepsTransaction (wf : q.Wf) (id : Identifier) (basePriority : Priority) :
    KeepsTransaction q (q.updateIfExist id basePriority) := by
  unfold updateIfExist
  cases finding : q.find id with
  | none => exact ⟨rfl, rfl⟩
  | some found =>
    dsimp only
    cases handled : q.updateInSequential found.elem (Priority.ofBase basePriority) with
    | some updated => exact updateInSequential_keepsTransaction handled
    | none =>
      have erased := wf.eraseImpl finding
      have kept : KeepsTransaction q (q.eraseImpl id found.elem) := erased.keepsTransaction
      have removed : KeepsTransaction q ((q.eraseImpl id found.elem).removeIndex id found.indexed) := by
        rw [erased.removeIndex wf finding]
        exact erased.keepsTransaction
      dsimp only
      split
      · exact removed
      · split
        · exact removed.trans (insert_keepsTransaction _ _ _)
        · exact kept.trans (insert_keepsTransaction _ _ _)

/-- `erase` records an identifier it takes out, at the priority it was held at, while a transaction
is open. -/
theorem erase_transaction (wf : q.Wf) (id : Identifier) :
    (q.erase id).hasOpenTransaction = q.hasOpenTransaction ∧
      (∀ priority, q.Holds id priority → (q.erase id).erased =
        if q.hasOpenTransaction then q.erased ++ [Element.mk priority id] else q.erased) ∧
      (¬ q.Present id → (q.erase id).erased = q.erased) := by
  obtain ⟨r, erasure, erased⟩ := erase_cases wf id
  have destroyed : KeepsTransaction r (q.erase id) := by
    rw [erased]
    split <;> exact ⟨rfl, rfl⟩
  rcases erasure with ⟨rfl, absent⟩ | ⟨recorded, r', held, erasedBy, rfl⟩
  · exact ⟨destroyed.2, fun _ held => absurd held.present absent, fun _ => destroyed.1⟩
  · have kept := erasedBy.keepsTransaction.trans destroyed
    refine ⟨kept.2.trans (by split <;> rfl), fun priority held' => ?_,
      fun absent => absurd held.present absent⟩
    rw [kept.1, ← held.unique wf held']
    split <;> rfl

/-! ## Clearing -/

theorem clear_spec (wf : q.Wf) : q.clear.Wf ∧ ∀ x priority, ¬ q.clear.Holds x priority := by
  have cleared : ∀ u, (q.clear.roundRobins u).list = [] := fun _ => rfl
  refine ⟨⟨⟨fun e member => by simp [clear] at member, fun e member => by simp [clear] at member,
      ordered_nil, List.nodup_nil, fun enabled => absurd enabled Bool.false_ne_true,
      fun _ x i entry => by cases entry⟩,
    ⟨fun u => RoundRobin.Wf.apply (wf.roundRobins.wf u)
        (show (q.roundRobins u).Admissible .clear from trivial) rfl,
      fun x v w member => by simp [cleared] at member, by simp [clear, RoundRobin.clear], le_refl 8,
      fun u _ => cleared u, fun u same => absurd u.isLt (by simp [clear] at same; omega)⟩,
    fun x u member => by simp [clear] at member, fun x n => ?_, wf.erasedSchedulable⟩,
    fun x priority held => ?_⟩
  · constructor
    · intro entry
      cases entry
    · rintro ⟨u, _, member⟩
      simp [cleared] at member
  · rcases held with ⟨e, member, _⟩ | ⟨u, member, _⟩
    · simp [clear] at member
    · simp [cleared] at member

/-! ## Scheduling -/

/-- Round robins with the same lists keep the invariant and what the queue holds. -/
theorem Wf.same_lists (wf : q.Wf) {roundRobins : Fin 8 → RoundRobin Identifier}
    (roundRobinsWf : ∀ u, (roundRobins u).Wf) (lists : ∀ u, (roundRobins u).list = (q.roundRobins u).list) :
    ({ q with roundRobins } : HTTPPriorityQueue).Wf ∧
      ∀ x priority, ({ q with roundRobins } : HTTPPriorityQueue).Holds x priority ↔ q.Holds x priority := by
  refine ⟨⟨⟨wf.heap.sequential, wf.heap.schedulable, wf.heap.ordered, wf.heap.nodup, wf.heap.indexed⟩,
      wf.roundRobins.same_lists roundRobinsWf lists, fun x u member => ?_, fun x n => ?_,
      wf.erasedSchedulable⟩, fun x priority => ?_⟩
  · show x ∉ (roundRobins u).list
    rw [lists]
    exact wf.apart x u member
  · show q.indexMap x = some ⟨true, n⟩ ↔ ∃ u : Fin 8, u.val = n ∧ x ∈ (roundRobins u).list
    simp only [lists]
    exact wf.roundRobinIndexed x n
  · show (_ ∨ ∃ u : Fin 8, x ∈ (roundRobins u).list ∧ _) ↔ _
    simp only [lists]
    rfl

/-- One round robin replaced by one with the same list. -/
theorem Wf.update_same_list (wf : q.Wf) {u : Fin 8} {rr : RoundRobin Identifier} (rrWf : rr.Wf)
    (sameList : rr.list = (q.roundRobins u).list) :
    ({ q with roundRobins := Function.update q.roundRobins u rr } : HTTPPriorityQueue).Wf ∧
      ∀ x priority, ({ q with roundRobins := Function.update q.roundRobins u rr } : HTTPPriorityQueue).Holds x
        priority ↔ q.Holds x priority := by
  apply wf.same_lists
  · intro v
    by_cases here : v = u
    · subst here
      rw [Function.update_self]
      exact rrWf
    · rw [Function.update_of_ne here]
      exact wf.roundRobins.wf v
  · intro v
    by_cases here : v = u
    · subst here
      rw [Function.update_self, sameList]
    · rw [Function.update_of_ne here]

/-- `top` serves the round robin of the lowest urgency when that urgency is below the first heap
element's, the first heap element otherwise, and fails only on an empty queue. -/
theorem top_cases (wf : q.Wf) :
    (∃ u : Fin 8, u.val = q.lowestRoundRobin ∧ q.top = some none ∧ (q.roundRobins u).list ≠ [] ∧
        ∀ e ∈ q.heap.head?, u.val < e.priority.urgency.val) ∨
      (∃ e, q.heap.head? = some e ∧ q.top = some (some e) ∧
        e.priority.urgency.val ≤ q.lowestRoundRobin) ∨
      (q.top = none ∧ q.heap = [] ∧ q.lowestRoundRobin = 8) := by
  have lowestLe := wf.roundRobins.lowest_le
  -- the lowest round robin, when there is one, is not empty
  have nonempty : ∀ inside : q.lowestRoundRobin < 8,
      (q.roundRobinAt q.lowestRoundRobin).empty = false ∧
        q.roundRobinAt q.lowestRoundRobin = q.roundRobins ⟨q.lowestRoundRobin, inside⟩ := by
    intro inside
    have located : Fin.ofNat 8 q.lowestRoundRobin = ⟨q.lowestRoundRobin, inside⟩ :=
      Fin.ext (Nat.mod_eq_of_lt inside)
    have present := wf.roundRobins.at_lowest ⟨q.lowestRoundRobin, inside⟩ rfl
    rw [roundRobinAt, located, RoundRobin.empty]
    exact ⟨by simpa using present, rfl⟩
  unfold top
  cases head : q.heap.head? with
  | none =>
    dsimp only
    split
    · rename_i serving
      rw [Bool.and_eq_true, decide_eq_true_eq] at serving
      exact .inl ⟨⟨q.lowestRoundRobin, serving.1⟩, rfl, rfl, wf.roundRobins.at_lowest _ rfl,
        fun e member => by cases member⟩
    · rename_i notServing
      refine .inr (.inr ⟨rfl, List.head?_eq_none_iff.mp head, ?_⟩)
      refine Nat.le_antisymm lowestLe (Nat.le_of_not_lt fun inside => notServing ?_)
      rw [(nonempty inside).1]
      simp [inside]
  | some e =>
    dsimp only
    have urgencyInside := e.priority.urgency.isLt
    split
    · rename_i serving
      rw [Bool.and_eq_true, decide_eq_true_eq] at serving
      refine .inl ⟨⟨q.lowestRoundRobin, by omega⟩, rfl, rfl, wf.roundRobins.at_lowest _ rfl,
        fun e' member => ?_⟩
      cases member
      exact serving.1
    · rename_i notServing
      refine .inr (.inl ⟨e, rfl, rfl, Nat.le_of_not_lt fun lower => notServing ?_⟩)
      rw [(nonempty (by omega)).1]
      simp [lower]

/-- The lowest round robin after `getNext` or `consume` on it: the same list. -/
theorem Wf.setLowest (wf : q.Wf) {u : Fin 8} (atLowest : u.val = q.lowestRoundRobin)
    {rr : RoundRobin Identifier} (rrWf : rr.Wf) (sameList : rr.list = (q.roundRobins u).list) :
    (q.setRoundRobin q.lowestRoundRobin rr).Wf ∧
      ∀ x priority, (q.setRoundRobin q.lowestRoundRobin rr).Holds x priority ↔ q.Holds x priority := by
  have located : Fin.ofNat 8 q.lowestRoundRobin = u := by
    rw [← atLowest, Fin.ofNat_val_eq_self]
  unfold setRoundRobin
  rw [located]
  exact wf.update_same_list rrWf sameList

theorem roundRobinAt_lowest {u : Fin 8} (atLowest : u.val = q.lowestRoundRobin) :
    q.roundRobinAt q.lowestRoundRobin = q.roundRobins u := by
  rw [roundRobinAt, ← atLowest, Fin.ofNat_val_eq_self]

/-- `getNextScheduledID` serves the identifier `peekNextScheduledID` shows, and changes no priority. -/
theorem getNextScheduledID_spec (wf : q.Wf) {previousConsumed : Option Nat} {next : Identifier}
    (served : q.getNextScheduledID previousConsumed = some (next, q')) :
    q'.Wf ∧ (∀ x priority, q'.Holds x priority ↔ q.Holds x priority) ∧ KeepsTransaction q q' ∧
      q.peekNextScheduledID = some next := by
  unfold getNextScheduledID at served
  unfold peekNextScheduledID
  rcases top_cases wf with ⟨u, atLowest, serving, -, -⟩ | ⟨e, -, serving, -⟩ | ⟨serving, -, -⟩
  · rw [serving] at served ⊢
    dsimp only at served ⊢
    obtain ⟨⟨id, rr⟩, got, produced⟩ := Option.map_eq_some_iff.mp served
    obtain ⟨rfl, rfl⟩ := Prod.mk.inj produced
    rw [roundRobinAt_lowest atLowest] at got ⊢
    obtain ⟨rrWf, sameList, -⟩ := (wf.roundRobins.wf u).getNext got
    exact ⟨(wf.setLowest atLowest rrWf sameList).1, (wf.setLowest atLowest rrWf sameList).2, ⟨rfl, rfl⟩,
      RoundRobin.peekNext_of_getNext got⟩
  · rw [serving] at served ⊢
    obtain ⟨rfl, rfl⟩ := Prod.mk.inj (Option.some.inj served)
    exact ⟨wf, fun _ _ => Iff.rfl, ⟨rfl, rfl⟩, rfl⟩
  · rw [serving] at served
    cases served

theorem consume_spec (wf : q.Wf) {consumed : Option Nat} (charged : q.consume consumed = some q') :
    q'.Wf ∧ (∀ x priority, q'.Holds x priority ↔ q.Holds x priority) ∧ KeepsTransaction q q' := by
  unfold consume at charged
  rcases top_cases wf with ⟨u, atLowest, serving, -, -⟩ | ⟨e, -, serving, -⟩ | ⟨serving, -, -⟩
  · rw [serving] at charged
    dsimp only at charged
    obtain ⟨rr, consumedTo, rfl⟩ := Option.map_eq_some_iff.mp charged
    rw [roundRobinAt_lowest atLowest] at consumedTo
    obtain ⟨rrWf, sameList, -⟩ := (wf.roundRobins.wf u).consume consumedTo
    exact ⟨(wf.setLowest atLowest rrWf sameList).1, (wf.setLowest atLowest rrWf sameList).2, ⟨rfl, rfl⟩⟩
  · rw [serving] at charged
    cases charged
    exact ⟨wf, fun _ _ => Iff.rfl, ⟨rfl, rfl⟩⟩
  · rw [serving] at charged
    cases charged

theorem advanceAfterNext_spec (wf : q.Wf) (n : Nat) :
    (q.advanceAfterNext n).Wf ∧ ∀ x priority, (q.advanceAfterNext n).Holds x priority ↔ q.Holds x priority :=
  wf.same_lists (fun u => RoundRobin.Wf.apply (wf.roundRobins.wf u)
    (show (q.roundRobins u).Admissible (.advanceAfterNext n) from trivial) rfl) fun _ => rfl

theorem advanceAfterBytes_spec (wf : q.Wf) (bytes : Nat) :
    (q.advanceAfterBytes bytes).Wf ∧
      ∀ x priority, (q.advanceAfterBytes bytes).Holds x priority ↔ q.Holds x priority :=
  wf.same_lists (fun u => RoundRobin.Wf.apply (wf.roundRobins.wf u)
    (show (q.roundRobins u).Admissible (.advanceAfterBytes bytes) from trivial) rfl) fun _ => rfl

/-! ## Transactions -/

/-- Only `erasedSchedulable` reads the transaction's fields. -/
theorem Wf.transaction (wf : q.Wf) {erased : List Element}
    (schedulable : ∀ e ∈ erased, e.priority.Schedulable) (transaction : Bool) :
    ({ q with erased, hasOpenTransaction := transaction } : HTTPPriorityQueue).Wf :=
  ⟨⟨wf.heap.sequential, wf.heap.schedulable, wf.heap.ordered, wf.heap.nodup, wf.heap.indexed⟩,
    wf.roundRobins, wf.apart, wf.roundRobinIndexed, schedulable⟩

theorem commitTransaction_spec (wf : q.Wf) :
    q.commitTransaction.Wf ∧ ∀ x priority, q.commitTransaction.Holds x priority ↔ q.Holds x priority := by
  unfold commitTransaction
  split
  · exact ⟨wf.transaction (fun e member => by cases member) false, fun _ _ => Iff.rfl⟩
  · exact ⟨wf, fun _ _ => Iff.rfl⟩

/-- What `rollbackTransaction` needs to restore the queue: the identifiers recorded since
`beginTransaction` are distinct, and the queue holds none of them. -/
def RollbackSafe (q : HTTPPriorityQueue) : Prop :=
  q.hasOpenTransaction = true →
    (q.erased.map (·.identifier)).Nodup ∧ ∀ e ∈ q.erased, ¬ q.Present e.identifier

/-- Inserting distinct identifiers the queue does not hold, one after the other. -/
theorem foldl_insert_spec (records : List Element) :
    ∀ q : HTTPPriorityQueue, q.Wf → (records.map (·.identifier)).Nodup →
      (∀ e ∈ records, ¬ q.Present e.identifier) → (∀ e ∈ records, e.priority.Schedulable) →
      (records.foldl (fun q e => q.insert e.identifier e.priority) q).Wf ∧
        ∀ x priority, (records.foldl (fun q e => q.insert e.identifier e.priority) q).Holds x priority ↔
          (∃ e ∈ records, e.identifier = x ∧ e.priority.heldAs = priority) ∨ q.Holds x priority := by
  induction records with
  | nil => exact fun q wf _ _ _ => ⟨wf, fun x priority => by simp⟩
  | cons e rest ih =>
    intro q wf nodup absent schedulable
    rw [List.map_cons, List.nodup_cons] at nodup
    have inserted := holds_insert wf (absent e (List.mem_cons_self ..)) e.priority
    -- the rest is still absent after the first insertion
    have restAbsent : ∀ e' ∈ rest, ¬ (q.insert e.identifier e.priority).Present e'.identifier := by
      intro e' member present
      rw [present_iff_holds] at present
      obtain ⟨priority, held⟩ := present
      have other : e'.identifier ≠ e.identifier := fun same => nodup.1 (by
        rw [← same]
        exact List.mem_map_of_mem member)
      rw [inserted, if_neg other] at held
      exact absent e' (List.mem_cons_of_mem _ member) held.present
    obtain ⟨restWf, restHolds⟩ := ih _ (wf.insert (absent e (List.mem_cons_self ..))
      (schedulable e (List.mem_cons_self ..))) nodup.2 restAbsent
      (fun e' member => schedulable e' (List.mem_cons_of_mem _ member))
    refine ⟨restWf, fun x priority => ?_⟩
    rw [List.foldl_cons, restHolds, inserted]
    constructor
    · rintro (⟨e', member, located, rfl⟩ | held)
      · exact .inl ⟨e', List.mem_cons_of_mem _ member, located, rfl⟩
      · split at held
        · rename_i same
          exact .inl ⟨e, List.mem_cons_self .., same.symm, Option.some.inj held⟩
        · exact .inr held
    · rintro (⟨e', member, located, rfl⟩ | held)
      · rcases List.mem_cons.mp member with rfl | member
        · right
          rw [if_pos located.symm]
        · exact .inl ⟨e', member, located, rfl⟩
      · right
        rw [if_neg]
        · exact held
        · rintro rfl
          exact absent e (List.mem_cons_self ..) held.present

/-- `rollbackTransaction` puts back every identifier erased since `beginTransaction`, at the
priority it was held at, when none of them is back already. -/
theorem rollbackTransaction_spec (wf : q.Wf) (safe : q.RollbackSafe) :
    q.rollbackTransaction.Wf ∧
      ∀ x priority, q.rollbackTransaction.Holds x priority ↔
        (q.hasOpenTransaction = true ∧ ∃ e ∈ q.erased, e.identifier = x ∧ e.priority.heldAs = priority) ∨
          q.Holds x priority := by
  unfold rollbackTransaction
  split
  · rename_i transaction
    obtain ⟨nodup, absent⟩ := safe transaction
    obtain ⟨insertedWf, inserted⟩ := foldl_insert_spec q.erased q wf nodup absent wf.erasedSchedulable
    dsimp only
    refine ⟨insertedWf.transaction (fun e member => by cases member) false, fun x priority => ?_⟩
    exact (inserted x priority).trans (by simp only [transaction, true_and])
  · rename_i closed
    refine ⟨wf, fun x priority => ?_⟩
    simp [closed]

/-- Without `RollbackSafe` the rollback puts back an identifier that is there again: erased and then
inserted again in one transaction, it is twice in the heap after the rollback, and an `erase` leaves
it in the queue. -/
theorem rollback_reinserts_present :
    ∃ q : HTTPPriorityQueue,
      q = (((({} : HTTPPriorityQueue).insertOrUpdate ⟨1⟩ (Priority.make 0 false 0)).beginTransaction.erase
        ⟨1⟩).insertOrUpdate ⟨1⟩ (Priority.make 0 false 0)).rollbackTransaction ∧
      q.heap.map (·.identifier) = [⟨1⟩, ⟨1⟩] ∧ (q.erase ⟨1⟩).contains ⟨1⟩ = true :=
  ⟨_, rfl, by decide⟩

theorem beginTransaction_eq (q : HTTPPriorityQueue) :
    q.beginTransaction = { q.rollbackTransaction with hasOpenTransaction := true } := by
  unfold beginTransaction
  split
  · rfl
  · rename_i closed
    unfold rollbackTransaction
    rw [if_neg closed]

/-- `beginTransaction` first rolls back a transaction that is still open. -/
theorem beginTransaction_spec (wf : q.Wf) (safe : q.RollbackSafe) :
    q.beginTransaction.Wf ∧
      ∀ x priority, q.beginTransaction.Holds x priority ↔ q.rollbackTransaction.Holds x priority := by
  obtain ⟨rolledWf, -⟩ := rollbackTransaction_spec wf safe
  rw [beginTransaction_eq]
  exact ⟨rolledWf.transaction rolledWf.erasedSchedulable true, fun _ _ => Iff.rfl⟩

end HTTPPriorityQueue

end Mvfst.Priority
