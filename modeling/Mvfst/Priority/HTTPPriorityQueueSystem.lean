import Mvfst.Priority.HTTPPriorityQueueRefinement
import Mvfst.Lib.TransitionSystem
import Mvfst.Lib.ListSearch

/-!
# The HTTP priority queue over whole runs

The calls a transport makes on `HTTPPriorityQueue`, as a transition system from the empty queue.
Every reachable queue is `Wf`. Seen through `abstract` (the priority each identifier is held at,
and the transaction's record) each call is one step of `Spec`, a map from identifiers to
priorities with an undo record; so is every run. And the scheduler serves an identifier of least
priority number.

A rollback, also the one `beginTransaction` makes, is admissible when none of the identifiers it
puts back is in the queue again (`RollbackSafe`): `rollback_reinserts_present` shows what it does
otherwise.
-/

namespace Mvfst.Priority

set_option linter.dupNamespace false

namespace HTTPPriorityQueue

/-! ## The calls -/

inductive Op where
  | insertOrUpdate (id : Identifier) (priority : Priority)
  | updateIfExist (id : Identifier) (priority : Priority)
  | erase (id : Identifier)
  | clear
  | getNextScheduledID (previousConsumed : Option Nat)
  | consume (consumed : Option Nat)
  | beginTransaction
  | commitTransaction
  | rollbackTransaction
  | advanceAfterNext (n : Nat)
  | advanceAfterBytes (bytes : Nat)
  deriving DecidableEq, Repr

/-- One call; `none` when it fails its `CHECK` (scheduling from an empty queue). -/
def step (q : HTTPPriorityQueue) : Op → Option HTTPPriorityQueue
  | .insertOrUpdate id priority => some (q.insertOrUpdate id priority)
  | .updateIfExist id priority => some (q.updateIfExist id priority)
  | .erase id => some (q.erase id)
  | .clear => some q.clear
  | .getNextScheduledID previousConsumed => (q.getNextScheduledID previousConsumed).map Prod.snd
  | .consume consumed => q.consume consumed
  | .beginTransaction => some q.beginTransaction
  | .commitTransaction => some q.commitTransaction
  | .rollbackTransaction => some q.rollbackTransaction
  | .advanceAfterNext n => some (q.advanceAfterNext n)
  | .advanceAfterBytes bytes => some (q.advanceAfterBytes bytes)

instance instDecidablePresent (q : HTTPPriorityQueue) (id : Identifier) : Decidable (q.Present id) :=
  inferInstanceAs (Decidable (_ ∨ _))

instance instDecidableRollbackSafe (q : HTTPPriorityQueue) : Decidable q.RollbackSafe :=
  inferInstanceAs (Decidable (_ → _ ∧ _))

/-- The caller's side: a rollback finds none of the identifiers it puts back in the queue. -/
def Admissible (q : HTTPPriorityQueue) : Op → Prop
  | .beginTransaction | .rollbackTransaction => q.RollbackSafe
  | _ => True

instance instDecidableAdmissible (q : HTTPPriorityQueue) : (op : Op) → Decidable (q.Admissible op)
  | .beginTransaction | .rollbackTransaction => inferInstanceAs (Decidable q.RollbackSafe)
  | .insertOrUpdate _ _ | .updateIfExist _ _ | .erase _ | .clear | .getNextScheduledID _ | .consume _
  | .commitTransaction | .advanceAfterNext _ | .advanceAfterBytes _ => isTrue trivial

def Reachable : HTTPPriorityQueue → Prop := TransitionSystem.Reachable (· = {}) Admissible step

variable {q q' : HTTPPriorityQueue} {id : Identifier}

open BinaryHeap

/-! ## Every reachable queue keeps the invariant -/

theorem wf_empty : ({} : HTTPPriorityQueue).Wf :=
  ⟨⟨fun _ member => absurd member List.not_mem_nil, fun _ member => absurd member List.not_mem_nil,
      ordered_nil, List.nodup_nil, fun enabled => absurd enabled Bool.false_ne_true,
      fun _ _ _ entry => by cases entry⟩,
    ⟨fun _ => RoundRobin.wf_empty, fun _ _ _ member => absurd member List.not_mem_nil, by simp, le_refl 8,
      fun _ _ => rfl, fun u (same : u.val = 8) => absurd u.isLt (by omega)⟩,
    fun _ _ member => absurd member List.not_mem_nil,
    fun _ _ => ⟨fun entry => (by cases entry), fun ⟨_, _, member⟩ => absurd member List.not_mem_nil⟩,
    fun _ member => absurd member List.not_mem_nil⟩

/-- Each admissible call keeps the invariant: one operation's lemma per call. -/
theorem Wf.step (wf : q.Wf) {op : Op} (allowed : q.Admissible op) (stepped : q.step op = some q') :
    q'.Wf := by
  cases op with
  | insertOrUpdate id basePriority =>
    cases stepped
    exact (insertOrUpdate_spec wf id basePriority).1
  | updateIfExist id basePriority =>
    cases stepped
    by_cases present : q.Present id
    · exact (updateIfExist_spec wf present basePriority).1
    · rw [updateIfExist_of_absent wf present]
      exact wf
  | erase id =>
    cases stepped
    exact wf.erase id
  | clear =>
    cases stepped
    exact (clear_spec wf).1
  | getNextScheduledID previousConsumed =>
    obtain ⟨⟨next, served⟩, got, rfl⟩ := Option.map_eq_some_iff.mp stepped
    exact (getNextScheduledID_spec wf got).1
  | consume consumed => exact (consume_spec wf stepped).1
  | beginTransaction =>
    cases stepped
    exact (beginTransaction_spec wf allowed).1
  | commitTransaction =>
    cases stepped
    exact (commitTransaction_spec wf).1
  | rollbackTransaction =>
    cases stepped
    exact (rollbackTransaction_spec wf allowed).1
  | advanceAfterNext n =>
    cases stepped
    exact (advanceAfterNext_spec wf n).1
  | advanceAfterBytes bytes =>
    cases stepped
    exact (advanceAfterBytes_spec wf bytes).1

theorem wf_of_reachable (reachable : q.Reachable) : q.Wf :=
  TransitionSystem.Reachable.invariant (fun _ fresh => fresh ▸ wf_empty)
    (fun _ _ _ wf allowed stepped => Wf.step wf allowed stepped) reachable

/-- An identifier written, erased inside a transaction and put back by a second `beginTransaction`. -/
theorem wf_of_reachable_transaction :
    Reachable ((({} : HTTPPriorityQueue).insertOrUpdate ⟨1⟩ (Priority.make 2 false 5)).beginTransaction.erase
      ⟨1⟩).beginTransaction ∧
      ((({} : HTTPPriorityQueue).insertOrUpdate ⟨1⟩ (Priority.make 2 false 5)).beginTransaction.erase
        ⟨1⟩).beginTransaction.Wf :=
  have reachable : Reachable ((({} : HTTPPriorityQueue).insertOrUpdate ⟨1⟩ (Priority.make 2 false 5)).beginTransaction.erase
      ⟨1⟩).beginTransaction :=
    TransitionSystem.reachable_of_run (TransitionSystem.Reachable.init rfl)
      (show TransitionSystem.run Admissible step {}
        [.insertOrUpdate ⟨1⟩ (Priority.make 2 false 5), .beginTransaction, .erase ⟨1⟩, .beginTransaction] = some _
        from rfl)
  ⟨reachable, wf_of_reachable reachable⟩

/-! ## Scheduling -/

/-- `top` fails its `CHECK` exactly on a queue that holds nothing. -/
theorem top_eq_none_iff (wf : q.Wf) : q.top = none ↔ ∀ x priority, ¬ q.Holds x priority := by
  rcases top_cases wf with ⟨u, -, top, nonempty, -⟩ | ⟨e, head, top, -⟩ | ⟨top, empty, lowest⟩
  · obtain ⟨x, member⟩ := List.exists_mem_of_ne_nil _ nonempty
    rw [top]
    exact ⟨fun failed => absurd failed (by simp), fun idle => absurd (.inr ⟨u, member, rfl⟩) (idle x _)⟩
  · rw [top]
    exact ⟨fun failed => absurd failed (by simp),
      fun idle => absurd (.inl ⟨e, List.mem_of_mem_head? head, rfl, rfl⟩) (idle e.identifier e.priority)⟩
  · refine ⟨fun _ => ?_, fun _ => top⟩
    rintro x priority (⟨e, member, -⟩ | ⟨u, member, -⟩)
    · simp [empty] at member
    · rw [wf.roundRobins.below u (by omega)] at member
      simp at member

/-- The scheduling calls fail exactly when `top` does: a round robin that goes first is never
empty. -/
theorem getNextScheduledID_eq_none_iff (wf : q.Wf) (previousConsumed : Option Nat) :
    q.getNextScheduledID previousConsumed = none ↔ q.top = none := by
  rcases top_cases wf with ⟨u, atLowest, top, nonempty, -⟩ | ⟨e, -, top, -⟩ | ⟨top, -, -⟩
  · rw [getNextScheduledID, top, roundRobinAt_lowest atLowest, Option.map_eq_none_iff]
    have served := (wf.roundRobins.wf u).getNext_isSome nonempty previousConsumed
    exact ⟨fun failed => absurd served (by simp [failed]), fun failed => absurd failed (by simp)⟩
  · simp [getNextScheduledID, top]
  · simp [getNextScheduledID, top]

theorem consume_eq_none_iff (wf : q.Wf) (consumed : Option Nat) :
    q.consume consumed = none ↔ q.top = none := by
  rcases top_cases wf with ⟨u, atLowest, top, nonempty, -⟩ | ⟨e, -, top, -⟩ | ⟨top, -, -⟩
  · rw [consume, top, roundRobinAt_lowest atLowest, Option.map_eq_none_iff]
    have charged := (wf.roundRobins.wf u).consume_isSome nonempty consumed
    exact ⟨fun failed => absurd charged (by simp [failed]), fun failed => absurd failed (by simp)⟩
  · simp [consume, top]
  · simp [consume, top]

theorem peekNextScheduledID_eq_none_iff (wf : q.Wf) : q.peekNextScheduledID = none ↔ q.top = none := by
  rcases top_cases wf with ⟨u, atLowest, top, nonempty, -⟩ | ⟨e, -, top, -⟩ | ⟨top, -, -⟩
  · rw [peekNextScheduledID, top, roundRobinAt_lowest atLowest]
    have shown := (wf.roundRobins.wf u).peekNext_isSome nonempty
    exact ⟨fun failed => absurd shown (by simp [failed]), fun failed => absurd failed (by simp)⟩
  · simp [peekNextScheduledID, top]
  · simp [peekNextScheduledID, top]

namespace Priority

/-- A schedulable priority's number: urgency, then sequential before incremental, then order. -/
theorem toNat_toUint64_of_schedulable {priority : Priority} (schedulable : priority.Schedulable) :
    priority.toUint64.toNat =
      2 ^ 59 * (4 * priority.urgency.val + priority.incremental.toNat) + 2 ^ 27 * priority.order.toNat := by
  rw [toUint64, if_neg (by simp [schedulable.2]), toUint64Static_toNat, schedulable.1]
  simp

/-- The priority a round robin holds its identifiers at. -/
theorem toNat_toUint64_make (u : Fin 8) : (make u.val true 0).toUint64.toNat = 2 ^ 59 * (4 * u.val + 1) := by
  rw [toNat_toUint64_of_schedulable ⟨rfl, rfl⟩]
  simp [make]

end Priority

/-- The heap's first element has the least priority number of the heap. -/
theorem HeapWf.head_le (heapWf : q.HeapWf) {e e' : Element} (head : q.heap.head? = some e)
    (member : e' ∈ q.heap) : e.priority.toUint64.toNat ≤ e'.priority.toUint64.toNat := by
  obtain ⟨j, inside, rfl⟩ := List.mem_iff_getElem.mp member
  have nonempty : 0 < q.heap.length := by omega
  have root : q.heap[0] = e := by
    rw [List.head?_eq_getElem?, List.getElem?_eq_getElem nonempty] at head
    exact Option.some.inj head
  have ordered := heapWf.ordered.root_le j inside
  rw [root, key, key, Prod.Lex.toLex_le_toLex] at ordered
  omega

/-- A round robin that goes first comes before every heap element and every other round robin. -/
theorem roundRobin_first_least (wf : q.Wf) {u : Fin 8} (atLowest : u.val = q.lowestRoundRobin)
    (before : ∀ e ∈ q.heap.head?, u.val < e.priority.urgency.val) {x : Identifier} {other : Priority}
    (held : q.Holds x other) : (Priority.make u.val true 0).toUint64.toNat ≤ other.toUint64.toNat := by
  rw [Priority.toNat_toUint64_make]
  rcases held with ⟨e', member, -, rfl⟩ | ⟨v, member, rfl⟩
  · -- a heap element sits at an urgency above the round robin's
    obtain ⟨e, head⟩ := Option.isSome_iff_exists.mp (List.isSome_head?.mpr (List.ne_nil_of_mem member))
    have rootLe := wf.heap.head_le head member
    have above := before e (Option.mem_def.mpr head)
    rw [Priority.toNat_toUint64_of_schedulable (wf.heap.schedulable e (List.mem_of_mem_head? head))]
      at rootLe
    omega
  · -- every round robin below the lowest one is empty
    have atOrAbove : u.val ≤ v.val := by
      by_contra below
      rw [wf.roundRobins.below v (by omega)] at member
      simp at member
    rw [Priority.toNat_toUint64_make]
    omega

/-- A heap element that goes first comes before every other heap element and every round robin. -/
theorem heap_first_least (wf : q.Wf) {e : Element} (head : q.heap.head? = some e)
    (atMost : e.priority.urgency.val ≤ q.lowestRoundRobin) {x : Identifier} {other : Priority}
    (held : q.Holds x other) : e.priority.toUint64.toNat ≤ other.toUint64.toNat := by
  rcases held with ⟨e', member, -, rfl⟩ | ⟨v, member, rfl⟩
  · exact wf.heap.head_le head member
  · -- a sequential priority is below every incremental one of its urgency or above
    have atOrAbove : q.lowestRoundRobin ≤ v.val := by
      by_contra below
      rw [wf.roundRobins.below v (by omega)] at member
      simp at member
    have member := List.mem_of_mem_head? head
    have order := e.priority.order.toNat_lt
    rw [Priority.toNat_toUint64_of_schedulable (wf.heap.schedulable e member),
      wf.heap.sequential e member, Priority.toNat_toUint64_make]
    simp only [Bool.toNat_false]
    omega

/-- `peekNextScheduledID` shows nothing exactly when the queue holds nothing, and otherwise an
identifier the queue holds at a priority whose number is least among all it holds. -/
theorem peekNextScheduledID_least (wf : q.Wf) :
    (q.peekNextScheduledID = none ↔ ∀ x priority, ¬ q.Holds x priority) ∧
      ∀ next, q.peekNextScheduledID = some next →
        ∃ priority, q.Holds next priority ∧ ∀ x other, q.Holds x other → priority.toUint64 ≤ other.toUint64 := by
  refine ⟨(peekNextScheduledID_eq_none_iff wf).trans (top_eq_none_iff wf), fun next peeked => ?_⟩
  rcases top_cases wf with ⟨u, atLowest, top, -, before⟩ | ⟨e, head, top, atMost⟩ | ⟨top, -, -⟩
  · rw [peekNextScheduledID, top, roundRobinAt_lowest atLowest] at peeked
    refine ⟨_, .inr ⟨u, RoundRobin.peekNext_mem peeked, rfl⟩, fun x other held => ?_⟩
    exact UInt64.le_iff_toNat_le.mpr (roundRobin_first_least wf atLowest before held)
  · rw [peekNextScheduledID, top, Option.some.injEq] at peeked
    refine ⟨e.priority, .inl ⟨e, List.mem_of_mem_head? head, peeked, rfl⟩, fun x other held => ?_⟩
    exact UInt64.le_iff_toNat_le.mpr (heap_first_least wf head atMost held)
  · rw [peekNextScheduledID, top] at peeked
    cases peeked

/-- Of two sequential identifiers, the one of lower urgency is shown first. -/
theorem peekNextScheduledID_least_two :
    ∃ q : HTTPPriorityQueue,
      q = (({} : HTTPPriorityQueue).insertOrUpdate ⟨1⟩ (Priority.make 4 false 0)).insertOrUpdate ⟨2⟩
        (Priority.make 2 false 5) ∧
      q.Wf ∧ q.peekNextScheduledID = some ⟨2⟩ ∧
      ∃ priority, q.Holds ⟨2⟩ priority ∧ ∀ x other, q.Holds x other → priority.toUint64 ≤ other.toUint64 :=
  have wf := (insertOrUpdate_spec (insertOrUpdate_spec wf_empty ⟨1⟩ (Priority.make 4 false 0)).1 ⟨2⟩
    (Priority.make 2 false 5)).1
  have peeked : ((({} : HTTPPriorityQueue).insertOrUpdate ⟨1⟩ (Priority.make 4 false 0)).insertOrUpdate ⟨2⟩
      (Priority.make 2 false 5)).peekNextScheduledID = some ⟨2⟩ := by decide
  ⟨_, rfl, wf, peeked, (peekNextScheduledID_least wf).2 ⟨2⟩ peeked⟩

/-! ## What the queue holds, as a function -/

/-- The priority the queue holds `id` at: its heap element's, or `Priority(u, true)` for the round
robin of urgency `u` that lists it. -/
def view (q : HTTPPriorityQueue) (id : Identifier) : Option Priority :=
  match q.heap.find? (·.identifier == id) with
  | some e => some e.priority
  | none => ((List.finRange 8).find? fun u => decide (id ∈ (q.roundRobins u).list)).map
      fun u => Priority.make u.val true 0

theorem view_holds {priority : Priority} (viewed : q.view id = some priority) : q.Holds id priority := by
  unfold view at viewed
  split at viewed
  · rename_i e found
    cases viewed
    exact .inl ⟨e, List.mem_of_find?_eq_some found, by simpa using List.find?_some found, rfl⟩
  · obtain ⟨u, found, rfl⟩ := Option.map_eq_some_iff.mp viewed
    exact .inr ⟨u, by simpa using List.find?_some found, rfl⟩

theorem view_isSome {priority : Priority} (held : q.Holds id priority) : (q.view id).isSome := by
  unfold view
  split
  · rfl
  · rename_i missing
    rcases held with ⟨e, member, rfl, -⟩ | ⟨u, member, -⟩
    · exact absurd (List.find?_eq_none.mp missing e member) (by simp)
    · rw [Option.isSome_map]
      exact List.find?_isSome.mpr ⟨u, List.mem_finRange u, by simpa using member⟩

/-- On a well-formed queue `view` reads `Holds` back: an identifier is held at one priority. -/
theorem view_eq_some_iff (wf : q.Wf) {priority : Priority} : q.view id = some priority ↔ q.Holds id priority := by
  refine ⟨view_holds, fun held => ?_⟩
  obtain ⟨shown, viewed⟩ := Option.isSome_iff_exists.mp (view_isSome held)
  rw [viewed, held.unique wf (view_holds viewed)]

theorem view_eq_none_iff : q.view id = none ↔ ¬ q.Present id := by
  rw [present_iff_holds, not_exists]
  constructor
  · intro missing priority held
    simpa [missing] using view_isSome held
  · intro idle
    cases viewed : q.view id with
    | none => rfl
    | some priority => exact absurd (view_holds viewed) (idle priority)

theorem view_eq_of_holds_iff (wf : q.Wf) {held : Identifier → Option Priority}
    (holds : ∀ x priority, q.Holds x priority ↔ held x = some priority) : q.view = held :=
  funext fun x => Option.ext fun _ => (view_eq_some_iff wf).trans (holds x _)

theorem HoldsUpdated.view {held : Option Priority} (wf : q.Wf) (wf' : q'.Wf) (updated : HoldsUpdated q q' id held) :
    q'.view = Function.update q.view id held :=
  view_eq_of_holds_iff wf' fun x priority => by
    rw [updated x priority, Function.update_apply]
    by_cases same : x = id
    · rw [if_pos same, if_pos same]
    · rw [if_neg same, if_neg same, view_eq_some_iff wf]

theorem view_congr (wf : q.Wf) (wf' : q'.Wf) (same : ∀ x priority, q'.Holds x priority ↔ q.Holds x priority) :
    q'.view = q.view :=
  view_eq_of_holds_iff wf' fun x _ => (same x _).trans (view_eq_some_iff wf).symm

/-- Nothing is scheduled exactly when no identifier is held. -/
theorem idle_iff (wf : q.Wf) : (∀ x, q.view x = none) ↔ q.top = none := by
  rw [top_eq_none_iff wf]
  simp only [view_eq_none_iff, present_iff_holds, not_exists]

/-! ## What the queue is for

A map from identifiers to the priority they are scheduled at, with the transaction's record of
erased identifiers that a rollback puts back. -/

@[ext]
structure Spec where
  held : Identifier → Option Priority
  erased : List Element
  transaction : Bool

namespace Spec

/-- The priority a write leaves an identifier at: a paused one takes it out of the schedule, an
incremental one keeps only its urgency. -/
def written (basePriority : Priority) : Option Priority :=
  if (Priority.ofBase basePriority).paused then none else some (Priority.ofBase basePriority).heldAs

def write (s : Spec) (id : Identifier) (held : Option Priority) : Spec :=
  { s with held := Function.update s.held id held }

def update (s : Spec) (id : Identifier) (held : Option Priority) : Spec :=
  if s.held id = none then s else s.write id held

def erase (s : Spec) (id : Identifier) : Spec where
  held := Function.update s.held id none
  erased := match s.held id with
    | some priority => if s.transaction then s.erased ++ [⟨priority, id⟩] else s.erased
    | none => s.erased
  transaction := s.transaction

def clear (s : Spec) : Spec := { s with held := fun _ => none }

open Classical in
/-- A scheduling call needs a held identifier and changes no priority. -/
noncomputable def scheduled (s : Spec) : Option Spec :=
  if ∀ x, s.held x = none then none else some s

def commit (s : Spec) : Spec :=
  if s.transaction then { s with erased := [], transaction := false } else s

def rollback (s : Spec) : Spec :=
  if s.transaction then
    { held := s.erased.foldl (fun held e => Function.update held e.identifier (some e.priority.heldAs)) s.held
      erased := []
      transaction := false }
  else s

def RollbackSafe (s : Spec) : Prop :=
  s.transaction = true → (s.erased.map (·.identifier)).Nodup ∧ ∀ e ∈ s.erased, s.held e.identifier = none

instance instDecidableSpecRollbackSafe (s : Spec) : Decidable s.RollbackSafe :=
  inferInstanceAs (Decidable (_ → _ ∧ _))

def Admissible (s : Spec) : Op → Prop
  | .beginTransaction | .rollbackTransaction => s.RollbackSafe
  | _ => True

instance instDecidableSpecAdmissible (s : Spec) : (op : Op) → Decidable (s.Admissible op)
  | .beginTransaction | .rollbackTransaction => inferInstanceAs (Decidable s.RollbackSafe)
  | .insertOrUpdate _ _ | .updateIfExist _ _ | .erase _ | .clear | .getNextScheduledID _ | .consume _
  | .commitTransaction | .advanceAfterNext _ | .advanceAfterBytes _ => isTrue trivial

noncomputable def step (s : Spec) : Op → Option Spec
  | .insertOrUpdate id basePriority => some (s.write id (written basePriority))
  | .updateIfExist id basePriority => some (s.update id (written basePriority))
  | .erase id => some (s.erase id)
  | .clear => some s.clear
  | .getNextScheduledID _ | .consume _ => s.scheduled
  | .beginTransaction => some { s.rollback with transaction := true }
  | .commitTransaction => some s.commit
  | .rollbackTransaction => some s.rollback
  | .advanceAfterNext _ | .advanceAfterBytes _ => some s

end Spec

def abstract (q : HTTPPriorityQueue) : Spec := ⟨q.view, q.erased, q.hasOpenTransaction⟩

@[simp] theorem abstract_held : q.abstract.held = q.view := rfl
@[simp] theorem abstract_erased : q.abstract.erased = q.erased := rfl
@[simp] theorem abstract_transaction : q.abstract.transaction = q.hasOpenTransaction := rfl

/-! ## Each call is a step of the map -/

theorem abstract_eq {held : Identifier → Option Priority} (viewed : q'.view = held)
    (kept : KeepsTransaction q q') : q'.abstract = { q.abstract with held } :=
  Spec.ext viewed kept.1 kept.2

theorem abstract_of_holds_iff (wf : q.Wf) (wf' : q'.Wf)
    (same : ∀ x priority, q'.Holds x priority ↔ q.Holds x priority) (kept : KeepsTransaction q q') :
    q'.abstract = q.abstract :=
  abstract_eq (view_congr wf wf' same) kept

theorem abstract_insertOrUpdate (wf : q.Wf) (id : Identifier) (basePriority : Priority) :
    (q.insertOrUpdate id basePriority).abstract = q.abstract.write id (Spec.written basePriority) := by
  obtain ⟨wf', updated⟩ := insertOrUpdate_spec wf id basePriority
  exact abstract_eq (updated.view wf wf') (insertOrUpdate_keepsTransaction wf id basePriority)

theorem abstract_updateIfExist (wf : q.Wf) (id : Identifier) (basePriority : Priority) :
    (q.updateIfExist id basePriority).abstract = q.abstract.update id (Spec.written basePriority) := by
  by_cases present : q.Present id
  · obtain ⟨wf', updated⟩ := updateIfExist_spec wf present basePriority
    rw [Spec.update, abstract_held, if_neg (mt view_eq_none_iff.mp (not_not.mpr present))]
    exact abstract_eq (updated.view wf wf') (updateIfExist_keepsTransaction wf id basePriority)
  · rw [updateIfExist_of_absent wf present, Spec.update, abstract_held, if_pos (view_eq_none_iff.mpr present)]

theorem abstract_erase (wf : q.Wf) (id : Identifier) : (q.erase id).abstract = q.abstract.erase id := by
  obtain ⟨transaction, recorded, unrecorded⟩ := erase_transaction wf id
  have updated : HoldsUpdated q (q.erase id) id none := fun x priority => by
    rw [holds_erase wf]
    by_cases same : x = id
    · simp [same]
    · simp [same]
  refine Spec.ext (updated.view wf (wf.erase id)) ?_ transaction
  -- the record gains the priority the identifier was held at, inside a transaction
  show (q.erase id).erased = match q.view id with
    | some priority => if q.hasOpenTransaction then q.erased ++ [⟨priority, id⟩] else q.erased
    | none => q.erased
  cases viewed : q.view id with
  | none => exact unrecorded (view_eq_none_iff.mp viewed)
  | some priority => exact recorded priority (view_holds viewed)

theorem abstract_clear (wf : q.Wf) : q.clear.abstract = q.abstract.clear :=
  Spec.ext (view_eq_of_holds_iff (clear_spec wf).1 fun x priority => iff_of_false ((clear_spec wf).2 x priority)
    (by simp [Spec.clear])) rfl rfl

theorem abstract_getNextScheduledID (wf : q.Wf) (previousConsumed : Option Nat) :
    ((q.getNextScheduledID previousConsumed).map Prod.snd).map abstract = q.abstract.scheduled := by
  rw [Spec.scheduled, abstract_held]
  cases served : q.getNextScheduledID previousConsumed with
  | none => rw [if_pos ((idle_iff wf).mpr ((getNextScheduledID_eq_none_iff wf _).mp served))]; rfl
  | some result =>
    obtain ⟨wf', same, kept, -⟩ := getNextScheduledID_spec wf served
    have busy : ¬ ∀ x, q.view x = none := fun idle => by
      rw [(getNextScheduledID_eq_none_iff wf _).mpr ((idle_iff wf).mp idle)] at served
      cases served
    rw [if_neg busy]
    exact congrArg some (abstract_of_holds_iff wf wf' same kept)

theorem abstract_consume (wf : q.Wf) (consumed : Option Nat) :
    (q.consume consumed).map abstract = q.abstract.scheduled := by
  rw [Spec.scheduled, abstract_held]
  cases charged : q.consume consumed with
  | none => rw [if_pos ((idle_iff wf).mpr ((consume_eq_none_iff wf _).mp charged))]; rfl
  | some q' =>
    obtain ⟨wf', same, kept⟩ := consume_spec wf charged
    have busy : ¬ ∀ x, q.view x = none := fun idle => by
      rw [(consume_eq_none_iff wf _).mpr ((idle_iff wf).mp idle)] at charged
      cases charged
    rw [if_neg busy]
    exact congrArg some (abstract_of_holds_iff wf wf' same kept)

theorem abstract_commitTransaction (q : HTTPPriorityQueue) : q.commitTransaction.abstract = q.abstract.commit := by
  unfold commitTransaction Spec.commit
  rw [abstract_transaction]
  cases q.hasOpenTransaction <;> rfl

/-- A safe rollback puts back each recorded identifier at the priority it was held at. -/
theorem abstract_rollbackTransaction (wf : q.Wf) (safe : q.RollbackSafe) :
    q.rollbackTransaction.abstract = q.abstract.rollback := by
  cases transaction : q.hasOpenTransaction with
  | false =>
    have unchanged : q.rollbackTransaction = q := by simp [rollbackTransaction, transaction]
    rw [unchanged, Spec.rollback, abstract_transaction, transaction, if_neg Bool.false_ne_true]
  | true =>
    obtain ⟨nodup, absent⟩ := safe transaction
    obtain ⟨wf', holds⟩ := rollbackTransaction_spec wf safe
    rw [Spec.rollback, abstract_transaction, transaction, if_pos rfl]
    refine Spec.ext (view_eq_of_holds_iff wf' fun x priority => ?_) ?_ ?_
    · dsimp only
      rw [holds x priority, transaction, abstract_held, abstract_erased, ListSearch.foldl_update_eq_some (fun e : Element => e.identifier)
        (fun e : Element => e.priority.heldAs) nodup]
      refine or_congr (by simp) ⟨fun held => ⟨fun listed => ?_, (view_eq_some_iff wf).mpr held⟩,
        fun ⟨_, viewed⟩ => view_holds viewed⟩
      -- a held identifier is none of the recorded ones
      obtain ⟨e, member, rfl⟩ := List.mem_map.mp listed
      exact absent e member (present_iff_holds.mpr ⟨priority, held⟩)
    · simp [rollbackTransaction, transaction]
    · simp [rollbackTransaction, transaction]

theorem abstract_beginTransaction (wf : q.Wf) (safe : q.RollbackSafe) :
    q.beginTransaction.abstract = { q.abstract.rollback with transaction := true } := by
  rw [beginTransaction_eq, ← abstract_rollbackTransaction wf safe]
  rfl

theorem abstract_advanceAfterNext (wf : q.Wf) (n : Nat) : (q.advanceAfterNext n).abstract = q.abstract :=
  abstract_of_holds_iff wf (advanceAfterNext_spec wf n).1 (advanceAfterNext_spec wf n).2 ⟨rfl, rfl⟩

theorem abstract_advanceAfterBytes (wf : q.Wf) (bytes : Nat) :
    (q.advanceAfterBytes bytes).abstract = q.abstract :=
  abstract_of_holds_iff wf (advanceAfterBytes_spec wf bytes).1 (advanceAfterBytes_spec wf bytes).2 ⟨rfl, rfl⟩

theorem rollbackSafe_iff : q.RollbackSafe ↔ q.abstract.RollbackSafe := by
  simp only [RollbackSafe, Spec.RollbackSafe, abstract_held, abstract_erased, abstract_transaction,
    view_eq_none_iff]

theorem admissible_iff (op : Op) : q.Admissible op ↔ q.abstract.Admissible op := by
  cases op
  case beginTransaction | rollbackTransaction => exact rollbackSafe_iff
  all_goals exact Iff.rfl

/-- Seen through `abstract`, each admissible call of a well-formed queue is the map's step, the
calls that fail included. -/
theorem step_refines (wf : q.Wf) {op : Op} (allowed : q.Admissible op) :
    (q.step op).map abstract = q.abstract.step op := by
  cases op with
  | insertOrUpdate id basePriority => exact congrArg some (abstract_insertOrUpdate wf id basePriority)
  | updateIfExist id basePriority => exact congrArg some (abstract_updateIfExist wf id basePriority)
  | erase id => exact congrArg some (abstract_erase wf id)
  | clear => exact congrArg some (abstract_clear wf)
  | getNextScheduledID previousConsumed => exact abstract_getNextScheduledID wf previousConsumed
  | consume consumed => exact abstract_consume wf consumed
  | beginTransaction => exact congrArg some (abstract_beginTransaction wf allowed)
  | commitTransaction => exact congrArg some (abstract_commitTransaction q)
  | rollbackTransaction => exact congrArg some (abstract_rollbackTransaction wf allowed)
  | advanceAfterNext n => exact congrArg some (abstract_advanceAfterNext wf n)
  | advanceAfterBytes bytes => exact congrArg some (abstract_advanceAfterBytes wf bytes)

/-- Every run of calls from a reachable queue is, seen through `abstract`, the run of the map:
the same calls fail, and the others leave the priorities and the record the map gives. -/
theorem run_refines (wf : q.Wf) (ops : List Op) :
    (TransitionSystem.run Admissible step q ops).map abstract =
      TransitionSystem.run Spec.Admissible Spec.step q.abstract ops :=
  TransitionSystem.run_map abstract (fun _ _ _ (wf : Wf _) allowed stepped => wf.step allowed stepped)
    (fun _ op _ => admissible_iff op) (fun _ _ wf allowed => step_refines wf allowed) ops wf

/-- A write, an erasure undone by a rollback, and a scheduling call, from the empty queue. -/
theorem run_refines_rollback :
    ({} : HTTPPriorityQueue).Wf ∧
      (TransitionSystem.run Admissible step {} [.insertOrUpdate ⟨1⟩ (Priority.make 2 false 5), .beginTransaction,
        .erase ⟨1⟩, .rollbackTransaction, .getNextScheduledID none]).map abstract =
        TransitionSystem.run Spec.Admissible Spec.step ({} : HTTPPriorityQueue).abstract
          [.insertOrUpdate ⟨1⟩ (Priority.make 2 false 5), .beginTransaction, .erase ⟨1⟩, .rollbackTransaction,
            .getNextScheduledID none] :=
  ⟨wf_empty, run_refines wf_empty _⟩

end HTTPPriorityQueue

end Mvfst.Priority
