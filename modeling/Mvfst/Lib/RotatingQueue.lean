import Mathlib

/-!
A queue served in turns of a fixed quantum: the head is served, and charged for it, until its
turn is used up; then it goes to the back. Over `length * quantum` unit serves every member is
served `quantum` times, and a member is served within `wait` unit serves, whatever is pushed or
removed meanwhile.
-/

namespace RotatingQueue

structure Turn (α : Type) where
  order : List α
  used : Nat
  deriving DecidableEq, Repr

inductive Event (α : Type) where
  | push (x : α)
  | remove (x : α)
  | serve (cost : Nat)
  deriving DecidableEq, Repr

/-- The events after which `x` is still queued and each serve costs one unit. -/
def Event.Keeps {α : Type} (x : α) : Event α → Prop
  | .push _ => True
  | .remove y => y ≠ x
  | .serve cost => cost = 1

namespace Turn

variable {α : Type} [DecidableEq α] (quantum : Nat)

def serve : Turn α → Nat → Option (α × Turn α)
  | ⟨[], _⟩, _ => none
  | ⟨x :: rest, used⟩, cost =>
    some (x, if quantum ≤ used + cost then ⟨rest ++ [x], 0⟩ else ⟨x :: rest, used + cost⟩)

def push (t : Turn α) (x : α) : Turn α := ⟨t.order ++ [x], t.used⟩

/-- Removing the head ends its turn. -/
def remove (t : Turn α) (x : α) : Turn α :=
  if t.order.head? = some x then ⟨t.order.tail, 0⟩ else ⟨t.order.erase x, t.used⟩

def run : Turn α → List (Event α) → Option (List α × Turn α)
  | t, [] => some ([], t)
  | t, .push x :: events => run (t.push x) events
  | t, .remove x :: events => run (t.remove x) events
  | t, .serve cost :: events =>
    (t.serve quantum cost).bind fun (x, t) => (run t events).map fun (served, t) => (x :: served, t)

/-- Serves left in the head's turn; a head already past its quantum is served once more. -/
def budget (t : Turn α) : Nat := max (quantum - t.used) 1

/-- Unit serves that come before `x` is served. -/
def wait (t : Turn α) (x : α) : Nat :=
  match t.order.idxOf x with
  | 0 => 0
  | j + 1 => t.budget quantum + quantum * j

variable {quantum}

theorem run_append (t : Turn α) (first second : List (Event α)) :
    run quantum t (first ++ second) = (run quantum t first).bind fun (served, t) =>
      (run quantum t second).map fun (more, t) => (served ++ more, t) := by
  induction first generalizing t with
  | nil => simp [run]
  | cons event first ih =>
    cases event with
    | push x => simp only [List.cons_append, run, ih]
    | remove x => simp only [List.cons_append, run, ih]
    | serve cost =>
      simp only [List.cons_append, run, ih]
      cases t.serve quantum cost with
      | none => rfl
      | some next =>
        simp only [Option.bind_some]
        cases run quantum next.2 first <;> simp [Function.comp_def]

/-! ## Whole turns and rounds -/

theorem run_serves_within_turn (x : α) (rest : List α) :
    ∀ (used j : Nat), used + j < quantum →
      run quantum ⟨x :: rest, used⟩ (List.replicate j (.serve 1)) =
        some (List.replicate j x, ⟨x :: rest, used + j⟩)
  | used, 0, _ => rfl
  | used, j + 1, within => by
    have stays : ¬ quantum ≤ used + 1 := by omega
    have later := run_serves_within_turn x rest (used + 1) j (by omega)
    simp only [List.replicate_succ, run, serve, stays, if_false, Option.bind_some, later,
      Option.map_some]
    rw [Nat.add_assoc, Nat.add_comm 1 j]

omit [DecidableEq α] in
theorem one_le_budget (t : Turn α) : 1 ≤ t.budget quantum := le_max_right _ _

omit [DecidableEq α] in
theorem budget_le (positive : 1 ≤ quantum) (t : Turn α) : t.budget quantum ≤ quantum :=
  max_le (Nat.sub_le _ _) positive

/-- The head is served for the rest of its turn, then goes to the back. -/
theorem run_serves_turn (x : α) (rest : List α) (used : Nat) :
    run quantum ⟨x :: rest, used⟩ (List.replicate (budget quantum ⟨x :: rest, used⟩) (.serve 1)) =
      some (List.replicate (budget quantum ⟨x :: rest, used⟩) x, ⟨rest ++ [x], 0⟩) := by
  obtain ⟨j, turn⟩ : ∃ j, budget quantum ⟨x :: rest, used⟩ = j + 1 :=
    ⟨_, (Nat.succ_pred_eq_of_pos (one_le_budget _)).symm⟩
  have ends : quantum ≤ used + j + 1 := by simp only [budget] at turn; omega
  have before : run quantum ⟨x :: rest, used⟩ (List.replicate j (.serve 1)) =
      some (List.replicate j x, ⟨x :: rest, used + j⟩) := by
    rcases Nat.eq_zero_or_pos j with none | some
    · subst none; rfl
    · simp only [budget] at turn
      exact run_serves_within_turn x rest used j (by omega)
  rw [turn, List.replicate_succ', run_append, before]
  simp [run, serve, ends, List.replicate_succ']

/-- Serving `first` a whole turn each, from the start of a turn, moves it to the back. -/
theorem run_serves_rounds (positive : 1 ≤ quantum) :
    ∀ (first second : List α),
      run quantum ⟨first ++ second, 0⟩ (List.replicate (first.length * quantum) (.serve 1)) =
        some (first.flatMap (List.replicate quantum), ⟨second ++ first, 0⟩)
  | [], second => by simp [run]
  | x :: first, second => by
    have whole : budget quantum ⟨x :: (first ++ second), 0⟩ = quantum := by
      simp only [budget]; omega
    have turn := @run_serves_turn _ _ quantum x (first ++ second) 0
    rw [whole] at turn
    have rounds := run_serves_rounds positive first (second ++ [x])
    rw [List.cons_append, List.length_cons, Nat.succ_mul, Nat.add_comm, List.replicate_add,
      run_append, turn]
    simp [rounds]

theorem count_flatMap_replicate (l : List α) (y : α) :
    (l.flatMap (List.replicate quantum)).count y = quantum * l.count y := by
  induction l with
  | nil => simp
  | cons x l ih =>
    rw [List.flatMap_cons, List.count_append, ih, List.count_cons, List.count_replicate]
    by_cases same : x = y <;> simp [same, Nat.mul_succ, Nat.add_comm]

/-- Fairness: `length * quantum` unit serves, from any point of a turn, serve every member
`quantum` times for each time it is queued. -/
theorem run_serves_each_quantum (positive : 1 ≤ quantum) (t : Turn α) :
    ∃ served t', run quantum t (List.replicate (t.order.length * quantum) (.serve 1)) =
      some (served, t') ∧ ∀ y, served.count y = quantum * t.order.count y := by
  obtain ⟨order, used⟩ := t
  cases order with
  | nil => exact ⟨[], ⟨[], used⟩, by simp [run], by simp⟩
  | cons x rest =>
    set head := budget quantum ⟨x :: rest, used⟩
    have small : head ≤ quantum := budget_le positive _
    have big : 1 ≤ head := one_le_budget _
    -- the head's turn, whole rounds of the others, then the head again up to its quantum
    have split : (x :: rest).length * quantum = head + (rest.length * quantum + (quantum - head)) := by
      rw [List.length_cons, Nat.succ_mul]; omega
    have turn : run quantum ⟨x :: rest, used⟩ (List.replicate head (.serve 1)) =
        some (List.replicate head x, ⟨rest ++ [x], 0⟩) := run_serves_turn x rest used
    have rounds := run_serves_rounds positive rest [x]
    have last := @run_serves_within_turn _ _ quantum x rest 0 (quantum - head) (by omega)
    rw [Nat.zero_add] at last
    refine ⟨List.replicate head x ++ (rest.flatMap (List.replicate quantum) ++
      List.replicate (quantum - head) x), ⟨x :: rest, quantum - head⟩, ?_, ?_⟩
    · rw [split, List.replicate_add, List.replicate_add, run_append, turn]
      simp only [Option.bind_some]
      rw [run_append, rounds]
      simp [last]
    · intro y
      rw [List.count_append, List.count_append, count_flatMap_replicate, List.count_replicate,
        List.count_replicate, List.count_cons]
      by_cases same : x = y
      · simp only [same, beq_self_eq_true, if_true]
        rw [Nat.mul_add, Nat.mul_one]; omega
      · simp [same]

/-! ## Waiting for one member -/

variable {t t' : Turn α} {x y : α}

theorem idxOf_erase_le (other : y ≠ x) (l : List α) : (l.erase y).idxOf x ≤ l.idxOf x := by
  induction l with
  | nil => simp
  | cons z l ih =>
    by_cases removed : z = y
    · subst removed
      rw [List.erase_cons_head, List.idxOf_cons_ne _ other]
      exact Nat.le_succ _
    · rw [List.erase_cons_tail (by simpa using removed)]
      by_cases found : z = x
      · subst found
        rw [List.idxOf_cons_self, List.idxOf_cons_self]
      · rw [List.idxOf_cons_ne _ found, List.idxOf_cons_ne _ found]
        exact Nat.succ_le_succ ih

theorem wait_eq_zero (head : t.order.idxOf x = 0) : t.wait quantum x = 0 := by
  simp [wait, head]

theorem wait_eq_of_idxOf {j : Nat} (behind : t.order.idxOf x = j + 1) :
    t.wait quantum x = t.budget quantum + quantum * j := by
  simp [wait, behind]

theorem wait_push (member : x ∈ t.order) (y : α) : (t.push y).wait quantum x = t.wait quantum x := by
  simp only [wait, budget, push, List.idxOf_append_of_mem member]

theorem mem_remove (member : x ∈ t.order) (other : y ≠ x) : x ∈ (t.remove y).order := by
  obtain ⟨order, used⟩ := t
  cases order with
  | nil => simp at member
  | cons z rest =>
    unfold remove
    split
    · rename_i head
      have first : z = y := by simpa using head
      exact (List.mem_cons.mp member).resolve_left (fun same => other (first ▸ same.symm))
    · exact (List.mem_erase_of_ne (Ne.symm other)).mpr member

/-- Removing another member never delays `x`; removing the head ends its turn early. -/
theorem wait_remove_le (member : x ∈ t.order) (other : y ≠ x) :
    (t.remove y).wait quantum x ≤ t.wait quantum x := by
  obtain ⟨order, used⟩ := t
  cases order with
  | nil => simp at member
  | cons z rest =>
    unfold remove
    by_cases head : z = y
    · subst head
      have before : wait quantum ⟨z :: rest, used⟩ x = budget quantum ⟨z :: rest, used⟩ +
          quantum * rest.idxOf x := wait_eq_of_idxOf (List.idxOf_cons_ne rest other)
      simp only [List.head?_cons, if_true, List.tail_cons, before]
      cases behind : rest.idxOf x with
      | zero => rw [wait_eq_zero behind]; exact Nat.zero_le _
      | succ j =>
        rw [wait_eq_of_idxOf behind, Nat.mul_succ]
        have : 1 ≤ budget quantum ⟨z :: rest, used⟩ := one_le_budget _
        simp only [budget] at this ⊢
        omega
    · have kept : (z :: rest).erase y = z :: rest.erase y :=
        List.erase_cons_tail (by simpa using head)
      simp only [List.head?_cons, Option.some.injEq, head, if_false, kept]
      by_cases found : z = x
      · subst found
        rw [wait_eq_zero List.idxOf_cons_self]
        exact Nat.zero_le _
      · rw [wait_eq_of_idxOf (List.idxOf_cons_ne _ found),
          wait_eq_of_idxOf (List.idxOf_cons_ne _ found)]
        exact Nat.add_le_add_left (Nat.mul_le_mul_left _ (idxOf_erase_le other rest)) _

/-- A unit serve of another member brings `x` one serve closer. -/
theorem wait_serve (positive : 1 ≤ quantum) (member : x ∈ t.order) {z : α}
    (served : t.serve quantum 1 = some (z, t')) (other : z ≠ x) :
    t'.wait quantum x + 1 = t.wait quantum x ∧ x ∈ t'.order := by
  obtain ⟨order, used⟩ := t
  cases order with
  | nil => simp [serve] at served
  | cons w rest =>
    simp only [serve, Option.some.injEq, Prod.mk.injEq] at served
    obtain ⟨rfl, rfl⟩ := served
    have inner : x ∈ rest := (List.mem_cons.mp member).resolve_left (fun same => other same.symm)
    rw [wait_eq_of_idxOf (t := ⟨w :: rest, used⟩) (List.idxOf_cons_ne rest other)]
    by_cases ends : quantum ≤ used + 1
    · -- the turn ends: the others move up one place
      rw [if_pos ends]
      have moved : (rest ++ [w]).idxOf x = rest.idxOf x := List.idxOf_append_of_mem inner
      refine ⟨?_, List.mem_append_left _ inner⟩
      cases behind : rest.idxOf x with
      | zero => rw [wait_eq_zero (moved.trans behind)]; simp only [budget]; omega
      | succ j =>
        rw [wait_eq_of_idxOf (moved.trans behind), Nat.mul_succ]
        simp only [budget]
        omega
    · rw [if_neg ends]
      refine ⟨?_, member⟩
      rw [wait_eq_of_idxOf (t := ⟨w :: rest, used + 1⟩) (List.idxOf_cons_ne rest other)]
      simp only [budget]
      omega

theorem run_serves_within_wait (positive : 1 ≤ quantum) (x : α) :
    ∀ (t : Turn α) (events : List (Event α)) (served : List α) (t' : Turn α), x ∈ t.order →
      (∀ event ∈ events, event.Keeps x) → run quantum t events = some (served, t') →
      t.wait quantum x < served.length → x ∈ served.take (t.wait quantum x + 1)
  | t, [], served, final, _, _, ran, enough => by
    simp only [run, Option.some.injEq, Prod.mk.injEq] at ran
    rw [← ran.1] at enough
    exact absurd enough (Nat.not_lt_zero _)
  | t, .push y :: events, served, final, member, keeps, ran, enough => by
    rw [← wait_push member y] at enough ⊢
    exact run_serves_within_wait positive x _ events served final
      (List.mem_append_left _ member) (fun event inside => keeps event (List.mem_cons_of_mem _ inside))
      ran enough
  | t, .remove y :: events, served, final, member, keeps, ran, enough => by
    have other : y ≠ x := keeps _ List.mem_cons_self
    have sooner : (t.remove y).wait quantum x ≤ t.wait quantum x := wait_remove_le member other
    have inside := run_serves_within_wait positive x _ events served final (mem_remove member other)
      (fun event inside => keeps event (List.mem_cons_of_mem _ inside)) ran (by omega)
    exact List.take_subset_take_left _ (by omega) inside
  | t, .serve cost :: events, served, final, member, keeps, ran, enough => by
    have unit : cost = 1 := keeps _ List.mem_cons_self
    subst unit
    simp only [run, Option.bind_eq_some_iff, Option.map_eq_some_iff] at ran
    obtain ⟨⟨z, next⟩, first, ⟨more, last⟩, rest, produced⟩ := ran
    simp only [Prod.mk.injEq] at produced
    obtain ⟨rfl, rfl⟩ := produced
    by_cases same : z = x
    · subst same
      simp
    · obtain ⟨closer, still⟩ := wait_serve positive member first same
      rw [← closer] at enough ⊢
      have inside := run_serves_within_wait positive x next events more last still
        (fun event inside => keeps event (List.mem_cons_of_mem _ inside)) rest
        (by simp only [List.length_cons] at enough; omega)
      simp only [List.take_succ_cons, List.mem_cons]
      exact Or.inr inside

/-- Liveness: a member pushed at the back is served within `quantum` serves per member queued,
whatever is pushed, or removed other than it, meanwhile. -/
theorem run_serves_pushed_within (positive : 1 ≤ quantum) (t : Turn α) (x : α)
    (fresh : x ∉ t.order) (events : List (Event α)) (keeps : ∀ event ∈ events, event.Keeps x)
    (served : List α) (t' : Turn α) (ran : run quantum (t.push x) events = some (served, t'))
    (enough : (t.order.length + 1) * quantum ≤ served.length) :
    x ∈ served.take ((t.order.length + 1) * quantum) := by
  have last : (t.push x).order.idxOf x = t.order.length := by
    simp [push, List.idxOf_append_of_notMem fresh]
  have bound : (t.push x).wait quantum x + 1 ≤ (t.order.length + 1) * quantum := by
    have small := budget_le positive (t.push x)
    cases counted : t.order.length with
    | zero => rw [wait_eq_zero (last.trans counted)]; omega
    | succ n =>
      rw [wait_eq_of_idxOf (last.trans counted), Nat.add_mul, Nat.add_mul, Nat.mul_comm n]
      omega
  have inside := run_serves_within_wait positive x (t.push x) events served t'
    (by simp [push]) keeps ran (by omega)
  exact List.take_subset_take_left _ bound inside

end Turn

/-! ## A list with a cursor

A list and the position of the member to serve next stand for the queue read from that position
around: inserting before the cursor pushes at the back, moving the cursor on rotates the queue,
and erasing at the cursor or elsewhere removes from it. -/

section Cursor

variable {α : Type} {l : List α} {p : Nat}

theorem insertIdx_eq_take_append_drop (x : α) :
    ∀ (l : List α) (p : Nat), p ≤ l.length → l.insertIdx p x = l.take p ++ x :: l.drop p
  | l, 0, _ => by simp
  | [], _ + 1, inside => by simp at inside
  | y :: l, p + 1, inside => by
    rw [List.insertIdx_succ_cons, insertIdx_eq_take_append_drop x l p (by simpa using inside)]
    rfl

theorem rotate_eq_getElem_cons (inside : p < l.length) :
    l.rotate p = l[p] :: (l.drop (p + 1) ++ l.take p) := by
  rw [List.rotate_eq_drop_append_take (Nat.le_of_lt inside), List.drop_eq_getElem_cons inside,
    List.cons_append]

theorem rotate_insertIdx (inside : p ≤ l.length) (x : α) :
    (l.insertIdx p x).rotate (p + 1) = l.rotate p ++ [x] := by
  have front : (l.take p ++ [x]).length = p + 1 := by simp [inside]
  rw [insertIdx_eq_take_append_drop x l p inside, ← List.singleton_append, ← List.append_assoc,
    ← front, List.rotate_append_length_eq, List.rotate_eq_drop_append_take inside,
    List.append_assoc]

theorem rotate_advance :
    l.rotate (if p + 1 = l.length then 0 else p + 1) = (l.rotate p).rotate 1 := by
  rw [List.rotate_rotate]
  split
  · rename_i wraps
    rw [wraps, List.rotate_length, List.rotate_zero]
  · rfl

theorem rotate_eraseIdx_cursor (inside : p < l.length) :
    (l.eraseIdx p).rotate (if p = (l.eraseIdx p).length then 0 else p) = (l.rotate p).tail := by
  rw [rotate_eq_getElem_cons inside, List.tail_cons, List.eraseIdx_eq_take_drop_succ,
    List.length_append, List.length_take, List.length_drop]
  split
  · rename_i last
    have empty : l.drop (p + 1) = [] := List.drop_eq_nil_of_le (by omega)
    simp [empty]
  · have front : (l.take p).length = p := by simp; omega
    have moved := List.rotate_append_length_eq (l.take p) (l.drop (p + 1))
    rwa [front] at moved

theorem rotate_eraseIdx_of_ne [DecidableEq α] (nodup : l.Nodup) (inside : p < l.length)
    {e : Nat} (erased : e < l.length) :
    (l.eraseIdx e).rotate (if e < p then p - 1 else p) = (l.rotate p).erase l[e] := by
  have apart := List.disjoint_take_drop nodup (le_refl p)
  have whole : l = l.take p ++ l.drop p := (List.take_append_drop p l).symm
  rw [← nodup.erase_getElem e erased, List.rotate_eq_drop_append_take (Nat.le_of_lt inside)]
  by_cases before : e < p
  · -- the erased member is behind the cursor
    have front : l[e] ∈ l.take p := by
      rw [List.mem_take_iff_getElem]; exact ⟨e, by omega, rfl⟩
    generalize l[e] = x at front ⊢
    have shorter : ((l.take p).erase x).length = p - 1 := by
      rw [List.length_erase_of_mem front, List.length_take]; omega
    have moved := List.rotate_append_length_eq ((l.take p).erase x) (l.drop p)
    rw [shorter] at moved
    rw [if_pos before, whole, List.erase_append_left _ front, ← whole, moved,
      List.erase_append_right _ (fun back => apart front back)]
  · -- the erased member is ahead of the cursor
    have back : l[e] ∈ l.drop p := by
      rw [List.mem_drop_iff_getElem]
      exact ⟨e - p, by omega, by simp [Nat.add_sub_of_le (Nat.le_of_not_lt before)]⟩
    generalize l[e] = x at back ⊢
    have front : (l.take p).length = p := by simp; omega
    have moved := List.rotate_append_length_eq (l.take p) ((l.drop p).erase x)
    rw [front] at moved
    rw [if_neg before, whole, List.erase_append_right _ (fun ahead => apart ahead back), ← whole,
      moved, List.erase_append_left _ back]

end Cursor

end RotatingQueue
