import Mvfst.Common.CircularDequeInsertErase
import Mvfst.Lib.TransitionSystem

/-!
Runs of deque calls. Each call a caller makes within its precondition (the pushes and pops,
`emplace` and `erase` at iterators, `clear`, `resize` and the assignments) keeps a deque reached
from a new one holding the values of the `std::vector` that the same calls build, so that
`operator[]`, `front()` and `back()` read the vector's elements.
-/

namespace Mvfst

namespace CircularDeque

variable {α : Type} {d : CircularDeque α} {v : List α}

theorem refines_nil : ({} : CircularDeque α).Refines [] := by
  have wf : ({} : CircularDeque α).Wf :=
    { length := rfl, beginLt := .inl ⟨rfl, rfl⟩, endLe := Nat.le_refl 0, room := .inl rfl }
  exact (wf.refines_iff).mpr ⟨rfl, fun offset within => absurd within (Nat.not_lt_zero _)⟩

/-- Pushing a list's values at the back appends them. -/
theorem Refines.pushBacks (r : d.Refines v) (values : List α) :
    (values.foldl CircularDeque.pushBack d).Refines (v ++ values) := by
  induction values generalizing d v with
  | nil => simpa using r
  | cons value rest ih =>
    rw [List.foldl_cons, List.append_cons]
    exact ih (r.pushBack value)

/-- The calls that change a deque, with the `std::vector` ones they stand for. An iterator
argument is given by its offset from `begin()`; `insert` is `emplace`. -/
inductive DequeOp (α : Type) where
  | pushBack (value : α)
  | pushFront (value : α)
  | popFront
  | popBack
  | emplace (offset : Nat) (value : α)
  | erase (first last : Nat)
  | clear
  | resize (count : Nat)
  | assignList (values : List α)
  | assign (other : CircularDeque α)

namespace DequeOp

def apply (d : CircularDeque α) : DequeOp α → CircularDeque α
  | pushBack value => d.pushBack value
  | pushFront value => d.pushFront value
  | popFront => d.popFront
  | popBack => d.popBack
  | emplace offset value => (d.emplace (d.iterIndex offset) value).1
  | erase first last => (d.erase (d.iterIndex first) (d.iterIndex last)).1
  | clear => d.clear
  | resize count => d.resize count
  | assignList values => d.assignList values
  | assign other => d.assign other

/-- The same call on a vector. `CircularDeque::resize` only moves the elements to a new
ring and keeps them all, so it stands for a reserve. The copy reads the other deque. -/
def applyVector (v : List α) : DequeOp α → List α
  | pushBack value => v ++ [value]
  | pushFront value => value :: v
  | popFront => v.tail
  | popBack => v.dropLast
  | emplace offset value => v.insertIdx offset value
  | erase first last => v.take first ++ v.drop last
  | clear => []
  | resize _ => v
  | assignList values => values
  | assign other => other.toList.filterMap id

/-- The calls within their preconditions (pops on non-empty deques, iterators into the deque and
in order, resizes to at least the size, copies from well-formed deques), with the assignments
started from slot 0. -/
def Admissible (d : CircularDeque α) (v : List α) : DequeOp α → Prop
  | pushBack _ | pushFront _ | clear => True
  | popFront | popBack => v ≠ []
  | emplace offset _ => offset ≤ v.length
  | erase first last => first ≤ last ∧ last ≤ v.length
  | resize count => v.length ≤ count
  | assignList values => v ≠ [] ∨ d.begin = 0 ∨ d.maxSize < values.length
  | assign other => ∃ w, other.Refines w ∧ (v ≠ [] ∨ d.begin = 0 ∨ d.maxSize ≠ w.length)

end DequeOp

/-- A deque and the vector it stands for, stepped by the same call. -/
def stepPair (state : CircularDeque α × List α) (op : DequeOp α) : Option (CircularDeque α × List α) :=
  some (op.apply state.1, op.applyVector state.2)

theorem Refines.apply (r : d.Refines v) {op : DequeOp α} (admissible : op.Admissible d v) :
    (op.apply d).Refines (op.applyVector v) := by
  cases op with
  | pushBack value => exact r.pushBack value
  | pushFront value => exact r.pushFront value
  | popFront => exact r.popFront admissible
  | popBack => exact r.popBack admissible
  | emplace offset value => exact (r.emplace admissible value).1
  | erase first last => exact (r.erase admissible.1 admissible.2).1
  | clear => exact r.clear
  | resize count => exact r.resize admissible
  | assignList values => exact r.assignList values admissible
  | assign other =>
    obtain ⟨w, copied, fromZero⟩ := admissible
    show (d.assign other).Refines (other.toList.filterMap id)
    have values : (w.map some).filterMap id = w := by simp
    rw [copied.2, values]
    exact r.assign copied fromZero

/-- From a new deque and an empty vector, every run of admissible calls keeps the deque holding the
vector's elements, read by `operator[]`, `front()` and `back()`. -/
theorem refines_of_reachable {state : CircularDeque α × List α}
    (reachable : TransitionSystem.Reachable (· = ({}, [])) (fun state op => op.Admissible state.1 state.2)
      stepPair state) :
    state.1.Refines state.2 ∧
      (∀ index (within : index < state.2.length), state.1.get index = some state.2[index]) ∧
      ∀ nonempty : 0 < state.2.length,
        state.1.front = some state.2[0] ∧ state.1.back = some state.2[state.2.length - 1] := by
  have r : state.1.Refines state.2 := by
    apply reachable.invariant
    · rintro _ rfl
      exact refines_nil
    · rintro ⟨d, v⟩ _ op r admissible stepped
      cases stepped
      exact r.apply admissible
  exact ⟨r, fun index within => r.get within, fun nonempty => ⟨r.front nonempty, r.back nonempty⟩⟩

/-- Two pushes, an `emplace` between their values and an `erase` of the front from a new deque. -/
theorem refines_of_reachable_emplace_erase :
    TransitionSystem.Reachable (· = ({}, [])) (fun state op => op.Admissible state.1 state.2) stepPair
        (DequeOp.apply (DequeOp.apply ((({} : CircularDeque Nat).pushBack 1).pushBack 3) (.emplace 1 2))
          (.erase 0 1), [2, 3]) ∧
      (DequeOp.apply (DequeOp.apply ((({} : CircularDeque Nat).pushBack 1).pushBack 3) (.emplace 1 2))
          (.erase 0 1)).get 1 = some 3 :=
  have reachable : TransitionSystem.Reachable (· = ({}, [])) (fun state op => op.Admissible state.1 state.2)
      stepPair (DequeOp.apply (DequeOp.apply ((({} : CircularDeque Nat).pushBack 1).pushBack 3) (.emplace 1 2))
        (.erase 0 1), [2, 3]) :=
    .step (.step (.step (.step (.init rfl) (show DequeOp.Admissible _ _ (.pushBack 1) from trivial) rfl)
      (show DequeOp.Admissible _ _ (.pushBack 3) from trivial) rfl)
      (show DequeOp.Admissible _ _ (.emplace 1 2) from by show 1 ≤ List.length _; decide) rfl)
      (show DequeOp.Admissible _ _ (.erase 0 1) from by show 0 ≤ 1 ∧ 1 ≤ List.length _; decide) rfl
  ⟨reachable, (refines_of_reachable reachable).2.1 1 (by decide)⟩

/-- The iterator `it` that `emplace` returns takes the new element back out with
`erase(it, it + 1)`, and the iterator that `erase` returns is then the one at the same offset. -/
theorem erase_at_emplaced (r : d.Refines v) {offset : Nat} (inside : offset ≤ v.length) (value : α) :
    let emplaced := d.emplace (d.iterIndex offset) value
    let erased := emplaced.1.erase emplaced.2 (emplaced.1.advance emplaced.2 1)
    erased.1.Refines v ∧ erased.2 = erased.1.iterIndex offset := by
  obtain ⟨inserted, returned⟩ := r.emplace inside value
  have length : (v.insertIdx offset value).length = v.length + 1 := by
    rw [List.length_insertIdx, if_pos inside]
  have removed := inserted.erase (Nat.le_succ offset) (by omega)
  rw [← List.eraseIdx_eq_take_drop_succ, List.eraseIdx_insertIdx_self] at removed
  dsimp only
  rw [returned, inserted.wf.advance_iterIndex (by rw [inserted.size_eq, length]; omega)]
  exact removed

/-- Inserting `2` between `1` and `3` and erasing it at the returned iterator. -/
theorem erase_at_emplaced_between :
    let d := (({} : CircularDeque Nat).pushBack 1).pushBack 3
    let emplaced := d.emplace (d.iterIndex 1) 2
    let erased := emplaced.1.erase emplaced.2 (emplaced.1.advance emplaced.2 1)
    erased.1.Refines [1, 3] ∧ erased.2 = erased.1.iterIndex 1 :=
  erase_at_emplaced ((refines_nil.pushBack 1).pushBack 3) (by decide) 2

/-- An assignment to an empty deque whose `begin_` earlier pops moved off 0 copies to slots from 0
but reads from `begin_`: after `push_back(1)` and `pop_front()`, assigning `{2, 3}` leaves `{3}`,
and copying a deque of `0, ..., 9` into it leaves `1, ..., 9`. -/
theorem assignment_after_popFront_loses_front :
    (({} : CircularDeque Nat).pushBack 1).popFront.Refines [] ∧
      ((List.range 10).foldl CircularDeque.pushBack {}).Refines (List.range 10) ∧
      ((({} : CircularDeque Nat).pushBack 1).popFront.assignList [2, 3]).toList = [some 3] ∧
      ((({} : CircularDeque Nat).pushBack 1).popFront.assign
        ((List.range 10).foldl CircularDeque.pushBack {})).toList = (List.range' 1 9).map some :=
  ⟨(refines_nil.pushBack 1).popFront (List.cons_ne_nil _ _), refines_nil.pushBacks (List.range 10),
    by decide, by decide⟩

end CircularDeque

end Mvfst
