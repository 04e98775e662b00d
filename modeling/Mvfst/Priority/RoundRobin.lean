import Mvfst.Lib.TransitionSystem
import Mvfst.Lib.RotatingQueue

/-!
# Round-robin scheduling

`RoundRobin` of `quic/priority/RoundRobin.cpp`: the identifiers of one urgency level, served in
turn, each for `advanceAfter_` calls of `getNext` (or bytes). `std::list` is a list and the
iterator `nextIt_` its position, `list_.end()` being the length; iterators into the list stay on
their element, so an insertion or an erasure before `nextIt_` moves its position. The index map
is kept as the set of its keys: each key's iterator points at the element equal to it. The
`DCHECK` of `insert` is not evaluated, as in a release build; a failed `CHECK` is `none`.
-/

namespace Mvfst.Priority

set_option linter.unusedSectionVars false

def kBuildIndexThreshold : Nat := 30

def kDestroyIndexThreshold : Nat := 10

inductive AdvanceType where
  | nexts | bytes
  deriving DecidableEq, Repr

structure RoundRobin (α : Type) where
  list : List α := []
  nextIt : Nat := 0
  indexMap : List α := []
  advanceType : AdvanceType := .nexts
  useIndexMap : Bool := false
  advanceAfter : Nat := 1
  current : Nat := 0
  deriving DecidableEq, Repr

namespace RoundRobin

variable {α : Type} [DecidableEq α] (rr : RoundRobin α)

def advanceAfterNext (n : Nat) : RoundRobin α :=
  { rr with current := if rr.advanceType = .bytes then 0 else rr.current, advanceType := .nexts,
            advanceAfter := n }

def advanceAfterBytes (bytes : Nat) : RoundRobin α :=
  { rr with current := if rr.advanceType = .nexts then 0 else rr.current, advanceType := .bytes,
            advanceAfter := bytes }

def empty : Bool := rr.list.isEmpty

def buildIndex : List α := rr.list.foldl (fun keys value => keys.insert value) rr.indexMap

/-- The new identifier goes before `nextIt_`, so it is served after every other one. -/
def insert (value : α) : RoundRobin α :=
  let rr := if !rr.useIndexMap && decide (rr.list.length ≥ kBuildIndexThreshold) then
      { rr with useIndexMap := true, indexMap := rr.buildIndex }
    else rr
  let list := rr.list.insertIdx rr.nextIt value
  { rr with
    list
    nextIt := if list.length = 1 then 0 else rr.nextIt + 1
    indexMap := if rr.useIndexMap then rr.indexMap.insert value else rr.indexMap }

/-- `erase(iterator)`: erasing the next element moves `nextIt_` to the one after it and restarts
its count. -/
def eraseAt (eraseIt : Nat) : RoundRobin α :=
  let rr := if eraseIt = rr.nextIt then
      let list := rr.list.eraseIdx eraseIt
      { rr with list, nextIt := if eraseIt = list.length then 0 else eraseIt, current := 0 }
    else
      { rr with list := rr.list.eraseIdx eraseIt,
                nextIt := if eraseIt < rr.nextIt then rr.nextIt - 1 else rr.nextIt }
  if rr.list.length < kDestroyIndexThreshold then { rr with useIndexMap := false, indexMap := [] }
  else rr

/-- Without the index map the search goes backwards from `nextIt_ - 1`, then forwards from
`nextIt_ + 1`. -/
def erase (value : α) : RoundRobin α × Bool :=
  if rr.list.isEmpty then (rr, false)
  else if rr.useIndexMap then
    if value ∈ rr.indexMap then
      (({ rr with indexMap := rr.indexMap.erase value }).eraseAt (rr.list.idxOf value), true)
    else (rr, false)
  else if rr.list[rr.nextIt]? = some value then ({ rr.eraseAt rr.nextIt with current := 0 }, true)
  else
    match (List.range rr.nextIt).reverse.find? (fun index => rr.list[index]? = some value) with
    | some index => (rr.eraseAt index, true)
    | none =>
      match (List.range' (rr.nextIt + 1) (rr.list.length - (rr.nextIt + 1))).find?
          (fun index => rr.list[index]? = some value) with
      | some index => (rr.eraseAt index, true)
      | none => (rr, false)

def maybeAdvance : Option (RoundRobin α) :=
  if rr.list.isEmpty then none
  else if rr.current ≥ rr.advanceAfter then
    some { rr with nextIt := if rr.nextIt + 1 = rr.list.length then 0 else rr.nextIt + 1,
                   current := 0 }
  else some rr

/-- What one call charges to the current identifier's turn. -/
def charge (bytes : Option Nat) : Nat := if rr.advanceType = .bytes then bytes.getD 0 else 1

def consume (bytes : Option Nat) : Option (RoundRobin α) :=
  maybeAdvance { rr with current := rr.current + rr.charge bytes }

def getNext (bytes : Option Nat) : Option (α × RoundRobin α) :=
  if rr.list.isEmpty then none
  else
    match rr.list[rr.nextIt]? with
    | none => none
    | some next => (rr.consume bytes).map fun rr => (next, rr)

def peekNext : Option α :=
  if rr.list.isEmpty then none else rr.list[rr.nextIt]?

def clear : RoundRobin α :=
  { rr with list := [], indexMap := if rr.useIndexMap then [] else rr.indexMap, useIndexMap := false,
            nextIt := 0, current := 0 }

/-! ## The interface as a transition system -/

inductive Op (α : Type) where
  | advanceAfterNext (n : Nat)
  | advanceAfterBytes (bytes : Nat)
  | insert (value : α)
  | erase (value : α)
  | getNext (bytes : Option Nat)
  | consume (bytes : Option Nat)
  | clear
  deriving DecidableEq, Repr

/-- One call: what `getNext` returns, when the call is `getNext`, and the state after it. -/
def apply : Op α → Option (Option α × RoundRobin α)
  | .advanceAfterNext n => some (none, rr.advanceAfterNext n)
  | .advanceAfterBytes bytes => some (none, rr.advanceAfterBytes bytes)
  | .insert value => some (none, rr.insert value)
  | .erase value => some (none, (rr.erase value).1)
  | .getNext bytes => (rr.getNext bytes).map fun (next, rr) => (some next, rr)
  | .consume bytes => (rr.consume bytes).map fun rr => (none, rr)
  | .clear => some (none, rr.clear)

/-- The caller never inserts an identifier that is already there. -/
def Admissible : Op α → Prop
  | .insert value => value ∉ rr.list
  | _ => True

instance instDecidableAdmissible : (op : Op α) → Decidable (rr.Admissible op)
  | .insert value => inferInstanceAs (Decidable (value ∉ rr.list))
  | .advanceAfterNext _ | .advanceAfterBytes _ | .erase _ | .getNext _ | .consume _ | .clear =>
    isTrue trivial

def step (op : Op α) : Option (RoundRobin α) := (rr.apply op).map Prod.snd

def Reachable : RoundRobin α → Prop := TransitionSystem.Reachable (· = {}) Admissible step

/-- The calls a scheduler interleaves. -/
inductive Call (α : Type) where
  | insert (value : α)
  | erase (value : α)
  | getNext (bytes : Option Nat)
  deriving DecidableEq, Repr

def Call.toOp : Call α → Op α
  | .insert value => .insert value
  | .erase value => .erase value
  | .getNext bytes => .getNext bytes

/-- Makes the calls in order, collecting what `getNext` returns. -/
def exec : RoundRobin α → List (Call α) → Option (List α × RoundRobin α)
  | rr, [] => some ([], rr)
  | rr, call :: calls =>
    if rr.Admissible call.toOp then
      (rr.apply call.toOp).bind fun (next, rr) =>
        (exec rr calls).map fun (served, rr) => (next.toList ++ served, rr)
    else none

/-! ## What each call does to the list, the iterator and the turn -/

variable {rr} {value : α} {e : Nat}

@[simp] theorem insert_list : (rr.insert value).list = rr.list.insertIdx rr.nextIt value := by
  dsimp only [insert]; split <;> rfl

theorem insert_nextIt : (rr.insert value).nextIt =
    if (rr.list.insertIdx rr.nextIt value).length = 1 then 0 else rr.nextIt + 1 := by
  dsimp only [insert]; split <;> rfl

@[simp] theorem insert_current : (rr.insert value).current = rr.current := by
  dsimp only [insert]; split <;> rfl

@[simp] theorem insert_advanceType : (rr.insert value).advanceType = rr.advanceType := by
  dsimp only [insert]; split <;> rfl

@[simp] theorem insert_advanceAfter : (rr.insert value).advanceAfter = rr.advanceAfter := by
  dsimp only [insert]; split <;> rfl

theorem insert_index : ((rr.insert value).useIndexMap, (rr.insert value).indexMap) =
    if rr.useIndexMap then (true, rr.indexMap.insert value)
    else if kBuildIndexThreshold ≤ rr.list.length then (true, rr.buildIndex.insert value)
    else (false, rr.indexMap) := by
  dsimp only [insert]
  by_cases indexed : rr.useIndexMap <;> by_cases large : kBuildIndexThreshold ≤ rr.list.length <;>
    simp [indexed, large]

@[simp] theorem eraseAt_list : (rr.eraseAt e).list = rr.list.eraseIdx e := by
  dsimp only [eraseAt]; split_ifs <;> rfl

theorem eraseAt_nextIt : (rr.eraseAt e).nextIt =
    if e = rr.nextIt then (if e = (rr.list.eraseIdx e).length then 0 else e)
    else if e < rr.nextIt then rr.nextIt - 1 else rr.nextIt := by
  dsimp only [eraseAt]; split_ifs <;> rfl

theorem eraseAt_current : (rr.eraseAt e).current = if e = rr.nextIt then 0 else rr.current := by
  dsimp only [eraseAt]; split_ifs <;> rfl

@[simp] theorem eraseAt_advanceType : (rr.eraseAt e).advanceType = rr.advanceType := by
  dsimp only [eraseAt]; split_ifs <;> rfl

@[simp] theorem eraseAt_advanceAfter : (rr.eraseAt e).advanceAfter = rr.advanceAfter := by
  dsimp only [eraseAt]; split_ifs <;> rfl

theorem eraseAt_index : ((rr.eraseAt e).useIndexMap, (rr.eraseAt e).indexMap) =
    if (rr.list.eraseIdx e).length < kDestroyIndexThreshold then (false, [])
    else (rr.useIndexMap, rr.indexMap) := by
  dsimp only [eraseAt]; split_ifs <;> rfl

/-- Erasing at the next iterator already restarts the count, so the extra reset of
`erase(value)` changes nothing. -/
theorem eraseAt_nextIt_current_reset :
    { rr.eraseAt rr.nextIt with current := 0 } = rr.eraseAt rr.nextIt := by
  dsimp only [eraseAt]; rw [if_pos rfl]; split_ifs <;> rfl

theorem maybeAdvance_eq (nonempty : rr.list ≠ []) : rr.maybeAdvance = some
    (if rr.advanceAfter ≤ rr.current then
      { rr with nextIt := if rr.nextIt + 1 = rr.list.length then 0 else rr.nextIt + 1, current := 0 }
    else rr) := by
  simp [maybeAdvance, nonempty]
  split_ifs <;> rfl

theorem consume_eq (bounded : rr.nextIt < rr.list.length) (bytes : Option Nat) :
    rr.consume bytes = some
      (if rr.advanceAfter ≤ rr.current + rr.charge bytes then
        { rr with nextIt := if rr.nextIt + 1 = rr.list.length then 0 else rr.nextIt + 1, current := 0 }
      else { rr with current := rr.current + rr.charge bytes }) := by
  have nonempty : rr.list ≠ [] := List.ne_nil_of_length_pos (Nat.lt_of_le_of_lt (Nat.zero_le _) bounded)
  rw [consume, @maybeAdvance_eq _ _ { rr with current := rr.current + rr.charge bytes } nonempty]

theorem getNext_eq (bounded : rr.nextIt < rr.list.length) (bytes : Option Nat) :
    rr.getNext bytes = (rr.consume bytes).map fun rr' => (rr.list[rr.nextIt], rr') := by
  have nonempty : rr.list ≠ [] := List.ne_nil_of_length_pos (Nat.lt_of_le_of_lt (Nat.zero_le _) bounded)
  simp only [getNext, List.isEmpty_eq_false_iff.mpr nonempty, Bool.false_eq_true, if_false,
    List.getElem?_eq_getElem bounded]

/-! ## The invariant -/

/-- The index map is on and has exactly the listed identifiers as keys, or it is off and empty. -/
def IndexMatches (useIndexMap : Bool) (indexMap list : List α) : Prop :=
  indexMap.Nodup ∧ (useIndexMap = true → ∀ x, x ∈ indexMap ↔ x ∈ list) ∧
    (useIndexMap = false → indexMap = [])

theorem indexMatches_off (list : List α) : IndexMatches false [] list :=
  ⟨List.nodup_nil, fun enabled => by simp at enabled, fun _ => rfl⟩

structure Wf (rr : RoundRobin α) : Prop where
  nodup : rr.list.Nodup
  nextIt_lt : rr.list ≠ [] → rr.nextIt < rr.list.length
  nextIt_zero : rr.list = [] → rr.nextIt = 0
  index : IndexMatches rr.useIndexMap rr.indexMap rr.list

theorem Wf.nextIt_le (wf : rr.Wf) : rr.nextIt ≤ rr.list.length := by
  by_cases empty : rr.list = []
  · rw [wf.nextIt_zero empty]; exact Nat.zero_le _
  · exact Nat.le_of_lt (wf.nextIt_lt empty)

theorem Wf.unindexed (wf : rr.Wf) (off : rr.useIndexMap = false) :
    { rr with indexMap := rr.indexMap.erase value } = rr := by
  have empty := wf.index.2.2 off
  cases rr
  simp only at empty ⊢
  rw [empty]
  rfl

theorem wf_empty : ({} : RoundRobin α).Wf :=
  ⟨List.nodup_nil, fun nonempty => absurd rfl nonempty, fun _ => rfl, indexMatches_off []⟩

theorem mem_buildIndex {x : α} : x ∈ rr.buildIndex ↔ x ∈ rr.indexMap ∨ x ∈ rr.list := by
  have folded : ∀ (values keys : List α),
      x ∈ values.foldl (fun keys value => keys.insert value) keys ↔ x ∈ keys ∨ x ∈ values := by
    intro values
    induction values with
    | nil => intro keys; simp
    | cons value values ih =>
      intro keys
      rw [List.foldl_cons, ih, List.mem_insert_iff, List.mem_cons]
      tauto
  exact folded rr.list rr.indexMap

theorem buildIndex_nodup (nodup : rr.indexMap.Nodup) : rr.buildIndex.Nodup := by
  have folded : ∀ (values keys : List α), keys.Nodup →
      (values.foldl (fun keys value => keys.insert value) keys).Nodup := by
    intro values
    induction values with
    | nil => intro keys nodup; exact nodup
    | cons value values ih => intro keys nodup; exact ih _ nodup.insert
  exact folded rr.list rr.indexMap nodup

theorem Wf.insert (wf : rr.Wf) (fresh : value ∉ rr.list) : (rr.insert value).Wf := by
  have le := wf.nextIt_le
  have grown := List.length_insertIdx_of_le_length le value
  have members : ∀ x, x ∈ rr.list.insertIdx rr.nextIt value ↔ x = value ∨ x ∈ rr.list :=
    fun x => List.mem_insertIdx le
  have index := @insert_index _ _ rr value
  obtain ⟨keysNodup, indexed, unindexed⟩ := wf.index
  refine ⟨?_, ?_, ?_, ?_⟩
  · rw [insert_list, (List.perm_insertIdx value rr.list le).nodup_iff]
    exact List.nodup_cons.mpr ⟨fresh, wf.nodup⟩
  · intro _
    rw [insert_nextIt, insert_list, grown]
    split
    · omega
    · have bounded := wf.nextIt_lt (by intro empty; simp [empty] at *)
      omega
  · intro empty
    rw [insert_list] at empty
    simp [empty] at grown
  · rw [insert_list]
    split_ifs at index with enabled large
    · obtain ⟨used, keys⟩ := Prod.mk.inj index
      rw [used, keys]
      refine ⟨keysNodup.insert, fun _ x => ?_, fun off => by simp at off⟩
      rw [List.mem_insert_iff, members, indexed enabled]
    · obtain ⟨used, keys⟩ := Prod.mk.inj index
      have empty := unindexed (by simpa using enabled)
      rw [used, keys]
      refine ⟨(buildIndex_nodup (by rw [empty]; exact List.nodup_nil)).insert, fun _ x => ?_,
        fun off => by simp at off⟩
      rw [List.mem_insert_iff, members, mem_buildIndex, empty]
      simp
    · obtain ⟨used, keys⟩ := Prod.mk.inj index
      have empty := unindexed (by simpa using enabled)
      rw [used, keys, empty]
      exact indexMatches_off _

theorem Wf.eraseAt (nodup : rr.list.Nodup) (bounded : rr.nextIt < rr.list.length)
    (inside : e < rr.list.length) (index : IndexMatches rr.useIndexMap rr.indexMap (rr.list.eraseIdx e)) :
    (rr.eraseAt e).Wf := by
  have shrunk := List.length_eraseIdx_of_lt inside
  refine ⟨?_, ?_, ?_, ?_⟩
  · rw [eraseAt_list]; exact nodup.sublist (List.eraseIdx_sublist _ _)
  · intro nonempty
    have positive : 0 < (rr.list.eraseIdx e).length := List.length_pos_of_ne_nil (by simpa using nonempty)
    rw [eraseAt_nextIt, eraseAt_list]
    split_ifs <;> omega
  · intro empty
    have none : (rr.list.eraseIdx e).length = 0 := by rw [← eraseAt_list, empty]; rfl
    rw [eraseAt_nextIt]
    split_ifs <;> omega
  · have pair := @eraseAt_index _ _ rr e
    rw [eraseAt_list]
    split_ifs at pair
    · obtain ⟨used, keys⟩ := Prod.mk.inj pair
      rw [used, keys]
      exact indexMatches_off _
    · obtain ⟨used, keys⟩ := Prod.mk.inj pair
      rw [used, keys]
      exact index

/-! ## Erasing by value

Both lookups, through the index map or by searching around the next iterator, find the one
position the identifier has. -/

theorem erase_of_not_mem (wf : rr.Wf) (absent : value ∉ rr.list) : rr.erase value = (rr, false) := by
  have missing : ∀ index, ¬ rr.list[index]? = some value :=
    fun index found => absent (List.mem_of_getElem? found)
  unfold erase
  split_ifs with empty enabled present next
  · rfl
  · exact absurd ((wf.index.2.1 enabled value).mp present) absent
  · rfl
  · exact absurd next (missing _)
  · have behind : (List.range rr.nextIt).reverse.find? (fun index => rr.list[index]? = some value) =
        none := List.find?_eq_none.mpr (fun index _ => by simpa using missing index)
    have ahead : (List.range' (rr.nextIt + 1) (rr.list.length - (rr.nextIt + 1))).find?
        (fun index => rr.list[index]? = some value) = none :=
      List.find?_eq_none.mpr (fun index _ => by simpa using missing index)
    rw [behind, ahead]

theorem erase_of_mem (wf : rr.Wf) (present : value ∈ rr.list) :
    rr.erase value =
      (({ rr with indexMap := rr.indexMap.erase value }).eraseAt (rr.list.idxOf value), true) := by
  have position := List.idxOf_lt_length_iff.mpr present
  have unique : ∀ index, rr.list[index]? = some value → index = rr.list.idxOf value := by
    intro index found
    obtain ⟨inside, same⟩ := List.getElem?_eq_some_iff.mp found
    rw [← same, wf.nodup.idxOf_getElem]
  unfold erase
  split_ifs with empty enabled member next
  · exact absurd present (by simp_all)
  · rfl
  · exact absurd ((wf.index.2.1 enabled value).mpr present) member
  · rw [eraseAt_nextIt_current_reset, wf.unindexed (by simpa using enabled), unique _ next]
  · have off : rr.useIndexMap = false := by simpa using enabled
    rw [wf.unindexed off]
    split
    · rename_i index behind
      have chosen := List.find?_some behind
      rw [unique index (by simpa using chosen)]
    · rename_i behind
      split
      · rename_i index ahead
        have chosen := List.find?_some ahead
        rw [unique index (by simpa using chosen)]
      · -- neither search missed it: it is behind or ahead of the next iterator
        rename_i ahead
        exfalso
        have located : rr.list[rr.list.idxOf value]? = some value := by
          rw [List.getElem?_eq_getElem position, List.getElem_idxOf]
        have other : rr.list.idxOf value ≠ rr.nextIt := fun same => next (same ▸ located)
        rcases Nat.lt_or_gt_of_ne other with before | after
        · exact List.find?_eq_none.mp behind (rr.list.idxOf value) (by simpa using before)
            (by simpa using located)
        · exact List.find?_eq_none.mp ahead (rr.list.idxOf value)
            (by simp only [List.mem_range'_1]; omega) (by simpa using located)

theorem Wf.erase (wf : rr.Wf) (value : α) : (rr.erase value).1.Wf := by
  by_cases present : value ∈ rr.list
  · have position := List.idxOf_lt_length_iff.mpr present
    have erased : rr.list.eraseIdx (rr.list.idxOf value) = rr.list.erase value := by
      conv_rhs => rw [← List.getElem_idxOf position]
      rw [wf.nodup.erase_getElem]
    obtain ⟨keysNodup, indexed, unindexed⟩ := wf.index
    rw [erase_of_mem wf present]
    refine Wf.eraseAt wf.nodup (wf.nextIt_lt (List.ne_nil_of_mem present)) position
      ⟨keysNodup.erase _, fun enabled x => ?_, fun off => by simp [unindexed off]⟩
    rw [erased, wf.nodup.mem_erase_iff, keysNodup.mem_erase_iff, indexed enabled]
  · rw [erase_of_not_mem wf present]
    exact wf

/-- Erasing takes the identifier out of the list, wherever it was. -/
theorem erase_list (wf : rr.Wf) (value : α) : (rr.erase value).1.list = rr.list.erase value := by
  by_cases present : value ∈ rr.list
  · have position := List.idxOf_lt_length_iff.mpr present
    rw [erase_of_mem wf present, eraseAt_list]
    conv_rhs => rw [← List.getElem_idxOf position]
    rw [wf.nodup.erase_getElem]
  · rw [erase_of_not_mem wf present, List.erase_of_not_mem present]

theorem erase_mode (wf : rr.Wf) (value : α) :
    (rr.erase value).1.advanceType = rr.advanceType ∧
      (rr.erase value).1.advanceAfter = rr.advanceAfter := by
  by_cases present : value ∈ rr.list
  · rw [erase_of_mem wf present]
    exact ⟨eraseAt_advanceType, eraseAt_advanceAfter⟩
  · rw [erase_of_not_mem wf present]
    exact ⟨rfl, rfl⟩

theorem Wf.consume (wf : rr.Wf) {bytes : Option Nat} {rr' : RoundRobin α}
    (consumed : rr.consume bytes = some rr') :
    rr'.Wf ∧ rr'.list = rr.list ∧ rr'.advanceType = rr.advanceType ∧
      rr'.advanceAfter = rr.advanceAfter := by
  by_cases empty : rr.list = []
  · simp [RoundRobin.consume, maybeAdvance, empty] at consumed
  · have bounded := wf.nextIt_lt empty
    rw [consume_eq bounded, Option.some.injEq] at consumed
    subst consumed
    by_cases ends : rr.advanceAfter ≤ rr.current + rr.charge bytes
    · rw [if_pos ends]
      refine ⟨⟨wf.nodup, fun _ => ?_, fun nonempty => absurd nonempty empty, wf.index⟩, rfl, rfl, rfl⟩
      show (if rr.nextIt + 1 = rr.list.length then 0 else rr.nextIt + 1) < rr.list.length
      split <;> omega
    · rw [if_neg ends]
      exact ⟨⟨wf.nodup, wf.nextIt_lt, wf.nextIt_zero, wf.index⟩, rfl, rfl, rfl⟩

theorem Wf.getNext (wf : rr.Wf) {bytes : Option Nat} {next : α} {rr' : RoundRobin α}
    (got : rr.getNext bytes = some (next, rr')) :
    rr'.Wf ∧ rr'.list = rr.list ∧ rr'.advanceType = rr.advanceType ∧
      rr'.advanceAfter = rr.advanceAfter := by
  by_cases empty : rr.list = []
  · simp [RoundRobin.getNext, empty] at got
  · rw [getNext_eq (wf.nextIt_lt empty), Option.map_eq_some_iff] at got
    obtain ⟨consumedTo, consumed, produced⟩ := got
    obtain ⟨-, rfl⟩ := Prod.mk.inj produced
    exact wf.consume consumed

theorem getNext_mem {bytes : Option Nat} {next : α} {rr' : RoundRobin α}
    (got : rr.getNext bytes = some (next, rr')) : next ∈ rr.list := by
  unfold getNext at got
  split at got
  · cases got
  · split at got
    · cases got
    · rename_i found
      obtain ⟨consumedTo, -, produced⟩ := Option.map_eq_some_iff.mp got
      obtain ⟨rfl, -⟩ := Prod.mk.inj produced
      exact List.mem_of_getElem? found

/-- `getNext` serves the identifier `peekNext` shows. -/
theorem peekNext_of_getNext {bytes : Option Nat} {next : α} {rr' : RoundRobin α}
    (got : rr.getNext bytes = some (next, rr')) : rr.peekNext = some next := by
  unfold getNext at got
  unfold peekNext
  split at got
  · cases got
  · rename_i nonempty
    rw [if_neg nonempty]
    split at got
    · cases got
    · rename_i found
      obtain ⟨consumedTo, -, produced⟩ := Option.map_eq_some_iff.mp got
      obtain ⟨rfl, -⟩ := Prod.mk.inj produced
      exact found

theorem peekNext_mem {next : α} (peeked : rr.peekNext = some next) : next ∈ rr.list := by
  unfold peekNext at peeked
  split at peeked
  · cases peeked
  · exact List.mem_of_getElem? peeked

/-- A round robin that lists an identifier shows one, serves one and takes a charge. -/
theorem Wf.peekNext_isSome (wf : rr.Wf) (nonempty : rr.list ≠ []) : rr.peekNext.isSome := by
  simp only [peekNext, List.isEmpty_eq_false_iff.mpr nonempty, Bool.false_eq_true, if_false,
    List.getElem?_eq_getElem (wf.nextIt_lt nonempty), Option.isSome_some]

theorem Wf.consume_isSome (wf : rr.Wf) (nonempty : rr.list ≠ []) (bytes : Option Nat) :
    (rr.consume bytes).isSome := by
  rw [consume_eq (wf.nextIt_lt nonempty)]
  rfl

theorem Wf.getNext_isSome (wf : rr.Wf) (nonempty : rr.list ≠ []) (bytes : Option Nat) :
    (rr.getNext bytes).isSome := by
  rw [getNext_eq (wf.nextIt_lt nonempty), Option.isSome_map]
  exact wf.consume_isSome nonempty bytes

theorem Wf.apply (wf : rr.Wf) {op : Op α} (allowed : rr.Admissible op) {out : Option α}
    {rr' : RoundRobin α} (applied : rr.apply op = some (out, rr')) : rr'.Wf := by
  cases op with
  | advanceAfterNext n =>
    obtain ⟨-, rfl⟩ := Prod.mk.inj (Option.some.inj applied)
    exact ⟨wf.nodup, wf.nextIt_lt, wf.nextIt_zero, wf.index⟩
  | advanceAfterBytes bytes =>
    obtain ⟨-, rfl⟩ := Prod.mk.inj (Option.some.inj applied)
    exact ⟨wf.nodup, wf.nextIt_lt, wf.nextIt_zero, wf.index⟩
  | insert value =>
    obtain ⟨-, rfl⟩ := Prod.mk.inj (Option.some.inj applied)
    exact wf.insert allowed
  | erase value =>
    obtain ⟨-, rfl⟩ := Prod.mk.inj (Option.some.inj applied)
    exact wf.erase value
  | getNext bytes =>
    obtain ⟨⟨next, got⟩, gotten, produced⟩ := Option.map_eq_some_iff.mp applied
    obtain ⟨-, rfl⟩ := Prod.mk.inj produced
    exact (wf.getNext gotten).1
  | consume bytes =>
    obtain ⟨consumedTo, consumed, produced⟩ := Option.map_eq_some_iff.mp applied
    obtain ⟨-, rfl⟩ := Prod.mk.inj produced
    exact (wf.consume consumed).1
  | clear =>
    obtain ⟨-, rfl⟩ := Prod.mk.inj (Option.some.inj applied)
    refine ⟨List.nodup_nil, fun nonempty => absurd rfl nonempty, fun _ => rfl, ?_⟩
    by_cases enabled : rr.useIndexMap
    · simpa [RoundRobin.clear, enabled] using indexMatches_off ([] : List α)
    · simpa [RoundRobin.clear, enabled, wf.index.2.2 (by simpa using enabled)] using
        indexMatches_off ([] : List α)

theorem reachable_empty : ({} : RoundRobin α).Reachable := TransitionSystem.Reachable.init rfl

theorem Reachable.insert {rr : RoundRobin α} (reachable : rr.Reachable) (fresh : value ∉ rr.list) :
    (rr.insert value).Reachable :=
  TransitionSystem.Reachable.step reachable (show rr.Admissible (.insert value) from fresh) rfl

theorem Reachable.wf {rr : RoundRobin α} (reachable : rr.Reachable) : rr.Wf := by
  refine TransitionSystem.Reachable.invariant (fun s fresh => ?_) (fun s s' op wf allowed stepped => ?_)
    reachable
  · rw [fresh]; exact wf_empty
  · obtain ⟨⟨out, applied⟩, found, produced⟩ := Option.map_eq_some_iff.mp stepped
    subst produced
    exact wf.apply allowed found

/-! ## The serving order

Read from the next iterator around, the list is a rotating queue whose head has used `current`
of its turn: each call acts on it as the queue's own operation. -/

/-- The identifiers in the order they will be served. -/
def turn (rr : RoundRobin α) : RotatingQueue.Turn α := ⟨rr.list.rotate rr.nextIt, rr.current⟩

theorem insert_turn (wf : rr.Wf) (value : α) : (rr.insert value).turn = rr.turn.push value := by
  simp only [turn, RotatingQueue.Turn.push, insert_list, insert_current, insert_nextIt,
    List.length_insertIdx_of_le_length wf.nextIt_le]
  by_cases empty : rr.list = []
  · simp [empty, wf.nextIt_zero empty]
  · have bounded := wf.nextIt_lt empty
    have several : rr.list.length + 1 ≠ 1 := by simpa using empty
    rw [if_neg several, RotatingQueue.rotate_insertIdx wf.nextIt_le]

theorem eraseAt_turn (nodup : rr.list.Nodup) (bounded : rr.nextIt < rr.list.length)
    (inside : e < rr.list.length) : (rr.eraseAt e).turn = rr.turn.remove rr.list[e] := by
  simp only [turn, RotatingQueue.Turn.remove, eraseAt_list, eraseAt_nextIt, eraseAt_current,
    List.head?_rotate bounded, List.getElem?_eq_getElem bounded, Option.some.injEq]
  by_cases next : e = rr.nextIt
  · subst next
    simp [RotatingQueue.rotate_eraseIdx_cursor bounded]
  · have other : rr.list[rr.nextIt] ≠ rr.list[e] := fun same => next ((nodup.getElem_inj_iff).mp same).symm
    simp only [next, if_false, other]
    rw [RotatingQueue.rotate_eraseIdx_of_ne nodup bounded inside]

theorem erase_turn (wf : rr.Wf) (value : α) : (rr.erase value).1.turn = rr.turn.remove value := by
  by_cases present : value ∈ rr.list
  · have position := List.idxOf_lt_length_iff.mpr present
    rw [erase_of_mem wf present]
    have removed : (({ rr with indexMap := rr.indexMap.erase value }).eraseAt
        (rr.list.idxOf value)).turn = rr.turn.remove rr.list[rr.list.idxOf value] :=
      @eraseAt_turn _ _ { rr with indexMap := rr.indexMap.erase value } _ wf.nodup
        (wf.nextIt_lt (List.ne_nil_of_mem present)) position
    rwa [List.getElem_idxOf] at removed
  · rw [erase_of_not_mem wf present]
    have absent : value ∉ rr.turn.order := by simpa [turn, List.mem_rotate] using present
    have notHead : rr.turn.order.head? ≠ some value := fun head => absent (List.mem_of_mem_head? head)
    simp only [RotatingQueue.Turn.remove, notHead, if_false, List.erase_of_not_mem absent]

theorem getNext_turn (wf : rr.Wf) (bytes : Option Nat) :
    (rr.getNext bytes).map (fun (next, rr') => (next, rr'.turn)) =
      rr.turn.serve rr.advanceAfter (rr.charge bytes) := by
  by_cases empty : rr.list = []
  · simp [getNext, empty, turn, RotatingQueue.Turn.serve]
  · have bounded := wf.nextIt_lt empty
    have order := RotatingQueue.rotate_eq_getElem_cons bounded
    rw [getNext_eq bounded, consume_eq bounded, Option.map_some, Option.map_some]
    by_cases ends : rr.advanceAfter ≤ rr.current + rr.charge bytes
    · -- the turn is used up: the next iterator moves on and the queue rotates
      have rotated : rr.list.rotate (if rr.nextIt + 1 = rr.list.length then 0 else rr.nextIt + 1) =
          rr.list.drop (rr.nextIt + 1) ++ rr.list.take rr.nextIt ++ [rr.list[rr.nextIt]] := by
        rw [RotatingQueue.rotate_advance, order, List.rotate_cons_succ, List.rotate_zero]
      simp only [turn, order, RotatingQueue.Turn.serve, if_pos ends, rotated]
    · simp only [turn, order, RotatingQueue.Turn.serve, if_neg ends]

/-! ## Runs of calls in advance-after-nexts mode -/

def Call.event : Call α → RotatingQueue.Event α
  | .insert value => .push value
  | .erase value => .remove value
  | .getNext _ => .serve 1

theorem charge_of_nexts (nexts : rr.advanceType = .nexts) (bytes : Option Nat) :
    rr.charge bytes = 1 := by
  simp [charge, nexts]

/-- Each call acts on the serving order as the queue's event for it. -/
theorem apply_call (wf : rr.Wf) (nexts : rr.advanceType = .nexts) {call : Call α}
    (allowed : rr.Admissible call.toOp) {next : Option α} {rr' : RoundRobin α}
    (applied : rr.apply call.toOp = some (next, rr')) (events : List (RotatingQueue.Event α)) :
    rr'.Wf ∧ rr'.advanceType = .nexts ∧ rr'.advanceAfter = rr.advanceAfter ∧
      RotatingQueue.Turn.run rr.advanceAfter rr.turn (call.event :: events) =
        (RotatingQueue.Turn.run rr.advanceAfter rr'.turn events).map
          fun (served, t) => (next.toList ++ served, t) := by
  have stays := wf.apply allowed applied
  cases call with
  | insert value =>
    obtain ⟨rfl, rfl⟩ := Prod.mk.inj (Option.some.inj applied)
    refine ⟨stays, by rw [insert_advanceType, nexts], insert_advanceAfter, ?_⟩
    simp [RotatingQueue.Turn.run, Call.event, insert_turn wf]
  | erase value =>
    obtain ⟨rfl, rfl⟩ := Prod.mk.inj (Option.some.inj applied)
    obtain ⟨mode, after⟩ := erase_mode wf value
    refine ⟨stays, mode.trans nexts, after, ?_⟩
    simp [RotatingQueue.Turn.run, Call.event, erase_turn wf]
  | getNext bytes =>
    obtain ⟨⟨served, got⟩, gotten, produced⟩ := Option.map_eq_some_iff.mp applied
    obtain ⟨rfl, rfl⟩ := Prod.mk.inj produced
    obtain ⟨-, -, mode, after⟩ := wf.getNext gotten
    have turned := getNext_turn wf bytes
    rw [gotten, Option.map_some, charge_of_nexts nexts] at turned
    refine ⟨stays, mode.trans nexts, after, ?_⟩
    simp [RotatingQueue.Turn.run, Call.event, ← turned]

/-- Along any calls the serving order runs as the rotating queue, serving what `getNext`
returns. -/
theorem exec_turn : ∀ (rr : RoundRobin α) (calls : List (Call α)) (served : List α)
    (rr' : RoundRobin α), rr.Wf → rr.advanceType = .nexts → rr.exec calls = some (served, rr') →
      RotatingQueue.Turn.run rr.advanceAfter rr.turn (calls.map Call.event) = some (served, rr'.turn)
  | rr, [], served, rr', _, _, ran => by
    obtain ⟨rfl, rfl⟩ := Prod.mk.inj (Option.some.inj ran)
    rfl
  | rr, call :: calls, served, rr', wf, nexts, ran => by
    simp only [exec] at ran
    split at ran
    · rename_i allowed
      obtain ⟨⟨next, stepped⟩, applied, rest⟩ := Option.bind_eq_some_iff.mp ran
      obtain ⟨⟨more, last⟩, ranOn, produced⟩ := Option.map_eq_some_iff.mp rest
      obtain ⟨rfl, rfl⟩ := Prod.mk.inj produced
      obtain ⟨wf', nexts', after, step⟩ := apply_call wf nexts allowed applied (calls.map Call.event)
      have later := exec_turn stepped calls more last wf' nexts' ranOn
      rw [after] at later
      rw [List.map_cons, step, later, Option.map_some]
    · cases ran

/-- Calls to `getNext` alone always succeed on a non-empty round-robin, and are unit serves. -/
theorem exec_getNexts : ∀ (rr : RoundRobin α) (calls : List (Option Nat)), rr.Wf →
    rr.advanceType = .nexts →
      (rr.exec (calls.map Call.getNext)).map (fun (served, rr') => (served, rr'.turn)) =
        RotatingQueue.Turn.run rr.advanceAfter rr.turn (List.replicate calls.length (.serve 1))
  | rr, [], _, _ => rfl
  | rr, bytes :: calls, wf, nexts => by
    have turned := getNext_turn wf bytes
    rw [charge_of_nexts nexts] at turned
    have allowed : rr.Admissible (Call.getNext bytes).toOp := trivial
    simp only [List.map_cons, List.length_cons, List.replicate_succ, exec, if_pos allowed,
      RotatingQueue.Turn.run, ← turned]
    cases got : rr.getNext bytes with
    | none => simp [Call.toOp, RoundRobin.apply, got]
    | some pair =>
      obtain ⟨next, stepped⟩ := pair
      obtain ⟨wf', -, mode, after⟩ := wf.getNext got
      have later := exec_getNexts stepped calls wf' (mode.trans nexts)
      rw [after] at later
      simp only [Call.toOp, RoundRobin.apply, got, Option.map_some, Option.bind_some, ← later,
        Option.map_map]
      rfl

/-- Fairness: `length * advanceAfter` calls of `getNext` serve each identifier `advanceAfter`
times. -/
theorem getNexts_serve_each (wf : rr.Wf) (nexts : rr.advanceType = .nexts)
    (positive : 1 ≤ rr.advanceAfter) (calls : List (Option Nat))
    (counted : calls.length = rr.list.length * rr.advanceAfter) :
    ∃ served rr', rr.exec (calls.map Call.getNext) = some (served, rr') ∧
      ∀ x, served.count x = if x ∈ rr.list then rr.advanceAfter else 0 := by
  obtain ⟨served, t', ran, counts⟩ := RotatingQueue.Turn.run_serves_each_quantum positive rr.turn
  have same := exec_getNexts rr calls wf nexts
  have length : rr.turn.order.length = rr.list.length := List.length_rotate _ _
  rw [counted, ← length, ran] at same
  obtain ⟨⟨served', rr'⟩, executed, produced⟩ := Option.map_eq_some_iff.mp same
  obtain ⟨rfl, -⟩ := Prod.mk.inj produced
  refine ⟨served', rr', executed, fun x => ?_⟩
  have once : (rr.list.rotate rr.nextIt).count x = if x ∈ rr.list.rotate rr.nextIt then 1 else 0 :=
    (List.nodup_rotate.mpr wf.nodup).count
  rw [counts, show rr.turn.order = rr.list.rotate rr.nextIt from rfl, once]
  by_cases listed : x ∈ rr.list <;> simp [listed]

/-- Liveness: an identifier inserted now is served within `advanceAfter` calls of `getNext`
per listed identifier, whatever is inserted, or erased other than it, meanwhile. -/
theorem inserted_served_within (wf : rr.Wf) (nexts : rr.advanceType = .nexts)
    (positive : 1 ≤ rr.advanceAfter) (fresh : value ∉ rr.list) (calls : List (Call α))
    (kept : ∀ call ∈ calls, call ≠ .erase value) {served : List α} {rr' : RoundRobin α}
    (ran : (rr.insert value).exec calls = some (served, rr'))
    (enough : (rr.insert value).list.length * rr.advanceAfter ≤ served.length) :
    value ∈ served.take ((rr.insert value).list.length * rr.advanceAfter) := by
  have run := exec_turn _ calls served rr' (wf.insert fresh) (by rw [insert_advanceType, nexts]) ran
  rw [insert_turn wf, insert_advanceAfter] at run
  have length : (rr.insert value).list.length = rr.turn.order.length + 1 := by
    rw [insert_list, List.length_insertIdx_of_le_length wf.nextIt_le]
    simp [turn]
  have keeps : ∀ event ∈ calls.map Call.event, event.Keeps value := by
    intro event member
    obtain ⟨call, inside, rfl⟩ := List.mem_map.mp member
    cases call with
    | insert other => trivial
    | erase other => exact fun same => kept _ inside (same ▸ rfl)
    | getNext bytes => rfl
  rw [length] at enough ⊢
  exact RotatingQueue.Turn.run_serves_pushed_within positive rr.turn value
    (by simpa [turn, List.mem_rotate] using fresh) _ keeps served rr'.turn run enough

theorem roundRobin_fair_and_live :
    (∀ rr : RoundRobin α, rr.Reachable → rr.advanceType = .nexts → 1 ≤ rr.advanceAfter →
      ∀ calls : List (Option Nat), calls.length = rr.list.length * rr.advanceAfter →
        ∃ served rr', rr.exec (calls.map Call.getNext) = some (served, rr') ∧
          ∀ x, served.count x = if x ∈ rr.list then rr.advanceAfter else 0) ∧
    (∀ rr : RoundRobin α, rr.Reachable → ∀ bytes : Option Nat,
      (rr.list ≠ [] → ∃ next rr', rr.getNext bytes = some (next, rr')) ∧
      ∀ next rr', rr.getNext bytes = some (next, rr') → next ∈ rr.list) ∧
    (∀ rr : RoundRobin α, rr.Reachable → rr.advanceType = .nexts → 1 ≤ rr.advanceAfter →
      ∀ value, value ∉ rr.list → ∀ (calls : List (Call α)) served rr',
        (∀ call ∈ calls, call ≠ .erase value) → (rr.insert value).exec calls = some (served, rr') →
        (rr.insert value).list.length * rr.advanceAfter ≤ served.length →
        value ∈ served.take ((rr.insert value).list.length * rr.advanceAfter)) := by
  refine ⟨fun rr reachable nexts positive calls counted => ?_, fun rr reachable bytes => ⟨?_, ?_⟩,
    fun rr reachable nexts positive value fresh calls served rr' kept ran enough => ?_⟩
  · exact getNexts_serve_each reachable.wf nexts positive calls counted
  · intro nonempty
    have bounded := reachable.wf.nextIt_lt nonempty
    rw [getNext_eq bounded, consume_eq bounded, Option.map_some]
    exact ⟨_, _, rfl⟩
  · intro next rr' got
    exact getNext_mem got
  · exact inserted_served_within reachable.wf nexts positive fresh calls kept ran enough

theorem roundRobin_fair_and_live_third :
    let rr := (({} : RoundRobin Nat).insert 1).insert 2
    let calls := [Call.getNext none, .erase 4, .insert 5, .getNext none, .getNext none]
    rr.Reachable ∧ rr.advanceType = .nexts ∧ 1 ≤ rr.advanceAfter ∧ 3 ∉ rr.list ∧
      (rr.insert 3).exec calls = some ([1, 2, 3], { list := [5, 2, 3, 1], nextIt := 3 }) ∧
      (rr.insert 3).list.length * rr.advanceAfter ≤ 3 ∧
      3 ∈ ([1, 2, 3] : List Nat).take ((rr.insert 3).list.length * rr.advanceAfter) := by
  intro rr calls
  have reachable : rr.Reachable := (reachable_empty.insert (by decide)).insert (by decide)
  have ran : (rr.insert 3).exec calls = some ([1, 2, 3], { list := [5, 2, 3, 1], nextIt := 3 }) := by
    decide
  exact ⟨reachable, rfl, le_refl 1, by decide, ran, by decide,
    roundRobin_fair_and_live.2.2 rr reachable rfl (le_refl 1) 3 (by decide) calls [1, 2, 3] _
      (by decide) ran (by decide)⟩

end RoundRobin

end Mvfst.Priority
