import Mvfst.Priority.RoundRobin
import Mvfst.Lib.BinaryHeap
import Mvfst.Lib.WordBits
import Mathlib.Data.Prod.Lex
import Mathlib.Data.List.FinRange

/-!
# The HTTP priority queue

`HTTPPriorityQueue` of `quic/priority/HTTPPriorityQueue.{h,cpp}`: sequential identifiers in a
binary min-heap `heap_` ordered by `Element::operator<`, incremental identifiers in eight
`RoundRobin`s, one per urgency, and an index map from identifiers to their round robin or heap
position. The heap part of the index map is only kept while `useIndexMapForSequential_` is set:
it is built when an insertion finds at least 100 heap elements, and dropped when an erasure leaves
fewer than 50.

`std::array<RoundRobin, 8>` is a function of `Fin 8`; `roundRobins_[index]` with `index : Nat` is
read at `Fin.ofNat 8 index`, which is `index` at every call (the index map only holds urgencies,
and the scheduler only reads below `8`). The hash map is a function to `Option`, its iterator the
key it was found at. The loops of `heapifyUp` and `heapifyDown` take a fuel that their index
bounds (an index strictly falls, or strictly rises below the size, at each exchange). The `CHECK`
of `assignIndex` (a heap element is never incremental) is not evaluated: the invariant
`Wf.sequential` shows it holds. The `CHECK` of `top` (the queue is not empty) is `none`.
-/

namespace Mvfst.Priority

set_option linter.dupNamespace false

/-- `PriorityQueue::Identifier`: its top two bits give its type. -/
structure Identifier where
  value : UInt64
  deriving DecidableEq, Repr

namespace Identifier

def kTypeShift : UInt64 := 56

def kTypeMask : UInt64 := 0xC0 <<< kTypeShift

/-- The identifier without its type bits: a stream and a datagram flow may share it. -/
def asUint64 (id : Identifier) : UInt64 := id.value &&& ~~~kTypeMask

end Identifier

namespace HTTPPriorityQueue

def kBuildIndexThreshold : Nat := 100

def kDestroyIndexThreshold : Nat := 50

/-- The fields of `HTTPPriorityQueue::Priority` (`HTTPPriority`, bit fields of 3, 1, 1, 32 and
1 bits). A base priority that was never set reads as all ones, so as `uninitialized`. -/
structure Priority where
  urgency : Fin 8
  paused : Bool
  incremental : Bool
  order : UInt32
  uninitialized : Bool
  deriving DecidableEq, Repr

namespace Priority

def kDefaultPriority : Priority := ⟨3, false, true, 0, false⟩

/-- `Priority(const PriorityQueue::Priority&)`: an unset priority becomes the default one. -/
def ofBase (basePriority : Priority) : Priority :=
  if basePriority.uninitialized then kDefaultPriority else basePriority

/-- `Priority(uint8_t u, bool i, OrderId o = 0)`: an incremental priority has no order. The
urgency field keeps the low three bits of `u`. -/
def make (u : Nat) (i : Bool) (o : UInt32) : Priority :=
  ⟨Fin.ofNat 8 u, false, i, if i then 0 else o, false⟩

/-- `Priority(PAUSED)`. -/
def ofPaused : Priority := { make 7 true 0 with paused := true }

def toUint64Static (fields : Priority) : UInt64 :=
  (UInt64.ofNat fields.urgency.val <<< 61) ||| (fields.paused.toUInt64 <<< 60) |||
    (fields.incremental.toUInt64 <<< 59) ||| (fields.order.toUInt64 <<< 27)

def toUint64 (p : Priority) : UInt64 :=
  if p.uninitialized then toUint64Static kDefaultPriority else toUint64Static p

end Priority

/-- A heap element. -/
structure Element where
  priority : Priority
  identifier : Identifier
  deriving DecidableEq, Repr

namespace Element

/-- `Element::operator<`: by priority, then, between equal sequential priorities, by identifier. -/
def lt (a other : Element) : Bool :=
  if a.priority.toUint64 < other.priority.toUint64 then true
  else if other.priority.toUint64 < a.priority.toUint64 || other.priority.incremental then false
  else a.identifier.asUint64 < other.identifier.asUint64

/-- `Element::operator<=`. -/
def le (a other : Element) : Bool := !other.lt a

end Element

/-- `IndexMapElem`: a round robin's urgency, or a heap position. -/
structure IndexMapElem where
  incremental : Bool
  index : Nat
  deriving DecidableEq, Repr

/-- What `find` returns: the entry, and whether it came from the index map
(`indexIt != indexMap_.end()`). -/
structure FindResult where
  elem : IndexMapElem
  indexed : Bool
  deriving DecidableEq, Repr

end HTTPPriorityQueue

open HTTPPriorityQueue in
structure HTTPPriorityQueue where
  heap : List Element := []
  indexMap : Identifier → Option IndexMapElem := fun _ => none
  roundRobins : Fin 8 → RoundRobin Identifier := fun _ => {}
  erased : List Element := []
  roundRobinElements : Nat := 0
  lowestRoundRobin : Nat := 8
  hasOpenTransaction : Bool := false
  useIndexMapForSequential : Bool := false

namespace HTTPPriorityQueue

variable (q : HTTPPriorityQueue)

/-- `roundRobins_[index]`. -/
def roundRobinAt (index : Nat) : RoundRobin Identifier := q.roundRobins (Fin.ofNat 8 index)

def setRoundRobin (index : Nat) (rr : RoundRobin Identifier) : HTTPPriorityQueue :=
  { q with roundRobins := Function.update q.roundRobins (Fin.ofNat 8 index) rr }

def empty : Bool := q.heap.isEmpty && q.roundRobinElements == 0

def find (id : Identifier) : Option FindResult :=
  match q.indexMap id with
  | some elem => some ⟨elem, true⟩
  | none =>
    if !q.useIndexMapForSequential then
      -- linear search of the heap
      match q.heap.findIdx? (fun elem => !elem.priority.incremental && elem.identifier == id) with
      | some i => some ⟨⟨false, i⟩, false⟩
      | none => none
    else none

def contains (id : Identifier) : Bool := (q.find id).isSome

def addIndex (id : Identifier) (indexElem : IndexMapElem) : HTTPPriorityQueue :=
  if q.useIndexMapForSequential || indexElem.incremental then
    { q with indexMap := Function.update q.indexMap id (some indexElem) }
  else q

/-- `removeIndex(it)` for the iterator `find` returned for `id`: it still points at `id`'s entry,
whose value may have changed since. -/
def removeIndex (id : Identifier) (indexed : Bool) : HTTPPriorityQueue :=
  if indexed then
    match q.indexMap id with
    | some elem =>
      if q.useIndexMapForSequential || elem.incremental then
        { q with indexMap := Function.update q.indexMap id none }
      else q
    | none => q
  else q

def buildSequentialIndex : HTTPPriorityQueue :=
  q.heap.zipIdx.foldl
    (fun q (elem, i) => if !elem.priority.incremental then q.addIndex elem.identifier ⟨false, i⟩ else q) q

def destroySequentialIndex : HTTPPriorityQueue :=
  { q with
    indexMap := fun id =>
      match q.indexMap id with
      | some elem => if elem.incremental then some elem else none
      | none => none
    useIndexMapForSequential := false }

def assignIndex (element : Element) (index : Nat) : HTTPPriorityQueue :=
  q.addIndex element.identifier ⟨false, index⟩

/-- `index < heap_.size() && heap_[index] < heap_[other]`. -/
def lessAt (heap : List Element) (index other : Nat) : Bool :=
  match heap[index]?, heap[other]? with
  | some a, some b => a.lt b
  | _, _ => false

/-- The loop of `heapifyUp`: the element at `index` goes up while its parent is after it. -/
def heapifyUpLoop : Nat → HTTPPriorityQueue → Nat → HTTPPriorityQueue
  | 0, q, _ => q
  | fuel + 1, q, index =>
    if index = 0 then q
    else
      let parentIndex := (index - 1) / 2
      match q.heap[parentIndex]?, q.heap[index]? with
      | some parent, some child =>
        if parent.le child then q
        else
          -- after the exchange `child` is at `parentIndex` and `parent` at `index`
          heapifyUpLoop fuel
            (({ q with heap := q.heap.swap parentIndex index }.assignIndex child parentIndex).assignIndex
              parent index)
            parentIndex
      | _, _ => q

def heapifyUp (index : Nat) : HTTPPriorityQueue := heapifyUpLoop index q index

/-- The first lines of the loop of `heapifyDown`: `index`, or its least child when that child is
before it. -/
def smallestOf (heap : List Element) (index : Nat) : Nat :=
  let leftChildIndex := 2 * index + 1
  let rightChildIndex := 2 * index + 2
  let smallest := if lessAt heap leftChildIndex index then leftChildIndex else index
  if lessAt heap rightChildIndex smallest then rightChildIndex else smallest

/-- The loop of `heapifyDown`: the element at `index` goes down while a child is before it, in
exchange for the least child. -/
def heapifyDownLoop : Nat → HTTPPriorityQueue → Nat → HTTPPriorityQueue
  | 0, q, _ => q
  | fuel + 1, q, index =>
    let smallest := smallestOf q.heap index
    if smallest = index then q
    else
      match q.heap[smallest]?, q.heap[index]? with
      | some low, some high =>
        -- after the exchange `high` is at `smallest` and `low` at `index`
        heapifyDownLoop fuel
          (({ q with heap := q.heap.swap smallest index }.assignIndex high smallest).assignIndex
            low index)
          smallest
      | _, _ => q

def heapifyDown (index : Nat) : HTTPPriorityQueue := heapifyDownLoop q.heap.length q index

def insert (id : Identifier) (priority : Priority) : HTTPPriorityQueue :=
  let q := if !q.useIndexMapForSequential && decide (q.heap.length ≥ kBuildIndexThreshold) then
      { q with useIndexMapForSequential := true }.buildSequentialIndex
    else q
  if priority.incremental then
    let q := { q.setRoundRobin priority.urgency.val ((q.roundRobinAt priority.urgency.val).insert id)
                with roundRobinElements := q.roundRobinElements + 1 }
    let q := q.addIndex id ⟨true, priority.urgency.val⟩
    if priority.urgency.val < q.lowestRoundRobin then { q with lowestRoundRobin := priority.urgency.val }
    else q
  else
    let q := { q with heap := q.heap ++ [Element.mk priority id] }
    let index := q.heap.length - 1
    (q.addIndex id ⟨false, index⟩).heapifyUp index

/-- `updateInSequential`: `some` when it handled the update (a no-op, or a sequential priority
changed in place), `none` when the caller has to erase and insert again. -/
def updateInSequential (indexElem : IndexMapElem) (priority : Priority) :
    Option HTTPPriorityQueue :=
  if priority.paused then none
  else if indexElem.incremental || priority.incremental then
    if indexElem.incremental && priority.incremental then
      if indexElem.index = priority.urgency.val then some q else none
    else none
  else
    match q.heap[indexElem.index]? with
    | some elem =>
      if elem.priority.toUint64 = priority.toUint64 then some q
      else
        let updated := { q with heap := q.heap.set indexElem.index { elem with priority } }
        if priority.toUint64 < elem.priority.toUint64 then some (updated.heapifyUp indexElem.index)
        else some (updated.heapifyDown indexElem.index)
    | none => some q

/-- The loop of `eraseImpl` that moves `lowestRoundRobin_` past the empty round robins. -/
def skipEmptyRoundRobins (roundRobins : Fin 8 → RoundRobin Identifier) : Nat → Nat → Nat
  | 0, lowest => lowest
  | fuel + 1, lowest =>
    if inside : lowest < 8 then
      if (roundRobins ⟨lowest, inside⟩).empty then skipEmptyRoundRobins roundRobins fuel (lowest + 1)
      else lowest
    else lowest

def eraseImpl (id : Identifier) (indexElem : IndexMapElem) : HTTPPriorityQueue :=
  let index := indexElem.index
  if indexElem.incremental then
    let rr := ((q.roundRobinAt index).erase id).1
    let q := { q.setRoundRobin index rr with roundRobinElements := q.roundRobinElements - 1 }
    if index = q.lowestRoundRobin && rr.empty then
      { q with lowestRoundRobin := skipEmptyRoundRobins q.roundRobins 8 q.lowestRoundRobin }
    else q
  else
    let lastIndex := q.heap.length - 1
    match q.heap[lastIndex]? with
    | some last =>
      -- the last element moves to `index`, then the last position goes
      let q := { q with heap := q.heap.swap index lastIndex }.assignIndex last index
      let q := { q with heap := q.heap.dropLast }
      if index ≠ lastIndex then
        if index > 0 && lessAt q.heap index ((index - 1) / 2) then q.heapifyUp index
        else q.heapifyDown index
      else q
    | none => q

def insertOrUpdate (id : Identifier) (basePriority : Priority) : HTTPPriorityQueue :=
  let priority := Priority.ofBase basePriority
  let insertUnlessPaused (q : HTTPPriorityQueue) := if !priority.paused then q.insert id priority else q
  match q.find id with
  | some findResult =>
    match q.updateInSequential findResult.elem priority with
    | some updated => updated
    | none =>
      -- moving in or out of a round robin: erase, then insert again
      insertUnlessPaused ((q.eraseImpl id findResult.elem).removeIndex id findResult.indexed)
  | none => insertUnlessPaused q

def updateIfExist (id : Identifier) (basePriority : Priority) : HTTPPriorityQueue :=
  let priority := Priority.ofBase basePriority
  match q.find id with
  | none => q
  | some findResult =>
    match q.updateInSequential findResult.elem priority with
    | some updated => updated
    | none =>
      let wasIncremental := findResult.elem.incremental
      let q := q.eraseImpl id findResult.elem
      if priority.paused then q.removeIndex id findResult.indexed
      else
        -- otherwise `insert` overwrites the entry, unless it will not index a sequential one
        let q := if wasIncremental && !priority.incremental && !q.useIndexMapForSequential then
            q.removeIndex id findResult.indexed
          else q
        q.insert id priority

def erase (id : Identifier) : HTTPPriorityQueue :=
  let q := match q.find id with
    | some findResult =>
      let priority :=
        if findResult.elem.incremental then Priority.make findResult.elem.index true 0
        else
          match q.heap[findResult.elem.index]? with
          | some elem => elem.priority
          | none => Priority.make 0 false 0
      let q := if q.hasOpenTransaction then { q with erased := q.erased ++ [Element.mk priority id] } else q
      (q.eraseImpl id findResult.elem).removeIndex id findResult.indexed
    | none => q
  if q.useIndexMapForSequential && decide (q.heap.length < kDestroyIndexThreshold) then
    q.destroySequentialIndex
  else q

def clear : HTTPPriorityQueue :=
  { q with
    heap := []
    indexMap := fun _ => none
    useIndexMapForSequential := false
    roundRobins := fun u => (q.roundRobins u).clear
    roundRobinElements := 0
    lowestRoundRobin := 8 }

/-- `top()`: `some none` is the null pointer (the lowest round robin goes first), `none` the
failed `CHECK` of an empty queue. -/
def top : Option (Option Element) :=
  let topPri := match q.heap.head? with
    | some topElem => topElem.priority.urgency.val
    | none => 8
  if q.lowestRoundRobin < topPri && !(q.roundRobinAt q.lowestRoundRobin).empty then some none
  else
    match q.heap.head? with
    | some topElem => some (some topElem)
    | none => none

def getNextScheduledID (previousConsumed : Option Nat) : Option (Identifier × HTTPPriorityQueue) :=
  match q.top with
  | some (some elem) => some (elem.identifier, q)
  | some none =>
    ((q.roundRobinAt q.lowestRoundRobin).getNext previousConsumed).map fun (id, rr) =>
      (id, q.setRoundRobin q.lowestRoundRobin rr)
  | none => none

def peekNextScheduledID : Option Identifier :=
  match q.top with
  | some (some elem) => some elem.identifier
  | some none => (q.roundRobinAt q.lowestRoundRobin).peekNext
  | none => none

def consume (consumed : Option Nat) : Option HTTPPriorityQueue :=
  match q.top with
  | some (some _) => some q
  | some none =>
    ((q.roundRobinAt q.lowestRoundRobin).consume consumed).map (q.setRoundRobin q.lowestRoundRobin)
  | none => none

def headPriority : Option Priority :=
  match q.top with
  | some (some elem) => some elem.priority
  | some none => some (Priority.make q.lowestRoundRobin true 0)
  | none => none

/-- Re-inserts every identifier erased since `beginTransaction`, at its priority then. -/
def rollbackTransaction : HTTPPriorityQueue :=
  if q.hasOpenTransaction then
    let q := q.erased.foldl (fun q e => q.insert e.identifier e.priority) q
    { q with erased := [], hasOpenTransaction := false }
  else q

def beginTransaction : HTTPPriorityQueue :=
  let q := if q.hasOpenTransaction then q.rollbackTransaction else q
  { q with hasOpenTransaction := true }

def commitTransaction : HTTPPriorityQueue :=
  if q.hasOpenTransaction then { q with hasOpenTransaction := false, erased := [] } else q

def advanceAfterNext (n : Nat) : HTTPPriorityQueue :=
  { q with roundRobins := fun u => (q.roundRobins u).advanceAfterNext n }

def advanceAfterBytes (bytes : Nat) : HTTPPriorityQueue :=
  { q with roundRobins := fun u => (q.roundRobins u).advanceAfterBytes bytes }

/-! ## Priorities as numbers, and the order of the heap -/

namespace Priority

theorem toNat_toUInt64 (b : Bool) : b.toUInt64.toNat = b.toNat := by
  cases b <;> rfl

/-- The fields sit in disjoint bits: urgency, paused and incremental on top, the order below. -/
theorem toUint64Static_toNat (fields : Priority) :
    fields.toUint64Static.toNat =
      2 ^ 59 * (4 * fields.urgency.val + 2 * fields.paused.toNat + fields.incremental.toNat) +
        2 ^ 27 * fields.order.toNat := by
  have urgency := fields.urgency.isLt
  have order := fields.order.toNat_lt
  have paused := Bool.toNat_le fields.paused
  have incremental := Bool.toNat_le fields.incremental
  have urgencyBits : (UInt64.ofNat fields.urgency.val <<< 61).toNat = fields.urgency.val * 2 ^ 61 := by
    rw [WordBits.toNat_shiftLeft_of_fits] <;> simp <;> omega
  have pausedBits : (fields.paused.toUInt64 <<< 60).toNat = fields.paused.toNat * 2 ^ 60 := by
    rw [WordBits.toNat_shiftLeft_of_fits] <;> simp [toNat_toUInt64]
    omega
  have incrementalBits : (fields.incremental.toUInt64 <<< 59).toNat = fields.incremental.toNat * 2 ^ 59 := by
    rw [WordBits.toNat_shiftLeft_of_fits] <;> simp [toNat_toUInt64]
    omega
  have orderBits : (fields.order.toUInt64 <<< 27).toNat = fields.order.toNat * 2 ^ 27 := by
    rw [WordBits.toNat_shiftLeft_of_fits] <;> simp
    omega
  rw [toUint64Static, UInt64.toNat_or, UInt64.toNat_or, UInt64.toNat_or, urgencyBits, pausedBits,
    incrementalBits, orderBits]
  -- each field is below the lowest bit of the fields before it
  have top : fields.urgency.val * 2 ^ 61 ||| fields.paused.toNat * 2 ^ 60 =
      2 ^ 60 * (2 * fields.urgency.val + fields.paused.toNat) := by
    rw [show fields.urgency.val * 2 ^ 61 = 2 ^ 61 * fields.urgency.val by omega,
      ← Nat.two_pow_add_eq_or_of_lt (by omega : fields.paused.toNat * 2 ^ 60 < 2 ^ 61)]
    omega
  have middle : 2 ^ 60 * (2 * fields.urgency.val + fields.paused.toNat) |||
      fields.incremental.toNat * 2 ^ 59 =
      2 ^ 59 * (4 * fields.urgency.val + 2 * fields.paused.toNat + fields.incremental.toNat) := by
    rw [← Nat.two_pow_add_eq_or_of_lt (by omega : fields.incremental.toNat * 2 ^ 59 < 2 ^ 60)]
    omega
  rw [top, middle, ← Nat.two_pow_add_eq_or_of_lt (by omega : fields.order.toNat * 2 ^ 27 < 2 ^ 59)]
  omega

end Priority

end HTTPPriorityQueue

end Mvfst.Priority
