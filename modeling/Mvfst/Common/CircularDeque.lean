import Mathlib

/-!
`CircularDeque<T>` of `quic/common/CircularDeque.h`: a ring of `capacity_` slots of which
`[begin_, end_)` (taken around the ring) hold the elements, one slot always left free so that a
full ring and an empty one differ. The end index has two encodings of the wrap point:
`end_ == capacity_` after a push at the last slot, and `end_ == 0` once it has wrapped.

A slot is `some` while it holds a live element and `none` once destroyed or never constructed, so
reading a slot outside the live range is visible in the model. Iteration follows the iterator's
`increment`, whose wrap depends on whether `begin_ > end_`.
-/

namespace Mvfst

def kInitCapacity : Nat := 10

/-- `growCapacity`: `kGrowthNumerator / kGrowthDenominator` = 3 / 2. -/
def growCapacity (currentCapacity : Nat) : Nat := currentCapacity * 3 / 2

structure CircularDeque (α : Type) where
  storage : List (Option α) := []
  capacity : Nat := 0
  begin : Nat := 0
  «end» : Nat := 0
  deriving DecidableEq, Repr

namespace CircularDeque

variable {α : Type} (d : CircularDeque α)

def empty : Bool := d.begin == d.end

/-- `size()`: in `size_t`, `end_ - begin_` wraps when `end_ < begin_` and adding `capacity_`
brings it back. -/
def size : Nat := if d.end < d.begin then d.end + d.capacity - d.begin else d.end - d.begin

def maxSize : Nat := if d.capacity = 0 then 0 else d.capacity - 1

def needSpace : Bool := d.size == d.maxSize

/-- The iterator's `wrapped()`. -/
def wrapped : Bool := decide (d.begin > d.end)

/-- The iterator's `increment()` on an index. -/
def increment (index : Nat) : Nat :=
  let index := index + 1
  let index := if index > d.capacity then 0 else index
  if d.wrapped = true ∧ index = d.capacity then 0 else index

/-- The iterator's `advance(n)` for `n ≥ 0`. -/
def advance (index n : Nat) : Nat :=
  if n = 0 then index else (index + n) % (if d.wrapped then d.capacity else d.capacity + 1)

/-- The iterator's `decrement()` on an index. -/
def decrement (index : Nat) : Nat :=
  if index = 0 then (if d.wrapped then d.capacity - 1 else d.capacity) else index - 1

/-- The iterator's `advance(-n)`: `n` decrements. -/
def retreat (index : Nat) : Nat → Nat
  | 0 => index
  | n + 1 => retreat (d.decrement index) n

/-- `iterator + n` for a signed `n`. -/
def advanceBy (index : Nat) (n : Int) : Nat :=
  if 0 ≤ n then d.advance index n.toNat else d.retreat index n.natAbs

def wrappedDistance (first last : Nat) : Nat :=
  if last ≥ first then last - first else d.capacity - first + last

/-- The iterator's `distance_to(other)`: on a wrapped deque, two indices on the same side of the
wrap compare as numbers, and otherwise the other way round. -/
def distanceTo (index other : Nat) : Int :=
  if index = other then 0
  else
    let backward := if d.wrapped then
        if (index ≥ d.begin ∧ other ≥ d.begin) ∨ (index ≤ d.end ∧ other ≤ d.end) then index > other
        else index < other
      else index > other
    if backward then -(d.wrappedDistance other index : Int) else d.wrappedDistance index other

/-- `iterator - other`. -/
def difference (index other : Nat) : Int := -d.distanceTo index other

def read (index : Nat) : Option α := d.storage.getD index none

/-- The indices an iterator visits from `index` until it equals `last`, stepping with
`increment`; the walk is cut after `fuel` steps. -/
def walk (last : Nat) : Nat → Nat → List Nat
  | 0, _ => []
  | fuel + 1, index => if index = last then [] else index :: walk last fuel (d.increment index)

/-- The slots from `begin()` to `end()`: every walk over a deque ends within `capacity_ + 1`
steps. -/
def slots : List Nat := d.walk d.end (d.capacity + 1) d.begin

/-- What iterating `begin()..end()` reads. -/
def toList : List (Option α) := d.slots.map d.read

/-- `operator[]`; `none` is the failed `CHECK_LT`. -/
def get (index : Nat) : Option α := if index < d.size then d.read (d.advance d.begin index) else none

def front : Option α := d.read d.begin

def back : Option α := d.read ((if d.end = 0 then d.capacity else d.end) - 1)

/-- `resize(count)`: the elements move to a new storage of `count + 1` slots from slot 0. (With
`count < size()` the source moves past the new storage; the model keeps its slots.) -/
def resize (count : Nat) : CircularDeque α :=
  if d.maxSize = count then d
  else
    let newCapacity := count + 1
    { storage := (d.toList ++ List.replicate newCapacity none).take newCapacity,
      capacity := newCapacity, begin := 0, «end» := min count d.size }

/-- The resize that `emplace_front` and `emplace_back` make when the ring is full. -/
def growIfNeeded : CircularDeque α :=
  if d.needSpace then d.resize (if d.capacity = 0 then kInitCapacity else growCapacity d.capacity) else d

def emplaceBack (value : α) : CircularDeque α :=
  let d := d.growIfNeeded
  let last := if d.end = d.capacity then 0 else d.end
  { d with storage := d.storage.set last (some value), «end» := last + 1 }

def emplaceFront (value : α) : CircularDeque α :=
  let d := d.growIfNeeded
  let begin := if d.begin = 0 then d.capacity - 1 else d.begin - 1
  { d with storage := d.storage.set begin (some value), begin }

def pushBack (value : α) : CircularDeque α := d.emplaceBack value

def pushFront (value : α) : CircularDeque α := d.emplaceFront value

def popFront : CircularDeque α :=
  let storage := d.storage.set d.begin none
  if d.begin + 1 = d.capacity then
    { d with storage, begin := 0, «end» := if d.end = d.capacity then 0 else d.end }
  else { d with storage, begin := d.begin + 1 }

def popBack : CircularDeque α :=
  let last := (if d.end = 0 then d.capacity else d.end) - 1
  { d with storage := d.storage.set last none, «end» := last }

/-- The storage with the given slots destroyed. -/
def destroy (storage : List (Option α)) (indices : List Nat) : List (Option α) :=
  indices.foldl (fun storage index => storage.set index none) storage

/-- `clear()`: destroys the elements and rewinds both indices, but returns at once on an empty
deque, whose indices stay where they are. -/
def clear : CircularDeque α :=
  if d.empty = true ∨ d.capacity = 0 then d
  else { d with storage := destroy d.storage d.slots, begin := 0, «end» := 0 }

/-- The loop of `moveOrCopy`: element by element from `iter` until `last`, the destination
stepping by hand to slot 0 after the last slot. A moved-from slot keeps its value. -/
def moveOrCopyLoop (last : Nat) : Nat → List (Option α) → Nat → Nat → List (Option α)
  | 0, storage, _, _ => storage
  | fuel + 1, storage, iter, destFirst =>
    if iter = last then storage
    else
      moveOrCopyLoop last fuel (storage.set destFirst (storage.getD iter none)) (d.increment iter)
        (if destFirst = d.capacity - 1 then 0 else destFirst + 1)

def moveOrCopy (storage : List (Option α)) (first last destFirst : Nat) : List (Option α) :=
  if first = last ∨ first = destFirst then storage
  else d.moveOrCopyLoop last (d.capacity + 1) storage first destFirst

/-- The loop of `reverseMoveOrCopy`: from `last` back to `first`, each element to the slot
before the destination. -/
def reverseMoveOrCopyLoop (first : Nat) : Nat → List (Option α) → Nat → Nat → List (Option α)
  | 0, storage, _, _ => storage
  | fuel + 1, storage, iter, destLast =>
    if iter = first then storage
    else
      let destLast := if destLast = 0 then d.capacity - 1 else destLast - 1
      let iter := d.decrement iter
      reverseMoveOrCopyLoop first fuel (storage.set destLast (storage.getD iter none)) iter destLast

def reverseMoveOrCopy (storage : List (Option α)) (first last destLast : Nat) : List (Option α) :=
  if first = last ∨ last = destLast then storage
  else d.reverseMoveOrCopyLoop first (d.capacity + 1) storage last destLast

/-- `emplace` in the middle, on a ring with room for one more: the side with fewer elements
moves by one slot. `allocateWithValueFrom` copies the outermost element to the new slot first. -/
def emplaceInMiddle (index : Nat) (value : α) : CircularDeque α × Nat :=
  let distIfMoveFront := d.wrappedDistance d.begin index
  let distIfMoveBack := d.wrappedDistance index d.end
  let lastGoodIndex := d.capacity - 1
  if distIfMoveBack ≤ distIfMoveFront then
    let prev := if d.end = 0 then lastGoodIndex else d.end - 1
    let wrappedEnd := if d.end = d.capacity then d.advance d.end 1 else d.end
    let storage := d.storage.set wrappedEnd (d.read prev)
    let posMutable := d.advanceBy d.begin (d.difference index d.begin)
    let storage := d.reverseMoveOrCopy storage posMutable (d.retreat d.end 1) d.end
    ({ d with storage := storage.set index (some value), «end» := d.advance wrappedEnd 1 }, index)
  else
    let destIndex := if d.begin = 0 then lastGoodIndex else d.begin - 1
    let storage := d.storage.set destIndex (d.read d.begin)
    let posMutable := d.advanceBy d.begin (d.difference index d.begin)
    let storage := d.moveOrCopy storage (d.advance d.begin 1) posMutable d.begin
    let index := if index = 0 then lastGoodIndex else index - 1
    ({ d with storage := storage.set index (some value), begin := destIndex }, index)

/-- `emplace(pos, value)` with `pos` at index `index`: the deque and the index of the iterator it
returns. At `end()` and `begin()` it is `emplace_back` and `emplace_front`; in the middle a full
ring first grows, and `pos` is found again at its distance from the front. -/
def emplace (index : Nat) (value : α) : CircularDeque α × Nat :=
  if index = d.end then
    let d := d.emplaceBack value
    (d, if d.end = 0 then d.capacity - 1 else d.end - 1)
  else if index = d.begin then
    let d := d.emplaceFront value
    (d, d.begin)
  else
    let dist := d.difference index d.begin
    if d.needSpace then
      let d := d.resize (growCapacity d.capacity)
      d.emplaceInMiddle (d.advanceBy d.begin dist) value
    else d.emplaceInMiddle index value

def insert (index : Nat) (value : α) : CircularDeque α × Nat := d.emplace index value

/-- `erase(first, last)` with the iterators at indices `first` and `last`: the deque and the index
of the iterator it returns. Erasing everything is `clear()`; a range at either end only moves that
end; in the middle the side with fewer elements closes the gap. -/
def erase (first last : Nat) : CircularDeque α × Nat :=
  if first = last then (d, last)
  else if d.wrappedDistance first last = d.size then
    let d := d.clear
    (d, d.end)
  else if first = d.begin ∨ last = d.end then
    let storage := destroy d.storage (d.walk last (d.capacity + 1) first)
    if first = d.begin then ({ d with storage, begin := last }, last)
    else ({ d with storage, «end» := first }, first)
  else
    let elemsRemoved := d.difference last first
    let distIfMoveFront := d.wrappedDistance d.begin first
    let distIfMoveBack := d.wrappedDistance last d.end
    if distIfMoveFront < distIfMoveBack then
      let newBegin := d.advanceBy last (-d.difference first d.begin)
      let firstMutable := d.advanceBy d.begin (d.difference first d.begin)
      let lastMutable := d.advanceBy d.begin (d.difference last d.begin)
      let storage := d.reverseMoveOrCopy d.storage d.begin firstMutable lastMutable
      let newBeginMutable := d.advanceBy d.begin (d.difference newBegin d.begin)
      let storage := destroy storage (d.walk newBeginMutable (d.capacity + 1) d.begin)
      ({ d with storage, begin := newBegin }, last)
    else
      let lastMutable := d.advanceBy d.begin (d.difference last d.begin)
      let firstMutable := d.advanceBy d.begin (d.difference first d.begin)
      let storage := d.moveOrCopy d.storage lastMutable d.end firstMutable
      let newEnd := d.advanceBy d.end (-elemsRemoved)
      let storage := destroy storage (d.walk d.end (d.capacity + 1) newEnd)
      ({ d with storage, «end» := newEnd }, first)

/-- `operator=(std::initializer_list<T>)`: the values are copied to the slots from 0 on. -/
def assignList (ilist : List α) : CircularDeque α :=
  let d := d.clear
  let d := if ilist.length > d.maxSize then d.resize (max ilist.length kInitCapacity) else d
  { d with storage := ilist.map some ++ d.storage.drop ilist.length, «end» := ilist.length }

/-- The copy assignment `operator=(const CircularDeque&)`: the other deque's elements are copied
to the slots from 0 on. -/
def assign (other : CircularDeque α) : CircularDeque α :=
  let d := d.clear.resize other.size
  { d with storage := other.toList ++ d.storage.drop other.size, «end» := other.size }

end CircularDeque

end Mvfst
