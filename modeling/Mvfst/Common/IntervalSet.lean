import Mvfst.Lib.LowerBound

/-!
`IntervalSet<T, Unit>` of `quic/common/IntervalSet-inl.h` over `uint64_t`: closed intervals kept
sorted, an insertion merging every interval it touches or comes within `Unit` of, a withdrawal
cutting the intervals it touches, and a version that counts the insertions that added a point.
`Unit` is the template's parameter; the transport only instantiates it with 1.
-/

namespace Mvfst

/-- `Interval::unitValue()` for the instances in use. -/
def unitValue : Nat := 1

/-- A closed interval `[start, end]`. -/
structure Interval where
  start : Nat
  «end» : Nat
  deriving DecidableEq, Repr

inductive IntervalSetError where
  | invalidInterval
  | intervalBoundTooLarge
  deriving DecidableEq, Repr

structure IntervalSet (unit : Nat) where
  intervals : List Interval := []
  insertVersion : Nat := 0
  deriving DecidableEq, Repr

namespace IntervalSet

variable {unit : Nat}

/-- The indices `[first, stop)` of the intervals that intersect `interval` or lie within a unit
of it: a `lower_bound` for the first interval not ending more than a unit before it, then a walk
while intervals start at most a unit after it. -/
def intersectingRange (s : IntervalSet unit) (interval : Interval) : Nat × Nat :=
  let first := LowerBound.lowerBound
    (fun a => decide (a.end + unit < interval.start)) s.intervals
  let stop := first + ((s.intervals.drop first).takeWhile
    (fun a => decide (a.start ≤ interval.end + unit))).length
  (first, stop)

def insert (s : IntervalSet unit) (interval : Interval) : IntervalSet unit :=
  let (first, stop) := s.intersectingRange interval
  if first = stop then
    { intervals := s.intervals.take first ++ interval :: s.intervals.drop first,
      insertVersion := s.insertVersion + 1 }
  else
    let firstIt := s.intervals.getD first interval
    let last := s.intervals.getD (stop - 1) interval
    let originalDifference := firstIt.end - firstIt.start
    let merged : Interval := ⟨min interval.start firstIt.start, max interval.end last.end⟩
    let newDifference := merged.end - merged.start
    { intervals := s.intervals.take first ++ merged :: s.intervals.drop stop,
      insertVersion :=
        if newDifference > originalDifference then s.insertVersion + 1 else s.insertVersion }

/-- `withdraw`: the elements the range covers go, except the part of the first before `interval`
and the part of the last after it. The last element is read after the first was cut, as the
source's iterators read it; one element reaching past both ends splits in two. -/
def withdraw (s : IntervalSet unit) (interval : Interval) : IntervalSet unit :=
  let (first, stop) := s.intersectingRange interval
  if first = stop then s
  else
    let firstIt := s.intervals.getD first interval
    let last := s.intervals.getD (stop - 1) interval
    if stop - 1 = first ∧ firstIt.start + unit ≤ interval.start ∧
        last.end ≥ interval.end + unit then
      { s with intervals := s.intervals.take first ++
          ⟨firstIt.start, interval.start - unit⟩ :: ⟨interval.end + unit, last.end⟩ ::
            s.intervals.drop stop }
    else
      let keepFirst := decide (firstIt.start + unit ≤ interval.start)
      let erasureStart := if keepFirst then first + 1 else first
      let trimmed := if keepFirst then
          s.intervals.set first { firstIt with «end» := interval.start - unit }
        else s.intervals
      let last := trimmed.getD (stop - 1) interval
      let keepLast := decide (last.end ≥ interval.end + unit)
      let erasureEnd := if keepLast then stop - 1 else stop
      let trimmed := if keepLast then
          trimmed.set (stop - 1) { last with start := interval.end + unit }
        else trimmed
      { s with intervals := trimmed.take erasureStart ++ trimmed.drop erasureEnd }

/-- `tryInsert(start, end)`: the bounds are checked instead of `CHECK`ed; the largest bound is
`numeric_limits<uint64_t>::max()` less a unit. -/
def tryInsert (s : IntervalSet unit) (start «end» : Nat) : Except IntervalSetError (IntervalSet unit) :=
  if start > «end» then .error .invalidInterval
  else if «end» > 2 ^ 64 - 1 - unit then .error .intervalBoundTooLarge
  else .ok (s.insert ⟨start, «end»⟩)

/-- `contains(start, end)`: the first interval that does not end before `start` decides. -/
def containsLoop (start «end» : Nat) : List Interval → Bool
  | [] => false
  | interval :: rest =>
    if start ≥ interval.start ∧ «end» ≤ interval.end then true
    else if start < interval.end then false
    else containsLoop start «end» rest

def contains (s : IntervalSet unit) (start «end» : Nat) : Bool :=
  containsLoop start «end» s.intervals

def front? (s : IntervalSet unit) : Option Interval := s.intervals.head?

end IntervalSet

end Mvfst
