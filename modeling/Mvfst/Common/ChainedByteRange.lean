import Mathlib

/-!
# ChainedByteRangeHead

`ChainedByteRangeHead` of `common/ChainedByteRange.cpp`: a head range, the nodes chained after it
(the last is the one `tail_` points to), and the cached `chainLength_`. Every operation keeps
`tail_` at the last node, so the chain is a list here. An `IOBuf` chain is the list of its
buffers' bytes; a null pointer and a chain of empty buffers behave alike.

`toStr` is what the head stands for. It holds the bytes appended, split and trimmed as long as
the head range is not empty while nodes follow it; `append` of a buffer writes into an empty head
range whatever follows it.
-/

namespace Mvfst

structure ChainedByteRangeHead where
  /-- `head_.range_`. -/
  head : List UInt8 := []
  /-- The ranges of the nodes after `head_`, in order. -/
  rest : List (List UInt8) := []
  chainLength : Nat := 0
  deriving DecidableEq, Repr

namespace ChainedByteRangeHead

def toStr (chain : ChainedByteRangeHead) : List UInt8 := chain.head ++ chain.rest.flatten

def isChained (chain : ChainedByteRangeHead) : Bool := !chain.rest.isEmpty

def empty (chain : ChainedByteRangeHead) : Bool := chain.chainLength == 0

/-- The constructor from a buffer chain: the first non-empty buffer is the head, and every buffer
after it, empty or not, a node. -/
def ofBuf (buf : List (List UInt8)) : ChainedByteRangeHead :=
  match buf.dropWhile List.isEmpty with
  | [] => {}
  | first :: others => ⟨first, others, first.length + (others.map List.length).sum⟩

/-- `append(const BufPtr&)`: an empty head range takes the first non-empty buffer, and the other
non-empty buffers go after the tail. -/
def append (chain : ChainedByteRangeHead) (buf : List (List UInt8)) : ChainedByteRangeHead :=
  match buf.dropWhile List.isEmpty with
  | [] => chain
  | first :: others =>
    let (chain, pending) :=
      if chain.head.isEmpty then
        ({ chain with head := first, chainLength := chain.chainLength + first.length }, others)
      else (chain, first :: others)
    let added := pending.filter (!·.isEmpty)
    { chain with rest := chain.rest ++ added,
                 chainLength := chain.chainLength + (added.map List.length).sum }

/-- `append(ChainedByteRangeHead&&)`: the other chain's head range and nodes go after the tail.
The other chain loses its nodes and its length but keeps its head range. -/
def appendChain (chain chainHead : ChainedByteRangeHead) :
    ChainedByteRangeHead × ChainedByteRangeHead :=
  ({ chain with rest := chain.rest ++ chainHead.head :: chainHead.rest,
                chainLength := chain.chainLength + chainHead.chainLength },
   { chainHead with rest := [], chainLength := 0 })

/-- The loop of `splitAtMost`: whole nodes are taken while they fit in `len`; it returns them, what
is left of `len`, and the nodes from the one it stopped at. -/
def splitWalk : Nat → List (List UInt8) → List (List UInt8) × Nat × List (List UInt8)
  | 0, nodes => ([], 0, nodes)
  | len, [] => ([], len, [])
  | len, node :: nodes =>
    if len < node.length then ([], len, node :: nodes)
    else
      let (taken, left, current) := splitWalk (len - node.length) nodes
      (node :: taken, left, current)

/-- `splitAtMost(len)`: the chain split off, and what is left of this one. -/
def splitAtMost (chain : ChainedByteRangeHead) (len : Nat) :
    ChainedByteRangeHead × ChainedByteRangeHead :=
  -- the whole chain moves out and leaves a default head behind
  if chain.chainLength ≤ len then (chain, {})
  else if len = 0 then ({}, chain)
  else
    let chainLength := chain.chainLength - len
    if len < chain.head.length then
      (⟨chain.head.take len, [], len⟩, { chain with head := chain.head.drop len, chainLength })
    else
      match splitWalk len (chain.head :: chain.rest) with
      | (first :: taken, 0, current :: after) => (⟨first, taken, len⟩, ⟨current, after, chainLength⟩)
      | (first :: taken, left, current :: after) =>
        (⟨first, taken ++ [current.take left], len⟩, ⟨current.drop left, after, chainLength⟩)
      -- the walk runs past the last node only when the cached length exceeds the bytes
      | _ => (chain, {})

def trimStartAtMost (chain : ChainedByteRangeHead) (len : Nat) : Nat × ChainedByteRangeHead :=
  let amountToSplit := min len chain.chainLength
  (amountToSplit, (chain.splitAtMost amountToSplit).2)

/-- `moveChain`, behind the move constructor and the move assignment: the two chains swap. -/
def moveChain (chain other : ChainedByteRangeHead) : ChainedByteRangeHead × ChainedByteRangeHead :=
  (other, chain)

/-- The cached length is the length of the bytes the chain holds. -/
def LengthCached (chain : ChainedByteRangeHead) : Prop := chain.chainLength = chain.toStr.length

/-! ### Building and appending -/

theorem flatten_dropWhile_isEmpty (buf : List (List UInt8)) :
    (buf.dropWhile List.isEmpty).flatten = buf.flatten := by
  induction buf with
  | nil => rfl
  | cons range buf ih =>
    by_cases blank : range.isEmpty
    · rw [List.dropWhile_cons_of_pos blank, ih, List.flatten_cons, List.isEmpty_iff.mp blank,
        List.nil_append]
    · rw [List.dropWhile_cons_of_neg blank]

theorem flatten_filter_nonempty (ranges : List (List UInt8)) :
    (ranges.filter (!·.isEmpty)).flatten = ranges.flatten := by
  induction ranges with
  | nil => rfl
  | cons range ranges ih =>
    by_cases blank : range.isEmpty
    · rw [List.filter_cons_of_neg (by simp [blank]), ih, List.flatten_cons,
        List.isEmpty_iff.mp blank, List.nil_append]
    · rw [List.filter_cons_of_pos (by simp [blank]), List.flatten_cons, List.flatten_cons, ih]

theorem length_eq_sum (ranges : List (List UInt8)) :
    ranges.flatten.length = (ranges.map List.length).sum := List.length_flatten

theorem toStr_ofBuf (buf : List (List UInt8)) : (ofBuf buf).toStr = buf.flatten := by
  rw [← flatten_dropWhile_isEmpty]
  unfold ofBuf
  split
  · rename_i dropped
    rw [dropped]
    rfl
  · rename_i first others dropped
    rw [dropped]
    rfl

theorem lengthCached_ofBuf (buf : List (List UInt8)) : (ofBuf buf).LengthCached := by
  unfold LengthCached toStr ofBuf
  split <;> simp

/-- Appending a buffer appends its bytes, unless the head range is empty with nodes after it. -/
theorem toStr_append {chain : ChainedByteRangeHead} (filled : chain.head ≠ [] ∨ chain.rest = [])
    (buf : List (List UInt8)) : (chain.append buf).toStr = chain.toStr ++ buf.flatten := by
  rw [← flatten_dropWhile_isEmpty]
  unfold append
  split
  · rename_i dropped
    simp [dropped]
  · rename_i first others dropped
    rw [dropped]
    by_cases blank : chain.head.isEmpty
    · have unchained : chain.rest = [] := filled.resolve_left (not_not.mpr (List.isEmpty_iff.mp blank))
      simp [toStr, unchained, List.isEmpty_iff.mp blank, flatten_filter_nonempty]
    · simp [blank, toStr, flatten_filter_nonempty]

theorem LengthCached.append {chain : ChainedByteRangeHead} (cached : chain.LengthCached)
    (buf : List (List UInt8)) : (chain.append buf).LengthCached := by
  unfold LengthCached toStr at *
  unfold ChainedByteRangeHead.append
  split
  · exact cached
  · by_cases blank : chain.head.isEmpty
    · simp only [blank, if_true, List.length_append, List.flatten_append, length_eq_sum] at cached ⊢
      rw [List.isEmpty_iff.mp blank] at cached
      simp only [List.length_nil, Nat.zero_add] at cached
      omega
    · simp only [blank, Bool.false_eq_true, if_false, List.length_append, List.flatten_append,
        length_eq_sum] at cached ⊢
      omega

theorem toStr_appendChain (chain chainHead : ChainedByteRangeHead) :
    (chain.appendChain chainHead).1.toStr = chain.toStr ++ chainHead.toStr := by
  simp [appendChain, toStr]

theorem LengthCached.appendChain {chain chainHead : ChainedByteRangeHead} (cached : chain.LengthCached)
    (cachedHead : chainHead.LengthCached) : (chain.appendChain chainHead).1.LengthCached := by
  unfold LengthCached at *
  rw [toStr_appendChain, List.length_append, ← cached, ← cachedHead]
  rfl

/-! ### Splitting -/

/-- Below the length of the nodes the walk stops at a node: it took the nodes before it, and what
is left of `len` is nothing or less than that node. -/
theorem splitWalk_spec {len : Nat} {nodes : List (List UInt8)} (inside : len < nodes.flatten.length) :
    ∃ taken left current after, splitWalk len nodes = (taken, left, current :: after) ∧
      nodes = taken ++ current :: after ∧ taken.flatten.length + left = len ∧
      (left = 0 ∨ left < current.length) := by
  induction nodes generalizing len with
  | nil => simp at inside
  | cons node nodes ih =>
    cases len with
    | zero => exact ⟨[], 0, node, nodes, rfl, rfl, rfl, .inl rfl⟩
    | succ len =>
      by_cases fits : len + 1 < node.length
      · exact ⟨[], len + 1, node, nodes, by simp [splitWalk, fits], rfl, by simp, .inr fits⟩
      · have rest : len + 1 - node.length < nodes.flatten.length := by
          simp only [List.flatten_cons, List.length_append] at inside
          omega
        obtain ⟨taken, left, current, after, walked, split, counted, stops⟩ := ih rest
        refine ⟨node :: taken, left, current, after, by simp [splitWalk, fits, walked],
          by simp [split], ?_, stops⟩
        simp only [List.flatten_cons, List.length_append]
        omega

/-- Cutting bytes inside a node: the cut keeps the node's first `left` bytes. -/
theorem take_drop_within (before current after : List UInt8) {left : Nat}
    (stops : left = 0 ∨ left < current.length) :
    (before ++ current ++ after).take (before.length + left) = before ++ current.take left ∧
      (before ++ current ++ after).drop (before.length + left) = current.drop left ++ after := by
  rcases stops with rfl | inside
  · simp
  · rw [List.append_assoc, List.take_append, List.drop_append, List.take_of_length_le (by omega),
      List.drop_of_length_le (by omega), Nat.add_sub_cancel_left,
      List.take_append_of_le_length (Nat.le_of_lt inside),
      List.drop_append_of_le_length (Nat.le_of_lt inside)]
    simp

/-- A split leaves the first `len` bytes in the part split off and the rest in the chain, and
caches their lengths. -/
theorem splitAtMost_spec {chain : ChainedByteRangeHead} (cached : chain.LengthCached) (len : Nat) :
    (chain.splitAtMost len).1.toStr = chain.toStr.take len ∧
      (chain.splitAtMost len).2.toStr = chain.toStr.drop len ∧
      (chain.splitAtMost len).1.chainLength = min len chain.chainLength ∧
      (chain.splitAtMost len).2.chainLength = chain.chainLength - len := by
  unfold LengthCached at cached
  unfold splitAtMost
  by_cases whole : chain.chainLength ≤ len
  · rw [if_pos whole, List.take_of_length_le (by omega), List.drop_of_length_le (by omega)]
    exact ⟨rfl, rfl, (Nat.min_eq_right whole).symm, (Nat.sub_eq_zero_of_le whole).symm⟩
  rw [if_neg whole]
  by_cases nothing : len = 0
  · subst nothing
    exact ⟨rfl, rfl, by simp, rfl⟩
  rw [if_neg nothing]
  dsimp only
  have fewer : min len chain.chainLength = len := Nat.min_eq_left (by omega)
  by_cases inHead : len < chain.head.length
  · rw [if_pos inHead]
    simp [toStr, List.take_append_of_le_length (Nat.le_of_lt inHead),
      List.drop_append_of_le_length (Nat.le_of_lt inHead), fewer]
  rw [if_neg inHead]
  have rest : len - chain.head.length < chain.rest.flatten.length := by
    simp only [toStr, List.length_append] at cached
    omega
  obtain ⟨taken, left, current, after, walked, split, counted, stops⟩ := splitWalk_spec rest
  have walk : splitWalk len (chain.head :: chain.rest) = (chain.head :: taken, left, current :: after) := by
    obtain ⟨k, rfl⟩ := Nat.exists_eq_succ_of_ne_zero nothing
    simp [splitWalk, inHead, walked]
  have shape : chain.toStr = (chain.head ++ taken.flatten) ++ current ++ after.flatten := by
    simp [toStr, split]
  have cut : len = (chain.head ++ taken.flatten).length + left := by
    simp only [List.length_append]
    omega
  obtain ⟨front, back⟩ := take_drop_within (chain.head ++ taken.flatten) current after.flatten stops
  rw [← shape, ← cut] at front back
  rw [walk, fewer, front, back]
  cases left with
  | zero => simp [toStr]
  | succ left => simp [toStr]

theorem LengthCached.splitAtMost {chain : ChainedByteRangeHead} (cached : chain.LengthCached)
    (len : Nat) : (chain.splitAtMost len).1.LengthCached ∧ (chain.splitAtMost len).2.LengthCached := by
  obtain ⟨front, back, frontLength, backLength⟩ := splitAtMost_spec cached len
  unfold LengthCached at *
  rw [front, back, frontLength, backLength, List.length_take, List.length_drop, ← cached]
  exact ⟨rfl, rfl⟩

theorem trimStartAtMost_spec {chain : ChainedByteRangeHead} (cached : chain.LengthCached) (len : Nat) :
    (chain.trimStartAtMost len).1 = min len chain.toStr.length ∧
      (chain.trimStartAtMost len).2.toStr = chain.toStr.drop len := by
  obtain ⟨-, back, -, -⟩ := splitAtMost_spec cached (min len chain.chainLength)
  refine ⟨by rw [trimStartAtMost, cached], ?_⟩
  rw [trimStartAtMost]
  dsimp only
  rw [back, cached]
  by_cases within : len ≤ chain.toStr.length
  · rw [Nat.min_eq_left within]
  · rw [Nat.min_eq_right (by omega), List.drop_length, List.drop_of_length_le (by omega)]

end ChainedByteRangeHead

/-- The loop of `BufWriter::copy` over the ranges of a chain: the bytes it pushes. -/
def copyRanges : List (List UInt8) → Nat → List UInt8
  | _, 0 => []
  | [], _ => []
  | range :: ranges, remaining =>
    let lenToCopy := min range.length remaining
    range.take lenToCopy ++
      (if lenToCopy < range.length then [] else copyRanges ranges (remaining - lenToCopy))

/-- `BufWriter::copy(const ChainedByteRangeHead*, limit)`, as the bytes it pushes. -/
def bufWriterCopy (data : ChainedByteRangeHead) (limit : Nat) : List UInt8 :=
  if limit = 0 then [] else copyRanges (data.head :: data.rest) limit

theorem copyRanges_eq_take (ranges : List (List UInt8)) (limit : Nat) :
    copyRanges ranges limit = ranges.flatten.take limit := by
  induction ranges generalizing limit with
  | nil => cases limit <;> simp [copyRanges]
  | cons range ranges ih =>
    cases limit with
    | zero => simp [copyRanges]
    | succ limit =>
      by_cases inside : limit + 1 < range.length
      · simp [copyRanges, inside, Nat.min_eq_right (Nat.le_of_lt inside),
          List.take_append_of_le_length (Nat.le_of_lt inside)]
      · have whole : min range.length (limit + 1) = range.length := Nat.min_eq_left (by omega)
        simp only [copyRanges, whole, Nat.lt_irrefl, if_false, ih, List.flatten_cons, List.take_append,
          List.take_of_length_le (Nat.le_refl _), List.take_of_length_le (Nat.le_of_not_lt inside)]

/-- The writer copies the first `limit` bytes the chain holds. -/
theorem bufWriterCopy_eq_take (data : ChainedByteRangeHead) (limit : Nat) :
    bufWriterCopy data limit = data.toStr.take limit := by
  unfold bufWriterCopy
  split
  · rename_i nothing
    rw [nothing, List.take_zero]
  · rw [copyRanges_eq_take]
    rfl

open ChainedByteRangeHead in
/-- A chain from the buffers A, an empty one and B: splitting off A leaves an empty head range with
B after it, and appending C then puts C before B. Appending the chain AB to an empty one leaves the
same order when CD is appended next, and leaves AB behind in the chain appended, with a cached
length of zero. -/
theorem chain_append_misorders :
    ((ofBuf [[0x41], [], [0x42]]).splitAtMost 1).2.toStr = [0x42] ∧
      (((ofBuf [[0x41], [], [0x42]]).splitAtMost 1).2.append [[0x43]]).toStr = [0x43, 0x42] ∧
      ((({} : ChainedByteRangeHead).appendChain (ofBuf [[0x41, 0x42]])).1.append [[0x43, 0x44]]).toStr =
        [0x43, 0x44, 0x41, 0x42] ∧
      (({} : ChainedByteRangeHead).appendChain (ofBuf [[0x41, 0x42]])).2.toStr = [0x41, 0x42] ∧
      (({} : ChainedByteRangeHead).appendChain (ofBuf [[0x41, 0x42]])).2.chainLength = 0 := by
  decide

end Mvfst
