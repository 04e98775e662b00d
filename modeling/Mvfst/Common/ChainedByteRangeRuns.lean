import Mvfst.Common.ChainedByteRange
import Mvfst.Lib.TransitionSystem

/-!
Runs of chain calls. A chain whose nodes are all non-empty, and whose head range is empty only
when no node follows it, is a byte queue: `append` adds bytes at the back, `splitAtMost` and
`trimStartAtMost` take them from the front, and the part split off is such a chain again. The
calls keep that shape from a chain built of non-empty buffers on, as long as a chain is appended
only onto a non-empty one: onto an empty one its bytes go behind an empty head range, which the
next `append` of a buffer fills.
-/

namespace Mvfst

namespace ChainedByteRangeHead

/-- No empty node, a head range empty only with nothing after it, and the cached length. -/
structure Packed (chain : ChainedByteRangeHead) : Prop where
  cached : chain.LengthCached
  headed : chain.head ≠ [] ∨ chain.rest = []
  nodes : ∀ range ∈ chain.rest, range ≠ []

theorem packed_default : ({} : ChainedByteRangeHead).Packed :=
  ⟨rfl, .inr rfl, fun _ member => absurd member List.not_mem_nil⟩

theorem Packed.head_ne_nil {chain : ChainedByteRangeHead} (packed : chain.Packed) (filled : chain.toStr ≠ []) :
    chain.head ≠ [] := by
  rintro blank
  have unchained := packed.headed.resolve_left (not_not.mpr blank)
  exact filled (by rw [toStr, blank, unchained]; rfl)

/-- The buffer that the skipped empty buffers lead to is not empty. -/
theorem ne_nil_of_dropWhile {buf others : List (List UInt8)} {first : List UInt8}
    (dropped : buf.dropWhile List.isEmpty = first :: others) : first ≠ [] := by
  induction buf with
  | nil => cases dropped
  | cons range buf ih =>
    by_cases blank : range.isEmpty
    · rw [List.dropWhile_cons_of_pos blank] at dropped
      exact ih dropped
    · rw [List.dropWhile_cons_of_neg blank] at dropped
      obtain ⟨rfl, -⟩ := List.cons.inj dropped
      exact fun empty => blank (List.isEmpty_iff.mpr empty)

theorem packed_ofBuf {buf : List (List UInt8)} (filled : ∀ range ∈ buf, range ≠ []) : (ofBuf buf).Packed := by
  refine ⟨lengthCached_ofBuf buf, ?_, ?_⟩ <;> unfold ofBuf <;> split
  · exact .inr rfl
  · rename_i first others dropped
    exact .inl (ne_nil_of_dropWhile dropped)
  · exact fun _ member => absurd member List.not_mem_nil
  · rename_i first others dropped
    intro range member
    -- the nodes are a suffix of the buffers
    have suffix : first :: others <:+ buf := dropped ▸ List.dropWhile_suffix _
    exact filled range (suffix.subset (List.mem_cons_of_mem _ member))

theorem Packed.append {chain : ChainedByteRangeHead} (packed : chain.Packed) (buf : List (List UInt8)) :
    (chain.append buf).Packed := by
  -- only the non-empty buffers become nodes
  have kept : ∀ ranges : List (List UInt8), ∀ range ∈ ranges.filter (!·.isEmpty), range ≠ [] := by
    intro ranges range member empty
    rw [List.mem_filter, empty] at member
    exact Bool.noConfusion member.2
  refine ⟨packed.cached.append buf, ?_, ?_⟩ <;> unfold ChainedByteRangeHead.append <;> split
  · exact packed.headed
  · rename_i first others dropped
    by_cases blank : chain.head.isEmpty
    · simp only [blank, if_true]
      exact .inl (ne_nil_of_dropWhile dropped)
    · simp only [blank, Bool.false_eq_true, if_false]
      exact .inl fun empty => blank (List.isEmpty_iff.mpr empty)
  · exact packed.nodes
  · rename_i first others dropped
    intro range member
    by_cases blank : chain.head.isEmpty <;> simp only [blank, if_true, Bool.false_eq_true, if_false] at member <;>
      rcases List.mem_append.mp member with old | added
    · exact packed.nodes range old
    · exact kept _ range added
    · exact packed.nodes range old
    · exact kept _ range added

/-- A chain appended onto a non-empty one: its head range becomes a node. -/
theorem Packed.appendChain {chain other : ChainedByteRangeHead} (packed : chain.Packed) (filled : chain.toStr ≠ [])
    (packedOther : other.Packed) (filledOther : other.toStr ≠ []) : (chain.appendChain other).1.Packed := by
  refine ⟨packed.cached.appendChain packedOther.cached, .inl (packed.head_ne_nil filled), ?_⟩
  intro range member
  rcases List.mem_append.mp member with old | new
  · exact packed.nodes range old
  rcases List.mem_cons.mp new with first | later
  · exact first ▸ packedOther.head_ne_nil filledOther
  · exact packedOther.nodes range later

/-- Both parts of a split are packed: a cut inside a range leaves a non-empty piece on each side. -/
theorem Packed.splitAtMost {chain : ChainedByteRangeHead} (packed : chain.Packed) (len : Nat) :
    (chain.splitAtMost len).1.Packed ∧ (chain.splitAtMost len).2.Packed := by
  have cached := packed.cached.splitAtMost len
  have lengthCached : chain.chainLength = chain.toStr.length := packed.cached
  revert cached
  unfold ChainedByteRangeHead.splitAtMost
  by_cases whole : chain.chainLength ≤ len
  · rw [if_pos whole]
    exact fun _ => ⟨packed, packed_default⟩
  rw [if_neg whole]
  by_cases nothing : len = 0
  · rw [if_pos nothing]
    exact fun _ => ⟨packed_default, packed⟩
  rw [if_neg nothing]
  dsimp only
  have filled : chain.head ≠ [] := packed.head_ne_nil fun empty => by
    rw [empty, List.length_nil] at lengthCached
    omega
  by_cases inHead : len < chain.head.length
  · -- the cut is inside the head range
    rw [if_pos inHead]
    rintro ⟨front, back⟩
    refine ⟨⟨front, .inr rfl, fun _ member => absurd member List.not_mem_nil⟩, ⟨back, .inl ?_, packed.nodes⟩⟩
    rw [Ne, List.drop_eq_nil_iff]
    omega
  rw [if_neg inHead]
  have rest : len - chain.head.length < chain.rest.flatten.length := by
    simp only [toStr, List.length_append] at lengthCached
    omega
  obtain ⟨taken, left, current, after, walked, split, -, stops⟩ := splitWalk_spec rest
  have walk : splitWalk len (chain.head :: chain.rest) = (chain.head :: taken, left, current :: after) := by
    obtain ⟨k, rfl⟩ := Nat.exists_eq_succ_of_ne_zero nothing
    simp [splitWalk, inHead, walked]
  have inRest : ∀ range, range ∈ taken ∨ range = current ∨ range ∈ after → range ≠ [] := by
    intro range member
    apply packed.nodes
    rw [split, List.mem_append, List.mem_cons]
    exact member
  rw [walk]
  cases left with
  | zero =>
    -- the cut falls between two ranges
    rintro ⟨front, back⟩
    exact ⟨⟨front, .inl filled, fun range member => inRest range (.inl member)⟩,
      ⟨back, .inl (inRest current (.inr (.inl rfl))), fun range member => inRest range (.inr (.inr member))⟩⟩
  | succ left =>
    -- the cut is inside the range `current`
    have inside : left + 1 < current.length := stops.resolve_left (Nat.succ_ne_zero left)
    rintro ⟨front, back⟩
    refine ⟨⟨front, .inl filled, ?_⟩, ⟨back, .inl ?_, fun range member => inRest range (.inr (.inr member))⟩⟩
    · intro range (member : range ∈ taken ++ [current.take (left + 1)])
      rcases List.mem_append.mp member with old | cut
      · exact inRest range (.inl old)
      · rw [List.mem_singleton] at cut
        rw [cut, Ne, List.take_eq_nil_iff, not_or]
        exact ⟨Nat.succ_ne_zero left, inRest current (.inr (.inl rfl))⟩
    · show ¬ current.drop (left + 1) = []
      rw [List.drop_eq_nil_iff]
      omega

theorem Packed.trimStartAtMost {chain : ChainedByteRangeHead} (packed : chain.Packed) (len : Nat) :
    (chain.trimStartAtMost len).2.Packed :=
  (packed.splitAtMost (min len chain.chainLength)).2

/-- The calls that change a chain. A split keeps the rest, as `trimStartAtMost` does. -/
inductive ChainOp where
  | append (buf : List (List UInt8))
  | appendChain (other : ChainedByteRangeHead)
  | splitAtMost (len : Nat)
  | trimStartAtMost (len : Nat)

namespace ChainOp

def apply (chain : ChainedByteRangeHead) : ChainOp → ChainedByteRangeHead
  | append buf => chain.append buf
  | appendChain other => (chain.appendChain other).1
  | splitAtMost len => (chain.splitAtMost len).2
  | trimStartAtMost len => (chain.trimStartAtMost len).2

/-- The same call on the queue of bytes. -/
def applyQueue (bytes : List UInt8) : ChainOp → List UInt8
  | append buf => bytes ++ buf.flatten
  | appendChain other => bytes ++ other.toStr
  | splitAtMost len => bytes.drop len
  | trimStartAtMost len => bytes.drop len

/-- A chain is appended only when it is packed and not empty, onto a chain that is not empty. -/
def Admissible (chain : ChainedByteRangeHead) : ChainOp → Prop
  | appendChain other => chain.toStr ≠ [] ∧ other.Packed ∧ other.toStr ≠ []
  | _ => True

end ChainOp

/-- A chain and the bytes it stands for, stepped by the same call. -/
def stepPair (state : ChainedByteRangeHead × List UInt8) (op : ChainOp) : Option (ChainedByteRangeHead × List UInt8) :=
  some (op.apply state.1, op.applyQueue state.2)

theorem Packed.apply {chain : ChainedByteRangeHead} (packed : chain.Packed) {op : ChainOp}
    (admissible : op.Admissible chain) :
    (op.apply chain).Packed ∧ (op.apply chain).toStr = op.applyQueue chain.toStr := by
  cases op with
  | append buf => exact ⟨packed.append buf, toStr_append packed.headed buf⟩
  | appendChain other =>
    obtain ⟨filled, packedOther, filledOther⟩ := admissible
    exact ⟨packed.appendChain filled packedOther filledOther, toStr_appendChain chain other⟩
  | splitAtMost len => exact ⟨(packed.splitAtMost len).2, (splitAtMost_spec packed.cached len).2.1⟩
  | trimStartAtMost len => exact ⟨packed.trimStartAtMost len, (trimStartAtMost_spec packed.cached len).2⟩

/-- From a chain built of non-empty buffers, every run of admissible calls keeps the chain a packed
one that holds the queue of bytes: appended at the back, split and trimmed from the front. A split
then returns a packed chain of the first bytes, a trim the number of bytes it takes, and
`BufWriter::copy` copies the first bytes. -/
theorem queue_of_reachable {state : ChainedByteRangeHead × List UInt8}
    (reachable : TransitionSystem.Reachable
      (fun state => ∃ buf, (∀ range ∈ buf, range ≠ []) ∧ state = (ofBuf buf, buf.flatten))
      (fun state op => op.Admissible state.1) stepPair state) :
    state.1.Packed ∧ state.1.toStr = state.2 ∧ state.1.chainLength = state.2.length ∧
      ∀ len, (state.1.splitAtMost len).1.Packed ∧ (state.1.splitAtMost len).1.toStr = state.2.take len ∧
        (state.1.trimStartAtMost len).1 = min len state.2.length ∧ bufWriterCopy state.1 len = state.2.take len := by
  have holds : state.1.Packed ∧ state.1.toStr = state.2 := by
    apply reachable.invariant
    · rintro _ ⟨buf, filled, rfl⟩
      exact ⟨packed_ofBuf filled, toStr_ofBuf buf⟩
    · rintro ⟨chain, bytes⟩ _ op ⟨packed, read⟩ admissible stepped
      cases stepped
      dsimp only at read
      rw [← read]
      exact packed.apply admissible
  obtain ⟨packed, read⟩ := holds
  refine ⟨packed, read, by rw [packed.cached, read], fun len => ?_⟩
  obtain ⟨front, -, -, -⟩ := splitAtMost_spec packed.cached len
  rw [← read]
  exact ⟨(packed.splitAtMost len).1, front, (trimStartAtMost_spec packed.cached len).1, bufWriterCopy_eq_take _ len⟩

/-- A buffer chain of three buffers, one of them empty, a split of one byte, and another chain
appended: the chain holds the bytes left in order. -/
theorem queue_of_reachable_three_buffers :
    let chain := ((({} : ChainedByteRangeHead).append [[1, 2], [], [3]]).splitAtMost 1).2.appendChain
      (({} : ChainedByteRangeHead).append [[4]])
    chain.1.toStr = [2, 3, 4] ∧ (chain.1.splitAtMost 2).1.toStr = [2, 3] :=
  have reachable : TransitionSystem.Reachable
      (fun state => ∃ buf, (∀ range ∈ buf, range ≠ []) ∧ state = (ofBuf buf, buf.flatten))
      (fun state op => op.Admissible state.1) stepPair
      (ChainOp.apply (ChainOp.apply (ChainOp.apply {} (.append [[1, 2], [], [3]])) (.splitAtMost 1))
        (.appendChain (({} : ChainedByteRangeHead).append [[4]])), [2, 3, 4]) :=
    .step (.step (.step (.init ⟨[], fun _ member => absurd member List.not_mem_nil, rfl⟩)
      (show ChainOp.Admissible _ (.append _) from trivial) rfl)
      (show ChainOp.Admissible _ (.splitAtMost _) from trivial) rfl)
      (show ChainOp.Admissible _ (.appendChain _) from
        ⟨by decide, packed_default.append [[4]], by decide⟩) rfl
  ⟨(queue_of_reachable reachable).2.1, ((queue_of_reachable reachable).2.2.2 2).2.1⟩

end ChainedByteRangeHead

end Mvfst
