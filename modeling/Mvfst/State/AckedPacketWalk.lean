import Mvfst.State.AckHandlers
import Mvfst.Lib.ListSearch

/-!
The walk `processAckFrame` makes over the outstanding packets: `AckedPacketIterator` stops, in
order, at exactly the packets of the space that an ACK block covers, and the erase loop of
`removeOutstandingsForAck` removes exactly those. Both rest on the order `updateConnection` keeps
the outstanding packets in: by packet number, and numbered apart within a space.
-/

namespace Mvfst

namespace OutstandingPacket

/-- `p` may stand before `q` among the outstanding packets: numbered no higher, and lower within
a space. -/
def NumberedBefore (p q : OutstandingPacket) : Prop :=
  p.getPacketSequenceNum ≤ q.getPacketSequenceNum ∧
    (p.packetNumberSpace = q.packetNumberSpace → p.getPacketSequenceNum < q.getPacketSequenceNum)

/-- What the iterator reads of a packet. -/
def key (p : OutstandingPacket) : PacketNumberSpace × Nat :=
  (p.packetNumberSpace, p.getPacketSequenceNum)

end OutstandingPacket

def AckBlock.covers (block : AckBlock) (packetNum : Nat) : Bool :=
  decide (block.startPacket ≤ packetNum ∧ packetNum ≤ block.endPacket)

/-- The packets an ACK frame of `pnSpace` acknowledges. -/
def ackedBy (pnSpace : PacketNumberSpace) (ackBlocks : List AckBlock) (packet : OutstandingPacket) :
    Bool :=
  packet.packetNumberSpace == pnSpace && ackBlocks.any fun block => block.covers packet.getPacketSequenceNum

/-- Where the search of one block stops: the first packet of the space not above its end. -/
def stopsAt (pnSpace : PacketNumberSpace) (ackBlock : AckBlock) (packet : OutstandingPacket) : Bool :=
  packet.packetNumberSpace == pnSpace && decide (packet.getPacketSequenceNum ≤ ackBlock.endPacket)

/-- ACK blocks as a decoded frame has them: ranges, each below the one before. -/
structure AckBlocksDescending (ackBlocks : List AckBlock) : Prop where
  ranges : ∀ block ∈ ackBlocks, block.startPacket ≤ block.endPacket
  descending : ackBlocks.Pairwise fun above below => below.endPacket < above.startPacket

theorem AckBlocksDescending.tail {block : AckBlock} {rest : List AckBlock}
    (blocks : AckBlocksDescending (block :: rest)) : AckBlocksDescending rest :=
  ⟨fun other member => blocks.ranges other (List.mem_cons_of_mem block member),
    (List.pairwise_cons.mp blocks.descending).2⟩

theorem AckBlocksDescending.dropWhile {ackBlocks : List AckBlock} (blocks : AckBlocksDescending ackBlocks)
    (drop : AckBlock → Bool) : AckBlocksDescending (ackBlocks.dropWhile drop) :=
  ⟨fun block member => blocks.ranges block ((List.dropWhile_suffix drop).subset member),
    blocks.descending.sublist (List.dropWhile_suffix drop).sublist⟩

/-- A packet an ACK frame acknowledges is where the search of its first block stops, or after. -/
theorem stopsAt_of_ackedBy {pnSpace : PacketNumberSpace} {block : AckBlock} {rest : List AckBlock}
    (blocks : AckBlocksDescending (block :: rest)) {packet : OutstandingPacket}
    (acked : ackedBy pnSpace (block :: rest) packet = true) : stopsAt pnSpace block packet = true := by
  simp only [ackedBy, List.any_cons, Bool.and_eq_true, Bool.or_eq_true, List.any_eq_true] at acked
  obtain ⟨space, first | ⟨other, member, covered⟩⟩ := acked
  · simp only [AckBlock.covers, decide_eq_true_eq] at first
    simp [stopsAt, space, first.2]
  · have below := (List.pairwise_cons.mp blocks.descending).1 other member
    have range := blocks.ranges block List.mem_cons_self
    simp only [AckBlock.covers, decide_eq_true_eq] at covered
    simp only [stopsAt, space, Bool.true_and, decide_eq_true_eq]
    omega

/-- Blocks that start above a packet's number do not cover it. -/
theorem ackedBy_dropWhile {pnSpace : PacketNumberSpace} (ackBlocks : List AckBlock) {packetNum : Nat}
    {packet : OutstandingPacket} (below : packet.getPacketSequenceNum ≤ packetNum) :
    ackedBy pnSpace (ackBlocks.dropWhile fun block => decide (packetNum < block.startPacket)) packet =
      ackedBy pnSpace ackBlocks packet := by
  induction ackBlocks with
  | nil => rfl
  | cons block rest ih =>
    by_cases above : packetNum < block.startPacket
    · have uncovered : block.covers packet.getPacketSequenceNum = false := by
        simp only [AckBlock.covers, decide_eq_false_iff_not, not_and, Nat.not_le]
        omega
      rw [List.dropWhile_cons_of_pos (by simpa using above), ih]
      simp [ackedBy, uncovered]
    · rw [List.dropWhile_cons_of_neg (by simpa using above)]

theorem ackedBy_cons_of_lt {pnSpace : PacketNumberSpace} {block : AckBlock} {rest : List AckBlock}
    {packet : OutstandingPacket} (below : packet.getPacketSequenceNum < block.startPacket) :
    ackedBy pnSpace (block :: rest) packet = ackedBy pnSpace rest packet := by
  have uncovered : block.covers packet.getPacketSequenceNum = false := by
    simp only [AckBlock.covers, decide_eq_false_iff_not, not_and, Nat.not_le]
    omega
  simp [ackedBy, uncovered]

/-- The iterator a search from `iter` leaves: at the first packet from `iter` the blocks
acknowledge, with the blocks from the first that does not start above it, or invalid when no
packet is left. -/
def FoundFrom (rev : List OutstandingPacket) (pnSpace : PacketNumberSpace) (ackBlocks : List AckBlock)
    (iter : Nat) (it : AckedPacketIterator) : Prop :=
  match rev[iter + (rev.drop iter).findIdx (ackedBy pnSpace ackBlocks)]? with
  | some packet => it = ⟨iter + (rev.drop iter).findIdx (ackedBy pnSpace ackBlocks),
      ackBlocks.dropWhile fun block => decide (packet.getPacketSequenceNum < block.startPacket), true⟩
  | none => it.valid = false

namespace AckedPacketIterator

section Walk

variable {rev : List OutstandingPacket} {pnSpace : PacketNumberSpace}

/-- In the packets read from the back, numbers do not increase. -/
theorem num_antitone (descending : rev.Pairwise fun p q => q.NumberedBefore p) {i j : Nat}
    {p q : OutstandingPacket} (atI : rev[i]? = some p) (atJ : rev[j]? = some q) (le : i ≤ j) :
    q.getPacketSequenceNum ≤ p.getPacketSequenceNum := by
  obtain ⟨inI, rfl⟩ := List.getElem?_eq_some_iff.mp atI
  obtain ⟨inJ, rfl⟩ := List.getElem?_eq_some_iff.mp atJ
  rcases Nat.eq_or_lt_of_le le with rfl | lt
  · exact Nat.le_refl _
  · exact (List.pairwise_iff_getElem.mp descending i j inI inJ lt).1

theorem num_le_of_mem_drop (descending : rev.Pairwise fun p q => q.NumberedBefore p) {i : Nat}
    {p : OutstandingPacket} (atI : rev[i]? = some p) {q : OutstandingPacket} (member : q ∈ rev.drop i) :
    q.getPacketSequenceNum ≤ p.getPacketSequenceNum := by
  obtain ⟨k, inside, rfl⟩ := List.getElem_of_mem member
  have atK : rev[i + k]? = some (rev.drop i)[k] := by
    rw [← List.getElem?_drop, List.getElem?_eq_getElem inside]
  exact num_antitone descending atI atK (Nat.le_add_right i k)

/-- The search of one block: the binary search past the packets numbered above its end, then
the scan past packets of other spaces, together find the first packet where `stopsAt` holds. -/
theorem moveToNextValidInAckBlock_eq (descending : rev.Pairwise fun p q => q.NumberedBefore p)
    (ackBlock : AckBlock) (iter : Nat) :
    moveToNextValidInAckBlock rev pnSpace ackBlock iter =
      (iter + (rev.drop iter).findIdx (stopsAt pnSpace ackBlock),
        if (rev[iter + (rev.drop iter).findIdx (stopsAt pnSpace ackBlock)]?.any fun packet =>
            decide (ackBlock.startPacket ≤ packet.getPacketSequenceNum)) then .success
        else .failure) := by
  have partitioned : (rev.drop iter).Pairwise fun p q =>
      decide (q.getPacketSequenceNum > ackBlock.endPacket) = true →
        decide (p.getPacketSequenceNum > ackBlock.endPacket) = true :=
    descending.drop.imp fun numbered higher => by
      simp only [decide_eq_true_eq] at higher ⊢
      exact Nat.lt_of_lt_of_le higher numbered.1
  -- the binary search passes the packets numbered above the block; all after them are below it
  have skip := LowerBound.lowerBound_eq_findIdx _ partitioned
  have rest : rev.drop (iter + (rev.drop iter).findIdx fun packet =>
      !decide (packet.getPacketSequenceNum > ackBlock.endPacket)) =
        (rev.drop iter).dropWhile fun packet => decide (packet.getPacketSequenceNum > ackBlock.endPacket) := by
    rw [← List.drop_drop, List.dropWhile_eq_drop_findIdx_not]
  have count : (((rev.drop iter).dropWhile fun packet =>
      decide (packet.getPacketSequenceNum > ackBlock.endPacket)).takeWhile fun packet =>
        packet.packetNumberSpace != pnSpace).length =
      ((rev.drop iter).dropWhile fun packet =>
        decide (packet.getPacketSequenceNum > ackBlock.endPacket)).findIdx (stopsAt pnSpace ackBlock) := by
    rw [ListSearch.length_takeWhile]
    apply ListSearch.findIdx_congr
    intro packet member
    have low := LowerBound.not_before_of_mem_dropWhile _ partitioned packet member
    simp only [decide_eq_false_iff_not, Nat.not_lt] at low
    simp [stopsAt, low, bne]
  have total : (rev.drop iter).findIdx (stopsAt pnSpace ackBlock) =
      ((rev.drop iter).findIdx fun packet => !decide (packet.getPacketSequenceNum > ackBlock.endPacket)) +
        ((rev.drop iter).dropWhile fun packet =>
          decide (packet.getPacketSequenceNum > ackBlock.endPacket)).findIdx (stopsAt pnSpace ackBlock) := by
    rw [List.dropWhile_eq_drop_findIdx_not]
    apply ListSearch.findIdx_eq_add_drop List.findIdx_le_length
    intro packet member
    have high := List.false_of_mem_take_findIdx member
    simp only [Bool.not_eq_false', decide_eq_true_eq] at high
    simp only [stopsAt, Bool.and_eq_false_imp, decide_eq_false_iff_not, Nat.not_le]
    intro _
    exact high
  simp only [moveToNextValidInAckBlock]
  rw [skip, rest, count, Nat.add_assoc, ← total]
  cases rev[iter + (rev.drop iter).findIdx (stopsAt pnSpace ackBlock)]? with
  | none => rfl
  | some packet =>
    by_cases early : packet.getPacketSequenceNum < ackBlock.startPacket
    · simp [early]
    · simp [early, Nat.le_of_not_lt early]

/-- The search over the blocks: each block's search either finds an acknowledged packet or stops
at a packet below the block, from which the next block's search goes on. -/
theorem moveToNextValid_foundFrom (descending : rev.Pairwise fun p q => q.NumberedBefore p)
    {ackBlocks : List AckBlock} (blocks : AckBlocksDescending ackBlocks) (iter : Nat) :
    FoundFrom rev pnSpace ackBlocks iter
      (let (iter, ackBlockIter, moveResult) := moveToNextValid rev pnSpace iter ackBlocks
       ⟨iter, ackBlockIter, moveResult = .success⟩) := by
  induction ackBlocks generalizing iter with
  | nil =>
    have missing : rev[iter + (rev.drop iter).findIdx (ackedBy pnSpace [])]? = none := by
      apply List.getElem?_eq_none
      have none : (rev.drop iter).findIdx (ackedBy pnSpace []) = (rev.drop iter).length :=
        List.findIdx_eq_length_of_false fun packet _ => by simp [ackedBy]
      rw [none, List.length_drop]
      omega
    simp only [FoundFrom, missing, moveToNextValid]
    rfl
  | cons block rest ih =>
    -- the packets this block's search passes are not acknowledged by any block
    have passed : ∀ packet ∈ (rev.drop iter).take ((rev.drop iter).findIdx (stopsAt pnSpace block)),
        ackedBy pnSpace (block :: rest) packet = false :=
      ListSearch.findIdx_take_false fun packet acked => stopsAt_of_ackedBy blocks acked
    have continues : (rev.drop iter).findIdx (ackedBy pnSpace (block :: rest)) =
        (rev.drop iter).findIdx (stopsAt pnSpace block) + (rev.drop (iter +
          (rev.drop iter).findIdx (stopsAt pnSpace block))).findIdx (ackedBy pnSpace (block :: rest)) := by
      rw [ListSearch.findIdx_eq_add_drop List.findIdx_le_length passed, List.drop_drop]
    generalize stop : (rev.drop iter).findIdx (stopsAt pnSpace block) = k at continues
    have search := @moveToNextValidInAckBlock_eq rev pnSpace descending block iter
    rw [stop] at search
    unfold FoundFrom
    rw [continues, ← Nat.add_assoc]
    cases found : rev[iter + k]? with
    | none =>
      have outside : rev.length ≤ iter + k := List.getElem?_eq_none_iff.mp found
      rw [List.getElem?_eq_none (by omega)]
      simp [moveToNextValid, search, outside]
    | some packet =>
      have inside : iter + k < rev.length := (List.getElem?_eq_some_iff.mp found).1
      have stopped : stopsAt pnSpace block packet = true := by
        apply List.findIdx_of_getElem?_eq_some
        rw [stop, List.getElem?_drop]
        exact found
      by_cases early : packet.getPacketSequenceNum < block.startPacket
      · -- the packet is below the block: the next block's search goes on from it
        have same : (rev.drop (iter + k)).findIdx (ackedBy pnSpace (block :: rest)) =
            (rev.drop (iter + k)).findIdx (ackedBy pnSpace rest) :=
          ListSearch.findIdx_congr fun other member =>
            ackedBy_cons_of_lt (Nat.lt_of_le_of_lt (num_le_of_mem_drop descending found member) early)
        have next := ih blocks.tail (iter + k)
        unfold FoundFrom at next
        rw [same]
        have result : moveToNextValid rev pnSpace iter (block :: rest) =
            moveToNextValid rev pnSpace (iter + k) rest := by
          simp [moveToNextValid, search, found, early, Nat.not_le.mpr inside]
        rw [result]
        cases reached : rev[iter + k + (rev.drop (iter + k)).findIdx (ackedBy pnSpace rest)]? with
        | none => simpa [reached] using next
        | some other =>
          rw [reached] at next
          have lower : other.getPacketSequenceNum < block.startPacket :=
            Nat.lt_of_le_of_lt (num_antitone descending found reached (Nat.le_add_right _ _)) early
          dsimp only
          rw [List.dropWhile_cons_of_pos (by simpa using lower)]
          exact next
      · -- the packet is in the block: the search stops there
        have acked : ackedBy pnSpace (block :: rest) packet = true := by
          simp only [stopsAt, Bool.and_eq_true, decide_eq_true_eq] at stopped
          simp [ackedBy, AckBlock.covers, stopped.1, Nat.le_of_not_lt early, stopped.2]
        have first : (rev.drop (iter + k)).findIdx (ackedBy pnSpace (block :: rest)) = 0 := by
          rw [List.drop_eq_getElem_cons inside, (List.getElem?_eq_some_iff.mp found).2,
            List.findIdx_cons, acked, cond_true]
        rw [first, Nat.add_zero, found]
        simp [moveToNextValid, search, found, early, Nat.not_le.mpr inside]

theorem FoundFrom.of_eq {ackBlocks : List AckBlock} {i j : Nat} {it : AckedPacketIterator}
    (same : i + (rev.drop i).findIdx (ackedBy pnSpace ackBlocks) =
      j + (rev.drop j).findIdx (ackedBy pnSpace ackBlocks))
    (found : FoundFrom rev pnSpace ackBlocks j it) : FoundFrom rev pnSpace ackBlocks i it := by
  unfold FoundFrom at found ⊢
  rw [same]
  exact found

/-- The constructor skips the packets of other spaces at the back, then searches. -/
theorem init_foundFrom (descending : rev.Pairwise fun p q => q.NumberedBefore p)
    {ackBlocks : List AckBlock} (blocks : AckBlocksDescending ackBlocks) :
    FoundFrom rev pnSpace ackBlocks 0 (init rev pnSpace ackBlocks) := by
  have start : (rev.takeWhile fun packet => packet.packetNumberSpace != pnSpace).length =
      rev.findIdx fun packet => packet.packetNumberSpace == pnSpace := by
    rw [ListSearch.length_takeWhile]
    simp [bne]
  have skipped : ∀ packet ∈ rev.take (rev.findIdx fun packet => packet.packetNumberSpace == pnSpace),
      ackedBy pnSpace ackBlocks packet = false :=
    ListSearch.findIdx_take_false fun packet acked => by
      simp only [ackedBy, Bool.and_eq_true] at acked
      exact acked.1
  apply FoundFrom.of_eq _ (moveToNextValid_foundFrom descending blocks _)
  rw [start, List.drop_zero, Nat.zero_add]
  exact ListSearch.findIdx_eq_add_drop List.findIdx_le_length skipped

/-- `next` searches on from the packet after the current one, with the blocks not passed yet. -/
theorem next_foundFrom (descending : rev.Pairwise fun p q => q.NumberedBefore p)
    {it : AckedPacketIterator} (blocks : AckBlocksDescending it.ackBlockIter) :
    FoundFrom rev pnSpace it.ackBlockIter (it.outstandingsIter + 1) (it.next rev pnSpace) := by
  unfold next
  dsimp only
  split
  · rename_i past
    have missing : rev[it.outstandingsIter + 1 +
        (rev.drop (it.outstandingsIter + 1)).findIdx (ackedBy pnSpace it.ackBlockIter)]? = none :=
      List.getElem?_eq_none (by omega)
    simp only [FoundFrom, missing]
  · exact moveToNextValid_foundFrom descending blocks _

/-- The positions an iterator stops at, at most `fuel` of them. -/
def positions (rev : List OutstandingPacket) (pnSpace : PacketNumberSpace) :
    Nat → AckedPacketIterator → List Nat
  | 0, _ => []
  | fuel + 1, it =>
    if it.valid then it.outstandingsIter :: positions rev pnSpace fuel (it.next rev pnSpace) else []

/-- Run to its end, an iterator stops at the positions of the packets the blocks acknowledge,
in order. -/
theorem positions_eq (descending : rev.Pairwise fun p q => q.NumberedBefore p) :
    ∀ (fuel : Nat) {ackBlocks : List AckBlock}, AckBlocksDescending ackBlocks →
      ∀ (iter : Nat) (it : AckedPacketIterator), FoundFrom rev pnSpace ackBlocks iter it →
        rev.length < fuel + iter →
          positions rev pnSpace fuel it = ListSearch.positionsFrom (ackedBy pnSpace ackBlocks) rev iter := by
  intro fuel
  induction fuel with
  | zero =>
    intro ackBlocks _ iter it _ short
    rw [ListSearch.positionsFrom_eq_nil (List.getElem?_eq_none (by omega))]
    rfl
  | succ fuel ih =>
    intro ackBlocks blocks iter it found short
    unfold FoundFrom at found
    cases reached : rev[iter + (rev.drop iter).findIdx (ackedBy pnSpace ackBlocks)]? with
    | none =>
      rw [reached] at found
      simp [positions, found, ListSearch.positionsFrom_eq_nil reached]
    | some packet =>
      rw [reached] at found
      have nextFound := @next_foundFrom rev pnSpace descending it (by rw [found]; exact blocks.dropWhile _)
      rw [found] at nextFound
      dsimp only at nextFound
      have onward := ih (blocks.dropWhile _) _ _ nextFound (by omega)
      rw [ListSearch.positionsFrom_eq_cons reached, found]
      simp only [positions, if_true, onward]
      congr 1
      apply ListSearch.positionsFrom_congr
      intro other member
      apply ackedBy_dropWhile
      have below : other ∈ rev.drop (iter + (rev.drop iter).findIdx (ackedBy pnSpace ackBlocks)) :=
        (List.drop_sublist_drop_left rev (Nat.le_succ _)).subset member
      exact num_le_of_mem_drop descending reached below

end Walk

section Keys

variable {rev₁ rev₂ : List OutstandingPacket} {pnSpace : PacketNumberSpace}

/-- The search reads the packets only through their spaces and numbers. -/
theorem moveToNextValidInAckBlock_congr
    (same : rev₁.map OutstandingPacket.key = rev₂.map OutstandingPacket.key) (ackBlock : AckBlock)
    (iter : Nat) :
    moveToNextValidInAckBlock rev₁ pnSpace ackBlock iter =
      moveToNextValidInAckBlock rev₂ pnSpace ackBlock iter := by
  have through : ∀ (rev : List OutstandingPacket) (i : Nat),
      LowerBound.lowerBound (fun packet => decide (packet.getPacketSequenceNum > ackBlock.endPacket))
        (rev.drop i) =
      LowerBound.lowerBound (fun key : PacketNumberSpace × Nat => decide (key.2 > ackBlock.endPacket))
        ((rev.map OutstandingPacket.key).drop i) := by
    intro rev i
    rw [← List.map_drop]
    exact LowerBound.lowerBound_map (fun key : PacketNumberSpace × Nat => decide (key.2 > ackBlock.endPacket))
      OutstandingPacket.key (rev.drop i)
  have scan : ∀ (rev : List OutstandingPacket) (i : Nat),
      ((rev.drop i).takeWhile fun packet => packet.packetNumberSpace != pnSpace).length =
        (((rev.map OutstandingPacket.key).drop i).takeWhile fun key => key.1 != pnSpace).length := by
    intro rev i
    rw [← List.map_drop, List.takeWhile_map, List.length_map]
    rfl
  have lookup : ∀ i : Nat, rev₁[i]?.map OutstandingPacket.key = rev₂[i]?.map OutstandingPacket.key := by
    intro i
    rw [← List.getElem?_map, ← List.getElem?_map, same]
  simp only [moveToNextValidInAckBlock, through, scan, same]
  generalize iter + _ + List.length _ = j
  have agree := lookup j
  cases first : rev₁[j]? <;> cases second : rev₂[j]? <;> simp only [first, second, Option.map_none,
    Option.map_some, reduceCtorEq, Option.some.injEq] at agree ⊢
  simp only [OutstandingPacket.key, Prod.mk.injEq] at agree
  rw [agree.2]

theorem moveToNextValid_congr (same : rev₁.map OutstandingPacket.key = rev₂.map OutstandingPacket.key)
    (iter : Nat) (ackBlocks : List AckBlock) :
    moveToNextValid rev₁ pnSpace iter ackBlocks = moveToNextValid rev₂ pnSpace iter ackBlocks := by
  have length : rev₁.length = rev₂.length := by simpa using congrArg List.length same
  induction ackBlocks generalizing iter with
  | nil => rfl
  | cons block rest ih => simp only [moveToNextValid, moveToNextValidInAckBlock_congr same, length, ih]

theorem next_congr (same : rev₁.map OutstandingPacket.key = rev₂.map OutstandingPacket.key)
    (it : AckedPacketIterator) : it.next rev₁ pnSpace = it.next rev₂ pnSpace := by
  have length : rev₁.length = rev₂.length := by simpa using congrArg List.length same
  simp only [next, moveToNextValid_congr same, length]

end Keys

end AckedPacketIterator

open AckedPacketIterator

/-- What one ACKed packet does to the walk: it is scheduled for destruction in place; unless it was
declared lost, its size and number go into the ACK event and it joins the visitors' list. -/
theorem ackPacket_eq_some {walk walk' : AckWalk} {iter : Nat} (acked : ackPacket walk iter = some walk') :
    ∃ packet, walk.rev[iter]? = some packet ∧
      walk'.rev = walk.rev.set iter { packet with scheduledForDestruction := true } ∧
      (packet.declaredLost = true → walk'.ack = walk.ack ∧
        walk'.packetsWithHandlerContext = walk.packetsWithHandlerContext) ∧
      (packet.declaredLost = false →
        walk'.ack = { walk.ack with
          ackedBytes := walk.ack.ackedBytes + packet.encodedSize
          largestNewlyAckedPacket := some (match walk.ack.largestNewlyAckedPacket with
            | some largest => max largest packet.getPacketSequenceNum
            | none => packet.getPacketSequenceNum) } ∧
        ∃ needsProcess, walk'.packetsWithHandlerContext = walk.packetsWithHandlerContext.insertIdx
          (handlerContextInsertionIndex walk.packetsWithHandlerContext packet.getPacketSequenceNum)
          ({ packet with scheduledForDestruction := true }, needsProcess)) := by
  unfold ackPacket at acked
  cases found : walk.rev[iter]? with
  | none => simp [found] at acked
  | some packet =>
    rw [found] at acked
    dsimp only at acked
    refine ⟨packet, rfl, ?_⟩
    by_cases lost : packet.declaredLost = true
    · -- a spurious loss only moves the counters
      rw [if_pos lost] at acked
      split_ifs at acked
      cases acked
      exact ⟨rfl, fun _ => ⟨rfl, rfl⟩, fun notLost => by simp [lost] at notLost⟩
    · rw [if_neg lost] at acked
      split_ifs at acked <;> cases acked
      all_goals exact ⟨rfl, fun lost' => absurd lost' lost, fun _ => ⟨rfl, _, rfl⟩⟩

/-- The loop visits the positions the iterator stops at, each through `ackPacket`: the flag that
sets keeps the packets' spaces and numbers, which are all the iterator reads. -/
theorem ackWalkLoop_eq_foldlM {pnSpace : PacketNumberSpace} {rev : List OutstandingPacket} :
    ∀ (fuel : Nat) (it : AckedPacketIterator) (walk : AckWalk),
      walk.rev.map OutstandingPacket.key = rev.map OutstandingPacket.key →
        ackWalkLoop pnSpace fuel it walk = (positions rev pnSpace fuel it).foldlM ackPacket walk := by
  intro fuel
  induction fuel with
  | zero => intro it walk _; rfl
  | succ fuel ih =>
    intro it walk same
    unfold ackWalkLoop positions
    by_cases valid : it.valid = true
    · rw [if_pos valid, if_pos valid, List.foldlM_cons]
      cases acked : ackPacket walk it.outstandingsIter with
      | none => rfl
      | some walk' =>
        obtain ⟨packet, found, marked, -, -⟩ := ackPacket_eq_some acked
        have keys : walk'.rev.map OutstandingPacket.key = rev.map OutstandingPacket.key := by
          obtain ⟨inside, rfl⟩ := List.getElem?_eq_some_iff.mp found
          have inside' : it.outstandingsIter < (walk.rev.map OutstandingPacket.key).length := by
            rw [List.length_map]
            exact inside
          have unchanged : OutstandingPacket.key { walk.rev[it.outstandingsIter] with scheduledForDestruction := true } =
              (walk.rev.map OutstandingPacket.key)[it.outstandingsIter] := by
            rw [List.getElem_map]
            rfl
          rw [marked, List.map_set, unchanged, List.set_getElem_self, same]
        show ackWalkLoop pnSpace fuel (it.next walk'.rev pnSpace) walk' =
          (positions rev pnSpace fuel (it.next rev pnSpace)).foldlM ackPacket walk'
        rw [next_congr keys, ih _ _ keys]
    · rw [if_neg valid, if_neg valid]
      rfl

/-- Acknowledging distinct positions adds the sizes of the packets there not declared lost. -/
theorem foldlM_ackPacket_ackedBytes :
    ∀ (positions : List Nat) {walk walk' : AckWalk}, positions.Nodup →
      positions.foldlM ackPacket walk = some walk' →
        walk'.ack.ackedBytes = walk.ack.ackedBytes +
          (((positions.filterMap (walk.rev[·]?)).filter fun packet => !packet.declaredLost).map
            OutstandingPacket.encodedSize).sum
  | [], walk, walk', _, done => by
    cases done
    simp
  | iter :: rest, walk, walk', nodup, done => by
    rw [List.foldlM_cons] at done
    obtain ⟨middle, acked, done⟩ := Option.bind_eq_some_iff.mp done
    obtain ⟨packet, found, marked, lost, kept⟩ := ackPacket_eq_some acked
    obtain ⟨outside, distinct⟩ := List.nodup_cons.mp nodup
    -- the later positions read the packets the walk started with
    have later : rest.filterMap (middle.rev[·]?) = rest.filterMap (walk.rev[·]?) :=
      List.filterMap_congr fun other member => by
        rw [marked, List.getElem?_set_ne fun same => outside (by rw [same]; exact member)]
    rw [foldlM_ackPacket_ackedBytes rest distinct done, later, List.filterMap_cons, found]
    dsimp only
    cases declared : packet.declaredLost
    · rw [(kept declared).1]
      simp [declared, Nat.add_assoc]
    · rw [(lost declared).1]
      simp [declared]

/-- The walk of `processAckFrame` over the outstanding packets, read from the back in the order
`updateConnection` keeps them, with the blocks of a decoded ACK frame: it acknowledges, from
the highest number down and once each, exactly the packets of the space that a block covers, and
the ACK event counts the bytes of those not declared lost. -/
theorem ackWalkLoop_acknowledges_covered {rev : List OutstandingPacket} {pnSpace : PacketNumberSpace}
    {ackBlocks : List AckBlock} (descending : rev.Pairwise fun p q => q.NumberedBefore p)
    (blocks : AckBlocksDescending ackBlocks) {walk : AckWalk} (start : walk.rev = rev) {fuel : Nat}
    (enough : rev.length < fuel) :
    ackWalkLoop pnSpace fuel (init rev pnSpace ackBlocks) walk =
        (ListSearch.positionsFrom (ackedBy pnSpace ackBlocks) rev 0).foldlM ackPacket walk ∧
      (ListSearch.positionsFrom (ackedBy pnSpace ackBlocks) rev 0).filterMap (rev[·]?) =
        rev.filter (ackedBy pnSpace ackBlocks) ∧
      ∀ walk', ackWalkLoop pnSpace fuel (init rev pnSpace ackBlocks) walk = some walk' →
        walk'.ack.ackedBytes = walk.ack.ackedBytes +
          (((rev.filter (ackedBy pnSpace ackBlocks)).filter fun packet => !packet.declaredLost).map
            OutstandingPacket.encodedSize).sum := by
  have loop : ackWalkLoop pnSpace fuel (init rev pnSpace ackBlocks) walk =
      (positions rev pnSpace fuel (init rev pnSpace ackBlocks)).foldlM ackPacket walk :=
    ackWalkLoop_eq_foldlM fuel _ walk (by rw [start])
  rw [positions_eq descending fuel blocks 0 _ (init_foundFrom descending blocks) (by omega)] at loop
  have visited := ListSearch.positionsFrom_zero_getElem? (p := ackedBy pnSpace ackBlocks) rev
  refine ⟨loop, visited, fun walk' done => ?_⟩
  rw [loop] at done
  rw [foldlM_ackPacket_ackedBytes _ (ListSearch.nodup_positionsFrom rev 0) done, start, visited]

/-- Packets 5 to 1 read from the back, 4 of the handshake space and the others of the application
space, each of 100 bytes and its number. -/
def fivePackets : List OutstandingPacket :=
  [5, 4, 3, 2, 1].map fun num =>
    { packet := ⟨⟨num, if num = 4 then .handshake else .keyPhaseZero⟩, []⟩, time := 0, encodedSize := 100 + num }

/-- The blocks [3, 5] and [1, 1] acknowledge packets 5, 3 and 1, and the walk visits those. -/
theorem ackWalkLoop_acknowledges_covered_fivePackets :
    ackWalkLoop .appData 6 (init fivePackets .appData [⟨3, 5⟩, ⟨1, 1⟩])
        { rev := fivePackets, outstandings := { packetCount := ⟨0, 0, 4⟩ }, ack := { ackTime := 0 } } =
      (ListSearch.positionsFrom (ackedBy .appData [⟨3, 5⟩, ⟨1, 1⟩]) fivePackets 0).foldlM ackPacket
        { rev := fivePackets, outstandings := { packetCount := ⟨0, 0, 4⟩ }, ack := { ackTime := 0 } } ∧
      (fivePackets.filter (ackedBy .appData [⟨3, 5⟩, ⟨1, 1⟩])).map OutstandingPacket.getPacketSequenceNum =
        [5, 3, 1] :=
  have descending : fivePackets.Pairwise fun p q => q.NumberedBefore p := by
    unfold OutstandingPacket.NumberedBefore
    decide
  ⟨(ackWalkLoop_acknowledges_covered descending ⟨by decide, by decide⟩ rfl (by decide)).1, by decide⟩

end Mvfst
