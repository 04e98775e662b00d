import Mvfst.Loss.QuicLossFunctions

/-!
ACK processing: `AckedPacketIterator` of `quic/state/AckedPacketIterator.cpp`, which walks the
outstanding packets from the back through the ACK blocks, and `processAckFrame`,
`clearOldOutstandingPackets` and `removeOutstandingsForAck` of `quic/state/AckHandlers.cpp`.
The visitors are callbacks; here the packets handed to the ACKed packet visitor are returned, in
order, with whether their frames are processed. Left out: RTT samples, ECN counts, receive
timestamps, byte totals, observers, and the adaptive loss thresholds a spurious loss may raise.
-/

namespace Mvfst

structure ReadAckFrame where
  largestAcked : Nat
  ackDelay : Nat := 0
  implicit : Bool := false
  /-- In descending order. -/
  ackBlocks : List AckBlock
  deriving DecidableEq, Repr

inductive MoveResult where
  | success | failure
  deriving DecidableEq, Repr

/-- `AckedPacketIterator` over the outstanding packets read from the back (`rev`):
`outstandingsIter` is a position in `rev`, `ackBlockIter` the ACK blocks not passed yet. -/
structure AckedPacketIterator where
  outstandingsIter : Nat
  ackBlockIter : List AckBlock
  valid : Bool
  deriving DecidableEq, Repr

namespace AckedPacketIterator

variable (rev : List OutstandingPacket) (pnSpace : PacketNumberSpace)

/-- Binary search from `iter` for the first packet not above the block's end, then past packets
of other spaces; it succeeds on a packet of the space not below the block's start. -/
def moveToNextValidInAckBlock (ackBlock : AckBlock) (iter : Nat) : Nat × MoveResult :=
  let iter := iter + LowerBound.lowerBound
    (fun packet => decide (packet.getPacketSequenceNum > ackBlock.endPacket)) (rev.drop iter)
  let iter := iter + ((rev.drop iter).takeWhile fun packet => packet.packetNumberSpace != pnSpace).length
  match rev[iter]? with
  | some packet =>
    if packet.getPacketSequenceNum < ackBlock.startPacket then (iter, .failure)
    else (iter, .success)
  | none => (iter, .failure)

/-- Tries the current block, then the following ones, until a packet is found or the packets or
the blocks run out. -/
def moveToNextValid (iter : Nat) : List AckBlock → Nat × List AckBlock × MoveResult
  | [] => (iter, [], .failure)
  | ackBlock :: rest =>
    let (iter, moveResult) := moveToNextValidInAckBlock rev pnSpace ackBlock iter
    if rev.length ≤ iter then (iter, ackBlock :: rest, .failure)
    else if moveResult = .success then (iter, ackBlock :: rest, .success)
    else moveToNextValid iter rest

/-- The constructor: from the last packet of the space, declared lost or not, to the first one
an ACK block covers. -/
def init (ackBlocks : List AckBlock) : AckedPacketIterator :=
  let iter := (rev.takeWhile fun packet => packet.packetNumberSpace != pnSpace).length
  let (iter, ackBlockIter, moveResult) := moveToNextValid rev pnSpace iter ackBlocks
  ⟨iter, ackBlockIter, moveResult = .success⟩

def next (it : AckedPacketIterator) : AckedPacketIterator :=
  let iter := it.outstandingsIter + 1
  if rev.length ≤ iter then { it with outstandingsIter := iter, valid := false }
  else
    let (iter, ackBlockIter, moveResult) := moveToNextValid rev pnSpace iter it.ackBlockIter
    ⟨iter, ackBlockIter, moveResult = .success⟩

/-- The packets of the space from `iter` on numbered from `startPacket` on, which the erase loop
walks over. -/
def eraseRun (startPacket iter : Nat) : List OutstandingPacket :=
  (rev.drop iter).takeWhile fun packet =>
    decide (packet.getPacketSequenceNum ≥ startPacket) && packet.packetNumberSpace == pnSpace

end AckedPacketIterator

open AckedPacketIterator

/-- The erase loop of `eraseAckedOutstandings` in one block: each run of packets of the space in
the block is erased; every one must be scheduled for destruction. `fuel` bounds the runs (each
erases a packet). Returns the packets read from the back and the counter. -/
def eraseInAckBlock (pnSpace : PacketNumberSpace) (ackBlock : AckBlock) :
    Nat → List OutstandingPacket → Nat → Nat → Option (List OutstandingPacket × Nat × Nat)
  | 0, rev, iter, scheduledForDestructionCount => some (rev, iter, scheduledForDestructionCount)
  | fuel + 1, rev, iter, scheduledForDestructionCount =>
    let (iter, moveResult) := moveToNextValidInAckBlock rev pnSpace ackBlock iter
    if moveResult = .failure then some (rev, iter, scheduledForDestructionCount)
    else
      let run := eraseRun rev pnSpace ackBlock.startPacket iter
      if run.all (·.scheduledForDestruction) && decide (run.length ≤ scheduledForDestructionCount) then
        eraseInAckBlock pnSpace ackBlock fuel (rev.take iter ++ rev.drop (iter + run.length)) iter
          (scheduledForDestructionCount - run.length)
      else none

def eraseAckedOutstandingsLoop (pnSpace : PacketNumberSpace) :
    List AckBlock → List OutstandingPacket → Nat → Nat → Option (List OutstandingPacket × Nat)
  | [], rev, _, scheduledForDestructionCount => some (rev, scheduledForDestructionCount)
  | ackBlock :: rest, rev, iter, scheduledForDestructionCount =>
    match eraseInAckBlock pnSpace ackBlock (rev.length + 1) rev iter scheduledForDestructionCount with
    | none => none
    | some (rev, iter, scheduledForDestructionCount) =>
      eraseAckedOutstandingsLoop pnSpace rest rev iter scheduledForDestructionCount

/-- `removeOutstandingsForAck`: a fresh iterator erases the packets of the space the blocks
cover. -/
def removeOutstandingsForAck (conn : QuicConnectionState) (pnSpace : PacketNumberSpace)
    (frame : ReadAckFrame) : Option QuicConnectionState :=
  let rev := conn.outstandings.packets.reverse
  let it := AckedPacketIterator.init rev pnSpace frame.ackBlocks
  (eraseAckedOutstandingsLoop pnSpace it.ackBlockIter rev it.outstandingsIter
      conn.outstandings.scheduledForDestructionCount).map fun (rev, scheduledForDestructionCount) =>
    { conn with outstandings := { conn.outstandings with
      packets := rev.reverse, scheduledForDestructionCount } }

/-- The loop of `clearOldOutstandingPackets`: from the front, packets of the space declared lost
longer than `threshold` ago are erased, passing over packets of other spaces or scheduled for
destruction, up to the first other packet or one sent after `time`. -/
def clearOldOutstandingPacketsLoop (time threshold : Nat) (pnSpace : PacketNumberSpace) :
    List OutstandingPacket → Nat → Option (List OutstandingPacket × Nat)
  | [], declaredLostCount => some ([], declaredLostCount)
  | packet :: rest, declaredLostCount =>
    if time < packet.time then some (packet :: rest, declaredLostCount)
    else if packet.packetNumberSpace ≠ pnSpace ∨ packet.scheduledForDestruction then
      (clearOldOutstandingPacketsLoop time threshold pnSpace rest declaredLostCount).map
        fun (rest, declaredLostCount) => (packet :: rest, declaredLostCount)
    else if packet.declaredLost ∧ time - packet.time > threshold then
      if declaredLostCount = 0 then none
      else clearOldOutstandingPacketsLoop time threshold pnSpace rest (declaredLostCount - 1)
    else some (packet :: rest, declaredLostCount)

/-- Reaps packets declared lost long enough ago that an ACK for them is unlikely. -/
def clearOldOutstandingPackets (conn : QuicConnectionState) (time : Nat)
    (pnSpace : PacketNumberSpace) : Option QuicConnectionState :=
  if conn.outstandings.declaredLostCount = 0 then some conn
  else
    (clearOldOutstandingPacketsLoop time (calculatePTO conn) pnSpace conn.outstandings.packets
        conn.outstandings.declaredLostCount).map fun (packets, declaredLostCount) =>
      { conn with outstandings := { conn.outstandings with packets, declaredLostCount } }

/-- What the walk over the ACKed packets carries: the packets read from the back with their new
flags, the counters, the ACK event, and the packets for the visitors, sorted by descending number,
with whether all their frames are processed. -/
structure AckWalk where
  rev : List OutstandingPacket
  outstandings : OutstandingsInfo
  ack : AckEvent
  packetsWithHandlerContext : List (OutstandingPacket × Bool) := []

/-- Where a packet joins `packetsWithHandlerContext`: after the last one numbered above it. -/
def handlerContextInsertionIndex (packetsWithHandlerContext : List (OutstandingPacket × Bool))
    (packetNum : Nat) : Nat :=
  packetsWithHandlerContext.length -
    (packetsWithHandlerContext.reverse.takeWhile fun entry =>
      !decide (entry.1.getPacketSequenceNum > packetNum)).length

/-- One ACKed packet: it is scheduled for destruction; a packet declared lost only counts as a
spurious loss; any other leaves the counters and joins the visitors' list. `none` is a failed
`CHECK` on a counter. -/
def ackPacket (walk : AckWalk) (iter : Nat) : Option AckWalk :=
  match walk.rev[iter]? with
  | none => none
  | some packet =>
    let space := packet.packetNumberSpace
    let packet := { packet with scheduledForDestruction := true }
    let outstandings := { walk.outstandings with
      scheduledForDestructionCount := walk.outstandings.scheduledForDestructionCount + 1 }
    let rev := walk.rev.set iter packet
    if packet.declaredLost then
      -- `modifyStateForSpuriousLoss`
      if outstandings.declaredLostCount = 0 then none
      else some { walk with
        rev
        outstandings := { outstandings with declaredLostCount := outstandings.declaredLostCount - 1 } }
    else
      let needsProcess : Bool := match packet.maybeClonedPacketIdentifier with
        | none => true
        | some identifier => outstandings.clonedPacketIdentifiers.contains identifier
      if needsProcess && outstandings.packetCount.get space == 0 then none
      else if packet.maybeClonedPacketIdentifier.isSome && outstandings.clonedPacketCount.get space == 0 then
        none
      else
        let packetCount := if needsProcess then outstandings.packetCount.modify space (· - 1)
          else outstandings.packetCount
        let outstandings := match packet.maybeClonedPacketIdentifier with
          | none => { outstandings with packetCount }
          | some identifier => { outstandings with
              packetCount
              clonedPacketCount := outstandings.clonedPacketCount.modify space (· - 1)
              clonedPacketIdentifiers := outstandings.clonedPacketIdentifiers.erase identifier }
        let packetNum := packet.getPacketSequenceNum
        let ack := { walk.ack with
          ackedBytes := walk.ack.ackedBytes + packet.encodedSize
          largestNewlyAckedPacket := some (match walk.ack.largestNewlyAckedPacket with
            | some largest => max largest packetNum
            | none => packetNum) }
        let packetsWithHandlerContext := walk.packetsWithHandlerContext.insertIdx
          (handlerContextInsertionIndex walk.packetsWithHandlerContext packetNum)
          (packet, needsProcess)
        some { rev, outstandings, ack, packetsWithHandlerContext }

/-- The walk of `processAckFrame` over the packets the iterator yields. Each step moves the
iterator forward, so the number of packets is enough fuel. -/
def ackWalkLoop (pnSpace : PacketNumberSpace) : Nat → AckedPacketIterator → AckWalk → Option AckWalk
  | 0, _, walk => some walk
  | fuel + 1, it, walk =>
    if it.valid then
      match ackPacket walk it.outstandingsIter with
      | none => none
      | some walk => ackWalkLoop pnSpace fuel (it.next walk.rev pnSpace) walk
    else some walk

/-- `processAckFrame`'s result: the connection, the ACK event, the calls of the ACKed packet
visitor with whether the frames are visited too, and the calls of the loss visitor. -/
structure AckProcessing where
  conn : QuicConnectionState
  ack : AckEvent
  ackedPacketVisits : List (OutstandingPacket × Bool)
  lossVisits : List (RegularQuicWritePacket × Bool)

def processAckFrame (conn : QuicConnectionState) (pnSpace : PacketNumberSpace)
    (frame : ReadAckFrame) (ackReceiveTime : Nat) : Option (Except QuicError AckProcessing) :=
  let ackState := conn.ackStates.get pnSpace
  if frame.largestAcked ≥ ackState.nextPacketNum then
    some (.error ⟨.transport .protocolViolation, "Future packet number acked"⟩)
  else
    let skippedAcked := match ackState.skippedPacketNum with
      | some skippedPacketNum => frame.ackBlocks.any fun block =>
          decide (block.startPacket ≤ skippedPacketNum ∧ skippedPacketNum ≤ block.endPacket)
      | none => false
    if skippedAcked then
      some (.error ⟨.transport .protocolViolation, "Skipped packet number acked"⟩)
    else
      -- a skipped number far enough behind is not checked any more
      let skippedPacketNum := match ackState.skippedPacketNum, frame.ackBlocks.getLast? with
        | some skippedPacketNum, some lastBlock =>
          if lastBlock.startPacket > skippedPacketNum + 1000 then none else some skippedPacketNum
        | skippedPacketNum, _ => skippedPacketNum
      let conn := { conn with
        ackStates := conn.ackStates.set pnSpace { ackState with skippedPacketNum } }
      let rev := conn.outstandings.packets.reverse
      let it := AckedPacketIterator.init rev pnSpace frame.ackBlocks
      let walk : AckWalk :=
        { rev, outstandings := conn.outstandings
          ack := { ackTime := ackReceiveTime, implicit := frame.implicit } }
      match ackWalkLoop pnSpace (rev.length + 1) it walk with
      | none => none
      | some walk =>
        -- the visitors see the packets in increasing order
        let ackedPacketVisits := walk.packetsWithHandlerContext.reverse
        let ack := { walk.ack with
          ackedPackets := ackedPacketVisits.map fun visit => AckPacket.build visit.1 }
        let dsrPacketsAcked := (ackedPacketVisits.filter fun visit => visit.1.isDSRPacket).length
        let outstandings := { walk.outstandings with
          packets := walk.rev.reverse
          dsrCount := walk.outstandings.dsrCount - dsrPacketsAcked }
        let numClonedPackets := outstandings.clonedPacketCount.initial +
          outstandings.clonedPacketCount.handshake + outstandings.clonedPacketCount.appData
        let checked := decide (dsrPacketsAcked ≤ walk.outstandings.dsrCount) &&
          outstandings.declaredLostCount ≤ outstandings.packets.length &&
          match outstandings.numOutstanding with
          | some numOutstanding => decide (numClonedPackets ≤ numOutstanding)
          | none => false
        if !checked then none
        else
          let conn := { conn with outstandings }
          match handleAckForLoss conn ack pnSpace with
          | none => none
          | some detection =>
            -- `updateCongestionControllerForAck`
            let conn := detection.conn
            let inflightBytes :=
              if conn.hasCongestionController ∧
                  (ack.largestNewlyAckedPacket.isSome ∨ detection.lossEvent.isSome) then
                let afterAck := subtractAndCheckUnderflow conn.lossState.inflightBytes ack.ackedBytes
                match detection.lossEvent with
                | some lossEvent => subtractAndCheckUnderflow afterAck lossEvent.lostBytes
                | none => afterAck
              else conn.lossState.inflightBytes
            let conn := { conn with lossState := { conn.lossState with inflightBytes } }
            match clearOldOutstandingPackets conn ackReceiveTime pnSpace with
            | none => none
            | some conn =>
              (removeOutstandingsForAck conn pnSpace frame).map fun conn =>
                .ok { conn, ack, ackedPacketVisits, lossVisits := detection.lossVisits }

end Mvfst
