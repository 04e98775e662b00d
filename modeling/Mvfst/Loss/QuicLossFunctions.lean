import Mvfst.Api.QuicTransportFunctions

/-!
Loss detection of `quic/loss/QuicLossFunctions.cpp` and `QuicLossFunctions.h`: declaring sent
packets lost by the reordering and time thresholds, dropping rejected 0-RTT packets, the loss
alarm, and `markPacketLoss` on the STREAM frames of a lost packet. The loss visitor is a
callback; here the packets handed to it are returned, in order, with their `processed` flag.
-/

namespace Mvfst

/-- A lost STREAM frame: its retransmission buffer, if it is still there, moves to the loss
buffer. Streams of a group with retransmission disabled are left out. -/
def markPacketLossWriteStreamFrame (stream : QuicStreamLike) (frame : WriteStreamFrame) :
    QuicStreamLike :=
  match stream.retransmissionBuffer.lookup frame.offset with
  | none => stream
  | some buffer =>
    let stream := stream.insertIntoLossBuffer buffer
    { stream with
      retransmissionBuffer := stream.retransmissionBuffer.filter fun entry => entry.1 != frame.offset }

/-- When a packet declared lost is acknowledged after all, `modifyStateForSpuriousLoss` takes its
STREAM frames back out of the loss buffer with `removeFromLossBuffer`, which relies on
`insertIntoLossBuffer` to have merged contiguous buffers; the insertion merges a buffer only with
the one before it. Ten bytes go out in one packet and are declared lost; six of them go out again
and that packet is lost as well. The six go back in front of the four left, contiguous but not
merged, and when the first packet is acknowledged after all, removing its ten bytes removes only
the six. -/
theorem spurious_loss_keeps_acknowledged_bytes :
    ∃ lost : QuicStreamLike,
      ((handleStreamWritten { pendingWrites := [0, 1, 2, 3, 4, 5, 6, 7, 8, 9] } 0 10 false).bind fun
        | .ok (_, sent) =>
          (handleStreamWritten (markPacketLossWriteStreamFrame sent ⟨0, 0, 10, false⟩) 0 6 false).bind
            fun
            | .ok (_, resent) => some (markPacketLossWriteStreamFrame resent ⟨0, 0, 6, false⟩)
            | .error _ => none
        | .error _ => none) = some lost ∧
      lost.lossBuffer = [⟨[0, 1, 2, 3, 4, 5], 0, false⟩, ⟨[6, 7, 8, 9], 6, false⟩] ∧
      (lost.removeFromLossBuffer 0 10 false).lossBuffer = [⟨[6, 7, 8, 9], 6, false⟩] := by
  have observed : ((handleStreamWritten { pendingWrites := [0, 1, 2, 3, 4, 5, 6, 7, 8, 9] } 0 10
      false).bind fun
        | .ok (_, sent) =>
          (handleStreamWritten (markPacketLossWriteStreamFrame sent ⟨0, 0, 10, false⟩) 0 6 false).bind
            fun
            | .ok (_, resent) => some (markPacketLossWriteStreamFrame resent ⟨0, 0, 6, false⟩)
            | .error _ => none
        | .error _ => none).map (fun lost => (lost.lossBuffer,
          (lost.removeFromLossBuffer 0 10 false).lossBuffer)) =
      some ([⟨[0, 1, 2, 3, 4, 5], 0, false⟩, ⟨[6, 7, 8, 9], 6, false⟩], [⟨[6, 7, 8, 9], 6, false⟩]) := by
    decide
  obtain ⟨lost, ran, buffers⟩ := Option.map_eq_some_iff.mp observed
  simp only [Prod.mk.injEq] at buffers
  exact ⟨lost, ran, buffers⟩

/-- `subtractAndCheckUnderflow`: subtracts, stopping at 0. -/
def subtractAndCheckUnderflow (value toSub : Nat) : Nat :=
  if value < toSub then 0 else value - toSub

/-- `CongestionController::LossEvent`, without the sent times of the lost packets. -/
structure LossEvent where
  lostPacketNumbers : List Nat := []
  lostBytes : Nat := 0
  lostPackets : Nat := 0
  largestLostPacketNum : Option Nat := none
  deriving DecidableEq, Repr

def LossEvent.addLostPacket (lossEvent : LossEvent) (packet : OutstandingPacket) : LossEvent :=
  let packetNum := packet.getPacketSequenceNum
  { largestLostPacketNum := some (max packetNum (lossEvent.largestLostPacketNum.getD packetNum))
    lostPacketNumbers := lossEvent.lostPacketNumbers ++ [packetNum]
    lostBytes := lossEvent.lostBytes + packet.encodedSize
    lostPackets := lossEvent.lostPackets + 1 }

/-- `AckEvent::AckPacket::DetailsPerStream`: for each stream with data in an acknowledged
packet, the `streamPacketIdx` of its DSR frame, if it had one. -/
abbrev DetailsPerStream := List (Nat × Option Nat)

/-- `recordFrameDelivered` (and `recordFrameAlreadyDelivered`, which records the same index): a
frame with data gives its stream an entry, and a DSR frame its index. -/
def DetailsPerStream.recordFrameDelivered (details : DetailsPerStream) (frame : WriteStreamFrame)
    (streamPacketIdx : Option Nat) : DetailsPerStream :=
  if frame.len = 0 then details
  else if (details.lookup frame.streamId).isNone then
    details ++ [(frame.streamId, streamPacketIdx)]
  else details.map fun entry =>
    if entry.1 = frame.streamId then (entry.1, streamPacketIdx.or entry.2) else entry

/-- `AckEvent::AckPacket`, with what the loss detection reads of it. -/
structure AckPacket where
  packetNum : Nat
  nonDsrPacketSequenceNumber : Nat := 0
  detailsPerStream : DetailsPerStream := []
  deriving DecidableEq, Repr

/-- The `AckPacket` `processAckFrame` builds for a newly acknowledged packet: the details record
every STREAM frame of the packet. (The source records only frames of streams that still exist.) -/
def AckPacket.build (packet : OutstandingPacket) : AckPacket :=
  { packetNum := packet.getPacketSequenceNum
    nonDsrPacketSequenceNumber := packet.nonDsrPacketSequenceNumber.getD 0
    detailsPerStream := packet.packet.frames.foldl (fun details frame =>
      match frame with
      | .writeStreamFrame frame => details.recordFrameDelivered frame none
      | .writeStreamFrameFromBufMeta frame streamPacketIdx =>
        details.recordFrameDelivered frame (some streamPacketIdx)
      | _ => details) [] }

/-- `CongestionController::AckEvent`: the packets newly acknowledged, in the order the visitors
saw them, and what the loss detection reads of them. -/
structure AckEvent where
  ackTime : Nat
  implicit : Bool := false
  largestNewlyAckedPacket : Option Nat := none
  ackedBytes : Nat := 0
  ackedPackets : List AckPacket := []
  deriving DecidableEq, Repr

/-- A loss detection's result: the connection, the loss event for the congestion controller, and
the calls of the loss visitor. -/
structure LossDetection where
  conn : QuicConnectionState
  lossEvent : Option LossEvent := none
  lossVisits : List (RegularQuicWritePacket × Bool) := []

def calculatePTO (conn : QuicConnectionState) : Nat :=
  if conn.lossState.srtt = 0 then 2 * conn.transportSettings.initialRtt
  else conn.lossState.srtt + 4 * conn.lossState.rttvar + conn.lossState.maxAckDelay

/-- `OutstandingsInfo::numOutstanding`; `none` is its failed `CHECK_GE`. -/
def OutstandingsInfo.numOutstanding (outstandings : OutstandingsInfo) : Option Nat :=
  if outstandings.declaredLostCount + outstandings.scheduledForDestructionCount ≤
      outstandings.packets.length then
    some (outstandings.packets.length - outstandings.declaredLostCount -
      outstandings.scheduledForDestructionCount)
  else none

/-- The bookkeeping for a packet given up on: its clone group, if it had one, is processed from
now on. Returns the `processed` flag the visitor gets: the group was processed before. `none`
is a failed `CHECK` on a counter. -/
def OutstandingsInfo.forgetPacket (outstandings : OutstandingsInfo) (pkt : OutstandingPacket) :
    Option (OutstandingsInfo × Bool) :=
  let space := pkt.packetNumberSpace
  match pkt.maybeClonedPacketIdentifier with
  | none =>
    if outstandings.packetCount.get space = 0 then none
    else some ({ outstandings with
      packetCount := outstandings.packetCount.modify space (· - 1) }, false)
  | some identifier =>
    if outstandings.clonedPacketCount.get space = 0 then none
    else
      let processed := !outstandings.clonedPacketIdentifiers.contains identifier
      let outstandings := { outstandings with
        clonedPacketCount := outstandings.clonedPacketCount.modify space (· - 1)
        clonedPacketIdentifiers := outstandings.clonedPacketIdentifiers.erase identifier }
      if processed then some (outstandings, true)
      else if outstandings.packetCount.get space = 0 then none
      else some ({ outstandings with
        packetCount := outstandings.packetCount.modify space (· - 1) }, false)

/-- The threshold `processOutstandingsForLoss` compares a packet's reordering distance with. -/
def lossReorderingThreshold (conn : QuicConnectionState) (outstandings : OutstandingsInfo)
    (pnSpace : PacketNumberSpace) (currentPacketNum largestAckedForComparison : Nat) :
    Option Nat :=
  let threshold := if conn.transportSettings.useInflightReorderingThreshold then
      outstandings.numOutstanding.map fun numOutstanding =>
        max conn.lossState.reorderingThreshold (min (numOutstanding / 2) 256)
    else some conn.lossState.reorderingThreshold
  -- a skipped number inside the distance does not count as reordering
  threshold.map fun threshold =>
    match (conn.ackStates.get pnSpace).skippedPacketNum with
    | some skippedPacketNum =>
      if currentPacketNum ≤ skippedPacketNum ∧ skippedPacketNum ≤ largestAckedForComparison then
        threshold + 1
      else threshold
    | none => threshold

/-- The lambda of `processOutstandingsForLoss` that picks the largest acknowledged number a
packet's reordering is measured against: for a packet whose first frame is a DSR STREAM frame,
the largest acknowledged index of its stream, by default its own index; otherwise the largest
non-DSR sequence number, by default `currentPacketNum`. `none` is the failed `CHECK` that a packet
with a DSR frame first is a DSR packet. -/
def largestAckedForComparison (largestDsrAckedSeqNo : List (Nat × Nat))
    (largestNonDsrAckedSeqNo : Option Nat) (pkt : OutstandingPacket) (currentPacketNum : Nat) :
    Option Nat :=
  match pkt.packet.frames.head? with
  | some (.writeStreamFrameFromBufMeta frame streamPacketIdx) =>
    if pkt.isDSRPacket then some ((largestDsrAckedSeqNo.lookup frame.streamId).getD streamPacketIdx)
    else none
  | _ => some (largestNonDsrAckedSeqNo.getD currentPacketNum)

/-- What `processOutstandingsForLoss` carries through its loop besides the packets. -/
structure LossScan where
  outstandings : OutstandingsInfo
  lossEvent : LossEvent := {}
  lossVisits : List (RegularQuicWritePacket × Bool) := []
  shouldSetTimer : Bool := false

/-- The loop of `processOutstandingsForLoss` over the packets from the first outstanding one of
the space: it stops at the first packet numbered from `largestAcked` on, skips packets scheduled
for destruction, of other spaces or already lost, and declares lost those past the time or the
reordering threshold. The counters' list of packets is the one before the scan. -/
def processOutstandingsForLossLoop (conn : QuicConnectionState) (largestAcked : Nat)
    (pnSpace : PacketNumberSpace) (largestDsrAckedSeqNo : List (Nat × Nat))
    (largestNonDsrAckedSeqNo : Option Nat) (lossTime delayUntilLost : Nat) :
    List OutstandingPacket → LossScan → Option (List OutstandingPacket × LossScan)
  | [], scan => some ([], scan)
  | pkt :: rest, scan =>
    let keep (scan : LossScan) :=
      (processOutstandingsForLossLoop conn largestAcked pnSpace largestDsrAckedSeqNo
        largestNonDsrAckedSeqNo lossTime delayUntilLost rest scan).map fun (rest, scan) =>
          (pkt :: rest, scan)
    if pkt.scheduledForDestruction then keep scan
    else if pkt.getPacketSequenceNum ≥ largestAcked then some (pkt :: rest, scan)
    else if pkt.packetNumberSpace ≠ pnSpace ∨ pkt.declaredLost then keep scan
    else
      -- `maybeCurrentStreamPacketIdx` is read here while still empty: the lambda assigns it only
      -- afterwards, so a DSR packet is measured by its packet number
      let currentPacketNum := pkt.nonDsrPacketSequenceNumber.getD pkt.getPacketSequenceNum
      match largestAckedForComparison largestDsrAckedSeqNo largestNonDsrAckedSeqNo pkt
          currentPacketNum with
      | none => none
      | some largest =>
      let largestAckedForComparison := max largest currentPacketNum
      let lostByTimeout := lossTime - pkt.time > delayUntilLost
      let reorderDistance := largestAckedForComparison - currentPacketNum
      match lossReorderingThreshold conn scan.outstandings pnSpace currentPacketNum
          largestAckedForComparison with
      | none => none
      | some reorderingThreshold =>
        if ¬(lostByTimeout ∨ reorderDistance > reorderingThreshold) then
          keep { scan with shouldSetTimer := true }
        else if pkt.isDSRPacket ∧ scan.outstandings.dsrCount = 0 then none
        else
          let dsrCount := if pkt.isDSRPacket then scan.outstandings.dsrCount - 1
            else scan.outstandings.dsrCount
          match { scan.outstandings with dsrCount }.forgetPacket pkt with
          | none => none
          | some (outstandings, processed) =>
            let scan := { scan with
              outstandings := { outstandings with
                declaredLostCount := outstandings.declaredLostCount + 1 }
              lossEvent := scan.lossEvent.addLostPacket pkt
              lossVisits := scan.lossVisits ++ [(pkt.packet, processed)] }
            (processOutstandingsForLossLoop conn largestAcked pnSpace largestDsrAckedSeqNo
              largestNonDsrAckedSeqNo lossTime delayUntilLost rest scan).map fun (rest, scan) =>
                ({ pkt with declaredLost := true } :: rest, scan)

def processOutstandingsForLoss (conn : QuicConnectionState) (largestAcked : Nat)
    (pnSpace : PacketNumberSpace) (largestDsrAckedSeqNo : List (Nat × Nat))
    (largestNonDsrAckedSeqNo : Option Nat) (lossTime delayUntilLost : Nat) :
    Option (QuicConnectionState × LossScan) :=
  let packets := conn.outstandings.packets
  -- `getFirstOutstandingPacket`: the scan starts at the first outstanding packet of the space
  let skipped := packets.takeWhile fun pkt => !pkt.isOutstandingIn pnSpace
  let scanned := packets.dropWhile fun pkt => !pkt.isOutstandingIn pnSpace
  (processOutstandingsForLossLoop conn largestAcked pnSpace largestDsrAckedSeqNo
      largestNonDsrAckedSeqNo lossTime delayUntilLost scanned
      { outstandings := conn.outstandings }).map fun (scanned, scan) =>
    ({ conn with outstandings := { scan.outstandings with packets := skipped ++ scanned } }, scan)

/-- The largest acknowledged index of each DSR stream and the largest acknowledged non-DSR
sequence number, over the packets an ACK newly acknowledged. A packet without stream data counts
as a non-DSR packet. -/
def largestAckedSeqNos (ackedPackets : List AckPacket) : List (Nat × Nat) × Option Nat :=
  ackedPackets.foldl (fun (largestDsr, largestNonDsr) ackPacket =>
    let nonDsr (largestNonDsr : Option Nat) :=
      some (max (largestNonDsr.getD 0) ackPacket.nonDsrPacketSequenceNumber)
    let (largestDsr, largestNonDsr) := ackPacket.detailsPerStream.foldl
      (fun (largestDsr, largestNonDsr) (stream, streamPacketIdx) =>
        match streamPacketIdx with
        | some streamPacketIdx =>
          let largest := max ((largestDsr.lookup stream).getD streamPacketIdx) streamPacketIdx
          ((stream, largest) :: largestDsr.filter (·.1 != stream), largestNonDsr)
        | none => (largestDsr, nonDsr largestNonDsr))
      (largestDsr, largestNonDsr)
    (largestDsr, if ackPacket.detailsPerStream.isEmpty then nonDsr largestNonDsr else largestNonDsr))
    ([], none)

/-- Declares lost the packets of a space past the thresholds, relative to the largest packet the
peer acknowledged, and sets the space's loss timer for the earliest packet still outstanding. -/
def detectLossPackets (conn : QuicConnectionState) (lossTime : Nat) (pnSpace : PacketNumberSpace)
    (ackEvent : Option AckEvent) : Option LossDetection :=
  let conn := { conn with lossState := { conn.lossState with
    lossTimes := conn.lossState.lossTimes.modify pnSpace fun _ => none } }
  let rttSample := max conn.lossState.srtt conn.lossState.lrtt
  let delayUntilLost := rttSample * conn.transportSettings.timeReorderingThreshDividend /
    conn.transportSettings.timeReorderingThreshDivisor
  let ackState := conn.ackStates.get pnSpace
  let (largestDsrAckedSeqNo, largestNonDsrAckedSeqNo) := match ackEvent with
    | some ackEvent => largestAckedSeqNos ackEvent.ackedPackets
    | none => ([], none)
  -- the non-DSR number the peer acknowledged before counts when no DSR packet was acknowledged
  let largestNonDsrAckedSeqNo :=
    match largestDsrAckedSeqNo.isEmpty, ackState.largestNonDsrSequenceNumberAckedByPeer with
    | true, some acked => some (largestNonDsrAckedSeqNo.getD acked)
    | _, _ => largestNonDsrAckedSeqNo
  let processed := match ackState.largestAckedByPeer with
    | some largestAcked =>
      processOutstandingsForLoss conn largestAcked pnSpace largestDsrAckedSeqNo
        largestNonDsrAckedSeqNo lossTime delayUntilLost
    | none => some (conn, { outstandings := conn.outstandings })
  processed.map fun (conn, scan) =>
    -- the earliest outstanding packet of the space whose clone group is not processed yet
    let earliest := conn.outstandings.packets.find? fun pkt =>
      pkt.isOutstandingIn pnSpace && match pkt.maybeClonedPacketIdentifier with
        | none => true
        | some identifier => conn.outstandings.clonedPacketIdentifiers.contains identifier
    let lossTimes := match earliest with
      | some earliest =>
        if scan.shouldSetTimer then
          conn.lossState.lossTimes.modify pnSpace fun _ => some (delayUntilLost + earliest.time)
        else conn.lossState.lossTimes
      | none => conn.lossState.lossTimes
    let conn := { conn with lossState := { conn.lossState with lossTimes } }
    if scan.lossEvent.largestLostPacketNum.isSome then
      let conn := { conn with lossState := { conn.lossState with
        rtxCount := conn.lossState.rtxCount + scan.lossEvent.lostPackets } }
      { conn, lossVisits := scan.lossVisits
        lossEvent := if conn.hasCongestionController then some scan.lossEvent else none }
    else { conn, lossVisits := scan.lossVisits }

/-- The loss detection an ACK triggers, after it records the largest packet acknowledged. -/
def handleAckForLoss (conn : QuicConnectionState) (ack : AckEvent) (pnSpace : PacketNumberSpace) :
    Option LossDetection :=
  let conn := match ack.largestNewlyAckedPacket with
    | some largestNewlyAckedPacket =>
      let ackState := conn.ackStates.get pnSpace
      let ackState := { ackState with
        largestAckedByPeer := some
          (max (ackState.largestAckedByPeer.getD largestNewlyAckedPacket) largestNewlyAckedPacket) }
      -- a sequence number of 0 reads as absent in the source
      let ackState := match ack.ackedPackets.find? (·.packetNum == largestNewlyAckedPacket) with
        | some acked =>
          if acked.nonDsrPacketSequenceNumber ≠ 0 then
            { ackState with
              largestNonDsrSequenceNumberAckedByPeer := some (max
                (ackState.largestNonDsrSequenceNumberAckedByPeer.getD acked.nonDsrPacketSequenceNumber)
                acked.nonDsrPacketSequenceNumber) }
          else ackState
        | none => ackState
      { conn with
        lossState := { conn.lossState with ptoCount := 0 }
        ackStates := conn.ackStates.set pnSpace ackState }
    | none => conn
  detectLossPackets conn ack.ackTime pnSpace (some ack)

/-- The loop of `markZeroRttPacketsLost`: every outstanding 0-RTT packet is given up on and
erased. -/
def markZeroRttPacketsLostLoop :
    List OutstandingPacket → LossScan → Option (List OutstandingPacket × LossScan)
  | [], scan => some ([], scan)
  | pkt :: rest, scan =>
    if pkt.isOutstandingIn .appData && pkt.packet.header.protectionType == .zeroRtt then
      match scan.outstandings.forgetPacket pkt with
      | none => none
      | some (outstandings, processed) =>
        markZeroRttPacketsLostLoop rest { scan with
          outstandings
          lossEvent := scan.lossEvent.addLostPacket pkt
          lossVisits := scan.lossVisits ++ [(pkt.packet, processed)] }
    else (markZeroRttPacketsLostLoop rest scan).map fun (rest, scan) => (pkt :: rest, scan)

/-- Forces every outstanding 0-RTT packet lost when the server rejects 0-RTT, and takes their
bytes out of flight. -/
def markZeroRttPacketsLost (conn : QuicConnectionState) : Option LossDetection :=
  (markZeroRttPacketsLostLoop conn.outstandings.packets
      { outstandings := conn.outstandings }).map fun (packets, scan) =>
    let inflightBytes :=
      if conn.hasCongestionController && scan.lossEvent.largestLostPacketNum.isSome then
        subtractAndCheckUnderflow conn.lossState.inflightBytes scan.lossEvent.lostBytes
      else conn.lossState.inflightBytes
    { conn := { conn with
        outstandings := { scan.outstandings with packets }
        lossState := { conn.lossState with
          rtxCount := conn.lossState.rtxCount + scan.lossEvent.lostPackets
          inflightBytes } }
      lossVisits := scan.lossVisits }

/-- The earliest of the spaces' times, the application space only when asked, with its space. -/
def earliestTimeAndSpace (times : EnumArray (Option Nat)) (considerAppData : Bool) :
    Option Nat × PacketNumberSpace :=
  let consider (res : Option Nat × PacketNumberSpace) (pns : PacketNumberSpace) :=
    match times.get pns with
    | none => res
    | some time =>
      if pns = .appData ∧ !considerAppData then res
      else match res.1 with
        | none => (some time, pns)
        | some earliest => if earliest > time then (some time, pns) else res
  [PacketNumberSpace.initial, .handshake, .appData].foldl consider (none, .initial)

/-- The application space's loss timer counts once the 1-RTT keys are there. -/
def earliestLossTimer (conn : QuicConnectionState) : Option Nat × PacketNumberSpace :=
  earliestTimeAndSpace conn.lossState.lossTimes conn.oneRttWriteCipher

/-- The probe timeout fired. Scheduling the probe packets is left out. -/
def onPTOAlarm (conn : QuicConnectionState) : Option (Except QuicError LossDetection) :=
  let conn := { conn with lossState := { conn.lossState with
    ptoCount := conn.lossState.ptoCount + 1 } }
  if conn.lossState.ptoCount ≥ conn.transportSettings.maxNumPTOs then
    some (.error ⟨.local .connectionAbandoned, "Exceeded max PTO"⟩)
  -- the first probe timeout with 1-RTT keys may send the 0-RTT data again, once
  else if conn.transportSettings.earlyRetransmit0Rtt && !conn.lossState.attemptedEarlyRetransmit0Rtt &&
      conn.oneRttWriteCipher then
    let conn := { conn with lossState := { conn.lossState with
      attemptedEarlyRetransmit0Rtt := true } }
    (markZeroRttPacketsLost conn).map .ok
  else some (.ok { conn })

/-- The loss alarm fired at `now`: it runs the loss detection of the space whose loss timer is
earliest, or the probe timeout. -/
def onLossDetectionAlarm (conn : QuicConnectionState) (now : Nat) :
    Option (Except QuicError LossDetection) :=
  if conn.outstandings.packets = [] then some (.ok { conn })
  else match conn.lossState.currentAlarmMethod with
    | .earlyRetransmitOrReordering =>
      match earliestLossTimer conn with
      | (none, _) => none
      | (some _, space) =>
        (detectLossPackets conn now space none).map fun detection =>
          match detection.lossEvent with
          | some lossEvent =>
            if detection.conn.hasCongestionController then
              let conn := detection.conn
              .ok { detection with conn := { conn with lossState := { conn.lossState with
                inflightBytes := subtractAndCheckUnderflow conn.lossState.inflightBytes
                  lossEvent.lostBytes } } }
            else .ok detection
          | none => .ok detection
    | .pto => onPTOAlarm conn

end Mvfst
