import Mvfst.State.ConnectionState

/-!
What `quic/api/QuicTransportFunctions.cpp` does once a packet is written (`updateConnection`).
A STREAM frame moves new data from `pendingWrites` to the retransmission buffer, or (part of) a
loss buffer there, and a clone changes nothing. The packet itself joins the outstanding packets in
packet-number order, with the counters and the bytes in flight. Left out: statistics
(`numPacketsTxWithNewData`, byte and packet totals), the ACK send state, blocked frames and the
handling of control frames, which touch nothing modelled here. A failed `CHECK` is `none`.
-/

namespace Mvfst

open QuicStreamLike

def handleNewStreamDataWritten (stream : QuicStreamLike) (frameLen : Nat) (frameFin : Bool) :
    Option QuicStreamLike :=
  let originalOffset := stream.currentWriteOffset
  let bufWritten := stream.pendingWrites.take frameLen
  -- the FIN takes one offset of its own
  let currentWriteOffset := originalOffset + frameLen + if frameFin then 1 else 0
  if (stream.retransmissionBuffer.lookup originalOffset).isSome then none
  else some { stream with
    currentWriteOffset
    pendingWrites := stream.pendingWrites.drop frameLen
    retransmissionBuffer :=
      (originalOffset, ⟨bufWritten, originalOffset, frameFin⟩) :: stream.retransmissionBuffer }

/-- `lossBufferIter` is the index of the loss buffer the frame was cut from. -/
def handleRetransmissionWritten (stream : QuicStreamLike) (frameOffset frameLen : Nat)
    (frameFin : Bool) (lossBufferIter : Nat) : Option QuicStreamLike :=
  match stream.lossBuffer[lossBufferIter]? with
  | none => none
  | some lossBuffer =>
    if (stream.retransmissionBuffer.lookup frameOffset).isSome then none
    else if frameLen = lossBuffer.data.length ∧ frameFin = lossBuffer.eof then
      some { stream with
        lossBuffer := stream.lossBuffer.eraseIdx lossBufferIter
        retransmissionBuffer :=
          (frameOffset, ⟨lossBuffer.data, frameOffset, frameFin⟩) :: stream.retransmissionBuffer }
    else
      let rest := { lossBuffer with
        offset := lossBuffer.offset + frameLen
        data := lossBuffer.data.drop frameLen }
      some { stream with
        lossBuffer := stream.lossBuffer.set lossBufferIter rest
        retransmissionBuffer := (frameOffset, ⟨lossBuffer.data.take frameLen, frameOffset, frameFin⟩) ::
          stream.retransmissionBuffer }

/-- A STREAM frame was written in a packet: new data if it starts at the write offset, a
retransmission if a loss buffer starts where it does, a clone otherwise. `true` marks new data. -/
def handleStreamWritten (stream : QuicStreamLike) (frameOffset frameLen : Nat) (frameFin : Bool) :
    Option (Except QuicError (Bool × QuicStreamLike)) :=
  if frameOffset = stream.currentWriteOffset then
    (handleNewStreamDataWritten stream frameLen frameFin).map fun stream => .ok (true, stream)
  else if frameOffset > stream.currentWriteOffset then
    some (.error ⟨.transport .internalError,
      "Byte offset of first byte in written stream frame (" ++ toString frameOffset ++
        ") is greater than stream's current write offset (" ++
        toString stream.currentWriteOffset ++ ")"⟩)
  else
    let lossBufferIter := LowerBound.lowerBound (fun buf => decide (buf.offset < frameOffset))
      stream.lossBuffer
    match stream.lossBuffer[lossBufferIter]? with
    | some lossBuffer =>
      if lossBuffer.offset = frameOffset then
        (handleRetransmissionWritten stream frameOffset frameLen frameFin lossBufferIter).map
          fun stream => .ok (false, stream)
      else some (.ok (false, stream))
    | none => some (.ok (false, stream))

/-- The STREAM frame case of `updateConnection`: new data also moves from the connection's
buffered sum to its written sum. -/
def updateConnectionWriteStreamFrame (stream : QuicStreamState) (conn : ConnectionFlowControlState)
    (writeStreamFrame : WriteStreamFrame) :
    Option (Except QuicError (QuicStreamState × ConnectionFlowControlState)) :=
  match handleStreamWritten stream.toQuicStreamLike writeStreamFrame.offset writeStreamFrame.len
      writeStreamFrame.fin with
  | none => none
  | some (.error e) => some (.error e)
  | some (.ok (newStreamDataWritten, written)) =>
    let stream := { stream with toQuicStreamLike := written }
    if newStreamDataWritten then
      some (match FlowControl.updateFlowControlOnWriteToSocket conn writeStreamFrame.len with
        | .error e => .error e
        | .ok conn => .ok (stream, conn))
    else some (.ok (stream, conn))

/-- `addAndCheckOverflow`: adds, capping at `maxValue` instead of passing it. -/
def addAndCheckOverflow (value toAdd maxValue : Nat) : Nat :=
  if 2 ^ 64 - 1 - toAdd < value then maxValue
  else if value + toAdd > maxValue then maxValue
  else value + toAdd

/-- Where `updateConnection` inserts a packet: after the last packet with a smaller number,
found from the back. -/
def outstandingInsertionIndex (packets : List OutstandingPacket) (packetNum : Nat) : Nat :=
  packets.length -
    (packets.reverse.takeWhile fun p => !decide (p.getPacketSequenceNum < packetNum)).length

/-- The packet-level part of `updateConnection`. A packet with only ACK, padding and untracked
datagram frames is not kept. `skipPacketNumber` is the random draw that may skip the next packet
number. A DSR packet takes a packet number but no non-DSR sequence number. -/
def updateConnection (conn : QuicConnectionState)
    (clonedPacketIdentifier : Option ClonedPacketIdentifier) (packet : RegularQuicWritePacket)
    (sentTime encodedSize : Nat) (skipPacketNumber isDSRPacket : Bool) : QuicConnectionState :=
  let retransmittable := packet.frames.any fun
    | .writeAckFrame | .paddingFrame | .datagramFrame => false
    | _ => true
  let isPing := packet.frames.contains .pingFrame
  let hasDatagramAndShouldTrack := packet.frames.contains .datagramFrame &&
    conn.transportSettings.datagramConstrainedAndTracked
  let packetNumberSpace := packet.header.getPacketNumberSpace
  let ackState := conn.ackStates.get packetNumberSpace
  let nonDsrPacketSequenceNumber := ackState.nonDsrPacketSequenceNumber
  -- `increaseNextPacketNum`, once more if the draw skips a number
  let nonDsrIncrement := if isDSRPacket then 0 else 1
  let ackState := { ackState with
    nextPacketNum := ackState.nextPacketNum + 1
    nonDsrPacketSequenceNumber := ackState.nonDsrPacketSequenceNumber + nonDsrIncrement }
  let ackState := if ackState.skippedPacketNum.isNone && skipPacketNumber then
      { ackState with
        skippedPacketNum := some ackState.nextPacketNum
        nextPacketNum := ackState.nextPacketNum + 1
        nonDsrPacketSequenceNumber := ackState.nonDsrPacketSequenceNumber + nonDsrIncrement }
    else ackState
  let conn := { conn with ackStates := conn.ackStates.set packetNumberSpace ackState }
  if !retransmittable && !isPing && !hasDatagramAndShouldTrack then conn
  else
    let pkt : OutstandingPacket :=
      { packet, time := sentTime, encodedSize
        maybeClonedPacketIdentifier := clonedPacketIdentifier, isDSRPacket
        nonDsrPacketSequenceNumber := if isDSRPacket then none else some nonDsrPacketSequenceNumber }
    let outstandings := conn.outstandings
    let packets := outstandings.packets.insertIdx
      (outstandingInsertionIndex outstandings.packets packet.header.packetSequenceNum) pkt
    let inflightBytes := if conn.hasCongestionController then
        addAndCheckOverflow conn.lossState.inflightBytes encodedSize
          (2 * conn.transportSettings.maxCwndInMss * conn.udpSendPacketLen)
      else conn.lossState.inflightBytes
    let outstandings := if clonedPacketIdentifier.isSome then
        { outstandings with
          packets
          clonedPacketCount := outstandings.clonedPacketCount.modify packetNumberSpace (· + 1) }
      else
        { outstandings with
          packets
          packetCount := outstandings.packetCount.modify packetNumberSpace (· + 1) }
    let outstandings := if isDSRPacket then
        { outstandings with dsrCount := outstandings.dsrCount + 1 }
      else outstandings
    { conn with outstandings, lossState := { conn.lossState with inflightBytes } }

/-- `PacketRebuilder::cloneOutstandingPacket` on the packet at `index`: a packet cloned for the
first time gets the identifier its clones will share, and counts as cloned. -/
def cloneOutstandingPacket (conn : QuicConnectionState) (index : Nat) :
    Option (QuicConnectionState × ClonedPacketIdentifier) :=
  match conn.outstandings.packets[index]? with
  | none => none
  | some packet =>
    match packet.maybeClonedPacketIdentifier with
    | some identifier => some (conn, identifier)
    | none =>
      let identifier : ClonedPacketIdentifier := ⟨packet.packetNumberSpace, packet.getPacketSequenceNum⟩
      let outstandings := conn.outstandings
      some ({ conn with outstandings := { outstandings with
        packets := outstandings.packets.set index
          { packet with maybeClonedPacketIdentifier := some identifier }
        clonedPacketIdentifiers := outstandings.clonedPacketIdentifiers ++ [identifier]
        clonedPacketCount := outstandings.clonedPacketCount.modify packet.packetNumberSpace (· + 1) } },
        identifier)

end Mvfst
