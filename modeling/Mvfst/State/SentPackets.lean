import Mvfst.State.AckHandlers
import Mvfst.Client.ClientStateMachine
import Mvfst.Lib.TransitionSystem

/-!
The bookkeeping of sent packets as a system: packets are written (possibly as clones of
outstanding ones), ACKs arrive, the loss alarm fires, the server rejects 0-RTT or sends a Retry.
-/

namespace Mvfst

inductive ConnectionEvent where
  /-- A packet is written: `updateConnection`. -/
  | write (packet : RegularQuicWritePacket) (sentTime encodedSize : Nat) (skipPacketNumber : Bool)
  /-- The outstanding packet at `index` is cloned into a packet with the same frames. -/
  | clone (index : Nat) (packetNum sentTime encodedSize : Nat) (skipPacketNumber : Bool)
  | ack (pnSpace : PacketNumberSpace) (frame : ReadAckFrame) (ackReceiveTime : Nat)
  /-- The loss alarm fires: the loss timer if one is set, else the probe timeout. -/
  | lossAlarm (now : Nat)
  | zeroRttRejected
  | retry
  deriving DecidableEq, Repr

/-- One event; `none` is a failed `CHECK` or a fatal log. -/
def connectionEvent (conn : QuicConnectionState) :
    ConnectionEvent → Option (Except QuicError QuicConnectionState)
  | .write packet sentTime encodedSize skipPacketNumber =>
    -- the DSR frontend writes the packets of DSR frames, and says so
    some (.ok (updateConnection conn none packet sentTime encodedSize skipPacketNumber
      (packet.frames.any QuicWriteFrame.fromBufMeta)))
  | .clone index packetNum sentTime encodedSize skipPacketNumber =>
    match conn.outstandings.packets[index]?, cloneOutstandingPacket conn index with
    | some original, some (conn, identifier) =>
      let header := { original.packet.header with packetSequenceNum := packetNum }
      some (.ok (updateConnection conn (some identifier) { original.packet with header } sentTime
        encodedSize skipPacketNumber false))
    | _, _ => none
  | .ack pnSpace frame ackReceiveTime =>
    (processAckFrame conn pnSpace frame ackReceiveTime).map fun
      | .error e => .error e
      | .ok processing => .ok processing.conn
  | .lossAlarm now =>
    let method := if (earliestLossTimer conn).1.isSome then AlarmMethod.earlyRetransmitOrReordering
      else .pto
    let conn := { conn with lossState := { conn.lossState with currentAlarmMethod := method } }
    (onLossDetectionAlarm conn now).map fun
      | .error e => .error e
      | .ok detection => .ok detection.conn
  | .zeroRttRejected => (markZeroRttPacketsLost conn).map fun detection => .ok detection.conn
  | .retry => (undoAllClientStateForRetry conn).map .ok

def connectionStep (conn : QuicConnectionState) (event : ConnectionEvent) :
    Option QuicConnectionState :=
  match connectionEvent conn event with
  | some (.ok conn) => some conn
  | _ => none

/-- An ACK frame as the peer builds it: blocks in descending order, each a range, at least one
number apart, the first ending at the largest number acknowledged. -/
def ReadAckFrame.WellFormed (frame : ReadAckFrame) : Prop :=
  (∀ block ∈ frame.ackBlocks, block.startPacket ≤ block.endPacket) ∧
    frame.ackBlocks.IsChain (fun later earlier => earlier.endPacket + 1 < later.startPacket) ∧
    (frame.ackBlocks.head?.map (·.endPacket)) = some frame.largestAcked

instance decidableAckFrameWellFormed (frame : ReadAckFrame) : Decidable frame.WellFormed :=
  inferInstanceAs (Decidable (_ ∧ _ ∧ _))

/-- The packet at `index` can be cloned into packet number `packetNum`: it is outstanding and no
DSR packet, its clone group (if it has one) is still open, and the number is the next of its
space. -/
def cloneable (conn : QuicConnectionState) (index packetNum : Nat) : Bool :=
  match conn.outstandings.packets[index]? with
  | some original =>
    original.isOutstandingIn original.packetNumberSpace && !original.isDSRPacket &&
      packetNum == (conn.ackStates.get original.packetNumberSpace).nextPacketNum &&
      match original.maybeClonedPacketIdentifier with
      | some identifier => conn.outstandings.clonedPacketIdentifiers.contains identifier
      | none => true
  | none => false

/-- The events a connection is given: packets numbered with the next number of their space (a
packet with a DSR frame holds only DSR frames, in the application space), clones of outstanding
packets, and well-formed ACK frames. -/
def ConnectionEvent.Admissible (conn : QuicConnectionState) : ConnectionEvent → Prop
  | .write packet _ _ _ =>
    packet.header.packetSequenceNum =
        (conn.ackStates.get packet.header.getPacketNumberSpace).nextPacketNum ∧
      (packet.frames.any QuicWriteFrame.fromBufMeta = true →
        packet.frames.all QuicWriteFrame.fromBufMeta = true ∧
          packet.header.getPacketNumberSpace = .appData)
  | .clone index packetNum _ _ _ => cloneable conn index packetNum = true
  | .ack _ frame _ => frame.WellFormed
  | .lossAlarm _ | .zeroRttRejected | .retry => True

instance decidableConnectionAdmissible (conn : QuicConnectionState) (event : ConnectionEvent) :
    Decidable (event.Admissible conn) :=
  match event with
  | .write _ _ _ _ => inferInstanceAs (Decidable (_ ∧ (_ → _)))
  | .clone _ _ _ _ _ => inferInstanceAs (Decidable (_ = _))
  | .ack _ _ _ => inferInstanceAs (Decidable (ReadAckFrame.WellFormed _))
  | .lossAlarm _ | .zeroRttRejected | .retry => inferInstanceAs (Decidable True)

/-- A new connection: nothing sent, nothing in flight, no loss timer. The RTT estimates and the
settings are any. -/
structure QuicConnectionState.Fresh (conn : QuicConnectionState) : Prop where
  outstandings : conn.outstandings = {}
  ackStates : conn.ackStates = {}
  inflightBytes : conn.lossState.inflightBytes = 0
  lossTimes : conn.lossState.lossTimes = ⟨none, none, none⟩

abbrev QuicConnectionState.Reachable : QuicConnectionState → Prop :=
  TransitionSystem.Reachable QuicConnectionState.Fresh ConnectionEvent.Admissible connectionStep

/-- A client's first Initial packet, carrying 1200 bytes of the handshake. -/
def clientInitial : RegularQuicWritePacket := ⟨⟨0, .initial⟩, [.writeCryptoFrame 0 1200]⟩

theorem fresh_connection : QuicConnectionState.Fresh {} := ⟨rfl, rfl, rfl, rfl⟩

/-- A client sends its Initial packet and gets a Retry: no packet is outstanding any more, yet the
1200 bytes are still counted in flight. -/
theorem retry_keeps_bytes_in_flight :
    ∃ conn, QuicConnectionState.Reachable conn ∧ conn.hasCongestionController = true ∧
      conn.outstandings.packets = [] ∧ conn.lossState.inflightBytes = 1200 := by
  have ran : (TransitionSystem.run ConnectionEvent.Admissible connectionStep {}
      [.write clientInitial 0 1200 false, .retry]).map
        (fun conn => (conn.hasCongestionController, conn.outstandings.packets,
          conn.lossState.inflightBytes)) = some (true, [], 1200) := by
    decide
  obtain ⟨conn, reached, observed⟩ := Option.map_eq_some_iff.mp ran
  simp only [Prod.mk.injEq] at observed
  obtain ⟨controller, packets, inflight⟩ := observed
  exact ⟨conn, TransitionSystem.reachable_of_run (.init fresh_connection) reached, controller,
    packets, inflight⟩

/-- DSR packets (STREAM data another host sends) keep their own timeline, the index of the
packet among its stream's DSR packets, which the reordering threshold is meant to be measured on.
A ping and five DSR packets of stream 4, with indices 0 to 4, go out as packets 0 to 5; the
peer acknowledges packet 5. The stream's packet with index 0 is then four indices behind the
largest index acknowledged, past the reordering threshold of 3, yet it is not declared lost:
its distance is measured from its packet number 1, one index short. -/
theorem dsr_reordering_measured_by_packet_number :
    ∃ conn processing, QuicConnectionState.Reachable conn ∧
      processAckFrame conn .appData ⟨5, 0, false, [⟨5, 5⟩]⟩ 0 = some (.ok processing) ∧
      processing.ack.ackedPackets = [⟨5, 0, [(4, some 4)]⟩] ∧
      (processing.conn.ackStates.get .appData).largestAckedByPeer = some 5 ∧
      processing.conn.lossState.reorderingThreshold = 3 ∧
      (∃ pkt ∈ processing.conn.outstandings.packets,
        pkt.packet = ⟨⟨1, .keyPhaseZero⟩, [.writeStreamFrameFromBufMeta ⟨4, 0, 10, false⟩ 0]⟩ ∧
          pkt.isDSRPacket = true ∧ pkt.declaredLost = false) ∧
      processing.lossVisits = [] := by
  have observed : (TransitionSystem.run ConnectionEvent.Admissible connectionStep {}
      [.write ⟨⟨0, .keyPhaseZero⟩, [.pingFrame]⟩ 0 100 false,
        .write ⟨⟨1, .keyPhaseZero⟩, [.writeStreamFrameFromBufMeta ⟨4, 0, 10, false⟩ 0]⟩ 0 100 false,
        .write ⟨⟨2, .keyPhaseZero⟩, [.writeStreamFrameFromBufMeta ⟨4, 10, 10, false⟩ 1]⟩ 0 100 false,
        .write ⟨⟨3, .keyPhaseZero⟩, [.writeStreamFrameFromBufMeta ⟨4, 20, 10, false⟩ 2]⟩ 0 100 false,
        .write ⟨⟨4, .keyPhaseZero⟩, [.writeStreamFrameFromBufMeta ⟨4, 30, 10, false⟩ 3]⟩ 0 100 false,
        .write ⟨⟨5, .keyPhaseZero⟩, [.writeStreamFrameFromBufMeta ⟨4, 40, 10, false⟩ 4]⟩ 0 100
          false]).bind
      (fun conn => (processAckFrame conn .appData ⟨5, 0, false, [⟨5, 5⟩]⟩ 0).bind fun
        | .ok processing => some (decide (processing.ack.ackedPackets = [⟨5, 0, [(4, some 4)]⟩] ∧
            (processing.conn.ackStates.get .appData).largestAckedByPeer = some 5 ∧
            processing.conn.lossState.reorderingThreshold = 3 ∧
            (processing.conn.outstandings.packets.find? (·.getPacketSequenceNum == 1)).map
                (fun pkt => (pkt.packet, pkt.isDSRPacket, pkt.declaredLost)) =
              some (⟨⟨1, .keyPhaseZero⟩, [.writeStreamFrameFromBufMeta ⟨4, 0, 10, false⟩ 0]⟩,
                true, false) ∧
            processing.lossVisits = []))
        | .error _ => none) = some true := by
    decide
  obtain ⟨conn, reached, acked⟩ := Option.bind_eq_some_iff.mp observed
  obtain ⟨result, processed, observations⟩ := Option.bind_eq_some_iff.mp acked
  cases result with
  | error e => cases observations
  | ok processing =>
    obtain ⟨ackedPackets, largestAcked, threshold, lagging, visits⟩ :=
      of_decide_eq_true (Option.some.inj observations)
    obtain ⟨pkt, found, fields⟩ := Option.map_eq_some_iff.mp lagging
    simp only [Prod.mk.injEq] at fields
    exact ⟨conn, processing, TransitionSystem.reachable_of_run (.init fresh_connection) reached,
      processed, ackedPackets, largestAcked, threshold,
      ⟨pkt, List.mem_of_find?_eq_some found, fields⟩, visits⟩

end Mvfst
