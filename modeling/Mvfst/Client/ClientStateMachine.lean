import Mvfst.Loss.QuicLossFunctions

/-!
`undoAllClientStateForRetry` of `quic/client/state/ClientStateMachine.cpp`: on a Retry the client
starts a new connection state, carrying over what does not change across the retry. Of the sent
packets only the 0-RTT ones are carried over, and then declared lost at once.
-/

namespace Mvfst

/-- The new connection state after a Retry; `none` is the fatal log if declaring the 0-RTT packets
lost fails. Connection ids, ciphers, paths, streams and the handshake are left out. The
congestion controller is made again from its factory, which the client always has. -/
def undoAllClientStateForRetry (conn : QuicConnectionState) : Option QuicConnectionState :=
  -- only copy over zero-rtt data
  let zeroRttPackets := conn.outstandings.packets.filter fun packet =>
    packet.packetNumberSpace == .appData && packet.packet.header.protectionType == .zeroRtt
  let newConn : QuicConnectionState :=
    { outstandings :=
        { packets := zeroRttPackets
          packetCount := (⟨0, 0, 0⟩ : EnumArray Nat).modify .appData (· + zeroRttPackets.length) }
      ackStates :=
        { initialAckState := { nextPacketNum := conn.ackStates.initialAckState.nextPacketNum }
          handshakeAckState := { nextPacketNum := conn.ackStates.handshakeAckState.nextPacketNum }
          appDataAckState := { nextPacketNum := conn.ackStates.appDataAckState.nextPacketNum } }
      lossState := conn.lossState
      transportSettings := conn.transportSettings
      udpSendPacketLen := conn.udpSendPacketLen
      hasCongestionController := conn.hasCongestionController }
  (markZeroRttPacketsLost newConn).map (·.conn)

end Mvfst
