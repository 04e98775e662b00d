import Mvfst.State.OutstandingPacket

/-!
The part of `QuicConnectionStateBase` (`quic/state/StateData.h`, `AckStates.h`,
`TransportSettings.h`) that the bookkeeping of sent packets reads and writes. The congestion
controller is only its presence: the bookkeeping adds and removes bytes in flight only when one is
installed, and the controller's own state is left out. Durations are microseconds.
-/

namespace Mvfst

/-- The send-side fields of `AckState`, one per packet number space. -/
structure AckState where
  nextPacketNum : Nat := 0
  nonDsrPacketSequenceNumber : Nat := 0
  largestAckedByPeer : Option Nat := none
  largestNonDsrSequenceNumberAckedByPeer : Option Nat := none
  /-- A packet number left out on purpose; the peer acknowledging it is a violation. -/
  skippedPacketNum : Option Nat := none
  deriving DecidableEq, Repr

structure AckStates where
  initialAckState : AckState := {}
  handshakeAckState : AckState := {}
  appDataAckState : AckState := {}
  deriving DecidableEq, Repr

def AckStates.get (ackStates : AckStates) : PacketNumberSpace → AckState
  | .initial => ackStates.initialAckState
  | .handshake => ackStates.handshakeAckState
  | .appData => ackStates.appDataAckState

def AckStates.set (ackStates : AckStates) : PacketNumberSpace → AckState → AckStates
  | .initial, ackState => { ackStates with initialAckState := ackState }
  | .handshake, ackState => { ackStates with handshakeAckState := ackState }
  | .appData, ackState => { ackStates with appDataAckState := ackState }

inductive AlarmMethod where
  | earlyRetransmitOrReordering | pto
  deriving DecidableEq, Repr

/-- `kDefaultMinRtt`, `microseconds::max()`. -/
def kDefaultMinRtt : Nat := 2 ^ 63 - 1

/-- The fields of `LossState` the bookkeeping and `updateRtt` read and write. -/
structure LossState where
  srtt : Nat := 0
  lrtt : Nat := 0
  rttvar : Nat := 0
  mrtt : Nat := kDefaultMinRtt
  maybeMrttNoAckDelay : Option Nat := none
  maybeLrtt : Option Nat := none
  maybeLrttAckDelay : Option Nat := none
  maxAckDelay : Nat := 0
  reorderingThreshold : Nat := 3
  inflightBytes : Nat := 0
  ptoCount : Nat := 0
  rtxCount : Nat := 0
  /-- The loss timer of each space (`lossTimes`). -/
  lossTimes : EnumArray (Option Nat) := ⟨none, none, none⟩
  /-- What the scheduled loss alarm does when it fires. -/
  currentAlarmMethod : AlarmMethod := .earlyRetransmitOrReordering
  attemptedEarlyRetransmit0Rtt : Bool := false
  deriving DecidableEq, Repr

structure TransportSettings where
  initialRtt : Nat := 50000
  maxReceiveTimestampsPerAckStored : Nat := 10
  timeReorderingThreshDividend : Nat := 5
  timeReorderingThreshDivisor : Nat := 4
  maxCwndInMss : Nat := 2000
  useInflightReorderingThreshold : Bool := false
  maxNumPTOs : Nat := 7
  earlyRetransmit0Rtt : Bool := false
  /-- `datagramConfig.trackingMode` is `ConstrainedAndTracked`. -/
  datagramConstrainedAndTracked : Bool := false
  deriving DecidableEq, Repr

structure QuicConnectionState where
  outstandings : OutstandingsInfo := {}
  ackStates : AckStates := {}
  lossState : LossState := {}
  transportSettings : TransportSettings := {}
  udpSendPacketLen : Nat := 1232
  hasCongestionController : Bool := true
  /-- The 1-RTT write cipher is installed: the handshake has produced its keys. -/
  oneRttWriteCipher : Bool := false
  deriving DecidableEq, Repr

end Mvfst
