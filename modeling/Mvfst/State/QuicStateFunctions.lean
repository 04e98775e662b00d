import Mvfst.Common.IntervalSetLaws
import Mvfst.Loss.QuicLossFunctions

/-!
# RTT samples and received packets

`updateRtt` and `addPacketToAckState` of `quic/state/QuicStateFunctions.cpp`. Durations are
microseconds. `updateRtt` writes only the loss state; the qlog call is left out. Of the receive
side of `AckState` only the fields `addPacketToAckState` reads and writes are kept, and its call
of `onDuplicatedPacketReceived` is returned as a flag.
-/

namespace Mvfst

def kRttAlpha : Nat := 8

def kRttBeta : Nat := 4

/-! ### The RTT estimator -/

/-- The sample `updateRtt` smooths: the ACK delay comes off only when the rest still exceeds the
minimum RTT, which already includes this sample. -/
def adjustedRtt (mrtt rttSample ackDelay : Nat) : Nat :=
  if rttSample > ackDelay ∧ rttSample > mrtt + ackDelay then rttSample - ackDelay else rttSample

def updateRtt (conn : QuicConnectionState) (rttSample ackDelay : Nat) : QuicConnectionState :=
  let lossState := conn.lossState
  let mrtt := min lossState.mrtt rttSample
  let maybeMrttNoAckDelay :=
    if rttSample ≥ ackDelay then
      match lossState.maybeMrttNoAckDelay with
      | some mrttNoAckDelay => some (min mrttNoAckDelay (rttSample - ackDelay))
      | none => some (rttSample - ackDelay)
    else lossState.maybeMrttNoAckDelay
  let adjusted := adjustedRtt mrtt rttSample ackDelay
  -- a zero `srtt` means no sample yet: the first one is taken whole
  let (srtt, rttvar) :=
    if lossState.srtt = 0 then (adjusted, adjusted / 2)
    else
      (lossState.srtt * (kRttAlpha - 1) / kRttAlpha + adjusted / kRttAlpha,
        lossState.rttvar * (kRttBeta - 1) / kRttBeta +
          (if lossState.srtt > adjusted then lossState.srtt - adjusted
            else adjusted - lossState.srtt) / kRttBeta)
  { conn with lossState := { lossState with
      mrtt, maybeMrttNoAckDelay, lrtt := rttSample, maybeLrtt := some rttSample,
      maybeLrttAckDelay := some ackDelay, maxAckDelay := max lossState.maxAckDelay ackDelay,
      srtt, rttvar } }

/-- `updateRtt` on each `(rttSample, ackDelay)` in turn. -/
def updateRtts (conn : QuicConnectionState) (samples : List (Nat × Nat)) : QuicConnectionState :=
  samples.foldl (fun conn sample => updateRtt conn sample.1 sample.2) conn

/-- The adjusted samples of a run of `updateRtt` from a minimum RTT of `mrtt`. -/
def adjustedRtts (mrtt : Nat) : List (Nat × Nat) → List Nat
  | [] => []
  | (rttSample, ackDelay) :: rest =>
    adjustedRtt (min mrtt rttSample) rttSample ackDelay :: adjustedRtts (min mrtt rttSample) rest

section UpdateRtt

variable (conn : QuicConnectionState) (rttSample ackDelay : Nat)

@[simp] theorem updateRtt_mrtt :
    (updateRtt conn rttSample ackDelay).lossState.mrtt = min conn.lossState.mrtt rttSample := rfl

@[simp] theorem updateRtt_maxAckDelay :
    (updateRtt conn rttSample ackDelay).lossState.maxAckDelay =
      max conn.lossState.maxAckDelay ackDelay := rfl

theorem updateRtt_srtt :
    (updateRtt conn rttSample ackDelay).lossState.srtt =
      if conn.lossState.srtt = 0 then adjustedRtt (min conn.lossState.mrtt rttSample) rttSample ackDelay
      else conn.lossState.srtt * 7 / 8 +
        adjustedRtt (min conn.lossState.mrtt rttSample) rttSample ackDelay / 8 := by
  dsimp only [updateRtt]
  split_ifs <;> rfl

end UpdateRtt

/-- The smoothed RTT lies between the least adjusted sample, less 14, and the greatest. -/
def SrttWithin (low high : Nat) (conn : QuicConnectionState) : Prop :=
  low - 14 ≤ conn.lossState.srtt ∧ conn.lossState.srtt ≤ high

/-- One sample moves the bounds to take it in. Each of the two truncating divisions loses less
than one, so a step loses less than 14/8 against the exact average, and 14 is the fixed point of
`c ↦ 7c/8 + 14/8`. -/
theorem srttWithin_updateRtt {low high : Nat} {conn : QuicConnectionState} (rttSample ackDelay : Nat)
    (within : SrttWithin low high conn) :
    SrttWithin (min low (adjustedRtt (min conn.lossState.mrtt rttSample) rttSample ackDelay))
      (max high (adjustedRtt (min conn.lossState.mrtt rttSample) rttSample ackDelay))
      (updateRtt conn rttSample ackDelay) := by
  obtain ⟨above, below⟩ := within
  unfold SrttWithin
  rw [updateRtt_srtt]
  generalize adjustedRtt (min conn.lossState.mrtt rttSample) rttSample ackDelay = adjusted
  split_ifs <;> omega

theorem updateRtts_mrtt :
    ∀ (conn : QuicConnectionState) (samples : List (Nat × Nat)),
      (updateRtts conn samples).lossState.mrtt = (samples.map Prod.fst).foldl min conn.lossState.mrtt
  | conn, [] => rfl
  | conn, (rttSample, ackDelay) :: rest => by
    simp only [updateRtts, List.foldl_cons, List.map_cons] at *
    exact updateRtts_mrtt (updateRtt conn rttSample ackDelay) rest

theorem updateRtts_maxAckDelay :
    ∀ (conn : QuicConnectionState) (samples : List (Nat × Nat)),
      (updateRtts conn samples).lossState.maxAckDelay =
        (samples.map Prod.snd).foldl max conn.lossState.maxAckDelay
  | conn, [] => rfl
  | conn, (rttSample, ackDelay) :: rest => by
    simp only [updateRtts, List.foldl_cons, List.map_cons] at *
    exact updateRtts_maxAckDelay (updateRtt conn rttSample ackDelay) rest

/-- Over a run the bounds take in every adjusted sample. -/
theorem srttWithin_updateRtts :
    ∀ {low high : Nat} (conn : QuicConnectionState) (samples : List (Nat × Nat)),
      SrttWithin low high conn →
        SrttWithin ((adjustedRtts conn.lossState.mrtt samples).foldl min low)
          ((adjustedRtts conn.lossState.mrtt samples).foldl max high) (updateRtts conn samples)
  | _, _, conn, [], within => within
  | _, _, conn, (rttSample, ackDelay) :: rest, within => by
    have next := srttWithin_updateRtts (updateRtt conn rttSample ackDelay) rest
      (srttWithin_updateRtt rttSample ackDelay within)
    simpa only [adjustedRtts, List.foldl_cons, updateRtts, updateRtt_mrtt] using next

/-- From a fresh loss state the minimum RTT and the largest ACK delay are those of the samples
and the smoothed RTT lies within the adjusted samples, up to 14 microseconds of truncation below.
Yet the truncation can bring it back to zero, which reads as no sample: with every sample 7
microseconds it falls by one at each call, and the PTO falls back to twice the initial RTT. -/
theorem updateRtts_srtt_bounds_and_reset :
    (∀ (conn : QuicConnectionState) (samples : List (Nat × Nat)), conn.lossState = {} →
        samples ≠ [] → (∀ sample ∈ samples, sample.1 ≤ kDefaultMinRtt) →
        some (updateRtts conn samples).lossState.mrtt = (samples.map Prod.fst).min? ∧
        some (updateRtts conn samples).lossState.maxAckDelay = (samples.map Prod.snd).max? ∧
        ∃ low high, (adjustedRtts kDefaultMinRtt samples).min? = some low ∧
          (adjustedRtts kDefaultMinRtt samples).max? = some high ∧
          low - 14 ≤ (updateRtts conn samples).lossState.srtt ∧
          (updateRtts conn samples).lossState.srtt ≤ high) ∧
      adjustedRtts kDefaultMinRtt (List.replicate 8 (7, 0)) = List.replicate 8 7 ∧
      (updateRtts {} (List.replicate 8 (7, 0))).lossState.srtt = 0 ∧
      calculatePTO (updateRtts {} (List.replicate 8 (7, 0))) = 2 * ({} : TransportSettings).initialRtt := by
  refine ⟨?_, by decide, by decide, by decide⟩
  rintro conn (_ | ⟨⟨rttSample, ackDelay⟩, rest⟩) fresh nonempty bounded
  · exact absurd rfl nonempty
  have fits : rttSample ≤ kDefaultMinRtt := bounded _ List.mem_cons_self
  have firstMrtt : min conn.lossState.mrtt rttSample = rttSample := by
    rw [fresh]
    exact Nat.min_eq_right fits
  -- the first sample is taken whole, so the bounds start at it
  have firstWithin : SrttWithin (adjustedRtt rttSample rttSample ackDelay)
      (adjustedRtt rttSample rttSample ackDelay) (updateRtt conn rttSample ackDelay) := by
    have zero : conn.lossState.srtt = 0 := by rw [fresh]
    unfold SrttWithin
    rw [updateRtt_srtt, if_pos zero, firstMrtt]
    omega
  have run := srttWithin_updateRtts (updateRtt conn rttSample ackDelay) rest firstWithin
  rw [updateRtt_mrtt, firstMrtt] at run
  refine ⟨?_, ?_, _, _, ?_, ?_, run⟩
  · rw [List.map_cons, List.min?_cons', updateRtts, List.foldl_cons, ← updateRtts, updateRtts_mrtt,
      updateRtt_mrtt, firstMrtt]
  · have zero : conn.lossState.maxAckDelay = 0 := by rw [fresh]
    rw [List.map_cons, List.max?_cons', updateRtts, List.foldl_cons, ← updateRtts,
      updateRtts_maxAckDelay, updateRtt_maxAckDelay, zero, Nat.zero_max]
  · rw [adjustedRtts, Nat.min_eq_right fits, List.min?_cons']
  · rw [adjustedRtts, Nat.min_eq_right fits, List.max?_cons']

/-! ### Received packets -/

def kEcnECT1 : UInt8 := 0b01

def kEcnECT0 : UInt8 := 0b10

def kEcnCE : UInt8 := 0b11

/-- `ReceivedUdpPacket::Timings`; the socket timestamps are left out. -/
structure ReceivedUdpPacket.Timings where
  receiveTimePoint : Nat
  deriving DecidableEq, Repr

structure ReceivedUdpPacket where
  timings : ReceivedUdpPacket.Timings
  tosValue : UInt8 := 0
  deriving DecidableEq, Repr

structure WriteAckFrameState.ReceivedPacket where
  pktNum : Nat
  timings : ReceivedUdpPacket.Timings
  deriving DecidableEq, Repr

/-- The fields of `WriteAckFrameState` that `addPacketToAckState` writes. -/
structure WriteAckFrameState where
  acks : IntervalSet 1 := {}
  lastRecvdPacketInfo : Option WriteAckFrameState.ReceivedPacket := none
  recvdPacketInfos : List WriteAckFrameState.ReceivedPacket := []
  ecnECT0CountReceived : UInt32 := 0
  ecnECT1CountReceived : UInt32 := 0
  ecnCECountReceived : UInt32 := 0
  deriving DecidableEq, Repr

/-- The receive side of `AckState`; its send side is `AckState`. -/
structure ReceiveAckState extends WriteAckFrameState where
  largestRecvdPacketTime : Option Nat := none
  largestRecvdPacketNum : Option Nat := none
  deriving DecidableEq, Repr

/-- What `addPacketToAckState` leaves: the ack state, which it changes also when it fails,
whether it called `onDuplicatedPacketReceived`, and its result. -/
structure AddPacketOutcome where
  ackState : ReceiveAckState
  duplicated : Bool
  result : Except IntervalSetError Nat

/-- The ECN counters after a packet with `tosValue`. -/
def ReceiveAckState.countEcn (ackState : ReceiveAckState) (tosValue : UInt8) : ReceiveAckState :=
  let ecnValue := tosValue &&& 0b11
  if ecnValue = kEcnCE then { ackState with ecnCECountReceived := ackState.ecnCECountReceived + 1 }
  else if ecnValue = kEcnECT1 then
    { ackState with ecnECT1CountReceived := ackState.ecnECT1CountReceived + 1 }
  else if ecnValue = kEcnECT0 then
    { ackState with ecnECT0CountReceived := ackState.ecnECT0CountReceived + 1 }
  else ackState

def addPacketToAckState (conn : QuicConnectionState) (ackState : ReceiveAckState) (packetNum : Nat)
    (udpPacket : ReceivedUdpPacket) : AddPacketOutcome :=
  -- the next expected number wraps as a uint64_t
  let expectedNextPacket := match ackState.largestRecvdPacketNum with
    | some largest => (largest + 1) % 2 ^ 64
    | none => 0
  let ackState := { ackState with
    largestRecvdPacketNum := some (max (ackState.largestRecvdPacketNum.getD packetNum) packetNum) }
  let preInsertVersion := ackState.acks.insertVersion
  match ackState.acks.tryInsert packetNum packetNum with
  | .error error => ⟨ackState, false, .error error⟩
  | .ok acks =>
    let ackState := { ackState with acks }
    let duplicated := preInsertVersion == acks.insertVersion
    let ackState := if ackState.largestRecvdPacketNum = some packetNum then
        { ackState with largestRecvdPacketTime := some udpPacket.timings.receiveTimePoint }
      else ackState
    let ackState := { ackState with lastRecvdPacketInfo := some ⟨packetNum, udpPacket.timings⟩ }
    let ackState := if packetNum ≥ expectedNextPacket then
        let infos := if ackState.recvdPacketInfos.length =
            conn.transportSettings.maxReceiveTimestampsPerAckStored then
            ackState.recvdPacketInfos.tail
          else ackState.recvdPacketInfos
        { ackState with recvdPacketInfos := infos ++ [⟨packetNum, udpPacket.timings⟩] }
      else ackState
    let ackState := ackState.countEcn udpPacket.tosValue
    let distance := if expectedNextPacket ≠ 0 then
        if packetNum > expectedNextPacket then packetNum - expectedNextPacket
        else expectedNextPacket - packetNum
      else 0
    ⟨ackState, duplicated, .ok distance⟩

section AddPacket

variable (conn : QuicConnectionState) (ackState : ReceiveAckState) (packetNum : Nat)
  (udpPacket : ReceivedUdpPacket)

@[simp] theorem countEcn_acks (tosValue : UInt8) :
    (ackState.countEcn tosValue).acks = ackState.acks := by
  dsimp only [ReceiveAckState.countEcn]
  split_ifs <;> rfl

/-- Inversion of `addPacketToAckState`: it fails exactly when `tryInsert` does, and otherwise its
acks are those of the insertion and it reports a duplicate when the version stayed. -/
theorem addPacketToAckState_cases :
    (packetNum > 2 ^ 64 - 2 ∧
        (addPacketToAckState conn ackState packetNum udpPacket).duplicated = false ∧
        (addPacketToAckState conn ackState packetNum udpPacket).ackState.acks = ackState.acks) ∨
      (packetNum ≤ 2 ^ 64 - 2 ∧
        (addPacketToAckState conn ackState packetNum udpPacket).duplicated =
          (ackState.acks.insertVersion == (ackState.acks.insert ⟨packetNum, packetNum⟩).insertVersion) ∧
        (addPacketToAckState conn ackState packetNum udpPacket).ackState.acks =
          ackState.acks.insert ⟨packetNum, packetNum⟩) := by
  unfold addPacketToAckState
  by_cases tooLarge : packetNum > 2 ^ 64 - 2
  · have failed : ackState.acks.tryInsert packetNum packetNum = .error .intervalBoundTooLarge := by
      rw [IntervalSet.tryInsert, if_neg (Nat.lt_irrefl packetNum), if_pos (by omega)]
    left
    refine ⟨tooLarge, ?_, ?_⟩ <;> simp only [failed]
  · have inserted : ackState.acks.tryInsert packetNum packetNum =
        .ok (ackState.acks.insert ⟨packetNum, packetNum⟩) := by
      rw [IntervalSet.tryInsert, if_neg (Nat.lt_irrefl packetNum), if_neg (by omega)]
    right
    refine ⟨by omega, ?_, ?_⟩ <;> simp only [inserted]
    split_ifs <;> simp

/-- The acks stay valid: the packet numbers below 2^64 - 1 are the ones `tryInsert` takes. -/
theorem addPacketToAckState_acks_valid (valid : ackState.acks.Valid (2 ^ 64 - 1)) :
    (addPacketToAckState conn ackState packetNum udpPacket).ackState.acks.Valid (2 ^ 64 - 1) := by
  rcases addPacketToAckState_cases conn ackState packetNum udpPacket with
    ⟨-, -, same⟩ | ⟨fits, -, inserted⟩
  · rw [same]
    exact valid
  · rw [inserted]
    exact IntervalSet.insert_valid valid ⟨Nat.le_refl _, fits⟩

/-- The version counts the insertions that add a point; so a packet is reported duplicated
exactly when the acks already held its number. -/
theorem addPacketToAckState_duplicated_iff :
    (∀ {unit maxValue : Nat} (s : IntervalSet unit) (interval : Interval), s.Valid maxValue →
        1 ≤ unit → interval.start ≤ interval.end →
        ((∃ x, interval.Covers x ∧ x ∉ s.points) →
            (s.insert interval).insertVersion = s.insertVersion + 1) ∧
          ((¬ ∃ x, interval.Covers x ∧ x ∉ s.points) →
            (s.insert interval).insertVersion = s.insertVersion)) ∧
      ∀ (conn : QuicConnectionState) (ackState : ReceiveAckState) (packetNum : Nat)
        (udpPacket : ReceivedUdpPacket), ackState.acks.Valid (2 ^ 64 - 1) →
        ((addPacketToAckState conn ackState packetNum udpPacket).duplicated = true ↔
          packetNum ∈ ackState.acks.points) := by
  refine ⟨fun s interval valid positive ordered =>
    IntervalSet.insert_insertVersion s interval valid.wellFormed valid.sorted positive ordered, ?_⟩
  intro conn ackState packetNum udpPacket valid
  rcases addPacketToAckState_cases conn ackState packetNum udpPacket with
    ⟨tooLarge, duplicated, -⟩ | ⟨-, duplicated, -⟩
  · -- no interval of the acks reaches a number `tryInsert` refuses
    rw [duplicated]
    refine iff_of_false Bool.false_ne_true ?_
    rintro ⟨i, member, -, high⟩
    have := (valid.bounded i member).2
    omega
  · rw [duplicated, beq_iff_eq, eq_comm]
    exact IntervalSet.insert_point_insertVersion_eq_iff valid (Nat.le_refl 1) packetNum

/-- Packet 4 received twice from a fresh ack state: the second copy is the duplicate. -/
theorem addPacketToAckState_duplicated_second_copy :
    (addPacketToAckState {} {} 4 ⟨⟨0⟩, 0⟩).duplicated = false ∧
      (addPacketToAckState {} (addPacketToAckState {} {} 4 ⟨⟨0⟩, 0⟩).ackState 4 ⟨⟨1⟩, 0⟩).duplicated =
        true := by
  have fresh : ({} : ReceiveAckState).acks.Valid (2 ^ 64 - 1) := IntervalSet.valid_empty _
  have first := addPacketToAckState_duplicated_iff.2 {} {} 4 ⟨⟨0⟩, 0⟩ fresh
  have second :=
    addPacketToAckState_duplicated_iff.2 {} _ 4 ⟨⟨1⟩, 0⟩ (addPacketToAckState_acks_valid {} {} 4 ⟨⟨0⟩, 0⟩ fresh)
  refine ⟨Bool.eq_false_iff.mpr fun duplicated => ?_, second.mpr ?_⟩
  · obtain ⟨_, member, -⟩ := first.mp duplicated
    exact List.not_mem_nil member
  · change Covered _ 4
    decide

end AddPacket

end Mvfst
