import Mathlib.Tactic.IntervalCases
import Mvfst.Common.IntervalSetLaws
import Mvfst.Lib.TransitionSystem
import Mvfst.State.QuicStreamManager

/-!
The peer's streams of one type under `getOrCreatePeerStream` and `removeClosedStream`: the next
acceptable id never passes the limit, and the streams the peer may still open plus those open
never exceed the advertised initial limit, so the credit `removeClosedStream` computes never
wraps.
-/

namespace Mvfst

/-! ### Stream types -/

theorem and_two_eq (id : Nat) : id &&& 2 = id % 4 &&& 2 := by
  rw [← Nat.and_two_pow_sub_one_eq_mod id 2, Nat.and_assoc]
  rfl

theorem isServerStream_iff (id : Nat) : isServerStream id = true ↔ id % 4 = 1 ∨ id % 4 = 3 := by
  simp only [isServerStream, Nat.and_one_is_mod, bne_iff_ne, ne_eq]
  omega

theorem isClientStream_iff (id : Nat) : isClientStream id = true ↔ id % 4 = 0 ∨ id % 4 = 2 := by
  simp only [isClientStream, Nat.and_one_is_mod, beq_iff_eq]
  omega

theorem isUnidirectionalStream_iff (id : Nat) :
    isUnidirectionalStream id = true ↔ id % 4 = 2 ∨ id % 4 = 3 := by
  rw [isUnidirectionalStream, and_two_eq]
  have small : id % 4 < 4 := Nat.mod_lt _ (by omega)
  generalize id % 4 = r at small ⊢
  interval_cases r <;> decide

@[simp] theorem kStreamIncrement_eq : kStreamIncrement = 4 := rfl

theorem isServerStream_eq_not (id : Nat) : isServerStream id = !isClientStream id := by
  simp only [isServerStream, isClientStream, bne]

theorem remote_guards {nodeType : QuicNodeType} {id : Nat} (remote : isRemoteStream nodeType id = true) :
    ¬ (nodeType = .client ∧ isClientStream id = true) ∧ ¬ (nodeType = .server ∧ isServerStream id = true) ∧
      ¬ ((!isClientStream id) = true ∧ (!isServerStream id) = true) := by
  unfold isRemoteStream at remote
  rw [isServerStream_eq_not] at remote ⊢
  cases nodeType <;> cases client : isClientStream id <;> simp [client] at remote ⊢

namespace StreamIdSet

variable {s : StreamIdSet}

theorem size_eq_length (valid : s.streams.Valid (2 ^ 64 - 1)) :
    s.size = (pointList s.streams.intervals).length := by
  rw [size, length_pointList valid.wellFormed]

theorem contains_iff_covered (valid : s.streams.Valid (2 ^ 64 - 1)) (id : Nat) :
    s.contains id = true ↔ Covered s.streams.intervals ((id - s.base) / 4) := by
  simp only [contains, kStreamIncrement_eq]
  rw [IntervalSet.contains_iff valid (Nat.le_refl 1) (Nat.le_refl _), Set.Icc_self,
    Set.singleton_subset_iff]
  rfl

theorem add_of_typed {first last : Nat} (firstTyped : first % 4 = s.base) (lastTyped : last % 4 = s.base)
    (ordered : first ≤ last) :
    s.add first last =
      some { s with streams := s.streams.insert ⟨(first - s.base) / 4, (last - s.base) / 4⟩ } := by
  rw [add, if_pos (by simp only [kStreamIncrement_eq]; omega)]
  rfl

theorem remove_of_typed {id : Nat} (typed : id % 4 = s.base) :
    s.remove id =
      some { s with streams := s.streams.withdraw ⟨(id - s.base) / 4, (id - s.base) / 4⟩ } := by
  rw [remove, if_pos (by simp only [kStreamIncrement_eq]; omega)]
  rfl

end StreamIdSet

section Limits

variable {p : PeerStreams} {maxStreams : Nat}

theorem openableRemoteStreams_eq (ordered : p.nextAcceptableStreamId ≤ p.maxStreamId) :
    openableRemoteStreams p = some ((p.maxStreamId - p.nextAcceptableStreamId) / 4) := by
  rw [openableRemoteStreams, if_pos ordered, kStreamIncrement_eq]

theorem setMaxRemoteStreamsInternal_of_gt (force : Bool) (beyond : kMaxMaxStreams < maxStreams) :
    setMaxRemoteStreamsInternal p maxStreams force =
      .error ⟨.transport .streamLimitError, "Attempt to set maxStreams beyond the max allowed."⟩ := by
  rw [setMaxRemoteStreamsInternal, if_pos beyond]

/-- A limit no lower than the current one becomes the new one, forced or not. -/
theorem setMaxRemoteStreamsInternal_of_le (force : Bool) (fits : maxStreams ≤ kMaxMaxStreams)
    (raising : p.maxStreamId ≤ maxStreams * 4 + p.initialStreamId) :
    setMaxRemoteStreamsInternal p maxStreams force =
      .ok { p with maxStreamId := maxStreams * 4 + p.initialStreamId } := by
  rw [setMaxRemoteStreamsInternal, if_neg (Nat.not_lt.mpr fits), kStreamIncrement_eq]
  dsimp only
  split_ifs with raised
  · rfl
  · have same : p.maxStreamId = maxStreams * 4 + p.initialStreamId := by
      simp only [not_or, Bool.not_eq_true, gt_iff_lt, Nat.not_lt] at raised
      omega
    rw [← same]

end Limits

namespace PeerStreams

variable (p : PeerStreams) (streamId : Nat)

/-- The fields after the peer opens every id of the type from the next acceptable one up to
`streamId`. -/
def openUpTo : PeerStreams :=
  { p with
    openStreams := { p.openStreams with
      streams := p.openStreams.streams.insert
        ⟨(p.nextAcceptableStreamId - p.initialStreamId) / 4, (streamId - p.initialStreamId) / 4⟩ }
    nextAcceptableStreamId := streamId + 4 }

/-- The fields after `streamId` closes. -/
def close : PeerStreams :=
  { p with
    openStreams := { p.openStreams with
      streams := p.openStreams.streams.withdraw
        ⟨(streamId - p.initialStreamId) / 4, (streamId - p.initialStreamId) / 4⟩ } }

@[simp] theorem openUpTo_initialStreamId : (p.openUpTo streamId).initialStreamId = p.initialStreamId := rfl

@[simp] theorem with_close_openStreams : { p with openStreams := (p.close streamId).openStreams } = p.close streamId :=
  rfl

theorem openableRemoteStreams_close : openableRemoteStreams (p.close streamId) = openableRemoteStreams p :=
  rfl

@[simp] theorem close_maxStreamId : (p.close streamId).maxStreamId = p.maxStreamId := rfl

@[simp] theorem close_initialStreamId : (p.close streamId).initialStreamId = p.initialStreamId := rfl

@[simp] theorem close_nextAcceptableStreamId :
    (p.close streamId).nextAcceptableStreamId = p.nextAcceptableStreamId := rfl

theorem remove_close (setBase : p.openStreams.base = p.initialStreamId)
    (typed : streamId % 4 = p.initialStreamId) :
    p.openStreams.remove streamId = some (p.close streamId).openStreams := by
  rw [StreamIdSet.remove_of_typed (setBase ▸ typed), close]
  simp only [setBase]

/-- Closing an open stream takes one from the size of the set. -/
theorem size_close (valid : p.openStreams.streams.Valid (2 ^ 64 - 1))
    (covered : Covered p.openStreams.streams.intervals ((streamId - p.initialStreamId) / 4))
    (small : (streamId - p.initialStreamId) / 4 < 2 ^ 64 - 1) :
    (p.close streamId).openStreams.size + 1 = p.openStreams.size := by
  have closedValid : (p.close streamId).openStreams.streams.Valid (2 ^ 64 - 1) :=
    IntervalSet.withdraw_valid valid (Nat.le_refl 1) ⟨le_rfl, by dsimp only; omega⟩
  rw [StreamIdSet.size_eq_length closedValid, StreamIdSet.size_eq_length valid]
  exact IntervalSet.length_pointList_withdraw valid (by omega) covered

end PeerStreams

/-! ### The system -/

inductive PeerStreamEvent where
  | getStream (streamId : Nat)
  | removeClosedStream (streamId : Nat)
  deriving DecidableEq, Repr

namespace QuicStreamManager

/-- The manager after a call: a failed `getOrCreatePeerStream` changes nothing, and a failed
`removeClosedStream` keeps what it did before failing; `none` is a failed `CHECK`. -/
def peerStreamStep (m : QuicStreamManager) : PeerStreamEvent → Option QuicStreamManager
  | .getStream streamId =>
    match m.getOrCreatePeerStream streamId with
    | none => none
    | some (.error _) => some m
    | some (.ok (_, m')) => some m'
  | .removeClosedStream streamId => (m.removeClosedStream streamId).map Prod.fst

/-- A stream id the peer opens, of the given type. -/
def IsPeerStream (m : QuicStreamManager) (uni : Bool) (streamId : Nat) : Prop :=
  isRemoteStream m.nodeType streamId = true ∧ isUnidirectionalStream streamId = uni

instance instDecidableIsPeerStream (m : QuicStreamManager) (uni : Bool) (streamId : Nat) :
    Decidable (m.IsPeerStream uni streamId) :=
  inferInstanceAs (Decidable (_ ∧ _))

/-- Calls on the peer's streams of one type. -/
def PeerStreamEvent.Admissible (uni : Bool) (m : QuicStreamManager) : PeerStreamEvent → Prop
  | .getStream streamId => m.IsPeerStream uni streamId
  | .removeClosedStream streamId => m.IsPeerStream uni streamId

instance instDecidableAdmissible (uni : Bool) (m : QuicStreamManager) (event : PeerStreamEvent) :
    Decidable (PeerStreamEvent.Admissible uni m event) :=
  match event with
  | .getStream streamId => inferInstanceAs (Decidable (m.IsPeerStream uni streamId))
  | .removeClosedStream streamId => inferInstanceAs (Decidable (m.IsPeerStream uni streamId))

/-- A manager as constructed, its initial refresh successful, with any windowing fraction. -/
def Fresh (m : QuicStreamManager) : Prop :=
  ∃ nodeType bidi uniLimit fraction,
    (init nodeType bidi uniLimit).refreshTransportSettings.2 = .ok () ∧
      m = (create nodeType bidi uniLimit).setStreamLimitWindowingFraction fraction

end QuicStreamManager

/-- What holds of the fields of one type of peer stream. -/
structure PeerStreams.Consistent (p : PeerStreams) : Prop where
  baseSmall : p.initialStreamId < 4
  setBase : p.openStreams.base = p.initialStreamId
  nextTyped : p.nextAcceptableStreamId % 4 = p.initialStreamId
  maxTyped : p.maxStreamId % 4 = p.initialStreamId
  baseLeNext : p.initialStreamId ≤ p.nextAcceptableStreamId
  nextLeMax : p.nextAcceptableStreamId ≤ p.maxStreamId
  maxBounded : p.maxStreamId ≤ kMaxMaxStreams * 4 + p.initialStreamId
  valid : p.openStreams.streams.Valid (2 ^ 64 - 1)
  openBelow : ∀ x, Covered p.openStreams.streams.intervals x →
    x < (p.nextAcceptableStreamId - p.initialStreamId) / 4

namespace PeerStreams.Consistent

variable {p : PeerStreams} (consistent : p.Consistent) {streamId : Nat}
include consistent

theorem covered_openUpTo (x : Nat) :
    Covered (p.openUpTo streamId).openStreams.streams.intervals x ↔ Covered p.openStreams.streams.intervals x ∨
      (p.nextAcceptableStreamId - p.initialStreamId) / 4 ≤ x ∧ x ≤ (streamId - p.initialStreamId) / 4 :=
  IntervalSet.covered_insert _ _ consistent.valid.wellFormed consistent.valid.sorted x

theorem covered_close (x : Nat) :
    Covered (p.close streamId).openStreams.streams.intervals x ↔ Covered p.openStreams.streams.intervals x ∧
      x ≠ (streamId - p.initialStreamId) / 4 := by
  rw [close, IntervalSet.covered_withdraw _ _ consistent.valid.wellFormed consistent.valid.sorted le_rfl]
  simp only [Interval.Covers, not_and, Nat.not_le]
  exact and_congr_right fun _ => ⟨fun outside same => by omega, fun apart low => by omega⟩

section Open

variable (typed : streamId % 4 = p.initialStreamId) (reached : p.nextAcceptableStreamId ≤ streamId)
  (room : streamId < p.maxStreamId)
include typed reached room

theorem openUpTo_fits : (p.nextAcceptableStreamId - p.initialStreamId) / 4 ≤ (streamId - p.initialStreamId) / 4 ∧
    (streamId - p.initialStreamId) / 4 ≤ 2 ^ 64 - 1 - 1 := by
  have bounded := consistent.maxBounded
  unfold kMaxMaxStreams at bounded
  omega

theorem openUpTo : (p.openUpTo streamId).Consistent where
  baseSmall := consistent.baseSmall
  setBase := consistent.setBase
  nextTyped := by
    show (streamId + 4) % 4 = p.initialStreamId
    omega
  maxTyped := consistent.maxTyped
  baseLeNext := by
    show p.initialStreamId ≤ streamId + 4
    omega
  nextLeMax := by
    have := consistent.maxTyped
    show streamId + 4 ≤ p.maxStreamId
    omega
  maxBounded := consistent.maxBounded
  valid := IntervalSet.insert_valid consistent.valid (consistent.openUpTo_fits typed reached room)
  openBelow x covered := by
    show x < (streamId + 4 - p.initialStreamId) / 4
    rcases (consistent.covered_openUpTo x).mp covered with old | ⟨-, high⟩
    · have := consistent.openBelow x old
      omega
    · omega

/-- Opening up to `streamId` adds the ids from the next acceptable one on, none of them open. -/
theorem size_openUpTo : (p.openUpTo streamId).openStreams.size =
    p.openStreams.size + ((streamId - p.initialStreamId) / 4 + 1 -
      (p.nextAcceptableStreamId - p.initialStreamId) / 4) := by
  rw [StreamIdSet.size_eq_length (consistent.openUpTo typed reached room).valid,
    StreamIdSet.size_eq_length consistent.valid]
  exact IntervalSet.length_pointList_insert consistent.valid (consistent.openUpTo_fits typed reached room)
    fun x within covered => Nat.lt_irrefl _ (Nat.lt_of_lt_of_le (consistent.openBelow x covered) within.1)

end Open

section Close

variable (covered : Covered p.openStreams.streams.intervals ((streamId - p.initialStreamId) / 4))
include covered

theorem close_small : (streamId - p.initialStreamId) / 4 < 2 ^ 64 - 1 := by
  have below := consistent.openBelow _ covered
  have bounded := consistent.maxBounded
  have ordered := consistent.nextLeMax
  unfold kMaxMaxStreams at bounded
  omega

theorem close : (p.close streamId).Consistent where
  baseSmall := consistent.baseSmall
  setBase := consistent.setBase
  nextTyped := consistent.nextTyped
  maxTyped := consistent.maxTyped
  baseLeNext := consistent.baseLeNext
  nextLeMax := consistent.nextLeMax
  maxBounded := consistent.maxBounded
  valid := IntervalSet.withdraw_valid consistent.valid (Nat.le_refl 1)
    ⟨le_rfl, Nat.le_sub_one_of_lt (consistent.close_small covered)⟩
  openBelow x closed := consistent.openBelow x ((consistent.covered_close x).mp closed).1

theorem size_close : (p.close streamId).openStreams.size + 1 = p.openStreams.size :=
  p.size_close streamId consistent.valid covered (consistent.close_small covered)

end Close

/-- A limit raised above the next acceptable id keeps the fields consistent. -/
theorem raise {maxStreams : Nat} (update : Option Nat)
    (raising : p.nextAcceptableStreamId ≤ maxStreams * 4 + p.initialStreamId) (fits : maxStreams ≤ kMaxMaxStreams) :
    { p with maxStreamId := maxStreams * 4 + p.initialStreamId, streamLimitUpdate := update }.Consistent where
  baseSmall := consistent.baseSmall
  setBase := consistent.setBase
  nextTyped := consistent.nextTyped
  maxTyped := by
    have := consistent.baseSmall
    show (maxStreams * 4 + p.initialStreamId) % 4 = p.initialStreamId
    omega
  baseLeNext := consistent.baseLeNext
  nextLeMax := raising
  maxBounded := by
    show maxStreams * 4 + p.initialStreamId ≤ kMaxMaxStreams * 4 + p.initialStreamId
    omega
  valid := consistent.valid
  openBelow := consistent.openBelow

end PeerStreams.Consistent

namespace QuicStreamManager

/-- The invariant of the peer's streams of type `uni`. -/
structure PeerLimits (uni : Bool) (m : QuicStreamManager) : Prop where
  consistent : (m.peer uni).Consistent
  typed : ∀ id, m.IsPeerStream uni id ↔ id % 4 = (m.peer uni).initialStreamId
  limitBounded : m.initialStreamLimit uni ≤ kMaxMaxStreams
  fraction : 0 < m.streamLimitWindowingFraction
  streamsOpen : ∀ id ∈ m.streams, id % 4 = (m.peer uni).initialStreamId ∧
    Covered (m.peer uni).openStreams.streams.intervals ((id - (m.peer uni).initialStreamId) / 4)
  streamsNodup : m.streams.Nodup
  credit : ((m.peer uni).maxStreamId - (m.peer uni).nextAcceptableStreamId) / 4 +
    (m.peer uni).openStreams.size ≤ m.initialStreamLimit uni

section Spec

variable {uni : Bool} {m : QuicStreamManager} {id : Nat}

/-- What `getOrCreatePeerStream` does with an id of the peer's type. -/
theorem getOrCreatePeerStream_eq (limits : m.PeerLimits uni) (peerStream : m.IsPeerStream uni id) :
    m.getOrCreatePeerStream id =
      if id ∈ m.streams then some (.ok (true, m))
      else if Covered (m.peer uni).openStreams.streams.intervals
          ((id - (m.peer uni).initialStreamId) / 4) then
        some (.ok (true, m.instantiatePeerStream id))
      else if id < (m.peer uni).nextAcceptableStreamId then some (.ok (false, m))
      else if (m.peer uni).maxStreamId ≤ id then
        some (.error ⟨.transport .streamLimitError, "Peer exceeded stream limit."⟩)
      else some (.ok (true, (m.setPeer uni ((m.peer uni).openUpTo id)).instantiatePeerStream id)) := by
  have typed := (limits.typed id).mp peerStream
  obtain ⟨remote, kind⟩ := peerStream
  obtain ⟨notClient, notServer, wellFormed⟩ := remote_guards remote
  have consistent := limits.consistent
  unfold getOrCreatePeerStream
  rw [if_neg notClient, if_neg notServer, if_neg wellFormed]
  simp only [kind, StreamIdSet.contains_iff_covered consistent.valid, consistent.setBase,
    openPeerStreamIfNotClosed]
  split_ifs with member covered below full reached <;> try rfl
  · rw [StreamIdSet.add_of_typed (by rw [consistent.setBase]; exact consistent.nextTyped)
      (by rw [consistent.setBase]; exact typed) reached]
    simp only [PeerStreams.openUpTo, consistent.setBase, kStreamIncrement_eq]
  · omega

theorem removeClosedStream_of_not_mem (absent : id ∉ m.streams) :
    m.removeClosedStream id = some (m, .ok ()) := by
  rw [removeClosedStream, if_pos absent]

/-- What `removeClosedStream` does with an open stream of the peer's type: the credit it hands
back is the initial limit less what the peer may still open and what is open. -/
theorem removeClosedStream_eq (limits : m.PeerLimits uni) (peerStream : m.IsPeerStream uni id)
    (member : id ∈ m.streams) :
    let closed := { m with streams := m.streams.erase id }
    let credit := m.initialStreamLimit uni -
      ((m.peer uni).maxStreamId - (m.peer uni).nextAcceptableStreamId) / 4 -
      ((m.peer uni).close id).openStreams.size
    let raised := ((m.peer uni).maxStreamId - (m.peer uni).initialStreamId) / 4 + credit
    m.removeClosedStream id =
      if m.initialStreamLimit uni / m.streamLimitWindowingFraction ≤ credit then
        if kMaxMaxStreams < raised then
          some (closed.setPeer uni ((m.peer uni).close id), .error ⟨.transport .streamLimitError,
            "Attempt to set maxStreams beyond the max allowed."⟩)
        else
          some (closed.setPeer uni { (m.peer uni).close id with
            maxStreamId := raised * 4 + (m.peer uni).initialStreamId,
            streamLimitUpdate := some raised }, .ok ())
      else some (closed.setPeer uni ((m.peer uni).close id), .ok ()) := by
  have typed := (limits.typed id).mp peerStream
  obtain ⟨remote, kind⟩ := peerStream
  have consistent := limits.consistent
  have covered := (limits.streamsOpen id member).2
  have below := consistent.openBelow _ covered
  have ordered := consistent.nextLeMax
  have bounded := consistent.maxBounded
  have closedSize := (m.peer uni).size_close id consistent.valid covered
    (by unfold kMaxMaxStreams at bounded; omega)
  have credit := limits.credit
  have limit := limits.limitBounded
  unfold kMaxMaxStreams at bounded limit
  -- the credit is computed in `uint64_t`, and neither subtraction wraps
  have openable : FlowControl.wrappingSub (m.initialStreamLimit uni)
      (((m.peer uni).maxStreamId - (m.peer uni).nextAcceptableStreamId) / 4) =
      m.initialStreamLimit uni - ((m.peer uni).maxStreamId - (m.peer uni).nextAcceptableStreamId) / 4 :=
    FlowControl.wrappingSub_of_le (by omega) (by omega)
  have remaining : FlowControl.wrappingSub
      (m.initialStreamLimit uni - ((m.peer uni).maxStreamId - (m.peer uni).nextAcceptableStreamId) / 4)
      ((m.peer uni).close id).openStreams.size =
      m.initialStreamLimit uni - ((m.peer uni).maxStreamId - (m.peer uni).nextAcceptableStreamId) / 4 -
        ((m.peer uni).close id).openStreams.size :=
    FlowControl.wrappingSub_of_le (by omega) (by omega)
  unfold removeClosedStream
  simp only [if_neg (not_not.mpr member), remote, kind, peer_withStreams, if_true,
    PeerStreams.remove_close _ _ consistent.setBase typed, PeerStreams.with_close_openStreams,
    openableRemote_selected, peer_setPeer, PeerStreams.openableRemoteStreams_close,
    openableRemoteStreams_eq consistent.nextLeMax, initialStreamLimit_setPeer,
    initialStreamLimit_withStreams, streamLimitWindowingFraction_setPeer,
    openable, remaining,
    PeerStreams.close_maxStreamId, PeerStreams.close_initialStreamId, kStreamIncrement_eq,
    setMaxRemote_selected, ge_iff_le]
  rw [Nat.mod_eq_of_lt (by omega)]
  split_ifs with enough beyond
  · rw [setMaxRemoteStreamsInternal_of_gt false beyond]
    rfl
  · rw [setMaxRemoteStreamsInternal_of_le false (Nat.le_of_not_lt beyond)
      (by simp only [PeerStreams.close_maxStreamId, PeerStreams.close_initialStreamId]; omega)]
    simp only [Except.map, setPeer_setPeer, peer_setPeer, PeerStreams.close_initialStreamId]
  · rfl

end Spec

section Preservation

variable {uni : Bool} {m : QuicStreamManager} {id : Nat}

/-- The invariant carries over to a manager of the same node type, limit and fraction, once its
peer fields and stream list are shown to keep it. -/
theorem PeerLimits.update (limits : m.PeerLimits uni) {m' : QuicStreamManager}
    (sameNodeType : m'.nodeType = m.nodeType)
    (sameLimit : m'.initialStreamLimit uni = m.initialStreamLimit uni)
    (sameFraction : m'.streamLimitWindowingFraction = m.streamLimitWindowingFraction)
    (sameBase : (m'.peer uni).initialStreamId = (m.peer uni).initialStreamId)
    (consistent : (m'.peer uni).Consistent)
    (streamsOpen : ∀ id ∈ m'.streams, id % 4 = (m'.peer uni).initialStreamId ∧
      Covered (m'.peer uni).openStreams.streams.intervals ((id - (m'.peer uni).initialStreamId) / 4))
    (streamsNodup : m'.streams.Nodup)
    (credit : ((m'.peer uni).maxStreamId - (m'.peer uni).nextAcceptableStreamId) / 4 +
      (m'.peer uni).openStreams.size ≤ m'.initialStreamLimit uni) : m'.PeerLimits uni where
  consistent := consistent
  typed id := by
    rw [IsPeerStream, sameNodeType, sameBase]
    exact limits.typed id
  limitBounded := sameLimit ▸ limits.limitBounded
  fraction := sameFraction ▸ limits.fraction
  streamsOpen := streamsOpen
  streamsNodup := streamsNodup
  credit := credit

/-- New peer fields of the same type, with every stream still open. -/
theorem PeerLimits.setPeer (limits : m.PeerLimits uni) {p : PeerStreams} (consistent : p.Consistent)
    (sameBase : p.initialStreamId = (m.peer uni).initialStreamId)
    (streamsOpen : ∀ id ∈ m.streams, Covered p.openStreams.streams.intervals ((id - p.initialStreamId) / 4))
    (credit : (p.maxStreamId - p.nextAcceptableStreamId) / 4 + p.openStreams.size ≤ m.initialStreamLimit uni) :
    (m.setPeer uni p).PeerLimits uni := by
  refine limits.update (by simp) (by simp) (by simp) (by simpa using sameBase) (by simpa using consistent)
    ?_ (by simpa using limits.streamsNodup) (by simpa using credit)
  simp only [streams_setPeer, peer_setPeer, sameBase]
  intro id member
  exact ⟨(limits.streamsOpen id member).1, sameBase ▸ streamsOpen id member⟩

theorem PeerLimits.instantiate (limits : m.PeerLimits uni) (typed : id % 4 = (m.peer uni).initialStreamId)
    (covered : Covered (m.peer uni).openStreams.streams.intervals ((id - (m.peer uni).initialStreamId) / 4)) :
    (m.instantiatePeerStream id).PeerLimits uni := by
  unfold instantiatePeerStream
  split_ifs with member
  · exact limits
  · refine limits.update rfl rfl rfl rfl limits.consistent ?_ ?_ limits.credit
    · intro id' member'
      rcases List.mem_append.mp member' with old | new
      · exact limits.streamsOpen id' old
      · rw [List.mem_singleton.mp new]
        exact ⟨typed, covered⟩
    · refine List.nodup_append.mpr ⟨limits.streamsNodup, List.nodup_singleton id, ?_⟩
      rintro a old b new rfl
      exact member (List.mem_singleton.mp new ▸ old)

/-- A peer stream the invariant admits above the next acceptable id and below the limit: opening
up to it uses as much of the limit as it adds to the open set. -/
theorem PeerLimits.openUpTo (limits : m.PeerLimits uni) (typed : id % 4 = (m.peer uni).initialStreamId)
    (reached : (m.peer uni).nextAcceptableStreamId ≤ id) (room : id < (m.peer uni).maxStreamId) :
    (m.setPeer uni ((m.peer uni).openUpTo id)).PeerLimits uni := by
  have consistent := limits.consistent
  have size := consistent.size_openUpTo typed reached room
  refine limits.setPeer (consistent.openUpTo typed reached room) rfl ?_ ?_
  · intro id' member
    exact (consistent.covered_openUpTo _).mpr (.inl (limits.streamsOpen id' member).2)
  · have credit := limits.credit
    have nextTyped := consistent.nextTyped
    have maxTyped := consistent.maxTyped
    show ((m.peer uni).maxStreamId - (id + 4)) / 4 + ((m.peer uni).openUpTo id).openStreams.size ≤ _
    omega

theorem PeerLimits.of_getOrCreatePeerStream (limits : m.PeerLimits uni) (peerStream : m.IsPeerStream uni id)
    {opened : Bool} {m' : QuicStreamManager} (result : m.getOrCreatePeerStream id = some (.ok (opened, m'))) :
    m'.PeerLimits uni := by
  have typed := (limits.typed id).mp peerStream
  rw [getOrCreatePeerStream_eq limits peerStream] at result
  split_ifs at result with member covered below full
  · cases result
    exact limits
  · cases result
    exact limits.instantiate typed covered
  · cases result
    exact limits
  · cases result
  · cases result
    have opened := limits.openUpTo typed (Nat.le_of_not_lt below) (Nat.lt_of_not_le full)
    refine opened.instantiate (by simpa using typed) ?_
    simp only [peer_setPeer, PeerStreams.openUpTo_initialStreamId]
    exact (limits.consistent.covered_openUpTo _).mpr (.inr ⟨by omega, le_rfl⟩)

theorem PeerLimits.erase (limits : m.PeerLimits uni) :
    ({ m with streams := m.streams.erase id } : QuicStreamManager).PeerLimits uni :=
  limits.update rfl (initialStreamLimit_withStreams m uni _) rfl rfl limits.consistent
    (fun id' member => limits.streamsOpen id' (List.mem_of_mem_erase member))
    (limits.streamsNodup.erase id) limits.credit

/-- Closing an open peer stream: the other streams stay open, and one unit of the limit is free. -/
theorem PeerLimits.close (limits : m.PeerLimits uni) (typed : id % 4 = (m.peer uni).initialStreamId)
    (member : id ∈ m.streams) :
    ({ m with streams := m.streams.erase id }.setPeer uni ((m.peer uni).close id)).PeerLimits uni := by
  have consistent := limits.consistent
  have covered := (limits.streamsOpen id member).2
  refine limits.erase.setPeer (consistent.close covered) rfl ?_ ?_
  · intro id' member'
    obtain ⟨other, old⟩ := (limits.streamsNodup.mem_erase_iff).mp member'
    have typed' := (limits.streamsOpen id' old).1
    have baseSmall := consistent.baseSmall
    rw [PeerStreams.close_initialStreamId]
    exact (consistent.covered_close _).mpr ⟨(limits.streamsOpen id' old).2, by omega⟩
  · have size := consistent.size_close covered
    have credit := limits.credit
    show ((m.peer uni).maxStreamId - (m.peer uni).nextAcceptableStreamId) / 4 +
      ((m.peer uni).close id).openStreams.size ≤ m.initialStreamLimit uni
    omega

/-- A raised limit, with its pending update, keeps the invariant while the credit fits. -/
theorem PeerLimits.raise (limits : m.PeerLimits uni) {maxStreams : Nat} (update : Option Nat)
    (raising : (m.peer uni).nextAcceptableStreamId ≤ maxStreams * 4 + (m.peer uni).initialStreamId)
    (fits : maxStreams ≤ kMaxMaxStreams)
    (credit : (maxStreams * 4 + (m.peer uni).initialStreamId - (m.peer uni).nextAcceptableStreamId) / 4 +
      (m.peer uni).openStreams.size ≤ m.initialStreamLimit uni) :
    (m.setPeer uni { m.peer uni with
      maxStreamId := maxStreams * 4 + (m.peer uni).initialStreamId, streamLimitUpdate := update }).PeerLimits uni :=
  limits.setPeer (limits.consistent.raise update raising fits) rfl
    (fun id member => (limits.streamsOpen id member).2) credit

theorem PeerLimits.of_removeClosedStream (limits : m.PeerLimits uni) (peerStream : m.IsPeerStream uni id)
    {m' : QuicStreamManager} {result : Except QuicError Unit}
    (removed : m.removeClosedStream id = some (m', result)) : m'.PeerLimits uni := by
  have typed := (limits.typed id).mp peerStream
  by_cases member : id ∈ m.streams
  · have closed := limits.close typed member
    have consistent := limits.consistent
    have size := consistent.size_close (limits.streamsOpen id member).2
    have credit := limits.credit
    have nextTyped := consistent.nextTyped
    have maxTyped := consistent.maxTyped
    have ordered := consistent.nextLeMax
    rw [removeClosedStream_eq limits peerStream member] at removed
    dsimp only at removed
    split_ifs at removed with enough beyond
    · cases removed
      exact closed
    · cases removed
      -- the raised limit is the old one plus the credit, all of which the peer may open
      generalize raisedEq : ((m.peer uni).maxStreamId - (m.peer uni).initialStreamId) / 4 +
        (m.initialStreamLimit uni - ((m.peer uni).maxStreamId - (m.peer uni).nextAcceptableStreamId) / 4 -
          ((m.peer uni).close id).openStreams.size) = raisedTo at beyond ⊢
      have raised := closed.raise (some raisedTo)
        (by simp only [peer_setPeer, PeerStreams.close_initialStreamId,
          PeerStreams.close_nextAcceptableStreamId]; omega)
        (Nat.le_of_not_lt beyond)
        (by simp only [peer_setPeer, PeerStreams.close_initialStreamId, PeerStreams.close_nextAcceptableStreamId,
          initialStreamLimit_setPeer, initialStreamLimit_withStreams]; omega)
      simpa only [setPeer_setPeer, peer_setPeer, PeerStreams.close_initialStreamId] using raised
    · cases removed
      exact closed
  · rw [removeClosedStream_of_not_mem member] at removed
    cases removed
    exact limits

end Preservation

section Fresh

theorem setMaxRemoteStreamsInternal_forced {p : PeerStreams} {maxStreams : Nat}
    (fits : maxStreams ≤ kMaxMaxStreams) :
    setMaxRemoteStreamsInternal p maxStreams true =
      .ok { p with maxStreamId := maxStreams * 4 + p.initialStreamId } := by
  rw [setMaxRemoteStreamsInternal, if_neg (Nat.not_lt.mpr fits), kStreamIncrement_eq]
  dsimp only
  rw [if_pos (.inl rfl)]

variable {m : QuicStreamManager}

theorem refreshTransportSettings_fits (ok : m.refreshTransportSettings.2 = .ok ()) :
    m.advertisedInitialMaxStreamsBidi ≤ kMaxMaxStreams ∧ m.advertisedInitialMaxStreamsUni ≤ kMaxMaxStreams := by
  have bidi : m.advertisedInitialMaxStreamsBidi ≤ kMaxMaxStreams := by
    by_contra beyond
    rw [refreshTransportSettings, setMaxRemoteBidirectionalStreamsInternal,
      setMaxRemoteStreamsInternal_of_gt true (Nat.lt_of_not_le beyond)] at ok
    cases ok
  refine ⟨bidi, ?_⟩
  by_contra beyond
  rw [refreshTransportSettings, setMaxRemoteBidirectionalStreamsInternal, setMaxRemoteStreamsInternal_forced bidi]
    at ok
  simp only [Except.map] at ok
  rw [setMaxRemoteUnidirectionalStreamsInternal,
    setMaxRemoteStreamsInternal_of_gt true (Nat.lt_of_not_le beyond)] at ok
  cases ok

theorem refreshTransportSettings_fst (bidi : m.advertisedInitialMaxStreamsBidi ≤ kMaxMaxStreams)
    (uniFits : m.advertisedInitialMaxStreamsUni ≤ kMaxMaxStreams) :
    m.refreshTransportSettings.1 =
      (m.setPeer false { m.peer false with
        maxStreamId := m.initialStreamLimit false * 4 + (m.peer false).initialStreamId }).setPeer true
      { m.peer true with maxStreamId := m.initialStreamLimit true * 4 + (m.peer true).initialStreamId } := by
  rw [refreshTransportSettings, setMaxRemoteBidirectionalStreamsInternal, setMaxRemoteStreamsInternal_forced bidi]
  simp only [Except.map]
  rw [setMaxRemoteUnidirectionalStreamsInternal, setMaxRemoteStreamsInternal_forced uniFits]
  rfl

/-- The peer opens the ids whose two low bits name the peer's side and the type. -/
theorem init_typed (nodeType : QuicNodeType) (bidi uniLimit : Nat) (uni : Bool) (id : Nat) :
    (init nodeType bidi uniLimit).IsPeerStream uni id ↔
      id % 4 = ((init nodeType bidi uniLimit).peer uni).initialStreamId := by
  have client := isClientStream_iff id
  have server := isServerStream_iff id
  have unidirectional := isUnidirectionalStream_iff id
  cases nodeType <;> cases uni <;>
    simp only [IsPeerStream, isRemoteStream, init, peer, PeerStreams.init] <;> simp <;>
    simp only [← Bool.not_eq_true, client, server, unidirectional] <;> omega

theorem PeerLimits.fresh (fresh : m.Fresh) (uni : Bool) : m.PeerLimits uni := by
  obtain ⟨nodeType, bidi, uniLimit, fraction, ok, rfl⟩ := fresh
  obtain ⟨bidiFits, uniFits⟩ := refreshTransportSettings_fits ok
  -- the constructor's refresh sets both limits and nothing else
  have created : (create nodeType bidi uniLimit).peer uni =
      { (init nodeType bidi uniLimit).peer uni with
        maxStreamId := (init nodeType bidi uniLimit).initialStreamLimit uni * 4 +
          ((init nodeType bidi uniLimit).peer uni).initialStreamId } := by
    rw [create, refreshTransportSettings_fst bidiFits uniFits]
    cases uni <;> rfl
  have sameNodeType : (create nodeType bidi uniLimit).nodeType = nodeType := by
    rw [create, refreshTransportSettings_fst bidiFits uniFits]
    simp only [nodeType_setPeer]
    rfl
  have baseSmall : ((init nodeType bidi uniLimit).peer uni).initialStreamId < 4 := by
    cases nodeType <;> cases uni <;> simp [init, peer, PeerStreams.init]
  have limit : (init nodeType bidi uniLimit).initialStreamLimit uni ≤ kMaxMaxStreams := by
    cases uni
    · exact bidiFits
    · exact uniFits
  have sameLimit : (create nodeType bidi uniLimit).initialStreamLimit uni =
      (init nodeType bidi uniLimit).initialStreamLimit uni := by
    rw [create, refreshTransportSettings_fst bidiFits uniFits]
    cases uni <;> rfl
  have noStreams : (create nodeType bidi uniLimit).streams = [] := by
    rw [create, refreshTransportSettings_fst bidiFits uniFits]
    simp only [streams_setPeer]
    rfl
  have peerInit : (init nodeType bidi uniLimit).peer uni =
      PeerStreams.init ((init nodeType bidi uniLimit).peer uni).initialStreamId := by
    cases nodeType <;> cases uni <;> rfl
  constructor
  · simp only [peer_setStreamLimitWindowingFraction, created]
    rw [peerInit]
    exact {
      baseSmall
      setBase := rfl
      nextTyped := Nat.mod_eq_of_lt baseSmall
      maxTyped := by simp only [PeerStreams.init]; omega
      baseLeNext := le_rfl
      nextLeMax := by simp only [PeerStreams.init]; omega
      maxBounded := by simp only [PeerStreams.init]; omega
      valid := IntervalSet.valid_empty _
      openBelow := fun x covered => absurd covered (covered_nil x) }
  · intro id
    simp only [IsPeerStream, nodeType_setStreamLimitWindowingFraction, sameNodeType,
      peer_setStreamLimitWindowingFraction, created]
    exact init_typed nodeType bidi uniLimit uni id
  · simpa only [initialStreamLimit_setStreamLimitWindowingFraction, sameLimit] using limit
  · apply streamLimitWindowingFraction_pos
    rw [create, refreshTransportSettings_fst bidiFits uniFits]
    simp only [streamLimitWindowingFraction_setPeer]
    exact Nat.two_pos
  · simp only [streams_setStreamLimitWindowingFraction, noStreams, List.not_mem_nil, false_implies, implies_true]
  · simp only [streams_setStreamLimitWindowingFraction, noStreams, List.nodup_nil]
  · simp only [peer_setStreamLimitWindowingFraction, initialStreamLimit_setStreamLimitWindowingFraction, created,
      sameLimit]
    rw [peerInit]
    simp only [PeerStreams.init, StreamIdSet.size]
    simp only [List.map_nil, List.sum_nil]
    omega

end Fresh

section Run

variable {uni : Bool} {m m' : QuicStreamManager}

theorem PeerLimits.step (limits : m.PeerLimits uni) {event : PeerStreamEvent}
    (admissible : PeerStreamEvent.Admissible uni m event) (stepped : m.peerStreamStep event = some m') :
    m'.PeerLimits uni := by
  cases event with
  | getStream id =>
    simp only [peerStreamStep] at stepped
    split at stepped
    · cases stepped
    · cases stepped
      exact limits
    · rename_i result
      cases stepped
      exact limits.of_getOrCreatePeerStream admissible result
  | removeClosedStream id =>
    obtain ⟨⟨m'', result⟩, removed, same⟩ := Option.map_eq_some_iff.mp stepped
    cases same
    exact limits.of_removeClosedStream admissible removed

theorem PeerLimits.of_reachable
    (reachable : TransitionSystem.Reachable Fresh (PeerStreamEvent.Admissible uni) peerStreamStep m) :
    m.PeerLimits uni :=
  reachable.invariant (fun _ fresh => PeerLimits.fresh fresh uni)
    (fun _ _ _ limits admissible stepped => limits.step admissible stepped)

end Run

section Limits

variable {uni : Bool} {m : QuicStreamManager} {id : Nat}

/-- An open or existing peer stream is below the next acceptable id. -/
theorem PeerLimits.lt_next (limits : m.PeerLimits uni) (typed : id % 4 = (m.peer uni).initialStreamId)
    (covered : Covered (m.peer uni).openStreams.streams.intervals ((id - (m.peer uni).initialStreamId) / 4)) :
    id < (m.peer uni).nextAcceptableStreamId := by
  have below := limits.consistent.openBelow _ covered
  have nextTyped := limits.consistent.nextTyped
  have baseLeNext := limits.consistent.baseLeNext
  omega

theorem PeerLimits.streamLimitError_iff (limits : m.PeerLimits uni) (peerStream : m.IsPeerStream uni id) :
    (∃ e, m.getOrCreatePeerStream id = some (.error e) ∧ e.code = .transport .streamLimitError) ↔
      (m.peer uni).nextAcceptableStreamId ≤ id ∧ (m.peer uni).maxStreamId ≤ id := by
  have typed := (limits.typed id).mp peerStream
  rw [getOrCreatePeerStream_eq limits peerStream]
  split_ifs with member covered below full
  · have := limits.lt_next typed (limits.streamsOpen id member).2
    simp only [reduceCtorEq, Option.some.injEq, false_and, exists_false, false_iff, not_and, Nat.not_le]
    omega
  · have := limits.lt_next typed covered
    simp only [reduceCtorEq, Option.some.injEq, false_and, exists_false, false_iff, not_and, Nat.not_le]
    omega
  · simp only [reduceCtorEq, Option.some.injEq, false_and, exists_false, false_iff, not_and, Nat.not_le]
    omega
  · exact iff_of_true ⟨_, rfl, rfl⟩ ⟨Nat.le_of_not_lt below, full⟩
  · simp only [reduceCtorEq, Option.some.injEq, false_and, exists_false, false_iff, not_and, Nat.not_le]
    omega

/-- After closing an open peer stream, the peer may open again all but less than a window of the
initial limit, unless the raised limit would pass `kMaxMaxStreams`, which fails the call. -/
theorem PeerLimits.removeClosedStream_credit (limits : m.PeerLimits uni) (peerStream : m.IsPeerStream uni id)
    (member : id ∈ m.streams) {m' : QuicStreamManager} {result : Except QuicError Unit}
    (removed : m.removeClosedStream id = some (m', result)) :
    ∃ openable, openableRemoteStreams (m'.peer uni) = some openable ∧
      openable + (m'.peer uni).openStreams.size ≤ m'.initialStreamLimit uni ∧
      (result = .ok () ∧ m'.initialStreamLimit uni < openable + (m'.peer uni).openStreams.size +
          max 1 (m'.initialStreamLimit uni / m'.streamLimitWindowingFraction) ∨
        result = .error ⟨.transport .streamLimitError, "Attempt to set maxStreams beyond the max allowed."⟩ ∧
          kMaxMaxStreams < ((m'.peer uni).maxStreamId - (m'.peer uni).initialStreamId) / 4 +
            (m'.initialStreamLimit uni - (openable + (m'.peer uni).openStreams.size))) := by
  have limits' := limits.of_removeClosedStream peerStream removed
  have consistent := limits.consistent
  have size := consistent.size_close (limits.streamsOpen id member).2
  have credit := limits.credit
  have nextTyped := consistent.nextTyped
  have maxTyped := consistent.maxTyped
  have ordered := consistent.nextLeMax
  refine ⟨_, openableRemoteStreams_eq limits'.consistent.nextLeMax, limits'.credit, ?_⟩
  rw [removeClosedStream_eq limits peerStream member] at removed
  dsimp only at removed
  split_ifs at removed with enough beyond
  · cases removed
    refine .inr ⟨rfl, ?_⟩
    simp only [peer_setPeer, initialStreamLimit_setPeer, initialStreamLimit_withStreams,
      PeerStreams.close_maxStreamId, PeerStreams.close_initialStreamId, PeerStreams.close_nextAcceptableStreamId]
    omega
  · cases removed
    refine .inl ⟨rfl, ?_⟩
    simp only [peer_setPeer, initialStreamLimit_setPeer, initialStreamLimit_withStreams,
      PeerStreams.close_initialStreamId, PeerStreams.close_nextAcceptableStreamId]
    -- the raised limit hands the whole credit back
    have := Nat.le_max_left 1 (m.initialStreamLimit uni / m.streamLimitWindowingFraction)
    omega
  · cases removed
    refine .inl ⟨rfl, ?_⟩
    simp only [peer_setPeer, initialStreamLimit_setPeer, initialStreamLimit_withStreams,
      streamLimitWindowingFraction_setPeer, PeerStreams.close_maxStreamId, PeerStreams.close_nextAcceptableStreamId]
    have := Nat.le_max_right 1 (m.initialStreamLimit uni / m.streamLimitWindowingFraction)
    show _ < _ + _ + max 1 (m.initialStreamLimit uni / m.streamLimitWindowingFraction)
    omega

end Limits

/-- The enforcement of the peer's stream limit of one type, in a state of the manager: which
`getOrCreatePeerStream` calls fail for the limit, the order of the next acceptable id and the
limit, the bound on what is open and openable, and what a `removeClosedStream` hands back. -/
structure PeerStreamLimits (uni : Bool) (m : QuicStreamManager) : Prop where
  limitError : ∀ id, m.IsPeerStream uni id →
    ((∃ e, m.getOrCreatePeerStream id = some (.error e) ∧ e.code = .transport .streamLimitError) ↔
      (m.peer uni).nextAcceptableStreamId ≤ id ∧ (m.peer uni).maxStreamId ≤ id)
  nextWithinLimit : (m.peer uni).nextAcceptableStreamId ≤ (m.peer uni).maxStreamId
  openableWithinLimit : ∃ openable, openableRemoteStreams (m.peer uni) = some openable ∧
    openable + (m.peer uni).openStreams.size ≤ m.initialStreamLimit uni
  creditReturned : ∀ id, m.IsPeerStream uni id → id ∈ m.streams →
    ∀ m' result, m.removeClosedStream id = some (m', result) →
      ∃ openable, openableRemoteStreams (m'.peer uni) = some openable ∧
        openable + (m'.peer uni).openStreams.size ≤ m'.initialStreamLimit uni ∧
        (result = .ok () ∧ m'.initialStreamLimit uni < openable + (m'.peer uni).openStreams.size +
            max 1 (m'.initialStreamLimit uni / m'.streamLimitWindowingFraction) ∨
          result = .error ⟨.transport .streamLimitError, "Attempt to set maxStreams beyond the max allowed."⟩ ∧
            kMaxMaxStreams < ((m'.peer uni).maxStreamId - (m'.peer uni).initialStreamId) / 4 +
              (m'.initialStreamLimit uni - (openable + (m'.peer uni).openStreams.size)))

theorem peerStreamLimits_of_reachable (uni : Bool) (m : QuicStreamManager)
    (reachable : TransitionSystem.Reachable Fresh (PeerStreamEvent.Admissible uni) peerStreamStep m) :
    PeerStreamLimits uni m := by
  have limits := PeerLimits.of_reachable reachable
  exact {
    limitError := fun id peerStream => limits.streamLimitError_iff peerStream
    nextWithinLimit := limits.consistent.nextLeMax
    openableWithinLimit := ⟨_, openableRemoteStreams_eq limits.consistent.nextLeMax, limits.credit⟩
    creditReturned := fun id peerStream member m' result removed =>
      limits.removeClosedStream_credit peerStream member removed }

/-- A server that allows four bidirectional streams, after the peer opens streams 0 and 4 and
stream 0 is closed. -/
theorem peerStreamLimits_after_close :
    ∃ m, TransitionSystem.run (PeerStreamEvent.Admissible false) peerStreamStep
        ((create .server 4 0).setStreamLimitWindowingFraction 2)
        [.getStream 0, .getStream 4, .removeClosedStream 0] = some m ∧
      TransitionSystem.Reachable Fresh (PeerStreamEvent.Admissible false) peerStreamStep m ∧
      PeerStreamLimits false m :=
  have ran : TransitionSystem.run (PeerStreamEvent.Admissible false) peerStreamStep
      ((create .server 4 0).setStreamLimitWindowingFraction 2)
      [.getStream 0, .getStream 4, .removeClosedStream 0] = some _ := rfl
  have reachable := TransitionSystem.reachable_of_run (.init ⟨.server, 4, 0, 2, rfl, rfl⟩) ran
  ⟨_, ran, reachable, peerStreamLimits_of_reachable false _ reachable⟩

/-- With the initial limit at `kMaxMaxStreams` and a window of zero streams, closing the first
stream computes a credit of one, the raised limit passes `kMaxMaxStreams`, the call fails, and the
peer is left a stream short of the initial limit. -/
theorem removeClosedStream_limit_not_restored :
    ∃ opened closed e,
      Fresh ((create .server (2 ^ 60) 0).setStreamLimitWindowingFraction (2 ^ 61)) ∧
      ((create .server (2 ^ 60) 0).setStreamLimitWindowingFraction (2 ^ 61)).IsPeerStream false 0 ∧
      ((create .server (2 ^ 60) 0).setStreamLimitWindowingFraction (2 ^ 61)).peerStreamStep (.getStream 0) =
        some opened ∧
      0 ∈ opened.streams ∧ opened.removeClosedStream 0 = some (closed, .error e) ∧
      ∃ openable, openableRemoteStreams (closed.peer false) = some openable ∧
        openable + (closed.peer false).openStreams.size +
          max 1 (closed.initialStreamLimit false / closed.streamLimitWindowingFraction) ≤
        closed.initialStreamLimit false :=
  ⟨_, _, _, ⟨.server, 2 ^ 60, 0, 2 ^ 61, rfl, rfl⟩, by decide, rfl, by decide, rfl, _, rfl, by decide⟩

end QuicStreamManager

end Mvfst
