import Mvfst.Common.IntervalSet
import Mvfst.State.Stream.StreamReceiveHandlers

/-!
The peer streams of `quic/state/QuicStreamManager.cpp`: the `StreamIdSet` of open ids (an
`IntervalSet` over `(id - base) / 4`), `getOrCreatePeerStream`, which opens every id of a type up to
the one asked for, and `removeClosedStream`, which hands stream credit back to the peer once a
window of streams has closed. Each stream type keeps its own set, next acceptable id, limit and
pending limit update (`PeerStreams`); the manager picks one by `isUnidirectionalStream`.

The ids reaching a set are of its type, so `id - base` never wraps and is taken on `Nat`. The
manager's other bookkeeping (readable, writable, blocked sets, the new-stream notifications, stream
groups) lists streams for the application and is left out.
-/

namespace Mvfst

/-- `detail::kStreamIncrement`. -/
def kStreamIncrement : Nat := 4

def isRemoteStream (nodeType : QuicNodeType) (stream : Nat) : Bool :=
  (nodeType == .client && isServerStream stream) || (nodeType == .server && isClientStream stream)

structure StreamIdSet where
  streams : IntervalSet 1 := {}
  base : Nat := 0
  deriving DecidableEq, Repr

namespace StreamIdSet

/-- `add(first, last)`; `none` is a failed `CHECK`. -/
def add (s : StreamIdSet) (first last : Nat) : Option StreamIdSet :=
  let first := first - s.base
  let last := last - s.base
  if first % kStreamIncrement = 0 ∧ last % kStreamIncrement = 0 ∧
      first / kStreamIncrement ≤ last / kStreamIncrement then
    some { s with streams := s.streams.insert ⟨first / kStreamIncrement, last / kStreamIncrement⟩ }
  else none

def remove (s : StreamIdSet) (id : Nat) : Option StreamIdSet :=
  let id := id - s.base
  if id % kStreamIncrement = 0 then
    some { s with streams := s.streams.withdraw ⟨id / kStreamIncrement, id / kStreamIncrement⟩ }
  else none

def contains (s : StreamIdSet) (id : Nat) : Bool :=
  let id := (id - s.base) / kStreamIncrement
  s.streams.contains id id

def size (s : StreamIdSet) : Nat :=
  (s.streams.intervals.map fun interval => interval.end - interval.start + 1).sum

end StreamIdSet

/-- The manager's fields for the peer's streams of one type. -/
structure PeerStreams where
  openStreams : StreamIdSet
  nextAcceptableStreamId : Nat
  maxStreamId : Nat := 0
  initialStreamId : Nat
  streamLimitUpdate : Option Nat := none
  deriving DecidableEq, Repr

structure QuicStreamManager where
  nodeType : QuicNodeType
  /-- The ids of the streams that have state (`streams_`). -/
  streams : List Nat := []
  bidirectionalPeer : PeerStreams
  unidirectionalPeer : PeerStreams
  openBidirectionalLocalStreams : StreamIdSet
  openUnidirectionalLocalStreams : StreamIdSet
  advertisedInitialMaxStreamsBidi : Nat
  advertisedInitialMaxStreamsUni : Nat
  streamLimitWindowingFraction : Nat := 2
  deriving DecidableEq, Repr

/-- The fields of one type before any limit is set: nothing open, `initialStreamId` next. -/
def PeerStreams.init (initialStreamId : Nat) : PeerStreams :=
  { openStreams := { base := initialStreamId }, nextAcceptableStreamId := initialStreamId,
    initialStreamId }

namespace QuicStreamManager

variable (m : QuicStreamManager)

/-- The fields of the peer's unidirectional (`true`) or bidirectional streams. -/
def peer (uni : Bool) : PeerStreams := if uni then m.unidirectionalPeer else m.bidirectionalPeer

def setPeer (uni : Bool) (peer : PeerStreams) : QuicStreamManager :=
  if uni then { m with unidirectionalPeer := peer } else { m with bidirectionalPeer := peer }

def initialStreamLimit (uni : Bool) : Nat :=
  if uni then m.advertisedInitialMaxStreamsUni else m.advertisedInitialMaxStreamsBidi

section SetPeer

variable (uni : Bool) (peer : PeerStreams)

@[simp] theorem peer_setPeer : (m.setPeer uni peer).peer uni = peer := by
  cases uni <;> rfl

@[simp] theorem streams_setPeer : (m.setPeer uni peer).streams = m.streams := by
  cases uni <;> rfl

@[simp] theorem nodeType_setPeer : (m.setPeer uni peer).nodeType = m.nodeType := by
  cases uni <;> rfl

@[simp] theorem initialStreamLimit_setPeer :
    (m.setPeer uni peer).initialStreamLimit uni = m.initialStreamLimit uni := by
  cases uni <;> rfl

@[simp] theorem streamLimitWindowingFraction_setPeer :
    (m.setPeer uni peer).streamLimitWindowingFraction = m.streamLimitWindowingFraction := by
  cases uni <;> rfl

end SetPeer

/-- The constructor's ids for each side; the limits are set by `refreshTransportSettings`. -/
def init (nodeType : QuicNodeType) (advertisedInitialMaxStreamsBidi advertisedInitialMaxStreamsUni : Nat) :
    QuicStreamManager :=
  let (peerBidi, peerUni, localBidi, localUni) : Nat × Nat × Nat × Nat :=
    match nodeType with
    | .server => (0x00, 0x02, 0x01, 0x03)
    | .client => (0x01, 0x03, 0x00, 0x02)
  { nodeType,
    bidirectionalPeer := PeerStreams.init peerBidi,
    unidirectionalPeer := PeerStreams.init peerUni,
    openBidirectionalLocalStreams := { base := localBidi },
    openUnidirectionalLocalStreams := { base := localUni },
    advertisedInitialMaxStreamsBidi, advertisedInitialMaxStreamsUni }

end QuicStreamManager

/-- `setMaxRemote{Bidirectional,Unidirectional}StreamsInternal` on the fields of one type. -/
def setMaxRemoteStreamsInternal (peer : PeerStreams) (maxStreams : Nat) (force : Bool) :
    Except QuicError PeerStreams :=
  if maxStreams > kMaxMaxStreams then
    .error ⟨.transport .streamLimitError, "Attempt to set maxStreams beyond the max allowed."⟩
  else
    let maxStreamId := maxStreams * kStreamIncrement + peer.initialStreamId
    if force ∨ maxStreamId > peer.maxStreamId then .ok { peer with maxStreamId } else .ok peer

/-- `openableRemote{Bidirectional,Unidirectional}Streams` on the fields of one type; `none` is the
failed `CHECK_GE`. -/
def openableRemoteStreams (peer : PeerStreams) : Option Nat :=
  if peer.maxStreamId ≥ peer.nextAcceptableStreamId then
    some ((peer.maxStreamId - peer.nextAcceptableStreamId) / kStreamIncrement)
  else none

namespace QuicStreamManager

variable (m : QuicStreamManager)

def setMaxRemoteBidirectionalStreamsInternal (maxStreams : Nat) (force : Bool) :
    Except QuicError QuicStreamManager :=
  (setMaxRemoteStreamsInternal m.bidirectionalPeer maxStreams force).map
    fun peer => { m with bidirectionalPeer := peer }

def setMaxRemoteUnidirectionalStreamsInternal (maxStreams : Nat) (force : Bool) :
    Except QuicError QuicStreamManager :=
  (setMaxRemoteStreamsInternal m.unidirectionalPeer maxStreams force).map
    fun peer => { m with unidirectionalPeer := peer }

def setMaxRemoteBidirectionalStreams (maxStreams : Nat) : Except QuicError QuicStreamManager :=
  m.setMaxRemoteBidirectionalStreamsInternal maxStreams false

def setMaxRemoteUnidirectionalStreams (maxStreams : Nat) : Except QuicError QuicStreamManager :=
  m.setMaxRemoteUnidirectionalStreamsInternal maxStreams false

def openableRemoteBidirectionalStreams : Option Nat := openableRemoteStreams m.bidirectionalPeer

def openableRemoteUnidirectionalStreams : Option Nat := openableRemoteStreams m.unidirectionalPeer

section Selected

variable (uni : Bool)

theorem openableRemote_selected :
    (if uni then m.openableRemoteUnidirectionalStreams else m.openableRemoteBidirectionalStreams) =
      openableRemoteStreams (m.peer uni) := by
  cases uni <;> rfl

theorem setMaxRemote_selected (maxStreams : Nat) :
    (if uni then m.setMaxRemoteUnidirectionalStreams maxStreams
      else m.setMaxRemoteBidirectionalStreams maxStreams) =
      (setMaxRemoteStreamsInternal (m.peer uni) maxStreams false).map (m.setPeer uni) := by
  cases uni <;> rfl

@[simp] theorem peer_withStreams (streams : List Nat) : { m with streams }.peer uni = m.peer uni := by
  cases uni <;> rfl

@[simp] theorem initialStreamLimit_withStreams (streams : List Nat) :
    { m with streams }.initialStreamLimit uni = m.initialStreamLimit uni := by
  cases uni <;> rfl

@[simp] theorem setPeer_setPeer (peer peer' : PeerStreams) :
    (m.setPeer uni peer).setPeer uni peer' = m.setPeer uni peer' := by
  cases uni <;> rfl

end Selected

/-- The remote-limit part of `refreshTransportSettings`: both limits forced to the advertised
initial ones; a failure leaves what was set before it. -/
def refreshTransportSettings : QuicStreamManager × Except QuicError Unit :=
  match m.setMaxRemoteBidirectionalStreamsInternal m.advertisedInitialMaxStreamsBidi true with
  | .error e => (m, .error e)
  | .ok m =>
    match m.setMaxRemoteUnidirectionalStreamsInternal m.advertisedInitialMaxStreamsUni true with
    | .error e => (m, .error e)
    | .ok m => (m, .ok ())

/-- The manager as its constructor leaves it, the initial refresh included. -/
def create (nodeType : QuicNodeType) (advertisedInitialMaxStreamsBidi advertisedInitialMaxStreamsUni : Nat) :
    QuicStreamManager :=
  (init nodeType advertisedInitialMaxStreamsBidi advertisedInitialMaxStreamsUni).refreshTransportSettings.1

def setStreamLimitWindowingFraction (fraction : Nat) : QuicStreamManager :=
  if fraction > 0 then { m with streamLimitWindowingFraction := fraction } else m

section WindowingFraction

variable (fraction : Nat) (uni : Bool)

@[simp] theorem peer_setStreamLimitWindowingFraction :
    (m.setStreamLimitWindowingFraction fraction).peer uni = m.peer uni := by
  unfold setStreamLimitWindowingFraction
  split_ifs <;> rfl

@[simp] theorem nodeType_setStreamLimitWindowingFraction :
    (m.setStreamLimitWindowingFraction fraction).nodeType = m.nodeType := by
  unfold setStreamLimitWindowingFraction
  split_ifs <;> rfl

@[simp] theorem streams_setStreamLimitWindowingFraction :
    (m.setStreamLimitWindowingFraction fraction).streams = m.streams := by
  unfold setStreamLimitWindowingFraction
  split_ifs <;> rfl

@[simp] theorem initialStreamLimit_setStreamLimitWindowingFraction :
    (m.setStreamLimitWindowingFraction fraction).initialStreamLimit uni = m.initialStreamLimit uni := by
  unfold setStreamLimitWindowingFraction
  split_ifs <;> rfl

/-- A zero fraction is refused, so the fraction stays positive. -/
theorem streamLimitWindowingFraction_pos (positive : 0 < m.streamLimitWindowingFraction) :
    0 < (m.setStreamLimitWindowingFraction fraction).streamLimitWindowingFraction := by
  unfold setStreamLimitWindowingFraction
  split_ifs with given
  · exact given
  · exact positive

end WindowingFraction

/-- `try_emplace` of the stream's state. -/
def instantiatePeerStream (streamId : Nat) : QuicStreamManager :=
  if streamId ∈ m.streams then m else { m with streams := m.streams ++ [streamId] }

end QuicStreamManager

/-- Opens `streamId` and every id of its type below it that is not open yet; `none` is a failed
`CHECK` of the set. -/
def openPeerStreamIfNotClosed (streamId : Nat) (openStreams : StreamIdSet)
    (nextAcceptableStreamId maxStreamId : Nat) : Option (LocalErrorCode × StreamIdSet × Nat) :=
  if streamId < nextAcceptableStreamId then
    some (.creatingExistingStream, openStreams, nextAcceptableStreamId)
  else if streamId ≥ maxStreamId then
    some (.streamLimitExceeded, openStreams, nextAcceptableStreamId)
  else
    match openStreams.add nextAcceptableStreamId streamId with
    | none => none
    | some openStreams =>
      some (.noError, openStreams,
        if streamId ≥ nextAcceptableStreamId then streamId + kStreamIncrement
        else nextAcceptableStreamId)

namespace QuicStreamManager

variable (m : QuicStreamManager)

/-- `getOrCreatePeerStream` without a stream group: `true` with the stream's state, `false` for
the null pointer of a closed stream; `none` is a failed `CHECK`. -/
def getOrCreatePeerStream (streamId : Nat) : Option (Except QuicError (Bool × QuicStreamManager)) :=
  if m.nodeType = .client ∧ isClientStream streamId then
    some (.error ⟨.transport .streamStateError, "Attempted getting client peer stream on client"⟩)
  else if m.nodeType = .server ∧ isServerStream streamId then
    some (.error ⟨.transport .streamStateError, "Attempted getting server peer stream on server"⟩)
  else if !isClientStream streamId ∧ !isServerStream streamId then
    some (.error ⟨.transport .streamStateError, "Invalid stream ID format"⟩)
  else if streamId ∈ m.streams then some (.ok (true, m))
  else
    let uni := isUnidirectionalStream streamId
    let peer := m.peer uni
    if peer.openStreams.contains streamId then some (.ok (true, m.instantiatePeerStream streamId))
    else
      match openPeerStreamIfNotClosed streamId peer.openStreams peer.nextAcceptableStreamId
          peer.maxStreamId with
      | none => none
      | some (.streamLimitExceeded, _, _) =>
        some (.error ⟨.transport .streamLimitError, "Peer exceeded stream limit."⟩)
      | some (.creatingExistingStream, _, _) => some (.ok (false, m))
      | some (_, openStreams, nextAcceptableStreamId) =>
        some (.ok (true, (m.setPeer uni { peer with openStreams, nextAcceptableStreamId }).instantiatePeerStream
          streamId))

/-- `removeClosedStream`: the state after the call with its result, since the stream is already
gone when raising the peer's limit fails; `none` is a failed `CHECK`. -/
def removeClosedStream (streamId : Nat) : Option (QuicStreamManager × Except QuicError Unit) :=
  if streamId ∉ m.streams then some (m, .ok ())
  else
    let m := { m with streams := m.streams.erase streamId }
    let uni := isUnidirectionalStream streamId
    if isRemoteStream m.nodeType streamId then
      match (m.peer uni).openStreams.remove streamId with
      | none => none
      | some openStreams =>
        let m := m.setPeer uni { m.peer uni with openStreams }
        let initialStreamLimit := m.initialStreamLimit uni
        let streamWindow := initialStreamLimit / m.streamLimitWindowingFraction
        match (if uni then m.openableRemoteUnidirectionalStreams
            else m.openableRemoteBidirectionalStreams) with
        | none => none
        | some openableRemoteStreams =>
          -- `uint64_t` arithmetic
          let streamCredit := FlowControl.wrappingSub
            (FlowControl.wrappingSub initialStreamLimit openableRemoteStreams) openStreams.size
          if streamCredit ≥ streamWindow then
            let maxStreams :=
              ((m.peer uni).maxStreamId - (m.peer uni).initialStreamId) / kStreamIncrement
            let raised := (maxStreams + streamCredit) % 2 ^ 64
            match (if uni then m.setMaxRemoteUnidirectionalStreams raised
                else m.setMaxRemoteBidirectionalStreams raised) with
            | .error e => some (m, .error e)
            | .ok m =>
              some (m.setPeer uni { m.peer uni with streamLimitUpdate := some raised }, .ok ())
          else some (m, .ok ())
    else
      let openLocalStreams :=
        if uni then m.openUnidirectionalLocalStreams else m.openBidirectionalLocalStreams
      match openLocalStreams.remove streamId with
      | none => none
      | some openLocalStreams =>
        some (if uni then { m with openUnidirectionalLocalStreams := openLocalStreams }
          else { m with openBidirectionalLocalStreams := openLocalStreams }, .ok ())

end QuicStreamManager

end Mvfst
