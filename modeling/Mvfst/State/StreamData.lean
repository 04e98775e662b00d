import Mvfst.Common.IntervalSet

/-!
The stream records of `quic/state/StreamData.h`: a buffered range of received bytes, a buffer of
sent bytes, the state every stream-like object keeps (transport and crypto streams), and the
transport stream's flow-control windows and state machines. Offsets are `uint64_t` in the source;
QUIC bounds every stream offset by `2^62`, so they are natural numbers here.
-/

namespace Mvfst

/-- A range of received stream bytes starting at `offset`; `eof` marks the range that carried the
FIN. The source keeps `data` as a chain of buffers; only its bytes matter here. -/
structure StreamBuffer where
  data : List UInt8
  offset : Nat
  eof : Bool := false
  deriving DecidableEq, Repr

/-- `WriteStreamBuffer`: bytes sent, or to be sent again, starting at `offset`; `eof` marks the
buffer that carries the FIN. -/
structure WriteStreamBuffer where
  data : List UInt8
  offset : Nat
  eof : Bool := false
  deriving DecidableEq, Repr

/-- The send state machine of a stream (`Open` is `opened` here, as `open` is a Lean keyword). -/
inductive StreamSendState where
  | opened | resetSent | closed | invalid
  deriving DecidableEq, Repr

/-- The receive state machine of a stream. -/
inductive StreamRecvState where
  | opened | closed | invalid
  deriving DecidableEq, Repr

/-- `QuicStreamLike`, shared by transport and crypto streams. Left out: the copy of all written
data kept for peeking (`writeBuffer`), and counters only statistics read. The read side keeps the
received ranges not yet read, in offset order; the send side keeps the bytes not sent yet (from
`currentWriteOffset` on), the frames sent and not acknowledged, and the frames declared lost. The
reliable sizes are those of RESET_STREAM_AT frames, 0 for a RESET_STREAM. -/
structure QuicStreamLike where
  readBuffer : List StreamBuffer := []
  currentReadOffset : Nat := 0
  maxOffsetObserved : Nat := 0
  finalReadOffset : Option Nat := none
  reliableSizeFromPeer : Option Nat := none
  pendingWrites : List UInt8 := []
  -- an unordered map keyed by offset: a list with distinct keys
  retransmissionBuffer : List (Nat × WriteStreamBuffer) := []
  ackedIntervals : IntervalSet unitValue := {}
  lossBuffer : List WriteStreamBuffer := []
  -- one past the final size once the FIN was sent
  currentWriteOffset : Nat := 0
  reliableSizeToPeer : Option Nat := none
  -- the smallest reliable size among the resets the peer acknowledged
  minReliableSizeAcked : Option Nat := none
  appErrorCodeToPeer : Option Nat := none
  deriving DecidableEq, Repr

/-- The windows of one stream: the largest offset advertised to the peer, and the one the peer
advertised. -/
structure StreamFlowControlState where
  advertisedMaxOffset : Nat := 0
  peerAdvertisedMaxOffset : Nat := 0
  deriving DecidableEq, Repr

/-- A transport stream that carries its data itself: the buffer metadata of DSR streams
(`writeBufMeta` and its retransmission and loss lists) stays empty and is left out. -/
structure QuicStreamState extends QuicStreamLike where
  id : Nat
  flowControlState : StreamFlowControlState := {}
  recvState : StreamRecvState := .opened
  sendState : StreamSendState := .opened
  -- set once the application wrote the FIN
  finalWriteOffset : Option Nat := none
  deriving DecidableEq, Repr

namespace QuicStreamLike

variable (stream : QuicStreamLike)

/-- Records an acknowledged frame; with a FIN the byte one past the end counts as acknowledged.
`none` is the `LOG(FATAL)` on an acknowledged empty frame without FIN. -/
def updateAckedIntervals (offset len : Nat) (eof : Bool) :
    Option (Except IntervalSetError QuicStreamLike) :=
  let lenAdjustment := if eof then 0 else 1
  if lenAdjustment ≠ 0 ∧ len = 0 then none
  else some (match stream.ackedIntervals.tryInsert offset (offset + len - lenAdjustment) with
    | .error e => .error e
    | .ok ackedIntervals => .ok { stream with ackedIntervals })

/-- Every byte up to `offset` is acknowledged: the first acknowledged interval starts at 0 and
reaches `offset`. -/
def allBytesAckedTill (offset : Nat) : Bool :=
  match stream.ackedIntervals.front? with
  | none => false
  | some front => front.start == 0 && decide (front.end ≥ offset)

/-- Drops the retransmission buffers from `startingOffset` on, cutting the one that spans it. -/
def removeFromRetransmissionBufStartingAtOffset (startingOffset : Nat) : QuicStreamLike :=
  let kept := stream.retransmissionBuffer.filter fun entry => decide (entry.1 < startingOffset)
  let cut (entry : Nat × WriteStreamBuffer) : Nat × WriteStreamBuffer :=
    if entry.1 + entry.2.data.length ≥ startingOffset then
      (entry.1, { entry.2 with data := entry.2.data.take (startingOffset - entry.1) })
    else entry
  { stream with retransmissionBuffer := kept.map cut }

/-- Drops the unsent bytes from `startingOffset` on. -/
def removeFromPendingWritesStartingAtOffset (startingOffset : Nat) : QuicStreamLike :=
  if stream.pendingWrites = [] ∨
      stream.currentWriteOffset + stream.pendingWrites.length ≤ startingOffset then stream
  else if startingOffset > stream.currentWriteOffset then
    { stream with
      pendingWrites := stream.pendingWrites.take (startingOffset - stream.currentWriteOffset) }
  else { stream with pendingWrites := [] }

/-- Pops lost buffers from the back while they start at or after `startingOffset`, and cuts the
last one left if it reaches it. -/
def removeFromLossBufStartingAtOffsetLoop (startingOffset : Nat) :
    List WriteStreamBuffer → List WriteStreamBuffer
  | [] => []
  | lastElement :: earlier =>
    if lastElement.offset ≥ startingOffset then
      removeFromLossBufStartingAtOffsetLoop startingOffset earlier
    else if lastElement.offset + lastElement.data.length ≥ startingOffset then
      { lastElement with data := lastElement.data.take (startingOffset - lastElement.offset) } ::
        earlier
    else lastElement :: earlier

def removeFromLossBufStartingAtOffset (startingOffset : Nat) : QuicStreamLike :=
  let fromBack := removeFromLossBufStartingAtOffsetLoop startingOffset stream.lossBuffer.reverse
  { stream with lossBuffer := fromBack.reverse }

/-- Puts a lost buffer back in offset order, appending it to the buffer before it when the two
are contiguous. The position is `std::upper_bound`, the `lower_bound` loop with the comparison
`!(buf.offset < buffer.offset)`. -/
def insertIntoLossBuffer (buf : WriteStreamBuffer) : QuicStreamLike :=
  let lossItr := LowerBound.lowerBound (fun buffer => decide (buffer.offset ≤ buf.offset))
    stream.lossBuffer
  let emplaced := { stream with lossBuffer := stream.lossBuffer.insertIdx lossItr buf }
  match lossItr with
  | 0 => emplaced
  | previousItr + 1 =>
    match stream.lossBuffer[previousItr]? with
    | none => emplaced
    | some previous =>
      if previous.offset + previous.data.length = buf.offset then
        let merged := { previous with data := previous.data ++ buf.data, eof := buf.eof }
        { stream with lossBuffer := stream.lossBuffer.set previousItr merged }
      else emplaced

/-- The loop of `removeFromLossBuffer`: the index of the first buffer that holds the removed
range or that the range holds, unless a buffer starting past the range comes first. -/
def removeFromLossBufferFind (removedStartOffset removedEndOffset : Nat) :
    Nat → List WriteStreamBuffer → Option Nat
  | _, [] => none
  | lossItr, buffer :: rest =>
    let lossStartOffset := buffer.offset
    let lossEndOffset := buffer.offset + buffer.data.length
    if lossStartOffset > removedEndOffset then none
    else if (removedStartOffset ≥ lossStartOffset ∧ removedEndOffset ≤ lossEndOffset) ∨
        (lossStartOffset ≥ removedStartOffset ∧ lossEndOffset ≤ removedEndOffset) then some lossItr
    else removeFromLossBufferFind removedStartOffset removedEndOffset (lossItr + 1) rest

/-- Cuts `[offset, offset + len)` out of the buffer the loop found: the part before it is split
off and put back with `insertIntoLossBuffer`, the rest is trimmed, and the buffer goes when
nothing is left of it and its FIN flag is `eof`. -/
def removeFromLossBuffer (offset len : Nat) (eof : Bool) : QuicStreamLike :=
  if stream.lossBuffer = [] ∨ len = 0 then stream
  else
    match removeFromLossBufferFind offset (offset + len) 0 stream.lossBuffer with
    | none => stream
    | some lossItr =>
      match stream.lossBuffer[lossItr]? with
      | none => stream
      | some buffer =>
        let lossStartOffset := buffer.offset
        let amountToSplit := if offset > lossStartOffset then offset - lossStartOffset else 0
        -- `splitAtMost` and `trimStartAtMost` take at most what the buffer has
        let splitBuf := buffer.data.take amountToSplit
        let data := buffer.data.drop amountToSplit
        let buffer := { buffer with
          offset := buffer.offset + amountToSplit + min len data.length
          data := data.drop len }
        let lossBuffer := if buffer.data = [] ∧ buffer.eof = eof then
            stream.lossBuffer.eraseIdx lossItr
          else stream.lossBuffer.set lossItr buffer
        let stream := { stream with lossBuffer }
        if splitBuf ≠ [] then stream.insertIntoLossBuffer ⟨splitBuf, lossStartOffset, false⟩
        else stream

end QuicStreamLike

namespace QuicStreamState

variable (stream : QuicStreamState)

/-- The FIN went out: the write offset passed the final size. -/
def hasSentFIN : Bool :=
  match stream.finalWriteOffset with
  | none => false
  | some finalWriteOffset => decide (stream.currentWriteOffset > finalWriteOffset)

/-- The application may still write: the send side is open and no FIN was written. -/
def writable : Bool := stream.sendState == .opened && stream.finalWriteOffset.isNone

/-- The stream has new data the windows let it send, or a FIN still to send. -/
def hasWritableData (connFlowControlOpen : Bool := true) : Bool :=
  if stream.pendingWrites ≠ [] then
    connFlowControlOpen &&
      decide (stream.flowControlState.peerAdvertisedMaxOffset - stream.currentWriteOffset > 0)
  else match stream.finalWriteOffset with
    | some finalWriteOffset => decide (stream.currentWriteOffset ≤ finalWriteOffset)
    | none => false

end QuicStreamState

end Mvfst
