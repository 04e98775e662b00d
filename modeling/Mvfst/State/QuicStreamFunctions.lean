import Mvfst.Lib.LowerBound
import Mvfst.FlowControl.QuicFlowController

/-!
The receive path of `quic/state/QuicStreamFunctions.cpp`: `appendDataToReadBufferCommon` merges an
incoming range into the read buffer, `readDataInOrderFromReadBuffer` and `readDataFromQuicStream`
hand the contiguous prefix to the application.

The merge loop is kept as the source writes it: the read buffer is indexed, `it` walks it from the
`std::lower_bound` position, `current` is either the incoming buffer or the entry a right overlap
merged it into, and `startOverlap`/`endOverlap` are the indices of the range erased at the end.
The coalescing branch of the right overlap (`pushToTail`) copies the same bytes into the tail
buffer's free room, so both branches append the same bytes. A failed `CHECK` is `none`.
-/

namespace Mvfst

open FlowControl

/-- What `current` points at in the merge loop: the incoming buffer, or the read buffer entry at
`index` that a right overlap merged it into. -/
inductive CurrentBuffer where
  | incoming
  | entry (index : Nat)
  deriving DecidableEq, Repr

/-- The local variables of the merge loop of `appendDataToReadBufferCommon`. -/
structure MergeState where
  readBuffer : List StreamBuffer
  buffer : StreamBuffer
  current : CurrentBuffer
  currentAlreadyInserted : Bool
  done : Bool
  startOverlap : Option Nat
  endOverlap : Option Nat
  deriving DecidableEq, Repr

namespace MergeState

/-- `*current`. -/
def currentValue (s : MergeState) : StreamBuffer :=
  match s.current with
  | .incoming => s.buffer
  | .entry index => s.readBuffer.getD index s.buffer

/-- Writes through `current`. -/
def setCurrent (s : MergeState) (value : StreamBuffer) : MergeState :=
  match s.current with
  | .incoming => { s with buffer := value }
  | .entry index => { s with readBuffer := s.readBuffer.set index value }

/-- Writes `*it` for `it` at `index`. -/
def setEntry (s : MergeState) (index : Nat) (value : StreamBuffer) : MergeState :=
  { s with readBuffer := s.readBuffer.set index value }

variable (s : MergeState) (value : StreamBuffer)

@[simp] theorem setEntry_eq (index : Nat) :
    s.setEntry index value = { s with readBuffer := s.readBuffer.set index value } := rfl

theorem currentValue_incoming (incoming : s.current = .incoming) : s.currentValue = s.buffer := by
  simp only [currentValue, incoming]

theorem currentValue_entry {index : Nat} (points : s.current = .entry index) :
    s.currentValue = s.readBuffer.getD index s.buffer := by
  simp only [currentValue, points]

theorem setCurrent_incoming (incoming : s.current = .incoming) :
    s.setCurrent value = { s with buffer := value } := by
  simp only [setCurrent, incoming]

@[simp] theorem setCurrent_startOverlap : (s.setCurrent value).startOverlap = s.startOverlap := by
  unfold setCurrent; split <;> rfl

/-- Writing an entry other than `current`'s leaves `current` as it was. -/
theorem currentValue_setEntry {index : Nat} (other : s.current ≠ .entry index) :
    (s.setEntry index value).currentValue = s.currentValue := by
  cases points : s.current with
  | incoming => simp only [currentValue, setEntry_eq, points]
  | entry k =>
    have distinct : index ≠ k := fun same => other (by rw [points, same])
    simp only [currentValue, setEntry_eq, points, List.getD_eq_getElem?_getD,
      List.getElem?_set_ne distinct]

/-- Writing back `current`'s own value changes nothing. -/
theorem setCurrent_currentValue : s.setCurrent s.currentValue = s := by
  obtain ⟨readBuffer, buffer, current, inserted, done, startOverlap, endOverlap⟩ := s
  cases current with
  | incoming => rfl
  | entry k =>
    simp only [setCurrent, currentValue, List.getD_eq_getElem?_getD, MergeState.mk.injEq, and_true]
    by_cases inside : k < readBuffer.length
    · rw [List.getElem?_eq_getElem inside, Option.getD_some, List.set_getElem_self]
    · rw [List.set_eq_of_length_le (by omega)]

end MergeState

/-- One iteration of the merge loop at `it`, through its six overlap cases. -/
def mergeStep (s : MergeState) (it : Nat) : MergeState :=
  match s.readBuffer[it]? with
  | none => s
  | some entry =>
    let current := s.currentValue
    let currentEnd := current.offset + current.data.length
    let itEnd := entry.offset + entry.data.length
    if current.offset = entry.offset ∧ currentEnd = itEnd then
      -- exact overlap
      { s with done := true }
    else if entry.offset ≤ current.offset ∧ currentEnd ≤ itEnd then
      -- subset overlap
      { s with done := true }
    else if current.offset ≤ entry.offset ∧ entry.offset ≤ currentEnd ∧ currentEnd ≤ itEnd then
      -- left overlap: the entry's bytes past `currentEnd` move to `current`
      let trimmed := entry.data.drop (currentEnd - entry.offset)
      let s := s.setEntry it { entry with data := trimmed }
      let s :=
        if 0 < trimmed.length then
          let s := s.setEntry it { entry with data := [] }
          s.setCurrent { s.currentValue with data := s.currentValue.data ++ trimmed }
        else s
      { s with startOverlap := s.startOverlap.or (some it), endOverlap := some (it + 1),
               done := true }
    else if current.offset < entry.offset ∧ currentEnd < entry.offset then
      -- left, no overlap
      if s.startOverlap.isNone then
        { s with startOverlap := some it, endOverlap := some it, done := true }
      else { s with done := true }
    else if current.offset ≤ entry.offset ∧ entry.offset < currentEnd then
      -- complete overlap
      { s with startOverlap := s.startOverlap.or (some it), endOverlap := some (it + 1) }
    else if entry.offset ≤ current.offset ∧ current.offset ≤ itEnd ∧ itEnd < currentEnd then
      -- right overlap: `current`'s bytes past `itEnd` move to the entry, which becomes `current`
      let moved := current.data.drop (itEnd - current.offset)
      let s := s.setCurrent { current with data := [] }
      let s := s.setEntry it { entry with data := entry.data ++ moved }
      { s with current := .entry it, currentAlreadyInserted := true,
               startOverlap := some (it + 1), endOverlap := some (it + 1) }
    else s

/-- `for (; it != readBuffer.end() && !done; ++it)`; `fuel` is the number of entries left. -/
def mergeLoop : Nat → MergeState → Nat → MergeState
  | 0, s, _ => s
  | fuel + 1, s, it =>
    if it < s.readBuffer.length ∧ s.done = false then mergeLoop fuel (mergeStep s it) (it + 1)
    else s

/-- The code after the loop: replace the overlapped entries by `current`, drop those merged into
an inserted entry, or append `current` after the last entry. -/
def finishMerge (s : MergeState) : List StreamBuffer :=
  match s.startOverlap, s.currentAlreadyInserted with
  | some startOverlap, false =>
    s.readBuffer.take startOverlap ++
      s.currentValue :: s.readBuffer.drop (s.endOverlap.getD startOverlap)
  | some startOverlap, true =>
    s.readBuffer.take startOverlap ++ s.readBuffer.drop (s.endOverlap.getD startOverlap)
  | none, true => s.readBuffer
  | none, false =>
    match s.readBuffer.getLast? with
    | some last =>
      if last.offset + last.data.length < s.currentValue.offset then
        s.readBuffer ++ [s.currentValue]
      else s.readBuffer
    | none => s.readBuffer ++ [s.currentValue]

/-- The merge of a non-empty `buffer` into a non-empty read buffer: binary search for the first
entry that ends at or after the buffer's start, then the loop from there. -/
def mergeIntoReadBuffer (readBuffer : List StreamBuffer) (buffer : StreamBuffer) :
    List StreamBuffer :=
  let it := LowerBound.lowerBound
    (fun listValue => decide (listValue.offset + listValue.data.length < buffer.offset)) readBuffer
  finishMerge (mergeLoop (readBuffer.length - it)
    { readBuffer, buffer, current := .incoming, currentAlreadyInserted := false, done := false,
      startOverlap := none, endOverlap := none } it)

/-- The final-size checks of `appendDataToReadBufferCommon`: a FIN must agree with a known final
size and not cut off bytes already seen, and no data may pass a known final size. -/
def checkFinalReadOffset (stream : QuicStreamLike) (bufferEofOffset : Option Nat)
    (bufferEndOffset : Nat) : Except QuicError QuicStreamLike :=
  if stream.finalReadOffset.isSome ∧ bufferEofOffset.isSome ∧
      stream.finalReadOffset ≠ bufferEofOffset then
    .error ⟨.transport .finalSizeError, "Invalid EOF"⟩
  else
    match bufferEofOffset with
    | some eofOffset =>
      if stream.maxOffsetObserved > eofOffset then
        .error ⟨.transport .finalSizeError, "EOF in middle of stream"⟩
      else .ok { stream with finalReadOffset := some eofOffset }
    | none =>
      match stream.finalReadOffset with
      | some finalReadOffset =>
        if bufferEndOffset > finalReadOffset then
          .error ⟨.transport .finalSizeError, "Invalid data after EOF"⟩
        else .ok stream
      | none => .ok stream

/-- Stores a received range. The connection-level flow control is a visitor over some external
state `σ`; its signature returns nothing, so whatever it reports is lost. -/
def appendDataToReadBufferCommon {σ : Type} (stream : QuicStreamLike) (conn : σ)
    (buffer : StreamBuffer) (connFlowControlVisitor : Nat → Nat → σ → σ) :
    Except QuicError (QuicStreamLike × σ) :=
  let bufferEndOffset := buffer.offset + buffer.data.length
  let bufferEofOffset := if buffer.eof then some bufferEndOffset else none
  if buffer.eof = false ∧ buffer.data.length = 0 then .ok (stream, conn)
  else
    match checkFinalReadOffset stream bufferEofOffset bufferEndOffset with
    | .error e => .error e
    | .ok stream =>
      let conn := connFlowControlVisitor stream.maxOffsetObserved bufferEndOffset conn
      let stream := { stream with
        maxOffsetObserved := max stream.maxOffsetObserved bufferEndOffset }
      let store (buffer : StreamBuffer) : QuicStreamLike :=
        if stream.readBuffer = [] then { stream with readBuffer := [buffer] }
        else { stream with readBuffer := mergeIntoReadBuffer stream.readBuffer buffer }
      if buffer.data.length = 0 then .ok (stream, conn)
      else if buffer.offset < stream.currentReadOffset then
        -- trim the bytes the application has already read
        let buffer := { buffer with
          data := buffer.data.drop (stream.currentReadOffset - buffer.offset),
          offset := stream.currentReadOffset }
        if buffer.data.length = 0 then .ok (stream, conn) else .ok (store buffer, conn)
      else .ok (store buffer, conn)

/-- The visitor `appendDataToReadBuffer` passes for a transport stream: it runs the receive-window
check, and the error it returns is dropped by the visitor's `void` signature. -/
def streamDataVisitor (stream : QuicStreamState) (previousMaxOffsetObserved bufferEndOffset : Nat)
    (conn : ConnectionFlowControlState) : ConnectionFlowControlState :=
  match updateFlowControlOnStreamData stream conn previousMaxOffsetObserved bufferEndOffset with
  | .ok conn => conn
  | .error _ => conn

/-- `appendDataToReadBuffer` for a transport stream, with the connection's flow-control counters. -/
def appendDataToReadBuffer (stream : QuicStreamState) (conn : ConnectionFlowControlState)
    (buffer : StreamBuffer) : Except QuicError (QuicStreamState × ConnectionFlowControlState) :=
  match appendDataToReadBufferCommon stream.toQuicStreamLike conn buffer
      (streamDataVisitor stream) with
  | .error e => .error e
  | .ok (streamLike, conn) => .ok ({ stream with toQuicStreamLike := streamLike }, conn)

/-- The loop of `readDataInOrderFromReadBuffer`: `remaining` counts down from `amount` (0 reads
everything there is), `data` collects the bytes read, and `fuel` bounds the rounds (each round
either pops an entry or is the last). -/
def readInOrderLoop (amount : Nat) (sinkData : Bool) :
    Nat → Nat → List UInt8 → Bool → QuicStreamLike →
      Option ((List UInt8 × Bool) × QuicStreamLike)
  | 0, _, data, eof, stream => some ((data, eof), stream)
  | fuel + 1, remaining, data, eof, stream =>
    if amount = 0 ∨ remaining ≠ 0 then
      match stream.readBuffer with
      | [] => some ((data, eof), stream)
      | curr :: rest =>
        if curr.offset > stream.currentReadOffset then some ((data, eof), stream)
        else if curr.offset ≠ stream.currentReadOffset then none
        else
          let currSize := curr.data.length
          let toRead := min currSize (if amount = 0 then currSize else remaining)
          let splice := curr.data.take toRead
          let curr := { curr with data := curr.data.drop toRead, offset := curr.offset + toRead }
          let popped := curr.data.length = 0
          readInOrderLoop amount sinkData fuel
            (if amount ≠ 0 then remaining - toRead else remaining)
            (if sinkData then data else data ++ splice)
            (if popped then curr.eof else eof)
            { stream with
              readBuffer := if popped then rest else curr :: rest,
              currentReadOffset := stream.currentReadOffset + toRead }
    else some ((data, eof), stream)

/-- Reads up to `amount` contiguous bytes (all of them for 0) from the read offset on; with
`sinkData` they are dropped instead of returned. -/
def readDataInOrderFromReadBuffer (stream : QuicStreamLike) (amount : Nat)
    (sinkData : Bool := false) : Option ((List UInt8 × Bool) × QuicStreamLike) :=
  readInOrderLoop amount sinkData (stream.readBuffer.length + 1) amount [] false stream

/-- The application's read: the data and whether the stream has ended. Reaching the final size
moves the read offset one past it, so the end is reported again by every later read. -/
def readDataFromQuicStream (stream : QuicStreamState) (conn : ConnectionFlowControlState)
    (amount : Nat) :
    Option (Except QuicError ((List UInt8 × Bool) × QuicStreamState × ConnectionFlowControlState)) :=
  let eof := match stream.finalReadOffset with
    | some finalReadOffset => decide (finalReadOffset ≤ stream.currentReadOffset)
    | none => false
  if eof then
    let stream :=
      if stream.finalReadOffset = some stream.currentReadOffset then
        { stream with currentReadOffset := stream.currentReadOffset + 1 }
      else stream
    some (.ok (([], true), stream, conn))
  else
    let lastReadOffset := stream.currentReadOffset
    match readDataInOrderFromReadBuffer stream.toQuicStreamLike amount with
    | none => none
    | some ((data, _), streamLike) =>
      match updateFlowControlOnRead { stream with toQuicStreamLike := streamLike } conn
          lastReadOffset with
      | none => none
      | some (.error e) => some (.error e)
      | some (.ok (stream, conn)) =>
        let eof := decide (stream.finalReadOffset = some stream.currentReadOffset)
        let stream :=
          if eof then { stream with currentReadOffset := stream.currentReadOffset + 1 } else stream
        some (.ok ((data, eof), stream, conn))

/-- The application writes `data`, and the FIN with `eof`, to a stream without buffer metadata.
The blocked frame it may queue and the copy in `writeBuffer` are left out. -/
def writeDataToQuicStream (stream : QuicStreamState) (conn : ConnectionFlowControlState)
    (data : List UInt8) (eof : Bool) :
    Except QuicError (QuicStreamState × ConnectionFlowControlState) :=
  let stream := { stream with pendingWrites := stream.pendingWrites ++ data }
  let stream := if eof then
      { stream with finalWriteOffset := some (stream.currentWriteOffset + stream.pendingWrites.length) }
    else stream
  match updateFlowControlOnWriteToStream conn data.length with
  | .error e => .error e
  | .ok conn => .ok (stream, conn)

/-- The FIN was sent and nothing is left to send, to send again, or to be acknowledged. -/
def allBytesTillFinAcked (stream : QuicStreamState) : Bool :=
  stream.hasSentFIN && stream.retransmissionBuffer.isEmpty && stream.pendingWrites.isEmpty &&
    stream.lossBuffer.isEmpty

end Mvfst
