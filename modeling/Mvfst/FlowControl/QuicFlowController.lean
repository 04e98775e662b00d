import Mvfst.Exception
import Mvfst.State.StreamData
import Mvfst.State.StateData

/-!
The updates of `quic/flowcontrol/QuicFlowController.cpp`: the check a STREAM frame must pass
against the stream and connection windows, the accounting of bytes the application has read, and
on the send side the counts of bytes buffered and written and the windows the peer grants. The
counters are `uint64_t`; their width shows where the source checks for overflow
(`incrementWithOverFlowCheck`) and where it subtracts without a check (`wrappingSub`).
-/

namespace Mvfst.FlowControl

/-- `std::numeric_limits<uint64_t>::max()`. -/
def uint64Max : Nat := 2 ^ 64 - 1

/-- Adds `diff` to the counter `num`, failing instead of wrapping around. -/
def incrementWithOverFlowCheck (num diff : Nat) : Except QuicError Nat :=
  if num > uint64Max - diff then
    .error ⟨.local .internalError, "flow control state overflow"⟩
  else .ok (num + diff)

/-- Checks a frame ending at `bufferEndOffset` against the stream's and the connection's receive
windows and, if it fits, adds the growth of the stream's largest offset to the connection's sum. -/
def updateFlowControlOnStreamData (stream : QuicStreamState) (conn : ConnectionFlowControlState)
    (previousMaxOffsetObserved bufferEndOffset : Nat) :
    Except QuicError ConnectionFlowControlState :=
  if stream.flowControlState.advertisedMaxOffset < bufferEndOffset then
    .error ⟨.transport .flowControlError,
      "Stream flow control violation on stream " ++ toString stream.id⟩
  else
    let curMaxOffsetObserved := max previousMaxOffsetObserved bufferEndOffset
    -- first on a copy of the sum, to compare it with the connection window
    match incrementWithOverFlowCheck conn.sumMaxObservedOffset
        (curMaxOffsetObserved - previousMaxOffsetObserved) with
    | .error e => .error e
    | .ok connMaxObservedOffset =>
      if connMaxObservedOffset > conn.advertisedMaxOffset then
        .error ⟨.transport .flowControlError, "Connection flow control violation"⟩
      else
        match incrementWithOverFlowCheck conn.sumMaxObservedOffset
            (curMaxOffsetObserved - previousMaxOffsetObserved) with
        | .error e => .error e
        | .ok sumMaxObservedOffset => .ok { conn with sumMaxObservedOffset }

/-- Accounts the bytes read since `lastReadOffset` in the connection's read sum. After a reliable
reset whose reliable bytes are all read, the read offset jumps to the final size. `none` is the
failed `CHECK` that such a reset announced a final size. The window updates this triggers
(`maybeSendConnWindowUpdate`, `maybeSendStreamWindowUpdate`) only queue frames and are not
modelled. -/
def updateFlowControlOnRead (stream : QuicStreamState) (conn : ConnectionFlowControlState)
    (lastReadOffset : Nat) :
    Option (Except QuicError (QuicStreamState × ConnectionFlowControlState)) :=
  let reliableReached := match stream.reliableSizeFromPeer with
    | some reliableSize => decide (reliableSize ≤ stream.currentReadOffset)
    | none => false
  if reliableReached then
    match stream.finalReadOffset with
    | none => none
    | some finalReadOffset =>
      let stream := { stream with currentReadOffset := finalReadOffset }
      some (match incrementWithOverFlowCheck conn.sumCurReadOffset
          (finalReadOffset - lastReadOffset) with
        | .error e => .error e
        | .ok sumCurReadOffset => .ok (stream, { conn with sumCurReadOffset }))
  else
    some (match incrementWithOverFlowCheck conn.sumCurReadOffset
        (stream.currentReadOffset - lastReadOffset) with
      | .error e => .error e
      | .ok sumCurReadOffset => .ok (stream, { conn with sumCurReadOffset }))

/-- Subtracts `diff` from the counter `num`, failing instead of wrapping around. -/
def decrementWithOverFlowCheck (num diff : Nat) : Except QuicError Nat :=
  if num < diff then
    .error ⟨.local .internalError, "flow control state overflow"⟩
  else .ok (num - diff)

/-- `num - diff` on `uint64_t` where the source only has a `DCHECK` that `diff ≤ num`: in a
release build it wraps around. -/
def wrappingSub (num diff : Nat) : Nat := (num + (2 ^ 64 - diff % 2 ^ 64)) % 2 ^ 64

/-- Accounts `length` new bytes written to the wire: they leave the buffered sum and join the
written sum. -/
def updateFlowControlOnWriteToSocket (conn : ConnectionFlowControlState) (length : Nat) :
    Except QuicError ConnectionFlowControlState :=
  match incrementWithOverFlowCheck conn.sumCurWriteOffset length with
  | .error e => .error e
  | .ok sumCurWriteOffset =>
    .ok { conn with
      sumCurWriteOffset,
      sumCurStreamBufferLen := wrappingSub conn.sumCurStreamBufferLen length }

/-- Accounts `length` bytes the application wrote to a stream. -/
def updateFlowControlOnWriteToStream (conn : ConnectionFlowControlState) (length : Nat) :
    Except QuicError ConnectionFlowControlState :=
  match incrementWithOverFlowCheck conn.sumCurStreamBufferLen length with
  | .error e => .error e
  | .ok sumCurStreamBufferLen => .ok { conn with sumCurStreamBufferLen }

/-- Removes from the buffered sum the bytes a reset throws away: all unsent bytes, or those past
a reliable size. The DSR terms of the source are 0 for a stream without buffer metadata. -/
def updateFlowControlOnResetStream (stream : QuicStreamState) (conn : ConnectionFlowControlState)
    (reliableSize : Option Nat) : Except QuicError ConnectionFlowControlState :=
  let decrementAmount := match reliableSize with
    | some reliableSize =>
      if reliableSize > 0 then
        if stream.pendingWrites.length + stream.currentWriteOffset > reliableSize then
          stream.pendingWrites.length + stream.currentWriteOffset -
            max reliableSize stream.currentWriteOffset
        else 0
      else stream.pendingWrites.length
    | none => stream.pendingWrites.length
  match decrementWithOverFlowCheck conn.sumCurStreamBufferLen decrementAmount with
  | .error e => .error e
  | .ok sumCurStreamBufferLen => .ok { conn with sumCurStreamBufferLen }

/-- A MAX_STREAM_DATA frame: the peer's stream window only grows, and not after a reset or once
the send side is closed. The scheduling lists it updates are left out. -/
def handleStreamWindowUpdate (stream : QuicStreamState) (maximumData : Nat) : QuicStreamState :=
  if stream.sendState = .closed ∨ stream.sendState = .resetSent then stream
  else if stream.flowControlState.peerAdvertisedMaxOffset ≤ maximumData then
    { stream with flowControlState :=
      { stream.flowControlState with peerAdvertisedMaxOffset := maximumData } }
  else stream

/-- A MAX_DATA frame: the peer's connection window only grows. -/
def handleConnWindowUpdate (conn : ConnectionFlowControlState) (maximumData : Nat) :
    ConnectionFlowControlState :=
  if conn.peerAdvertisedMaxOffset ≤ maximumData then
    { conn with peerAdvertisedMaxOffset := maximumData }
  else conn

/-- `QuicStreamState::nextOffsetToWrite()` for a stream without buffer metadata. -/
def nextOffsetToWrite (stream : QuicStreamState) : Nat := stream.currentWriteOffset

/-- The bytes the peer's stream window still allows; the subtraction only has a `DCHECK`. -/
def getSendStreamFlowControlBytesWire (stream : QuicStreamState) : Nat :=
  wrappingSub stream.flowControlState.peerAdvertisedMaxOffset (nextOffsetToWrite stream)

/-- The bytes the peer's connection window still allows; the subtraction only has a `DCHECK`. -/
def getSendConnFlowControlBytesWire (conn : ConnectionFlowControlState) : Nat :=
  wrappingSub conn.peerAdvertisedMaxOffset conn.sumCurWriteOffset

section Specs

variable (stream : QuicStreamState) (conn : ConnectionFlowControlState)

@[simp] theorem incrementWithOverFlowCheck_ok {num diff : Nat} (fits : num + diff ≤ uint64Max) :
    incrementWithOverFlowCheck num diff = .ok (num + diff) := by
  unfold incrementWithOverFlowCheck
  rw [if_neg (by omega)]

theorem incrementWithOverFlowCheck_error {num diff : Nat} (exceeds : uint64Max < num + diff)
    (small : diff ≤ uint64Max) :
    incrementWithOverFlowCheck num diff = .error ⟨.local .internalError, "flow control state overflow"⟩ := by
  unfold incrementWithOverFlowCheck
  rw [if_pos (by omega)]

/-- A frame inside both receive windows is accepted, and the connection's sum grows by exactly the
growth of the stream's largest observed offset. -/
theorem updateFlowControlOnStreamData_ok {previous bufferEnd : Nat}
    (streamWindow : bufferEnd ≤ stream.flowControlState.advertisedMaxOffset)
    (connWindow : conn.sumMaxObservedOffset + (max previous bufferEnd - previous) ≤ conn.advertisedMaxOffset)
    (width : conn.advertisedMaxOffset ≤ uint64Max) :
    updateFlowControlOnStreamData stream conn previous bufferEnd =
      .ok { conn with sumMaxObservedOffset := conn.sumMaxObservedOffset + (max previous bufferEnd - previous) } := by
  unfold updateFlowControlOnStreamData
  have fits : conn.sumMaxObservedOffset + (max previous bufferEnd - previous) ≤ uint64Max := by omega
  have within : ¬conn.sumMaxObservedOffset + (max previous bufferEnd - previous) > conn.advertisedMaxOffset := by
    omega
  simp only [Nat.not_lt.mpr streamWindow, if_false, incrementWithOverFlowCheck_ok fits, within]

/-- A frame that ends beyond the stream's receive window is refused with FLOW_CONTROL_ERROR. -/
theorem updateFlowControlOnStreamData_stream_violation {previous bufferEnd : Nat}
    (beyond : stream.flowControlState.advertisedMaxOffset < bufferEnd) :
    updateFlowControlOnStreamData stream conn previous bufferEnd =
      .error ⟨.transport .flowControlError,
        "Stream flow control violation on stream " ++ toString stream.id⟩ := by
  unfold updateFlowControlOnStreamData
  rw [if_pos beyond]

/-- A frame that would raise the connection's sum above its window is refused with
FLOW_CONTROL_ERROR. -/
theorem updateFlowControlOnStreamData_conn_violation {previous bufferEnd : Nat}
    (streamWindow : bufferEnd ≤ stream.flowControlState.advertisedMaxOffset)
    (beyond : conn.advertisedMaxOffset < conn.sumMaxObservedOffset + (max previous bufferEnd - previous))
    (fits : conn.sumMaxObservedOffset + (max previous bufferEnd - previous) ≤ uint64Max) :
    updateFlowControlOnStreamData stream conn previous bufferEnd =
      .error ⟨.transport .flowControlError, "Connection flow control violation"⟩ := by
  unfold updateFlowControlOnStreamData
  simp only [Nat.not_lt.mpr streamWindow, if_false, incrementWithOverFlowCheck_ok fits, gt_iff_lt,
    beyond, if_true]

/-- A frame beyond either window is refused: with FLOW_CONTROL_ERROR, or with the overflow of the
connection's sum when the raised sum does not fit its width. -/
theorem updateFlowControlOnStreamData_refused {previous bufferEnd : Nat} (width : bufferEnd ≤ uint64Max)
    (exceeds : stream.flowControlState.advertisedMaxOffset < bufferEnd ∨
      conn.advertisedMaxOffset < conn.sumMaxObservedOffset + (max previous bufferEnd - previous)) :
    ∃ e, updateFlowControlOnStreamData stream conn previous bufferEnd = .error e := by
  by_cases streamWindow : stream.flowControlState.advertisedMaxOffset < bufferEnd
  · exact ⟨_, updateFlowControlOnStreamData_stream_violation stream conn streamWindow⟩
  have beyond := exceeds.resolve_left streamWindow
  by_cases fits : conn.sumMaxObservedOffset + (max previous bufferEnd - previous) ≤ uint64Max
  · exact ⟨_, updateFlowControlOnStreamData_conn_violation stream conn (Nat.le_of_not_lt streamWindow) beyond fits⟩
  · -- the raised sum overflows before the comparison with the window
    refine ⟨⟨.local .internalError, "flow control state overflow"⟩, ?_⟩
    unfold updateFlowControlOnStreamData
    rw [if_neg streamWindow]
    dsimp only
    rw [incrementWithOverFlowCheck_error (by omega) (by omega)]

/-- Without a reset from the peer, a read adds the bytes read to the connection's read sum. -/
theorem updateFlowControlOnRead_ok {lastReadOffset : Nat}
    (noReset : stream.reliableSizeFromPeer = none)
    (fits : conn.sumCurReadOffset + (stream.currentReadOffset - lastReadOffset) ≤ uint64Max) :
    updateFlowControlOnRead stream conn lastReadOffset =
      some (.ok (stream, { conn with
        sumCurReadOffset := conn.sumCurReadOffset + (stream.currentReadOffset - lastReadOffset) })) := by
  unfold updateFlowControlOnRead
  simp only [noReset, Bool.false_eq_true, if_false, incrementWithOverFlowCheck_ok fits]

/-- Without wrap-around the subtraction is the plain one. -/
theorem wrappingSub_of_le {num diff : Nat} (le : diff ≤ num) (width : num < 2 ^ 64) :
    wrappingSub num diff = num - diff := by
  unfold wrappingSub
  rw [Nat.mod_eq_of_lt (by omega : diff < 2 ^ 64)]
  rw [show num + (2 ^ 64 - diff) = (num - diff) + 2 ^ 64 by omega, Nat.add_mod_right,
    Nat.mod_eq_of_lt (by omega)]

end Specs

end Mvfst.FlowControl
