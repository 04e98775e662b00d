import Mvfst.State.Sender
import Mvfst.Lib.ListSearch

/-!
Reliable resets (RESET_STREAM_AT) from the transport API down: the checkpoint
`updateReliableDeliveryCheckpoint` records, the checks `resetStreamInternal` makes before it runs
the send state machine, the frame `appendPendingStreamReset` queues, and what `resetQuicStream`
leaves of the send buffers. The checkpoint counts bytes the application has written, not bytes
sent, so the reliable size can fall inside a STREAM frame already in flight.
-/

namespace Mvfst

open QuicStreamLike FlowControl

/-- What `updateReliableDeliveryCheckpoint` stores in the stream's `reliableResetCheckpoint`. -/
def updateReliableDeliveryCheckpoint (stream : QuicStreamState) : Except LocalErrorCode Nat :=
  if stream.sendState = .resetSent then .error .invalidOperation
  else .ok (stream.currentWriteOffset + stream.pendingWrites.length)

/-- `resetStreamInternal` on an existing stream the connection sends on, while the connection is
open; a reliable reset passes the stream's `reliableResetCheckpoint`. When the state machine
fails the source also closes the connection. `none` is a failed `CHECK`. -/
def resetStreamInternal (stream : QuicStreamState) (conn : ConnectionFlowControlState)
    (errorCode reliableResetCheckpoint : Nat) (reliable : Bool) :
    Option (Except LocalErrorCode (QuicStreamState × ConnectionFlowControlState)) :=
  let errorCodeChanges := match stream.appErrorCodeToPeer with
    | some appErrorCodeToPeer => appErrorCodeToPeer != errorCode
    | none => false
  let maybeReliableSize := if reliable then some reliableResetCheckpoint else none
  let reliableSizeGrows := match stream.reliableSizeToPeer, maybeReliableSize with
    | some reliableSizeToPeer, some reliableSize => decide (reliableSize > reliableSizeToPeer)
    | _, _ => false
  let reliableAfterReset := match maybeReliableSize with
    | some reliableSize => decide (reliableSize > 0) && stream.sendState == .resetSent
    | none => false
  if errorCodeChanges || reliableSizeGrows || reliableAfterReset then some (.error .invalidOperation)
  else (sendRstSMHandler stream conn errorCode maybeReliableSize).map fun
    | .error _ => .error .transportError
    | .ok reset => .ok reset

/-- The frame `appendPendingStreamReset` queues for a stream without buffer metadata: the final
size is the write offset, raised to the reliable size, capped by the final size the application
wrote. -/
def appendPendingStreamReset (stream : QuicStreamState) (errorCode : Nat)
    (reliableSize : Option Nat) : RstStreamFrame :=
  let finalSize := match reliableSize with
    | some reliableSize => max stream.currentWriteOffset reliableSize
    | none => stream.currentWriteOffset
  let finalSize := match stream.finalWriteOffset with
    | some finalWriteOffset => min finalSize finalWriteOffset
    | none => finalSize
  { streamId := stream.id, errorCode, finalSize, reliableSize }

section Trim

variable (stream : QuicStreamLike) (startingOffset : Nat)

/-- The entries from `startingOffset` on are gone, and the one before keeps its key, its FIN
flag and the bytes below `startingOffset`. -/
theorem lookup_removeFromRetransmissionBufStartingAtOffset (offset : Nat) :
    (stream.removeFromRetransmissionBufStartingAtOffset startingOffset).retransmissionBuffer.lookup
        offset =
      if offset < startingOffset then
        (stream.retransmissionBuffer.lookup offset).map fun buffer =>
          { buffer with data := buffer.data.take (startingOffset - offset) }
      else none := by
  unfold removeFromRetransmissionBufStartingAtOffset
  dsimp only
  rw [ListSearch.lookup_map_keeping_key _ (fun entry => by split <;> rfl),
    ListSearch.lookup_filter_key fun key => decide (key < startingOffset)]
  by_cases below : offset < startingOffset
  · simp only [below, decide_true, if_true]
    congr 1
    funext buffer
    -- taking more bytes than a short entry has keeps it whole
    split
    · rfl
    · rw [List.take_of_length_le (by omega)]
  · simp [below]

@[simp]
theorem pendingWrites_removeFromPendingWritesStartingAtOffset :
    (stream.removeFromPendingWritesStartingAtOffset startingOffset).pendingWrites =
      stream.pendingWrites.take (startingOffset - stream.currentWriteOffset) := by
  unfold removeFromPendingWritesStartingAtOffset
  split
  · rename_i kept
    rcases kept with empty | short
    · simp [empty]
    · rw [List.take_of_length_le (by omega)]
  · split
    · rfl
    · rw [Nat.sub_eq_zero_of_le (by omega), List.take_zero]

@[simp]
theorem retransmissionBuffer_removeFromPendingWritesStartingAtOffset :
    (stream.removeFromPendingWritesStartingAtOffset startingOffset).retransmissionBuffer =
      stream.retransmissionBuffer := by
  unfold removeFromPendingWritesStartingAtOffset
  split <;> [rfl; split <;> rfl]

@[simp]
theorem currentWriteOffset_removeFromPendingWritesStartingAtOffset :
    (stream.removeFromPendingWritesStartingAtOffset startingOffset).currentWriteOffset =
      stream.currentWriteOffset := by
  unfold removeFromPendingWritesStartingAtOffset
  split <;> [rfl; split <;> rfl]

@[simp]
theorem retransmissionBuffer_removeFromLossBufStartingAtOffset :
    (stream.removeFromLossBufStartingAtOffset startingOffset).retransmissionBuffer =
      stream.retransmissionBuffer := rfl

@[simp]
theorem pendingWrites_removeFromLossBufStartingAtOffset :
    (stream.removeFromLossBufStartingAtOffset startingOffset).pendingWrites =
      stream.pendingWrites := rfl

@[simp]
theorem pendingWrites_removeFromRetransmissionBufStartingAtOffset :
    (stream.removeFromRetransmissionBufStartingAtOffset startingOffset).pendingWrites =
      stream.pendingWrites := rfl

@[simp]
theorem currentWriteOffset_removeFromRetransmissionBufStartingAtOffset :
    (stream.removeFromRetransmissionBufStartingAtOffset startingOffset).currentWriteOffset =
      stream.currentWriteOffset := rfl

end Trim

section Reset

variable {stream stream' : QuicStreamState} {conn conn' : ConnectionFlowControlState}

theorem decrementWithOverFlowCheck_ok {num diff result : Nat}
    (ok : decrementWithOverFlowCheck num diff = .ok result) : num = result + diff := by
  unfold decrementWithOverFlowCheck at ok
  split at ok
  · cases ok
  · cases ok
    omega

/-- The bytes a reset throws away leave the connection's buffered sum: those of `pendingWrites`
at or after the reliable size, or all of them. -/
theorem updateFlowControlOnResetStream_ok {reliableSize : Option Nat}
    (ok : updateFlowControlOnResetStream stream conn reliableSize = .ok conn') :
    conn.sumCurStreamBufferLen = conn'.sumCurStreamBufferLen +
      (stream.pendingWrites.length - match reliableSize with
        | some reliableSize =>
          if reliableSize > 0 then
            (stream.pendingWrites.take (reliableSize - stream.currentWriteOffset)).length
          else 0
        | none => 0) := by
  unfold updateFlowControlOnResetStream at ok
  dsimp only at ok
  split at ok
  · cases ok
  · rename_i sumCurStreamBufferLen decremented
    cases ok
    have released := decrementWithOverFlowCheck_ok decremented
    rcases reliableSize with _ | reliableSize
    · simpa using released
    · by_cases positive : reliableSize > 0
      · simp only [positive, if_true, List.length_take] at released ⊢
        split at released <;> omega
      · simp only [positive, if_false] at released ⊢
        simpa using released

/-- A reset that goes through releases from the connection's buffered sum exactly the bytes it
drops from `pendingWrites`: those at or after the reliable size, which were never sent. -/
theorem resetQuicStream_releases_dropped {reliableSize : Option Nat}
    (reset : resetQuicStream stream conn reliableSize = .ok (stream', conn')) :
    conn.sumCurStreamBufferLen =
      conn'.sumCurStreamBufferLen + (stream.pendingWrites.length - stream'.pendingWrites.length) := by
  unfold resetQuicStream at reset
  split at reset
  · cases reset
  · rename_i conn'' flow
    have released := updateFlowControlOnResetStream_ok flow
    rcases reliableSize with _ | reliableSize
    · cases reset
      simpa using released
    · by_cases positive : reliableSize > 0
      · simp only [positive, if_true, Except.ok.injEq, Prod.mk.injEq] at reset released
        obtain ⟨rfl, rfl⟩ := reset
        simpa using released
      · simp only [positive, if_false, Except.ok.injEq, Prod.mk.injEq] at reset released
        obtain ⟨rfl, rfl⟩ := reset
        simpa using released

theorem resetQuicStream_reliable_retransmissionBuffer {reliableSize : Nat}
    (positive : 0 < reliableSize)
    (reset : resetQuicStream stream conn (some reliableSize) = .ok (stream', conn')) :
    stream'.retransmissionBuffer =
      (stream.toQuicStreamLike.removeFromRetransmissionBufStartingAtOffset
        reliableSize).retransmissionBuffer := by
  unfold resetQuicStream at reset
  split at reset
  · cases reset
  · simp only [positive, if_true, Except.ok.injEq, Prod.mk.injEq] at reset
    obtain ⟨rfl, -⟩ := reset
    simp

/-- `sendRstSMHandler` with a reliable size on an open stream: the retransmission buffer is cut
at the reliable size and the stream goes to `ResetSent`. -/
theorem sendRstSMHandler_reliable {errorCode reliableSize : Nat}
    (opened : stream.sendState = .opened) (positive : 0 < reliableSize)
    (reset : sendRstSMHandler stream conn errorCode (some reliableSize) = some (.ok (stream', conn'))) :
    stream'.retransmissionBuffer =
        (stream.toQuicStreamLike.removeFromRetransmissionBufStartingAtOffset
          reliableSize).retransmissionBuffer ∧
      stream'.sendState = .resetSent := by
  unfold sendRstSMHandler at reset
  rw [opened] at reset
  dsimp only at reset
  split_ifs at reset
  simp only [Option.some.injEq] at reset
  split at reset
  · cases reset
  · rename_i resetStream resetConn resetDone
    have cut := resetQuicStream_reliable_retransmissionBuffer positive resetDone
    simp only [Except.ok.injEq, Prod.mk.injEq] at reset
    obtain ⟨rfl, -⟩ := reset
    exact ⟨cut, rfl⟩

/-- An acknowledged frame whose length is not the one of the buffer kept under its offset fails
the `CHECK_EQ` on the length. -/
theorem sendAckSMHandler_length_mismatch {frame : WriteStreamFrame} {buffer : WriteStreamBuffer}
    (sending : stream.sendState = .opened ∨ stream.sendState = .resetSent)
    (kept : stream.retransmissionBuffer.lookup frame.offset = some buffer)
    (mismatch : frame.len ≠ buffer.data.length) :
    sendAckSMHandler stream frame = none := by
  unfold sendAckSMHandler
  rcases sending with sending | sending <;> simp [sending, kept, mismatch]

/-- A reliable reset whose size falls inside a frame in flight shortens the frame's buffer, so
the acknowledgement of that frame fails the `CHECK_EQ` on its length. -/
theorem sendAckSMHandler_after_reliable_reset {errorCode reliableSize : Nat}
    {frame : WriteStreamFrame} {buffer : WriteStreamBuffer}
    (opened : stream.sendState = .opened)
    (sent : stream.retransmissionBuffer.lookup frame.offset = some buffer)
    (whole : buffer.data.length = frame.len)
    (inside : frame.offset < reliableSize ∧ reliableSize < frame.offset + frame.len)
    (reset : sendRstSMHandler stream conn errorCode (some reliableSize) = some (.ok (stream', conn'))) :
    sendAckSMHandler stream' frame = none := by
  obtain ⟨cut, resetSent⟩ := sendRstSMHandler_reliable opened (by omega) reset
  have kept : stream'.retransmissionBuffer.lookup frame.offset =
      some { buffer with data := buffer.data.take (reliableSize - frame.offset) } := by
    rw [cut, lookup_removeFromRetransmissionBufStartingAtOffset]
    simp [inside.1, sent]
  refine sendAckSMHandler_length_mismatch (.inr resetSent) kept ?_
  simp only [List.length_take]
  omega

end Reset

/-- Two bytes written and checkpointed, two more bytes and the FIN written, all four sent in one
frame, and the stream reset reliably at the checkpoint. The acknowledgement of that frame then
fails a `CHECK_EQ`; its loss instead queues bytes [0, 2) with the FIN, which go out again as a
STREAM frame ending at 2 while the RESET_STREAM_AT announces a final size of 4. -/
theorem reliable_reset_inside_frame_in_flight :
    ∃ checkpointed before after resent : Sender,
      Sender.Reachable checkpointed ∧
      updateReliableDeliveryCheckpoint checkpointed.stream = .ok 2 ∧
      TransitionSystem.run SendEvent.Admissible sendStep checkpointed
        [.write [3, 4] true, .written ⟨0, 0, 4, true⟩] = some before ∧
      resetStreamInternal before.stream before.conn 0 2 true = some (.ok (after.stream, after.conn)) ∧
      sendStep before (.reset 0 (some 2)) = some after ∧
      ⟨0, 0, 4, true⟩ ∈ after.outstanding ∧
      sendAckSMHandler after.stream ⟨0, 0, 4, true⟩ = none ∧
      (appendPendingStreamReset after.stream 0 (some 2)).finalSize = 4 ∧
      TransitionSystem.run SendEvent.Admissible sendStep after
        [.lost ⟨0, 0, 4, true⟩, .written ⟨0, 0, 2, true⟩] = some resent ∧
      ⟨0, 0, 2, true⟩ ∈ resent.outstanding := by
  have checkpointed : TransitionSystem.run SendEvent.Admissible sendStep sixteenByteWindow
      [.write [1, 2] false] =
      some { sixteenByteWindow with
        stream := { sixteenByteWindow.stream with pendingWrites := [1, 2] }
        conn := { peerAdvertisedMaxOffset := 16, sumCurStreamBufferLen := 2 } } := by
    decide
  -- the frame carries bytes [0, 4) and the FIN, past the checkpoint
  have sent : TransitionSystem.run SendEvent.Admissible sendStep
      { sixteenByteWindow with
        stream := { sixteenByteWindow.stream with pendingWrites := [1, 2] }
        conn := { peerAdvertisedMaxOffset := 16, sumCurStreamBufferLen := 2 } }
      [.write [3, 4] true, .written ⟨0, 0, 4, true⟩] =
      some { sixteenByteWindow with
        stream := { sixteenByteWindow.stream with
          currentWriteOffset := 5
          finalWriteOffset := some 4
          retransmissionBuffer := [(0, ⟨[1, 2, 3, 4], 0, true⟩)] }
        conn := { peerAdvertisedMaxOffset := 16, sumCurWriteOffset := 4 }
        outstanding := [⟨0, 0, 4, true⟩] } := by
    decide
  -- the ack fails because the reset at 2 falls inside the frame [0, 4) sent before it
  have crash := @sendAckSMHandler_after_reliable_reset
    { sixteenByteWindow.stream with
      currentWriteOffset := 5
      finalWriteOffset := some 4
      retransmissionBuffer := [(0, ⟨[1, 2, 3, 4], 0, true⟩)] }
    _ { peerAdvertisedMaxOffset := 16, sumCurWriteOffset := 4 } _ 0 2 ⟨0, 0, 4, true⟩ _
    rfl rfl rfl (by decide) rfl
  refine ⟨_, _, _, _, TransitionSystem.reachable_of_run (.init sixteenByteWindow_fresh) checkpointed,
    rfl, sent, rfl, rfl, by decide, crash, rfl, rfl, by decide⟩

end Mvfst
