import Mvfst.State.ReceivePath
import Mvfst.Codec.Types

/-!
The receive state machine of `quic/state/stream/StreamReceiveHandlers.cpp` on STREAM frames, with
the stream-id predicates of `QuicStreamUtilities.cpp` and the completeness tests of
`StreamStateFunctions.cpp` it reads. The stream manager's bookkeeping (`addClosed`,
`updateReadableStreams`, `updatePeekableStreams`) only lists streams for the application and is
left out.
-/

namespace Mvfst

open FlowControl

inductive QuicNodeType where
  | client | server
  deriving DecidableEq, Repr

def isServerStream (stream : Nat) : Bool := stream &&& 0b01 != 0

def isClientStream (stream : Nat) : Bool := stream &&& 0b01 == 0

def isUnidirectionalStream (stream : Nat) : Bool := stream &&& 0b10 != 0

/-- A unidirectional stream this side opened: it only sends on it. -/
def isSendingStream (nodeType : QuicNodeType) (stream : Nat) : Bool :=
  isUnidirectionalStream stream &&
    ((nodeType == .client && isClientStream stream) ||
      (nodeType == .server && isServerStream stream))

def streamStateToString : StreamRecvState → String
  | .opened => "Open"
  | .closed => "Closed"
  | .invalid => "Invalid"

/-- Every byte up to the FIN was read, or sits in the one buffered range at the read offset. -/
def isAllDataReceived (stream : QuicStreamState) : Bool :=
  match stream.finalReadOffset with
  | none => false
  | some finalReadOffset =>
    if finalReadOffset ≤ stream.currentReadOffset then true
    else match stream.readBuffer with
      | [front] => stream.currentReadOffset == front.offset &&
          front.offset + front.data.length == finalReadOffset
      | _ => false

/-- Every byte up to `offset` was read, or is buffered contiguously from the read offset. -/
def isAllDataReceivedUntil (stream : QuicStreamState) (offset : Nat) : Bool :=
  if stream.currentReadOffset > offset then true
  else match stream.readBuffer with
    | front :: _ => stream.currentReadOffset == front.offset &&
        decide (front.offset + front.data.length > offset)
    | [] => false

/-- A STREAM frame on a stream of a node of type `nodeType`. An open stream stores it and closes
once all data up to the FIN, or up to a reset's reliable size, has arrived. `none` is the failed
`CHECK` that a closed stream is not one this side only sends on. -/
def receiveReadStreamFrameSMHandler (nodeType : QuicNodeType) (stream : QuicStreamState)
    (conn : ConnectionFlowControlState) (frame : ReadStreamFrame) :
    Option (Except QuicError (QuicStreamState × ConnectionFlowControlState)) :=
  match stream.recvState with
  | .opened =>
    match appendDataToReadBuffer stream conn ⟨frame.data, frame.offset, frame.fin⟩ with
    | .error e => some (.error e)
    | .ok (stream, conn) =>
      let allDataTillReliableSizeReceived := match stream.reliableSizeFromPeer with
        | some reliableSize => reliableSize == 0 || isAllDataReceivedUntil stream (reliableSize - 1)
        | none => false
      if isAllDataReceived stream || allDataTillReliableSizeReceived then
        some (.ok ({ stream with recvState := .closed }, conn))
      else some (.ok (stream, conn))
  | .closed => if isSendingStream nodeType stream.id then none else some (.ok (stream, conn))
  | .invalid => some (.error ⟨.transport .streamStateError,
      "Invalid transition from state=" ++ streamStateToString stream.recvState⟩)

section Handler

variable (nodeType : QuicNodeType) (stream : QuicStreamState) (conn : ConnectionFlowControlState)
  (frame : ReadStreamFrame)

/-- On an open stream the handler is the append, followed by the transition to closed. -/
theorem receiveReadStreamFrameSMHandler_opened (opened : stream.recvState = .opened)
    {appended : QuicStreamState} {conn' : ConnectionFlowControlState}
    (stored : appendDataToReadBuffer stream conn ⟨frame.data, frame.offset, frame.fin⟩ =
      .ok (appended, conn')) :
    ∃ closed, receiveReadStreamFrameSMHandler nodeType stream conn frame =
      some (.ok (closed, conn')) ∧ closed.toQuicStreamLike = appended.toQuicStreamLike := by
  unfold receiveReadStreamFrameSMHandler
  simp only [opened, stored]
  split_ifs
  · exact ⟨_, rfl, rfl⟩
  · exact ⟨_, rfl, rfl⟩

/-- The handler fails only with FINAL_SIZE_ERROR from the append, or STREAM_STATE_ERROR on an
invalid stream: never with FLOW_CONTROL_ERROR. -/
theorem receiveReadStreamFrameSMHandler_error {e : QuicError}
    (failed : receiveReadStreamFrameSMHandler nodeType stream conn frame = some (.error e)) :
    e.code = .transport .finalSizeError ∨ e.code = .transport .streamStateError := by
  unfold receiveReadStreamFrameSMHandler at failed
  split at failed
  · split at failed
    · rename_i appendFailed
      cases failed
      left
      unfold appendDataToReadBuffer at appendFailed
      split at appendFailed
      · rename_i commonFailed
        cases appendFailed
        exact appendDataToReadBufferCommon_error commonFailed
      · cases appendFailed
    · simp only at failed
      split_ifs at failed <;> cases failed
  · split_ifs at failed
    cases failed
  · cases failed
    exact .inr rfl

/-- A frame that the flow-control check refuses, on an open stream and past the final-size checks,
is still accepted: the stream's largest offset observed moves to the frame's end and the
connection's counters do not change. -/
theorem receiveReadStreamFrameSMHandler_unchecked (opened : stream.recvState = .opened)
    {checked : QuicStreamLike} {e : QuicError}
    (passes : checkFinalReadOffset stream.toQuicStreamLike
      (if frame.fin then some (frame.offset + frame.data.length) else none)
      (frame.offset + frame.data.length) = .ok checked)
    (relevant : frame.fin = true ∨ 0 < frame.data.length)
    (refused : updateFlowControlOnStreamData stream conn stream.maxOffsetObserved
      (frame.offset + frame.data.length) = .error e) :
    ∃ stream', receiveReadStreamFrameSMHandler nodeType stream conn frame =
        some (.ok (stream', conn)) ∧
      stream'.maxOffsetObserved = max stream.maxOffsetObserved (frame.offset + frame.data.length) := by
  obtain ⟨appended, common, observed⟩ :=
    appendDataToReadBufferCommon_visits stream.toQuicStreamLike conn
      ⟨frame.data, frame.offset, frame.fin⟩ (streamDataVisitor stream) passes relevant
  -- the visitor drops the refusal
  have dropped : streamDataVisitor stream stream.maxOffsetObserved
      (frame.offset + frame.data.length) conn = conn := by
    unfold streamDataVisitor
    rw [refused]
  rw [dropped] at common
  have stored : appendDataToReadBuffer stream conn ⟨frame.data, frame.offset, frame.fin⟩ =
      .ok ({ stream with toQuicStreamLike := appended }, conn) := by
    unfold appendDataToReadBuffer
    rw [common]
  obtain ⟨closed, handled, same⟩ :=
    receiveReadStreamFrameSMHandler_opened nodeType stream conn frame opened stored
  refine ⟨closed, handled, ?_⟩
  rw [show closed.maxOffsetObserved = appended.maxOffsetObserved from
    congrArg QuicStreamLike.maxOffsetObserved same]
  exact observed

end Handler

/-- A fresh stream with a window of 10 bytes. -/
def tenByteWindow : QuicStreamState where
  id := 0
  flowControlState := { advertisedMaxOffset := 10 }

/-- A server receives 20 bytes on a stream and a connection with windows of 10 bytes: no error,
the stream has observed 20 bytes, and the connection's sum stays 0. -/
theorem stream_window_not_enforced :
    receiveReadStreamFrameSMHandler .server tenByteWindow { advertisedMaxOffset := 10 }
        ⟨0, 0, List.replicate 20 0, false⟩ =
      some (.ok ({ tenByteWindow with
          readBuffer := [⟨List.replicate 20 0, 0, false⟩]
          maxOffsetObserved := 20 },
        { advertisedMaxOffset := 10, sumMaxObservedOffset := 0 })) := by
  decide

/-- The receive handler never fails with FLOW_CONTROL_ERROR, only with FINAL_SIZE_ERROR or
STREAM_STATE_ERROR; on an open stream, a frame past the final-size checks that ends beyond the
stream's or the connection's receive window is accepted, and the connection's counters stay. -/
theorem flow_control_not_enforced_on_receive (nodeType : QuicNodeType) (stream : QuicStreamState)
    (conn : ConnectionFlowControlState) (frame : ReadStreamFrame) :
    (∀ e, receiveReadStreamFrameSMHandler nodeType stream conn frame = some (.error e) →
      e.code = .transport .finalSizeError ∨ e.code = .transport .streamStateError) ∧
    (stream.recvState = .opened →
      ∀ checked, checkFinalReadOffset stream.toQuicStreamLike
          (if frame.fin then some (frame.offset + frame.data.length) else none)
          (frame.offset + frame.data.length) = .ok checked →
      (frame.fin = true ∨ 0 < frame.data.length) → frame.offset + frame.data.length ≤ uint64Max →
      (stream.flowControlState.advertisedMaxOffset < frame.offset + frame.data.length ∨
        conn.advertisedMaxOffset < conn.sumMaxObservedOffset +
          (max stream.maxOffsetObserved (frame.offset + frame.data.length) - stream.maxOffsetObserved)) →
      ∃ stream', receiveReadStreamFrameSMHandler nodeType stream conn frame = some (.ok (stream', conn)) ∧
        stream'.maxOffsetObserved = max stream.maxOffsetObserved (frame.offset + frame.data.length)) := by
  refine ⟨fun e failed => receiveReadStreamFrameSMHandler_error nodeType stream conn frame failed, ?_⟩
  intro opened checked passes relevant width exceeds
  obtain ⟨e, refused⟩ := updateFlowControlOnStreamData_refused stream conn width exceeds
  exact receiveReadStreamFrameSMHandler_unchecked nodeType stream conn frame opened passes relevant refused

/-- The 20 bytes beyond the 10-byte windows are accepted with the connection unchanged. -/
theorem flow_control_not_enforced_on_receive_twenty_bytes :
    ∃ stream', receiveReadStreamFrameSMHandler .server tenByteWindow { advertisedMaxOffset := 10 }
        ⟨0, 0, List.replicate 20 0, false⟩ = some (.ok (stream', { advertisedMaxOffset := 10 })) ∧
      stream'.maxOffsetObserved = max tenByteWindow.maxOffsetObserved (0 + (List.replicate 20 (0 : UInt8)).length) :=
  (flow_control_not_enforced_on_receive .server tenByteWindow { advertisedMaxOffset := 10 }
    ⟨0, 0, List.replicate 20 0, false⟩).2 rfl _ rfl (.inr (by decide)) (by decide) (.inl (by decide))

end Mvfst
