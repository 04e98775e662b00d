import Mvfst.State.Stream.StreamReceiveHandlers

/-!
The send state machine of `quic/state/stream/StreamSendHandlers.cpp`, with `resetQuicStream` of
`StreamStateFunctions.cpp`. Frames are those of streams without buffer metadata
(`fromBufMeta = false`). Queuing the RESET_STREAM frame (`appendPendingStreamReset`), the error
code kept for the application (`streamWriteError`) and the stream manager's lists are left out.
-/

namespace Mvfst

open FlowControl

def StreamSendState.streamStateToString : StreamSendState → String
  | .opened => "Open"
  | .resetSent => "ResetSent"
  | .closed => "Closed"
  | .invalid => "Invalid"

def invalidSendTransition (sendState : StreamSendState) : QuicError :=
  ⟨.transport .streamStateError, "Invalid transition from state=" ++ sendState.streamStateToString⟩

/-- Drops what a reset does not deliver: everything unsent or unacknowledged, or only what lies
past a reliable size. -/
def resetQuicStream (stream : QuicStreamState) (conn : ConnectionFlowControlState)
    (reliableSize : Option Nat) : Except QuicError (QuicStreamState × ConnectionFlowControlState) :=
  match updateFlowControlOnResetStream stream conn reliableSize with
  | .error e => .error e
  | .ok conn =>
    match reliableSize with
    | some reliableSize =>
      if reliableSize > 0 then
        let like := (((stream.toQuicStreamLike.removeFromRetransmissionBufStartingAtOffset
            reliableSize).removeFromPendingWritesStartingAtOffset reliableSize)
          |>.removeFromLossBufStartingAtOffset reliableSize)
        .ok ({ stream with
          toQuicStreamLike := { like with reliableSizeToPeer := some reliableSize } }, conn)
      else .ok ({ stream with
        reliableSizeToPeer := none, retransmissionBuffer := [], pendingWrites := [],
        lossBuffer := [] }, conn)
    | none => .ok ({ stream with
        reliableSizeToPeer := none, retransmissionBuffer := [], pendingWrites := [],
        lossBuffer := [] }, conn)

/-- The application resets the stream. `none` is a failed `CHECK` on the reliable size or the
error code. -/
def sendRstSMHandler (stream : QuicStreamState) (conn : ConnectionFlowControlState)
    (errorCode : Nat) (reliableSize : Option Nat) :
    Option (Except QuicError (QuicStreamState × ConnectionFlowControlState)) :=
  match stream.sendState with
  | .opened =>
    let reliableSizeGrows := match reliableSize, stream.reliableSizeToPeer with
      | some reliableSize, some reliableSizeToPeer => reliableSize > reliableSizeToPeer
      | _, _ => false
    let errorCodeChanges := match stream.appErrorCodeToPeer with
      | some appErrorCodeToPeer => appErrorCodeToPeer != errorCode
      | none => false
    let afterReset := stream.reliableSizeToPeer.isNone && stream.sendState == .resetSent &&
      !(reliableSize.isNone || reliableSize == some 0)
    if reliableSizeGrows || errorCodeChanges || afterReset then none
    else
      let stream := { stream with appErrorCodeToPeer := some errorCode }
      some (match resetQuicStream stream conn reliableSize with
        | .error e => .error e
        | .ok (stream, conn) => .ok ({ stream with sendState := .resetSent }, conn))
  | .closed | .resetSent => some (.ok (stream, conn))
  | .invalid => some (.error (invalidSendTransition stream.sendState))

/-- An acknowledged STREAM frame. `none` is a failed `CHECK` that the frame matches its buffer,
or the fatal log on an acknowledged empty frame without FIN. -/
def sendAckSMHandler (stream : QuicStreamState) (ackedFrame : WriteStreamFrame) :
    Option (Except QuicError QuicStreamState) :=
  match stream.sendState with
  | .opened | .resetSent =>
    let acked : Option (Except QuicError QuicStreamState) :=
      match stream.retransmissionBuffer.lookup ackedFrame.offset with
      | none => some (.ok stream)
      | some ackedBuffer =>
        if ackedFrame.offset ≠ ackedBuffer.offset ∨ ackedFrame.len ≠ ackedBuffer.data.length ∨
            ackedFrame.fin ≠ ackedBuffer.eof then none
        else match stream.updateAckedIntervals ackedBuffer.offset ackedBuffer.data.length
            ackedBuffer.eof with
          | none => none
          | some (.error _) => some (.error ⟨.transport .internalError,
              "Failed to update acked intervals"⟩)
          | some (.ok like) =>
            let retransmissionBuffer :=
              like.retransmissionBuffer.filter fun entry => entry.1 != ackedFrame.offset
            some (.ok { stream with toQuicStreamLike := { like with retransmissionBuffer } })
    match acked with
    | none => none
    | some (.error e) => some (.error e)
    | some (.ok stream) =>
      let allReliableDataDelivered := match stream.minReliableSizeAcked with
        | some minReliableSizeAcked =>
          minReliableSizeAcked == 0 || stream.allBytesAckedTill (minReliableSizeAcked - 1)
        | none => false
      if allBytesTillFinAcked stream || allReliableDataDelivered then
        some (.ok { stream with sendState := .closed })
      else some (.ok stream)
  | .closed => some (.ok stream)
  | .invalid => some (.error (invalidSendTransition stream.sendState))

/-- An acknowledged RESET_STREAM (`reliableSize = none`) or RESET_STREAM_AT. -/
def sendRstAckSMHandler (stream : QuicStreamState) (reliableSize : Option Nat) :
    Except QuicError QuicStreamState :=
  match stream.sendState with
  | .resetSent =>
    let minReliableSizeAcked := match stream.minReliableSizeAcked with
      | none => reliableSize.getD 0
      | some minReliableSizeAcked => min minReliableSizeAcked (reliableSize.getD 0)
    let stream := { stream with minReliableSizeAcked := some minReliableSizeAcked }
    if minReliableSizeAcked == 0 || stream.allBytesAckedTill (minReliableSizeAcked - 1) then
      .ok { stream with sendState := .closed }
    else .ok stream
  | .closed => .ok stream
  | .opened | .invalid => .error (invalidSendTransition stream.sendState)

end Mvfst
