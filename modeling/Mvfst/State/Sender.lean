import Mvfst.Loss.QuicLossFunctions
import Mvfst.Lib.TransitionSystem

/-!
The send side of one stream as a system. The application writes and resets; the packet scheduler
writes STREAM frames (new data, cuts of lost buffers, clones of outstanding frames); the peer
acknowledges frames and resets; frames are declared lost. Besides the stream and the
connection's flow-control counters, the sender records the frames in flight and the resets sent
and acknowledged: they are not state of the source, only what the peer has been told.
-/

namespace Mvfst

open FlowControl

structure Sender where
  stream : QuicStreamState
  conn : ConnectionFlowControlState
  /-- Frames in packets neither acknowledged nor declared lost. -/
  outstanding : List WriteStreamFrame := []
  /-- Reliable sizes of the RESET_STREAM (`none`) and RESET_STREAM_AT frames queued. -/
  resetsSent : List (Option Nat) := []
  resetsAcked : List (Option Nat) := []
  deriving DecidableEq, Repr

inductive SendEvent where
  | write (data : List UInt8) (eof : Bool)
  | written (frame : WriteStreamFrame)
  | acked (frame : WriteStreamFrame)
  | lost (frame : WriteStreamFrame)
  | reset (errorCode : Nat) (reliableSize : Option Nat)
  | resetAcked (reliableSize : Option Nat)
  deriving DecidableEq, Repr

/-- One event: the source's call, and the records. `none` is a failed `CHECK`. -/
def sendEvent (s : Sender) : SendEvent → Option (Except QuicError Sender)
  | .write data eof =>
    some (match writeDataToQuicStream s.stream s.conn data eof with
      | .error e => .error e
      | .ok (stream, conn) => .ok { s with stream, conn })
  | .written frame =>
    (updateConnectionWriteStreamFrame s.stream s.conn frame).map fun
      | .error e => .error e
      | .ok (stream, conn) => .ok { s with stream, conn, outstanding := s.outstanding ++ [frame] }
  | .acked frame =>
    (sendAckSMHandler s.stream frame).map fun
      | .error e => .error e
      | .ok stream => .ok { s with stream, outstanding := s.outstanding.erase frame }
  | .lost frame =>
    let lost := markPacketLossWriteStreamFrame s.stream.toQuicStreamLike frame
    some (.ok { s with
      stream := { s.stream with toQuicStreamLike := lost }
      outstanding := s.outstanding.erase frame })
  | .reset errorCode reliableSize =>
    -- only a reset of an open stream queues a frame
    let resetsSent := if s.stream.sendState = .opened then s.resetsSent ++ [reliableSize]
      else s.resetsSent
    (sendRstSMHandler s.stream s.conn errorCode reliableSize).map fun
      | .error e => .error e
      | .ok (stream, conn) => .ok { s with stream, conn, resetsSent }
  | .resetAcked reliableSize =>
    some (match sendRstAckSMHandler s.stream reliableSize with
      | .error e => .error e
      | .ok stream => .ok { s with stream, resetsAcked := s.resetsAcked ++ [reliableSize] })

/-- The STREAM frames the packet scheduler writes for the stream: new data within both of the
peer's windows, with the FIN only together with the last byte written; the front of a lost
buffer; or, while the stream is open, a clone of a frame in flight. Empty frames carry a FIN. -/
def Writable (s : Sender) (frame : WriteStreamFrame) : Prop :=
  (0 < frame.len ∨ frame.fin = true) ∧
    ((frame.offset = s.stream.currentWriteOffset ∧ frame.len ≤ s.stream.pendingWrites.length ∧
        frame.offset + frame.len ≤ s.stream.flowControlState.peerAdvertisedMaxOffset ∧
        s.conn.sumCurWriteOffset + frame.len ≤ s.conn.peerAdvertisedMaxOffset ∧
        (frame.fin = true → s.stream.finalWriteOffset = some (frame.offset + frame.len))) ∨
      (∃ buffer ∈ s.stream.lossBuffer, frame.offset = buffer.offset ∧
        frame.len ≤ buffer.data.length ∧
        (frame.fin = true → frame.len = buffer.data.length ∧ buffer.eof = true)) ∨
      (s.stream.sendState = .opened ∧ frame ∈ s.outstanding))

instance decidableWritable (s : Sender) (frame : WriteStreamFrame) :
    Decidable (Writable s frame) :=
  inferInstanceAs (Decidable (_ ∧ (_ ∨ _ ∨ _)))

/-- The events the sender is given: writes while the stream is writable, frames the scheduler
writes, acknowledgements and losses of frames in flight, resets, and acknowledgements of resets
sent. -/
def SendEvent.Admissible (s : Sender) : SendEvent → Prop
  | .write _ _ => s.stream.writable = true
  | .written frame => Writable s frame
  | .acked frame | .lost frame => frame ∈ s.outstanding
  | .reset _ _ => True
  | .resetAcked reliableSize => reliableSize ∈ s.resetsSent

instance decidableSendAdmissible (s : Sender) (event : SendEvent) :
    Decidable (event.Admissible s) :=
  match event with
  | .write _ _ => inferInstanceAs (Decidable (_ = _))
  | .written _ => inferInstanceAs (Decidable (Writable _ _))
  | .acked _ | .lost _ => inferInstanceAs (Decidable (_ ∈ _))
  | .reset _ _ => inferInstanceAs (Decidable True)
  | .resetAcked _ => inferInstanceAs (Decidable (_ ∈ _))

def sendStep (s : Sender) (event : SendEvent) : Option Sender :=
  match sendEvent s event with
  | some (.ok s') => some s'
  | _ => none

/-- A new stream: nothing written, sent or reset. -/
structure Sender.Fresh (s : Sender) : Prop where
  stream : s.stream.toQuicStreamLike = {}
  sendState : s.stream.sendState = .opened
  finalWriteOffset : s.stream.finalWriteOffset = none
  outstanding : s.outstanding = []
  resetsSent : s.resetsSent = []
  resetsAcked : s.resetsAcked = []

abbrev Sender.Reachable : Sender → Prop :=
  TransitionSystem.Reachable Sender.Fresh SendEvent.Admissible sendStep

/-- A stream with windows of 16 bytes from the peer. -/
def sixteenByteWindow : Sender where
  stream := { id := 0, flowControlState := { peerAdvertisedMaxOffset := 16 } }
  conn := { peerAdvertisedMaxOffset := 16 }

theorem sixteenByteWindow_fresh : sixteenByteWindow.Fresh := ⟨rfl, rfl, rfl, rfl, rfl, rfl⟩

/-- Three bytes and the FIN go out in two frames, the application resets the stream, and the
peer acknowledges the frame with the FIN. The send side closes: the reset was never
acknowledged, no byte was, and the first frame is still in flight. -/
theorem closed_without_reset_ack :
    ∃ s, Sender.Reachable s ∧ s.stream.sendState = .closed ∧ s.resetsSent = [none] ∧
      s.resetsAcked = [] ∧ s.stream.ackedIntervals = {} ∧ s.outstanding = [⟨0, 0, 2, false⟩] := by
  have ran : TransitionSystem.run SendEvent.Admissible sendStep sixteenByteWindow
      [.write [1, 2, 3] true, .written ⟨0, 0, 2, false⟩, .written ⟨0, 2, 1, true⟩, .reset 0 none,
        .acked ⟨0, 2, 1, true⟩] =
      some { sixteenByteWindow with
        stream := { sixteenByteWindow.stream with
          currentWriteOffset := 4
          appErrorCodeToPeer := some 0
          sendState := .closed
          finalWriteOffset := some 3 }
        conn := { peerAdvertisedMaxOffset := 16, sumCurWriteOffset := 3 }
        outstanding := [⟨0, 0, 2, false⟩]
        resetsSent := [none] } := by
    decide
  exact ⟨_, TransitionSystem.reachable_of_run (.init sixteenByteWindow_fresh) ran,
    rfl, rfl, rfl, rfl, rfl⟩

end Mvfst
