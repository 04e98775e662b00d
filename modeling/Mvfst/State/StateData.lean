import Mathlib

/-!
Connection-level records of `quic/state/StateData.h`: the connection's flow-control counters, which
every stream's receive and send paths update.
-/

namespace Mvfst

/-- `QuicConnectionStateBase::ConnectionFlowControlState`, without the window sizes and the time of
the last update, which only the window-update logic reads. `advertisedMaxOffset` is the window
advertised to the peer (MAX_DATA), `peerAdvertisedMaxOffset` the peer's; the sums run over the
streams' read offsets, observed offsets, new bytes written to the wire and bytes not yet sent. -/
structure ConnectionFlowControlState where
  advertisedMaxOffset : Nat := 0
  sumCurReadOffset : Nat := 0
  sumMaxObservedOffset : Nat := 0
  peerAdvertisedMaxOffset : Nat := 0
  sumCurWriteOffset : Nat := 0
  sumCurStreamBufferLen : Nat := 0
  deriving DecidableEq, Repr

end Mvfst
