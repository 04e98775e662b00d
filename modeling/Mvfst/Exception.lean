import Mathlib

/-!
# Error codes

The error values the modelled functions return: `TransportErrorCode` and `LocalErrorCode` from
`QuicConstants.h` (only the codes some modelled function raises), and `QuicError`, a code with a
message, from `QuicException.h`.
-/

namespace Mvfst

inductive TransportErrorCode where
  | internalError
  | flowControlError
  | streamLimitError
  | streamStateError
  | finalSizeError
  | frameEncodingError
  | protocolViolation
  | cryptoBufferExceeded
  deriving DecidableEq, Repr

inductive LocalErrorCode where
  | noError
  | internalError
  | connectionAbandoned
  | creatingExistingStream
  | streamLimitExceeded
  | transportError
  | invalidOperation
  deriving DecidableEq, Repr

/-- `QuicErrorCode`: a transport, local or application error code. -/
inductive QuicErrorCode where
  | transport (code : TransportErrorCode)
  | local (code : LocalErrorCode)
  | application (code : Nat)
  deriving DecidableEq, Repr

structure QuicError where
  code : QuicErrorCode
  message : String
  deriving DecidableEq, Repr

end Mvfst
