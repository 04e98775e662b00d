import Mvfst.Common.IntervalSet
import Mvfst.Exception

/-!
# Frames

The frames of `codec/Types.h`, with `FrameType` and the limits of `QuicConstants.h` the codec
checks. `QuicWriteFrame` is what `writeFrame` takes, `QuicFrame` what `parseFrame` returns, and
`QuicSimpleFrame` holds the control frames both carry. Integer fields are `uint64_t` in the
source and `Nat` here, as in the connection model; the writer narrows them to 64 bits where it
builds a `QuicInteger`. Buffers are lists of bytes.

The frames the connection model also reads (`RstStreamFrame`, `WriteStreamFrame`,
`ReadStreamFrame`, `AckBlock`) sit in `Mvfst`; the rest in `Mvfst.Codec`, where the codec's full
`ReadAckFrame` and `QuicWriteFrame` stand beside the connection model's narrower ones.
-/

namespace Mvfst

/-- `kMaxMaxStreams`, the largest stream count a MAX_STREAMS frame may carry. -/
def kMaxMaxStreams : Nat := 2 ^ 60

def kMaxReasonPhraseLength : Nat := 1024

def kMaxConnectionIdSize : Nat := 20

def kStatelessResetTokenLength : Nat := 16

/-- A RESET_STREAM frame, or a RESET_STREAM_AT frame when it carries a reliable size. -/
structure RstStreamFrame where
  streamId : Nat
  errorCode : Nat
  finalSize : Nat
  reliableSize : Option Nat := none
  deriving DecidableEq, Repr

/-- `WriteStreamFrame` as the send path records it in a packet. -/
structure WriteStreamFrame where
  streamId : Nat
  offset : Nat
  len : Nat
  fin : Bool
  deriving DecidableEq, Repr

/-- A STREAM frame as the codec hands it over; the group id of a stream group frame is dropped,
as nothing downstream reads it. -/
structure ReadStreamFrame where
  streamId : Nat
  offset : Nat
  data : List UInt8
  fin : Bool
  deriving DecidableEq, Repr

/-- The packets `[startPacket, endPacket]`. -/
structure AckBlock where
  startPacket : Nat
  endPacket : Nat
  deriving DecidableEq, Repr

namespace Codec

inductive FrameType where
  | padding | ping | ack | ackEcn | rstStream | stopSending | cryptoFrame | newToken
  | stream | streamFin | streamLen | streamLenFin
  | streamOff | streamOffFin | streamOffLen | streamOffLenFin
  | maxData | maxStreamData | maxStreamsBidi | maxStreamsUni
  | dataBlocked | streamDataBlocked | streamsBlockedBidi | streamsBlockedUni
  | newConnectionId | retireConnectionId | pathChallenge | pathResponse
  | connectionClose | connectionCloseAppErr | handshakeDone
  | rstStreamAt | datagram | datagramLen | knob | immediateAck | ackFrequency
  | groupStream | groupStreamFin | groupStreamLen | groupStreamLenFin
  | groupStreamOff | groupStreamOffFin | groupStreamOffLen | groupStreamOffLenFin
  | ackReceiveTimestamps | ackExtended
  deriving DecidableEq, Repr

/-- The enumerator's `uint64_t` value. -/
def FrameType.value : FrameType → Nat
  | .padding => 0x00 | .ping => 0x01 | .ack => 0x02 | .ackEcn => 0x03
  | .rstStream => 0x04 | .stopSending => 0x05 | .cryptoFrame => 0x06 | .newToken => 0x07
  | .stream => 0x08 | .streamFin => 0x09 | .streamLen => 0x0a | .streamLenFin => 0x0b
  | .streamOff => 0x0c | .streamOffFin => 0x0d | .streamOffLen => 0x0e | .streamOffLenFin => 0x0f
  | .maxData => 0x10 | .maxStreamData => 0x11 | .maxStreamsBidi => 0x12 | .maxStreamsUni => 0x13
  | .dataBlocked => 0x14 | .streamDataBlocked => 0x15
  | .streamsBlockedBidi => 0x16 | .streamsBlockedUni => 0x17
  | .newConnectionId => 0x18 | .retireConnectionId => 0x19
  | .pathChallenge => 0x1A | .pathResponse => 0x1B
  | .connectionClose => 0x1C | .connectionCloseAppErr => 0x1D | .handshakeDone => 0x1E
  | .rstStreamAt => 0x24 | .datagram => 0x30 | .datagramLen => 0x31
  | .knob => 0x1550 | .immediateAck => 0xAC | .ackFrequency => 0xAF
  | .groupStream => 0x32 | .groupStreamFin => 0x33 | .groupStreamLen => 0x34
  | .groupStreamLenFin => 0x35 | .groupStreamOff => 0x36 | .groupStreamOffFin => 0x37
  | .groupStreamOffLen => 0x38 | .groupStreamOffLenFin => 0x39
  | .ackReceiveTimestamps => 0xB0 | .ackExtended => 0xB1

/-- The enumerator `static_cast<FrameType>(value)` names, if any: the cases of `parseFrame`'s
switch. -/
def FrameType.ofValue? : Nat → Option FrameType
  | 0x00 => some .padding | 0x01 => some .ping | 0x02 => some .ack | 0x03 => some .ackEcn
  | 0x04 => some .rstStream | 0x05 => some .stopSending | 0x06 => some .cryptoFrame
  | 0x07 => some .newToken | 0x08 => some .stream | 0x09 => some .streamFin
  | 0x0a => some .streamLen | 0x0b => some .streamLenFin | 0x0c => some .streamOff
  | 0x0d => some .streamOffFin | 0x0e => some .streamOffLen | 0x0f => some .streamOffLenFin
  | 0x10 => some .maxData | 0x11 => some .maxStreamData | 0x12 => some .maxStreamsBidi
  | 0x13 => some .maxStreamsUni | 0x14 => some .dataBlocked | 0x15 => some .streamDataBlocked
  | 0x16 => some .streamsBlockedBidi | 0x17 => some .streamsBlockedUni
  | 0x18 => some .newConnectionId | 0x19 => some .retireConnectionId
  | 0x1A => some .pathChallenge | 0x1B => some .pathResponse | 0x1C => some .connectionClose
  | 0x1D => some .connectionCloseAppErr | 0x1E => some .handshakeDone
  | 0x24 => some .rstStreamAt | 0x30 => some .datagram | 0x31 => some .datagramLen
  | 0x1550 => some .knob | 0xAC => some .immediateAck | 0xAF => some .ackFrequency
  | 0x32 => some .groupStream | 0x33 => some .groupStreamFin | 0x34 => some .groupStreamLen
  | 0x35 => some .groupStreamLenFin | 0x36 => some .groupStreamOff
  | 0x37 => some .groupStreamOffFin | 0x38 => some .groupStreamOffLen
  | 0x39 => some .groupStreamOffLenFin | 0xB0 => some .ackReceiveTimestamps
  | 0xB1 => some .ackExtended
  | _ => none

@[simp] theorem FrameType.ofValue?_value (frameType : FrameType) :
    FrameType.ofValue? frameType.value = some frameType := by
  cases frameType <;> rfl

/-- The type byte of a STREAM frame, read as its flag bits. -/
structure StreamTypeField where
  field : UInt8
  deriving DecidableEq, Repr

namespace StreamTypeField

def kFinBit : UInt8 := 0x01
def kDataLengthBit : UInt8 := 0x02
def kOffsetBit : UInt8 := 0x04

def hasDataLength (streamType : StreamTypeField) : Bool := streamType.field &&& kDataLengthBit != 0

def hasFin (streamType : StreamTypeField) : Bool := streamType.field &&& kFinBit != 0

def hasOffset (streamType : StreamTypeField) : Bool := streamType.field &&& kOffsetBit != 0

def fieldValue (streamType : StreamTypeField) : UInt8 := streamType.field

/-- Sets the flag bits on the type of a plain STREAM frame, or of a stream group frame. -/
structure Builder where
  field : UInt8 := UInt8.ofNat FrameType.stream.value
  deriving DecidableEq, Repr

namespace Builder

def switchToStreamGroups (_ : Builder) : Builder := ⟨UInt8.ofNat FrameType.groupStream.value⟩

def setFin (streamTypeBuilder : Builder) : Builder := ⟨streamTypeBuilder.field ||| kFinBit⟩

def setOffset (streamTypeBuilder : Builder) : Builder := ⟨streamTypeBuilder.field ||| kOffsetBit⟩

def setLength (streamTypeBuilder : Builder) : Builder := ⟨streamTypeBuilder.field ||| kDataLengthBit⟩

def build (streamTypeBuilder : Builder) : StreamTypeField := ⟨streamTypeBuilder.field⟩

end Builder

end StreamTypeField

inductive HeaderForm where
  | short | long
  deriving DecidableEq, Repr

structure PaddingFrame where
  /-- How many contiguous padding frames this represents. -/
  numFrames : UInt16 := 1
  deriving DecidableEq, Repr

structure MaxDataFrame where
  maximumData : Nat
  deriving DecidableEq, Repr

structure MaxStreamDataFrame where
  streamId : Nat
  maximumData : Nat
  deriving DecidableEq, Repr

structure DataBlockedFrame where
  dataLimit : Nat
  deriving DecidableEq, Repr

structure StreamDataBlockedFrame where
  streamId : Nat
  dataLimit : Nat
  deriving DecidableEq, Repr

structure StreamsBlockedFrame where
  streamLimit : Nat
  isForBidirectional : Bool
  deriving DecidableEq, Repr

/-- The error code a CONNECTION_CLOSE frame carries: the transport and application alternatives
of `QuicErrorCode`, each as the value on the wire. The writer takes any code that is not a
transport one as an application one. -/
inductive CloseErrorCode where
  | transport (code : Nat)
  | application (code : Nat)
  deriving DecidableEq, Repr

def CloseErrorCode.value : CloseErrorCode → Nat
  | .transport code | .application code => code

structure ConnectionCloseFrame where
  errorCode : CloseErrorCode
  reasonPhrase : List UInt8
  /-- The value of the type of the frame that triggered the close; PADDING when unknown. -/
  closingFrameType : Nat := FrameType.padding.value
  deriving DecidableEq, Repr

/-- Both constructors `CHECK_EQ(length, data.chainLength())`. -/
structure DatagramFrame where
  length : Nat
  data : List UInt8
  length_eq : length = data.length
  deriving DecidableEq

structure StopSendingFrame where
  streamId : Nat
  errorCode : Nat
  deriving DecidableEq, Repr

structure PathChallengeFrame where
  pathData : Nat
  deriving DecidableEq, Repr

structure PathResponseFrame where
  pathData : Nat
  deriving DecidableEq, Repr

/-- Every constructor of `ConnectionId` refuses or `CHECK`s a longer one. -/
structure ConnectionId where
  bytes : List UInt8
  size_le : bytes.length ≤ kMaxConnectionIdSize
  deriving DecidableEq

/-- `std::array<uint8_t, kStatelessResetTokenLength>`. -/
structure StatelessResetToken where
  bytes : List UInt8
  length_eq : bytes.length = kStatelessResetTokenLength
  deriving DecidableEq

structure NewConnectionIdFrame where
  sequenceNumber : Nat
  retirePriorTo : Nat
  connectionId : ConnectionId
  token : StatelessResetToken
  deriving DecidableEq

structure MaxStreamsFrame where
  maxStreams : Nat
  isForBidirectional : Bool
  deriving DecidableEq, Repr

structure RetireConnectionIdFrame where
  sequenceNumber : Nat
  deriving DecidableEq, Repr

/-- The fields are public, so `len` need not be the blob's length; the constructor sets it so
(`KnobFrame.make`). -/
structure KnobFrame where
  knobSpace : Nat
  id : Nat
  len : Nat
  blob : List UInt8
  deriving DecidableEq, Repr

def KnobFrame.make (knobSpace id : Nat) (blob : List UInt8) : KnobFrame :=
  { knobSpace, id, len := blob.length, blob }

structure AckFrequencyFrame where
  sequenceNumber : Nat
  packetTolerance : Nat
  updateMaxAckDelay : Nat
  reorderThreshold : Nat
  deriving DecidableEq, Repr

structure NewTokenFrame where
  token : List UInt8
  deriving DecidableEq, Repr

structure ReadNewTokenFrame where
  token : List UInt8
  deriving DecidableEq, Repr

structure WriteCryptoFrame where
  offset : Nat
  len : Nat
  deriving DecidableEq, Repr

structure ReadCryptoFrame where
  offset : Nat
  data : List UInt8
  deriving DecidableEq, Repr

structure RecvdPacketsTimestampsRange where
  gap : Nat
  timestampDeltaCount : Nat
  deltas : List Nat
  deriving DecidableEq, Repr

/-- Times are microseconds. The ack blocks are intervals kept in descending order. -/
structure WriteAckFrame where
  ackBlocks : List Interval := []
  ackDelay : Nat := 0
  frameType : FrameType := .ack
  maybeLatestRecvdPacketTime : Option Nat := none
  maybeLatestRecvdPacketNum : Option Nat := none
  recvdPacketsTimestampRanges : List RecvdPacketsTimestampsRange := []
  ecnECT0Count : UInt32 := 0
  ecnECT1Count : UInt32 := 0
  ecnCECount : UInt32 := 0
  deriving DecidableEq, Repr

/-- The ACK frame as the codec decodes it; the connection model's `Mvfst.ReadAckFrame` keeps the
fields ACK processing reads. -/
structure ReadAckFrame where
  largestAcked : Nat
  ackDelay : Nat := 0
  implicit : Bool := false
  /-- In descending order. -/
  ackBlocks : List AckBlock := []
  frameType : FrameType := .ack
  maybeLatestRecvdPacketTime : Option Nat := none
  maybeLatestRecvdPacketNum : Option Nat := none
  recvdPacketsTimestampRanges : List RecvdPacketsTimestampsRange := []
  ecnECT0Count : UInt32 := 0
  ecnECT1Count : UInt32 := 0
  ecnCECount : UInt32 := 0
  deriving DecidableEq, Repr

inductive QuicSimpleFrame where
  | stopSendingFrame (frame : StopSendingFrame)
  | pathChallengeFrame (frame : PathChallengeFrame)
  | pathResponseFrame (frame : PathResponseFrame)
  | newConnectionIdFrame (frame : NewConnectionIdFrame)
  | maxStreamsFrame (frame : MaxStreamsFrame)
  | retireConnectionIdFrame (frame : RetireConnectionIdFrame)
  | handshakeDoneFrame
  | knobFrame (frame : KnobFrame)
  | ackFrequencyFrame (frame : AckFrequencyFrame)
  | newTokenFrame (frame : NewTokenFrame)
  deriving DecidableEq

inductive QuicWriteFrame where
  | paddingFrame (frame : PaddingFrame)
  | rstStreamFrame (frame : RstStreamFrame)
  | connectionCloseFrame (frame : ConnectionCloseFrame)
  | maxDataFrame (frame : MaxDataFrame)
  | maxStreamDataFrame (frame : MaxStreamDataFrame)
  | dataBlockedFrame (frame : DataBlockedFrame)
  | streamDataBlockedFrame (frame : StreamDataBlockedFrame)
  | streamsBlockedFrame (frame : StreamsBlockedFrame)
  | writeAckFrame (frame : WriteAckFrame)
  | writeStreamFrame (frame : WriteStreamFrame)
  | writeCryptoFrame (frame : WriteCryptoFrame)
  | quicSimpleFrame (frame : QuicSimpleFrame)
  | pingFrame
  | noopFrame
  | datagramFrame (frame : DatagramFrame)
  | immediateAckFrame
  deriving DecidableEq

inductive QuicFrame where
  | paddingFrame (frame : PaddingFrame)
  | rstStreamFrame (frame : RstStreamFrame)
  | connectionCloseFrame (frame : ConnectionCloseFrame)
  | maxDataFrame (frame : MaxDataFrame)
  | maxStreamDataFrame (frame : MaxStreamDataFrame)
  | dataBlockedFrame (frame : DataBlockedFrame)
  | streamDataBlockedFrame (frame : StreamDataBlockedFrame)
  | streamsBlockedFrame (frame : StreamsBlockedFrame)
  | readAckFrame (frame : ReadAckFrame)
  | readStreamFrame (frame : ReadStreamFrame)
  | readCryptoFrame (frame : ReadCryptoFrame)
  | readNewTokenFrame (frame : ReadNewTokenFrame)
  | quicSimpleFrame (frame : QuicSimpleFrame)
  | pingFrame
  | noopFrame
  | datagramFrame (frame : DatagramFrame)
  | immediateAckFrame
  deriving DecidableEq

end Codec

end Mvfst
