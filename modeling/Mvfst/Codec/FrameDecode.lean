import Mvfst.Codec.Decode

/-!
# Decoding every frame

`parseFrame` of `codec/Decode.cpp` and the decoders it dispatches to, beside the ACK and STREAM
decoders of `Decode.lean`. `parseFrame` reads the frame's type from the front of the queue, trims
it, and hands the rest to the decoder of that type; a decoder reads through a
`ContiguousReadCursor` and `parseFrame` trims what it read, so the result is the frame and the
bytes after it. Every failure the decoders raise themselves is a `FRAME_ENCODING_ERROR` with the
source's message.

`CodecParameters` of `Decode.lean` leaves out `maybeAckReceiveTimestampsConfig`; the receive
timestamps decoder, the only code that reads it, takes it as an argument, and so does `parseFrame`.
-/

namespace Mvfst.Codec

open ContiguousReadCursor

/-- The part of `AckReceiveTimestampsConfig` the decoder reads. -/
structure AckReceiveTimestampsConfig where
  receiveTimestampsExponent : Nat := 3
  deriving DecidableEq, Repr

def kDefaultReceiveTimestampsExponent : UInt8 := 3

/-! ## Frames without a body, and PADDING -/

/-- A run of padding is read as one frame: when every byte left equals the next (`memcmp` of the
bytes with the bytes one further on), and the first is a zero, all of them are skipped. -/
def decodePaddingFrame (cursor : ContiguousReadCursor) :
    Except QuicError (PaddingFrame × ContiguousReadCursor) :=
  let paddingBytes := cursor.peekBytes
  match paddingBytes with
  | [] => .ok ({}, cursor)
  | firstByte :: following =>
    if firstByte ≠ 0 then .ok ({}, cursor)
    else if paddingBytes.dropLast = following then .ok ({}, cursor.skip paddingBytes.length)
    else .ok ({}, cursor)

/-! ## Frames of QUIC integers -/

def decodeRstStreamFrame (cursor : ContiguousReadCursor) (reliable : Bool) :
    Except QuicError (RstStreamFrame × ContiguousReadCursor) := do
  let (streamId, cursor) ← readQuicInteger cursor "Bad streamId"
  let (errorCode, cursor) ← readQuicInteger cursor "Cannot decode error code"
  let (finalSize, cursor) ← readQuicInteger cursor "Bad offset"
  let (reliableSize, cursor) ←
    if reliable then do
      let (reliableSize, cursor) ← readQuicInteger cursor "Bad value of reliable size"
      if reliableSize > finalSize then
        throw (frameEncodingError "Reliable size is greater than final size")
      pure (some reliableSize, cursor)
    else pure (none, cursor)
  pure (⟨streamId, errorCode, finalSize, reliableSize⟩, cursor)

def decodeStopSendingFrame (cursor : ContiguousReadCursor) :
    Except QuicError (StopSendingFrame × ContiguousReadCursor) := do
  let (streamId, cursor) ← readQuicInteger cursor "Bad streamId"
  let (errorCode, cursor) ← readQuicInteger cursor "Cannot decode error code"
  pure (⟨streamId, errorCode⟩, cursor)

def decodeMaxDataFrame (cursor : ContiguousReadCursor) :
    Except QuicError (MaxDataFrame × ContiguousReadCursor) := do
  let (maximumData, cursor) ← readQuicInteger cursor "Bad Max Data"
  pure (⟨maximumData⟩, cursor)

def decodeMaxStreamDataFrame (cursor : ContiguousReadCursor) :
    Except QuicError (MaxStreamDataFrame × ContiguousReadCursor) := do
  let (streamId, cursor) ← readQuicInteger cursor "Invalid streamId"
  let (offset, cursor) ← readQuicInteger cursor "Invalid offset"
  pure (⟨streamId, offset⟩, cursor)

/-- The two MAX_STREAMS decoders, which differ in their message and direction only. A count over
`kMaxMaxStreams` fails with the message of a missing one. -/
def decodeMaxStreamsFrame (message : String) (isBidirectional : Bool) (cursor : ContiguousReadCursor) :
    Except QuicError (MaxStreamsFrame × ContiguousReadCursor) :=
  match decodeQuicInteger cursor with
  | (some (streamCount, _), cursor) =>
    if streamCount.toNat > kMaxMaxStreams then .error (frameEncodingError message)
    else .ok (⟨streamCount.toNat, isBidirectional⟩, cursor)
  | (none, _) => .error (frameEncodingError message)

def decodeBiDiMaxStreamsFrame (cursor : ContiguousReadCursor) :
    Except QuicError (MaxStreamsFrame × ContiguousReadCursor) :=
  decodeMaxStreamsFrame "Invalid Bi-directional streamId" true cursor

def decodeUniMaxStreamsFrame (cursor : ContiguousReadCursor) :
    Except QuicError (MaxStreamsFrame × ContiguousReadCursor) :=
  decodeMaxStreamsFrame "Invalid Uni-directional streamId" false cursor

def decodeDataBlockedFrame (cursor : ContiguousReadCursor) :
    Except QuicError (DataBlockedFrame × ContiguousReadCursor) := do
  let (dataLimit, cursor) ← readQuicInteger cursor "Bad offset"
  pure (⟨dataLimit⟩, cursor)

def decodeStreamDataBlockedFrame (cursor : ContiguousReadCursor) :
    Except QuicError (StreamDataBlockedFrame × ContiguousReadCursor) := do
  let (streamId, cursor) ← readQuicInteger cursor "Bad streamId"
  let (dataLimit, cursor) ← readQuicInteger cursor "Bad offset"
  pure (⟨streamId, dataLimit⟩, cursor)

/-- The two STREAMS_BLOCKED decoders, which differ in their message and direction only. -/
def decodeStreamsBlockedFrame (message : String) (isBidirectional : Bool)
    (cursor : ContiguousReadCursor) : Except QuicError (StreamsBlockedFrame × ContiguousReadCursor) := do
  let (streamId, cursor) ← readQuicInteger cursor message
  pure (⟨streamId, isBidirectional⟩, cursor)

def decodeBiDiStreamsBlockedFrame (cursor : ContiguousReadCursor) :
    Except QuicError (StreamsBlockedFrame × ContiguousReadCursor) :=
  decodeStreamsBlockedFrame "Bad Bi-Directional streamId" true cursor

def decodeUniStreamsBlockedFrame (cursor : ContiguousReadCursor) :
    Except QuicError (StreamsBlockedFrame × ContiguousReadCursor) :=
  decodeStreamsBlockedFrame "Bad Uni-direcitonal streamId" false cursor

def decodeRetireConnectionIdFrame (cursor : ContiguousReadCursor) :
    Except QuicError (RetireConnectionIdFrame × ContiguousReadCursor) := do
  let (sequenceNum, cursor) ← readQuicInteger cursor "Bad sequence num"
  pure (⟨sequenceNum⟩, cursor)

def decodeAckFrequencyFrame (cursor : ContiguousReadCursor) :
    Except QuicError (AckFrequencyFrame × ContiguousReadCursor) := do
  let (sequenceNumber, cursor) ← readQuicInteger cursor "Bad sequence number"
  let (packetTolerance, cursor) ← readQuicInteger cursor "Bad packet tolerance"
  let (updateMaxAckDelay, cursor) ← readQuicInteger cursor "Bad update max ack delay"
  let (reorderThreshold, cursor) ← readQuicInteger cursor "Bad reorder threshold"
  pure (⟨sequenceNumber, packetTolerance, updateMaxAckDelay, reorderThreshold⟩, cursor)

/-! ## Frames that carry bytes -/

def decodeCryptoFrame (cursor : ContiguousReadCursor) :
    Except QuicError (ReadCryptoFrame × ContiguousReadCursor) := do
  let (offset, cursor) ← readQuicInteger cursor "Invalid offset"
  let (dataLength, cursor) ← readQuicInteger cursor "Invalid length"
  if cursor.remaining < dataLength then throw (frameEncodingError "Length mismatch")
  let (data, cursor) := cursor.pullAtMost dataLength
  if data.length < dataLength then throw (frameEncodingError "Failed to clone complete data")
  pure (⟨offset, data⟩, cursor)

def decodeNewTokenFrame (cursor : ContiguousReadCursor) :
    Except QuicError (ReadNewTokenFrame × ContiguousReadCursor) := do
  let (tokenLength, cursor) ← readQuicInteger cursor "Invalid length"
  if cursor.remaining < tokenLength then throw (frameEncodingError "Length mismatch")
  let (token, cursor) := cursor.pullAtMost tokenLength
  if token.length < tokenLength then throw (frameEncodingError "Failed to clone token")
  pure (⟨token⟩, cursor)

/-- The blob takes as many of the `len` bytes as are left; the constructor sets `len` to what it
took. -/
def decodeKnobFrame (cursor : ContiguousReadCursor) :
    Except QuicError (KnobFrame × ContiguousReadCursor) := do
  let (knobSpace, cursor) ← readQuicInteger cursor "Bad knob space"
  let (knobId, cursor) ← readQuicInteger cursor "Bad knob id"
  let (knobLen, cursor) ← readQuicInteger cursor "Bad knob len"
  let (knobBlob, cursor) := cursor.pullAtMost knobLen
  pure (KnobFrame.make knobSpace knobId knobBlob, cursor)

def decodePathChallengeFrame (cursor : ContiguousReadCursor) :
    Except QuicError (PathChallengeFrame × ContiguousReadCursor) :=
  match cursor.tryReadBE 8 with
  | some (pathData, cursor) => .ok (⟨pathData⟩, cursor)
  | none => .error (frameEncodingError "Not enough input bytes to read path challenge frame.")

def decodePathResponseFrame (cursor : ContiguousReadCursor) :
    Except QuicError (PathResponseFrame × ContiguousReadCursor) :=
  match cursor.tryReadBE 8 with
  | some (pathData, cursor) => .ok (⟨pathData⟩, cursor)
  | none => .error (frameEncodingError "Not enough input bytes to read path response frame.")

/-- `ConnectionId::create(cursor, len)`: its errors are internal ones. -/
def ConnectionId.create (cursor : ContiguousReadCursor) (len : Nat) :
    Except QuicError (ConnectionId × ContiguousReadCursor) :=
  if len = 0 then .ok (⟨[], Nat.zero_le _⟩, cursor)
  else if large : len > kMaxConnectionIdSize then
    .error ⟨.transport .internalError, "ConnectionId invalid size"⟩
  -- `tryPull` into the id's array
  else if cursor.canAdvance len then
    .ok (⟨cursor.remainingBytes.take len, (List.length_take_le _ _).trans (Nat.le_of_not_lt large)⟩,
      cursor.skip len)
  else .error ⟨.transport .internalError, "tryPull failed"⟩

def decodeNewConnectionIdFrame (cursor : ContiguousReadCursor) :
    Except QuicError (NewConnectionIdFrame × ContiguousReadCursor) := do
  let (sequenceNumber, cursor) ← readQuicInteger cursor "Bad sequence"
  let (retirePriorTo, cursor) ← readQuicInteger cursor "Bad retire prior to"
  let some (connIdLen, cursor) := cursor.tryReadBE 1
    | throw (frameEncodingError "Not enough input bytes to read Dest. ConnectionId")
  if cursor.remaining < connIdLen then throw (frameEncodingError "Bad connid")
  if connIdLen > kMaxConnectionIdSize then throw (frameEncodingError "ConnectionId invalid length")
  let (connId, cursor) ← ConnectionId.create cursor connIdLen
  let (token, cursor) := cursor.pullAtMost kStatelessResetTokenLength
  -- `pullAtMost` reads at most the sixteen bytes, so reading fewer is reading other than sixteen
  if read : token.length = kStatelessResetTokenLength then
    pure (⟨sequenceNumber, retirePriorTo, connId, ⟨token, read⟩⟩, cursor)
  else throw (frameEncodingError "Failed to read StatelessResetToken")

/-- The reason phrase, read alike by both close decoders: a length of at most
`kMaxReasonPhraseLength`, then as many of its bytes as are left, so that a short frame still
decodes. -/
def decodeReasonPhrase (cursor : ContiguousReadCursor) :
    Except QuicError (List UInt8 × ContiguousReadCursor) :=
  match decodeQuicInteger cursor with
  | (some (reasonPhraseLength, _), cursor) =>
    if reasonPhraseLength.toNat > kMaxReasonPhraseLength then
      .error (frameEncodingError "Bad reason phrase length")
    else
      let available := min cursor.peekBytes.length reasonPhraseLength.toNat
      .ok (cursor.peekBytes.take available, cursor.skip available)
  | (none, _) => .error (frameEncodingError "Bad reason phrase length")

/-- The frame type that triggered the close must be a one-byte QUIC integer. -/
def decodeConnectionCloseFrame (cursor : ContiguousReadCursor) :
    Except QuicError (ConnectionCloseFrame × ContiguousReadCursor) := do
  let (errorCode, cursor) ← readQuicInteger cursor "Failed to parse error code."
  let (triggeringFrameType, cursor) ←
    match decodeQuicInteger cursor with
    | (some (frameTypeField, 1), cursor) => pure (frameTypeField.toNat, cursor)
    | _ => throw (frameEncodingError "Bad connection close triggering frame type value")
  let (reasonPhrase, cursor) ← decodeReasonPhrase cursor
  pure (⟨.transport errorCode, reasonPhrase, triggeringFrameType⟩, cursor)

/-- An application close carries no frame type; the frame's is left at PADDING. -/
def decodeApplicationClose (cursor : ContiguousReadCursor) :
    Except QuicError (ConnectionCloseFrame × ContiguousReadCursor) := do
  let (errorCode, cursor) ← readQuicInteger cursor "Failed to parse error code."
  let (reasonPhrase, cursor) ← decodeReasonPhrase cursor
  pure ({ errorCode := .application errorCode, reasonPhrase }, cursor)

/-- The frame `DatagramFrame(length, data)` builds once its `CHECK_EQ` holds. -/
def DatagramFrame.ofData (data : List UInt8) : DatagramFrame := ⟨data.length, data, rfl⟩

/-- Without a length the datagram is the rest of the queue's front buffer. `splitAtMost(length)`
then returns exactly `length` bytes, as the decoder has checked they are there, so the
constructor's `CHECK_EQ` holds. -/
def decodeDatagramFrame (queue : List UInt8) (hasLen : Bool) :
    Except QuicError (DatagramFrame × List UInt8) := do
  let cursor : ContiguousReadCursor := ⟨queue, 0⟩
  let (length, queue) ←
    if hasLen then do
      let (length, cursor) ← readQuicInteger cursor "Invalid datagram len"
      if cursor.remaining < length then throw (frameEncodingError "Invalid datagram frame")
      pure (length, queue.drop cursor.position)
    else pure (cursor.remaining, queue)
  pure (DatagramFrame.ofData (queue.take length), queue.drop length)

/-! ## ACK frames with more fields -/

/-- The counters are `uint32_t` and keep the low 32 bits of each value. -/
def decodeEcnCountsInAck (frame : ReadAckFrame) (cursor : ContiguousReadCursor) :
    Except QuicError (ReadAckFrame × ContiguousReadCursor) :=
  let (ect0, cursor) := decodeQuicInteger cursor
  let (ect1, cursor) := decodeQuicInteger cursor
  let (ce, cursor) := decodeQuicInteger cursor
  match ect0, ect1, ce with
  | some (ect0, _), some (ect1, _), some (ce, _) =>
    .ok ({ frame with ecnECT0Count := ect0.toUInt32, ecnECT1Count := ect1.toUInt32,
                      ecnCECount := ce.toUInt32 }, cursor)
  | _, _, _ => .error (frameEncodingError "Bad ECN value")

/-- The inner loop: the `count` deltas of one range, each scaled by the exponent. -/
def decodeTimestampDeltas (exponent : UInt8) :
    Nat → ContiguousReadCursor → Except QuicError (List Nat × ContiguousReadCursor)
  | 0, cursor => .ok ([], cursor)
  | count + 1, cursor => do
    let (delta, cursor) ← readQuicInteger cursor "Bad receive timestamps delta"
    let adjustedDelta ← convertEncodedDurationToMicroseconds exponent (UInt64.ofNat delta)
    let (deltas, cursor) ← decodeTimestampDeltas exponent count cursor
    pure (adjustedDelta.toNat :: deltas, cursor)

/-- The outer loop: `count` ranges, each a gap, a delta count and the deltas. -/
def decodeTimestampRanges (exponent : UInt8) :
    Nat → ContiguousReadCursor → Except QuicError (List RecvdPacketsTimestampsRange × ContiguousReadCursor)
  | 0, cursor => .ok ([], cursor)
  | count + 1, cursor => do
    let (gap, cursor) ← readQuicInteger cursor "Bad receive timestamps gap"
    let (timestampDeltaCount, cursor) ← readQuicInteger cursor "Bad receive timestamps block length"
    let (deltas, cursor) ← decodeTimestampDeltas exponent timestampDeltaCount cursor
    let (ranges, cursor) ← decodeTimestampRanges exponent count cursor
    pure (⟨gap, timestampDeltaCount, deltas⟩ :: ranges, cursor)

/-- The exponent of the configuration, narrowed to `uint8_t`, or the default one. -/
def receiveTimestampsExponentToUse (maybeAckReceiveTimestampsConfig : Option AckReceiveTimestampsConfig) :
    UInt8 :=
  match maybeAckReceiveTimestampsConfig with
  | some config => UInt8.ofNat config.receiveTimestampsExponent
  | none => kDefaultReceiveTimestampsExponent

/-- The latest packet's time is kept as sent, unscaled. -/
def decodeReceiveTimestampsInAck (frame : ReadAckFrame) (cursor : ContiguousReadCursor)
    (maybeAckReceiveTimestampsConfig : Option AckReceiveTimestampsConfig) :
    Except QuicError (ReadAckFrame × ContiguousReadCursor) := do
  let (latestRecvdPacketNum, cursor) ← readQuicInteger cursor "Bad latest received packet number"
  let (latestRecvdPacketTimeDelta, cursor) ← readQuicInteger cursor "Bad receive packet timestamp delta"
  let (timeStampRangeCount, cursor) ← readQuicInteger cursor "Bad receive timestamps range count"
  let (ranges, cursor) ← decodeTimestampRanges
    (receiveTimestampsExponentToUse maybeAckReceiveTimestampsConfig) timeStampRangeCount cursor
  pure ({ frame with maybeLatestRecvdPacketNum := some latestRecvdPacketNum,
                     maybeLatestRecvdPacketTime := some latestRecvdPacketTimeDelta,
                     recvdPacketsTimestampRanges := frame.recvdPacketsTimestampRanges ++ ranges }, cursor)

def decodeAckFrameWithECN (cursor : ContiguousReadCursor) (headerForm : HeaderForm)
    (params : CodecParameters) : Except QuicError (ReadAckFrame × ContiguousReadCursor) := do
  let (readAckFrame, cursor) ← decodeAckFrame cursor headerForm params
  decodeEcnCountsInAck { readAckFrame with frameType := .ackEcn } cursor

def decodeAckFrameWithReceivedTimestamps (cursor : ContiguousReadCursor) (headerForm : HeaderForm)
    (params : CodecParameters) (maybeAckReceiveTimestampsConfig : Option AckReceiveTimestampsConfig)
    (frameType : FrameType) : Except QuicError (ReadAckFrame × ContiguousReadCursor) := do
  let (frame, cursor) ← decodeAckFrame cursor headerForm params frameType
  decodeReceiveTimestampsInAck { frame with frameType } cursor maybeAckReceiveTimestampsConfig

def kEcnCounts : Nat := 0x01
def kReceiveTimestamps : Nat := 0x02

/-- The features the frame says it carries must be among those negotiated; ECN counts come before
the timestamps. -/
def decodeAckExtendedFrame (cursor : ContiguousReadCursor) (headerForm : HeaderForm)
    (params : CodecParameters) (maybeAckReceiveTimestampsConfig : Option AckReceiveTimestampsConfig) :
    Except QuicError (ReadAckFrame × ContiguousReadCursor) := do
  let (frame, cursor) ← decodeAckFrame cursor headerForm params .ackExtended
  let (includedFeatures, cursor) ← readQuicInteger cursor "Bad extended ACK features field"
  if includedFeatures ||| params.extendedAckFeatures ≠ params.extendedAckFeatures then
    throw (frameEncodingError "Extended ACK has unexpected features")
  let (frame, cursor) ←
    if includedFeatures &&& kEcnCounts ≠ 0 then decodeEcnCountsInAck frame cursor
    else pure (frame, cursor)
  if includedFeatures &&& kReceiveTimestamps ≠ 0 then
    decodeReceiveTimestampsInAck frame cursor maybeAckReceiveTimestampsConfig
  else pure (frame, cursor)

/-! ## The dispatch -/

/-- A decoder's frame as a `QuicFrame`, with the queue trimmed to what the cursor left. -/
def decodedAs {α : Type} (wrap : α → QuicFrame) (decoded : Except QuicError (α × ContiguousReadCursor)) :
    Except QuicError (QuicFrame × List UInt8) :=
  decoded.map fun (frame, cursor) => (wrap frame, cursor.remainingBytes)

/-- The switch of `parseFrame`, on the queue after the frame's type. -/
def decodeFrameOfType (frameType : FrameType) (frameTypeInt : UInt64) (queue : List UInt8)
    (headerForm : HeaderForm) (params : CodecParameters)
    (maybeAckReceiveTimestampsConfig : Option AckReceiveTimestampsConfig) :
    Except QuicError (QuicFrame × List UInt8) :=
  let cursor : ContiguousReadCursor := ⟨queue, 0⟩
  let stream (isGroupFrame : Bool) :=
    (decodeStreamFrame queue ⟨frameTypeInt.toUInt8⟩ isGroupFrame).map fun ((frame, _), rest) =>
      (QuicFrame.readStreamFrame frame, rest)
  match frameType with
  | .padding => decodedAs .paddingFrame (decodePaddingFrame cursor)
  | .ping => .ok (.pingFrame, queue)
  | .ack => decodedAs .readAckFrame (decodeAckFrame cursor headerForm params)
  | .ackEcn => decodedAs .readAckFrame (decodeAckFrameWithECN cursor headerForm params)
  | .rstStream => decodedAs .rstStreamFrame (decodeRstStreamFrame cursor false)
  | .rstStreamAt => decodedAs .rstStreamFrame (decodeRstStreamFrame cursor true)
  | .stopSending =>
    decodedAs (.quicSimpleFrame ∘ .stopSendingFrame) (decodeStopSendingFrame cursor)
  | .cryptoFrame => decodedAs .readCryptoFrame (decodeCryptoFrame cursor)
  | .newToken => decodedAs .readNewTokenFrame (decodeNewTokenFrame cursor)
  | .stream | .streamFin | .streamLen | .streamLenFin
  | .streamOff | .streamOffFin | .streamOffLen | .streamOffLenFin => stream false
  | .groupStream | .groupStreamFin | .groupStreamLen | .groupStreamLenFin
  | .groupStreamOff | .groupStreamOffFin | .groupStreamOffLen | .groupStreamOffLenFin => stream true
  | .maxData => decodedAs .maxDataFrame (decodeMaxDataFrame cursor)
  | .maxStreamData => decodedAs .maxStreamDataFrame (decodeMaxStreamDataFrame cursor)
  | .maxStreamsBidi =>
    decodedAs (.quicSimpleFrame ∘ .maxStreamsFrame) (decodeBiDiMaxStreamsFrame cursor)
  | .maxStreamsUni =>
    decodedAs (.quicSimpleFrame ∘ .maxStreamsFrame) (decodeUniMaxStreamsFrame cursor)
  | .dataBlocked => decodedAs .dataBlockedFrame (decodeDataBlockedFrame cursor)
  | .streamDataBlocked => decodedAs .streamDataBlockedFrame (decodeStreamDataBlockedFrame cursor)
  | .streamsBlockedBidi => decodedAs .streamsBlockedFrame (decodeBiDiStreamsBlockedFrame cursor)
  | .streamsBlockedUni => decodedAs .streamsBlockedFrame (decodeUniStreamsBlockedFrame cursor)
  | .newConnectionId =>
    decodedAs (.quicSimpleFrame ∘ .newConnectionIdFrame) (decodeNewConnectionIdFrame cursor)
  | .retireConnectionId =>
    decodedAs (.quicSimpleFrame ∘ .retireConnectionIdFrame) (decodeRetireConnectionIdFrame cursor)
  | .pathChallenge =>
    decodedAs (.quicSimpleFrame ∘ .pathChallengeFrame) (decodePathChallengeFrame cursor)
  | .pathResponse =>
    decodedAs (.quicSimpleFrame ∘ .pathResponseFrame) (decodePathResponseFrame cursor)
  | .connectionClose => decodedAs .connectionCloseFrame (decodeConnectionCloseFrame cursor)
  | .connectionCloseAppErr => decodedAs .connectionCloseFrame (decodeApplicationClose cursor)
  | .handshakeDone => .ok (.quicSimpleFrame .handshakeDoneFrame, queue)
  | .datagram => (decodeDatagramFrame queue false).map fun (frame, rest) => (.datagramFrame frame, rest)
  | .datagramLen => (decodeDatagramFrame queue true).map fun (frame, rest) => (.datagramFrame frame, rest)
  | .knob => decodedAs (.quicSimpleFrame ∘ .knobFrame) (decodeKnobFrame cursor)
  | .ackFrequency =>
    decodedAs (.quicSimpleFrame ∘ .ackFrequencyFrame) (decodeAckFrequencyFrame cursor)
  | .immediateAck => .ok (.immediateAckFrame, queue)
  | .ackReceiveTimestamps =>
    decodedAs .readAckFrame (decodeAckFrameWithReceivedTimestamps cursor headerForm params
      maybeAckReceiveTimestampsConfig .ackReceiveTimestamps)
  | .ackExtended =>
    decodedAs .readAckFrame (decodeAckExtendedFrame cursor headerForm params maybeAckReceiveTimestampsConfig)

/-- The frame at the front of the queue, and the bytes after it. -/
def parseFrame (queue : List UInt8) (headerForm : HeaderForm) (params : CodecParameters)
    (maybeAckReceiveTimestampsConfig : Option AckReceiveTimestampsConfig) :
    Except QuicError (QuicFrame × List UInt8) :=
  match decodeQuicInteger ⟨queue, 0⟩ with
  | (none, _) => .error (frameEncodingError "Invalid frame-type field")
  | (some (frameTypeInt, _), cursor) =>
    let queue := queue.drop cursor.position
    match FrameType.ofValue? frameTypeInt.toNat with
    | some frameType =>
      decodeFrameOfType frameType frameTypeInt queue headerForm params maybeAckReceiveTimestampsConfig
    | none => .error (frameEncodingError ("Unknown frame, type=" ++ toString frameTypeInt))

end Mvfst.Codec
