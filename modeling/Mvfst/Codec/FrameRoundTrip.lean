import Mvfst.Codec.FrameDecode
import Mvfst.Codec.FrameWrite

/-!
# Frames written and read back

What `parseFrame` makes of the bytes `writeFrame` writes. The writer puts down a frame's image
(`writeFrame_body`); on an image followed by any bytes the reader returns the frame the peer
receives and the bytes after it, when the frame's integers are QUIC integers and it passes the
reader's own checks. One of those checks is not the writer's: the reader takes the frame type a
transport CONNECTION_CLOSE names only as a one-byte QUIC integer, while the writer writes any
frame type, and the types from 64 up take two bytes or more.
-/

namespace Mvfst.Codec

open BigEndian

/-- The frame the peer's `parseFrame` returns for a frame written: the same fields, a NEW_TOKEN
frame in the reader's own type, an application close without the frame type it does not carry,
and PADDING as a single frame. -/
def QuicWriteFrame.received : QuicWriteFrame → QuicFrame
  | .paddingFrame _ => .paddingFrame {}
  | .rstStreamFrame frame => .rstStreamFrame frame
  | .connectionCloseFrame frame =>
    match frame.errorCode with
    | .transport _ => .connectionCloseFrame frame
    | .application _ => .connectionCloseFrame { frame with closingFrameType := FrameType.padding.value }
  | .maxDataFrame frame => .maxDataFrame frame
  | .maxStreamDataFrame frame => .maxStreamDataFrame frame
  | .dataBlockedFrame frame => .dataBlockedFrame frame
  | .streamDataBlockedFrame frame => .streamDataBlockedFrame frame
  | .streamsBlockedFrame frame => .streamsBlockedFrame frame
  | .quicSimpleFrame (.newTokenFrame frame) => .readNewTokenFrame ⟨frame.token⟩
  | .quicSimpleFrame frame => .quicSimpleFrame frame
  | .pingFrame => .pingFrame
  | .datagramFrame frame => .datagramFrame frame
  | .immediateAckFrame => .immediateAckFrame
  | .writeAckFrame _ | .writeStreamFrame _ | .writeCryptoFrame _ | .noopFrame => .noopFrame

def QuicWriteFrame.isPadding : QuicWriteFrame → Bool
  | .paddingFrame _ => true
  | _ => false

/-- Every integer field of the frame is a QUIC integer, and the frame passes the reader's checks:
a stream count of at most `kMaxMaxStreams`, a KNOB length that is its blob's. -/
def QuicSimpleFrame.Encodable : QuicSimpleFrame → Prop
  | .stopSendingFrame frame => frame.streamId < 2 ^ 62 ∧ frame.errorCode < 2 ^ 62
  | .pathChallengeFrame frame => frame.pathData < 2 ^ 64
  | .pathResponseFrame frame => frame.pathData < 2 ^ 64
  | .newConnectionIdFrame frame => frame.sequenceNumber < 2 ^ 62 ∧ frame.retirePriorTo < 2 ^ 62
  | .maxStreamsFrame frame => frame.maxStreams ≤ kMaxMaxStreams
  | .retireConnectionIdFrame frame => frame.sequenceNumber < 2 ^ 62
  | .handshakeDoneFrame => True
  | .knobFrame frame =>
    frame.knobSpace < 2 ^ 62 ∧ frame.id < 2 ^ 62 ∧ frame.len = frame.blob.length ∧ frame.len < 2 ^ 62
  | .ackFrequencyFrame frame =>
    frame.sequenceNumber < 2 ^ 62 ∧ frame.packetTolerance < 2 ^ 62 ∧ frame.updateMaxAckDelay < 2 ^ 62 ∧
      frame.reorderThreshold < 2 ^ 62
  | .newTokenFrame frame => frame.token.length < 2 ^ 62

/-- As `QuicSimpleFrame.Encodable`, and a reliable size within the final size, a reason phrase of
at most `kMaxReasonPhraseLength` bytes, and the frame type a transport close names below 64.
ACK, STREAM and CRYPTO frames are written elsewhere. -/
def QuicWriteFrame.Encodable : QuicWriteFrame → Prop
  | .paddingFrame _ | .pingFrame | .immediateAckFrame => True
  | .rstStreamFrame frame =>
    frame.streamId < 2 ^ 62 ∧ frame.errorCode < 2 ^ 62 ∧ frame.finalSize < 2 ^ 62 ∧
      ∀ reliableSize ∈ frame.reliableSize, reliableSize ≤ frame.finalSize
  | .connectionCloseFrame frame =>
    frame.errorCode.value < 2 ^ 62 ∧ frame.reasonPhrase.length ≤ kMaxReasonPhraseLength ∧
      ∀ code, frame.errorCode = .transport code → frame.closingFrameType < 64
  | .maxDataFrame frame => frame.maximumData < 2 ^ 62
  | .maxStreamDataFrame frame => frame.streamId < 2 ^ 62 ∧ frame.maximumData < 2 ^ 62
  | .dataBlockedFrame frame => frame.dataLimit < 2 ^ 62
  | .streamDataBlockedFrame frame => frame.streamId < 2 ^ 62 ∧ frame.dataLimit < 2 ^ 62
  | .streamsBlockedFrame frame => frame.streamLimit < 2 ^ 62
  | .quicSimpleFrame frame => frame.Encodable
  | .datagramFrame frame => frame.length < 2 ^ 62
  | .writeAckFrame _ | .writeStreamFrame _ | .writeCryptoFrame _ | .noopFrame => False

theorem QuicWriteFrame.Encodable.wellFormed {frame : QuicWriteFrame} (encodable : frame.Encodable) :
    frame.WellFormed := by
  match frame, encodable with
  | .quicSimpleFrame (.knobFrame _), ⟨_, _, length, small⟩ => exact ⟨length, by omega⟩
  | .quicSimpleFrame (.newTokenFrame frame), small =>
    exact Nat.lt_trans (show frame.token.length < 2 ^ 62 from small) (by norm_num)
  | .quicSimpleFrame (.stopSendingFrame _), _ | .quicSimpleFrame (.pathChallengeFrame _), _
  | .quicSimpleFrame (.pathResponseFrame _), _ | .quicSimpleFrame (.newConnectionIdFrame _), _
  | .quicSimpleFrame (.maxStreamsFrame _), _ | .quicSimpleFrame (.retireConnectionIdFrame _), _
  | .quicSimpleFrame .handshakeDoneFrame, _ | .quicSimpleFrame (.ackFrequencyFrame _), _
  | .paddingFrame _, _ | .pingFrame, _ | .immediateAckFrame, _ | .rstStreamFrame _, _
  | .connectionCloseFrame _, _ | .maxDataFrame _, _ | .maxStreamDataFrame _, _ | .dataBlockedFrame _, _
  | .streamDataBlockedFrame _, _ | .streamsBlockedFrame _, _ | .datagramFrame _, _ => trivial

/-! ## Reading the image -/

theorem FrameType.value_lt (frameType : FrameType) : frameType.value < 2 ^ 62 := by
  cases frameType <;> decide

/-- On a frame type's shortest encoding, `parseFrame` hands the rest to that type's decoder. -/
theorem parseFrame_fieldBytes (frameType : FrameType) (body : List UInt8) (headerForm : HeaderForm)
    (params : CodecParameters) (config : Option AckReceiveTimestampsConfig) :
    parseFrame (fieldBytes frameType.value ++ body) headerForm params config =
      decodeFrameOfType frameType (UInt64.ofNat frameType.value) body headerForm params config := by
  have small := frameType.value_lt
  unfold parseFrame
  rw [fieldBytes, QuicInteger.decodeQuicInteger_image (QuicInteger.ofNat_fits small)]
  simp only [Nat.zero_add, List.drop_left, QuicInteger.ofNat_value_toNat (by omega : frameType.value < 2 ^ 64),
    FrameType.ofValue?_value]
  rfl

section Readers

variable (frameTypeInt : UInt64) (headerForm : HeaderForm) (params : CodecParameters)
  (config : Option AckReceiveTimestampsConfig)

theorem decodeFrameOfType_padding {rest : List UInt8} (apart : rest.head? ≠ some 0) :
    decodeFrameOfType .padding frameTypeInt rest headerForm params config = .ok (.paddingFrame {}, rest) := by
  cases rest with
  | nil => rfl
  | cons byte following =>
    have nonzero : byte ≠ 0 := fun zero => apart (by rw [zero]; rfl)
    simp [decodeFrameOfType, decodedAs, decodePaddingFrame, ContiguousReadCursor.peekBytes, nonzero]

theorem decodeQuicInteger_fieldBytes {value : Nat} (small : value < 2 ^ 62) (rest : List UInt8)
    (position : Nat) :
    decodeQuicInteger ⟨fieldBytes value ++ rest, position⟩ =
      (some (UInt64.ofNat value, (fieldBytes value).length), ⟨rest, position + (fieldBytes value).length⟩) :=
  QuicInteger.decodeQuicInteger_image (QuicInteger.ofNat_fits small) rest position

theorem fieldBytes_length_eq_one {value : Nat} (small : value < 64) : (fieldBytes value).length = 1 := by
  rw [fieldBytes, QuicInteger.image_length_eq_one_iff (QuicInteger.ofNat_fits (by omega)),
    UInt64.le_iff_toNat_le, QuicInteger.ofNat_value_toNat (by omega)]
  change value ≤ 63
  omega

theorem decodeReasonPhrase_image {reasonPhrase : List UInt8} (short : reasonPhrase.length ≤ kMaxReasonPhraseLength)
    (rest : List UInt8) (position : Nat) :
    decodeReasonPhrase ⟨fieldBytes reasonPhrase.length ++ (reasonPhrase ++ rest), position⟩ =
      .ok (reasonPhrase, ⟨rest, position + (fieldBytes reasonPhrase.length).length + reasonPhrase.length⟩) := by
  have small : reasonPhrase.length < 2 ^ 62 := lt_of_le_of_lt short (by decide)
  unfold decodeReasonPhrase
  rw [decodeQuicInteger_fieldBytes small]
  simp [UInt64.toNat_ofNat_of_lt' (by omega : reasonPhrase.length < 2 ^ 64),
    show ¬ kMaxReasonPhraseLength < reasonPhrase.length by omega, ContiguousReadCursor.peekBytes,
    ContiguousReadCursor.skip, Nat.add_assoc]

theorem ConnectionId.create_bytes (connId : ConnectionId) (rest : List UInt8) (position : Nat) :
    ConnectionId.create ⟨connId.bytes ++ rest, position⟩ connId.bytes.length =
      .ok (connId, ⟨rest, position + connId.bytes.length⟩) := by
  obtain ⟨bytes, size_le⟩ := connId
  unfold ConnectionId.create
  by_cases empty : bytes.length = 0
  · obtain rfl := List.eq_nil_of_length_eq_zero empty
    rfl
  · rw [if_neg empty, dif_neg (Nat.not_lt.mpr size_le)]
    simp [ContiguousReadCursor.canAdvance, ContiguousReadCursor.remaining, ContiguousReadCursor.skip]

end Readers

/-- On a frame's image, followed by any bytes, the reader returns the frame the peer receives and
the bytes after the image. A PADDING frame must not be followed by a zero: the reader takes a run
of zeros as one PADDING frame. -/
theorem parseFrame_image {frame : QuicWriteFrame} (encodable : frame.Encodable) {rest : List UInt8}
    (apart : frame.isPadding = true → rest.head? ≠ some 0) (headerForm : HeaderForm)
    (params : CodecParameters) (config : Option AckReceiveTimestampsConfig) :
    parseFrame (frame.image ++ rest) headerForm params config = .ok (frame.received, rest) := by
  cases frame
  case paddingFrame =>
    rw [QuicWriteFrame.image, parseFrame_fieldBytes]
    exact decodeFrameOfType_padding _ _ _ _ (apart rfl)
  case rstStreamFrame frame =>
    obtain ⟨streamId, errorCode, finalSize, reliableSize⟩ := frame
    obtain ⟨streamIdSmall, errorSmall, finalSmall, within⟩ := encodable
    cases reliableSize with
    | none =>
      simp [QuicWriteFrame.image, QuicWriteFrame.received, parseFrame_fieldBytes, decodeFrameOfType,
        decodedAs, decodeRstStreamFrame, readQuicInteger_fieldBytes streamIdSmall,
        readQuicInteger_fieldBytes errorSmall, readQuicInteger_fieldBytes finalSmall]
    | some reliable =>
      have below : reliable ≤ finalSize := within reliable rfl
      simp [QuicWriteFrame.image, QuicWriteFrame.received, parseFrame_fieldBytes, decodeFrameOfType,
        decodedAs, decodeRstStreamFrame, readQuicInteger_fieldBytes streamIdSmall,
        readQuicInteger_fieldBytes errorSmall, readQuicInteger_fieldBytes finalSmall,
        readQuicInteger_fieldBytes (lt_of_le_of_lt below finalSmall), Nat.not_lt.mpr below]
  case connectionCloseFrame frame =>
    obtain ⟨errorCode, reasonPhrase, closingFrameType⟩ := frame
    obtain ⟨codeSmall, short, oneByte⟩ := encodable
    have short : reasonPhrase.length ≤ kMaxReasonPhraseLength := short
    cases errorCode with
    | transport code =>
      have typeByte : closingFrameType < 64 := oneByte code rfl
      simp [QuicWriteFrame.image, QuicWriteFrame.received, parseFrame_fieldBytes, decodeFrameOfType,
        decodedAs, decodeConnectionCloseFrame, readQuicInteger_fieldBytes (show code < 2 ^ 62 from codeSmall),
        decodeQuicInteger_fieldBytes (show closingFrameType < 2 ^ 62 by omega), fieldBytes_length_eq_one typeByte,
        UInt64.toNat_ofNat_of_lt' (show closingFrameType < 2 ^ 64 by omega), decodeReasonPhrase_image short]
    | application code =>
      simp [QuicWriteFrame.image, QuicWriteFrame.received, parseFrame_fieldBytes, decodeFrameOfType,
        decodedAs, decodeApplicationClose, readQuicInteger_fieldBytes (show code < 2 ^ 62 from codeSmall),
        decodeReasonPhrase_image short]
  case maxDataFrame frame =>
    simp [QuicWriteFrame.image, QuicWriteFrame.received, parseFrame_fieldBytes, decodeFrameOfType,
      decodedAs, decodeMaxDataFrame, readQuicInteger_fieldBytes (show frame.maximumData < 2 ^ 62 from encodable)]
  case maxStreamDataFrame frame =>
    obtain ⟨streamIdSmall, maximumSmall⟩ := encodable
    simp [QuicWriteFrame.image, QuicWriteFrame.received, parseFrame_fieldBytes, decodeFrameOfType,
      decodedAs, decodeMaxStreamDataFrame, readQuicInteger_fieldBytes streamIdSmall,
      readQuicInteger_fieldBytes maximumSmall]
  case dataBlockedFrame frame =>
    simp [QuicWriteFrame.image, QuicWriteFrame.received, parseFrame_fieldBytes, decodeFrameOfType,
      decodedAs, decodeDataBlockedFrame, readQuicInteger_fieldBytes (show frame.dataLimit < 2 ^ 62 from encodable)]
  case streamDataBlockedFrame frame =>
    obtain ⟨streamIdSmall, limitSmall⟩ := encodable
    simp [QuicWriteFrame.image, QuicWriteFrame.received, parseFrame_fieldBytes, decodeFrameOfType,
      decodedAs, decodeStreamDataBlockedFrame, readQuicInteger_fieldBytes streamIdSmall,
      readQuicInteger_fieldBytes limitSmall]
  case streamsBlockedFrame frame =>
    obtain ⟨streamLimit, isForBidirectional⟩ := frame
    have small : streamLimit < 2 ^ 62 := encodable
    cases isForBidirectional <;>
      simp [QuicWriteFrame.image, QuicWriteFrame.received, parseFrame_fieldBytes, decodeFrameOfType,
        decodedAs, decodeBiDiStreamsBlockedFrame, decodeUniStreamsBlockedFrame, decodeStreamsBlockedFrame,
        readQuicInteger_fieldBytes small]
  case pingFrame => simp [QuicWriteFrame.image, QuicWriteFrame.received, parseFrame_fieldBytes, decodeFrameOfType]
  case immediateAckFrame =>
    simp [QuicWriteFrame.image, QuicWriteFrame.received, parseFrame_fieldBytes, decodeFrameOfType]
  case datagramFrame frame =>
    obtain ⟨length, data, rfl⟩ := frame
    have small : data.length < 2 ^ 62 := encodable
    simp [QuicWriteFrame.image, QuicWriteFrame.received, parseFrame_fieldBytes, decodeFrameOfType,
      decodeDatagramFrame, readQuicInteger_fieldBytes small, ContiguousReadCursor.remaining, DatagramFrame.ofData]
  case quicSimpleFrame frame =>
    cases frame
    case stopSendingFrame frame =>
      obtain ⟨streamIdSmall, errorSmall⟩ := encodable
      simp [QuicWriteFrame.image, QuicSimpleFrame.image, QuicWriteFrame.received, parseFrame_fieldBytes,
        decodeFrameOfType, decodedAs, decodeStopSendingFrame, readQuicInteger_fieldBytes streamIdSmall,
        readQuicInteger_fieldBytes errorSmall]
    case pathChallengeFrame frame =>
      have small : frame.pathData < 256 ^ 8 := encodable
      simp [QuicWriteFrame.image, QuicSimpleFrame.image, QuicWriteFrame.received, parseFrame_fieldBytes,
        decodeFrameOfType, decodedAs, decodePathChallengeFrame, ContiguousReadCursor.tryReadBE_toBytes 8 _ small]
    case pathResponseFrame frame =>
      have small : frame.pathData < 256 ^ 8 := encodable
      simp [QuicWriteFrame.image, QuicSimpleFrame.image, QuicWriteFrame.received, parseFrame_fieldBytes,
        decodeFrameOfType, decodedAs, decodePathResponseFrame, ContiguousReadCursor.tryReadBE_toBytes 8 _ small]
    case newConnectionIdFrame frame =>
      obtain ⟨sequenceNumber, retirePriorTo, connId, ⟨token, tokenLength⟩⟩ := frame
      obtain ⟨sequenceSmall, retireSmall⟩ := encodable
      have sizeSmall : connId.bytes.length < 256 ^ 1 := lt_of_le_of_lt connId.size_le (by decide)
      have within : ¬ connId.bytes.length > kMaxConnectionIdSize := Nat.not_lt.mpr connId.size_le
      -- the decoder pulls the token by its fixed length, which is the length of the token written
      have pulled (position : Nat) : (⟨token ++ rest, position⟩ : ContiguousReadCursor).pullAtMost
          kStatelessResetTokenLength = (token, ⟨rest, position + token.length⟩) := by
        rw [← tokenLength]
        exact ContiguousReadCursor.pullAtMost_append token rest position
      simp [QuicWriteFrame.image, QuicSimpleFrame.image, QuicWriteFrame.received, parseFrame_fieldBytes,
        decodeFrameOfType, decodedAs, decodeNewConnectionIdFrame,
        readQuicInteger_fieldBytes sequenceSmall, readQuicInteger_fieldBytes retireSmall,
        ContiguousReadCursor.tryReadBE_toBytes 1 _ sizeSmall, ContiguousReadCursor.remaining, within,
        ConnectionId.size, ConnectionId.create_bytes, pulled, tokenLength]
    case maxStreamsFrame frame =>
      obtain ⟨maxStreams, isForBidirectional⟩ := frame
      have within : maxStreams ≤ kMaxMaxStreams := encodable
      have small : maxStreams < 2 ^ 62 := lt_of_le_of_lt within (by decide)
      cases isForBidirectional <;>
        simp [QuicWriteFrame.image, QuicSimpleFrame.image, QuicWriteFrame.received, parseFrame_fieldBytes,
          decodeFrameOfType, decodedAs, decodeBiDiMaxStreamsFrame, decodeUniMaxStreamsFrame,
          decodeMaxStreamsFrame, decodeQuicInteger_fieldBytes small,
          UInt64.toNat_ofNat_of_lt' (show maxStreams < 2 ^ 64 by omega), Nat.not_lt.mpr within]
    case retireConnectionIdFrame frame =>
      simp [QuicWriteFrame.image, QuicSimpleFrame.image, QuicWriteFrame.received, parseFrame_fieldBytes,
        decodeFrameOfType, decodedAs, decodeRetireConnectionIdFrame,
        readQuicInteger_fieldBytes (show frame.sequenceNumber < 2 ^ 62 from encodable)]
    case handshakeDoneFrame =>
      simp [QuicWriteFrame.image, QuicSimpleFrame.image, QuicWriteFrame.received, parseFrame_fieldBytes,
        decodeFrameOfType]
    case knobFrame frame =>
      obtain ⟨knobSpace, id, len, blob⟩ := frame
      obtain ⟨spaceSmall, idSmall, sized, lenSmall⟩ := encodable
      have sized : len = blob.length := sized
      subst sized
      simp [QuicWriteFrame.image, QuicSimpleFrame.image, QuicWriteFrame.received, parseFrame_fieldBytes,
        decodeFrameOfType, decodedAs, decodeKnobFrame, readQuicInteger_fieldBytes spaceSmall,
        readQuicInteger_fieldBytes idSmall, readQuicInteger_fieldBytes lenSmall,
        ContiguousReadCursor.pullAtMost_append, KnobFrame.make]
    case ackFrequencyFrame frame =>
      obtain ⟨sequenceSmall, toleranceSmall, delaySmall, thresholdSmall⟩ := encodable
      simp [QuicWriteFrame.image, QuicSimpleFrame.image, QuicWriteFrame.received, parseFrame_fieldBytes,
        decodeFrameOfType, decodedAs, decodeAckFrequencyFrame, readQuicInteger_fieldBytes sequenceSmall,
        readQuicInteger_fieldBytes toleranceSmall, readQuicInteger_fieldBytes delaySmall,
        readQuicInteger_fieldBytes thresholdSmall]
    case newTokenFrame frame =>
      have small : frame.token.length < 2 ^ 62 := encodable
      simp [QuicWriteFrame.image, QuicSimpleFrame.image, QuicWriteFrame.received, parseFrame_fieldBytes,
        decodeFrameOfType, decodedAs, decodeNewTokenFrame, readQuicInteger_fieldBytes small,
        ContiguousReadCursor.remaining, ContiguousReadCursor.pullAtMost_append]
  case writeAckFrame | writeStreamFrame | writeCryptoFrame | noopFrame => exact encodable.elim

/-! ## Written, then read back -/

/-- What `writeFrame` writes is read back: the body gains the frame's image, of the `n` bytes the
writer reports and within the room it had, and on those bytes followed by any others the reader
returns the frame the peer receives and stops after the `n` bytes. -/
theorem writeFrame_parseFrame {frame : QuicWriteFrame} {builder builder' : PacketBuilder} {n : Nat}
    (encodable : frame.Encodable) (written : writeFrame frame builder = some (.ok (n, builder')))
    (positive : 0 < n) :
    n ≤ builder.remainingSpaceInPkt.toNat ∧ builder'.body = builder.body ++ frame.image ∧
      frame.image.length = n ∧ builder'.remainingBytes.toNat = builder.remainingBytes.toNat - n ∧
      ∀ (rest : List UInt8) (headerForm : HeaderForm) (params : CodecParameters)
        (config : Option AckReceiveTimestampsConfig), (frame.isPadding = true → rest.head? ≠ some 0) →
        parseFrame (frame.image ++ rest) headerForm params config = .ok (frame.received, rest) := by
  obtain ⟨room, bytes, length, appended, remaining⟩ := writeFrame_accounts encodable.wellFormed written
  have body := writeFrame_body encodable.wellFormed written positive
  -- the accounting names the bytes written, the body lemma says they are the image
  have image : bytes = frame.image := List.append_cancel_left (appended.symm.trans body)
  subst image
  exact ⟨room, body, length, remaining,
    fun rest headerForm params config apart => parseFrame_image encodable apart headerForm params config⟩

theorem writeFrame_parseFrame_knob :
    ∃ builder', writeFrame (.quicSimpleFrame (.knobFrame ⟨1, 2, 3, [7, 8, 9]⟩))
        { remainingBytes := 100, headerForm := .short } = some (.ok (8, builder')) ∧
      8 ≤ (PacketBuilder.remainingSpaceInPkt { remainingBytes := 100, headerForm := .short }).toNat ∧
      builder'.body = [] ++ (QuicWriteFrame.quicSimpleFrame (.knobFrame ⟨1, 2, 3, [7, 8, 9]⟩)).image ∧
      (QuicWriteFrame.quicSimpleFrame (.knobFrame ⟨1, 2, 3, [7, 8, 9]⟩)).image.length = 8 ∧
      builder'.remainingBytes.toNat = (100 : UInt32).toNat - 8 ∧
      ∀ (rest : List UInt8) (headerForm : HeaderForm) (params : CodecParameters)
        (config : Option AckReceiveTimestampsConfig),
        ((QuicWriteFrame.quicSimpleFrame (.knobFrame ⟨1, 2, 3, [7, 8, 9]⟩)).isPadding = true →
          rest.head? ≠ some 0) →
        parseFrame ((QuicWriteFrame.quicSimpleFrame (.knobFrame ⟨1, 2, 3, [7, 8, 9]⟩)).image ++ rest)
            headerForm params config =
          .ok ((QuicWriteFrame.quicSimpleFrame (.knobFrame ⟨1, 2, 3, [7, 8, 9]⟩)).received, rest) :=
  have written : writeFrame (.quicSimpleFrame (.knobFrame ⟨1, 2, 3, [7, 8, 9]⟩))
      { remainingBytes := 100, headerForm := .short } = some (.ok (8, _)) := rfl
  have encodable : (QuicWriteFrame.quicSimpleFrame (.knobFrame ⟨1, 2, 3, [7, 8, 9]⟩)).Encodable :=
    ⟨by decide, by decide, rfl, by decide⟩
  ⟨_, written, writeFrame_parseFrame encodable written (by decide)⟩

/-- A transport CONNECTION_CLOSE that names an ACK_FREQUENCY frame (type 0xaf) as its trigger is
written with the type as a two-byte QUIC integer, and the reader rejects those five bytes. -/
theorem connection_close_frame_type_misread :
    ∃ builder', writeFrame (.connectionCloseFrame ⟨.transport 0x0a, [], FrameType.ackFrequency.value⟩)
        { remainingBytes := 100, headerForm := .short } = some (.ok (5, builder')) ∧
      builder'.body = [0x1c, 0x0a, 0x40, 0xaf, 0x00] ∧
      ∀ (rest : List UInt8) (headerForm : HeaderForm) (params : CodecParameters)
        (config : Option AckReceiveTimestampsConfig),
        parseFrame (builder'.body ++ rest) headerForm params config =
          .error (frameEncodingError "Bad connection close triggering frame type value") := by
  refine ⟨_, rfl, rfl, fun rest headerForm params config => ?_⟩
  -- the type, the error code and the triggering type, each a shortest QUIC integer, then the phrase
  have bytes : [0x1c, 0x0a, 0x40, 0xaf, 0x00] ++ rest = fieldBytes FrameType.connectionClose.value ++
      (fieldBytes 0x0a ++ (fieldBytes FrameType.ackFrequency.value ++ ([0x00] ++ rest))) := rfl
  have twoBytes : (fieldBytes FrameType.ackFrequency.value).length = 2 := rfl
  change parseFrame ([0x1c, 0x0a, 0x40, 0xaf, 0x00] ++ rest) headerForm params config = _
  rw [bytes, parseFrame_fieldBytes]
  simp [decodeFrameOfType, decodedAs, decodeConnectionCloseFrame,
    readQuicInteger_fieldBytes (show 0x0a < 2 ^ 62 by decide),
    decodeQuicInteger_fieldBytes (FrameType.value_lt .ackFrequency), twoBytes]

end Mvfst.Codec
