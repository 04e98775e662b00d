import Mvfst.Codec.QuicWriteCodec
import Mvfst.Codec.DefaultConnectionIdAlgo

/-!
# Writing the other frames

`writeSimpleFrame` and `writeFrame` of `codec/QuicWriteCodec.cpp`: one case per frame, each of
which asks for the sizes of the frame's QUIC integers, adds the bytes it writes beside them,
checks the total against the room left (`packetSpaceCheck`), and then writes the fields and
records the frame. `writeFrameFields` is that shape; each case passes it the frame's integers in
the order the case asks for their sizes, which decides the error when several are too large, and
the fields in the order it writes them. A failed `CHECK` or `LOG(FATAL)` is `none`.
-/

namespace Mvfst.Codec

open BigEndian

def writeFrameFields (builder : PacketBuilder) (integers : List QuicInteger) (otherBytes : Nat)
    (fields : List WireField) (record : PacketBuilder → PacketBuilder) :
    Option (Except QuicError (Nat × PacketBuilder)) :=
  match integers.mapM QuicInteger.getSize with
  | .error error => some (.error error)
  | .ok sizes =>
    let frameSize := sizes.sum + otherBytes
    if frameSize ≤ builder.remainingSpaceInPkt.toNat then
      (builder.writeFields fields).map fun written => .ok (frameSize, record written)
    else some (.ok (0, builder))

def writeSimpleFrame (frame : QuicSimpleFrame) (builder : PacketBuilder) :
    Option (Except QuicError (Nat × PacketBuilder)) :=
  let record (written : PacketBuilder) := written.appendFrame (.quicSimpleFrame frame)
  match frame with
  | .stopSendingFrame stopSendingFrame =>
    let intFrameType := QuicInteger.ofNat FrameType.stopSending.value
    let streamId := QuicInteger.ofNat stopSendingFrame.streamId
    let errorCode := QuicInteger.ofNat stopSendingFrame.errorCode
    writeFrameFields builder [errorCode, intFrameType, streamId] 0
      [.quicInteger intFrameType, .quicInteger streamId, .quicInteger errorCode] record
  | .pathChallengeFrame pathChallengeFrame =>
    let frameType := QuicInteger.ofNat FrameType.pathChallenge.value
    writeFrameFields builder [frameType] 8
      [.quicInteger frameType, .writeBE 8 pathChallengeFrame.pathData] record
  | .pathResponseFrame pathResponseFrame =>
    let frameType := QuicInteger.ofNat FrameType.pathResponse.value
    writeFrameFields builder [frameType] 8
      [.quicInteger frameType, .writeBE 8 pathResponseFrame.pathData] record
  | .newConnectionIdFrame newConnectionIdFrame =>
    let frameType := QuicInteger.ofNat FrameType.newConnectionId.value
    let sequenceNumber := QuicInteger.ofNat newConnectionIdFrame.sequenceNumber
    let retirePriorTo := QuicInteger.ofNat newConnectionIdFrame.retirePriorTo
    let connectionId := newConnectionIdFrame.connectionId
    let token := newConnectionIdFrame.token.bytes
    -- the connection id's length goes down as one byte before it
    writeFrameFields builder [frameType, sequenceNumber, retirePriorTo]
      (1 + connectionId.size + token.length)
      [.quicInteger frameType, .quicInteger sequenceNumber, .quicInteger retirePriorTo,
        .writeBE 1 connectionId.size, .bytes connectionId.bytes, .bytes token] record
  | .maxStreamsFrame maxStreamsFrame =>
    let frameType := if maxStreamsFrame.isForBidirectional then FrameType.maxStreamsBidi
      else FrameType.maxStreamsUni
    let intFrameType := QuicInteger.ofNat frameType.value
    let streamCount := QuicInteger.ofNat maxStreamsFrame.maxStreams
    writeFrameFields builder [intFrameType, streamCount] 0
      [.quicInteger intFrameType, .quicInteger streamCount] record
  | .retireConnectionIdFrame retireConnectionIdFrame =>
    let frameType := QuicInteger.ofNat FrameType.retireConnectionId.value
    let sequence := QuicInteger.ofNat retireConnectionIdFrame.sequenceNumber
    writeFrameFields builder [frameType, sequence] 0 [.quicInteger frameType, .quicInteger sequence]
      record
  | .handshakeDoneFrame =>
    -- `CHECK(builder.getPacketHeader().asShort())`
    if builder.headerForm = .short then
      let intFrameType := QuicInteger.ofNat FrameType.handshakeDone.value
      writeFrameFields builder [intFrameType] 0 [.quicInteger intFrameType] record
    else none
  | .knobFrame knobFrame =>
    let intFrameType := QuicInteger.ofNat FrameType.knob.value
    let intKnobSpace := QuicInteger.ofNat knobFrame.knobSpace
    let intKnobId := QuicInteger.ofNat knobFrame.id
    let intKnobLen := QuicInteger.ofNat knobFrame.len
    -- the size counts `len` bytes of blob, and the whole blob is written
    writeFrameFields builder [intFrameType, intKnobSpace, intKnobId, intKnobLen]
      intKnobLen.getValue.toNat
      [.quicInteger intFrameType, .quicInteger intKnobSpace, .quicInteger intKnobId,
        .quicInteger intKnobLen, .bytes knobFrame.blob] record
  | .ackFrequencyFrame ackFrequencyFrame =>
    let intFrameType := QuicInteger.ofNat FrameType.ackFrequency.value
    let intSequenceNumber := QuicInteger.ofNat ackFrequencyFrame.sequenceNumber
    let intPacketTolerance := QuicInteger.ofNat ackFrequencyFrame.packetTolerance
    let intUpdateMaxAckDelay := QuicInteger.ofNat ackFrequencyFrame.updateMaxAckDelay
    let intReorderThreshold := QuicInteger.ofNat ackFrequencyFrame.reorderThreshold
    writeFrameFields builder
      [intFrameType, intSequenceNumber, intPacketTolerance, intUpdateMaxAckDelay, intReorderThreshold] 0
      [.quicInteger intFrameType, .quicInteger intSequenceNumber, .quicInteger intPacketTolerance,
        .quicInteger intUpdateMaxAckDelay, .quicInteger intReorderThreshold] record
  | .newTokenFrame newTokenFrame =>
    let intFrameType := QuicInteger.ofNat FrameType.newToken.value
    let tokenLength := QuicInteger.ofNat newTokenFrame.token.length
    writeFrameFields builder [intFrameType, tokenLength] tokenLength.getValue.toNat
      [.quicInteger intFrameType, .quicInteger tokenLength, .bytes newTokenFrame.token] record

def writeFrame (frame : QuicWriteFrame) (builder : PacketBuilder) :
    Option (Except QuicError (Nat × PacketBuilder)) :=
  let record (written : PacketBuilder) := written.appendFrame frame
  match frame with
  | .paddingFrame _ =>
    let intFrameType := QuicInteger.ofNat FrameType.padding.value
    writeFrameFields builder [intFrameType] 0 [.quicInteger intFrameType]
      PacketBuilder.appendPaddingFrame
  | .rstStreamFrame rstStreamFrame =>
    let intFrameType := QuicInteger.ofNat
      (if rstStreamFrame.reliableSize.isSome then FrameType.rstStreamAt else FrameType.rstStream).value
    let streamId := QuicInteger.ofNat rstStreamFrame.streamId
    let finalSize := QuicInteger.ofNat rstStreamFrame.finalSize
    let errorCode := QuicInteger.ofNat rstStreamFrame.errorCode
    let maybeReliableSize := rstStreamFrame.reliableSize.map QuicInteger.ofNat
    -- the error code is written before the final size it is sized after
    writeFrameFields builder ([intFrameType, streamId, finalSize, errorCode] ++ maybeReliableSize.toList) 0
      ([.quicInteger intFrameType, .quicInteger streamId, .quicInteger errorCode,
        .quicInteger finalSize] ++ maybeReliableSize.toList.map .quicInteger) record
  | .maxDataFrame maxDataFrame =>
    let intFrameType := QuicInteger.ofNat FrameType.maxData.value
    let maximumData := QuicInteger.ofNat maxDataFrame.maximumData
    writeFrameFields builder [intFrameType, maximumData] 0
      [.quicInteger intFrameType, .quicInteger maximumData] record
  | .maxStreamDataFrame maxStreamDataFrame =>
    let intFrameType := QuicInteger.ofNat FrameType.maxStreamData.value
    let streamId := QuicInteger.ofNat maxStreamDataFrame.streamId
    let maximumData := QuicInteger.ofNat maxStreamDataFrame.maximumData
    writeFrameFields builder [intFrameType, streamId, maximumData] 0
      [.quicInteger intFrameType, .quicInteger streamId, .quicInteger maximumData] record
  | .dataBlockedFrame blockedFrame =>
    let intFrameType := QuicInteger.ofNat FrameType.dataBlocked.value
    let dataLimit := QuicInteger.ofNat blockedFrame.dataLimit
    writeFrameFields builder [intFrameType, dataLimit] 0
      [.quicInteger intFrameType, .quicInteger dataLimit] record
  | .streamDataBlockedFrame streamBlockedFrame =>
    let intFrameType := QuicInteger.ofNat FrameType.streamDataBlocked.value
    let streamId := QuicInteger.ofNat streamBlockedFrame.streamId
    let dataLimit := QuicInteger.ofNat streamBlockedFrame.dataLimit
    writeFrameFields builder [intFrameType, streamId, dataLimit] 0
      [.quicInteger intFrameType, .quicInteger streamId, .quicInteger dataLimit] record
  | .streamsBlockedFrame streamsBlockedFrame =>
    let frameType := if streamsBlockedFrame.isForBidirectional then FrameType.streamsBlockedBidi
      else FrameType.streamsBlockedUni
    let intFrameType := QuicInteger.ofNat frameType.value
    let streamId := QuicInteger.ofNat streamsBlockedFrame.streamLimit
    writeFrameFields builder [intFrameType, streamId] 0
      [.quicInteger intFrameType, .quicInteger streamId] record
  | .connectionCloseFrame connectionCloseFrame =>
    let isTransportErrorCode :=
      match connectionCloseFrame.errorCode with
      | .transport _ => true
      | .application _ => false
    let intFrameType := QuicInteger.ofNat
      (if isTransportErrorCode then FrameType.connectionClose else FrameType.connectionCloseAppErr).value
    let reasonLength := QuicInteger.ofNat connectionCloseFrame.reasonPhrase.length
    -- only a transport close says which frame triggered it, as a QUIC integer
    let closingFrameType :=
      if isTransportErrorCode then some (QuicInteger.ofNat connectionCloseFrame.closingFrameType)
      else none
    let errorCode := QuicInteger.ofNat connectionCloseFrame.errorCode.value
    writeFrameFields builder ([intFrameType, errorCode, reasonLength] ++ closingFrameType.toList)
      connectionCloseFrame.reasonPhrase.length
      ([.quicInteger intFrameType, .quicInteger errorCode] ++ closingFrameType.toList.map .quicInteger ++
        [.quicInteger reasonLength, .bytes connectionCloseFrame.reasonPhrase]) record
  | .pingFrame =>
    let intFrameType := QuicInteger.ofNat FrameType.ping.value
    writeFrameFields builder [intFrameType] 0 [.quicInteger intFrameType] record
  | .quicSimpleFrame simpleFrame => writeSimpleFrame simpleFrame builder
  | .datagramFrame datagramFrame =>
    let frameTypeQuicInt := QuicInteger.ofNat FrameType.datagramLen.value
    let datagramLenInt := QuicInteger.ofNat datagramFrame.length
    -- `insert(data, length)`
    writeFrameFields builder [frameTypeQuicInt, datagramLenInt] datagramFrame.length
      [.quicInteger frameTypeQuicInt, .quicInteger datagramLenInt,
        .bytes (datagramFrame.data.take datagramFrame.length)] record
  | .immediateAckFrame =>
    let intFrameType := QuicInteger.ofNat FrameType.immediateAck.value
    writeFrameFields builder [intFrameType] 0 [.quicInteger intFrameType] record
  -- ACK, STREAM and CRYPTO frames have writers of their own
  | .writeAckFrame _ | .writeStreamFrame _ | .writeCryptoFrame _ | .noopFrame => none

/-! ## What a case writes -/

namespace QuicInteger

theorem getSize_eq_ok_iff {integer : QuicInteger} {size : Nat} :
    integer.getSize = .ok size ↔ integer.value ≤ kEightByteLimit ∧ size = integer.image.length := by
  by_cases fits : integer.value ≤ kEightByteLimit
  · rw [getSize_of_le fits, Except.ok.injEq]
    exact ⟨fun same => ⟨fits, same.symm⟩, fun ⟨_, same⟩ => same.symm⟩
  · rw [getSize_of_gt (UInt64.not_le.mp fits)]
    simp [fits]

theorem image_length_pos {integer : QuicInteger} (fits : integer.value ≤ kEightByteLimit) :
    0 < integer.image.length := by
  obtain ⟨bytes, n, encoded, -, length, sizes, -⟩ := encodeQuicInteger_spec integer.value fits
  have image : integer.image = bytes := by simp [QuicInteger.image, encode, encoded]
  rw [image, length]
  rcases sizes with ⟨rfl, -⟩ | ⟨rfl, -⟩ | ⟨rfl, -⟩ | ⟨rfl, -⟩ <;> decide

/-- The sizes of a list of integers, when all of them fit, are their images' lengths. -/
theorem mapM_getSize_eq_ok {integers : List QuicInteger} {sizes : List Nat}
    (sized : integers.mapM getSize = .ok sizes) :
    (∀ integer ∈ integers, integer.value ≤ kEightByteLimit) ∧
      sizes = integers.map fun integer => integer.image.length := by
  induction integers generalizing sizes with
  | nil =>
    simp only [List.mapM_nil, Except.pure_eq_ok, Except.ok.injEq] at sized
    exact ⟨by simp, by simp [← sized]⟩
  | cons integer integers ih =>
    simp only [List.mapM_cons, Except.bind_eq_ok, Except.pure_eq_ok, Except.ok.injEq] at sized
    obtain ⟨size, sizeOk, rest, restOk, rfl⟩ := sized
    obtain ⟨fits, rfl⟩ := getSize_eq_ok_iff.mp sizeOk
    obtain ⟨restFit, rfl⟩ := ih restOk
    exact ⟨by simpa [fits] using restFit, rfl⟩

end QuicInteger

/-- A case that wrote something: its integers fit, the size it returns is theirs and the other
bytes', within the room left, and the body took its fields' images, provided the fields fit
whenever the integers do. -/
theorem writeFrameFields_written {builder builder' : PacketBuilder} {integers : List QuicInteger}
    {otherBytes : Nat} {fields : List WireField} {record : PacketBuilder → PacketBuilder} {n : Nat}
    (fieldsFit : (∀ integer ∈ integers, integer.value ≤ kEightByteLimit) → ∀ field ∈ fields, field.Fits)
    (written : writeFrameFields builder integers otherBytes fields record = some (.ok (n, builder')))
    (positive : 0 < n) :
    (∀ integer ∈ integers, integer.value ≤ kEightByteLimit) ∧
      n = (integers.map fun integer => integer.image.length).sum + otherBytes ∧
      n ≤ builder.remainingSpaceInPkt.toNat ∧
      builder' = record (builder.appendBody (fields.flatMap WireField.image)) := by
  unfold writeFrameFields at written
  split at written
  · cases written
  · rename_i sizes sized
    obtain ⟨fit, rfl⟩ := QuicInteger.mapM_getSize_eq_ok sized
    dsimp only at written
    split at written
    · rename_i room
      rw [builder.writeFields_of_fits fields (fieldsFit fit), Option.map_some, Option.some.injEq,
        Except.ok.injEq, Prod.mk.injEq] at written
      obtain ⟨rfl, rfl⟩ := written
      exact ⟨fit, rfl, room, rfl⟩
    · simp only [Option.some.injEq, Except.ok.injEq, Prod.mk.injEq] at written
      omega

/-- A case that wrote nothing left the builder as it was. -/
theorem writeFrameFields_unchanged {builder builder' : PacketBuilder} {integers : List QuicInteger}
    {otherBytes : Nat} {fields : List WireField} {record : PacketBuilder → PacketBuilder}
    (fieldsFit : (∀ integer ∈ integers, integer.value ≤ kEightByteLimit) → ∀ field ∈ fields, field.Fits)
    (written : writeFrameFields builder integers otherBytes fields record = some (.ok (0, builder')))
    (nonempty : integers ≠ []) :
    builder' = builder := by
  unfold writeFrameFields at written
  split at written
  · cases written
  · rename_i sizes sized
    obtain ⟨fit, rfl⟩ := QuicInteger.mapM_getSize_eq_ok sized
    dsimp only at written
    split at written
    · rw [builder.writeFields_of_fits fields (fieldsFit fit), Option.map_some, Option.some.injEq,
        Except.ok.injEq, Prod.mk.injEq] at written
      -- the first integer's image is not empty, so a size of zero is the other branch's
      exfalso
      obtain ⟨empty, -⟩ := written
      obtain ⟨integer, rest, rfl⟩ := List.exists_cons_of_ne_nil nonempty
      have firstBytes := QuicInteger.image_length_pos (fit integer List.mem_cons_self)
      simp only [List.map_cons, List.sum_cons] at empty
      omega
    · simp only [Option.some.injEq, Except.ok.injEq, Prod.mk.injEq] at written
      exact written.2.symm

/-- What the writers take a frame's lengths to be, and the constructors make so: a KNOB frame's
length is its blob's, and a buffer whose length goes down as an integer fits a `size_t`. -/
def QuicWriteFrame.WellFormed : QuicWriteFrame → Prop
  | .quicSimpleFrame (.knobFrame knobFrame) =>
    knobFrame.len = knobFrame.blob.length ∧ knobFrame.len < 2 ^ 64
  | .quicSimpleFrame (.newTokenFrame newTokenFrame) => newTokenFrame.token.length < 2 ^ 64
  | _ => True

/-- A case's fields are its integers and `otherBytes` more: once the integers fit, so do the
fields, and their images are as long as the size the case computes. -/
def FieldsMatchSize (integers : List QuicInteger) (otherBytes : Nat) (fields : List WireField) : Prop :=
  (∀ integer ∈ integers, integer.value ≤ kEightByteLimit) →
    (∀ field ∈ fields, field.Fits) ∧
      (fields.flatMap WireField.image).length = (integers.map fun integer => integer.image.length).sum + otherBytes

/-- Recording the frame touches neither the body nor the room. -/
def KeepsBody (record : PacketBuilder → PacketBuilder) : Prop :=
  ∀ builder, (record builder).body = builder.body ∧ (record builder).remainingBytes = builder.remainingBytes

theorem keepsBody_appendFrame (frame : QuicWriteFrame) : KeepsBody (·.appendFrame frame) :=
  fun _ => ⟨rfl, rfl⟩

theorem keepsBody_appendPaddingFrame : KeepsBody PacketBuilder.appendPaddingFrame := by
  intro builder
  unfold PacketBuilder.appendPaddingFrame
  split <;> exact ⟨rfl, rfl⟩

/-- The room a write of `n` bytes leaves, when they fit it. -/
theorem remainingBytes_appendBody_toNat {builder : PacketBuilder} {bytes : List UInt8}
    (room : bytes.length ≤ builder.remainingBytes.toNat) :
    (builder.appendBody bytes).remainingBytes.toNat = builder.remainingBytes.toNat - bytes.length := by
  have small : bytes.length < 2 ^ 32 := lt_of_le_of_lt room builder.remainingBytes.toNat_lt
  rw [PacketBuilder.appendBody_remainingBytes, UInt32.toNat_sub_of_le _ _
    (by rw [UInt32.le_iff_toNat_le, UInt32.toNat_ofNat_of_lt' small]; exact room),
    UInt32.toNat_ofNat_of_lt' small]

/-- What a case does to the builder: the body takes as many bytes as the size it returns, within
the room left, and the room shrinks by as many; a size of zero leaves both as they were. -/
theorem writeFrameFields_accounts {builder builder' : PacketBuilder} {integers : List QuicInteger}
    {otherBytes : Nat} {fields : List WireField} {record : PacketBuilder → PacketBuilder} {n : Nat}
    (sized : FieldsMatchSize integers otherBytes fields) (nonempty : integers ≠ [])
    (keeps : KeepsBody record)
    (written : writeFrameFields builder integers otherBytes fields record = some (.ok (n, builder'))) :
    n ≤ builder.remainingSpaceInPkt.toNat ∧ ∃ bytes : List UInt8, bytes.length = n ∧
      builder'.body = builder.body ++ bytes ∧
      builder'.remainingBytes.toNat = builder.remainingBytes.toNat - n := by
  rcases Nat.eq_zero_or_pos n with rfl | positive
  · obtain rfl := writeFrameFields_unchanged (fun fit => (sized fit).1) written nonempty
    exact ⟨Nat.zero_le _, [], rfl, by simp, by simp⟩
  obtain ⟨fit, rfl, room, rfl⟩ := writeFrameFields_written (fun fit => (sized fit).1) written positive
  obtain ⟨body, remaining⟩ := keeps (builder.appendBody (fields.flatMap WireField.image))
  have length := (sized fit).2
  refine ⟨room, fields.flatMap WireField.image, length, by rw [body]; rfl, ?_⟩
  rw [remaining, remainingBytes_appendBody_toNat (by rw [length]; exact room), length]

/-! ## The bytes of a frame

A frame on the wire (RFC 9000, section 19) is its type and its fields in order, each integer a
QUIC integer (`fieldBytes`), a path's data eight bytes and a connection id's length one byte, big
endian. ACK, STREAM and CRYPTO frames have writers of their own and no image here. -/

@[simp] theorem QuicInteger.image_ofNat (value : Nat) : (QuicInteger.ofNat value).image = fieldBytes value :=
  rfl

def QuicSimpleFrame.image : QuicSimpleFrame → List UInt8
  | .stopSendingFrame frame =>
    fieldBytes FrameType.stopSending.value ++ fieldBytes frame.streamId ++ fieldBytes frame.errorCode
  | .pathChallengeFrame frame => fieldBytes FrameType.pathChallenge.value ++ toBytes 8 frame.pathData
  | .pathResponseFrame frame => fieldBytes FrameType.pathResponse.value ++ toBytes 8 frame.pathData
  | .newConnectionIdFrame frame =>
    fieldBytes FrameType.newConnectionId.value ++ fieldBytes frame.sequenceNumber ++
      fieldBytes frame.retirePriorTo ++ toBytes 1 frame.connectionId.size ++ frame.connectionId.bytes ++
      frame.token.bytes
  | .maxStreamsFrame frame =>
    fieldBytes (if frame.isForBidirectional then FrameType.maxStreamsBidi else FrameType.maxStreamsUni).value ++
      fieldBytes frame.maxStreams
  | .retireConnectionIdFrame frame =>
    fieldBytes FrameType.retireConnectionId.value ++ fieldBytes frame.sequenceNumber
  | .handshakeDoneFrame => fieldBytes FrameType.handshakeDone.value
  | .knobFrame frame =>
    fieldBytes FrameType.knob.value ++ fieldBytes frame.knobSpace ++ fieldBytes frame.id ++
      fieldBytes frame.len ++ frame.blob
  | .ackFrequencyFrame frame =>
    fieldBytes FrameType.ackFrequency.value ++ fieldBytes frame.sequenceNumber ++
      fieldBytes frame.packetTolerance ++ fieldBytes frame.updateMaxAckDelay ++ fieldBytes frame.reorderThreshold
  | .newTokenFrame frame => fieldBytes FrameType.newToken.value ++ fieldBytes frame.token.length ++ frame.token

def QuicWriteFrame.image : QuicWriteFrame → List UInt8
  | .paddingFrame _ => fieldBytes FrameType.padding.value
  | .rstStreamFrame frame =>
    fieldBytes (if frame.reliableSize.isSome then FrameType.rstStreamAt else FrameType.rstStream).value ++
      fieldBytes frame.streamId ++ fieldBytes frame.errorCode ++ fieldBytes frame.finalSize ++
      (frame.reliableSize.map fieldBytes).getD []
  | .connectionCloseFrame frame =>
    match frame.errorCode with
    | .transport code =>
      fieldBytes FrameType.connectionClose.value ++ fieldBytes code ++ fieldBytes frame.closingFrameType ++
        fieldBytes frame.reasonPhrase.length ++ frame.reasonPhrase
    | .application code =>
      fieldBytes FrameType.connectionCloseAppErr.value ++ fieldBytes code ++
        fieldBytes frame.reasonPhrase.length ++ frame.reasonPhrase
  | .maxDataFrame frame => fieldBytes FrameType.maxData.value ++ fieldBytes frame.maximumData
  | .maxStreamDataFrame frame =>
    fieldBytes FrameType.maxStreamData.value ++ fieldBytes frame.streamId ++ fieldBytes frame.maximumData
  | .dataBlockedFrame frame => fieldBytes FrameType.dataBlocked.value ++ fieldBytes frame.dataLimit
  | .streamDataBlockedFrame frame =>
    fieldBytes FrameType.streamDataBlocked.value ++ fieldBytes frame.streamId ++ fieldBytes frame.dataLimit
  | .streamsBlockedFrame frame =>
    fieldBytes (if frame.isForBidirectional then FrameType.streamsBlockedBidi
      else FrameType.streamsBlockedUni).value ++ fieldBytes frame.streamLimit
  | .quicSimpleFrame frame => frame.image
  | .pingFrame => fieldBytes FrameType.ping.value
  | .datagramFrame frame => fieldBytes FrameType.datagramLen.value ++ fieldBytes frame.length ++ frame.data
  | .immediateAckFrame => fieldBytes FrameType.immediateAck.value
  | .writeAckFrame _ | .writeStreamFrame _ | .writeCryptoFrame _ | .noopFrame => []

/-- The shape of a case that returns: a `writeFrameFields` over some integers, whose fields are
the frame's image and match the size the case computes, and whose record keeps the body. -/
def WritesImage (write : PacketBuilder → Option (Except QuicError (Nat × PacketBuilder)))
    (builder : PacketBuilder) (image : List UInt8) : Prop :=
  ∃ integers otherBytes fields record,
    write builder = writeFrameFields builder integers otherBytes fields record ∧ integers ≠ [] ∧
      FieldsMatchSize integers otherBytes fields ∧ KeepsBody record ∧ fields.flatMap WireField.image = image

theorem writeSimpleFrame_writesImage {frame : QuicSimpleFrame} {builder : PacketBuilder}
    {result : Except QuicError (Nat × PacketBuilder)}
    (wellFormed : (QuicWriteFrame.quicSimpleFrame frame).WellFormed)
    (returned : writeSimpleFrame frame builder = some result) :
    WritesImage (writeSimpleFrame frame) builder frame.image := by
  cases frame
  case handshakeDoneFrame =>
    simp only [writeSimpleFrame] at returned
    split at returned
    · rename_i short
      unfold WritesImage
      simp only [writeSimpleFrame, if_pos short]
      refine ⟨_, _, _, _, rfl, List.cons_ne_nil _ _, fun fit => ?_, keepsBody_appendFrame _, by
        simp [WireField.image, QuicSimpleFrame.image]⟩
      simp_all [WireField.Fits, WireField.image]
    · cases returned
  case knobFrame knobFrame =>
    obtain ⟨length, small⟩ := wellFormed
    simp only [WritesImage, writeSimpleFrame]
    refine ⟨_, _, _, _, rfl, List.cons_ne_nil _ _, fun fit => ?_, keepsBody_appendFrame _, by
      simp [WireField.image, QuicSimpleFrame.image]⟩
    simp_all [WireField.Fits, WireField.image, QuicInteger.getValue, QuicInteger.ofNat_value_toNat]
    omega
  case newTokenFrame newTokenFrame =>
    simp only [WritesImage, writeSimpleFrame]
    refine ⟨_, _, _, _, rfl, List.cons_ne_nil _ _, fun fit => ?_, keepsBody_appendFrame _, by
      simp [WireField.image, QuicSimpleFrame.image]⟩
    simp_all [WireField.Fits, WireField.image, QuicInteger.getValue,
      QuicInteger.ofNat_value_toNat (show newTokenFrame.token.length < 2 ^ 64 from wellFormed)]
    omega
  all_goals
    simp only [WritesImage, writeSimpleFrame]
    refine ⟨_, _, _, _, rfl, List.cons_ne_nil _ _, fun fit => ?_, keepsBody_appendFrame _, by
      simp [WireField.image, QuicSimpleFrame.image]⟩
    simp_all [WireField.Fits, WireField.image, ConnectionId.size]
    try omega

theorem writeFrame_writesImage {frame : QuicWriteFrame} {builder : PacketBuilder}
    {result : Except QuicError (Nat × PacketBuilder)} (wellFormed : frame.WellFormed)
    (returned : writeFrame frame builder = some result) :
    WritesImage (writeFrame frame) builder frame.image := by
  cases frame
  case quicSimpleFrame simpleFrame => exact writeSimpleFrame_writesImage wellFormed returned
  case paddingFrame =>
    simp only [WritesImage, writeFrame]
    refine ⟨_, _, _, _, rfl, List.cons_ne_nil _ _, fun fit => ?_, keepsBody_appendPaddingFrame, by
      simp [WireField.image, QuicWriteFrame.image]⟩
    simp_all [WireField.Fits, WireField.image]
  case rstStreamFrame rstStreamFrame =>
    obtain ⟨streamId, errorCode, finalSize, reliableSize⟩ := rstStreamFrame
    simp only [WritesImage, writeFrame]
    refine ⟨_, _, _, _, rfl, List.cons_ne_nil _ _, fun fit => ?_, keepsBody_appendFrame _, ?_⟩
    · cases reliableSize <;> simp_all [WireField.Fits, WireField.image] <;> omega
    · cases reliableSize <;> simp [WireField.image, QuicWriteFrame.image]
  case connectionCloseFrame connectionCloseFrame =>
    obtain ⟨errorCode, reasonPhrase, closingFrameType⟩ := connectionCloseFrame
    simp only [WritesImage, writeFrame]
    refine ⟨_, _, _, _, rfl, List.cons_ne_nil _ _, fun fit => ?_, keepsBody_appendFrame _, ?_⟩
    · cases errorCode <;> simp_all [WireField.Fits, WireField.image] <;> omega
    · cases errorCode <;> simp [WireField.image, QuicWriteFrame.image, CloseErrorCode.value]
  case datagramFrame datagramFrame =>
    simp only [WritesImage, writeFrame]
    refine ⟨_, _, _, _, rfl, List.cons_ne_nil _ _, fun fit => ?_, keepsBody_appendFrame _, by
      simp [WireField.image, QuicWriteFrame.image, datagramFrame.length_eq]⟩
    simp_all [WireField.Fits, WireField.image, datagramFrame.length_eq]
    omega
  case writeAckFrame | writeStreamFrame | writeCryptoFrame | noopFrame => cases returned
  all_goals
    simp only [WritesImage, writeFrame]
    refine ⟨_, _, _, _, rfl, List.cons_ne_nil _ _, fun fit => ?_, keepsBody_appendFrame _, by
      simp [WireField.image, QuicWriteFrame.image]⟩
    simp_all [WireField.Fits, WireField.image]
    try omega

/-- Whatever frame `writeFrame` writes, it writes within the room left and reports what it wrote:
the body takes exactly the `n` bytes it returns and the room shrinks by `n`, and a size of zero,
for a frame that does not fit, changes neither. -/
theorem writeFrame_accounts {frame : QuicWriteFrame} {builder builder' : PacketBuilder} {n : Nat}
    (wellFormed : frame.WellFormed) (written : writeFrame frame builder = some (.ok (n, builder'))) :
    n ≤ builder.remainingSpaceInPkt.toNat ∧ ∃ bytes : List UInt8, bytes.length = n ∧
      builder'.body = builder.body ++ bytes ∧
      builder'.remainingBytes.toNat = builder.remainingBytes.toNat - n := by
  obtain ⟨integers, otherBytes, fields, record, cased, nonempty, sized, keeps, -⟩ :=
    writeFrame_writesImage wellFormed written
  rw [cased] at written
  exact writeFrameFields_accounts sized nonempty keeps written

/-- What `writeFrame` writes is the frame's image. -/
theorem writeFrame_body {frame : QuicWriteFrame} {builder builder' : PacketBuilder} {n : Nat}
    (wellFormed : frame.WellFormed) (written : writeFrame frame builder = some (.ok (n, builder')))
    (positive : 0 < n) :
    builder'.body = builder.body ++ frame.image := by
  obtain ⟨integers, otherBytes, fields, record, cased, -, sized, keeps, image⟩ :=
    writeFrame_writesImage wellFormed written
  rw [cased] at written
  obtain ⟨-, -, -, rfl⟩ := writeFrameFields_written (fun fit => (sized fit).1) written positive
  rw [(keeps _).1, PacketBuilder.appendBody_body, image]

end Mvfst.Codec
