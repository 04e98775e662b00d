import Mvfst.Codec.QuicPacketBuilder
import Mvfst.Codec.Decode

/-!
# Writing STREAM frames

`writeStreamFrameHeader` and `writeStreamFrameData` of `codec/QuicWriteCodec.cpp`. The header
writer does its accounting in `uint64_t`, with the room left in the packet, a `uint32_t`, widened
to it; its subtractions wrap, and a result is only returned once the last check has found the
header within the room. A process abort (`LOG(FATAL)`) is `none`.
-/

namespace Mvfst.Codec

/-- The size of the length field for a data length, with room to spare below each encoding's
limit; `none` is the `LOG(FATAL)` for a length no packet holds. -/
def dataLenLenFor (dataLen : UInt64) : Option UInt64 :=
  if dataLen ≤ kOneByteLimit - 1 then some 1
  else if dataLen ≤ kTwoByteLimit - 2 then some 2
  else if dataLen ≤ kFourByteLimit - 4 then some 4
  else if dataLen ≤ kEightByteLimit - 8 then some 8
  else none

def noDataOrFinError : QuicError :=
  ⟨.local .internalError, "No data or fin supplied when writing stream."⟩

/-- The data length the frame carries and the builder after its header, or `none` inside when
nothing of the stream fits. -/
def writeStreamFrameHeader (builder : PacketBuilder) (id offset writeBufferLen flowControlLen : UInt64)
    (fin : Bool) (skipLenHint : Option Bool) (streamGroupId : Option UInt64) (appendFrame : Bool) :
    Option (Except QuicError (Option (UInt64 × PacketBuilder))) :=
  let remaining := builder.remainingSpaceInPkt.toUInt64
  if remaining = 0 then some (.ok none)
  else if writeBufferLen = 0 ∧ fin = false then some (.error noDataOrFinError)
  else
  let streamTypeBuilder : StreamTypeField.Builder :=
    if streamGroupId.isSome then StreamTypeField.Builder.switchToStreamGroups {} else {}
  let idInt : QuicInteger := ⟨id⟩
  let groupIdInt : Option QuicInteger := streamGroupId.map (⟨·⟩)
  match idInt.getSize with
  | .error error => some (.error error)
  | .ok idIntSize =>
  match groupIdInt.map QuicInteger.getSize with
  | some (.error error) => some (.error error)
  | groupIdIntSize =>
  let headerSize : UInt64 := 1 + UInt64.ofNat idIntSize +
    (match groupIdIntSize with | some (.ok size) => UInt64.ofNat size | _ => 0)
  if remaining < headerSize then some (.ok none)
  else
  let offsetInt : QuicInteger := ⟨offset⟩
  match (if offset ≠ 0 then offsetInt.getSize else .ok 0) with
  | .error error => some (.error error)
  | .ok offsetIntSize =>
  let streamTypeBuilder := if offset ≠ 0 then streamTypeBuilder.setOffset else streamTypeBuilder
  let headerSize := headerSize + UInt64.ofNat offsetIntSize
  -- the data the buffer and flow control allow, then what the packet allows
  let dataLen := min writeBufferLen flowControlLen
  let shouldSkipLengthField :=
    match skipLenHint with
    | some hint => hint
    | none => dataLen > 0 && dataLen ≥ remaining - headerSize
  let dataLen := min dataLen (remaining - headerSize)
  match (if shouldSkipLengthField then some 0 else dataLenLenFor dataLen) with
  | none => none
  | some dataLenLen =>
  if dataLenLen > 0 ∧ dataLen ≠ 0 ∧ headerSize + dataLenLen ≥ remaining then some (.ok none)
  else
  let headerSize := if dataLenLen > 0 then headerSize + dataLenLen else headerSize
  let dataLen :=
    if dataLenLen > 0 ∧ remaining < dataLen + headerSize then remaining - headerSize else dataLen
  let shouldSetFin := fin && dataLen == writeBufferLen
  if dataLen = 0 ∧ shouldSetFin = false then some (.ok none)
  else if remaining < headerSize then some (.ok none)
  else
  let streamTypeBuilder := if dataLenLen > 0 then streamTypeBuilder.setLength else streamTypeBuilder
  let streamTypeBuilder := if shouldSetFin then streamTypeBuilder.setFin else streamTypeBuilder
  let streamType := streamTypeBuilder.build
  let builder := builder.writeBE 1 streamType.fieldValue.toNat
  (builder.write idInt).bind fun builder =>
  (match groupIdInt with | some groupId => builder.write groupId | none => some builder).bind
    fun builder =>
  (if offset ≠ 0 then builder.write offsetInt else some builder).bind fun builder =>
  (if dataLenLen > 0 then builder.write ⟨dataLen⟩ else some builder).bind fun builder =>
  let builder :=
    if appendFrame then
      builder.appendFrame (.writeStreamFrame ⟨id.toNat, offset.toNat, dataLen.toNat, streamType.hasFin⟩)
    else builder.markNonEmpty
  some (.ok (some (dataLen, builder)))

def writeStreamFrameData (builder : PacketBuilder) (writeBuffer : List UInt8) (dataLen : UInt64) :
    PacketBuilder :=
  if dataLen > 0 then builder.insertLimit writeBuffer dataLen.toNat else builder

/-- A stream group frame that fills the packet is written without a length field, but its type,
`GROUP_STREAM` (0x32), already has the length bit set: the decoder reads the first data byte as
the length and returns one byte of the seven. -/
theorem group_stream_frame_misread :
    ∃ header, writeStreamFrameHeader { remainingBytes := 10, headerForm := .short } 0 0 100 100 false
        none (some 0) true = some (.ok (some (7, header))) ∧
      (writeStreamFrameData header ((List.range' 1 100).map UInt8.ofNat) 7).body =
        [0x32, 0x00, 0x00, 1, 2, 3, 4, 5, 6, 7] ∧
      decodeStreamFrame [0x00, 0x00, 1, 2, 3, 4, 5, 6, 7] ⟨0x32⟩ true =
        .ok ((⟨0, 0, [2], false⟩, some 0), [3, 4, 5, 6, 7]) :=
  ⟨_, rfl, rfl, rfl⟩

end Mvfst.Codec
