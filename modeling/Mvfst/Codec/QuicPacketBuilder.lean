import Mvfst.Codec.QuicInteger
import Mvfst.Codec.Types

/-!
# Packet builder

`RegularQuicPacketBuilder` of `codec/QuicPacketBuilder.cpp` as the frame writers use it: the room
left in the packet (`remainingBytes_`, a `uint32_t` that every write decrements), the bytes the
body appender has taken, and the packet's frames. Of the header only its form is kept, which
`writeSimpleFrame` checks; the header encoding and `buildPacket` are left out.

`WireField` names the three ways a writer puts a field down, so that a frame's wire image is a
list of fields and one lemma says what writing any list does.
-/

namespace Mvfst.Codec

open BigEndian

structure PacketBuilder where
  remainingBytes : UInt32
  body : List UInt8 := []
  frames : List QuicWriteFrame := []
  /-- `packet_.empty`. -/
  empty : Bool := true
  headerForm : HeaderForm
  deriving DecidableEq

namespace PacketBuilder

def remainingSpaceInPkt (builder : PacketBuilder) : UInt32 := builder.remainingBytes

def write (builder : PacketBuilder) (quicInteger : QuicInteger) : Option PacketBuilder :=
  quicInteger.encode.map fun (bytes, size) =>
    { builder with body := builder.body ++ bytes,
                   remainingBytes := builder.remainingBytes - UInt32.ofNat size }

/-- `writeBE` of an integer `width` bytes wide. -/
def writeBE (builder : PacketBuilder) (width value : Nat) : PacketBuilder :=
  { builder with body := builder.body ++ toBytes width value,
                 remainingBytes := builder.remainingBytes - UInt32.ofNat width }

def push (builder : PacketBuilder) (data : List UInt8) : PacketBuilder :=
  { builder with body := builder.body ++ data,
                 remainingBytes := builder.remainingBytes - UInt32.ofNat data.length }

def insert (builder : PacketBuilder) (buf : List UInt8) : PacketBuilder :=
  { builder with remainingBytes := builder.remainingBytes - UInt32.ofNat buf.length,
                 body := builder.body ++ buf }

/-- `insert(buf, limit)`: the first `limit` bytes of the buffer, or all of it. -/
def insertLimit (builder : PacketBuilder) (buf : List UInt8) (limit : Nat) : PacketBuilder :=
  let limit := min limit buf.length
  builder.insert (buf.take limit)

def appendFrame (builder : PacketBuilder) (frame : QuicWriteFrame) : PacketBuilder :=
  { builder with empty := false, frames := builder.frames ++ [frame] }

def markNonEmpty (builder : PacketBuilder) : PacketBuilder := { builder with empty := false }

/-- A PADDING frame after a PADDING frame only counts one more in it. -/
def appendPaddingFrame (builder : PacketBuilder) : PacketBuilder :=
  match builder.frames.getLast? with
  | some (.paddingFrame paddingFrame) =>
    { builder with empty := false,
                   frames := builder.frames.dropLast ++
                     [.paddingFrame { numFrames := paddingFrame.numFrames + 1 }] }
  | _ => { builder with empty := false, frames := builder.frames ++ [.paddingFrame {}] }

/-- What every write does: the body takes `bytes` and the room shrinks by their count. -/
def appendBody (builder : PacketBuilder) (bytes : List UInt8) : PacketBuilder :=
  { builder with body := builder.body ++ bytes,
                 remainingBytes := builder.remainingBytes - UInt32.ofNat bytes.length }

@[simp] theorem appendBody_body (builder : PacketBuilder) (bytes : List UInt8) :
    (builder.appendBody bytes).body = builder.body ++ bytes := rfl

@[simp] theorem appendBody_remainingBytes (builder : PacketBuilder) (bytes : List UInt8) :
    (builder.appendBody bytes).remainingBytes = builder.remainingBytes - UInt32.ofNat bytes.length :=
  rfl

@[simp] theorem appendBody_nil (builder : PacketBuilder) : builder.appendBody [] = builder := by
  simp [appendBody]

theorem appendBody_append (builder : PacketBuilder) (first second : List UInt8) :
    (builder.appendBody first).appendBody second = builder.appendBody (first ++ second) := by
  simp only [appendBody, List.append_assoc, List.length_append, UInt32.ofNat_add]
  congr 1
  apply UInt32.toBitVec_inj.mp
  simp only [UInt32.toBitVec_sub, UInt32.toBitVec_add]
  exact BitVec.sub_sub _ _ _

theorem write_of_le {quicInteger : QuicInteger} (builder : PacketBuilder)
    (fits : quicInteger.value ≤ kEightByteLimit) :
    builder.write quicInteger = some (builder.appendBody quicInteger.image) := by
  simp [write, QuicInteger.encode_of_le fits, appendBody]

end PacketBuilder

/-- A field as a writer puts it down. -/
inductive WireField where
  /-- `builder.write(QuicInteger(value))`. -/
  | quicInteger (integer : QuicInteger)
  /-- `builder.writeBE(value)` of an integer `width` bytes wide. -/
  | writeBE (width value : Nat)
  /-- `builder.push(data)` or `builder.insert(data)`. -/
  | bytes (data : List UInt8)

namespace WireField

/-- The bytes the field puts in the body. -/
def image : WireField → List UInt8
  | .quicInteger integer => integer.image
  | .writeBE width value => toBytes width value
  | .bytes data => data

/-- The field can be written: its QUIC integer, if it is one, fits. -/
def Fits : WireField → Prop
  | .quicInteger integer => integer.value ≤ kEightByteLimit
  | _ => True

end WireField

namespace PacketBuilder

def writeField (builder : PacketBuilder) : WireField → Option PacketBuilder
  | .quicInteger integer => builder.write integer
  | .writeBE width value => some (builder.writeBE width value)
  | .bytes data => some (builder.push data)

/-- The fields in order; `none` when a `CHECK` fails. -/
def writeFields (builder : PacketBuilder) : List WireField → Option PacketBuilder
  | [] => some builder
  | field :: rest => (builder.writeField field).bind (·.writeFields rest)

theorem writeField_of_fits (builder : PacketBuilder) {field : WireField} (fits : field.Fits) :
    builder.writeField field = some (builder.appendBody field.image) := by
  cases field with
  | quicInteger integer => exact builder.write_of_le fits
  | writeBE width value => simp [writeField, writeBE, WireField.image, appendBody]
  | bytes data => simp [writeField, push, WireField.image, appendBody]

/-- Fields that fit put their images down one after another. -/
theorem writeFields_of_fits (builder : PacketBuilder) (fields : List WireField)
    (fits : ∀ field ∈ fields, field.Fits) :
    builder.writeFields fields = some (builder.appendBody (fields.flatMap WireField.image)) := by
  induction fields generalizing builder with
  | nil => simp [writeFields]
  | cons field rest ih =>
    have restFits : ∀ field ∈ rest, field.Fits := fun other mem => fits other (List.mem_cons_of_mem _ mem)
    rw [writeFields, builder.writeField_of_fits (fits field List.mem_cons_self), Option.bind_some,
      ih _ restFits, appendBody_append, List.flatMap_cons]

end PacketBuilder

end Mvfst.Codec
