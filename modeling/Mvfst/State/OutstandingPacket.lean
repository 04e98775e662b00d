import Mvfst.State.Stream.StreamSendHandlers

/-!
Sent packets as the connection keeps them until they are acknowledged or given up on:
`quic/state/OutstandingPacket.h`, the packet header fields of `quic/codec/Types.h` it reads, and
`OutstandingsInfo` of `quic/state/StateData.h` with its counters. Times are microseconds.
Left out: the app-limited and last-acked snapshots, and the byte totals the metadata copies from
the connection, which only statistics and the congestion controller read. DSR packets carry
STREAM frames whose data another host sends (`fromBufMeta`); they have no non-DSR sequence
number and are counted apart.
-/

namespace Mvfst

inductive PacketNumberSpace where
  | initial | handshake | appData
  deriving DecidableEq, Repr

inductive ProtectionType where
  | initial | handshake | zeroRtt | keyPhaseZero | keyPhaseOne
  deriving DecidableEq, Repr

def protectionTypeToPacketNumberSpace : ProtectionType → PacketNumberSpace
  | .initial => .initial
  | .handshake => .handshake
  | .zeroRtt | .keyPhaseZero | .keyPhaseOne => .appData

/-- The packet a clone was made from, shared by the original and all its clones. -/
structure ClonedPacketIdentifier where
  packetNumberSpace : PacketNumberSpace
  packetNumber : Nat
  deriving DecidableEq, Repr

/-- The frames of a written packet, as far as the bookkeeping of sent packets tells them apart;
`other` stands for the control frames that are all retransmittable. -/
inductive QuicWriteFrame where
  | writeStreamFrame (frame : WriteStreamFrame)
  /-- A STREAM frame with `fromBufMeta` set, and the index of its packet among the stream's DSR
  packets (`streamPacketIdx`). -/
  | writeStreamFrameFromBufMeta (frame : WriteStreamFrame) (streamPacketIdx : Nat)
  | writeCryptoFrame (offset len : Nat)
  | writeAckFrame
  | rstStreamFrame (streamId : Nat) (reliableSize : Option Nat)
  | pingFrame
  | paddingFrame
  | datagramFrame
  | other
  deriving DecidableEq, Repr

/-- The frame is a STREAM frame with `fromBufMeta` set. -/
def QuicWriteFrame.fromBufMeta : QuicWriteFrame → Bool
  | .writeStreamFrameFromBufMeta _ _ => true
  | _ => false

structure PacketHeader where
  packetSequenceNum : Nat
  protectionType : ProtectionType
  deriving DecidableEq, Repr

def PacketHeader.getPacketNumberSpace (header : PacketHeader) : PacketNumberSpace :=
  protectionTypeToPacketNumberSpace header.protectionType

structure RegularQuicWritePacket where
  header : PacketHeader
  frames : List QuicWriteFrame
  deriving DecidableEq, Repr

/-- `OutstandingPacketWrapper`; `scheduledForDestruction` is the metadata flag an ACK sets before
the packet is erased. -/
structure OutstandingPacket where
  packet : RegularQuicWritePacket
  time : Nat
  encodedSize : Nat
  declaredLost : Bool := false
  scheduledForDestruction : Bool := false
  maybeClonedPacketIdentifier : Option ClonedPacketIdentifier := none
  nonDsrPacketSequenceNumber : Option Nat := none
  isDSRPacket : Bool := false
  deriving DecidableEq, Repr

namespace OutstandingPacket

def getPacketSequenceNum (p : OutstandingPacket) : Nat := p.packet.header.packetSequenceNum

def packetNumberSpace (p : OutstandingPacket) : PacketNumberSpace :=
  p.packet.header.getPacketNumberSpace

/-- The packets `getNextOutstandingPacket` stops at: of the space, neither declared lost nor
scheduled for destruction. -/
def isOutstandingIn (space : PacketNumberSpace) (p : OutstandingPacket) : Bool :=
  !p.declaredLost && p.packetNumberSpace == space && !p.scheduledForDestruction

end OutstandingPacket

/-- An `EnumArray<PacketNumberSpace, α>`: one value per packet number space. -/
structure EnumArray (α : Type) where
  initial : α
  handshake : α
  appData : α
  deriving DecidableEq, Repr

namespace EnumArray

variable {α : Type}

def get (values : EnumArray α) : PacketNumberSpace → α
  | .initial => values.initial
  | .handshake => values.handshake
  | .appData => values.appData

def modify (values : EnumArray α) (space : PacketNumberSpace) (f : α → α) : EnumArray α :=
  match space with
  | .initial => { values with initial := f values.initial }
  | .handshake => { values with handshake := f values.handshake }
  | .appData => { values with appData := f values.appData }

end EnumArray

/-- `OutstandingsInfo`: the sent packets, sorted by packet number, and the counters kept beside
them. -/
structure OutstandingsInfo where
  packets : List OutstandingPacket := []
  clonedPacketIdentifiers : List ClonedPacketIdentifier := []
  /-- Outstanding packets, clones and cloned ones counted once per group. -/
  packetCount : EnumArray Nat := ⟨0, 0, 0⟩
  /-- Packets that are clones or cloned. -/
  clonedPacketCount : EnumArray Nat := ⟨0, 0, 0⟩
  declaredLostCount : Nat := 0
  scheduledForDestructionCount : Nat := 0
  dsrCount : Nat := 0
  deriving DecidableEq, Repr

end Mvfst
