import Mathlib

/-!
# AF_XDP frames

The frame `XskSender` writes into a umem slot (`xsk/XskSender.cpp`, `xsk/packet_utils.cpp`): an
Ethernet header, an IPv4 or IPv6 header, a UDP header and the payload. The headers are structs
copied to memory on a little-endian host: a field the source sets with `htons` holds its bytes in
network order, one set directly holds them in host order, and a bit-field pair shares a byte low
nibble first. The UDP checksum is summed over the packet as the host reads it, in little-endian
words, and stored the same way.
-/

namespace Mvfst.Xsk

/-- `htons` on a little-endian host. -/
def htons (value : UInt16) : UInt16 := (value <<< 8) ||| (value >>> 8)

/-- The bytes of a 16-bit field in memory on a little-endian host. -/
def hostBytes (value : UInt16) : List UInt8 := [value.toUInt8, (value >>> 8).toUInt8]

/-- A 16-bit word read from memory on a little-endian host. -/
def readHost16 (bytes : List UInt8) (index : Nat) : Nat :=
  (bytes.getD index 0).toNat + 256 * (bytes.getD (index + 1) 0).toNat

def readHost32 (bytes : List UInt8) (index : Nat) : Nat :=
  readHost16 bytes index + 65536 * readHost16 bytes (index + 2)

/-- A `folly::IPAddress`: its bytes in network order, 4 or 16 of them. -/
structure IPAddress where
  isV6 : Bool
  bytes : List UInt8
  size_eq : bytes.length = if isV6 then 16 else 4
  deriving DecidableEq

structure SocketAddress where
  ipAddress : IPAddress
  port : UInt16
  deriving DecidableEq

def ETH_P_IP : UInt16 := 0x0800
def ETH_P_IPV6 : UInt16 := 0x86DD
def IPPROTO_UDP : UInt8 := 17
def kDefaultTos : UInt8 := 0
def kDefaultTtl : UInt8 := 64

def sizeofEthhdr : Nat := 14
def sizeofIphdr : Nat := 20
def sizeofIpv6hdr : Nat := 40
def sizeofUdphdr : Nat := 8

structure Ethhdr where
  hDest : List UInt8 := List.replicate 6 0
  hSource : List UInt8 := List.replicate 6 0
  hProto : UInt16 := 0
  deriving DecidableEq, Repr

def Ethhdr.bytes (header : Ethhdr) : List UInt8 := header.hDest ++ header.hSource ++ hostBytes header.hProto

/-- `struct iphdr`; `ihl` and `version` share the first byte. -/
structure Iphdr where
  ihl : UInt8 := 0
  version : UInt8 := 0
  tos : UInt8 := 0
  totLen : UInt16 := 0
  id : UInt16 := 0
  fragOff : UInt16 := 0
  ttl : UInt8 := 0
  protocol : UInt8 := 0
  check : UInt16 := 0
  saddr : List UInt8 := List.replicate 4 0
  daddr : List UInt8 := List.replicate 4 0
  deriving DecidableEq, Repr

def Iphdr.bytes (header : Iphdr) : List UInt8 :=
  [(header.ihl &&& (0x0F : UInt8)) ||| ((header.version &&& (0x0F : UInt8)) <<< (4 : UInt8)), header.tos] ++ hostBytes header.totLen ++
    hostBytes header.id ++ hostBytes header.fragOff ++ [header.ttl, header.protocol] ++
    hostBytes header.check ++ header.saddr ++ header.daddr

/-- `struct ipv6hdr`; `priority` and `version` share the first byte. -/
structure Ipv6hdr where
  priority : UInt8 := 0
  version : UInt8 := 0
  flowLbl : List UInt8 := List.replicate 3 0
  payloadLen : UInt16 := 0
  nexthdr : UInt8 := 0
  hopLimit : UInt8 := 0
  saddr : List UInt8 := List.replicate 16 0
  daddr : List UInt8 := List.replicate 16 0
  deriving DecidableEq, Repr

def Ipv6hdr.bytes (header : Ipv6hdr) : List UInt8 :=
  [(header.priority &&& (0x0F : UInt8)) ||| ((header.version &&& (0x0F : UInt8)) <<< (4 : UInt8))] ++ header.flowLbl ++
    hostBytes header.payloadLen ++ [header.nexthdr, header.hopLimit] ++ header.saddr ++ header.daddr

/-! ### packet_utils -/

/-- `while (sum >> 16) sum = (sum & 0xFFFF) + (sum >> 16)`. -/
def foldCarries (sum : Nat) : Nat :=
  if sum >>> 16 = 0 then sum else foldCarries ((sum &&& 0xFFFF) + (sum >>> 16))
termination_by sum
decreasing_by
  rw [Nat.and_two_pow_sub_one_eq_mod _ 16, Nat.shiftRight_eq_div_pow] at *
  omega

/-- The 16-bit words of a header, each read high byte first. -/
def bigEndianWords : List UInt8 → List Nat
  | high :: low :: rest => (high.toNat <<< 8 + low.toNat) :: bigEndianWords rest
  | _ => []

/-- The one's complement of the folded sum, taken in the 64-bit `unsigned long` the source sums in. -/
def calculateIPv4Checksum (header : List UInt8) : UInt16 :=
  (~~~(UInt64.ofNat (foldCarries (bigEndianWords header).sum)) &&& 0xFFFF).toUInt16

/-- `memcpy` of `size` bytes from an address or MAC into a fixed field. -/
def fixedBytes (size : Nat) (bytes : List UInt8) : List UInt8 := (bytes ++ List.replicate size 0).take size

def writeIpHeaderV4 (dstAddr srcAddr : IPAddress) (ipHdr : Iphdr) (payloadLen : UInt16) : List UInt8 :=
  let payloadLen := payloadLen + UInt16.ofNat sizeofIphdr
  let ipHdrCopy := { ipHdr with totLen := htons payloadLen, daddr := fixedBytes 4 dstAddr.bytes,
                                saddr := fixedBytes 4 srcAddr.bytes }
  let check := htons (calculateIPv4Checksum ipHdrCopy.bytes)
  { ipHdrCopy with check := if check = 0 then 0xFFFF else check }.bytes

def writeIpHeaderV6 (dstAddr srcAddr : IPAddress) (ipv6Hdr : Ipv6hdr) (payloadLen : UInt16) :
    List UInt8 :=
  { ipv6Hdr with payloadLen := htons payloadLen, daddr := fixedBytes 16 dstAddr.bytes,
                 saddr := fixedBytes 16 srcAddr.bytes }.bytes

def writeUdpHeader (srcPort dstPort csum len : UInt16) : List UInt8 :=
  hostBytes (htons srcPort) ++ hostBytes (htons dstPort) ++ hostBytes (htons len) ++ hostBytes csum

/-- The loop over the UDP header and payload: 32-bit words while four bytes are left, then a
16-bit word, then a last byte. -/
def payloadSum (packet : List UInt8) (index : Nat) : Nat → Nat
  | len + 4 => readHost32 packet index + payloadSum packet (index + 4) len
  | 3 => readHost16 packet index + (packet.getD (index + 2) 0).toNat
  | 2 => readHost16 packet index
  | 1 => (packet.getD index 0).toNat
  | 0 => 0

/-- Sums the pseudo-header and the `len` bytes from the UDP header on, and stores the checksum in
the UDP header's `check` field. -/
def writeChecksum (dstAddr srcAddr : IPAddress) (packet : List UInt8) (len : UInt16) : List UInt8 :=
  let udpStart := (if dstAddr.isV6 then sizeofIpv6hdr else sizeofIphdr) + sizeofEthhdr
  let termination := if srcAddr.isV6 then 8 else 2
  let addressSum := ((List.range termination).map fun i =>
    readHost16 srcAddr.bytes (2 * i) + readHost16 dstAddr.bytes (2 * i)).sum
  let sum := (len.toNat + 17) <<< 8 + addressSum + payloadSum packet udpStart len.toNat
  let checksum := (~~~(UInt64.ofNat (foldCarries sum))).toUInt16
  let checksum : UInt16 := if checksum = 0 then 0xFFFF else checksum
  (packet.set (udpStart + 6) checksum.toUInt8).set (udpStart + 7) (checksum >>> 8).toUInt8

/-! ### XskSender -/

structure MacAddress where
  bytes : List UInt8
  size_eq : bytes.length = 6
  deriving DecidableEq

/-- The header templates; `{}` zero-initialises them, as the members' initialisers do. -/
structure XskSender where
  ethhdr : Ethhdr := {}
  iphdr : Iphdr := {}
  ipv6hdr : Ipv6hdr := {}
  deriving DecidableEq, Repr

namespace XskSender

def initAddresses (sender : XskSender) (localMac gatewayMac : MacAddress) : XskSender :=
  { sender with
    ethhdr := { sender.ethhdr with hDest := fixedBytes 6 gatewayMac.bytes,
                                   hSource := fixedBytes 6 localMac.bytes, hProto := htons ETH_P_IPV6 }
    ipv6hdr := { sender.ipv6hdr with version := 6, flowLbl := [0, 0, 0], priority := kDefaultTos,
                                     nexthdr := IPPROTO_UDP, hopLimit := kDefaultTtl }
    iphdr := { sender.iphdr with version := 4, ihl := 5, tos := kDefaultTos, protocol := IPPROTO_UDP,
                                 ttl := kDefaultTtl, fragOff := 0x40 } }

/-- The IP header for the family of `family`: the source picks it by the source address in one
writer and by the peer in the other. -/
def writeIpHeader (sender : XskSender) (family : IPAddress) (peer src : SocketAddress)
    (ipPayloadLen : UInt16) : List UInt8 :=
  if family.isV6 then writeIpHeaderV6 peer.ipAddress src.ipAddress sender.ipv6hdr ipPayloadLen
  else writeIpHeaderV4 peer.ipAddress src.ipAddress sender.iphdr ipPayloadLen

/-- `writeUdpPacketToBuffer`: the frame written for `len` bytes of `data`. -/
def writeUdpPacketToBuffer (sender : XskSender) (peer src : SocketAddress) (data : List UInt8)
    (len : UInt16) : List UInt8 :=
  let ipPayloadLen := len + UInt16.ofNat sizeofUdphdr
  let packet := sender.ethhdr.bytes ++ sender.writeIpHeader src.ipAddress peer src ipPayloadLen ++
    writeUdpHeader src.port peer.port 0 ipPayloadLen ++ data.take len.toNat
  writeChecksum peer.ipAddress src.ipAddress packet (len + UInt16.ofNat sizeofUdphdr)

/-- `writeUdpPacketScaffoldingToBuffer`: the frame around a payload already in the buffer. -/
def writeUdpPacketScaffoldingToBuffer (sender : XskSender) (peer src : SocketAddress)
    (payload : List UInt8) (payloadLength : UInt16) : List UInt8 :=
  let ethhdrCopy :=
    if !peer.ipAddress.isV6 then { sender.ethhdr with hProto := htons ETH_P_IP } else sender.ethhdr
  let ipPayloadLen := payloadLength + UInt16.ofNat sizeofUdphdr
  let packet := ethhdrCopy.bytes ++ sender.writeIpHeader peer.ipAddress peer src ipPayloadLen ++
    writeUdpHeader src.port peer.port 0 ipPayloadLen ++ payload.take payloadLength.toNat
  writeChecksum peer.ipAddress src.ipAddress packet ipPayloadLen

/-- `descriptor->len` in `writeUdpPacket`. -/
def writeUdpPacketDescriptorLen (src : SocketAddress) (len : UInt16) : Nat :=
  len.toNat + sizeofUdphdr + (if src.ipAddress.isV6 then sizeofIpv6hdr else sizeofIphdr) + sizeofEthhdr

/-- `descriptor->len` in `writeXskBuffer`. -/
def writeXskBufferDescriptorLen (peer : SocketAddress) (payloadLength : UInt16) : Nat :=
  payloadLength.toNat + sizeofUdphdr + (if peer.ipAddress.isV6 then sizeofIpv6hdr else sizeofIphdr) +
    sizeofEthhdr

end XskSender

/-! ### The Ethernet type of an IPv4 frame -/

@[simp] theorem length_fixedBytes (size : Nat) (bytes : List UInt8) :
    (fixedBytes size bytes).length = size := by
  simp [fixedBytes]

@[simp] theorem length_hostBytes (value : UInt16) : (hostBytes value).length = 2 := rfl

/-- The checksum lands in the UDP header: the bytes before it stay as they are. -/
theorem getElem?_writeChecksum (dstAddr srcAddr : IPAddress) (packet : List UInt8) (len : UInt16)
    {index : Nat} (front : index < sizeofEthhdr + sizeofIphdr + 6) :
    (writeChecksum dstAddr srcAddr packet len)[index]? = packet[index]? := by
  have udpStart : sizeofEthhdr + sizeofIphdr ≤
      (if dstAddr.isV6 then sizeofIpv6hdr else sizeofIphdr) + sizeofEthhdr := by
    split <;> simp [sizeofIpv6hdr, sizeofIphdr, sizeofEthhdr]
  unfold writeChecksum
  dsimp only
  rw [List.getElem?_set_ne (by omega), List.getElem?_set_ne (by omega)]

/-- The bytes of the Ethernet type field. -/
theorem getElem?_ethhdr_bytes {header : Ethhdr} (dest : header.hDest.length = 6)
    (source : header.hSource.length = 6) :
    header.bytes[12]? = some header.hProto.toUInt8 ∧
      header.bytes[13]? = some (header.hProto >>> 8).toUInt8 := by
  simp [Ethhdr.bytes, hostBytes, dest, source]

theorem length_ethhdr_bytes {header : Ethhdr} (dest : header.hDest.length = 6)
    (source : header.hSource.length = 6) : header.bytes.length = sizeofEthhdr := by
  simp [Ethhdr.bytes, dest, source, sizeofEthhdr]

/-- The first byte of an IPv4 header holds the version and the header length. -/
theorem writeIpHeaderV4_versionByte (dstAddr srcAddr : IPAddress) (ipHdr : Iphdr) (payloadLen : UInt16)
    (rest : List UInt8) :
    (writeIpHeaderV4 dstAddr srcAddr ipHdr payloadLen ++ rest)[0]? =
      some ((ipHdr.ihl &&& (0x0F : UInt8)) ||| ((ipHdr.version &&& (0x0F : UInt8)) <<< (4 : UInt8))) := by
  simp [writeIpHeaderV4, Iphdr.bytes]

/-- After `initAddresses`, an IPv4 frame written whole carries the IPv6 Ethernet type 0x86DD in
front of its IPv4 header (first byte 0x45); the scaffolding writer gives the same frame the
IPv4 type 0x0800. -/
theorem writeUdpPacketToBuffer_ipv4_ethertype (sender : XskSender) (localMac gatewayMac : MacAddress)
    (peer src : SocketAddress) (data : List UInt8) (len : UInt16) (srcIpv4 : src.ipAddress.isV6 = false)
    (peerIpv4 : peer.ipAddress.isV6 = false) :
    ((sender.initAddresses localMac gatewayMac).writeUdpPacketToBuffer peer src data len)[12]? =
        some 0x86 ∧
      ((sender.initAddresses localMac gatewayMac).writeUdpPacketToBuffer peer src data len)[13]? =
        some 0xDD ∧
      ((sender.initAddresses localMac gatewayMac).writeUdpPacketToBuffer peer src data len)[14]? =
        some 0x45 ∧
      ((sender.initAddresses localMac gatewayMac).writeUdpPacketScaffoldingToBuffer peer src data
        len)[12]? = some 0x08 ∧
      ((sender.initAddresses localMac gatewayMac).writeUdpPacketScaffoldingToBuffer peer src data
        len)[13]? = some 0x00 := by
  set initialized := sender.initAddresses localMac gatewayMac with initialized_def
  have proto : initialized.ethhdr.hProto = htons ETH_P_IPV6 := by rw [initialized_def]; rfl
  have dest : initialized.ethhdr.hDest.length = 6 := length_fixedBytes _ _
  have source : initialized.ethhdr.hSource.length = 6 := length_fixedBytes _ _
  obtain ⟨typeLow, typeHigh⟩ := getElem?_ethhdr_bytes dest source
  have scaffold : ∀ proto : UInt16,
      ({ initialized.ethhdr with hProto := proto } : Ethhdr).bytes[12]? = some proto.toUInt8 ∧
      ({ initialized.ethhdr with hProto := proto } : Ethhdr).bytes[13]? = some (proto >>> 8).toUInt8 :=
    fun proto => getElem?_ethhdr_bytes dest source
  have ethLength := length_ethhdr_bytes dest source
  simp only [XskSender.writeUdpPacketToBuffer, XskSender.writeUdpPacketScaffoldingToBuffer,
    XskSender.writeIpHeader, srcIpv4, peerIpv4, Bool.not_false, if_true, Bool.false_eq_true, if_false]
  refine ⟨?_, ?_, ?_, ?_, ?_⟩
  all_goals
    rw [getElem?_writeChecksum _ _ _ _ (by decide)]
    simp only [List.append_assoc]
  · rw [List.getElem?_append_left (by rw [ethLength]; decide), typeLow, proto]
    rfl
  · rw [List.getElem?_append_left (by rw [ethLength]; decide), typeHigh, proto]
    rfl
  · have template : initialized.iphdr.ihl = 5 ∧ initialized.iphdr.version = 4 := by
      rw [initialized_def]
      exact ⟨rfl, rfl⟩
    rw [List.getElem?_append_right (by rw [ethLength]; decide), ethLength,
      show 14 - sizeofEthhdr = 0 from rfl, writeIpHeaderV4_versionByte, template.1, template.2]
    decide
  · rw [List.getElem?_append_left (by simp [Ethhdr.bytes, dest, source]), (scaffold _).1]
    rfl
  · rw [List.getElem?_append_left (by simp [Ethhdr.bytes, dest, source]), (scaffold _).2]
    rfl

theorem writeUdpPacketToBuffer_ipv4_ethertype_loopback :
    let peer : SocketAddress := ⟨⟨false, [127, 0, 0, 1], rfl⟩, 443⟩
    let src : SocketAddress := ⟨⟨false, [127, 0, 0, 2], rfl⟩, 4433⟩
    let mac : MacAddress := ⟨[2, 0, 0, 0, 0, 1], rfl⟩
    src.ipAddress.isV6 = false ∧ peer.ipAddress.isV6 = false ∧
      ((({} : XskSender).initAddresses mac mac).writeUdpPacketToBuffer peer src [1, 2, 3] 3)[12]? =
        some 0x86 ∧
      ((({} : XskSender).initAddresses mac mac).writeUdpPacketToBuffer peer src [1, 2, 3] 3)[13]? =
        some 0xDD ∧
      ((({} : XskSender).initAddresses mac mac).writeUdpPacketToBuffer peer src [1, 2, 3] 3)[14]? =
        some 0x45 ∧
      ((({} : XskSender).initAddresses mac mac).writeUdpPacketScaffoldingToBuffer peer src [1, 2, 3]
        3)[12]? = some 0x08 ∧
      ((({} : XskSender).initAddresses mac mac).writeUdpPacketScaffoldingToBuffer peer src [1, 2, 3]
        3)[13]? = some 0x00 :=
  ⟨rfl, rfl, writeUdpPacketToBuffer_ipv4_ethertype {} ⟨[2, 0, 0, 0, 0, 1], rfl⟩ ⟨[2, 0, 0, 0, 0, 1], rfl⟩
    ⟨⟨false, [127, 0, 0, 1], rfl⟩, 443⟩ ⟨⟨false, [127, 0, 0, 2], rfl⟩, 4433⟩ [1, 2, 3] 3 rfl rfl⟩

end Mvfst.Xsk
