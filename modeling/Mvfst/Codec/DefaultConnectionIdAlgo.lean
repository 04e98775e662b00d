import Mvfst.Codec.Types
import Mvfst.Lib.WordBits
import Mathlib.Tactic.IntervalCases

/-!
# Server connection ids

`DefaultConnectionIdAlgo` of `quic/codec/DefaultConnectionIdAlgo.cpp`: a server writes its
version, host, process and worker ids into the first bytes of a random connection id, and reads
them back from the ids its peers send. Each field has a setter that clears its bits and ORs the
new ones in, and a getter that masks and shifts them out; a V1 id packs a 2-bit version, a 16-bit
host id, an 8-bit worker id and a 1-bit process id into 26 bits across four bytes.

The bytes are `uint8_t`; the C++ integer promotions are followed: a mask is applied before a
value is narrowed, and a shift that overflows `int` (`data()[1] << 24` in V3) is taken modulo
`2^32`, as the compilers do.
-/

namespace Mvfst.Codec

inductive ConnectionIdVersion where
  | V0 | V1 | V2 | V3
  deriving DecidableEq, Repr

namespace ConnectionIdVersion

def toUInt8 : ConnectionIdVersion → UInt8
  | V0 => 0
  | V1 => 1
  | V2 => 2
  | V3 => 3

/-- `static_cast<ConnectionIdVersion>` of the two version bits. -/
def ofUInt8 (version : UInt8) : ConnectionIdVersion :=
  if version = 1 then V1 else if version = 2 then V2 else if version = 3 then V3 else V0

end ConnectionIdVersion

structure ServerConnectionIdParams where
  version : ConnectionIdVersion := .V0
  hostId : UInt32 := 0
  processId : UInt8 := 0
  workerId : UInt8 := 0
  deriving DecidableEq, Repr

def kDefaultConnectionIdSize : Nat := 8

def kMinSelfConnectionIdV1Size : Nat := 4

def kMinSelfConnectionIdV2Size : Nat := 6

def kMinSelfConnectionIdV3Size : Nat := 7

def kProcessIdV1BitMask : UInt8 := 0x20

def kProcessIdV2BitMask : UInt8 := 0x80

def kProcessIdV3BitMask : UInt8 := 0x80

def kHostIdV1FirstByteMask : UInt8 := 0x3f

def kHostIdV1SecondByteMask : UInt8 := 0xff

def kHostIdV1ThirdByteMask : UInt8 := 0xc0

def kWorkerIdV1FirstByteMask : UInt8 := 0xfc

def kWorkerIdV1SecondByteMask : UInt8 := 0x03

def kShortVersionBitsMask : UInt8 := 0xc0

namespace ConnectionId

def size (connId : ConnectionId) : Nat := connId.bytes.length

/-- `data()[index]`. -/
def byte (connId : ConnectionId) (index : Nat) : UInt8 := connId.bytes.getD index 0

/-- `data()[index] = value`. -/
def setByte (connId : ConnectionId) (index : Nat) (value : UInt8) : ConnectionId :=
  ⟨connId.bytes.set index value, by simpa using connId.size_le⟩

/-- `createRandom(len)`, the random source giving the byte at each index. -/
def createRandom (len : Nat) (random : Nat → UInt8) : Except QuicError ConnectionId :=
  if fits : len ≤ kMaxConnectionIdSize then .ok ⟨(List.range len).map random, by simpa using fits⟩
  else .error ⟨.transport .internalError, "ConnectionId invalid size"⟩

@[simp] theorem size_setByte (connId : ConnectionId) (index : Nat) (value : UInt8) :
    (connId.setByte index value).size = connId.size := by
  simp [setByte, size]

@[simp] theorem byte_setByte (connId : ConnectionId) {index other : Nat} (value : UInt8)
    (inside : index < connId.size) :
    (connId.setByte index value).byte other = if index = other then value else connId.byte other := by
  unfold setByte byte
  split_ifs with same
  · subst same
    simp [List.getD_eq_getElem?_getD, List.getElem?_set_self inside]
  · simp [List.getD_eq_getElem?_getD, List.getElem?_set_ne same]

end ConnectionId

open ConnectionId

def setVersionBitsInConnId (connId : ConnectionId) (version : ConnectionIdVersion) :
    Except QuicError ConnectionId :=
  if connId.size = 0 then .error ⟨.transport .internalError, "ConnectionId is too small for version"⟩
  else
    let first := connId.byte 0 &&& ~~~kShortVersionBitsMask
    .ok (connId.setByte 0 (first ||| (kShortVersionBitsMask &&& (version.toUInt8 <<< 6))))

def getVersionBitsFromConnId (connId : ConnectionId) : Except QuicError ConnectionIdVersion :=
  if connId.size = 0 then .error ⟨.transport .internalError, "ConnectionId is too small for version"⟩
  else .ok (.ofUInt8 ((kShortVersionBitsMask &&& connId.byte 0) >>> 6))

def setHostIdBitsInConnId (connId : ConnectionId) (hostId : UInt32) :
    ConnectionIdVersion → Except QuicError ConnectionId
  | .V1 =>
    if connId.size < kMinSelfConnectionIdV1Size then
      .error ⟨.transport .internalError, "ConnectionId is too small for hostid V1"⟩
    else
      let hostIdV1 := hostId.toUInt16
      let first := connId.byte 0 &&& ~~~kHostIdV1FirstByteMask
      let second := connId.byte 1 &&& ~~~kHostIdV1SecondByteMask
      let third := connId.byte 2 &&& ~~~kHostIdV1ThirdByteMask
      .ok (((connId.setByte 0 (first ||| (kHostIdV1FirstByteMask &&& (hostIdV1 >>> 10).toUInt8))).setByte
        1 (second ||| (kHostIdV1SecondByteMask &&& (hostIdV1 >>> 2).toUInt8))).setByte
        2 (third ||| (kHostIdV1ThirdByteMask &&& (hostIdV1 <<< 6).toUInt8)))
  | .V2 =>
    if connId.size < kMinSelfConnectionIdV2Size then
      .error ⟨.transport .internalError, "ConnectionId is too small for hostid V2"⟩
    else
      .ok (((connId.setByte 1 (hostId >>> 16).toUInt8).setByte 2 (hostId >>> 8).toUInt8).setByte
        3 hostId.toUInt8)
  | .V3 =>
    if connId.size < kMinSelfConnectionIdV3Size then
      .error ⟨.transport .internalError, "ConnectionId is too small for hostid V3"⟩
    else
      .ok ((((connId.setByte 1 (hostId >>> 24).toUInt8).setByte 2 (hostId >>> 16).toUInt8).setByte
        3 (hostId >>> 8).toUInt8).setByte 4 hostId.toUInt8)
  | .V0 => .error ⟨.transport .internalError, "Unsupported CID version"⟩

def getHostIdBitsInConnId (connId : ConnectionId) (version : ConnectionIdVersion) :
    Except QuicError UInt32 :=
  if connId.size < kMinSelfConnectionIdV1Size then
    .error ⟨.transport .internalError, "ConnectionId is too small for hostid"⟩
  else
    match version with
    | .V1 =>
      -- a `uint16_t` built from the three bytes
      let hostId : UInt16 := (kHostIdV1FirstByteMask &&& connId.byte 0).toUInt16
      let hostId := hostId <<< 10
      let hostId := hostId ||| (kHostIdV1SecondByteMask &&& connId.byte 1).toUInt16 <<< 2
      let hostId := hostId ||| ((kHostIdV1ThirdByteMask &&& connId.byte 2) >>> 6).toUInt16
      .ok hostId.toUInt32
    | .V2 =>
      if connId.size < kMinSelfConnectionIdV2Size then
        .error ⟨.transport .internalError, "ConnectionId is too small for hostid V2"⟩
      else
        .ok ((connId.byte 1).toUInt32 <<< 16 ||| (connId.byte 2).toUInt32 <<< 8 |||
          (connId.byte 3).toUInt32)
    | .V3 =>
      if connId.size < kMinSelfConnectionIdV3Size then
        .error ⟨.transport .internalError, "ConnectionId is too small for hostid V3"⟩
      else
        .ok ((connId.byte 1).toUInt32 <<< 24 ||| (connId.byte 2).toUInt32 <<< 16 |||
          (connId.byte 3).toUInt32 <<< 8 ||| (connId.byte 4).toUInt32)
    | .V0 => .error ⟨.transport .internalError, "Unsupported CID version"⟩

def setWorkerIdBitsInConnId (connId : ConnectionId) (workerId : UInt8) :
    ConnectionIdVersion → Except QuicError ConnectionId
  | .V1 =>
    if connId.size < kMinSelfConnectionIdV1Size then
      .error ⟨.transport .internalError, "ConnectionId is too small for workerid"⟩
    else
      let third := connId.byte 2 &&& 0xc0
      let fourth := connId.byte 3 &&& 0x3f
      .ok ((connId.setByte 2 (third ||| (kWorkerIdV1FirstByteMask &&& workerId) >>> 2)).setByte
        3 (fourth ||| (kWorkerIdV1SecondByteMask &&& workerId) <<< 6))
  | .V2 =>
    if connId.size < kMinSelfConnectionIdV2Size then
      .error ⟨.transport .internalError, "ConnectionId is too small for hostid V2"⟩
    else .ok (connId.setByte 4 workerId)
  | .V3 =>
    if connId.size < kMinSelfConnectionIdV3Size then
      .error ⟨.transport .internalError, "ConnectionId is too small for hostid V3"⟩
    else .ok (connId.setByte 5 workerId)
  | .V0 => .error ⟨.transport .internalError, "Unsupported CID version"⟩

def getWorkerIdFromConnId (connId : ConnectionId) : ConnectionIdVersion → Except QuicError UInt8
  | .V1 =>
    if connId.size < kMinSelfConnectionIdV1Size then
      .error ⟨.transport .internalError, "ConnectionId is too small for workerid"⟩
    else .ok (connId.byte 2 <<< 2 ||| connId.byte 3 >>> 6)
  | .V2 =>
    if connId.size < kMinSelfConnectionIdV2Size then
      .error ⟨.transport .internalError, "ConnectionId is too small for workerid V2"⟩
    else .ok (connId.byte 4)
  | .V3 =>
    if connId.size < kMinSelfConnectionIdV3Size then
      .error ⟨.transport .internalError, "ConnectionId is too small for workerid V3"⟩
    else .ok (connId.byte 5)
  | .V0 => .error ⟨.transport .internalError, "Unsupported CID version"⟩

def setProcessIdBitsInConnId (connId : ConnectionId) (processId : UInt8) :
    ConnectionIdVersion → Except QuicError ConnectionId
  | .V1 =>
    if connId.size < kMinSelfConnectionIdV1Size then
      .error ⟨.transport .internalError, "ConnectionId is too small for processid"⟩
    else
      .ok (connId.setByte 3 (connId.byte 3 &&& ~~~kProcessIdV1BitMask |||
        kProcessIdV1BitMask &&& processId <<< 5))
  | .V2 =>
    if connId.size < kMinSelfConnectionIdV2Size then
      .error ⟨.transport .internalError, "ConnectionId is too small for processid V2"⟩
    else
      .ok (connId.setByte 5 (connId.byte 5 &&& ~~~kProcessIdV2BitMask |||
        kProcessIdV2BitMask &&& processId <<< 7))
  | .V3 =>
    if connId.size < kMinSelfConnectionIdV3Size then
      .error ⟨.transport .internalError, "ConnectionId is too small for processid V3"⟩
    else
      .ok (connId.setByte 6 (connId.byte 6 &&& ~~~kProcessIdV3BitMask |||
        kProcessIdV3BitMask &&& processId <<< 7))
  | .V0 => .error ⟨.transport .internalError, "Unsupported CID version"⟩

def getProcessIdBitsFromConnId (connId : ConnectionId) : ConnectionIdVersion → Except QuicError UInt8
  | .V1 =>
    if connId.size < kMinSelfConnectionIdV1Size then
      .error ⟨.transport .internalError, "ConnectionId is too small for processid"⟩
    else .ok ((kProcessIdV1BitMask &&& connId.byte 3) >>> 5)
  | .V2 =>
    if connId.size < kMinSelfConnectionIdV2Size then
      .error ⟨.transport .internalError, "ConnectionId is too small for processid V2"⟩
    else .ok ((kProcessIdV2BitMask &&& connId.byte 5) >>> 7)
  | .V3 =>
    if connId.size < kMinSelfConnectionIdV3Size then
      .error ⟨.transport .internalError, "ConnectionId is too small for processid V3"⟩
    else .ok ((kProcessIdV3BitMask &&& connId.byte 6) >>> 7)
  | .V0 => .error ⟨.transport .internalError, "Unsupported CID version"⟩

def canParse (id : ConnectionId) : Bool :=
  match getVersionBitsFromConnId id with
  | .error _ => false
  | .ok .V1 => decide (id.size ≥ kMinSelfConnectionIdV1Size)
  | .ok .V2 => decide (id.size ≥ kMinSelfConnectionIdV2Size)
  | .ok .V3 => decide (id.size ≥ kMinSelfConnectionIdV3Size)
  | .ok .V0 => false

def parseConnectionIdDefault (id : ConnectionId) : Except QuicError ServerConnectionIdParams := do
  let version ← getVersionBitsFromConnId id
  let hostId ← getHostIdBitsInConnId id version
  let processId ← getProcessIdBitsFromConnId id version
  let workerId ← getWorkerIdFromConnId id version
  return { version, hostId, processId, workerId }

def parseConnectionId (id : ConnectionId) : Except QuicError ServerConnectionIdParams :=
  parseConnectionIdDefault id

def encodeConnectionId (params : ServerConnectionIdParams) (random : Nat → UInt8) :
    Except QuicError ConnectionId := do
  let connId ← createRandom kDefaultConnectionIdSize random
  let connId ← setVersionBitsInConnId connId params.version
  let connId ← setHostIdBitsInConnId connId params.hostId params.version
  let connId ← setProcessIdBitsInConnId connId params.processId params.version
  setWorkerIdBitsInConnId connId params.workerId params.version

/-- The bits of the host field of each version. -/
def hostIdBits : ConnectionIdVersion → Nat
  | .V1 => 16
  | .V2 => 24
  | _ => 32

/-! ### Each field read back from its bits -/

section Bits

open WordBits

variable (first second third fourth : UInt8)

theorem shortVersionBits_set (version : ConnectionIdVersion) :
    ConnectionIdVersion.ofUInt8 ((kShortVersionBitsMask &&& (first &&& ~~~kShortVersionBitsMask |||
      kShortVersionBitsMask &&& version.toUInt8 <<< 6)) >>> 6) = version := by
  have bits : (kShortVersionBitsMask &&& (first &&& ~~~kShortVersionBitsMask |||
      kShortVersionBitsMask &&& version.toUInt8 <<< 6)) >>> 6 = version.toUInt8 := by
    apply UInt8.toBitVec_inj.mp
    apply BitVec.eq_of_getLsbD_eq
    intro i inside
    cases version <;> simp [kShortVersionBitsMask, ConnectionIdVersion.toUInt8] <;>
      interval_cases i <;> simp
  rw [bits]
  cases version <;> rfl

/-- The V1 host id leaves the version bits of the first byte alone. -/
theorem shortVersionBits_hostIdV1 (hostPart : UInt8) :
    kShortVersionBitsMask &&&
        (first &&& ~~~kHostIdV1FirstByteMask ||| kHostIdV1FirstByteMask &&& hostPart) =
      kShortVersionBitsMask &&& first := by
  apply UInt8.toBitVec_inj.mp
  apply BitVec.eq_of_getLsbD_eq
  intro i inside
  simp [kShortVersionBitsMask, kHostIdV1FirstByteMask]
  interval_cases i <;> simp

theorem hostIdV1_set (hostId : UInt32) (fits : hostId.toNat < 2 ^ 16) :
    ((kHostIdV1FirstByteMask &&& (first &&& ~~~kHostIdV1FirstByteMask |||
        kHostIdV1FirstByteMask &&& (hostId.toUInt16 >>> 10).toUInt8)).toUInt16 <<< 10 |||
      (kHostIdV1SecondByteMask &&& (second &&& ~~~kHostIdV1SecondByteMask |||
        kHostIdV1SecondByteMask &&& (hostId.toUInt16 >>> 2).toUInt8)).toUInt16 <<< 2 |||
      ((kHostIdV1ThirdByteMask &&& (third &&& ~~~kHostIdV1ThirdByteMask |||
        kHostIdV1ThirdByteMask &&& (hostId.toUInt16 <<< 6).toUInt8)) >>> 6).toUInt16).toUInt32 =
      hostId := by
  apply UInt32.toBitVec_inj.mp
  apply BitVec.eq_of_getLsbD_eq
  intro i inside
  -- the conversions become `setWidth` and the shifts shifts by constants, bit by bit
  simp only [UInt16.toBitVec_or, UInt8.toBitVec_or, UInt8.toBitVec_and, UInt16.toBitVec_toUInt32,
    UInt8.toBitVec_toUInt16, UInt16.toBitVec_toUInt8, UInt32.toBitVec_toUInt16,
    UInt16.toBitVec_shiftLeft, UInt16.toBitVec_shiftRight, UInt8.toBitVec_shiftRight,
    UInt8.toBitVec_not, BitVec.shiftLeft_eq', BitVec.ushiftRight_eq', BitVec.getLsbD_or,
    BitVec.getLsbD_and, BitVec.getLsbD_setWidth, BitVec.getLsbD_shiftLeft,
    BitVec.getLsbD_ushiftRight, BitVec.getLsbD_not, kHostIdV1FirstByteMask, kHostIdV1SecondByteMask,
    kHostIdV1ThirdByteMask]
  interval_cases i <;> simp [getElem_of_lt_two_pow (x := hostId.toBitVec) fits]

/-- The V1 worker id leaves the host bits of the third byte alone. -/
theorem hostIdV1Bits_workerId (workerId : UInt8) :
    kHostIdV1ThirdByteMask &&& (third &&& (0xc0 : UInt8) ||| (kWorkerIdV1FirstByteMask &&& workerId) >>> 2) =
      kHostIdV1ThirdByteMask &&& third := by
  apply UInt8.toBitVec_inj.mp
  apply BitVec.eq_of_getLsbD_eq
  intro i inside
  simp [kHostIdV1ThirdByteMask, kWorkerIdV1FirstByteMask]
  interval_cases i <;> simp

/-- The V1 worker id leaves the process bit of the fourth byte alone. -/
theorem processIdV1Bit_workerId (workerId : UInt8) :
    kProcessIdV1BitMask &&& (fourth &&& (0x3f : UInt8) ||| (kWorkerIdV1SecondByteMask &&& workerId) <<< 6) =
      kProcessIdV1BitMask &&& fourth := by
  apply UInt8.toBitVec_inj.mp
  apply BitVec.eq_of_getLsbD_eq
  intro i inside
  simp [kProcessIdV1BitMask, kWorkerIdV1SecondByteMask]
  interval_cases i <;> simp

theorem workerIdV1_set (workerId : UInt8) :
    (third &&& (0xc0 : UInt8) ||| (kWorkerIdV1FirstByteMask &&& workerId) >>> 2) <<< 2 |||
      (fourth &&& (0x3f : UInt8) ||| (kWorkerIdV1SecondByteMask &&& workerId) <<< 6) >>> 6 = workerId := by
  apply UInt8.toBitVec_inj.mp
  apply BitVec.eq_of_getLsbD_eq
  intro i inside
  simp [kWorkerIdV1FirstByteMask, kWorkerIdV1SecondByteMask]
  interval_cases i <;> simp

/-- The process bit at `shift`, set and read back through `mask = 1 << shift`. -/
theorem processIdBit_set (processId : UInt8) (process : processId ≤ 1) {mask shift : UInt8}
    (at5or7 : mask = 0x20 ∧ shift = 5 ∨ mask = 0x80 ∧ shift = 7) :
    (mask &&& (fourth &&& ~~~mask ||| mask &&& processId <<< shift)) >>> shift = processId := by
  have small : processId.toBitVec.toNat < 2 ^ 1 := by
    have bound := UInt8.le_iff_toNat_le.mp process
    simp only [UInt8.toNat_one] at bound
    exact Nat.lt_succ_of_le bound
  apply UInt8.toBitVec_inj.mp
  apply BitVec.eq_of_getLsbD_eq
  intro i inside
  rcases at5or7 with ⟨rfl, rfl⟩ | ⟨rfl, rfl⟩ <;> simp <;> interval_cases i <;>
    simp [getElem_of_lt_two_pow small]

theorem hostIdV2_set (hostId : UInt32) (fits : hostId.toNat < 2 ^ 24) :
    (hostId >>> 16).toUInt8.toUInt32 <<< 16 ||| (hostId >>> 8).toUInt8.toUInt32 <<< 8 |||
      hostId.toUInt8.toUInt32 = hostId := by
  apply UInt32.toBitVec_inj.mp
  apply BitVec.eq_of_getLsbD_eq
  intro i inside
  simp only [UInt32.toBitVec_or, UInt32.toBitVec_toUInt8, UInt8.toBitVec_toUInt32,
    UInt32.toBitVec_shiftLeft, UInt32.toBitVec_shiftRight, BitVec.shiftLeft_eq', BitVec.ushiftRight_eq',
    BitVec.getLsbD_or, BitVec.getLsbD_setWidth, BitVec.getLsbD_shiftLeft, BitVec.getLsbD_ushiftRight]
  interval_cases i <;> simp [getElem_of_lt_two_pow (x := hostId.toBitVec) fits]

theorem hostIdV3_set (hostId : UInt32) :
    (hostId >>> 24).toUInt8.toUInt32 <<< 24 ||| (hostId >>> 16).toUInt8.toUInt32 <<< 16 |||
      (hostId >>> 8).toUInt8.toUInt32 <<< 8 ||| hostId.toUInt8.toUInt32 = hostId := by
  apply UInt32.toBitVec_inj.mp
  apply BitVec.eq_of_getLsbD_eq
  intro i inside
  simp only [UInt32.toBitVec_or, UInt32.toBitVec_toUInt8, UInt8.toBitVec_toUInt32,
    UInt32.toBitVec_shiftLeft, UInt32.toBitVec_shiftRight, BitVec.shiftLeft_eq', BitVec.ushiftRight_eq',
    BitVec.getLsbD_or, BitVec.getLsbD_setWidth, BitVec.getLsbD_shiftLeft, BitVec.getLsbD_ushiftRight]
  interval_cases i <;> simp

end Bits

/-! ### What each setter changes -/

section Setters

variable (connId : ConnectionId)

theorem setVersionBitsInConnId_spec (version : ConnectionIdVersion) (nonempty : 0 < connId.size) :
    ∃ versioned, setVersionBitsInConnId connId version = .ok versioned ∧
      versioned.size = connId.size ∧ getVersionBitsFromConnId versioned = .ok version := by
  refine ⟨_, by rw [setVersionBitsInConnId, if_neg (by omega)], by simp, ?_⟩
  rw [getVersionBitsFromConnId, if_neg (by simp; omega), byte_setByte _ _ nonempty, if_pos rfl,
    shortVersionBits_set]

theorem setHostIdBitsInConnId_spec (hostId : UInt32) (version : ConnectionIdVersion)
    (supported : version ≠ .V0) (large : kMinSelfConnectionIdV3Size ≤ connId.size)
    (fits : hostId.toNat < 2 ^ hostIdBits version) :
    ∃ hosted, setHostIdBitsInConnId connId hostId version = .ok hosted ∧
      hosted.size = connId.size ∧
      getVersionBitsFromConnId hosted = getVersionBitsFromConnId connId ∧
      getHostIdBitsInConnId hosted version = .ok hostId := by
  unfold kMinSelfConnectionIdV3Size at large
  have sizes : ¬ connId.size < 4 ∧ ¬ connId.size < 6 ∧ ¬ connId.size < 7 ∧ ¬ connId.size = 0 := by
    omega
  cases version with
  | V0 => exact absurd rfl supported
  | V1 =>
    refine ⟨_, by rw [setHostIdBitsInConnId, if_neg (by unfold kMinSelfConnectionIdV1Size; omega)],
      by simp, ?_, ?_⟩
    · -- only the low bits of the first byte change
      simp (disch := (try simp only [size_setByte]); omega) only [getVersionBitsFromConnId,
        size_setByte, byte_setByte, Nat.reduceEqDiff, ↓reduceIte, shortVersionBits_hostIdV1]
    · simp (disch := (try simp only [size_setByte]); omega) only [getHostIdBitsInConnId,
        size_setByte, byte_setByte, Nat.reduceEqDiff, ↓reduceIte, kMinSelfConnectionIdV1Size, sizes]
      rw [hostIdV1_set _ _ _ _ fits]
  | V2 =>
    refine ⟨_, by rw [setHostIdBitsInConnId, if_neg (by unfold kMinSelfConnectionIdV2Size; omega)],
      by simp, ?_, ?_⟩
    · simp (disch := (try simp only [size_setByte]); omega) only [getVersionBitsFromConnId,
        size_setByte, byte_setByte, Nat.reduceEqDiff, ↓reduceIte]
    · simp (disch := (try simp only [size_setByte]); omega) only [getHostIdBitsInConnId,
        size_setByte, byte_setByte, Nat.reduceEqDiff, ↓reduceIte, kMinSelfConnectionIdV1Size,
        kMinSelfConnectionIdV2Size, sizes]
      rw [hostIdV2_set _ fits]
  | V3 =>
    refine ⟨_, by rw [setHostIdBitsInConnId, if_neg (by unfold kMinSelfConnectionIdV3Size; omega)],
      by simp, ?_, ?_⟩
    · simp (disch := (try simp only [size_setByte]); omega) only [getVersionBitsFromConnId,
        size_setByte, byte_setByte, Nat.reduceEqDiff, ↓reduceIte]
    · simp (disch := (try simp only [size_setByte]); omega) only [getHostIdBitsInConnId,
        size_setByte, byte_setByte, Nat.reduceEqDiff, ↓reduceIte, kMinSelfConnectionIdV1Size,
        kMinSelfConnectionIdV3Size, sizes]
      rw [hostIdV3_set]

theorem setProcessIdBitsInConnId_spec (processId : UInt8) (version : ConnectionIdVersion)
    (supported : version ≠ .V0) (large : kMinSelfConnectionIdV3Size ≤ connId.size)
    (process : processId ≤ 1) :
    ∃ processed, setProcessIdBitsInConnId connId processId version = .ok processed ∧
      processed.size = connId.size ∧
      getVersionBitsFromConnId processed = getVersionBitsFromConnId connId ∧
      getHostIdBitsInConnId processed version = getHostIdBitsInConnId connId version ∧
      getProcessIdBitsFromConnId processed version = .ok processId := by
  unfold kMinSelfConnectionIdV3Size at large
  have sizes : ¬ connId.size < 4 ∧ ¬ connId.size < 6 ∧ ¬ connId.size < 7 ∧ ¬ connId.size = 0 := by
    omega
  cases version with
  | V0 => exact absurd rfl supported
  | V1 =>
    refine ⟨_, by rw [setProcessIdBitsInConnId, if_neg (by unfold kMinSelfConnectionIdV1Size; omega)],
      by simp, ?_, ?_, ?_⟩
    all_goals simp (disch := (try simp only [size_setByte]); omega) only [getVersionBitsFromConnId,
      getHostIdBitsInConnId, getProcessIdBitsFromConnId, size_setByte, byte_setByte,
      Nat.reduceEqDiff, ↓reduceIte, kMinSelfConnectionIdV1Size, sizes]
    rw [@processIdBit_set _ _ process kProcessIdV1BitMask 5 (.inl ⟨rfl, rfl⟩)]
  | V2 =>
    refine ⟨_, by rw [setProcessIdBitsInConnId, if_neg (by unfold kMinSelfConnectionIdV2Size; omega)],
      by simp, ?_, ?_, ?_⟩
    all_goals simp (disch := (try simp only [size_setByte]); omega) only [getVersionBitsFromConnId,
      getHostIdBitsInConnId, getProcessIdBitsFromConnId, size_setByte, byte_setByte,
      Nat.reduceEqDiff, ↓reduceIte, kMinSelfConnectionIdV1Size, kMinSelfConnectionIdV2Size, sizes]
    rw [@processIdBit_set _ _ process kProcessIdV2BitMask 7 (.inr ⟨rfl, rfl⟩)]
  | V3 =>
    refine ⟨_, by rw [setProcessIdBitsInConnId, if_neg (by unfold kMinSelfConnectionIdV3Size; omega)],
      by simp, ?_, ?_, ?_⟩
    all_goals simp (disch := (try simp only [size_setByte]); omega) only [getVersionBitsFromConnId,
      getHostIdBitsInConnId, getProcessIdBitsFromConnId, size_setByte, byte_setByte,
      Nat.reduceEqDiff, ↓reduceIte, kMinSelfConnectionIdV1Size, kMinSelfConnectionIdV3Size, sizes]
    rw [@processIdBit_set _ _ process kProcessIdV3BitMask 7 (.inr ⟨rfl, rfl⟩)]

theorem setWorkerIdBitsInConnId_spec (workerId : UInt8) (version : ConnectionIdVersion)
    (supported : version ≠ .V0) (large : kMinSelfConnectionIdV3Size ≤ connId.size) :
    ∃ worked, setWorkerIdBitsInConnId connId workerId version = .ok worked ∧
      worked.size = connId.size ∧
      getVersionBitsFromConnId worked = getVersionBitsFromConnId connId ∧
      getHostIdBitsInConnId worked version = getHostIdBitsInConnId connId version ∧
      getProcessIdBitsFromConnId worked version = getProcessIdBitsFromConnId connId version ∧
      getWorkerIdFromConnId worked version = .ok workerId := by
  unfold kMinSelfConnectionIdV3Size at large
  have sizes : ¬ connId.size < 4 ∧ ¬ connId.size < 6 ∧ ¬ connId.size < 7 ∧ ¬ connId.size = 0 := by
    omega
  cases version with
  | V0 => exact absurd rfl supported
  | V1 =>
    -- the worker id shares the third byte with the host id and the fourth with the process id
    refine ⟨_, by rw [setWorkerIdBitsInConnId, if_neg (by unfold kMinSelfConnectionIdV1Size; omega)],
      by simp, ?_, ?_, ?_, ?_⟩
    all_goals simp (disch := (try simp only [size_setByte]); omega) only [getVersionBitsFromConnId,
      getHostIdBitsInConnId, getProcessIdBitsFromConnId, getWorkerIdFromConnId, size_setByte,
      byte_setByte, Nat.reduceEqDiff, ↓reduceIte, kMinSelfConnectionIdV1Size, sizes,
      hostIdV1Bits_workerId, processIdV1Bit_workerId]
    rw [workerIdV1_set]
  | V2 =>
    refine ⟨_, by rw [setWorkerIdBitsInConnId, if_neg (by unfold kMinSelfConnectionIdV2Size; omega)],
      by simp, ?_, ?_, ?_, ?_⟩
    all_goals simp (disch := (try simp only [size_setByte]); omega) only [getVersionBitsFromConnId,
      getHostIdBitsInConnId, getProcessIdBitsFromConnId, getWorkerIdFromConnId, size_setByte,
      byte_setByte, Nat.reduceEqDiff, ↓reduceIte, kMinSelfConnectionIdV1Size,
      kMinSelfConnectionIdV2Size, sizes]
  | V3 =>
    refine ⟨_, by rw [setWorkerIdBitsInConnId, if_neg (by unfold kMinSelfConnectionIdV3Size; omega)],
      by simp, ?_, ?_, ?_, ?_⟩
    all_goals simp (disch := (try simp only [size_setByte]); omega) only [getVersionBitsFromConnId,
      getHostIdBitsInConnId, getProcessIdBitsFromConnId, getWorkerIdFromConnId, size_setByte,
      byte_setByte, Nat.reduceEqDiff, ↓reduceIte, kMinSelfConnectionIdV1Size,
      kMinSelfConnectionIdV3Size, sizes]

end Setters

theorem createRandom_default (random : Nat → UInt8) :
    ∃ connId, createRandom kDefaultConnectionIdSize random = .ok connId ∧ connId.size = 8 :=
  ⟨_, rfl, by simp [ConnectionId.size, kDefaultConnectionIdSize]⟩

/-- A server connection id round-trips: written over any random eight bytes, the fields of every
supported version read back as they were written, and the id parses; V0 ids cannot be written. -/
theorem encodeConnectionId_parseConnectionId (params : ServerConnectionIdParams) (random : Nat → UInt8) :
    (params.version = .V0 → ∃ error, encodeConnectionId params random = .error error) ∧
      (params.version ≠ .V0 → params.hostId.toNat < 2 ^ hostIdBits params.version →
        params.processId ≤ 1 → ∃ connId, encodeConnectionId params random = .ok connId ∧
          parseConnectionId connId = .ok params ∧ canParse connId = true) := by
  obtain ⟨created, randomly, eight⟩ := createRandom_default random
  obtain ⟨versioned, setVersion, versionedSize, versionRead⟩ :=
    setVersionBitsInConnId_spec created params.version (by omega)
  constructor
  · intro unsupported
    refine ⟨⟨.transport .internalError, "Unsupported CID version"⟩, ?_⟩
    rw [unsupported] at setVersion
    simp only [encodeConnectionId, randomly, unsupported, setVersion, bind, Except.bind,
      setHostIdBitsInConnId]
  · intro supported hostIdFits processIdBit
    have large : kMinSelfConnectionIdV3Size ≤ versioned.size := by
      unfold kMinSelfConnectionIdV3Size
      omega
    obtain ⟨hosted, setHost, hostedSize, hostedVersion, hostRead⟩ :=
      setHostIdBitsInConnId_spec versioned params.hostId params.version supported large hostIdFits
    obtain ⟨processed, setProcess, processedSize, processedVersion, processedHost, processRead⟩ :=
      setProcessIdBitsInConnId_spec hosted params.processId params.version supported
        (hostedSize ▸ large) processIdBit
    obtain ⟨worked, setWorker, workedSize, workedVersion, workedHost, workedProcess, workerRead⟩ :=
      setWorkerIdBitsInConnId_spec processed params.workerId params.version supported
        (processedSize ▸ hostedSize ▸ large)
    -- each field is read back through the setters written after it
    have version : getVersionBitsFromConnId worked = .ok params.version := by
      rw [workedVersion, processedVersion, hostedVersion, versionRead]
    refine ⟨worked, ?_, ?_, ?_⟩
    · simp only [encodeConnectionId, randomly, setVersion, setHost, setProcess, setWorker, bind,
        Except.bind]
    · simp only [parseConnectionId, parseConnectionIdDefault, version, workedHost, processedHost,
        hostRead, workedProcess, processRead, workerRead, bind, Except.bind, pure, Except.pure]
    · have size : worked.size = 8 := by rw [workedSize, processedSize, hostedSize, versionedSize, eight]
      unfold canParse
      rw [version]
      cases hasVersion : params.version with
      | V0 => exact absurd hasVersion supported
      | V1 | V2 | V3 => simp [size, kMinSelfConnectionIdV1Size, kMinSelfConnectionIdV2Size,
          kMinSelfConnectionIdV3Size]

/-- A V1 id of host 4660, process 1 and worker 171. -/
theorem encodeConnectionId_parseConnectionId_v1 :
    (4660 : UInt32).toNat < 2 ^ hostIdBits .V1 ∧ (1 : UInt8) ≤ 1 ∧
      ∃ connId, encodeConnectionId ⟨.V1, 4660, 1, 171⟩ (fun index => UInt8.ofNat (37 * index)) =
        .ok connId ∧ parseConnectionId connId = .ok ⟨.V1, 4660, 1, 171⟩ ∧ canParse connId = true :=
  ⟨by decide, by decide,
    (encodeConnectionId_parseConnectionId ⟨.V1, 4660, 1, 171⟩ (fun index => UInt8.ofNat (37 * index))).2
      (by decide) (by decide) (by decide)⟩

end Mvfst.Codec
