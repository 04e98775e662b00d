import Mvfst.Lib.BigEndian
import Mvfst.Exception
import Mvfst.Common.ContiguousCursor

/-!
# QUIC variable-length integers

`codec/QuicInteger.h` and `codec/QuicInteger.cpp`. The encoder ORs a two-bit length tag into the
value truncated to 1, 2, 4 or 8 bytes and hands the word to `bufop`, which appends it big-endian.
The decoder reads the tag from the top two bits of the first byte, pulls that many bytes into a
zeroed `uint64_t`, reads the word big-endian, clears the tag bits and shifts the value down.
-/

namespace Mvfst.Codec
open BigEndian

def kOneByteLimit : UInt64 := 0x3F
def kTwoByteLimit : UInt64 := 0x3FFF
def kFourByteLimit : UInt64 := 0x3FFFFFFF
def kEightByteLimit : UInt64 := 0x3FFFFFFFFFFFFFFF

/-- The bytes `bufop` appends for an integer `width` bytes wide (`BufAppender::writeBE`). -/
def writeBE (width value : Nat) : List UInt8 := toBytes width value

/-! ### Encoding: the bytes `bufop` receives and the size returned -/

def encodeOneByte (value : UInt64) : List UInt8 × Nat :=
  let modified := value.toUInt8
  (writeBE 1 modified.toNat, 1)

def encodeTwoBytes (value : UInt64) : List UInt8 × Nat :=
  let reduced := value.toUInt16
  let modified := reduced ||| 0x4000
  (writeBE 2 modified.toNat, 2)

def encodeFourBytes (value : UInt64) : List UInt8 × Nat :=
  let reduced := value.toUInt32
  let modified := reduced ||| 0x80000000
  (writeBE 4 modified.toNat, 4)

def encodeEightBytes (value : UInt64) : List UInt8 × Nat :=
  let modified := value ||| 0xC000000000000000
  (writeBE 8 modified.toNat, 8)

def encodeQuicInteger (value : UInt64) : Except TransportErrorCode (List UInt8 × Nat) :=
  if value ≤ kOneByteLimit then .ok (encodeOneByte value)
  else if value ≤ kTwoByteLimit then .ok (encodeTwoBytes value)
  else if value ≤ kFourByteLimit then .ok (encodeFourBytes value)
  else if value ≤ kEightByteLimit then .ok (encodeEightBytes value)
  else .error .internalError

/-- `encodeQuicInteger(value, bufop, outputSize)`; `none` is a failed `CHECK`. -/
def encodeQuicIntegerSized (value : UInt64) (outputSize : Int) :
    Option (Except TransportErrorCode (List UInt8 × Nat)) :=
  if outputSize = 1 then if value ≤ kOneByteLimit then some (.ok (encodeOneByte value)) else none
  else if outputSize = 2 then if value ≤ kTwoByteLimit then some (.ok (encodeTwoBytes value)) else none
  else if outputSize = 4 then if value ≤ kFourByteLimit then some (.ok (encodeFourBytes value)) else none
  else if outputSize = 8 then if value ≤ kEightByteLimit then some (.ok (encodeEightBytes value)) else none
  else some (.error .internalError)

def getQuicIntegerSize (value : UInt64) : Except QuicError Nat :=
  if value ≤ kOneByteLimit then .ok 1
  else if value ≤ kTwoByteLimit then .ok 2
  else if value ≤ kFourByteLimit then .ok 4
  else if value ≤ kEightByteLimit then .ok 8
  else .error ⟨.transport .internalError, "Cannot encode value"⟩

/-! ### Decoding -/

def decodeQuicIntegerLength (firstByte : UInt8) : UInt8 :=
  (1 : UInt8) <<< ((firstByte >>> 6) &&& 0x03)

/-- `~(0b11ull << 62)`: every bit but the two length bits. -/
def msbMask : UInt64 := ~~~((0b11 : UInt64) <<< 62)

def decodeQuicInteger (cursor : ContiguousReadCursor) (atMost : UInt64 := 8) :
    Option (UInt64 × Nat) × ContiguousReadCursor :=
  if atMost == 0 || !cursor.canAdvance 1 then (none, cursor)
  else
    let firstByte := cursor.peekBytes.headD 0
    let varintType := (firstByte >>> 6) &&& 0x03
    let bytesExpected := 1 <<< varintType.toNat
    if varintType = 0 then (some ((firstByte &&& 0x3f).toUInt64, 1), cursor.skip 1)
    else if !cursor.canAdvance bytesExpected || atMost.toNat < bytesExpected then (none, cursor)
    else
      let (pulled, advanced) := cursor.pull bytesExpected
      -- `tryPull` fills the first `bytesExpected` bytes of a zeroed `uint64_t`, and
      -- `Endian::big` reads its eight bytes most significant first
      let result := UInt64.ofNat (ofBytes (pulled ++ List.replicate (8 - bytesExpected) 0))
      let result := (result &&& msbMask) >>> UInt64.ofNat ((8 - bytesExpected) <<< 3)
      (some (result, bytesExpected), advanced)

/-! ### Reading the tag and the word -/

theorem msbMask_toNat (w : UInt64) : (w &&& msbMask).toNat = w.toNat % 2 ^ 62 := by
  rw [UInt64.toNat_and, show msbMask.toNat = 2 ^ 62 - 1 from rfl, Nat.and_two_pow_sub_one_eq_mod]

theorem decodedWord_toNat (n x : Nat) (width : 1 ≤ n ∧ n ≤ 8) (fits : x < 256 ^ n) :
    ((UInt64.ofNat (ofBytes (toBytes n x ++ List.replicate (8 - n) 0)) &&& msbMask) >>>
      UInt64.ofNat ((8 - n) <<< 3)).toNat = x % 2 ^ (8 * n - 2) := by
  rw [ofBytes_append_zeros, ofBytes_toBytes, Nat.mod_eq_of_lt fits]
  have bytes : ∀ m, 256 ^ m = 2 ^ (8 * m) := fun m => by rw [Nat.pow_mul]
  have shift : (8 - n) <<< 3 = 8 * (8 - n) := by rw [Nat.shiftLeft_eq]; omega
  have word : x * 256 ^ (8 - n) < 2 ^ 64 := by
    calc x * 256 ^ (8 - n) < 256 ^ n * 256 ^ (8 - n) := Nat.mul_lt_mul_of_pos_right fits (Nat.pow_pos (by decide))
      _ = 2 ^ 64 := by rw [← Nat.pow_add, bytes, show 8 * (n + (8 - n)) = 64 by omega]
  have split : 2 ^ 62 = 2 ^ (8 * n - 2) * 2 ^ (8 * (8 - n)) := by
    rw [← Nat.pow_add, show 8 * n - 2 + 8 * (8 - n) = 62 by omega]
  rw [UInt64.toNat_shiftRight, msbMask_toNat, UInt64.toNat_ofNat', UInt64.toNat_ofNat',
    Nat.mod_eq_of_lt word, shift, bytes, split, Nat.mul_mod_mul_right, Nat.shiftRight_eq_div_pow,
    Nat.mod_eq_of_lt (show 8 * (8 - n) % 2 ^ 64 < 64 by omega),
    Nat.mod_eq_of_lt (show 8 * (8 - n) < 2 ^ 64 by omega), Nat.mul_div_cancel _ (Nat.pow_pos (by decide))]

theorem varintType_toNat (b : UInt8) : ((b >>> 6) &&& 0x03).toNat = b.toNat / 64 := by
  have small := b.toNat_lt
  rw [UInt8.toNat_and, UInt8.toNat_shiftRight,
    show (0x03 : UInt8).toNat = 2 ^ 2 - 1 from rfl, Nat.and_two_pow_sub_one_eq_mod]
  simp only [Nat.shiftRight_eq_div_pow]
  simp
  omega

theorem leading_byte (n x : Nat) (rest : List UInt8) (nonempty : 1 ≤ n) :
    (writeBE n x ++ rest).headD 0 = UInt8.ofNat (x / 256 ^ (n - 1)) := by
  obtain ⟨m, rfl⟩ : ∃ m, n = m + 1 := ⟨n - 1, by omega⟩
  rw [writeBE, toBytes_succ, Nat.add_sub_cancel]
  rfl

/-- Decoding a tagged word `2 ^ t` bytes long, `t ≥ 1`, followed by any bytes. -/
theorem decodeQuicInteger_long (t x : Nat) (rest : List UInt8) (position : Nat) (atMost : UInt64)
    (tag : 1 ≤ t ∧ t ≤ 3) (fits : x < 256 ^ 2 ^ t)
    (leading : x / 256 ^ (2 ^ t - 1) / 64 = t) (room : 2 ^ t ≤ atMost.toNat) :
    decodeQuicInteger ⟨writeBE (2 ^ t) x ++ rest, position⟩ atMost =
      (some (UInt64.ofNat (x % 2 ^ (8 * 2 ^ t - 2)), 2 ^ t), ⟨rest, position + 2 ^ t⟩) := by
  have width : 1 ≤ 2 ^ t ∧ 2 ^ t ≤ 8 := by
    have cases : t = 1 ∨ t = 2 ∨ t = 3 := by omega
    rcases cases with rfl | rfl | rfl <;> decide
  obtain ⟨m, hm⟩ : ∃ m, 2 ^ t - 1 = m := ⟨2 ^ t - 1, rfl⟩
  have first : (UInt8.ofNat (x / 256 ^ m)).toNat = x / 256 ^ m := by
    rw [UInt8.toNat_ofNat', Nat.mod_eq_of_lt]
    rw [show 2 ^ t = m + 1 by omega, Nat.pow_succ] at fits
    exact Nat.div_lt_of_lt_mul (by rw [show (2 : Nat) ^ 8 = 256 from rfl]; exact fits)
  have typeValue : ((UInt8.ofNat (x / 256 ^ m) >>> 6) &&& 0x03).toNat = t := by
    rw [varintType_toNat, first, ← leading, hm]
  have typeNonzero : ((UInt8.ofNat (x / 256 ^ m) >>> 6) &&& 0x03) ≠ 0 := by
    intro zero
    rw [zero] at typeValue
    simp at typeValue
    omega
  have expected : 1 <<< ((UInt8.ofNat (x / 256 ^ m) >>> 6) &&& 0x03).toNat = 2 ^ t := by
    rw [typeValue, Nat.shiftLeft_eq, Nat.one_mul]
  have word := decodedWord_toNat (2 ^ t) x width fits
  unfold decodeQuicInteger
  simp only [ContiguousReadCursor.canAdvance, ContiguousReadCursor.remaining,
    ContiguousReadCursor.peekBytes, ContiguousReadCursor.pull, ContiguousReadCursor.skip,
    leading_byte _ _ _ width.1]
  have atMostNonzero : (atMost == 0) = false := by
    simp only [beq_eq_false_iff_ne, ne_eq]
    intro zero
    rw [zero] at room
    simp at room
  have result : (UInt64.ofNat (ofBytes (toBytes (2 ^ t) x ++ List.replicate (8 - 2 ^ t) 0)) &&&
      msbMask) >>> UInt64.ofNat ((8 - 2 ^ t) <<< 3) = UInt64.ofNat (x % 2 ^ (8 * 2 ^ t - 2)) := by
    apply UInt64.toNat_inj.mp
    have small : x % 2 ^ (8 * 2 ^ t - 2) < 2 ^ 64 :=
      Nat.lt_of_lt_of_le (Nat.mod_lt _ (Nat.two_pow_pos _)) (Nat.pow_le_pow_right (by decide) (by omega))
    rw [word, UInt64.toNat_ofNat', Nat.mod_eq_of_lt small]
  simp only [hm, expected, typeNonzero, atMostNonzero, writeBE, List.length_append, length_toBytes,
    List.take_left', List.drop_left', Bool.false_or, if_false]
  rw [if_neg (by simp), if_neg (by simp; omega), result]

/-! ### Encoding at each size -/

/-- ORing a tag above the value's bits adds it. -/
theorem or_tag (v tag k : Nat) (below : v < 2 ^ k) : v ||| 2 ^ k * tag = 2 ^ k * tag + v := by
  rw [Nat.or_comm, Nat.two_pow_add_eq_or_of_lt below]

theorem encodeOneByte_eq (value : UInt64) (small : value ≤ kOneByteLimit) :
    encodeOneByte value = (writeBE 1 value.toNat, 1) := by
  have bound : value.toNat ≤ 0x3F := UInt64.le_iff_toNat_le.mp small
  simp only [encodeOneByte, UInt64.toNat_toUInt8]
  rw [Nat.mod_eq_of_lt (by omega)]

theorem encodeTwoBytes_eq (value : UInt64) (small : value ≤ kTwoByteLimit) :
    encodeTwoBytes value = (writeBE 2 (2 ^ 14 * 1 + value.toNat), 2) := by
  have bound : value.toNat ≤ 0x3FFF := UInt64.le_iff_toNat_le.mp small
  simp only [encodeTwoBytes, UInt16.toNat_or, UInt64.toNat_toUInt16]
  rw [Nat.mod_eq_of_lt (by omega), show (0x4000 : UInt16).toNat = 2 ^ 14 * 1 from rfl,
    or_tag _ _ _ (by omega)]

theorem encodeFourBytes_eq (value : UInt64) (small : value ≤ kFourByteLimit) :
    encodeFourBytes value = (writeBE 4 (2 ^ 30 * 2 + value.toNat), 4) := by
  have bound : value.toNat ≤ 0x3FFFFFFF := UInt64.le_iff_toNat_le.mp small
  simp only [encodeFourBytes, UInt32.toNat_or, UInt64.toNat_toUInt32]
  rw [Nat.mod_eq_of_lt (by omega), show (0x80000000 : UInt32).toNat = 2 ^ 30 * 2 from rfl,
    or_tag _ _ _ (by omega)]

theorem encodeEightBytes_eq (value : UInt64) (small : value ≤ kEightByteLimit) :
    encodeEightBytes value = (writeBE 8 (2 ^ 62 * 3 + value.toNat), 8) := by
  have bound : value.toNat ≤ 0x3FFFFFFFFFFFFFFF := UInt64.le_iff_toNat_le.mp small
  simp only [encodeEightBytes, UInt64.toNat_or]
  rw [show (0xC000000000000000 : UInt64).toNat = 2 ^ 62 * 3 from rfl, or_tag _ _ _ (by omega)]

/-! ### Round trip -/

/-- `encoded` is `encoded.2` bytes that decode back to `value`, whatever bytes follow. -/
def DecodesTo (value : UInt64) (encoded : List UInt8 × Nat) : Prop :=
  encoded.1.length = encoded.2 ∧ ∀ (rest : List UInt8) (position : Nat),
    decodeQuicInteger ⟨encoded.1 ++ rest, position⟩ = (some (value, encoded.2), ⟨rest, position + encoded.2⟩)

theorem encodeOneByte_decodes (value : UInt64) (small : value ≤ kOneByteLimit) :
    DecodesTo value (encodeOneByte value) := by
  have bound : value.toNat ≤ 0x3F := UInt64.le_iff_toNat_le.mp small
  rw [encodeOneByte_eq value small]
  refine ⟨by simp [writeBE], fun rest position => ?_⟩
  have first : (UInt8.ofNat value.toNat).toNat = value.toNat := by
    rw [UInt8.toNat_ofNat', Nat.mod_eq_of_lt (by omega)]
  have typeZero : (UInt8.ofNat value.toNat >>> 6) &&& 0x03 = 0 := by
    apply UInt8.toNat_inj.mp
    rw [varintType_toNat, first]
    simp
    omega
  have result : (UInt8.ofNat value.toNat &&& 0x3f).toUInt64 = value := by
    apply UInt64.toNat_inj.mp
    rw [UInt8.toNat_toUInt64, UInt8.toNat_and, first,
      show (0x3f : UInt8).toNat = 2 ^ 6 - 1 from rfl, Nat.and_two_pow_sub_one_eq_mod,
      Nat.mod_eq_of_lt (by omega)]
  unfold decodeQuicInteger
  simp only [ContiguousReadCursor.canAdvance, ContiguousReadCursor.remaining,
    ContiguousReadCursor.peekBytes, ContiguousReadCursor.skip, leading_byte _ _ _ (Nat.le_refl 1),
    Nat.sub_self, Nat.pow_zero, Nat.div_one, typeZero, if_true, result]
  simp [writeBE, toBytes]

theorem encodeTwoBytes_decodes (value : UInt64) (small : value ≤ kTwoByteLimit) :
    DecodesTo value (encodeTwoBytes value) := by
  have bound : value.toNat ≤ 0x3FFF := UInt64.le_iff_toNat_le.mp small
  rw [encodeTwoBytes_eq value small]
  refine ⟨by simp [writeBE], fun rest position => ?_⟩
  have decoded := decodeQuicInteger_long 1 (2 ^ 14 * 1 + value.toNat) rest position 8
    (by decide) (by simp; omega) (by simp; omega) (by decide)
  have same : UInt64.ofNat ((2 ^ 14 * 1 + value.toNat) % 2 ^ (8 * 2 ^ 1 - 2)) = value := by
    apply UInt64.toNat_inj.mp
    rw [UInt64.toNat_ofNat']
    simp
    omega
  rw [same] at decoded
  exact decoded

theorem encodeFourBytes_decodes (value : UInt64) (small : value ≤ kFourByteLimit) :
    DecodesTo value (encodeFourBytes value) := by
  have bound : value.toNat ≤ 0x3FFFFFFF := UInt64.le_iff_toNat_le.mp small
  rw [encodeFourBytes_eq value small]
  refine ⟨by simp [writeBE], fun rest position => ?_⟩
  have decoded := decodeQuicInteger_long 2 (2 ^ 30 * 2 + value.toNat) rest position 8
    (by decide) (by simp; omega) (by simp; omega) (by decide)
  have same : UInt64.ofNat ((2 ^ 30 * 2 + value.toNat) % 2 ^ (8 * 2 ^ 2 - 2)) = value := by
    apply UInt64.toNat_inj.mp
    rw [UInt64.toNat_ofNat']
    simp
    omega
  rw [same] at decoded
  exact decoded

theorem encodeEightBytes_decodes (value : UInt64) (small : value ≤ kEightByteLimit) :
    DecodesTo value (encodeEightBytes value) := by
  have bound : value.toNat ≤ 0x3FFFFFFFFFFFFFFF := UInt64.le_iff_toNat_le.mp small
  rw [encodeEightBytes_eq value small]
  refine ⟨by simp [writeBE], fun rest position => ?_⟩
  have decoded := decodeQuicInteger_long 3 (2 ^ 62 * 3 + value.toNat) rest position 8
    (by decide) (by simp; omega) (by simp; omega) (by decide)
  have same : UInt64.ofNat ((2 ^ 62 * 3 + value.toNat) % 2 ^ (8 * 2 ^ 3 - 2)) = value := by
    apply UInt64.toNat_inj.mp
    rw [UInt64.toNat_ofNat']
    simp
    omega
  rw [same] at decoded
  exact decoded

theorem decodeQuicIntegerLength_toNat (firstByte : UInt8) :
    (decodeQuicIntegerLength firstByte).toNat = 2 ^ (firstByte.toNat / 64) := by
  have small := firstByte.toNat_lt
  have type := varintType_toNat firstByte
  have bounded : firstByte.toNat / 64 < 4 := by omega
  rw [decodeQuicIntegerLength, UInt8.toNat_shiftLeft, type]
  have cases : firstByte.toNat / 64 = 0 ∨ firstByte.toNat / 64 = 1 ∨ firstByte.toNat / 64 = 2 ∨
      firstByte.toNat / 64 = 3 := by omega
  rcases cases with same | same | same | same <;> rw [same] <;> rfl

/-- The decoder stops, leaving the cursor where it was, when the bytes the first byte announces
are not all there or `atMost` forbids reading them. -/
theorem decodeQuicInteger_short_input (cursor : ContiguousReadCursor) (atMost : UInt64)
    (short : cursor.remainingBytes = [] ∨
      cursor.remaining < (decodeQuicIntegerLength (cursor.peekBytes.headD 0)).toNat ∨
      atMost.toNat < (decodeQuicIntegerLength (cursor.peekBytes.headD 0)).toNat) :
    decodeQuicInteger cursor atMost = (none, cursor) := by
  rw [decodeQuicIntegerLength_toNat] at short
  unfold decodeQuicInteger
  by_cases stop : (atMost == 0 || !cursor.canAdvance 1) = true
  · rw [if_pos stop]
  rw [if_neg stop]
  simp only [Bool.or_eq_true, beq_iff_eq, Bool.not_eq_eq_eq_not, Bool.not_true,
    ContiguousReadCursor.canAdvance, decide_eq_false_iff_not, not_or, not_not] at stop
  obtain ⟨nonzero, present⟩ := stop
  have nonempty : cursor.remainingBytes ≠ [] := by
    intro empty
    simp [ContiguousReadCursor.remaining, empty] at present
  have atLeastOne : 1 ≤ atMost.toNat := by
    rcases Nat.eq_zero_or_pos atMost.toNat with zero | positive
    · exact absurd (UInt64.toNat_inj.mp (by simpa using zero)) nonzero
    · exact positive
  have announced : cursor.remaining < 2 ^ ((cursor.peekBytes.headD 0).toNat / 64) ∨
      atMost.toNat < 2 ^ ((cursor.peekBytes.headD 0).toNat / 64) :=
    short.resolve_left nonempty
  have typeValue := varintType_toNat (cursor.peekBytes.headD 0)
  by_cases zeroType : (cursor.peekBytes.headD 0 >>> 6) &&& 0x03 = 0
  · -- a one-byte integer is always there once the cursor is non-empty
    have oneByte : (cursor.peekBytes.headD 0).toNat / 64 = 0 := by rw [← typeValue, zeroType]; rfl
    rw [oneByte, Nat.pow_zero] at announced
    omega
  rw [if_neg zeroType, if_pos]
  rw [typeValue]
  simp only [Bool.or_eq_true, Bool.not_eq_eq_eq_not, Bool.not_true, ContiguousReadCursor.canAdvance,
    decide_eq_false_iff_not, Nat.not_le, decide_eq_true_eq, Nat.shiftLeft_eq, Nat.one_mul]
  exact announced

/-- The encoder takes the first size whose limit fits the value, the size `getQuicIntegerSize`
reports, and writes bytes that decode back to the value. -/
theorem encodeQuicInteger_spec (value : UInt64) (fits : value ≤ kEightByteLimit) :
    ∃ (bytes : List UInt8) (n : Nat), encodeQuicInteger value = .ok (bytes, n) ∧
      getQuicIntegerSize value = .ok n ∧ bytes.length = n ∧
      ((n = 1 ∧ value ≤ kOneByteLimit) ∨ (n = 2 ∧ kOneByteLimit < value ∧ value ≤ kTwoByteLimit) ∨
        (n = 4 ∧ kTwoByteLimit < value ∧ value ≤ kFourByteLimit) ∨
        (n = 8 ∧ kFourByteLimit < value)) ∧
      ∀ (rest : List UInt8) (position : Nat),
        decodeQuicInteger ⟨bytes ++ rest, position⟩ = (some (value, n), ⟨rest, position + n⟩) := by
  by_cases one : value ≤ kOneByteLimit
  · obtain ⟨length, decodes⟩ := encodeOneByte_decodes value one
    exact ⟨_, 1, by rw [encodeQuicInteger, if_pos one]; rfl,
      by rw [getQuicIntegerSize, if_pos one], length, .inl ⟨rfl, one⟩, decodes⟩
  by_cases two : value ≤ kTwoByteLimit
  · obtain ⟨length, decodes⟩ := encodeTwoBytes_decodes value two
    exact ⟨_, 2, by rw [encodeQuicInteger, if_neg one, if_pos two]; rfl,
      by rw [getQuicIntegerSize, if_neg one, if_pos two], length,
      .inr (.inl ⟨rfl, UInt64.not_le.mp one, two⟩), decodes⟩
  by_cases four : value ≤ kFourByteLimit
  · obtain ⟨length, decodes⟩ := encodeFourBytes_decodes value four
    exact ⟨_, 4, by rw [encodeQuicInteger, if_neg one, if_neg two, if_pos four]; rfl,
      by rw [getQuicIntegerSize, if_neg one, if_neg two, if_pos four], length,
      .inr (.inr (.inl ⟨rfl, UInt64.not_le.mp two, four⟩)), decodes⟩
  · obtain ⟨length, decodes⟩ := encodeEightBytes_decodes value fits
    exact ⟨_, 8, by rw [encodeQuicInteger, if_neg one, if_neg two, if_neg four, if_pos fits]; rfl,
      by rw [getQuicIntegerSize, if_neg one, if_neg two, if_neg four, if_pos fits], length,
      .inr (.inr (.inr ⟨rfl, UInt64.not_le.mp four⟩)), decodes⟩

theorem quicInteger_round_trip :
    (∀ value : UInt64, value ≤ kEightByteLimit →
      ∃ (bytes : List UInt8) (n : Nat), encodeQuicInteger value = .ok (bytes, n) ∧
        getQuicIntegerSize value = .ok n ∧ bytes.length = n ∧
        ((n = 1 ∧ value ≤ kOneByteLimit) ∨ (n = 2 ∧ kOneByteLimit < value ∧ value ≤ kTwoByteLimit) ∨
          (n = 4 ∧ kTwoByteLimit < value ∧ value ≤ kFourByteLimit) ∨
          (n = 8 ∧ kFourByteLimit < value)) ∧
        ∀ (rest : List UInt8) (position : Nat),
          decodeQuicInteger ⟨bytes ++ rest, position⟩ = (some (value, n), ⟨rest, position + n⟩)) ∧
    (∀ (value : UInt64) (n : Nat),
      (n = 1 ∧ value ≤ kOneByteLimit) ∨ (n = 2 ∧ value ≤ kTwoByteLimit) ∨
        (n = 4 ∧ value ≤ kFourByteLimit) ∨ (n = 8 ∧ value ≤ kEightByteLimit) →
      ∃ bytes : List UInt8, encodeQuicIntegerSized value n = some (.ok (bytes, n)) ∧
        bytes.length = n ∧ ∀ (rest : List UInt8) (position : Nat),
          decodeQuicInteger ⟨bytes ++ rest, position⟩ = (some (value, n), ⟨rest, position + n⟩)) ∧
    (∀ value : UInt64, kEightByteLimit < value →
      encodeQuicInteger value = .error .internalError ∧ ∃ error, getQuicIntegerSize value = .error error) ∧
    (∀ (cursor : ContiguousReadCursor) (atMost : UInt64),
      (cursor.remainingBytes = [] ∨
        cursor.remaining < (decodeQuicIntegerLength (cursor.peekBytes.headD 0)).toNat ∨
        atMost.toNat < (decodeQuicIntegerLength (cursor.peekBytes.headD 0)).toNat) →
      decodeQuicInteger cursor atMost = (none, cursor)) := by
  refine ⟨fun value fits => encodeQuicInteger_spec value fits, fun value n sized => ?_,
    fun value large => ?_, fun cursor atMost short => decodeQuicInteger_short_input cursor atMost short⟩
  · rcases sized with ⟨rfl, small⟩ | ⟨rfl, small⟩ | ⟨rfl, small⟩ | ⟨rfl, small⟩
    · obtain ⟨length, decodes⟩ := encodeOneByte_decodes value small
      exact ⟨_, by simp [encodeQuicIntegerSized, small]; rfl, length, decodes⟩
    · obtain ⟨length, decodes⟩ := encodeTwoBytes_decodes value small
      exact ⟨_, by simp [encodeQuicIntegerSized, small]; rfl, length, decodes⟩
    · obtain ⟨length, decodes⟩ := encodeFourBytes_decodes value small
      exact ⟨_, by simp [encodeQuicIntegerSized, small]; rfl, length, decodes⟩
    · obtain ⟨length, decodes⟩ := encodeEightBytes_decodes value small
      exact ⟨_, by simp [encodeQuicIntegerSized, small]; rfl, length, decodes⟩
  · have above : ¬ value ≤ kEightByteLimit := UInt64.not_le.mpr large
    have limits : ¬ value ≤ kOneByteLimit ∧ ¬ value ≤ kTwoByteLimit ∧ ¬ value ≤ kFourByteLimit := by
      simp only [UInt64.not_le, UInt64.lt_iff_toNat_lt] at above ⊢
      refine ⟨?_, ?_, ?_⟩ <;> exact Nat.lt_of_le_of_lt (by decide) above
    obtain ⟨one, two, four⟩ := limits
    exact ⟨by rw [encodeQuicInteger, if_neg one, if_neg two, if_neg four, if_neg above],
      _, by rw [getQuicIntegerSize, if_neg one, if_neg two, if_neg four, if_neg above]⟩

/-- 15293 is written in two bytes, 0x7bbd, and read back at any position, with any bytes after
it. -/
theorem quicInteger_round_trip_two_bytes :
    encodeQuicInteger 15293 = .ok ([0x7b, 0xbd], 2) ∧ ∀ (rest : List UInt8) (position : Nat),
      decodeQuicInteger ⟨[0x7b, 0xbd] ++ rest, position⟩ = (some (15293, 2), ⟨rest, position + 2⟩) := by
  obtain ⟨bytes, n, encoded, -, -, -, decodes⟩ := quicInteger_round_trip.1 15293 (by decide)
  have written : encodeQuicInteger 15293 = .ok ([0x7b, 0xbd], 2) := by decide
  rw [written, Except.ok.injEq, Prod.mk.injEq] at encoded
  obtain ⟨rfl, rfl⟩ := encoded
  exact ⟨written, decodes⟩

/-! ### The `QuicInteger` class

The frame writers wrap each integer in a `QuicInteger`: `getSize` reports its encoded size, or an
error naming the value, and `encode` appends it, `CHECK`ing that it fits. -/

structure QuicInteger where
  value : UInt64
  deriving DecidableEq, Repr

namespace QuicInteger

/-- A `uint64_t` field as a writer passes it. -/
def ofNat (value : Nat) : QuicInteger := ⟨UInt64.ofNat value⟩

def getValue (integer : QuicInteger) : UInt64 := integer.value

def getSize (integer : QuicInteger) : Except QuicError Nat :=
  match getQuicIntegerSize integer.value with
  | .ok size => .ok size
  | .error _ => .error ⟨.transport .internalError, "Value too large " ++ toString integer.value⟩

/-- The bytes and their count; `none` is the failed `CHECK`. -/
def encode (integer : QuicInteger) : Option (List UInt8 × Nat) :=
  match encodeQuicInteger integer.value with
  | .ok encoded => some encoded
  | .error _ => none

/-- The bytes `encode` appends; none when it fails. -/
def image (integer : QuicInteger) : List UInt8 := (integer.encode.map Prod.fst).getD []

variable {integer : QuicInteger}

theorem encode_of_le (fits : integer.value ≤ kEightByteLimit) :
    integer.encode = some (integer.image, integer.image.length) := by
  obtain ⟨bytes, n, encoded, -, length, -, -⟩ := encodeQuicInteger_spec integer.value fits
  simp [encode, image, encoded, length]

theorem getSize_of_le (fits : integer.value ≤ kEightByteLimit) :
    integer.getSize = .ok integer.image.length := by
  obtain ⟨bytes, n, encoded, sized, length, -, -⟩ := encodeQuicInteger_spec integer.value fits
  simp [getSize, image, encode, encoded, sized, length]

theorem getSize_of_gt (large : kEightByteLimit < integer.value) :
    integer.getSize = .error ⟨.transport .internalError, "Value too large " ++ toString integer.value⟩ := by
  have above : ¬ integer.value ≤ kEightByteLimit := UInt64.not_le.mpr large
  have limits : ¬ integer.value ≤ kOneByteLimit ∧ ¬ integer.value ≤ kTwoByteLimit ∧
      ¬ integer.value ≤ kFourByteLimit := by
    simp only [UInt64.not_le, UInt64.lt_iff_toNat_lt] at above ⊢
    refine ⟨?_, ?_, ?_⟩ <;> exact Nat.lt_of_le_of_lt (by decide) above
  obtain ⟨one, two, four⟩ := limits
  rw [getSize, getQuicIntegerSize, if_neg one, if_neg two, if_neg four, if_neg above]

theorem decodeQuicInteger_image (fits : integer.value ≤ kEightByteLimit) (rest : List UInt8)
    (position : Nat) :
    decodeQuicInteger ⟨integer.image ++ rest, position⟩ =
      (some (integer.value, integer.image.length), ⟨rest, position + integer.image.length⟩) := by
  obtain ⟨bytes, n, encoded, -, length, -, decodes⟩ := encodeQuicInteger_spec integer.value fits
  have image : integer.image = bytes := by simp [QuicInteger.image, encode, encoded]
  rw [image, length]
  exact decodes rest position

/-- The encoding is one byte exactly for values up to `kOneByteLimit`. -/
theorem image_length_eq_one_iff (fits : integer.value ≤ kEightByteLimit) :
    integer.image.length = 1 ↔ integer.value ≤ kOneByteLimit := by
  obtain ⟨bytes, n, encoded, -, length, sizes, -⟩ := encodeQuicInteger_spec integer.value fits
  have image : integer.image = bytes := by simp [QuicInteger.image, encode, encoded]
  rw [image, length]
  rcases sizes with ⟨rfl, small⟩ | ⟨rfl, above, -⟩ | ⟨rfl, above, -⟩ | ⟨rfl, above⟩
  · exact ⟨fun _ => small, fun _ => rfl⟩
  all_goals
    refine ⟨fun one => absurd one (by decide), fun small => ?_⟩
    simp only [UInt64.lt_iff_toNat_lt, UInt64.le_iff_toNat_le] at above small
  · exact absurd above (by omega)
  · have : kOneByteLimit.toNat ≤ kTwoByteLimit.toNat := by decide
    omega
  · have : kOneByteLimit.toNat ≤ kFourByteLimit.toNat := by decide
    omega

theorem ofNat_value_toNat {value : Nat} (small : value < 2 ^ 64) : (ofNat value).value.toNat = value :=
  UInt64.toNat_ofNat_of_lt' small

theorem ofNat_fits {value : Nat} (small : value < 2 ^ 62) : (ofNat value).value ≤ kEightByteLimit := by
  rw [UInt64.le_iff_toNat_le, ofNat_value_toNat (by omega)]
  change value ≤ 2 ^ 62 - 1
  omega

end QuicInteger

end Mvfst.Codec
