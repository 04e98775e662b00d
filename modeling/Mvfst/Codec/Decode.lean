import Mvfst.Codec.QuicInteger
import Mvfst.Codec.Types
import Mvfst.Lib.ExceptBind
import Mathlib.Data.List.Chain

/-!
# Decoding ACK and STREAM frames

`decodeAckFrame` and `decodeStreamFrame` of `codec/Decode.cpp` and the helpers they call. The
cursor is the `ContiguousReadCursor` over the frame's bytes; every failure is a
`FRAME_ENCODING_ERROR` with the source's message. `decodeAckHeader` reads the four integers every
ACK frame starts with, in the order and with the messages of the source, which reads them inline.
The queue a STREAM frame is read from is one contiguous buffer here, the one `queue.front()`
names in the source.
-/

namespace Mvfst.Codec

def kDefaultAckDelayExponent : Nat := 3

structure CodecParameters where
  peerAckDelayExponent : UInt8 := 3
  extendedAckFeatures : Nat := 0
  deriving DecidableEq, Repr

def frameEncodingError (message : String) : QuicError := ⟨.transport .frameEncodingError, message⟩

/-- `decodeQuicInteger(cursor)`, failing with `message` when no integer is there. -/
def readQuicInteger (cursor : ContiguousReadCursor) (message : String) :
    Except QuicError (Nat × ContiguousReadCursor) :=
  match decodeQuicInteger cursor with
  | (some (value, _), advanced) => .ok (value.toNat, advanced)
  | (none, _) => .error (frameEncodingError message)

def nextAckedPacketGap (packetNum gap : Nat) : Except QuicError Nat :=
  -- a gap is a QUIC integer, so adding 2 cannot wrap
  let adjustedGap := gap + 2
  if packetNum < adjustedGap then .error (frameEncodingError "Bad gap")
  else .ok (packetNum - adjustedGap)

def nextAckedPacketLen (packetNum ackBlockLen : Nat) : Except QuicError Nat :=
  if packetNum < ackBlockLen then .error (frameEncodingError "Bad block len")
  else .ok (packetNum - ackBlockLen)

def convertEncodedDurationToMicroseconds (exponentToUse : UInt8) (delay : UInt64) :
    Except QuicError UInt64 :=
  if exponentToUse = 0 ∨ 64 ≤ exponentToUse then .ok delay
  else
    let leftShift := 64 - exponentToUse
    let delayOverflowMask : UInt64 := 0xFFFFFFFFFFFFFFFF <<< leftShift.toUInt64
    if delay &&& delayOverflowMask ≠ 0 then .error (frameEncodingError "Decoded delay overflows")
    else
      let adjustedDelay := delay <<< exponentToUse.toUInt64
      -- the largest `std::chrono::microseconds::rep`
      if adjustedDelay > 0x7FFFFFFFFFFFFFFF then .error (frameEncodingError "Bad delay")
      else .ok adjustedDelay

structure AckHeader where
  largestAcked : Nat
  ackDelay : Nat
  additionalAckBlocks : Nat
  firstAckBlockLen : Nat
  deriving DecidableEq, Repr

def decodeAckHeader (cursor : ContiguousReadCursor) :
    Except QuicError (AckHeader × ContiguousReadCursor) := do
  let (largestAcked, cursor) ← readQuicInteger cursor "Bad largest acked"
  let (ackDelay, cursor) ← readQuicInteger cursor "Bad ack delay"
  let (additionalAckBlocks, cursor) ← readQuicInteger cursor "Bad ack block count"
  let (firstAckBlockLen, cursor) ← readQuicInteger cursor "Bad first block"
  pure (⟨largestAcked, ackDelay, additionalAckBlocks, firstAckBlockLen⟩, cursor)

/-- The loop over the additional blocks: a gap below the previous block's start, then a length,
for each of the `count` blocks. -/
def decodeAckBlocks : Nat → ContiguousReadCursor → Nat →
    Except QuicError (List AckBlock × ContiguousReadCursor)
  | 0, cursor, _ => .ok ([], cursor)
  | count + 1, cursor, currentPacketNum => do
    let (currentGap, cursor) ← readQuicInteger cursor "Bad gap"
    let (blockLen, cursor) ← readQuicInteger cursor "Bad block len"
    let nextEndPacket ← nextAckedPacketGap currentPacketNum currentGap
    let currentPacketNum ← nextAckedPacketLen nextEndPacket blockLen
    let (blocks, cursor) ← decodeAckBlocks count cursor currentPacketNum
    pure (⟨currentPacketNum, nextEndPacket⟩ :: blocks, cursor)

/-- Long header packets use the default exponent, as the exponent is not negotiated yet. -/
def ackDelayExponentToUse (headerForm : HeaderForm) (params : CodecParameters) : UInt8 :=
  if headerForm = .long then UInt8.ofNat kDefaultAckDelayExponent else params.peerAckDelayExponent

def decodeAckFrame (cursor : ContiguousReadCursor) (headerForm : HeaderForm)
    (params : CodecParameters) (frameType : FrameType := .ack) :
    Except QuicError (ReadAckFrame × ContiguousReadCursor) := do
  let (header, cursor) ← decodeAckHeader cursor
  let currentPacketNum ← nextAckedPacketLen header.largestAcked header.firstAckBlockLen
  let adjustedDelay ← convertEncodedDurationToMicroseconds (ackDelayExponentToUse headerForm params)
    (UInt64.ofNat header.ackDelay)
  -- a delay over 1000 s is logged and taken as zero
  let adjustedDelay := if adjustedDelay.toNat > 1000 * 1000 * 1000 then 0 else adjustedDelay.toNat
  let (blocks, cursor) ← decodeAckBlocks header.additionalAckBlocks cursor currentPacketNum
  pure ({ largestAcked := header.largestAcked, ackDelay := adjustedDelay,
          ackBlocks := ⟨currentPacketNum, header.largestAcked⟩ :: blocks, frameType }, cursor)

/-! ### The shape of the decoded blocks -/

/-- Blocks as a decoded ACK frame has them: each a range, and each ending at least two packets
below the start of the one above, so that no two touch. -/
structure AckRanges (blocks : List AckBlock) : Prop where
  ranges : ∀ block ∈ blocks, block.startPacket ≤ block.endPacket
  separated : blocks.IsChain fun above below => below.endPacket + 2 ≤ above.startPacket

theorem AckRanges.nil : AckRanges [] := ⟨by simp, .nil⟩

theorem AckRanges.cons {block : AckBlock} {blocks : List AckBlock}
    (range : block.startPacket ≤ block.endPacket)
    (below : ∀ next ∈ blocks.head?, next.endPacket + 2 ≤ block.startPacket) (rest : AckRanges blocks) :
    AckRanges (block :: blocks) := by
  refine ⟨?_, rest.separated.cons below⟩
  intro other member
  rcases List.mem_cons.mp member with rfl | later
  · exact range
  · exact rest.ranges other later

theorem nextAckedPacketGap_eq_ok {packetNum gap next : Nat} :
    nextAckedPacketGap packetNum gap = .ok next ↔ gap + 2 ≤ packetNum ∧ next = packetNum - (gap + 2) := by
  unfold nextAckedPacketGap
  by_cases below : packetNum < gap + 2
  · simp only [if_pos below, reduceCtorEq, false_iff]
    omega
  · simp only [if_neg below, Except.ok.injEq]
    omega

theorem nextAckedPacketLen_eq_ok {packetNum ackBlockLen next : Nat} :
    nextAckedPacketLen packetNum ackBlockLen = .ok next ↔
      ackBlockLen ≤ packetNum ∧ next = packetNum - ackBlockLen := by
  unfold nextAckedPacketLen
  by_cases below : packetNum < ackBlockLen
  · simp only [if_pos below, reduceCtorEq, false_iff]
    omega
  · simp only [if_neg below, Except.ok.injEq]
    omega

/-- The loop decodes one block per count, each below the block it starts from. -/
theorem decodeAckBlocks_ranges {count currentPacketNum : Nat} {cursor cursor' : ContiguousReadCursor}
    {blocks : List AckBlock} (decoded : decodeAckBlocks count cursor currentPacketNum = .ok (blocks, cursor')) :
    blocks.length = count ∧ AckRanges blocks ∧
      ∀ next ∈ blocks.head?, next.endPacket + 2 ≤ currentPacketNum := by
  induction count generalizing cursor cursor' currentPacketNum blocks with
  | zero =>
    simp only [decodeAckBlocks, Except.ok.injEq, Prod.mk.injEq] at decoded
    obtain ⟨rfl, -⟩ := decoded
    exact ⟨rfl, AckRanges.nil, by simp⟩
  | succ count ih =>
    simp only [decodeAckBlocks, Except.bind_eq_ok, Prod.exists, Except.pure_eq_ok, Except.ok.injEq,
      Prod.mk.injEq] at decoded
    obtain ⟨gap, _, -, len, _, -, endPacket, gapOk, startPacket, lenOk, rest, _, restOk, rfl, -⟩ :=
      decoded
    obtain ⟨gapFits, rfl⟩ := nextAckedPacketGap_eq_ok.mp gapOk
    obtain ⟨lenFits, rfl⟩ := nextAckedPacketLen_eq_ok.mp lenOk
    obtain ⟨length, ranges, below⟩ := ih restOk
    refine ⟨by simp [length], AckRanges.cons (Nat.sub_le _ _) (by simpa using below) ranges, ?_⟩
    simp only [List.head?_cons, Option.mem_def, Option.some.injEq, forall_eq']
    omega

/-- A frame the decoder returns starts with the block below the largest acknowledged packet, and its
blocks are separated ranges. -/
theorem decodeAckFrame_ranges {cursor cursor' : ContiguousReadCursor} {headerForm : HeaderForm}
    {params : CodecParameters} {frameType : FrameType} {frame : ReadAckFrame}
    (decoded : decodeAckFrame cursor headerForm params frameType = .ok (frame, cursor')) :
    ∃ header next, decodeAckHeader cursor = .ok (header, next) ∧
      header.firstAckBlockLen ≤ header.largestAcked ∧ frame.largestAcked = header.largestAcked ∧
      frame.ackBlocks.head? = some ⟨header.largestAcked - header.firstAckBlockLen, header.largestAcked⟩ ∧
      frame.ackBlocks.length = header.additionalAckBlocks + 1 ∧ AckRanges frame.ackBlocks := by
  simp only [decodeAckFrame, Except.bind_eq_ok, Prod.exists, Except.pure_eq_ok, Except.ok.injEq,
    Prod.mk.injEq] at decoded
  obtain ⟨header, next, headerOk, current, firstOk, delay, -, blocks, _, blocksOk, rfl, -⟩ := decoded
  obtain ⟨fits, rfl⟩ := nextAckedPacketLen_eq_ok.mp firstOk
  obtain ⟨length, ranges, below⟩ := decodeAckBlocks_ranges blocksOk
  exact ⟨header, next, headerOk, fits, rfl, rfl, by simp [length],
    AckRanges.cons (Nat.sub_le _ _) below ranges⟩

/-! ### Every failure is a framing error -/

def IsFrameEncodingError (error : QuicError) : Prop := error.code = .transport .frameEncodingError

theorem readQuicInteger_errors (cursor : ContiguousReadCursor) (message : String) :
    (readQuicInteger cursor message).ErrorsSatisfy IsFrameEncodingError := by
  unfold readQuicInteger
  split
  · exact Except.errorsSatisfy_ok _ _
  · exact Except.errorsSatisfy_error rfl

theorem nextAckedPacketGap_errors (packetNum gap : Nat) :
    (nextAckedPacketGap packetNum gap).ErrorsSatisfy IsFrameEncodingError := by
  unfold nextAckedPacketGap
  dsimp only
  split
  · exact Except.errorsSatisfy_error rfl
  · exact Except.errorsSatisfy_ok _ _

theorem nextAckedPacketLen_errors (packetNum ackBlockLen : Nat) :
    (nextAckedPacketLen packetNum ackBlockLen).ErrorsSatisfy IsFrameEncodingError := by
  unfold nextAckedPacketLen
  split
  · exact Except.errorsSatisfy_error rfl
  · exact Except.errorsSatisfy_ok _ _

theorem convertEncodedDurationToMicroseconds_errors (exponentToUse : UInt8) (delay : UInt64) :
    (convertEncodedDurationToMicroseconds exponentToUse delay).ErrorsSatisfy IsFrameEncodingError := by
  unfold convertEncodedDurationToMicroseconds
  dsimp only
  split
  · exact Except.errorsSatisfy_ok _ _
  split
  · exact Except.errorsSatisfy_error rfl
  split
  · exact Except.errorsSatisfy_error rfl
  · exact Except.errorsSatisfy_ok _ _

theorem decodeAckHeader_errors (cursor : ContiguousReadCursor) :
    (decodeAckHeader cursor).ErrorsSatisfy IsFrameEncodingError := by
  unfold decodeAckHeader
  refine (readQuicInteger_errors _ _).bind fun _ => ?_
  refine (readQuicInteger_errors _ _).bind fun _ => ?_
  refine (readQuicInteger_errors _ _).bind fun _ => ?_
  exact (readQuicInteger_errors _ _).bind fun _ => Except.errorsSatisfy_ok _ _

theorem decodeAckBlocks_errors (count : Nat) (cursor : ContiguousReadCursor) (currentPacketNum : Nat) :
    (decodeAckBlocks count cursor currentPacketNum).ErrorsSatisfy IsFrameEncodingError := by
  induction count generalizing cursor currentPacketNum with
  | zero => exact Except.errorsSatisfy_ok _ _
  | succ count ih =>
    refine (readQuicInteger_errors _ _).bind fun _ => ?_
    refine (readQuicInteger_errors _ _).bind fun _ => ?_
    refine (nextAckedPacketGap_errors _ _).bind fun _ => ?_
    refine (nextAckedPacketLen_errors _ _).bind fun _ => ?_
    exact (ih _ _).bind fun _ => Except.errorsSatisfy_ok _ _

theorem decodeAckFrame_errors (cursor : ContiguousReadCursor) (headerForm : HeaderForm)
    (params : CodecParameters) (frameType : FrameType) :
    (decodeAckFrame cursor headerForm params frameType).ErrorsSatisfy IsFrameEncodingError := by
  unfold decodeAckFrame
  refine (decodeAckHeader_errors _).bind fun _ => ?_
  refine (nextAckedPacketLen_errors _ _).bind fun _ => ?_
  refine (convertEncodedDurationToMicroseconds_errors _ _).bind fun _ => ?_
  exact (decodeAckBlocks_errors _ _ _).bind fun _ => Except.errorsSatisfy_ok _ _

/-! ### The delay conversion -/

/-- The bits from `shift` up of a 64-bit word are clear exactly when the word is below `2 ^ shift`. -/
theorem and_shiftLeft_allOnes_eq_zero_iff {word shift : Nat} (below : word < 2 ^ 64) :
    word &&& ((2 ^ 64 - 1) <<< shift % 2 ^ 64) = 0 ↔ word < 2 ^ shift := by
  have maskBit : ∀ i, ((2 ^ 64 - 1) <<< shift % 2 ^ 64).testBit i = decide (shift ≤ i ∧ i < 64) := by
    intro i
    rw [Nat.testBit_mod_two_pow, Nat.testBit_shiftLeft, Nat.testBit_two_pow_sub_one]
    by_cases low : shift ≤ i
    · simp only [ge_iff_le, low, decide_true, Bool.true_and, true_and]
      by_cases high : i < 64
      · simp only [high, decide_true, Bool.true_and, decide_eq_true_eq]
        omega
      · simp [high]
    · simp [low]
  constructor
  · intro clear
    apply Nat.lt_pow_two_of_testBit
    intro i above
    by_cases high : i < 64
    · have bit := congrArg (Nat.testBit · i) clear
      simp only [Nat.testBit_and, maskBit, Nat.zero_testBit] at bit
      simpa [high, above] using bit
    · exact Nat.testBit_lt_two_pow (lt_of_lt_of_le below (Nat.pow_le_pow_right two_pos (by omega)))
  · intro small
    apply Nat.eq_of_testBit_eq
    intro i
    rw [Nat.testBit_and, maskBit, Nat.zero_testBit]
    by_cases low : i < shift
    · simp [low]
    · rw [Nat.testBit_lt_two_pow (lt_of_lt_of_le small (Nat.pow_le_pow_right two_pos (by omega)))]
      rfl

/-- The microseconds an encoded delay stands for: the delay times two to the exponent, or none when
that does not fit a signed 64-bit count. An exponent of zero or of 64 and more leaves it as it is. -/
def ackDelayMicros (exponent : UInt8) (delay : Nat) : Option Nat :=
  if exponent = 0 ∨ 64 ≤ exponent then some delay
  else if delay * 2 ^ exponent.toNat < 2 ^ 63 then some (delay * 2 ^ exponent.toNat) else none

theorem ackDelayMicros_eq_none_iff (exponent : UInt8) (delay : Nat) :
    ackDelayMicros exponent delay = none ↔
      0 < exponent.toNat ∧ exponent.toNat < 64 ∧ 2 ^ 63 ≤ delay * 2 ^ exponent.toNat := by
  unfold ackDelayMicros
  have unshifted : (exponent = 0 ∨ 64 ≤ exponent) ↔ ¬ (0 < exponent.toNat ∧ exponent.toNat < 64) := by
    rw [← UInt8.toNat_inj, UInt8.le_iff_toNat_le]
    simp only [UInt8.toNat_zero, UInt8.reduceToNat]
    omega
  by_cases scaled : 0 < exponent.toNat ∧ exponent.toNat < 64
  · rw [if_neg (fun outside => unshifted.mp outside scaled)]
    by_cases fits : delay * 2 ^ exponent.toNat < 2 ^ 63
    · rw [if_pos fits]
      simp only [reduceCtorEq, false_iff, not_and, not_le]
      exact fun _ _ => fits
    · rw [if_neg fits]
      simp only [true_iff]
      exact ⟨scaled.1, scaled.2, by omega⟩
  · rw [if_pos (unshifted.mpr scaled)]
    simp only [reduceCtorEq, false_iff, not_and]
    exact fun positive small => absurd ⟨positive, small⟩ scaled

theorem convertEncodedDurationToMicroseconds_toOption (exponentToUse : UInt8) (delay : UInt64) :
    (convertEncodedDurationToMicroseconds exponentToUse delay).toOption.map UInt64.toNat =
      ackDelayMicros exponentToUse delay.toNat := by
  unfold convertEncodedDurationToMicroseconds ackDelayMicros
  by_cases unshifted : exponentToUse = 0 ∨ 64 ≤ exponentToUse
  · rw [if_pos unshifted, if_pos unshifted]
    rfl
  rw [if_neg unshifted, if_neg unshifted]
  have exponent : 0 < exponentToUse.toNat ∧ exponentToUse.toNat < 64 := by
    simp only [not_or, UInt8.le_iff_toNat_le] at unshifted
    obtain ⟨nonzero, small⟩ := unshifted
    have : exponentToUse.toNat ≠ 0 := fun zero => nonzero (UInt8.toNat_inj.mp zero)
    exact ⟨by omega, by simpa using small⟩
  have leftShift : ((64 : UInt8) - exponentToUse).toUInt64.toNat % 64 = 64 - exponentToUse.toNat := by
    rw [UInt8.toNat_toUInt64, UInt8.toNat_sub_of_le _ _ (by rw [UInt8.le_iff_toNat_le]; simp; omega)]
    simp only [UInt8.reduceToNat]
    omega
  have overflowMask : ∀ mask : UInt64, mask = 0xFFFFFFFFFFFFFFFF <<< ((64 : UInt8) - exponentToUse).toUInt64 →
      (delay &&& mask = 0 ↔ delay.toNat < 2 ^ (64 - exponentToUse.toNat)) := by
    rintro mask rfl
    rw [← UInt64.toNat_inj, UInt64.toNat_and, UInt64.toNat_shiftLeft, leftShift]
    exact and_shiftLeft_allOnes_eq_zero_iff delay.toNat_lt
  have shifted : (2 : Nat) ^ (64 - exponentToUse.toNat) * 2 ^ exponentToUse.toNat = 2 ^ 64 := by
    rw [← Nat.pow_add, Nat.sub_add_cancel (by omega)]
  dsimp only
  by_cases overflows : delay &&& 0xFFFFFFFFFFFFFFFF <<< ((64 : UInt8) - exponentToUse).toUInt64 ≠ 0
  · rw [if_pos overflows, if_neg]
    · rfl
    have large : 2 ^ (64 - exponentToUse.toNat) ≤ delay.toNat := by
      have := (overflowMask _ rfl).not.mp overflows
      omega
    have : 2 ^ 64 ≤ delay.toNat * 2 ^ exponentToUse.toNat := by
      rw [← shifted]
      exact Nat.mul_le_mul_right _ large
    omega
  · rw [if_neg overflows]
    have small : delay.toNat < 2 ^ (64 - exponentToUse.toNat) := (overflowMask _ rfl).mp (not_not.mp overflows)
    have fits : delay.toNat * 2 ^ exponentToUse.toNat < 2 ^ 64 := by
      rw [← shifted]
      exact Nat.mul_lt_mul_of_pos_right small (Nat.two_pow_pos _)
    have adjusted : (delay <<< exponentToUse.toUInt64).toNat = delay.toNat * 2 ^ exponentToUse.toNat := by
      rw [UInt64.toNat_shiftLeft, UInt8.toNat_toUInt64, Nat.mod_eq_of_lt exponent.2, Nat.shiftLeft_eq,
        Nat.mod_eq_of_lt fits]
    by_cases tooLong : delay <<< exponentToUse.toUInt64 > 0x7FFFFFFFFFFFFFFF
    · have : 2 ^ 63 ≤ delay.toNat * 2 ^ exponentToUse.toNat := by
        rw [gt_iff_lt, UInt64.lt_iff_toNat_lt, adjusted] at tooLong
        simp only [UInt64.reduceToNat] at tooLong
        omega
      rw [if_pos tooLong, if_neg (by omega)]
      rfl
    · have : delay.toNat * 2 ^ exponentToUse.toNat < 2 ^ 63 := by
        rw [gt_iff_lt, UInt64.lt_iff_toNat_lt, adjusted] at tooLong
        simp only [UInt64.reduceToNat] at tooLong
        omega
      rw [if_neg tooLong, if_pos this]
      simp [adjusted]

/-! ### Decoding the bytes of an ACK frame

The bytes of an ACK frame are its fields as QUIC integers: the largest acknowledged packet, the
delay, the count of further blocks, the first block's length, then a gap and a length for each
further block. A field may be put down in any of the lengths that hold its value, not only the
shortest one the frame writers use, and the decoder reads every one alike; on the fields it
computes `ackBlocksBelow` and `ackDelayMicros`. -/

/-- A field as the frame writers put it down, in the shortest encoding. -/
def fieldBytes (value : Nat) : List UInt8 := (QuicInteger.ofNat value).image

/-- `bytes` is the QUIC integer `value`, in any length that holds it: `decodeQuicInteger` reads
exactly these bytes, as `value`, whatever follows them. -/
def EncodesQuicInteger (bytes : List UInt8) (value : Nat) : Prop :=
  ∃ word : UInt64, word.toNat = value ∧ DecodesTo word (bytes, bytes.length)

theorem EncodesQuicInteger.lt {bytes : List UInt8} {value : Nat} (encodes : EncodesQuicInteger bytes value) :
    value < 2 ^ 64 := by
  obtain ⟨word, rfl, -⟩ := encodes
  exact word.toNat_lt

theorem encodesQuicInteger_of_decodesTo {word : UInt64} {encoded : List UInt8 × Nat}
    (decodes : DecodesTo word encoded) : EncodesQuicInteger encoded.1 word.toNat := by
  obtain ⟨length, reads⟩ := decodes
  exact ⟨word, rfl, rfl, by rw [length]; exact reads⟩

theorem encodesQuicInteger_fieldBytes {value : Nat} (small : value < 2 ^ 62) :
    EncodesQuicInteger (fieldBytes value) value :=
  ⟨(QuicInteger.ofNat value).value, QuicInteger.ofNat_value_toNat (by omega), rfl,
    QuicInteger.decodeQuicInteger_image (QuicInteger.ofNat_fits small)⟩

theorem readQuicInteger_of_encodes {bytes : List UInt8} {value : Nat}
    (encodes : EncodesQuicInteger bytes value) (rest : List UInt8) (position : Nat) (message : String) :
    readQuicInteger ⟨bytes ++ rest, position⟩ message = .ok (value, ⟨rest, position + bytes.length⟩) := by
  obtain ⟨word, rfl, -, reads⟩ := encodes
  rw [readQuicInteger, reads rest position]

theorem readQuicInteger_fieldBytes {value : Nat} (small : value < 2 ^ 62) (rest : List UInt8)
    (position : Nat) (message : String) :
    readQuicInteger ⟨fieldBytes value ++ rest, position⟩ message =
      .ok (value, ⟨rest, position + (fieldBytes value).length⟩) :=
  readQuicInteger_of_encodes (encodesQuicInteger_fieldBytes small) rest position message

structure AckFields where
  largestAcked : Nat
  ackDelay : Nat
  firstAckBlockLen : Nat
  blocks : List (Nat × Nat)
  deriving DecidableEq, Repr

/-- The bytes of each field of an ACK frame, the further blocks' as a gap's and a length's. -/
structure AckEncoding where
  largestAcked : List UInt8
  ackDelay : List UInt8
  blockCount : List UInt8
  firstAckBlockLen : List UInt8
  blocks : List (List UInt8 × List UInt8)
  deriving DecidableEq, Repr

/-- The further blocks' bytes, one gap and length after another. -/
def blockBytes (blocks : List (List UInt8 × List UInt8)) : List UInt8 :=
  blocks.flatMap fun (gap, len) => gap ++ len

@[simp] theorem blockBytes_cons (gap len : List UInt8) (blocks : List (List UInt8 × List UInt8)) :
    blockBytes ((gap, len) :: blocks) = gap ++ len ++ blockBytes blocks := by
  simp [blockBytes]

namespace AckEncoding

def bytes (encoding : AckEncoding) : List UInt8 :=
  encoding.largestAcked ++ encoding.ackDelay ++ encoding.blockCount ++ encoding.firstAckBlockLen ++
    blockBytes encoding.blocks

/-- Each field's bytes are a QUIC integer of the field's value. -/
structure Encodes (encoding : AckEncoding) (fields : AckFields) : Prop where
  largestAcked : EncodesQuicInteger encoding.largestAcked fields.largestAcked
  ackDelay : EncodesQuicInteger encoding.ackDelay fields.ackDelay
  blockCount : EncodesQuicInteger encoding.blockCount fields.blocks.length
  firstAckBlockLen : EncodesQuicInteger encoding.firstAckBlockLen fields.firstAckBlockLen
  blocks : List.Forall₂ (fun bytes block => EncodesQuicInteger bytes.1 block.1 ∧ EncodesQuicInteger bytes.2 block.2)
    encoding.blocks fields.blocks

end AckEncoding

namespace AckFields

/-- How far below the largest acknowledged packet the frame reaches: the first block's length, and
for each further block its gap, the two packets a gap of zero already skips, and its length. -/
def span (fields : AckFields) : Nat :=
  fields.firstAckBlockLen + (fields.blocks.map fun (gap, len) => gap + 2 + len).sum

end AckFields

/-- The blocks that gaps and lengths describe below a block starting at `current`, or none once one
would reach below packet zero. -/
def ackBlocksBelow (current : Nat) : List (Nat × Nat) → Option (List AckBlock)
  | [] => some []
  | (gap, len) :: blocks =>
    if gap + 2 + len ≤ current then
      (ackBlocksBelow (current - (gap + 2) - len) blocks).map
        (⟨current - (gap + 2) - len, current - (gap + 2)⟩ :: ·)
    else none

/-- The blocks fit above packet zero exactly when together they reach no further than `current`. -/
theorem isSome_ackBlocksBelow (current : Nat) (blocks : List (Nat × Nat)) :
    (ackBlocksBelow current blocks).isSome ↔ (blocks.map fun (gap, len) => gap + 2 + len).sum ≤ current := by
  induction blocks generalizing current with
  | nil => simp [ackBlocksBelow]
  | cons block blocks ih =>
    obtain ⟨gap, len⟩ := block
    by_cases inside : gap + 2 + len ≤ current
    · simp only [ackBlocksBelow, if_pos inside, Option.isSome_map, ih, List.map_cons, List.sum_cons]
      omega
    · simp only [ackBlocksBelow, if_neg inside, Option.isSome_none, Bool.false_eq_true, false_iff,
        List.map_cons, List.sum_cons]
      omega

theorem nextAckedPacketGap_toOption (packetNum gap : Nat) :
    (nextAckedPacketGap packetNum gap).toOption =
      if gap + 2 ≤ packetNum then some (packetNum - (gap + 2)) else none := by
  unfold nextAckedPacketGap
  by_cases below : packetNum < gap + 2
  · rw [if_pos below, if_neg (by omega)]
    rfl
  · rw [if_neg below, if_pos (by omega)]
    rfl

theorem nextAckedPacketLen_toOption (packetNum ackBlockLen : Nat) :
    (nextAckedPacketLen packetNum ackBlockLen).toOption =
      if ackBlockLen ≤ packetNum then some (packetNum - ackBlockLen) else none := by
  unfold nextAckedPacketLen
  by_cases below : packetNum < ackBlockLen
  · rw [if_pos below, if_neg (by omega)]
    rfl
  · rw [if_neg below, if_pos (by omega)]
    rfl

/-- On the bytes of the further blocks the loop computes `ackBlocksBelow` and stops after them. -/
theorem decodeAckBlocks_blockBytes {encoded : List (List UInt8 × List UInt8)} {blocks : List (Nat × Nat)}
    (encodes : List.Forall₂ (fun bytes block => EncodesQuicInteger bytes.1 block.1 ∧
      EncodesQuicInteger bytes.2 block.2) encoded blocks)
    (currentPacketNum : Nat) (rest : List UInt8) (position : Nat) :
    (decodeAckBlocks blocks.length ⟨blockBytes encoded ++ rest, position⟩ currentPacketNum).toOption =
      (ackBlocksBelow currentPacketNum blocks).map (·, ⟨rest, position + (blockBytes encoded).length⟩) := by
  induction encodes generalizing currentPacketNum position with
  | nil => rfl
  | @cons bytes block encoded blocks head _ ih =>
    obtain ⟨gapBytes, lenBytes⟩ := bytes
    obtain ⟨gap, len⟩ := block
    obtain ⟨gapEncodes, lenEncodes⟩ := head
    simp only [List.length_cons, decodeAckBlocks, blockBytes_cons, List.append_assoc,
      readQuicInteger_of_encodes gapEncodes, readQuicInteger_of_encodes lenEncodes, Except.ok_bind,
      Except.toOption_bind, nextAckedPacketGap_toOption, nextAckedPacketLen_toOption, ih,
      Except.pure_eq_ok, Except.toOption_ok, ackBlocksBelow]
    by_cases inside : gap + 2 + len ≤ currentPacketNum
    · rw [if_pos (by omega), Option.bind_some, if_pos (by omega), Option.bind_some, if_pos inside]
      simp only [List.length_append, Nat.add_assoc, Option.map_map]
      cases ackBlocksBelow (currentPacketNum - (gap + 2) - len) blocks <;> rfl
    · rw [if_neg inside]
      by_cases gapInside : gap + 2 ≤ currentPacketNum
      · rw [if_pos gapInside, Option.bind_some, if_neg (by omega)]
        rfl
      · rw [if_neg gapInside]
        rfl

theorem decodeAckHeader_encoded {fields : AckFields} {encoding : AckEncoding} (encodes : encoding.Encodes fields)
    (rest : List UInt8) (position : Nat) :
    decodeAckHeader ⟨encoding.bytes ++ rest, position⟩ =
      .ok (⟨fields.largestAcked, fields.ackDelay, fields.blocks.length, fields.firstAckBlockLen⟩,
        ⟨blockBytes encoding.blocks ++ rest, position + encoding.largestAcked.length +
          encoding.ackDelay.length + encoding.blockCount.length + encoding.firstAckBlockLen.length⟩) := by
  simp only [decodeAckHeader, AckEncoding.bytes, List.append_assoc,
    readQuicInteger_of_encodes encodes.largestAcked, readQuicInteger_of_encodes encodes.ackDelay,
    readQuicInteger_of_encodes encodes.blockCount, readQuicInteger_of_encodes encodes.firstAckBlockLen,
    Except.ok_bind, Except.pure_eq_ok]

/-- What the decoder returns on the bytes of an ACK frame, in whatever encoding of its fields: the
blocks below the largest acknowledged packet and the scaled delay, a delay over 1000 s read as zero;
nothing when a block would reach below packet zero or the delay does not convert. -/
theorem decodeAckFrame_encoded {fields : AckFields} {encoding : AckEncoding} (encodes : encoding.Encodes fields)
    (rest : List UInt8) (position : Nat) (headerForm : HeaderForm) (params : CodecParameters)
    (frameType : FrameType) :
    (decodeAckFrame ⟨encoding.bytes ++ rest, position⟩ headerForm params frameType).toOption =
      if fields.firstAckBlockLen ≤ fields.largestAcked then
        (ackDelayMicros (ackDelayExponentToUse headerForm params) fields.ackDelay).bind fun delay =>
          (ackBlocksBelow (fields.largestAcked - fields.firstAckBlockLen) fields.blocks).map fun blocks =>
            ({ largestAcked := fields.largestAcked,
               ackDelay := if delay > 1000 * 1000 * 1000 then 0 else delay,
               ackBlocks := ⟨fields.largestAcked - fields.firstAckBlockLen, fields.largestAcked⟩ :: blocks,
               frameType },
             ⟨rest, position + encoding.bytes.length⟩)
      else none := by
  simp only [decodeAckFrame, decodeAckHeader_encoded encodes, Except.ok_bind, Except.toOption_bind,
    nextAckedPacketLen_toOption]
  by_cases first : fields.firstAckBlockLen ≤ fields.largestAcked
  · rw [if_pos first, Option.bind_some, if_pos first]
    have micros := convertEncodedDurationToMicroseconds_toOption (ackDelayExponentToUse headerForm params)
      (UInt64.ofNat fields.ackDelay)
    rw [UInt64.toNat_ofNat_of_lt' encodes.ackDelay.lt] at micros
    cases converted : convertEncodedDurationToMicroseconds (ackDelayExponentToUse headerForm params)
        (UInt64.ofNat fields.ackDelay) with
    | error _ =>
      rw [converted] at micros
      rw [← micros]
      rfl
    | ok delay =>
      rw [converted] at micros
      rw [← micros, Except.toOption_ok, Option.bind_some, Option.map_some, Option.bind_some,
        decodeAckBlocks_blockBytes encodes.blocks]
      cases ackBlocksBelow (fields.largestAcked - fields.firstAckBlockLen) fields.blocks with
      | none => rfl
      | some blocks => simp [AckEncoding.bytes, Nat.add_assoc]
  · rw [if_neg first, if_neg first]
    rfl

/-- On the bytes of an ACK frame, in whatever encoding of its fields, the decoder fails exactly when
the blocks reach below packet zero or the delay does not convert. -/
theorem decodeAckFrame_encoded_fails_iff {fields : AckFields} {encoding : AckEncoding}
    (encodes : encoding.Encodes fields) (rest : List UInt8) (position : Nat) (headerForm : HeaderForm)
    (params : CodecParameters) (frameType : FrameType) :
    (∃ error, decodeAckFrame ⟨encoding.bytes ++ rest, position⟩ headerForm params frameType = .error error) ↔
      fields.largestAcked < fields.span ∨
        ackDelayMicros (ackDelayExponentToUse headerForm params) fields.ackDelay = none := by
  rw [← Except.toOption_eq_none_iff, decodeAckFrame_encoded encodes]
  have reach := isSome_ackBlocksBelow (fields.largestAcked - fields.firstAckBlockLen) fields.blocks
  by_cases first : fields.firstAckBlockLen ≤ fields.largestAcked
  · rw [if_pos first]
    cases ackDelayMicros (ackDelayExponentToUse headerForm params) fields.ackDelay with
    | none => simp
    | some delay =>
      rw [Option.bind_some, Option.map_eq_none_iff, ← Option.not_isSome_iff_eq_none, reach]
      simp only [AckFields.span, reduceCtorEq, or_false]
      omega
  · rw [if_neg first]
    simp only [AckFields.span, true_iff]
    left
    omega

theorem decodeAckFrame_ranges_and_failures :
    (∀ cursor cursor' headerForm params frameType frame,
      decodeAckFrame cursor headerForm params frameType = .ok (frame, cursor') →
      ∃ header next, decodeAckHeader cursor = .ok (header, next) ∧
        header.firstAckBlockLen ≤ header.largestAcked ∧ frame.largestAcked = header.largestAcked ∧
        frame.ackBlocks.head? = some ⟨header.largestAcked - header.firstAckBlockLen, header.largestAcked⟩ ∧
        AckRanges frame.ackBlocks) ∧
    (∀ cursor headerForm params frameType error,
      decodeAckFrame cursor headerForm params frameType = .error error →
      error.code = .transport .frameEncodingError) ∧
    (∀ (fields : AckFields) (encoding : AckEncoding), encoding.Encodes fields →
      ∀ rest position headerForm params frameType,
      (∃ error, decodeAckFrame ⟨encoding.bytes ++ rest, position⟩ headerForm params frameType = .error error) ↔
        fields.largestAcked < fields.span ∨
          0 < (ackDelayExponentToUse headerForm params).toNat ∧
            (ackDelayExponentToUse headerForm params).toNat < 64 ∧
            2 ^ 63 ≤ fields.ackDelay * 2 ^ (ackDelayExponentToUse headerForm params).toNat) := by
  refine ⟨?_, ?_, ?_⟩
  · intro cursor cursor' headerForm params frameType frame decoded
    obtain ⟨header, next, headerOk, first, largest, head, -, ranges⟩ := decodeAckFrame_ranges decoded
    exact ⟨header, next, headerOk, first, largest, head, ranges⟩
  · intro cursor headerForm params frameType error failed
    exact decodeAckFrame_errors cursor headerForm params frameType error failed
  · intro fields encoding encodes rest position headerForm params frameType
    rw [decodeAckFrame_encoded_fails_iff encodes, ackDelayMicros_eq_none_iff]

/-- A frame with one block of one packet and a delay of 2 ^ 61 in a long header packet: no block
reaches below packet zero, yet the delay scaled by the default exponent overflows 64 bits. -/
theorem decodeAckFrame_delay_overflows :
    decodeAckFrame ⟨[0x00, 0xE0, 0, 0, 0, 0, 0, 0, 0, 0x00, 0x00], 0⟩ .long {} =
      .error (frameEncodingError "Decoded delay overflows") := by
  rfl

/-- The first part at a frame of two blocks; the last at a frame whose largest acknowledged packet,
zero, takes two bytes where one would do. -/
theorem decodeAckFrame_ranges_and_failures_two_blocks :
    (∃ header next, decodeAckHeader ⟨[0x0A, 0x00, 0x01, 0x02, 0x01, 0x03], 0⟩ = .ok (header, next) ∧
      header.firstAckBlockLen ≤ header.largestAcked ∧ 10 = header.largestAcked ∧
      [(⟨8, 10⟩ : AckBlock), ⟨2, 5⟩].head? = some ⟨header.largestAcked - header.firstAckBlockLen, header.largestAcked⟩ ∧
      AckRanges [⟨8, 10⟩, ⟨2, 5⟩]) ∧
    ((∃ error, decodeAckFrame ⟨AckEncoding.bytes ⟨(encodeTwoBytes 0).1, (encodeEightBytes (2 ^ 61)).1,
        (encodeOneByte 0).1, (encodeOneByte 0).1, []⟩ ++ [], 0⟩ .long {} .ack = .error error) ↔
      (0 : Nat) < AckFields.span ⟨0, 2 ^ 61, 0, []⟩ ∨
        0 < (ackDelayExponentToUse .long {}).toNat ∧ (ackDelayExponentToUse .long {}).toNat < 64 ∧
          2 ^ 63 ≤ 2 ^ 61 * 2 ^ (ackDelayExponentToUse .long {}).toNat) :=
  ⟨decodeAckFrame_ranges_and_failures.1 ⟨[0x0A, 0x00, 0x01, 0x02, 0x01, 0x03], 0⟩ ⟨[], 6⟩ .short {} .ack
      { largestAcked := 10, ackBlocks := [⟨8, 10⟩, ⟨2, 5⟩] } (by rfl),
    decodeAckFrame_ranges_and_failures.2.2 ⟨0, 2 ^ 61, 0, []⟩ _
      ⟨encodesQuicInteger_of_decodesTo (encodeTwoBytes_decodes 0 (by decide)),
        encodesQuicInteger_of_decodesTo (encodeEightBytes_decodes (2 ^ 61) (by decide)),
        encodesQuicInteger_of_decodesTo (encodeOneByte_decodes 0 (by decide)),
        encodesQuicInteger_of_decodesTo (encodeOneByte_decodes 0 (by decide)), .nil⟩
      [] 0 .long {} .ack⟩

/-! ### STREAM frames -/

/-- The frame with its group id, and the bytes after it; a frame without a length field takes the
rest of the queue. -/
def decodeStreamFrame (queue : List UInt8) (frameTypeField : StreamTypeField) (isGroupFrame : Bool) :
    Except QuicError ((ReadStreamFrame × Option Nat) × List UInt8) := do
  let cursor : ContiguousReadCursor := ⟨queue, 0⟩
  let (streamId, cursor) ← readQuicInteger cursor "Invalid stream id"
  let (groupId, cursor) ←
    if isGroupFrame then do
      let (gId, cursor) ← readQuicInteger cursor "Invalid group stream id"
      pure (some gId, cursor)
    else pure (none, cursor)
  let (offset, cursor) ←
    if frameTypeField.hasOffset then readQuicInteger cursor "Invalid offset" else pure (0, cursor)
  let fin := frameTypeField.hasFin
  let (dataLength, cursor) ←
    if frameTypeField.hasDataLength then do
      let (length, cursor) ← readQuicInteger cursor "Invalid length"
      pure (some length, cursor)
    else pure (none, cursor)
  let trimAmount := cursor.position
  if queue.length < trimAmount then throw (frameEncodingError "Failed to trim queue")
  let queue := queue.drop trimAmount
  match dataLength with
  | some length =>
    if queue.length < length then throw (frameEncodingError "Length mismatch")
    pure ((⟨streamId, offset, queue.take length, fin⟩, groupId), queue.drop length)
  | none => pure ((⟨streamId, offset, queue, fin⟩, groupId), [])

end Mvfst.Codec
