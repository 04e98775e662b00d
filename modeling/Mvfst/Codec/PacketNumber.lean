import Mathlib.Data.Nat.Size
import Mathlib.Tactic.IntervalCases
import Mvfst.Lib.WordBits

/-!
Packet numbers on the wire (`quic/codec/PacketNumber.cpp`): the sender keeps the low bytes of a
packet number, as many as twice its distance from the largest number the peer acknowledged
needs, and the receiver restores the number nearest to the one it expects next. Words are
`uint64_t`, so the model computes on `UInt64`.
-/

namespace Mvfst

/-- `folly::findLastSet`: the position of the highest set bit counted from 1, and 0 for 0. -/
def findLastSet (x : UInt64) : Nat := x.toNat.size

structure PacketNumEncodingResult where
  result : UInt64
  length : Nat
  deriving DecidableEq, Repr

/-- `none` is the failed `CHECK`: the distance needs more than four bytes. -/
def encodePacketNumber (packetNum largestAckedPacketNum : UInt64) : Option PacketNumEncodingResult :=
  let twiceDistance := (packetNum - largestAckedPacketNum) * 2
  let lengthInBits := findLastSet twiceDistance
  let lengthInBytes := if lengthInBits = 0 then 1 else (lengthInBits + 7) >>> 3
  if lengthInBytes ≤ 4 then
    let mask : UInt64 := ((1 : UInt64) <<< UInt64.ofNat (lengthInBytes * 8)) - 1
    some ⟨packetNum &&& mask, lengthInBytes⟩
  else none

/-- `none` is the failed `CHECK` on the length. -/
def decodePacketNumber (encodedPacketNum : UInt64) (packetNumBytes : Nat)
    (expectedNextPacketNum : UInt64) : Option UInt64 :=
  if packetNumBytes ≤ 4 then
    let packetNumBits := 8 * packetNumBytes
    let packetNumWin : UInt64 := (1 : UInt64) <<< UInt64.ofNat packetNumBits
    let packetNumHalfWin := packetNumWin >>> 1
    let mask := packetNumWin - 1
    let candidate := (expectedNextPacketNum &&& ~~~mask) ||| encodedPacketNum
    if expectedNextPacketNum > packetNumHalfWin ∧
        candidate ≤ expectedNextPacketNum - packetNumHalfWin ∧
        candidate < ((1 : UInt64) <<< 62) - packetNumWin then
      some (candidate + packetNumWin)
    else if candidate > expectedNextPacketNum + packetNumHalfWin ∧ candidate ≥ packetNumWin then
      some (candidate - packetNumWin)
    else some candidate
  else none

/-- The byte count the sender picks covers twice the distance. -/
theorem lengthInBytes_spec {twiceDistance : Nat} (fits : twiceDistance < 2 ^ 32) :
    let lengthInBits := twiceDistance.size
    let lengthInBytes := if lengthInBits = 0 then 1 else (lengthInBits + 7) >>> 3
    1 ≤ lengthInBytes ∧ lengthInBytes ≤ 4 ∧ twiceDistance < 2 ^ (lengthInBytes * 8) := by
  intro lengthInBits lengthInBytes
  have bits : lengthInBits ≤ 32 := Nat.size_le.mpr fits
  by_cases zero : lengthInBits = 0
  · have nothing : twiceDistance = 0 := Nat.size_eq_zero.mp zero
    simp [lengthInBytes, zero, nothing]
  · have bytes : lengthInBytes = (lengthInBits + 7) / 8 := by
      simp [lengthInBytes, zero, Nat.shiftRight_eq_div_pow]
    refine ⟨by omega, by omega, ?_⟩
    calc twiceDistance < 2 ^ lengthInBits := Nat.lt_size_self _
      _ ≤ 2 ^ (lengthInBytes * 8) := Nat.pow_le_pow_right (by omega) (by omega)

theorem encodePacketNumber_spec {packetNum largestAckedPacketNum : UInt64}
    (ordered : largestAckedPacketNum ≤ packetNum)
    (near : packetNum.toNat - largestAckedPacketNum.toNat < 2 ^ 31) :
    ∃ encoded, encodePacketNumber packetNum largestAckedPacketNum = some encoded ∧
      1 ≤ encoded.length ∧ encoded.length ≤ 4 ∧
      2 * (packetNum.toNat - largestAckedPacketNum.toNat) < 2 ^ (encoded.length * 8) ∧
      encoded.result.toNat = packetNum.toNat % 2 ^ (encoded.length * 8) := by
  have twice : ((packetNum - largestAckedPacketNum) * 2).toNat =
      2 * (packetNum.toNat - largestAckedPacketNum.toNat) := by
    rw [UInt64.toNat_mul, UInt64.toNat_sub_of_le _ _ ordered, show (2 : UInt64).toNat = 2 from rfl]
    omega
  obtain ⟨long, short, fits⟩ := @lengthInBytes_spec (2 * (packetNum.toNat - largestAckedPacketNum.toNat))
    (by omega)
  simp only [encodePacketNumber, findLastSet, twice]
  rw [if_pos short]
  refine ⟨_, rfl, long, short, fits, ?_⟩
  exact WordBits.toNat_and_lowMask packetNum (by omega)

/-- `decodePacketNumber` on the values of its words, which do not wrap for expected numbers
below `2^63`: the expected number with its low bits replaced, moved a window up or down. -/
def decodeValue (encoded packetNumBytes expected : Nat) : Nat :=
  let window := 2 ^ (8 * packetNumBytes)
  let halfWindow := 2 ^ (8 * packetNumBytes - 1)
  let candidate := window * (expected / window) + encoded
  if halfWindow < expected ∧ candidate ≤ expected - halfWindow ∧ candidate < 2 ^ 62 - window then
    candidate + window
  else if expected + halfWindow < candidate ∧ window ≤ candidate then candidate - window
  else candidate

theorem decodePacketNumber_toNat {encodedPacketNum expectedNextPacketNum : UInt64}
    {packetNumBytes : Nat} (long : 1 ≤ packetNumBytes) (short : packetNumBytes ≤ 4)
    (small : encodedPacketNum.toNat < 2 ^ (8 * packetNumBytes))
    (bounded : expectedNextPacketNum.toNat < 2 ^ 63) :
    (decodePacketNumber encodedPacketNum packetNumBytes expectedNextPacketNum).map UInt64.toNat =
      some (decodeValue encodedPacketNum.toNat packetNumBytes expectedNextPacketNum.toNat) := by
  have bits : 8 * packetNumBytes < 64 := by omega
  have window := WordBits.toNat_window bits
  have halfWindow : ((1 : UInt64) <<< UInt64.ofNat (8 * packetNumBytes) >>> 1).toNat =
      2 ^ (8 * packetNumBytes - 1) := by
    rw [UInt64.toNat_shiftRight, window, UInt64.toNat_one, Nat.shiftRight_eq_div_pow]
    rw [show 8 * packetNumBytes = 8 * packetNumBytes - 1 + 1 by omega, Nat.pow_succ]
    simp
  have candidate := WordBits.toNat_or_of_lt expectedNextPacketNum encodedPacketNum bits small
  have limit : ((1 : UInt64) <<< 62).toNat = 2 ^ 62 := rfl
  have windowFits : 2 ^ (8 * packetNumBytes) ≤ 2 ^ 62 := Nat.pow_le_pow_right (by omega) (by omega)
  have halfFits : 2 ^ (8 * packetNumBytes - 1) ≤ 2 ^ 62 := Nat.pow_le_pow_right (by omega) (by omega)
  simp only [decodePacketNumber, if_pos short, decodeValue]
  rw [← candidate]
  generalize (1 : UInt64) <<< UInt64.ofNat (8 * packetNumBytes) = win at window halfWindow candidate
  generalize expectedNextPacketNum &&& ~~~(win - 1) ||| encodedPacketNum = cand at candidate ⊢
  -- the guards of the source compare words; each reads as the same comparison of values
  have lowGuard : (expectedNextPacketNum > win >>> 1 ∧ cand ≤ expectedNextPacketNum - win >>> 1 ∧
      cand < (1 : UInt64) <<< 62 - win) ↔
      (2 ^ (8 * packetNumBytes - 1) < expectedNextPacketNum.toNat ∧
        cand.toNat ≤ expectedNextPacketNum.toNat - 2 ^ (8 * packetNumBytes - 1) ∧
        cand.toNat < 2 ^ 62 - 2 ^ (8 * packetNumBytes)) := by
    have roomBelow : win ≤ (1 : UInt64) <<< 62 := by
      rw [UInt64.le_iff_toNat_le, window, limit]; exact windowFits
    simp only [gt_iff_lt, UInt64.lt_iff_toNat_lt, UInt64.le_iff_toNat_le,
      UInt64.toNat_sub_of_le _ _ roomBelow, halfWindow, window, limit]
    constructor
    · rintro ⟨past, inside, fits⟩
      have half : win >>> 1 ≤ expectedNextPacketNum := by
        rw [UInt64.le_iff_toNat_le, halfWindow]; omega
      rw [UInt64.toNat_sub_of_le _ _ half, halfWindow] at inside
      exact ⟨past, inside, fits⟩
    · rintro ⟨past, inside, fits⟩
      have half : win >>> 1 ≤ expectedNextPacketNum := by
        rw [UInt64.le_iff_toNat_le, halfWindow]; omega
      rw [UInt64.toNat_sub_of_le _ _ half, halfWindow]
      exact ⟨past, inside, fits⟩
  have highGuard : (cand > expectedNextPacketNum + win >>> 1 ∧ cand ≥ win) ↔
      (expectedNextPacketNum.toNat + 2 ^ (8 * packetNumBytes - 1) < cand.toNat ∧
        2 ^ (8 * packetNumBytes) ≤ cand.toNat) := by
    have noWrap : (expectedNextPacketNum.toNat + 2 ^ (8 * packetNumBytes - 1)) % 2 ^ 64 =
        expectedNextPacketNum.toNat + 2 ^ (8 * packetNumBytes - 1) := Nat.mod_eq_of_lt (by omega)
    simp only [gt_iff_lt, ge_iff_le, UInt64.lt_iff_toNat_lt, UInt64.le_iff_toNat_le, UInt64.toNat_add,
      halfWindow, window, noWrap]
  by_cases low : expectedNextPacketNum > win >>> 1 ∧ cand ≤ expectedNextPacketNum - win >>> 1 ∧
      cand < (1 : UInt64) <<< 62 - win
  · -- one window up, below `2^62`, so the sum does not wrap
    have values := lowGuard.mp low
    rw [if_pos low, if_pos values, Option.map_some, UInt64.toNat_add, window,
      Nat.mod_eq_of_lt (by omega)]
  rw [if_neg low, if_neg (mt lowGuard.mpr low)]
  by_cases high : cand > expectedNextPacketNum + win >>> 1 ∧ cand ≥ win
  · -- one window down, with the candidate at least a window
    have inWindow : win ≤ cand := by rw [UInt64.le_iff_toNat_le, window]; exact (highGuard.mp high).2
    rw [if_pos high, if_pos (highGuard.mp high), Option.map_some, UInt64.toNat_sub_of_le _ _ inWindow,
      window]
  · rw [if_neg high, if_neg (mt highGuard.mpr high), Option.map_some]

/-- The receiver's window arithmetic: with the packet number within half a window of the
expected one, each branch of the decoder lands on it. -/
theorem window_nearest {length expected packetNum window halfWindow candidate : Nat}
    (long : 1 ≤ length) (short : length ≤ 4) (bounded : packetNum < 2 ^ 62)
    (isWindow : window = 2 ^ (8 * length)) (isHalf : halfWindow = 2 ^ (8 * length - 1))
    (isCandidate : candidate = window * (expected / window) + packetNum % window)
    (above : expected < packetNum + halfWindow) (below : packetNum < expected + halfWindow) :
    (halfWindow < expected ∧ candidate ≤ expected - halfWindow ∧ candidate < 2 ^ 62 - window →
      candidate + window = packetNum) ∧
    (¬ (halfWindow < expected ∧ candidate ≤ expected - halfWindow ∧ candidate < 2 ^ 62 - window) →
      expected + halfWindow < candidate ∧ window ≤ candidate → candidate - window = packetNum) ∧
    (¬ (halfWindow < expected ∧ candidate ≤ expected - halfWindow ∧ candidate < 2 ^ 62 - window) →
      ¬ (expected + halfWindow < candidate ∧ window ≤ candidate) → candidate = packetNum) := by
  subst isWindow isHalf isCandidate
  -- one window size per byte count, each a linear problem over the quotient and remainder
  interval_cases length <;> simp only [Nat.reduceMul, Nat.reduceSub, Nat.reducePow] at * <;> omega

theorem decodePacketNumber_of_near {encodedPacketNum expectedNextPacketNum packetNum : UInt64}
    {packetNumBytes : Nat} (long : 1 ≤ packetNumBytes) (short : packetNumBytes ≤ 4)
    (bounded : packetNum.toNat < 2 ^ 62)
    (truncated : encodedPacketNum.toNat = packetNum.toNat % 2 ^ (8 * packetNumBytes))
    (above : expectedNextPacketNum.toNat < packetNum.toNat + 2 ^ (8 * packetNumBytes - 1))
    (below : packetNum.toNat < expectedNextPacketNum.toNat + 2 ^ (8 * packetNumBytes - 1)) :
    decodePacketNumber encodedPacketNum packetNumBytes expectedNextPacketNum = some packetNum := by
  have halfFits : 2 ^ (8 * packetNumBytes - 1) ≤ 2 ^ 62 := Nat.pow_le_pow_right (by omega) (by omega)
  have decoded := @decodePacketNumber_toNat encodedPacketNum expectedNextPacketNum packetNumBytes
    long short (by rw [truncated]; exact Nat.mod_lt _ (by positivity)) (by omega)
  obtain ⟨nearBelow, nearAbove, nearSame⟩ := window_nearest long short bounded rfl rfl rfl above below
  rw [← truncated] at nearBelow nearAbove nearSame
  have value : decodeValue encodedPacketNum.toNat packetNumBytes expectedNextPacketNum.toNat =
      packetNum.toNat := by
    dsimp only [decodeValue]
    split_ifs with low high
    · exact nearBelow low
    · exact nearAbove low high
    · exact nearSame low high
  rw [value] at decoded
  obtain ⟨decodedNum, isSome, sameValue⟩ := Option.map_eq_some_iff.mp decoded
  rw [isSome, UInt64.toNat_inj.mp sameValue]

theorem decodePacketNumber_encodePacketNumber (packetNum largestAcked expectedNext : UInt64)
    (bounded : packetNum.toNat < 2 ^ 62) (ordered : largestAcked ≤ packetNum)
    (near : packetNum.toNat - largestAcked.toNat < 2 ^ 31)
    (afterAcked : largestAcked ≤ expectedNext) (upToNext : expectedNext.toNat ≤ packetNum.toNat + 1) :
    ∃ encoded, encodePacketNumber packetNum largestAcked = some encoded ∧
      decodePacketNumber encoded.result encoded.length expectedNext = some packetNum := by
  obtain ⟨encoded, encodes, long, short, fits, truncated⟩ := encodePacketNumber_spec ordered near
  refine ⟨encoded, encodes, decodePacketNumber_of_near long short bounded ?_ ?_ ?_⟩
  · rw [truncated, Nat.mul_comm]
  -- the distance to the largest acknowledged number is below half the window
  all_goals
    have half : 2 ^ (encoded.length * 8) = 2 * 2 ^ (8 * encoded.length - 1) := by
      rw [← Nat.pow_succ', Nat.mul_comm]; congr 1; omega
    have atLeast : 2 ≤ 2 ^ (8 * encoded.length - 1) :=
      Nat.le_self_pow (by omega) 2
    rw [UInt64.le_iff_toNat_le] at afterAcked ordered
    omega

/-- A packet number five past a window boundary, received while the receiver still expects
numbers below it. -/
theorem decodePacketNumber_encodePacketNumber_across_window :
    ∃ encoded, encodePacketNumber 0x100000005 0xFFFFFFF0 = some encoded ∧
      decodePacketNumber encoded.result encoded.length 0xFFFFFFFE = some 0x100000005 :=
  decodePacketNumber_encodePacketNumber 0x100000005 0xFFFFFFF0 0xFFFFFFFE
    (by decide) (by decide) (by decide) (by decide) (by decide)

/-! ### RFC 9000, Appendix A.3 -/

/-- `DecodePacketNumber` of RFC 9000, Appendix A.3, over the integers, from the expected
number on. The candidate is `(expected_pn & ~pn_mask) | truncated_pn`. -/
def rfcDecodePacketNumber (expectedPn truncatedPn pnNbits : Nat) : Int :=
  let pnWin : Int := 2 ^ pnNbits
  let pnHwin : Int := pnWin / 2
  let candidatePn : Int := ((expectedPn >>> pnNbits <<< pnNbits) ||| truncatedPn : Nat)
  if candidatePn ≤ expectedPn - pnHwin ∧ candidatePn < 2 ^ 62 - pnWin then candidatePn + pnWin
  else if candidatePn > expectedPn + pnHwin ∧ candidatePn ≥ pnWin then candidatePn - pnWin
  else candidatePn

theorem rfc_candidate {expectedPn truncatedPn pnNbits : Nat} (small : truncatedPn < 2 ^ pnNbits) :
    (expectedPn >>> pnNbits <<< pnNbits) ||| truncatedPn =
      2 ^ pnNbits * (expectedPn / 2 ^ pnNbits) + truncatedPn := by
  rw [Nat.shiftLeft_eq, Nat.shiftRight_eq_div_pow, Nat.mul_comm, Nat.two_pow_add_eq_or_of_lt small]

/-- The decoder agrees with the RFC's except on the tie the RFC breaks upwards: the expected
number exactly half a window up and a truncated number of 0, where the candidate 0 and the
number one window up are equally near. The source's guard `expectedNextPacketNum >
packetNumHalfWin` leaves the candidate there. -/
theorem decodePacketNumber_eq_rfc_iff :
    (∀ (encodedPacketNum expectedNextPacketNum : UInt64) (packetNumBytes : Nat),
      1 ≤ packetNumBytes → packetNumBytes ≤ 4 →
      encodedPacketNum.toNat < 2 ^ (8 * packetNumBytes) → expectedNextPacketNum.toNat < 2 ^ 62 →
      (((decodePacketNumber encodedPacketNum packetNumBytes expectedNextPacketNum).map
          fun decoded => (decoded.toNat : Int)) =
        some (rfcDecodePacketNumber expectedNextPacketNum.toNat encodedPacketNum.toNat
          (8 * packetNumBytes)) ↔
      ¬ (expectedNextPacketNum.toNat = 2 ^ (8 * packetNumBytes - 1) ∧ encodedPacketNum.toNat = 0))) ∧
    decodePacketNumber 0 1 128 = some 0 ∧ rfcDecodePacketNumber 128 0 8 = 256 := by
  refine ⟨fun encodedPacketNum expectedNextPacketNum packetNumBytes long short small bounded => ?_,
    by decide, by decide⟩
  have value := @decodePacketNumber_toNat encodedPacketNum expectedNextPacketNum packetNumBytes
    long short small (by omega)
  have mapped : (decodePacketNumber encodedPacketNum packetNumBytes expectedNextPacketNum).map
      (fun decoded => (decoded.toNat : Int)) =
      some (decodeValue encodedPacketNum.toNat packetNumBytes expectedNextPacketNum.toNat : Int) := by
    rw [show (fun decoded : UInt64 => (decoded.toNat : Int)) = (fun value : Nat => (value : Int)) ∘
      UInt64.toNat from rfl, ← Option.map_map, value, Option.map_some]
  rw [mapped, Option.some.injEq]
  dsimp only [decodeValue, rfcDecodePacketNumber]
  rw [rfc_candidate small, show ((2 : Int) ^ (8 * packetNumBytes)) =
    ((2 ^ (8 * packetNumBytes) : Nat) : Int) by push_cast; rfl]
  -- the window sizes, and the expected number's window start as a multiple of the window below it
  have halves : 2 ^ (8 * packetNumBytes) = 2 * 2 ^ (8 * packetNumBytes - 1) := by
    rw [← Nat.pow_succ']; congr 1; omega
  have halfLarge : 2 ^ 7 ≤ 2 ^ (8 * packetNumBytes - 1) := Nat.pow_le_pow_right (by omega) (by omega)
  have windowSmall : 2 ^ (8 * packetNumBytes) ≤ 2 ^ 32 := Nat.pow_le_pow_right (by omega) (by omega)
  have below := Nat.mul_div_le expectedNextPacketNum.toNat (2 ^ (8 * packetNumBytes))
  have above := Nat.lt_mul_div_succ expectedNextPacketNum.toNat (Nat.two_pow_pos (8 * packetNumBytes))
  rw [Nat.mul_succ] at above
  have multiple : 2 ^ (8 * packetNumBytes) * (expectedNextPacketNum.toNat / 2 ^ (8 * packetNumBytes)) = 0 ∨
      2 ^ (8 * packetNumBytes) ≤
        2 ^ (8 * packetNumBytes) * (expectedNextPacketNum.toNat / 2 ^ (8 * packetNumBytes)) := by
    rcases Nat.eq_zero_or_pos (expectedNextPacketNum.toNat / 2 ^ (8 * packetNumBytes)) with zero | positive
    · exact .inl (by rw [zero, Nat.mul_zero])
    · exact .inr (Nat.le_mul_of_pos_right _ positive)
  generalize 2 ^ (8 * packetNumBytes) * (expectedNextPacketNum.toNat / 2 ^ (8 * packetNumBytes)) =
    windowStart at below above multiple ⊢
  generalize 2 ^ (8 * packetNumBytes) = pnWin at *
  generalize 2 ^ (8 * packetNumBytes - 1) = pnHwin at *
  subst halves
  -- the guards differ only when the expected number is half a window and the candidate 0
  split_ifs <;> omega

end Mvfst
