import Mathlib

/-!
The low-bit windows of a 64-bit word: the mask `(1 << k) - 1` of its low `k` bits, what `&` with
the mask and with its complement keep, and `|` of a cleared word with a value that fits in the
low bits, each read as arithmetic on the word's value; a shift that loses no bit; and the bits
above a small value.
-/

namespace WordBits

variable {k : Nat}

theorem toNat_window (small : k < 64) : ((1 : UInt64) <<< UInt64.ofNat k).toNat = 2 ^ k := by
  have shift : (UInt64.ofNat k).toNat % 64 = k := by
    rw [UInt64.toNat_ofNat', Nat.mod_eq_of_lt (by omega : k < 2 ^ 64), Nat.mod_eq_of_lt small]
  rw [UInt64.toNat_shiftLeft, shift, UInt64.toNat_one, Nat.one_shiftLeft,
    Nat.mod_eq_of_lt (Nat.pow_lt_pow_right (by omega) small)]

theorem toNat_lowMask (small : k < 64) :
    (((1 : UInt64) <<< UInt64.ofNat k) - 1).toNat = 2 ^ k - 1 := by
  have one : (1 : UInt64) ≤ (1 : UInt64) <<< UInt64.ofNat k := by
    rw [UInt64.le_iff_toNat_le, toNat_window small]
    exact Nat.one_le_two_pow
  rw [UInt64.toNat_sub_of_le _ _ one, toNat_window small, UInt64.toNat_one]

/-- `x & ((1 << k) - 1)` keeps the value modulo `2^k`. -/
theorem toNat_and_lowMask (x : UInt64) (small : k < 64) :
    (x &&& (((1 : UInt64) <<< UInt64.ofNat k) - 1)).toNat = x.toNat % 2 ^ k := by
  rw [UInt64.toNat_and, toNat_lowMask small, Nat.and_two_pow_sub_one_eq_mod]

/-- `x & ~((1 << k) - 1)` rounds the value down to a multiple of `2^k`. -/
theorem toNat_and_not_lowMask (x : UInt64) (small : k < 64) :
    (x &&& ~~~(((1 : UInt64) <<< UInt64.ofNat k) - 1)).toNat = 2 ^ k * (x.toNat / 2 ^ k) := by
  have complement : UInt64.size - 1 - (2 ^ k - 1) = 2 ^ k * (2 ^ (64 - k) - 1) := by
    have split : (2 : Nat) ^ 64 = 2 ^ k * 2 ^ (64 - k) := by rw [← Nat.pow_add]; congr 1; omega
    have positive : 1 ≤ 2 ^ (64 - k) := Nat.one_le_two_pow
    rw [show UInt64.size = 2 ^ 64 from rfl, split, Nat.mul_sub, Nat.mul_one]
    have : 1 ≤ 2 ^ k := Nat.one_le_two_pow
    omega
  rw [UInt64.toNat_and, UInt64.toNat_not, toNat_lowMask small, complement]
  apply Nat.eq_of_testBit_eq
  intro i
  rw [Nat.testBit_and, Nat.testBit_two_pow_mul, Nat.testBit_two_pow_mul, Nat.testBit_two_pow_sub_one,
    Nat.testBit_div_two_pow]
  by_cases low : k ≤ i
  · by_cases high : i < 64
    · simp [low, show i - k < 64 - k by omega, Nat.sub_add_cancel low]
    · have beyond : x.toNat.testBit i = false :=
        Nat.testBit_lt_two_pow (Nat.lt_of_lt_of_le x.toNat_lt (Nat.pow_le_pow_right (by omega) (by omega)))
      simp [beyond, Nat.sub_add_cancel low, show ¬ i - k < 64 - k by omega]
  · simp [low]

/-- Setting the low `k` bits of a word rounded down to a multiple of `2^k`. -/
theorem toNat_or_of_lt (x y : UInt64) (small : k < 64) (low : y.toNat < 2 ^ k) :
    ((x &&& ~~~(((1 : UInt64) <<< UInt64.ofNat k) - 1)) ||| y).toNat =
      2 ^ k * (x.toNat / 2 ^ k) + y.toNat := by
  rw [UInt64.toNat_or, toNat_and_not_lowMask x small, Nat.two_pow_add_eq_or_of_lt low]

/-- A shift that loses no bit is a multiplication. -/
theorem toNat_shiftLeft_of_fits {x b : UInt64} (small : b.toNat < 64)
    (fits : x.toNat * 2 ^ b.toNat < 2 ^ 64) : (x <<< b).toNat = x.toNat * 2 ^ b.toNat := by
  rw [UInt64.toNat_shiftLeft, Nat.mod_eq_of_lt small, Nat.shiftLeft_eq, Nat.mod_eq_of_lt fits]

/-- The bits of a vector at and above the width of its value are clear. -/
theorem getElem_of_lt_two_pow {w n i : Nat} {x : BitVec w} (small : x.toNat < 2 ^ n) (inside : i < w)
    (high : n ≤ i) : x[i] = false := by
  rw [BitVec.getElem_eq_testBit_toNat]
  exact Nat.testBit_lt_two_pow (Nat.lt_of_lt_of_le small (Nat.pow_le_pow_right (by omega) high))

end WordBits
