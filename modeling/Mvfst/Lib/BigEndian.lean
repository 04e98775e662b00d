import Mathlib

/-!
# Big-endian byte strings

`toBytes n v` is the `n`-byte representation of `v` modulo `256 ^ n`, most significant byte
first, which is how a network writer lays out an `n`-byte integer. `ofBytes` reads such a string
back. The codec proofs use the round trip, the length and the leading byte.
-/

namespace BigEndian

/-- The low `n` bytes of `v`, most significant first. -/
def toBytes : Nat → Nat → List UInt8
  | 0, _ => []
  | n + 1, v => toBytes n (v / 256) ++ [UInt8.ofNat v]

/-- The number `bytes` denote, most significant first. -/
def ofBytes (bytes : List UInt8) : Nat :=
  bytes.foldl (fun acc byte => acc * 256 + byte.toNat) 0

@[simp] theorem length_toBytes (n v : Nat) : (toBytes n v).length = n := by
  induction n generalizing v with
  | zero => rfl
  | succ n ih => simp [toBytes, ih]

theorem foldl_ofBytes (acc : Nat) (bytes : List UInt8) :
    bytes.foldl (fun acc byte => acc * 256 + byte.toNat) acc = acc * 256 ^ bytes.length + ofBytes bytes := by
  induction bytes generalizing acc with
  | nil => simp [ofBytes]
  | cons byte rest ih =>
    simp only [List.foldl_cons, ofBytes, List.length_cons]
    rw [ih, ih (0 * 256 + byte.toNat)]
    ring

@[simp] theorem ofBytes_nil : ofBytes [] = 0 := rfl

theorem ofBytes_append (xs ys : List UInt8) :
    ofBytes (xs ++ ys) = ofBytes xs * 256 ^ ys.length + ofBytes ys := by
  rw [ofBytes, List.foldl_append, foldl_ofBytes]
  rfl

theorem ofBytes_cons (byte : UInt8) (rest : List UInt8) :
    ofBytes (byte :: rest) = byte.toNat * 256 ^ rest.length + ofBytes rest := by
  simpa [ofBytes] using ofBytes_append [byte] rest

/-- Zero bytes appended to a string shift its value up. -/
theorem ofBytes_append_zeros (bytes : List UInt8) (k : Nat) :
    ofBytes (bytes ++ List.replicate k 0) = ofBytes bytes * 256 ^ k := by
  have zeros : ofBytes (List.replicate k 0) = 0 := by
    induction k with
    | zero => rfl
    | succ k ih => rw [List.replicate_succ, ofBytes_cons, ih]; simp
  rw [ofBytes_append, zeros, List.length_replicate, Nat.add_zero]

theorem ofBytes_toBytes (n v : Nat) : ofBytes (toBytes n v) = v % 256 ^ n := by
  induction n generalizing v with
  | zero => simp [toBytes, Nat.mod_one]
  | succ n ih =>
    rw [toBytes, ofBytes_append, ih, Nat.pow_succ', Nat.mod_mul]
    simp only [List.length_singleton, Nat.pow_one, ofBytes_cons, List.length_nil,
      Nat.pow_zero, Nat.mul_one, ofBytes_nil, Nat.add_zero, UInt8.toNat_ofNat']
    omega

/-- The leading byte of an `n + 1`-byte string is the value's byte of weight `256 ^ n`. -/
theorem toBytes_succ (n v : Nat) :
    toBytes (n + 1) v = UInt8.ofNat (v / 256 ^ n) :: toBytes n v := by
  induction n generalizing v with
  | zero => simp [toBytes]
  | succ n ih =>
    rw [toBytes, ih, toBytes, Nat.div_div_eq_div_mul, ← Nat.pow_succ', List.cons_append]

end BigEndian
