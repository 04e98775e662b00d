import Mvfst.Lib.BigEndian

/-!
# `ContiguousReadCursor`

A read cursor over a contiguous byte range (`common/ContiguousCursor.h`): the bytes between
`data_` and `end_`, and the position `data_ - begin_`.
-/

namespace Mvfst

structure ContiguousReadCursor where
  /-- The unread bytes, `[data_, end_)`. -/
  remainingBytes : List UInt8
  /-- `getCurrentPosition()`. -/
  position : Nat
  deriving DecidableEq, Repr

namespace ContiguousReadCursor

def remaining (cursor : ContiguousReadCursor) : Nat := cursor.remainingBytes.length

def canAdvance (cursor : ContiguousReadCursor) (bytes : Nat) : Bool :=
  bytes ≤ cursor.remaining

def peekBytes (cursor : ContiguousReadCursor) : List UInt8 := cursor.remainingBytes

/-- Advance past `bytes` bytes, which the caller has checked are there. -/
def skip (cursor : ContiguousReadCursor) (bytes : Nat) : ContiguousReadCursor :=
  ⟨cursor.remainingBytes.drop bytes, cursor.position + bytes⟩

/-- `tryPull` once `canAdvance bytes` holds: the bytes copied out, and the advanced cursor. -/
def pull (cursor : ContiguousReadCursor) (bytes : Nat) : List UInt8 × ContiguousReadCursor :=
  (cursor.remainingBytes.take bytes, cursor.skip bytes)

/-- `tryPull`: the bytes and the advanced cursor, or `none` when fewer remain. -/
def tryPull (cursor : ContiguousReadCursor) (bytes : Nat) : Option (List UInt8 × ContiguousReadCursor) :=
  if cursor.canAdvance bytes then some (cursor.pull bytes) else none

/-- `pullAtMost`: up to `len` bytes, as many as remain. -/
def pullAtMost (cursor : ContiguousReadCursor) (len : Nat) : List UInt8 × ContiguousReadCursor :=
  cursor.pull (min len cursor.remaining)

/-- `tryReadBE` of an integer `width` bytes wide. -/
def tryReadBE (cursor : ContiguousReadCursor) (width : Nat) : Option (Nat × ContiguousReadCursor) :=
  (cursor.tryPull width).map fun (bytes, advanced) => (BigEndian.ofBytes bytes, advanced)

@[simp] theorem skip_position (cursor : ContiguousReadCursor) (bytes : Nat) :
    (cursor.skip bytes).position = cursor.position + bytes := rfl

@[simp] theorem skip_remainingBytes (cursor : ContiguousReadCursor) (bytes : Nat) :
    (cursor.skip bytes).remainingBytes = cursor.remainingBytes.drop bytes := rfl

theorem pullAtMost_append (bytes rest : List UInt8) (position : Nat) :
    (⟨bytes ++ rest, position⟩ : ContiguousReadCursor).pullAtMost bytes.length =
      (bytes, ⟨rest, position + bytes.length⟩) := by
  simp [pullAtMost, pull, remaining, skip]

theorem tryReadBE_toBytes (width value : Nat) (small : value < 256 ^ width) (rest : List UInt8)
    (position : Nat) :
    (⟨BigEndian.toBytes width value ++ rest, position⟩ : ContiguousReadCursor).tryReadBE width =
      some (value, ⟨rest, position + width⟩) := by
  simp [tryReadBE, tryPull, canAdvance, remaining, pull, skip, BigEndian.ofBytes_toBytes, Nat.mod_eq_of_lt small]

end ContiguousReadCursor

end Mvfst
