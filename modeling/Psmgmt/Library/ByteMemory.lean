import Mathlib

/-!
# Byte memory

A block of memory is the list of its bytes.  `poke` is `memcpy()` to a given
offset, `toMem` and `ofMem` convert between an unsigned number and the
little-endian bytes that hold it.  Nothing here knows about a message format.
-/

namespace ByteMemory

open List

/-- Copy `bytes` over `memory` starting at `offset`. -/
def poke (offset : Nat) (bytes memory : List UInt8) : List UInt8 :=
  memory.take offset ++ bytes ++ memory.drop (offset + bytes.length)

section

variable {offset : Nat} {bytes memory : List UInt8}
  (inside : offset ≤ memory.length)

include inside

theorem length_take_poke : offset + bytes.length ≤ (poke offset bytes memory).length := by
  simp only [poke, length_append, length_take, length_drop]
  omega

theorem take_poke :
    (poke offset bytes memory).take (offset + bytes.length) = memory.take offset ++ bytes := by
  have prefixLength : (memory.take offset ++ bytes).length = offset + bytes.length := by
    simp [Nat.min_eq_left inside]
  rw [poke, ← prefixLength, take_left']
  rfl

end

theorem length_poke {offset : Nat} {bytes memory : List UInt8}
    (inside : offset + bytes.length ≤ memory.length) :
    (poke offset bytes memory).length = memory.length := by
  simp only [poke, length_append, length_take, length_drop]
  omega

/-- The `size` little-endian bytes of a number. -/
def toMem : (size : Nat) → (value : Nat) → List UInt8
  | 0, _ => []
  | size + 1, value => UInt8.ofNat (value % 256) :: toMem size (value / 256)

/-- The number held by little-endian bytes. -/
def ofMem : List UInt8 → Nat
  | [] => 0
  | byte :: rest => byte.toNat + 256 * ofMem rest

@[simp] theorem length_toMem (size value : Nat) : (toMem size value).length = size := by
  induction size generalizing value with
  | zero => rfl
  | succ size induction => simp [toMem, induction]

theorem ofMem_toMem {size value : Nat} (bound : value < 256 ^ size) :
    ofMem (toMem size value) = value := by
  induction size generalizing value with
  | zero =>
    have isZero : value = 0 := by simpa using bound
    simp [toMem, ofMem, isZero]
  | succ size induction =>
    have restBound : value / 256 < 256 ^ size := by
      apply Nat.div_lt_of_lt_mul
      rw [pow_succ] at bound
      linarith
    have low : (UInt8.ofNat (value % 256)).toNat = value % 256 := by
      have small : value % 256 < 256 := Nat.mod_lt _ (by norm_num)
      simp
    simp only [toMem, ofMem, induction restBound, low]
    omega

end ByteMemory
