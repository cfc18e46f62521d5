/-
**Two's complement arithmetic of a 32-bit C machine.**

Exact results are integers; `int32` and `uint32` are what a 32-bit `int` and a 32-bit unsigned
word (or a pointer) keep of them. The lemmas say when nothing is lost (`int32_of_range`,
`uint32_of_range`) and how the truncating division of C reads on values that are not negative.
-/

import Mathlib.Tactic.Linarith

namespace KernelPlay.Library

/-- The value a signed 32-bit word keeps of an exact result. -/
def int32 (value : Int) : Int := Int.bmod value 4294967296

/-- The value an unsigned 32-bit word keeps of an exact result. -/
def uint32 (value : Int) : Nat := (value % 4294967296).toNat

/-- Two bytes in the order of a little-endian machine. -/
def word16 (low high : UInt8) : UInt16 := UInt16.ofNat (low.toNat + 256 * high.toNat)

def word32 (low high : UInt16) : UInt32 := UInt32.ofNat (low.toNat + 65536 * high.toNat)

theorem int32_of_range {value : Int} (low : -2147483648 ≤ value) (high : value < 2147483648) :
    int32 value = value := by
  rw [int32, Int.bmod_def]
  split <;> omega

theorem int32_range (value : Int) : -2147483648 ≤ int32 value ∧ int32 value < 2147483648 := by
  rw [int32, Int.bmod_def]
  split <;> omega

theorem uint32_of_range {value : Int} (low : 0 ≤ value) (high : value < 4294967296) :
    uint32 value = value.toNat := by
  rw [uint32, Int.emod_eq_of_lt low high]

/-- Both conversions keep the bits. -/
theorem uint32_int32 (value : Int) : uint32 (int32 value) = uint32 value := by
  rw [uint32, uint32, int32, Int.bmod_def]
  split <;> omega

theorem uint32_natCast {value : Nat} (high : value < 4294967296) : uint32 value = value := by
  rw [uint32_of_range (by omega) (by omega)]
  exact Int.toNat_natCast value

/-- Truncating division agrees with the floor on values that are not negative. -/
theorem tdiv_natCast (first second : Nat) : Int.tdiv first second = ((first / second : Nat) : Int) := by
  rw [Int.tdiv_eq_ediv_of_nonneg (Int.natCast_nonneg first)]
  exact (Int.natCast_ediv first second).symm

theorem tmod_natCast (first second : Nat) : Int.tmod first second = ((first % second : Nat) : Int) := by
  rw [Int.tmod_eq_emod_of_nonneg (Int.natCast_nonneg first)]
  exact (Int.natCast_emod first second).symm

end KernelPlay.Library
