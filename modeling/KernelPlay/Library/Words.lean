/-
**Little-endian words in a memory of bytes.**

`littleEndian count value` — the lowest `count` bytes of a number, the lowest first. A word stored
is loaded back (`loadBytes_storeBytes`), and every load that does not meet it is as before
(`loadBytes_storeBytes_apart`).
-/

import KernelPlay.Library.Window
import Mathlib.Tactic.Ring

namespace KernelPlay.Library

/-- The lowest bytes of a number, the lowest first. -/
def littleEndian : Nat → Nat → List UInt8
  | 0, _ => []
  | count + 1, value => UInt8.ofNat value :: littleEndian count (value / 256)

def ofLittleEndian : List UInt8 → Nat
  | [] => 0
  | byte :: bytes => byte.toNat + 256 * ofLittleEndian bytes

@[simp] theorem littleEndian_length (count value : Nat) : (littleEndian count value).length = count := by
  induction count generalizing value with
  | zero => rfl
  | succ count ih => simp [littleEndian, ih]

theorem ofLittleEndian_littleEndian (count value : Nat) :
    ofLittleEndian (littleEndian count value) = value % 256 ^ count := by
  induction count generalizing value with
  | zero => simp [littleEndian, ofLittleEndian, Nat.mod_one]
  | succ count ih =>
    have byte : (UInt8.ofNat value).toNat = value % 256 := rfl
    rw [littleEndian, ofLittleEndian, ih, byte, Nat.pow_succ', Nat.mod_mul]

theorem ofLittleEndian_append (low high : List UInt8) :
    ofLittleEndian (low ++ high) = ofLittleEndian low + 256 ^ low.length * ofLittleEndian high := by
  induction low with
  | nil => simp [ofLittleEndian]
  | cons byte low ih =>
    rw [List.cons_append, ofLittleEndian, ofLittleEndian, ih, List.length_cons, Nat.pow_succ']
    ring

section Memory

variable (memory : Nat → UInt8) {address other count count' value : Nat}

/-- The number in the bytes from an address on. -/
def loadBytes (address count : Nat) : Nat := ofLittleEndian (window memory address count)

def storeBytes (address count value : Nat) : Nat → UInt8 :=
  overwrite memory address (littleEndian count value)

theorem storeBytes_outside (outside : other < address ∨ address + count ≤ other) :
    storeBytes memory address count value other = memory other := by
  rcases outside with below | behind
  · exact overwrite_below _ _ below
  · exact overwrite_behind _ (by rwa [littleEndian_length])

/-- A byte after a store depends on the byte before it alone. -/
theorem storeBytes_congr {memory' : Nat → UInt8} (same : memory other = memory' other) :
    storeBytes memory address count value other = storeBytes memory' address count value other := by
  rw [storeBytes, storeBytes, overwrite, overwrite, same]

/-- **A word that fits is loaded back.** -/
theorem loadBytes_storeBytes (fits : value < 256 ^ count) :
    loadBytes (storeBytes memory address count value) address count = value := by
  have written := window_overwrite memory address (littleEndian count value)
  rw [littleEndian_length] at written
  rw [loadBytes, storeBytes, written, ofLittleEndian_littleEndian, Nat.mod_eq_of_lt fits]

/-- A word by its two parts. -/
theorem loadBytes_add (address low high : Nat) : loadBytes memory address (low + high) =
    loadBytes memory address low + 256 ^ low * loadBytes memory (address + low) high := by
  rw [loadBytes, loadBytes, loadBytes, window_add, ofLittleEndian_append, window_length]

variable {memory} {memory' : Nat → UInt8}

theorem loadBytes_congr
    (same : ∀ index, index < count → memory (address + index) = memory' (address + index)) :
    loadBytes memory address count = loadBytes memory' address count :=
  congrArg ofLittleEndian (window_congr same)

theorem loadBytes_storeBytes_apart (apart : other + count' ≤ address ∨ address + count ≤ other) :
    loadBytes (storeBytes memory address count value) other count' = loadBytes memory other count' :=
  loadBytes_congr fun index below => storeBytes_outside _ (by omega)

end Memory

end KernelPlay.Library
