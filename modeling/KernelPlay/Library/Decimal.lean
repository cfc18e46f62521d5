/-
**Decimal numerals.**

`decimalText n` — the digits of `n` in characters, most significant first; nothing for zero.
`CanonicalDecimal text value` — a numeral as it is written: a sign in front of a negative value and of no
other, no zero in front of other digits, and the value is read back. `canonical_decimalText` — the digits of
a positive number are one.
-/

import Mathlib.Data.Nat.Digits.Lemmas

namespace KernelPlay.Library

def digitChar (digit : Nat) : UInt8 := UInt8.ofNat (48 + digit)

/-- The digits of a number, most significant first. -/
def decimalText (n : Nat) : List UInt8 := ((Nat.digits 10 n).map digitChar).reverse

def DecimalDigit (c : UInt8) : Prop := 48 ≤ c.toNat ∧ c.toNat ≤ 57

/-- The digits read from left to right. -/
def digitsValue (text : List UInt8) : Int := text.foldl (fun value c => 10 * value + (c.toNat - 48)) 0

/-- The text behind a `-`. -/
def withoutSign (text : List UInt8) : List UInt8 := if text.head? = some 45 then text.tail else text

def decimalValue (text : List UInt8) : Int :=
  if text.head? = some 45 then -digitsValue text.tail else digitsValue text

/-- **The canonical numeral of a value.** -/
structure CanonicalDecimal (text : List UInt8) (value : Int) : Prop where
  nonempty : text ≠ []
  digits : ∀ c ∈ withoutSign text, DecimalDigit c
  leading : (withoutSign text).head? = some 48 → text = [48]
  sign : text.head? = some 45 ↔ value < 0
  reads : decimalValue text = value

theorem digitChar_toNat {digit : Nat} (small : digit < 10) : (digitChar digit).toNat = 48 + digit := by
  show (48 + digit) % 256 = 48 + digit
  omega

@[simp]
theorem decimalText_zero : decimalText 0 = [] := by simp [decimalText]

/-- The last digit is the remainder. -/
theorem decimalText_succ {n : Nat} (positive : 0 < n) :
    decimalText n = decimalText (n / 10) ++ [digitChar (n % 10)] := by
  unfold decimalText
  rw [Nat.digits_def' (by decide) positive, List.map_cons, List.reverse_cons]

theorem decimalText_digit {n : Nat} {c : UInt8} (member : c ∈ decimalText n) : DecimalDigit c := by
  obtain ⟨digit, inside, rfl⟩ := List.mem_map.mp (List.mem_reverse.mp member)
  have small : digit < 10 := Nat.digits_lt_base (by decide) inside
  unfold DecimalDigit
  rw [digitChar_toNat small]
  omega

theorem decimalText_ne_nil {n : Nat} (positive : 0 < n) : decimalText n ≠ [] := by
  rw [decimalText_succ positive]
  simp

theorem digitsValue_append (text : List UInt8) (c : UInt8) :
    digitsValue (text ++ [c]) = 10 * digitsValue text + (c.toNat - 48) := by
  simp [digitsValue]

/-- The digits of a number are read back, by induction on its digits. -/
theorem digitsValue_decimalText (n : Nat) : digitsValue (decimalText n) = n := by
  induction n using Nat.strong_induction_on with
  | _ n ih =>
    rcases Nat.eq_zero_or_pos n with rfl | positive
    · simp [digitsValue]
    · rw [decimalText_succ positive, digitsValue_append, ih (n / 10) (by omega),
        digitChar_toNat (Nat.mod_lt n (by decide))]
      omega

/-- The first digit of a number is not zero. -/
theorem decimalText_head (n : Nat) : (decimalText n).head? ≠ some 48 := by
  induction n using Nat.strong_induction_on with
  | _ n ih =>
    rcases Nat.eq_zero_or_pos n with rfl | positive
    · simp
    · rw [decimalText_succ positive, List.head?_append]
      rcases Nat.eq_zero_or_pos (n / 10) with none | more
      · rw [none, decimalText_zero]
        intro zero
        have same := congrArg UInt8.toNat (Option.some.inj zero)
        rw [digitChar_toNat (Nat.mod_lt n (by decide))] at same
        change 48 + n % 10 = 48 at same
        omega
      · obtain ⟨c, rest, text⟩ := List.exists_cons_of_ne_nil (decimalText_ne_nil more)
        have head := ih (n / 10) (by omega)
        rw [text] at head ⊢
        exact head

/-- A digit is no sign. -/
theorem decimalText_unsigned (n : Nat) : (decimalText n).head? ≠ some 45 := by
  intro minus
  have digit := decimalText_digit (List.mem_of_mem_head? minus)
  exact absurd digit.1 (by decide)

/-- **The digits of a positive number are its numeral.** -/
theorem canonical_decimalText {n : Nat} (positive : 0 < n) : CanonicalDecimal (decimalText n) n := by
  have unsigned := decimalText_unsigned n
  have same : withoutSign (decimalText n) = decimalText n := if_neg unsigned
  constructor
  · exact decimalText_ne_nil positive
  · rw [same]
    exact fun c => decimalText_digit
  · rw [same]
    exact fun zero => absurd zero (decimalText_head n)
  · exact iff_of_false unsigned (by omega)
  · rw [decimalValue, if_neg unsigned]
    exact digitsValue_decimalText n

end KernelPlay.Library
