/-
**The numerals of `itoa`.**

* `itoa` — the digit loop, the reversal in place and the terminator, on the characters of the buffer. Both
  loops get a number of turns and fail when it is too small.
* `reverse_window` — the two pointers reverse what is between them; nothing, when the last one is in front
  of the first.
* `itoa_eq` — the buffer holds the digits of a positive number, and the empty string for every other.
* `itoa_numeral_iff` — the string is the canonical numeral exactly of the positive numbers;
  `itoa_numeral_fails`.
-/

import KernelPlay.Kernel.State
import KernelPlay.Library.Decimal

namespace KernelPlay

open KernelPlay.Library

/-- The loop of `reverse`; `e` is in front of the buffer when nothing was written. -/
def reverseLoop : Nat → Nat → Int → (Nat → UInt8) → Option (Nat → UInt8)
  | 0, _, _, _ => none
  | turns + 1, b, e, string =>
    if (b : Int) < e then
      let tmp := string b
      let string := Function.update string b (string e.toNat)
      let string := Function.update string e.toNat tmp
      reverseLoop turns (b + 1) (e - 1) string
    else some string

/-- The digit loop: where `s` is behind it, and the characters. -/
def itoaLoop : Nat → Int → Nat → (Nat → UInt8) → Option (Nat × (Nat → UInt8))
  | 0, _, _, _ => none
  | turns + 1, i, s, string =>
    if i > 0 then
      let k := Int.tmod i 10
      let string := Function.update string s (UInt8.ofInt (k + 48))
      itoaLoop turns (Int.tdiv i 10) (s + 1) string
    else some (s, string)

/-- The characters from `s` on after the call, when no loop takes more than `turns` turns. -/
def itoa (turns : Nat) (i : Int) (string : Nat → UInt8) : Option (Nat → UInt8) := do
  let (s, string) ← itoaLoop turns i 0 string
  let string ← reverseLoop turns 0 (s - 1) string
  return Function.update string s 0

/-- The call returns, and these are the characters behind it. -/
def ItoaReturns (i : Int) (string out : Nat → UInt8) : Prop :=
  ∃ enough, ∀ turns, enough ≤ turns → itoa turns i string = some out

/-- The buffer holds this string and its terminator. -/
structure HoldsText (string : Nat → UInt8) (text : Text) : Prop where
  chars : window string 0 text.chars.length = text.chars
  terminated : string text.chars.length = 0

/-- **The call writes the canonical numeral.** -/
def WritesNumeral (i : Int) (string : Nat → UInt8) : Prop :=
  ∃ out text, ItoaReturns i string out ∧ HoldsText out text ∧ CanonicalDecimal text.chars i

/-! ### The two loops -/

theorem window_pair_ends (string : Nat → UInt8) (b count : Nat) :
    window string b (count + 2) =
      string b :: (window string (b + 1) count ++ [string (b + 1 + count)]) := by
  rw [window_succ, window_add]
  rfl

/-- **The pointers swap the outermost characters and go on with those between them**, by induction on the
turns. -/
theorem reverse_window (turns count b : Nat) (string : Nat → UInt8) (enough : count < 2 * turns) :
    reverseLoop turns b (b + count - 1) string =
      some (overwrite string b (window string b count).reverse) := by
  induction turns generalizing count b string with
  | zero => omega
  | succ turns ih =>
    unfold reverseLoop
    rcases count with _ | _ | count
    · rw [if_neg (by omega)]
      simp [overwrite_nil]
    · rw [if_neg (by omega)]
      show some string = some (overwrite string b [string b])
      rw [← update_eq_overwrite, Function.update_eq_self]
    · have last : ((b : Int) + (count + 1 + 1 : Nat) - 1).toNat = b + 1 + count := by omega
      have next : (b : Int) + (count + 1 + 1 : Nat) - 1 - 1 = (b + 1 : Nat) + count - 1 := by omega
      rw [if_pos (by omega), last, next]
      dsimp only
      rw [ih _ _ _ (by omega)]
      have middle (swapped : Nat → UInt8)
          (same : ∀ index, index ≠ b → index ≠ b + 1 + count → swapped index = string index) :
          window swapped (b + 1) count = window string (b + 1) count :=
        window_congr fun index below => same _ (by omega) (by omega)
      rw [middle _ fun index front behind => by rw [Function.update_of_ne behind, Function.update_of_ne front],
        window_pair_ends, List.reverse_cons, List.reverse_append, update_eq_overwrite, update_eq_overwrite,
        ← overwrite_comm _ _ (by simp)]
      have front := overwrite_append string b [string (b + 1 + count)] (window string (b + 1) count).reverse
      have back := overwrite_append string b
        ([string (b + 1 + count)] ++ (window string (b + 1) count).reverse) [string b]
      rw [← front] at back
      simp only [List.length_append, List.length_reverse, window_length, List.length_singleton,
        ← Nat.add_assoc] at back
      rw [back]
      simp

theorem ofInt_digit (n : Nat) : UInt8.ofInt (((n % 10 : Nat) : Int) + 48) = digitChar (n % 10) := by
  unfold UInt8.ofInt digitChar
  congr 1
  omega

/-- **The digits are written in reverse**, by induction on the turns. -/
theorem itoaLoop_digits (turns : Nat) (i : Int) (s : Nat) (string : Nat → UInt8)
    (enough : (decimalText i.toNat).length < turns) :
    itoaLoop turns i s string =
      some (s + (decimalText i.toNat).length, overwrite string s (decimalText i.toNat).reverse) := by
  induction turns generalizing i s string with
  | zero => omega
  | succ turns ih =>
    unfold itoaLoop
    by_cases positive : i > 0
    · obtain ⟨n, rfl⟩ := Int.eq_ofNat_of_zero_le (le_of_lt positive)
      have some_digit : 0 < n := by omega
      have text := decimalText_succ some_digit
      rw [Int.toNat_natCast] at enough ⊢
      rw [text, List.length_append, List.length_singleton] at enough
      have ten : (10 : Int) = (10 : Nat) := rfl
      rw [if_pos positive, ten, tmod_natCast, tdiv_natCast]
      dsimp only
      rw [ofInt_digit, ih _ _ _ (by rw [Int.toNat_natCast]; omega), Int.toNat_natCast, update_eq_overwrite]
      have one := overwrite_append string s [digitChar (n % 10)] (decimalText (n / 10)).reverse
      rw [List.length_singleton] at one
      rw [one, text, List.length_append, List.length_singleton, List.reverse_append]
      congr 2
      omega
    · have none : i.toNat = 0 := by omega
      rw [if_neg positive, none, decimalText_zero]
      simp [overwrite_nil]

/-- **What the buffer holds after the call**: the digits of a positive number, and nothing else. -/
theorem itoa_eq {turns : Nat} {i : Int} (string : Nat → UInt8)
    (enough : (decimalText i.toNat).length < turns) :
    itoa turns i string = some (overwrite string 0 (decimalText i.toNat ++ [0])) := by
  unfold itoa
  rw [itoaLoop_digits turns i 0 string enough, Nat.zero_add]
  have whole := window_overwrite string 0 (decimalText i.toNat).reverse
  rw [List.length_reverse] at whole
  have back := reverse_window turns (decimalText i.toNat).length 0
    (overwrite string 0 (decimalText i.toNat).reverse) (by omega)
  rw [whole, List.reverse_reverse, overwrite_again _ _ (by simp)] at back
  rw [Int.ofNat_zero, Int.zero_add] at back
  show (reverseLoop turns 0 _ _ >>= fun string => _) = _
  rw [back]
  show some (Function.update _ (decimalText i.toNat).length 0) = _
  rw [update_eq_overwrite]
  have ends := overwrite_append string 0 (decimalText i.toNat) [0]
  rw [Nat.zero_add] at ends
  rw [ends]

theorem itoa_returns (i : Int) (string : Nat → UInt8) :
    ItoaReturns i string (overwrite string 0 (decimalText i.toNat ++ [0])) :=
  ⟨(decimalText i.toNat).length + 1, fun _ enough => itoa_eq string enough⟩

theorem ItoaReturns.unique {i : Int} {string out out' : Nat → UInt8} (one : ItoaReturns i string out)
    (other : ItoaReturns i string out') : out = out' := by
  obtain ⟨enough, one⟩ := one
  obtain ⟨enough', other⟩ := other
  exact Option.some.inj
    ((one _ (Nat.le_max_left enough enough')).symm.trans (other _ (Nat.le_max_right enough enough')))

/-! ### The numeral -/

/-- The string of a number that is not positive is empty, and no numeral is. -/
theorem WritesNumeral.positive {i : Int} {string : Nat → UInt8} (writes : WritesNumeral i string) : 0 < i := by
  obtain ⟨out, text, returns, holds, canonical⟩ := writes
  by_contra negative
  have none : i.toNat = 0 := by omega
  have empty := itoa_returns i string
  rw [none, decimalText_zero] at empty
  obtain ⟨c, rest, chars⟩ := List.exists_cons_of_ne_nil canonical.nonempty
  have first := holds.chars
  rw [chars, List.length_cons, window_succ, List.cons.injEq, returns.unique empty] at first
  refine text.noNul ?_
  rw [chars, ← first.1]
  exact List.mem_cons_self

/-- **The string is the numeral exactly of the positive numbers.** -/
theorem itoa_numeral_iff (i : Int) (string : Nat → UInt8) : WritesNumeral i string ↔ 0 < i := by
  refine ⟨WritesNumeral.positive, fun positive => ?_⟩
  obtain ⟨n, rfl⟩ := Int.eq_ofNat_of_zero_le (le_of_lt positive)
  have returns := itoa_returns n string
  rw [Int.toNat_natCast] at returns
  have noNul : 0 ∉ decimalText n := fun zero => absurd (decimalText_digit zero).1 (by decide)
  have whole := window_overwrite string 0 (decimalText n ++ [0])
  rw [List.length_append, List.length_singleton, window_add, Nat.zero_add] at whole
  obtain ⟨chars, ends⟩ := List.append_inj whole (by simp)
  exact ⟨_, ⟨decimalText n, noNul⟩, returns, ⟨chars, List.head_eq_of_cons_eq ends⟩,
    canonical_decimalText (by omega)⟩

/-- The strings of zero and of a negative number are empty. -/
theorem itoa_numeral_fails :
    (itoa 1 0 fun _ => 0xFF).map (fun out => window out 0 2) = some [0x00, 0xFF] ∧
      (itoa 1 (-7) fun _ => 0xFF).map (fun out => window out 0 2) = some [0x00, 0xFF] ∧
      ¬ WritesNumeral 0 (fun _ => 0xFF) ∧ ¬ WritesNumeral (-7) fun _ => 0xFF := by
  have zero : (itoa 1 0 fun _ => 0xFF).map (fun out => window out 0 2) = some [0x00, 0xFF] := by decide
  have negative : (itoa 1 (-7) fun _ => 0xFF).map (fun out => window out 0 2) = some [0x00, 0xFF] := by
    decide
  exact ⟨zero, negative, fun writes => absurd writes.positive (by decide),
    fun writes => absurd writes.positive (by decide)⟩

end KernelPlay
