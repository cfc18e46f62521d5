/-
**Comparisons: `memcmp` of `memory/memory.c` and `strncmp` of `string/string.c`.**

Both look for the first difference and compare the two bytes there as `char`. `memcmp_cases` — the result is that
of the first difference. `strncmp_eq_memcmp` — a string reads as zeros behind its end, so `strncmp` is `memcmp` on
the padded strings.

`strncmp_orders` — unlike `istrncmp` it orders all strings, by their first characters. `getFileMode_strncmp` and
`validateStartOfPath_memcmp` are what its callers and those of `memcmp` ask of them.
-/

import KernelPlay.File.Table
import KernelPlay.Strings.Order

namespace KernelPlay

open KernelPlay.Library

/-! ### The code -/

/-- The loop of `memcmp` from `i` on. -/
def memcmpLoop (l r : Nat → UInt8) : Nat → Nat → Int
  | 0, _ => 0
  | left + 1, i => if l i ≠ r i then if char (l i) < char (r i) then -1 else 1 else memcmpLoop l r left (i + 1)

def memcmp (lhs rhs : Nat → UInt8) (size : Nat) : Int := memcmpLoop lhs rhs size 0

/-- One turn looks at the heads; behind its end a string reads as its terminator. -/
def strncmpLoop : Nat → List UInt8 → List UInt8 → Int
  | 0, _, _ => 0
  | left + 1, lhs, rhs =>
    let l := lhs.headD 0
    let r := rhs.headD 0
    if l ≠ r then if char l - char r > 0 then 1 else -1
    else if l = 0 then 0
    else strncmpLoop left lhs.tail rhs.tail

def strncmp (lhs rhs : List UInt8) (len : Nat) : Int := strncmpLoop len lhs rhs

/-! ### `memcmp` -/

section Memory

variable {l r : Nat → UInt8} {size : Nat}

theorem memcmpLoop_cases (left i : Nat) :
    (memcmpLoop l r left i = 0 ∧ ∀ index, index < left → l (i + index) = r (i + index)) ∨
      ∃ index, index < left ∧ (∀ before, before < index → l (i + before) = r (i + before)) ∧
        l (i + index) ≠ r (i + index) ∧
        memcmpLoop l r left i = if char (l (i + index)) < char (r (i + index)) then -1 else 1 := by
  induction left generalizing i with
  | zero => exact .inl ⟨rfl, fun index below => absurd below (Nat.not_lt_zero index)⟩
  | succ left ih =>
    rw [memcmpLoop]
    by_cases differ : l i ≠ r i
    · rw [if_pos differ]
      exact .inr ⟨0, Nat.succ_pos left, fun before none => absurd none (Nat.not_lt_zero before), differ, rfl⟩
    have same : l i = r i := not_not.mp differ
    have further {index : Nat} (rest : ∀ before, before < index → l (i + 1 + before) = r (i + 1 + before)) :
        ∀ before, before < index + 1 → l (i + before) = r (i + before) := fun before within => by
      cases before with
      | zero => exact same
      | succ before =>
        have equal := rest before (by omega)
        rwa [Nat.add_assoc, Nat.add_comm 1] at equal
    rw [if_neg differ]
    rcases ih (i + 1) with ⟨result, rest⟩ | ⟨index, below, rest, apart, result⟩
    · exact .inl ⟨result, further rest⟩
    · rw [Nat.add_assoc, Nat.add_comm 1] at apart result
      exact .inr ⟨index + 1, by omega, further rest, apart, result⟩

/-- **The result is that of the first difference.** -/
theorem memcmp_cases (l r : Nat → UInt8) (size : Nat) :
    (memcmp l r size = 0 ∧ ∀ index, index < size → l index = r index) ∨
      ∃ index, index < size ∧ (∀ before, before < index → l before = r before) ∧ l index ≠ r index ∧
        memcmp l r size = if char (l index) < char (r index) then -1 else 1 := by
  have cases := @memcmpLoop_cases l r size 0
  simp only [Nat.zero_add] at cases
  exact cases

/-- The bytes as `char`. -/
def charWindow (bytes : Nat → UInt8) (size : Nat) : List Int := window (fun index => char (bytes index)) 0 size

theorem charWindow_lt_iff : charWindow l size < charWindow r size ↔
    ∃ index, index < size ∧ (∀ before, before < index → l before = r before) ∧ char (l index) < char (r index) := by
  simp [charWindow, window_lt_iff, char_inj]

theorem memcmp_zero_iff : memcmp l r size = 0 ↔ ∀ index, index < size → l index = r index := by
  rcases memcmp_cases l r size with ⟨result, same⟩ | ⟨index, below, -, apart, result⟩
  · exact iff_of_true result same
  · refine iff_of_false ?_ fun same => apart (same index below)
    rw [result]
    split_ifs <;> decide

theorem memcmp_less_iff : memcmp l r size < 0 ↔ charWindow l size < charWindow r size := by
  rw [charWindow_lt_iff]
  rcases memcmp_cases l r size with ⟨result, same⟩ | ⟨index, below, before, apart, result⟩
  · refine iff_of_false (by rw [result]; decide) ?_
    rintro ⟨index, below, -, less⟩
    exact less.ne (congrArg char (same index below))
  · have first {other : Nat} (rest : ∀ before, before < other → l before = r before)
        (less : char (l other) < char (r other)) : other = index := by
      rcases Nat.lt_trichotomy other index with early | here | late
      · exact absurd (congrArg char (before other early)) less.ne
      · exact here
      · exact absurd (rest index late) apart
    rw [result]
    constructor
    · intro negative
      refine ⟨index, below, before, ?_⟩
      by_contra more
      rw [if_neg more] at negative
      exact absurd negative (by decide)
    · rintro ⟨other, -, rest, less⟩
      obtain rfl := first rest less
      rw [if_pos less]
      decide

theorem memcmp_swapped (l r : Nat → UInt8) (size : Nat) : memcmp r l size = -memcmp l r size := by
  rcases memcmp_cases l r size with ⟨result, same⟩ | ⟨index, below, before, apart, result⟩
  · rw [result, memcmp_zero_iff.mpr fun index below => (same index below).symm]
    rfl
  · have differ : char (l index) ≠ char (r index) := fun same => apart (char_inj.mp same)
    rcases memcmp_cases r l size with ⟨-, same⟩ | ⟨other, below', before', apart', result'⟩
    · exact absurd (same index below).symm apart
    · obtain rfl : other = index := by
        rcases Nat.lt_trichotomy other index with early | here | late
        · exact absurd (before other early).symm apart'
        · exact here
        · exact absurd (before' index late).symm apart
      rw [result, result']
      split_ifs <;> omega

end Memory

/-! ### `strncmp` -/

section Strings

variable {lhs rhs : List UInt8} {len : Nat}

/-- **`strncmp` is `memcmp` on the strings padded with zeros.** -/
theorem strncmpLoop_eq (lhsText : 0 ∉ lhs) (rhsText : 0 ∉ rhs) (left i : Nat) :
    strncmpLoop left (lhs.drop i) (rhs.drop i) = memcmpLoop (charOf lhs) (charOf rhs) left i := by
  induction left generalizing i with
  | zero => rfl
  | succ left ih =>
    have head (chars : List UInt8) : (chars.drop i).headD 0 = charOf chars i := by
      rw [charOf, List.headD_eq_head?_getD, List.head?_drop, List.getD_eq_getElem?_getD]
    rw [strncmpLoop, memcmpLoop, head, head, List.tail_drop, List.tail_drop, ih]
    by_cases differ : charOf lhs i = charOf rhs i
    swap
    · have apart : char (charOf lhs i) ≠ char (charOf rhs i) := fun same => differ (char_inj.mp same)
      rw [if_pos differ, if_pos differ]
      split_ifs <;> omega
    rw [if_neg (not_not.mpr differ), if_neg (not_not.mpr differ)]
    by_cases ended : charOf lhs i = 0
    swap
    · rw [if_neg ended]
    -- Both strings have ended, and what is behind them reads as zeros.
    have behind {chars : List UInt8} (text : 0 ∉ chars) (zero : charOf chars i = 0) (index : Nat) :
        charOf chars (i + 1 + index) = 0 := by
      have short : chars.length ≤ i := by
        by_contra inside
        rw [charOf, List.getD_eq_getElem _ _ (by omega)] at zero
        exact text (zero ▸ List.getElem_mem _)
      exact List.getD_eq_default _ _ (by omega)
    rw [if_pos ended]
    rcases @memcmpLoop_cases (charOf lhs) (charOf rhs) left (i + 1) with ⟨result, -⟩ | ⟨index, -, -, apart, -⟩
    · exact result.symm
    · exact absurd ((behind lhsText ended index).trans (behind rhsText (differ ▸ ended) index).symm) apart

theorem strncmp_eq_memcmp (lhs rhs : Text) (len : Nat) :
    strncmp lhs.chars rhs.chars len = memcmp (charOf lhs.chars) (charOf rhs.chars) len :=
  strncmpLoop_eq lhs.noNul rhs.noNul len 0

theorem charOf_take (chars : List UInt8) (index : Nat) :
    charOf (chars.take len) index = if index < len then charOf chars index else 0 := by
  unfold charOf
  split_ifs with below
  · rw [List.getD_eq_getElem?_getD, List.getD_eq_getElem?_getD, List.getElem?_take_of_lt below]
  · exact List.getD_eq_default _ _ ((List.length_take_le len chars).trans (by omega))

theorem take_iff (lhsText : 0 ∉ lhs) (rhsText : 0 ∉ rhs) :
    lhs.take len = rhs.take len ↔ ∀ index, index < len → charOf lhs index = charOf rhs index := by
  constructor
  · intro equal index below
    have same := congrArg (fun chars => charOf chars index) equal
    rwa [charOf_take, charOf_take, if_pos below, if_pos below] at same
  · intro same
    refine text_ext (fun member => lhsText (List.mem_of_mem_take member))
      (fun member => rhsText (List.mem_of_mem_take member)) fun index => ?_
    rw [charOf_take, charOf_take]
    split_ifs with below
    · exact same index below
    · rfl

/-- **`strncmp` orders all strings** by their first `len` characters: it is `memcmp` on the strings padded with
zeros, zero exactly for the same first characters, negative exactly if they come first in the order of the texts
by `char`, and changes its sign when the strings are swapped. -/
theorem strncmp_orders (lhs rhs : Text) (len : Nat) :
    strncmp lhs.chars rhs.chars len = memcmp (charOf lhs.chars) (charOf rhs.chars) len ∧
      (strncmp lhs.chars rhs.chars len = 0 ↔ lhs.chars.take len = rhs.chars.take len) ∧
      (strncmp lhs.chars rhs.chars len < 0 ↔
        charWindow (charOf lhs.chars) len < charWindow (charOf rhs.chars) len) ∧
      strncmp rhs.chars lhs.chars len = -strncmp lhs.chars rhs.chars len := by
  rw [strncmp_eq_memcmp, strncmp_eq_memcmp]
  exact ⟨rfl, memcmp_zero_iff.trans (take_iff lhs.noNul rhs.noNul).symm, memcmp_less_iff, memcmp_swapped _ _ _⟩

end Strings

/-! ### Their callers -/

section Callers

/-- The strings `"r"`, `"w"` and `"a"`. -/
def modeText (c : UInt8) (plain : c ≠ 0) : Text := ⟨[c], by simpa using plain.symm⟩

theorem strncmp_mode (s : CString) {c : UInt8} (plain : c ≠ 0) :
    strncmp s.text.chars (modeText c plain).chars 1 = 0 ↔ s.charAt 0 = c := by
  rw [strncmp_eq_memcmp, memcmp_zero_iff]
  have first : s.charAt 0 = charOf s.text.chars 0 := if_pos (Nat.zero_le _)
  rw [first]
  refine ⟨fun same => same 0 Nat.zero_lt_one, fun same index below => ?_⟩
  obtain rfl : index = 0 := by omega
  exact same

/-- The modes are told by their first characters. -/
theorem getFileMode_strncmp (s : CString) : getFileMode s =
    if strncmp s.text.chars (modeText 114 (by decide)).chars 1 = 0 then .read
    else if strncmp s.text.chars (modeText 119 (by decide)).chars 1 = 0 then .write
    else if strncmp s.text.chars (modeText 97 (by decide)).chars 1 = 0 then .append
    else .invalid := by
  simp only [getFileMode, strncmp_mode]

/-- The characters of `":/"`. -/
def driveSeparator (index : Nat) : UInt8 := charOf [58, 47] index

/-- Only a negative result is an error. -/
theorem validateStartOfPath_memcmp (pathStr : CString) (p : Nat) : validateStartOfPath pathStr p =
    if memcmp driveSeparator (fun index => pathStr.charAt (p + index)) 2 < 0 then .error (-einvarg)
    else .ok (p + 2) := by
  have same : memcmp driveSeparator (fun index => pathStr.charAt (p + index)) 2 =
      if (58 : Int) ≠ char (pathStr.charAt (p + 0)) then if 58 < char (pathStr.charAt (p + 0)) then -1 else 1
      else if (47 : Int) ≠ char (pathStr.charAt (p + 1)) then if 47 < char (pathStr.charAt (p + 1)) then -1 else 1
      else 0 := by
    have colon : (58 : Int) = char (driveSeparator 0) := by decide
    have slash : (47 : Int) = char (driveSeparator 1) := by decide
    simp only [colon, slash, ne_eq, char_inj]
    rfl
  rw [same]
  rfl

end Callers

end KernelPlay
