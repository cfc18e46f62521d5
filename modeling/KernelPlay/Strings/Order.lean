/-
**The order of `istrncmp`.**

Equality is decided on folded characters, the sign on the characters as they are.

* `istrncmp_cases` — the result is that of the first place where the folded texts differ.
* `OrdersFolded` — what a caller expects of the result: it compares the folded texts, and does not change
  with the case of any letter. `istrncmp_zero_iff` — the equality is always right.
* `istrncmp_orders_iff` — the order is right exactly if the first difference is neither between two letters
  nor between a letter and one of the six characters between the cases; `istrncmp_orders_fails`.
-/

import KernelPlay.Fat.Name

namespace KernelPlay

open KernelPlay.Library

/-- `s[index]`; behind its end a string reads as its terminator. -/
def charOf (chars : List UInt8) (index : Nat) : UInt8 := chars.getD index 0

/-- The first `len` characters in lower case. -/
def foldedText (chars : List UInt8) (len : Nat) : List Int :=
  window (fun index => char (tolower (charOf chars index))) 0 len

/-- **The result orders the strings by their folded texts**, whatever the case of their letters. -/
structure OrdersFolded (lhs rhs : Text) (len : Nat) : Prop where
  zero : istrncmp lhs.chars rhs.chars len = 0 ↔
    (lhs.chars.take len).map tolower = (rhs.chars.take len).map tolower
  less : istrncmp lhs.chars rhs.chars len < 0 ↔ foldedText lhs.chars len < foldedText rhs.chars len
  greater : 0 < istrncmp lhs.chars rhs.chars len ↔ foldedText rhs.chars len < foldedText lhs.chars len
  swapped : istrncmp rhs.chars lhs.chars len = -istrncmp lhs.chars rhs.chars len
  steady : ∀ lhs' rhs' : Text, SameName lhs'.chars lhs.chars → SameName rhs'.chars rhs.chars →
    istrncmp lhs'.chars rhs'.chars len = istrncmp lhs.chars rhs.chars len

/-- The first place where the folded texts differ. -/
structure FirstDifference (lhs rhs : List UInt8) (len index : Nat) : Prop where
  inside : index < len
  same : ∀ before, before < index → tolower (charOf lhs before) = tolower (charOf rhs before)
  differ : tolower (charOf lhs index) ≠ tolower (charOf rhs index)

def isLetter (c : UInt8) : Prop := 65 ≤ c.toNat ∧ c.toNat ≤ 90 ∨ 97 ≤ c.toNat ∧ c.toNat ≤ 122

/-- One of the six characters behind `Z` and in front of `a`. -/
def betweenCases (c : UInt8) : Prop := 91 ≤ c.toNat ∧ c.toNat ≤ 96

/-- The case of the letters does not decide which of the two is the greater. -/
def Settled (l r : UInt8) : Prop :=
  ¬ (isLetter l ∧ isLetter r) ∧ ¬ (isLetter l ∧ betweenCases r) ∧ ¬ (betweenCases l ∧ isLetter r)

/-! ### Characters -/

section Characters

variable {l r : UInt8}

/-- A letter in upper case. -/
def raised (c : UInt8) : UInt8 := if 97 ≤ c.toNat ∧ c.toNat ≤ 122 then c - 32 else c

theorem char_eq (c : UInt8) : char c = if c.toNat < 128 then (c.toNat : Int) else c.toNat - 256 := by
  have below := c.toNat_lt
  unfold char
  rw [Int.bmod_def]
  split_ifs <;> omega

theorem char_inj : char l = char r ↔ l = r := by
  have below := l.toNat_lt
  have below' := r.toNat_lt
  rw [char_eq, char_eq, ← UInt8.toNat_inj]
  split_ifs <;> omega

theorem tolower_toNat (c : UInt8) :
    (tolower c).toNat = if 65 ≤ c.toNat ∧ c.toNat ≤ 90 then c.toNat + 32 else c.toNat := by
  have upper : (65 ≤ c ∧ c ≤ 90) ↔ (65 ≤ c.toNat ∧ c.toNat ≤ 90) := Iff.rfl
  unfold tolower
  split_ifs with one two two
  · rw [UInt8.toNat_add]
    show (c.toNat + 32) % 256 = _
    omega
  · exact absurd (upper.mp one) two
  · exact absurd (upper.mpr two) one
  · rfl

theorem raised_toNat (c : UInt8) :
    (raised c).toNat = if 97 ≤ c.toNat ∧ c.toNat ≤ 122 then c.toNat - 32 else c.toNat := by
  have below := c.toNat_lt
  unfold raised
  split_ifs with lower
  · rw [UInt8.toNat_sub]
    show (256 - 32 + c.toNat) % 256 = _
    omega
  · rfl

theorem tolower_raised (c : UInt8) : tolower (raised c) = tolower c := by
  rw [← UInt8.toNat_inj, tolower_toNat, tolower_toNat, raised_toNat]
  split_ifs <;> omega

theorem tolower_tolower (c : UInt8) : tolower (tolower c) = tolower c := by
  rw [← UInt8.toNat_inj, tolower_toNat, tolower_toNat]
  split_ifs <;> omega

theorem char_tolower_inj : char (tolower l) = char (tolower r) ↔ tolower l = tolower r := char_inj

theorem char_of_letter {c : UInt8} (letter : isLetter c) :
    (65 ≤ char c ∧ char c ≤ 122) ∧ (97 ≤ char (tolower c) ∧ char (tolower c) ≤ 122) ∧
      char (raised c) = char (tolower c) - 32 := by
  have below := c.toNat_lt
  unfold isLetter at letter
  rw [char_eq, char_eq, char_eq, tolower_toNat, raised_toNat]
  split_ifs <;> omega

theorem char_of_betweenCases {c : UInt8} (between : betweenCases c) : 91 ≤ char c ∧ char c ≤ 96 := by
  unfold betweenCases at between
  rw [char_eq, if_pos (by omega)]
  omega

/-- Any other character has no case, and is below or above all letters unless it is between their cases. -/
theorem char_of_not_letter {c : UInt8} (plain : ¬ isLetter c) :
    tolower c = c ∧ raised c = c ∧ (betweenCases c ∨ char c < 65 ∨ 122 < char c) := by
  unfold isLetter at plain
  refine ⟨?_, ?_, ?_⟩
  · rw [← UInt8.toNat_inj, tolower_toNat, if_neg (by omega)]
  · rw [← UInt8.toNat_inj, raised_toNat, if_neg (by omega)]
  · have below := c.toNat_lt
    unfold betweenCases
    rw [char_eq]
    split_ifs <;> omega

/-- A settled pair has the order of its folded characters. -/
theorem Settled.order (settled : Settled l r) :
    char l - char r > 0 ↔ char (tolower r) < char (tolower l) := by
  obtain ⟨letters, behind, before⟩ := settled
  by_cases letter : isLetter l
  · have ranges := char_of_letter letter
    obtain ⟨same, -, between | apart⟩ := char_of_not_letter fun other => letters ⟨letter, other⟩
    · exact absurd ⟨letter, between⟩ behind
    · rw [same]
      omega
  · obtain ⟨same, -, place⟩ := char_of_not_letter letter
    by_cases letter' : isLetter r
    · have ranges := char_of_letter letter'
      rcases place with between | apart
      · exact absurd ⟨between, letter'⟩ before
      · rw [same]
        omega
    · obtain ⟨same', -, -⟩ := char_of_not_letter letter'
      rw [same, same']
      omega

/-- Whether a pair is settled is a matter of its folded characters. -/
theorem settled_congr {l' r' : UInt8} (left : tolower l' = tolower l) (right : tolower r' = tolower r) :
    Settled l' r' ↔ Settled l r := by
  have letter {c c' : UInt8} (same : tolower c' = tolower c) :
      (isLetter c' ↔ isLetter c) ∧ (betweenCases c' ↔ betweenCases c) := by
    rw [← UInt8.toNat_inj, tolower_toNat, tolower_toNat] at same
    unfold isLetter betweenCases
    split_ifs at same <;> omega
  unfold Settled
  rw [(letter left).1, (letter left).2, (letter right).1, (letter right).2]

/-- The order of a pair that is not settled goes with the case of its letters. -/
theorem unsettled_order (unsettled : ¬ Settled l r) :
    ¬ char (raised l) - char (tolower r) > 0 ∧ char (tolower l) - char (raised r) > 0 := by
  by_cases letter : isLetter l
  · have ranges := char_of_letter letter
    by_cases letter' : isLetter r
    · have ranges' := char_of_letter letter'
      omega
    · obtain ⟨same, same', -⟩ := char_of_not_letter letter'
      have between : betweenCases r := by
        by_contra apart
        exact unsettled ⟨fun both => letter' both.2, fun both => apart both.2, fun both => letter' both.2⟩
      have places := char_of_betweenCases between
      rw [same, same']
      omega
  · obtain ⟨same, same', -⟩ := char_of_not_letter letter
    have both : betweenCases l ∧ isLetter r := by
      by_contra apart
      exact unsettled ⟨fun both => letter both.1, fun both => letter both.1, apart⟩
    have places := char_of_betweenCases both.1
    have ranges := char_of_letter both.2
    rw [same, same']
    omega

end Characters

/-! ### The first difference -/

section Difference

theorem charOf_tail (chars : List UInt8) (index : Nat) :
    charOf chars.tail index = charOf chars (index + 1) := by
  cases chars <;> rfl

theorem charOf_map {f : UInt8 → UInt8} (zero : f 0 = 0) (chars : List UInt8) (index : Nat) :
    charOf (chars.map f) index = f (charOf chars index) := by
  unfold charOf
  rw [← zero, List.getD_map, zero]

/-- **The result is that of the first difference.** -/
theorem istrncmpLoop_cases (left : Nat) (lhs rhs : List UInt8) (lhsText : 0 ∉ lhs) (rhsText : 0 ∉ rhs) :
    (istrncmpLoop left lhs rhs = 0 ∧
        ∀ index, index < left → tolower (charOf lhs index) = tolower (charOf rhs index)) ∨
      ∃ index, FirstDifference lhs rhs left index ∧
        istrncmpLoop left lhs rhs =
          if char (charOf lhs index) - char (charOf rhs index) > 0 then 1 else -1 := by
  induction left generalizing lhs rhs with
  | zero => exact .inl ⟨rfl, fun index below => absurd below (Nat.not_lt_zero index)⟩
  | succ left ih =>
    have head (chars : List UInt8) : chars.headD 0 = charOf chars 0 := by cases chars <;> rfl
    rw [istrncmpLoop, head, head]
    by_cases differ : tolower (charOf lhs 0) = tolower (charOf rhs 0)
    swap
    · have raw : charOf lhs 0 ≠ charOf rhs 0 := fun same => differ (congrArg tolower same)
      rw [if_pos ⟨raw, differ⟩]
      exact .inr ⟨0, ⟨Nat.succ_pos left, fun before none => absurd none (Nat.not_lt_zero before), differ⟩, rfl⟩
    rw [if_neg fun both => both.2 differ]
    by_cases ended : charOf lhs 0 = 0
    · rw [if_pos ended]
      have other : charOf rhs 0 = 0 := by
        rw [ended, tolower_zero] at differ
        exact (tolower_eq_zero_iff _).mp differ.symm
      have empty {chars : List UInt8} (text : 0 ∉ chars) (first : charOf chars 0 = 0) : chars = [] := by
        cases chars with
        | nil => rfl
        | cons c chars => exact absurd (show c = 0 from first) fun zero => text (zero ▸ List.mem_cons_self)
      rw [empty lhsText ended, empty rhsText other]
      exact .inl ⟨rfl, fun _ _ => rfl⟩
    · rw [if_neg ended]
      rcases ih lhs.tail rhs.tail (fun member => lhsText (List.mem_of_mem_tail member))
        (fun member => rhsText (List.mem_of_mem_tail member)) with ⟨result, same⟩ | ⟨index, first, result⟩
      · refine .inl ⟨result, fun index below => ?_⟩
        cases index with
        | zero => exact differ
        | succ index =>
          rw [← charOf_tail, ← charOf_tail]
          exact same index (by omega)
      · obtain ⟨inside, same, apart⟩ := first
        rw [charOf_tail, charOf_tail] at apart result
        refine .inr ⟨index + 1, ⟨by omega, fun before earlier => ?_, apart⟩, result⟩
        cases before with
        | zero => exact differ
        | succ before =>
          rw [← charOf_tail, ← charOf_tail]
          exact same before (by omega)

variable {lhs rhs : List UInt8} {len : Nat}

theorem istrncmp_cases (lhs rhs : Text) (len : Nat) :
    (istrncmp lhs.chars rhs.chars len = 0 ∧
        ∀ index, index < len → tolower (charOf lhs.chars index) = tolower (charOf rhs.chars index)) ∨
      ∃ index, FirstDifference lhs.chars rhs.chars len index ∧ istrncmp lhs.chars rhs.chars len =
        if char (charOf lhs.chars index) - char (charOf rhs.chars index) > 0 then 1 else -1 :=
  istrncmpLoop_cases len lhs.chars rhs.chars lhs.noNul rhs.noNul

theorem FirstDifference.unique {one other : Nat} (first : FirstDifference lhs rhs len one)
    (second : FirstDifference lhs rhs len other) : one = other := by
  rcases Nat.lt_trichotomy one other with before | same | behind
  · exact absurd (second.same one before) first.differ
  · exact same
  · exact absurd (first.same other behind) second.differ

theorem FirstDifference.symm {index : Nat} (first : FirstDifference lhs rhs len index) :
    FirstDifference rhs lhs len index :=
  ⟨first.inside, fun before earlier => (first.same before earlier).symm, first.differ.symm⟩

/-- The result, where the first difference is known. -/
theorem istrncmp_of_first {lhs rhs : Text} {index : Nat}
    (first : FirstDifference lhs.chars rhs.chars len index) : istrncmp lhs.chars rhs.chars len =
      if char (charOf lhs.chars index) - char (charOf rhs.chars index) > 0 then 1 else -1 := by
  rcases istrncmp_cases lhs rhs len with ⟨-, same⟩ | ⟨other, second, result⟩
  · exact absurd (same index first.inside) first.differ
  · rw [first.unique second]
    exact result

/-- The folded texts are ordered by the first difference. -/
theorem foldedText_lt_iff :
    foldedText lhs len < foldedText rhs len ↔ ∃ index, FirstDifference lhs rhs len index ∧
      char (tolower (charOf lhs index)) < char (tolower (charOf rhs index)) := by
  unfold foldedText
  rw [window_lt_iff]
  simp only [Nat.zero_add, char_tolower_inj]
  constructor
  · rintro ⟨index, inside, same, less⟩
    exact ⟨index, ⟨inside, same, fun equal => less.ne (congrArg char equal)⟩, less⟩
  · rintro ⟨index, first, less⟩
    exact ⟨index, first.inside, first.same, less⟩

/-- Texts with the same characters are the same. -/
theorem text_ext : ∀ {xs ys : List UInt8}, 0 ∉ xs → 0 ∉ ys → (∀ index, charOf xs index = charOf ys index) →
    xs = ys
  | [], [], _, _, _ => rfl
  | [], y :: ys, _, text, same => absurd (show y = 0 from (same 0).symm) fun zero =>
      text (zero ▸ List.mem_cons_self)
  | x :: xs, [], text, _, same => absurd (show x = 0 from same 0) fun zero =>
      text (zero ▸ List.mem_cons_self)
  | x :: xs, y :: ys, text, text', same => by
      obtain rfl : x = y := same 0
      rw [text_ext (fun member => text (List.mem_cons_of_mem _ member))
        (fun member => text' (List.mem_cons_of_mem _ member)) fun index => same (index + 1)]

theorem folded_text {chars : List UInt8} (text : 0 ∉ chars) : 0 ∉ (chars.take len).map tolower := by
  intro member
  obtain ⟨c, inside, zero⟩ := List.mem_map.mp member
  rw [(tolower_eq_zero_iff c).mp zero] at inside
  exact text (List.mem_of_mem_take inside)

theorem charOf_take_fold (chars : List UInt8) (index : Nat) :
    charOf ((chars.take len).map tolower) index = if index < len then tolower (charOf chars index) else 0 := by
  rw [charOf_map tolower_zero]
  unfold charOf
  split_ifs with below
  · rw [List.getD_eq_getElem?_getD, List.getD_eq_getElem?_getD, List.getElem?_take_of_lt below]
  · rw [List.getD_eq_default _ _ ((List.length_take_le len chars).trans (by omega))]
    rfl

theorem take_fold_iff (lhsText : 0 ∉ lhs) (rhsText : 0 ∉ rhs) :
    (lhs.take len).map tolower = (rhs.take len).map tolower ↔
      ∀ index, index < len → tolower (charOf lhs index) = tolower (charOf rhs index) := by
  constructor
  · intro equal index below
    have same := congrArg (fun chars => charOf chars index) equal
    rw [charOf_take_fold, charOf_take_fold, if_pos below, if_pos below] at same
    exact same
  · intro same
    refine text_ext (folded_text lhsText) (folded_text rhsText) fun index => ?_
    rw [charOf_take_fold, charOf_take_fold]
    split_ifs with below
    · exact same index below
    · rfl

end Difference

/-! ### The order -/

section Order

variable {lhs rhs : Text} {len : Nat}

/-- **The equality is right** for all strings. -/
theorem istrncmp_zero_iff (lhs rhs : Text) (len : Nat) : istrncmp lhs.chars rhs.chars len = 0 ↔
    (lhs.chars.take len).map tolower = (rhs.chars.take len).map tolower := by
  rw [take_fold_iff lhs.noNul rhs.noNul]
  rcases istrncmp_cases lhs rhs len with ⟨result, same⟩ | ⟨index, first, result⟩
  · exact iff_of_true result same
  · refine iff_of_false ?_ fun same => first.differ (same index first.inside)
    rw [result]
    split_ifs <;> decide

theorem istrncmp_swapped (lhs rhs : Text) (len : Nat) :
    istrncmp rhs.chars lhs.chars len = -istrncmp lhs.chars rhs.chars len := by
  rcases istrncmp_cases lhs rhs len with ⟨result, same⟩ | ⟨index, first, result⟩
  · rw [result, (istrncmp_zero_iff rhs lhs len).mpr]
    · rfl
    · exact ((istrncmp_zero_iff lhs rhs len).mp result).symm
  · have apart : char (charOf lhs.chars index) ≠ char (charOf rhs.chars index) :=
      fun same => first.differ (congrArg tolower (char_inj.mp same))
    rw [result, istrncmp_of_first first.symm]
    split_ifs <;> omega

/-- A string with the case of letters changed. -/
def Text.recased (text : Text) (f : UInt8 → UInt8) (folds : ∀ c, tolower (f c) = tolower c) : Text where
  chars := text.chars.map f
  noNul member := by
    obtain ⟨c, inside, zero⟩ := List.mem_map.mp member
    have folded : tolower c = 0 := by rw [← folds, zero, tolower_zero]
    exact text.noNul ((tolower_eq_zero_iff c).mp folded ▸ inside)

theorem recased_same (text : Text) (f : UInt8 → UInt8) (folds : ∀ c, tolower (f c) = tolower c) :
    SameName (text.recased f folds).chars text.chars := by
  unfold SameName Text.recased
  rw [List.map_map]
  exact List.map_congr_left fun c _ => folds c

theorem SameName.charOf {one other : List UInt8} (same : SameName one other) (index : Nat) :
    tolower (charOf one index) = tolower (charOf other index) := by
  rw [← charOf_map tolower_zero, ← charOf_map tolower_zero, same]

theorem FirstDifference.congr {one other one' other' : List UInt8} {index : Nat}
    (first : FirstDifference one other len index) (left : SameName one' one) (right : SameName other' other) :
    FirstDifference one' other' len index := by
  refine ⟨first.inside, fun before earlier => ?_, ?_⟩
  · rw [left.charOf, right.charOf, first.same before earlier]
  · rw [left.charOf, right.charOf]
    exact first.differ

/-- Where the first difference is settled, it has the order of the folded texts, in every case. -/
theorem istrncmp_of_settled {index : Nat} (first : FirstDifference lhs.chars rhs.chars len index)
    (settled : Settled (charOf lhs.chars index) (charOf rhs.chars index)) {lhs' rhs' : Text}
    (left : SameName lhs'.chars lhs.chars) (right : SameName rhs'.chars rhs.chars) :
    istrncmp lhs'.chars rhs'.chars len =
      if char (tolower (charOf rhs.chars index)) < char (tolower (charOf lhs.chars index)) then 1 else -1 := by
  have first' := first.congr left right
  have order := ((settled_congr (left.charOf index) (right.charOf index)).mpr settled).order
  rw [istrncmp_of_first first', ← left.charOf, ← right.charOf]
  simp only [order]

theorem orders_of_settled
    (settled : ∀ index, FirstDifference lhs.chars rhs.chars len index →
      Settled (charOf lhs.chars index) (charOf rhs.chars index)) : OrdersFolded lhs rhs len := by
  have zero := istrncmp_zero_iff lhs rhs len
  rcases istrncmp_cases lhs rhs len with ⟨result, same⟩ | ⟨index, first, -⟩
  · have none {one other : List UInt8} (same : ∀ index, index < len →
        tolower (charOf one index) = tolower (charOf other index)) :
        ¬ foldedText one len < foldedText other len := by
      rw [foldedText_lt_iff]
      rintro ⟨index, first, -⟩
      exact first.differ (same index first.inside)
    refine ⟨zero, iff_of_false (by omega) (none same),
      iff_of_false (by omega) (none fun index below => (same index below).symm),
      istrncmp_swapped lhs rhs len, fun lhs' rhs' left right => ?_⟩
    rw [result, istrncmp_zero_iff, take_fold_iff lhs'.noNul rhs'.noNul]
    intro index below
    rw [left.charOf, right.charOf, same index below]
  · have result {lhs' rhs' : Text} (left : SameName lhs'.chars lhs.chars)
        (right : SameName rhs'.chars rhs.chars) :=
      istrncmp_of_settled first (settled index first) left right
    have own := @result lhs rhs rfl rfl
    have apart : char (tolower (charOf lhs.chars index)) ≠ char (tolower (charOf rhs.chars index)) :=
      fun same => first.differ (char_inj.mp same)
    have less : foldedText lhs.chars len < foldedText rhs.chars len ↔
        char (tolower (charOf lhs.chars index)) < char (tolower (charOf rhs.chars index)) := by
      rw [foldedText_lt_iff]
      exact ⟨fun ⟨other, second, lower⟩ => first.unique second ▸ lower, fun lower => ⟨index, first, lower⟩⟩
    have greater : foldedText rhs.chars len < foldedText lhs.chars len ↔
        char (tolower (charOf rhs.chars index)) < char (tolower (charOf lhs.chars index)) := by
      rw [foldedText_lt_iff]
      exact ⟨fun ⟨other, second, lower⟩ => first.symm.unique second ▸ lower,
        fun lower => ⟨index, first.symm, lower⟩⟩
    refine ⟨zero, ?_, ?_, istrncmp_swapped lhs rhs len, fun lhs' rhs' left right => ?_⟩
    · rw [own, less]
      split_ifs <;> omega
    · rw [own, greater]
      split_ifs <;> omega
    · rw [result left right, own]

/-- **`istrncmp` orders the strings by their folded texts** exactly if their first difference is settled:
neither between two letters nor between a letter and a character between the cases. -/
theorem istrncmp_orders_iff (lhs rhs : Text) (len : Nat) :
    OrdersFolded lhs rhs len ↔ ∀ index, FirstDifference lhs.chars rhs.chars len index →
      Settled (charOf lhs.chars index) (charOf rhs.chars index) := by
  refine ⟨fun orders index first => ?_, orders_of_settled⟩
  by_contra unsettled
  obtain ⟨lower, higher⟩ := unsettled_order unsettled
  have up := recased_same lhs raised tolower_raised
  have down := recased_same lhs tolower tolower_tolower
  have up' := recased_same rhs raised tolower_raised
  have down' := recased_same rhs tolower tolower_tolower
  have one := orders.steady _ _ up down'
  have two := orders.steady _ _ down up'
  rw [istrncmp_of_first (first.congr up down')] at one
  rw [istrncmp_of_first (first.congr down up')] at two
  unfold Text.recased at one two
  dsimp only at one two
  rw [charOf_map rfl, charOf_map tolower_zero, if_neg lower] at one
  rw [charOf_map tolower_zero, charOf_map rfl, if_pos higher] at two
  omega

end Order

/-- `a` stands behind `B`, and `A` in front of it. -/
theorem istrncmp_orders_fails :
    istrncmp [97] [66] 1 = 1 ∧ istrncmp [65] [66] 1 = -1 ∧
      ¬ OrdersFolded ⟨[97], by decide⟩ ⟨[66], by decide⟩ 1 := by
  have behind : istrncmp [97] [66] 1 = 1 := by decide
  have before : istrncmp [65] [66] 1 = -1 := by decide
  refine ⟨behind, before, fun orders => ?_⟩
  have same := orders.steady ⟨[65], by decide⟩ ⟨[66], by decide⟩ (by decide) rfl
  rw [behind, before] at same
  cases same

end KernelPlay
