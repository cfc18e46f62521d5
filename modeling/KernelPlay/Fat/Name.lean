/-
**Names: `string/string.c` and the rendering of directory entries.**

`fat16GetFullRelativeFilename` renders an entry's 8.3 name into a zeroed buffer of 100 bytes.
`istrncmp_eq_zero_iff` — the comparison the lookup makes finds two names equal exactly if they are
equal in lower case (`SameName`).
-/

import KernelPlay.Kernel.State

namespace KernelPlay

open KernelPlay.Library

/-! ### Strings -/

/-- A byte as a `char`. -/
def char (byte : UInt8) : Int := Int.bmod byte.toNat 256

def tolower (c : UInt8) : UInt8 := if 65 ≤ c ∧ c ≤ 90 then c + 32 else c

/-- One turn looks at the heads; behind its end a string reads as its terminator. -/
def istrncmpLoop : Nat → List UInt8 → List UInt8 → Int
  | 0, _, _ => 0
  | left + 1, lhs, rhs =>
    let l := lhs.headD 0
    let r := rhs.headD 0
    if l ≠ r ∧ tolower l ≠ tolower r then if char l - char r > 0 then 1 else -1
    else if l = 0 then 0
    else istrncmpLoop left lhs.tail rhs.tail

def istrncmp (lhs rhs : List UInt8) (len : Nat) : Int := istrncmpLoop len lhs rhs

theorem tolower_eq_zero_iff (c : UInt8) : tolower c = 0 ↔ c = 0 := by
  unfold tolower
  split_ifs with upper
  · obtain ⟨low, high⟩ := upper
    rw [UInt8.le_iff_toNat_le] at low high
    rw [← UInt8.toNat_inj, ← UInt8.toNat_inj, UInt8.toNat_add]
    change (c.toNat + 32) % 256 = 0 ↔ c.toNat = 0
    change 65 ≤ c.toNat at low
    change c.toNat ≤ 90 at high
    omega
  · exact Iff.rfl

theorem tolower_zero : tolower 0 = 0 := rfl

theorem istrncmpLoop_succ (left : Nat) (lhs rhs : List UInt8) :
    istrncmpLoop (left + 1) lhs rhs = 0 ↔
      tolower (lhs.headD 0) = tolower (rhs.headD 0) ∧
      (lhs.headD 0 = 0 ∨ istrncmpLoop left lhs.tail rhs.tail = 0) := by
  rw [istrncmpLoop]
  split_ifs with differ positive ended
  · exact ⟨fun error => absurd error (by decide), fun both => absurd both.1 differ.2⟩
  · exact ⟨fun error => absurd error (by decide), fun both => absurd both.1 differ.2⟩
  · have same : tolower (lhs.headD 0) = tolower (rhs.headD 0) := by
      by_contra lower
      exact differ ⟨fun equal => lower (congrArg tolower equal), lower⟩
    exact ⟨fun _ => ⟨same, .inl ended⟩, fun _ => rfl⟩
  · have same : tolower (lhs.headD 0) = tolower (rhs.headD 0) := by
      by_contra lower
      exact differ ⟨fun equal => lower (congrArg tolower equal), lower⟩
    exact ⟨fun rest => ⟨same, .inr rest⟩, fun both => both.2.resolve_left ended⟩

theorem istrncmpLoop_eq_zero_iff :
    ∀ (left : Nat) (lhs rhs : List UInt8), 0 ∉ lhs → 0 ∉ rhs → lhs.length < left →
      (istrncmpLoop left lhs rhs = 0 ↔ lhs.map tolower = rhs.map tolower)
  | 0, _, _, _, _, short => absurd short (Nat.not_lt_zero _)
  | _ + 1, [], [], _, _, _ => by simp [istrncmpLoop_succ]
  | _ + 1, [], r :: rhs, _, rhsText, _ => by
      have nonzero : tolower r ≠ 0 := fun zero =>
        rhsText ((tolower_eq_zero_iff r).mp zero ▸ List.mem_cons_self)
      simp [istrncmpLoop_succ, tolower_zero, nonzero.symm]
  | _ + 1, l :: lhs, [], lhsText, _, _ => by
      have nonzero : tolower l ≠ 0 := fun zero =>
        lhsText ((tolower_eq_zero_iff l).mp zero ▸ List.mem_cons_self)
      simp [istrncmpLoop_succ, tolower_zero, nonzero]
  | left + 1, l :: lhs, r :: rhs, lhsText, rhsText, short => by
      have nonzero : l ≠ 0 := fun zero => lhsText (zero ▸ List.mem_cons_self)
      have rest := istrncmpLoop_eq_zero_iff left lhs rhs
        (fun member => lhsText (List.mem_cons_of_mem _ member))
        (fun member => rhsText (List.mem_cons_of_mem _ member))
        (by rw [List.length_cons] at short; omega)
      simp [istrncmpLoop_succ, nonzero, rest]

/-- The two names are equal in lower case. -/
def SameName (one other : List UInt8) : Prop := one.map tolower = other.map tolower

instance (one other : List UInt8) : Decidable (SameName one other) := by
  unfold SameName
  infer_instance

/-- **The comparison of the lookup** on texts shorter than the buffer. -/
theorem istrncmp_eq_zero_iff {lhs rhs : List UInt8} {len : Nat} (lhsText : 0 ∉ lhs) (rhsText : 0 ∉ rhs)
    (short : lhs.length < len) : istrncmp lhs rhs len = 0 ↔ SameName lhs rhs :=
  istrncmpLoop_eq_zero_iff len lhs rhs lhsText rhsText short

theorem SameName.symm {one other : List UInt8} (same : SameName one other) : SameName other one :=
  Eq.symm same

theorem SameName.trans {one two three : List UInt8} (first : SameName one two)
    (second : SameName two three) : SameName one three :=
  Eq.trans first second

/-! ### Rendering -/

/-- What the loop writes of the first `size` characters; the buffer is zeroed, so the terminator is
there already. -/
def fat16ToProperString : List UInt8 → Nat → List UInt8
  | [], _ => []
  | c :: rest, size =>
    if c ≠ 0x00 ∧ c ≠ 0x20 then c :: (if size - 1 = 0 then [] else fat16ToProperString rest (size - 1))
    else []

def FatDirectoryItem.filenameChars (item : FatDirectoryItem) : List UInt8 :=
  (List.finRange 8).map item.filename

def FatDirectoryItem.extChars (item : FatDirectoryItem) : List UInt8 := (List.finRange 3).map item.ext

/-- The text left in the buffer. -/
def fat16GetFullRelativeFilename (item : FatDirectoryItem) : List UInt8 :=
  let out := fat16ToProperString item.filenameChars 8
  if item.ext 0 ≠ 0x00 ∧ item.ext 0 ≠ 0x20 then
    out ++ 46 :: fat16ToProperString item.extChars 3
  else out

theorem fat16ToProperString_text :
    ∀ (chars : List UInt8) (size : Nat), 0 ∉ fat16ToProperString chars size
  | [], _ => List.not_mem_nil
  | c :: rest, size => by
      have := fat16ToProperString_text rest (size - 1)
      rw [fat16ToProperString]
      split_ifs with more last
      · simpa using Ne.symm more.1
      · simpa using ⟨Ne.symm more.1, this⟩
      · exact List.not_mem_nil

theorem fat16ToProperString_length :
    ∀ (chars : List UInt8) (size : Nat), (fat16ToProperString chars size).length ≤ chars.length
  | [], _ => le_rfl
  | c :: rest, size => by
      have := fat16ToProperString_length rest (size - 1)
      rw [fat16ToProperString]
      split_ifs <;> (simp only [List.length_cons, List.length_nil]; omega)

theorem fat16GetFullRelativeFilename_text (item : FatDirectoryItem) :
    0 ∉ fat16GetFullRelativeFilename item := by
  have name := fat16ToProperString_text item.filenameChars 8
  have ext := fat16ToProperString_text item.extChars 3
  unfold fat16GetFullRelativeFilename
  dsimp only
  split_ifs
  · simpa using ⟨name, ext⟩
  · exact name

/-- A rendered name fits the buffer with room to spare. -/
theorem fat16GetFullRelativeFilename_length (item : FatDirectoryItem) :
    (fat16GetFullRelativeFilename item).length ≤ 12 := by
  have name := fat16ToProperString_length item.filenameChars 8
  have ext := fat16ToProperString_length item.extChars 3
  have name_length : item.filenameChars.length = 8 := by simp [FatDirectoryItem.filenameChars]
  have ext_length : item.extChars.length = 3 := by simp [FatDirectoryItem.extChars]
  unfold fat16GetFullRelativeFilename
  dsimp only
  split_ifs
  · rw [List.length_append, List.length_cons]
    omega
  · omega

/-- The entry has the name. -/
def FatDirectoryItem.Named (item : FatDirectoryItem) (name : List UInt8) : Prop :=
  SameName (fat16GetFullRelativeFilename item) name

instance (item : FatDirectoryItem) (name : List UInt8) : Decidable (item.Named name) := by
  unfold FatDirectoryItem.Named
  infer_instance

/-- **What the lookup's test says**: the entry has the name. -/
theorem istrncmp_rendered (item : FatDirectoryItem) (name : Text) :
    istrncmp (fat16GetFullRelativeFilename item) name.chars 100 = 0 ↔ item.Named name.chars :=
  istrncmp_eq_zero_iff (fat16GetFullRelativeFilename_text item) name.noNul
    (by have := fat16GetFullRelativeFilename_length item; omega)

end KernelPlay
