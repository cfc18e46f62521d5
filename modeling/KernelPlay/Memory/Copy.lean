/-
**Copies upwards: `memcpy` of `memory/memory.c` and `strcpy` of `string/string.c`.**

Both copy one byte after the other, the lowest first, so a byte that the copy has written may be read again:
`copiedFrom dest src index` is where the byte at `dest + index` comes from (`memcpy_apply`), and `strcpy` is a
`memcpy` up to the first such byte that is zero (`strcpyLoop_iff`).

* `memcpy_moves_iff` — a `memcpy` moves its bytes unless it runs into what it has written and they do not repeat.
* `strcpy_returns_iff` — a `strcpy` ends unless its string runs into the copy, and then it has copied the string.
-/

import KernelPlay.Strings.Numeral

namespace KernelPlay

open KernelPlay.Library

/-! ### The code -/

/-- The loop of `memcpy`, after `size` turns. -/
def memcpy (memory : Nat → UInt8) (dest src : Nat) : Nat → Nat → UInt8
  | 0 => memory
  | size + 1 =>
    Function.update (memcpy memory dest src size) (dest + size) (memcpy memory dest src size (src + size))

/-- The end of the copy and the memory; `strcpy` returns the former, not where the copy starts. -/
def strcpyLoop : Nat → (Nat → UInt8) → Nat → Nat → Option (Nat × (Nat → UInt8))
  | 0, _, _, _ => none
  | turns + 1, memory, r, s =>
    if memory s ≠ 0 then strcpyLoop turns (Function.update memory r (memory s)) (r + 1) (s + 1)
    else some (r, Function.update memory r 0)

/-- `strcpy` returns. -/
def StrcpyReturns (memory : Nat → UInt8) (dst src : Nat) (result : Nat × (Nat → UInt8)) : Prop :=
  ∃ turns, strcpyLoop turns memory dst src = some result

/-! ### Where the bytes come from -/

/-- Where a copy upwards takes its byte from. -/
def copiedFrom (dest src index : Nat) : Nat := if src < dest then src + index % (dest - src) else src + index

section Copy

variable {memory : Nat → UInt8} {dest src dst size address index : Nat}

theorem copiedFrom_ahead (ahead : dest ≤ src ∨ src + index < dest) : copiedFrom dest src index = src + index := by
  unfold copiedFrom
  split_ifs with below
  · rw [Nat.mod_eq_of_lt (by omega)]
  · rfl

/-- A byte behind the start of the copy comes from where the one written there came from. -/
theorem copiedFrom_behind (below : src < dest) (behind : dest ≤ src + index) :
    copiedFrom dest src index = copiedFrom dest src (src + index - dest) := by
  unfold copiedFrom
  rw [if_pos below, if_pos below, Nat.mod_eq_sub_mod (by omega)]
  congr 2
  omega

/-- **The bytes after a `memcpy`.** -/
theorem memcpy_apply (size address : Nat) : memcpy memory dest src size address =
    if dest ≤ address ∧ address < dest + size then memory (copiedFrom dest src (address - dest))
    else memory address := by
  induction size generalizing address with
  | zero => rw [if_neg (by omega), memcpy]
  | succ size ih =>
    rw [memcpy]
    by_cases here : address = dest + size
    · rw [here, Function.update_self, if_pos (by omega), Nat.add_sub_cancel_left, ih]
      by_cases again : src < dest ∧ dest ≤ src + size
      · rw [if_pos (by omega), ← copiedFrom_behind again.1 again.2]
      · rw [if_neg (by omega), copiedFrom_ahead (by omega)]
    · rw [Function.update_of_ne here, ih]
      exact if_congr (by omega) rfl rfl

/-- The byte that the next turn reads. -/
theorem memcpy_next (size : Nat) :
    memcpy memory dest src size (src + size) = memory (copiedFrom dest src size) := by
  have turn := @memcpy_apply memory dest src (size + 1) (dest + size)
  rwa [memcpy, Function.update_self, if_pos (by omega), Nat.add_sub_cancel_left] at turn

theorem memcpy_outside (outside : address < dest ∨ dest + size ≤ address) :
    memcpy memory dest src size address = memory address := by
  rw [memcpy_apply, if_neg (by omega)]

theorem window_memcpy : window (memcpy memory dest src size) dest size = window memory src size ↔
    ∀ index, index < size → memory (copiedFrom dest src index) = memory (src + index) := by
  have copied {index : Nat} (inside : index < size) :
      memcpy memory dest src size (dest + index) = memory (copiedFrom dest src index) := by
    rw [memcpy_apply, if_pos (by omega), Nat.add_sub_cancel_left]
  constructor
  · intro same index inside
    have byte := congrArg (fun bytes => bytes.getD index 0) same
    rwa [window_getD _ inside, window_getD _ inside, copied inside] at byte
  · intro same
    refine List.ext_getElem (by simp) fun index below _ => ?_
    rw [window_length] at below
    rw [window_getElem, window_getElem, copied below, same index below]

/-- Bytes that do not run into their copy. -/
theorem memcpy_ahead (ahead : dest ≤ src ∨ src + size ≤ dest) :
    memcpy memory dest src size = overwrite memory dest (window memory src size) := by
  funext address
  rw [memcpy_apply]
  by_cases inside : dest ≤ address ∧ address < dest + size
  · rw [if_pos inside, copiedFrom_ahead (by omega), overwrite, if_pos inside.1, window_getD _ (by omega)]
  · rw [if_neg inside]
    rcases Nat.lt_or_ge address dest with below | behind
    · rw [overwrite_below _ _ below]
    · rw [overwrite_behind _ (by rw [window_length]; omega)]

/-- **When `memcpy` moves its bytes**: exactly if they do not run into the copy, or repeat at the distance
between the two. No other byte changes in either case. -/
theorem memcpy_moves_iff (memory : Nat → UInt8) (dest src size : Nat) :
    (window (memcpy memory dest src size) dest size = window memory src size ↔
      (src < dest → ∀ index, index + (dest - src) < size →
        memory (src + (index + (dest - src))) = memory (src + index))) ∧
    ∀ address, address < dest ∨ dest + size ≤ address → memcpy memory dest src size address = memory address := by
  refine ⟨?_, fun address outside => memcpy_outside outside⟩
  rw [window_memcpy]
  constructor
  · intro same below index inside
    rw [← same _ inside, ← same index (by omega), copiedFrom, copiedFrom, if_pos below, if_pos below,
      Nat.add_mod_right]
  · intro repeats index inside
    induction index using Nat.strong_induction_on with
    | h index ih =>
      by_cases ahead : dest ≤ src ∨ src + index < dest
      · rw [copiedFrom_ahead ahead]
      · have earlier := ih (src + index - dest) (by omega) (by omega)
        rw [copiedFrom_behind (by omega) (by omega), earlier,
          ← repeats (by omega) (src + index - dest) (by omega)]
        congr 1
        omega

/-! ### Strings -/

/-- **`strcpy` is a `memcpy`** up to the first byte that is zero. -/
theorem strcpyLoop_iff {result : Nat × (Nat → UInt8)} (turns start : Nat) :
    strcpyLoop turns (memcpy memory dst src start) (dst + start) (src + start) = some result ↔
      ∃ length, start ≤ length ∧ length < start + turns ∧ memory (copiedFrom dst src length) = 0 ∧
        (∀ index, start ≤ index → index < length → memory (copiedFrom dst src index) ≠ 0) ∧
        result = (dst + length, Function.update (memcpy memory dst src length) (dst + length) 0) := by
  induction turns generalizing start with
  | zero =>
    refine iff_of_false nofun ?_
    rintro ⟨length, low, high, -⟩
    omega
  | succ turns ih =>
    have next : Function.update (memcpy memory dst src start) (dst + start)
        (memcpy memory dst src start (src + start)) = memcpy memory dst src (start + 1) := rfl
    rw [strcpyLoop, next, Nat.add_assoc, Nat.add_assoc, memcpy_next]
    by_cases zero : memory (copiedFrom dst src start) = 0
    · rw [if_neg (not_not.mpr zero), Option.some.injEq]
      constructor
      · rintro rfl
        exact ⟨start, le_rfl, by omega, zero, fun index low high => absurd high (by omega), rfl⟩
      · rintro ⟨length, low, -, -, before, rfl⟩
        have here : length = start := by
          by_contra later
          exact before start le_rfl (by omega) zero
        rw [here]
    · rw [if_pos zero, ih]
      constructor
      · rintro ⟨length, low, high, ends, before, same⟩
        refine ⟨length, by omega, by omega, ends, fun index within => ?_, same⟩
        rcases Nat.eq_or_lt_of_le within with rfl | later
        · exact fun _ => zero
        · exact before index later
      · rintro ⟨length, low, high, ends, before, same⟩
        have later : length ≠ start := by
          rintro rfl
          exact zero ends
        exact ⟨length, by omega, by omega, ends, fun index within => before index (by omega), same⟩

/-- **When `strcpy` returns**: exactly if its destination is not inside the string, its terminator included; and
then the memory at the destination has the string, the memory elsewhere is as before, and the result is where the
copy ends. -/
theorem strcpy_returns_iff {text : Text} (holds : HoldsText (fun index => memory (src + index)) text)
    (result : Nat × (Nat → UInt8)) :
    StrcpyReturns memory dst src result ↔ (dst ≤ src ∨ src + text.chars.length < dst) ∧
      result = (dst + text.chars.length, overwrite memory dst (text.chars ++ [0])) := by
  have inside {index : Nat} (below : index < text.chars.length) : memory (src + index) ≠ 0 := by
    intro zero
    refine text.noNul (holds.chars ▸ mem_window.mpr ⟨index, below, ?_⟩)
    rwa [Nat.zero_add]
  have starts (turns : Nat) : strcpyLoop turns memory dst src = some result ↔ _ :=
    @strcpyLoop_iff memory src dst result turns 0
  have copied (ahead : dst ≤ src ∨ src + text.chars.length < dst) :
      Function.update (memcpy memory dst src text.chars.length) (dst + text.chars.length) 0 =
        overwrite memory dst (text.chars ++ [0]) := by
    have chars : window memory src text.chars.length = text.chars := by
      refine Eq.trans (List.ext_getElem (by simp) fun index _ _ => ?_) holds.chars
      rw [window_getElem, window_getElem, Nat.zero_add]
    rw [memcpy_ahead (by omega), chars, update_eq_overwrite, overwrite_append]
  constructor
  · rintro ⟨turns, returns⟩
    obtain ⟨length, -, -, ends, before, rfl⟩ := (starts turns).mp returns
    have ahead : dst ≤ src ∨ src + text.chars.length < dst := by
      by_contra behind
      have short := Nat.mod_lt length (show 0 < dst - src by omega)
      rw [copiedFrom, if_pos (by omega)] at ends
      exact inside (by omega) ends
    obtain rfl : length = text.chars.length := by
      rcases Nat.lt_trichotomy length text.chars.length with early | same | late
      · rw [copiedFrom_ahead (by omega)] at ends
        exact absurd ends (inside early)
      · exact same
      · have terminator := before text.chars.length (Nat.zero_le _) late
        rw [copiedFrom_ahead ahead] at terminator
        exact absurd holds.terminated terminator
    exact ⟨ahead, by rw [copied ahead]⟩
  · rintro ⟨ahead, rfl⟩
    refine ⟨text.chars.length + 1, (starts _).mpr ⟨text.chars.length, Nat.zero_le _, by omega, ?_, fun index _ early => ?_,
      by rw [copied ahead]⟩⟩
    · rw [copiedFrom_ahead ahead]
      exact holds.terminated
    · rw [copiedFrom_ahead (by omega)]
      exact inside early

/-- The name of the file system. -/
def fatName : Text := ⟨[70, 65, 84, 49, 54], by decide⟩

def fatNameMemory : Nat → UInt8 := overwrite (fun _ => 0) 100 fatName.chars

theorem fatNameMemory_holds : HoldsText (fun index => fatNameMemory (100 + index)) fatName :=
  ⟨by decide, by decide⟩

/-- Copied to a place behind it, and to its own third character. -/
theorem strcpy_returns_iff_name :
    StrcpyReturns fatNameMemory 200 100 (205, overwrite fatNameMemory 200 (fatName.chars ++ [0])) ∧
      ¬ ∃ result, StrcpyReturns fatNameMemory 102 100 result := by
  refine ⟨(strcpy_returns_iff fatNameMemory_holds _).mpr ⟨.inr (by decide), rfl⟩, ?_⟩
  rintro ⟨result, returns⟩
  obtain ⟨ahead, -⟩ := (strcpy_returns_iff fatNameMemory_holds result).mp returns
  revert ahead
  decide

end Copy

end KernelPlay
