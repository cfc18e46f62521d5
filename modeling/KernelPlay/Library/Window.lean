/-
**Windows of a sequence, and pieces of one length laid end to end.**

`window f start count` lists `f start, …, f (start + count - 1)`. `window_add` cuts a window in two;
`window_take_drop` is a window of a window. `flatMap_drop_mul` finds the place of one piece in a
concatenation of pieces of the same length, and `take_append_take_drop` puts consecutive cuts of a
list together again. `writeAll_placed` takes a list written apart into single writes.
`not_mem_of_mem_splitOn` and `length_splitOn` are about the pieces between the separators of a list.
-/

import Mathlib.Data.List.Basic
import Mathlib.Data.List.TakeDrop
import Mathlib.Data.List.GetD
import Mathlib.Tactic.Linarith

namespace KernelPlay.Library

universe u v

variable {α : Type u} {β : Type v}

/-- The values at `start, …, start + count - 1`. -/
def window (f : Nat → α) (start count : Nat) : List α := (List.range' start count).map f

@[simp]
theorem window_length (f : Nat → α) (start count : Nat) : (window f start count).length = count := by
  simp [window]

@[simp]
theorem window_zero (f : Nat → α) (start : Nat) : window f start 0 = [] := rfl

theorem window_succ (f : Nat → α) (start count : Nat) :
    window f start (count + 1) = f start :: window f (start + 1) count := by
  simp [window, List.range'_succ]

theorem window_add (f : Nat → α) (start first second : Nat) :
    window f start (first + second) = window f start first ++ window f (start + first) second := by
  rw [window, window, window, ← List.map_append, List.range'_append_1]

theorem window_getElem (f : Nat → α) {start count index : Nat}
    (below : index < (window f start count).length) :
    (window f start count)[index] = f (start + index) := by
  simp [window]

theorem window_getD (f : Nat → α) {start count index : Nat} (below : index < count) (default : α) :
    (window f start count).getD index default = f (start + index) := by
  rw [List.getD_eq_getElem _ _ (by simpa using below), window_getElem]

theorem window_congr {f g : Nat → α} {start count : Nat}
    (same : ∀ index, index < count → f (start + index) = g (start + index)) :
    window f start count = window g start count := by
  refine List.ext_getElem (by simp) fun index below _ => ?_
  rw [window_length] at below
  rw [window_getElem, window_getElem]
  exact same index below

theorem mem_window {f : Nat → α} {start count : Nat} {value : α} :
    value ∈ window f start count ↔ ∃ index, index < count ∧ f (start + index) = value := by
  rw [window, List.mem_map]
  refine ⟨?_, ?_⟩
  · rintro ⟨place, member, found⟩
    obtain ⟨low, high⟩ := List.mem_range'_1.mp member
    exact ⟨place - start, by omega, by rw [Nat.add_sub_cancel' low, found]⟩
  · rintro ⟨index, below, found⟩
    exact ⟨start + index, List.mem_range'_1.mpr ⟨by omega, by omega⟩, found⟩

/-- The order of the texts: the values at the first difference decide. -/
theorem window_lt_iff [LT α] {f g : Nat → α} {start count : Nat} :
    window f start count < window g start count ↔
      ∃ index, index < count ∧ (∀ before, before < index → f (start + before) = g (start + before)) ∧
        f (start + index) < g (start + index) := by
  rw [List.lt_iff_exists, or_iff_right fun shorter => by simp at shorter]
  constructor
  · rintro ⟨index, below, below', same, less⟩
    rw [window_getElem, window_getElem] at less
    refine ⟨index, by simpa using below, fun before earlier => ?_, less⟩
    have equal := same before earlier
    rwa [window_getElem, window_getElem] at equal
  · rintro ⟨index, below, same, less⟩
    refine ⟨index, by simpa using below, by simpa using below, fun before earlier => ?_, ?_⟩
    · rw [window_getElem, window_getElem]
      exact same before earlier
    · rw [window_getElem, window_getElem]
      exact less

/-- A value of a window stands in front of the first that fails the test exactly if it and all before
it pass. -/
theorem mem_takeWhile_window {f : Nat → α} {test : α → Bool} {start count : Nat} {value : α} :
    value ∈ (window f start count).takeWhile test ↔
      ∃ index, index < count ∧ f (start + index) = value ∧
        ∀ before, before ≤ index → test (f (start + before)) = true := by
  induction count generalizing start with
  | zero => simp
  | succ count ih =>
    rw [window_succ, List.takeWhile_cons]
    split
    · rename_i head
      rw [List.mem_cons, ih]
      refine ⟨?_, ?_⟩
      · rintro (rfl | ⟨index, below, found, passes⟩)
        · refine ⟨0, Nat.succ_pos _, rfl, fun before none => ?_⟩
          obtain rfl : before = 0 := by omega
          exact head
        · refine ⟨index + 1, by omega, by rw [← found]; congr 1; omega, fun before within => ?_⟩
          cases before with
          | zero => exact head
          | succ before =>
            have passed := passes before (by omega)
            rwa [Nat.add_assoc, Nat.add_comm 1] at passed
      · rintro ⟨index, below, found, passes⟩
        cases index with
        | zero => exact .inl found.symm
        | succ index =>
          refine .inr ⟨index, by omega, by rw [← found]; congr 1; omega, fun before within => ?_⟩
          rw [Nat.add_assoc, Nat.add_comm 1]
          exact passes (before + 1) (by omega)
    · rename_i head
      refine ⟨fun member => absurd member List.not_mem_nil, ?_⟩
      rintro ⟨index, _, _, passes⟩
      exact absurd (passes 0 (Nat.zero_le _)) head

/-- A sequence with the values from `start` on replaced by those of a list. -/
def overwrite (f : Nat → α) (start : Nat) (values : List α) : Nat → α :=
  fun index => if start ≤ index then values.getD (index - start) (f index) else f index

theorem overwrite_below (f : Nat → α) {start index : Nat} (values : List α) (below : index < start) :
    overwrite f start values index = f index :=
  if_neg (by omega)

theorem overwrite_behind (f : Nat → α) {start index : Nat} {values : List α}
    (behind : start + values.length ≤ index) : overwrite f start values index = f index := by
  rw [overwrite, if_pos (by omega)]
  exact List.getD_eq_default _ _ (by omega)

theorem overwrite_nil (f : Nat → α) (start : Nat) : overwrite f start [] = f := by
  funext index
  unfold overwrite
  split_ifs <;> simp

/-- Two writes, the second behind the first. -/
theorem overwrite_append (f : Nat → α) (start : Nat) (first second : List α) :
    overwrite (overwrite f start first) (start + first.length) second =
      overwrite f start (first ++ second) := by
  funext index
  by_cases below : index < start
  · rw [overwrite_below _ _ (by omega), overwrite_below _ _ below, overwrite_below _ _ below]
  by_cases inside : index < start + first.length
  · rw [overwrite_below _ _ inside]
    unfold overwrite
    rw [if_pos (by omega), if_pos (by omega), List.getD_append _ _ _ _ (by omega)]
  · have behind : f index = overwrite f start first index := (overwrite_behind f (by omega)).symm
    unfold overwrite at behind ⊢
    rw [if_pos (by omega), if_pos (by omega), if_pos (by omega),
      List.getD_append_right _ _ _ _ (by omega)]
    rw [if_pos (by omega)] at behind
    rw [← behind]
    congr 1
    omega

/-- Two writes apart from each other, in either order. -/
theorem overwrite_comm (f : Nat → α) {start start' : Nat} {first : List α} (second : List α)
    (apart : start + first.length ≤ start') :
    overwrite (overwrite f start first) start' second = overwrite (overwrite f start' second) start first := by
  funext index
  by_cases before : index < start'
  · rw [overwrite_below _ _ before]
    unfold overwrite
    rw [if_neg (Nat.not_le.mpr before)]
  · have same : overwrite f start first index = f index := overwrite_behind f (by omega)
    rw [overwrite_behind (overwrite f start' second) (by omega)]
    show (if start' ≤ index then second.getD _ (overwrite f start first index)
      else overwrite f start first index) = _
    rw [same]
    rfl

/-- A write over a write that is not longer. -/
theorem overwrite_again (f : Nat → α) (start : Nat) {first second : List α}
    (covered : first.length ≤ second.length) :
    overwrite (overwrite f start first) start second = overwrite f start second := by
  funext index
  by_cases inside : start ≤ index ∧ index < start + second.length
  · have below : index - start < second.length := by omega
    unfold overwrite
    rw [if_pos inside.1, List.getD_eq_getElem _ _ below, if_pos inside.1, List.getD_eq_getElem _ _ below]
  · rcases Nat.lt_or_ge index start with below | behind
    · rw [overwrite_below _ _ below, overwrite_below _ _ below, overwrite_below _ _ below]
    · rw [overwrite_behind _ (by omega), overwrite_behind _ (by omega), overwrite_behind _ (by omega)]

/-- The values written are read back. -/
theorem window_overwrite (f : Nat → α) (start : Nat) (values : List α) :
    window (overwrite f start values) start values.length = values := by
  refine List.ext_getElem (by simp) fun index below inside => ?_
  rw [window_getElem, overwrite, if_pos (by omega), Nat.add_sub_cancel_left]
  exact List.getD_eq_getElem _ _ inside

/-- A window of a window. -/
theorem window_take_drop (f : Nat → α) {start count skip keep : Nat} (fits : skip + keep ≤ count) :
    ((window f start count).drop skip).take keep = window f (start + skip) keep := by
  obtain ⟨rest, rfl⟩ : ∃ rest, count = skip + (keep + rest) := ⟨count - skip - keep, by omega⟩
  rw [window_add, window_add, List.drop_left' (by simp), List.take_left' (by simp)]

theorem window_take (f : Nat → α) {start count keep : Nat} (fits : keep ≤ count) :
    (window f start count).take keep = window f start keep := by
  obtain ⟨rest, rfl⟩ := Nat.exists_eq_add_of_le fits
  rw [window_add, List.take_left' (by simp)]

/-- Cutting off whole pieces. -/
theorem flatMap_drop_mul {piece : α → List β} {size : Nat} (uniform : ∀ x, (piece x).length = size) :
    ∀ (skip : Nat) (xs : List α), (xs.flatMap piece).drop (skip * size) = (xs.drop skip).flatMap piece
  | 0, xs => by simp
  | _ + 1, [] => by simp
  | skip + 1, x :: xs => by
      rw [List.flatMap_cons, Nat.succ_mul, Nat.add_comm, ← List.drop_drop,
        List.drop_left' (uniform x), flatMap_drop_mul uniform skip xs, List.drop_succ_cons]

theorem flatMap_length {piece : α → List β} {size : Nat} (uniform : ∀ x, (piece x).length = size)
    (xs : List α) : (xs.flatMap piece).length = xs.length * size := by
  induction xs with
  | nil => simp
  | cons x xs ih => rw [List.flatMap_cons, List.length_append, uniform, ih, List.length_cons, Nat.succ_mul,
      Nat.add_comm]

/-- Two consecutive cuts make one. -/
theorem take_append_take_drop (xs : List α) (start first second : Nat) :
    (xs.drop start).take first ++ (xs.drop (start + first)).take second =
      (xs.drop start).take (first + second) := by
  rw [← List.drop_drop, List.take_add]

/-! ### Single writes -/

/-- The writes that put the values at `start, start + 1, …`, in this order. -/
def placed (start : Nat) (values : List α) : List (Nat × α) :=
  (List.range' start values.length).zip values

/-- A sequence after writes. -/
def writeAll (f : Nat → α) (writes : List (Nat × α)) : Nat → α :=
  writes.foldl (fun g write => Function.update g write.1 write.2) f

@[simp]
theorem placed_addresses (start : Nat) (values : List α) :
    (placed start values).map Prod.fst = List.range' start values.length := by
  rw [placed, List.map_fst_zip]
  simp

theorem writeAll_append (f : Nat → α) (first second : List (Nat × α)) :
    writeAll f (first ++ second) = writeAll (writeAll f first) second :=
  List.foldl_append

theorem placed_cons (start : Nat) (value : α) (values : List α) :
    placed start (value :: values) = (start, value) :: placed (start + 1) values := by
  simp [placed, List.range'_succ]

theorem placed_append (start : Nat) (first second : List α) :
    placed start (first ++ second) = placed start first ++ placed (start + first.length) second := by
  rw [placed, placed, placed, List.length_append, ← List.range'_append_1, List.zip_append (by simp)]

/-- One value written. -/
theorem update_eq_overwrite (f : Nat → α) (place : Nat) (value : α) :
    Function.update f place value = overwrite f place [value] := by
  funext index
  unfold overwrite Function.update
  rcases Nat.lt_trichotomy index place with before | rfl | behind
  · rw [dif_neg (by omega), if_neg (by omega)]
  · simp
  · rw [dif_neg (by omega), if_pos (by omega), List.getD_eq_default _ _ (by simp; omega)]

/-- Values written one by one are a list written. -/
theorem writeAll_placed (f : Nat → α) (start : Nat) (values : List α) :
    writeAll f (placed start values) = overwrite f start values := by
  induction values generalizing f start with
  | nil => exact (overwrite_nil f start).symm
  | cons value values ih =>
    have rest := ih (Function.update f start value) (start + 1)
    rw [update_eq_overwrite] at rest
    show writeAll (Function.update f start value) (placed (start + 1) values) = _
    rw [update_eq_overwrite, rest]
    exact overwrite_append f start [value] values

/-! ### Pieces between separators -/

section Pieces

variable [BEq α]

theorem not_mem_of_mem_splitOn [LawfulBEq α] {separator : α} {xs piece : List α}
    (member : piece ∈ xs.splitOn separator) :
    separator ∉ piece := by
  induction xs generalizing piece with
  | nil =>
    rw [List.splitOn_nil, List.mem_singleton] at member
    simp [member]
  | cons x xs ih =>
    rw [List.splitOn_cons_eq_if_modifyHead] at member
    split at member
    · rcases List.mem_cons.mp member with rfl | member
      · simp
      · exact ih member
    · rename_i apart
      obtain ⟨first, rest, pieces⟩ := List.exists_cons_of_ne_nil (List.splitOn_ne_nil separator xs)
      rw [pieces, List.modifyHead_cons] at member
      rcases List.mem_cons.mp member with rfl | member
      · simp only [beq_iff_eq] at apart
        have head : separator ∉ first := ih (pieces ▸ List.mem_cons_self)
        simp [head, Ne.symm apart]
      · exact ih (pieces ▸ List.mem_cons_of_mem _ member)

/-- One piece more than there are separators. -/
theorem length_splitOn (separator : α) (xs : List α) :
    (xs.splitOn separator).length = xs.count separator + 1 := by
  induction xs with
  | nil => simp
  | cons x xs ih =>
    rw [List.splitOn_cons_eq_if_modifyHead, List.count_cons]
    split
    · rw [List.length_cons, ih]
    · rw [List.length_modifyHead, ih]

end Pieces

end KernelPlay.Library
