/-
**Texts in rows of a width.**

`layout newline width text` — the lines of a text, each cut into rows of the width. The last row of
a line is never full: behind a full row the line goes on in the next one, even if nothing follows.
One character more changes the end of a layout only (`layout_snoc`), and the text can be read back
from its rows (`unlayout_layout`).
-/

import Mathlib.Data.List.Induction
import Mathlib.Data.List.TakeDrop

namespace KernelPlay.Library

universe u

section Rows

variable {α : Type u} {width : Nat} {line : List α} {c : α}

/-- The full rows of a line, and what is left. -/
def wrapped (width : Nat) (line : List α) : List (List α) :=
  (List.range (line.length / width)).map (fun row => (line.drop (width * row)).take width) ++
    [line.drop (width * (line.length / width))]

theorem wrapped_eq (positive : 0 < width) (line : List α) :
    ∃ front last, wrapped width line = front ++ [last] ∧ last.length < width := by
  refine ⟨_, _, rfl, ?_⟩
  rw [List.length_drop, ← Nat.mod_eq_sub_mul_div]
  exact Nat.mod_lt _ positive

/-- The full rows stay as they are when the line grows. -/
theorem fullRows_snoc (line : List α) (c : α) :
    (List.range (line.length / width)).map (fun row => ((line ++ [c]).drop (width * row)).take width) =
      (List.range (line.length / width)).map fun row => (line.drop (width * row)).take width := by
  refine List.map_congr_left fun row below => ?_
  have inside : width * (row + 1) ≤ line.length :=
    Nat.le_trans (Nat.mul_le_mul_left width (List.mem_range.mp below)) (Nat.mul_div_le _ _)
  rw [Nat.mul_succ] at inside
  rw [List.drop_append_of_le_length (by omega),
    List.take_append_of_le_length (by rw [List.length_drop]; omega)]

/-- **One character more** in a line. -/
theorem wrapped_snoc {front : List (List α)} {last : List α} (positive : 0 < width)
    (rows : wrapped width line = front ++ [last]) :
    wrapped width (line ++ [c]) =
      if last.length + 1 = width then front ++ [last ++ [c]] ++ [[]] else front ++ [last ++ [c]] := by
  unfold wrapped at rows
  obtain ⟨rfl, rest⟩ := List.append_inj' rows rfl
  obtain rfl := List.singleton_inj.mp rest
  have left : (line.drop (width * (line.length / width))).length = line.length % width := by
    rw [List.length_drop, ← Nat.mod_eq_sub_mul_div]
  have grown : (line ++ [c]).drop (width * (line.length / width)) =
      line.drop (width * (line.length / width)) ++ [c] :=
    List.drop_append_of_le_length (Nat.mul_div_le _ _)
  have longer : (line.length + 1) / width = (line.length % width + 1) / width + line.length / width := by
    rw [← Nat.add_mul_div_left _ _ positive, Nat.add_right_comm, Nat.mod_add_div]
  have short := Nat.mod_lt line.length positive
  unfold wrapped
  rw [left, List.length_append, List.length_singleton, longer]
  split_ifs with full
  · have last : (line ++ [c]).drop (width * (line.length / width + 1)) = [] := by
      have whole := Nat.mod_add_div line.length width
      refine List.drop_eq_nil_of_le ?_
      rw [List.length_append, List.length_singleton, Nat.mul_succ]
      omega
    rw [full, Nat.div_self positive, Nat.add_comm 1, last, List.range_succ, List.map_append,
      fullRows_snoc, List.map_singleton, grown, List.take_of_length_le]
    · exact Nat.le_of_eq (by rw [List.length_append, left, List.length_singleton, full])
  · rw [Nat.div_eq_of_lt (by omega), Nat.zero_add, fullRows_snoc, grown]

/-- A row as it stands in the text: a full one goes on. -/
def ended (newline : α) (width : Nat) (row : List α) : List α :=
  if row.length = width then row else row ++ [newline]

def unlayout (newline : α) (width : Nat) (rows : List (List α)) : List α :=
  rows.dropLast.flatMap (ended newline width) ++ rows.getLastD []

theorem unlayout_append (newline : α) (width : Nat) (front : List (List α)) (last : List α) :
    unlayout newline width (front ++ [last]) = front.flatMap (ended newline width) ++ last := by
  simp [unlayout]

end Rows

/-! ### Lines -/

section Lines

variable {α : Type u} [DecidableEq α] {newline c : α} {width : Nat} {text : List α}

theorem splitOn_eq (newline : α) (text : List α) :
    ∃ lines line, text.splitOn newline = lines ++ [line] :=
  ⟨_, _, (List.dropLast_concat_getLast (List.splitOn_ne_nil newline text)).symm⟩

/-- The last line takes what comes. -/
theorem splitOn_snoc {lines : List (List α)} {line : List α}
    (split : text.splitOn newline = lines ++ [line]) :
    (text ++ [c]).splitOn newline =
      if c = newline then lines ++ [line] ++ [[]] else lines ++ [line ++ [c]] := by
  induction text generalizing lines line with
  | nil =>
    obtain ⟨rfl, rest⟩ := List.append_inj' (show [] ++ [[]] = lines ++ [line] from split) rfl
    obtain rfl := List.singleton_inj.mp rest
    rw [List.nil_append, List.splitOn_cons_eq_if_modifyHead]
    simp
  | cons first text ih =>
    obtain ⟨lines', line', split'⟩ := splitOn_eq newline text
    rw [List.splitOn_cons_eq_if_modifyHead, split'] at split
    rw [List.cons_append, List.splitOn_cons_eq_if_modifyHead, ih split']
    by_cases ends : first = newline
    · rw [if_pos (beq_iff_eq.mpr ends), ← List.cons_append] at split
      obtain ⟨rfl, rest⟩ := List.append_inj' split rfl
      obtain rfl := List.singleton_inj.mp rest
      rw [if_pos (beq_iff_eq.mpr ends)]
      split_ifs <;> rfl
    · rw [if_neg (by simpa using ends)] at split ⊢
      rcases lines' with _ | ⟨head, lines'⟩
      · obtain ⟨rfl, rest⟩ := List.append_inj'
          (show [] ++ [first :: line'] = lines ++ [line] from split) rfl
        obtain rfl := List.singleton_inj.mp rest
        split_ifs <;> rfl
      · rw [List.cons_append, List.modifyHead_cons, ← List.cons_append] at split
        obtain ⟨rfl, rest⟩ := List.append_inj' split rfl
        obtain rfl := List.singleton_inj.mp rest
        split_ifs <;> rfl

/-- The rows of a text, line by line. -/
def layout (newline : α) (width : Nat) (text : List α) : List (List α) :=
  (text.splitOn newline).flatMap (wrapped width)

@[simp] theorem layout_nil : layout newline width [] = [[]] := by simp [layout, wrapped]

/-- The last row has room. -/
theorem layout_eq (positive : 0 < width) (newline : α) (text : List α) :
    ∃ front last, layout newline width text = front ++ [last] ∧ last.length < width := by
  obtain ⟨lines, line, split⟩ := splitOn_eq newline text
  obtain ⟨front, last, rows, room⟩ := wrapped_eq positive line
  refine ⟨lines.flatMap (wrapped width) ++ front, last, ?_, room⟩
  rw [layout, split, List.flatMap_append, List.flatMap_singleton, rows, List.append_assoc]

theorem length_le_of_mem_layout (positive : 0 < width) {row : List α}
    (member : row ∈ layout newline width text) :
    row.length ≤ width := by
  obtain ⟨line, -, member⟩ := List.mem_flatMap.mp member
  rcases List.mem_append.mp member with full | rest
  · obtain ⟨index, -, rfl⟩ := List.mem_map.mp full
    exact List.length_take_le _ _
  · rw [List.mem_singleton.mp rest, List.length_drop, ← Nat.mod_eq_sub_mul_div]
    exact Nat.le_of_lt (Nat.mod_lt _ positive)

/-- **One character more** in a text. -/
theorem layout_snoc (positive : 0 < width) {front : List (List α)} {last : List α}
    (rows : layout newline width text = front ++ [last]) :
    layout newline width (text ++ [c]) =
      if c = newline then front ++ [last] ++ [[]]
      else if last.length + 1 = width then front ++ [last ++ [c]] ++ [[]] else front ++ [last ++ [c]] := by
  obtain ⟨lines, line, split⟩ := splitOn_eq newline text
  obtain ⟨front', last', rows', -⟩ := wrapped_eq positive line
  rw [layout, split, List.flatMap_append, List.flatMap_singleton, rows', ← List.append_assoc] at rows
  obtain ⟨rfl, rest⟩ := List.append_inj' rows rfl
  obtain rfl := List.singleton_inj.mp rest
  rw [layout, splitOn_snoc split]
  split_ifs with ends full
  · rw [List.flatMap_append, List.flatMap_append, List.flatMap_singleton, List.flatMap_singleton, rows',
      ← List.append_assoc]
    simp [wrapped]
  · rw [List.flatMap_append, List.flatMap_singleton, wrapped_snoc positive rows', if_pos full]
    simp only [List.append_assoc]
  · rw [List.flatMap_append, List.flatMap_singleton, wrapped_snoc positive rows', if_neg full,
      List.append_assoc]

/-- **A layout loses nothing.** -/
theorem unlayout_layout (positive : 0 < width) (newline : α) (text : List α) :
    unlayout newline width (layout newline width text) = text := by
  induction text using List.reverseRecOn with
  | nil => simp [unlayout]
  | append_singleton text c ih =>
    obtain ⟨front, last, rows, room⟩ := layout_eq positive newline text
    rw [rows, unlayout_append] at ih
    rw [layout_snoc positive rows]
    split_ifs with ends full
    · rw [unlayout_append, List.flatMap_append, List.flatMap_singleton, ended,
        if_neg (Nat.ne_of_lt room), ends, List.append_nil, ← List.append_assoc, ih]
    · rw [unlayout_append, List.flatMap_append, List.flatMap_singleton, ended, List.length_append,
        List.length_singleton, if_pos full, List.append_nil, ← List.append_assoc, ih]
    · rw [unlayout_append, ← List.append_assoc, ih]

end Lines

end KernelPlay.Library
