/-
**The output of the terminal.**

* `printChar`, `printString` — the cursor is moved, and each store into the video memory is noted down.
* `printStrings_cursor`, `mem_printStrings` — the cursor and the stores, from the text printed so far: the
  row is the number of its newlines and of its full rows.
* `GoodStore` — what a store should be. `makeChar_toNat` — bytes from `0x80` on are extended by their sign
  over the colour.
* `terminal_stores_iff` — all stores are good exactly if the text stays in the rows of the terminal and has
  no byte from `0x80` on; `terminal_stores_fail`.
-/

import KernelPlay.Kernel.State
import KernelPlay.Library.Machine

namespace KernelPlay

open KernelPlay.Library

def terminalWidth : Int := 80

def terminalHeight : Int := 80

/-- `&video_mem[index]`. -/
def videoMem (index : Int) : Nat := uint32 (0xB8000 + 2 * index)

structure Terminal where
  terminalRow : Int
  terminalCol : Int
  deriving DecidableEq

/-- The values of the static variables at the start. -/
def Terminal.start : Terminal := ⟨0, 0⟩

/-- A store of `print_char`: where the cursor is, the cell and its new value, and the character. -/
structure VideoStore where
  row : Int
  col : Int
  address : Nat
  cell : UInt16
  c : UInt8
  deriving DecidableEq

/-- Both characters are promoted to `int` with their signs. -/
def makeChar (c colour : UInt8) : UInt16 :=
  ⟨((colour.toBitVec.signExtend 32 <<< 8) ||| c.toBitVec.signExtend 32).setWidth 16⟩

def printChar (terminal : Terminal) (c : UInt8) : Terminal × List VideoStore :=
  if c = 10 then (⟨int32 (terminal.terminalRow + 1), 0⟩, [])
  else
    let index := int32 (terminal.terminalRow * terminalWidth + terminal.terminalCol)
    let store := ⟨terminal.terminalRow, terminal.terminalCol, videoMem index, makeChar c 0xF, c⟩
    let terminalCol := terminal.terminalCol + 1
    if terminalCol ≥ terminalWidth then (⟨int32 (terminal.terminalRow + 1), 0⟩, [store])
    else (⟨terminal.terminalRow, terminalCol⟩, [store])

/-- The loop of `print_string`. -/
def printLoop (terminal : Terminal) : List UInt8 → Terminal × List VideoStore
  | [] => (terminal, [])
  | c :: input =>
    let (terminal, stores) := printChar terminal c
    let (terminal, rest) := printLoop terminal input
    (terminal, stores ++ rest)

def printString (terminal : Terminal) (input : Text) : Terminal × List VideoStore :=
  printLoop terminal input.chars

/-- A sequence of calls. -/
def printStrings (terminal : Terminal) : List Text → Terminal × List VideoStore
  | [] => (terminal, [])
  | input :: inputs =>
    let (terminal, stores) := printString terminal input
    let (terminal, rest) := printStrings terminal inputs
    (terminal, stores ++ rest)

/-- The stores of `terminal_init`. -/
def terminalInit : List (Nat × UInt16) :=
  (List.range terminalWidth.toNat).flatMap fun i : Nat => (List.range terminalHeight.toNat).map fun j : Nat =>
    (videoMem (int32 ((j : Int) * terminalWidth + i)), makeChar 0x20 0)

/-- **A store inside the terminal**, of the character in the colour of the text. -/
structure GoodStore (store : VideoStore) : Prop where
  column : 0 ≤ store.col ∧ store.col < terminalWidth
  row : 0 ≤ store.row ∧ store.row < terminalHeight
  inside : store.address ∈ terminalInit.map Prod.fst
  low : store.cell.toNat % 256 = store.c.toNat
  high : store.cell.toNat / 256 = 0x0F

/-! ### The place of a character in a text -/

/-- The lines of a text, the last one first and each read backwards. -/
def linesOf (text : List UInt8) : List (List UInt8) := text.reverse.splitOn 10

/-- The row behind a text: one for each newline and one for each full row of a line. -/
def rowBehind (text : List UInt8) : Nat :=
  text.count 10 + ((linesOf text).map fun line => line.length / 80).sum

/-- The column behind a text. -/
def colBehind (text : List UInt8) : Nat := (linesOf text).headI.length % 80

/-- The cursor behind a text. -/
def Terminal.behind (text : List UInt8) : Terminal := ⟨int32 (rowBehind text), colBehind text⟩

section Layout

variable {text : List UInt8} {c : UInt8}

theorem linesOf_eq (text : List UInt8) : ∃ line rest, linesOf text = line :: rest :=
  List.exists_cons_of_ne_nil (List.splitOn_ne_nil 10 text.reverse)

theorem linesOf_snoc (text : List UInt8) (c : UInt8) :
    linesOf (text ++ [c]) = if c = 10 then [] :: linesOf text else (linesOf text).modifyHead (c :: ·) := by
  unfold linesOf
  rw [List.reverse_append, List.reverse_singleton, List.singleton_append,
    List.splitOn_cons_eq_if_modifyHead]
  simp only [beq_iff_eq]

/-- A newline ends the row. -/
theorem behind_newline (text : List UInt8) :
    rowBehind (text ++ [10]) = rowBehind text + 1 ∧ colBehind (text ++ [10]) = 0 := by
  unfold rowBehind colBehind
  rw [linesOf_snoc, if_pos rfl]
  constructor
  · simp
    omega
  · rfl

/-- Any other character takes one column, the last column ends the row. -/
theorem behind_plain (plain : c ≠ 10) :
    (rowBehind (text ++ [c]), colBehind (text ++ [c])) =
      if colBehind text = 79 then (rowBehind text + 1, 0) else (rowBehind text, colBehind text + 1) := by
  obtain ⟨line, rest, lines⟩ := linesOf_eq text
  have count : (text ++ [c]).count 10 = text.count 10 := by simp [List.count_append, plain]
  unfold rowBehind colBehind
  rw [linesOf_snoc, if_neg plain, lines, count]
  simp only [List.modifyHead_cons, List.map_cons, List.sum_cons, List.headI_cons, List.length_cons]
  split_ifs with last
  · ext
    · dsimp only
      omega
    · dsimp only
      omega
  · ext
    · dsimp only
      omega
    · dsimp only
      omega

end Layout

/-! ### Runs -/

section Runs

/-- The store of a character behind a text. -/
def storeBehind (text : List UInt8) (c : UInt8) : VideoStore :=
  ⟨int32 (rowBehind text), colBehind text,
    videoMem (int32 (int32 (rowBehind text) * terminalWidth + colBehind text)), makeChar c 0xF, c⟩

@[simp]
theorem storeBehind_row (text : List UInt8) (c : UInt8) :
    (storeBehind text c).row = int32 (rowBehind text) := by rw [storeBehind]

@[simp]
theorem storeBehind_cell (text : List UInt8) (c : UInt8) : (storeBehind text c).cell = makeChar c 0xF := by
  rw [storeBehind]

theorem int32_succ (n : Nat) : int32 (int32 n + 1) = int32 (n + 1 : Nat) := by
  unfold int32
  rw [Int.bmod_add_bmod]
  rfl

/-- **One character** takes the cursor from behind a text to behind the longer one. -/
theorem printChar_behind (text : List UInt8) (c : UInt8) :
    printChar (Terminal.behind text) c =
      (Terminal.behind (text ++ [c]), if c = 10 then [] else [storeBehind text c]) := by
  unfold printChar
  by_cases newline : c = 10
  · subst newline
    obtain ⟨row, col⟩ := behind_newline text
    rw [if_pos rfl, if_pos rfl]
    unfold Terminal.behind
    rw [row, col, int32_succ]
    rfl
  · rw [if_neg newline, if_neg newline]
    have place := @behind_plain text c newline
    unfold Terminal.behind terminalWidth
    dsimp only
    by_cases last : colBehind text = 79
    · rw [if_pos last, Prod.mk.injEq] at place
      rw [place.1, place.2, int32_succ, if_pos (by omega)]
      rfl
    · have below : colBehind text < 80 := Nat.mod_lt _ (by decide)
      rw [if_neg last, Prod.mk.injEq] at place
      rw [place.1, place.2, if_neg (by omega)]
      rfl

theorem printLoop_cons (terminal : Terminal) (c : UInt8) (input : List UInt8) :
    printLoop terminal (c :: input) =
      ((printLoop (printChar terminal c).1 input).1,
        (printChar terminal c).2 ++ (printLoop (printChar terminal c).1 input).2) := rfl

/-- **A string**, by induction on what is left of it. -/
theorem printLoop_behind (input : List UInt8) (text : List UInt8) :
    (printLoop (Terminal.behind text) input).1 = Terminal.behind (text ++ input) ∧
      ∀ store, store ∈ (printLoop (Terminal.behind text) input).2 ↔
        ∃ before c rest, input = before ++ c :: rest ∧ c ≠ 10 ∧ store = storeBehind (text ++ before) c := by
  induction input generalizing text with
  | nil =>
    constructor
    · simp [printLoop]
    · intro store
      simp [printLoop]
  | cons c input ih =>
    obtain ⟨cursor, stores⟩ := ih (text ++ [c])
    rw [printLoop_cons, printChar_behind]
    refine ⟨by rw [cursor, List.append_assoc, List.singleton_append], fun store => ?_⟩
    rw [List.mem_append, stores store]
    constructor
    · rintro (own | ⟨before, c', rest, rfl, plain, rfl⟩)
      · split_ifs at own with newline
        · cases own
        · rw [List.mem_singleton] at own
          exact ⟨[], c, input, rfl, newline, by rw [own, List.append_nil]⟩
      · exact ⟨c :: before, c', rest, rfl, plain, by simp⟩
    · rintro ⟨before, c', rest, parts, plain, rfl⟩
      rcases before with _ | ⟨c'', before⟩
      · rw [List.nil_append, List.cons.injEq] at parts
        obtain ⟨rfl, rfl⟩ := parts
        rw [if_neg plain, List.append_nil]
        exact .inl (List.mem_singleton_self _)
      · rw [List.cons_append, List.cons.injEq] at parts
        obtain ⟨rfl, rfl⟩ := parts
        exact .inr ⟨before, c', rest, rfl, plain, by simp⟩

theorem printLoop_append (terminal : Terminal) (first second : List UInt8) :
    printLoop terminal (first ++ second) =
      ((printLoop (printLoop terminal first).1 second).1,
        (printLoop terminal first).2 ++ (printLoop (printLoop terminal first).1 second).2) := by
  induction first generalizing terminal with
  | nil => simp [printLoop]
  | cons c first ih =>
    rw [List.cons_append, printLoop_cons, printLoop_cons, ih, List.append_assoc]

/-- The text of a sequence of calls. -/
def printed (inputs : List Text) : List UInt8 := inputs.flatMap Text.chars

theorem printStrings_eq (terminal : Terminal) (inputs : List Text) :
    printStrings terminal inputs = printLoop terminal (printed inputs) := by
  induction inputs generalizing terminal with
  | nil => rfl
  | cons input inputs ih =>
    show _ = printLoop terminal (input.chars ++ printed inputs)
    rw [printLoop_append]
    unfold printStrings printString
    dsimp only
    rw [ih]

/-- **The cursor behind any sequence of calls.** -/
theorem printStrings_cursor (inputs : List Text) :
    (printStrings .start inputs).1 = Terminal.behind (printed inputs) := by
  rw [printStrings_eq]
  exact (printLoop_behind (printed inputs) []).1

/-- **The stores of any sequence of calls.** -/
theorem mem_printStrings {inputs : List Text} {store : VideoStore} :
    store ∈ (printStrings .start inputs).2 ↔
      ∃ before c rest, printed inputs = before ++ c :: rest ∧ c ≠ 10 ∧ store = storeBehind before c := by
  rw [printStrings_eq]
  exact (printLoop_behind (printed inputs) []).2 store

end Runs

/-! ### Good stores -/

theorem makeChar_toNat (c : UInt8) :
    (makeChar c 0xF).toNat = if c.toNat < 128 then 0x0F00 + c.toNat else 0xFF00 + c.toNat := by
  have all : ∀ n : Fin 256, (makeChar (UInt8.ofNat n) 0xF).toNat =
      if n.val < 128 then 0x0F00 + n.val else 0xFF00 + n.val := by decide +kernel
  have one := all ⟨c.toNat, c.toNat_lt⟩
  rw [UInt8.ofNat_toNat] at one
  exact one

/-- The row behind a text is one of the terminal's. -/
def OnScreen (text : List UInt8) : Prop :=
  0 ≤ int32 (rowBehind text) ∧ int32 (rowBehind text) < terminalHeight

/-- **The store of a character is good** exactly if its row is one of the terminal's and the byte has no
sign. -/
theorem goodStore_iff (text : List UInt8) (c : UInt8) :
    GoodStore (storeBehind text c) ↔ c.toNat < 128 ∧ OnScreen text := by
  have cell := makeChar_toNat c
  have byte := c.toNat_lt
  have col : colBehind text < 80 := Nat.mod_lt _ (by decide)
  constructor
  · intro good
    have row := good.row
    have high := good.high
    rw [storeBehind_row] at row
    rw [storeBehind_cell, cell] at high
    refine ⟨?_, row⟩
    by_contra signed
    rw [if_neg signed] at high
    omega
  · rintro ⟨plain, low, high⟩
    rw [if_pos plain] at cell
    refine ⟨⟨?_, ?_⟩, ?_, ?_, ?_, ?_⟩
    · exact Int.natCast_nonneg _
    · show ((colBehind text : Nat) : Int) < 80
      omega
    · rw [storeBehind_row]
      exact ⟨low, high⟩
    · rw [List.mem_map]
      obtain ⟨row, value⟩ := Int.eq_ofNat_of_zero_le low
      rw [value] at high
      have width : terminalWidth.toNat = 80 := rfl
      have height : terminalHeight = 80 := rfl
      refine ⟨(videoMem (int32 (row * terminalWidth + colBehind text)), makeChar 0x20 0),
        List.mem_flatMap.mpr ⟨colBehind text, ?_, List.mem_map.mpr ⟨row, ?_, rfl⟩⟩, ?_⟩
      · rw [List.mem_range, width]
        exact col
      · rw [List.mem_range]
        omega
      · unfold storeBehind
        dsimp only
        rw [value]
    · rw [storeBehind_cell, cell]
      show (0x0F00 + c.toNat) % 256 = c.toNat
      omega
    · rw [storeBehind_cell, cell]
      omega

/-- **All stores of all sequences of calls** are good exactly if the text fits and is plain. -/
theorem terminal_stores_iff (inputs : List Text) :
    (∀ store ∈ (printStrings .start inputs).2, GoodStore store) ↔
      ∀ before c rest, printed inputs = before ++ c :: rest → c ≠ 10 → c.toNat < 128 ∧ OnScreen before := by
  constructor
  · intro good before c rest text plain
    exact (goodStore_iff before c).mp (good _ (mem_printStrings.mpr ⟨before, c, rest, text, plain, rfl⟩))
  · intro fits store member
    obtain ⟨before, c, rest, text, plain, rfl⟩ := mem_printStrings.mp member
    exact (goodStore_iff before c).mpr (fits before c rest text plain)

/-- Behind eighty newlines a character is stored behind the terminal, and the byte `0xE9` is not in the
colour of the text. -/
theorem terminal_stores_fail :
    (printStrings .start [⟨List.replicate 80 10, by decide⟩, ⟨[120], by decide⟩]).2 =
        [⟨80, 0, 0xBB200, 0x0F78, 120⟩] ∧
      (printStrings .start [⟨[0xE9], by decide⟩]).2 = [⟨0, 0, 0xB8000, 0xFFE9, 0xE9⟩] ∧
      ¬ GoodStore ⟨80, 0, 0xBB200, 0x0F78, 120⟩ ∧ ¬ GoodStore ⟨0, 0, 0xB8000, 0xFFE9, 0xE9⟩ := by
  have behind : (printStrings .start [⟨List.replicate 80 10, by decide⟩, ⟨[120], by decide⟩]).2 =
      [⟨80, 0, 0xBB200, 0x0F78, 120⟩] := by decide +kernel
  have signed : (printStrings .start [⟨[0xE9], by decide⟩]).2 = [⟨0, 0, 0xB8000, 0xFFE9, 0xE9⟩] := by
    decide
  exact ⟨behind, signed, fun good => absurd good.row (by decide), fun good => absurd good.high (by decide)⟩

end KernelPlay
