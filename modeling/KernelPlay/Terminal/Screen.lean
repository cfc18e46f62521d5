/-
**The screen.**

* `terminalInitMemory`, `printStringsMemory` — the video memory behind `terminal_init` and
  `print_string`.
* `shown rows` — the screen that has the rows of a text and is blank behind each of them.
* `Drawn memory terminal text` — the screen shows the text and the cursor stands behind it. Every
  character printed keeps this as long as the text fits (`Drawn.printChar`).

`screen_shows_text` — after any prints that fit the screen shows the text in rows, and no other byte
has changed; `screen_reads_back` — the text can be read back from the screen and the cursor.
-/

import KernelPlay.Library.Layout
import KernelPlay.Library.Words
import KernelPlay.Terminal.Output

namespace KernelPlay

open KernelPlay.Library

/-! ### The code -/

/-- Cells stored, the first one first. -/
def putCells (memory : Nat → UInt8) (cells : List (Nat × UInt16)) : Nat → UInt8 :=
  cells.foldl (fun memory cell => storeBytes memory cell.1 2 cell.2.toNat) memory

def terminalInitMemory (memory : Nat → UInt8) : Nat → UInt8 := putCells memory terminalInit

/-- The stores of `print_string`. -/
def putStores (memory : Nat → UInt8) (stores : List VideoStore) : Nat → UInt8 :=
  putCells memory (stores.map fun store => (store.address, store.cell))

/-- A sequence of calls of `print_string`. -/
def printStringsMemory (memory : Nat → UInt8) (terminal : Terminal) (inputs : List Text) :
    Terminal × (Nat → UInt8) :=
  let (terminal, stores) := printStrings terminal inputs
  (terminal, putStores memory stores)

/-! ### What is seen -/

def cellAddress (row col : Nat) : Nat := 0xB8000 + 2 * (80 * row + col)

/-- The cell in a row and a column. -/
def screenCell (memory : Nat → UInt8) (row col : Nat) : UInt16 :=
  UInt16.ofNat (loadBytes memory (cellAddress row col) 2)

/-- The address is none of the screen's. -/
def OffScreen (address : Nat) : Prop := address < 0xB8000 ∨ 0xB8000 + 12800 ≤ address

def blankCell : UInt16 := makeChar 0x20 0

/-- **The screen with these rows**, blank behind each of them. -/
def shown (rows : List (List UInt8)) (row col : Nat) : UInt16 :=
  ((rows.getD row [])[col]?).elim blankCell (makeChar · 0xF)

/-- The rows of a text on the screen. -/
def rowsOf (text : List UInt8) : List (List UInt8) := layout 10 80 text

/-- No character behind the last row of the screen. -/
def FitsScreen (text : List UInt8) : Prop := ∀ row, 80 ≤ row → (rowsOf text).getD row [] = []

/-- The cursor behind the rows. -/
def cursorBehind (rows : List (List UInt8)) : Terminal :=
  ⟨int32 ((rows.length : Int) - 1), (rows.getLastD []).length⟩

/-- **The screen shows the text.** -/
structure Drawn (memory : Nat → UInt8) (terminal : Terminal) (text : List UInt8) : Prop where
  cursor : terminal = cursorBehind (rowsOf text)
  cells : ∀ row col, row < 80 → col < 80 → screenCell memory row col = shown (rowsOf text) row col

section Cells

variable {memory : Nat → UInt8} {cell : UInt16} {row col row' col' : Nat}
  {front rows : List (List UInt8)}
  {last : List UInt8} {c : UInt8}

@[simp] theorem cursorBehind_append :
    cursorBehind (front ++ [last]) = ⟨int32 front.length, last.length⟩ := by
  simp [cursorBehind]

/-- A cell stored. -/
theorem screenCell_store (inside : col < 80) (inside' : col' < 80) :
    screenCell (storeBytes memory (cellAddress row col) 2 cell.toNat) row' col' =
      if row' = row ∧ col' = col then cell else screenCell memory row' col' := by
  unfold screenCell
  split_ifs with here
  · rw [here.1, here.2, loadBytes_storeBytes _ (show cell.toNat < 256 ^ 2 from cell.toNat_lt),
      UInt16.ofNat_toNat]
  · unfold cellAddress
    rw [loadBytes_storeBytes_apart (by omega)]

theorem getD_append_nil (row : Nat) : (rows ++ [[]]).getD row [] = rows.getD row [] := by
  rcases Nat.lt_or_ge row rows.length with below | behind
  · exact List.getD_append _ _ _ _ below
  · rw [List.getD_append_right _ _ _ _ behind, List.getD_eq_default rows [] behind]
    rcases row - rows.length with _ | more <;> rfl

theorem shown_newline : shown (rows ++ [[]]) = shown rows := by
  funext row col
  rw [shown, shown, getD_append_nil]

/-- A character behind the last row. -/
theorem shown_put : shown (front ++ [last ++ [c]]) row col =
    if row = front.length ∧ col = last.length then makeChar c 0xF
    else shown (front ++ [last]) row col := by
  unfold shown
  rcases Nat.lt_trichotomy row front.length with above | rfl | below
  · rw [if_neg (by omega), List.getD_append _ _ _ _ above, List.getD_append _ _ _ _ above]
  · have at_end (line : List UInt8) : (front ++ [line]).getD front.length [] = line := by simp
    rw [at_end, at_end]
    rcases Nat.lt_trichotomy col last.length with left | rfl | right
    · rw [if_neg (by omega), List.getElem?_append_left left]
    · simp
    · rw [if_neg (by omega), List.getElem?_eq_none (by simp; omega), List.getElem?_eq_none right.le]
  · have length (line : List UInt8) : (front ++ [line]).length ≤ row := by simp; omega
    rw [if_neg (by omega), List.getD_eq_default _ _ (length _), List.getD_eq_default _ _ (length _)]

/-- A text that fits has fitted before its last character, and that has a row of the screen. -/
theorem FitsScreen.of_snoc {text : List UInt8} (fits : FitsScreen (text ++ [c])) :
    FitsScreen text ∧ (c ≠ 10 → (rowsOf text).length ≤ 80) := by
  obtain ⟨front, last, rows, -⟩ := layout_eq (show 0 < 80 by decide) 10 text
  have longer := @layout_snoc _ _ 10 c 80 text (by decide) front last rows
  unfold FitsScreen rowsOf at fits ⊢
  rw [longer] at fits
  rw [rows]
  have put (fits : ∀ row, 80 ≤ row → (front ++ [last ++ [c]]).getD row [] = []) : front.length < 80 := by
    by_contra behind
    have empty := fits front.length (by omega)
    simp at empty
  have few (inside : front.length < 80) : (∀ row, 80 ≤ row → (front ++ [last]).getD row [] = []) ∧
      (c ≠ 10 → (front ++ [last]).length ≤ 80) := by
    have length : (front ++ [last]).length = front.length + 1 := by simp
    exact ⟨fun row behind => List.getD_eq_default _ _ (by omega), fun _ => by omega⟩
  split_ifs at fits with newline full
  · refine ⟨fun row behind => ?_, fun plain => absurd newline plain⟩
    rw [← getD_append_nil]
    exact fits row behind
  · refine few (put fun row behind => ?_)
    rw [← getD_append_nil]
    exact fits row behind
  · exact few (put fits)

theorem FitsScreen.of_append {text more : List UInt8} (fits : FitsScreen (text ++ more)) :
    FitsScreen text := by
  induction more using List.reverseRecOn with
  | nil => rwa [List.append_nil] at fits
  | append_singleton more c ih =>
    rw [← List.append_assoc] at fits
    exact ih fits.of_snoc.1

end Cells

/-! ### Stores -/

section Stores

variable {memory : Nat → UInt8} {cells : List (Nat × UInt16)} {row col address : Nat}

theorem putCells_append (cells cells' : List (Nat × UInt16)) :
    putCells memory (cells ++ cells') = putCells (putCells memory cells) cells' := List.foldl_append

/-- A cell of the screen. -/
def OfScreen (cell : Nat × UInt16) : Prop :=
  ∃ row col, row < 80 ∧ col < 80 ∧ cell.1 = cellAddress row col

theorem putCells_outside (inside : ∀ cell ∈ cells, OfScreen cell) (outside : OffScreen address) :
    putCells memory cells address = memory address := by
  induction cells generalizing memory with
  | nil => rfl
  | cons cell cells ih =>
    obtain ⟨⟨row, col, below, left, place⟩, rest⟩ := List.forall_mem_cons.mp inside
    refine (ih rest).trans (storeBytes_outside _ ?_)
    unfold OffScreen at outside
    rw [place, cellAddress]
    omega

theorem screenCell_putCells_blank (inside : ∀ cell ∈ cells, OfScreen cell ∧ cell.2 = blankCell)
    (left : col < 80) (listed : (cellAddress row col, blankCell) ∈ cells) :
    screenCell (putCells memory cells) row col = blankCell := by
  induction cells using List.reverseRecOn with
  | nil => cases listed
  | append_singleton cells cell ih =>
    obtain ⟨⟨row', col', -, left', place⟩, blank⟩ := inside cell (by simp)
    obtain ⟨place', cell⟩ := cell
    obtain rfl : place' = _ := place
    obtain rfl : cell = _ := blank
    rw [putCells_append, putCells, List.foldl_cons, List.foldl_nil, screenCell_store left' left]
    split_ifs with here
    · rfl
    · refine ih (fun cell member => inside cell (List.mem_append_left _ member)) ?_
      rcases List.mem_append.mp listed with before | last
      · exact before
      · have same := congrArg Prod.fst (List.mem_singleton.mp last)
        unfold cellAddress at same
        exact absurd ⟨by omega, by omega⟩ here

theorem int32_row (above : row < 80) : int32 row = row := Int.bmod_eq_of_le (by omega) (by omega)

theorem videoMem_eq (above : row < 80) (left : col < 80) :
    videoMem (int32 (int32 row * terminalWidth + col)) = cellAddress row col := by
  rw [int32_row above]
  unfold videoMem uint32 int32 terminalWidth cellAddress
  rw [Int.bmod_eq_of_le (by omega) (by omega)]
  omega

theorem mem_terminalInit {cell : Nat × UInt16} :
    cell ∈ terminalInit ↔ ∃ row col, row < 80 ∧ col < 80 ∧ cell = (cellAddress row col, blankCell) := by
  unfold terminalInit
  rw [List.mem_flatMap]
  constructor
  · rintro ⟨col, left, member⟩
    obtain ⟨row, above, rfl⟩ := List.mem_map.mp member
    rw [List.mem_range] at left above
    exact ⟨row, col, above, left, by rw [← videoMem_eq above left, int32_row above, blankCell]⟩
  · rintro ⟨row, col, above, left, rfl⟩
    refine ⟨col, List.mem_range.mpr left, List.mem_map.mpr ⟨row, List.mem_range.mpr above, ?_⟩⟩
    rw [← videoMem_eq above left, int32_row above, blankCell]

/-- The bytes of the screen decide what it shows. -/
theorem Drawn.kept {memory' : Nat → UInt8} {terminal : Terminal} {text : List UInt8}
    (drawn : Drawn memory terminal text)
    (same : ∀ address, ¬ OffScreen address → memory' address = memory address) :
    Drawn memory' terminal text := by
  refine ⟨drawn.cursor, fun row col above left => ?_⟩
  rw [← drawn.cells row col above left, screenCell, screenCell]
  refine congrArg UInt16.ofNat (loadBytes_congr fun index below => same _ ?_)
  unfold OffScreen cellAddress
  omega

/-- **`terminal_init`** draws the empty text, and writes nothing off the screen. -/
theorem Drawn.start (memory : Nat → UInt8) : Drawn (terminalInitMemory memory) .start [] ∧
    ∀ address, OffScreen address → terminalInitMemory memory address = memory address := by
  have inside (cell : Nat × UInt16) (member : cell ∈ terminalInit) :
      OfScreen cell ∧ cell.2 = blankCell := by
    obtain ⟨row, col, above, left, rfl⟩ := mem_terminalInit.mp member
    exact ⟨⟨row, col, above, left, rfl⟩, rfl⟩
  refine ⟨⟨?_, fun row col above left => ?_⟩,
    fun address => putCells_outside fun cell member => (inside cell member).1⟩
  · rw [rowsOf, layout_nil]
    rfl
  · rw [terminalInitMemory, screenCell_putCells_blank inside left
      (mem_terminalInit.mpr ⟨row, col, above, left, rfl⟩), rowsOf, layout_nil]
    rcases row with _ | row <;> rfl

/-- **One character.** -/
theorem Drawn.printChar {terminal : Terminal} {text : List UInt8} {c : UInt8}
    (drawn : Drawn memory terminal text)
    (fits : FitsScreen (text ++ [c])) :
    Drawn (putStores memory (KernelPlay.printChar terminal c).2)
      (KernelPlay.printChar terminal c).1 (text ++ [c]) ∧
      ∀ address, OffScreen address →
        putStores memory (KernelPlay.printChar terminal c).2 address = memory address := by
  obtain ⟨front, last, rows, room⟩ := layout_eq (show 0 < 80 by decide) 10 text
  obtain ⟨cursor, cells⟩ := drawn
  have longer := @layout_snoc _ _ 10 c 80 text (by decide) front last rows
  have few := fits.of_snoc.2
  rw [rowsOf, rows] at cursor cells few
  rw [cursorBehind_append] at cursor
  subst cursor
  unfold KernelPlay.printChar putStores
  by_cases newline : c = 10
  · have place : (front ++ [last]).length = front.length + 1 := by simp
    rw [if_pos newline]
    rw [if_pos newline] at longer
    refine ⟨⟨?_, fun row col above left => ?_⟩, fun _ _ => rfl⟩
    · rw [rowsOf, longer, cursorBehind_append, int32_succ, place]
      rfl
    · rw [rowsOf, longer, shown_newline]
      exact cells row col above left
  · have above : front.length < 80 := by
      have := few newline
      simp at this
      omega
    rw [if_neg newline] at longer ⊢
    dsimp only
    rw [videoMem_eq above room]
    have drawn (row col : Nat) (below : row < 80) (left : col < 80) :
        screenCell (putCells memory [(cellAddress front.length last.length, makeChar c 0xF)]) row col =
          shown (front ++ [last ++ [c]]) row col := by
      rw [shown_put, ← cells row col below left]
      exact screenCell_store room left
    have kept (address : Nat) (outside : OffScreen address) :
        putCells memory [(cellAddress front.length last.length, makeChar c 0xF)] address =
          memory address := by
      refine putCells_outside (fun cell member => ?_) outside
      rw [List.mem_singleton.mp member]
      exact ⟨front.length, last.length, above, room, rfl⟩
    by_cases full : last.length + 1 = 80
    · have place : (front ++ [last ++ [c]]).length = front.length + 1 := by simp
      rw [if_pos (show ((last.length : Nat) : Int) + 1 ≥ terminalWidth by unfold terminalWidth; omega)]
      rw [if_pos full] at longer
      refine ⟨⟨?_, fun row col below left => ?_⟩, kept⟩
      · rw [rowsOf, longer, cursorBehind_append, int32_succ, place]
        rfl
      · rw [rowsOf, longer, shown_newline]
        exact drawn row col below left
    · rw [if_neg (show ¬ ((last.length : Nat) : Int) + 1 ≥ terminalWidth by unfold terminalWidth; omega)]
      rw [if_neg full] at longer
      refine ⟨⟨?_, fun row col below left => ?_⟩, kept⟩
      · rw [rowsOf, longer, cursorBehind_append, List.length_append]
        rfl
      · rw [rowsOf, longer]
        exact drawn row col below left

theorem Drawn.printLoop {terminal : Terminal} {text : List UInt8} (input : List UInt8)
    (drawn : Drawn memory terminal text) (fits : FitsScreen (text ++ input)) :
    Drawn (putStores memory (KernelPlay.printLoop terminal input).2)
      (KernelPlay.printLoop terminal input).1 (text ++ input) ∧
      ∀ address, OffScreen address →
        putStores memory (KernelPlay.printLoop terminal input).2 address = memory address := by
  induction input generalizing memory terminal text with
  | nil => exact ⟨by rwa [List.append_nil], fun _ _ => rfl⟩
  | cons c input ih =>
    rw [List.append_cons] at fits ⊢
    obtain ⟨next, kept⟩ := drawn.printChar fits.of_append
    obtain ⟨last, kept'⟩ := ih next fits
    rw [printLoop_cons, putStores, List.map_append, putCells_append]
    exact ⟨last, fun address outside => (kept' address outside).trans (kept address outside)⟩

/-- **A sequence of calls** draws its text behind the text that is there. -/
theorem Drawn.printStrings {terminal : Terminal} {text : List UInt8} (inputs : List Text)
    (drawn : Drawn memory terminal text) (fits : FitsScreen (text ++ printed inputs)) :
    Drawn (printStringsMemory memory terminal inputs).2 (printStringsMemory memory terminal inputs).1
        (text ++ printed inputs) ∧
      ∀ address, OffScreen address →
        (printStringsMemory memory terminal inputs).2 address = memory address := by
  unfold printStringsMemory
  rw [printStrings_eq]
  exact drawn.printLoop (printed inputs) fits

/-- **The screen shows the text.** After `terminal_init` and any calls of `print_string` whose text
fits on the screen, each cell holds the character that the text has there, line by line and each
line in rows of 80, or is blank; the cursor is behind the last row, and no other byte of memory has
changed. -/
theorem screen_shows_text (memory : Nat → UInt8) {inputs : List Text}
    (fits : FitsScreen (printed inputs)) :
    Drawn (printStringsMemory (terminalInitMemory memory) .start inputs).2
        (printStringsMemory (terminalInitMemory memory) .start inputs).1 (printed inputs) ∧
      ∀ address, OffScreen address →
        (printStringsMemory (terminalInitMemory memory) .start inputs).2 address = memory address := by
  obtain ⟨start, kept⟩ := Drawn.start memory
  obtain ⟨drawn, kept'⟩ := start.printStrings inputs fits
  exact ⟨drawn, fun address outside => (kept' address outside).trans (kept address outside)⟩

/-- Two calls, with a newline between them. -/
def twoTexts : List Text := [⟨[72, 105, 10], by decide⟩, ⟨[33], by decide⟩]

theorem twoTexts_fit : FitsScreen (printed twoTexts) := fun row behind => List.getD_eq_default _ _ (by
  have two : (rowsOf (printed twoTexts)).length = 2 := by decide
  omega)

theorem screen_shows_text_two : screenCell
    (printStringsMemory (terminalInitMemory fun _ => 0) .start twoTexts).2 1 0 = 0x0F21 := by
  rw [(screen_shows_text (fun _ => 0) twoTexts_fit).1.cells 1 0 (by decide) (by decide)]
  decide

end Stores

/-! ### Reading back -/

section ReadBack

variable {memory : Nat → UInt8} {terminal : Terminal} {text : List UInt8}

/-- The characters of a row of the screen, up to the first blank. -/
def readRow (memory : Nat → UInt8) (row : Nat) : List UInt8 :=
  if row < 80 then
    (((List.range 80).map (screenCell memory row)).takeWhile (· ≠ blankCell)).map fun cell =>
      UInt8.ofNat cell.toNat
  else []

/-- The text on the screen, from its rows up to the cursor. -/
def readScreen (memory : Nat → UInt8) (terminal : Terminal) : List UInt8 :=
  unlayout 10 80 ((List.range (terminal.terminalRow.toNat + 1)).map (readRow memory))

theorem makeChar_ne_blank (c : UInt8) : makeChar c 0xF ≠ blankCell := by
  intro same
  have cell := makeChar_toNat c
  rw [same, show blankCell.toNat = 0x20 from rfl] at cell
  split_ifs at cell <;> omega

theorem ofNat_makeChar (c : UInt8) : UInt8.ofNat (makeChar c 0xF).toNat = c := by
  have cell := makeChar_toNat c
  have byte := c.toNat_lt
  rw [← UInt8.toNat_inj, UInt8.toNat_ofNat']
  split_ifs at cell <;> omega

/-- The cells of a line: its characters, and blanks behind. -/
theorem lineCells_eq {chars : List UInt8} (short : chars.length ≤ 80) :
    (List.range 80).map (fun col => (chars[col]?).elim blankCell (makeChar · 0xF)) =
      chars.map (makeChar · 0xF) ++ List.replicate (80 - chars.length) blankCell := by
  refine List.ext_getElem (by simp; omega) fun col left _ => ?_
  rw [List.getElem_map, List.getElem_range]
  rcases Nat.lt_or_ge col chars.length with inside | behind
  · rw [List.getElem_append_left (by rwa [List.length_map]), List.getElem_map,
      List.getElem?_eq_getElem inside]
    rfl
  · rw [List.getElem_append_right (by rwa [List.length_map]), List.getElem_replicate,
      List.getElem?_eq_none behind]
    rfl

/-- **The rows are read back.** -/
theorem readRow_drawn (drawn : Drawn memory terminal text) (fits : FitsScreen text) (row : Nat) :
    readRow memory row = (rowsOf text).getD row [] := by
  unfold readRow
  split_ifs with above
  swap
  · exact (fits row (Nat.le_of_not_lt above)).symm
  have short : ((rowsOf text).getD row []).length ≤ 80 := by
    rcases Nat.lt_or_ge row (rowsOf text).length with inside | behind
    · rw [List.getD_eq_getElem _ _ inside]
      exact length_le_of_mem_layout (by decide) (List.getElem_mem inside)
    · rw [List.getD_eq_default _ _ behind]
      exact Nat.zero_le 80
  have cells : (List.range 80).map (screenCell memory row) =
      (List.range 80).map (shown (rowsOf text) row) :=
    List.map_congr_left fun col left => drawn.cells row col above (List.mem_range.mp left)
  have line := lineCells_eq short
  unfold shown at cells
  rw [cells, line, List.takeWhile_append_of_pos, List.takeWhile_replicate, if_neg (by simp),
    List.append_nil, List.map_map]
  · exact (List.map_congr_left fun c _ => ofNat_makeChar c).trans (List.map_id _)
  · intro cell member
    obtain ⟨c, -, rfl⟩ := List.mem_map.mp member
    exact decide_eq_true (makeChar_ne_blank c)

/-- **Nothing printed is lost.** After `terminal_init` and any calls of `print_string` whose text
fits on the screen, in fewer than 2^31 rows, the text can be read back from the screen and the
cursor. -/
theorem screen_reads_back (memory : Nat → UInt8) {inputs : List Text}
    (fits : FitsScreen (printed inputs))
    (few : (rowsOf (printed inputs)).length < 2147483648) :
    readScreen (printStringsMemory (terminalInitMemory memory) .start inputs).2
        (printStringsMemory (terminalInitMemory memory) .start inputs).1 = printed inputs := by
  obtain ⟨drawn, -⟩ := (Drawn.start memory).1.printStrings inputs fits
  rw [List.nil_append] at drawn
  obtain ⟨front, last, rows, -⟩ := layout_eq (show 0 < 80 by decide) 10 (printed inputs)
  have rows : rowsOf (printed inputs) = front ++ [last] := rows
  have height : (printStringsMemory (terminalInitMemory memory) .start inputs).1.terminalRow.toNat + 1 =
      (rowsOf (printed inputs)).length := by
    rw [rows, List.length_append, List.length_singleton] at few ⊢
    rw [drawn.cursor, rows, cursorBehind_append]
    unfold int32
    rw [Int.bmod_eq_of_le (by omega) (by omega)]
    exact congrArg (· + 1) (Int.toNat_natCast _)
  have read : (List.range (rowsOf (printed inputs)).length).map
      (readRow (printStringsMemory (terminalInitMemory memory) .start inputs).2) =
        rowsOf (printed inputs) := by
    refine List.ext_getElem (by simp) fun row inside inside' => ?_
    rw [List.getElem_map, List.getElem_range, readRow_drawn drawn fits, List.getD_eq_getElem _ _ inside']
  rw [readScreen, height, read]
  exact unlayout_layout (by decide) 10 _

theorem screen_reads_back_two :
    readScreen (printStringsMemory (terminalInitMemory fun _ => 0) .start twoTexts).2
    (printStringsMemory (terminalInitMemory fun _ => 0) .start twoTexts).1 = [72, 105, 10, 33] :=
  screen_reads_back (fun _ => 0) twoTexts_fit
    (show ([[72, 105], [33]] : List (List UInt8)).length < _ by decide)

end ReadBack

end KernelPlay
