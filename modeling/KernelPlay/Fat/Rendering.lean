/-
**The rendering of 8.3 names, in its buffer.**

* `fat16RenderFilename` — `fat16_get_full_relative_filename` on the buffer it is given. The copy loop stops
  behind a full field and looks at the byte there; a space makes it store a terminator, which the cleared
  buffer has already.
* `render_eq` — what the buffer holds: the name up to its first space or NUL, a dot and the extension if
  there is one, and NULs.
* `rendering_exact` — the text is that of at most twelve characters, decided by the first eleven bytes
  alone, and two entries with padded fields have the same text only if these bytes are the same.
-/

import KernelPlay.Fat.Name

namespace KernelPlay

open KernelPlay.Library

/-- The byte at an offset from the start of the entry. -/
def FatDirectoryItem.byteAt (item : FatDirectoryItem) (index : Nat) : UInt8 :=
  if inside : index < 32 then item.bytes ⟨index, inside⟩ else 0

/-- The loop of `fat16_to_proper_string`, by the size left: where `in` and `*out` point behind it, and the
buffer. -/
def fat16ToProperStringLoop (item : FatDirectoryItem) :
    Nat → Nat → Nat → (Nat → UInt8) → Nat × Nat × (Nat → UInt8)
  | 0, input, out, buffer => (input, out, buffer)
  | size + 1, input, out, buffer =>
    if item.byteAt input ≠ 0x00 ∧ item.byteAt input ≠ 0x20 then
      fat16ToProperStringLoop item size (input + 1) (out + 1)
        (Function.update buffer out (item.byteAt input))
    else (input, out, buffer)

def fat16CopyProperString (item : FatDirectoryItem) (out input size : Nat) (buffer : Nat → UInt8) :
    Nat × (Nat → UInt8) :=
  let (input, out, buffer) := fat16ToProperStringLoop item size input out buffer
  if item.byteAt input = 0x20 then (out, Function.update buffer out 0x00) else (out, buffer)

/-- `memset(out, 0x00, len)`. -/
def clearBuffer (out : Nat → UInt8) (len : Nat) : Nat → UInt8 :=
  fun index => if index < len then 0x00 else out index

/-- The buffer after the call. -/
def fat16RenderFilename (item : FatDirectoryItem) (out : Nat → UInt8) (len : Nat) : Nat → UInt8 :=
  let (outTmp, buffer) := fat16CopyProperString item 0 0 8 (clearBuffer out len)
  if item.ext ⟨0, by decide⟩ ≠ 0x00 ∧ item.ext ⟨0, by decide⟩ ≠ 0x20 then
    (fat16CopyProperString item (outTmp + 1) 8 3 (Function.update buffer outTmp 46)).2
  else buffer

/-! ### What the buffer holds -/

/-- The characters of a field up to its first space or NUL. -/
def cutField (chars : List UInt8) : List UInt8 := chars.takeWhile fun c => c ≠ 0x00 ∧ c ≠ 0x20

/-- The text of an entry. -/
def renderedName (item : FatDirectoryItem) : List UInt8 :=
  cutField item.filenameChars ++
    if item.ext ⟨0, by decide⟩ ≠ 0x00 ∧ item.ext ⟨0, by decide⟩ ≠ 0x20 then 46 :: cutField item.extChars
    else []

section Copying

variable (item : FatDirectoryItem)

theorem filename_window : item.filenameChars = window item.byteAt 0 8 := by
  unfold FatDirectoryItem.filenameChars FatDirectoryItem.filename FatDirectoryItem.byteAt window
  simp [List.finRange_succ, List.range'_succ]

theorem ext_window : item.extChars = window item.byteAt 8 3 := by
  unfold FatDirectoryItem.extChars FatDirectoryItem.ext FatDirectoryItem.byteAt window
  simp [List.finRange_succ, List.range'_succ]

/-- **The loop** writes the characters up to the first space or NUL. -/
theorem copyLoop_cuts (size input out : Nat) (buffer : Nat → UInt8) :
    fat16ToProperStringLoop item size input out buffer =
      (input + (cutField (window item.byteAt input size)).length,
        out + (cutField (window item.byteAt input size)).length,
        overwrite buffer out (cutField (window item.byteAt input size))) := by
  induction size generalizing input out buffer with
  | zero => simp [fat16ToProperStringLoop, cutField, overwrite_nil]
  | succ size ih =>
    rw [fat16ToProperStringLoop, window_succ]
    unfold cutField at ih ⊢
    rw [List.takeWhile_cons]
    by_cases more : item.byteAt input ≠ 0x00 ∧ item.byteAt input ≠ 0x20
    · rw [if_pos more, ih, if_pos (by simpa using more), List.length_cons]
      have written := overwrite_append buffer out [item.byteAt input]
        ((window item.byteAt (input + 1) size).takeWhile fun c => c ≠ 0x00 ∧ c ≠ 0x20)
      rw [← update_eq_overwrite] at written
      simp only [Prod.mk.injEq]
      exact ⟨by omega, by omega, written⟩
    · rw [if_neg more, if_neg (by simpa using more)]
      simp [overwrite_nil]

/-- The store behind the text changes nothing where the buffer is cleared. -/
theorem copyProperString_cuts (out input size : Nat) {buffer : Nat → UInt8}
    (clear : buffer (out + (cutField (window item.byteAt input size)).length) = 0x00) :
    fat16CopyProperString item out input size buffer =
      (out + (cutField (window item.byteAt input size)).length,
        overwrite buffer out (cutField (window item.byteAt input size))) := by
  unfold fat16CopyProperString
  rw [copyLoop_cuts]
  dsimp only
  split_ifs
  · rw [Prod.mk.injEq]
    refine ⟨rfl, Function.update_eq_self_iff.mpr ?_⟩
    rw [overwrite_behind _ le_rfl, clear]
  · rfl

theorem cutField_length (chars : List UInt8) : (cutField chars).length ≤ chars.length :=
  (List.takeWhile_prefix _).length_le

/-- **The buffer holds the text**, and NULs behind it. -/
theorem render_eq (out : Nat → UInt8) {len : Nat} (room : 13 ≤ len) :
    fat16RenderFilename item out len = overwrite (clearBuffer out len) 0 (renderedName item) := by
  have name_length := cutField_length (window item.byteAt 0 8)
  have ext_length := cutField_length (window item.byteAt 8 3)
  rw [window_length] at name_length ext_length
  unfold fat16RenderFilename renderedName
  rw [filename_window, ext_window]
  generalize buffer_eq : clearBuffer out len = buffer
  have clear (index : Nat) (below : index < 13) : buffer index = 0x00 := by
    rw [← buffer_eq]
    exact if_pos (by omega)
  rw [copyProperString_cuts item 0 0 8 (clear _ (by omega))]
  generalize cutField (window item.byteAt 0 8) = name at *
  dsimp only
  rw [Nat.zero_add]
  split_ifs with extended
  · have dot := overwrite_append buffer 0 name [46]
    have behind : overwrite buffer 0 (name ++ [46])
        (name.length + 1 + (cutField (window item.byteAt 8 3)).length) = 0x00 := by
      rw [overwrite_behind _ (by simp), clear _ (by omega)]
    have all := overwrite_append buffer 0 (name ++ [46]) (cutField (window item.byteAt 8 3))
    rw [Nat.zero_add] at dot all
    rw [update_eq_overwrite, dot, copyProperString_cuts item _ 8 3 behind,
      List.append_cons name 46 (cutField (window item.byteAt 8 3)), ← all,
      List.length_append]
    rfl
  · rw [List.append_nil]

end Copying

/-! ### The text -/

section Text

variable {item other : FatDirectoryItem}

theorem toProperString_cuts : ∀ {chars : List UInt8} {size : Nat}, chars.length = size → size ≠ 0 →
    fat16ToProperString chars size = cutField chars
  | [], _, same, nonzero => absurd same.symm nonzero
  | c :: rest, size, same, _ => by
      have tail : (if size - 1 = 0 then [] else fat16ToProperString rest (size - 1)) = cutField rest := by
        rw [List.length_cons] at same
        split_ifs with last
        · obtain rfl : rest = [] := List.length_eq_zero_iff.mp (by omega)
          rfl
        · exact toProperString_cuts (by omega) last
      rw [fat16ToProperString, tail]
      unfold cutField
      rw [List.takeWhile_cons]
      by_cases more : c ≠ 0x00 ∧ c ≠ 0x20
      · rw [if_pos more, if_pos (by simpa using more)]
      · rw [if_neg more, if_neg (by simpa using more)]

/-- The text is the one the lookup compares. -/
theorem renderedName_eq (item : FatDirectoryItem) : fat16GetFullRelativeFilename item = renderedName item := by
  unfold fat16GetFullRelativeFilename renderedName
  rw [toProperString_cuts (by simp [FatDirectoryItem.filenameChars]) (by decide),
    toProperString_cuts (by simp [FatDirectoryItem.extChars]) (by decide)]
  show (if item.ext 0 ≠ 0x00 ∧ item.ext 0 ≠ 0x20 then _ else _) =
    _ ++ if item.ext 0 ≠ 0x00 ∧ item.ext 0 ≠ 0x20 then _ else _
  split_ifs
  · rfl
  · rw [List.append_nil]

/-- The first eleven bytes decide the text. -/
theorem renderedName_congr (same : ∀ index, index < 11 → item.byteAt index = other.byteAt index) :
    renderedName item = renderedName other := by
  have name : item.filenameChars = other.filenameChars := by
    rw [filename_window, filename_window]
    exact window_congr fun index below => same _ (by omega)
  have ext : item.extChars = other.extChars := by
    rw [ext_window, ext_window]
    exact window_congr fun index below => same _ (by omega)
  have first : item.ext ⟨0, by decide⟩ = other.ext ⟨0, by decide⟩ := same 8 (by decide)
  unfold renderedName
  rw [name, ext, first]

/-- A field without dots and NULs, with spaces only at its end. -/
structure Padded (chars : List UInt8) : Prop where
  noDot : 46 ∉ chars
  noNul : 0x00 ∉ chars
  spacesLast : ∃ text count, chars = text ++ List.replicate count 0x20 ∧ 0x20 ∉ text

/-- A padded field is its text, padded. -/
theorem Padded.cut {chars : List UInt8} (padded : Padded chars) :
    chars = cutField chars ++ List.replicate (chars.length - (cutField chars).length) 0x20 := by
  obtain ⟨text, count, rfl, noSpace⟩ := padded.spacesLast
  have plain : ∀ c ∈ text, decide (c ≠ 0x00 ∧ c ≠ 0x20) = true := by
    intro c member
    have nul : c ≠ 0x00 := fun zero => padded.noNul (List.mem_append_left _ (zero ▸ member))
    have space : c ≠ 0x20 := fun space => noSpace (space ▸ member)
    exact decide_eq_true ⟨nul, space⟩
  have rest : (List.replicate count (0x20 : UInt8)).takeWhile (fun c => c ≠ 0x00 ∧ c ≠ 0x20) = [] := by
    cases count with
    | zero => rfl
    | succ count => simp [List.replicate_succ]
  have cut : cutField (text ++ List.replicate count 0x20) = text := by
    unfold cutField
    rw [List.takeWhile_append_of_pos plain, rest, List.append_nil]
  rw [cut, List.length_append, Nat.add_sub_cancel_left, List.length_replicate]

/-- Padded fields of one length with one text are the same. -/
theorem Padded.eq_of_cut {chars chars' : List UInt8} (padded : Padded chars) (padded' : Padded chars')
    (length : chars.length = chars'.length) (text : cutField chars = cutField chars') : chars = chars' := by
  rw [padded.cut, padded'.cut, length, text]

theorem Padded.cut_noDot {chars : List UInt8} (padded : Padded chars) : 46 ∉ cutField chars :=
  fun member => padded.noDot ((List.takeWhile_prefix _).subset member)

theorem cut_ext_nil (plain : ¬ (item.ext ⟨0, by decide⟩ ≠ 0x00 ∧ item.ext ⟨0, by decide⟩ ≠ 0x20)) :
    cutField item.extChars = [] := by
  have head : item.extChars = item.ext ⟨0, by decide⟩ :: [item.ext 1, item.ext 2] := by
    simp [FatDirectoryItem.extChars, List.finRange_succ]
  unfold cutField
  rw [head, List.takeWhile_cons, if_neg (by simpa using plain)]

/-- **Two entries with padded fields and the same text** have the same name. -/
theorem name_bytes_of_renderedName (name : Padded item.filenameChars) (ext : Padded item.extChars)
    (name' : Padded other.filenameChars) (ext' : Padded other.extChars)
    (text : renderedName item = renderedName other) :
    ∀ index, index < 11 → item.byteAt index = other.byteAt index := by
  have noDot := name.cut_noDot
  have noDot' := name'.cut_noDot
  have cuts : cutField item.filenameChars = cutField other.filenameChars ∧
      cutField item.extChars = cutField other.extChars := by
    unfold renderedName at text
    split_ifs at text with one two two
    · obtain ⟨names, -, exts⟩ := (List.append_cons_inj_of_notMem noDot ext.cut_noDot).mp text
      exact ⟨names, exts⟩
    · rw [List.append_nil] at text
      exact absurd (text ▸ List.mem_append_right _ List.mem_cons_self) noDot'
    · rw [List.append_nil] at text
      exact absurd (text ▸ List.mem_append_right _ List.mem_cons_self) noDot
    · rw [List.append_nil, List.append_nil] at text
      exact ⟨text, (cut_ext_nil one).trans (cut_ext_nil two).symm⟩
  have names := name.eq_of_cut name' (by simp [FatDirectoryItem.filenameChars]) cuts.1
  have exts := ext.eq_of_cut ext' (by simp [FatDirectoryItem.extChars]) cuts.2
  rw [filename_window, filename_window] at names
  rw [ext_window, ext_window] at exts
  have all : window item.byteAt 0 (8 + 3) = window other.byteAt 0 (8 + 3) := by
    rw [window_add, window_add, names, Nat.zero_add, exts]
  intro index below
  have one := @window_getD UInt8 item.byteAt 0 11 index below 0
  have two := @window_getD UInt8 other.byteAt 0 11 index below 0
  rw [Nat.zero_add] at one two
  rw [← one, ← two]
  exact congrArg (fun values => values.getD index 0) all

/-- **The rendering is exact and unambiguous.** -/
theorem rendering_exact (item : FatDirectoryItem) (out : Nat → UInt8) {len : Nat} (room : 13 ≤ len) :
    ((∀ index, index < (renderedName item).length →
          fat16RenderFilename item out len index = (renderedName item).getD index 0x00) ∧
        fat16RenderFilename item out len (renderedName item).length = 0x00 ∧
        0x00 ∉ renderedName item ∧ (renderedName item).length ≤ 12) ∧
      (∀ other : FatDirectoryItem, (∀ index, index < 11 → item.byteAt index = other.byteAt index) →
        fat16RenderFilename item out len = fat16RenderFilename other out len) ∧
      ∀ other : FatDirectoryItem, Padded item.filenameChars → Padded item.extChars →
        Padded other.filenameChars → Padded other.extChars → renderedName item = renderedName other →
        ∀ index, index < 11 → item.byteAt index = other.byteAt index := by
  have length := fat16GetFullRelativeFilename_length item
  have noNul := fat16GetFullRelativeFilename_text item
  rw [renderedName_eq] at length noNul
  refine ⟨⟨fun index below => ?_, ?_, noNul, length⟩, fun other same => ?_,
    fun other name ext name' ext' => name_bytes_of_renderedName name ext name' ext'⟩
  · rw [render_eq item out room, overwrite, if_pos (Nat.zero_le _), Nat.sub_zero,
      List.getD_eq_getElem _ _ below, List.getD_eq_getElem _ _ below]
  · rw [render_eq item out room, overwrite_behind _ (by omega)]
    exact if_pos (by omega)
  · rw [render_eq item out room, render_eq other out room, renderedName_congr same]

end Text

/-! ### An archive file -/

/-- The entry of `KERNEL  .BIN`, with the archive bit: the byte behind the extension is a space. -/
def kernelEntry : FatDirectoryItem :=
  .parse [75, 69, 82, 78, 69, 76, 32, 32, 66, 73, 78, 0x20]

/-- In a buffer of the lookup's size the name reads `KERNEL.BIN`. -/
theorem rendering_exact_kernel :
    renderedName kernelEntry = [75, 69, 82, 78, 69, 76, 46, 66, 73, 78] ∧
      fat16RenderFilename kernelEntry (fun _ => 0xFF) 100 10 = 0x00 := by
  have name : renderedName kernelEntry = [75, 69, 82, 78, 69, 76, 46, 66, 73, 78] := by decide
  have ends := (rendering_exact kernelEntry (fun _ => 0xFF) (show 13 ≤ 100 by decide)).1.2.1
  rw [name] at ends
  exact ⟨name, ends⟩

end KernelPlay
