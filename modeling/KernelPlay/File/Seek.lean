/-
**`fseek` of a regular file.**

`fat16_seek` compares its offset with the file size before it looks at the whence, as an unsigned word,
and a relative seek then adds it to the position. `seekResult` is what one call does to the position
(`fseek_moves`); `SeekContract` is what callers rely on. A call keeps to it exactly if it meets
`SeekFits` (`seekContract_iff`), and a run of calls if all its calls do (`seeks_hold_iff`). A relative
seek backwards in a small file is refused (`seeks_fail`).
-/

import KernelPlay.File.Read
import KernelPlay.Library.Runs

namespace KernelPlay

open KernelPlay.Library

/-- A call of `fseek`: its offset, an `int`, its whence, and the status it returned. -/
structure Seek where
  offset : Int
  whence : Nat
  res : Int

def SeekStep (machine : Machine) (fd : Int) (kernel : Kernel) (seek : Seek) (kernel' : Kernel) : Prop :=
  (-2147483648 ≤ seek.offset ∧ seek.offset < 2147483648) ∧
    fseek machine kernel fd seek.offset seek.whence = .ok (seek.res, kernel')

/-- The status of a call and the position it leaves, from the size of the file and the position. -/
def seekResult (filesize pos : Nat) (offset : Int) (whence : Nat) : Int × Nat :=
  if uint32 offset > filesize then (-eio, pos)
  else
    match whence with
    | 0 => (ok, uint32 offset)
    | 1 => (ok, uint32 (pos + offset))
    | _ => (-eio, pos)

/-- The position a call asks for: from the start of the file, or from the position. -/
inductive SeeksTo (pos : Nat) (offset : Int) : Nat → Int → Prop
  | set : SeeksTo pos offset 0 offset
  | cur : SeeksTo pos offset 1 (pos + offset)

/-- **What callers rely on**: the position stays inside the file, a position inside the file is
reached, a call that fails leaves the position. -/
structure SeekContract (filesize pos : Nat) (offset : Int) (whence : Nat) (res : Int) (pos' : Nat) :
    Prop where
  within : pos' ≤ filesize
  reaches : ∀ target, SeeksTo pos offset whence target → 0 ≤ target → target ≤ filesize →
    res = ok ∧ (pos' : Int) = target
  keeps : res ≠ ok → pos' = pos

/-- **The calls that keep to it**: a relative seek forwards that is refused, stays inside the file or
wraps around; a relative seek backwards in a file so long that the negative offset, as a word, is no
larger. -/
def SeekFits (filesize pos : Nat) (offset : Int) (whence : Nat) : Prop :=
  whence = 1 →
    if 0 ≤ offset then (filesize : Int) < offset ∨ pos + offset ≤ filesize ∨ 4294967296 ≤ pos + offset
    else if 0 ≤ pos + offset then 4294967296 + offset ≤ filesize
    else (filesize : Int) < 4294967296 + offset ∨ pos + (4294967296 + offset) ≤ filesize

instance (filesize pos : Nat) (offset : Int) (whence : Nat) :
    Decidable (SeekFits filesize pos offset whence) := by
  unfold SeekFits
  infer_instance

/-! ### One call -/

section Call

variable {machine : Machine} {kernel kernel' : Kernel} {fd : Int} {fatPrivate : FatPrivate}
  {entry : FatDirectoryItem} {pos pos' filesize whence : Nat} {offset res : Int}

/-- The position of an open file is that of its descriptor. -/
theorem OpenFile.pos_unique (handle : OpenFile machine kernel fd fatPrivate entry pos)
    (handle' : OpenFile machine kernel fd fatPrivate entry pos') : pos = pos' := by
  obtain ⟨record, _, _, -, found, -, descriptor, -⟩ := handle.opened
  obtain ⟨record', _, _, -, found', -, descriptor', -⟩ := handle'.opened
  cases found.symm.trans found'
  cases descriptor.symm.trans descriptor'
  rfl

/-- The descriptor of an open file with another position. -/
theorem OpenFile.move {record : FileDescriptor} {item : Ptr} {kernel' : Kernel}
    (handle : OpenFile machine kernel fd fatPrivate entry pos)
    (found : kernel.heap.lookup (fileGetDescriptor machine kernel fd) = some (.fileDescriptor record))
    (descriptor : kernel.heap.lookup record.privateData = some (.fatDescriptor ⟨item, pos⟩))
    (after : kernel' =
      { kernel with heap := kernel.heap.put record.privateData (.fatDescriptor ⟨item, pos'⟩) }) :
    OpenFile machine kernel' fd fatPrivate entry pos' := by
  subst after
  obtain ⟨record', item', ref, nonnull, found', fs, descriptor', item_found, ref_found⟩ := handle.opened
  cases found.symm.trans found'
  cases descriptor.symm.trans descriptor'
  have elsewhere {ptr : Ptr} {cell : Cell} (lookup : kernel.heap.lookup ptr = some cell)
      (other : cell ≠ .fatDescriptor ⟨item, pos⟩) :
      (kernel.heap.put record.privateData (.fatDescriptor ⟨item, pos'⟩)).lookup ptr = some cell := by
    rw [Store.lookup_put_ne, lookup]
    rintro rfl
    exact other (Option.some.inj (lookup.symm.trans descriptor))
  exact ⟨handle.positive, handle.mounted, record, item, ref, nonnull, elsewhere found nofun, fs,
    Store.lookup_put_self, elsewhere item_found nofun, elsewhere ref_found nofun⟩

/-- **One call of `fseek` on an open file.** -/
theorem fseek_moves (handle : OpenFile machine kernel fd fatPrivate entry pos) (offset : Int)
    (whence : Nat) :
    ∃ kernel', fseek machine kernel fd offset whence =
        .ok ((seekResult entry.filesize.toNat pos offset whence).1, kernel') ∧
      OpenFile machine kernel' fd fatPrivate entry
        (seekResult entry.filesize.toNat pos offset whence).2 := by
  obtain ⟨record, item, ref, nonnull, found, fs, descriptor, item_found, ref_found⟩ := handle.opened
  have descriptor_read := deref_eq fatDescriptorKind descriptor
  have item_read := deref_eq fatItemKind item_found
  have entry_read := deref_eq directoryItemKind ref_found
  have file : ¬ (FatItemType.file ≠ .file) := not_not.mpr rfl
  unfold fseek
  dsimp only
  rw [if_neg nonnull, deref_eq fileDescriptorKind found, ok_bind, descFs, fs]
  dsimp only
  rw [ok_bind]
  unfold fat16Seek seekResult
  rw [descriptor_read, ok_bind, item_read, ok_bind]
  dsimp only
  rw [if_neg file, entry_read, ok_bind]
  by_cases long : uint32 offset > entry.filesize.toNat
  · rw [if_pos long, if_pos long]
    exact ⟨kernel, rfl, handle⟩
  rw [if_neg long, if_neg long]
  rcases whence with _ | _ | _ | _
  · exact ⟨_, rfl, handle.move found descriptor rfl⟩
  · exact ⟨_, rfl, handle.move found descriptor rfl⟩
  · exact ⟨kernel, rfl, handle⟩
  · exact ⟨kernel, rfl, handle⟩

/-- A step is the call of `fseek_moves`. -/
theorem SeekStep.moves {seek : Seek} (handle : OpenFile machine kernel fd fatPrivate entry pos)
    (step : SeekStep machine fd kernel seek kernel') :
    seek.res = (seekResult entry.filesize.toNat pos seek.offset seek.whence).1 ∧
      OpenFile machine kernel' fd fatPrivate entry
        (seekResult entry.filesize.toNat pos seek.offset seek.whence).2 := by
  obtain ⟨after, result, opened⟩ := fseek_moves handle seek.offset seek.whence
  have same := Except.ok.inj (step.2.symm.trans result)
  rw [Prod.mk.injEq] at same
  obtain ⟨res, rfl⟩ := same
  exact ⟨res, opened⟩

/-- The offset as a word. -/
theorem uint32_offset (low : -2147483648 ≤ offset) (high : offset < 2147483648) :
    (uint32 offset : Int) = if 0 ≤ offset then offset else 4294967296 + offset := by
  unfold uint32
  split_ifs <;> omega

/-- An absolute seek keeps to it. -/
theorem seekContract_set (inside : pos ≤ filesize) (low : -2147483648 ≤ offset)
    (high : offset < 2147483648) :
    SeekContract filesize pos offset 0 (seekResult filesize pos offset 0).1
      (seekResult filesize pos offset 0).2 := by
  have word := uint32_offset low high
  unfold seekResult
  by_cases long : uint32 offset > filesize
  · rw [if_pos long]
    refine ⟨inside, fun target seeks positive fits => ?_, fun _ => rfl⟩
    cases seeks
    rw [if_pos positive] at word
    omega
  · rw [if_neg long]
    refine ⟨not_lt.mp long, fun target seeks positive fits => ?_, fun failed => absurd rfl failed⟩
    cases seeks
    rw [if_pos positive] at word
    exact ⟨rfl, word⟩

/-- A relative seek keeps to it exactly if it fits. -/
theorem seekContract_cur_iff (size : filesize < 4294967296) (inside : pos ≤ filesize)
    (low : -2147483648 ≤ offset) (high : offset < 2147483648) :
    SeekContract filesize pos offset 1 (seekResult filesize pos offset 1).1
        (seekResult filesize pos offset 1).2 ↔ SeekFits filesize pos offset 1 := by
  have word := uint32_offset low high
  have wrapped : uint32 (pos + offset) = (pos + offset) % 4294967296 := by
    unfold uint32
    omega
  by_cases long : uint32 offset > filesize
  · have refused : seekResult filesize pos offset 1 = (-eio, pos) := if_pos long
    rw [refused]
    refine ⟨fun kept _ => ?_, fun fits => ⟨inside, fun target seeks positive fits_target => ?_,
      fun _ => rfl⟩⟩
    · have reaches := kept.reaches _ .cur
      split_ifs at word ⊢ with forwards backwards
      · omega
      · have accepted : -eio = ok := (reaches (by omega) (by omega)).1
        exact absurd accepted (by decide)
      · omega
    · cases seeks
      have fits := fits rfl
      split_ifs at word fits <;> omega
  · have moved : seekResult filesize pos offset 1 = (ok, uint32 (pos + offset)) := if_neg long
    rw [moved]
    refine ⟨fun kept _ => ?_, fun fits => ⟨?_, fun target seeks positive fits_target => ⟨rfl, ?_⟩,
      fun failed => absurd rfl failed⟩⟩
    · have within : uint32 (pos + offset) ≤ filesize := kept.within
      split_ifs at word ⊢ <;> omega
    · have fits := fits rfl
      show uint32 (pos + offset) ≤ filesize
      split_ifs at word fits <;> omega
    · cases seeks
      show (uint32 (pos + offset) : Int) = pos + offset
      omega

/-- A call with another whence fails and keeps to it. -/
theorem seekContract_other (inside : pos ≤ filesize) :
    SeekContract filesize pos offset (whence + 2) (seekResult filesize pos offset (whence + 2)).1
      (seekResult filesize pos offset (whence + 2)).2 := by
  have fails : seekResult filesize pos offset (whence + 2) = (-eio, pos) := ite_self _
  rw [fails]
  exact ⟨inside, nofun, fun _ => rfl⟩

/-- **A call keeps to what callers rely on** exactly if it fits. -/
theorem seekContract_iff (size : filesize < 4294967296) (inside : pos ≤ filesize)
    (low : -2147483648 ≤ offset) (high : offset < 2147483648) :
    SeekContract filesize pos offset whence (seekResult filesize pos offset whence).1
        (seekResult filesize pos offset whence).2 ↔
      SeekFits filesize pos offset whence := by
  match whence with
  | 0 => exact ⟨fun _ => nofun, fun _ => seekContract_set inside low high⟩
  | 1 => exact seekContract_cur_iff size inside low high
  | whence + 2 => exact ⟨fun _ => nofun, fun _ => seekContract_other inside⟩

end Call

/-! ### Runs of calls -/

section Run

variable (machine : Machine) (fd : Int) (fatPrivate : FatPrivate) (entry : FatDirectoryItem)

/-- A call on the file that keeps to what callers rely on. -/
def ContractStep (kernel : Kernel) (seek : Seek) (kernel' : Kernel) : Prop :=
  SeekStep machine fd kernel seek kernel' ∧
    ∀ pos pos', OpenFile machine kernel fd fatPrivate entry pos →
      OpenFile machine kernel' fd fatPrivate entry pos' →
      SeekContract entry.filesize.toNat pos seek.offset seek.whence seek.res pos'

/-- The call fits the position the file has before it. -/
def FittingSeek (kernel : Kernel) (seek : Seek) : Prop :=
  ∀ pos, OpenFile machine kernel fd fatPrivate entry pos →
    SeekFits entry.filesize.toNat pos seek.offset seek.whence

variable {machine fd fatPrivate entry} {kernel kernel' last : Kernel} {pos : Nat} {seek : Seek}
  {seeks : List Seek}

/-- Calls on an open file return. -/
theorem seeks_return :
    ∀ (requests : List (Int × Nat)) {kernel : Kernel} {pos : Nat},
      OpenFile machine kernel fd fatPrivate entry pos →
      (∀ request ∈ requests, -2147483648 ≤ request.1 ∧ request.1 < 2147483648) →
      ∃ seeks last, seeks.map (fun seek => (seek.offset, seek.whence)) = requests ∧
        Run (SeekStep machine fd) kernel seeks last
  | [], kernel, _, _, _ => ⟨[], kernel, rfl, .done kernel⟩
  | (offset, whence) :: requests, kernel, pos, handle, ints => by
      obtain ⟨kernel', returns, handle'⟩ := fseek_moves handle offset whence
      obtain ⟨seeks, last, same, run⟩ := seeks_return requests handle' fun request member =>
        ints request (List.mem_cons_of_mem _ member)
      exact ⟨⟨offset, whence, _⟩ :: seeks, last, by rw [List.map_cons, same],
        .step ⟨ints _ List.mem_cons_self, returns⟩ run⟩

/-- One call keeps to it exactly if it fits. -/
theorem contractStep_iff (handle : OpenFile machine kernel fd fatPrivate entry pos)
    (inside : pos ≤ entry.filesize.toNat) (step : SeekStep machine fd kernel seek kernel') :
    ContractStep machine fd fatPrivate entry kernel seek kernel' ↔
      FittingSeek machine fd fatPrivate entry kernel seek := by
  obtain ⟨res, handle'⟩ := step.moves handle
  have call := @seekContract_iff pos entry.filesize.toNat seek.whence seek.offset
    entry.filesize.toNat_lt inside step.1.1 step.1.2
  rw [← res] at call
  refine ⟨fun kept other opened => ?_, fun fits => ⟨step, fun other other' opened opened' => ?_⟩⟩
  · rw [← handle.pos_unique opened]
    exact call.mp (kept.2 _ _ handle handle')
  · rw [← handle.pos_unique opened, ← handle'.pos_unique opened']
    exact call.mpr (fits _ handle)

/-- **A run of calls keeps to it** exactly if each of its calls fits. -/
theorem contract_run_iff (run : Run (SeekStep machine fd) kernel seeks last) :
    ∀ {pos : Nat}, OpenFile machine kernel fd fatPrivate entry pos → pos ≤ entry.filesize.toNat →
      (Run (ContractStep machine fd fatPrivate entry) kernel seeks last ↔
        Run (Guarded (FittingSeek machine fd fatPrivate entry) (SeekStep machine fd)) kernel seeks last) := by
  induction run with
  | done state => exact fun _ _ => ⟨fun _ => .done state, fun _ => .done state⟩
  | step one _ ih =>
    intro pos handle inside
    have call := contractStep_iff handle inside one
    obtain ⟨-, handle'⟩ := one.moves handle
    refine ⟨fun kept => ?_, fun fitting => ?_⟩
    · cases kept with
      | step first rest =>
        cases Except.ok.inj (first.1.2.symm.trans one.2)
        exact .step ⟨call.mp first, one⟩ ((ih handle' (first.2 _ _ handle handle').within).mp rest)
    · cases fitting with
      | step first rest =>
        cases Except.ok.inj (first.2.2.symm.trans one.2)
        have kept := call.mpr first.1
        exact .step kept ((ih handle' (kept.2 _ _ handle handle').within).mpr rest)

/-- **A sequence of `fseek` calls on a fresh handle** returns, and keeps to what callers rely on exactly
if each of its calls fits. -/
theorem seeks_hold_iff (fresh : OpenFile machine kernel fd fatPrivate entry 0)
    (requests : List (Int × Nat))
    (ints : ∀ request ∈ requests, -2147483648 ≤ request.1 ∧ request.1 < 2147483648) :
    ∃ seeks last, seeks.map (fun seek => (seek.offset, seek.whence)) = requests ∧
      Run (SeekStep machine fd) kernel seeks last ∧
      (Run (ContractStep machine fd fatPrivate entry) kernel seeks last ↔
        Run (Guarded (FittingSeek machine fd fatPrivate entry) (SeekStep machine fd)) kernel seeks last) := by
  obtain ⟨seeks, last, same, run⟩ := seeks_return requests fresh ints
  exact ⟨seeks, last, same, run, contract_run_iff run fresh (Nat.zero_le _)⟩

end Run

section Small

/-- Two bytes into the file, and one more. -/
theorem seeks_hold_iff_forwards :
    ∃ seeks last, seeks.map (fun seek => (seek.offset, seek.whence)) = [(2, 0), (1, 1)] ∧
      Run (SeekStep (smallMachine smallDrive) 1) smallKernel seeks last ∧
      (Run (ContractStep (smallMachine smallDrive) 1 smallPrivate (smallEntry 2 0 3)) smallKernel seeks
          last ↔
        Run (Guarded (FittingSeek (smallMachine smallDrive) 1 smallPrivate (smallEntry 2 0 3))
          (SeekStep (smallMachine smallDrive) 1)) smallKernel seeks last) :=
  seeks_hold_iff small_open [(2, 0), (1, 1)] (by decide)

/-- One byte back from the second is refused. -/
theorem seeks_fail :
    ∃ last, Run (SeekStep (smallMachine smallDrive) 1) smallKernel [⟨2, 0, ok⟩, ⟨-1, 1, -eio⟩] last ∧
      ¬ Run (ContractStep (smallMachine smallDrive) 1 smallPrivate (smallEntry 2 0 3)) smallKernel
        [⟨2, 0, ok⟩, ⟨-1, 1, -eio⟩] last := by
  have size : (smallEntry 2 0 3).filesize.toNat = 3 := by decide
  obtain ⟨middle, first, at_two⟩ := fseek_moves small_open 2 0
  rw [size, show seekResult 3 0 2 0 = (ok, 2) by decide] at first at_two
  obtain ⟨last, second, at_two'⟩ := fseek_moves at_two (-1) 1
  rw [size, show seekResult 3 2 (-1) 1 = (-eio, 2) by decide] at second at_two'
  have run : Run (SeekStep (smallMachine smallDrive) 1) smallKernel [⟨2, 0, ok⟩, ⟨-1, 1, -eio⟩] last :=
    .step ⟨by decide, first⟩ (.step ⟨by decide, second⟩ (.done last))
  refine ⟨last, run, fun kept => ?_⟩
  cases kept with
  | step one rest =>
    cases Except.ok.inj (one.1.2.symm.trans first)
    cases rest with
    | step two _ =>
      cases Except.ok.inj (two.1.2.symm.trans second)
      have kept := two.2 2 2 at_two at_two'
      rw [size] at kept
      exact absurd (kept.reaches _ .cur (by decide) (by decide)).1 (by decide)

end Small

end KernelPlay
