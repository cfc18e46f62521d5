/-
**The handle table and the calls of `fs/file.c`.**

A handle is one more than the slot of its descriptor. `fileGetDescriptor` reads the word in front of
the table for handle `0`.
-/

import KernelPlay.Fat.Operations
import KernelPlay.File.Path

namespace KernelPlay

open KernelPlay.Library

def pathRootKind : CellKind PathRoot where
  make := .pathRoot
  view
    | .pathRoot root => some root
    | _ => none
  view_iff cell value := by cases cell <;> simp

/-- One slot of the table set; a number outside the table has no slot. -/
def setSlot (filedescriptors : Fin maxFiledescriptors → Ptr) (index : Int) (desc : Ptr) :
    Fin maxFiledescriptors → Ptr :=
  fun slot => if (slot : Int) = index then desc else filedescriptors slot

section Code

variable (machine : Machine) (kernel : Kernel)

/-- `memset` on the table, and the file system registered. -/
def fsInit : Kernel :=
  { kernel with
    filedescriptors := fun _ => 0
    filesystems := fun slot => if slot.val = 0 then some .fat16Fs else none }

/-- The first free slot. -/
def freeSlot (filedescriptors : Fin maxFiledescriptors → Ptr) : Option (Fin maxFiledescriptors) :=
  (List.finRange maxFiledescriptors).find? fun slot => filedescriptors slot = 0

/-- The status, the descriptor and the kernel. -/
def fileNewDescriptor : Except Fault (Int × Ptr × Kernel) :=
  match freeSlot kernel.filedescriptors with
  | none => .ok (-enomem, 0, kernel)
  | some slot =>
    let (desc, heap) := Store.zalloc machine.allocator kernel.heap 16
      (.fileDescriptor ⟨0, none, 0, none⟩)
    if desc = 0 then .error .nullDeref
    else
      .ok (0, desc,
        { kernel with
          heap := heap.put desc (.fileDescriptor ⟨(slot : Int) + 1, none, 0, none⟩)
          filedescriptors := setSlot kernel.filedescriptors slot desc })

def fileDescriptorFree (desc : Ptr) : Except Fault Kernel := do
  let record ← deref fileDescriptorKind kernel.heap desc
  let i := record.index - 1
  let heap ← kheapFree fileDescriptorKind kernel.heap desc
  return { kernel with heap := heap, filedescriptors := setSlot kernel.filedescriptors i 0 }

def fileGetDescriptor (fd : Int) : Ptr :=
  if fd < 0 ∨ fd ≥ maxFiledescriptors then 0
  else
    let index := fd - 1
    if inside : 0 ≤ index ∧ index < maxFiledescriptors then
      kernel.filedescriptors ⟨index.toNat, by omega⟩
    else machine.below

def getFileMode (s : CString) : FileMode :=
  if s.charAt 0 = 114 then .read
  else if s.charAt 0 = 119 then .write
  else if s.charAt 0 = 97 then .append
  else .invalid

/-- `disk->fs_private`. -/
def fsPrivate : Except Fault FatPrivate :=
  match kernel.rootDisk.fsPrivate with
  | some fatPrivate => .ok fatPrivate
  | none => .error .nullDeref

/-- `fopen` before its result is made a handle or `0`. -/
def fopenRes (filename modeStr : CString) : Except Fault (Int × Kernel) := do
  let (pathRoot, heap) := Store.zalloc machine.allocator kernel.heap 8 (.pathRoot ⟨0, []⟩)
  let (res, heap) ← pparserParsePathRoot machine filename heap pathRoot
  let kernel := { kernel with heap := heap }
  if res < 0 then return (res, kernel)
  let root ← deref pathRootKind heap pathRoot
  match root.parts with
  | [] => return (-einvarg, kernel)
  | part :: rest =>
    match diskGet root.driveNo with
    | none => return (-eio, kernel)
    | some disk =>
      match kernel.rootDisk.filesystem with
      | none => return (-eio, kernel)
      | some filesystem =>
        let mode := getFileMode modeStr
        if mode = .invalid then return (-einvarg, kernel)
        let fatPrivate ← fsPrivate kernel
        let (fdPrivate, heap) ← fat16Open machine fatPrivate heap part.name
          (rest.map PathPart.name) mode
        let kernel := { kernel with heap := heap }
        if fdPrivate = 0 then return (-eio, kernel)
        if fdPrivate < 0 then return (fdPrivate, kernel)
        let (res, desc, kernel) ← fileNewDescriptor machine kernel
        if res < 0 then return (res, kernel)
        let record ← deref fileDescriptorKind kernel.heap desc
        return (record.index,
          { kernel with
            heap := kernel.heap.put desc (.fileDescriptor
              { record with fs := filesystem, privateData := fdPrivate.toNat, disk := disk }) })

def fopen (filename modeStr : CString) : Except Fault (Int × Kernel) := do
  let (res, kernel) ← fopenRes machine kernel filename modeStr
  return (if res < 0 then 0 else res, kernel)

/-- `desc->fs`: a null pointer cannot be called through. -/
def descFs (record : FileDescriptor) : Except Fault Filesystem :=
  match record.fs with
  | some filesystem => .ok filesystem
  | none => .error .nullDeref

def fseek (fd offset : Int) (whence : Nat) : Except Fault (Int × Kernel) := do
  let desc := fileGetDescriptor machine kernel fd
  if desc = 0 then return (-eio, kernel)
  let record ← deref fileDescriptorKind kernel.heap desc
  let _ ← descFs record
  let (res, heap) ← fat16Seek kernel.heap record.privateData offset whence
  return (if res ≠ ok then -eio else res, { kernel with heap := heap })

/-- Nothing in the kernel changes but the memory at `out`. -/
def fread (out : Nat → UInt8) (size nmemb : Nat) (fd : Int) : Except Fault FileRead := do
  if size = 0 ∨ nmemb = 0 ∨ fd < 1 then return ⟨-einvarg, out, []⟩
  let desc := fileGetDescriptor machine kernel fd
  if desc = 0 then return ⟨-eio, out, []⟩
  let record ← deref fileDescriptorKind kernel.heap desc
  let _ ← descFs record
  let fatPrivate ← fsPrivate kernel
  fat16Read machine fatPrivate kernel.heap record.privateData size nmemb out

def fstat (fd : Int) : Except Fault (Int × Option FileStat) := do
  let desc := fileGetDescriptor machine kernel fd
  if desc = 0 then return (-eio, none)
  let record ← deref fileDescriptorKind kernel.heap desc
  let _ ← descFs record
  fat16Stat kernel.heap record.privateData

def fclose (fd : Int) : Except Fault (Int × Kernel) := do
  let desc := fileGetDescriptor machine kernel fd
  if desc = 0 then return (-eio, kernel)
  let record ← deref fileDescriptorKind kernel.heap desc
  let _ ← descFs record
  let (res, heap) ← fat16Close kernel.heap record.privateData
  let kernel := { kernel with heap := heap }
  if res ≠ ok then return (-eio, kernel)
  let kernel ← fileDescriptorFree kernel desc
  return (res, kernel)

end Code

end KernelPlay
