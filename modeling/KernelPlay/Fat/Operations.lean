/-
**The operations `fat16_fs` offers: open, seek, read, stat, close.**

An operation takes the descriptor by its address, as `file_descriptor_t` holds it. `fat16Read` reads
its elements one after the other from the position of the descriptor.
-/

import KernelPlay.Fat.Directory

namespace KernelPlay

open KernelPlay.Library

/-- `file_stat_t`. -/
structure FileStat where
  flags : Nat
  filesize : UInt32
  deriving DecidableEq, Repr

def fileStatReadOnly : Nat := 0

/-- Status, the memory at `out` after the call, and the clusters read from. -/
structure FileRead where
  res : Int
  out : Nat → UInt8
  clusters : List Int

section Code

variable (machine : Machine) (fatPrivate : FatPrivate)

/-- A pointer, or an error code cast to one; `(int) ptr` of a pointer into the kernel heap is not
negative. -/
def fat16Open (heap : Kheap) (name : Text) (rest : List Text) (mode : FileMode) :
    Except Fault (Int × Kheap) := do
  if mode ≠ .read then return (-erdonly, heap)
  let (descriptor, heap) := Store.zalloc machine.allocator heap 8 (.fatDescriptor ⟨0, 0⟩)
  if descriptor = 0 then return (-enomem, heap)
  let (entry, heap) ← fat16GetDirectoryEntry machine fatPrivate heap name rest
  if entry = 0 then return (-eio, heap)
  return (descriptor, heap.put descriptor (.fatDescriptor ⟨entry, 0⟩))

/-- `SEEK_SET` is 0, `SEEK_CUR` 1 and `SEEK_END` 2. The offset is compared as an unsigned word. -/
def fat16Seek (heap : Kheap) (privateData : Ptr) (offset : Int) (whence : Nat) :
    Except Fault (Int × Kheap) := do
  let desc ← deref fatDescriptorKind heap privateData
  let item ← deref fatItemKind heap desc.item
  if item.type ≠ .file then return (-einvarg, heap)
  let realItem ← deref directoryItemKind heap item.ref
  if uint32 offset > realItem.filesize.toNat then return (-einvarg, heap)
  match whence with
  | 0 => return (ok, heap.put privateData (.fatDescriptor { desc with pos := uint32 offset }))
  | 1 => return (ok, heap.put privateData
      (.fatDescriptor { desc with pos := uint32 (desc.pos + offset) }))
  | 2 => return (-eunimp, heap)
  | _ => return (-einvarg, heap)

/-- `desc->item->item`, whatever the type of the item. -/
def fatItemEntry (heap : Kheap) (item : FatItem) : Except Fault FatDirectoryItem :=
  match item.type with
  | .file => deref directoryItemKind heap item.ref
  | .directory => do
    let _ ← deref fatDirectoryKind heap item.ref
    return machine.pun item.ref

/-- The loop of `fat16_read`, by the elements still to be read. -/
def fat16ReadElements (drive : Drive) (startingCluster : Int) (size : Nat) :
    Nat → Int → Nat → (Nat → UInt8) → Except Fault FileRead
  | 0, _, _, out => .ok ⟨ok, out, []⟩
  | left + 1, offset, place, out => do
    let read ← fat16ReadInternalV2 drive fatPrivate startingCluster offset (int32 size)
    let out := overwrite out place read.out
    if read.res ≠ ok then return ⟨read.res, out, read.clusters⟩
    let rest ← fat16ReadElements drive startingCluster size left (int32 (offset + size))
      (place + size) out
    return ⟨rest.res, rest.out, read.clusters ++ rest.clusters⟩

def fat16Read (heap : Kheap) (privateData : Ptr) (size nmemb : Nat) (out : Nat → UInt8) :
    Except Fault FileRead := do
  let desc ← deref fatDescriptorKind heap privateData
  let fatItem ← deref fatItemKind heap desc.item
  let item ← fatItemEntry machine heap fatItem
  let startingCluster := fat16GetFirstCluster item
  let offset := int32 desc.pos
  fat16ReadElements fatPrivate machine.drive startingCluster size nmemb offset 0 out

end Code

/-- The flags are `FILE_STAT_READ_ONLY` whatever the attribute is: it is or-ed, not tested. -/
def fat16Stat (heap : Kheap) (privateData : Ptr) : Except Fault (Int × Option FileStat) := do
  let fatDesc ← deref fatDescriptorKind heap privateData
  let item ← deref fatItemKind heap fatDesc.item
  if item.type ≠ .file then return (-einvarg, none)
  let rItem ← deref directoryItemKind heap item.ref
  let flags := if rItem.attributeByte ||| fatFileReadOnly ≠ 0 then fileStatReadOnly else 0x00
  return (ok, some ⟨flags, rItem.filesize⟩)

def fat16Close (heap : Kheap) (privateData : Ptr) : Except Fault (Int × Kheap) := do
  let fatDesc ← deref fatDescriptorKind heap privateData
  let heap ← fat16FatItemFree heap fatDesc.item
  let heap ← kheapFree fatDescriptorKind heap privateData
  return (ok, heap)

end KernelPlay
