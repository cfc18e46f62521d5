/-
**The state of the kernel: the records in the heap, the handle table, the disk.**

`Kheap` holds typed records; a pointer is read through the kind of record the code takes it to point
at, and a read or a `kheap_free` that finds no such record there is a fault. `Machine` is what the
kernel runs on: the drive, the allocator's answers and the words behind its buffers.
-/

import KernelPlay.Fat.Read
import KernelPlay.Library.Store

namespace KernelPlay

open KernelPlay.Library

/-- A C string: its characters up to the terminator. -/
structure Text where
  chars : List UInt8
  noNul : 0 ∉ chars
  deriving DecidableEq

/-- `FILE_MODE`. -/
inductive FileMode
  | read
  | write
  | append
  | invalid
  deriving DecidableEq, Repr

/-- `filesystem_t *`: the only file system is `fat16_fs`. -/
inductive Filesystem
  | fat16Fs
  deriving DecidableEq, Repr

/-- `FAT_ITEM_TYPE`; a zeroed record is a directory. -/
inductive FatItemType
  | directory
  | file
  deriving DecidableEq, Repr

/-- `fat_item_t`: `ref` is the union of the two pointers. -/
structure FatItem where
  ref : Ptr
  type : FatItemType
  deriving DecidableEq, Repr

/-- `fat_file_descriptor_t`. -/
structure FatFileDescriptor where
  item : Ptr
  pos : Nat
  deriving DecidableEq, Repr

/-- `file_descriptor_t`. -/
structure FileDescriptor where
  index : Int
  fs : Option Filesystem
  privateData : Ptr
  disk : Option DiskPtr
  deriving DecidableEq, Repr

/-- `path_part_t`: where the record and its name lie, and the name. -/
structure PathPart where
  addr : Ptr
  nameAddr : Ptr
  name : Text
  deriving DecidableEq

/-- `path_root_t`, with its chain of parts as a list. -/
structure PathRoot where
  driveNo : Int
  parts : List PathPart
  deriving DecidableEq

/-- The records the kernel allocates. -/
inductive Cell
  | pathRoot (root : PathRoot)
  | pathPart
  | name
  | fatDescriptor (descriptor : FatFileDescriptor)
  | fatItem (item : FatItem)
  | fatDirectory (directory : FatDirectory)
  | directoryItems (items : List FatDirectoryItem)
  | directoryItem (item : FatDirectoryItem)
  | fileDescriptor (descriptor : FileDescriptor)
  | diskStreamer
  | fatPrivate
  deriving DecidableEq

abbrev Kheap := Store Cell

/-- `disk_t`; the private data is kept by value. -/
structure Disk where
  id : Int
  filesystem : Option Filesystem
  fsPrivate : Option FatPrivate
  deriving DecidableEq, Repr

structure Kernel where
  heap : Kheap
  filesystems : Fin maxFilesystems → Option Filesystem
  filedescriptors : Fin maxFiledescriptors → Ptr
  rootDisk : Disk

/-- What the kernel runs on. `beyond` is what lies behind an array of directory entries, `pun` a
directory read as an entry, `below` the word in front of the handle table. -/
structure Machine where
  drive : Drive
  allocator : Allocator
  beyond : List FatDirectoryItem → Nat → FatDirectoryItem
  pun : Ptr → FatDirectoryItem
  below : Ptr

/-! ### Records behind pointers -/

/-- A kind of record, as the code casts a pointer to it. -/
structure CellKind (α : Type) where
  make : α → Cell
  view : Cell → Option α
  view_iff : ∀ cell value, view cell = some value ↔ cell = make value

def fatDescriptorKind : CellKind FatFileDescriptor where
  make := .fatDescriptor
  view
    | .fatDescriptor descriptor => some descriptor
    | _ => none
  view_iff cell value := by cases cell <;> simp

def fatItemKind : CellKind FatItem where
  make := .fatItem
  view
    | .fatItem item => some item
    | _ => none
  view_iff cell value := by cases cell <;> simp

def fatDirectoryKind : CellKind FatDirectory where
  make := .fatDirectory
  view
    | .fatDirectory directory => some directory
    | _ => none
  view_iff cell value := by cases cell <;> simp

def directoryItemsKind : CellKind (List FatDirectoryItem) where
  make := .directoryItems
  view
    | .directoryItems items => some items
    | _ => none
  view_iff cell value := by cases cell <;> simp

def directoryItemKind : CellKind FatDirectoryItem where
  make := .directoryItem
  view
    | .directoryItem item => some item
    | _ => none
  view_iff cell value := by cases cell <;> simp

def fileDescriptorKind : CellKind FileDescriptor where
  make := .fileDescriptor
  view
    | .fileDescriptor descriptor => some descriptor
    | _ => none
  view_iff cell value := by cases cell <;> simp

def diskStreamerKind : CellKind Unit where
  make _ := .diskStreamer
  view
    | .diskStreamer => some ()
    | _ => none
  view_iff cell value := by cases cell <;> simp

def fatPrivateKind : CellKind Unit where
  make _ := .fatPrivate
  view
    | .fatPrivate => some ()
    | _ => none
  view_iff cell value := by cases cell <;> simp

section Access

variable {α : Type} (kind : CellKind α) (heap : Kheap) (ptr : Ptr)

/-- `*ptr`. -/
def deref : Except Fault α :=
  match (heap.lookup ptr).bind kind.view with
  | some value => .ok value
  | none => .error (if ptr = 0 then .nullDeref else .useAfterFree)

def kheapFree : Except Fault Kheap :=
  match (heap.lookup ptr).bind kind.view with
  | some _ => .ok (heap.erase ptr)
  | none => .error .invalidFree

variable {heap ptr}

theorem deref_eq {value : α} (found : heap.lookup ptr = some (kind.make value)) :
    deref kind heap ptr = .ok value := by
  rw [deref, found, Option.bind_some, (kind.view_iff _ _).mpr rfl]

variable {kind}

theorem deref_ok_iff {value : α} :
    deref kind heap ptr = .ok value ↔ heap.lookup ptr = some (kind.make value) := by
  refine ⟨fun read => ?_, deref_eq kind⟩
  cases found : heap.lookup ptr with
  | none =>
    rw [deref, found] at read
    cases read
  | some cell =>
    rw [deref, found, Option.bind_some] at read
    cases viewed : kind.view cell with
    | none =>
      rw [viewed] at read
      cases read
    | some other =>
      rw [viewed] at read
      cases read
      rw [(kind.view_iff _ _).mp viewed]

theorem deref_missing (missing : heap.lookup ptr = none) :
    deref kind heap ptr = .error (if ptr = 0 then .nullDeref else .useAfterFree) := by
  rw [deref, missing]
  rfl

theorem kheapFree_eq (kind : CellKind α) {value : α} (found : heap.lookup ptr = some (kind.make value)) :
    kheapFree kind heap ptr = .ok (heap.erase ptr) := by
  rw [kheapFree, found, Option.bind_some, (kind.view_iff _ _).mpr rfl]

theorem kheapFree_ok {heap' : Kheap} (freed : kheapFree kind heap ptr = .ok heap') :
    (∃ value, heap.lookup ptr = some (kind.make value)) ∧ heap' = heap.erase ptr := by
  cases found : heap.lookup ptr with
  | none =>
    rw [kheapFree, found] at freed
    cases freed
  | some cell =>
    rw [kheapFree, found, Option.bind_some] at freed
    cases viewed : kind.view cell with
    | none =>
      rw [viewed] at freed
      cases freed
    | some value =>
      rw [viewed] at freed
      cases freed
      exact ⟨⟨value, congrArg some ((kind.view_iff _ _).mp viewed)⟩, rfl⟩

end Access

/-- The call `x >>= f` returned: both halves did. -/
theorem bind_ok {α β : Type} {first : Except Fault α} {next : α → Except Fault β} {result : β} :
    first >>= next = .ok result ↔ ∃ value, first = .ok value ∧ next value = .ok result := by
  cases first with
  | error fault =>
    refine ⟨fun failed => ?_, ?_⟩
    · cases failed
    · rintro ⟨_, ⟨⟩, _⟩
  | ok value =>
    refine ⟨fun returned => ⟨value, rfl, returned⟩, ?_⟩
    rintro ⟨_, ⟨⟩, returned⟩
    exact returned

theorem ok_bind {α β : Type} {value : α} {next : α → Except Fault β} :
    ((.ok value : Except Fault α) >>= next) = next value := rfl

theorem map_ok_iff {α β : Type} {first : Except Fault α} {f : α → β} {result : β} :
    first.map f = .ok result ↔ ∃ value, first = .ok value ∧ f value = result := by
  cases first with
  | error fault =>
    refine ⟨fun failed => ?_, ?_⟩
    · cases failed
    · rintro ⟨_, ⟨⟩, _⟩
  | ok value =>
    refine ⟨fun returned => ⟨value, rfl, Except.ok.inj returned⟩, ?_⟩
    rintro ⟨_, ⟨⟩, rfl⟩
    rfl

end KernelPlay
