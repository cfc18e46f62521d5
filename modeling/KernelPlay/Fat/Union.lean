/-
**Reads of the union in `fat_item_t`.**

The driver again, with every read of a member of the union logged beside the type the item has at that
moment: `fat16SeekLogged`, … The `_erases` theorems leave out the log: what is left is the driver.
`Tagged` — the member read is the one the type names. All reads are, but that of `fat16_read`, which
does not look at the type (`fat16Read_tagged_iff`).
-/

import KernelPlay.Fat.Operations
import KernelPlay.Library.Logged

namespace KernelPlay

open KernelPlay.Library

/-- One read of the union: which member, and the type of the item. -/
structure UnionRead where
  member : FatItemType
  type : FatItemType
  deriving DecidableEq, Repr

/-- **The member read is the one the type names.** -/
def UnionRead.Tagged (read : UnionRead) : Prop := read.member = read.type

/-- A computation that reads unions. -/
abbrev Reading := Logged UnionRead Fault

/-- `item->item`. -/
def FatItem.readItem (item : FatItem) : Reading Ptr := Logged.log ⟨.file, item.type⟩ item.ref

/-- `item->directory`. -/
def FatItem.readDirectory (item : FatItem) : Reading Ptr := Logged.log ⟨.directory, item.type⟩ item.ref

section Code

variable (machine : Machine) (fatPrivate : FatPrivate)

def fat16FatItemFreeLogged (heap : Kheap) (fatItem : Ptr) : Reading Kheap := do
  let item ← deref fatItemKind heap fatItem
  let heap ←
    match item.type with
    | .directory => do
      let directory ← item.readDirectory
      fat16DirectoryFree heap directory
    | .file => do
      let entry ← item.readItem
      kheapFree directoryItemKind heap entry
  kheapFree fatItemKind heap fatItem

def fat16WalkPartsLogged : Kheap → Ptr → List Text → Reading (Ptr × Kheap)
  | heap, currentItem, [] => pure (currentItem, heap)
  | heap, currentItem, nextPart :: rest => do
    let item ← deref fatItemKind heap currentItem
    if item.type ≠ .directory then return (0, heap)
    let ref ← item.readDirectory
    let directory ← deref fatDirectoryKind heap ref
    let (tmpItem, heap) ← fat16GetItemInDirectory machine fatPrivate heap directory nextPart
    let heap ← fat16FatItemFreeLogged heap currentItem
    fat16WalkPartsLogged heap tmpItem rest

def fat16GetDirectoryEntryLogged (heap : Kheap) (name : Text) (rest : List Text) :
    Reading (Ptr × Kheap) := do
  let (rootItem, heap) ←
    fat16GetItemInDirectory machine fatPrivate heap fatPrivate.rootDirectory name
  if rootItem = 0 then return (0, heap)
  fat16WalkPartsLogged machine fatPrivate heap rootItem rest

def fat16OpenLogged (heap : Kheap) (name : Text) (rest : List Text) (mode : FileMode) :
    Reading (Int × Kheap) := do
  if mode ≠ .read then return (-erdonly, heap)
  let (descriptor, heap) := Store.zalloc machine.allocator heap 8 (.fatDescriptor ⟨0, 0⟩)
  if descriptor = 0 then return (-enomem, heap)
  let (entry, heap) ← fat16GetDirectoryEntryLogged machine fatPrivate heap name rest
  if entry = 0 then return (-eio, heap)
  return (descriptor, heap.put descriptor (.fatDescriptor ⟨entry, 0⟩))

def fat16SeekLogged (heap : Kheap) (privateData : Ptr) (offset : Int) (whence : Nat) :
    Reading (Int × Kheap) := do
  let desc ← deref fatDescriptorKind heap privateData
  let item ← deref fatItemKind heap desc.item
  if item.type ≠ .file then return (-einvarg, heap)
  let ref ← item.readItem
  let realItem ← deref directoryItemKind heap ref
  if uint32 offset > realItem.filesize.toNat then return (-einvarg, heap)
  match whence with
  | 0 => return (ok, heap.put privateData (.fatDescriptor { desc with pos := uint32 offset }))
  | 1 => return (ok, heap.put privateData
      (.fatDescriptor { desc with pos := uint32 (desc.pos + offset) }))
  | 2 => return (-eunimp, heap)
  | _ => return (-einvarg, heap)

def fat16ReadLogged (heap : Kheap) (privateData : Ptr) (size nmemb : Nat) (out : Nat → UInt8) :
    Reading FileRead := do
  let desc ← deref fatDescriptorKind heap privateData
  let fatItem ← deref fatItemKind heap desc.item
  let _ ← fatItem.readItem
  let item ← fatItemEntry machine heap fatItem
  let startingCluster := fat16GetFirstCluster item
  let offset := int32 desc.pos
  fat16ReadElements fatPrivate machine.drive startingCluster size nmemb offset 0 out

def fat16StatLogged (heap : Kheap) (privateData : Ptr) : Reading (Int × Option FileStat) := do
  let fatDesc ← deref fatDescriptorKind heap privateData
  let item ← deref fatItemKind heap fatDesc.item
  if item.type ≠ .file then return (-einvarg, none)
  let ref ← item.readItem
  let rItem ← deref directoryItemKind heap ref
  let flags := if rItem.attributeByte ||| fatFileReadOnly ≠ 0 then fileStatReadOnly else 0x00
  return (ok, some ⟨flags, rItem.filesize⟩)

def fat16CloseLogged (heap : Kheap) (privateData : Ptr) : Reading (Int × Kheap) := do
  let fatDesc ← deref fatDescriptorKind heap privateData
  let heap ← fat16FatItemFreeLogged heap fatDesc.item
  let heap ← kheapFree fatDescriptorKind heap privateData
  return (ok, heap)

end Code

/-! ### The log erased -/

section Erase

variable {machine : Machine} {fatPrivate : FatPrivate} {heap : Kheap} {ptr : Ptr}

open Logged

theorem itemFree_erases : Erases (fat16FatItemFreeLogged heap ptr) (fat16FatItemFree heap ptr) := by
  refine .lift_bind fun item => ?_
  obtain ⟨ref, type⟩ := item
  cases type with
  | directory => exact .log_bind (.lift_bind fun _ => .lift _)
  | file => exact .log_bind (.lift_bind fun _ => .lift _)

theorem walk_erases (rest : List Text) :
    Erases (fat16WalkPartsLogged machine fatPrivate heap ptr rest)
      (fat16WalkParts machine fatPrivate heap ptr rest) := by
  induction rest generalizing heap ptr with
  | nil => exact .pure _
  | cons next rest ih =>
    rw [fat16WalkPartsLogged, fat16WalkParts]
    refine .lift_bind fun item => .branch (.pure _) (.log_bind (.lift_bind fun directory => ?_))
    refine .lift_bind fun found => ?_
    exact .bind itemFree_erases fun later => ih

theorem getEntry_erases (name : Text) (rest : List Text) :
    Erases (fat16GetDirectoryEntryLogged machine fatPrivate heap name rest)
      (fat16GetDirectoryEntry machine fatPrivate heap name rest) :=
  .lift_bind fun _ => .branch (.pure _) (walk_erases rest)

theorem open_erases (name : Text) (rest : List Text) (mode : FileMode) :
    Erases (fat16OpenLogged machine fatPrivate heap name rest mode)
      (fat16Open machine fatPrivate heap name rest mode) := by
  refine .branch (.pure _) (.branch (.pure _) ?_)
  exact .bind (getEntry_erases name rest) fun _ => .branch (.pure _) (.pure _)

theorem seek_erases (offset : Int) (whence : Nat) :
    Erases (fat16SeekLogged heap ptr offset whence) (fat16Seek heap ptr offset whence) := by
  refine .lift_bind fun desc => .lift_bind fun item => .branch (.pure _) (.log_bind ?_)
  refine .lift_bind fun realItem => .branch (.pure _) ?_
  rcases whence with _ | _ | _ | whence
  · exact .pure _
  · exact .pure _
  · exact .pure _
  · exact .pure _

theorem read_erases (size nmemb : Nat) (out : Nat → UInt8) :
    Erases (fat16ReadLogged machine fatPrivate heap ptr size nmemb out)
      (fat16Read machine fatPrivate heap ptr size nmemb out) :=
  .lift_bind fun _ => .lift_bind fun _ => .log_bind (.lift_bind fun _ => .lift _)

theorem stat_erases : Erases (fat16StatLogged heap ptr) (fat16Stat heap ptr) :=
  .lift_bind fun _ => .lift_bind fun _ => .branch (.pure _) (.log_bind (.lift_bind fun _ => .pure _))

theorem close_erases : Erases (fat16CloseLogged heap ptr) (fat16Close heap ptr) :=
  .lift_bind fun _ => .bind itemFree_erases fun _ => .lift_bind fun _ => .pure _

end Erase

/-! ### The tags -/

section Tags

variable {machine : Machine} {fatPrivate : FatPrivate} {heap : Kheap} {ptr : Ptr}

open Logged

@[simp]
theorem readItem_tagged_iff (item : FatItem) : item.readItem.Meets UnionRead.Tagged ↔ item.type = .file := by
  rw [FatItem.readItem, meets_log_iff]
  exact eq_comm

@[simp]
theorem readDirectory_tagged_iff (item : FatItem) :
    item.readDirectory.Meets UnionRead.Tagged ↔ item.type = .directory := by
  rw [FatItem.readDirectory, meets_log_iff]
  exact eq_comm

theorem itemFree_tagged : (fat16FatItemFreeLogged heap ptr).Meets UnionRead.Tagged := by
  refine meets_lift_bind_iff.mpr fun item _ => ?_
  obtain ⟨ref, type⟩ := item
  cases type with
  | directory => simp [meets_bind_iff]
  | file => simp [meets_bind_iff]

/-- A walk reads directories only where the type says so, by induction on the parts. -/
theorem walk_tagged (rest : List Text) :
    (fat16WalkPartsLogged machine fatPrivate heap ptr rest).Meets UnionRead.Tagged := by
  induction rest generalizing heap ptr with
  | nil => exact meets_pure _
  | cons next rest ih =>
    rw [fat16WalkPartsLogged]
    refine meets_lift_bind_iff.mpr fun item _ => ?_
    by_cases directory : item.type = .directory
    · simp [directory, meets_bind_iff, itemFree_tagged, ih]
    · simp [directory]

theorem getEntry_tagged (name : Text) (rest : List Text) :
    (fat16GetDirectoryEntryLogged machine fatPrivate heap name rest).Meets UnionRead.Tagged := by
  refine meets_lift_bind_iff.mpr fun found _ => ?_
  obtain ⟨rootItem, heap⟩ := found
  by_cases null : rootItem = 0
  · simp [null]
  · simp [null, walk_tagged]

theorem open_tagged (name : Text) (rest : List Text) (mode : FileMode) :
    (fat16OpenLogged machine fatPrivate heap name rest mode).Meets UnionRead.Tagged := by
  unfold fat16OpenLogged
  by_cases reading : mode = .read
  swap
  · simp [reading]
  rcases Store.zalloc machine.allocator heap 8 (.fatDescriptor ⟨0, 0⟩) with ⟨descriptor, described⟩
  by_cases null : descriptor = 0
  · simp [reading, null]
  simp only [reading, null, ne_eq, not_true, if_false]
  refine meets_bind (getEntry_tagged name rest) fun found _ => ?_
  obtain ⟨entry, later⟩ := found
  by_cases missing : entry = 0
  · simp [missing]
  · simp [missing]

theorem seek_tagged (offset : Int) (whence : Nat) :
    (fat16SeekLogged heap ptr offset whence).Meets UnionRead.Tagged := by
  refine meets_lift_bind_iff.mpr fun desc _ => meets_lift_bind_iff.mpr fun item _ => ?_
  by_cases file : item.type = .file
  swap
  · simp [file]
  simp only [file, ne_eq, not_true, if_false]
  refine meets_bind ((readItem_tagged_iff item).mpr file) fun ref _ =>
    meets_lift_bind_iff.mpr fun realItem _ => ?_
  by_cases large : uint32 offset > realItem.filesize.toNat
  · simp [large]
  · simp only [large, if_false]
    split <;> exact meets_pure _

theorem stat_tagged : (fat16StatLogged heap ptr).Meets UnionRead.Tagged := by
  refine meets_lift_bind_iff.mpr fun desc _ => meets_lift_bind_iff.mpr fun item _ => ?_
  by_cases file : item.type = .file
  · simp [file, meets_bind_iff]
  · simp [file]

theorem close_tagged : (fat16CloseLogged heap ptr).Meets UnionRead.Tagged := by
  refine meets_lift_bind_iff.mpr fun desc _ => ?_
  simp [meets_bind_iff, itemFree_tagged]

/-- **A read is right about the type** exactly if the item is a file. -/
theorem fat16Read_tagged_iff {size nmemb : Nat} {out : Nat → UInt8} :
    (fat16ReadLogged machine fatPrivate heap ptr size nmemb out).Meets UnionRead.Tagged ↔
      ∀ desc item, heap.lookup ptr = some (.fatDescriptor desc) →
        heap.lookup desc.item = some (.fatItem item) → item.type = .file := by
  constructor
  · intro tagged desc item described shown
    have first := meets_lift_bind_iff.mp tagged desc (deref_ok_iff.mpr described)
    have second := meets_lift_bind_iff.mp first item (deref_ok_iff.mpr shown)
    exact (readItem_tagged_iff item).mp (meets_bind_iff.mp second).1
  · intro file
    refine meets_lift_bind_iff.mpr fun desc described => meets_lift_bind_iff.mpr fun item shown => ?_
    have type := file desc item (deref_ok_iff.mp described) (deref_ok_iff.mp shown)
    simp [meets_bind_iff, type]

end Tags

end KernelPlay
