/-
**Directories of `fs/fat/fat16.c`: counting, loading, looking up, walking a path.**

The functions take the private data of the mounted volume and the heap, and return their result with
the heap after the call. `FatDirectoryItem`s are read out of the record behind `directory->item`;
behind its end they are whatever the machine has there.
-/

import KernelPlay.Fat.Name

namespace KernelPlay

open KernelPlay.Library

section Code

variable (machine : Machine) (fatPrivate : FatPrivate)

/-! ### Loading -/

/-- The positions of the stream repeat after this many entries. -/
def directoryTurns : Nat := 134217728

def fat16CountItems (drive : Drive) : Nat → DiskStreamer → Int → Except Fault Int
  | 0, _, _ => .error .diverges
  | turns + 1, ds, count =>
    let read := diskStreamerReadBytes drive ds 32
    if read.res ≠ ok then .ok (-eio)
    else if read.bytes.getD 0 0 = 0x00 then .ok count
    else if read.bytes.getD 0 0 = 0xE5 then fat16CountItems drive turns read.streamer count
    else fat16CountItems drive turns read.streamer (int32 (count + 1))

def sectorPosToBytesOffset (sectorPos : Int) : Int := int32 (diskSectorSize * sectorPos)

def fat16GetTotalItemsForDirectory (drive : Drive) (dirSectorPos : Int) : Except Fault Int :=
  let ds := diskStreamerSeekPos fatPrivate.directoryStream (sectorPosToBytesOffset dirSectorPos)
  fat16CountItems drive directoryTurns ds 0

/-- Both frees of `fat16_directory_free`; a null pointer is left alone. -/
def fat16DirectoryFree (heap : Kheap) (directory : Ptr) : Except Fault Kheap := do
  if directory = 0 then return heap
  let record ← deref fatDirectoryKind heap directory
  let heap ← if record.item ≠ 0 then kheapFree directoryItemsKind heap record.item else pure heap
  kheapFree fatDirectoryKind heap directory

def fat16FatItemFree (heap : Kheap) (fatItem : Ptr) : Except Fault Kheap := do
  let item ← deref fatItemKind heap fatItem
  let heap ←
    match item.type with
    | .directory => fat16DirectoryFree heap item.ref
    | .file => kheapFree directoryItemKind heap item.ref
  kheapFree fatItemKind heap fatItem

/-- The number of entries a buffer of `size` bytes holds. -/
def entriesOf (size : Int) : Nat := uint32 size / 32

/-- `fat16_load_fat_directory` from the count of the entries on. After a failed read the pointer
returned is the one just freed. -/
def fat16LoadItems (heap : Kheap) (directory : Ptr) (cluster totalItems : Int) :
    Except Fault (Ptr × Kheap) := do
  let directorySize := int32 (totalItems * 32)
  let (items, heap) := Store.zalloc machine.allocator heap (uint32 directorySize)
    (.directoryItems (FatDirectoryItem.parseAll (entriesOf directorySize) []))
  let heap := heap.put directory (.fatDirectory ⟨items, totalItems, 0, 0⟩)
  if items = 0 then
    let heap ← fat16DirectoryFree heap directory
    return (directory, heap)
  let read ← fat16ReadInternalV2 machine.drive fatPrivate cluster 0 directorySize
  let heap := heap.put items
    (.directoryItems (FatDirectoryItem.parseAll (entriesOf directorySize) read.out))
  if read.res ≠ ok then
    let heap ← fat16DirectoryFree heap directory
    return (directory, heap)
  let startingSector := fat16ClusterToSector fatPrivate cluster
  let totalSectors := directorySize.tdiv diskSectorSize +
    if directorySize.tmod diskSectorSize ≠ 0 then 1 else 0
  let endingSectorPos := int32 (startingSector + totalSectors)
  return (directory,
    heap.put directory (.fatDirectory ⟨items, totalItems, startingSector, endingSectorPos⟩))

def fat16LoadFatDirectory (heap : Kheap) (item : FatDirectoryItem) : Except Fault (Ptr × Kheap) := do
  if item.attributeByte &&& fatFileSubdirectory = 0 then return (0, heap)
  let (directory, heap) := Store.zalloc machine.allocator heap 16 (.fatDirectory ⟨0, 0, 0, 0⟩)
  if directory = 0 then return (0, heap)
  let cluster := fat16GetFirstCluster item
  let clusterSector := fat16ClusterToSector fatPrivate cluster
  let totalItems ← fat16GetTotalItemsForDirectory fatPrivate machine.drive clusterSector
  fat16LoadItems machine fatPrivate heap directory cluster totalItems

def fat16CloneDirectoryItem (heap : Kheap) (item : FatDirectoryItem) : Ptr × Kheap :=
  Store.zalloc machine.allocator heap 32 (.directoryItem item)

def fat16NewFatItemForDirectoryItem (heap : Kheap) (directoryItem : FatDirectoryItem) :
    Except Fault (Ptr × Kheap) := do
  let (item, heap) := Store.zalloc machine.allocator heap 8 (.fatItem ⟨0, .directory⟩)
  if item = 0 then return (0, heap)
  if directoryItem.attributeByte &&& fatFileSubdirectory ≠ 0 then
    let (directory, heap) ← fat16LoadFatDirectory machine fatPrivate heap directoryItem
    return (item, heap.put item (.fatItem ⟨directory, .directory⟩))
  let (copy, heap) := fat16CloneDirectoryItem machine heap directoryItem
  return (item, heap.put item (.fatItem ⟨copy, .file⟩))

/-! ### Looking up -/

/-- `directory->item[index]`. -/
def directoryEntry (heap : Kheap) (directory : FatDirectory) (index : Nat) :
    Except Fault FatDirectoryItem := do
  let items ← deref directoryItemsKind heap directory.item
  return (items[index]?).getD (machine.beyond items index)

/-- The loop by the entries still ahead. -/
def fat16FindItem (heap : Kheap) (directory : FatDirectory) (path : Text) :
    Nat → Nat → Except Fault (Ptr × Kheap)
  | 0, _ => .ok (0, heap)
  | left + 1, index => do
    let entry ← directoryEntry machine heap directory index
    if istrncmp (fat16GetFullRelativeFilename entry) path.chars 100 = 0 then
      fat16NewFatItemForDirectoryItem machine fatPrivate heap entry
    else fat16FindItem heap directory path left (index + 1)

def fat16GetItemInDirectory (heap : Kheap) (directory : FatDirectory) (path : Text) :
    Except Fault (Ptr × Kheap) :=
  fat16FindItem machine fatPrivate heap directory path directory.total.toNat 0

/-- The loop of `fat16_get_directory_entry`, by the parts still ahead. -/
def fat16WalkParts : Kheap → Ptr → List Text → Except Fault (Ptr × Kheap)
  | heap, currentItem, [] => .ok (currentItem, heap)
  | heap, currentItem, nextPart :: rest => do
    let item ← deref fatItemKind heap currentItem
    if item.type ≠ .directory then return (0, heap)
    let directory ← deref fatDirectoryKind heap item.ref
    let (tmpItem, heap) ← fat16GetItemInDirectory machine fatPrivate heap directory nextPart
    let heap ← fat16FatItemFree heap currentItem
    fat16WalkParts heap tmpItem rest

def fat16GetDirectoryEntry (heap : Kheap) (name : Text) (rest : List Text) :
    Except Fault (Ptr × Kheap) := do
  let (rootItem, heap) ←
    fat16GetItemInDirectory machine fatPrivate heap fatPrivate.rootDirectory name
  if rootItem = 0 then return (0, heap)
  fat16WalkParts machine fatPrivate heap rootItem rest

end Code

end KernelPlay
