/-
**Mounting: `fat16_resolve`.**

`Mounted` — the private data describes the volume whose header lies at the start of the drive.
`fat16Resolve_mounted` — a mount that succeeds leaves the disk so. On a mounted volume the driver's
cluster arithmetic is the one of the header (`fat16ClusterToSector_eq`), and the clusters of a chain
have their bytes where the volume has them (`clusterContents_eq`).
-/

import KernelPlay.Fat.Directory
import KernelPlay.Fat.EndOfChain

namespace KernelPlay

open KernelPlay.Library

section Code

variable (machine : Machine)

def kernelFat16Signature : UInt8 := 0x29

/-- A null pointer is written through when the allocator has nothing left. -/
def diskStreamerNew (heap : Kheap) (diskId : Int) :
    Except Fault (Option (Ptr × DiskStreamer) × Kheap) :=
  match diskGet diskId with
  | none => .ok (none, heap)
  | some disk =>
    let (streamer, heap) := Store.zalloc machine.allocator heap 8 .diskStreamer
    if streamer = 0 then .error .nullDeref else .ok (some (streamer, ⟨0, disk⟩), heap)

def diskStreamerClose (heap : Kheap) (streamer : Ptr) : Except Fault Kheap :=
  kheapFree diskStreamerKind heap streamer

/-- The three streams, or nothing for `-EIO`. -/
def fat16InitPrivate (heap : Kheap) (diskId : Int) :
    Except Fault (Option (DiskStreamer × DiskStreamer × DiskStreamer) × Kheap) := do
  let (clusterReadStream, heap) ← diskStreamerNew machine heap diskId
  match clusterReadStream with
  | none => return (none, heap)
  | some (_, clusterReadStream) =>
    let (fatReadStream, heap) ← diskStreamerNew machine heap diskId
    match fatReadStream with
    | none => return (none, heap)
    | some (_, fatReadStream) =>
      let (directoryStream, heap) ← diskStreamerNew machine heap diskId
      match directoryStream with
      | none => return (none, heap)
      | some (_, directoryStream) =>
        return (some (clusterReadStream, fatReadStream, directoryStream), heap)

/-- The status, the directory and the heap. -/
def fat16GetRootDirectory (fatPrivate : FatPrivate) (heap : Kheap) :
    Except Fault (Int × FatDirectory × Kheap) := do
  let header := fatPrivate.header
  let rootDirSectorPos : Int := header.fatCopies.toNat * header.sectorsPerFat.toNat +
    header.reservedSectors.toNat
  let rootDirEntries : Int := header.rootDirEntries.toNat
  let rootDirSize := rootDirEntries * 32
  let totalSectors := rootDirSize.tdiv diskSectorSize +
    if rootDirSize.tmod diskSectorSize ≠ 0 then 1 else 0
  let totalItems ← fat16GetTotalItemsForDirectory fatPrivate machine.drive rootDirSectorPos
  if totalItems < 0 then return (-eio, fatPrivate.rootDirectory, heap)
  let (rootDirItems, heap) := Store.zalloc machine.allocator heap rootDirSize.toNat
    (.directoryItems (FatDirectoryItem.parseAll header.rootDirEntries.toNat []))
  if rootDirItems = 0 then return (-enomem, fatPrivate.rootDirectory, heap)
  let ds := diskStreamerSeekPos fatPrivate.directoryStream (sectorPosToBytesOffset rootDirSectorPos)
  let read := diskStreamerReadBytes machine.drive ds rootDirSize
  if read.res ≠ ok then return (-eio, fatPrivate.rootDirectory, heap)
  return (0, ⟨rootDirItems, totalItems, rootDirSectorPos, rootDirSectorPos + totalSectors⟩,
    heap.put rootDirItems
      (.directoryItems (FatDirectoryItem.parseAll header.rootDirEntries.toNat read.bytes)))

/-- `fat16_resolve` from the read of the header to its label `out`. -/
def fat16ReadVolume (heap : Kheap) (fatPrivate : FatPrivate) (diskStream : DiskStreamer) :
    Except Fault (Int × FatPrivate × Kheap) := do
  let read := diskStreamerReadBytes machine.drive diskStream 62
  let fatPrivate := { fatPrivate with header := FatHeader.parse read.bytes }
  if read.res ≠ ok then return (-eio, fatPrivate, heap)
  if fatPrivate.header.signature ≠ kernelFat16Signature then return (-efsnotus, fatPrivate, heap)
  let (res, rootDirectory, heap) ← fat16GetRootDirectory machine fatPrivate heap
  if res ≠ ok then return (-eio, fatPrivate, heap)
  return (ok, { fatPrivate with rootDirectory := rootDirectory }, heap)

/-- The early exits read `disk_stream` before it is set. -/
def fat16Resolve (kernel : Kernel) : Except Fault (Int × Kernel) := do
  let disk := kernel.rootDisk
  let (fatPrivatePtr, heap) := Store.zalloc machine.allocator kernel.heap 92 .fatPrivate
  if fatPrivatePtr = 0 then .error .uninitialized
  else
    let (streams, heap) ← fat16InitPrivate machine heap disk.id
    match streams with
    | none => .error .uninitialized
    | some (clusterReadStream, fatReadStream, directoryStream) =>
      let (diskStream, heap) ← diskStreamerNew machine heap disk.id
      match diskStream with
      | none =>
        let heap ← kheapFree fatPrivateKind heap fatPrivatePtr
        return (-eio, { kernel with heap := heap, rootDisk := { disk with fsPrivate := none } })
      | some (diskStreamPtr, diskStream) =>
        let fatPrivate : FatPrivate :=
          ⟨FatHeader.parse [], ⟨0, 0, 0, 0⟩, clusterReadStream, fatReadStream, directoryStream⟩
        let (res, fatPrivate, heap) ← fat16ReadVolume machine heap fatPrivate diskStream
        let heap ← diskStreamerClose heap diskStreamPtr
        if res < 0 then
          let heap ← kheapFree fatPrivateKind heap fatPrivatePtr
          return (res, { kernel with heap := heap, rootDisk := { disk with fsPrivate := none } })
        else
          return (res,
            { kernel with
              heap := heap
              rootDisk :=
                { disk with filesystem := some .fat16Fs, fsPrivate := some fatPrivate } })

end Code

/-! ### The volume by its header -/

namespace FatHeader

variable (header : FatHeader)

/-- The first sector of the root directory. -/
def rootStart : Nat :=
  header.fatCopies.toNat * header.sectorsPerFat.toNat + header.reservedSectors.toNat

def rootSectors : Nat := (header.rootDirEntries.toNat * 32 + 511) / 512

/-- The first sector behind the root directory, where cluster 2 begins. -/
def dataStart : Nat := header.rootStart + header.rootSectors

/-- The first sector of a data cluster. -/
def clusterSector (cluster : Int) : Nat :=
  header.dataStart + (cluster - 2).toNat * header.sectorsPerCluster.toNat

def clusterBytes : Nat := header.sectorsPerCluster.toNat * 512

/-- Every byte of the cluster has a position below `2 ^ 31`. -/
def Below (cluster : Int) : Prop := header.clusterSector cluster * 512 + header.clusterBytes ≤ 2147483648

end FatHeader

/-- The bytes a volume has for a data cluster. -/
def volumeContents (drive : Drive) (header : FatHeader) (cluster : Int) : List UInt8 :=
  window drive.image (header.clusterSector cluster * 512) header.clusterBytes

/-- **The private data is that of the volume on the drive.** -/
structure Mounted (drive : Drive) (fatPrivate : FatPrivate) : Prop where
  header : fatPrivate.header = FatHeader.parse (window drive.image 0 62)
  sectorPos : fatPrivate.rootDirectory.sectorPos = fatPrivate.header.rootStart
  endingSectorPos : fatPrivate.rootDirectory.endingSectorPos = fatPrivate.header.dataStart

/-- The root directory is in the heap as its loader left it. -/
def RootLoaded (machine : Machine) (fatPrivate : FatPrivate) (heap : Kheap) : Prop :=
  ∃ before start loaded, fatPrivate = { before with rootDirectory := fatPrivate.rootDirectory } ∧
    fat16GetRootDirectory machine before start = .ok (0, fatPrivate.rootDirectory, loaded) ∧
    heap.lookup fatPrivate.rootDirectory.item = loaded.lookup fatPrivate.rootDirectory.item

/-! ### A mount that succeeds -/

section Mount

variable {machine : Machine} {fatPrivate : FatPrivate} {heap heap' : Kheap} {directory : FatDirectory}

theorem rootStart_eq (header : FatHeader) :
    (header.fatCopies.toNat : Int) * header.sectorsPerFat.toNat + header.reservedSectors.toNat =
      (header.rootStart : Int) := by
  unfold FatHeader.rootStart
  push_cast
  rfl

theorem rootSectors_eq (header : FatHeader) :
    Int.tdiv ((header.rootDirEntries.toNat : Int) * 32) diskSectorSize +
        (if Int.tmod ((header.rootDirEntries.toNat : Int) * 32) diskSectorSize ≠ 0 then 1 else 0) =
      (header.rootSectors : Int) := by
  have sectors := tdiv_natCast (header.rootDirEntries.toNat * 32) 512
  have rest := tmod_natCast (header.rootDirEntries.toNat * 32) 512
  push_cast at sectors rest
  rw [diskSectorSize, sectors, rest, FatHeader.rootSectors]
  split_ifs <;> omega

/-- What the loader of the root directory leaves behind. -/
theorem fat16GetRootDirectory_ok
    (done : fat16GetRootDirectory machine fatPrivate heap = .ok (0, directory, heap')) :
    ∃ totalItems, fat16GetTotalItemsForDirectory fatPrivate machine.drive fatPrivate.header.rootStart =
        .ok totalItems ∧ 0 ≤ totalItems ∧
      directory = ⟨Store.nextPtr machine.allocator heap (fatPrivate.header.rootDirEntries.toNat * 32),
        totalItems, fatPrivate.header.rootStart, fatPrivate.header.dataStart⟩ ∧
      heap' = heap.tick.put directory.item (.directoryItems (FatDirectoryItem.parseAll
        fatPrivate.header.rootDirEntries.toNat (diskStreamerReadBytes machine.drive
          (diskStreamerSeekPos fatPrivate.directoryStream
            (sectorPosToBytesOffset fatPrivate.header.rootStart))
          ((fatPrivate.header.rootDirEntries.toNat * 32 : Nat) : Int)).bytes)) := by
  have size : ((fatPrivate.header.rootDirEntries.toNat : Int) * 32) =
      ((fatPrivate.header.rootDirEntries.toNat * 32 : Nat) : Int) := by
    push_cast
    rfl
  unfold fat16GetRootDirectory at done
  simp only [rootStart_eq, rootSectors_eq] at done
  obtain ⟨totalItems, counted, done⟩ := bind_ok.mp done
  refine ⟨totalItems, counted, ?_⟩
  by_cases negative : totalItems < 0
  · rw [if_pos negative] at done
    cases done
  rw [if_neg negative, size, Int.toNat_natCast] at done
  by_cases granted : Store.Grants machine.allocator heap (fatPrivate.header.rootDirEntries.toNat * 32)
  · rw [Store.zalloc_granted granted] at done
    dsimp only at done
    rw [if_neg Store.nextPtr_ne_zero, if_neg (by simp)] at done
    cases done
    refine ⟨by omega, ?_, ?_⟩
    · simp only [FatHeader.dataStart]
      push_cast
      rfl
    · rw [Store.put_put]
  · rw [Store.zalloc_refused granted] at done
    cases done

theorem diskStreamerNew_ok {diskId : Int} {ptr : Ptr} {stream : DiskStreamer}
    (done : diskStreamerNew machine heap diskId = .ok (some (ptr, stream), heap')) :
    stream = ⟨0, .rootDisk⟩ := by
  unfold diskStreamerNew at done
  cases disk : diskGet diskId with
  | none =>
    rw [disk] at done
    cases done
  | some found =>
    rw [disk] at done
    dsimp only at done
    split_ifs at done
    cases done
    cases found
    rfl

theorem fat16ReadVolume_ok {fatPrivate' : FatPrivate}
    (done : fat16ReadVolume machine heap fatPrivate ⟨0, .rootDisk⟩ = .ok (0, fatPrivate', heap')) :
    Mounted machine.drive fatPrivate' ∧ RootLoaded machine fatPrivate' heap' := by
  have header := diskStreamerReadBytes_window machine.drive .rootDisk 0 62 (by omega) (by omega)
  have bytes : (diskStreamerReadBytes machine.drive ⟨0, .rootDisk⟩ 62).bytes =
      window machine.drive.image 0 62 :=
    congrArg StreamRead.bytes header
  unfold fat16ReadVolume at done
  dsimp only at done
  rw [diskStreamerReadBytes_res, if_neg (by simp), bytes] at done
  split_ifs at done
  · cases done
  obtain ⟨⟨res, rootDirectory, heap⟩, root, done⟩ := bind_ok.mp done
  dsimp only at done
  split_ifs at done with failed
  · cases done
  obtain rfl : res = 0 := not_not.mp failed
  cases done
  refine ⟨?_, _, _, _, rfl, root, rfl⟩
  obtain ⟨totalItems, -, -, rfl, -⟩ := fat16GetRootDirectory_ok root
  exact ⟨rfl, rfl, rfl⟩

/-- The loader leaves the entries of the root behind the pointer it returns. -/
theorem root_record
    (done : fat16GetRootDirectory machine fatPrivate heap = .ok (0, directory, heap')) :
    ∃ items, heap'.lookup directory.item = some (.directoryItems items) := by
  obtain ⟨_, -, -, -, rfl⟩ := fat16GetRootDirectory_ok done
  exact ⟨_, Store.lookup_put_self⟩

/-- The stream closed is not the root directory. -/
theorem RootLoaded.close {streamer : Ptr} (loaded : RootLoaded machine fatPrivate heap)
    (closed : diskStreamerClose heap streamer = .ok heap') : RootLoaded machine fatPrivate heap' := by
  obtain ⟨before, start, left, same, root, found⟩ := loaded
  obtain ⟨items, record⟩ := root_record root
  obtain ⟨⟨_, streamer_found⟩, rfl⟩ := kheapFree_ok closed
  refine ⟨before, start, left, same, root, (Store.lookup_erase_ne ?_).trans found⟩
  intro at_streamer
  rw [at_streamer, streamer_found, ← at_streamer, record] at found
  cases found

/-- **A mount that succeeds** leaves the private data of the volume on the drive, and its root directory
in the heap. -/
theorem fat16Resolve_mounted {kernel kernel' : Kernel}
    (done : fat16Resolve machine kernel = .ok (0, kernel')) :
    ∃ fatPrivate, kernel'.rootDisk.filesystem = some .fat16Fs ∧
      kernel'.rootDisk.fsPrivate = some fatPrivate ∧ Mounted machine.drive fatPrivate ∧
      RootLoaded machine fatPrivate kernel'.heap := by
  unfold fat16Resolve at done
  dsimp only at done
  split_ifs at done
  obtain ⟨⟨streams, heap⟩, -, done⟩ := bind_ok.mp done
  rcases streams with _ | ⟨clusterReadStream, fatReadStream, directoryStream⟩
  · cases done
  obtain ⟨⟨diskStream, heap⟩, opened, done⟩ := bind_ok.mp done
  rcases diskStream with _ | ⟨diskStreamPtr, diskStream⟩
  · obtain ⟨_, -, done⟩ := bind_ok.mp done
    cases done
  obtain rfl := diskStreamerNew_ok opened
  obtain ⟨⟨res, fatPrivate, heap⟩, loaded, done⟩ := bind_ok.mp done
  obtain ⟨_, closed, done⟩ := bind_ok.mp done
  dsimp only at done
  by_cases failed : res < 0
  · rw [if_pos failed] at done
    obtain ⟨_, -, done⟩ := bind_ok.mp done
    cases done
    exact absurd failed (by decide)
  · rw [if_neg failed] at done
    cases done
    obtain ⟨mounted, root⟩ := fat16ReadVolume_ok loaded
    exact ⟨fatPrivate, rfl, rfl, mounted, root.close closed⟩

end Mount

/-! ### Cluster arithmetic of a mounted volume -/

section Volume

variable {drive : Drive} {fatPrivate : FatPrivate} {cluster : Int}

theorem fat16ClusterToSector_eq (mounted : Mounted drive fatPrivate) (data : IsDataNumber cluster) :
    fat16ClusterToSector fatPrivate cluster = fatPrivate.header.clusterSector cluster := by
  obtain ⟨low, high⟩ := data
  obtain ⟨ahead, rfl⟩ : ∃ ahead : Nat, cluster = ahead + 2 := ⟨(cluster - 2).toNat, by omega⟩
  have sectors := fatPrivate.header.sectorsPerCluster.toNat_lt
  have entries := fatPrivate.header.rootDirEntries.toNat_lt
  have reserved := fatPrivate.header.reservedSectors.toNat_lt
  have fats : fatPrivate.header.fatCopies.toNat * fatPrivate.header.sectorsPerFat.toNat ≤ 255 * 65535 := by
    have copies := fatPrivate.header.fatCopies.toNat_lt
    have length := fatPrivate.header.sectorsPerFat.toNat_lt
    exact Nat.mul_le_mul (by omega) (by omega)
  have size : ahead * fatPrivate.header.sectorsPerCluster.toNat ≤ 65517 * 255 :=
    Nat.mul_le_mul (by omega) (by omega)
  rw [fat16ClusterToSector, mounted.endingSectorPos, FatHeader.clusterSector,
    show ((ahead : Int) + 2 - 2) = (ahead : Int) by omega, Int.toNat_natCast, ← Int.natCast_mul,
    ← Int.natCast_add]
  have start : fatPrivate.header.dataStart ≤ 255 * 65535 + 65536 + 4096 := by
    unfold FatHeader.dataStart FatHeader.rootStart FatHeader.rootSectors
    omega
  exact int32_of_range (by omega) (by omega)

/-- The driver's bytes of a data cluster are those of the volume. -/
theorem clusterContents_eq (mounted : Mounted drive fatPrivate) (data : IsDataNumber cluster) :
    clusterContents drive fatPrivate cluster = volumeContents drive fatPrivate.header cluster := by
  rw [clusterContents, volumeContents, fat16ClusterToSector_eq mounted data, FatHeader.clusterBytes]
  congr 1

theorem inReach_of_below (mounted : Mounted drive fatPrivate) (data : IsDataNumber cluster)
    (below : fatPrivate.header.Below cluster) : InReach fatPrivate cluster := by
  unfold FatHeader.Below FatHeader.clusterBytes at below
  refine ⟨?_, ?_⟩
  · rw [fat16ClusterToSector_eq mounted data]
    exact Int.natCast_nonneg _
  · rw [fat16ClusterToSector_eq mounted data, fat16GetClusterSizeInBytes_eq]
    omega

end Volume

end KernelPlay
