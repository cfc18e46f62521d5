/-
**The records of `fs/fat/fat16.c` and its cluster arithmetic.**

`FatHeader` and `FatDirectoryItem` are the packed records as they lie on the disk, `FatPrivate` what
the driver keeps of a mounted volume. Every use of one of its streams seeks first, so the position a
read leaves a stream at is not kept. `fat16GetFatEntry` — the value the table has for a cluster,
read at the byte `fatEntryPosition` for every number a chain can lead to (`fat16GetFatEntry_eq`).
-/

import KernelPlay.Disk.Streamer
import Mathlib.Data.Fintype.Basic

namespace KernelPlay

open KernelPlay.Library

/-- An address in the kernel heap; `0` is `NULL`. -/
abbrev Ptr := Nat

/-- The fields of `struct fat_h` the driver uses. -/
structure FatHeader where
  sectorsPerCluster : UInt8
  reservedSectors : UInt16
  fatCopies : UInt8
  rootDirEntries : UInt16
  numberOfSectors : UInt16
  sectorsPerFat : UInt16
  sectorsBig : UInt32
  signature : UInt8
  deriving DecidableEq, Repr

/-- The header in the first 62 bytes of a volume. -/
def FatHeader.parse (bytes : List UInt8) : FatHeader :=
  let byte (index : Nat) : UInt8 := bytes.getD index 0
  let word (index : Nat) : UInt16 := word16 (byte index) (byte (index + 1))
  { sectorsPerCluster := byte 13
    reservedSectors := word 14
    fatCopies := byte 16
    rootDirEntries := word 17
    numberOfSectors := word 19
    sectorsPerFat := word 22
    sectorsBig := word32 (word 32) (word 34)
    signature := byte 38 }

/-- `struct fat_directory_item`: the 32 bytes of an entry. -/
structure FatDirectoryItem where
  bytes : Fin 32 → UInt8

namespace FatDirectoryItem

instance : DecidableEq FatDirectoryItem := fun one other =>
  decidable_of_iff (one.bytes = other.bytes) ⟨congrArg mk, congrArg bytes⟩

variable (item : FatDirectoryItem)

def filename (index : Fin 8) : UInt8 := item.bytes ⟨index, by omega⟩

/-- `filename[0]`. -/
def firstByte : UInt8 := item.bytes 0

def ext (index : Fin 3) : UInt8 := item.bytes ⟨8 + index, by omega⟩

def attributeByte : UInt8 := item.bytes 11

def high16BitsFirstCluster : UInt16 := word16 (item.bytes 20) (item.bytes 21)

def low16BitsFirstCluster : UInt16 := word16 (item.bytes 26) (item.bytes 27)

def filesize : UInt32 :=
  word32 (word16 (item.bytes 28) (item.bytes 29)) (word16 (item.bytes 30) (item.bytes 31))

/-- `sizeof(struct fat_directory_item)` bytes as an entry. -/
def parse (bytes : List UInt8) : FatDirectoryItem := ⟨fun index => bytes.getD index 0⟩

/-- A buffer as an array of entries. -/
def parseAll (count : Nat) (bytes : List UInt8) : List FatDirectoryItem :=
  window (fun index => parse (bytes.drop (32 * index))) 0 count

end FatDirectoryItem

def fatFileReadOnly : UInt8 := 0x01

def fatFileVolumeLabel : UInt8 := 0x08

def fatFileSubdirectory : UInt8 := 0x10

/-- `fat_directory_t`. -/
structure FatDirectory where
  item : Ptr
  total : Int
  sectorPos : Int
  endingSectorPos : Int
  deriving DecidableEq, Repr

/-- `fat_private_t`. -/
structure FatPrivate where
  header : FatHeader
  rootDirectory : FatDirectory
  clusterReadStream : DiskStreamer
  fatReadStream : DiskStreamer
  directoryStream : DiskStreamer
  deriving DecidableEq, Repr

section Clusters

variable (drive : Drive) (fatPrivate : FatPrivate)

def fat16ClusterToSector (cluster : Int) : Int :=
  int32 (fatPrivate.rootDirectory.endingSectorPos +
    (cluster - 2) * fatPrivate.header.sectorsPerCluster.toNat)

def fat16GetFirstCluster (item : FatDirectoryItem) : Int :=
  int32 ((item.high16BitsFirstCluster.toNat : Int) * 65536 + item.low16BitsFirstCluster.toNat)

def fat16GetClusterSizeInBytes : Int := fatPrivate.header.sectorsPerCluster.toNat * diskSectorSize

def fat16GetFirstFatSector : Nat := fatPrivate.header.reservedSectors.toNat

def fat16GetFatEntry (cluster : Int) : Int :=
  let fatTablePosition := uint32 (fat16GetFirstFatSector fatPrivate * diskSectorSize)
  let stream := diskStreamerSeekPos fatPrivate.fatReadStream (int32 (fatTablePosition + cluster * 2))
  let result := (diskStreamerReadBytes drive stream 2).bytes
  (word16 (result.getD 0 0) (result.getD 1 0)).toNat

def isReadableCluster (entry : Int) : Bool :=
  if entry ≥ 0xFFF8 then false
  else if entry = 0xFFF7 then false
  else if entry = 0xFFF0 ∨ entry = 0xFFF6 then false
  else if entry = 0x00 then false
  else true

end Clusters

/-! ### Facts about one cluster -/

section Facts

variable {drive : Drive} {fatPrivate : FatPrivate}

theorem isReadableCluster_iff {entry : Int} :
    isReadableCluster entry = true ↔
      entry < 0xFFF6 ∧ entry ≠ 0xFFF0 ∧ entry ≠ 0 := by
  unfold isReadableCluster
  split_ifs <;> simp <;> omega

/-- An error code passes for a cluster. -/
theorem isReadableCluster_eio : isReadableCluster (-eio) = true := by decide

theorem fat16GetFatEntry_range (drive : Drive) (fatPrivate : FatPrivate) (cluster : Int) :
    0 ≤ fat16GetFatEntry drive fatPrivate cluster ∧
      fat16GetFatEntry drive fatPrivate cluster < 65536 := by
  unfold fat16GetFatEntry
  dsimp only
  generalize word16 _ _ = entry
  have := entry.toNat_lt
  omega

/-- An entry of the table is never an error code. -/
theorem fat16GetFatEntry_ne_eio (cluster : Int) : fat16GetFatEntry drive fatPrivate cluster ≠ -eio := by
  have := (fat16GetFatEntry_range drive fatPrivate cluster).1
  unfold eio
  omega

theorem fat16GetClusterSizeInBytes_eq (fatPrivate : FatPrivate) :
    fat16GetClusterSizeInBytes fatPrivate =
      ((fatPrivate.header.sectorsPerCluster.toNat * 512 : Nat) : Int) := by
  rw [Int.natCast_mul]
  rfl

/-- The byte of the volume the entry of a cluster starts at. -/
def fatEntryPosition (header : FatHeader) (cluster : Nat) : Nat :=
  header.reservedSectors.toNat * 512 + cluster * 2

theorem fat16GetFatEntry_eq (drive : Drive) (fatPrivate : FatPrivate) {cluster : Nat} (low : cluster < 65536) :
    fat16GetFatEntry drive fatPrivate cluster =
      ((word16 (drive.image (fatEntryPosition fatPrivate.header cluster))
        (drive.image (fatEntryPosition fatPrivate.header cluster + 1))).toNat : Int) := by
  have reserved := fatPrivate.header.reservedSectors.toNat_lt
  have position : int32 ((uint32 (fat16GetFirstFatSector fatPrivate * diskSectorSize) : Int) +
      (cluster : Int) * 2) = (fatEntryPosition fatPrivate.header cluster : Int) := by
    have start : uint32 (fat16GetFirstFatSector fatPrivate * diskSectorSize) =
        fatPrivate.header.reservedSectors.toNat * 512 := by
      unfold fat16GetFirstFatSector diskSectorSize
      rw [uint32_of_range (by omega) (by omega)]
      omega
    rw [start, fatEntryPosition, int32_of_range (by omega) (by omega)]
    omega
  unfold fat16GetFatEntry
  dsimp only
  rw [position]
  have read : diskStreamerReadBytes drive
      (diskStreamerSeekPos fatPrivate.fatReadStream (fatEntryPosition fatPrivate.header cluster)) 2 =
      _ := diskStreamerReadBytes_window drive fatPrivate.fatReadStream.disk _ 2
        (by unfold fatEntryPosition; omega) (by unfold fatEntryPosition; omega)
  rw [read, window_getD _ (by omega), window_getD _ (by omega), Nat.add_zero]

end Facts

end KernelPlay
