/-
**Which sectors the data clusters of a mounted volume are read from.**

`clusterPosition` — the byte offset a read of a cluster seeks to, in a 32-bit `int`
(`fat16ReadInternalV2_byte`). `ClustersApart` — every cluster the header declares is read from its own
sectors, behind the root directory. `clusters_apart_iff` says when: if the declared clusters end by
byte `2 ^ 31`. The volume of `boot.asm` is larger (`clusters_apart_fails`).
-/

import KernelPlay.Fat.Safety
import KernelPlay.Fat.Tree

namespace KernelPlay

open KernelPlay.Library

/-! ### Declared clusters -/

/-- The position `fat16_read_internal_from_stream_v2` seeks to for an offset in a cluster. -/
def clusterPosition (fatPrivate : FatPrivate) (cluster offset : Int) : Int :=
  int32 (offset + fat16ClusterToSector fatPrivate cluster * diskSectorSize)

namespace FatHeader

variable (header : FatHeader)

/-- A data cluster whose sectors lie within the count of sectors. -/
structure Declares (cluster : Int) : Prop where
  low : 2 ≤ cluster
  int : cluster ≤ 2147483647
  within : header.clusterSector cluster + header.sectorsPerCluster.toNat ≤ header.totalSectors

/-- The whole clusters behind the root directory. -/
def dataClusters : Nat := (header.totalSectors - header.dataStart) / header.sectorsPerCluster.toNat

/-- The sector behind the last of them. -/
def dataEnd : Nat := header.dataStart + header.dataClusters * header.sectorsPerCluster.toNat

end FatHeader

/-- **Different clusters, different sectors**: the position of an offset in a declared cluster does not
wrap, its sector is the cluster's own, and none of them lies in front of the data. -/
structure ClustersApart (drive : Drive) (fatPrivate : FatPrivate) : Prop where
  sector : ∀ cluster, fatPrivate.header.Declares cluster →
    fat16ClusterToSector fatPrivate cluster = fatPrivate.header.clusterSector cluster
  position : ∀ cluster (offset : Nat), fatPrivate.header.Declares cluster →
    offset < fatPrivate.header.clusterBytes →
    clusterPosition fatPrivate cluster offset =
      ((fatPrivate.header.clusterSector cluster * 512 + offset : Nat) : Int)
  reads : ∀ cluster (offset : Nat), fatPrivate.header.Declares cluster →
    offset < fatPrivate.header.clusterBytes →
    (diskStreamerReadBytes drive (diskStreamerSeekPos fatPrivate.clusterReadStream
      (clusterPosition fatPrivate cluster offset)) 1).bytes =
        [drive.sector ((fatPrivate.header.clusterSector cluster + offset / 512 : Nat) : Int)
          (offset % 512)]
  apart : ∀ one other (oneOffset otherOffset : Nat), fatPrivate.header.Declares one →
    fatPrivate.header.Declares other → one ≠ other → oneOffset < fatPrivate.header.clusterBytes →
    otherOffset < fatPrivate.header.clusterBytes →
    (clusterPosition fatPrivate one oneOffset).tdiv diskSectorSize ≠
      (clusterPosition fatPrivate other otherOffset).tdiv diskSectorSize
  data : ∀ cluster (offset : Nat), fatPrivate.header.Declares cluster →
    offset < fatPrivate.header.clusterBytes →
    (fatPrivate.header.dataStart : Int) ≤ (clusterPosition fatPrivate cluster offset).tdiv diskSectorSize

section Header

variable {header : FatHeader}

theorem FatHeader.dataStart_le (header : FatHeader) : header.dataStart ≤ 16781056 := by
  have fats : header.fatCopies.toNat * header.sectorsPerFat.toNat ≤ 255 * 65535 :=
    Nat.mul_le_mul (by have := header.fatCopies.toNat_lt; omega)
      (by have := header.sectorsPerFat.toNat_lt; omega)
  have reserved := header.reservedSectors.toNat_lt
  have entries := header.rootDirEntries.toNat_lt
  unfold FatHeader.dataStart FatHeader.rootStart FatHeader.rootSectors
  omega

theorem FatHeader.clusterSector_add (ahead : Nat) :
    header.clusterSector ((ahead : Int) + 2) =
      header.dataStart + ahead * header.sectorsPerCluster.toNat := by
  show header.dataStart + ((ahead : Int) + 2 - 2).toNat * _ = _
  rw [Int.add_sub_cancel, Int.toNat_natCast]

/-- The declared clusters are those counted. -/
theorem FatHeader.declares_iff {ahead : Nat} (clusters : header.sectorsPerCluster.toNat ≠ 0)
    (int : ahead ≤ 2147483645) :
    header.Declares ((ahead : Int) + 2) ↔ ahead < header.dataClusters := by
  have counted : ahead + 1 ≤ header.dataClusters ↔
      (ahead + 1) * header.sectorsPerCluster.toNat ≤ header.totalSectors - header.dataStart :=
    Nat.le_div_iff_mul_le (Nat.pos_of_ne_zero clusters)
  have size : (ahead + 1) * header.sectorsPerCluster.toNat =
      ahead * header.sectorsPerCluster.toNat + header.sectorsPerCluster.toNat := Nat.succ_mul _ _
  refine ⟨?_, fun below => ⟨by omega, by omega, ?_⟩⟩
  · rintro ⟨-, -, within⟩
    rw [FatHeader.clusterSector_add] at within
    apply counted.mpr
    omega
  · have fits := counted.mp below
    rw [FatHeader.clusterSector_add]
    omega

/-- A declared cluster ends by the end of the data. -/
theorem FatHeader.Declares.ends {cluster : Int} (declared : header.Declares cluster)
    (clusters : header.sectorsPerCluster.toNat ≠ 0) :
    header.clusterSector cluster + header.sectorsPerCluster.toNat ≤ header.dataEnd := by
  obtain ⟨ahead, rfl⟩ : ∃ ahead : Nat, cluster = ahead + 2 :=
    ⟨(cluster - 2).toNat, by have := declared.low; omega⟩
  have below := (FatHeader.declares_iff clusters (by have := declared.int; omega)).mp declared
  have fits := Nat.mul_le_mul_right header.sectorsPerCluster.toNat (Nat.succ_le_of_lt below)
  rw [Nat.succ_mul] at fits
  rw [FatHeader.clusterSector_add, FatHeader.dataEnd]
  omega

/-- If the data goes on behind sector `2 ^ 22`, a declared cluster does. -/
theorem FatHeader.declares_behind (some : header.dataClusters ≠ 0) (behind : 4194304 < header.dataEnd) :
    ∃ cluster, header.Declares cluster ∧
      4194304 < header.clusterSector cluster + header.sectorsPerCluster.toNat := by
  have clusters : header.sectorsPerCluster.toNat ≠ 0 := by
    intro none
    rw [FatHeader.dataClusters, none, Nat.div_zero] at some
    exact some rfl
  -- The cluster that holds the sector, or the first one if the data starts behind it.
  let ahead := (4194304 - header.dataStart) / header.sectorsPerCluster.toNat
  have reaches : 4194304 - header.dataStart <
      ahead * header.sectorsPerCluster.toNat + header.sectorsPerCluster.toNat :=
    Nat.lt_div_mul_add (Nat.pos_of_ne_zero clusters)
  have small : ahead ≤ 4194304 - header.dataStart := Nat.div_le_self _ _
  have below : ahead < header.dataClusters := by
    apply Nat.div_lt_of_lt_mul
    have filled := Nat.mul_pos (Nat.pos_of_ne_zero clusters) (Nat.pos_of_ne_zero some)
    rw [FatHeader.dataEnd, Nat.mul_comm] at behind
    omega
  refine ⟨(ahead : Int) + 2, (FatHeader.declares_iff clusters (by omega)).mpr below, ?_⟩
  rw [FatHeader.clusterSector_add]
  omega

end Header

/-! ### Positions -/

section Position

variable {drive : Drive} {fatPrivate : FatPrivate} {cluster : Int} {offset : Nat}

/-- A one-byte read of a readable cluster seeks to that position. -/
theorem fat16ReadInternalV2_byte (clusters : fatPrivate.header.sectorsPerCluster ≠ 0)
    (readable : isReadableCluster cluster = true) (inside : offset < fatPrivate.header.clusterBytes) :
    fat16ReadInternalV2 drive fatPrivate cluster offset 1 =
      .ok ⟨ok, (diskStreamerReadBytes drive (diskStreamerSeekPos fatPrivate.clusterReadStream
        (clusterPosition fatPrivate cluster offset)) 1).bytes, [cluster]⟩ := by
  have size : fat16GetClusterSizeInBytes fatPrivate = (fatPrivate.header.clusterBytes : Int) :=
    fat16GetClusterSizeInBytes_eq fatPrivate
  have first : clustersAhead fatPrivate offset = 0 := by
    unfold clustersAhead
    rw [size, tdiv_natCast, Nat.div_eq_of_lt inside]
    rfl
  have place : Int.tmod (offset : Int) fatPrivate.header.clusterBytes = (offset : Int) := by
    rw [tmod_natCast, Nat.mod_eq_of_lt inside]
  rw [fat16ReadInternalV2_eq clusters, first, size, place]
  show Except.ok (fat16CopyLoop drive fatPrivate fatPrivate.clusterReadStream _ (0 + 1) cluster _ 1) = _
  by_cases last : offset + 1 < fatPrivate.header.clusterBytes
  · rw [fat16CopyLoop_last Int.one_pos readable (by omega)]
    rfl
  · have whole : ((fatPrivate.header.clusterBytes : Nat) : Int) - (offset : Int) = 1 := by omega
    rw [fat16CopyLoop_next Int.one_pos readable (by omega), whole]
    dsimp only
    rw [fat16CopyLoop_done (by omega), List.append_nil]
    rfl

/-- The sectors of a cluster that ends by sector `2 ^ 22`. -/
theorem fat16ClusterToSector_of_small (mounted : Mounted drive fatPrivate) (low : 2 ≤ cluster)
    (small : fatPrivate.header.clusterSector cluster ≤ 2147483647) :
    fat16ClusterToSector fatPrivate cluster = fatPrivate.header.clusterSector cluster := by
  obtain ⟨ahead, rfl⟩ : ∃ ahead : Nat, cluster = ahead + 2 := ⟨(cluster - 2).toNat, by omega⟩
  unfold fat16ClusterToSector
  rw [mounted.endingSectorPos, Int.add_sub_cancel]
  rw [FatHeader.clusterSector_add] at small ⊢
  rw [int32_of_range] <;> push_cast <;> omega

theorem clusterPosition_of_small (mounted : Mounted drive fatPrivate) (low : 2 ≤ cluster)
    (small : fatPrivate.header.clusterSector cluster * 512 + offset ≤ 2147483647) :
    clusterPosition fatPrivate cluster offset =
      ((fatPrivate.header.clusterSector cluster * 512 + offset : Nat) : Int) := by
  unfold clusterPosition diskSectorSize
  rw [fat16ClusterToSector_of_small mounted low (by omega), int32_of_range (by omega) (by omega)]
  omega

/-- The sector of a position in a cluster. -/
theorem tdiv_clusterPosition
    (position : clusterPosition fatPrivate cluster offset =
      ((fatPrivate.header.clusterSector cluster * 512 + offset : Nat) : Int)) :
    (clusterPosition fatPrivate cluster offset).tdiv diskSectorSize =
      ((fatPrivate.header.clusterSector cluster + offset / 512 : Nat) : Int) := by
  have sectors := tdiv_natCast (fatPrivate.header.clusterSector cluster * 512 + offset) 512
  rw [position]
  apply sectors.trans
  congr 1
  omega

/-- Different clusters have no sector in common. -/
theorem clusterSector_apart {one other : Int} {oneOffset otherOffset : Nat} (oneLow : 2 ≤ one)
    (otherLow : 2 ≤ other) (differ : one < other) (inside : oneOffset < fatPrivate.header.clusterBytes) :
    fatPrivate.header.clusterSector one + oneOffset / 512 <
      fatPrivate.header.clusterSector other + otherOffset / 512 := by
  obtain ⟨first, rfl⟩ : ∃ first : Nat, one = first + 2 := ⟨(one - 2).toNat, by omega⟩
  obtain ⟨second, rfl⟩ : ∃ second : Nat, other = second + 2 := ⟨(other - 2).toNat, by omega⟩
  have behind := Nat.mul_le_mul_right fatPrivate.header.sectorsPerCluster.toNat
    (show first + 1 ≤ second by omega)
  rw [Nat.succ_mul] at behind
  unfold FatHeader.clusterBytes at inside
  rw [FatHeader.clusterSector_add, FatHeader.clusterSector_add]
  omega

/-- **Clusters that end by byte `2 ^ 31` lie apart.** -/
theorem clustersApart_of_small (mounted : Mounted drive fatPrivate)
    (small : fatPrivate.header.dataClusters = 0 ∨ fatPrivate.header.dataEnd ≤ 4194304) :
    ClustersApart drive fatPrivate := by
  have ends {cluster : Int} (declared : fatPrivate.header.Declares cluster)
      (clusters : fatPrivate.header.sectorsPerCluster.toNat ≠ 0) :
      fatPrivate.header.clusterSector cluster + fatPrivate.header.sectorsPerCluster.toNat ≤ 4194304 := by
    have below := declared.ends clusters
    rcases small with none | small
    · obtain ⟨ahead, rfl⟩ : ∃ ahead : Nat, cluster = ahead + 2 :=
        ⟨(cluster - 2).toNat, by have := declared.low; omega⟩
      have counted := (FatHeader.declares_iff clusters (by have := declared.int; omega)).mp declared
      omega
    · omega
  have position {cluster : Int} {offset : Nat} (declared : fatPrivate.header.Declares cluster)
      (inside : offset < fatPrivate.header.clusterBytes) :
      clusterPosition fatPrivate cluster offset =
        ((fatPrivate.header.clusterSector cluster * 512 + offset : Nat) : Int) := by
    unfold FatHeader.clusterBytes at inside
    have below := ends declared (by omega)
    exact clusterPosition_of_small mounted declared.low (by omega)
  refine ⟨?_, ?_, ?_, ?_, ?_⟩
  · intro cluster declared
    apply fat16ClusterToSector_of_small mounted declared.low
    by_cases clusters : fatPrivate.header.sectorsPerCluster.toNat = 0
    · have start := fatPrivate.header.dataStart_le
      unfold FatHeader.clusterSector
      rw [clusters, Nat.mul_zero]
      omega
    · have below := ends declared clusters
      omega
  · intro cluster offset declared inside
    exact position declared inside
  · intro cluster offset declared inside
    have at_offset := position declared inside
    unfold FatHeader.clusterBytes at inside
    have below := ends declared (by omega)
    rw [at_offset, diskStreamerSeekPos, show (1 : Int) = ((1 : Nat) : Int) from rfl,
      diskStreamerReadBytes_window drive _ _ 1 (by omega) (by omega), window_succ, window_zero,
      Drive.image]
    have sector : (fatPrivate.header.clusterSector cluster * 512 + offset) / 512 =
        fatPrivate.header.clusterSector cluster + offset / 512 := by omega
    have place : (fatPrivate.header.clusterSector cluster * 512 + offset) % 512 = offset % 512 := by
      omega
    rw [Nat.add_zero, sector, place]
  · intro one other oneOffset otherOffset oneDeclared otherDeclared differ oneInside otherInside
    rw [tdiv_clusterPosition (position oneDeclared oneInside),
      tdiv_clusterPosition (position otherDeclared otherInside)]
    rcases Int.lt_or_gt_of_ne differ with below | above
    · have apart := @clusterSector_apart fatPrivate _ _ _ otherOffset oneDeclared.low otherDeclared.low below
        oneInside
      omega
    · have apart := @clusterSector_apart fatPrivate _ _ _ oneOffset otherDeclared.low oneDeclared.low above
        otherInside
      omega
  · intro cluster offset declared inside
    rw [tdiv_clusterPosition (position declared inside)]
    unfold FatHeader.clusterSector
    omega

/-- A cluster that goes on behind byte `2 ^ 31` has an offset whose position wraps. -/
theorem not_clustersApart_of_behind {cluster : Int} (declared : fatPrivate.header.Declares cluster)
    (behind : 4194304 < fatPrivate.header.clusterSector cluster +
      fatPrivate.header.sectorsPerCluster.toNat) (clusters : fatPrivate.header.sectorsPerCluster.toNat ≠ 0) :
    ¬ ClustersApart drive fatPrivate := by
  intro apart
  have last := apart.position cluster (fatPrivate.header.clusterBytes - 1) declared (by
    unfold FatHeader.clusterBytes
    omega)
  have range := (int32_range (((fatPrivate.header.clusterBytes - 1 : Nat) : Int) +
    fat16ClusterToSector fatPrivate cluster * diskSectorSize)).2
  unfold clusterPosition at last
  unfold FatHeader.clusterBytes at last range
  omega

end Position

/-! ### Mounted volumes -/

section Mount

variable {machine : Machine} {fatPrivate : FatPrivate} {before kernel : Kernel}

/-- **The clusters of a mounted volume lie apart** exactly if there are none or they end by byte
`2 ^ 31`. -/
theorem clusters_apart_iff (mount : fat16Resolve machine before = .ok (0, kernel))
    (volume : kernel.rootDisk.fsPrivate = some fatPrivate) :
    ClustersApart machine.drive fatPrivate ↔
      fatPrivate.header.dataClusters = 0 ∨ fatPrivate.header.dataEnd ≤ 4194304 := by
  obtain ⟨_, -, volume', mounted, -⟩ := fat16Resolve_mounted mount
  cases volume.symm.trans volume'
  refine ⟨fun apart => ?_, clustersApart_of_small mounted⟩
  by_contra large
  rw [not_or] at large
  obtain ⟨some, behind⟩ := large
  obtain ⟨cluster, declared, beyond⟩ :=
    FatHeader.declares_behind some (Nat.lt_of_not_le behind)
  refine not_clustersApart_of_behind declared beyond ?_ apart
  intro none
  rw [FatHeader.dataClusters, none, Nat.div_zero] at some
  exact some rfl

/-- A volume of eight sectors. -/
theorem clusters_apart_iff_small :
    ∃ kernel fatPrivate, fat16Resolve treeMachine bootKernel = .ok (0, kernel) ∧
      kernel.rootDisk.fsPrivate = some fatPrivate ∧ ClustersApart treeMachine.drive fatPrivate := by
  obtain ⟨kernel, mount, -⟩ := small_mount
  obtain ⟨fatPrivate, -, volume, mounted, -⟩ := fat16Resolve_mounted mount
  have header : fatPrivate.header = smallHeader := mounted.header.trans tree_header
  refine ⟨kernel, fatPrivate, mount, volume, (clusters_apart_iff mount volume).mpr (.inr ?_)⟩
  rw [header]
  decide

end Mount

section Boot

/-- The header of `boot.asm`. -/
def bootHeader : FatHeader where
  sectorsPerCluster := 0x80
  reservedSectors := 200
  fatCopies := 0x02
  rootDirEntries := 0x40
  numberOfSectors := 0x00
  sectorsPerFat := 0x100
  sectorsBig := 0x773594
  signature := 0x29

/-- A disk with that header and nothing else. -/
def bootDrive : Drive where
  sector lba index :=
    if lba ≠ 0 then 0
    else if index = 13 then 0x80
    else if index = 14 then 200
    else if index = 16 then 2
    else if index = 17 then 0x40
    else if index = 23 then 1
    else if index = 32 then 0x94
    else if index = 33 then 0x35
    else if index = 34 then 0x77
    else if index = 38 then 0x29
    else 0
  belowBuffer _ := 0

def bootMachine : Machine := smallMachine bootDrive

theorem boot_header : FatHeader.parse (window bootMachine.drive.image 0 62) = bootHeader := by
  decide

theorem boot_mount : ∃ kernel, fat16Resolve bootMachine bootKernel = .ok (0, kernel) ∧
    kernel.heap.lookup 0 = none := by
  refine @fat16Resolve_mounts bootMachine bootKernel [] (fun _ _ _ => rfl) rfl rfl (boot_header ▸ rfl)
    (boot_header ▸ by decide) ?_
  rw [boot_header]
  exact ⟨by decide, Nat.zero_le _, by decide⟩

/-- Cluster 32765 of the volume of `boot.asm` is read from a negative sector. -/
theorem clusters_apart_fails :
    ∃ kernel fatPrivate, fat16Resolve bootMachine bootKernel = .ok (0, kernel) ∧
      kernel.rootDisk.fsPrivate = some fatPrivate ∧ fatPrivate.header.Declares 32765 ∧
      (clusterPosition fatPrivate 32765 0).tdiv diskSectorSize = -4194228 ∧
      ¬ ClustersApart bootMachine.drive fatPrivate := by
  obtain ⟨kernel, mount, -⟩ := boot_mount
  obtain ⟨fatPrivate, -, volume, mounted, -⟩ := fat16Resolve_mounted mount
  have header : fatPrivate.header = bootHeader := mounted.header.trans boot_header
  have declared : bootHeader.Declares 32765 := ⟨by decide, by decide, by decide⟩
  have position : (clusterPosition fatPrivate 32765 0).tdiv diskSectorSize = -4194228 := by
    unfold clusterPosition fat16ClusterToSector
    rw [mounted.endingSectorPos, header]
    decide
  refine ⟨kernel, fatPrivate, mount, volume, header ▸ declared, position, ?_⟩
  refine @not_clustersApart_of_behind _ fatPrivate 32765 (header ▸ declared) ?_ ?_
  · rw [header]
    decide
  · rw [header]
    decide

end Boot

end KernelPlay
