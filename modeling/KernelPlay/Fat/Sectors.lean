/-
**Which sectors a read of a file reads.**

The read again, with every call of `disk_read_sector` logged beside the cluster the copy loop stands at:
`diskStreamerReadBytesTraced`, … The `_erases` theorems leave out the log: what is left is the driver.

* `copy_meets_iff` — the sectors of a copy loop are those of its chunks, one for each cluster of the
  route up to the first that is not readable.
* `chunk_inside_iff` — a chunk is read from the sectors of its cluster exactly if it does not start in
  front of the cluster and ends by byte `2 ^ 31`; behind that the position wraps.
-/

import KernelPlay.Fat.Operations
import KernelPlay.Library.Logged

namespace KernelPlay

open KernelPlay.Library

/-- A sector that is read, and the cluster it is read for. -/
structure SectorRead where
  cluster : Int
  sector : Int
  deriving DecidableEq, Repr

/-- A computation that reads sectors. -/
abbrev Traced := Logged SectorRead Fault

section Code

variable (drive : Drive)

def diskReadSectorTraced (cluster : Int) (idisk : DiskPtr) (lba : Int) : Traced (Int × (Nat → UInt8)) :=
  Logged.log ⟨cluster, lba⟩ (diskReadSector drive idisk lba)

def diskStreamerReadBytesLoopTraced (cluster : Int) : Nat → DiskStreamer → Int → Traced StreamRead
  | 0, streamer, _ => pure ⟨ok, [], streamer⟩
  | turns + 1, streamer, total =>
    if total ≤ 0 then pure ⟨ok, [], streamer⟩
    else do
      let sector := streamer.pos.tdiv diskSectorSize
      let offset := streamer.pos.tmod diskSectorSize
      let maxReadable := diskSectorSize - offset
      let (res, buf) ← diskReadSectorTraced drive cluster streamer.disk sector
      if res < 0 then return ⟨res, [], streamer⟩
      let totalToRead := if total > maxReadable then maxReadable else total
      let bytes := window (fun i => bufferByte drive buf (offset + (i : Int))) 0 totalToRead.toNat
      let streamer := { streamer with pos := int32 (streamer.pos + totalToRead) }
      if total > maxReadable then do
        let rest ← diskStreamerReadBytesLoopTraced cluster turns streamer (total - totalToRead)
        return ⟨rest.res, bytes ++ rest.bytes, rest.streamer⟩
      else return ⟨res, bytes, streamer⟩

def diskStreamerReadBytesTraced (cluster : Int) (streamer : DiskStreamer) (total : Int) :
    Traced StreamRead :=
  diskStreamerReadBytesLoopTraced drive cluster total.toNat streamer total

variable (fatPrivate : FatPrivate)

def fat16CopyLoopTraced (stream : DiskStreamer) (clusterBytes : Int) :
    Nat → Int → Int → Int → Traced ClusterRead
  | 0, _, _, _ => pure ⟨ok, [], []⟩
  | turns + 1, curCluster, offsetFromCurCluster, total =>
    if total ≤ 0 then pure ⟨ok, [], []⟩
    else if ¬ isReadableCluster curCluster then pure ⟨-eio, [], []⟩
    else do
      let availableInCurCluster := clusterBytes - offsetFromCurCluster
      let bytesRead := if total > availableInCurCluster then availableInCurCluster else total
      let sector := fat16ClusterToSector fatPrivate curCluster
      let pos := int32 (offsetFromCurCluster + sector * diskSectorSize)
      let read ← diskStreamerReadBytesTraced drive curCluster (diskStreamerSeekPos stream pos) bytesRead
      if read.res ≠ ok then return ⟨-eio, read.bytes, [curCluster]⟩
      let rest ←
        if bytesRead = availableInCurCluster then
          fat16CopyLoopTraced stream clusterBytes turns (fat16GetFatEntry drive fatPrivate curCluster) 0
            (total - bytesRead)
        else
          fat16CopyLoopTraced stream clusterBytes turns curCluster offsetFromCurCluster
            (total - bytesRead)
      return ⟨rest.res, read.bytes ++ rest.out, curCluster :: rest.clusters⟩

def fat16ReadInternalV2Traced (startingCluster offset total : Int) : Traced ClusterRead := do
  let clusterBytes := fat16GetClusterSizeInBytes fatPrivate
  let curCluster ← fat16GetClusterForOffset drive fatPrivate startingCluster offset
  let offsetFromCurCluster := offset.tmod clusterBytes
  fat16CopyLoopTraced drive fatPrivate fatPrivate.clusterReadStream clusterBytes total.toNat curCluster
    offsetFromCurCluster total

def fat16ReadElementsTraced (startingCluster : Int) (size : Nat) :
    Nat → Int → Nat → (Nat → UInt8) → Traced FileRead
  | 0, _, _, out => pure ⟨ok, out, []⟩
  | left + 1, offset, place, out => do
    let read ← fat16ReadInternalV2Traced drive fatPrivate startingCluster offset (int32 size)
    let out := overwrite out place read.out
    if read.res ≠ ok then return ⟨read.res, out, read.clusters⟩
    let rest ← fat16ReadElementsTraced startingCluster size left (int32 (offset + size)) (place + size) out
    return ⟨rest.res, rest.out, read.clusters ++ rest.clusters⟩

end Code

def fat16ReadTraced (machine : Machine) (fatPrivate : FatPrivate) (heap : Kheap) (privateData : Ptr)
    (size nmemb : Nat) (out : Nat → UInt8) : Traced FileRead := do
  let desc ← deref fatDescriptorKind heap privateData
  let fatItem ← deref fatItemKind heap desc.item
  let item ← fatItemEntry machine heap fatItem
  let startingCluster := fat16GetFirstCluster item
  let offset := int32 desc.pos
  fat16ReadElementsTraced machine.drive fatPrivate startingCluster size nmemb offset 0 out

/-! ### The log erased -/

section Erase

open Logged

variable {drive : Drive} {fatPrivate : FatPrivate}

theorem streamLoop_erases (cluster : Int) :
    ∀ (turns : Nat) (streamer : DiskStreamer) (total : Int),
      Erases (diskStreamerReadBytesLoopTraced drive cluster turns streamer total)
        (.ok (diskStreamerReadBytesLoop drive turns streamer total))
  | 0, _, _ => .pure _
  | turns + 1, streamer, total => by
      have rest := streamLoop_erases cluster turns
      rw [diskStreamerReadBytesLoopTraced, diskStreamerReadBytesLoop]
      split_ifs with none
      · exact .pure _
      refine .log_bind ?_
      dsimp only
      split_ifs
      · exact .pure _
      · exact .ok_bind (rest _ _) (.pure _)
      · exact .pure _

theorem stream_erases (cluster : Int) (streamer : DiskStreamer) (total : Int) :
    Erases (diskStreamerReadBytesTraced drive cluster streamer total)
      (.ok (diskStreamerReadBytes drive streamer total)) :=
  streamLoop_erases cluster _ streamer total

theorem copy_erases {stream : DiskStreamer} {clusterBytes : Int} :
    ∀ (turns : Nat) (curCluster offset total : Int),
      Erases (fat16CopyLoopTraced drive fatPrivate stream clusterBytes turns curCluster offset total)
        (.ok (fat16CopyLoop drive fatPrivate stream clusterBytes turns curCluster offset total))
  | 0, _, _, _ => .pure _
  | turns + 1, curCluster, offset, total => by
      have rest := @copy_erases stream clusterBytes turns
      rw [fat16CopyLoopTraced, fat16CopyLoop]
      by_cases none : total ≤ 0
      · rw [if_pos none, if_pos none]
        exact .pure _
      by_cases readable : isReadableCluster curCluster = true
      swap
      · rw [if_neg none, if_neg none, if_pos readable, if_pos readable]
        exact .pure _
      rw [if_neg none, if_neg none, if_neg (not_not.mpr readable), if_neg (not_not.mpr readable)]
      dsimp only
      generalize (if total > clusterBytes - offset then clusterBytes - offset else total) = bytesRead
      refine .ok_bind (stream_erases curCluster _ _) ?_
      rw [if_neg (not_not.mpr (diskStreamerReadBytes_res drive _ _)),
        if_neg (not_not.mpr (diskStreamerReadBytes_res drive _ _))]
      split_ifs
      · exact .ok_bind (rest _ _ _) (.pure _)
      · exact .ok_bind (rest _ _ _) (.pure _)

theorem internal_erases (start offset total : Int) :
    Erases (fat16ReadInternalV2Traced drive fatPrivate start offset total)
      (fat16ReadInternalV2 drive fatPrivate start offset total) :=
  .lift_bind fun _ => copy_erases _ _ _ _

theorem elements_erases {start : Int} {size : Nat} :
    ∀ (left : Nat) (offset : Int) (place : Nat) (out : Nat → UInt8),
      Erases (fat16ReadElementsTraced drive fatPrivate start size left offset place out)
        (fat16ReadElements fatPrivate drive start size left offset place out)
  | 0, _, _, _ => .pure _
  | left + 1, _, _, _ => by
      rw [fat16ReadElementsTraced, fat16ReadElements]
      refine .bind (internal_erases _ _ _) fun read => .branch (.pure _) ?_
      exact .bind (elements_erases left _ _ _) fun _ => .pure _

/-- **Without its log, the read is `fat16Read`.** -/
theorem fat16Read_erases (machine : Machine) (heap : Kheap) (privateData : Ptr) (size nmemb : Nat)
    (out : Nat → UInt8) :
    Erases (fat16ReadTraced machine fatPrivate heap privateData size nmemb out)
      (fat16Read machine fatPrivate heap privateData size nmemb out) :=
  .lift_bind fun _ => .lift_bind fun _ => .lift_bind fun _ => elements_erases _ _ _ _

end Erase

/-! ### The sectors of a chunk -/

section Chunk

open Logged

variable {drive : Drive} {cluster : Int} {P : SectorRead → Prop}

theorem tdiv_sector_of_nonneg {pos : Int} (low : 0 ≤ pos) : pos.tdiv diskSectorSize = pos / 512 :=
  Int.tdiv_eq_ediv_of_nonneg low

theorem tdiv_sector_of_neg {pos : Int} (low : pos < 0) : pos.tdiv diskSectorSize = -(-pos / 512) := by
  rw [← Int.neg_neg pos, Int.neg_tdiv, tdiv_sector_of_nonneg (by omega), Int.neg_neg]

/-- One sector, and the rest of the request behind it. -/
theorem stream_meets_iff {turns : Nat} {pos total : Int} {disk : DiskPtr} (some : 0 < total) :
    (diskStreamerReadBytesLoopTraced drive cluster (turns + 1) ⟨pos, disk⟩ total).Meets P ↔
      P ⟨cluster, pos.tdiv diskSectorSize⟩ ∧
      (512 * (pos.tdiv diskSectorSize + 1) < pos + total →
        (diskStreamerReadBytesLoopTraced drive cluster turns
          ⟨int32 (512 * (pos.tdiv diskSectorSize + 1)), disk⟩
          (pos + total - 512 * (pos.tdiv diskSectorSize + 1))).Meets P) := by
  have offset : pos.tmod diskSectorSize = pos - 512 * pos.tdiv diskSectorSize := by
    have := Int.tmod_add_mul_tdiv pos diskSectorSize
    unfold diskSectorSize at this ⊢
    omega
  have size : diskSectorSize = 512 := rfl
  rw [diskStreamerReadBytesLoopTraced, if_neg (by omega), meets_ok_bind_iff rfl, diskReadSectorTraced,
    meets_log_iff]
  refine and_congr_right fun _ => ?_
  dsimp only
  rw [diskReadSector_eq, if_neg (show ¬ ok < 0 by decide), offset]
  generalize pos.tdiv diskSectorSize = sector
  rw [size]
  by_cases more : 512 * (sector + 1) < pos + total
  · have next : pos + (512 - (pos - 512 * sector)) = 512 * (sector + 1) := by omega
    have left : total - (512 - (pos - 512 * sector)) = pos + total - 512 * (sector + 1) := by omega
    rw [if_pos (show total > 512 - (pos - 512 * sector) by omega),
      if_pos (show total > 512 - (pos - 512 * sector) by omega),
      meets_ok_bind_iff (streamLoop_erases cluster _ _ _).result, next, left]
    simp [more]
  · rw [if_neg (show ¬ total > 512 - (pos - 512 * sector) by omega),
      if_neg (show ¬ total > 512 - (pos - 512 * sector) by omega)]
    simp [more]

/-- **Below `2 ^ 31`** the sectors are those of the request's bytes. -/
theorem stream_below {disk : DiskPtr} :
    ∀ (turns : Nat) (pos total : Int), -512 < pos → pos + total ≤ 2147483648 →
      (diskStreamerReadBytesLoopTraced drive cluster turns ⟨pos, disk⟩ total).Meets fun read =>
        read.cluster = cluster ∧ pos.tdiv diskSectorSize ≤ read.sector ∧
          (read.sector = pos.tdiv diskSectorSize ∨ read.sector * 512 < pos + total)
  | 0, _, _, _, _ => meets_pure _
  | turns + 1, pos, total, low, high => by
      by_cases none : total ≤ 0
      · rw [diskStreamerReadBytesLoopTraced, if_pos none]
        exact meets_pure _
      refine (stream_meets_iff (by omega)).mpr ⟨⟨rfl, le_rfl, .inl rfl⟩, fun more => ?_⟩
      generalize sector_eq : pos.tdiv diskSectorSize = sector at *
      have behind : -1 < sector := by
        rcases Int.lt_or_le pos 0 with front | inside
        · rw [tdiv_sector_of_neg front] at sector_eq
          omega
        · rw [tdiv_sector_of_nonneg inside] at sector_eq
          omega
      rw [int32_of_range (by omega) (by omega)]
      have rest := @stream_below disk turns (512 * (sector + 1)) (pos + total - 512 * (sector + 1))
        (by omega) (by omega)
      intro read member
      obtain ⟨same, from_next, inside⟩ := rest read member
      rw [tdiv_sector_of_nonneg (by omega)] at from_next inside
      exact ⟨same, by omega, .inr (by omega)⟩

/-- **Across `2 ^ 31`** the position wraps, to a sector far in front of the disk. -/
theorem stream_wraps {disk : DiskPtr} :
    ∀ (turns : Nat) (pos total : Int), 0 ≤ pos → pos < 2147483648 → 2147483648 < pos + total →
      total ≤ turns →
      (diskStreamerReadBytesLoopTraced drive cluster turns ⟨pos, disk⟩ total).Meets P →
      P ⟨cluster, -4194304⟩
  | 0, _, _, _, _, _, _, _ => by omega
  | turns + 1, pos, total, low, high, wraps, enough, meets => by
      have rest := ((stream_meets_iff (by omega)).mp meets).2
      rw [tdiv_sector_of_nonneg low] at rest
      have meets := rest (by omega)
      by_cases last : pos / 512 = 4194303
      · obtain ⟨left, rfl⟩ : ∃ left, turns = left + 1 := ⟨turns - 1, by omega⟩
        rw [last] at meets
        exact ((stream_meets_iff (by omega)).mp meets).1
      · rw [int32_of_range (by omega) (by omega)] at meets
        exact stream_wraps turns _ _ (by omega) (by omega) (by omega) (by omega) meets

end Chunk

/-! ### The sectors of a cluster -/

/-- The sector a cluster starts at, as an exact number. -/
def FatPrivate.firstSector (fatPrivate : FatPrivate) (cluster : Int) : Int :=
  fatPrivate.rootDirectory.endingSectorPos + (cluster - 2) * fatPrivate.header.sectorsPerCluster.toNat

/-- **The sector is one of its cluster's.** -/
def SectorRead.Inside (fatPrivate : FatPrivate) (read : SectorRead) : Prop :=
  fatPrivate.firstSector read.cluster ≤ read.sector ∧
    read.sector < fatPrivate.firstSector read.cluster + fatPrivate.header.sectorsPerCluster.toNat

/-- **The bytes of a cluster between two offsets are found there**: they do not start in front of the
cluster, unless by less than a sector at the start of the disk, and end by position `2 ^ 31`. -/
structure Lands (fatPrivate : FatPrivate) (cluster start stop : Int) : Prop where
  starts : 0 ≤ start ∨ fatPrivate.firstSector cluster = 0 ∧ -512 < start
  ends : fatPrivate.firstSector cluster * 512 + stop ≤ 2147483648

section Cluster

open Logged

variable {drive : Drive} {fatPrivate : FatPrivate} {stream : DiskStreamer} {cluster start stop : Int}
  {P : SectorRead → Prop}

/-- The read of a cluster between two offsets. -/
def chunkTraced (drive : Drive) (fatPrivate : FatPrivate) (stream : DiskStreamer)
    (cluster start stop : Int) : Traced StreamRead :=
  diskStreamerReadBytesTraced drive cluster (diskStreamerSeekPos stream
    (int32 (start + fat16ClusterToSector fatPrivate cluster * diskSectorSize))) (stop - start)

/-- A chunk reads at least one sector. -/
theorem chunk_first (some : start < stop)
    (meets : (chunkTraced drive fatPrivate stream cluster start stop).Meets P) :
    P ⟨cluster, (int32 (start + fat16ClusterToSector fatPrivate cluster * diskSectorSize)).tdiv
      diskSectorSize⟩ := by
  obtain ⟨turns, turns_eq⟩ : ∃ turns, (stop - start).toNat = turns + 1 :=
    ⟨(stop - start).toNat - 1, by omega⟩
  rw [chunkTraced, diskStreamerReadBytesTraced, turns_eq] at meets
  exact ((stream_meets_iff (by omega)).mp meets).1

/-- If the first sector is not in front of the cluster, the position has not wrapped. -/
theorem position_eq {first offset : Int} (low : 0 ≤ first) (front : -130560 < offset)
    (inside : offset < 130560)
    (behind : first ≤ (int32 (offset + int32 first * diskSectorSize)).tdiv diskSectorSize) :
    int32 (offset + int32 first * diskSectorSize) = offset + first * 512 ∧
      (0 ≤ offset ∨ first = 0 ∧ -512 < offset) := by
  have size : diskSectorSize = 512 := rfl
  have floor (pos : Int) : 0 ≤ pos ∧ pos.tdiv diskSectorSize = pos / 512 ∨
      pos < 0 ∧ pos.tdiv diskSectorSize = -(-pos / 512) := by
    rcases Int.lt_or_le pos 0 with neg | nonneg
    · exact .inr ⟨neg, tdiv_sector_of_neg neg⟩
    · exact .inl ⟨nonneg, tdiv_sector_of_nonneg nonneg⟩
  have range := int32_range (offset + int32 first * diskSectorSize)
  have place := floor (int32 (offset + int32 first * diskSectorSize))
  have near : int32 first = first := int32_of_range (by omega) (by omega)
  rw [near, size] at behind place range ⊢
  have exactly : int32 (offset + first * 512) = offset + first * 512 := by
    refine int32_of_range (by omega) ?_
    by_contra wraps
    have wrapped : int32 (offset + first * 512) = offset + first * 512 - 4294967296 := by
      rw [int32, Int.bmod_def]
      split <;> omega
    omega
  rw [exactly] at behind place
  exact ⟨exactly, by omega⟩

/-- **A chunk is read from the sectors of its cluster** exactly if it lands. -/
theorem chunk_inside_iff (low : 0 ≤ fatPrivate.firstSector cluster) (some : start < stop)
    (front : -fat16GetClusterSizeInBytes fatPrivate < start)
    (inside : stop ≤ fat16GetClusterSizeInBytes fatPrivate)
    (own : ∀ sector, P ⟨cluster, sector⟩ ↔ SectorRead.Inside fatPrivate ⟨cluster, sector⟩) :
    (chunkTraced drive fatPrivate stream cluster start stop).Meets P ↔
      Lands fatPrivate cluster start stop := by
  have sectors := fatPrivate.header.sectorsPerCluster.toNat_lt
  have sector_eq : fat16ClusterToSector fatPrivate cluster = int32 (fatPrivate.firstSector cluster) := rfl
  have size : diskSectorSize = 512 := rfl
  rw [fat16GetClusterSizeInBytes_eq] at front inside
  constructor
  · intro meets
    obtain ⟨behind, -⟩ := (own _).mp (chunk_first some meets)
    obtain ⟨exactly, starts⟩ := position_eq low (by omega) (by omega) behind
    refine ⟨starts, ?_⟩
    by_contra wraps
    have range := int32_range (start + int32 (fatPrivate.firstSector cluster) * diskSectorSize)
    rw [exactly] at range
    rw [chunkTraced, sector_eq, exactly] at meets
    obtain ⟨far, -⟩ := (own _).mp (stream_wraps _ _ _ (by omega) (by omega) (by omega)
      (Int.self_le_toNat (stop - start)) meets)
    dsimp only at far
    omega
  · rintro ⟨starts, ends⟩
    have exactly : int32 (start + fat16ClusterToSector fatPrivate cluster * diskSectorSize) =
        start + fatPrivate.firstSector cluster * 512 := by
      rw [sector_eq, size, @int32_of_range (fatPrivate.firstSector cluster) (by omega) (by omega),
        int32_of_range (by omega) (by omega)]
    have reads := @stream_below drive cluster stream.disk (stop - start).toNat
      (start + fatPrivate.firstSector cluster * 512) (stop - start) (by omega) (by omega)
    rw [chunkTraced, exactly]
    intro read member
    obtain ⟨rfl, behind, before⟩ := reads read member
    refine (own _).mpr ?_
    unfold SectorRead.Inside
    dsimp only
    rcases Int.lt_or_le start 0 with neg | pos
    · rw [tdiv_sector_of_neg (by omega)] at behind before
      omega
    · rw [tdiv_sector_of_nonneg (by omega)] at behind before
      omega

end Cluster

/-! ### The sectors of a request -/

/-- The offset in its cluster at which the chunk `index` of a copy starts. -/
def chunkStart (offset : Int) (index : Nat) : Int := if index = 0 then offset else 0

/-- The offset in its cluster at which it ends. -/
def chunkEnd (clusterBytes offset total : Int) (index : Nat) : Int :=
  min clusterBytes (offset + total - index * clusterBytes)

section Copy

open Logged

variable {drive : Drive} {fatPrivate : FatPrivate} {stream : DiskStreamer} {clusterBytes : Int}
  {P : SectorRead → Prop}

/-- A turn reads its chunk; one that reaches the end of its cluster goes on at the next value of the
table. -/
theorem copy_turn_meets_iff {turns : Nat} {curCluster offset total : Int} (some : 0 < total)
    (readable : isReadableCluster curCluster = true) :
    (fat16CopyLoopTraced drive fatPrivate stream clusterBytes (turns + 1) curCluster offset total).Meets P ↔
      (chunkTraced drive fatPrivate stream curCluster offset (min clusterBytes (offset + total))).Meets P ∧
      (clusterBytes - offset ≤ total →
        (fat16CopyLoopTraced drive fatPrivate stream clusterBytes turns
          (fat16GetFatEntry drive fatPrivate curCluster) 0 (total - (clusterBytes - offset))).Meets P) := by
  have bytes : (if total > clusterBytes - offset then clusterBytes - offset else total) =
      min clusterBytes (offset + total) - offset := by
    split_ifs <;> omega
  rw [fat16CopyLoopTraced, if_neg (by omega), if_neg (not_not.mpr readable)]
  dsimp only
  rw [bytes, meets_ok_bind_iff (stream_erases curCluster _ _).result,
    if_neg (not_not.mpr (diskStreamerReadBytes_res drive _ _))]
  refine and_congr Iff.rfl ?_
  by_cases reaches : clusterBytes - offset ≤ total
  · rw [min_eq_left (by omega), if_pos rfl, meets_ok_bind_iff (copy_erases turns _ _ _).result]
    simp [reaches]
  · have whole : total - (min clusterBytes (offset + total) - offset) = 0 := by omega
    rw [if_neg (by omega), whole, meets_ok_bind_iff (copy_erases turns _ _ _).result]
    have done : (fat16CopyLoopTraced drive fatPrivate stream clusterBytes turns curCluster offset
        0).Meets P := by
      cases turns with
      | zero => exact meets_pure _
      | succ turns =>
        rw [fat16CopyLoopTraced, if_pos le_rfl]
        exact meets_pure _
    simp [reaches, done]

/-- **The sectors of a copy are those of its chunks**, by induction on its turns. -/
theorem copy_meets_iff (positive : 0 < clusterBytes) :
    ∀ (turns : Nat) (curCluster offset total : Int), offset < clusterBytes → total ≤ turns →
      ((fat16CopyLoopTraced drive fatPrivate stream clusterBytes turns curCluster offset total).Meets P ↔
        ∀ index, index < clusterSpan clusterBytes offset total →
          (∀ before, before ≤ index →
            isReadableCluster (fatRoute drive fatPrivate curCluster before) = true) →
          (chunkTraced drive fatPrivate stream (fatRoute drive fatPrivate curCluster index)
            (chunkStart offset index) (chunkEnd clusterBytes offset total index)).Meets P) := by
  intro turns
  induction turns with
  | zero =>
    intro curCluster offset total _ enough
    rw [clusterSpan_none (by omega)]
    exact iff_of_true (meets_pure _) fun index below => absurd below (Nat.not_lt_zero _)
  | succ turns ih =>
    intro curCluster offset total inside enough
    by_cases none : total ≤ 0
    · rw [fat16CopyLoopTraced, if_pos none, clusterSpan_none none]
      exact iff_of_true (meets_pure _) fun index below => absurd below (Nat.not_lt_zero _)
    by_cases readable : isReadableCluster curCluster = true
    swap
    · rw [fat16CopyLoopTraced, if_neg none, if_pos readable]
      exact iff_of_true (meets_pure _) fun index _ all => absurd (all 0 (Nat.zero_le _)) readable
    rw [copy_turn_meets_iff (by omega) readable]
    have first : chunkEnd clusterBytes offset total 0 = min clusterBytes (offset + total) := by
      rw [chunkEnd, Int.natCast_zero, Int.zero_mul, Int.sub_zero]
    by_cases reaches : clusterBytes - offset ≤ total
    · rw [ih _ _ _ positive (by omega), clusterSpan_more positive reaches (by omega)]
      have later (index : Nat) : chunkEnd clusterBytes offset total (index + 1) =
          chunkEnd clusterBytes 0 (total - (clusterBytes - offset)) index := by
        unfold chunkEnd
        rw [Int.natCast_succ, Int.add_mul, Int.one_mul]
        omega
      have start (index : Nat) : chunkStart offset (index + 1) = chunkStart 0 index := by
        cases index <;> rfl
      constructor
      · rintro ⟨here, rest⟩ index below all
        cases index with
        | zero =>
          rw [first]
          exact here
        | succ index =>
          rw [later, start]
          exact rest reaches index (by omega) fun before within => all (before + 1) (by omega)
      · intro chunks
        refine ⟨?_, fun _ index below all => ?_⟩
        · rw [← first]
          refine chunks 0 (Nat.succ_pos _) fun before within => ?_
          obtain rfl : before = 0 := by omega
          exact readable
        · rw [← later, ← start]
          refine chunks (index + 1) (by omega) fun before within => ?_
          cases before with
          | zero => exact readable
          | succ before => exact all before (by omega)
    · rw [clusterSpan_one positive (by omega) (by omega), ← first]
      refine ⟨fun here index below _ => ?_, fun chunks => ⟨?_, fun more => absurd more reaches⟩⟩
      · obtain rfl : index = 0 := by omega
        exact here.1
      · refine chunks 0 Nat.one_pos fun before within => ?_
        obtain rfl : before = 0 := by omega
        exact readable

/-- Every cluster touched has its chunk. -/
theorem chunk_some (positive : 0 < clusterBytes) {offset total : Int} (inside : offset < clusterBytes)
    {index : Nat} (below : index < clusterSpan clusterBytes offset total) :
    chunkStart offset index < chunkEnd clusterBytes offset total index := by
  have some : 0 < total := by
    by_contra none
    rw [clusterSpan_none (by omega)] at below
    exact absurd below (Nat.not_lt_zero _)
  rw [clusterSpan, if_neg (by omega)] at below
  unfold chunkStart chunkEnd
  split_ifs with first
  · rw [first, Int.natCast_zero, Int.zero_mul]
    omega
  · have reached : (index : Int) * clusterBytes ≤ offset + total - 1 :=
      (Int.le_ediv_iff_mul_le positive).mp (by omega)
    omega

/-- **The sectors of a call**, by the route from the cluster the skip loop ends in. -/
theorem internal_meets_iff (spc : fatPrivate.header.sectorsPerCluster ≠ 0) {start offset total : Int} :
    (fat16ReadInternalV2Traced drive fatPrivate start offset total).Meets P ↔
      ∀ index, index < clustersTouched fatPrivate offset total →
        (∀ before, before ≤ index → isReadableCluster (fatRoute drive fatPrivate
          (fat16SkipClusters drive fatPrivate (clustersAhead fatPrivate offset) start) before) = true) →
        (chunkTraced drive fatPrivate fatPrivate.clusterReadStream (fatRoute drive fatPrivate
            (fat16SkipClusters drive fatPrivate (clustersAhead fatPrivate offset) start) index)
          (chunkStart (offset.tmod (fat16GetClusterSizeInBytes fatPrivate)) index)
          (chunkEnd (fat16GetClusterSizeInBytes fatPrivate)
            (offset.tmod (fat16GetClusterSizeInBytes fatPrivate)) total index)).Meets P := by
  have positive := fat16GetClusterSizeInBytes_pos spc
  have cluster : fat16GetClusterForOffset drive fatPrivate start offset =
      .ok (fat16SkipClusters drive fatPrivate (clustersAhead fatPrivate offset) start) := by
    unfold fat16GetClusterForOffset
    rw [if_neg positive.ne']
    rfl
  rw [fat16ReadInternalV2Traced]
  dsimp only
  rw [cluster, Logged.ok_bind]
  exact copy_meets_iff positive _ _ _ _ (Int.tmod_lt_of_pos offset positive) (Int.self_le_toNat total)

end Copy

end KernelPlay
