/-
**Reading clusters: `fat16_read_internal_v2` and the walk along the table.**

* `fatRoute start index` — the cluster number `index` steps along the table from `start`; the route
  goes on through every value, readable or not.
* **`fat16SkipClusters_eq`** — the skip loop is the route while it stays readable, and an error code
  from the first value that is not.
* **`fat16CopyLoop_clusters`**, **`fat16CopyLoop_res`** — the copy loop reads the clusters of the
  route up to the first that is not readable, at most `clusterSpan` of them; it fails exactly if it
  meets one.
* **`fat16CopyLoop_out`** — over readable clusters it delivers the bytes of the route's clusters laid
  end to end.

The clusters a call reads from are recorded beside its result.
-/

import KernelPlay.Fat.Volume
import Mathlib.Data.List.Iterate

namespace KernelPlay

open KernelPlay.Library

/-- What takes the place of a result when the code does not return one. -/
inductive Fault
  | divideError
  | nullDeref
  | useAfterFree
  | invalidFree
  | uninitialized
  | diverges
  deriving DecidableEq, Repr

/-- Status, bytes written, and the clusters they were read from. -/
structure ClusterRead where
  res : Int
  out : List UInt8
  clusters : List Int
  deriving DecidableEq, Repr

section Code

variable (drive : Drive) (fatPrivate : FatPrivate)

/-- The loop of `fat16_get_cluster_for_offset`, by the clusters still ahead. -/
def fat16SkipClusters : Nat → Int → Int
  | 0, clusterToUse => clusterToUse
  | clustersAhead + 1, clusterToUse =>
    let entry := fat16GetFatEntry drive fatPrivate clusterToUse
    if ¬ isReadableCluster entry then -eio else fat16SkipClusters clustersAhead entry

def fat16GetClusterForOffset (startingCluster offset : Int) : Except Fault Int :=
  let clusterBytes := fat16GetClusterSizeInBytes fatPrivate
  if clusterBytes = 0 then .error .divideError
  else
    let clustersAhead := offset.tdiv clusterBytes
    .ok (fat16SkipClusters drive fatPrivate clustersAhead.toNat startingCluster)

/-- The `while` loop of `fat16_read_internal_from_stream_v2`. Each turn reads at least one byte. -/
def fat16CopyLoop (stream : DiskStreamer) (clusterBytes : Int) : Nat → Int → Int → Int → ClusterRead
  | 0, _, _, _ => ⟨ok, [], []⟩
  | turns + 1, curCluster, offsetFromCurCluster, total =>
    if total ≤ 0 then ⟨ok, [], []⟩
    else if ¬ isReadableCluster curCluster then ⟨-eio, [], []⟩
    else
      let availableInCurCluster := clusterBytes - offsetFromCurCluster
      let bytesRead := if total > availableInCurCluster then availableInCurCluster else total
      let sector := fat16ClusterToSector fatPrivate curCluster
      let pos := int32 (offsetFromCurCluster + sector * diskSectorSize)
      let read := diskStreamerReadBytes drive (diskStreamerSeekPos stream pos) bytesRead
      if read.res ≠ ok then ⟨-eio, read.bytes, [curCluster]⟩
      else
        let rest :=
          if bytesRead = availableInCurCluster then
            fat16CopyLoop stream clusterBytes turns (fat16GetFatEntry drive fatPrivate curCluster) 0
              (total - bytesRead)
          else
            fat16CopyLoop stream clusterBytes turns curCluster offsetFromCurCluster
              (total - bytesRead)
        ⟨rest.res, read.bytes ++ rest.out, curCluster :: rest.clusters⟩

def fat16ReadInternalFromStreamV2 (stream : DiskStreamer) (startingCluster offset total : Int) :
    Except Fault ClusterRead := do
  let clusterBytes := fat16GetClusterSizeInBytes fatPrivate
  let curCluster ← fat16GetClusterForOffset drive fatPrivate startingCluster offset
  let offsetFromCurCluster := offset.tmod clusterBytes
  return fat16CopyLoop drive fatPrivate stream clusterBytes total.toNat curCluster
    offsetFromCurCluster total

def fat16ReadInternalV2 (startingCluster offset total : Int) : Except Fault ClusterRead :=
  fat16ReadInternalFromStreamV2 drive fatPrivate fatPrivate.clusterReadStream startingCluster offset
    total

end Code

/-! ### The route along the table -/

section Route

variable (drive : Drive) (fatPrivate : FatPrivate)

/-- The cluster number `index` steps along the table. -/
def fatRoute (start : Int) (index : Nat) : Int := (fat16GetFatEntry drive fatPrivate)^[index] start

@[simp]
theorem fatRoute_zero (start : Int) : fatRoute drive fatPrivate start 0 = start := rfl

/-- Only the header of the volume matters to a chain. -/
theorem fatRoute_congr {other : FatPrivate} (same : fatPrivate.header = other.header) :
    fatRoute drive fatPrivate = fatRoute drive other := by
  have entry : fat16GetFatEntry drive fatPrivate = fat16GetFatEntry drive other := by
    funext cluster
    unfold fat16GetFatEntry fat16GetFirstFatSector diskStreamerSeekPos
    rw [same]
  funext start index
  rw [fatRoute, fatRoute, entry]

theorem fatRoute_step (start : Int) (index : Nat) :
    fatRoute drive fatPrivate (fat16GetFatEntry drive fatPrivate start) index =
      fatRoute drive fatPrivate start (index + 1) := rfl

theorem fatRoute_add (start : Int) (first second : Nat) :
    fatRoute drive fatPrivate (fatRoute drive fatPrivate start first) second =
      fatRoute drive fatPrivate start (first + second) := by
  rw [fatRoute, fatRoute, fatRoute, Nat.add_comm, Function.iterate_add_apply]

/-- Only the start of a route can be an error code. -/
theorem fatRoute_succ_ne_eio (start : Int) (index : Nat) :
    fatRoute drive fatPrivate start (index + 1) ≠ -eio := by
  rw [fatRoute, Function.iterate_succ_apply']
  exact fat16GetFatEntry_ne_eio _

/-- The first `count` clusters of a route. -/
def fatClusters (start : Int) (count : Nat) : List Int := window (fatRoute drive fatPrivate start) 0 count

theorem fatClusters_succ (start : Int) (count : Nat) :
    fatClusters drive fatPrivate start (count + 1) =
      start :: fatClusters drive fatPrivate (fat16GetFatEntry drive fatPrivate start) count := by
  rw [fatClusters, window_succ, fatClusters, window, window, List.range'_eq_map_range,
    List.range'_eq_map_range, List.map_map, List.map_map]
  refine congrArg _ (List.map_congr_left fun index _ => ?_)
  simp only [Function.comp_apply, Nat.zero_add]
  rw [fatRoute_step, Nat.add_comm]

/-- **The skip loop is the route while every value on it is readable.** -/
theorem fat16SkipClusters_eq :
    ∀ (count : Nat) (start : Int),
      (∀ index, 1 ≤ index → index ≤ count →
        isReadableCluster (fatRoute drive fatPrivate start index) = true) →
      fat16SkipClusters drive fatPrivate count start = fatRoute drive fatPrivate start count
  | 0, start, _ => rfl
  | count + 1, start, readable => by
      have first : isReadableCluster (fat16GetFatEntry drive fatPrivate start) = true :=
        readable 1 le_rfl (by omega)
      rw [fat16SkipClusters, ← fatRoute_step, if_neg (not_not.mpr first)]
      refine fat16SkipClusters_eq count _ fun index low high => ?_
      rw [fatRoute_step]
      exact readable (index + 1) (by omega) (by omega)

theorem fat16SkipClusters_fails :
    ∀ (count : Nat) (start : Int) (index : Nat), 1 ≤ index → index ≤ count →
      isReadableCluster (fatRoute drive fatPrivate start index) = false →
      fat16SkipClusters drive fatPrivate count start = -eio
  | 0, start, index, low, high, _ => by omega
  | count + 1, start, index, low, high, unreadable => by
      rw [fat16SkipClusters]
      split_ifs with first
      · have later : index ≠ 1 := by
          rintro rfl
          exact absurd first (by rw [Bool.not_eq_true]; exact unreadable)
        refine fat16SkipClusters_fails count _ (index - 1) (by omega) (by omega) ?_
        rw [fatRoute_step, Nat.sub_add_cancel low]
        exact unreadable
      · rfl

end Route

/-! ### The copy loop -/

/-- The clusters a copy touches, from the offset in the first of them. -/
def clusterSpan (clusterBytes offset total : Int) : Nat :=
  if total ≤ 0 then 0 else ((offset + total - 1) / clusterBytes).toNat + 1

section Span

variable {clusterBytes offset total : Int}

theorem clusterSpan_none (none : total ≤ 0) : clusterSpan clusterBytes offset total = 0 := if_pos none

theorem clusterSpan_one (positive : 0 < clusterBytes) (some : 0 < total)
    (inside : total ≤ clusterBytes - offset) : clusterSpan clusterBytes offset total = 1 := by
  rw [clusterSpan, if_neg (by omega)]
  have : (offset + total - 1) / clusterBytes < 1 := Int.ediv_lt_of_lt_mul positive (by omega)
  omega

theorem clusterSpan_more (positive : 0 < clusterBytes) (more : clusterBytes - offset ≤ total)
    (some : 0 < total) :
    clusterSpan clusterBytes offset total =
      clusterSpan clusterBytes 0 (total - (clusterBytes - offset)) + 1 := by
  by_cases exactly : total = clusterBytes - offset
  · rw [clusterSpan_one positive some exactly.le, clusterSpan_none (by omega)]
  · rw [clusterSpan, if_neg (by omega), clusterSpan, if_neg (by omega)]
    have shift : offset + total - 1 =
        0 + (total - (clusterBytes - offset)) - 1 + clusterBytes * 1 := by omega
    rw [shift, Int.add_mul_ediv_left _ _ (by omega)]
    have : 0 ≤ (0 + (total - (clusterBytes - offset)) - 1) / clusterBytes :=
      Int.ediv_nonneg (by omega) (by omega)
    omega

end Span

section Copy

variable {drive : Drive} {fatPrivate : FatPrivate} {stream : DiskStreamer} {clusterBytes : Int}

/-- One turn of the loop, as the loop's result in what the turn reads and what is left. -/
theorem fat16CopyLoop_turn {turns : Nat} {curCluster offset total : Int} (some : 0 < total)
    (readable : isReadableCluster curCluster = true) :
    fat16CopyLoop drive fatPrivate stream clusterBytes (turns + 1) curCluster offset total =
      let bytesRead := if total > clusterBytes - offset then clusterBytes - offset else total
      let read := diskStreamerReadBytes drive (diskStreamerSeekPos stream
        (int32 (offset + fat16ClusterToSector fatPrivate curCluster * diskSectorSize))) bytesRead
      let rest :=
        if bytesRead = clusterBytes - offset then
          fat16CopyLoop drive fatPrivate stream clusterBytes turns
            (fat16GetFatEntry drive fatPrivate curCluster) 0 (total - bytesRead)
        else
          fat16CopyLoop drive fatPrivate stream clusterBytes turns curCluster offset
            (total - bytesRead)
      ⟨rest.res, read.bytes ++ rest.out, curCluster :: rest.clusters⟩ := by
  rw [fat16CopyLoop]
  simp only [diskStreamerReadBytes_res, ne_eq, not_true, if_false]
  rw [if_neg (by omega), if_neg (not_not.mpr readable)]

theorem fat16CopyLoop_done {turns : Nat} {curCluster offset total : Int} (none : total ≤ 0) :
    fat16CopyLoop drive fatPrivate stream clusterBytes turns curCluster offset total =
      ⟨ok, [], []⟩ := by
  cases turns with
  | zero => rfl
  | succ turns => rw [fat16CopyLoop, if_pos none]

theorem fat16CopyLoop_stops {turns : Nat} {curCluster offset total : Int} (some : 0 < total)
    (unreadable : isReadableCluster curCluster = false) :
    fat16CopyLoop drive fatPrivate stream clusterBytes (turns + 1) curCluster offset total =
      ⟨-eio, [], []⟩ := by
  rw [fat16CopyLoop, if_neg (by omega), if_pos (by simp [unreadable])]

/-- A turn that ends inside its cluster is the last one. -/
theorem fat16CopyLoop_last {turns : Nat} {curCluster offset total : Int} (some : 0 < total)
    (readable : isReadableCluster curCluster = true) (inside : total < clusterBytes - offset) :
    fat16CopyLoop drive fatPrivate stream clusterBytes (turns + 1) curCluster offset total =
      ⟨ok, (diskStreamerReadBytes drive (diskStreamerSeekPos stream
        (int32 (offset + fat16ClusterToSector fatPrivate curCluster * diskSectorSize))) total).bytes,
        [curCluster]⟩ := by
  rw [fat16CopyLoop_turn some readable]
  dsimp only
  rw [if_neg (by omega), if_neg (by omega), fat16CopyLoop_done (by omega), List.append_nil]

/-- A turn that reaches the end of its cluster goes on at the next value of the table. -/
theorem fat16CopyLoop_next {turns : Nat} {curCluster offset total : Int} (some : 0 < total)
    (readable : isReadableCluster curCluster = true) (reaches : clusterBytes - offset ≤ total) :
    fat16CopyLoop drive fatPrivate stream clusterBytes (turns + 1) curCluster offset total =
      let rest := fat16CopyLoop drive fatPrivate stream clusterBytes turns
        (fat16GetFatEntry drive fatPrivate curCluster) 0 (total - (clusterBytes - offset))
      ⟨rest.res, (diskStreamerReadBytes drive (diskStreamerSeekPos stream
        (int32 (offset + fat16ClusterToSector fatPrivate curCluster * diskSectorSize)))
          (clusterBytes - offset)).bytes ++ rest.out, curCluster :: rest.clusters⟩ := by
  rw [fat16CopyLoop_turn some readable]
  have whole : (if total > clusterBytes - offset then clusterBytes - offset else total) =
      clusterBytes - offset := by
    split_ifs <;> omega
  dsimp only
  rw [whole, if_pos rfl]

/-- **The copy loop reads the clusters of the route up to the first that is not readable.** -/
theorem fat16CopyLoop_clusters (positive : 0 < clusterBytes) :
    ∀ (turns : Nat) (curCluster offset total : Int), offset < clusterBytes → total ≤ turns →
      (fat16CopyLoop drive fatPrivate stream clusterBytes turns curCluster offset total).clusters =
        (fatClusters drive fatPrivate curCluster (clusterSpan clusterBytes offset total)).takeWhile
          isReadableCluster := by
  intro turns
  induction turns with
  | zero =>
    intro curCluster offset total inside enough
    rw [clusterSpan_none (by omega)]
    rfl
  | succ turns ih =>
    intro curCluster offset total inside enough
    by_cases none : total ≤ 0
    · rw [fat16CopyLoop_done none, clusterSpan_none none]
      rfl
    obtain unreadable | readable := Bool.eq_false_or_eq_true (isReadableCluster curCluster) |>.symm
    · rw [fat16CopyLoop_stops (by omega) unreadable, clusterSpan, if_neg none, fatClusters_succ,
        List.takeWhile_cons, unreadable]
      rfl
    by_cases last : total < clusterBytes - offset
    · rw [fat16CopyLoop_last (by omega) readable last, clusterSpan_one positive (by omega) last.le,
        fatClusters_succ, List.takeWhile_cons, readable]
      rfl
    · rw [fat16CopyLoop_next (by omega) readable (by omega),
        clusterSpan_more positive (by omega) (by omega), fatClusters_succ, List.takeWhile_cons,
        readable]
      dsimp only
      rw [ih _ _ _ positive (by omega)]
      rfl

/-- **The copy loop fails exactly if it meets a value that is not readable.** -/
theorem fat16CopyLoop_res (positive : 0 < clusterBytes) :
    ∀ (turns : Nat) (curCluster offset total : Int), offset < clusterBytes → total ≤ turns →
      (fat16CopyLoop drive fatPrivate stream clusterBytes turns curCluster offset total).res =
        if ∀ index, index < clusterSpan clusterBytes offset total →
          isReadableCluster (fatRoute drive fatPrivate curCluster index) = true then ok else -eio := by
  intro turns
  induction turns with
  | zero =>
    intro curCluster offset total inside enough
    rw [clusterSpan_none (by omega), if_pos fun index below => absurd below (Nat.not_lt_zero _)]
    rfl
  | succ turns ih =>
    intro curCluster offset total inside enough
    by_cases none : total ≤ 0
    · rw [fat16CopyLoop_done none, clusterSpan_none none,
        if_pos fun index below => absurd below (Nat.not_lt_zero _)]
    obtain unreadable | readable := Bool.eq_false_or_eq_true (isReadableCluster curCluster) |>.symm
    · rw [fat16CopyLoop_stops (by omega) unreadable, if_neg]
      intro all
      have first := all 0 (by rw [clusterSpan, if_neg none]; exact Nat.succ_pos _)
      rw [fatRoute_zero, unreadable] at first
      exact Bool.noConfusion first
    by_cases last : total < clusterBytes - offset
    · rw [fat16CopyLoop_last (by omega) readable last, clusterSpan_one positive (by omega) last.le,
        if_pos]
      intro index below
      obtain rfl : index = 0 := by omega
      exact readable
    · rw [fat16CopyLoop_next (by omega) readable (by omega),
        clusterSpan_more positive (by omega) (by omega)]
      dsimp only
      rw [ih _ _ _ positive (by omega)]
      refine if_congr ⟨fun all index below => ?_, fun all index below => ?_⟩ rfl rfl
      · cases index with
        | zero => exact readable
        | succ index =>
          rw [← fatRoute_step]
          exact all index (by omega)
      · rw [fatRoute_step]
        exact all (index + 1) (by omega)

/-- All bytes of the cluster's sectors have positions below `2 ^ 31`. -/
structure InReach (fatPrivate : FatPrivate) (cluster : Int) : Prop where
  low : 0 ≤ fat16ClusterToSector fatPrivate cluster
  high : fat16ClusterToSector fatPrivate cluster * 512 +
    fat16GetClusterSizeInBytes fatPrivate ≤ 2147483648

/-- The bytes of a cluster. -/
def clusterContents (drive : Drive) (fatPrivate : FatPrivate) (cluster : Int) : List UInt8 :=
  window drive.image (fat16ClusterToSector fatPrivate cluster * 512).toNat
    (fatPrivate.header.sectorsPerCluster.toNat * 512)

@[simp]
theorem clusterContents_length (drive : Drive) (fatPrivate : FatPrivate) (cluster : Int) :
    (clusterContents drive fatPrivate cluster).length =
      fatPrivate.header.sectorsPerCluster.toNat * 512 := by
  rw [clusterContents, window_length]

/-- A read inside a cluster delivers that part of the cluster's bytes. -/
theorem read_inside_cluster {cluster : Int} {offset total : Nat} (reach : InReach fatPrivate cluster)
    (start : offset < fatPrivate.header.sectorsPerCluster.toNat * 512)
    (inside : offset + total ≤ fatPrivate.header.sectorsPerCluster.toNat * 512) :
    (diskStreamerReadBytes drive (diskStreamerSeekPos stream
      (int32 ((offset : Int) + fat16ClusterToSector fatPrivate cluster * diskSectorSize))) total).bytes =
      ((clusterContents drive fatPrivate cluster).drop offset).take total := by
  obtain ⟨low, high⟩ := reach
  rw [fat16GetClusterSizeInBytes_eq] at high
  obtain ⟨sector, sector_eq⟩ := Int.eq_ofNat_of_zero_le low
  rw [clusterContents, window_take_drop _ inside]
  rw [sector_eq] at high ⊢
  generalize fatPrivate.header.sectorsPerCluster.toNat * 512 = size at *
  have position : int32 ((offset : Int) + (sector : Int) * diskSectorSize) =
      ((sector * 512 + offset : Nat) : Int) := by
    unfold diskSectorSize
    rw [int32_of_range (by omega) (by omega)]
    omega
  have image_start : ((sector : Int) * 512).toNat = sector * 512 := by omega
  rw [position, image_start, diskStreamerSeekPos,
    diskStreamerReadBytes_window drive stream.disk _ _ (by omega) (by omega)]

/-- **Over readable clusters the copy loop delivers their bytes laid end to end.** -/
theorem fat16CopyLoop_out :
    ∀ (count turns : Nat) (curCluster : Int) (offset total : Nat),
      (∀ index, index < count → isReadableCluster (fatRoute drive fatPrivate curCluster index) = true ∧
        InReach fatPrivate (fatRoute drive fatPrivate curCluster index)) →
      offset < fatPrivate.header.sectorsPerCluster.toNat * 512 →
      offset + total ≤ count * (fatPrivate.header.sectorsPerCluster.toNat * 512) → total ≤ turns →
      (fat16CopyLoop drive fatPrivate stream (fat16GetClusterSizeInBytes fatPrivate) turns curCluster
        offset total).out =
        (((fatClusters drive fatPrivate curCluster count).flatMap
          (clusterContents drive fatPrivate)).drop offset).take total := by
  intro count
  induction count with
  | zero =>
    intro turns curCluster offset total _ _ fits _
    obtain rfl : total = 0 := by omega
    rw [fat16CopyLoop_done (by omega), List.take_zero]
  | succ count ih =>
    intro turns curCluster offset total route start fits enough
    by_cases none : total = 0
    · rw [fat16CopyLoop_done (by omega), none, List.take_zero]
    obtain ⟨turns, rfl⟩ : ∃ rest, turns = rest + 1 := ⟨turns - 1, by omega⟩
    obtain ⟨readable, reach⟩ := route 0 (by omega)
    rw [fatRoute_zero] at readable reach
    have contents := clusterContents_length drive fatPrivate curCluster
    have size := fat16GetClusterSizeInBytes_eq fatPrivate
    rw [fatClusters_succ, List.flatMap_cons, List.drop_append_of_le_length (by omega)]
    by_cases last : (total : Int) < fat16GetClusterSizeInBytes fatPrivate - offset
    · rw [fat16CopyLoop_last (by omega) readable last]
      rw [size] at last
      dsimp only
      rw [read_inside_cluster reach start (by omega), List.take_append_of_le_length]
      rw [List.length_drop, contents]
      omega
    · rw [fat16CopyLoop_next (by omega) readable (by omega)]
      rw [size] at last ⊢
      obtain ⟨rest, rfl⟩ : ∃ rest,
          total = fatPrivate.header.sectorsPerCluster.toNat * 512 - offset + rest :=
        ⟨total - (fatPrivate.header.sectorsPerCluster.toNat * 512 - offset), by omega⟩
      generalize step_eq : fatPrivate.header.sectorsPerCluster.toNat * 512 - offset = step at *
      have step_cast : ((fatPrivate.header.sectorsPerCluster.toNat * 512 : Nat) : Int) - (offset : Int) =
          (step : Int) := by omega
      have left : ((step + rest : Nat) : Int) - (step : Int) = (rest : Int) := by omega
      dsimp only
      rw [step_cast, left, read_inside_cluster reach start (by omega), ← size]
      have tail := ih turns (fat16GetFatEntry drive fatPrivate curCluster) 0 rest
        (fun index below => by rw [fatRoute_step]; exact route (index + 1) (by omega)) (by omega)
        (by rw [Nat.succ_mul] at fits; omega) (by omega)
      rw [List.drop_zero] at tail
      have taken : ((clusterContents drive fatPrivate curCluster).drop offset).length = step := by
        rw [List.length_drop, contents, step_eq]
      rw [List.take_append, taken, Nat.add_sub_cancel_left, List.take_of_length_le taken.le,
        List.take_of_length_le (by rw [taken]; omega), ← tail]
      rfl

end Copy

/-! ### One call -/

section Call

variable (drive : Drive) (fatPrivate : FatPrivate)

/-- The clusters the skip loop of a request at `offset` passes. -/
def clustersAhead (offset : Int) : Nat := (offset.tdiv (fat16GetClusterSizeInBytes fatPrivate)).toNat

/-- The clusters the copy loop of a request touches. -/
def clustersTouched (offset total : Int) : Nat :=
  clusterSpan (fat16GetClusterSizeInBytes fatPrivate)
    (offset.tmod (fat16GetClusterSizeInBytes fatPrivate)) total

variable {drive fatPrivate}

theorem fat16GetClusterSizeInBytes_pos (spc : fatPrivate.header.sectorsPerCluster ≠ 0) :
    0 < fat16GetClusterSizeInBytes fatPrivate := by
  have nonzero : fatPrivate.header.sectorsPerCluster.toNat ≠ 0 :=
    fun zero => spc (UInt8.toNat_inj.mp zero)
  rw [fat16GetClusterSizeInBytes_eq]
  omega

/-- A volume that declares clusters of no sector cannot be read. -/
theorem fat16ReadInternalV2_divide (spc : fatPrivate.header.sectorsPerCluster = 0)
    (start offset total : Int) :
    fat16ReadInternalV2 drive fatPrivate start offset total = .error .divideError := by
  have size : fat16GetClusterSizeInBytes fatPrivate = 0 := by
    rw [fat16GetClusterSizeInBytes_eq, spc]
    rfl
  unfold fat16ReadInternalV2 fat16ReadInternalFromStreamV2 fat16GetClusterForOffset
  simp only [size, if_true]
  rfl

/-- A call is its copy loop at the cluster the skip loop ends in. -/
theorem fat16ReadInternalV2_eq (spc : fatPrivate.header.sectorsPerCluster ≠ 0)
    (start offset total : Int) :
    fat16ReadInternalV2 drive fatPrivate start offset total =
      .ok (fat16CopyLoop drive fatPrivate fatPrivate.clusterReadStream
        (fat16GetClusterSizeInBytes fatPrivate) total.toNat
        (fat16SkipClusters drive fatPrivate (clustersAhead fatPrivate offset) start)
        (offset.tmod (fat16GetClusterSizeInBytes fatPrivate)) total) := by
  have size := (fat16GetClusterSizeInBytes_pos spc).ne'
  unfold fat16ReadInternalV2 fat16ReadInternalFromStreamV2 fat16GetClusterForOffset
  simp only [size, if_false]
  rfl

/-- **What one call reads and returns**, by the route from the cluster the skip loop ends in. -/
theorem fat16ReadInternalV2_spec (drive : Drive) (spc : fatPrivate.header.sectorsPerCluster ≠ 0)
    (start offset total : Int) :
    ∃ read, fat16ReadInternalV2 drive fatPrivate start offset total = .ok read ∧
      read.clusters = (fatClusters drive fatPrivate
        (fat16SkipClusters drive fatPrivate (clustersAhead fatPrivate offset) start)
        (clustersTouched fatPrivate offset total)).takeWhile isReadableCluster ∧
      read.res = if ∀ index, index < clustersTouched fatPrivate offset total →
        isReadableCluster (fatRoute drive fatPrivate
          (fat16SkipClusters drive fatPrivate (clustersAhead fatPrivate offset) start) index) = true
        then ok else -eio := by
  have positive := fat16GetClusterSizeInBytes_pos spc
  have inside := Int.tmod_lt_of_pos offset positive
  exact ⟨_, fat16ReadInternalV2_eq spc start offset total,
    fat16CopyLoop_clusters positive _ _ _ _ inside (Int.self_le_toNat total),
    fat16CopyLoop_res positive _ _ _ _ inside (Int.self_le_toNat total)⟩

end Call

end KernelPlay
