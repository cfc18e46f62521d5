/-
**Files as chains of the table, and requests beyond their end.**

`FileChain start length` — `length` data clusters from `start` on, ended by a mark.
`fat16_read_internal_v2` meets the end of a chain in two loops. The copy loop reports it; the skip
loop reports it by the value `-EIO`, which passes for a cluster number and is read from
(`read_past_end_fails`). `read_past_end_iff` says which requests beyond the end do fail as they
should.
-/

import KernelPlay.Fat.Read

namespace KernelPlay

open KernelPlay.Library

/-- The numbers of data clusters. -/
def IsDataNumber (value : Int) : Prop := 2 ≤ value ∧ value ≤ 0xFFEF

def IsEndMark (value : Int) : Prop := 0xFFF8 ≤ value ∧ value ≤ 0xFFFF

/-- **A file's chain**: data clusters ended by a mark. The entry of an empty file holds `0`. -/
structure FileChain (drive : Drive) (fatPrivate : FatPrivate) (start : Int) (length : Nat) : Prop where
  data : ∀ index, index < length → IsDataNumber (fatRoute drive fatPrivate start index)
  ended : IsEndMark (fatRoute drive fatPrivate start length) ∨ length = 0 ∧ start = 0

section Chain

variable {drive : Drive} {fatPrivate : FatPrivate} {start : Int} {length : Nat}

theorem IsDataNumber.readable {value : Int} (data : IsDataNumber value) :
    isReadableCluster value = true := by
  obtain ⟨low, high⟩ := data
  rw [isReadableCluster_iff]
  omega

theorem IsEndMark.unreadable {value : Int} (mark : IsEndMark value) : isReadableCluster value = false := by
  rw [← Bool.not_eq_true, isReadableCluster_iff]
  have := mark.1
  omega

theorem FileChain.end_unreadable (chain : FileChain drive fatPrivate start length) :
    isReadableCluster (fatRoute drive fatPrivate start length) = false := by
  obtain mark | ⟨rfl, rfl⟩ := chain.ended
  · exact mark.unreadable
  · rfl

theorem FileChain.start_ne_eio (chain : FileChain drive fatPrivate start length) : start ≠ -eio := by
  intro error
  cases length with
  | succ length =>
    have low := (chain.data 0 (Nat.succ_pos _)).1
    rw [fatRoute_zero, error] at low
    exact absurd low (by decide)
  | zero =>
    obtain mark | ⟨-, zero⟩ := chain.ended
    · have low := mark.1
      rw [fatRoute_zero, error] at low
      exact absurd low (by decide)
    · exact absurd (error.symm.trans zero) (by decide)

end Chain

/-! ### Requests beyond the end -/

/-- The call fails with `-EIO` and never takes an error code for a cluster. -/
def FailsCleanly (result : Except Fault ClusterRead) : Prop :=
  ∃ read, result = .ok read ∧ read.res = -eio ∧ -eio ∉ read.clusters

section Past

variable {drive : Drive} {fatPrivate : FatPrivate} {start offset total : Int}

/-- Once the skip loop has failed, the copy loop starts by reading the error code's sectors. -/
theorem lost_request_reads_eio (spc : fatPrivate.header.sectorsPerCluster ≠ 0) (some : 1 ≤ total)
    {index : Nat} (low : 1 ≤ index) (high : index ≤ clustersAhead fatPrivate offset)
    (unreadable : isReadableCluster (fatRoute drive fatPrivate start index) = false) :
    ¬ FailsCleanly (fat16ReadInternalV2 drive fatPrivate start offset total) := by
  rintro ⟨read, result, -, clean⟩
  obtain ⟨read', result', clusters, -⟩ := fat16ReadInternalV2_spec drive spc start offset total
  obtain rfl : read = read' := Except.ok.inj (result.symm.trans result')
  refine clean ?_
  rw [clusters, fat16SkipClusters_fails drive fatPrivate _ start index low high unreadable,
    clustersTouched, clusterSpan, if_neg (by omega), fatClusters_succ, List.takeWhile_cons,
    isReadableCluster_eio]
  exact List.mem_cons_self

/-- **A request fails cleanly exactly if the skip loop gets through and the copy loop meets an
unreadable value.** -/
theorem failsCleanly_iff (spc : fatPrivate.header.sectorsPerCluster ≠ 0) (some : 1 ≤ total)
    (honest : start ≠ -eio) :
    FailsCleanly (fat16ReadInternalV2 drive fatPrivate start offset total) ↔
      (∀ index, 1 ≤ index → index ≤ clustersAhead fatPrivate offset →
        isReadableCluster (fatRoute drive fatPrivate start index) = true) ∧
      ∃ index, clustersAhead fatPrivate offset ≤ index ∧
        index < clustersAhead fatPrivate offset + clustersTouched fatPrivate offset total ∧
        isReadableCluster (fatRoute drive fatPrivate start index) = false := by
  by_cases through : ∀ index, 1 ≤ index → index ≤ clustersAhead fatPrivate offset →
      isReadableCluster (fatRoute drive fatPrivate start index) = true
  · obtain ⟨read, result, clusters, res⟩ :=
      fat16ReadInternalV2_spec drive spc start offset total
    rw [fat16SkipClusters_eq drive fatPrivate _ start through] at clusters res
    have clean : -eio ∉ read.clusters := by
      rw [clusters]
      intro member
      obtain ⟨index, -, error⟩ := List.mem_map.mp (List.takeWhile_subset _ member)
      rw [fatRoute_add] at error
      cases whole : clustersAhead fatPrivate offset + index with
      | zero =>
        rw [whole, fatRoute_zero] at error
        exact honest error
      | succ step =>
        rw [whole] at error
        exact fatRoute_succ_ne_eio drive fatPrivate start step error
    have fails : read.res = -eio ↔ ∃ index, index < clustersTouched fatPrivate offset total ∧
        isReadableCluster (fatRoute drive fatPrivate start
          (clustersAhead fatPrivate offset + index)) = false := by
      rw [res]
      simp only [fatRoute_add]
      split_ifs with all
      · refine ⟨fun error => absurd error (by decide), ?_⟩
        rintro ⟨index, below, unreadable⟩
        rw [all index below] at unreadable
        exact Bool.noConfusion unreadable
      · push Not at all
        simpa using all
    refine ⟨?_, ?_⟩
    · rintro ⟨read', result', error, -⟩
      obtain rfl : read = read' := Except.ok.inj (result.symm.trans result')
      obtain ⟨index, below, unreadable⟩ := fails.mp error
      exact ⟨through, _, Nat.le_add_right _ index, by omega, unreadable⟩
    · rintro ⟨-, index, low, high, unreadable⟩
      refine ⟨read, result, fails.mpr ⟨index - clustersAhead fatPrivate offset, by omega, ?_⟩, clean⟩
      rw [Nat.add_sub_cancel' low]
      exact unreadable
  · refine ⟨fun fails => ?_, fun both => absurd both.1 through⟩
    push Not at through
    obtain ⟨index, low, high, unreadable⟩ := through
    exact absurd fails (lost_request_reads_eio spc some low high (by simpa using unreadable))

end Past

section Beyond

variable {drive : Drive} {fatPrivate : FatPrivate} {start offset total : Int} {length : Nat}

/-- The skip loop stops before cluster `count` exactly if the request starts before it. -/
theorem clustersAhead_lt_iff (spc : fatPrivate.header.sectorsPerCluster ≠ 0) (low : 0 ≤ offset)
    (count : Nat) :
    clustersAhead fatPrivate offset < count ↔
      offset < count * fat16GetClusterSizeInBytes fatPrivate := by
  have positive := fat16GetClusterSizeInBytes_pos spc
  rw [clustersAhead, Int.tdiv_eq_ediv_of_nonneg low, ← Int.ediv_lt_iff_lt_mul positive]
  have := Int.ediv_nonneg low positive.le
  omega

/-- The request reaches into cluster `count` exactly if it ends behind its start. -/
theorem lt_ahead_add_touched_iff (spc : fatPrivate.header.sectorsPerCluster ≠ 0) (low : 0 ≤ offset)
    (some : 1 ≤ total) (count : Nat) :
    count < clustersAhead fatPrivate offset + clustersTouched fatPrivate offset total ↔
      count * fat16GetClusterSizeInBytes fatPrivate < offset + total := by
  have positive := fat16GetClusterSizeInBytes_pos spc
  rw [clustersAhead, clustersTouched, clusterSpan, if_neg (by omega),
    Int.tdiv_eq_ediv_of_nonneg low, Int.tmod_eq_emod_of_nonneg low]
  generalize fat16GetClusterSizeInBytes fatPrivate = size at *
  have ahead := Int.ediv_nonneg low positive.le
  have within := Int.emod_nonneg offset positive.ne'
  have touched : 0 ≤ (offset % size + total - 1) / size := Int.ediv_nonneg (by omega) positive.le
  have last : (offset + total - 1) / size = offset / size + (offset % size + total - 1) / size := by
    have split : offset + total - 1 = (offset % size + total - 1) + size * (offset / size) := by
      have := Int.emod_add_mul_ediv offset size
      omega
    rw [split, Int.add_mul_ediv_left _ _ positive.ne', Int.add_comm]
  have reach : (count : Int) ≤ (offset + total - 1) / size ↔ count * size ≤ offset + total - 1 :=
    Int.le_ediv_iff_mul_le positive
  omega

/-- **A request beyond the end of a chain fails cleanly** exactly if it starts before the end; on an
empty chain, exactly if the skip loop gets through from the start and the copy loop meets an
unreadable value. -/
theorem read_past_end_iff (chain : FileChain drive fatPrivate start length) (low : 0 ≤ offset)
    (some : 1 ≤ total) (past : length * fat16GetClusterSizeInBytes fatPrivate < offset + total) :
    FailsCleanly (fat16ReadInternalV2 drive fatPrivate start offset total) ↔
      fatPrivate.header.sectorsPerCluster ≠ 0 ∧
      (offset < length * fat16GetClusterSizeInBytes fatPrivate ∨
        length = 0 ∧
        (∀ index, 1 ≤ index → index ≤ clustersAhead fatPrivate offset →
          isReadableCluster (fatRoute drive fatPrivate start index) = true) ∧
        ∃ index, clustersAhead fatPrivate offset ≤ index ∧
          index < clustersAhead fatPrivate offset + clustersTouched fatPrivate offset total ∧
          isReadableCluster (fatRoute drive fatPrivate start index) = false) := by
  by_cases spc : fatPrivate.header.sectorsPerCluster = 0
  · refine ⟨?_, fun both => absurd spc both.1⟩
    rintro ⟨read, result, -⟩
    rw [fat16ReadInternalV2_divide spc] at result
    cases result
  rw [failsCleanly_iff spc some chain.start_ne_eio]
  cases length with
  | zero =>
    rw [Int.natCast_zero, Int.zero_mul]
    refine ⟨fun both => ⟨spc, .inr ⟨rfl, both⟩⟩, ?_⟩
    rintro ⟨-, before | ⟨-, both⟩⟩
    · omega
    · exact both
  | succ length =>
    rw [← clustersAhead_lt_iff spc low]
    refine ⟨fun both => ⟨spc, .inl ?_⟩, ?_⟩
    · by_contra beyond
      have marked := both.1 (length + 1) (by omega) (by omega)
      rw [chain.end_unreadable] at marked
      exact Bool.noConfusion marked
    · rintro ⟨-, before | ⟨empty, -⟩⟩
      · refine ⟨fun index _ high => (chain.data index (by omega)).readable, length + 1, before.le, ?_,
          chain.end_unreadable⟩
        exact (lt_ahead_add_touched_iff spc low some _).mpr past
      · omega

end Beyond

/-! ### A volume with one file of one cluster -/

section Small

/-- Sector 0 is the header, sector 1 the table, in which cluster 2 ends its chain, and sector 3
cluster 2 with the bytes `0, 1, …`. -/
def smallDrive : Drive where
  sector lba index :=
    if lba = 0 then
      if index = 13 ∨ index = 14 ∨ index = 16 ∨ index = 22 then 1
      else if index = 17 then 16
      else if index = 19 then 8
      else if index = 38 then 0x29
      else 0
    else if lba = 1 ∧ (index = 4 ∨ index = 5) then 0xFF
    else if lba = 3 then UInt8.ofNat index
    else 0
  belowBuffer _ := 0

def smallHeader : FatHeader where
  sectorsPerCluster := 1
  reservedSectors := 1
  fatCopies := 1
  rootDirEntries := 16
  numberOfSectors := 8
  sectorsPerFat := 1
  sectorsBig := 0
  signature := 0x29

def smallPrivate : FatPrivate where
  header := smallHeader
  rootDirectory := ⟨4096, 0, 2, 3⟩
  clusterReadStream := ⟨0, .rootDisk⟩
  fatReadStream := ⟨0, .rootDisk⟩
  directoryStream := ⟨0, .rootDisk⟩

theorem small_chain : FileChain smallDrive smallPrivate 2 1 where
  data index below := by
    obtain rfl : index = 0 := by omega
    exact ⟨by decide, by decide⟩
  ended := .inl (by
    have mark : fatRoute smallDrive smallPrivate 2 1 = 0xFFFF := by decide
    rw [mark]
    exact ⟨by decide, by decide⟩)

/-- A request that crosses the end of the chain fails as it should. -/
theorem read_past_end_iff_crossing :
    FailsCleanly (fat16ReadInternalV2 smallDrive smallPrivate 2 500 13) :=
  (read_past_end_iff small_chain (by decide) (by decide) (by decide)).mpr
    ⟨by decide, .inl (by decide)⟩

/-- A request at the end of the chain reads the sectors of "cluster" `-1` and succeeds. -/
theorem read_past_end_fails :
    FileChain smallDrive smallPrivate 2 1 ∧
    1 * fat16GetClusterSizeInBytes smallPrivate < 512 + 1 ∧
    fat16ReadInternalV2 smallDrive smallPrivate 2 512 1 = .ok ⟨ok, [0], [-eio]⟩ ∧
    ¬ FailsCleanly (fat16ReadInternalV2 smallDrive smallPrivate 2 512 1) := by
  have read : fat16ReadInternalV2 smallDrive smallPrivate 2 512 1 = .ok ⟨ok, [0], [-eio]⟩ := by
    rw [fat16ReadInternalV2_eq (by decide)]
    exact congrArg Except.ok (by decide)
  refine ⟨small_chain, by decide, read, ?_⟩
  rintro ⟨other, result, error, -⟩
  obtain rfl := Except.ok.inj (read.symm.trans result)
  exact absurd error (by decide)

end Small

end KernelPlay
