/-
**Which sectors a read of a file may touch.**

`DataCluster` — the number of a data cluster whose sectors the volume has. A read is safe if every
sector it reads is one of the data cluster its chain has led to, and it stops with `-EIO` where the
chain leads to any other value (`SafeRead`). `is_readable_cluster` refuses some of these values, and
only where the copy loop meets them; and a position that is negative or reaches `2 ^ 31` is looked for
elsewhere (`Lands`). `safe_read_iff` says exactly when a read is safe, whatever the table holds, and
`safe_read_fails` is a read of a cluster the volume does not have.
-/

import KernelPlay.Fat.EndOfChain
import KernelPlay.Fat.Sectors

namespace KernelPlay

open KernelPlay.Library
open KernelPlay.Library.Logged (meets_pure meets_bind_iff meets_ok_bind_iff)

/-- The sectors the header declares. -/
def FatHeader.totalSectors (header : FatHeader) : Nat :=
  if header.numberOfSectors ≠ 0 then header.numberOfSectors.toNat else header.sectorsBig.toNat

/-- **A data cluster of the volume**: its number is in range and its sectors are declared. -/
structure DataCluster (fatPrivate : FatPrivate) (cluster : Int) : Prop where
  number : IsDataNumber cluster
  low : 0 ≤ fatPrivate.firstSector cluster
  high : fatPrivate.firstSector cluster + fatPrivate.header.sectorsPerCluster.toNat ≤
    fatPrivate.header.totalSectors

theorem dataCluster_iff {fatPrivate : FatPrivate} {cluster : Int} :
    DataCluster fatPrivate cluster ↔
      (2 ≤ cluster ∧ cluster ≤ 0xFFEF) ∧ 0 ≤ fatPrivate.firstSector cluster ∧
      fatPrivate.firstSector cluster + fatPrivate.header.sectorsPerCluster.toNat ≤
        fatPrivate.header.totalSectors :=
  ⟨fun ⟨number, low, high⟩ => ⟨number, low, high⟩, fun ⟨number, low, high⟩ => ⟨number, low, high⟩⟩

instance (fatPrivate : FatPrivate) (cluster : Int) : Decidable (DataCluster fatPrivate cluster) :=
  decidable_of_iff _ dataCluster_iff.symm

/-! ### One element -/

section Element

variable (drive : Drive) (fatPrivate : FatPrivate) (start offset total : Int)

/-- The request follows the chain to its value `index`: in the skip loop or in the copy loop. -/
def Follows (index : Nat) : Prop :=
  index ≤ clustersAhead fatPrivate offset ∨
    index < clustersAhead fatPrivate offset + clustersTouched fatPrivate offset total

/-- Every value the request follows the chain to is a data cluster. -/
def RouteData : Prop :=
  ∀ index, Follows fatPrivate offset total index →
    DataCluster fatPrivate (fatRoute drive fatPrivate start index)

/-- The first value that is not a data cluster is met by the copy loop, and refused. -/
def StopsInCopy : Prop :=
  1 ≤ total ∧ ∃ index, Follows fatPrivate offset total index ∧
    (∀ before, before < index → DataCluster fatPrivate (fatRoute drive fatPrivate start before)) ∧
    ¬ DataCluster fatPrivate (fatRoute drive fatPrivate start index) ∧
    isReadableCluster (fatRoute drive fatPrivate start index) = false ∧
    (clustersAhead fatPrivate offset < index ∨ clustersAhead fatPrivate offset = 0)

/-- The chain leads to the cluster over data clusters only. -/
def OnDataChain (cluster : Int) : Prop :=
  ∃ index, cluster = fatRoute drive fatPrivate start index ∧
    ∀ before, before ≤ index → DataCluster fatPrivate (fatRoute drive fatPrivate start before)

/-- Of every cluster that the copy loop comes to over data clusters, the bytes of the request land. -/
def RouteLands : Prop :=
  ∀ index, index < clustersTouched fatPrivate offset total →
    (∀ before, before ≤ clustersAhead fatPrivate offset + index →
      DataCluster fatPrivate (fatRoute drive fatPrivate start before)) →
    Lands fatPrivate (fatRoute drive fatPrivate start (clustersAhead fatPrivate offset + index))
      (chunkStart (offset.tmod (fat16GetClusterSizeInBytes fatPrivate)) index)
      (chunkEnd (fat16GetClusterSizeInBytes fatPrivate)
        (offset.tmod (fat16GetClusterSizeInBytes fatPrivate)) total index)

/-- **The sector is one of a data cluster the chain leads to** over data clusters. -/
structure OfChain (read : SectorRead) : Prop where
  chain : OnDataChain drive fatPrivate start read.cluster
  inside : read.Inside fatPrivate

/-- What one call has to do. -/
def SafeElement (read : Traced ClusterRead) : Prop :=
  read.Meets (OfChain drive fatPrivate start) ∧
  (¬ RouteData drive fatPrivate start offset total →
    ∃ result, read.result = .ok result ∧ result.res = -eio)

variable {drive fatPrivate start offset total}

theorem DataCluster.readable {cluster : Int} (data : DataCluster fatPrivate cluster) :
    isReadableCluster cluster = true :=
  data.number.readable

theorem not_dataCluster_eio : ¬ DataCluster fatPrivate (-eio) :=
  fun data => absurd data.number.1 (by decide)

theorem OnDataChain.data {cluster : Int} (chain : OnDataChain drive fatPrivate start cluster) :
    DataCluster fatPrivate cluster := by
  obtain ⟨index, rfl, data⟩ := chain
  exact data index le_rfl

theorem touched_pos (fatPrivate : FatPrivate) (offset : Int) (some : 1 ≤ total) :
    0 < clustersTouched fatPrivate offset total := by
  rw [clustersTouched, clusterSpan, if_neg (by omega)]
  exact Nat.succ_pos _

/-- While the chain is data, the copy loop starts on it. -/
theorem skip_of_data
    (data : ∀ index, 1 ≤ index → index ≤ clustersAhead fatPrivate offset →
      DataCluster fatPrivate (fatRoute drive fatPrivate start index)) :
    fat16SkipClusters drive fatPrivate (clustersAhead fatPrivate offset) start =
      fatRoute drive fatPrivate start (clustersAhead fatPrivate offset) :=
  fat16SkipClusters_eq drive fatPrivate _ start fun index low high => (data index low high).readable

/-- The least value of the route that is not a data cluster, if the request follows one. -/
theorem first_bad (bad : ¬ RouteData drive fatPrivate start offset total) :
    ∃ index, Follows fatPrivate offset total index ∧
      (∀ before, before < index → DataCluster fatPrivate (fatRoute drive fatPrivate start before)) ∧
      ¬ DataCluster fatPrivate (fatRoute drive fatPrivate start index) := by
  classical
  have exists_bad : ∃ index, Follows fatPrivate offset total index ∧
      ¬ DataCluster fatPrivate (fatRoute drive fatPrivate start index) := by
    by_contra none
    push Not at none
    exact bad none
  obtain ⟨follows, not_data⟩ := Nat.find_spec exists_bad
  refine ⟨Nat.find exists_bad, follows, fun before below => ?_, not_data⟩
  by_contra not_before
  refine Nat.find_min exists_bad below ⟨?_, not_before⟩
  rcases follows with ahead | touched
  · exact .inl (by omega)
  · exact .inr (by omega)

/-- A chain that comes back to a cluster goes on through the values it has been through. -/
theorem readable_of_return {first second : Nat} (later : first < second)
    (same : fatRoute drive fatPrivate start second = fatRoute drive fatPrivate start first)
    (readable : ∀ index, 1 ≤ index → index ≤ second →
      isReadableCluster (fatRoute drive fatPrivate start index) = true) :
    ∀ index, 1 ≤ index → isReadableCluster (fatRoute drive fatPrivate start index) = true := by
  intro index
  induction index using Nat.strong_induction_on with
  | _ index ih =>
    intro low
    by_cases within : index ≤ second
    · exact readable index low within
    · have back := ih (first + (index - second)) (by omega) (by omega)
      rw [← fatRoute_add, ← same, fatRoute_add, Nat.add_sub_cancel' (by omega)] at back
      exact back

/-- A call that copies nothing, or meets only readable values, succeeds. -/
theorem read_ok (spc : fatPrivate.header.sectorsPerCluster ≠ 0) {read : ClusterRead}
    (result : fat16ReadInternalV2 drive fatPrivate start offset total = .ok read)
    (harmless : total ≤ 0 ∨
      ∀ index, isReadableCluster (fatRoute drive fatPrivate start index) = true) :
    read.res = ok := by
  obtain ⟨read', result', -, res⟩ := fat16ReadInternalV2_spec drive spc start offset total
  obtain rfl : read = read' := Except.ok.inj (result.symm.trans result')
  rw [res, if_pos]
  intro index below
  rcases harmless with none | readable
  · rw [clustersTouched, clusterSpan_none none] at below
    exact absurd below (Nat.not_lt_zero _)
  · rw [fat16SkipClusters_eq drive fatPrivate _ start fun before _ _ => readable before, fatRoute_add]
    exact readable _

/-- A call whose chain is data succeeds. -/
theorem read_ok_of_data (spc : fatPrivate.header.sectorsPerCluster ≠ 0) {read : ClusterRead}
    (result : fat16ReadInternalV2 drive fatPrivate start offset total = .ok read)
    (data : RouteData drive fatPrivate start offset total) : read.res = ok := by
  obtain ⟨read', result', -, res⟩ := fat16ReadInternalV2_spec drive spc start offset total
  obtain rfl : read = read' := Except.ok.inj (result.symm.trans result')
  rw [res, skip_of_data fun before _ within => data before (.inl within), if_pos]
  intro index below
  rw [fatRoute_add]
  exact (data _ (.inr (by omega))).readable

/-- **Where a call goes wrong**: it reads from a cluster the data chain does not lead to, or it
passes a bad value for a good one without noticing. -/
theorem unsafe_element (spc : fatPrivate.header.sectorsPerCluster ≠ 0) {read : ClusterRead}
    (result : fat16ReadInternalV2 drive fatPrivate start offset total = .ok read)
    (bad : ¬ RouteData drive fatPrivate start offset total)
    (stuck : ¬ StopsInCopy drive fatPrivate start offset total) :
    (∃ cluster ∈ read.clusters, ¬ OnDataChain drive fatPrivate start cluster) ∨ total ≤ 0 ∨
      ∀ index, isReadableCluster (fatRoute drive fatPrivate start index) = true := by
  obtain ⟨read', result', clusters, -⟩ :=
    fat16ReadInternalV2_spec drive spc start offset total
  obtain rfl : read = read' := Except.ok.inj (result.symm.trans result')
  obtain ⟨index, follows, data, not_data⟩ := first_bad bad
  by_cases none : total ≤ 0
  · exact .inr (.inl none)
  have touched := touched_pos fatPrivate offset (Int.not_le.mp none)
  by_cases ahead : clustersAhead fatPrivate offset < index ∨ clustersAhead fatPrivate offset = 0
  · have readable : isReadableCluster (fatRoute drive fatPrivate start index) = true := by
      by_contra refused
      exact stuck ⟨by omega, index, follows, data, not_data, by simpa using refused, ahead⟩
    rw [skip_of_data fun before low within => data before (by omega)] at clusters
    refine .inl ⟨fatRoute drive fatPrivate start index, ?_, fun chain => not_data chain.data⟩
    rw [clusters, fatClusters, mem_takeWhile_window]
    refine ⟨index - clustersAhead fatPrivate offset, ?_, ?_, fun before within => ?_⟩
    · unfold Follows at follows
      omega
    · rw [fatRoute_add]
      congr 1
      omega
    · rw [fatRoute_add]
      by_cases last : clustersAhead fatPrivate offset + (0 + before) = index
      · rw [last]
        exact readable
      · exact (data _ (by omega)).readable
  -- The first bad value is behind the copy loop: the skip loop has passed it, or failed.
  by_cases through : ∀ before, 1 ≤ before → before ≤ clustersAhead fatPrivate offset →
      isReadableCluster (fatRoute drive fatPrivate start before) = true
  · rw [fat16SkipClusters_eq drive fatPrivate _ start through] at clusters
    by_cases chain : OnDataChain drive fatPrivate start
        (fatRoute drive fatPrivate start (clustersAhead fatPrivate offset))
    · obtain ⟨place, same, good⟩ := chain
      have before_bad : place < index := by
        by_contra beyond
        exact not_data (good index (by omega))
      have forever := readable_of_return (by omega) same through
      refine .inr (.inr fun step => ?_)
      cases step with
      | zero => exact (good 0 (Nat.zero_le _)).readable
      | succ step => exact forever _ (Nat.succ_pos _)
    · refine .inl ⟨_, ?_, chain⟩
      rw [clusters, fatClusters, mem_takeWhile_window]
      refine ⟨0, touched, rfl, fun before within => ?_⟩
      obtain rfl : before = 0 := by omega
      exact through _ (by omega) le_rfl
  · push Not at through
    obtain ⟨before, low, high, refused⟩ := through
    rw [fat16SkipClusters_fails drive fatPrivate _ start before low high (by simpa using refused)]
      at clusters
    refine .inl ⟨-eio, ?_, fun chain => not_dataCluster_eio chain.data⟩
    rw [clusters, fatClusters, mem_takeWhile_window]
    refine ⟨0, touched, rfl, fun before within => ?_⟩
    obtain rfl : before = 0 := by omega
    exact isReadableCluster_eio

/-- The copy loop starts on the route, and comes to no cluster but over data clusters. -/
theorem reached_data
    (sound : RouteData drive fatPrivate start offset total ∨ StopsInCopy drive fatPrivate start offset total) :
    fat16SkipClusters drive fatPrivate (clustersAhead fatPrivate offset) start =
        fatRoute drive fatPrivate start (clustersAhead fatPrivate offset) ∧
      ∀ index, index < clustersTouched fatPrivate offset total →
        (∀ before, before ≤ index → isReadableCluster
          (fatRoute drive fatPrivate start (clustersAhead fatPrivate offset + before)) = true) →
        ∀ before, before ≤ clustersAhead fatPrivate offset + index →
          DataCluster fatPrivate (fatRoute drive fatPrivate start before) := by
  rcases sound with data | ⟨some, index, follows, data, not_data, refused, ahead⟩
  · exact ⟨skip_of_data fun before _ within => data before (.inl within),
      fun index below _ before within => data before (.inr (by omega))⟩
  · refine ⟨skip_of_data fun before low within => data before (by omega),
      fun last below readable before within => data before ?_⟩
    by_contra beyond
    have passed := readable (index - clustersAhead fatPrivate offset) (by omega)
    rw [Nat.add_sub_cancel' (by omega), refused] at passed
    exact Bool.noConfusion passed

/-- A call that meets a value the copy loop refuses fails. -/
theorem read_fails_of_stops (spc : fatPrivate.header.sectorsPerCluster ≠ 0) {read : ClusterRead}
    (result : fat16ReadInternalV2 drive fatPrivate start offset total = .ok read)
    (stops : StopsInCopy drive fatPrivate start offset total) : read.res = -eio := by
  obtain ⟨read', result', -, res⟩ := fat16ReadInternalV2_spec drive spc start offset total
  obtain rfl : read = read' := Except.ok.inj (result.symm.trans result')
  have skipped := (reached_data (.inr stops)).1
  obtain ⟨some, index, follows, -, -, refused, ahead⟩ := stops
  have touched := touched_pos fatPrivate offset some
  rw [res, skipped, if_neg]
  intro all
  unfold Follows at follows
  have passed := all (index - clustersAhead fatPrivate offset) (by omega)
  rw [fatRoute_add, Nat.add_sub_cancel' (by omega), refused] at passed
  exact Bool.noConfusion passed

/-- A chunk from a cluster of the data chain is read there exactly if it lands. -/
theorem chunk_ofChain_iff (spc : fatPrivate.header.sectorsPerCluster ≠ 0) {cluster : Int} {index : Nat}
    (chain : OnDataChain drive fatPrivate start cluster)
    (below : index < clustersTouched fatPrivate offset total) :
    (chunkTraced drive fatPrivate fatPrivate.clusterReadStream cluster
        (chunkStart (offset.tmod (fat16GetClusterSizeInBytes fatPrivate)) index)
        (chunkEnd (fat16GetClusterSizeInBytes fatPrivate)
          (offset.tmod (fat16GetClusterSizeInBytes fatPrivate)) total index)).Meets
        (OfChain drive fatPrivate start) ↔
      Lands fatPrivate cluster (chunkStart (offset.tmod (fat16GetClusterSizeInBytes fatPrivate)) index)
        (chunkEnd (fat16GetClusterSizeInBytes fatPrivate)
          (offset.tmod (fat16GetClusterSizeInBytes fatPrivate)) total index) := by
  have positive := fat16GetClusterSizeInBytes_pos spc
  have front := Int.lt_tmod_of_pos offset positive
  refine chunk_inside_iff chain.data.low
    (chunk_some positive (Int.tmod_lt_of_pos offset positive) below) ?_ (min_le_left _ _)
    fun sector => ⟨OfChain.inside, fun inside => ⟨chain, inside⟩⟩
  unfold chunkStart
  split_ifs <;> omega

/-- Of every cluster a call reads from, a sector is read. -/
theorem read_of_clusters (spc : fatPrivate.header.sectorsPerCluster ≠ 0) {read : ClusterRead}
    (result : fat16ReadInternalV2 drive fatPrivate start offset total = .ok read)
    (meets : (fat16ReadInternalV2Traced drive fatPrivate start offset total).Meets
      fun read => OnDataChain drive fatPrivate start read.cluster)
    {cluster : Int} (member : cluster ∈ read.clusters) : OnDataChain drive fatPrivate start cluster := by
  obtain ⟨read', result', clusters, -⟩ := fat16ReadInternalV2_spec drive spc start offset total
  obtain rfl : read = read' := Except.ok.inj (result.symm.trans result')
  have positive := fat16GetClusterSizeInBytes_pos spc
  have inside := Int.tmod_lt_of_pos offset positive
  rw [clusters, fatClusters, mem_takeWhile_window] at member
  obtain ⟨index, below, rfl, readable⟩ := member
  simp only [Nat.zero_add] at readable ⊢
  exact chunk_first (chunk_some positive inside below) ((internal_meets_iff spc).mp meets index below readable)

/-- **One call is safe** exactly if its route is data, or stops in the copy loop, and what it reads
lands. -/
theorem safeElement_iff (spc : fatPrivate.header.sectorsPerCluster ≠ 0) :
    SafeElement drive fatPrivate start offset total
        (fat16ReadInternalV2Traced drive fatPrivate start offset total) ↔
      (RouteData drive fatPrivate start offset total ∨
        StopsInCopy drive fatPrivate start offset total) ∧
      RouteLands drive fatPrivate start offset total := by
  obtain ⟨read, result, -⟩ := fat16ReadInternalV2_spec drive spc start offset total
  unfold SafeElement
  rw [(internal_erases start offset total).result]
  constructor
  · rintro ⟨meets, stops⟩
    have sound : RouteData drive fatPrivate start offset total ∨
        StopsInCopy drive fatPrivate start offset total := by
      by_contra neither
      rw [not_or] at neither
      rcases unsafe_element spc result neither.1 neither.2 with ⟨cluster, member, stray⟩ | harmless
      · exact stray (read_of_clusters spc result (fun read here => (meets read here).chain) member)
      · obtain ⟨read', result', error⟩ := stops neither.1
        obtain rfl : read = read' := Except.ok.inj (result.symm.trans result')
        rw [read_ok spc result harmless] at error
        exact absurd error (by decide)
    refine ⟨sound, fun index below data => ?_⟩
    rw [internal_meets_iff spc, (reached_data sound).1] at meets
    simp only [fatRoute_add] at meets
    refine (chunk_ofChain_iff spc ⟨_, rfl, data⟩ below).mp (meets index below fun before within => ?_)
    exact (data _ (by omega)).readable
  · rintro ⟨sound, lands⟩
    obtain ⟨skipped, reached⟩ := reached_data sound
    refine ⟨(internal_meets_iff spc).mpr fun index below readable => ?_, fun bad => ⟨read, result, ?_⟩⟩
    · rw [skipped] at readable ⊢
      simp only [fatRoute_add] at readable ⊢
      have data := reached index below readable
      exact (chunk_ofChain_iff spc ⟨_, rfl, data⟩ below).mpr (lands index below data)
    · exact read_fails_of_stops spc result (sound.resolve_left bad)

end Element

/-! ### All elements -/

section Elements

variable (drive : Drive) (fatPrivate : FatPrivate) (start offset : Int) (size : Nat)

/-- The offset of an element. -/
def elementOffset (index : Nat) : Int := (fun offset => int32 (offset + size))^[index] offset

/-- The chain is data as far as the element follows it. -/
def ElementData (index : Nat) : Prop :=
  RouteData drive fatPrivate start (elementOffset offset size index) (int32 size)

/-- The element's chain leads to a bad value, which the copy loop meets and refuses. -/
def ElementStops (index : Nat) : Prop :=
  StopsInCopy drive fatPrivate start (elementOffset offset size index) (int32 size)

/-- What the element reads of the clusters on its chain lands. -/
def ElementLands (index : Nat) : Prop :=
  RouteLands drive fatPrivate start (elementOffset offset size index) (int32 size)

/-- **A safe read**: every sector it reads is one of a data cluster the chain leads to over data
clusters, and it fails with `-EIO` if the chain of an element leads to any other value. -/
def SafeRead (nmemb : Nat) (read : Traced FileRead) : Prop :=
  read.Meets (OfChain drive fatPrivate start) ∧
  ∃ result, read.result = .ok result ∧
    ((∃ index, index < nmemb ∧ ¬ ElementData drive fatPrivate start offset size index) →
      result.res = -eio)

variable {drive fatPrivate start offset size}

/-- An element that succeeds is followed by the others. -/
theorem fat16ReadElements_succ {left place : Nat} {out : Nat → UInt8} {read : ClusterRead}
    (result : fat16ReadInternalV2 drive fatPrivate start offset (int32 size) = .ok read)
    (succeeds : read.res = ok) :
    fat16ReadElements fatPrivate drive start size (left + 1) offset place out =
      (fat16ReadElements fatPrivate drive start size left (int32 (offset + size)) (place + size)
        (overwrite out place read.out)).map
        fun rest => ⟨rest.res, rest.out, read.clusters ++ rest.clusters⟩ := by
  rw [fat16ReadElements, result, ok_bind]
  dsimp only
  rw [if_neg (not_not.mpr succeeds)]
  cases fat16ReadElements fatPrivate drive start size left (int32 (offset + size)) (place + size)
    (overwrite out place read.out) <;> rfl

/-- An element that fails is the last. -/
theorem fat16ReadElements_fails {left place : Nat} {out : Nat → UInt8} {read : ClusterRead}
    (result : fat16ReadInternalV2 drive fatPrivate start offset (int32 size) = .ok read)
    (fails : read.res ≠ ok) :
    fat16ReadElements fatPrivate drive start size (left + 1) offset place out =
      .ok ⟨read.res, overwrite out place read.out, read.clusters⟩ := by
  rw [fat16ReadElements, result, ok_bind]
  dsimp only
  rw [if_pos fails]
  rfl

theorem read_res_cases (spc : fatPrivate.header.sectorsPerCluster ≠ 0) {total : Int}
    {read : ClusterRead} (result : fat16ReadInternalV2 drive fatPrivate start offset total = .ok read) :
    read.res = ok ∨ read.res = -eio := by
  obtain ⟨read', result', -, res⟩ := fat16ReadInternalV2_spec drive spc start offset total
  obtain rfl : read = read' := Except.ok.inj (result.symm.trans result')
  rw [res]
  split_ifs
  · exact .inl rfl
  · exact .inr rfl

/-- Elements that copy nothing, or meet only readable values, all succeed. -/
theorem elements_ok (spc : fatPrivate.header.sectorsPerCluster ≠ 0)
    (harmless : int32 size ≤ 0 ∨
      ∀ index, isReadableCluster (fatRoute drive fatPrivate start index) = true) :
    ∀ (left : Nat) (offset : Int) (place : Nat) (out : Nat → UInt8),
      ∃ read, fat16ReadElements fatPrivate drive start size left offset place out = .ok read ∧
        read.res = ok
  | 0, _, _, _ => ⟨_, rfl, rfl⟩
  | left + 1, offset, place, out => by
      obtain ⟨read, result, -⟩ :=
        fat16ReadInternalV2_spec drive spc start offset (int32 size)
      obtain ⟨rest, rest_result, rest_ok⟩ := elements_ok spc harmless left (int32 (offset + size))
        (place + size) (overwrite out place read.out)
      rw [fat16ReadElements_succ result (read_ok spc result harmless), rest_result]
      exact ⟨_, rfl, rest_ok⟩

section Step

variable {left place : Nat} {out : Nat → UInt8} {read : ClusterRead}

/-- The sectors of an element, and of the others if it succeeds. -/
theorem elements_meets_iff {P : SectorRead → Prop}
    (result : fat16ReadInternalV2 drive fatPrivate start offset (int32 size) = .ok read) :
    (fat16ReadElementsTraced drive fatPrivate start size (left + 1) offset place out).Meets P ↔
      (fat16ReadInternalV2Traced drive fatPrivate start offset (int32 size)).Meets P ∧
      (read.res = ok → (fat16ReadElementsTraced drive fatPrivate start size left (int32 (offset + size))
        (place + size) (overwrite out place read.out)).Meets P) := by
  rw [fat16ReadElementsTraced, meets_ok_bind_iff ((internal_erases start offset _).result.trans result)]
  refine and_congr_right fun _ => ?_
  dsimp only
  by_cases succeeds : read.res = ok
  · rw [if_neg (not_not.mpr succeeds), meets_bind_iff]
    simp [succeeds]
  · rw [if_pos succeeds]
    simp [succeeds]

/-- Behind an element of data, the others decide. -/
theorem safe_behind_data
    (result : fat16ReadInternalV2 drive fatPrivate start offset (int32 size) = .ok read)
    (succeeds : read.res = ok)
    (safe : (fat16ReadInternalV2Traced drive fatPrivate start offset (int32 size)).Meets
      (OfChain drive fatPrivate start))
    (data : ElementData drive fatPrivate start offset size 0) :
    SafeRead drive fatPrivate start offset size (left + 1)
        (fat16ReadElementsTraced drive fatPrivate start size (left + 1) offset place out) ↔
      SafeRead drive fatPrivate start (int32 (offset + size)) size left
        (fat16ReadElementsTraced drive fatPrivate start size left (int32 (offset + size)) (place + size)
          (overwrite out place read.out)) := by
  unfold SafeRead
  rw [elements_meets_iff result, (elements_erases (left + 1) offset place out).result,
    (elements_erases left _ _ _).result, fat16ReadElements_succ result succeeds]
  refine and_congr ⟨fun both => both.2 succeeds, fun rest => ⟨safe, fun _ => rest⟩⟩ ?_
  constructor
  · rintro ⟨whole, whole_result, stops⟩
    obtain ⟨rest, rest_result, rfl⟩ := map_ok_iff.mp whole_result
    exact ⟨rest, rest_result, fun ⟨index, below, bad⟩ => stops ⟨index + 1, by omega, bad⟩⟩
  · rintro ⟨rest, rest_result, stops⟩
    refine ⟨_, by rw [rest_result]; rfl, ?_⟩
    rintro ⟨index, below, bad⟩
    cases index with
    | zero => exact absurd data bad
    | succ index => exact stops ⟨index, by omega, bad⟩

/-- An element that succeeds over other values makes the read unsafe: it reads a stray cluster, or all
elements succeed. -/
theorem not_safe_behind_stray (spc : fatPrivate.header.sectorsPerCluster ≠ 0)
    (result : fat16ReadInternalV2 drive fatPrivate start offset (int32 size) = .ok read)
    (succeeds : read.res = ok) (stray : ¬ ElementData drive fatPrivate start offset size 0) :
    ¬ SafeRead drive fatPrivate start offset size (left + 1)
      (fat16ReadElementsTraced drive fatPrivate start size (left + 1) offset place out) := by
  have passes : ¬ ElementStops drive fatPrivate start offset size 0 := fun stops => by
    have error := read_fails_of_stops spc result stops
    rw [succeeds] at error
    exact absurd error (by decide)
  rintro ⟨meets, whole, whole_result, stops⟩
  rw [(elements_erases (left + 1) offset place out).result, fat16ReadElements_succ result succeeds]
    at whole_result
  obtain ⟨rest, rest_result, rfl⟩ := map_ok_iff.mp whole_result
  rcases unsafe_element spc result stray passes with ⟨cluster, member, bad⟩ | harmless
  · have reads := ((elements_meets_iff result).mp meets).1
    exact bad (read_of_clusters spc result (fun read here => (reads read here).chain) member)
  · obtain ⟨rest', rest_result', rest_ok⟩ := elements_ok spc harmless left
      (int32 (offset + size)) (place + size) (overwrite out place read.out)
    obtain rfl : rest = rest' := Except.ok.inj (rest_result.symm.trans rest_result')
    have error := stops ⟨0, Nat.succ_pos _, stray⟩
    exact absurd (rest_ok.symm.trans error) (by decide)

end Step

/-- **The elements are safe** exactly if each that is reached over data has a chain of data, or
stops in the copy loop, and what it reads lands. -/
theorem safe_elements_iff (spc : fatPrivate.header.sectorsPerCluster ≠ 0) :
    ∀ (nmemb : Nat) (offset : Int) (place : Nat) (out : Nat → UInt8),
      SafeRead drive fatPrivate start offset size nmemb
          (fat16ReadElementsTraced drive fatPrivate start size nmemb offset place out) ↔
        ∀ index, index < nmemb →
          (∀ before, before < index → ElementData drive fatPrivate start offset size before) →
          (ElementData drive fatPrivate start offset size index ∨
            ElementStops drive fatPrivate start offset size index) ∧
          ElementLands drive fatPrivate start offset size index := by
  intro nmemb
  induction nmemb with
  | zero =>
    intro offset place out
    refine iff_of_true ⟨meets_pure _, _, rfl, ?_⟩ fun index below => absurd below (Nat.not_lt_zero _)
    rintro ⟨index, below, -⟩
    exact absurd below (Nat.not_lt_zero _)
  | succ nmemb ih =>
    intro offset place out
    obtain ⟨read, result, -⟩ :=
      fat16ReadInternalV2_spec drive spc start offset (int32 size)
    have first : SafeElement drive fatPrivate start offset (int32 size)
          (fat16ReadInternalV2Traced drive fatPrivate start offset (int32 size)) ↔
        (ElementData drive fatPrivate start offset size 0 ∨
          ElementStops drive fatPrivate start offset size 0) ∧
        ElementLands drive fatPrivate start offset size 0 := safeElement_iff spc
    have now (all : ∀ index, index < nmemb + 1 →
        (∀ before, before < index → ElementData drive fatPrivate start offset size before) →
        (ElementData drive fatPrivate start offset size index ∨
          ElementStops drive fatPrivate start offset size index) ∧
        ElementLands drive fatPrivate start offset size index) :=
      first.mpr (all 0 (Nat.succ_pos _) fun _ below => absurd below (Nat.not_lt_zero _))
    rcases read_res_cases spc result with succeeds | fails
    · by_cases data : ElementData drive fatPrivate start offset size 0
      swap
      · refine iff_of_false (not_safe_behind_stray spc result succeeds data) fun all => ?_
        obtain ⟨read', result', error⟩ := (now all).2 data
        rw [(internal_erases start offset _).result, result, Except.ok.injEq] at result'
        subst result'
        rw [succeeds] at error
        exact absurd error (by decide)
      by_cases safe : (fat16ReadInternalV2Traced drive fatPrivate start offset (int32 size)).Meets
          (OfChain drive fatPrivate start)
      swap
      · exact iff_of_false (fun all => safe ((elements_meets_iff result).mp all.1).1)
          fun all => safe (now all).1
      rw [safe_behind_data result succeeds safe data, ih]
      constructor
      · intro rest_all index below before
        cases index with
        | zero => exact first.mp ⟨safe, fun bad => absurd data bad⟩
        | succ index =>
          exact rest_all index (by omega) fun earlier within => before (earlier + 1) (by omega)
      · intro all index below before
        refine all (index + 1) (by omega) fun earlier within => ?_
        cases earlier with
        | zero => exact data
        | succ earlier => exact before earlier (by omega)
    · have failed : read.res ≠ ok := by rw [fails]; decide
      have not_data : ¬ ElementData drive fatPrivate start offset size 0 := fun data =>
        failed (read_ok_of_data spc result data)
      have element : (fat16ReadInternalV2Traced drive fatPrivate start offset (int32 size)).result =
          .ok read := (internal_erases start offset _).result.trans result
      unfold SafeRead
      rw [elements_meets_iff result, (elements_erases _ _ _ _).result,
        fat16ReadElements_fails result failed]
      refine ⟨?_, fun all => ?_⟩
      · rintro ⟨⟨safe, -⟩, -⟩
        intro index below before
        cases index with
        | zero => exact first.mp ⟨safe, fun _ => ⟨read, element, fails⟩⟩
        | succ index => exact absurd (before 0 (Nat.succ_pos _)) not_data
      · exact ⟨⟨(now all).1, fun succeeds => absurd succeeds failed⟩, _, rfl, fun _ => fails⟩

end Elements

/-! ### The call -/

section Call

/-- The descriptor at `privateData` stands at `pos` in the item whose entry is `entry`. -/
def OpenEntry (machine : Machine) (heap : Kheap) (privateData : Ptr) (entry : FatDirectoryItem)
    (pos : Nat) : Prop :=
  ∃ item fatItem, heap.lookup privateData = some (.fatDescriptor ⟨item, pos⟩) ∧
    heap.lookup item = some (.fatItem fatItem) ∧ fatItemEntry machine heap fatItem = .ok entry

variable {machine : Machine} {fatPrivate : FatPrivate} {heap : Kheap} {privateData : Ptr}
  {entry : FatDirectoryItem} {pos size nmemb : Nat} {out : Nat → UInt8}

/-- A read is its loop over the elements. -/
theorem fat16Read_eq (fatPrivate : FatPrivate) (size nmemb : Nat) (out : Nat → UInt8)
    (opened : OpenEntry machine heap privateData entry pos) :
    fat16Read machine fatPrivate heap privateData size nmemb out =
      fat16ReadElements fatPrivate machine.drive (fat16GetFirstCluster entry) size nmemb (int32 pos) 0
        out := by
  obtain ⟨item, fatItem, descriptor, record, member⟩ := opened
  rw [fat16Read, deref_eq fatDescriptorKind descriptor, ok_bind,
    deref_eq fatItemKind record, ok_bind, member, ok_bind]

theorem fat16ReadTraced_eq (fatPrivate : FatPrivate) (size nmemb : Nat) (out : Nat → UInt8)
    (opened : OpenEntry machine heap privateData entry pos) :
    fat16ReadTraced machine fatPrivate heap privateData size nmemb out =
      fat16ReadElementsTraced machine.drive fatPrivate (fat16GetFirstCluster entry) size nmemb (int32 pos)
        0 out := by
  obtain ⟨item, fatItem, descriptor, record, member⟩ := opened
  rw [fat16ReadTraced, deref_eq fatDescriptorKind descriptor, Logged.ok_bind,
    deref_eq fatItemKind record, Logged.ok_bind, member, Logged.ok_bind]

/-- **A read is safe** exactly if its clusters have sectors (or there is nothing to read), every
element reached over data has a chain of data clusters, or its chain's first other value is met by the
copy loop and refused, and what the element reads of data clusters lands. -/
theorem safe_read_iff (opened : OpenEntry machine heap privateData entry pos) :
    SafeRead machine.drive fatPrivate (fat16GetFirstCluster entry) (int32 pos) size nmemb
        (fat16ReadTraced machine fatPrivate heap privateData size nmemb out) ↔
      (0 < nmemb → fatPrivate.header.sectorsPerCluster ≠ 0) ∧
      ∀ index, index < nmemb →
        (∀ before, before < index →
          ElementData machine.drive fatPrivate (fat16GetFirstCluster entry) (int32 pos) size before) →
        (ElementData machine.drive fatPrivate (fat16GetFirstCluster entry) (int32 pos) size index ∨
          ElementStops machine.drive fatPrivate (fat16GetFirstCluster entry) (int32 pos) size index) ∧
        ElementLands machine.drive fatPrivate (fat16GetFirstCluster entry) (int32 pos) size index := by
  rw [fat16ReadTraced_eq fatPrivate size nmemb out opened]
  by_cases spc : fatPrivate.header.sectorsPerCluster = 0
  · cases nmemb with
    | zero =>
      refine iff_of_true ⟨meets_pure _, _, rfl, ?_⟩
        ⟨fun some => absurd some (Nat.lt_irrefl 0), fun index below => absurd below (Nat.not_lt_zero _)⟩
      rintro ⟨index, below, -⟩
      exact absurd below (Nat.not_lt_zero _)
    | succ nmemb =>
      refine iff_of_false ?_ fun both => absurd spc (both.1 (Nat.succ_pos _))
      rintro ⟨-, read, result, -⟩
      rw [(elements_erases _ _ _ _).result, fat16ReadElements, fat16ReadInternalV2_divide spc] at result
      cases result
  · rw [safe_elements_iff spc]
    exact ⟨fun all => ⟨fun _ => spc, all⟩, And.right⟩

end Call

/-! ### Small files -/

section Small

def smallMachine (drive : Drive) : Machine where
  drive := drive
  allocator := .bump
  beyond _ _ := ⟨fun _ => 0⟩
  pun _ := ⟨fun _ => 0⟩
  below := 0

/-- A file entry with this first cluster and size. -/
def smallEntry (low high size : UInt8) : FatDirectoryItem where
  bytes index :=
    if index.val = 26 then low else if index.val = 27 then high else if index.val = 28 then size else 0

/-- An open file whose entry is `entry`. -/
def smallHeap (entry : FatDirectoryItem) (pos : Nat) : Kheap :=
  ((Store.empty.put 1 (.fatDescriptor ⟨2, pos⟩)).put 2 (.fatItem ⟨3, .file⟩)).put 3 (.directoryItem entry)

theorem smallHeap_open (machine : Machine) (entry : FatDirectoryItem) (pos : Nat) :
    OpenEntry machine (smallHeap entry pos) 1 entry pos := by
  refine ⟨2, ⟨3, .file⟩, ?_, ?_, ?_⟩
  · rw [smallHeap, Store.lookup_put_ne (by decide), Store.lookup_put_ne (by decide),
      Store.lookup_put_self]
  · rw [smallHeap, Store.lookup_put_ne (by decide), Store.lookup_put_self]
  · change deref directoryItemKind (smallHeap entry pos) 3 = .ok entry
    exact deref_eq directoryItemKind Store.lookup_put_self

/-- The bytes of the entries one behind the other. -/
def entryBytes (entries : List FatDirectoryItem) (index : Nat) : UInt8 :=
  match entries[index / 32]? with
  | some entry => entry.bytes ⟨index % 32, Nat.mod_lt _ (by decide)⟩
  | none => 0

/-- An entry with a name of one letter, an attribute and a first cluster. -/
def namedEntry (letter flags cluster : UInt8) : FatDirectoryItem where
  bytes index :=
    if index.val = 0 then letter else if index.val = 11 then flags
    else if index.val = 26 then cluster else 0

/-- A read-only file of 768 bytes. -/
def noteEntry (letter cluster : UInt8) : FatDirectoryItem where
  bytes index := if index.val = 29 then 3 else (namedEntry letter 1 cluster).bytes index

/-- The small volume with entries in its root directory. The chain of cluster `first` goes on in cluster
`second`, both with the bytes `0, 1, …`. -/
def noteDrive (entries : List FatDirectoryItem) (first second : UInt8) : Drive where
  sector lba index :=
    if lba = 1 then
      if index = 2 * first.toNat then second
      else if index = 2 * second.toNat ∨ index = 2 * second.toNat + 1 then 0xFF else 0
    else if lba = 2 then entryBytes entries index
    else if lba = first.toNat + 1 ∨ lba = second.toNat + 1 then UInt8.ofNat index
    else smallDrive.sector lba index
  belowBuffer _ := 0

/-- The file `N`, and an empty file. -/
def noteEntries : List FatDirectoryItem := [noteEntry 78 2, namedEntry 65 0 0]

/-- The volume of the two, `N` in the clusters 2 and 4. -/
def noteMachine : Machine := smallMachine (noteDrive noteEntries 2 4)

theorem note_start : fat16GetFirstCluster (noteEntry 78 2) = 2 := by decide

/-- Two elements of ten bytes; the second one goes from cluster 2 into cluster 4. -/
theorem safe_read_iff_note :
    SafeRead noteMachine.drive smallPrivate (fat16GetFirstCluster (noteEntry 78 2)) (int32 (500 : Nat)) 10 2
      (fat16ReadTraced noteMachine smallPrivate (smallHeap (noteEntry 78 2) 500) 1 10 2 fun _ => 0) := by
  refine (safe_read_iff (smallHeap_open noteMachine (noteEntry 78 2) 500)).mpr
    ⟨fun _ => by decide, fun index below _ => ?_⟩
  rw [note_start]
  have follows : ∀ index, index < 2 →
      clustersAhead smallPrivate (elementOffset (int32 (500 : Nat)) 10 index) = 0 ∧
      clustersTouched smallPrivate (elementOffset (int32 (500 : Nat)) 10 index) (int32 (10 : Nat)) =
        index + 1 := by
    decide
  obtain ⟨ahead, touched⟩ := follows index below
  refine ⟨.inl fun place within => ?_, fun chunk within _ => ?_⟩
  · have place_lt : place < 2 := by
      unfold Follows at within
      omega
    have data : ∀ place, place < 2 →
        DataCluster smallPrivate (fatRoute noteMachine.drive smallPrivate 2 place) := by
      decide
    exact data place place_lt
  · have lands : ∀ index, index < 2 → ∀ chunk, chunk < 2 →
        0 ≤ chunkStart ((elementOffset (int32 (500 : Nat)) 10 index).tmod
            (fat16GetClusterSizeInBytes smallPrivate)) chunk ∧
          smallPrivate.firstSector (fatRoute noteMachine.drive smallPrivate 2
            (clustersAhead smallPrivate (elementOffset (int32 (500 : Nat)) 10 index) + chunk)) * 512 +
          chunkEnd (fat16GetClusterSizeInBytes smallPrivate)
            ((elementOffset (int32 (500 : Nat)) 10 index).tmod (fat16GetClusterSizeInBytes smallPrivate))
            (int32 (10 : Nat)) chunk ≤ 2147483648 := by
      decide
    obtain ⟨starts, ends⟩ := lands index below chunk (by omega)
    exact ⟨.inl starts, ends⟩

/-- A volume of `7812500` sectors whose data clusters start at sector 716. -/
def largePrivate : FatPrivate where
  header := { smallHeader with sectorsPerCluster := 128, numberOfSectors := 0, sectorsBig := 7812500 }
  rootDirectory := ⟨4096, 0, 715, 716⟩
  clusterReadStream := ⟨0, .rootDisk⟩
  fatReadStream := ⟨0, .rootDisk⟩
  directoryStream := ⟨0, .rootDisk⟩

/-- The entry names the reserved value `0xFFF1`: the read succeeds, from a sector far behind the end of
the volume. And cluster `32765` of the large volume, whose first sector is 4194380, is a data cluster,
but its position wraps, and a sector in front of the disk is read. -/
theorem safe_read_fails :
    ((fat16ReadTraced (smallMachine smallDrive) smallPrivate (smallHeap (smallEntry 0xF1 0xFF 1) 0) 1 1
        1 fun _ => 0).events = [⟨0xFFF1, 65522⟩] ∧
      smallPrivate.header.totalSectors = 8 ∧
      ¬ SafeRead smallDrive smallPrivate (fat16GetFirstCluster (smallEntry 0xF1 0xFF 1)) (int32 (0 : Nat))
        1 1 (fat16ReadTraced (smallMachine smallDrive) smallPrivate (smallHeap (smallEntry 0xF1 0xFF 1) 0)
          1 1 1 fun _ => 0)) ∧
    DataCluster largePrivate 32765 ∧
      (fat16ReadTraced (smallMachine smallDrive) largePrivate (smallHeap (smallEntry 0xFD 0x7F 1) 0) 1 1
        1 fun _ => 0).events = [⟨32765, -4194228⟩] ∧
      ¬ SafeRead smallDrive largePrivate (fat16GetFirstCluster (smallEntry 0xFD 0x7F 1)) (int32 (0 : Nat))
        1 1 (fat16ReadTraced (smallMachine smallDrive) largePrivate (smallHeap (smallEntry 0xFD 0x7F 1) 0)
          1 1 1 fun _ => 0) := by
  have reserved : (fat16ReadTraced (smallMachine smallDrive) smallPrivate
      (smallHeap (smallEntry 0xF1 0xFF 1) 0) 1 1 1 fun _ => 0).events = [⟨0xFFF1, 65522⟩] := by
    decide
  have wrapped : (fat16ReadTraced (smallMachine smallDrive) largePrivate
      (smallHeap (smallEntry 0xFD 0x7F 1) 0) 1 1 1 fun _ => 0).events = [⟨32765, -4194228⟩] := by
    decide
  refine ⟨⟨reserved, by decide, fun safe => ?_⟩, by decide, wrapped, fun safe => ?_⟩
  · have high := (safe.1 ⟨0xFFF1, 65522⟩ (by rw [reserved]; exact List.mem_singleton_self _)).chain.data.number.2
    exact absurd high (by decide)
  · have low := (safe.1 ⟨32765, -4194228⟩ (by rw [wrapped]; exact List.mem_singleton_self _)).inside.1
    exact absurd low (by decide)

end Small

end KernelPlay
