/-
**The contents of a file, and what reads of them deliver.**

`fileContents` — the bytes of the clusters of a chain, laid end to end. `read_contents` — a call
inside the chain delivers that part of the contents, whatever its position relative to the clusters.
`elements_contents` — the elements of a read deliver consecutive parts, so together one part of the
contents that depends only on the product of their size and number. `chain_bytes_lt` — a chain whose
clusters lie below `2 ^ 31` has fewer than `2 ^ 31` bytes.
-/

import KernelPlay.Fat.Mount
import KernelPlay.Fat.Safety
import Mathlib.Data.Finset.Card

namespace KernelPlay

open KernelPlay.Library

/-- **The bytes of a chain's clusters**, laid end to end. -/
def fileContents (drive : Drive) (fatPrivate : FatPrivate) (start : Int) (length : Nat) : List UInt8 :=
  (fatClusters drive fatPrivate start length).flatMap (volumeContents drive fatPrivate.header)

theorem volumeContents_length (drive : Drive) (header : FatHeader) (cluster : Int) :
    (volumeContents drive header cluster).length = header.clusterBytes :=
  window_length _ _ _

/-! ### The size of a chain -/

section Size

variable {drive : Drive} {fatPrivate : FatPrivate} {start : Int} {length : Nat}

/-- A chain that ends does not come back to a cluster. -/
theorem FileChain.injective (chain : FileChain drive fatPrivate start length) {first second : Nat}
    (below : first < length) (below' : second < length)
    (same : fatRoute drive fatPrivate start first = fatRoute drive fatPrivate start second) :
    first = second := by
  by_contra differ
  wlog later : first < second generalizing first second
  · exact this below' below same.symm (Ne.symm differ) (by omega)
  have back : fatRoute drive fatPrivate start (first + (length - second)) =
      fatRoute drive fatPrivate start length := by
    rw [← fatRoute_add, same, fatRoute_add, Nat.add_sub_cancel' below'.le]
  have data := chain.data (first + (length - second)) (by omega)
  have readable := data.readable
  rw [back, chain.end_unreadable] at readable
  exact Bool.noConfusion readable

/-- On a volume without reserved sectors the entry of cluster 7 overlaps their number. -/
theorem FileChain.avoids_seven (mounted : Mounted drive fatPrivate)
    (chain : FileChain drive fatPrivate start length)
    (none : fatPrivate.header.reservedSectors = 0) {index : Nat} (below : index < length) :
    fatRoute drive fatPrivate start index ≠ 7 := by
  intro seven
  have position : fatEntryPosition fatPrivate.header 7 = 14 := by
    rw [fatEntryPosition, none]
    rfl
  have field : fatPrivate.header.reservedSectors = word16 (drive.image 14) (drive.image 15) := by
    rw [mounted.header]
    rfl
  have next : fatRoute drive fatPrivate start (index + 1) = 0 := by
    rw [fatRoute, Function.iterate_succ_apply', ← fatRoute, seven]
    have entry := fat16GetFatEntry_eq drive fatPrivate (show 7 < 65536 by omega)
    rw [position, ← field, none] at entry
    exact entry
  by_cases last : index + 1 = length
  · obtain mark | ⟨empty, -⟩ := chain.ended
    · rw [← last, next] at mark
      exact absurd mark.1 (by decide)
    · omega
  · have data := (chain.data (index + 1) (by omega)).1
    rw [next] at data
    exact absurd data (by decide)

/-- The clusters of a chain, counted from 0, are as many numbers of the set. -/
theorem FileChain.length_le (chain : FileChain drive fatPrivate start length) {numbers : Finset Nat}
    (member : ∀ index, index < length →
      (fatRoute drive fatPrivate start index - 2).toNat ∈ numbers) : length ≤ numbers.card := by
  have count : (Finset.range length).card ≤ numbers.card := by
    refine Finset.card_le_card_of_injOn
      (fun index => (fatRoute drive fatPrivate start index - 2).toNat) ?_ ?_
    · exact fun index below => member index (Finset.mem_range.mp below)
    · intro first below second below' same
      have low := (chain.data first (Finset.mem_range.mp below)).1
      have low' := (chain.data second (Finset.mem_range.mp below')).1
      refine chain.injective (Finset.mem_range.mp below) (Finset.mem_range.mp below') ?_
      dsimp only at same
      omega
  rwa [Finset.card_range] at count

/-- **A chain below `2 ^ 31` has fewer than `2 ^ 31` bytes.** -/
theorem chain_bytes_lt (mounted : Mounted drive fatPrivate)
    (chain : FileChain drive fatPrivate start length)
    (below : ∀ index, index < length →
      fatPrivate.header.Below (fatRoute drive fatPrivate start index)) :
    length * fatPrivate.header.clusterBytes < 2147483648 := by
  have size : fatPrivate.header.clusterBytes ≤ 255 * 512 := by
    have := fatPrivate.header.sectorsPerCluster.toNat_lt
    unfold FatHeader.clusterBytes
    omega
  by_cases positive : fatPrivate.header.clusterBytes = 0
  · rw [positive, Nat.mul_zero]
    omega
  -- Cluster `number + 2` ends at `(number + 1) * size` bytes behind the start of the data.
  have place : ∀ index, index < length →
      fatPrivate.header.dataStart * 512 +
        ((fatRoute drive fatPrivate start index - 2).toNat + 1) * fatPrivate.header.clusterBytes ≤
          2147483648 := by
    intro index inside
    have high := below index inside
    rw [FatHeader.Below, FatHeader.clusterSector, Nat.add_mul, Nat.mul_assoc] at high
    rw [Nat.succ_mul, ← Nat.add_assoc]
    exact high
  generalize fatPrivate.header.clusterBytes = bytes at *
  by_cases data : fatPrivate.header.dataStart = 0
  · have none : fatPrivate.header.reservedSectors = 0 := by
      unfold FatHeader.dataStart FatHeader.rootStart at data
      exact UInt16.toNat_inj.mp (by rw [UInt16.toNat_zero]; omega)
    have member : ∀ index, index < length → (fatRoute drive fatPrivate start index - 2).toNat ∈
        (Finset.range (2147483648 / bytes)).erase 5 := by
      intro index inside
      have seven := chain.avoids_seven mounted none inside
      have low := (chain.data index inside).1
      have high := place index inside
      rw [Finset.mem_erase, Finset.mem_range, Nat.lt_iff_add_one_le, Nat.le_div_iff_mul_le (by omega)]
      omega
    have count := chain.length_le member
    rw [Finset.card_erase_eq_ite, Finset.card_range] at count
    split_ifs at count with six
    · have whole : (length + 1) * bytes ≤ 2147483648 := by
        rw [← Nat.le_div_iff_mul_le (by omega)]
        have := Finset.mem_range.mp six
        omega
      rw [Nat.succ_mul] at whole
      omega
    · rw [Finset.mem_range] at six
      have few : length * bytes ≤ 5 * (255 * 512) := Nat.mul_le_mul (by omega) size
      omega
  · have member : ∀ index, index < length → (fatRoute drive fatPrivate start index - 2).toNat ∈
        Finset.range (2147483647 / bytes) := by
      intro index inside
      have high := place index inside
      rw [Finset.mem_range, Nat.lt_iff_add_one_le, Nat.le_div_iff_mul_le (by omega)]
      omega
    have count := chain.length_le member
    rw [Finset.card_range, Nat.le_div_iff_mul_le (by omega)] at count
    omega

end Size

/-! ### Reads inside the chain -/

section Inside

variable {drive : Drive} {fatPrivate : FatPrivate} {start : Int} {length : Nat}

theorem fatClusters_drop (drive : Drive) (fatPrivate : FatPrivate) (start : Int) (skip count : Nat) :
    (fatClusters drive fatPrivate start (skip + count)).drop skip =
      fatClusters drive fatPrivate (fatRoute drive fatPrivate start skip) count := by
  rw [fatClusters, window_add, List.drop_left' (by simp)]
  refine List.ext_getElem (by simp [fatClusters]) fun index below _ => ?_
  rw [window_length] at below
  simp only [fatClusters]
  rw [window_getElem, window_getElem, fatRoute_add]
  congr 1
  omega

theorem fileContents_length :
    (fileContents drive fatPrivate start length).length =
      length * fatPrivate.header.clusterBytes := by
  rw [fileContents, flatMap_length (volumeContents_length drive fatPrivate.header), fatClusters,
    window_length]

/-- On the chain the driver's bytes are the volume's. -/
theorem fileContents_eq (mounted : Mounted drive fatPrivate)
    (data : ∀ index, index < length → IsDataNumber (fatRoute drive fatPrivate start index)) :
    fileContents drive fatPrivate start length =
      (fatClusters drive fatPrivate start length).flatMap (clusterContents drive fatPrivate) := by
  refine List.flatMap_congr fun cluster member => ?_
  obtain ⟨index, below, rfl⟩ := mem_window.mp member
  rw [Nat.zero_add]
  exact (clusterContents_eq mounted (data index below)).symm

/-- The contents from a position on begin in the cluster the skip loop leads to. -/
theorem fileContents_drop (mounted : Mounted drive fatPrivate)
    (chain : FileChain drive fatPrivate start length) {ahead : Nat} (before : ahead ≤ length)
    (within : Nat) :
    (fileContents drive fatPrivate start length).drop
        (ahead * (fatPrivate.header.sectorsPerCluster.toNat * 512) + within) =
      ((fatClusters drive fatPrivate (fatRoute drive fatPrivate start ahead)
        (length - ahead)).flatMap (clusterContents drive fatPrivate)).drop within := by
  have rest := fatClusters_drop drive fatPrivate start ahead (length - ahead)
  rw [Nat.add_sub_cancel' before] at rest
  rw [fileContents_eq mounted chain.data, ← List.drop_drop,
    flatMap_drop_mul (clusterContents_length drive fatPrivate), rest]

/-- **A call inside the chain** delivers its part of the contents. -/
theorem read_contents (mounted : Mounted drive fatPrivate)
    (chain : FileChain drive fatPrivate start length)
    (below : ∀ index, index < length →
      fatPrivate.header.Below (fatRoute drive fatPrivate start index)) {offset total : Nat}
    (some : 1 ≤ total)
    (fits : offset + total ≤ length * fatPrivate.header.clusterBytes) :
    ∃ read, fat16ReadInternalV2 drive fatPrivate start offset total = .ok read ∧ read.res = ok ∧
      read.out = ((fileContents drive fatPrivate start length).drop offset).take total := by
  have spc : fatPrivate.header.sectorsPerCluster ≠ 0 := by
    intro zero
    rw [FatHeader.clusterBytes, zero] at fits
    exact absurd fits (by simp; omega)
  obtain ⟨ahead_of, within_of⟩ : clustersAhead fatPrivate offset =
        offset / (fatPrivate.header.sectorsPerCluster.toNat * 512) ∧
      (offset : Int).tmod (fat16GetClusterSizeInBytes fatPrivate) =
        ((offset % (fatPrivate.header.sectorsPerCluster.toNat * 512) : Nat) : Int) := by
    rw [clustersAhead, fat16GetClusterSizeInBytes_eq, tdiv_natCast, tmod_natCast]
    exact ⟨Int.toNat_natCast _, rfl⟩
  have positive : 0 < fatPrivate.header.sectorsPerCluster.toNat * 512 := by
    have := fat16GetClusterSizeInBytes_pos spc
    rw [fat16GetClusterSizeInBytes_eq] at this
    omega
  rw [FatHeader.clusterBytes] at fits
  have before : offset / (fatPrivate.header.sectorsPerCluster.toNat * 512) < length := by
    rw [Nat.div_lt_iff_lt_mul positive]
    omega
  have split := Nat.div_add_mod' offset (fatPrivate.header.sectorsPerCluster.toNat * 512)
  refine ⟨_, fat16ReadInternalV2_eq spc start offset total, ?_, ?_⟩
  · rw [fat16CopyLoop_res (fat16GetClusterSizeInBytes_pos spc) _ _ _ _
      (Int.tmod_lt_of_pos _ (fat16GetClusterSizeInBytes_pos spc)) (Int.self_le_toNat _), if_pos]
    rw [ahead_of, fat16SkipClusters_eq drive fatPrivate _ start fun index _ high =>
      (chain.data index (by omega)).readable]
    intro index touched
    rw [fatRoute_add]
    refine (chain.data _ ?_).readable
    rw [← ahead_of]
    rw [← clustersTouched] at touched
    have reach : ¬ length < clustersAhead fatPrivate offset + clustersTouched fatPrivate offset total := by
      rw [lt_ahead_add_touched_iff spc (Int.natCast_nonneg _) (by omega),
        fat16GetClusterSizeInBytes_eq]
      exact_mod_cast Nat.not_lt.mpr fits
    omega
  · rw [ahead_of, within_of, fat16SkipClusters_eq drive fatPrivate _ start fun index _ high =>
      (chain.data index (by omega)).readable]
    rw [fat16CopyLoop_out (length - offset / (fatPrivate.header.sectorsPerCluster.toNat * 512))]
    · rw [← fileContents_drop mounted chain before.le, split]
    · intro index inside
      rw [fatRoute_add]
      have data := chain.data (offset / (fatPrivate.header.sectorsPerCluster.toNat * 512) + index)
        (by omega)
      exact ⟨data.readable, inReach_of_below mounted data (below _ (by omega))⟩
    · exact Nat.mod_lt _ positive
    · rw [Nat.sub_mul]
      omega
    · rw [Int.toNat_natCast]

/-- **The elements of a read inside the chain** deliver one part of the contents together. -/
theorem elements_contents (mounted : Mounted drive fatPrivate)
    (chain : FileChain drive fatPrivate start length)
    (below : ∀ index, index < length →
      fatPrivate.header.Below (fatRoute drive fatPrivate start index)) {size : Nat} (some : 1 ≤ size) :
    ∀ (nmemb offset place : Nat) (out : Nat → UInt8),
      offset + nmemb * size ≤ length * fatPrivate.header.clusterBytes →
      ∃ read, fat16ReadElements fatPrivate drive start size nmemb offset place out = .ok read ∧
        read.res = ok ∧ (∀ index, index < place → read.out index = out index) ∧
        window read.out place (nmemb * size) =
          ((fileContents drive fatPrivate start length).drop offset).take (nmemb * size)
  | 0, offset, place, out, _ => ⟨_, rfl, rfl, fun _ _ => rfl, by rw [Nat.zero_mul]; rfl⟩
  | nmemb + 1, offset, place, out, fits => by
      have short := chain_bytes_lt mounted chain below
      rw [Nat.succ_mul, Nat.add_comm (nmemb * size)] at fits ⊢
      obtain ⟨read, result, succeeds, delivered⟩ :=
        read_contents mounted chain below some (Nat.le_trans (Nat.le_add_right _ _) (Nat.add_assoc .. ▸ fits))
      obtain ⟨rest, rest_result, rest_succeeds, kept, rest_delivered⟩ :=
        elements_contents mounted chain below some nmemb (offset + size) (place + size)
          (overwrite out place read.out) (by omega)
      have total : int32 (size : Int) = size := int32_of_range (by omega) (by omega)
      have next : int32 ((offset : Int) + size) = ((offset + size : Nat) : Int) := by
        rw [int32_of_range (by omega) (by omega), Int.natCast_add]
      have length_out : read.out.length = size := by
        rw [delivered, List.length_take, List.length_drop, fileContents_length]
        omega
      rw [fat16ReadElements_succ (total.symm ▸ result) succeeds, next, rest_result]
      refine ⟨_, rfl, rest_succeeds, fun index before => ?_, ?_⟩
      · rw [kept index (by omega), overwrite_below _ _ before]
      · have here : window rest.out place size = read.out := by
          have written := window_overwrite out place read.out
          rw [length_out] at written
          exact (window_congr fun index inside => kept (place + index) (by omega)).trans written
        rw [window_add]
        dsimp only
        rw [here, rest_delivered, delivered, take_append_take_drop]

end Inside

end KernelPlay
