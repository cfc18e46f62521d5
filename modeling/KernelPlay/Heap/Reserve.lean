/-
**What `heapMalloc` reserves for a request of any size.**

The rounded size is kept in a signed word, so the search works with `countOf size`, the blocks needed as a
signed number of 20 bits: none for a size of 0 or above `2 ^ 32 - 4096`, a negative count for the other
sizes above `2 ^ 31 - 4096`.

* `Reserves heap memory size` — the call refuses and leaves the table alone, or marks all blocks of the
  request, and the next call does not hand out the same pointer.
* `heapMalloc_reserves_iff` — that is so exactly if a run that the search tests for the whole request is
  free and in the table, or if every candidate meets a taken entry, or if the pointer is null and nothing is
  marked. `heapMalloc_reserves_fails` — a request of `2 ^ 32 - 1` bytes is granted, and its block again.
-/

import KernelPlay.Heap.Runs

namespace KernelPlay.BlockHeap

open KernelPlay.Library

/-- The blocks a call has to mark. -/
def needed (size : Nat) : Nat := max 1 (blocksOf size)

/-- The count of blocks that is left of a request. -/
def countOf (size : Nat) : Int := Int.bmod (blocksOf size) 1048576

/-- **The contract of `heap_malloc`** for any size. -/
structure Reserves (heap : Heap) (memory : Memory) (size : Nat) : Prop where
  marks : ((heapMalloc heap memory size).1 = 0 ∧ ∀ index, index < heap.table.size →
      (heapMalloc heap memory size).2 (heap.table.entries + index) = memory (heap.table.entries + index)) ∨
    ∃ first, (heapMalloc heap memory size).1 = heap.startAddr + 4096 * first ∧
      first + needed size ≤ heap.table.size ∧ ∀ index, index < needed size →
        isFreeBlock memory (heap.table.entries + first + index) = true ∧
        isFreeBlock (heapMalloc heap memory size).2 (heap.table.entries + first + index) = false
  once : (heapMalloc heap memory size).1 ≠ 0 → ∀ next, next < 4294967296 →
    (heapMalloc heap (heapMalloc heap memory size).2 next).1 ≠ (heapMalloc heap memory size).1

/-! ### The three ways to keep it -/

/-- A run of the table has room for the request, and the search tests and finds free all of it. -/
def HasRoom (heap : Heap) (memory : Memory) (size : Nat) : Prop :=
  ∃ first, first + needed size ≤ heap.table.size ∧ needed size ≤ tested heap (countOf size) first ∧
    ∀ index, index < tested heap (countOf size) first →
      isFreeBlock memory (heap.table.entries + first + index) = true

/-- Every free entry of the table meets a taken one among those tested for it. -/
def AllBlocked (heap : Heap) (memory : Memory) (size : Nat) : Prop :=
  ∀ first, first < heap.table.size → isFreeBlock memory (heap.table.entries + first) = true →
    ∃ index, index < tested heap (countOf size) first ∧
      isFreeBlock memory (heap.table.entries + first + index) = false

/-- The first entry is free and its block at address 0, and none is tested for it. -/
def NullUnmarked (heap : Heap) (memory : Memory) (size : Nat) : Prop :=
  heap.startAddr = 0 ∧ 0 < heap.table.size ∧ isFreeBlock memory heap.table.entries = true ∧
    tested heap (countOf size) 0 = 0

section Reserve

variable {heap : Heap} {memory : Memory} {size : Nat}

/-- **The count the code works with.** -/
theorem heapMalloc_count (small : size < 4294967296) :
    heapMalloc heap memory size = heapMallocBlocks heap memory (countOf size) := by
  have signed : int32 (heapAlignToUpper size) = 4096 * countOf size := by
    unfold heapAlignToUpper countOf blocksOf kernelHeapBlockSize uint32 int32
    rw [Int.bmod_def, Int.bmod_def]
    dsimp only
    split_ifs <;> omega
  have blocks : Int.tdiv (4096 * countOf size) kernelHeapBlockSize = countOf size :=
    Int.mul_tdiv_cancel_left _ (by decide)
  rw [heapMalloc, signed, blocks]

theorem countOf_range (size : Nat) : -524288 ≤ countOf size ∧ countOf size < 524288 := by
  unfold countOf
  rw [Int.bmod_def]
  split_ifs <;> omega

/-- The entries tested are the entries marked. -/
theorem marked_iff_tested {blocks : Int} {first index : Nat} :
    heapMarkTableEntriesTaken memory (heap.table.entries + first) blocks (heap.table.entries + index) =
      if first ≤ index ∧ index < first + tested heap blocks first then
        takenEntry (heap.table.entries + first)
          (uint32 ((heap.table.entries + first : Nat) + blocks)) (heap.table.entries + index)
      else memory (heap.table.entries + index) := by
  unfold heapMarkTableEntriesTaken tested
  rw [foldl_store]
  split_ifs <;> first | rfl | omega

/-- An earlier candidate is tested as far as a later one. -/
theorem tested_earlier (top : heap.table.entries + heap.table.size < 4294967296) {first earlier : Nat}
    (inside : first < heap.table.size) (before : earlier ≤ first)
    (some_tested : 0 < tested heap (countOf size) first) :
    tested heap (countOf size) earlier = tested heap (countOf size) first := by
  obtain ⟨low, high⟩ := countOf_range size
  unfold tested at some_tested ⊢
  generalize countOf size = blocks at *
  have word (start : Nat) (below : start < 4294967296) : uint32 ((start : Int) + blocks) - start =
      if 4294967296 ≤ (start : Int) + blocks then 0
      else if (start : Int) + blocks < 0 then (4294967296 + blocks).toNat else blocks.toNat := by
    unfold uint32
    split_ifs <;> omega
  rw [word _ (by omega)] at some_tested
  rw [word _ (by omega), word _ (by omega)]
  split_ifs at some_tested ⊢ <;> omega

/-- **What `heapMalloc` does**, by the first candidate. -/
theorem heapMalloc_cases (placed : Placed heap) (nonzero : 0 < heap.table.entries)
    (small : size < 4294967296) :
    (heapMalloc heap memory size = (0, memory) ∧ ∀ first, ¬ Candidate heap memory (countOf size) first) ∨
      ∃ first, Candidate heap memory (countOf size) first ∧
        (∀ earlier, earlier < first → ¬ Candidate heap memory (countOf size) earlier) ∧
        heapMalloc heap memory size = (heap.startAddr + 4096 * first,
          heapMarkTableEntriesTaken memory (heap.table.entries + first) (countOf size)) := by
  rw [heapMalloc_count small]
  rcases @findFreeBlockStart_candidate heap memory placed.table (countOf size) with
    ⟨none, refused⟩ | ⟨first, found, candidate, least⟩
  · refine .inl ⟨?_, refused⟩
    rw [heapMallocBlocks, none]
  · exact .inr ⟨first, candidate, least, heapMallocBlocks_found placed (by omega) candidate.1 found⟩

/-- A pointer is the block of an entry of the table that was free. -/
theorem handed_out_free (placed : Placed heap) (small : size < 4294967296)
    (nonnull : (heapMalloc heap memory size).1 ≠ 0) :
    ∃ first, first < heap.table.size ∧ (heapMalloc heap memory size).1 = heap.startAddr + 4096 * first ∧
      isFreeBlock memory (heap.table.entries + first) = true := by
  rw [heapMalloc_count small] at nonnull ⊢
  rcases @findFreeBlockStart_candidate heap memory placed.table (countOf size) with
    ⟨none, -⟩ | ⟨first, found, candidate, -⟩
  · rw [heapMallocBlocks, none] at nonnull
    exact absurd rfl nonnull
  · rcases Nat.eq_zero_or_pos (heap.table.entries + first) with null | entry
    · rw [heapMallocBlocks, found, null] at nonnull
      exact absurd rfl nonnull
    · exact ⟨first, candidate.1, congrArg Prod.fst (heapMallocBlocks_found placed entry candidate.1 found),
        candidate.2.1⟩

/-- A first block that is marked is not handed out again. -/
theorem not_again (placed : Placed heap) {first ptr : Nat} {marked : Memory}
    (pointer : ptr = heap.startAddr + 4096 * first) (nonnull : ptr ≠ 0)
    (taken : isFreeBlock marked (heap.table.entries + first) = false) :
    ∀ next, next < 4294967296 → (heapMalloc heap marked next).1 ≠ ptr := by
  intro next small again
  obtain ⟨other, -, pointer', free⟩ := handed_out_free placed small (again ▸ nonnull)
  obtain rfl : other = first := by omega
  rw [taken] at free
  cases free

theorem needed_pos (size : Nat) : 0 < needed size := by
  unfold needed
  omega

theorem reserves_of_hasRoom (placed : Placed heap) (nonzero : 0 < heap.table.entries)
    (small : size < 4294967296)
    (room : HasRoom heap memory size) : Reserves heap memory size := by
  have positive := needed_pos size
  obtain ⟨other, inside, enough, free⟩ := room
  have reached : Candidate heap memory (countOf size) other :=
    (candidate_iff placed.table).mpr ⟨by omega, free 0 (by omega), free⟩
  rcases @heapMalloc_cases heap memory size placed nonzero small with ⟨-, none⟩ | ⟨first, candidate, least, granted⟩
  · exact absurd reached (none other)
  have before : first ≤ other := by
    by_contra behind
    exact least other (by omega) reached
  have some_tested : 0 < tested heap (countOf size) other := by omega
  have same := tested_earlier placed.table (by omega) before some_tested
  have free_first := ((candidate_iff placed.table).mp candidate).2.2
  have taken (index : Nat) (below : index < needed size) :
      isFreeBlock (heapMalloc heap memory size).2 (heap.table.entries + first + index) = false := by
    rw [granted, Nat.add_assoc]
    refine takenEntry_not_free (marked_iff_tested.trans (if_pos ⟨by omega, by omega⟩))
  refine ⟨.inr ⟨first, congrArg Prod.fst granted, by omega, fun index below =>
    ⟨free_first index (by omega), taken index below⟩⟩, fun nonnull => ?_⟩
  exact not_again placed (congrArg Prod.fst granted) nonnull (taken 0 positive)

theorem reserves_of_refused (refused : heapMalloc heap memory size = (0, memory)) :
    Reserves heap memory size := by
  refine ⟨.inl ?_, fun nonnull => ?_⟩
  · rw [refused]
    exact ⟨rfl, fun _ _ => rfl⟩
  · rw [refused] at nonnull
    exact absurd rfl nonnull

theorem allBlocked_iff (placed : Placed heap) :
    AllBlocked heap memory size ↔ ∀ first, ¬ Candidate heap memory (countOf size) first := by
  refine forall_congr' fun first => ?_
  rw [candidate_iff placed.table]
  simp only [not_and, not_forall, Bool.not_eq_true, exists_prop]

theorem reserves_of_allBlocked (placed : Placed heap) (nonzero : 0 < heap.table.entries)
    (small : size < 4294967296)
    (blocked : AllBlocked heap memory size) : Reserves heap memory size := by
  rcases @heapMalloc_cases heap memory size placed nonzero small with ⟨refused, -⟩ | ⟨first, candidate, -⟩
  · exact reserves_of_refused refused
  · exact absurd candidate ((allBlocked_iff placed).mp blocked first)

/-- The null pointer is returned for the first entry, and the table is left as it is. -/
theorem reserves_of_nullUnmarked (placed : Placed heap) (nonzero : 0 < heap.table.entries)
    (small : size < 4294967296)
    (unmarked : NullUnmarked heap memory size) : Reserves heap memory size := by
  obtain ⟨start, nonempty, free, none_tested⟩ := unmarked
  have zero : Candidate heap memory (countOf size) 0 :=
    (candidate_iff placed.table).mpr ⟨nonempty, free, fun index below => by omega⟩
  rcases @heapMalloc_cases heap memory size placed nonzero small with ⟨refused, -⟩ | ⟨first, -, least, granted⟩
  · exact reserves_of_refused refused
  · obtain rfl : first = 0 := by
      by_contra later
      exact least 0 (by omega) zero
    have same : heapMarkTableEntriesTaken memory (heap.table.entries + 0) (countOf size) = memory := by
      unfold tested at none_tested
      unfold heapMarkTableEntriesTaken
      dsimp only
      rw [none_tested]
      rfl
    rw [same, start] at granted
    exact reserves_of_refused granted

/-- Where the mark leaves a free entry as it is, none has been tested. -/
theorem untested_of_unmarked {first : Nat} (free : isFreeBlock memory (heap.table.entries + first) = true)
    (same : heapMarkTableEntriesTaken memory (heap.table.entries + first) (countOf size)
      (heap.table.entries + first) = memory (heap.table.entries + first)) :
    tested heap (countOf size) first = 0 := by
  by_contra some_tested
  have entry := same.symm.trans (marked_iff_tested.trans (if_pos ⟨le_rfl, by omega⟩))
  have taken := takenEntry_not_free entry
  rw [free] at taken
  cases taken

/-- Where all entries of the request are marked, all have been tested. -/
theorem tested_of_marked {first blocks : Nat} (marked : ∀ index, index < blocks →
      isFreeBlock memory (heap.table.entries + first + index) = true ∧
      isFreeBlock (heapMarkTableEntriesTaken memory (heap.table.entries + first) (countOf size))
        (heap.table.entries + first + index) = false) : blocks ≤ tested heap (countOf size) first := by
  by_contra fewer
  obtain ⟨was_free, taken⟩ := marked (tested heap (countOf size) first) (by omega)
  rw [isFreeBlock, Nat.add_assoc, marked_iff_tested, if_neg (by omega), ← Nat.add_assoc] at taken
  rw [isFreeBlock, taken] at was_free
  cases was_free

/-- **`heapMalloc` keeps its contract** exactly in one of the three ways. -/
theorem heapMalloc_reserves_iff (placed : Placed heap) (nonzero : 0 < heap.table.entries)
    (small : size < 4294967296) :
    Reserves heap memory size ↔
      HasRoom heap memory size ∨ AllBlocked heap memory size ∨ NullUnmarked heap memory size := by
  constructor
  · rintro ⟨marks, -⟩
    rw [allBlocked_iff placed]
    rcases @heapMalloc_cases heap memory size placed nonzero small with ⟨-, none⟩ | ⟨first, candidate, -, granted⟩
    · exact .inr (.inl none)
    obtain ⟨inside, free, all⟩ := (candidate_iff placed.table).mp candidate
    rw [granted] at marks
    dsimp only at marks
    rcases marks with ⟨null, same⟩ | ⟨other, pointer, room, marked⟩
    · obtain rfl : first = 0 := by omega
      exact .inr (.inr ⟨by omega, inside, free, untested_of_unmarked free (same 0 inside)⟩)
    · obtain rfl : other = first := by omega
      exact .inl ⟨other, room, tested_of_marked marked, all⟩
  · rintro (room | blocked | unmarked)
    · exact reserves_of_hasRoom placed nonzero small room
    · exact reserves_of_allBlocked placed nonzero small blocked
    · exact reserves_of_nullUnmarked placed nonzero small unmarked

/-! ### Sizes -/

/-- Up to `2 ^ 31 - 4096` bytes, there is room if the request fits. -/
theorem hasRoom_iff_fits (top : heap.table.entries + heap.table.size < 4294967296) (positive : 1 ≤ size)
    (bounded : size ≤ 2147479552) : HasRoom heap memory size ↔ Fits heap memory size := by
  have exact : needed size = blocksOf size := by
    unfold needed blocksOf
    omega
  have count : countOf size = blocksOf size := by
    unfold countOf
    rw [Int.bmod_def]
    unfold blocksOf
    split_ifs <;> omega
  unfold HasRoom Fits FreeRun
  rw [exact, count]
  refine exists_congr fun first => and_congr_right fun room => ?_
  have all : tested heap (blocksOf size) first = blocksOf size := by
    unfold tested
    rw [← Nat.cast_add, uint32_natCast (by omega), Nat.add_sub_cancel_left]
  rw [all]
  exact and_iff_right le_rfl

/-- For no bytes, and above `2 ^ 32 - 4096`, nothing is tested and nothing is marked. -/
theorem unmarked_ways_iff (placed : Placed heap) (small : size < 4294967296)
    (none : size = 0 ∨ 4294963200 < size) :
    (HasRoom heap memory size ∨ AllBlocked heap memory size ∨ NullUnmarked heap memory size) ↔
      (∀ first, first < heap.table.size → isFreeBlock memory (heap.table.entries + first) = false) ∨
        heap.startAddr = 0 ∧ 0 < heap.table.size ∧ isFreeBlock memory heap.table.entries = true := by
  have count : countOf size = 0 := by
    unfold countOf
    rw [Int.bmod_def]
    unfold blocksOf
    split_ifs <;> omega
  have top := placed.table
  have untested (first : Nat) (inside : first < heap.table.size) : tested heap (countOf size) first = 0 := by
    rw [count, tested, Int.add_zero, uint32_natCast (by omega), Nat.sub_self]
  have no_room : ¬ HasRoom heap memory size := by
    rintro ⟨first, room, enough, -⟩
    have positive := needed_pos size
    rw [untested first (by omega)] at enough
    omega
  rw [or_iff_right no_room]
  refine or_congr (forall₂_congr fun first inside => ?_) (and_congr_right fun _ =>
    and_congr_right fun nonempty => ?_)
  · rw [untested first inside]
    simp
  · rw [untested 0 nonempty]
    simp

end Reserve

/-! ### A heap of four blocks -/

section Small

theorem heapMalloc_reserves_iff_small : Reserves smallHeap smallStart 8192 :=
  (heapMalloc_reserves_iff ⟨by decide, by decide, by decide⟩ (by decide) (by decide)).mpr
    (.inl ⟨0, by decide, by decide, by decide⟩)

/-- A request of `2 ^ 32 - 1` bytes is granted on four blocks, and so is the next one, with the same
block. -/
theorem heapMalloc_reserves_fails :
    (heapMalloc smallHeap smallStart 4294967295).1 = 0x01000000 ∧
      (heapMalloc smallHeap (heapMalloc smallHeap smallStart 4294967295).2 1).1 = 0x01000000 ∧
      ¬ Reserves smallHeap smallStart 4294967295 := by
  have granted : (heapMalloc smallHeap smallStart 4294967295).1 = 0x01000000 := by decide
  have again : (heapMalloc smallHeap (heapMalloc smallHeap smallStart 4294967295).2 1).1 = 0x01000000 := by
    decide
  refine ⟨granted, again, fun reserves => ?_⟩
  refine reserves.once ?_ 1 (by decide) (again.trans granted.symm)
  rw [granted]
  decide

end Small

end KernelPlay.BlockHeap
