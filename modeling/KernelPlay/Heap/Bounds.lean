/-
**Where `heapMalloc` places a request.**

The search tests only the first entry of a candidate against the end of the table
(`accepted_iff`), so a free tail that is too short is taken together with the bytes behind the table.
`AllocatesInside` — what is handed out is a free run of the table, and a request without one is refused.
`heapMalloc_inside_iff` — that is so exactly if the request fits, or if every candidate meets a taken
entry.
-/

import KernelPlay.Heap.Runs

namespace KernelPlay.BlockHeap

open KernelPlay.Library

/-! ### Placement -/

/-- **The contract of `heap_malloc`**: a pointer is handed out for a free run of the table, of
which nothing outside is changed, and a request without a free run is refused. -/
structure AllocatesInside (heap : Heap) (memory : Memory) (size : Nat) : Prop where
  inside : (heapMalloc heap memory size).1 ≠ 0 →
    ∃ first, (heapMalloc heap memory size).1 = heap.startAddr + 4096 * first ∧
      FreeRun heap memory (blocksOf size) first ∧
      ∀ index, index < heap.table.size → (index < first ∨ first + blocksOf size ≤ index) →
        (heapMalloc heap memory size).2 (heap.table.entries + index) = memory (heap.table.entries + index)
  refused : ¬ Fits heap memory size →
    (heapMalloc heap memory size).1 = 0 ∧ ∀ index, index < heap.table.size →
      (heapMalloc heap memory size).2 (heap.table.entries + index) = memory (heap.table.entries + index)

/-- Every free entry of the table meets a taken one before the request is filled. -/
def Blocked (heap : Heap) (memory : Memory) (blocks : Nat) : Prop :=
  ∀ first, first < heap.table.size → isFreeBlock memory (heap.table.entries + first) = true →
    heap.table.entries + first + blocks < 4294967296 ∧
      ∃ index, index < blocks ∧ isFreeBlock memory (heap.table.entries + first + index) = false

/-- The first entry is taken for a request that reaches the end of the address space: its block is at
address 0, and no entry is written. -/
def NullBlock (heap : Heap) (memory : Memory) (blocks : Nat) : Prop :=
  heap.startAddr = 0 ∧ 0 < heap.table.size ∧ isFreeBlock memory heap.table.entries = true ∧
    4294967296 ≤ heap.table.entries + blocks

section Placement

variable {heap : Heap} {memory : Memory} {size : Nat}

theorem blocked_iff (placed : Placed heap) {blocks : Nat} (small : blocks < 4294967296) :
    Blocked heap memory blocks ↔ ∀ first, ¬ Accepted heap memory blocks first := by
  refine forall_congr' fun first => ?_
  rw [accepted_iff placed.table small]
  simp only [not_and, Classical.not_imp, not_forall, Bool.not_eq_true]

theorem blocksOf_pos (positive : 1 ≤ size) : 0 < blocksOf size := by
  unfold blocksOf
  omega

theorem blocksOf_small (bounded : size ≤ 2147479552) : blocksOf size < 4294967296 := by
  unfold blocksOf
  omega

/-- A run that reaches the end of the address space is not marked. -/
theorem heapMarkTableEntriesTaken_wrapped {start blocks : Nat} (below : start < 4294967296)
    (small : blocks < 4294967296) (wraps : 4294967296 ≤ start + blocks) :
    heapMarkTableEntriesTaken memory start blocks = memory := by
  have stop : uint32 ((start : Int) + (blocks : Int)) - start = 0 := by
    unfold uint32
    omega
  unfold heapMarkTableEntriesTaken
  dsimp only
  rw [stop]
  rfl

/-- A request that fits is placed. -/
theorem allocatesInside_of_fits (placed : Placed heap) (bounded : size ≤ 2147479552)
    (fits : Fits heap memory size) : AllocatesInside heap memory size := by
  have top := placed.table
  refine ⟨fun nonnull => ?_, fun refuses => absurd fits refuses⟩
  rcases heapMalloc_fits placed bounded fits with refused | ⟨first, -, run, granted⟩
  · rw [refused] at nonnull
    exact absurd rfl nonnull
  · have room := run.1
    rw [granted]
    refine ⟨first, rfl, run, fun index below outside => ?_⟩
    dsimp only
    rw [heapMarkTableEntriesTaken_apply memory (by omega), if_neg (by omega)]

/-- A request that does not fit is placed only if it is refused, or meets the null block. -/
theorem allocatesInside_of_not_fits (placed : Placed heap) (nonzero : 0 < heap.table.entries)
    (positive : 1 ≤ size) (bounded : size ≤ 2147479552) (misfits : ¬ Fits heap memory size) :
    AllocatesInside heap memory size ↔
      Blocked heap memory (blocksOf size) ∨ NullBlock heap memory (blocksOf size) := by
  have top := placed.table
  have small := blocksOf_small bounded
  have some_block := blocksOf_pos positive
  rw [blocked_iff placed small]
  constructor
  · rintro ⟨inside, refused⟩
    rcases @findFreeBlockStart_accepted heap memory (blocksOf size) placed.table with
      ⟨-, none⟩ | ⟨first, found, accepted, -⟩
    · exact .inl none
    · have granted := heapMalloc_found placed bounded (by omega) accepted.1 found
      rw [granted] at inside refused
      obtain ⟨null, same⟩ := refused misfits
      dsimp only at null same
      obtain rfl : first = 0 := by omega
      refine .inr ⟨by omega, accepted.1, accepted.2.1, ?_⟩
      by_contra room
      have entry := same 0 accepted.1
      rw [heapMarkTableEntriesTaken_apply memory (by omega), if_pos (by omega)] at entry
      have taken := isFreeBlock_chainEntry entry.symm
      rw [accepted.2.1] at taken
      cases taken
  · intro refuses
    have refused : heapMalloc heap memory size = (0, memory) := by
      rcases @findFreeBlockStart_accepted heap memory (blocksOf size) placed.table with
        ⟨found, -⟩ | ⟨first, found, accepted, least⟩
      · exact heapMalloc_none bounded found
      rcases refuses with none | ⟨start, nonempty, free, wraps⟩
      · exact absurd accepted (none first)
      · have zero : Accepted heap memory (blocksOf size) 0 :=
          (accepted_iff placed.table small).mpr ⟨nonempty, free, fun room => by omega⟩
        obtain rfl : first = 0 := by
          by_contra later
          exact least 0 (by omega) zero
        rw [heapMalloc_found placed bounded (by omega) nonempty found, start,
          heapMarkTableEntriesTaken_wrapped (by omega) small (by omega)]
    constructor
    · intro nonnull
      rw [refused] at nonnull
      exact absurd rfl nonnull
    · intro _
      rw [refused]
      exact ⟨rfl, fun _ _ => rfl⟩

/-- **Every request is placed in the table or refused** exactly if it fits, or every candidate is cut
off by a taken entry. -/
theorem heapMalloc_inside_iff (placed : Placed heap) (nonzero : 0 < heap.table.entries) (positive : 1 ≤ size)
    (bounded : size ≤ 2147479552) :
    AllocatesInside heap memory size ↔
      Fits heap memory size ∨ Blocked heap memory (blocksOf size) ∨
        NullBlock heap memory (blocksOf size) := by
  by_cases fits : Fits heap memory size
  · exact iff_of_true (allocatesInside_of_fits placed bounded fits) (.inl fits)
  · rw [allocatesInside_of_not_fits placed nonzero positive bounded fits]
    simp [fits]

end Placement

/-! ### A heap of four blocks -/

section Small

theorem smallHeap_placed : Placed smallHeap := ⟨by decide, by decide, by decide⟩

theorem heapMalloc_inside_iff_small : AllocatesInside smallHeap smallStart 8192 :=
  (heapMalloc_inside_iff smallHeap_placed (by decide) (by decide) (by decide)).mpr (.inl ⟨0, by decide⟩)

/-- Five blocks of a heap of four: the byte behind the table is taken for a free entry. -/
theorem heapMalloc_inside_fails :
    (heapMalloc smallHeap smallStart 20480).1 = 0x01000000 ∧
      ¬ AllocatesInside smallHeap smallStart 20480 := by
  have pointer : (heapMalloc smallHeap smallStart 20480).1 = 0x01000000 := by decide
  refine ⟨pointer, fun allocates => ?_⟩
  obtain ⟨first, -, run, -⟩ := allocates.inside (by rw [pointer]; decide)
  have room : first + 5 ≤ 4 := run.1
  omega

end Small

end KernelPlay.BlockHeap
