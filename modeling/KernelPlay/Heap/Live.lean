/-
**Live allocations: what `heapMalloc` and `heapFree` do to the table.**

A run of the allocator is a run of `HeapStep` over the memory and the list of the allocations that
are live. `heapMalloc` writes the whole chain of an allocation (`heapMalloc_fits`); `heapFree` leaves
the entry it clears before it tests the has-next bit, so it clears all entries of a chain of two or
more but the last one, and for one block it goes by the bit of the entry behind
(`heapFreeLoop_clears`).

Over every run in which no `heapFree` of a single block meets a has-next bit behind it, the live
allocations stay apart (`live_apart_of_clearBehind`, in `Heap/Runs`).
-/

import KernelPlay.Heap.Search
import KernelPlay.Library.Runs

namespace KernelPlay.BlockHeap

open KernelPlay.Library

/-! ### Memory -/

section Memory

variable (memory : Memory)

theorem memset_apply {ptr size : Nat} (c : UInt8) (fits : ptr + size ≤ 4294967296) (address : Nat) :
    memset memory ptr c size address =
      if ptr ≤ address ∧ address < ptr + size then c else memory address := by
  unfold memset uint32
  by_cases inside : ptr ≤ address ∧ address < ptr + size
  · rw [if_pos inside, if_pos (by omega)]
  · rw [if_neg inside, if_neg (by omega)]

theorem store_same (ptr : Nat) (value : UInt8) : store memory ptr value ptr = value := by
  simp [store]

theorem store_other {ptr address : Nat} (other : address ≠ ptr) (value : UInt8) :
    store memory ptr value address = memory address := by
  simp [store, other]

/-- Storing one value per entry of a range. -/
theorem foldl_store (value : Nat → UInt8) (address : Nat) :
    ∀ count start (memory : Memory), (List.range' start count).foldl
        (fun memory cur => store memory cur (value cur)) memory address =
      if start ≤ address ∧ address < start + count then value address else memory address
  | 0, start, memory => by
      rw [List.range'_zero, List.foldl_nil, if_neg (by omega)]
  | count + 1, start, memory => by
      rw [List.range'_succ, List.foldl_cons, foldl_store value address count]
      by_cases behind : start + 1 ≤ address ∧ address < start + 1 + count
      · rw [if_pos behind, if_pos (by omega)]
      · rw [if_neg behind]
        by_cases first : address = start
        · subst first
          rw [store_same, if_pos (by omega)]
        · rw [store_other memory first, if_neg (by omega)]

end Memory

/-! ### The chain of an allocation -/

/-- The number of blocks a request needs, in exact arithmetic. -/
def blocksOf (size : Nat) : Nat := (size + 4095) / 4096

/-- The entry of block `index` of an allocation of `blocks` blocks. -/
def chainEntry (blocks index : Nat) : UInt8 :=
  heapBlockTableEntryTake ||| (if index = 0 then heapBlockIsFirst else 0) |||
    (if index + 1 < blocks then heapBlockHasNext else 0)

theorem chainEntry_taken (blocks index : Nat) :
    heapBlockTableEntryTake &&& chainEntry blocks index ≠ 0 := by
  unfold chainEntry
  split <;> split <;> decide

theorem isFreeBlock_chainEntry {memory : Memory} {address blocks index : Nat}
    (entry : memory address = chainEntry blocks index) : isFreeBlock memory address = false := by
  rw [isFreeBlock, entry, beq_eq_false_iff_ne]
  exact chainEntry_taken blocks index

theorem chainEntry_hasNext (blocks index : Nat) :
    0 < heapBlockHasNext &&& chainEntry blocks index ↔ index + 1 < blocks := by
  unfold chainEntry
  by_cases next : index + 1 < blocks
  · simp only [next, if_true, iff_true]
    split <;> decide
  · simp only [next, if_false, iff_false]
    split <;> decide

theorem takenEntry_not_free {start finish cur address : Nat} {memory : Memory}
    (entry : memory address = takenEntry start finish cur) : isFreeBlock memory address = false := by
  rw [isFreeBlock, entry, takenEntry]
  split_ifs <;> decide

theorem takenEntry_eq (start blocks index : Nat) :
    takenEntry start (start + blocks) (start + index) = chainEntry blocks index := by
  have first : start + index = start ↔ index = 0 := by omega
  have next : start + index + 1 < start + blocks ↔ index + 1 < blocks := by omega
  simp only [takenEntry, chainEntry, first, next]

theorem heapMarkTableEntriesTaken_apply (memory : Memory) {start blocks : Nat}
    (fits : start + blocks < 4294967296) (address : Nat) :
    heapMarkTableEntriesTaken memory start blocks address =
      if start ≤ address ∧ address < start + blocks then chainEntry blocks (address - start)
      else memory address := by
  have stop : uint32 ((start : Int) + (blocks : Int)) = start + blocks := by
    rw [← Nat.cast_add, uint32_natCast fits]
  simp only [heapMarkTableEntriesTaken, stop, Nat.add_sub_cancel_left, foldl_store]
  by_cases inside : start ≤ address ∧ address < start + blocks
  · rw [if_pos inside, if_pos inside, ← takenEntry_eq start,
      show start + (address - start) = address by omega]
  · rw [if_neg inside, if_neg inside]

/-! ### `heapMalloc` -/

section Malloc

variable {heap : Heap} {memory : Memory}

/-- Up to `2 ^ 31 - 4096` bytes, the rounding is exact. -/
theorem rounded_eq {size : Nat} (bounded : size ≤ 2147479552) :
    (int32 (heapAlignToUpper size)).tdiv kernelHeapBlockSize = blocksOf size := by
  have aligned : (heapAlignToUpper size : Int) = 4096 * (blocksOf size : Int) := by
    unfold heapAlignToUpper blocksOf kernelHeapBlockSize uint32
    dsimp only
    split <;> omega
  have exact : int32 (heapAlignToUpper size) = 4096 * (blocksOf size : Int) := by
    rw [aligned, int32_of_range (by omega) (by unfold blocksOf; omega)]
  have blocks : Int.tdiv (4096 * (blocksOf size : Int)) kernelHeapBlockSize = blocksOf size :=
    Int.mul_tdiv_cancel_left _ (by decide)
  rw [exact, blocks]

theorem heapMalloc_eq {size : Nat} (bounded : size ≤ 2147479552) :
    heapMalloc heap memory size = heapMallocBlocks heap memory (blocksOf size) := by
  rw [heapMalloc, rounded_eq bounded]

theorem heapMalloc_none {size : Nat} (bounded : size ≤ 2147479552)
    (none : findFreeBlockStart heap memory (blocksOf size) = none) :
    heapMalloc heap memory size = (0, memory) := by
  rw [heapMalloc_eq bounded, heapMallocBlocks, none]

/-- The entry found decides the pointer, and the entries are marked from it on. -/
theorem heapMallocBlocks_found (placed : Placed heap) {blocks : Int} {first : Nat}
    (nonnull : 0 < heap.table.entries + first) (inside : first < heap.table.size)
    (found : findFreeBlockStart heap memory blocks = some (heap.table.entries + first)) :
    heapMallocBlocks heap memory blocks = (heap.startAddr + 4096 * first,
      heapMarkTableEntriesTaken memory (heap.table.entries + first) blocks) := by
  have top := placed.blocks
  have pointer : uint32 (heap.startAddr +
      (((heap.table.entries + first : Nat) : Int) - heap.table.entries) * kernelHeapBlockSize) =
      heap.startAddr + 4096 * first := by
    unfold kernelHeapBlockSize uint32
    omega
  rw [heapMallocBlocks, found]
  dsimp only
  rw [if_pos (by omega), pointer]

theorem heapMalloc_found (placed : Placed heap) {size first : Nat} (bounded : size ≤ 2147479552)
    (nonnull : 0 < heap.table.entries + first) (inside : first < heap.table.size)
    (found : findFreeBlockStart heap memory (blocksOf size) = some (heap.table.entries + first)) :
    heapMalloc heap memory size = (heap.startAddr + 4096 * first,
      heapMarkTableEntriesTaken memory (heap.table.entries + first) (blocksOf size)) := by
  rw [heapMalloc_eq bounded]
  exact heapMallocBlocks_found placed nonnull inside found

/-- An entry at address 0 is refused. -/
theorem heapMalloc_null {size : Nat} (bounded : size ≤ 2147479552)
    (found : findFreeBlockStart heap memory (blocksOf size) = some 0) :
    heapMalloc heap memory size = (0, memory) := by
  rw [heapMalloc_eq bounded, heapMallocBlocks, found]
  rfl

/-- Some run of entries is free for the whole request. -/
def Fits (heap : Heap) (memory : Memory) (size : Nat) : Prop :=
  ∃ first, FreeRun heap memory (blocksOf size) first

/-- **A request that fits**: it is refused and nothing changes, or it gets a free run of the table,
whose chain is written. -/
theorem heapMalloc_fits (placed : Placed heap) {size : Nat} (bounded : size ≤ 2147479552)
    (fits : Fits heap memory size) :
    heapMalloc heap memory size = (0, memory) ∨
    ∃ first, first < heap.table.size ∧ FreeRun heap memory (blocksOf size) first ∧
      heapMalloc heap memory size = (heap.startAddr + 4096 * first,
        heapMarkTableEntriesTaken memory (heap.table.entries + first) (blocksOf size)) := by
  have met {first : Nat} (inside : first < heap.table.size) (run : FreeRun heap memory (blocksOf size) first)
      (found : findFreeBlockStart heap memory (blocksOf size) = some (heap.table.entries + first)) :
      heapMalloc heap memory size = (0, memory) ∨
      ∃ first, first < heap.table.size ∧ FreeRun heap memory (blocksOf size) first ∧
        heapMalloc heap memory size = (heap.startAddr + 4096 * first,
          heapMarkTableEntriesTaken memory (heap.table.entries + first) (blocksOf size)) := by
    rcases Nat.eq_zero_or_pos (heap.table.entries + first) with null | nonnull
    · rw [null] at found
      exact .inl (heapMalloc_null bounded found)
    · exact .inr ⟨first, inside, run, heapMalloc_found placed bounded nonnull inside found⟩
  rcases Nat.eq_zero_or_pos (blocksOf size) with none | some_block
  · rcases found : findFreeBlockStart heap memory (blocksOf size) with _ | freeStart
    · exact .inl (heapMalloc_none bounded found)
    · rw [none, Nat.cast_zero] at found
      obtain ⟨first, inside, rfl⟩ := findFreeBlockStart_zero placed.table found
      rw [← Nat.cast_zero, ← none] at found
      exact met inside ⟨by omega, fun index below => by omega⟩ found
  · classical
    have run := Nat.find_spec fits
    have room := run.1
    exact met (by omega) run
      (findFreeBlockStart_first placed.table some_block run fun earlier before => Nat.find_min fits before)

end Malloc

/-! ### `heapFree` -/

/-- The memory after `count` entries from `entry` on, and their blocks from `block` on, are
cleared. -/
def cleared (memory : Memory) (entry block count : Nat) : Memory :=
  fun address =>
    if (entry ≤ address ∧ address < entry + count) ∨
      (block ≤ address ∧ address < block + 4096 * count) then 0
    else memory address

section Free

theorem clear_one (memory : Memory) (entry block : Nat) (fits : block + 4096 ≤ 4294967296) :
    store (memset memory block 0 4096) entry heapBlockTableEntryFree = cleared memory entry block 1 := by
  funext address
  rw [cleared, store, memset_apply memory 0 fits]
  by_cases here : address = entry
  · rw [if_pos here, if_pos (by omega)]
    rfl
  · rw [if_neg here]
    by_cases inside : block ≤ address ∧ address < block + 4096
    · rw [if_pos inside, if_pos (by omega)]
    · rw [if_neg inside, if_neg (by omega)]

theorem cleared_succ (memory : Memory) (entry block count : Nat) :
    cleared (cleared memory entry block 1) (entry + 1) (block + 4096) count =
      cleared memory entry block (count + 1) := by
  funext address
  simp only [cleared]
  by_cases behind : (entry + 1 ≤ address ∧ address < entry + 1 + count) ∨
      (block + 4096 ≤ address ∧ address < block + 4096 + 4096 * count)
  · rw [if_pos behind, if_pos (by omega)]
  · rw [if_neg behind]
    by_cases first : (entry ≤ address ∧ address < entry + 1) ∨
        (block ≤ address ∧ address < block + 4096 * 1)
    · rw [if_pos first, if_pos (by omega)]
    · rw [if_neg first, if_neg (by omega)]

/-- One turn of the free loop. -/
theorem heapFreeLoop_succ (turns : Nat) (memory : Memory) (entry block : Nat)
    (entries : entry + 1 < 4294967296) (blocks : block + 4096 < 4294967296) :
    heapFreeLoop (turns + 1) memory entry block =
      if heapTableEntryHasNext (cleared memory entry block 1) (entry + 1) then
        heapFreeLoop turns (cleared memory entry block 1) (entry + 1) (block + 4096)
      else some (cleared memory entry block 1) := by
  have nextEntry : uint32 ((entry : Int) + 1) = entry + 1 := by unfold uint32; omega
  have nextBlock : uint32 ((block : Int) + kernelHeapBlockSize) = block + 4096 := by
    unfold uint32 kernelHeapBlockSize
    omega
  rw [heapFreeLoop]
  simp only [clear_one memory entry block (by omega), nextEntry, nextBlock]

/-- **The free loop** clears entries as long as the entry behind has the has-next bit. -/
theorem heapFreeLoop_clears (count : Nat) :
    ∀ turns (memory : Memory) entry block, count + 1 ≤ turns →
      entry + (count + 1) < 4294967296 → block + 4096 * count + 4096 < 4294967296 →
      (entry + (count + 1) ≤ block ∨ block + 4096 * count + 4096 ≤ entry) →
      (∀ index, 0 < index → index < count + 1 →
        heapTableEntryHasNext memory (entry + index) = true) →
      heapTableEntryHasNext memory (entry + (count + 1)) = false →
      heapFreeLoop turns memory entry block = some (cleared memory entry block (count + 1)) := by
  induction count with
  | zero =>
    intro turns memory entry block enough entries blocks apart chain stop
    obtain ⟨turns, rfl⟩ := Nat.exists_eq_succ_of_ne_zero (show turns ≠ 0 by omega)
    have off : heapTableEntryHasNext (cleared memory entry block 1) (entry + 1) = false := by
      unfold heapTableEntryHasNext cleared
      split
      · decide
      · exact stop
    rw [heapFreeLoop_succ turns memory entry block (by omega) (by omega), off]
    rfl
  | succ count ih =>
    intro turns memory entry block enough entries blocks apart chain stop
    obtain ⟨turns, rfl⟩ := Nat.exists_eq_succ_of_ne_zero (show turns ≠ 0 by omega)
    have kept : ∀ index, 0 < index → index < count + 2 →
        cleared memory entry block 1 (entry + index) = memory (entry + index) := by
      intro index low high
      rw [cleared, if_neg (by omega)]
    have on : heapTableEntryHasNext (cleared memory entry block 1) (entry + 1) = true := by
      rw [heapTableEntryHasNext, kept 1 (by omega) (by omega)]
      exact chain 1 (by omega) (by omega)
    rw [heapFreeLoop_succ turns memory entry block (by omega) (by omega), if_pos on,
      ← cleared_succ memory entry block (count + 1)]
    refine ih turns _ _ _ (by omega) (by omega) (by omega) (by omega)
      (fun index low high => ?_) ?_
    · rw [heapTableEntryHasNext, show entry + 1 + index = entry + (index + 1) by omega,
        kept (index + 1) (by omega) (by omega)]
      exact chain (index + 1) (by omega) (by omega)
    · unfold heapTableEntryHasNext cleared
      split
      · decide
      · rw [show entry + 1 + (count + 1) = entry + (count + 1 + 1) by omega]
        exact stop

/-- One turn leaves a clear byte as it is. -/
theorem clear_turn_zero {memory : Memory} {address entry block : Nat} (zero : memory address = 0) :
    store (memset memory block 0 4096) entry heapBlockTableEntryFree address = 0 := by
  unfold store memset heapBlockTableEntryFree
  split_ifs
  · rfl
  · rfl
  · exact zero

/-- A byte that is clear stays clear. -/
theorem heapFreeLoop_zero {address : Nat} :
    ∀ {turns : Nat} {memory memory' : Memory} {entry block : Nat}, memory address = 0 →
      heapFreeLoop turns memory entry block = some memory' → memory' address = 0
  | 0, _, _, _, _, _, call => by cases call
  | turns + 1, memory, memory', entry, block, zero, call => by
      rw [heapFreeLoop] at call
      split at call
      · exact heapFreeLoop_zero (clear_turn_zero zero) call
      · cases call
        exact clear_turn_zero zero

/-- The entry the loop starts at is cleared. -/
theorem heapFreeLoop_clears_first {turns : Nat} {memory memory' : Memory} {entry block : Nat}
    (call : heapFreeLoop (turns + 1) memory entry block = some memory')
    (entries : entry + 1 < 4294967296) (blocks : block + 4096 < 4294967296) :
    memory' entry = 0 := by
  have one : cleared memory entry block 1 entry = 0 := by
    rw [cleared, if_pos (by omega)]
  rw [heapFreeLoop_succ turns memory entry block entries blocks] at call
  split at call
  · exact heapFreeLoop_zero one call
  · cases call
    exact one

/-- The entry `heapFree` starts at is that of the block it is given. -/
theorem entry_of_ptr {heap : Heap} (placed : Placed heap) {first : Nat} (inside : first < heap.table.size)
    (near : 4096 * first < 2147483648) :
    uint32 (heap.table.entries + (int32 (((heap.startAddr + 4096 * first : Nat) : Int) -
      heap.startAddr)).tdiv kernelHeapBlockSize) = heap.table.entries + first := by
  have top := placed.table
  have offset : int32 (((heap.startAddr + 4096 * first : Nat) : Int) - heap.startAddr) =
      4096 * (first : Int) := by
    rw [int32_of_range (by omega) (by omega)]
    omega
  have block : Int.tdiv (4096 * (first : Int)) kernelHeapBlockSize = first :=
    Int.mul_tdiv_cancel_left _ (by decide)
  rw [offset, block, ← Nat.cast_add, uint32_natCast (by omega)]

/-- From `2 ^ 31` bytes on, the distance is taken for a negative number, and the entry lies `2 ^ 20` lower. -/
theorem entry_of_far_ptr {heap : Heap} (placed : Placed heap) {first : Nat} (inside : first < heap.table.size)
    (far : 2147483648 ≤ 4096 * first) :
    uint32 (heap.table.entries + (int32 (((heap.startAddr + 4096 * first : Nat) : Int) -
      heap.startAddr)).tdiv kernelHeapBlockSize) =
      uint32 ((heap.table.entries : Int) + (first - 1048576)) := by
  have blocks := placed.blocks
  have offset : int32 (((heap.startAddr + 4096 * first : Nat) : Int) - heap.startAddr) =
      4096 * ((first : Int) - 1048576) := by
    rw [int32, Int.bmod_def]
    omega
  have block : Int.tdiv (4096 * ((first : Int) - 1048576)) kernelHeapBlockSize = (first : Int) - 1048576 :=
    Int.mul_tdiv_cancel_left _ (by decide)
  rw [offset, block]

theorem heapFree_eq {heap : Heap} (placed : Placed heap) (memory : Memory) {first : Nat}
    (inside : first < heap.table.size) (near : 4096 * first < 2147483648) :
    heapFree heap memory (heap.startAddr + 4096 * first) =
      heapFreeLoop heapFreeTurns memory (heap.table.entries + first) (heap.startAddr + 4096 * first) := by
  unfold heapFree
  dsimp only
  rw [entry_of_ptr placed inside near]

end Free

end KernelPlay.BlockHeap
