/-
**The block size of `heap_create` against that of the allocator.**

`heap_create` sizes the table by its argument `block_size`; `heap_malloc` computes addresses with the constant
of `config.h`. A run is a run of `MallocCall`, calls whose range ends in the table.

* `BlockSizesAgree` — in every run each allocation lies in the `heap_size` bytes from `heap_start` on, and is
  `block_size` bytes long for each of its entries.
* `heap_block_size_iff` — that is so exactly if `block_size` is the constant, or nothing can be allocated at
  all. `heap_inside_iff` — the ranges lie inside exactly if the table has no more entries than there are whole
  blocks of the constant's size, or none can be taken.
-/

import KernelPlay.Heap.Reserve

namespace KernelPlay.BlockHeap

open KernelPlay.Library

/-! ### Ranges of the table and their bytes -/

/-- The first entry a call takes, and the number of entries. -/
def chosenRange (heap : Heap) (memory : Memory) (size : Nat) : Option (Nat × Nat) :=
  (findFreeBlockStart heap memory (countOf size)).map fun freeStart =>
    let first := freeStart - heap.table.entries
    (first, tested heap (countOf size) first)

/-- The address `heap_malloc_blocks` computes for an entry. -/
def blockAddress (heap : Heap) (index : Nat) : Int := heap.startAddr + index * kernelHeapBlockSize

/-- The bytes from the block of the first entry up to the block of the entry behind the last. -/
def spanOf (heap : Heap) (first count : Nat) : Nat :=
  (blockAddress heap (first + count) - blockAddress heap first).toNat

/-- Every one of `length` bytes from `ptr` on is one of the `heapSize` bytes from `heapStart` on. -/
def LiesInside (heapStart heapSize ptr length : Nat) : Prop :=
  ∀ offset, offset < length → ∃ place, place < heapSize ∧
    uint32 ((ptr : Int) + offset) = uint32 ((heapStart : Int) + place)

/-- A call of `heap_malloc` whose range, if there is one, ends in the table. -/
inductive MallocCall (heap : Heap) : Memory → Nat → Memory → Prop
  | call {memory : Memory} {size : Nat} : size < 4294967296 →
      (∀ first count, chosenRange heap memory size = some (first, count) → first + count ≤ heap.table.size) →
      MallocCall heap memory size (heapMalloc heap memory size).2

/-- In every run, each range that is taken meets `Meets`, which is told the pointer, the bytes and the entries. -/
def EveryRange (heap : Heap) (memory : Memory) (Meets : Nat → Nat → Nat → Prop) : Prop :=
  ∀ sizes reached size next, Run (MallocCall heap) memory sizes reached → MallocCall heap reached size next →
    ∀ first count, chosenRange heap reached size = some (first, count) →
      Meets (heapMalloc heap reached size).1 (spanOf heap first count) count

/-- **`heap_create` and the allocator agree on the block size**: every allocation lies inside, and has
`blockSize` bytes for each of its entries. A null pointer is no allocation. -/
def BlockSizesAgree (heap : Heap) (memory : Memory) (heapStart heapSize blockSize : Nat) : Prop :=
  EveryRange heap memory fun ptr length count =>
    ptr ≠ 0 → LiesInside heapStart heapSize ptr length ∧ length = count * blockSize

section Range

variable {heap : Heap} {memory : Memory} {size first count : Nat}

theorem spanOf_eq (heap : Heap) (first count : Nat) : spanOf heap first count = 4096 * count := by
  unfold spanOf blockAddress kernelHeapBlockSize
  omega

theorem chosenRange_eq (top : heap.table.entries + heap.table.size < 4294967296)
    (chosen : chosenRange heap memory size = some (first, count)) :
    findFreeBlockStart heap memory (countOf size) = some (heap.table.entries + first) ∧
      count = tested heap (countOf size) first := by
  unfold chosenRange at chosen
  rcases @findFreeBlockStart_candidate heap memory top (countOf size) with ⟨none, -⟩ | ⟨other, found, -⟩
  · rw [none] at chosen
    cases chosen
  · rw [found, Option.map_some, Option.some.injEq, Prod.mk.injEq, Nat.add_sub_cancel_left] at chosen
    obtain ⟨rfl, rfl⟩ := chosen
    exact ⟨found, rfl⟩

/-- **The pointer and the marks of a chosen range.** -/
theorem heapMalloc_chosen (nonzero : 0 < heap.table.entries)
    (top : heap.table.entries + heap.table.size < 4294967296) (small : size < 4294967296)
    (chosen : chosenRange heap memory size = some (first, count)) :
    heapMalloc heap memory size = (uint32 (blockAddress heap first),
      heapMarkTableEntriesTaken memory (heap.table.entries + first) (countOf size)) := by
  rw [heapMalloc_count small, heapMallocBlocks, (chosenRange_eq top chosen).1]
  dsimp only
  rw [if_pos (by omega)]
  have distance : (((heap.table.entries + first : Nat) : Int) - heap.table.entries) = first := by omega
  simp only [distance]
  rfl

/-- The entries of the range, and no others, are marked. -/
theorem chosen_marked (nonzero : 0 < heap.table.entries)
    (top : heap.table.entries + heap.table.size < 4294967296) (small : size < 4294967296)
    (chosen : chosenRange heap memory size = some (first, count)) (index : Nat) :
    if first ≤ index ∧ index < first + count then
      isFreeBlock (heapMalloc heap memory size).2 (heap.table.entries + index) = false
    else
      (heapMalloc heap memory size).2 (heap.table.entries + index) = memory (heap.table.entries + index) := by
  rw [heapMalloc_chosen nonzero top small chosen, (chosenRange_eq top chosen).2]
  split_ifs with inside
  · exact takenEntry_not_free (marked_iff_tested.trans (if_pos inside))
  · exact marked_iff_tested.trans (if_neg inside)

/-- A table that reaches the end of the address space is never searched. -/
theorem chosenRange_none (behind : heap.table.finish ≤ heap.table.entries) :
    chosenRange heap memory size = none := by
  have stays (turns : Nat) : findNextFreeBlock memory heap.table.finish turns heap.table.entries =
      heap.table.entries := by
    cases turns with
    | zero => rfl
    | succ turns =>
      rw [findNextFreeBlock, if_neg]
      simp [behind]
  have found : findFreeBlockStart heap memory (countOf size) = none := by
    unfold findFreeBlockStart
    dsimp only
    rw [stays, findFreeBlockStartLoop, if_neg (by omega)]
  rw [chosenRange, found]
  rfl

end Range

/-! ### Block by block -/

/-- The first `taken` entries of the table are taken, the others free. -/
def FilledUpTo (heap : Heap) (memory : Memory) (taken : Nat) : Prop :=
  ∀ index, index < heap.table.size →
    isFreeBlock memory (heap.table.entries + index) = decide (taken ≤ index)

section Filling

variable {heap : Heap} {memory : Memory} {taken : Nat}

/-- A single block is the next free entry. -/
theorem FilledUpTo.chosen (top : heap.table.entries + heap.table.size < 4294967296)
    (filled : FilledUpTo heap memory taken) (below : taken < heap.table.size) :
    chosenRange heap memory 1 = some (taken, 1) := by
  have run : FreeRun heap memory 1 taken := by
    refine ⟨below, fun index one => ?_⟩
    obtain rfl : index = 0 := by omega
    simp [filled taken below]
  have least (earlier : Nat) (before : earlier < taken) : ¬ FreeRun heap memory 1 earlier := by
    rintro ⟨-, all⟩
    have free := all 0 Nat.one_pos
    rw [Nat.add_zero, filled earlier (by omega), decide_eq_true_iff] at free
    omega
  have count : countOf 1 = (1 : Nat) := by decide
  have one : tested heap (countOf 1) taken = 1 := by
    rw [count, tested, ← Nat.cast_add, uint32_natCast (by omega)]
    omega
  rw [chosenRange, count, findFreeBlockStart_first top Nat.one_pos run least, ← count]
  simp [one]

/-- One block more. -/
theorem FilledUpTo.next (nonzero : 0 < heap.table.entries)
    (top : heap.table.entries + heap.table.size < 4294967296)
    (filled : FilledUpTo heap memory taken) (below : taken < heap.table.size) :
    FilledUpTo heap (heapMalloc heap memory 1).2 (taken + 1) := by
  intro index inside
  have marked := chosen_marked nonzero top (by decide) (filled.chosen top below) index
  by_cases here : taken ≤ index ∧ index < taken + 1
  · rw [if_pos here] at marked
    rw [marked, eq_comm, decide_eq_false_iff_not]
    omega
  · rw [if_neg here] at marked
    rw [isFreeBlock, marked]
    refine (filled index inside).trans (decide_eq_decide.mpr ?_)
    omega

/-- A call for a single block, while there is one. -/
theorem FilledUpTo.call (top : heap.table.entries + heap.table.size < 4294967296)
    (filled : FilledUpTo heap memory taken) (below : taken < heap.table.size) :
    MallocCall heap memory 1 (heapMalloc heap memory 1).2 := by
  refine .call (by decide) fun first count chosen => ?_
  rw [filled.chosen top below, Option.some.injEq, Prod.mk.injEq] at chosen
  omega

/-- **The table can be filled** block by block. -/
theorem fills (nonzero : 0 < heap.table.entries)
    (top : heap.table.entries + heap.table.size < 4294967296) (fresh : FilledUpTo heap memory 0) :
    ∀ taken, taken ≤ heap.table.size →
      ∃ sizes reached, Run (MallocCall heap) memory sizes reached ∧ FilledUpTo heap reached taken := by
  intro taken
  induction taken with
  | zero => exact fun _ => ⟨[], memory, .done memory, fresh⟩
  | succ taken ih =>
    intro below
    obtain ⟨sizes, reached, run, filled⟩ := ih (by omega)
    exact ⟨sizes ++ [1], _, run.snoc (filled.call top below), filled.next nonzero top below⟩

/-- What every range meets, the single block of each entry meets. -/
theorem EveryRange.single {Meets : Nat → Nat → Nat → Prop} (nonzero : 0 < heap.table.entries)
    (top : heap.table.entries + heap.table.size < 4294967296) (fresh : FilledUpTo heap memory 0)
    (every : EveryRange heap memory Meets) {index : Nat} (below : index < heap.table.size) :
    Meets (uint32 (blockAddress heap index)) 4096 1 := by
  obtain ⟨sizes, reached, run, filled⟩ := fills nonzero top fresh index (by omega)
  have chosen := filled.chosen top below
  have meets := every sizes reached 1 _ run (filled.call top below) index 1 chosen
  rwa [heapMalloc_chosen nonzero top (by decide) chosen, spanOf_eq] at meets

/-- **The rule for all runs**: a range that is taken ends in the table. -/
theorem everyRange_of_ranges {Meets : Nat → Nat → Nat → Prop} (nonzero : 0 < heap.table.entries)
    (top : heap.table.entries + heap.table.size < 4294967296)
    (meets : ∀ first count, first + count ≤ heap.table.size →
      Meets (uint32 (blockAddress heap first)) (4096 * count) count) :
    EveryRange heap memory Meets := by
  intro sizes reached size next _ call first count chosen
  obtain ⟨small, fits⟩ := call
  rw [heapMalloc_chosen nonzero top small chosen, spanOf_eq]
  exact meets first count (fits first count chosen)

/-- Where no range is taken, every one meets anything. -/
theorem everyRange_of_none {Meets : Nat → Nat → Nat → Prop}
    (behind : heap.table.finish ≤ heap.table.entries) : EveryRange heap memory Meets := by
  intro sizes reached size next _ _ first count chosen
  rw [chosenRange_none behind] at chosen
  cases chosen

end Filling

/-! ### Every accepted geometry -/

section Geometry

variable {memory memory' : Memory} {heap : Heap} {heapStart tableStart heapSize blockSize : Nat}

/-- The table `heapCreate` clears is free throughout. -/
theorem created_filled (top : tableStart + heapSize / blockSize < 4294967296)
    (created : heapCreate memory heapStart tableStart heapSize blockSize = .ok (heap, memory')) :
    FilledUpTo heap memory' 0 := by
  obtain ⟨rfl, rfl⟩ := heapCreate_ok created
  intro index below
  dsimp only at below ⊢
  rw [isFreeBlock, memset_apply _ _ (by omega), if_pos (by omega)]
  rfl

/-- The table lies in the address space. -/
theorem created_top (top : tableStart + heapSize / blockSize < 4294967296)
    (created : heapCreate memory heapStart tableStart heapSize blockSize = .ok (heap, memory')) :
    heap.table.entries + heap.table.size < 4294967296 := by
  obtain ⟨rfl, -⟩ := heapCreate_ok created
  exact top

/-- A table without entries, or one that reaches the end of the address space, ends where it starts or in
front of it. -/
theorem created_behind (table : tableStart < 4294967296) (size : heapSize < 4294967296)
    (created : heapCreate memory heapStart tableStart heapSize blockSize = .ok (heap, memory'))
    (unsearched : heapSize / blockSize = 0 ∨ 4294967296 ≤ tableStart + heapSize / blockSize) :
    heap.table.finish ≤ heap.table.entries := by
  obtain ⟨rfl, -⟩ := heapCreate_ok created
  have few := Nat.div_le_self heapSize blockSize
  dsimp only [HeapTable.finish]
  unfold uint32
  omega

/-- The blocks of a range lie inside if they end there. -/
theorem liesInside_of_le {heap : Heap} {first count : Nat} (start : heap.startAddr = heapStart)
    (ends : 4096 * (first + count) ≤ heapSize) :
    LiesInside heapStart heapSize (uint32 (blockAddress heap first)) (4096 * count) := by
  intro offset below
  refine ⟨4096 * first + offset, by omega, ?_⟩
  unfold blockAddress kernelHeapBlockSize
  rw [start]
  unfold uint32
  omega

/-- A block beyond the first `heapSize` bytes does not. -/
theorem not_liesInside {heap : Heap} {first length : Nat} (start : heap.startAddr = heapStart)
    (size : heapSize < 4294967296) (before : 4096 * first ≤ heapSize)
    (beyond : heapSize < 4096 * first + length) :
    ¬ LiesInside heapStart heapSize (uint32 (blockAddress heap first)) length := by
  intro inside
  obtain ⟨place, below, same⟩ := inside (heapSize - 4096 * first) (by omega)
  unfold blockAddress kernelHeapBlockSize at same
  rw [start] at same
  unfold uint32 at same
  omega

/-- The block of some entry is not at address 0, unless there is one entry only and the heap starts there. -/
theorem nonnull_block {heap : Heap} (word : heap.startAddr < 4294967296) (some_entry : 0 < heap.table.size)
    (several : ¬ (heap.startAddr = 0 ∧ heap.table.size = 1)) :
    ∃ index, index < heap.table.size ∧ uint32 (blockAddress heap index) ≠ 0 := by
  unfold blockAddress kernelHeapBlockSize
  by_cases zero : heap.startAddr = 0
  · refine ⟨1, by omega, ?_⟩
    rw [zero]
    decide
  · refine ⟨0, some_entry, ?_⟩
    unfold uint32
    omega

/-- A heap of one block at address 0 hands out nothing. -/
theorem blockSizesAgree_null {heap : Heap} (nonzero : 0 < heap.table.entries)
    (top : heap.table.entries + heap.table.size < 4294967296)
    (zero : heap.startAddr = 0) (one : heap.table.size = 1) :
    BlockSizesAgree heap memory heapStart heapSize blockSize := by
  refine everyRange_of_ranges nonzero top fun first count room nonnull => ?_
  rcases Nat.eq_zero_or_pos count with rfl | some_block
  · exact ⟨fun offset below => absurd below (Nat.not_lt_zero _), (Nat.zero_mul _).symm⟩
  · obtain rfl : first = 0 := by omega
    rw [blockAddress, zero] at nonnull
    exact absurd rfl nonnull

/-- **The two agree exactly** for blocks of the constant's size, for a table without entries, for one that
reaches the end of the address space, and for a heap of one block at address 0. -/
theorem heap_block_size_iff (word : heapStart < 4294967296) (nonzero : 0 < tableStart) (table : tableStart < 4294967296)
    (size : heapSize < 4294967296) (positive : 1 ≤ blockSize)
    (created : heapCreate memory heapStart tableStart heapSize blockSize = .ok (heap, memory')) :
    BlockSizesAgree heap memory' heapStart heapSize blockSize ↔
      blockSize = 4096 ∨ heapSize < blockSize ∨ 4294967296 ≤ tableStart + heapSize / blockSize ∨
        heapStart = 0 ∧ heapSize / blockSize = 1 := by
  obtain ⟨shape, -⟩ := heapCreate_ok created
  have entry : 0 < heap.table.entries := by rwa [shape]
  by_cases wraps : 4294967296 ≤ tableStart + heapSize / blockSize
  · exact iff_of_true (everyRange_of_none (created_behind table size created (.inr wraps)))
      (.inr (.inr (.inl wraps)))
  by_cases empty : heapSize < blockSize
  · exact iff_of_true (everyRange_of_none
      (created_behind table size created (.inl (Nat.div_eq_of_lt empty)))) (.inr (.inl empty))
  have some_entry : 0 < heapSize / blockSize := Nat.div_pos (by omega) positive
  have top := created_top (by omega) created
  have start : heap.startAddr = heapStart := by rw [shape]
  have entries : heap.table.size = heapSize / blockSize := by rw [shape]
  by_cases null : heapStart = 0 ∧ heapSize / blockSize = 1
  · exact iff_of_true (blockSizesAgree_null entry top (start.trans null.1) (entries.trans null.2))
      (.inr (.inr (.inr null)))
  constructor
  · intro every
    have fresh := created_filled (by omega) created
    obtain ⟨index, below, nonnull⟩ := @nonnull_block heap (by omega) (by omega) (by rwa [start, entries])
    have length := (every.single entry top fresh below nonnull).2
    exact .inl (by omega)
  · intro condition
    obtain rfl : blockSize = 4096 := by omega
    refine everyRange_of_ranges entry top fun first count room _ => ⟨liesInside_of_le start ?_, Nat.mul_comm ..⟩
    omega

/-- **The ranges lie inside exactly** if the table has no more entries than there are whole blocks of the
constant's size, or if it reaches the end of the address space. -/
theorem heap_inside_iff (nonzero : 0 < tableStart) (table : tableStart < 4294967296) (size : heapSize < 4294967296)
    (created : heapCreate memory heapStart tableStart heapSize blockSize = .ok (heap, memory')) :
    EveryRange heap memory' (fun ptr length _ => LiesInside heapStart heapSize ptr length) ↔
      4096 * (heapSize / blockSize) ≤ heapSize ∨ 4294967296 ≤ tableStart + heapSize / blockSize := by
  obtain ⟨shape, -⟩ := heapCreate_ok created
  have entry : 0 < heap.table.entries := by rwa [shape]
  by_cases wraps : 4294967296 ≤ tableStart + heapSize / blockSize
  · exact iff_of_true (everyRange_of_none (created_behind table size created (.inr wraps))) (.inr wraps)
  have top := created_top (by omega) created
  have start : heap.startAddr = heapStart := by rw [shape]
  have entries : heap.table.size = heapSize / blockSize := by rw [shape]
  constructor
  · intro every
    by_contra outside
    have fresh := created_filled (by omega) created
    -- the entry whose block goes on where the heap ends
    have last := every.single entry top fresh (show heapSize / 4096 < heap.table.size by omega)
    exact not_liesInside start size (by omega) (by omega) last
  · intro condition
    refine everyRange_of_ranges entry top fun first count room => liesInside_of_le start ?_
    omega

end Geometry

/-! ### Two geometries -/

section Small

theorem heap_block_size_iff_small : BlockSizesAgree smallHeap smallStart 0x01000000 16384 4096 :=
  (heap_block_size_iff (by decide) (by decide) (by decide) (by decide) (by decide) smallHeap_created).mpr (.inl rfl)

/-- Eight entries for 8192 bytes. -/
def kilobyteHeap : Heap := ⟨⟨0x7E00, 8⟩, 0x01000000⟩

def kilobyteStart : Memory := memset (fun _ => 0) 0x7E00 heapBlockTableEntryFree 8

/-- **Blocks of 1024 bytes**: a request of 12288 bytes gets three of the eight entries, and 12288 bytes of a
heap of 8192. -/
theorem heap_block_size_fails :
    heapCreate (fun _ => 0) 0x01000000 0x7E00 8192 1024 = .ok (kilobyteHeap, kilobyteStart) ∧
      chosenRange kilobyteHeap kilobyteStart 12288 = some (0, 3) ∧ spanOf kilobyteHeap 0 3 = 12288 ∧
      ¬ LiesInside 0x01000000 8192 (heapMalloc kilobyteHeap kilobyteStart 12288).1 12288 ∧
      ¬ BlockSizesAgree kilobyteHeap kilobyteStart 0x01000000 8192 1024 := by
  have chosen : chosenRange kilobyteHeap kilobyteStart 12288 = some (0, 3) := by decide
  have pointer := congrArg Prod.fst (heapMalloc_chosen (by decide) (by decide) (by decide) chosen)
  have outside : ¬ LiesInside 0x01000000 8192 (heapMalloc kilobyteHeap kilobyteStart 12288).1 12288 := by
    rw [pointer]
    exact not_liesInside rfl (by decide) (by decide) (by decide)
  have call : MallocCall kilobyteHeap kilobyteStart 12288
      (heapMalloc kilobyteHeap kilobyteStart 12288).2 := by
    refine .call (by decide) fun first count found => ?_
    rw [chosen, Option.some.injEq, Prod.mk.injEq] at found
    obtain ⟨rfl, rfl⟩ := found
    decide
  refine ⟨rfl, chosen, by decide, outside, fun agree => outside ?_⟩
  have nonnull : (heapMalloc kilobyteHeap kilobyteStart 12288).1 ≠ 0 := by
    rw [pointer]
    decide
  have inside := (agree [] kilobyteStart 12288 _ (.done _) call 0 3 chosen nonnull).1
  rwa [spanOf_eq] at inside

end Small

end KernelPlay.BlockHeap
