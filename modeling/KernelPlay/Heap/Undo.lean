/-
**Whether `heapFree` undoes `heapMalloc`.**

`heapFreeZeroes` lists the blocks the loop of `heapFree` sets to zero. `CleanTable` — a free entry is
`0` — holds in every state (`cleanTable_run`). `Undoes` — the table is as before the `heapMalloc`, and
only blocks of the allocation are zeroed. The last entry of a chain of two or more is never cleared
(`not_undoes_chain`); one block is undone exactly if its place is near and no has-next bit lies behind it
(`undoes_one_iff`). `heapFree_undoes_iff` puts the two together, request by request and for the table.
-/

import KernelPlay.Heap.Bounds

namespace KernelPlay.BlockHeap

open KernelPlay.Library

/-! ### The blocks `heapFree` zeroes -/

section Zeroes

/-- The blocks the loop zeroes, one in each turn. -/
def heapFreeLoopZeroes : Nat → Memory → Nat → Nat → List Nat
  | 0, _, _, _ => []
  | turns + 1, memory, entry, curDataBlock =>
    let memory := memset memory curDataBlock 0 4096
    let memory := store memory entry heapBlockTableEntryFree
    let entry := uint32 ((entry : Int) + 1)
    curDataBlock ::
      if heapTableEntryHasNext memory entry then
        heapFreeLoopZeroes turns memory entry (uint32 (curDataBlock + kernelHeapBlockSize))
      else []

def heapFreeZeroes (heap : Heap) (memory : Memory) (ptr : Nat) : List Nat :=
  let blockStart := (int32 ((ptr : Int) - heap.startAddr)).tdiv kernelHeapBlockSize
  heapFreeLoopZeroes heapFreeTurns memory (uint32 (heap.table.entries + blockStart)) ptr

/-- These blocks set to zero, and as many entries cleared. -/
def clearBlocks : Memory → Nat → List Nat → Memory
  | memory, _, [] => memory
  | memory, entry, block :: blocks =>
    clearBlocks (store (memset memory block 0 4096) entry heapBlockTableEntryFree)
      (uint32 ((entry : Int) + 1)) blocks

/-- **The loop does nothing else** than to zero these blocks and to clear as many entries. -/
theorem heapFreeLoop_zeroes :
    ∀ {turns : Nat} {memory memory' : Memory} {entry block : Nat},
      heapFreeLoop turns memory entry block = some memory' →
      memory' = clearBlocks memory entry (heapFreeLoopZeroes turns memory entry block) := by
  intro turns
  induction turns with
  | zero =>
    intro memory memory' entry block call
    cases call
  | succ turns ih =>
    intro memory memory' entry block call
    rw [heapFreeLoop] at call
    rw [heapFreeLoopZeroes]
    rw [clearBlocks]
    by_cases next : heapTableEntryHasNext (store (memset memory block 0 4096) entry heapBlockTableEntryFree)
        (uint32 ((entry : Int) + 1)) = true
    · rw [if_pos next] at call ⊢
      exact ih call
    · rw [if_neg next] at call ⊢
      cases call
      rfl

/-- A byte is zero after the loop, or as it was. -/
theorem heapFreeLoop_or {address : Nat} :
    ∀ {turns : Nat} {memory memory' : Memory} {entry block : Nat},
      heapFreeLoop turns memory entry block = some memory' →
      memory' address = memory address ∨ memory' address = 0 := by
  intro turns
  induction turns with
  | zero =>
    intro memory memory' entry block call
    cases call
  | succ turns ih =>
    intro memory memory' entry block call
    have one : store (memset memory block 0 4096) entry heapBlockTableEntryFree address = memory address ∨
        store (memset memory block 0 4096) entry heapBlockTableEntryFree address = 0 := by
      unfold store memset heapBlockTableEntryFree
      split_ifs <;> simp
    rw [heapFreeLoop] at call
    split_ifs at call
    · rcases ih call with same | zero
      · rw [same]
        exact one
      · exact .inr zero
    · cases call
      exact one

theorem uint32_lt (value : Int) : uint32 value < 4294967296 := by
  unfold uint32
  omega

/-- What one turn sets to zero, and what it leaves. -/
theorem clear_turn {memory : Memory} {entry block : Nat} (address : Nat) :
    let turn := store (memset memory block 0 4096) entry heapBlockTableEntryFree
    (address = entry ∨ address < 4294967296 ∧ uint32 ((address : Int) - block) < 4096 →
        turn address = 0) ∧
      (¬ (address = entry ∨ address < 4294967296 ∧ uint32 ((address : Int) - block) < 4096) →
        turn address = memory address) := by
  dsimp only
  unfold store memset heapBlockTableEntryFree
  constructor
  · intro inside
    split_ifs <;> simp_all
  · intro outside
    rw [if_neg fun here => outside (.inl here), if_neg fun there => outside (.inr there)]

/-- **The loop goes upwards**: where it changes a byte, it starts there or has set the one in front to
zero. -/
theorem heapFreeLoop_upwards {address : Nat} (below : address + 1 < 4294967296) :
    ∀ {turns : Nat} {memory memory' : Memory} {entry block : Nat}, entry < 4294967296 →
      block < 4294967296 → heapFreeLoop turns memory entry block = some memory' →
      memory' (address + 1) ≠ memory (address + 1) →
      address + 1 = entry ∨ address + 1 = block ∨ memory' address = 0 := by
  intro turns
  induction turns with
  | zero =>
    intro memory memory' entry block _ _ call
    cases call
  | succ turns ih =>
    intro memory memory' entry block entry_small block_small call changed
    by_cases at_entry : address + 1 = entry
    · exact .inl at_entry
    by_cases at_block : address + 1 = block
    · exact .inr (.inl at_block)
    refine .inr (.inr ?_)
    rw [heapFreeLoop] at call
    have turn := @clear_turn memory entry block
    generalize store (memset memory block 0 4096) entry heapBlockTableEntryFree = memory₁ at call turn
    by_cases same : memory₁ (address + 1) = memory (address + 1)
    · split_ifs at call with next
      · rcases ih (uint32_lt _) (uint32_lt _) call (same ▸ changed) with first | first | zero
        · have here : address = entry := by
            unfold uint32 at first
            omega
          exact heapFreeLoop_zero ((turn address).1 (.inl here)) call
        · have inside : address < 4294967296 ∧ uint32 ((address : Int) - block) < 4096 := by
            unfold uint32 kernelHeapBlockSize at first
            unfold uint32
            omega
          exact heapFreeLoop_zero ((turn address).1 (.inr inside)) call
        · exact zero
      · cases call
        exact absurd same changed
    · have inside : address < 4294967296 ∧ uint32 ((address : Int) - block) < 4096 := by
        by_contra outside
        refine same ((turn (address + 1)).2 ?_)
        unfold uint32 at outside ⊢
        omega
      have zero := (turn address).1 (.inr inside)
      split_ifs at call
      · exact heapFreeLoop_zero zero call
      · cases call
        exact zero

end Zeroes

/-! ### Reachable tables -/

/-- A call of the allocator, with whatever pointer is freed, or a byte its clients write. -/
inductive TableEvent
  | malloc (size : Nat)
  | free (ptr : Nat)
  | write (address : Nat) (value : UInt8)

/-- One step. A client writes no entry of the table. -/
inductive TableStep (heap : Heap) : Memory → TableEvent → Memory → Prop
  | malloc {memory memory' : Memory} {size ptr : Nat} : size < 4294967296 →
      heapMalloc heap memory size = (ptr, memory') → TableStep heap memory (.malloc size) memory'
  | free {memory memory' : Memory} {ptr : Nat} : ptr < 4294967296 →
      heapFree heap memory ptr = some memory' → TableStep heap memory (.free ptr) memory'
  | write {memory : Memory} {address : Nat} {value : UInt8} :
      (∀ index, index < heap.table.size → address ≠ heap.table.entries + index) →
      TableStep heap memory (.write address value) (store memory address value)

/-- **A free entry is zero.** -/
def CleanTable (heap : Heap) (memory : Memory) : Prop :=
  ∀ index, index < heap.table.size → isFreeBlock memory (heap.table.entries + index) = true →
    memory (heap.table.entries + index) = 0

section Reachable

variable {heap : Heap} {memory memory' : Memory}

theorem isFreeBlock_congr {address : Nat} (same : memory' address = memory address) :
    isFreeBlock memory' address = isFreeBlock memory address := by
  unfold isFreeBlock
  rw [same]

/-- An entry is taken after `heapMalloc`, or as it was. -/
theorem heapMalloc_or {size ptr : Nat} (call : heapMalloc heap memory size = (ptr, memory'))
    (address : Nat) : memory' address = memory address ∨ isFreeBlock memory' address = false := by
  unfold heapMalloc heapMallocBlocks at call
  dsimp only at call
  generalize (int32 (heapAlignToUpper size)).tdiv kernelHeapBlockSize = blocks at call
  cases found : findFreeBlockStart heap memory blocks with
  | none =>
    rw [found] at call
    cases call
    exact .inl rfl
  | some start =>
    rw [found] at call
    dsimp only at call
    split_ifs at call with null
    swap
    · cases call
      exact .inl rfl
    obtain rfl := (Prod.mk.inj call).2
    have value : heapMarkTableEntriesTaken memory start blocks address = _ :=
      foldl_store _ address _ start memory
    by_cases inside : start ≤ address ∧ address < start + (uint32 (start + blocks) - start)
    · rw [if_pos inside] at value
      exact .inr (takenEntry_not_free value)
    · rw [if_neg inside] at value
      exact .inl value

/-- **One step keeps the table clean.** -/
theorem CleanTable.step {event : TableEvent} (clean : CleanTable heap memory)
    (step : TableStep heap memory event memory') : CleanTable heap memory' := by
  intro index below free
  have kept (same : memory' (heap.table.entries + index) = memory (heap.table.entries + index)) :
      memory' (heap.table.entries + index) = 0 := by
    rw [isFreeBlock_congr same] at free
    exact same.trans (clean index below free)
  cases step with
  | malloc _ call =>
    rcases heapMalloc_or call (heap.table.entries + index) with same | taken
    · exact kept same
    · rw [taken] at free
      cases free
  | free _ call =>
    rcases heapFreeLoop_or call with same | zero
    · exact kept same
    · exact zero
  | write outside => exact kept (store_other memory (outside index below).symm _)

/-- The table of `heapCreate` is clean, and stays so. -/
theorem cleanTable_run {start : Memory} {heapStart tableStart heapSize : Nat}
    (created : heapCreate start heapStart tableStart heapSize 4096 = .ok (heap, memory))
    (table : tableStart + heapSize / 4096 < 4294967296) {events : List TableEvent}
    (run : Run (TableStep heap) memory events memory') : CleanTable heap memory' := by
  refine run.preserves (fun _ _ _ clean step => CleanTable.step clean step) ?_
  obtain ⟨rfl, rfl⟩ := heapCreate_ok created
  intro index below _
  dsimp only at below ⊢
  rw [memset_apply _ _ (by omega), if_pos (by omega)]
  rfl

end Reachable

/-! ### Undoing one request -/

/-- **`heapFree` undoes `heapMalloc`**: every entry of the table is as it was, and nothing but blocks of
the allocation is zeroed. -/
def Undoes (heap : Heap) (memory : Memory) (size : Nat) : Prop :=
  let allocated := heapMalloc heap memory size
  ∃ memory', heapFree heap allocated.2 allocated.1 = some memory' ∧
    (∀ index, index < heap.table.size →
      memory' (heap.table.entries + index) = memory (heap.table.entries + index)) ∧
    ∀ block ∈ heapFreeZeroes heap allocated.2 allocated.1, ∃ index, index < blocksOf size ∧
      block = allocated.1 + 4096 * index

/-- The first free entry of the table. -/
def FirstFree (heap : Heap) (memory : Memory) (first : Nat) : Prop :=
  FreeRun heap memory 1 first ∧ ∀ earlier, earlier < first → ¬ FreeRun heap memory 1 earlier

/-- **A single block is cleared alone**: it lies less than `2 ^ 31` bytes above the start of the heap, and
once it is zeroed there is no has-next bit behind its entry. -/
def ClearedAlone (heap : Heap) (memory : Memory) (first : Nat) : Prop :=
  4096 * first < 2147483648 ∧
    heapTableEntryHasNext (memset memory (heap.startAddr + 4096 * first) 0 4096)
      (heap.table.entries + first + 1) = false

section Undo

variable {heap : Heap} {memory : Memory} {size first : Nat}

theorem heapFreeZeroes_eq (placed : Placed heap) (inside : first < heap.table.size)
    (near : 4096 * first < 2147483648) :
    heapFreeZeroes heap memory (heap.startAddr + 4096 * first) =
      heapFreeLoopZeroes heapFreeTurns memory (heap.table.entries + first)
        (heap.startAddr + 4096 * first) := by
  unfold heapFreeZeroes
  dsimp only
  rw [entry_of_ptr placed inside near]

/-- One turn of the free loop, by the block it zeroes. -/
theorem heapFreeLoopZeroes_succ (turns : Nat) (memory : Memory) (entry block : Nat)
    (entries : entry + 1 < 4294967296) (blocks : block + 4096 < 4294967296) :
    heapFreeLoopZeroes (turns + 1) memory entry block =
      block :: if heapTableEntryHasNext (cleared memory entry block 1) (entry + 1) then
        heapFreeLoopZeroes turns (cleared memory entry block 1) (entry + 1) (block + 4096)
      else [] := by
  have nextEntry : uint32 ((entry : Int) + 1) = entry + 1 := by
    unfold uint32
    omega
  have nextBlock : uint32 ((block : Int) + kernelHeapBlockSize) = block + 4096 := by
    unfold uint32 kernelHeapBlockSize
    omega
  rw [heapFreeLoopZeroes]
  simp only [clear_one memory entry block (by omega), nextEntry, nextBlock]

theorem first_zeroes {turns entry block : Nat} (some_turn : turns ≠ 0) :
    block ∈ heapFreeLoopZeroes turns memory entry block := by
  obtain ⟨turns, rfl⟩ := Nat.exists_eq_succ_of_ne_zero some_turn
  exact List.mem_cons_self

/-- **A pointer from 2 GiB on** gives a negative `int`, and the loop starts at another entry: to get at
the entry of the block it has to zero the one in front. -/
theorem heapFree_far {memory' : Memory} (placed : Placed heap) (inside : first < heap.table.size)
    (far : 2147483648 ≤ 4096 * first)
    (call : heapFree heap memory (heap.startAddr + 4096 * first) = some memory')
    (changed : memory' (heap.table.entries + first) ≠ memory (heap.table.entries + first)) :
    memory' (heap.table.entries + (first - 1)) = 0 := by
  have top := placed.table
  have blocks := placed.blocks
  have separate := placed.apart
  unfold heapFree at call
  dsimp only at call
  rw [entry_of_far_ptr placed inside far] at call
  have place : heap.table.entries + first = heap.table.entries + (first - 1) + 1 := by omega
  rw [place] at changed
  rcases heapFreeLoop_upwards (by omega) (uint32_lt _) (by omega) call changed with start | start | zero
  · unfold uint32 at start
    omega
  · omega
  · exact zero

/-- The request got the first run of free entries, and its chain is written there. -/
structure Granted (heap : Heap) (memory : Memory) (size first : Nat) : Prop where
  run : FreeRun heap memory (blocksOf size) first
  least : ∀ earlier, earlier < first → ¬ FreeRun heap memory (blocksOf size) earlier
  malloc : heapMalloc heap memory size = (heap.startAddr + 4096 * first,
    heapMarkTableEntriesTaken memory (heap.table.entries + first) (blocksOf size))

/-- A request that fits gets the first run. -/
theorem granted_of_fits (placed : Placed heap) (nonzero : 0 < heap.table.entries)
    (positive : 1 ≤ size) (bounded : size ≤ 2147479552) (fits : Fits heap memory size) :
    ∃ first, Granted heap memory size first := by
  classical
  have run := Nat.find_spec fits
  have least : ∀ earlier, earlier < Nat.find fits → ¬ FreeRun heap memory (blocksOf size) earlier :=
    fun earlier before => Nat.find_min fits before
  have some_block := blocksOf_pos positive
  have room := run.1
  exact ⟨_, run, least, heapMalloc_found placed bounded (by omega) (by omega)
    (findFreeBlockStart_first placed.table some_block run least)⟩

/-- The entries of the allocation, and those around it. -/
theorem Granted.marked (placed : Placed heap) (granted : Granted heap memory size first) (index : Nat) :
    heapMarkTableEntriesTaken memory (heap.table.entries + first) (blocksOf size)
        (heap.table.entries + index) =
      if first ≤ index ∧ index < first + blocksOf size then chainEntry (blocksOf size) (index - first)
      else memory (heap.table.entries + index) := by
  have top := placed.table
  have room := granted.run.1
  rw [heapMarkTableEntriesTaken_apply memory (by omega)]
  by_cases inside : first ≤ index ∧ index < first + blocksOf size
  · rw [if_pos (by omega), if_pos inside]
    congr 1
    omega
  · rw [if_neg (by omega), if_neg inside]

/-- An entry that still has its mark is not as it was. -/
theorem Granted.not_restored (placed : Placed heap) (granted : Granted heap memory size first)
    {memory' : Memory} {index : Nat} (inside : index < blocksOf size)
    (kept : memory' (heap.table.entries + (first + index)) =
      heapMarkTableEntriesTaken memory (heap.table.entries + first) (blocksOf size)
        (heap.table.entries + (first + index)))
    (restored : memory' (heap.table.entries + (first + index)) =
      memory (heap.table.entries + (first + index))) : False := by
  rw [granted.marked placed, if_pos (by omega)] at kept
  have taken := isFreeBlock_chainEntry kept
  rw [isFreeBlock_congr restored, ← Nat.add_assoc, granted.run.2 index inside] at taken
  cases taken

/-- An allocation from 2 GiB on is not undone. -/
theorem Granted.not_undoes_far (placed : Placed heap) (granted : Granted heap memory size first)
    (some_block : 0 < blocksOf size) (far : 2147483648 ≤ 4096 * first) : ¬ Undoes heap memory size := by
  have room := granted.run.1
  unfold Undoes
  rw [granted.malloc]
  rintro ⟨memory', call, restored, -⟩
  have zero := heapFree_far placed (by omega) far call fun kept =>
    granted.not_restored placed some_block kept (restored first (by omega))
  refine granted.least (first - 1) (by omega) ⟨by omega, fun index below => ?_⟩
  rcases index with _ | index
  · have free : isFreeBlock memory' (heap.table.entries + (first - 1)) = true := by
      unfold isFreeBlock
      rw [zero]
      rfl
    rwa [isFreeBlock_congr (restored (first - 1) (by omega))] at free
  · have free := granted.run.2 index (by omega)
    rwa [show heap.table.entries + (first - 1) + (index + 1) = heap.table.entries + first + index by omega]

/-- A chain of two or more keeps its last entry. -/
theorem Granted.not_undoes_chain (placed : Placed heap) (granted : Granted heap memory size first)
    (many : 2 ≤ blocksOf size) : ¬ Undoes heap memory size := by
  have top := placed.table
  have blocks := placed.blocks
  have separate := placed.apart
  have room := granted.run.1
  by_cases near : 4096 * first < 2147483648
  swap
  · exact granted.not_undoes_far placed (by omega) (not_lt.mp near)
  unfold Undoes
  rw [granted.malloc]
  rintro ⟨memory', call, restored, -⟩
  have bit (index : Nat) (inside : index < blocksOf size) :
      heapTableEntryHasNext (heapMarkTableEntriesTaken memory (heap.table.entries + first) (blocksOf size))
        (heap.table.entries + first + index) = decide (index + 1 < blocksOf size) := by
    have entry := granted.marked placed (first + index)
    rw [if_pos (by omega), Nat.add_sub_cancel_left] at entry
    unfold heapTableEntryHasNext
    rw [Nat.add_assoc, entry, decide_eq_decide]
    exact chainEntry_hasNext _ _
  rw [heapFree_eq placed _ (by omega) near, heapFreeLoop_clears (blocksOf size - 2) _ _ _ _
    (by unfold heapFreeTurns; omega) (by omega) (by omega) (by omega)
    (fun index low high => by rw [bit index (by omega), decide_eq_true_eq]; omega)
    (by rw [bit _ (by omega), decide_eq_false_iff_not]; omega), Option.some.injEq] at call
  refine @Granted.not_restored heap memory size first placed granted memory' (blocksOf size - 1) (by omega)
    ?_ (restored _ (by omega))
  rw [← call, cleared, if_neg (by omega)]

/-- **One block is undone** exactly if it is cleared alone. -/
theorem Granted.undoes_one_iff (placed : Placed heap) (clean : CleanTable heap memory)
    (granted : Granted heap memory size first) (one : blocksOf size = 1) :
    Undoes heap memory size ↔ ClearedAlone heap memory first := by
  have top := placed.table
  have blocks := placed.blocks
  have separate := placed.apart
  have room := granted.run.1
  by_cases near : 4096 * first < 2147483648
  swap
  · exact iff_of_false (granted.not_undoes_far placed (by omega) (not_lt.mp near)) fun alone => near alone.1
  have marked := granted.marked placed
  have free := granted.run.2 0 (by omega)
  have bit : heapTableEntryHasNext (cleared (heapMarkTableEntriesTaken memory (heap.table.entries + first)
      (blocksOf size)) (heap.table.entries + first) (heap.startAddr + 4096 * first) 1)
        (heap.table.entries + first + 1) =
      heapTableEntryHasNext (memset memory (heap.startAddr + 4096 * first) 0 4096)
        (heap.table.entries + first + 1) := by
    have behind := marked (first + 1)
    rw [if_neg (by omega)] at behind
    unfold heapTableEntryHasNext cleared
    rw [memset_apply memory 0 (by omega), Nat.add_assoc, behind]
    by_cases inside : heap.startAddr + 4096 * first ≤ heap.table.entries + (first + 1) ∧
        heap.table.entries + (first + 1) < heap.startAddr + 4096 * first + 4096
    · rw [if_pos (by omega), if_pos inside]
    · rw [if_neg (by omega), if_neg inside]
  unfold Undoes ClearedAlone
  rw [granted.malloc]
  dsimp only
  rw [heapFree_eq placed _ (by omega) near, heapFreeZeroes_eq placed (by omega) near, heapFreeTurns,
    heapFreeLoop_succ 4294967295 _ _ _ (by omega) (by omega),
    heapFreeLoopZeroes_succ 4294967295 _ _ _ (by omega) (by omega), bit]
  by_cases next : heapTableEntryHasNext (memset memory (heap.startAddr + 4096 * first) 0 4096)
      (heap.table.entries + first + 1) = true
  · rw [if_pos next, if_pos next]
    refine iff_of_false ?_ fun alone => ?_
    · rintro ⟨memory', -, -, zeroes⟩
      obtain ⟨index, inside, second⟩ := zeroes _ (List.mem_cons_of_mem _ (first_zeroes (by decide)))
      omega
    · rw [next] at alone
      cases alone.2
  · rw [if_neg next, if_neg next]
    refine iff_of_true ⟨_, rfl, fun index below => ?_, fun block member => ?_⟩
      ⟨near, Bool.eq_false_iff.mpr next⟩
    · by_cases here : index = first
      · subst here
        rw [cleared, if_pos (by omega), clean index below (by simpa using free)]
      · rw [cleared, if_neg (by omega), marked, if_neg (by omega)]
    · exact ⟨0, by omega, List.mem_singleton.mp member⟩

/-- **One request is undone** exactly if it is for one block, and the first free block is cleared alone. -/
theorem undoes_iff (placed : Placed heap) (nonzero : 0 < heap.table.entries)
    (clean : CleanTable heap memory) (positive : 1 ≤ size) (bounded : size ≤ 2147479552)
    (fits : Fits heap memory size) :
    Undoes heap memory size ↔
      size ≤ 4096 ∧ ∀ first, FirstFree heap memory first → ClearedAlone heap memory first := by
  obtain ⟨first, granted⟩ := granted_of_fits placed nonzero positive bounded fits
  by_cases short : size ≤ 4096
  · have one : blocksOf size = 1 := by
      unfold blocksOf
      omega
    rw [granted.undoes_one_iff placed clean one]
    have here : FirstFree heap memory first := ⟨one ▸ granted.run, one ▸ granted.least⟩
    constructor
    · intro alone
      refine ⟨short, fun other free => ?_⟩
      rcases lt_trichotomy other first with before | rfl | behind
      · exact absurd free.1 (here.2 other before)
      · exact alone
      · exact absurd here.1 (free.2 first behind)
    · exact fun both => both.2 first here
  · have many : 2 ≤ blocksOf size := by
      unfold blocksOf
      omega
    exact iff_of_false (granted.not_undoes_chain placed many) fun both => short both.1

/-- **Undoing.** In every state of the allocator, a request that fits is undone exactly if it is for one
block and the first free block is cleared alone; all requests that fit are undone exactly if no two
neighbouring entries are free and the first free block, if any, is cleared alone. -/
theorem heapFree_undoes_iff {start memory memory' : Memory} {heapStart tableStart heapSize : Nat}
    {heap : Heap} (created : heapCreate start heapStart tableStart heapSize 4096 = .ok (heap, memory))
    (nonzero : 0 < tableStart) (table : tableStart + heapSize / 4096 < 4294967296)
    (blocks : heapStart + heapSize < 4294967296)
    (apart : tableStart + heapSize / 4096 ≤ heapStart ∨ heapStart + heapSize ≤ tableStart)
    {events : List TableEvent} (run : Run (TableStep heap) memory events memory') :
    (∀ size, 1 ≤ size → size ≤ 2147479552 → Fits heap memory' size →
      (Undoes heap memory' size ↔
        size ≤ 4096 ∧ ∀ first, FirstFree heap memory' first → ClearedAlone heap memory' first)) ∧
    ((∀ size, 1 ≤ size → Fits heap memory' size → Undoes heap memory' size) ↔
      (∀ first, ¬ FreeRun heap memory' 2 first) ∧
        ∀ first, FirstFree heap memory' first → ClearedAlone heap memory' first) := by
  have placed := placed_of_heapCreate created table blocks apart
  have clean := cleanTable_run created table run
  have entry : 0 < heap.table.entries := by rwa [(heapCreate_ok created).1]
  refine ⟨fun size positive bounded fits => undoes_iff placed entry clean positive bounded fits, ?_, ?_⟩
  · intro all
    constructor
    · intro first pair
      have fits : Fits heap memory' 8192 := ⟨first, pair⟩
      have short := (undoes_iff placed entry clean (by decide) (by decide) fits).mp (all 8192 (by decide) fits)
      exact absurd short.1 (by decide)
    · intro first free
      have fits : Fits heap memory' 1 := ⟨first, free.1⟩
      exact ((undoes_iff placed entry clean (by decide) (by decide) fits).mp (all 1 (by decide) fits)).2 first free
  · rintro ⟨alone, cleared⟩ size positive ⟨first, run⟩
    have short : size ≤ 4096 := by
      by_contra long
      have room := run.1
      have many : 2 ≤ blocksOf size := by
        unfold blocksOf
        omega
      exact alone first ⟨by omega, fun index below => run.2 index (by omega)⟩
    exact (undoes_iff placed entry clean positive (by omega) ⟨first, run⟩).mpr ⟨short, cleared⟩

end Undo

/-! ### A heap of four blocks -/

section Small

/-- Two single blocks, one behind the other. -/
def pairMemory : Memory := (heapMalloc smallHeap (heapMalloc smallHeap smallStart 1).2 1).2

theorem pairMemory_free : (heapFree smallHeap pairMemory 0x01000000).isSome := by decide

/-- The first block freed again, in front of its neighbour. -/
def pairFreed : Memory := (heapFree smallHeap pairMemory 0x01000000).get pairMemory_free

theorem pairFreed_run :
    Run (TableStep smallHeap) smallStart [.malloc 1, .malloc 1, .free 0x01000000] pairFreed :=
  .step (.malloc (by decide) rfl) (.step (.malloc (by decide) rfl)
    (.step (.free (by decide) (Option.eq_some_of_isSome pairMemory_free)) (.done _)))

/-- One block in front of a block that is taken. -/
theorem heapFree_undoes_iff_pair :
    isFreeBlock pairFreed (smallHeap.table.entries + 1) = false ∧ Undoes smallHeap pairFreed 1 := by
  have here : FreeRun smallHeap pairFreed 1 0 := by decide
  refine ⟨by decide, ((heapFree_undoes_iff smallHeap_created (by decide) (by decide) (by decide)
    (by decide) pairFreed_run).1 1 (by decide) (by decide) ⟨0, here⟩).mpr
    ⟨by decide, fun first free => ?_⟩⟩
  obtain rfl : first = 0 := by
    by_contra later
    exact free.2 0 (by omega) here
  exact ⟨by decide, by decide⟩

/-- Two blocks of the fresh heap: the second entry stays taken. -/
theorem heapFree_undoes_fails :
    heapCreate (fun _ => 0) 0x01000000 0x7E00 16384 4096 = .ok (smallHeap, smallStart) ∧
      Fits smallHeap smallStart 8192 ∧ ¬ Undoes smallHeap smallStart 8192 := by
  have fits : Fits smallHeap smallStart 8192 := ⟨0, by decide⟩
  obtain ⟨first, granted⟩ := granted_of_fits smallHeap_placed (by decide) (by decide) (by decide) fits
  exact ⟨smallHeap_created, fits, granted.not_undoes_chain smallHeap_placed (by decide)⟩

end Small

end KernelPlay.BlockHeap
