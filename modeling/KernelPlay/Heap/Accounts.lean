/-
**The accounts of the heap.**

`takenBlocks` counts the entries of the table that are taken. A free of an allocation of two or more blocks
leaves the entry of its last block taken (`freedBlocks`), and nothing ever clears it. `kheap_accounts` — in
every run from a fresh heap whose requests are answered and whose frees are clear, the taken blocks are those of
the live allocations and one more for each such free; so there are at most as many such frees, in a run of any
length, as the table has entries.
-/

import KernelPlay.Heap.Kheap
import KernelPlay.Heap.Undo
import Mathlib.Data.Finset.Card
import Mathlib.Order.Interval.Finset.Nat

namespace KernelPlay.BlockHeap

open KernelPlay.Library

/-- The blocks of the live allocations. -/
def liveBlocks (live : List Allocation) : Nat := (live.map fun allocation => blocksOf allocation.size).sum

/-- The blocks that a free leaves taken. -/
def KheapEvent.leaks : KheapEvent → Nat
  | .free allocation => blocksOf allocation.size - freedBlocks allocation.size
  | _ => 0

/-- All the blocks that frees have left taken. -/
def leaked (events : List KheapEvent) : Nat := (events.map KheapEvent.leaks).sum

theorem leaks_free (allocation : Allocation) :
    (KheapEvent.free allocation).leaks = if 2 ≤ blocksOf allocation.size then 1 else 0 := by
  rw [KheapEvent.leaks, freedBlocks]
  split_ifs <;> omega

/-- The blocks whose entry is taken. -/
def takenBlocks (heap : Heap) (memory : Memory) : Finset Nat :=
  (Finset.range heap.table.size).filter fun block => isFreeBlock memory (heap.table.entries + block) = false

section Taken

variable {heap : Heap} {memory memory' : Memory} {allocation : Allocation} {live : List Allocation}

@[simp] theorem mem_takenBlocks {block : Nat} : block ∈ takenBlocks heap memory ↔
    block < heap.table.size ∧ isFreeBlock memory (heap.table.entries + block) = false := by
  simp [takenBlocks]

theorem takenBlocks_card_le : (takenBlocks heap memory).card ≤ heap.table.size :=
  (Finset.card_filter_le _ _).trans_eq (Finset.card_range _)

theorem takenBlocks_congr (same : ∀ block, block < heap.table.size →
    memory' (heap.table.entries + block) = memory (heap.table.entries + block)) :
    takenBlocks heap memory' = takenBlocks heap memory := by
  ext block
  simp only [mem_takenBlocks]
  exact and_congr_right fun inside => by rw [isFreeBlock_congr (same block inside)]

/-- A fresh table holds nothing. -/
theorem takenBlocks_fresh {heapStart tableStart heapSize : Nat}
    (created : heapCreate memory heapStart tableStart heapSize 4096 = .ok (heap, memory'))
    (table : tableStart + heapSize / 4096 < 4294967296) : takenBlocks heap memory' = ∅ := by
  obtain ⟨rfl, rfl⟩ := heapCreate_ok created
  ext block
  simp only [mem_takenBlocks, Finset.notMem_empty, iff_false, not_and]
  intro inside
  rw [isFreeBlock, memset_apply memory _ table.le, if_pos (by omega)]
  decide

/-- The bytes of an allocation are no entries. -/
theorem takenBlocks_overwrite (placed : Placed heap) (chained : Chained heap memory allocation)
    (outside : ∀ address, (address < allocation.ptr ∨ allocation.ptr + allocation.size ≤ address) →
      memory' address = memory address) : takenBlocks heap memory' = takenBlocks heap memory := by
  refine takenBlocks_congr fun block inside => outside _ ?_
  by_contra within
  rw [not_or, not_lt, not_le] at within
  have := chained.bytes_not_entry placed within.1 within.2
  omega

/-- **A request takes its blocks**, or none. -/
theorem takenBlocks_malloc (placed : Placed heap) (start : 0 < heap.startAddr) {size ptr : Nat}
    (answered : Answered heap memory size) (call : heapMalloc heap memory size = (ptr, memory')) :
    (takenBlocks heap memory').card + liveBlocks live =
      (takenBlocks heap memory).card + liveBlocks (granted live size ptr) := by
  have top := placed.table
  rcases heapMalloc_answered placed answered with refused | ⟨first, inside, run, met⟩
  · rw [call, Prod.mk.injEq] at refused
    simp [granted, refused]
  rw [call, Prod.mk.injEq] at met
  obtain ⟨rfl, rfl⟩ := met
  have room := run.1
  have marked : takenBlocks heap (heapMarkTableEntriesTaken memory (heap.table.entries + first) (blocksOf size)) =
      takenBlocks heap memory ∪ Finset.Ico first (first + blocksOf size) := by
    ext block
    simp only [Finset.mem_union, mem_takenBlocks, Finset.mem_Ico]
    have entry := @heapMarkTableEntriesTaken_apply memory (heap.table.entries + first) (blocksOf size) (by omega)
      (heap.table.entries + block)
    by_cases mine : first ≤ block ∧ block < first + blocksOf size
    · rw [if_pos (by omega)] at entry
      have inside : block < heap.table.size := by omega
      simp [isFreeBlock_chainEntry entry, mine, inside]
    · rw [if_neg (by omega)] at entry
      simp only [isFreeBlock_congr entry, mine, or_false]
  have apart : Disjoint (takenBlocks heap memory) (Finset.Ico first (first + blocksOf size)) := by
    rw [Finset.disjoint_left]
    intro block taken mine
    rw [Finset.mem_Ico] at mine
    have free := run.2 (block - first) (by omega)
    rw [Nat.add_assoc, Nat.add_sub_cancel' mine.1, (mem_takenBlocks.mp taken).2] at free
    cases free
  rw [marked, Finset.card_union_of_disjoint apart, Nat.card_Ico, granted, if_neg (by omega)]
  simp only [liveBlocks, List.map_cons, List.sum_cons]
  omega

/-- **A free gives back the blocks it clears.** -/
theorem takenBlocks_free (placed : Placed heap) {state : HeapState} (described : Described heap state)
    (member : allocation ∈ state.live) (clear : ClearBehind heap state (.free allocation))
    (positive : 1 ≤ allocation.size) (call : heapFree heap state.memory allocation.ptr = some memory') :
    (takenBlocks heap memory').card + freedBlocks allocation.size = (takenBlocks heap state.memory).card := by
  have chained := described.chained allocation member
  have zeroed := heapFree_cleared placed described member clear positive call
  obtain ⟨first, pointer, inside, room, entries⟩ := chained
  have fewer := freedBlocks_le allocation.size
  have apart := placed.apart
  rw [first_of_ptr pointer, pointer] at zeroed
  have cleared_entries : takenBlocks heap memory' =
      takenBlocks heap state.memory \ Finset.Ico first (first + freedBlocks allocation.size) := by
    ext block
    simp only [Finset.mem_sdiff, mem_takenBlocks, Finset.mem_Ico]
    by_cases within : block < heap.table.size
    · by_cases mine : first ≤ block ∧ block < first + freedBlocks allocation.size
      · have free : isFreeBlock memory' (heap.table.entries + block) = true := by
          rw [isFreeBlock, zeroed, cleared, if_pos (.inl (by omega))]
          decide
        simp [free, mine]
      · have same : memory' (heap.table.entries + block) = state.memory (heap.table.entries + block) := by
          rw [zeroed, cleared, if_neg (by omega)]
        rw [isFreeBlock_congr same]
        simp [mine]
    · simp [within]
  have covered : Finset.Ico first (first + freedBlocks allocation.size) ⊆ takenBlocks heap state.memory := by
    intro block mine
    rw [Finset.mem_Ico] at mine
    have entry := entries (block - first) (by omega)
    rw [Nat.add_sub_cancel' mine.1] at entry
    exact mem_takenBlocks.mpr ⟨by omega, isFreeBlock_chainEntry entry⟩
  rw [cleared_entries, Finset.card_sdiff_of_subset covered, Nat.card_Ico]
  have bounded := Finset.card_le_card covered
  rw [Nat.card_Ico] at bounded
  omega

end Taken

/-! ### The accounts of a run -/

section Run

variable {heap : Heap} {state state' : HeapState} {event : KheapEvent} {events : List KheapEvent}
  {records : Records}

/-- **One event.** -/
theorem accounts_step (placed : Placed heap) (start : 0 < heap.startAddr) (holds : Holds heap state records)
    (step : Guarded (KheapClear heap) (KheapStep heap) state event state') :
    (takenBlocks heap state'.memory).card + liveBlocks state.live =
      (takenBlocks heap state.memory).card + liveBlocks state'.live + event.leaks := by
  obtain ⟨clear, step⟩ := step
  cases step with
  | malloc call => exact takenBlocks_malloc placed start clear call
  | @zalloc size ptr memory' call =>
    obtain ⟨mallocPtr, mallocMemory, mallocs⟩ :
      ∃ ptr memory', heapMalloc heap state.memory size = (ptr, memory') := ⟨_, _, rfl⟩
    have taken := @takenBlocks_malloc heap state.memory mallocMemory state.live placed start size mallocPtr clear
      mallocs
    have held := (holds.malloc placed start clear mallocs).2.described
    rw [kheapZalloc, kheapMalloc, mallocs] at call
    by_cases null : mallocPtr = 0
    · simp only [null, ne_eq, not_true, if_false, Prod.mk.injEq] at call
      obtain ⟨rfl, rfl⟩ := call
      subst null
      exact taken
    simp only [ne_eq, null, not_false_iff, if_true, Prod.mk.injEq] at call
    obtain ⟨rfl, rfl⟩ := call
    rw [granted, if_neg null] at held
    have chained := held.chained ⟨mallocPtr, size⟩ List.mem_cons_self
    have filled : takenBlocks heap (memset mallocMemory mallocPtr 0 size) = takenBlocks heap mallocMemory :=
      takenBlocks_overwrite placed chained fun address away => by
        have away : address < mallocPtr ∨ mallocPtr + size ≤ address := away
        rw [memset_apply mallocMemory 0 (chained.top placed).le, if_neg (by omega)]
    simpa only [filled, KheapEvent.leaks, Nat.add_zero] using taken
  | @free allocation memory' member call =>
    have given := takenBlocks_free placed holds.described member clear (holds.positive _ member) call
    have fewer := freedBlocks_le allocation.size
    have left : liveBlocks state.live = blocksOf allocation.size + liveBlocks (state.live.erase allocation) :=
      List.Perm.sum_eq ((List.perm_cons_erase member).map _)
    simp only [KheapEvent.leaks, left]
    omega
  | @write allocation offset value member inside =>
    have kept := @takenBlocks_overwrite heap state.memory (store state.memory (allocation.ptr + offset) value)
      allocation placed (holds.described.chained _ member) fun address away => store_other _ (by omega) _
    simp only [kept, KheapEvent.leaks, Nat.add_zero]
  | read => rfl

/-- The whole run. -/
theorem accounts_run (placed : Placed heap) (start : 0 < heap.startAddr)
    (run : Run (Guarded (KheapClear heap) (KheapStep heap)) state events state') :
    ∀ {records : Records}, Holds heap state records →
      (takenBlocks heap state'.memory).card + liveBlocks state.live =
        (takenBlocks heap state.memory).card + liveBlocks state'.live + leaked events := by
  induction run with
  | done state => exact fun _ => rfl
  | step one _ ih =>
    intro records holds
    obtain ⟨_, holds'⟩ := holds.exists_step placed start one
    have first := accounts_step placed start holds one
    have rest := ih holds'
    simp only [leaked, List.map_cons, List.sum_cons] at rest ⊢
    omega

/-- **The accounts of the heap**: in every run from a fresh heap whose requests are answered within the table
and whose frees are clear, the blocks taken in the table are those of the live allocations and one for each free
of an allocation of two or more blocks. So a run of any length frees at most as many of these as the table has
entries. -/
theorem kheap_accounts {memory memory' : Memory} {heapStart tableStart heapSize : Nat}
    (created : heapCreate memory heapStart tableStart heapSize 4096 = .ok (heap, memory'))
    (table : tableStart + heapSize / 4096 < 4294967296) (blocks : heapStart + heapSize < 4294967296)
    (apart : tableStart + heapSize / 4096 ≤ heapStart ∨ heapStart + heapSize ≤ tableStart)
    (start : 0 < heapStart) (run : Run (Guarded (KheapClear heap) (KheapStep heap)) ⟨memory', []⟩ events state) :
    (takenBlocks heap state.memory).card = liveBlocks state.live + leaked events ∧
      liveBlocks state.live + leaked events ≤ heapSize / 4096 := by
  have placed := placed_of_heapCreate created table blocks apart
  have fresh := takenBlocks_fresh created table
  obtain ⟨created_eq, -⟩ := heapCreate_ok created
  have positive : 0 < heap.startAddr := by
    rw [created_eq]
    exact start
  have size : heap.table.size = heapSize / 4096 := by
    rw [created_eq]
  have account := accounts_run placed positive run (holds_empty memory')
  rw [fresh, Finset.card_empty, Nat.zero_add] at account
  have bounded := @takenBlocks_card_le heap state.memory
  exact ⟨account, by rw [← size]; exact account ▸ bounded⟩

end Run

/-- Two blocks, and their free: nothing is live and one block is taken. -/
theorem kheap_accounts_two : ∃ state : HeapState, state.live = [] ∧ (takenBlocks smallHeap state.memory).card = 1 := by
  have answered : Answered smallHeap smallStart 8192 := ⟨by decide, by decide, .inl ⟨0, by decide⟩⟩
  have freed : (heapFree smallHeap (heapMalloc smallHeap smallStart 8192).2 0x01000000).isSome := by
    decide
  have mallocs : Guarded (KheapClear smallHeap) (KheapStep smallHeap) ⟨smallStart, []⟩
      (.malloc 8192 0x01000000) ⟨(heapMalloc smallHeap smallStart 8192).2, [⟨0x01000000, 8192⟩]⟩ :=
    ⟨answered, .malloc (Prod.ext (by decide) rfl)⟩
  have frees : Guarded (KheapClear smallHeap) (KheapStep smallHeap)
      ⟨(heapMalloc smallHeap smallStart 8192).2, [⟨0x01000000, 8192⟩]⟩ (.free ⟨0x01000000, 8192⟩)
      ⟨Option.get _ freed, []⟩ :=
    ⟨⟨by decide, .inl (by decide)⟩, .free (List.mem_singleton_self _) (Option.some_get freed).symm⟩
  exact ⟨_, rfl, (kheap_accounts smallHeap_created (by decide) (by decide) (by decide) (by decide)
    (.step mallocs (.step frees (.done _)))).1⟩

end KernelPlay.BlockHeap
