/-
**Runs of the allocator: the live allocations.**

`HeapStep` is one call: a `heapMalloc` whose request fits, or a `heapFree` of a live allocation.
`LiveApart` says that no block is in two live allocations and that the entries of all their blocks
are marked taken. `heapFree` goes by the has-next bit of the entry *behind* the one it clears, so a
free of a single block can go on into the next allocation (`live_apart_fails`); it never does in a
run whose frees are all `ClearBehind`, and then `LiveApart` holds throughout
(`live_apart_of_clearBehind`).
-/

import KernelPlay.Heap.Live

namespace KernelPlay.BlockHeap

open KernelPlay.Library

/-- What one call of `heapMalloc` returned, and the size it was asked for. -/
structure Allocation where
  ptr : Nat
  size : Nat
  deriving DecidableEq, Repr

structure HeapState where
  memory : Memory
  live : List Allocation

inductive HeapEvent
  | malloc (size : Nat)
  | free (allocation : Allocation)

/-- One call. `NULL` is no allocation; a pointer can be freed once. -/
inductive HeapStep (heap : Heap) : HeapState → HeapEvent → HeapState → Prop
  | malloc {state : HeapState} {size ptr : Nat} {memory : Memory} :
      size < 4294967296 → Fits heap state.memory size →
      heapMalloc heap state.memory size = (ptr, memory) →
      HeapStep heap state (.malloc size)
        ⟨memory, if ptr = 0 then state.live else ⟨ptr, size⟩ :: state.live⟩
  | free {state : HeapState} {allocation : Allocation} {memory : Memory} :
      allocation ∈ state.live → heapFree heap state.memory allocation.ptr = some memory →
      HeapStep heap state (.free allocation) ⟨memory, state.live.erase allocation⟩

namespace Allocation

/-- The index of the first block. -/
def first (heap : Heap) (allocation : Allocation) : Nat := (allocation.ptr - heap.startAddr) / 4096

/-- The block is one of those the allocation was asked for. An allocation of 0 bytes covers none. -/
def Covers (heap : Heap) (allocation : Allocation) (block : Nat) : Prop :=
  allocation.first heap ≤ block ∧ block < allocation.first heap + blocksOf allocation.size

instance (heap : Heap) (allocation : Allocation) (block : Nat) :
    Decidable (allocation.Covers heap block) := by
  unfold Covers
  infer_instance

/-- No block is in both. -/
def Apart (heap : Heap) (one other : Allocation) : Prop :=
  ∀ block, ¬ (one.Covers heap block ∧ other.Covers heap block)

theorem Apart.symm {heap : Heap} {one other : Allocation} (apart : Apart heap one other) :
    Apart heap other one :=
  fun block both => apart block both.symm

end Allocation

/-- **Live allocations are apart, and their blocks are marked taken.** Of an allocation of 0 bytes, which
covers no block, nothing is said. -/
structure LiveApart (heap : Heap) (state : HeapState) : Prop where
  apart : state.live.Pairwise (Allocation.Apart heap)
  taken : ∀ allocation ∈ state.live, ∀ block, allocation.Covers heap block →
    block < heap.table.size ∧ isFreeBlock state.memory (heap.table.entries + block) = false

/-- The calls that stay clear of what lies behind: a request below `2 ^ 31 - 4095` bytes, and a free
of two or more blocks, or of a block no other live allocation has and behind whose entry there is
no has-next bit. The pointer lies less than `2 ^ 31` bytes above the start of the heap. -/
def ClearBehind (heap : Heap) (state : HeapState) : HeapEvent → Prop
  | .malloc size => size ≤ 2147479552
  | .free allocation =>
    allocation.ptr < heap.startAddr + 2147483648 ∧
    (2 ≤ blocksOf allocation.size ∨
      (∀ other ∈ state.live.erase allocation, ¬ other.Covers heap (allocation.first heap)) ∧
      heapTableEntryHasNext state.memory
        (heap.table.entries + allocation.first heap + 1) = false)

/-! ### The invariant -/

/-- The table describes the allocation: its chain of entries, from its first block on. -/
def Chained (heap : Heap) (memory : Memory) (allocation : Allocation) : Prop :=
  ∃ first, allocation.ptr = heap.startAddr + 4096 * first ∧ first < heap.table.size ∧
    first + blocksOf allocation.size ≤ heap.table.size ∧
    ∀ index, index < blocksOf allocation.size →
      memory (heap.table.entries + (first + index)) = chainEntry (blocksOf allocation.size) index

structure Described (heap : Heap) (state : HeapState) : Prop where
  apart : state.live.Pairwise (Allocation.Apart heap)
  chained : ∀ allocation ∈ state.live, Chained heap state.memory allocation

section Invariant

variable {heap : Heap} {memory memory' : Memory} {allocation : Allocation}

theorem first_of_ptr {first : Nat} (pointer : allocation.ptr = heap.startAddr + 4096 * first) :
    allocation.first heap = first := by
  rw [Allocation.first, pointer]
  omega

/-- A described allocation keeps its chain when its entries keep their values. -/
theorem Chained.transport (chained : Chained heap memory allocation)
    (same : ∀ block, allocation.Covers heap block →
      memory' (heap.table.entries + block) = memory (heap.table.entries + block)) :
    Chained heap memory' allocation := by
  obtain ⟨first, pointer, inside, room, entries⟩ := chained
  refine ⟨first, pointer, inside, room, fun index below => ?_⟩
  rw [same (first + index) (by rw [Allocation.Covers, first_of_ptr pointer]; omega)]
  exact entries index below

theorem Chained.taken (chained : Chained heap memory allocation) {block : Nat}
    (covered : allocation.Covers heap block) :
    block < heap.table.size ∧ isFreeBlock memory (heap.table.entries + block) = false := by
  obtain ⟨first, pointer, inside, room, entries⟩ := chained
  rw [Allocation.Covers, first_of_ptr pointer] at covered
  refine ⟨by omega, ?_⟩
  have entry := entries (block - first) (by omega)
  rw [show first + (block - first) = block by omega] at entry
  exact isFreeBlock_chainEntry entry

theorem Described.liveApart {state : HeapState} (described : Described heap state) :
    LiveApart heap state :=
  ⟨described.apart, fun allocation member _ covered =>
    (described.chained allocation member).taken covered⟩

/-- **A fitting `heapMalloc` keeps the description** and adds the new allocation to it. -/
theorem Described.malloc (placed : Placed heap) {state : HeapState}
    (described : Described heap state) {size ptr : Nat} (bounded : size ≤ 2147479552)
    (fits : Fits heap state.memory size)
    (call : heapMalloc heap state.memory size = (ptr, memory')) :
    Described heap ⟨memory', if ptr = 0 then state.live else ⟨ptr, size⟩ :: state.live⟩ := by
  rcases heapMalloc_fits placed bounded fits with refused | ⟨first, inside, run, granted⟩
  · rw [call, Prod.mk.injEq] at refused
    obtain ⟨rfl, rfl⟩ := refused
    exact described
  rw [call, Prod.mk.injEq] at granted
  obtain ⟨pointer, written⟩ := granted
  have top := placed.table
  have room := run.1
  have value := heapMarkTableEntriesTaken_apply state.memory
    (show heap.table.entries + first + blocksOf size < 4294967296 by omega)
  rw [← written] at value
  have fresh : ∀ other ∈ state.live, ∀ block, other.Covers heap block →
      block < first ∨ first + blocksOf size ≤ block := by
    intro other member block covered
    by_contra inside_run
    have free := run.2 (block - first) (by omega)
    rw [show heap.table.entries + first + (block - first) = heap.table.entries + block by omega,
      ((described.chained other member).taken covered).2] at free
    cases free
  have kept : ∀ other ∈ state.live, Chained heap memory' other := by
    intro other member
    refine (described.chained other member).transport fun block covered => ?_
    have outside := fresh other member block covered
    rw [value, if_neg (by omega)]
  by_cases null : ptr = 0
  · rw [if_pos null]
    exact ⟨described.apart, kept⟩
  rw [if_neg null]
  refine ⟨List.pairwise_cons.mpr ⟨fun other member block both => ?_, described.apart⟩,
    fun other member => ?_⟩
  · have outside := fresh other member block both.2
    have covered := both.1
    rw [Allocation.Covers, first_of_ptr pointer] at covered
    dsimp only at covered
    omega
  · rcases List.mem_cons.mp member with rfl | member
    · refine ⟨first, pointer, inside, room, fun index below => ?_⟩
      dsimp only at below ⊢
      rw [value, if_pos (by omega)]
      congr 1
      omega
    · exact kept other member

/-- The entries a clear free leaves alone: those of every other live allocation. -/
theorem heapFree_frame (placed : Placed heap) {state : HeapState}
    (described : Described heap state) (member : allocation ∈ state.live)
    (clear : ClearBehind heap state (.free allocation))
    (call : heapFree heap state.memory allocation.ptr = some memory') :
    ∀ other ∈ state.live.erase allocation, ∀ block, block < heap.table.size →
      other.Covers heap block →
      memory' (heap.table.entries + block) = state.memory (heap.table.entries + block) := by
  obtain ⟨near, behind⟩ := clear
  obtain ⟨first, pointer, inside, room, entries⟩ := described.chained allocation member
  have top := placed.table
  have blocks := placed.blocks
  have separate := placed.apart
  rw [pointer, heapFree_eq placed state.memory inside (by omega)] at call
  have others : ∀ other ∈ state.live.erase allocation, Allocation.Apart heap allocation other := by
    have sorted := ((List.perm_cons_erase member).pairwise_iff
      (fun {_ _} apart => Allocation.Apart.symm apart)).mp described.apart
    exact (List.pairwise_cons.mp sorted).1
  -- `count + 1` entries are cleared: the whole chain but its last entry, or the single one.
  have finish : ∀ count, first + (count + 1) ≤ heap.table.size →
      (∀ index, 0 < index → index < count + 1 →
        heapTableEntryHasNext state.memory (heap.table.entries + first + index) = true) →
      heapTableEntryHasNext state.memory (heap.table.entries + first + (count + 1)) = false →
      (∀ other ∈ state.live.erase allocation, ∀ block, other.Covers heap block →
        block < first ∨ first + (count + 1) ≤ block) →
      ∀ other ∈ state.live.erase allocation, ∀ block, block < heap.table.size →
        other.Covers heap block →
        memory' (heap.table.entries + block) = state.memory (heap.table.entries + block) := by
    intro count below chain stop outside other member block in_table covered
    rw [heapFreeLoop_clears count heapFreeTurns state.memory _ _
      (by unfold heapFreeTurns; omega) (by omega) (by omega) (by omega) chain stop,
      Option.some.injEq] at call
    have away := outside other member block covered
    rw [← call, cleared, if_neg (by omega)]
  rcases behind with many | ⟨alone, single⟩
  · refine finish (blocksOf allocation.size - 2) (by omega) (fun index low high => ?_) ?_
      fun other member block covered => ?_
    · rw [heapTableEntryHasNext, Nat.add_assoc, entries index (by omega), decide_eq_true_eq,
        chainEntry_hasNext]
      omega
    · rw [heapTableEntryHasNext, Nat.add_assoc, entries _ (by omega), decide_eq_false_iff_not,
        chainEntry_hasNext]
      omega
    · have apart := others other member block
      rw [Allocation.Covers, first_of_ptr pointer] at apart
      by_contra inside_run
      exact apart ⟨by omega, covered⟩
  · rw [first_of_ptr pointer] at alone single
    refine finish 0 (by omega) (fun index low high => by omega) single
      fun other member block covered => ?_
    have away : block ≠ first := fun same => alone other member (same ▸ covered)
    omega

/-- **A clear `heapFree` keeps the description** of every other live allocation. -/
theorem Described.free (placed : Placed heap) {state : HeapState} (described : Described heap state)
    (member : allocation ∈ state.live) (clear : ClearBehind heap state (.free allocation))
    (call : heapFree heap state.memory allocation.ptr = some memory') :
    Described heap ⟨memory', state.live.erase allocation⟩ := by
  refine ⟨described.apart.sublist List.erase_sublist, fun other inside => ?_⟩
  have chained := described.chained other (List.mem_of_mem_erase inside)
  exact chained.transport fun block covered =>
    heapFree_frame placed described member clear call other inside block (chained.taken covered).1
      covered

theorem Described.step (placed : Placed heap) {state state' : HeapState} {event : HeapEvent}
    (described : Described heap state)
    (step : Guarded (ClearBehind heap) (HeapStep heap) state event state') :
    Described heap state' := by
  obtain ⟨clear, step⟩ := step
  cases step with
  | malloc _ fits call => exact described.malloc placed clear fits call
  | free member call => exact described.free placed member clear call

/-- **A free that is not clear reaches the allocation behind**: a single block in front of a live
chain of two or more takes the first block of that chain with it. -/
theorem Described.free_reaches_behind (placed : Placed heap) {state : HeapState}
    (described : Described heap state) (member : allocation ∈ state.live)
    (near : allocation.ptr < heap.startAddr + 2147483648)
    {other : Allocation} (inside : other ∈ state.live)
    (behind : other.first heap = allocation.first heap + 1) (many : 2 ≤ blocksOf other.size)
    (call : heapFree heap state.memory allocation.ptr = some memory') :
    ¬ LiveApart heap ⟨memory', state.live.erase allocation⟩ := by
  intro live
  obtain ⟨first, pointer, in_table, _, _⟩ := described.chained allocation member
  obtain ⟨next, next_pointer, _, next_room, next_entries⟩ := described.chained other inside
  rw [first_of_ptr pointer, first_of_ptr next_pointer] at behind
  subst behind
  have top := placed.table
  have blocks := placed.blocks
  have separate := placed.apart
  have different : other ≠ allocation := by
    rintro rfl
    omega
  have bit := next_entries 0 (by omega)
  rw [pointer, heapFree_eq placed state.memory in_table (by omega), heapFreeTurns,
    heapFreeLoop_succ 4294967295 state.memory _ _ (by omega) (by omega)] at call
  have on : heapTableEntryHasNext (cleared state.memory (heap.table.entries + first)
      (heap.startAddr + 4096 * first) 1) (heap.table.entries + first + 1) = true := by
    rw [heapTableEntryHasNext, cleared, if_neg (by omega), Nat.add_assoc, ← Nat.add_zero (first + 1),
      bit, decide_eq_true_eq, chainEntry_hasNext]
    omega
  rw [if_pos on] at call
  have zero := heapFreeLoop_clears_first call (by omega) (by omega)
  have taken : isFreeBlock memory' (heap.table.entries + (first + 1)) = false :=
    (live.taken other ((List.mem_erase_of_ne different).mpr inside) (first + 1)
      (by rw [Allocation.Covers, first_of_ptr next_pointer]; omega)).2
  rw [isFreeBlock, ← Nat.add_assoc, zero] at taken
  cases taken

end Invariant

/-! ### Runs from `heapCreate` -/

/-- What `heapCreate` sets up. -/
theorem heapCreate_ok {memory memory' : Memory} {heapStart tableStart heapSize blockSize : Nat} {heap : Heap}
    (created : heapCreate memory heapStart tableStart heapSize blockSize = .ok (heap, memory')) :
    heap = ⟨⟨tableStart, heapSize / blockSize⟩, heapStart⟩ ∧
      memory' = memset memory tableStart heapBlockTableEntryFree (heapSize / blockSize) := by
  unfold heapCreate at created
  dsimp only at created
  split at created
  · cases created
  · cases created
    exact ⟨rfl, rfl⟩

theorem placed_of_heapCreate {memory memory' : Memory} {heapStart tableStart heapSize : Nat}
    {heap : Heap} (created : heapCreate memory heapStart tableStart heapSize 4096 = .ok (heap, memory'))
    (table : tableStart + heapSize / 4096 < 4294967296) (blocks : heapStart + heapSize < 4294967296)
    (apart : tableStart + heapSize / 4096 ≤ heapStart ∨ heapStart + heapSize ≤ tableStart) :
    Placed heap := by
  obtain ⟨rfl, -⟩ := heapCreate_ok created
  exact ⟨table, by dsimp only; omega, by dsimp only; omega⟩

/-- **Live allocations stay apart and taken** in every run whose calls are all `ClearBehind`, on a
heap that `heapCreate` set up with blocks of 4096 bytes. -/
theorem live_apart_of_clearBehind {memory memory' : Memory} {heapStart tableStart heapSize : Nat}
    {heap : Heap} (created : heapCreate memory heapStart tableStart heapSize 4096 = .ok (heap, memory'))
    (table : tableStart + heapSize / 4096 < 4294967296) (blocks : heapStart + heapSize < 4294967296)
    (apart : tableStart + heapSize / 4096 ≤ heapStart ∨ heapStart + heapSize ≤ tableStart)
    {events : List HeapEvent} {state : HeapState}
    (run : Run (Guarded (ClearBehind heap) (HeapStep heap)) ⟨memory', []⟩ events state) :
    LiveApart heap state := by
  have placed := placed_of_heapCreate created table blocks apart
  have described : Described heap state := run.preserves
    (fun _ _ _ described step => Described.step placed described step)
    ⟨List.Pairwise.nil, fun _ member => by cases member⟩
  exact described.liveApart

/-! ### A heap of four blocks -/

/-- Four blocks, at the addresses of `config.h`. -/
def smallHeap : Heap := ⟨⟨0x7E00, 4⟩, 0x01000000⟩

def smallStart : Memory := memset (fun _ => 0) 0x7E00 heapBlockTableEntryFree 4

/-- One block, then two blocks behind it. -/
def smallMemory : Memory := (heapMalloc smallHeap (heapMalloc smallHeap smallStart 1).2 8192).2

theorem smallMemory_free (ptr : Nat) (member : ptr ∈ [0x01000000, 0x01001000]) :
    (heapFree smallHeap smallMemory ptr).isSome := by
  revert ptr
  decide

theorem smallMemory_first :
    HeapStep smallHeap ⟨smallStart, []⟩ (.malloc 1)
      ⟨(heapMalloc smallHeap smallStart 1).2, [⟨0x01000000, 1⟩]⟩ :=
  .malloc (by decide) ⟨0, by decide⟩ (Prod.ext (by decide) rfl)

theorem smallMemory_second :
    HeapStep smallHeap ⟨(heapMalloc smallHeap smallStart 1).2, [⟨0x01000000, 1⟩]⟩ (.malloc 8192)
      ⟨smallMemory, [⟨0x01001000, 8192⟩, ⟨0x01000000, 1⟩]⟩ :=
  .malloc (by decide) ⟨1, by decide⟩ (Prod.ext (by decide) rfl)

theorem smallHeap_created :
    heapCreate (fun _ => 0) 0x01000000 0x7E00 16384 4096 = .ok (smallHeap, smallStart) := rfl

/-- The memory after a free. -/
def smallFreed (ptr : Nat) (member : ptr ∈ [0x01000000, 0x01001000]) : Memory :=
  (heapFree smallHeap smallMemory ptr).get (smallMemory_free ptr member)

theorem smallMemory_third {ptr size : Nat} (member : ptr ∈ [0x01000000, 0x01001000])
    (live : ⟨ptr, size⟩ ∈ [(⟨0x01001000, 8192⟩ : Allocation), ⟨0x01000000, 1⟩]) :
    HeapStep smallHeap ⟨smallMemory, [⟨0x01001000, 8192⟩, ⟨0x01000000, 1⟩]⟩ (.free ⟨ptr, size⟩)
      ⟨smallFreed ptr member,
        [(⟨0x01001000, 8192⟩ : Allocation), ⟨0x01000000, 1⟩].erase ⟨ptr, size⟩⟩ :=
  .free live (Option.eq_some_of_isSome (smallMemory_free ptr member))

theorem small_clear (state : HeapState) :
    ∀ event ∈ [HeapEvent.malloc 1, .malloc 8192, .free ⟨0x01001000, 8192⟩],
      ClearBehind smallHeap state event := by
  simp only [List.forall_mem_cons, List.not_mem_nil, false_implies, implies_true, and_true]
  exact ⟨show 1 ≤ 2147479552 by decide, show 8192 ≤ 2147479552 by decide, by decide,
    Or.inl (by decide)⟩

/-- Freeing the two blocks leaves the single one in place. -/
theorem live_apart_of_clearBehind_small :
    LiveApart smallHeap ⟨smallFreed 0x01001000 (by decide), [⟨0x01000000, 1⟩]⟩ :=
  live_apart_of_clearBehind smallHeap_created (by decide) (by decide) (by decide)
    (.step ⟨small_clear _ _ (.head _), smallMemory_first⟩
      (.step ⟨small_clear _ _ (.tail _ (.head _)), smallMemory_second⟩
        (.step ⟨small_clear _ _ (.tail _ (.tail _ (.head _))),
          smallMemory_third (by decide) (by decide)⟩ (.done _))))

/-- **Freeing the single block frees the first block of the two behind it**: the entry behind the
freed one has the has-next bit, and `heapFree` goes on to it. -/
theorem live_apart_fails :
    heapCreate (fun _ => 0) 0x01000000 0x7E00 16384 4096 = .ok (smallHeap, smallStart) ∧
    ∃ state, Run (HeapStep smallHeap) ⟨smallStart, []⟩
        [.malloc 1, .malloc 8192, .free ⟨0x01000000, 1⟩] state ∧ ¬ LiveApart smallHeap state := by
  refine ⟨smallHeap_created, _, .step smallMemory_first (.step smallMemory_second
    (.step (smallMemory_third (by decide) (by decide)) (.done _))), fun live => ?_⟩
  have taken := (live.taken ⟨0x01001000, 8192⟩ (by decide) 1 (by decide)).2
  have cleared : isFreeBlock (smallFreed 0x01000000 (by decide)) (smallHeap.table.entries + 1) =
      true := by decide
  rw [cleared] at taken
  cases taken

end KernelPlay.BlockHeap
