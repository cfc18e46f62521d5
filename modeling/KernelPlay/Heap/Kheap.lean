/-
**The kernel's heap as a store of records: `memory/heap/kheap.c`.**

`KheapStep` is a run of the kernel on its heap: `kheap_malloc`, `kheap_zalloc`, `kheap_free`, and the reads and
writes of the owner of an allocation. `RecordStep` is the same on a store whose records are byte strings of
their own, under an allocator that hands out any fresh pointer.

`kheap_refines_records` — every run of the heap whose requests are met or refused within the table and whose
frees are `ClearBehind` is, label for label, a run of the store: the same pointers, the same bytes read.
-/

import KernelPlay.Heap.Bounds
import KernelPlay.Library.Store
import KernelPlay.Library.Window

namespace KernelPlay.BlockHeap

open KernelPlay.Library

/-! ### The code -/

def kernelHeapAddress : Nat := 0x01000000

def kernelHeapTableAddress : Nat := 0x00007E00

def kheapInit (memory : Memory) : Except Int (Heap × Memory) :=
  heapCreate memory kernelHeapAddress kernelHeapTableAddress kernelHeapSizeInBytes 4096

def kheapMalloc (heap : Heap) (memory : Memory) (size : Nat) : Nat × Memory := heapMalloc heap memory size

def kheapZalloc (heap : Heap) (memory : Memory) (size : Nat) : Nat × Memory :=
  let (ptr, memory) := kheapMalloc heap memory size
  if ptr ≠ 0 then (ptr, memset memory ptr 0 size) else (ptr, memory)

def kheapFree (heap : Heap) (memory : Memory) (ptr : Nat) : Option Memory := heapFree heap memory ptr

/-- The heap of the kernel: 25600 blocks of 4096 bytes. -/
def kernelHeap : Heap := ⟨⟨kernelHeapTableAddress, 25600⟩, kernelHeapAddress⟩

theorem kheapInit_ok (memory : Memory) : kheapInit memory =
    .ok (kernelHeap, memset memory kernelHeapTableAddress heapBlockTableEntryFree 25600) := rfl

theorem kernelHeap_placed : Placed kernelHeap := ⟨by decide, by decide, by decide⟩

/-! ### Runs of the kernel on its heap -/

/-- What happens to the heap: a request and its answer, a free, a byte written or read by the owner of an
allocation. -/
inductive KheapEvent
  | malloc (size ptr : Nat)
  | zalloc (size ptr : Nat)
  | free (allocation : Allocation)
  | write (allocation : Allocation) (offset : Nat) (value : UInt8)
  | read (allocation : Allocation) (offset : Nat) (value : UInt8)

/-- The live allocations behind a request. -/
def granted (live : List Allocation) (size ptr : Nat) : List Allocation :=
  if ptr = 0 then live else ⟨ptr, size⟩ :: live

inductive KheapStep (heap : Heap) : HeapState → KheapEvent → HeapState → Prop
  | malloc {state : HeapState} {size ptr : Nat} {memory : Memory} :
      kheapMalloc heap state.memory size = (ptr, memory) →
      KheapStep heap state (.malloc size ptr) ⟨memory, granted state.live size ptr⟩
  | zalloc {state : HeapState} {size ptr : Nat} {memory : Memory} :
      kheapZalloc heap state.memory size = (ptr, memory) →
      KheapStep heap state (.zalloc size ptr) ⟨memory, granted state.live size ptr⟩
  | free {state : HeapState} {allocation : Allocation} {memory : Memory} :
      allocation ∈ state.live → kheapFree heap state.memory allocation.ptr = some memory →
      KheapStep heap state (.free allocation) ⟨memory, state.live.erase allocation⟩
  | write {state : HeapState} {allocation : Allocation} {offset : Nat} {value : UInt8} :
      allocation ∈ state.live → offset < allocation.size →
      KheapStep heap state (.write allocation offset value)
        ⟨store state.memory (allocation.ptr + offset) value, state.live⟩
  | read {state : HeapState} {allocation : Allocation} {offset : Nat} :
      allocation ∈ state.live → offset < allocation.size →
      KheapStep heap state (.read allocation offset (state.memory (allocation.ptr + offset))) state

/-- A request is for at least one byte, and is met or refused within the table. -/
def Answered (heap : Heap) (memory : Memory) (size : Nat) : Prop :=
  1 ≤ size ∧ size ≤ 2147479552 ∧ (Fits heap memory size ∨ Blocked heap memory (blocksOf size))

/-- The events that keep to their own blocks. -/
def KheapClear (heap : Heap) (state : HeapState) : KheapEvent → Prop
  | .malloc size _ => Answered heap state.memory size
  | .zalloc size _ => Answered heap state.memory size
  | .free allocation => ClearBehind heap state (.free allocation)
  | _ => True

/-! ### The store of records -/

abbrev Records := Store (List UInt8)

/-- The same events on records of their own. A record that is not zeroed holds any bytes. -/
inductive RecordStep (allocator : Allocator) : Records → KheapEvent → Records → Prop
  | malloc {records records' : Records} {size ptr : Nat} {bytes : List UInt8} : bytes.length = size →
      records.zalloc allocator size bytes = (ptr, records') →
      RecordStep allocator records (.malloc size ptr) records'
  | zalloc {records records' : Records} {size ptr : Nat} :
      records.zalloc allocator size (List.replicate size 0) = (ptr, records') →
      RecordStep allocator records (.zalloc size ptr) records'
  | free {records : Records} {allocation : Allocation} {bytes : List UInt8} :
      records.lookup allocation.ptr = some bytes → bytes.length = allocation.size →
      RecordStep allocator records (.free allocation) (records.erase allocation.ptr)
  | write {records : Records} {allocation : Allocation} {bytes : List UInt8} {offset : Nat} {value : UInt8} :
      records.lookup allocation.ptr = some bytes → offset < bytes.length →
      RecordStep allocator records (.write allocation offset value)
        (records.put allocation.ptr (bytes.set offset value))
  | read {records : Records} {allocation : Allocation} {bytes : List UInt8} {offset : Nat} {value : UInt8} :
      records.lookup allocation.ptr = some bytes → bytes[offset]? = some value →
      RecordStep allocator records (.read allocation offset value) records

/-! ### The bytes of an allocation -/

section Bytes

variable {heap : Heap} {memory memory' : Memory} {allocation other : Allocation} {live : List Allocation}

/-- Every byte of an allocation lies in one of its blocks. -/
theorem Chained.bytes (chained : Chained heap memory allocation) {address : Nat}
    (low : allocation.ptr ≤ address) (high : address < allocation.ptr + allocation.size) :
    ∃ block, allocation.Covers heap block ∧ block < heap.table.size ∧
      heap.startAddr + 4096 * block ≤ address ∧ address < heap.startAddr + 4096 * block + 4096 := by
  obtain ⟨first, pointer, _, room, _⟩ := chained
  have blocks : allocation.size ≤ 4096 * blocksOf allocation.size := by
    unfold blocksOf
    omega
  refine ⟨(address - heap.startAddr) / 4096, ?_, by omega, by omega, by omega⟩
  rw [Allocation.Covers, first_of_ptr pointer]
  omega

theorem Chained.top (placed : Placed heap) (chained : Chained heap memory allocation) :
    allocation.ptr + allocation.size < 4294967296 := by
  obtain ⟨first, pointer, _, room, _⟩ := chained
  have blocks := placed.blocks
  have size : allocation.size ≤ 4096 * blocksOf allocation.size := by
    unfold blocksOf
    omega
  omega

/-- It is none of the entries of the table. -/
theorem Chained.bytes_not_entry (placed : Placed heap) (chained : Chained heap memory allocation)
    {address : Nat} (low : allocation.ptr ≤ address) (high : address < allocation.ptr + allocation.size) :
    address < heap.table.entries ∨ heap.table.entries + heap.table.size ≤ address := by
  obtain ⟨block, _, inside, above, below⟩ := chained.bytes low high
  have apart := placed.apart
  omega

/-- Two allocations that share no block share no byte. -/
theorem bytes_apart (chained : Chained heap memory allocation) (chained' : Chained heap memory other)
    (apart : allocation.Apart heap other) {address : Nat}
    (low : allocation.ptr ≤ address) (high : address < allocation.ptr + allocation.size) :
    address < other.ptr ∨ other.ptr + other.size ≤ address := by
  by_contra inside
  rw [not_or, not_lt, not_le] at inside
  obtain ⟨block, covers, _, above, below⟩ := chained.bytes low high
  obtain ⟨block', covers', _, above', below'⟩ := chained'.bytes inside.1 inside.2
  obtain rfl : block = block' := by omega
  exact apart block ⟨covers, covers'⟩

theorem ptr_ne_of_apart (chained : Chained heap memory allocation) (chained' : Chained heap memory other)
    (apart : allocation.Apart heap other) (positive : 1 ≤ allocation.size) (positive' : 1 ≤ other.size) :
    allocation.ptr ≠ other.ptr := by
  have outside := bytes_apart chained chained' apart (show allocation.ptr ≤ allocation.ptr from le_rfl) (by omega)
  omega

instance : Std.Symm (Allocation.Apart heap) := ⟨fun _ _ => Allocation.Apart.symm⟩

/-- The entries of the table decide what is described. -/
theorem Described.transport (described : Described heap ⟨memory, live⟩)
    (same : ∀ block, block < heap.table.size →
      memory' (heap.table.entries + block) = memory (heap.table.entries + block)) :
    Described heap ⟨memory', live⟩ where
  apart := described.apart
  chained allocation member := (described.chained allocation member).transport fun _ covered =>
    same _ ((described.chained allocation member).taken covered).1

/-- The blocks that a free clears: all of an allocation but the last of a longer chain. -/
def freedBlocks (size : Nat) : Nat := if 2 ≤ blocksOf size then blocksOf size - 1 else blocksOf size

theorem freedBlocks_le (size : Nat) : freedBlocks size ≤ blocksOf size := by
  unfold freedBlocks
  split_ifs <;> omega

/-- **A free clears blocks of its own allocation only.** -/
theorem heapFree_cleared (placed : Placed heap) {state : HeapState} (described : Described heap state)
    (member : allocation ∈ state.live) (clear : ClearBehind heap state (.free allocation))
    (positive : 1 ≤ allocation.size) (call : heapFree heap state.memory allocation.ptr = some memory') :
    memory' = cleared state.memory (heap.table.entries + allocation.first heap) allocation.ptr
      (freedBlocks allocation.size) := by
  obtain ⟨near, behind⟩ := clear
  obtain ⟨first, pointer, inside, room, entries⟩ := described.chained allocation member
  have top := placed.table
  have blocks := placed.blocks
  have separate := placed.apart
  have some_block := blocksOf_pos positive
  rw [pointer, heapFree_eq placed state.memory inside (by omega)] at call
  have finish (count : Nat) (fewer : first + (count + 1) ≤ heap.table.size)
      (chain : ∀ index, 0 < index → index < count + 1 →
        heapTableEntryHasNext state.memory (heap.table.entries + first + index) = true)
      (stop : heapTableEntryHasNext state.memory (heap.table.entries + first + (count + 1)) = false) :
      memory' = cleared state.memory (heap.table.entries + first) (heap.startAddr + 4096 * first) (count + 1) := by
    rw [heapFreeLoop_clears count heapFreeTurns state.memory _ _ (by unfold heapFreeTurns; omega) (by omega)
      (by omega) (by omega) chain stop, Option.some.injEq] at call
    exact call.symm
  rw [first_of_ptr pointer, pointer]
  by_cases many : 2 ≤ blocksOf allocation.size
  · have counted : freedBlocks allocation.size = blocksOf allocation.size - 2 + 1 := by
      rw [freedBlocks, if_pos many]
      omega
    rw [counted]
    refine finish _ (by omega) (fun index low high => ?_) ?_
    · rw [heapTableEntryHasNext, Nat.add_assoc, entries index (by omega), decide_eq_true_eq, chainEntry_hasNext]
      omega
    · rw [heapTableEntryHasNext, Nat.add_assoc, entries _ (by omega), decide_eq_false_iff_not,
        chainEntry_hasNext]
      omega
  · have counted : freedBlocks allocation.size = 0 + 1 := by
      rw [freedBlocks, if_neg many]
      omega
    have single := (behind.resolve_left many).2
    rw [first_of_ptr pointer] at single
    rw [counted]
    exact finish 0 (by omega) (fun index low high => by omega) single

/-- **A request that is answered** is refused and changes nothing, or it gets a free run of the table. -/
theorem heapMalloc_answered (placed : Placed heap) {size : Nat} (answered : Answered heap memory size) :
    heapMalloc heap memory size = (0, memory) ∨
    ∃ first, first < heap.table.size ∧ FreeRun heap memory (blocksOf size) first ∧
      heapMalloc heap memory size = (heap.startAddr + 4096 * first,
        heapMarkTableEntriesTaken memory (heap.table.entries + first) (blocksOf size)) := by
  obtain ⟨_, bounded, fits | blocked⟩ := answered
  · exact heapMalloc_fits placed bounded fits
  · rw [blocked_iff placed (blocksOf_small bounded)] at blocked
    rcases @findFreeBlockStart_accepted heap memory (blocksOf size) placed.table with
      ⟨found, -⟩ | ⟨first, -, accepted, -⟩
    · exact .inl (heapMalloc_none bounded found)
    · exact absurd accepted (blocked first)

/-- It changes nothing outside the table. -/
theorem heapMalloc_outside (placed : Placed heap) {size ptr : Nat} (answered : Answered heap memory size)
    (call : heapMalloc heap memory size = (ptr, memory')) {address : Nat}
    (outside : address < heap.table.entries ∨ heap.table.entries + heap.table.size ≤ address) :
    memory' address = memory address := by
  have top := placed.table
  rcases heapMalloc_answered placed answered with refused | ⟨first, _, run, granted⟩
  · rw [call, Prod.mk.injEq] at refused
    rw [refused.2]
  · have room := run.1
    rw [call, Prod.mk.injEq] at granted
    rw [granted.2, heapMarkTableEntriesTaken_apply memory (by omega), if_neg (by omega)]

end Bytes

/-! ### The records of a heap -/

/-- **The heap holds the records**: each live allocation has one, with the bytes of its blocks. -/
structure Holds (heap : Heap) (state : HeapState) (records : Records) : Prop where
  described : Described heap state
  positive : ∀ allocation ∈ state.live, 1 ≤ allocation.size
  bytes : ∀ allocation ∈ state.live,
    records.lookup allocation.ptr = some (window state.memory allocation.ptr allocation.size)
  live : ∀ ptr bytes, records.lookup ptr = some bytes → ∃ allocation ∈ state.live, allocation.ptr = ptr

namespace Holds

variable {heap : Heap} {memory memory' : Memory} {live : List Allocation} {records : Records}
  {allocation other : Allocation}

/-- One allocation at a pointer. -/
theorem eq_of_ptr (holds : Holds heap ⟨memory, live⟩ records) (member : allocation ∈ live)
    (member' : other ∈ live) (same : allocation.ptr = other.ptr) : allocation = other := by
  by_contra differ
  exact ptr_ne_of_apart (holds.described.chained _ member) (holds.described.chained _ member')
    (holds.described.apart.forall member member' differ) (holds.positive _ member) (holds.positive _ member') same

/-- **The bytes of one allocation change.** -/
theorem overwrite (placed : Placed heap) (holds : Holds heap ⟨memory, live⟩ records)
    (member : allocation ∈ live)
    (outside : ∀ address, (address < allocation.ptr ∨ allocation.ptr + allocation.size ≤ address) →
      memory' address = memory address) :
    Holds heap ⟨memory', live⟩
      (records.put allocation.ptr (window memory' allocation.ptr allocation.size)) where
  described := by
    refine holds.described.transport fun block inside => outside _ ?_
    by_contra within
    rw [not_or, not_lt, not_le] at within
    have := (holds.described.chained _ member).bytes_not_entry placed within.1 within.2
    omega
  positive := holds.positive
  bytes other member' := by
    by_cases same : other = allocation
    · rw [same, Store.lookup_put_self]
    have differ : other.ptr ≠ allocation.ptr := fun ptr => same (holds.eq_of_ptr member' member ptr)
    have apart := holds.described.apart.forall member' member same
    rw [Store.lookup_put_ne differ, holds.bytes other member']
    refine congrArg some (window_congr fun index below => ?_)
    exact (outside _ (bytes_apart (holds.described.chained _ member') (holds.described.chained _ member) apart
      (Nat.le_add_right _ _) (by omega))).symm
  live ptr bytes found := by
    by_cases here : ptr = allocation.ptr
    · exact ⟨allocation, member, here.symm⟩
    · rw [Store.lookup_put_ne here] at found
      exact holds.live ptr bytes found

/-- A request counted. -/
theorem tick (holds : Holds heap ⟨memory, live⟩ records) : Holds heap ⟨memory, live⟩ records.tick :=
  ⟨holds.described, holds.positive, holds.bytes, holds.live⟩

/-- No record lies where a described allocation is about to. -/
theorem lookup_fresh (holds : Holds heap ⟨memory, live⟩ records)
    (chained : Chained heap memory' allocation) (positive : 1 ≤ allocation.size)
    (kept : ∀ other ∈ live, Chained heap memory' other) (apart : ∀ other ∈ live, allocation.Apart heap other) :
    records.lookup allocation.ptr = none := by
  by_contra present
  obtain ⟨bytes, found⟩ := Option.ne_none_iff_exists'.mp present
  obtain ⟨other, member, same⟩ := holds.live _ _ found
  exact ptr_ne_of_apart chained (kept other member) (apart other member) positive (holds.positive other member)
    same.symm

/-- **A request is answered** with a fresh pointer, or refused. -/
theorem malloc (placed : Placed heap) (start : 0 < heap.startAddr) (holds : Holds heap ⟨memory, live⟩ records)
    {size ptr : Nat} (answered : Answered heap memory size)
    (call : heapMalloc heap memory size = (ptr, memory')) :
    records.lookup ptr = none ∧ Holds heap ⟨memory', granted live size ptr⟩
      (if ptr = 0 then records.tick else records.tick.put ptr (window memory' ptr size)) := by
  have outside (address : Nat) := @heapMalloc_outside heap memory memory' placed size ptr answered call address
  rcases heapMalloc_answered placed answered with refused | ⟨first, inside, run, met⟩
  · rw [call, Prod.mk.injEq] at refused
    obtain ⟨rfl, rfl⟩ := refused
    refine ⟨?_, by simpa [granted] using holds.tick⟩
    by_contra present
    obtain ⟨bytes, found⟩ := Option.ne_none_iff_exists'.mp present
    obtain ⟨other, member, null⟩ := holds.live _ _ found
    obtain ⟨first, pointer, _⟩ := holds.described.chained other member
    omega
  have described := holds.described.malloc placed answered.2.1 ⟨first, run⟩ call
  rw [call, Prod.mk.injEq] at met
  have nonnull : ptr ≠ 0 := by omega
  simp only [if_neg nonnull, granted] at described ⊢
  have apart := List.pairwise_cons.mp described.apart
  have kept (other : Allocation) (member : other ∈ live) : Chained heap memory' other :=
    described.chained other (List.mem_cons_of_mem _ member)
  have fresh : records.lookup ptr = none :=
    holds.lookup_fresh (described.chained ⟨ptr, size⟩ List.mem_cons_self) answered.1 kept apart.1
  refine ⟨fresh, described, ?_, ?_, ?_⟩
  · intro allocation member
    rcases List.mem_cons.mp member with rfl | member
    · exact answered.1
    · exact holds.positive allocation member
  · intro allocation member
    rcases List.mem_cons.mp member with rfl | member
    · exact Store.lookup_put_self
    have differ : allocation.ptr ≠ ptr := Store.ne_of_absent (holds.bytes allocation member) fresh
    rw [Store.lookup_put_ne differ, Store.lookup_tick, holds.bytes allocation member]
    refine congrArg some (window_congr fun index below => (outside _ ?_).symm)
    exact (holds.described.chained allocation member).bytes_not_entry placed (Nat.le_add_right _ _) (by omega)
  · intro other bytes found
    by_cases here : other = ptr
    · exact ⟨⟨ptr, size⟩, List.mem_cons_self, here.symm⟩
    · rw [Store.lookup_put_ne here, Store.lookup_tick] at found
      obtain ⟨allocation, member, same⟩ := holds.live other bytes found
      exact ⟨allocation, List.mem_cons_of_mem _ member, same⟩

/-- **A request for zeroed bytes.** -/
theorem zalloc (placed : Placed heap) (start : 0 < heap.startAddr) (holds : Holds heap ⟨memory, live⟩ records)
    {size ptr : Nat} (answered : Answered heap memory size)
    (call : kheapZalloc heap memory size = (ptr, memory')) :
    records.lookup ptr = none ∧ Holds heap ⟨memory', granted live size ptr⟩
      (if ptr = 0 then records.tick else records.tick.put ptr (List.replicate size 0)) := by
  obtain ⟨mallocPtr, mallocMemory, mallocs⟩ : ∃ ptr memory', heapMalloc heap memory size = (ptr, memory') :=
    ⟨_, _, rfl⟩
  obtain ⟨fresh, held⟩ := holds.malloc placed start answered mallocs
  rw [kheapZalloc, kheapMalloc, mallocs] at call
  by_cases null : mallocPtr = 0
  · simp only [null, ne_eq, not_true, if_false, Prod.mk.injEq] at call
    obtain ⟨rfl, rfl⟩ := call
    subst null
    exact ⟨fresh, by simpa using held⟩
  simp only [ne_eq, null, not_false_iff, if_true, Prod.mk.injEq] at call
  obtain ⟨rfl, rfl⟩ := call
  refine ⟨fresh, ?_⟩
  simp only [if_neg null, granted] at held ⊢
  have member : (⟨mallocPtr, size⟩ : Allocation) ∈ (⟨mallocPtr, size⟩ :: live : List Allocation) :=
    List.mem_cons_self
  have top : mallocPtr + size < 4294967296 := (held.described.chained _ member).top placed
  have fill := memset_apply mallocMemory 0 top.le
  have zeroed : window (memset mallocMemory mallocPtr 0 size) mallocPtr size = List.replicate size 0 := by
    refine List.eq_replicate_iff.mpr ⟨window_length .., fun byte inside => ?_⟩
    obtain ⟨index, below, rfl⟩ := mem_window.mp inside
    rw [fill, if_pos (by omega)]
  have outside (address : Nat) (away : address < mallocPtr ∨ mallocPtr + size ≤ address) :
      memset mallocMemory mallocPtr 0 size address = mallocMemory address := by
    rw [fill, if_neg (by omega)]
  have filled := held.overwrite placed member outside
  rwa [Store.put_put, zeroed] at filled

/-- **The owner writes a byte.** -/
theorem write (placed : Placed heap) (holds : Holds heap ⟨memory, live⟩ records) (member : allocation ∈ live)
    {offset : Nat} (inside : offset < allocation.size) (value : UInt8) :
    Holds heap ⟨store memory (allocation.ptr + offset) value, live⟩ (records.put allocation.ptr
      ((window memory allocation.ptr allocation.size).set offset value)) := by
  have stored : window (store memory (allocation.ptr + offset) value) allocation.ptr allocation.size =
      (window memory allocation.ptr allocation.size).set offset value := by
    refine List.ext_getElem (by simp) fun index below _ => ?_
    rw [List.getElem_set, window_getElem, window_getElem]
    by_cases here : offset = index
    · subst here
      rw [if_pos rfl, store_same]
    · rw [if_neg here, store_other memory (by omega)]
  rw [← stored]
  exact holds.overwrite placed member fun address outside => store_other memory (by omega) value

/-- **An allocation is freed.** -/
theorem free (placed : Placed heap) (holds : Holds heap ⟨memory, live⟩ records) (member : allocation ∈ live)
    (clear : ClearBehind heap ⟨memory, live⟩ (.free allocation))
    (call : heapFree heap memory allocation.ptr = some memory') :
    Holds heap ⟨memory', live.erase allocation⟩ (records.erase allocation.ptr) := by
  have positive := holds.positive allocation member
  have few := freedBlocks_le allocation.size
  have cleared_eq := heapFree_cleared placed holds.described member clear positive call
  have apart := (List.pairwise_cons.mp (((List.perm_cons_erase member).pairwise_iff
    (fun {_ _} apart => Allocation.Apart.symm apart)).mp holds.described.apart)).1
  have chained {other : Allocation} (left : other ∈ live.erase allocation) : Chained heap memory other :=
    holds.described.chained other (List.mem_of_mem_erase left)
  refine ⟨holds.described.free placed member clear call,
    fun other left => holds.positive other (List.mem_of_mem_erase left), fun other left => ?_,
    fun ptr bytes found => ?_⟩
  · have differ := ptr_ne_of_apart (holds.described.chained _ member) (chained left) (apart other left) positive
      (holds.positive other (List.mem_of_mem_erase left))
    rw [Store.lookup_erase_ne differ.symm, holds.bytes other (List.mem_of_mem_erase left)]
    refine congrArg some (window_congr fun index below => ?_)
    obtain ⟨block, covers, _, above, high⟩ := (chained left).bytes (Nat.le_add_right _ index) (by omega)
    have entry := (chained left).bytes_not_entry placed (Nat.le_add_right _ index) (by omega)
    have away := apart other left block
    obtain ⟨first, pointer, _, room, _⟩ := holds.described.chained allocation member
    rw [Allocation.Covers, first_of_ptr pointer] at away
    show memory (other.ptr + index) = memory' (other.ptr + index)
    rw [cleared_eq, cleared, first_of_ptr pointer, if_neg]
    rintro (⟨low, below'⟩ | ⟨low, below'⟩)
    · omega
    · exact away ⟨by omega, covers⟩
  · by_cases here : ptr = allocation.ptr
    · rw [here, Store.lookup_erase_self] at found
      cases found
    · rw [Store.lookup_erase_ne here] at found
      obtain ⟨other, member', same⟩ := holds.live ptr bytes found
      have differ : other ≠ allocation := fun equal => here (equal ▸ same.symm)
      exact ⟨other, (List.mem_erase_of_ne differ).mpr member', same⟩

end Holds

/-! ### The heap's part of the memory -/

section Part

variable {heap : Heap} {memory memory' : Memory} {live : List Allocation} {records : Records} {address : Nat}

/-- The address is neither an entry of the table nor in a block. -/
def Heap.Outside (heap : Heap) (address : Nat) : Prop :=
  (address < heap.table.entries ∨ heap.table.entries + heap.table.size ≤ address) ∧
    (address < heap.startAddr ∨ heap.startAddr + 4096 * heap.table.size ≤ address)

/-- Every byte of an allocation is the heap's. -/
theorem Chained.within {allocation : Allocation} (chained : Chained heap memory allocation) {index : Nat}
    (inside : index < allocation.size) : heap.startAddr ≤ allocation.ptr + index ∧
      allocation.ptr + index < heap.startAddr + 4096 * heap.table.size := by
  obtain ⟨block, -, below, above, under⟩ := chained.bytes (Nat.le_add_right allocation.ptr index) (by omega)
  omega

/-- The heap's part decides what it holds. -/
theorem Holds.kept (holds : Holds heap ⟨memory, live⟩ records)
    (same : ∀ address, ¬ heap.Outside address → memory' address = memory address) :
    Holds heap ⟨memory', live⟩ records where
  described := holds.described.transport fun block inside => same _ (by unfold Heap.Outside; omega)
  positive := holds.positive
  bytes allocation member := by
    rw [holds.bytes allocation member]
    refine congrArg some (window_congr fun index below => (same _ ?_).symm)
    have within := (holds.described.chained allocation member).within below
    unfold Heap.Outside
    omega
  live := holds.live

/-- **A call writes the heap's part only.** -/
theorem KheapStep.outside (placed : Placed heap) (start : 0 < heap.startAddr) {state state' : HeapState}
    (holds : Holds heap state records) {event : KheapEvent}
    (step : Guarded (KheapClear heap) (KheapStep heap) state event state') (outside : heap.Outside address) :
    state'.memory address = state.memory address := by
  obtain ⟨clear, step⟩ := step
  cases step with
  | malloc call => exact heapMalloc_outside placed clear call outside.1
  | @zalloc size ptr memory call =>
    obtain ⟨mallocPtr, mallocMemory, mallocs⟩ : ∃ ptr memory', heapMalloc heap state.memory size = (ptr, memory') :=
      ⟨_, _, rfl⟩
    have malloc := heapMalloc_outside placed clear mallocs outside.1
    obtain ⟨-, held⟩ := holds.malloc placed start clear mallocs
    rw [kheapZalloc, kheapMalloc, mallocs] at call
    by_cases null : mallocPtr = 0
    · simp only [null, ne_eq, not_true, if_false, Prod.mk.injEq] at call
      rw [← call.2]
      exact malloc
    · simp only [ne_eq, null, not_false_iff, if_true, Prod.mk.injEq] at call
      rw [granted, if_neg null] at held
      have chained := held.described.chained ⟨mallocPtr, size⟩ List.mem_cons_self
      have top : mallocPtr + size < 4294967296 := chained.top placed
      rw [← call.2]
      show memset mallocMemory mallocPtr 0 size address = _
      rw [memset_apply mallocMemory 0 top.le, if_neg, malloc]
      rintro ⟨low, high⟩
      obtain ⟨above, below⟩ := chained.within (show address - mallocPtr < size by omega)
      have beside := outside.2
      dsimp only at above below
      omega
  | @free allocation memory member call =>
    have few := freedBlocks_le allocation.size
    obtain ⟨first, pointer, -, room, -⟩ := holds.described.chained allocation member
    have cleared_eq := heapFree_cleared placed holds.described member clear (holds.positive allocation member) call
    obtain ⟨entries, blocks⟩ := outside
    rw [first_of_ptr pointer] at cleared_eq
    show memory address = _
    rw [cleared_eq, cleared, if_neg]
    omega
  | @write allocation offset value member inside =>
    obtain ⟨above, below⟩ := (holds.described.chained _ member).within inside
    have beside := outside.2
    have apart : address ≠ allocation.ptr + offset := by omega
    exact store_other state.memory apart value
  | read => rfl

end Part

/-! ### Refinement -/

/-- The answers to the requests of a run. -/
def answers (events : List KheapEvent) : List Nat :=
  events.filterMap fun
    | .malloc _ ptr => some ptr
    | .zalloc _ ptr => some ptr
    | _ => none

section Refinement

variable {heap : Heap}

/-- The answer of an event, if it is a request, is the next one. -/
def Agrees (answer : Nat → Nat) (calls : Nat) (events : List KheapEvent) : Prop :=
  ∀ index, answer (calls + index) = (answers events).getD index 0

/-- **Every event of the heap is one of the records.** -/
theorem Holds.step (placed : Placed heap) (start : 0 < heap.startAddr) {state state' : HeapState}
    {records : Records} (holds : Holds heap state records) {event : KheapEvent} {events : List KheapEvent}
    {answer : Nat → Nat} (agrees : Agrees answer records.calls (event :: events))
    (step : Guarded (KheapClear heap) (KheapStep heap) state event state') :
    ∃ records', RecordStep (.answering answer) records event records' ∧ Holds heap state' records' ∧
      Agrees answer records'.calls events := by
  obtain ⟨clear, step⟩ := step
  -- A request takes one answer, and every other event none.
  have next {ptr : Nat} (head : answers (event :: events) = ptr :: answers events) :
      answer records.calls = ptr ∧ Agrees answer (records.calls + 1) events := by
    refine ⟨by simpa [head] using agrees 0, fun index => ?_⟩
    rw [Nat.add_right_comm, Nat.add_assoc, agrees (index + 1), head, List.getD_cons_succ]
  have requested {size ptr : Nat} (bytes : List UInt8) (head : answers (event :: events) = ptr :: answers events)
      (fresh : records.lookup ptr = none) :
      records.zalloc (.answering answer) size bytes =
          (ptr, if ptr = 0 then records.tick else records.tick.put ptr bytes) ∧
        Agrees answer (if ptr = 0 then records.tick else records.tick.put ptr bytes).calls events := by
    refine ⟨Store.zalloc_answering (next head).1 fresh, ?_⟩
    split_ifs <;> exact (next head).2
  cases step with
  | malloc call =>
    obtain ⟨fresh, held⟩ := holds.malloc placed start clear call
    obtain ⟨zalloc, agrees'⟩ := requested _ rfl fresh
    exact ⟨_, .malloc (window_length ..) zalloc, held, agrees'⟩
  | zalloc call =>
    obtain ⟨fresh, held⟩ := holds.zalloc placed start clear call
    obtain ⟨zalloc, agrees'⟩ := requested _ rfl fresh
    exact ⟨_, .zalloc zalloc, held, agrees'⟩
  | free member call =>
    exact ⟨_, .free (holds.bytes _ member) (window_length ..), holds.free placed member clear call, agrees⟩
  | @write allocation offset value member inside =>
    exact ⟨_, .write (holds.bytes _ member) (by simpa using inside), holds.write placed member inside value,
      agrees⟩
  | @read allocation offset member inside =>
    refine ⟨records, .read (holds.bytes _ member) ?_, holds, agrees⟩
    rw [List.getElem?_eq_getElem (by simpa using inside), window_getElem]

/-- The records after an event. -/
theorem Holds.exists_step (placed : Placed heap) (start : 0 < heap.startAddr) {state state' : HeapState}
    {records : Records} (holds : Holds heap state records) {event : KheapEvent}
    (step : Guarded (KheapClear heap) (KheapStep heap) state event state') :
    ∃ records', Holds heap state' records' := by
  have agrees : Agrees (fun call => (answers [event]).getD (call - records.calls) 0) records.calls [event] :=
    fun index => by simp
  obtain ⟨records', _, holds', _⟩ := holds.step placed start agrees step
  exact ⟨records', holds'⟩

theorem holds_empty (memory : Memory) : Holds heap ⟨memory, []⟩ Store.empty :=
  ⟨⟨List.Pairwise.nil, nofun⟩, nofun, nofun, fun _ _ found => by cases found⟩

theorem Holds.run (placed : Placed heap) (start : 0 < heap.startAddr) {answer : Nat → Nat}
    {state state' : HeapState} {events : List KheapEvent}
    (run : Run (Guarded (KheapClear heap) (KheapStep heap)) state events state') :
    ∀ {records : Records}, Holds heap state records → Agrees answer records.calls events →
      ∃ records', Run (RecordStep (.answering answer)) records events records' ∧ Holds heap state' records' := by
  induction run with
  | done state => exact fun {records} holds _ => ⟨records, .done records, holds⟩
  | step one _ ih =>
    intro records holds agrees
    obtain ⟨records', step, holds', agrees'⟩ := holds.step placed start agrees one
    obtain ⟨last, rest, held⟩ := ih holds' agrees'
    exact ⟨last, .step step rest, held⟩

/-- **The heap is a store of records**: on a heap that `heapCreate` has set up, every run whose requests are
answered within the table and whose frees are clear is a run of the store under some allocator, with the same
pointers and the same bytes read; and at its end each live allocation holds the bytes of its record. -/
theorem kheap_refines_records {memory memory' : Memory} {heapStart tableStart heapSize : Nat}
    (created : heapCreate memory heapStart tableStart heapSize 4096 = .ok (heap, memory'))
    (table : tableStart + heapSize / 4096 < 4294967296) (blocks : heapStart + heapSize < 4294967296)
    (apart : tableStart + heapSize / 4096 ≤ heapStart ∨ heapStart + heapSize ≤ tableStart)
    (start : 0 < heapStart) {events : List KheapEvent} {state : HeapState}
    (run : Run (Guarded (KheapClear heap) (KheapStep heap)) ⟨memory', []⟩ events state) :
    ∃ (allocator : Allocator) (records : Records), Run (RecordStep allocator) Store.empty events records ∧
      (∀ ptr, (∃ bytes, records.lookup ptr = some bytes) ↔ ∃ allocation ∈ state.live, allocation.ptr = ptr) ∧
      ∀ allocation ∈ state.live,
        records.lookup allocation.ptr = some (window state.memory allocation.ptr allocation.size) := by
  have placed := placed_of_heapCreate created table blocks apart
  have positive : 0 < heap.startAddr := by
    rw [(heapCreate_ok created).1]
    exact start
  have agrees : Agrees (fun index => (answers events).getD index 0) 0 events := fun index => by
    rw [Nat.zero_add]
  obtain ⟨records, records_run, held⟩ := Holds.run placed positive run (holds_empty memory') agrees
  refine ⟨_, records, records_run, fun ptr => ⟨?_, ?_⟩, held.bytes⟩
  · rintro ⟨bytes, found⟩
    exact held.live ptr bytes found
  · rintro ⟨allocation, member, rfl⟩
    exact ⟨_, held.bytes allocation member⟩

end Refinement

theorem smallHeap_answers : heapMalloc smallHeap smallStart 1 = (0x01000000, (heapMalloc smallHeap smallStart 1).2) :=
  Prod.ext (by decide) rfl

/-- One block, a byte written and read back. -/
theorem kheap_refines_records_small :
    ∃ (allocator : Allocator) (records : Records), Run (RecordStep allocator) Store.empty
        [.malloc 1 0x01000000, .write ⟨0x01000000, 1⟩ 0 7, .read ⟨0x01000000, 1⟩ 0 7] records ∧
      (∀ ptr, (∃ bytes, records.lookup ptr = some bytes) ↔
        ∃ allocation ∈ [(⟨0x01000000, 1⟩ : Allocation)], allocation.ptr = ptr) ∧
      ∀ allocation ∈ [(⟨0x01000000, 1⟩ : Allocation)], records.lookup allocation.ptr =
        some (window (store (heapMalloc smallHeap smallStart 1).2 0x01000000 7) allocation.ptr allocation.size) := by
  have member : (⟨0x01000000, 1⟩ : Allocation) ∈ [(⟨0x01000000, 1⟩ : Allocation)] := List.mem_singleton_self _
  have answered : Answered smallHeap smallStart 1 := ⟨by decide, by decide, .inl ⟨0, by decide⟩⟩
  have mallocs : Guarded (KheapClear smallHeap) (KheapStep smallHeap) ⟨smallStart, []⟩ (.malloc 1 0x01000000)
      ⟨(heapMalloc smallHeap smallStart 1).2, [⟨0x01000000, 1⟩]⟩ := ⟨answered, .malloc smallHeap_answers⟩
  have writes : Guarded (KheapClear smallHeap) (KheapStep smallHeap)
      ⟨(heapMalloc smallHeap smallStart 1).2, [⟨0x01000000, 1⟩]⟩ (.write ⟨0x01000000, 1⟩ 0 7)
      ⟨store (heapMalloc smallHeap smallStart 1).2 0x01000000 7, [⟨0x01000000, 1⟩]⟩ :=
    ⟨trivial, .write member (by decide)⟩
  have reads : Guarded (KheapClear smallHeap) (KheapStep smallHeap)
      ⟨store (heapMalloc smallHeap smallStart 1).2 0x01000000 7, [⟨0x01000000, 1⟩]⟩
      (.read ⟨0x01000000, 1⟩ 0 7)
      ⟨store (heapMalloc smallHeap smallStart 1).2 0x01000000 7, [⟨0x01000000, 1⟩]⟩ :=
    ⟨trivial, .read member (by decide)⟩
  exact kheap_refines_records smallHeap_created (by decide) (by decide) (by decide) (by decide)
    (.step mallocs (.step writes (.step reads (.done _))))

end KernelPlay.BlockHeap
