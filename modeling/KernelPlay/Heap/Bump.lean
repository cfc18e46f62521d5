/-
**The heap before the first free.**

`Packed heap memory count` — the first `count` entries of the table are taken and the others are free. A fresh
heap is packed, and a request that still fits keeps it so: it gets the block behind the taken ones
(`Packed.malloc`). `kheap_bumps` — in every run from a fresh heap without a free, whose requests fit in the
table together, the answers follow each other without a gap, whatever the owners write in between.
-/

import KernelPlay.Heap.Kheap

namespace KernelPlay.BlockHeap

open KernelPlay.Library

def KheapEvent.frees : KheapEvent → Bool
  | .free _ => true
  | _ => false

/-- The sizes asked for in a run. -/
def requests (events : List KheapEvent) : List Nat :=
  events.filterMap fun
    | .malloc size _ => some size
    | .zalloc size _ => some size
    | _ => none

/-- The addresses of blocks one behind the other. -/
def consecutive (next : Nat) : List Nat → List Nat
  | [] => []
  | size :: sizes => next :: consecutive (next + 4096 * blocksOf size) sizes

/-- The blocks of requests. -/
def blocksOfAll (sizes : List Nat) : Nat := (sizes.map blocksOf).sum

theorem blocksOfAll_append (sizes sizes' : List Nat) :
    blocksOfAll (sizes ++ sizes') = blocksOfAll sizes + blocksOfAll sizes' := by
  simp [blocksOfAll]

theorem consecutive_append (sizes sizes' : List Nat) : ∀ next : Nat, consecutive next (sizes ++ sizes') =
    consecutive next sizes ++ consecutive (next + 4096 * blocksOfAll sizes) sizes' := by
  induction sizes with
  | nil => exact fun next => rfl
  | cons size sizes ih =>
    intro next
    simp [consecutive, ih, blocksOfAll, Nat.mul_add, Nat.add_assoc]

theorem consecutive_length (sizes : List Nat) : ∀ next : Nat, (consecutive next sizes).length = sizes.length := by
  induction sizes with
  | nil => exact fun next => rfl
  | cons size sizes ih => simp [consecutive, ih]

theorem le_of_mem_consecutive {sizes : List Nat} {ptr : Nat} :
    ∀ {next : Nat}, ptr ∈ consecutive next sizes → next ≤ ptr := by
  induction sizes with
  | nil => exact fun member => by cases member
  | cons size sizes ih =>
    intro next member
    rcases List.mem_cons.mp member with rfl | later
    · exact le_rfl
    · exact (Nat.le_add_right _ _).trans (ih later)

theorem requests_cons (event : KheapEvent) (events : List KheapEvent) :
    requests (event :: events) = requests [event] ++ requests events := by
  rw [requests, requests, requests, ← List.filterMap_append, List.singleton_append]

theorem answers_cons (event : KheapEvent) (events : List KheapEvent) :
    answers (event :: events) = answers [event] ++ answers events := by
  rw [answers, answers, answers, ← List.filterMap_append, List.singleton_append]

/-- The entries in front of `count` are taken, those behind are free. -/
structure Packed (heap : Heap) (memory : Memory) (count : Nat) : Prop where
  inside : count ≤ heap.table.size
  taken : ∀ index, index < count → isFreeBlock memory (heap.table.entries + index) = false
  free : ∀ index, count ≤ index → index < heap.table.size →
    isFreeBlock memory (heap.table.entries + index) = true

namespace Packed

variable {heap : Heap} {memory memory' : Memory} {count size : Nat}

theorem transport (packed : Packed heap memory count)
    (same : ∀ index, index < heap.table.size →
      memory' (heap.table.entries + index) = memory (heap.table.entries + index)) : Packed heap memory' count := by
  have inside := packed.inside
  refine ⟨inside, fun index below => ?_, fun index low high => ?_⟩
  · rw [isFreeBlock, same index (by omega)]
    exact packed.taken index below
  · rw [isFreeBlock, same index high]
    exact packed.free index low high

theorem fits (packed : Packed heap memory count) (room : count + blocksOf size ≤ heap.table.size) :
    FreeRun heap memory (blocksOf size) count := by
  refine ⟨room, fun index below => ?_⟩
  rw [Nat.add_assoc]
  exact packed.free _ (Nat.le_add_right _ _) (by omega)

/-- **A request gets the block behind the taken ones.** -/
theorem malloc (placed : Placed heap) (nonzero : 0 < heap.table.entries) (packed : Packed heap memory count)
    (positive : 1 ≤ size) (bounded : size ≤ 2147479552) (room : count + blocksOf size ≤ heap.table.size) :
    ∃ memory', heapMalloc heap memory size = (heap.startAddr + 4096 * count, memory') ∧
      Packed heap memory' (count + blocksOf size) := by
  have some_block := blocksOf_pos positive
  have top := placed.table
  have found := findFreeBlockStart_first placed.table some_block (packed.fits room) fun earlier before run => by
    have free := run.2 0 some_block
    rw [Nat.add_zero, packed.taken earlier before] at free
    cases free
  refine ⟨_, heapMalloc_found placed bounded (by omega) (by omega) found, room, fun index below => ?_,
    fun index low high => ?_⟩
  · by_cases old : index < count
    · rw [isFreeBlock, heapMarkTableEntriesTaken_apply memory (by omega), if_neg (by omega)]
      exact packed.taken index old
    · exact isFreeBlock_chainEntry ((heapMarkTableEntriesTaken_apply memory (by omega) _).trans
        (if_pos (by omega)))
  · rw [isFreeBlock, heapMarkTableEntriesTaken_apply memory (by omega), if_neg (by omega)]
    exact packed.free index (by omega) high

/-- The owner of an allocation writes into its own blocks. -/
theorem overwrite (placed : Placed heap) (packed : Packed heap memory count) {allocation : Allocation}
    (chained : Chained heap memory allocation)
    (outside : ∀ address, (address < allocation.ptr ∨ allocation.ptr + allocation.size ≤ address) →
      memory' address = memory address) : Packed heap memory' count := by
  refine packed.transport fun index inside => outside _ ?_
  by_contra within
  rw [not_or, not_lt, not_le] at within
  have := chained.bytes_not_entry placed within.1 within.2
  omega

/-- The next request is answered. -/
theorem answered (packed : Packed heap memory count) (positive : 1 ≤ size) (bounded : size ≤ 2147479552)
    (room : count + blocksOf size ≤ heap.table.size) : Answered heap memory size :=
  ⟨positive, bounded, .inl ⟨count, packed.fits room⟩⟩

theorem zalloc (placed : Placed heap) (nonzero : 0 < heap.table.entries) (start : 0 < heap.startAddr)
    {live : List Allocation} {records : Records} (holds : Holds heap ⟨memory, live⟩ records)
    (packed : Packed heap memory count) (positive : 1 ≤ size) (bounded : size ≤ 2147479552)
    (room : count + blocksOf size ≤ heap.table.size) :
    ∃ memory', kheapZalloc heap memory size = (heap.startAddr + 4096 * count, memory') ∧
      Packed heap memory' (count + blocksOf size) := by
  obtain ⟨memory', call, packed'⟩ := packed.malloc placed nonzero positive bounded room
  have nonnull : heap.startAddr + 4096 * count ≠ 0 := by omega
  have held := (holds.malloc placed start (packed.answered positive bounded room) call).2.described
  rw [granted, if_neg nonnull] at held
  have chained := held.chained ⟨heap.startAddr + 4096 * count, size⟩ List.mem_cons_self
  refine ⟨memset memory' (heap.startAddr + 4096 * count) 0 size, ?_, ?_⟩
  · rw [kheapZalloc, kheapMalloc, call]
    exact if_pos nonnull
  · refine packed'.overwrite placed chained fun address away => ?_
    have away : address < heap.startAddr + 4096 * count ∨ heap.startAddr + 4096 * count + size ≤ address := away
    rw [memset_apply memory' 0 (chained.top placed).le, if_neg (by omega)]

/-- A fresh table holds nothing. -/
theorem fresh {heapStart tableStart heapSize : Nat}
    (created : heapCreate memory heapStart tableStart heapSize 4096 = .ok (heap, memory'))
    (table : tableStart + heapSize / 4096 < 4294967296) : Packed heap memory' 0 := by
  obtain ⟨rfl, rfl⟩ := heapCreate_ok created
  refine ⟨Nat.zero_le _, nofun, fun index _ inside => ?_⟩
  simp only at inside ⊢
  rw [isFreeBlock, memset_apply memory _ table.le, if_pos (by omega)]
  rfl

end Packed

/-! ### A run without a free -/

section Run

variable {heap : Heap} {state state' : HeapState} {event : KheapEvent} {events : List KheapEvent}
  {records : Records} {count : Nat}

/-- Requests of at least one byte that the code does not round to more than the table can count. -/
def Sized (sizes : List Nat) : Prop := ∀ size ∈ sizes, 1 ≤ size ∧ size ≤ 2147479552

/-- **One event.** -/
theorem Packed.step (placed : Placed heap) (nonzero : 0 < heap.table.entries) (start : 0 < heap.startAddr)
    (holds : Holds heap state records) (packed : Packed heap state.memory count) (kept : event.frees = false)
    (sized : Sized (requests [event])) (room : count + blocksOfAll (requests [event]) ≤ heap.table.size)
    (step : KheapStep heap state event state') :
    KheapClear heap state event ∧ Packed heap state'.memory (count + blocksOfAll (requests [event])) ∧
      answers [event] = consecutive (heap.startAddr + 4096 * count) (requests [event]) := by
  cases step with
  | @malloc size ptr memory' call =>
    obtain ⟨positive, bounded⟩ := sized size List.mem_cons_self
    have room : count + blocksOf size ≤ heap.table.size := by simpa [requests, blocksOfAll] using room
    obtain ⟨memory'', call', packed'⟩ := packed.malloc placed nonzero positive bounded room
    obtain ⟨rfl, rfl⟩ := Prod.mk.injEq .. ▸ call.symm.trans call'
    exact ⟨packed.answered positive bounded room, by simpa [requests, blocksOfAll] using packed', rfl⟩
  | @zalloc size ptr memory' call =>
    obtain ⟨positive, bounded⟩ := sized size List.mem_cons_self
    have room : count + blocksOf size ≤ heap.table.size := by simpa [requests, blocksOfAll] using room
    obtain ⟨memory'', call', packed'⟩ := packed.zalloc placed nonzero start holds positive bounded room
    obtain ⟨rfl, rfl⟩ := Prod.mk.injEq .. ▸ call.symm.trans call'
    exact ⟨packed.answered positive bounded room, by simpa [requests, blocksOfAll] using packed', rfl⟩
  | free => cases kept
  | write member inside =>
    refine ⟨trivial, packed.overwrite placed (holds.described.chained _ member) fun address away => ?_, rfl⟩
    exact store_other _ (by omega) _
  | read => exact ⟨trivial, packed, rfl⟩

/-- **Answers without a gap.** -/
theorem Packed.run (placed : Placed heap) (nonzero : 0 < heap.table.entries) (start : 0 < heap.startAddr)
    (run : Run (KheapStep heap) state events state') :
    ∀ {records : Records} {count : Nat}, Holds heap state records → Packed heap state.memory count →
      (∀ event ∈ events, event.frees = false) → Sized (requests events) →
      count + blocksOfAll (requests events) ≤ heap.table.size →
      answers events = consecutive (heap.startAddr + 4096 * count) (requests events) ∧
        Run (Guarded (KheapClear heap) (KheapStep heap)) state events state' := by
  induction run with
  | done state => exact fun _ _ _ _ _ => ⟨rfl, .done state⟩
  | @step first middle last event events one _ ih =>
    intro records count holds packed none sized room
    obtain ⟨kept, none⟩ := List.forall_mem_cons.mp none
    rw [requests_cons] at sized room ⊢
    rw [blocksOfAll_append] at room
    rw [answers_cons, consecutive_append]
    obtain ⟨here, later⟩ := List.forall_mem_append.mp sized
    obtain ⟨clear, packed', answer⟩ := packed.step placed nonzero start holds kept here (by omega) one
    obtain ⟨_, holds'⟩ := holds.exists_step placed start ⟨clear, one⟩
    obtain ⟨answer', guarded⟩ := ih holds' packed' none later (by omega)
    rw [answer, answer', Nat.mul_add, ← Nat.add_assoc]
    exact ⟨rfl, .step ⟨clear, one⟩ guarded⟩

/-- Requests that fit can be made. -/
theorem Packed.requested (placed : Placed heap) (nonzero : 0 < heap.table.entries) (start : 0 < heap.startAddr)
    (sizes : List Nat) :
    ∀ {state : HeapState} {records : Records} {count : Nat}, Holds heap state records →
      Packed heap state.memory count → Sized sizes → count + blocksOfAll sizes ≤ heap.table.size →
      ∃ events state', Run (KheapStep heap) state events state' ∧ requests events = sizes ∧
        ∀ event ∈ events, event.frees = false := by
  induction sizes with
  | nil => exact fun {state _ _} _ _ _ _ => ⟨[], state, .done state, rfl, nofun⟩
  | cons size sizes ih =>
    intro state records count holds packed sized room
    obtain ⟨⟨positive, bounded⟩, later⟩ := List.forall_mem_cons.mp sized
    have room : count + blocksOf size + blocksOfAll sizes ≤ heap.table.size := by
      simpa [blocksOfAll, Nat.add_assoc] using room
    obtain ⟨memory', call, packed'⟩ := packed.zalloc placed nonzero start holds positive bounded (by omega)
    have held := (holds.zalloc placed start (packed.answered positive bounded (by omega)) call).2
    obtain ⟨events, state', run, asked, kept⟩ := ih held packed' later room
    refine ⟨.zalloc size _ :: events, state', .step (.zalloc call) run, ?_, ?_⟩
    · rw [requests_cons, asked]
      rfl
    · exact List.forall_mem_cons.mpr ⟨rfl, kept⟩

/-- **The heap before the first free hands out block after block.** In every run from a fresh heap without a
free, whose requests fit in the table together, the answers follow each other from the start of the heap
without a gap, whatever the owners write in between; and every request is answered within the table. -/
theorem kheap_bumps {memory memory' : Memory} {heapStart tableStart heapSize : Nat}
    (created : heapCreate memory heapStart tableStart heapSize 4096 = .ok (heap, memory'))
    (nonzero : 0 < tableStart) (table : tableStart + heapSize / 4096 < 4294967296)
    (blocks : heapStart + heapSize < 4294967296)
    (apart : tableStart + heapSize / 4096 ≤ heapStart ∨ heapStart + heapSize ≤ tableStart)
    (start : 0 < heapStart) (run : Run (KheapStep heap) ⟨memory', []⟩ events state)
    (none : ∀ event ∈ events, event.frees = false) (sized : Sized (requests events))
    (room : blocksOfAll (requests events) ≤ heapSize / 4096) :
    answers events = consecutive heapStart (requests events) ∧
      Run (Guarded (KheapClear heap) (KheapStep heap)) ⟨memory', []⟩ events state := by
  have placed := placed_of_heapCreate created table blocks apart
  have packed := Packed.fresh created table
  obtain ⟨rfl, -⟩ := heapCreate_ok created
  exact packed.run placed nonzero start run (holds_empty memory') none sized (by simpa using room)

end Run

/-- A byte, two blocks and a block. -/
theorem kheap_bumps_three : ∃ events : List KheapEvent, requests events = [1, 5000, 4096] ∧
    answers events = [0x01000000, 0x01001000, 0x01003000] := by
  have created : heapCreate (fun _ => 0) kernelHeapAddress kernelHeapTableAddress kernelHeapSizeInBytes 4096 =
    .ok (kernelHeap, memset (fun _ => 0) kernelHeapTableAddress heapBlockTableEntryFree 25600) := kheapInit_ok _
  have sized : Sized [1, 5000, 4096] := by simp [Sized]
  obtain ⟨events, state, run, asked, none⟩ := Packed.requested kernelHeap_placed (by decide) (by decide)
    [1, 5000, 4096] (holds_empty _) (Packed.fresh created (by decide)) sized (by decide)
  have bumps := kheap_bumps created (by decide) (by decide) (by decide) (by decide) (by decide) run none
    (asked ▸ sized) (asked ▸ by decide)
  exact ⟨events, asked, by rw [bumps.1, asked]; rfl⟩

end KernelPlay.BlockHeap
