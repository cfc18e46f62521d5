/-
**The page tables on the kernel's heap.**

`paging_new_4gb` asks the heap for a directory, for 1024 tables and for the chunk. `pageBlocks_of_answers` — in a
run of the heap without a free whose 1026 requests are met, the answers are distinct blocks of a page, so the
directory built in them is an identity map; none of them lies in an allocation that was live before
(`kernel_pages`), whatever has been allocated and freed since `kheap_init`, as long as every free was clear.
-/

import KernelPlay.Heap.Bump
import KernelPlay.Memory.IdentityMap

namespace KernelPlay.BlockHeap

open KernelPlay.Library

/-! ### Runs without a free -/

section Growing

variable {heap : Heap} {state state' : HeapState} {events : List KheapEvent}

/-- Nothing live is lost, and every answer is live. -/
theorem live_of_run (run : Run (KheapStep heap) state events state')
    (none : ∀ event ∈ events, event.frees = false) (met : ∀ ptr ∈ answers events, ptr ≠ 0) :
    ∃ fresh, state'.live = fresh ++ state.live ∧ fresh.map Allocation.ptr = (answers events).reverse := by
  induction run with
  | done state => exact ⟨[], rfl, rfl⟩
  | @step first middle last event events one _ ih =>
    have kept := List.forall_mem_cons.mp none
    have request {size ptr : Nat} (meets : ∀ answer ∈ ptr :: answers events, answer ≠ 0)
        (live : middle.live = granted first.live size ptr) :
        ∃ fresh, last.live = fresh ++ first.live ∧
          fresh.map Allocation.ptr = (ptr :: answers events).reverse := by
      obtain ⟨nonnull, rest⟩ := List.forall_mem_cons.mp meets
      obtain ⟨fresh, grown, same⟩ := ih kept.2 rest
      refine ⟨fresh ++ [⟨ptr, size⟩], ?_, ?_⟩
      · rw [grown, live, granted, if_neg nonnull, List.append_assoc]
        rfl
      · rw [List.map_append, same]
        exact List.reverse_cons.symm
    cases one with
    | malloc => exact request met rfl
    | zalloc => exact request met rfl
    | free => cases kept.1
    | write => exact ih kept.2 met
    | read => exact ih kept.2 met

/-- **The blocks handed out** start at a page, lie apart from each other and from what was live before. -/
theorem blocks_of_run (placed : Placed heap) (start : 0 < heap.startAddr) (pages : heap.startAddr % 4096 = 0)
    {records : Records} (holds : Holds heap state records)
    (run : Run (Guarded (KheapClear heap) (KheapStep heap)) state events state')
    (none : ∀ event ∈ events, event.frees = false) (met : ∀ ptr ∈ answers events, ptr ≠ 0) :
    (answers events).Nodup ∧ ∀ ptr ∈ answers events, ptr % 4096 = 0 ∧ ptr + 4096 < 4294967296 ∧
      ∀ allocation ∈ state.live, ∀ address, allocation.ptr ≤ address →
        address < allocation.ptr + allocation.size → address < ptr ∨ ptr + 4096 ≤ address := by
  have agrees : Agrees (fun index => (answers events).getD (index - records.calls) 0) records.calls events :=
    fun index => by simp
  obtain ⟨records', -, holds'⟩ := Holds.run placed start run holds agrees
  obtain ⟨fresh, live, same⟩ := live_of_run run.unguarded none met
  have member {allocation : Allocation} (inside : allocation ∈ fresh) : allocation ∈ state'.live :=
    live ▸ List.mem_append_left _ inside
  have chained {allocation : Allocation} (inside : allocation ∈ fresh) :=
    holds'.described.chained allocation (member inside)
  have positive {allocation : Allocation} (inside : allocation ∈ fresh) :=
    holds'.positive allocation (member inside)
  obtain ⟨apart, _, across⟩ := List.pairwise_append.mp (live ▸ holds'.described.apart)
  refine ⟨?_, fun ptr answer => ?_⟩
  · rw [← List.nodup_reverse, ← same, List.Nodup, List.pairwise_map]
    exact apart.imp_of_mem fun inside inside' differ =>
      ptr_ne_of_apart (chained inside) (chained inside') differ (positive inside) (positive inside')
  · rw [← List.mem_reverse, ← same] at answer
    obtain ⟨allocation, inside, rfl⟩ := List.mem_map.mp answer
    obtain ⟨first, pointer, below, _, _⟩ := chained inside
    have top := placed.blocks
    refine ⟨by omega, by omega, fun other old address low high => ?_⟩
    have chained' := holds'.described.chained other (live ▸ List.mem_append_right _ old)
    obtain ⟨block, covers, _, above, under⟩ := chained'.bytes low high
    by_contra within
    have some_block := blocksOf_pos (positive inside)
    refine across allocation inside other old block ⟨?_, covers⟩
    rw [Allocation.Covers, first_of_ptr pointer]
    omega

/-- **The answers to 1026 requests are blocks for page tables.** -/
theorem pageBlocks_of_answers {ptrs : List Nat} (count : ptrs.length = 1026) (distinct : ptrs.Nodup)
    (pages : ∀ ptr ∈ ptrs, ptr % 4096 = 0 ∧ ptr + 4096 < 4294967296) :
    PageBlocks fun request => UInt32.ofNat (ptrs.getD request 0) := by
  have answer {request : Nat} (inside : request ≤ 1025) :
      ∃ below : request < ptrs.length, ptrs.getD request 0 = ptrs[request] :=
    ⟨by omega, List.getD_eq_getElem _ _ _⟩
  have exact {request : Nat} (inside : request ≤ 1025) :
      (UInt32.ofNat (ptrs.getD request 0)).toNat = ptrs.getD request 0 := by
    obtain ⟨below, same⟩ := answer inside
    have page := pages _ (List.getElem_mem below)
    rw [same, UInt32.toNat_ofNat_of_lt' (by rw [UInt32.size]; omega)]
  constructor
  · intro request inside
    obtain ⟨below, same⟩ := answer inside
    rw [PageAligned, exact inside, same]
    exact (pages _ (List.getElem_mem below)).1
  · intro request other inside inside' equal
    have numbers := congrArg UInt32.toNat equal
    rw [exact inside, exact inside'] at numbers
    obtain ⟨below, same⟩ := answer inside
    obtain ⟨below', same'⟩ := answer inside'
    rw [same, same'] at numbers
    exact (distinct.getElem_inj_iff).mp numbers

end Growing

/-- **Page tables on the kernel's heap.** After any run from `kheap_init` whose requests are answered within
the table and whose frees are clear, a directory whose 1026 requests are met translates every address to
itself, and none of its pages holds a byte of what is live. -/
theorem kernel_pages {memory memory' : Memory} {heap : Heap} (created : kheapInit memory = .ok (heap, memory'))
    {history events : List KheapEvent} {state state' : HeapState}
    (before : Run (Guarded (KheapClear heap) (KheapStep heap)) ⟨memory', []⟩ history state)
    (run : Run (Guarded (KheapClear heap) (KheapStep heap)) state events state')
    (none : ∀ event ∈ events, event.frees = false) (count : (answers events).length = 1026)
    (met : ∀ ptr ∈ answers events, ptr ≠ 0) (flags : UInt8) (words : Words) :
    let kheap := fun request => UInt32.ofNat ((answers events).getD request 0)
    let chunk := pagingNew4gb kheap flags words
    let directory := paging4gbChunkGetDirectory chunk.2 chunk.1
    (∀ v, physicalAddress chunk.2 directory v = v) ∧
      ∀ ptr ∈ answers events, ∀ allocation ∈ state.live, ∀ address, allocation.ptr ≤ address →
        address < allocation.ptr + allocation.size → address < ptr ∨ ptr + 4096 ≤ address := by
  rw [kheapInit_ok, Except.ok.injEq, Prod.mk.injEq] at created
  obtain ⟨rfl, rfl⟩ := created
  have start : 0 < kernelHeap.startAddr := by decide
  have agrees : Agrees (fun index => (answers history).getD index 0) 0 history := fun index => by
    rw [Nat.zero_add]
  obtain ⟨records, -, holds⟩ := Holds.run kernelHeap_placed start before (holds_empty _) agrees
  obtain ⟨distinct, blocks⟩ := blocks_of_run kernelHeap_placed start (by decide) holds run none met
  have pages := pageBlocks_of_answers count distinct fun ptr member =>
    ⟨(blocks ptr member).1, (blocks ptr member).2.1⟩
  obtain ⟨directory, identity⟩ := pagingNew4gb_identity pages flags words
  dsimp only
  rw [directory]
  exact ⟨fun v => identity.physicalAddress pages v, fun ptr member => (blocks ptr member).2.2⟩

/-- The directory, its tables and the chunk, the first requests of the kernel. -/
def pageRequests : List Nat := List.replicate 1025 4096 ++ [4]

theorem pageRequests_sized : Sized pageRequests := by
  intro size member
  rcases List.mem_append.mp member with page | chunk
  · rw [List.eq_of_mem_replicate page]
    decide
  · rw [List.mem_singleton.mp chunk]
    decide

/-- The pages are the first 1026 blocks of the heap. -/
theorem kernel_pages_first :
    let kheap := fun request => UInt32.ofNat ((consecutive kernelHeapAddress pageRequests).getD request 0)
    let chunk := pagingNew4gb kheap 0 fun _ => 0
    ∀ v, physicalAddress chunk.2 (paging4gbChunkGetDirectory chunk.2 chunk.1) v = v := by
  have start : 0 < kernelHeap.startAddr := by decide
  have created := kheapInit_ok fun _ => 0
  have packed := Packed.fresh created (by decide)
  have room : 0 + blocksOfAll pageRequests ≤ kernelHeap.table.size := by
    rw [pageRequests, blocksOfAll_append, blocksOfAll, List.map_replicate, List.sum_replicate]
    decide
  obtain ⟨events, state, run, asked, none⟩ :=
    Packed.requested kernelHeap_placed (by decide) start pageRequests (holds_empty _) packed
      pageRequests_sized room
  obtain ⟨answered, guarded⟩ := packed.run kernelHeap_placed (by decide) start run (holds_empty _) none
    (asked ▸ pageRequests_sized) (asked ▸ room)
  rw [asked] at answered
  have count : (answers events).length = 1026 := by
    rw [answered, consecutive_length, pageRequests, List.length_append, List.length_replicate, List.length_singleton]
  have met (ptr : Nat) (member : ptr ∈ answers events) : ptr ≠ 0 := by
    have above := le_of_mem_consecutive (answered ▸ member)
    omega
  have pages := kernel_pages created (.done _) guarded none count met 0 fun _ => 0
  rw [answered] at pages
  exact pages.1

end KernelPlay.BlockHeap
