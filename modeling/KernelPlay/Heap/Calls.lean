/-
**The two calls as machines.**

* `heapMallocStep`, `heapFreeStep` — `heap_malloc` and `heap_free`, test by test and turn by turn, with the
  entries read and written.
* `malloc_computes`, `free_computes` — they halt with what `heapMalloc` and `heapFree` return. `heapFree`
  always returns, for every table and pointer (`heapFree_terminates`).
-/

import KernelPlay.Heap.FirstFit
import KernelPlay.Heap.Undo

namespace KernelPlay.BlockHeap

open KernelPlay.Library

/-! ### The machines -/

/-- Where a call of `heap_malloc` stands: in the search, before a test of the loop that marks the entries, or
at its end. -/
inductive MallocPoint
  | search (memory : Memory) (point : SearchPoint)
  | mark (memory : Memory) (freeStart cur : Nat)
  | returned (ptr : Nat) (memory : Memory)

/-- One step of `heap_malloc_blocks`, and the entries it reads or writes. -/
def heapMallocStep (heap : Heap) (blocks : Int) : MallocPoint → Option (MallocPoint × List Nat)
  | .search memory (.returned (some freeStart)) =>
    if freeStart ≠ 0 then some (.mark memory freeStart freeStart, []) else some (.returned 0 memory, [])
  | .search memory (.returned none) => some (.returned 0 memory, [])
  | .search memory point =>
    (findFreeBlockStartStep heap memory blocks point).map fun next => (.search memory next.1, next.2)
  | .mark memory freeStart cur =>
    let finish := uint32 (freeStart + blocks)
    if cur < finish then
      some (.mark (store memory cur (takenEntry freeStart finish cur)) freeStart (cur + 1), [cur])
    else
      let blockStart : Int := freeStart - heap.table.entries
      some (.returned (uint32 (heap.startAddr + blockStart * kernelHeapBlockSize)) memory, [])
  | .returned _ _ => none

/-- Where a call of `heap_free` stands: before a turn of its loop, or at its end. -/
inductive FreePoint
  | clear (memory : Memory) (entry curDataBlock : Nat)
  | returned (memory : Memory)

/-- One turn of the loop: it writes the entry and reads the has-next bit of the one behind. -/
def heapFreeStep : FreePoint → Option (FreePoint × List Nat)
  | .clear memory entry curDataBlock =>
    let memory := memset memory curDataBlock 0 4096
    let memory := store memory entry heapBlockTableEntryFree
    let next := uint32 ((entry : Int) + 1)
    if heapTableEntryHasNext memory next then
      some (.clear memory next (uint32 (curDataBlock + kernelHeapBlockSize)), [entry, next])
    else some (.returned memory, [entry, next])
  | .returned _ => none

/-- The count of blocks `heap_malloc` works with. -/
def heapMallocCount (size : Nat) : Int := (int32 (heapAlignToUpper size)).tdiv kernelHeapBlockSize

/-- Where a call of `heap_malloc` starts: at the scan from the first entry. -/
def heapMallocStart (heap : Heap) (memory : Memory) : MallocPoint :=
  .search memory (.next heap.table.entries)

/-- Where a call of `heap_free` starts. -/
def heapFreeStart (heap : Heap) (memory : Memory) (ptr : Nat) : FreePoint :=
  let blockStart := (int32 ((ptr : Int) - heap.startAddr)).tdiv kernelHeapBlockSize
  .clear memory (uint32 (heap.table.entries + blockStart)) ptr

section Machine

variable {heap : Heap} {memory : Memory} {blocks : Int}

/-- A step of the search is a step of the call. -/
theorem search_follows (point : SearchPoint) (next : SearchPoint) (reads : List Nat)
    (step : findFreeBlockStartStep heap memory blocks point = some (next, reads)) :
    heapMallocStep heap blocks (.search memory point) = some (.search memory next, reads) := by
  cases point with
  | returned => cases step
  | next p => simp only [heapMallocStep, step, Option.map_some]
  | candidate curStart => simp only [heapMallocStep, step, Option.map_some]
  | test curStart curEnd cur => simp only [heapMallocStep, step, Option.map_some]

/-- The marking loop writes one entry after the other, and halts with what the fold stores. -/
theorem mark_computes {freeStart finish : Nat} (bound : finish = uint32 (freeStart + blocks)) :
    ∀ (left cur : Nat) (memory : Memory), finish - cur = left →
      Computes (heapMallocStep heap blocks) (.mark memory freeStart cur) (List.range' cur left)
        (.returned (uint32 (heap.startAddr + ((freeStart : Int) - heap.table.entries) * kernelHeapBlockSize))
          ((List.range' cur left).foldl
            (fun memory cur => store memory cur (takenEntry freeStart finish cur)) memory)) := by
  intro left
  induction left with
  | zero =>
    intro cur memory size
    have ends : heapMallocStep heap blocks (.mark memory freeStart cur) = some (.returned (uint32
        (heap.startAddr + ((freeStart : Int) - heap.table.entries) * kernelHeapBlockSize)) memory, []) := by
      rw [heapMallocStep, ← bound, if_neg (by omega)]
    exact .silent ends (.halts rfl)
  | succ left ih =>
    intro cur memory size
    have turn : heapMallocStep heap blocks (.mark memory freeStart cur) =
        some (.mark (store memory cur (takenEntry freeStart finish cur)) freeStart (cur + 1), [cur]) := by
      rw [heapMallocStep, ← bound, if_pos (by omega)]
    rw [List.range'_succ, List.foldl_cons]
    exact .goes turn (ih (cur + 1) (store memory cur (takenEntry freeStart finish cur)) (by omega))

/-- **A call of `heap_malloc` halts** with what `heapMalloc` returns. -/
theorem malloc_computes (top : heap.table.entries + heap.table.size < 4294967296) (size : Nat) :
    ∃ accesses, Computes (heapMallocStep heap (heapMallocCount size)) (heapMallocStart heap memory) accesses
      (.returned (heapMalloc heap memory size).1 (heapMalloc heap memory size).2) := by
  have result : heapMalloc heap memory size = heapMallocBlocks heap memory (heapMallocCount size) := rfl
  rw [result]
  generalize heapMallocCount size = blocks
  obtain ⟨reads, search⟩ := @search_computes heap memory blocks top
  suffices rest : ∃ writes, Computes (heapMallocStep heap blocks)
      (.search memory (.returned (findFreeBlockStart heap memory blocks))) writes
      (.returned (heapMallocBlocks heap memory blocks).1 (heapMallocBlocks heap memory blocks).2) by
    obtain ⟨writes, rest⟩ := rest
    exact ⟨_, @Computes.embed _ _ _ _ _ (MallocPoint.search memory) search_follows _ _ _ _ _ search rest⟩
  rw [heapMallocBlocks]
  cases findFreeBlockStart heap memory blocks with
  | none => exact ⟨_, .silent rfl (.halts rfl)⟩
  | some freeStart =>
    by_cases null : freeStart = 0
    · subst null
      exact ⟨_, .silent rfl (.halts rfl)⟩
    · dsimp only
      rw [if_pos null]
      exact ⟨_, .silent (if_pos null) (mark_computes rfl _ freeStart memory rfl)⟩

/-- A turn after which the loop goes on. -/
theorem heapFreeStep_goes {entry block : Nat}
    (goes : heapTableEntryHasNext (store (memset memory block 0 4096) entry heapBlockTableEntryFree)
      (uint32 ((entry : Int) + 1)) = true) :
    heapFreeStep (.clear memory entry block) =
      some (.clear (store (memset memory block 0 4096) entry heapBlockTableEntryFree)
        (uint32 ((entry : Int) + 1)) (uint32 (block + kernelHeapBlockSize)),
        [entry, uint32 ((entry : Int) + 1)]) := by
  rw [heapFreeStep, if_pos goes]

/-- The last turn. -/
theorem heapFreeStep_ends {entry block : Nat}
    (ends : heapTableEntryHasNext (store (memset memory block 0 4096) entry heapBlockTableEntryFree)
      (uint32 ((entry : Int) + 1)) = false) :
    heapFreeStep (.clear memory entry block) =
      some (.returned (store (memset memory block 0 4096) entry heapBlockTableEntryFree),
        [entry, uint32 ((entry : Int) + 1)]) := by
  rw [heapFreeStep, if_neg (Bool.eq_false_iff.mp ends)]

/-- The loop halts with what `heapFreeLoop` returns. -/
theorem freeLoop_computes :
    ∀ {turns : Nat} {memory memory' : Memory} {entry block : Nat},
      heapFreeLoop turns memory entry block = some memory' →
      ∃ accesses, Computes heapFreeStep (.clear memory entry block) accesses (.returned memory') := by
  intro turns
  induction turns with
  | zero =>
    intro memory memory' entry block call
    cases call
  | succ turns ih =>
    intro memory memory' entry block call
    rw [heapFreeLoop] at call
    split_ifs at call with goes
    · obtain ⟨accesses, computes⟩ := ih call
      exact ⟨_, .goes (heapFreeStep_goes goes) computes⟩
    · cases call
      exact ⟨_, .goes (heapFreeStep_ends (Bool.eq_false_iff.mpr goes)) (.halts rfl)⟩

theorem hasNext_of_zero {address : Nat} (zero : memory address = 0) :
    heapTableEntryHasNext memory address = false := by
  rw [heapTableEntryHasNext, zero]
  rfl

/-- The loop stops in front of a zero entry at the latest. -/
theorem heapFreeLoop_stops :
    ∀ (turns : Nat) (memory : Memory) (entry block : Nat), memory (uint32 ((entry : Int) + turns + 1)) = 0 →
      ∃ memory', heapFreeLoop (turns + 1) memory entry block = some memory' := by
  intro turns
  induction turns with
  | zero =>
    intro memory entry block zero
    have stops := hasNext_of_zero (@clear_turn_zero memory _ entry block zero)
    rw [Nat.cast_zero, Int.add_zero] at stops
    rw [heapFreeLoop]
    simp only [stops, Bool.false_eq_true, if_false]
    exact ⟨_, rfl⟩
  | succ turns ih =>
    intro memory entry block zero
    rw [heapFreeLoop]
    split_ifs
    · refine ih _ _ _ ?_
      have place : uint32 ((uint32 ((entry : Int) + 1) : Int) + turns + 1) =
          uint32 ((entry : Int) + ((turns + 1 : Nat) : Int) + 1) := by
        unfold uint32
        omega
      rw [place]
      exact clear_turn_zero zero
    · exact ⟨_, rfl⟩

/-- **`heap_free` ends**: the loop meets a clear entry, at the latest the one it has cleared first. -/
theorem heapFree_terminates (memory : Memory) (ptr : Nat) :
    ∃ memory', heapFree heap memory ptr = some memory' := by
  unfold heapFree
  dsimp only
  generalize (int32 ((ptr : Int) - heap.startAddr)).tdiv kernelHeapBlockSize = blockStart
  have below := uint32_lt (heap.table.entries + blockStart)
  generalize uint32 (heap.table.entries + blockStart) = entry at below
  rw [show heapFreeTurns = 4294967294 + 1 + 1 from rfl, heapFreeLoop]
  split_ifs
  · refine heapFreeLoop_stops 4294967294 _ _ _ ?_
    have back : uint32 ((uint32 ((entry : Int) + 1) : Int) + (4294967294 : Nat) + 1) = entry := by
      unfold uint32
      omega
    rw [back]
    exact store_same _ _ _
  · exact ⟨_, rfl⟩

/-- **A call of `heap_free` halts** with what `heapFree` returns. -/
theorem free_computes (heap : Heap) (memory : Memory) (ptr : Nat) :
    ∃ memory' accesses, heapFree heap memory ptr = some memory' ∧
      Computes heapFreeStep (heapFreeStart heap memory ptr) accesses (.returned memory') := by
  obtain ⟨memory', call⟩ := @heapFree_terminates heap memory ptr
  obtain ⟨accesses, computes⟩ := freeLoop_computes call
  exact ⟨memory', accesses, call, computes⟩

end Machine

end KernelPlay.BlockHeap
