/-
**The table entries that `heapMalloc` and `heapFree` read and write.**

* `mallocInside_iff` — a request stays in the table exactly if it fits, or if a free entry from which it
  reaches the end of the address space is found before the scan has left the table.
* `freeInside_iff` — a free stays in the table exactly if its block is near and some later entry of the
  table has no has-next bit; for a chain of two blocks or more that is so (`freeInside_chain`).
* `heap_accesses_fails` — on a full table a request, and the free of the last block, read the entry behind.
-/

import KernelPlay.Heap.Calls
import KernelPlay.Heap.Reserve

namespace KernelPlay.BlockHeap

open KernelPlay.Library

/-! ### Staying in the table -/

/-- An entry of the table. -/
def IsEntry (heap : Heap) (address : Nat) : Prop :=
  ∃ index, index < heap.table.size ∧ address = heap.table.entries + index

/-- **The call of `heap_malloc` ends, and reads and writes entries of the table only.** -/
def MallocInside (heap : Heap) (memory : Memory) (size : Nat) : Prop :=
  HaltsWithin (heapMallocStep heap (heapMallocCount size)) (IsEntry heap) (heapMallocStart heap memory)

/-- **The call of `heap_free` ends, and reads and writes entries of the table only.** -/
def FreeInside (heap : Heap) (memory : Memory) (ptr : Nat) : Prop :=
  HaltsWithin heapFreeStep (IsEntry heap) (heapFreeStart heap memory ptr)

/-! ### A request -/

/-- A taken entry of the table cuts the candidate off before it has all its blocks. -/
def CutOff (heap : Heap) (memory : Memory) (blocks first : Nat) : Prop :=
  ∃ index, index < blocks ∧ first + index < heap.table.size ∧
    isFreeBlock memory (heap.table.entries + first + index) = false

/-- The search ends at this candidate and has read entries of the table only: its blocks are a free run, or
they reach the end of the address space and none is read. -/
def EndsInside (heap : Heap) (memory : Memory) (blocks first : Nat) : Prop :=
  FreeRun heap memory blocks first ∨
    first < heap.table.size ∧ isFreeBlock memory (heap.table.entries + first) = true ∧
      4294967296 ≤ heap.table.entries + first + blocks

/-- A free entry from which the request reaches the end of the address space is found before the scan has left
the table. -/
def WrapsInside (heap : Heap) (memory : Memory) (blocks : Nat) : Prop :=
  ∃ first, first < heap.table.size ∧ isFreeBlock memory (heap.table.entries + first) = true ∧
    4294967296 ≤ heap.table.entries + first + blocks ∧
    ∀ earlier, earlier < first → isFreeBlock memory (heap.table.entries + earlier) = true →
      CutOff heap memory blocks earlier

/-- From this point on, the call ends and its accesses are in the table. -/
def StaysInside (heap : Heap) (blocks : Nat) (point : MallocPoint) : Prop :=
  HaltsWithin (heapMallocStep heap blocks) (IsEntry heap) point

section Request

variable {heap : Heap} {memory : Memory} {blocks : Nat}

theorem isEntry_iff {address : Nat} :
    IsEntry heap address ↔
      heap.table.entries ≤ address ∧ address < heap.table.entries + heap.table.size := by
  constructor
  · rintro ⟨index, below, rfl⟩
    omega
  · rintro ⟨low, high⟩
    exact ⟨address - heap.table.entries, by omega, by omega⟩

/-- A step that reads nothing. -/
theorem staysInside_silent {point next : MallocPoint}
    (step : heapMallocStep heap blocks point = some (next, [])) :
    StaysInside heap blocks point ↔ StaysInside heap blocks next := by
  refine (haltsWithin_step step).trans (and_iff_right fun address member => ?_)
  exact absurd member List.not_mem_nil

/-- A step that reads or writes one entry. -/
theorem staysInside_access {point next : MallocPoint} {entry : Nat}
    (step : heapMallocStep heap blocks point = some (next, [entry])) :
    StaysInside heap blocks point ↔ IsEntry heap entry ∧ StaysInside heap blocks next := by
  refine (haltsWithin_step step).trans (and_congr_left fun _ => ?_)
  simp only [List.mem_singleton, forall_eq]

/-- The candidate found is marked, in the table if all its entries are. -/
theorem found_inside {freeStart : Nat} (inside : ∀ entry, freeStart ≤ entry →
      entry < uint32 ((freeStart : Int) + blocks) → IsEntry heap entry) :
    StaysInside heap blocks (.search memory (.returned (some freeStart))) := by
  by_cases null : freeStart = 0
  · subst null
    exact (staysInside_silent rfl).mpr (haltsWithin_halted rfl)
  have step : heapMallocStep heap blocks (.search memory (.returned (some freeStart))) =
      some (.mark memory freeStart freeStart, []) := if_pos null
  refine (staysInside_silent step).mpr ⟨_, _, mark_computes rfl _ freeStart memory rfl,
    fun entry member => ?_⟩
  obtain ⟨low, high⟩ := List.mem_range'_1.mp member
  exact inside entry low (by omega)

/-! #### The test of a candidate -/

section Test

variable {curStart curEnd : Nat}

/-- A free entry in front of the end is passed. -/
theorem test_goes {cur : Nat} (below : cur < curEnd) (free : isFreeBlock memory cur = true) :
    StaysInside heap blocks (.search memory (.test curStart curEnd cur)) ↔
      IsEntry heap cur ∧ StaysInside heap blocks (.search memory (.test curStart curEnd (cur + 1))) :=
  staysInside_access (search_follows _ _ _ (step_test_goes below free))

/-- A taken one ends the test. -/
theorem test_fails {cur : Nat} (below : cur < curEnd) (taken : isFreeBlock memory cur = false) :
    StaysInside heap blocks (.search memory (.test curStart curEnd cur)) ↔
      IsEntry heap cur ∧ StaysInside heap blocks (.search memory (.next (curStart + 1))) :=
  staysInside_access (search_follows _ _ _ (step_test_fails below taken))

/-- Free entries of the table up to the end of the candidate: it is found. -/
theorem test_inside_free :
    ∀ (left cur : Nat), curEnd - cur = left →
      (∀ entry, cur ≤ entry → entry < curEnd → IsEntry heap entry ∧ isFreeBlock memory entry = true) →
      StaysInside heap blocks (.search memory (.returned (some curStart))) →
      StaysInside heap blocks (.search memory (.test curStart curEnd cur)) := by
  intro left
  induction left with
  | zero =>
    intro cur size _ found
    exact (staysInside_silent (search_follows _ _ _ (step_test_ends (by omega)))).mpr found
  | succ left ih =>
    intro cur size all found
    obtain ⟨inside, free⟩ := all cur le_rfl (by omega)
    refine (test_goes (by omega) free).mpr ⟨inside, ih _ (by omega) ?_ found⟩
    exact fun entry low high => all entry (by omega) high

/-- A taken entry of the table before the end of the candidate: the scan goes on. -/
theorem test_inside_taken {stop : Nat} (below : stop < curEnd) (taken : isFreeBlock memory stop = false) :
    ∀ (left cur : Nat), stop - cur = left → cur ≤ stop →
      (∀ entry, cur ≤ entry → entry ≤ stop → IsEntry heap entry) →
      (StaysInside heap blocks (.search memory (.test curStart curEnd cur)) ↔
        StaysInside heap blocks (.search memory (.next (curStart + 1)))) := by
  intro left
  induction left with
  | zero =>
    intro cur size before inside
    obtain rfl : cur = stop := by omega
    exact (test_fails below taken).trans (and_iff_right (inside cur le_rfl le_rfl))
  | succ left ih =>
    intro cur size before inside
    have here := inside cur le_rfl before
    cases free : isFreeBlock memory cur with
    | true =>
      refine (test_goes (by omega) free).trans ((and_iff_right here).trans ?_)
      exact ih (cur + 1) (by omega) (by omega) fun entry low high => inside entry (by omega) high
    | false =>
      exact (test_fails (by omega) free).trans (and_iff_right here)

/-- Free entries up to the end of the table, and a candidate that goes on behind it: the entry behind the
table is read. -/
theorem test_leaves (beyond : heap.table.entries + heap.table.size < curEnd) :
    ∀ (left cur : Nat), heap.table.entries + heap.table.size - cur = left →
      (∀ entry, cur ≤ entry → entry < heap.table.entries + heap.table.size →
        isFreeBlock memory entry = true) →
      cur ≤ heap.table.entries + heap.table.size →
      ¬ StaysInside heap blocks (.search memory (.test curStart curEnd cur)) := by
  intro left
  induction left with
  | zero =>
    intro cur size _ before stays
    have read : IsEntry heap cur := by
      cases free : isFreeBlock memory cur with
      | true => exact ((test_goes (by omega) free).mp stays).1
      | false => exact ((test_fails (by omega) free).mp stays).1
    have inside := isEntry_iff.mp read
    omega
  | succ left ih =>
    intro cur size all before stays
    have free := all cur le_rfl (by omega)
    refine ih (cur + 1) (by omega) (fun entry low high => all entry (by omega) high) (by omega) ?_
    exact ((test_goes (by omega) free).mp stays).2

end Test

/-! #### The scan -/

/-- A taken entry of the table is passed. -/
theorem next_goes {p : Nat} (below : p < heap.table.finish) (taken : isFreeBlock memory p = false) :
    StaysInside heap blocks (.search memory (.next p)) ↔
      IsEntry heap p ∧ StaysInside heap blocks (.search memory (.next (p + 1))) :=
  staysInside_access (search_follows _ _ _ (step_next_goes below taken))

/-- A free entry of the table is tested. -/
theorem next_tests {p : Nat} (below : p < heap.table.finish) (free : isFreeBlock memory p = true) :
    StaysInside heap blocks (.search memory (.next p)) ↔
      IsEntry heap p ∧
        StaysInside heap blocks (.search memory (.test p (uint32 ((p : Int) + blocks)) p)) := by
  refine (staysInside_access (search_follows _ _ _ (step_next_stops (.inl free)))).trans ?_
  refine and_congr_right fun _ => ?_
  exact staysInside_silent (search_follows _ _ _ (step_candidate_tests below))

/-- The scan reads the entry behind the table when it gets there. -/
theorem next_leaves (top : heap.table.entries + heap.table.size < 4294967296) :
    ¬ StaysInside heap blocks (.search memory (.next (heap.table.entries + heap.table.size))) := by
  intro stays
  have behind : heap.table.finish ≤ heap.table.entries + heap.table.size := (finish_eq top).le
  have stops := search_follows _ _ _ (@step_next_stops heap memory blocks _ (.inr behind))
  have read := isEntry_iff.mp ((staysInside_access stops).mp stays).1
  omega

/-- From this entry on, the search ends inside the table. -/
def FindsInside (heap : Heap) (memory : Memory) (blocks start : Nat) : Prop :=
  ∃ first, start ≤ first ∧ EndsInside heap memory blocks first ∧
    ∀ earlier, start ≤ earlier → earlier < first →
      isFreeBlock memory (heap.table.entries + earlier) = true → CutOff heap memory blocks earlier

/-- An entry that is passed over. -/
theorem findsInside_skip {start : Nat} (passed : ¬ EndsInside heap memory blocks start)
    (cut : isFreeBlock memory (heap.table.entries + start) = true → CutOff heap memory blocks start) :
    FindsInside heap memory blocks start ↔ FindsInside heap memory blocks (start + 1) := by
  constructor
  · rintro ⟨first, from_start, ends, before⟩
    have later : start ≠ first := by
      rintro rfl
      exact passed ends
    exact ⟨first, by omega, ends, fun earlier low high => before earlier (by omega) high⟩
  · rintro ⟨first, from_next, ends, before⟩
    refine ⟨first, by omega, ends, fun earlier low high free => ?_⟩
    rcases Nat.eq_or_lt_of_le low with rfl | behind
    · exact cut free
    · exact before earlier behind high free

/-- A search that ends here ends inside. -/
theorem findsInside_here {start : Nat} (ends : EndsInside heap memory blocks start) :
    FindsInside heap memory blocks start :=
  ⟨start, le_rfl, ends, fun earlier low high => by omega⟩

theorem EndsInside.inside (some_block : 0 < blocks) {first : Nat}
    (ends : EndsInside heap memory blocks first) :
    first < heap.table.size ∧ isFreeBlock memory (heap.table.entries + first) = true := by
  rcases ends with ⟨room, all⟩ | ⟨below, free, -⟩
  · exact ⟨by omega, all 0 some_block⟩
  · exact ⟨below, free⟩

/-- A candidate at which the search ends inside is found. -/
theorem candidate_inside (top : heap.table.entries + heap.table.size < 4294967296)
    (small : blocks < 4294967296) {first : Nat} (below : first < heap.table.size)
    (ends : EndsInside heap memory blocks first) :
    StaysInside heap blocks (.search memory
      (.test (heap.table.entries + first) (uint32 (((heap.table.entries + first : Nat) : Int) + blocks))
        (heap.table.entries + first))) := by
  have covered (entry : Nat) (low : heap.table.entries + first ≤ entry)
      (high : entry < uint32 (((heap.table.entries + first : Nat) : Int) + blocks)) :
      IsEntry heap entry ∧ isFreeBlock memory entry = true := by
    rcases ends with ⟨room, all⟩ | ⟨-, -, wraps⟩
    · rw [← Nat.cast_add, uint32_natCast (by omega)] at high
      obtain ⟨index, rfl⟩ := Nat.exists_eq_add_of_le low
      exact ⟨isEntry_iff.mpr ⟨by omega, by omega⟩, all index (by omega)⟩
    · unfold uint32 at high
      omega
  refine test_inside_free _ _ rfl covered (found_inside fun entry low high => ?_)
  exact (covered entry low high).1

/-- A candidate that is neither cut off nor found reaches beyond the table. -/
theorem candidate_leaves {first : Nat} (below : first < heap.table.size)
    (free : isFreeBlock memory (heap.table.entries + first) = true)
    (whole : ¬ CutOff heap memory blocks first) (goes_on : ¬ EndsInside heap memory blocks first) :
    ¬ StaysInside heap blocks (.search memory
      (.test (heap.table.entries + first) (uint32 (((heap.table.entries + first : Nat) : Int) + blocks))
        (heap.table.entries + first))) := by
  have fits : heap.table.entries + first + blocks < 4294967296 := by
    by_contra wraps
    exact goes_on (.inr ⟨below, free, by omega⟩)
  have all (index : Nat) (in_request : index < blocks) (in_table : first + index < heap.table.size) :
      isFreeBlock memory (heap.table.entries + first + index) = true := by
    by_contra taken
    exact whole ⟨index, in_request, in_table, Bool.eq_false_iff.mpr taken⟩
  have beyond : heap.table.size < first + blocks := by
    by_contra room
    exact goes_on (.inl ⟨by omega, fun index in_request => all index in_request (by omega)⟩)
  rw [← Nat.cast_add, uint32_natCast fits]
  refine test_leaves (by omega) _ _ rfl (fun entry low high => ?_) (by omega)
  obtain ⟨index, rfl⟩ := Nat.exists_eq_add_of_le low
  exact all index (by omega) (by omega)

/-- **The scan stays in the table** exactly if the search ends inside it. -/
theorem scan_inside_iff (top : heap.table.entries + heap.table.size < 4294967296) (some_block : 0 < blocks)
    (small : blocks < 4294967296) :
    ∀ (left start : Nat), heap.table.size - start = left → start ≤ heap.table.size →
      (StaysInside heap blocks (.search memory (.next (heap.table.entries + start))) ↔
        FindsInside heap memory blocks start) := by
  have finish := finish_eq top
  intro left
  induction left with
  | zero =>
    intro start size before
    obtain rfl : start = heap.table.size := by omega
    refine iff_of_false (next_leaves top) ?_
    rintro ⟨first, behind, ends, -⟩
    have inside := (ends.inside some_block).1
    omega
  | succ left ih =>
    intro start size before
    have below : start < heap.table.size := by omega
    have here : IsEntry heap (heap.table.entries + start) := ⟨start, below, rfl⟩
    have rest := ih (start + 1) (by omega) (by omega)
    cases free : isFreeBlock memory (heap.table.entries + start) with
    | false =>
      have passed : ¬ EndsInside heap memory blocks start := by
        intro ends
        rw [(ends.inside some_block).2] at free
        cases free
      have skip := findsInside_skip passed fun found => absurd (free.symm.trans found) Bool.false_ne_true
      rw [skip, ← rest]
      exact (next_goes (by omega) free).trans (and_iff_right here)
    | true =>
      rw [next_tests (by omega) free, and_iff_right here]
      by_cases ends : EndsInside heap memory blocks start
      · exact iff_of_true (candidate_inside top small below ends) (findsInside_here ends)
      by_cases cut : CutOff heap memory blocks start
      · rw [findsInside_skip ends fun _ => cut, ← rest]
        obtain ⟨index, in_request, in_table, taken⟩ := cut
        have fits : heap.table.entries + start + blocks < 4294967296 := by
          by_contra wraps
          exact ends (.inr ⟨below, free, by omega⟩)
        rw [← Nat.cast_add, uint32_natCast fits]
        refine test_inside_taken (by omega) taken _ _ rfl (by omega) fun entry low high => ?_
        exact isEntry_iff.mpr ⟨by omega, by omega⟩
      · refine iff_of_false (candidate_leaves below free cut ends) ?_
        rintro ⟨first, from_start, ends', passed⟩
        rcases Nat.eq_or_lt_of_le from_start with rfl | behind
        · exact ends ends'
        · exact cut (passed start le_rfl behind free)

/-- In front of the first free run, a free entry is cut off. -/
theorem cutOff_before {first earlier : Nat} (room : first + blocks ≤ heap.table.size) (before : earlier < first)
    (no_run : ¬ FreeRun heap memory blocks earlier) : CutOff heap memory blocks earlier := by
  by_contra whole
  refine no_run ⟨by omega, fun index below => ?_⟩
  by_contra taken
  exact whole ⟨index, below, by omega, Bool.eq_false_iff.mpr taken⟩

/-- **A request stays in the table** exactly if it fits, or it ends at a free entry from which it reaches the
end of the address space. -/
theorem mallocInside_iff (top : heap.table.entries + heap.table.size < 4294967296) {size : Nat}
    (positive : 1 ≤ size) (bounded : size ≤ 2147479552) :
    MallocInside heap memory size ↔ Fits heap memory size ∨ WrapsInside heap memory (blocksOf size) := by
  have some_block := blocksOf_pos positive
  have scan : MallocInside heap memory size ↔ FindsInside heap memory (blocksOf size) 0 := by
    rw [← scan_inside_iff top some_block (blocksOf_small bounded) heap.table.size 0 (by omega) (by omega)]
    unfold MallocInside StaysInside heapMallocCount heapMallocStart
    rw [rounded_eq bounded, Nat.add_zero]
  rw [scan]
  constructor
  · rintro ⟨first, -, run | ⟨below, free, wraps⟩, before⟩
    · exact .inl ⟨first, run⟩
    · exact .inr ⟨first, below, free, wraps, fun earlier => before earlier (by omega)⟩
  · rintro (fits | ⟨first, below, free, wraps, before⟩)
    · classical
      have run := Nat.find_spec fits
      exact ⟨Nat.find fits, by omega, .inl run, fun earlier _ before _ =>
        cutOff_before run.1 before (Nat.find_min fits before)⟩
    · exact ⟨first, by omega, .inr ⟨below, free, wraps⟩, fun earlier _ => before earlier⟩

end Request

/-! ### A free -/

section Free

variable {heap : Heap}

/-- Whatever comes next, a turn reads or writes its entry and the one behind. -/
theorem clear_reads {Meets : Nat → Prop} {memory : Memory} {entry block : Nat}
    (stays : HaltsWithin heapFreeStep Meets (.clear memory entry block)) :
    Meets entry ∧ Meets (uint32 ((entry : Int) + 1)) := by
  have accesses : ∃ next, heapFreeStep (.clear memory entry block) =
      some (next, [entry, uint32 ((entry : Int) + 1)]) := by
    cases goes : heapTableEntryHasNext (store (memset memory block 0 4096) entry heapBlockTableEntryFree)
        (uint32 ((entry : Int) + 1)) with
    | true => exact ⟨_, heapFreeStep_goes goes⟩
    | false => exact ⟨_, heapFreeStep_ends goes⟩
  obtain ⟨next, step⟩ := accesses
  have meets := ((haltsWithin_step step).mp stays).1
  exact ⟨meets _ (List.mem_cons_self ..), meets _ (List.mem_cons_of_mem _ (List.mem_singleton_self _))⟩

/-- One turn on an entry with another one behind it. -/
theorem clear_inside_iff (placed : Placed heap) {memory : Memory} {first : Nat}
    (inside : first + 1 < heap.table.size) :
    HaltsWithin heapFreeStep (IsEntry heap)
        (.clear memory (heap.table.entries + first) (heap.startAddr + 4096 * first)) ↔
      heapTableEntryHasNext memory (heap.table.entries + (first + 1)) = false ∨
        HaltsWithin heapFreeStep (IsEntry heap)
          (.clear (cleared memory (heap.table.entries + first) (heap.startAddr + 4096 * first) 1)
            (heap.table.entries + (first + 1)) (heap.startAddr + 4096 * (first + 1))) := by
  have top := placed.table
  have blocks := placed.blocks
  have apart := placed.apart
  have turn := clear_one memory (heap.table.entries + first) (heap.startAddr + 4096 * first) (by omega)
  have nextEntry : uint32 (((heap.table.entries + first : Nat) : Int) + 1) =
      heap.table.entries + (first + 1) := by
    unfold uint32
    omega
  have nextBlock : uint32 (((heap.startAddr + 4096 * first : Nat) : Int) + kernelHeapBlockSize) =
      heap.startAddr + 4096 * (first + 1) := by
    unfold uint32 kernelHeapBlockSize
    omega
  have accesses : ∀ entry ∈ [heap.table.entries + first, heap.table.entries + (first + 1)],
      IsEntry heap entry := by
    simp only [List.mem_cons, List.not_mem_nil, or_false, forall_eq_or_imp, forall_eq, isEntry_iff]
    omega
  have kept : cleared memory (heap.table.entries + first) (heap.startAddr + 4096 * first) 1
      (heap.table.entries + (first + 1)) = memory (heap.table.entries + (first + 1)) := by
    rw [cleared, if_neg (by omega)]
  cases goes : heapTableEntryHasNext memory (heap.table.entries + (first + 1)) with
  | false =>
    have ends := @heapFreeStep_ends memory (heap.table.entries + first) (heap.startAddr + 4096 * first)
    rw [turn, nextEntry, heapTableEntryHasNext, kept] at ends
    refine iff_of_true ((haltsWithin_step (ends goes)).mpr ⟨accesses, haltsWithin_halted rfl⟩) (.inl rfl)
  | true =>
    have next := @heapFreeStep_goes memory (heap.table.entries + first) (heap.startAddr + 4096 * first)
    rw [turn, nextEntry, nextBlock, heapTableEntryHasNext, kept] at next
    rw [haltsWithin_step (next goes), and_iff_right accesses, or_iff_right Bool.true_eq_false.mp]

/-- **The loop stays in the table** exactly if a later entry of it has no has-next bit. -/
theorem freeLoop_inside_iff (placed : Placed heap) :
    ∀ (left first : Nat) (memory : Memory), heap.table.size - (first + 1) = left → first < heap.table.size →
      (HaltsWithin heapFreeStep (IsEntry heap)
          (.clear memory (heap.table.entries + first) (heap.startAddr + 4096 * first)) ↔
        ∃ index, first < index ∧ index < heap.table.size ∧
          heapTableEntryHasNext memory (heap.table.entries + index) = false) := by
  have top := placed.table
  have apart := placed.apart
  intro left
  induction left with
  | zero =>
    intro first memory size inside
    refine iff_of_false (fun stays => ?_) ?_
    · have behind := isEntry_iff.mp (clear_reads stays).2
      unfold uint32 at behind
      omega
    · rintro ⟨index, low, high, -⟩
      omega
  | succ left ih =>
    intro first memory size inside
    rw [clear_inside_iff placed (by omega), ih (first + 1) _ (by omega) (by omega)]
    have kept (index : Nat) (low : first + 1 < index) (high : index < heap.table.size) :
        heapTableEntryHasNext (cleared memory (heap.table.entries + first) (heap.startAddr + 4096 * first) 1)
          (heap.table.entries + index) = heapTableEntryHasNext memory (heap.table.entries + index) := by
      rw [heapTableEntryHasNext, cleared, if_neg (by omega)]
      rfl
    constructor
    · rintro (stops | ⟨index, low, high, stops⟩)
      · exact ⟨first + 1, by omega, by omega, stops⟩
      · exact ⟨index, by omega, high, kept index low high ▸ stops⟩
    · rintro ⟨index, low, high, stops⟩
      rcases Nat.eq_or_lt_of_le low with rfl | behind
      · exact .inl stops
      · exact .inr ⟨index, behind, high, (kept index behind high).trans stops⟩

/-- **A free stays in the table** exactly if its block is near and a later entry of the table has no has-next
bit. -/
theorem freeInside_iff (placed : Placed heap) {memory : Memory} {first : Nat}
    (inside : first < heap.table.size) :
    FreeInside heap memory (heap.startAddr + 4096 * first) ↔
      4096 * first < 2147483648 ∧ ∃ index, first < index ∧ index < heap.table.size ∧
        heapTableEntryHasNext memory (heap.table.entries + index) = false := by
  have top := placed.table
  have blocks := placed.blocks
  unfold FreeInside heapFreeStart
  dsimp only
  by_cases near : 4096 * first < 2147483648
  · rw [entry_of_ptr placed inside near, and_iff_right near]
    exact freeLoop_inside_iff placed _ first memory rfl inside
  · rw [entry_of_far_ptr placed inside (by omega)]
    refine iff_of_false (fun stays => ?_) fun both => near both.1
    have entry := isEntry_iff.mp (clear_reads stays).1
    unfold uint32 at entry
    omega

/-- A chain of two blocks or more ends inside the table. -/
theorem freeInside_chain (placed : Placed heap) {memory : Memory} {first blocks : Nat} (several : 2 ≤ blocks)
    (room : first + blocks ≤ heap.table.size) (near : 4096 * first < 2147483648)
    (last : memory (heap.table.entries + (first + (blocks - 1))) = chainEntry blocks (blocks - 1)) :
    FreeInside heap memory (heap.startAddr + 4096 * first) := by
  refine (freeInside_iff placed (by omega)).mpr ⟨near, first + (blocks - 1), by omega, by omega, ?_⟩
  have bit : ¬ heapTableEntryHasNext memory (heap.table.entries + (first + (blocks - 1))) = true := by
    rw [heapTableEntryHasNext, decide_eq_true_iff, last, chainEntry_hasNext]
    omega
  exact Bool.eq_false_iff.mpr bit

end Free

/-! ### Both calls -/

section Calls

variable {heap : Heap} {memory : Memory}

/-- **Exactly when the two calls stay in the table**, for every request and for the block of every entry;
each pointer handed out is one of these blocks. -/
theorem heap_accesses_iff (placed : Placed heap) :
    (∀ size, 1 ≤ size → size ≤ 2147479552 →
      (MallocInside heap memory size ↔ Fits heap memory size ∨ WrapsInside heap memory (blocksOf size))) ∧
    (∀ first, first < heap.table.size →
      (FreeInside heap memory (heap.startAddr + 4096 * first) ↔
        4096 * first < 2147483648 ∧ ∃ index, first < index ∧ index < heap.table.size ∧
          heapTableEntryHasNext memory (heap.table.entries + index) = false)) ∧
    ∀ before size, size < 4294967296 → (heapMalloc heap before size).1 ≠ 0 →
      ∃ first, first < heap.table.size ∧ (heapMalloc heap before size).1 = heap.startAddr + 4096 * first := by
  refine ⟨fun size positive bounded => mallocInside_iff placed.table positive bounded,
    fun first inside => freeInside_iff placed inside, fun before size small nonnull => ?_⟩
  obtain ⟨first, inside, pointer, -⟩ := handed_out_free placed small nonnull
  exact ⟨first, inside, pointer⟩

theorem heap_accesses_iff_small :
    MallocInside smallHeap smallStart 8192 ∧ FreeInside smallHeap smallMemory 0x01000000 := by
  have malloc := (@heap_accesses_iff smallHeap smallStart smallHeap_placed).1 8192 (by decide) (by decide)
  have free := (@heap_accesses_iff smallHeap smallMemory smallHeap_placed).2.1 0 (by decide)
  exact ⟨malloc.mpr (.inl ⟨0, by decide⟩),
    free.mpr ⟨by decide, 3, by decide, by decide, by decide⟩⟩

/-- Three blocks, and one block on the last entry. -/
def fullMemory : Memory := (heapMalloc smallHeap (heapMalloc smallHeap smallStart 12288).2 1).2

/-- **On a full table both calls leave it**: `heap_malloc` finds no free entry, and the free of the single
block at the last entry looks for the has-next bit behind it. -/
theorem heap_accesses_fails :
    (heapMalloc smallHeap (heapMalloc smallHeap smallStart 12288).2 1).1 = 0x01003000 ∧
      ¬ MallocInside smallHeap fullMemory 1 ∧ ¬ FreeInside smallHeap fullMemory 0x01003000 := by
  have full : ∀ index, index < 4 → isFreeBlock fullMemory (smallHeap.table.entries + index) = false := by
    decide
  refine ⟨by decide, fun stays => ?_, fun stays => ?_⟩
  · rcases (mallocInside_iff smallHeap_placed.table (by decide) (by decide)).mp stays with
      ⟨first, room, all⟩ | ⟨first, below, free, -⟩
    · have room : first + 1 ≤ 4 := room
      have taken := full first (by omega)
      have free := all 0 (by decide)
      rw [Nat.add_zero, taken] at free
      cases free
    · rw [full first below] at free
      cases free
  · obtain ⟨-, index, low, high, -⟩ :=
      (@freeInside_iff smallHeap smallHeap_placed fullMemory 3 (by decide)).mp stays
    have high : index < 4 := high
    omega

end Calls

end KernelPlay.BlockHeap
