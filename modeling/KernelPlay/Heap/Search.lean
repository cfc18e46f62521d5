/-
**First fit: what `findFreeBlockStart` returns.**

* `FreeRun heap memory blocks first` — `blocks` free entries from `first` on, all in the table.
* `Accepted heap memory blocks first` — the candidate passes the test, which compares only its first
  entry with the end of the table (`accepted_iff`). `findFreeBlockStart_accepted` — the search returns
  the first candidate accepted.
* `findFreeBlockStart_first` — for at least one block, when some run is free the search returns
  the first one.
* `findFreeBlockStart_zero` — for no block at all it returns a free entry of the table, or nothing.
-/

import KernelPlay.Heap.Allocator

namespace KernelPlay.BlockHeap

open KernelPlay.Library

/-- The one-past-the-end pointers of the table and of the blocks exist, and no byte is in both. -/
structure Placed (heap : Heap) : Prop where
  table : heap.table.entries + heap.table.size < 4294967296
  blocks : heap.startAddr + 4096 * heap.table.size < 4294967296
  apart : heap.table.entries + heap.table.size ≤ heap.startAddr ∨
    heap.startAddr + 4096 * heap.table.size ≤ heap.table.entries

/-- `blocks` entries of the table, free from `first` on. -/
def FreeRun (heap : Heap) (memory : Memory) (blocks first : Nat) : Prop :=
  first + blocks ≤ heap.table.size ∧
    ∀ index, index < blocks → isFreeBlock memory (heap.table.entries + first + index) = true

instance (heap : Heap) (memory : Memory) (blocks first : Nat) :
    Decidable (FreeRun heap memory blocks first) := by
  unfold FreeRun
  infer_instance

section Search

variable {heap : Heap} {memory : Memory} {blocks : Nat}

theorem finish_eq (top : heap.table.entries + heap.table.size < 4294967296) :
    heap.table.finish = heap.table.entries + heap.table.size := by
  rw [HeapTable.finish, ← Nat.cast_add, uint32_natCast top]

/-- The scan stops at the first free entry, or at the end of the table. -/
theorem findNextFreeBlock_spec (memory : Memory) (finish : Nat) :
    ∀ turns p, p ≤ finish → finish - p ≤ turns →
      p ≤ findNextFreeBlock memory finish turns p ∧
      findNextFreeBlock memory finish turns p ≤ finish ∧
      (∀ q, p ≤ q → q < findNextFreeBlock memory finish turns p → isFreeBlock memory q = false) ∧
      (findNextFreeBlock memory finish turns p < finish →
        isFreeBlock memory (findNextFreeBlock memory finish turns p) = true)
  | 0, p, below, turns => by
      rw [findNextFreeBlock]
      exact ⟨le_rfl, below, fun q low high => by omega, fun high => by omega⟩
  | turns + 1, p, below, enough => by
      rw [findNextFreeBlock]
      cases free : isFreeBlock memory p with
      | true =>
        simp only [Bool.not_true, Bool.false_and, Bool.false_eq_true, if_false]
        exact ⟨le_rfl, below, fun q low high => by omega, fun _ => free⟩
      | false =>
        by_cases inside : p < finish
        · simp only [Bool.not_false, Bool.true_and, inside, decide_true, if_true]
          obtain ⟨low, high, skipped, found⟩ :=
            findNextFreeBlock_spec memory finish turns (p + 1) (by omega) (by omega)
          refine ⟨by omega, high, fun q from_p below_q => ?_, found⟩
          rcases Nat.eq_or_lt_of_le from_p with rfl | behind
          · exact free
          · exact skipped q behind below_q
        · simp only [Bool.not_false, Bool.true_and, inside, decide_false, Bool.false_eq_true,
            if_false]
          exact ⟨le_rfl, below, fun q low high => by omega, fun high => high.elim⟩

/-- The search takes `blocks` entries from this one, a free entry of the table. -/
def Candidate (heap : Heap) (memory : Memory) (blocks : Int) (first : Nat) : Prop :=
  first < heap.table.size ∧ isFreeBlock memory (heap.table.entries + first) = true ∧
    isFreeBlocks memory (heap.table.entries + first)
      (uint32 ((heap.table.entries + first : Nat) + blocks)) heap.table.finish = true

/-- The entries read for a candidate. -/
def tested (heap : Heap) (blocks : Int) (first : Nat) : Nat :=
  uint32 ((heap.table.entries + first : Nat) + blocks) - (heap.table.entries + first)

theorem candidate_iff (top : heap.table.entries + heap.table.size < 4294967296) {blocks : Int} {first : Nat} :
    Candidate heap memory blocks first ↔
      first < heap.table.size ∧ isFreeBlock memory (heap.table.entries + first) = true ∧
        ∀ index, index < tested heap blocks first →
          isFreeBlock memory (heap.table.entries + first + index) = true := by
  unfold Candidate tested
  refine and_congr_right fun inside => and_congr_right fun free => ?_
  rw [isFreeBlocks, finish_eq top, if_neg (by omega), List.all_eq_true]
  generalize uint32 (((heap.table.entries + first : Nat) : Int) + blocks) - (heap.table.entries + first) = count
  simp only [List.mem_range'_1]
  constructor
  · exact fun all index below => all _ ⟨by omega, by omega⟩
  · rintro all entry ⟨low, high⟩
    obtain ⟨index, rfl⟩ := Nat.exists_eq_add_of_le low
    exact all index (by omega)

/-- A free entry of the table from which the search takes `blocks` entries. -/
def Accepted (heap : Heap) (memory : Memory) (blocks first : Nat) : Prop :=
  first < heap.table.size ∧ isFreeBlock memory (heap.table.entries + first) = true ∧
    isFreeBlocks memory (heap.table.entries + first)
      (uint32 ((heap.table.entries + first : Nat) + (blocks : Int))) heap.table.finish = true

/-- **The test of a candidate** reads `blocks` entries, in the table or behind it, and none if they reach
the end of the address space. -/
theorem accepted_iff (top : heap.table.entries + heap.table.size < 4294967296) (small : blocks < 4294967296)
    {first : Nat} :
    Accepted heap memory blocks first ↔
      first < heap.table.size ∧ isFreeBlock memory (heap.table.entries + first) = true ∧
        (heap.table.entries + first + blocks < 4294967296 → ∀ index, index < blocks →
          isFreeBlock memory (heap.table.entries + first + index) = true) := by
  refine (candidate_iff top).trans (and_congr_right fun inside => and_congr_right fun free => ?_)
  unfold tested
  by_cases room : heap.table.entries + first + blocks < 4294967296
  · rw [← Nat.cast_add, uint32_natCast room, Nat.add_sub_cancel_left]
    simp only [room, true_imp_iff]
  · have wrapped : uint32 ((heap.table.entries + first : Nat) + (blocks : Int)) - (heap.table.entries + first)
        = 0 := by
      unfold uint32
      omega
    rw [wrapped]
    simp [room]

/-- **The search returns the first candidate**, or there is none. -/
theorem findFreeBlockStartLoop_candidate (top : heap.table.entries + heap.table.size < 4294967296)
    {blocks : Int} :
    ∀ turns cur, heap.table.entries ≤ cur → cur ≤ heap.table.finish →
      heap.table.finish - cur < turns →
      (cur < heap.table.finish → isFreeBlock memory cur = true) →
      (∀ earlier, heap.table.entries + earlier < cur → ¬ Candidate heap memory blocks earlier) →
      (findFreeBlockStartLoop memory heap.table.finish blocks turns cur = none ∧
          ∀ first, ¬ Candidate heap memory blocks first) ∨
        ∃ first, findFreeBlockStartLoop memory heap.table.finish blocks turns cur =
            some (heap.table.entries + first) ∧ Candidate heap memory blocks first ∧
          ∀ earlier, earlier < first → ¬ Candidate heap memory blocks earlier := by
  have finish := finish_eq top
  intro turns
  induction turns with
  | zero => exact fun cur _ _ enough => absurd enough (Nat.not_lt_zero _)
  | succ turns ih =>
    intro cur low high enough free passed
    rw [findFreeBlockStartLoop]
    by_cases inside : cur < heap.table.finish
    swap
    · rw [if_neg inside]
      exact .inl ⟨rfl, fun first accepted => passed first (by have := accepted.1; omega) accepted⟩
    rw [if_pos inside]
    obtain ⟨first, rfl⟩ := Nat.exists_eq_add_of_le low
    by_cases test : isFreeBlocks memory (heap.table.entries + first)
        (uint32 ((heap.table.entries + first : Nat) + blocks)) heap.table.finish = true
    · rw [if_pos test]
      exact .inr ⟨first, rfl, ⟨by omega, free inside, test⟩, fun earlier before => passed _ (by omega)⟩
    · rw [if_neg test]
      obtain ⟨from_next, to_end, skipped, found⟩ := findNextFreeBlock_spec memory heap.table.finish
        (heap.table.finish - (heap.table.entries + first)) (heap.table.entries + first + 1) (by omega)
        (by omega)
      refine ih _ (by omega) to_end (by omega) found fun earlier before accepted => ?_
      rcases lt_trichotomy earlier first with below | rfl | behind
      · exact passed earlier (by omega) accepted
      · exact test accepted.2.2
      · have taken := skipped (heap.table.entries + earlier) (by omega) before
        rw [accepted.2.1] at taken
        cases taken

theorem findFreeBlockStart_candidate (top : heap.table.entries + heap.table.size < 4294967296)
    {blocks : Int} :
    (findFreeBlockStart heap memory blocks = none ∧ ∀ first, ¬ Candidate heap memory blocks first) ∨
      ∃ first, findFreeBlockStart heap memory blocks = some (heap.table.entries + first) ∧
        Candidate heap memory blocks first ∧
        ∀ earlier, earlier < first → ¬ Candidate heap memory blocks earlier := by
  have finish := finish_eq top
  obtain ⟨low, high, skipped, found⟩ := findNextFreeBlock_spec memory
    heap.table.finish heap.table.size heap.table.entries (by omega) (by omega)
  unfold findFreeBlockStart
  refine findFreeBlockStartLoop_candidate top _ _ low high (by omega) found fun earlier before accepted => ?_
  have taken := skipped (heap.table.entries + earlier) (by omega) before
  rw [accepted.2.1] at taken
  cases taken

theorem findFreeBlockStart_accepted (top : heap.table.entries + heap.table.size < 4294967296) :
    (findFreeBlockStart heap memory blocks = none ∧ ∀ first, ¬ Accepted heap memory blocks first) ∨
      ∃ first, findFreeBlockStart heap memory blocks = some (heap.table.entries + first) ∧
        Accepted heap memory blocks first ∧
        ∀ earlier, earlier < first → ¬ Accepted heap memory blocks earlier :=
  findFreeBlockStart_candidate top

/-- An accepted candidate that leaves room for its blocks is a free run. -/
theorem Accepted.freeRun (top : heap.table.entries + heap.table.size < 4294967296) {first : Nat}
    (accepted : Accepted heap memory blocks first) (room : first + blocks ≤ heap.table.size) :
    FreeRun heap memory blocks first := by
  obtain ⟨-, -, all⟩ := (accepted_iff top (by omega)).mp accepted
  exact ⟨room, all (by omega)⟩

theorem FreeRun.accepted (top : heap.table.entries + heap.table.size < 4294967296) {first : Nat}
    (some_block : 0 < blocks) (run : FreeRun heap memory blocks first) : Accepted heap memory blocks first := by
  obtain ⟨room, all⟩ := run
  exact (accepted_iff top (by omega)).mpr ⟨by omega, all 0 some_block, fun _ => all⟩

/-- **First fit**: when a run of at least one block is free, the first one is returned. -/
theorem findFreeBlockStart_first (top : heap.table.entries + heap.table.size < 4294967296) {blocks target : Nat}
    (some_block : 0 < blocks) (run : FreeRun heap memory blocks target)
    (least : ∀ earlier, earlier < target → ¬ FreeRun heap memory blocks earlier) :
    findFreeBlockStart heap memory blocks = some (heap.table.entries + target) := by
  have room := run.1
  have reached := run.accepted top some_block
  rcases @findFreeBlockStart_accepted heap memory blocks top with
    ⟨-, none⟩ | ⟨first, found, accepted, before⟩
  · exact absurd reached (none target)
  · rcases lt_trichotomy first target with earlier | rfl | later
    · exact absurd (accepted.freeRun top (by omega)) (least first earlier)
    · exact found
    · exact absurd reached (before target later)

/-- A request for no block is answered with an entry of the table, or with nothing. -/
theorem findFreeBlockStart_zero (top : heap.table.entries + heap.table.size < 4294967296) {freeStart : Nat}
    (found : findFreeBlockStart heap memory 0 = some freeStart) :
    ∃ first, first < heap.table.size ∧ freeStart = heap.table.entries + first := by
  have finish := finish_eq top
  unfold findFreeBlockStart at found
  obtain ⟨low, _, _, _⟩ := findNextFreeBlock_spec memory
    heap.table.finish heap.table.size heap.table.entries (by omega) (by omega)
  simp only at found
  generalize findNextFreeBlock memory heap.table.finish heap.table.size heap.table.entries
    = next at low found
  rw [findFreeBlockStartLoop] at found
  by_cases inside : next < heap.table.finish
  · have accepted : isFreeBlocks memory next (uint32 (next + 0)) heap.table.finish = true := by
      rw [isFreeBlocks, if_neg (by omega), Int.add_zero, uint32_natCast (by omega), Nat.sub_self]
      rfl
    rw [if_pos inside, if_pos accepted, Option.some.injEq] at found
    exact ⟨next - heap.table.entries, by omega, by omega⟩
  · rw [if_neg inside] at found
    cases found

end Search

end KernelPlay.BlockHeap
