/-
**First fit is complete.**

* `findFreeBlockStartStep` — `find_free_block_start` as a machine: a step is one test of a loop's condition
  with the turn behind it, and emits the entries read.
* `search_computes` — it halts, for every count of blocks, with what `findFreeBlockStart` returns.
* `first_fit_complete` — if a run of at least one block is free, it halts with the first one.
-/

import KernelPlay.Heap.Search
import KernelPlay.Library.Halting
import Mathlib.Order.Nat

namespace KernelPlay.BlockHeap

open KernelPlay.Library

/-- Where a search stands: at the condition of the loop of `find_next_free_block`, of its own loop, or of the
loop of `is_free_blocks`, or at its end. -/
inductive SearchPoint
  | next (p : Nat)
  | candidate (curStart : Nat)
  | test (curStart curEnd cur : Nat)
  | returned (freeStart : Option Nat)

/-- One step, and the entries it reads. -/
def findFreeBlockStartStep (heap : Heap) (memory : Memory) (blocks : Int) :
    SearchPoint → Option (SearchPoint × List Nat)
  | .next p =>
    if !isFreeBlock memory p && p < heap.table.finish then some (.next (p + 1), [p])
    else some (.candidate p, [p])
  | .candidate curStart =>
    if curStart < heap.table.finish then
      if heap.table.finish ≤ curStart then some (.next (curStart + 1), [])
      else some (.test curStart (uint32 (curStart + blocks)) curStart, [])
    else some (.returned none, [])
  | .test curStart curEnd cur =>
    if cur < curEnd then
      if !isFreeBlock memory cur then some (.next (curStart + 1), [cur])
      else some (.test curStart curEnd (cur + 1), [cur])
    else some (.returned (some curStart), [])
  | .returned _ => none

/-! ### The steps -/

section Steps

variable {heap : Heap} {memory : Memory} {blocks : Int} {p curStart curEnd cur : Nat}

theorem step_next_goes (below : p < heap.table.finish) (taken : isFreeBlock memory p = false) :
    findFreeBlockStartStep heap memory blocks (.next p) = some (.next (p + 1), [p]) := by
  simp [findFreeBlockStartStep, below, taken]

theorem step_next_stops (stops : isFreeBlock memory p = true ∨ heap.table.finish ≤ p) :
    findFreeBlockStartStep heap memory blocks (.next p) = some (.candidate p, [p]) := by
  rw [findFreeBlockStartStep, if_neg]
  rcases stops with free | behind
  · simp [free]
  · simp [behind]

theorem step_candidate_tests (below : curStart < heap.table.finish) :
    findFreeBlockStartStep heap memory blocks (.candidate curStart) =
      some (.test curStart (uint32 (curStart + blocks)) curStart, []) := by
  rw [findFreeBlockStartStep, if_pos below, if_neg (by omega)]

theorem step_candidate_ends (behind : heap.table.finish ≤ curStart) :
    findFreeBlockStartStep heap memory blocks (.candidate curStart) = some (.returned none, []) := by
  rw [findFreeBlockStartStep, if_neg (by omega)]

theorem step_test_goes (below : cur < curEnd) (free : isFreeBlock memory cur = true) :
    findFreeBlockStartStep heap memory blocks (.test curStart curEnd cur) =
      some (.test curStart curEnd (cur + 1), [cur]) := by
  simp [findFreeBlockStartStep, below, free]

theorem step_test_fails (below : cur < curEnd) (taken : isFreeBlock memory cur = false) :
    findFreeBlockStartStep heap memory blocks (.test curStart curEnd cur) =
      some (.next (curStart + 1), [cur]) := by
  simp [findFreeBlockStartStep, below, taken]

theorem step_test_ends (behind : curEnd ≤ cur) :
    findFreeBlockStartStep heap memory blocks (.test curStart curEnd cur) =
      some (.returned (some curStart), []) := by
  rw [findFreeBlockStartStep, if_neg (by omega)]

end Steps

/-! ### The search halts -/

section Machine

variable {heap : Heap} {memory : Memory} {blocks : Int} {last : SearchPoint}

/-- The scan halts at what `findNextFreeBlock` returns. -/
theorem next_computes :
    ∀ (turns p : Nat), p ≤ heap.table.finish → heap.table.finish - p ≤ turns →
      (∃ reads, Computes (findFreeBlockStartStep heap memory blocks)
        (.candidate (findNextFreeBlock memory heap.table.finish turns p)) reads last) →
      ∃ reads, Computes (findFreeBlockStartStep heap memory blocks) (.next p) reads last := by
  intro turns
  induction turns with
  | zero =>
    rintro p below enough ⟨reads, rest⟩
    exact ⟨_, .goes (step_next_stops (.inr (by omega))) rest⟩
  | succ turns ih =>
    intro p below enough rest
    rw [findNextFreeBlock] at rest
    by_cases goes : (!isFreeBlock memory p && decide (p < heap.table.finish)) = true
    · rw [if_pos goes] at rest
      rw [Bool.and_eq_true_iff, Bool.not_eq_true', decide_eq_true_iff] at goes
      obtain ⟨reads, computes⟩ := ih (p + 1) (by omega) (by omega) rest
      exact ⟨_, .goes (step_next_goes goes.2 goes.1) computes⟩
    · rw [if_neg goes] at rest
      obtain ⟨reads, computes⟩ := rest
      have stops : isFreeBlock memory p = true ∨ heap.table.finish ≤ p := by
        by_contra neither
        simp only [not_or, Bool.not_eq_true, not_le] at neither
        simp [neither.1, neither.2] at goes
      exact ⟨_, .goes (step_next_stops stops) computes⟩

/-- The test of a candidate halts: it is taken, or the scan goes on behind it. -/
theorem test_computes {curStart curEnd : Nat} :
    ∀ (left cur : Nat), curEnd - cur = left →
      (if (List.range' cur left).all (isFreeBlock memory) = true then last = .returned (some curStart)
        else ∃ reads, Computes (findFreeBlockStartStep heap memory blocks) (.next (curStart + 1)) reads last) →
      ∃ reads, Computes (findFreeBlockStartStep heap memory blocks) (.test curStart curEnd cur) reads last := by
  intro left
  induction left with
  | zero =>
    intro cur size rest
    obtain rfl : last = .returned (some curStart) := by simpa using rest
    exact ⟨_, .silent (step_test_ends (by omega)) (.halts rfl)⟩
  | succ left ih =>
    intro cur size rest
    have inside : cur < curEnd := by omega
    rw [List.range'_succ, List.all_cons] at rest
    cases free : isFreeBlock memory cur with
    | true =>
      rw [free, Bool.true_and] at rest
      obtain ⟨reads, computes⟩ := ih (cur + 1) (by omega) rest
      exact ⟨_, .goes (step_test_goes inside free) computes⟩
    | false =>
      rw [free, Bool.false_and, if_neg Bool.false_ne_true] at rest
      obtain ⟨reads, computes⟩ := rest
      exact ⟨_, .goes (step_test_fails inside free) computes⟩

theorem candidates_compute :
    ∀ (turns curStart : Nat), curStart ≤ heap.table.finish → heap.table.finish - curStart < turns →
      ∃ reads, Computes (findFreeBlockStartStep heap memory blocks) (.candidate curStart) reads
        (.returned (findFreeBlockStartLoop memory heap.table.finish blocks turns curStart)) := by
  intro turns
  induction turns with
  | zero => exact fun curStart _ enough => absurd enough (Nat.not_lt_zero _)
  | succ turns ih =>
    intro curStart below enough
    rw [findFreeBlockStartLoop]
    by_cases inside : curStart < heap.table.finish
    · rw [if_pos inside]
      suffices computes : ∃ reads, Computes (findFreeBlockStartStep heap memory blocks)
          (.test curStart (uint32 (curStart + blocks)) curStart) reads _ by
        obtain ⟨reads, computes⟩ := computes
        exact ⟨_, .silent (step_candidate_tests inside) computes⟩
      refine test_computes _ curStart rfl ?_
      have test : isFreeBlocks memory curStart (uint32 (curStart + blocks)) heap.table.finish =
          (List.range' curStart (uint32 (curStart + blocks) - curStart)).all (isFreeBlock memory) := by
        rw [isFreeBlocks, if_neg (by omega)]
      rw [← test]
      split_ifs with taken
      · rfl
      · obtain ⟨low, high, -, -⟩ := findNextFreeBlock_spec memory heap.table.finish
          (heap.table.finish - curStart) (curStart + 1) (by omega) (by omega)
        exact next_computes _ _ (by omega) (by omega) (ih _ high (by omega))
    · rw [if_neg inside]
      exact ⟨_, .silent (step_candidate_ends (by omega)) (.halts rfl)⟩

/-- **The search halts** with what `findFreeBlockStart` returns. -/
theorem search_computes (top : heap.table.entries + heap.table.size < 4294967296) :
    ∃ reads, Computes (findFreeBlockStartStep heap memory blocks) (.next heap.table.entries) reads
      (.returned (findFreeBlockStart heap memory blocks)) := by
  have finish := finish_eq top
  obtain ⟨low, high, -, -⟩ := findNextFreeBlock_spec memory heap.table.finish heap.table.size
    heap.table.entries (by omega) (by omega)
  exact next_computes _ _ (by omega) (by omega) (candidates_compute _ _ high (by omega))

/-- **First fit is complete**: when some run of at least one block is free, the search halts with the
first. -/
theorem first_fit_complete (top : heap.table.entries + heap.table.size < 4294967296) {blocks : Nat}
    (some_block : 1 ≤ blocks) (free : ∃ first, FreeRun heap memory blocks first) :
    ∃ first reads, FreeRun heap memory blocks first ∧
      (∀ earlier, earlier < first → ¬ FreeRun heap memory blocks earlier) ∧
      findFreeBlockStart heap memory blocks = some (heap.table.entries + first) ∧
      Computes (findFreeBlockStartStep heap memory blocks) (.next heap.table.entries) reads
        (.returned (some (heap.table.entries + first))) := by
  classical
  have run := Nat.find_spec free
  have least (earlier : Nat) (before : earlier < Nat.find free) : ¬ FreeRun heap memory blocks earlier :=
    Nat.find_min free before
  have found := findFreeBlockStart_first top some_block run least
  obtain ⟨reads, computes⟩ := @search_computes heap memory blocks top
  exact ⟨_, reads, run, least, found, found ▸ computes⟩

end Machine

/-- A table of eight entries: one free entry between taken ones, then a run of three. -/
def gapTable : Heap := ⟨⟨0, 8⟩, 4096⟩

def gapMemory : Memory := fun address => if address = 1 ∨ 4 ≤ address then 0 else heapBlockTableEntryTake

/-- The single free entry is passed over for a run of two. -/
theorem first_fit_complete_gap : ∃ reads,
    findFreeBlockStart gapTable gapMemory 2 = some 4 ∧
      Computes (findFreeBlockStartStep gapTable gapMemory 2) (.next 0) reads (.returned (some 4)) := by
  obtain ⟨first, reads, run, least, found, computes⟩ :=
    @first_fit_complete gapTable gapMemory (by decide) 2 (by decide) ⟨4, by decide⟩
  have four : findFreeBlockStart gapTable gapMemory (2 : Nat) = some 4 := by decide
  rw [found, Option.some.injEq] at four
  rw [four] at found computes
  exact ⟨reads, found, computes⟩

end KernelPlay.BlockHeap
