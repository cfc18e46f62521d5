/-
**A store of records with an allocator that never hands out a record twice.**

`Allocator` decides which request is met and at which address; the address is not `0` and no record
is live there. `Store.zalloc` and `Store.free` are one call each. `zalloc_granted` and
`zalloc_refused` say what a call does, the `lookup` lemmas that nothing else changes, and
`erase_put` that an allocation freed again leaves the records as they were. `Adds` bounds what a
sequence of calls has added.
-/

import Mathlib.Data.Finmap
import Mathlib.Data.Finset.Lattice.Fold
import Mathlib.Order.Lattice.Nat
import Mathlib.Tactic.SplitIfs

namespace KernelPlay.Library

universe u

/-- Answers to the requests of a run, by the number of the call and the size asked for. -/
structure Allocator where
  grants : Nat → Nat → Bool
  pick : Nat → Nat → Finset Nat → Nat
  fresh : ∀ call size live, pick call size live ∉ live
  nonnull : ∀ call size live, pick call size live ≠ 0

/-- An allocator that never runs out: it goes on behind the highest live address. -/
def Allocator.bump : Allocator where
  grants _ _ := true
  pick _ _ live := live.sup id + 1
  fresh _ _ live member := by
    have below : live.sup id + 1 ≤ live.sup id := Finset.le_sup (f := id) member
    omega
  nonnull _ _ _ := Nat.succ_ne_zero _

theorem succ_sup_notMem (live : Finset Nat) : live.sup id + 1 ∉ live := fun member =>
  absurd (Finset.le_sup (f := id) member) (Nat.not_succ_le_self _)

/-- An allocator that gives the answers of a list while they are fresh; `0` is a refusal. -/
def Allocator.answering (answers : Nat → Nat) : Allocator where
  grants call _ := answers call ≠ 0
  pick call _ live := if answers call = 0 ∨ answers call ∈ live then live.sup id + 1 else answers call
  fresh call _ live := by
    split_ifs with stale
    · exact succ_sup_notMem live
    · exact fun member => stale (.inr member)
  nonnull call _ live := by
    split_ifs with stale
    · exact Nat.succ_ne_zero _
    · exact fun null => stale (.inl null)

/-- The live records and the number of requests so far. -/
structure Store (Cell : Type u) where
  cells : Finmap fun _ : Nat => Cell
  calls : Nat

namespace Store

variable {Cell : Type u}

theorem ext {one other : Store Cell} (cells : ∀ ptr, one.cells.lookup ptr = other.cells.lookup ptr)
    (calls : one.calls = other.calls) : one = other := by
  obtain ⟨oneCells, oneCalls⟩ := one
  obtain ⟨otherCells, otherCalls⟩ := other
  obtain rfl : oneCells = otherCells := Finmap.ext_lookup cells
  obtain rfl : oneCalls = otherCalls := calls
  rfl

def empty : Store Cell := ⟨∅, 0⟩

def lookup (store : Store Cell) (ptr : Nat) : Option Cell := store.cells.lookup ptr

/-- The live addresses. -/
def live (store : Store Cell) : Finset Nat := store.cells.keys

/-- A request counted. -/
def tick (store : Store Cell) : Store Cell := { store with calls := store.calls + 1 }

/-- A record written. -/
def put (store : Store Cell) (ptr : Nat) (cell : Cell) : Store Cell :=
  { store with cells := store.cells.insert ptr cell }

/-- A record gone. -/
def erase (store : Store Cell) (ptr : Nat) : Store Cell :=
  { store with cells := store.cells.erase ptr }

/-- The next request, of `size` bytes, is met. -/
def Grants (allocator : Allocator) (store : Store Cell) (size : Nat) : Prop :=
  allocator.grants store.calls size = true

instance (allocator : Allocator) (store : Store Cell) (size : Nat) :
    Decidable (Grants allocator store size) := by
  unfold Grants
  infer_instance

/-- The address the next request gets. -/
def nextPtr (allocator : Allocator) (store : Store Cell) (size : Nat) : Nat :=
  allocator.pick store.calls size store.live

def zalloc (allocator : Allocator) (store : Store Cell) (size : Nat) (cell : Cell) :
    Nat × Store Cell :=
  if Grants allocator store size then
    (nextPtr allocator store size, store.tick.put (nextPtr allocator store size) cell)
  else (0, store.tick)

section Lemmas

variable {allocator : Allocator} {store : Store Cell} {ptr other size : Nat} {cell : Cell}

@[simp]
theorem lookup_tick : store.tick.lookup ptr = store.lookup ptr := rfl

@[simp]
theorem live_tick : store.tick.live = store.live := rfl

@[simp]
theorem calls_tick : store.tick.calls = store.calls + 1 := rfl

@[simp]
theorem calls_put : (store.put ptr cell).calls = store.calls := rfl

@[simp]
theorem calls_erase : (store.erase ptr).calls = store.calls := rfl

@[simp]
theorem lookup_put_self : (store.put ptr cell).lookup ptr = some cell := Finmap.lookup_insert _

theorem lookup_put_ne (differ : other ≠ ptr) :
    (store.put ptr cell).lookup other = store.lookup other :=
  Finmap.lookup_insert_of_ne _ differ

@[simp]
theorem lookup_erase_self : (store.erase ptr).lookup ptr = none := Finmap.lookup_erase _ _

theorem lookup_erase_ne (differ : other ≠ ptr) : (store.erase ptr).lookup other = store.lookup other :=
  Finmap.lookup_erase_ne differ

theorem mem_live : ptr ∈ store.live ↔ (store.lookup ptr).isSome := by
  rw [live, Finmap.mem_keys, lookup, Finmap.lookup_isSome]

theorem lookup_nextPtr : store.lookup (nextPtr allocator store size) = none := by
  rw [← Option.not_isSome_iff_eq_none, ← mem_live]
  exact allocator.fresh _ _ _

theorem nextPtr_ne_zero : nextPtr allocator store size ≠ 0 := allocator.nonnull _ _ _

/-- Different records lie at different addresses. -/
theorem ne_of_lookup {first second : Cell} (found : store.lookup ptr = some first)
    (found' : store.lookup other = some second) (differ : first ≠ second) : ptr ≠ other := by
  rintro rfl
  rw [found] at found'
  exact differ (Option.some.inj found')

/-- A record lies where one is. -/
theorem ne_of_absent (found : store.lookup ptr = some cell) (absent : store.lookup other = none) :
    ptr ≠ other := by
  rintro rfl
  rw [found] at absent
  cases absent

theorem nextPtr_ne (found : store.lookup ptr = some cell) : ptr ≠ nextPtr allocator store size :=
  ne_of_absent found lookup_nextPtr

theorem zalloc_granted (granted : Grants allocator store size) :
    zalloc allocator store size cell =
      (nextPtr allocator store size, store.tick.put (nextPtr allocator store size) cell) :=
  if_pos granted

theorem zalloc_refused (refused : ¬ Grants allocator store size) :
    zalloc allocator store size cell = (0, store.tick) :=
  if_neg refused

/-- A fresh answer is the pointer handed out. -/
theorem zalloc_answering {answers : Nat → Nat} (answer : answers store.calls = ptr)
    (fresh : store.lookup ptr = none) :
    zalloc (.answering answers) store size cell = (ptr, if ptr = 0 then store.tick else store.tick.put ptr cell) := by
  by_cases null : ptr = 0
  · have refused : ¬ Grants (.answering answers) store size := by
      simp [Grants, Allocator.answering, answer, null]
    rw [zalloc_refused refused, if_pos null, null]
  · have granted : Grants (.answering answers) store size := by
      simp [Grants, Allocator.answering, answer, null]
    have absent : ptr ∉ store.live := by
      simp [mem_live, fresh]
    have next : nextPtr (.answering answers) store size = ptr := by
      simp [nextPtr, Allocator.answering, answer, null, absent]
    rw [zalloc_granted granted, if_neg null, next]

@[simp]
theorem put_put {first second : Cell} : (store.put ptr first).put ptr second = store.put ptr second :=
  ext (fun _ => by rw [put, put, put, Finmap.insert_insert]) rfl

/-- An allocation freed again leaves the other records as they were. -/
theorem erase_put (absent : store.lookup ptr = none) : (store.put ptr cell).erase ptr = store := by
  refine ext (fun other => ?_) rfl
  by_cases same : other = ptr
  · rw [same]
    exact lookup_erase_self.trans absent.symm
  · exact (lookup_erase_ne same).trans (lookup_put_ne same)

end Lemmas

/-! ### What has been added -/

/-- Every record of the later store that was not there before meets `Own`. -/
def Adds (Own : Cell → Prop) (store later : Store Cell) : Prop :=
  ∀ ptr cell, later.lookup ptr = some cell → store.lookup ptr = some cell ∨ Own cell

section Adds

variable {Own More : Cell → Prop} {allocator : Allocator} {store middle later : Store Cell}
  {ptr size : Nat} {cell : Cell}

theorem Adds.refl : Adds Own store store := fun _ _ => .inl

theorem Adds.trans (first : Adds Own store middle) (second : Adds Own middle later) :
    Adds Own store later := by
  intro ptr cell found
  rcases second ptr cell found with before | own
  · exact first ptr cell before
  · exact .inr own

theorem Adds.mono (adds : Adds Own store later) (more : ∀ cell, Own cell → More cell) :
    Adds More store later :=
  fun ptr cell found => (adds ptr cell found).imp_right (more cell)

theorem Adds.put (adds : Adds Own store later) (own : Own cell) : Adds Own store (later.put ptr cell) := by
  intro other found record
  by_cases at_ptr : other = ptr
  · rw [at_ptr, lookup_put_self, Option.some.injEq] at record
    exact .inr (record ▸ own)
  · rw [lookup_put_ne at_ptr] at record
    exact adds other found record

theorem Adds.erase (adds : Adds Own store later) : Adds Own store (later.erase ptr) := by
  intro other found record
  by_cases at_ptr : other = ptr
  · rw [at_ptr, lookup_erase_self] at record
    cases record
  · rw [lookup_erase_ne at_ptr] at record
    exact adds other found record

theorem Adds.zalloc (allocates : zalloc allocator store size cell = (ptr, later)) (own : Own cell) :
    Adds Own store later := by
  unfold Store.zalloc at allocates
  split_ifs at allocates
  · cases allocates
    exact Adds.put (fun _ _ => .inl) own
  · cases allocates
    exact fun _ _ => .inl

end Adds

end Store

end KernelPlay.Library
