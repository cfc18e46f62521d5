/-
**Page tables of `memory/paging/paging.c`.**

`Words` — 32-bit memory by the addresses of its words. `pagingNew4gb` builds a directory and its tables
in blocks the heap hands out; `pagingSetValue` writes one entry; `walkEntry` is the lookup of the
processor. `entryAt` reads the tables as a map from pages to entries, and `pagingSetValue` is an update
of that map (`entryAt_pagingSetValue`): a page holds what was last written to it
(`pages_hold_last_entry`).
-/

import KernelPlay.Config
import KernelPlay.Library.Updates
import Mathlib.Data.Nat.Bitwise

namespace KernelPlay

open KernelPlay.Library

/-! ### Words in memory -/

abbrev Words := UInt32 → UInt32

/-- The address of `ptr[index]`. -/
def wordAt (ptr : UInt32) (index : Nat) : UInt32 := ptr + 4 * UInt32.ofNat index

def loadWord (memory : Words) (ptr : UInt32) (index : Nat) : UInt32 := memory (wordAt ptr index)

def storeWord (memory : Words) (ptr : UInt32) (index : Nat) (value : UInt32) : Words :=
  Function.update memory (wordAt ptr index) value

/-- The writes of a loop over `ptr[0]`, `ptr[1]`, up to `ptr[count - 1]`. -/
def fillWords (ptr : UInt32) (value : Nat → UInt32) : Nat → Words → Words
  | 0, memory => memory
  | count + 1, memory => storeWord (fillWords ptr value count memory) ptr count (value count)

/-! ### The code -/

def pagingIsWritable : UInt32 := 2

def pagingAddressMask : UInt32 := 0xfffff000

def pagingTotalEntriesPerTable : Nat := 1024

def pagingPageSize : UInt32 := 4096

section Code

/-- `kheap_zalloc` that answers with `ptr`: the words of the block are zero. -/
def zallocWords (ptr : UInt32) (words : Nat) (memory : Words) : Words :=
  fillWords ptr (fun _ => 0) words memory

/-- The inner loop of `paging_new_4gb`. -/
def fillTable (table offset : UInt32) (flags : UInt8) (memory : Words) : Words :=
  fillWords table (fun j => (offset + UInt32.ofNat j * pagingPageSize) ||| flags.toUInt32)
    pagingTotalEntriesPerTable memory

/-- The outer loop, after `count` turns: the memory and `offset`. `kheap` answers the requests one
after the other; the first answer is the directory. -/
def fillDirectory (kheap : Nat → UInt32) (flags : UInt8) : Nat → Words → Words × UInt32
  | 0, memory => (memory, 0)
  | i + 1, memory =>
    let (memory, offset) := fillDirectory kheap flags i memory
    let table := kheap (i + 1)
    let memory := zallocWords table pagingTotalEntriesPerTable memory
    let memory := fillTable table offset flags memory
    let offset := offset + pagingPageSize * UInt32.ofNat pagingTotalEntriesPerTable
    (storeWord memory (kheap 0) i (table ||| flags.toUInt32 ||| pagingIsWritable), offset)

/-- The chunk and the memory; the chunk is one word, the pointer to its directory. -/
def pagingNew4gb (kheap : Nat → UInt32) (flags : UInt8) (memory : Words) : UInt32 × Words :=
  let directory := kheap 0
  let memory := zallocWords directory pagingTotalEntriesPerTable memory
  let (memory, _) := fillDirectory kheap flags pagingTotalEntriesPerTable memory
  let pageChunk := kheap (pagingTotalEntriesPerTable + 1)
  let memory := zallocWords pageChunk 1 memory
  (pageChunk, storeWord memory pageChunk 0 directory)

def paging4gbChunkGetDirectory (memory : Words) (chunk : UInt32) : UInt32 := loadWord memory chunk 0

def pagingIsAddressAligned (address : UInt32) : Bool := address % pagingPageSize = 0

def pagingSetValue (memory : Words) (directory virtualAddress tableEntry : UInt32) : Int × Words :=
  if ¬ pagingIsAddressAligned virtualAddress then (-einvarg, memory)
  else
    let addr := virtualAddress
    let tableTotal := UInt32.ofNat pagingTotalEntriesPerTable * pagingPageSize
    let directoryEntry := loadWord memory directory (addr / tableTotal).toNat
    let table := directoryEntry &&& pagingAddressMask
    (0, storeWord memory table (addr % tableTotal / pagingPageSize).toNat tableEntry)

/-- A sequence of calls, each an address and an entry. -/
def pagingSetValues (memory : Words) (directory : UInt32) (calls : List (UInt32 × UInt32)) : Words :=
  calls.foldl (fun memory call => (pagingSetValue memory directory call.1 call.2).2) memory

/-- The entry the processor finds for a virtual address. -/
def walkEntry (memory : Words) (directory v : UInt32) : UInt32 :=
  let table := loadWord memory directory (v >>> 22).toNat &&& pagingAddressMask
  loadWord memory table ((v >>> 12) &&& 0x3FF).toNat

end Code

/-! ### Blocks of a page -/

/-- The start of a page. -/
def PageAligned (ptr : UInt32) : Prop := ptr.toNat % 4096 = 0

section Blocks

variable {memory : Words} {ptr other : UInt32} {index place count : Nat} {value : Nat → UInt32}

theorem wordAt_toNat (aligned : PageAligned ptr) (inside : index < 1024) :
    (wordAt ptr index).toNat = ptr.toNat + 4 * index := by
  have below := ptr.toNat_lt
  unfold PageAligned at aligned
  rw [wordAt, UInt32.toNat_add, UInt32.toNat_mul, UInt32.toNat_ofNat']
  show (ptr.toNat + 4 * (index % 2 ^ 32) % 2 ^ 32) % 2 ^ 32 = ptr.toNat + 4 * index
  omega

/-- Words of blocks have one address only if they are the same word of the same block. -/
theorem wordAt_inj (aligned : PageAligned ptr) (aligned' : PageAligned other) (inside : index < 1024)
    (inside' : place < 1024) (same : wordAt ptr index = wordAt other place) :
    ptr = other ∧ index = place := by
  have address := congrArg UInt32.toNat same
  rw [wordAt_toNat aligned inside, wordAt_toNat aligned' inside'] at address
  unfold PageAligned at aligned aligned'
  exact ⟨UInt32.toNat_inj.mp (by omega), by omega⟩

theorem loadWord_storeWord_self (memory : Words) (ptr : UInt32) (index : Nat) (value : UInt32) :
    loadWord (storeWord memory ptr index value) ptr index = value :=
  Function.update_self ..

theorem loadWord_storeWord_ne {value : UInt32} (aligned : PageAligned ptr)
    (aligned' : PageAligned other) (inside : index < 1024) (inside' : place < 1024)
    (apart : ptr = other → index ≠ place) :
    loadWord (storeWord memory ptr index value) other place = loadWord memory other place := by
  refine Function.update_of_ne (fun same => ?_) ..
  obtain ⟨rfl, rfl⟩ := wordAt_inj aligned aligned' inside inside' same.symm
  exact apart rfl rfl

theorem loadWord_fillWords (aligned : PageAligned ptr) :
    ∀ (count : Nat), count ≤ 1024 → ∀ index, index < count →
      loadWord (fillWords ptr value count memory) ptr index = value index := by
  intro count
  induction count with
  | zero => exact fun _ index below => absurd below (Nat.not_lt_zero _)
  | succ count ih =>
    intro room index below
    by_cases last : index = count
    · subst last
      exact loadWord_storeWord_self ..
    · rw [fillWords, loadWord_storeWord_ne aligned aligned (by omega) (by omega) fun _ => by omega]
      exact ih (by omega) index (by omega)

/-- A loop over one block leaves the others alone. -/
theorem loadWord_fillWords_ne (aligned : PageAligned ptr) (aligned' : PageAligned other)
    (apart : ptr ≠ other) (inside : place < 1024) :
    ∀ (count : Nat), count ≤ 1024 →
      loadWord (fillWords ptr value count memory) other place = loadWord memory other place := by
  intro count
  induction count with
  | zero => exact fun _ => rfl
  | succ count ih =>
    intro room
    rw [fillWords, loadWord_storeWord_ne aligned aligned' (by omega) inside fun same => absurd same apart]
    exact ih (by omega)

end Blocks

/-! ### The tables as a map -/

/-- The page of an address. -/
def pageOf (v : UInt32) : Fin 1048576 :=
  ⟨v.toNat / 4096, by
    have := v.toNat_lt
    omega⟩

/-- The table that holds the entry of a page. -/
def tableOf (memory : Words) (directory : UInt32) (page : Fin 1048576) : UInt32 :=
  loadWord memory directory (page.val / 1024) &&& pagingAddressMask

/-- **The map the tables stand for.** -/
def entryAt (memory : Words) (directory : UInt32) (page : Fin 1048576) : UInt32 :=
  loadWord memory (tableOf memory directory page) (page.val % 1024)

/-- **A directory of 1024 tables**: all in blocks of their own. -/
structure Directory (memory : Words) (directory : UInt32) : Prop where
  aligned : PageAligned directory
  tables : ∀ page, PageAligned (tableOf memory directory page)
  outside : ∀ page, tableOf memory directory page ≠ directory
  apart : ∀ page other, tableOf memory directory page = tableOf memory directory other →
    page.val / 1024 = other.val / 1024

/-- The page-aligned calls as writes to the map. -/
def writesOf (calls : List (UInt32 × UInt32)) : List (Fin 1048576 × UInt32) :=
  (calls.filter fun call => pagingIsAddressAligned call.1).map fun call => (pageOf call.1, call.2)

section Index

variable (v : UInt32)

theorem directoryIndex : (v >>> 22).toNat = (pageOf v).val / 1024 := by
  rw [UInt32.toNat_shiftRight]
  show v.toNat >>> 22 = v.toNat / 4096 / 1024
  rw [Nat.shiftRight_eq_div_pow]
  omega

theorem tableIndex : ((v >>> 12) &&& 0x3FF).toNat = (pageOf v).val % 1024 := by
  rw [UInt32.toNat_and, UInt32.toNat_shiftRight]
  show v.toNat >>> 12 &&& 2 ^ 10 - 1 = v.toNat / 4096 % 1024
  rw [Nat.and_two_pow_sub_one_eq_mod, Nat.shiftRight_eq_div_pow]

theorem directoryIndex_div :
    (v / (UInt32.ofNat pagingTotalEntriesPerTable * pagingPageSize)).toNat = (pageOf v).val / 1024 := by
  rw [UInt32.toNat_div]
  show v.toNat / 4194304 = v.toNat / 4096 / 1024
  omega

theorem tableIndex_mod :
    (v % (UInt32.ofNat pagingTotalEntriesPerTable * pagingPageSize) / pagingPageSize).toNat =
      (pageOf v).val % 1024 := by
  rw [UInt32.toNat_div, UInt32.toNat_mod]
  show v.toNat % 4194304 / 4096 = v.toNat / 4096 % 1024
  omega

end Index

section Update

variable {memory : Words} {directory virtualAddress tableEntry : UInt32}

/-- The lookup of the processor reads the map. -/
theorem walkEntry_eq (memory : Words) (directory v : UInt32) :
    walkEntry memory directory v = entryAt memory directory (pageOf v) := by
  unfold walkEntry entryAt tableOf
  rw [directoryIndex, tableIndex]

theorem pagingSetValue_misaligned (misaligned : ¬ pagingIsAddressAligned virtualAddress) :
    pagingSetValue memory directory virtualAddress tableEntry = (-einvarg, memory) :=
  if_pos misaligned

theorem pagingSetValue_aligned (aligned : pagingIsAddressAligned virtualAddress) :
    pagingSetValue memory directory virtualAddress tableEntry =
      (0, storeWord memory (tableOf memory directory (pageOf virtualAddress))
        ((pageOf virtualAddress).val % 1024) tableEntry) := by
  unfold pagingSetValue tableOf
  rw [if_neg (not_not.mpr aligned)]
  dsimp only
  rw [directoryIndex_div, tableIndex_mod]

/-- An entry written leaves the directory as it was. -/
theorem tableOf_storeWord (tables : Directory memory directory) (page other : Fin 1048576) :
    tableOf (storeWord memory (tableOf memory directory page) (page.val % 1024) tableEntry) directory
      other = tableOf memory directory other :=
  congrArg (· &&& pagingAddressMask) (loadWord_storeWord_ne (tables.tables page) tables.aligned
    (by omega) (by omega) fun same => absurd same (tables.outside page))

theorem Directory.storeWord (tables : Directory memory directory) (page : Fin 1048576) :
    Directory (storeWord memory (tableOf memory directory page) (page.val % 1024) tableEntry)
      directory where
  aligned := tables.aligned
  tables other := by
    rw [tableOf_storeWord tables]
    exact tables.tables other
  outside other := by
    rw [tableOf_storeWord tables]
    exact tables.outside other
  apart other another same := by
    rw [tableOf_storeWord tables, tableOf_storeWord tables] at same
    exact tables.apart other another same

/-- **A write to the tables is an update of the map.** -/
theorem entryAt_storeWord (tables : Directory memory directory) (page : Fin 1048576) :
    entryAt (KernelPlay.storeWord memory (tableOf memory directory page) (page.val % 1024) tableEntry)
      directory = Function.update (entryAt memory directory) page tableEntry := by
  funext other
  unfold entryAt
  rw [tableOf_storeWord tables]
  by_cases here : other = page
  · subst here
    rw [Function.update_self, loadWord_storeWord_self]
  · rw [Function.update_of_ne here, loadWord_storeWord_ne (tables.tables page) (tables.tables other)
      (by omega) (by omega)]
    intro same index
    have table := tables.apart page other same
    exact here (Fin.ext (by omega))

/-- **One call refines one write.** -/
theorem entryAt_pagingSetValue (tables : Directory memory directory) (call : UInt32 × UInt32) :
    Directory (pagingSetValue memory directory call.1 call.2).2 directory ∧
      entryAt (pagingSetValue memory directory call.1 call.2).2 directory =
        assign (entryAt memory directory) (writesOf [call]) := by
  obtain ⟨address, entry⟩ := call
  by_cases aligned : pagingIsAddressAligned address
  · have write : writesOf [(address, entry)] = [(pageOf address, entry)] := by
      simp [writesOf, aligned]
    rw [pagingSetValue_aligned aligned, write]
    exact ⟨tables.storeWord _, entryAt_storeWord tables _⟩
  · have none : writesOf [(address, entry)] = [] := by
      simp [writesOf, aligned]
    rw [pagingSetValue_misaligned aligned, none]
    exact ⟨tables, rfl⟩

/-- **A run of calls refines its writes.** -/
theorem entryAt_pagingSetValues (tables : Directory memory directory)
    (calls : List (UInt32 × UInt32)) :
    Directory (pagingSetValues memory directory calls) directory ∧
      entryAt (pagingSetValues memory directory calls) directory =
        assign (entryAt memory directory) (writesOf calls) := by
  induction calls using List.reverseRecOn with
  | nil => exact ⟨tables, rfl⟩
  | append_singleton calls call ih =>
    obtain ⟨tables', entries⟩ := ih
    have last := entryAt_pagingSetValue tables' call
    have run : pagingSetValues memory directory (calls ++ [call]) =
        (pagingSetValue (pagingSetValues memory directory calls) directory call.1 call.2).2 := by
      unfold pagingSetValues
      rw [List.foldl_append]
      rfl
    have writes : writesOf (calls ++ [call]) = writesOf calls ++ writesOf [call] := by
      simp [writesOf]
    rw [run, writes, assign_append, ← entries]
    exact last

end Update

/-! ### A new directory -/

/-- **The heap answers the requests with distinct blocks of a page.** -/
structure PageBlocks (kheap : Nat → UInt32) : Prop where
  aligned : ∀ request, request ≤ 1025 → PageAligned (kheap request)
  distinct : ∀ request other, request ≤ 1025 → other ≤ 1025 → kheap request = kheap other →
    request = other

/-- The first `count` tables map their pages to themselves. -/
structure Identity (kheap : Nat → UInt32) (flags : UInt8) (count : Nat) (memory : Words) : Prop where
  directory : ∀ i, i < count →
    loadWord memory (kheap 0) i = kheap (i + 1) ||| flags.toUInt32 ||| pagingIsWritable
  table : ∀ i j, i < count → j < 1024 →
    loadWord memory (kheap (i + 1)) j = UInt32.ofNat (i * 4194304 + j * 4096) ||| flags.toUInt32

/-- The flags lie below the address. -/
theorem and_pagingAddressMask {table extra : UInt32} (aligned : PageAligned table)
    (small : extra.toNat < 4096) : (table ||| extra) &&& pagingAddressMask = table := by
  have high := table.toNat_lt
  unfold PageAligned at aligned
  have upper : table.toNat = 2 ^ 12 * (table.toNat / 4096) := by omega
  apply UInt32.toNat_inj.mp
  rw [UInt32.toNat_and, UInt32.toNat_or]
  show (table.toNat ||| extra.toNat) &&& (2 ^ 20 - 1) <<< 12 = table.toNat
  apply Nat.eq_of_testBit_eq
  intro bit
  rw [Nat.testBit_and, Nat.testBit_or, Nat.testBit_shiftLeft, Nat.testBit_two_pow_sub_one]
  by_cases low : bit < 12
  · have none : table.toNat.testBit bit = false := by
      rw [upper, Nat.testBit_two_pow_mul]
      simp [show ¬ 12 ≤ bit by omega]
    simp [none, show ¬ 12 ≤ bit by omega]
  · have power {value : Nat} (small : value < 2 ^ 12) : value.testBit bit = false :=
      Nat.testBit_lt_two_pow (small.trans_le (Nat.pow_le_pow_right (by decide) (by omega)))
    by_cases inside : bit < 32
    · simp [power small, show 12 ≤ bit by omega, show bit - 12 < 20 by omega]
    · have none : table.toNat.testBit bit = false :=
        Nat.testBit_lt_two_pow (high.trans_le (Nat.pow_le_pow_right (by decide) (by omega)))
      simp [power small, none]

theorem flags_small (flags : UInt8) : flags.toUInt32.toNat < 4096 :=
  flags.toNat_lt.trans_le (by decide)

theorem directoryFlags_small (flags : UInt8) : (flags.toUInt32 ||| pagingIsWritable).toNat < 4096 := by
  have bits : flags.toUInt32.toNat < 2 ^ 12 := flags_small flags
  rw [UInt32.toNat_or]
  exact Nat.or_lt_two_pow bits (by decide)

section New

variable {kheap : Nat → UInt32} {flags : UInt8} {memory : Words}

theorem fillDirectory_offset (memory : Words) :
    ∀ count, (fillDirectory kheap flags count memory).2 = UInt32.ofNat (count * 4194304)
  | 0 => rfl
  | count + 1 => by
      show (fillDirectory kheap flags count memory).2 + pagingPageSize * UInt32.ofNat 1024 = _
      rw [fillDirectory_offset memory count, Nat.succ_mul, UInt32.ofNat_add]
      rfl

/-- **One turn of the outer loop adds a table**, the others stay. -/
theorem fillDirectory_identity (blocks : PageBlocks kheap) (memory : Words) :
    ∀ count, count ≤ 1024 → Identity kheap flags count (fillDirectory kheap flags count memory).1
  | 0, _ => ⟨fun i below => absurd below (Nat.not_lt_zero _), fun i j below =>
      absurd below (Nat.not_lt_zero _)⟩
  | count + 1, room => by
      obtain ⟨directory, table⟩ := fillDirectory_identity blocks memory count (by omega)
      have offset := @fillDirectory_offset kheap flags memory count
      have top := blocks.aligned 0 (by omega)
      have new := blocks.aligned (count + 1) (by omega)
      have size : pagingTotalEntriesPerTable ≤ 1024 := le_rfl
      have below {i : Nat} (small : i ≤ count) (other : i ≠ count + 1) : kheap (count + 1) ≠ kheap i :=
        fun same => other (blocks.distinct _ _ (by omega) (by omega) same).symm
      have under {i : Nat} (small : i < 1024) : kheap 0 ≠ kheap (i + 1) :=
        fun same => absurd (blocks.distinct _ _ (by omega) (by omega) same) (by omega)
      rw [fillDirectory]
      generalize fillDirectory kheap flags count memory = turn at *
      obtain ⟨before, reached⟩ := turn
      dsimp only at *
      subst offset
      have filled {ptr : UInt32} {place : Nat} (aligned : PageAligned ptr) (inside : place < 1024)
          (apart : kheap (count + 1) ≠ ptr) :
          loadWord (fillTable (kheap (count + 1)) (UInt32.ofNat (count * 4194304)) flags
            (zallocWords (kheap (count + 1)) pagingTotalEntriesPerTable before)) ptr place =
            loadWord before ptr place := by
        unfold fillTable zallocWords
        rw [loadWord_fillWords_ne new aligned apart inside _ size,
          loadWord_fillWords_ne new aligned apart inside _ size]
      refine ⟨fun i small => ?_, fun i j small inside => ?_⟩
      · by_cases last : i = count
        · subst last
          exact loadWord_storeWord_self ..
        · rw [loadWord_storeWord_ne top top (by omega) (by omega) fun _ => Ne.symm last,
            filled top (by omega) (below (by omega) (by omega))]
          exact directory i (by omega)
      · have aligned := blocks.aligned (i + 1) (by omega)
        rw [loadWord_storeWord_ne top aligned (by omega) inside fun same =>
          absurd same (under (by omega))]
        by_cases last : i = count
        · subst last
          unfold fillTable
          rw [loadWord_fillWords new _ size j inside, UInt32.ofNat_add, UInt32.ofNat_mul j]
          rfl
        · rw [filled aligned inside (below (by omega) (by omega))]
          exact table i j (by omega) inside

/-- The chunk points to the directory, and has a block of its own. -/
theorem pagingNew4gb_identity (blocks : PageBlocks kheap) (flags : UInt8) (memory : Words) :
    paging4gbChunkGetDirectory (pagingNew4gb kheap flags memory).2 (pagingNew4gb kheap flags memory).1 =
      kheap 0 ∧ Identity kheap flags 1024 (pagingNew4gb kheap flags memory).2 := by
  have built := @fillDirectory_identity kheap flags blocks
    (zallocWords (kheap 0) pagingTotalEntriesPerTable memory) 1024 le_rfl
  have chunk := blocks.aligned 1025 le_rfl
  unfold pagingNew4gb pagingTotalEntriesPerTable at *
  dsimp only at *
  generalize (fillDirectory kheap flags 1024 (zallocWords (kheap 0) 1024 memory)).1 = tables at *
  refine ⟨loadWord_storeWord_self .., ?_⟩
  have kept {request place : Nat} (inside : request ≤ 1024) (below : place < 1024) :
      loadWord (storeWord (zallocWords (kheap (1024 + 1)) 1 tables) (kheap (1024 + 1)) 0 (kheap 0))
        (kheap request) place = loadWord tables (kheap request) place := by
    have aligned := blocks.aligned request (by omega)
    have apart : kheap 1025 ≠ kheap request := fun same =>
      absurd (blocks.distinct _ _ (by omega) (by omega) same) (by omega)
    rw [loadWord_storeWord_ne chunk aligned (by omega) below fun same => absurd same apart]
    exact loadWord_fillWords_ne chunk aligned apart below _ (by omega)
  refine ⟨fun i small => ?_, fun i j small inside => ?_⟩
  · rw [kept (by omega) small]
    exact built.directory i small
  · rw [kept (by omega) inside]
    exact built.table i j small inside

/-- The table of a page, and its entry: the page itself. -/
theorem Identity.entry (blocks : PageBlocks kheap) (identity : Identity kheap flags 1024 memory)
    (page : Fin 1048576) :
    tableOf memory (kheap 0) page = kheap (page.val / 1024 + 1) ∧
      entryAt memory (kheap 0) page = UInt32.ofNat (page.val * 4096) ||| flags.toUInt32 := by
  have table : tableOf memory (kheap 0) page = kheap (page.val / 1024 + 1) := by
    unfold tableOf
    rw [identity.directory _ (by omega), UInt32.or_assoc,
      and_pagingAddressMask (blocks.aligned _ (by omega)) (directoryFlags_small flags)]
  refine ⟨table, ?_⟩
  unfold entryAt
  rw [table, identity.table _ _ (by omega) (by omega)]
  have place : page.val / 1024 * 4194304 + page.val % 1024 * 4096 = page.val * 4096 := by omega
  rw [place]

theorem Identity.tables (blocks : PageBlocks kheap) (identity : Identity kheap flags 1024 memory) :
    Directory memory (kheap 0) where
  aligned := blocks.aligned 0 (by omega)
  tables page := by
    rw [(identity.entry blocks page).1]
    exact blocks.aligned _ (by omega)
  outside page same := by
    rw [(identity.entry blocks page).1] at same
    exact absurd (blocks.distinct _ _ (by omega) (by omega) same) (by omega)
  apart page other same := by
    rw [(identity.entry blocks page).1, (identity.entry blocks other).1] at same
    exact Nat.succ.inj (blocks.distinct _ _ (by omega) (by omega) same)

/-- **The tables behave as a map.** After any calls on a new directory, a lookup finds the entry of the
last aligned call in its page, else the page itself with the flags; a misaligned call fails and changes
nothing. -/
theorem pages_hold_last_entry (blocks : PageBlocks kheap) (flags : UInt8) (memory : Words)
    (calls : List (UInt32 × UInt32)) (v : UInt32) :
    let chunk := pagingNew4gb kheap flags memory
    let directory := paging4gbChunkGetDirectory chunk.2 chunk.1
    let last := pagingSetValues chunk.2 directory calls
    walkEntry last directory v =
        (lastWrite (writesOf calls) (pageOf v)).getD (walkEntry chunk.2 directory v) ∧
      walkEntry chunk.2 directory v = UInt32.ofNat ((pageOf v).val * 4096) ||| flags.toUInt32 ∧
      ∀ address entry, ¬ pagingIsAddressAligned address →
        pagingSetValue last directory address entry = (-einvarg, last) := by
  obtain ⟨directory, identity⟩ := pagingNew4gb_identity blocks flags memory
  dsimp only
  rw [directory, walkEntry_eq, walkEntry_eq, (entryAt_pagingSetValues (identity.tables blocks) calls).2,
    assign_apply]
  exact ⟨rfl, (identity.entry blocks _).2, fun address entry => pagingSetValue_misaligned⟩

end New

section Small

/-- The heap from its first block on. -/
def firstBlocks (request : Nat) : UInt32 := 0x01000000 + 4096 * UInt32.ofNat request

theorem firstBlocks_toNat {request : Nat} (inside : request ≤ 1025) :
    (firstBlocks request).toNat = 16777216 + 4096 * request := by
  rw [firstBlocks, UInt32.toNat_add, UInt32.toNat_mul, UInt32.toNat_ofNat']
  show (16777216 + 4096 * (request % 2 ^ 32) % 2 ^ 32) % 2 ^ 32 = _
  omega

theorem firstBlocks_pages : PageBlocks firstBlocks where
  aligned request inside := by
    rw [PageAligned, firstBlocks_toNat inside]
    omega
  distinct request other inside inside' same := by
    have address := congrArg UInt32.toNat same
    rw [firstBlocks_toNat inside, firstBlocks_toNat inside'] at address
    omega

/-- The text screen remapped twice, with a misaligned call between. -/
theorem pages_hold_last_entry_screen :
    let chunk := pagingNew4gb firstBlocks 7 fun _ => 0
    let directory := paging4gbChunkGetDirectory chunk.2 chunk.1
    let last := pagingSetValues chunk.2 directory [(0xB8000, 1), (0xB8001, 2), (0xB8000, 3)]
    walkEntry last directory 0xB8FA0 = 3 ∧ walkEntry last directory 0x00400123 = 0x00400007 := by
  obtain ⟨screen, -, -⟩ := pages_hold_last_entry firstBlocks_pages 7 (fun _ => 0)
    [(0xB8000, 1), (0xB8001, 2), (0xB8000, 3)] 0xB8FA0
  obtain ⟨other, start, -⟩ := pages_hold_last_entry firstBlocks_pages 7 (fun _ => 0)
    [(0xB8000, 1), (0xB8001, 2), (0xB8000, 3)] 0x00400123
  refine ⟨screen.trans ?_, (other.trans ?_).trans start⟩
  · rw [show lastWrite (writesOf [(0xB8000, 1), (0xB8001, 2), (0xB8000, 3)]) (pageOf 0xB8FA0) = some 3
      by decide, Option.getD_some]
  · rw [show lastWrite (writesOf [(0xB8000, 1), (0xB8001, 2), (0xB8000, 3)]) (pageOf 0x00400123) = none
      by decide, Option.getD_none]

end Small

end KernelPlay
