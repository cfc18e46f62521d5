/-
**The directory of `paging_new_4gb` is an identity map.**

An entry holds the address of a page in its high 20 bits and flags in its low 12. `or_toNat` adds the
two parts, `and_pagingAddressMask` and `and_pageOffset` take them apart again. `physicalAddress` is what
the processor makes of a virtual address; on a new directory it is the address itself
(`pagingNew4gb_maps_identically`).
-/

import KernelPlay.Memory.Paging

namespace KernelPlay

open KernelPlay.Library

/-- The low 12 bits of an address or of an entry. -/
def pageOffset (value : UInt32) : UInt32 := value &&& 0xFFF

/-- The frame the tables name for a virtual address, and the offset in it. -/
def physicalAddress (memory : Words) (directory v : UInt32) : UInt32 :=
  (walkEntry memory directory v &&& pagingAddressMask) + pageOffset v

/-! ### Frame and flags -/

section Parts

variable {table extra : UInt32}

theorem pageOffset_toNat (value : UInt32) : (pageOffset value).toNat = value.toNat % 4096 := by
  rw [pageOffset, UInt32.toNat_and]
  exact Nat.and_two_pow_sub_one_eq_mod _ 12

/-- Flags below a page-aligned address add to it. -/
theorem or_toNat (aligned : PageAligned table) (small : extra.toNat < 4096) :
    (table ||| extra).toNat = table.toNat + extra.toNat := by
  unfold PageAligned at aligned
  have upper : table.toNat = 2 ^ 12 * (table.toNat / 4096) := by omega
  rw [UInt32.toNat_or, upper]
  exact (Nat.two_pow_add_eq_or_of_lt small _).symm

/-- The flags come back. -/
theorem and_pageOffset (aligned : PageAligned table) (small : extra.toNat < 4096) :
    pageOffset (table ||| extra) = extra := by
  apply UInt32.toNat_inj.mp
  rw [pageOffset_toNat, or_toNat aligned small]
  unfold PageAligned at aligned
  omega

end Parts

/-! ### Pages -/

section Pages

variable (v : UInt32)

/-- The start of the page of an address. -/
def pageStart : UInt32 := UInt32.ofNat ((pageOf v).val * 4096)

theorem pageStart_toNat : (pageStart v).toNat = v.toNat / 4096 * 4096 := by
  have below := v.toNat_lt
  rw [pageStart, UInt32.toNat_ofNat']
  show v.toNat / 4096 * 4096 % 2 ^ 32 = v.toNat / 4096 * 4096
  omega

theorem pageStart_aligned : PageAligned (pageStart v) := by
  rw [PageAligned, pageStart_toNat]
  omega

/-- An address is the start of its page and the offset in it. -/
theorem pageStart_add_pageOffset : pageStart v + pageOffset v = v := by
  have below := v.toNat_lt
  apply UInt32.toNat_inj.mp
  rw [UInt32.toNat_add, pageStart_toNat, pageOffset_toNat]
  omega

end Pages

/-! ### The map -/

section Map

variable {kheap : Nat → UInt32} {flags : UInt8} {memory : Words}

/-- The entry of a page: the page and the flags. -/
theorem Identity.walkEntry (blocks : PageBlocks kheap) (identity : Identity kheap flags 1024 memory)
    (v : UInt32) : walkEntry memory (kheap 0) v = pageStart v ||| flags.toUInt32 := by
  rw [walkEntry_eq]
  exact (identity.entry blocks (pageOf v)).2

theorem Identity.physicalAddress (blocks : PageBlocks kheap)
    (identity : Identity kheap flags 1024 memory) (v : UInt32) :
    physicalAddress memory (kheap 0) v = v := by
  unfold KernelPlay.physicalAddress
  rw [identity.walkEntry blocks, and_pagingAddressMask (pageStart_aligned v) (flags_small flags)]
  exact pageStart_add_pageOffset v

/-- A directory entry: the address of a table, the flags and the writable bit. -/
theorem Identity.directoryEntry (blocks : PageBlocks kheap)
    (identity : Identity kheap flags 1024 memory) {i : Nat} (inside : i < 1024) :
    let entry := loadWord memory (kheap 0) i
    entry &&& pagingAddressMask = kheap (i + 1) ∧
      pageOffset entry = flags.toUInt32 ||| pagingIsWritable := by
  have aligned := blocks.aligned (i + 1) (by omega)
  have small := directoryFlags_small flags
  dsimp only
  rw [identity.directory i inside, UInt32.or_assoc]
  exact ⟨and_pagingAddressMask aligned small, and_pageOffset aligned small⟩

/-- **A new directory is an identity map of the whole space.** Every address translates to itself, its
table entry carries exactly the flags, and every directory entry carries the flags with the writable
bit and masks back to its own table. -/
theorem pagingNew4gb_maps_identically (blocks : PageBlocks kheap) (flags : UInt8) (memory : Words) :
    let chunk := pagingNew4gb kheap flags memory
    let directory := paging4gbChunkGetDirectory chunk.2 chunk.1
    (∀ v, physicalAddress chunk.2 directory v = v ∧
      pageOffset (walkEntry chunk.2 directory v) = flags.toUInt32) ∧
    ∀ i, i < pagingTotalEntriesPerTable →
      loadWord chunk.2 directory i &&& pagingAddressMask = kheap (i + 1) ∧
        pageOffset (loadWord chunk.2 directory i) = flags.toUInt32 ||| pagingIsWritable := by
  obtain ⟨directory, identity⟩ := pagingNew4gb_identity blocks flags memory
  dsimp only
  rw [directory]
  constructor
  · intro v
    refine ⟨identity.physicalAddress blocks v, ?_⟩
    rw [identity.walkEntry blocks]
    exact and_pageOffset (pageStart_aligned v) (flags_small flags)
  · intro i inside
    exact identity.directoryEntry blocks inside

/-- The map of the kernel, with its tables at the start of the heap. -/
theorem pagingNew4gb_maps_identically_kernel :
    let chunk := pagingNew4gb firstBlocks 7 fun _ => 0
    let directory := paging4gbChunkGetDirectory chunk.2 chunk.1
    physicalAddress chunk.2 directory 0xFFFFFFFF = 0xFFFFFFFF ∧
      loadWord chunk.2 directory 3 &&& pagingAddressMask = 0x01004000 := by
  obtain ⟨every, entries⟩ := pagingNew4gb_maps_identically firstBlocks_pages 7 fun _ => 0
  exact ⟨(every _).1, (entries 3 (by decide)).1⟩

end Map

end KernelPlay
