/-
**The block allocator of `memory/heap/heap.c`.**

Memory is one array of bytes; the entry table and the blocks both live in it, and a pointer is a
32-bit address. Every loop carries the number of turns it can take before it comes back to an
address it has left; `heapFree` returns nothing when that number runs out.
-/

import KernelPlay.Config
import KernelPlay.Library.Machine

namespace KernelPlay.BlockHeap

open KernelPlay.Library

/-- The bytes of the machine, by address. -/
abbrev Memory := Nat → UInt8

/-- `memset` on `size` bytes from `ptr`. -/
def memset (memory : Memory) (ptr : Nat) (c : UInt8) (size : Nat) : Memory :=
  fun address =>
    if address < 4294967296 ∧ uint32 ((address : Int) - ptr) < size then c else memory address

/-- One byte stored. -/
def store (memory : Memory) (ptr : Nat) (value : UInt8) : Memory :=
  fun address => if address = ptr then value else memory address

def heapBlockTableEntryTake : UInt8 := 0x01
def heapBlockTableEntryFree : UInt8 := 0x00
def heapBlockHasNext : UInt8 := 0b10000000
def heapBlockIsFirst : UInt8 := 0b01000000

/-- `heap_table_t`: the address of the first entry and the number of entries. -/
structure HeapTable where
  entries : Nat
  size : Nat
  deriving DecidableEq, Repr

/-- `heap_t`. -/
structure Heap where
  table : HeapTable
  startAddr : Nat
  deriving DecidableEq, Repr

/-- The first address behind the table. -/
def HeapTable.finish (table : HeapTable) : Nat := uint32 ((table.entries : Int) + table.size)

def validateAlignment (ptr blockSize : Nat) : Bool := ptr % blockSize == 0

def heapCreate (memory : Memory) (heapStart tableStart heapSize blockSize : Nat) :
    Except Int (Heap × Memory) :=
  let heapEnd := uint32 ((heapStart : Int) + heapSize)
  if !validateAlignment heapStart blockSize || !validateAlignment heapEnd blockSize then
    .error (-einvarg)
  else
    let tableSize := heapSize / blockSize
    .ok (⟨⟨tableStart, tableSize⟩, heapStart⟩,
      memset memory tableStart heapBlockTableEntryFree tableSize)

def heapAlignToUpper (val : Nat) : Nat :=
  let rem := val % 4096
  if rem = 0 then val else uint32 ((val : Int) + kernelHeapBlockSize - rem)

def isFreeBlock (memory : Memory) (entry : Nat) : Bool :=
  heapBlockTableEntryTake &&& memory entry == 0

/-- The loop tests every entry from `curStart` up to `curEnd`, and only `curStart` against the end
of the table. -/
def isFreeBlocks (memory : Memory) (curStart curEnd finish : Nat) : Bool :=
  if finish ≤ curStart then false
  else (List.range' curStart (curEnd - curStart)).all (isFreeBlock memory)

/-- The entry is read before it is compared with the end of the table. -/
def findNextFreeBlock (memory : Memory) (finish : Nat) : Nat → Nat → Nat
  | 0, p => p
  | turns + 1, p =>
    if !isFreeBlock memory p && p < finish then findNextFreeBlock memory finish turns (p + 1)
    else p

def findFreeBlockStartLoop (memory : Memory) (finish : Nat) (blocks : Int) : Nat → Nat → Option Nat
  | 0, _ => none
  | turns + 1, curStart =>
    if curStart < finish then
      if isFreeBlocks memory curStart (uint32 (curStart + blocks)) finish then some curStart
      else findFreeBlockStartLoop memory finish blocks turns
        (findNextFreeBlock memory finish (finish - curStart) (curStart + 1))
    else none

def findFreeBlockStart (heap : Heap) (memory : Memory) (blocks : Int) : Option Nat :=
  let start := heap.table.entries
  let finish := heap.table.finish
  findFreeBlockStartLoop memory finish blocks (heap.table.size + 1)
    (findNextFreeBlock memory finish heap.table.size start)

/-- The entry written at `cur` for a run that goes from `start` up to `finish`. -/
def takenEntry (start finish cur : Nat) : UInt8 :=
  heapBlockTableEntryTake ||| (if cur = start then heapBlockIsFirst else 0) |||
    (if cur + 1 < finish then heapBlockHasNext else 0)

def heapMarkTableEntriesTaken (memory : Memory) (start : Nat) (blocks : Int) : Memory :=
  let finish := uint32 (start + blocks)
  (List.range' start (finish - start)).foldl
    (fun memory cur => store memory cur (takenEntry start finish cur)) memory

/-- The pointer returned, `0` for `NULL`, and the memory after the call. An entry at address 0 is
`NULL` as well. -/
def heapMallocBlocks (heap : Heap) (memory : Memory) (blocks : Int) : Nat × Memory :=
  match findFreeBlockStart heap memory blocks with
  | some freeStart =>
    if freeStart ≠ 0 then
      let blockStart : Int := freeStart - heap.table.entries
      (uint32 (heap.startAddr + blockStart * kernelHeapBlockSize),
        heapMarkTableEntriesTaken memory freeStart blocks)
    else (0, memory)
  | none => (0, memory)

def heapMalloc (heap : Heap) (memory : Memory) (size : Nat) : Nat × Memory :=
  let alignedSize := int32 (heapAlignToUpper size)
  heapMallocBlocks heap memory (alignedSize.tdiv kernelHeapBlockSize)

def heapTableEntryHasNext (memory : Memory) (entry : Nat) : Bool :=
  0 < heapBlockHasNext &&& memory entry

/-- The entry is cleared and left before the has-next bit is looked at, so the bit tested is the
one of the entry behind. -/
def heapFreeLoop : Nat → Memory → Nat → Nat → Option Memory
  | 0, _, _, _ => none
  | turns + 1, memory, entry, curDataBlock =>
    let memory := memset memory curDataBlock 0 4096
    let memory := store memory entry heapBlockTableEntryFree
    let entry := uint32 ((entry : Int) + 1)
    let curDataBlock := uint32 (curDataBlock + kernelHeapBlockSize)
    if heapTableEntryHasNext memory entry then heapFreeLoop turns memory entry curDataBlock
    else some memory

/-- The turns after which the free loop is back at the first entry it cleared. -/
def heapFreeTurns : Nat := 4294967296

def heapFree (heap : Heap) (memory : Memory) (ptr : Nat) : Option Memory :=
  let blockStart := (int32 ((ptr : Int) - heap.startAddr)).tdiv kernelHeapBlockSize
  heapFreeLoop heapFreeTurns memory (uint32 (heap.table.entries + blockStart)) ptr

end KernelPlay.BlockHeap
