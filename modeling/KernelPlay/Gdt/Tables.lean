/-
**The three tables together: `gdt_table_init` and `tss_init` of `kernel.c` behind `idtr_init`.**

* `gdtTableInit` packs the kernel's segments into memory and loads the register; `tssInit` writes
  the stack for interrupts from user mode and loads the task register, which marks the segment busy.
* `interruptFromUser` is what the processor does with the tables when an interrupt comes in user
  mode: it looks at the gate, its code segment, and the stack in the task state segment with its
  data segment.

`user_interrupts_enter` — every vector enters the kernel's handler on the kernel's stack, whatever
the kernel writes beside the tables.
-/

import KernelPlay.Gdt.Descriptors
import KernelPlay.Idt.Gates

namespace KernelPlay

open KernelPlay.Library

/-! ### The code -/

def kernelTotalGdtSegments : Nat := 6

def kernelDataSelector : Nat := 0x10

section Code

variable (memory : Nat → UInt8)

/-- A record of the table, field by field. -/
def storeGdt (ptr : Nat) (gdt : Gdt) : Nat → UInt8 :=
  let memory := storeBytes memory ptr 2 gdt.limitFirst.toNat
  let memory := storeBytes memory (ptr + 2) 2 gdt.baseFirst.toNat
  let memory := storeBytes memory (ptr + 4) 1 gdt.base.toNat
  let memory := storeBytes memory (ptr + 5) 1 gdt.accessType.toNat
  let memory := storeBytes memory (ptr + 6) 1 gdt.flagsAndLimit.toNat
  storeBytes memory (ptr + 7) 1 gdt.base2431Bits.toNat

def gdtAt (ptr : Nat) : Gdt where
  limitFirst := UInt16.ofNat (loadBytes memory ptr 2)
  baseFirst := UInt16.ofNat (loadBytes memory (ptr + 2) 2)
  base := UInt8.ofNat (loadBytes memory (ptr + 4) 1)
  accessType := UInt8.ofNat (loadBytes memory (ptr + 5) 1)
  flagsAndLimit := UInt8.ofNat (loadBytes memory (ptr + 6) 1)
  base2431Bits := UInt8.ofNat (loadBytes memory (ptr + 7) 1)

/-- The first records of a table. -/
def storeGdts (ptr : Nat) (gdt : Nat → Gdt) : Nat → Nat → UInt8
  | 0 => memory
  | count + 1 => storeGdt (storeGdts ptr gdt count) (ptr + 8 * count) (gdt count)

/-- `gdt_structured_table`. -/
def gdtStructuredTable (tss : UInt32) (index : Nat) : GdtStructured :=
  [⟨0x00, 0x00, 0x00⟩, ⟨0x00, 0xFFFFFFFF, 0x9A⟩, ⟨0x00, 0xFFFFFFFF, 0x92⟩, ⟨0x00, 0xFFFFFFFF, 0xF8⟩,
    ⟨0x00, 0xFFFFFFFF, 0xF2⟩, ⟨tss, 104, 0xE9⟩].getD index ⟨0, 0, 0⟩

/-- Where the linker puts the tables. -/
structure KernelSymbols extends IdtSymbols where
  gdtTable : UInt32
  gdtDescriptor : UInt32
  tss : UInt32

/-- `gdt_load`, up to its `lgdt`: the register has the format of that of the interrupt table. -/
def gdtLoad (gdtDescriptor gdt size : Nat) : (Nat → UInt8) × Idtr :=
  let memory := storeBytes memory (gdtDescriptor + 2) 4 gdt
  let memory := storeBytes memory gdtDescriptor 2 size
  (memory, idtLoad memory gdtDescriptor)

def gdtTableInit (symbols : KernelSymbols) : (Nat → UInt8) × Idtr :=
  let gdtTable := symbols.gdtTable.toNat
  let memory := BlockHeap.memset memory gdtTable 0 (8 * kernelTotalGdtSegments)
  let gdt := gdtStructuredToGdt (fun index => gdtAt memory (gdtTable + 8 * index))
    (gdtStructuredTable symbols.tss) kernelTotalGdtSegments
  let memory := storeGdts memory gdtTable gdt.2 kernelTotalGdtSegments
  gdtLoad memory symbols.gdtDescriptor.toNat gdtTable (kernelTotalGdtSegments * 8 - 1)

end Code

/-! ### What the processor does -/

namespace Gdt

variable (descriptor : Gdt)

def present : Bool := descriptor.accessType.toNat.testBit 7

def privilege : Nat := descriptor.accessType.toNat / 32 % 4

/-- A code segment that keeps the privilege of its callers out. -/
def isCode : Bool := descriptor.accessType.toNat / 4 % 8 = 6

/-- A data segment that can be written. -/
def isWritable : Bool := descriptor.accessType.toNat / 8 % 4 = 2 && descriptor.accessType.toNat.testBit 1

/-- A task state segment of 32 bits that is not busy. -/
def isFreeTask : Bool := descriptor.accessType.toNat % 32 = 9

end Gdt

/-- The descriptor of a selector. -/
def segmentOf (memory : Nat → UInt8) (gdtr : Idtr) (selector : Nat) : Option Gdt :=
  if selector / 8 = 0 ∨ selector / 4 % 2 = 1 ∨ gdtr.limit < 8 * (selector / 8) + 7 then none
  else some (gdtAt memory (gdtr.base + 8 * (selector / 8)))

structure TaskRegister where
  base : Nat
  limit : Nat
  deriving DecidableEq, Repr

/-- `ltr` marks the segment busy. -/
def ltr (memory : Nat → UInt8) (gdtr : Idtr) (selector : Nat) :
    Option ((Nat → UInt8) × TaskRegister) := do
  let descriptor ← segmentOf memory gdtr selector
  if descriptor.present && descriptor.isFreeTask then
    some (storeBytes memory (gdtr.base + 8 * (selector / 8) + 5) 1 (descriptor.accessType.toNat + 2),
      ⟨descriptor.segmentBase, descriptor.byteLimit⟩)
  else none

def tssInit (memory : Nat → UInt8) (symbols : KernelSymbols) (gdtr : Idtr) :
    Option ((Nat → UInt8) × TaskRegister) :=
  let tss := symbols.tss.toNat
  let memory := BlockHeap.memset memory tss 0 104
  let memory := storeBytes memory (tss + 4) 4 0x600000
  let memory := storeBytes memory (tss + 8) 4 kernelDataSelector
  ltr memory gdtr (5 * 8)

/-- `kernel_main` up to `gdt_table_init`: the memory, and the registers of the two tables. -/
def kernelTables (memory : Nat → UInt8) (symbols : KernelSymbols) : (Nat → UInt8) × Idtr × Idtr :=
  let (memory, idtr) := idtrInit memory symbols.toIdtSymbols
  let (memory, gdtr) := gdtTableInit memory symbols
  (memory, idtr, gdtr)

/-- Where an interrupt arrives: the stack and the first instruction. -/
structure KernelEntry where
  ss : Nat
  esp : Nat
  cs : Nat
  eip : Nat
  deriving DecidableEq, Repr

/-- **An interrupt in user mode**, by an instruction or from a device. -/
def interruptFromUser (memory : Nat → UInt8) (idtr gdtr : Idtr) (task : TaskRegister) (vector : Nat) :
    Option KernelEntry := do
  let gate ← vectorGate memory idtr vector
  let code ← segmentOf memory gdtr gate.selector
  let esp := loadBytes memory (task.base + 4) 4
  let ss := loadBytes memory (task.base + 8) 2
  let stack ← segmentOf memory gdtr ss
  if gate.privilege = 3 ∧ code.present ∧ code.isCode ∧ code.privilege = 0 ∧
      gate.offset ≤ code.byteLimit ∧ 9 ≤ task.limit ∧ ss % 4 = 0 ∧ stack.present ∧
      stack.isWritable ∧ stack.privilege = 0 then
    some ⟨ss, esp, gate.selector, gate.offset⟩
  else none

/-! ### Records in memory -/

section Records

variable {memory memory' : Nat → UInt8} {ptr address : Nat} {gdt : Gdt}

theorem gdtAt_congr (same : ∀ index, index < 8 → memory (ptr + index) = memory' (ptr + index)) :
    gdtAt memory ptr = gdtAt memory' ptr := by
  have field (place count : Nat) (inside : place + count ≤ 8) :
      loadBytes memory (ptr + place) count = loadBytes memory' (ptr + place) count :=
    loadBytes_congr fun index below => by
      rw [Nat.add_assoc]
      exact same _ (by omega)
  rw [gdtAt, gdtAt, field 2 2 (by decide), field 4 1 (by decide), field 5 1 (by decide),
    field 6 1 (by decide), field 7 1 (by decide)]
  rw [show loadBytes memory ptr 2 = loadBytes memory' ptr 2 from field 0 2 (by decide)]

theorem storeGdt_outside (outside : address < ptr ∨ ptr + 8 ≤ address) :
    storeGdt memory ptr gdt address = memory address := by
  unfold storeGdt
  rw [storeBytes_outside _ (by omega), storeBytes_outside _ (by omega), storeBytes_outside _ (by omega),
    storeBytes_outside _ (by omega), storeBytes_outside _ (by omega), storeBytes_outside _ (by omega)]

/-- **A record stored is loaded back.** -/
theorem gdtAt_storeGdt : gdtAt (storeGdt memory ptr gdt) ptr = gdt := by
  have word (value : UInt16) : value.toNat < 256 ^ 2 := value.toNat_lt
  have byte (value : UInt8) : value.toNat < 256 ^ 1 := value.toNat_lt
  obtain ⟨limitFirst, baseFirst, base, accessType, flagsAndLimit, base2431Bits⟩ := gdt
  unfold gdtAt storeGdt
  dsimp only
  rw [Gdt.mk.injEq]
  refine ⟨?_, ?_, ?_, ?_, ?_, ?_⟩
  · rw [loadBytes_storeBytes_apart (by omega), loadBytes_storeBytes_apart (by omega),
      loadBytes_storeBytes_apart (by omega), loadBytes_storeBytes_apart (by omega),
      loadBytes_storeBytes_apart (by omega), loadBytes_storeBytes _ (word _)]
    exact UInt16.ofNat_toNat
  · rw [loadBytes_storeBytes_apart (by omega), loadBytes_storeBytes_apart (by omega),
      loadBytes_storeBytes_apart (by omega), loadBytes_storeBytes_apart (by omega),
      loadBytes_storeBytes _ (word _)]
    exact UInt16.ofNat_toNat
  · rw [loadBytes_storeBytes_apart (by omega), loadBytes_storeBytes_apart (by omega),
      loadBytes_storeBytes_apart (by omega), loadBytes_storeBytes _ (byte _)]
    exact UInt8.ofNat_toNat
  · rw [loadBytes_storeBytes_apart (by omega), loadBytes_storeBytes_apart (by omega),
      loadBytes_storeBytes _ (byte _)]
    exact UInt8.ofNat_toNat
  · rw [loadBytes_storeBytes_apart (by omega), loadBytes_storeBytes _ (byte _)]
    exact UInt8.ofNat_toNat
  · rw [loadBytes_storeBytes _ (byte _)]
    exact UInt8.ofNat_toNat

theorem storeGdts_outside {records : Nat → Gdt} (count : Nat)
    (outside : address < ptr ∨ ptr + 8 * count ≤ address) :
    storeGdts memory ptr records count address = memory address := by
  induction count with
  | zero => rfl
  | succ count ih => rw [storeGdts, storeGdt_outside (by omega), ih (by omega)]

/-- **The table stored is loaded back.** -/
theorem gdtAt_storeGdts {records : Nat → Gdt} (count : Nat) {index : Nat} (below : index < count) :
    gdtAt (storeGdts memory ptr records count) (ptr + 8 * index) = records index := by
  induction count with
  | zero => exact absurd below (Nat.not_lt_zero index)
  | succ count ih =>
    rw [storeGdts]
    rcases Nat.lt_succ_iff_lt_or_eq.mp below with before | rfl
    · rw [gdtAt_congr fun place inside => storeGdt_outside (by omega), ih before]
    · exact gdtAt_storeGdt

end Records

/-! ### Where the tables lie -/

/-- The tables and the records of the registers, by address and size. -/
def KernelSymbols.regions (symbols : KernelSymbols) : List (Nat × Nat) :=
  [(symbols.idtDescriptors.toNat, 4096), (symbols.idtrDescriptor.toNat, 6), (symbols.gdtTable.toNat, 48),
    (symbols.gdtDescriptor.toNat, 6), (symbols.tss.toNat, 104)]

/-- The address is one of theirs. -/
def KernelSymbols.Holds (symbols : KernelSymbols) (address : Nat) : Prop :=
  ∃ region ∈ symbols.regions, region.1 ≤ address ∧ address < region.1 + region.2

/-- They lie in memory, apart from each other. -/
structure KernelSymbols.Placed (symbols : KernelSymbols) : Prop where
  room : ∀ region ∈ symbols.regions, region.1 + region.2 ≤ 4294967296
  apart : symbols.regions.Pairwise fun one other => one.1 + one.2 ≤ other.1 ∨ other.1 + other.2 ≤ one.1

section Init

variable {memory memory' : Nat → UInt8} {symbols : KernelSymbols} {address : Nat}

theorem KernelSymbols.Placed.idt (placed : symbols.Placed) : symbols.toIdtSymbols.Placed := by
  obtain ⟨room, apart⟩ := placed
  simp only [KernelSymbols.regions, List.pairwise_cons, List.forall_mem_cons] at room apart
  exact ⟨room.1, apart.1.1.symm⟩

theorem gdtStructuredTable_packable {tss : UInt32} {index : Nat}
    (listed : index < kernelTotalGdtSegments) :
    Packable (gdtStructuredTable tss index).limit := by
  have packable : ∀ entry ∈ (List.range 6).map (gdtStructuredTable tss), Packable entry.limit := by
    simp [List.range_succ, gdtStructuredTable, Packable]
  exact packable _ (List.mem_map_of_mem (List.mem_range.mpr listed))

/-- **The descriptors are those of the segments.** -/
theorem gdtTableInit_entries (placed : symbols.Placed) {index : Nat}
    (listed : index < kernelTotalGdtSegments) :
    gdtAt (gdtTableInit memory symbols).1 (symbols.gdtTable.toNat + 8 * index) =
      gdtPack (gdtStructuredTable symbols.tss index) := by
  obtain ⟨-, apart⟩ := placed
  simp only [KernelSymbols.regions, List.pairwise_cons, List.forall_mem_cons] at apart
  have register := apart.2.2.1.1
  unfold kernelTotalGdtSegments at listed
  rw [gdtTableInit, gdtLoad, kernelTotalGdtSegments]
  generalize BlockHeap.memset memory symbols.gdtTable.toNat 0 (8 * 6) = cleared
  dsimp only
  rw [gdtAt_congr fun place inside =>
    (storeBytes_outside _ (by omega)).trans (storeBytes_outside _ (by omega)),
    gdtAt_storeGdts 6 listed]
  generalize (fun index => gdtAt cleared (symbols.gdtTable.toNat + 8 * index)) = gdt
  have start : PackedUpTo (gdtStructuredTable symbols.tss) gdt 0 gdt :=
    ⟨fun i below => absurd below (Nat.not_lt_zero i), fun i below => absurd below (Nat.not_lt_zero i),
      fun i _ => rfl⟩
  rcases packs_loop 6 0 gdt start with ⟨packed, returns, upto⟩ | ⟨stop, packed, -, inside, unpackable, -⟩
  · rw [gdtStructuredToGdt, returns]
    exact upto.written index (by omega)
  · exact absurd (gdtStructuredTable_packable (show stop < 6 by omega)) unpackable

theorem gdtTableInit_outside (room : symbols.gdtTable.toNat + 48 ≤ 4294967296)
    (beside : address < symbols.gdtTable.toNat ∨ symbols.gdtTable.toNat + 48 ≤ address)
    (apart : address < symbols.gdtDescriptor.toNat ∨ symbols.gdtDescriptor.toNat + 6 ≤ address) :
    (gdtTableInit memory symbols).1 address = memory address := by
  rw [gdtTableInit, gdtLoad, kernelTotalGdtSegments]
  dsimp only
  rw [storeBytes_outside _ (by omega), storeBytes_outside _ (by omega), storeGdts_outside 6 (by omega),
    BlockHeap.memset_apply memory 0 (by omega), if_neg (by omega)]

theorem gdtTableInit_register : (gdtTableInit memory symbols).2 = ⟨47, symbols.gdtTable.toNat⟩ := by
  have below := symbols.gdtTable.toNat_lt
  rw [gdtTableInit, gdtLoad, kernelTotalGdtSegments, idtLoad, Idtr.mk.injEq]
  constructor
  · exact loadBytes_storeBytes _ (by decide)
  · rw [loadBytes_storeBytes_apart (by omega), loadBytes_storeBytes _ (by omega)]

/-! ### What an interrupt finds -/

/-- The handler of a vector. -/
def IdtSymbols.handler (symbols : IdtSymbols) (vector : Nat) : UInt32 :=
  if vector = 0x21 then symbols.int21h else symbols.noInterrupt

/-- The gates of all vectors, and the first segments. -/
structure KernelSymbols.SetUp (symbols : KernelSymbols) (count : Nat) (memory : Nat → UInt8) : Prop where
  gate : ∀ vector, vector < 512 →
    gateAt memory (symbols.idtDescriptors.toNat + 8 * vector) = handlerGate (symbols.handler vector)
  segment : ∀ index, index < count →
    gdtAt memory (symbols.gdtTable.toNat + 8 * index) = gdtPack (gdtStructuredTable symbols.tss index)

/-- **The tables lead into the kernel**: the gates, all segments but the one that is busy, and the
stack. -/
structure KernelSymbols.Leads (symbols : KernelSymbols) (memory : Nat → UInt8) : Prop where
  tables : symbols.SetUp 5 memory
  esp0 : loadBytes memory (symbols.tss.toNat + 4) 4 = 0x600000
  ss0 : loadBytes memory (symbols.tss.toNat + 8) 2 = kernelDataSelector

namespace KernelSymbols

theorem holds_of_region {region : Nat × Nat} (member : region ∈ symbols.regions) {index : Nat}
    (inside : index < region.2) : symbols.Holds (region.1 + index) :=
  ⟨region, member, Nat.le_add_right _ _, Nat.add_lt_add_left inside _⟩

theorem beside_of_not_holds (free : ¬ symbols.Holds address) {region : Nat × Nat}
    (member : region ∈ symbols.regions) : address < region.1 ∨ region.1 + region.2 ≤ address := by
  by_contra inside
  exact free ⟨region, member, by omega, by omega⟩

theorem mem_regions : (symbols.idtDescriptors.toNat, 4096) ∈ symbols.regions ∧
    (symbols.idtrDescriptor.toNat, 6) ∈ symbols.regions ∧
      (symbols.gdtTable.toNat, 48) ∈ symbols.regions ∧
    (symbols.gdtDescriptor.toNat, 6) ∈ symbols.regions ∧ (symbols.tss.toNat, 104) ∈ symbols.regions := by
  simp [regions]

/-- Only the bytes of the two tables matter. -/
theorem SetUp.congr {count : Nat} (tables : symbols.SetUp count memory)
    (idt : ∀ index, index < 4096 →
      memory' (symbols.idtDescriptors.toNat + index) = memory (symbols.idtDescriptors.toNat + index))
    (gdt : ∀ index, index < 8 * count →
      memory' (symbols.gdtTable.toNat + index) = memory (symbols.gdtTable.toNat + index)) :
    symbols.SetUp count memory' where
  gate vector listed := by
    rw [← tables.gate vector listed]
    refine gateAt_congr fun index below => ?_
    rw [Nat.add_assoc]
    exact idt _ (by omega)
  segment index listed := by
    rw [← tables.segment index listed]
    refine gdtAt_congr fun place below => ?_
    rw [Nat.add_assoc]
    exact gdt _ (by omega)

theorem SetUp.kept {count : Nat} (tables : symbols.SetUp count memory) (few : count ≤ 6)
    (same : ∀ address, symbols.Holds address → memory' address = memory address) :
    symbols.SetUp count memory' := by
  obtain ⟨idt, -, gdt, -, -⟩ := @mem_regions symbols
  exact tables.congr (fun index inside => same _ (holds_of_region idt inside))
    fun index inside => same _ (holds_of_region gdt
      (Nat.lt_of_lt_of_le inside (Nat.mul_le_mul_left 8 few)))

theorem Leads.kept (leads : symbols.Leads memory)
    (same : ∀ address, symbols.Holds address → memory' address = memory address) :
    symbols.Leads memory' := by
  obtain ⟨-, -, -, -, tss⟩ := @mem_regions symbols
  have field (place count : Nat) (inside : place + count ≤ 104) :
      loadBytes memory' (symbols.tss.toNat + place) count =
        loadBytes memory (symbols.tss.toNat + place) count :=
    loadBytes_congr fun index below => by
      rw [Nat.add_assoc]
      exact same _ (holds_of_region tss (show place + index < 104 by omega))
  exact ⟨leads.tables.kept (by decide) same, (field 4 4 (by decide)).trans leads.esp0,
    (field 8 2 (by decide)).trans leads.ss0⟩

/-- **An interrupt in user mode** by tables that lead into the kernel. -/
theorem Leads.enters (leads : symbols.Leads memory) {vector : Nat} (listed : vector < 512) :
    interruptFromUser memory ⟨4095, symbols.idtDescriptors.toNat⟩ ⟨47, symbols.gdtTable.toNat⟩
        ⟨symbols.tss.toNat, 104⟩ vector =
      some ⟨0x10, 0x600000, 8, (symbols.handler vector).toNat⟩ := by
  obtain ⟨⟨gate, segment⟩, esp0, ss0⟩ := leads
  have found : vectorGate memory ⟨4095, symbols.idtDescriptors.toNat⟩ vector =
      some (handlerGate (symbols.handler vector)) := by
    rw [vectorGate, if_neg (by dsimp only; omega), gate vector listed, if_pos (handlerGate_fields _).1]
  have code : segmentOf memory ⟨47, symbols.gdtTable.toNat⟩ kernelCodeSelector =
      some (gdtPack ⟨0, 0xFFFFFFFF, 0x9A⟩) := congrArg some (segment 1 (by decide))
  have stack : segmentOf memory ⟨47, symbols.gdtTable.toNat⟩ kernelDataSelector =
      some (gdtPack ⟨0, 0xFFFFFFFF, 0x92⟩) := congrArg some (segment 2 (by decide))
  have limit : (gdtPack ⟨0, 0xFFFFFFFF, 0x9A⟩).byteLimit = 4294967295 := by decide
  have below := (symbols.handler vector).toNat_lt
  simp only [interruptFromUser, found, Option.bind_eq_bind, Option.bind_some, esp0, ss0]
  rw [show (handlerGate (symbols.handler vector)).selector = kernelCodeSelector from rfl, code, stack,
    Option.bind_some, Option.bind_some, if_pos]
  · rfl
  · refine ⟨(handlerGate_fields _).2.1, by decide, by decide, by decide, ?_, by decide, by decide,
      by decide, by decide, by decide⟩
    rw [limit]
    exact Nat.le_of_lt_succ below

/-- The memory in front of the `ltr` of `tss_init`. -/
theorem tssWritten (room : symbols.tss.toNat + 104 ≤ 4294967296) :
    ∃ written : Nat → UInt8, tssInit memory symbols ⟨47, symbols.gdtTable.toNat⟩ =
        ltr written ⟨47, symbols.gdtTable.toNat⟩ (5 * 8) ∧
      (∀ address, address < symbols.tss.toNat ∨ symbols.tss.toNat + 104 ≤ address →
        written address = memory address) ∧
      loadBytes written (symbols.tss.toNat + 4) 4 = 0x600000 ∧
      loadBytes written (symbols.tss.toNat + 8) 2 = kernelDataSelector := by
  refine ⟨_, rfl, fun address beside => ?_, ?_, ?_⟩
  · rw [storeBytes_outside _ (by omega), storeBytes_outside _ (by omega),
      BlockHeap.memset_apply memory 0 room, if_neg (by omega)]
  · rw [loadBytes_storeBytes_apart (by omega), loadBytes_storeBytes _ (by decide)]
  · generalize storeBytes (BlockHeap.memset memory symbols.tss.toNat 0 104)
      (symbols.tss.toNat + 4) 4 0x600000 = before
    -- The selector is the lower half of the field.
    have halves := loadBytes_add (storeBytes before (symbols.tss.toNat + 8) 4 kernelDataSelector)
      (symbols.tss.toNat + 8) 2 2
    rw [loadBytes_storeBytes _ (by decide)] at halves
    unfold kernelDataSelector at halves ⊢
    omega

/-- **`tss_init`** writes its segment, marks it busy in the table, and the tables lead into the
kernel. -/
theorem SetUp.tssInit (placed : symbols.Placed) (tables : symbols.SetUp kernelTotalGdtSegments memory) :
    ∃ memory', KernelPlay.tssInit memory symbols ⟨47, symbols.gdtTable.toNat⟩ =
        some (memory', ⟨symbols.tss.toNat, 104⟩) ∧
      (∀ address, ¬ symbols.Holds address → memory' address = memory address) ∧
        symbols.Leads memory' := by
  obtain ⟨-, -, gdt, -, tss⟩ := @mem_regions symbols
  obtain ⟨room, apart⟩ := placed
  have apart := apart
  simp only [regions, List.pairwise_cons, List.forall_mem_cons] at apart
  have idt_gdt := apart.1.2.1
  have idt_tss := apart.1.2.2.2.1
  have gdt_tss := apart.2.2.1.2.1
  obtain ⟨written, starts, outside, esp0, ss0⟩ := @tssWritten memory symbols (room _ tss)
  have segment : gdtAt memory (symbols.gdtTable.toNat + 40) = gdtPack ⟨symbols.tss, 104, 0xE9⟩ :=
    tables.segment 5 (by decide)
  have decodes := @decodes_gdtPack ⟨symbols.tss, 104, 0xE9⟩ (show Packable 104 by decide)
  have found : segmentOf written ⟨47, symbols.gdtTable.toNat⟩ (5 * 8) =
      some (gdtPack ⟨symbols.tss, 104, 0xE9⟩) := by
    rw [← segment, ← gdtAt_congr fun place inside =>
      outside (symbols.gdtTable.toNat + 40 + place) (by omega)]
    rfl
  have free : ((gdtPack ⟨symbols.tss, 104, 0xE9⟩).present &&
      (gdtPack ⟨symbols.tss, 104, 0xE9⟩).isFreeTask) = true := by
    unfold Gdt.present Gdt.isFreeTask
    rw [decodes.access]
    show ((0xE9 : UInt8).toNat.testBit 7 && decide ((0xE9 : UInt8).toNat % 32 = 9)) = true
    decide
  have loaded : ltr written ⟨47, symbols.gdtTable.toNat⟩ (5 * 8) =
      some (storeBytes written (symbols.gdtTable.toNat + 45) 1 0xEB, ⟨symbols.tss.toNat, 104⟩) := by
    rw [ltr, found, Option.bind_eq_bind, Option.bind_some, decodes.base, decodes.limit, if_pos free]
    rfl
  have kept (address : Nat) (beside : address < symbols.tss.toNat ∨ symbols.tss.toNat + 104 ≤ address)
      (apart : address ≠ symbols.gdtTable.toNat + 45) :
      storeBytes written (symbols.gdtTable.toNat + 45) 1 0xEB address = memory address := by
    rw [storeBytes_outside _ (by omega), outside address beside]
  have first : symbols.SetUp 5 memory :=
    ⟨tables.gate, fun index listed => tables.segment index (Nat.lt_succ_of_lt listed)⟩
  refine ⟨_, starts.trans loaded, fun address free => ?_,
    first.congr (fun index inside => kept _ (by omega) (by omega))
      (fun index inside => kept _ (by omega) (by omega)), ?_, ?_⟩
  · refine kept address (beside_of_not_holds free tss) fun busy => free ?_
    rw [busy]
    exact holds_of_region gdt (show 45 < 48 by decide)
  · rw [loadBytes_storeBytes_apart (by omega), esp0]
  · rw [loadBytes_storeBytes_apart (by omega), ss0]

end KernelSymbols

/-! ### The kernel's start -/

theorem kernelTables_outside (placed : symbols.Placed) (free : ¬ symbols.Holds address) :
    (kernelTables memory symbols).1 address = memory address := by
  obtain ⟨idt, idtr, gdt, gdtr, -⟩ := @KernelSymbols.mem_regions symbols
  have register := KernelSymbols.beside_of_not_holds free idtr
  dsimp only at register
  show (gdtTableInit (idtrInit memory symbols.toIdtSymbols).1 symbols).1 address = _
  rw [gdtTableInit_outside (placed.room _ gdt) (KernelSymbols.beside_of_not_holds free gdt)
      (KernelSymbols.beside_of_not_holds free gdtr),
    idtrInit_beside placed.idt (KernelSymbols.beside_of_not_holds free idt),
    storeBytes_outside _ (by omega), storeBytes_outside _ (by omega)]

theorem kernelTables_registers (placed : symbols.Placed) :
    (kernelTables memory symbols).2 =
      (⟨4095, symbols.idtDescriptors.toNat⟩, ⟨47, symbols.gdtTable.toNat⟩) :=
  Prod.ext (idtrInit_register placed.idt) gdtTableInit_register

/-- **Gates and segments are set up.** -/
theorem kernelTables_setUp (placed : symbols.Placed) :
    symbols.SetUp kernelTotalGdtSegments (kernelTables memory symbols).1 := by
  refine ⟨fun vector listed => ?_, fun index listed => gdtTableInit_entries placed listed⟩
  obtain ⟨-, -, room, -, -⟩ := @KernelSymbols.mem_regions symbols
  have apart := placed.apart
  simp only [KernelSymbols.regions, List.pairwise_cons, List.forall_mem_cons] at apart
  have gdt := apart.1.2.1
  have gdtr := apart.1.2.2.1
  have gate := @gates_idtrInit memory symbols.toIdtSymbols vector listed
  rw [IdtSymbols.handler, ← gate]
  exact gateAt_congr fun index below => gdtTableInit_outside (placed.room _ room) (by omega) (by omega)

/-- **Interrupts in user mode enter the kernel.** However the linker places the tables, `idtr_init`,
`gdt_table_init` and, after anything that leaves the tables alone, `tss_init` write nothing beside
the tables, and from then on, as long as the tables are left alone, every interrupt of the table
that comes in user mode, by an instruction or from a device, arrives at its handler in the kernel's
code segment and on the kernel's stack. -/
theorem user_interrupts_enter (memory : Nat → UInt8) (placed : symbols.Placed) :
    (∀ address, ¬ symbols.Holds address → (kernelTables memory symbols).1 address = memory address) ∧
    ∀ between : Nat → UInt8,
      (∀ address, symbols.Holds address → between address = (kernelTables memory symbols).1 address) →
      ∃ after task, tssInit between symbols (kernelTables memory symbols).2.2 = some (after, task) ∧
        (∀ address, ¬ symbols.Holds address → after address = between address) ∧
        ∀ later : Nat → UInt8, (∀ address, symbols.Holds address → later address = after address) →
          ∀ vector, vector < 512 →
            interruptFromUser later (kernelTables memory symbols).2.1
              (kernelTables memory symbols).2.2 task vector =
              some ⟨0x10, 0x600000, 8, (symbols.handler vector).toNat⟩ := by
  refine ⟨fun address free => kernelTables_outside placed free, fun between same => ?_⟩
  obtain ⟨after, starts, kept, leads⟩ :=
    ((kernelTables_setUp placed).kept (by decide) same).tssInit placed
  rw [kernelTables_registers placed]
  exact ⟨after, _, starts, kept,
    fun later unchanged vector listed => (leads.kept unchanged).enters listed⟩

/-- Tables one behind the other. -/
def smallTables : KernelSymbols := ⟨smallSymbols, 0x112000, 0x112030, 0x112036⟩

theorem smallTables_placed : smallTables.Placed := ⟨by decide, by decide⟩

/-- The keyboard in user mode, with nothing written since. -/
theorem user_interrupts_enter_key : ∃ after task,
    interruptFromUser after (kernelTables (fun _ => 0) smallTables).2.1
      (kernelTables (fun _ => 0) smallTables).2.2
        task 0x21 = some ⟨0x10, 0x600000, 8, 0x100200⟩ := by
  obtain ⟨after, task, -, -, enters⟩ :=
    (user_interrupts_enter (fun _ => 0) smallTables_placed).2 _ fun _ _ => rfl
  exact ⟨after, task, enters after (fun _ _ => rfl) 0x21 (by decide)⟩

end Init

end KernelPlay
