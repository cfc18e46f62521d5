/-
**The kernel's start and what follows: `kernel_main` over one memory.**

The heap, the screen and the tables of the processor share the memory, and nothing but their
addresses keeps them apart. `kernelStart` is `kernel_main` up to `kheap_init`; a `KernelStep` is a
call or a write of the heap, a print, or `tss_init`. `KernelHolds` puts the invariants of the three
side by side: the heap holds its records, the screen shows the text printed so far, and the tables
are set up.

`kernel_parts_apart` — in every run the three work as if each were alone.
-/

import KernelPlay.Gdt.Tables
import KernelPlay.Heap.Bump
import KernelPlay.Terminal.Screen

namespace KernelPlay

open KernelPlay.Library
open KernelPlay.BlockHeap (HeapState KheapEvent KheapStep KheapClear Records RecordStep Allocation kernelHeap)

/-! ### The machine -/

/-- The memory, and what the heap, the terminal and the processor keep of it. -/
structure KernelState where
  memory : Nat → UInt8
  live : List Allocation
  terminal : Terminal
  task : Option TaskRegister

def KernelState.heap (state : KernelState) : HeapState := ⟨state.memory, state.live⟩

/-- `"Welcome!\n"`. -/
def welcome : Text := ⟨[87, 101, 108, 99, 111, 109, 101, 33, 10], by decide⟩

/-- `kernel_main` up to `kheap_init`. -/
def kernelStart (memory : Nat → UInt8) (symbols : KernelSymbols) :
    Except Int (KernelState × Idtr × Idtr) := do
  let memory := terminalInitMemory memory
  let (terminal, memory) := printStringsMemory memory .start [welcome]
  let (memory, idtr, gdtr) := kernelTables memory symbols
  let (_, memory) ← BlockHeap.kheapInit memory
  return (⟨memory, [], terminal, none⟩, idtr, gdtr)

inductive KernelEvent
  | heap (event : KheapEvent)
  | print (input : Text)
  | tssInit

/-- **What the kernel does next.** -/
inductive KernelStep (symbols : KernelSymbols) (gdtr : Idtr) :
    KernelState → KernelEvent → KernelState → Prop
  | heap {state : KernelState} {event : KheapEvent} {next : HeapState} :
      KheapStep kernelHeap state.heap event next →
      KernelStep symbols gdtr state (.heap event)
        ⟨next.memory, next.live, state.terminal, state.task⟩
  | print {state : KernelState} {input : Text} {terminal : Terminal} {memory : Nat → UInt8} :
      printStringsMemory state.memory state.terminal [input] = (terminal, memory) →
      KernelStep symbols gdtr state (.print input) ⟨memory, state.live, terminal, state.task⟩
  | tssInit {state : KernelState} {memory : Nat → UInt8} {task : TaskRegister} :
      state.task = none →
      KernelPlay.tssInit state.memory symbols gdtr = some (memory, task) →
      KernelStep symbols gdtr state .tssInit ⟨memory, state.live, state.terminal, some task⟩

/-- The heap is asked for what it can answer. -/
def KernelClear (state : KernelState) : KernelEvent → Prop
  | .heap event => KheapClear kernelHeap state.heap event
  | _ => True

def heapEvents (events : List KernelEvent) : List KheapEvent :=
  events.filterMap fun
    | .heap event => some event
    | _ => none

def printedTexts (events : List KernelEvent) : List Text :=
  events.filterMap fun
    | .print input => some input
    | _ => none

/-- The linker puts the tables behind the first MiB, and in front of the heap. -/
def KernelSymbols.InImage (symbols : KernelSymbols) : Prop :=
  ∀ region ∈ symbols.regions, 0x100000 ≤ region.1 ∧ region.1 + region.2 ≤ 0x1000000

/-! ### The parts of the memory -/

section Parts

variable {symbols : KernelSymbols} {address : Nat}

theorem outside_kernelHeap_iff : kernelHeap.Outside address ↔
    (address < 0x7E00 ∨ 0x7E00 + 25600 ≤ address) ∧
      (address < 0x1000000 ∨ 0x1000000 + 4096 * 25600 ≤ address) := Iff.rfl

theorem outside_of_screen (seen : ¬ OffScreen address) : kernelHeap.Outside address := by
  unfold OffScreen at seen
  rw [outside_kernelHeap_iff]
  omega

theorem offScreen_of_heap (held : ¬ kernelHeap.Outside address) : OffScreen address := by
  rw [outside_kernelHeap_iff] at held
  unfold OffScreen
  omega

theorem KernelSymbols.InImage.bounds (image : symbols.InImage) (held : symbols.Holds address) :
    0x100000 ≤ address ∧ address < 0x1000000 := by
  obtain ⟨region, member, low, high⟩ := held
  have bounds := image region member
  omega

theorem KernelSymbols.InImage.offScreen (image : symbols.InImage) (held : symbols.Holds address) :
    OffScreen address := by
  have bounds := image.bounds held
  unfold OffScreen
  omega

theorem KernelSymbols.InImage.outside (image : symbols.InImage) (held : symbols.Holds address) :
    kernelHeap.Outside address := by
  have bounds := image.bounds held
  rw [outside_kernelHeap_iff]
  omega

end Parts

/-! ### Runs -/

/-- **The three parts side by side.** -/
structure KernelHolds (symbols : KernelSymbols) (state : KernelState) (text : List UInt8)
    (records : Records) : Prop where
  heap : BlockHeap.Holds kernelHeap state.heap records
  screen : Drawn state.memory state.terminal text
  starts : state.task = none → symbols.SetUp kernelTotalGdtSegments state.memory
  leads : ∀ task, state.task = some task → task = ⟨symbols.tss.toNat, 104⟩ ∧ symbols.Leads state.memory

section Runs

variable {symbols : KernelSymbols} {state state' : KernelState} {text : List UInt8}
  {records : Records} {event : KernelEvent} {events : List KernelEvent} {answer : Nat → Nat}

/-- **One step**: what one part writes, the others do not look at. -/
theorem KernelHolds.step (placed : symbols.Placed) (image : symbols.InImage)
    (holds : KernelHolds symbols state text records)
    (fits : FitsScreen (text ++ printed (printedTexts [event])))
    (agrees : BlockHeap.Agrees answer records.calls (heapEvents (event :: events)))
    (step : Guarded KernelClear (KernelStep symbols ⟨47, symbols.gdtTable.toNat⟩) state event state') :
    ∃ records', Run (RecordStep (.answering answer)) records (heapEvents [event]) records' ∧
      KernelHolds symbols state' (text ++ printed (printedTexts [event])) records' ∧
      BlockHeap.Agrees answer records'.calls (heapEvents events) := by
  have start : 0 < kernelHeap.startAddr := by decide
  obtain ⟨clear, step⟩ := step
  obtain ⟨heap, screen, starts, leads⟩ := holds
  cases step with
  | @heap event next step =>
    have outside {address : Nat} := @KheapStep.outside _ _ address BlockHeap.kernelHeap_placed start
      _ _ heap event ⟨clear, step⟩
    obtain ⟨records', one, held, agrees'⟩ :=
      heap.step BlockHeap.kernelHeap_placed start agrees ⟨clear, step⟩
    have tables (address : Nat) (member : symbols.Holds address) :
        next.memory address = state.memory address := outside (image.outside member)
    have drawn : Drawn next.memory state.terminal (text ++ printed []) := by
      rw [show text ++ printed [] = text from List.append_nil text]
      exact screen.kept fun address seen => outside (outside_of_screen seen)
    exact ⟨records', .step one (.done _),
      ⟨held, drawn, fun none => (starts none).kept (by decide) tables,
        fun task some => ⟨(leads task some).1, (leads task some).2.kept tables⟩⟩, agrees'⟩
  | @print input terminal memory prints =>
    obtain ⟨drawn, kept⟩ := screen.printStrings [input] fits
    rw [prints] at drawn kept
    have tables (address : Nat) (member : symbols.Holds address) :
        memory address = state.memory address := kept address (image.offScreen member)
    have held := heap.kept fun address held => kept address (offScreen_of_heap held)
    exact ⟨records, .done records,
      ⟨held, drawn, fun none => (starts none).kept (by decide) tables,
        fun task some => ⟨(leads task some).1, (leads task some).2.kept tables⟩⟩, agrees⟩
  | @tssInit memory task fresh loads =>
    obtain ⟨after, loads', kept, leads'⟩ := (starts fresh).tssInit placed
    rw [loads, Option.some.injEq, Prod.mk.injEq] at loads'
    obtain ⟨rfl, rfl⟩ := loads'
    have drawn : Drawn memory state.terminal (text ++ printed []) := by
      rw [show text ++ printed [] = text from List.append_nil text]
      exact screen.kept fun address seen => kept address fun held => seen (image.offScreen held)
    have held := heap.kept fun address part => kept address fun table => part (image.outside table)
    exact ⟨records, .done records,
      ⟨held, drawn, fun none => absurd none (Option.some_ne_none _),
        fun task some => ⟨(Option.some.inj some).symm, leads'⟩⟩, agrees⟩

/-- **A whole run**, by induction on it. -/
theorem KernelHolds.run (placed : symbols.Placed) (image : symbols.InImage)
    (run : Run (Guarded KernelClear
      (KernelStep symbols ⟨47, symbols.gdtTable.toNat⟩)) state events state') :
    ∀ {text : List UInt8} {records : Records}, KernelHolds symbols state text records →
      FitsScreen (text ++ printed (printedTexts events)) →
      BlockHeap.Agrees answer records.calls (heapEvents events) →
      ∃ records', Run (RecordStep (.answering answer)) records (heapEvents events) records' ∧
        KernelHolds symbols state' (text ++ printed (printedTexts events)) records' := by
  induction run with
  | done state =>
    intro text records holds _ _
    refine ⟨records, .done records, ?_⟩
    rwa [show text ++ printed (printedTexts []) = text from List.append_nil text]
  | @step first middle last event events one _ ih =>
    intro text records holds fits agrees
    have texts : printed (printedTexts (event :: events)) =
        printed (printedTexts [event]) ++ printed (printedTexts events) := by
      cases event <;> simp [printedTexts, printed]
    have calls : heapEvents (event :: events) = heapEvents [event] ++ heapEvents events := by
      cases event <;> rfl
    rw [texts, ← List.append_assoc] at fits ⊢
    obtain ⟨records', here, next, agrees'⟩ := holds.step placed image fits.of_append agrees one
    obtain ⟨last, rest, held⟩ := ih next fits agrees'
    exact ⟨last, calls ▸ here.append rest, held⟩

theorem welcome_fits : FitsScreen (printed [welcome]) := by
  have two : (rowsOf (printed [welcome])).length = 2 := by decide
  exact fun row behind => List.getD_eq_default _ _ (by omega)

/-- **`kernel_main` up to `kheap_init`** always gets there, and has set up the three parts. -/
theorem kernelStart_holds (memory : Nat → UInt8) (placed : symbols.Placed)
    (image : symbols.InImage) : ∃ state, kernelStart memory symbols =
        .ok (state, ⟨4095, symbols.idtDescriptors.toNat⟩, ⟨47, symbols.gdtTable.toNat⟩) ∧
      state.live = [] ∧ state.task = none ∧ BlockHeap.Packed kernelHeap state.memory 0 ∧
        KernelHolds symbols state (printed [welcome]) Store.empty := by
  obtain ⟨cleared, -⟩ := Drawn.start memory
  obtain ⟨drawn, -⟩ := cleared.printStrings [welcome] welcome_fits
  rw [List.nil_append] at drawn
  rcases prints : printStringsMemory (terminalInitMemory memory) .start [welcome] with
    ⟨terminal, greeted⟩
  rw [prints] at drawn
  have tables := @kernelTables_setUp greeted symbols placed
  have registers := @kernelTables_registers greeted symbols placed
  have beside (address : Nat) (seen : ¬ OffScreen address) :=
    @kernelTables_outside greeted symbols address placed fun held => seen (image.offScreen held)
  rcases builds : kernelTables greeted symbols with ⟨built, idtr, gdtr⟩
  rw [builds] at tables registers beside
  obtain ⟨rfl, rfl⟩ := Prod.mk.inj registers
  obtain ⟨started, inits, packed, free⟩ : ∃ started,
      BlockHeap.kheapInit built = .ok (kernelHeap, started) ∧ BlockHeap.Packed kernelHeap started 0 ∧
      ∀ address, kernelHeap.Outside address → started address = built address := by
    refine ⟨_, BlockHeap.kheapInit_ok built, .fresh (BlockHeap.kheapInit_ok built) (by decide),
      fun address outside => ?_⟩
    rw [BlockHeap.memset_apply built _ (by decide), if_neg]
    rintro ⟨low, high⟩
    rcases outside.1 with below | behind
    · exact absurd low (Nat.not_le_of_lt below)
    · exact absurd high (Nat.not_lt_of_le behind)
  have screen := drawn.kept fun address seen =>
    (free address (outside_of_screen seen)).trans (beside address seen)
  refine ⟨⟨started, [], terminal, none⟩, ?_, rfl, rfl, packed, BlockHeap.holds_empty started, screen,
    fun _ => ?_, fun task some => ?_⟩
  · unfold kernelStart
    simp only [prints, builds, inits]
    rfl
  · exact tables.kept (by decide) fun address held => free address (image.outside held)
  · cases some

/-- **The parts of the kernel are apart.** However the linker places the tables in the kernel's
image, `kernel_main` gets to `kheap_init`; and in every run from there of calls and writes of the
heap, prints and `tss_init`, whose requests the heap can answer and whose text fits on the screen:
the heap is a store of records, whose bytes are those of the live allocations; the screen shows all
the text that has been printed; `tss_init` can be called once; and from then on every interrupt that
comes in user mode arrives at its handler on the kernel's stack. -/
theorem kernel_parts_apart (memory : Nat → UInt8) (placed : symbols.Placed)
    (image : symbols.InImage) : ∃ start idtr gdtr, kernelStart memory symbols = .ok (start, idtr, gdtr) ∧
      start.live = [] ∧ start.task = none ∧
      ∀ events state, Run (Guarded KernelClear (KernelStep symbols gdtr)) start events state →
        FitsScreen (printed (welcome :: printedTexts events)) →
        (∃ (allocator : Allocator) (records : Records),
          Run (RecordStep allocator) Store.empty (heapEvents events) records ∧
          ∀ allocation ∈ state.live,
            records.lookup allocation.ptr = some (window state.memory allocation.ptr allocation.size)) ∧
        Drawn state.memory state.terminal (printed (welcome :: printedTexts events)) ∧
        (state.task = none → ∃ after, KernelStep symbols gdtr state .tssInit after) ∧
        ∀ task, state.task = some task → ∀ vector, vector < 512 →
          interruptFromUser state.memory idtr gdtr task vector =
            some ⟨0x10, 0x600000, 8, (symbols.handler vector).toNat⟩ := by
  obtain ⟨start, starts, empty, fresh, -, holds⟩ := @kernelStart_holds symbols memory placed image
  refine ⟨start, _, _, starts, empty, fresh, fun events state run fits => ?_⟩
  have agrees : BlockHeap.Agrees (fun index => (BlockHeap.answers (heapEvents events)).getD index 0) 0
      (heapEvents events) := fun index => by rw [Nat.zero_add]
  have texts : printed (welcome :: printedTexts events) =
      printed [welcome] ++ printed (printedTexts events) := by
    simp [printed]
  rw [texts] at fits ⊢
  obtain ⟨records, records_run, held⟩ := KernelHolds.run placed image run holds fits agrees
  refine ⟨⟨_, records, records_run, held.heap.bytes⟩, held.screen, fun none => ?_,
    fun task some vector listed => ?_⟩
  · obtain ⟨after, loads, -, -⟩ := (held.starts none).tssInit placed
    exact ⟨_, .tssInit none loads⟩
  · obtain ⟨rfl, leads⟩ := held.leads task some
    exact leads.enters listed

theorem smallTables_inImage : smallTables.InImage := by
  unfold KernelSymbols.InImage
  decide

/-- A page of the heap, a byte written into it, a print and `tss_init`, and then the keyboard in user
mode. -/
theorem kernel_parts_apart_key : ∃ start idtr gdtr,
    kernelStart (fun _ => 0) smallTables = .ok (start, idtr, gdtr) ∧
    ∃ state, Run (Guarded KernelClear (KernelStep smallTables gdtr)) start
        [.heap (.zalloc 4096 0x1000000), .heap (.write ⟨0x1000000, 4096⟩ 5 7), .print ⟨[33], by decide⟩,
          .tssInit] state ∧
      ∀ task, state.task = some task →
        interruptFromUser state.memory idtr gdtr task 0x21 = some ⟨0x10, 0x600000, 8, 0x100200⟩ := by
  obtain ⟨start, idtr, gdtr, starts, empty, fresh, runs⟩ :=
    kernel_parts_apart (fun _ => 0) smallTables_placed smallTables_inImage
  obtain ⟨start', starts', -, -, packed, holds⟩ :=
    @kernelStart_holds smallTables (fun _ => 0) smallTables_placed smallTables_inImage
  obtain ⟨rfl, -⟩ := Prod.mk.inj (Except.ok.inj (starts.symm.trans starts'))
  have one : BlockHeap.blocksOf 4096 = 1 := rfl
  have answered := packed.answered (show 1 ≤ 4096 by decide) (by decide) (by rw [one]; decide)
  obtain ⟨memory, zeroed, -⟩ := packed.zalloc BlockHeap.kernelHeap_placed (by decide) (by decide) holds.heap
    (show 1 ≤ 4096 by decide) (by decide) (by rw [one]; decide)
  have page : (⟨0x1000000, 4096⟩ : Allocation) ∈ BlockHeap.granted start.live 4096 0x1000000 :=
    List.mem_cons_self
  rcases prints : printStringsMemory (BlockHeap.store memory (0x1000000 + 5) 7) start.terminal
    [⟨[33], by decide⟩] with ⟨terminal, memory'⟩
  have printing : Run (Guarded KernelClear (KernelStep smallTables gdtr)) start
      [.heap (.zalloc 4096 0x1000000), .heap (.write ⟨0x1000000, 4096⟩ 5 7), .print ⟨[33], by decide⟩]
      ⟨memory', BlockHeap.granted start.live 4096 0x1000000, terminal, start.task⟩ :=
    .step ⟨answered, .heap (.zalloc zeroed)⟩ (.step ⟨trivial, .heap (.write page (by decide))⟩
      (.step ⟨trivial, .print prints⟩ (.done _)))
  have fits : FitsScreen (printed [welcome, ⟨[33], by decide⟩]) := by
    have two : (rowsOf (printed [welcome, ⟨[33], by decide⟩])).length = 2 := by decide
    exact fun row behind => List.getD_eq_default _ _ (by omega)
  obtain ⟨-, -, next, -⟩ := runs _ _ printing fits
  obtain ⟨state, loads⟩ := next fresh
  have run := printing.snoc (show Guarded KernelClear _ _ .tssInit state from ⟨trivial, loads⟩)
  obtain ⟨-, -, -, enters⟩ := runs _ _ run fits
  exact ⟨start, idtr, gdtr, starts, state, run, fun task some => enters task some 0x21 (by decide)⟩

end Runs

end KernelPlay
