/-
**Interrupts are transparent: `int21h` and `no_interrupt` of `kernel.asm`.**

A run of the machine mixes steps of the program with interrupts, which may come wherever the processor takes them,
and the instructions of their stubs. `Related` says, at each instruction of a stub, that the program will go on as
if nothing had happened: its registers are on the stack, and memory is as it left it but for what lies below its
stack pointer and what the handlers own.

`interrupts_transparent` — a handler is never interrupted, and every run is, without the interrupts, a run of the
program alone.
-/

import KernelPlay.Idt.Processor
import KernelPlay.Library.Runs

namespace KernelPlay

open KernelPlay.Library

/-! ### The machine -/

inductive Instruction
  | cli
  | pushad
  | call
  | popad
  | sti
  | iret
  deriving DecidableEq, Repr

/-- The functions that the stubs call: `int21h_handler` and `no_interrupt_handler`. -/
inductive Handler
  | int21h
  | noInterrupt
  deriving DecidableEq, Repr

/-- The two stubs have the same instructions. -/
def handlerStub : List Instruction := [.cli, .pushad, .call, .popad, .sti, .iret]

/-- The stub at an address. -/
def handlerAt (symbols : IdtSymbols) (offset : Nat) : Option Handler :=
  if offset = symbols.int21h.toNat then some .int21h
  else if offset = symbols.noInterrupt.toNat then some .noInterrupt
  else none

/-- The processor, the stubs it is in with the instructions left of each, and whether the last instruction was
an `sti`, which holds off interrupts for one more. -/
structure InterruptState where
  cpu : Cpu
  stubs : List (Handler × List Instruction)
  shadow : Bool

inductive InterruptEvent (Label : Type)
  | program (label : Label)
  | interrupt (vector : Nat)
  | stub (instruction : Instruction)

def InterruptEvent.isProgram {Label : Type} : InterruptEvent Label → Bool
  | .program _ => true
  | _ => false

/-- What the machine is made of. `Program` is what the interrupted program may do in one instruction, `Compiled`
what the compiled handlers do from their `call` to their return. -/
structure InterruptMachine (Label : Type) where
  symbols : IdtSymbols
  idtr : Idtr
  Program : Cpu → Label → Cpu → Prop
  Compiled : Handler → Cpu → Cpu → Prop

section Machine

variable {Label : Type} (machine : InterruptMachine Label)

inductive InterruptStep : InterruptState → InterruptEvent Label → InterruptState → Prop
  | program {cpu cpu' : Cpu} {label : Label} {shadow shadow' : Bool} : machine.Program cpu label cpu' →
      InterruptStep ⟨cpu, [], shadow⟩ (.program label) ⟨cpu', [], shadow'⟩
  | interrupt {cpu : Cpu} {stubs : List (Handler × List Instruction)} {vector : Nat} {gate : Gate}
      {handler : Handler} : interruptsOn cpu.eflags = true →
      vectorGate cpu.memory machine.idtr vector = some gate → gate.isInterruptGate = true →
      handlerAt machine.symbols gate.offset = some handler →
      InterruptStep ⟨cpu, stubs, false⟩ (.interrupt vector)
        ⟨cpu.enterGate gate, (handler, handlerStub) :: stubs, false⟩
  | cli {cpu : Cpu} {handler : Handler} {left : List Instruction} {stubs : List (Handler × List Instruction)}
      {shadow : Bool} : InterruptStep ⟨cpu, (handler, .cli :: left) :: stubs, shadow⟩ (.stub .cli)
        ⟨cpu.cli, (handler, left) :: stubs, false⟩
  | pushad {cpu : Cpu} {handler : Handler} {left : List Instruction} {stubs : List (Handler × List Instruction)}
      {shadow : Bool} : InterruptStep ⟨cpu, (handler, .pushad :: left) :: stubs, shadow⟩ (.stub .pushad)
        ⟨cpu.pushad, (handler, left) :: stubs, false⟩
  | call {cpu cpu' : Cpu} {handler : Handler} {left : List Instruction}
      {stubs : List (Handler × List Instruction)} {shadow : Bool} : machine.Compiled handler cpu cpu' →
      InterruptStep ⟨cpu, (handler, .call :: left) :: stubs, shadow⟩ (.stub .call)
        ⟨cpu', (handler, left) :: stubs, false⟩
  | popad {cpu : Cpu} {handler : Handler} {left : List Instruction} {stubs : List (Handler × List Instruction)}
      {shadow : Bool} : InterruptStep ⟨cpu, (handler, .popad :: left) :: stubs, shadow⟩ (.stub .popad)
        ⟨cpu.popad, (handler, left) :: stubs, false⟩
  | sti {cpu : Cpu} {handler : Handler} {left : List Instruction} {stubs : List (Handler × List Instruction)}
      {shadow : Bool} : InterruptStep ⟨cpu, (handler, .sti :: left) :: stubs, shadow⟩ (.stub .sti)
        ⟨cpu.sti, (handler, left) :: stubs, true⟩
  | iret {cpu : Cpu} {handler : Handler} {left : List Instruction} {stubs : List (Handler × List Instruction)}
      {shadow : Bool} : InterruptStep ⟨cpu, (handler, .iret :: left) :: stubs, shadow⟩ (.stub .iret)
        ⟨cpu.iret, stubs, false⟩

/-- The program alone. -/
def ProgramStep (cpu : Cpu) (event : InterruptEvent Label) (cpu' : Cpu) : Prop :=
  ∃ label, event = .program label ∧ machine.Program cpu label cpu'

end Machine

/-! ### What program and handlers promise -/

/-- The kernel's stack, and the memory that is the handlers' own. -/
structure InterruptLayout where
  low : Nat
  high : Nat
  owned : Nat → Prop
  apart : ∀ address, owned address → address < low ∨ high ≤ address

namespace InterruptLayout

variable (layout : InterruptLayout)

/-- The bytes that a program with this stack pointer may use. -/
def Shared (esp address : Nat) : Prop := (address < layout.low ∨ esp ≤ address) ∧ ¬ layout.owned address

/-- **The calling convention**: the registers a callee saves and the interrupt flag are kept, and memory but for
the stack below and what the handlers own. -/
structure Cdecl (before after : Cpu) : Prop where
  ebx : after.registers.ebx = before.registers.ebx
  esp : after.registers.esp = before.registers.esp
  ebp : after.registers.ebp = before.registers.ebp
  esi : after.registers.esi = before.registers.esi
  edi : after.registers.edi = before.registers.edi
  flag : interruptsOn after.eflags = interruptsOn before.eflags
  memory : ∀ address, layout.Shared before.esp address → after.memory address = before.memory address

/-- **The same to the program.** -/
structure Agree (alone cpu : Cpu) : Prop where
  registers : cpu.registers = alone.registers
  eip : cpu.eip = alone.eip
  cs : cpu.cs = alone.cs
  eflags : cpu.eflags = alone.eflags
  memory : ∀ address, layout.Shared alone.esp address → cpu.memory address = alone.memory address

/-- The program looks at nothing below its stack pointer and at nothing that the handlers own. -/
def Respects {Label : Type} (Program : Cpu → Label → Cpu → Prop) : Prop :=
  ∀ {alone cpu label cpu'}, layout.Agree alone cpu → Program cpu label cpu' →
    ∃ alone', Program alone label alone' ∧ layout.Agree alone' cpu'

/-- An interrupt finds room for what it and its stub push. -/
def HasRoom {Label : Type} (state : InterruptState) : InterruptEvent Label → Prop
  | .interrupt _ => layout.low + 44 ≤ state.cpu.esp ∧ state.cpu.esp ≤ layout.high
  | _ => True

end InterruptLayout

/-! ### The program suspended -/

/-- What an interrupt pushes. -/
def frameWords (alone : Cpu) : List UInt32 := [alone.eip, alone.cs, alone.eflags]

/-- What `pushad` pushes on top of it. -/
def savedWords (alone : Cpu) (esp : UInt32) : List UInt32 :=
  [alone.registers.edi, alone.registers.esi, alone.registers.ebp, esp, alone.registers.ebx, alone.registers.edx,
    alone.registers.ecx, alone.registers.eax] ++ frameWords alone

/-- The words are on the stack, and the memory of the program is as it left it. -/
structure Suspended (layout : InterruptLayout) (alone cpu : Cpu) (words : List UInt32) : Prop where
  esp : cpu.esp + 4 * words.length = alone.esp
  inside : layout.low ≤ cpu.esp ∧ alone.esp ≤ layout.high
  stacked : Stacked cpu.memory cpu.esp words
  memory : ∀ address, layout.Shared alone.esp address → cpu.memory address = alone.memory address

/-- **The program will go on as if nothing had happened.** -/
inductive Related (layout : InterruptLayout) : InterruptState → Cpu → Prop
  | program {cpu alone : Cpu} {shadow : Bool} : layout.Agree alone cpu → Related layout ⟨cpu, [], shadow⟩ alone
  | outer {cpu alone : Cpu} {handler : Handler} {left : List Instruction} :
      Suspended layout alone cpu (frameWords alone) →
      cpu.registers = { alone.registers with esp := cpu.registers.esp } → layout.low + 32 ≤ cpu.esp →
      interruptsOn cpu.eflags = false → left ∈ [handlerStub, handlerStub.drop 1, handlerStub.drop 4] →
      Related layout ⟨cpu, [(handler, left)], false⟩ alone
  | inner {cpu alone : Cpu} {handler : Handler} {left : List Instruction} {esp : UInt32} :
      Suspended layout alone cpu (savedWords alone esp) → interruptsOn cpu.eflags = false →
      left ∈ [handlerStub.drop 2, handlerStub.drop 3] → Related layout ⟨cpu, [(handler, left)], false⟩ alone
  | leaving {cpu alone : Cpu} {handler : Handler} : Suspended layout alone cpu (frameWords alone) →
      cpu.registers = { alone.registers with esp := cpu.registers.esp } →
      Related layout ⟨cpu, [(handler, [.iret])], true⟩ alone

section Steps

variable {layout : InterruptLayout} {cpu cpu' alone : Cpu} {words values : List UInt32} {gate : Gate}
  {before after : Cpu} {esp : UInt32}

/-- Pushes below what is on the stack already. -/
theorem Suspended.pushes (suspended : Suspended layout alone before words) (pushed : Pushed before after values)
    (room : layout.low + 4 * values.length ≤ before.esp) :
    Suspended layout alone after (values.reverse ++ words) := by
  have lower := pushed.esp
  have esp := suspended.esp
  refine ⟨?_, ⟨by omega, suspended.inside.2⟩, ?_, fun address shared => ?_⟩
  · rw [List.length_append, List.length_reverse]
    omega
  · refine Stacked.append pushed.stacked ?_
    rw [List.length_reverse, lower]
    exact suspended.stacked.congr fun address low _ => pushed.outside address (.inr low)
  · have outside := shared.1
    have inside := suspended.inside
    rw [pushed.outside address (by omega), suspended.memory address shared]

/-- **The interrupt** suspends the program. -/
theorem enterGate_suspended (agree : layout.Agree alone cpu) (room : layout.low + 44 ≤ cpu.esp)
    (high : cpu.esp ≤ layout.high) :
    Suspended layout alone (cpu.enterGate gate) (frameWords alone) ∧
      layout.low + 32 ≤ (cpu.enterGate gate).esp ∧
      (cpu.enterGate gate).registers = { alone.registers with esp := (cpu.enterGate gate).registers.esp } := by
  have same : cpu.esp = alone.esp := congrArg (fun registers => registers.esp.toNat) agree.registers
  have start : Suspended layout alone cpu [] :=
    ⟨same, ⟨by omega, same ▸ high⟩, nofun, agree.memory⟩
  have pushed := @pushAll_pushed cpu [cpu.eflags, cpu.cs, cpu.eip] (show 4 * 3 ≤ _ by omega)
  have lower : (cpu.pushAll [cpu.eflags, cpu.cs, cpu.eip]).esp + 4 * 3 = cpu.esp := pushed.esp
  have frame := start.pushes pushed (show layout.low + 4 * 3 ≤ _ by omega)
  have words : [cpu.eflags, cpu.cs, cpu.eip].reverse ++ [] = frameWords alone := by
    rw [frameWords, ← agree.eip, ← agree.cs, ← agree.eflags]
    rfl
  rw [words] at frame
  refine ⟨⟨frame.esp, frame.inside, frame.stacked, frame.memory⟩, ?_, agree.registers ▸ pushed.registers⟩
  show _ ≤ (cpu.pushAll [cpu.eflags, cpu.cs, cpu.eip]).esp
  omega

theorem pushad_suspended (suspended : Suspended layout alone cpu (frameWords alone))
    (registers : cpu.registers = { alone.registers with esp := cpu.registers.esp })
    (room : layout.low + 32 ≤ cpu.esp) :
    Suspended layout alone cpu.pushad (savedWords alone cpu.registers.esp) := by
  have pushed := @pushAll_pushed cpu [cpu.registers.eax, cpu.registers.ecx, cpu.registers.edx, cpu.registers.ebx,
    cpu.registers.esp, cpu.registers.ebp, cpu.registers.esi, cpu.registers.edi] (show 4 * 8 ≤ _ by omega)
  have saved := suspended.pushes pushed (show layout.low + 4 * 8 ≤ _ by omega)
  have words : savedWords alone cpu.registers.esp = [cpu.registers.eax, cpu.registers.ecx, cpu.registers.edx,
      cpu.registers.ebx, cpu.registers.esp, cpu.registers.ebp, cpu.registers.esi, cpu.registers.edi].reverse ++
        frameWords alone := by
    rw [registers]
    rfl
  rw [words]
  exact saved

/-- The handler keeps what is on the stack. -/
theorem Suspended.call (suspended : Suspended layout alone cpu words) (callee : layout.Cdecl cpu cpu') :
    Suspended layout alone cpu' words := by
  have esp : cpu'.esp = cpu.esp := congrArg UInt32.toNat callee.esp
  obtain ⟨length, inside, stacked, memory⟩ := suspended
  refine ⟨esp ▸ length, esp ▸ inside, ?_, fun address shared => ?_⟩
  · rw [esp]
    refine stacked.congr fun address low high => callee.memory address ⟨.inr low, fun owned => ?_⟩
    have := layout.apart address owned
    omega
  · have outside := shared.1
    rw [callee.memory address ⟨by omega, shared.2⟩, memory address shared]

theorem add_toNat {word : UInt32} {count : Nat} (small : count < 4294967296)
    (below : word.toNat + count < 4294967296) : (word + UInt32.ofNat count).toNat = word.toNat + count := by
  rw [UInt32.toNat_add, UInt32.toNat_ofNat', Nat.mod_eq_of_lt (show count < 2 ^ 32 from small)]
  exact Nat.mod_eq_of_lt below

theorem popad_suspended (suspended : Suspended layout alone cpu (savedWords alone esp)) :
    Suspended layout alone cpu.popad (frameWords alone) ∧ layout.low + 32 ≤ cpu.popad.esp ∧
      cpu.popad.registers = { alone.registers with esp := cpu.popad.registers.esp } := by
  obtain ⟨length, inside, stacked, memory⟩ := suspended
  have top : alone.esp < 4294967296 := alone.registers.esp.toNat_lt
  have length : cpu.esp + 4 * 11 = alone.esp := length
  have raised : cpu.popad.esp = cpu.esp + 32 := add_toNat (by decide) (show cpu.esp + 32 < _ by omega)
  refine ⟨⟨?_, by omega, ?_, memory⟩, by omega, ?_⟩
  · show cpu.popad.esp + 4 * 3 = _
    omega
  · rw [raised]
    exact @Stacked.behind _ _ [_, _, _, _, _, _, _, _] _ stacked
  · have word (index : Nat) (listed : index < 11) : cpu.peek index = (savedWords alone esp).getD index 0 :=
      stacked index listed
    rw [Cpu.popad, Registers.mk.injEq]
    exact ⟨word 7 (by decide), word 6 (by decide), word 5 (by decide), word 4 (by decide), rfl,
      word 2 (by decide), word 1 (by decide), word 0 (by decide)⟩

/-- **The return** gives the program its processor back. -/
theorem iret_agree (suspended : Suspended layout alone cpu (frameWords alone))
    (registers : cpu.registers = { alone.registers with esp := cpu.registers.esp }) :
    layout.Agree alone cpu.iret := by
  obtain ⟨length, inside, stacked, memory⟩ := suspended
  have top : alone.esp < 4294967296 := alone.registers.esp.toNat_lt
  have length : cpu.esp + 4 * 3 = alone.esp := length
  have raised : cpu.registers.esp + 12 = alone.registers.esp := by
    rw [← UInt32.toNat_inj]
    exact (add_toNat (by decide) (show cpu.esp + 12 < _ by omega)).trans length
  have word (index : Nat) (listed : index < 3) : cpu.peek index = (frameWords alone).getD index 0 :=
    stacked index listed
  refine ⟨?_, word 0 (by decide), word 1 (by decide), word 2 (by decide), memory⟩
  show { cpu.registers with esp := cpu.registers.esp + 12 } = alone.registers
  rw [raised, registers]

end Steps

/-! ### Runs -/

section Run

variable {Label : Type} {machine : InterruptMachine Label} {layout : InterruptLayout} {state state' : InterruptState}
  {alone start : Cpu} {event : InterruptEvent Label} {events : List (InterruptEvent Label)} {shadow : Bool}

/-- **Interrupts and stubs** leave the program where it is. -/
theorem Related.stub (compiles : ∀ {handler before after}, machine.Compiled handler before after →
      layout.Cdecl before after) (related : Related layout state alone) (room : layout.HasRoom state event)
    (step : InterruptStep machine state event state') (other : event.isProgram = false) :
    Related layout state' alone := by
  cases step with
  | program => cases other
  | interrupt on =>
    cases related with
    | program agree =>
      obtain ⟨suspended, below, registers⟩ := enterGate_suspended agree room.1 room.2
      exact .outer suspended registers below (interruptsOn_gate _) List.mem_cons_self
    | outer _ _ _ off => exact absurd on (by rw [off]; exact Bool.false_ne_true)
    | inner _ off => exact absurd on (by rw [off]; exact Bool.false_ne_true)
  | @cli cpu handler left =>
    cases related with
    | outer suspended registers below off member =>
      have next : left = handlerStub.drop 1 := by simpa [handlerStub] using member
      subst next
      exact .outer ⟨suspended.esp, suspended.inside, suspended.stacked, suspended.memory⟩ registers below
        (interruptsOn_cli _) (by simp)
    | inner _ _ member => simp [handlerStub] at member
  | @pushad cpu handler left =>
    cases related with
    | outer suspended registers below off member =>
      have next : left = handlerStub.drop 2 := by simpa [handlerStub] using member
      subst next
      exact .inner (pushad_suspended suspended registers below)
        ((congrArg interruptsOn (pushAll_eflags _)).trans off) (by simp)
    | inner _ _ member => simp [handlerStub] at member
  | @call cpu cpu' handler left _ _ callee =>
    cases related with
    | outer _ _ _ _ member => simp [handlerStub] at member
    | inner suspended off member =>
      have next : left = handlerStub.drop 3 := by simpa [handlerStub] using member
      subst next
      exact .inner (suspended.call (compiles callee)) ((compiles callee).flag.trans off) (by simp)
  | @popad cpu handler left =>
    cases related with
    | outer _ _ _ _ member => simp [handlerStub] at member
    | inner suspended off member =>
      obtain ⟨restored, below, registers⟩ := popad_suspended suspended
      have next : left = handlerStub.drop 4 := by simpa [handlerStub] using member
      subst next
      exact .outer restored registers below off (by simp)
  | @sti cpu handler left =>
    cases related with
    | outer suspended registers below off member =>
      have next : left = [Instruction.iret] := by simpa [handlerStub] using member
      subst next
      exact .leaving ⟨suspended.esp, suspended.inside, suspended.stacked, suspended.memory⟩ registers
    | inner _ _ member => simp [handlerStub] at member
  | iret =>
    cases related with
    | outer _ _ _ _ member => simp [handlerStub] at member
    | inner _ _ member => simp [handlerStub] at member
    | leaving suspended registers => exact .program (iret_agree suspended registers)

/-- **The program** takes the step it would take alone. -/
theorem Related.program_step (respects : layout.Respects machine.Program) (related : Related layout state alone)
    (step : InterruptStep machine state event state') (own : event.isProgram = true) :
    ∃ alone', ProgramStep machine alone event alone' ∧ Related layout state' alone' := by
  cases step with
  | program step =>
    cases related with
    | program agree =>
      obtain ⟨alone', step', agree'⟩ := respects agree step
      exact ⟨alone', ⟨_, rfl, step'⟩, .program agree'⟩
  | _ => cases own

theorem Related.depth (related : Related layout state alone) : state.stubs.length ≤ 1 := by
  cases related with
  | program => exact Nat.zero_le 1
  | outer => exact le_rfl
  | inner => exact le_rfl
  | leaving => exact le_rfl

/-- **Interrupts are transparent.** The program respects its stack and the handlers' memory, the handlers are
compiled by the calling convention, and each interrupt finds room on the stack. Then in every run, wherever the
interrupts come, no handler is ever interrupted, and the steps of the program are a run of the program alone; at
its end, unless a stub is under way, the registers and all memory but for the stack below and what the handlers
own are those of that run. -/
theorem interrupts_transparent (respects : layout.Respects machine.Program)
    (compiles : ∀ {handler before after}, machine.Compiled handler before after → layout.Cdecl before after)
    (run : Run (Guarded layout.HasRoom (InterruptStep machine)) ⟨start, [], shadow⟩ events state) :
    state.stubs.length ≤ 1 ∧ ∃ alone, Run (ProgramStep machine) start (events.filter InterruptEvent.isProgram) alone ∧
      (state.stubs = [] → layout.Agree alone state.cpu) := by
  have same : Related layout ⟨start, [], shadow⟩ start := .program ⟨rfl, rfl, rfl, rfl, fun _ _ => rfl⟩
  obtain ⟨alone, alone_run, related⟩ := @Run.unwinds _ _ _ _ (ProgramStep machine) InterruptEvent.isProgram
    (Related layout) (fun related step other => related.stub compiles step.1 step.2 other)
    (fun related step own => related.program_step respects step.2 own) _ _ _ run start same
  refine ⟨related.depth, alone, alone_run, fun ended => ?_⟩
  cases related with
  | program agree => exact agree
  | outer => cases ended
  | inner => cases ended
  | leaving => cases ended

end Run

/-! ### A run -/

/-- A program that counts in `eax`, which the handlers overwrite. -/
def countingMachine (idtr : Idtr) : InterruptMachine Unit where
  symbols := smallSymbols
  idtr := idtr
  Program := fun cpu _ cpu' => cpu' = { cpu with registers := { cpu.registers with eax := cpu.registers.eax + 1 } }
  Compiled := fun _ cpu cpu' => cpu' = { cpu with registers := { cpu.registers with eax := 0x20 } }

/-- The stack is the one that `kernel_entry` sets up. -/
def countingStart (memory : Nat → UInt8) : Cpu where
  registers := ⟨0, 0, 0, 0, 0x200000, 0x200000, 0, 0⟩
  eip := 0x100400
  cs := 8
  eflags := 0x202
  memory := memory

def countingLayout : InterruptLayout where
  low := 0x1F0000
  high := 0x200000
  owned := fun _ => False
  apart := fun _ owned => owned.elim

/-- A key is pressed between two instructions. -/
theorem interrupts_transparent_key : ∃ cpu alone,
    Run (ProgramStep (countingMachine (idtrInit (fun _ => 0) smallSymbols).2))
        (countingStart (idtrInit (fun _ => 0) smallSymbols).1) [.program (), .program ()] alone ∧
      countingLayout.Agree alone cpu := by
  have gate := @vectorGate_setInterruptHandlers (fun _ => 0) _ smallSymbols_placed [] 0x21
  rw [if_pos (by decide), setInterruptHandlers, List.foldl_nil] at gate
  generalize idtrInit (fun _ => 0) smallSymbols = initial at gate ⊢
  have respects : countingLayout.Respects (countingMachine initial.2).Program := by
    intro alone cpu label cpu' agree step
    cases step
    exact ⟨_, rfl, by rw [agree.registers], agree.eip, agree.cs, agree.eflags, agree.memory⟩
  have compiles : ∀ {handler before after}, (countingMachine initial.2).Compiled handler before after →
      countingLayout.Cdecl before after := by
    intro handler before after compiled
    cases compiled
    exact ⟨rfl, rfl, rfl, rfl, rfl, rfl, fun _ _ => rfl⟩
  have room : 0x1F0000 + 44 ≤ (0x200000 : UInt32).toNat ∧ (0x200000 : UInt32).toNat ≤ 0x200000 := by decide
  have on : interruptsOn 0x202 = true := rfl
  have run : ∃ cpu, Run (Guarded countingLayout.HasRoom (InterruptStep (countingMachine initial.2)))
      ⟨countingStart initial.1, [], false⟩
      [.program (), .interrupt 0x21, .stub .cli, .stub .pushad, .stub .call, .stub .popad, .stub .sti, .stub .iret,
        .program ()] ⟨cpu, [], false⟩ :=
    ⟨_, .step ⟨trivial, .program rfl⟩ <| .step ⟨room, .interrupt on gate rfl rfl⟩ <| .step ⟨trivial, .cli⟩ <|
      .step ⟨trivial, .pushad⟩ <| .step ⟨trivial, .call rfl⟩ <| .step ⟨trivial, .popad⟩ <| .step ⟨trivial, .sti⟩ <|
      .step ⟨trivial, .iret⟩ <| .step ⟨trivial, .program rfl⟩ <| .done _⟩
  obtain ⟨cpu, run⟩ := run
  obtain ⟨-, alone, alone_run, agree⟩ := interrupts_transparent respects compiles run
  exact ⟨cpu, alone, alone_run, agree rfl⟩

end KernelPlay
