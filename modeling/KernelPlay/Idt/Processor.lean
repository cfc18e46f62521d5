/-
**The processor as an interrupt sees it: the stubs of `kernel.asm`.**

`Cpu` has the registers that `pushad` saves, the three that an interrupt pushes, and memory. `Stacked` describes
the words on the stack, and `pushAll_pushed` what a sequence of pushes leaves there.
-/

import KernelPlay.Idt.Gates

namespace KernelPlay

open KernelPlay.Library

/-- The registers that `pushad` saves. -/
structure Registers where
  eax : UInt32
  ecx : UInt32
  edx : UInt32
  ebx : UInt32
  esp : UInt32
  ebp : UInt32
  esi : UInt32
  edi : UInt32
  deriving DecidableEq, Repr

structure Cpu where
  registers : Registers
  eip : UInt32
  cs : UInt32
  eflags : UInt32
  memory : Nat → UInt8

/-- The interrupt flag. -/
def interruptsOn (eflags : UInt32) : Bool := eflags &&& 0x200 != 0

/-- A word of the stack. -/
def stackWord (memory : Nat → UInt8) (address : Nat) : UInt32 := UInt32.ofNat (loadBytes memory address 4)

namespace Cpu

variable (cpu : Cpu)

def esp : Nat := cpu.registers.esp.toNat

def push (value : UInt32) : Cpu :=
  let esp := cpu.registers.esp - 4
  { cpu with
    registers := { cpu.registers with esp := esp }
    memory := storeBytes cpu.memory esp.toNat 4 value.toNat }

def pushAll (values : List UInt32) : Cpu := values.foldl push cpu

/-- A word of the stack, counted from its top. -/
def peek (index : Nat) : UInt32 := stackWord cpu.memory (cpu.esp + 4 * index)

def cli : Cpu := { cpu with eflags := cpu.eflags &&& 0xFFFFFDFF }

def sti : Cpu := { cpu with eflags := cpu.eflags ||| 0x200 }

def pushad : Cpu :=
  let registers := cpu.registers
  cpu.pushAll [registers.eax, registers.ecx, registers.edx, registers.ebx, registers.esp, registers.ebp,
    registers.esi, registers.edi]

/-- The saved stack pointer is skipped. -/
def popad : Cpu :=
  { cpu with
    registers :=
      { eax := cpu.peek 7, ecx := cpu.peek 6, edx := cpu.peek 5, ebx := cpu.peek 4,
        esp := cpu.registers.esp + 32, ebp := cpu.peek 2, esi := cpu.peek 1, edi := cpu.peek 0 } }

/-- An interrupt without a change of privilege and without an error code: the flags `TF`, `IF`, `NT`, `RF` and
`VM` are cleared. -/
def enterGate (gate : Gate) : Cpu :=
  { cpu.pushAll [cpu.eflags, cpu.cs, cpu.eip] with
    eflags := cpu.eflags &&& 0xFFFCBCFF
    cs := UInt32.ofNat gate.selector
    eip := UInt32.ofNat gate.offset }

def iret : Cpu :=
  { cpu with
    registers := { cpu.registers with esp := cpu.registers.esp + 12 }
    eip := cpu.peek 0
    cs := cpu.peek 1
    eflags := cpu.peek 2 }

end Cpu

/-! ### Flags -/

theorem interruptsOn_cli (eflags : UInt32) : interruptsOn (eflags &&& 0xFFFFFDFF) = false := by
  rw [interruptsOn, UInt32.and_assoc, show (0xFFFFFDFF : UInt32) &&& 0x200 = 0 from rfl, UInt32.and_zero]
  rfl

theorem interruptsOn_gate (eflags : UInt32) : interruptsOn (eflags &&& 0xFFFCBCFF) = false := by
  rw [interruptsOn, UInt32.and_assoc, show (0xFFFCBCFF : UInt32) &&& 0x200 = 0 from rfl, UInt32.and_zero]
  rfl

/-! ### Words on the stack -/

/-- The words lie on the stack, the first on its top. -/
def Stacked (memory : Nat → UInt8) (top : Nat) (words : List UInt32) : Prop :=
  ∀ index, index < words.length → stackWord memory (top + 4 * index) = words.getD index 0

section Stack

variable {memory memory' : Nat → UInt8} {top : Nat} {words words' : List UInt32} {cpu : Cpu} {value : UInt32}

theorem stackWord_congr (same : ∀ index, index < 4 → memory (top + index) = memory' (top + index)) :
    stackWord memory top = stackWord memory' top :=
  congrArg UInt32.ofNat (loadBytes_congr same)

theorem Stacked.congr (stacked : Stacked memory top words)
    (same : ∀ address, top ≤ address → address < top + 4 * words.length → memory' address = memory address) :
    Stacked memory' top words := fun index below =>
  (stackWord_congr fun offset inside => same _ (by omega) (by omega)).trans (stacked index below)

theorem Stacked.behind (stacked : Stacked memory top (words ++ words')) :
    Stacked memory (top + 4 * words.length) words' := fun index below => by
  have word := stacked (words.length + index) (by rw [List.length_append]; omega)
  rw [List.getD_append_right _ _ _ _ (Nat.le_add_right _ _), Nat.add_sub_cancel_left] at word
  rw [Nat.add_assoc, ← Nat.mul_add, word]

theorem Stacked.append (stacked : Stacked memory top words)
    (behind : Stacked memory (top + 4 * words.length) words') : Stacked memory top (words ++ words') :=
  fun index below => by
    by_cases inside : index < words.length
    · rw [List.getD_append _ _ _ _ inside, stacked index inside]
    · have word := behind (index - words.length) (by rw [List.length_append] at below; omega)
      rw [List.getD_append_right _ _ _ _ (by omega), ← word]
      congr 1
      omega

theorem Stacked.cons (first : stackWord memory top = value) (rest : Stacked memory (top + 4) words) :
    Stacked memory top (value :: words) := fun index below => by
  cases index with
  | zero => exact first
  | succ index =>
    rw [List.getD_cons_succ, ← rest index (by simpa using below)]
    congr 1
    omega

/-- **What pushes leave.** -/
structure Pushed (before after : Cpu) (values : List UInt32) : Prop where
  registers : after.registers = { before.registers with esp := after.registers.esp }
  esp : after.esp + 4 * values.length = before.esp
  outside : ∀ address, address < after.esp ∨ before.esp ≤ address → after.memory address = before.memory address
  stacked : Stacked after.memory after.esp values.reverse
  others : after.eip = before.eip ∧ after.cs = before.cs ∧ after.eflags = before.eflags

theorem sub_four_toNat {esp : UInt32} (room : 4 ≤ esp.toNat) : (esp - 4).toNat = esp.toNat - 4 :=
  UInt32.toNat_sub_of_le _ _ (UInt32.le_iff_toNat_le.mpr room)

theorem pushAll_eflags (values : List UInt32) : (cpu.pushAll values).eflags = cpu.eflags := by
  induction values generalizing cpu with
  | nil => rfl
  | cons value values ih => exact @ih (cpu.push value)

theorem pushAll_pushed (values : List UInt32) (room : 4 * values.length ≤ cpu.esp) :
    Pushed cpu (cpu.pushAll values) values := by
  induction values using List.reverseRecOn with
  | nil => exact ⟨rfl, rfl, fun _ _ => rfl, nofun, rfl, rfl, rfl⟩
  | append_singleton values value ih =>
    rw [List.length_append, List.length_singleton] at room
    have before := ih (by omega)
    have push : cpu.pushAll (values ++ [value]) = (cpu.pushAll values).push value := by
      rw [Cpu.pushAll, List.foldl_append]
      rfl
    have esp := before.esp
    have lower : ((cpu.pushAll values).push value).esp = (cpu.pushAll values).esp - 4 :=
      sub_four_toNat (show 4 ≤ (cpu.pushAll values).esp by omega)
    have memory : ((cpu.pushAll values).push value).memory =
        storeBytes (cpu.pushAll values).memory ((cpu.pushAll values).push value).esp 4 value.toNat := rfl
    rw [push]
    refine ⟨?_, ?_, fun address outside => ?_, ?_, before.others⟩
    · show { (cpu.pushAll values).registers with esp := (cpu.pushAll values).registers.esp - 4 } = _
      rw [before.registers]
      rfl
    · rw [List.length_append, List.length_singleton]
      omega
    · rw [memory, storeBytes_outside _ (by omega), before.outside address (by omega)]
    · rw [List.reverse_append, List.reverse_singleton, List.singleton_append, memory]
      refine Stacked.cons ?_ ?_
      · rw [stackWord, loadBytes_storeBytes _ (by have := value.toNat_lt; omega)]
        exact UInt32.ofNat_toNat
      · rw [lower, Nat.sub_add_cancel (by omega)]
        exact before.stacked.congr fun address low high => storeBytes_outside _ (by omega)

end Stack

end KernelPlay
