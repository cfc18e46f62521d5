/-
**Interrupt gates: `idt/idt.c`.**

* `setInterruptHandler` writes the gate of one vector, field by field.
* `idtrInit` clears the table, sets every vector and loads the register of the processor.
* `vectorGate` is what the processor reads through that register.

The table is a map from vectors to gates, and `setInterruptHandler` an update of it (`gates_setInterruptHandler`).
`gates_hold_last_handler` — after `idtrInit` and any further calls the processor finds for every vector the
handler set for it last, and no byte outside of the table and the register's record has changed.
-/

import KernelPlay.Heap.Live
import KernelPlay.Library.Updates
import KernelPlay.Library.Words
import Mathlib.Data.Nat.Bitwise

namespace KernelPlay

open KernelPlay.Library

/-! ### The code -/

def osTotalInterrupts : Nat := 512

def kernelCodeSelector : Nat := 0x8

section Code

variable (memory : Nat → UInt8)

def setInterruptHandler (idtDescriptors intNo : Nat) (handlerAddr : UInt32) : Nat → UInt8 :=
  let idtP := idtDescriptors + 8 * intNo
  let memory := storeBytes memory idtP 2 (handlerAddr &&& 0xFFFF).toNat
  let memory := storeBytes memory (idtP + 2) 2 kernelCodeSelector
  let memory := storeBytes memory (idtP + 5) 1 0xEE
  let memory := storeBytes memory (idtP + 4) 1 0x00
  storeBytes memory (idtP + 6) 2 (handlerAddr >>> 16).toNat

/-- The loop of `idtr_init`, after `i` turns. -/
def setEveryHandler (idtDescriptors : Nat) (handlerAddr : UInt32) : Nat → Nat → UInt8
  | 0 => memory
  | i + 1 => setInterruptHandler (setEveryHandler idtDescriptors handlerAddr i) idtDescriptors i handlerAddr

/-- The register of the processor: the last offset and the address of the table. -/
structure Idtr where
  limit : Nat
  base : Nat
  deriving DecidableEq, Repr

/-- `lidt`. -/
def idtLoad (ptr : Nat) : Idtr := ⟨loadBytes memory ptr 2, loadBytes memory (ptr + 2) 4⟩

/-- Where the linker puts the table, the record of the register and the two handlers. -/
structure IdtSymbols where
  idtDescriptors : UInt32
  idtrDescriptor : UInt32
  noInterrupt : UInt32
  int21h : UInt32

/-- The memory and the register. -/
def idtrInit (symbols : IdtSymbols) : (Nat → UInt8) × Idtr :=
  let idtDescriptors := symbols.idtDescriptors.toNat
  let idtrDescriptor := symbols.idtrDescriptor.toNat
  let memory := BlockHeap.memset memory idtDescriptors 0 (8 * osTotalInterrupts)
  let memory := storeBytes memory idtrDescriptor 2 (8 * osTotalInterrupts - 1)
  let memory := storeBytes memory (idtrDescriptor + 2) 4 idtDescriptors
  let memory := setEveryHandler memory idtDescriptors symbols.noInterrupt osTotalInterrupts
  let memory := setInterruptHandler memory idtDescriptors 0x21 symbols.int21h
  (memory, idtLoad memory idtrDescriptor)

/-- Calls of `set_interrupt_handler`, the first one first. -/
def setInterruptHandlers (idtDescriptors : Nat) (calls : List (Nat × UInt32)) : Nat → UInt8 :=
  calls.foldl (fun memory call => setInterruptHandler memory idtDescriptors call.1 call.2) memory

end Code

/-! ### What the processor reads -/

structure Gate where
  offset : Nat
  selector : Nat
  attributes : Nat
  deriving DecidableEq, Repr

namespace Gate

def present (gate : Gate) : Bool := gate.attributes.testBit 7

/-- The least privilege that may call the gate. -/
def privilege (gate : Gate) : Nat := gate.attributes / 32 % 4

/-- A gate of 32 bits that turns interrupts off. -/
def isInterruptGate (gate : Gate) : Bool := gate.attributes % 32 = 14

end Gate

def gateAt (memory : Nat → UInt8) (address : Nat) : Gate :=
  { offset := loadBytes memory address 2 + loadBytes memory (address + 6) 2 <<< 16
    selector := loadBytes memory (address + 2) 2
    attributes := loadBytes memory (address + 5) 1 }

/-- The gate of a vector: inside the table and present. -/
def vectorGate (memory : Nat → UInt8) (idtr : Idtr) (vector : Nat) : Option Gate :=
  if idtr.limit < 8 * vector + 7 then none
  else
    let gate := gateAt memory (idtr.base + 8 * vector)
    if gate.present then some gate else none

/-- The gate of a handler: in the code segment of the kernel, present, for every privilege, without interrupts. -/
def handlerGate (handlerAddr : UInt32) : Gate := ⟨handlerAddr.toNat, kernelCodeSelector, 0xEE⟩

theorem handlerGate_fields (handlerAddr : UInt32) : (handlerGate handlerAddr).present = true ∧
    (handlerGate handlerAddr).privilege = 3 ∧ (handlerGate handlerAddr).isInterruptGate = true := by
  simp only [Gate.present, Gate.privilege, Gate.isInterruptGate, handlerGate]
  decide

/-! ### The table as a map -/

/-- The gates of a table, by vector. -/
def gates (memory : Nat → UInt8) (idtDescriptors : Nat) : Nat → Gate :=
  fun vector => gateAt memory (idtDescriptors + 8 * vector)

section Table

variable {memory memory' : Nat → UInt8} {idtDescriptors address intNo : Nat} {handlerAddr : UInt32}

theorem gateAt_congr (same : ∀ index, index < 8 → memory (address + index) = memory' (address + index)) :
    gateAt memory address = gateAt memory' address := by
  have field (place count : Nat) (inside : place + count ≤ 8) :
      loadBytes memory (address + place) count = loadBytes memory' (address + place) count :=
    loadBytes_congr fun index below => by
      rw [Nat.add_assoc]
      exact same _ (by omega)
  rw [gateAt, gateAt, field 2 2 (by decide), field 5 1 (by decide), field 6 2 (by decide)]
  rw [show loadBytes memory address 2 = loadBytes memory' address 2 from field 0 2 (by decide)]

/-- The eight bytes of a gate and no others. -/
theorem setInterruptHandler_outside
    (outside : address < idtDescriptors + 8 * intNo ∨ idtDescriptors + 8 * intNo + 8 ≤ address) :
    setInterruptHandler memory idtDescriptors intNo handlerAddr address = memory address := by
  unfold setInterruptHandler
  rw [storeBytes_outside _ (by omega), storeBytes_outside _ (by omega), storeBytes_outside _ (by omega),
    storeBytes_outside _ (by omega), storeBytes_outside _ (by omega)]

/-- The two halves of an address. -/
theorem low_half (word : UInt32) : (word &&& 0xFFFF).toNat = word.toNat % 65536 := by
  rw [UInt32.toNat_and]
  exact Nat.and_two_pow_sub_one_eq_mod _ 16

theorem high_half (word : UInt32) : (word >>> 16).toNat = word.toNat / 65536 := by
  rw [UInt32.toNat_shiftRight]
  exact Nat.shiftRight_eq_div_pow _ 16

/-- **The gate written is the handler's.** -/
theorem gateAt_setInterruptHandler :
    gateAt (setInterruptHandler memory idtDescriptors intNo handlerAddr) (idtDescriptors + 8 * intNo) =
      handlerGate handlerAddr := by
  have below := handlerAddr.toNat_lt
  unfold setInterruptHandler gateAt handlerGate
  dsimp only
  generalize idtDescriptors + 8 * intNo = gate
  have low : (handlerAddr &&& 0xFFFF).toNat < 256 ^ 2 := by
    rw [low_half]
    omega
  have high : (handlerAddr >>> 16).toNat < 256 ^ 2 := by
    rw [high_half]
    omega
  rw [Gate.mk.injEq]
  refine ⟨?_, ?_, ?_⟩
  · rw [loadBytes_storeBytes _ high, loadBytes_storeBytes_apart (by omega), loadBytes_storeBytes_apart (by omega),
      loadBytes_storeBytes_apart (by omega), loadBytes_storeBytes_apart (by omega), loadBytes_storeBytes _ low,
      low_half, high_half, Nat.shiftLeft_eq]
    omega
  · rw [loadBytes_storeBytes_apart (by omega), loadBytes_storeBytes_apart (by omega),
      loadBytes_storeBytes_apart (by omega), loadBytes_storeBytes _ (by decide)]
  · rw [loadBytes_storeBytes_apart (by omega), loadBytes_storeBytes_apart (by omega),
      loadBytes_storeBytes _ (by decide)]

/-- **A call is an update of the map.** -/
theorem gates_setInterruptHandler :
    gates (setInterruptHandler memory idtDescriptors intNo handlerAddr) idtDescriptors =
      Function.update (gates memory idtDescriptors) intNo (handlerGate handlerAddr) := by
  funext vector
  by_cases here : vector = intNo
  · subst here
    rw [Function.update_self]
    exact gateAt_setInterruptHandler
  · rw [Function.update_of_ne here]
    exact gateAt_congr fun index below => setInterruptHandler_outside (by omega)

theorem gates_setEveryHandler (count : Nat) :
    gates (setEveryHandler memory idtDescriptors handlerAddr count) idtDescriptors =
      fun vector => if vector < count then handlerGate handlerAddr else gates memory idtDescriptors vector := by
  induction count with
  | zero => rfl
  | succ count ih =>
    rw [setEveryHandler, gates_setInterruptHandler, ih]
    funext vector
    by_cases here : vector = count
    · subst here
      rw [Function.update_self, if_pos (Nat.lt_succ_self _)]
    · rw [Function.update_of_ne here]
      exact if_congr (by omega) rfl rfl

theorem setEveryHandler_outside (count : Nat)
    (outside : address < idtDescriptors ∨ idtDescriptors + 8 * count ≤ address) :
    setEveryHandler memory idtDescriptors handlerAddr count address = memory address := by
  induction count with
  | zero => rfl
  | succ count ih => rw [setEveryHandler, setInterruptHandler_outside (by omega), ih (by omega)]

theorem gates_setInterruptHandlers (calls : List (Nat × UInt32)) :
    gates (setInterruptHandlers memory idtDescriptors calls) idtDescriptors =
      assign (gates memory idtDescriptors) (calls.map fun call => (call.1, handlerGate call.2)) := by
  induction calls generalizing memory with
  | nil => rfl
  | cons call calls ih =>
    rw [setInterruptHandlers, List.foldl_cons, ← setInterruptHandlers, ih, gates_setInterruptHandler, List.map_cons,
      assign, assign, List.foldl_cons]

theorem setInterruptHandlers_outside {calls : List (Nat × UInt32)} {count : Nat}
    (inside : ∀ call ∈ calls, call.1 < count)
    (outside : address < idtDescriptors ∨ idtDescriptors + 8 * count ≤ address) :
    setInterruptHandlers memory idtDescriptors calls address = memory address := by
  induction calls generalizing memory with
  | nil => rfl
  | cons call calls ih =>
    obtain ⟨here, later⟩ := List.forall_mem_cons.mp inside
    exact (ih later).trans (setInterruptHandler_outside (by omega))

end Table

/-! ### After `idtr_init` -/

section Init

variable {memory : Nat → UInt8} {symbols : IdtSymbols} {address : Nat}

/-- The table and the record of the register lie in memory, apart from each other. -/
structure IdtSymbols.Placed (symbols : IdtSymbols) : Prop where
  room : symbols.idtDescriptors.toNat + 4096 ≤ 4294967296
  apart : symbols.idtrDescriptor.toNat + 6 ≤ symbols.idtDescriptors.toNat ∨
    symbols.idtDescriptors.toNat + 4096 ≤ symbols.idtrDescriptor.toNat

/-- The address is none of theirs. -/
def IdtSymbols.Outside (symbols : IdtSymbols) (address : Nat) : Prop :=
  (address < symbols.idtDescriptors.toNat ∨ symbols.idtDescriptors.toNat + 4096 ≤ address) ∧
    (address < symbols.idtrDescriptor.toNat ∨ symbols.idtrDescriptor.toNat + 6 ≤ address)

/-- Outside of the table only the record of the register is written. -/
theorem idtrInit_beside (placed : symbols.Placed)
    (outside : address < symbols.idtDescriptors.toNat ∨ symbols.idtDescriptors.toNat + 4096 ≤ address) :
    (idtrInit memory symbols).1 address =
      storeBytes (storeBytes memory symbols.idtrDescriptor.toNat 2 4095) (symbols.idtrDescriptor.toNat + 2) 4
        symbols.idtDescriptors.toNat address := by
  have room := placed.room
  unfold idtrInit osTotalInterrupts
  dsimp only
  rw [setInterruptHandler_outside (by omega), setEveryHandler_outside _ (by omega)]
  refine storeBytes_congr _ (storeBytes_congr _ ?_)
  rw [BlockHeap.memset_apply memory 0 (by omega), if_neg (by omega)]

/-- The register holds the table. -/
theorem idtrInit_register (placed : symbols.Placed) :
    (idtrInit memory symbols).2 = ⟨4095, symbols.idtDescriptors.toNat⟩ := by
  have apart := placed.apart
  have below := symbols.idtDescriptors.toNat_lt
  show idtLoad (idtrInit memory symbols).1 symbols.idtrDescriptor.toNat = _
  rw [idtLoad, Idtr.mk.injEq]
  constructor
  · rw [loadBytes_congr fun index below => idtrInit_beside placed (by omega), loadBytes_storeBytes_apart (by omega),
      loadBytes_storeBytes _ (by decide)]
  · rw [loadBytes_congr fun index below => idtrInit_beside placed (by omega), loadBytes_storeBytes _ (by omega)]

/-- **Every vector has its handler.** -/
theorem gates_idtrInit {vector : Nat} (inside : vector < 512) :
    gates (idtrInit memory symbols).1 symbols.idtDescriptors.toNat vector =
      handlerGate (if vector = 0x21 then symbols.int21h else symbols.noInterrupt) := by
  show gates (setInterruptHandler _ symbols.idtDescriptors.toNat 0x21 symbols.int21h) _ vector = _
  rw [gates_setInterruptHandler]
  by_cases keyboard : vector = 0x21
  · rw [keyboard, Function.update_self, if_pos rfl]
  · rw [Function.update_of_ne keyboard, gates_setEveryHandler, if_neg keyboard]
    exact if_pos inside

theorem vectorGate_setInterruptHandlers (placed : symbols.Placed) (calls : List (Nat × UInt32)) (vector : Nat) :
    vectorGate (setInterruptHandlers (idtrInit memory symbols).1 symbols.idtDescriptors.toNat calls)
        (idtrInit memory symbols).2 vector =
      if vector < 512 then some (handlerGate ((lastWrite calls vector).getD
        (if vector = 0x21 then symbols.int21h else symbols.noInterrupt)))
      else none := by
  rw [idtrInit_register placed, vectorGate]
  by_cases listed : vector < 512
  swap
  · rw [if_pos (by dsimp only; omega), if_neg listed]
  have found := congrFun (@gates_setInterruptHandlers (idtrInit memory symbols).1 symbols.idtDescriptors.toNat
    calls) vector
  rw [assign_apply, lastWrite_map, gates_idtrInit listed, Option.getD_map] at found
  rw [if_neg (by dsimp only; omega), if_pos listed]
  show (if (gates _ _ vector).present = true then some (gates _ _ vector) else none) = _
  rw [found, if_pos (handlerGate_fields _).1]

/-- **Every vector has the handler set for it last.** After `idtr_init` and any further calls the processor finds,
through its register, for every vector of the table a present interrupt gate to the handler set last, at first
`int21h` for vector `0x21` and `no_interrupt` for all others; behind the table it finds none; and no byte has
changed outside of the table and the record of the register. -/
theorem gates_hold_last_handler (memory : Nat → UInt8) (placed : symbols.Placed) {calls : List (Nat × UInt32)}
    (inside : ∀ call ∈ calls, call.1 < 512) :
    (∀ vector, vectorGate
        (setInterruptHandlers (idtrInit memory symbols).1 symbols.idtDescriptors.toNat calls)
        (idtrInit memory symbols).2 vector =
      if vector < 512 then some (handlerGate ((lastWrite calls vector).getD
        (if vector = 0x21 then symbols.int21h else symbols.noInterrupt)))
      else none) ∧
    ∀ address, symbols.Outside address →
      setInterruptHandlers (idtrInit memory symbols).1 symbols.idtDescriptors.toNat calls address =
        memory address := by
  refine ⟨vectorGate_setInterruptHandlers placed calls, fun address outside => ?_⟩
  obtain ⟨beside, apart⟩ := outside
  rw [setInterruptHandlers_outside inside beside, idtrInit_beside placed beside, storeBytes_outside _ (by omega),
    storeBytes_outside _ (by omega)]

/-- A table behind the first MiB. -/
def smallSymbols : IdtSymbols := ⟨0x110000, 0x111000, 0x100300, 0x100200⟩

theorem smallSymbols_placed : smallSymbols.Placed := ⟨by decide, by decide⟩

/-- The gates after two calls for vector 3. -/
def threeGates : Nat → Option Gate :=
  vectorGate (setInterruptHandlers (idtrInit (fun _ => 0) smallSymbols).1 smallSymbols.idtDescriptors.toNat
    [(3, 0x100400), (3, 0x100500)]) (idtrInit (fun _ => 0) smallSymbols).2

/-- The keyboard has its handler, and vector 3 the second of two. -/
theorem gates_hold_last_handler_three : threeGates 0x21 = some (handlerGate 0x100200) ∧
    threeGates 0 = some (handlerGate 0x100300) ∧ threeGates 3 = some (handlerGate 0x100500) := by
  have found := (gates_hold_last_handler (fun _ => 0) smallSymbols_placed
    (show ∀ call ∈ [(3, (0x100400 : UInt32)), (3, 0x100500)], call.1 < 512 by decide)).1
  refine ⟨(found 0x21).trans ?_, (found 0).trans ?_, (found 3).trans ?_⟩ <;> decide

end Init

end KernelPlay
