/-
**What the parser makes of a path, by the answers of the allocator.**

`components` reads a path without a heap; `PartsGranted` — every request for a part or a
name is met. `parseRoot_outcome` — the parser refuses a path at its start without a request, or it
splits it into its components, or it goes through a null pointer where a request was refused.
`fopen_outcome` puts it together with the walk and the handle table: what an `fopen` returns, and which
number each of its requests has.
-/

import KernelPlay.Fat.Outcome
import KernelPlay.File.Open

namespace KernelPlay

open KernelPlay.Library

section Paths

variable (pathStr : CString)

/-- The name of `nameLen` characters. -/
def partName (p nameLen : Nat) : Text := Text.ofChars (window pathStr.charAt p nameLen)

/-- The components from position `p` on, if the path ends. -/
def components : Nat → Nat → Option (List Text)
  | 0, _ => none
  | turns + 1, p =>
    match pparserNameLen pathStr memoryTurns p with
    | none => none
    | some nameLen =>
      if pathStr.charAt (p + nameLen) = 0 then some [partName pathStr p nameLen]
      else (components turns (p + nameLen + 1)).map (partName pathStr p nameLen :: ·)

/-- **Every request of the parser from number `call` on is met**: the record of the first part, as
`record` says, its name, and what the parts behind it take. -/
def PartsGranted (allocator : Allocator) : Nat → Nat → Nat → Prop → Prop
  | 0, _, _, _ => True
  | turns + 1, call, p, record =>
    match pparserNameLen pathStr memoryTurns p with
    | none => True
    | some nameLen => allocator.grants call (nameLen + 1) = true ∧ record ∧
      (pathStr.charAt (p + nameLen) ≠ 0 →
        PartsGranted allocator turns (call + 2) (p + nameLen + 1)
          (allocator.grants (call + 1) 8 = true))

end Paths

section Parser

variable {machine : Machine} {pathStr : CString} {heap : Kheap}

/-- What the parser of the parts returns. -/
inductive PartsOutcome (heap : Kheap) :
    Except Fault (List PathPart × Kheap) → Prop → Option (List Text) → Prop
  | refused {granted : Prop} {names : Option (List Text)} : ¬ granted →
      PartsOutcome heap (.error .nullDeref) granted names
  | diverges {granted : Prop} : granted → PartsOutcome heap (.error .diverges) granted none
  | parsed {granted : Prop} {part : PathPart} {parts : List PathPart} {heap' : Kheap} : granted →
      heap'.calls + 1 = heap.calls + 2 * (parts.length + 1) →
      PartsOutcome heap (.ok (part :: parts, heap')) granted
        (some (part.name :: parts.map PathPart.name))

theorem zalloc_calls {size : Nat} {cell : Cell} :
    (Store.zalloc machine.allocator heap size cell).2.calls = heap.calls + 1 := by
  unfold Store.zalloc
  split_ifs <;> rfl

theorem zalloc_null_iff {size : Nat} {cell : Cell} :
    (Store.zalloc machine.allocator heap size cell).1 ≠ 0 ↔
      machine.allocator.grants heap.calls size = true := by
  by_cases granted : Store.Grants machine.allocator heap size
  · rw [Store.zalloc_granted granted]
    exact iff_of_true Store.nextPtr_ne_zero granted
  · rw [Store.zalloc_refused granted]
    exact iff_of_false (not_not.mpr rfl) granted

/-- **The parser of the parts** by the requests it makes. -/
theorem parts_outcome :
    ∀ (turns : Nat) (heap : Kheap) (p : Nat) (pathPart : Ptr),
      PartsOutcome heap (pparserParsePathParts machine pathStr turns heap p pathPart)
        (PartsGranted pathStr machine.allocator turns heap.calls p (pathPart ≠ 0))
        (components pathStr turns p) := by
  intro turns
  induction turns with
  | zero =>
    intro heap p pathPart
    exact .diverges trivial
  | succ turns ih =>
    intro heap p pathPart
    rw [pparserParsePathParts, PartsGranted, components]
    cases len : pparserNameLen pathStr memoryTurns p with
    | none => exact .diverges trivial
    | some nameLen =>
      dsimp only
      have calls := @zalloc_calls machine heap (nameLen + 1) .name
      have null := @zalloc_null_iff machine heap (nameLen + 1) .name
      generalize Store.zalloc machine.allocator heap (nameLen + 1) .name = allocated at calls null ⊢
      obtain ⟨name, named⟩ := allocated
      dsimp only at calls null ⊢
      by_cases refused : name = 0
      · rw [if_pos refused]
        exact .refused fun granted => null.mpr granted.1 refused
      rw [if_neg refused]
      by_cases bare : pathPart = 0
      · rw [if_pos bare]
        exact .refused fun granted => granted.2.1 bare
      rw [if_neg bare]
      by_cases last : pathStr.charAt (p + nameLen) = 0
      · rw [if_pos last, if_pos last]
        refine .parsed ⟨null.mp refused, bare, fun more => absurd last more⟩ ?_
        show named.calls + 1 = _
        rw [calls]
        rfl
      rw [if_neg last, if_neg last]
      have calls' := @zalloc_calls machine named 8 .pathPart
      have null' := @zalloc_null_iff machine named 8 .pathPart
      generalize Store.zalloc machine.allocator named 8 .pathPart = allocated at calls' null' ⊢
      obtain ⟨next, linked⟩ := allocated
      dsimp only at calls' null' ⊢
      have outcome := ih linked (p + nameLen + 1) next
      rw [calls] at calls' null'
      rw [calls', propext null'] at outcome
      generalize pparserParsePathParts machine pathStr turns linked (p + nameLen + 1) next = result at *
      generalize components pathStr turns (p + nameLen + 1) = names at *
      generalize PartsGranted pathStr machine.allocator turns (heap.calls + 1 + 1) (p + nameLen + 1)
        (machine.allocator.grants (heap.calls + 1) 8 = true) = granted at *
      cases outcome with
      | refused missing => exact .refused fun all => missing (all.2.2 last)
      | diverges all => exact .diverges ⟨null.mp refused, bare, fun _ => all⟩
      | @parsed _ part parts heap' all count =>
        refine .parsed ⟨null.mp refused, bare, fun _ => all⟩ ?_
        rw [calls'] at count
        show heap'.calls + 1 = heap.calls + 2 * (parts.length + 1 + 1)
        omega

/-- What the parser of the whole path returns. -/
inductive RootOutcome (machine : Machine) (pathStr : CString) (heap : Kheap) (pathRoot : Ptr) :
    Except Fault (Int × Kheap) → Prop
  | rejected {status : Int} : pathStart pathStr = none → status < 0 →
      RootOutcome machine pathStr heap pathRoot (.ok (status, heap))
  | refused {driveNo : Int} {p : Nat} : pathStart pathStr = some (driveNo, p) →
      ¬ (PartsGranted pathStr machine.allocator memoryTurns (heap.calls + 1) p
          (machine.allocator.grants heap.calls 8 = true) ∧
        (components pathStr memoryTurns p ≠ none → pathRoot ≠ 0)) →
      RootOutcome machine pathStr heap pathRoot (.error .nullDeref)
  | diverges {driveNo : Int} {p : Nat} : pathStart pathStr = some (driveNo, p) →
      PartsGranted pathStr machine.allocator memoryTurns (heap.calls + 1) p
        (machine.allocator.grants heap.calls 8 = true) → components pathStr memoryTurns p = none →
      RootOutcome machine pathStr heap pathRoot (.error .diverges)
  | parsed {driveNo : Int} {p : Nat} {part : PathPart} {parts : List PathPart} {heap' : Kheap} :
      pathStart pathStr = some (driveNo, p) →
      PartsGranted pathStr machine.allocator memoryTurns (heap.calls + 1) p
        (machine.allocator.grants heap.calls 8 = true) →
      components pathStr memoryTurns p = some (part.name :: parts.map PathPart.name) → pathRoot ≠ 0 →
      heap'.calls = heap.calls + 2 * (parts.length + 1) → SparesAll heap heap' →
      RootOutcome machine pathStr heap pathRoot
        (.ok (0, heap'.put pathRoot (.pathRoot ⟨driveNo, part :: parts⟩)))

/-- **The parser** by the requests it makes. -/
theorem parseRoot_outcome (heap : Kheap) (pathRoot : Ptr) :
    RootOutcome machine pathStr heap pathRoot (pparserParsePathRoot machine pathStr heap pathRoot) := by
  cases start_eq : pathStart pathStr with
  | none =>
    obtain ⟨status, negative, rejects⟩ := @parseRoot_rejected machine pathStr heap pathRoot start_eq
    rw [rejects]
    exact .rejected start_eq negative
  | some found =>
  obtain ⟨driveNo, p⟩ := found
  rw [parseRoot_started start_eq]
  have calls := @zalloc_calls machine heap 8 .pathPart
  have null := @zalloc_null_iff machine heap 8 .pathPart
  have spares : SparesAll heap (Store.zalloc machine.allocator heap 8 .pathPart).2 :=
    zalloc_spares rfl nofun
  generalize Store.zalloc machine.allocator heap 8 .pathPart = allocated at calls null spares ⊢
  obtain ⟨pathPart, allocated⟩ := allocated
  dsimp only at calls null spares ⊢
  have outcome := @parts_outcome machine pathStr memoryTurns allocated p pathPart
  have parsed_spares := @parts_spares machine pathStr memoryTurns allocated
  rw [calls, propext null] at outcome
  generalize names_eq : components pathStr memoryTurns p = names at outcome
  generalize granted_eq : PartsGranted pathStr machine.allocator memoryTurns (heap.calls + 1) p
    (machine.allocator.grants heap.calls 8 = true) = granted at outcome
  generalize parses : pparserParsePathParts machine pathStr memoryTurns allocated p pathPart = result
    at outcome
  cases outcome with
  | refused missing =>
    refine .refused start_eq ?_
    rw [granted_eq]
    exact fun both => missing both.1
  | diverges all => exact .diverges start_eq (granted_eq ▸ all) names_eq
  | @parsed _ part parts heap' all count =>
    rw [ok_bind]
    dsimp only
    by_cases root : pathRoot = 0
    · rw [if_pos root]
      refine .refused start_eq ?_
      rw [names_eq]
      exact fun both => both.2 nofun root
    · rw [if_neg root]
      refine .parsed start_eq (granted_eq ▸ all) names_eq root ?_ (spares.trans (parsed_spares parses))
      omega

end Parser

/-! ### `fopen` -/

/-- **Every request of the parser is met**, the path root being request number `call`. -/
def PathGranted (allocator : Allocator) (pathStr : CString) (call : Nat) : Prop :=
  ∀ driveNo p, pathStart pathStr = some (driveNo, p) →
    PartsGranted pathStr allocator memoryTurns (call + 2) p (allocator.grants (call + 1) 8 = true) ∧
      (components pathStr memoryTurns p ≠ none → allocator.grants call 8 = true)

/-- With memory for every record, so they are. -/
theorem parts_granted {allocator : Allocator} {pathStr : CString}
    (ample : Ample allocator) :
    ∀ (turns call p : Nat) {record : Prop}, record →
      PartsGranted pathStr allocator turns call p record := by
  intro turns
  induction turns with
  | zero => exact fun _ _ _ _ => trivial
  | succ turns ih =>
    intro call p record holds
    unfold PartsGranted
    cases pparserNameLen pathStr memoryTurns p with
    | none => exact trivial
    | some nameLen =>
      exact ⟨ample _ _ (Nat.succ_ne_zero nameLen), holds, fun _ => ih _ _ (ample _ _ (by decide))⟩

theorem path_granted {allocator : Allocator} (pathStr : CString) (call : Nat)
    (ample : Ample allocator) : PathGranted allocator pathStr call :=
  fun _ _ _ => ⟨parts_granted ample _ _ _ (ample _ _ (by decide)), fun _ => ample _ _ (by decide)⟩

/-- **The call gets to the walk of these components**: the path is one of drive 0, the mode is for
reading, and the descriptor of the driver is not refused. -/
structure Walks (machine : Machine) (kernel : Kernel) (filename modeStr : CString)
    (name : Text) (rest : List Text) : Prop where
  path : ∃ p, pathStart filename = some (0, p) ∧ components filename memoryTurns p = some (name :: rest)
  filesystem : kernel.rootDisk.filesystem = some .fat16Fs
  mode : getFileMode modeStr = .read
  granted : machine.allocator.grants (kernel.heap.calls + 2 * rest.length + 3) 8 = true

section Open

variable {machine : Machine} {kernel : Kernel} {fatPrivate : FatPrivate} {filename modeStr : CString}

/-- Where the path starts decides its drive and its components. -/
theorem Walks.parts {name : Text} {rest : List Text} {driveNo : Int} {p : Nat}
    (walks : Walks machine kernel filename modeStr name rest) (start : pathStart filename = some (driveNo, p)) :
    driveNo = 0 ∧ components filename memoryTurns p = some (name :: rest) := by
  obtain ⟨p', starts, names⟩ := walks.path
  cases start.symm.trans starts
  exact ⟨rfl, names⟩

/-- What `fopen` makes of what the walk returns: a descriptor at `fdPrivate` and a handle. -/
inductive OpenOutcome (machine : Machine) (kernel : Kernel) (fdPrivate : Ptr) :
    Except Fault (Ptr × Kheap) → Except Fault (Int × Kernel) → Prop
  | faults (fault : Fault) : OpenOutcome machine kernel fdPrivate (.error fault) (.error fault)
  | nothing (heap : Kheap) :
      OpenOutcome machine kernel fdPrivate (.ok (0, heap)) (.ok (0, { kernel with heap := heap }))
  | full {item : Ptr} {heap : Kheap} : item ≠ 0 → freeSlot kernel.filedescriptors = none →
      OpenOutcome machine kernel fdPrivate (.ok (item, heap))
        (.ok (0, { kernel with heap := heap.put fdPrivate (.fatDescriptor ⟨item, 0⟩) }))
  | refused {item : Ptr} {heap : Kheap} {slot : Fin maxFiledescriptors} : item ≠ 0 →
      freeSlot kernel.filedescriptors = some slot → ¬ machine.allocator.grants heap.calls 16 = true →
      OpenOutcome machine kernel fdPrivate (.ok (item, heap)) (.error .nullDeref)
  | opened {item desc : Ptr} {heap : Kheap} {slot : Fin maxFiledescriptors} : item ≠ 0 →
      freeSlot kernel.filedescriptors = some slot → machine.allocator.grants heap.calls 16 = true →
      desc ≠ 0 → (heap.put fdPrivate (.fatDescriptor ⟨item, 0⟩)).lookup desc = none →
      OpenOutcome machine kernel fdPrivate (.ok (item, heap))
        (.ok ((slot : Int) + 1, { kernel with
          heap := (heap.put fdPrivate (.fatDescriptor ⟨item, 0⟩)).tick.put desc
            (.fileDescriptor ⟨(slot : Int) + 1, some .fat16Fs, fdPrivate, some .rootDisk⟩)
          filedescriptors := setSlot kernel.filedescriptors slot desc }))

/-- What an `fopen` on a mounted volume returns. -/
inductive FopenOutcome (machine : Machine) (kernel : Kernel) (fatPrivate : FatPrivate)
    (filename modeStr : CString) : Except Fault (Int × Kernel) → Prop
  | refused : ¬ PathGranted machine.allocator filename kernel.heap.calls →
      FopenOutcome machine kernel fatPrivate filename modeStr (.error .nullDeref)
  | diverges {driveNo : Int} {p : Nat} :
      PathGranted machine.allocator filename kernel.heap.calls →
      pathStart filename = some (driveNo, p) → components filename memoryTurns p = none →
      FopenOutcome machine kernel fatPrivate filename modeStr (.error .diverges)
  | rejected {heap : Kheap} : PathGranted machine.allocator filename kernel.heap.calls →
      (∀ name rest, ¬ Walks machine kernel filename modeStr name rest) →
      SparesAll kernel.heap heap →
      FopenOutcome machine kernel fatPrivate filename modeStr (.ok (0, { kernel with heap := heap }))
  | walks {name : Text} {rest : List Text} {heap : Kheap} {result : Except Fault (Int × Kernel)} :
      PathGranted machine.allocator filename kernel.heap.calls →
      Walks machine kernel filename modeStr name rest →
      heap.calls = kernel.heap.calls + 2 * rest.length + 3 → SparesAll kernel.heap heap →
      OpenOutcome machine kernel (Store.nextPtr machine.allocator heap 8)
        (fat16GetDirectoryEntry machine fatPrivate (describing machine heap) name rest) result →
      FopenOutcome machine kernel fatPrivate filename modeStr result

theorem fileNewDescriptor_full (full : freeSlot kernel.filedescriptors = none) :
    fileNewDescriptor machine kernel = .ok (-enomem, 0, kernel) := by
  unfold fileNewDescriptor
  rw [full]

theorem fileNewDescriptor_refused {slot : Fin maxFiledescriptors}
    (free : freeSlot kernel.filedescriptors = some slot)
    (refused : ¬ Store.Grants machine.allocator kernel.heap 16) :
    fileNewDescriptor machine kernel = .error .nullDeref := by
  unfold fileNewDescriptor
  rw [free, Store.zalloc_refused refused]
  rfl

/-- The rest of `fopen`, behind the walk. -/
theorem open_outcome {heap : Kheap} {name : Text} {rest : List Text}
    (granted : Store.Grants machine.allocator heap 8) :
    OpenOutcome machine kernel (Store.nextPtr machine.allocator heap 8)
      (fat16GetDirectoryEntry machine fatPrivate (describing machine heap) name rest)
      ((do
        let (fdPrivate, heap) ← fat16Open machine fatPrivate heap name rest .read
        let kernel := { kernel with heap := heap }
        if fdPrivate = 0 then return (-eio, kernel)
        if fdPrivate < 0 then return (fdPrivate, kernel)
        let (res, desc, kernel) ← fileNewDescriptor machine kernel
        if res < 0 then return (res, kernel)
        let record ← deref fileDescriptorKind kernel.heap desc
        return (record.index,
          { kernel with
            heap := kernel.heap.put desc (.fileDescriptor
              { record with fs := some .fat16Fs, privateData := fdPrivate.toNat, disk := some .rootDisk }) })) >>=
        fun found => .ok (if found.1 < 0 then 0 else found.1, found.2)) := by
  rw [fat16Open_granted granted]
  have nonnull : Store.nextPtr machine.allocator heap 8 ≠ 0 := Store.nextPtr_ne_zero
  generalize Store.nextPtr machine.allocator heap 8 = fdPrivate at *
  rcases fat16GetDirectoryEntry machine fatPrivate (describing machine heap) name rest with
    fault | ⟨item, later⟩
  · exact .faults fault
  rw [ok_bind]
  dsimp only
  by_cases null : item = 0
  · rw [if_pos null, null]
    exact .nothing later
  rw [if_neg null, ok_bind]
  dsimp only
  rw [if_neg (Int.natCast_ne_zero.mpr nonnull), if_neg (not_lt.mpr (Int.natCast_nonneg _))]
  cases free : freeSlot kernel.filedescriptors with
  | none =>
    have full := @fileNewDescriptor_full machine
      { kernel with heap := later.put fdPrivate (.fatDescriptor ⟨item, 0⟩) } free
    rw [full]
    exact .full null free
  | some slot =>
    by_cases bit : Store.Grants machine.allocator
        (later.put fdPrivate (.fatDescriptor ⟨item, 0⟩)) 16
    · have creates := @fileNewDescriptor_granted machine
        { kernel with heap := later.put fdPrivate (.fatDescriptor ⟨item, 0⟩) } slot free bit
      rw [creates, ok_bind]
      dsimp only
      have desc_nonnull :
          Store.nextPtr machine.allocator (later.put fdPrivate (.fatDescriptor ⟨item, 0⟩)) 16 ≠ 0 :=
        Store.nextPtr_ne_zero
      have fresh : (later.put fdPrivate (.fatDescriptor ⟨item, 0⟩)).lookup
          (Store.nextPtr machine.allocator (later.put fdPrivate (.fatDescriptor ⟨item, 0⟩)) 16) = none :=
        Store.lookup_nextPtr
      generalize Store.nextPtr machine.allocator (later.put fdPrivate (.fatDescriptor ⟨item, 0⟩)) 16 =
        desc at *
      have record : deref fileDescriptorKind
          ((later.put fdPrivate (.fatDescriptor ⟨item, 0⟩)).tick.put desc
            (.fileDescriptor ⟨(slot : Int) + 1, none, 0, none⟩)) desc =
          .ok ⟨(slot : Int) + 1, none, 0, none⟩ :=
        deref_eq fileDescriptorKind Store.lookup_put_self
      rw [if_neg (lt_irrefl _), record, ok_bind, Store.put_put]
      show OpenOutcome machine kernel fdPrivate _ (.ok (if ((slot : Int) + 1) < 0 then 0 else _, _))
      rw [if_neg (by omega)]
      exact .opened null free bit desc_nonnull fresh
    · have refuses := @fileNewDescriptor_refused machine
        { kernel with heap := later.put fdPrivate (.fatDescriptor ⟨item, 0⟩) } slot free bit
      rw [refuses]
      exact .refused null free bit

/-- Where the parser faults, so does `fopen`. -/
theorem fopen_of_parse_fault {pathRoot : Ptr} {allocated : Kheap} {fault : Fault}
    (allocates : Store.zalloc machine.allocator kernel.heap 8 (.pathRoot ⟨0, []⟩) = (pathRoot, allocated))
    (parses : pparserParsePathRoot machine filename allocated pathRoot = .error fault) :
    fopen machine kernel filename modeStr = .error fault := by
  unfold fopen fopenRes
  rw [allocates]
  dsimp only
  rw [parses]
  rfl

/-- What an `fopen` returns behind a path parsed into the records of `parsed`. -/
theorem parsed_outcome {pathRoot : Ptr} {allocated parsed : Kheap} {driveNo : Int} {p : Nat}
    {part : PathPart} {parts : List PathPart} (volume : kernel.rootDisk.fsPrivate = some fatPrivate)
    (allocates : Store.zalloc machine.allocator kernel.heap 8 (.pathRoot ⟨0, []⟩) = (pathRoot, allocated))
    (parses : pparserParsePathRoot machine filename allocated pathRoot = .ok (0, parsed))
    (record : deref pathRootKind parsed pathRoot = .ok ⟨driveNo, part :: parts⟩)
    (start : pathStart filename = some (driveNo, p))
    (names : components filename memoryTurns p = some (part.name :: parts.map PathPart.name))
    (all : PathGranted machine.allocator filename kernel.heap.calls)
    (calls : parsed.calls = kernel.heap.calls + 2 * parts.length + 3)
    (spares : SparesAll kernel.heap parsed) :
    FopenOutcome machine kernel fatPrivate filename modeStr (fopen machine kernel filename modeStr) := by
  unfold fopen fopenRes
  rw [allocates]
  dsimp only
  rw [parses, ok_bind]
  dsimp only
  rw [if_neg (lt_irrefl _), record, ok_bind]
  dsimp only
  have rejects {status : Int} (negative : status < 0)
      (stops : ∀ name rest, ¬ Walks machine kernel filename modeStr name rest) :
      FopenOutcome machine kernel fatPrivate filename modeStr
        (.ok (if status < 0 then 0 else status, { kernel with heap := parsed })) := by
    rw [if_pos negative]
    exact .rejected all stops spares
  by_cases drive : driveNo = 0
  swap
  · rw [show diskGet driveNo = none from if_pos drive]
    exact @rejects (-eio) (by decide) fun name rest walks => drive (walks.parts start).1
  subst drive
  rw [show diskGet 0 = some .rootDisk from rfl]
  dsimp only
  cases filesystem : kernel.rootDisk.filesystem with
  | none =>
    refine @rejects (-eio) (by decide) fun name rest walks => ?_
    have mounted := walks.filesystem
    rw [filesystem] at mounted
    cases mounted
  | some fs =>
    cases fs
    dsimp only
    by_cases invalid : getFileMode modeStr = .invalid
    · rw [if_pos invalid]
      refine @rejects (-einvarg) (by decide) fun name rest walks => ?_
      rw [walks.mode] at invalid
      cases invalid
    rw [if_neg invalid, fsPrivate, volume]
    dsimp only
    rw [ok_bind]
    by_cases reading : getFileMode modeStr = .read
    swap
    · rw [fat16Open_other reading]
      exact @rejects (-erdonly) (by decide) fun name rest walks => reading walks.mode
    have bit : Store.Grants machine.allocator parsed 8 ↔
        machine.allocator.grants (kernel.heap.calls + 2 * parts.length + 3) 8 = true := by
      rw [← calls]
      exact Iff.rfl
    by_cases granted_open : Store.Grants machine.allocator parsed 8
    · rw [reading]
      refine .walks all ⟨⟨p, start, names⟩, filesystem, reading, ?_⟩ ?_ spares
        (open_outcome granted_open)
      · rw [List.length_map]
        exact bit.mp granted_open
      · rw [List.length_map, calls]
    · rw [reading, fat16Open_refused granted_open]
      show FopenOutcome machine kernel fatPrivate filename modeStr
        (.ok (if -enomem < 0 then 0 else -enomem, _))
      rw [if_pos (by decide)]
      refine .rejected all (fun name rest walks => granted_open (bit.mpr ?_)) (spares.trans .tick)
      cases names.symm.trans (walks.parts start).2
      have := walks.granted
      rw [List.length_map] at this
      exact this

/-- **What an `fopen` returns.** -/
theorem fopen_outcome (volume : kernel.rootDisk.fsPrivate = some fatPrivate) :
    FopenOutcome machine kernel fatPrivate filename modeStr (fopen machine kernel filename modeStr) := by
  have calls := @zalloc_calls machine kernel.heap 8 (.pathRoot ⟨0, []⟩)
  have null := @zalloc_null_iff machine kernel.heap 8 (.pathRoot ⟨0, []⟩)
  have first : SparesAll kernel.heap
      (Store.zalloc machine.allocator kernel.heap 8 (.pathRoot ⟨0, []⟩)).2 := zalloc_spares rfl nofun
  have fresh : (Store.zalloc machine.allocator kernel.heap 8 (.pathRoot ⟨0, []⟩)).1 ≠ 0 →
      kernel.heap.lookup (Store.zalloc machine.allocator kernel.heap 8 (.pathRoot ⟨0, []⟩)).1 = none := by
    intro nonnull
    rw [Store.zalloc_granted (null.mp nonnull)]
    exact Store.lookup_nextPtr
  generalize allocates : Store.zalloc machine.allocator kernel.heap 8 (.pathRoot ⟨0, []⟩) = allocated at *
  obtain ⟨pathRoot, allocated⟩ := allocated
  dsimp only at calls null first fresh
  have outcome := @parseRoot_outcome machine filename allocated pathRoot
  generalize parses : pparserParsePathRoot machine filename allocated pathRoot = result at outcome
  cases outcome with
  | @rejected status start negative =>
    unfold fopen fopenRes
    rw [allocates]
    dsimp only
    rw [parses, ok_bind]
    dsimp only
    rw [if_pos negative]
    show FopenOutcome machine kernel fatPrivate filename modeStr (.ok (if status < 0 then 0 else status, _))
    rw [if_pos negative]
    refine .rejected (fun _ _ starts => ?_) (fun name rest walks => ?_) first
    · rw [start] at starts
      cases starts
    · obtain ⟨p, starts, -⟩ := walks.path
      rw [start] at starts
      cases starts
  | refused start missing =>
    rw [calls] at missing
    rw [fopen_of_parse_fault allocates parses]
    refine .refused fun granted => missing ?_
    obtain ⟨parts, root⟩ := granted _ _ start
    exact ⟨parts, fun some => null.mpr (root some)⟩
  | @diverges driveNo p start granted endless =>
    rw [calls] at granted
    rw [fopen_of_parse_fault allocates parses]
    refine .diverges (fun _ _ starts => ?_) start endless
    cases start.symm.trans starts
    exact ⟨granted, fun some => absurd endless some⟩
  | @parsed driveNo p part parts heap' start granted names nonnull calls' spares =>
    rw [calls] at granted
    have all : PathGranted machine.allocator filename kernel.heap.calls := by
      intro _ _ starts
      cases start.symm.trans starts
      exact ⟨granted, fun _ => null.mp nonnull⟩
    have calls'' : (heap'.put pathRoot (.pathRoot ⟨driveNo, part :: parts⟩)).calls =
        kernel.heap.calls + 2 * parts.length + 3 := by
      show heap'.calls = _
      omega
    exact parsed_outcome volume allocates parses (deref_eq pathRootKind Store.lookup_put_self) start names
      all calls'' ((first.trans spares).overwrite nonnull (fresh nonnull) nofun)

end Open

end KernelPlay
