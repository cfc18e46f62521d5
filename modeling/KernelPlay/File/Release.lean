/-
**Parsing a path and freeing it again.**

`pparserFreePathRoot` walks the chain of parts; `parseThenFree` is what `demo_pparser` does with one
string. `Chain` — every part has a record and a name of its own. The parser builds a chain out of new
blocks (`parts_chain`), and freeing a chain takes its blocks out of the heap and no others
(`free_chain`). `parse_releases_iff` — the sequence leaves the heap as it was exactly if the parser
gets to the end of the path; a path it rejects is freed through a null pointer.
-/

import KernelPlay.File.Grammar
import KernelPlay.File.Leak

namespace KernelPlay

open KernelPlay.Library

def nameKind : CellKind Unit where
  make _ := .name
  view
    | .name => some ()
    | _ => none
  view_iff cell value := by cases cell <;> simp

def pathPartKind : CellKind Unit where
  make _ := .pathPart
  view
    | .pathPart => some ()
    | _ => none
  view_iff cell value := by cases cell <;> simp

/-! ### The code -/

section Code

/-- The empty chain is the null pointer; the record of a part is read twice before it is freed. -/
def pparserFreePathPart : List PathPart → Kheap → Except Fault Kheap
  | [], _ => .error .nullDeref
  | part :: next, heap => do
    let _ ← deref pathPartKind heap part.addr
    let heap ← kheapFree nameKind heap part.nameAddr
    let _ ← deref pathPartKind heap part.addr
    let heap ← (if next = [] then .ok heap else pparserFreePathPart next heap)
    kheapFree pathPartKind heap part.addr

def pparserFreePathRoot (heap : Kheap) (pathRoot : Ptr) : Except Fault Kheap := do
  let root ← deref pathRootKind heap pathRoot
  let heap ← pparserFreePathPart root.parts heap
  kheapFree pathRootKind heap pathRoot

/-- A path root is allocated, a string parsed into it, and the path root freed. -/
def parseThenFree (machine : Machine) (pathStr : CString) (heap : Kheap) : Except Fault Kheap := do
  let (pathRoot, heap) := Store.zalloc machine.allocator heap 8 (.pathRoot ⟨0, []⟩)
  let (_, heap) ← pparserParsePathRoot machine pathStr heap pathRoot
  pparserFreePathRoot heap pathRoot

end Code

/-! ### Chains of parts -/

/-- The blocks of a chain. -/
def chainBlocks (parts : List PathPart) : List Ptr :=
  parts.flatMap fun part => [part.nameAddr, part.addr]

/-- **A chain in the heap**: every part has a record and a name of its own. -/
structure Chain (heap : Kheap) (parts : List PathPart) : Prop where
  apart : (chainBlocks parts).Nodup
  names : ∀ part ∈ parts, heap.lookup part.nameAddr = some .name
  records : ∀ part ∈ parts, heap.lookup part.addr = some .pathPart

section Chains

variable {heap heap' : Kheap} {part : PathPart} {parts : List PathPart} {ptr : Ptr}

theorem deref_pathPart (found : heap.lookup ptr = some .pathPart) :
    deref pathPartKind heap ptr = .ok () :=
  deref_eq pathPartKind found

theorem free_pathPart (found : heap.lookup ptr = some .pathPart) :
    kheapFree pathPartKind heap ptr = .ok (heap.erase ptr) :=
  @kheapFree_eq _ heap ptr pathPartKind () found

theorem free_name (found : heap.lookup ptr = some .name) :
    kheapFree nameKind heap ptr = .ok (heap.erase ptr) :=
  @kheapFree_eq _ heap ptr nameKind () found

@[simp]
theorem chainBlocks_nil : chainBlocks [] = [] := rfl

@[simp]
theorem chainBlocks_cons :
    chainBlocks (part :: parts) = part.nameAddr :: part.addr :: chainBlocks parts := rfl

theorem nameAddr_mem (member : part ∈ parts) : part.nameAddr ∈ chainBlocks parts :=
  List.mem_flatMap.mpr ⟨part, member, by simp⟩

theorem addr_mem (member : part ∈ parts) : part.addr ∈ chainBlocks parts :=
  List.mem_flatMap.mpr ⟨part, member, by simp⟩

/-- A chain depends on its own blocks alone. -/
theorem Chain.congr (chain : Chain heap parts)
    (same : ∀ ptr ∈ chainBlocks parts, heap'.lookup ptr = heap.lookup ptr) : Chain heap' parts where
  apart := chain.apart
  names part member := by
    rw [same _ (nameAddr_mem member)]
    exact chain.names part member
  records part member := by
    rw [same _ (addr_mem member)]
    exact chain.records part member

theorem Chain.tail (chain : Chain heap (part :: parts)) : Chain heap parts where
  apart := by
    have apart := chain.apart
    rw [chainBlocks_cons] at apart
    exact (List.nodup_cons.mp (List.nodup_cons.mp apart).2).2
  names other member := chain.names other (List.mem_cons_of_mem _ member)
  records other member := chain.records other (List.mem_cons_of_mem _ member)

/-- **Freeing a chain** takes its blocks out of the heap, and leaves the others. -/
theorem free_chain :
    ∀ {parts : List PathPart} {heap : Kheap}, parts ≠ [] → Chain heap parts →
      ∃ heap', pparserFreePathPart parts heap = .ok heap' ∧
        ∀ ptr, heap'.lookup ptr = if ptr ∈ chainBlocks parts then none else heap.lookup ptr := by
  intro parts
  induction parts with
  | nil => exact fun nonempty => absurd rfl nonempty
  | cons part next ih =>
    intro heap _ chain
    have apart := chain.apart
    rw [chainBlocks_cons, List.nodup_cons, List.nodup_cons, List.mem_cons, not_or] at apart
    obtain ⟨⟨differ, name_apart⟩, record_apart, -⟩ := apart
    have name := chain.names part List.mem_cons_self
    have record := chain.records part List.mem_cons_self
    have unnamed : (heap.erase part.nameAddr).lookup part.addr = some .pathPart := by
      rwa [Store.lookup_erase_ne (Ne.symm differ)]
    obtain ⟨later, frees, left⟩ : ∃ later,
        (if next = [] then .ok (heap.erase part.nameAddr)
          else pparserFreePathPart next (heap.erase part.nameAddr)) = Except.ok later ∧
        ∀ ptr, later.lookup ptr =
          if ptr ∈ chainBlocks next then none else (heap.erase part.nameAddr).lookup ptr := by
      by_cases last : next = []
      · rw [if_pos last, last]
        exact ⟨_, rfl, fun ptr => by simp⟩
      · rw [if_neg last]
        exact ih last (chain.tail.congr fun ptr member =>
          Store.lookup_erase_ne fun same => name_apart (same ▸ member))
    have kept : later.lookup part.addr = some .pathPart := by
      rw [left, if_neg record_apart, unnamed]
    rw [pparserFreePathPart, deref_pathPart record, ok_bind, free_name name, ok_bind,
      deref_pathPart unnamed, ok_bind, frees]
    refine ⟨_, free_pathPart kept, fun ptr => ?_⟩
    by_cases at_record : ptr = part.addr
    · simp [at_record]
    · rw [Store.lookup_erase_ne at_record, left]
      by_cases at_name : ptr = part.nameAddr
      · simp [at_name]
      · rw [Store.lookup_erase_ne at_name]
        simp [at_record, at_name]

end Chains

/-! ### What the parser allocates -/

section Parse

variable {machine : Machine} {pathStr : CString}

/-- The parser adds the blocks of these parts to the heap, and the record it was given is the first. -/
structure AddsChain (heap heap' : Kheap) (pathPart : Ptr) (parts : List PathPart) : Prop where
  nonempty : parts ≠ []
  chain : Chain heap' parts
  first : pathPart ∈ chainBlocks parts
  fresh : ∀ ptr ∈ chainBlocks parts, ptr ≠ pathPart → heap.lookup ptr = none
  others : ∀ ptr, ptr ∉ chainBlocks parts → heap'.lookup ptr = heap.lookup ptr

section Added

variable {heap heap' later : Kheap} {part : PathPart} {parts : List PathPart} {first ptr : Ptr}

/-- What is added behind a new record was not there before. -/
theorem AddsChain.unused (added : AddsChain (heap.tick.put first .pathPart) later first parts)
    (absent : heap.lookup first = none) (member : ptr ∈ chainBlocks parts) : heap.lookup ptr = none := by
  by_cases here : ptr = first
  · rw [here, absent]
  · have fresh := added.fresh ptr member here
    rwa [Store.lookup_put_ne here, Store.lookup_tick] at fresh

theorem AddsChain.stays (added : AddsChain (heap.tick.put first .pathPart) later first parts)
    (outside : ptr ∉ chainBlocks parts) : later.lookup ptr = heap.lookup ptr := by
  have apart : ptr ≠ first := fun same => outside (same ▸ added.first)
  rw [added.others ptr outside, Store.lookup_put_ne apart, Store.lookup_tick]

/-- The last part: its record was there, and its name is new. -/
theorem AddsChain.last (record : heap.lookup part.addr = some .pathPart)
    (absent : heap.lookup part.nameAddr = none) (named : heap'.lookup part.nameAddr = some .name)
    (kept : ∀ ptr, ptr ≠ part.nameAddr → heap'.lookup ptr = heap.lookup ptr) :
    AddsChain heap heap' part.addr [part] := by
  have differ : part.addr ≠ part.nameAddr := Store.ne_of_absent record absent
  refine ⟨List.cons_ne_nil _ _, ⟨?_, ?_, ?_⟩, ?_, ?_, ?_⟩
  · simp [Ne.symm differ]
  · simp [named]
  · simp [kept _ differ, record]
  · simp
  · intro ptr member other
    simp only [chainBlocks_cons, chainBlocks_nil, List.mem_cons, List.not_mem_nil, or_false] at member
    rw [member.resolve_right other, absent]
  · intro ptr outside
    simp only [chainBlocks_cons, List.mem_cons, not_or] at outside
    exact kept _ outside.1

/-- One part in front of a chain added behind it. -/
theorem AddsChain.link (record : heap.lookup part.addr = some .pathPart)
    (absent : heap.lookup part.nameAddr = none) (named : heap'.lookup part.nameAddr = some .name)
    (kept : ∀ ptr, ptr ≠ part.nameAddr → heap'.lookup ptr = heap.lookup ptr)
    (added : AddsChain (heap'.tick.put first .pathPart) later first parts)
    (fresh : heap'.lookup first = none) : AddsChain heap later part.addr (part :: parts) := by
  have differ : part.addr ≠ part.nameAddr := Store.ne_of_absent record absent
  have name_outside : part.nameAddr ∉ chainBlocks parts := fun member => by
    rw [added.unused fresh member] at named
    cases named
  have record_outside : part.addr ∉ chainBlocks parts := fun member => by
    have unused := added.unused fresh member
    rw [kept _ differ, record] at unused
    cases unused
  refine ⟨List.cons_ne_nil _ _, ⟨?_, ?_, ?_⟩, ?_, ?_, ?_⟩
  · simp [Ne.symm differ, name_outside, record_outside, added.chain.apart]
  · intro other member
    rcases List.mem_cons.mp member with rfl | member
    · rw [added.stays name_outside, named]
    · exact added.chain.names other member
  · intro other member
    rcases List.mem_cons.mp member with rfl | member
    · rw [added.stays record_outside, kept _ differ, record]
    · exact added.chain.records other member
  · simp
  · intro ptr member other
    rcases List.mem_cons.mp member with rfl | member
    · exact absent
    rcases List.mem_cons.mp member with rfl | member
    · exact absurd rfl other
    · rw [← kept _ fun same => name_outside (same ▸ member), added.unused fresh member]
  · intro ptr outside
    simp only [chainBlocks_cons, List.mem_cons, not_or] at outside
    rw [added.stays outside.2.2, kept _ outside.1]

end Added

/-- **The parser builds a chain out of new blocks.** By induction on its turns. -/
theorem parts_chain (ample : Ample machine.allocator) :
    ∀ {turns : Nat} {heap heap' : Kheap} {p : Nat} {pathPart : Ptr} {parts : List PathPart},
      heap.lookup pathPart = some .pathPart →
      pparserParsePathParts machine pathStr turns heap p pathPart = .ok (parts, heap') →
      AddsChain heap heap' pathPart parts := by
  intro turns
  induction turns with
  | zero =>
    intro heap heap' p pathPart parts _ done
    cases done
  | succ turns ih =>
    intro heap heap' p pathPart parts record done
    rw [pparserParsePathParts] at done
    cases len : pparserNameLen pathStr memoryTurns p with
    | none =>
      rw [len] at done
      cases done
    | some nameLen =>
      rw [len] at done
      dsimp only at done
      have granted : Store.Grants machine.allocator heap (nameLen + 1) := ample _ _ (Nat.succ_ne_zero _)
      rw [Store.zalloc_granted granted] at done
      dsimp only at done
      have absent := @Store.lookup_nextPtr _ machine.allocator heap (nameLen + 1)
      generalize Store.nextPtr machine.allocator heap (nameLen + 1) = name at done absent
      have named : (heap.tick.put name .name).lookup name = some .name := Store.lookup_put_self
      have kept {ptr : Ptr} (apart : ptr ≠ name) :
          (heap.tick.put name .name).lookup ptr = heap.lookup ptr := Store.lookup_put_ne apart
      generalize heap.tick.put name .name = heap₁ at done named kept
      split_ifs at done with null bare last
      · cases done
        exact @AddsChain.last heap _ ⟨pathPart, name, _⟩ record absent named fun _ => kept
      · have granted' : Store.Grants machine.allocator heap₁ 8 := ample _ _ (by decide)
        rw [Store.zalloc_granted granted'] at done
        obtain ⟨⟨rest, later⟩, parsed, done⟩ := bind_ok.mp done
        cases done
        exact @AddsChain.link heap heap₁ _ ⟨pathPart, name, _⟩ _ _ record absent named (fun _ => kept)
          (ih Store.lookup_put_self parsed) Store.lookup_nextPtr

end Parse

/-! ### Parsing and freeing -/

/-- **The path is parsed to its end**: it is no longer than `PPARSER_MAX_PATH` as an `int`, begins with a
digit and two characters that do not compare above `":/"`, and from the fourth character on it ends. -/
structure CString.Parses (pathStr : CString) : Prop where
  short : int32 pathStr.strlen ≤ pparserMaxPath
  digit : isDigit (pathStr.charAt 0) = true
  start : ¬ AboveStart (pathStr.charAt 1) (pathStr.charAt 2)
  ends : components pathStr memoryTurns 3 ≠ none

/-- **Nothing is left and nothing is lost**: the sequence goes through no null or freed pointer, and
every block is as it was. -/
def Releases (machine : Machine) (pathStr : CString) (heap : Kheap) : Prop :=
  ∃ heap', parseThenFree machine pathStr heap = .ok heap' ∧ ∀ ptr, heap'.lookup ptr = heap.lookup ptr

section Releases

variable {machine : Machine} {pathStr : CString} {heap : Kheap}

theorem parses_iff :
    pathStr.Parses ↔ ∃ driveNo p, pathStart pathStr = some (driveNo, p) ∧
      components pathStr memoryTurns p ≠ none := by
  constructor
  · rintro ⟨short, digit, start, ends⟩
    exact ⟨_, 3, pathStart_iff.mpr ⟨short, digit, start, rfl, rfl⟩, ends⟩
  · rintro ⟨driveNo, p, starts, ends⟩
    obtain ⟨short, digit, start, -, rfl⟩ := pathStart_iff.mp starts
    exact ⟨short, digit, start, ends⟩

/-- A path root nothing was parsed into is freed through its null chain. -/
theorem freePathRoot_empty {pathRoot : Ptr}
    (record : heap.lookup pathRoot = some (.pathRoot ⟨0, []⟩)) :
    pparserFreePathRoot heap pathRoot = .error .nullDeref := by
  unfold pparserFreePathRoot
  rw [deref_eq pathRootKind record]
  rfl

/-- A chain and its path root are freed. -/
theorem freePathRoot_chain {pathRoot : Ptr} {driveNo : Int} {parts : List PathPart}
    (record : heap.lookup pathRoot = some (.pathRoot ⟨driveNo, parts⟩)) (nonempty : parts ≠ [])
    (chain : Chain heap parts) (apart : pathRoot ∉ chainBlocks parts) :
    ∃ heap', pparserFreePathRoot heap pathRoot = .ok heap' ∧
      ∀ ptr, heap'.lookup ptr =
        if ptr = pathRoot ∨ ptr ∈ chainBlocks parts then none else heap.lookup ptr := by
  obtain ⟨later, frees, left⟩ := free_chain nonempty chain
  have kept : later.lookup pathRoot = some (.pathRoot ⟨driveNo, parts⟩) := by
    rw [left, if_neg apart, record]
  unfold pparserFreePathRoot
  rw [deref_eq pathRootKind record, ok_bind, frees, ok_bind, kheapFree_eq pathRootKind kept]
  refine ⟨_, rfl, fun ptr => ?_⟩
  by_cases at_root : ptr = pathRoot
  · simp [at_root]
  · rw [Store.lookup_erase_ne at_root, left]
    simp [at_root]

/-- A chain added behind a new path root is freed with it, and the heap is as it was before both. -/
theorem free_added {heap' later : Kheap} {pathRoot first : Ptr} {driveNo : Int} {parts : List PathPart}
    (absent : heap.lookup pathRoot = none) (record : heap'.lookup pathRoot = some (.pathRoot ⟨0, []⟩))
    (others : ∀ {ptr}, ptr ≠ pathRoot → heap'.lookup ptr = heap.lookup ptr)
    (added : AddsChain (heap'.tick.put first .pathPart) later first parts)
    (fresh : heap'.lookup first = none) :
    ∃ final, pparserFreePathRoot (later.put pathRoot (.pathRoot ⟨driveNo, parts⟩)) pathRoot = .ok final ∧
      ∀ ptr, final.lookup ptr = heap.lookup ptr := by
  have root_outside : pathRoot ∉ chainBlocks parts := fun member => by
    rw [added.unused fresh member] at record
    cases record
  have chain : Chain (later.put pathRoot (.pathRoot ⟨driveNo, parts⟩)) parts :=
    added.chain.congr fun ptr member => Store.lookup_put_ne fun same => root_outside (same ▸ member)
  obtain ⟨final, frees, left⟩ :=
    freePathRoot_chain Store.lookup_put_self added.nonempty chain root_outside
  refine ⟨final, frees, fun ptr => ?_⟩
  rw [left]
  by_cases at_root : ptr = pathRoot
  · rw [if_pos (.inl at_root), at_root, absent]
  by_cases member : ptr ∈ chainBlocks parts
  · rw [if_pos (.inr member), ← others at_root, added.unused fresh member]
  · rw [if_neg (not_or.mpr ⟨at_root, member⟩), Store.lookup_put_ne at_root, added.stays member,
      others at_root]

/-- **The sequence releases what it allocated** exactly if the path is parsed to its end. -/
theorem parse_releases_iff (ample : Ample machine.allocator) :
    Releases machine pathStr heap ↔ pathStr.Parses := by
  have granted : Store.Grants machine.allocator heap 8 := ample _ _ (by decide)
  have fresh := @Store.lookup_nextPtr _ machine.allocator heap 8
  have nonnull := @Store.nextPtr_ne_zero _ machine.allocator heap 8
  unfold Releases parseThenFree
  rw [Store.zalloc_granted granted]
  dsimp only
  generalize Store.nextPtr machine.allocator heap 8 = pathRoot at fresh nonnull ⊢
  have record : (heap.tick.put pathRoot (.pathRoot ⟨0, []⟩)).lookup pathRoot = some (.pathRoot ⟨0, []⟩) :=
    Store.lookup_put_self
  have others {ptr : Ptr} (apart : ptr ≠ pathRoot) :
      (heap.tick.put pathRoot (.pathRoot ⟨0, []⟩)).lookup ptr = heap.lookup ptr :=
    Store.lookup_put_ne apart
  generalize heap.tick.put pathRoot (.pathRoot ⟨0, []⟩) = heap₁ at record others ⊢
  rw [parses_iff]
  cases start : pathStart pathStr with
  | none =>
    obtain ⟨status, -, rejects⟩ := @parseRoot_rejected machine pathStr heap₁ pathRoot start
    rw [rejects, ok_bind, freePathRoot_empty record]
    refine iff_of_false nofun ?_
    rintro ⟨_, _, ⟨⟩, -⟩
  | some found =>
  obtain ⟨driveNo, p⟩ := found
  have first : Store.Grants machine.allocator heap₁ 8 := ample _ _ (by decide)
  rw [parseRoot_started start, Store.zalloc_granted first]
  dsimp only
  have fresh' := @Store.lookup_nextPtr _ machine.allocator heap₁ 8
  have nonnull' := @Store.nextPtr_ne_zero _ machine.allocator heap₁ 8
  have apart := @Store.nextPtr_ne _ machine.allocator heap₁ _ 8 _ record
  generalize Store.nextPtr machine.allocator heap₁ 8 = pathPart at fresh' nonnull' apart ⊢
  have outcome := @parts_outcome machine pathStr memoryTurns (heap₁.tick.put pathPart .pathPart) p pathPart
  have all := @parts_granted machine.allocator pathStr ample memoryTurns
    (heap₁.tick.put pathPart .pathPart).calls p _ nonnull'
  generalize parses : pparserParsePathParts machine pathStr memoryTurns
    (heap₁.tick.put pathPart .pathPart) p pathPart = result at outcome ⊢
  generalize ends : components pathStr memoryTurns p = names at outcome
  cases outcome with
  | refused missing => exact absurd all missing
  | diverges all =>
    refine iff_of_false nofun ?_
    rintro ⟨_, _, ⟨⟩, some⟩
    exact some ends
  | @parsed _ part parts heap₂ all count =>
    refine iff_of_true ?_ ⟨driveNo, p, rfl, by rw [ends]; nofun⟩
    rw [ok_bind, if_neg nonnull, ok_bind]
    exact free_added fresh record others (parts_chain ample Store.lookup_put_self parses) fresh'

/-- A string of the grammar is parsed to its end. -/
theorem CString.InGrammar.parses (grammar : pathStr.InGrammar) : pathStr.Parses := by
  obtain ⟨start, below⟩ := start_of_inGrammar grammar
  obtain ⟨names, ends, -⟩ := components_splitOn memoryTurns 3 below (Nat.lt_add_right 3 pathStr.fits)
  exact parses_iff.mpr ⟨_, _, start, by rw [ends]; nofun⟩

end Releases

section Small

theorem slashesPath_grammar : slashesPath.InGrammar :=
  ⟨by decide, 49, [97, 47, 47, 98, 47], by decide, rfl⟩

theorem parse_releases_iff_slashes : Releases treeMachine slashesPath bootKernel.heap :=
  (parse_releases_iff fun _ _ _ => rfl).mpr slashesPath_grammar.parses

/-- The path `x` is rejected, and its path root freed through a null pointer. -/
theorem parse_releases_fails :
    parseThenFree treeMachine rejectedPath bootKernel.heap = .error .nullDeref ∧
      ¬ Releases treeMachine rejectedPath bootKernel.heap := by
  have faults : parseThenFree treeMachine rejectedPath bootKernel.heap = .error .nullDeref := by
    unfold parseThenFree
    dsimp only
    rw [rejectedPath_parse, ok_bind]
    exact freePathRoot_empty Store.lookup_put_self
  refine ⟨faults, ?_⟩
  rintro ⟨heap', released, -⟩
  rw [faults] at released
  cases released

end Small

end KernelPlay
