/-
**`fopen` of paths that lead to an entry, and of paths that lead nowhere.**

`fopen_opens` — on a volume with a directory tree, `fopen` of a path that leads to an entry returns the
handle of the first free slot. `OpensPath` — the `fopen` walks these components in this heap.
`nothing_opened_iff` — if the path leads to no entry, the walk returns null and `fopen` returns `0`
exactly if the component that fails is the first, the last or a file and the walk gets to it;
`nothing_opened_fails` is a component missing in the middle.
-/

import KernelPlay.Fat.Tree
import KernelPlay.File.Calls

namespace KernelPlay

open KernelPlay.Library

/-! ### Paths that lead to an entry -/

section Opens

/-- The parser splits the string into these components, on drive 0, wherever it puts its records. -/
def Parses (machine : Machine) (filename : CString) (name : Text) (rest : List Text) : Prop :=
  ∀ heap pathRoot, pathRoot ≠ 0 → ∃ added part parts,
    pparserParsePathRoot machine filename heap pathRoot =
      .ok (0, added.put pathRoot (.pathRoot ⟨0, part :: parts⟩)) ∧
    SparesAll heap added ∧ part.name = name ∧ parts.map PathPart.name = rest

variable {machine : Machine} {kernel : Kernel} {fatPrivate : FatPrivate} {filename modeStr : CString}
  {name : Text} {rest : List Text} {tree sub : DirTree} {target : FatDirectoryItem}
  {slot : Fin maxFiledescriptors}

theorem fileNewDescriptor_granted (free : freeSlot kernel.filedescriptors = some slot)
    (granted : Store.Grants machine.allocator kernel.heap 16) :
    fileNewDescriptor machine kernel = .ok (0, Store.nextPtr machine.allocator kernel.heap 16,
      { kernel with
        heap := kernel.heap.tick.put (Store.nextPtr machine.allocator kernel.heap 16)
          (.fileDescriptor ⟨(slot : Int) + 1, none, 0, none⟩)
        filedescriptors := setSlot kernel.filedescriptors slot
          (Store.nextPtr machine.allocator kernel.heap 16) }) := by
  unfold fileNewDescriptor
  rw [free, Store.zalloc_granted granted]
  dsimp only
  rw [if_neg Store.nextPtr_ne_zero, Store.put_put]

/-- **`fopen` of a path that leads to an entry** returns the handle of the first free slot, and keeps what
there was in the heap. -/
theorem fopen_opens (ample : Ample machine.allocator) (mounted : Mounted machine.drive fatPrivate)
    (filesystem : kernel.rootDisk.filesystem = some .fat16Fs)
    (volume : kernel.rootDisk.fsPrivate = some fatPrivate)
    (laid : LaidOut machine.drive fatPrivate.header tree)
    (holds : Holds kernel.heap fatPrivate.rootDirectory tree.entries)
    (noNull : kernel.heap.lookup 0 = none) (parses : Parses machine filename name rest)
    (mode : getFileMode modeStr = .read) (leads : Leads tree name rest target sub)
    (free : freeSlot kernel.filedescriptors = some slot) :
    ∃ kernel', fopen machine kernel filename modeStr = .ok ((slot : Int) + 1, kernel') ∧
      kernel'.rootDisk = kernel.rootDisk ∧
      ∀ ptr cell, kernel.heap.lookup ptr = some cell → kernel'.heap.lookup ptr = some cell := by
  have allocates := @Store.zalloc_granted _ machine.allocator kernel.heap 8 (.pathRoot ⟨0, []⟩)
    (ample _ _ (by decide))
  have nonnull : Store.nextPtr machine.allocator kernel.heap 8 ≠ 0 := Store.nextPtr_ne_zero
  have fresh : kernel.heap.lookup (Store.nextPtr machine.allocator kernel.heap 8) = none :=
    Store.lookup_nextPtr
  generalize Store.nextPtr machine.allocator kernel.heap 8 = pathRoot at *
  obtain ⟨added, part, parts, parsed, spares, rfl, rfl⟩ :=
    parses (kernel.heap.tick.put pathRoot (.pathRoot ⟨0, []⟩)) pathRoot nonnull
  have kept {ptr : Ptr} {cell : Cell} (found : kernel.heap.lookup ptr = some cell) :
      (added.put pathRoot (.pathRoot ⟨0, part :: parts⟩)).lookup ptr = some cell := by
    have apart : ptr ≠ pathRoot := Store.ne_of_absent found fresh
    rw [Store.lookup_put_ne apart]
    exact spares.kept ptr cell trivial ((Store.lookup_put_ne apart).trans found)
  have noNull' : (added.put pathRoot (.pathRoot ⟨0, part :: parts⟩)).lookup 0 = none :=
    (Store.lookup_put_ne nonnull.symm).trans
      (spares.noNull ((Store.lookup_put_ne nonnull.symm).trans noNull))
  obtain ⟨total, items, record, enough, taken⟩ := holds
  obtain ⟨descriptor, item, later, opens, descriptor_nonnull, -, -, kept'⟩ :=
    fat16Open_finds ample mounted laid ⟨total, items, kept record, enough, taken⟩ noNull' leads
  have creates := @fileNewDescriptor_granted machine { kernel with heap := later } slot free
    (ample _ _ (by decide))
  have fresh' : later.lookup (Store.nextPtr machine.allocator later 16) = none := Store.lookup_nextPtr
  generalize Store.nextPtr machine.allocator later 16 = desc at *
  have created : deref fileDescriptorKind
      (later.tick.put desc (.fileDescriptor ⟨(slot : Int) + 1, none, 0, none⟩)) desc =
        .ok ⟨(slot : Int) + 1, none, 0, none⟩ :=
    deref_eq fileDescriptorKind Store.lookup_put_self
  have root_read : deref pathRootKind (added.put pathRoot (.pathRoot ⟨0, part :: parts⟩)) pathRoot =
      .ok ⟨0, part :: parts⟩ :=
    deref_eq pathRootKind Store.lookup_put_self
  unfold fopen fopenRes
  rw [allocates]
  dsimp only
  rw [parsed, ok_bind]
  dsimp only
  rw [if_neg (lt_irrefl _), root_read, ok_bind]
  dsimp only
  rw [show diskGet 0 = some .rootDisk from rfl, filesystem, mode]
  dsimp only
  rw [if_neg (by decide), fsPrivate, volume]
  dsimp only
  rw [ok_bind, opens, ok_bind]
  dsimp only
  rw [if_neg (Int.natCast_ne_zero.mpr descriptor_nonnull), if_neg (not_lt.mpr (Int.natCast_nonneg _)),
    creates, ok_bind]
  dsimp only
  rw [if_neg (lt_irrefl _), created, ok_bind]
  refine ⟨_, rfl, rfl, fun ptr cell found => ?_⟩
  have found' := kept' ptr cell (kept found)
  have apart : ptr ≠ desc := Store.ne_of_absent found' fresh'
  exact (Store.lookup_put_ne apart).trans ((Store.lookup_put_ne apart).trans found')

end Opens

/-! ### Paths that lead nowhere -/

/-- **The `fopen` gets to the walk** of these components on the mounted volume, in this heap. -/
structure OpensPath (machine : Machine) (kernel : Kernel) (filename modeStr : CString)
    (fatPrivate : FatPrivate) (heap : Kheap) (name : Text) (rest : List Text) : Prop where
  mode : getFileMode modeStr = .read
  filesystem : kernel.rootDisk.filesystem = some .fat16Fs
  mounted : kernel.rootDisk.fsPrivate = some fatPrivate
  path : ∃ pathRoot allocated res parsed root part parts disk,
    Store.zalloc machine.allocator kernel.heap 8 (.pathRoot ⟨0, []⟩) = (pathRoot, allocated) ∧
    pparserParsePathRoot machine filename allocated pathRoot = .ok (res, parsed) ∧ ¬ res < 0 ∧
    parsed.lookup pathRoot = some (.pathRoot root) ∧ root.parts = part :: parts ∧
    diskGet root.driveNo = some disk ∧ part.name = name ∧ parts.map PathPart.name = rest ∧
    ∃ descriptor, Store.zalloc machine.allocator parsed 8 (.fatDescriptor ⟨0, 0⟩) = (descriptor, heap) ∧
      descriptor ≠ 0

section Open

variable {machine : Machine} {fatPrivate : FatPrivate} {heap : Kheap} {name : Text} {rest : List Text}
  {items : List FatDirectoryItem}

/-- A walk that returns null makes `fopen` return `0`. -/
theorem fopen_null {kernel : Kernel} {filename modeStr : CString}
    (opens : OpensPath machine kernel filename modeStr fatPrivate heap name rest)
    (null : ReturnsNull (fat16GetDirectoryEntry machine fatPrivate heap name rest)) :
    ∃ kernel', fopen machine kernel filename modeStr = .ok (0, kernel') := by
  obtain ⟨mode, filesystem, mounted, pathRoot, allocated, res, parsed, root, part, parts, disk, allocates,
    parses, positive, record, parts_eq, drive, rfl, rfl, descriptor, descriptor_eq, nonnull⟩ := opens
  obtain ⟨later, null⟩ := null
  have opened : fat16Open machine fatPrivate parsed part.name (parts.map PathPart.name) .read =
      .ok (-eio, later) := by
    unfold fat16Open
    rw [if_neg (not_not.mpr rfl), descriptor_eq]
    dsimp only
    rw [if_neg nonnull, null]
    rfl
  unfold fopen fopenRes
  rw [allocates]
  dsimp only
  rw [parses, ok_bind]
  dsimp only
  rw [if_neg positive, deref_eq pathRootKind record, ok_bind, parts_eq]
  dsimp only
  rw [drive]
  dsimp only
  rw [filesystem, mode]
  dsimp only
  rw [if_neg (by decide), fsPrivate, mounted]
  dsimp only
  rw [ok_bind, opened]
  exact ⟨_, rfl⟩

/-- **Nothing is opened**: the walk returns a null item without a fault, and an `fopen` that makes it
returns `0`. -/
structure NothingOpened (machine : Machine) (fatPrivate : FatPrivate) (heap : Kheap) (name : Text)
    (rest : List Text) : Prop where
  entry : ReturnsNull (fat16GetDirectoryEntry machine fatPrivate heap name rest)
  fopen : ∀ kernel filename modeStr,
    OpensPath machine kernel filename modeStr fatPrivate heap name rest →
    ∃ kernel', fopen machine kernel filename modeStr = .ok (0, kernel')

/-- **A path that leads nowhere opens nothing** exactly if its first component is missing or gets no
record, or if the walk gets to the component that fails and that one is the last or a file. -/
theorem nothing_opened_iff
    (found : heap.lookup fatPrivate.rootDirectory.item = some (.directoryItems items))
    (noNull : heap.lookup 0 = none)
    (unresolved : Unresolved machine fatPrivate (slots machine fatPrivate.rootDirectory.total items)
      name rest) :
    NothingOpened machine fatPrivate heap name rest ↔
      slotNamed (slots machine fatPrivate.rootDirectory.total items) name = none ∨
      ¬ machine.allocator.grants heap.calls 8 = true ∨
      WalksOn machine fatPrivate heap.calls (slots machine fatPrivate.rootDirectory.total items) name
        rest := by
  rw [← entry_null_iff found noNull unresolved]
  exact ⟨fun nothing => nothing.entry, fun null => ⟨null, fun _ _ _ opens => fopen_null opens null⟩⟩

end Open

/-! ### A directory in the root -/

section Small

def pathX : Text := ⟨[88], by decide⟩

/-- `D` is found and loaded, and has no `X`. -/
theorem tree_walk :
    slotNamed rootEntries pathD = some (namedEntry 68 0x10 2) ∧
    ∃ loaded, loadView treeMachine (treePrivate rootEntries) (namedEntry 68 0x10 2) = .ok (some loaded) ∧
      slotNamed (loaded.slots treeMachine) pathX = none := by
  obtain ⟨loaded, load, loads⟩ := @loadView_of_stored treeMachine _ _ _ tree_mounted tree_stored
  refine ⟨by decide, loaded, load, ?_⟩
  rw [LoadedDirectory.slots, loads.slots]
  decide

/-- The last component is missing. -/
theorem nothing_opened_iff_last :
    ∃ heap, NothingOpened treeMachine (treePrivate rootEntries) heap pathD [pathX] := by
  obtain ⟨heap, noNull, items, found, same⟩ := tree_holds
  obtain ⟨named, loaded, load, missing⟩ := tree_walk
  refine ⟨heap, (nothing_opened_iff found noNull ?_).mpr (.inr (.inr ?_))⟩
  · rw [same]
    exact .deeper named (by decide) load (.missing missing)
  · rw [same]
    exact ⟨_, named, rfl, fun _ => ⟨loaded, (loadAt_roomy (fun _ _ => rfl) _).trans load, trivial⟩⟩

/-- The second of three components is missing: the walk dereferences a null item. -/
theorem nothing_opened_fails :
    ∃ heap items, heap.lookup (treePrivate rootEntries).rootDirectory.item = some (.directoryItems items) ∧
      Unresolved treeMachine (treePrivate rootEntries)
        (slots treeMachine (treePrivate rootEntries).rootDirectory.total items) pathD [pathX, pathX] ∧
      fat16GetDirectoryEntry treeMachine (treePrivate rootEntries) heap pathD [pathX, pathX] =
        .error .nullDeref ∧
      ¬ NothingOpened treeMachine (treePrivate rootEntries) heap pathD [pathX, pathX] := by
  obtain ⟨heap, noNull, items, found, same⟩ := tree_holds
  obtain ⟨named, loaded, load, missing⟩ := tree_walk
  have granted : Store.Grants treeMachine.allocator heap 8 := rfl
  have faults : fat16GetDirectoryEntry treeMachine (treePrivate rootEntries) heap pathD [pathX, pathX] =
      .error .nullDeref := by
    obtain ⟨ptr, heap', built, new⟩ := newItem_built granted noNull
      ((builtAt_some_iff fun _ _ => rfl).mpr (itemView_directory (by decide) load))
    rw [entry_turn found (same.symm ▸ named) built new.nonnull]
    obtain ⟨footprint, shows, -⟩ := new.shows
    exact walk_missing shows (new.noNull noNull) missing
  refine ⟨heap, items, found, ?_, faults, ?_⟩
  · rw [same]
    exact .deeper named (by decide) load (.missing missing)
  · rintro ⟨⟨later, null⟩, -⟩
    rw [faults] at null
    cases null

/-- `"0:/D/f"` and `"r"`. -/
def treePath : CString := ⟨⟨[48, 58, 47, 68, 47, 102], by decide⟩, fun _ => 0, by decide⟩

def readMode : CString := ⟨⟨[114], by decide⟩, fun _ => 0, by decide⟩

theorem treePath_parts (heap : Kheap) (pathPart : Ptr) (nonnull : pathPart ≠ 0) :
    ∃ part next later, pparserParsePathParts treeMachine treePath memoryTurns heap 3 pathPart =
      .ok ([part, next], later) ∧ part.name = pathD ∧ next.name = pathF := by
  have granted (heap : Kheap) (size : Nat) : Store.Grants treeMachine.allocator heap size := rfl
  have first : pparserNameLen treePath memoryTurns 3 = some 1 := by decide
  have second : pparserNameLen treePath memoryTurns 5 = some 1 := by decide
  rw [show pparserParsePathParts treeMachine treePath memoryTurns heap 3 pathPart =
    pparserParsePathParts treeMachine treePath (4294967294 + 1 + 1) heap 3 pathPart from rfl,
    pparserParsePathParts, first]
  dsimp only
  rw [Store.zalloc_granted (granted _ _)]
  dsimp only
  rw [if_neg Store.nextPtr_ne_zero, if_neg nonnull, if_neg (by decide), Store.zalloc_granted (granted _ _)]
  dsimp only
  rw [pparserParsePathParts, second]
  dsimp only
  rw [Store.zalloc_granted (granted _ _)]
  dsimp only
  rw [if_neg Store.nextPtr_ne_zero, if_neg Store.nextPtr_ne_zero, if_pos (by decide)]
  exact ⟨_, _, _, rfl, rfl, rfl⟩

theorem treePath_parses : Parses treeMachine treePath pathD [pathF] := by
  intro heap pathRoot nonnull
  have granted : Store.Grants treeMachine.allocator heap 8 := rfl
  have allocates := @Store.zalloc_granted _ treeMachine.allocator heap 8 .pathPart granted
  obtain ⟨part, next, later, parses, name, next_name⟩ :=
    treePath_parts (heap.tick.put (Store.nextPtr treeMachine.allocator heap 8) .pathPart)
      (Store.nextPtr treeMachine.allocator heap 8) Store.nextPtr_ne_zero
  refine ⟨later, part, [next], ?_, (zalloc_spares allocates nofun).trans (parts_spares parses), name,
    congrArg (fun name => [name]) next_name⟩
  unfold pparserParsePathRoot
  rw [if_neg (by decide), show pparserParseDriveNo treePath 0 = .ok (0, 1) from rfl]
  dsimp only
  rw [show validateStartOfPath treePath 1 = .ok 3 by decide]
  dsimp only
  rw [allocates]
  dsimp only
  rw [parses, ok_bind]
  exact if_neg nonnull

end Small

end KernelPlay
