/-
**Runs of the calls of `fs/file.c`.**

`Step` — a call that returns takes the kernel from one state to the next. What a call does to the heap
and the table is said once for each: `fopen_cases` with `fopen_root` and `fopen_refused`, `fclose_cases`,
and `fseek_cases`; `fread` and `fstat` leave the kernel as it is.
-/

import KernelPlay.Fat.Frame
import KernelPlay.File.Table
import KernelPlay.Library.Runs

namespace KernelPlay

open KernelPlay.Library

/-- A call with its arguments and the handle or status it returned. -/
inductive Call
  | fopen (filename modeStr : CString) (fd : Int)
  | fseek (fd offset : Int) (whence : Nat) (res : Int)
  | fread (out : Nat → UInt8) (size nmemb : Nat) (fd res : Int)
  | fstat (fd res : Int)
  | fclose (fd res : Int)

/-- **One call.** -/
def Step (machine : Machine) (kernel : Kernel) (call : Call) (kernel' : Kernel) : Prop :=
  match call with
  | .fopen filename modeStr fd => fopen machine kernel filename modeStr = .ok (fd, kernel')
  | .fseek fd offset whence res => fseek machine kernel fd offset whence = .ok (res, kernel')
  | .fread out size nmemb fd res =>
    (∃ read, fread machine kernel out size nmemb fd = .ok read ∧ read.res = res) ∧ kernel' = kernel
  | .fstat fd res => (∃ stat, fstat machine kernel fd = .ok (res, stat)) ∧ kernel' = kernel
  | .fclose fd res => fclose machine kernel fd = .ok (res, kernel')

/-! ### The parser -/

section Parser

variable {machine : Machine} {pathStr : CString} {heap heap' : Kheap} {pathRoot : Ptr} {status : Int}

/-- Every record is spared. -/
abbrev SparesAll : Kheap → Kheap → Prop := Spares fun _ => True

theorem SparesAll.spares {Spared : Cell → Prop} (spares : SparesAll heap heap') :
    Spares Spared heap heap' :=
  spares.mono fun _ _ => trivial

theorem zalloc_spares {size : Nat} {cell : Cell} {ptr : Ptr}
    (allocates : Store.zalloc machine.allocator heap size cell = (ptr, heap'))
    (plain : ∀ directory, cell ≠ .fatDirectory directory) : SparesAll heap heap' := by
  by_cases granted : Store.Grants machine.allocator heap size
  · rw [Store.zalloc_granted granted] at allocates
    cases allocates
    exact Spares.tick.trans (.new cell Store.nextPtr_ne_zero Store.lookup_nextPtr plain)
  · rw [Store.zalloc_refused granted] at allocates
    cases allocates
    exact .tick

/-- **One turn of the parser**: a name has been added, and it is the last part, or a record for the next one
has been added and the turns go on. -/
theorem parts_ok {turns p : Nat} {pathPart : Ptr} {parts : List PathPart}
    (done : pparserParsePathParts machine pathStr (turns + 1) heap p pathPart = .ok (parts, heap')) :
    ∃ size name named, Store.zalloc machine.allocator heap size .name = (name, named) ∧
      (heap' = named ∨ ∃ next linked later rest,
        Store.zalloc machine.allocator named 8 .pathPart = (next, linked) ∧
          pparserParsePathParts machine pathStr turns linked later next = .ok (rest, heap')) := by
  rw [pparserParsePathParts] at done
  cases len : pparserNameLen pathStr memoryTurns p with
  | none =>
    rw [len] at done
    cases done
  | some nameLen =>
    rw [len] at done
    dsimp only at done
    rcases allocates : Store.zalloc machine.allocator heap (nameLen + 1) .name with ⟨name, named⟩
    rw [allocates] at done
    dsimp only at done
    refine ⟨_, name, named, allocates, ?_⟩
    split_ifs at done
    · cases done
      exact .inl rfl
    · rcases allocates' : Store.zalloc machine.allocator named 8 .pathPart with ⟨next, linked⟩
      rw [allocates'] at done
      obtain ⟨⟨rest, later⟩, parsed, done⟩ := bind_ok.mp done
      cases done
      exact .inr ⟨next, linked, _, rest, rfl, parsed⟩

/-- **The parser that returned** has rejected the path, or has added its parts and written the record it was
given. -/
theorem parseRoot_ok
    (done : pparserParsePathRoot machine pathStr heap pathRoot = .ok (status, heap')) :
    (status < 0 ∧ heap' = heap) ∨ pathRoot ≠ 0 ∧ ∃ first allocated p parts middle root,
      Store.zalloc machine.allocator heap 8 .pathPart = (first, allocated) ∧
        pparserParsePathParts machine pathStr memoryTurns allocated p first = .ok (parts, middle) ∧
        heap' = middle.put pathRoot (.pathRoot root) := by
  cases start : pathStart pathStr with
  | none =>
    obtain ⟨r, negative, rejects⟩ := @parseRoot_rejected machine pathStr heap pathRoot start
    rw [rejects] at done
    cases done
    exact .inl ⟨negative, rfl⟩
  | some found =>
    rw [parseRoot_started start] at done
    obtain ⟨⟨parts, middle⟩, parses, done⟩ := bind_ok.mp done
    dsimp only at done
    split_ifs at done with null
    cases done
    exact .inr ⟨null, _, _, _, parts, middle, _, rfl, parses, rfl⟩

theorem parts_spares :
    ∀ {turns : Nat} {heap heap' : Kheap} {p : Nat} {pathPart : Ptr} {parts : List PathPart},
      pparserParsePathParts machine pathStr turns heap p pathPart = .ok (parts, heap') →
      SparesAll heap heap'
  | 0, _, _, _, _, _, done => by cases done
  | turns + 1, heap, heap', p, pathPart, parts, done => by
      obtain ⟨size, name, named, allocates, last | ⟨next, linked, later, rest, allocates', parsed⟩⟩ :=
        parts_ok done
      · subst last
        exact zalloc_spares allocates nofun
      · have first := zalloc_spares allocates nofun
        exact (first.trans (zalloc_spares allocates' nofun)).trans (parts_spares parsed)

/-- The parser that returned has added records, and written the one it was given if the path was
accepted. -/
theorem parseRoot_cases
    (done : pparserParsePathRoot machine pathStr heap pathRoot = .ok (status, heap')) :
    (status < 0 ∧ heap' = heap) ∨
      pathRoot ≠ 0 ∧ ∃ middle root, SparesAll heap middle ∧ heap' = middle.put pathRoot (.pathRoot root) := by
  rcases parseRoot_ok done with rejected | ⟨nonnull, first, allocated, p, parts, middle, root, part, parses, put⟩
  · exact .inl rejected
  · exact .inr ⟨nonnull, middle, root, (zalloc_spares part nofun).trans (parts_spares parses), put⟩

end Parser

/-! ### `fopen` -/

section Open

variable {machine : Machine} {kernel kernel' : Kernel} {filename modeStr : CString} {fd res : Int}

theorem freeSlot_free {filedescriptors : Fin maxFiledescriptors → Ptr} {slot : Fin maxFiledescriptors}
    (free : freeSlot filedescriptors = some slot) :
    filedescriptors slot = 0 ∧ ∀ before, before < slot → filedescriptors before ≠ 0 := by
  unfold freeSlot at free
  obtain ⟨found, place, inside, at_slot, taken⟩ := List.find?_eq_some_iff_getElem.mp free
  rw [List.getElem_finRange] at at_slot
  subst at_slot
  refine ⟨by simpa using found, fun before below => ?_⟩
  have := taken before.val below
  simpa using this

/-- The parse adds records, and the path root is one of them unless it was refused. -/
theorem parse_spares {pathRoot : Ptr} {allocated parsed : Kheap} {status : Int}
    (allocates : Store.zalloc machine.allocator kernel.heap 8 (.pathRoot ⟨0, []⟩) = (pathRoot, allocated))
    (parses : pparserParsePathRoot machine filename allocated pathRoot = .ok (status, parsed)) :
    SparesAll kernel.heap parsed ∧
      if Store.Grants machine.allocator kernel.heap 8 then
        kernel.heap.lookup pathRoot = none ∧ ∃ root, parsed.lookup pathRoot = some (.pathRoot root)
      else status < 0 ∧ ∀ ptr, parsed.lookup ptr = kernel.heap.lookup ptr := by
  have first := zalloc_spares allocates nofun
  by_cases granted : Store.Grants machine.allocator kernel.heap 8
  · rw [Store.zalloc_granted granted] at allocates
    have fresh : kernel.heap.lookup (Store.nextPtr machine.allocator kernel.heap 8) = none :=
      Store.lookup_nextPtr
    generalize Store.nextPtr machine.allocator kernel.heap 8 = root at *
    cases allocates
    rw [if_pos granted]
    rcases parseRoot_cases parses with ⟨-, rfl⟩ | ⟨nonnull, middle, path, added, rfl⟩
    · exact ⟨first, fresh, _, Store.lookup_put_self⟩
    · refine ⟨(first.trans added).overwrite nonnull fresh nofun, fresh, path, Store.lookup_put_self⟩
  · rw [Store.zalloc_refused granted] at allocates
    cases allocates
    rw [if_neg granted]
    rcases parseRoot_cases parses with ⟨negative, rfl⟩ | ⟨nonnull, -⟩
    · exact ⟨first, negative, fun _ => rfl⟩
    · exact absurd rfl nonnull

/-- What an `fopen` does to a kernel whose heap has the path: it fails and leaves the table alone, or
puts a new descriptor into the first free slot. -/
structure OpenEffect (kernel : Kernel) (res : Int) (kernel' : Kernel) : Prop where
  spares : SparesForeign kernel.heap kernel'.heap
  result : (res < 0 ∧ kernel'.filedescriptors = kernel.filedescriptors) ∨
    ∃ slot desc record, freeSlot kernel.filedescriptors = some slot ∧ res = (slot : Int) + 1 ∧ desc ≠ 0 ∧
      kernel'.filedescriptors = setSlot kernel.filedescriptors slot desc ∧
      kernel'.heap.lookup desc = some (.fileDescriptor record) ∧ record.index = (slot : Int) + 1 ∧
      record.fs = some .fat16Fs

/-- `fopen` once `fat16_open` has returned a descriptor: no slot is free, or the first free one gets a new
record. -/
theorem newDescriptor_ok {fdPrivate : Ptr}
    (done : (do
      let (res, desc, kernel) ← fileNewDescriptor machine kernel
      if res < 0 then return (res, kernel)
      let record ← deref fileDescriptorKind kernel.heap desc
      return (record.index,
        { kernel with
          heap := kernel.heap.put desc (.fileDescriptor
            { record with fs := some .fat16Fs, privateData := fdPrivate, disk := some .rootDisk }) })) =
      (.ok (res, kernel') : Except Fault (Int × Kernel))) :
    (res < 0 ∧ kernel' = kernel) ∨ ∃ slot desc record, freeSlot kernel.filedescriptors = some slot ∧
      res = (slot : Int) + 1 ∧ desc ≠ 0 ∧ kernel.heap.lookup desc = none ∧
      record.index = (slot : Int) + 1 ∧ record.fs = some .fat16Fs ∧
      kernel' = { kernel with
        heap := kernel.heap.tick.put desc (.fileDescriptor record)
        filedescriptors := setSlot kernel.filedescriptors slot desc } := by
  unfold fileNewDescriptor at done
  cases free : freeSlot kernel.filedescriptors with
  | none =>
    rw [free] at done
    cases done
    exact .inl ⟨by decide, rfl⟩
  | some slot =>
    rw [free] at done
    by_cases granted : Store.Grants machine.allocator kernel.heap 16
    · rw [Store.zalloc_granted granted] at done
      dsimp only at done
      have nonnull : Store.nextPtr machine.allocator kernel.heap 16 ≠ 0 := Store.nextPtr_ne_zero
      have fresh : kernel.heap.lookup (Store.nextPtr machine.allocator kernel.heap 16) = none :=
        Store.lookup_nextPtr
      generalize Store.nextPtr machine.allocator kernel.heap 16 = desc at *
      rw [if_neg nonnull, ok_bind] at done
      dsimp only at done
      have record : deref fileDescriptorKind
          (kernel.heap.tick.put desc (.fileDescriptor ⟨(slot : Int) + 1, none, 0, none⟩)) desc =
            .ok ⟨(slot : Int) + 1, none, 0, none⟩ :=
        deref_eq fileDescriptorKind Store.lookup_put_self
      rw [if_neg (by decide), Store.put_put, record, ok_bind] at done
      cases done
      refine .inr ⟨slot, desc, ⟨(slot : Int) + 1, some .fat16Fs, fdPrivate, some .rootDisk⟩, rfl, rfl, nonnull,
        fresh, rfl, rfl, ?_⟩
      dsimp only
      rw [Store.put_put]
    · rw [Store.zalloc_refused granted] at done
      cases done

/-- **The driver is asked, and answers**: the path has a part, the disk a file system, and the mode is
known. -/
def DriverAnswers (machine : Machine) (kernel : Kernel) (modeStr : CString) (pathRoot : Ptr) (parsed : Kheap)
    (answer : Int × Kheap) : Prop :=
  ∃ root part rest disk filesystem fatPrivate,
    deref pathRootKind parsed pathRoot = .ok root ∧ root.parts = part :: rest ∧
    diskGet root.driveNo = some disk ∧ kernel.rootDisk.filesystem = some filesystem ∧
    getFileMode modeStr ≠ .invalid ∧ fsPrivate kernel = .ok fatPrivate ∧
    fat16Open machine fatPrivate parsed part.name (rest.map PathPart.name) (getFileMode modeStr) = .ok answer

/-- An `fopen` that returned: it stopped in front of `fat16_open`, or behind it, or has put a new record
into the first free slot. -/
theorem fopenRes_ok (done : fopenRes machine kernel filename modeStr = .ok (res, kernel')) :
    ∃ pathRoot allocated status parsed,
      Store.zalloc machine.allocator kernel.heap 8 (.pathRoot ⟨0, []⟩) = (pathRoot, allocated) ∧
      pparserParsePathRoot machine filename allocated pathRoot = .ok (status, parsed) ∧
      ((res < 0 ∧ kernel' = { kernel with heap := parsed }) ∨
        ¬ status < 0 ∧ ∃ fdPrivate opened,
          DriverAnswers machine kernel modeStr pathRoot parsed (fdPrivate, opened) ∧
          ((res < 0 ∧ kernel' = { kernel with heap := opened }) ∨
            0 < fdPrivate ∧ ∃ slot desc record, freeSlot kernel.filedescriptors = some slot ∧
              res = (slot : Int) + 1 ∧ desc ≠ 0 ∧ opened.lookup desc = none ∧
              record.index = (slot : Int) + 1 ∧ record.fs = some .fat16Fs ∧ kernel' = { kernel with
                heap := opened.tick.put desc (.fileDescriptor record)
                filedescriptors := setSlot kernel.filedescriptors slot desc })) := by
  unfold fopenRes at done
  rcases allocates : Store.zalloc machine.allocator kernel.heap 8 (.pathRoot ⟨0, []⟩) with
    ⟨pathRoot, allocated⟩
  rw [allocates] at done
  obtain ⟨⟨status, parsed⟩, parses, done⟩ := bind_ok.mp done
  refine ⟨pathRoot, allocated, status, parsed, rfl, parses, ?_⟩
  have stops {r : Int} (negative : r < 0)
      (same : (.ok (r, { kernel with heap := parsed }) : Except Fault (Int × Kernel)) = .ok (res, kernel')) :
      res < 0 ∧ kernel' = { kernel with heap := parsed } := by
    cases same
    exact ⟨negative, rfl⟩
  dsimp only at done
  by_cases failed : status < 0
  · rw [if_pos failed] at done
    exact .inl (stops failed done)
  rw [if_neg failed] at done
  obtain ⟨root, record, done⟩ := bind_ok.mp done
  split at done
  · exact .inl (stops (by decide) done)
  next part rest parts =>
  split at done
  · exact .inl (stops (by decide) done)
  next disk drive =>
  split at done
  · exact .inl (stops (by decide) done)
  next filesystem mounted =>
  split_ifs at done with invalid
  · exact .inl (stops (by decide) done)
  obtain ⟨fatPrivate, volume, done⟩ := bind_ok.mp done
  obtain ⟨⟨fdPrivate, opened⟩, opens, done⟩ := bind_ok.mp done
  refine .inr ⟨failed, fdPrivate, opened, ⟨root, part, rest, disk, filesystem, fatPrivate, record, parts,
    drive, mounted, invalid, volume, opens⟩, ?_⟩
  dsimp only at done
  split_ifs at done with null negative
  · cases done
    exact .inl ⟨by decide, rfl⟩
  · cases done
    exact .inl ⟨negative, rfl⟩
  · rcases newDescriptor_ok done with ⟨negative, rfl⟩ | opened
    · exact .inl ⟨negative, rfl⟩
    · exact .inr ⟨by omega, opened⟩

theorem fopenRes_cases (noNull : kernel.heap.lookup 0 = none)
    (done : fopenRes machine kernel filename modeStr = .ok (res, kernel')) :
    ∃ pathRoot allocated status parsed,
      Store.zalloc machine.allocator kernel.heap 8 (.pathRoot ⟨0, []⟩) = (pathRoot, allocated) ∧
      pparserParsePathRoot machine filename allocated pathRoot = .ok (status, parsed) ∧
      (status < 0 → res < 0 ∧ kernel' = { kernel with heap := parsed }) ∧
      OpenEffect { kernel with heap := parsed } res kernel' := by
  obtain ⟨pathRoot, allocated, status, parsed, allocates, parses, stopped⟩ := fopenRes_ok done
  refine ⟨pathRoot, allocated, status, parsed, allocates, parses, ?_⟩
  rcases stopped with ⟨negative, rfl⟩ | ⟨passed, _, opened, ⟨_, _, _, _, _, _, -, -, -, -, -, -, opens⟩, result⟩
  · exact ⟨fun _ => ⟨negative, rfl⟩, .refl, .inl ⟨negative, rfl⟩⟩
  have spares := fat16Open_spares ((parse_spares allocates parses).1.noNull noNull) opens
  refine ⟨fun failed => absurd failed passed, ?_⟩
  rcases result with ⟨negative, rfl⟩ | ⟨-, slot, desc, record, free, rfl, nonnull, fresh, index, fs, rfl⟩
  · exact ⟨spares, .inl ⟨negative, rfl⟩⟩
  · exact ⟨spares.trans (Spares.tick.trans (.new _ nonnull fresh nofun)),
      .inr ⟨slot, desc, record, free, rfl, nonnull, rfl, Store.lookup_put_self, index, fs⟩⟩

/-- **What `fopen` does**: it fails with `0` and leaves the table alone, or puts a new descriptor into the
first free slot and returns its handle. -/
theorem fopen_cases (noNull : kernel.heap.lookup 0 = none)
    (done : fopen machine kernel filename modeStr = .ok (fd, kernel')) :
    SparesForeign kernel.heap kernel'.heap ∧
      ((fd = 0 ∧ kernel'.filedescriptors = kernel.filedescriptors) ∨
        ∃ slot desc record, freeSlot kernel.filedescriptors = some slot ∧ fd = (slot : Int) + 1 ∧
          desc ≠ 0 ∧ kernel'.filedescriptors = setSlot kernel.filedescriptors slot desc ∧
          kernel'.heap.lookup desc = some (.fileDescriptor record) ∧ record.index = (slot : Int) + 1 ∧
          record.fs = some .fat16Fs) := by
  unfold fopen at done
  obtain ⟨⟨res, last⟩, done, result⟩ := bind_ok.mp done
  cases result
  obtain ⟨_, _, _, _, allocates, parses, -, effect⟩ := fopenRes_cases noNull done
  refine ⟨(parse_spares allocates parses).1.spares.trans effect.spares, ?_⟩
  rcases effect.result with ⟨negative, same⟩ | ⟨slot, desc, record, free, rfl, rest⟩
  · exact .inl ⟨if_pos negative, same⟩
  · exact .inr ⟨slot, desc, record, free, if_neg (by omega), rest⟩

/-- **An `fopen` that gets its path root leaves it behind**, whatever it returns. -/
theorem fopen_root (noNull : kernel.heap.lookup 0 = none)
    (granted : Store.Grants machine.allocator kernel.heap 8)
    (done : fopen machine kernel filename modeStr = .ok (fd, kernel')) :
    ∃ ptr root, kernel.heap.lookup ptr = none ∧ kernel'.heap.lookup ptr = some (.pathRoot root) := by
  unfold fopen at done
  obtain ⟨⟨res, last⟩, done, result⟩ := bind_ok.mp done
  cases result
  obtain ⟨pathRoot, _, _, _, allocates, parses, -, effect⟩ := fopenRes_cases noNull done
  have parsed := (parse_spares allocates parses).2
  rw [if_pos granted] at parsed
  obtain ⟨fresh, root, record⟩ := parsed
  exact ⟨pathRoot, root, fresh, effect.spares.kept pathRoot _ trivial record⟩

/-- An `fopen` whose path root is refused returns `0` or faults, and changes nothing. -/
theorem fopen_refused (noNull : kernel.heap.lookup 0 = none)
    (refused : ¬ Store.Grants machine.allocator kernel.heap 8)
    (done : fopen machine kernel filename modeStr = .ok (fd, kernel')) :
    kernel'.filedescriptors = kernel.filedescriptors ∧
      ∀ ptr, kernel'.heap.lookup ptr = kernel.heap.lookup ptr := by
  unfold fopen at done
  obtain ⟨⟨res, last⟩, done, result⟩ := bind_ok.mp done
  cases result
  obtain ⟨_, _, _, _, allocates, parses, fails, -⟩ := fopenRes_cases noNull done
  have parsed := (parse_spares allocates parses).2
  rw [if_neg refused] at parsed
  obtain ⟨-, rfl⟩ := fails parsed.1
  exact ⟨rfl, parsed.2⟩

end Open

/-! ### The other calls -/

section Others

variable {machine : Machine} {kernel kernel' : Kernel} {fd offset res : Int} {whence : Nat}

/-- An `fseek` that returned: the handle is not open, or its driver sought. -/
theorem fseek_ok (done : fseek machine kernel fd offset whence = .ok (res, kernel')) :
    (fileGetDescriptor machine kernel fd = 0 ∧ kernel' = kernel) ∨
      ∃ record status heap,
        kernel.heap.lookup (fileGetDescriptor machine kernel fd) = some (.fileDescriptor record) ∧
        fat16Seek kernel.heap record.privateData offset whence = .ok (status, heap) ∧
        kernel' = { kernel with heap := heap } := by
  unfold fseek at done
  dsimp only at done
  split_ifs at done with null
  · cases done
    exact .inl ⟨null, rfl⟩
  obtain ⟨record, found, done⟩ := bind_ok.mp done
  obtain ⟨_, -, done⟩ := bind_ok.mp done
  obtain ⟨⟨status, heap⟩, seeks, done⟩ := bind_ok.mp done
  cases done
  exact .inr ⟨record, status, heap, deref_ok_iff.mp found, seeks, rfl⟩

theorem fseek_cases (noNull : kernel.heap.lookup 0 = none)
    (done : fseek machine kernel fd offset whence = .ok (res, kernel')) :
    (fileGetDescriptor machine kernel fd = 0 ∧ kernel' = kernel) ∨
      (∃ record, kernel.heap.lookup (fileGetDescriptor machine kernel fd) = some (.fileDescriptor record)) ∧
        kernel'.filedescriptors = kernel.filedescriptors ∧ SparesForeign kernel.heap kernel'.heap := by
  rcases fseek_ok done with closed | ⟨record, status, heap, found, seeks, rfl⟩
  · exact .inl closed
  · exact .inr ⟨⟨record, found⟩, rfl, fat16Seek_spares noNull seeks⟩

/-- An `fclose` that returned: the handle is not open, or its driver closed and the descriptor is freed. -/
theorem fclose_ok (done : fclose machine kernel fd = .ok (res, kernel')) :
    (fileGetDescriptor machine kernel fd = 0 ∧ res = -eio ∧ kernel' = kernel) ∨
      fileGetDescriptor machine kernel fd ≠ 0 ∧ res = ok ∧ ∃ record middle,
        kernel.heap.lookup (fileGetDescriptor machine kernel fd) = some (.fileDescriptor record) ∧
        fat16Close kernel.heap record.privateData = .ok (ok, middle) ∧
        kernel' = { kernel with
          heap := middle.erase (fileGetDescriptor machine kernel fd)
          filedescriptors := setSlot kernel.filedescriptors (record.index - 1) 0 } := by
  unfold fclose at done
  dsimp only at done
  by_cases null : fileGetDescriptor machine kernel fd = 0
  · rw [if_pos null] at done
    cases done
    exact .inl ⟨null, rfl, rfl⟩
  rw [if_neg null] at done
  obtain ⟨record, found, done⟩ := bind_ok.mp done
  rw [deref_ok_iff] at found
  obtain ⟨_, -, done⟩ := bind_ok.mp done
  obtain ⟨⟨status, middle⟩, closes, done⟩ := bind_ok.mp done
  obtain ⟨rfl, spares⟩ := fat16Close_spares closes
  dsimp only at done
  rw [if_neg (not_not.mpr rfl)] at done
  obtain ⟨freed, frees, done⟩ := bind_ok.mp done
  cases done
  unfold fileDescriptorFree at frees
  obtain ⟨record', found', frees⟩ := bind_ok.mp frees
  obtain ⟨heap, erases, frees⟩ := bind_ok.mp frees
  cases frees
  have same := (deref_ok_iff.mp found').symm.trans (spares.kept _ (.fileDescriptor record) trivial found)
  cases same
  obtain ⟨-, rfl⟩ := kheapFree_ok erases
  exact .inr ⟨null, rfl, record, middle, found, closes, rfl⟩

/-- **What `fclose` does**: nothing for a handle that is not open, else it closes the file and frees the
descriptor and its slot. -/
theorem fclose_cases (done : fclose machine kernel fd = .ok (res, kernel')) :
    (fileGetDescriptor machine kernel fd = 0 ∧ res = -eio ∧ kernel' = kernel) ∨
      fileGetDescriptor machine kernel fd ≠ 0 ∧ res = ok ∧ ∃ record middle,
        kernel.heap.lookup (fileGetDescriptor machine kernel fd) = some (.fileDescriptor record) ∧
        kernel'.filedescriptors = setSlot kernel.filedescriptors (record.index - 1) 0 ∧
        SparesForeign kernel.heap middle ∧
        kernel'.heap = middle.erase (fileGetDescriptor machine kernel fd) := by
  rcases fclose_ok done with closed | ⟨opened, rfl, record, middle, found, closes, rfl⟩
  · exact .inl closed
  · exact .inr ⟨opened, rfl, record, middle, found, rfl, (fat16Close_spares closes).2, rfl⟩

end Others

end KernelPlay
