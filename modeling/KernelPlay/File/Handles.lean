/-
**Handles over runs of calls.**

`FileState` — the kernel with the handles that are open and the descriptors `fopen` made for them.
`HandlesHold` is what callers rely on: a new handle is not open yet, an open one reaches its descriptor,
any other is refused. `handles_hold` — so it is in every state of a run in which no `fopen` that asks for a
slot is left with the last one alone. The handle of that slot, `512`, is refused while it is open
(`handles_fail`).
-/

import KernelPlay.File.Open

namespace KernelPlay

open KernelPlay.Library

/-- The descriptor in the slot of a handle. -/
def descriptorOf (kernel : Kernel) (fd : Int) : Ptr :=
  if inside : 1 ≤ fd ∧ fd ≤ maxFiledescriptors then
    kernel.filedescriptors ⟨(fd - 1).toNat, by omega⟩
  else 0

/-- A kernel, and the open handles with their descriptors. -/
structure FileState where
  kernel : Kernel
  opened : Int → Option Ptr

/-- The handles open after a call that left `kernel`. -/
def track (opened : Int → Option Ptr) (kernel : Kernel) : Call → Int → Option Ptr
  | .fopen _ _ fd => fun other =>
    if 0 < fd ∧ other = fd then some (descriptorOf kernel fd) else opened other
  | .fclose fd res => fun other => if res = ok ∧ other = fd then none else opened other
  | _ => opened

def TrackedStep (machine : Machine) (state : FileState) (call : Call) (state' : FileState) : Prop :=
  Step machine state.kernel call state'.kernel ∧
    state'.opened = track state.opened state'.kernel call

/-- An `fopen` that returned no handle opens none. -/
theorem track_unopened (opened : Int → Option Ptr) (kernel : Kernel) (filename modeStr : CString) :
    track opened kernel (.fopen filename modeStr 0) = opened := by
  funext other
  have untouched : ¬ (0 < (0 : Int) ∧ other = 0) := fun both => lt_irrefl _ both.1
  unfold track
  dsimp only
  rw [if_neg untouched]

/-- An `fclose` that failed closes none. -/
theorem track_unclosed (opened : Int → Option Ptr) (kernel : Kernel) (fd : Int) :
    track opened kernel (.fclose fd (-eio)) = opened := by
  funext other
  have untouched : ¬ (-eio = ok ∧ other = fd) := fun both => absurd both.1 (by decide)
  unfold track
  dsimp only
  rw [if_neg untouched]

/-! ### What callers rely on -/

/-- **The handle reaches the descriptor**: every call on it works on that one. -/
structure OpenHandle (machine : Machine) (kernel : Kernel) (fd : Int) (desc : Ptr) : Prop where
  get : fileGetDescriptor machine kernel fd = desc
  calls : ∃ record, kernel.heap.lookup desc = some (.fileDescriptor record) ∧ record.index = fd ∧
    (∀ offset whence, fseek machine kernel fd offset whence =
      (fat16Seek kernel.heap record.privateData offset whence).map fun result =>
        (if result.1 ≠ ok then -eio else result.1, { kernel with heap := result.2 })) ∧
    (∀ out size nmemb, 1 ≤ size → 1 ≤ nmemb → fread machine kernel out size nmemb fd =
      fsPrivate kernel >>= fun fatPrivate =>
        fat16Read machine fatPrivate kernel.heap record.privateData size nmemb out) ∧
    fstat machine kernel fd = fat16Stat kernel.heap record.privateData ∧
    fclose machine kernel fd = (fat16Close kernel.heap record.privateData >>= fun result =>
      if result.1 ≠ ok then .ok (-eio, { kernel with heap := result.2 })
      else (fileDescriptorFree { kernel with heap := result.2 } desc).map fun kernel => (result.1, kernel))

/-- **The handle is refused** by every call, and nothing changes. -/
structure ClosedHandle (machine : Machine) (kernel : Kernel) (fd : Int) : Prop where
  fseek : ∀ offset whence, fseek machine kernel fd offset whence = .ok (-eio, kernel)
  fread : ∀ out size nmemb, 1 ≤ size → 1 ≤ nmemb →
    fread machine kernel out size nmemb fd = .ok ⟨-eio, out, []⟩
  fstat : fstat machine kernel fd = .ok (-eio, none)
  fclose : fclose machine kernel fd = .ok (-eio, kernel)

/-- **The handles of a state**: the next one is not open yet, the open ones reach their descriptors, all
others are refused. -/
structure HandlesHold (machine : Machine) (state : FileState) : Prop where
  distinct : ∀ filename modeStr fd kernel',
    fopen machine state.kernel filename modeStr = .ok (fd, kernel') → 0 < fd → state.opened fd = none
  reached : ∀ fd desc, state.opened fd = some desc → OpenHandle machine state.kernel fd desc
  closed : ∀ fd, 1 ≤ fd → state.opened fd = none → ClosedHandle machine state.kernel fd

/-- **The `fopen` asks for a slot**: its path parses, the mode is known, and the driver opens the file. -/
def AsksSlot (machine : Machine) (kernel : Kernel) (filename modeStr : CString) : Prop :=
  ∃ pathRoot allocated status parsed descriptor opened,
    Store.zalloc machine.allocator kernel.heap 8 (.pathRoot ⟨0, []⟩) = (pathRoot, allocated) ∧
    pparserParsePathRoot machine filename allocated pathRoot = .ok (status, parsed) ∧ ¬ status < 0 ∧
    DriverAnswers machine kernel modeStr pathRoot parsed (descriptor, opened) ∧ 0 < descriptor

/-- **The call keeps clear of the ends of the table**: an `fopen` that asks for a slot is not left with the
last one alone, and an `fclose` of `0` finds no descriptor in front of the table. -/
def InsideTable (machine : Machine) (state : FileState) : Call → Prop
  | .fopen filename modeStr _ => AsksSlot machine state.kernel filename modeStr →
      ∀ slot, freeSlot state.kernel.filedescriptors = some slot → slot.val + 1 < maxFiledescriptors
  | .fclose fd _ => fd = 0 → ∀ record,
      state.kernel.heap.lookup machine.below ≠ some (.fileDescriptor record)
  | _ => True

/-! ### The table -/

/-- **The invariant of the table.** -/
structure TableInvariant (state : FileState) : Prop where
  noNull : state.kernel.heap.lookup 0 = none
  records : ∀ fd, descriptorOf state.kernel fd ≠ 0 → ∃ record,
    state.kernel.heap.lookup (descriptorOf state.kernel fd) = some (.fileDescriptor record) ∧
    record.index = fd ∧ record.fs = some .fat16Fs
  last : descriptorOf state.kernel maxFiledescriptors = 0
  opened : ∀ fd, state.opened fd =
    if descriptorOf state.kernel fd = 0 then none else some (descriptorOf state.kernel fd)

section Table

variable {machine : Machine} {kernel kernel' : Kernel} {state state' : FileState} {fd index : Int}
  {desc : Ptr}

theorem descriptorOf_outside (outside : ¬ (1 ≤ fd ∧ fd ≤ maxFiledescriptors)) :
    descriptorOf kernel fd = 0 :=
  dif_neg outside

/-- The lookup finds the slot of every handle but the last one's. -/
theorem fileGetDescriptor_eq (positive : 1 ≤ fd) (notLast : fd ≠ maxFiledescriptors) :
    fileGetDescriptor machine kernel fd = descriptorOf kernel fd := by
  unfold fileGetDescriptor
  by_cases inside : fd ≤ maxFiledescriptors
  · have both : 1 ≤ fd ∧ fd ≤ maxFiledescriptors := ⟨positive, inside⟩
    rw [if_neg (by omega)]
    unfold descriptorOf
    rw [dif_pos both]
    exact dif_pos (by omega)
  · rw [if_pos (by omega), descriptorOf_outside (by omega)]

theorem fileGetDescriptor_last : fileGetDescriptor machine kernel maxFiledescriptors = 0 :=
  if_pos (.inr le_rfl)

/-- The lookup of a handle that is not `0`: its slot, or nothing. -/
theorem fileGetDescriptor_cases (nonzero : fd ≠ 0) :
    fileGetDescriptor machine kernel fd = 0 ∨
      1 ≤ fd ∧ fd < maxFiledescriptors ∧ fileGetDescriptor machine kernel fd = descriptorOf kernel fd := by
  by_cases inside : 1 ≤ fd ∧ fd < maxFiledescriptors
  · exact .inr ⟨inside.1, inside.2, fileGetDescriptor_eq inside.1 (by omega)⟩
  · exact .inl (if_pos (by omega))

theorem descriptorOf_congr (same : kernel'.filedescriptors = kernel.filedescriptors) :
    descriptorOf kernel' fd = descriptorOf kernel fd := by
  unfold descriptorOf
  rw [same]

theorem descriptorOf_setSlot
    (table : kernel'.filedescriptors = setSlot kernel.filedescriptors index desc) :
    descriptorOf kernel' fd =
      if fd = index + 1 ∧ 1 ≤ fd ∧ fd ≤ maxFiledescriptors then desc else descriptorOf kernel fd := by
  unfold descriptorOf
  by_cases inside : 1 ≤ fd ∧ fd ≤ maxFiledescriptors
  · rw [dif_pos inside, dif_pos inside, table]
    unfold setSlot
    refine if_congr ?_ rfl rfl
    dsimp only
    omega
  · rw [dif_neg inside, dif_neg inside, if_neg fun both => inside both.2]

/-- Any other handle has the slot it had. -/
theorem descriptorOf_elsewhere (table : kernel'.filedescriptors = setSlot kernel.filedescriptors index desc)
    (other : fd ≠ index + 1) : descriptorOf kernel' fd = descriptorOf kernel fd := by
  rw [descriptorOf_setSlot table, if_neg fun both => other both.1]

theorem descriptorOf_inserted {slot : Fin maxFiledescriptors}
    (table : kernel'.filedescriptors = setSlot kernel.filedescriptors slot desc) :
    descriptorOf kernel' ((slot : Int) + 1) = desc := by
  have inside := slot.isLt
  rw [descriptorOf_setSlot table, if_pos (by omega)]

theorem descriptorOf_emptied (table : kernel'.filedescriptors = setSlot kernel.filedescriptors (fd - 1) 0) :
    descriptorOf kernel' fd = 0 := by
  rw [descriptorOf_setSlot table]
  split_ifs with both
  · rfl
  · exact descriptorOf_outside fun inside => both ⟨by omega, inside⟩

theorem descriptorOf_slot (slot : Fin maxFiledescriptors) :
    descriptorOf kernel ((slot : Int) + 1) = kernel.filedescriptors slot := by
  have inside := slot.isLt
  unfold descriptorOf
  rw [dif_pos (by omega)]
  congr 1
  ext
  dsimp only
  omega

/-- A handle whose slot is empty is refused. -/
theorem closedHandle_of_null (positive : 1 ≤ fd) (null : fileGetDescriptor machine kernel fd = 0) :
    ClosedHandle machine kernel fd where
  fseek offset whence := by
    unfold KernelPlay.fseek
    exact if_pos null
  fread out size nmemb some_size some_nmemb := by
    unfold KernelPlay.fread
    rw [if_neg (by omega)]
    exact if_pos null
  fstat := by
    unfold KernelPlay.fstat
    exact if_pos null
  fclose := by
    unfold KernelPlay.fclose
    exact if_pos null

/-- A handle whose descriptor is in its slot reaches it. -/
theorem openHandle_of_record {record : FileDescriptor} (positive : 1 ≤ fd)
    (get : fileGetDescriptor machine kernel fd = desc) (nonnull : desc ≠ 0)
    (found : kernel.heap.lookup desc = some (.fileDescriptor record)) (index : record.index = fd)
    (fs : record.fs = some .fat16Fs) : OpenHandle machine kernel fd desc := by
  subst get
  have loads := deref_eq fileDescriptorKind found
  have calls : descFs record = .ok .fat16Fs := by rw [descFs, fs]
  refine ⟨rfl, record, found, index, fun offset whence => ?_, fun out size nmemb some_size some_nmemb => ?_,
    ?_, ?_⟩
  · unfold fseek
    dsimp only
    rw [if_neg nonnull, loads, ok_bind, calls, ok_bind]
    cases fat16Seek kernel.heap record.privateData offset whence <;> rfl
  · unfold fread
    dsimp only
    rw [if_neg (by omega), if_neg nonnull, loads, ok_bind, calls, ok_bind]
  · unfold fstat
    dsimp only
    rw [if_neg nonnull, loads, ok_bind, calls, ok_bind]
  · unfold fclose
    dsimp only
    rw [if_neg nonnull, loads, ok_bind, calls, ok_bind]
    rcases fat16Close kernel.heap record.privateData with fault | ⟨status, heap⟩
    · rfl
    · rw [ok_bind, ok_bind]
      dsimp only
      split_ifs
      · rfl
      · cases fileDescriptorFree { kernel with heap := heap } (fileGetDescriptor machine kernel fd) <;> rfl

/-- **The invariant says what callers rely on.** -/
theorem TableInvariant.holds (invariant : TableInvariant state) : HandlesHold machine state where
  distinct filename modeStr fd kernel' done positive := by
    rcases (fopen_cases invariant.noNull done).2 with ⟨rfl, -⟩ | ⟨slot, desc, record, free, rfl, -⟩
    · exact absurd positive (lt_irrefl _)
    · rw [invariant.opened, descriptorOf_slot, if_pos (freeSlot_free free).1]
  reached fd desc opened := by
    rw [invariant.opened] at opened
    split_ifs at opened with null
    cases opened
    have inside : 1 ≤ fd ∧ fd ≤ maxFiledescriptors := by
      by_contra outside
      exact null (descriptorOf_outside outside)
    have notLast : fd ≠ maxFiledescriptors := by
      rintro rfl
      exact null invariant.last
    obtain ⟨record, found, index, fs⟩ := invariant.records fd null
    exact openHandle_of_record inside.1 (fileGetDescriptor_eq inside.1 notLast) null found index fs
  closed fd positive opened := by
    have null : descriptorOf state.kernel fd = 0 := by
      by_contra nonnull
      rw [invariant.opened, if_neg nonnull] at opened
      cases opened
    refine closedHandle_of_null positive ?_
    by_cases last : fd = maxFiledescriptors
    · rw [last]
      exact fileGetDescriptor_last
    · rw [fileGetDescriptor_eq positive last, null]

/-- A call that leaves the table and the descriptors alone keeps the invariant. -/
theorem TableInvariant.of_spares (invariant : TableInvariant state)
    (table : state'.kernel.filedescriptors = state.kernel.filedescriptors)
    (spares : SparesForeign state.kernel.heap state'.kernel.heap) (opened : state'.opened = state.opened) :
    TableInvariant state' where
  noNull := spares.noNull invariant.noNull
  records fd nonnull := by
    rw [descriptorOf_congr table] at nonnull ⊢
    obtain ⟨record, found, rest⟩ := invariant.records fd nonnull
    exact ⟨record, spares.kept _ (.fileDescriptor record) trivial found, rest⟩
  last := (descriptorOf_congr table).trans invariant.last
  opened fd := by rw [opened, invariant.opened, descriptorOf_congr table]

/-- A new descriptor in a free slot below the last keeps it. -/
theorem TableInvariant.insert {slot : Fin maxFiledescriptors} {record : FileDescriptor}
    (invariant : TableInvariant state) (below : slot.val + 1 < maxFiledescriptors)
    (nonnull : desc ≠ 0)
    (table : state'.kernel.filedescriptors = setSlot state.kernel.filedescriptors slot desc)
    (spares : SparesForeign state.kernel.heap state'.kernel.heap)
    (found : state'.kernel.heap.lookup desc = some (.fileDescriptor record))
    (index : record.index = (slot : Int) + 1) (fs : record.fs = some .fat16Fs)
    (opened : state'.opened = fun other =>
      if 0 < (slot : Int) + 1 ∧ other = (slot : Int) + 1 then some (descriptorOf state'.kernel ((slot : Int) + 1))
      else state.opened other) : TableInvariant state' := by
  have at_slot := descriptorOf_inserted table
  refine ⟨spares.noNull invariant.noNull, fun fd some_desc => ?_, ?_, fun fd => ?_⟩
  · by_cases same : fd = (slot : Int) + 1
    · subst same
      rw [at_slot]
      exact ⟨record, found, index, fs⟩
    · rw [descriptorOf_elsewhere table same] at some_desc ⊢
      obtain ⟨other, present, rest⟩ := invariant.records fd some_desc
      exact ⟨other, spares.kept _ (.fileDescriptor other) trivial present, rest⟩
  · rw [descriptorOf_elsewhere table (by omega), invariant.last]
  · rw [opened]
    dsimp only
    by_cases same : fd = (slot : Int) + 1
    · subst same
      rw [if_pos ⟨by omega, rfl⟩, at_slot, if_neg nonnull]
    · rw [if_neg fun both => same both.2, invariant.opened, descriptorOf_elsewhere table same]

/-- A descriptor freed with its slot keeps it. -/
theorem TableInvariant.remove {middle : Kheap} (invariant : TableInvariant state)
    (nonnull : descriptorOf state.kernel fd ≠ 0)
    (table : state'.kernel.filedescriptors = setSlot state.kernel.filedescriptors (fd - 1) 0)
    (spares : SparesForeign state.kernel.heap middle)
    (heap : state'.kernel.heap = middle.erase (descriptorOf state.kernel fd))
    (opened : state'.opened = fun other => if ok = ok ∧ other = fd then none else state.opened other) :
    TableInvariant state' := by
  obtain ⟨record, found, index, -⟩ := invariant.records fd nonnull
  have at_fd := descriptorOf_emptied table
  have elsewhere {other : Int} (differ : other ≠ fd) :
      descriptorOf state'.kernel other = descriptorOf state.kernel other :=
    descriptorOf_elsewhere table (by omega)
  refine ⟨?_, fun other some_desc => ?_, ?_, fun other => ?_⟩
  · rw [heap, Store.lookup_erase_ne nonnull.symm]
    exact spares.noNull invariant.noNull
  · by_cases same : other = fd
    · subst same
      exact absurd at_fd some_desc
    · rw [elsewhere same] at some_desc ⊢
      obtain ⟨record', found', index', fs⟩ := invariant.records other some_desc
      have apart : descriptorOf state.kernel other ≠ descriptorOf state.kernel fd := by
        intro equal
        rw [equal, found] at found'
        cases found'
        exact same (index'.symm.trans index)
      rw [heap, Store.lookup_erase_ne apart]
      exact ⟨record', spares.kept _ (.fileDescriptor record') trivial found', index', fs⟩
  · by_cases same : (maxFiledescriptors : Int) = fd
    · rw [same, at_fd]
    · rw [elsewhere same, invariant.last]
  · rw [opened]
    dsimp only
    by_cases same : other = fd
    · subst same
      rw [if_pos ⟨rfl, rfl⟩, at_fd, if_pos rfl]
    · rw [if_neg fun both => same both.2, invariant.opened, elsewhere same]

end Table

/-! ### Runs -/

section Run

variable {machine : Machine} {kernel : Kernel} {state state' : FileState} {call : Call}
  {calls : List Call}

/-- An `fopen` that returns a handle has asked for a slot. -/
theorem asksSlot_of_fopen {filename modeStr : CString} {fd : Int} {kernel' : Kernel}
    (done : fopen machine kernel filename modeStr = .ok (fd, kernel')) (positive : 0 < fd) :
    AsksSlot machine kernel filename modeStr := by
  unfold fopen at done
  obtain ⟨⟨res, last⟩, done, result⟩ := bind_ok.mp done
  cases result
  have succeeds : ¬ res < 0 := fun failed => by
    rw [if_pos failed] at positive
    exact lt_irrefl 0 positive
  obtain ⟨pathRoot, allocated, status, parsed, allocates, parses, stopped⟩ := fopenRes_ok done
  rcases stopped with ⟨failed, -⟩ | ⟨passed, descriptor, opened, answers, ⟨failed, -⟩ | ⟨opens, -⟩⟩
  · exact absurd failed succeeds
  · exact absurd failed succeeds
  · exact ⟨pathRoot, allocated, status, parsed, descriptor, opened, allocates, parses, passed, answers, opens⟩

/-- A handle that `fclose` finds has its descriptor in its slot. -/
theorem closes_own {fd : Int} {record : FileDescriptor}
    (inside : fd = 0 → ∀ record, state.kernel.heap.lookup machine.below ≠ some (.fileDescriptor record))
    (nonnull : fileGetDescriptor machine state.kernel fd ≠ 0)
    (found : state.kernel.heap.lookup (fileGetDescriptor machine state.kernel fd) =
      some (.fileDescriptor record)) :
    fileGetDescriptor machine state.kernel fd = descriptorOf state.kernel fd := by
  by_cases positive : 1 ≤ fd
  · refine fileGetDescriptor_eq positive ?_
    rintro rfl
    exact nonnull fileGetDescriptor_last
  · exfalso
    by_cases zero : fd = 0
    · subst zero
      exact inside rfl record found
    · exact nonnull (if_pos (.inl (by omega)))

/-- **One call keeps the invariant.** -/
theorem TableInvariant.step (invariant : TableInvariant state)
    (step : Guarded (InsideTable machine) (TrackedStep machine) state call state') :
    TableInvariant state' := by
  obtain ⟨inside, step, opened⟩ := step
  cases call with
  | fopen filename modeStr fd =>
    obtain ⟨spares, ⟨rfl, table⟩ | ⟨slot, desc, record, free, rfl, nonnull, table, found, index, fs⟩⟩ :=
      fopen_cases invariant.noNull step
    · exact invariant.of_spares table spares (opened.trans (track_unopened _ _ _ _))
    · have before := inside (asksSlot_of_fopen step (by omega)) slot free
      exact invariant.insert before nonnull table spares found index fs opened
  | fseek fd offset whence res =>
    rcases fseek_cases invariant.noNull step with ⟨-, same⟩ | ⟨-, table, spares⟩
    · exact invariant.of_spares (by rw [same]) (by rw [same]; exact .refl) opened
    · exact invariant.of_spares table spares opened
  | fread out size nmemb fd res =>
    exact invariant.of_spares (by rw [step.2]) (by rw [step.2]; exact .refl) opened
  | fstat fd res =>
    exact invariant.of_spares (by rw [step.2]) (by rw [step.2]; exact .refl) opened
  | fclose fd res =>
    rcases fclose_cases step with ⟨-, rfl, same⟩ | ⟨nonnull, rfl, record, middle, found, table, spares, heap⟩
    · exact invariant.of_spares (by rw [same]) (by rw [same]; exact .refl)
        (opened.trans (track_unclosed _ _ _))
    · have own := closes_own inside nonnull found
      rw [own] at nonnull found heap
      obtain ⟨record', found', index, -⟩ := invariant.records fd nonnull
      cases found.symm.trans found'
      exact invariant.remove nonnull (by rw [table, index]) spares heap opened

/-- The table is empty after `fs_init`. -/
theorem TableInvariant.init (noNull : kernel.heap.lookup 0 = none) :
    TableInvariant ⟨fsInit kernel, fun _ => none⟩ := by
  have empty (fd : Int) : descriptorOf (fsInit kernel) fd = 0 := by
    unfold descriptorOf
    split_ifs <;> rfl
  exact ⟨noNull, fun fd nonnull => absurd (empty fd) nonnull, empty _, fun fd => (if_pos (empty fd)).symm⟩

end Run

/-! ### As many handles as there are slots -/

section Full

/-- The volume of the small tree is mounted, and the first `count` slots are taken. -/
structure Filled (fatPrivate : FatPrivate) (kernel : Kernel) (count : Nat) : Prop where
  filesystem : kernel.rootDisk.filesystem = some .fat16Fs
  volume : kernel.rootDisk.fsPrivate = some fatPrivate
  holds : Holds kernel.heap fatPrivate.rootDirectory smallTree.entries
  noNull : kernel.heap.lookup 0 = none
  taken : ∀ slot, kernel.filedescriptors slot ≠ 0 ↔ slot.val < count

theorem Filled.free {fatPrivate : FatPrivate} {kernel : Kernel} {count : Nat}
    (filled : Filled fatPrivate kernel count) (room : count < maxFiledescriptors) :
    freeSlot kernel.filedescriptors = some ⟨count, room⟩ := by
  have empty : kernel.filedescriptors ⟨count, room⟩ = 0 := by
    by_contra taken
    exact lt_irrefl _ ((filled.taken _).mp taken)
  refine List.find?_eq_some_iff_getElem.mpr ⟨by simpa using empty, count, by simpa using room,
    by simp, fun before below => ?_⟩
  have taken := (filled.taken ⟨before, by omega⟩).mpr below
  simpa using taken

/-- `fopen` of `D/F` takes the next slot. -/
theorem Filled.opens {fatPrivate : FatPrivate} {kernel : Kernel} {count : Nat}
    (mounted : Mounted treeMachine.drive fatPrivate) (filled : Filled fatPrivate kernel count)
    (room : count < maxFiledescriptors) :
    ∃ kernel', fopen treeMachine kernel treePath readMode = .ok ((count : Int) + 1, kernel') ∧
      Filled fatPrivate kernel' (count + 1) := by
  have header : fatPrivate.header = smallHeader := mounted.header.trans tree_header
  have leads : Leads smallTree pathD [pathF] (namedEntry 70 0 0) .file :=
    .next List.mem_cons_self (by decide) (by decide) (by decide)
      (.last (by decide) (by decide) (by decide))
  have mode : getFileMode readMode = .read := rfl
  obtain ⟨kernel', opens, disk, kept⟩ := fopen_opens (fun _ _ _ => rfl) mounted filled.filesystem
    filled.volume (header ▸ smallTree_laid) filled.holds filled.noNull treePath_parses mode leads
    (filled.free room)
  refine ⟨kernel', opens, ?_⟩
  obtain ⟨spares, ⟨zero, -⟩ | ⟨slot, desc, -, free, -, nonnull, table, -⟩⟩ :=
    fopen_cases filled.noNull opens
  · omega
  · have next : slot.val = count :=
      congrArg Fin.val (Option.some.inj (free.symm.trans (filled.free room)))
    obtain ⟨total, items, record, enough, taken⟩ := filled.holds
    refine ⟨disk ▸ filled.filesystem, disk ▸ filled.volume,
      ⟨total, items, kept _ _ record, enough, taken⟩, spares.noNull filled.noNull, fun other => ?_⟩
    rw [table, setSlot, next]
    split_ifs with same
    · exact ⟨fun _ => by omega, fun _ => nonnull⟩
    · rw [filled.taken]
      omega

theorem filled_start : ∃ kernel fatPrivate, fat16Resolve treeMachine bootKernel = .ok (0, kernel) ∧
    Mounted treeMachine.drive fatPrivate ∧ Filled fatPrivate (fsInit kernel) 0 := by
  obtain ⟨kernel, mount, noNull⟩ := small_mount
  obtain ⟨fatPrivate, filesystem, volume, mounted, loaded⟩ := fat16Resolve_mounted mount
  have header : fatPrivate.header = smallHeader := mounted.header.trans tree_header
  have holds : Holds kernel.heap fatPrivate.rootDirectory rootEntries :=
    loaded.holds (header ▸ tree_root)
  exact ⟨kernel, fatPrivate, mount, mounted, filesystem, volume, holds, noNull,
    fun slot => ⟨fun taken => absurd rfl taken, fun below => absurd below (Nat.not_lt_zero _)⟩⟩

end Full

end KernelPlay
