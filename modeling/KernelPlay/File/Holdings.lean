/-
**What the open handles hold.**

`Holding` — the records behind an open handle. `Holdings` is the invariant of the table: every open
handle has its descriptors, its item and, for a file, its copy of the entry; no two handles share one of
these; every descriptor in the heap is in its slot. `HandlesApart` is what is left of it where memory may
be refused: a file need not have its copy. `fopen_keeps`, `fseek_apart` and `fclose_apart` — a call keeps
that, and what a handle holds changes in no call on another; `fopen_retains`, `fseek_retains` and
`fclose_retains` — so it does the whole invariant.
-/

import KernelPlay.File.Additions

namespace KernelPlay

open KernelPlay.Library

/-! ### The records behind a handle -/

/-- **The records behind an open handle.** -/
structure Holding (kernel : Kernel) (fd : Int) (record : FileDescriptor) (descriptor : FatFileDescriptor)
    (item : FatItem) : Prop where
  nonnull : descriptorOf kernel fd ≠ 0
  handle : kernel.heap.lookup (descriptorOf kernel fd) = some (.fileDescriptor record)
  described : kernel.heap.lookup record.privateData = some (.fatDescriptor descriptor)
  shown : kernel.heap.lookup descriptor.item = some (.fatItem item)

/-- **The handle is open on a regular file.** -/
def RegularHandle (kernel : Kernel) (fd : Int) : Prop :=
  ∃ record descriptor item, Holding kernel fd record descriptor item ∧ item.type = .file

/-- **The invariant of the handles.** -/
structure Holdings (kernel : Kernel) : Prop where
  noNull : kernel.heap.lookup 0 = none
  held : ∀ fd, descriptorOf kernel fd ≠ 0 → ∃ record descriptor item,
    Holding kernel fd record descriptor item ∧ record.index = fd ∧ record.fs = some .fat16Fs ∧
      (item.type = .file → ∃ entry, kernel.heap.lookup item.ref = some (.directoryItem entry))
  listed : ∀ ptr record, kernel.heap.lookup ptr = some (.fileDescriptor record) →
    descriptorOf kernel record.index = ptr
  items : ∀ {one other record record' descriptor descriptor' item item'},
    Holding kernel one record descriptor item → Holding kernel other record' descriptor' item' →
    descriptor.item = descriptor'.item → one = other
  entries : ∀ {one other record record' descriptor descriptor' item item'},
    Holding kernel one record descriptor item → Holding kernel other record' descriptor' item' →
    item.type = .file → item'.type = .file → item.ref = item'.ref → one = other

/-- **The records of the open handles are apart**: the invariant for handles whose copy of the entry may
have been refused. -/
structure HandlesApart (kernel : Kernel) : Prop where
  noNull : kernel.heap.lookup 0 = none
  held : ∀ fd, descriptorOf kernel fd ≠ 0 → ∃ record descriptor item,
    Holding kernel fd record descriptor item ∧ record.index = fd ∧ record.fs = some .fat16Fs ∧
      (item.type = .file → item.ref ≠ 0 → ∃ entry, kernel.heap.lookup item.ref = some (.directoryItem entry))
  listed : ∀ ptr record, kernel.heap.lookup ptr = some (.fileDescriptor record) →
    descriptorOf kernel record.index = ptr
  items : ∀ {one other record record' descriptor descriptor' item item'},
    Holding kernel one record descriptor item → Holding kernel other record' descriptor' item' →
    descriptor.item = descriptor'.item → one = other
  entries : ∀ {one other record record' descriptor descriptor' item item'},
    Holding kernel one record descriptor item → Holding kernel other record' descriptor' item' →
    item.type = .file → item'.type = .file → item.ref = item'.ref → item.ref ≠ 0 → one = other

/-- The handle keeps its records in the step, up to what `moves` allows of the position. -/
structure Moves (moves : Nat → Nat → Prop) (kernel kernel' : Kernel) (fd : Int) : Prop where
  slot : descriptorOf kernel' fd = descriptorOf kernel fd
  records : ∀ {record descriptor item}, Holding kernel fd record descriptor item →
    ∃ pos, moves descriptor.pos pos ∧ Holding kernel' fd record ⟨descriptor.item, pos⟩ item ∧
      (item.type = .file → ∀ entry, kernel.heap.lookup item.ref = some (.directoryItem entry) →
        kernel'.heap.lookup item.ref = some (.directoryItem entry))

/-- **The handle keeps its records**, and its position. -/
abbrev Retains : Kernel → Kernel → Int → Prop := Moves fun pos pos' => pos' = pos

section Invariant

variable {kernel kernel' : Kernel} {fd : Int} {record record' : FileDescriptor}
  {descriptor descriptor' : FatFileDescriptor} {item item' : FatItem}

theorem Holding.unique (holding : Holding kernel fd record descriptor item)
    (holding' : Holding kernel fd record' descriptor' item') :
    record' = record ∧ descriptor' = descriptor ∧ item' = item := by
  obtain ⟨-, handle, described, shown⟩ := holding
  obtain ⟨-, handle', described', shown'⟩ := holding'
  cases handle.symm.trans handle'
  cases described.symm.trans described'
  cases shown.symm.trans shown'
  exact ⟨rfl, rfl, rfl⟩

theorem Holdings.of_holding (holdings : Holdings kernel)
    (holding : Holding kernel fd record descriptor item) :
    record.index = fd ∧ record.fs = some .fat16Fs ∧
      (item.type = .file → ∃ entry, kernel.heap.lookup item.ref = some (.directoryItem entry)) := by
  obtain ⟨record', descriptor', item', holding', whole⟩ := holdings.held fd holding.nonnull
  obtain ⟨rfl, rfl, rfl⟩ := holding.unique holding'
  exact whole

theorem HandlesApart.of_holding (hold : HandlesApart kernel)
    (holding : Holding kernel fd record descriptor item) :
    record.index = fd ∧ record.fs = some .fat16Fs ∧
      (item.type = .file → item.ref ≠ 0 →
        ∃ entry, kernel.heap.lookup item.ref = some (.directoryItem entry)) := by
  obtain ⟨record', descriptor', item', holding', whole⟩ := hold.held fd holding.nonnull
  obtain ⟨rfl, rfl, rfl⟩ := holding.unique holding'
  exact whole

theorem Holdings.apart (holdings : Holdings kernel) : HandlesApart kernel where
  noNull := holdings.noNull
  held fd nonnull := by
    obtain ⟨record, descriptor, item, holding, index, fs, entry⟩ := holdings.held fd nonnull
    exact ⟨record, descriptor, item, holding, index, fs, fun file _ => entry file⟩
  listed := holdings.listed
  items := holdings.items
  entries one other file file' same _ := holdings.entries one other file file' same

/-- With a copy of every entry it is the invariant of the handles. -/
theorem HandlesApart.holdings (hold : HandlesApart kernel)
    (copied : ∀ {fd record descriptor item}, Holding kernel fd record descriptor item → item.type = .file →
      ∃ entry, kernel.heap.lookup item.ref = some (.directoryItem entry)) : Holdings kernel where
  noNull := hold.noNull
  held fd nonnull := by
    obtain ⟨record, descriptor, item, holding, index, fs, -⟩ := hold.held fd nonnull
    exact ⟨record, descriptor, item, holding, index, fs, copied holding⟩
  listed := hold.listed
  items := hold.items
  entries one other file file' same := by
    refine hold.entries one other file file' same fun null => ?_
    obtain ⟨entry, found⟩ := copied one file
    rw [null, hold.noNull] at found
    cases found

theorem Moves.mono {moves more : Nat → Nat → Prop} (held : Moves moves kernel kernel' fd)
    (allows : ∀ pos pos', moves pos pos' → more pos pos') : Moves more kernel kernel' fd := by
  refine ⟨held.slot, fun holding => ?_⟩
  obtain ⟨pos, moved, rest⟩ := held.records holding
  exact ⟨pos, allows _ _ moved, rest⟩

/-- Where no record is lost, an open handle keeps its own. -/
theorem retains_of_kept (slot : descriptorOf kernel' fd = descriptorOf kernel fd)
    (kept : ∀ ptr cell, kernel.heap.lookup ptr = some cell → kernel'.heap.lookup ptr = some cell) :
    Retains kernel kernel' fd := by
  refine ⟨slot, fun {record descriptor item} holding => ?_⟩
  obtain ⟨nonnull, handle, described, shown⟩ := holding
  refine ⟨descriptor.pos, rfl, ⟨slot ▸ nonnull, ?_, kept _ _ described, kept _ _ shown⟩,
    fun _ entry found => kept _ _ found⟩
  rw [slot]
  exact kept _ _ handle

/-- What a handle holds after such a step is what it held before. -/
theorem HandlesApart.before {moves : Nat → Nat → Prop} (hold : HandlesApart kernel)
    (held : Moves moves kernel kernel' fd) (holding : Holding kernel' fd record descriptor item) :
    ∃ pos, moves pos descriptor.pos ∧ Holding kernel fd record ⟨descriptor.item, pos⟩ item := by
  obtain ⟨old, ⟨place, before⟩, item', holding', -⟩ := hold.held fd (held.slot ▸ holding.nonnull)
  obtain ⟨pos, moved, now, -⟩ := held.records holding'
  obtain ⟨rfl, rfl, rfl⟩ := holding.unique now
  exact ⟨before, moved, holding'⟩

/-- A step that adds no handle keeps the copies, if those still open keep their records. -/
theorem Holdings.of_moves (holdings : Holdings kernel) (hold : HandlesApart kernel')
    (held : ∀ fd, descriptorOf kernel' fd ≠ 0 → Moves (fun _ _ => True) kernel kernel' fd) :
    Holdings kernel' := by
  refine hold.holdings fun {fd record descriptor item} holding file => ?_
  have moves := held fd holding.nonnull
  obtain ⟨pos, -, old⟩ := holdings.apart.before moves holding
  obtain ⟨entry, found⟩ := (holdings.of_holding old).2.2 file
  obtain ⟨_, -, _, kept⟩ := moves.records old
  exact ⟨entry, kept file entry found⟩

/-- **A step that adds no handle** keeps the invariant, if those still open keep their records. -/
theorem HandlesApart.of_moves (hold : HandlesApart kernel) (noNull : kernel'.heap.lookup 0 = none)
    (held : ∀ fd, descriptorOf kernel' fd ≠ 0 → Moves (fun _ _ => True) kernel kernel' fd)
    (listed : ∀ ptr record, kernel'.heap.lookup ptr = some (.fileDescriptor record) →
      descriptorOf kernel' record.index = ptr) : HandlesApart kernel' := by
  refine ⟨noNull, fun fd nonnull => ?_, listed, fun one other same => ?_,
    fun one other file file' same nonnull => ?_⟩
  · have moves := held fd nonnull
    obtain ⟨record, descriptor, item, holding, index, fs, entry⟩ := hold.held fd (moves.slot ▸ nonnull)
    obtain ⟨pos, -, moved, kept⟩ := moves.records holding
    refine ⟨record, _, item, moved, index, fs, fun file some_ref => ?_⟩
    obtain ⟨entry, found⟩ := entry file some_ref
    exact ⟨entry, kept file entry found⟩
  · obtain ⟨_, -, one⟩ := hold.before (held _ one.nonnull) one
    obtain ⟨_, -, other⟩ := hold.before (held _ other.nonnull) other
    exact hold.items one other same
  · obtain ⟨_, -, one⟩ := hold.before (held _ one.nonnull) one
    obtain ⟨_, -, other⟩ := hold.before (held _ other.nonnull) other
    exact hold.entries one other file file' same nonnull

/-- What a handle holds once a new one is there is what it held before, or it is the new one. -/
theorem HandlesApart.insert_cases {slot : Fin maxFiledescriptors} {desc : Ptr} (hold : HandlesApart kernel)
    (kept : ∀ ptr cell, kernel.heap.lookup ptr = some cell → kernel'.heap.lookup ptr = some cell)
    (table : kernel'.filedescriptors = setSlot kernel.filedescriptors slot desc)
    (new : Holding kernel' ((slot : Int) + 1) record descriptor item)
    (holding : Holding kernel' fd record' descriptor' item') :
    (fd = (slot : Int) + 1 ∧ descriptor' = descriptor ∧ item' = item) ∨
      ∃ record', Holding kernel fd record' descriptor' item' ∧
        (item'.type = .file → item'.ref ≠ 0 →
          ∃ entry, kernel.heap.lookup item'.ref = some (.directoryItem entry)) := by
  by_cases same : fd = (slot : Int) + 1
  · subst same
    obtain ⟨-, descriptors, items⟩ := new.unique holding
    exact .inl ⟨rfl, descriptors, items⟩
  · obtain ⟨pos, rfl, old⟩ := hold.before (retains_of_kept (descriptorOf_elsewhere table same) kept) holding
    exact .inr ⟨_, old, (hold.of_holding old).2.2⟩

/-- **A new handle** whose records were not there before keeps it. -/
theorem HandlesApart.insert {slot : Fin maxFiledescriptors} {desc : Ptr} (hold : HandlesApart kernel)
    (noNull : kernel'.heap.lookup 0 = none)
    (kept : ∀ ptr cell, kernel.heap.lookup ptr = some cell → kernel'.heap.lookup ptr = some cell)
    (table : kernel'.filedescriptors = setSlot kernel.filedescriptors slot desc)
    (new : Holding kernel' ((slot : Int) + 1) record descriptor item)
    (index : record.index = (slot : Int) + 1) (fs : record.fs = some .fat16Fs)
    (fresh : kernel.heap.lookup descriptor.item = none)
    (entry : item.type = .file → item.ref ≠ 0 → kernel.heap.lookup item.ref = none ∧
      ∃ entry, kernel'.heap.lookup item.ref = some (.directoryItem entry))
    (listed : ∀ ptr record, kernel'.heap.lookup ptr = some (.fileDescriptor record) →
      kernel.heap.lookup ptr = some (.fileDescriptor record) ∨ ptr = desc)
    (free : kernel.filedescriptors slot = 0) : HandlesApart kernel' := by
  have at_slot := descriptorOf_inserted table
  have was_free : descriptorOf kernel ((slot : Int) + 1) = 0 := (descriptorOf_slot slot).trans free
  refine ⟨noNull, fun fd nonnull => ?_, fun ptr record' found => ?_, fun first second same => ?_,
    fun first second file file' same nonnull => ?_⟩
  · by_cases same : fd = (slot : Int) + 1
    · subst same
      exact ⟨record, descriptor, item, new, index, fs, fun file some_ref => (entry file some_ref).2⟩
    · rw [descriptorOf_elsewhere table same] at nonnull
      obtain ⟨old, descriptor', item', holding, index', fs', entry'⟩ := hold.held fd nonnull
      obtain ⟨pos, -, moved, -⟩ := (retains_of_kept (descriptorOf_elsewhere table same) kept).records holding
      refine ⟨old, _, item', moved, index', fs', fun file some_ref => ?_⟩
      obtain ⟨entry, found⟩ := entry' file some_ref
      exact ⟨entry, kept _ _ found⟩
  · rcases listed ptr record' found with old | rfl
    · have owner := hold.listed ptr record' old
      rw [descriptorOf_elsewhere table, owner]
      rintro same
      rw [same, was_free] at owner
      rw [← owner, hold.noNull] at old
      cases old
    · have handle := new.handle
      rw [at_slot] at handle
      cases found.symm.trans handle
      rw [index, at_slot]
  · rcases hold.insert_cases kept table new first with ⟨rfl, rfl, rfl⟩ | ⟨_, old, -⟩
    · rcases hold.insert_cases kept table new second with ⟨rfl, -⟩ | ⟨_, old, -⟩
      · rfl
      · have shown := old.shown
        rw [← same, fresh] at shown
        cases shown
    · rcases hold.insert_cases kept table new second with ⟨rfl, rfl, rfl⟩ | ⟨_, old', -⟩
      · have shown := old.shown
        rw [same, fresh] at shown
        cases shown
      · exact hold.items old old' same
  · rcases hold.insert_cases kept table new first with ⟨rfl, rfl, rfl⟩ | ⟨_, old, found⟩
    · rcases hold.insert_cases kept table new second with ⟨rfl, -⟩ | ⟨_, old, found⟩
      · rfl
      · obtain ⟨_, found⟩ := found file' (same ▸ nonnull)
        rw [← same, (entry file nonnull).1] at found
        cases found
    · rcases hold.insert_cases kept table new second with ⟨rfl, rfl, rfl⟩ | ⟨_, old', -⟩
      · obtain ⟨_, found⟩ := found file nonnull
        rw [same, (entry file' (same ▸ nonnull)).1] at found
        cases found
      · exact hold.entries old old' file file' same nonnull

end Invariant

/-! ### `fseek` and `fclose` -/

/-- A record of a kind that handles hold. -/
def Cell.IsHeld : Cell → Prop
  | .fileDescriptor _ | .fatDescriptor _ | .fatItem _ | .directoryItem _ => True
  | _ => False

section Calls

variable {machine : Machine} {kernel kernel' : Kernel} {heap heap' : Kheap} {ptr : Ptr} {fd offset res : Int}
  {whence : Nat}

/-- What an `fseek` that returned has done: nothing, or it has moved a descriptor. -/
theorem fseek_effect (done : fseek machine kernel fd offset whence = .ok (res, kernel')) :
    kernel' = kernel ∨ ∃ record descriptor pos,
      kernel.heap.lookup (fileGetDescriptor machine kernel fd) = some (.fileDescriptor record) ∧
      kernel.heap.lookup record.privateData = some (.fatDescriptor descriptor) ∧
      kernel' = { kernel with
        heap := kernel.heap.put record.privateData (.fatDescriptor ⟨descriptor.item, pos⟩) } := by
  rcases fseek_ok done with ⟨-, same⟩ | ⟨record, status, heap, handle, seeks, rfl⟩
  · exact .inl same
  unfold fat16Seek at seeks
  obtain ⟨descriptor, described, seeks⟩ := bind_ok.mp seeks
  obtain ⟨item, -, seeks⟩ := bind_ok.mp seeks
  rw [deref_ok_iff] at described
  split_ifs at seeks
  · cases seeks
    exact .inl rfl
  obtain ⟨entry, -, seeks⟩ := bind_ok.mp seeks
  split_ifs at seeks
  · cases seeks
    exact .inl rfl
  split at seeks
  · cases seeks
    exact .inr ⟨record, descriptor, _, handle, described, rfl⟩
  · cases seeks
    exact .inr ⟨record, descriptor, _, handle, described, rfl⟩
  · cases seeks
    exact .inl rfl
  · cases seeks
    exact .inl rfl

/-- What an `fclose` of a descriptor in its slot works on. -/
theorem HandlesApart.own {record : FileDescriptor} (hold : HandlesApart kernel)
    (handle : kernel.heap.lookup ptr = some (.fileDescriptor record)) :
    descriptorOf kernel record.index = ptr ∧ ∃ descriptor item,
      Holding kernel record.index record descriptor item := by
  have owner := hold.listed ptr record handle
  have nonnull : descriptorOf kernel record.index ≠ 0 := by
    intro null
    rw [← owner, null, hold.noNull] at handle
    cases handle
  obtain ⟨record', descriptor, item, holding, -⟩ := hold.held record.index nonnull
  have same := holding.handle
  rw [owner, handle] at same
  cases same
  exact ⟨owner, descriptor, item, holding⟩

/-- A new position of one handle moves no other. -/
theorem HandlesApart.put_moves {one : Int} {record : FileDescriptor} {descriptor : FatFileDescriptor}
    {item : FatItem} (hold : HandlesApart kernel) (holding : Holding kernel one record descriptor item)
    (pos : Nat) (other : Int) :
    Moves (fun before after => other ≠ one → after = before) kernel
      { kernel with heap := kernel.heap.put record.privateData (.fatDescriptor ⟨descriptor.item, pos⟩) }
      other := by
  have described := holding.described
  have elsewhere {place : Ptr} {cell : Cell} (found : kernel.heap.lookup place = some cell)
      (differ : place ≠ record.privateData) :
      (kernel.heap.put record.privateData (.fatDescriptor ⟨descriptor.item, pos⟩)).lookup place = some cell :=
    (Store.lookup_put_ne differ).trans found
  refine ⟨rfl, fun {record' descriptor' item'} held => ?_⟩
  have handle := elsewhere held.handle (Store.ne_of_lookup held.handle described nofun)
  have shown := elsewhere held.shown (Store.ne_of_lookup held.shown described nofun)
  have copied (entry : FatDirectoryItem)
      (found : kernel.heap.lookup item'.ref = some (.directoryItem entry)) :=
    elsewhere found (Store.ne_of_lookup found described nofun)
  by_cases same : other = one
  · subst same
    obtain ⟨rfl, rfl, rfl⟩ := holding.unique held
    exact ⟨pos, fun differ => absurd rfl differ, ⟨held.nonnull, handle, Store.lookup_put_self, shown⟩,
      fun _ => copied⟩
  · have differ : record'.privateData ≠ record.privateData := by
      intro equal
      have described' := held.described
      rw [equal, described] at described'
      cases described'
      exact same (hold.items held holding rfl)
    exact ⟨descriptor'.pos, fun _ => rfl, ⟨held.nonnull, handle, elsewhere held.described differ, shown⟩,
      fun _ => copied⟩

/-- **An `fseek`** keeps the handles apart and moves at most the one it reaches. -/
theorem fseek_apart (hold : HandlesApart kernel)
    (done : fseek machine kernel fd offset whence = .ok (res, kernel')) :
    HandlesApart kernel' ∧
      (∀ other, descriptorOf kernel' other ≠ 0 → Moves (fun _ _ => True) kernel kernel' other) ∧
      ∀ other, fileGetDescriptor machine kernel fd ≠ descriptorOf kernel other →
        Retains kernel kernel' other := by
  rcases fseek_effect done with rfl | ⟨record, descriptor, pos, handle, described, rfl⟩
  · have retains (other : Int) : Retains kernel' kernel' other := retains_of_kept rfl fun _ _ => id
    exact ⟨hold, fun other _ => (retains other).mono fun _ _ _ => trivial, fun other _ => retains other⟩
  obtain ⟨owner, descriptor', item, holding⟩ := hold.own handle
  cases described.symm.trans holding.described
  have moves := hold.put_moves holding pos
  have anywhere (other : Int) := (moves other).mono fun _ _ _ => trivial
  refine ⟨hold.of_moves ?_ (fun other _ => anywhere other) (fun ptr record' found => ?_),
    fun other _ => anywhere other, fun other apart => ?_⟩
  · refine (Store.lookup_put_ne ?_).trans hold.noNull
    rintro null
    rw [← null, hold.noNull] at described
    cases described
  · have old : kernel.heap.lookup ptr = some (.fileDescriptor record') := by
      by_cases at_ptr : ptr = record.privateData
      · rw [at_ptr, Store.lookup_put_self] at found
        cases found
      · exact (Store.lookup_put_ne at_ptr).symm.trans found
    exact hold.listed ptr record' old
  · refine (moves other).mono fun before after allowed => allowed ?_
    rintro rfl
    exact apart owner.symm

/-- **An `fseek`** keeps the invariant, and every handle it does not reach keeps its records. -/
theorem fseek_retains (holdings : Holdings kernel)
    (done : fseek machine kernel fd offset whence = .ok (res, kernel')) :
    Holdings kernel' ∧ ∀ other, fileGetDescriptor machine kernel fd ≠ descriptorOf kernel other →
      Retains kernel kernel' other := by
  obtain ⟨hold, moves, others⟩ := fseek_apart holdings.apart done
  exact ⟨holdings.of_moves hold moves, others⟩

/-- What a close frees of what handles hold. -/
theorem fat16Close_effect (done : fat16Close heap ptr = .ok (res, heap')) :
    ∃ descriptor item, heap.lookup ptr = some (.fatDescriptor descriptor) ∧
      heap.lookup descriptor.item = some (.fatItem item) ∧
      (item.type = .file → ∃ entry, heap.lookup item.ref = some (.directoryItem entry)) ∧
      AddsNone heap heap' ∧
      ∀ other cell, cell.IsHeld → heap.lookup other = some cell → other ≠ ptr → other ≠ descriptor.item →
        (item.type = .file → other ≠ item.ref) → heap'.lookup other = some cell := by
  unfold fat16Close at done
  obtain ⟨descriptor, described, done⟩ := bind_ok.mp done
  obtain ⟨middle, frees, done⟩ := bind_ok.mp done
  obtain ⟨last, freed, done⟩ := bind_ok.mp done
  cases done
  obtain ⟨-, rfl⟩ := kheapFree_ok freed
  have adds := itemFree_adds frees
  unfold fat16FatItemFree at frees
  obtain ⟨item, shown, frees⟩ := bind_ok.mp frees
  rw [deref_ok_iff] at described shown
  refine ⟨descriptor, item, described, shown, fun file => ?_, adds.erase,
    fun other cell held found apart apart' file => ?_⟩
  · rw [file] at frees
    obtain ⟨_, copy, -⟩ := bind_ok.mp frees
    exact (kheapFree_ok copy).1
  rw [Store.lookup_erase_ne apart]
  cases type : item.type with
  | directory =>
    rw [type] at frees
    obtain ⟨cleared, directory, frees⟩ := bind_ok.mp frees
    obtain ⟨-, rfl⟩ := kheapFree_ok frees
    have spares : Spares Cell.IsHeld heap cleared :=
      directoryFree_keeps (fun _ => id) (fun _ => id) directory
    rw [Store.lookup_erase_ne apart']
    exact spares.kept other cell held found
  | file =>
    rw [type] at frees
    obtain ⟨freed, copy, frees⟩ := bind_ok.mp frees
    obtain ⟨-, rfl⟩ := kheapFree_ok copy
    obtain ⟨-, rfl⟩ := kheapFree_ok frees
    rw [Store.lookup_erase_ne apart', Store.lookup_erase_ne (file type)]
    exact found

/-- What an `fclose` that returned has done: nothing, or it has freed a handle with all it holds. -/
theorem fclose_effect (done : fclose machine kernel fd = .ok (res, kernel')) :
    kernel' = kernel ∨ ∃ record descriptor item,
      kernel.heap.lookup (fileGetDescriptor machine kernel fd) = some (.fileDescriptor record) ∧
      kernel.heap.lookup record.privateData = some (.fatDescriptor descriptor) ∧
      kernel.heap.lookup descriptor.item = some (.fatItem item) ∧
      (item.type = .file → ∃ entry, kernel.heap.lookup item.ref = some (.directoryItem entry)) ∧
      kernel'.filedescriptors = setSlot kernel.filedescriptors (record.index - 1) 0 ∧
      AddsNone kernel.heap kernel'.heap ∧
      kernel'.heap.lookup (fileGetDescriptor machine kernel fd) = none ∧
      ∀ other cell, cell.IsHeld → kernel.heap.lookup other = some cell →
        other ≠ fileGetDescriptor machine kernel fd → other ≠ record.privateData →
        other ≠ descriptor.item → (item.type = .file → other ≠ item.ref) →
        kernel'.heap.lookup other = some cell := by
  rcases fclose_ok done with ⟨-, -, same⟩ | ⟨-, rfl, record, middle, handle, closes, rfl⟩
  · exact .inl same
  obtain ⟨descriptor, item, described, shown, copy, adds, kept⟩ := fat16Close_effect closes
  refine .inr ⟨record, descriptor, item, handle, described, shown, copy, rfl, adds.erase,
    Store.lookup_erase_self, fun other cell held found apart apart' apart'' file => ?_⟩
  exact (Store.lookup_erase_ne apart).trans (kept other cell held found apart' apart'' file)

/-- **A handle keeps its records** where all are kept but those of another handle. -/
theorem HandlesApart.retains_of_others {one other : Int} {record : FileDescriptor}
    {descriptor : FatFileDescriptor} {item : FatItem} (hold : HandlesApart kernel)
    (holding : Holding kernel one record descriptor item)
    (copy : item.type = .file → ∃ entry, kernel.heap.lookup item.ref = some (.directoryItem entry))
    (differ : other ≠ one) (slot : descriptorOf kernel' other = descriptorOf kernel other)
    (kept : ∀ place cell, cell.IsHeld → kernel.heap.lookup place = some cell →
      place ≠ descriptorOf kernel one → place ≠ record.privateData → place ≠ descriptor.item →
      (item.type = .file → place ≠ item.ref) → kernel'.heap.lookup place = some cell) :
    Retains kernel kernel' other := by
  have handle := holding.handle
  have described := holding.described
  have shown := holding.shown
  refine ⟨slot, fun {record' descriptor' item'} held => ?_⟩
  have apart_handle : descriptorOf kernel other ≠ descriptorOf kernel one := by
    intro same
    have handle' := held.handle
    rw [same, handle] at handle'
    cases handle'
    cases described.symm.trans held.described
    exact differ (hold.items held holding rfl)
  have apart_item : descriptor'.item ≠ descriptor.item :=
    fun same => differ (hold.items held holding same)
  have apart_described : record'.privateData ≠ record.privateData := by
    intro same
    have described' := held.described
    rw [same, described] at described'
    cases described'
    exact apart_item rfl
  -- What is left to tell apart are records of different kinds.
  have apart_entry {place : Ptr} {cell : Cell} (found : kernel.heap.lookup place = some cell)
      (other_kind : ∀ entry, cell ≠ .directoryItem entry) (file : item.type = .file) :
      place ≠ item.ref := by
    obtain ⟨entry, record⟩ := copy file
    exact Store.ne_of_lookup found record (other_kind entry)
  refine ⟨descriptor'.pos, rfl, ⟨slot ▸ held.nonnull, ?_, ?_, ?_⟩, fun file entry found => ?_⟩
  · rw [slot]
    exact kept _ _ trivial held.handle apart_handle (Store.ne_of_lookup held.handle described nofun)
      (Store.ne_of_lookup held.handle shown nofun) (apart_entry held.handle nofun)
  · exact kept _ _ trivial held.described (Store.ne_of_lookup held.described handle nofun) apart_described
      (Store.ne_of_lookup held.described shown nofun) (apart_entry held.described nofun)
  · exact kept _ _ trivial held.shown (Store.ne_of_lookup held.shown handle nofun)
      (Store.ne_of_lookup held.shown described nofun) apart_item (apart_entry held.shown nofun)
  · refine kept _ _ trivial found (Store.ne_of_lookup found handle nofun)
      (Store.ne_of_lookup found described nofun) (Store.ne_of_lookup found shown nofun) fun file' same => ?_
    refine differ (hold.entries held holding file file' same fun null => ?_)
    rw [null, hold.noNull] at found
    cases found

/-- **An `fclose`** keeps the handles apart, and every handle it does not reach keeps its records. -/
theorem fclose_apart (hold : HandlesApart kernel) (done : fclose machine kernel fd = .ok (res, kernel')) :
    HandlesApart kernel' ∧
      (∀ other, descriptorOf kernel' other ≠ 0 → Moves (fun _ _ => True) kernel kernel' other) ∧
      ∀ other, fileGetDescriptor machine kernel fd ≠ descriptorOf kernel other →
        Retains kernel kernel' other := by
  rcases fclose_effect done with rfl |
    ⟨record, descriptor, item, handle, described, shown, copy, table, adds, gone, kept⟩
  · have retains (other : Int) : Retains kernel' kernel' other := retains_of_kept rfl fun _ _ => id
    exact ⟨hold, fun other _ => (retains other).mono fun _ _ _ => trivial, fun other _ => retains other⟩
  obtain ⟨owner, descriptor', item', holding⟩ := hold.own handle
  cases described.symm.trans holding.described
  cases shown.symm.trans holding.shown
  have slots {other : Int} (differ : other ≠ record.index) :
      descriptorOf kernel' other = descriptorOf kernel other :=
    descriptorOf_elsewhere table (by omega)
  have others (other : Int) (apart : fileGetDescriptor machine kernel fd ≠ descriptorOf kernel other) :
      Retains kernel kernel' other := by
    have differ : other ≠ record.index := by
      rintro rfl
      exact apart owner.symm
    refine hold.retains_of_others holding copy differ (slots differ) fun place cell held found => ?_
    rw [owner]
    exact kept place cell held found
  have moves (other : Int) (nonnull : descriptorOf kernel' other ≠ 0) :
      Moves (fun _ _ => True) kernel kernel' other := by
    refine (others other fun same => ?_).mono fun _ _ _ => trivial
    apply nonnull
    have own : other = record.index := by
      by_contra differ
      have open_other := slots differ ▸ nonnull
      obtain ⟨record', _, _, held, index, -⟩ := hold.held other open_other
      have handle' := held.handle
      rw [← same, handle] at handle'
      cases handle'
      exact differ index.symm
    rw [own]
    exact descriptorOf_emptied table
  refine ⟨hold.of_moves ?_ moves (fun ptr record' found => ?_), moves, others⟩
  · cases found : kernel'.heap.lookup 0 with
    | none => rfl
    | some cell =>
      have old := (adds 0 cell found).resolve_right id
      rw [hold.noNull] at old
      cases old
  · have old := (adds ptr _ found).resolve_right id
    have listed := hold.listed ptr record' old
    rw [slots, listed]
    rintro same
    rw [same, owner] at listed
    rw [← listed, gone] at found
    cases found

/-- **An `fclose`** keeps the invariant, and every handle it does not reach keeps its records. -/
theorem fclose_retains (holdings : Holdings kernel)
    (done : fclose machine kernel fd = .ok (res, kernel')) :
    Holdings kernel' ∧ ∀ other, fileGetDescriptor machine kernel fd ≠ descriptorOf kernel other →
      Retains kernel kernel' other := by
  obtain ⟨hold, moves, others⟩ := fclose_apart holdings.apart done
  exact ⟨holdings.of_moves hold moves, others⟩

end Calls

/-! ### `fopen` -/

section Open

variable {machine : Machine} {fatPrivate : FatPrivate} {kernel kernel' : Kernel}
  {filename modeStr : CString} {items : List FatDirectoryItem} {call calls : Nat} {arrived : Arrived}

/-- With memory for every record, no item has a null pointer. -/
theorem arrivedAt_whole {entry : FatDirectoryItem} (ample : Ample machine.allocator)
    (arrives : arrivedAt machine fatPrivate entry call = .ok arrived) (type : FatItemType) :
    arrived ≠ .bare type := by
  rintro rfl
  rw [arrivedAt_ample ample] at arrives
  by_cases directory : entry.IsDirectory
  · rw [if_pos directory] at arrives
    obtain ⟨loaded, -, same⟩ := map_ok_iff.mp arrives
    cases loaded with
    | none => cases same
    | some loaded => cases same
  · rw [if_neg directory] at arrives
    cases arrives

theorem walkAt_whole (ample : Ample machine.allocator) :
    ∀ (rest : List Text) (call : Nat) (start : Arrived), (∀ type, start ≠ .bare type) →
      walkAt machine fatPrivate call start rest = .ok (arrived, calls) → ∀ type, arrived ≠ .bare type := by
  intro rest
  induction rest with
  | nil =>
    intro call start whole walks
    cases walks
    exact whole
  | cons name rest ih =>
    intro call start whole walks
    cases start with
    | nothing => cases walks
    | dangling => cases walks
    | bare type => exact absurd rfl (whole type)
    | item view =>
      cases view with
      | file entry =>
        cases walks
        exact nofun
      | directory loaded =>
        rw [walkAt] at walks
        cases named : slotNamed (loaded.slots machine) name with
        | none =>
          rw [named] at walks
          exact ih call .nothing nofun walks
        | some entry =>
          rw [named] at walks
          obtain ⟨found, arrives, walks⟩ := bind_ok.mp walks
          exact ih _ _ (arrivedAt_whole ample arrives) walks

theorem resolveAt_whole {slots : List FatDirectoryItem} {name : Text} {rest : List Text}
    (ample : Ample machine.allocator)
    (ends : resolveAt machine fatPrivate call slots name rest = .ok (arrived, calls)) :
    ∀ type, arrived ≠ .bare type := by
  cases named : slotNamed slots name with
  | none =>
    rw [resolveAt_missing named] at ends
    cases ends
    exact nofun
  | some entry =>
    rw [resolveAt_granted named (ample _ _ (by decide))] at ends
    obtain ⟨found, arrives, walks⟩ := bind_ok.mp ends
    exact walkAt_whole ample _ _ _ (arrivedAt_whole ample arrives) walks

/-- The item of a new handle, by what the walk has arrived at. -/
theorem Reached.holding {heap : Kheap} {ptr : Ptr} {footprint : List Ptr}
    (reached : Reached heap ptr arrived footprint) (nonnull : ptr ≠ 0) :
    ptr ∈ footprint ∧ ∃ item, heap.lookup ptr = some (.fatItem item) ∧
      (item.type = .file → (∀ type, arrived ≠ .bare type) ∨ item.ref ≠ 0 →
        item.ref ∈ footprint ∧ ∃ entry, heap.lookup item.ref = some (.directoryItem entry)) := by
  cases reached with
  | nothing => exact absurd rfl nonnull
  | dangling record => exact ⟨List.mem_singleton_self _, _, record, nofun⟩
  | bare record =>
    refine ⟨List.mem_singleton_self _, _, record, fun _ copied => ?_⟩
    rcases copied with whole | some_ref
    · exact absurd rfl (whole _)
    · exact absurd rfl some_ref
  | item shows =>
    cases shows with
    | file record entry => exact ⟨List.mem_cons_self, _, record, fun _ _ => ⟨by simp, _, entry⟩⟩
    | directory record => exact ⟨List.mem_cons_self, _, record, nofun⟩

/-- There is no item at the null pointer. -/
theorem Reached.nothing_of_null {heap : Kheap} {footprint : List Ptr}
    (reached : Reached heap 0 arrived footprint) (noNull : heap.lookup 0 = none) : arrived = .nothing := by
  cases reached with
  | nothing => rfl
  | dangling record => cases noNull.symm.trans record
  | bare record => cases noNull.symm.trans record
  | item shows =>
    cases shows with
    | file record => cases noNull.symm.trans record
    | directory record => cases noNull.symm.trans record

theorem Reached.typed {heap : Kheap} {ptr : Ptr} {footprint : List Ptr}
    (reached : Reached heap ptr arrived footprint) (nonnull : ptr ≠ 0) :
    ptr ∈ footprint ∧ ∃ item, heap.lookup ptr = some (.fatItem item) ∧ arrived.type = some item.type := by
  cases reached with
  | nothing => exact absurd rfl nonnull
  | dangling record => exact ⟨List.mem_singleton_self _, _, record, rfl⟩
  | bare record => exact ⟨List.mem_singleton_self _, _, record, rfl⟩
  | item shows =>
    cases shows with
    | file record => exact ⟨List.mem_cons_self, _, record, rfl⟩
    | directory record => exact ⟨List.mem_cons_self, _, record, rfl⟩

/-- What an `fopen` that returned has done: it has lost no record, and opened a handle of new ones or
left the table alone. -/
structure OpenedFresh (kernel kernel' : Kernel) : Prop where
  noNull : kernel'.heap.lookup 0 = none
  kept : ∀ ptr cell, kernel.heap.lookup ptr = some cell → kernel'.heap.lookup ptr = some cell
  table : kernel'.filedescriptors = kernel.filedescriptors ∨
    ∃ slot desc record descriptor item, freeSlot kernel.filedescriptors = some slot ∧
      kernel'.filedescriptors = setSlot kernel.filedescriptors slot desc ∧
      Holding kernel' ((slot : Int) + 1) record descriptor item ∧
      record.index = (slot : Int) + 1 ∧ record.fs = some .fat16Fs ∧
      kernel.heap.lookup descriptor.item = none ∧
      (item.type = .file → kernel.heap.lookup item.ref = none ∧
        ∃ entry, kernel'.heap.lookup item.ref = some (.directoryItem entry))

/-- The same where a copy may have been refused; `whole` tells that none has been. -/
structure OpenedApart (whole : Prop) (kernel kernel' : Kernel) : Prop where
  noNull : kernel'.heap.lookup 0 = none
  kept : ∀ ptr cell, kernel.heap.lookup ptr = some cell → kernel'.heap.lookup ptr = some cell
  table : kernel'.filedescriptors = kernel.filedescriptors ∨
    ∃ slot desc record descriptor item, freeSlot kernel.filedescriptors = some slot ∧
      kernel'.filedescriptors = setSlot kernel.filedescriptors slot desc ∧
      Holding kernel' ((slot : Int) + 1) record descriptor item ∧
      record.index = (slot : Int) + 1 ∧ record.fs = some .fat16Fs ∧
      kernel.heap.lookup descriptor.item = none ∧
      (item.type = .file → whole ∨ item.ref ≠ 0 → kernel.heap.lookup item.ref = none ∧
        ∃ entry, kernel'.heap.lookup item.ref = some (.directoryItem entry))

theorem OpenedApart.mono {whole more : Prop} (opened : OpenedApart whole kernel kernel')
    (enough : more → whole) : OpenedApart more kernel kernel' := by
  obtain ⟨noNull, kept, same | ⟨slot, desc, record, descriptor, item, free, table, new, index, fs, fresh,
    entry⟩⟩ := opened
  · exact ⟨noNull, kept, .inl same⟩
  · exact ⟨noNull, kept, .inr ⟨slot, desc, record, descriptor, item, free, table, new, index, fs, fresh,
      fun file copied => entry file (copied.imp_left enough)⟩⟩

/-- The records of a handle just opened. -/
theorem opened_holding {slot : Fin maxFiledescriptors} {later : Kheap} {item fdPrivate desc : Ptr}
    {fatItem : FatItem} (shown : later.lookup item = some (.fatItem fatItem)) (apart : item ≠ fdPrivate)
    (nonnull : desc ≠ 0)
    (absent : (later.put fdPrivate (.fatDescriptor ⟨item, 0⟩)).lookup desc = none) :
    Holding { kernel with
        heap := (later.put fdPrivate (.fatDescriptor ⟨item, 0⟩)).tick.put desc
          (.fileDescriptor ⟨(slot : Int) + 1, some .fat16Fs, fdPrivate, some .rootDisk⟩)
        filedescriptors := setSlot kernel.filedescriptors slot desc } ((slot : Int) + 1)
      ⟨(slot : Int) + 1, some .fat16Fs, fdPrivate, some .rootDisk⟩ ⟨item, 0⟩ fatItem := by
  have differs {ptr : Ptr} {cell : Cell}
      (found : (later.put fdPrivate (.fatDescriptor ⟨item, 0⟩)).lookup ptr = some cell) : ptr ≠ desc :=
    Store.ne_of_absent found absent
  have described : (later.put fdPrivate (.fatDescriptor ⟨item, 0⟩)).lookup fdPrivate =
      some (.fatDescriptor ⟨item, 0⟩) := Store.lookup_put_self
  have shown' : (later.put fdPrivate (.fatDescriptor ⟨item, 0⟩)).lookup item = some (.fatItem fatItem) :=
    (Store.lookup_put_ne apart).trans shown
  refine ⟨?_, ?_, (Store.lookup_put_ne (differs described)).trans described,
    (Store.lookup_put_ne (differs shown')).trans shown'⟩
  · rw [descriptorOf_inserted rfl]
    exact nonnull
  · rw [descriptorOf_inserted rfl]
    exact Store.lookup_put_self

/-- What `fopen` makes of a walk that ended at an item. -/
theorem OpenOutcome.apart {heap later : Kheap} {item : Ptr} {fd : Int}
    (opens : OpenOutcome machine kernel (Store.nextPtr machine.allocator heap 8) (.ok (item, later))
      (.ok (fd, kernel')))
    (ends : EndsAt (describing machine heap) [] item later arrived)
    (kept : ∀ ptr cell, kernel.heap.lookup ptr = some cell → heap.lookup ptr = some cell) :
    OpenedApart (∀ type, arrived ≠ .bare type) kernel kernel' := by
  have old {ptr : Ptr} {cell : Cell} (found : kernel.heap.lookup ptr = some cell) :
      later.lookup ptr = some cell :=
    ends.kept ptr cell (describing_kept (kept ptr cell found)) List.not_mem_nil
  have fresh {ptr : Ptr} (absent : (describing machine heap).lookup ptr = none) :
      kernel.heap.lookup ptr = none := by
    cases found : kernel.heap.lookup ptr with
    | none => rfl
    | some cell =>
      rw [describing_kept (kept ptr cell found)] at absent
      cases absent
  have nonnull : Store.nextPtr machine.allocator heap 8 ≠ 0 := Store.nextPtr_ne_zero
  have described : (describing machine heap).lookup (Store.nextPtr machine.allocator heap 8) =
      some (.fatDescriptor ⟨0, 0⟩) := Store.lookup_put_self
  have apart {ptr : Ptr} {cell : Cell} (found : kernel.heap.lookup ptr = some cell) :
      ptr ≠ Store.nextPtr machine.allocator heap 8 := Store.nextPtr_ne (kept ptr cell found)
  obtain ⟨noNull, -, footprint, reached, is_fresh, -⟩ := ends
  generalize Store.nextPtr machine.allocator heap 8 = fdPrivate at *
  cases opens with
  | nothing => exact ⟨noNull, fun _ _ => old, .inl rfl⟩
  | full =>
    exact ⟨(Store.lookup_put_ne nonnull.symm).trans noNull,
      fun _ _ found => (Store.lookup_put_ne (apart found)).trans (old found), .inl rfl⟩
  | @opened _ desc _ slot item_nonnull free _ desc_nonnull absent =>
    have others {ptr : Ptr} {cell : Cell} (found : later.lookup ptr = some cell)
        (differ : ptr ≠ fdPrivate) :
        ((later.put fdPrivate (.fatDescriptor ⟨item, 0⟩)).tick.put desc (.fileDescriptor
          ⟨(slot : Int) + 1, some .fat16Fs, fdPrivate, some .rootDisk⟩)).lookup ptr = some cell := by
      have found' := (@Store.lookup_put_ne _ later _ _ (.fatDescriptor ⟨item, 0⟩) differ).trans found
      have at_desc : ptr ≠ desc := Store.ne_of_absent found' absent
      exact (Store.lookup_put_ne at_desc).trans found'
    obtain ⟨member, shown, record, file⟩ := reached.holding item_nonnull
    have new {ptr : Ptr} (member : ptr ∈ footprint) :
        (describing machine heap).lookup ptr = none :=
      (is_fresh ptr member).resolve_left List.not_mem_nil
    have differs {ptr : Ptr} (member : ptr ∈ footprint) : ptr ≠ fdPrivate :=
      (Store.ne_of_absent described (new member)).symm
    refine ⟨?_, fun _ _ found => others (old found) (apart found), .inr ⟨slot, desc, _, _, shown, free, rfl,
      opened_holding record (differs member) desc_nonnull absent, rfl, rfl, fresh (new member),
      fun is_file copied => ?_⟩⟩
    · exact (Store.lookup_put_ne desc_nonnull.symm).trans ((Store.lookup_put_ne nonnull.symm).trans noNull)
    · obtain ⟨member, entry, found⟩ := file is_file copied
      exact ⟨fresh (new member), entry, others found (differs member)⟩

theorem fopen_apart {fd : Int} (volume : kernel.rootDisk.fsPrivate = some fatPrivate)
    (noNull : kernel.heap.lookup 0 = none)
    (found : kernel.heap.lookup fatPrivate.rootDirectory.item = some (.directoryItems items))
    (done : fopen machine kernel filename modeStr = .ok (fd, kernel')) :
    OpenedApart (Ample machine.allocator) kernel kernel' := by
  have outcome := @fopen_outcome machine kernel fatPrivate filename modeStr volume
  rw [done] at outcome
  cases outcome with
  | rejected _ _ spares =>
    exact ⟨spares.noNull noNull, fun ptr cell => spares.kept ptr cell trivial, .inl rfl⟩
  | @walks name rest heap _ _ _ _ spares opens =>
    have walk := @entry_outcome machine fatPrivate (describing machine heap) items name rest
      (describing_kept (spares.kept _ _ trivial found)) (describing_noNull (spares.noNull noNull))
    generalize fat16GetDirectoryEntry machine fatPrivate (describing machine heap) name rest = walked
      at opens walk
    generalize resolved : resolveAt machine fatPrivate (describing machine heap).calls
      (slots machine fatPrivate.rootDirectory.total items) name rest = result at walk
    cases walk with
    | faults fault => cases opens
    | ends ends =>
      exact (opens.apart ends fun ptr cell => spares.kept ptr cell trivial).mono fun ample =>
        resolveAt_whole ample resolved

theorem fopen_fresh {fd : Int} (ample : Ample machine.allocator)
    (volume : kernel.rootDisk.fsPrivate = some fatPrivate) (noNull : kernel.heap.lookup 0 = none)
    (found : kernel.heap.lookup fatPrivate.rootDirectory.item = some (.directoryItems items))
    (done : fopen machine kernel filename modeStr = .ok (fd, kernel')) : OpenedFresh kernel kernel' := by
  obtain ⟨noNull, kept, same | ⟨slot, desc, record, descriptor, item, free, table, new, index, fs, fresh,
    entry⟩⟩ := fopen_apart volume noNull found done
  · exact ⟨noNull, kept, .inl same⟩
  · exact ⟨noNull, kept, .inr ⟨slot, desc, record, descriptor, item, free, table, new, index, fs, fresh,
      fun file => entry file (.inl ample)⟩⟩

/-- **The handle an `fopen` has returned** is that of an item of the type its walk has ended in, which shows
what the walk has found or has a null pointer. -/
theorem fopen_handle {fd : Int} (volume : kernel.rootDisk.fsPrivate = some fatPrivate)
    (noNull : kernel.heap.lookup 0 = none)
    (found : kernel.heap.lookup fatPrivate.rootDirectory.item = some (.directoryItems items))
    (done : fopen machine kernel filename modeStr = .ok (fd, kernel')) (positive : 0 < fd) :
    ∃ name rest arrived calls record descriptor item, Walks machine kernel filename modeStr name rest ∧
      resolveAt machine fatPrivate (kernel.heap.calls + 2 * rest.length + 4)
        (slots machine fatPrivate.rootDirectory.total items) name rest = .ok (arrived, calls) ∧
      arrived.type = some item.type ∧ Holding kernel' fd record descriptor item ∧
      record.fs = some .fat16Fs ∧
      (∀ view, arrived = .item view → ∃ footprint, Shows kernel'.heap descriptor.item view footprint) ∧
      ∀ type, arrived = .bare type → item.ref = 0 := by
  have outcome := @fopen_outcome machine kernel fatPrivate filename modeStr volume
  rw [done] at outcome
  cases outcome with
  | rejected => exact absurd positive (lt_irrefl _)
  | @walks name rest heap _ _ walks number spares opens =>
    have walk := @entry_outcome machine fatPrivate (describing machine heap) items name rest
      (describing_kept (spares.kept _ _ trivial found)) (describing_noNull (spares.noNull noNull))
    have number' : (describing machine heap).calls = kernel.heap.calls + 2 * rest.length + 4 :=
      congrArg (· + 1) number
    have described : (describing machine heap).lookup (Store.nextPtr machine.allocator heap 8) =
        some (.fatDescriptor ⟨0, 0⟩) := Store.lookup_put_self
    rw [number'] at walk
    generalize fat16GetDirectoryEntry machine fatPrivate (describing machine heap) name rest = walked
      at opens walk
    generalize resolved : resolveAt machine fatPrivate (kernel.heap.calls + 2 * rest.length + 4)
      (slots machine fatPrivate.rootDirectory.total items) name rest = result at walk
    cases opens with
    | nothing => exact absurd positive (lt_irrefl _)
    | full => exact absurd positive (lt_irrefl _)
    | @opened item desc later slot nonnull _ _ desc_nonnull absent =>
      cases walk with
      | @ends _ _ arrived ends =>
        obtain ⟨-, -, footprint, reached, is_fresh, -⟩ := ends
        obtain ⟨member, fatItem, record, type⟩ := reached.typed nonnull
        have fresh := (is_fresh item member).resolve_left List.not_mem_nil
        have apart : item ≠ Store.nextPtr machine.allocator heap 8 :=
          (Store.ne_of_absent described fresh).symm
        refine ⟨name, rest, arrived, _, _, _, fatItem, walks, resolved, type,
          opened_holding record apart desc_nonnull absent, rfl, fun view same => ?_, fun type same => ?_⟩
        · subst same
          cases reached with
          | item shows =>
            refine ⟨footprint, shows.frame fun place member => ?_⟩
            obtain ⟨cell, found⟩ := shows.present place member
            have fresh := (is_fresh place member).resolve_left List.not_mem_nil
            have apart : place ≠ Store.nextPtr machine.allocator heap 8 :=
              (Store.ne_of_absent described fresh).symm
            have kept := (@Store.lookup_put_ne _ later _ _ (.fatDescriptor ⟨item, 0⟩) apart).trans found
            rw [found]
            exact (Store.lookup_put_ne (Store.ne_of_absent kept absent)).trans kept
        · subst same
          cases reached with
          | bare record' =>
            cases record.symm.trans record'
            rfl

/-- An `fopen` whose walk ends at an item opens a handle, if a slot is free. -/
theorem fopen_of_walk {slot : Fin maxFiledescriptors} {name : Text} {rest : List Text}
    (ample : Ample machine.allocator) (volume : kernel.rootDisk.fsPrivate = some fatPrivate)
    (noNull : kernel.heap.lookup 0 = none)
    (found : kernel.heap.lookup fatPrivate.rootDirectory.item = some (.directoryItems items))
    (walks : Walks machine kernel filename modeStr name rest) (something : arrived ≠ .nothing)
    (resolved : resolveAt machine fatPrivate (kernel.heap.calls + 2 * rest.length + 4)
      (slots machine fatPrivate.rootDirectory.total items) name rest = .ok (arrived, calls))
    (free : freeSlot kernel.filedescriptors = some slot) :
    ∃ kernel', fopen machine kernel filename modeStr = .ok ((slot : Int) + 1, kernel') := by
  have outcome := @fopen_outcome machine kernel fatPrivate filename modeStr volume
  generalize fopen machine kernel filename modeStr = result at outcome ⊢
  cases outcome with
  | refused missing => exact absurd (path_granted filename _ ample) missing
  | diverges _ start endless =>
    rw [(walks.parts start).2] at endless
    cases endless
  | rejected _ none => exact absurd walks (none _ _)
  | @walks name' rest' heap _ _ walks' number spares opens =>
    obtain ⟨rfl, rfl⟩ := walks'.unique walks
    have walk := @entry_outcome machine fatPrivate (describing machine heap) items name rest
      (describing_kept (spares.kept _ _ trivial found)) (describing_noNull (spares.noNull noNull))
    have number' : (describing machine heap).calls = kernel.heap.calls + 2 * rest.length + 4 :=
      congrArg (· + 1) number
    rw [number', resolved] at walk
    generalize fat16GetDirectoryEntry machine fatPrivate (describing machine heap) name rest = walked
      at opens walk
    cases walk with
    | ends ends =>
      have noNull' := ends.noNull
      obtain ⟨footprint, reached, -⟩ := ends.reached
      cases opens with
      | nothing =>
        obtain rfl := reached.nothing_of_null noNull'
        exact absurd rfl something
      | full _ full =>
        rw [free] at full
        cases full
      | refused _ _ missing => exact absurd (ample _ _ (by decide)) missing
      | opened _ free' =>
        cases free.symm.trans free'
        exact ⟨_, rfl⟩

/-- **An `fopen` of a regular file** opens a handle on a regular file. -/
theorem fopen_regular {fd : Int} {name : Text} {rest : List Text} {entry : FatDirectoryItem}
    (volume : kernel.rootDisk.fsPrivate = some fatPrivate) (noNull : kernel.heap.lookup 0 = none)
    (found : kernel.heap.lookup fatPrivate.rootDirectory.item = some (.directoryItems items))
    (walks : Walks machine kernel filename modeStr name rest)
    (arrives : resolveAt machine fatPrivate (kernel.heap.calls + 2 * rest.length + 4)
      (slots machine fatPrivate.rootDirectory.total items) name rest = .ok (.item (.file entry), calls))
    (done : fopen machine kernel filename modeStr = .ok (fd, kernel')) (positive : 0 < fd) :
    RegularHandle kernel' fd := by
  obtain ⟨name', rest', arrived, _, record, descriptor, item, walks', arrives', type, holding, -⟩ :=
    fopen_handle volume noNull found done positive
  obtain ⟨rfl, rfl⟩ := walks'.unique walks
  cases arrives'.symm.trans arrives
  exact ⟨record, descriptor, item, holding, (Option.some.inj type).symm⟩

/-- **An `fopen`** keeps the handles apart, and every open handle keeps its records. -/
theorem fopen_keeps {fd : Int} (volume : kernel.rootDisk.fsPrivate = some fatPrivate)
    (found : kernel.heap.lookup fatPrivate.rootDirectory.item = some (.directoryItems items))
    (hold : HandlesApart kernel) (done : fopen machine kernel filename modeStr = .ok (fd, kernel')) :
    HandlesApart kernel' ∧ ∀ other, descriptorOf kernel other ≠ 0 → Retains kernel kernel' other := by
  obtain ⟨noNull, kept, same | ⟨slot, desc, record, descriptor, item, free, table, holding, rest⟩⟩ :=
    fopen_apart volume hold.noNull found done
  · have retains (other : Int) : Retains kernel kernel' other :=
      retains_of_kept (descriptorOf_congr same) kept
    refine ⟨hold.of_moves noNull (fun other _ => (retains other).mono fun _ _ _ => trivial)
      fun ptr record found => ?_, fun other _ => retains other⟩
    rw [descriptorOf_congr same]
    rcases fopen_adds hold.noNull done found with old | ⟨slot, free, table⟩
    · exact hold.listed ptr record old
    · have at_slot := congrFun (same.symm.trans table) slot
      rw [setSlot_self, (freeSlot_free free).1] at at_slot
      rw [← at_slot, noNull] at found
      cases found
  · obtain ⟨index, fs, fresh, entry⟩ := rest
    have empty := (freeSlot_free free).1
    refine ⟨hold.insert noNull kept table holding index fs fresh
      (fun file some_ref => entry file (.inr some_ref)) (fun ptr record found => ?_) empty,
      fun other nonnull => retains_of_kept ?_ kept⟩
    · refine (fopen_adds hold.noNull done found).imp_right ?_
      rintro ⟨slot', free', table'⟩
      cases free.symm.trans free'
      have at_slot := congrFun (table'.symm.trans table) slot
      rw [setSlot_self, setSlot_self] at at_slot
      exact at_slot
    · refine descriptorOf_elsewhere table ?_
      rintro rfl
      exact nonnull ((descriptorOf_slot slot).trans empty)

/-- **An `fopen`** keeps the invariant, and every open handle keeps its records. -/
theorem fopen_retains {fd : Int} (ample : Ample machine.allocator)
    (volume : kernel.rootDisk.fsPrivate = some fatPrivate)
    (found : kernel.heap.lookup fatPrivate.rootDirectory.item = some (.directoryItems items))
    (holdings : Holdings kernel) (done : fopen machine kernel filename modeStr = .ok (fd, kernel')) :
    Holdings kernel' ∧ ∀ other, descriptorOf kernel other ≠ 0 → Retains kernel kernel' other := by
  obtain ⟨hold, retains⟩ := fopen_keeps volume found holdings.apart done
  refine ⟨hold.holdings fun {fd record descriptor item} holding file => ?_, retains⟩
  by_cases before : descriptorOf kernel fd = 0
  · -- The handle is the new one.
    rcases (fopen_fresh ample volume holdings.noNull found done).table with same |
      ⟨slot, desc, _, _, _, -, table, new, -, -, -, entry⟩
    · exact absurd ((descriptorOf_congr same).trans before) holding.nonnull
    · have place : fd = (slot : Int) + 1 := by
        by_contra other
        have nonnull := holding.nonnull
        rw [descriptorOf_elsewhere table other] at nonnull
        exact nonnull before
      subst place
      obtain ⟨-, -, rfl⟩ := new.unique holding
      exact (entry file).2
  · obtain ⟨pos, -, old⟩ := holdings.apart.before (retains fd before) holding
    obtain ⟨entry, copy⟩ := (holdings.of_holding old).2.2 file
    obtain ⟨_, -, -, kept⟩ := (retains fd before).records old
    exact ⟨entry, kept file entry copy⟩

end Open

end KernelPlay
