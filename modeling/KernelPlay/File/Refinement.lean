/-
**The kernel's handles refine open files.**

`Represents` ties a kernel to its open files, and each sensible call returns and keeps it
(`Represents.call`). `kernel_files` — on a volume just mounted, any sequence of sensible calls is answered
without a fault, and every run that makes them, wherever the streams stand, is a run of the open files.
-/

import KernelPlay.File.OpenFiles

namespace KernelPlay

open KernelPlay.Library

/-! ### Kernels and their open files -/

section Represents

/-- The handle is open on a stored file with these bytes, at the position. -/
def IsOpen (drive : Drive) (fatPrivate : FatPrivate) (kernel : Kernel) (fd : Int) (contents : List UInt8)
    (pos : Nat) : Prop :=
  ∃ entry length, FileAt kernel fd entry pos ∧ StoredFile drive fatPrivate entry length ∧
    contents = storedBytes drive fatPrivate entry length ∧ pos ≤ contents.length

/-- **The kernel's handles are the open files**, and the last slot is free. -/
structure Represents (machine : Machine) (fatPrivate : FatPrivate) (items : List FatDirectoryItem)
    (kernel : Kernel) (files : OpenFiles) : Prop where
  running : Running fatPrivate items kernel
  filesystem : kernel.rootDisk.filesystem = some .fat16Fs
  closed : ∀ fd, files fd = none → descriptorOf kernel fd = 0
  opened : ∀ fd contents pos, files fd = some (contents, pos) →
    IsOpen machine.drive fatPrivate kernel fd contents pos
  last : ∀ fd, files fd ≠ none → fd ≠ maxFiledescriptors

variable {machine : Machine} {fatPrivate : FatPrivate} {items : List FatDirectoryItem}
  {kernel kernel' : Kernel} {files : OpenFiles} {fd : Int} {contents : List UInt8} {pos : Nat}

theorem IsOpen.nonnull (open_file : IsOpen machine.drive fatPrivate kernel fd contents pos) :
    descriptorOf kernel fd ≠ 0 := by
  obtain ⟨_, _, file, -⟩ := open_file
  exact file.nonnull

theorem IsOpen.retained (open_file : IsOpen machine.drive fatPrivate kernel fd contents pos)
    (retains : Retains kernel kernel' fd) : IsOpen machine.drive fatPrivate kernel' fd contents pos := by
  obtain ⟨entry, length, file, rest⟩ := open_file
  exact ⟨entry, length, file.retained retains, rest⟩

namespace Represents

theorem nonnull_iff (represents : Represents machine fatPrivate items kernel files) :
    descriptorOf kernel fd ≠ 0 ↔ files fd ≠ none := by
  refine ⟨fun nonnull none => nonnull (represents.closed fd none), fun some => ?_⟩
  obtain ⟨⟨contents, pos⟩, found⟩ := Option.ne_none_iff_exists'.mp some
  exact (represents.opened fd contents pos found).nonnull

/-- It does not matter where the streams stand. -/
theorem reposition (represents : Represents machine fatPrivate items kernel files)
    (positions : StreamPositions) :
    Represents machine fatPrivate items (kernel.reposition positions) files where
  running := represents.running.reposition positions
  filesystem := represents.filesystem
  closed := represents.closed
  opened fd contents pos found := by
    obtain ⟨entry, length, file, rest⟩ := represents.opened fd contents pos found
    exact ⟨entry, length, fileAt_reposition.mpr file, rest⟩
  last := represents.last

/-- The handle of an open file as the calls see it. -/
theorem openFile (represents : Represents machine fatPrivate items kernel files)
    (found : files fd = some (contents, pos)) :
    ∃ positions entry length, OpenFile machine kernel fd (fatPrivate.reposition positions) entry pos ∧
      StoredFile machine.drive fatPrivate entry length ∧
      contents = storedBytes machine.drive fatPrivate entry length ∧ pos ≤ contents.length := by
  obtain ⟨entry, length, file, rest⟩ := represents.opened fd contents pos found
  obtain ⟨positions, volume⟩ := represents.running.volume
  have notLast := represents.last fd (by rw [found]; exact Option.some_ne_none _)
  exact ⟨positions, entry, length, file.openFile represents.running.holdings.apart volume notLast, rest⟩

/-- A handle that is not open is refused by every call. -/
theorem refused (represents : Represents machine fatPrivate items kernel files) (positive : 1 ≤ fd)
    (none : files fd = none) : ClosedHandle machine kernel fd := by
  refine closedHandle_of_null positive ?_
  rcases @fileGetDescriptor_cases machine kernel fd (by omega) with null | ⟨-, -, same⟩
  · exact null
  · rw [same]
    exact represents.closed fd none

/-- **One handle changes**, and the others keep what they hold. -/
theorem update {opened : Option (List UInt8 × Nat)} (represents : Represents machine fatPrivate items kernel files)
    (running : Running fatPrivate items kernel') (disk : kernel'.rootDisk = kernel.rootDisk)
    (free : ∀ other, other ≠ fd → descriptorOf kernel other = 0 → descriptorOf kernel' other = 0)
    (retains : ∀ other, other ≠ fd → descriptorOf kernel other ≠ 0 → Retains kernel kernel' other)
    (closed : opened = none → descriptorOf kernel' fd = 0)
    (own : ∀ contents pos, opened = some (contents, pos) →
      fd ≠ maxFiledescriptors ∧ IsOpen machine.drive fatPrivate kernel' fd contents pos) :
    Represents machine fatPrivate items kernel' (Function.update files fd opened) where
  running := running
  filesystem := disk ▸ represents.filesystem
  closed other none := by
    by_cases same : other = fd
    · subst same
      rw [Function.update_self] at none
      exact closed none
    · rw [Function.update_of_ne same] at none
      exact free other same (represents.closed other none)
  opened other contents pos found := by
    by_cases same : other = fd
    · subst same
      rw [Function.update_self] at found
      exact (own contents pos found).2
    · rw [Function.update_of_ne same] at found
      have open_file := represents.opened other contents pos found
      exact open_file.retained (retains other same open_file.nonnull)
  last other some := by
    by_cases same : other = fd
    · subst same
      rw [Function.update_self] at some
      obtain ⟨⟨contents, pos⟩, found⟩ := Option.ne_none_iff_exists'.mp some
      exact (own contents pos found).1
    · rw [Function.update_of_ne same] at some
      exact represents.last other some

/-- No handle changes. -/
theorem kept (represents : Represents machine fatPrivate items kernel files)
    (running : Running fatPrivate items kernel') (disk : kernel'.rootDisk = kernel.rootDisk)
    (table : kernel'.filedescriptors = kernel.filedescriptors)
    (retains : ∀ other, descriptorOf kernel other ≠ 0 → Retains kernel kernel' other) :
    Represents machine fatPrivate items kernel' files where
  running := running
  filesystem := disk ▸ represents.filesystem
  closed other none := (descriptorOf_congr table).trans (represents.closed other none)
  opened other contents pos found := by
    have open_file := represents.opened other contents pos found
    exact open_file.retained (retains other open_file.nonnull)
  last := represents.last

end Represents

end Represents

/-! ### The calls -/

section Calls

variable {machine : Machine} {fatPrivate : FatPrivate} {items : List FatDirectoryItem} {tree : DirTree}
  {kernel kernel' : Kernel} {files : OpenFiles} {fd : Int} {contents : List UInt8} {pos : Nat}
  {filename modeStr : CString} {op : FileOp} {answer : Answer}

namespace Represents

/-- A call keeps the disk as it is. -/
theorem disk (represents : Represents machine fatPrivate items kernel files)
    (done : perform machine kernel op = .ok (answer, kernel')) : kernel'.rootDisk = kernel.rootDisk := by
  obtain ⟨positions, volume⟩ := represents.running.volume
  obtain ⟨call, step⟩ := perform_step done
  exact step_rootDisk volume step

/-- The next handle is that of the first free slot. -/
theorem freeSlot_next (represents : Represents machine fatPrivate items kernel files)
    (next : NextHandle files fd) (room : fd < maxFiledescriptors) :
    ∃ slot : Fin maxFiledescriptors, freeSlot kernel.filedescriptors = some slot ∧ fd = (slot : Int) + 1 := by
  have positive := next.positive
  have inside : (fd - 1).toNat < maxFiledescriptors := by omega
  have handle : (((⟨(fd - 1).toNat, inside⟩ : Fin maxFiledescriptors) : Nat) : Int) + 1 = fd := by
    dsimp only
    omega
  refine ⟨⟨(fd - 1).toNat, inside⟩, List.find?_eq_some_iff_getElem.mpr
    ⟨?_, (fd - 1).toNat, by simpa using inside, by simp, fun before below => ?_⟩, handle.symm⟩
  · rw [decide_eq_true_eq, ← descriptorOf_slot, handle]
    exact represents.closed fd next.free
  · have taken := next.least ((before : Int) + 1) (by omega) (by omega)
    have nonnull := represents.nonnull_iff.mpr taken
    have slot := @descriptorOf_slot kernel ⟨before, by omega⟩
    dsimp only at slot
    rw [List.getElem_finRange]
    simpa [← slot] using nonnull

/-- **A call on an open handle** that empties no other slot keeps the other files. -/
theorem update_own (ample : Ample machine.allocator) {opened : Option (List UInt8 × Nat)}
    (represents : Represents machine fatPrivate items kernel files) (found : files fd = some (contents, pos))
    (own : op.handle = some fd) (done : perform machine kernel op = .ok (answer, kernel'))
    (free : ∀ other, other ≠ fd → descriptorOf kernel other = 0 → descriptorOf kernel' other = 0)
    (closed : opened = none → descriptorOf kernel' fd = 0)
    (moved : ∀ contents pos, opened = some (contents, pos) →
      IsOpen machine.drive fatPrivate kernel' fd contents pos) :
    Represents machine fatPrivate items kernel' (Function.update files fd opened) := by
  have running := represents.running
  obtain ⟨entry, length, file, -⟩ := represents.opened fd contents pos found
  refine represents.update (running.step ample done) (represents.disk done) free (fun other differ nonnull => ?_)
    closed fun contents' pos' after => ⟨represents.last fd (by rw [found]; exact Option.some_ne_none _), moved _ _ after⟩
  exact (perform_retains ample running done).2 other nonnull
    (other_apart running.holdings nonnull file.regular differ.symm own)

/-- The position of a handle that `fopen` has returned. -/
theorem fopen_position {record : FileDescriptor} {descriptor : FatFileDescriptor} {item : FatItem}
    (represents : Represents machine fatPrivate items kernel files)
    (done : fopen machine kernel filename modeStr = .ok (fd, kernel')) (positive : 0 < fd)
    (holding : Holding kernel' fd record descriptor item) : descriptor.pos = 0 := by
  obtain ⟨positions, volume⟩ := represents.running.volume
  have outcome := @fopen_outcome machine kernel _ filename modeStr volume
  rw [done] at outcome
  cases outcome with
  | rejected => exact absurd positive (lt_irrefl _)
  | @walks name rest heap _ _ _ _ _ opens =>
    generalize fat16GetDirectoryEntry machine (fatPrivate.reposition positions) (describing machine heap) name
      rest = walked at opens
    cases opens with
    | nothing => exact absurd positive (lt_irrefl _)
    | full => exact absurd positive (lt_irrefl _)
    | @opened item desc later slot nonnull free granted desc_nonnull absent =>
      have handle := holding.handle
      have described := holding.described
      rw [descriptorOf_inserted rfl, Store.lookup_put_self] at handle
      cases handle
      rw [Store.lookup_put_ne (Store.ne_of_absent Store.lookup_put_self absent), Store.lookup_tick,
        Store.lookup_put_self] at described
      cases described
      rfl

/-- **`fopen` of a stored file.** -/
theorem opens (ample : Ample machine.allocator) (mounted : Mounted machine.drive fatPrivate)
    (laid : LaidOut machine.drive fatPrivate.header tree)
    (root : slots machine fatPrivate.rootDirectory.total items = tree.entries)
    (represents : Represents machine fatPrivate items kernel files) (mode : getFileMode modeStr = .read)
    (file : (volumeCatalogue machine.drive fatPrivate tree).file filename contents) (next : NextHandle files fd)
    (room : fd < maxFiledescriptors) :
    ∃ kernel', perform machine kernel (.fopen filename modeStr) = .ok (.handle fd, kernel') ∧
      Represents machine fatPrivate items kernel' (Function.update files fd (some (contents, 0))) := by
  obtain ⟨p, name, rest, entry, sub, length, start, parts, leads, plain, stored, rfl⟩ := file
  have running := represents.running
  obtain ⟨positions, volume⟩ := running.volume
  obtain ⟨slot, free, rfl⟩ := represents.freeSlot_next next room
  have walks : Walks machine kernel filename modeStr name rest :=
    ⟨⟨p, start, parts⟩, represents.filesystem, mode, ample _ _ (by decide)⟩
  obtain ⟨view, calls, resolves, view_of⟩ :=
    leads.resolves ample mounted laid (kernel.heap.calls + 2 * rest.length + 4)
  obtain rfl : view = .file entry := by
    cases view_of with
    | file => rfl
    | directory directory => exact absurd directory plain
  have resolved : resolveAt machine (fatPrivate.reposition positions) (kernel.heap.calls + 2 * rest.length + 4)
      (slots machine fatPrivate.rootDirectory.total items) name rest = .ok (.item (.file entry), calls) := by
    rw [resolveAt_reposition, root, resolves]
  have something : Arrived.item (.file entry) ≠ .nothing := Arrived.noConfusion
  obtain ⟨kernel', opened⟩ :=
    fopen_of_walk ample volume running.holdings.noNull running.found walks something resolved free
  have done : perform machine kernel (.fopen filename modeStr) = .ok (.handle ((slot : Int) + 1), kernel') := by
    rw [perform, opened]
    rfl
  have positive : (0 : Int) < (slot : Int) + 1 := by omega
  -- The handle is that of the entry, at its start.
  obtain ⟨name', rest', arrived, _, record, descriptor, item, walks', resolved', -, holding, -, shows, -⟩ :=
    fopen_handle volume running.holdings.noNull running.found opened positive
  obtain ⟨rfl, rfl⟩ := walks'.unique walks
  cases resolved'.symm.trans resolved
  obtain ⟨footprint, shows⟩ := shows _ rfl
  have start_position := represents.fopen_position opened positive holding
  obtain ⟨item_ptr, pos⟩ := descriptor
  obtain rfl : pos = 0 := start_position
  have file : FileAt kernel' ((slot : Int) + 1) entry 0 := by
    cases shows with
    | @file ref _ shown copy =>
      cases holding.shown.symm.trans shown
      exact ⟨record, item_ptr, ref, holding, copy⟩
  obtain ⟨-, retains⟩ := fopen_retains ample volume running.found running.holdings opened
  have table : ∃ desc, kernel'.filedescriptors = setSlot kernel.filedescriptors slot desc := by
    obtain ⟨-, ⟨zero, -⟩ | ⟨slot', desc, _, free', -, -, table, -⟩⟩ :=
      fopen_cases running.holdings.noNull opened
    · omega
    · cases free.symm.trans free'
      exact ⟨desc, table⟩
  obtain ⟨desc, table⟩ := table
  refine ⟨kernel', done, represents.update (running.step ample done) (represents.disk done)
    (fun other differ free => (descriptorOf_elsewhere table differ).trans free)
    (fun other _ nonnull => retains other nonnull) (fun none => absurd none (Option.some_ne_none _)) ?_⟩
  rintro contents pos ⟨⟩
  exact ⟨room.ne, entry, length, file, stored, rfl, Nat.zero_le _⟩

/-- **`fopen` of a path that leads nowhere**, or for another mode. -/
theorem opensNothing (ample : Ample machine.allocator) (mounted : Mounted machine.drive fatPrivate)
    (laid : LaidOut machine.drive fatPrivate.header tree)
    (root : slots machine fatPrivate.rootDirectory.total items = tree.entries)
    (represents : Represents machine fatPrivate items kernel files) (ends : filename.Ends)
    (reason : getFileMode modeStr ≠ .read ∨ (volumeCatalogue machine.drive fatPrivate tree).nothing filename) :
    ∃ kernel', perform machine kernel (.fopen filename modeStr) = .ok (.handle 0, kernel') ∧
      Represents machine fatPrivate items kernel' files := by
  have running := represents.running
  obtain ⟨positions, volume⟩ := running.volume
  have unopened {heap : Kheap}
      (opened : KernelPlay.fopen machine kernel filename modeStr = .ok (0, { kernel with heap := heap })) :
      ∃ kernel', perform machine kernel (.fopen filename modeStr) = .ok (.handle 0, kernel') ∧
        Represents machine fatPrivate items kernel' files := by
    have done : perform machine kernel (.fopen filename modeStr) = .ok (.handle 0, { kernel with heap := heap }) := by
      rw [perform, opened]
      rfl
    obtain ⟨-, retains⟩ := fopen_retains ample volume running.found running.holdings opened
    exact ⟨_, done, represents.kept (running.step ample done) rfl rfl retains⟩
  have outcome := @fopen_outcome machine kernel _ filename modeStr volume
  generalize result_eq : KernelPlay.fopen machine kernel filename modeStr = result at outcome
  cases outcome with
  | refused missing => exact absurd (path_granted filename _ ample) missing
  | diverges _ start endless => exact absurd endless (ends _ _ start)
  | rejected => exact unopened result_eq
  | @walks name rest heap _ _ walks number spares opens =>
    obtain ⟨p, start, parts⟩ := walks.path
    have nothing := reason.resolve_left (not_not.mpr walks.mode) p name rest start parts
    have walk := @entry_outcome machine (fatPrivate.reposition positions) (describing machine heap) items name
      rest (describing_kept (spares.kept _ _ trivial running.found))
      (describing_noNull (spares.noNull running.holdings.noNull))
    obtain ⟨calls, resolved⟩ : ∃ calls, resolveAt machine (fatPrivate.reposition positions)
        (describing machine heap).calls (slots machine fatPrivate.rootDirectory.total items) name rest =
          .ok (.nothing, calls) := by
      rw [resolveAt_reposition, root]
      rcases nothing with lacks | missing
      · exact lacks.resolves ample mounted laid _
      · exact ⟨_, resolveAt_missing (slotNamed_missing missing)⟩
    rw [show (fatPrivate.reposition positions).rootDirectory = fatPrivate.rootDirectory from rfl, resolved] at walk
    generalize fat16GetDirectoryEntry machine (fatPrivate.reposition positions) (describing machine heap) name
      rest = walked at opens walk
    cases walk with
    | ends ended =>
      obtain ⟨_, reached, -⟩ := ended.reached
      cases reached
      cases opens with
      | nothing => exact unopened result_eq
      | full nonnull => exact absurd rfl nonnull
      | refused nonnull => exact absurd rfl nonnull
      | opened nonnull => exact absurd rfl nonnull

/-- **`fseek`.** -/
theorem fseek (ample : Ample machine.allocator)
    (represents : Represents machine fatPrivate items kernel files) (found : files fd = some (contents, pos))
    {offset : Int} {whence : Nat} (low : -2147483648 ≤ offset) (high : offset < 2147483648)
    (fits : SeekFits contents.length pos offset whence) (catalogue : Catalogue) :
    ∃ answer kernel' files', perform machine kernel (.fseek fd offset whence) = .ok (answer, kernel') ∧
      FileStep catalogue files (.fseek fd offset whence, answer) files' ∧
      Represents machine fatPrivate items kernel' files' := by
  obtain ⟨positions, entry, length, opened, file, rfl, inside⟩ := represents.openFile found
  have notLast := represents.last fd (by rw [found]; exact Option.some_ne_none _)
  have size := storedBytes_length file
  rw [size] at fits inside
  obtain ⟨kernel', seeks, moved⟩ := fseek_moves opened offset whence
  have done : perform machine kernel (.fseek fd offset whence) =
      .ok (.status (seekResult entry.filesize.toNat pos offset whence).1, kernel') := by
    rw [perform, seeks]
    rfl
  have table (other : Int) : descriptorOf kernel' other = descriptorOf kernel other := by
    rcases fseek_effect seeks with rfl | ⟨_, _, _, -, -, rfl⟩ <;> rfl
  have moves {pos' : Nat} (result : (seekResult entry.filesize.toNat pos offset whence).2 = pos')
      (within : pos' ≤ entry.filesize.toNat) : Represents machine fatPrivate items kernel'
        (Function.update files fd (some (storedBytes machine.drive fatPrivate entry length, pos'))) := by
    refine represents.update_own ample found rfl done (fun other _ free => (table other).trans free)
      (fun none => absurd none (Option.some_ne_none _)) ?_
    rintro contents pos ⟨⟩
    exact ⟨entry, length, result ▸ moved.fileAt notLast, file, rfl, by rw [size]; exact within⟩
  rcases seekResult_means file.size_lt inside low high fits with
    ⟨target, asks, positive, within, result⟩ | ⟨nowhere, result⟩
  · rw [result] at done moves
    exact ⟨_, kernel', _, done, .seeks found asks positive (by rw [size]; exact within), moves rfl (by omega)⟩
  · rw [result] at done moves
    refine ⟨_, kernel', files, done, .seeksNowhere found fun target asks => ?_, ?_⟩
    · rw [size]
      exact nowhere target asks
    · have same := moves rfl inside
      rwa [← found, Function.update_eq_self] at same

/-- **`fread`.** -/
theorem fread (represents : Represents machine fatPrivate items kernel files)
    (found : files fd = some (contents, pos)) {size nmemb : Nat} (some_size : 1 ≤ size)
    (some_nmemb : 1 ≤ nmemb) (inside : pos + size * nmemb ≤ contents.length) (out : Nat → UInt8)
    (catalogue : Catalogue) :
    ∃ answer, perform machine kernel (.fread out size nmemb fd) = .ok (answer, kernel) ∧
      FileStep catalogue files (.fread out size nmemb fd, answer) files := by
  obtain ⟨positions, entry, length, opened, file, rfl, -⟩ := represents.openFile found
  rw [storedBytes_length file] at inside
  obtain ⟨read, reads, succeeds, written⟩ := read_storedBytes file some_size inside out
  refine ⟨.read read, ?_, .reads found some_size some_nmemb succeeds written⟩
  rw [perform, fread_eq opened some_size some_nmemb, fat16ReadElements_reposition, reads]
  rfl

/-- **`fstat`.** -/
theorem fstat (represents : Represents machine fatPrivate items kernel files)
    (found : files fd = some (contents, pos)) (catalogue : Catalogue) :
    ∃ answer, perform machine kernel (.fstat fd) = .ok (answer, kernel) ∧
      FileStep catalogue files (.fstat fd, answer) files := by
  obtain ⟨positions, entry, length, opened, file, rfl, -⟩ := represents.openFile found
  refine ⟨_, ?_, .stats found⟩
  rw [perform, fstat_eq opened, storedBytes_length file, UInt32.ofNat_toNat]
  exact congrArg (fun flags => Except.ok (Answer.stat ok (some ⟨flags, entry.filesize⟩), kernel)) (ite_self _)

/-- **`fclose`.** -/
theorem fclose (ample : Ample machine.allocator)
    (represents : Represents machine fatPrivate items kernel files) (found : files fd = some (contents, pos))
    (catalogue : Catalogue) :
    ∃ answer kernel' files', perform machine kernel (.fclose fd) = .ok (answer, kernel') ∧
      FileStep catalogue files (.fclose fd, answer) files' ∧
      Represents machine fatPrivate items kernel' files' := by
  have running := represents.running
  obtain ⟨entry, length, file, -⟩ := represents.opened fd contents pos found
  obtain ⟨res, kernel', closes⟩ := @fclose_returns machine _ _ _ _ running.holdings file
  obtain ⟨record, item, ref, holding, -⟩ := file
  have index := (running.holdings.of_holding holding).1
  have get : fileGetDescriptor machine kernel fd = descriptorOf kernel fd :=
    fileGetDescriptor_eq (descriptorOf_positive holding.nonnull) (represents.last fd (by rw [found]; exact Option.some_ne_none _))
  obtain ⟨null, -⟩ | ⟨-, rfl, record', middle, handle, -, after⟩ := fclose_ok closes
  · exact absurd (get ▸ null) holding.nonnull
  rw [get, holding.handle, Option.some.injEq, Cell.fileDescriptor.injEq] at handle
  subst handle
  have table : kernel'.filedescriptors = setSlot kernel.filedescriptors (fd - 1) 0 := by
    rw [after, index]
  have done : perform machine kernel (.fclose fd) = .ok (.status ok, kernel') := by
    rw [perform, closes]
    rfl
  refine ⟨_, kernel', _, done, .closes found, represents.update_own ample found rfl done
    (fun other differ free => ?_) (fun _ => descriptorOf_emptied table)
    fun _ _ some => absurd some.symm (Option.some_ne_none _)⟩
  rw [descriptorOf_elsewhere table (by omega), free]

/-- **A call on a handle that is not open.** -/
theorem refuses (represents : Represents machine fatPrivate items kernel files) (positive : 1 ≤ fd)
    (none : files fd = none) (own : op.handle = some fd) (some : ¬ op.Empty) (catalogue : Catalogue) :
    perform machine kernel op = .ok (op.refusal, kernel) ∧ FileStep catalogue files (op, op.refusal) files := by
  have closed := represents.refused positive none
  refine ⟨?_, .refuses own none some⟩
  cases op with
  | fopen => cases own
  | fseek fd offset whence =>
    cases own
    rw [perform, closed.fseek]
    rfl
  | fread out size nmemb fd =>
    cases own
    obtain ⟨some_size, some_nmemb⟩ := not_or.mp some
    rw [perform, closed.fread out size nmemb (by omega) (by omega)]
    rfl
  | fstat fd =>
    cases own
    rw [perform, closed.fstat]
    rfl
  | fclose fd =>
    cases own
    rw [perform, closed.fclose]
    rfl

/-- **A sensible call** returns, as it should, and keeps the open files. -/
theorem call (ample : Ample machine.allocator) (mounted : Mounted machine.drive fatPrivate)
    (laid : LaidOut machine.drive fatPrivate.header tree)
    (root : slots machine fatPrivate.rootDirectory.total items = tree.entries)
    (represents : Represents machine fatPrivate items kernel files)
    (sensible : Sensible (volumeCatalogue machine.drive fatPrivate tree) files op) :
    ∃ answer kernel' files', perform machine kernel op = .ok (answer, kernel') ∧
      FileStep (volumeCatalogue machine.drive fatPrivate tree) files (op, answer) files' ∧
      Represents machine fatPrivate items kernel' files' := by
  have closed {fd : Int} (positive : 1 ≤ fd) (none : files fd = none) (own : op.handle = some fd)
      (some : ¬ op.Empty) :
      ∃ answer kernel' files', perform machine kernel op = .ok (answer, kernel') ∧
        FileStep (volumeCatalogue machine.drive fatPrivate tree) files (op, answer) files' ∧
        Represents machine fatPrivate items kernel' files' := by
    obtain ⟨performs, step⟩ := represents.refuses positive none own some
      (volumeCatalogue machine.drive fatPrivate tree)
    exact ⟨_, kernel, files, performs, step, represents⟩
  cases op with
  | fopen filename modeStr =>
    obtain ⟨ends, reason⟩ := sensible
    by_cases nothing : getFileMode modeStr ≠ .read ∨
        (volumeCatalogue machine.drive fatPrivate tree).nothing filename
    · obtain ⟨kernel', performs, kept⟩ := represents.opensNothing ample mounted laid root ends nothing
      exact ⟨_, kernel', files, performs, .opensNothing nothing, kept⟩
    · obtain ⟨reading, something⟩ := not_or.mp nothing
      obtain ⟨⟨contents, file⟩, fd, next, room⟩ := (reason.resolve_left reading).resolve_left something
      have mode := not_not.mp reading
      obtain ⟨kernel', performs, opened⟩ := represents.opens ample mounted laid root mode file next room
      exact ⟨_, kernel', _, performs, .opens mode file next, opened⟩
  | fseek fd offset whence =>
    obtain ⟨positive, ⟨low, high⟩, fits⟩ := sensible
    cases found : files fd with
    | none => exact closed positive found rfl id
    | some file => exact represents.fseek ample found low high (fits _ _ found) _
  | fread out size nmemb fd =>
    obtain ⟨positive, inside⟩ := sensible
    by_cases empty : size = 0 ∨ nmemb = 0
    · refine ⟨_, kernel, files, ?_, .readsNothing empty, represents⟩
      rw [perform, fread_empty empty]
      rfl
    · cases found : files fd with
      | none => exact closed positive found rfl empty
      | some file =>
        obtain ⟨answer, performs, step⟩ :=
          represents.fread found (by omega) (by omega) (inside _ _ found) out _
        exact ⟨answer, kernel, files, performs, step, represents⟩
  | fstat fd =>
    cases found : files fd with
    | none => exact closed sensible found rfl id
    | some file =>
      obtain ⟨answer, performs, step⟩ := represents.fstat found _
      exact ⟨answer, kernel, files, performs, step, represents⟩
  | fclose fd =>
    cases found : files fd with
    | none => exact closed sensible found rfl id
    | some file => exact represents.fclose ample found _

end Represents

/-- **A volume just mounted has no file open.** -/
theorem represents_start {before start : Kernel} (quiet : Quiet before)
    (mount : fat16Resolve machine before = .ok (0, start))
    (volume : start.rootDisk.fsPrivate = some fatPrivate)
    (found : start.heap.lookup fatPrivate.rootDirectory.item = some (.directoryItems items)) :
    Represents machine fatPrivate items start fun _ => none where
  running := running_start quiet mount volume found
  filesystem := by
    obtain ⟨_, filesystem, -⟩ := fat16Resolve_mounted mount
    exact filesystem
  closed fd _ := by
    unfold descriptorOf
    split_ifs
    · exact (mount_quiet quiet mount).table _
    · rfl
  opened := nofun
  last _ some := absurd rfl some

/-- **A volume with a directory tree, just mounted**, with memory for every record. -/
structure TreeMounted (machine : Machine) (start : Kernel) (fatPrivate : FatPrivate) (tree : DirTree) : Prop where
  ample : Ample machine.allocator
  mount : ∃ before, Quiet before ∧ fat16Resolve machine before = .ok (0, start)
  volume : start.rootDisk.fsPrivate = some fatPrivate
  root : RootAt machine.drive fatPrivate.header tree.entries
  laid : LaidOut machine.drive fatPrivate.header tree

section TreeMounted

variable {start : Kernel} {ops : List FileOp}

theorem TreeMounted.represents (mounted : TreeMounted machine start fatPrivate tree) :
    Mounted machine.drive fatPrivate ∧ ∃ items, slots machine fatPrivate.rootDirectory.total items = tree.entries ∧
      Represents machine fatPrivate items start fun _ => none := by
  obtain ⟨ample, ⟨before, quiet, mount⟩, volume, root, laid⟩ := mounted
  obtain ⟨_, -, volume', mounted, loaded⟩ := fat16Resolve_mounted mount
  cases volume.symm.trans volume'
  obtain ⟨items, found, same⟩ := slots_of_holds machine (loaded.holds root)
  rw [laid.once.counted, List.take_length] at same
  exact ⟨mounted, items, same, represents_start quiet mount volume found⟩

/-- Any sequence of sensible calls is answered without a fault. -/
theorem TreeMounted.answered (mounted : TreeMounted machine start fatPrivate tree)
    (sensible : AllAllowed (Sensible (volumeCatalogue machine.drive fatPrivate tree))
      (FileStep (volumeCatalogue machine.drive fatPrivate tree)) (fun _ => none) ops) :
    ∃ events kernel, events.map Prod.fst = ops ∧ Run (Performs machine) start events kernel := by
  obtain ⟨volume, items, same, begins⟩ := mounted.represents
  refine @AllAllowed.answered _ _ _ _ _ _ (Performs machine) (Represents machine fatPrivate items) _ _
    (fun {kernel files op} represents sensible => ?_) sensible start begins
  obtain ⟨answer, kernel', files', performs, step, represents'⟩ :=
    (represents.reposition ⟨0, 0, 0⟩).call mounted.ample volume mounted.laid same sensible
  exact ⟨answer, kernel', files', ⟨_, performs⟩, step, represents'⟩

/-- And every run that makes them is a run of the open files. -/
theorem TreeMounted.refines (mounted : TreeMounted machine start fatPrivate tree)
    (sensible : AllAllowed (Sensible (volumeCatalogue machine.drive fatPrivate tree))
      (FileStep (volumeCatalogue machine.drive fatPrivate tree)) (fun _ => none) ops)
    {events : List (FileOp × Answer)} (run : Run (Performs machine) start events kernel)
    (asked : events.map Prod.fst = ops) :
    ∃ files, Run (FileStep (volumeCatalogue machine.drive fatPrivate tree)) (fun _ => none) events files ∧
      ∀ fd, descriptorOf kernel fd ≠ 0 ↔ files fd ≠ none := by
  obtain ⟨volume, items, same, begins⟩ := mounted.represents
  obtain ⟨files, follows, represents⟩ := @AllAllowed.refines _ _ _ _ _ _ (Performs machine)
    (Represents machine fatPrivate items) _ _ (fun {kernel files op answer kernel'} represents sensible done => by
      obtain ⟨positions, performs⟩ := done
      obtain ⟨answer', after, files', performs', step, represents'⟩ :=
        (represents.reposition positions).call mounted.ample volume mounted.laid same sensible
      rw [performs', Except.ok.injEq, Prod.mk.injEq] at performs
      obtain ⟨rfl, rfl⟩ := performs
      exact ⟨files', step, represents'⟩) sensible start kernel events begins run asked
  exact ⟨files, follows, fun fd => represents.nonnull_iff⟩

end TreeMounted

/-- **The kernel's files.** On a volume with a directory tree just mounted, with memory for every record, any
sequence of sensible calls is answered without a fault, and every run that makes these calls, wherever each
finds the streams, is a run of the open files, which are those of the table at its end. -/
theorem kernel_files {before start : Kernel} (ample : Ample machine.allocator) (quiet : Quiet before)
    (mount : fat16Resolve machine before = .ok (0, start))
    (volume : start.rootDisk.fsPrivate = some fatPrivate)
    (root : RootAt machine.drive fatPrivate.header tree.entries)
    (laid : LaidOut machine.drive fatPrivate.header tree) {ops : List FileOp}
    (sensible : AllAllowed (Sensible (volumeCatalogue machine.drive fatPrivate tree))
      (FileStep (volumeCatalogue machine.drive fatPrivate tree)) (fun _ => none) ops) :
    (∃ events kernel, events.map Prod.fst = ops ∧ Run (Performs machine) start events kernel) ∧
      ∀ events kernel, Run (Performs machine) start events kernel → events.map Prod.fst = ops →
        ∃ files, Run (FileStep (volumeCatalogue machine.drive fatPrivate tree)) (fun _ => none) events files ∧
          ∀ fd, descriptorOf kernel fd ≠ 0 ↔ files fd ≠ none := by
  have mounted : TreeMounted machine start fatPrivate tree := ⟨ample, ⟨before, quiet, mount⟩, volume, root, laid⟩
  exact ⟨mounted.answered sensible, fun _ _ run asked => mounted.refines sensible run asked⟩

end Calls

/-! ### A file of two clusters -/

section Small

/-- `n` leads to the file `N` and to no other entry. -/
theorem note_leads_iff {entry : FatDirectoryItem} {sub : DirTree} :
    Leads noteTree pathN [] entry sub ↔ entry = noteEntry 78 2 ∧ sub = .file := by
  constructor
  · intro leads
    cases leads with
    | last member named =>
      have only : ∀ entry ∈ noteEntries, entry.Named pathN.chars → entry = noteEntry 78 2 := by
        decide
      exact ⟨only entry member named, rfl⟩
  · rintro ⟨rfl, rfl⟩
    exact .last List.mem_cons_self (by decide) (by decide)

/-- Handle 1, if it is open, is on 768 bytes, and not behind byte 500. -/
def NoteOpen (files : OpenFiles) : Prop :=
  ∀ contents pos, files 1 = some (contents, pos) → contents.length = 768 ∧ pos ≤ 500

/-- `N` is opened, read across the end of its first cluster and from its start, and closed. -/
def noteOps : List FileOp :=
  [.fopen notePath readMode, .fseek 1 500 0, .fread (fun _ => 0) 10 2 1, .fseek 1 0 0,
    .fread (fun _ => 0) 1 4 1, .fstat 1, .fclose 1]

variable {drive : Drive} {fatPrivate : FatPrivate} {files files' : OpenFiles} {answer : Answer}

/-- The file the path leads to has 768 bytes. -/
theorem note_length {contents : List UInt8}
    (file : (volumeCatalogue drive fatPrivate noteTree).file notePath contents) : contents.length = 768 := by
  obtain ⟨p, name, rest, entry, sub, length, start, parts, leads, -, stored, rfl⟩ := file
  cases notePath_start.symm.trans start
  cases notePath_components.symm.trans parts
  obtain ⟨rfl, -⟩ := note_leads_iff.mp leads
  rw [storedBytes_length stored]
  decide

theorem noteOpen_fopen (step : FileStep (volumeCatalogue drive fatPrivate noteTree) (fun _ => none)
    (.fopen notePath readMode, answer) files') : NoteOpen files' := by
  intro contents pos found
  cases step with
  | @opens _ _ stored fd _ file =>
    by_cases here : fd = 1
    · rw [here, Function.update_self] at found
      cases found
      exact ⟨note_length file, Nat.zero_le _⟩
    · rw [Function.update_of_ne (Ne.symm here)] at found
      cases found
  | opensNothing => cases found
  | refuses own => cases own

theorem noteOpen_fseek {catalogue : Catalogue} {offset : Nat} (low : offset ≤ 500) (holds : NoteOpen files)
    (step : FileStep catalogue files (.fseek 1 offset 0, answer) files') : NoteOpen files' := by
  cases step with
  | seeks found target =>
    intro contents pos found'
    rw [Function.update_self] at found'
    cases found'
    cases target
    exact ⟨(holds _ _ found).1, by omega⟩
  | seeksNowhere => exact holds
  | refuses => exact holds

theorem noteOpen_fread {catalogue : Catalogue} {out : Nat → UInt8} {size nmemb : Nat} (holds : NoteOpen files)
    (step : FileStep catalogue files (.fread out size nmemb 1, answer) files') : NoteOpen files' := by
  cases step <;> exact holds

theorem note_sensible (mounted : Mounted noteMachine.drive fatPrivate) :
    AllAllowed (Sensible (volumeCatalogue noteMachine.drive fatPrivate noteTree))
      (FileStep (volumeCatalogue noteMachine.drive fatPrivate noteTree)) (fun _ => none) noteOps := by
  have ends : notePath.Ends := by
    intro driveNo p start
    cases notePath_start.symm.trans start
    rw [notePath_components]
    exact Option.some_ne_none _
  have opens : Sensible (volumeCatalogue noteMachine.drive fatPrivate noteTree) (fun _ => none)
      (.fopen notePath readMode) :=
    ⟨ends, .inr (.inr ⟨⟨_, 3, pathN, [], _, _, 2, notePath_start, notePath_components,
      note_leads_iff.mpr ⟨rfl, rfl⟩, by decide, note_stored.remount mounted, rfl⟩, 1,
      ⟨le_rfl, rfl, fun _ _ _ => by omega⟩, by decide⟩)⟩
  have seeks {files : OpenFiles} {offset : Nat} (low : offset ≤ 500) :
      Sensible (volumeCatalogue noteMachine.drive fatPrivate noteTree) files (.fseek 1 offset 0) :=
    ⟨le_rfl, by omega, fun _ _ _ relative => absurd relative (by decide)⟩
  have reads {files : OpenFiles} {size nmemb : Nat} (short : size * nmemb ≤ 268) (holds : NoteOpen files) :
      Sensible (volumeCatalogue noteMachine.drive fatPrivate noteTree) files
        (.fread (fun _ => 0) size nmemb 1) := by
    refine ⟨le_rfl, fun contents pos found => ?_⟩
    obtain ⟨length, before⟩ := holds contents pos found
    omega
  refine .step opens fun _ _ opened => ?_
  have first := noteOpen_fopen opened
  refine .step (seeks (by decide)) fun _ _ sought => ?_
  have second := noteOpen_fseek (by decide) first sought
  refine .step (reads (by decide) second) fun _ _ read => ?_
  have third := noteOpen_fread second read
  refine .step (seeks (by decide)) fun _ _ sought' => ?_
  have fourth := noteOpen_fseek (by decide) third sought'
  refine .step (reads (by decide) fourth) fun _ _ _ => ?_
  exact .step (le_refl (1 : Int)) fun _ _ _ => .step (le_refl (1 : Int)) fun _ _ _ => .done _

theorem kernel_files_note :
    ∃ start fatPrivate events kernel files, fat16Resolve noteMachine bootKernel = .ok (0, start) ∧
      start.rootDisk.fsPrivate = some fatPrivate ∧ events.map Prod.fst = noteOps ∧
      Run (Performs noteMachine) start events kernel ∧
      Run (FileStep (volumeCatalogue noteMachine.drive fatPrivate noteTree)) (fun _ => none) events files := by
  obtain ⟨start, mount, -⟩ := note_mount
  obtain ⟨fatPrivate, -, volume, mounted, -⟩ := fat16Resolve_mounted mount
  have header : fatPrivate.header = smallHeader := mounted.header.trans note_header
  obtain ⟨⟨events, kernel, asked, run⟩, refines⟩ := kernel_files (fun _ _ _ => rfl) bootKernel_quiet mount
    volume (header ▸ note_root) (header ▸ note_laid) (note_sensible mounted)
  obtain ⟨files, follows, -⟩ := refines events kernel run asked
  exact ⟨start, fatPrivate, events, kernel, files, mount, volume, asked, run, follows⟩

end Small

end KernelPlay
