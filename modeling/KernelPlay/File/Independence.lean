/-
**Independence of handles.**

Every call on a mounted volume goes through the same three streams, the same table and the same root
directory, and leaves the streams where it stopped: `Performs` is one call with the streams anywhere.
`Interleaves` — the calls that may come between those on one regular file. `handles_independent` — each
call on that file returns what it returns when nothing comes between, and delivers the same bytes.
-/

import KernelPlay.Fat.Streams
import KernelPlay.File.Holdings
import KernelPlay.File.Seek

namespace KernelPlay

open KernelPlay.Library

/-! ### Calls -/

/-- A call of `fs/file.c`. -/
inductive FileOp
  | fopen (filename modeStr : CString)
  | fseek (fd offset : Int) (whence : Nat)
  | fread (out : Nat → UInt8) (size nmemb : Nat) (fd : Int)
  | fstat (fd : Int)
  | fclose (fd : Int)

/-- What it returns. -/
inductive Answer
  | handle (fd : Int)
  | status (res : Int)
  | read (read : FileRead)
  | stat (res : Int) (stat : Option FileStat)

/-- The handle it is called on. -/
def FileOp.handle : FileOp → Option Int
  | .fopen .. => none
  | .fseek fd .. | .fread _ _ _ fd | .fstat fd | .fclose fd => some fd

def FileOp.closes : FileOp → Bool
  | .fclose _ => true
  | _ => false

section Code

variable (machine : Machine) (kernel : Kernel)

def perform : FileOp → Except Fault (Answer × Kernel)
  | .fopen filename modeStr =>
    (fopen machine kernel filename modeStr).map fun result => (.handle result.1, result.2)
  | .fseek fd offset whence =>
    (fseek machine kernel fd offset whence).map fun result => (.status result.1, result.2)
  | .fread out size nmemb fd =>
    (fread machine kernel out size nmemb fd).map fun read => (.read read, kernel)
  | .fstat fd => (fstat machine kernel fd).map fun result => (.stat result.1 result.2, kernel)
  | .fclose fd => (fclose machine kernel fd).map fun result => (.status result.1, result.2)

/-- The kernel with the streams of its volume at these positions. -/
def Kernel.reposition (positions : StreamPositions) : Kernel :=
  { kernel with
    rootDisk := { kernel.rootDisk with
      fsPrivate := kernel.rootDisk.fsPrivate.map fun fatPrivate => fatPrivate.reposition positions } }

end Code

theorem reposition_self {kernel : Kernel} {fatPrivate : FatPrivate}
    (volume : kernel.rootDisk.fsPrivate = some fatPrivate) :
    kernel.reposition fatPrivate.positions = kernel := by
  obtain ⟨heap, filesystems, filedescriptors, ⟨id, filesystem, fsPrivate⟩⟩ := kernel
  cases volume
  show Kernel.mk heap filesystems filedescriptors
    ⟨id, filesystem, some (fatPrivate.reposition fatPrivate.positions)⟩ = _
  rw [reposition_positions]

/-- **One call**, wherever those before it have left the streams. -/
def Performs (machine : Machine) (kernel : Kernel) (event : FileOp × Answer) (kernel' : Kernel) : Prop :=
  ∃ positions, perform machine (kernel.reposition positions) event.1 = .ok (event.2, kernel')

/-! ### Paths and handles -/

section Paths

variable (machine : Machine) (fatPrivate : FatPrivate)

/-- The slots of the directories of a volume that names without dots lead to. -/
inductive DirectorySlots (root : List FatDirectoryItem) : List FatDirectoryItem → Prop
  | top : DirectorySlots root root
  | within {slots : List FatDirectoryItem} {name : Text} {entry : FatDirectoryItem}
      {loaded : LoadedDirectory} : DirectorySlots root slots → slotNamed slots name = some entry →
      ¬ Dotted name.chars → entry.IsDirectory → loadView machine fatPrivate entry = .ok (some loaded) →
      DirectorySlots root (loaded.slots machine)

/-- **All directories load** without error. -/
def DirectoriesLoad (root : List FatDirectoryItem) : Prop :=
  ∀ slots name entry, DirectorySlots machine fatPrivate root slots → slotNamed slots name = some entry →
    ¬ Dotted name.chars → entry.IsDirectory →
    ∀ call, ∃ loaded, loadAt machine fatPrivate entry call = .ok (some loaded)

/-- **The path exists** below the directory with these slots, and has no `.` or `..`. -/
inductive PathExists : List FatDirectoryItem → Text → List Text → Prop
  | last {slots : List FatDirectoryItem} {name : Text} {entry : FatDirectoryItem} :
      slotNamed slots name = some entry → ¬ Dotted name.chars → PathExists slots name []
  | next {slots : List FatDirectoryItem} {name further : Text} {rest : List Text}
      {entry : FatDirectoryItem} {loaded : LoadedDirectory} :
      slotNamed slots name = some entry → ¬ Dotted name.chars → entry.IsDirectory →
      loadView machine fatPrivate entry = .ok (some loaded) →
      PathExists (loaded.slots machine) further rest → PathExists slots name (further :: rest)

/-- The name of a file or directory of the volume. -/
def NamesExisting (root : List FatDirectoryItem) (filename : CString) : Prop :=
  ∃ p name rest, pathStart filename = some (0, p) ∧
    components filename memoryTurns p = some (name :: rest) ∧ PathExists machine fatPrivate root name rest

end Paths

/-- **The calls that may come between**: those on the handle but a close, an `fopen` of a path that
exists, and any on another regular file. -/
inductive Interleaves (machine : Machine) (fatPrivate : FatPrivate) (root : List FatDirectoryItem) (fd : Int)
    (kernel : Kernel) : FileOp → Prop
  | own {op : FileOp} : op.handle = some fd → op.closes = false →
      Interleaves machine fatPrivate root fd kernel op
  | opens {filename : CString} (modeStr : CString) : NamesExisting machine fatPrivate root filename →
      Interleaves machine fatPrivate root fd kernel (.fopen filename modeStr)
  | other {op : FileOp} {other : Int} : op.handle = some other → other ≠ fd → RegularHandle kernel other →
      Interleaves machine fatPrivate root fd kernel op

/-- A run of such calls. -/
abbrev InterleavedRun (machine : Machine) (fatPrivate : FatPrivate) (root : List FatDirectoryItem)
    (fd : Int) : Kernel → List (FileOp × Answer) → Kernel → Prop :=
  Run (Guarded (fun kernel event => Interleaves machine fatPrivate root fd kernel event.1) (Performs machine))

/-- The call is on the handle. -/
def onHandle (fd : Int) (event : FileOp × Answer) : Bool := event.1.handle == some fd

/-- **The handle is independent of all others**: the calls on it alone get the same answers as among the
others, however the streams stand; and no call that may come between goes wrong. -/
structure Independent (machine : Machine) (fatPrivate : FatPrivate) (root : List FatDirectoryItem)
    (kernel : Kernel) (fd : Int) : Prop where
  alone : ∀ events last, InterleavedRun machine fatPrivate root fd kernel events last →
    ∃ last', Run (Performs machine) kernel (events.filter (onHandle fd)) last'
  same : ∀ events last own last', InterleavedRun machine fatPrivate root fd kernel events last →
    Run (Performs machine) kernel own last' →
    own.map Prod.fst = (events.filter (onHandle fd)).map Prod.fst → own = events.filter (onHandle fd)
  returns : ∀ events last op positions, InterleavedRun machine fatPrivate root fd kernel events last →
    Interleaves machine fatPrivate root fd last op →
    ∃ answer last', perform machine (last.reposition positions) op = .ok (answer, last')

/-! ### States of a run -/

/-- The volume is mounted with its root directory in memory, and the handles are in order. -/
structure Running (fatPrivate : FatPrivate) (items : List FatDirectoryItem) (kernel : Kernel) : Prop where
  holdings : Holdings kernel
  volume : ∃ positions, kernel.rootDisk.fsPrivate = some (fatPrivate.reposition positions)
  found : kernel.heap.lookup fatPrivate.rootDirectory.item = some (.directoryItems items)
  unowned : Unowned kernel.heap fatPrivate.rootDirectory.item

/-- The call works on the descriptor of the handle. -/
def FileOp.Reaches (machine : Machine) (kernel : Kernel) (op : FileOp) (fd : Int) : Prop :=
  ∃ other, op.handle = some other ∧ fileGetDescriptor machine kernel other = descriptorOf kernel fd

section Steps

variable {machine : Machine} {fatPrivate : FatPrivate} {items : List FatDirectoryItem}
  {kernel kernel' : Kernel} {positions : StreamPositions} {op : FileOp} {answer : Answer} {fd : Int}

theorem holding_reposition {record : FileDescriptor} {descriptor : FatFileDescriptor} {item : FatItem} :
    Holding (kernel.reposition positions) fd record descriptor item ↔
      Holding kernel fd record descriptor item :=
  ⟨fun held => ⟨held.nonnull, held.handle, held.described, held.shown⟩,
    fun held => ⟨held.nonnull, held.handle, held.described, held.shown⟩⟩

theorem regularHandle_reposition :
    RegularHandle (kernel.reposition positions) fd ↔ RegularHandle kernel fd := by
  constructor
  · rintro ⟨record, descriptor, item, holding, file⟩
    exact ⟨record, descriptor, item, holding_reposition.mp holding, file⟩
  · rintro ⟨record, descriptor, item, holding, file⟩
    exact ⟨record, descriptor, item, holding_reposition.mpr holding, file⟩

theorem Running.reposition (running : Running fatPrivate items kernel) (positions : StreamPositions) :
    Running fatPrivate items (kernel.reposition positions) := by
  obtain ⟨⟨noNull, held, listed, shared, entries⟩, ⟨before, volume⟩, found, unowned⟩ := running
  refine ⟨⟨noNull, fun fd nonnull => ?_, listed, fun one other => ?_, fun one other => ?_⟩, ⟨positions, ?_⟩,
    found, unowned⟩
  · obtain ⟨record, descriptor, item, holding, rest⟩ := held fd nonnull
    exact ⟨record, descriptor, item, holding_reposition.mpr holding, rest⟩
  · exact shared (holding_reposition.mp one) (holding_reposition.mp other)
  · exact entries (holding_reposition.mp one) (holding_reposition.mp other)
  · show kernel.rootDisk.fsPrivate.map _ = _
    rw [volume]
    rfl

/-- A call is a step. -/
theorem perform_step (done : perform machine kernel op = .ok (answer, kernel')) :
    ∃ call, Step machine kernel call kernel' := by
  cases op with
  | fopen filename modeStr =>
    rw [perform] at done
    obtain ⟨⟨fd, last⟩, opens, same⟩ := map_ok_iff.mp done
    cases same
    exact ⟨.fopen filename modeStr fd, opens⟩
  | fseek fd offset whence =>
    obtain ⟨⟨res, last⟩, seeks, same⟩ := map_ok_iff.mp done
    cases same
    exact ⟨.fseek fd offset whence res, seeks⟩
  | fread out size nmemb fd =>
    obtain ⟨read, reads, same⟩ := map_ok_iff.mp done
    cases same
    exact ⟨.fread out size nmemb fd read.res, ⟨read, reads, rfl⟩, rfl⟩
  | fstat fd =>
    obtain ⟨⟨res, stat⟩, stats, same⟩ := map_ok_iff.mp done
    cases same
    exact ⟨.fstat fd res, ⟨stat, stats⟩, rfl⟩
  | fclose fd =>
    obtain ⟨⟨res, last⟩, closes, same⟩ := map_ok_iff.mp done
    cases same
    exact ⟨.fclose fd res, closes⟩

/-- What the calls that change something keep, every call keeps, and with it the records of an open handle
it does not reach. -/
theorem perform_retains_of {Kept : Kernel → Prop} (kept : Kept kernel)
    (opens : ∀ {filename modeStr fd later}, fopen machine kernel filename modeStr = .ok (fd, later) →
      Kept later ∧ ∀ other, descriptorOf kernel other ≠ 0 → Retains kernel later other)
    (seeks : ∀ {fd offset whence res later}, fseek machine kernel fd offset whence = .ok (res, later) →
      Kept later ∧ ∀ other, fileGetDescriptor machine kernel fd ≠ descriptorOf kernel other →
        Retains kernel later other)
    (closes : ∀ {fd res later}, fclose machine kernel fd = .ok (res, later) →
      Kept later ∧ ∀ other, fileGetDescriptor machine kernel fd ≠ descriptorOf kernel other →
        Retains kernel later other)
    (done : perform machine kernel op = .ok (answer, kernel')) :
    Kept kernel' ∧ ∀ other, descriptorOf kernel other ≠ 0 → ¬ op.Reaches machine kernel other →
      Retains kernel kernel' other := by
  have unchanged (other : Int) : Retains kernel kernel other := retains_of_kept rfl fun _ _ => id
  cases op with
  | fopen filename modeStr =>
    rw [perform] at done
    obtain ⟨⟨fd, last⟩, opened, same⟩ := map_ok_iff.mp done
    cases same
    obtain ⟨keeps, retains⟩ := opens opened
    exact ⟨keeps, fun other nonnull _ => retains other nonnull⟩
  | fseek fd offset whence =>
    obtain ⟨⟨res, last⟩, sought, same⟩ := map_ok_iff.mp done
    cases same
    obtain ⟨keeps, retains⟩ := seeks sought
    exact ⟨keeps, fun other _ apart => retains other fun same => apart ⟨fd, rfl, same⟩⟩
  | fread out size nmemb fd =>
    obtain ⟨read, -, same⟩ := map_ok_iff.mp done
    cases same
    exact ⟨kept, fun other _ _ => unchanged other⟩
  | fstat fd =>
    obtain ⟨_, -, same⟩ := map_ok_iff.mp done
    cases same
    exact ⟨kept, fun other _ _ => unchanged other⟩
  | fclose fd =>
    obtain ⟨⟨res, last⟩, closed, same⟩ := map_ok_iff.mp done
    cases same
    obtain ⟨keeps, retains⟩ := closes closed
    exact ⟨keeps, fun other _ apart => retains other fun same => apart ⟨fd, rfl, same⟩⟩

/-- A call keeps the handles in order, and an open one it does not reach keeps its records. -/
theorem perform_retains (ample : Ample machine.allocator) (running : Running fatPrivate items kernel)
    (done : perform machine kernel op = .ok (answer, kernel')) :
    Holdings kernel' ∧ ∀ other, descriptorOf kernel other ≠ 0 → ¬ op.Reaches machine kernel other →
      Retains kernel kernel' other := by
  obtain ⟨positions, volume⟩ := running.volume
  exact perform_retains_of running.holdings (fopen_retains ample volume running.found running.holdings)
    (fseek_retains running.holdings) (fclose_retains running.holdings) done

/-- A call keeps the volume and its root directory. -/
theorem perform_volume (noNull : kernel.heap.lookup 0 = none)
    (volume : ∃ positions, kernel.rootDisk.fsPrivate = some (fatPrivate.reposition positions))
    (found : kernel.heap.lookup fatPrivate.rootDirectory.item = some (.directoryItems items))
    (unowned : Unowned kernel.heap fatPrivate.rootDirectory.item)
    (done : perform machine kernel op = .ok (answer, kernel')) :
    (∃ positions, kernel'.rootDisk.fsPrivate = some (fatPrivate.reposition positions)) ∧
      kernel'.heap.lookup fatPrivate.rootDirectory.item = some (.directoryItems items) ∧
      Unowned kernel'.heap fatPrivate.rootDirectory.item := by
  obtain ⟨call, step⟩ := perform_step done
  obtain ⟨positions, volume⟩ := volume
  refine ⟨⟨positions, ?_⟩, (step_spares noNull step).unowned _ items found unowned⟩
  rw [step_rootDisk volume step]
  exact volume

/-- **One call** keeps the volume running. -/
theorem Running.step (ample : Ample machine.allocator) (running : Running fatPrivate items kernel)
    (done : perform machine kernel op = .ok (answer, kernel')) : Running fatPrivate items kernel' := by
  obtain ⟨volume, found, unowned⟩ :=
    perform_volume running.holdings.noNull running.volume running.found running.unowned done
  exact ⟨(perform_retains ample running done).1, volume, found, unowned⟩

end Steps

/-! ### Calls on a regular file -/

/-- The handle is open on a regular file with the entry, at the position. -/
def FileAt (kernel : Kernel) (fd : Int) (entry : FatDirectoryItem) (pos : Nat) : Prop :=
  ∃ record item ref, Holding kernel fd record ⟨item, pos⟩ ⟨ref, .file⟩ ∧
    kernel.heap.lookup ref = some (.directoryItem entry)

section Files

variable {machine : Machine} {fatPrivate : FatPrivate} {items : List FatDirectoryItem}
  {kernel kernel' : Kernel} {op : FileOp} {fd : Int} {entry : FatDirectoryItem} {pos : Nat}

theorem RegularHandle.fileAt (holdings : Holdings kernel) (regular : RegularHandle kernel fd) :
    ∃ entry pos, FileAt kernel fd entry pos := by
  obtain ⟨record, ⟨item, pos⟩, ⟨ref, type⟩, holding, file⟩ := regular
  obtain ⟨-, -, copied⟩ := holdings.of_holding holding
  obtain ⟨entry, found⟩ := copied file
  obtain rfl : type = .file := file
  exact ⟨entry, pos, record, item, ref, holding, found⟩

theorem FileAt.regular (file : FileAt kernel fd entry pos) : RegularHandle kernel fd := by
  obtain ⟨record, item, ref, holding, -⟩ := file
  exact ⟨record, _, _, holding, rfl⟩

theorem FileAt.nonnull (file : FileAt kernel fd entry pos) : descriptorOf kernel fd ≠ 0 := by
  obtain ⟨_, _, _, holding, -⟩ := file
  exact holding.nonnull

/-- A handle that keeps its records is open on the same file. -/
theorem FileAt.retained (file : FileAt kernel fd entry pos) (retains : Retains kernel kernel' fd) :
    FileAt kernel' fd entry pos := by
  obtain ⟨record, item, ref, holding, found⟩ := file
  obtain ⟨_, rfl, held, kept⟩ := retains.records holding
  exact ⟨record, item, ref, held, kept rfl entry found⟩

theorem fileAt_reposition {positions : StreamPositions} :
    FileAt (kernel.reposition positions) fd entry pos ↔ FileAt kernel fd entry pos := by
  constructor
  · rintro ⟨record, item, ref, holding, found⟩
    exact ⟨record, item, ref, holding_reposition.mp holding, found⟩
  · rintro ⟨record, item, ref, holding, found⟩
    exact ⟨record, item, ref, holding_reposition.mpr holding, found⟩

theorem descriptorOf_positive (nonnull : descriptorOf kernel fd ≠ 0) : 1 ≤ fd := by
  by_contra outside
  exact nonnull (descriptorOf_outside fun inside => outside inside.1)

/-- The handle of any slot but the last one's is open as the calls see it. -/
theorem FileAt.openFile (hold : HandlesApart kernel) (volume : kernel.rootDisk.fsPrivate = some fatPrivate)
    (notLast : fd ≠ maxFiledescriptors) (file : FileAt kernel fd entry pos) :
    OpenFile machine kernel fd fatPrivate entry pos := by
  obtain ⟨record, item, ref, holding, found⟩ := file
  obtain ⟨-, fs, -⟩ := hold.of_holding holding
  have positive := descriptorOf_positive holding.nonnull
  refine ⟨positive, volume, record, item, ref, ?_⟩
  rw [fileGetDescriptor_eq positive notLast]
  exact ⟨holding.nonnull, holding.handle, fs, holding.described, holding.shown, found⟩

theorem OpenFile.fileAt (notLast : fd ≠ maxFiledescriptors)
    (file : OpenFile machine kernel fd fatPrivate entry pos) : FileAt kernel fd entry pos := by
  obtain ⟨positive, -, record, item, ref, opened⟩ := file
  rw [fileGetDescriptor_eq positive notLast] at opened
  obtain ⟨nonnull, handle, -, described, shown, found⟩ := opened
  exact ⟨record, item, ref, ⟨nonnull, handle, described, shown⟩, found⟩

theorem fat16ReadElements_returns {drive : Drive} {start : Int} {size : Nat}
    (spc : fatPrivate.header.sectorsPerCluster ≠ 0) :
    ∀ (left : Nat) (offset : Int) (place : Nat) (out : Nat → UInt8),
      ∃ read, fat16ReadElements fatPrivate drive start size left offset place out = .ok read := by
  intro left
  induction left with
  | zero => exact fun _ _ out => ⟨⟨ok, out, []⟩, rfl⟩
  | succ left ih =>
    intro offset place out
    obtain ⟨read, result, -⟩ := fat16ReadInternalV2_spec drive spc start offset (int32 size)
    by_cases failed : read.res = ok
    · obtain ⟨rest, returns⟩ := ih (int32 (offset + size)) (place + size) (overwrite out place read.out)
      rw [fat16ReadElements_succ result failed, returns]
      exact ⟨_, rfl⟩
    · rw [fat16ReadElements_fails result failed]
      exact ⟨_, rfl⟩

/-- An `fstat` of a regular file. -/
theorem fstat_eq (file : OpenFile machine kernel fd fatPrivate entry pos) :
    fstat machine kernel fd = .ok (ok, some
      ⟨if entry.attributeByte ||| fatFileReadOnly ≠ 0 then fileStatReadOnly else 0x00, entry.filesize⟩) := by
  obtain ⟨record, item, ref, nonnull, handle, fs, described, shown, found⟩ := file.opened
  have is_file : ¬ (FatItemType.file ≠ .file) := not_not.mpr rfl
  unfold fstat fat16Stat
  dsimp only
  rw [if_neg nonnull, deref_eq fileDescriptorKind handle, ok_bind, descFs, fs]
  dsimp only
  rw [ok_bind, deref_eq fatDescriptorKind described, ok_bind, deref_eq fatItemKind shown, ok_bind]
  dsimp only
  rw [if_neg is_file, deref_eq directoryItemKind found, ok_bind]
  rfl

/-- An `fread` of nothing. -/
theorem fread_empty {out : Nat → UInt8} {size nmemb : Nat} (empty : size = 0 ∨ nmemb = 0) :
    fread machine kernel out size nmemb fd = .ok ⟨-einvarg, out, []⟩ :=
  if_pos (empty.imp_right .inl)

/-- The calls refuse the handle of the last slot. -/
theorem last_answers (own : op.handle = some (maxFiledescriptors : Int)) (stays : op.closes = false) :
    ∃ answer, ∀ kernel, perform machine kernel op = .ok (answer, kernel) := by
  have closed {kernel : Kernel} : ClosedHandle machine kernel maxFiledescriptors :=
    closedHandle_of_null (by decide) fileGetDescriptor_last
  cases op with
  | fopen => cases own
  | fclose => cases stays
  | fseek fd offset whence =>
    cases own
    refine ⟨.status (-eio), fun kernel => ?_⟩
    rw [perform, closed.fseek]
    rfl
  | fread out size nmemb fd =>
    cases own
    by_cases empty : size = 0 ∨ nmemb = 0
    · refine ⟨.read ⟨-einvarg, out, []⟩, fun kernel => ?_⟩
      rw [perform, fread_empty empty]
      rfl
    · refine ⟨.read ⟨-eio, out, []⟩, fun kernel => ?_⟩
      rw [perform, closed.fread out size nmemb (by omega) (by omega)]
      rfl
  | fstat fd =>
    cases own
    refine ⟨.stat (-eio) none, fun kernel => ?_⟩
    rw [perform, closed.fstat]
    rfl

/-- A call on a handle that the calls see open. -/
theorem open_answers (spc : fatPrivate.header.sectorsPerCluster ≠ 0) (own : op.handle = some fd)
    (stays : op.closes = false) (notLast : fd ≠ maxFiledescriptors) (entry : FatDirectoryItem) (pos : Nat) :
    ∃ answer pos', ∀ kernel positions,
      OpenFile machine kernel fd (fatPrivate.reposition positions) entry pos →
      ∃ kernel', perform machine kernel op = .ok (answer, kernel') ∧ FileAt kernel' fd entry pos' := by
  cases op with
  | fopen => cases own
  | fclose => cases stays
  | fseek fd' offset whence =>
    cases own
    refine ⟨.status (seekResult entry.filesize.toNat pos offset whence).1,
      (seekResult entry.filesize.toNat pos offset whence).2, fun kernel positions file => ?_⟩
    obtain ⟨kernel', seeks, moved⟩ := @fseek_moves machine _ _ _ _ _ file offset whence
    refine ⟨kernel', ?_, moved.fileAt notLast⟩
    rw [perform, seeks]
    rfl
  | fread out size nmemb fd' =>
    cases own
    by_cases empty : size = 0 ∨ nmemb = 0
    · refine ⟨.read ⟨-einvarg, out, []⟩, pos, fun kernel positions file =>
        ⟨kernel, ?_, file.fileAt notLast⟩⟩
      rw [perform, fread_empty empty]
      rfl
    · obtain ⟨read, delivers⟩ := @fat16ReadElements_returns fatPrivate machine.drive
        (fat16GetFirstCluster entry) size spc nmemb (int32 pos) 0 out
      refine ⟨.read read, pos, fun kernel positions file => ⟨kernel, ?_, file.fileAt notLast⟩⟩
      rw [perform, fread_eq file (by omega) (by omega), fat16ReadElements_reposition, delivers]
      rfl
  | fstat fd' =>
    cases own
    refine ⟨.stat ok (some ⟨if entry.attributeByte ||| fatFileReadOnly ≠ 0 then fileStatReadOnly else 0x00,
      entry.filesize⟩), pos, fun kernel positions file => ⟨kernel, ?_, file.fileAt notLast⟩⟩
    rw [perform, fstat_eq file]
    rfl

/-- **What a call on a regular file returns** is decided by the entry and the position of its handle. -/
theorem file_answers (spc : fatPrivate.header.sectorsPerCluster ≠ 0) (own : op.handle = some fd)
    (stays : op.closes = false) (entry : FatDirectoryItem) (pos : Nat) :
    ∃ answer pos', ∀ kernel, Running fatPrivate items kernel → FileAt kernel fd entry pos →
      ∃ kernel', perform machine kernel op = .ok (answer, kernel') ∧ FileAt kernel' fd entry pos' := by
  by_cases last : fd = maxFiledescriptors
  · subst last
    obtain ⟨answer, answers⟩ := @last_answers machine op own stays
    exact ⟨answer, pos, fun kernel _ file => ⟨kernel, answers kernel, file⟩⟩
  · obtain ⟨answer, pos', answers⟩ := @open_answers machine fatPrivate op fd spc own stays last entry pos
    refine ⟨answer, pos', fun kernel running file => ?_⟩
    obtain ⟨positions, volume⟩ := running.volume
    exact answers kernel positions (file.openFile running.holdings.apart volume last)

/-- An `fclose` of a regular file returns. -/
theorem fclose_returns (holdings : Holdings kernel) (file : FileAt kernel fd entry pos) :
    ∃ res kernel', fclose machine kernel fd = .ok (res, kernel') := by
  by_cases last : fd = maxFiledescriptors
  · subst last
    have closed : ClosedHandle machine kernel maxFiledescriptors :=
      closedHandle_of_null (by decide) fileGetDescriptor_last
    exact ⟨_, _, closed.fclose⟩
  obtain ⟨record, item, ref, holding, found⟩ := file
  obtain ⟨index, fs, -⟩ := holdings.of_holding holding
  have positive := descriptorOf_positive holding.nonnull
  have opened : OpenHandle machine kernel fd (descriptorOf kernel fd) :=
    openHandle_of_record positive (fileGetDescriptor_eq positive last) holding.nonnull holding.handle index fs
  obtain ⟨record', handle', -, -, -, -, closes⟩ := opened.calls
  obtain rfl : record' = record :=
    Cell.fileDescriptor.inj (Option.some.inj (handle'.symm.trans holding.handle))
  have shows : Shows kernel.heap item (.file entry) [item, ref] := .file holding.shown found
  obtain ⟨cleared, frees, -, others⟩ := fat16Close_frees holding.described shows
  have outside : descriptorOf kernel fd ∉ record'.privateData :: [item, ref] := by
    have apart := Store.ne_of_lookup holding.handle holding.described nofun
    simpa [apart] using shows.own holding.handle id
  have still : cleared.lookup (descriptorOf kernel fd) = some (.fileDescriptor record') :=
    (others _ outside).trans holding.handle
  rw [closes, frees, ok_bind]
  dsimp only
  rw [if_neg (not_not.mpr rfl)]
  unfold fileDescriptorFree
  dsimp only
  rw [deref_eq fileDescriptorKind still, ok_bind, kheapFree_eq fileDescriptorKind still, ok_bind]
  exact ⟨_, _, rfl⟩

end Files

/-! ### `fopen` of a path that exists -/

section Open

variable {machine : Machine} {fatPrivate : FatPrivate} {items root entries : List FatDirectoryItem}
  {kernel : Kernel} {filename modeStr : CString} {name : Text} {rest : List Text}

/-- **The walk of a path that exists** ends at an item. -/
theorem PathExists.arrives (ample : Ample machine.allocator) (loads : DirectoriesLoad machine fatPrivate root)
    (path : PathExists machine fatPrivate entries name rest) :
    DirectorySlots machine fatPrivate root entries → ∀ call, ∃ entry view calls,
      slotNamed entries name = some entry ∧
      (arrivedAt machine fatPrivate entry call >>= fun found =>
        walkAt machine fatPrivate (call + requestsAt machine entry call) found rest) =
        .ok (.item view, calls) := by
  induction path with
  | @last slots name entry named plain =>
    intro at_slots call
    rw [named]
    by_cases directory : entry.IsDirectory
    · obtain ⟨loaded, load⟩ := loads slots name entry at_slots named plain directory (call + 1)
      refine ⟨entry, .directory loaded, call + requestsAt machine entry call, rfl, ?_⟩
      rw [arrivedAt_directory (ample _ _ (by decide)) directory (ample _ _ (by decide)), load]
      rfl
    · refine ⟨entry, .file entry, call + requestsAt machine entry call, rfl, ?_⟩
      rw [arrivedAt_file (ample _ _ (by decide)) directory, if_pos (ample _ _ (by decide))]
      rfl
  | @next slots name further rest entry loaded named plain directory view _ ih =>
    intro at_slots call
    obtain ⟨loaded', load⟩ := loads slots name entry at_slots named plain directory (call + 1)
    have record : machine.allocator.grants (call + 1) 16 = true := ample _ _ (by decide)
    have same := (@loadAt_or_none machine fatPrivate entry (call + 1) record).resolve_right
      (by rw [load]; exact nofun)
    rw [view, load] at same
    cases same
    obtain ⟨target, shown, calls, named', walks⟩ :=
      ih (.within at_slots named plain directory view) (call + requestsAt machine entry call)
    refine ⟨entry, shown, calls, named, ?_⟩
    rw [arrivedAt_directory (ample _ _ (by decide)) directory record, load]
    show walkAt machine fatPrivate _ (.item (.directory loaded)) (further :: rest) = _
    rw [walkAt, named']
    exact walks

theorem fopen_returns (ample : Ample machine.allocator) (running : Running fatPrivate items kernel)
    (loads : DirectoriesLoad machine fatPrivate (slots machine fatPrivate.rootDirectory.total items))
    (names : NamesExisting machine fatPrivate (slots machine fatPrivate.rootDirectory.total items) filename) :
    ∃ fd kernel', fopen machine kernel filename modeStr = .ok (fd, kernel') := by
  obtain ⟨positions, volume⟩ := running.volume
  obtain ⟨p, name, rest, start, parts, path⟩ := names
  have outcome := @fopen_outcome machine kernel _ filename modeStr volume
  generalize fopen machine kernel filename modeStr = result at outcome ⊢
  cases outcome with
  | refused missing => exact absurd (path_granted filename _ ample) missing
  | diverges _ start' endless =>
    cases start.symm.trans start'
    rw [parts] at endless
    cases endless
  | rejected => exact ⟨_, _, rfl⟩
  | @walks name' rest' heap _ _ walks _ spares opens =>
    cases parts.symm.trans (walks.parts start).2
    have walk := @entry_outcome machine (fatPrivate.reposition positions) (describing machine heap) items name
      rest (describing_kept (spares.kept _ _ trivial running.found))
      (describing_noNull (spares.noNull running.holdings.noNull))
    obtain ⟨entry, view, calls, named, arrives⟩ :=
      path.arrives ample loads .top (describing machine heap).calls
    have ends : resolveAt machine (fatPrivate.reposition positions) (describing machine heap).calls
        (slots machine fatPrivate.rootDirectory.total items) name rest = .ok (.item view, calls) := by
      rw [resolveAt_reposition, resolveAt_granted named (ample _ _ (by decide)), arrives]
    rw [show (fatPrivate.reposition positions).rootDirectory = fatPrivate.rootDirectory from rfl, ends] at walk
    generalize fat16GetDirectoryEntry machine (fatPrivate.reposition positions) (describing machine heap) name
      rest = walked at opens walk
    cases walk with
    | ends =>
      cases opens with
      | nothing => exact ⟨_, _, rfl⟩
      | full => exact ⟨_, _, rfl⟩
      | refused _ _ missing => exact absurd (ample _ _ (by decide)) missing
      | opened => exact ⟨_, _, rfl⟩

end Open

/-! ### Independence -/

section Independence

variable {machine : Machine} {fatPrivate : FatPrivate} {items : List FatDirectoryItem}
  {before start kernel kernel' : Kernel} {op : FileOp} {answer : Answer} {fd other : Int}
  {events : List (FileOp × Answer)}

/-- A call on another open handle does not reach the handle. -/
theorem other_apart (holdings : Holdings kernel) (nonnull : descriptorOf kernel fd ≠ 0)
    (regular : RegularHandle kernel other) (differ : other ≠ fd) (handle : op.handle = some other) :
    ¬ op.Reaches machine kernel fd := by
  rintro ⟨reached, handle', same⟩
  cases handle.symm.trans handle'
  obtain ⟨record, descriptor, item, holding, -⟩ := regular
  by_cases last : other = maxFiledescriptors
  · rw [last, fileGetDescriptor_last] at same
    exact nonnull same.symm
  · rw [fileGetDescriptor_eq (descriptorOf_positive holding.nonnull) last] at same
    obtain ⟨record', descriptor', item', holding', index, -⟩ := holdings.held fd nonnull
    have handle := holding.handle
    rw [same, holding'.handle, Option.some.injEq, Cell.fileDescriptor.injEq] at handle
    apply differ
    rw [← (holdings.of_holding holding).1, ← handle, index]

/-- The handle is open on the same file in both kernels, at the same position. -/
def SameFile (fatPrivate : FatPrivate) (items : List FatDirectoryItem) (fd : Int) (kernel alone : Kernel) :
    Prop :=
  Running fatPrivate items kernel ∧ Running fatPrivate items alone ∧
    ∃ entry pos, FileAt kernel fd entry pos ∧ FileAt alone fd entry pos

theorem Interleaves.reposition {root : List FatDirectoryItem}
    (between : Interleaves machine fatPrivate root fd kernel op) (positions : StreamPositions) :
    Interleaves machine fatPrivate root fd (kernel.reposition positions) op := by
  cases between with
  | own handle stays => exact .own handle stays
  | opens modeStr names => exact .opens modeStr names
  | other handle differ regular => exact .other handle differ (regularHandle_reposition.mpr regular)

/-- A call that comes between leaves the file of the handle as it is. -/
theorem interleaves_retains {root : List FatDirectoryItem} (ample : Ample machine.allocator)
    (running : Running fatPrivate items kernel) (nonnull : descriptorOf kernel fd ≠ 0)
    (between : Interleaves machine fatPrivate root fd kernel op) (foreign : op.handle ≠ some fd)
    (done : Performs machine kernel (op, answer) kernel') :
    Running fatPrivate items kernel' ∧ Retains kernel kernel' fd := by
  obtain ⟨positions, performs⟩ := done
  have running' := running.reposition positions
  refine ⟨running'.step ample performs, ?_⟩
  have apart : ¬ op.Reaches machine (kernel.reposition positions) fd := by
    cases between with
    | own handle => exact absurd handle foreign
    | opens =>
      rintro ⟨_, none, -⟩
      cases none
    | other handle differ regular =>
      exact other_apart running'.holdings nonnull (regularHandle_reposition.mpr regular) differ handle
  have retains := (perform_retains ample running' performs).2 fd nonnull apart
  exact ⟨retains.slot, fun holding => retains.records (holding_reposition.mpr holding)⟩

/-- What comes between leaves the handle open. -/
theorem Interleaves.stays {root : List FatDirectoryItem}
    (between : Interleaves machine fatPrivate root fd kernel op) (own : op.handle = some fd) :
    op.closes = false := by
  cases between with
  | own _ stays => exact stays
  | opens => rfl
  | other handle differ =>
    cases handle.symm.trans own
    exact absurd rfl differ

/-- A call on the handle gets the same answer in both kernels. -/
theorem sameFile_answers (ample : Ample machine.allocator) (spc : fatPrivate.header.sectorsPerCluster ≠ 0)
    {alone : Kernel} (same : SameFile fatPrivate items fd kernel alone) (own : op.handle = some fd)
    (stays : op.closes = false) (done : Performs machine kernel (op, answer) kernel')
    (positions : StreamPositions) :
    ∃ alone', perform machine (alone.reposition positions) op = .ok (answer, alone') ∧
      SameFile fatPrivate items fd kernel' alone' := by
  obtain ⟨running, running_alone, entry, pos, file, file_alone⟩ := same
  obtain ⟨before, performs⟩ := done
  have running := running.reposition before
  have running_alone := running_alone.reposition positions
  obtain ⟨answer', pos', answers⟩ :=
    @file_answers machine fatPrivate items op fd spc own stays entry pos
  obtain ⟨after, performs', moved⟩ := answers _ running (fileAt_reposition.mpr file)
  obtain ⟨alone', performs_alone, moved_alone⟩ := answers _ running_alone (fileAt_reposition.mpr file_alone)
  cases performs'.symm.trans performs
  exact ⟨alone', performs_alone, running.step ample performs, running_alone.step ample performs_alone, entry,
    pos', moved, moved_alone⟩

/-- A volume just mounted is running, with no handle open. -/
theorem running_start (quiet : Quiet before) (mount : fat16Resolve machine before = .ok (0, start))
    (volume : start.rootDisk.fsPrivate = some fatPrivate)
    (found : start.heap.lookup fatPrivate.rootDirectory.item = some (.directoryItems items)) :
    Running fatPrivate items start := by
  have quiet' := mount_quiet quiet mount
  have empty (fd : Int) : descriptorOf start fd = 0 := by
    unfold descriptorOf
    split_ifs
    · exact quiet'.table _
    · rfl
  have unlisted (ptr : Ptr) (cell : Cell) (record : start.heap.lookup ptr = some cell) :
      (∀ record, cell ≠ .fileDescriptor record) ∧ ∀ directory, cell ≠ .fatDirectory directory := by
    rcases quiet'.records ptr cell record with lasting | ⟨items, rfl⟩
    · constructor
      · rintro record rfl
        exact lasting
      · rintro directory rfl
        exact lasting
    · exact ⟨nofun, nofun⟩
  refine ⟨⟨quiet'.noNull, fun fd nonnull => absurd (empty fd) nonnull, fun ptr record found => ?_,
    fun one => absurd (empty _) one.nonnull, fun one => absurd (empty _) one.nonnull⟩,
    ⟨fatPrivate.positions, volume⟩, found, fun owner directory record => ?_⟩
  · exact absurd rfl ((unlisted ptr _ found).1 record)
  · exact absurd rfl ((unlisted owner _ record).2 directory)

/-- It keeps running. -/
theorem running_run (ample : Ample machine.allocator) (run : Run (Performs machine) start events kernel)
    (running : Running fatPrivate items start) : Running fatPrivate items kernel :=
  run.preserves (fun _ _ _ running step => by
    obtain ⟨positions, performs⟩ := step
    exact (running.reposition positions).step ample performs) running

/-- The calls that come between, undone: those on the handle, from a kernel with the same file, get the
same answers. -/
theorem interleaved_unwinds {root : List FatDirectoryItem} {alone : Kernel} (ample : Ample machine.allocator)
    (clusters : fatPrivate.header.sectorsPerCluster ≠ 0)
    (run : InterleavedRun machine fatPrivate root fd start events kernel)
    (same : SameFile fatPrivate items fd start alone) :
    ∃ alone', Run (Performs machine) alone (events.filter (onHandle fd)) alone' ∧
      SameFile fatPrivate items fd kernel alone' := by
  refine run.unwinds (fun same step foreign => ?_) (fun same step own => ?_) same
  · obtain ⟨between, performs⟩ := step
    obtain ⟨running, running_alone, entry, pos, file, file_alone⟩ := same
    have foreign := by simpa [onHandle] using foreign
    obtain ⟨running', retains⟩ := interleaves_retains ample running file.nonnull between foreign performs
    exact ⟨running', running_alone, entry, pos, file.retained retains, file_alone⟩
  · obtain ⟨between, performs⟩ := step
    have own := by simpa [onHandle] using own
    obtain ⟨alone', performs', same'⟩ :=
      sameFile_answers ample clusters same own (between.stays own) performs ⟨0, 0, 0⟩
    exact ⟨alone', ⟨_, performs'⟩, same'⟩

/-- The calls on the handle among them do not close it. -/
theorem onHandle_stays {root : List FatDirectoryItem}
    (run : InterleavedRun machine fatPrivate root fd start events kernel) :
    ∀ event ∈ events.filter (onHandle fd), event.1.handle = some fd ∧ event.1.closes = false := by
  intro event member
  obtain ⟨member, own⟩ := List.mem_filter.mp member
  have own : event.1.handle = some fd := by simpa [onHandle] using own
  exact ⟨own, run.labels_meet (fun step => step.1.stays) event member own⟩

/-- Two runs of the same calls on the handle, from kernels with the same file, get the same answers. -/
theorem own_runs_agree {own own' : List (FileOp × Answer)} {alone last last' : Kernel}
    (ample : Ample machine.allocator) (clusters : fatPrivate.header.sectorsPerCluster ≠ 0)
    (same : SameFile fatPrivate items fd start alone) (run : Run (Performs machine) start own last)
    (run' : Run (Performs machine) alone own' last')
    (stays : ∀ event ∈ own, event.1.handle = some fd ∧ event.1.closes = false)
    (requests : own.map Prod.fst = own'.map Prod.fst) : own = own' := by
  refine @Run.agrees _ _ (Performs machine) _ Prod.fst
    (fun op : FileOp => op.handle = some fd ∧ op.closes = false) (SameFile fatPrivate items fd)
    (fun same asked one one' request => ?_) _ _ _ run _ _ _ same run' stays requests
  obtain ⟨positions, performs⟩ := one'
  rw [← request] at performs
  obtain ⟨alone', performs', same'⟩ :=
    sameFile_answers ample clusters same asked.1 asked.2 one positions
  rw [performs', Except.ok.injEq, Prod.mk.injEq] at performs
  obtain ⟨answers, rfl⟩ := performs
  exact ⟨Prod.ext request answers, same'⟩

/-- A call that may come between does not go wrong. -/
theorem interleaves_returns (ample : Ample machine.allocator)
    (clusters : fatPrivate.header.sectorsPerCluster ≠ 0) (running : Running fatPrivate items kernel)
    (loads : DirectoriesLoad machine fatPrivate (slots machine fatPrivate.rootDirectory.total items))
    (regular : RegularHandle kernel fd)
    (between : Interleaves machine fatPrivate (slots machine fatPrivate.rootDirectory.total items) fd kernel
      op) :
    ∃ answer kernel', perform machine kernel op = .ok (answer, kernel') := by
  have answered {other : Int} (own : op.handle = some other) (stays : op.closes = false)
      (regular : RegularHandle kernel other) :
      ∃ answer kernel', perform machine kernel op = .ok (answer, kernel') := by
    obtain ⟨entry, pos, file⟩ := regular.fileAt running.holdings
    obtain ⟨answer, _, answers⟩ := @file_answers machine fatPrivate items op other clusters own stays entry pos
    obtain ⟨kernel', performs, -⟩ := answers _ running file
    exact ⟨answer, kernel', performs⟩
  cases between with
  | own own stays => exact answered own stays regular
  | opens modeStr names =>
    obtain ⟨handle, kernel', opens⟩ := @fopen_returns _ _ _ _ _ modeStr ample running loads names
    refine ⟨.handle handle, kernel', ?_⟩
    rw [perform, opens]
    rfl
  | @other _ other own differ regular =>
    cases op with
    | fclose =>
      cases own
      obtain ⟨entry, pos, file⟩ := regular.fileAt running.holdings
      obtain ⟨res, kernel', closes⟩ := @fclose_returns machine _ _ _ _ running.holdings file
      refine ⟨.status res, kernel', ?_⟩
      rw [perform, closes]
      rfl
    | _ => exact answered own rfl regular

/-- **Independence of handles.** In every state reached from a mount, with memory for every record, a
handle open on a regular file is independent of all others. -/
theorem handles_independent (ample : Ample machine.allocator) (quiet : Quiet before)
    (mount : fat16Resolve machine before = .ok (0, start))
    (volume : start.rootDisk.fsPrivate = some fatPrivate)
    (clusters : fatPrivate.header.sectorsPerCluster ≠ 0)
    (found : start.heap.lookup fatPrivate.rootDirectory.item = some (.directoryItems items))
    (loads : DirectoriesLoad machine fatPrivate (slots machine fatPrivate.rootDirectory.total items))
    (reached : Run (Performs machine) start events kernel) (regular : RegularHandle kernel fd) :
    Independent machine fatPrivate (slots machine fatPrivate.rootDirectory.total items) kernel fd := by
  have running := running_run ample reached (running_start quiet mount volume found)
  obtain ⟨entry, pos, file⟩ := regular.fileAt running.holdings
  have same : SameFile fatPrivate items fd kernel kernel := ⟨running, running, entry, pos, file, file⟩
  refine ⟨fun events last run => ?_, fun events last own last' run own_run requests => ?_,
    fun events last op positions run between => ?_⟩
  · obtain ⟨alone, own_run, -⟩ := interleaved_unwinds ample clusters run same
    exact ⟨alone, own_run⟩
  · obtain ⟨alone, filtered, -⟩ := interleaved_unwinds ample clusters run same
    exact (own_runs_agree ample clusters same filtered own_run (onHandle_stays run) requests.symm).symm
  · obtain ⟨alone, -, running, -, entry, pos, file, -⟩ := interleaved_unwinds ample clusters run same
    exact interleaves_returns ample clusters (running.reposition positions) loads
      (fileAt_reposition.mpr file).regular (between.reposition positions)

end Independence

/-! ### The small tree -/

section Small

variable {fatPrivate : FatPrivate} {entries : List FatDirectoryItem}

/-- Its only directory with a name without dots is `D`. -/
theorem tree_directory {name : Text} {entry : FatDirectoryItem}
    (among : entries = rootEntries ∨ entries = subEntries) (named : slotNamed entries name = some entry)
    (plain : ¬ Dotted name.chars) (directory : entry.IsDirectory) : entry = namedEntry 68 0x10 2 := by
  have only : ∀ entry ∈ rootEntries, entry = namedEntry 68 0x10 2 := by decide
  have leaves : ∀ entry ∈ subEntries, entry.IsDirectory →
      Dotted (fat16GetFullRelativeFilename entry) := by
    decide
  have member := List.mem_of_find?_eq_some named
  have same : entry.Named name.chars := by simpa using List.find?_some named
  rcases among with rfl | rfl
  · exact only entry member
  · exact absurd (same.dotted (leaves entry member directory)) plain

/-- Its slots hold `.`, `..` and `F`. -/
theorem tree_loaded_slots (mounted : Mounted treeMachine.drive fatPrivate) :
    ∃ loaded, loadView treeMachine fatPrivate (namedEntry 68 0x10 2) = .ok (some loaded) ∧
      loaded.slots treeMachine = subEntries := by
  have header : fatPrivate.header = smallHeader := mounted.header.trans tree_header
  obtain ⟨loaded, load, loads⟩ := @loadView_of_stored treeMachine fatPrivate _ _ mounted
    (header ▸ tree_stored)
  refine ⟨loaded, load, ?_⟩
  rw [LoadedDirectory.slots, loads.slots]
  decide

theorem tree_slots (mounted : Mounted treeMachine.drive fatPrivate)
    (reached : DirectorySlots treeMachine fatPrivate rootEntries entries) :
    entries = rootEntries ∨ entries = subEntries := by
  induction reached with
  | top => exact .inl rfl
  | within _ named plain directory view ih =>
    obtain ⟨loaded, load, slots_eq⟩ := tree_loaded_slots mounted
    rw [tree_directory ih named plain directory, load] at view
    cases view
    exact .inr slots_eq

/-- Both load without error. -/
theorem tree_loads (mounted : Mounted treeMachine.drive fatPrivate) :
    DirectoriesLoad treeMachine fatPrivate rootEntries := by
  intro entries name entry reached named plain directory call
  obtain ⟨loaded, load, -⟩ := tree_loaded_slots mounted
  refine ⟨loaded, ?_⟩
  rw [tree_directory (tree_slots mounted reached) named plain directory, loadAt_roomy fun _ _ => rfl]
  exact load

/-- The path `D/F` exists, and its walk ends at the file. -/
theorem tree_path (mounted : Mounted treeMachine.drive fatPrivate) :
    PathExists treeMachine fatPrivate rootEntries pathD [pathF] ∧
      ∀ call, ∃ calls, resolveAt treeMachine fatPrivate call rootEntries pathD [pathF] =
        .ok (.item (.file (namedEntry 70 0 0)), calls) := by
  obtain ⟨loaded, load, slots_eq⟩ := tree_loaded_slots mounted
  have at_root : slotNamed rootEntries pathD = some (namedEntry 68 0x10 2) := by decide
  have at_sub : slotNamed (loaded.slots treeMachine) pathF = some (namedEntry 70 0 0) := by
    rw [slots_eq]
    decide
  have directory : (namedEntry 68 0x10 2).IsDirectory := by decide
  have plain : ¬ (namedEntry 70 0 0).IsDirectory := by decide
  constructor
  · exact .next at_root (by decide) directory load (.last at_sub (by decide))
  · intro call
    rw [resolveAt_granted at_root rfl, arrivedAt_directory rfl directory rfl, loadAt_roomy fun _ _ => rfl, load]
    show ∃ calls, walkAt treeMachine fatPrivate _ (.item (.directory loaded)) [pathF] = .ok (_, calls)
    rw [walkAt, at_sub]
    dsimp only
    rw [arrivedAt_file rfl plain]
    exact ⟨_, rfl⟩

/-- The volume mounted, with every slot free. -/
theorem tree_mount :
    ∃ start fatPrivate items, fat16Resolve treeMachine bootKernel = .ok (0, start) ∧
      Mounted treeMachine.drive fatPrivate ∧ Filled fatPrivate start 0 ∧
      start.heap.lookup fatPrivate.rootDirectory.item = some (.directoryItems items) ∧
      slots treeMachine fatPrivate.rootDirectory.total items = rootEntries := by
  obtain ⟨start, fatPrivate, mount, mounted, ⟨filesystem, volume, holds, noNull, -⟩⟩ := filled_start
  obtain ⟨items, found, same⟩ := slots_of_holds treeMachine holds
  refine ⟨start, fatPrivate, items, mount, mounted, ⟨filesystem, volume, holds, noNull, fun slot => ?_⟩, found,
    same.trans (by decide)⟩
  refine ⟨fun taken => ?_, fun below => absurd below (Nat.not_lt_zero _)⟩
  exact absurd ((mount_quiet bootKernel_quiet mount).table slot) taken

/-- The handle `fopen` returns for `D/F`. -/
theorem handles_independent_tree :
    ∃ start fatPrivate items kernel, fat16Resolve treeMachine bootKernel = .ok (0, start) ∧
      NamesExisting treeMachine fatPrivate (slots treeMachine fatPrivate.rootDirectory.total items)
        treePath ∧
      Run (Performs treeMachine) start [(.fopen treePath readMode, .handle 1)] kernel ∧
      Independent treeMachine fatPrivate (slots treeMachine fatPrivate.rootDirectory.total items) kernel 1 := by
  obtain ⟨start, fatPrivate, items, mount, mounted, filled, found, same⟩ := tree_mount
  have volume := filled.volume
  have header : fatPrivate.header = smallHeader := mounted.header.trans tree_header
  obtain ⟨kernel, opens, -⟩ := filled.opens mounted (by decide)
  have opens : fopen treeMachine start treePath readMode = .ok (1, kernel) := opens
  have run : Run (Performs treeMachine) start [(.fopen treePath readMode, .handle 1)] kernel := by
    refine .step ⟨fatPrivate.positions, ?_⟩ (.done kernel)
    rw [reposition_self volume, perform, opens]
    rfl
  obtain ⟨path, arrives⟩ := tree_path mounted
  obtain ⟨calls, arrives⟩ := arrives (start.heap.calls + 2 * [pathF].length + 4)
  have walks : Walks treeMachine start treePath readMode pathD [pathF] :=
    ⟨⟨3, treePath_start, treePath_components⟩, filled.filesystem, by decide, rfl⟩
  have regular : RegularHandle kernel 1 :=
    fopen_regular volume filled.noNull found walks (same ▸ arrives) opens Int.one_pos
  refine ⟨start, fatPrivate, items, kernel, mount,
    ⟨3, pathD, [pathF], treePath_start, treePath_components, same ▸ path⟩, run, ?_⟩
  refine handles_independent (fun _ _ _ => rfl) bootKernel_quiet mount volume ?_ found
    (same ▸ tree_loads mounted) run
    regular
  rw [header]
  decide

end Small

end KernelPlay
