/-
**Tag discipline of the calls of `fs/file.c`.**

The calls with their reads of unions logged: `performLogged` is `perform` with the log beside it.
`Disciplined` — a call reads every union as its item's type says, and a data operation on the handle of a
directory fails without reading an entry. `disciplined_iff` — all calls are, but an `fread` of something
on such a handle; `union_tags_iff` says it of whole runs of calls on the handle an `fopen` has returned.
-/

import KernelPlay.Fat.Union
import KernelPlay.File.Independence

namespace KernelPlay

open KernelPlay.Library

section Code

variable (machine : Machine) (kernel : Kernel)

def fopenResLogged (filename modeStr : CString) : Reading (Int × Kernel) := do
  let (pathRoot, heap) := Store.zalloc machine.allocator kernel.heap 8 (.pathRoot ⟨0, []⟩)
  let (res, heap) ← pparserParsePathRoot machine filename heap pathRoot
  let kernel := { kernel with heap := heap }
  if res < 0 then return (res, kernel)
  let root ← deref pathRootKind heap pathRoot
  match root.parts with
  | [] => return (-einvarg, kernel)
  | part :: rest =>
    match diskGet root.driveNo with
    | none => return (-eio, kernel)
    | some disk =>
      match kernel.rootDisk.filesystem with
      | none => return (-eio, kernel)
      | some filesystem =>
        let mode := getFileMode modeStr
        if mode = .invalid then return (-einvarg, kernel)
        let fatPrivate ← fsPrivate kernel
        let (fdPrivate, heap) ← fat16OpenLogged machine fatPrivate heap part.name
          (rest.map PathPart.name) mode
        let kernel := { kernel with heap := heap }
        if fdPrivate = 0 then return (-eio, kernel)
        if fdPrivate < 0 then return (fdPrivate, kernel)
        let (res, desc, kernel) ← fileNewDescriptor machine kernel
        if res < 0 then return (res, kernel)
        let record ← deref fileDescriptorKind kernel.heap desc
        return (record.index,
          { kernel with
            heap := kernel.heap.put desc (.fileDescriptor
              { record with fs := filesystem, privateData := fdPrivate.toNat, disk := disk }) })

def fopenLogged (filename modeStr : CString) : Reading (Int × Kernel) := do
  let (res, kernel) ← fopenResLogged machine kernel filename modeStr
  return (if res < 0 then 0 else res, kernel)

def fseekLogged (fd offset : Int) (whence : Nat) : Reading (Int × Kernel) := do
  let desc := fileGetDescriptor machine kernel fd
  if desc = 0 then return (-eio, kernel)
  let record ← deref fileDescriptorKind kernel.heap desc
  let _ ← descFs record
  let (res, heap) ← fat16SeekLogged kernel.heap record.privateData offset whence
  return (if res ≠ ok then -eio else res, { kernel with heap := heap })

def freadLogged (out : Nat → UInt8) (size nmemb : Nat) (fd : Int) : Reading FileRead := do
  if size = 0 ∨ nmemb = 0 ∨ fd < 1 then return ⟨-einvarg, out, []⟩
  let desc := fileGetDescriptor machine kernel fd
  if desc = 0 then return ⟨-eio, out, []⟩
  let record ← deref fileDescriptorKind kernel.heap desc
  let _ ← descFs record
  let fatPrivate ← fsPrivate kernel
  fat16ReadLogged machine fatPrivate kernel.heap record.privateData size nmemb out

def fstatLogged (fd : Int) : Reading (Int × Option FileStat) := do
  let desc := fileGetDescriptor machine kernel fd
  if desc = 0 then return (-eio, none)
  let record ← deref fileDescriptorKind kernel.heap desc
  let _ ← descFs record
  fat16StatLogged kernel.heap record.privateData

def fcloseLogged (fd : Int) : Reading (Int × Kernel) := do
  let desc := fileGetDescriptor machine kernel fd
  if desc = 0 then return (-eio, kernel)
  let record ← deref fileDescriptorKind kernel.heap desc
  let _ ← descFs record
  let (res, heap) ← fat16CloseLogged kernel.heap record.privateData
  let kernel := { kernel with heap := heap }
  if res ≠ ok then return (-eio, kernel)
  let kernel ← fileDescriptorFree kernel desc
  return (res, kernel)

def performLogged : FileOp → Reading (Answer × Kernel)
  | .fopen filename modeStr => do
    let result ← fopenLogged machine kernel filename modeStr
    return (.handle result.1, result.2)
  | .fseek fd offset whence => do
    let result ← fseekLogged machine kernel fd offset whence
    return (.status result.1, result.2)
  | .fread out size nmemb fd => do
    let read ← freadLogged machine kernel out size nmemb fd
    return (.read read, kernel)
  | .fstat fd => do
    let result ← fstatLogged machine kernel fd
    return (.stat result.1 result.2, kernel)
  | .fclose fd => do
    let result ← fcloseLogged machine kernel fd
    return (.status result.1, result.2)

end Code

/-! ### The log erased -/

section Erase

variable {machine : Machine} {kernel : Kernel}

open Logged

theorem fopenRes_erases (filename modeStr : CString) :
    Erases (fopenResLogged machine kernel filename modeStr) (fopenRes machine kernel filename modeStr) := by
  unfold fopenResLogged fopenRes
  refine .lift_bind fun parsed => .branch (.pure _) (.lift_bind fun root => ?_)
  cases root.parts with
  | nil => exact .pure _
  | cons part rest =>
    dsimp only
    cases diskGet root.driveNo with
    | none => exact .pure _
    | some disk =>
      cases kernel.rootDisk.filesystem with
      | none => exact .pure _
      | some filesystem =>
        refine .branch (.pure _) (.lift_bind fun fatPrivate => .bind (open_erases _ _ _) fun opened => ?_)
        refine .branch (.pure _) (.branch (.pure _) (.lift_bind fun created => ?_))
        exact .branch (.pure _) (.lift_bind fun record => .pure _)

theorem fopen_erases (filename modeStr : CString) :
    Erases (fopenLogged machine kernel filename modeStr) (fopen machine kernel filename modeStr) :=
  .bind (fopenRes_erases filename modeStr) fun _ => .pure _

theorem fseek_erases (fd offset : Int) (whence : Nat) :
    Erases (fseekLogged machine kernel fd offset whence) (fseek machine kernel fd offset whence) := by
  refine .branch (.pure _) (.lift_bind fun record => .lift_bind fun _ => ?_)
  exact .bind (seek_erases offset whence) fun _ => .pure _

theorem fread_erases (out : Nat → UInt8) (size nmemb : Nat) (fd : Int) :
    Erases (freadLogged machine kernel out size nmemb fd) (fread machine kernel out size nmemb fd) := by
  refine .branch (.pure _) (.branch (.pure _) (.lift_bind fun record => .lift_bind fun _ => ?_))
  exact .lift_bind fun fatPrivate => read_erases size nmemb out

theorem fstat_erases (fd : Int) : Erases (fstatLogged machine kernel fd) (fstat machine kernel fd) :=
  .branch (.pure _) (.lift_bind fun _ => .lift_bind fun _ => stat_erases)

theorem fclose_erases (fd : Int) : Erases (fcloseLogged machine kernel fd) (fclose machine kernel fd) := by
  refine .branch (.pure _) (.lift_bind fun record => .lift_bind fun _ => ?_)
  exact .bind close_erases fun _ => .branch (.pure _) (.lift_bind fun _ => .pure _)

theorem map_eq_bind {α β : Type} (first : Except Fault α) (f : α → β) :
    first.map f = first >>= fun value => pure (f value) := by
  cases first with
  | error fault => rfl
  | ok value => rfl

/-- **Without the log, a call is the call.** -/
theorem perform_erases (op : FileOp) :
    Erases (performLogged machine kernel op) (perform machine kernel op) := by
  cases op with
  | fopen filename modeStr =>
    rw [performLogged, perform, map_eq_bind]
    exact .bind (fopen_erases filename modeStr) fun _ => .pure _
  | fseek fd offset whence =>
    rw [performLogged, perform, map_eq_bind]
    exact .bind (fseek_erases fd offset whence) fun _ => .pure _
  | fread out size nmemb fd =>
    rw [performLogged, perform, map_eq_bind]
    exact .bind (fread_erases out size nmemb fd) fun _ => .pure _
  | fstat fd =>
    rw [performLogged, perform, map_eq_bind]
    exact .bind (fstat_erases fd) fun _ => .pure _
  | fclose fd =>
    rw [performLogged, perform, map_eq_bind]
    exact .bind (fclose_erases fd) fun _ => .pure _

end Erase

/-! ### One call -/

/-- `fseek`, `fread` and `fstat` work on the data behind a handle. -/
def FileOp.IsData : FileOp → Prop
  | .fseek .. | .fread .. | .fstat _ => True
  | .fopen .. | .fclose _ => False

/-- An `fread` that asks for something. -/
def FileOp.ReadsSomething : FileOp → Prop
  | .fread _ size nmemb _ => size ≠ 0 ∧ nmemb ≠ 0
  | _ => False

/-- The call has returned an error. -/
def Answer.Fails : Answer → Prop
  | .handle fd => fd = 0
  | .status res | .stat res _ => res < 0
  | .read result => result.res < 0

/-- **The handle is that of a directory**, in a slot the calls find. -/
def DirectoryHandle (machine : Machine) (kernel : Kernel) (fd : Int) : Prop :=
  ∃ record descriptor item, fileGetDescriptor machine kernel fd ≠ 0 ∧
    kernel.heap.lookup (fileGetDescriptor machine kernel fd) = some (.fileDescriptor record) ∧
    record.fs = some .fat16Fs ∧
    kernel.heap.lookup record.privateData = some (.fatDescriptor descriptor) ∧
    kernel.heap.lookup descriptor.item = some (.fatItem item) ∧ item.type = .directory

/-- **The call keeps the discipline**: it reads every union as the type says, and a data operation on the
handle of a directory reads none as an entry and returns an error. -/
structure Disciplined (machine : Machine) (kernel : Kernel) (op : FileOp) : Prop where
  tagged : (performLogged machine kernel op).Meets UnionRead.Tagged
  refuses : ∀ fd, op.handle = some fd → op.IsData → DirectoryHandle machine kernel fd →
    (performLogged machine kernel op).Meets (fun read => read.member ≠ .file) ∧
    ∀ answer kernel', perform machine kernel op = .ok (answer, kernel') → answer.Fails

section Calls

variable {machine : Machine} {kernel kernel' : Kernel} {fd : Int} {op : FileOp} {answer : Answer}

open Logged

theorem fopen_tagged (filename modeStr : CString) :
    (fopenLogged machine kernel filename modeStr).Meets UnionRead.Tagged := by
  refine meets_bind ?_ fun _ _ => meets_pure _
  unfold fopenResLogged
  refine meets_lift_bind_iff.mpr fun parsed _ => meets_branch (meets_pure _) ?_
  refine meets_lift_bind_iff.mpr fun root _ => ?_
  cases root.parts with
  | nil => exact meets_pure _
  | cons part rest =>
    dsimp only
    cases diskGet root.driveNo with
    | none => exact meets_pure _
    | some disk =>
      cases kernel.rootDisk.filesystem with
      | none => exact meets_pure _
      | some filesystem =>
        refine meets_branch (meets_pure _) (meets_lift_bind_iff.mpr fun fatPrivate _ => ?_)
        refine meets_bind (open_tagged _ _ _) fun opened _ => meets_branch (meets_pure _) ?_
        refine meets_branch (meets_pure _) (meets_lift_bind_iff.mpr fun created _ => ?_)
        exact meets_branch (meets_pure _) (meets_lift_bind_iff.mpr fun record _ => meets_pure _)

theorem fseek_tagged (offset : Int) (whence : Nat) :
    (fseekLogged machine kernel fd offset whence).Meets UnionRead.Tagged := by
  refine meets_branch (meets_pure _) (meets_lift_bind_iff.mpr fun record _ => ?_)
  refine meets_lift_bind_iff.mpr fun _ _ => ?_
  exact meets_bind (seek_tagged offset whence) fun _ _ => meets_pure _

theorem fstat_tagged : (fstatLogged machine kernel fd).Meets UnionRead.Tagged := by
  refine meets_branch (meets_pure _) (meets_lift_bind_iff.mpr fun record _ => ?_)
  exact meets_lift_bind_iff.mpr fun _ _ => stat_tagged

theorem fclose_tagged : (fcloseLogged machine kernel fd).Meets UnionRead.Tagged := by
  refine meets_branch (meets_pure _) (meets_lift_bind_iff.mpr fun record _ => ?_)
  refine meets_lift_bind_iff.mpr fun _ _ => meets_bind close_tagged fun _ _ => ?_
  exact meets_branch (meets_pure _) (meets_lift_bind_iff.mpr fun _ _ => meets_pure _)

/-- **An `fread` reads the union right** exactly if it asks for nothing or not the handle of a directory. -/
theorem fread_tagged_iff (positive : 1 ≤ fd) (volume : kernel.rootDisk.fsPrivate ≠ none) {size nmemb : Nat}
    {out : Nat → UInt8} :
    (freadLogged machine kernel out size nmemb fd).Meets UnionRead.Tagged ↔
      (DirectoryHandle machine kernel fd → ¬ (size ≠ 0 ∧ nmemb ≠ 0)) := by
  obtain ⟨fatPrivate, volume⟩ := Option.ne_none_iff_exists'.mp volume
  have mounted : fsPrivate kernel = .ok fatPrivate := by
    unfold fsPrivate
    rw [volume]
  unfold freadLogged
  by_cases invalid : size = 0 ∨ nmemb = 0 ∨ fd < 1
  · rw [if_pos invalid]
    exact iff_of_true (meets_pure _) fun _ => by omega
  rw [if_neg invalid]
  dsimp only
  by_cases null : fileGetDescriptor machine kernel fd = 0
  · rw [if_pos null]
    refine iff_of_true (meets_pure _) ?_
    rintro ⟨record, descriptor, item, nonnull, -⟩
    exact absurd null nonnull
  rw [if_neg null]
  constructor
  · rintro tagged ⟨record, descriptor, item, -, handle, fs, described, shown, directory⟩ -
    have first := meets_lift_bind_iff.mp tagged record (deref_ok_iff.mpr handle)
    have found : descFs record = .ok .fat16Fs := by
      unfold descFs
      rw [fs]
    have second := meets_lift_bind_iff.mp (meets_lift_bind_iff.mp first _ found) _ mounted
    have file := fat16Read_tagged_iff.mp second descriptor item described shown
    rw [directory] at file
    cases file
  · intro plain
    refine meets_lift_bind_iff.mpr fun record handle => meets_lift_bind_iff.mpr fun filesystem fs => ?_
    refine meets_lift_bind_iff.mpr fun _ _ =>
      fat16Read_tagged_iff.mpr fun descriptor item described shown => ?_
    by_contra directory
    refine plain ⟨record, descriptor, item, null, deref_ok_iff.mp handle, ?_, described, shown, ?_⟩
      ⟨by omega, by omega⟩
    · unfold descFs at fs
      cases some : record.fs with
      | none =>
        rw [some] at fs
        cases fs
      | some filesystem => rfl
    · cases type : item.type with
      | directory => rfl
      | file => exact absurd type directory

/-- An `fseek` on the handle of a directory looks at the type and fails. -/
theorem fseek_directory (offset : Int) (whence : Nat) (directory : DirectoryHandle machine kernel fd) :
    fseekLogged machine kernel fd offset whence = pure (-eio, kernel) := by
  obtain ⟨record, descriptor, item, nonnull, handle, fs, described, shown, type⟩ := directory
  have found : descFs record = .ok .fat16Fs := by
    unfold descFs
    rw [fs]
  unfold fseekLogged fat16SeekLogged
  dsimp only
  rw [if_neg nonnull, deref_eq fileDescriptorKind handle, Logged.ok_bind, found, Logged.ok_bind,
    deref_eq fatDescriptorKind described, Logged.ok_bind, deref_eq fatItemKind shown, Logged.ok_bind, type,
    if_pos nofun, return_bind]
  rfl

theorem fstat_directory (directory : DirectoryHandle machine kernel fd) :
    fstatLogged machine kernel fd = pure (-einvarg, none) := by
  obtain ⟨record, descriptor, item, nonnull, handle, fs, described, shown, type⟩ := directory
  have found : descFs record = .ok .fat16Fs := by
    unfold descFs
    rw [fs]
  unfold fstatLogged fat16StatLogged
  dsimp only
  rw [if_neg nonnull, deref_eq fileDescriptorKind handle, Logged.ok_bind, found, Logged.ok_bind,
    deref_eq fatDescriptorKind described, Logged.ok_bind, deref_eq fatItemKind shown, Logged.ok_bind, type,
    if_pos nofun]

/-- A data operation on the handle of a directory that asks for nothing reads no union, changes nothing
and fails. -/
theorem directory_answers (own : op.handle = some fd) (data : op.IsData) (nothing : ¬ op.ReadsSomething)
    (directory : DirectoryHandle machine kernel fd) :
    ∃ answer, performLogged machine kernel op = pure (answer, kernel) ∧ answer.Fails := by
  cases op with
  | fopen filename modeStr => exact data.elim
  | fseek fd' offset whence =>
    cases own
    rw [performLogged, fseek_directory offset whence directory, return_bind]
    refine ⟨_, rfl, ?_⟩
    show (-eio : Int) < 0
    decide
  | fread out size nmemb fd' =>
    have invalid : size = 0 ∨ nmemb = 0 ∨ fd' < 1 := by
      unfold FileOp.ReadsSomething at nothing
      omega
    rw [performLogged, freadLogged, if_pos invalid, return_bind]
    refine ⟨_, rfl, ?_⟩
    show (-einvarg : Int) < 0
    decide
  | fstat fd' =>
    cases own
    rw [performLogged, fstat_directory directory, return_bind]
    refine ⟨_, rfl, ?_⟩
    show (-einvarg : Int) < 0
    decide
  | fclose fd' => exact data.elim

/-- **A call on a handle keeps the discipline** exactly if it is no `fread` of something from the handle
of a directory. -/
theorem disciplined_iff (own : op.handle = some fd) (positive : 1 ≤ fd)
    (volume : kernel.rootDisk.fsPrivate ≠ none) :
    Disciplined machine kernel op ↔ (DirectoryHandle machine kernel fd → ¬ op.ReadsSomething) := by
  have refuses (plain : DirectoryHandle machine kernel fd → ¬ op.ReadsSomething) (fd' : Int)
      (own' : op.handle = some fd') (data : op.IsData) (directory : DirectoryHandle machine kernel fd') :
      (performLogged machine kernel op).Meets (fun read => read.member ≠ .file) ∧
        ∀ answer kernel', perform machine kernel op = .ok (answer, kernel') → answer.Fails := by
    cases own.symm.trans own'
    obtain ⟨answer, answers, fails⟩ := directory_answers own data (plain directory) directory
    have result := (@perform_erases machine kernel op).result
    rw [answers] at result ⊢
    refine ⟨meets_pure _, fun answer' kernel' done => ?_⟩
    rw [← result] at done
    cases done
    exact fails
  have of_tagged (iff : (performLogged machine kernel op).Meets UnionRead.Tagged ↔
      (DirectoryHandle machine kernel fd → ¬ op.ReadsSomething)) :
      Disciplined machine kernel op ↔ (DirectoryHandle machine kernel fd → ¬ op.ReadsSomething) :=
    ⟨fun disciplined => iff.mp disciplined.tagged, fun plain => ⟨iff.mpr plain, refuses plain⟩⟩
  apply of_tagged
  cases op with
  | fopen filename modeStr => cases own
  | fseek fd' offset whence =>
    exact iff_of_true (meets_bind (fseek_tagged offset whence) fun _ _ => meets_pure _) fun _ => id
  | fread out size nmemb fd' =>
    cases own
    rw [performLogged, meets_bind_iff, and_iff_left fun _ _ => meets_pure _]
    exact fread_tagged_iff positive volume
  | fstat fd' => exact iff_of_true (meets_bind fstat_tagged fun _ _ => meets_pure _) fun _ => id
  | fclose fd' => exact iff_of_true (meets_bind fclose_tagged fun _ _ => meets_pure _) fun _ => id

end Calls

/-! ### Paths of directories -/

/-- The names lead to a directory of the volume, from the one with these slots. -/
inductive PathToDirectory (machine : Machine) (fatPrivate : FatPrivate) :
    List FatDirectoryItem → Text → List Text → Prop
  | last {slots : List FatDirectoryItem} {name : Text} {entry : FatDirectoryItem} :
      slotNamed slots name = some entry → entry.IsDirectory → PathToDirectory machine fatPrivate slots name []
  | next {slots : List FatDirectoryItem} {name further : Text} {rest : List Text} {entry : FatDirectoryItem}
      {loaded : LoadedDirectory} :
      slotNamed slots name = some entry → entry.IsDirectory →
      loadView machine fatPrivate entry = .ok (some loaded) →
      PathToDirectory machine fatPrivate (loaded.slots machine) further rest →
      PathToDirectory machine fatPrivate slots name (further :: rest)

/-- **The name of a directory** of the volume. -/
def NamesDirectory (machine : Machine) (fatPrivate : FatPrivate) (root : List FatDirectoryItem)
    (filename : CString) : Prop :=
  ∃ p name rest, pathStart filename = some (0, p) ∧
    components filename memoryTurns p = some (name :: rest) ∧ PathToDirectory machine fatPrivate root name rest

section Paths

variable {machine : Machine} {fatPrivate : FatPrivate} {slots : List FatDirectoryItem} {name further : Text}
  {rest : List Text} {entry : FatDirectoryItem} {loaded : LoadedDirectory} {arrived : Arrived}
  {call calls : Nat}

theorem pathToDirectory_last (named : slotNamed slots name = some entry) :
    PathToDirectory machine fatPrivate slots name [] ↔ entry.IsDirectory := by
  constructor
  · intro path
    cases path with
    | last named' directory =>
      cases named.symm.trans named'
      exact directory
  · exact .last named

theorem pathToDirectory_next (named : slotNamed slots name = some entry) (directory : entry.IsDirectory)
    (load : loadView machine fatPrivate entry = .ok (some loaded)) :
    PathToDirectory machine fatPrivate slots name (further :: rest) ↔
      PathToDirectory machine fatPrivate (loaded.slots machine) further rest := by
  constructor
  · intro path
    cases path with
    | next named' _ load' behind =>
      cases named.symm.trans named'
      cases load.symm.trans load'
      exact behind
  · exact .next named directory load

/-- **A walk that has ended at an item** has ended at a directory exactly if the names lead to one. By
induction on the names. -/
theorem walk_type (named : slotNamed slots name = some entry) (something : arrived ≠ .nothing)
    (walks : (arrivedAt machine fatPrivate entry call >>= fun found =>
      walkAt machine fatPrivate (call + requestsAt machine entry call) found rest) = .ok (arrived, calls)) :
    arrived.type = some .directory ↔ PathToDirectory machine fatPrivate slots name rest := by
  induction rest generalizing slots name entry call with
  | nil =>
    obtain ⟨found, arrives, same⟩ := bind_ok.mp walks
    rw [walkAt, Except.ok.injEq, Prod.mk.injEq] at same
    obtain ⟨rfl, -⟩ := same
    rw [arrivedAt_type arrives something, pathToDirectory_last named, Option.some.injEq, itemType]
    simp
  | cons next rest ih =>
    obtain ⟨found, arrives, walks⟩ := bind_ok.mp walks
    have stops (rest : List Text) (call : Nat)
        (walks : walkAt machine fatPrivate call .nothing rest = .ok (arrived, calls)) : False := by
      cases rest with
      | nil =>
        rw [walkAt, Except.ok.injEq, Prod.mk.injEq] at walks
        exact something walks.1.symm
      | cons next rest => cases walks
    rcases found with _ | _ | type | view
    · cases walks
    · cases walks
    · cases type with
      | directory => cases walks
      | file =>
        cases walks
        exact absurd rfl something
    cases view with
    | file entry' =>
      cases walks
      exact absurd rfl something
    | directory loaded =>
      obtain ⟨directory, load⟩ := arrivedAt_loaded arrives
      rw [pathToDirectory_next named directory (loadView_of_loadAt load)]
      rw [walkAt] at walks
      cases behind : slotNamed (loaded.slots machine) next with
      | none =>
        rw [behind] at walks
        exact (stops rest _ walks).elim
      | some entry' =>
        rw [behind] at walks
        exact ih behind walks

theorem resolve_type (something : arrived ≠ .nothing)
    (resolved : resolveAt machine fatPrivate call slots name rest = .ok (arrived, calls)) :
    arrived.type = some .directory ↔ PathToDirectory machine fatPrivate slots name rest := by
  cases named : slotNamed slots name with
  | none =>
    rw [resolveAt_missing named, Except.ok.injEq, Prod.mk.injEq] at resolved
    exact absurd resolved.1.symm something
  | some entry =>
    have granted : machine.allocator.grants call 8 = true := by
      by_contra refused
      rw [resolveAt_refused named refused, Except.ok.injEq, Prod.mk.injEq] at resolved
      exact something resolved.1.symm
    rw [resolveAt_granted named granted] at resolved
    exact walk_type named something resolved

/-- **The handle an `fopen` has returned** is that of a directory exactly if the path names one, and the
calls find its slot. -/
theorem directoryHandle_iff {kernel kernel' : Kernel} {filename modeStr : CString} {fd : Int}
    {items : List FatDirectoryItem} (volume : kernel.rootDisk.fsPrivate = some fatPrivate)
    (noNull : kernel.heap.lookup 0 = none)
    (found : kernel.heap.lookup fatPrivate.rootDirectory.item = some (.directoryItems items))
    (done : fopen machine kernel filename modeStr = .ok (fd, kernel')) (positive : 0 < fd) :
    DirectoryHandle machine kernel' fd ↔ NamesDirectory machine fatPrivate
      (KernelPlay.slots machine fatPrivate.rootDirectory.total items) filename ∧ fd ≠ maxFiledescriptors := by
  obtain ⟨name, rest, arrived, calls, record, descriptor, item, walks, resolved, type, holding, fs, -⟩ :=
    fopen_handle volume noNull found done positive
  have something : arrived ≠ .nothing := by
    rintro rfl
    cases type
  have path := resolve_type something resolved
  rw [type, Option.some.injEq] at path
  obtain ⟨p, starts, names⟩ := walks.path
  have names_iff : NamesDirectory machine fatPrivate
      (KernelPlay.slots machine fatPrivate.rootDirectory.total items) filename ↔ item.type = .directory := by
    rw [path]
    constructor
    · rintro ⟨p', name', rest', starts', names', path⟩
      cases starts.symm.trans starts'
      cases names.symm.trans names'
      exact path
    · exact fun path => ⟨p, name, rest, starts, names, path⟩
  rw [names_iff]
  constructor
  · rintro ⟨record', descriptor', item', nonnull, handle, -, described, shown, directory⟩
    have notLast : fd ≠ maxFiledescriptors := by
      rintro rfl
      exact nonnull fileGetDescriptor_last
    rw [fileGetDescriptor_eq positive notLast] at handle
    cases holding.handle.symm.trans handle
    cases holding.described.symm.trans described
    cases holding.shown.symm.trans shown
    exact ⟨directory, notLast⟩
  · rintro ⟨directory, notLast⟩
    have same := @fileGetDescriptor_eq machine kernel' fd positive notLast
    exact ⟨record, descriptor, item, same ▸ holding.nonnull, same ▸ holding.handle, fs, holding.described,
      holding.shown, directory⟩

end Paths

/-! ### Runs on one handle -/

/-- A call on the handle that returns, labelled with the state it starts from. -/
def HandleCall (machine : Machine) (fd : Int) (first : Kernel) (call : Kernel × FileOp) (last : Kernel) :
    Prop :=
  call.1 = first ∧ call.2.handle = some fd ∧ ∃ answer, perform machine first call.2 = .ok (answer, last)

/-- The operations up to the first `fclose`. -/
def beforeClose (ops : List FileOp) : List FileOp := ops.takeWhile fun op => !op.closes

section Runs

variable {machine : Machine} {first last kernel kernel' : Kernel} {fd : Int} {op : FileOp} {answer : Answer}
  {calls : List (Kernel × FileOp)}

/-- Until it is closed, a call on the handle of a directory changes nothing. -/
theorem directory_stays (own : op.handle = some fd) (stays : op.closes = false)
    (directory : DirectoryHandle machine kernel fd)
    (done : perform machine kernel op = .ok (answer, kernel')) : kernel' = kernel := by
  cases op with
  | fopen filename modeStr => cases own
  | fseek fd' offset whence =>
    cases own
    have result := (@perform_erases machine kernel (.fseek fd offset whence)).result
    rw [performLogged, fseek_directory offset whence directory, Logged.return_bind, done] at result
    cases result
    rfl
  | fread out size nmemb fd' =>
    obtain ⟨read, -, same⟩ := map_ok_iff.mp done
    cases same
    rfl
  | fstat fd' =>
    obtain ⟨stat, -, same⟩ := map_ok_iff.mp done
    cases same
    rfl
  | fclose fd' => cases stays

/-- What an `fclose` empties, the lookup of any handle finds empty or as it was. -/
theorem fileGetDescriptor_emptied {index : Int} (positive : 1 ≤ fd)
    (table : kernel'.filedescriptors = setSlot kernel.filedescriptors index 0) :
    fileGetDescriptor machine kernel' fd = 0 ∨
      fileGetDescriptor machine kernel' fd = fileGetDescriptor machine kernel fd := by
  by_cases last : fd = maxFiledescriptors
  · rw [last]
    exact .inl fileGetDescriptor_last
  rw [fileGetDescriptor_eq positive last, fileGetDescriptor_eq positive last, descriptorOf_setSlot table]
  split_ifs
  · exact .inl rfl
  · exact .inr rfl

/-- An `fclose` that has returned leaves no handle of a directory. -/
theorem fclose_plain {res : Int} (positive : 1 ≤ fd)
    (done : fclose machine kernel fd = .ok (res, kernel')) : ¬ DirectoryHandle machine kernel' fd := by
  rintro ⟨record, descriptor, item, nonnull, handle, -⟩
  rcases fclose_ok done with ⟨null, -, rfl⟩ | ⟨-, -, record', middle, -, -, rfl⟩
  · exact nonnull null
  · have emptied := @fileGetDescriptor_emptied machine kernel { kernel with
        heap := middle.erase (fileGetDescriptor machine kernel fd)
        filedescriptors := setSlot kernel.filedescriptors (record'.index - 1) 0 } fd _ positive rfl
    rcases emptied with null | same
    · exact nonnull null
    · rw [same, Store.lookup_erase_self] at handle
      cases handle

/-- An `fseek` makes no handle of a directory. -/
theorem fseek_plain {offset res : Int} {whence : Nat}
    (done : fseek machine kernel fd offset whence = .ok (res, kernel'))
    (directory : DirectoryHandle machine kernel' fd) : DirectoryHandle machine kernel fd := by
  rcases fseek_effect done with rfl | ⟨record, descriptor, pos, handle, described, rfl⟩
  · exact directory
  obtain ⟨record', descriptor', item, nonnull, handle', fs, described', shown, type⟩ := directory
  have place : fileGetDescriptor machine kernel fd ≠ record.privateData :=
    Store.ne_of_lookup handle described nofun
  have same := (Store.lookup_put_ne place).symm.trans handle'
  cases handle.symm.trans same
  cases Store.lookup_put_self.symm.trans described'
  have apart : descriptor.item ≠ record.privateData := by
    intro same
    rw [same, Store.lookup_put_self] at shown
    cases shown
  exact ⟨record, descriptor, item, nonnull, handle, fs, described,
    (Store.lookup_put_ne apart).symm.trans shown,
    type⟩

/-- No call on a handle makes it that of a directory. -/
theorem plain_stays (positive : 1 ≤ fd) (own : op.handle = some fd)
    (done : perform machine kernel op = .ok (answer, kernel'))
    (directory : DirectoryHandle machine kernel' fd) : DirectoryHandle machine kernel fd := by
  cases op with
  | fopen filename modeStr => cases own
  | fseek fd' offset whence =>
    cases own
    obtain ⟨⟨res, later⟩, returns, same⟩ := map_ok_iff.mp done
    cases same
    exact fseek_plain returns directory
  | fread out size nmemb fd' =>
    obtain ⟨read, -, same⟩ := map_ok_iff.mp done
    cases same
    exact directory
  | fstat fd' =>
    obtain ⟨stat, -, same⟩ := map_ok_iff.mp done
    cases same
    exact directory
  | fclose fd' =>
    cases own
    obtain ⟨⟨res, later⟩, returns, same⟩ := map_ok_iff.mp done
    cases same
    exact absurd directory (fclose_plain positive returns)

theorem closed_plain (positive : 1 ≤ fd) (own : op.handle = some fd) (closes : op.closes = true)
    (done : perform machine kernel op = .ok (answer, kernel')) : ¬ DirectoryHandle machine kernel' fd := by
  cases op with
  | fclose fd' =>
    cases own
    obtain ⟨⟨res, later⟩, returns, same⟩ := map_ok_iff.mp done
    cases same
    exact fclose_plain positive returns
  | _ => cases closes

theorem handle_rootDisk (own : op.handle = some fd)
    (done : perform machine kernel op = .ok (answer, kernel')) : kernel'.rootDisk = kernel.rootDisk := by
  cases op with
  | fopen filename modeStr => cases own
  | fseek fd' offset whence =>
    obtain ⟨⟨res, later⟩, returns, same⟩ := map_ok_iff.mp done
    cases same
    rcases fseek_ok returns with ⟨-, rfl⟩ | ⟨_, _, _, -, -, rfl⟩
    · rfl
    · rfl
  | fread out size nmemb fd' =>
    obtain ⟨read, -, same⟩ := map_ok_iff.mp done
    cases same
    rfl
  | fstat fd' =>
    obtain ⟨stat, -, same⟩ := map_ok_iff.mp done
    cases same
    rfl
  | fclose fd' =>
    obtain ⟨⟨res, later⟩, returns, same⟩ := map_ok_iff.mp done
    cases same
    rcases fclose_ok returns with ⟨-, -, rfl⟩ | ⟨-, -, _, _, -, -, rfl⟩
    · rfl
    · rfl

theorem closes_reads_nothing (closes : op.closes = true) : ¬ op.ReadsSomething := by
  cases op with
  | fclose fd' => exact id
  | _ => cases closes

theorem beforeClose_cons (op : FileOp) (ops : List FileOp) :
    beforeClose (op :: ops) = if op.closes then [] else op :: beforeClose ops := by
  unfold beforeClose
  cases closes : op.closes with
  | true => simp [closes]
  | false => simp [closes]

/-- One call more in front. -/
theorem before_close_step (ops : List FileOp) :
    (∀ o ∈ beforeClose (op :: ops), ¬ o.ReadsSomething) ↔
      ¬ op.ReadsSomething ∧ (op.closes = false → ∀ o ∈ beforeClose ops, ¬ o.ReadsSomething) := by
  rw [beforeClose_cons]
  cases closes : op.closes with
  | true => simp [closes_reads_nothing closes]
  | false => simp

/-- **A run on one handle** keeps the discipline exactly if nothing is read from the handle of a directory
before it is closed. By induction on the run: until then a call on such a handle changes nothing, and no
call makes one. -/
theorem run_disciplined_iff (positive : 1 ≤ fd) (own : op.handle = some fd)
    (run : Run (HandleCall machine fd) first calls last) (volume : first.rootDisk.fsPrivate ≠ none) :
    (∀ call ∈ calls ++ [(last, op)], Disciplined machine call.1 call.2) ↔
      (DirectoryHandle machine first fd →
        ∀ o ∈ beforeClose ((calls ++ [(last, op)]).map Prod.snd), ¬ o.ReadsSomething) := by
  induction run with
  | done state =>
    rw [List.nil_append, List.map_singleton, before_close_step]
    simp [disciplined_iff own positive volume, beforeClose]
  | @step first middle last call calls one rest ih =>
    obtain ⟨rfl, own', answer, done⟩ := one
    have ih := ih (handle_rootDisk own' done ▸ volume)
    rw [List.cons_append, List.forall_mem_cons, List.map_cons, before_close_step, ih,
      disciplined_iff own' positive volume]
    by_cases directory : DirectoryHandle machine call.1 fd
    · cases closes : call.2.closes with
      | true => simp [closed_plain positive own' closes done, directory]
      | false =>
        rw [directory_stays own' closes directory done]
        simp [directory]
    · have plain : ¬ DirectoryHandle machine middle fd :=
        fun later => directory (plain_stays positive own' done later)
      simp [directory, plain]

/-- **The union is read as its type says** by the `fopen` of any path and by every call on its handle, in
any state after a mount, exactly if the path names no directory, or the handle is the one no call finds, or
nothing is read from it before the first `fclose`. -/
theorem union_tags_iff {before start kernel opened last : Kernel} {fatPrivate : FatPrivate}
    {items : List FatDirectoryItem} {filename modeStr : CString} {earlier : List Call}
    (quiet : Quiet before) (mount : fat16Resolve machine before = .ok (0, start))
    (volume : start.rootDisk.fsPrivate = some fatPrivate)
    (found : start.heap.lookup fatPrivate.rootDirectory.item = some (.directoryItems items))
    (reached : Run (Step machine) start earlier kernel)
    (opens : fopen machine kernel filename modeStr = .ok (fd, opened)) (positive : 0 < fd)
    (run : Run (HandleCall machine fd) opened calls last) (own : op.handle = some fd) :
    ((fopenLogged machine kernel filename modeStr).Meets UnionRead.Tagged ∧
        ∀ call ∈ calls ++ [(last, op)], Disciplined machine call.1 call.2) ↔
      (NamesDirectory machine fatPrivate (slots machine fatPrivate.rootDirectory.total items) filename →
        fd ≠ maxFiledescriptors →
        ∀ o ∈ beforeClose ((calls ++ [(last, op)]).map Prod.snd), ¬ o.ReadsSomething) := by
  have volume' := run_volume reached volume
  obtain ⟨noNull, items', found', later⟩ := run_root quiet mount volume reached
  cases found.symm.trans found'
  have disk : opened.rootDisk = kernel.rootDisk :=
    step_rootDisk volume' (show Step machine kernel (.fopen filename modeStr fd) opened from opens)
  rw [and_iff_right (fopen_tagged filename modeStr),
    run_disciplined_iff positive own run (by simp [disk, volume']),
    directoryHandle_iff volume' noNull later opens positive, and_imp]

end Runs

/-! ### A file and a directory of the small tree -/

section Small

/-- One byte asked from the first handle. -/
def byteRead : FileOp := .fread (fun _ => 0) 1 1 1

/-- What is read from the handle of `D/F` is read as a file. -/
theorem union_tags_tree :
    ∃ start fatPrivate items opened, fat16Resolve treeMachine bootKernel = .ok (0, start) ∧
      fopen treeMachine start treePath readMode = .ok (1, opened) ∧
      (((fopenLogged treeMachine start treePath readMode).Meets UnionRead.Tagged ∧
          ∀ call ∈ [(opened, byteRead)], Disciplined treeMachine call.1 call.2) ↔
        (NamesDirectory treeMachine fatPrivate (slots treeMachine fatPrivate.rootDirectory.total items)
            treePath → (1 : Int) ≠ maxFiledescriptors → ∀ o ∈ [byteRead], ¬ o.ReadsSomething)) := by
  obtain ⟨start, fatPrivate, items, mount, mounted, filled, found, -⟩ := tree_mount
  obtain ⟨opened, opens, -⟩ := filled.opens mounted (by decide)
  have opens : fopen treeMachine start treePath readMode = .ok (1, opened) := opens
  exact ⟨start, fatPrivate, items, opened, mount, opens,
    union_tags_iff bootKernel_quiet mount filled.volume found (.done start) opens Int.one_pos (.done opened)
      rfl⟩

/-- `"0:/D"`. -/
def directoryPath : CString := ⟨⟨[48, 58, 47, 68], by decide⟩, fun _ => 0, by decide⟩

theorem directoryPath_start : pathStart directoryPath = some (0, 3) := by
  decide

theorem directoryPath_components : components directoryPath memoryTurns 3 = some [pathD] := by
  have first : pparserNameLen directoryPath memoryTurns 3 = some 1 := by decide
  rw [show components directoryPath memoryTurns 3 = components directoryPath (4294967295 + 1) 3 from rfl,
    components, first]
  dsimp only
  rw [if_pos (by decide)]
  decide

/-- The driver reads the directory behind the handle of `D` as an entry. -/
theorem union_tags_fails :
    ∃ start opened, fat16Resolve treeMachine bootKernel = .ok (0, start) ∧
      fopen treeMachine start directoryPath readMode = .ok (1, opened) ∧
      ¬ (performLogged treeMachine opened byteRead).Meets UnionRead.Tagged := by
  obtain ⟨start, fatPrivate, items, mount, mounted, filled, found, same⟩ := tree_mount
  have volume := filled.volume
  have at_root : slotNamed (slots treeMachine fatPrivate.rootDirectory.total items) pathD =
      some (namedEntry 68 0x10 2) := by
    rw [same]
    decide
  have directory : (namedEntry 68 0x10 2).IsDirectory := by decide
  obtain ⟨loaded, load, -⟩ := tree_loaded_slots mounted
  have walks : Walks treeMachine start directoryPath readMode pathD [] :=
    ⟨⟨3, directoryPath_start, directoryPath_components⟩, filled.filesystem, by decide, rfl⟩
  have resolved (call : Nat) : ∃ calls, resolveAt treeMachine fatPrivate call
      (slots treeMachine fatPrivate.rootDirectory.total items) pathD [] =
        .ok (.item (.directory loaded), calls) := by
    rw [resolveAt_granted at_root rfl, arrivedAt_directory rfl directory rfl, loadAt_roomy fun _ _ => rfl,
      load]
    exact ⟨_, rfl⟩
  obtain ⟨calls, resolved⟩ := resolved (start.heap.calls + 2 * ([] : List Text).length + 4)
  have something : Arrived.item (.directory loaded) ≠ .nothing := nofun
  obtain ⟨opened, opens⟩ :=
    fopen_of_walk (fun _ _ _ => rfl) volume filled.noNull found walks something resolved
    (filled.free (by decide))
  have opens : fopen treeMachine start directoryPath readMode = .ok (1, opened) := opens
  refine ⟨start, opened, mount, opens, fun tagged => ?_⟩
  have names : NamesDirectory treeMachine fatPrivate
      (slots treeMachine fatPrivate.rootDirectory.total items) directoryPath :=
    ⟨3, pathD, [], directoryPath_start, directoryPath_components, .last at_root directory⟩
  have handle := (directoryHandle_iff volume filled.noNull found opens Int.one_pos).mpr ⟨names, by decide⟩
  have disk := step_rootDisk volume
    (show Step treeMachine start (.fopen directoryPath readMode 1) opened from opens)
  have read : (freadLogged treeMachine opened (fun _ => 0) 1 1 1).Meets UnionRead.Tagged := by
    rw [byteRead, performLogged, Logged.meets_bind_iff] at tagged
    exact tagged.1
  exact (fread_tagged_iff le_rfl (by simp [disk, volume])).mp read handle ⟨by decide, by decide⟩

end Small

end KernelPlay
