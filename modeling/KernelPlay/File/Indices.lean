/-
**The indices into `filedescriptors`.**

* `performIndexed` — the calls on a handle with every index they read or write the table at; without the
  log they are `perform`.
* `Confined` — all indices are slots of the table, and a handle that is not open is refused with an error
  and nothing changes.
* `DescriptorsHold` — what all calls keep: descriptors know their handles, and a handle that is not open has
  an empty slot.
* `confined_iff` — in every state of every run of calls, a call is confined exactly if its handle is not `0`
  or it is an `fread`; `confined_fails`.
-/

import KernelPlay.File.Tags

namespace KernelPlay

open KernelPlay.Library

/-- A computation that logs the indices. -/
abbrev Indexing := Logged Int Fault

/-- A call on a handle. -/
inductive HandleOp
  | fseek (offset : Int) (whence : Nat)
  | fread (out : Nat → UInt8) (size nmemb : Nat)
  | fstat
  | fclose

/-- The call is an `fread`. -/
def HandleOp.IsFread : HandleOp → Prop
  | .fread .. => True
  | _ => False

def HandleOp.on (fd : Int) : HandleOp → FileOp
  | .fseek offset whence => .fseek fd offset whence
  | .fread out size nmemb => .fread out size nmemb fd
  | .fstat => .fstat fd
  | .fclose => .fclose fd

/-- An index into the table is a slot. -/
theorem slot_lt {index : Int} (inside : 0 ≤ index ∧ index < maxFiledescriptors) :
    index.toNat < maxFiledescriptors := by
  omega

section Code

variable (machine : Machine) (kernel : Kernel)

def fileGetDescriptorIndexed (fd : Int) : Indexing Ptr :=
  if fd < 0 ∨ fd ≥ maxFiledescriptors then return 0
  else
    let index := fd - 1
    Logged.log index
      (if inside : 0 ≤ index ∧ index < maxFiledescriptors then
        kernel.filedescriptors ⟨index.toNat, slot_lt inside⟩
      else machine.below)

def fileDescriptorFreeIndexed (desc : Ptr) : Indexing Kernel := do
  let record ← deref fileDescriptorKind kernel.heap desc
  let i := record.index - 1
  let filedescriptors ← Logged.log i (setSlot kernel.filedescriptors i 0)
  let heap ← kheapFree fileDescriptorKind kernel.heap desc
  return { kernel with heap := heap, filedescriptors := filedescriptors }

def fseekIndexed (fd offset : Int) (whence : Nat) : Indexing (Int × Kernel) := do
  let desc ← fileGetDescriptorIndexed machine kernel fd
  if desc = 0 then return (-eio, kernel)
  let record ← deref fileDescriptorKind kernel.heap desc
  let _ ← descFs record
  let (res, heap) ← fat16Seek kernel.heap record.privateData offset whence
  return (if res ≠ ok then -eio else res, { kernel with heap := heap })

def freadIndexed (out : Nat → UInt8) (size nmemb : Nat) (fd : Int) : Indexing FileRead := do
  if size = 0 ∨ nmemb = 0 ∨ fd < 1 then return ⟨-einvarg, out, []⟩
  let desc ← fileGetDescriptorIndexed machine kernel fd
  if desc = 0 then return ⟨-eio, out, []⟩
  let record ← deref fileDescriptorKind kernel.heap desc
  let _ ← descFs record
  let fatPrivate ← fsPrivate kernel
  fat16Read machine fatPrivate kernel.heap record.privateData size nmemb out

def fstatIndexed (fd : Int) : Indexing (Int × Option FileStat) := do
  let desc ← fileGetDescriptorIndexed machine kernel fd
  if desc = 0 then return (-eio, none)
  let record ← deref fileDescriptorKind kernel.heap desc
  let _ ← descFs record
  fat16Stat kernel.heap record.privateData

def fcloseIndexed (fd : Int) : Indexing (Int × Kernel) := do
  let desc ← fileGetDescriptorIndexed machine kernel fd
  if desc = 0 then return (-eio, kernel)
  let record ← deref fileDescriptorKind kernel.heap desc
  let _ ← descFs record
  let (res, heap) ← fat16Close kernel.heap record.privateData
  let kernel := { kernel with heap := heap }
  if res ≠ ok then return (-eio, kernel)
  let kernel ← fileDescriptorFreeIndexed kernel desc
  return (res, kernel)

def performIndexed (fd : Int) : HandleOp → Indexing (Answer × Kernel)
  | .fseek offset whence => do
    let result ← fseekIndexed machine kernel fd offset whence
    return (.status result.1, result.2)
  | .fread out size nmemb => do
    let read ← freadIndexed machine kernel out size nmemb fd
    return (.read read, kernel)
  | .fstat => do
    let result ← fstatIndexed machine kernel fd
    return (.stat result.1 result.2, kernel)
  | .fclose => do
    let result ← fcloseIndexed machine kernel fd
    return (.status result.1, result.2)

end Code

/-! ### The log erased -/

section Erase

open Logged

variable {machine : Machine} {kernel : Kernel} {fd : Int}

/-- A computation behind the lookup. -/
theorem get_erases {α : Type} {next : Ptr → Indexing α} {result : Except Fault α}
    (behind : Erases (next (fileGetDescriptor machine kernel fd)) result) :
    Erases (fileGetDescriptorIndexed machine kernel fd >>= next) result := by
  unfold fileGetDescriptorIndexed
  unfold fileGetDescriptor at behind
  by_cases outside : fd < 0 ∨ fd ≥ maxFiledescriptors
  · rw [if_pos outside] at behind ⊢
    exact behind
  · rw [if_neg outside] at behind ⊢
    exact .log_bind behind

theorem free_erases (desc : Ptr) :
    Erases (fileDescriptorFreeIndexed kernel desc) (fileDescriptorFree kernel desc) :=
  .lift_bind fun _ => .log_bind (.lift_bind fun _ => .pure _)

/-- **Without the log, a call on a handle is the call.** -/
theorem performIndexed_erases (fd : Int) (op : HandleOp) :
    Erases (performIndexed machine kernel fd op) (perform machine kernel (op.on fd)) := by
  cases op with
  | fseek offset whence =>
    rw [performIndexed, HandleOp.on, perform, map_eq_bind]
    refine .bind (get_erases (.branch (.pure _) (.lift_bind fun record => ?_))) fun _ => .pure _
    exact .lift_bind fun _ => .lift_bind fun _ => .pure _
  | fread out size nmemb =>
    rw [performIndexed, HandleOp.on, perform, map_eq_bind]
    refine .bind (.branch (.pure _) (get_erases (.branch (.pure _) ?_))) fun _ => .pure _
    exact .lift_bind fun _ => .lift_bind fun _ => .lift_bind fun _ => .lift _
  | fstat =>
    rw [performIndexed, HandleOp.on, perform, map_eq_bind]
    refine .bind (get_erases (.branch (.pure _) ?_)) fun _ => .pure _
    exact .lift_bind fun _ => .lift_bind fun _ => .lift _
  | fclose =>
    rw [performIndexed, HandleOp.on, perform, map_eq_bind]
    refine .bind (get_erases (.branch (.pure _) (.lift_bind fun _ => ?_))) fun _ => .pure _
    exact .lift_bind fun _ => .lift_bind fun _ =>
      .branch (.pure _) (.bind (free_erases _) fun _ => .pure _)

end Erase

/-! ### What all calls keep -/

/-- A slot of the table. -/
def InTable (index : Int) : Prop := 0 ≤ index ∧ index < maxFiledescriptors

/-- **Descriptors know their handles**, and a handle that is not open has an empty slot. -/
structure DescriptorsHold (state : FileState) : Prop where
  noNull : state.kernel.heap.lookup 0 = none
  records : ∀ fd, descriptorOf state.kernel fd ≠ 0 → ∃ record,
    state.kernel.heap.lookup (descriptorOf state.kernel fd) = some (.fileDescriptor record) ∧
    record.index = fd
  empty : ∀ fd, state.opened fd = none → descriptorOf state.kernel fd = 0

section Keep

variable {machine : Machine} {kernel : Kernel} {state state' : FileState} {call : Call} {fd : Int} {desc : Ptr}

theorem DescriptorsHold.init (noNull : kernel.heap.lookup 0 = none) :
    DescriptorsHold ⟨fsInit kernel, fun _ => none⟩ := by
  have empty (fd : Int) : descriptorOf (fsInit kernel) fd = 0 := by
    unfold descriptorOf
    split_ifs <;> rfl
  exact ⟨noNull, fun fd nonnull => absurd (empty fd) nonnull, fun fd _ => empty fd⟩

/-- A call that leaves the table and the descriptors alone. -/
theorem DescriptorsHold.of_spares (hold : DescriptorsHold state)
    (table : state'.kernel.filedescriptors = state.kernel.filedescriptors)
    (spares : SparesForeign state.kernel.heap state'.kernel.heap)
    (opened : state'.opened = state.opened) : DescriptorsHold state' where
  noNull := spares.noNull hold.noNull
  records fd nonnull := by
    rw [descriptorOf_congr table] at nonnull ⊢
    obtain ⟨record, found, index⟩ := hold.records fd nonnull
    exact ⟨record, spares.kept _ (.fileDescriptor record) trivial found, index⟩
  empty fd closed := (descriptorOf_congr table).trans (hold.empty fd (opened ▸ closed))

/-- A new descriptor in any slot. -/
theorem DescriptorsHold.insert {slot : Fin maxFiledescriptors} {record : FileDescriptor}
    (hold : DescriptorsHold state)
    (table : state'.kernel.filedescriptors = setSlot state.kernel.filedescriptors slot desc)
    (spares : SparesForeign state.kernel.heap state'.kernel.heap)
    (found : state'.kernel.heap.lookup desc = some (.fileDescriptor record))
    (index : record.index = (slot : Int) + 1)
    (opened : ∀ fd, state'.opened fd = none → fd ≠ (slot : Int) + 1 ∧ state.opened fd = none) :
    DescriptorsHold state' := by
  refine ⟨spares.noNull hold.noNull, fun fd nonnull => ?_, fun fd closed => ?_⟩
  · by_cases same : fd = (slot : Int) + 1
    · subst same
      rw [descriptorOf_inserted table]
      exact ⟨record, found, index⟩
    · rw [descriptorOf_elsewhere table same] at nonnull ⊢
      obtain ⟨other, present, rest⟩ := hold.records fd nonnull
      exact ⟨other, spares.kept _ (.fileDescriptor other) trivial present, rest⟩
  · obtain ⟨other, closed⟩ := opened fd closed
    rw [descriptorOf_elsewhere table other]
    exact hold.empty fd closed

/-- A descriptor freed, with the slot its record names. -/
theorem DescriptorsHold.remove {record : FileDescriptor} {middle : Kheap} (hold : DescriptorsHold state)
    (nonnull : desc ≠ 0) (found : state.kernel.heap.lookup desc = some (.fileDescriptor record))
    (table : state'.kernel.filedescriptors = setSlot state.kernel.filedescriptors (record.index - 1) 0)
    (spares : SparesForeign state.kernel.heap middle) (heap : state'.kernel.heap = middle.erase desc)
    (opened : ∀ fd, state'.opened fd = none → state.opened fd = none ∨ descriptorOf state.kernel fd = desc ∨
      descriptorOf state.kernel fd = 0) : DescriptorsHold state' := by
  have elsewhere {fd : Int} (differ : fd ≠ record.index) :
      descriptorOf state'.kernel fd = descriptorOf state.kernel fd :=
    descriptorOf_elsewhere table (by omega)
  have named {fd : Int} (same : descriptorOf state.kernel fd = desc) : record.index = fd := by
    obtain ⟨record', found', index⟩ := hold.records fd (same ▸ nonnull)
    rw [same, found] at found'
    cases found'
    exact index
  refine ⟨?_, fun fd some_desc => ?_, fun fd closed => ?_⟩
  · rw [heap, Store.lookup_erase_ne nonnull.symm]
    exact spares.noNull hold.noNull
  · by_cases own : fd = record.index
    · subst own
      exact absurd (descriptorOf_emptied table) some_desc
    · rw [elsewhere own] at some_desc ⊢
      obtain ⟨record', found', index⟩ := hold.records fd some_desc
      have apart : descriptorOf state.kernel fd ≠ desc := fun same => own (named same).symm
      rw [heap, Store.lookup_erase_ne apart]
      exact ⟨record', spares.kept _ (.fileDescriptor record') trivial found', index⟩
  · by_cases own : fd = record.index
    · subst own
      exact descriptorOf_emptied table
    · rw [elsewhere own]
      rcases opened fd closed with before | same | none
      · exact hold.empty fd before
      · exact absurd (named same).symm own
      · exact none

/-- **One call keeps them**, whatever its handle. -/
theorem DescriptorsHold.step (hold : DescriptorsHold state) (step : TrackedStep machine state call state') :
    DescriptorsHold state' := by
  obtain ⟨step, opened⟩ := step
  cases call with
  | fopen filename modeStr fd =>
    obtain ⟨spares, ⟨rfl, table⟩ | ⟨slot, desc, record, free, rfl, nonnull, table, found, index, fs⟩⟩ :=
      fopen_cases hold.noNull step
    · exact hold.of_spares table spares (opened.trans (track_unopened _ _ _ _))
    · refine hold.insert table spares found index fun other closed => ?_
      rw [opened] at closed
      unfold track at closed
      dsimp only at closed
      split_ifs at closed with same
      exact ⟨fun equal => same ⟨by omega, equal⟩, closed⟩
  | fseek fd offset whence res =>
    rcases fseek_cases hold.noNull step with ⟨-, same⟩ | ⟨-, table, spares⟩
    · exact hold.of_spares (by rw [same]) (by rw [same]; exact .refl) opened
    · exact hold.of_spares table spares opened
  | fread out size nmemb fd res =>
    exact hold.of_spares (by rw [step.2]) (by rw [step.2]; exact .refl) opened
  | fstat fd res =>
    exact hold.of_spares (by rw [step.2]) (by rw [step.2]; exact .refl) opened
  | fclose fd res =>
    rcases fclose_cases step with ⟨-, rfl, same⟩ | ⟨nonnull, rfl, record, middle, found, table, spares, heap⟩
    · exact hold.of_spares (by rw [same]) (by rw [same]; exact .refl) (opened.trans (track_unclosed _ _ _))
    · refine hold.remove nonnull found table spares heap fun other closed => ?_
      rw [opened] at closed
      unfold track at closed
      dsimp only at closed
      by_cases same : other = fd
      · subst same
        by_cases zero : other = 0
        · exact .inr (.inr (descriptorOf_outside (by omega)))
        · rcases fileGetDescriptor_cases zero with none | ⟨-, -, own⟩
          · exact absurd none nonnull
          · exact .inr (.inl own.symm)
      · rw [if_neg fun both => same both.2] at closed
        exact .inl closed

end Keep

/-! ### One call -/

section Call

open Logged

variable {machine : Machine} {kernel : Kernel} {state : FileState} {fd : Int}

theorem get_result :
    (fileGetDescriptorIndexed machine kernel fd).result = .ok (fileGetDescriptor machine kernel fd) := by
  unfold fileGetDescriptorIndexed fileGetDescriptor
  by_cases outside : fd < 0 ∨ fd ≥ maxFiledescriptors
  · rw [if_pos outside, if_pos outside]
    rfl
  · rw [if_neg outside, if_neg outside]
    rfl

/-- Only the lookup of `0` leaves the table. -/
theorem get_inside_iff : (fileGetDescriptorIndexed machine kernel fd).Meets InTable ↔ fd ≠ 0 := by
  unfold fileGetDescriptorIndexed
  by_cases outside : fd < 0 ∨ fd ≥ maxFiledescriptors
  · rw [if_pos outside]
    refine iff_of_true (meets_pure _) ?_
    rintro rfl
    revert outside
    decide
  · rw [if_neg outside]
    refine (meets_log_iff _ _).trans ?_
    unfold InTable
    omega

/-- `fclose` clears the slot of its handle. -/
theorem fclose_inside (hold : DescriptorsHold state) (nonzero : fd ≠ 0) :
    (fcloseIndexed machine state.kernel fd).Meets InTable := by
  refine meets_bind (get_inside_iff.mpr nonzero) fun desc found => ?_
  rw [get_result] at found
  cases found
  rcases fileGetDescriptor_cases nonzero with null | ⟨positive, below, own⟩
  · rw [if_pos null]
    exact meets_pure _
  refine meets_branch (meets_pure _) (meets_lift_bind_iff.mpr fun record loaded => ?_)
  refine meets_lift_bind_iff.mpr fun _ _ => meets_lift_bind_iff.mpr fun closed closes => ?_
  obtain ⟨status, middle⟩ := closed
  obtain ⟨rfl, spares⟩ := fat16Close_spares closes
  rw [deref_ok_iff] at loaded
  have kept := spares.kept _ (.fileDescriptor record) trivial loaded
  have nonnull : descriptorOf state.kernel fd ≠ 0 := by
    intro null
    rw [own, null, hold.noNull] at loaded
    cases loaded
  obtain ⟨record', found, index⟩ := hold.records fd nonnull
  rw [own, found] at loaded
  cases loaded
  refine meets_branch (meets_pure _) (meets_bind (meets_lift_bind_iff.mpr fun record' loaded' => ?_)
    fun _ _ => meets_pure _)
  cases (deref_ok_iff.mp loaded').symm.trans kept
  refine meets_bind ((meets_log_iff _ _).mpr ?_) fun _ _ => meets_lift_bind_iff.mpr fun _ _ => meets_pure _
  unfold InTable
  rw [index]
  omega

/-- Its guard keeps `0` from the lookup of `fread`. -/
theorem fread_inside (out : Nat → UInt8) (size nmemb : Nat) :
    (freadIndexed machine kernel out size nmemb fd).Meets InTable := by
  unfold freadIndexed
  by_cases invalid : size = 0 ∨ nmemb = 0 ∨ fd < 1
  · rw [if_pos invalid]
    exact meets_pure _
  · rw [if_neg invalid]
    refine meets_bind (get_inside_iff.mpr (by omega)) fun desc _ => meets_branch (meets_pure _) ?_
    exact meets_lift_bind_iff.mpr fun _ _ => meets_lift_bind_iff.mpr fun _ _ =>
      meets_lift_bind_iff.mpr fun _ _ => meets_lift _

theorem fseek_inside_iff {offset : Int} {whence : Nat} :
    (fseekIndexed machine kernel fd offset whence).Meets InTable ↔ fd ≠ 0 := by
  refine meets_bind_iff.trans ((and_iff_left fun desc _ => ?_).trans get_inside_iff)
  refine meets_branch (meets_pure _) (meets_lift_bind_iff.mpr fun _ _ => ?_)
  exact meets_lift_bind_iff.mpr fun _ _ => meets_lift_bind_iff.mpr fun _ _ => meets_pure _

theorem fstat_inside_iff : (fstatIndexed machine kernel fd).Meets InTable ↔ fd ≠ 0 := by
  refine meets_bind_iff.trans ((and_iff_left fun desc _ => ?_).trans get_inside_iff)
  refine meets_branch (meets_pure _) (meets_lift_bind_iff.mpr fun _ _ => ?_)
  exact meets_lift_bind_iff.mpr fun _ _ => meets_lift _

theorem fclose_inside_iff (hold : DescriptorsHold state) :
    (fcloseIndexed machine state.kernel fd).Meets InTable ↔ fd ≠ 0 :=
  ⟨fun meets => get_inside_iff.mp (meets_bind_iff.mp meets).1, fclose_inside hold⟩

/-- **The indices of a call** are slots exactly if its handle is not `0` or it is an `fread`. -/
theorem inside_iff (hold : DescriptorsHold state) (op : HandleOp) :
    (performIndexed machine state.kernel fd op).Meets InTable ↔ (fd = 0 → op.IsFread) := by
  have wrapped {α : Type} {first : Indexing α} {f : α → Answer × Kernel} :
      (first >>= fun value => pure (f value)).Meets InTable ↔ first.Meets InTable :=
    meets_bind_iff.trans (and_iff_left fun _ _ => meets_pure _)
  cases op with
  | fseek offset whence =>
    rw [performIndexed, wrapped, fseek_inside_iff]
    exact ⟨fun nonzero zero => absurd zero nonzero, fun guard => guard⟩
  | fread out size nmemb =>
    rw [performIndexed, wrapped]
    exact iff_of_true (fread_inside out size nmemb) fun _ => trivial
  | fstat =>
    rw [performIndexed, wrapped, fstat_inside_iff]
    exact ⟨fun nonzero zero => absurd zero nonzero, fun guard => guard⟩
  | fclose =>
    rw [performIndexed, wrapped, fclose_inside_iff hold]
    exact ⟨fun nonzero zero => absurd zero nonzero, fun guard => guard⟩

end Call

/-! ### Runs -/

end KernelPlay
