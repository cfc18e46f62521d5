/-
**What a run of calls leaves in the heap.**

`Quiet` — a kernel just mounted, with no file open. In a run from there nothing that was in the heap is
freed, and the path root of an `fopen` that got one is never freed either: `heap_conserved_iff` — the
heap is as before exactly if no `fopen` got one. `heap_conserved_fails` is a single `fopen`.
-/

import KernelPlay.File.Open

namespace KernelPlay

open KernelPlay.Library

/-- A record no call frees, once it is there. -/
def Cell.IsLasting : Cell → Prop
  | .pathRoot _ | .pathPart | .name | .diskStreamer | .fatPrivate => True
  | _ => False

theorem Cell.IsLasting.foreign {cell : Cell} (lasting : cell.IsLasting) : cell.IsForeign := by
  cases cell <;> simp_all [IsLasting, IsForeign]

/-- The heap has no record of an item or a descriptor. -/
structure QuietHeap (heap : Kheap) : Prop where
  noNull : heap.lookup 0 = none
  records : ∀ ptr cell, heap.lookup ptr = some cell → cell.IsLasting ∨ ∃ items, cell = .directoryItems items

/-- **No file is open.** -/
structure Quiet (kernel : Kernel) : Prop extends QuietHeap kernel.heap where
  table : ∀ slot, kernel.filedescriptors slot = 0

/-- The handles a run has opened and not closed yet. -/
def openAfter : List Int → List Call → List Int
  | opened, [] => opened
  | opened, .fopen _ _ fd :: calls => openAfter (if 0 < fd then fd :: opened else opened) calls
  | opened, .fclose fd res :: calls => openAfter (if res = ok then opened.erase fd else opened) calls
  | opened, _ :: calls => openAfter opened calls

/-- The call is no `fopen` that gets its path root. -/
def NoRoot (machine : Machine) (kernel : Kernel) : Call → Prop
  | .fopen .. => ¬ Store.Grants machine.allocator kernel.heap 8
  | _ => True

section Run

variable {machine : Machine} {kernel kernel' start : Kernel} {call : Call} {calls : List Call}

abbrev SparesLasting : Kheap → Kheap → Prop := Spares Cell.IsLasting

theorem SparesForeign.lasting {heap heap' : Kheap} (spares : SparesForeign heap heap') :
    SparesLasting heap heap' :=
  spares.mono fun _ => Cell.IsLasting.foreign

/-- **One call** spares what lasts. -/
theorem step_spares (noNull : kernel.heap.lookup 0 = none) (step : Step machine kernel call kernel') :
    SparesLasting kernel.heap kernel'.heap := by
  cases call with
  | fopen filename modeStr fd => exact (fopen_cases noNull step).1.lasting
  | fseek fd offset whence res =>
    rcases fseek_cases noNull step with ⟨-, rfl⟩ | ⟨-, -, spares⟩
    · exact .refl
    · exact spares.lasting
  | fread out size nmemb fd res =>
    obtain ⟨-, rfl⟩ := step
    exact .refl
  | fstat fd res =>
    obtain ⟨-, rfl⟩ := step
    exact .refl
  | fclose fd res =>
    rcases fclose_cases step with ⟨-, -, rfl⟩ | ⟨-, -, record, middle, found, -, spares, freed⟩
    · exact .refl
    · have record_kept := spares.kept _ (.fileDescriptor record) trivial found
      rw [freed]
      exact spares.lasting.trans (.free record_kept id nofun)

theorem run_spares (run : Run (Step machine) kernel calls kernel') :
    kernel.heap.lookup 0 = none → SparesLasting kernel.heap kernel'.heap := by
  induction run with
  | done => exact fun _ => .refl
  | step one _ ih =>
    intro noNull
    have spares := step_spares noNull one
    exact spares.trans (ih (spares.noNull noNull))

/-- What was in the heap at the start is not freed. -/
theorem Quiet.still_live {heap : Kheap} (quiet : Quiet start) (spares : SparesLasting start.heap heap)
    {ptr : Ptr} (absent : heap.lookup ptr = none) : start.heap.lookup ptr = none := by
  cases found : start.heap.lookup ptr with
  | none => rfl
  | some cell =>
    rcases quiet.records ptr cell found with lasting | ⟨items, rfl⟩
    · rw [spares.kept ptr cell lasting found] at absent
      cases absent
    · have unowned : Unowned start.heap ptr := by
        intro owner directory record
        rcases quiet.records owner _ record with lasting | ⟨_, ⟨⟩⟩
        exact lasting.elim
      rw [(spares.unowned ptr items found unowned).1] at absent
      cases absent

/-- **From any state of the run on**, no further path root is allocated, or one is in the heap at the end
that was not there at the start. -/
theorem run_leaves_root (quiet : Quiet start) {first last : Kernel}
    (run : Run (Step machine) first calls last) :
    SparesLasting start.heap first.heap →
      Run (Guarded (NoRoot machine) (Step machine)) first calls last ∨
        ∃ ptr, start.heap.lookup ptr = none ∧ ∃ root, last.heap.lookup ptr = some (.pathRoot root) := by
  induction run with
  | done state => exact fun _ => .inl (.done state)
  | @step first middle last call calls one rest ih =>
    intro spares
    have noNull := spares.noNull quiet.noNull
    have one_spares := step_spares noNull one
    by_cases allowed : NoRoot machine first call
    · exact (ih (spares.trans one_spares)).imp_left fun guarded => .step ⟨allowed, one⟩ guarded
    · cases call with
      | fopen filename modeStr fd =>
        obtain ⟨ptr, root, fresh, record⟩ := fopen_root noNull (not_not.mp allowed) one
        have later := run_spares rest (one_spares.noNull noNull)
        exact .inr ⟨ptr, quiet.still_live spares fresh, root, later.kept ptr (.pathRoot root) trivial record⟩
      | _ => exact absurd trivial allowed

/-- A run without a path root opens nothing, so it leaves everything as it is. -/
structure Unchanged (start kernel : Kernel) : Prop where
  table : ∀ slot, kernel.filedescriptors slot = 0
  records : ∀ ptr, kernel.heap.lookup ptr = start.heap.lookup ptr

theorem Quiet.no_descriptor (quiet : Quiet start) (unchanged : Unchanged start kernel) {ptr : Ptr}
    {record : FileDescriptor} : kernel.heap.lookup ptr ≠ some (.fileDescriptor record) := by
  intro found
  rcases quiet.records ptr _ ((unchanged.records ptr).symm.trans found) with lasting | ⟨_, ⟨⟩⟩
  exact lasting.elim

theorem unchanged_step (quiet : Quiet start) (unchanged : Unchanged start kernel)
    (step : Guarded (NoRoot machine) (Step machine) kernel call kernel') : Unchanged start kernel' := by
  obtain ⟨allowed, step⟩ := step
  have noNull : kernel.heap.lookup 0 = none := (unchanged.records 0).trans quiet.noNull
  cases call with
  | fopen filename modeStr fd =>
    obtain ⟨table, records⟩ := fopen_refused noNull allowed step
    exact ⟨fun slot => table ▸ unchanged.table slot, fun ptr => (records ptr).trans (unchanged.records ptr)⟩
  | fseek fd offset whence res =>
    rcases fseek_cases noNull step with ⟨-, rfl⟩ | ⟨⟨record, found⟩, -⟩
    · exact unchanged
    · exact absurd found (quiet.no_descriptor unchanged)
  | fread out size nmemb fd res =>
    obtain ⟨-, rfl⟩ := step
    exact unchanged
  | fstat fd res =>
    obtain ⟨-, rfl⟩ := step
    exact unchanged
  | fclose fd res =>
    rcases fclose_cases step with ⟨-, -, rfl⟩ | ⟨-, -, record, _, found, -⟩
    · exact unchanged
    · exact absurd found (quiet.no_descriptor unchanged)

/-- **A run of calls after which every handle is closed conserves the heap** exactly if none of its
`fopen`s got a path root. -/
theorem heap_conserved_iff {final : Kernel} (quiet : Quiet start)
    (run : Run (Step machine) start calls final) (_closed : openAfter [] calls = []) :
    final.heap.live = start.heap.live ↔
      Run (Guarded (NoRoot machine) (Step machine)) start calls final := by
  refine ⟨fun same => ?_, fun guarded => ?_⟩
  · refine (run_leaves_root quiet run .refl).resolve_right ?_
    rintro ⟨ptr, absent, root, record⟩
    have live : ptr ∈ final.heap.live := Store.mem_live.mpr (by rw [record]; rfl)
    rw [same, Store.mem_live, absent] at live
    cases live
  · have unchanged : Unchanged start final :=
      guarded.preserves (fun _ _ _ holds step => unchanged_step quiet holds step)
        ⟨quiet.table, fun _ => rfl⟩
    ext ptr
    rw [Store.mem_live, Store.mem_live, unchanged.records]

end Run

/-! ### After a mount -/

section Mount

variable {machine : Machine} {heap heap' : Kheap} {ptr : Ptr} {cell : Cell}

theorem QuietHeap.put (quiet : QuietHeap heap) (nonnull : ptr ≠ 0)
    (own : cell.IsLasting ∨ ∃ items, cell = .directoryItems items) : QuietHeap (heap.put ptr cell) where
  noNull := (Store.lookup_put_ne nonnull.symm).trans quiet.noNull
  records other found record := by
    by_cases at_ptr : other = ptr
    · rw [at_ptr, Store.lookup_put_self] at record
      cases record
      exact own
    · exact quiet.records other found ((Store.lookup_put_ne at_ptr).symm.trans record)

theorem QuietHeap.tick (quiet : QuietHeap heap) : QuietHeap heap.tick := ⟨quiet.noNull, quiet.records⟩

theorem QuietHeap.erase (quiet : QuietHeap heap) : QuietHeap (heap.erase ptr) where
  noNull := by
    by_cases same : 0 = ptr
    · rw [same, Store.lookup_erase_self]
    · exact (Store.lookup_erase_ne same).trans quiet.noNull
  records other found record := by
    by_cases at_ptr : other = ptr
    · rw [at_ptr, Store.lookup_erase_self] at record
      cases record
    · exact quiet.records other found ((Store.lookup_erase_ne at_ptr).symm.trans record)

theorem QuietHeap.zalloc {size : Nat} (quiet : QuietHeap heap)
    (allocates : Store.zalloc machine.allocator heap size cell = (ptr, heap'))
    (own : cell.IsLasting ∨ ∃ items, cell = .directoryItems items) : QuietHeap heap' := by
  by_cases granted : Store.Grants machine.allocator heap size
  · rw [Store.zalloc_granted granted] at allocates
    cases allocates
    exact quiet.tick.put Store.nextPtr_ne_zero own
  · rw [Store.zalloc_refused granted] at allocates
    cases allocates
    exact quiet.tick

theorem diskStreamerNew_quiet {diskId : Int} {streamer : Option (Ptr × DiskStreamer)}
    (quiet : QuietHeap heap) (done : diskStreamerNew machine heap diskId = .ok (streamer, heap')) :
    QuietHeap heap' := by
  unfold diskStreamerNew at done
  split at done
  · cases done
    exact quiet
  · rcases allocates : Store.zalloc machine.allocator heap 8 .diskStreamer with ⟨ptr, allocated⟩
    rw [allocates] at done
    dsimp only at done
    split_ifs at done
    cases done
    exact quiet.zalloc allocates (.inl trivial)

theorem fat16InitPrivate_quiet {diskId : Int}
    {streams : Option (DiskStreamer × DiskStreamer × DiskStreamer)} (quiet : QuietHeap heap)
    (done : fat16InitPrivate machine heap diskId = .ok (streams, heap')) : QuietHeap heap' := by
  unfold fat16InitPrivate at done
  obtain ⟨⟨first, one⟩, opens, done⟩ := bind_ok.mp done
  have quiet := diskStreamerNew_quiet quiet opens
  rcases first with _ | first
  · cases done
    exact quiet
  obtain ⟨⟨second, two⟩, opens, done⟩ := bind_ok.mp done
  have quiet := diskStreamerNew_quiet quiet opens
  rcases second with _ | second
  · cases done
    exact quiet
  obtain ⟨⟨third, three⟩, opens, done⟩ := bind_ok.mp done
  have quiet := diskStreamerNew_quiet quiet opens
  rcases third with _ | third
  · cases done
    exact quiet
  · cases done
    exact quiet

theorem fat16GetRootDirectory_quiet {fatPrivate : FatPrivate} {res : Int} {directory : FatDirectory}
    (quiet : QuietHeap heap)
    (done : fat16GetRootDirectory machine fatPrivate heap = .ok (res, directory, heap')) :
    QuietHeap heap' := by
  unfold fat16GetRootDirectory at done
  obtain ⟨totalItems, -, done⟩ := bind_ok.mp done
  by_cases negative : totalItems < 0
  · rw [if_pos negative] at done
    cases done
    exact quiet
  rw [if_neg negative] at done
  rcases allocates : Store.zalloc machine.allocator heap
    ((fatPrivate.header.rootDirEntries.toNat : Int) * 32).toNat (.directoryItems
      (FatDirectoryItem.parseAll fatPrivate.header.rootDirEntries.toNat [])) with ⟨items, allocated⟩
  have quiet := quiet.zalloc allocates (.inr ⟨_, rfl⟩)
  rw [allocates] at done
  dsimp only at done
  by_cases null : items = 0
  · rw [if_pos null] at done
    cases done
    exact quiet
  rw [if_neg null, diskStreamerReadBytes_res, if_neg (by simp)] at done
  cases done
  exact quiet.put null (.inr ⟨_, rfl⟩)

theorem fat16ReadVolume_quiet {fatPrivate fatPrivate' : FatPrivate} {res : Int} {stream : DiskStreamer}
    (quiet : QuietHeap heap)
    (done : fat16ReadVolume machine heap fatPrivate stream = .ok (res, fatPrivate', heap')) :
    QuietHeap heap' := by
  unfold fat16ReadVolume at done
  dsimp only at done
  split_ifs at done
  · cases done
    exact quiet
  · cases done
    exact quiet
  obtain ⟨⟨status, rootDirectory, loaded⟩, root, done⟩ := bind_ok.mp done
  have quiet := fat16GetRootDirectory_quiet quiet root
  dsimp only at done
  split_ifs at done
  · cases done
    exact quiet
  · cases done
    exact quiet

/-- **A mount opens no file**, whether it succeeds or not. -/
theorem mount_quiet {kernel kernel' : Kernel} {res : Int} (quiet : Quiet kernel)
    (mount : fat16Resolve machine kernel = .ok (res, kernel')) : Quiet kernel' := by
  obtain ⟨quiet, table⟩ := quiet
  unfold fat16Resolve at mount
  rcases allocates : Store.zalloc machine.allocator kernel.heap 92 .fatPrivate with ⟨ptr, allocated⟩
  have quiet := quiet.zalloc allocates (.inl trivial)
  rw [allocates] at mount
  dsimp only at mount
  split_ifs at mount
  obtain ⟨⟨streams, initialized⟩, init, mount⟩ := bind_ok.mp mount
  have quiet := fat16InitPrivate_quiet quiet init
  rcases streams with _ | ⟨clusterReadStream, fatReadStream, directoryStream⟩
  · cases mount
  obtain ⟨⟨diskStream, opened⟩, opens, mount⟩ := bind_ok.mp mount
  have quiet := diskStreamerNew_quiet quiet opens
  rcases diskStream with _ | ⟨diskStreamPtr, diskStream⟩
  · obtain ⟨freed, frees, mount⟩ := bind_ok.mp mount
    obtain ⟨-, rfl⟩ := kheapFree_ok frees
    cases mount
    exact ⟨quiet.erase, table⟩
  obtain ⟨⟨status, fatPrivate, loaded⟩, reads, mount⟩ := bind_ok.mp mount
  have quiet := fat16ReadVolume_quiet quiet reads
  obtain ⟨closed, closes, mount⟩ := bind_ok.mp mount
  obtain ⟨-, rfl⟩ := kheapFree_ok closes
  dsimp only at mount
  split_ifs at mount
  · obtain ⟨freed, frees, mount⟩ := bind_ok.mp mount
    obtain ⟨-, rfl⟩ := kheapFree_ok frees
    cases mount
    exact ⟨quiet.erase.erase, table⟩
  · cases mount
    exact ⟨quiet.erase, table⟩

end Mount

/-! ### One `fopen` -/

section Small

/-- `"x"`. -/
def rejectedPath : CString := ⟨⟨[120], by decide⟩, fun _ => 0, by decide⟩

theorem rejectedPath_parse (machine : Machine) (heap : Kheap) (pathRoot : Ptr) :
    pparserParsePathRoot machine rejectedPath heap pathRoot = .ok (-einvarg, heap) := by
  unfold pparserParsePathRoot
  rw [if_neg (by decide)]
  rfl

theorem fopen_rejected (machine : Machine) (kernel : Kernel) :
    fopen machine kernel rejectedPath readMode =
      .ok (0, { kernel with
        heap := (Store.zalloc machine.allocator kernel.heap 8 (.pathRoot ⟨0, []⟩)).2 }) := by
  unfold fopen fopenRes
  dsimp only
  rw [rejectedPath_parse]
  rfl

theorem bootKernel_quiet : Quiet bootKernel := by
  refine ⟨⟨rfl, fun _ _ found => ?_⟩, fun _ => rfl⟩
  cases found

/-- The volume of the small tree is mounted, and an `fopen` of `x` has failed. -/
theorem rejected_run :
    ∃ start final, fat16Resolve treeMachine bootKernel = .ok (0, start) ∧ Quiet start ∧
      Run (Step treeMachine) start [.fopen rejectedPath readMode 0] final := by
  obtain ⟨start, mount, -⟩ := small_mount
  exact ⟨start, _, mount, mount_quiet bootKernel_quiet mount, .step (fopen_rejected treeMachine start) (.done _)⟩

/-- The same `fopen` without memory for its path root, and an `fseek` behind it: the heap is as before. -/
theorem heap_conserved_iff_refused :
    ∃ start final, fat16Resolve (refusingMachine (· == 6)) bootKernel = .ok (0, start) ∧
      Run (Step (refusingMachine (· == 6))) start
        [.fopen rejectedPath readMode 0, .fseek 1 0 0 (-eio)] final ∧
      final.heap.live = start.heap.live := by
  obtain ⟨start, mount, calls⟩ := refusing_mount 6 (by decide)
  have quiet := mount_quiet bootKernel_quiet mount
  have refused : ¬ Store.Grants (refusingMachine (· == 6)).allocator start.heap 8 := by
    unfold Store.Grants
    rw [calls]
    decide
  have opens := fopen_rejected (refusingMachine (· == 6)) start
  rw [Store.zalloc_refused refused] at opens
  have seeks : fseek (refusingMachine (· == 6)) { start with heap := start.heap.tick } 1 0 0 =
      .ok (-eio, { start with heap := start.heap.tick }) :=
    if_pos (quiet.table ⟨0, by decide⟩)
  have guarded : Run (Guarded (NoRoot (refusingMachine (· == 6))) (Step (refusingMachine (· == 6)))) start
      [.fopen rejectedPath readMode 0, .fseek 1 0 0 (-eio)] { start with heap := start.heap.tick } :=
    .step ⟨refused, opens⟩ (.step ⟨trivial, seeks⟩ (.done _))
  exact ⟨start, _, mount, guarded.unguarded, (heap_conserved_iff quiet guarded.unguarded rfl).mpr guarded⟩

/-- The path root of an `fopen` that failed is left in the heap. -/
theorem heap_conserved_fails :
    ∃ start final, fat16Resolve treeMachine bootKernel = .ok (0, start) ∧
      Run (Step treeMachine) start [.fopen rejectedPath readMode 0] final ∧
      openAfter [] [.fopen rejectedPath readMode 0] = [] ∧ final.heap.live ≠ start.heap.live := by
  obtain ⟨start, final, mount, quiet, run⟩ := rejected_run
  refine ⟨start, final, mount, run, rfl, fun same => ?_⟩
  cases run with
  | step one rest =>
    have granted : Store.Grants treeMachine.allocator start.heap 8 := rfl
    obtain ⟨ptr, root, fresh, record⟩ := fopen_root quiet.noNull granted one
    cases rest
    have live : ptr ∈ final.heap.live := Store.mem_live.mpr (by rw [record]; rfl)
    rw [same, Store.mem_live, fresh] at live
    cases live

end Small

end KernelPlay
