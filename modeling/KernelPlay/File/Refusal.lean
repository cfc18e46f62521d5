/-
**Requests for memory that are refused.**

A mount and an `fopen` handle refusals right if they fault nowhere in memory and a success has all its
records: `MountHandled`, `OpenHandled`. `RootHandled` says, component by component, which requests of a
walk must be met and which directories loaded. `refusals_handled_iff` — a mount handles refusals exactly
if its first five requests are met, an `fopen` exactly if those of the parser are and its walk is handled;
`refusals_handled_fails` is an allocator that has nothing.
-/

import KernelPlay.Fat.Ownership
import KernelPlay.File.Divide
import KernelPlay.File.Handles

namespace KernelPlay

open KernelPlay.Library

/-! ### Walks -/

section Conditions

variable (machine : Machine) (fatPrivate : FatPrivate) (full : Prop)

/-- The directory of the entry gets its record and can be loaded, its item being request number
`call`. -/
def GetsLoaded (entry : FatDirectoryItem) (call : Nat) : Prop :=
  machine.allocator.grants (call + 1) 16 = true ∧ CanLoad machine fatPrivate entry call

/-- **The last component**: its item is refused, or the table is full, or every request for it and for
the handle is met. -/
def LastHandled (entry : FatDirectoryItem) (call : Nat) : Prop :=
  machine.allocator.grants call 8 = true → full ∨
    if entry.IsDirectory then GetsLoaded machine fatPrivate entry call ∧
      ∀ loaded, loadView machine fatPrivate entry = .ok (some loaded) →
        machine.allocator.grants (call + 3) 16 = true
    else machine.allocator.grants (call + 1) 32 = true ∧ machine.allocator.grants (call + 2) 16 = true

/-- **The components from `name` on**, below the root: each but the last is there, gets its item, and is
a file or a directory that is loaded. -/
def PathHandled : Nat → List FatDirectoryItem → Text → List Text → Prop
  | call, slots, name, [] => ∀ entry, slotNamed slots name = some entry →
      LastHandled machine fatPrivate full entry call
  | call, slots, name, next :: rest => ∃ entry, slotNamed slots name = some entry ∧
      machine.allocator.grants call 8 = true ∧ (entry.IsDirectory → GetsLoaded machine fatPrivate entry call ∧
        ∀ loaded, loadView machine fatPrivate entry = .ok (some loaded) →
          PathHandled (call + 3) (loaded.slots machine) next rest)

/-- **The components from the root on**: the first may be missing or refused its item. -/
def RootHandled : Nat → List FatDirectoryItem → Text → List Text → Prop
  | call, slots, name, [] => PathHandled machine fatPrivate full call slots name []
  | call, slots, name, next :: rest => ∀ entry, slotNamed slots name = some entry →
      machine.allocator.grants call 8 = true → entry.IsDirectory →
        GetsLoaded machine fatPrivate entry call ∧
        ∀ loaded, loadView machine fatPrivate entry = .ok (some loaded) →
          PathHandled machine fatPrivate full (call + 3) (loaded.slots machine) next rest

/-- The walk faults nowhere in memory, and if it ends at an item, that item shows its entry and the
record of a handle for it is granted. -/
def EndsHandled : Except Fault (Arrived × Nat) → Prop
  | .error fault => ¬ fault.IsMemory
  | .ok (arrived, call) => arrived = .nothing ∨ full ∨
      (∃ view, arrived = .item view) ∧ machine.allocator.grants call 16 = true

end Conditions

section Walk

variable {machine : Machine} {fatPrivate : FatPrivate} {full : Prop} {entry : FatDirectoryItem}
  {call : Nat} {name : Text} {rest : List Text}

/-- A directory whose load fails leaves an item that points at it. -/
theorem unloaded_turn {α : Type} {after : Arrived → Except Fault α}
    (granted : machine.allocator.grants call 8 = true) (directory : entry.IsDirectory)
    (record : machine.allocator.grants (call + 1) 16 = true)
    (unloaded : ¬ CanLoad machine fatPrivate entry call) :
    (arrivedAt machine fatPrivate entry call >>= after) = after .dangling := by
  rw [canLoad_iff record, not_not] at unloaded
  rw [arrivedAt_directory granted directory record, unloaded]
  rfl

/-- A directory that can be loaded is loaded, unless its load faults in its arithmetic or never ends. -/
theorem loaded_turn_iff {after : Arrived → Except Fault (Arrived × Nat)}
    (granted : machine.allocator.grants call 8 = true) (directory : entry.IsDirectory)
    (loads : GetsLoaded machine fatPrivate entry call) :
    EndsHandled machine full (arrivedAt machine fatPrivate entry call >>= after) ↔
      ∀ loaded, loadView machine fatPrivate entry = .ok (some loaded) →
        EndsHandled machine full (after (.item (.directory loaded))) := by
  obtain ⟨record, can⟩ := loads
  rw [canLoad_iff record] at can
  have same := (@loadAt_or_none machine fatPrivate entry (call + 1) record).resolve_right can
  rw [arrivedAt_directory granted directory record, ← same]
  rcases load : loadAt machine fatPrivate entry (call + 1) with fault | _ | loaded
  · refine iff_of_true ?_ fun loaded view => ?_
    · rcases loadAt_faults load with rfl | rfl
      · exact id
      · exact id
    · cases view
  · exact absurd load can
  · constructor
    · intro handled loaded view
      cases view
      exact handled
    · intro handled
      exact handled loaded rfl

theorem ends_item_iff {view : ItemView} :
    EndsHandled machine full (.ok (.item view, call)) ↔ full ∨ machine.allocator.grants call 16 = true := by
  constructor
  · rintro (null | full | ⟨-, handle⟩)
    · cases null
    · exact .inl full
    · exact .inr handle
  · rintro (full | handle)
    · exact .inr (.inl full)
    · exact .inr (.inr ⟨⟨view, rfl⟩, handle⟩)

/-- An item without its record, or whose directory has been freed, must find no slot. -/
theorem ends_broken_iff {arrived : Arrived} (something : arrived ≠ .nothing)
    (broken : ∀ view, arrived ≠ .item view) : EndsHandled machine full (.ok (arrived, call)) ↔ full := by
  constructor
  · rintro (null | full | ⟨⟨view, item⟩, -⟩)
    · exact absurd null something
    · exact full
    · exact absurd item (broken view)
  · intro full
    exact .inr (.inl full)

/-- The last component. -/
theorem last_handled_iff :
    EndsHandled machine full (arrivedAt machine fatPrivate entry call >>= fun found =>
        walkAt machine fatPrivate (call + requestsAt machine entry call) found []) ↔
      LastHandled machine fatPrivate full entry call := by
  unfold LastHandled
  by_cases granted : machine.allocator.grants call 8 = true
  swap
  · rw [arrivedAt_refused granted]
    exact iff_of_true (.inl rfl) fun some => absurd some granted
  rw [forall_prop_of_true granted]
  by_cases directory : entry.IsDirectory
  swap
  · rw [arrivedAt_file granted directory, requestsAt_file granted directory, if_neg directory]
    by_cases copied : machine.allocator.grants (call + 1) 32 = true
    · rw [if_pos copied, and_iff_right copied]
      exact ends_item_iff
    · rw [if_neg copied, or_iff_left fun both => copied both.1]
      exact ends_broken_iff nofun nofun
  rw [if_pos directory]
  by_cases record : machine.allocator.grants (call + 1) 16 = true
  swap
  · rw [arrivedAt_bare granted directory record, or_iff_left fun both => record both.1.1]
    exact ends_broken_iff nofun nofun
  by_cases can : CanLoad machine fatPrivate entry call
  swap
  · rw [unloaded_turn granted directory record can, or_iff_left fun both => can both.1.2]
    exact ends_broken_iff nofun nofun
  have loads : GetsLoaded machine fatPrivate entry call := ⟨record, can⟩
  rw [loaded_turn_iff granted directory loads, requestsAt_directory granted directory record,
    and_iff_right loads]
  by_cases room : full
  · exact iff_of_true (fun _ _ => .inr (.inl room)) (.inl room)
  rw [or_iff_right room]
  constructor
  · intro handled loaded view
    exact (ends_item_iff.mp (handled loaded view)).resolve_left room
  · intro handle loaded view
    exact ends_item_iff.mpr (.inr (handle loaded view))

/-- A component with others behind it. -/
theorem turn_handled_iff {next : Text} :
    EndsHandled machine full (arrivedAt machine fatPrivate entry call >>= fun found =>
        walkAt machine fatPrivate (call + requestsAt machine entry call) found (next :: rest)) ↔
      machine.allocator.grants call 8 = true ∧ (entry.IsDirectory →
        GetsLoaded machine fatPrivate entry call ∧
        ∀ loaded, loadView machine fatPrivate entry = .ok (some loaded) →
          EndsHandled machine full (walkAt machine fatPrivate (call + 3) (.item (.directory loaded))
            (next :: rest))) := by
  by_cases granted : machine.allocator.grants call 8 = true
  swap
  · rw [arrivedAt_refused granted]
    exact iff_of_false (fun handled => handled trivial) fun all => granted all.1
  by_cases directory : entry.IsDirectory
  swap
  · rw [arrivedAt_file granted directory]
    refine iff_of_true ?_ ⟨granted, fun is_directory => absurd is_directory directory⟩
    by_cases copied : machine.allocator.grants (call + 1) 32 = true
    · rw [if_pos copied]
      exact .inl rfl
    · rw [if_neg copied]
      exact .inl rfl
  rw [forall_prop_of_true directory]
  by_cases record : machine.allocator.grants (call + 1) 16 = true
  swap
  · rw [arrivedAt_bare granted directory record]
    exact iff_of_false (fun handled => handled trivial) fun all => record all.2.1.1
  by_cases can : CanLoad machine fatPrivate entry call
  swap
  · rw [unloaded_turn granted directory record can]
    exact iff_of_false (fun handled => handled trivial) fun all => can all.2.1.2
  rw [loaded_turn_iff granted directory ⟨record, can⟩, requestsAt_directory granted directory record]
  exact ⟨fun handled => ⟨granted, ⟨record, can⟩, handled⟩, fun all => all.2.2⟩

/-- **Below the root, a walk is handled** exactly if its components are. -/
theorem path_handled_iff :
    ∀ (rest : List Text) (call : Nat) (loaded : LoadedDirectory) (name : Text),
      EndsHandled machine full
          (walkAt machine fatPrivate call (.item (.directory loaded)) (name :: rest)) ↔
        PathHandled machine fatPrivate full call (loaded.slots machine) name rest := by
  intro rest
  induction rest with
  | nil =>
    intro call loaded name
    rw [walkAt]
    unfold PathHandled
    cases slotNamed (loaded.slots machine) name with
    | none =>
      refine iff_of_true (.inl rfl) fun entry named => ?_
      cases named
    | some entry =>
      dsimp only
      rw [last_handled_iff]
      constructor
      · intro handled _ named
        cases named
        exact handled
      · intro handled
        exact handled entry rfl
  | cons next rest ih =>
    intro call loaded name
    rw [walkAt]
    unfold PathHandled
    cases slotNamed (loaded.slots machine) name with
    | none =>
      refine iff_of_false (fun handled => handled trivial) ?_
      rintro ⟨entry, named, -⟩
      cases named
    | some entry =>
      dsimp only
      rw [turn_handled_iff]
      constructor
      · rintro ⟨granted, behind⟩
        refine ⟨entry, rfl, granted, fun directory => ?_⟩
        obtain ⟨loads, handled⟩ := behind directory
        exact ⟨loads, fun loaded view => (ih _ loaded next).mp (handled loaded view)⟩
      · rintro ⟨_, named, granted, behind⟩
        cases named
        refine ⟨granted, fun directory => ?_⟩
        obtain ⟨loads, handled⟩ := behind directory
        exact ⟨loads, fun loaded view => (ih _ loaded next).mpr (handled loaded view)⟩

/-- **A walk from the root is handled** exactly if its components are. -/
theorem root_handled_iff {slots : List FatDirectoryItem} :
    EndsHandled machine full (resolveAt machine fatPrivate call slots name rest) ↔
      RootHandled machine fatPrivate full call slots name rest := by
  cases found : slotNamed slots name with
  | none =>
    rw [resolveAt_missing found]
    cases rest with
    | nil =>
      rw [RootHandled, PathHandled, found]
      refine iff_of_true (.inl rfl) fun entry named => ?_
      cases named
    | cons next rest =>
      rw [RootHandled, found]
      refine iff_of_true (.inl rfl) fun entry named => ?_
      cases named
  | some entry =>
    by_cases granted : machine.allocator.grants call 8 = true
    swap
    · rw [resolveAt_refused found granted]
      cases rest with
      | nil =>
        rw [RootHandled, PathHandled, found]
        refine iff_of_true (.inl rfl) fun _ named => ?_
        cases named
        exact fun some => absurd some granted
      | cons next rest =>
        rw [RootHandled, found]
        exact iff_of_true (.inl rfl) fun _ _ some => absurd some granted
    rw [resolveAt_granted found granted]
    cases rest with
    | nil =>
      rw [RootHandled, PathHandled, found, last_handled_iff]
      constructor
      · intro last _ named
        cases named
        exact last
      · intro last
        exact last entry rfl
    | cons next rest =>
      rw [RootHandled, found, turn_handled_iff]
      constructor
      · rintro ⟨-, behind⟩ _ named - directory
        cases named
        obtain ⟨loads, handled⟩ := behind directory
        exact ⟨loads, fun loaded view => (path_handled_iff _ _ _ _).mp (handled loaded view)⟩
      · intro behind
        refine ⟨granted, fun directory => ?_⟩
        obtain ⟨loads, handled⟩ := behind entry rfl granted directory
        exact ⟨loads, fun loaded view => (path_handled_iff _ _ _ _).mpr (handled loaded view)⟩

end Walk

/-! ### Handles -/

section Handle

variable {machine : Machine} {kernel : Kernel} {fatPrivate : FatPrivate} {filename modeStr : CString}
  {heap later : Kheap} {item desc : Ptr} {view : ItemView} {footprint : List Ptr} {arrived : Arrived}

/-- **The handle has all its records**: both descriptors, and an item that shows its entry. -/
def HandleComplete (kernel : Kernel) (fd : Int) : Prop :=
  ∃ record item pos view footprint,
    kernel.heap.lookup (descriptorOf kernel fd) = some (.fileDescriptor record) ∧
    kernel.heap.lookup record.privateData = some (.fatDescriptor ⟨item, pos⟩) ∧
    Shows kernel.heap item view footprint

theorem setSlot_self {filedescriptors : Fin maxFiledescriptors → Ptr} (slot : Fin maxFiledescriptors) :
    setSlot filedescriptors slot desc slot = desc :=
  if_pos rfl

/-- The handle that is returned has all its records exactly if the walk has ended at an item that shows
its entry. -/
theorem opened_complete_iff {slot : Fin maxFiledescriptors}
    (ends : EndsAt (describing machine heap) [] item later arrived) (nonnull : item ≠ 0)
    (fresh : (later.put (Store.nextPtr machine.allocator heap 8) (.fatDescriptor ⟨item, 0⟩)).lookup desc =
      none) :
    HandleComplete
        { kernel with
          heap := (later.put (Store.nextPtr machine.allocator heap 8)
            (.fatDescriptor ⟨item, 0⟩)).tick.put desc
              (.fileDescriptor ⟨(slot : Int) + 1, some .fat16Fs, Store.nextPtr machine.allocator heap 8,
                some .rootDisk⟩)
          filedescriptors := setSlot kernel.filedescriptors slot desc } ((slot : Int) + 1) ↔
      ∃ view, arrived = .item view := by
  obtain ⟨noNull, -, footprint, reached, within, -⟩ := ends
  have own : (describing machine heap).lookup (Store.nextPtr machine.allocator heap 8) =
      some (.fatDescriptor ⟨0, 0⟩) := Store.lookup_put_self
  generalize Store.nextPtr machine.allocator heap 8 = fdPrivate at *
  have apart : fdPrivate ≠ desc := Store.ne_of_absent Store.lookup_put_self fresh
  have slot_desc : descriptorOf { kernel with
      heap := (later.put fdPrivate (.fatDescriptor ⟨item, 0⟩)).tick.put desc
        (.fileDescriptor ⟨(slot : Int) + 1, some .fat16Fs, fdPrivate, some .rootDisk⟩)
      filedescriptors := setSlot kernel.filedescriptors slot desc } ((slot : Int) + 1) = desc := by
    rw [descriptorOf_slot]
    exact setSlot_self slot
  unfold HandleComplete
  rw [slot_desc]
  have elsewhere {other : Ptr} (not_own : other ≠ fdPrivate) (not_desc : other ≠ desc) :
      ((later.put fdPrivate (.fatDescriptor ⟨item, 0⟩)).tick.put desc
        (.fileDescriptor ⟨(slot : Int) + 1, some .fat16Fs, fdPrivate, some .rootDisk⟩)).lookup other =
        later.lookup other :=
    (Store.lookup_put_ne not_desc).trans (Store.lookup_put_ne not_own)
  have at_own : ((later.put fdPrivate (.fatDescriptor ⟨item, 0⟩)).tick.put desc
      (.fileDescriptor ⟨(slot : Int) + 1, some .fat16Fs, fdPrivate, some .rootDisk⟩)).lookup fdPrivate =
      some (.fatDescriptor ⟨item, 0⟩) :=
    (Store.lookup_put_ne apart).trans Store.lookup_put_self
  have at_desc : ((later.put fdPrivate (.fatDescriptor ⟨item, 0⟩)).tick.put desc
      (.fileDescriptor ⟨(slot : Int) + 1, some .fat16Fs, fdPrivate, some .rootDisk⟩)).lookup desc =
      some (.fileDescriptor ⟨(slot : Int) + 1, some .fat16Fs, fdPrivate, some .rootDisk⟩) :=
    Store.lookup_put_self
  generalize (later.put fdPrivate (.fatDescriptor ⟨item, 0⟩)).tick.put desc
    (.fileDescriptor ⟨(slot : Int) + 1, some .fat16Fs, fdPrivate, some .rootDisk⟩) = final at *
  constructor
  · rintro ⟨record, item', pos, view, shown, found, descriptor, shows⟩
    cases at_desc.symm.trans found
    cases at_own.symm.trans descriptor
    have shows' : Shows later item view shown := by
      refine shows.frame fun place member => (elsewhere ?_ ?_).symm
      · rintro rfl
        exact shows.own at_own id member
      · rintro rfl
        exact shows.own at_desc id member
    rcases reached.shown shows' noNull with rfl | found
    · cases reached
      exact absurd rfl nonnull
    · exact found
  · rintro ⟨view, rfl⟩
    cases reached with
    | item shows =>
      refine ⟨_, item, 0, view, footprint, at_desc, at_own, shows.frame fun place member => ?_⟩
      have absent := (within place member).resolve_left List.not_mem_nil
      have apart_own : place ≠ fdPrivate := (Store.ne_of_absent own absent).symm
      obtain ⟨cell, found⟩ := shows.present place member
      exact elsewhere apart_own
        (Store.ne_of_absent ((Store.lookup_put_ne apart_own).trans found) fresh)

/-- **The `fopen` handles refusals**: it faults nowhere in memory, and a handle it returns has all its
records. -/
structure OpenHandled (machine : Machine) (kernel : Kernel) (filename modeStr : CString) : Prop where
  safe : MemorySafe (fopen machine kernel filename modeStr)
  reports : ∀ fd kernel', fopen machine kernel filename modeStr = .ok (fd, kernel') → fd ≠ 0 →
    HandleComplete kernel' fd

/-- An `fopen` by what it returns. -/
theorem openHandled_of_error {fault : Fault} (faults : fopen machine kernel filename modeStr = .error fault) :
    OpenHandled machine kernel filename modeStr ↔ ¬ fault.IsMemory := by
  constructor
  · intro handled
    exact handled.safe fault faults
  · intro plain
    refine ⟨?_, fun fd kernel' done => ?_⟩
    · rw [faults, memorySafe_error_iff]
      exact plain
    · rw [faults] at done
      cases done

theorem openHandled_of_ok {fd : Int} {kernel' : Kernel}
    (done : fopen machine kernel filename modeStr = .ok (fd, kernel')) :
    OpenHandled machine kernel filename modeStr ↔ (fd ≠ 0 → HandleComplete kernel' fd) := by
  constructor
  · intro handled
    exact handled.reports fd kernel' done
  · intro complete
    refine ⟨?_, fun fd' kernel'' done' => ?_⟩
    · rw [done]
      exact .ok _
    · rw [done] at done'
      cases done'
      exact complete

/-- The rest of `fopen`, behind the walk. -/
theorem openHandled_of_walk {name : Text} {rest : List Text} {items : List FatDirectoryItem}
    (noNull : heap.lookup 0 = none)
    (found : heap.lookup fatPrivate.rootDirectory.item = some (.directoryItems items))
    (opens : OpenOutcome machine kernel (Store.nextPtr machine.allocator heap 8)
      (fat16GetDirectoryEntry machine fatPrivate (describing machine heap) name rest)
      (fopen machine kernel filename modeStr)) :
    OpenHandled machine kernel filename modeStr ↔
      EndsHandled machine (freeSlot kernel.filedescriptors = none)
        (resolveAt machine fatPrivate (heap.calls + 1)
          (slots machine fatPrivate.rootDirectory.total items) name rest) := by
  have walk := @entry_outcome machine fatPrivate (describing machine heap) items name rest
    (describing_kept found) (describing_noNull noNull)
  rw [show (describing machine heap).calls = heap.calls + 1 from rfl] at walk
  generalize fat16GetDirectoryEntry machine fatPrivate (describing machine heap) name rest = walked
    at opens walk
  generalize resolveAt machine fatPrivate (heap.calls + 1)
    (slots machine fatPrivate.rootDirectory.total items) name rest = resolved at walk
  generalize result_eq : fopen machine kernel filename modeStr = result at opens
  cases walk with
  | faults fault =>
    cases opens
    exact openHandled_of_error result_eq
  | @ends item later arrived ends =>
    have some_iff : item ≠ 0 ↔ arrived ≠ .nothing := by
      obtain ⟨footprint, reached, -⟩ := ends.reached
      constructor
      · rintro nonnull rfl
        cases reached
        exact nonnull rfl
      · intro some
        exact reached.nonnull some ends.noNull
    cases opens with
    | nothing =>
      rw [openHandled_of_ok result_eq]
      have nothing : arrived = .nothing := by
        by_contra some
        exact some_iff.mpr some rfl
      exact iff_of_true (fun some => absurd rfl some) (.inl nothing)
    | full nonnull full =>
      rw [openHandled_of_ok result_eq]
      exact iff_of_true (fun some => absurd rfl some) (.inr (.inl full))
    | refused nonnull free refused =>
      rw [openHandled_of_error result_eq]
      refine iff_of_false (fun plain => plain trivial) ?_
      rintro (nothing | full | ⟨-, granted⟩)
      · exact some_iff.mp nonnull nothing
      · rw [free] at full
        cases full
      · exact refused granted
    | opened nonnull free granted desc_nonnull fresh =>
      rw [openHandled_of_ok result_eq, forall_prop_of_true (by omega), opened_complete_iff ends nonnull fresh]
      constructor
      · intro item
        exact .inr (.inr ⟨item, granted⟩)
      · rintro (nothing | full | ⟨item, -⟩)
        · exact absurd nothing (some_iff.mp nonnull)
        · rw [free] at full
          cases full
        · exact item

/-- **An `fopen` handles refusals** exactly if the requests of the parser are met and the walk is
handled. -/
theorem open_handled_iff {items : List FatDirectoryItem}
    (volume : kernel.rootDisk.fsPrivate = some fatPrivate) (noNull : kernel.heap.lookup 0 = none)
    (found : kernel.heap.lookup fatPrivate.rootDirectory.item = some (.directoryItems items)) :
    OpenHandled machine kernel filename modeStr ↔
      PathGranted machine.allocator filename kernel.heap.calls ∧
        ∀ name rest, Walks machine kernel filename modeStr name rest →
          RootHandled machine fatPrivate (freeSlot kernel.filedescriptors = none)
            (kernel.heap.calls + 2 * rest.length + 4)
            (slots machine fatPrivate.rootDirectory.total items) name rest := by
  have outcome := @fopen_outcome machine kernel fatPrivate filename modeStr volume
  generalize result_eq : fopen machine kernel filename modeStr = result at outcome
  cases outcome with
  | refused missing =>
    rw [openHandled_of_error result_eq]
    exact iff_of_false (fun plain => plain trivial) fun all => missing all.1
  | diverges granted start endless =>
    rw [openHandled_of_error result_eq]
    refine iff_of_true id ⟨granted, fun name rest walks => ?_⟩
    cases endless.symm.trans (walks.parts start).2
  | rejected granted stops =>
    rw [openHandled_of_ok result_eq]
    exact iff_of_true (fun some => absurd rfl some) ⟨granted, fun name rest walks =>
      absurd walks (stops name rest)⟩
  | @walks name rest heap _ granted walks calls spares opens =>
    rw [← result_eq] at opens
    rw [openHandled_of_walk (spares.noNull noNull) (spares.kept _ _ trivial found) opens, calls,
      root_handled_iff]
    constructor
    · intro handled
      refine ⟨granted, fun name' rest' walks' => ?_⟩
      obtain ⟨rfl, rfl⟩ := walks.unique walks'
      exact handled
    · rintro ⟨-, handled⟩
      exact handled name rest walks

/-- **The mount handles refusals**: it faults nowhere in memory, and a mount that returns `OK` has the
root directory in memory. -/
structure MountHandled (machine : Machine) (kernel : Kernel) : Prop where
  safe : MemorySafe (fat16Resolve machine kernel)
  reports : ∀ kernel', fat16Resolve machine kernel = .ok (0, kernel') → ∃ fatPrivate items,
    kernel'.rootDisk.fsPrivate = some fatPrivate ∧
    kernel'.heap.lookup fatPrivate.rootDirectory.item = some (.directoryItems items)

theorem mount_handled_iff :
    MountHandled machine kernel ↔ kernel.rootDisk.id = 0 ∧ MountGrants machine kernel.heap := by
  rw [← fat16Resolve_safe_iff]
  constructor
  · intro handled
    exact handled.safe
  · intro safe
    refine ⟨safe, fun kernel' mount => ?_⟩
    obtain ⟨fatPrivate, -, volume, -, _, _, _, -, root, same⟩ := fat16Resolve_mounted mount
    obtain ⟨items, record⟩ := root_record root
    exact ⟨fatPrivate, items, volume, same.trans record⟩

/-- **Refusals are handled** in a mount exactly if its first five requests are met, and in an `fopen` of
any later state exactly if those of the parser are and its walk is handled. -/
theorem refusals_handled_iff (quiet : Quiet kernel) :
    (MountHandled machine kernel ↔ kernel.rootDisk.id = 0 ∧ MountGrants machine kernel.heap) ∧
      ∀ start fatPrivate items calls opened, fat16Resolve machine kernel = .ok (0, start) →
        start.rootDisk.fsPrivate = some fatPrivate →
        start.heap.lookup fatPrivate.rootDirectory.item = some (.directoryItems items) →
        Run (Step machine) start calls opened → ∀ filename modeStr,
        (OpenHandled machine opened filename modeStr ↔
          PathGranted machine.allocator filename opened.heap.calls ∧
            ∀ name rest, Walks machine opened filename modeStr name rest →
              RootHandled machine fatPrivate (freeSlot opened.filedescriptors = none)
                (opened.heap.calls + 2 * rest.length + 4)
                (slots machine fatPrivate.rootDirectory.total items) name rest) := by
  refine ⟨mount_handled_iff, fun start fatPrivate items calls opened mount volume found run => ?_⟩
  obtain ⟨noNull, items', found', still⟩ := run_root quiet mount volume run
  cases found.symm.trans found'
  exact fun filename modeStr => open_handled_iff (run_volume run volume) noNull still

end Handle

/-! ### An allocator that has nothing -/

section Small

def spentMachine : Machine := refusingMachine fun _ => true

/-- The volume of the small tree is mounted. -/
def mountedKernel : Kernel :=
  { bootKernel with rootDisk := ⟨0, some .fat16Fs, some (treePrivate rootEntries)⟩ }

theorem spent_path (call : Nat) : ¬ PathGranted spentMachine.allocator treePath call := by
  intro granted
  obtain ⟨parts, -⟩ := granted 0 3 treePath_start
  have first : pparserNameLen treePath memoryTurns 3 = some 1 := by decide
  rw [show memoryTurns = 4294967295 + 1 from rfl, PartsGranted, first] at parts
  exact Bool.false_ne_true parts.1

/-- Neither the mount nor an `fopen` reports that there is no memory. -/
theorem refusals_handled_fails :
    fat16Resolve spentMachine bootKernel = .error .uninitialized ∧
      ¬ MountHandled spentMachine bootKernel ∧
      fopen spentMachine mountedKernel treePath readMode = .error .nullDeref ∧
      ¬ OpenHandled spentMachine mountedKernel treePath readMode := by
  have mount : fat16Resolve spentMachine bootKernel = .error .uninitialized := rfl
  have opens : fopen spentMachine mountedKernel treePath readMode = .error .nullDeref := by
    have outcome := @fopen_outcome spentMachine mountedKernel _ treePath readMode rfl
    generalize fopen spentMachine mountedKernel treePath readMode = result at outcome
    cases outcome with
    | refused => rfl
    | diverges granted => exact absurd granted (spent_path _)
    | rejected granted => exact absurd granted (spent_path _)
    | walks granted => exact absurd granted (spent_path _)
  refine ⟨mount, fun handled => ?_, opens, fun handled => ?_⟩
  · exact handled.safe _ mount trivial
  · exact handled.safe _ opens trivial

/-- The parser makes five requests for the path of `F`. -/
theorem treePath_granted {allocator : Allocator} {call : Nat}
    (grants : ∀ index, index < 5 → ∀ size, allocator.grants (call + index) size = true) :
    PathGranted allocator treePath call := by
  have first : pparserNameLen treePath memoryTurns 3 = some 1 := by decide
  have second : pparserNameLen treePath memoryTurns 5 = some 1 := by decide
  intro driveNo p start
  cases treePath_start.symm.trans start
  refine ⟨?_, fun _ => grants 0 (by decide) 8⟩
  rw [show memoryTurns = 4294967294 + 1 + 1 from rfl, PartsGranted, first]
  refine ⟨grants 2 (by decide) _, grants 1 (by decide) _, fun _ => ?_⟩
  rw [PartsGranted, second]
  exact ⟨grants 4 (by decide) _, grants 3 (by decide) _, fun last => absurd (by decide) last⟩

/-- The item of `D` is refused to an `fopen` of `F` in `D`, and both it and the mount are handled. -/
theorem refusals_handled_iff_refused :
    MountHandled (refusingMachine (· == 12)) bootKernel ∧
      ∃ start, fat16Resolve (refusingMachine (· == 12)) bootKernel = .ok (0, start) ∧
        OpenHandled (refusingMachine (· == 12)) start treePath readMode := by
  obtain ⟨mounts, opens⟩ := @refusals_handled_iff (refusingMachine (· == 12)) bootKernel bootKernel_quiet
  obtain ⟨start, mount, calls⟩ := refusing_mount 12 (by decide)
  obtain ⟨fatPrivate, filesystem, volume, mounted, loaded⟩ := fat16Resolve_mounted mount
  have header : fatPrivate.header = smallHeader := mounted.header.trans tree_header
  obtain ⟨items, found, -⟩ := slots_of_holds (refusingMachine (· == 12))
    (loaded.holds (header ▸ tree_root))
  have grants (call : Nat) (before : call < 12) (size : Nat) :
      (refusingMachine (· == 12)).allocator.grants call size = true := by
    have other : (call == 12) = false := beq_false_of_ne (by omega)
    exact congrArg not other
  have few : bootKernel.heap.calls = 0 := rfl
  refine ⟨mounts.mpr ⟨rfl, grants _ (by decide) _, fun index _ last => grants _ (by omega) _⟩, start, mount, ?_⟩
  refine (opens start fatPrivate items [] start mount volume found (.done start) treePath readMode).mpr
    ⟨treePath_granted fun index below size => grants _ (by omega) _, fun name rest walks => ?_⟩
  have walks' : Walks (refusingMachine (· == 12)) start treePath readMode pathD [pathF] :=
    ⟨⟨3, treePath_start, treePath_components⟩, filesystem, by decide, calls ▸ grants _ (by decide) _⟩
  obtain ⟨rfl, rfl⟩ := walks'.unique walks
  rw [RootHandled, calls]
  intro entry _ granted
  exact absurd granted Bool.false_ne_true

end Small

end KernelPlay
