/-
**Walking a path.**

`Unresolved` — no entry lies at the end of the path: a component is missing where the walk has got to,
or one that is not the last is a file. `walk_null_iff` and `entry_null_iff` say when the walk then
returns null. It does not when a component is missing between the first and the last, because the next
turn reads the type of a null item, nor behind a directory that could not be loaded, because the item
of that one still points at the record freed.
-/

import KernelPlay.Fat.Lookup

namespace KernelPlay

open KernelPlay.Library

/-- The slots a lookup goes through. -/
def LoadedDirectory.slots (machine : Machine) (loaded : LoadedDirectory) : List FatDirectoryItem :=
  KernelPlay.slots machine loaded.total loaded.items

/-- The first slot with the name. -/
def slotNamed (slots : List FatDirectoryItem) (name : Text) : Option FatDirectoryItem :=
  slots.find? fun entry => entry.Named name.chars

/-- **The path leads to no entry** from the directory with these slots. -/
inductive Unresolved (machine : Machine) (fatPrivate : FatPrivate) :
    List FatDirectoryItem → Text → List Text → Prop
  | missing {slots : List FatDirectoryItem} {name : Text} {rest : List Text} :
      slotNamed slots name = none → Unresolved machine fatPrivate slots name rest
  | file {slots : List FatDirectoryItem} {name next : Text} {rest : List Text}
      {entry : FatDirectoryItem} :
      slotNamed slots name = some entry → ¬ entry.IsDirectory →
      Unresolved machine fatPrivate slots name (next :: rest)
  | unreadable {slots : List FatDirectoryItem} {name next : Text} {rest : List Text}
      {entry : FatDirectoryItem} :
      slotNamed slots name = some entry → ¬ Loads machine fatPrivate entry →
      Unresolved machine fatPrivate slots name (next :: rest)
  | deeper {slots : List FatDirectoryItem} {name next : Text} {rest : List Text}
      {entry : FatDirectoryItem} {loaded : LoadedDirectory} :
      slotNamed slots name = some entry → entry.IsDirectory →
      loadView machine fatPrivate entry = .ok (some loaded) →
      Unresolved machine fatPrivate (loaded.slots machine) next rest →
      Unresolved machine fatPrivate slots name (next :: rest)

/-- **The walk gets to the component that fails**, and that one is the last or a file: until then every
component is there, has its record, and is loaded. The item of the component is request number `call`. -/
def WalksOn (machine : Machine) (fatPrivate : FatPrivate) :
    Nat → List FatDirectoryItem → Text → List Text → Prop
  | _, _, _, [] => True
  | call, slots, name, next :: rest => ∃ entry, slotNamed slots name = some entry ∧
      machine.allocator.grants call 8 = true ∧
      (entry.IsDirectory → ∃ loaded, loadAt machine fatPrivate entry (call + 1) = .ok (some loaded) ∧
        WalksOn machine fatPrivate (call + 3) (loaded.slots machine) next rest)

/-- A call that returned a null item. -/
def ReturnsNull (result : Except Fault (Ptr × Kheap)) : Prop := ∃ heap, result = .ok (0, heap)

section Walk

variable {machine : Machine} {fatPrivate : FatPrivate} {heap heap' : Kheap} {directory : FatDirectory}
  {entry : FatDirectoryItem} {name next : Text} {rest : List Text} {call : Nat} {ptr : Ptr}

theorem not_returnsNull {fault : Fault} : ¬ ReturnsNull (.error fault) := by
  rintro ⟨_, ⟨⟩⟩

theorem loadView_of_loadAt {loaded : LoadedDirectory}
    (done : loadAt machine fatPrivate entry call = .ok (some loaded)) :
    loadView machine fatPrivate entry = .ok (some loaded) := by
  unfold loadAt at done
  unfold loadView
  split_ifs at done
  · obtain ⟨totalItems, total, done⟩ := bind_ok.mp done
    rw [total, ok_bind]
    split_ifs at done
    · exact done
    · cases done
  · cases done

theorem walksOn_iff {slots : List FatDirectoryItem} (named : slotNamed slots name = some entry)
    (granted : machine.allocator.grants call 8 = true) :
    WalksOn machine fatPrivate call slots name (next :: rest) ↔
      (entry.IsDirectory → ∃ loaded, loadAt machine fatPrivate entry (call + 1) = .ok (some loaded) ∧
        WalksOn machine fatPrivate (call + 3) (loaded.slots machine) next rest) := by
  rw [WalksOn, named]
  simp [granted]

/-! ### One component -/

/-- The walk is at the item of an entry, whatever else is in the heap. -/
structure Arrival (machine : Machine) (fatPrivate : FatPrivate) (entry : FatDirectoryItem) (call : Nat)
    (heap : Kheap) (ptr : Ptr) : Prop where
  noNull : heap.lookup 0 = none
  nonnull : ptr ≠ 0
  item : match builtAt machine fatPrivate entry call with
    | .ok (some view) => heap.calls = call + view.requests ∧ ∃ footprint, Shows heap ptr view footprint
    | .ok none => ∃ ref, heap.lookup ptr = some (.fatItem ⟨ref, itemType entry⟩) ∧
        heap.lookup ref = none
    | .error _ => False

/-- What a heap had, it has still. -/
def Keeps (heap heap' : Kheap) : Prop :=
  ∀ ptr cell, heap.lookup ptr = some cell → heap'.lookup ptr = some cell

/-- The new item is there whatever becomes of the records there were before. -/
theorem newItem_arrives (granted : Store.Grants machine.allocator heap 8)
    (noNull : heap.lookup 0 = none)
    (done : fat16NewFatItemForDirectoryItem machine fatPrivate heap entry = .ok (ptr, heap')) :
    Keeps heap heap' ∧ ∀ later : Kheap, later.calls = heap'.calls →
      (∀ other, heap.lookup other = none → later.lookup other = heap'.lookup other) →
      Arrival machine fatPrivate entry heap.calls later ptr := by
  have outcome := @newItem_outcome machine fatPrivate entry heap granted noNull
  rw [done] at outcome
  generalize type_eq : itemType entry = type at outcome
  generalize built_eq : builtAt machine fatPrivate entry heap.calls = built at outcome
  cases outcome with
  | stray stray =>
    obtain ⟨nonnull, fresh, ⟨ref, record, missing⟩, kept⟩ := stray
    have kept_null : heap'.lookup 0 = none := (kept 0 nonnull.symm).trans noNull
    have ref_fresh : heap.lookup ref = none := by
      by_cases same : ref = ptr
      · rw [same, fresh]
      · rw [← kept ref same, missing]
    refine ⟨fun other cell found => ?_, fun later _ same => ⟨?_, nonnull, ?_⟩⟩
    · rw [kept other (Store.ne_of_absent found fresh), found]
    · rw [same 0 noNull, kept_null]
    · rw [built_eq, type_eq]
      exact ⟨ref, (same ptr fresh).trans record, (same ref ref_fresh).trans missing⟩
  | @built _ _ view new =>
    have kept_null := new.noNull noNull
    obtain ⟨nonnull, calls, footprint, shows, fresh, kept⟩ := new
    refine ⟨fun other cell found => ?_, fun later calls' same => ⟨?_, nonnull, ?_⟩⟩
    · rw [kept other, found]
      intro member
      rw [(fresh other member).2] at found
      cases found
    · rw [same 0 noNull, kept_null]
    · rw [built_eq]
      exact ⟨calls'.trans calls, footprint,
        shows.frame fun other member => same other (fresh other member).2⟩

theorem newItem_faults {fault : Fault} (granted : Store.Grants machine.allocator heap 8)
    (noNull : heap.lookup 0 = none)
    (faults : fat16NewFatItemForDirectoryItem machine fatPrivate heap entry = .error fault) :
    builtAt machine fatPrivate entry heap.calls = .error fault := by
  have outcome := @newItem_outcome machine fatPrivate entry heap granted noNull
  rw [faults] at outcome
  generalize builtAt machine fatPrivate entry heap.calls = built at outcome
  cases outcome
  rfl

/-- Building the item of an entry faults in the load of its directory. -/
theorem newItem_faults_unloaded {fault : Fault} (granted : Store.Grants machine.allocator heap 8)
    (noNull : heap.lookup 0 = none)
    (faults : fat16NewFatItemForDirectoryItem machine fatPrivate heap entry = .error fault) :
    entry.IsDirectory ∧ ∀ loaded, loadAt machine fatPrivate entry (heap.calls + 1) ≠ .ok (some loaded) := by
  have built := newItem_faults granted noNull faults
  unfold builtAt at built
  split_ifs at built with directory
  refine ⟨directory, fun loaded load => ?_⟩
  rw [load] at built
  cases built

/-- A null item is dereferenced when there is a further component. -/
theorem walk_null (noNull : heap.lookup 0 = none) :
    ReturnsNull (fat16WalkParts machine fatPrivate heap 0 rest) ↔ rest = [] := by
  cases rest with
  | nil => exact ⟨fun _ => rfl, fun _ => ⟨heap, rfl⟩⟩
  | cons next rest =>
    rw [fat16WalkParts, deref_missing noNull]
    exact ⟨fun null => absurd null not_returnsNull, nofun⟩

/-- The next turn of the walk, in the directory of the item. -/
theorem walk_turn {loaded : LoadedDirectory} {footprint : List Ptr}
    (shows : Shows heap ptr (.directory loaded) footprint) :
    fat16WalkParts machine fatPrivate heap ptr (name :: rest) =
      ((match slotNamed (loaded.slots machine) name with
        | none => .ok (0, heap)
        | some entry => fat16NewFatItemForDirectoryItem machine fatPrivate heap entry) >>= fun found =>
        fat16FatItemFree found.2 ptr >>= fun heap =>
          fat16WalkParts machine fatPrivate heap found.1 rest) := by
  cases shows with
  | @directory ref items loaded record nonnull nonnull_items directory found =>
    rw [fat16WalkParts, deref_eq fatItemKind record, ok_bind]
    dsimp only
    rw [if_neg (not_not.mpr rfl), deref_eq fatDirectoryKind directory, ok_bind,
      fat16GetItemInDirectory_eq found]
    rfl

/-- The item behind is freed in a heap that still has it. -/
theorem free_behind {view : ItemView} {footprint : List Ptr} (shows : Shows heap ptr view footprint)
    (kept : Keeps heap heap') :
    ∃ later, fat16FatItemFree heap' ptr = .ok later ∧ later.calls = heap'.calls ∧
      ∀ other, other ∉ footprint → later.lookup other = heap'.lookup other := by
  have framed : Shows heap' ptr view footprint := shows.frame fun place member => by
    obtain ⟨cell, found⟩ := shows.present place member
    rw [kept place cell found, found]
  obtain ⟨later, freed, calls, -, others⟩ := framed.free
  exact ⟨later, freed, calls, others⟩

/-! ### The whole path -/

/-- From an item with a further component to go, by what lies behind a directory. -/
theorem arrival_null_iff (arrival : Arrival machine fatPrivate entry call heap ptr)
    (behind : ∀ loaded footprint, Shows heap ptr (.directory loaded) footprint →
      heap.calls = call + 3 → entry.IsDirectory →
      loadView machine fatPrivate entry = .ok (some loaded) →
      (ReturnsNull (fat16WalkParts machine fatPrivate heap ptr (next :: rest)) ↔
        WalksOn machine fatPrivate (call + 3) (loaded.slots machine) next rest)) :
    ReturnsNull (fat16WalkParts machine fatPrivate heap ptr (next :: rest)) ↔
      (entry.IsDirectory → ∃ loaded, loadAt machine fatPrivate entry (call + 1) = .ok (some loaded) ∧
        WalksOn machine fatPrivate (call + 3) (loaded.slots machine) next rest) := by
  obtain ⟨-, -, item⟩ := arrival
  have of_file (ref : Ptr) (record : heap.lookup ptr = some (.fatItem ⟨ref, .file⟩)) :
      ReturnsNull (fat16WalkParts machine fatPrivate heap ptr (next :: rest)) := by
    rw [fat16WalkParts, deref_eq fatItemKind record, ok_bind]
    exact ⟨heap, rfl⟩
  unfold builtAt at item
  by_cases is_directory : entry.IsDirectory
  · rw [if_pos is_directory] at item
    rw [forall_prop_of_true is_directory]
    rcases load : loadAt machine fatPrivate entry (call + 1) with fault | _ | loaded
    · rw [load] at item
      exact item.elim
    · rw [load] at item
      obtain ⟨ref, record, missing⟩ := item
      rw [itemType, if_pos is_directory] at record
      rw [fat16WalkParts, deref_eq fatItemKind record, ok_bind]
      dsimp only
      rw [if_neg (not_not.mpr rfl), deref_missing missing]
      exact ⟨fun null => absurd null not_returnsNull, nofun⟩
    · rw [load] at item
      obtain ⟨calls, footprint, shows⟩ := item
      rw [behind loaded footprint shows calls is_directory (loadView_of_loadAt load)]
      refine ⟨fun walks => ⟨loaded, rfl, walks⟩, ?_⟩
      rintro ⟨_, ⟨⟩, walks⟩
      exact walks
  · rw [if_neg is_directory] at item
    refine ⟨fun _ directory => absurd directory is_directory, fun _ => ?_⟩
    split_ifs at item
    · obtain ⟨-, footprint, shows⟩ := item
      cases shows with
      | file record _ => exact of_file _ record
    · obtain ⟨ref, record, -⟩ := item
      rw [itemType, if_neg is_directory] at record
      exact of_file ref record

/-- What is left of a path that leads nowhere leads nowhere from the next directory. -/
theorem Unresolved.behind {slots : List FatDirectoryItem} {loaded : LoadedDirectory}
    (unresolved : Unresolved machine fatPrivate slots name (next :: rest))
    (named : slotNamed slots name = some entry) (directory : entry.IsDirectory)
    (load : loadView machine fatPrivate entry = .ok (some loaded)) :
    Unresolved machine fatPrivate (loaded.slots machine) next rest := by
  cases unresolved with
  | missing none =>
    rw [named] at none
    cases none
  | file named' file =>
    cases named.symm.trans named'
    exact absurd directory file
  | unreadable named' unreadable =>
    cases named.symm.trans named'
    exact absurd (fun _ => ⟨loaded, load⟩) unreadable
  | deeper named' _ load' deeper =>
    cases named.symm.trans named'
    cases load.symm.trans load'
    exact deeper

/-- **A walk inside the tree** of a path that leads nowhere. -/
theorem walk_null_iff :
    ∀ (rest : List Text) {heap : Kheap} {ptr : Ptr} {loaded : LoadedDirectory} {footprint : List Ptr}
      {name : Text}, Shows heap ptr (.directory loaded) footprint → heap.lookup 0 = none →
      Unresolved machine fatPrivate (loaded.slots machine) name rest →
      (ReturnsNull (fat16WalkParts machine fatPrivate heap ptr (name :: rest)) ↔
        WalksOn machine fatPrivate heap.calls (loaded.slots machine) name rest)
  | rest, heap, ptr, loaded, footprint, name, shows, noNull, unresolved => by
      rw [walk_turn shows]
      have of_missing (heap' : Kheap) (kept : Keeps heap heap') (noNull' : heap'.lookup 0 = none) :
          ReturnsNull (fat16FatItemFree heap' ptr >>= fun later =>
            fat16WalkParts machine fatPrivate later 0 rest) ↔ rest = [] := by
        obtain ⟨later, freed, -, others⟩ := free_behind shows kept
        rw [freed, ok_bind]
        exact walk_null ((others 0 (shows.absent noNull)).trans noNull')
      cases named : slotNamed (loaded.slots machine) name with
      | none =>
        refine (of_missing heap (fun _ _ found => found) noNull).trans ⟨?_, fun walks => ?_⟩
        · rintro rfl
          trivial
        · cases rest with
          | nil => rfl
          | cons next rest =>
            obtain ⟨entry, named', -⟩ := walks
            rw [named] at named'
            cases named'
      | some entry =>
        cases rest with
        | nil =>
          cases unresolved with
          | missing none =>
            rw [named] at none
            cases none
        | cons next rest =>
          dsimp only
          by_cases granted : Store.Grants machine.allocator heap 8
          · have bit : machine.allocator.grants heap.calls 8 = true := granted
            rw [walksOn_iff named bit]
            cases done : fat16NewFatItemForDirectoryItem machine fatPrivate heap entry with
            | error fault =>
              obtain ⟨directory, unloaded⟩ := newItem_faults_unloaded granted noNull done
              refine ⟨fun null => absurd null not_returnsNull, fun walks => ?_⟩
              obtain ⟨loaded', load, -⟩ := walks directory
              exact absurd load (unloaded loaded')
            | ok found =>
              obtain ⟨item, heap'⟩ := found
              obtain ⟨kept, arrives⟩ := newItem_arrives granted noNull done
              obtain ⟨later, freed, calls, others⟩ := free_behind shows kept
              have arrival := arrives later calls fun other absent => others other (shows.absent absent)
              rw [ok_bind, freed, ok_bind]
              refine arrival_null_iff arrival fun loaded' footprint' shows' calls' directory load => ?_
              rw [walk_null_iff rest shows' arrival.noNull (unresolved.behind named directory load), calls']
          · have bit : ¬ machine.allocator.grants heap.calls 8 = true := granted
            rw [newItem_refused granted, ok_bind]
            refine (of_missing heap.tick (fun _ _ found => found) noNull).trans ⟨nofun, fun walks => ?_⟩
            obtain ⟨entry', -, grants, -⟩ := walks
            exact absurd grants bit

/-- Behind a missing component the walk reads the type of a null item. -/
theorem walk_missing {loaded : LoadedDirectory} {footprint : List Ptr}
    (shows : Shows heap ptr (.directory loaded) footprint) (noNull : heap.lookup 0 = none)
    (missing : slotNamed (loaded.slots machine) name = none) :
    fat16WalkParts machine fatPrivate heap ptr (name :: next :: rest) = .error .nullDeref := by
  obtain ⟨later, freed, -, others⟩ := free_behind shows fun _ _ found => found
  rw [walk_turn shows, missing, ok_bind, freed, ok_bind, fat16WalkParts,
    deref_missing ((others 0 (shows.absent noNull)).trans noNull)]
  rfl

section Root

variable {items : List FatDirectoryItem}

/-- The walk from the root, once there is an item for its first component. -/
theorem entry_turn (found : heap.lookup fatPrivate.rootDirectory.item = some (.directoryItems items))
    (named : slotNamed (slots machine fatPrivate.rootDirectory.total items) name = some entry)
    (done : fat16NewFatItemForDirectoryItem machine fatPrivate heap entry = .ok (ptr, heap'))
    (nonnull : ptr ≠ 0) :
    fat16GetDirectoryEntry machine fatPrivate heap name rest =
      fat16WalkParts machine fatPrivate heap' ptr rest := by
  unfold slotNamed at named
  unfold fat16GetDirectoryEntry
  rw [fat16GetItemInDirectory_eq found, named]
  dsimp only
  rw [done, ok_bind]
  exact if_neg nonnull

/-- **A walk of a path that leads nowhere returns null** exactly if its first component is missing or
gets no record, or if it gets to the component that fails and that one is the last or a file. -/
theorem entry_null_iff
    (found : heap.lookup fatPrivate.rootDirectory.item = some (.directoryItems items))
    (noNull : heap.lookup 0 = none)
    (unresolved : Unresolved machine fatPrivate (slots machine fatPrivate.rootDirectory.total items)
      name rest) :
    ReturnsNull (fat16GetDirectoryEntry machine fatPrivate heap name rest) ↔
      slotNamed (slots machine fatPrivate.rootDirectory.total items) name = none ∨
      ¬ machine.allocator.grants heap.calls 8 = true ∨
      WalksOn machine fatPrivate heap.calls (slots machine fatPrivate.rootDirectory.total items) name
        rest := by
  have turn := @fat16GetItemInDirectory_eq machine fatPrivate heap fatPrivate.rootDirectory items found
    name
  cases named : slotNamed (slots machine fatPrivate.rootDirectory.total items) name with
  | none =>
    refine ⟨fun _ => .inl rfl, fun _ => ⟨heap, ?_⟩⟩
    unfold slotNamed at named
    rw [fat16GetDirectoryEntry, turn, named]
    rfl
  | some entry =>
    rw [or_iff_right nofun]
    by_cases granted : Store.Grants machine.allocator heap 8
    · have bit : machine.allocator.grants heap.calls 8 = true := granted
      rw [or_iff_right (not_not.mpr bit)]
      cases rest with
      | nil =>
        cases unresolved with
        | missing none =>
          rw [named] at none
          cases none
      | cons next rest =>
        rw [walksOn_iff named bit]
        cases done : fat16NewFatItemForDirectoryItem machine fatPrivate heap entry with
        | error fault =>
          refine ⟨fun null => absurd null ?_, fun walks => ?_⟩
          · unfold slotNamed at named
            rw [fat16GetDirectoryEntry, turn, named]
            dsimp only
            rw [done]
            exact not_returnsNull
          · obtain ⟨directory, unloaded⟩ := newItem_faults_unloaded granted noNull done
            obtain ⟨loaded, load, -⟩ := walks directory
            exact absurd load (unloaded loaded)
        | ok found' =>
          obtain ⟨item, heap'⟩ := found'
          obtain ⟨-, arrives⟩ := newItem_arrives granted noNull done
          have arrival := arrives heap' rfl fun _ _ => rfl
          rw [entry_turn found named done arrival.nonnull]
          refine arrival_null_iff arrival fun loaded footprint shows calls directory load => ?_
          rw [walk_null_iff rest shows arrival.noNull (unresolved.behind named directory load), calls]
    · have bit : ¬ machine.allocator.grants heap.calls 8 = true := granted
      refine ⟨fun _ => .inl bit, fun _ => ⟨heap.tick, ?_⟩⟩
      unfold slotNamed at named
      rw [fat16GetDirectoryEntry, turn, named]
      dsimp only
      rw [newItem_refused granted]
      rfl

end Root

end Walk

end KernelPlay
