/-
**Path resolution in a directory tree.**

`DirTree` — the directories of a volume, and `LaidOut` that they lie on the drive, each in one cluster.
`open_finds` — on a volume just mounted, `fat16_open` of a path that leads to an entry of the tree
returns a descriptor of exactly that entry. One turn of the walk is `walk_built`, and `walk_finds` goes
down the path by induction on how it leads to the entry.
-/

import KernelPlay.Fat.Frame
import KernelPlay.Fat.Outcome

namespace KernelPlay

open KernelPlay.Library

/-! ### Trees -/

/-- What lies behind an entry: a file, or a directory with its entries and what lies behind them. -/
inductive DirTree
  | file
  | directory (entries : List FatDirectoryItem) (child : FatDirectoryItem → DirTree)

def DirTree.entries : DirTree → List FatDirectoryItem
  | .file => []
  | .directory entries _ => entries

/-- `.` or `..`. -/
def Dotted (name : List UInt8) : Prop := SameName name [46] ∨ SameName name [46, 46]

instance (name : List UInt8) : Decidable (Dotted name) := by
  unfold Dotted
  infer_instance

/-- All entries are files and subdirectories, with pairwise different names. -/
structure NamesOnce (entries : List FatDirectoryItem) : Prop where
  live : ∀ entry ∈ entries, entry.Live
  distinct : entries.Pairwise fun one other =>
    ¬ SameName (fat16GetFullRelativeFilename one) (fat16GetFullRelativeFilename other)

/-- The entries of a subdirectory include `.` and `..`. -/
structure HasDots (entries : List FatDirectoryItem) : Prop where
  dot : ∃ entry ∈ entries, entry.Named [46]
  dotDot : ∃ entry ∈ entries, entry.Named [46, 46]

/-- **The tree lies on the drive**: each of its subdirectories in one data cluster, its end included. -/
inductive LaidOut (drive : Drive) (header : FatHeader) : DirTree → Prop
  | directory {entries : List FatDirectoryItem} {child : FatDirectoryItem → DirTree} :
      NamesOnce entries →
      (∀ entry ∈ entries, entry.IsDirectory → ¬ Dotted (fat16GetFullRelativeFilename entry) →
        DirectoryAt drive header entry (child entry).entries) →
      (∀ entry ∈ entries, entry.IsDirectory → ¬ Dotted (fat16GetFullRelativeFilename entry) →
        HasDots (child entry).entries) →
      (∀ entry ∈ entries, entry.IsDirectory → ¬ Dotted (fat16GetFullRelativeFilename entry) →
        LaidOut drive header (child entry)) →
      LaidOut drive header (.directory entries child)

/-- **The path leads to the entry**, in any mixture of letter case, and behind it lies `sub`. -/
inductive Leads : DirTree → Text → List Text → FatDirectoryItem → DirTree → Prop
  | last {entries : List FatDirectoryItem} {child : FatDirectoryItem → DirTree} {name : Text}
      {entry : FatDirectoryItem} :
      entry ∈ entries → entry.Named name.chars → ¬ Dotted name.chars →
      Leads (.directory entries child) name [] entry (child entry)
  | next {entries : List FatDirectoryItem} {child : FatDirectoryItem → DirTree} {name further : Text}
      {rest : List Text} {entry target : FatDirectoryItem} {sub : DirTree} :
      entry ∈ entries → entry.Named name.chars → ¬ Dotted name.chars → entry.IsDirectory →
      Leads (child entry) further rest target sub →
      Leads (.directory entries child) name (further :: rest) target sub

/-- What an item for the entry has to show: a copy of it, or all entries of the directory in order. -/
inductive ViewOf (entry : FatDirectoryItem) (sub : DirTree) : ItemView → Prop
  | file : ¬ entry.IsDirectory → ViewOf entry sub (.file entry)
  | directory {loaded : LoadedDirectory} : entry.IsDirectory →
      loaded.total = (sub.entries.length : Int) → loaded.items = sub.entries →
      ViewOf entry sub (.directory loaded)

theorem LaidOut.once {drive : Drive} {header : FatHeader} {tree : DirTree}
    (laid : LaidOut drive header tree) : NamesOnce tree.entries := by
  cases laid
  assumption

section Names

variable {entries : List FatDirectoryItem} {entry : FatDirectoryItem} {name : Text}

theorem NamesOnce.counted (once : NamesOnce entries) : counted entries = entries.length :=
  counted_of_none_deleted fun entry member => (once.live entry member).1

theorem SameName.dotted {one other : List UInt8} (same : SameName one other) (dotted : Dotted one) :
    Dotted other :=
  dotted.imp same.symm.trans same.symm.trans

/-- The first slot with the name of an entry is that entry. -/
theorem NamesOnce.slotNamed (once : NamesOnce entries) (member : entry ∈ entries)
    (named : entry.Named name.chars) : slotNamed entries name = some entry := by
  have distinct := once.distinct
  clear once
  unfold KernelPlay.slotNamed
  induction entries with
  | nil => cases member
  | cons first rest ih =>
    obtain ⟨differ, distinct⟩ := List.pairwise_cons.mp distinct
    rcases List.mem_cons.mp member with rfl | member
    · rw [List.find?_cons_of_pos (by simpa using named)]
    · have other : ¬ first.Named name.chars := fun same =>
        differ entry member (SameName.trans same (SameName.symm named))
      rw [List.find?_cons_of_neg (by simpa using other)]
      exact ih member distinct

end Names

/-! ### Walking down -/

/-- The allocator meets every request but those for nothing. -/
def Ample (allocator : Allocator) : Prop := ∀ call size, size ≠ 0 → allocator.grants call size = true

section Walk

variable {machine : Machine} {fatPrivate : FatPrivate} {entry : FatDirectoryItem} {heap : Kheap}
  {ptr : Ptr}

/-- A subdirectory is loaded, if its two requests are met. -/
theorem loadAt_stored {entries : List FatDirectoryItem} {call : Nat}
    (record : machine.allocator.grants call 16 = true)
    (room : machine.allocator.grants (call + 1) (32 * counted entries) = true)
    (mounted : Mounted machine.drive fatPrivate)
    (stored : DirectoryAt machine.drive fatPrivate.header entry entries) :
    ∃ loaded, loadAt machine fatPrivate entry call = .ok (some loaded) ∧ LoadedWith loaded entries := by
  obtain ⟨read, result, succeeds, items⟩ := loadRead_eq mounted stored
  refine ⟨loadedOf fatPrivate entry (counted entries : Int) read, ?_, rfl, items⟩
  unfold loadAt
  rw [if_pos record, loadTotal_eq mounted stored, ok_bind, stored.size.1, uint32_natCast stored.size.2,
    if_pos room, result, ok_bind, if_neg (not_not.mpr succeeds)]
  rfl

/-- A subdirectory that is not empty is loaded. -/
theorem loadAt_ample {entries : List FatDirectoryItem} (ample : Ample machine.allocator)
    (mounted : Mounted machine.drive fatPrivate)
    (stored : DirectoryAt machine.drive fatPrivate.header entry entries)
    (filled : 0 < counted entries) (call : Nat) :
    ∃ loaded, loadAt machine fatPrivate entry call = .ok (some loaded) ∧ LoadedWith loaded entries :=
  loadAt_stored (ample _ _ (by decide)) (ample _ _ (by omega)) mounted stored

/-- The item of an entry of the tree shows what lies behind it. -/
theorem built_of_laidOut {entries : List FatDirectoryItem} {child : FatDirectoryItem → DirTree}
    (ample : Ample machine.allocator) (mounted : Mounted machine.drive fatPrivate)
    (laid : LaidOut machine.drive fatPrivate.header (.directory entries child)) (member : entry ∈ entries)
    {name : Text} (named : entry.Named name.chars) (plain : ¬ Dotted name.chars) (call : Nat) :
    ∃ view, builtAt machine fatPrivate entry call = .ok (some view) ∧ ViewOf entry (child entry) view := by
  obtain ⟨-, stored, dots, below⟩ := laid
  have undotted : ¬ Dotted (fat16GetFullRelativeFilename entry) := fun dotted =>
    plain (SameName.dotted named dotted)
  unfold builtAt
  by_cases directory : entry.IsDirectory
  · have once := (below entry member directory undotted).once
    obtain ⟨dot, dot_member, -⟩ := (dots entry member directory undotted).dot
    have filled := List.length_pos_of_mem dot_member
    obtain ⟨loaded, load, total, items⟩ := loadAt_ample ample mounted
      (stored entry member directory undotted) (once.counted ▸ filled) (call + 1)
    rw [if_pos directory, load]
    refine ⟨_, rfl, .directory directory ?_ ?_⟩
    · rw [total, once.counted]
    · rw [items, once.counted, List.take_length]
  · rw [if_neg directory, if_pos (ample _ _ (by decide))]
    exact ⟨_, rfl, .file directory⟩

/-- **One turn of the walk** finds the item of the next entry and leaves everything else as it is. -/
theorem walk_built {loaded : LoadedDirectory} {footprint : List Ptr} {name : Text} (rest : List Text)
    {view : ItemView} (shows : Shows heap ptr (.directory loaded) footprint)
    (noNull : heap.lookup 0 = none) (granted : Store.Grants machine.allocator heap 8)
    (named : slotNamed (loaded.slots machine) name = some entry)
    (built : builtAt machine fatPrivate entry heap.calls = .ok (some view)) :
    ∃ item later footprint', fat16WalkParts machine fatPrivate heap ptr (name :: rest) =
        fat16WalkParts machine fatPrivate later item rest ∧ item ≠ 0 ∧ later.lookup 0 = none ∧
      Shows later item view footprint' ∧ (∀ other ∈ footprint', heap.lookup other = none) ∧
      ∀ other, other ∉ footprint → other ∉ footprint' → later.lookup other = heap.lookup other := by
  obtain ⟨item, heap', done, new⟩ := newItem_built granted noNull built
  have noNull' := new.noNull noNull
  obtain ⟨nonnull, -, footprint', shows', fresh, kept⟩ := new
  have keeps : Keeps heap heap' := fun other cell found => by
    rw [kept other, found]
    intro member
    rw [(fresh other member).2] at found
    cases found
  obtain ⟨later, freed, -, others⟩ := free_behind shows keeps
  refine ⟨item, later, footprint', ?_, nonnull, ?_, ?_, fun other member => (fresh other member).2,
    fun other outside outside' => (others other outside).trans (kept other outside')⟩
  · rw [walk_turn shows, named]
    dsimp only
    rw [done, ok_bind, freed, ok_bind]
  · rw [others 0 (shows.absent noNull), noNull']
  · exact shows'.frame fun other member => others other (shows.absent (fresh other member).2)

/-- The item at the end of a path is for the entry there. -/
structure Finds (heap : Kheap) (item : Ptr) (entry : FatDirectoryItem) (sub : DirTree) : Prop where
  nonnull : item ≠ 0
  shows : ∃ view footprint, ViewOf entry sub view ∧ Shows heap item view footprint

/-- A loaded directory of the tree is looked up in all its entries. -/
theorem slots_of_viewOf {sub : DirTree} {loaded : LoadedDirectory}
    (view : ViewOf entry sub (.directory loaded)) : loaded.slots machine = sub.entries := by
  cases view with
  | directory _ total items =>
    unfold LoadedDirectory.slots
    rw [← items]
    exact slots_of_length (by rw [total, items, Int.toNat_natCast])

/-- **A walk down the tree** finds the entry the path leads to. -/
theorem walk_finds (ample : Ample machine.allocator) (mounted : Mounted machine.drive fatPrivate)
    {tree : DirTree} {name : Text} {rest : List Text} {target : FatDirectoryItem} {sub : DirTree}
    (leads : Leads tree name rest target sub) :
    ∀ {heap : Kheap} {ptr : Ptr} {loaded : LoadedDirectory} {footprint : List Ptr},
      LaidOut machine.drive fatPrivate.header tree → loaded.slots machine = tree.entries →
      Shows heap ptr (.directory loaded) footprint → heap.lookup 0 = none →
      ∃ item later, fat16WalkParts machine fatPrivate heap ptr (name :: rest) = .ok (item, later) ∧
        Finds later item target sub ∧
        ∀ other cell, heap.lookup other = some cell → other ∉ footprint →
          later.lookup other = some cell := by
  induction leads with
  | @last entries child name entry member named plain =>
    intro heap ptr loaded footprint laid slots_eq shows noNull
    obtain ⟨view, built, view_of⟩ :=
      built_of_laidOut ample mounted laid member named plain heap.calls
    have found : slotNamed (loaded.slots machine) name = some entry :=
      slots_eq ▸ laid.once.slotNamed member named
    obtain ⟨item, later, footprint', turn, nonnull, -, shows', fresh, kept⟩ :=
      walk_built [] shows noNull (ample _ _ (by decide)) found built
    refine ⟨item, later, turn, ⟨nonnull, view, footprint', view_of, shows'⟩, fun other cell present outside => ?_⟩
    rw [kept other outside, present]
    intro member'
    rw [fresh other member'] at present
    cases present
  | @next entries child name further rest entry target sub member named plain directory leads ih =>
    intro heap ptr loaded footprint laid slots_eq shows noNull
    obtain ⟨view, built, view_of⟩ :=
      built_of_laidOut ample mounted laid member named plain heap.calls
    have once : NamesOnce entries := by
      cases laid
      assumption
    have below : LaidOut machine.drive fatPrivate.header (child entry) := by
      cases laid with
      | directory _ _ _ below =>
        exact below entry member directory fun dotted => plain (SameName.dotted named dotted)
    have found : slotNamed (loaded.slots machine) name = some entry :=
      slots_eq ▸ once.slotNamed member named
    obtain ⟨item, middle, footprint', turn, -, noNull', shows', fresh, kept⟩ :=
      walk_built (further :: rest) shows noNull (ample _ _ (by decide)) found built
    obtain ⟨loaded', rfl⟩ : ∃ loaded', view = .directory loaded' := by
      cases view_of with
      | file file => exact absurd directory file
      | directory => exact ⟨_, rfl⟩
    obtain ⟨item', later, walks, finds, kept'⟩ := ih below (slots_of_viewOf view_of) shows' noNull'
    refine ⟨item', later, turn.trans walks, finds, fun other cell present outside => ?_⟩
    have outside' : other ∉ footprint' := by
      intro member'
      rw [fresh other member'] at present
      cases present
    exact kept' other cell ((kept other outside outside').trans present) outside'

/-! ### From the root -/

/-- The entries of the root directory lie in its slots, with what ends them in or right behind. -/
structure RootAt (drive : Drive) (header : FatHeader) (entries : List FatDirectoryItem) : Prop where
  listed : EntriesAt drive (header.rootStart * 512) entries
  within : entries.length ≤ header.rootDirEntries.toNat
  below : header.rootStart * 512 + 32 * (header.rootDirEntries.toNat + 1) ≤ 2147483648

/-- The root directory loaded holds its entries. -/
theorem RootLoaded.holds {entries : List FatDirectoryItem} (loaded : RootLoaded machine fatPrivate heap)
    (root : RootAt machine.drive fatPrivate.header entries) :
    Holds heap fatPrivate.rootDirectory entries := by
  obtain ⟨before, start, left, same, done, found⟩ := loaded
  obtain ⟨listed, within, below⟩ := root
  have header := congrArg FatPrivate.header same
  dsimp only at header
  rw [header] at listed within below
  obtain ⟨total, items, record, enough, taken⟩ := root_loaded done listed within below
  exact ⟨total, items, found.trans record, enough, taken⟩

variable {tree sub : DirTree} {name : Text} {rest : List Text} {target : FatDirectoryItem}

/-- **The walk from the root** finds the entry the path leads to, and keeps what there was. -/
theorem entry_finds (ample : Ample machine.allocator) (mounted : Mounted machine.drive fatPrivate)
    (laid : LaidOut machine.drive fatPrivate.header tree)
    (holds : Holds heap fatPrivate.rootDirectory tree.entries) (noNull : heap.lookup 0 = none)
    (leads : Leads tree name rest target sub) :
    ∃ item later, fat16GetDirectoryEntry machine fatPrivate heap name rest = .ok (item, later) ∧
      Finds later item target sub ∧
      ∀ other cell, heap.lookup other = some cell → later.lookup other = some cell := by
  obtain ⟨items, found, same⟩ := slots_of_holds machine holds
  rw [laid.once.counted, List.take_length] at same
  have first {entries : List FatDirectoryItem} {child : FatDirectoryItem → DirTree}
      {entry : FatDirectoryItem} (laid : LaidOut machine.drive fatPrivate.header (.directory entries child))
      (same : slots machine fatPrivate.rootDirectory.total items = entries) (member : entry ∈ entries)
      (named : entry.Named name.chars) (plain : ¬ Dotted name.chars) :
      ∃ view item heap' footprint, ViewOf entry (child entry) view ∧ item ≠ 0 ∧
        (∀ rest, fat16GetDirectoryEntry machine fatPrivate heap name rest =
          fat16WalkParts machine fatPrivate heap' item rest) ∧
        heap'.lookup 0 = none ∧ Shows heap' item view footprint ∧
        ∀ other cell, heap.lookup other = some cell →
          heap'.lookup other = some cell ∧ other ∉ footprint := by
    obtain ⟨view, built, view_of⟩ :=
      built_of_laidOut ample mounted laid member named plain heap.calls
    obtain ⟨item, heap', done, new⟩ := newItem_built (ample _ _ (by decide)) noNull built
    have noNull' := new.noNull noNull
    obtain ⟨nonnull, -, footprint, shows, fresh, kept⟩ := new
    refine ⟨view, item, heap', footprint, view_of, nonnull, fun rest => ?_, noNull', shows,
      fun other cell present => ?_⟩
    · exact entry_turn found (same.symm ▸ laid.once.slotNamed member named) done nonnull
    · have outside : other ∉ footprint := by
        intro member
        rw [(fresh other member).2] at present
        cases present
      exact ⟨(kept other outside).trans present, outside⟩
  cases leads with
  | last member named plain =>
    obtain ⟨view, item, heap', footprint, view_of, nonnull, turn, -, shows, kept⟩ :=
      first laid same member named plain
    exact ⟨item, heap', turn [], ⟨nonnull, view, footprint, view_of, shows⟩,
      fun other cell present => (kept other cell present).1⟩
  | @next entries child _ further rest entry _ _ member named plain directory leads =>
    obtain ⟨view, item, heap', footprint, view_of, -, turn, noNull', shows, kept⟩ :=
      first laid same member named plain
    obtain ⟨loaded, rfl⟩ : ∃ loaded, view = .directory loaded := by
      cases view_of with
      | file file => exact absurd directory file
      | directory => exact ⟨_, rfl⟩
    have below : LaidOut machine.drive fatPrivate.header (child entry) := by
      cases laid with
      | directory _ _ _ below =>
        exact below entry member directory fun dotted => plain (SameName.dotted named dotted)
    obtain ⟨item', later, walks, finds, kept'⟩ :=
      walk_finds ample mounted leads below (slots_of_viewOf view_of) shows noNull'
    refine ⟨item', later, (turn _).trans walks, finds, fun other cell present => ?_⟩
    obtain ⟨present', outside⟩ := kept other cell present
    exact kept' other cell present' outside

/-- `fat16_open` of a path that leads to an entry of the tree, in any heap with the root directory. -/
theorem fat16Open_finds (ample : Ample machine.allocator) (mounted : Mounted machine.drive fatPrivate)
    (laid : LaidOut machine.drive fatPrivate.header tree)
    (holds : Holds heap fatPrivate.rootDirectory tree.entries) (noNull : heap.lookup 0 = none)
    (leads : Leads tree name rest target sub) :
    ∃ (descriptor item : Ptr) (later : Kheap), fat16Open machine fatPrivate heap name rest .read =
        .ok ((descriptor : Int), later) ∧ descriptor ≠ 0 ∧
      later.lookup descriptor = some (.fatDescriptor ⟨item, 0⟩) ∧ Finds later item target sub ∧
      ∀ other cell, heap.lookup other = some cell → later.lookup other = some cell := by
  obtain ⟨total, items, record, enough, taken⟩ := holds
  have granted : Store.Grants machine.allocator heap 8 := ample _ _ (by decide)
  have nonnull : Store.nextPtr machine.allocator heap 8 ≠ 0 := Store.nextPtr_ne_zero
  have holds : Holds (describing machine heap) fatPrivate.rootDirectory tree.entries :=
    ⟨total, items, describing_kept record, enough, taken⟩
  obtain ⟨item, later, walks, finds, kept⟩ :=
    entry_finds ample mounted laid holds (describing_noNull noNull) leads
  have kept_descriptor := kept (Store.nextPtr machine.allocator heap 8) _ Store.lookup_put_self
  obtain ⟨item_nonnull, view, footprint, view_of, shows⟩ := finds
  refine ⟨Store.nextPtr machine.allocator heap 8, item,
    later.put (Store.nextPtr machine.allocator heap 8) (.fatDescriptor ⟨item, 0⟩), ?_, nonnull,
    Store.lookup_put_self, ⟨item_nonnull, view, footprint, view_of, shows.frame fun other member => ?_⟩,
    fun other cell found => ?_⟩
  · rw [fat16Open_granted granted, walks]
    exact if_neg item_nonnull
  · refine Store.lookup_put_ne ?_
    rintro rfl
    exact shows.own kept_descriptor id member
  · rw [Store.lookup_put_ne (Store.nextPtr_ne found)]
    exact kept other cell (describing_kept found)

/-- **Path resolution finds the right entry**: on a mounted volume `fat16_open` of a path that leads to
an entry of the tree returns a descriptor at position 0 whose item is for exactly that entry. -/
theorem open_finds {before kernel : Kernel} (ample : Ample machine.allocator)
    (mount : fat16Resolve machine before = .ok (0, kernel))
    (volume : kernel.rootDisk.fsPrivate = some fatPrivate)
    (still : heap.lookup fatPrivate.rootDirectory.item =
      kernel.heap.lookup fatPrivate.rootDirectory.item)
    (noNull : heap.lookup 0 = none) (root : RootAt machine.drive fatPrivate.header tree.entries)
    (laid : LaidOut machine.drive fatPrivate.header tree) (leads : Leads tree name rest target sub) :
    ∃ (descriptor item : Ptr) (later : Kheap), fat16Open machine fatPrivate heap name rest .read =
        .ok ((descriptor : Int), later) ∧ descriptor ≠ 0 ∧
      later.lookup descriptor = some (.fatDescriptor ⟨item, 0⟩) ∧ Finds later item target sub := by
  obtain ⟨_, -, volume', mounted, loaded⟩ := fat16Resolve_mounted mount
  cases volume.symm.trans volume'
  obtain ⟨total, items, record, enough, taken⟩ := loaded.holds root
  obtain ⟨descriptor, item, later, opens, nonnull, found, finds, -⟩ :=
    fat16Open_finds ample mounted laid ⟨total, items, still.trans record, enough, taken⟩ noNull leads
  exact ⟨descriptor, item, later, opens, nonnull, found, finds⟩

end Walk

/-! ### A mount and a path -/

section Mount

variable {machine : Machine} {heap : Kheap}

theorem fat16InitPrivate_granted (ample : Ample machine.allocator) (noNull : heap.lookup 0 = none) :
    ∃ later, fat16InitPrivate machine heap 0 =
        .ok (some (⟨0, .rootDisk⟩, ⟨0, .rootDisk⟩, ⟨0, .rootDisk⟩), later) ∧ later.lookup 0 = none := by
  unfold fat16InitPrivate
  rw [diskStreamerNew_granted (ample _ _ (by decide)), ok_bind]
  dsimp only
  rw [diskStreamerNew_granted (ample _ _ (by decide)), ok_bind]
  dsimp only
  rw [diskStreamerNew_granted (ample _ _ (by decide)), ok_bind]
  refine ⟨_, rfl, ?_⟩
  rw [Store.lookup_put_ne Store.nextPtr_ne_zero.symm, Store.lookup_tick,
    Store.lookup_put_ne Store.nextPtr_ne_zero.symm, Store.lookup_tick,
    Store.lookup_put_ne Store.nextPtr_ne_zero.symm, Store.lookup_tick, noNull]

/-- A volume with a root directory is read, and what was in the heap stays. -/
theorem fat16ReadVolume_reads {fatPrivate : FatPrivate} {entries : List FatDirectoryItem}
    (ample : Ample machine.allocator)
    (signature : (FatHeader.parse (window machine.drive.image 0 62)).signature = kernelFat16Signature)
    (slots : (FatHeader.parse (window machine.drive.image 0 62)).rootDirEntries.toNat ≠ 0)
    (root : RootAt machine.drive (FatHeader.parse (window machine.drive.image 0 62)) entries) :
    ∃ fatPrivate' later, fat16ReadVolume machine heap fatPrivate ⟨0, .rootDisk⟩ =
        .ok (0, fatPrivate', later) ∧ (heap.lookup 0 = none → later.lookup 0 = none) ∧
      ∀ other cell, heap.lookup other = some cell → later.lookup other = some cell := by
  have read := diskStreamerReadBytes_window machine.drive .rootDisk 0 62 (by omega) (by omega)
  have bytes : (diskStreamerReadBytes machine.drive ⟨0, .rootDisk⟩ 62).bytes =
      window machine.drive.image 0 62 :=
    congrArg StreamRead.bytes read
  obtain ⟨listed, within, below⟩ := root
  obtain ⟨later, loads⟩ := @root_loads machine
    { fatPrivate with header := FatHeader.parse (window machine.drive.image 0 62) } heap entries
    (ample _ _ (by dsimp only; omega)) listed within below
  unfold fat16ReadVolume
  dsimp only
  rw [diskStreamerReadBytes_res, if_neg (by simp), bytes, if_neg (not_not.mpr signature), loads, ok_bind]
  refine ⟨_, _, if_neg (by simp [ok]), fun noNull => ?_, fun other cell found => ?_⟩
  · obtain ⟨_, _, _, _, rfl⟩ := fat16GetRootDirectory_ok loads
    exact (Store.lookup_put_ne Store.nextPtr_ne_zero.symm).trans noNull
  · obtain ⟨_, _, _, _, rfl⟩ := fat16GetRootDirectory_ok loads
    exact (Store.lookup_put_ne (Store.nextPtr_ne found)).trans found

/-- **A volume with a root directory mounts**, with room for it. -/
theorem fat16Resolve_mounts {kernel : Kernel} {entries : List FatDirectoryItem}
    (ample : Ample machine.allocator) (disk : kernel.rootDisk.id = 0)
    (noNull : kernel.heap.lookup 0 = none)
    (signature : (FatHeader.parse (window machine.drive.image 0 62)).signature = kernelFat16Signature)
    (slots : (FatHeader.parse (window machine.drive.image 0 62)).rootDirEntries.toNat ≠ 0)
    (root : RootAt machine.drive (FatHeader.parse (window machine.drive.image 0 62)) entries) :
    ∃ kernel', fat16Resolve machine kernel = .ok (0, kernel') ∧ kernel'.heap.lookup 0 = none := by
  unfold fat16Resolve
  dsimp only
  rw [disk, Store.zalloc_granted (ample _ _ (by decide))]
  dsimp only
  rw [if_neg Store.nextPtr_ne_zero]
  obtain ⟨initialized, init, noNull⟩ := @fat16InitPrivate_granted machine
    (kernel.heap.tick.put (Store.nextPtr machine.allocator kernel.heap 92) .fatPrivate) ample
    ((Store.lookup_put_ne Store.nextPtr_ne_zero.symm).trans noNull)
  rw [init, ok_bind]
  dsimp only
  rw [diskStreamerNew_granted (ample _ _ (by decide)), ok_bind]
  dsimp only
  have nonnull : Store.nextPtr machine.allocator initialized 8 ≠ 0 := Store.nextPtr_ne_zero
  generalize Store.nextPtr machine.allocator initialized 8 = stream at *
  obtain ⟨fatPrivate, later, reads, noNull', kept⟩ := @fat16ReadVolume_reads machine
    (initialized.tick.put stream .diskStreamer)
    ⟨FatHeader.parse [], ⟨0, 0, 0, 0⟩, ⟨0, .rootDisk⟩, ⟨0, .rootDisk⟩, ⟨0, .rootDisk⟩⟩ entries ample
    signature slots root
  have closes : diskStreamerClose later stream = .ok (later.erase stream) :=
    @kheapFree_eq _ later stream diskStreamerKind () (kept _ _ Store.lookup_put_self)
  rw [reads, ok_bind, closes, ok_bind]
  refine ⟨_, if_neg (lt_irrefl 0), ?_⟩
  exact (Store.lookup_erase_ne nonnull.symm).trans
    (noNull' ((Store.lookup_put_ne nonnull.symm).trans noNull))

end Mount

section Small

/-- The directory `D`. -/
def rootEntries : List FatDirectoryItem := [namedEntry 68 0x10 2]

def dotDotEntry : FatDirectoryItem where
  bytes index := if index.val < 2 then 46 else if index.val = 11 then 0x10 else 0

/-- Its file `F`, behind `.` and `..`. -/
def subEntries : List FatDirectoryItem := [namedEntry 46 0x10 2, dotDotEntry, namedEntry 70 0 0]

def treeMachine : Machine := smallMachine (treeDrive rootEntries subEntries)

def smallTree : DirTree := .directory rootEntries fun _ => .directory subEntries fun _ => .file

def pathD : Text := ⟨[68], by decide⟩

def pathF : Text := ⟨[102], by decide⟩

theorem tree_header : FatHeader.parse (window treeMachine.drive.image 0 62) = smallHeader := by
  decide

theorem tree_root : RootAt treeMachine.drive smallHeader rootEntries where
  listed := by decide
  within := by decide
  below := by decide

theorem tree_stored : DirectoryAt treeMachine.drive smallHeader (namedEntry 68 0x10 2) subEntries where
  directory := by decide
  data := ⟨by decide, by decide⟩
  below := by
    unfold FatHeader.Below
    decide
  fits := by decide
  listed := by decide

theorem subEntries_laid : LaidOut treeMachine.drive smallHeader (.directory subEntries fun _ => .file) := by
  have leaves : ∀ entry ∈ subEntries, entry.IsDirectory →
      Dotted (fat16GetFullRelativeFilename entry) := by
    decide
  have once : NamesOnce subEntries := ⟨by decide, by decide⟩
  exact .directory once (fun entry member directory plain => absurd (leaves entry member directory) plain)
    (fun entry member directory plain => absurd (leaves entry member directory) plain)
    fun entry member directory plain => absurd (leaves entry member directory) plain

theorem smallTree_laid : LaidOut treeMachine.drive smallHeader smallTree := by
  have only : ∀ entry ∈ rootEntries, entry = namedEntry 68 0x10 2 := by decide
  refine .directory ⟨by decide, by decide⟩ (fun entry member _ _ => ?_) (fun _ _ _ _ => ?_)
    fun _ _ _ _ => subEntries_laid
  · rw [only entry member]
    exact tree_stored
  · exact ⟨by decide, by decide⟩

theorem small_mount : ∃ kernel, fat16Resolve treeMachine bootKernel = .ok (0, kernel) ∧
    kernel.heap.lookup 0 = none :=
  @fat16Resolve_mounts treeMachine bootKernel rootEntries (fun _ _ _ => rfl) rfl rfl (tree_header ▸ rfl)
    (tree_header ▸ by decide) (tree_header ▸ tree_root)

/-! #### A root directory of two files -/

def noteTree : DirTree := .directory noteEntries fun _ => .file

def pathN : Text := ⟨[110], by decide⟩

theorem note_header : FatHeader.parse (window noteMachine.drive.image 0 62) = smallHeader := by
  decide

theorem note_root : RootAt noteMachine.drive smallHeader noteEntries where
  listed := by decide
  within := by decide
  below := by decide

/-- A directory of files is laid out if no name is there twice. -/
theorem laidOut_files {drive : Drive} {header : FatHeader} {entries : List FatDirectoryItem}
    (once : NamesOnce entries) (files : ∀ entry ∈ entries, ¬ entry.IsDirectory) :
    LaidOut drive header (.directory entries fun _ => .file) :=
  .directory once (fun entry member directory => absurd directory (files entry member))
    (fun entry member directory => absurd directory (files entry member))
    fun entry member directory => absurd directory (files entry member)

theorem note_laid : LaidOut noteMachine.drive smallHeader noteTree :=
  laidOut_files ⟨by decide, by decide⟩ (by decide)

theorem note_mount : ∃ kernel, fat16Resolve noteMachine bootKernel = .ok (0, kernel) ∧
    kernel.heap.lookup 0 = none :=
  @fat16Resolve_mounts noteMachine bootKernel noteEntries (fun _ _ _ => rfl) rfl rfl (note_header ▸ rfl)
    (note_header ▸ by decide) (note_header ▸ note_root)

/-! #### Refusals -/

/-- The machine of the small tree, with the requests of these numbers refused. -/
def refusingMachine (refused : Nat → Bool) : Machine :=
  { treeMachine with allocator := { Allocator.bump with grants := fun call _ => !refused call } }

/-- A mount makes six requests. -/
theorem refusing_mount (number : Nat) (member : number ∈ [6, 12]) :
    ∃ kernel, fat16Resolve (refusingMachine (· == number)) bootKernel = .ok (0, kernel) ∧
      kernel.heap.calls = 6 := by
  have mounts : ((fat16Resolve (refusingMachine (· == number)) bootKernel).map fun result =>
      (result.1, result.2.heap.calls)).toOption = some (0, 6) := by
    revert number
    decide
  cases result_eq : fat16Resolve (refusingMachine (· == number)) bootKernel with
  | error fault =>
    rw [result_eq] at mounts
    cases mounts
  | ok result =>
    rw [result_eq] at mounts
    obtain ⟨status, calls⟩ := Prod.mk.inj (Option.some.inj mounts)
    exact ⟨result.2, by rw [← status], calls⟩

/-- `d/f`, the file `F` in the directory `D`. -/
theorem open_finds_file :
    ∃ kernel fatPrivate, fat16Resolve treeMachine bootKernel = .ok (0, kernel) ∧
      ∃ (descriptor item : Ptr) (later : Kheap),
        fat16Open treeMachine fatPrivate kernel.heap pathD [pathF] .read = .ok ((descriptor : Int), later) ∧
        descriptor ≠ 0 ∧ later.lookup descriptor = some (.fatDescriptor ⟨item, 0⟩) ∧
        Finds later item (namedEntry 70 0 0) .file := by
  obtain ⟨kernel, mount, noNull⟩ := small_mount
  obtain ⟨fatPrivate, -, volume, mounted, -⟩ := fat16Resolve_mounted mount
  have header : fatPrivate.header = smallHeader := mounted.header.trans tree_header
  refine ⟨kernel, fatPrivate, mount, ?_⟩
  refine @open_finds treeMachine fatPrivate kernel.heap smallTree .file pathD [pathF] (namedEntry 70 0 0)
    bootKernel kernel (fun _ _ _ => rfl) mount volume rfl noNull (header ▸ tree_root) (header ▸ smallTree_laid) ?_
  exact .next List.mem_cons_self (by decide) (by decide) (by decide)
    (.last (by decide) (by decide) (by decide))

theorem tree_mounted : Mounted treeMachine.drive (treePrivate rootEntries) where
  header := by decide
  sectorPos := by decide
  endingSectorPos := by decide

theorem tree_holds :
    ∃ heap : Kheap, heap.lookup 0 = none ∧ ∃ items,
      heap.lookup (treePrivate rootEntries).rootDirectory.item = some (.directoryItems items) ∧
      slots treeMachine (treePrivate rootEntries).rootDirectory.total items = rootEntries := by
  obtain ⟨heap, loaded, noNull⟩ := @tree_loaded rootEntries subEntries (by decide) (by decide)
  obtain ⟨items, found, same⟩ := slots_of_holds treeMachine loaded.holds
  exact ⟨heap, noNull, items, found, same.trans (by decide)⟩

end Small

end KernelPlay
