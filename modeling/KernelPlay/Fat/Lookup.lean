/-
**Looking up a name in a loaded directory.**

`fat16GetItemInDirectory_eq` — a lookup builds the item of the first slot with the name, whatever the
slot is. The slots it looks at are as many as the directory has entries that are not deleted, counted
from its start, so a deleted entry, a volume label or a long name in front hides a live one behind
(`lookup_exact_fails`). `lookup_exact_iff` says when a lookup is exact.
-/

import KernelPlay.Fat.Item

namespace KernelPlay

open KernelPlay.Library

section Find

variable {machine : Machine} {fatPrivate : FatPrivate} {heap : Kheap} {directory : FatDirectory}
  {items : List FatDirectoryItem}

/-- What the driver reads as slot `index` of an array of entries. -/
def slotAt (machine : Machine) (items : List FatDirectoryItem) (index : Nat) : FatDirectoryItem :=
  (items[index]?).getD (machine.beyond items index)

/-- The slots a lookup goes through in a directory of `total` entries. -/
def slots (machine : Machine) (total : Int) (items : List FatDirectoryItem) : List FatDirectoryItem :=
  window (slotAt machine items) 0 total.toNat

theorem fat16FindItem_eq (found : heap.lookup directory.item = some (.directoryItems items))
    (path : Text) :
    ∀ left index, fat16FindItem machine fatPrivate heap directory path left index =
      match (window (slotAt machine items) index left).find?
        fun entry => entry.Named path.chars with
      | none => .ok (0, heap)
      | some entry => fat16NewFatItemForDirectoryItem machine fatPrivate heap entry
  | 0, _ => rfl
  | left + 1, index => by
      have slot : directoryEntry machine heap directory index =
          .ok (slotAt machine items index) := by
        rw [directoryEntry, deref_eq directoryItemsKind found, ok_bind]
        rfl
      rw [fat16FindItem, slot, ok_bind, window_succ]
      by_cases named : (slotAt machine items index).Named path.chars
      · rw [if_pos ((istrncmp_rendered _ path).mpr named), List.find?_cons_of_pos (by simpa using named)]
      · rw [if_neg fun same => named ((istrncmp_rendered _ path).mp same),
          List.find?_cons_of_neg (by simpa using named)]
        exact fat16FindItem_eq found path left (index + 1)

/-- **A lookup** builds the item of the first slot with the name. -/
theorem fat16GetItemInDirectory_eq
    (found : heap.lookup directory.item = some (.directoryItems items)) (path : Text) :
    fat16GetItemInDirectory machine fatPrivate heap directory path =
      match (slots machine directory.total items).find? fun entry => entry.Named path.chars with
      | none => .ok (0, heap)
      | some entry => fat16NewFatItemForDirectoryItem machine fatPrivate heap entry :=
  fat16FindItem_eq found path _ 0

/-- An array as long as its directory's count is read to its end and no further. -/
theorem slots_of_length {total : Int} (length : total.toNat = items.length) :
    slots machine total items = items := by
  rw [slots, length]
  refine List.ext_getElem (window_length ..) fun index below inside => ?_
  rw [window_length] at below
  rw [window_getElem, slotAt, Nat.zero_add, List.getElem?_eq_getElem inside, Option.getD_some]

variable (machine) in
/-- The slots of a directory that holds its entries. -/
theorem slots_of_holds {entries : List FatDirectoryItem} (holds : Holds heap directory entries) :
    ∃ items, heap.lookup directory.item = some (.directoryItems items) ∧
      slots machine directory.total items = entries.take (counted entries) := by
  obtain ⟨total, items, found, enough, same⟩ := holds
  refine ⟨items, found, ?_⟩
  rw [slots, total, Int.toNat_natCast, ← same]
  refine List.ext_getElem (by simp [enough]) fun index below _ => ?_
  rw [window_length] at below
  rw [window_getElem, List.getElem_take, slotAt, Nat.zero_add,
    List.getElem?_eq_getElem (by omega), Option.getD_some]

end Find

/-! ### Directories of one cluster -/

section Subdirectory

variable {machine : Machine} {fatPrivate : FatPrivate} {heap heap' : Kheap} {item : FatDirectoryItem}
  {entries : List FatDirectoryItem}

/-- **The entry's directory** lies in one data cluster, its end included. -/
structure DirectoryAt (drive : Drive) (header : FatHeader) (item : FatDirectoryItem)
    (entries : List FatDirectoryItem) : Prop where
  directory : item.IsDirectory
  data : IsDataNumber (fat16GetFirstCluster item)
  below : header.Below (fat16GetFirstCluster item)
  fits : 32 * (entries.length + 1) ≤ header.clusterBytes
  listed : EntriesAt drive (header.clusterSector (fat16GetFirstCluster item) * 512) entries

theorem loadTotal_eq (mounted : Mounted machine.drive fatPrivate)
    (stored : DirectoryAt machine.drive fatPrivate.header item entries) :
    loadTotal machine fatPrivate item = .ok (counted entries : Int) := by
  obtain ⟨-, data, below, fits, listed⟩ := stored
  rw [loadTotal, fat16ClusterToSector_eq mounted data]
  refine fat16GetTotalItemsForDirectory_eq listed ?_
  unfold FatHeader.Below at below
  omega

/-- The bytes of the slots loaded are fewer than a cluster has. -/
theorem DirectoryAt.small {drive : Drive} {header : FatHeader}
    (stored : DirectoryAt drive header item entries) :
    32 * counted entries ≤ 255 * 512 := by
  have fits := stored.fits
  have fewer := counted_le entries
  have spc := header.sectorsPerCluster.toNat_lt
  unfold FatHeader.clusterBytes at fits
  omega

theorem DirectoryAt.size {drive : Drive} {header : FatHeader}
    (stored : DirectoryAt drive header item entries) :
    int32 ((counted entries : Int) * 32) = ((32 * counted entries : Nat) : Int) ∧
      32 * counted entries < 4294967296 := by
  have small := stored.small
  rw [int32_of_range (by omega) (by omega)]
  omega

/-- The read of a directory in one cluster delivers its slots. -/
theorem loadRead_eq (mounted : Mounted machine.drive fatPrivate)
    (stored : DirectoryAt machine.drive fatPrivate.header item entries) :
    ∃ read, loadRead machine fatPrivate item (counted entries : Int) = .ok read ∧ read.res = ok ∧
      (loadedOf fatPrivate item (counted entries : Int) read).items =
        entries.take (counted entries) := by
  obtain ⟨size, small⟩ := stored.size
  obtain ⟨-, data, below, fits, listed⟩ := stored
  have fewer := counted_le entries
  have spc : fatPrivate.header.sectorsPerCluster ≠ 0 := by
    intro zero
    rw [FatHeader.clusterBytes, zero] at fits
    exact absurd fits (by simp)
  have start : clustersAhead fatPrivate 0 = 0 ∧
      (0 : Int).tmod (fat16GetClusterSizeInBytes fatPrivate) = ((0 : Nat) : Int) := by
    rw [clustersAhead, Int.zero_tdiv, Int.zero_tmod]
    exact ⟨rfl, rfl⟩
  have one_cluster : ((32 * counted entries : Nat) : Int) < fat16GetClusterSizeInBytes fatPrivate -
      ((0 : Nat) : Int) := by
    rw [fat16GetClusterSizeInBytes_eq]
    unfold FatHeader.clusterBytes at fits
    omega
  have reach := inReach_of_below mounted data below
  have delivered : (fat16CopyLoop machine.drive fatPrivate fatPrivate.clusterReadStream
      (fat16GetClusterSizeInBytes fatPrivate) (32 * counted entries) (fat16GetFirstCluster item)
      ((0 : Nat) : Int) ((32 * counted entries : Nat) : Int)).res = ok ∧
    (fat16CopyLoop machine.drive fatPrivate fatPrivate.clusterReadStream
      (fat16GetClusterSizeInBytes fatPrivate) (32 * counted entries) (fat16GetFirstCluster item)
      ((0 : Nat) : Int) ((32 * counted entries : Nat) : Int)).out =
        window machine.drive.image (fatPrivate.header.clusterSector (fat16GetFirstCluster item) * 512)
          (32 * counted entries) := by
    by_cases none : 32 * counted entries = 0
    · rw [none]
      exact ⟨rfl, rfl⟩
    · obtain ⟨turns, more⟩ : ∃ turns, 32 * counted entries = turns + 1 :=
        ⟨32 * counted entries - 1, by omega⟩
      rw [more, fat16CopyLoop_last (by omega) data.readable (by rw [← more]; exact one_cluster), ← more]
      refine ⟨rfl, ?_⟩
      unfold FatHeader.clusterBytes at fits
      dsimp only
      rw [read_inside_cluster reach (by omega) (by omega), clusterContents_eq mounted data,
        List.drop_zero, volumeContents, window_take _ (by unfold FatHeader.clusterBytes; omega)]
  refine ⟨_, by rw [loadRead, fat16ReadInternalV2_eq spc, start.1, start.2, size, Int.toNat_natCast]; rfl,
    delivered.1, ?_⟩
  have slots_count : entriesOf ((32 * counted entries : Nat) : Int) = counted entries := by
    rw [entriesOf, uint32_natCast small]
    omega
  simp only [loadedOf]
  rw [size, slots_count]
  change FatDirectoryItem.parseAll _ (fat16CopyLoop _ _ _ _ _ _ _ _).out = _
  rw [delivered.2, parseAll_window, slots_eq_take entries _ _ listed fewer]

/-- **A subdirectory loaded** holds its entries. -/
theorem subdirectory_loaded {ptr : Ptr} {directory : FatDirectory}
    (mounted : Mounted machine.drive fatPrivate)
    (stored : DirectoryAt machine.drive fatPrivate.header item entries) (noNull : heap.lookup 0 = none)
    (done : fat16LoadFatDirectory machine fatPrivate heap item = .ok (ptr, heap'))
    (found : heap'.lookup ptr = some (.fatDirectory directory)) : Holds heap' directory entries := by
  obtain ⟨read, result, succeeds, items_eq⟩ := loadRead_eq mounted stored
  have outcome := @load_outcome machine fatPrivate item heap stored.directory
  have loadAt_cases : loadAt machine fatPrivate item heap.calls = .ok none ∨
      loadAt machine fatPrivate item heap.calls =
        .ok (some (loadedOf fatPrivate item (counted entries : Int) read)) := by
    unfold loadAt
    rw [loadTotal_eq mounted stored, ok_bind, result, ok_bind, if_neg (not_not.mpr succeeds)]
    split_ifs
    · exact .inr rfl
    · exact .inl rfl
    · exact .inl rfl
  rw [done] at outcome
  rcases loadAt_cases with none | some
  · rw [none] at outcome
    cases outcome with
    | stray missing same =>
      rw [same] at found
      rcases missing with rfl | missing
      · rw [noNull] at found
        cases found
      · rw [missing] at found
        cases found
  · rw [some] at outcome
    cases outcome with
    | loaded new =>
      obtain ⟨-, -, -, buffer, -, -, record, records, -⟩ := new
      rw [record] at found
      cases found
      refine ⟨rfl, _, records, ?_, ?_⟩
      · rw [items_eq, List.length_take]
        exact Nat.le_of_eq (Nat.min_eq_left (counted_le entries)).symm
      · rw [items_eq, List.take_take, Nat.min_self]

end Subdirectory

/-! ### Exact lookups -/

/-- The allocator does not run out. -/
def Roomy (allocator : Allocator) : Prop := ∀ call size, allocator.grants call size = true

section View

variable (machine : Machine) (fatPrivate : FatPrivate) (item : FatDirectoryItem)

/-- The directory an entry names, if its clusters can be read. -/
def loadView : Except Fault (Option LoadedDirectory) := do
  let totalItems ← loadTotal machine fatPrivate item
  let read ← loadRead machine fatPrivate item totalItems
  return if read.res ≠ ok then none else some (loadedOf fatPrivate item totalItems read)

/-- **What an item for the entry shows**: the file's entry, or the directory it names; nothing if that
cannot be read. -/
def itemView : Option ItemView :=
  if item.IsDirectory then
    match loadView machine fatPrivate item with
    | .ok (some loaded) => some (.directory loaded)
    | _ => none
  else some (.file item)

variable {machine fatPrivate item} {heap : Kheap}

theorem loadAt_roomy (roomy : Roomy machine.allocator) (call : Nat) :
    loadAt machine fatPrivate item call = loadView machine fatPrivate item := by
  unfold loadAt loadView
  rw [if_pos (roomy _ _)]
  cases loadTotal machine fatPrivate item with
  | error fault => rfl
  | ok totalItems =>
    rw [ok_bind, ok_bind, if_pos (roomy _ _)]

/-- The directory the entry names, if it names one, can be read. -/
def Loads (machine : Machine) (fatPrivate : FatPrivate) (item : FatDirectoryItem) : Prop :=
  item.IsDirectory → ∃ loaded, loadView machine fatPrivate item = .ok (some loaded)

theorem itemView_of_loads (loads : Loads machine fatPrivate item) :
    ∃ view, itemView machine fatPrivate item = some view := by
  unfold itemView
  by_cases directory : item.IsDirectory
  · obtain ⟨loaded, view⟩ := loads directory
    rw [if_pos directory, view]
    exact ⟨_, rfl⟩
  · rw [if_neg directory]
    exact ⟨_, rfl⟩

theorem itemView_directory {loaded : LoadedDirectory} (directory : item.IsDirectory)
    (load : loadView machine fatPrivate item = .ok (some loaded)) :
    itemView machine fatPrivate item = some (.directory loaded) := by
  rw [itemView, if_pos directory, load]

theorem builtAt_some_iff (roomy : Roomy machine.allocator) {call : Nat} {view : ItemView} :
    builtAt machine fatPrivate item call = .ok (some view) ↔
      itemView machine fatPrivate item = some view := by
  unfold builtAt itemView
  rw [loadAt_roomy roomy, if_pos (roomy _ _)]
  by_cases directory : item.IsDirectory
  · rw [if_pos directory, if_pos directory]
    rcases loadView machine fatPrivate item with fault | _ | loaded
    · exact ⟨nofun, nofun⟩
    · exact ⟨nofun, nofun⟩
    · exact ⟨fun built => Except.ok.inj built, fun shown => congrArg Except.ok shown⟩
  · rw [if_neg directory, if_neg directory]
    exact ⟨fun built => Except.ok.inj built, fun shown => congrArg Except.ok shown⟩

/-- An entry whose item has room and can be read gets it. -/
theorem newItem_built {view : ItemView} (granted : Store.Grants machine.allocator heap 8)
    (noNull : heap.lookup 0 = none)
    (built : builtAt machine fatPrivate item heap.calls = .ok (some view)) :
    ∃ ptr heap', fat16NewFatItemForDirectoryItem machine fatPrivate heap item = .ok (ptr, heap') ∧
      NewItem heap heap' ptr view := by
  have outcome := @newItem_outcome machine fatPrivate item heap granted noNull
  rw [built] at outcome
  generalize fat16NewFatItemForDirectoryItem machine fatPrivate heap item = result at outcome
  cases outcome with
  | built new => exact ⟨_, _, rfl, new⟩

/-- The directory is in memory with its first entries, as many as are not deleted. -/
structure LoadedWith (loaded : LoadedDirectory) (entries : List FatDirectoryItem) : Prop where
  total : loaded.total = (counted entries : Int)
  items : loaded.items = entries.take (counted entries)

theorem LoadedWith.slots {loaded : LoadedDirectory} {entries : List FatDirectoryItem}
    (loads : LoadedWith loaded entries) :
    slots machine loaded.total loaded.items = entries.take (counted entries) := by
  obtain ⟨total, items⟩ := loads
  rw [items]
  refine slots_of_length ?_
  rw [total, List.length_take, Nat.min_eq_left (counted_le entries), Int.toNat_natCast]

/-- A directory in one cluster can be read. -/
theorem loadView_of_stored {entries : List FatDirectoryItem} (mounted : Mounted machine.drive fatPrivate)
    (stored : DirectoryAt machine.drive fatPrivate.header item entries) :
    ∃ loaded, loadView machine fatPrivate item = .ok (some loaded) ∧ LoadedWith loaded entries := by
  obtain ⟨read, result, succeeds, items⟩ := loadRead_eq mounted stored
  refine ⟨loadedOf fatPrivate item (counted entries : Int) read, ?_, rfl, items⟩
  unfold loadView
  rw [loadTotal_eq mounted stored, ok_bind, result, ok_bind, if_neg (not_not.mpr succeeds)]
  rfl

theorem loads_of_itemView {view : ItemView} (shown : itemView machine fatPrivate item = some view) :
    Loads machine fatPrivate item := by
  intro directory
  unfold itemView at shown
  rw [if_pos directory] at shown
  rcases result : loadView machine fatPrivate item with fault | _ | loaded
  · rw [result] at shown
    cases shown
  · rw [result] at shown
    cases shown
  · exact ⟨loaded, rfl⟩

end View

section Exact

variable {machine : Machine} {fatPrivate : FatPrivate} {heap : Kheap} {directory : FatDirectory}
  {entries : List FatDirectoryItem}

/-- The slot a lookup stops at. -/
def matched (machine : Machine) (directory : FatDirectory) (items : List FatDirectoryItem)
    (path : Text) : Option FatDirectoryItem :=
  (slots machine directory.total items).find? fun slot =>
    istrncmp (fat16GetFullRelativeFilename slot) path.chars 100 = 0

/-- **An exact lookup** succeeds exactly if a live entry has the name, and then builds an item that is
for such an entry; the slot it stops at is never deleted, a volume label or part of a long name. -/
structure LookupExact (machine : Machine) (fatPrivate : FatPrivate) (heap : Kheap)
    (directory : FatDirectory) (entries : List FatDirectoryItem) (path : Text) : Prop where
  item : ∃ item heap',
    fat16GetItemInDirectory machine fatPrivate heap directory path = .ok (item, heap') ∧
    (item ≠ 0 ↔ ∃ entry ∈ entries, entry.Live ∧ entry.Named path.chars) ∧
    (item ≠ 0 → ∃ entry ∈ entries, entry.Live ∧ entry.Named path.chars ∧
      ∃ view footprint, itemView machine fatPrivate entry = some view ∧
        Shows heap' item view footprint)
  live : ∀ items, heap.lookup directory.item = some (.directoryItems items) →
    ∀ slot, matched machine directory items path = some slot → slot.Live

/-- The entry a lookup takes: the first with the name among as many slots as are not deleted. -/
def firstNamed (entries : List FatDirectoryItem) (name : List UInt8) : Option FatDirectoryItem :=
  (entries.take (counted entries)).find? fun entry => entry.Named name

/-- The entry a lookup takes is live, and can be read if it is a directory; if it takes none, no live
entry has the name. -/
def TakesLive (machine : Machine) (fatPrivate : FatPrivate) (entries : List FatDirectoryItem)
    (name : List UInt8) : Prop :=
  match firstNamed entries name with
  | some first => first.Live ∧ Loads machine fatPrivate first
  | none => ∀ entry ∈ entries, entry.Live → ¬ entry.Named name

theorem firstNamed_some {name : List UInt8} {first : FatDirectoryItem}
    (found : firstNamed entries name = some first) : first ∈ entries ∧ first.Named name :=
  ⟨List.mem_of_mem_take (List.mem_of_find?_eq_some found), by simpa using List.find?_some found⟩

theorem matched_of_holds {items : List FatDirectoryItem} (holds : Holds heap directory entries)
    (found : heap.lookup directory.item = some (.directoryItems items)) (path : Text) :
    matched machine directory items path = firstNamed entries path.chars := by
  obtain ⟨items', found', same⟩ := slots_of_holds machine holds
  rw [found] at found'
  cases found'
  simp only [matched, firstNamed, same, istrncmp_rendered]

variable (machine fatPrivate) in
theorem getItem_of_holds (holds : Holds heap directory entries) (path : Text) :
    fat16GetItemInDirectory machine fatPrivate heap directory path =
      match firstNamed entries path.chars with
      | none => .ok (0, heap)
      | some entry => fat16NewFatItemForDirectoryItem machine fatPrivate heap entry := by
  obtain ⟨items, found, same⟩ := slots_of_holds machine holds
  rw [fat16GetItemInDirectory_eq found, same]
  rfl

theorem exact_of_none (holds : Holds heap directory entries) {path : Text}
    (nothing : firstNamed entries path.chars = none) :
    LookupExact machine fatPrivate heap directory entries path ↔
      ∀ entry ∈ entries, entry.Live → ¬ entry.Named path.chars := by
  have result := getItem_of_holds machine fatPrivate holds path
  rw [nothing] at result
  refine ⟨?_, fun none => ⟨⟨0, heap, result, ⟨fun differ => absurd rfl differ, ?_⟩,
    fun differ => absurd rfl differ⟩, fun items found slot stops => ?_⟩⟩
  · rintro ⟨⟨item, heap', same, live, -⟩, -⟩ entry member alive named
    cases result.symm.trans same
    exact live.mpr ⟨entry, member, alive, named⟩ rfl
  · rintro ⟨entry, member, alive, named⟩
    exact absurd named (none entry member alive)
  · rw [matched_of_holds holds found, nothing] at stops
    cases stops

theorem exact_of_some (roomy : Roomy machine.allocator) (noNull : heap.lookup 0 = none)
    (holds : Holds heap directory entries) {path : Text} {first : FatDirectoryItem}
    (takes : firstNamed entries path.chars = some first) :
    LookupExact machine fatPrivate heap directory entries path ↔
      first.Live ∧ Loads machine fatPrivate first := by
  have result := getItem_of_holds machine fatPrivate holds path
  obtain ⟨member, named⟩ := firstNamed_some takes
  have outcome := @newItem_outcome machine fatPrivate first heap (roomy _ _) noNull
  rw [takes] at result
  dsimp only at result
  refine ⟨?_, fun both => ?_⟩
  · rintro ⟨⟨item, heap', same, live, shown⟩, never⟩
    obtain ⟨items, found, -⟩ := slots_of_holds machine holds
    have alive := never items found first ((matched_of_holds holds found path).trans takes)
    have nonnull := live.mpr ⟨first, member, alive, named⟩
    obtain ⟨-, -, -, -, view', footprint', -, shows⟩ := shown nonnull
    rw [← result, same] at outcome
    cases built : builtAt machine fatPrivate first heap.calls with
    | error fault =>
      rw [built] at outcome
      cases outcome
    | ok view =>
      rw [built] at outcome
      cases outcome with
      | stray stray => exact absurd shows stray.not_shows
      | built new => exact ⟨alive, loads_of_itemView ((builtAt_some_iff roomy).mp built)⟩
  · obtain ⟨view, shown⟩ := itemView_of_loads both.2
    obtain ⟨ptr, heap', built, nonnull, -, footprint, shows, -⟩ :=
      newItem_built (roomy _ _) noNull ((builtAt_some_iff roomy).mpr shown)
    have witnessed : ∃ entry ∈ entries, entry.Live ∧ entry.Named path.chars :=
      ⟨first, member, both.1, named⟩
    refine ⟨⟨ptr, heap', result.trans built, ⟨fun _ => witnessed, fun _ => nonnull⟩, fun _ =>
      ⟨first, member, both.1, named, view, footprint, shown, shows⟩⟩, fun items found slot stops => ?_⟩
    rw [matched_of_holds holds found, takes] at stops
    cases stops
    exact both.1

theorem exact_of_holds (roomy : Roomy machine.allocator) (noNull : heap.lookup 0 = none)
    (holds : Holds heap directory entries) (path : Text) :
    LookupExact machine fatPrivate heap directory entries path ↔
      TakesLive machine fatPrivate entries path.chars := by
  unfold TakesLive
  cases takes : firstNamed entries path.chars with
  | none => exact exact_of_none holds takes
  | some first => exact exact_of_some roomy noNull holds takes

/-- **A directory loaded from the disk**: the root, whose slots hold its entries, or a subdirectory in one
cluster. -/
inductive LoadedFrom (machine : Machine) (fatPrivate : FatPrivate) (entries : List FatDirectoryItem) :
    FatDirectory → Kheap → Prop
  | root {before : FatPrivate} {heap heap' : Kheap} {directory : FatDirectory} :
      fatPrivate = { before with rootDirectory := directory } →
      fat16GetRootDirectory machine before heap = .ok (0, directory, heap') →
      EntriesAt machine.drive (before.header.rootStart * 512) entries →
      entries.length ≤ before.header.rootDirEntries.toNat →
      before.header.rootStart * 512 + 32 * (before.header.rootDirEntries.toNat + 1) ≤ 2147483648 →
      LoadedFrom machine fatPrivate entries directory heap'
  | subdirectory {item : FatDirectoryItem} {heap heap' : Kheap} {ptr : Ptr} {directory : FatDirectory} :
      Mounted machine.drive fatPrivate → DirectoryAt machine.drive fatPrivate.header item entries →
      heap.lookup 0 = none → fat16LoadFatDirectory machine fatPrivate heap item = .ok (ptr, heap') →
      heap'.lookup ptr = some (.fatDirectory directory) →
      LoadedFrom machine fatPrivate entries directory heap'

theorem LoadedFrom.holds (loaded : LoadedFrom machine fatPrivate entries directory heap) :
    Holds heap directory entries := by
  cases loaded with
  | root _ done listed within below => exact root_loaded done listed within below
  | subdirectory mounted stored noNull done found =>
    exact subdirectory_loaded mounted stored noNull done found

/-- **A lookup in a loaded directory is exact** if and only if the entry it takes is live and can be
read, or it takes none and no live entry has the name. -/
theorem lookup_exact_iff {loadedHeap : Kheap} (roomy : Roomy machine.allocator)
    (loaded : LoadedFrom machine fatPrivate entries directory loadedHeap)
    (still : heap.lookup directory.item = loadedHeap.lookup directory.item)
    (noNull : heap.lookup 0 = none) (path : Text) :
    LookupExact machine fatPrivate heap directory entries path ↔
      TakesLive machine fatPrivate entries path.chars := by
  obtain ⟨total, items, found, enough, same⟩ := loaded.holds
  exact exact_of_holds roomy noNull ⟨total, items, still.trans found, enough, same⟩ path

end Exact

/-! ### Small directories -/

section Small

/-- The small volume with entries in its root directory and in cluster 2. -/
def treeDrive (root sub : List FatDirectoryItem) : Drive where
  sector lba index :=
    if lba = 2 then entryBytes root index
    else if lba = 3 then entryBytes sub index
    else smallDrive.sector lba index
  belowBuffer _ := 0

/-- The private data of the small volume with its root directory loaded as record 1. -/
def treePrivate (root : List FatDirectoryItem) : FatPrivate :=
  { smallPrivate with rootDirectory := ⟨1, counted root, 2, 3⟩ }

theorem tree_loaded {root sub : List FatDirectoryItem}
    (listed : EntriesAt (treeDrive root sub) 1024 root) (within : root.length ≤ 16) :
    ∃ heap, LoadedFrom (smallMachine (treeDrive root sub)) (treePrivate root) root
      (treePrivate root).rootDirectory heap ∧ heap.lookup 0 = none := by
  obtain ⟨heap, loads⟩ := @root_loads (smallMachine (treeDrive root sub)) smallPrivate Store.empty root
    rfl listed within (by decide)
  have ptr : Store.nextPtr (smallMachine (treeDrive root sub)).allocator (Store.empty : Kheap)
      (smallPrivate.header.rootDirEntries.toNat * 32) = 1 := by
    rfl
  rw [ptr] at loads
  refine ⟨heap, .root rfl loads listed within (by decide), ?_⟩
  obtain ⟨_, _, _, _, rfl⟩ := fat16GetRootDirectory_ok loads
  exact Store.lookup_put_ne Nat.zero_ne_one

/-- A deleted entry, and the files `B`, `A` and `C` behind it. -/
def mixedEntries : List FatDirectoryItem :=
  [namedEntry 0xE5 0 0, namedEntry 66 0 0, namedEntry 65 0 0, namedEntry 67 0 0]

/-- `A` is among the first three entries, and found by the name `a`. -/
theorem lookup_exact_iff_mixed :
    ∃ heap, LookupExact (smallMachine (treeDrive mixedEntries [])) (treePrivate mixedEntries) heap
      (treePrivate mixedEntries).rootDirectory mixedEntries ⟨[97], by decide⟩ := by
  obtain ⟨heap, loaded, noNull⟩ := @tree_loaded mixedEntries [] (by decide) (by decide)
  refine ⟨heap, (lookup_exact_iff (fun _ _ => rfl) loaded rfl noNull ⟨[97], by decide⟩).mpr ?_⟩
  have first : firstNamed mixedEntries [97] = some (namedEntry 65 0 0) := by decide
  rw [TakesLive, first]
  exact ⟨by decide, fun directory => absurd directory (by decide)⟩

/-- A deleted entry, and the file `A` behind it. -/
def deletedFirst : List FatDirectoryItem := [namedEntry 0xE5 0 0, namedEntry 65 0 0]

/-- The deleted entry hides the file. -/
theorem lookup_exact_fails :
    ∃ heap, LoadedFrom (smallMachine (treeDrive deletedFirst [])) (treePrivate deletedFirst)
        deletedFirst (treePrivate deletedFirst).rootDirectory heap ∧
      fat16GetItemInDirectory (smallMachine (treeDrive deletedFirst [])) (treePrivate deletedFirst) heap
        (treePrivate deletedFirst).rootDirectory ⟨[65], by decide⟩ = .ok (0, heap) ∧
      ¬ LookupExact (smallMachine (treeDrive deletedFirst [])) (treePrivate deletedFirst) heap
        (treePrivate deletedFirst).rootDirectory deletedFirst ⟨[65], by decide⟩ := by
  obtain ⟨heap, loaded, noNull⟩ := @tree_loaded deletedFirst [] (by decide) (by decide)
  have first : firstNamed deletedFirst [65] = none := by decide
  have nothing : fat16GetItemInDirectory (smallMachine (treeDrive deletedFirst []))
      (treePrivate deletedFirst) heap (treePrivate deletedFirst).rootDirectory ⟨[65], by decide⟩ =
      .ok (0, heap) := by
    rw [getItem_of_holds _ _ loaded.holds, first]
  refine ⟨heap, loaded, nothing, ?_⟩
  rintro ⟨⟨item, heap', result, live, -⟩, -⟩
  cases nothing.symm.trans result
  exact live.mpr ⟨namedEntry 65 0 0, by decide, by decide, by decide⟩ rfl

end Small

end KernelPlay
