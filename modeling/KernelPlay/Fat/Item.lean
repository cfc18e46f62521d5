/-
**What the driver builds of a directory entry.**

`loadAt` — the directory an entry names, as `fat16_load_fat_directory` reads it. `load_outcome` says
for every answer of the allocator and every outcome of the reads what a load returns and leaves in the
heap; a load that fails returns the pointer it has just freed. `builtAt` is what an item of the entry
has to show, and `Shows` what an item in the heap shows: `newItem_outcome`.
-/

import KernelPlay.Fat.Listing

namespace KernelPlay

open KernelPlay.Library

/-- A directory in memory. -/
@[ext]
structure LoadedDirectory where
  total : Int
  sectorPos : Int
  endingSectorPos : Int
  items : List FatDirectoryItem
  deriving DecidableEq

/-- The directory and its entries are in two records that were not there before, and nothing else has
changed. -/
structure NewDirectory (heap heap' : Kheap) (directory : Ptr) (loaded : LoadedDirectory) : Prop where
  nonnull : directory ≠ 0
  fresh : heap.lookup directory = none
  calls : heap'.calls = heap.calls + 2
  records : ∃ items, items ≠ 0 ∧ heap.lookup items = none ∧
    heap'.lookup directory =
      some (.fatDirectory ⟨items, loaded.total, loaded.sectorPos, loaded.endingSectorPos⟩) ∧
    heap'.lookup items = some (.directoryItems loaded.items) ∧
    ∀ other, other ≠ directory → other ≠ items → heap'.lookup other = heap.lookup other

section Load

variable (machine : Machine) (fatPrivate : FatPrivate) (item : FatDirectoryItem)

/-- The number of entries of the directory an entry names. -/
def loadTotal : Except Fault Int :=
  fat16GetTotalItemsForDirectory fatPrivate machine.drive
    (fat16ClusterToSector fatPrivate (fat16GetFirstCluster item))

/-- The read of a directory of `totalItems` entries. -/
def loadRead (totalItems : Int) : Except Fault ClusterRead :=
  fat16ReadInternalV2 machine.drive fatPrivate (fat16GetFirstCluster item) 0 (int32 (totalItems * 32))

def loadedOf (totalItems : Int) (read : ClusterRead) : LoadedDirectory :=
  let directorySize := int32 (totalItems * 32)
  let startingSector := fat16ClusterToSector fatPrivate (fat16GetFirstCluster item)
  { total := totalItems
    sectorPos := startingSector
    endingSectorPos := int32 (startingSector + (directorySize.tdiv diskSectorSize +
      if directorySize.tmod diskSectorSize ≠ 0 then 1 else 0))
    items := FatDirectoryItem.parseAll (entriesOf directorySize) read.out }

/-- The directory a load yields that makes its requests from number `call` on: nothing if one of them
is refused, or if the clusters cannot be read. -/
def loadAt (call : Nat) : Except Fault (Option LoadedDirectory) :=
  if machine.allocator.grants call 16 then do
    let totalItems ← loadTotal machine fatPrivate item
    if machine.allocator.grants (call + 1) (uint32 (int32 (totalItems * 32))) then do
      let read ← loadRead machine fatPrivate item totalItems
      return if read.res ≠ ok then none else some (loadedOf fatPrivate item totalItems read)
    else return none
  else return none

variable {machine fatPrivate item} {heap heap' : Kheap}

/-- The heap with the record of a directory about to be loaded. -/
def loading (machine : Machine) (heap : Kheap) : Kheap :=
  heap.tick.put (Store.nextPtr machine.allocator heap 16) (.fatDirectory ⟨0, 0, 0, 0⟩)

/-- Once there is a record, the count decides. -/
theorem load_granted (directory : item.IsDirectory)
    (granted : Store.Grants machine.allocator heap 16) :
    fat16LoadFatDirectory machine fatPrivate heap item =
      (loadTotal machine fatPrivate item >>= fat16LoadItems machine fatPrivate (loading machine heap)
        (Store.nextPtr machine.allocator heap 16) (fat16GetFirstCluster item)) := by
  unfold fat16LoadFatDirectory
  rw [if_neg directory, Store.zalloc_granted granted]
  dsimp only
  rw [if_neg Store.nextPtr_ne_zero]
  rfl

/-- A directory record without a buffer is freed alone. -/
theorem free_without_items {ptr : Ptr} (nonnull : ptr ≠ 0) {total sectorPos endingSectorPos : Int}
    (found : heap.lookup ptr = some (.fatDirectory ⟨0, total, sectorPos, endingSectorPos⟩)) :
    fat16DirectoryFree heap ptr = .ok (heap.erase ptr) := by
  unfold fat16DirectoryFree
  rw [if_neg nonnull, deref_eq fatDirectoryKind found, ok_bind, if_neg (not_not.mpr rfl)]
  exact kheapFree_eq fatDirectoryKind found

theorem free_with_items {ptr : Ptr} (nonnull : ptr ≠ 0) {directory : FatDirectory}
    {items : List FatDirectoryItem} (nonnull_items : directory.item ≠ 0)
    (found : heap.lookup ptr = some (.fatDirectory directory))
    (found_items : heap.lookup directory.item = some (.directoryItems items)) :
    fat16DirectoryFree heap ptr = .ok ((heap.erase directory.item).erase ptr) := by
  have apart : ptr ≠ directory.item := by
    intro same
    rw [same, found_items] at found
    cases found
  unfold fat16DirectoryFree
  rw [if_neg nonnull, deref_eq fatDirectoryKind found, ok_bind, if_pos nonnull_items,
    kheapFree_eq directoryItemsKind found_items, ok_bind]
  exact kheapFree_eq fatDirectoryKind ((Store.lookup_erase_ne apart).trans found)

section Loading

variable {size : Nat}

/-- What loading leaves if it frees the record again. -/
theorem loading_erase {cell : Cell} :
    (((loading machine heap).tick).put (Store.nextPtr machine.allocator heap 16) cell).erase
      (Store.nextPtr machine.allocator heap 16) = heap.tick.tick := by
  rw [loading, show ((heap.tick.put (Store.nextPtr machine.allocator heap 16)
    (.fatDirectory ⟨0, 0, 0, 0⟩)).tick) = heap.tick.tick.put (Store.nextPtr machine.allocator heap 16)
      (.fatDirectory ⟨0, 0, 0, 0⟩) from rfl, Store.put_put]
  exact Store.erase_put Store.lookup_nextPtr

theorem loading_apart :
    Store.nextPtr machine.allocator heap 16 ≠
      Store.nextPtr machine.allocator (loading machine heap) size :=
  Store.nextPtr_ne Store.lookup_put_self

theorem loading_fresh :
    heap.lookup (Store.nextPtr machine.allocator (loading machine heap) size) = none := by
  rw [← Store.lookup_tick, ← Store.lookup_put_ne loading_apart.symm]
  exact Store.lookup_nextPtr

end Loading

section Items

variable {totalItems : Int}

/-- Without room for the entries the record is freed again, and its pointer returned. -/
theorem loadItems_refused (refused : ¬ Store.Grants machine.allocator (loading machine heap)
      (uint32 (int32 (totalItems * 32)))) :
    fat16LoadItems machine fatPrivate (loading machine heap) (Store.nextPtr machine.allocator heap 16)
        (fat16GetFirstCluster item) totalItems =
      .ok (Store.nextPtr machine.allocator heap 16, heap.tick.tick) := by
  rw [fat16LoadItems, Store.zalloc_refused refused]
  dsimp only
  rw [if_pos rfl, free_without_items Store.nextPtr_ne_zero Store.lookup_put_self, ok_bind, loading_erase]
  rfl

variable (granted : Store.Grants machine.allocator (loading machine heap)
  (uint32 (int32 (totalItems * 32))))

include granted

theorem loadItems_faults {fault : Fault}
    (failed : loadRead machine fatPrivate item totalItems = .error fault) :
    fat16LoadItems machine fatPrivate (loading machine heap) (Store.nextPtr machine.allocator heap 16)
      (fat16GetFirstCluster item) totalItems = .error fault := by
  rw [loadRead] at failed
  rw [fat16LoadItems, Store.zalloc_granted granted]
  dsimp only
  rw [if_neg Store.nextPtr_ne_zero, failed]
  rfl

/-- After a read that fails both records are freed again, and the pointer to the first returned. -/
theorem loadItems_unreadable {read : ClusterRead}
    (result : loadRead machine fatPrivate item totalItems = .ok read) (failed : read.res ≠ ok) :
    fat16LoadItems machine fatPrivate (loading machine heap) (Store.nextPtr machine.allocator heap 16)
        (fat16GetFirstCluster item) totalItems =
      .ok (Store.nextPtr machine.allocator heap 16, heap.tick.tick) := by
  have apart := @loading_apart machine heap (uint32 (int32 (totalItems * 32)))
  have fresh := @loading_fresh machine heap (uint32 (int32 (totalItems * 32)))
  have nonnull : Store.nextPtr machine.allocator (loading machine heap)
      (uint32 (int32 (totalItems * 32))) ≠ 0 := Store.nextPtr_ne_zero
  rw [loadRead] at result
  rw [fat16LoadItems, Store.zalloc_granted granted]
  dsimp only
  rw [if_neg nonnull, result, ok_bind, if_pos failed]
  generalize Store.nextPtr machine.allocator (loading machine heap) _ = items at *
  rw [free_with_items Store.nextPtr_ne_zero nonnull ((Store.lookup_put_ne apart).trans Store.lookup_put_self)
    Store.lookup_put_self, ok_bind]
  refine congrArg (fun heap => Except.ok (_, heap)) (Store.ext (fun ptr => ?_) rfl)
  change Store.lookup _ ptr = Store.lookup _ ptr
  by_cases at_directory : ptr = Store.nextPtr machine.allocator heap 16
  · rw [at_directory, Store.lookup_erase_self]
    exact Store.lookup_nextPtr.symm
  by_cases at_items : ptr = items
  · rw [at_items, Store.lookup_erase_ne apart.symm, Store.lookup_erase_self]
    exact fresh.symm
  · rw [Store.lookup_erase_ne at_directory, Store.lookup_erase_ne at_items,
      Store.lookup_put_ne at_items, Store.lookup_put_ne at_directory, Store.lookup_put_ne at_items,
      Store.lookup_tick, loading, Store.lookup_put_ne at_directory]
    rfl

/-- A load whose read succeeds leaves the directory and its entries in two new records. -/
theorem loadItems_loaded {read : ClusterRead}
    (result : loadRead machine fatPrivate item totalItems = .ok read) (succeeds : read.res = ok) :
    ∃ heap', fat16LoadItems machine fatPrivate (loading machine heap)
        (Store.nextPtr machine.allocator heap 16) (fat16GetFirstCluster item) totalItems =
        .ok (Store.nextPtr machine.allocator heap 16, heap') ∧
      NewDirectory heap heap' (Store.nextPtr machine.allocator heap 16)
        (loadedOf fatPrivate item totalItems read) := by
  have apart := @loading_apart machine heap (uint32 (int32 (totalItems * 32)))
  rw [loadRead] at result
  rw [fat16LoadItems, Store.zalloc_granted granted]
  dsimp only
  rw [if_neg Store.nextPtr_ne_zero, result, ok_bind, if_neg (not_not.mpr succeeds)]
  refine ⟨_, rfl, Store.nextPtr_ne_zero, Store.lookup_nextPtr, rfl, _, Store.nextPtr_ne_zero,
    loading_fresh, Store.lookup_put_self, ?_, fun other at_directory at_items => ?_⟩
  · rw [Store.lookup_put_ne apart.symm, Store.lookup_put_self]
    rfl
  · rw [Store.lookup_put_ne at_directory, Store.lookup_put_ne at_items,
      Store.lookup_put_ne at_directory, Store.lookup_put_ne at_items, Store.lookup_tick, loading,
      Store.lookup_put_ne at_directory, Store.lookup_tick]

end Items

/-- What a load returned and left, by what it was to yield. -/
inductive LoadOutcome (heap : Kheap) :
    Except Fault (Ptr × Kheap) → Except Fault (Option LoadedDirectory) → Prop
  | faults (fault : Fault) : LoadOutcome heap (.error fault) (.error fault)
  | stray {ptr : Ptr} {heap' : Kheap} : (ptr = 0 ∨ heap.lookup ptr = none) →
      (∀ other, heap'.lookup other = heap.lookup other) → LoadOutcome heap (.ok (ptr, heap')) (.ok none)
  | loaded {ptr : Ptr} {heap' : Kheap} {loaded : LoadedDirectory} :
      NewDirectory heap heap' ptr loaded → LoadOutcome heap (.ok (ptr, heap')) (.ok (some loaded))

/-- **What a load does**, by what `loadAt` says of it. -/
theorem load_outcome (directory : item.IsDirectory) :
    LoadOutcome heap (fat16LoadFatDirectory machine fatPrivate heap item)
      (loadAt machine fatPrivate item heap.calls) := by
  unfold loadAt
  by_cases granted : machine.allocator.grants heap.calls 16 = true
  · rw [if_pos granted, load_granted directory granted]
    cases total : loadTotal machine fatPrivate item with
    | error fault => exact .faults fault
    | ok totalItems =>
      rw [ok_bind, ok_bind]
      by_cases granted_items : machine.allocator.grants (heap.calls + 1)
          (uint32 (int32 (totalItems * 32))) = true
      · rw [if_pos granted_items]
        cases result : loadRead machine fatPrivate item totalItems with
        | error fault =>
          rw [loadItems_faults granted_items result]
          exact .faults fault
        | ok read =>
          rw [ok_bind]
          by_cases failed : read.res ≠ ok
          · rw [if_pos failed, loadItems_unreadable granted_items result failed]
            exact .stray (.inr Store.lookup_nextPtr) fun _ => rfl
          · rw [if_neg failed]
            obtain ⟨heap', loaded, new⟩ := loadItems_loaded granted_items result (not_not.mp failed)
            rw [loaded]
            exact .loaded new
      · rw [if_neg granted_items, loadItems_refused granted_items]
        exact .stray (.inr Store.lookup_nextPtr) fun _ => rfl
  · have refused : fat16LoadFatDirectory machine fatPrivate heap item = .ok (0, heap.tick) := by
      unfold fat16LoadFatDirectory
      rw [if_neg directory, Store.zalloc_refused granted]
      rfl
    rw [if_neg granted, refused]
    exact .stray (.inl rfl) fun _ => rfl

end Load

/-! ### Items -/

/-- What an item is for: a copy of an entry, or a directory in memory. -/
inductive ItemView
  | file (entry : FatDirectoryItem)
  | directory (loaded : LoadedDirectory)
  deriving DecidableEq

/-- The item at `item` shows `view`, in the records of the footprint. -/
inductive Shows (heap : Kheap) (item : Ptr) : ItemView → List Ptr → Prop
  | file {ref : Ptr} {entry : FatDirectoryItem} :
      heap.lookup item = some (.fatItem ⟨ref, .file⟩) →
      heap.lookup ref = some (.directoryItem entry) → Shows heap item (.file entry) [item, ref]
  | directory {ref items : Ptr} {loaded : LoadedDirectory} :
      heap.lookup item = some (.fatItem ⟨ref, .directory⟩) → ref ≠ 0 → items ≠ 0 →
      heap.lookup ref =
        some (.fatDirectory ⟨items, loaded.total, loaded.sectorPos, loaded.endingSectorPos⟩) →
      heap.lookup items = some (.directoryItems loaded.items) →
      Shows heap item (.directory loaded) [item, ref, items]

/-- The records an item takes. -/
def ItemView.requests : ItemView → Nat
  | .file _ => 2
  | .directory _ => 3

/-- **A new item**: it shows the view, in records that were not there before, and nothing else has
changed. -/
structure NewItem (heap heap' : Kheap) (item : Ptr) (view : ItemView) : Prop where
  nonnull : item ≠ 0
  calls : heap'.calls = heap.calls + view.requests
  shows : ∃ footprint, Shows heap' item view footprint ∧
    (∀ ptr ∈ footprint, ptr ≠ 0 ∧ heap.lookup ptr = none) ∧
    ∀ other, other ∉ footprint → heap'.lookup other = heap.lookup other

section Items

variable {heap heap' : Kheap} {item : Ptr} {view view' : ItemView} {footprint footprint' : List Ptr}

theorem NewItem.noNull (new : NewItem heap heap' item view) (noNull : heap.lookup 0 = none) :
    heap'.lookup 0 = none := by
  obtain ⟨-, -, footprint, -, fresh, kept⟩ := new
  rw [kept 0 fun member => (fresh 0 member).1 rfl, noNull]

theorem Shows.unique (first : Shows heap item view footprint)
    (second : Shows heap item view' footprint') : view = view' := by
  cases first with
  | file record entry =>
    cases second with
    | file record' entry' =>
      rw [record] at record'
      cases record'
      rw [entry] at entry'
      cases entry'
      rfl
    | directory record' =>
      rw [record] at record'
      cases record'
  | directory record _ _ directory items =>
    cases second with
    | file record' =>
      rw [record] at record'
      cases record'
    | directory record' _ _ directory' items' =>
      rw [record] at record'
      cases record'
      have same := directory.symm.trans directory'
      simp only [Option.some.injEq, Cell.fatDirectory.injEq, FatDirectory.mk.injEq] at same
      obtain ⟨rfl, total, sectorPos, endingSectorPos⟩ := same
      have same_items := items.symm.trans items'
      simp only [Option.some.injEq, Cell.directoryItems.injEq] at same_items
      exact congrArg ItemView.directory (LoadedDirectory.ext total sectorPos endingSectorPos same_items)

/-- An item shows the same in a heap with the same records in its footprint. -/
theorem Shows.frame (shows : Shows heap item view footprint)
    (same : ∀ ptr ∈ footprint, heap'.lookup ptr = heap.lookup ptr) :
    Shows heap' item view footprint := by
  cases shows with
  | file record entry =>
    exact .file ((same _ (by simp)).trans record) ((same _ (by simp)).trans entry)
  | directory record nonnull nonnull_items directory items =>
    exact .directory ((same _ (by simp)).trans record) nonnull nonnull_items
      ((same _ (by simp)).trans directory) ((same _ (by simp)).trans items)

theorem Shows.present (shows : Shows heap item view footprint) :
    ∀ ptr ∈ footprint, ∃ cell, heap.lookup ptr = some cell := by
  intro ptr member
  cases shows with
  | file record entry =>
    simp only [List.mem_cons, List.not_mem_nil, or_false] at member
    rcases member with rfl | rfl
    · exact ⟨_, record⟩
    · exact ⟨_, entry⟩
  | directory record _ _ directory items =>
    simp only [List.mem_cons, List.not_mem_nil, or_false] at member
    rcases member with rfl | rfl | rfl
    · exact ⟨_, record⟩
    · exact ⟨_, directory⟩
    · exact ⟨_, items⟩

theorem Shows.absent (shows : Shows heap item view footprint) {ptr : Ptr}
    (absent : heap.lookup ptr = none) : ptr ∉ footprint := by
  intro member
  obtain ⟨cell, found⟩ := shows.present ptr member
  rw [absent] at found
  cases found

/-- Freeing an item frees its footprint. -/
theorem Shows.free (shows : Shows heap item view footprint) :
    ∃ heap', fat16FatItemFree heap item = .ok heap' ∧ heap'.calls = heap.calls ∧
      (∀ ptr ∈ footprint, heap'.lookup ptr = none) ∧
      ∀ other, other ∉ footprint → heap'.lookup other = heap.lookup other := by
  cases shows with
  | @file ref entry record found =>
    have apart : item ≠ ref := Store.ne_of_lookup record found nofun
    refine ⟨(heap.erase ref).erase item, ?_, rfl, ?_, fun other outside => ?_⟩
    · unfold fat16FatItemFree
      rw [deref_eq fatItemKind record, ok_bind]
      dsimp only
      rw [kheapFree_eq directoryItemKind found, ok_bind]
      exact kheapFree_eq fatItemKind ((Store.lookup_erase_ne apart).trans record)
    · intro ptr member
      by_cases at_item : ptr = item
      · rw [at_item, Store.lookup_erase_self]
      · rw [Store.lookup_erase_ne at_item]
        obtain rfl : ptr = ref := by simpa [at_item] using member
        exact Store.lookup_erase_self
    · simp only [List.mem_cons, List.not_mem_nil, or_false, not_or] at outside
      rw [Store.lookup_erase_ne outside.1, Store.lookup_erase_ne outside.2]
  | @directory ref items loaded record nonnull nonnull_items found found_items =>
    have apart : item ≠ ref := Store.ne_of_lookup record found nofun
    have apart_items : item ≠ items := Store.ne_of_lookup record found_items nofun
    refine ⟨((heap.erase items).erase ref).erase item, ?_, rfl, ?_, fun other outside => ?_⟩
    · unfold fat16FatItemFree
      rw [deref_eq fatItemKind record, ok_bind]
      dsimp only
      rw [free_with_items nonnull nonnull_items found found_items, ok_bind]
      exact kheapFree_eq fatItemKind ((Store.lookup_erase_ne apart).trans
        ((Store.lookup_erase_ne apart_items).trans record))
    · intro ptr member
      by_cases at_item : ptr = item
      · rw [at_item, Store.lookup_erase_self]
      rw [Store.lookup_erase_ne at_item]
      by_cases at_ref : ptr = ref
      · rw [at_ref, Store.lookup_erase_self]
      rw [Store.lookup_erase_ne at_ref]
      obtain rfl : ptr = items := by simpa [at_item, at_ref] using member
      exact Store.lookup_erase_self
    · simp only [List.mem_cons, List.not_mem_nil, or_false, not_or] at outside
      rw [Store.lookup_erase_ne outside.1, Store.lookup_erase_ne outside.2.1,
        Store.lookup_erase_ne outside.2.2]

end Items

section Build

variable (machine : Machine) (fatPrivate : FatPrivate) (item : FatDirectoryItem)

/-- What the item of an entry shows if its record is request number `call`: nothing if one of the
records behind it is missing. -/
def builtAt (call : Nat) : Except Fault (Option ItemView) :=
  if item.IsDirectory then (loadAt machine fatPrivate item (call + 1)).map (Option.map .directory)
  else .ok (if machine.allocator.grants (call + 1) 32 then some (.file item) else none)

variable {machine fatPrivate item} {heap heap' : Kheap}

/-- An item whose pointer leads nowhere. -/
structure StrayItem (heap heap' : Kheap) (ptr : Ptr) (type : FatItemType) : Prop where
  nonnull : ptr ≠ 0
  fresh : heap.lookup ptr = none
  record : ∃ ref, heap'.lookup ptr = some (.fatItem ⟨ref, type⟩) ∧ heap'.lookup ref = none
  kept : ∀ other, other ≠ ptr → heap'.lookup other = heap.lookup other

theorem StrayItem.not_shows {ptr : Ptr} {type : FatItemType} {view : ItemView} {footprint : List Ptr}
    (stray : StrayItem heap heap' ptr type) : ¬ Shows heap' ptr view footprint := by
  obtain ⟨-, -, ⟨ref, record, missing⟩, -⟩ := stray
  intro shows
  cases shows with
  | file record' entry =>
    have same := record.symm.trans record'
    simp only [Option.some.injEq, Cell.fatItem.injEq, FatItem.mk.injEq] at same
    rw [same.1, entry] at missing
    cases missing
  | directory record' _ _ directory =>
    have same := record.symm.trans record'
    simp only [Option.some.injEq, Cell.fatItem.injEq, FatItem.mk.injEq] at same
    rw [same.1, directory] at missing
    cases missing

/-- The heap with the record of an item about to be built. -/
def building (machine : Machine) (heap : Kheap) : Kheap :=
  heap.tick.put (Store.nextPtr machine.allocator heap 8) (.fatItem ⟨0, .directory⟩)

theorem building_lookup {other : Ptr} (apart : other ≠ Store.nextPtr machine.allocator heap 8) :
    (building machine heap).lookup other = heap.lookup other :=
  Store.lookup_put_ne apart

theorem newItem_refused (refused : ¬ Store.Grants machine.allocator heap 8) :
    fat16NewFatItemForDirectoryItem machine fatPrivate heap item = .ok (0, heap.tick) := by
  unfold fat16NewFatItemForDirectoryItem
  rw [Store.zalloc_refused refused]
  rfl

theorem newItem_directory (granted : Store.Grants machine.allocator heap 8)
    (directory : item.IsDirectory) :
    fat16NewFatItemForDirectoryItem machine fatPrivate heap item =
      (fat16LoadFatDirectory machine fatPrivate (building machine heap) item).map fun loaded =>
        (Store.nextPtr machine.allocator heap 8,
          loaded.2.put (Store.nextPtr machine.allocator heap 8) (.fatItem ⟨loaded.1, .directory⟩)) := by
  have bit : item.attributeByte &&& fatFileSubdirectory ≠ 0 := directory
  unfold fat16NewFatItemForDirectoryItem
  rw [Store.zalloc_granted granted]
  dsimp only
  rw [if_neg Store.nextPtr_ne_zero, if_pos bit]
  change (fat16LoadFatDirectory machine fatPrivate (building machine heap) item >>= _) = _
  cases fat16LoadFatDirectory machine fatPrivate (building machine heap) item <;> rfl

theorem newItem_file (granted : Store.Grants machine.allocator heap 8) (file : ¬ item.IsDirectory) :
    fat16NewFatItemForDirectoryItem machine fatPrivate heap item =
      .ok (Store.nextPtr machine.allocator heap 8,
        (fat16CloneDirectoryItem machine (building machine heap) item).2.put
          (Store.nextPtr machine.allocator heap 8)
          (.fatItem ⟨(fat16CloneDirectoryItem machine (building machine heap) item).1, .file⟩)) := by
  have bit : ¬ (item.attributeByte &&& fatFileSubdirectory ≠ 0) := file
  unfold fat16NewFatItemForDirectoryItem
  rw [Store.zalloc_granted granted]
  dsimp only
  rw [if_neg Store.nextPtr_ne_zero, if_neg bit]
  rfl

/-- What building an item returned and left, by what the item was to show. -/
inductive ItemOutcome (heap : Kheap) (type : FatItemType) :
    Except Fault (Ptr × Kheap) → Except Fault (Option ItemView) → Prop
  | faults (fault : Fault) : ItemOutcome heap type (.error fault) (.error fault)
  | stray {ptr : Ptr} {heap' : Kheap} : StrayItem heap heap' ptr type →
      ItemOutcome heap type (.ok (ptr, heap')) (.ok none)
  | built {ptr : Ptr} {heap' : Kheap} {view : ItemView} : NewItem heap heap' ptr view →
      ItemOutcome heap type (.ok (ptr, heap')) (.ok (some view))

def itemType (item : FatDirectoryItem) : FatItemType := if item.IsDirectory then .directory else .file

/-- The item of a directory, by what its load has ended in. -/
theorem newItem_directory_outcome (granted : Store.Grants machine.allocator heap 8)
    (noNull : heap.lookup 0 = none) (directory : item.IsDirectory) :
    ItemOutcome heap .directory (fat16NewFatItemForDirectoryItem machine fatPrivate heap item)
      ((loadAt machine fatPrivate item (heap.calls + 1)).map (Option.map .directory)) := by
  have nonnull : Store.nextPtr machine.allocator heap 8 ≠ 0 := Store.nextPtr_ne_zero
  have fresh : heap.lookup (Store.nextPtr machine.allocator heap 8) = none := Store.lookup_nextPtr
  have present : (building machine heap).lookup (Store.nextPtr machine.allocator heap 8) =
      some (.fatItem ⟨0, .directory⟩) := Store.lookup_put_self
  have others {other : Ptr} (apart : other ≠ Store.nextPtr machine.allocator heap 8) :
      (building machine heap).lookup other = heap.lookup other := building_lookup apart
  rw [newItem_directory granted directory]
  have outcome := @load_outcome machine fatPrivate item (building machine heap) directory
  rw [show (building machine heap).calls = heap.calls + 1 from rfl] at outcome
  generalize fat16LoadFatDirectory machine fatPrivate (building machine heap) item = result at *
  generalize loadAt machine fatPrivate item (heap.calls + 1) = outcome_of at *
  generalize Store.nextPtr machine.allocator heap 8 = ptr at *
  cases outcome with
  | faults fault => exact .faults fault
  | @stray ref heap' missing same =>
    refine .stray ⟨nonnull, fresh, ⟨ref, Store.lookup_put_self, ?_⟩, fun other apart => ?_⟩
    · rcases missing with rfl | missing
      · rw [Store.lookup_put_ne nonnull.symm, same, others nonnull.symm, noNull]
      · have apart : ref ≠ ptr := (Store.ne_of_absent present missing).symm
        rw [Store.lookup_put_ne apart, same, missing]
    · rw [Store.lookup_put_ne apart, same, others apart]
  | @loaded ref heap' loaded new =>
    obtain ⟨ref_nonnull, ref_fresh, calls, items, items_nonnull, items_fresh, record, records, same⟩ := new
    have ref_apart : ref ≠ ptr := (Store.ne_of_absent present ref_fresh).symm
    have items_apart : items ≠ ptr := (Store.ne_of_absent present items_fresh).symm
    refine .built ⟨nonnull, calls, [ptr, ref, items], .directory Store.lookup_put_self ref_nonnull
      items_nonnull ((Store.lookup_put_ne ref_apart).trans record)
      ((Store.lookup_put_ne items_apart).trans records), ?_, fun other outside => ?_⟩
    · intro place member
      simp only [List.mem_cons, List.not_mem_nil, or_false] at member
      rcases member with rfl | rfl | rfl
      · exact ⟨nonnull, fresh⟩
      · exact ⟨ref_nonnull, by rw [← others ref_apart, ref_fresh]⟩
      · exact ⟨items_nonnull, by rw [← others items_apart, items_fresh]⟩
    · simp only [List.mem_cons, List.not_mem_nil, or_false, not_or] at outside
      rw [Store.lookup_put_ne outside.1, same other outside.2.1 outside.2.2, others outside.1]

/-- The item of a file, by whether its copy of the entry is granted. -/
theorem newItem_file_outcome (granted : Store.Grants machine.allocator heap 8)
    (noNull : heap.lookup 0 = none) (file : ¬ item.IsDirectory) :
    ItemOutcome heap .file (fat16NewFatItemForDirectoryItem machine fatPrivate heap item)
      (.ok (if machine.allocator.grants (heap.calls + 1) 32 then some (.file item) else none)) := by
  have nonnull : Store.nextPtr machine.allocator heap 8 ≠ 0 := Store.nextPtr_ne_zero
  have fresh : heap.lookup (Store.nextPtr machine.allocator heap 8) = none := Store.lookup_nextPtr
  have present : (building machine heap).lookup (Store.nextPtr machine.allocator heap 8) =
      some (.fatItem ⟨0, .directory⟩) := Store.lookup_put_self
  have others {other : Ptr} (apart : other ≠ Store.nextPtr machine.allocator heap 8) :
      (building machine heap).lookup other = heap.lookup other := building_lookup apart
  rw [newItem_file granted file]
  unfold fat16CloneDirectoryItem
  by_cases granted_copy : Store.Grants machine.allocator (building machine heap) 32
  · have bit : machine.allocator.grants (heap.calls + 1) 32 = true := granted_copy
    have copy_fresh : (building machine heap).lookup
      (Store.nextPtr machine.allocator (building machine heap) 32) = none := Store.lookup_nextPtr
    have copy_nonnull : Store.nextPtr machine.allocator (building machine heap) 32 ≠ 0 :=
      Store.nextPtr_ne_zero
    rw [if_pos bit, Store.zalloc_granted granted_copy]
    dsimp only
    generalize Store.nextPtr machine.allocator (building machine heap) 32 = copy at *
    generalize Store.nextPtr machine.allocator heap 8 = ptr at *
    have apart : copy ≠ ptr := (Store.ne_of_absent present copy_fresh).symm
    refine .built ⟨nonnull, rfl, [ptr, copy], .file Store.lookup_put_self
      ((Store.lookup_put_ne apart).trans Store.lookup_put_self), ?_, fun other outside => ?_⟩
    · intro place member
      simp only [List.mem_cons, List.not_mem_nil, or_false] at member
      rcases member with rfl | rfl
      · exact ⟨nonnull, fresh⟩
      · exact ⟨copy_nonnull, by rw [← others apart, copy_fresh]⟩
    · simp only [List.mem_cons, List.not_mem_nil, or_false, not_or] at outside
      rw [Store.lookup_put_ne outside.1, Store.lookup_put_ne outside.2, Store.lookup_tick,
        others outside.1]
  · have bit : ¬ machine.allocator.grants (heap.calls + 1) 32 = true := granted_copy
    rw [if_neg bit, Store.zalloc_refused granted_copy]
    dsimp only
    generalize Store.nextPtr machine.allocator heap 8 = ptr at *
    refine .stray ⟨nonnull, fresh, ⟨0, Store.lookup_put_self, ?_⟩, fun other apart => ?_⟩
    · rw [Store.lookup_put_ne nonnull.symm, Store.lookup_tick, others nonnull.symm, noNull]
    · rw [Store.lookup_put_ne apart, Store.lookup_tick, others apart]

/-- **What building an item does** once it has its record, by what `builtAt` says of it. -/
theorem newItem_outcome (granted : Store.Grants machine.allocator heap 8)
    (noNull : heap.lookup 0 = none) :
    ItemOutcome heap (itemType item) (fat16NewFatItemForDirectoryItem machine fatPrivate heap item)
      (builtAt machine fatPrivate item heap.calls) := by
  unfold builtAt itemType
  by_cases directory : item.IsDirectory
  · rw [if_pos directory, if_pos directory]
    exact newItem_directory_outcome granted noNull directory
  · rw [if_neg directory, if_neg directory]
    exact newItem_file_outcome granted noNull directory

end Build

end KernelPlay
