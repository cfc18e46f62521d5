/-
**What the driver leaves alone.**

`Spares Spared heap heap'` — the records that meet `Spared` are still there, and so is every block of
entries that no directory in memory has. Every operation of the driver spares what is none of its own
records: `fat16Open_spares`, `fat16Seek_spares`, `fat16Close_spares`.
-/

import KernelPlay.Fat.Resolve
import KernelPlay.Fat.Operations

namespace KernelPlay

open KernelPlay.Library

namespace Cell

/-- A record of an item. -/
def IsItem : Cell → Prop
  | .fatItem _ | .fatDirectory _ | .directoryItems _ | .directoryItem _ => True
  | _ => False

/-- A record that is not the driver's. -/
def IsForeign : Cell → Prop
  | .pathRoot _ | .pathPart | .name | .fileDescriptor _ | .diskStreamer | .fatPrivate => True
  | _ => False

theorem IsForeign.not_item {cell : Cell} (foreign : cell.IsForeign) : ¬ cell.IsItem := by
  cases cell <;> simp_all [IsForeign, IsItem]

end Cell

/-- No directory in memory has its entries there. -/
def Unowned (heap : Kheap) (ptr : Ptr) : Prop :=
  ∀ owner directory, heap.lookup owner = some (.fatDirectory directory) → directory.item ≠ ptr

/-- **The records that are spared** are still there, and so are entries without a directory. -/
structure Spares (Spared : Cell → Prop) (heap heap' : Kheap) : Prop where
  noNull : heap.lookup 0 = none → heap'.lookup 0 = none
  kept : ∀ ptr cell, Spared cell → heap.lookup ptr = some cell → heap'.lookup ptr = some cell
  unowned : ∀ ptr items, heap.lookup ptr = some (.directoryItems items) → Unowned heap ptr →
    heap'.lookup ptr = some (.directoryItems items) ∧ Unowned heap' ptr

section Spares

variable {Spared Fewer : Cell → Prop} {heap middle heap' : Kheap} {ptr : Ptr} {cell old : Cell}

theorem Spares.refl : Spares Spared heap heap := ⟨id, fun _ _ _ => id, fun _ _ => And.intro⟩

theorem Spares.trans (first : Spares Spared heap middle) (second : Spares Spared middle heap') :
    Spares Spared heap heap' where
  noNull := second.noNull ∘ first.noNull
  kept ptr cell spared found := second.kept ptr cell spared (first.kept ptr cell spared found)
  unowned ptr items found unowned := by
    obtain ⟨found, unowned⟩ := first.unowned ptr items found unowned
    exact second.unowned ptr items found unowned

theorem Spares.mono (spares : Spares Spared heap heap') (fewer : ∀ cell, Fewer cell → Spared cell) :
    Spares Fewer heap heap' where
  noNull := spares.noNull
  kept ptr cell spared := spares.kept ptr cell (fewer cell spared)
  unowned := spares.unowned

theorem Spares.of_lookup (same : ∀ ptr, heap'.lookup ptr = heap.lookup ptr) : Spares Spared heap heap' where
  noNull := (same 0).trans
  kept ptr _ _ := (same ptr).trans
  unowned ptr _ found unowned := ⟨(same ptr).trans found, fun owner directory record =>
    unowned owner directory ((same owner).symm.trans record)⟩

theorem Spares.tick : Spares Spared heap heap.tick := .of_lookup fun _ => rfl

/-- A record written over that was not there before is none of those spared. -/
theorem Spares.overwrite (spares : Spares Spared heap heap') (nonnull : ptr ≠ 0)
    (fresh : heap.lookup ptr = none) (plain : ∀ directory, cell ≠ .fatDirectory directory) :
    Spares Spared heap (heap'.put ptr cell) where
  noNull null := (Store.lookup_put_ne nonnull.symm).trans (spares.noNull null)
  kept other _ spared found := by
    have apart : other ≠ ptr := Store.ne_of_absent found fresh
    exact (Store.lookup_put_ne apart).trans (spares.kept other _ spared found)
  unowned other items found unowned := by
    have apart : other ≠ ptr := Store.ne_of_absent found fresh
    obtain ⟨found, unowned⟩ := spares.unowned other items found unowned
    refine ⟨(Store.lookup_put_ne apart).trans found, fun owner directory record => ?_⟩
    by_cases at_ptr : owner = ptr
    · rw [at_ptr, Store.lookup_put_self, Option.some.injEq] at record
      exact absurd record (plain directory)
    · exact unowned owner directory ((Store.lookup_put_ne at_ptr).symm.trans record)

/-- A new record spares everything; the entries of a new directory are new themselves. -/
theorem Spares.new (cell : Cell) (nonnull : ptr ≠ 0) (fresh : heap.lookup ptr = none)
    (plain : ∀ directory, cell ≠ .fatDirectory directory) :
    Spares Spared heap (heap.put ptr cell) :=
  Spares.refl.overwrite nonnull fresh plain

/-- A record written over spares the others. -/
theorem Spares.write (found : heap.lookup ptr = some old) (own : ¬ Spared old)
    (no_items : ∀ items, old ≠ .directoryItems items)
    (plain : ∀ directory, cell ≠ .fatDirectory directory) (noNull : heap.lookup 0 = none) :
    Spares Spared heap (heap.put ptr cell) where
  noNull null := by
    have apart : 0 ≠ ptr := (Store.ne_of_absent found noNull).symm
    exact (Store.lookup_put_ne apart).trans null
  kept other kept spared record := by
    have apart : other ≠ ptr := by
      rintro rfl
      cases found.symm.trans record
      exact own spared
    exact (Store.lookup_put_ne apart).trans record
  unowned other items record unowned := by
    have apart : other ≠ ptr := by
      rintro rfl
      cases found.symm.trans record
      exact no_items items rfl
    refine ⟨(Store.lookup_put_ne apart).trans record, fun owner directory owned => ?_⟩
    by_cases at_ptr : owner = ptr
    · rw [at_ptr, Store.lookup_put_self, Option.some.injEq] at owned
      exact absurd owned (plain directory)
    · exact unowned owner directory ((Store.lookup_put_ne at_ptr).symm.trans owned)

/-- A record freed spares the others. -/
theorem Spares.free (found : heap.lookup ptr = some old) (own : ¬ Spared old)
    (owned : ∀ items, old = .directoryItems items → ¬ Unowned heap ptr) :
    Spares Spared heap (heap.erase ptr) where
  noNull null := by
    by_cases same : 0 = ptr
    · rw [same, Store.lookup_erase_self]
    · exact (Store.lookup_erase_ne same).trans null
  kept other cell spared record := by
    have apart : other ≠ ptr := by
      rintro rfl
      cases found.symm.trans record
      exact own spared
    exact (Store.lookup_erase_ne apart).trans record
  unowned other items record unowned := by
    have apart : other ≠ ptr := by
      rintro rfl
      cases found.symm.trans record
      exact owned items rfl unowned
    refine ⟨(Store.lookup_erase_ne apart).trans record, fun owner directory owned => ?_⟩
    by_cases at_ptr : owner = ptr
    · rw [at_ptr, Store.lookup_erase_self] at owned
      cases owned
    · exact unowned owner directory ((Store.lookup_erase_ne at_ptr).symm.trans owned)

end Spares

/-! ### Items -/

/-- What is not an item is spared. -/
abbrev SparesOthers : Kheap → Kheap → Prop := Spares fun cell => ¬ cell.IsItem

section Items

variable {machine : Machine} {fatPrivate : FatPrivate} {heap heap' : Kheap} {item : FatDirectoryItem}
  {ptr : Ptr}

/-- What an item is made of are records of items. -/
theorem Shows.isItem {place : Ptr} {view : ItemView} {footprint : List Ptr} {cell : Cell}
    (shows : Shows heap ptr view footprint) (member : place ∈ footprint)
    (found : heap.lookup place = some cell) : cell.IsItem := by
  cases shows with
  | file record entry =>
    simp only [List.mem_cons, List.not_mem_nil, or_false] at member
    rcases member with rfl | rfl
    · cases record.symm.trans found
      trivial
    · cases entry.symm.trans found
      trivial
  | directory record _ _ directory items =>
    simp only [List.mem_cons, List.not_mem_nil, or_false] at member
    rcases member with rfl | rfl | rfl
    · cases record.symm.trans found
      trivial
    · cases directory.symm.trans found
      trivial
    · cases items.symm.trans found
      trivial

theorem Shows.own {place : Ptr} {view : ItemView} {footprint : List Ptr} {cell : Cell}
    (shows : Shows heap ptr view footprint) (found : heap.lookup place = some cell)
    (foreign : ¬ cell.IsItem) : place ∉ footprint :=
  fun member => foreign (shows.isItem member found)

theorem Shows.foreign {view : ItemView} {footprint : List Ptr} {cell : Cell}
    (shows : Shows heap ptr view footprint) {place : Ptr} (member : place ∈ footprint)
    (found : heap.lookup place = some cell) (directory : FatDirectory)
    (is_directory : cell = .fatDirectory directory) : directory.item ∈ footprint := by
  subst is_directory
  cases shows with
  | file record entry =>
    simp only [List.mem_cons, List.not_mem_nil, or_false] at member
    rcases member with rfl | rfl
    · cases record.symm.trans found
    · cases entry.symm.trans found
  | directory record _ _ owner items =>
    simp only [List.mem_cons, List.not_mem_nil, or_false] at member
    rcases member with rfl | rfl | rfl
    · cases record.symm.trans found
    · cases owner.symm.trans found
      simp
    · cases items.symm.trans found

theorem NewItem.spares {Spared : Cell → Prop} {view : ItemView} (new : NewItem heap heap' ptr view) :
    Spares Spared heap heap' := by
  have noNull := new.noNull
  obtain ⟨-, -, footprint, shows, fresh, kept⟩ := new
  have old {other : Ptr} {cell : Cell} (found : heap.lookup other = some cell) : other ∉ footprint := by
    intro member
    rw [(fresh other member).2] at found
    cases found
  refine ⟨noNull, fun other cell _ found => (kept other (old found)).trans found,
    fun other items found unowned => ⟨(kept other (old found)).trans found, fun owner directory record => ?_⟩⟩
  by_cases member : owner ∈ footprint
  · rintro rfl
    exact old found (shows.foreign member record directory rfl)
  · exact unowned owner directory ((kept owner member).symm.trans record)

theorem StrayItem.spares {Spared : Cell → Prop} {type : FatItemType}
    (stray : StrayItem heap heap' ptr type) : Spares Spared heap heap' := by
  obtain ⟨nonnull, fresh, ⟨ref, record, -⟩, kept⟩ := stray
  have same : ∀ other, heap'.lookup other = (heap.put ptr (.fatItem ⟨ref, type⟩)).lookup other := by
    intro other
    by_cases at_ptr : other = ptr
    · rw [at_ptr, record, Store.lookup_put_self]
    · rw [kept other at_ptr, Store.lookup_put_ne at_ptr]
  exact (Spares.new (.fatItem ⟨ref, type⟩) nonnull fresh nofun).trans (.of_lookup same)

/-- **A call that returned** was refused, or has added one record that leads nowhere, or a whole item. -/
theorem newItem_ok (noNull : heap.lookup 0 = none)
    (done : fat16NewFatItemForDirectoryItem machine fatPrivate heap item = .ok (ptr, heap')) :
    heap' = heap.tick ∨ (∃ type, StrayItem heap heap' ptr type) ∨ ∃ view, NewItem heap heap' ptr view := by
  by_cases granted : Store.Grants machine.allocator heap 8
  · have outcome := @newItem_outcome machine fatPrivate item heap granted noNull
    rw [done] at outcome
    generalize itemType item = type at outcome
    generalize builtAt machine fatPrivate item heap.calls = built at outcome
    cases outcome with
    | stray stray => exact .inr (.inl ⟨type, stray⟩)
    | @built _ _ view new => exact .inr (.inr ⟨view, new⟩)
  · rw [newItem_refused granted] at done
    cases done
    exact .inl rfl

theorem newItem_spares {Spared : Cell → Prop} (noNull : heap.lookup 0 = none)
    (done : fat16NewFatItemForDirectoryItem machine fatPrivate heap item = .ok (ptr, heap')) :
    Spares Spared heap heap' := by
  rcases newItem_ok noNull done with rfl | ⟨type, stray⟩ | ⟨view, new⟩
  · exact .tick
  · exact stray.spares
  · exact new.spares

/-- A lookup that returned built an item of some slot, or nothing. -/
theorem fat16FindItem_ok {directory : FatDirectory} {path : Text} :
    ∀ {left index : Nat},
      fat16FindItem machine fatPrivate heap directory path left index = .ok (ptr, heap') →
      (ptr = 0 ∧ heap' = heap) ∨
        ∃ entry, fat16NewFatItemForDirectoryItem machine fatPrivate heap entry = .ok (ptr, heap')
  | 0, _, done => by
      cases done
      exact .inl ⟨rfl, rfl⟩
  | left + 1, index, done => by
      rw [fat16FindItem] at done
      obtain ⟨entry, -, done⟩ := bind_ok.mp done
      split_ifs at done
      · exact .inr ⟨entry, done⟩
      · exact fat16FindItem_ok done

theorem getItem_spares {Spared : Cell → Prop} {directory : FatDirectory} {path : Text}
    (noNull : heap.lookup 0 = none)
    (done : fat16GetItemInDirectory machine fatPrivate heap directory path = .ok (ptr, heap')) :
    Spares Spared heap heap' := by
  rcases fat16FindItem_ok done with ⟨-, rfl⟩ | ⟨entry, done⟩
  · exact .refl
  · exact newItem_spares noNull done

/-- A directory freed is gone with its entries, and nothing else is. -/
theorem directoryFree_keeps {Spared : Cell → Prop}
    (directories : ∀ directory, ¬ Spared (.fatDirectory directory))
    (entries : ∀ items, ¬ Spared (.directoryItems items))
    (done : fat16DirectoryFree heap ptr = .ok heap') : Spares Spared heap heap' := by
  unfold fat16DirectoryFree at done
  split_ifs at done
  · cases done
    exact .refl
  obtain ⟨directory, record, done⟩ := bind_ok.mp done
  rw [deref_ok_iff] at record
  split_ifs at done
  · obtain ⟨middle, freed, done⟩ := bind_ok.mp done
    obtain ⟨⟨items, found⟩, rfl⟩ := kheapFree_ok freed
    obtain ⟨⟨_, found'⟩, rfl⟩ := kheapFree_ok done
    refine (Spares.free found (entries items) fun _ _ unowned => ?_).trans
      (.free found' (directories _) nofun)
    exact unowned ptr directory record rfl
  · obtain ⟨middle, same, done⟩ := bind_ok.mp done
    cases same
    obtain ⟨⟨_, found⟩, rfl⟩ := kheapFree_ok done
    exact .free found (directories _) nofun

theorem directoryFree_spares (done : fat16DirectoryFree heap ptr = .ok heap') :
    SparesOthers heap heap' :=
  directoryFree_keeps (fun _ => not_not.mpr trivial) (fun _ => not_not.mpr trivial) done

theorem itemFree_spares (done : fat16FatItemFree heap ptr = .ok heap') : SparesOthers heap heap' := by
  unfold fat16FatItemFree at done
  obtain ⟨item, -, done⟩ := bind_ok.mp done
  have last {middle : Kheap} (freed : kheapFree fatItemKind middle ptr = .ok heap') :
      SparesOthers middle heap' := by
    obtain ⟨⟨_, found⟩, rfl⟩ := kheapFree_ok freed
    exact .free found (not_not.mpr trivial) nofun
  cases type : item.type with
  | directory =>
    rw [type] at done
    obtain ⟨middle, freed, done⟩ := bind_ok.mp done
    exact (directoryFree_spares freed).trans (last done)
  | file =>
    rw [type] at done
    obtain ⟨middle, freed, done⟩ := bind_ok.mp done
    refine Spares.trans ?_ (last done)
    obtain ⟨⟨_, found⟩, rfl⟩ := kheapFree_ok freed
    exact .free found (not_not.mpr trivial) nofun

/-- **One turn of a walk**: it ends at a file, or goes on from the item found, the one before released. -/
theorem walk_ok {heap : Kheap} {current : Ptr} {name : Text} {rest : List Text}
    (done : fat16WalkParts machine fatPrivate heap current (name :: rest) = .ok (ptr, heap')) :
    heap' = heap ∨ ∃ directory next found later,
      fat16GetItemInDirectory machine fatPrivate heap directory name = .ok (next, found) ∧
        fat16FatItemFree found current = .ok later ∧
        fat16WalkParts machine fatPrivate later next rest = .ok (ptr, heap') := by
  rw [fat16WalkParts] at done
  obtain ⟨item, -, done⟩ := bind_ok.mp done
  split_ifs at done
  · cases done
    exact .inl rfl
  obtain ⟨directory, -, done⟩ := bind_ok.mp done
  obtain ⟨⟨next, found⟩, looked, done⟩ := bind_ok.mp done
  obtain ⟨later, freed, done⟩ := bind_ok.mp done
  exact .inr ⟨directory, next, found, later, looked, freed, done⟩

/-- **A walk** spares what is not an item. -/
theorem walk_spares :
    ∀ {rest : List Text} {heap : Kheap} {current : Ptr}, heap.lookup 0 = none →
      fat16WalkParts machine fatPrivate heap current rest = .ok (ptr, heap') → SparesOthers heap heap'
  | [], _, _, _, done => by
      cases done
      exact .refl
  | name :: rest, heap, current, noNull, done => by
      rcases walk_ok done with rfl | ⟨directory, next, found, later, looked, freed, onwards⟩
      · exact .refl
      · have first := (getItem_spares noNull looked).trans (itemFree_spares freed)
        exact first.trans (walk_spares (first.noNull noNull) onwards)

/-- A path that was walked: its first part was looked up in the root directory. -/
theorem getEntry_ok {name : Text} {rest : List Text}
    (done : fat16GetDirectoryEntry machine fatPrivate heap name rest = .ok (ptr, heap')) :
    ∃ root found,
      fat16GetItemInDirectory machine fatPrivate heap fatPrivate.rootDirectory name = .ok (root, found) ∧
        (heap' = found ∨ fat16WalkParts machine fatPrivate found root rest = .ok (ptr, heap')) := by
  unfold fat16GetDirectoryEntry at done
  obtain ⟨⟨root, found⟩, looked, done⟩ := bind_ok.mp done
  refine ⟨root, found, looked, ?_⟩
  dsimp only at done
  split_ifs at done
  · cases done
    exact .inl rfl
  · exact .inr done

theorem getEntry_spares {name : Text} {rest : List Text} (noNull : heap.lookup 0 = none)
    (done : fat16GetDirectoryEntry machine fatPrivate heap name rest = .ok (ptr, heap')) :
    SparesOthers heap heap' := by
  obtain ⟨root, found, looked, same | walked⟩ := getEntry_ok done
  · subst same
    exact getItem_spares noNull looked
  · have first : SparesOthers heap found := getItem_spares noNull looked
    exact first.trans (walk_spares (first.noNull noNull) walked)

end Items

/-! ### Operations -/

/-- What is not the driver's is spared. -/
abbrev SparesForeign : Kheap → Kheap → Prop := Spares Cell.IsForeign

section Operations

variable {machine : Machine} {fatPrivate : FatPrivate} {heap heap' : Kheap} {privateData : Ptr}
  {res : Int}

theorem SparesOthers.foreign (spares : SparesOthers heap heap') : SparesForeign heap heap' :=
  spares.mono fun _ => Cell.IsForeign.not_item

theorem fat16Open_spares {name : Text} {rest : List Text} {mode : FileMode}
    (noNull : heap.lookup 0 = none)
    (done : fat16Open machine fatPrivate heap name rest mode = .ok (res, heap')) :
    SparesForeign heap heap' := by
  unfold fat16Open at done
  split_ifs at done
  · cases done
    exact .refl
  by_cases granted : Store.Grants machine.allocator heap 8
  · rw [Store.zalloc_granted granted] at done
    dsimp only at done
    rw [if_neg Store.nextPtr_ne_zero] at done
    have fresh : heap.tick.lookup (Store.nextPtr machine.allocator heap 8) = none := Store.lookup_nextPtr
    have nonnull : Store.nextPtr machine.allocator heap 8 ≠ 0 := Store.nextPtr_ne_zero
    generalize Store.nextPtr machine.allocator heap 8 = descriptor at *
    have first (Spared : Cell → Prop) :
        Spares Spared heap (heap.tick.put descriptor (.fatDescriptor ⟨0, 0⟩)) :=
      Spares.tick.trans (.new (.fatDescriptor ⟨0, 0⟩) nonnull fresh nofun)
    obtain ⟨⟨entry, found⟩, walked, done⟩ := bind_ok.mp done
    have walk := getEntry_spares ((first fun _ => True).noNull noNull) walked
    have spared := (first _).trans walk.foreign
    dsimp only at done
    split_ifs at done
    · cases done
      exact spared
    · cases done
      have record := walk.kept descriptor _ id Store.lookup_put_self
      exact spared.trans (.write record id nofun nofun (spared.noNull noNull))
  · rw [Store.zalloc_refused granted] at done
    cases done
    exact .tick

theorem fat16Seek_spares {offset : Int} {whence : Nat} (noNull : heap.lookup 0 = none)
    (done : fat16Seek heap privateData offset whence = .ok (res, heap')) : SparesForeign heap heap' := by
  unfold fat16Seek at done
  obtain ⟨desc, record, done⟩ := bind_ok.mp done
  rw [deref_ok_iff] at record
  obtain ⟨item, -, done⟩ := bind_ok.mp done
  split_ifs at done
  · cases done
    exact .refl
  obtain ⟨entry, -, done⟩ := bind_ok.mp done
  split_ifs at done
  · cases done
    exact .refl
  split at done
  · cases done
    exact .write record id nofun nofun noNull
  · cases done
    exact .write record id nofun nofun noNull
  · cases done
    exact .refl
  · cases done
    exact .refl

theorem fat16Close_spares (done : fat16Close heap privateData = .ok (res, heap')) :
    res = ok ∧ SparesForeign heap heap' := by
  unfold fat16Close at done
  obtain ⟨desc, -, done⟩ := bind_ok.mp done
  obtain ⟨middle, freed, done⟩ := bind_ok.mp done
  obtain ⟨later, freed', done⟩ := bind_ok.mp done
  obtain ⟨⟨_, found⟩, rfl⟩ := kheapFree_ok freed'
  cases done
  exact ⟨rfl, (itemFree_spares freed).foreign.trans (.free found id nofun)⟩

end Operations

end KernelPlay
