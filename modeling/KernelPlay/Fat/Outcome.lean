/-
**What a walk along a path ends in.**

`Arrived` is what the driver has of an entry, by the answers of the allocator and the outcome of the
reads: an item, an item whose pointer leads nowhere, or nothing. `walkAt` and `resolveAt` follow a path
over these without a heap, counting the requests. `walk_outcome`, `entry_outcome` — the walks of the
driver end in what they say, in records that were not there before, and everything else is as it was.
-/

import KernelPlay.Fat.Exits
import KernelPlay.Fat.Resolve

namespace KernelPlay

open KernelPlay.Library

/-- What there is of an entry: no item, one that points at a freed directory, one with a null pointer,
or one that shows the entry. -/
inductive Arrived
  | nothing
  | dangling
  | bare (type : FatItemType)
  | item (view : ItemView)

/-- The type of the item, if there is one. -/
def Arrived.type : Arrived → Option FatItemType
  | .nothing => none
  | .dangling => some .directory
  | .bare type => some type
  | .item (.file _) => some .file
  | .item (.directory _) => some .directory

section Walks

variable (machine : Machine) (fatPrivate : FatPrivate)

/-- What building the item of an entry ends in, if its record is request number `call`. -/
def arrivedAt (entry : FatDirectoryItem) (call : Nat) : Except Fault Arrived :=
  if machine.allocator.grants call 8 then
    (builtAt machine fatPrivate entry call).map fun built =>
      match built with
      | some view => .item view
      | none =>
        if entry.IsDirectory ∧ machine.allocator.grants (call + 1) 16 then .dangling
        else .bare (itemType entry)
  else .ok .nothing

/-- The requests it makes. -/
def requestsAt (entry : FatDirectoryItem) (call : Nat) : Nat :=
  if machine.allocator.grants call 8 then
    if entry.IsDirectory ∧ machine.allocator.grants (call + 1) 16 then 3 else 2
  else 1

/-- A walk from what it has arrived at, the next request being number `call`: what it ends in, and the
number of the next request then. -/
def walkAt : Nat → Arrived → List Text → Except Fault (Arrived × Nat)
  | call, arrived, [] => .ok (arrived, call)
  | _, .nothing, _ :: _ => .error .nullDeref
  | _, .dangling, _ :: _ => .error .useAfterFree
  | _, .bare .directory, _ :: _ => .error .nullDeref
  | call, .bare .file, _ :: _ => .ok (.nothing, call)
  | call, .item (.file _), _ :: _ => .ok (.nothing, call)
  | call, .item (.directory loaded), name :: rest =>
    match slotNamed (loaded.slots machine) name with
    | none => walkAt call .nothing rest
    | some entry => arrivedAt machine fatPrivate entry call >>= fun found =>
      walkAt (call + requestsAt machine entry call) found rest

/-- The walk of a path from the directory with these slots. -/
def resolveAt (call : Nat) (slots : List FatDirectoryItem) (name : Text) (rest : List Text) :
    Except Fault (Arrived × Nat) :=
  match slotNamed slots name with
  | none => .ok (.nothing, call)
  | some entry => arrivedAt machine fatPrivate entry call >>= fun found =>
    match found with
    | .nothing => .ok (.nothing, call + requestsAt machine entry call)
    | found => walkAt machine fatPrivate (call + requestsAt machine entry call) found rest

end Walks

/-! ### One item -/

section Item

variable {machine : Machine} {fatPrivate : FatPrivate} {entry : FatDirectoryItem} {call : Nat}
  {name : Text} {rest : List Text}

theorem arrivedAt_refused (refused : ¬ machine.allocator.grants call 8 = true) :
    arrivedAt machine fatPrivate entry call = .ok .nothing :=
  if_neg refused

theorem arrivedAt_file (granted : machine.allocator.grants call 8 = true) (file : ¬ entry.IsDirectory) :
    arrivedAt machine fatPrivate entry call =
      .ok (if machine.allocator.grants (call + 1) 32 then .item (.file entry) else .bare .file) := by
  unfold arrivedAt builtAt
  rw [if_pos granted, if_neg file]
  by_cases copied : machine.allocator.grants (call + 1) 32 = true
  · rw [if_pos copied, if_pos copied]
    rfl
  · have plain : itemType entry = .file := if_neg file
    rw [if_neg copied, if_neg copied, if_neg fun both => file both.1, plain]
    rfl

theorem arrivedAt_bare (granted : machine.allocator.grants call 8 = true) (directory : entry.IsDirectory)
    (refused : ¬ machine.allocator.grants (call + 1) 16 = true) :
    arrivedAt machine fatPrivate entry call = .ok (.bare .directory) := by
  have type : itemType entry = .directory := if_pos directory
  unfold arrivedAt builtAt loadAt
  rw [if_pos granted, if_pos directory, if_neg refused, if_neg fun both => refused both.2, type]
  rfl

theorem arrivedAt_directory (granted : machine.allocator.grants call 8 = true)
    (directory : entry.IsDirectory) (record : machine.allocator.grants (call + 1) 16 = true) :
    arrivedAt machine fatPrivate entry call =
      (loadAt machine fatPrivate entry (call + 1)).map fun loaded =>
        match loaded with
        | some loaded => .item (.directory loaded)
        | none => .dangling := by
  unfold arrivedAt builtAt
  rw [if_pos granted, if_pos directory, if_pos ⟨directory, record⟩]
  rcases loadAt machine fatPrivate entry (call + 1) with fault | _ | loaded <;> rfl

theorem requestsAt_file (granted : machine.allocator.grants call 8 = true) (file : ¬ entry.IsDirectory) :
    requestsAt machine entry call = 2 := by
  unfold requestsAt
  rw [if_pos granted, if_neg fun both => file both.1]

theorem requestsAt_directory (granted : machine.allocator.grants call 8 = true)
    (directory : entry.IsDirectory) (record : machine.allocator.grants (call + 1) 16 = true) :
    requestsAt machine entry call = 3 := by
  unfold requestsAt
  rw [if_pos granted, if_pos ⟨directory, record⟩]

theorem arrivedAt_some (granted : machine.allocator.grants call 8 = true) :
    arrivedAt machine fatPrivate entry call ≠ .ok .nothing := by
  intro nothing
  by_cases directory : entry.IsDirectory
  · by_cases record : machine.allocator.grants (call + 1) 16 = true
    · rw [arrivedAt_directory granted directory record] at nothing
      obtain ⟨loaded, -, same⟩ := map_ok_iff.mp nothing
      cases loaded with
      | none => cases same
      | some loaded => cases same
    · rw [arrivedAt_bare granted directory record] at nothing
      cases nothing
  · rw [arrivedAt_file granted directory, Except.ok.injEq] at nothing
    split_ifs at nothing

/-- An item has the type of its entry. -/
theorem arrivedAt_type {arrived : Arrived} (arrives : arrivedAt machine fatPrivate entry call = .ok arrived)
    (some : arrived ≠ .nothing) : arrived.type = Option.some (itemType entry) := by
  have granted : machine.allocator.grants call 8 = true := by
    by_contra refused
    rw [arrivedAt_refused refused, Except.ok.injEq] at arrives
    exact some arrives.symm
  by_cases directory : entry.IsDirectory
  · have type : itemType entry = .directory := if_pos directory
    by_cases record : machine.allocator.grants (call + 1) 16 = true
    · rw [arrivedAt_directory granted directory record] at arrives
      obtain ⟨loaded, -, rfl⟩ := map_ok_iff.mp arrives
      cases loaded with
      | none => simp [Arrived.type, type]
      | some loaded => simp [Arrived.type, type]
    · rw [arrivedAt_bare granted directory record, Except.ok.injEq] at arrives
      simp [← arrives, Arrived.type, type]
  · have type : itemType entry = .file := if_neg directory
    rw [arrivedAt_file granted directory, Except.ok.injEq] at arrives
    rw [← arrives, type]
    split_ifs
    · rfl
    · rfl

/-- A directory shown is that of its entry. -/
theorem arrivedAt_loaded {loaded : LoadedDirectory}
    (arrives : arrivedAt machine fatPrivate entry call = .ok (.item (.directory loaded))) :
    entry.IsDirectory ∧ loadAt machine fatPrivate entry (call + 1) = .ok (some loaded) := by
  have granted : machine.allocator.grants call 8 = true := by
    by_contra refused
    rw [arrivedAt_refused refused] at arrives
    cases arrives
  by_cases directory : entry.IsDirectory
  swap
  · rw [arrivedAt_file granted directory, Except.ok.injEq] at arrives
    split_ifs at arrives
    cases arrives
  by_cases record : machine.allocator.grants (call + 1) 16 = true
  swap
  · rw [arrivedAt_bare granted directory record] at arrives
    cases arrives
  rw [arrivedAt_directory granted directory record] at arrives
  obtain ⟨shown, load, same⟩ := map_ok_iff.mp arrives
  cases shown with
  | none => cases same
  | some shown =>
    cases same
    exact ⟨directory, load⟩

/-- Once the first item is there, a walk from the root goes on as it does below. -/
theorem resolveAt_granted {slots : List FatDirectoryItem} (named : slotNamed slots name = some entry)
    (granted : machine.allocator.grants call 8 = true) :
    resolveAt machine fatPrivate call slots name rest =
      arrivedAt machine fatPrivate entry call >>= fun found =>
        walkAt machine fatPrivate (call + requestsAt machine entry call) found rest := by
  have some := @arrivedAt_some machine fatPrivate entry call granted
  unfold resolveAt
  rw [named]
  dsimp only
  generalize arrivedAt machine fatPrivate entry call = arrives at some ⊢
  rcases arrives with fault | arrived
  · rfl
  · cases arrived with
    | nothing => exact absurd rfl some
    | dangling => rfl
    | bare => rfl
    | item => rfl

theorem resolveAt_refused {slots : List FatDirectoryItem} (named : slotNamed slots name = some entry)
    (refused : ¬ machine.allocator.grants call 8 = true) :
    resolveAt machine fatPrivate call slots name rest =
      .ok (.nothing, call + requestsAt machine entry call) := by
  unfold resolveAt
  rw [named]
  dsimp only
  rw [arrivedAt_refused refused]
  rfl

theorem resolveAt_missing {slots : List FatDirectoryItem} (missing : slotNamed slots name = none) :
    resolveAt machine fatPrivate call slots name rest = .ok (.nothing, call) := by
  unfold resolveAt
  rw [missing]

end Item

/-! ### Loads -/

section Loads

variable {machine : Machine} {fatPrivate : FatPrivate} {entry : FatDirectoryItem} {call : Nat}
  {totalItems : Int}

/-- The read of a directory fails where its chain ends early. -/
theorem loadRead_cases (clusters : fatPrivate.header.sectorsPerCluster ≠ 0) :
    ∃ read, loadRead machine fatPrivate entry totalItems = .ok read ∧
      (read.res = ok ↔ ∀ index,
        index < clusterSpan (fat16GetClusterSizeInBytes fatPrivate) 0 (int32 (totalItems * 32)) →
        isReadableCluster (fatRoute machine.drive fatPrivate (fat16GetFirstCluster entry) index) = true) := by
  obtain ⟨read, result, -, res⟩ := fat16ReadInternalV2_spec machine.drive clusters
    (fat16GetFirstCluster entry) 0 (int32 (totalItems * 32))
  refine ⟨read, result, ?_⟩
  have first : clustersAhead fatPrivate 0 = 0 := by
    rw [clustersAhead, Int.zero_tdiv]
    rfl
  rw [res, first, clustersTouched, Int.zero_tmod]
  split_ifs with readable
  · exact iff_of_true rfl readable
  · exact iff_of_false (by decide) readable

/-- A load faults in its arithmetic or never ends. -/
theorem loadAt_faults {fault : Fault} (faults : loadAt machine fatPrivate entry call = .error fault) :
    fault = .diverges ∨ fault = .divideError := by
  unfold loadAt at faults
  by_cases granted : machine.allocator.grants call 16 = true
  swap
  · rw [if_neg granted] at faults
    cases faults
  rw [if_pos granted] at faults
  rcases fat16GetTotalItemsForDirectory_total fatPrivate machine.drive
      (fat16ClusterToSector fatPrivate (fat16GetFirstCluster entry)) with diverges | ⟨totalItems, counted⟩
  · rw [loadTotal, diverges] at faults
    cases faults
    exact .inl rfl
  rw [loadTotal, counted, ok_bind] at faults
  by_cases room : machine.allocator.grants (call + 1) (uint32 (int32 (totalItems * 32))) = true
  swap
  · rw [if_neg room] at faults
    cases faults
  rw [if_pos room] at faults
  by_cases clusters : fatPrivate.header.sectorsPerCluster = 0
  · rw [loadRead, fat16ReadInternalV2_divide clusters] at faults
    cases faults
    exact .inr rfl
  · obtain ⟨read, result, -⟩ := @loadRead_cases machine fatPrivate entry totalItems clusters
    rw [result] at faults
    cases faults

/-- A load yields what the disk has, or nothing. -/
theorem loadAt_or_none (granted : machine.allocator.grants call 16 = true) :
    loadAt machine fatPrivate entry call = loadView machine fatPrivate entry ∨
      loadAt machine fatPrivate entry call = .ok none := by
  unfold loadAt loadView
  rw [if_pos granted]
  cases loadTotal machine fatPrivate entry with
  | error fault => exact .inl rfl
  | ok totalItems =>
    rw [ok_bind, ok_bind]
    split_ifs
    · exact .inl rfl
    · exact .inr rfl

end Loads

/-! ### In the heap -/

/-- The item at `ptr` is what the walk has arrived at, in the records of the footprint. -/
inductive Reached (heap : Kheap) : Ptr → Arrived → List Ptr → Prop
  | nothing : Reached heap 0 .nothing []
  | dangling {ptr ref : Ptr} : heap.lookup ptr = some (.fatItem ⟨ref, .directory⟩) → ref ≠ 0 →
      heap.lookup ref = none → Reached heap ptr .dangling [ptr]
  | bare {ptr : Ptr} {type : FatItemType} : heap.lookup ptr = some (.fatItem ⟨0, type⟩) →
      Reached heap ptr (.bare type) [ptr]
  | item {ptr : Ptr} {view : ItemView} {footprint : List Ptr} : Shows heap ptr view footprint →
      Reached heap ptr (.item view) footprint

/-- **The call ended at an item**: its records are among those of `old` or were not there before, and if
there is one, those of `old` it has not kept are gone and everything else is as it was. -/
structure EndsAt (heap : Kheap) (old : List Ptr) (ptr : Ptr) (heap' : Kheap) (arrived : Arrived) :
    Prop where
  noNull : heap'.lookup 0 = none
  kept : ∀ other cell, heap.lookup other = some cell → other ∉ old → heap'.lookup other = some cell
  reached : ∃ footprint, Reached heap' ptr arrived footprint ∧
    (∀ place ∈ footprint, place ∈ old ∨ heap.lookup place = none) ∧
    (arrived ≠ .nothing → ∀ other, other ∉ footprint →
      heap'.lookup other = if other ∈ old then none else heap.lookup other)

/-- What the walk of the driver returns, by what it was to end in. -/
inductive WalkOutcome (heap : Kheap) (old : List Ptr) :
    Except Fault (Ptr × Kheap) → Except Fault (Arrived × Nat) → Prop
  | faults (fault : Fault) : WalkOutcome heap old (.error fault) (.error fault)
  | ends {ptr : Ptr} {heap' : Kheap} {arrived : Arrived} : EndsAt heap old ptr heap' arrived →
      WalkOutcome heap old (.ok (ptr, heap')) (.ok (arrived, heap'.calls))

theorem EndsAt.nothing {heap heap' : Kheap} {old : List Ptr} (noNull : heap'.lookup 0 = none)
    (kept : ∀ other cell, heap.lookup other = some cell → other ∉ old → heap'.lookup other = some cell) :
    EndsAt heap old 0 heap' .nothing :=
  ⟨noNull, kept, [], .nothing, fun _ member => absurd member List.not_mem_nil,
    fun some => absurd rfl some⟩

section Build

variable {machine : Machine} {fatPrivate : FatPrivate} {entry : FatDirectoryItem} {heap heap' : Kheap}
  {ptr : Ptr}

/-- A load that returned: its pointer is null exactly if its record was refused. -/
theorem load_pointer (directory : entry.IsDirectory)
    (done : fat16LoadFatDirectory machine fatPrivate heap entry = .ok (ptr, heap')) :
    (machine.allocator.grants heap.calls 16 = true ∧ ptr ≠ 0 ∧ heap'.calls = heap.calls + 2) ∨
      ¬ machine.allocator.grants heap.calls 16 = true ∧ ptr = 0 ∧ heap'.calls = heap.calls + 1 := by
  by_cases granted : Store.Grants machine.allocator heap 16
  · refine .inl ⟨granted, ?_⟩
    rw [load_granted directory granted] at done
    obtain ⟨totalItems, -, done⟩ := bind_ok.mp done
    by_cases granted_items : Store.Grants machine.allocator (loading machine heap)
        (uint32 (int32 (totalItems * 32)))
    · cases result : loadRead machine fatPrivate entry totalItems with
      | error fault =>
        rw [loadItems_faults granted_items result] at done
        cases done
      | ok read =>
        by_cases failed : read.res ≠ ok
        · rw [loadItems_unreadable granted_items result failed] at done
          cases done
          exact ⟨Store.nextPtr_ne_zero, rfl⟩
        · obtain ⟨later, loaded, new⟩ := loadItems_loaded granted_items result (not_not.mp failed)
          rw [loaded] at done
          cases done
          exact ⟨new.nonnull, new.calls⟩
    · rw [loadItems_refused granted_items] at done
      cases done
      exact ⟨Store.nextPtr_ne_zero, rfl⟩
  · refine .inr ⟨granted, ?_⟩
    unfold fat16LoadFatDirectory at done
    rw [if_neg directory, Store.zalloc_refused granted] at done
    cases done
    exact ⟨rfl, rfl⟩

/-- An item that was built: the number of requests, and its pointer. -/
theorem newItem_pointer (granted : Store.Grants machine.allocator heap 8)
    (done : fat16NewFatItemForDirectoryItem machine fatPrivate heap entry = .ok (ptr, heap')) :
    heap'.calls = heap.calls + requestsAt machine entry heap.calls ∧
      ∃ ref, heap'.lookup ptr = some (.fatItem ⟨ref, itemType entry⟩) ∧
        (ref ≠ 0 ↔
          machine.allocator.grants (heap.calls + 1) (if entry.IsDirectory then 16 else 32) = true) := by
  have bit : machine.allocator.grants heap.calls 8 = true := granted
  unfold requestsAt itemType
  rw [if_pos bit]
  by_cases directory : entry.IsDirectory
  · rw [newItem_directory granted directory] at done
    obtain ⟨⟨ref, loaded⟩, load, same⟩ := map_ok_iff.mp done
    cases same
    rw [if_pos directory, if_pos directory]
    rcases load_pointer directory load with ⟨granted', nonnull, calls⟩ | ⟨refused, null, calls⟩
    · have bit' : machine.allocator.grants (heap.calls + 1) 16 = true := granted'
      rw [if_pos ⟨directory, bit'⟩]
      refine ⟨?_, ref, Store.lookup_put_self, iff_of_true nonnull bit'⟩
      exact calls
    · have bit' : ¬ machine.allocator.grants (heap.calls + 1) 16 = true := refused
      rw [if_neg fun both => bit' both.2]
      refine ⟨?_, ref, Store.lookup_put_self, iff_of_false (not_not.mpr null) bit'⟩
      exact calls
  · rw [newItem_file granted directory] at done
    cases done
    rw [if_neg directory, if_neg directory, if_neg fun both => directory both.1]
    unfold fat16CloneDirectoryItem
    by_cases granted_copy : Store.Grants machine.allocator (building machine heap) 32
    · have bit' : machine.allocator.grants (heap.calls + 1) 32 = true := granted_copy
      rw [Store.zalloc_granted granted_copy]
      exact ⟨rfl, _, Store.lookup_put_self, iff_of_true Store.nextPtr_ne_zero bit'⟩
    · have bit' : ¬ machine.allocator.grants (heap.calls + 1) 32 = true := granted_copy
      rw [Store.zalloc_refused granted_copy]
      exact ⟨rfl, 0, Store.lookup_put_self, iff_of_false (not_not.mpr rfl) bit'⟩

/-- **What building an item ends in.** -/
theorem newItem_ends (noNull : heap.lookup 0 = none) :
    WalkOutcome heap [] (fat16NewFatItemForDirectoryItem machine fatPrivate heap entry)
      ((arrivedAt machine fatPrivate entry heap.calls).map fun arrived =>
        (arrived, heap.calls + requestsAt machine entry heap.calls)) := by
  unfold arrivedAt
  by_cases granted : Store.Grants machine.allocator heap 8
  · have bit : machine.allocator.grants heap.calls 8 = true := granted
    rw [if_pos bit]
    have outcome := @newItem_outcome machine fatPrivate entry heap granted noNull
    rcases done : fat16NewFatItemForDirectoryItem machine fatPrivate heap entry with fault | ⟨ptr, heap'⟩
    · rw [newItem_faults granted noNull done]
      exact .faults fault
    · obtain ⟨calls, ref, record, pointer⟩ := newItem_pointer granted done
      rw [done] at outcome
      generalize built_eq : builtAt machine fatPrivate entry heap.calls = built at outcome
      rw [← calls]
      generalize type_eq : itemType entry = type at outcome record
      cases outcome with
      | stray stray =>
        obtain ⟨nonnull, fresh, ⟨ref', record', missing⟩, kept⟩ := stray
        cases record.symm.trans record'
        refine .ends ⟨(kept 0 nonnull.symm).trans noNull, fun other cell found _ => ?_, [ptr], ?_,
          fun place member => .inr ?_, fun _ other outside => kept other (List.ne_of_not_mem_cons outside)⟩
        · rw [kept other (Store.ne_of_absent found fresh), found]
        · dsimp only
          by_cases freed : entry.IsDirectory ∧ machine.allocator.grants (heap.calls + 1) 16 = true
          · rw [if_pos freed]
            rw [itemType, if_pos freed.1] at type_eq
            subst type_eq
            rw [if_pos freed.1] at pointer
            exact .dangling record (pointer.mpr freed.2) missing
          · rw [if_neg freed]
            obtain rfl : ref = 0 := by
              by_contra nonnull
              have granted_ref := pointer.mp nonnull
              split_ifs at granted_ref with directory
              · exact freed ⟨directory, granted_ref⟩
              · unfold builtAt at built_eq
                rw [if_neg directory, if_pos granted_ref] at built_eq
                cases built_eq
            exact .bare record
        · rw [List.mem_singleton.mp member, fresh]
      | built new =>
        have noNull' := new.noNull noNull
        obtain ⟨-, -, footprint, shows, fresh, kept⟩ := new
        refine .ends ⟨noNull', fun other cell found _ => ?_, footprint, .item shows,
          fun place member => .inr (fresh place member).2, fun _ other outside => kept other outside⟩
        rw [kept other, found]
        intro member
        rw [(fresh other member).2] at found
        cases found
  · have bit : ¬ machine.allocator.grants heap.calls 8 = true := granted
    rw [if_neg bit, newItem_refused granted]
    show WalkOutcome heap [] (.ok (0, heap.tick)) (.ok (.nothing, heap.calls + _))
    unfold requestsAt
    rw [if_neg bit]
    exact .ends (.nothing noNull fun _ _ found _ => found)

end Build

/-! ### Walks -/

section Walk

variable {machine : Machine} {fatPrivate : FatPrivate} {heap : Kheap} {ptr : Ptr} {arrived : Arrived}
  {old footprint : List Ptr}

/-- Two calls, the second on what the first has ended at. -/
theorem EndsAt.trans {middle heap' : Kheap} {next : Ptr} {arrived' : Arrived}
    (first : EndsAt heap old ptr middle arrived)
    (within : ∀ place ∈ footprint, place ∈ old ∨ heap.lookup place = none)
    (exact : arrived ≠ .nothing → ∀ other, other ∉ footprint →
      middle.lookup other = if other ∈ old then none else heap.lookup other)
    (second : EndsAt middle footprint next heap' arrived')
    (lasts : arrived' ≠ .nothing → arrived ≠ .nothing) : EndsAt heap old next heap' arrived' := by
  obtain ⟨noNull, kept, footprint', reached', within', exact'⟩ := second
  refine ⟨noNull, fun other cell found outside => ?_, footprint', reached', fun place member => ?_,
    fun item other outside => ?_⟩
  · refine kept other cell (first.kept other cell found outside) fun member => ?_
    rcases within other member with inside | absent
    · exact outside inside
    · rw [found] at absent
      cases absent
  · rcases within' place member with inside | absent
    · exact within place inside
    · by_cases inside : place ∈ old
      · exact .inl inside
      · refine .inr ?_
        cases found : heap.lookup place with
        | none => rfl
        | some cell =>
          rw [first.kept place cell found inside] at absent
          cases absent
  · rw [exact' item other outside]
    by_cases member : other ∈ footprint
    · rw [if_pos member]
      rcases within other member with inside | absent
      · rw [if_pos inside]
      · rw [absent, ite_self]
    · rw [if_neg member, exact (lasts item) other member]

theorem Reached.nonnull (reached : Reached heap ptr arrived footprint) (item : arrived ≠ .nothing)
    (noNull : heap.lookup 0 = none) : ptr ≠ 0 := by
  have absent {cell : Cell} (found : heap.lookup ptr = some cell) : ptr ≠ 0 := Store.ne_of_absent found noNull
  cases reached with
  | nothing => exact absurd rfl item
  | dangling record => exact absent record
  | bare record => exact absent record
  | item shows =>
    cases shows with
    | file record => exact absent record
    | directory record => exact absent record

/-- What has been reached is still there when other records are freed. -/
theorem Reached.frame {heap' : Kheap} (reached : Reached heap ptr arrived footprint)
    (same : ∀ place ∈ footprint, heap'.lookup place = heap.lookup place)
    (absent : ∀ place, heap.lookup place = none → heap'.lookup place = none) :
    Reached heap' ptr arrived footprint := by
  cases reached with
  | nothing => exact .nothing
  | dangling record nonnull missing =>
    exact .dangling ((same _ List.mem_cons_self).trans record) nonnull (absent _ missing)
  | bare record => exact .bare ((same _ List.mem_cons_self).trans record)
  | item shows => exact .item (shows.frame same)

/-- The item behind is freed once the next one is built. -/
theorem EndsAt.free {view : ItemView} {middle : Kheap} {next : Ptr} (shows : Shows heap ptr view footprint)
    (noNull : heap.lookup 0 = none) (ends : EndsAt heap [] next middle arrived) :
    ∃ later reached, fat16FatItemFree middle ptr = .ok later ∧ later.calls = middle.calls ∧
      EndsAt heap footprint next later arrived ∧ Reached later next arrived reached ∧
      (∀ place ∈ reached, place ∈ footprint ∨ heap.lookup place = none) ∧
      (arrived ≠ .nothing → ∀ other, other ∉ reached →
        later.lookup other = if other ∈ footprint then none else heap.lookup other) := by
  obtain ⟨noNull', kept, reached, is_reached, fresh, exact⟩ := ends
  have framed : Shows middle ptr view footprint := shows.frame fun place member => by
    obtain ⟨cell, found⟩ := shows.present place member
    rw [kept place cell found List.not_mem_nil, found]
  obtain ⟨later, freed, calls, gone, others⟩ := framed.free
  have fresh (place : Ptr) (member : place ∈ reached) : heap.lookup place = none :=
    (fresh place member).resolve_left List.not_mem_nil
  have is_reached : Reached later next arrived reached :=
    is_reached.frame (fun place member => others place (shows.absent (fresh place member)))
      fun place absent => by
        by_cases inside : place ∈ footprint
        · exact gone place inside
        · rw [others place inside, absent]
  have exact : arrived ≠ .nothing → ∀ other, other ∉ reached →
      later.lookup other = if other ∈ footprint then none else heap.lookup other := by
    intro some other outside
    by_cases inside : other ∈ footprint
    · rw [gone other inside, if_pos inside]
    · rw [others other inside, if_neg inside]
      exact exact some other outside
  refine ⟨later, reached, freed, calls, ⟨?_, fun other cell found outside => ?_, reached, is_reached,
    fun place member => .inr (fresh place member), exact⟩, is_reached,
    fun place member => .inr (fresh place member), exact⟩
  · rw [others 0 (shows.absent noNull), noNull']
  · rw [others other outside, kept other cell found List.not_mem_nil]

theorem walkAt_nothing {call calls : Nat} {rest : List Text}
    (ends : walkAt machine fatPrivate call .nothing rest = .ok (arrived, calls)) : arrived = .nothing := by
  cases rest with
  | nil =>
    cases ends
    rfl
  | cons => cases ends

/-- What goes on from a new item, whatever that has ended in. -/
theorem newItem_onwards {entry : FatDirectoryItem} {footprint : List Ptr}
    {onwards : Ptr × Kheap → Except Fault (Ptr × Kheap)}
    (onwardsAt : Arrived → Nat → Except Fault (Arrived × Nat)) (noNull : heap.lookup 0 = none)
    (from_item : ∀ {ptr : Ptr} {middle : Kheap} {arrived : Arrived}, EndsAt heap [] ptr middle arrived →
      WalkOutcome heap footprint (onwards (ptr, middle)) (onwardsAt arrived middle.calls)) :
    WalkOutcome heap footprint (fat16NewFatItemForDirectoryItem machine fatPrivate heap entry >>= onwards)
      (arrivedAt machine fatPrivate entry heap.calls >>= fun arrived =>
        onwardsAt arrived (heap.calls + requestsAt machine entry heap.calls)) := by
  have outcome := @newItem_ends machine fatPrivate entry heap noNull
  generalize fat16NewFatItemForDirectoryItem machine fatPrivate heap entry = result at outcome
  generalize arrivedAt machine fatPrivate entry heap.calls = found at outcome
  generalize heap.calls + requestsAt machine entry heap.calls = calls at outcome
  cases found with
  | error fault =>
    cases outcome
    exact .faults fault
  | ok arrived =>
    cases outcome with
    | ends ends => exact from_item ends

/-- **What a walk ends in.** -/
theorem walk_outcome :
    ∀ {rest : List Text} {heap : Kheap} {ptr : Ptr} {arrived : Arrived} {footprint : List Ptr},
      Reached heap ptr arrived footprint → heap.lookup 0 = none →
      WalkOutcome heap footprint (fat16WalkParts machine fatPrivate heap ptr rest)
        (walkAt machine fatPrivate heap.calls arrived rest)
  | [], heap, ptr, arrived, footprint, reached, noNull => by
      rw [walkAt]
      exact .ends ⟨noNull, fun _ _ found _ => found, footprint, reached, fun _ member => .inl member,
        fun _ other outside => (if_neg outside).symm⟩
  | name :: rest, heap, ptr, arrived, footprint, reached, noNull => by
      have of_file {ref : Ptr} (record : heap.lookup ptr = some (.fatItem ⟨ref, .file⟩)) :
          WalkOutcome heap footprint (fat16WalkParts machine fatPrivate heap ptr (name :: rest))
            (.ok (.nothing, heap.calls)) := by
        rw [fat16WalkParts, deref_eq fatItemKind record, ok_bind]
        exact .ends (.nothing noNull fun _ _ found _ => found)
      cases reached with
      | nothing =>
        rw [fat16WalkParts, deref_missing noNull]
        exact .faults _
      | dangling record nonnull missing =>
        rw [fat16WalkParts, deref_eq fatItemKind record, ok_bind]
        dsimp only
        rw [if_neg (not_not.mpr rfl), deref_missing missing, if_neg nonnull]
        exact .faults _
      | @bare _ type record =>
        cases type with
        | directory =>
          rw [fat16WalkParts, deref_eq fatItemKind record, ok_bind]
          dsimp only
          rw [if_neg (not_not.mpr rfl), deref_missing noNull]
          exact .faults _
        | file => exact of_file record
      | @item _ view _ shows =>
        cases view with
        | file entry =>
          cases shows with
          | file record found => exact of_file record
        | directory loaded =>
          -- The turn, whatever the lookup has ended at.
          have turn {next : Ptr} {middle : Kheap} {arrived : Arrived}
              (ends : EndsAt heap [] next middle arrived) :
              WalkOutcome heap footprint
                (fat16FatItemFree middle ptr >>= fun later =>
                  fat16WalkParts machine fatPrivate later next rest)
                (walkAt machine fatPrivate middle.calls arrived rest) := by
            obtain ⟨later, reached, freed, calls, first, is_reached, within, exact⟩ :=
              ends.free shows noNull
            have outcome := @walk_outcome rest _ _ _ _ is_reached first.noNull
            rw [freed, ok_bind, ← calls]
            generalize walks : fat16WalkParts machine fatPrivate later next rest = result at outcome
            generalize walks_at : walkAt machine fatPrivate later.calls arrived rest = abstract at outcome
            cases outcome with
            | faults fault => exact .faults fault
            | ends second =>
              refine .ends (first.trans within exact second fun some => ?_)
              rintro rfl
              exact some (walkAt_nothing walks_at)
          rw [walk_turn shows, walkAt]
          cases slotNamed (loaded.slots machine) name with
          | none => exact turn (.nothing noNull fun _ _ found _ => found)
          | some entry =>
            exact newItem_onwards (fun arrived calls => walkAt machine fatPrivate calls arrived rest) noNull turn

/-- **What a walk from the root directory ends in.** -/
theorem entry_outcome {items : List FatDirectoryItem} {name : Text} {rest : List Text}
    (found : heap.lookup fatPrivate.rootDirectory.item = some (.directoryItems items))
    (noNull : heap.lookup 0 = none) :
    WalkOutcome heap [] (fat16GetDirectoryEntry machine fatPrivate heap name rest)
      (resolveAt machine fatPrivate heap.calls (slots machine fatPrivate.rootDirectory.total items) name
        rest) := by
  have turn : fat16GetDirectoryEntry machine fatPrivate heap name rest =
      ((match slotNamed (slots machine fatPrivate.rootDirectory.total items) name with
        | none => .ok (0, heap)
        | some entry => fat16NewFatItemForDirectoryItem machine fatPrivate heap entry) >>= fun found =>
        if found.1 = 0 then .ok (0, found.2)
        else fat16WalkParts machine fatPrivate found.2 found.1 rest) := by
    unfold fat16GetDirectoryEntry
    rw [fat16GetItemInDirectory_eq found]
    rfl
  rw [turn, resolveAt]
  cases slotNamed (slots machine fatPrivate.rootDirectory.total items) name with
  | none => exact .ends (.nothing noNull fun _ _ found _ => found)
  | some entry =>
    refine newItem_onwards (fun arrived calls => match arrived with
      | .nothing => .ok (.nothing, calls)
      | found => walkAt machine fatPrivate calls found rest) noNull fun {ptr middle arrived} ends => ?_
    obtain ⟨footprint, reached, fresh, exact⟩ := ends.reached
    have onwards (some : arrived ≠ .nothing) (nonnull : ptr ≠ 0) :
        WalkOutcome heap [] (if ptr = 0 then .ok (0, middle)
            else fat16WalkParts machine fatPrivate middle ptr rest)
          (walkAt machine fatPrivate middle.calls arrived rest) := by
      rw [if_neg nonnull]
      have outcome := @walk_outcome machine fatPrivate rest _ _ _ _ reached ends.noNull
      generalize fat16WalkParts machine fatPrivate middle ptr rest = result at outcome
      generalize walkAt machine fatPrivate middle.calls arrived rest = abstract at outcome
      cases outcome with
      | faults fault => exact .faults fault
      | ends second => exact .ends (ends.trans fresh exact second fun _ => some)
    cases arrived with
    | nothing =>
      cases reached
      dsimp only
      rw [if_pos rfl]
      exact .ends ends
    | dangling => exact onwards nofun (reached.nonnull nofun ends.noNull)
    | bare => exact onwards nofun (reached.nonnull nofun ends.noNull)
    | item => exact onwards nofun (reached.nonnull nofun ends.noNull)

end Walk

/-! ### `fat16_open` -/

section Open

variable {machine : Machine} {fatPrivate : FatPrivate} {heap : Kheap} {name : Text} {rest : List Text}
  {mode : FileMode}

/-- The heap with the descriptor that is about to be opened. -/
def describing (machine : Machine) (heap : Kheap) : Kheap :=
  heap.tick.put (Store.nextPtr machine.allocator heap 8) (.fatDescriptor ⟨0, 0⟩)

theorem describing_lookup {other : Ptr} (apart : other ≠ Store.nextPtr machine.allocator heap 8) :
    (describing machine heap).lookup other = heap.lookup other :=
  Store.lookup_put_ne apart

theorem describing_noNull (noNull : heap.lookup 0 = none) : (describing machine heap).lookup 0 = none :=
  (describing_lookup Store.nextPtr_ne_zero.symm).trans noNull

theorem describing_kept {ptr : Ptr} {cell : Cell} (found : heap.lookup ptr = some cell) :
    (describing machine heap).lookup ptr = some cell :=
  (describing_lookup (Store.nextPtr_ne found)).trans found

/-- An open for reading that gets its descriptor is the walk. -/
theorem fat16Open_granted (granted : Store.Grants machine.allocator heap 8) :
    fat16Open machine fatPrivate heap name rest .read =
      (fat16GetDirectoryEntry machine fatPrivate (describing machine heap) name rest >>= fun found =>
        if found.1 = 0 then .ok (-eio, found.2)
        else .ok ((Store.nextPtr machine.allocator heap 8 : Int),
          found.2.put (Store.nextPtr machine.allocator heap 8) (.fatDescriptor ⟨found.1, 0⟩))) := by
  unfold fat16Open
  rw [if_neg (not_not.mpr rfl), Store.zalloc_granted granted]
  dsimp only
  rw [if_neg Store.nextPtr_ne_zero]
  rfl

theorem fat16Open_refused (refused : ¬ Store.Grants machine.allocator heap 8) :
    fat16Open machine fatPrivate heap name rest .read = .ok (-enomem, heap.tick) := by
  unfold fat16Open
  rw [if_neg (not_not.mpr rfl), Store.zalloc_refused refused]
  rfl

theorem fat16Open_other (other : mode ≠ .read) :
    fat16Open machine fatPrivate heap name rest mode = .ok (-erdonly, heap) := by
  unfold fat16Open
  exact if_pos other

end Open

end KernelPlay
