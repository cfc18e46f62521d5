/-
**Who owns what an open file or directory is made of.**

`Owned` — the descriptor, its item and what the item points to are new records of their own, and
`fat16_close` frees each of them and nothing else. `opens_owned_iff` — every descriptor that `fat16_open`
returns for a path is so exactly if every directory on the path can be loaded (`PathLoads`): after a load
that fails the item keeps the pointer to the directory that was freed (`opens_owned_fails`).
-/

import KernelPlay.Fat.Outcome
import KernelPlay.Fat.Tree

namespace KernelPlay

open KernelPlay.Library

/-- The pointers in a record. -/
def Cell.refs : Cell → List Ptr
  | .pathRoot root => root.parts.flatMap fun part => [part.addr, part.nameAddr]
  | .fatDescriptor descriptor => [descriptor.item]
  | .fatItem item => [item.ref]
  | .fatDirectory directory => [directory.item]
  | .fileDescriptor descriptor => [descriptor.privateData]
  | _ => []

/-- No record points at memory that is not live. -/
def NoStale (heap : Kheap) : Prop :=
  ∀ ptr cell, heap.lookup ptr = some cell → ∀ ref ∈ cell.refs, ref = 0 ∨ ref ∈ heap.live

/-- **The descriptor owns its records**, which were allocated since `heap`: nothing else has changed or
points at them, and a close of the descriptor frees these and no others, whatever has become of the
rest of the heap. -/
structure Owned (heap heap' : Kheap) (descriptor item : Ptr) (footprint : List Ptr) : Prop where
  record : heap'.lookup descriptor = some (.fatDescriptor ⟨item, 0⟩)
  shows : ∃ view, Shows heap' item view footprint
  once : (descriptor :: footprint).Nodup
  live : ∀ ptr ∈ descriptor :: footprint, ptr ∈ heap'.live
  fresh : ∀ ptr ∈ descriptor :: footprint, ptr ∉ heap.live
  kept : ∀ other, other ∉ descriptor :: footprint → heap'.lookup other = heap.lookup other
  alone : NoStale heap → ∀ other cell, other ∉ descriptor :: footprint →
    heap'.lookup other = some cell → ∀ ref ∈ cell.refs, ref ∉ descriptor :: footprint
  closes : ∀ (later : Kheap) (pos : Nat), later.lookup descriptor = some (.fatDescriptor ⟨item, pos⟩) →
    (∀ ptr ∈ footprint, later.lookup ptr = heap'.lookup ptr) →
    ∃ closed, fat16Close later descriptor = .ok (ok, closed) ∧
      (∀ ptr ∈ descriptor :: footprint, closed.lookup ptr = none) ∧
      ∀ other, other ∉ descriptor :: footprint → closed.lookup other = later.lookup other

/-- **Every descriptor returned owns its records**, and the walk to it touches no record that has been
freed. -/
structure OpensOwned (machine : Machine) (fatPrivate : FatPrivate) (heap : Kheap) (name : Text)
    (rest : List Text) : Prop where
  owned : ∀ mode (descriptor : Int) later,
    fat16Open machine fatPrivate heap name rest mode = .ok (descriptor, later) → 0 < descriptor →
    ∃ item footprint, Owned heap later descriptor.toNat item footprint
  clean : ∀ mode fault, fat16Open machine fatPrivate heap name rest mode = .error fault →
    fault ≠ .useAfterFree ∧ fault ≠ .invalidFree

/-! ### Directories that can be loaded -/

section Loads

variable (machine : Machine) (fatPrivate : FatPrivate)

/-- **The directory can be loaded**, if its item is request number `call`: its buffer is granted, and its
chain is readable as far as its entries go. -/
def CanLoad (entry : FatDirectoryItem) (call : Nat) : Prop :=
  ∀ totalItems, loadTotal machine fatPrivate entry = .ok totalItems →
    machine.allocator.grants (call + 2) (uint32 (int32 (totalItems * 32))) = true ∧
    (fatPrivate.header.sectorsPerCluster ≠ 0 → ∀ index,
      index < clusterSpan (fat16GetClusterSizeInBytes fatPrivate) 0 (int32 (totalItems * 32)) →
      isReadableCluster (fatRoute machine.drive fatPrivate (fat16GetFirstCluster entry) index) = true)

/-- **Every directory on the path can be loaded.** -/
def PathLoads : Nat → List FatDirectoryItem → Text → List Text → Prop
  | call, slots, name, [] => ∀ entry, slotNamed slots name = some entry → entry.IsDirectory →
      CanLoad machine fatPrivate entry call
  | call, slots, name, next :: rest => ∀ entry, slotNamed slots name = some entry →
      entry.IsDirectory → CanLoad machine fatPrivate entry call ∧
        ∀ loaded, loadView machine fatPrivate entry = .ok (some loaded) →
          PathLoads (call + 3) (loaded.slots machine) next rest

variable {machine fatPrivate} {entry : FatDirectoryItem} {call : Nat} {totalItems : Int}

/-- Once it has its record, a directory that can be loaded is one whose load does not fail. -/
theorem canLoad_iff (granted : machine.allocator.grants (call + 1) 16 = true) :
    CanLoad machine fatPrivate entry call ↔ loadAt machine fatPrivate entry (call + 1) ≠ .ok none := by
  unfold CanLoad loadAt
  rw [if_pos granted]
  cases total : loadTotal machine fatPrivate entry with
  | error fault =>
    refine iff_of_true (fun _ counted => ?_) fun none => ?_
    · cases counted
    · cases none
  | ok totalItems =>
    rw [ok_bind]
    by_cases room : machine.allocator.grants (call + 1 + 1) (uint32 (int32 (totalItems * 32))) = true
    · rw [if_pos room]
      by_cases clusters : fatPrivate.header.sectorsPerCluster = 0
      · rw [loadRead, fat16ReadInternalV2_divide clusters]
        refine iff_of_true (fun other counted => ?_) fun none => ?_
        · cases counted
          exact ⟨room, fun some => absurd clusters some⟩
        · cases none
      · obtain ⟨read, result, succeeds⟩ :=
          @loadRead_cases machine fatPrivate entry totalItems clusters
        rw [result, ok_bind]
        by_cases failed : read.res = ok
        · rw [if_neg (not_not.mpr failed)]
          refine iff_of_true (fun other counted => ?_) fun none => ?_
          · cases counted
            exact ⟨room, fun _ => succeeds.mp failed⟩
          · cases none
        · rw [if_pos failed]
          refine iff_of_false (fun can => failed ?_) fun some => some rfl
          exact succeeds.mpr ((can totalItems rfl).2 clusters)
    · rw [if_neg room]
      exact iff_of_false (fun can => room (can totalItems rfl).1) fun some => some rfl

end Loads

/-! ### Walks by what they end in -/

/-- The walk ends at no item or at one that shows its entry, and reads nothing that has been freed. -/
def EndsSound : Except Fault (Arrived × Nat) → Prop
  | .error fault => fault ≠ .useAfterFree ∧ fault ≠ .invalidFree
  | .ok (arrived, _) => arrived = .nothing ∨ ∃ view, arrived = .item view

section Walks

variable {machine : Machine} {fatPrivate : FatPrivate} {entry : FatDirectoryItem} {call : Nat}
  {slots : List FatDirectoryItem} {name : Text} {rest : List Text}

/-- What there is of an entry if no request for memory is refused. -/
theorem arrivedAt_ample (ample : Ample machine.allocator) :
    arrivedAt machine fatPrivate entry call =
      if entry.IsDirectory then (loadAt machine fatPrivate entry (call + 1)).map fun loaded =>
        match loaded with
        | some loaded => .item (.directory loaded)
        | none => .dangling
      else .ok (.item (.file entry)) := by
  unfold arrivedAt builtAt
  rw [if_pos (ample _ _ (by decide))]
  by_cases directory : entry.IsDirectory
  · rw [if_pos directory, if_pos directory]
    rcases loadAt machine fatPrivate entry (call + 1) with fault | _ | loaded
    · rfl
    · show Except.ok (if _ then _ else _) = _
      rw [if_pos ⟨directory, ample _ _ (by decide)⟩]
      rfl
    · rfl
  · rw [if_neg directory, if_neg directory, if_pos (ample _ _ (by decide))]
    rfl

theorem endsSound_walk_nothing : EndsSound (walkAt machine fatPrivate call .nothing rest) := by
  cases rest with
  | nil => exact .inl rfl
  | cons => exact ⟨nofun, nofun⟩

theorem not_endsSound_walk_dangling : ¬ EndsSound (walkAt machine fatPrivate call .dangling rest) := by
  cases rest with
  | nil =>
    rintro (⟨⟨⟩⟩ | ⟨_, ⟨⟩⟩)
  | cons => exact fun sound => sound.1 rfl

theorem endsSound_walk_file : EndsSound (walkAt machine fatPrivate call (.item (.file entry)) rest) := by
  cases rest with
  | nil => exact .inr ⟨_, rfl⟩
  | cons => exact .inl rfl

/-- One turn: an entry that is a directory has to be loaded, and the walk goes on in it. -/
theorem turn_sound_iff (ample : Ample machine.allocator) :
    EndsSound (arrivedAt machine fatPrivate entry call >>= fun found =>
        walkAt machine fatPrivate (call + requestsAt machine entry call) found rest) ↔
      (entry.IsDirectory → CanLoad machine fatPrivate entry call ∧
        ∀ loaded, loadView machine fatPrivate entry = .ok (some loaded) →
          EndsSound (walkAt machine fatPrivate (call + 3) (.item (.directory loaded)) rest)) := by
  rw [arrivedAt_ample ample]
  by_cases directory : entry.IsDirectory
  swap
  · rw [if_neg directory]
    exact iff_of_true endsSound_walk_file fun is_directory => absurd is_directory directory
  have record : machine.allocator.grants (call + 1) 16 = true := ample _ _ (by decide)
  have requests : requestsAt machine entry call = 3 := by
    unfold requestsAt
    rw [if_pos (ample _ _ (by decide)), if_pos ⟨directory, record⟩]
  rw [if_pos directory, canLoad_iff record, requests, forall_prop_of_true directory]
  have same := @loadAt_or_none machine fatPrivate entry (call + 1) record
  rcases load : loadAt machine fatPrivate entry (call + 1) with fault | _ | loaded
  · rw [load] at same
    have view := same.resolve_right nofun
    rw [← view]
    refine iff_of_true ?_ ⟨nofun, nofun⟩
    rcases loadAt_faults load with rfl | rfl
    · exact ⟨nofun, nofun⟩
    · exact ⟨nofun, nofun⟩
  · exact iff_of_false not_endsSound_walk_dangling fun both => both.1 rfl
  · rw [load] at same
    rw [← same.resolve_right nofun]
    show EndsSound (walkAt machine fatPrivate (call + 3) (.item (.directory loaded)) rest) ↔ _
    refine ⟨fun sound => ⟨nofun, ?_⟩, fun both => both.2 loaded rfl⟩
    rintro _ ⟨⟩
    exact sound

/-- **A walk ends soundly** exactly if the directories on its path can be loaded. -/
theorem path_sound_iff (ample : Ample machine.allocator) :
    ∀ (rest : List Text) (call : Nat) (slots : List FatDirectoryItem) (name : Text),
      EndsSound (match slotNamed slots name with
        | none => walkAt machine fatPrivate call .nothing rest
        | some entry => arrivedAt machine fatPrivate entry call >>= fun found =>
          walkAt machine fatPrivate (call + requestsAt machine entry call) found rest) ↔
        PathLoads machine fatPrivate call slots name rest := by
  intro rest
  induction rest with
  | nil =>
    intro call slots name
    unfold PathLoads
    cases slotNamed slots name with
    | none => exact iff_of_true endsSound_walk_nothing nofun
    | some entry =>
      refine (turn_sound_iff ample).trans ⟨?_, fun all directory => ⟨all entry rfl directory, ?_⟩⟩
      · rintro turn _ ⟨⟩ directory
        exact (turn directory).1
      · intro loaded _
        exact .inr ⟨_, rfl⟩
  | cons next rest ih =>
    intro call slots name
    unfold PathLoads
    cases slotNamed slots name with
    | none => exact iff_of_true endsSound_walk_nothing nofun
    | some entry =>
      refine (turn_sound_iff ample).trans ⟨?_, fun all directory => ?_⟩
      · rintro turn _ ⟨⟩ directory
        obtain ⟨can, behind⟩ := turn directory
        exact ⟨can, fun loaded view => (ih _ _ _).mp (behind loaded view)⟩
      · obtain ⟨can, behind⟩ := all entry rfl directory
        exact ⟨can, fun loaded view => (ih _ _ _).mpr (behind loaded view)⟩

/-- With memory for every record, a walk from the root is a turn like any other. -/
theorem resolveAt_ample (ample : Ample machine.allocator) :
    resolveAt machine fatPrivate call slots name rest =
      match slotNamed slots name with
      | none => .ok (.nothing, call)
      | some entry => arrivedAt machine fatPrivate entry call >>= fun found =>
        walkAt machine fatPrivate (call + requestsAt machine entry call) found rest := by
  unfold resolveAt
  cases slotNamed slots name with
  | none => rfl
  | some entry =>
    dsimp only
    rw [arrivedAt_ample ample]
    by_cases directory : entry.IsDirectory
    · rw [if_pos directory]
      rcases loadAt machine fatPrivate entry (call + 1) with fault | _ | loaded <;> rfl
    · rw [if_neg directory]
      rfl

theorem entry_sound_iff (ample : Ample machine.allocator) :
    EndsSound (resolveAt machine fatPrivate call slots name rest) ↔
      PathLoads machine fatPrivate call slots name rest := by
  rw [resolveAt_ample ample, ← path_sound_iff ample]
  cases slotNamed slots name with
  | none => exact iff_of_true (.inl rfl) endsSound_walk_nothing
  | some entry => exact Iff.rfl

end Walks

/-! ### Descriptors -/

section Descriptor

variable {machine : Machine} {fatPrivate : FatPrivate} {heap heap' : Kheap} {item : Ptr}
  {view : ItemView} {footprint : List Ptr} {name : Text} {rest : List Text}

theorem Shows.nodup (shows : Shows heap item view footprint) : footprint.Nodup := by
  cases shows with
  | file record entry =>
    have first := Store.ne_of_lookup record entry nofun
    simp [first]
  | directory record _ _ directory items =>
    have first := Store.ne_of_lookup record directory nofun
    have second := Store.ne_of_lookup record items nofun
    have third := Store.ne_of_lookup directory items nofun
    simp [first, second, third]

/-- An item that shows something is not one whose pointer leads nowhere. -/
theorem Reached.shown {arrived : Arrived} {reached : List Ptr} (at_item : Reached heap item arrived reached)
    (shows : Shows heap item view footprint) (noNull : heap.lookup 0 = none) :
    arrived = .nothing ∨ ∃ view, arrived = .item view := by
  cases at_item with
  | nothing => exact .inl rfl
  | item => exact .inr ⟨_, rfl⟩
  | dangling record _ missing =>
    cases shows with
    | file record' => cases record.symm.trans record'
    | directory record' _ _ directory =>
      cases record.symm.trans record'
      rw [missing] at directory
      cases directory
  | bare record =>
    cases shows with
    | file record' entry =>
      cases record.symm.trans record'
      rw [noNull] at entry
      cases entry
    | directory record' nonnull =>
      cases record.symm.trans record'
      exact absurd rfl nonnull

/-- A close of a descriptor frees it and its item. -/
theorem fat16Close_frees {descriptor : Ptr} {pos : Nat}
    (record : heap.lookup descriptor = some (.fatDescriptor ⟨item, pos⟩))
    (shows : Shows heap item view footprint) :
    ∃ closed, fat16Close heap descriptor = .ok (ok, closed) ∧
      (∀ ptr ∈ descriptor :: footprint, closed.lookup ptr = none) ∧
      ∀ other, other ∉ descriptor :: footprint → closed.lookup other = heap.lookup other := by
  have outside := shows.own record id
  obtain ⟨freed, frees, -, gone, others⟩ := shows.free
  have still := (others descriptor outside).trans record
  refine ⟨freed.erase descriptor, ?_, fun ptr member => ?_, fun other absent => ?_⟩
  · unfold fat16Close
    rw [deref_eq fatDescriptorKind record, ok_bind, frees, ok_bind,
      kheapFree_eq fatDescriptorKind still]
    rfl
  · by_cases same : ptr = descriptor
    · rw [same, Store.lookup_erase_self]
    · rw [Store.lookup_erase_ne same]
      exact gone ptr ((List.mem_cons.mp member).resolve_left same)
  · rw [List.mem_cons, not_or] at absent
    rw [Store.lookup_erase_ne absent.1, others other absent.2]

/-- The walk has ended at an item that shows its entry: the descriptor owns it. -/
theorem owned_of_ends (ends : EndsAt (describing machine heap) [] item heap' (.item view)) :
    ∃ footprint, Owned heap (heap'.put (Store.nextPtr machine.allocator heap 8) (.fatDescriptor ⟨item, 0⟩))
      (Store.nextPtr machine.allocator heap 8) item footprint := by
  obtain ⟨noNull', -, footprint, reached, fresh, exact⟩ := ends
  have fresh (place : Ptr) (member : place ∈ footprint) : (describing machine heap).lookup place = none :=
    (fresh place member).resolve_left List.not_mem_nil
  have others (other : Ptr) (outside : other ∉ footprint) :
      heap'.lookup other = (describing machine heap).lookup other := exact nofun other outside
  have own : (describing machine heap).lookup (Store.nextPtr machine.allocator heap 8) =
      some (.fatDescriptor ⟨0, 0⟩) := Store.lookup_put_self
  have elsewhere {other : Ptr} (apart : other ≠ Store.nextPtr machine.allocator heap 8) :
      (describing machine heap).lookup other = heap.lookup other := describing_lookup apart
  have new : heap.lookup (Store.nextPtr machine.allocator heap 8) = none := Store.lookup_nextPtr
  have nonnull : Store.nextPtr machine.allocator heap 8 ≠ 0 := Store.nextPtr_ne_zero
  generalize Store.nextPtr machine.allocator heap 8 = descriptor at *
  have shows : Shows heap' item view footprint := by
    cases reached with
    | item shows => exact shows
  have outside : descriptor ∉ footprint := fun member => by
    rw [fresh descriptor member] at own
    cases own
  have framed : Shows (heap'.put descriptor (.fatDescriptor ⟨item, 0⟩)) item view footprint :=
    shows.frame fun place member => Store.lookup_put_ne fun same => outside (same ▸ member)
  have absent (place : Ptr) (member : place ∈ descriptor :: footprint) : heap.lookup place = none := by
    rcases List.mem_cons.mp member with rfl | member
    · exact new
    · rw [← elsewhere fun same => outside (same ▸ member)]
      exact fresh place member
  have kept (other : Ptr) (apart : other ∉ descriptor :: footprint) :
      (heap'.put descriptor (.fatDescriptor ⟨item, 0⟩)).lookup other = heap.lookup other := by
    rw [List.mem_cons, not_or] at apart
    rw [Store.lookup_put_ne apart.1, others other apart.2, elsewhere apart.1]
  have live (place : Ptr) (member : place ∈ descriptor :: footprint) :
      place ≠ 0 ∧ place ∈ (heap'.put descriptor (.fatDescriptor ⟨item, 0⟩)).live := by
    rcases List.mem_cons.mp member with rfl | member
    · exact ⟨nonnull, Store.mem_live.mpr (by rw [Store.lookup_put_self]; rfl)⟩
    · obtain ⟨cell, found⟩ := framed.present place member
      refine ⟨?_, Store.mem_live.mpr (by rw [found]; rfl)⟩
      rintro rfl
      exact framed.absent ((Store.lookup_put_ne nonnull.symm).trans noNull') member
  refine ⟨footprint, Store.lookup_put_self, ⟨view, framed⟩, List.nodup_cons.mpr ⟨outside, framed.nodup⟩,
    fun place member => (live place member).2, fun place member => ?_, kept, ?_, ?_⟩
  · rw [Store.mem_live, absent place member]
    exact Bool.false_ne_true
  · intro sound other cell apart found ref points member
    rcases sound other cell ((kept other apart).symm.trans found) ref points with null | alive
    · exact (live ref member).1 null
    · rw [Store.mem_live, absent ref member] at alive
      exact Bool.false_ne_true alive
  · intro later pos record same
    exact fat16Close_frees record (framed.frame same)

/-- An open in any other mode than for reading is refused, so only that one counts. -/
theorem opensOwned_of_reading
    (owned : ∀ (descriptor : Int) later, fat16Open machine fatPrivate heap name rest .read =
      .ok (descriptor, later) → 0 < descriptor →
      ∃ item footprint, Owned heap later descriptor.toNat item footprint)
    (clean : ∀ fault, fat16Open machine fatPrivate heap name rest .read = .error fault →
      fault ≠ .useAfterFree ∧ fault ≠ .invalidFree) : OpensOwned machine fatPrivate heap name rest := by
  refine ⟨fun mode descriptor later done positive => ?_, fun mode fault faults => ?_⟩
  · by_cases read : mode = .read
    · rw [read] at done
      exact owned descriptor later done positive
    · rw [fat16Open_other read] at done
      cases done
      exact absurd positive (by decide)
  · by_cases read : mode = .read
    · rw [read] at faults
      exact clean fault faults
    · rw [fat16Open_other read] at faults
      cases faults

/-- A walk that ended at an item which the descriptor owns has ended soundly. -/
theorem endsSound_of_owned (owned : OpensOwned machine fatPrivate heap name rest)
    {heap' : Kheap} {ptr : Ptr} {arrived : Arrived} {calls : Nat}
    (ends : EndsAt (describing machine heap) [] ptr heap' arrived)
    (opens : fat16Open machine fatPrivate heap name rest .read =
      .ok ((Store.nextPtr machine.allocator heap 8 : Int),
        heap'.put (Store.nextPtr machine.allocator heap 8) (.fatDescriptor ⟨ptr, 0⟩))) :
    EndsSound (.ok (arrived, calls)) := by
  obtain ⟨footprint, reached, -⟩ := ends.reached
  have positive : 0 < (Store.nextPtr machine.allocator heap 8 : Int) :=
    Int.natCast_pos.mpr (Nat.pos_of_ne_zero Store.nextPtr_ne_zero)
  obtain ⟨item, footprint', owner⟩ := owned.owned .read _ _ opens positive
  have record := owner.record
  rw [Int.toNat_natCast, Store.lookup_put_self] at record
  cases record
  obtain ⟨view, shows⟩ := owner.shows
  have outside := shows.own Store.lookup_put_self id
  exact reached.shown (shows.frame fun place member =>
    (Store.lookup_put_ne (by rintro rfl; exact outside member)).symm) ends.noNull

/-- **A path opens what its descriptor owns** exactly if its walk ends soundly. -/
theorem opens_owned_of_sound {items : List FatDirectoryItem}
    (granted : Store.Grants machine.allocator heap 8)
    (found : heap.lookup fatPrivate.rootDirectory.item = some (.directoryItems items))
    (noNull : heap.lookup 0 = none) :
    OpensOwned machine fatPrivate heap name rest ↔
      EndsSound (resolveAt machine fatPrivate (heap.calls + 1)
        (slots machine fatPrivate.rootDirectory.total items) name rest) := by
  have opens := @fat16Open_granted machine fatPrivate heap name rest granted
  have outcome := @entry_outcome machine fatPrivate (describing machine heap) items name rest
    (describing_kept found) (describing_noNull noNull)
  rw [show (describing machine heap).calls = heap.calls + 1 from rfl] at outcome
  generalize fat16GetDirectoryEntry machine fatPrivate (describing machine heap) name rest = walked at *
  generalize resolveAt machine fatPrivate (heap.calls + 1) _ name rest = ended at *
  cases outcome with
  | faults fault =>
    refine ⟨fun owned => owned.clean .read fault opens, fun sound => opensOwned_of_reading ?_ ?_⟩
    · intro descriptor later done
      rw [opens] at done
      cases done
    · intro fault' faults
      rw [opens] at faults
      cases faults
      exact sound
  | @ends ptr heap' arrived ends =>
    rw [ok_bind] at opens
    dsimp only at opens
    refine ⟨fun owned => ?_, fun sound => opensOwned_of_reading ?_ ?_⟩
    · by_cases null : arrived = .nothing
      · exact .inl null
      obtain ⟨footprint, reached, -⟩ := ends.reached
      rw [if_neg (reached.nonnull null ends.noNull)] at opens
      exact endsSound_of_owned owned ends opens
    · intro descriptor later done positive
      rw [opens] at done
      split_ifs at done with null
      · cases done
        exact absurd positive (by decide)
      cases done
      rw [Int.toNat_natCast]
      rcases sound with rfl | ⟨view, rfl⟩
      · obtain ⟨footprint, reached, -⟩ := ends.reached
        cases reached
        exact absurd rfl null
      · exact ⟨ptr, owned_of_ends ends⟩
    · intro fault' faults
      rw [opens] at faults
      split_ifs at faults

/-- **What a path opens belongs to its descriptor** exactly if the directories on the path can be
loaded. -/
theorem opens_owned_iff {items : List FatDirectoryItem} (ample : Ample machine.allocator)
    (found : heap.lookup fatPrivate.rootDirectory.item = some (.directoryItems items))
    (noNull : heap.lookup 0 = none) :
    OpensOwned machine fatPrivate heap name rest ↔
      PathLoads machine fatPrivate (heap.calls + 1)
        (slots machine fatPrivate.rootDirectory.total items) name rest := by
  rw [opens_owned_of_sound (ample _ _ (by decide)) found noNull, entry_sound_iff ample]

end Descriptor

/-! ### Two directories -/

section Small

/-- The file `F` in the directory `D`, which can be loaded. -/
theorem opens_owned_iff_file :
    ∃ heap, OpensOwned treeMachine (treePrivate rootEntries) heap pathD [pathF] := by
  obtain ⟨heap, noNull, items, found, same⟩ := tree_holds
  refine ⟨heap, (opens_owned_iff (fun _ _ _ => rfl) found noNull).mpr ?_⟩
  have first : slotNamed rootEntries pathD = some (namedEntry 68 0x10 2) := by decide
  have second : slotNamed subEntries pathF = some (namedEntry 70 0 0) := by decide
  rw [same]
  rintro entry named directory
  obtain rfl := Option.some.inj (first.symm.trans named)
  refine ⟨fun totalItems total => ⟨rfl, fun _ index below => ?_⟩, fun loaded view => ?_⟩
  · obtain rfl := Except.ok.inj ((loadTotal_eq tree_mounted tree_stored).symm.trans total)
    have one : clusterSpan (fat16GetClusterSizeInBytes (treePrivate rootEntries)) 0
        (int32 ((counted subEntries : Int) * 32)) = 1 := by decide
    obtain rfl : index = 0 := by omega
    decide
  · obtain ⟨loaded', view', loads⟩ := @loadView_of_stored treeMachine _ _ _ tree_mounted tree_stored
    cases view.symm.trans view'
    rintro entry named directory
    have slots_eq : loaded.slots treeMachine = subEntries := by
      unfold LoadedDirectory.slots
      rw [loads.slots]
      decide
    rw [slots_eq, second] at named
    cases named
    exact absurd directory (by decide)

/-- The volume with a directory whose first cluster is number 0, and a table that begins with the media
descriptor. -/
def zeroDrive : Drive where
  sector lba index :=
    if lba = 1 ∧ index = 0 then 0xF8
    else if lba = 1 ∧ index = 1 then 0xFF
    else (treeDrive [namedEntry 68 0x10 0] []).sector lba index
  belowBuffer _ := 0

def zeroPrivate : FatPrivate := treePrivate [namedEntry 68 0x10 0]

def zeroHeap : Kheap := Store.empty.put 1 (.directoryItems [namedEntry 68 0x10 0])

/-- Its "entries" are counted in the table, but cluster 0 is not readable. -/
theorem zero_load (call : Nat) :
    loadAt (smallMachine zeroDrive) zeroPrivate (namedEntry 68 0x10 0) (call + 1) = .ok none := by
  have listed : EntriesAt zeroDrive (1 * 512) [itemAt zeroDrive 512] := by decide
  have counted_one : counted [itemAt zeroDrive 512] = 1 := by decide
  have total : loadTotal (smallMachine zeroDrive) zeroPrivate (namedEntry 68 0x10 0) = .ok (1 : Nat) := by
    rw [← counted_one]
    exact fat16GetTotalItemsForDirectory_eq listed (by decide)
  by_contra loads
  have can := (@canLoad_iff (smallMachine zeroDrive) zeroPrivate (namedEntry 68 0x10 0) call rfl).mpr loads
  have readable := (can _ total).2 (by decide) 0 (by decide)
  exact absurd readable (by decide)

/-- The descriptor returned is for an item whose directory has been freed. -/
theorem opens_owned_fails :
    ∃ (descriptor item ref : Ptr) (later : Kheap),
      fat16Open (smallMachine zeroDrive) zeroPrivate zeroHeap pathD [] .read =
        .ok ((descriptor : Int), later) ∧
      later.lookup descriptor = some (.fatDescriptor ⟨item, 0⟩) ∧
      later.lookup item = some (.fatItem ⟨ref, .directory⟩) ∧ ref ≠ 0 ∧ later.lookup ref = none ∧
      ¬ OpensOwned (smallMachine zeroDrive) zeroPrivate zeroHeap pathD [] := by
  have ample : Ample (smallMachine zeroDrive).allocator := fun _ _ _ => rfl
  have granted : Store.Grants (smallMachine zeroDrive).allocator zeroHeap 8 := rfl
  have found : zeroHeap.lookup zeroPrivate.rootDirectory.item =
      some (.directoryItems [namedEntry 68 0x10 0]) := Store.lookup_put_self
  have noNull : zeroHeap.lookup 0 = none := Store.lookup_put_ne Nat.zero_ne_one
  have ended : ∃ calls, resolveAt (smallMachine zeroDrive) zeroPrivate (zeroHeap.calls + 1)
      (slots (smallMachine zeroDrive) zeroPrivate.rootDirectory.total [namedEntry 68 0x10 0]) pathD [] =
        .ok (.dangling, calls) := by
    have named : slotNamed (slots (smallMachine zeroDrive) zeroPrivate.rootDirectory.total
        [namedEntry 68 0x10 0]) pathD = some (namedEntry 68 0x10 0) := by decide
    rw [resolveAt_ample ample, named]
    dsimp only
    rw [arrivedAt_ample ample, if_pos (by decide), zero_load]
    exact ⟨_, rfl⟩
  obtain ⟨calls, ended⟩ := ended
  have opens := @fat16Open_granted (smallMachine zeroDrive) zeroPrivate zeroHeap pathD [] granted
  have outcome := @entry_outcome (smallMachine zeroDrive) zeroPrivate
    (describing (smallMachine zeroDrive) zeroHeap) _ pathD [] (describing_kept found)
    (describing_noNull noNull)
  have unsound := (@opens_owned_of_sound (smallMachine zeroDrive) zeroPrivate zeroHeap pathD [] _ granted
    found noNull).not.mpr (by
      rw [ended]
      rintro (⟨⟨⟩⟩ | ⟨_, ⟨⟩⟩))
  rw [show (describing (smallMachine zeroDrive) zeroHeap).calls = zeroHeap.calls + 1 from rfl, ended]
    at outcome
  generalize fat16GetDirectoryEntry (smallMachine zeroDrive) zeroPrivate
    (describing (smallMachine zeroDrive) zeroHeap) pathD [] = walked at opens outcome
  cases outcome with
  | @ends ptr heap' _ ends =>
    obtain ⟨noNull', kept, footprint, reached, -⟩ := ends
    have own := kept _ _ Store.lookup_put_self List.not_mem_nil
    have item_nonnull := reached.nonnull nofun noNull'
    have apart {other : Ptr} {cell : Option Cell} (found : heap'.lookup other = cell)
        (differ : cell ≠ some (.fatDescriptor ⟨0, 0⟩)) :
        other ≠ Store.nextPtr (smallMachine zeroDrive).allocator zeroHeap 8 := by
      rintro rfl
      exact differ (found.symm.trans own)
    cases reached with
    | @dangling _ ref record nonnull missing =>
      rw [ok_bind] at opens
      dsimp only at opens
      rw [if_neg item_nonnull] at opens
      refine ⟨_, ptr, ref, _, opens, Store.lookup_put_self, ?_, nonnull, ?_, unsound⟩
      · exact (Store.lookup_put_ne (apart record nofun)).trans record
      · exact (Store.lookup_put_ne (apart missing nofun)).trans missing

end Small

end KernelPlay
