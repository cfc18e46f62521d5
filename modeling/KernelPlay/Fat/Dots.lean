/-
**The entries `.` and `..` of a subdirectory.**

The driver has no rule for them: it looks them up like any other entry and loads the directory of their
first cluster. `resolveFrom` — what a path ends in when the heap does not run out, without the numbers of
the requests; `entry_same_iff` says that two calls of the driver then have the same result exactly if these
agree. `dots_law_iff` — below the first level `..` leads to the parent and `.` nowhere; in the first level
`..` has cluster 0, which stands for the root directory and which the driver does not read.
-/

import KernelPlay.Fat.Tree

namespace KernelPlay

open KernelPlay.Library

/-! ### What a path ends in -/

/-- **A heap that does not run out**: it grants the records of an item, answers all requests for one size
alike, and refuses what is larger than the heap. -/
structure Steady (allocator : Allocator) : Prop where
  alike : ∀ call call' size, allocator.grants call size = allocator.grants call' size
  item : ∀ call, allocator.grants call 8 = true
  directory : ∀ call, allocator.grants call 16 = true
  entry : ∀ call, allocator.grants call 32 = true
  limited : ∀ call size, kernelHeapSizeInBytes < size → ¬ allocator.grants call size = true

section Outcomes

variable (machine : Machine) (fatPrivate : FatPrivate)

/-- A walk on from what it has arrived at. -/
def follow : Arrived → List Text → Except Fault Arrived
  | arrived, [] => .ok arrived
  | .nothing, _ :: _ => .error .nullDeref
  | .dangling, _ :: _ => .error .useAfterFree
  | .bare .directory, _ :: _ => .error .nullDeref
  | .bare .file, _ :: _ => .ok .nothing
  | .item (.file _), _ :: _ => .ok .nothing
  | .item (.directory loaded), name :: rest =>
    match slotNamed (loaded.slots machine) name with
    | none => follow .nothing rest
    | some entry => arrivedAt machine fatPrivate entry 0 >>= fun found => follow found rest

/-- **What the path ends in**, from the directory with these slots. -/
def resolveFrom (slots : List FatDirectoryItem) (name : Text) (rest : List Text) : Except Fault Arrived :=
  match slotNamed slots name with
  | none => .ok .nothing
  | some entry => arrivedAt machine fatPrivate entry 0 >>= fun found => follow machine fatPrivate found rest

end Outcomes

section Steady

variable {machine : Machine} {fatPrivate : FatPrivate} {entry : FatDirectoryItem} {call call' : Nat}
  {slots : List FatDirectoryItem} {name : Text} {rest : List Text}

theorem loadAt_alike (steady : Steady machine.allocator) :
    loadAt machine fatPrivate entry call = loadAt machine fatPrivate entry call' := by
  unfold loadAt
  simp only [steady.alike call call', steady.alike (call + 1) (call' + 1)]

theorem arrivedAt_alike (steady : Steady machine.allocator) :
    arrivedAt machine fatPrivate entry call = arrivedAt machine fatPrivate entry call' := by
  unfold arrivedAt builtAt
  simp only [steady.alike call call', steady.alike (call + 1) (call' + 1),
    @loadAt_alike machine fatPrivate entry (call + 1) (call' + 1) steady]

/-- Without the numbers of the requests, a walk is `follow`. -/
theorem walkAt_follow (steady : Steady machine.allocator) (arrived : Arrived) :
    (walkAt machine fatPrivate call arrived rest).map Prod.fst = follow machine fatPrivate arrived rest := by
  induction rest generalizing call arrived with
  | nil => cases arrived <;> rfl
  | cons name rest ih =>
    rcases arrived with _ | _ | type | view
    · rfl
    · rfl
    · cases type with
      | directory => rfl
      | file => rfl
    · cases view with
      | file entry => rfl
      | directory loaded =>
        rw [walkAt, follow]
        cases slotNamed (loaded.slots machine) name with
        | none => exact ih _
        | some entry =>
          dsimp only
          rw [@arrivedAt_alike machine fatPrivate entry call 0 steady]
          cases arrivedAt machine fatPrivate entry 0 with
          | error fault => rfl
          | ok found => exact ih found

theorem resolveAt_resolveFrom (steady : Steady machine.allocator) :
    (resolveAt machine fatPrivate call slots name rest).map Prod.fst =
      resolveFrom machine fatPrivate slots name rest := by
  unfold resolveFrom
  cases named : slotNamed slots name with
  | none =>
    rw [resolveAt_missing named]
    rfl
  | some entry =>
    dsimp only
    rw [resolveAt_granted named (steady.item call), @arrivedAt_alike machine fatPrivate entry call 0 steady]
    cases arrivedAt machine fatPrivate entry 0 with
    | error fault => rfl
    | ok found => exact walkAt_follow steady found

end Steady

/-! ### The same result -/

/-- **Two calls with the same result**: the same fault, or items that show the same. -/
inductive SameResult : Except Fault (Ptr × Kheap) → Except Fault (Ptr × Kheap) → Prop
  | faults (fault : Fault) : SameResult (.error fault) (.error fault)
  | items {ptr ptr' : Ptr} {heap heap' : Kheap} {arrived : Arrived} {footprint footprint' : List Ptr} :
      Reached heap ptr arrived footprint → Reached heap' ptr' arrived footprint' →
      SameResult (.ok (ptr, heap)) (.ok (ptr', heap'))

section Same

variable {machine : Machine} {fatPrivate : FatPrivate} {heap : Kheap} {ptr : Ptr}
  {arrived arrived' : Arrived} {footprint footprint' : List Ptr}

theorem Shows.owned {view : ItemView} (shows : Shows heap ptr view footprint) : heap.lookup ptr ≠ none := by
  cases shows with
  | file record => simp [record]
  | directory record => simp [record]

/-- What an item shows is not what a dangling or a bare one has. -/
theorem Shows.whole {view : ItemView} {ref : Ptr} {type : FatItemType} (noNull : heap.lookup 0 = none)
    (shows : Shows heap ptr view footprint) (record : heap.lookup ptr = some (.fatItem ⟨ref, type⟩)) :
    ref ≠ 0 ∧ heap.lookup ref ≠ none := by
  cases shows with
  | file record' entry =>
    cases record.symm.trans record'
    refine ⟨?_, by rw [entry]; exact Option.some_ne_none _⟩
    rintro rfl
    cases noNull.symm.trans entry
  | directory record' nonnull _ shown =>
    cases record.symm.trans record'
    exact ⟨nonnull, by rw [shown]; exact Option.some_ne_none _⟩

/-- What is reached at a pointer is one thing. -/
theorem Reached.unique (noNull : heap.lookup 0 = none) (reached : Reached heap ptr arrived footprint)
    (reached' : Reached heap ptr arrived' footprint') : arrived = arrived' := by
  cases reached with
  | nothing =>
    cases reached' with
    | nothing => rfl
    | dangling record => cases noNull.symm.trans record
    | bare record => cases noNull.symm.trans record
    | item shows => exact absurd noNull shows.owned
  | dangling record nonnull missing =>
    cases reached' with
    | nothing => cases noNull.symm.trans record
    | dangling => rfl
    | bare record' =>
      cases record.symm.trans record'
      exact absurd rfl nonnull
    | item shows => exact absurd missing (shows.whole noNull record).2
  | bare record =>
    cases reached' with
    | nothing => cases noNull.symm.trans record
    | dangling record' nonnull =>
      cases record.symm.trans record'
      exact absurd rfl nonnull
    | bare record' =>
      cases record.symm.trans record'
      rfl
    | item shows => exact absurd rfl (shows.whole noNull record).1
  | item shows =>
    cases reached' with
    | nothing => exact absurd noNull shows.owned
    | dangling record _ missing => exact absurd missing (shows.whole noNull record).2
    | bare record => exact absurd rfl (shows.whole noNull record).1
    | item shows' => rw [shows.unique shows']

/-- Two walks have the same result exactly if they end in the same. -/
theorem sameResult_iff {one other : Except Fault (Ptr × Kheap)} {out out' : Except Fault (Arrived × Nat)}
    {before before' : Kheap} {old old' : List Ptr} (walk : WalkOutcome before old one out)
    (walk' : WalkOutcome before' old' other out') :
    SameResult one other ↔ out.map Prod.fst = out'.map Prod.fst := by
  cases walk with
  | faults fault =>
    cases walk' with
    | faults fault' =>
      constructor
      · intro same
        cases same
        rfl
      · intro same
        cases same
        exact .faults fault
    | ends => exact iff_of_false nofun nofun
  | ends ends =>
    cases walk' with
    | faults fault' => exact iff_of_false nofun nofun
    | ends ends' =>
      obtain ⟨noNull, -, footprint, reached, -⟩ := ends
      obtain ⟨noNull', -, footprint', reached', -⟩ := ends'
      constructor
      · intro same
        cases same with
        | items first second =>
          rw [reached.unique noNull first, reached'.unique noNull' second]
          rfl
      · intro same
        cases same
        exact .items reached reached'

/-- **Two calls on one heap** have the same result exactly if the paths end in the same. -/
theorem entry_same_iff {items : List FatDirectoryItem} {name name' : Text} {rest rest' : List Text}
    (steady : Steady machine.allocator)
    (found : heap.lookup fatPrivate.rootDirectory.item = some (.directoryItems items))
    (noNull : heap.lookup 0 = none) :
    SameResult (fat16GetDirectoryEntry machine fatPrivate heap name rest)
        (fat16GetDirectoryEntry machine fatPrivate heap name' rest') ↔
      resolveFrom machine fatPrivate (slots machine fatPrivate.rootDirectory.total items) name rest =
        resolveFrom machine fatPrivate (slots machine fatPrivate.rootDirectory.total items) name' rest' := by
  rw [sameResult_iff (entry_outcome found noNull) (entry_outcome found noNull), resolveAt_resolveFrom steady,
    resolveAt_resolveFrom steady]

end Same

/-! ### The entries -/

/-- `"."` and `".."`. -/
def dotName : Text := ⟨[46], by decide⟩

def dotDotName : Text := ⟨[46, 46], by decide⟩

/-- The first slot with the name is a subdirectory with this first cluster. -/
def LeadsTo (slots : List FatDirectoryItem) (name : Text) (cluster : Int) : Prop :=
  ∃ entry, slotNamed slots name = some entry ∧ entry.IsDirectory ∧ fat16GetFirstCluster entry = cluster

/-- **The entries `.` and `..`** of the directory with first cluster `own` in the one with first cluster
`parent`. -/
structure HasDotEntries (slots : List FatDirectoryItem) (own parent : Int) : Prop where
  dot : LeadsTo slots dotName own
  dotDot : LeadsTo slots dotDotName parent

/-- The directory of the entry can be loaded. -/
def CanBeLoaded (machine : Machine) (fatPrivate : FatPrivate) (entry : FatDirectoryItem) : Prop :=
  ∃ loaded, loadAt machine fatPrivate entry 0 = .ok (some loaded)

/-- What is loaded for the entry has its entries `.` and `..`. -/
def DotsLoaded (machine : Machine) (fatPrivate : FatPrivate) (entry : FatDirectoryItem) (parent : Int) :
    Prop :=
  ∀ loaded, loadAt machine fatPrivate entry 0 = .ok (some loaded) →
    HasDotEntries (loaded.slots machine) (fat16GetFirstCluster entry) parent

/-- **The names of existing subdirectories**, each in the one before it, and the entry of the last. The
first is in the directory with these slots and the first cluster `parent`: 0 for the root directory. -/
inductive Subdirectories (machine : Machine) (fatPrivate : FatPrivate) :
    Int → List FatDirectoryItem → Text → List Text → FatDirectoryItem → Prop
  | last {parent : Int} {slots : List FatDirectoryItem} {name : Text} {entry : FatDirectoryItem} :
      slotNamed slots name = some entry → entry.IsDirectory → DotsLoaded machine fatPrivate entry parent →
      Subdirectories machine fatPrivate parent slots name [] entry
  | next {parent : Int} {slots : List FatDirectoryItem} {name further : Text} {rest : List Text}
      {entry target : FatDirectoryItem} {loaded : LoadedDirectory} :
      slotNamed slots name = some entry → entry.IsDirectory → DotsLoaded machine fatPrivate entry parent →
      loadAt machine fatPrivate entry 0 = .ok (some loaded) →
      Subdirectories machine fatPrivate (fat16GetFirstCluster entry) (loaded.slots machine) further rest
        target →
      Subdirectories machine fatPrivate parent slots name (further :: rest) target

section Entries

variable {machine : Machine} {fatPrivate : FatPrivate} {entry other target : FatDirectoryItem} {call : Nat}
  {slots : List FatDirectoryItem} {name : Text} {rest : List Text} {loaded : LoadedDirectory} {parent : Int}

/-- A load depends on nothing of the entry but its first cluster. -/
theorem loadAt_of_cluster (same : fat16GetFirstCluster entry = fat16GetFirstCluster other) :
    loadAt machine fatPrivate entry call = loadAt machine fatPrivate other call := by
  unfold loadAt loadTotal loadRead loadedOf
  rw [same]

theorem arrivedAt_of_cluster (steady : Steady machine.allocator) (directory : entry.IsDirectory)
    (directory' : other.IsDirectory) (same : fat16GetFirstCluster entry = fat16GetFirstCluster other) :
    arrivedAt machine fatPrivate entry 0 = arrivedAt machine fatPrivate other 0 := by
  rw [arrivedAt_directory (steady.item 0) directory (steady.directory 1),
    arrivedAt_directory (steady.item 0) directory' (steady.directory 1), loadAt_of_cluster same]

theorem arrivedAt_load (steady : Steady machine.allocator) (directory : entry.IsDirectory)
    (load : loadAt machine fatPrivate entry 0 = .ok (some loaded)) :
    arrivedAt machine fatPrivate entry 0 = .ok (.item (.directory loaded)) := by
  rw [arrivedAt_directory (steady.item 0) directory (steady.directory 1),
    @loadAt_alike machine fatPrivate entry 1 0 steady, load]
  rfl

theorem arrivedAt_fails (steady : Steady machine.allocator) (directory : entry.IsDirectory)
    (load : loadAt machine fatPrivate entry 0 = .ok none) :
    arrivedAt machine fatPrivate entry 0 = .ok .dangling := by
  rw [arrivedAt_directory (steady.item 0) directory (steady.directory 1),
    @loadAt_alike machine fatPrivate entry 1 0 steady, load]
  rfl

theorem arrivedAt_faults {fault : Fault} (steady : Steady machine.allocator) (directory : entry.IsDirectory)
    (load : loadAt machine fatPrivate entry 0 = .error fault) :
    arrivedAt machine fatPrivate entry 0 = .error fault := by
  rw [arrivedAt_directory (steady.item 0) directory (steady.directory 1),
    @loadAt_alike machine fatPrivate entry 1 0 steady, load]
  rfl

/-- A name that leads to a cluster leads where any entry of that cluster does. -/
theorem follow_leadsTo (steady : Steady machine.allocator) {cluster : Int}
    (leads : LeadsTo (loaded.slots machine) name cluster) (directory : other.IsDirectory)
    (same : fat16GetFirstCluster other = cluster) :
    follow machine fatPrivate (.item (.directory loaded)) (name :: rest) =
      arrivedAt machine fatPrivate other 0 >>= fun found => follow machine fatPrivate found rest := by
  obtain ⟨entry, named, directory', rfl⟩ := leads
  rw [follow, named]
  dsimp only
  rw [arrivedAt_of_cluster steady directory' directory same.symm]

theorem Subdirectories.isDirectory (path : Subdirectories machine fatPrivate parent slots name rest target) :
    target.IsDirectory := by
  induction path with
  | last _ directory => exact directory
  | next _ _ _ _ _ ih => exact ih

theorem Subdirectories.named (path : Subdirectories machine fatPrivate parent slots name rest target) :
    ∃ entry, slotNamed slots name = some entry := by
  cases path with
  | last named => exact ⟨_, named⟩
  | next named => exact ⟨_, named⟩

/-- **A path goes on** from the last of its subdirectories. By induction on the path. -/
theorem Subdirectories.resolves (steady : Steady machine.allocator)
    (path : Subdirectories machine fatPrivate parent slots name rest target) (further : List Text) :
    resolveFrom machine fatPrivate slots name (rest ++ further) =
      arrivedAt machine fatPrivate target 0 >>= fun found => follow machine fatPrivate found further := by
  induction path with
  | last named => rw [resolveFrom, named, List.nil_append]
  | @next parent slots name next rest entry target loaded named directory _ load path ih =>
    obtain ⟨behind, named'⟩ := path.named
    rw [← ih, resolveFrom, named]
    dsimp only
    rw [arrivedAt_load steady directory load]
    show follow machine fatPrivate (.item (.directory loaded)) (next :: (rest ++ further)) = _
    rw [follow, resolveFrom, named']

/-- Where `..` leads from the last subdirectory: to the directory the path starts from, or to the last
but one. -/
theorem Subdirectories.up (path : Subdirectories machine fatPrivate parent slots name rest target) :
    (rest = [] ∧ DotsLoaded machine fatPrivate target parent) ∨
      ∃ up shown, rest ≠ [] ∧ Subdirectories machine fatPrivate parent slots name rest.dropLast up ∧
        loadAt machine fatPrivate up 0 = .ok (some shown) ∧
        DotsLoaded machine fatPrivate target (fat16GetFirstCluster up) := by
  induction path with
  | last _ _ dots => exact .inl ⟨rfl, dots⟩
  | @next parent slots name next rest entry target loaded named directory dots load path ih =>
    rcases ih with ⟨rfl, dots'⟩ | ⟨up, shown, more, path', load', dots'⟩
    · exact .inr ⟨entry, loaded, List.cons_ne_nil _ _, .last named directory dots, load, dots'⟩
    · refine .inr ⟨up, shown, List.cons_ne_nil _ _, ?_, load', dots'⟩
      rw [List.dropLast_cons_of_ne_nil more]
      exact .next named directory dots load path'

end Entries

/-! ### The law -/

/-- **`..` leads to the parent and `.` nowhere**, behind the path of a subdirectory and whatever further
names follow. Without names the root directory is no path of the driver's. -/
structure DotsLaw (machine : Machine) (fatPrivate : FatPrivate) (heap : Kheap) (name : Text)
    (rest : List Text) : Prop where
  dotDot : ∀ further first others, (name :: rest).dropLast ++ further = first :: others →
    SameResult (fat16GetDirectoryEntry machine fatPrivate heap name (rest ++ dotDotName :: further))
      (fat16GetDirectoryEntry machine fatPrivate heap first others)
  dot : ∀ further, SameResult
    (fat16GetDirectoryEntry machine fatPrivate heap name (rest ++ dotName :: further))
    (fat16GetDirectoryEntry machine fatPrivate heap name (rest ++ further))

section Law

variable {machine : Machine} {fatPrivate : FatPrivate} {heap : Kheap} {items : List FatDirectoryItem}
  {entry target : FatDirectoryItem} {slots : List FatDirectoryItem} {name : Text} {rest : List Text}
  {loaded : LoadedDirectory} {parent : Int}

/-- No name of 13 characters is in a directory. -/
def longName : Text := ⟨List.replicate 13 65, by decide⟩

theorem slotNamed_long (slots : List FatDirectoryItem) : slotNamed slots longName = none := by
  refine List.find?_eq_none.mpr fun entry _ named => ?_
  have same : entry.Named longName.chars := by simpa using named
  have length := congrArg List.length same
  have short := fat16GetFullRelativeFilename_length entry
  simp only [List.length_map, longName, List.length_replicate] at length
  omega

/-- A count goes up by at most one in each turn. -/
theorem fat16CountItems_range {drive : Drive} {turns : Nat} {ds : DiskStreamer} {count total : Int}
    (nonneg : 0 ≤ count) (below : count + turns ≤ 2147483648)
    (counts : fat16CountItems drive turns ds count = .ok total) : 0 ≤ total ∧ total < count + turns := by
  induction turns generalizing ds count with
  | zero => cases counts
  | succ turns ih =>
    rw [fat16CountItems, diskStreamerReadBytes_res, if_neg (not_not.mpr rfl)] at counts
    by_cases ended : (diskStreamerReadBytes drive ds 32).bytes.getD 0 0 = 0x00
    · rw [if_pos ended, Except.ok.injEq] at counts
      omega
    rw [if_neg ended] at counts
    by_cases deleted : (diskStreamerReadBytes drive ds 32).bytes.getD 0 0 = 0xE5
    · rw [if_pos deleted] at counts
      have range := ih nonneg (by omega) counts
      omega
    · rw [if_neg deleted] at counts
      by_cases last : turns = 0
      · rw [last] at counts
        cases counts
      rw [int32_of_range (by omega) (by omega)] at counts
      have range := ih (by omega) (by omega) counts
      omega

/-- Cluster 0 is not read: a load of it that succeeds is of no entry. -/
theorem slots_of_zero (steady : Steady machine.allocator) (zero : fat16GetFirstCluster entry = 0)
    (load : loadAt machine fatPrivate entry 0 = .ok (some loaded)) : loaded.slots machine = [] := by
  unfold loadAt at load
  rw [if_pos (steady.directory 0)] at load
  obtain ⟨totalItems, total, load⟩ := bind_ok.mp load
  have range : 0 ≤ totalItems ∧ totalItems < 134217728 := by
    have range := fat16CountItems_range le_rfl (by decide) total
    rwa [zero_add] at range
  by_cases room : machine.allocator.grants (0 + 1) (uint32 (int32 (totalItems * 32))) = true
  swap
  · rw [if_neg room] at load
    cases load
  rw [if_pos room] at load
  obtain ⟨read, result, load⟩ := bind_ok.mp load
  by_cases failed : read.res ≠ ok
  · rw [if_pos failed] at load
    cases load
  rw [if_neg failed] at load
  cases load
  have clusters : fatPrivate.header.sectorsPerCluster ≠ 0 := by
    intro none
    rw [loadRead, fat16ReadInternalV2_divide none] at result
    cases result
  obtain ⟨read', result', succeeds⟩ := @loadRead_cases machine fatPrivate entry totalItems clusters
  cases result.symm.trans result'
  have readable := succeeds.mp (not_not.mp failed)
  -- A request of half the address space or more is refused, so the product has not wrapped.
  have size : int32 (totalItems * 32) = totalItems * 32 := by
    by_contra wrapped
    refine steady.limited (0 + 1) _ ?_ room
    have large : 2147483648 ≤ totalItems * 32 := by
      by_contra small
      exact wrapped (int32_of_range (by omega) (by omega))
    have value : uint32 (int32 (totalItems * 32)) = (totalItems * 32).toNat := by
      rw [uint32_int32, uint32_of_range (by omega) (by omega)]
    rw [value]
    unfold kernelHeapSizeInBytes
    omega
  have empty : totalItems = 0 := by
    by_contra some
    have first := readable 0 ?_
    · rw [fatRoute_zero, zero] at first
      cases first
    · rw [size, clusterSpan, if_neg (by omega)]
      omega
  rw [empty]
  rfl

/-- A step to the parent and on, from a directory that has been loaded. -/
theorem dotDot_eq (steady : Steady machine.allocator)
    (path : Subdirectories machine fatPrivate parent slots name rest target)
    (load : loadAt machine fatPrivate target 0 = .ok (some loaded)) {next : Text} {cluster : Int}
    {other : FatDirectoryItem} (leads : LeadsTo (loaded.slots machine) next cluster)
    (directory : other.IsDirectory) (same : fat16GetFirstCluster other = cluster) (further : List Text) :
    resolveFrom machine fatPrivate slots name (rest ++ next :: further) =
      arrivedAt machine fatPrivate other 0 >>= fun found => follow machine fatPrivate found further := by
  rw [path.resolves steady, arrivedAt_load steady path.isDirectory load]
  exact follow_leadsTo steady leads directory same

/-- The law read on what the paths end in. -/
theorem dotsLaw_iff (steady : Steady machine.allocator)
    (found : heap.lookup fatPrivate.rootDirectory.item = some (.directoryItems items))
    (noNull : heap.lookup 0 = none)
    (same : KernelPlay.slots machine fatPrivate.rootDirectory.total items = slots) :
    DotsLaw machine fatPrivate heap name rest ↔
      (∀ further first others, (name :: rest).dropLast ++ further = first :: others →
        resolveFrom machine fatPrivate slots name (rest ++ dotDotName :: further) =
          resolveFrom machine fatPrivate slots first others) ∧
      ∀ further, resolveFrom machine fatPrivate slots name (rest ++ dotName :: further) =
        resolveFrom machine fatPrivate slots name (rest ++ further) := by
  subst same
  constructor
  · rintro ⟨dotDot, dot⟩
    exact ⟨fun further first others split => (entry_same_iff steady found noNull).mp (dotDot _ _ _ split),
      fun further => (entry_same_iff steady found noNull).mp (dot further)⟩
  · rintro ⟨dotDot, dot⟩
    exact ⟨fun further first others split => (entry_same_iff steady found noNull).mpr (dotDot _ _ _ split),
      fun further => (entry_same_iff steady found noNull).mpr (dot further)⟩

/-- From a directory that can be loaded `.` leads nowhere. -/
theorem Subdirectories.dot_stays (steady : Steady machine.allocator)
    (path : Subdirectories machine fatPrivate parent slots name rest target)
    (load : loadAt machine fatPrivate target 0 = .ok (some loaded)) (further : List Text) :
    resolveFrom machine fatPrivate slots name (rest ++ dotName :: further) =
      resolveFrom machine fatPrivate slots name (rest ++ further) := by
  have dots : ∃ parent, DotsLoaded machine fatPrivate target parent := by
    rcases path.up with ⟨-, dots⟩ | ⟨up, -, -, -, -, dots⟩
    · exact ⟨_, dots⟩
    · exact ⟨_, dots⟩
  obtain ⟨parent', dots⟩ := dots
  rw [dotDot_eq steady path load (dots loaded load).dot path.isDirectory rfl, path.resolves steady]

/-- Below the first level `..` leads to the last directory but one. -/
theorem Subdirectories.dotDot_rises (steady : Steady machine.allocator)
    (path : Subdirectories machine fatPrivate parent slots name rest target)
    (load : loadAt machine fatPrivate target 0 = .ok (some loaded)) (more : rest ≠ []) (further : List Text) :
    resolveFrom machine fatPrivate slots name (rest ++ dotDotName :: further) =
      resolveFrom machine fatPrivate slots name (rest.dropLast ++ further) := by
  rcases path.up with ⟨none, -⟩ | ⟨up, shown, -, path', load', dots⟩
  · exact absurd none more
  · rw [dotDot_eq steady path load (dots loaded load).dotDot path'.isDirectory rfl, path'.resolves steady]

/-- From a directory that cannot be loaded every step is a fault. -/
theorem Subdirectories.faults (steady : Steady machine.allocator)
    (path : Subdirectories machine fatPrivate parent slots name rest target)
    (unloaded : ¬ CanBeLoaded machine fatPrivate target) (next : Text) (further : List Text) :
    ∃ fault, resolveFrom machine fatPrivate slots name (rest ++ next :: further) = .error fault := by
  rw [path.resolves steady]
  cases load : loadAt machine fatPrivate target 0 with
  | error fault =>
    rw [arrivedAt_faults steady path.isDirectory load]
    exact ⟨fault, rfl⟩
  | ok shown =>
    cases shown with
    | none =>
      rw [arrivedAt_fails steady path.isDirectory load]
      exact ⟨.useAfterFree, rfl⟩
    | some loaded => exact absurd ⟨loaded, load⟩ unloaded

/-- From a directory of the first level, no name is found behind `..`. -/
theorem Subdirectories.dotDot_stops (steady : Steady machine.allocator)
    (path : Subdirectories machine fatPrivate 0 slots name [] target)
    (load : loadAt machine fatPrivate target 0 = .ok (some loaded)) (next : Text) (shown : ItemView) :
    resolveFrom machine fatPrivate slots name [dotDotName, next] ≠ .ok (.item shown) := by
  intro resolved
  rcases path.up with ⟨-, dots⟩ | ⟨_, _, more, -⟩
  swap
  · exact more rfl
  obtain ⟨entry, named, directory, zero⟩ := (dots loaded load).dotDot
  rw [show [dotDotName, next] = [] ++ dotDotName :: [next] from rfl,
    dotDot_eq steady path load ⟨entry, named, directory, zero⟩ directory zero] at resolved
  cases above : loadAt machine fatPrivate entry 0 with
  | error fault =>
    rw [arrivedAt_faults steady directory above] at resolved
    cases resolved
  | ok root =>
    cases root with
    | none =>
      rw [arrivedAt_fails steady directory above] at resolved
      cases resolved
    | some root =>
      rw [arrivedAt_load steady directory above, ok_bind, follow, slots_of_zero steady zero above] at resolved
      cases resolved

/-- **The entries `.` and `..` lead where they should** from a path of existing subdirectories, exactly if
it has more than one name and its directory can be loaded. -/
theorem dots_law_iff (steady : Steady machine.allocator)
    (found : heap.lookup fatPrivate.rootDirectory.item = some (.directoryItems items))
    (noNull : heap.lookup 0 = none)
    (path : Subdirectories machine fatPrivate 0 (KernelPlay.slots machine fatPrivate.rootDirectory.total items)
      name rest target) :
    DotsLaw machine fatPrivate heap name rest ↔ rest ≠ [] ∧ CanBeLoaded machine fatPrivate target := by
  rw [dotsLaw_iff steady found noNull rfl]
  constructor
  · rintro ⟨dotDot, -⟩
    by_cases more : rest = []
    · obtain rfl := more
      exfalso
      by_cases loads : CanBeLoaded machine fatPrivate target
      · obtain ⟨loaded, load⟩ := loads
        have own := path.resolves steady []
        rw [arrivedAt_load steady path.isDirectory load] at own
        exact path.dotDot_stops steady load name _ ((dotDot [name] name [] rfl).trans own)
      · obtain ⟨fault, faults⟩ := path.faults steady loads dotDotName [longName]
        have law := dotDot [longName] longName [] rfl
        rw [faults, resolveFrom, slotNamed_long] at law
        cases law
    · refine ⟨more, ?_⟩
      by_contra unloaded
      obtain ⟨fault, faults⟩ := path.faults steady unloaded dotDotName []
      rcases path.up with ⟨none, -⟩ | ⟨up, shown, -, path', load', -⟩
      · exact more none
      have law := dotDot [] name rest.dropLast (by rw [List.append_nil, List.dropLast_cons_of_ne_nil more])
      have above := path'.resolves steady []
      rw [List.append_nil] at above
      rw [faults, above, arrivedAt_load steady path'.isDirectory load'] at law
      cases law
  · rintro ⟨more, loaded, load⟩
    refine ⟨fun further first others split => ?_, path.dot_stays steady load⟩
    rw [List.dropLast_cons_of_ne_nil more, List.cons_append, List.cons.injEq] at split
    rw [path.dotDot_rises steady load more, split.1, split.2]

end Law

/-! ### Trees on the drive -/

/-- Every subdirectory of the tree, whose own directory has the first cluster `own`, has its entries `.` and
`..`. -/
inductive DotsRight : Int → DirTree → Prop
  | directory {own : Int} {entries : List FatDirectoryItem} {child : FatDirectoryItem → DirTree} :
      (∀ entry ∈ entries, entry.IsDirectory → ¬ Dotted (fat16GetFullRelativeFilename entry) →
        HasDotEntries (child entry).entries (fat16GetFirstCluster entry) own) →
      (∀ entry ∈ entries, entry.IsDirectory → ¬ Dotted (fat16GetFullRelativeFilename entry) →
        DotsRight (fat16GetFirstCluster entry) (child entry)) →
      DotsRight own (.directory entries child)

/-- The heap grants every buffer it has room for. -/
def Plenty (allocator : Allocator) : Prop :=
  ∀ call size, size ≠ 0 → size ≤ kernelHeapSizeInBytes → allocator.grants call size = true

section Laid

variable {machine : Machine} {fatPrivate : FatPrivate} {tree sub : DirTree}
  {entry target : FatDirectoryItem} {name : Text} {rest : List Text}

/-- A subdirectory of the tree is loaded with all its entries. -/
theorem loadAt_laid {entries : List FatDirectoryItem} {child : FatDirectoryItem → DirTree}
    (plenty : Plenty machine.allocator) (mounted : Mounted machine.drive fatPrivate)
    (laid : LaidOut machine.drive fatPrivate.header (.directory entries child)) (member : entry ∈ entries)
    (directory : entry.IsDirectory) (plain : ¬ Dotted (fat16GetFullRelativeFilename entry)) :
    ∃ loaded, loadAt machine fatPrivate entry 0 = .ok (some loaded) ∧
      loaded.slots machine = (child entry).entries := by
  obtain ⟨-, stored, dots, below⟩ := laid
  have stored := stored entry member directory plain
  have once := (below entry member directory plain).once
  obtain ⟨dot, dot_member, -⟩ := (dots entry member directory plain).dot
  have filled := List.length_pos_of_mem dot_member
  have size := stored.small
  have room : machine.allocator.grants (0 + 1) (32 * counted (child entry).entries) = true := by
    refine plenty _ _ ?_ (by unfold kernelHeapSizeInBytes; omega)
    rw [once.counted]
    omega
  obtain ⟨loaded, load, loads⟩ := loadAt_stored (plenty 0 16 (by decide) (by decide)) room mounted stored
  refine ⟨loaded, load, ?_⟩
  rw [LoadedDirectory.slots, loads.slots, once.counted, List.take_length]

/-- **Paths of a tree on the drive** are paths of existing subdirectories, which can be loaded. By induction
on how they lead there. -/
theorem subdirectories_of_leads (plenty : Plenty machine.allocator)
    (mounted : Mounted machine.drive fatPrivate) (leads : Leads tree name rest target sub) :
    ∀ {own : Int}, LaidOut machine.drive fatPrivate.header tree → DotsRight own tree → target.IsDirectory →
      Subdirectories machine fatPrivate own tree.entries name rest target ∧
        CanBeLoaded machine fatPrivate target := by
  induction leads with
  | @last entries child name entry member named plain =>
    intro own laid dots directory
    have undotted : ¬ Dotted (fat16GetFullRelativeFilename entry) := fun dotted =>
      plain (SameName.dotted named dotted)
    obtain ⟨loaded, load, same⟩ := loadAt_laid plenty mounted laid member directory undotted
    cases dots with
    | directory right _ =>
      refine ⟨.last (laid.once.slotNamed member named) directory fun loaded' load' => ?_, loaded, load⟩
      cases load.symm.trans load'
      exact same ▸ right entry member directory undotted
  | @next entries child name further rest entry target sub member named plain directory leads ih =>
    intro own laid dots directory'
    have undotted : ¬ Dotted (fat16GetFullRelativeFilename entry) := fun dotted =>
      plain (SameName.dotted named dotted)
    obtain ⟨loaded, load, same⟩ := loadAt_laid plenty mounted laid member directory undotted
    have named' := laid.once.slotNamed member named
    cases dots with
    | directory right deeper =>
      have below : LaidOut machine.drive fatPrivate.header (child entry) := by
        cases laid with
        | directory _ _ _ below => exact below entry member directory undotted
      obtain ⟨path, loads⟩ := ih below (deeper entry member directory undotted) directory'
      refine ⟨.next named' directory (fun loaded' load' => ?_) load (same ▸ path), loads⟩
      cases load.symm.trans load'
      exact same ▸ right entry member directory undotted

end Laid

/-! ### Two levels -/

section Small

/-- The heap of the small machine, as large as the kernel's. -/
def steadyAllocator : Allocator :=
  { Allocator.bump with grants := fun _ size => decide (size ≤ kernelHeapSizeInBytes) }

theorem steady_allocator : Steady steadyAllocator where
  alike _ _ _ := rfl
  item _ := decide_eq_true (show 8 ≤ kernelHeapSizeInBytes by decide)
  directory _ := decide_eq_true (show 16 ≤ kernelHeapSizeInBytes by decide)
  entry _ := decide_eq_true (show 32 ≤ kernelHeapSizeInBytes by decide)
  limited _ size large granted := by
    have small : size ≤ kernelHeapSizeInBytes := of_decide_eq_true granted
    omega

theorem plenty_allocator : Plenty steadyAllocator := fun _ _ _ small => decide_eq_true small

/-- The entry `..` of a directory in the one with this first cluster. -/
def upEntry (cluster : UInt8) : FatDirectoryItem where
  bytes index :=
    if index.val < 2 then 46 else if index.val = 11 then 0x10 else if index.val = 26 then cluster else 0

/-- The directory `D` with the directory `E`, and that one with the file `F`. -/
def upperEntries : List FatDirectoryItem := [namedEntry 46 0x10 2, upEntry 0, namedEntry 69 0x10 3]

def lowerEntries : List FatDirectoryItem := [namedEntry 46 0x10 3, upEntry 2, namedEntry 70 0 0]

def nestedDrive : Drive where
  sector lba index :=
    if lba = 4 then entryBytes lowerEntries index else (treeDrive rootEntries upperEntries).sector lba index
  belowBuffer _ := 0

def nestedMachine : Machine := { smallMachine nestedDrive with allocator := steadyAllocator }

def lowerTree : DirTree := .directory lowerEntries fun _ => .file

def upperTree : DirTree := .directory upperEntries fun _ => lowerTree

def nestedTree : DirTree := .directory rootEntries fun _ => upperTree

def pathE : Text := ⟨[69], by decide⟩

def nestedHeap : Kheap := Store.empty.put 1 (.directoryItems rootEntries)

theorem nested_mounted : Mounted nestedMachine.drive (treePrivate rootEntries) where
  header := by decide
  sectorPos := by decide
  endingSectorPos := by decide

theorem upper_stored : DirectoryAt nestedMachine.drive smallHeader (namedEntry 68 0x10 2) upperEntries where
  directory := by decide
  data := ⟨by decide, by decide⟩
  below := by
    unfold FatHeader.Below
    decide
  fits := by decide
  listed := by decide

theorem lower_stored : DirectoryAt nestedMachine.drive smallHeader (namedEntry 69 0x10 3) lowerEntries where
  directory := by decide
  data := ⟨by decide, by decide⟩
  below := by
    unfold FatHeader.Below
    decide
  fits := by decide
  listed := by decide

/-- Besides `.` and `..`, the subdirectories are `D` in the root, `E` in `D`, and none in `E`. -/
theorem nested_only :
    (∀ entry ∈ rootEntries, entry = namedEntry 68 0x10 2) ∧
      (∀ entry ∈ upperEntries, entry.IsDirectory → ¬ Dotted (fat16GetFullRelativeFilename entry) →
        entry = namedEntry 69 0x10 3) ∧
      ∀ entry ∈ lowerEntries, entry.IsDirectory → Dotted (fat16GetFullRelativeFilename entry) := by
  refine ⟨by decide, ?_, ?_⟩
  · decide
  · decide

theorem nested_laid : LaidOut nestedMachine.drive smallHeader nestedTree := by
  obtain ⟨root, upper, lower⟩ := nested_only
  have lower_laid : LaidOut nestedMachine.drive smallHeader lowerTree :=
    .directory ⟨by decide, by decide⟩
      (fun entry member directory plain => absurd (lower entry member directory) plain)
      (fun entry member directory plain => absurd (lower entry member directory) plain)
      fun entry member directory plain => absurd (lower entry member directory) plain
  have upper_laid : LaidOut nestedMachine.drive smallHeader upperTree := by
    refine .directory ⟨by decide, by decide⟩ (fun entry member directory plain => ?_)
      (fun _ _ _ _ => ⟨by decide, by decide⟩) fun _ _ _ _ => lower_laid
    rw [upper entry member directory plain]
    exact lower_stored
  refine .directory ⟨by decide, by decide⟩ (fun entry member _ _ => ?_)
    (fun _ _ _ _ => ⟨by decide, by decide⟩) fun _ _ _ _ => upper_laid
  rw [root entry member]
  exact upper_stored

theorem nested_dots : DotsRight 0 nestedTree := by
  obtain ⟨root, upper, lower⟩ := nested_only
  have lower_dots : DotsRight 3 lowerTree :=
    .directory (fun entry member directory plain => absurd (lower entry member directory) plain)
      fun entry member directory plain => absurd (lower entry member directory) plain
  have upper_dots : DotsRight 2 upperTree := by
    refine .directory (fun entry member directory plain => ?_) fun entry member directory plain => ?_
    · rw [upper entry member directory plain]
      exact ⟨⟨namedEntry 46 0x10 3, by decide, by decide, by decide⟩,
        ⟨upEntry 2, by decide, by decide, by decide⟩⟩
    · have cluster : fat16GetFirstCluster (namedEntry 69 0x10 3) = 3 := by decide
      rw [upper entry member directory plain, cluster]
      exact lower_dots
  refine .directory (fun entry member _ _ => ?_) fun entry member _ _ => ?_
  · rw [root entry member]
    exact ⟨⟨namedEntry 46 0x10 2, by decide, by decide, by decide⟩,
      ⟨upEntry 0, by decide, by decide, by decide⟩⟩
  · have cluster : fat16GetFirstCluster (namedEntry 68 0x10 2) = 2 := by decide
    rw [root entry member, cluster]
    exact upper_dots

theorem nested_found : nestedHeap.lookup (treePrivate rootEntries).rootDirectory.item =
    some (.directoryItems rootEntries) :=
  Store.lookup_put_self

theorem nested_noNull : nestedHeap.lookup 0 = none := Store.lookup_put_ne Nat.zero_ne_one

theorem nested_slots :
    slots nestedMachine (treePrivate rootEntries).rootDirectory.total rootEntries = nestedTree.entries := by
  decide

/-- From `D/E` the entries lead where they should. -/
theorem dots_law_nested :
    DotsLaw nestedMachine (treePrivate rootEntries) nestedHeap pathD [pathE] := by
  have leads : Leads nestedTree pathD [pathE] (namedEntry 69 0x10 3) lowerTree :=
    .next List.mem_cons_self (by decide) (by decide) (by decide)
      (.last (by decide) (by decide) (by decide))
  obtain ⟨path, loads⟩ := @subdirectories_of_leads nestedMachine (treePrivate rootEntries) _ _ _ _ _
    plenty_allocator nested_mounted leads 0 nested_laid nested_dots (by decide)
  exact (dots_law_iff steady_allocator nested_found nested_noNull (nested_slots.symm ▸ path)).mpr
    ⟨List.cons_ne_nil _ _, loads⟩

/-- From `D` there is no way back: `D/../D` does not end where `D` does. -/
theorem dots_law_fails :
    Subdirectories nestedMachine (treePrivate rootEntries) 0
        (slots nestedMachine (treePrivate rootEntries).rootDirectory.total rootEntries) pathD []
        (namedEntry 68 0x10 2) ∧
      ¬ SameResult
        (fat16GetDirectoryEntry nestedMachine (treePrivate rootEntries) nestedHeap pathD [dotDotName, pathD])
        (fat16GetDirectoryEntry nestedMachine (treePrivate rootEntries) nestedHeap pathD []) ∧
      ¬ DotsLaw nestedMachine (treePrivate rootEntries) nestedHeap pathD [] := by
  have leads : Leads nestedTree pathD [] (namedEntry 68 0x10 2) upperTree :=
    .last List.mem_cons_self (by decide) (by decide)
  obtain ⟨path, loaded, load⟩ := @subdirectories_of_leads nestedMachine (treePrivate rootEntries) _ _ _ _ _
    plenty_allocator nested_mounted leads 0 nested_laid nested_dots (by decide)
  rw [← nested_slots] at path
  have differ : ¬ SameResult
      (fat16GetDirectoryEntry nestedMachine (treePrivate rootEntries) nestedHeap pathD [dotDotName, pathD])
      (fat16GetDirectoryEntry nestedMachine (treePrivate rootEntries) nestedHeap pathD []) := by
    intro same
    have own := path.resolves steady_allocator []
    rw [arrivedAt_load steady_allocator path.isDirectory load] at own
    exact path.dotDot_stops steady_allocator load pathD (.directory loaded)
      (((entry_same_iff steady_allocator nested_found nested_noNull).mp same).trans own)
  exact ⟨path, differ, fun law => differ (law.dotDot [pathD] pathD [] rfl)⟩

end Small

end KernelPlay
