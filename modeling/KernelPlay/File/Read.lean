/-
**`fread` of a regular file.**

`StoredFile` — the chain of an entry holds its file on a mounted volume. `fread_delivers` — a read
inside the file delivers its part of the contents, whatever the split into elements. A read does not
move the position of the handle, so consecutive reads all deliver the bytes at the same position
(`sequential_reads_fail`): `sequential_reads_iff` says when these happen to be the right ones.
-/

import KernelPlay.Fat.Contents
import KernelPlay.File.Table

namespace KernelPlay

open KernelPlay.Library

/-- The handle is open on a regular file with the entry, at the position. The open handle 512 is left
out: `fread` and `fseek` refuse it. -/
structure OpenFile (machine : Machine) (kernel : Kernel) (fd : Int) (fatPrivate : FatPrivate)
    (entry : FatDirectoryItem) (pos : Nat) : Prop where
  positive : 1 ≤ fd
  mounted : kernel.rootDisk.fsPrivate = some fatPrivate
  opened : ∃ record item ref, fileGetDescriptor machine kernel fd ≠ 0 ∧
    kernel.heap.lookup (fileGetDescriptor machine kernel fd) = some (.fileDescriptor record) ∧
    record.fs = some .fat16Fs ∧
    kernel.heap.lookup record.privateData = some (.fatDescriptor ⟨item, pos⟩) ∧
    kernel.heap.lookup item = some (.fatItem ⟨ref, .file⟩) ∧
    kernel.heap.lookup ref = some (.directoryItem entry)

/-- **A regular file on a mounted volume**: the chain of its entry, of `length` clusters below
`2 ^ 31`, holds it. -/
structure StoredFile (drive : Drive) (fatPrivate : FatPrivate) (entry : FatDirectoryItem)
    (length : Nat) : Prop where
  mounted : Mounted drive fatPrivate
  chain : FileChain drive fatPrivate (fat16GetFirstCluster entry) length
  below : ∀ index, index < length →
    fatPrivate.header.Below (fatRoute drive fatPrivate (fat16GetFirstCluster entry) index)
  fits : entry.filesize.toNat ≤ length * fatPrivate.header.clusterBytes

/-- The bytes of the file's clusters. -/
def entryContents (drive : Drive) (fatPrivate : FatPrivate) (entry : FatDirectoryItem) (length : Nat) :
    List UInt8 :=
  fileContents drive fatPrivate (fat16GetFirstCluster entry) length

section Read

variable {machine : Machine} {kernel : Kernel} {fd : Int} {fatPrivate : FatPrivate}
  {entry : FatDirectoryItem} {pos length : Nat}

/-- A read through a handle is the driver's loop over the elements. -/
theorem fread_eq (handle : OpenFile machine kernel fd fatPrivate entry pos) {size nmemb : Nat}
    (some_size : 1 ≤ size) (some_nmemb : 1 ≤ nmemb) (out : Nat → UInt8) :
    fread machine kernel out size nmemb fd =
      fat16ReadElements fatPrivate machine.drive (fat16GetFirstCluster entry) size nmemb (int32 pos) 0
        out := by
  obtain ⟨positive, mounted, record, item, ref, nonnull, found, fs, descriptor, item_found, ref_found⟩ :=
    handle
  have opened : OpenEntry machine kernel.heap record.privateData entry pos :=
    ⟨item, ⟨ref, .file⟩, descriptor, item_found, deref_eq directoryItemKind ref_found⟩
  unfold fread
  dsimp only
  rw [if_neg (by omega), if_neg nonnull, deref_eq fileDescriptorKind found, ok_bind, descFs, fs]
  dsimp only
  rw [ok_bind, fsPrivate, mounted]
  dsimp only
  rw [ok_bind, fat16Read_eq fatPrivate size nmemb out opened]

/-- A read inside the clusters of a file delivers their bytes. -/
theorem OpenFile.delivers (handle : OpenFile machine kernel fd fatPrivate entry pos)
    (file : StoredFile machine.drive fatPrivate entry length) {size nmemb : Nat} (some_size : 1 ≤ size)
    (some_nmemb : 1 ≤ nmemb) (within : pos + size * nmemb ≤ length * fatPrivate.header.clusterBytes)
    (out : Nat → UInt8) :
    ∃ read, fread machine kernel out size nmemb fd = .ok read ∧ read.res = ok ∧
      window read.out 0 (size * nmemb) =
        ((entryContents machine.drive fatPrivate entry length).drop pos).take (size * nmemb) := by
  have short := chain_bytes_lt file.mounted file.chain file.below
  have position : int32 (pos : Int) = pos := int32_of_range (by omega) (by omega)
  rw [Nat.mul_comm] at within ⊢
  obtain ⟨read, result, succeeds, -, delivered⟩ := elements_contents file.mounted file.chain file.below
    some_size nmemb pos 0 out within
  exact ⟨read, by rw [fread_eq handle some_size some_nmemb, position, result], succeeds, delivered⟩

/-- **A read inside a file** returns `OK` and delivers the bytes of the file from the handle's
position on. -/
theorem fread_delivers (handle : OpenFile machine kernel fd fatPrivate entry pos)
    (file : StoredFile machine.drive fatPrivate entry length) {size nmemb : Nat} (some_size : 1 ≤ size)
    (some_nmemb : 1 ≤ nmemb) (inside : pos + size * nmemb ≤ entry.filesize.toNat)
    (out : Nat → UInt8) :
    ∃ read, fread machine kernel out size nmemb fd = .ok read ∧ read.res = ok ∧
      window read.out 0 (size * nmemb) =
        ((entryContents machine.drive fatPrivate entry length).drop pos).take (size * nmemb) := by
  exact handle.delivers file some_size some_nmemb (inside.trans file.fits) out

end Read

/-! ### Reads one after the other -/

section Sequence

variable (machine : Machine) (kernel : Kernel) (fd : Int)

/-- The statuses and the bytes that reads of `size` times `nmemb` bytes deliver, one after the
other on one handle. No read changes the kernel. -/
def freadAll : List (Nat × Nat) → Except Fault (List (Int × List UInt8))
  | [] => .ok []
  | (size, nmemb) :: rest => do
    let read ← fread machine kernel (fun _ => 0) size nmemb fd
    let pieces ← freadAll rest
    return (read.res, window read.out 0 (size * nmemb)) :: pieces

/-- The bytes the requests ask for together. -/
def totalOf : List (Nat × Nat) → Nat
  | [] => 0
  | (size, nmemb) :: rest => size * nmemb + totalOf rest

/-- The pieces of the contents that lie one behind the other from `start` on. -/
def consecutive (contents : List UInt8) : Nat → List (Nat × Nat) → List (Int × List UInt8)
  | _, [] => []
  | start, (size, nmemb) :: rest =>
    (ok, (contents.drop start).take (size * nmemb)) ::
      consecutive contents (start + size * nmemb) rest

/-- **Sequential reading**: the requests deliver consecutive pieces of the contents from the position
on, together the bytes one read delivers. -/
structure SequentialReads (contents : List UInt8) (pos : Nat) (requests : List (Nat × Nat)) : Prop where
  pieces : freadAll machine kernel fd requests = .ok (consecutive contents pos requests)
  together : ∃ read, fread machine kernel (fun _ => 0) (totalOf requests) 1 fd = .ok read ∧
    read.res = ok ∧ window read.out 0 (totalOf requests) =
      ((consecutive contents pos requests).map Prod.snd).flatten

/-- Each request finds at its place in the file the bytes there are at `pos`. -/
def RepeatsAt (contents : List UInt8) (pos : Nat) : Nat → List (Nat × Nat) → Prop
  | _, [] => True
  | start, (size, nmemb) :: rest =>
    (contents.drop pos).take (size * nmemb) = (contents.drop start).take (size * nmemb) ∧
      RepeatsAt contents pos (start + size * nmemb) rest

variable {machine kernel fd} {fatPrivate : FatPrivate} {entry : FatDirectoryItem} {pos length : Nat}

theorem consecutive_flatten (contents : List UInt8) :
    ∀ (start : Nat) (requests : List (Nat × Nat)),
      ((consecutive contents start requests).map Prod.snd).flatten =
        (contents.drop start).take (totalOf requests)
  | _, [] => rfl
  | start, (size, nmemb) :: rest => by
      rw [consecutive, List.map_cons, List.flatten_cons, consecutive_flatten contents _ rest,
        take_append_take_drop]
      rfl

/-- Every read delivers the bytes at the position. -/
theorem freadAll_eq (handle : OpenFile machine kernel fd fatPrivate entry pos)
    (file : StoredFile machine.drive fatPrivate entry length) :
    ∀ requests : List (Nat × Nat), (∀ request ∈ requests, 1 ≤ request.1 ∧ 1 ≤ request.2) →
      pos + totalOf requests ≤ entry.filesize.toNat →
      freadAll machine kernel fd requests = .ok (requests.map fun request =>
        (ok, ((entryContents machine.drive fatPrivate entry length).drop pos).take
          (request.1 * request.2)))
  | [], _, _ => rfl
  | (size, nmemb) :: rest, positive, inside => by
      rw [totalOf] at inside
      obtain ⟨some_size, some_nmemb⟩ : 1 ≤ size ∧ 1 ≤ nmemb := positive _ List.mem_cons_self
      have fits := file.fits
      obtain ⟨read, result, succeeds, delivered⟩ :=
        handle.delivers file some_size some_nmemb (by omega) fun _ => 0
      have pieces := freadAll_eq handle file rest
        (fun request member => positive request (List.mem_cons_of_mem _ member)) (by omega)
      rw [freadAll, result, ok_bind, pieces, ok_bind, List.map_cons, succeeds, delivered]
      rfl

theorem repeatsAt_iff (contents : List UInt8) :
    ∀ (start : Nat) (requests : List (Nat × Nat)),
      (requests.map fun request => (ok, (contents.drop pos).take (request.1 * request.2))) =
        consecutive contents start requests ↔ RepeatsAt contents pos start requests
  | _, [] => ⟨fun _ => trivial, fun _ => rfl⟩
  | start, (size, nmemb) :: rest => by
      rw [List.map_cons, consecutive, List.cons.injEq, Prod.mk.injEq,
        repeatsAt_iff contents _ rest, RepeatsAt]
      exact ⟨fun both => ⟨both.1.2, both.2⟩, fun both => ⟨⟨rfl, both.1⟩, both.2⟩⟩

/-- **Reads one after the other are sequential** exactly if each finds at its own place the bytes
there are at the handle's position. -/
theorem sequential_reads_iff (handle : OpenFile machine kernel fd fatPrivate entry pos)
    (file : StoredFile machine.drive fatPrivate entry length) {requests : List (Nat × Nat)}
    (some : requests ≠ []) (positive : ∀ request ∈ requests, 1 ≤ request.1 ∧ 1 ≤ request.2)
    (inside : pos + totalOf requests ≤ entry.filesize.toNat) :
    SequentialReads machine kernel fd (entryContents machine.drive fatPrivate entry length) pos
        requests ↔
      RepeatsAt (entryContents machine.drive fatPrivate entry length) pos pos requests := by
  rw [← repeatsAt_iff]
  have pieces := freadAll_eq handle file requests positive inside
  refine ⟨fun sequential => Except.ok.inj (pieces.symm.trans sequential.pieces), fun same => ?_⟩
  have total : 1 ≤ totalOf requests := by
    cases requests with
    | nil => exact absurd rfl some
    | cons request rest =>
      obtain ⟨size, nmemb⟩ := positive request List.mem_cons_self
      rw [totalOf]
      exact Nat.le_add_right_of_le (Nat.mul_pos size nmemb)
  have fits := file.fits
  obtain ⟨read, result, succeeds, delivered⟩ :=
    handle.delivers file total le_rfl (by omega) fun _ => 0
  rw [Nat.mul_one] at delivered
  exact ⟨pieces.trans (congrArg Except.ok same), read, result, succeeds,
    delivered.trans (consecutive_flatten _ pos requests).symm⟩

end Sequence

/-! ### Files of small volumes -/

section Small

/-- The file of an entry, open as handle 1. -/
def fileKernel (entry : FatDirectoryItem) (pos : Nat) : Kernel where
  heap := (smallHeap entry pos).put 4 (.fileDescriptor ⟨1, some .fat16Fs, 1, some .rootDisk⟩)
  filesystems slot := if slot.val = 0 then some .fat16Fs else none
  filedescriptors slot := if slot.val = 0 then 4 else 0
  rootDisk := ⟨0, some .fat16Fs, some smallPrivate⟩

theorem fileKernel_open (machine : Machine) (entry : FatDirectoryItem) (pos : Nat) :
    OpenFile machine (fileKernel entry pos) 1 smallPrivate entry pos where
  positive := le_rfl
  mounted := rfl
  opened := by
    refine ⟨⟨1, some .fat16Fs, 1, some .rootDisk⟩, 2, 3, nofun, ?_, rfl, ?_, ?_, ?_⟩
    · exact Store.lookup_put_self
    · exact (Store.lookup_put_ne (by decide)).trans <| (Store.lookup_put_ne (by decide)).trans <|
        (Store.lookup_put_ne (by decide)).trans Store.lookup_put_self
    · exact (Store.lookup_put_ne (by decide)).trans <| (Store.lookup_put_ne (by decide)).trans
        Store.lookup_put_self
    · exact (Store.lookup_put_ne (by decide)).trans Store.lookup_put_self

/-- The file of three bytes in cluster 2, open as handle 1. -/
def smallKernel : Kernel := fileKernel (smallEntry 2 0 3) 0

theorem small_open :
    OpenFile (smallMachine smallDrive) smallKernel 1 smallPrivate (smallEntry 2 0 3) 0 :=
  fileKernel_open _ _ _

theorem small_mounted : Mounted smallDrive smallPrivate where
  header := by decide
  sectorPos := by decide
  endingSectorPos := by decide

theorem small_stored : StoredFile smallDrive smallPrivate (smallEntry 2 0 3) 1 where
  mounted := small_mounted
  chain := by
    have start : fat16GetFirstCluster (smallEntry 2 0 3) = 2 := by decide
    rw [start]
    exact small_chain
  below index inside := by
    obtain rfl : index = 0 := by omega
    have start : fat16GetFirstCluster (smallEntry 2 0 3) = 2 := by decide
    rw [fatRoute_zero, start]
    unfold FatHeader.Below
    decide
  fits := by decide

/-- **A file in two clusters.** -/
theorem storedFile_two {drive : Drive} {fatPrivate : FatPrivate} {entry : FatDirectoryItem} {first second : Int}
    (mounted : Mounted drive fatPrivate) (start : fat16GetFirstCluster entry = first)
    (next : fat16GetFatEntry drive fatPrivate first = second)
    (last : fat16GetFatEntry drive fatPrivate second = 0xFFFF)
    (data : ∀ cluster ∈ [first, second], 2 ≤ cluster ∧ cluster ≤ 0xFFEF ∧
      fatPrivate.header.clusterSector cluster * 512 + fatPrivate.header.clusterBytes ≤ 2147483648)
    (fits : entry.filesize.toNat ≤ 2 * fatPrivate.header.clusterBytes) :
    StoredFile drive fatPrivate entry 2 := by
  have route (index : Nat) (below : index < 2) : fatRoute drive fatPrivate first index ∈ [first, second] := by
    match index, below with
    | 0, _ => exact List.mem_cons_self
    | 1, _ => exact List.mem_cons_of_mem _ (List.mem_singleton.mpr next)
  have ended : fatRoute drive fatPrivate first 2 = 0xFFFF := by
    rw [← last, ← next]
    rfl
  refine ⟨mounted, ⟨fun index below => ?_, .inl ?_⟩, fun index below => ?_, fits⟩
  · rw [start]
    obtain ⟨low, high, -⟩ := data _ (route index below)
    exact ⟨low, high⟩
  · rw [start, ended]
    exact ⟨by decide, by decide⟩
  · rw [start]
    exact (data _ (route index below)).2.2

/-- The volume mounted once more holds the same files. -/
theorem StoredFile.remount {drive : Drive} {fatPrivate other : FatPrivate} {entry : FatDirectoryItem}
    {length : Nat} (file : StoredFile drive fatPrivate entry length) (mounted : Mounted drive other) :
    StoredFile drive other entry length := by
  have header : fatPrivate.header = other.header := file.mounted.header.trans mounted.header.symm
  have route := fatRoute_congr drive fatPrivate header
  obtain ⟨-, ⟨data, ended⟩, below, fits⟩ := file
  rw [route] at data ended below
  rw [header] at below fits
  exact ⟨mounted, ⟨data, ended⟩, below, fits⟩

theorem note_mounted : Mounted noteMachine.drive smallPrivate :=
  ⟨by decide, by decide, by decide⟩

theorem note_stored : StoredFile noteMachine.drive smallPrivate (noteEntry 78 2) 2 :=
  storedFile_two note_mounted note_start (by decide : _ = (4 : Int)) (by decide)
    (by decide) (by decide)

/-- Two elements of ten bytes, from the end of cluster 2 into cluster 4. -/
theorem fread_delivers_note :
    ∃ read, fread noteMachine (fileKernel (noteEntry 78 2) 500) (fun _ => 0) 10 2 1 = .ok read ∧
      read.res = ok ∧ window read.out 0 (10 * 2) =
        ((entryContents noteMachine.drive smallPrivate (noteEntry 78 2) 2).drop 500).take (10 * 2) :=
  fread_delivers (fileKernel_open _ _ _) note_stored (by decide) (by decide) (by decide) _

/-- Three reads of 256 bytes are sequential: the bytes of the file repeat. -/
theorem sequential_reads_iff_note :
    SequentialReads noteMachine (fileKernel (noteEntry 78 2) 0) 1
      (entryContents noteMachine.drive smallPrivate (noteEntry 78 2) 2) 0 [(256, 1), (1, 256), (16, 16)] := by
  refine (sequential_reads_iff (fileKernel_open _ _ _) note_stored (by decide) (by decide)
    (by decide +kernel)).mpr ⟨?_, ?_, ?_, trivial⟩ <;> decide +kernel

/-- Two reads of one byte deliver the first byte twice. -/
theorem sequential_reads_fail :
    freadAll (smallMachine smallDrive) smallKernel 1 [(1, 1), (1, 1)] = .ok [(ok, [0]), (ok, [0])] ∧
    ¬ SequentialReads (smallMachine smallDrive) smallKernel 1
      (entryContents smallDrive smallPrivate (smallEntry 2 0 3) 1) 0 [(1, 1), (1, 1)] := by
  have pieces := freadAll_eq small_open small_stored [(1, 1), (1, 1)] (by decide) (by decide)
  have first : ((entryContents smallDrive smallPrivate (smallEntry 2 0 3) 1).drop 0).take 1 = [0] := by
    decide
  have second : ((entryContents smallDrive smallPrivate (smallEntry 2 0 3) 1).drop 1).take 1 = [1] := by
    decide
  refine ⟨?_, fun sequential => ?_⟩
  · rw [show (smallMachine smallDrive).drive = smallDrive from rfl] at pieces
    simpa only [List.map_cons, List.map_nil, Nat.mul_one, first] using pieces
  · have same := Except.ok.inj (pieces.symm.trans sequential.pieces)
    have bytes := congrArg (fun pieces => (pieces.map Prod.snd)[1]?) same
    simp only [List.map_cons, List.map_nil, consecutive, Nat.mul_one, Nat.zero_add] at bytes
    rw [show (smallMachine smallDrive).drive = smallDrive from rfl, first, second] at bytes
    exact absurd bytes (by decide)

end Small

end KernelPlay
