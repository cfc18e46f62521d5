/-
**The exits of `fat16_resolve`.**

A mount asks for its private data and four streams before it reads a byte; `MountGrants` — all five
requests are met. Without them it faults, with them it returns, if it returns, after its label `out`
(`fat16Resolve_refused`, `fat16Resolve_granted`). The label frees the private data and the last stream only,
so a mount that fails always leaves three streams behind (`failed_mount_leaves`).
-/

import KernelPlay.Fat.Mount

namespace KernelPlay

open KernelPlay.Library

/-- A fault of the memory, not of the arithmetic or a loop that never ends. -/
def Fault.IsMemory : Fault → Prop
  | .nullDeref | .useAfterFree | .invalidFree | .uninitialized => True
  | .divideError | .diverges => False

/-- **The call handles memory right**: it does not fault there. -/
def MemorySafe {α : Type} (result : Except Fault α) : Prop :=
  ∀ fault, result = .error fault → ¬ fault.IsMemory

theorem MemorySafe.ok {α : Type} (value : α) : MemorySafe (.ok value : Except Fault α) := nofun

theorem memorySafe_error_iff {α : Type} {fault : Fault} :
    MemorySafe (.error fault : Except Fault α) ↔ ¬ fault.IsMemory :=
  ⟨fun safe => safe fault rfl, fun plain _ same => by cases same; exact plain⟩

/-! ### Streams one after the other -/

section Streams

variable (machine : Machine)

/-- The heap after `count` streams. -/
def streamed : Nat → Kheap → Kheap
  | 0, heap => heap
  | count + 1, heap =>
    (streamed count heap).tick.put (Store.nextPtr machine.allocator (streamed count heap) 8) .diskStreamer

/-- The addresses of the streams. -/
def streamsOf : Nat → Kheap → List Ptr
  | 0, _ => []
  | count + 1, heap => Store.nextPtr machine.allocator (streamed machine count heap) 8 ::
      streamsOf count heap

variable {machine} {heap : Kheap}

theorem streamed_calls (heap : Kheap) : ∀ count, (streamed machine count heap).calls = heap.calls + count
  | 0 => rfl
  | count + 1 => by
      show (streamed machine count heap).calls + 1 = heap.calls + count + 1
      rw [streamed_calls heap count]

/-- The streams are new, and they are all that is. -/
theorem streamed_lookup (heap : Kheap) :
    ∀ count ptr, (streamed machine count heap).lookup ptr =
      if ptr ∈ streamsOf machine count heap then some .diskStreamer else heap.lookup ptr
  | 0, ptr => (if_neg List.not_mem_nil).symm
  | count + 1, ptr => by
      rw [streamed, streamsOf]
      by_cases new : ptr = Store.nextPtr machine.allocator (streamed machine count heap) 8
      · rw [new, Store.lookup_put_self, if_pos List.mem_cons_self]
      · rw [Store.lookup_put_ne new, Store.lookup_tick, streamed_lookup heap count ptr]
        refine if_congr ?_ rfl rfl
        rw [List.mem_cons, or_iff_right new]

theorem streamsOf_fresh (heap : Kheap) :
    ∀ count, ∀ ptr ∈ streamsOf machine count heap, heap.lookup ptr = none
  | 0, ptr, member => absurd member List.not_mem_nil
  | count + 1, ptr, member => by
      rcases List.mem_cons.mp member with rfl | member
      · have fresh : (streamed machine count heap).lookup
            (Store.nextPtr machine.allocator (streamed machine count heap) 8) = none := Store.lookup_nextPtr
        rw [streamed_lookup] at fresh
        split_ifs at fresh
        exact fresh
      · exact streamsOf_fresh heap count ptr member

theorem diskStreamerNew_granted (granted : Store.Grants machine.allocator heap 8) :
    diskStreamerNew machine heap 0 = .ok (some (Store.nextPtr machine.allocator heap 8, ⟨0, .rootDisk⟩),
      heap.tick.put (Store.nextPtr machine.allocator heap 8) .diskStreamer) := by
  unfold diskStreamerNew
  rw [Store.zalloc_granted granted]
  exact if_neg Store.nextPtr_ne_zero

/-- A stream that is refused is written to. -/
theorem diskStreamerNew_refused (refused : ¬ Store.Grants machine.allocator heap 8) :
    diskStreamerNew machine heap 0 = .error .nullDeref := by
  unfold diskStreamerNew
  rw [Store.zalloc_refused refused]
  rfl

/-- The stream after `count` others, by the number of its request. -/
theorem diskStreamerNew_next {count : Nat} (granted : machine.allocator.grants (heap.calls + count) 8 = true) :
    diskStreamerNew machine (streamed machine count heap) 0 =
      .ok (some (Store.nextPtr machine.allocator (streamed machine count heap) 8, ⟨0, .rootDisk⟩),
        streamed machine (count + 1) heap) := by
  rw [← streamed_calls] at granted
  exact diskStreamerNew_granted granted

end Streams

/-! ### A mount by the answers of the allocator -/

/-- **The private data and the four streams are granted.** -/
def MountGrants (machine : Machine) (heap : Kheap) : Prop :=
  machine.allocator.grants heap.calls 92 = true ∧
    ∀ index, 1 ≤ index → index ≤ 4 → machine.allocator.grants (heap.calls + index) 8 = true

section Resolve

variable {machine : Machine} {kernel kernel' : Kernel} {res : Int}

/-- The private data before the header is read. -/
def unread : FatPrivate :=
  ⟨FatHeader.parse [], ⟨0, 0, 0, 0⟩, ⟨0, .rootDisk⟩, ⟨0, .rootDisk⟩, ⟨0, .rootDisk⟩⟩

/-- The heap with the private data. -/
def privateHeap (machine : Machine) (kernel : Kernel) : Kheap :=
  kernel.heap.tick.put (Store.nextPtr machine.allocator kernel.heap 92) .fatPrivate

theorem fat16InitPrivate_cases (heap : Kheap) :
    ((∀ index, index < 3 → machine.allocator.grants (heap.calls + index) 8 = true) ∧
        fat16InitPrivate machine heap 0 =
          .ok (some (⟨0, .rootDisk⟩, ⟨0, .rootDisk⟩, ⟨0, .rootDisk⟩), streamed machine 3 heap)) ∨
      (∃ index, index < 3 ∧ ¬ machine.allocator.grants (heap.calls + index) 8 = true) ∧
        fat16InitPrivate machine heap 0 = .error .nullDeref := by
  have turn (count : Nat) (refused : ¬ machine.allocator.grants (heap.calls + count) 8 = true) :
      diskStreamerNew machine (streamed machine count heap) 0 = .error .nullDeref := by
    rw [← streamed_calls] at refused
    exact diskStreamerNew_refused refused
  unfold fat16InitPrivate
  by_cases first : machine.allocator.grants (heap.calls + 0) 8 = true
  · rw [show diskStreamerNew machine heap 0 = _ from diskStreamerNew_next first, ok_bind]
    dsimp only
    by_cases second : machine.allocator.grants (heap.calls + 1) 8 = true
    · rw [diskStreamerNew_next second, ok_bind]
      dsimp only
      by_cases third : machine.allocator.grants (heap.calls + 2) 8 = true
      · rw [diskStreamerNew_next third, ok_bind]
        refine .inl ⟨fun index below => ?_, rfl⟩
        match index with
        | 0 => exact first
        | 1 => exact second
        | 2 => exact third
      · rw [turn 2 third]
        exact .inr ⟨⟨2, by decide, third⟩, rfl⟩
    · rw [turn 1 second]
      exact .inr ⟨⟨1, by decide, second⟩, rfl⟩
  · rw [show diskStreamerNew machine heap 0 = _ from turn 0 first]
    exact .inr ⟨⟨0, by decide, first⟩, rfl⟩

/-- Counting either ends or goes on for ever. -/
theorem fat16CountItems_total (drive : Drive) :
    ∀ (turns : Nat) (ds : DiskStreamer) (count : Int),
      fat16CountItems drive turns ds count = .error .diverges ∨
        ∃ total, fat16CountItems drive turns ds count = .ok total
  | 0, _, _ => .inl rfl
  | turns + 1, ds, count => by
      rw [fat16CountItems]
      split_ifs
      · exact .inr ⟨_, rfl⟩
      · exact .inr ⟨_, rfl⟩
      · exact fat16CountItems_total drive turns _ _
      · exact fat16CountItems_total drive turns _ _

theorem fat16GetTotalItemsForDirectory_total (fatPrivate : FatPrivate) (drive : Drive) (dirSectorPos : Int) :
    fat16GetTotalItemsForDirectory fatPrivate drive dirSectorPos = .error .diverges ∨
      ∃ total, fat16GetTotalItemsForDirectory fatPrivate drive dirSectorPos = .ok total :=
  fat16CountItems_total drive directoryTurns _ 0

/-- The loader of the root directory keeps what was there, and everything if it fails. -/
theorem fat16GetRootDirectory_cases (fatPrivate : FatPrivate) (heap : Kheap) :
    fat16GetRootDirectory machine fatPrivate heap = .error .diverges ∨
      ∃ res directory later, fat16GetRootDirectory machine fatPrivate heap = .ok (res, directory, later) ∧
        (res ≠ ok → ∀ ptr, later.lookup ptr = heap.lookup ptr) ∧
        ∀ ptr cell, heap.lookup ptr = some cell → later.lookup ptr = some cell := by
  unfold fat16GetRootDirectory
  dsimp only
  rcases fat16GetTotalItemsForDirectory_total fatPrivate machine.drive
      (fatPrivate.header.fatCopies.toNat * fatPrivate.header.sectorsPerFat.toNat +
        fatPrivate.header.reservedSectors.toNat) with diverges | ⟨totalItems, counted⟩
  · rw [diverges]
    exact .inl rfl
  rw [counted, ok_bind]
  refine .inr ?_
  by_cases negative : totalItems < 0
  · rw [if_pos negative]
    exact ⟨_, _, heap, rfl, fun _ _ => rfl, fun _ _ found => found⟩
  rw [if_neg negative]
  by_cases granted : Store.Grants machine.allocator heap
    ((fatPrivate.header.rootDirEntries.toNat : Int) * 32).toNat
  · rw [Store.zalloc_granted granted]
    dsimp only
    rw [if_neg Store.nextPtr_ne_zero, diskStreamerReadBytes_res, if_neg (by simp), Store.put_put]
    exact ⟨_, _, _, rfl, fun failed => absurd rfl failed, fun ptr cell found =>
      (Store.lookup_put_ne (Store.nextPtr_ne found)).trans found⟩
  · rw [Store.zalloc_refused granted]
    exact ⟨_, _, heap.tick, rfl, fun _ _ => rfl, fun _ _ found => found⟩

/-- So does the read of the volume. -/
theorem fat16ReadVolume_cases (fatPrivate : FatPrivate) (heap : Kheap) (stream : DiskStreamer) :
    fat16ReadVolume machine heap fatPrivate stream = .error .diverges ∨
      ∃ res volume later, fat16ReadVolume machine heap fatPrivate stream = .ok (res, volume, later) ∧
        (res < 0 → ∀ ptr, later.lookup ptr = heap.lookup ptr) ∧
        ∀ ptr cell, heap.lookup ptr = some cell → later.lookup ptr = some cell := by
  unfold fat16ReadVolume
  dsimp only
  rw [diskStreamerReadBytes_res, if_neg (by simp)]
  split_ifs
  · exact .inr ⟨_, _, heap, rfl, fun _ _ => rfl, fun _ _ found => found⟩
  rcases fat16GetRootDirectory_cases { fatPrivate with
      header := FatHeader.parse (diskStreamerReadBytes machine.drive stream 62).bytes } heap with
    diverges | ⟨res, directory, later, done, failed, kept⟩
  · rw [diverges]
    exact .inl rfl
  · rw [done, ok_bind]
    dsimp only
    split_ifs with failure
    · exact .inr ⟨_, _, later, rfl, fun _ => failed failure, kept⟩
    · exact .inr ⟨_, _, later, rfl, fun negative => absurd negative (by decide), kept⟩

/-- **A mount that gets its records**: the volume is read, then the last stream is closed and, after a
failure, the private data freed. -/
theorem fat16Resolve_granted (disk : kernel.rootDisk.id = 0) (grants : MountGrants machine kernel.heap) :
    fat16Resolve machine kernel =
      (fat16ReadVolume machine (streamed machine 4 (privateHeap machine kernel)) unread
        ⟨0, .rootDisk⟩ >>= fun result =>
        diskStreamerClose result.2.2 (Store.nextPtr machine.allocator
          (streamed machine 3 (privateHeap machine kernel)) 8) >>= fun heap =>
        if result.1 < 0 then
          (kheapFree fatPrivateKind heap (Store.nextPtr machine.allocator kernel.heap 92)).map fun heap =>
            (result.1,
              { kernel with heap := heap, rootDisk := { kernel.rootDisk with fsPrivate := none } })
        else .ok (result.1,
          { kernel with
            heap := heap
            rootDisk :=
              { kernel.rootDisk with filesystem := some .fat16Fs, fsPrivate := some result.2.1 } })) := by
  obtain ⟨first, streams⟩ := grants
  have granted : Store.Grants machine.allocator kernel.heap 92 := first
  have next (count : Nat) (below : count < 4) :
      machine.allocator.grants ((privateHeap machine kernel).calls + count) 8 = true := by
    have request := streams (count + 1) (by omega) (by omega)
    have number : (privateHeap machine kernel).calls + count = kernel.heap.calls + (count + 1) := by
      show kernel.heap.calls + 1 + count = _
      omega
    rw [number, request]
  unfold fat16Resolve
  dsimp only
  rw [disk, Store.zalloc_granted granted]
  dsimp only
  rw [if_neg Store.nextPtr_ne_zero]
  change fat16InitPrivate machine (privateHeap machine kernel) 0 >>= _ = _
  rcases @fat16InitPrivate_cases machine (privateHeap machine kernel) with
    ⟨-, init⟩ | ⟨⟨index, below, refused⟩, -⟩
  · rw [init, ok_bind]
    dsimp only
    rw [diskStreamerNew_next (next 3 (by omega)), ok_bind]
    dsimp only
    refine congrArg _ (funext fun result => congrArg _ (funext fun heap => ?_))
    split_ifs
    · cases kheapFree fatPrivateKind heap (Store.nextPtr machine.allocator kernel.heap 92) <;> rfl
    · rfl
  · exact absurd (next index (by omega)) refused

/-- **A mount that does not get them faults.** -/
theorem fat16Resolve_refused (refused : ¬ (kernel.rootDisk.id = 0 ∧ MountGrants machine kernel.heap)) :
    ∃ fault, fat16Resolve machine kernel = .error fault ∧ fault.IsMemory := by
  unfold fat16Resolve
  dsimp only
  by_cases granted : Store.Grants machine.allocator kernel.heap 92
  · rw [Store.zalloc_granted granted]
    dsimp only
    rw [if_neg Store.nextPtr_ne_zero]
    change ∃ fault, fat16InitPrivate machine (privateHeap machine kernel) _ >>= _ = _ ∧ _
    by_cases disk : kernel.rootDisk.id = 0
    · rw [disk]
      rcases @fat16InitPrivate_cases machine (privateHeap machine kernel) with
        ⟨three, init⟩ | ⟨-, init⟩
      · rw [init, ok_bind]
        dsimp only
        have last : ¬ machine.allocator.grants ((privateHeap machine kernel).calls + 3) 8 = true := by
          intro fourth
          refine refused ⟨disk, granted, fun index low high => ?_⟩
          have number : kernel.heap.calls + index = (privateHeap machine kernel).calls + (index - 1) := by
            show _ = kernel.heap.calls + 1 + (index - 1)
            omega
          rw [number]
          by_cases at_last : index = 4
          · rw [at_last]
            exact fourth
          · exact three _ (by omega)
        rw [← streamed_calls] at last
        rw [diskStreamerNew_refused last]
        exact ⟨_, rfl, trivial⟩
      · rw [init]
        exact ⟨_, rfl, trivial⟩
    · have missing : diskGet kernel.rootDisk.id = none := if_pos disk
      have init : fat16InitPrivate machine (privateHeap machine kernel) kernel.rootDisk.id =
          .ok (none, privateHeap machine kernel) := by
        unfold fat16InitPrivate diskStreamerNew
        rw [missing]
        rfl
      rw [init]
      exact ⟨_, rfl, trivial⟩
  · rw [Store.zalloc_refused granted]
    exact ⟨_, rfl, trivial⟩

/-- The records a mount gives back are there to be given back. -/
theorem fat16Resolve_returns (disk : kernel.rootDisk.id = 0) (grants : MountGrants machine kernel.heap) :
    (fat16ReadVolume machine (streamed machine 4 (privateHeap machine kernel)) unread ⟨0, .rootDisk⟩ =
          .error .diverges ∧ fat16Resolve machine kernel = .error .diverges) ∨
      ∃ res volume later kernel', fat16ReadVolume machine (streamed machine 4 (privateHeap machine kernel))
          unread ⟨0, .rootDisk⟩ = .ok (res, volume, later) ∧
        fat16Resolve machine kernel = .ok (res, kernel') ∧
        (res < 0 → kernel' =
          { kernel with
            heap := (later.erase (Store.nextPtr machine.allocator
              (streamed machine 3 (privateHeap machine kernel)) 8)).erase
                (Store.nextPtr machine.allocator kernel.heap 92)
            rootDisk := { kernel.rootDisk with fsPrivate := none } }) := by
  rw [fat16Resolve_granted disk grants]
  rcases @fat16ReadVolume_cases machine unread (streamed machine 4 (privateHeap machine kernel))
      ⟨0, .rootDisk⟩ with
    diverges | ⟨res, volume, later, done, -, kept⟩
  · rw [diverges]
    exact .inl ⟨rfl, rfl⟩
  refine .inr ⟨res, volume, later, ?_⟩
  have opened : (streamed machine 4 (privateHeap machine kernel)).lookup (Store.nextPtr machine.allocator
      (streamed machine 3 (privateHeap machine kernel)) 8) = some .diskStreamer := Store.lookup_put_self
  have stream := kept _ _ opened
  have own : (privateHeap machine kernel).lookup (Store.nextPtr machine.allocator kernel.heap 92) =
      some .fatPrivate := Store.lookup_put_self
  have private_data : later.lookup (Store.nextPtr machine.allocator kernel.heap 92) = some .fatPrivate := by
    refine kept _ _ ?_
    rw [streamed_lookup, if_neg, own]
    intro member
    rw [streamsOf_fresh _ _ _ member] at own
    cases own
  generalize Store.nextPtr machine.allocator (streamed machine 3 (privateHeap machine kernel)) 8 = last at *
  generalize Store.nextPtr machine.allocator kernel.heap 92 = ptr at *
  have apart : ptr ≠ last := Store.ne_of_lookup private_data stream nofun
  have closes : diskStreamerClose later last = .ok (later.erase last) :=
    @kheapFree_eq _ later last diskStreamerKind () stream
  have frees : kheapFree fatPrivateKind (later.erase last) ptr = .ok ((later.erase last).erase ptr) :=
    @kheapFree_eq _ (later.erase last) ptr fatPrivateKind ()
      ((Store.lookup_erase_ne apart).trans private_data)
  rw [done, ok_bind, closes, ok_bind]
  dsimp only
  by_cases failed : res < 0
  · rw [if_pos failed, frees]
    exact ⟨_, rfl, rfl, fun _ => rfl⟩
  · rw [if_neg failed]
    exact ⟨_, rfl, rfl, fun negative => absurd negative failed⟩

/-- **A mount handles memory right** exactly if its first five requests are met. -/
theorem fat16Resolve_safe_iff :
    MemorySafe (fat16Resolve machine kernel) ↔
      kernel.rootDisk.id = 0 ∧ MountGrants machine kernel.heap := by
  constructor
  · intro safe
    by_contra refused
    obtain ⟨fault, faults, memory⟩ := fat16Resolve_refused refused
    exact safe fault faults memory
  · rintro ⟨disk, grants⟩
    rcases fat16Resolve_returns disk grants with ⟨-, diverges⟩ | ⟨_, _, _, _, -, returns, -⟩
    · rw [diverges, memorySafe_error_iff]
      exact id
    · rw [returns]
      exact .ok _

/-! ### A mount that fails -/

/-- **Nothing has changed**: the live blocks are those before the call, and the disk refers to nothing
that was freed. -/
structure MountUndone (kernel kernel' : Kernel) : Prop where
  heap : kernel'.heap.live = kernel.heap.live
  disk : kernel'.rootDisk.filesystem = kernel.rootDisk.filesystem ∧
    (kernel'.rootDisk.fsPrivate = none ∨ kernel'.rootDisk.fsPrivate = kernel.rootDisk.fsPrivate)

/-- **A mount that fails leaves its first three streams behind**, and nothing else. -/
theorem failed_mount_leaves (failed : fat16Resolve machine kernel = .ok (res, kernel'))
    (negative : res < 0) :
    (∀ ptr, kernel'.heap.lookup ptr =
        if ptr ∈ streamsOf machine 3 (privateHeap machine kernel) then some .diskStreamer
        else kernel.heap.lookup ptr) ∧
      kernel'.rootDisk = { kernel.rootDisk with fsPrivate := none } := by
  have granted : kernel.rootDisk.id = 0 ∧ MountGrants machine kernel.heap := by
    refine fat16Resolve_safe_iff.mp ?_
    rw [failed]
    exact .ok _
  rcases fat16Resolve_returns granted.1 granted.2 with
    ⟨-, diverges⟩ | ⟨res', volume, later, after, done, returns, out⟩
  · rw [diverges] at failed
    cases failed
  rw [returns] at failed
  cases failed
  rcases @fat16ReadVolume_cases machine unread (streamed machine 4 (privateHeap machine kernel))
      ⟨0, .rootDisk⟩ with
    diverges | ⟨_, _, _, done', same, -⟩
  · rw [diverges] at done
    cases done
  rw [done] at done'
  cases done'
  rw [out negative]
  refine ⟨fun ptr => ?_, rfl⟩
  have fresh : kernel.heap.lookup (Store.nextPtr machine.allocator kernel.heap 92) = none :=
    Store.lookup_nextPtr
  have own : (privateHeap machine kernel).lookup (Store.nextPtr machine.allocator kernel.heap 92) =
      some .fatPrivate := Store.lookup_put_self
  have before {ptr : Ptr} (other : ptr ≠ Store.nextPtr machine.allocator kernel.heap 92) :
      (privateHeap machine kernel).lookup ptr = kernel.heap.lookup ptr := Store.lookup_put_ne other
  have at_last : (streamed machine 3 (privateHeap machine kernel)).lookup (Store.nextPtr machine.allocator
      (streamed machine 3 (privateHeap machine kernel)) 8) = none := Store.lookup_nextPtr
  dsimp only
  by_cases private_data : ptr = Store.nextPtr machine.allocator kernel.heap 92
  · subst private_data
    rw [Store.lookup_erase_self, if_neg, fresh]
    intro member
    rw [streamsOf_fresh _ _ _ member] at own
    cases own
  rw [Store.lookup_erase_ne private_data]
  by_cases last : ptr = Store.nextPtr machine.allocator (streamed machine 3 (privateHeap machine kernel)) 8
  · subst last
    rw [streamed_lookup] at at_last
    split_ifs at at_last with member
    rw [Store.lookup_erase_self, if_neg member, ← before private_data, at_last]
  · rw [Store.lookup_erase_ne last, same negative, streamed, Store.lookup_put_ne last, Store.lookup_tick,
      streamed_lookup, before private_data]

/-- **A mount that fails never leaves things as they were.** -/
theorem failed_mount_leaks (failed : fat16Resolve machine kernel = .ok (res, kernel'))
    (negative : res < 0) : ¬ MountUndone kernel kernel' := by
  intro undone
  obtain ⟨left, -⟩ := failed_mount_leaves failed negative
  have member : Store.nextPtr machine.allocator (streamed machine 2 (privateHeap machine kernel)) 8 ∈
      streamsOf machine 3 (privateHeap machine kernel) := List.mem_cons_self
  generalize Store.nextPtr machine.allocator (streamed machine 2 (privateHeap machine kernel)) 8 = stream at *
  have record := left stream
  rw [if_pos member] at record
  have live : stream ∈ kernel'.heap.live := Store.mem_live.mpr (by rw [record]; rfl)
  have absent : kernel.heap.lookup stream = none := by
    have fresh := streamsOf_fresh _ _ _ member
    by_cases own : stream = Store.nextPtr machine.allocator kernel.heap 92
    · rw [own]
      exact Store.lookup_nextPtr
    · exact (Store.lookup_put_ne own).symm.trans fresh
  rw [undone.heap, Store.mem_live, absent] at live
  cases live

end Resolve

section Small

/-- A kernel before its volume is mounted. -/
def bootKernel : Kernel where
  heap := Store.empty
  filesystems _ := none
  filedescriptors _ := 0
  rootDisk := ⟨0, none, none⟩

/-- A disk of zeros. -/
def blankMachine : Machine where
  drive := ⟨fun _ _ => 0, fun _ => 0⟩
  allocator := .bump
  beyond _ _ := ⟨fun _ => 0⟩
  pun _ := ⟨fun _ => 0⟩
  below := 0

/-- A mount of it finds no signature. -/
theorem blank_mount :
    ∃ kernel, fat16Resolve blankMachine bootKernel = .ok (-efsnotus, kernel) := by
  have signature : (FatHeader.parse (diskStreamerReadBytes blankMachine.drive ⟨0, .rootDisk⟩ 62).bytes).signature ≠
      kernelFat16Signature := by decide
  have fails (heap : Kheap) : ∃ volume, fat16ReadVolume blankMachine heap unread ⟨0, .rootDisk⟩ =
      .ok (-efsnotus, volume, heap) := by
    unfold fat16ReadVolume
    dsimp only
    rw [diskStreamerReadBytes_res, if_neg (by simp), if_pos signature]
    exact ⟨_, rfl⟩
  have grants : MountGrants blankMachine bootKernel.heap := ⟨rfl, fun _ _ _ => rfl⟩
  obtain ⟨volume, fails⟩ := fails (streamed blankMachine 4 (privateHeap blankMachine bootKernel))
  rcases fat16Resolve_returns rfl grants with ⟨diverges, -⟩ | ⟨_, _, _, kernel, done, returns, -⟩
  · rw [fails] at diverges
    cases diverges
  · rw [fails] at done
    cases done
    exact ⟨kernel, returns⟩

theorem failed_mount_leaks_blank :
    ∃ kernel, fat16Resolve blankMachine bootKernel = .ok (-efsnotus, kernel) ∧
      ¬ MountUndone bootKernel kernel := by
  obtain ⟨kernel, failed⟩ := blank_mount
  exact ⟨kernel, failed, failed_mount_leaks failed (by decide)⟩

/-- Before it the heap was empty; after it a stream is left at the second address. -/
theorem failed_mount_leaves_streams :
    ∃ kernel, fat16Resolve blankMachine bootKernel = .ok (-efsnotus, kernel) ∧
      bootKernel.heap.live = ∅ ∧ 2 ∈ kernel.heap.live ∧ ¬ MountUndone bootKernel kernel := by
  obtain ⟨kernel, failed⟩ := blank_mount
  obtain ⟨left, -⟩ := failed_mount_leaves failed (by decide)
  have member : 2 ∈ streamsOf blankMachine 3 (privateHeap blankMachine bootKernel) := by decide
  have record := left 2
  rw [if_pos member] at record
  have live : 2 ∈ kernel.heap.live := Store.mem_live.mpr (by rw [record]; rfl)
  refine ⟨kernel, failed, rfl, live, fun undone => ?_⟩
  rw [undone.heap] at live
  exact absurd live (by decide)

end Small

end KernelPlay
