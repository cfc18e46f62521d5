/-
**Which records the calls of `fs/file.c` add.**

`AddsPlain` — none of the records added is the descriptor of a handle. Neither the parser nor the driver
adds one (`parseRoot_adds`, `fat16Open_adds`); `fopen_adds` — an `fopen` adds at most the one it puts into
the first free slot.
-/

import KernelPlay.File.Refusal

namespace KernelPlay

open KernelPlay.Library

/-- A record that is no descriptor of a handle. -/
def Cell.IsPlain : Cell → Prop
  | .fileDescriptor _ => False
  | _ => True

/-- The records that have been added are no descriptors of handles. -/
abbrev AddsPlain : Kheap → Kheap → Prop := Store.Adds Cell.IsPlain

/-- No record has been added. -/
abbrev AddsNone : Kheap → Kheap → Prop := Store.Adds fun _ => False

section Adds

variable {machine : Machine} {fatPrivate : FatPrivate} {heap heap' : Kheap} {ptr : Ptr}

theorem AddsNone.plain (adds : AddsNone heap heap') : AddsPlain heap heap' :=
  adds.mono fun _ => False.elim

theorem AddsPlain.old {record : FileDescriptor} (adds : AddsPlain heap heap')
    (found : heap'.lookup ptr = some (.fileDescriptor record)) :
    heap.lookup ptr = some (.fileDescriptor record) :=
  (adds ptr _ found).resolve_right id

theorem parts_adds {pathStr : CString} :
    ∀ {turns : Nat} {heap heap' : Kheap} {p : Nat} {pathPart : Ptr} {parts : List PathPart},
      pparserParsePathParts machine pathStr turns heap p pathPart = .ok (parts, heap') →
      AddsPlain heap heap' := by
  intro turns
  induction turns with
  | zero =>
    intro heap heap' p pathPart parts done
    cases done
  | succ turns ih =>
    intro heap heap' p pathPart parts done
    obtain ⟨size, name, named, allocates, last | ⟨next, linked, later, rest, allocates', parsed⟩⟩ :=
      parts_ok done
    · subst last
      exact .zalloc allocates trivial
    · have first : AddsPlain heap named := .zalloc allocates trivial
      exact (first.trans (.zalloc allocates' trivial)).trans (ih parsed)

theorem parseRoot_adds {pathStr : CString} {pathRoot : Ptr} {status : Int}
    (done : pparserParsePathRoot machine pathStr heap pathRoot = .ok (status, heap')) :
    AddsPlain heap heap' := by
  rcases parseRoot_ok done with ⟨-, rfl⟩ | ⟨-, first, allocated, p, parts, middle, root, part, parses, rfl⟩
  · exact .refl
  · have added : AddsPlain heap allocated := .zalloc part trivial
    exact (added.trans (parts_adds parses)).put trivial

theorem Cell.IsItem.plain {cell : Cell} (item : cell.IsItem) : cell.IsPlain := by
  cases cell <;> trivial

theorem newItem_adds {item : FatDirectoryItem} (noNull : heap.lookup 0 = none)
    (done : fat16NewFatItemForDirectoryItem machine fatPrivate heap item = .ok (ptr, heap')) :
    AddsPlain heap heap' := by
  intro other cell found
  rcases newItem_ok noNull done with rfl | ⟨type, stray⟩ | ⟨view, new⟩
  · exact .inl found
  · obtain ⟨-, -, ⟨ref, record, -⟩, kept⟩ := stray
    by_cases at_ptr : other = ptr
    · rw [at_ptr, record, Option.some.injEq] at found
      exact .inr (found ▸ trivial)
    · exact .inl ((kept other at_ptr).symm.trans found)
  · obtain ⟨-, -, footprint, shows, -, kept⟩ := new
    by_cases member : other ∈ footprint
    · exact .inr (shows.isItem member found).plain
    · exact .inl ((kept other member).symm.trans found)

theorem getItem_adds {directory : FatDirectory} {path : Text} (noNull : heap.lookup 0 = none)
    (done : fat16GetItemInDirectory machine fatPrivate heap directory path = .ok (ptr, heap')) :
    AddsPlain heap heap' := by
  rcases fat16FindItem_ok done with ⟨-, rfl⟩ | ⟨entry, done⟩
  · exact .refl
  · exact newItem_adds noNull done

theorem directoryFree_adds (done : fat16DirectoryFree heap ptr = .ok heap') : AddsNone heap heap' := by
  unfold fat16DirectoryFree at done
  split_ifs at done
  · cases done
    exact .refl
  obtain ⟨directory, -, done⟩ := bind_ok.mp done
  split_ifs at done
  · obtain ⟨middle, freed, done⟩ := bind_ok.mp done
    obtain ⟨-, rfl⟩ := kheapFree_ok freed
    obtain ⟨-, rfl⟩ := kheapFree_ok done
    exact Store.Adds.refl.erase.erase
  · obtain ⟨middle, same, done⟩ := bind_ok.mp done
    cases same
    obtain ⟨-, rfl⟩ := kheapFree_ok done
    exact Store.Adds.refl.erase

theorem itemFree_adds (done : fat16FatItemFree heap ptr = .ok heap') : AddsNone heap heap' := by
  unfold fat16FatItemFree at done
  obtain ⟨item, -, done⟩ := bind_ok.mp done
  cases type : item.type with
  | directory =>
    rw [type] at done
    obtain ⟨middle, freed, done⟩ := bind_ok.mp done
    obtain ⟨-, rfl⟩ := kheapFree_ok done
    exact (directoryFree_adds freed).erase
  | file =>
    rw [type] at done
    obtain ⟨middle, freed, done⟩ := bind_ok.mp done
    obtain ⟨-, rfl⟩ := kheapFree_ok freed
    obtain ⟨-, rfl⟩ := kheapFree_ok done
    exact Store.Adds.refl.erase.erase

theorem walk_adds :
    ∀ {rest : List Text} {heap : Kheap} {current : Ptr}, heap.lookup 0 = none →
      fat16WalkParts machine fatPrivate heap current rest = .ok (ptr, heap') → AddsPlain heap heap' := by
  intro rest
  induction rest with
  | nil =>
    intro heap current _ done
    cases done
    exact .refl
  | cons name rest ih =>
    intro heap current noNull done
    rcases walk_ok done with rfl | ⟨directory, next, found, later, looked, freed, onwards⟩
    · exact .refl
    · have spares : SparesOthers heap later := (getItem_spares noNull looked).trans (itemFree_spares freed)
      have first : AddsPlain heap later := (getItem_adds noNull looked).trans (itemFree_adds freed).plain
      exact first.trans (ih (spares.noNull noNull) onwards)

theorem getEntry_adds {name : Text} {rest : List Text} (noNull : heap.lookup 0 = none)
    (done : fat16GetDirectoryEntry machine fatPrivate heap name rest = .ok (ptr, heap')) :
    AddsPlain heap heap' := by
  obtain ⟨root, found, looked, same | walked⟩ := getEntry_ok done
  · subst same
    exact getItem_adds noNull looked
  · have spares : SparesOthers heap found := getItem_spares noNull looked
    exact (getItem_adds noNull looked).trans (walk_adds (spares.noNull noNull) walked)

theorem fat16Open_adds {name : Text} {rest : List Text} {mode : FileMode} {res : Int}
    (noNull : heap.lookup 0 = none)
    (done : fat16Open machine fatPrivate heap name rest mode = .ok (res, heap')) :
    AddsPlain heap heap' := by
  by_cases reading : mode = .read
  swap
  · rw [fat16Open_other reading] at done
    cases done
    exact .refl
  subst reading
  by_cases granted : Store.Grants machine.allocator heap 8
  swap
  · rw [fat16Open_refused granted] at done
    cases done
    exact fun _ _ => .inl
  rw [fat16Open_granted granted] at done
  obtain ⟨⟨item, later⟩, walked, done⟩ := bind_ok.mp done
  have describes : AddsPlain heap (describing machine heap) :=
    .zalloc (@Store.zalloc_granted _ machine.allocator heap 8 (.fatDescriptor ⟨0, 0⟩) granted) trivial
  have adds := describes.trans (getEntry_adds (describing_noNull noNull) walked)
  dsimp only at done
  split_ifs at done
  · cases done
    exact adds
  · cases done
    exact adds.put trivial

/-- **A descriptor in the heap after an `fopen`** was there before, or has been put into the first free
slot. -/
theorem fopen_adds {kernel kernel' : Kernel} {filename modeStr : CString} {fd : Int}
    {record : FileDescriptor} (noNull : kernel.heap.lookup 0 = none)
    (done : fopen machine kernel filename modeStr = .ok (fd, kernel'))
    (found : kernel'.heap.lookup ptr = some (.fileDescriptor record)) :
    kernel.heap.lookup ptr = some (.fileDescriptor record) ∨ ∃ slot,
      freeSlot kernel.filedescriptors = some slot ∧
      kernel'.filedescriptors = setSlot kernel.filedescriptors slot ptr := by
  unfold fopen at done
  obtain ⟨⟨res, last⟩, done, result⟩ := bind_ok.mp done
  cases result
  obtain ⟨pathRoot, allocated, status, parsed, allocates, parses, stopped⟩ := fopenRes_ok done
  have first : AddsPlain kernel.heap allocated := .zalloc allocates trivial
  have adds : AddsPlain kernel.heap parsed := first.trans (parseRoot_adds parses)
  rcases stopped with ⟨-, rfl⟩ | ⟨-, _, opened, ⟨_, _, _, _, _, _, -, -, -, -, -, -, opens⟩, result⟩
  · exact .inl (adds.old found)
  have adds' := adds.trans (fat16Open_adds ((parse_spares allocates parses).1.noNull noNull) opens)
  rcases result with ⟨-, rfl⟩ | ⟨-, slot, desc, created, free, -, -, -, -, -, rfl⟩
  · exact .inl (AddsPlain.old adds' found)
  by_cases at_desc : ptr = desc
  · subst at_desc
    exact .inr ⟨slot, free, rfl⟩
  · exact .inl (AddsPlain.old adds' ((Store.lookup_put_ne at_desc).symm.trans found))

end Adds

end KernelPlay
