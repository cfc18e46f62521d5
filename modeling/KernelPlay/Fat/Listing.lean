/-
**Directories as they lie on the disk, and what loading them yields.**

`EntriesAt base entries` — the entries lie one behind the other from the byte `base` on, and behind
them one whose first byte is `0x00`. The driver counts those that are not deleted
(`fat16GetTotalItemsForDirectory_eq`) and then loads as many slots from the start, deleted ones
included: `root_loaded` and `subdirectory_loaded`.
-/

import KernelPlay.Fat.Contents

namespace KernelPlay

open KernelPlay.Library

/-- The 32 bytes of the drive from `base` on. -/
def itemAt (drive : Drive) (base : Nat) : FatDirectoryItem :=
  ⟨fun index => drive.image (base + index)⟩

namespace FatDirectoryItem

variable (item : FatDirectoryItem)

def Deleted : Prop := item.firstByte = 0xE5

instance : Decidable item.Deleted := by
  unfold Deleted
  infer_instance

/-- A file or a subdirectory: neither deleted nor a volume label or part of a long name. -/
def Live : Prop := ¬ item.Deleted ∧ item.attributeByte &&& fatFileVolumeLabel = 0

instance : Decidable item.Live := by
  unfold Live
  infer_instance

def IsDirectory : Prop := item.attributeByte &&& fatFileSubdirectory ≠ 0

instance : Decidable item.IsDirectory := by
  unfold IsDirectory
  infer_instance

end FatDirectoryItem

/-- **A directory on the disk**: its entries, and the one that ends it. -/
def EntriesAt (drive : Drive) : Nat → List FatDirectoryItem → Prop
  | base, [] => drive.image base = 0x00
  | base, entry :: rest =>
    itemAt drive base = entry ∧ entry.bytes 0 ≠ 0x00 ∧ EntriesAt drive (base + 32) rest

instance decidableEntriesAt (drive : Drive) :
    ∀ (base : Nat) (entries : List FatDirectoryItem), Decidable (EntriesAt drive base entries)
  | base, [] => inferInstanceAs (Decidable (drive.image base = 0x00))
  | base, entry :: rest =>
    have := decidableEntriesAt drive (base + 32) rest
    inferInstanceAs (Decidable (itemAt drive base = entry ∧ entry.bytes 0 ≠ 0x00 ∧
      EntriesAt drive (base + 32) rest))

/-- The slots the driver counts: those not deleted. -/
def counted (entries : List FatDirectoryItem) : Nat :=
  entries.countP fun entry => ¬ entry.Deleted

theorem counted_le (entries : List FatDirectoryItem) : counted entries ≤ entries.length :=
  List.countP_le_length

theorem counted_of_none_deleted {entries : List FatDirectoryItem}
    (none : ∀ entry ∈ entries, ¬ entry.Deleted) : counted entries = entries.length := by
  refine List.countP_eq_length.mpr fun entry member => ?_
  simpa using none entry member

/-! ### Counting -/

section Counting

variable {drive : Drive}

theorem read_item (disk : DiskPtr) {base : Nat} (below : base + 32 ≤ 2147483648) :
    diskStreamerReadBytes drive ⟨base, disk⟩ 32 =
      ⟨ok, window drive.image base 32, ⟨int32 ((base + 32 : Nat) : Int), disk⟩⟩ :=
  diskStreamerReadBytes_window drive disk base 32 (by omega) below

theorem fat16CountItems_eq (disk : DiskPtr) :
    ∀ (entries : List FatDirectoryItem) (turns base count : Nat), EntriesAt drive base entries →
      base + 32 * (entries.length + 1) ≤ 2147483648 → entries.length < turns →
      count + entries.length < 2147483648 →
      fat16CountItems drive turns ⟨base, disk⟩ count = .ok ((count + counted entries : Nat) : Int)
  | _, 0, _, _, _, _, enough, _ => absurd enough (Nat.not_lt_zero _)
  | [], turns + 1, base, count, ended, below, _, _ => by
      rw [List.length_nil] at below
      have first : (window drive.image base 32).getD 0 0 = 0 := by
        rw [window_getD _ (by omega), Nat.add_zero]
        exact ended
      rw [fat16CountItems, read_item disk (by omega)]
      dsimp only
      rw [first, if_neg (not_not.mpr rfl), if_pos rfl]
      rfl
  | entry :: rest, turns + 1, base, count, entries, below, enough, small => by
      rw [List.length_cons] at below enough small
      obtain ⟨rfl, nonzero, behind⟩ := entries
      have first : (window drive.image base 32).getD 0 0 = (itemAt drive base).bytes 0 :=
        window_getD _ (by omega) _
      have next : int32 ((base + 32 : Nat) : Int) = ((base + 32 : Nat) : Int) :=
        int32_of_range (by omega) (by omega)
      rw [fat16CountItems, read_item disk (by omega)]
      dsimp only
      rw [first, if_neg (not_not.mpr rfl), if_neg nonzero, next]
      by_cases deleted : (itemAt drive base).Deleted
      · have unused : (itemAt drive base).bytes 0 = 0xE5 := deleted
        rw [if_pos unused, fat16CountItems_eq disk rest turns (base + 32) count behind (by omega)
          (by omega) (by omega), counted, counted, List.countP_cons_of_neg (by simpa using deleted)]
      · have more : int32 ((count : Int) + 1) = ((count + 1 : Nat) : Int) := by
          rw [int32_of_range (by omega) (by omega)]
          rfl
        have used : ¬ (itemAt drive base).bytes 0 = 0xE5 := deleted
        rw [if_neg used, more, fat16CountItems_eq disk rest turns (base + 32) (count + 1) behind
          (by omega) (by omega) (by omega), counted, counted,
          List.countP_cons_of_pos (by simpa using deleted), Nat.add_right_comm, Nat.add_assoc]

theorem sectorPosToBytesOffset_eq {sector : Nat} (below : sector * 512 < 2147483648) :
    sectorPosToBytesOffset sector = ((sector * 512 : Nat) : Int) := by
  unfold sectorPosToBytesOffset diskSectorSize
  rw [int32_of_range (by omega) (by omega)]
  omega

/-- **The count of a directory** on the disk is that of its entries not deleted. -/
theorem fat16GetTotalItemsForDirectory_eq {fatPrivate : FatPrivate} {sector : Nat}
    {entries : List FatDirectoryItem} (listed : EntriesAt drive (sector * 512) entries)
    (below : sector * 512 + 32 * (entries.length + 1) ≤ 2147483648) :
    fat16GetTotalItemsForDirectory fatPrivate drive sector = .ok (counted entries : Int) := by
  have position : sectorPosToBytesOffset sector = ((sector * 512 : Nat) : Int) :=
    sectorPosToBytesOffset_eq (by omega)
  have count := fat16CountItems_eq fatPrivate.directoryStream.disk entries directoryTurns (sector * 512)
    0 listed below (by unfold directoryTurns; omega) (by omega)
  rw [Nat.zero_add] at count
  unfold fat16GetTotalItemsForDirectory
  rw [position]
  exact count

end Counting

/-! ### Loading -/

section Loading

variable {drive : Drive}

theorem parse_window {base : Nat} :
    FatDirectoryItem.parse (window drive.image base 32) = itemAt drive base := by
  unfold FatDirectoryItem.parse itemAt
  congr 1
  funext index
  exact window_getD _ index.isLt _

/-- The bytes of `count` slots, as entries. -/
theorem parseAll_window (base count : Nat) :
    FatDirectoryItem.parseAll count (window drive.image base (32 * count)) =
      window (fun index => itemAt drive (base + 32 * index)) 0 count := by
  unfold FatDirectoryItem.parseAll
  refine window_congr fun index below => ?_
  rw [Nat.zero_add, ← parse_window]
  unfold FatDirectoryItem.parse
  congr 1
  funext place
  have inside := place.isLt
  rw [window_getD _ inside, List.getD_eq_getElem?_getD, List.getElem?_drop,
    ← List.getD_eq_getElem?_getD, window_getD _ (by omega), Nat.add_assoc]

/-- The slots of a directory on the disk are its entries, as far as there are any. -/
theorem slots_eq_take :
    ∀ (entries : List FatDirectoryItem) (base count : Nat), EntriesAt drive base entries →
      count ≤ entries.length →
      window (fun index => itemAt drive (base + 32 * index)) 0 count = entries.take count
  | _, _, 0, _, _ => by rw [window_zero, List.take_zero]
  | [], _, count + 1, _, within => by
      rw [List.length_nil] at within
      omega
  | entry :: rest, base, count + 1, listed, within => by
      obtain ⟨rfl, -, behind⟩ := listed
      rw [List.length_cons] at within
      rw [window_succ, List.take_succ_cons, ← slots_eq_take rest (base + 32) count behind (by omega)]
      congr 1
      refine List.ext_getElem (by simp) fun index below _ => ?_
      rw [window_length] at below
      rw [window_getElem, window_getElem]
      congr 1
      omega

/-- The slots a directory holds, and how many of them are looked at. -/
structure Holds (heap : Kheap) (directory : FatDirectory) (entries : List FatDirectoryItem) : Prop where
  total : directory.total = (counted entries : Int)
  items : ∃ items, heap.lookup directory.item = some (.directoryItems items) ∧
    counted entries ≤ items.length ∧ items.take (counted entries) = entries.take (counted entries)

variable {machine : Machine} {fatPrivate : FatPrivate} {heap heap' : Kheap}

/-- The root directory loads if its slots hold its entries and there is room for it. -/
theorem root_loads {entries : List FatDirectoryItem}
    (granted : Store.Grants machine.allocator heap (fatPrivate.header.rootDirEntries.toNat * 32))
    (listed : EntriesAt machine.drive (fatPrivate.header.rootStart * 512) entries)
    (within : entries.length ≤ fatPrivate.header.rootDirEntries.toNat)
    (below : fatPrivate.header.rootStart * 512 + 32 * (fatPrivate.header.rootDirEntries.toNat + 1) ≤
      2147483648) :
    ∃ heap', fat16GetRootDirectory machine fatPrivate heap =
      .ok (0, ⟨Store.nextPtr machine.allocator heap (fatPrivate.header.rootDirEntries.toNat * 32),
        counted entries, fatPrivate.header.rootStart, fatPrivate.header.dataStart⟩, heap') := by
  have size : ((fatPrivate.header.rootDirEntries.toNat : Int) * 32) =
      ((fatPrivate.header.rootDirEntries.toNat * 32 : Nat) : Int) := by
    push_cast
    rfl
  have position : sectorPosToBytesOffset fatPrivate.header.rootStart =
      ((fatPrivate.header.rootStart * 512 : Nat) : Int) :=
    sectorPosToBytesOffset_eq (by omega)
  unfold fat16GetRootDirectory
  simp only [rootStart_eq, rootSectors_eq]
  rw [fat16GetTotalItemsForDirectory_eq listed (by omega), ok_bind, if_neg (by omega), size,
    Int.toNat_natCast, Store.zalloc_granted granted]
  dsimp only
  rw [if_neg Store.nextPtr_ne_zero, position, diskStreamerSeekPos,
    diskStreamerReadBytes_window machine.drive _ _ _ (by omega) (by omega), if_neg (not_not.mpr rfl)]
  exact ⟨_, rfl⟩

/-- **The root directory loaded** holds its entries, if its slots do. -/
theorem root_loaded {directory : FatDirectory} {entries : List FatDirectoryItem}
    (done : fat16GetRootDirectory machine fatPrivate heap = .ok (0, directory, heap'))
    (listed : EntriesAt machine.drive (fatPrivate.header.rootStart * 512) entries)
    (within : entries.length ≤ fatPrivate.header.rootDirEntries.toNat)
    (below : fatPrivate.header.rootStart * 512 + 32 * (fatPrivate.header.rootDirEntries.toNat + 1) ≤
      2147483648) : Holds heap' directory entries := by
  obtain ⟨totalItems, count, -, rfl, rfl⟩ := fat16GetRootDirectory_ok done
  rw [fat16GetTotalItemsForDirectory_eq listed (by omega)] at count
  cases count
  have position : sectorPosToBytesOffset fatPrivate.header.rootStart =
      ((fatPrivate.header.rootStart * 512 : Nat) : Int) :=
    sectorPosToBytesOffset_eq (by omega)
  have fewer := counted_le entries
  refine ⟨rfl, _, Store.lookup_put_self, ?_⟩
  rw [position, diskStreamerSeekPos,
    diskStreamerReadBytes_window machine.drive _ _ _ (by omega) (by omega),
    Nat.mul_comm _ 32, parseAll_window]
  refine ⟨by rw [window_length]; omega, ?_⟩
  rw [← slots_eq_take entries _ _ listed fewer, window_take _ (by omega)]

end Loading

end KernelPlay
