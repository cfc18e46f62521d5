/-
**What the scan of a directory looks at.**

`positionsRead` — where the loop of `fat16_get_total_items_for_directory` reads an entry; nothing else
of the disk matters to it (`fat16CountItems_congr`). `ScansWithin` — the scan ends, and what it looks
at are slots of the directory. `scans_within_iff` — that is so exactly if one of the slots that lie one
behind the other from the first on begins with `0x00`. `directory_scanned_iff` puts it together for the
root directory and the chain of a subdirectory; `directory_scanned_fails` is a full root directory.
-/

import KernelPlay.Fat.Lookup

namespace KernelPlay

open KernelPlay.Library

/-! ### The loop -/

section Loop

variable (drive : Drive)

/-- Where the loop reads an entry. -/
def positionsRead : Nat → DiskStreamer → List Int
  | 0, _ => []
  | turns + 1, ds =>
    let read := diskStreamerReadBytes drive ds 32
    if read.res ≠ ok ∨ read.bytes.getD 0 0 = 0x00 then [ds.pos]
    else ds.pos :: positionsRead turns read.streamer

variable {drive}

theorem first_read {turns : Nat} {ds : DiskStreamer} :
    (positionsRead drive (turns + 1) ds)[0]? = some ds.pos := by
  rw [positionsRead]
  split_ifs
  · rfl
  · rfl

/-- **Nothing but the entries read matters to the count.** -/
theorem fat16CountItems_congr {other : Drive} :
    ∀ (turns : Nat) (ds : DiskStreamer) (count : Int),
      (∀ pos ∈ positionsRead drive turns ds, diskStreamerReadBytes other { ds with pos := pos } 32 =
        diskStreamerReadBytes drive { ds with pos := pos } 32) →
      positionsRead other turns ds = positionsRead drive turns ds ∧
        fat16CountItems other turns ds count = fat16CountItems drive turns ds count := by
  intro turns
  induction turns with
  | zero => exact fun _ _ _ => ⟨rfl, rfl⟩
  | succ turns ih =>
    intro ds count agree
    have disk : (diskStreamerReadBytes drive ds 32).streamer.disk = ds.disk := by
      generalize (diskStreamerReadBytes drive ds 32).streamer.disk = first
      generalize ds.disk = second
      cases first
      cases second
      rfl
    have here : diskStreamerReadBytes other ds 32 = diskStreamerReadBytes drive ds 32 :=
      agree ds.pos (List.mem_of_getElem? first_read)
    rw [positionsRead] at agree
    rw [positionsRead, positionsRead, fat16CountItems, fat16CountItems, here]
    by_cases stops : (diskStreamerReadBytes drive ds 32).res ≠ ok ∨
        (diskStreamerReadBytes drive ds 32).bytes.getD 0 0 = 0x00
    · rw [if_pos stops, if_pos stops]
      refine ⟨rfl, ?_⟩
      rcases stops with failed | zero
      · rw [if_pos failed, if_pos failed]
      · rw [if_pos zero, if_pos zero]
    · rw [if_neg stops] at agree
      have rest := ih (diskStreamerReadBytes drive ds 32).streamer
      rw [disk] at rest
      have onwards (count : Int) := rest count fun pos member =>
        agree pos (List.mem_cons_of_mem _ member)
      rw [if_neg stops, if_neg stops, (onwards count).1, (onwards count).2, (onwards _).2]
      exact ⟨rfl, rfl⟩

/-- The loop reads the entries of a directory and the one that ends it. -/
theorem positionsRead_eq (disk : DiskPtr) :
    ∀ (entries : List FatDirectoryItem) (turns base : Nat), EntriesAt drive base entries →
      base + 32 * (entries.length + 1) ≤ 2147483648 → entries.length < turns →
      positionsRead drive turns ⟨base, disk⟩ =
        window (fun index => ((base + 32 * index : Nat) : Int)) 0 (entries.length + 1) := by
  intro entries
  induction entries with
  | nil =>
    intro turns base ended below enough
    obtain ⟨turns, rfl⟩ := Nat.exists_eq_add_of_lt enough
    rw [List.length_nil] at below
    have first : (window drive.image base 32).getD 0 0 = 0 := by
      rw [window_getD _ (by omega), Nat.add_zero]
      exact ended
    rw [positionsRead, read_item disk (by omega)]
    dsimp only
    rw [first, if_pos (.inr rfl), List.length_nil, window_succ, window_zero]
    rfl
  | cons entry rest ih =>
    intro turns base listed below enough
    obtain ⟨turns, rfl⟩ : ∃ left, turns = left + 1 := ⟨turns - 1, by omega⟩
    rw [List.length_cons] at below enough
    obtain ⟨rfl, nonzero, behind⟩ := listed
    have first : (window drive.image base 32).getD 0 0 = (itemAt drive base).bytes 0 :=
      window_getD _ (by omega) _
    have next : int32 ((base + 32 : Nat) : Int) = ((base + 32 : Nat) : Int) :=
      int32_of_range (by omega) (by omega)
    have goes : ¬ (ok ≠ ok ∨ (itemAt drive base).bytes 0 = 0x00) := by
      rintro (failed | zero)
      · exact failed rfl
      · exact nonzero zero
    rw [positionsRead, read_item disk (by omega)]
    dsimp only
    rw [first, if_neg goes, next, ih turns (base + 32) behind (by omega) (by omega), List.length_cons,
      window_succ _ 0 (rest.length + 1), List.cons.injEq, Nat.mul_zero, Nat.add_zero]
    refine ⟨rfl, List.ext_getElem (by simp) fun index below _ => ?_⟩
    rw [window_getElem, window_getElem]
    omega

/-- A slot that begins with `0x00` ends a directory, there or before. -/
theorem entriesAt_of_zero :
    ∀ (last base : Nat), drive.image (base + 32 * last) = 0x00 →
      ∃ entries, EntriesAt drive base entries ∧ entries.length ≤ last := by
  intro last
  induction last with
  | zero => exact fun base ended => ⟨[], ended, le_rfl⟩
  | succ last ih =>
    intro base ended
    by_cases zero : drive.image base = 0x00
    · exact ⟨[], zero, Nat.zero_le _⟩
    · obtain ⟨entries, behind, within⟩ := ih (base + 32) (by rwa [show base + 32 + 32 * last =
        base + 32 * (last + 1) by omega])
      exact ⟨itemAt drive base :: entries, ⟨rfl, zero, behind⟩, Nat.succ_le_succ within⟩

/-- A scan that ends, and looks at no position below zero, has come to a directory's end. -/
theorem entriesAt_of_scan (disk : DiskPtr) :
    ∀ (turns base : Nat) (count total : Int),
      fat16CountItems drive turns ⟨base, disk⟩ count = .ok total → base % 32 = 0 →
      base < 2147483648 → (∀ pos ∈ positionsRead drive turns ⟨base, disk⟩, 0 ≤ pos) →
      ∃ entries, EntriesAt drive base entries ∧ base + 32 * (entries.length + 1) ≤ 2147483648 ∧
        entries.length < turns := by
  intro turns
  induction turns with
  | zero =>
    intro base count total ended
    cases ended
  | succ turns ih =>
    intro base count total ended aligned inside positions
    rw [fat16CountItems, read_item disk (by omega)] at ended
    rw [positionsRead, read_item disk (by omega)] at positions
    dsimp only at ended positions
    have first : (window drive.image base 32).getD 0 0 = (itemAt drive base).bytes 0 :=
      window_getD _ (by omega) _
    rw [first] at ended positions
    rw [if_neg (not_not.mpr rfl)] at ended
    by_cases zero : (itemAt drive base).bytes 0 = 0x00
    · exact ⟨[], zero, by rw [List.length_nil]; omega, Nat.succ_pos turns⟩
    have goes : ¬ (ok ≠ ok ∨ (itemAt drive base).bytes 0 = 0x00) := by
      rintro (failed | zero')
      · exact failed rfl
      · exact zero zero'
    rw [if_neg goes] at positions
    rw [if_neg zero] at ended
    -- Whether the entry counts or not, the scan goes on behind it.
    have onwards {count : Int}
        (ended : fat16CountItems drive turns ⟨int32 ((base + 32 : Nat) : Int), disk⟩ count = .ok total) :
        ∃ entries, EntriesAt drive base entries ∧ base + 32 * (entries.length + 1) ≤ 2147483648 ∧
          entries.length < turns + 1 := by
      have nonneg : 0 ≤ int32 ((base + 32 : Nat) : Int) := by
        generalize int32 ((base + 32 : Nat) : Int) = next at *
        refine positions next (List.mem_cons_of_mem _ ?_)
        cases turns with
        | zero => cases ended
        | succ turns => exact List.mem_of_getElem? (@first_read drive turns ⟨next, disk⟩)
      have room : base + 32 < 2147483648 := by
        by_contra far
        obtain rfl : base = 2147483616 := by omega
        exact absurd nonneg (by decide)
      rw [int32_of_range (by omega) (by omega)] at ended positions
      obtain ⟨entries, behind, below, short⟩ := ih (base + 32) _ _ ended (by omega) room
        fun pos member => positions pos (List.mem_cons_of_mem _ member)
      refine ⟨itemAt drive base :: entries, ⟨rfl, zero, behind⟩, ?_, ?_⟩
      · rw [List.length_cons]
        omega
      · exact Nat.succ_lt_succ short
    split_ifs at ended with deleted
    · exact onwards ended
    · exact onwards ended

theorem EntriesAt.ended :
    ∀ {entries : List FatDirectoryItem} {base : Nat}, EntriesAt drive base entries →
      drive.image (base + 32 * entries.length) = 0x00 := by
  intro entries
  induction entries with
  | nil => exact fun ended => ended
  | cons entry rest ih =>
    intro base listed
    have ended := ih listed.2.2
    rwa [show base + 32 + 32 * rest.length = base + 32 * (entry :: rest).length by
      rw [List.length_cons]
      omega] at ended

end Loop

/-! ### Directories -/

/-- **The scan from the sector on stays inside a directory** with its slots at these places: it ends, it
looks at nothing but slots, one after the other, and its total is not larger than the number of entries
the buffer has room for. -/
structure ScansWithin (drive : Drive) (fatPrivate : FatPrivate) (sector : Int)
    (place : Nat → Option Nat) (room : Int → Nat) : Prop where
  ends : ∃ total, fat16GetTotalItemsForDirectory fatPrivate drive sector = .ok total ∧ total ≤ room total
  inside : ∀ (index : Nat) pos, (positionsRead drive directoryTurns
      (diskStreamerSeekPos fatPrivate.directoryStream (sectorPosToBytesOffset sector)))[index]? = some pos →
    ∃ slot, place index = some slot ∧ pos = slot

/-- **One of the slots that lie one behind the other from the first on begins with `0x00`**, below
`2 ^ 31`. -/
def EndsInLine (drive : Drive) (place : Nat → Option Nat) : Prop :=
  ∃ base last, (∀ index, index ≤ last → place index = some (base + 32 * index)) ∧
    base + 32 * (last + 1) ≤ 2147483648 ∧ drive.image (base + 32 * last) = 0x00

section Scan

variable {drive : Drive} {fatPrivate : FatPrivate}

/-- **A scan stays inside its directory** exactly if the directory ends in line. -/
theorem scans_within_iff {sector : Int} {place : Nat → Option Nat} {room : Int → Nat}
    (start : ∀ base, place 0 = some base → ∃ first : Nat, sector = first ∧ base = first * 512)
    (fits : ∀ index, place index ≠ none → index < 67108864 → ∀ count : Nat, count ≤ index →
      (count : Int) ≤ room count) :
    ScansWithin drive fatPrivate sector place room ↔ EndsInLine drive place := by
  have enough : 67108864 < directoryTurns := by
    unfold directoryTurns
    omega
  constructor
  · rintro ⟨⟨total, counts, -⟩, inside⟩
    unfold fat16GetTotalItemsForDirectory at counts
    generalize directoryTurns = turns at *
    obtain ⟨turns, rfl⟩ : ∃ left, turns = left + 1 := ⟨turns - 1, by omega⟩
    have low := (int32_range (diskSectorSize * sector)).2
    have seeks : diskStreamerSeekPos fatPrivate.directoryStream (sectorPosToBytesOffset sector) =
        ⟨int32 (diskSectorSize * sector), fatPrivate.directoryStream.disk⟩ := rfl
    rw [seeks] at counts inside
    generalize int32 (diskSectorSize * sector) = position at *
    obtain ⟨base, at_first, first⟩ := inside 0 position first_read
    subst first
    obtain ⟨sector, rfl, rfl⟩ := start base at_first
    obtain ⟨entries, listed, below, short⟩ := entriesAt_of_scan _ _ _ _ _ counts (by omega) (by omega)
      fun pos member => by
        obtain ⟨index, found⟩ := List.mem_iff_getElem?.mp member
        obtain ⟨slot, -, rfl⟩ := inside index pos found
        exact Int.natCast_nonneg slot
    refine ⟨sector * 512, entries.length, fun index within => ?_, below, listed.ended⟩
    rw [positionsRead_eq _ entries _ _ listed below short] at inside
    have inside_window : index < (window (fun index : Nat =>
        ((sector * 512 + 32 * index : Nat) : Int)) 0 (entries.length + 1)).length := by
      rw [window_length]
      omega
    obtain ⟨slot, found, same⟩ := inside index _ (List.getElem?_eq_getElem inside_window)
    rw [window_getElem, Nat.zero_add] at same
    rw [found, Int.ofNat.inj same]
  · rintro ⟨base, last, line, below, zero⟩
    obtain ⟨sector, rfl, rfl⟩ := start base (line 0 (Nat.zero_le _))
    obtain ⟨entries, listed, within⟩ := entriesAt_of_zero last (sector * 512) zero
    have position : sectorPosToBytesOffset sector = ((sector * 512 : Nat) : Int) :=
      sectorPosToBytesOffset_eq (by omega)
    refine ⟨⟨_, fat16GetTotalItemsForDirectory_eq listed (by omega), ?_⟩, fun index pos found => ?_⟩
    · refine fits entries.length ?_ (by omega) _ (counted_le entries)
      rw [line _ within]
      exact Option.some_ne_none _
    · rw [position, diskStreamerSeekPos, positionsRead_eq _ entries _ _ listed (by omega) (by omega)]
        at found
      obtain ⟨inside, rfl⟩ := List.getElem?_eq_some_iff.mp found
      rw [window_length] at inside
      refine ⟨_, line index (by omega), ?_⟩
      rw [window_getElem, Nat.zero_add]

instance decidableDataNumber (value : Int) : Decidable (IsDataNumber value) :=
  inferInstanceAs (Decidable (2 ≤ value ∧ value ≤ 0xFFEF))

/-- Where the slots of the root directory lie. -/
def rootPlace (header : FatHeader) (index : Nat) : Option Nat :=
  if index < header.rootDirEntries.toNat then some (header.rootStart * 512 + 32 * index) else none

/-- Where the slots of a subdirectory lie: in the clusters of its chain, in the order of the chain. -/
def chainPlace (drive : Drive) (fatPrivate : FatPrivate) (start : Int) (index : Nat) : Option Nat :=
  let step := 32 * index / fatPrivate.header.clusterBytes
  if fatPrivate.header.clusterBytes ≠ 0 ∧
      ∀ before, before < step + 1 → IsDataNumber (fatRoute drive fatPrivate start before) then
    some (fatPrivate.header.clusterSector (fatRoute drive fatPrivate start step) * 512 +
      32 * index % fatPrivate.header.clusterBytes)
  else none

/-- The scan of the root directory stays inside it; its buffer has room for `root_dir_entries`. -/
def RootScanned (drive : Drive) (fatPrivate : FatPrivate) : Prop :=
  ScansWithin drive fatPrivate fatPrivate.header.rootStart (rootPlace fatPrivate.header)
    fun _ => fatPrivate.header.rootDirEntries.toNat

/-- The scan of a subdirectory stays inside it; its buffer is made for the total. -/
def SubdirectoryScanned (drive : Drive) (fatPrivate : FatPrivate) (entry : FatDirectoryItem) : Prop :=
  ScansWithin drive fatPrivate (fat16ClusterToSector fatPrivate (fat16GetFirstCluster entry))
    (chainPlace drive fatPrivate (fat16GetFirstCluster entry)) fun total =>
      entriesOf (int32 (total * 32))

theorem root_scanned_iff : RootScanned drive fatPrivate ↔ EndsInLine drive (rootPlace fatPrivate.header) := by
  refine scans_within_iff (fun base first => ?_) fun index some _ count within => ?_
  · unfold rootPlace at first
    split_ifs at first
    cases first
    refine ⟨fatPrivate.header.rootStart, rfl, ?_⟩
    rw [Nat.mul_zero, Nat.add_zero]
  · unfold rootPlace at some
    split_ifs at some with inside
    · omega
    · exact absurd rfl some

theorem subdirectory_scanned_iff (mounted : Mounted drive fatPrivate) (entry : FatDirectoryItem) :
    SubdirectoryScanned drive fatPrivate entry ↔
      EndsInLine drive (chainPlace drive fatPrivate (fat16GetFirstCluster entry)) := by
  refine scans_within_iff (fun base first => ?_) fun index _ small count within => ?_
  · unfold chainPlace at first
    dsimp only at first
    split_ifs at first with inside
    cases first
    have data := inside.2 0 (Nat.succ_pos _)
    rw [fatRoute_zero] at data
    refine ⟨fatPrivate.header.clusterSector (fat16GetFirstCluster entry),
      fat16ClusterToSector_eq mounted data, ?_⟩
    rw [Nat.mul_zero, Nat.zero_div, Nat.zero_mod, Nat.add_zero, fatRoute_zero]
  · rw [int32_of_range (by omega) (by omega), entriesOf, uint32_of_range (by omega) (by omega)]
    omega

/-- A directory in one cluster, its end included, ends in line. -/
theorem endsInLine_of_stored {entry : FatDirectoryItem} {entries : List FatDirectoryItem}
    (stored : DirectoryAt drive fatPrivate.header entry entries) :
    EndsInLine drive (chainPlace drive fatPrivate (fat16GetFirstCluster entry)) := by
  obtain ⟨-, data, below, fits, listed⟩ := stored
  unfold FatHeader.Below at below
  refine ⟨fatPrivate.header.clusterSector (fat16GetFirstCluster entry) * 512, entries.length,
    fun index within => ?_, by omega, listed.ended⟩
  have first : 32 * index / fatPrivate.header.clusterBytes = 0 := Nat.div_eq_of_lt (by omega)
  have place : 32 * index % fatPrivate.header.clusterBytes = 32 * index := Nat.mod_eq_of_lt (by omega)
  unfold chainPlace
  dsimp only
  rw [first, place, fatRoute_zero]
  refine if_pos ⟨by omega, fun before inside => ?_⟩
  rw [Nat.lt_one_iff.mp inside, fatRoute_zero]
  exact data

/-- **The scan of a directory stays inside it** exactly if one of the slots that lie one behind the
other from the first on begins with `0x00`. -/
theorem directory_scanned_iff (drive : Drive) (fatPrivate : FatPrivate) :
    (RootScanned drive fatPrivate ↔ EndsInLine drive (rootPlace fatPrivate.header)) ∧
      (Mounted drive fatPrivate → ∀ entry, SubdirectoryScanned drive fatPrivate entry ↔
        EndsInLine drive (chainPlace drive fatPrivate (fat16GetFirstCluster entry))) :=
  ⟨root_scanned_iff, subdirectory_scanned_iff⟩

end Scan

/-! ### A full root directory -/

section Small

/-- Sixteen files: as many as the root directory has room for. -/
def sixteenFiles : List FatDirectoryItem := List.replicate 16 (namedEntry 65 0 0)

/-- A directory with the file `A`. -/
def oneFile : List FatDirectoryItem := [namedEntry 65 0 0]

/-- The volume with the full root directory, and a byte of data behind it. -/
def fullDrive : Drive := treeDrive sixteenFiles oneFile

theorem full_mounted : Mounted fullDrive smallPrivate where
  header := by decide
  sectorPos := by decide
  endingSectorPos := by decide

/-- The scan counts the data behind the full directory, and stays not inside it. -/
theorem directory_scanned_fails :
    Mounted fullDrive smallPrivate ∧
      fat16GetTotalItemsForDirectory smallPrivate fullDrive smallPrivate.header.rootStart = .ok 17 ∧
      smallPrivate.header.rootDirEntries.toNat = 16 ∧ ¬ RootScanned fullDrive smallPrivate := by
  have listed : EntriesAt fullDrive (smallPrivate.header.rootStart * 512)
      (List.replicate 17 (namedEntry 65 0 0)) := by
    decide
  have total := @fat16GetTotalItemsForDirectory_eq fullDrive smallPrivate _ _ listed (by decide)
  refine ⟨full_mounted, total, rfl, ?_⟩
  rintro ⟨⟨found, counts, within⟩, -⟩
  rw [total] at counts
  cases counts
  exact absurd within (by decide)

theorem oneFile_stored :
    DirectoryAt (treeDrive oneFile oneFile) smallHeader (namedEntry 68 0x10 2) oneFile where
  directory := by decide
  data := ⟨by decide, by decide⟩
  below := by
    unfold FatHeader.Below
    decide
  fits := by decide
  listed := by decide

/-- A root directory with one file, and a subdirectory with one file. -/
theorem directory_scanned_iff_small :
    SubdirectoryScanned (treeDrive oneFile oneFile) smallPrivate (namedEntry 68 0x10 2) := by
  have mounted : Mounted (treeDrive oneFile oneFile) smallPrivate :=
    ⟨by decide, by decide, by decide⟩
  exact ((directory_scanned_iff _ _).2 mounted _).mpr (endsInLine_of_stored oneFile_stored)

end Small

end KernelPlay
