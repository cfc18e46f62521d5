/-
**The boot loader's transfer: `ata_lba_read` of `boot/boot.asm`.**

It sends the same registers as `read_from_disk` and takes the words in the same way, but it does not wait for
the drive first, and its sector loop counts `ecx` down to 0. `ataLbaRead_eq` — with a count that is not 0 it is
the transfer of `read_from_disk` from its first register on.

`ataLbaRead_delivers_iff` — so it delivers exactly if a call of `read_from_disk` would and the drive is
idle.
`load32_loads` — the kernel of 100 sectors behind the boot sector comes to lie at `0x00100000`.
-/

import KernelPlay.Disk.Delivery

namespace KernelPlay

open KernelPlay.Library

/-- The transfer of `eax`, `ecx` and `edi`. The `loop` instruction lessens `ecx` before it is compared with
0. -/
def ataLbaRead (eax ecx edi : UInt32) : Transfer where
  file :=
    { head := ((eax >>> 24) ||| 0xE0).toUInt8
      count := ecx.toUInt8
      low := eax.toUInt8
      mid := (eax >>> 8).toUInt8
      high := (eax >>> 16).toUInt8 }
  sectors := if ecx = 0 then 4294967296 else ecx.toNat
  buf := edi.toNat

/-- What `load32` calls. -/
def load32 : Transfer := ataLbaRead 1 100 0x00100000

section Loader

variable {ata : Ata} {eax ecx edi : UInt32} {memory : Nat → UInt8} {file : TaskFile}

/-- A byte by its value. -/
theorem ofInt_eq_toUInt8 {value : Int} {word : UInt32} (same : value % 256 = word.toNat % 256) :
    UInt8.ofInt value = word.toUInt8 := by
  have byte := ofInt_toNat value
  rw [← UInt8.toNat_inj, UInt32.toNat_toUInt8]
  omega

theorem shift_byte (word : UInt32) {shift : UInt32} (small : shift.toNat < 32) :
    UInt8.ofInt ((word.toNat : Int) >>> shift.toNat) = (word >>> shift).toUInt8 := by
  refine ofInt_eq_toUInt8 ?_
  rw [UInt32.toNat_shiftRight, Nat.mod_eq_of_lt small]
  rfl

/-- **The two programs send the same registers** and take the same words. -/
theorem ataLbaRead_eq (counts : ecx ≠ 0) :
    ataLbaRead eax ecx edi = readFromDisk eax.toNat ecx.toNat edi.toNat := by
  have low : UInt8.ofInt eax.toNat = eax.toUInt8 := ofInt_eq_toUInt8 rfl
  have count : UInt8.ofInt ecx.toNat = ecx.toUInt8 := ofInt_eq_toUInt8 rfl
  have mid := shift_byte eax (show (8 : UInt32).toNat < 32 by decide)
  have high := shift_byte eax (show (16 : UInt32).toNat < 32 by decide)
  have head := shift_byte eax (show (24 : UInt32).toNat < 32 by decide)
  have mask : (eax >>> 24 ||| 0xE0).toUInt8 = (eax >>> 24).toUInt8 ||| 0xE0 := UInt32.toUInt8_or _ _
  have whole : eax.toUInt8 &&& 0xFF = eax.toUInt8 := UInt8.and_neg_one
  simp only [ataLbaRead, readFromDisk, low, count, mask, if_neg counts, Int.toNat_natCast, whole]
  rw [← mid, ← high, ← head]
  rfl

/-- With a count of 0 the loop makes `2 ^ 32` turns. -/
theorem ataLbaRead_zero : ¬ Serviceable ata (ataLbaRead eax 0 edi) := by
  intro serviceable
  have exact : (4294967296 : Nat) = 256 := serviceable.exact
  omega

theorem ataLbaRead_serviceable :
    Serviceable ata (ataLbaRead eax ecx edi) ↔
      (1 ≤ ecx.toNat ∧ ecx.toNat ≤ 256) ∧ eax.toNat / 268435456 % 2 = 0 ∧
        ReadsQuietly ata eax.toNat ecx.toNat := by
  by_cases counts : ecx = 0
  · subst counts
    refine iff_of_false ataLbaRead_zero fun serves => ?_
    have none : (1 : Nat) ≤ (0 : UInt32).toNat := serves.1.1
    cases none
  · rw [ataLbaRead_eq counts, readFromDisk_serviceable]
    norm_cast

/-- From an idle drive, a serviceable transfer of the loader delivers. -/
theorem ataLbaRead_delivers (space : edi.toNat + 512 * ecx.toNat ≤ 4294967296)
    (serviceable : Serviceable ata (ataLbaRead eax ecx edi)) :
    TransferDelivers ata (ataLbaRead eax ecx edi)
      ((ataLbaRead eax ecx edi).start .head memory, ⟨file, .idle⟩) := by
  refine Stands.head.delivers serviceable ?_
  have counts : ecx ≠ 0 := by
    rintro rfl
    exact ataLbaRead_zero serviceable
  rw [ataLbaRead_eq counts]
  simpa [readFromDisk] using space

/-- **The loader delivers exactly if** the drive is idle, 1 to 256 sectors of the first drive are asked for,
and the drive can read them and shows no request bit while it fetches. -/
theorem ataLbaRead_delivers_iff (ata : Ata) (space : edi.toNat + 512 * ecx.toNat ≤ 4294967296)
    (memory : Nat → UInt8) (file : TaskFile) {activity : Activity}
    (rests : activity = .settling ∨ activity = .idle) :
    TransferDelivers ata (ataLbaRead eax ecx edi)
        ((ataLbaRead eax ecx edi).start .head memory, ⟨file, activity⟩) ↔
      activity = .idle ∧ (1 ≤ ecx.toNat ∧ ecx.toNat ≤ 256) ∧ eax.toNat / 268435456 % 2 = 0 ∧
        ReadsQuietly ata eax.toNat ecx.toNat := by
  have here : Comes ata (ataLbaRead eax ecx edi)
      ((ataLbaRead eax ecx edi).start .head memory, ⟨file, activity⟩) .head ⟨file, activity⟩ :=
    ⟨_, .refl _, rfl⟩
  rw [← ataLbaRead_serviceable]
  rcases rests with rfl | rfl
  · refine iff_of_false (here.refused rfl fun answer next serves => ?_) fun serves => ?_
    · cases serves
    · cases serves.1
  · exact ⟨fun delivers => ⟨rfl, delivers.serviceable (comes_command here)⟩,
      fun served => ataLbaRead_delivers space served.2⟩

/-- **The kernel is loaded**: whatever the drive does in between, the loader ends with the 51200 bytes behind
the boot sector at `0x00100000`. -/
theorem load32_loads (idle : ∀ i, i < 100 → ata.readable (1 + i) ∧
      ∀ status, ata.shows (.fetching (1 + i) (100 - i)) status → status &&& 0x08 = 0)
    {last : PortState × AtaState}
    (reaches : Reaches (transferHost load32) ata.device (load32.start .head memory, ⟨file, .idle⟩) last)
    (returned : last.1.point = .returned) {offset : Nat} (inside : offset < 51200) :
    last.1.memory (0x00100000 + offset) = ata.drive.image (512 + offset) := by
  have delivers : TransferDelivers ata load32 (load32.start .head memory, ⟨file, .idle⟩) := by
    refine ataLbaRead_delivers (by decide) (ataLbaRead_serviceable.mpr ⟨by decide, by decide, fun i below => ?_⟩)
    have inside : i < 100 := Int.ofNat_lt.mp below
    exact idle i inside
  have lba : load32.file.lba = 1 := by decide
  have buf : load32.buf = 0x00100000 := rfl
  have sectors : load32.sectors = 100 := rfl
  rw [(delivers.delivered last reaches returned).2, filled, lba, buf, sectors, if_pos (by omega),
    Nat.add_sub_cancel_left, Nat.mul_one]

end Loader

theorem ataLbaRead_delivers_two :
    TransferDelivers (plainAta ⟨fun lba index => UInt8.ofNat (lba.toNat + index), fun _ => 0⟩ 8)
      (ataLbaRead 1 2 0x8000) ((ataLbaRead 1 2 0x8000).start .head (fun _ => 0), ⟨⟨0, 0, 0, 0, 0⟩, .idle⟩) :=
  (ataLbaRead_delivers_iff _ (by decide) _ _ (.inr rfl)).mpr
    ⟨rfl, by decide, by decide, plainAta_quiet (by decide) (by decide) (by decide)⟩

end KernelPlay
