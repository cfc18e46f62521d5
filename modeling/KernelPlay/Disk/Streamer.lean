/-
**The disk streamer of `disk/streamer.c`, over the sectors of `disk/disk.c`.**

`diskStreamerReadBytes` reads a request sector by sector from any position.
`diskStreamerReadBytes_window` — from a position that is not negative, while every byte of the
request lies below `2 ^ 31`, it delivers the window of the disk's image at the position and leaves
the position behind it. `diskStreamerReadBytes_res` and `diskStreamerReadBytes_length` hold at every
position.
-/

import KernelPlay.Config
import KernelPlay.Library.Machine
import KernelPlay.Library.Window

namespace KernelPlay

open KernelPlay.Library

/-- The disk as the drive delivers it: the bytes of each sector by its block address, and the bytes
of the stack in front of a sector buffer, which a negative offset reaches. -/
structure Drive where
  sector : Int → Nat → UInt8
  belowBuffer : Int → UInt8

/-- `disk_t *`: there is one disk object. -/
inductive DiskPtr
  | rootDisk
  deriving DecidableEq, Repr

def diskGet (index : Int) : Option DiskPtr := if index ≠ 0 then none else some .rootDisk

/-- The status of `disk_read_sector` and the sector it puts in the buffer. -/
def diskReadSector (drive : Drive) (idisk : DiskPtr) (lba : Int) : Int × (Nat → UInt8) :=
  if idisk ≠ .rootDisk then (-eio, fun _ => 0) else (ok, drive.sector lba)

/-- `disk_streamer_t`. -/
structure DiskStreamer where
  pos : Int
  disk : DiskPtr
  deriving DecidableEq, Repr

/-- Status, bytes written from `out[0]` on, and the streamer after the call. -/
structure StreamRead where
  res : Int
  bytes : List UInt8
  streamer : DiskStreamer
  deriving DecidableEq, Repr

def diskStreamerSeekPos (streamer : DiskStreamer) (pos : Int) : DiskStreamer :=
  { streamer with pos := pos }

/-- `buf[index]`. -/
def bufferByte (drive : Drive) (buf : Nat → UInt8) (index : Int) : UInt8 :=
  if 0 ≤ index then buf index.toNat else drive.belowBuffer index

/-- Each call reads at least one byte, so `total` calls are enough. -/
def diskStreamerReadBytesLoop (drive : Drive) : Nat → DiskStreamer → Int → StreamRead
  | 0, streamer, _ => ⟨ok, [], streamer⟩
  | turns + 1, streamer, total =>
    if total ≤ 0 then ⟨ok, [], streamer⟩
    else
      let sector := streamer.pos.tdiv diskSectorSize
      let offset := streamer.pos.tmod diskSectorSize
      let maxReadable := diskSectorSize - offset
      let (res, buf) := diskReadSector drive streamer.disk sector
      if res < 0 then ⟨res, [], streamer⟩
      else
        let totalToRead := if total > maxReadable then maxReadable else total
        let bytes := window (fun i => bufferByte drive buf (offset + (i : Int))) 0 totalToRead.toNat
        let streamer := { streamer with pos := int32 (streamer.pos + totalToRead) }
        if total > maxReadable then
          let rest := diskStreamerReadBytesLoop drive turns streamer (total - totalToRead)
          ⟨rest.res, bytes ++ rest.bytes, rest.streamer⟩
        else ⟨res, bytes, streamer⟩

def diskStreamerReadBytes (drive : Drive) (streamer : DiskStreamer) (total : Int) : StreamRead :=
  diskStreamerReadBytesLoop drive total.toNat streamer total

/-- The bytes of the disk by position. -/
def Drive.image (drive : Drive) (pos : Nat) : UInt8 := drive.sector ((pos / 512 : Nat) : Int) (pos % 512)

section Reading

variable (drive : Drive)

@[simp]
theorem diskReadSector_eq (idisk : DiskPtr) (lba : Int) :
    diskReadSector drive idisk lba = (ok, drive.sector lba) := by
  cases idisk
  rfl

theorem maxReadable_pos (pos : Int) : 0 < diskSectorSize - pos.tmod diskSectorSize := by
  have := Int.tmod_lt_of_pos pos (show (0 : Int) < diskSectorSize by decide)
  omega

theorem diskStreamerReadBytesLoop_res :
    ∀ turns (streamer : DiskStreamer) (total : Int),
      (diskStreamerReadBytesLoop drive turns streamer total).res = ok
  | 0, _, _ => rfl
  | turns + 1, streamer, total => by
      have rest := diskStreamerReadBytesLoop_res turns
      rw [diskStreamerReadBytesLoop]
      simp only [diskReadSector_eq, show ¬ ok < 0 by decide, if_false]
      split_ifs
      · rfl
      · exact rest _ _
      · rfl

/-- A read of the disk never fails. -/
@[simp]
theorem diskStreamerReadBytes_res (streamer : DiskStreamer) (total : Int) :
    (diskStreamerReadBytes drive streamer total).res = ok :=
  diskStreamerReadBytesLoop_res drive _ streamer total

theorem diskStreamerReadBytesLoop_length :
    ∀ turns (streamer : DiskStreamer) (total : Int), total.toNat ≤ turns →
      (diskStreamerReadBytesLoop drive turns streamer total).bytes.length = total.toNat
  | 0, _, total, enough => by
      rw [diskStreamerReadBytesLoop]
      exact (Nat.le_zero.mp enough).symm
  | turns + 1, streamer, total, enough => by
      have rest := diskStreamerReadBytesLoop_length turns
      have room := maxReadable_pos streamer.pos
      rw [diskStreamerReadBytesLoop]
      simp only [diskReadSector_eq, show ¬ ok < 0 by decide, if_false]
      split_ifs with none more
      · simp only [List.length_nil]
        omega
      · simp only [List.length_append, window_length]
        rw [rest _ _ (by omega)]
        omega
      · simp only [window_length]

/-- A read delivers as many bytes as it was asked for. -/
@[simp]
theorem diskStreamerReadBytes_length (streamer : DiskStreamer) (total : Int) :
    (diskStreamerReadBytes drive streamer total).bytes.length = total.toNat :=
  diskStreamerReadBytesLoop_length drive _ streamer total le_rfl

/-- The bytes of one sector, from a position in it up to at most its end. -/
theorem sector_window {pos count : Nat} (inside : pos % 512 + count ≤ 512) :
    window (fun i => bufferByte drive (drive.sector ((pos / 512 : Nat) : Int))
      (((pos % 512 : Nat) : Int) + (i : Int))) 0 count = window drive.image pos count := by
  refine List.ext_getElem (by simp) fun index below _ => ?_
  rw [window_length] at below
  rw [window_getElem, window_getElem]
  have sector : (pos + index) / 512 = pos / 512 := by omega
  have offset : (pos + index) % 512 = pos % 512 + index := by omega
  rw [bufferByte, if_pos (by omega), Drive.image, sector, offset]
  congr 1
  omega

theorem diskStreamerReadBytesLoop_window :
    ∀ turns (disk : DiskPtr) (pos total : Nat), total ≤ turns → pos < 2147483648 →
      pos + total ≤ 2147483648 →
      diskStreamerReadBytesLoop drive turns ⟨pos, disk⟩ total =
        ⟨ok, window drive.image pos total, ⟨int32 ((pos + total : Nat) : Int), disk⟩⟩
  | 0, disk, pos, total, enough, inside, _ => by
      obtain rfl : total = 0 := by omega
      rw [int32_of_range (by omega) (by omega)]
      rfl
  | turns + 1, disk, pos, total, enough, inside, below => by
      rw [diskStreamerReadBytesLoop]
      by_cases none : total = 0
      · subst none
        rw [int32_of_range (by omega) (by omega)]
        rfl
      have sector : Int.tdiv (pos : Int) diskSectorSize = ((pos / 512 : Nat) : Int) :=
        tdiv_natCast pos 512
      have offset : Int.tmod (pos : Int) diskSectorSize = ((pos % 512 : Nat) : Int) :=
        tmod_natCast pos 512
      have room : diskSectorSize - ((pos % 512 : Nat) : Int) = ((512 - pos % 512 : Nat) : Int) := by
        unfold diskSectorSize
        omega
      simp only [diskReadSector_eq, show ¬ ok < 0 by decide, if_false, sector, offset, room]
      rw [if_neg (by omega)]
      by_cases more : (total : Int) > ((512 - pos % 512 : Nat) : Int)
      · obtain ⟨rest, rfl⟩ : ∃ rest, total = 512 - pos % 512 + rest :=
          ⟨total - (512 - pos % 512), by omega⟩
        generalize step_eq : 512 - pos % 512 = step at *
        have behind : int32 ((pos : Int) + (step : Int)) = ((pos + step : Nat) : Int) := by
          rw [int32_of_range (by omega) (by omega)]
          exact (Int.natCast_add pos step).symm
        have left : ((step + rest : Nat) : Int) - (step : Int) = (rest : Int) := by omega
        simp only [if_pos more, Int.toNat_natCast, behind, left]
        rw [diskStreamerReadBytesLoop_window turns disk _ _ (by omega) (by omega)
            (Nat.add_assoc .. ▸ below),
          sector_window drive (by omega), ← window_add, Nat.add_assoc]
      · simp only [if_neg more, Int.toNat_natCast]
        rw [sector_window drive (by omega), Int.natCast_add]

/-- **A read delivers the window of the image at the position**, and moves the position behind
it. -/
theorem diskStreamerReadBytes_window (disk : DiskPtr) (pos total : Nat) (inside : pos < 2147483648)
    (below : pos + total ≤ 2147483648) :
    diskStreamerReadBytes drive ⟨pos, disk⟩ total =
      ⟨ok, window drive.image pos total, ⟨int32 ((pos + total : Nat) : Int), disk⟩⟩ :=
  diskStreamerReadBytesLoop_window drive _ disk pos total le_rfl inside below

end Reading

end KernelPlay
