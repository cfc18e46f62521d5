/-
**What a request to the streamer writes, and where it leaves the position.**

* `diskStreamerReadStep` — `disk_streamer_read_bytes` as a machine: a step is a call, or one test of the
  copy loop's condition with the turn behind it, and emits the byte stored in `out`.
* `request_computes` — the machine halts, from every position and for every request, with what
  `diskStreamerReadBytes` returns.
* `reads_image` — below `2 ^ 31` it writes the window of the image at the position and leaves the position
  behind it, so a request made in two parts is the request made at once.
-/

import KernelPlay.Disk.Streamer
import KernelPlay.Library.Halting

namespace KernelPlay

open KernelPlay.Library

/-- Where a read stands: at a call, at the condition of the copy loop, or at its end. `out` counts from the
pointer of the first call. -/
inductive StreamPoint
  | call (streamer : DiskStreamer) (total : Int) (out : Nat)
  | copy (streamer : DiskStreamer) (buf : Nat → UInt8) (res total totalToRead i : Int) (out : Nat)
  | returned (res : Int) (streamer : DiskStreamer)

/-- One step, and what it writes. The recursive call is the last thing a call does. -/
def diskStreamerReadStep (drive : Drive) : StreamPoint → Option (StreamPoint × List (Nat × UInt8))
  | .call streamer total out =>
    if total ≤ 0 then some (.returned ok streamer, [])
    else
      let sector := streamer.pos.tdiv diskSectorSize
      let offset := streamer.pos.tmod diskSectorSize
      let maxReadable := diskSectorSize - offset
      let (res, buf) := diskReadSector drive streamer.disk sector
      if res < 0 then some (.returned res streamer, [])
      else
        let totalToRead := if total > maxReadable then maxReadable else total
        some (.copy streamer buf res total totalToRead 0 out, [])
  | .copy streamer buf res total totalToRead i out =>
    let offset := streamer.pos.tmod diskSectorSize
    let maxReadable := diskSectorSize - offset
    if i < totalToRead then
      some (.copy streamer buf res total totalToRead (i + 1) (out + 1),
        [(out, bufferByte drive buf (offset + i))])
    else
      let streamer := { streamer with pos := int32 (streamer.pos + totalToRead) }
      if total > maxReadable then some (.call streamer (total - totalToRead) out, [])
      else some (.returned res streamer, [])
  | .returned _ _ => none

section Requests

variable {drive : Drive} {streamer : DiskStreamer}

/-- The copy loop writes what is left of the sector. -/
theorem copy_writes {buf : Nat → UInt8} {res total totalToRead : Int} {last : StreamPoint}
    {writes : List (Nat × UInt8)} :
    ∀ (left i out : Nat), totalToRead = (i : Int) + left →
      Computes (diskStreamerReadStep drive) (.copy streamer buf res total totalToRead totalToRead (out + left))
        writes last →
      Computes (diskStreamerReadStep drive) (.copy streamer buf res total totalToRead i out)
        (placed out (window (fun place =>
          bufferByte drive buf (streamer.pos.tmod diskSectorSize + (place : Int))) i left) ++ writes) last := by
  intro left
  induction left with
  | zero =>
    intro i out same rest
    obtain rfl : totalToRead = i := by simpa using same
    exact rest
  | succ left ih =>
    intro i out same rest
    have turn : diskStreamerReadStep drive (.copy streamer buf res total totalToRead i out) =
        some (.copy streamer buf res total totalToRead ((i + 1 : Nat) : Int) (out + 1),
          [(out, bufferByte drive buf (streamer.pos.tmod diskSectorSize + (i : Int)))]) := by
      rw [diskStreamerReadStep, if_pos (by omega)]
      rfl
    rw [window_succ, placed_cons, List.cons_append]
    refine .goes turn (ih (i + 1) (out + 1) (by push_cast; omega) ?_)
    rwa [Nat.add_assoc, Nat.add_comm 1]

theorem request_computes_loop :
    ∀ (turns : Nat) (streamer : DiskStreamer) (total : Int) (out : Nat), total.toNat ≤ turns →
      Computes (diskStreamerReadStep drive) (.call streamer total out)
        (placed out (diskStreamerReadBytesLoop drive turns streamer total).bytes)
        (.returned (diskStreamerReadBytesLoop drive turns streamer total).res
          (diskStreamerReadBytesLoop drive turns streamer total).streamer) := by
  intro turns
  induction turns with
  | zero =>
    intro streamer total out enough
    have ends : diskStreamerReadStep drive (.call streamer total out) = some (.returned ok streamer, []) := by
      rw [diskStreamerReadStep, if_pos (by omega)]
    exact .silent ends (.halts rfl)
  | succ turns ih =>
    intro streamer total out enough
    rw [diskStreamerReadBytesLoop]
    by_cases none : total ≤ 0
    · have ends : diskStreamerReadStep drive (.call streamer total out) =
          some (.returned ok streamer, []) := by
        rw [diskStreamerReadStep, if_pos none]
      rw [if_pos none]
      exact .silent ends (.halts rfl)
    have room := maxReadable_pos streamer.pos
    have calls : diskStreamerReadStep drive (.call streamer total out) =
        some (.copy streamer (drive.sector (streamer.pos.tdiv diskSectorSize)) ok total
          (if total > diskSectorSize - streamer.pos.tmod diskSectorSize then
            diskSectorSize - streamer.pos.tmod diskSectorSize else total) 0 out, []) := by
      rw [diskStreamerReadStep, if_neg none]
      simp only [diskReadSector_eq, show ¬ ok < 0 by decide, if_false]
    simp only [diskReadSector_eq, show ¬ ok < 0 by decide, if_false, if_neg none]
    refine .silent calls ?_
    generalize size : (if total > diskSectorSize - streamer.pos.tmod diskSectorSize then
      diskSectorSize - streamer.pos.tmod diskSectorSize else total) = totalToRead
    have positive : 0 < totalToRead ∧ totalToRead ≤ total := by
      rw [← size]
      split_ifs <;> omega
    by_cases more : total > diskSectorSize - streamer.pos.tmod diskSectorSize
    · have goes : diskStreamerReadStep drive (.copy streamer
          (drive.sector (streamer.pos.tdiv diskSectorSize)) ok total totalToRead totalToRead
          (out + totalToRead.toNat)) =
          some (.call { streamer with pos := int32 (streamer.pos + totalToRead) } (total - totalToRead)
            (out + totalToRead.toNat), []) := by
        rw [diskStreamerReadStep, if_neg (lt_irrefl _)]
        exact if_pos more
      rw [if_pos more, placed_append, window_length]
      exact copy_writes totalToRead.toNat 0 out (by omega)
        (.silent goes (ih _ _ _ (by omega)))
    · have ends : diskStreamerReadStep drive (.copy streamer
          (drive.sector (streamer.pos.tdiv diskSectorSize)) ok total totalToRead totalToRead
          (out + totalToRead.toNat)) =
          some (.returned ok { streamer with pos := int32 (streamer.pos + totalToRead) }, []) := by
        rw [diskStreamerReadStep, if_neg (lt_irrefl _)]
        exact if_neg more
      rw [if_neg more]
      have writes := copy_writes totalToRead.toNat 0 out (by omega) (.silent ends (.halts rfl))
      rwa [List.append_nil] at writes

/-- **The machine halts** with what `diskStreamerReadBytes` returns. -/
theorem request_computes (streamer : DiskStreamer) (total : Int) (out : Nat) :
    Computes (diskStreamerReadStep drive) (.call streamer total out)
      (placed out (diskStreamerReadBytes drive streamer total).bytes)
      (.returned (diskStreamerReadBytes drive streamer total).res
        (diskStreamerReadBytes drive streamer total).streamer) :=
  request_computes_loop total.toNat streamer total out le_rfl

theorem request_window (disk : DiskPtr) {pos total : Nat} (below : pos + total < 2147483648) (out : Nat) :
    Computes (diskStreamerReadStep drive) (.call ⟨pos, disk⟩ total out)
      (placed out (window drive.image pos total)) (.returned ok ⟨((pos + total : Nat) : Int), disk⟩) := by
  have computes := @request_computes drive ⟨pos, disk⟩ total out
  rw [diskStreamerReadBytes_window drive disk pos total (by omega) (by omega),
    int32_of_range (by omega) (by omega)] at computes
  exact computes

/-- **A request writes the bytes of the image at the position**, leaves the position behind them, and can be
made in two parts. -/
theorem reads_image (disk : DiskPtr) {pos total : Nat} (below : pos + total < 2147483648) (out : Nat) :
    Computes (diskStreamerReadStep drive) (.call ⟨pos, disk⟩ total out)
        (placed out (window drive.image pos total)) (.returned ok ⟨((pos + total : Nat) : Int), disk⟩) ∧
      ∀ first second : Nat, first + second = total → ∃ middle writes behind,
        Computes (diskStreamerReadStep drive) (.call ⟨pos, disk⟩ first out) writes (.returned ok middle) ∧
        Computes (diskStreamerReadStep drive) (.call middle second (out + first)) behind
          (.returned ok ⟨((pos + total : Nat) : Int), disk⟩) ∧
        writes ++ behind = placed out (window drive.image pos total) := by
  refine ⟨request_window disk below out, ?_⟩
  rintro first second rfl
  have one := @request_window drive disk pos first (by omega) out
  have two := @request_window drive disk (pos + first) second (by omega) (out + first)
  rw [Nat.add_assoc] at two
  refine ⟨_, _, _, one, two, ?_⟩
  rw [window_add, placed_append, window_length]

end Requests

/-- A drive whose bytes tell their place. -/
def countingDrive : Drive := ⟨fun lba index => UInt8.ofNat (lba.toNat + index), fun _ => 0⟩

/-- Two bytes across the end of a sector, the first with one call and the second with another. -/
theorem reads_image_crossing :
    Computes (diskStreamerReadStep countingDrive) (.call ⟨511, .rootDisk⟩ 2 0) [(0, 255), (1, 1)]
        (.returned ok ⟨513, .rootDisk⟩) ∧
      ∃ middle writes behind,
        Computes (diskStreamerReadStep countingDrive) (.call ⟨511, .rootDisk⟩ 1 0) writes
          (.returned ok middle) ∧
        Computes (diskStreamerReadStep countingDrive) (.call middle 1 1) behind
          (.returned ok ⟨513, .rootDisk⟩) ∧
        writes ++ behind = [(0, 255), (1, 1)] := by
  obtain ⟨whole, parts⟩ := @reads_image countingDrive .rootDisk 511 2 (by decide) 0
  have bytes : placed 0 (window countingDrive.image 511 2) = [(0, 255), (1, 1)] := by decide
  rw [bytes] at whole parts
  exact ⟨whole, parts 1 1 rfl⟩

end KernelPlay
