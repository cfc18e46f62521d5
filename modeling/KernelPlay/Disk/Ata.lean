/-
**Sector transfers through the ports of the drive: `read_from_disk` of `disk/disk.c`.**

A transfer waits for the drive, sends six registers to the ports `0x1F6`, `0x1F2` to `0x1F5` and `0x1F7`,
and then takes 256 words from port `0x1F0` for each sector, once the status shows the request bit. The
drive fetches the sectors in its own time.

* `transferHost` — the port accesses of a transfer, one after the other; `readFromDisk` — the one of a call.
* `Ata` — a drive: its sectors, those it can read, and the status bytes it may show. `Ata.device` — what it
  does, and which accesses it serves at which activity.
* `TransferDelivers` — in every interleaving of the two no access is refused, the transfer can end, and when it has
  ended the drive is idle and the sectors lie at `buf`, with no other byte changed.
* `Serviceable` — the drive is selected, asked for as many sectors as the transfer takes, can read them, and
  shows no request bit while it fetches.
-/

import KernelPlay.Disk.Streamer
import KernelPlay.Library.Exchange

namespace KernelPlay

open KernelPlay.Library

/-- A port access of `io.asm`. -/
inductive PortAccess
  | insb (port : Nat)
  | insw (port : Nat)
  | outb (port : Nat) (data : UInt8)
  deriving DecidableEq, Repr

/-- The registers a transfer sends, by their ports `0x1F6` and `0x1F2` to `0x1F5`. -/
structure TaskFile where
  head : UInt8
  count : UInt8
  low : UInt8
  mid : UInt8
  high : UInt8
  deriving DecidableEq, Repr

/-! ### The program -/

/-- Where a transfer stands: at the wait, at one of the six registers, at the status in front of sector `i`,
at word `j` of sector `i`, at its end. -/
inductive TransferPoint
  | wait
  | head
  | count
  | low
  | mid
  | high
  | command
  | drq (i : Nat)
  | word (i j : Nat)
  | returned
  deriving DecidableEq, Repr

/-- A transfer: what it sends, the turns of its sector loop, and where the first word goes. -/
structure Transfer where
  file : TaskFile
  sectors : Nat
  buf : Nat
  deriving DecidableEq, Repr

structure PortState where
  point : TransferPoint
  memory : Nat → UInt8
  ptr : Nat

/-- `*ptr = word`, low byte first. -/
def storeHalf (memory : Nat → UInt8) (ptr : Nat) (word : UInt16) : Nat → UInt8 :=
  fun address =>
    if address = ptr then UInt8.ofNat word.toNat
    else if address = ptr + 1 then UInt8.ofNat (word.toNat / 256)
    else memory address

namespace Transfer

/-- The condition of the sector loop. -/
def sectorPoint (transfer : Transfer) (i : Nat) : TransferPoint :=
  if i < transfer.sectors then .drq i else .returned

def asks (transfer : Transfer) : TransferPoint → Option PortAccess
  | .wait => some (.insb 0x1F7)
  | .head => some (.outb 0x1F6 transfer.file.head)
  | .count => some (.outb 0x1F2 transfer.file.count)
  | .low => some (.outb 0x1F3 transfer.file.low)
  | .mid => some (.outb 0x1F4 transfer.file.mid)
  | .high => some (.outb 0x1F5 transfer.file.high)
  | .command => some (.outb 0x1F7 0x20)
  | .drq _ => some (.insb 0x1F7)
  | .word _ _ => some (.insw 0x1F0)
  | .returned => none

/-- What the program does with the answer; `insb` keeps its low byte. -/
def resumes (transfer : Transfer) (state : PortState) (answer : UInt16) : PortState :=
  match state.point with
  | .wait => if answer.toUInt8 &&& 0x80 ≠ 0 then state else { state with point := .head }
  | .head => { state with point := .count }
  | .count => { state with point := .low }
  | .low => { state with point := .mid }
  | .mid => { state with point := .high }
  | .high => { state with point := .command }
  | .command => { state with point := transfer.sectorPoint 0 }
  | .drq i => if answer.toUInt8 &&& 0x08 = 0 then state else { state with point := .word i 0 }
  | .word i j =>
    { point := if j + 1 < 256 then .word i (j + 1) else transfer.sectorPoint (i + 1)
      memory := storeHalf state.memory state.ptr answer
      ptr := uint32 ((state.ptr : Int) + 2) }
  | .returned => state

end Transfer

def transferHost (transfer : Transfer) : Host PortState PortAccess UInt16 where
  asks state := transfer.asks state.point
  resumes := transfer.resumes

/-- The transfer of a call: `int lba, int total, void *buf`. -/
def readFromDisk (lba total : Int) (buf : Nat) : Transfer where
  file :=
    { head := UInt8.ofInt (lba >>> (24 : Nat)) ||| 0xE0
      count := UInt8.ofInt total
      low := UInt8.ofInt lba &&& 0xFF
      mid := UInt8.ofInt (lba >>> (8 : Nat))
      high := UInt8.ofInt (lba >>> (16 : Nat)) }
  sectors := total.toNat
  buf := buf

/-! ### The drive -/

/-- What a drive is doing: something of its own, nothing, fetching sector `lba` as the first of `left`, or
offering its words, of which `taken` are gone. It stops at a sector it cannot read. -/
inductive Activity
  | settling
  | idle
  | fetching (lba left : Nat)
  | offering (lba left taken : Nat)
  | failed
  deriving DecidableEq, Repr

def Activity.Busy : Activity → Prop
  | .settling => True
  | .fetching _ _ => True
  | _ => False

def Activity.Offers : Activity → Prop
  | .offering _ _ _ => True
  | _ => False

structure AtaState where
  file : TaskFile
  activity : Activity
  deriving DecidableEq, Repr

namespace TaskFile

/-- The 28 bits of the sector. -/
def lba (file : TaskFile) : Nat :=
  file.low.toNat + 256 * file.mid.toNat + 65536 * file.high.toNat + 16777216 * (file.head.toNat % 16)

/-- The drive is asked for 256 sectors by a count of 0. -/
def sectorCount (file : TaskFile) : Nat := if file.count = 0 then 256 else file.count.toNat

/-- The first drive of the channel is selected. -/
def Master (file : TaskFile) : Prop := file.head &&& 0x10 = 0

end TaskFile

/-- A drive. The status shows the busy bit while it is busy, and else the request bit while it offers words;
`readable` are the sectors it can read. -/
structure Ata where
  drive : Drive
  readable : Nat → Prop
  shows : Activity → UInt8 → Prop
  shown : ∀ activity, ∃ status, shows activity status
  busy_iff : ∀ {activity status}, shows activity status → (status &&& 0x80 ≠ 0 ↔ activity.Busy)
  request_iff : ∀ {activity status}, shows activity status → ¬ activity.Busy →
    (status &&& 0x08 ≠ 0 ↔ activity.Offers)

namespace Ata

/-- Word `index` of a sector. -/
def word (ata : Ata) (lba index : Nat) : UInt16 :=
  word16 (ata.drive.sector lba (2 * index)) (ata.drive.sector lba (2 * index + 1))

/-- Behind a word: the next word, the next sector, the end. -/
def behind (lba left taken : Nat) : Activity :=
  if taken + 1 < 256 then .offering lba left (taken + 1)
  else if left = 1 then .idle
  else .fetching (lba + 1) (left - 1)

inductive Own (ata : Ata) : AtaState → AtaState → Prop
  | settles {file : TaskFile} : Own ata ⟨file, .settling⟩ ⟨file, .idle⟩
  | fetched {file : TaskFile} {lba left : Nat} : ata.readable lba →
      Own ata ⟨file, .fetching lba left⟩ ⟨file, .offering lba left 0⟩
  | fails {file : TaskFile} {lba left : Nat} : ¬ ata.readable lba →
      Own ata ⟨file, .fetching lba left⟩ ⟨file, .failed⟩

/-- The status can be read at any time, a register be sent to an idle drive, a word be taken while one is
offered. -/
inductive Serves (ata : Ata) : AtaState → PortAccess → UInt16 → AtaState → Prop
  | status {state : AtaState} {status : UInt8} : ata.shows state.activity status →
      Serves ata state (.insb 0x1F7) status.toUInt16 state
  | head {file : TaskFile} {data : UInt8} :
      Serves ata ⟨file, .idle⟩ (.outb 0x1F6 data) 0 ⟨{ file with head := data }, .idle⟩
  | count {file : TaskFile} {data : UInt8} :
      Serves ata ⟨file, .idle⟩ (.outb 0x1F2 data) 0 ⟨{ file with count := data }, .idle⟩
  | low {file : TaskFile} {data : UInt8} :
      Serves ata ⟨file, .idle⟩ (.outb 0x1F3 data) 0 ⟨{ file with low := data }, .idle⟩
  | mid {file : TaskFile} {data : UInt8} :
      Serves ata ⟨file, .idle⟩ (.outb 0x1F4 data) 0 ⟨{ file with mid := data }, .idle⟩
  | high {file : TaskFile} {data : UInt8} :
      Serves ata ⟨file, .idle⟩ (.outb 0x1F5 data) 0 ⟨{ file with high := data }, .idle⟩
  | readSectors {file : TaskFile} : file.Master →
      Serves ata ⟨file, .idle⟩ (.outb 0x1F7 0x20) 0 ⟨file, .fetching file.lba file.sectorCount⟩
  | word {file : TaskFile} {lba left taken : Nat} :
      Serves ata ⟨file, .offering lba left taken⟩ (.insw 0x1F0) (ata.word lba taken)
        ⟨file, behind lba left taken⟩

def device (ata : Ata) : Device AtaState PortAccess UInt16 where
  own := ata.Own
  serves := ata.Serves

end Ata

/-- A transfer and a drive. -/
abbrev PortStep (ata : Ata) (transfer : Transfer) :=
  Joint (transferHost transfer) ata.device

/-- The first `count` bytes of the sectors lie at `buf`. -/
def filled (ata : Ata) (transfer : Transfer) (memory : Nat → UInt8) (count : Nat) : Nat → UInt8 :=
  fun address =>
    if transfer.buf ≤ address ∧ address < transfer.buf + count then
      ata.drive.image (512 * transfer.file.lba + (address - transfer.buf))
    else memory address

/-- The state in front of a transfer. -/
def Transfer.start (transfer : Transfer) (point : TransferPoint) (memory : Nat → UInt8) : PortState :=
  ⟨point, memory, transfer.buf⟩

/-- **What a transfer is for**, whatever the drive does in between. -/
structure TransferDelivers (ata : Ata) (transfer : Transfer) (first : PortState × AtaState) : Prop where
  permitted : ∀ last, Reaches (transferHost transfer) ata.device first last →
    ¬ Refused (transferHost transfer) ata.device last
  delivered : ∀ last, Reaches (transferHost transfer) ata.device first last → last.1.point = .returned →
    last.2 = ⟨transfer.file, .idle⟩ ∧
      last.1.memory = filled ata transfer first.1.memory (512 * transfer.sectors)
  ends : ∀ last, Reaches (transferHost transfer) ata.device first last →
    ∃ ended, Reaches (transferHost transfer) ata.device last ended ∧ ended.1.point = .returned

/-- The drive can serve the transfer. -/
structure Serviceable (ata : Ata) (transfer : Transfer) : Prop where
  master : transfer.file.Master
  exact : transfer.sectors = transfer.file.sectorCount
  readable : ∀ i, i < transfer.sectors → ata.readable (transfer.file.lba + i)
  quiet : ∀ i, i < transfer.sectors → ∀ status,
    ata.shows (.fetching (transfer.file.lba + i) (transfer.sectors - i)) status → status &&& 0x08 = 0

end KernelPlay
