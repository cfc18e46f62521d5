/-
**The streamer down to the ports of the drive.**

`PortsStep` is `disk_streamer_read_bytes` with each sector read in the 512 bytes of its stack buffer by a call
of `read_from_disk`, port access by port access, the drive going on in its own time. `Matches` relates it to
`diskStreamerReadStep`, where a sector is read at once.

`streams_over_ports` — in every interleaving no access is refused, the call can return, and when it has
returned it has written the window of the image at the position.
-/

import KernelPlay.Disk.Delivery
import KernelPlay.Disk.Requests

namespace KernelPlay

open KernelPlay.Library

/-- Where a read stands: at a point of the streamer, or in a call of `read_from_disk`. -/
inductive PortsPoint
  | streamer (point : StreamPoint)
  | reading (streamer : DiskStreamer) (total : Int) (out : Nat) (ports : PortState)

/-- The transfer of a call: one sector to the stack buffer. -/
def sectorTransfer (buf : Nat) (streamer : DiskStreamer) : Transfer :=
  readFromDisk (streamer.pos.tdiv diskSectorSize) 1 buf

/-- The step does not read a sector. -/
def StreamPoint.Local : StreamPoint → Prop
  | .call _ total _ => total ≤ 0
  | _ => True

/-- One step of the streamer or of the drive, and what it writes. The stack buffer lies at `buf`. -/
inductive PortsStep (ata : Ata) (buf : Nat) :
    PortsPoint × AtaState → List (Nat × UInt8) → PortsPoint × AtaState → Prop
  | own {point : PortsPoint} {state state' : AtaState} : ata.Own state state' →
      PortsStep ata buf (point, state) [] (point, state')
  | calls {streamer : DiskStreamer} {total : Int} {out : Nat} {state : AtaState} (memory : Nat → UInt8) :
      ¬ total ≤ 0 → PortsStep ata buf (.streamer (.call streamer total out), state) []
        (.reading streamer total out ((sectorTransfer buf streamer).start .wait memory), state)
  | accesses {streamer : DiskStreamer} {total : Int} {out : Nat} {ports : PortState} {state state' : AtaState}
      {request : PortAccess} {answer : UInt16} :
      (transferHost (sectorTransfer buf streamer)).asks ports = some request →
      ata.Serves state request answer state' →
      PortsStep ata buf (.reading streamer total out ports, state) []
        (.reading streamer total out ((transferHost (sectorTransfer buf streamer)).resumes ports answer), state')
  | returns {streamer : DiskStreamer} {total : Int} {out : Nat} {ports : PortState} {state : AtaState} :
      ports.point = .returned → PortsStep ata buf (.reading streamer total out ports, state) []
        (.streamer (.copy streamer (fun i => ports.memory (buf + i)) ok total
          (if total > diskSectorSize - streamer.pos.tmod diskSectorSize then
            diskSectorSize - streamer.pos.tmod diskSectorSize else total) 0 out), state)
  | goes {point next : StreamPoint} {output : List (Nat × UInt8)} {state : AtaState} : point.Local →
      diskStreamerReadStep ata.drive point = some (next, output) →
      PortsStep ata buf (.streamer point, state) output (.streamer next, state)

/-- An access of the read is refused. -/
def PortsRefused (ata : Ata) (buf : Nat) : PortsPoint × AtaState → Prop
  | (.streamer _, _) => False
  | (.reading streamer _ _ ports, state) =>
    Refused (transferHost (sectorTransfer buf streamer)) ata.device (ports, state)

/-- The drive has nothing to do for the program. -/
def AtaState.Rests (state : AtaState) : Prop := state.activity = .settling ∨ state.activity = .idle

/-- A transfer stands at its wait while the drive is at rest. -/
theorem Transfer.stands_at_rest {ata : Ata} (transfer : Transfer) {memory : Nat → UInt8} {state : AtaState}
    (rests : state.Rests) : Stands ata transfer memory (transfer.start .wait memory, state) := by
  obtain ⟨file, activity⟩ := state
  rcases rests with rfl | rfl
  · exact .settling
  · exact .wait

section Sector

variable {ata : Ata} {buf pos : Nat} {disk : DiskPtr} {memory : Nat → UInt8}

theorem sectorTransfer_eq : sectorTransfer buf ⟨pos, disk⟩ = readFromDisk ((pos / 512 : Nat) : Int) 1 buf := by
  rw [sectorTransfer]
  exact congrArg (fun lba => readFromDisk lba 1 buf) (tdiv_natCast pos 512)

theorem sectorTransfer_serviceable (below : pos < 2147483648) (quiet : ReadsQuietly ata ((pos / 512 : Nat) : Int) 1) :
    Serviceable ata (sectorTransfer buf ⟨pos, disk⟩) := by
  rw [sectorTransfer_eq]
  exact readFromDisk_serviceable.mpr ⟨by omega, by omega, quiet⟩

/-- The stack buffer holds the sector. -/
theorem filled_sector (below : pos < 2147483648) {index : Nat} (inside : index < 512) :
    filled ata (sectorTransfer buf ⟨pos, disk⟩) memory 512 (buf + index) =
      ata.drive.sector ((pos / 512 : Nat) : Int) index := by
  have lba : (sectorTransfer buf ⟨pos, disk⟩).file.lba = pos / 512 := by
    have := @readFromDisk_lba ((pos / 512 : Nat) : Int) 1 buf
    rw [sectorTransfer_eq]
    omega
  have sector : (512 * (pos / 512) + index) / 512 = pos / 512 := by omega
  have offset : (512 * (pos / 512) + index) % 512 = index := by omega
  rw [filled, lba]
  show (if buf ≤ buf + index ∧ buf + index < buf + 512 then _ else _) = _
  rw [if_pos (by omega)]
  show ata.drive.image (512 * (pos / 512) + (buf + index - buf)) = _
  rw [Nat.add_sub_cancel_left, Drive.image, sector, offset]

end Sector

/-! ### The streamer, a sector at once -/

/-- The position and the rest of the request, and a drive at rest or at the sector of the position. -/
inductive Matches (ata : Ata) (buf start finish : Nat) : PortsPoint × AtaState → StreamPoint → Prop
  | call {pos total out : Nat} {disk : DiskPtr} {state : AtaState} :
      start ≤ pos → pos + total = finish → state.Rests →
      Matches ata buf start finish (.streamer (.call ⟨pos, disk⟩ total out), state) (.call ⟨pos, disk⟩ total out)
  | reading {pos total out : Nat} {disk : DiskPtr} {ports : PortState} {memory : Nat → UInt8}
      {state : AtaState} :
      start ≤ pos → pos + total = finish → 0 < total →
      Stands ata (sectorTransfer buf ⟨pos, disk⟩) memory (ports, state) →
      Matches ata buf start finish (.reading ⟨pos, disk⟩ total out ports, state) (.call ⟨pos, disk⟩ total out)
  | copy {pos total count i out : Nat} {disk : DiskPtr} {bytes sector : Nat → UInt8} {state : AtaState} :
      start ≤ pos → pos + total = finish → pos % 512 + count ≤ 512 → i ≤ count → count ≤ total →
      (count < total → pos % 512 + count = 512) → (∀ index, index < 512 → bytes index = sector index) →
      state.Rests →
      Matches ata buf start finish (.streamer (.copy ⟨pos, disk⟩ bytes ok total count i out), state)
        (.copy ⟨pos, disk⟩ sector ok total count i out)
  | returned {res : Int} {streamer : DiskStreamer} {state : AtaState} : state.Rests →
      Matches ata buf start finish (.streamer (.returned res streamer), state) (.returned res streamer)

section Matching

variable {ata : Ata} {buf start finish : Nat} {state state' : AtaState}
  {abstract : StreamPoint}

theorem AtaState.Rests.own (rests : state.Rests) (moves : ata.Own state state') : state'.Rests := by
  cases moves with
  | settles => exact .inr rfl
  | fetched => exact absurd rests (by simp [AtaState.Rests])
  | fails => exact absurd rests (by simp [AtaState.Rests])

/-- What the step behind the read of a sector is. -/
theorem call_copies {pos total out : Nat} {disk : DiskPtr} {drive : Drive} (positive : 0 < total) :
    ∃ count : Nat, pos % 512 + count ≤ 512 ∧ count ≤ total ∧ (count < total → pos % 512 + count = 512) ∧
      (if (total : Int) > diskSectorSize - (pos : Int).tmod diskSectorSize then
          diskSectorSize - (pos : Int).tmod diskSectorSize else (total : Int)) = count ∧
      diskStreamerReadStep drive (.call ⟨pos, disk⟩ total out) =
        some (.copy ⟨pos, disk⟩ (drive.sector ((pos / 512 : Nat) : Int)) ok total count (0 : Nat) out, []) := by
  have sector : Int.tdiv (pos : Int) diskSectorSize = ((pos / 512 : Nat) : Int) := tdiv_natCast pos 512
  have offset : Int.tmod (pos : Int) diskSectorSize = ((pos % 512 : Nat) : Int) := tmod_natCast pos 512
  have size : (if (total : Int) > diskSectorSize - (pos : Int).tmod diskSectorSize then
      diskSectorSize - (pos : Int).tmod diskSectorSize else (total : Int)) =
        ((min total (512 - pos % 512) : Nat) : Int) := by
    rw [offset, diskSectorSize]
    split_ifs <;> omega
  refine ⟨min total (512 - pos % 512), by omega, by omega, by omega, size, ?_⟩
  rw [diskStreamerReadStep, if_neg (by omega)]
  simp only [diskReadSector_eq, show ¬ ok < 0 by decide, if_false, sector]
  rw [size]
  rfl

/-- A turn of the copy loop. -/
theorem copy_turns {pos total count i out : Nat} {disk : DiskPtr} {drive : Drive} {bytes : Nat → UInt8}
    (more : i < count) :
    diskStreamerReadStep drive (.copy ⟨pos, disk⟩ bytes ok total count i out) =
      some (.copy ⟨pos, disk⟩ bytes ok total count (i + 1 : Nat) (out + 1), [(out, bytes (pos % 512 + i))]) := by
  have offset : Int.tmod (pos : Int) diskSectorSize = ((pos % 512 : Nat) : Int) := tmod_natCast pos 512
  have place : (((pos % 512 : Nat) : Int) + (i : Int)) = ((pos % 512 + i : Nat) : Int) := by omega
  have goes : (i : Int) < count := by omega
  simp only [diskStreamerReadStep, if_pos goes, offset, place, bufferByte, Int.toNat_natCast]
  rw [if_pos (by omega)]
  rfl

/-- The end of the copy loop. -/
theorem copy_ends {pos total count out : Nat} {disk : DiskPtr} {drive : Drive} {bytes : Nat → UInt8}
    (below : pos + count < 2147483648) (size : pos % 512 + count ≤ 512) (part : count ≤ total)
    (whole : count < total → pos % 512 + count = 512) :
    diskStreamerReadStep drive (.copy ⟨pos, disk⟩ bytes ok total count count out) =
      some (if count < total then .call ⟨(pos + count : Nat), disk⟩ (total - count : Nat) out
        else .returned ok ⟨(pos + count : Nat), disk⟩, []) := by
  have offset : Int.tmod (pos : Int) diskSectorSize = ((pos % 512 : Nat) : Int) := tmod_natCast pos 512
  have behind : int32 ((pos : Int) + (count : Int)) = ((pos + count : Nat) : Int) := by
    rw [int32_of_range (by omega) (by omega)]
    exact (Int.natCast_add pos count).symm
  have left : (total : Int) - (count : Int) = ((total - count : Nat) : Int) := by omega
  have ends : ¬ (count : Int) < count := by omega
  simp only [diskStreamerReadStep, if_neg ends, offset, behind, left]
  by_cases more : count < total
  · have goes : (total : Int) > diskSectorSize - ((pos % 512 : Nat) : Int) := by
      have := whole more
      rw [diskSectorSize]
      omega
    rw [if_pos goes, if_pos more]
  · have stops : ¬ (total : Int) > diskSectorSize - ((pos % 512 : Nat) : Int) := by
      rw [diskSectorSize]
      omega
    rw [if_neg stops, if_neg more]

/-- The sectors of the request can be read, and no request bit is shown while they are fetched. -/
def QuietBetween (ata : Ata) (start finish : Nat) : Prop :=
  ∀ lba : Nat, start < 512 * (lba + 1) → 512 * lba < finish → ReadsQuietly ata lba 1

theorem QuietBetween.serviceable (quiet : QuietBetween ata start finish) (below : finish < 2147483648)
    {pos : Nat} (low : start ≤ pos) (high : pos < finish) (buf : Nat) (disk : DiskPtr) :
    Serviceable ata (sectorTransfer buf ⟨pos, disk⟩) :=
  sectorTransfer_serviceable (by omega) (quiet (pos / 512) (by omega) (by omega))

variable (space : buf + 512 ≤ 4294967296) (below : finish < 2147483648) (quiet : QuietBetween ata start finish)

include space below quiet

omit quiet space in
/-- Behind the read of a sector the streamer copies it. -/
theorem Matches.returns {pos total out : Nat} {disk : DiskPtr} {ports : PortState} {memory : Nat → UInt8}
    {state : AtaState} (low : start ≤ pos) (size : pos + total = finish) (positive : 0 < total)
    (stands : Stands ata (sectorTransfer buf ⟨pos, disk⟩) memory (ports, state))
    (returned : ports.point = .returned) :
    ∃ next, diskStreamerReadStep ata.drive (.call ⟨pos, disk⟩ total out) = some (next, []) ∧
      Matches ata buf start finish
        (.streamer (.copy ⟨pos, disk⟩ (fun i => ports.memory (buf + i)) ok total
          (if (total : Int) > diskSectorSize - (pos : Int).tmod diskSectorSize then
            diskSectorSize - (pos : Int).tmod diskSectorSize else (total : Int)) 0 out), state) next := by
  obtain ⟨count, room, part, whole, same, copies⟩ := @call_copies pos total out disk ata.drive positive
  obtain ⟨rfl, stored⟩ := stands.at_end returned
  rw [same]
  refine ⟨_, copies, .copy low size room (Nat.zero_le _) part whole (fun index inside => ?_) (.inr rfl)⟩
  have sectors : (sectorTransfer buf ⟨pos, disk⟩).sectors = 1 := rfl
  rw [stored, sectors]
  exact filled_sector (by omega) inside

/-- **Every step of the streamer or of the drive** is one of the streamer that reads a sector at once, or
stays at it. -/
theorem Matches.step {first last : PortsPoint × AtaState} {output : List (Nat × UInt8)}
    (related : Matches ata buf start finish first abstract) (step : PortsStep ata buf first output last) :
    (output = [] ∧ Matches ata buf start finish last abstract) ∨
      ∃ next, diskStreamerReadStep ata.drive abstract = some (next, output) ∧
        Matches ata buf start finish last next := by
  cases related with
  | @call pos total out disk state low size rests =>
    cases step with
    | own moves => exact .inl ⟨rfl, .call low size (rests.own moves)⟩
    | calls memory more =>
      have stands := @Transfer.stands_at_rest ata (sectorTransfer buf ⟨pos, disk⟩) memory state rests
      exact .inl ⟨rfl, .reading low size (by omega) stands⟩
    | goes isLocal goes =>
      refine .inr ⟨_, goes, ?_⟩
      have none : (_ : Int) ≤ 0 := isLocal
      rw [diskStreamerReadStep, if_pos none] at goes
      cases goes
      exact .returned rests
  | @reading pos total out disk ports memory _ low size positive stands =>
    have serviceable := quiet.serviceable below low (by omega) buf disk
    cases step with
    | own moves => exact .inl ⟨rfl, .reading low size positive (stands.step serviceable space (.own moves)).1⟩
    | accesses asks serves =>
      exact .inl ⟨rfl, .reading low size positive (stands.step serviceable space (.served asks serves)).1⟩
    | returns returned =>
      exact .inr (Matches.returns below low size positive stands returned)
  | @copy pos total count i out disk bytes sector state low size room before part whole same rests =>
    cases step with
    | own moves => exact .inl ⟨rfl, .copy low size room before part whole same (rests.own moves)⟩
    | goes _ goes =>
      rcases Nat.lt_or_eq_of_le before with more | rfl
      · rw [copy_turns more] at goes
        cases goes
        rw [same _ (by omega)]
        exact .inr ⟨_, copy_turns more, .copy low size room more part whole same rests⟩
      · rw [copy_ends (by omega) room part whole] at goes
        cases goes
        refine .inr ⟨_, copy_ends (by omega) room part whole, ?_⟩
        split_ifs with rest
        · exact .call (by omega) (by omega) rests
        · exact .returned rests
  | returned rests =>
    cases step with
    | own moves => exact .inl ⟨rfl, .returned (rests.own moves)⟩
    | goes _ goes => cases goes

omit space in
/-- **No access is refused.** -/
theorem Matches.permitted {first : PortsPoint × AtaState}
    (related : Matches ata buf start finish first abstract) : ¬ PortsRefused ata buf first := by
  cases related with
  | call => exact not_false
  | reading low size positive stands =>
    exact stands.permitted (quiet.serviceable below low (by omega) buf _)
  | copy => exact not_false
  | returned => exact not_false

omit space below quiet in
/-- A call of `read_from_disk` is made inside the streamer. -/
theorem run_reading {streamer : DiskStreamer} {total : Int} {out : Nat} {first last : PortState × AtaState}
    {labels : List (Event PortAccess UInt16)}
    (run : Run (PortStep ata (sectorTransfer buf streamer)) first labels last) :
    ∃ writes, Run (PortsStep ata buf) (.reading streamer total out first.1, first.2) writes
      (.reading streamer total out last.1, last.2) := by
  induction run with
  | done joint => exact ⟨[], .done _⟩
  | step one _ ih =>
    obtain ⟨writes, rest⟩ := ih
    cases one with
    | own moves => exact ⟨_, .step (.own moves) rest⟩
    | served asks serves => exact ⟨_, .step (.accesses asks serves) rest⟩

/-- **The steps of the streamer that reads a sector at once can be followed.** -/
theorem Matches.follows {first : PortsPoint × AtaState} {next : StreamPoint} {output : List (Nat × UInt8)}
    (related : Matches ata buf start finish first abstract)
    (goes : diskStreamerReadStep ata.drive abstract = some (next, output)) :
    ∃ writes last, Run (PortsStep ata buf) first writes last ∧ Matches ata buf start finish last next := by
  -- A sector is read to its end, and the step behind the read is the step of the streamer.
  have reads {pos total out : Nat} {disk : DiskPtr} {ports : PortState} {memory : Nat → UInt8}
      {state : AtaState} (low : start ≤ pos) (size : pos + total = finish) (positive : 0 < total)
      (stands : Stands ata (sectorTransfer buf ⟨pos, disk⟩) memory (ports, state))
      (goes : diskStreamerReadStep ata.drive (.call ⟨pos, disk⟩ total out) = some (next, output)) :
      ∃ writes last, Run (PortsStep ata buf) (.reading ⟨pos, disk⟩ total out ports, state) writes last ∧
        Matches ata buf start finish last next := by
    have serviceable := quiet.serviceable below low (by omega) buf disk
    obtain ⟨ended, ⟨labels, run⟩, returned⟩ := stands.ends serviceable space
    obtain ⟨writes, reading⟩ := @run_reading ata buf ⟨pos, disk⟩ total out _ _ _ run
    have stands' := stands.reached serviceable space ⟨labels, run⟩
    obtain ⟨next', goes', related⟩ :=
      @Matches.returns ata buf start finish below pos total out disk _ _ _ low size positive stands' returned
    rw [goes, Option.some.injEq, Prod.mk.injEq] at goes'
    obtain ⟨rfl, rfl⟩ := goes'
    exact ⟨_, _, reading.snoc (.returns returned), related⟩
  cases related with
  | @call pos total out disk state low size rests =>
    by_cases none : total = 0
    · have nothing : (total : Int) ≤ 0 := by omega
      have step := @PortsStep.goes ata buf (.call ⟨pos, disk⟩ total out) next output state nothing goes
      rw [diskStreamerReadStep, if_pos nothing] at goes
      cases goes
      exact ⟨_, _, .step step (.done _), .returned rests⟩
    · have call := @PortsStep.calls ata buf ⟨pos, disk⟩ total out state (fun _ => 0) (by omega)
      have stands := @Transfer.stands_at_rest ata (sectorTransfer buf ⟨pos, disk⟩) (fun _ => 0) state rests
      obtain ⟨writes, last, run, related⟩ := reads low size (by omega) stands goes
      exact ⟨_, last, .step call run, related⟩
  | reading low size positive stands => exact reads low size positive stands goes
  | @copy pos total count i out disk bytes sector state low size room before part whole same rests =>
    rcases Nat.lt_or_eq_of_le before with more | rfl
    · have turn := @PortsStep.goes ata buf (.copy ⟨pos, disk⟩ bytes ok total count i out) _ _ state trivial
        (@copy_turns pos total count i out disk ata.drive bytes more)
      rw [copy_turns more, Option.some.injEq, Prod.mk.injEq] at goes
      obtain ⟨rfl, rfl⟩ := goes
      exact ⟨_, _, .step turn (.done _), .copy low size room more part whole same rests⟩
    · have ends := @PortsStep.goes ata buf (.copy ⟨pos, disk⟩ bytes ok total i i out) _ _ state trivial
        (@copy_ends pos total i out disk ata.drive bytes (by omega) room part whole)
      rw [copy_ends (by omega) room part whole, Option.some.injEq, Prod.mk.injEq] at goes
      obtain ⟨rfl, rfl⟩ := goes
      refine ⟨_, _, .step ends (.done _), ?_⟩
      split_ifs with rest
      · exact .call (by omega) (by omega) rests
      · exact .returned rests
  | returned rests => cases goes

end Matching

/-- **A read down to the ports** writes the window of the image at the position, in every interleaving with the
drive: no access is refused, what has been written when the call returns is the window, and from every state it
can return. -/
theorem streams_over_ports {ata : Ata} {buf pos total : Nat} (disk : DiskPtr) (out : Nat)
    (space : buf + 512 ≤ 4294967296) (below : pos + total < 2147483648)
    (quiet : QuietBetween ata pos (pos + total)) {state : AtaState} (rests : state.Rests)
    {writes : List (List (Nat × UInt8))} {last : PortsPoint × AtaState}
    (run : Run (PortsStep ata buf) (.streamer (.call ⟨pos, disk⟩ total out), state) writes last) :
    ¬ PortsRefused ata buf last ∧
      (∀ res streamer, last.1 = .streamer (.returned res streamer) →
        writes.flatten = placed out (window ata.drive.image pos total) ∧ res = ok ∧
          streamer = ⟨((pos + total : Nat) : Int), disk⟩ ∧ last.2.Rests) ∧
      ∃ more ended, Run (PortsStep ata buf) last more ended ∧
        ended.1 = .streamer (.returned ok ⟨((pos + total : Nat) : Int), disk⟩) := by
  have computes := @request_window ata.drive disk pos total below out
  have matched {first last : PortsPoint × AtaState} {output : List (Nat × UInt8)} {abstract : StreamPoint}
      (related : Matches ata buf pos (pos + total) first abstract) (step : PortsStep ata buf first output last) :=
    related.step space below quiet step
  obtain ⟨abstract, rest, related, same, computes'⟩ :=
    @Computes.refined _ _ _ _ _ (Matches ata buf pos (pos + total)) matched _ _ _ run _ _ _
      (.call le_rfl rfl rests) computes
  refine ⟨related.permitted below quiet, fun res streamer returned => ?_, ?_⟩
  · obtain ⟨point, state⟩ := last
    subst returned
    cases related with
    | returned rests' =>
      cases computes' with
      | halts => exact ⟨by simpa using same, rfl, rfl, rests'⟩
      | goes found => cases found
  · have follows {first : PortsPoint × AtaState} {state next : StreamPoint} {output : List (Nat × UInt8)}
        (related : Matches ata buf pos (pos + total) first state)
        (goes : diskStreamerReadStep ata.drive state = some (next, output)) :=
      related.follows space below quiet goes
    obtain ⟨more, ended, run', related'⟩ :=
      @Computes.realised _ _ _ _ _ (Matches ata buf pos (pos + total)) follows _ _ _ computes' _ related
    refine ⟨more, ended, run', ?_⟩
    cases related'
    rfl

/-- Two bytes across the end of a sector, from a drive that settles first. -/
theorem streams_over_ports_crossing :
    ∃ more ended, Run (PortsStep (plainAta countingDrive 8) 0x8000)
        (.streamer (.call ⟨511, .rootDisk⟩ 2 0), ⟨⟨0, 0, 0, 0, 0⟩, .settling⟩) more ended ∧
      ended.1 = .streamer (.returned ok ⟨513, .rootDisk⟩) := by
  have quiet : QuietBetween (plainAta countingDrive 8) 511 (511 + 2) := fun lba _ high =>
    plainAta_quiet (by omega) (by omega) (by decide)
  exact (@streams_over_ports _ 0x8000 511 2 .rootDisk 0 (by decide) (by decide) quiet _ (.inl rfl) _ _
    (.done _)).2.2

end KernelPlay
