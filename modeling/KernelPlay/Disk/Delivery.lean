/-
**Which transfers deliver, and which calls of `read_from_disk` these are.**

The program sends its registers and takes words whatever the drive does, so a transfer that the drive cannot
serve goes wrong in one of four ways: its command goes to the other drive, it ends while the drive still has
sectors to offer, it waits for a sector that never comes, or it takes a word that is not offered yet.
`transfer_delivers_iff` — a transfer delivers exactly if it is serviceable.

`readFromDisk_delivers_iff` — a call delivers exactly if it asks for 1 to 256 sectors, bit 28 of `lba` is
clear, the sectors can be read, and the drive shows no request bit while it fetches them.
`readFromDisk_ends` — such a call ends in every run in which the drive is never polled more than a given
number of times in a row.
-/

import KernelPlay.Disk.Transfer

namespace KernelPlay

open KernelPlay.Library

section Converse

variable {ata : Ata} {transfer : Transfer} {memory : Nat → UInt8} {file : TaskFile}

/-- Some interleaving brings the program to the point and the drive to the state. -/
def Comes (ata : Ata) (transfer : Transfer) (first : PortState × AtaState) (point : TransferPoint)
    (state : AtaState) : Prop :=
  ∃ program, Reaches (transferHost transfer) ata.device first (program, state) ∧ program.point = point

section Comes

variable {first : PortState × AtaState} {point : TransferPoint} {state state' : AtaState}

theorem Comes.own (comes : Comes ata transfer first point state) (moves : ata.Own state state') :
    Comes ata transfer first point state' := by
  obtain ⟨program, reaches, here⟩ := comes
  exact ⟨program, reaches.trans (.of_own moves), here⟩

/-- An access is answered, and the program goes on. -/
theorem Comes.served (comes : Comes ata transfer first point state) {next : TransferPoint}
    {request : PortAccess} {answer : UInt16} (asks : transfer.asks point = some request)
    (serves : ata.Serves state request answer state')
    (resumes : ∀ program : PortState, program.point = point → (transfer.resumes program answer).point = next) :
    Comes ata transfer first next state' := by
  obtain ⟨program, reaches, rfl⟩ := comes
  refine ⟨(transferHost transfer).resumes program answer, reaches.trans ?_, resumes program rfl⟩
  exact .of_served asks serves

/-- Where an access is refused, the transfer does not deliver. -/
theorem Comes.refused (comes : Comes ata transfer first point state) {request : PortAccess}
    (asks : transfer.asks point = some request) (refuses : ∀ answer next, ¬ ata.Serves state request answer next) :
    ¬ TransferDelivers ata transfer first := by
  obtain ⟨program, reaches, rfl⟩ := comes
  exact fun delivers => delivers.permitted _ reaches ⟨request, asks, refuses⟩

/-- A transfer that cannot leave a status read does not deliver. -/
theorem Comes.stuck (comes : Comes ata transfer first point state) {i : Nat} (polls : point = .drq i)
    (still : ∀ next, ¬ ata.Own state next)
    (silent : ∀ status, ata.shows state.activity status → status &&& 0x08 = 0) :
    ¬ TransferDelivers ata transfer first := by
  obtain ⟨program, reaches, rfl⟩ := comes
  intro delivers
  obtain ⟨ended, rest, returned⟩ := delivers.ends _ reaches
  have stays : ended = (program, state) := by
    refine @Reaches.preserves _ _ _ _ _ _ _ _ (fun joint => joint = (program, state))
      (fun before label after same step => ?_) rest rfl
    subst same
    cases step with
    | own moves => exact absurd moves (still _)
    | @served _ _ _ request answer asks serves =>
      have polled : transfer.asks program.point = some request := asks
      rw [polls] at polled
      cases polled
      cases serves with
      | status shows =>
        have zero := silent _ shows
        simp [transferHost, Transfer.resumes, polls, zero]
  rw [stays, polls] at returned
  cases returned

end Comes

/-! ### The way to the sectors -/

/-- The registers are sent to a drive that is idle. -/
theorem comes_command {first : PortState × AtaState}
    (comes : Comes ata transfer first .head ⟨file, .idle⟩) :
    Comes ata transfer first .command ⟨transfer.file, .idle⟩ := by
  have resumed {point next : TransferPoint} (goes : ∀ memory ptr,
      transfer.resumes ⟨point, memory, ptr⟩ 0 = ⟨next, memory, ptr⟩) (program : PortState)
      (here : program.point = point) : (transfer.resumes program 0).point = next := by
    obtain ⟨_, memory, ptr⟩ := program
    cases here
    rw [goes]
  have count := comes.served rfl .head (resumed fun _ _ => rfl)
  have low := count.served rfl .count (resumed fun _ _ => rfl)
  have mid := low.served rfl .low (resumed fun _ _ => rfl)
  have high := mid.served rfl .mid (resumed fun _ _ => rfl)
  exact high.served rfl .high (resumed fun _ _ => rfl)

theorem comes_head {first : PortState × AtaState} (comes : Comes ata transfer first .wait ⟨file, .idle⟩) :
    Comes ata transfer first .head ⟨file, .idle⟩ := by
  obtain ⟨status, shows⟩ := ata.shown .idle
  have free := (ata.busy_iff shows).not.mpr not_false
  rw [not_not] at free
  refine comes.served rfl (.status shows) fun program here => ?_
  simp [Transfer.resumes, here, free]

/-- All words of a sector are taken. -/
theorem comes_behind {first : PortState × AtaState} {i lba left : Nat} :
    ∀ rest j, j + rest = 255 →
      Comes ata transfer first (.word i j) ⟨file, .offering lba left j⟩ →
      Comes ata transfer first (transfer.sectorPoint (i + 1))
        ⟨file, if left = 1 then .idle else .fetching (lba + 1) (left - 1)⟩
  | 0, j, last, comes => by
      obtain rfl : j = 255 := last
      refine comes.served rfl .word fun program here => ?_
      simp [Transfer.resumes, here]
  | rest + 1, j, before, comes => by
      refine comes_behind rest (j + 1) (by omega) ?_
      have more : j + 1 < 256 := by omega
      have next := comes.served rfl .word fun program here => by
        simp [Transfer.resumes, here, more]
        rfl
      rwa [Ata.behind, if_pos more] at next

/-- A sector that is offered is taken. -/
theorem comes_sector {first : PortState × AtaState} {i lba left : Nat}
    (comes : Comes ata transfer first (.drq i) ⟨file, .offering lba left 0⟩) :
    Comes ata transfer first (transfer.sectorPoint (i + 1))
      ⟨file, if left = 1 then .idle else .fetching (lba + 1) (left - 1)⟩ := by
  obtain ⟨status, shows⟩ := ata.shown (.offering lba left 0)
  have request := (ata.request_iff shows not_false).mpr trivial
  refine comes_behind 255 0 rfl (comes.served rfl (.status shows) fun program here => ?_)
  simp [Transfer.resumes, here, request]

/-! ### What delivering takes -/

section TransferDelivers

variable {first : PortState × AtaState} (delivers : TransferDelivers ata transfer first)

include delivers

theorem TransferDelivers.master (comes : Comes ata transfer first .command ⟨transfer.file, .idle⟩) :
    transfer.file.Master := by
  by_contra slave
  refine comes.refused rfl (fun answer next serves => ?_) delivers
  cases serves with
  | readSectors master => exact slave master

/-- The drive idle, the program waits for ever; the drive at work, the program is not to have ended. -/
theorem TransferDelivers.exact {i : Nat} (comes : Comes ata transfer first (transfer.sectorPoint i)
      ⟨transfer.file, if i = transfer.file.sectorCount then .idle
        else .fetching (transfer.file.lba + i) (transfer.file.sectorCount - i)⟩) :
    transfer.sectors ≤ i ↔ i = transfer.file.sectorCount := by
  constructor
  · intro last
    obtain ⟨program, reaches, here⟩ := comes
    rw [Transfer.sectorPoint, if_neg (by omega)] at here
    have idle := (delivers.delivered _ reaches here).1
    by_contra more
    rw [if_neg more] at idle
    cases idle
  · rintro rfl
    by_contra more
    rw [if_pos rfl, Transfer.sectorPoint, if_pos (by omega)] at comes
    refine comes.stuck rfl (fun next moves => by cases moves) (fun status shows => ?_) delivers
    simpa using (ata.request_iff shows not_false).not.mpr not_false

/-- A sector being fetched can be read, shows no request bit, and is taken. -/
theorem TransferDelivers.sector {i left : Nat}
    (comes : Comes ata transfer first (.drq i) ⟨transfer.file, .fetching (transfer.file.lba + i) left⟩) :
    (∀ status, ata.shows (.fetching (transfer.file.lba + i) left) status → status &&& 0x08 = 0) ∧
      ata.readable (transfer.file.lba + i) ∧
      Comes ata transfer first (transfer.sectorPoint (i + 1))
        ⟨transfer.file, if left = 1 then .idle else .fetching (transfer.file.lba + i + 1) (left - 1)⟩ := by
  have readable : ata.readable (transfer.file.lba + i) := by
    by_contra unreadable
    refine (comes.own (.fails unreadable)).stuck rfl (fun next moves => by cases moves)
      (fun status shows => ?_) delivers
    simpa using (ata.request_iff shows not_false).not.mpr not_false
  refine ⟨fun status shows => ?_, readable, comes_sector (comes.own (.fetched readable))⟩
  by_contra request
  have early := comes.served rfl (.status shows) fun program here => by
    simp [Transfer.resumes, here, request]
    rfl
  refine early.refused rfl (fun answer next serves => ?_) delivers
  cases serves

/-- The sectors in front of the end come one after the other. -/
theorem TransferDelivers.comes (comes : Comes ata transfer first .command ⟨transfer.file, .idle⟩) :
    ∀ i, i ≤ transfer.file.sectorCount →
      Comes ata transfer first (transfer.sectorPoint i)
        ⟨transfer.file, if i = transfer.file.sectorCount then .idle
          else .fetching (transfer.file.lba + i) (transfer.file.sectorCount - i)⟩ := by
  intro i
  induction i with
  | zero =>
    intro _
    have positive := transfer.file.sectorCount_pos
    rw [if_neg (by omega)]
    refine comes.served rfl (.readSectors (delivers.master comes)) fun program here => ?_
    simp [Transfer.resumes, here]
  | succ i ih =>
    intro inside
    have before := ih (by omega)
    have more : ¬ transfer.sectors ≤ i := fun last => by
      have := (delivers.exact before).mp last
      omega
    rw [if_neg (by omega), Transfer.sectorPoint, if_pos (by omega)] at before
    have next := (delivers.sector before).2.2
    have left : transfer.file.sectorCount - i - 1 = transfer.file.sectorCount - (i + 1) := by omega
    have last : transfer.file.sectorCount - i = 1 ↔ i + 1 = transfer.file.sectorCount := by omega
    simpa [left, last, Nat.add_assoc] using next

theorem TransferDelivers.serviceable (comes : Comes ata transfer first .command ⟨transfer.file, .idle⟩) :
    Serviceable ata transfer := by
  have sectors := delivers.comes comes
  have exact : transfer.sectors = transfer.file.sectorCount := by
    have last := (delivers.exact (sectors _ le_rfl)).mpr rfl
    refine le_antisymm last ?_
    by_contra fewer
    have := (delivers.exact (sectors transfer.sectors (by omega))).mp le_rfl
    omega
  have fetching (i : Nat) (inside : i < transfer.sectors) := sectors i (by omega)
  refine ⟨delivers.master comes, exact, fun i inside => ?_, fun i inside => ?_⟩
  · have here := fetching i inside
    rw [if_neg (by omega), Transfer.sectorPoint, if_pos inside] at here
    exact (delivers.sector here).2.1
  · have here := fetching i inside
    rw [if_neg (by omega), Transfer.sectorPoint, if_pos inside] at here
    rw [exact]
    exact (delivers.sector here).1

end TransferDelivers

/-- **A transfer delivers exactly if the drive can serve it**: from a drive that is idle, or busy with
something of its own. -/
theorem transfer_delivers_iff (space : transfer.buf + 512 * transfer.sectors ≤ 4294967296) {activity : Activity}
    (rests : activity = .settling ∨ activity = .idle) :
    TransferDelivers ata transfer (transfer.start .wait memory, ⟨file, activity⟩) ↔ Serviceable ata transfer := by
  have here : Comes ata transfer (transfer.start .wait memory, ⟨file, activity⟩) .wait ⟨file, activity⟩ :=
    ⟨_, .refl _, rfl⟩
  rcases rests with rfl | rfl
  · exact ⟨fun delivers => delivers.serviceable (comes_command (comes_head (here.own .settles))),
      fun serviceable => Stands.settling.delivers serviceable space⟩
  · exact ⟨fun delivers => delivers.serviceable (comes_command (comes_head here)),
      fun serviceable => Stands.wait.delivers serviceable space⟩

end Converse

/-! ### Calls of `read_from_disk` -/

section Calls

variable {lba total : Int} {buf : Nat}

theorem ofInt_toNat (value : Int) : ((UInt8.ofInt value).toNat : Int) = value % 256 := by
  rw [UInt8.ofInt, UInt8.toNat_ofNat']
  omega

/-- The mask of the head register leaves its low bits, and the one that selects the drive. -/
theorem head_bits (value : UInt8) :
    (value ||| 0xE0).toNat % 16 = value.toNat % 16 ∧
      ((value ||| 0xE0) &&& 0x10 = 0 ↔ value.toNat / 16 % 2 = 0) := by
  have every : ∀ small : Fin 256, (small.val ||| 0xE0) % 16 = small.val % 16 ∧
      ((small.val ||| 0xE0) &&& 0x10 = 0 ↔ small.val / 16 % 2 = 0) := by decide +kernel
  obtain ⟨low, select⟩ := every ⟨value.toNat, value.toNat_lt⟩
  refine ⟨by simpa using low, ?_⟩
  rw [← select, ← UInt8.toNat_inj]
  simp

/-- The registers hold the low 28 bits of the sector. -/
theorem readFromDisk_lba : ((readFromDisk lba total buf).file.lba : Int) = lba % 268435456 := by
  have low := ofInt_toNat lba
  have mid := ofInt_toNat (lba >>> (8 : Nat))
  have high := ofInt_toNat (lba >>> (16 : Nat))
  have head := ofInt_toNat (lba >>> (24 : Nat))
  have bits := (head_bits (UInt8.ofInt (lba >>> (24 : Nat)))).1
  have whole : UInt8.ofInt lba &&& 0xFF = UInt8.ofInt lba := UInt8.and_neg_one
  rw [Int.shiftRight_eq_div_pow] at mid high head
  simp only [readFromDisk, TaskFile.lba, whole]
  rw [bits]
  simp only [Int.shiftRight_eq_div_pow] at *
  push_cast at *
  omega

theorem readFromDisk_master : (readFromDisk lba total buf).file.Master ↔ lba / 268435456 % 2 = 0 := by
  have head := ofInt_toNat (lba >>> (24 : Nat))
  rw [Int.shiftRight_eq_div_pow] at head
  show (UInt8.ofInt (lba >>> (24 : Nat)) ||| 0xE0) &&& 0x10 = 0 ↔ _
  rw [(head_bits _).2, Int.shiftRight_eq_div_pow]
  push_cast at *
  omega

theorem readFromDisk_exact :
    (readFromDisk lba total buf).sectors = (readFromDisk lba total buf).file.sectorCount ↔
      1 ≤ total ∧ total ≤ 256 := by
  have count := ofInt_toNat total
  have zero : UInt8.ofInt total = 0 ↔ (UInt8.ofInt total).toNat = 0 := by
    rw [← UInt8.toNat_inj]
    rfl
  show total.toNat = TaskFile.sectorCount _ ↔ _
  rw [TaskFile.sectorCount]
  show total.toNat = (if UInt8.ofInt total = 0 then 256 else (UInt8.ofInt total).toNat) ↔ _
  split_ifs with none
  · rw [zero] at none
    omega
  · rw [zero] at none
    omega

/-- The drive reads the sectors of a call, and shows no request bit while it fetches them. -/
def ReadsQuietly (ata : Ata) (lba total : Int) : Prop :=
  ∀ i : Nat, (i : Int) < total → ata.readable ((lba % 268435456).toNat + i) ∧
    ∀ status, ata.shows (.fetching ((lba % 268435456).toNat + i) (total.toNat - i)) status →
      status &&& 0x08 = 0

theorem readFromDisk_serviceable {ata : Ata} :
    Serviceable ata (readFromDisk lba total buf) ↔
      (1 ≤ total ∧ total ≤ 256) ∧ lba / 268435456 % 2 = 0 ∧ ReadsQuietly ata lba total := by
  have first : (readFromDisk lba total buf).file.lba = (lba % 268435456).toNat := by
    have := @readFromDisk_lba lba total buf
    omega
  have inside (i : Nat) : i < (readFromDisk lba total buf).sectors ↔ (i : Int) < total :=
    Int.lt_toNat
  constructor
  · rintro ⟨master, exact, readable, quiet⟩
    refine ⟨readFromDisk_exact.mp exact, readFromDisk_master.mp master, fun i below => ?_⟩
    rw [← first]
    exact ⟨readable i ((inside i).mpr below), quiet i ((inside i).mpr below)⟩
  · rintro ⟨size, select, served⟩
    unfold ReadsQuietly at served
    rw [← first] at served
    exact ⟨readFromDisk_master.mpr select, readFromDisk_exact.mpr size,
      fun i below => (served i ((inside i).mp below)).1, fun i below => (served i ((inside i).mp below)).2⟩

/-- **A call of `read_from_disk` delivers exactly if** it asks for 1 to 256 sectors of the first drive, and
the drive can read them and shows no request bit while it fetches. -/
theorem readFromDisk_delivers_iff (ata : Ata) (space : buf + 512 * total.toNat ≤ 4294967296)
    (memory : Nat → UInt8) (file : TaskFile) {activity : Activity}
    (rests : activity = .settling ∨ activity = .idle) :
    TransferDelivers ata (readFromDisk lba total buf)
        ((readFromDisk lba total buf).start .wait memory, ⟨file, activity⟩) ↔
      (1 ≤ total ∧ total ≤ 256) ∧ lba / 268435456 % 2 = 0 ∧ ReadsQuietly ata lba total :=
  (transfer_delivers_iff space rests).trans readFromDisk_serviceable

/-- **Such a call ends**: it takes no step but status reads beside the six registers, the words, and one step
of the drive for each sector and one to settle; so where the status is never read more than `gap` times in a
row the run is bounded, and it does not stop before the end. -/
theorem readFromDisk_ends (ata : Ata) (space : buf + 512 * total.toNat ≤ 4294967296) (memory : Nat → UInt8)
    (file : TaskFile) {activity : Activity} (rests : activity = .settling ∨ activity = .idle)
    (size : 1 ≤ total ∧ total ≤ 256) (select : lba / 268435456 % 2 = 0) (quiet : ReadsQuietly ata lba total)
    {labels : List (Event PortAccess UInt16)} {last : PortState × AtaState}
    (run : Run (PortStep ata (readFromDisk lba total buf))
      ((readFromDisk lba total buf).start .wait memory, ⟨file, activity⟩) labels last) :
    labels.countP works ≤ 257 * total.toNat + 7 ∧
      (∀ gap, GapsWithin works gap labels →
        labels.length ≤ 257 * total.toNat + 7 + (257 * total.toNat + 8) * gap) ∧
      (last.1.point = .returned ∨ ∃ label next, PortStep ata (readFromDisk lba total buf) last label next) ∧
      (last.1.point = .returned → labels.countP works =
        257 * total.toNat + 6 + (if activity = .settling then 1 else 0)) := by
  have serviceable : Serviceable ata (readFromDisk lba total buf) :=
    readFromDisk_serviceable.mpr ⟨size, select, quiet⟩
  have stands : Stands ata (readFromDisk lba total buf) memory
      ((readFromDisk lba total buf).start .wait memory, ⟨file, activity⟩) := by
    rcases rests with rfl | rfl
    · exact .settling
    · exact .wait
  have counted := stands.counted serviceable space run
  have first : (readFromDisk lba total buf).remaining .wait activity =
      257 * total.toNat + 6 + (if activity = .settling then 1 else 0) := by
    rcases rests with rfl | rfl <;> rfl
  have few : (if activity = .settling then 1 else 0) ≤ 1 := by split_ifs <;> omega
  have bound : labels.countP works ≤ 257 * total.toNat + 7 := by
    rw [Transfer.start, first] at counted
    omega
  refine ⟨bound, fun gap within => ?_, ?_, fun returned => ?_⟩
  · refine (length_le_of_gaps within).trans (Nat.add_le_add bound ?_)
    exact Nat.mul_le_mul_right gap (Nat.succ_le_succ bound)
  · have reached := stands.reached serviceable space ⟨labels, run⟩
    rcases reached.advances serviceable with returned | ⟨label, next, step, _⟩
    · exact .inl returned
    · exact .inr ⟨label, next, step⟩
  · rw [Transfer.start, first, returned] at counted
    exact counted

end Calls

/-! ### A plain drive -/

/-- The status of a drive that shows nothing but its bits: ready, busy, the request, an error. -/
def plainStatus : Activity → UInt8
  | .settling => 0x80
  | .idle => 0x50
  | .fetching _ _ => 0x80
  | .offering _ _ _ => 0x58
  | .failed => 0x51

theorem plainStatus_busy (activity : Activity) : plainStatus activity &&& 0x80 ≠ 0 ↔ activity.Busy := by
  cases activity <;> simp only [plainStatus, Activity.Busy] <;> decide

theorem plainStatus_request {activity : Activity} (free : ¬ activity.Busy) :
    plainStatus activity &&& 0x08 ≠ 0 ↔ activity.Offers := by
  cases activity <;> simp only [plainStatus, Activity.Busy, Activity.Offers, not_true] at free ⊢ <;> decide

/-- A drive of `capacity` sectors. -/
def plainAta (drive : Drive) (capacity : Nat) : Ata where
  drive := drive
  readable lba := lba < capacity
  shows activity status := plainStatus activity = status
  shown _ := ⟨_, rfl⟩
  busy_iff shows := shows ▸ plainStatus_busy _
  request_iff shows free := shows ▸ plainStatus_request free

theorem plainAta_quiet {drive : Drive} {capacity : Nat} {lba total : Int} (low : 0 ≤ lba)
    (high : lba + total ≤ capacity) (small : capacity ≤ 268435456) : ReadsQuietly (plainAta drive capacity) lba total := by
  intro i inside
  refine ⟨?_, ?_⟩
  · show (lba % 268435456).toNat + i < capacity
    omega
  · rintro status rfl
    show (0x80 : UInt8) &&& 0x08 = 0
    decide

theorem readFromDisk_delivers_two :
    TransferDelivers (plainAta ⟨fun lba index => UInt8.ofNat (lba.toNat + index), fun _ => 0⟩ 8)
      (readFromDisk 1 2 0x8000)
      ((readFromDisk 1 2 0x8000).start .wait (fun _ => 0), ⟨⟨0, 0, 0, 0, 0⟩, .settling⟩) :=
  (readFromDisk_delivers_iff _ (by decide) _ _ (.inl rfl)).mpr
    ⟨by decide, by decide, plainAta_quiet (by decide) (by decide) (by decide)⟩

/-- A run of the same call to its end: 521 steps beside the status reads. -/
theorem readFromDisk_ends_two :
    ∃ labels last, Run (PortStep (plainAta ⟨fun _ _ => 0, fun _ => 0⟩ 8) (readFromDisk 1 2 0x8000))
        ((readFromDisk 1 2 0x8000).start .wait (fun _ => 0), ⟨⟨0, 0, 0, 0, 0⟩, .settling⟩) labels last ∧
      last.1.point = .returned ∧ labels.countP works = 521 := by
  have quiet : ReadsQuietly (plainAta ⟨fun _ _ => 0, fun _ => 0⟩ 8) 1 2 :=
    plainAta_quiet (by decide) (by decide) (by decide)
  have serviceable := (@readFromDisk_serviceable 1 2 0x8000 _).mpr ⟨by decide, by decide, quiet⟩
  have delivers := (@transfer_delivers_iff _ _ (fun _ => 0) ⟨0, 0, 0, 0, 0⟩ (by decide) .settling
    (.inl rfl)).mpr serviceable
  obtain ⟨last, ⟨labels, run⟩, returned⟩ := delivers.ends _ (.refl _)
  have ends := readFromDisk_ends _ (by decide) _ _ (.inl rfl) (by decide) (by decide) quiet run
  exact ⟨labels, last, run, returned, ends.2.2.2 returned⟩

end KernelPlay
