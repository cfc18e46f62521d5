/-
**A serviceable transfer delivers its sectors.**

`Stands` is what holds of the program and the drive at every point of a serviceable transfer: the drive is at
the sector and the word the program is at, and the bytes in front of `ptr` are those of the sectors.
`Stands.step` — every joint step keeps it, and every one that is not a read of the status leaves one less to
do (`Stands.counted`); `Stands.advances` — some step leads on. So the transfer delivers (`Stands.delivers`).
-/

import KernelPlay.Disk.Ata

namespace KernelPlay

open KernelPlay.Library

/-! ### Words and bytes -/

theorem word16_toNat (low high : UInt8) : (word16 low high).toNat = low.toNat + 256 * high.toNat := by
  have := low.toNat_lt
  have := high.toNat_lt
  rw [word16, UInt16.toNat_ofNat_of_lt' (by rw [UInt16.size]; omega)]

theorem word16_low (low high : UInt8) : UInt8.ofNat (word16 low high).toNat = low := by
  have := low.toNat_lt
  rw [word16_toNat, ← UInt8.toNat_inj, UInt8.toNat_ofNat']
  omega

theorem word16_high (low high : UInt8) : UInt8.ofNat ((word16 low high).toNat / 256) = high := by
  have := low.toNat_lt
  have := high.toNat_lt
  rw [word16_toNat, ← UInt8.toNat_inj, UInt8.toNat_ofNat']
  omega

section Filled

variable {ata : Ata} {transfer : Transfer} {memory : Nat → UInt8}

@[simp]
theorem filled_zero : filled ata transfer memory 0 = memory := by
  funext address
  rw [filled, if_neg (by omega)]

/-- A word stored behind the bytes before it. -/
theorem filled_word {i j : Nat} (below : j < 256) :
    storeHalf (filled ata transfer memory (512 * i + 2 * j)) (transfer.buf + (512 * i + 2 * j))
        (ata.word (transfer.file.lba + i) j) =
      filled ata transfer memory (512 * i + 2 * (j + 1)) := by
  have image (byte : Nat) (inside : byte < 2) :
      ata.drive.image (512 * transfer.file.lba + (512 * i + 2 * j + byte)) =
        ata.drive.sector ((transfer.file.lba + i : Nat) : Int) (2 * j + byte) := by
    have sector : (512 * transfer.file.lba + (512 * i + 2 * j + byte)) / 512 = transfer.file.lba + i := by
      omega
    have offset : (512 * transfer.file.lba + (512 * i + 2 * j + byte)) % 512 = 2 * j + byte := by omega
    rw [Drive.image, sector, offset]
  funext address
  by_cases low : address = transfer.buf + (512 * i + 2 * j)
  · subst low
    have inside : transfer.buf + (512 * i + 2 * j) - transfer.buf = 512 * i + 2 * j + 0 := by omega
    rw [storeHalf, if_pos rfl, filled, if_pos (by omega), inside, image 0 (by omega), Ata.word, word16_low]
    rfl
  by_cases high : address = transfer.buf + (512 * i + 2 * j) + 1
  · subst high
    have inside : transfer.buf + (512 * i + 2 * j) + 1 - transfer.buf = 512 * i + 2 * j + 1 := by omega
    rw [storeHalf, if_neg low, if_pos rfl, filled, if_pos (by omega), inside, image 1 (by omega), Ata.word,
      word16_high]
  · rw [storeHalf, if_neg low, if_neg high, filled, filled]
    by_cases before : transfer.buf ≤ address ∧ address < transfer.buf + (512 * i + 2 * j)
    · rw [if_pos before, if_pos (by omega)]
    · rw [if_neg before, if_neg (by omega)]

end Filled

/-! ### The invariant -/

section Serviceable

variable {ata : Ata} {transfer : Transfer} {memory : Nat → UInt8}

theorem TaskFile.sectorCount_pos (file : TaskFile) : 0 < file.sectorCount := by
  rw [TaskFile.sectorCount]
  split_ifs with zero
  · omega
  · exact Nat.pos_of_ne_zero fun none => zero (UInt8.toNat_inj.mp none)

theorem Serviceable.positive (serviceable : Serviceable ata transfer) : 0 < transfer.sectors :=
  serviceable.exact ▸ transfer.file.sectorCount_pos

/-- The pointer behind `count` bytes. -/
def Transfer.pointer (transfer : Transfer) (count : Nat) : Nat := uint32 ((transfer.buf + count : Nat) : Int)

/-- Where the two stand. -/
inductive Stands (ata : Ata) (transfer : Transfer) (memory : Nat → UInt8) : PortState × AtaState → Prop
  | settling {file : TaskFile} : Stands ata transfer memory (transfer.start .wait memory, ⟨file, .settling⟩)
  | wait {file : TaskFile} : Stands ata transfer memory (transfer.start .wait memory, ⟨file, .idle⟩)
  | head {file : TaskFile} : Stands ata transfer memory (transfer.start .head memory, ⟨file, .idle⟩)
  | count {count low mid high : UInt8} : Stands ata transfer memory
      (transfer.start .count memory, ⟨⟨transfer.file.head, count, low, mid, high⟩, .idle⟩)
  | low {low mid high : UInt8} : Stands ata transfer memory
      (transfer.start .low memory, ⟨⟨transfer.file.head, transfer.file.count, low, mid, high⟩, .idle⟩)
  | mid {mid high : UInt8} : Stands ata transfer memory
      (transfer.start .mid memory,
        ⟨⟨transfer.file.head, transfer.file.count, transfer.file.low, mid, high⟩, .idle⟩)
  | high {high : UInt8} : Stands ata transfer memory
      (transfer.start .high memory,
        ⟨⟨transfer.file.head, transfer.file.count, transfer.file.low, transfer.file.mid, high⟩, .idle⟩)
  | command : Stands ata transfer memory (transfer.start .command memory, ⟨transfer.file, .idle⟩)
  | fetching {i : Nat} : i < transfer.sectors → Stands ata transfer memory
      (⟨.drq i, filled ata transfer memory (512 * i), transfer.pointer (512 * i)⟩,
        ⟨transfer.file, .fetching (transfer.file.lba + i) (transfer.sectors - i)⟩)
  | drq {i : Nat} : i < transfer.sectors → Stands ata transfer memory
      (⟨.drq i, filled ata transfer memory (512 * i), transfer.pointer (512 * i)⟩,
        ⟨transfer.file, .offering (transfer.file.lba + i) (transfer.sectors - i) 0⟩)
  | word {i j : Nat} : i < transfer.sectors → j < 256 → Stands ata transfer memory
      (⟨.word i j, filled ata transfer memory (512 * i + 2 * j), transfer.pointer (512 * i + 2 * j)⟩,
        ⟨transfer.file, .offering (transfer.file.lba + i) (transfer.sectors - i) j⟩)
  | returned : Stands ata transfer memory
      (⟨.returned, filled ata transfer memory (512 * transfer.sectors),
        transfer.pointer (512 * transfer.sectors)⟩, ⟨transfer.file, .idle⟩)

/-- Behind a word: at the next word, at the next sector or at the end. -/
theorem Stands.behind (space : transfer.buf + 512 * transfer.sectors ≤ 4294967296) {i j : Nat}
    (inside : i < transfer.sectors) (below : j < 256) :
    Stands ata transfer memory
      (transfer.resumes ⟨.word i j, filled ata transfer memory (512 * i + 2 * j),
          transfer.pointer (512 * i + 2 * j)⟩ (ata.word (transfer.file.lba + i) j),
        ⟨transfer.file, Ata.behind (transfer.file.lba + i) (transfer.sectors - i) j⟩) := by
  have here : transfer.pointer (512 * i + 2 * j) = transfer.buf + (512 * i + 2 * j) := by
    rw [Transfer.pointer, uint32_natCast (by omega)]
  have next : uint32 ((transfer.pointer (512 * i + 2 * j) : Int) + 2) =
      transfer.pointer (512 * i + 2 * (j + 1)) := by
    rw [here, Transfer.pointer]
    congr 1
  have stored := @filled_word ata transfer memory i j below
  rw [← here] at stored
  have resumed : transfer.resumes ⟨.word i j, filled ata transfer memory (512 * i + 2 * j),
        transfer.pointer (512 * i + 2 * j)⟩ (ata.word (transfer.file.lba + i) j) =
      ⟨if j + 1 < 256 then .word i (j + 1) else transfer.sectorPoint (i + 1),
        filled ata transfer memory (512 * i + 2 * (j + 1)), transfer.pointer (512 * i + 2 * (j + 1))⟩ := by
    rw [← stored, ← next]
    rfl
  rw [resumed]
  by_cases more : j + 1 < 256
  · rw [if_pos more, Ata.behind, if_pos more]
    exact .word inside more
  obtain rfl : j = 255 := by omega
  have size : 512 * i + 2 * (255 + 1) = 512 * (i + 1) := by omega
  rw [if_neg more, Ata.behind, if_neg more, Transfer.sectorPoint, size]
  by_cases last : i + 1 < transfer.sectors
  · have left : transfer.sectors - i - 1 = transfer.sectors - (i + 1) := by omega
    rw [if_pos last, if_neg (by omega), Nat.add_assoc, left]
    exact .fetching last
  · obtain same : i + 1 = transfer.sectors := by omega
    rw [if_neg last, if_pos (by omega), same]
    exact .returned

/-- What is left to do: the steps of the drive, the registers and the words. -/
def Transfer.remaining (transfer : Transfer) : TransferPoint → Activity → Nat
  | .wait, .settling => 257 * transfer.sectors + 7
  | .wait, _ => 257 * transfer.sectors + 6
  | .head, _ => 257 * transfer.sectors + 6
  | .count, _ => 257 * transfer.sectors + 5
  | .low, _ => 257 * transfer.sectors + 4
  | .mid, _ => 257 * transfer.sectors + 3
  | .high, _ => 257 * transfer.sectors + 2
  | .command, _ => 257 * transfer.sectors + 1
  | .drq i, .fetching _ _ => 257 * (transfer.sectors - i)
  | .drq i, _ => 257 * (transfer.sectors - i) - 1
  | .word i j, _ => 257 * (transfer.sectors - i) - 1 - j
  | .returned, _ => 0

/-- The program reads the status. -/
def TransferPoint.polls : TransferPoint → Bool
  | .wait => true
  | .drq _ => true
  | _ => false

/-- Behind a word there is one less to take. -/
theorem remaining_behind {i j : Nat} (inside : i < transfer.sectors) (below : j < 256) :
    transfer.remaining (if j + 1 < 256 then .word i (j + 1) else transfer.sectorPoint (i + 1))
        (Ata.behind (transfer.file.lba + i) (transfer.sectors - i) j) + 1 =
      257 * (transfer.sectors - i) - 1 - j := by
  by_cases more : j + 1 < 256
  · rw [if_pos more]
    simp only [Transfer.remaining]
    omega
  rw [if_neg more, Ata.behind, if_neg more, Transfer.sectorPoint]
  by_cases last : i + 1 < transfer.sectors
  · rw [if_pos last, if_neg (by omega)]
    simp only [Transfer.remaining]
    omega
  · rw [if_neg last]
    simp only [Transfer.remaining]
    omega

/-- A step that is not a read of the status. -/
def works : Event PortAccess UInt16 → Bool
  | .served (.insb _) _ => false
  | _ => true

/-- **Every step of the program or the drive keeps the invariant**, and if it is not a read of the status, it
leaves one less to do. -/
theorem Stands.step (serviceable : Serviceable ata transfer)
    (space : transfer.buf + 512 * transfer.sectors ≤ 4294967296) {first last : PortState × AtaState}
    {label : Event PortAccess UInt16} (stands : Stands ata transfer memory first)
    (step : PortStep ata transfer first label last) :
    Stands ata transfer memory last ∧
      transfer.remaining last.1.point last.2.activity + (if works label then 1 else 0) =
        transfer.remaining first.1.point first.2.activity := by
  cases step with
  | own moves =>
    cases stands with
    | settling =>
      cases moves
      exact ⟨.wait, rfl⟩
    | fetching inside =>
      cases moves with
      | fetched => exact ⟨.drq inside, by simp only [Transfer.remaining, works, if_true]; omega⟩
      | fails unreadable => exact absurd (serviceable.readable _ inside) unreadable
    | _ => cases moves
  | served asks serves =>
    cases stands with
    | settling =>
      cases asks
      cases serves with
      | status shows =>
        have busy := (ata.busy_iff shows).mpr trivial
        simpa [transferHost, Transfer.resumes, Transfer.start, busy, works] using Stands.settling
    | wait =>
      cases asks
      cases serves with
      | status shows =>
        have free := (ata.busy_iff shows).not.mpr not_false
        rw [not_not] at free
        simpa [transferHost, Transfer.resumes, Transfer.start, free, works, Transfer.remaining]
          using Stands.head
    | head => cases asks; cases serves; exact ⟨.count, rfl⟩
    | count => cases asks; cases serves; exact ⟨.low, rfl⟩
    | low => cases asks; cases serves; exact ⟨.mid, rfl⟩
    | mid => cases asks; cases serves; exact ⟨.high, rfl⟩
    | high => cases asks; cases serves; exact ⟨.command, rfl⟩
    | command =>
      cases asks
      cases serves with
      | readSectors =>
        have fetching := @Stands.fetching ata transfer memory 0 serviceable.positive
        have pointer : transfer.pointer 0 = transfer.buf := by
          have := serviceable.positive
          rw [Transfer.pointer, uint32_natCast (by omega), Nat.add_zero]
        rw [Nat.mul_zero, filled_zero, Nat.add_zero, Nat.sub_zero, serviceable.exact, pointer] at fetching
        simpa [transferHost, Transfer.resumes, Transfer.start, Transfer.sectorPoint, serviceable.positive,
          works, Transfer.remaining] using fetching
    | fetching inside =>
      cases asks
      cases serves with
      | status shows =>
        have quiet := serviceable.quiet _ inside _ shows
        simpa [transferHost, Transfer.resumes, quiet, works] using Stands.fetching inside
    | drq inside =>
      cases asks
      cases serves with
      | status shows =>
        have request := (ata.request_iff shows not_false).mpr trivial
        simpa [transferHost, Transfer.resumes, request, works, Transfer.remaining]
          using @Stands.word ata transfer memory _ 0 inside (by omega)
    | word inside below =>
      cases asks
      cases serves
      exact ⟨.behind space inside below, remaining_behind inside below⟩
    | returned => cases asks

/-- What is left, the status reads counted. -/
def Transfer.distance (transfer : Transfer) (state : PortState × AtaState) : Nat :=
  2 * transfer.remaining state.1.point state.2.activity + state.1.point.polls.toNat

/-- A register sent leads on. -/
theorem distance_sent {point next : TransferPoint} {file file' : TaskFile} {data : UInt8} {port : Nat}
    (asks : transfer.asks point = some (.outb port data))
    (serves : ata.Serves ⟨file, .idle⟩ (.outb port data) 0 ⟨file', .idle⟩)
    (resumes : transfer.resumes (transfer.start point memory) 0 = transfer.start next memory)
    (less : transfer.remaining next .idle < transfer.remaining point .idle) (sends : next.polls = false) :
    ∃ label last, PortStep ata transfer (transfer.start point memory, ⟨file, .idle⟩) label last ∧
      transfer.distance last < transfer.distance (transfer.start point memory, ⟨file, .idle⟩) := by
  refine ⟨_, _, .served asks serves, ?_⟩
  have resumed : (transferHost transfer).resumes (transfer.start point memory) 0 = transfer.start next memory :=
    resumes
  rw [resumed, Transfer.distance, Transfer.distance]
  simp only [Transfer.start, sends, Bool.toNat_false]
  omega

/-- **Some step leads on** from every point but the last. -/
theorem Stands.advances (serviceable : Serviceable ata transfer) {first : PortState × AtaState}
    (stands : Stands ata transfer memory first) :
    first.1.point = .returned ∨ ∃ label last, PortStep ata transfer first label last ∧
      transfer.distance last < transfer.distance first := by
  cases stands with
  | settling =>
    refine .inr ⟨_, _, .own .settles, ?_⟩
    simp [Transfer.distance, Transfer.remaining, Transfer.start]
  | wait =>
    obtain ⟨status, shows⟩ := ata.shown .idle
    have free := (ata.busy_iff shows).not.mpr not_false
    rw [not_not] at free
    refine .inr ⟨_, _, .served rfl (.status shows), ?_⟩
    simp [transferHost, Transfer.resumes, Transfer.start, free, Transfer.distance, Transfer.remaining,
      TransferPoint.polls]
  | head => exact .inr (distance_sent rfl .head rfl (by simp [Transfer.remaining]) rfl)
  | count => exact .inr (distance_sent rfl .count rfl (by simp [Transfer.remaining]) rfl)
  | low => exact .inr (distance_sent rfl .low rfl (by simp [Transfer.remaining]) rfl)
  | mid => exact .inr (distance_sent rfl .mid rfl (by simp [Transfer.remaining]) rfl)
  | high => exact .inr (distance_sent rfl .high rfl (by simp [Transfer.remaining]) rfl)
  | command =>
    refine .inr ⟨_, _, .served rfl (.readSectors serviceable.master), ?_⟩
    simp [transferHost, Transfer.resumes, Transfer.start, Transfer.distance, Transfer.remaining,
      TransferPoint.polls, Transfer.sectorPoint, serviceable.positive]
    omega
  | fetching inside =>
    refine .inr ⟨_, _, .own (.fetched (serviceable.readable _ inside)), ?_⟩
    simp only [Transfer.distance, Transfer.remaining]
    omega
  | drq inside =>
    obtain ⟨status, shows⟩ := ata.shown (.offering (transfer.file.lba + _) (transfer.sectors - _) 0)
    have request := (ata.request_iff shows not_false).mpr trivial
    refine .inr ⟨_, _, .served rfl (.status shows), ?_⟩
    simp [transferHost, Transfer.resumes, request, Transfer.distance, Transfer.remaining, TransferPoint.polls]
  | @word i j inside below =>
    refine .inr ⟨_, _, .served rfl .word, ?_⟩
    have less := @remaining_behind transfer i j inside below
    have polled := Bool.toNat_le (if j + 1 < 256 then .word i (j + 1) else transfer.sectorPoint (i + 1)).polls
    show 2 * _ + _ < 2 * (257 * (transfer.sectors - i) - 1 - j) + 0
    dsimp only [transferHost, Transfer.resumes]
    omega
  | returned => exact .inl rfl

/-- At the end the sectors lie at `buf`, and the drive is idle. -/
theorem Stands.at_end {first : PortState × AtaState} (stands : Stands ata transfer memory first)
    (returned : first.1.point = .returned) :
    first.2 = ⟨transfer.file, .idle⟩ ∧
      first.1.memory = filled ata transfer memory (512 * transfer.sectors) := by
  cases stands with
  | returned => exact ⟨rfl, rfl⟩
  | _ => cases returned

/-- **No access of the program is refused.** -/
theorem Stands.permitted (serviceable : Serviceable ata transfer) {first : PortState × AtaState}
    (stands : Stands ata transfer memory first) : ¬ Refused (transferHost transfer) ata.device first := by
  rintro ⟨request, asks, refuses⟩
  have polled (state : AtaState) (refuses : ∀ answer next, ¬ ata.Serves state (.insb 0x1F7) answer next) :
      False := by
    obtain ⟨status, shows⟩ := ata.shown state.activity
    exact refuses _ _ (.status shows)
  cases stands with
  | settling => cases asks; exact polled _ refuses
  | wait => cases asks; exact polled _ refuses
  | head => cases asks; exact refuses _ _ .head
  | count => cases asks; exact refuses _ _ .count
  | low => cases asks; exact refuses _ _ .low
  | mid => cases asks; exact refuses _ _ .mid
  | high => cases asks; exact refuses _ _ .high
  | command => cases asks; exact refuses _ _ (.readSectors serviceable.master)
  | fetching => cases asks; exact polled _ refuses
  | drq => cases asks; exact polled _ refuses
  | word => cases asks; exact refuses _ _ .word
  | returned => cases asks

theorem Stands.reached (serviceable : Serviceable ata transfer)
    (space : transfer.buf + 512 * transfer.sectors ≤ 4294967296) {first last : PortState × AtaState}
    (stands : Stands ata transfer memory first)
    (reaches : Reaches (transferHost transfer) ata.device first last) : Stands ata transfer memory last :=
  reaches.preserves (fun _ _ _ stands step => (stands.step serviceable space step).1) stands

theorem Stands.ends (serviceable : Serviceable ata transfer)
    (space : transfer.buf + 512 * transfer.sectors ≤ 4294967296) {first : PortState × AtaState}
    (stands : Stands ata transfer memory first) :
    ∃ ended, Reaches (transferHost transfer) ata.device first ended ∧ ended.1.point = .returned := by
  induction size : transfer.distance first using Nat.strong_induction_on generalizing first with
  | _ size ih =>
    subst size
    rcases stands.advances serviceable with returned | ⟨label, last, step, less⟩
    · exact ⟨first, .refl first, returned⟩
    obtain ⟨ended, rest, returned⟩ := ih _ less (stands.step serviceable space step).1 rfl
    exact ⟨ended, Reaches.trans ⟨[label], .step step (.done last)⟩ rest, returned⟩

/-- **A serviceable transfer delivers**, from wherever it stands. -/
theorem Stands.delivers (serviceable : Serviceable ata transfer)
    (space : transfer.buf + 512 * transfer.sectors ≤ 4294967296) {point : TransferPoint} {state : AtaState}
    (stands : Stands ata transfer memory (transfer.start point memory, state)) :
    TransferDelivers ata transfer (transfer.start point memory, state) where
  permitted _ reaches := (stands.reached serviceable space reaches).permitted serviceable
  delivered _ reaches returned := (stands.reached serviceable space reaches).at_end returned
  ends _ reaches := (stands.reached serviceable space reaches).ends serviceable space

/-- **The steps beside the status reads are counted**: the registers, the words and what the drive does. -/
theorem Stands.counted (serviceable : Serviceable ata transfer)
    (space : transfer.buf + 512 * transfer.sectors ≤ 4294967296) {first last : PortState × AtaState}
    (stands : Stands ata transfer memory first) {labels : List (Event PortAccess UInt16)}
    (run : Run (PortStep ata transfer) first labels last) :
    labels.countP works + transfer.remaining last.1.point last.2.activity =
      transfer.remaining first.1.point first.2.activity :=
  @Run.counted _ _ _ works (Stands ata transfer memory)
    (fun state => transfer.remaining state.1.point state.2.activity)
    (fun _ _ _ stands step => stands.step serviceable space step) _ _ _ run stands

end Serviceable

end KernelPlay
