/-
**`fread` at the end of a file.**

`fat16_read` knows the chain of a file, not its size. `elements_cases` — a read succeeds exactly if the
chain carries every element, and then delivers all the bytes asked for. `Delivers` — the call decides the
byte at a place. So a read stays inside the file exactly if the request does, or asks for nothing, or
meets the end of the chain (`reads_within_iff`); the slack of the last cluster is delivered
(`slack_delivered`).
-/

import KernelPlay.File.Read

namespace KernelPlay

open KernelPlay.Library

/-! ### Whole elements -/

section Element

variable {drive : Drive} {fatPrivate : FatPrivate} {stream : DiskStreamer} {clusterBytes : Int}

/-- A copy that succeeds delivers every byte asked for. -/
theorem fat16CopyLoop_length (positive : 0 < clusterBytes) :
    ∀ (turns : Nat) (curCluster offset total : Int), offset < clusterBytes → total ≤ turns →
      (fat16CopyLoop drive fatPrivate stream clusterBytes turns curCluster offset total).res = ok →
      (fat16CopyLoop drive fatPrivate stream clusterBytes turns curCluster offset total).out.length =
        total.toNat := by
  intro turns
  induction turns with
  | zero =>
    intro curCluster offset total inside enough _
    rw [fat16CopyLoop_done (by omega), List.length_nil]
    omega
  | succ turns ih =>
    intro curCluster offset total inside enough succeeds
    by_cases none : total ≤ 0
    · rw [fat16CopyLoop_done none, List.length_nil]
      omega
    obtain unreadable | readable := Bool.eq_false_or_eq_true (isReadableCluster curCluster) |>.symm
    · rw [fat16CopyLoop_stops (by omega) unreadable] at succeeds
      exact absurd succeeds (by decide)
    by_cases last : total < clusterBytes - offset
    · rw [fat16CopyLoop_last (by omega) readable last]
      exact diskStreamerReadBytes_length ..
    · rw [fat16CopyLoop_next (by omega) readable (by omega)] at succeeds ⊢
      dsimp only at succeeds ⊢
      rw [List.length_append, diskStreamerReadBytes_length, ih _ _ _ positive (by omega) succeeds]
      omega

end Element

section Elements

variable (drive : Drive) (fatPrivate : FatPrivate) (start offset : Int) (size : Nat)

/-- **The chain carries a request**: all values it is followed to are readable; or one in front of the
starting cluster is not, and the request is carried from the number `-EIO` on instead. -/
def Carries (total : Int) : Prop :=
  ((∀ index, 1 ≤ index → index ≤ clustersAhead fatPrivate offset →
      isReadableCluster (fatRoute drive fatPrivate start index) = true) ∧
    ∀ index, index < clustersTouched fatPrivate offset total → isReadableCluster
      (fatRoute drive fatPrivate start (clustersAhead fatPrivate offset + index)) = true) ∨
  ((∃ index, 1 ≤ index ∧ index ≤ clustersAhead fatPrivate offset ∧
      isReadableCluster (fatRoute drive fatPrivate start index) = false) ∧
    ∀ index, index < clustersTouched fatPrivate offset total →
      isReadableCluster (fatRoute drive fatPrivate (-eio) index) = true)

/-- The chain carries every element of a read. -/
def CarriesAll (nmemb : Nat) : Prop :=
  ∀ index, index < nmemb →
    Carries drive fatPrivate start (elementOffset offset size index) (int32 size)

variable {drive fatPrivate start offset size}

/-- An element succeeds exactly if the chain carries it, and then delivers all its bytes. -/
theorem element_cases (spc : fatPrivate.header.sectorsPerCluster ≠ 0) (total : Int) :
    ∃ read, fat16ReadInternalV2 drive fatPrivate start offset total = .ok read ∧
      (read.res = ok ↔ Carries drive fatPrivate start offset total) ∧
      (read.res = ok → read.out.length = total.toNat) := by
  have positive := fat16GetClusterSizeInBytes_pos spc
  have inside := Int.tmod_lt_of_pos offset positive
  obtain ⟨read, result, -, res⟩ := fat16ReadInternalV2_spec drive spc start offset total
  refine ⟨read, result, ?_, fun succeeds => ?_⟩
  · have all_iff : read.res = ok ↔ ∀ index, index < clustersTouched fatPrivate offset total →
        isReadableCluster (fatRoute drive fatPrivate
          (fat16SkipClusters drive fatPrivate (clustersAhead fatPrivate offset) start) index) = true := by
      rw [res]
      split_ifs with all
      · exact ⟨fun _ => all, fun _ => rfl⟩
      · exact ⟨fun wrong => absurd wrong (by decide), fun every => absurd every all⟩
    rw [all_iff]
    by_cases through : ∀ index, 1 ≤ index → index ≤ clustersAhead fatPrivate offset →
        isReadableCluster (fatRoute drive fatPrivate start index) = true
    · rw [fat16SkipClusters_eq drive fatPrivate _ start through]
      simp only [fatRoute_add]
      refine ⟨fun all => .inl ⟨through, all⟩, ?_⟩
      rintro (⟨-, all⟩ | ⟨⟨index, low, high, refused⟩, -⟩)
      · exact all
      · rw [through index low high] at refused
        cases refused
    · push Not at through
      obtain ⟨index, low, high, refused⟩ := through
      have refused := Bool.eq_false_of_not_eq_true refused
      rw [fat16SkipClusters_fails drive fatPrivate _ start index low high refused]
      refine ⟨fun all => .inr ⟨⟨index, low, high, refused⟩, all⟩, ?_⟩
      rintro (⟨through, -⟩ | ⟨-, all⟩)
      · rw [through index low high] at refused
        cases refused
      · exact all
  · rw [fat16ReadInternalV2_eq spc] at result
    cases result
    exact fat16CopyLoop_length positive _ _ _ _ inside (Int.self_le_toNat total) succeeds

/-- **The loop over the elements**: carried by the chain it delivers all their bytes one behind the
other, else it fails. -/
theorem elements_cases (spc : fatPrivate.header.sectorsPerCluster ≠ 0) :
    ∀ (nmemb : Nat) (offset : Int) (place : Nat),
      (CarriesAll drive fatPrivate start offset size nmemb → (int32 size = size ∨ int32 size ≤ 0) →
        ∃ bytes : List UInt8, bytes.length = nmemb * (int32 size).toNat ∧ ∀ out, ∃ clusters,
          fat16ReadElements fatPrivate drive start size nmemb offset place out =
            .ok ⟨ok, overwrite out place bytes, clusters⟩) ∧
      (¬ CarriesAll drive fatPrivate start offset size nmemb → ∀ out, ∃ read,
        fat16ReadElements fatPrivate drive start size nmemb offset place out = .ok read ∧
          read.res ≠ ok) := by
  intro nmemb
  induction nmemb with
  | zero =>
    intro offset place
    refine ⟨fun _ _ => ⟨[], by simp, fun out => ⟨[], ?_⟩⟩, fun missing => ?_⟩
    · rw [overwrite_nil]
      rfl
    · exact absurd (fun index below => absurd below (Nat.not_lt_zero _)) missing
  | succ nmemb ih =>
    intro offset place
    obtain ⟨first, result, succeeds_iff, length⟩ :=
      @element_cases drive fatPrivate start offset spc (int32 size)
    obtain ⟨carried, stopped⟩ := ih (int32 (offset + size)) (place + size)
    by_cases here : Carries drive fatPrivate start offset (int32 size)
    · have succeeds := succeeds_iff.mpr here
      have behind : CarriesAll drive fatPrivate start offset size (nmemb + 1) ↔
          CarriesAll drive fatPrivate start (int32 (offset + size)) size nmemb := by
        refine ⟨fun all index below => all (index + 1) (by omega), fun all index below => ?_⟩
        cases index with
        | zero => exact here
        | succ index => exact all index (by omega)
      rw [behind]
      refine ⟨fun all whole => ?_, fun missing out => ?_⟩
      · obtain ⟨bytes, total, delivers⟩ := carried all whole
        refine ⟨first.out ++ bytes, ?_, fun out => ?_⟩
        · rw [List.length_append, length succeeds, total, Nat.succ_mul, Nat.add_comm]
        · obtain ⟨clusters, rest⟩ := delivers (overwrite out place first.out)
          refine ⟨first.clusters ++ clusters, ?_⟩
          rw [fat16ReadElements_succ result succeeds, rest, ← overwrite_append]
          rcases whole with exactly | none
          · rw [length succeeds, exactly, Int.toNat_natCast]
            rfl
          · have empty : bytes = [] := List.eq_nil_of_length_eq_zero (by
              rw [total, Int.toNat_of_nonpos none, Nat.mul_zero])
            rw [empty, overwrite_nil, overwrite_nil]
            rfl
      · obtain ⟨read, rest, fails⟩ := stopped missing (overwrite out place first.out)
        rw [fat16ReadElements_succ result succeeds, rest]
        exact ⟨_, rfl, fails⟩
    · have fails : first.res ≠ ok := fun succeeds => here (succeeds_iff.mp succeeds)
      refine ⟨fun all => absurd (all 0 (Nat.succ_pos _)) here, fun _ out => ?_⟩
      rw [fat16ReadElements_fails result fails]
      exact ⟨_, rfl, fails⟩

end Elements

/-! ### What a read delivers -/

section Delivers

variable (machine : Machine) (kernel : Kernel) (fd : Int) (size nmemb : Nat)

/-- **The read delivers a byte at the place**: it succeeds, and decides what is there afterwards. -/
def Delivers (place : Nat) : Prop :=
  ∃ byte, ∀ out, ∃ read, fread machine kernel out size nmemb fd = .ok read ∧ read.res = ok ∧
    read.out place = byte

variable {machine kernel fd size nmemb} {fatPrivate : FatPrivate} {entry : FatDirectoryItem} {pos : Nat}

/-- The size of an element as the loop takes it. -/
theorem int32_size (word : size < 4294967296) :
    (size < 2147483648 ∧ int32 size = size) ∨ (2147483648 ≤ size ∧ int32 size ≤ 0) := by
  by_cases small : size < 2147483648
  · exact .inl ⟨small, int32_of_range (by omega) (by omega)⟩
  · refine .inr ⟨by omega, ?_⟩
    unfold int32 Int.bmod
    dsimp only
    split_ifs <;> omega

/-- **The places a read delivers to**: those of the bytes asked for, if the chain carries them all. -/
theorem delivers_iff (handle : OpenFile machine kernel fd fatPrivate entry pos) (some_size : 1 ≤ size)
    (word : size < 4294967296) (some_nmemb : 1 ≤ nmemb) (place : Nat) :
    Delivers machine kernel fd size nmemb place ↔
      fatPrivate.header.sectorsPerCluster ≠ 0 ∧ size < 2147483648 ∧ place < nmemb * size ∧
      CarriesAll machine.drive fatPrivate (fat16GetFirstCluster entry) (int32 pos) size nmemb := by
  unfold Delivers
  simp only [fread_eq handle some_size some_nmemb]
  by_cases spc : fatPrivate.header.sectorsPerCluster = 0
  · refine ⟨?_, fun both => absurd spc both.1⟩
    rintro ⟨byte, delivers⟩
    obtain ⟨read, result, -⟩ := delivers fun _ => 0
    obtain ⟨left, rfl⟩ : ∃ left, nmemb = left + 1 := ⟨nmemb - 1, by omega⟩
    rw [fat16ReadElements, fat16ReadInternalV2_divide spc] at result
    cases result
  obtain ⟨carried, stopped⟩ := @elements_cases machine.drive fatPrivate (fat16GetFirstCluster entry) size
    spc nmemb (int32 pos) 0
  by_cases all : CarriesAll machine.drive fatPrivate (fat16GetFirstCluster entry) (int32 pos) size nmemb
  · obtain ⟨bytes, length, delivers⟩ := carried all (by
      rcases int32_size word with ⟨-, exactly⟩ | ⟨-, none⟩
      · exact .inl exactly
      · exact .inr none)
    have inside_iff : place < bytes.length ↔ size < 2147483648 ∧ place < nmemb * size := by
      rw [length]
      rcases int32_size word with ⟨small, exactly⟩ | ⟨large, none⟩
      · rw [exactly, Int.toNat_natCast]
        exact ⟨fun inside => ⟨small, inside⟩, And.right⟩
      · rw [Int.toNat_of_nonpos none, Nat.mul_zero]
        exact ⟨fun inside => absurd inside (Nat.not_lt_zero _), fun both => by omega⟩
    refine ⟨?_, ?_⟩
    · rintro ⟨byte, decided⟩
      have inside : place < bytes.length := by
        by_contra behind
        have kept (out : Nat → UInt8) : out place = byte := by
          obtain ⟨clusters, result⟩ := delivers out
          obtain ⟨read, result', -, same⟩ := decided out
          rw [result] at result'
          cases result'
          have behind : 0 + bytes.length ≤ place := by omega
          rw [← same]
          exact (overwrite_behind out behind).symm
        exact absurd ((kept fun _ => 0).trans (kept fun _ => 1).symm) (by decide)
      exact ⟨spc, (inside_iff.mp inside).1, (inside_iff.mp inside).2, all⟩
    · rintro ⟨-, small, below, -⟩
      have inside := inside_iff.mpr ⟨small, below⟩
      refine ⟨bytes.getD place 0, fun out => ?_⟩
      obtain ⟨clusters, result⟩ := delivers out
      refine ⟨_, result, rfl, ?_⟩
      unfold overwrite
      dsimp only
      rw [if_pos (Nat.zero_le _), Nat.sub_zero, List.getD_eq_getElem _ _ inside,
        List.getD_eq_getElem _ _ inside]
  · refine ⟨?_, fun both => absurd both.2.2.2 all⟩
    rintro ⟨byte, delivers⟩
    obtain ⟨read, result, succeeds, -⟩ := delivers fun _ => 0
    obtain ⟨read', result', fails⟩ := stopped all fun _ => 0
    cases result.symm.trans result'
    exact absurd succeeds fails

/-- **A read delivers nothing behind the end of the file** exactly if the request ends inside it, is
for elements of no size, or is not carried by the chain. -/
theorem reads_within_iff (handle : OpenFile machine kernel fd fatPrivate entry pos)
    (some_size : 1 ≤ size) (word : size < 4294967296) (some_nmemb : 1 ≤ nmemb) :
    (∀ place, Delivers machine kernel fd size nmemb place → pos + place < entry.filesize.toNat) ↔
      pos + nmemb * size ≤ entry.filesize.toNat ∨ 2147483648 ≤ size ∨
      fatPrivate.header.sectorsPerCluster = 0 ∨
      ¬ CarriesAll machine.drive fatPrivate (fat16GetFirstCluster entry) (int32 pos) size nmemb := by
  simp only [delivers_iff handle some_size word some_nmemb]
  refine ⟨fun within => ?_, ?_⟩
  · by_contra crossing
    push Not at crossing
    obtain ⟨past, small, spc, all⟩ := crossing
    have some : 1 ≤ nmemb * size := Nat.mul_pos some_nmemb some_size
    have last := within (nmemb * size - 1) ⟨spc, small, by omega, all⟩
    omega
  · rintro (inside | large | none | missing) place ⟨spc, small, below, all⟩
    · omega
    · omega
    · exact absurd none spc
    · exact absurd all missing

end Delivers

section Small

/-- Two elements of one byte. -/
theorem reads_within_iff_small :
    (∀ place, Delivers (smallMachine smallDrive) smallKernel 1 1 2 place →
        0 + place < (smallEntry 2 0 3).filesize.toNat) ↔
      0 + 2 * 1 ≤ (smallEntry 2 0 3).filesize.toNat ∨ 2147483648 ≤ 1 ∨
      smallPrivate.header.sectorsPerCluster = 0 ∨
      ¬ CarriesAll smallDrive smallPrivate (fat16GetFirstCluster (smallEntry 2 0 3)) (int32 0) 1 2 :=
  reads_within_iff small_open le_rfl (by decide) (by decide)

/-- The file has three bytes; a read of four delivers the fourth from the slack of its cluster. -/
theorem slack_delivered :
    OpenFile (smallMachine smallDrive) smallKernel 1 smallPrivate (smallEntry 2 0 3) 0 ∧
      Delivers (smallMachine smallDrive) smallKernel 1 4 1 3 ∧
      ¬ 0 + 3 < (smallEntry 2 0 3).filesize.toNat := by
  have start : fat16GetFirstCluster (smallEntry 2 0 3) = 2 := by decide
  have ahead : clustersAhead smallPrivate (elementOffset (int32 0) 4 0) = 0 := by decide
  have touched : clustersTouched smallPrivate (elementOffset (int32 0) 4 0) (int32 4) = 1 := by
    decide
  have carried : CarriesAll smallDrive smallPrivate (fat16GetFirstCluster (smallEntry 2 0 3)) (int32 0) 4
      1 := by
    intro index below
    obtain rfl : index = 0 := by omega
    refine .inl ⟨fun before low high => ?_, fun turn within => ?_⟩
    · change before ≤ clustersAhead smallPrivate (elementOffset (int32 0) 4 0) at high
      omega
    · change turn < clustersTouched smallPrivate (elementOffset (int32 0) 4 0) (int32 4) at within
      obtain rfl : turn = 0 := by omega
      rw [ahead, start]
      rfl
  exact ⟨small_open, (delivers_iff small_open (by decide) (by decide) le_rfl 3).mpr
    ⟨by decide, by decide, by decide, carried⟩, by decide⟩

end Small

end KernelPlay
