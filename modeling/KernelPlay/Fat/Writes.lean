/-
**The writes of `fat16_read`.**

`fat16ReadStep` — the loops of `fat16_read` as a machine: a step is one test of a loop's condition with
the turn behind it, and emits the bytes written to `out`. `read_halts` — it halts, and has filled the
buffer from the front: `Filling` is the invariant, `turnsLeft` what every step lessens. `elements_computes`
— it computes what `fat16Read` returns.
-/

import KernelPlay.Fat.Safety
import KernelPlay.Library.Halting
import Mathlib.Data.Prod.Lex

namespace KernelPlay

open KernelPlay.Library

/-- The variables of the loop of `fat16_read`; `out` counts from the pointer it was called with. -/
structure ElementLoop where
  i : Int
  offset : Int
  out : Nat

/-- Where a `fat16_read` stands: at the condition of one of its three loops, or at its end. -/
inductive ReadPoint
  | element (loop : ElementLoop)
  | skip (loop : ElementLoop) (i clusterToUse : Int)
  | copy (loop : ElementLoop) (curCluster offsetFromCurCluster total : Int) (out : Nat)
  | returned (res : Int)
  | faulted (fault : Fault)

section Code

variable (drive : Drive) (fatPrivate : FatPrivate) (startingCluster : Int) (size nmemb : Nat)

/-- `fat16_get_cluster_for_offset` has returned. -/
def fat16ReadCopies (loop : ElementLoop) (curCluster : Int) : ReadPoint :=
  .copy loop curCluster (loop.offset.tmod (fat16GetClusterSizeInBytes fatPrivate)) (int32 size) loop.out

/-- One step, and what it writes. -/
def fat16ReadStep : ReadPoint → Option (ReadPoint × List (Nat × UInt8))
  | .element loop =>
    if uint32 loop.i < nmemb then
      if fat16GetClusterSizeInBytes fatPrivate = 0 then some (.faulted .divideError, [])
      else some (.skip loop 0 startingCluster, [])
    else some (.returned ok, [])
  | .skip loop i clusterToUse =>
    if i < loop.offset.tdiv (fat16GetClusterSizeInBytes fatPrivate) then
      let entry := fat16GetFatEntry drive fatPrivate clusterToUse
      if ¬ isReadableCluster entry then some (fat16ReadCopies fatPrivate size loop (-eio), [])
      else some (.skip loop (int32 (i + 1)) entry, [])
    else some (fat16ReadCopies fatPrivate size loop clusterToUse, [])
  | .copy loop curCluster offsetFromCurCluster total out =>
    if total > 0 then
      if ¬ isReadableCluster curCluster then some (.returned (-eio), [])
      else
        let availableInCurCluster := fat16GetClusterSizeInBytes fatPrivate - offsetFromCurCluster
        let bytesRead := if total > availableInCurCluster then availableInCurCluster else total
        let sector := fat16ClusterToSector fatPrivate curCluster
        let pos := int32 (offsetFromCurCluster + sector * diskSectorSize)
        let read := diskStreamerReadBytes drive
          (diskStreamerSeekPos fatPrivate.clusterReadStream pos) bytesRead
        if read.res ≠ ok then some (.returned (-eio), placed out read.bytes)
        else if bytesRead = availableInCurCluster then
          some (.copy loop (fat16GetFatEntry drive fatPrivate curCluster) 0 (total - bytesRead)
            (out + bytesRead.toNat), placed out read.bytes)
        else
          some (.copy loop curCluster offsetFromCurCluster (total - bytesRead)
            (out + bytesRead.toNat), placed out read.bytes)
    else some (.element ⟨int32 (loop.i + 1), int32 (loop.offset + size), loop.out + size⟩, [])
  | .returned _ => none
  | .faulted _ => none

end Code

/-- The bytes a turn of the copy loop reads. -/
def copied (drive : Drive) (fatPrivate : FatPrivate) (curCluster offset bytesRead : Int) : List UInt8 :=
  (diskStreamerReadBytes drive (diskStreamerSeekPos fatPrivate.clusterReadStream
    (int32 (offset + fat16ClusterToSector fatPrivate curCluster * diskSectorSize))) bytesRead).bytes

/-! ### The steps -/

section Steps

variable {drive : Drive} {fatPrivate : FatPrivate} {startingCluster : Int} {size nmemb : Nat}
  {loop : ElementLoop} {i clusterToUse curCluster offset total : Int} {out : Nat}

theorem step_element (spc : fatPrivate.header.sectorsPerCluster ≠ 0) (more : uint32 loop.i < nmemb) :
    fat16ReadStep drive fatPrivate startingCluster size nmemb (.element loop) =
      some (.skip loop 0 startingCluster, []) := by
  rw [fat16ReadStep, if_pos more, if_neg (fat16GetClusterSizeInBytes_pos spc).ne']

theorem step_element_ends (none : ¬ uint32 loop.i < nmemb) :
    fat16ReadStep drive fatPrivate startingCluster size nmemb (.element loop) =
      some (.returned ok, []) := by
  rw [fat16ReadStep, if_neg none]

theorem step_skip (ahead : i < loop.offset.tdiv (fat16GetClusterSizeInBytes fatPrivate))
    (readable : isReadableCluster (fat16GetFatEntry drive fatPrivate clusterToUse) = true) :
    fat16ReadStep drive fatPrivate startingCluster size nmemb (.skip loop i clusterToUse) =
      some (.skip loop (int32 (i + 1)) (fat16GetFatEntry drive fatPrivate clusterToUse), []) := by
  rw [fat16ReadStep, if_pos ahead]
  exact if_neg (not_not.mpr readable)

theorem step_skip_stops (ahead : i < loop.offset.tdiv (fat16GetClusterSizeInBytes fatPrivate))
    (unreadable : ¬ isReadableCluster (fat16GetFatEntry drive fatPrivate clusterToUse) = true) :
    fat16ReadStep drive fatPrivate startingCluster size nmemb (.skip loop i clusterToUse) =
      some (fat16ReadCopies fatPrivate size loop (-eio), []) := by
  rw [fat16ReadStep, if_pos ahead]
  exact if_pos unreadable

theorem step_skip_ends (none : ¬ i < loop.offset.tdiv (fat16GetClusterSizeInBytes fatPrivate)) :
    fat16ReadStep drive fatPrivate startingCluster size nmemb (.skip loop i clusterToUse) =
      some (fat16ReadCopies fatPrivate size loop clusterToUse, []) := by
  rw [fat16ReadStep, if_neg none]

theorem step_copy_ends (none : total ≤ 0) :
    fat16ReadStep drive fatPrivate startingCluster size nmemb (.copy loop curCluster offset total out) =
      some (.element ⟨int32 (loop.i + 1), int32 (loop.offset + size), loop.out + size⟩, []) := by
  rw [fat16ReadStep, if_neg (by omega)]

theorem step_copy_stops (left : 0 < total) (unreadable : ¬ isReadableCluster curCluster = true) :
    fat16ReadStep drive fatPrivate startingCluster size nmemb (.copy loop curCluster offset total out) =
      some (.returned (-eio), []) := by
  rw [fat16ReadStep, if_pos left, if_pos unreadable]

/-- A turn that ends inside its cluster. -/
theorem step_copy_last (left : 0 < total) (readable : isReadableCluster curCluster = true)
    (inside : total < fat16GetClusterSizeInBytes fatPrivate - offset) :
    fat16ReadStep drive fatPrivate startingCluster size nmemb (.copy loop curCluster offset total out) =
      some (.copy loop curCluster offset 0 (out + total.toNat),
        placed out (copied drive fatPrivate curCluster offset total)) := by
  rw [fat16ReadStep, if_pos left, if_neg (not_not.mpr readable)]
  dsimp only
  rw [diskStreamerReadBytes_res, if_neg (not_not.mpr rfl), if_neg (by omega), if_neg (by omega), sub_self]
  rfl

/-- A turn that reaches the end of its cluster. -/
theorem step_copy_next (left : 0 < total) (readable : isReadableCluster curCluster = true)
    (reaches : fat16GetClusterSizeInBytes fatPrivate - offset ≤ total) :
    fat16ReadStep drive fatPrivate startingCluster size nmemb (.copy loop curCluster offset total out) =
      some (.copy loop (fat16GetFatEntry drive fatPrivate curCluster) 0
          (total - (fat16GetClusterSizeInBytes fatPrivate - offset))
          (out + (fat16GetClusterSizeInBytes fatPrivate - offset).toNat),
        placed out (copied drive fatPrivate curCluster offset
          (fat16GetClusterSizeInBytes fatPrivate - offset))) := by
  have whole : (if total > fat16GetClusterSizeInBytes fatPrivate - offset then
      fat16GetClusterSizeInBytes fatPrivate - offset else total) =
      fat16GetClusterSizeInBytes fatPrivate - offset := by
    split_ifs <;> omega
  rw [fat16ReadStep, if_pos left, if_neg (not_not.mpr readable)]
  dsimp only
  rw [whole, diskStreamerReadBytes_res, if_neg (not_not.mpr rfl), if_pos rfl]
  rfl

end Steps

/-! ### It halts -/

/-- **The buffer is filled from the front**: the writes go to `out[0]`, `out[1]`, … in this order, one to
each, none behind the request, and all of it if the call succeeds. -/
structure FillsFront (size nmemb : Nat) (writes : List (Nat × UInt8)) (res : Int) : Prop where
  inOrder : writes.map Prod.fst = List.range writes.length
  inside : writes.length ≤ size * nmemb
  complete : res = ok → writes.length = size * nmemb

section Halts

variable (fatPrivate : FatPrivate) (pos size nmemb : Nat)

/-- The loop of `fat16_read` is at an element. -/
structure AtElement (loop : ElementLoop) (index : Nat) : Prop where
  i : loop.i = index
  offset : loop.offset = (pos + index * size : Nat)
  out : loop.out = index * size

/-- **What is written so far**: all elements in front, and of the element at hand what the copy loop has
gone through; the offset in its cluster stays below the cluster's size. -/
def Filling (writes : List (Nat × UInt8)) : ReadPoint → Prop
  | .element loop => ∃ index, index ≤ nmemb ∧ AtElement pos size loop index ∧
      writes.map Prod.fst = List.range (index * size)
  | .skip loop i _ => ∃ index, index < nmemb ∧ AtElement pos size loop index ∧ 0 ≤ i ∧
      writes.map Prod.fst = List.range (index * size)
  | .copy loop _ offsetFromCurCluster total out => ∃ index done left : Nat, index < nmemb ∧
      AtElement pos size loop index ∧ done + left = size ∧ total = left ∧ out = index * size + done ∧
      offsetFromCurCluster < fat16GetClusterSizeInBytes fatPrivate ∧
      writes.map Prod.fst = List.range out
  | .returned res => FillsFront size nmemb writes res
  | .faulted _ => False

/-- **The turns left**: of the loop over the elements, then of the loop inside. -/
def turnsLeft : ReadPoint → ℕ ×ₗ ℕ ×ₗ ℕ
  | .element loop => toLex (nmemb - loop.i.toNat, toLex (3, 0))
  | .skip loop i _ => toLex (nmemb - loop.i.toNat, toLex (2,
      (loop.offset.tdiv (fat16GetClusterSizeInBytes fatPrivate) - i).toNat))
  | .copy loop _ _ total _ => toLex (nmemb - loop.i.toNat, toLex (1, total.toNat))
  | .returned _ | .faulted _ => toLex (0, toLex (0, 0))

variable {fatPrivate pos size nmemb}
variable {drive : Drive} {startingCluster : Int} {writes : List (Nat × UInt8)} {loop : ElementLoop}

theorem lessTurns {first first' second second' third third' : ℕ}
    (less : first' < first ∨ first' = first ∧ (second' < second ∨ second' = second ∧ third' < third)) :
    (toLex (first', toLex (second', third')) : ℕ ×ₗ ℕ ×ₗ ℕ) < toLex (first, toLex (second, third)) := by
  simpa [Prod.Lex.toLex_lt_toLex] using less

/-- What a step has to keep and to lessen. -/
def StepKeeps (fatPrivate : FatPrivate) (pos size nmemb : Nat) (writes : List (Nat × UInt8))
    (point next : ReadPoint) (output : List (Nat × UInt8)) : Prop :=
  Filling fatPrivate pos size nmemb (writes ++ output) next ∧
    turnsLeft fatPrivate nmemb next < turnsLeft fatPrivate nmemb point

theorem fillsFront_of_range {count : Nat} {res : Int} (inOrder : writes.map Prod.fst = List.range count)
    (inside : count ≤ size * nmemb) (complete : res = ok → count = size * nmemb) :
    FillsFront size nmemb writes res := by
  have length : writes.length = count := by simpa using congrArg List.length inOrder
  subst length
  exact ⟨inOrder, inside, complete⟩

/-- Bytes written behind those there are. -/
theorem range_placed {out : Nat} (inOrder : writes.map Prod.fst = List.range out) (bytes : List UInt8) :
    (writes ++ placed out bytes).map Prod.fst = List.range (out + bytes.length) := by
  rw [List.map_append, inOrder, placed_addresses, List.range_eq_range', List.range_eq_range']
  simpa using @List.range'_append_1 0 out bytes.length

/-- The request ends below `2 ^ 31`, and so does everything in it. -/
theorem request_bounds {index : Nat} (some : 0 < size) (below : pos + size * nmemb < 2147483648)
    (within : index ≤ nmemb) : pos + index * size < 2147483648 ∧ index * size ≤ size * nmemb ∧
      nmemb < 2147483648 := by
  have behind := Nat.mul_le_mul_right size within
  have elements := Nat.le_mul_of_pos_left nmemb some
  rw [Nat.mul_comm nmemb] at behind
  omega

/-- From the loop over the elements. -/
theorem element_keeps (spc : fatPrivate.header.sectorsPerCluster ≠ 0) (some : 0 < size)
    (below : pos + size * nmemb < 2147483648) {next : ReadPoint} {output : List (Nat × UInt8)}
    (filling : Filling fatPrivate pos size nmemb writes (.element loop))
    (goes : fat16ReadStep drive fatPrivate startingCluster size nmemb (.element loop) =
      Option.some (next, output)) :
    StepKeeps fatPrivate pos size nmemb writes (.element loop) next output := by
  obtain ⟨index, within, at_index, inOrder⟩ := filling
  obtain ⟨-, -, elements⟩ := request_bounds some below within
  have counted : uint32 loop.i = index := by rw [at_index.i, uint32_natCast (by omega)]
  by_cases more : uint32 loop.i < nmemb
  · rw [step_element spc more] at goes
    cases goes
    refine ⟨⟨index, by omega, at_index, le_rfl, by simpa using inOrder⟩, lessTurns ?_⟩
    simp
  · rw [step_element_ends more] at goes
    cases goes
    obtain rfl : index = nmemb := by omega
    have all : index * size = size * index := Nat.mul_comm index size
    exact ⟨fillsFront_of_range (by simpa using inOrder) all.le fun _ => all, lessTurns (by omega)⟩

/-- The copy loop starts at the beginning of the element. -/
theorem copies_filling (spc : fatPrivate.header.sectorsPerCluster ≠ 0)
    (below : pos + size * nmemb < 2147483648)
    {index : Nat} (more : index < nmemb) (at_index : AtElement pos size loop index)
    (inOrder : writes.map Prod.fst = List.range (index * size)) (curCluster : Int) :
    Filling fatPrivate pos size nmemb writes (fat16ReadCopies fatPrivate size loop curCluster) := by
  have one := Nat.le_mul_of_pos_right size (Nat.zero_lt_of_lt more)
  refine ⟨index, 0, size, more, at_index, Nat.zero_add size, ?_, at_index.out, ?_, ?_⟩
  · exact int32_of_range (by omega) (by omega)
  · exact Int.tmod_lt_of_pos _ (fat16GetClusterSizeInBytes_pos spc)
  · rw [inOrder, at_index.out]

/-- From the loop over the clusters ahead. -/
theorem skip_keeps (spc : fatPrivate.header.sectorsPerCluster ≠ 0) (some : 0 < size)
    (below : pos + size * nmemb < 2147483648) {i clusterToUse : Int} {next : ReadPoint}
    {output : List (Nat × UInt8)}
    (filling : Filling fatPrivate pos size nmemb writes (.skip loop i clusterToUse))
    (goes : fat16ReadStep drive fatPrivate startingCluster size nmemb (.skip loop i clusterToUse) =
      Option.some (next, output)) :
    StepKeeps fatPrivate pos size nmemb writes (.skip loop i clusterToUse) next output := by
  obtain ⟨index, more, at_index, low, inOrder⟩ := filling
  obtain ⟨offset_below, -, -⟩ := request_bounds some below more.le
  have offset := at_index.offset
  have ahead_below : loop.offset.tdiv (fat16GetClusterSizeInBytes fatPrivate) ≤ loop.offset :=
    Int.tdiv_le_self _ (by omega)
  have copies (curCluster : Int) : StepKeeps fatPrivate pos size nmemb writes (.skip loop i clusterToUse)
      (fat16ReadCopies fatPrivate size loop curCluster) [] := by
    rw [StepKeeps, List.append_nil]
    exact ⟨copies_filling spc below more at_index inOrder curCluster, lessTurns (by omega)⟩
  by_cases ahead : i < loop.offset.tdiv (fat16GetClusterSizeInBytes fatPrivate)
  swap
  · rw [step_skip_ends ahead] at goes
    cases goes
    exact copies clusterToUse
  by_cases readable : isReadableCluster (fat16GetFatEntry drive fatPrivate clusterToUse) = true
  · rw [step_skip ahead readable] at goes
    cases goes
    have next : int32 (i + 1) = i + 1 := int32_of_range (by omega) (by omega)
    exact ⟨⟨index, more, at_index, by omega, by simpa using inOrder⟩, lessTurns (by omega)⟩
  · rw [step_skip_stops ahead readable] at goes
    cases goes
    exact copies (-eio)

/-- From the copy loop. A turn reads at least one byte, because the offset lies inside the cluster. -/
theorem copy_keeps (spc : fatPrivate.header.sectorsPerCluster ≠ 0) (some : 0 < size)
    (below : pos + size * nmemb < 2147483648) {curCluster offset total : Int} {out : Nat}
    {next : ReadPoint} {output : List (Nat × UInt8)}
    (filling : Filling fatPrivate pos size nmemb writes (.copy loop curCluster offset total out))
    (goes : fat16ReadStep drive fatPrivate startingCluster size nmemb
      (.copy loop curCluster offset total out) = Option.some (next, output)) :
    StepKeeps fatPrivate pos size nmemb writes (.copy loop curCluster offset total out) next output := by
  obtain ⟨index, done, left, more, at_index, whole, rfl, out_eq, inside, inOrder⟩ := filling
  obtain ⟨behind_below, behind_within, elements⟩ :=
    request_bounds some below (show index + 1 ≤ nmemb from more)
  have behind : (index + 1) * size = index * size + size := Nat.succ_mul index size
  have placed_range (bytes : List UInt8) := range_placed inOrder bytes
  by_cases none : (left : Int) ≤ 0
  · rw [step_copy_ends none] at goes
    cases goes
    have next : int32 (loop.i + 1) = (index + 1 : Nat) := by
      rw [at_index.i, int32_of_range (by omega) (by omega)]
      omega
    refine ⟨⟨index + 1, more, ⟨next, ?_, ?_⟩, ?_⟩, lessTurns ?_⟩
    · show int32 (loop.offset + size) = _
      rw [at_index.offset, int32_of_range (by omega) (by omega)]
      omega
    · show loop.out + size = _
      rw [at_index.out, behind]
    · rw [List.append_nil, inOrder, behind]
      congr 1
      omega
    · rw [next, at_index.i]
      dsimp only
      omega
  by_cases readable : isReadableCluster curCluster = true
  swap
  · rw [step_copy_stops (by omega) readable] at goes
    cases goes
    refine ⟨fillsFront_of_range (by simpa using inOrder) (by omega) fun wrong => ?_, lessTurns (by omega)⟩
    exact absurd wrong (by decide)
  by_cases last : (left : Int) < fat16GetClusterSizeInBytes fatPrivate - offset
  · rw [step_copy_last (by omega) readable last] at goes
    cases goes
    refine ⟨⟨index, done + left, 0, more, at_index, by omega, rfl, by omega, inside, ?_⟩, lessTurns ?_⟩
    · rw [placed_range, copied, diskStreamerReadBytes_length]
    · simp
      omega
  · rw [step_copy_next (by omega) readable (by omega)] at goes
    cases goes
    obtain ⟨count, count_eq⟩ := Int.eq_ofNat_of_zero_le
      (show 0 ≤ fat16GetClusterSizeInBytes fatPrivate - offset by omega)
    refine ⟨⟨index, done + count, left - count, more, at_index, by omega, by omega, by omega, ?_, ?_⟩,
      lessTurns ?_⟩
    · exact fat16GetClusterSizeInBytes_pos spc
    · rw [placed_range, copied, diskStreamerReadBytes_length]
    · simp
      omega

/-- **One step** keeps the filling and lessens the turns left. -/
theorem step_keeps (spc : fatPrivate.header.sectorsPerCluster ≠ 0) (some : 0 < size)
    (below : pos + size * nmemb < 2147483648) {point next : ReadPoint} {output : List (Nat × UInt8)}
    (filling : Filling fatPrivate pos size nmemb writes point)
    (goes : fat16ReadStep drive fatPrivate startingCluster size nmemb point =
      Option.some (next, output)) :
    StepKeeps fatPrivate pos size nmemb writes point next output := by
  cases point with
  | element loop => exact element_keeps spc some below filling goes
  | skip loop i clusterToUse => exact skip_keeps spc some below filling goes
  | copy loop curCluster offset total out => exact copy_keeps spc some below filling goes
  | returned res => cases goes
  | faulted fault => exact filling.elim

/-- A machine that halts has returned. -/
theorem halts_returned {point : ReadPoint} (filling : Filling fatPrivate pos size nmemb writes point)
    (halts : fat16ReadStep drive fatPrivate startingCluster size nmemb point = none) :
    ∃ res, point = .returned res := by
  cases point with
  | element loop =>
    rw [fat16ReadStep] at halts
    split_ifs at halts
  | skip loop i clusterToUse =>
    rw [fat16ReadStep] at halts
    dsimp only at halts
    split_ifs at halts
  | copy loop curCluster offset total out =>
    rw [fat16ReadStep] at halts
    dsimp only at halts
    split_ifs at halts
  | returned res => exact ⟨res, rfl⟩
  | faulted fault => exact filling.elim

/-- **`fat16_read` halts**, and has filled the buffer from the front. -/
theorem read_halts (drive : Drive) (startingCluster : Int)
    (spc : fatPrivate.header.sectorsPerCluster ≠ 0) (some : 0 < size)
    (below : pos + size * nmemb < 2147483648) :
    ∃ writes res, Computes (fat16ReadStep drive fatPrivate startingCluster size nmemb)
      (.element ⟨0, pos, 0⟩) writes (.returned res) ∧ FillsFront size nmemb writes res := by
  have start : Filling fatPrivate pos size nmemb [] (.element ⟨0, pos, 0⟩) :=
    ⟨0, Nat.zero_le nmemb, ⟨rfl, by simp, by simp⟩, by simp⟩
  obtain ⟨writes, last, computes, filling, halts⟩ := computes_of_measure (turnsLeft fatPrivate nmemb)
    (fun _ _ _ _ => step_keeps spc some below) _ start
  obtain ⟨res, rfl⟩ := halts_returned filling halts
  exact ⟨writes, res, computes, filling⟩

end Halts

/-! ### It computes what `fat16Read` returns -/

section Refines

variable {drive : Drive} {fatPrivate : FatPrivate} {startingCluster : Int} {size nmemb : Nat}
  {loop : ElementLoop} {writes : List (Nat × UInt8)} {last : ReadPoint}

/-- Where the copy loop leads to. -/
def afterCopy (size : Nat) (loop : ElementLoop) (res : Int) : ReadPoint :=
  if res = ok then .element ⟨int32 (loop.i + 1), int32 (loop.offset + size), loop.out + size⟩
  else .returned res

/-- **The copy loop**, by induction on its turns. -/
theorem copy_computes (spc : fatPrivate.header.sectorsPerCluster ≠ 0) :
    ∀ (turns : Nat) (curCluster offset total : Int) (out : Nat),
      offset < fat16GetClusterSizeInBytes fatPrivate → total ≤ turns →
      Computes (fat16ReadStep drive fatPrivate startingCluster size nmemb)
        (afterCopy size loop (fat16CopyLoop drive fatPrivate fatPrivate.clusterReadStream
          (fat16GetClusterSizeInBytes fatPrivate) turns curCluster offset total).res) writes last →
      Computes (fat16ReadStep drive fatPrivate startingCluster size nmemb)
        (.copy loop curCluster offset total out)
        (placed out (fat16CopyLoop drive fatPrivate fatPrivate.clusterReadStream
          (fat16GetClusterSizeInBytes fatPrivate) turns curCluster offset total).out ++ writes) last := by
  intro turns
  induction turns with
  | zero =>
    intro curCluster offset total out _ enough after
    rw [fat16CopyLoop_done (by omega)] at after ⊢
    exact .silent (step_copy_ends (by omega)) after
  | succ turns ih =>
    intro curCluster offset total out inside enough after
    by_cases none : total ≤ 0
    · rw [fat16CopyLoop_done none] at after ⊢
      exact .silent (step_copy_ends none) after
    by_cases readable : isReadableCluster curCluster = true
    swap
    · rw [fat16CopyLoop_stops (by omega) (Bool.eq_false_of_not_eq_true readable)] at after ⊢
      exact .silent (step_copy_stops (by omega) readable) after
    by_cases ends : total < fat16GetClusterSizeInBytes fatPrivate - offset
    · rw [fat16CopyLoop_last (by omega) readable ends] at after ⊢
      exact .goes (step_copy_last (by omega) readable ends) (.silent (step_copy_ends le_rfl) after)
    · rw [fat16CopyLoop_next (by omega) readable (by omega)] at after ⊢
      dsimp only at after ⊢
      rw [placed_append, diskStreamerReadBytes_length, List.append_assoc]
      refine .goes (step_copy_next (by omega) readable (by omega)) ?_
      exact ih _ _ _ _ (fat16GetClusterSizeInBytes_pos spc) (by omega) after

/-- **The loop over the clusters ahead**, by induction on those left. -/
theorem skip_computes
    (low : loop.offset.tdiv (fat16GetClusterSizeInBytes fatPrivate) < 2147483648) :
    ∀ (count : Nat) (i clusterToUse : Int), 0 ≤ i →
      (loop.offset.tdiv (fat16GetClusterSizeInBytes fatPrivate) - i).toNat = count →
      Computes (fat16ReadStep drive fatPrivate startingCluster size nmemb)
        (fat16ReadCopies fatPrivate size loop (fat16SkipClusters drive fatPrivate count clusterToUse))
        writes last →
      Computes (fat16ReadStep drive fatPrivate startingCluster size nmemb)
        (.skip loop i clusterToUse) writes last := by
  intro count
  induction count with
  | zero =>
    intro i clusterToUse _ left after
    exact .silent (step_skip_ends (by omega)) after
  | succ count ih =>
    intro i clusterToUse start left after
    have next : int32 (i + 1) = i + 1 := int32_of_range (by omega) (by omega)
    rw [fat16SkipClusters] at after
    by_cases readable : isReadableCluster (fat16GetFatEntry drive fatPrivate clusterToUse) = true
    · rw [if_neg (not_not.mpr readable)] at after
      refine .silent (step_skip (by omega) readable) ?_
      rw [next]
      exact ih _ _ (by omega) (by omega) after
    · rw [if_pos readable] at after
      exact .silent (step_skip_stops (by omega) readable) after

/-- One element. -/
theorem element_computes (spc : fatPrivate.header.sectorsPerCluster ≠ 0) {read : ClusterRead}
    (more : uint32 loop.i < nmemb) (high : loop.offset < 2147483648)
    (done : fat16ReadInternalV2 drive fatPrivate startingCluster loop.offset (int32 size) = .ok read)
    (after : Computes (fat16ReadStep drive fatPrivate startingCluster size nmemb)
      (afterCopy size loop read.res) writes last) :
    Computes (fat16ReadStep drive fatPrivate startingCluster size nmemb) (.element loop)
      (placed loop.out read.out ++ writes) last := by
  have positive := fat16GetClusterSizeInBytes_pos spc
  have low : loop.offset.tdiv (fat16GetClusterSizeInBytes fatPrivate) < 2147483648 := by
    rcases Int.le_total 0 loop.offset with nonneg | negative
    · exact lt_of_le_of_lt (Int.tdiv_le_self _ nonneg) high
    · have opposite := Int.tdiv_nonneg (Int.neg_nonneg.mpr negative) positive.le
      rw [Int.neg_tdiv] at opposite
      omega
  rw [fat16ReadInternalV2_eq spc, Except.ok.injEq] at done
  subst done
  refine .silent (step_element spc more) ?_
  have ahead : (loop.offset.tdiv (fat16GetClusterSizeInBytes fatPrivate) - 0).toNat =
      clustersAhead fatPrivate loop.offset := by
    rw [sub_zero, clustersAhead]
  refine skip_computes low _ 0 _ le_rfl ahead ?_
  exact copy_computes spc _ _ _ _ _ (Int.tmod_lt_of_pos _ positive) (Int.self_le_toNat _) after

/-- **The loop over the elements**, by induction on those left. -/
theorem elements_computes (spc : fatPrivate.header.sectorsPerCluster ≠ 0) (elements : nmemb < 2147483648) :
    ∀ (left index : Nat) (offset : Int) (out : Nat) (buffer : Nat → UInt8), index + left = nmemb →
      offset < 2147483648 → ∃ writes res clusters,
      Computes (fat16ReadStep drive fatPrivate startingCluster size nmemb) (.element ⟨index, offset, out⟩)
        writes (.returned res) ∧
      fat16ReadElements fatPrivate drive startingCluster size left offset out buffer =
        .ok ⟨res, writeAll buffer writes, clusters⟩ := by
  intro left
  induction left with
  | zero =>
    intro index offset out buffer counted high
    have none : ¬ uint32 (index : Int) < nmemb := by
      rw [uint32_natCast (by omega)]
      omega
    exact ⟨[], ok, [], .silent (step_element_ends none) (.halts rfl), rfl⟩
  | succ left ih =>
    intro index offset out buffer counted high
    have more : uint32 (index : Int) < nmemb := by
      rw [uint32_natCast (by omega)]
      omega
    have next : int32 ((index : Int) + 1) = (index + 1 : Nat) := by
      rw [int32_of_range (by omega) (by omega)]
      omega
    obtain ⟨read, done, -⟩ := fat16ReadInternalV2_spec drive spc startingCluster offset (int32 size)
    rw [fat16ReadElements, done, ok_bind]
    dsimp only
    by_cases fails : read.res ≠ ok
    · rw [if_pos fails, ← writeAll_placed]
      refine ⟨placed out read.out, read.res, read.clusters, ?_, rfl⟩
      have after : Computes (fat16ReadStep drive fatPrivate startingCluster size nmemb)
          (afterCopy size ⟨index, offset, out⟩ read.res) [] (.returned read.res) := by
        rw [afterCopy, if_neg fails]
        exact .halts rfl
      simpa using element_computes spc more high done after
    · rw [if_neg fails, ← writeAll_placed]
      obtain ⟨writes, res, clusters, computes, rest⟩ := ih (index + 1) (int32 (offset + size)) (out + size)
        (writeAll buffer (placed out read.out)) (by omega) (int32_range _).2
      rw [rest, ok_bind, ← writeAll_append]
      refine ⟨placed out read.out ++ writes, res, read.clusters ++ clusters, ?_, rfl⟩
      refine element_computes spc more high done ?_
      rw [afterCopy, if_pos (not_not.mp fails)]
      dsimp only
      rw [next]
      exact computes

end Refines

/-! ### The call -/

section Call

variable {machine : Machine} {fatPrivate : FatPrivate} {heap : Kheap} {privateData : Ptr}
  {entry : FatDirectoryItem} {pos size nmemb : Nat}

/-- **A `fat16_read` terminates and fills the buffer from the front**: it writes inside the request only,
each byte once and in order, and all of it if it succeeds. -/
theorem fat16Read_fills (spc : fatPrivate.header.sectorsPerCluster ≠ 0)
    (opened : OpenEntry machine heap privateData entry pos) (some : 0 < size)
    (below : pos + size * nmemb < 2147483648) :
    ∃ writes res, Computes
        (fat16ReadStep machine.drive fatPrivate (fat16GetFirstCluster entry) size nmemb)
        (.element ⟨0, int32 pos, 0⟩) writes (.returned res) ∧
      FillsFront size nmemb writes res ∧
      ∀ out, ∃ clusters, fat16Read machine fatPrivate heap privateData size nmemb out =
        .ok ⟨res, writeAll out writes, clusters⟩ := by
  have elements := Nat.le_mul_of_pos_left nmemb some
  have start : int32 pos = pos := int32_of_range (by omega) (by omega)
  obtain ⟨writes, res, computes, fills⟩ :=
    read_halts machine.drive (fat16GetFirstCluster entry) spc some below
  rw [start]
  refine ⟨writes, res, computes, fills, fun out => ?_⟩
  obtain ⟨writes', res', clusters, computes', returns⟩ := @elements_computes machine.drive fatPrivate
    (fat16GetFirstCluster entry) size nmemb spc (by omega) nmemb 0 pos 0 out (Nat.zero_add nmemb) (by omega)
  obtain ⟨rfl, same⟩ := computes.unique computes'
  cases same
  rw [fat16Read_eq fatPrivate size nmemb out opened, start]
  exact ⟨clusters, returns⟩

end Call

/-- Two elements of three bytes, from position 1 on. -/
theorem fat16Read_fills_small :
    ∃ writes res, Computes (fat16ReadStep (smallMachine smallDrive).drive smallPrivate
        (fat16GetFirstCluster (smallEntry 2 0 7)) 3 2) (.element ⟨0, int32 (1 : Nat), 0⟩) writes
        (.returned res) ∧
      FillsFront 3 2 writes res ∧
      ∀ out, ∃ clusters, fat16Read (smallMachine smallDrive) smallPrivate
        (smallHeap (smallEntry 2 0 7) 1) 1 3 2 out = .ok ⟨res, writeAll out writes, clusters⟩ := by
  have spc : smallPrivate.header.sectorsPerCluster ≠ 0 := by decide
  exact fat16Read_fills spc (smallHeap_open (smallMachine smallDrive) (smallEntry 2 0 7) 1) (by decide)
    (by decide)

end KernelPlay
