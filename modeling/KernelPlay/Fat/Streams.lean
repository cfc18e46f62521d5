/-
**The streams of a volume are shared, and none of their positions matters.**

The driver reads the table, the clusters and the directories of a volume through three streams, whichever
file or path it works for. `FatPrivate.reposition` leaves them at other positions; every use seeks first,
so nothing the driver reads depends on these: `fat16ReadElements_reposition` and
`resolveAt_reposition`.
-/

import KernelPlay.Fat.Operations
import KernelPlay.Fat.Outcome

namespace KernelPlay

open KernelPlay.Library

/-- Where the streams of a volume stand. -/
structure StreamPositions where
  clusterRead : Int
  fatRead : Int
  directory : Int
  deriving DecidableEq, Repr

/-- The volume with its streams at these positions. -/
def FatPrivate.reposition (fatPrivate : FatPrivate) (positions : StreamPositions) : FatPrivate :=
  { fatPrivate with
    clusterReadStream := diskStreamerSeekPos fatPrivate.clusterReadStream positions.clusterRead
    fatReadStream := diskStreamerSeekPos fatPrivate.fatReadStream positions.fatRead
    directoryStream := diskStreamerSeekPos fatPrivate.directoryStream positions.directory }

/-- Where the streams of the volume stand now. -/
def FatPrivate.positions (fatPrivate : FatPrivate) : StreamPositions :=
  ⟨fatPrivate.clusterReadStream.pos, fatPrivate.fatReadStream.pos, fatPrivate.directoryStream.pos⟩

section Reposition

variable {drive : Drive} {machine : Machine} {fatPrivate : FatPrivate} {positions : StreamPositions}

theorem reposition_positions : fatPrivate.reposition fatPrivate.positions = fatPrivate := rfl

/-! ### Reads -/

/-- A seek forgets where the stream stood. -/
theorem fat16GetFatEntry_reposition (cluster : Int) :
    fat16GetFatEntry drive (fatPrivate.reposition positions) cluster =
      fat16GetFatEntry drive fatPrivate cluster := rfl

theorem fat16SkipClusters_reposition :
    ∀ (clustersAhead : Nat) (clusterToUse : Int),
      fat16SkipClusters drive (fatPrivate.reposition positions) clustersAhead clusterToUse =
        fat16SkipClusters drive fatPrivate clustersAhead clusterToUse := by
  intro clustersAhead
  induction clustersAhead with
  | zero => exact fun _ => rfl
  | succ clustersAhead ih =>
    intro clusterToUse
    rw [fat16SkipClusters, fat16SkipClusters, fat16GetFatEntry_reposition, ih]

theorem fat16CopyLoop_reposition (stream : DiskStreamer) (pos clusterBytes : Int) :
    ∀ (turns : Nat) (curCluster offset total : Int),
      fat16CopyLoop drive (fatPrivate.reposition positions) (diskStreamerSeekPos stream pos) clusterBytes
          turns curCluster offset total =
        fat16CopyLoop drive fatPrivate stream clusterBytes turns curCluster offset total := by
  intro turns
  induction turns with
  | zero => exact fun _ _ _ => rfl
  | succ turns ih =>
    intro curCluster offset total
    rw [fat16CopyLoop, fat16CopyLoop]
    simp only [ih]
    rfl

theorem fat16ReadInternalV2_reposition (startingCluster offset total : Int) :
    fat16ReadInternalV2 drive (fatPrivate.reposition positions) startingCluster offset total =
      fat16ReadInternalV2 drive fatPrivate startingCluster offset total := by
  unfold fat16ReadInternalV2 fat16ReadInternalFromStreamV2 fat16GetClusterForOffset
  have stream : (fatPrivate.reposition positions).clusterReadStream =
      diskStreamerSeekPos fatPrivate.clusterReadStream positions.clusterRead := rfl
  have size : fat16GetClusterSizeInBytes (fatPrivate.reposition positions) =
      fat16GetClusterSizeInBytes fatPrivate := rfl
  simp only [stream, size, fat16SkipClusters_reposition, fat16CopyLoop_reposition]

/-- **The elements of a read** are the same wherever the streams stand. -/
theorem fat16ReadElements_reposition {startingCluster : Int} {size : Nat} :
    ∀ (left : Nat) (offset : Int) (place : Nat) (out : Nat → UInt8),
      fat16ReadElements (fatPrivate.reposition positions) drive startingCluster size left offset place out =
        fat16ReadElements fatPrivate drive startingCluster size left offset place out := by
  intro left
  induction left with
  | zero => exact fun _ _ _ => rfl
  | succ left ih =>
    intro offset place out
    rw [fat16ReadElements, fat16ReadElements, fat16ReadInternalV2_reposition]
    simp only [ih]

/-! ### Walks -/

theorem loadRead_reposition {entry : FatDirectoryItem} {totalItems : Int} :
    loadRead machine (fatPrivate.reposition positions) entry totalItems =
      loadRead machine fatPrivate entry totalItems :=
  fat16ReadInternalV2_reposition _ _ _

theorem loadAt_reposition {entry : FatDirectoryItem} {call : Nat} :
    loadAt machine (fatPrivate.reposition positions) entry call = loadAt machine fatPrivate entry call := by
  unfold loadAt
  simp only [loadRead_reposition]
  rfl

theorem arrivedAt_reposition {entry : FatDirectoryItem} {call : Nat} :
    arrivedAt machine (fatPrivate.reposition positions) entry call =
      arrivedAt machine fatPrivate entry call := by
  unfold arrivedAt builtAt
  rw [loadAt_reposition]

theorem walkAt_reposition :
    ∀ (rest : List Text) (call : Nat) (arrived : Arrived),
      walkAt machine (fatPrivate.reposition positions) call arrived rest =
        walkAt machine fatPrivate call arrived rest := by
  intro rest
  induction rest with
  | nil =>
    intro call arrived
    rw [walkAt, walkAt]
  | cons name rest ih =>
    intro call arrived
    cases arrived with
    | nothing => rfl
    | dangling => rfl
    | bare type => cases type <;> rfl
    | item view =>
      cases view with
      | file entry => rfl
      | directory loaded =>
        rw [walkAt, walkAt, ih]
        simp only [arrivedAt_reposition, ih]

/-- **A walk** ends in the same, wherever the streams stand. -/
theorem resolveAt_reposition {call : Nat} {slots : List FatDirectoryItem} {name : Text}
    {rest : List Text} :
    resolveAt machine (fatPrivate.reposition positions) call slots name rest =
      resolveAt machine fatPrivate call slots name rest := by
  unfold resolveAt
  simp only [arrivedAt_reposition, walkAt_reposition]

end Reposition

end KernelPlay
