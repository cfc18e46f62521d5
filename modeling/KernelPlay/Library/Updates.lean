/-
**Functions changed at points.**

`assign f writes` — the function after a list of writes. `assign_apply` reads it at a point: the last
write there, else the function before.
-/

import Mathlib.Data.List.Induction
import Mathlib.Logic.Function.Basic
import Mathlib.Tactic.SplitIfs

namespace KernelPlay.Library

universe u v

section Assign

variable {α : Type u} {β : Type v} [DecidableEq α]

/-- The function after the writes, the first one first. -/
def assign (f : α → β) (writes : List (α × β)) : α → β :=
  writes.foldl (fun g write => Function.update g write.1 write.2) f

/-- The value of the last write at a point. -/
def lastWrite (writes : List (α × β)) (point : α) : Option β :=
  (writes.filter fun write => write.1 = point).getLast?.map Prod.snd

theorem assign_append (f : α → β) (first second : List (α × β)) :
    assign f (first ++ second) = assign (assign f first) second :=
  List.foldl_append

theorem assign_concat (f : α → β) (writes : List (α × β)) (write : α × β) :
    assign f (writes ++ [write]) = Function.update (assign f writes) write.1 write.2 :=
  assign_append f writes [write]

theorem lastWrite_concat (writes : List (α × β)) (write : α × β) (point : α) :
    lastWrite (writes ++ [write]) point =
      if write.1 = point then some write.2 else lastWrite writes point := by
  unfold lastWrite
  rw [List.filter_append]
  split_ifs with here <;> simp [here]

theorem lastWrite_map {γ : Type*} (g : β → γ) (writes : List (α × β)) (point : α) :
    lastWrite (writes.map fun write => (write.1, g write.2)) point = (lastWrite writes point).map g := by
  unfold lastWrite
  rw [List.filter_map, List.getLast?_map, Option.map_map, Option.map_map]
  rfl

/-- **A point holds what was written there last.** -/
theorem assign_apply (f : α → β) (writes : List (α × β)) (point : α) :
    assign f writes point = (lastWrite writes point).getD (f point) := by
  induction writes using List.reverseRecOn with
  | nil => rfl
  | append_singleton writes write ih =>
    rw [assign_concat, lastWrite_concat]
    by_cases here : write.1 = point
    · subst here
      rw [Function.update_self, if_pos rfl, Option.getD_some]
    · rw [Function.update_of_ne (Ne.symm here), if_neg here, ih]

end Assign

end KernelPlay.Library
