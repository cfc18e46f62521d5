/-
**A program and a device that talk by requests.**

A `Host` asks for one thing at a time and goes on with the answer. A `Device` serves requests and takes
steps of its own; both may happen in any order, so `Joint` holds the interleavings of the two. A joint state
is `Refused` when the host asks for what the device does not serve there.

`Run.counted` counts the labels of a run by a measure, and `length_le_of_gaps` bounds the whole run when the
host never waits longer than a given number of steps.
-/

import KernelPlay.Library.Runs
import Mathlib.Data.List.Count
import Mathlib.Tactic.Linarith

namespace KernelPlay.Library

universe u v w x

/-- A program: what it asks for, and where it goes on with the answer. -/
structure Host (Program : Type u) (Request : Type v) (Answer : Type w) where
  asks : Program → Option Request
  resumes : Program → Answer → Program

/-- A device: its own steps, and the requests it serves. -/
structure Device (State : Type x) (Request : Type v) (Answer : Type w) where
  own : State → State → Prop
  serves : State → Request → Answer → State → Prop

/-- A step of the device, or a request with its answer. -/
inductive Event (Request : Type v) (Answer : Type w)
  | own
  | served (request : Request) (answer : Answer)
  deriving DecidableEq

section Joint

variable {Program : Type u} {Request : Type v} {Answer : Type w} {State : Type x}

/-- One step of the two. -/
inductive Joint (host : Host Program Request Answer) (device : Device State Request Answer) :
    Program × State → Event Request Answer → Program × State → Prop
  | own {program : Program} {state state' : State} : device.own state state' →
      Joint host device (program, state) .own (program, state')
  | served {program : Program} {state state' : State} {request : Request} {answer : Answer} :
      host.asks program = some request → device.serves state request answer state' →
      Joint host device (program, state) (.served request answer) (host.resumes program answer, state')

/-- The host asks for what the device does not serve. -/
def Refused (host : Host Program Request Answer) (device : Device State Request Answer)
    (joint : Program × State) : Prop :=
  ∃ request, host.asks joint.1 = some request ∧
    ∀ answer state, ¬ device.serves joint.2 request answer state

/-- Some interleaving leads from the one to the other. -/
def Reaches (host : Host Program Request Answer) (device : Device State Request Answer)
    (first last : Program × State) : Prop :=
  ∃ labels, Run (Joint host device) first labels last

variable {host : Host Program Request Answer} {device : Device State Request Answer}
  {first middle last : Program × State}

theorem Reaches.refl (first : Program × State) : Reaches host device first first := ⟨[], .done first⟩

theorem Reaches.trans (one : Reaches host device first middle) (other : Reaches host device middle last) :
    Reaches host device first last := by
  obtain ⟨labels, run⟩ := one
  obtain ⟨labels', rest⟩ := other
  exact ⟨labels ++ labels', run.append rest⟩

theorem Reaches.of_own {program : Program} {state state' : State} (step : device.own state state') :
    Reaches host device (program, state) (program, state') :=
  ⟨[.own], .step (.own step) (.done _)⟩

theorem Reaches.of_served {program : Program} {state state' : State} {request : Request} {answer : Answer}
    (asks : host.asks program = some request) (serves : device.serves state request answer state') :
    Reaches host device (program, state) (host.resumes program answer, state') :=
  ⟨[_], .step (.served asks serves) (.done _)⟩

/-- What every joint step keeps holds in every state reached. -/
theorem Reaches.preserves {Invariant : Program × State → Prop}
    (keep : ∀ first label last, Invariant first → Joint host device first label last → Invariant last)
    (reaches : Reaches host device first last) (holds : Invariant first) : Invariant last := by
  obtain ⟨labels, run⟩ := reaches
  exact run.preserves keep holds

end Joint

/-! ### How long a run can be -/

section Counted

variable {State : Type u} {Label : Type v} {Step : State → Label → State → Prop} {counts : Label → Bool}

/-- **The counting rule.** If each label that counts lessens the measure by one and no other changes it, the
labels that count and what is left add up. -/
theorem Run.counted {Invariant : State → Prop} (measure : State → Nat)
    (keep : ∀ first label last, Invariant first → Step first label last →
      Invariant last ∧ measure last + (if counts label then 1 else 0) = measure first)
    {first last : State} {labels : List Label} (run : Run Step first labels last)
    (holds : Invariant first) : labels.countP counts + measure last = measure first := by
  induction run with
  | done state => simp
  | @step first middle last label labels one _ ih =>
    obtain ⟨holds', less⟩ := keep first label middle holds one
    have rest := ih holds'
    rw [List.countP_cons]
    omega

/-- No more than `gap` labels in a row do not count. -/
def GapsWithin (counts : Label → Bool) (gap : Nat) (labels : List Label) : Prop :=
  ∀ before idle behind, labels = before ++ idle ++ behind → (∀ label ∈ idle, counts label = false) →
    idle.length ≤ gap

theorem GapsWithin.tail {gap : Nat} {label : Label} {labels : List Label}
    (within : GapsWithin counts gap (label :: labels)) : GapsWithin counts gap labels := by
  intro before idle behind same none
  refine within (label :: before) idle behind ?_ none
  rw [same]
  rfl

/-- The same behind `waited` labels in a row that did not count. -/
theorem length_le_of_gaps_behind {gap : Nat} :
    ∀ (labels : List Label) (waited : Nat), GapsWithin counts gap labels →
      (∀ idle behind, labels = idle ++ behind → (∀ label ∈ idle, counts label = false) →
        waited + idle.length ≤ gap) →
      waited + labels.length ≤ labels.countP counts + (labels.countP counts + 1) * gap
  | [], waited, _, start => by
      have := start [] [] rfl (fun _ member => absurd member List.not_mem_nil)
      simpa using this
  | label :: labels, waited, within, start => by
      cases counted : counts label with
      | true =>
        have here := start [] (label :: labels) rfl (fun _ member => absurd member List.not_mem_nil)
        have rest := length_le_of_gaps_behind labels 0 within.tail fun idle behind same none => by
          rw [Nat.zero_add]
          exact within.tail [] idle behind same none
        simp only [List.length_nil, Nat.add_zero] at here
        rw [List.countP_cons_of_pos counted, List.length_cons, Nat.add_mul _ 1, Nat.one_mul]
        omega
      | false =>
        have rest := length_le_of_gaps_behind labels (waited + 1) within.tail fun idle behind same none => by
          have longer := start (label :: idle) behind (by rw [same]; rfl) (by simpa [counted] using none)
          rw [List.length_cons] at longer
          omega
        rw [List.countP_cons_of_neg (by simp [counted]), List.length_cons]
        omega

/-- **A run with short waits is short.** -/
theorem length_le_of_gaps {gap : Nat} {labels : List Label} (within : GapsWithin counts gap labels) :
    labels.length ≤ labels.countP counts + (labels.countP counts + 1) * gap := by
  have bound := length_le_of_gaps_behind labels 0 within fun idle behind same none => by
    rw [Nat.zero_add]
    exact within [] idle behind same none
  rwa [Nat.zero_add] at bound

end Counted

end KernelPlay.Library
