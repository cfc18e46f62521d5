/-
**Machines that halt.**

A machine takes a step and emits something, or halts. `Computes step first outputs last` — from `first`
it halts at `last` and has emitted `outputs`. `Computes.unique` — there is one such computation.
`HaltsWithin` — it halts and emits nothing but what meets a condition; `haltsWithin_step` takes this apart
step by step.
`computes_of_measure` is the rule of total correctness: with an invariant of what has been emitted so
far and the state, and a measure every step lessens, the machine halts where the invariant holds.
-/

import KernelPlay.Library.Runs
import Mathlib.Order.WellFounded

namespace KernelPlay.Library

universe u v w

variable {State : Type u} {Output : Type v} {step : State → Option (State × List Output)}

/-- The machine halts at `last`, all it has emitted on the way being `outputs`. -/
inductive Computes (step : State → Option (State × List Output)) : State → List Output → State → Prop
  | halts {state : State} : step state = none → Computes step state [] state
  | goes {first middle last : State} {output outputs : List Output} :
      step first = some (middle, output) → Computes step middle outputs last →
      Computes step first (output ++ outputs) last

/-- A step that emits nothing. -/
theorem Computes.silent {first middle last : State} {outputs : List Output}
    (one : step first = some (middle, [])) (rest : Computes step middle outputs last) :
    Computes step first outputs last :=
  .goes one rest

/-- **A machine computes one thing.** -/
theorem Computes.unique {first last last' : State} {outputs outputs' : List Output}
    (one : Computes step first outputs last) (other : Computes step first outputs' last') :
    outputs = outputs' ∧ last = last' := by
  induction one generalizing outputs' with
  | halts none =>
    cases other with
    | halts => exact ⟨rfl, rfl⟩
    | goes some => simp [none] at some
  | goes some _ ih =>
    cases other with
    | halts none => simp [some] at none
    | goes some' rest =>
      cases some.symm.trans some'
      obtain ⟨rfl, rfl⟩ := ih rest
      exact ⟨rfl, rfl⟩

/-- What one machine computes, another that takes the same steps computes on its way. -/
theorem Computes.embed {State' : Type w} {step' : State' → Option (State' × List Output)}
    {embed : State → State'}
    (follows : ∀ state next output, step state = some (next, output) →
      step' (embed state) = some (embed next, output))
    {first last : State} {outputs outputs' : List Output} {last' : State'}
    (one : Computes step first outputs last) (rest : Computes step' (embed last) outputs' last') :
    Computes step' (embed first) (outputs ++ outputs') last' := by
  induction one with
  | halts => exact rest
  | @goes first middle last output outputs next _ ih =>
    rw [List.append_assoc]
    exact .goes (follows first middle output next) (ih rest)

/-- The machine halts, and all it has emitted on the way meets `Meets`. -/
def HaltsWithin (step : State → Option (State × List Output)) (Meets : Output → Prop) (first : State) :
    Prop :=
  ∃ outputs last, Computes step first outputs last ∧ ∀ output ∈ outputs, Meets output

section Within

variable {Meets : Output → Prop}

theorem haltsWithin_halted {state : State} (none : step state = Option.none) :
    HaltsWithin step Meets state :=
  ⟨[], state, .halts none, fun _ member => absurd member List.not_mem_nil⟩

/-- **The rule of one step.** -/
theorem haltsWithin_step {first middle : State} {output : List Output}
    (next : step first = some (middle, output)) :
    HaltsWithin step Meets first ↔ (∀ one ∈ output, Meets one) ∧ HaltsWithin step Meets middle := by
  constructor
  · rintro ⟨outputs, last, computes, meets⟩
    cases computes with
    | halts none => simp [next] at none
    | goes found rest =>
      cases next.symm.trans found
      exact ⟨fun one member => meets one (List.mem_append_left _ member), _, _, rest,
        fun one member => meets one (List.mem_append_right _ member)⟩
  · rintro ⟨meets, outputs, last, rest, meets'⟩
    refine ⟨output ++ outputs, last, .goes next rest, fun one member => ?_⟩
    rcases List.mem_append.mp member with here | later
    · exact meets one here
    · exact meets' one later

end Within

/-- **The rule of total correctness.** -/
theorem computes_of_measure {Measure : Type w} [LT Measure] [WellFoundedLT Measure]
    {Invariant : List Output → State → Prop} (measure : State → Measure)
    (keep : ∀ emitted state next output, Invariant emitted state → step state = some (next, output) →
      Invariant (emitted ++ output) next ∧ measure next < measure state)
    (state : State) {emitted : List Output} (holds : Invariant emitted state) :
    ∃ outputs last, Computes step state outputs last ∧ Invariant (emitted ++ outputs) last ∧
      step last = none := by
  induction measured : measure state using WellFoundedLT.induction generalizing state emitted with
  | ind bound ih =>
    subst measured
    cases next : step state with
    | none => exact ⟨[], state, .halts next, by simpa using holds, next⟩
    | some found =>
      obtain ⟨middle, output⟩ := found
      obtain ⟨holds', less⟩ := keep emitted state middle output holds next
      obtain ⟨outputs, last, computes, holds'', halts⟩ := ih _ less middle holds' rfl
      refine ⟨output ++ outputs, last, .goes next computes, ?_, halts⟩
      rwa [← List.append_assoc]

/-! ### Systems that do what a machine does -/

section Refinement

variable {Concrete : Type w} {Step : Concrete → List Output → Concrete → Prop}
  {Related : Concrete → State → Prop}

/-- **The rule of refinement.** Where every step of the system is a step of the machine, or emits nothing and
stays at it, a run of the system is at some point of what the machine computes. -/
theorem Computes.refined
    (matched : ∀ {first output last state}, Related first state → Step first output last →
      (output = [] ∧ Related last state) ∨ ∃ next, step state = some (next, output) ∧ Related last next)
    {first last : Concrete} {labels : List (List Output)} (run : Run Step first labels last) :
    ∀ {state ended : State} {outputs : List Output}, Related first state → Computes step state outputs ended →
      ∃ state' rest, Related last state' ∧ labels.flatten ++ rest = outputs ∧ Computes step state' rest ended := by
  induction run with
  | done concrete =>
    intro state ended outputs related computes
    exact ⟨state, outputs, related, rfl, computes⟩
  | @step first middle last output labels one _ ih =>
    intro state ended outputs related computes
    rcases matched related one with ⟨rfl, related'⟩ | ⟨next, stepped, related'⟩
    · exact ih related' computes
    cases computes with
    | halts none =>
      rw [stepped] at none
      cases none
    | goes found rest =>
      cases stepped.symm.trans found
      obtain ⟨state', rest', related'', same, computes'⟩ := ih related' rest
      exact ⟨state', rest', related'', by rw [List.flatten_cons, List.append_assoc, same], computes'⟩

/-- **The rule of realisation.** A system that can follow every step of the machine can get to where it
halts. -/
theorem Computes.realised
    (follows : ∀ {first state next output}, Related first state → step state = some (next, output) →
      ∃ labels last, Run Step first labels last ∧ Related last next)
    {state ended : State} {outputs : List Output} (computes : Computes step state outputs ended) :
    ∀ {first : Concrete}, Related first state → ∃ labels last, Run Step first labels last ∧ Related last ended := by
  induction computes with
  | halts => exact fun {first} related => ⟨[], first, .done first, related⟩
  | goes stepped _ ih =>
    intro first related
    obtain ⟨labels, middle, run, related'⟩ := follows related stepped
    obtain ⟨labels', last, rest, related''⟩ := ih related'
    exact ⟨labels ++ labels', last, run.append rest, related''⟩

end Refinement

end KernelPlay.Library
