/-
**Finite runs of a labelled step relation, and invariants over them.**

`Run Step first labels last` is a run of `Step` that takes the steps `labels`. `Guarded Allowed
Step` are the steps that are allowed in the state they start from, so a run all of whose steps meet
a condition is a `Run (Guarded Allowed Step)`. `Run.preserves` is the invariant rule. `Run.unwinds`
leaves the steps of others out of a run; `Run.agrees` — related runs that make the same requests get
the same answers. `AllAllowed.answered` and `AllAllowed.refines` are the two halves of a refinement for
requests that the specification allows one after the other: they are answered, and as it says.
`Run.observed` — two runs of one specification show the same if each step does.
-/

import Mathlib.Logic.Basic

namespace KernelPlay.Library

universe u v

variable {State : Type u} {Label : Type v}

/-- A run that takes the listed steps. -/
inductive Run (Step : State → Label → State → Prop) : State → List Label → State → Prop
  | done (state : State) : Run Step state [] state
  | step {first middle last : State} {label : Label} {labels : List Label} :
      Step first label middle → Run Step middle labels last → Run Step first (label :: labels) last

/-- The steps allowed in the state they start from. -/
def Guarded (Allowed : State → Label → Prop) (Step : State → Label → State → Prop) :
    State → Label → State → Prop :=
  fun first label last => Allowed first label ∧ Step first label last

variable {Step : State → Label → State → Prop}

/-- A run and one more step. -/
theorem Run.snoc {first last next : State} {labels : List Label} {label : Label}
    (run : Run Step first labels last) (one : Step last label next) :
    Run Step first (labels ++ [label]) next := by
  induction run with
  | done state => exact .step one (.done next)
  | step before _ ih => exact .step before (ih one)

/-- Two runs, one behind the other. -/
theorem Run.append {first middle last : State} {labels labels' : List Label}
    (run : Run Step first labels middle) (rest : Run Step middle labels' last) :
    Run Step first (labels ++ labels') last := by
  induction run with
  | done state => exact rest
  | step one _ ih => exact .step one (ih rest)

/-- **The invariant rule.** What every step keeps, every run keeps. -/
theorem Run.preserves {Invariant : State → Prop}
    (keep : ∀ first label last, Invariant first → Step first label last → Invariant last)
    {first last : State} {labels : List Label} (run : Run Step first labels last)
    (holds : Invariant first) : Invariant last := by
  induction run with
  | done state => exact holds
  | step one _ ih => exact ih (keep _ _ _ holds one)

/-- A run of allowed steps is a run. -/
theorem Run.unguarded {Allowed : State → Label → Prop} {first last : State} {labels : List Label}
    (run : Run (Guarded Allowed Step) first labels last) : Run Step first labels last := by
  induction run with
  | done state => exact .done state
  | step one _ ih => exact .step one.2 ih

/-- **The unwinding rule.** If related states stay related when another takes a step in the first of
them, and the second can answer every other step, then it can make the run without the steps of
others. -/
theorem Run.unwinds {Other : Type*} {Alone : Other → Label → Other → Prop} {own : Label → Bool}
    {Related : State → Other → Prop}
    (others : ∀ {first label last alone}, Related first alone → Step first label last →
      own label = false → Related last alone)
    (answers : ∀ {first label last alone}, Related first alone → Step first label last →
      own label = true → ∃ alone', Alone alone label alone' ∧ Related last alone')
    {first last : State} {labels : List Label} (run : Run Step first labels last) :
    ∀ {alone : Other}, Related first alone →
      ∃ alone', Run Alone alone (labels.filter own) alone' ∧ Related last alone' := by
  induction run with
  | done state =>
    intro alone related
    exact ⟨alone, .done alone, related⟩
  | @step first middle last label labels one _ ih =>
    intro alone related
    cases mine : own label with
    | false =>
      rw [List.filter_cons_of_neg (by rw [mine]; exact Bool.false_ne_true)]
      exact ih (others related one mine)
    | true =>
      obtain ⟨next, answer, related'⟩ := answers related one mine
      obtain ⟨alone', rest, related''⟩ := ih related'
      rw [List.filter_cons_of_pos mine]
      exact ⟨alone', .step answer rest, related''⟩

/-- Every step of a run meets what all steps meet. -/
theorem Run.labels_meet {Meets : Label → Prop}
    (meets : ∀ {first label last}, Step first label last → Meets label)
    {first last : State} {labels : List Label} (run : Run Step first labels last) :
    ∀ label ∈ labels, Meets label := by
  induction run with
  | done => exact fun _ member => absurd member List.not_mem_nil
  | step one _ ih =>
    intro label member
    rcases List.mem_cons.mp member with rfl | later
    · exact meets one
    · exact ih label later

/-- **Related runs with the same requests** have the same labels, if each request in related states
does. -/
theorem Run.agrees {Request : Type*} {request : Label → Request} {Asked : Request → Prop}
    {Related : State → State → Prop}
    (same : ∀ {first first' label label' last last'}, Related first first' → Asked (request label) →
      Step first label last → Step first' label' last' → request label = request label' →
      label = label' ∧ Related last last')
    {first last : State} {labels : List Label} (run : Run Step first labels last) :
    ∀ {first' last' : State} {labels' : List Label}, Related first first' → Run Step first' labels' last' →
      (∀ label ∈ labels, Asked (request label)) → labels.map request = labels'.map request →
      labels = labels' := by
  induction run with
  | done state =>
    intro first' last' labels' _ _ _ requests
    exact (List.map_eq_nil_iff.mp requests.symm).symm
  | step one _ ih =>
    intro first' last' labels' related run' asked requests
    cases run' with
    | done => cases requests
    | step one' rest' =>
      rw [List.map_cons, List.map_cons, List.cons.injEq] at requests
      obtain ⟨rfl, related'⟩ := same related (asked _ List.mem_cons_self) one one' requests.1
      rw [ih related' rest' (fun label member => asked label (List.mem_cons_of_mem _ member)) requests.2]

section Requests

variable {Spec : Type*} {Request Answer : Type*} {Allowed : Spec → Request → Prop}
  {SpecStep : Spec → Request × Answer → Spec → Prop} {Step : State → Request × Answer → State → Prop}
  {Related : State → Spec → Prop} {spec : Spec} {requests : List Request}

/-- **The requests are allowed one after the other**, whatever has been answered before. -/
inductive AllAllowed (Allowed : Spec → Request → Prop) (SpecStep : Spec → Request × Answer → Spec → Prop) :
    Spec → List Request → Prop
  | done (spec : Spec) : AllAllowed Allowed SpecStep spec []
  | step {spec : Spec} {request : Request} {requests : List Request} : Allowed spec request →
      (∀ answer spec', SpecStep spec (request, answer) spec' → AllAllowed Allowed SpecStep spec' requests) →
      AllAllowed Allowed SpecStep spec (request :: requests)

/-- **Requests that are allowed are answered**, if each of them is. -/
theorem AllAllowed.answered
    (answers : ∀ {state spec request}, Related state spec → Allowed spec request →
      ∃ answer state' spec', Step state (request, answer) state' ∧ SpecStep spec (request, answer) spec' ∧
        Related state' spec')
    (allowed : AllAllowed Allowed SpecStep spec requests) :
    ∀ {state : State}, Related state spec →
      ∃ labels last, labels.map Prod.fst = requests ∧ Run Step state labels last := by
  induction allowed with
  | done spec => exact fun {state} _ => ⟨[], state, rfl, .done state⟩
  | @step spec request requests here _ ih =>
    intro state related
    obtain ⟨answer, state', spec', step, follows, related'⟩ := answers related here
    obtain ⟨labels, last, same, run⟩ := ih answer spec' follows related'
    exact ⟨(request, answer) :: labels, last, by rw [List.map_cons, same], .step step run⟩

/-- **And they are answered as the specification says**, if each of them is. -/
theorem AllAllowed.refines
    (follows : ∀ {state spec request answer state'}, Related state spec → Allowed spec request →
      Step state (request, answer) state' → ∃ spec', SpecStep spec (request, answer) spec' ∧ Related state' spec')
    (allowed : AllAllowed Allowed SpecStep spec requests) :
    ∀ {state last : State} {labels : List (Request × Answer)}, Related state spec → Run Step state labels last →
      labels.map Prod.fst = requests → ∃ spec', Run SpecStep spec labels spec' ∧ Related last spec' := by
  induction allowed with
  | done spec =>
    intro state last labels related run same
    obtain rfl := List.map_eq_nil_iff.mp same
    cases run
    exact ⟨spec, .done spec, related⟩
  | @step spec request requests here _ ih =>
    intro state last labels related run same
    cases run with
    | done => cases same
    | @step _ _ _ label _ one rest =>
      obtain ⟨asked, answer⟩ := label
      obtain ⟨rfl, later⟩ := List.cons.inj same
      obtain ⟨spec', step, related'⟩ := follows related here one
      obtain ⟨spec'', run', related''⟩ := ih answer spec' step related' rest later
      exact ⟨spec'', .step step run', related''⟩

/-- **What is seen of the answers depends on the requests alone**, if it does for each step. -/
theorem Run.observed {Seen : Type*} {observe : Answer → Seen}
    (definite : ∀ {spec request answer answer' after after'}, SpecStep spec (request, answer) after →
      SpecStep spec (request, answer') after' → observe answer = observe answer' ∧ after = after')
    {last : Spec} {labels : List (Request × Answer)} (run : Run SpecStep spec labels last) :
    ∀ {labels' : List (Request × Answer)} {last' : Spec}, Run SpecStep spec labels' last' →
      labels.map Prod.fst = labels'.map Prod.fst →
      (labels.map fun label => observe label.2) = (labels'.map fun label => observe label.2) ∧ last = last' := by
  induction run with
  | done spec =>
    intro labels' last' run' requests
    obtain rfl := List.map_eq_nil_iff.mp requests.symm
    cases run'
    exact ⟨rfl, rfl⟩
  | step one _ ih =>
    intro labels' last' run' requests
    cases run' with
    | done => cases requests
    | step one' rest' =>
      rw [List.map_cons, List.map_cons, List.cons.injEq] at requests
      obtain ⟨first, later⟩ := requests
      obtain ⟨seen, rfl⟩ := definite one (by rw [first]; exact one')
      obtain ⟨rest, ends⟩ := ih rest' later
      exact ⟨by rw [List.map_cons, List.map_cons, seen, rest], ends⟩

end Requests

end KernelPlay.Library
