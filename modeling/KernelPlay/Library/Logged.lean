/-
**Computations that log events and may fail.**

A `Logged` computation has the events of all it has done, also when it fails. `Erases logged plain` — the
log left out, it is the computation `plain`; the rules of `Erases` go through the two side by side.
`Meets P` — every event meets `P`; `meets_bind_iff` takes it apart step by step.
-/

import Mathlib.Tactic.SplitIfs

namespace KernelPlay.Library

universe u

/-- The events, and what the computation ends in. -/
structure Logged (Event Fault : Type) (α : Type u) where
  events : List Event
  result : Except Fault α

namespace Logged

variable {Event Fault : Type} {α β : Type u}

/-- The next computation, if the first returned. -/
protected def bind (first : Logged Event Fault α) (next : α → Logged Event Fault β) : Logged Event Fault β :=
  match first.result with
  | .ok value => ⟨first.events ++ (next value).events, (next value).result⟩
  | .error fault => ⟨first.events, .error fault⟩

/-- A plain computation, which logs nothing. -/
protected def lift (plain : Except Fault α) : Logged Event Fault α := ⟨[], plain⟩

instance : Monad (Logged Event Fault) where
  pure value := Logged.lift (.ok value)
  bind := Logged.bind

instance : MonadLift (Except Fault) (Logged Event Fault) where
  monadLift := Logged.lift

/-- A value, and one event. -/
def log (event : Event) (value : α) : Logged Event Fault α := ⟨[event], .ok value⟩

/-- **Every event meets** `P`. -/
def Meets (P : Event → Prop) (computation : Logged Event Fault α) : Prop :=
  ∀ event ∈ computation.events, P event

/-- **The computation without its log.** -/
structure Erases (logged : Logged Event Fault α) (plain : Except Fault α) : Prop where
  result : logged.result = plain

variable {P : Event → Prop} {first : Logged Event Fault α} {next : α → Logged Event Fault β}

theorem result_bind : (first >>= next).result = first.result >>= fun value => (next value).result := by
  show (Logged.bind first next).result = _
  unfold Logged.bind
  cases first.result with
  | ok value => rfl
  | error fault => rfl

theorem ok_bind (value : α) : ((liftM (.ok value : Except Fault α) : Logged Event Fault α) >>= next) =
    next value := rfl

theorem return_bind (value : α) : ((pure value : Logged Event Fault α) >>= next) = next value := rfl

namespace Erases

variable {plain : Except Fault α} {after : α → Except Fault β}

theorem pure (value : α) : Erases (Pure.pure value : Logged Event Fault α) (Pure.pure value) := ⟨rfl⟩

theorem bind (erases : Erases first plain) (behind : ∀ value, Erases (next value) (after value)) :
    Erases (first >>= next) (plain >>= after) := by
  constructor
  rw [result_bind, erases.result]
  exact bind_congr fun value => (behind value).result

/-- A step that logs nothing. -/
theorem lift_bind (behind : ∀ value, Erases (next value) (after value)) :
    Erases ((liftM plain : Logged Event Fault α) >>= next) (plain >>= after) :=
  bind ⟨rfl⟩ behind

theorem log_bind {event : Event} {value : α} {result : Except Fault β} (behind : Erases (next value) result) :
    Erases (log event value >>= next) result := by
  constructor
  rw [result_bind]
  exact behind.result

theorem lift (plain : Except Fault α) : Erases (liftM plain : Logged Event Fault α) plain := ⟨rfl⟩

/-- A step that has returned. -/
theorem ok_bind {value : α} {result : Except Fault β} (erases : Erases first (.ok value))
    (behind : Erases (next value) result) : Erases (first >>= next) result := by
  constructor
  rw [result_bind, erases.result]
  exact behind.result

/-- Two branches. -/
theorem branch {condition : Prop} [Decidable condition] {other : Logged Event Fault α}
    {otherwise : Except Fault α} (one : Erases first plain) (two : Erases other otherwise) :
    Erases (if condition then first else other) (if condition then plain else otherwise) := by
  split_ifs
  · exact one
  · exact two

end Erases

@[simp]
theorem meets_pure (value : α) : (pure value : Logged Event Fault α).Meets P := by
  intro event member
  cases member

@[simp]
theorem meets_lift (result : Except Fault α) : (liftM result : Logged Event Fault α).Meets P := by
  intro event member
  cases member

@[simp]
theorem meets_log_iff (event : Event) (value : α) :
    (log event value : Logged Event Fault α).Meets P ↔ P event := by
  simp [Meets, log]

/-- **Step by step**: what the first computation logs, and the next if the first returned. -/
theorem meets_bind_iff :
    (first >>= next).Meets P ↔ first.Meets P ∧ ∀ value, first.result = .ok value → (next value).Meets P := by
  show (Logged.bind first next).Meets P ↔ _
  unfold Logged.bind
  cases done : first.result with
  | ok value =>
    have append : (∀ event ∈ first.events ++ (next value).events, P event) ↔
        first.Meets P ∧ (next value).Meets P := by
      simp only [List.mem_append, or_imp, forall_and]
      rfl
    refine append.trans (and_congr_right fun _ => ⟨fun meets value' same => ?_, fun meets => meets value rfl⟩)
    cases same
    exact meets
  | error fault =>
    refine ⟨fun meets => ⟨meets, fun value same => ?_⟩, And.left⟩
    cases same

theorem meets_bind (meets : first.Meets P)
    (behind : ∀ value, first.result = .ok value → (next value).Meets P) :
    (first >>= next).Meets P :=
  meets_bind_iff.mpr ⟨meets, behind⟩

/-- Behind a step that has returned. -/
theorem meets_ok_bind_iff {value : α} (done : first.result = .ok value) :
    (first >>= next).Meets P ↔ first.Meets P ∧ (next value).Meets P := by
  rw [meets_bind_iff, done]
  refine and_congr_right fun _ => ⟨fun meets => meets value rfl, fun meets value' same => ?_⟩
  cases same
  exact meets

/-- A first step that logs nothing. -/
theorem meets_lift_bind_iff {result : Except Fault α} :
    ((liftM result : Logged Event Fault α) >>= next).Meets P ↔
      ∀ value, result = .ok value → (next value).Meets P := by
  rw [meets_bind_iff, and_iff_right (meets_lift result)]
  rfl

theorem meets_branch {condition : Prop} [Decidable condition] {other : Logged Event Fault α}
    (one : first.Meets P) (two : other.Meets P) : (if condition then first else other).Meets P := by
  split_ifs
  · exact one
  · exact two

end Logged

end KernelPlay.Library
