import Mathlib.Data.Option.Basic

/-!
# Schedules

A machine answers an event with its next state, or not at all where the event cannot
happen.  A schedule is a list of events, and a run takes them one after another.  What
every event keeps holds after every run; what only some events keep holds after the
runs all of whose events are of that kind where they happen.
-/

universe u v

namespace Schedule

variable {σ : Type u} {ε : Type v}

/-- The state after the events; `none` where one of them cannot happen. -/
def run (step : ε → σ → Option σ) : σ → List ε → Option σ
  | state, [] => some state
  | state, event :: rest => (step event state).bind (fun next => run step next rest)

/-- Every event is admitted in the state in which it happens. -/
def Admitted (step : ε → σ → Option σ) (admits : ε → σ → Prop) : σ → List ε → Prop
  | _, [] => True
  | state, event :: rest =>
      admits event state ∧ ∀ next, step event state = some next → Admitted step admits next rest

/-- A schedule is checked by running it. -/
instance decidableAdmitted (step : ε → σ → Option σ) (admits : ε → σ → Prop)
    [∀ event state, Decidable (admits event state)] :
    (state : σ) → (events : List ε) → Decidable (Admitted step admits state events)
  | _, [] => isTrue trivial
  | state, event :: rest =>
      have := fun next => decidableAdmitted step admits next rest
      inferInstanceAs (Decidable (admits event state ∧
        ∀ next ∈ step event state, Admitted step admits next rest))

variable {step : ε → σ → Option σ} {admits : ε → σ → Prop} {holds : σ → Prop}

theorem admitted_of_always {events : List ε} (always : ∀ event ∈ events, ∀ state, admits event state)
    (state : σ) : Admitted step admits state events := by
  induction events generalizing state with
  | nil => trivial
  | cons event rest ih =>
      refine ⟨always event (.head _) state, ?_⟩
      intro next _
      exact ih (fun later mem => always later (.tail _ mem)) next

theorem invariant_of_admitted
    (kept : ∀ event state next, holds state → admits event state → step event state = some next →
      holds next)
    {state last : σ} {events : List ε} (initially : holds state)
    (admitted : Admitted step admits state events) (ran : run step state events = some last) :
    holds last := by
  induction events generalizing state with
  | nil =>
      cases ran
      exact initially
  | cons event rest ih =>
      rcases Option.bind_eq_some_iff.mp ran with ⟨next, here, later⟩
      exact ih (kept event state next initially admitted.1 here) (admitted.2 next here) later

theorem invariant
    (kept : ∀ event state next, holds state → step event state = some next → holds next)
    {state last : σ} {events : List ε} (initially : holds state)
    (ran : run step state events = some last) : holds last := by
  have admitted : Admitted step (fun _ _ => True) state events :=
    admitted_of_always (fun _ _ _ => trivial) state
  exact invariant_of_admitted (fun event now next held _ => kept event now next held) initially
    admitted ran

end Schedule
