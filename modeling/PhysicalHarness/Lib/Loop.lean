import Mathlib.Data.List.Induction
import Mathlib.Order.WellFounded

/-!
# Loops that leave when they are done

A loop repeats a turn that either goes on with a new state or stops with a
result.  What holds at the start and is kept by every turn holds whenever a turn
begins; when every turn goes down in a well-founded order, the loop stops.

`Always` speaks about the record of a run: each event was allowed by the events
before it.
-/

universe u v w

namespace Loop

variable {σ : Type u} {ρ : Type v}

/-! ## Repeating a turn -/

inductive Turn (σ : Type u) (ρ : Type v) where
  | again (state : σ)
  | stop (result : ρ)

/-- At most `fuel` turns; `none` when they were not enough. -/
def iterate (turn : σ → Turn σ ρ) : Nat → σ → Option ρ
  | 0, _ => none
  | fuel + 1, state =>
      match turn state with
      | .again state => iterate turn fuel state
      | .stop result => some result

/-- The states in which some number of turns may leave the loop. -/
inductive Reaches (turn : σ → Turn σ ρ) (start : σ) : σ → Prop
  | start : Reaches turn start start
  | again {before after : σ} (reached : Reaches turn start before)
      (here : turn before = .again after) : Reaches turn start after

/-- The rule for a loop: what holds at the start and is kept by every turn holds
before every turn. -/
theorem Reaches.invariant {turn : σ → Turn σ ρ} {start state : σ} {holds : σ → Prop}
    (reached : Reaches turn start state) (initially : holds start)
    (preserved : ∀ before after, Reaches turn start before → holds before →
      turn before = .again after → holds after) : holds state := by
  induction reached with
  | start => exact initially
  | again reached here ih => exact preserved _ _ reached ih here

theorem Reaches.trans {turn : σ → Turn σ ρ} {start middle state : σ}
    (first : Reaches turn start middle) (second : Reaches turn middle state) :
    Reaches turn start state := by
  induction second with
  | start => exact first
  | again _ here ih => exact ih.again here

/-- The state after exactly so many turns, unless the loop stopped before. -/
def advance (turn : σ → Turn σ ρ) : Nat → σ → Option σ
  | 0, state => some state
  | turns + 1, state =>
      match turn state with
      | .again state => advance turn turns state
      | .stop _ => none

theorem reaches_of_advance {turn : σ → Turn σ ρ} {turns : Nat} {start state : σ}
    (arrived : advance turn turns start = some state) : Reaches turn start state := by
  induction turns generalizing start with
  | zero =>
      cases arrived
      exact .start
  | succ turns ih =>
      rw [advance] at arrived
      cases here : turn start with
      | again after =>
          rw [here] at arrived
          exact Reaches.trans (Reaches.start.again here) (ih arrived)
      | stop result =>
          rw [here] at arrived
          cases arrived

theorem exists_last_of_iterate {turn : σ → Turn σ ρ} {fuel : Nat} {state : σ} {result : ρ}
    (ran : iterate turn fuel state = some result) :
    ∃ last, Reaches turn state last ∧ turn last = .stop result := by
  induction fuel generalizing state with
  | zero => cases ran
  | succ fuel ih =>
      rw [iterate] at ran
      cases here : turn state with
      | again after =>
          rw [here] at ran
          obtain ⟨last, reached, stops⟩ := ih ran
          exact ⟨last, Reaches.trans (Reaches.again Reaches.start here) reached, stops⟩
      | stop other =>
          rw [here] at ran
          cases ran
          exact ⟨state, Reaches.start, here⟩

theorem iterate_unique {turn : σ → Turn σ ρ} {fuel other : Nat} {start : σ} {result final : ρ}
    (ran : iterate turn fuel start = some result) (also : iterate turn other start = some final) :
    result = final := by
  induction fuel generalizing other start with
  | zero => cases ran
  | succ fuel ih =>
      cases other with
      | zero => cases also
      | succ other =>
          rw [iterate] at ran also
          cases here : turn start with
          | again after =>
              rw [here] at ran also
              exact ih ran also
          | stop last =>
              rw [here] at ran also
              exact (Option.some.inj ran).symm.trans (Option.some.inj also)

theorem exists_iterate_of_reaches {turn : σ → Turn σ ρ} {fuel : Nat} {start state : σ} {result : ρ}
    (reached : Reaches turn start state) (ran : iterate turn fuel start = some result) :
    ∃ left, iterate turn left state = some result := by
  induction reached with
  | start => exact ⟨fuel, ran⟩
  | again _ here ih =>
      obtain ⟨left, stopped⟩ := ih
      cases left with
      | zero => cases stopped
      | succ left =>
          rw [iterate, here] at stopped
          exact ⟨left, stopped⟩

theorem exists_iterate {μ : Type w} {lower : μ → μ → Prop} (founded : WellFounded lower)
    {turn : σ → Turn σ ρ} {start : σ} (measure : σ → μ)
    (decreases : ∀ before after, Reaches turn start before → turn before = .again after →
      lower (measure after) (measure before)) :
    ∃ fuel result, iterate turn fuel start = some result := by
  have below : ∀ bound state, measure state = bound → Reaches turn start state →
      ∃ fuel result, iterate turn fuel state = some result := by
    intro bound
    induction bound using founded.induction with
    | _ bound ih =>
        intro state same reached
        cases here : turn state with
        | again after =>
            obtain ⟨fuel, result, ran⟩ := ih _ (same ▸ decreases state after reached here) after rfl
              (reached.again here)
            exact ⟨fuel + 1, result, by rw [iterate, here]; exact ran⟩
        | stop result => exact ⟨1, result, by rw [iterate, here]⟩
  exact below _ start rfl Reaches.start

variable {ε : Type w}

/-- Every event of the record was allowed by the events before it. -/
def Always (allowed : List ε → ε → Prop) (record : List ε) : Prop :=
  ∀ first event rest, record = first ++ event :: rest → allowed first event

theorem always_nil (allowed : List ε → ε → Prop) : Always allowed [] := by
  intro first event rest split
  simp at split

theorem Always.snoc {allowed : List ε → ε → Prop} {record : List ε}
    (always : Always allowed record) {event : ε} (here : allowed record event) :
    Always allowed (record ++ [event]) := by
  intro first other rest split
  rcases List.eq_nil_or_concat rest with empty | ⟨initial, last, same⟩
  · subst empty
    obtain ⟨same, single⟩ := List.append_inj' split rfl
    cases single
    exact same ▸ here
  · subst same
    rw [List.concat_eq_append, ← List.cons_append, ← List.append_assoc] at split
    obtain ⟨same, _⟩ := List.append_inj' split rfl
    exact always first other initial same

theorem Always.of_snoc {allowed : List ε → ε → Prop} {record : List ε} {event : ε}
    (always : Always allowed (record ++ [event])) : Always allowed record ∧ allowed record event := by
  refine ⟨?_, always record event [] rfl⟩
  intro first other rest split
  apply always first other (rest ++ [event])
  rw [split, List.append_assoc]
  rfl

theorem Always.imp {allowed also : List ε → ε → Prop} {record : List ε}
    (always : Always allowed record)
    (weaker : ∀ past event, event ∈ record → allowed past event → also past event) :
    Always also record := by
  intro first event rest split
  apply weaker first event _ (always first event rest split)
  rw [split]
  exact List.mem_append_right _ (.head _)

theorem always_append_iff {allowed : List ε → ε → Prop} {first rest : List ε} :
    Always allowed (first ++ rest) ↔
      Always allowed first ∧ Always (fun past => allowed (first ++ past)) rest := by
  induction rest using List.reverseRecOn with
  | nil =>
      rw [List.append_nil]
      exact ⟨fun always => ⟨always, always_nil _⟩, And.left⟩
  | append_singleton initial last ih =>
      rw [← List.append_assoc]
      constructor
      · intro always
        obtain ⟨before, here⟩ := always.of_snoc
        obtain ⟨front, back⟩ := ih.mp before
        exact ⟨front, back.snoc here⟩
      · rintro ⟨front, always⟩
        obtain ⟨back, here⟩ := always.of_snoc
        exact (ih.mpr ⟨front, back⟩).snoc here

theorem always_cons_iff {allowed : List ε → ε → Prop} {event : ε} {rest : List ε} :
    Always allowed (event :: rest) ↔
      allowed [] event ∧ Always (fun past => allowed (event :: past)) rest := by
  rw [← List.singleton_append, always_append_iff]
  refine and_congr ?_ Iff.rfl
  constructor
  · intro always
    exact always [] event [] rfl
  · intro here
    exact (always_nil allowed).snoc here

end Loop
