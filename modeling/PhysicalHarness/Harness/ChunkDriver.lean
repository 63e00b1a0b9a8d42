import Mathlib.Algebra.BigOperators.Group.List.Basic
import Mathlib.Algebra.CharZero.Defs
import Mathlib.Algebra.Field.Basic
import Mathlib.Analysis.SpecialFunctions.Exp
import PhysicalHarness.Lib.Fallible
import PhysicalHarness.Lib.Schedule
import PhysicalHarness.Python.Value

namespace PhysicalHarness
namespace Harness
namespace ChunkDriver

open Python Fallible

/-!
# Chunks of actions

A policy answers with a chunk of actions for the steps to come.  The driver keeps the chunks that are
not used up, takes the head of each at every step, and blends the heads.  It has no clock: that the
heads are all meant for the present step comes from taking one off every chunk at every step.  The age
of a chunk is read off its place among those that are left.
-/

/-- `np.exp`, in exact arithmetic. -/
class Exponential (K : Type) [Field K] where
  exp : K → K
  exp_zero : exp 0 = 1
  exp_add : ∀ x y, exp (x + y) = exp x * exp y
  eq_zero_of_exp : ∀ x, exp x = 1 → x = 0

noncomputable instance : Exponential ℝ where
  exp := Real.exp
  exp_zero := Real.exp_zero
  exp_add := Real.exp_add
  eq_zero_of_exp := fun x => (Real.exp_eq_one_iff x).mp

variable {K ι : Type}

section

variable [Field K] [Exponential K]

theorem exp_mul_exp_neg (x : K) : Exponential.exp x * Exponential.exp (-x) = 1 := by
  rw [← Exponential.exp_add, add_neg_cancel, Exponential.exp_zero]

theorem exp_ne_zero (x : K) : Exponential.exp x ≠ 0 := by
  intro zero
  have product := exp_mul_exp_neg x
  rw [zero, zero_mul] at product
  exact zero_ne_one product

end

/-! ## The driver -/

/-- An action has a value in every dimension. -/
abbrev Action (ι K : Type) := ι → K

/-- What the constructor accepts. -/
structure Config (ι K : Type) where
  /-- `self._k` -/
  replanEvery : Option Nat
  /-- `self._m` -/
  ensemble : Option K
  discreteDims : List ι
  positive : ∀ k, replanEvery = some k → 0 < k
  overlap : ensemble.isSome = true → replanEvery.isSome = true

structure Driver (ι K : Type) where
  /-- the chunks that are not used up, oldest first -/
  chunks : List (List (Action ι K))
  /-- steps since the last inference -/
  since : Nat
  calls : Nat

/-- `if not self._chunks or (self._k is not None and self._since >= self._k)`. -/
def infers (config : Config ι K) (driver : Driver ι K) : Bool :=
  driver.chunks.isEmpty || config.replanEvery.any (fun k => decide (k ≤ driver.since))

/-- The chunks and the count of steps once an inference has been made, if one is. -/
def refreshed (config : Config ι K) (driver : Driver ι K) (fresh : List (Action ι K)) : Driver ι K :=
  if infers config driver then
    { chunks := if config.ensemble.isSome then driver.chunks ++ [fresh] else [fresh]
      since := 0
      calls := driver.calls + 1 }
  else driver

/-- `c.pop(0)`. -/
def popHead {α : Type} : List α → Except PyError α
  | [] => .error .indexError
  | head :: _ => .ok head

section

variable [Field K] [Exponential K]

/-- `np.exp(-self._m * np.arange(len(heads) - 1, -1, -1.0))`. -/
def weights (m : K) (count : Nat) : List K :=
  (List.range count).reverse.map (fun age : Nat => Exponential.exp (-m * (age : K)))

def mean (weights : List K) (heads : List (Action ι K)) : Action ι K := fun dim =>
  (List.zipWith (fun weight head => weight / weights.sum * head dim) weights heads).sum

/-- `_blend`. -/
def blend [DecidableEq ι] (config : Config ι K) (heads : List (Action ι K)) (newest : Action ι K) :
    Except PyError (Action ι K) :=
  match config.ensemble with
  | none => .error .typeError
  | some m => .ok (fun dim =>
      if dim ∈ config.discreteDims then newest dim else mean (weights m heads.length) heads dim)

/-- `heads[-1] if len(heads) == 1 else self._blend(heads)`. -/
def choose [DecidableEq ι] (config : Config ι K) (heads : List (Action ι K)) :
    Except PyError (Action ι K) :=
  match heads.getLast? with
  | none => .error (.valueError "need at least one array to stack")
  | some newest => if heads.length = 1 then .ok newest else blend config heads newest

structure Acted (ι K : Type) where
  heads : List (Action ι K)
  action : Action ι K
  driver : Driver ι K

/-- `act`; `fresh` is what an inference returns. -/
def act [DecidableEq ι] (config : Config ι K) (driver : Driver ι K) (fresh : List (Action ι K)) :
    Except PyError (Acted ι K) := do
  let ready := refreshed config driver fresh
  let heads ← ready.chunks.mapM popHead
  let action ← choose config heads
  return ⟨heads, action, { ready with
    chunks := (ready.chunks.map List.tail).filter (fun chunk => !chunk.isEmpty)
    since := ready.since + 1 }⟩

end

/-- `reset`. -/
def reset (driver : Driver ι K) : Driver ι K := { driver with chunks := [], since := 0 }

/-- The driver as it is made. -/
def start : Driver ι K := ⟨[], 0, 0⟩

structure Inferred (ι K : Type) where
  at_ : Nat
  chunk : List (Action ι K)

/-- A driver with the steps so far and the inferences since the last reset. -/
structure Trace (ι K : Type) where
  driver : Driver ι K
  time : Nat
  log : List (Inferred ι K)

inductive Op (ι K : Type) where
  | act (fresh : List (Action ι K))
  | reset

/-- The inferences once the step has made its own, if it makes one. -/
def Trace.logged (config : Config ι K) (trace : Trace ι K) (fresh : List (Action ι K)) :
    List (Inferred ι K) :=
  if infers config trace.driver then trace.log ++ [⟨trace.time, fresh⟩] else trace.log

/-- A chunk that is inferred is not empty. -/
def advance [Field K] [Exponential K] [DecidableEq ι] (config : Config ι K) :
    Op ι K → Trace ι K → Option (Trace ι K)
  | .act fresh, trace =>
      if fresh.isEmpty then none
      else (act config trace.driver fresh).toOption.map (fun acted =>
        ⟨acted.driver, trace.time + 1, trace.logged config fresh⟩)
  | .reset, trace => some ⟨reset trace.driver, trace.time, []⟩

def Trace.start : Trace ι K := ⟨ChunkDriver.start, 0, []⟩

/-- `chunk[time - at]`, where the chunk covers the step. -/
def Inferred.covers (time : Nat) (inferred : Inferred ι K) : Option (Action ι K) :=
  inferred.chunk[time - inferred.at_]?

/-- The chunks that take part: all of them with an ensemble, the newest one without. -/
def taking (config : Config ι K) (log : List (Inferred ι K)) : List (Inferred ι K) :=
  if config.ensemble.isSome then log else log.getLast?.toList

def aged : List (Inferred ι K) → List (Nat × Inferred ι K)
  | [] => []
  | inferred :: rest => (rest.length, inferred) :: aged rest

def ages (time : Nat) (log : List (Inferred ι K)) : List Nat :=
  ((aged log).filter (fun entry => (entry.2.covers time).isSome)).map Prod.fst

/-- A step is aligned: it blends what the chunks have for it, the discrete dimensions are the newest
one's, and it is one of the first steps after an inference. -/
structure Aligned [Field K] [Exponential K] [DecidableEq ι] (config : Config ι K) (time : Nat)
    (log : List (Inferred ι K)) (acted : Acted ι K) : Prop where
  heads : acted.heads = (taking config log).filterMap (Inferred.covers time)
  discrete : ∀ newest, acted.heads.getLast? = some newest →
    ∀ dim ∈ config.discreteDims, acted.action dim = newest dim
  alone : ∀ newest, acted.heads = [newest] → acted.action = newest
  blended : ∀ m, config.ensemble = some m → acted.heads.length ≠ 1 → ∀ dim, dim ∉ config.discreteDims →
    acted.action dim = mean (weights m acted.heads.length) acted.heads dim
  paced : ∀ k, config.replanEvery = some k → ∃ last, log.getLast? = some last ∧ last.at_ ≤ time ∧
    time - last.at_ < k

/-- The weights are in proportion to the exponentials of the ages. -/
def Weighted [Field K] [Exponential K] (config : Config ι K) (time : Nat) (log : List (Inferred ι K))
    (acted : Acted ι K) : Prop :=
  ∀ m, config.ensemble = some m → ∃ scale : K, scale ≠ 0 ∧
    weights m acted.heads.length =
      (ages time log).map (fun age : Nat => scale * Exponential.exp (-m * (age : K)))

/-- No chunk is used up between two that still cover the step. -/
def Consecutive (time : Nat) (log : List (Inferred ι K)) : Prop :=
  ∃ shift, ages time log = (List.range (ages time log).length).reverse.map (· + shift)

def Inferred.remaining (time : Nat) (inferred : Inferred ι K) : List (Action ι K) :=
  inferred.chunk.drop (time - inferred.at_)

/-- What the chunks have left, without those that are used up. -/
def live (time : Nat) (log : List (Inferred ι K)) : List (List (Action ι K)) :=
  (log.map (Inferred.remaining time)).filter (fun chunk => !chunk.isEmpty)

theorem head?_remaining (time : Nat) (inferred : Inferred ι K) :
    (inferred.remaining time).head? = inferred.covers time := by
  rw [Inferred.remaining, Inferred.covers, List.head?_drop]

theorem live_cons (time : Nat) (inferred : Inferred ι K) (rest : List (Inferred ι K)) :
    live time (inferred :: rest) = (if (inferred.remaining time).isEmpty then [] else
      [inferred.remaining time]) ++ live time rest := by
  rw [live, List.map_cons, List.filter_cons]
  cases (inferred.remaining time).isEmpty with
  | true => rfl
  | false => rfl

theorem live_append (time : Nat) (log more : List (Inferred ι K)) :
    live time (log ++ more) = live time log ++ live time more := by
  rw [live, List.map_append, List.filter_append]
  rfl

theorem live_fresh (time : Nat) {fresh : List (Action ι K)} (some_ : fresh ≠ []) :
    live time [⟨time, fresh⟩] = [fresh] := by
  have whole : (Inferred.mk time fresh).remaining time = fresh := by
    rw [Inferred.remaining, Nat.sub_self, List.drop_zero]
  rw [live_cons, whole, if_neg (by rw [List.isEmpty_iff]; exact some_)]
  rfl

theorem mapM_popHead_live (time : Nat) (log : List (Inferred ι K)) :
    (live time log).mapM popHead = .ok (log.filterMap (Inferred.covers time)) := by
  induction log with
  | nil => rfl
  | cons inferred rest ih =>
      have head := head?_remaining time inferred
      rw [live_cons, List.filterMap_cons, ← head]
      cases inferred.remaining time with
      | nil => exact ih
      | cons first others =>
          show List.mapM popHead ((first :: others) :: live time rest) = _
          rw [List.mapM_cons, ih]
          rfl

theorem live_succ {time : Nat} {log : List (Inferred ι K)} (past : ∀ inferred ∈ log, inferred.at_ ≤ time) :
    ((live time log).map List.tail).filter (fun chunk => !chunk.isEmpty) = live (time + 1) log := by
  induction log with
  | nil => rfl
  | cons inferred rest ih =>
      have later := ih (fun other mem => past other (.tail _ mem))
      have early := past inferred (.head _)
      have next : inferred.remaining (time + 1) = (inferred.remaining time).tail := by
        rw [Inferred.remaining, Inferred.remaining, List.tail_drop, Nat.sub_add_comm early]
      rw [live_cons, live_cons, List.map_append, List.filter_append, later, next]
      refine congrArg (· ++ _) ?_
      cases inferred.remaining time with
      | nil => rfl
      | cons first others =>
          cases others with
          | nil => rfl
          | cons second others => rfl

/-- The driver holds what the chunks have left, and has counted the steps since the last inference. -/
structure Tracked (config : Config ι K) (trace : Trace ι K) : Prop where
  chunks : trace.driver.chunks = live trace.time (taking config trace.log)
  past : ∀ inferred ∈ trace.log, inferred.at_ ≤ trace.time
  counted : ∀ last, trace.log.getLast? = some last → last.at_ + trace.driver.since = trace.time

theorem tracked_start (config : Config ι K) : Tracked config Trace.start where
  chunks := by
    rw [Trace.start, taking]
    split_ifs <;> rfl
  past := by
    intro inferred mem
    cases mem
  counted := by
    intro last found
    cases found

theorem tracked_reset {config : Config ι K} {trace : Trace ι K} :
    Tracked config ⟨reset trace.driver, trace.time, []⟩ where
  chunks := by
    rw [taking]
    split_ifs <;> rfl
  past := by
    intro inferred mem
    cases mem
  counted := by
    intro last found
    cases found

structure Ready (config : Config ι K) (time : Nat) (log : List (Inferred ι K)) (ready : Driver ι K) :
    Prop where
  chunks : ready.chunks = live time (taking config log)
  nonempty : ready.chunks ≠ []
  past : ∀ inferred ∈ log, inferred.at_ ≤ time
  counted : ∃ last, log.getLast? = some last ∧ last.at_ + ready.since = time
  paced : ∀ k, config.replanEvery = some k → ready.since < k

theorem taking_snoc (config : Config ι K) (log : List (Inferred ι K)) (last : Inferred ι K) :
    taking config (log ++ [last]) = if config.ensemble.isSome then log ++ [last] else [last] := by
  rw [taking, List.getLast?_concat]
  rfl

theorem ready_of_tracked {config : Config ι K} {trace : Trace ι K} (tracked : Tracked config trace)
    {fresh : List (Action ι K)} (some_ : fresh ≠ []) :
    Ready config trace.time (trace.logged config fresh) (refreshed config trace.driver fresh) := by
  rw [Trace.logged, refreshed]
  cases asks : infers config trace.driver with
  | true =>
      rw [if_pos rfl, if_pos rfl]
      have newest : (⟨trace.time, fresh⟩ : Inferred ι K).at_ ≤ trace.time := le_refl _
      constructor
      · rw [taking_snoc]
        have kept := tracked.chunks
        rw [taking] at kept
        split_ifs at kept ⊢ with ensemble
        · rw [live_append, live_fresh trace.time some_, kept]
        · rw [live_fresh trace.time some_]
      · show (if config.ensemble.isSome = true then trace.driver.chunks ++ [fresh] else [fresh]) ≠ []
        split_ifs
        · exact List.append_ne_nil_of_right_ne_nil _ (List.cons_ne_nil _ _)
        · exact List.cons_ne_nil _ _
      · intro inferred mem
        rcases List.mem_append.mp mem with old | here
        · exact tracked.past inferred old
        · rw [List.mem_singleton.mp here]
      · exact ⟨⟨trace.time, fresh⟩, List.getLast?_concat, rfl⟩
      · exact fun k paced => config.positive k paced
  | false =>
      rw [if_neg Bool.false_ne_true, if_neg Bool.false_ne_true]
      rw [infers, Bool.or_eq_false_iff] at asks
      have nonempty : trace.driver.chunks ≠ [] := by
        intro empty
        rw [empty] at asks
        cases asks.1
      refine ⟨tracked.chunks, nonempty, tracked.past, ?_, ?_⟩
      · cases last : trace.log.getLast? with
        | some last_ => exact ⟨last_, rfl, tracked.counted last_ last⟩
        | none =>
            rw [List.getLast?_eq_none_iff] at last
            have chunks := tracked.chunks
            rw [taking, last] at chunks
            refine absurd ?_ nonempty
            rw [chunks]
            split_ifs <;> rfl
      · intro k paced
        have more := asks.2
        rw [paced, Option.any_some, decide_eq_false_iff_not] at more
        exact Nat.lt_of_not_le more

theorem length_heads_le {config : Config ι K} (single : config.ensemble = none) (time : Nat)
    (log : List (Inferred ι K)) : ((taking config log).filterMap (Inferred.covers time)).length ≤ 1 := by
  refine (List.length_filterMap_le _ _).trans ?_
  rw [taking, single]
  show (log.getLast?.toList).length ≤ 1
  cases log.getLast? with
  | none => exact Nat.zero_le 1
  | some last => exact le_refl 1

section

variable [Field K] [Exponential K] [DecidableEq ι]

theorem choose_spec (config : Config ι K) {heads : List (Action ι K)} {newest : Action ι K}
    (last : heads.getLast? = some newest) (single : config.ensemble = none → heads.length ≤ 1) :
    ∃ action, choose config heads = .ok action ∧ (∀ dim ∈ config.discreteDims, action dim = newest dim) ∧
      (heads.length = 1 → action = newest) ∧
      ∀ m, config.ensemble = some m → heads.length ≠ 1 → ∀ dim, dim ∉ config.discreteDims →
        action dim = mean (weights m heads.length) heads dim := by
  rw [choose, last]
  by_cases one : heads.length = 1
  · refine ⟨newest, if_pos one, fun _ _ => rfl, fun _ => rfl, ?_⟩
    exact fun _ _ more => absurd one more
  · cases ensemble : config.ensemble with
    | none =>
        have short := single ensemble
        have some_ : heads ≠ [] := by
          intro empty
          rw [empty] at last
          cases last
        have positive := List.length_pos_iff.mpr some_
        omega
    | some m =>
        refine ⟨_, (if_neg one).trans (by rw [blend, ensemble]), ?_, fun only => absurd only one, ?_⟩
        · intro dim discrete
          exact if_pos discrete
        · intro other same _ dim continuous
          cases same
          exact if_neg continuous

theorem act_spec {config : Config ι K} {trace : Trace ι K} (tracked : Tracked config trace)
    {fresh : List (Action ι K)} (some_ : fresh ≠ []) :
    ∃ acted, act config trace.driver fresh = .ok acted ∧
      Aligned config trace.time (trace.logged config fresh) acted ∧
      Tracked config ⟨acted.driver, trace.time + 1, trace.logged config fresh⟩ := by
  have ready := ready_of_tracked tracked some_
  generalize trace.logged config fresh = log at ready
  have popped := mapM_popHead_live trace.time (taking config log)
  rw [← ready.chunks] at popped
  have lengths := (mapM_eq_ok_iff.mp popped).length_eq
  have inside : taking config log ⊆ log := by
    intro inferred mem
    rw [taking] at mem
    split_ifs at mem
    · exact mem
    · exact List.mem_of_getLast? (Option.mem_toList.mp mem)
  cases last : ((taking config log).filterMap (Inferred.covers trace.time)).getLast? with
  | none =>
      rw [List.getLast?_eq_none_iff] at last
      rw [last, List.length_nil, List.length_eq_zero_iff] at lengths
      exact absurd lengths ready.nonempty
  | some newest =>
      rcases choose_spec config last (fun single => length_heads_le single _ _) with
        ⟨action, chosen, discrete, alone, blended⟩
      refine ⟨_, bind_eq_ok.mpr ⟨_, popped, bind_eq_ok.mpr ⟨action, chosen, rfl⟩⟩, ?_, ?_⟩
      · constructor
        · rfl
        · intro other same
          rw [last] at same
          cases same
          exact discrete
        · intro only same
          have heads : (taking config log).filterMap (Inferred.covers trace.time) = [only] := same
          rw [heads, List.getLast?_singleton] at last
          cases last
          exact alone (by rw [heads, List.length_singleton])
        · exact blended
        · intro k paced
          rcases ready.counted with ⟨final, found, counted⟩
          have less := ready.paced k paced
          exact ⟨final, found, by omega, by omega⟩
      · constructor
        · show (List.filter _ _) = _
          rw [ready.chunks]
          exact live_succ (fun inferred mem => ready.past inferred (inside mem))
        · intro inferred mem
          exact Nat.le_succ_of_le (ready.past inferred mem)
        · intro final found
          rcases ready.counted with ⟨other, also, counted⟩
          rw [found] at also
          cases also
          show final.at_ + (_ + 1) = trace.time + 1
          omega

theorem tracked_advance {config : Config ι K} {op : Op ι K} {trace next : Trace ι K}
    (tracked : Tracked config trace) (advanced : advance config op trace = some next) :
    Tracked config next := by
  cases op with
  | reset =>
      cases advanced
      exact tracked_reset
  | act fresh =>
      rw [advance] at advanced
      split_ifs at advanced with empty
      rw [List.isEmpty_iff] at empty
      rcases act_spec tracked empty with ⟨acted, ran, _, later⟩
      rw [ran] at advanced
      cases advanced
      exact later

end

/-! ## Ages -/

theorem ages_cons (time : Nat) (inferred : Inferred ι K) (rest : List (Inferred ι K)) :
    ages time (inferred :: rest) =
      (if (inferred.covers time).isSome then [rest.length] else []) ++ ages time rest := by
  rw [ages, aged, List.filter_cons]
  cases (inferred.covers time).isSome with
  | true => rfl
  | false => rfl

theorem length_ages (time : Nat) (log : List (Inferred ι K)) :
    (ages time log).length = (log.filterMap (Inferred.covers time)).length := by
  induction log with
  | nil => rfl
  | cons inferred rest ih =>
      rw [ages_cons, List.length_append, ih, List.filterMap_cons]
      cases inferred.covers time with
      | none => exact Nat.zero_add _
      | some head =>
          rw [List.length_cons]
          exact Nat.add_comm _ _

section

variable [Field K] [CharZero K] [Exponential K]

theorem eq_add_of_exp {m : K} (moves : m ≠ 0) {age other shift : Nat} {scale : K}
    (reference : 1 = scale * Exponential.exp (-m * shift))
    (same : Exponential.exp (-m * age) = scale * Exponential.exp (-m * other)) : other = age + shift := by
  have product : Exponential.exp (-m * age) * Exponential.exp (-m * shift) = Exponential.exp (-m * other) := by
    calc Exponential.exp (-m * age) * Exponential.exp (-m * shift)
        = (scale * Exponential.exp (-m * shift)) * Exponential.exp (-m * other) := by rw [same]; ring
      _ = Exponential.exp (-m * other) := by rw [← reference, one_mul]
  have unit : Exponential.exp (-m * age + -m * shift + m * other) = 1 := by
    have inverse := exp_mul_exp_neg (-m * other : K)
    rw [show -(-m * other : K) = m * other by ring] at inverse
    rw [Exponential.exp_add, Exponential.exp_add, product]
    exact inverse
  have zero := Exponential.eq_zero_of_exp _ unit
  have factored : m * ((other : K) - (age + shift)) = 0 := by
    rw [← zero]
    ring
  have equal := sub_eq_zero.mp ((mul_eq_zero.mp factored).resolve_left moves)
  exact_mod_cast equal

theorem proportion_iff {m : K} (moves : m ≠ 0) {ages : List Nat} (some_ : ages ≠ []) :
    (∃ scale : K, scale ≠ 0 ∧
      weights m ages.length = ages.map (fun age : Nat => scale * Exponential.exp (-m * (age : K)))) ↔
        ∃ shift, ages = (List.range ages.length).reverse.map (· + shift) := by
  constructor
  · rintro ⟨scale, _, same⟩
    have pairs : List.Forall₂ (fun place age : Nat =>
        Exponential.exp (-m * place) = scale * Exponential.exp (-m * age)) (List.range ages.length).reverse ages := by
      have equal : List.Forall₂ Eq (weights m ages.length)
          (ages.map (fun age : Nat => scale * Exponential.exp (-m * (age : K)))) := by
        rw [same, List.forall₂_eq_eq_eq]
      rw [weights, List.forall₂_map_left_iff, List.forall₂_map_right_iff] at equal
      exact equal
    have first : 0 ∈ (List.range ages.length).reverse := by
      rw [List.mem_reverse, List.mem_range]
      exact List.length_pos_iff.mpr some_
    rcases exists_right_of_forall₂ pairs first with ⟨shift, _, reference⟩
    rw [Nat.cast_zero, mul_zero, Exponential.exp_zero] at reference
    refine ⟨shift, ?_⟩
    have places := pairs.imp (fun _ _ => eq_add_of_exp moves reference)
    rw [← List.forall₂_eq_eq_eq, List.forall₂_map_right_iff]
    exact places.flip
  · rintro ⟨shift, consecutive⟩
    refine ⟨Exponential.exp (m * shift), exp_ne_zero _, ?_⟩
    have mapped : weights m ages.length = ((List.range ages.length).reverse.map (· + shift)).map
        (fun age : Nat => Exponential.exp (m * shift) * Exponential.exp (-m * (age : K))) := by
      rw [weights, List.map_map]
      apply List.map_congr_left
      intro place _
      rw [Function.comp_apply, ← Exponential.exp_add]
      refine congrArg Exponential.exp ?_
      push_cast
      ring
    rw [mapped, ← consecutive]

omit [CharZero K] in
theorem weights_zero (ages : List Nat) :
    weights (0 : K) ages.length = ages.map (fun age : Nat => 1 * Exponential.exp (-0 * (age : K))) := by
  have ones : ∀ age : Nat, Exponential.exp (-0 * (age : K)) = 1 := by
    intro age
    rw [neg_zero, zero_mul, Exponential.exp_zero]
  rw [weights]
  simp only [ones, one_mul, List.map_const', List.length_reverse, List.length_range]

variable [DecidableEq ι]

theorem weighted_iff {config : Config ι K} {time : Nat} {log : List (Inferred ι K)} {acted : Acted ι K}
    (aligned : Aligned config time log acted) (some_ : acted.heads ≠ []) :
    Weighted config time log acted ↔ ∀ m, config.ensemble = some m → m = 0 ∨ Consecutive time log := by
  have counted : ∀ m, config.ensemble = some m → acted.heads.length = (ages time log).length := by
    intro m ensemble
    have heads := aligned.heads
    rw [taking, ensemble, Option.isSome_some, if_pos rfl] at heads
    rw [heads, length_ages]
  refine forall₂_congr (fun m ensemble => ?_)
  have here := counted m ensemble
  have listed : ages time log ≠ [] := by
    intro empty
    rw [empty, List.length_nil, List.length_eq_zero_iff] at here
    exact some_ here
  rw [here]
  by_cases still : m = 0
  · subst still
    exact ⟨fun _ => Or.inl rfl, fun _ => ⟨1, one_ne_zero, weights_zero _⟩⟩
  · rw [proportion_iff still listed, Consecutive]
    exact ⟨Or.inr, fun either => either.resolve_left still⟩

/-- In every run a step blends the entries that the chunks since the last reset have for it, in order and
in time, and weights them by age exactly where there is no decay or no chunk is used up between two that
cover the step. -/
theorem act_aligned_iff (config : Config ι K) (ops : List (Op ι K)) (trace : Trace ι K)
    (ran : Schedule.run (advance config) Trace.start ops = some trace) (fresh : List (Action ι K))
    (some_ : fresh ≠ []) :
    (∃ acted, act config trace.driver fresh = .ok acted ∧
      Aligned config trace.time (trace.logged config fresh) acted ∧
      Weighted config trace.time (trace.logged config fresh) acted) ↔
        ∀ m, config.ensemble = some m → m = 0 ∨ Consecutive trace.time (trace.logged config fresh) := by
  have kept : ∀ op trace next, Tracked config trace → advance config op trace = some next →
      Tracked config next := fun _ _ _ => tracked_advance
  have tracked := Schedule.invariant kept (tracked_start config) ran
  rcases act_spec tracked some_ with ⟨acted, did, aligned, _⟩
  have heads : acted.heads ≠ [] := by
    have ready := ready_of_tracked tracked some_
    have popped := mapM_popHead_live trace.time (taking config (trace.logged config fresh))
    rw [← ready.chunks, ← aligned.heads] at popped
    have lengths := (mapM_eq_ok_iff.mp popped).length_eq
    intro empty
    rw [empty, List.length_nil, List.length_eq_zero_iff] at lengths
    exact ready.nonempty lengths
  rw [← weighted_iff aligned heads]
  constructor
  · rintro ⟨other, same, _, weighted⟩
    rw [did] at same
    cases same
    exact weighted
  · exact fun weighted => ⟨acted, did, aligned, weighted⟩

end

/-- An inference at every step, with a decay. -/
def everyStep : Config Unit ℝ where
  replanEvery := some 1
  ensemble := some 1
  discreteDims := []
  positive := by
    intro k same
    cases same
    exact Nat.one_pos
  overlap := fun _ => rfl

/-- A chunk of so many equal actions. -/
def steady (value : ℝ) (count : Nat) : List (Action Unit ℝ) := List.replicate count (fun _ => value)

/-- The driver after two steps, the second with a chunk of the given length. -/
noncomputable def afterTwo (count : Nat) : Option (Trace Unit ℝ) :=
  Schedule.run (advance everyStep) Trace.start [.act (steady 0 3), .act (steady 1 count)]

theorem act_aligned_steady : ∃ trace, afterTwo 2 = some trace ∧
    ∃ acted, act everyStep trace.driver (steady 2 1) = .ok acted ∧
      Aligned everyStep trace.time (trace.logged everyStep (steady 2 1)) acted ∧
      Weighted everyStep trace.time (trace.logged everyStep (steady 2 1)) acted := by
  refine ⟨_, rfl, ?_⟩
  apply (act_aligned_iff everyStep [.act (steady 0 3), .act (steady 1 2)] _ rfl (steady 2 1)
    (List.cons_ne_nil _ _)).mpr
  intro m _
  exact Or.inr ⟨0, rfl⟩

/-- Where the chunk in the middle is used up, the oldest one is weighted as if there had been none. -/
theorem middle_chunk_forgotten : ∃ trace, afterTwo 1 = some trace ∧
    ¬ ∃ acted, act everyStep trace.driver (steady 2 1) = .ok acted ∧
      Aligned everyStep trace.time (trace.logged everyStep (steady 2 1)) acted ∧
      Weighted everyStep trace.time (trace.logged everyStep (steady 2 1)) acted := by
  refine ⟨_, rfl, ?_⟩
  rintro ⟨acted, did, aligned, weighted⟩
  have heads : acted.heads ≠ [] := by
    rw [aligned.heads]
    exact List.cons_ne_nil _ _
  rcases (weighted_iff aligned heads).mp weighted 1 rfl with zero | ⟨shift, consecutive⟩
  · exact one_ne_zero zero
  · have listed : [2, 0] = [1 + shift, 0 + shift] := consecutive
    have first : 2 = 1 + shift := (List.cons.inj listed).1
    have second : 0 = 0 + shift := (List.cons.inj (List.cons.inj listed).2).1
    omega

end ChunkDriver
end Harness
end PhysicalHarness
