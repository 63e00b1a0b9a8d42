import PhysicalHarness.Harness.Percept

namespace PhysicalHarness
namespace Rsi

open Python Harness

/-!
# Triggers

A trigger compares one feature with a threshold: armed from a step on, it fires
when the comparison has held for `dwell` consecutive steps.  Search scores it on a
recorded series, after a running reduction of the series.
-/

inductive Op where
  | lt
  | gt
  deriving DecidableEq

inductive Reducer where
  | value
  | min
  | max
  | range
  deriving DecidableEq

/-- A machine-evaluable activation rule over one declared feature. -/
structure Trigger where
  feature : String
  op : Op
  threshold : Double
  dwell : Int
  armAfter : Int
  reducer : Reducer
  deriving DecidableEq

/-! ## Running reductions -/

/-- `np.minimum`: a NaN on either side is the result. -/
def minimum (left right : Double) : Double :=
  if left.value = .nan then left
  else if right.value = .nan then right
  else if right.lt left then right else left

/-- `np.maximum`. -/
def maximum (left right : Double) : Double :=
  if left.value = .nan then left
  else if right.value = .nan then right
  else if left.lt right then right else left

def difference (left right : Double) : Double :=
  match left.value, right.value with
  | .nan, _ => Double.nan
  | _, .nan => Double.nan
  | .posInf, .posInf => Double.nan
  | .negInf, .negInf => Double.nan
  | .posInf, _ => Double.posInf
  | .negInf, _ => Double.negInf
  | _, .posInf => Double.negInf
  | _, .negInf => Double.posInf
  | .negZero, .fin value => if value = 0 then Double.negZero else Double.nearest (-value)
  | first, second => Double.nearest (first.toRat?.getD 0 - second.toRat?.getD 0)

/-- `ufunc.accumulate`: element t is the reduction over steps 0..t inclusive. -/
def accumulate (combine : Double → Double → Double) : List Double → List Double
  | [] => []
  | first :: rest => rest.scanl combine first

def reduceSeries (series : List Double) : Reducer → List Double
  | .value => series
  | .min => accumulate minimum series
  | .max => accumulate maximum series
  | .range => List.zipWith difference (accumulate maximum series) (accumulate minimum series)

namespace Trigger

/-- Does this reading cross the threshold? -/
def crosses (trigger : Trigger) (value : Double) : Bool :=
  match trigger.op with
  | .lt => value.lt trigger.threshold
  | .gt => trigger.threshold.lt value

theorem crosses_nan (trigger : Trigger) : trigger.crosses Double.nan = false := by
  rw [crosses]
  cases trigger.op
  · exact PyFloat.nan_lt _
  · exact PyFloat.lt_nan _

/-- The scan of `fire_step` from step `t` on. -/
def fireFrom (trigger : Trigger) (t consec : Nat) : List Double → Option Nat
  | [] => none
  | value :: rest =>
      if (t : Int) < trigger.armAfter then trigger.fireFrom (t + 1) 0 rest
      else
        let consec := if trigger.crosses value then consec + 1 else 0
        if trigger.dwell ≤ consec then some t else trigger.fireFrom (t + 1) consec rest

/-- First step index at which this trigger fires on a series, or none. -/
def fireStep (trigger : Trigger) (series : List Double) : Option Nat :=
  trigger.fireFrom 0 0 (reduceSeries series trigger.reducer)

variable {trigger : Trigger}

theorem fireFrom_of_quiet (dwell : 1 ≤ trigger.dwell) {series : List Double}
    (quiet : ∀ value ∈ series, trigger.crosses value = false) (t : Nat) :
    trigger.fireFrom t 0 series = none := by
  induction series generalizing t with
  | nil => rfl
  | cons value rest ih =>
      have later := ih (fun other mem => quiet other (.tail _ mem)) (t + 1)
      have waits : ¬ trigger.dwell ≤ ((0 : Nat) : Int) := by
        rw [Nat.cast_zero]
        omega
      rw [fireFrom, quiet value List.mem_cons_self]
      by_cases early : (t : Int) < trigger.armAfter
      · rw [if_pos early]
        exact later
      · rw [if_neg early]
        simp only [Bool.false_eq_true, if_false]
        rw [if_neg waits]
        exact later

theorem fireFrom_replicate_armed {value : Double}
    (ready : trigger.dwell ≤ 0 ∨ trigger.crosses value = true) {n t consec : Nat}
    (armed : trigger.armAfter ≤ t) (some_ : 1 ≤ n) (enough : trigger.dwell ≤ consec + n) :
    trigger.fireFrom t consec (List.replicate n value) ≠ none := by
  induction n generalizing t consec with
  | zero => exact absurd some_ (Nat.not_succ_le_zero 0)
  | succ n ih =>
      rw [List.replicate_succ, fireFrom, if_neg (not_lt.mpr armed)]
      by_cases crosses : trigger.crosses value = true
      · rw [if_pos crosses]
        by_cases held : trigger.dwell ≤ ((consec + 1 : Nat) : Int)
        · rw [if_pos held]
          exact Option.some_ne_none t
        · rw [if_neg held]
          apply ih
          · omega
          · omega
          · omega
      · have free : trigger.dwell ≤ ((0 : Nat) : Int) := ready.resolve_right crosses
        rw [if_neg crosses, if_pos free]
        exact Option.some_ne_none t

theorem fireFrom_replicate {value : Double}
    (ready : trigger.dwell ≤ 0 ∨ trigger.crosses value = true) {n t consec : Nat}
    (some_ : 1 ≤ n) (dwell : trigger.dwell ≤ n) (armed : trigger.armAfter - t + 1 ≤ n)
    (enough : trigger.armAfter - t + trigger.dwell ≤ n) :
    trigger.fireFrom t consec (List.replicate n value) ≠ none := by
  induction n generalizing t consec with
  | zero => exact absurd some_ (Nat.not_succ_le_zero 0)
  | succ n ih =>
      by_cases early : (t : Int) < trigger.armAfter
      · rw [List.replicate_succ, fireFrom, if_pos early]
        apply ih
        · omega
        · omega
        · omega
        · omega
      · apply fireFrom_replicate_armed ready (not_lt.mp early) some_
        omega

def beyond (trigger : Trigger) : Double :=
  match trigger.op with
  | .lt => Double.negInf
  | .gt => Double.posInf

theorem crosses_beyond (finite : trigger.threshold.value.isFinite = true) :
    trigger.crosses trigger.beyond = true := by
  rw [crosses, beyond]
  cases trigger.op with
  | lt =>
      change PyFloat.negInf.lt trigger.threshold.value = true
      cases same : trigger.threshold.value with
      | negInf => rw [same] at finite; cases finite
      | nan => rw [same] at finite; cases finite
      | _ => rfl
  | gt =>
      change trigger.threshold.value.lt .posInf = true
      cases same : trigger.threshold.value with
      | posInf => rw [same] at finite; cases finite
      | nan => rw [same] at finite; cases finite
      | _ => rfl

end Trigger

end Rsi
end PhysicalHarness
