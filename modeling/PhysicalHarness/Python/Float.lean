import PhysicalHarness.Lib.Rounding
import PhysicalHarness.Python.Value

namespace PhysicalHarness
namespace Python

open Rounding

/-!
# Binary floats

A `PyFloat` is any number.  A float of the program is one that fits in 53
significant bits, or an infinity, a zero or NaN; `Double` carries that fact.
`round(value, 9)` rounds the exact value to nine decimals, ties to even, and
returns the float nearest to that decimal.
-/

def PyFloat.IsDouble : PyFloat → Prop
  | .fin value => Short 52 (-1074) value
  | _ => True

instance : DecidablePred PyFloat.IsDouble
  | .fin value => inferInstanceAs (Decidable (Short 52 (-1074) value))
  | .negZero => .isTrue trivial
  | .posInf => .isTrue trivial
  | .negInf => .isTrue trivial
  | .nan => .isTrue trivial

/-- A float as the program holds it. -/
structure Double where
  value : PyFloat
  double : value.IsDouble

namespace Double

@[ext] theorem ext {left right : Double} (same : left.value = right.value) : left = right := by
  cases left
  cases right
  cases same
  rfl

instance : DecidableEq Double := fun left right =>
  if same : left.value = right.value then .isTrue (ext same)
  else .isFalse (fun equal => same (congrArg value equal))

def nan : Double := ⟨.nan, trivial⟩

def posInf : Double := ⟨.posInf, trivial⟩

def negInf : Double := ⟨.negInf, trivial⟩

def negZero : Double := ⟨.negZero, trivial⟩

/-- The float nearest to an exact value. -/
def nearest (value : ℚ) : Double := ⟨.fin (binary 52 (-1074) value), short_binary value⟩

/-- The comparison `left < right`. -/
def lt (left right : Double) : Bool := left.value.lt right.value

/-- `round(value, 9)` of a finite number; a negative one that comes out as zero
keeps its sign. -/
def rounded (value : ℚ) : Double :=
  if toUnit (1 / 10 ^ 9) value = 0 ∧ value < 0 then negZero
  else nearest (toUnit (1 / 10 ^ 9) value)

/-- `round(value, 9)`. -/
def round9 : Double → Double
  | ⟨.fin value, _⟩ => rounded value
  | other => other

theorem binary_zero : binary 52 (-1074) 0 = 0 := by
  have none_ : even 0 = 0 := by exact_mod_cast even_intCast 0
  rw [binary, toUnit, zero_div, none_, Int.cast_zero, zero_mul]

theorem rounded_binary {value : ℚ} (double : Short 52 (-1074) value) :
    rounded (binary 52 (-1074) (toUnit (1 / 10 ^ 9) value)) =
      nearest (toUnit (1 / 10 ^ 9) value) := by
  have stored : toUnit (1 / 10 ^ 9) (binary 52 (-1074) (toUnit (1 / 10 ^ 9) value)) =
      toUnit (1 / 10 ^ 9) value :=
    toUnit_stored (by norm_num) (abs_binary_sub_le double _)
  rw [rounded, stored]
  refine if_neg (fun both => ?_)
  rw [both.1, binary_zero] at both
  exact absurd both.2 (lt_irrefl 0)

@[simp] theorem round9_round9 (number : Double) : number.round9.round9 = number.round9 := by
  rcases number with ⟨value | _ | _ | _ | _, double⟩
  · show (rounded value).round9 = rounded value
    by_cases negative : toUnit (1 / 10 ^ 9) value = 0 ∧ value < 0
    · rw [rounded, if_pos negative]
      rfl
    · rw [rounded, if_neg negative]
      exact rounded_binary double
  all_goals rfl

end Double

end Python
end PhysicalHarness
