import PhysicalHarness.Python.Float

namespace PhysicalHarness
namespace Python

open Rounding

/-!
# Float arithmetic

The operators on floats round the exact result once; a result that is too large is an
infinity, a zero has a sign, and NaN stands where there is no number.  An integer that is
too large for a float, a division by zero and the rounding of what is no number raise.
-/

inductive NumberError where
  | zeroDivisionError
  | overflowError
  | valueError
  deriving DecidableEq

/-! ## Powers of two -/

namespace Double

def negative (number : Double) : Bool :=
  match number.value with
  | .fin value => decide (value < 0)
  | .negZero => true
  | .negInf => true
  | _ => false

def zero (negative : Bool) : Double := if negative then negZero else nearest 0

def infinity (negative : Bool) : Double := if negative then negInf else posInf

def Overflows (exact : ℚ) : Prop := 2 ^ 1024 ≤ |binary 52 (-1074) exact|

instance decidableOverflows (exact : ℚ) : Decidable (Overflows exact) :=
  inferInstanceAs (Decidable (_ ≤ _))

/-- The float for an exact result; the sign is that of a zero or an infinity. -/
def settled (negative : Bool) (exact : ℚ) : Double :=
  if Overflows exact then infinity negative
  else if binary 52 (-1074) exact = 0 then zero negative else nearest exact

def neg (number : Double) : Double :=
  match number.value with
  | .fin value => settled (decide (0 ≤ value)) (-value)
  | .negZero => nearest 0
  | .posInf => negInf
  | .negInf => posInf
  | .nan => nan

def add (left right : Double) : Double :=
  match left.value, right.value with
  | .nan, _ => nan
  | _, .nan => nan
  | .posInf, .negInf => nan
  | .negInf, .posInf => nan
  | .posInf, _ => posInf
  | .negInf, _ => negInf
  | _, .posInf => posInf
  | _, .negInf => negInf
  | .negZero, .negZero => negZero
  | first, second =>
      let sum := first.toRat?.getD 0 + second.toRat?.getD 0
      settled (decide (sum < 0)) sum

def sub (left right : Double) : Double := left.add right.neg

def mul (left right : Double) : Double :=
  let negative := left.negative != right.negative
  match left.value.toRat?, right.value.toRat? with
  | some first, some second => settled negative (first * second)
  | first, second =>
      if left.value = .nan ∨ right.value = .nan ∨ first = some 0 ∨ second = some 0 then nan
      else infinity negative

/-- `left / right`. -/
def div (left right : Double) : Except NumberError Double :=
  let negative := left.negative != right.negative
  match left.value.toRat?, right.value.toRat? with
  | _, some 0 => .error .zeroDivisionError
  | some first, some second => .ok (settled negative (first / second))
  | none, some _ => .ok (if left.value = .nan then nan else infinity negative)
  | some _, none => .ok (if right.value = .nan then nan else zero negative)
  | none, none => .ok nan

/-- `left <= right`. -/
def le (left right : Double) : Bool :=
  decide (left.value ≠ .nan) && decide (right.value ≠ .nan) && !right.lt left

/-- `max(left, right)`: the first unless the second is greater. -/
def maxOf (left right : Double) : Double := if left.lt right then right else left

/-- `min(left, right)`: the first unless the second is less. -/
def minOf (left right : Double) : Double := if right.lt left then right else left

/-- `float(value)` of an int. -/
def ofInt (value : Int) : Except NumberError Double :=
  if Overflows value then .error .overflowError else .ok (nearest value)

/-- `dividend / divisor` of two ints. -/
def ratio (dividend divisor : Int) : Except NumberError Double :=
  if divisor = 0 then .error .zeroDivisionError
  else if Overflows (dividend / divisor) then .error .overflowError
  else .ok (settled (decide (dividend < 0) != decide (divisor < 0)) (dividend / divisor))

/-- `round(number)`. -/
def roundInt (number : Double) : Except NumberError Int :=
  match number.value with
  | .fin value => .ok (even value)
  | .negZero => .ok 0
  | .nan => .error .valueError
  | _ => .error .overflowError

def placesText (places units : Nat) : String :=
  let digits := Nat.toDigits 10 (units % 10 ^ places)
  String.ofList (Nat.toDigits 10 (units / 10 ^ places)) ++
    String.ofList ('.' :: List.replicate (places - digits.length) '0' ++ digits)

/-- The text of the format `.nf`, without a sign. -/
def magnitudeText (places : Nat) (number : Double) : String :=
  match number.value with
  | .fin value => placesText places (even (|value| * 10 ^ places)).toNat
  | .negZero => placesText places 0
  | .nan => "nan"
  | _ => "inf"

/-- The format `.nf`. -/
def fixedText (places : Nat) (number : Double) : String :=
  (if number.negative then "-" else "") ++ number.magnitudeText places

/-- The format `+.n%`. -/
def percentText (places : Nat) (number : Double) : String :=
  let percent := number.mul (nearest 100)
  (if percent.negative then "-" else "+") ++ percent.magnitudeText places ++ "%"

end Double

example : (Double.nearest (13 / 200)).percentText 1 = "+6.5%" := by decide +kernel

example : (Double.nearest (1 / 16)).fixedText 4 = "0.0625" := by decide +kernel

end Python
end PhysicalHarness
