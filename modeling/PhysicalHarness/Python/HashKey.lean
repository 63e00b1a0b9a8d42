import PhysicalHarness.Python.Value

namespace PhysicalHarness
namespace Python

/-!
# Keys of dicts

A dict takes numbers, strings and `None` as keys.  Numbers of different types are one key where
they are equal.
-/

inductive HashKey where
  | none
  | number (value : PyFloat)
  | text (text : String)
  | unhashable
  deriving DecidableEq

def PyFloat.unsigned : PyFloat → PyFloat
  | negZero => fin 0
  | value => value

def Json.hashKey : Json → HashKey
  | .null => .none
  | .bool value => .number (.fin (if value then 1 else 0))
  | .int value => .number (.fin value)
  | .float value => .number value.unsigned
  | .str text => .text text
  | .arr _ => .unhashable
  | .obj _ => .unhashable

theorem PyFloat.unsigned_eq_iff (value other : PyFloat) :
    value.unsigned = other.unsigned ↔ value.same other = true := by
  cases value <;> cases other <;> simp [PyFloat.unsigned, PyFloat.same]

theorem PyFloat.unsigned_eq_fin_iff (value : PyFloat) (number : ℚ) :
    value.unsigned = .fin number ↔ value.toRat? = some number := by
  cases value <;> simp [PyFloat.unsigned, PyFloat.toRat?]

theorem PyFloat.number_eq_iff (value : PyFloat) (number : ℚ) :
    HashKey.number (.fin number) = .number value.unsigned ↔ value.toRat? = some number := by
  rw [HashKey.number.injEq, eq_comm]
  exact PyFloat.unsigned_eq_fin_iff value number

theorem Json.hashKey_eq_iff {value other : Json} (hashable : value.hashable = true)
    (also : other.hashable = true) : value.hashKey = other.hashKey ↔ value.eq other = true := by
  have float_ : ∀ (float : PyFloat) (number : ℚ), (HashKey.number float.unsigned = .number (.fin number)) =
      (float.toRat? = some number) := fun float number =>
    propext (eq_comm.trans (float.number_eq_iff number))
  cases value with
  | arr items => cases hashable
  | obj fields => cases hashable
  | null => cases other <;> simp_all [hashKey, eq, sameScalar, toRat?, Json.hashable]
  | str text => cases other <;> simp_all [hashKey, eq, sameScalar, toRat?, Json.hashable]
  | bool flag =>
      cases other with
      | float number =>
          rw [hashKey, hashKey, PyFloat.number_eq_iff]
          simp only [eq, sameScalar, toRat?]
          cases number.toRat? <;> simp [eq_comm]
      | _ => simp_all [hashKey, eq, sameScalar, toRat?, Json.hashable]
  | int whole =>
      cases other with
      | float number =>
          rw [hashKey, hashKey, PyFloat.number_eq_iff]
          simp only [eq, sameScalar, toRat?]
          cases number.toRat? <;> simp [eq_comm]
      | _ => simp_all [hashKey, eq, sameScalar, toRat?, Json.hashable]
  | float number =>
      cases other with
      | float again => simp [hashKey, eq, sameScalar, PyFloat.unsigned_eq_iff]
      | bool flag =>
          rw [hashKey, hashKey, float_]
          simp only [eq, sameScalar, toRat?]
          cases number.toRat? <;> simp
      | int whole =>
          rw [hashKey, hashKey, float_]
          simp only [eq, sameScalar, toRat?]
          cases number.toRat? <;> simp
      | _ => simp_all [hashKey, eq, sameScalar, toRat?, Json.hashable]

end Python
end PhysicalHarness
