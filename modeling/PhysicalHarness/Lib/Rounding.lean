import Mathlib.Algebra.Order.Round
import Mathlib.Data.Int.Log
import Mathlib.Data.Rat.Floor
import Mathlib.Tactic.Linarith
import Mathlib.Tactic.FieldSimp
import Mathlib.Tactic.Ring

/-!
# Rounding to the nearest

A rational is rounded to the nearest integer with ties to even, from there to
the nearest multiple of a unit, and to the nearest number with a significand of
bounded length.  The main result is about the two together: decimal rounding
whose result is stored in binary changes nothing when it is repeated, although
hardly any decimal is a binary number.
-/

namespace Rounding

/-! ## Integers -/

/-- The nearest integer; of two equally near ones, the even one. -/
def even (value : ℚ) : ℤ :=
  if Int.fract value < 1 / 2 then ⌊value⌋
  else if 1 / 2 < Int.fract value then ⌊value⌋ + 1
  else if Even ⌊value⌋ then ⌊value⌋ else ⌊value⌋ + 1

theorem abs_even_sub_le (value : ℚ) : |(even value : ℚ) - value| ≤ 1 / 2 := by
  have whole : (⌊value⌋ : ℚ) + Int.fract value = value := Int.floor_add_fract value
  have low : 0 ≤ Int.fract value := Int.fract_nonneg value
  have high : Int.fract value < 1 := Int.fract_lt_one value
  unfold even
  rw [abs_le]
  split
  · constructor <;> linarith
  · split
    · push_cast
      constructor <;> linarith
    · split
      · constructor <;> linarith
      · push_cast
        constructor <;> linarith

variable {value : ℚ}

theorem even_eq_of_near {whole : ℤ} (near : |(whole : ℚ) - value| < 1 / 2) :
    even value = whole := by
  have close := abs_even_sub_le value
  rw [abs_le] at close
  rw [abs_lt] at near
  have above : ((even value - whole : ℤ) : ℚ) < ((1 : ℤ) : ℚ) := by
    push_cast
    linarith
  have below : ((-1 : ℤ) : ℚ) < ((even value - whole : ℤ) : ℚ) := by
    push_cast
    linarith
  have above : even value - whole < 1 := Int.cast_lt.mp above
  have below : -1 < even value - whole := Int.cast_lt.mp below
  omega

theorem abs_even_sub_le_abs (value : ℚ) (whole : ℤ) :
    |(even value : ℚ) - value| ≤ |(whole : ℚ) - value| := by
  rcases lt_or_ge |(whole : ℚ) - value| (1 / 2) with near | far
  · rw [even_eq_of_near near]
  · exact le_trans (abs_even_sub_le value) far

@[simp] theorem even_intCast (whole : ℤ) : even (whole : ℚ) = whole :=
  even_eq_of_near (by norm_num)

theorem isEven_even_of_tie (tie : |(even value : ℚ) - value| = 1 / 2) :
    Even (even value) := by
  have whole : (⌊value⌋ : ℚ) + Int.fract value = value := Int.floor_add_fract value
  have low : 0 ≤ Int.fract value := Int.fract_nonneg value
  have high : Int.fract value < 1 := Int.fract_lt_one value
  unfold even at tie ⊢
  split at tie
  · rename_i small
    have gap : (⌊value⌋ : ℚ) - value = -Int.fract value := by linarith
    rw [gap, abs_neg, abs_of_nonneg low] at tie
    linarith
  · split at tie
    · rename_i large
      have gap : ((⌊value⌋ + 1 : ℤ) : ℚ) - value = 1 - Int.fract value := by
        push_cast
        linarith
      rw [gap, abs_of_pos (by linarith)] at tie
      linarith
    · rename_i notSmall notLarge
      rw [if_neg notSmall, if_neg notLarge]
      split
      · assumption
      · rename_i odd
        exact Int.even_add_one.mpr odd

theorem even_eq_of_tie {whole : ℤ} (tie : |(whole : ℚ) - value| = 1 / 2) (isEven : Even whole) :
    even value = whole := by
  by_contra other
  have close := abs_even_sub_le value
  have apart : 1 ≤ |even value - whole| := Int.one_le_abs (sub_ne_zero.mpr other)
  have within : |(even value : ℚ) - whole| ≤ |(even value : ℚ) - value| + |(whole : ℚ) - value| := by
    rw [abs_sub_comm (whole : ℚ) value]
    exact abs_sub_le _ _ _
  have apartRat : (1 : ℚ) ≤ |(even value : ℚ) - whole| := by
    exact_mod_cast apart
  have wasTie : |(even value : ℚ) - value| = 1 / 2 := by linarith
  have bound : |(even value : ℚ) - whole| ≤ 1 := by linarith
  have one : |even value - whole| = 1 := le_antisymm (by exact_mod_cast bound) apart
  have evenGap : Even |even value - whole| :=
    even_abs.mpr ((isEven_even_of_tie wasTie).sub isEven)
  rw [one] at evenGap
  exact absurd evenGap (by decide)

theorem even_nonneg (nonneg : 0 ≤ value) : 0 ≤ even value := by
  have close := abs_le.mp (abs_even_sub_le value)
  have above : ((-1 : ℤ) : ℚ) < even value := by
    push_cast
    linarith
  have above := Int.cast_lt.mp above
  omega

theorem even_nonpos (nonpos : value ≤ 0) : even value ≤ 0 := by
  have close := abs_le.mp (abs_even_sub_le value)
  have below : (even value : ℚ) < ((1 : ℤ) : ℚ) := by
    push_cast
    linarith
  have below := Int.cast_lt.mp below
  omega

theorem even_eq_zero_iff (nonneg : 0 ≤ value) : even value = 0 ↔ value ≤ 1 / 2 := by
  have distance : |((0 : ℤ) : ℚ) - value| = value := by
    rw [Int.cast_zero, zero_sub, abs_neg, abs_of_nonneg nonneg]
  constructor
  · intro zero
    have close := abs_even_sub_le value
    rw [zero, distance] at close
    exact close
  · intro small
    rcases lt_or_eq_of_le small with near | tie
    · exact even_eq_of_near (by rw [distance]; exact near)
    · exact even_eq_of_tie (by rw [distance]; exact tie) (by decide)

/-- The nearest multiple of `unit`. -/
def toUnit (unit value : ℚ) : ℚ := even (value / unit) * unit

/-- Rounding to a unit with the result stored as the nearest number of some set
is settled after one round: repeating it returns the same stored number. -/
theorem toUnit_stored {unit : ℚ} (positive : 0 < unit) {store : ℚ → ℚ}
    (nearest : |store (toUnit unit value) - toUnit unit value| ≤ |value - toUnit unit value|) :
    toUnit unit (store (toUnit unit value)) = toUnit unit value := by
  unfold toUnit at nearest ⊢
  generalize chosen : even (value / unit) = whole at nearest ⊢
  have scaled : ∀ other : ℚ, |(whole : ℚ) - other / unit| = |other - whole * unit| / unit := by
    intro other
    have back : (whole : ℚ) - other / unit = -((other - whole * unit) / unit) := by
      field_simp
      ring
    rw [back, abs_neg, abs_div, abs_of_pos positive]
  have first : |(whole : ℚ) - value / unit| ≤ 1 / 2 := by
    rw [← chosen]
    exact abs_even_sub_le _
  have second : |(whole : ℚ) - store (whole * unit) / unit| ≤ |(whole : ℚ) - value / unit| := by
    rw [scaled, scaled]
    exact div_le_div_of_nonneg_right nearest positive.le
  congr 2
  rcases lt_or_eq_of_le (le_trans second first) with near | tie
  · exact even_eq_of_near near
  · have wasTie : |(even (value / unit) : ℚ) - value / unit| = 1 / 2 := by
      rw [chosen]
      exact le_antisymm first (tie ▸ second)
    exact even_eq_of_tie tie (chosen ▸ isEven_even_of_tie wasTie)

/-! ## Numbers with a short significand -/

/-- The exponent of the last place of numbers as large as `value`, when the
significand has `bits + 1` bits and no exponent is below `least`. -/
def lastPlace (bits : ℕ) (least : ℤ) (value : ℚ) : ℤ := max (Int.log 2 |value| - bits) least

def binary (bits : ℕ) (least : ℤ) (value : ℚ) : ℚ :=
  toUnit ((2 : ℚ) ^ lastPlace bits least value) value

def Short (bits : ℕ) (least : ℤ) (value : ℚ) : Prop := binary bits least value = value

section

variable {bits : ℕ} {least : ℤ}

instance : DecidablePred (Short bits least) := fun value =>
  inferInstanceAs (Decidable (binary bits least value = value))

theorem abs_toUnit_sub_le {unit : ℚ} (positive : 0 < unit) (value : ℚ) (whole : ℤ) :
    |toUnit unit value - value| ≤ |(whole : ℚ) * unit - value| := by
  have scaled : ∀ other : ℤ, |(other : ℚ) * unit - value| = |(other : ℚ) - value / unit| * unit := by
    intro other
    rw [← abs_of_pos positive, ← abs_mul, abs_of_pos positive]
    congr 1
    field_simp
  rw [toUnit, scaled, scaled]
  exact mul_le_mul_of_nonneg_right (abs_even_sub_le_abs _ _) positive.le

theorem exists_multiple {low high : ℤ} (le : low ≤ high) (whole : ℤ) :
    ∃ other : ℤ, (other : ℚ) * 2 ^ low = whole * 2 ^ high := by
  refine ⟨whole * 2 ^ (high - low).toNat, ?_⟩
  have split : (2 : ℚ) ^ high = 2 ^ (high - low).toNat * 2 ^ low := by
    rw [← zpow_natCast, ← zpow_add₀ (by norm_num), Int.toNat_of_nonneg (by omega)]
    congr 1
    omega
  rw [split]
  push_cast
  ring

variable {value short : ℚ}

/-- A power of two between zero and the value, on the value's side of a smaller
number, is nearer to the value than that number. -/
theorem abs_sub_le_of_between {small power : ℚ} (above : |small| ≤ power)
    (below : power ≤ |value|) :
    ∃ sign : ℤ, |(sign : ℚ) * power - value| ≤ |small - value| := by
  have limits := abs_le.mp above
  rcases le_total 0 value with positive | negative
  · rw [abs_of_nonneg positive] at below
    refine ⟨1, ?_⟩
    rw [Int.cast_one, one_mul, abs_of_nonpos (by linarith), abs_of_nonpos (by linarith)]
    linarith
  · rw [abs_of_nonpos negative] at below
    refine ⟨-1, ?_⟩
    rw [Int.cast_neg, Int.cast_one, neg_one_mul, abs_of_nonneg (by linarith),
      abs_of_nonneg (by linarith)]
    linarith

theorem abs_binary_sub_le (isShort : Short bits least short) (value : ℚ) :
    |binary bits least value - value| ≤ |short - value| := by
  have positive : ∀ place : ℤ, (0 : ℚ) < (2 : ℚ) ^ place := fun place =>
    zpow_pos (by norm_num) place
  have multiple : ∃ whole : ℤ, short = whole * 2 ^ lastPlace bits least short :=
    ⟨_, isShort.symm⟩
  rcases multiple with ⟨whole, parts⟩
  rcases le_or_gt (lastPlace bits least value) (lastPlace bits least short) with le | lt
  · rcases exists_multiple le whole with ⟨other, same⟩
    rw [parts, ← same]
    exact abs_toUnit_sub_le (positive _) value other
  · by_cases zero : value = 0
    · have still : binary bits least value = 0 := by
        rw [zero, binary, toUnit, zero_div]
        have none_ : even 0 = 0 := by exact_mod_cast even_intCast 0
        rw [none_, Int.cast_zero, zero_mul]
      rw [still, zero, sub_zero, abs_zero]
      exact abs_nonneg _
    · have place : lastPlace bits least value = Int.log 2 |value| - bits := by
        unfold lastPlace at lt ⊢
        omega
      have smaller : Int.log 2 |short| + 1 ≤ Int.log 2 |value| := by
        unfold lastPlace at lt
        omega
      have above : |short| ≤ (2 : ℚ) ^ Int.log 2 |value| := by
        have next : |short| < (2 : ℚ) ^ (Int.log 2 |short| + 1) := by
          exact_mod_cast Int.lt_zpow_succ_log_self (by norm_num) |short|
        exact le_trans next.le (zpow_le_zpow_right₀ (by norm_num) smaller)
      have below : (2 : ℚ) ^ Int.log 2 |value| ≤ |value| := by
        exact_mod_cast Int.zpow_log_le_self (by norm_num) (abs_pos.mpr zero)
      rcases abs_sub_le_of_between above below with ⟨sign, nearer⟩
      have low : lastPlace bits least value ≤ Int.log 2 |value| := by
        rw [place]
        omega
      rcases exists_multiple low sign with ⟨other, same⟩
      rw [← same] at nearer
      exact le_trans (abs_toUnit_sub_le (positive _) value other) nearer

theorem le_binary (isShort : Short bits least short) (below : short ≤ value) :
    short ≤ binary bits least value := by
  have close := abs_binary_sub_le isShort value
  rw [abs_sub_comm short value, abs_of_nonneg (sub_nonneg.mpr below), abs_le] at close
  linarith

theorem binary_nonpos (nonpos : value ≤ 0) : binary bits least value ≤ 0 := by
  have positive : (0 : ℚ) < (2 : ℚ) ^ lastPlace bits least value := zpow_pos (by norm_num) _
  have whole : even (value / (2 : ℚ) ^ lastPlace bits least value) ≤ 0 :=
    even_nonpos (div_nonpos_of_nonpos_of_nonneg nonpos positive.le)
  exact mul_nonpos_of_nonpos_of_nonneg (by exact_mod_cast whole) positive.le

theorem abs_even_le {bound : ℤ} (within : |value| ≤ bound) : |even value| ≤ bound := by
  have limits := abs_le.mp within
  have close := abs_le.mp (abs_even_sub_le value)
  rw [abs_le]
  constructor
  · have below : ((-bound - 1 : ℤ) : ℚ) < (even value : ℚ) := by
      push_cast
      linarith
    have below : -bound - 1 < even value := Int.cast_lt.mp below
    omega
  · have above : (even value : ℚ) < ((bound + 1 : ℤ) : ℚ) := by
      push_cast
      linarith
    have above : even value < bound + 1 := Int.cast_lt.mp above
    omega

theorem toUnit_of_multiple {unit : ℚ} (positive : 0 < unit) (whole : ℤ) :
    toUnit unit (whole * unit) = whole * unit := by
  rw [toUnit, mul_div_assoc, div_self positive.ne', mul_one, even_intCast]

theorem lt_two_zpow_lastPlace (value : ℚ) :
    |value| < (2 : ℚ) ^ (lastPlace bits least value + (bits + 1 : ℕ)) := by
  have next : |value| < (2 : ℚ) ^ (Int.log 2 |value| + 1) := by
    exact_mod_cast Int.lt_zpow_succ_log_self (by norm_num) |value|
  refine lt_of_lt_of_le next (zpow_le_zpow_right₀ (by norm_num) ?_)
  have low : Int.log 2 |value| - bits ≤ lastPlace bits least value := le_max_left _ _
  push_cast
  omega

theorem short_of_multiple {whole place : ℤ} (low : least ≤ place)
    (factor : |whole| ≤ 2 ^ (bits + 1)) : Short bits least (whole * (2 : ℚ) ^ place) := by
  have positive : ∀ power : ℤ, (0 : ℚ) < (2 : ℚ) ^ power := fun power =>
    zpow_pos (by norm_num) power
  have exact_ : ∀ power : ℤ, (∃ other : ℤ, (other : ℚ) * 2 ^ power = whole * 2 ^ place) →
      toUnit ((2 : ℚ) ^ power) (whole * 2 ^ place) = whole * 2 ^ place := by
    rintro power ⟨other, same⟩
    rw [← same, toUnit_of_multiple (positive power)]
  refine exact_ _ ?_
  rcases le_or_gt (lastPlace bits least (whole * (2 : ℚ) ^ place)) place with le | lt
  · exact exists_multiple le whole
  · -- the factor is the power of two that is one bit too long
    by_cases zero : whole = 0
    · exact ⟨0, by rw [zero, Int.cast_zero, zero_mul, zero_mul]⟩
    · have nonzero : 0 < |(whole : ℚ) * (2 : ℚ) ^ place| :=
        abs_pos.mpr (mul_ne_zero (Int.cast_ne_zero.mpr zero) (positive place).ne')
      have size : |(whole : ℚ) * (2 : ℚ) ^ place| = |whole| * (2 : ℚ) ^ place := by
        rw [abs_mul, abs_of_pos (positive place), Int.cast_abs]
      have reached : (2 : ℚ) ^ Int.log 2 |(whole : ℚ) * (2 : ℚ) ^ place| ≤
          |(whole : ℚ) * (2 : ℚ) ^ place| := by
        exact_mod_cast Int.zpow_log_le_self (by norm_num) nonzero
      have high : place + (bits + 1 : ℕ) ≤ Int.log 2 |(whole : ℚ) * (2 : ℚ) ^ place| := by
        unfold lastPlace at lt
        push_cast
        omega
      have long : (2 : ℚ) ^ (place + (bits + 1 : ℕ)) ≤ |whole| * (2 : ℚ) ^ place := by
        rw [← size]
        exact le_trans (zpow_le_zpow_right₀ (by norm_num) high) reached
      rw [zpow_add₀ (by norm_num), mul_comm, zpow_natCast] at long
      have power : |whole| = 2 ^ (bits + 1) := by
        have least_ : (2 : ℚ) ^ (bits + 1) ≤ |whole| := le_of_mul_le_mul_right long (positive place)
        exact le_antisymm factor (by exact_mod_cast least_)
      have top : |(whole : ℚ) * (2 : ℚ) ^ place| = (2 : ℚ) ^ (place + (bits + 1 : ℕ)) := by
        rw [size, power, zpow_add₀ (by norm_num), mul_comm, zpow_natCast]
        push_cast
        ring
      have last : lastPlace bits least (whole * (2 : ℚ) ^ place) ≤ place + (bits + 1 : ℕ) := by
        have log : Int.log 2 |(whole : ℚ) * (2 : ℚ) ^ place| = place + (bits + 1 : ℕ) := by
          rw [top]
          exact_mod_cast Int.log_zpow (R := ℚ) (b := 2) (by norm_num) (place + (bits + 1 : ℕ))
        rw [lastPlace, log]
        push_cast
        omega
      have signed : ∃ sign : ℤ, (whole : ℚ) * (2 : ℚ) ^ place =
          sign * (2 : ℚ) ^ (place + (bits + 1 : ℕ)) := by
        rw [zpow_add₀ (by norm_num), zpow_natCast]
        rcases (abs_eq (by positivity)).mp power with pos | neg
        · exact ⟨1, by rw [pos]; push_cast; ring⟩
        · exact ⟨-1, by rw [neg]; push_cast; ring⟩
      rcases signed with ⟨sign, same⟩
      rw [same] at last ⊢
      exact exists_multiple last sign

theorem short_binary (value : ℚ) : Short bits least (binary bits least value) := by
  have positive : (0 : ℚ) < (2 : ℚ) ^ lastPlace bits least value := zpow_pos (by norm_num) _
  refine short_of_multiple (le_max_right _ _) (abs_even_le ?_)
  rw [abs_div, abs_of_pos positive, div_le_iff₀ positive]
  have bound : |value| ≤ (2 : ℚ) ^ (lastPlace bits least value + (bits + 1 : ℕ)) :=
    (lt_two_zpow_lastPlace value).le
  rw [zpow_add₀ (by norm_num), mul_comm] at bound
  push_cast at bound ⊢
  exact_mod_cast bound

end

end Rounding
