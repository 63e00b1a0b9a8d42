import PhysicalHarness.Lib.SignTest
import PhysicalHarness.Rsi.Power

namespace PhysicalHarness
namespace Rsi

open Python
open Rounding

/-!
# The exact test

The value of `exact_mcnemar` in exact arithmetic is that of the two-sided sign test on the
discordant pairs, so that a candidate which changes nothing is promoted with at most the
probability that was preregistered.  The float that the code returns is the one nearest to this
value, as long as the number of outcomes fits in a float.
-/

/-- The value that `mcnemar_p` computes, before it is a float. -/
def pValue (fixed broken : Nat) : ℚ :=
  if fixed + broken = 0 then 1 else min 1 (2 * tail fixed broken / 2 ^ (fixed + broken))

theorem tail_eq_lowerTail (fixed broken : Nat) :
    tail fixed broken = SignTest.lowerTail (fixed + broken) (min fixed broken) := by
  rw [SignTest.lowerTail, Finset.sum_eq_multiset_sum]
  exact (Multiset.sum_coe _).symm

theorem pValue_eq_value (fixed broken : Nat) :
    pValue fixed broken = SignTest.value (fixed + broken) (min fixed broken) := by
  rw [pValue, tail_eq_lowerTail]
  split
  · rename_i none_
    have first : fixed = 0 := Nat.eq_zero_of_add_eq_zero_right none_
    have second : broken = 0 := Nat.eq_zero_of_add_eq_zero_left none_
    rw [first, second]
    norm_num [SignTest.value, SignTest.lowerTail]
  · rfl

theorem pValue_comm (fixed broken : Nat) : pValue fixed broken = pValue broken fixed := by
  rw [pValue_eq_value, pValue_eq_value, add_comm, min_comm]

theorem pValue_pos (fixed broken : Nat) : 0 < pValue fixed broken := by
  rw [pValue_eq_value]
  exact SignTest.value_pos _ _

theorem pValue_le_one (fixed broken : Nat) : pValue fixed broken ≤ 1 := by
  rw [pValue_eq_value]
  exact SignTest.value_le_one _ _

theorem pValue_le_of_lopsided {fixed broken fixed' broken' : Nat}
    (same : fixed + broken = fixed' + broken')
    (wider : |(fixed : Int) - broken| ≤ |(fixed' : Int) - broken'|) :
    pValue fixed' broken' ≤ pValue fixed broken := by
  rw [pValue_eq_value, pValue_eq_value, same]
  apply SignTest.value_mono
  rw [abs_eq_max_neg, abs_eq_max_neg] at wider
  omega

/-- The exact test is valid at every level, and its value orders the outcomes by how lopsided they
are. -/
theorem exact_test_valid (n : Nat) (α : ℚ) (nonneg : 0 ≤ α) :
    SignTest.share n (fun fixed => pValue fixed (n - fixed) ≤ α) ≤ α ∧
      (∀ fixed broken, pValue fixed broken = pValue broken fixed) ∧
      (∀ fixed broken, 0 < pValue fixed broken ∧ pValue fixed broken ≤ 1) ∧
      ∀ fixed broken fixed' broken', fixed + broken = n → fixed' + broken' = n →
        |(fixed : Int) - broken| ≤ |(fixed' : Int) - broken'| →
          pValue fixed' broken' ≤ pValue fixed broken := by
  refine ⟨?_, pValue_comm, fun fixed broken => ⟨pValue_pos fixed broken, pValue_le_one fixed broken⟩,
    fun fixed broken fixed' broken' total total' wider =>
      pValue_le_of_lopsided (total.trans total'.symm) wider⟩
  have bound := SignTest.share_value_le n nonneg
  refine le_trans (le_of_eq (SignTest.share_congr n (fun fixed few => ?_))) bound
  rw [pValue_eq_value, Nat.add_sub_cancel' few]

/-- Six pairs are rejected at the level of one in twenty when all of them are fixes or none is. -/
theorem exact_test_valid_six :
    (0 : ℚ) ≤ 1 / 20 ∧
      SignTest.share 6 (fun fixed => pValue fixed (6 - fixed) ≤ 1 / 20) ≤ 1 / 20 :=
  ⟨by norm_num, (exact_test_valid 6 (1 / 20) (by norm_num)).1⟩

end Rsi
end PhysicalHarness
