import Mathlib.Algebra.BigOperators.NatAntidiagonal
import PhysicalHarness.Rsi.ExactTest

namespace PhysicalHarness
namespace Rsi

/-!
# The power of a size

In exact rationals one more pair raises the power of the exact test only where it lets the test
reject on a smaller side on which it did not reject before.  Between two such sizes the power falls,
so that a generation which yields more pairs than were planned may have less power than was planned.
-/

/-- One term of `power_at`, in exact rationals. -/
def exactTerm (discordant : Nat) (fixShare alpha total : ℚ) (fixed : Nat) : ℚ :=
  let observed := discordant.choose fixed * fixShare ^ fixed * (1 - fixShare) ^ (discordant - fixed)
  if pValue fixed (discordant - fixed) < alpha then total + observed else total

/-- `power_at`, in exact rationals. -/
def exactPower (discordant : Nat) (fixShare alpha : ℚ) : ℚ :=
  (List.range (discordant + 1)).foldl (exactTerm discordant fixShare alpha) 0

/-- `discordant_needed`, in exact rationals. -/
def exactNeeded (fixShare alpha power : ℚ) (cap : Nat) : Nat :=
  ((range 2 (cap + 1)).find? (fun discordant => power ≤ exactPower discordant fixShare alpha)).getD cap

/-- One more pair lets the test reject on a smaller side on which it did not reject. -/
def Rises (alpha : ℚ) (discordant : Nat) : Prop :=
  ∃ side, 2 * side ≤ discordant + 1 ∧ pValue side (discordant + 1 - side) < alpha ∧
    alpha ≤ pValue side (discordant - side)

section

variable {fixShare alpha power : ℚ} {discordant cap : Nat}

/-- The probability of one order of the fixes and breaks, where the test rejects. -/
def weight (fixShare alpha : ℚ) (fixed broken : Nat) : ℚ :=
  if pValue fixed broken < alpha then fixShare ^ fixed * (1 - fixShare) ^ broken else 0

theorem exactTerm_eq (total : ℚ) (fixed : Nat) :
    exactTerm discordant fixShare alpha total fixed =
      total + discordant.choose fixed * weight fixShare alpha fixed (discordant - fixed) := by
  rw [exactTerm, weight]
  split
  · rw [mul_assoc]
  · rw [mul_zero, add_zero]

theorem exactPower_eq_sum : exactPower discordant fixShare alpha =
    ∑ pair ∈ Finset.HasAntidiagonal.antidiagonal discordant,
      discordant.choose pair.1 * weight fixShare alpha pair.1 pair.2 := by
  have folds : ∀ (sizes : List Nat) (total : ℚ),
      sizes.foldl (exactTerm discordant fixShare alpha) total = total + (sizes.map (fun fixed =>
        (discordant.choose fixed : ℚ) * weight fixShare alpha fixed (discordant - fixed))).sum := by
    intro sizes
    induction sizes with
    | nil => exact fun total => (add_zero total).symm
    | cons fixed rest ih =>
        intro total
        rw [List.foldl_cons, ih, exactTerm_eq, List.map_cons, List.sum_cons, add_assoc]
  rw [exactPower, folds, zero_add, Finset.Nat.sum_antidiagonal_eq_sum_range_succ_mk,
    Finset.sum_eq_multiset_sum]
  exact (Multiset.sum_coe _).symm

theorem rejects_of_more {fixed broken : Nat} (stays : ¬ Rises alpha (fixed + broken))
    (rejects : pValue fixed (broken + 1) < alpha) : pValue fixed broken < alpha := by
  rcases Nat.le_total fixed (broken + 1) with fewer | more
  · by_contra keeps
    apply stays
    refine ⟨fixed, by omega, ?_, ?_⟩
    · rw [show fixed + broken + 1 - fixed = broken + 1 by omega]
      exact rejects
    · rw [Nat.add_sub_cancel_left]
      exact not_lt.mp keeps
  · by_contra keeps
    apply stays
    refine ⟨broken + 1, by omega, ?_, ?_⟩
    · rw [show fixed + broken + 1 - (broken + 1) = fixed by omega, pValue_comm]
      exact rejects
    · apply le_trans (not_lt.mp keeps)
      apply pValue_le_of_lopsided
      · omega
      · rw [abs_eq_max_neg, abs_eq_max_neg]
        omega

theorem weight_succ_le {fixed broken : Nat} (least : 0 ≤ fixShare) (most : fixShare ≤ 1)
    (stays : ¬ Rises alpha (fixed + broken)) :
    weight fixShare alpha fixed (broken + 1) + weight fixShare alpha (fixed + 1) broken ≤
      weight fixShare alpha fixed broken := by
  have other : 0 ≤ 1 - fixShare := sub_nonneg.mpr most
  have here : 0 ≤ fixShare ^ fixed * (1 - fixShare) ^ broken := by positivity
  have breaks : weight fixShare alpha fixed (broken + 1) ≤
      (1 - fixShare) * weight fixShare alpha fixed broken := by
    rw [weight, weight]
    split
    · rename_i rejects
      rw [if_pos (rejects_of_more stays rejects)]
      exact le_of_eq (by ring)
    · split <;> positivity
  have fixes : weight fixShare alpha (fixed + 1) broken ≤
      fixShare * weight fixShare alpha fixed broken := by
    rw [weight, weight]
    split
    · rename_i rejects
      rw [pValue_comm] at rejects
      rw [Nat.add_comm] at stays
      rw [if_pos (by
        rw [pValue_comm]
        exact rejects_of_more stays rejects)]
      exact le_of_eq (by ring)
    · split <;> positivity
  linarith

theorem exactPower_succ_le (least : 0 ≤ fixShare) (most : fixShare ≤ 1)
    (stays : ¬ Rises alpha discordant) :
    exactPower (discordant + 1) fixShare alpha ≤ exactPower discordant fixShare alpha := by
  rw [exactPower_eq_sum, exactPower_eq_sum, Finset.sum_antidiagonal_choose_succ_mul,
    ← Finset.sum_add_distrib]
  apply Finset.sum_le_sum
  intro pair mem
  have pairs : pair.1 + pair.2 = discordant := Finset.HasAntidiagonal.mem_antidiagonal.mp mem
  have ways : discordant.choose pair.2 = discordant.choose pair.1 := by
    rw [← pairs, Nat.choose_symm_add]
  rw [ways, ← mul_add]
  apply mul_le_mul_of_nonneg_left
  · rw [← pairs] at stays
    exact weight_succ_le least most stays
  · exact Nat.cast_nonneg _

theorem powered_of_peaks (least : 0 ≤ fixShare) (most : fixShare ≤ 1) {size : Nat}
    (within : size ≤ cap)
    (peaks : ∀ more, size ≤ more → more ≤ cap → more = cap ∨ Rises alpha more →
      power ≤ exactPower more fixShare alpha) : power ≤ exactPower size fixShare alpha := by
  induction within using Nat.decreasingInduction with
  | self => exact peaks cap le_rfl le_rfl (.inl rfl)
  | of_succ size inside ih =>
      by_cases rises : Rises alpha size
      · exact peaks size le_rfl inside.le (.inr rises)
      · have next := ih (fun more after => peaks more (Nat.le_of_succ_le after))
        exact le_trans next (exactPower_succ_le least most rises)

theorem exactNeeded_eq {size : Nat} (needed : exactNeeded fixShare alpha power cap = size)
    (below : size < cap) : 2 ≤ size ∧ power ≤ exactPower size fixShare alpha ∧
      ∀ fewer, 2 ≤ fewer → fewer < size → exactPower fewer fixShare alpha < power := by
  rw [exactNeeded, range, List.find?_map] at needed
  cases found : (List.range (cap + 1 - 2)).find?
      ((fun discordant => decide (power ≤ exactPower discordant fixShare alpha)) ∘ (2 + ·)) with
  | none =>
      rw [found] at needed
      exact absurd needed below.ne'
  | some offset =>
      rw [found] at needed
      have same : 2 + offset = size := needed
      rw [← same]
      rcases List.find?_range_eq_some.mp found with ⟨reaches, _, least⟩
      refine ⟨Nat.le_add_right 2 offset, of_decide_eq_true reaches, ?_⟩
      intro fewer first before
      have misses := least (fewer - 2) (by omega)
      rw [Bool.not_eq_true', Function.comp_apply, decide_eq_false_iff_not,
        Nat.add_sub_cancel' first] at misses
      exact not_le.mp misses

/-- The planned size is the least that reaches the power.  All sizes from it on reach it if those
do that come right before the test rejects on a new side, and the cap. -/
theorem planned_powered_iff (least : 1 / 2 < fixShare) (most : fixShare < 1) {size : Nat}
    (needed : exactNeeded fixShare alpha power cap = size) (below : size < cap) :
    2 ≤ size ∧ power ≤ exactPower size fixShare alpha ∧
      (∀ fewer, 2 ≤ fewer → fewer < size → exactPower fewer fixShare alpha < power) ∧
      ((∀ more, size ≤ more → more ≤ cap → power ≤ exactPower more fixShare alpha) ↔
        ∀ more, size ≤ more → more ≤ cap → more = cap ∨ Rises alpha more →
          power ≤ exactPower more fixShare alpha) := by
  rcases exactNeeded_eq needed below with ⟨two, reaches, minimal⟩
  refine ⟨two, reaches, minimal, ?_, ?_⟩
  · intro all more after within _
    exact all more after within
  · intro peaks more after within
    have some_ : (0 : ℚ) ≤ fixShare := by linarith
    exact powered_of_peaks some_ most.le within
      (fun later next => peaks later (after.trans next))

end

/-- With the default arguments twenty pairs are planned; twenty one have less power. -/
theorem not_powered_of_needed : exactNeeded (4 / 5) (1 / 20) (4 / 5) 400 = 20 ∧
    ¬ ∀ more, 20 ≤ more → more ≤ 400 → 4 / 5 ≤ exactPower more (4 / 5) (1 / 20) := by
  refine ⟨by decide +kernel, ?_⟩
  intro all
  have powered := all 21 (by decide) (by decide)
  revert powered
  decide +kernel

theorem planned_powered_default : 2 ≤ 20 ∧ 4 / 5 ≤ exactPower 20 (4 / 5) (1 / 20) ∧
    (∀ fewer, 2 ≤ fewer → fewer < 20 → exactPower fewer (4 / 5) (1 / 20) < 4 / 5) ∧
    ((∀ more, 20 ≤ more → more ≤ 400 → 4 / 5 ≤ exactPower more (4 / 5) (1 / 20)) ↔
      ∀ more, 20 ≤ more → more ≤ 400 → more = 400 ∨ Rises (1 / 20) more →
        4 / 5 ≤ exactPower more (4 / 5) (1 / 20)) :=
  planned_powered_iff (by norm_num) (by norm_num) (by decide +kernel) (by decide)

end Rsi
end PhysicalHarness
