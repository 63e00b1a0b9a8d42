import Mathlib.Algebra.Order.Field.Basic
import Mathlib.Algebra.Order.Field.Rat
import Mathlib.Data.Nat.Choose.Sum
import Mathlib.Tactic.GCongr
import Mathlib.Tactic.Positivity

/-!
# The two-sided sign test

Of `n` fair trials some are hits.  The test looks at the smaller of the numbers of hits and misses
and doubles the share of the outcomes that are at least as lopsided on that side, up to one.
Rejecting when this value is at most `α` happens with probability at most `α`: the outcomes that are
rejected are those with few hits and those with few misses, and the doubled tail counts both, even
where they overlap.
-/

namespace SignTest

open Finset

/-- The share of the outcomes of `n` fair trials whose number of hits is in the event.  An outcome
is the set of the trials that are hits. -/
def share (n : ℕ) (event : ℕ → Prop) [DecidablePred event] : ℚ :=
  (((range n).powerset.filter (fun hits => event hits.card)).card : ℚ) / 2 ^ n

theorem share_congr (n : ℕ) {event other : ℕ → Prop} [DecidablePred event] [DecidablePred other]
    (same : ∀ k ≤ n, (event k ↔ other k)) : share n event = share n other := by
  apply congrArg (fun outcomes : Finset (Finset ℕ) => (outcomes.card : ℚ) / 2 ^ n)
  apply filter_congr
  intro hits inside
  have few := card_le_card (mem_powerset.mp inside)
  rw [card_range] at few
  exact same _ few

/-- The number of outcomes with at most `m` hits. -/
def lowerTail (n m : ℕ) : ℕ := ∑ k ∈ range (m + 1), n.choose k

theorem lowerTail_mono (n : ℕ) {m more : ℕ} (le : m ≤ more) : lowerTail n m ≤ lowerTail n more :=
  sum_le_sum_of_subset (range_mono (Nat.succ_le_succ le))

theorem lowerTail_pos (n m : ℕ) : 0 < lowerTail n m := by
  have first : n.choose 0 ≤ lowerTail n m :=
    single_le_sum (fun _ _ => Nat.zero_le _) (mem_range.mpr (Nat.succ_pos m))
  rw [Nat.choose_zero_right] at first
  exact first

section

variable (n : ℕ) (event : ℕ → Prop) [DecidablePred event]

theorem card_outcomes :
    ((range n).powerset.filter (fun hits => event hits.card)).card =
      ∑ k ∈ range (n + 1), if event k then n.choose k else 0 := by
  rw [card_filter, sum_powerset_apply_card (fun k => if event k then 1 else 0), card_range]
  apply sum_congr rfl
  intro k _
  split
  · exact Nat.mul_one _
  · exact Nat.mul_zero _

theorem share_le_one : share n event ≤ 1 := by
  have few : ((range n).powerset.filter (fun hits => event hits.card)).card ≤ 2 ^ n := by
    calc
      _ ≤ (range n).powerset.card := card_filter_le _ _
      _ = 2 ^ n := by rw [card_powerset, card_range]
  rw [share, div_le_one (by positivity)]
  exact_mod_cast few

end

theorem sum_lopsided_le (n m : ℕ) :
    (∑ k ∈ range (n + 1), if min k (n - k) ≤ m then n.choose k else 0) ≤ 2 * lowerTail n m := by
  have low : (∑ k ∈ range (n + 1), if k ≤ m then n.choose k else 0) ≤ lowerTail n m := by
    rw [← sum_filter]
    apply sum_le_sum_of_subset
    intro k mem
    exact mem_range.mpr (Nat.lt_succ_of_le (mem_filter.mp mem).2)
  have high : (∑ k ∈ range (n + 1), if n - k ≤ m then n.choose k else 0) ≤ lowerTail n m := by
    have flipped := sum_flip (n := n) (fun k => if k ≤ m then n.choose k else 0)
    rw [← flipped] at low
    refine le_trans (le_of_eq (sum_congr rfl (fun k mem => ?_))) low
    rw [Nat.choose_symm (Nat.lt_succ_iff.mp (mem_range.mp mem))]
  calc
    (∑ k ∈ range (n + 1), if min k (n - k) ≤ m then n.choose k else 0)
        ≤ ∑ k ∈ range (n + 1),
          ((if k ≤ m then n.choose k else 0) + if n - k ≤ m then n.choose k else 0) := by
          apply sum_le_sum
          intro k _
          by_cases first : k ≤ m
          · rw [if_pos first]
            split <;> omega
          · by_cases second : n - k ≤ m
            · rw [if_pos second, if_pos (min_le_iff.mpr (Or.inr second))]
              omega
            · rw [if_neg (fun both => (min_le_iff.mp both).elim first second)]
              exact Nat.zero_le _
    _ = (∑ k ∈ range (n + 1), if k ≤ m then n.choose k else 0) +
          ∑ k ∈ range (n + 1), if n - k ≤ m then n.choose k else 0 := sum_add_distrib
    _ ≤ 2 * lowerTail n m := by omega

/-- The doubled share of the lopsided outcomes, at most one. -/
def value (n m : ℕ) : ℚ := min 1 (2 * lowerTail n m / 2 ^ n)

theorem value_pos (n m : ℕ) : 0 < value n m := by
  have positive : (0 : ℚ) < lowerTail n m := by
    exact_mod_cast lowerTail_pos n m
  exact lt_min one_pos (by positivity)

theorem value_le_one (n m : ℕ) : value n m ≤ 1 := min_le_left _ _

theorem value_mono (n : ℕ) {m more : ℕ} (le : m ≤ more) : value n m ≤ value n more := by
  have tails : (lowerTail n m : ℚ) ≤ lowerTail n more := by
    exact_mod_cast lowerTail_mono n le
  apply min_le_min le_rfl
  gcongr

theorem share_value_le (n : ℕ) {α : ℚ} (nonneg : 0 ≤ α) :
    share n (fun k => value n (min k (n - k)) ≤ α) ≤ α := by
  rcases le_or_gt 1 α with large | small
  · exact le_trans (share_le_one n _) large
  have rejects : ∀ m, value n m ≤ α → 2 * (lowerTail n m : ℚ) / 2 ^ n ≤ α := by
    intro m here
    exact (min_le_iff.mp here).resolve_left (not_le.mpr small)
  rw [share, card_outcomes n (fun k => value n (min k (n - k)) ≤ α)]
  rcases ((range (n + 1)).filter (fun k => value n (min k (n - k)) ≤ α)).eq_empty_or_nonempty with
    none_ | some_
  · rw [← sum_filter, none_, sum_empty, Nat.cast_zero, zero_div]
    exact nonneg
  · obtain ⟨widest, mem, most⟩ := exists_max_image _ (fun k => min k (n - k)) some_
    have within : (∑ k ∈ range (n + 1), if value n (min k (n - k)) ≤ α then n.choose k else 0) ≤
        2 * lowerTail n (min widest (n - widest)) := by
      refine le_trans (sum_le_sum (fun k inside => ?_))
        (sum_lopsided_le n (min widest (n - widest)))
      split
      · rename_i rejected
        rw [if_pos (most k (mem_filter.mpr ⟨inside, rejected⟩))]
      · exact Nat.zero_le _
    have level := rejects _ (mem_filter.mp mem).2
    refine le_trans ?_ level
    rw [div_le_div_iff_of_pos_right (by positivity)]
    exact_mod_cast within

end SignTest
