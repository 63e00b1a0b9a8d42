import Mathlib.Algebra.BigOperators.Group.List.Basic
import Mathlib.Algebra.GroupWithZero.Nat
import Mathlib.Data.List.Perm.Basic
import PhysicalHarness.Lib.Dict

namespace PhysicalHarness
namespace Paired

/-!
# Paired counts

Two readings of the same items differ by the items that only one of them counts.  A table
that is read at the keys of another one, with nothing where a key is missing, adds up to
what its own entries add up to.
-/

universe u v

section

variable {α : Type u}

theorem countP_gained (first second : α → Bool) (items : List α) :
    items.countP (fun item => second item && !first item) + items.countP first =
      items.countP (fun item => first item && !second item) + items.countP second := by
  induction items with
  | nil => rfl
  | cons item rest ih =>
      simp only [List.countP_cons]
      cases first item <;> cases second item <;> simp <;> omega

theorem countP_of_mem_iff {keep : α → Bool} {items others : List α} (unique : items.Nodup)
    (uniqueOthers : others.Nodup)
    (same : ∀ item, keep item = true → (item ∈ items ↔ item ∈ others)) :
    items.countP keep = others.countP keep := by
  rw [List.countP_eq_length_filter, List.countP_eq_length_filter]
  apply List.Perm.length_eq
  apply (List.perm_ext_iff_of_nodup (unique.filter keep) (uniqueOthers.filter keep)).mpr
  intro item
  rw [List.mem_filter, List.mem_filter]
  constructor
  · intro kept
    exact ⟨(same item kept.2).mp kept.1, kept.2⟩
  · intro kept
    exact ⟨(same item kept.2).mpr kept.1, kept.2⟩

theorem sum_filter_of_zero (keep : α → Bool) (weigh : α → Nat) {names : List α}
    (zero : ∀ name ∈ names, keep name = false → weigh name = 0) :
    (names.map weigh).sum = ((names.filter keep).map weigh).sum := by
  induction names with
  | nil => rfl
  | cons name rest ih =>
      have later := ih (fun other mem => zero other (.tail _ mem))
      rw [List.map_cons, List.sum_cons, later]
      cases kept : keep name with
      | true => rw [List.filter_cons_of_pos kept, List.map_cons, List.sum_cons]
      | false =>
          rw [List.filter_cons_of_neg (Bool.eq_false_iff.mp kept),
            zero name (.head _) kept, Nat.zero_add]

end

section

variable {κ : Type u} {ν : Type v} [DecidableEq κ]

open Assoc

theorem sum_get?_keys {pairs : List (κ × ν)} (unique : (keys pairs).Nodup) (weigh : Option ν → Nat) :
    ((keys pairs).map (fun key => weigh (get? pairs key))).sum =
      (pairs.map (fun pair => weigh (some pair.2))).sum := by
  rw [keys, List.map_map]
  apply congrArg List.sum
  apply List.map_congr_left
  intro pair mem
  rw [Function.comp_apply, get?_of_mem unique mem]

theorem sum_get?_of_subset {pairs : List (κ × ν)} {names : List κ} (unique : (keys pairs).Nodup)
    (uniqueNames : names.Nodup) (listed : ∀ key ∈ keys pairs, key ∈ names) (weigh : Option ν → Nat)
    (nothing : weigh none = 0) :
    (names.map (fun key => weigh (get? pairs key))).sum =
      (pairs.map (fun pair => weigh (some pair.2))).sum := by
  have outside : ∀ name ∈ names, decide (name ∈ keys pairs) = false → weigh (get? pairs name) = 0 := by
    intro name _ absent
    rw [(get?_eq_none_iff pairs name).mpr (of_decide_eq_false absent), nothing]
  have same : (names.filter (fun name => decide (name ∈ keys pairs))).Perm (keys pairs) := by
    apply (List.perm_ext_iff_of_nodup (uniqueNames.filter _) unique).mpr
    intro name
    rw [List.mem_filter, decide_eq_true_iff]
    exact ⟨And.right, fun mem => ⟨listed name mem, mem⟩⟩
  rw [sum_filter_of_zero _ _ outside, ← sum_get?_keys unique weigh]
  exact (same.map _).sum_eq

end

end Paired
end PhysicalHarness
