import Mathlib.Algebra.BigOperators.Group.List.Basic
import Mathlib.Algebra.GroupWithZero.Nat

/-!
# Tallies

A tally holds one count for each key, in the order in which the keys were first counted.
Keys are told apart by a test of the caller's; what is counted under the keys with some
property is the number of items with it, as long as the test does not mix the two kinds.
-/

universe u

namespace Tally

variable {κ : Type u} (same : κ → κ → Bool)

def add : List (κ × Nat) → κ → Nat → List (κ × Nat)
  | [], key, count => [(key, count)]
  | entry :: rest, key, count =>
      if same entry.1 key then (entry.1, entry.2 + count) :: rest else entry :: add rest key count

/-- Every item counts once. -/
def of (items : List κ) : List (κ × Nat) :=
  items.foldl (fun table item => add same table item 1) []

/-- All that was counted. -/
def total (table : List (κ × Nat)) : Nat := (table.map Prod.snd).sum

def totalOf (keep : κ → Bool) (table : List (κ × Nat)) : Nat :=
  total (table.filter (fun entry => keep entry.1))

theorem total_cons (entry : κ × Nat) (rest : List (κ × Nat)) :
    total (entry :: rest) = entry.2 + total rest := by
  rw [total, total, List.map_cons, List.sum_cons]

theorem totalOf_cons (keep : κ → Bool) (entry : κ × Nat) (rest : List (κ × Nat)) :
    totalOf keep (entry :: rest) = (if keep entry.1 then entry.2 else 0) + totalOf keep rest := by
  rw [totalOf, totalOf, List.filter_cons]
  split
  · rw [total_cons]
  · rw [Nat.zero_add]

theorem total_add (table : List (κ × Nat)) (key : κ) (count : Nat) :
    total (add same table key count) = total table + count := by
  induction table with
  | nil => rw [add, total_cons, Nat.add_comm]
  | cons entry rest ih =>
      rw [add]
      split
      · rw [total_cons, total_cons, Nat.add_right_comm]
      · rw [total_cons, total_cons, ih, Nat.add_assoc]

variable {same} {keep : κ → Bool}

theorem totalOf_add (apart : ∀ left right, same left right = true → keep left = keep right)
    (table : List (κ × Nat)) (key : κ) (count : Nat) :
    totalOf keep (add same table key count) = totalOf keep table + if keep key then count else 0 := by
  induction table with
  | nil => rw [add, totalOf_cons, Nat.add_comm]
  | cons entry rest ih =>
      rw [add]
      split
      · rename_i equal
        rw [totalOf_cons, totalOf_cons, apart _ _ equal]
        split <;> omega
      · rw [totalOf_cons, totalOf_cons, ih, Nat.add_assoc]

theorem totalOf_of (apart : ∀ left right, same left right = true → keep left = keep right)
    (items : List κ) : totalOf keep (of same items) = items.countP keep := by
  have general : ∀ table, totalOf keep (items.foldl (fun table item => add same table item 1) table) =
      totalOf keep table + items.countP keep := by
    intro table
    induction items generalizing table with
    | nil => rfl
    | cons item rest ih =>
        rw [List.foldl_cons, ih, totalOf_add apart, List.countP_cons, Nat.add_assoc,
          Nat.add_comm (List.countP keep rest)]
  have whole := general []
  rw [show totalOf keep ([] : List (κ × Nat)) = 0 from rfl, Nat.zero_add] at whole
  exact whole

variable {α : Type u}

def sumWhere (keep : α → Bool) (size : α → Nat) (items : List α) : Nat :=
  ((items.filter keep).map size).sum

theorem sumWhere_cons (keep : α → Bool) (size : α → Nat) (item : α) (rest : List α) :
    sumWhere keep size (item :: rest) = (if keep item then size item else 0) + sumWhere keep size rest := by
  rw [sumWhere, sumWhere, List.filter_cons]
  split
  · rw [List.map_cons, List.sum_cons]
  · rw [Nat.zero_add]

theorem sumWhere_append (keep : α → Bool) (size : α → Nat) (first second : List α) :
    sumWhere keep size (first ++ second) = sumWhere keep size first + sumWhere keep size second := by
  rw [sumWhere, List.filter_append, List.map_append, List.sum_append]
  rfl

theorem sumWhere_modify {keep : α → Bool} {size : α → Nat} {items : List α} {position : Nat} {item : α}
    (here : items[position]? = some item) {change : α → α} (kept : keep (change item) = keep item)
    {more : Nat} (grew : size (change item) = size item + more) :
    sumWhere keep size (items.modify position change) =
      sumWhere keep size items + if keep item then more else 0 := by
  induction items generalizing position with
  | nil => cases here
  | cons first rest ih =>
      cases position with
      | zero =>
          cases here
          rw [List.modify_zero_cons, sumWhere_cons, sumWhere_cons, kept, grew]
          split <;> omega
      | succ position =>
          rw [List.modify_succ_cons, sumWhere_cons, sumWhere_cons, ih here, Nat.add_assoc]

theorem sumWhere_eq {keep : α → Bool} {size : α → Nat} {items : List α} {item : α}
    (mem : item ∈ items) (kept : keep item = true)
    (alone : items.Pairwise (fun left right => ¬ (keep left = true ∧ keep right = true))) :
    sumWhere keep size items = size item := by
  induction items with
  | nil => cases mem
  | cons first rest ih =>
      have parts := List.pairwise_cons.mp alone
      rw [sumWhere_cons]
      rcases List.mem_cons.mp mem with rfl | later
      · have none_ : rest.filter keep = [] := by
          rw [List.filter_eq_nil_iff]
          exact fun other listed same => parts.1 other listed ⟨kept, same⟩
        rw [if_pos kept, sumWhere, none_]
        rfl
      · rw [if_neg (fun same => parts.1 item later ⟨same, kept⟩), Nat.zero_add, ih later parts.2]

end Tally
