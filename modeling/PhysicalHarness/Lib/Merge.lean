import Mathlib.Data.List.Induction
import PhysicalHarness.Lib.Dict

/-!
# Merging tables

A table that goes into another one takes the places of the keys that are there and appends the
others.  An assignment to the table that goes in is an assignment to what comes out.
-/

universe u v

namespace Assoc

variable {κ : Type u} {ν : Type v} [DecidableEq κ]

/-- The entries of `new` are assigned to `old` one after the other. -/
def merge (old new : List (κ × ν)) : List (κ × ν) :=
  new.foldl (fun pairs pair => set pairs pair.1 pair.2) old

@[simp] theorem merge_nil (old : List (κ × ν)) : merge old [] = old := rfl

theorem merge_cons (old : List (κ × ν)) (pair : κ × ν) (rest : List (κ × ν)) :
    merge old (pair :: rest) = merge (set old pair.1 pair.2) rest := rfl

theorem nodup_keys_merge {old : List (κ × ν)} (unique : (keys old).Nodup) (new : List (κ × ν)) :
    (keys (merge old new)).Nodup := by
  induction new generalizing old with
  | nil => exact unique
  | cons pair rest ih => exact ih (nodup_keys_set unique pair.1 pair.2)

variable {new : List (κ × ν)}

theorem get?_merge (old : List (κ × ν)) (unique : (keys new).Nodup) (key : κ) :
    get? (merge old new) key = (get? new key).or (get? old key) := by
  induction new generalizing old with
  | nil => rfl
  | cons pair rest ih =>
      rw [keys_cons, List.nodup_cons] at unique
      rw [merge_cons, ih (set old pair.1 pair.2) unique.2, get?_set, get?_cons]
      by_cases same : pair.1 = key
      · have absent : get? rest key = none := (get?_eq_none_iff rest key).mpr (same ▸ unique.1)
        rw [if_pos same, if_pos same, absent]
        rfl
      · rw [if_neg same, if_neg same]

theorem set_set (pairs : List (κ × ν)) (key : κ) (value fresh : ν) :
    set (set pairs key value) key fresh = set pairs key fresh := by
  induction pairs with
  | nil => simp [set]
  | cons pair rest ih =>
      by_cases same : pair.1 = key
      · simp [set, same]
      · simp [set, same, ih]

theorem set_comm {pairs : List (κ × ν)} {key other : κ} (mem : key ∈ keys pairs)
    (distinct : other ≠ key) (value fresh : ν) :
    set (set pairs other fresh) key value = set (set pairs key value) other fresh := by
  induction pairs with
  | nil => cases mem
  | cons pair rest ih =>
      by_cases same : pair.1 = key
      · simp [set, same, Ne.symm distinct]
      · have later : key ∈ keys rest := by
          rw [keys_cons, List.mem_cons] at mem
          exact mem.resolve_left (Ne.symm same)
        by_cases also : pair.1 = other
        · have apart : ¬ other = key := distinct
          simp [set, also, apart]
        · simp [set, same, also, ih later]

theorem set_merge {old : List (κ × ν)} {key : κ} (mem : key ∈ keys old) (absent : key ∉ keys new)
    (value : ν) :
    set (merge old new) key value = merge (set old key value) new := by
  induction new generalizing old with
  | nil => rfl
  | cons pair rest ih =>
      rw [keys_cons, List.mem_cons, not_or] at absent
      have still : key ∈ keys (set old pair.1 pair.2) := (mem_keys_set old pair.1 key pair.2).mpr (Or.inr mem)
      rw [merge_cons, merge_cons, ih still absent.2, set_comm mem (Ne.symm absent.1)]

theorem merge_set (old : List (κ × ν)) (unique : (keys new).Nodup) (key : κ) (value : ν) :
    merge old (set new key value) = set (merge old new) key value := by
  induction new generalizing old with
  | nil => rfl
  | cons pair rest ih =>
      rw [keys_cons, List.nodup_cons] at unique
      by_cases same : pair.1 = key
      · subst same
        have there : pair.1 ∈ keys (set old pair.1 pair.2) :=
          (mem_keys_set old pair.1 pair.1 pair.2).mpr (Or.inl rfl)
        have here : set (pair :: rest) pair.1 value = (pair.1, value) :: rest := by
          simp [set]
        rw [here, merge_cons, merge_cons, set_merge there unique.1, set_set]
      · have here : set (pair :: rest) key value = pair :: set rest key value := by
          simp [set, same]
        rw [here, merge_cons, merge_cons]
        exact ih (set old pair.1 pair.2) unique.2

theorem merge_nil_left (unique : (keys new).Nodup) : merge [] new = new := by
  induction new using List.reverseRecOn with
  | nil => rfl
  | append_singleton initial last ih =>
      rw [keys, List.map_append, List.nodup_append] at unique
      have absent : last.1 ∉ keys initial := fun mem => unique.2.2 last.1 mem last.1 (by simp) rfl
      have before : merge [] initial = initial := ih unique.1
      rw [merge, List.foldl_append]
      show set (merge [] initial) last.1 last.2 = initial ++ [last]
      rw [before, set_of_not_mem absent]

theorem filter_set {pairs : List (κ × ν)} (unique : (keys pairs).Nodup) {keep : κ × ν → Bool} {key : κ}
    {value : ν} (mem : key ∈ keys (pairs.filter keep)) (kept : keep (key, value) = true) :
    (set pairs key value).filter keep = set (pairs.filter keep) key value := by
  induction pairs with
  | nil => cases mem
  | cons pair rest ih =>
      rw [keys_cons, List.nodup_cons] at unique
      by_cases same : pair.1 = key
      · subst same
        have first : keep pair = true := by
          by_contra dropped
          rw [List.filter_cons_of_neg dropped] at mem
          rcases List.mem_map.mp mem with ⟨other, inside, name⟩
          exact unique.1 (List.mem_map.mpr ⟨other, (List.mem_filter.mp inside).1, name⟩)
        simp [set, first, kept]
      · have here : set (pair :: rest) key value = pair :: set rest key value := by
          simp [set, same]
        rw [here]
        cases first : keep pair with
        | true =>
            rw [List.filter_cons_of_pos first, keys_cons, List.mem_cons] at mem
            have later := ih unique.2 (mem.resolve_left (Ne.symm same))
            rw [List.filter_cons_of_pos first, List.filter_cons_of_pos first, later]
            simp [set, same]
        | false =>
            have drop : ¬ keep pair = true := by simp [first]
            rw [List.filter_cons_of_neg drop] at mem
            rw [List.filter_cons_of_neg drop, List.filter_cons_of_neg drop, ih unique.2 mem]

end Assoc
