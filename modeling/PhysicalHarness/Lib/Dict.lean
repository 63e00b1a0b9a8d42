import Mathlib.Data.List.Nodup

/-!
# Insertion-ordered dictionaries

A dictionary remembers the order in which its keys were first assigned, and
assigning an existing key replaces its value in place.  Both facts are
observable: a scheduler that lists the keys of its ledger reports the order in
which entries were first made, whatever happened to them afterwards.

`Assoc` holds the operations on raw association lists, which is the shape of
data received from outside.  `Dict` bundles a list with the proof that its keys
do not repeat; every value of that type is built by `empty` and `set`.
-/

universe u v

namespace Assoc

variable {κ : Type u} {ν : Type v}

/-- The keys in the order of their first assignment. -/
def keys (pairs : List (κ × ν)) : List κ :=
  pairs.map Prod.fst

@[simp] theorem keys_nil : keys ([] : List (κ × ν)) = [] := rfl

@[simp] theorem keys_cons (pair : κ × ν) (rest : List (κ × ν)) :
    keys (pair :: rest) = pair.1 :: keys rest := rfl

variable [DecidableEq κ]

/-- The value of the first pair with this key. -/
def get? : List (κ × ν) → κ → Option ν
  | [], _ => none
  | (key, value) :: rest, wanted =>
      if key = wanted then some value else get? rest wanted

/-- Replace the value of an existing key in place, or append a new pair. -/
def set : List (κ × ν) → κ → ν → List (κ × ν)
  | [], wanted, fresh => [(wanted, fresh)]
  | (key, value) :: rest, wanted, fresh =>
      if key = wanted then (key, fresh) :: rest
      else (key, value) :: set rest wanted fresh

@[simp] theorem get?_nil (wanted : κ) : get? ([] : List (κ × ν)) wanted = none := rfl

theorem get?_cons (key : κ) (value : ν) (rest : List (κ × ν)) (wanted : κ) :
    get? ((key, value) :: rest) wanted =
      if key = wanted then some value else get? rest wanted := rfl

theorem get?_eq_none_iff (pairs : List (κ × ν)) (wanted : κ) :
    get? pairs wanted = none ↔ wanted ∉ keys pairs := by
  induction pairs with
  | nil => simp
  | cons pair rest ih =>
      obtain ⟨key, value⟩ := pair
      by_cases same : key = wanted
      · simp [get?_cons, same]
      · simp [get?_cons, same, ih, Ne.symm same]

variable {pairs : List (κ × ν)} {value : ν} {key wanted : κ}

theorem mem_keys_of_get? (found : get? pairs wanted = some value) : wanted ∈ keys pairs := by
  by_contra absent
  rw [(get?_eq_none_iff pairs wanted).mpr absent] at found
  cases found

theorem get?_of_mem_keys (mem : wanted ∈ keys pairs) :
    ∃ value, get? pairs wanted = some value := by
  cases found : get? pairs wanted with
  | some value => exact ⟨value, rfl⟩
  | none => exact absurd mem ((get?_eq_none_iff pairs wanted).mp found)

theorem mem_of_get? (found : get? pairs wanted = some value) : (wanted, value) ∈ pairs := by
  induction pairs with
  | nil => cases found
  | cons pair rest ih =>
      obtain ⟨key, first⟩ := pair
      rw [get?_cons] at found
      by_cases same : key = wanted
      · rw [if_pos same] at found
        cases found
        exact same ▸ List.mem_cons_self
      · rw [if_neg same] at found
        exact .tail _ (ih found)

theorem get?_of_mem (unique : (keys pairs).Nodup) (mem : (key, value) ∈ pairs) :
    get? pairs key = some value := by
  induction pairs with
  | nil => cases mem
  | cons pair rest ih =>
      obtain ⟨first, firstValue⟩ := pair
      have parts := List.nodup_cons.mp unique
      rcases List.mem_cons.mp mem with same | later
      · cases same
        simp [get?_cons]
      · have different : first ≠ key := by
          intro same
          exact parts.1 (List.mem_map.mpr ⟨(key, value), later, same.symm⟩)
        rw [get?_cons, if_neg different]
        exact ih parts.2 later

@[simp] theorem get?_set (pairs : List (κ × ν)) (key wanted : κ) (fresh : ν) :
    get? (set pairs key fresh) wanted =
      if key = wanted then some fresh else get? pairs wanted := by
  induction pairs with
  | nil => simp [set, get?_cons]
  | cons pair rest ih =>
      obtain ⟨first, value⟩ := pair
      by_cases atFirst : first = key
      · subst first
        by_cases same : key = wanted <;> simp [set, get?_cons, same]
      · by_cases same : first = wanted
        · subst first
          simp [set, get?_cons, atFirst, Ne.symm atFirst]
        · simp [set, get?_cons, atFirst, same, ih]

theorem set_of_get? (found : get? pairs key = some value) : set pairs key value = pairs := by
  induction pairs with
  | nil => cases found
  | cons pair rest ih =>
      obtain ⟨first, held⟩ := pair
      rw [get?_cons] at found
      by_cases same : first = key
      · rw [if_pos same] at found
        cases found
        rw [set, if_pos same, same]
      · rw [if_neg same] at found
        rw [set, if_neg same, ih found]

theorem get?_perm {others : List (κ × ν)} (perm : pairs.Perm others) (unique : (keys pairs).Nodup)
    (wanted : κ) : get? pairs wanted = get? others wanted := by
  have unique_ : (keys others).Nodup := (perm.map Prod.fst).nodup_iff.mp unique
  cases found : get? others wanted with
  | some value => exact get?_of_mem unique (perm.mem_iff.mpr (mem_of_get? found))
  | none =>
      rw [get?_eq_none_iff] at found ⊢
      exact fun mem => found ((perm.map Prod.fst).mem_iff.mp mem)

theorem get?_filter (unique : (keys pairs).Nodup) (keep : κ × ν → Bool) (wanted : κ) :
    get? (pairs.filter keep) wanted = (get? pairs wanted).filter (fun value => keep (wanted, value)) := by
  induction pairs with
  | nil => rfl
  | cons pair rest ih =>
      rcases pair with ⟨key, value⟩
      have parts := List.nodup_cons.mp unique
      by_cases here : key = wanted
      · subst here
        have absent : get? rest key = none := (get?_eq_none_iff rest key).mpr parts.1
        rw [get?_cons, if_pos rfl, List.filter_cons, Option.filter_some]
        split_ifs with kept
        · rw [get?_cons, if_pos rfl]
        · rw [ih parts.2, absent]
          rfl
      · rw [get?_cons, if_neg here, List.filter_cons, ← ih parts.2]
        split_ifs
        · rw [get?_cons, if_neg here]
        · rfl

theorem get?_filter_ne (pairs : List (κ × ν)) (dropped wanted : κ) :
    get? (pairs.filter (fun pair => pair.1 ≠ dropped)) wanted =
      if wanted = dropped then none else get? pairs wanted := by
  induction pairs with
  | nil => simp
  | cons pair rest ih =>
      obtain ⟨key, value⟩ := pair
      by_cases gone : key = dropped
      · subst gone
        rw [List.filter_cons_of_neg (by simp), ih, get?_cons]
        by_cases same : wanted = key
        · simp [same]
        · simp [same, Ne.symm same]
      · rw [List.filter_cons_of_pos (by simp [gone]), get?_cons, get?_cons, ih]
        by_cases same : key = wanted
        · subst same
          simp [gone]
        · simp [same]

theorem keys_set_of_mem (mem : key ∈ keys pairs) (fresh : ν) :
    keys (set pairs key fresh) = keys pairs := by
  induction pairs with
  | nil => cases mem
  | cons pair rest ih =>
      obtain ⟨first, value⟩ := pair
      by_cases atFirst : first = key
      · simp [set, atFirst]
      · have later : key ∈ keys rest := by
          rcases List.mem_cons.mp mem with same | later
          · exact absurd same.symm atFirst
          · exact later
        simp [set, atFirst, ih later]

theorem keys_set_of_not_mem (absent : key ∉ keys pairs) (fresh : ν) :
    keys (set pairs key fresh) = keys pairs ++ [key] := by
  induction pairs with
  | nil => rfl
  | cons pair rest ih =>
      obtain ⟨first, value⟩ := pair
      rw [keys_cons, List.mem_cons, not_or] at absent
      simp [set, Ne.symm absent.1, ih absent.2]

theorem mem_keys_set (pairs : List (κ × ν)) (key wanted : κ) (fresh : ν) :
    wanted ∈ keys (set pairs key fresh) ↔ wanted = key ∨ wanted ∈ keys pairs := by
  by_cases mem : key ∈ keys pairs
  · rw [keys_set_of_mem mem]
    constructor
    · exact Or.inr
    · rintro (same | held)
      · exact same ▸ mem
      · exact held
  · rw [keys_set_of_not_mem mem, List.mem_append, List.mem_singleton]
    exact or_comm

theorem nodup_keys_set (unique : (keys pairs).Nodup) (key : κ) (fresh : ν) :
    (keys (set pairs key fresh)).Nodup := by
  by_cases mem : key ∈ keys pairs
  · rw [keys_set_of_mem mem]
    exact unique
  · rw [keys_set_of_not_mem mem]
    exact List.nodup_append.mpr ⟨unique, List.nodup_singleton key, by
      intro held heldMember last lastMember same
      rw [List.mem_singleton] at lastMember
      exact mem (lastMember ▸ same ▸ heldMember)⟩

theorem set_of_not_mem (absent : key ∉ keys pairs) (fresh : ν) :
    set pairs key fresh = pairs ++ [(key, fresh)] := by
  induction pairs with
  | nil => rfl
  | cons pair rest ih =>
      obtain ⟨first, value⟩ := pair
      rw [keys_cons, List.mem_cons, not_or] at absent
      simp [set, Ne.symm absent.1, ih absent.2]

end Assoc

/-- An association list whose keys do not repeat. -/
structure Dict (κ : Type u) (ν : Type v) where
  entries : List (κ × ν)
  unique : (entries.map Prod.fst).Nodup

namespace Dict

variable {κ : Type u} {ν : Type v}

def empty : Dict κ ν := ⟨[], List.nodup_nil⟩

def keys (dict : Dict κ ν) : List κ := dict.entries.map Prod.fst

theorem nodup_keys (dict : Dict κ ν) : dict.keys.Nodup := dict.unique

@[simp] theorem keys_empty : (empty : Dict κ ν).keys = [] := rfl

variable [DecidableEq κ]

def get? (dict : Dict κ ν) (key : κ) : Option ν := Assoc.get? dict.entries key

def set (dict : Dict κ ν) (key : κ) (value : ν) : Dict κ ν :=
  ⟨Assoc.set dict.entries key value, Assoc.nodup_keys_set dict.unique key value⟩

@[simp] theorem get?_empty (key : κ) : (empty : Dict κ ν).get? key = none := rfl

@[simp] theorem get?_set (dict : Dict κ ν) (key wanted : κ) (value : ν) :
    (dict.set key value).get? wanted =
      if key = wanted then some value else dict.get? wanted :=
  Assoc.get?_set dict.entries key wanted value

theorem mem_keys_set (dict : Dict κ ν) (key wanted : κ) (value : ν) :
    wanted ∈ (dict.set key value).keys ↔ wanted = key ∨ wanted ∈ dict.keys :=
  Assoc.mem_keys_set dict.entries key wanted value

theorem get?_eq_none_iff (dict : Dict κ ν) (key : κ) :
    dict.get? key = none ↔ key ∉ dict.keys :=
  Assoc.get?_eq_none_iff dict.entries key

variable {dict : Dict κ ν}

theorem mem_keys_of_get? {key : κ} {value : ν} (found : dict.get? key = some value) :
    key ∈ dict.keys :=
  Assoc.mem_keys_of_get? found

theorem get?_of_mem_keys {key : κ} (mem : key ∈ dict.keys) :
    ∃ value, dict.get? key = some value :=
  Assoc.get?_of_mem_keys mem

theorem mem_entries_iff (dict : Dict κ ν) (key : κ) (value : ν) :
    (key, value) ∈ dict.entries ↔ dict.get? key = some value :=
  ⟨Assoc.get?_of_mem dict.unique, Assoc.mem_of_get?⟩

theorem entries_set_of_not_mem {key : κ} (absent : key ∉ dict.keys) (value : ν) :
    (dict.set key value).entries = dict.entries ++ [(key, value)] :=
  Assoc.set_of_not_mem absent value

theorem keys_set_of_not_mem {key : κ} (absent : key ∉ dict.keys) (value : ν) :
    (dict.set key value).keys = dict.keys ++ [key] :=
  Assoc.keys_set_of_not_mem absent value

end Dict
