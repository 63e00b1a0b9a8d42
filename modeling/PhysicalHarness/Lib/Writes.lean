import Mathlib.Data.List.Nodup
import PhysicalHarness.Lib.Fallible

/-!
# Places that are written one after another

Each item writes one place.  After a run a place holds what was written there last, or what it held
before.  Where no place is written twice and none that was written held anything, the order of the
items does not matter, and what a place holds has one source.
-/

open Fallible

namespace Writes

universe u v

variable {σ ι : Type u} {τ ν : Type v} [DecidableEq τ] (target : ι → τ) (value : ι → ν)

def writtenAt (items : List ι) (place : τ) : List ν :=
  (items.filter (fun item => decide (target item = place))).map value

/-- What a place may hold: what it holds already, and what is written there. -/
def sources (view : τ → Option ν) (items : List ι) (place : τ) : List ν :=
  (view place).toList ++ writtenAt target value items place

variable {target value}

theorem mem_writtenAt {items : List ι} {item : ι} (mem : item ∈ items) :
    value item ∈ writtenAt target value items (target item) :=
  List.mem_map_of_mem (List.mem_filter.mpr ⟨mem, decide_eq_true rfl⟩)

theorem writtenAt_perm {items others : List ι} (perm : items.Perm others) (place : τ) :
    (writtenAt target value items place).Perm (writtenAt target value others place) :=
  (perm.filter _).map value

/-- After a write the place holds what was written, and the others what they held. -/
def Writing (target : ι → τ) (value : ι → ν) (view : σ → τ → Option ν) (state : σ) (item : ι)
    (next : σ) : Prop :=
  ∀ place, view next place = if target item = place then some (value item) else view state place

theorem view_eq_getLast? {ε : Type u} {step : σ → ι → Except ε σ} {view : σ → τ → Option ν}
    (writes : ∀ state item next, step state item = .ok next → Writing target value view state item next)
    {items : List ι} {state last : σ} (ran : items.foldlM step state = .ok last) (place : τ) :
    view last place = (sources target value (view state) items place).getLast? := by
  induction items generalizing state with
  | nil =>
      cases ran
      rw [sources, writtenAt, List.filter_nil, List.map_nil, List.append_nil]
      cases view last place with
      | none => rfl
      | some held => rfl
  | cons item rest ih =>
      rw [List.foldlM_cons] at ran
      rcases of_bind ran with ⟨next, here, later⟩
      rw [ih later, sources, sources, writes state item next here place, writtenAt, writtenAt,
        List.filter_cons]
      by_cases same : target item = place
      · rw [if_pos same, if_pos (decide_eq_true same), List.map_cons, List.getLast?_append,
          List.getLast?_append, List.getLast?_cons]
        cases ((rest.filter (fun item => decide (target item = place))).map value).getLast? <;> rfl
      · rw [if_neg same, if_neg (fun both => same (of_decide_eq_true both))]

theorem toList_getLast?_eq_iff {α : Type*} (items : List α) :
    items.getLast?.toList = items ↔ items.length ≤ 1 := by
  cases items with
  | nil => simp
  | cons first rest =>
      cases rest with
      | nil => simp
      | cons second rest => simp [List.getLast?_cons]

/-- Every place has one source at most where no place is written twice and none that is written held
anything. -/
theorem length_sources_le_one_iff {view : τ → Option ν} {items : List ι} :
    (∀ place, (sources target value view items place).length ≤ 1) ↔
      (items.map target).Nodup ∧ ∀ item ∈ items, view (target item) = none := by
  constructor
  · intro single
    constructor
    · rw [List.nodup_iff_count_le_one]
      intro place
      have here := single place
      rw [sources, List.length_append, writtenAt, List.length_map, ← List.countP_eq_length_filter] at here
      rw [List.count, List.countP_map]
      refine Nat.le_trans (Nat.le_of_eq ?_) (Nat.le_trans (Nat.le_add_left _ _) here)
      exact congrArg (List.countP · items) (funext (fun item => beq_eq_decide ..))
    · intro item mem
      by_contra held
      rcases Option.ne_none_iff_exists'.mp held with ⟨old, found⟩
      have here := single (target item)
      have some_ : 0 < (writtenAt target value items (target item)).length :=
        List.length_pos_of_mem (mem_writtenAt mem)
      rw [sources, found, List.length_append, Option.toList_some, List.length_singleton] at here
      omega
  · rintro ⟨distinct, free⟩ place
    by_cases written : ∃ item ∈ items, target item = place
    · rcases written with ⟨item, mem, rfl⟩
      have once := List.nodup_iff_count_le_one.mp distinct (target item)
      rw [List.count, List.countP_map, List.countP_eq_length_filter] at once
      rw [sources, free item mem, Option.toList_none, List.nil_append, writtenAt, List.length_map]
      refine Nat.le_trans (Nat.le_of_eq ?_) once
      exact congrArg (fun keep => (items.filter keep).length) (funext (fun other => (beq_eq_decide ..).symm))
    · have none_ : writtenAt target value items place = [] := by
        rw [writtenAt, List.map_eq_nil_iff, List.filter_eq_nil_iff]
        intro item mem same
        exact written ⟨item, mem, of_decide_eq_true same⟩
      rw [sources, none_, List.append_nil]
      cases view place <;> simp

theorem sources_eq_of_perm {view : τ → Option ν} {items others : List ι} (perm : items.Perm others)
    {place : τ} (single : (sources target value view items place).length ≤ 1) :
    sources target value view others place = sources target value view items place := by
  have same : (sources target value view items place).Perm (sources target value view others place) :=
    (writtenAt_perm perm place).append_left _
  rcases listed : sources target value view items place with _ | ⟨only, rest⟩
  · rw [listed] at same
    exact List.nil_perm.mp same
  · rw [listed, List.length_cons] at single
    have empty : rest = [] := List.length_eq_zero_iff.mp (by omega)
    rw [listed, empty] at same
    rw [empty]
    exact (List.singleton_perm.mp same).symm

end Writes
