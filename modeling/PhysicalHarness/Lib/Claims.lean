import PhysicalHarness.Lib.Dict
import PhysicalHarness.Lib.Fallible

/-!
# Names that are claimed once

A table keeps what was claimed under each name, and by whom.  A name that has an owner is refused.
What a claimant takes by itself is what it takes in any table, as long as the names there are
others; so it does not matter who comes first.
-/

open Fallible

universe u

structure Claims (κ ω ν : Type u) where
  registry : Dict κ ν
  owner : Dict κ ω

namespace Claims

variable {κ ω ν : Type u}

def empty : Claims κ ω ν := ⟨.empty, .empty⟩

def taken (claims : Claims κ ω ν) : List κ := claims.owner.keys

theorem nodup_taken (claims : Claims κ ω ν) : claims.taken.Nodup := claims.owner.nodup_keys

@[simp] theorem taken_empty : (empty : Claims κ ω ν).taken = [] := rfl

variable [DecidableEq κ] {ε : Type u} (refuse : κ → ω → ε) (who : ω)

def claim (claims : Claims κ ω ν) (item : κ × ν) : Except ε (Claims κ ω ν) :=
  match claims.owner.get? item.1 with
  | some holder => .error (refuse item.1 holder)
  | none => .ok ⟨claims.registry.set item.1 item.2, claims.owner.set item.1 who⟩

theorem taken_of_claim {claims after : Claims κ ω ν} {item : κ × ν}
    (claimed : claim refuse who claims item = .ok after) :
    after.taken = claims.taken ++ [item.1] := by
  rw [claim] at claimed
  split at claimed
  · cases claimed
  · rename_i free
    cases claimed
    exact Dict.keys_set_of_not_mem ((Dict.get?_eq_none_iff _ _).mp free) _

theorem returns_claim_iff {claims : Claims κ ω ν} {item : κ × ν} :
    Returns (claim refuse who claims item) ↔ (claims.taken ++ [item.1]).Nodup := by
  rw [← List.concat_eq_append, List.nodup_concat, taken, ← Dict.get?_eq_none_iff, claim]
  cases claims.owner.get? item.1 with
  | none => exact ⟨fun _ => ⟨rfl, claims.nodup_taken⟩, fun _ => returns_ok _⟩
  | some holder =>
      constructor
      · intro never
        exact absurd never (not_returns_error _)
      · intro free
        cases free.1

variable {ι : Type u} (read : ι → Except ε (κ × ν))

def claimEach (claims : Claims κ ω ν) (items : List ι) : Except ε (Claims κ ω ν) :=
  items.foldlM (fun claims item => do
    let pair ← read item
    claim refuse who claims pair) claims

theorem claimEach_cons {claims after : Claims κ ω ν} {item : ι} {rest : List ι} :
    claimEach refuse who read claims (item :: rest) = .ok after ↔
      ∃ pair next, read item = .ok pair ∧ claim refuse who claims pair = .ok next ∧
        claimEach refuse who read next rest = .ok after := by
  rw [claimEach, List.foldlM_cons, bind_eq_ok]
  constructor
  · rintro ⟨next, step, later⟩
    rcases of_bind step with ⟨pair, got, claimed⟩
    exact ⟨pair, next, got, claimed, later⟩
  · rintro ⟨pair, next, got, claimed, later⟩
    exact ⟨next, bind_eq_ok.mpr ⟨pair, got, claimed⟩, later⟩

theorem taken_of_claimEach {claims after : Claims κ ω ν} {items : List ι}
    (claimed : claimEach refuse who read claims items = .ok after) :
    ∃ pairs, items.mapM read = .ok pairs ∧ after.taken = claims.taken ++ Assoc.keys pairs := by
  induction items generalizing claims with
  | nil =>
      cases claimed
      exact ⟨[], rfl, (List.append_nil _).symm⟩
  | cons item rest ih =>
      rcases (claimEach_cons refuse who read).mp claimed with ⟨pair, next, got, first, later⟩
      rcases ih later with ⟨pairs, others, names⟩
      refine ⟨pair :: pairs, ?_, ?_⟩
      · rw [List.mapM_cons, got, bind_ok, others]
        rfl
      · rw [names, taken_of_claim refuse who first, List.append_assoc]
        rfl

theorem returns_claimEach {claims : Claims κ ω ν} {items : List ι} {pairs : List (κ × ν)}
    (all : items.mapM read = .ok pairs) (distinct : (claims.taken ++ Assoc.keys pairs).Nodup) :
    Returns (claimEach refuse who read claims items) := by
  induction items generalizing claims pairs with
  | nil => exact returns_ok _
  | cons item rest ih =>
      rw [List.mapM_cons] at all
      rcases of_bind all with ⟨pair, got, all⟩
      rcases of_bind all with ⟨others, later, same⟩
      cases same
      rw [Assoc.keys_cons, ← List.singleton_append, ← List.append_assoc] at distinct
      rcases (returns_claim_iff refuse who).mpr (List.nodup_append.mp distinct).1 with ⟨next, first⟩
      rw [← taken_of_claim refuse who first] at distinct
      rcases ih later distinct with ⟨after, rest⟩
      exact ⟨after, (claimEach_cons refuse who read).mpr ⟨pair, next, got, first, rest⟩⟩

theorem exists_own {claims after : Claims κ ω ν} {items : List ι}
    (claimed : claimEach refuse who read claims items = .ok after) :
    ∃ own, claimEach refuse who read empty items = .ok own ∧ after.taken = claims.taken ++ own.taken := by
  rcases taken_of_claimEach refuse who read claimed with ⟨pairs, all, names⟩
  have distinct : (claims.taken ++ Assoc.keys pairs).Nodup := names ▸ after.nodup_taken
  have alone : ((empty : Claims κ ω ν).taken ++ Assoc.keys pairs).Nodup :=
    (List.nodup_append.mp distinct).2.1
  rcases returns_claimEach refuse who read all alone with ⟨own, taken⟩
  rcases taken_of_claimEach refuse who read taken with ⟨again, also, same⟩
  cases all.symm.trans also
  exact ⟨own, taken, by rw [names, same, taken_empty, List.nil_append]⟩

theorem exists_after {claims own : Claims κ ω ν} {items : List ι}
    (alone : claimEach refuse who read empty items = .ok own)
    (distinct : (claims.taken ++ own.taken).Nodup) :
    ∃ after, claimEach refuse who read claims items = .ok after ∧
      after.taken = claims.taken ++ own.taken := by
  rcases taken_of_claimEach refuse who read alone with ⟨pairs, all, names⟩
  rw [names, taken_empty, List.nil_append] at distinct ⊢
  rcases returns_claimEach refuse who read all distinct with ⟨after, claimed⟩
  rcases taken_of_claimEach refuse who read claimed with ⟨again, also, same⟩
  cases all.symm.trans also
  exact ⟨after, claimed, same⟩

end Claims
