import Mathlib.Data.List.Induction
import PhysicalHarness.Lib.Dict

namespace PhysicalHarness
namespace Memo

/-!
# Tables of results

A table keeps the first result that was computed for a key and answers every later call with
that key from it.  What is computed may depend on the call and on a state that changes from
call to call; the key may not tell everything it depends on.
-/

variable {σ ι κ ν ε : Type} [DecidableEq κ]

/-- A look-up, which computes and keeps what is missing; an error is not kept. -/
def fetch (table : Dict κ ν) (key : κ) (compute : Except ε ν) : Except ε ν × Dict κ ν :=
  match table.get? key with
  | some value => (.ok value, table)
  | none =>
      match compute with
      | .ok value => (.ok value, table.set key value)
      | .error error => (.error error, table)

section

variable {table : Dict κ ν} {key other : κ} {value : ν} {compute : Except ε ν}

theorem fetch_of_known (known : table.get? key = some value) :
    fetch table key compute = (.ok value, table) := by
  unfold fetch
  rw [known]

theorem fetch_of_unknown (unknown : table.get? key = none) (computed : compute = .ok value) :
    fetch table key compute = (.ok value, table.set key value) := by
  unfold fetch
  rw [unknown, computed]

theorem get?_fetch_of_known (known : table.get? other = some value) :
    (fetch table key compute).2.get? other = some value := by
  unfold fetch
  split
  · exact known
  · rename_i unknown
    split
    · rw [Dict.get?_set]
      split
      · rename_i same
        rw [same, known] at unknown
        cases unknown
      · exact known
    · exact known

theorem get?_fetch {found : ν} (entry : (fetch table key compute).2.get? other = some found) :
    table.get? other = some found ∨ key = other ∧ table.get? other = none ∧ compute = .ok found := by
  unfold fetch at entry
  split at entry
  · exact Or.inl entry
  · rename_i unknown
    split at entry
    · rename_i value
      rw [Dict.get?_set] at entry
      split at entry
      · rename_i same
        cases entry
        exact Or.inr ⟨same, same ▸ unknown, rfl⟩
      · exact Or.inl entry
    · exact Or.inl entry

end

/-- A process whose calls share one table. -/
structure Process (σ ι κ ν ε : Type) [DecidableEq κ] where
  turn : σ → ι → σ
  table : σ → Dict κ ν
  key : ι → κ
  compute : σ → ι → Except ε ν
  fetches : ∀ state call, table (turn state call) =
    (fetch (table state) (key call) (compute state call)).2

namespace Process

variable (process : Process σ ι κ ν ε) (start : σ)

/-- The state after some calls. -/
def after (calls : List ι) : σ := calls.foldl process.turn start

def Makes (state : σ) (call : ι) (value : ν) : Prop :=
  (process.table state).get? (process.key call) = none ∧ process.compute state call = .ok value

variable {process start}

theorem after_append (calls later : List ι) :
    process.after start (calls ++ later) = process.after (process.after start calls) later :=
  List.foldl_append

theorem after_snoc (calls : List ι) (call : ι) :
    process.after start (calls ++ [call]) = process.turn (process.after start calls) call :=
  after_append calls [call]

theorem kept_after {state : σ} {key : κ} {value : ν} (known : (process.table state).get? key = some value)
    (calls : List ι) : (process.table (process.after state calls)).get? key = some value := by
  induction calls generalizing state with
  | nil => exact known
  | cons call rest ih =>
      apply ih
      rw [process.fetches]
      exact get?_fetch_of_known known

theorem known_of_makes {state : σ} {call : ι} {value : ν} (makes : process.Makes state call value) :
    (process.table (process.turn state call)).get? (process.key call) = some value := by
  rw [process.fetches, fetch_of_unknown makes.1 makes.2, Dict.get?_set, if_pos rfl]

theorem known_of_made {earlier between : List ι} {maker : ι} {value : ν}
    (makes : process.Makes (process.after start earlier) maker value) :
    (process.table (process.after start (earlier ++ maker :: between))).get? (process.key maker) =
      some value := by
  have split : earlier ++ maker :: between = (earlier ++ [maker]) ++ between := by
    rw [List.append_assoc, List.singleton_append]
  rw [split, after_append, after_snoc]
  exact kept_after (known_of_makes makes) between

theorem exists_maker {calls : List ι} {key : κ} {value : ν}
    (empty : (process.table start).get? key = none)
    (known : (process.table (process.after start calls)).get? key = some value) :
    ∃ earlier maker between, calls = earlier ++ maker :: between ∧ process.key maker = key ∧
      process.Makes (process.after start earlier) maker value := by
  induction calls using List.reverseRecOn with
  | nil =>
      change (process.table start).get? key = some value at known
      rw [empty] at known
      cases known
  | append_singleton calls call ih =>
      rw [after_snoc, process.fetches] at known
      rcases get?_fetch known with before | ⟨same, unknown, computed⟩
      · rcases ih before with ⟨earlier, maker, between, rfl, same, makes⟩
        refine ⟨earlier, maker, between ++ [call], ?_, same, makes⟩
        rw [List.append_assoc, List.cons_append]
      · exact ⟨calls, call, [], rfl, same, same ▸ unknown, computed⟩

end Process

end Memo
end PhysicalHarness
