import Mathlib.Data.Finset.Card
import Mathlib.Data.List.Basic
import PhysicalHarness.Lib.Loop

/-!
# Finishing orders

A depth-first walk lists a node when the walk below it is over.  Where it meets no cycle, every
node stands after the nodes that it points to, and such a list is a proof that the relation has
no cycle.  Conversely a relation without cycles into finitely many nodes has a rank, which is all
that a walk needs in order to meet none.
-/

universe u

namespace Finishing

open Relation (TransGen)
open Loop

variable {α : Type u}

def Finished (next : α → List α) (order : List α) : Prop :=
  Always (fun past node => ∀ a ∈ next node, a ∈ past) order

theorem finished_nil (next : α → List α) : Finished next [] := always_nil _

theorem Finished.snoc {next : α → List α} {order : List α} (finished : Finished next order)
    {node : α} (below : ∀ a ∈ next node, a ∈ order) : Finished next (order ++ [node]) :=
  Always.snoc finished below

theorem Finished.idxOf_lt [DecidableEq α] {next : α → List α} {order : List α}
    (finished : Finished next order) {node a : α} (listed : node ∈ order) (edge : a ∈ next node) :
    order.idxOf a < order.idxOf node := by
  rcases List.eq_append_cons_of_mem listed with ⟨first, rest, split, fresh⟩
  have below : a ∈ first := finished first node rest split a edge
  have place : order.idxOf node = first.length := by
    rw [split, List.idxOf_append_of_notMem fresh, List.idxOf_cons_self, Nat.add_zero]
  rw [place, split, List.idxOf_append_of_mem below]
  exact List.idxOf_lt_length_of_mem below

variable {edge : α → α → Prop}

theorem rank_lt_of_transGen {rank : α → Nat} (lower : ∀ a b, edge a b → rank a < rank b) {a b : α}
    (path : TransGen edge a b) :
    rank a < rank b := by
  induction path with
  | single step => exact lower _ _ step
  | tail _ step ih => exact Nat.lt_trans ih (lower _ _ step)

theorem acyclic_of_rank {rank : α → Nat} (lower : ∀ a b, edge a b → rank a < rank b) (node : α) :
    ¬ TransGen edge node node :=
  fun cycle => Nat.lt_irrefl _ (rank_lt_of_transGen lower cycle)

/-- A relation out of finitely many nodes without a cycle lowers a rank: the number of nodes that
lead to a node. -/
theorem exists_rank {nodes : List α} (known : ∀ a b, edge a b → a ∈ nodes)
    (acyclic : ∀ node, ¬ TransGen edge node node) :
    ∃ rank : α → Nat, ∀ a b, edge a b → rank a < rank b := by
  classical
  refine ⟨fun node => (nodes.toFinset.filter (fun other => TransGen edge other node)).card, ?_⟩
  intro a b step
  apply Finset.card_lt_card
  rw [Finset.ssubset_iff_of_subset]
  · refine ⟨a, ?_, ?_⟩
    · rw [Finset.mem_filter, List.mem_toFinset]
      exact ⟨known a b step, TransGen.single step⟩
    · intro mem
      exact acyclic a (Finset.mem_filter.mp mem).2
  · intro other mem
    rw [Finset.mem_filter] at mem ⊢
    exact ⟨mem.1, mem.2.tail step⟩

end Finishing
