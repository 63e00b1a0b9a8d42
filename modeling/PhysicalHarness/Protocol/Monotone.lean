import Mathlib.Data.List.Dedup
import PhysicalHarness.Protocol.Ancestors
import PhysicalHarness.Protocol.Replan

namespace PhysicalHarness
namespace Protocol

open Python

/-!
# What a monotone replan preserves

`replan_monotone` collects its problems as texts.  Read as a statement, an empty
list says that every finished node is in both graphs with the same call and the
same identity, depends on finished nodes only, and that the finished nodes of
the old graph open the new one in their order.
-/

/-- Finished nodes keep their identity and form the same ordered prefix. -/
structure Preserves (old new : ExecutionGraph) (done : List String) : Prop where
  each : ∀ d ∈ done, ∃ before now, nodeAt old d = some before ∧ nodeAt new d = some now ∧
    sameCall now before = true ∧ sameIdentity now before = true ∧ unfinished done now = []
  order : actualPrefix old new done = expectedPrefix old done

theorem nodeAt_of_mem {graph : ExecutionGraph} (distinct : (graph.nodes.map Node.id).Nodup)
    {node : Node} (mem : node ∈ graph.nodes) : nodeAt graph node.id = some node := by
  unfold nodeAt
  cases found : graph.nodes.reverse.find? (fun other => other.id = node.id) with
  | none =>
      have absent := List.find?_eq_none.mp found node (List.mem_reverse.mpr mem)
      simp at absent
  | some other =>
      have matched := List.find?_some found
      have same : other.id = node.id := of_decide_eq_true matched
      have otherMember := List.mem_reverse.mp (List.mem_of_find?_eq_some found)
      rw [List.inj_on_of_nodup_map distinct otherMember mem same]

theorem mem_of_nodeAt {graph : ExecutionGraph} {id : String} {node : Node}
    (found : nodeAt graph id = some node) : node ∈ graph.nodes ∧ node.id = id := by
  unfold nodeAt at found
  have matched := List.find?_some found
  exact ⟨List.mem_reverse.mp (List.mem_of_find?_eq_some found), of_decide_eq_true matched⟩

variable [Host]

variable {old new : ExecutionGraph} {done : List String}

theorem doneProblems_eq_nil_iff {d : String} :
    doneProblems old new done d = [] ↔
      ∃ before now, nodeAt old d = some before ∧ nodeAt new d = some now ∧
        sameCall now before = true ∧ sameIdentity now before = true ∧
          unfinished done now = [] := by
  unfold doneProblems
  cases nodeAt old d with
  | none => simp
  | some before =>
      cases nodeAt new d with
      | none => simp
      | some now =>
          cases call : sameCall now before <;> cases identity : sameIdentity now before <;>
            by_cases free : unfinished done now = [] <;> simp [free, call, identity]

theorem prefixProblems_eq_nil_iff (known : ∀ d ∈ done, (nodeAt old d).isSome)
    (kept : ∀ d ∈ done, (nodeAt new d).isSome) :
    prefixProblems old new done = [] ↔ actualPrefix old new done = expectedPrefix old done := by
  unfold prefixProblems
  rw [if_pos ⟨known, kept⟩]
  by_cases same : actualPrefix old new done = expectedPrefix old done <;> simp [same]

theorem replanMonotone_iff (old new : ExecutionGraph) (done : List String) :
    (replanMonotone old new done).2 = [] ↔ Preserves old new done := by
  have members : ∀ d, d ∈ sorted done.dedup ↔ d ∈ done := by
    intro d
    rw [sorted, List.mem_insertionSort, List.mem_dedup]
  unfold replanMonotone
  dsimp only
  rw [List.append_eq_nil_iff, List.flatMap_eq_nil_iff]
  simp only [members, doneProblems_eq_nil_iff]
  constructor
  · rintro ⟨each, ordered⟩
    refine ⟨each, (prefixProblems_eq_nil_iff ?_ ?_).mp ordered⟩
    · intro d mem
      obtain ⟨before, _, found, _⟩ := each d mem
      rw [found]
      rfl
    · intro d mem
      obtain ⟨_, now, _, found, _⟩ := each d mem
      rw [found]
      rfl
  · rintro ⟨each, order⟩
    refine ⟨each, (prefixProblems_eq_nil_iff ?_ ?_).mpr order⟩
    · intro d mem
      obtain ⟨before, _, found, _⟩ := each d mem
      rw [found]
      rfl
    · intro d mem
      obtain ⟨_, now, _, found, _⟩ := each d mem
      rw [found]
      rfl

theorem replanMonotone_fst (old new : ExecutionGraph) (done : List String) :
    (replanMonotone old new done).1 = true ↔ (replanMonotone old new done).2 = [] :=
  List.isEmpty_iff

omit [Host] in
theorem Preserves.getElem (preserves : Preserves old new done)
    (distinct : (old.nodes.map Node.id).Nodup) (fresh : (new.nodes.map Node.id).Nodup)
    (complete : ∀ node ∈ old.nodes, node.id ∈ done) {i : Nat} (bound : i < old.nodes.length) :
    ∃ inside : i < new.nodes.length,
      new.nodes[i].id = old.nodes[i].id ∧ sameCall new.nodes[i] old.nodes[i] = true ∧
        sameIdentity new.nodes[i] old.nodes[i] = true := by
  have all : expectedPrefix old done = old.nodes.map Node.id := by
    rw [expectedPrefix, List.filter_eq_self]
    intro id mem
    obtain ⟨node, nodeMember, same⟩ := List.mem_map.mp mem
    exact decide_eq_true (same ▸ complete node nodeMember)
  have order := preserves.order
  rw [actualPrefix, all, List.length_map] at order
  have longer : old.nodes.length ≤ new.nodes.length := by
    have lengths := congrArg List.length order
    rw [List.length_take, List.length_map, List.length_map] at lengths
    omega
  have inside : i < new.nodes.length := Nat.lt_of_lt_of_le bound longer
  have sameId : new.nodes[i].id = old.nodes[i].id := by
    have here := congrArg (fun ids => ids[i]?) order
    rw [List.getElem?_take_of_lt bound, List.getElem?_map, List.getElem?_map,
      List.getElem?_eq_getElem inside, List.getElem?_eq_getElem bound] at here
    exact Option.some.inj here
  have oldMember := List.getElem_mem bound
  have newMember := List.getElem_mem inside
  obtain ⟨before, now, foundOld, foundNew, call, identity, _⟩ :=
    preserves.each _ (complete _ oldMember)
  rw [nodeAt_of_mem distinct oldMember] at foundOld
  rw [← sameId, nodeAt_of_mem fresh newMember] at foundNew
  cases foundOld
  cases foundNew
  exact ⟨inside, sameId, call, identity⟩

section

omit [Host]

def SameNode (before now : Node) : Prop :=
  now.id = before.id ∧ sameCall now before = true ∧ sameIdentity now before = true

theorem expectedPrefix_of_front {old : ExecutionGraph} {done : List String} {k : Nat}
    (distinct : (old.nodes.map Node.id).Nodup)
    (finished : ∀ id, id ∈ done ↔ id ∈ (old.nodes.take k).map Node.id) :
    expectedPrefix old done = (old.nodes.take k).map Node.id := by
  have whole : old.nodes.map Node.id =
      (old.nodes.take k).map Node.id ++ (old.nodes.drop k).map Node.id := by
    rw [← List.map_append, List.take_append_drop]
  rw [whole] at distinct
  rw [expectedPrefix, whole, List.filter_append]
  have front : ((old.nodes.take k).map Node.id).filter (fun id => id ∈ done) =
      (old.nodes.take k).map Node.id :=
    List.filter_eq_self.mpr (fun id mem => decide_eq_true ((finished id).mpr mem))
  have back : ((old.nodes.drop k).map Node.id).filter (fun id => id ∈ done) = [] := by
    refine List.filter_eq_nil_iff.mpr (fun id mem => ?_)
    rw [decide_eq_true_eq, finished]
    intro inFront
    exact (List.nodup_append.mp distinct).2.2 id inFront id mem rfl
  rw [front, back, List.append_nil]

/-- A graph in order that opens with the finished nodes of the old one preserves
the finished work. -/
theorem preserves_of_front {old new : ExecutionGraph} {done : List String} {k : Nat}
    (distinct : (old.nodes.map Node.id).Nodup) (inOrder : InOrder new.nodes)
    (front : List.Forall₂ SameNode (old.nodes.take k) (new.nodes.take k))
    (finished : ∀ id, id ∈ done ↔ id ∈ (old.nodes.take k).map Node.id) :
    Preserves old new done := by
  have sameIds : (new.nodes.take k).map Node.id = (old.nodes.take k).map Node.id :=
    Fallible.map_eq_of_forall₂ front (fun _ _ same => same.1)
  have expected := expectedPrefix_of_front distinct finished
  constructor
  · intro d mem
    obtain ⟨before, beforeMember, sameId⟩ := List.mem_map.mp ((finished d).mp mem)
    obtain ⟨i, bound, beforeAt⟩ := List.getElem_of_mem beforeMember
    have inside : i < (new.nodes.take k).length := front.length_eq ▸ bound
    have same := front.get bound inside
    simp only [List.get_eq_getElem, beforeAt] at same
    have nowMember : (new.nodes.take k)[i] ∈ new.nodes :=
      List.take_subset _ _ (List.getElem_mem inside)
    refine ⟨before, (new.nodes.take k)[i], ?_, ?_, same.2.1, same.2.2, ?_⟩
    · rw [← sameId]
      exact nodeAt_of_mem distinct (List.take_subset _ _ beforeMember)
    · rw [← sameId, ← same.1]
      exact nodeAt_of_mem inOrder.distinct nowMember
    · refine List.filter_eq_nil_iff.mpr (fun a depends => ?_)
      rw [decide_eq_true_eq, not_not, finished, ← sameIds]
      have split : new.nodes = (new.nodes.take k).take i ++ (new.nodes.take k)[i] ::
          ((new.nodes.take k).drop (i + 1) ++ new.nodes.drop k) := by
        rw [← List.cons_append, ← List.drop_eq_getElem_cons inside, ← List.append_assoc,
          List.take_append_drop, List.take_append_drop]
      exact List.map_subset _ (List.take_subset _ _) (inOrder.earlier _ _ _ split a depends)
  · rw [actualPrefix, expected, ← sameIds, List.length_map, ← List.map_take]
    congr 1
    rw [List.length_take]
    rcases Nat.le_total k new.nodes.length with shorter | longer
    · rw [Nat.min_eq_left shorter]
    · rw [Nat.min_eq_right longer, List.take_length, List.take_of_length_le longer]

end

end Protocol
end PhysicalHarness
