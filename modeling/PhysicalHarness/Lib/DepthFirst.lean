import Mathlib.Data.List.Chain
import PhysicalHarness.Lib.Dict
import PhysicalHarness.Lib.Fallible
import PhysicalHarness.Lib.Finishing

/-!
# Depth-first search for a cycle

A node is marked while its walk is under way, and marked done when the walk is over.  Coming upon a
node whose walk is under way closes a cycle, which is the end of the path there.  The nodes that are done have a finishing order, so a
search that comes to its end has found the relation acyclic.  Each nested walk marks one more node,
so as many nested walks as there are nodes are enough.
-/

universe u

namespace DepthFirst

open Finishing Fallible

inductive Mark where
  | onStack
  | done
  deriving DecidableEq

inductive Stuck (α : Type u) where
  | cycle (nodes : List α)
  | outOfFuel

section

variable {α : Type u} [DecidableEq α] (next : α → List α)

abbrev Marks (α : Type u) := Dict α Mark

def visit : Nat → α → List α → Marks α → Except (Stuck α) (Marks α)
  | 0, _, _, _ => .error .outOfFuel
  | fuel + 1, node, path, marks =>
      match marks.get? node with
      | some .done => .ok marks
      | some .onStack => .error (.cycle (path.dropWhile (fun other => decide (other ≠ node)) ++ [node]))
      | none => do
          let below ← (next node).foldlM (fun marks a => visit fuel a (path ++ [node]) marks)
            (marks.set node .onStack)
          return below.set node .done

def search (nodes : List α) : Except (Stuck α) (Marks α) :=
  nodes.foldlM (fun marks node => visit next (nodes.length + 1) node [] marks) Dict.empty

def Marked (marks : Marks α) : Prop :=
  ∃ order, Finished next order ∧ ∀ node, node ∈ order ↔ marks.get? node = some .done

structure Leaves (marks marks' : Marks α) : Prop where
  marked : Marked next marks → Marked next marks'
  done : ∀ node, marks.get? node = some .done → marks'.get? node = some .done
  onStack : ∀ node, marks'.get? node = some .onStack ↔ marks.get? node = some .onStack

theorem leaves_refl (marks : Marks α) : Leaves next marks marks :=
  ⟨id, fun _ => id, fun _ => Iff.rfl⟩

variable {next}

theorem Leaves.trans {first second third : Marks α} (left : Leaves next first second)
    (right : Leaves next second third) : Leaves next first third where
  marked := fun marked => right.marked (left.marked marked)
  done := fun node here => right.done node (left.done node here)
  onStack := fun node => (right.onStack node).trans (left.onStack node)

theorem foldlM_leaves {walk : Marks α → α → Except (Stuck α) (Marks α)}
    (each : ∀ marks a marks', walk marks a = .ok marks' →
      Leaves next marks marks' ∧ marks'.get? a = some .done)
    (nodes : List α) (marks marks' : Marks α) (walked : nodes.foldlM walk marks = .ok marks') :
    Leaves next marks marks' ∧ ∀ a ∈ nodes, marks'.get? a = some .done := by
  induction nodes generalizing marks with
  | nil =>
      cases walked
      exact ⟨leaves_refl next _, fun a mem => absurd mem List.not_mem_nil⟩
  | cons a rest ih =>
      rw [List.foldlM_cons] at walked
      rcases of_bind walked with ⟨between, first, others⟩
      rcases each marks a between first with ⟨here, finished⟩
      rcases ih between others with ⟨later, all⟩
      refine ⟨here.trans later, List.forall_mem_cons.mpr ⟨?_, all⟩⟩
      exact later.done a finished

variable {marks : Marks α} {nodes : List α}

theorem leaves_done {below : Marks α} {node : α} (fresh : marks.get? node = none)
    (under : Leaves next (marks.set node .onStack) below)
    (all : ∀ a ∈ next node, below.get? a = some .done) :
    Leaves next marks (below.set node .done) := by
  refine ⟨?_, ?_, ?_⟩
  · rintro ⟨order, finished, listed⟩
    have started : Marked next (marks.set node .onStack) := by
      refine ⟨order, finished, fun a => ?_⟩
      rw [listed a, Dict.get?_set]
      by_cases same : node = a
      · subst same
        rw [if_pos rfl, fresh]
        constructor
        · exact nofun
        · exact nofun
      · rw [if_neg same]
    rcases under.marked started with ⟨order', finished', listed'⟩
    refine ⟨order' ++ [node], finished'.snoc (fun a edge => (listed' a).mpr (all a edge)), ?_⟩
    intro a
    rw [List.mem_append, List.mem_singleton, listed' a, Dict.get?_set]
    by_cases same : node = a
    · rw [if_pos same]
      exact ⟨fun _ => rfl, fun _ => Or.inr same.symm⟩
    · rw [if_neg same]
      exact or_iff_left (Ne.symm same)
  · intro a here
    have apart : node ≠ a := by
      rintro rfl
      cases fresh.symm.trans here
    rw [Dict.get?_set, if_neg apart]
    apply under.done
    rw [Dict.get?_set, if_neg apart, here]
  · intro a
    rw [Dict.get?_set]
    by_cases same : node = a
    · rw [if_pos same, ← same, fresh]
      exact ⟨nofun, nofun⟩
    · rw [if_neg same, under.onStack, Dict.get?_set, if_neg same]

theorem visit_leaves (fuel : Nat) (node : α) (path : List α) {marks' : Marks α}
    (walked : visit next fuel node path marks = .ok marks') :
    Leaves next marks marks' ∧ marks'.get? node = some .done := by
  induction fuel generalizing node path marks marks' with
  | zero => cases walked
  | succ fuel ih =>
      rw [visit] at walked
      rcases marked : marks.get? node with _ | mark
      · rw [marked] at walked
        rcases of_bind walked with ⟨below, nested, finished⟩
        cases finished
        rcases foldlM_leaves (fun marks a marks' here => ih a _ here) _ _ _ nested with ⟨under, all⟩
        refine ⟨leaves_done marked under all, ?_⟩
        rw [Dict.get?_set, if_pos rfl]
      · rw [marked] at walked
        cases mark with
        | onStack => cases walked
        | done =>
            cases walked
            exact ⟨leaves_refl next _, marked⟩

theorem exists_finished_of_search (ended : search next nodes = .ok marks) :
    ∃ order, Finished next order ∧ ∀ node ∈ nodes, node ∈ order := by
  rcases foldlM_leaves (fun _ node _ here => visit_leaves _ node [] here) _ _ _ ended with
    ⟨leaves, all⟩
  have start : Marked next Dict.empty := by
    refine ⟨[], finished_nil next, fun node => ?_⟩
    constructor
    · intro mem
      exact absurd mem List.not_mem_nil
    · exact nofun
  rcases leaves.marked start with ⟨order, finished, listed⟩
  exact ⟨order, finished, fun node mem => (listed node).mpr (all node mem)⟩

/-- The nodes that no walk has come to. -/
def fresh (nodes : List α) (marks : Marks α) : Nat :=
  nodes.countP (fun node => decide (marks.get? node = none))

theorem fresh_le_of_leaves {marks' : Marks α} (leaves : Leaves next marks marks') :
    fresh nodes marks' ≤ fresh nodes marks := by
  apply List.countP_mono_left
  intro node _ here
  rw [decide_eq_true_iff] at here ⊢
  rcases marked : marks.get? node with _ | mark
  · rfl
  · cases mark with
    | onStack => cases here.symm.trans ((leaves.onStack node).mpr marked)
    | done => cases here.symm.trans (leaves.done node marked)

theorem fresh_set_lt {node : α} (known : node ∈ nodes) (unmarked : marks.get? node = none)
    (mark : Mark) :
    fresh nodes (marks.set node mark) < fresh nodes marks := by
  rcases List.append_of_mem known with ⟨first, rest, rfl⟩
  have fewer : ∀ part : List α, fresh part (marks.set node mark) ≤ fresh part marks := by
    intro part
    apply List.countP_mono_left
    intro a _ here
    rw [decide_eq_true_iff, Dict.get?_set] at here
    rw [decide_eq_true_iff]
    split at here
    · cases here
    · exact here
  have left := fewer first
  have right := fewer rest
  have here : (marks.set node mark).get? node = some mark := by rw [Dict.get?_set, if_pos rfl]
  simp only [fresh, List.countP_append, List.countP_cons, here, unmarked] at left right ⊢
  simp [-Dict.get?_set]
  omega

/-- A loop stops at one of its nodes. -/
theorem foldlM_stuck {walk : Marks α → α → Except (Stuck α) (Marks α)} {stuck : Stuck α}
    (leaves : ∀ marks a marks', walk marks a = .ok marks' → Leaves next marks marks')
    (stopped : nodes.foldlM walk marks = .error stuck) :
    ∃ a ∈ nodes, ∃ between, Leaves next marks between ∧ walk between a = .error stuck := by
  induction nodes generalizing marks with
  | nil => cases stopped
  | cons a rest ih =>
      rw [List.foldlM_cons] at stopped
      rcases bind_eq_error.mp stopped with here | ⟨between, first, later⟩
      · exact ⟨a, .head _, marks, leaves_refl next _, here⟩
      · rcases ih later with ⟨b, mem, last, passed, there⟩
        exact ⟨b, .tail a mem, last, (leaves marks a between first).trans passed, there⟩

theorem visit_ne_outOfFuel (closed : ∀ node ∈ nodes, ∀ a ∈ next node, a ∈ nodes) (fuel : Nat)
    (node : α) (path : List α) (marks : Marks α) (known : node ∈ nodes)
    (enough : fresh nodes marks < fuel) : visit next fuel node path marks ≠ .error .outOfFuel := by
  induction fuel generalizing node path marks with
  | zero => exact absurd enough (Nat.not_lt_zero _)
  | succ fuel ih =>
      rw [visit]
      rcases marked : marks.get? node with _ | mark
      · intro stuck
        rcases bind_eq_error.mp stuck with nested | ⟨_, _, never⟩
        · rcases foldlM_stuck (fun _ a _ here => (visit_leaves fuel a _ here).1) nested with
            ⟨a, edge, between, leaves, there⟩
          refine ih a _ between (closed node known a edge) ?_ there
          have fewer := (fresh_le_of_leaves leaves).trans_lt (fresh_set_lt known marked .onStack)
          omega
        · cases never
      · cases mark <;> exact nofun

theorem search_ne_outOfFuel (closed : ∀ node ∈ nodes, ∀ a ∈ next node, a ∈ nodes) :
    search next nodes ≠ .error .outOfFuel := by
  intro stopped
  rcases foldlM_stuck (fun _ node _ here => (visit_leaves _ node [] here).1) stopped with
    ⟨a, mem, between, _, there⟩
  exact visit_ne_outOfFuel closed _ a [] between mem (Nat.lt_succ_of_le List.countP_le_length) there

/-- The relation leads from a node over the others back to it. -/
def Cycle (next : α → List α) (nodes : List α) : Prop :=
  nodes.IsChain (fun a b => b ∈ next a) ∧ ∃ node inner, nodes = node :: inner ++ [node]

theorem cycle_of_visit {fuel : Nat} {node : α} {path around : List α}
    (walk : (path ++ [node]).IsChain (fun a b => b ∈ next a))
    (stack : ∀ a, marks.get? a = some .onStack ↔ a ∈ path)
    (stuck : visit next fuel node path marks = .error (.cycle around)) : Cycle next around := by
  induction fuel generalizing node path marks with
  | zero => cases stuck
  | succ fuel ih =>
      rw [visit] at stuck
      rcases marked : marks.get? node with _ | mark
      · rw [marked] at stuck
        rcases bind_eq_error.mp stuck with nested | ⟨_, _, never⟩
        · rcases foldlM_stuck (fun _ a _ here => (visit_leaves fuel a _ here).1) nested with
            ⟨a, edge, between, leaves, there⟩
          refine ih ?_ (fun other => ?_) there
          · rw [List.append_assoc]
            exact List.isChain_append_cons_cons.mpr ⟨walk, edge, List.IsChain.singleton _⟩
          · rw [leaves.onStack, Dict.get?_set, List.mem_append, List.mem_singleton]
            by_cases same : node = other
            · rw [if_pos same]
              exact ⟨fun _ => .inr same.symm, fun _ => rfl⟩
            · rw [if_neg same, stack, or_iff_left (Ne.symm same)]
        · cases never
      · rw [marked] at stuck
        cases mark with
        | onStack =>
            rcases List.eq_append_cons_of_mem ((stack node).mp marked) with ⟨before, inner, rfl, apart⟩
            cases stuck
            rw [List.append_assoc] at walk
            rw [List.dropWhile_append_of_pos, List.dropWhile_cons_of_neg]
            · exact ⟨walk.right_of_append, node, inner, rfl⟩
            · simp
            · intro other mem
              rw [decide_eq_true_eq]
              rintro rfl
              exact apart mem
        | done => cases stuck

theorem cycle_of_search {around : List α} (stuck : search next nodes = .error (.cycle around)) :
    Cycle next around := by
  rcases foldlM_stuck (fun _ node _ here => (visit_leaves _ node [] here).1) stuck with
    ⟨a, _, between, leaves, there⟩
  refine cycle_of_visit (List.IsChain.singleton a) (fun node => ?_) there
  rw [leaves.onStack]
  exact ⟨nofun, nofun⟩

end

end DepthFirst
