import Mathlib.Data.Set.Basic
import Mathlib.Data.List.Nodup

/-!
# Causal links in partially ordered plans

A partially ordered plan fixes some precedences between its actions and leaves
the rest open; a scheduler then runs them in any order that respects the fixed
ones.  An atom needed by an action is safe in all these orders at once when it
has a supporter and every action that deletes the atom is kept out of the
interval between supporter and consumer by the fixed precedences alone.

Nothing here mentions a particular plan format.  An action is an arbitrary
index, its effects are two sets of atoms, and `Before` is any relation that the
order is known to respect.
-/

namespace CausalLink

variable {ι α : Type*}

/-- What running an action deletes and adds; additions win over deletions. -/
structure Effects (ι α : Type*) where
  add : ι → Set α
  del : ι → Set α

variable (effects : Effects ι α)

def step (state : Set α) (action : ι) : Set α :=
  (state \ effects.del action) ∪ effects.add action

/-- The state after running a list of actions from left to right. -/
def exec (state : Set α) (order : List ι) : Set α :=
  order.foldl (step effects) state

@[simp] theorem exec_nil (state : Set α) : exec effects state [] = state := rfl

@[simp] theorem exec_cons (state : Set α) (action : ι) (rest : List ι) :
    exec effects state (action :: rest) =
      exec effects (step effects state action) rest := rfl

theorem exec_append (state : Set α) (first second : List ι) :
    exec effects state (first ++ second) =
      exec effects (exec effects state first) second :=
  List.foldl_append

variable {effects}

theorem mem_step_of_not_deleted {state : Set α} {action : ι} {atom : α}
    (held : atom ∈ state) (kept : atom ∉ effects.del action) :
    atom ∈ step effects state action :=
  Or.inl ⟨held, kept⟩

theorem mem_step_of_added {state : Set α} {action : ι} {atom : α}
    (added : atom ∈ effects.add action) : atom ∈ step effects state action :=
  Or.inr added

theorem mem_exec_of_undeleted {atom : α} (order : List ι) {state : Set α}
    (held : atom ∈ state) (kept : ∀ action ∈ order, atom ∉ effects.del action) :
    atom ∈ exec effects state order := by
  induction order generalizing state with
  | nil => exact held
  | cons action rest ih =>
      rw [exec_cons]
      apply ih
      · exact mem_step_of_not_deleted held (kept action (.head _))
      · intro later mem
        exact kept later (.tail action mem)

theorem mem_exec_of_supporter {atom : α} {state : Set α} {supporter : ι}
    (before after : List ι) (added : atom ∈ effects.add supporter)
    (kept : ∀ action ∈ after, atom ∉ effects.del action) :
    atom ∈ exec effects state (before ++ supporter :: after) := by
  rw [exec_append, exec_cons]
  exact mem_exec_of_undeleted after (mem_step_of_added added) kept

variable [DecidableEq ι]

/-- A duplicate-free order in which `Before` always points forwards. -/
structure Respects (Before : ι → ι → Prop) (order : List ι) : Prop where
  nodup : order.Nodup
  forward : ∀ first second, Before first second → first ∈ order → second ∈ order →
    order.idxOf first < order.idxOf second

namespace Respects

variable {Before : ι → ι → Prop} {order : List ι}

variable {second first : List ι}

theorem not_before_of_split (respects : Respects Before order) {pivot : ι}
    (split : order = first ++ pivot :: second) {later : ι} (mem : later ∈ second) :
    ¬ Before later pivot := by
  intro before
  subst split
  have disjoint := List.nodup_append.mp respects.nodup
  have pivotFresh : pivot ∉ first := fun held =>
    disjoint.2.2 pivot held pivot (.head _) rfl
  have laterFresh : later ∉ first := fun held =>
    disjoint.2.2 later held later (.tail _ mem) rfl
  have inOrder := respects.forward later pivot before
    (List.mem_append_right _ (.tail _ mem))
    (List.mem_append_right _ (.head _))
  rw [List.idxOf_append_of_notMem laterFresh, List.idxOf_append_of_notMem pivotFresh,
    List.idxOf_cons_self] at inOrder
  omega

theorem mem_first_of_before (respects : Respects Before order) {pivot : ι}
    (split : order = first ++ pivot :: second) {earlier : ι} (mem : earlier ∈ order)
    (before : Before earlier pivot) : earlier ∈ first := by
  have pieces := split ▸ mem
  rcases List.mem_append.mp pieces with inFirst | inRest
  · exact inFirst
  · rcases List.mem_cons.mp inRest with same | inSecond
    · subst same
      have inOrder := respects.forward earlier earlier before mem mem
      omega
    · exact absurd before (respects.not_before_of_split split inSecond)

/-- Everything between a supporter and the point where its atom is read is
neither the supporter nor the reader. -/
theorem ne_of_split (respects : Respects Before order) {pivot : ι}
    (split : order = first ++ pivot :: second) {other : ι} (mem : other ∈ second) :
    other ≠ pivot := by
  have nodup := split ▸ respects.nodup
  intro same
  have tail := List.nodup_cons.mp (List.nodup_append.mp nodup).2.1
  exact tail.1 (same ▸ mem)

end Respects

section Safety

variable {Before : ι → ι → Prop} {order : List ι} {state : Set α} {atom : α}

variable {second first : List ι}

/-- An initial atom is still there when a consumer is reached if every deleter
is the consumer itself or kept after it. -/
theorem initial_link (respects : Respects Before order) {consumer : ι}
    (split : order = first ++ consumer :: second) (held : atom ∈ state)
    (safe : ∀ action ∈ order, atom ∈ effects.del action →
      action = consumer ∨ Before consumer action) :
    atom ∈ exec effects state first := by
  apply mem_exec_of_undeleted first held
  intro action mem deletes
  have inOrder : action ∈ order := split ▸ List.mem_append_left _ mem
  have disjoint := (List.nodup_append.mp (split ▸ respects.nodup)).2.2
  rcases safe action inOrder deletes with same | after
  · exact disjoint action mem consumer (.head _) same
  · have pieces := List.append_of_mem mem
    obtain ⟨left, right, cut⟩ := pieces
    have consumerLater : consumer ∈ right ++ consumer :: second :=
      List.mem_append_right _ (.head _)
    have resplit : order = left ++ action :: (right ++ consumer :: second) := by
      rw [split, cut, List.append_assoc, List.cons_append]
    exact respects.not_before_of_split resplit consumerLater after

/-- A supported atom is there when its consumer is reached if every deleter is
the supporter, the consumer, or kept outside the interval between them. -/
theorem supporter_link (respects : Respects Before order) {consumer : ι}
    (split : order = first ++ consumer :: second) {supporter : ι} (mem : supporter ∈ order)
    (before : Before supporter consumer) (added : atom ∈ effects.add supporter)
    (safe : ∀ action ∈ order, atom ∈ effects.del action →
      action = supporter ∨ action = consumer ∨ Before action supporter ∨
        Before consumer action) :
    atom ∈ exec effects state first := by
  obtain ⟨left, right, cut⟩ :=
    List.append_of_mem (respects.mem_first_of_before split mem before)
  rw [cut]
  apply mem_exec_of_supporter left right added
  intro action between deletes
  have inFirst : action ∈ first :=
    cut ▸ List.mem_append_right _ (List.mem_cons_of_mem _ between)
  have inOrder : action ∈ order := split ▸ List.mem_append_left _ inFirst
  have atSupporter : order = left ++ supporter :: (right ++ consumer :: second) := by
    rw [split, cut, List.append_assoc, List.cons_append]
  have afterSupporter : action ∈ right ++ consumer :: second := List.mem_append_left _ between
  rcases safe action inOrder deletes with same | same | earlier | later
  · exact respects.ne_of_split atSupporter afterSupporter same
  · exact (List.nodup_append.mp (split ▸ respects.nodup)).2.2 action inFirst consumer
      (.head _) same
  · exact respects.not_before_of_split atSupporter afterSupporter earlier
  · obtain ⟨prior, rest, cutAction⟩ := List.append_of_mem inFirst
    have atAction : order = prior ++ action :: (rest ++ consumer :: second) := by
      rw [split, cutAction, List.append_assoc, List.cons_append]
    exact respects.not_before_of_split atAction
      (List.mem_append_right _ (.head _)) later

/-- A group's atom is there right after its last member if every deleter is the
supporter, runs before the supporter, or runs after the whole group. -/
theorem group_link (respects : Respects Before order) {last : ι}
    (split : order = first ++ last :: second) {members : List ι}
    (inside : ∀ action ∈ members, action ∈ first ++ [last]) {supporter : ι}
    (mem : supporter ∈ members) (lastMember : last ∈ members)
    (added : atom ∈ effects.add supporter)
    (safe : ∀ action ∈ order, atom ∈ effects.del action →
      action = supporter ∨ Before action supporter ∨
        ∀ other ∈ members, Before other action) :
    atom ∈ exec effects state (first ++ [last]) := by
  obtain ⟨left, right, cut⟩ := List.append_of_mem (inside supporter mem)
  have whole : order = (first ++ [last]) ++ second := by
    rw [split, List.append_assoc, List.singleton_append]
  have atSupporter : order = left ++ supporter :: (right ++ second) := by
    rw [whole, cut, List.append_assoc, List.cons_append]
  rw [cut]
  apply mem_exec_of_supporter left right added
  intro action between deletes
  have inInterval : action ∈ first ++ [last] :=
    cut ▸ List.mem_append_right _ (List.mem_cons_of_mem _ between)
  have inOrder : action ∈ order := whole ▸ List.mem_append_left _ inInterval
  have afterSupporter : action ∈ right ++ second := List.mem_append_left _ between
  rcases safe action inOrder deletes with same | earlier | afterAll
  · exact respects.ne_of_split atSupporter afterSupporter same
  · exact respects.not_before_of_split atSupporter afterSupporter earlier
  · -- The last mem of the group would have to precede an action inside the interval.
    rcases List.mem_append.mp inInterval with inFirst | atLast
    · obtain ⟨prior, rest, cutAction⟩ := List.append_of_mem inFirst
      have atAction : order = prior ++ action :: (rest ++ last :: second) := by
        rw [split, cutAction, List.append_assoc, List.cons_append]
      exact respects.not_before_of_split atAction
        (List.mem_append_right _ (.head _)) (afterAll last lastMember)
    · have same : action = last := List.mem_singleton.mp atLast
      have selfBefore := respects.forward last action (afterAll last lastMember)
        (same ▸ inOrder) inOrder
      rw [same] at selfBefore
      omega

end Safety

end CausalLink
