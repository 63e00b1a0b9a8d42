import PhysicalHarness.Protocol.Monotone
import PhysicalHarness.Task.Reading
import PhysicalHarness.Task.Workload

namespace PhysicalHarness
namespace Task

open Python Protocol Fallible

/-!
# Finished work

The successful dispatches of a run, read off its record, are what a later plan
must keep: they open every plan the gate accepts against their ledger, in the
order in which they finished and with unchanged skill, arguments, kind, task and
executor, all compared as Python compares them.
-/

def finishedBy : Event → Option (Json × PlanNode)
  | .dispatched plan node (.returned result) =>
      if result.success then some (plan, node) else none
  | _ => none

/-- The successful dispatches, in the order in which they finished. -/
def finishedWork (record : List Event) : List (Json × PlanNode) := record.filterMap finishedBy

/-- Their node ids. -/
def successes (record : List Event) : List String :=
  (finishedWork record).map (fun done => done.2.id)

@[simp] theorem finishedWork_nil : finishedWork [] = [] := rfl

theorem finishedWork_append (first second : List Event) :
    finishedWork (first ++ second) = finishedWork first ++ finishedWork second :=
  List.filterMap_append

theorem successes_append (first second : List Event) :
    successes (first ++ second) = successes first ++ successes second := by
  rw [successes, finishedWork_append, List.map_append]
  rfl

/-! ## What an accepted plan keeps -/

/-- A node of a plan is the finished node, as far as its execution goes. -/
structure Unchanged (done : Json × PlanNode) (plan : Json) (view : PlanNode) : Prop where
  id : view.id = done.2.id
  skill : view.skill.eq done.2.skill = true
  args : (Json.obj view.args).eq (.obj done.2.args) = true
  kind : view.kind.eq done.2.kind = true
  task : (view.task plan).eq (done.2.task done.1) = true
  executor : view.executor.eq done.2.executor = true

/-- The finished work is an ordered prefix of the plan, unchanged. -/
def Keeps (work : List (Json × PlanNode)) (plan : Json) : Prop :=
  List.Forall₂ (fun done view => Unchanged done plan view) work
    ((planNodes plan).take work.length)

variable {work : List (Json × PlanNode)} {plan : Json}

theorem Keeps.of_append {first second : List (Json × PlanNode)}
    (keeps : Keeps (first ++ second) plan) : Keeps first plan := by
  have front := List.forall₂_take first.length keeps
  rw [List.take_left, List.take_take, List.length_append,
    Nat.min_eq_left (Nat.le_add_right _ _)] at front
  exact front

theorem Keeps.ids (keeps : Keeps work plan) :
    work.map (fun done => done.2.id) = ((planNodes plan).map PlanNode.id).take work.length := by
  rw [← List.map_take]
  exact (map_eq_of_forall₂ keeps (fun _ _ same => same.id)).symm

variable [Host]

def ReadExactly (view : PlanNode) : Prop :=
  NodeReads view.raw ∧ PlanNode.ofJson view.raw = view

theorem nodes_of_ledgerGraph {goal : Json} {done : List Json} {old : ExecutionGraph}
    (built : ledgerGraph goal done = .ok old) :
    (done.map ledgerNode).mapM Node.fromDict = .ok old.nodes := by
  rw [ledgerGraph, ExecutionGraph.fromDict] at built
  obtain ⟨_, _, built⟩ := of_bind built
  obtain ⟨_, _, built⟩ := of_bind built
  obtain ⟨_, _, built⟩ := of_bind built
  obtain ⟨_, _, built⟩ := of_bind built
  obtain ⟨sources, listed, built⟩ := of_bind built
  obtain ⟨nodes, parsed, built⟩ := of_bind built
  cases built
  have same : sources = done.map ledgerNode := (Except.ok.inj listed).symm
  exact same ▸ parsed

theorem lifts_of_ledgerGraph {goal : Json} (reads : ∀ done ∈ work, ReadExactly done.2)
    {old : ExecutionGraph}
    (built : ledgerGraph goal (work.map (fun done => doneSpec done.1 done.2)) = .ok old) :
    List.Forall₂ (fun done node => Lifts done.1 done.2 node) work old.nodes := by
  have along := mapM_eq_ok_iff.mp (nodes_of_ledgerGraph built)
  rw [List.map_map, List.forall₂_map_left_iff] at along
  generalize old.nodes = nodes at along
  clear built
  induction along with
  | nil => exact List.Forall₂.nil
  | cons here _ ih =>
      refine List.Forall₂.cons ?_ (ih (fun done mem => reads done (.tail _ mem)))
      obtain ⟨nodeReads, exact_⟩ := reads _ (.head _)
      rw [Function.comp_apply, fromDict_ledgerNode nodeReads exact_] at here
      obtain ⟨onFail, _, lifted⟩ := of_bind here
      cases lifted
      exact ⟨rfl, rfl, rfl, rfl, rfl, rfl, rfl⟩

omit [Host] in
theorem ids_of_ledger (reads : ∀ done ∈ work, ReadExactly done.2) :
    (work.map (fun done => doneSpec done.1 done.2)).mapM
      (fun entry => do (← entry.item "id").text : Json → Except PyError String) =
        .ok (work.map (fun done => done.2.id)) := by
  induction work with
  | nil => rfl
  | cons done rest ih =>
      obtain ⟨nodeReads, exact_⟩ := reads done (.head _)
      rw [List.map_cons, List.mapM_cons, item_of_get? (id_doneSpec nodeReads exact_),
        ih (fun other mem => reads other (.tail _ mem))]
      rfl

theorem keeps_of_accepted {catalogue : Catalogue} {oracles : List String}
    {requirements : List (String × Json)}
    (accepted : Accepted plan catalogue oracles
      (work.map (fun done => doneSpec done.1 done.2)) requirements)
    (reads : ∀ done ∈ work, ReadExactly done.2)
    (distinct : (work.map (fun done => done.2.id)).Nodup) : Keeps work plan := by
  by_cases empty : work = []
  · subst empty
    exact List.Forall₂.nil
  have nonempty : work.map (fun done => doneSpec done.1 done.2) ≠ [] := by
    simpa using empty
  have ledger := accepted.ledger
  rw [checkLedger, if_pos nonempty] at ledger
  obtain ⟨⟨ok, problems⟩, judged, passed⟩ := Gate.lift_bind_eq_ok.mp ledger
  have yes : ok = true := Gate.require_eq_ok_iff.mp passed
  rw [judgeLedger] at judged
  obtain ⟨new, lifted, judged⟩ := of_bind judged
  obtain ⟨ids, listed, judged⟩ := of_bind judged
  obtain ⟨old, built, judged⟩ := of_bind judged
  rw [ids_of_ledger reads] at listed
  cases listed
  have clean := (replanMonotone_fst old new _).mp (by rw [Except.ok.inj judged]; exact yes)
  have preserves := (replanMonotone_iff old new _).mp clean
  have liftsOld := lifts_of_ledgerGraph reads built
  have liftsNew := lifts_of_planToGraph accepted.reads lifted
  have oldIds : old.nodes.map Node.id = work.map (fun done => done.2.id) :=
    map_eq_of_forall₂ liftsOld (fun _ _ lifts => lifts.id)
  have newIds : new.nodes.map Node.id = (planNodes plan).map PlanNode.id :=
    map_eq_of_forall₂ liftsNew (fun _ _ lifts => lifts.id)
  have place : ∀ i (bound : i < old.nodes.length), ∃ inside : i < new.nodes.length,
      new.nodes[i].id = old.nodes[i].id ∧ sameCall new.nodes[i] old.nodes[i] = true ∧
        sameIdentity new.nodes[i] old.nodes[i] = true := by
    intro i bound
    refine preserves.getElem (oldIds ▸ distinct) (newIds ▸ accepted.inOrder.distinct) ?_ bound
    intro node mem
    rw [← oldIds]
    exact List.mem_map_of_mem mem
  have oldLength := liftsOld.length_eq
  have newLength := liftsNew.length_eq
  rw [Keeps, List.forall₂_iff_get]
  have longer : work.length ≤ (planNodes plan).length := by
    by_contra short
    obtain ⟨inside, _⟩ := place (planNodes plan).length (by omega)
    omega
  refine ⟨by rw [List.length_take, Nat.min_eq_left longer], fun i inWork inPlan => ?_⟩
  obtain ⟨inside, sameId, call, identity⟩ := place i (oldLength ▸ inWork)
  have inOld : i < old.nodes.length := oldLength ▸ inWork
  have inViews : i < (planNodes plan).length := newLength ▸ inside
  have here := liftsOld.get inWork inOld
  have there := liftsNew.get inViews inside
  simp only [List.get_eq_getElem, List.getElem_take] at here there ⊢
  simp only [sameCall, sameIdentity, Bool.and_eq_true, here.skill, here.args, here.kind, here.task,
    here.executor, there.skill, there.args, there.kind, there.task, there.executor] at call identity
  refine ⟨?_, call.1, call.2, identity.1.1, identity.1.2, identity.2⟩
  rw [← there.id, sameId, here.id]

omit [Host] in
theorem sameNode_of_lifts {first second : Json} {view : PlanNode} {before now : Node}
    (labels : labelOf first = labelOf second) (here : Lifts first view before)
    (there : Lifts second view now) : SameNode before now := by
  refine ⟨there.id.trans here.id.symm, ?_, ?_⟩
  · rw [sameCall, here.skill, there.skill, here.args, there.args, Json.eq_self, Json.eq_self]
    rfl
  · rw [sameIdentity, here.kind, there.kind, here.task, there.task, here.executor, there.executor,
      PlanNode.task, PlanNode.task, labels, Json.eq_self, Json.eq_self, Json.eq_self]
    rfl

theorem monotone_of_lifts {old new : ExecutionGraph} {done : List String} {views : List PlanNode}
    (inOrder : ViewsInOrder views) (lifts : List.Forall₂ (Lifts plan) views new.nodes)
    (front : work.map Prod.snd = views.take work.length)
    (oldLifts : List.Forall₂ (fun entry node =>
      ∃ source, labelOf source = labelOf plan ∧ Lifts source entry.2 node) work
        (old.nodes.take work.length)) (distinct : (old.nodes.map Node.id).Nodup)
    (finished : done = work.map (fun entry => entry.2.id)) :
    (replanMonotone old new done).2 = [] := by
  have newFront := List.forall₂_take work.length lifts
  rw [← front, List.forall₂_map_left_iff] at newFront
  refine (replanMonotone_iff old new done).mpr (preserves_of_front distinct
    (inOrder_of_lifts lifts inOrder) ((forall₂_join oldLifts newFront).imp ?_) ?_)
  · rintro before now ⟨entry, _, ⟨source, label, here⟩, there⟩
    exact sameNode_of_lifts label here there
  · intro id
    rw [finished, map_eq_of_forall₂ oldLifts (fun entry node here => ?_)]
    obtain ⟨source, _, lifted⟩ := here
    exact lifted.id

end Task
end PhysicalHarness
