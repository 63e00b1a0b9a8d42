import Mathlib.Data.List.Induction
import PhysicalHarness.Protocol.Ancestors
import PhysicalHarness.Task.Validate

namespace PhysicalHarness
namespace Task

open Python Protocol Fallible

variable [Host]

/-!
# Reading an accepted plan

On a plan that passed the first two stages of the gate every read of the loop
and of `plan_to_graph` finds a value of the right type, so the views of
`PlanNode` are exact and the only conversions that can still fail are those of
`on_fail` and `seed`.
-/

omit [Host] in
theorem settles_hashed_bind {β : Type} {value : Json} {next : Unit → Gate PyError β} :
    (Gate.lift (hashed value) >>= next).Settles ↔
      value.hashable = true ∧ (next ()).Settles := by
  rw [Gate.settles_lift_bind, ← hashed_eq_ok_iff]
  constructor
  · rintro ⟨⟨_, passed⟩, rest⟩
    exact ⟨passed, rest () passed⟩
  · rintro ⟨passed, rest⟩
    exact ⟨⟨(), passed⟩, fun _ _ => rest⟩

omit [Host] in
theorem hashed_bind_eq_ok {β : Type} {value : Json} {next : Unit → Gate PyError β} {result : β} :
    (Gate.lift (hashed value) >>= next) = .ok result ↔
      value.hashable = true ∧ next () = .ok result := by
  rw [Gate.lift_bind_eq_ok, ← hashed_eq_ok_iff]
  constructor
  · rintro ⟨_, passed, rest⟩
    exact ⟨passed, rest⟩
  · rintro ⟨passed, rest⟩
    exact ⟨(), passed, rest⟩

structure AcceptedNode (catalogue : Catalogue) (earlier : List String) (node : Json) : Prop where
  form : nodeForm node = true
  id : node.get? "id" = some (.str (PlanNode.ofJson node).id)
  nonempty : (PlanNode.ofJson node).id ≠ ""
  fresh : (PlanNode.ofJson node).id ∉ earlier
  kind : ∃ kind : NodeKind, kindOf node = .str kind.name
  skill : node.get? "skill" = some (PlanNode.ofJson node).skill
  hashable : (PlanNode.ofJson node).skill.hashable = true
  known : inCatalogue catalogue (PlanNode.ofJson node).skill = true ∨
    kindOf node = .str "recovery"
  args : node.get? "args" = some (.obj (PlanNode.ofJson node).args)
  after : node.get? "after" = some (.arr ((PlanNode.ofJson node).after.map .str))
  earlier : ∀ a ∈ (PlanNode.ofJson node).after, a ∈ earlier

omit [Host] in
theorem get?_of_nodeForm {node : Json} (form : nodeForm node = true) {key : String}
    (required : key ∈ nodeKeys) : node.get? key = some (node.getD key .null) := by
  simp only [nodeForm, Bool.and_eq_true, List.all_eq_true, decide_eq_true_eq] at form
  obtain ⟨value, found⟩ := Assoc.get?_of_mem_keys (form.1.2 key required)
  rw [Json.getD, Json.get?_eq_fields, found, Option.getD_some]

omit [Host] in
theorem afterForm_iff {earlier : List String} {after : Json} :
    afterForm earlier after = true ↔
      after = .arr (((after.arr?.getD []).filterMap Json.str?).map .str) ∧
        ∀ a ∈ (after.arr?.getD []).filterMap Json.str?, a ∈ earlier := by
  cases after with
  | arr items =>
      simp only [afterForm, Json.arr?, Option.getD_some, List.all_eq_true, List.any_eq_true,
        Json.eq_str_iff, Json.arr.injEq]
      constructor
      · intro each
        constructor
        · induction items with
          | nil => rfl
          | cons item rest ih =>
              obtain ⟨id, _, same⟩ := each item (.head _)
              subst same
              have others := ih (fun a mem => each a (.tail _ mem))
              simpa [Json.str?] using others
        · intro a mem
          obtain ⟨item, itemMember, isText⟩ := List.mem_filterMap.mp mem
          obtain ⟨id, known, same⟩ := each item itemMember
          subst same
          cases isText
          exact known
      · rintro ⟨texts, known⟩ a mem
        rw [texts] at mem
        obtain ⟨id, listed, same⟩ := List.mem_map.mp mem
        exact ⟨id, known id listed, same.symm⟩
  | _ => simp [afterForm, Json.arr?]

theorem checkNode_eq_ok_iff {catalogue : Catalogue} {earlier : List String} {i : Nat}
    {node : Json} {id : String} :
    checkNode catalogue earlier i node = .ok id ↔
      AcceptedNode catalogue earlier node ∧ id = (PlanNode.ofJson node).id := by
  simp only [checkNode, Gate.require_bind_eq_ok, hashed_bind_eq_ok, decide_eq_true_eq,
    pure_eq_ok, Bool.or_eq_true, Option.isSome_iff_exists, NodeKind.ofJson_eq_some_iff,
    Except.ok.injEq]
  constructor
  · rintro ⟨form, named, fresh, _, kind, hashable, known, args, after, same⟩
    obtain ⟨text, text_eq, nonempty⟩ := (Json.isNonemptyStr_iff _).mp named
    obtain ⟨texts, members⟩ := afterForm_iff.mp after
    have idEq : (PlanNode.ofJson node).id = text := by
      simp [PlanNode.ofJson, text_eq, Json.str?]
    refine ⟨⟨form, ?_, idEq ▸ nonempty, fresh, kind, ?_, hashable, known, ?_, ?_, members⟩,
      same.symm⟩
    · rw [get?_of_nodeForm form (by decide), text_eq, idEq]
    · exact get?_of_nodeForm form (by decide)
    · rw [get?_of_nodeForm form (by decide)]
      cases shape : node.getD "args" .null with
      | obj fields => simp [PlanNode.ofJson, shape, Json.fields]
      | _ => simp [shape, Json.isMapping] at args
    · rw [get?_of_nodeForm form (by decide), texts]
      rfl
  · rintro ⟨accepted, same⟩
    have named : node.getD "id" .null = .str (PlanNode.ofJson node).id := by
      rw [Json.getD, accepted.id, Option.getD_some]
    have after : node.getD "after" .null = .arr ((PlanNode.ofJson node).after.map .str) := by
      rw [Json.getD, accepted.after, Option.getD_some]
    have args : node.getD "args" .null = .obj (PlanNode.ofJson node).args := by
      rw [Json.getD, accepted.args, Option.getD_some]
    obtain ⟨kind, kindEq⟩ := accepted.kind
    refine ⟨accepted.form, ?_, accepted.fresh, ?_, accepted.kind, accepted.hashable,
      accepted.known, ?_, ?_, same.symm⟩
    · rw [named]
      simp [Json.isNonemptyStr, accepted.nonempty]
    · rw [kindEq]
      rfl
    · rw [args]
      rfl
    · exact afterForm_iff.mpr ⟨after, accepted.earlier⟩

/-- Each node is accepted after the ones before it. -/
def AcceptedNodes (catalogue : Catalogue) (nodes : List Json) : Prop :=
  ∀ first node rest, nodes = first ++ node :: rest →
    AcceptedNode catalogue (first.map (fun other => (PlanNode.ofJson other).id)) node

theorem checkNodes_eq_ok_iff {catalogue : Catalogue} {nodes : List Json} {ids final : List String}
    {i : Nat} :
    checkNodes catalogue ids i nodes = .ok final ↔
      final = ids ++ nodes.map (fun node => (PlanNode.ofJson node).id) ∧
        ∀ first node rest, nodes = first ++ node :: rest →
          AcceptedNode catalogue (ids ++ first.map (fun other => (PlanNode.ofJson other).id))
            node := by
  induction nodes generalizing ids i with
  | nil =>
      simp only [checkNodes, Except.ok.injEq, List.map_nil, List.append_nil]
      constructor
      · intro same
        refine ⟨same.symm, fun first node rest split => ?_⟩
        simp at split
      · rintro ⟨same, _⟩
        exact same.symm
  | cons node rest ih =>
      rw [checkNodes, bind_eq_ok]
      constructor
      · rintro ⟨id, here, tail⟩
        obtain ⟨accepted, same⟩ := checkNode_eq_ok_iff.mp here
        subst same
        obtain ⟨finalEq, others⟩ := ih.mp tail
        refine ⟨by rw [finalEq, List.map_cons, List.append_assoc]; rfl, ?_⟩
        intro first other later split
        cases first with
        | nil =>
            cases split
            rw [List.map_nil, List.append_nil]
            exact accepted
        | cons head first =>
            obtain ⟨same, tailSplit⟩ := List.cons.inj split
            subst same
            rw [List.map_cons, ← List.singleton_append, ← List.append_assoc]
            exact others first other later tailSplit
      · rintro ⟨finalEq, each⟩
        have head := each [] node rest rfl
        rw [List.map_nil, List.append_nil] at head
        refine ⟨_, checkNode_eq_ok_iff.mpr ⟨head, rfl⟩, ih.mpr ⟨?_, ?_⟩⟩
        · rw [finalEq, List.map_cons, List.append_assoc]
          rfl
        · intro first other later split
          have accepted := each (node :: first) other later (by rw [split]; rfl)
          rw [List.map_cons, ← List.singleton_append, ← List.append_assoc] at accepted
          exact accepted

theorem acceptedNodes_iff {catalogue : Catalogue} {nodes : List Json} {ids : List String} :
    checkNodes catalogue [] 0 nodes = .ok ids ↔
      ids = nodes.map (fun node => (PlanNode.ofJson node).id) ∧ AcceptedNodes catalogue nodes := by
  rw [checkNodes_eq_ok_iff]
  simp only [List.nil_append, AcceptedNodes]

/-! ## The plan as a graph -/

/-- The reads of `plan_to_graph` on one node. -/
structure NodeReads (node : Json) : Prop where
  id : node.get? "id" = some (.str (PlanNode.ofJson node).id)
  skill : node.get? "skill" = some (PlanNode.ofJson node).skill
  args : node.get? "args" = some (.obj (PlanNode.ofJson node).args)
  after : node.get? "after" = some (.arr ((PlanNode.ofJson node).after.map .str))

omit [Host] in
theorem AcceptedNode.reads {catalogue : Catalogue} {earlier : List String} {node : Json}
    (accepted : AcceptedNode catalogue earlier node) : NodeReads node :=
  ⟨accepted.id, accepted.skill, accepted.args, accepted.after⟩

/-- The reads of `plan_to_graph` on a plan. -/
structure PlanReads (plan : Json) : Prop where
  goal : ∃ goal, plan.get? "goal" = some (.str goal)
  nodes : plan.get? "nodes" = some (.arr (nodesOf plan))
  tasks : plan.getD "tasks" .null = .null ∨
    ∃ items, plan.getD "tasks" .null = .arr items ∧ ∀ task ∈ items, taskForm task = true
  each : ∀ node ∈ nodesOf plan, NodeReads node

omit [Host] in
theorem item_of_get? {value found : Json} {name : String} (held : value.get? name = some found) :
    value.item name = .ok found := by
  cases value with
  | obj fields => simp [Json.item, show Assoc.get? fields name = some found from held]
  | _ => cases held

omit [Host] in
theorem mapM_text (texts : List String) : (texts.map Json.str).mapM Json.text = .ok texts := by
  rw [mapM_eq_ok_iff]
  induction texts with
  | nil => exact List.Forall₂.nil
  | cons text rest ih => exact List.Forall₂.cons rfl ih

omit [Host] in
theorem planTask_of_form {task : Json} (form : taskForm task = true) :
    ∃ parsed, planTask task = .ok parsed ∧ task.get? "id" = some (.str parsed.id) := by
  simp only [taskForm, Bool.and_eq_true] at form
  obtain ⟨⟨mapping, named⟩, goals⟩ := form
  obtain ⟨id, idEq, _⟩ := (Json.isNonemptyStr_iff _).mp named
  have idRead : task.get? "id" = some (.str id) := by
    cases found : task.get? "id" with
    | none => simp [Json.getD, found] at idEq
    | some value => simpa [Json.getD, found] using idEq
  cases goal : task.getD "goal" .null with
  | arr items =>
      rw [goal] at goals
      have goalRead : task.getD "goal" (.arr []) = .arr items := by
        cases found : task.get? "goal" with
        | none => simp [Json.getD, found] at goal
        | some value => simpa [Json.getD, found] using goal
      have texts : Returns (items.mapM Json.text) := by
        refine returns_mapM_iff.mpr (fun item mem => ?_)
        obtain ⟨text, same, _⟩ :=
          (Json.isNonemptyStr_iff _).mp (List.all_eq_true.mp goals item mem)
        exact ⟨text, by rw [same]; rfl⟩
      obtain ⟨goals, texts⟩ := texts
      refine ⟨⟨id, goals⟩, ?_, idRead⟩
      rw [planTask, item_of_get? idRead, goalRead]
      simp [Json.text, Json.iter, texts]
  | _ => simp [goal, Json.arr?] at goals

omit [Host] in
theorem planTasks_of_reads {plan : Json} (reads : PlanReads plan) :
    ∃ tasks, planTasks plan = .ok tasks ∧
      labelOf plan = .str ((tasks.head?.map Protocol.Task.id).getD "main") := by
  rcases reads.tasks with absent | ⟨items, declared, forms⟩
  · refine ⟨[mainTask], ?_, ?_⟩
    · rw [planTasks, absent]
      rfl
    · rw [labelOf, absent]
      rfl
  · obtain ⟨tasks, parsed⟩ : Returns (items.mapM planTask) :=
      returns_mapM_iff.mpr (fun task mem =>
        let ⟨parsed, done, _⟩ := planTask_of_form (forms task mem)
        ⟨parsed, done⟩)
    cases items with
    | nil =>
        refine ⟨[mainTask], ?_, ?_⟩
        · rw [planTasks, declared]
          rfl
        · rw [labelOf, declared]
          rfl
    | cons first rest =>
        obtain ⟨task, done, idRead⟩ := planTask_of_form (forms first (.head _))
        cases mapM_eq_ok_iff.mp parsed with
        | @cons _ other _ others here there =>
            rw [done] at here
            cases here
            refine ⟨task :: others, ?_, ?_⟩
            · rw [planTasks, declared]
              simp [Json.truthy, Json.iter, parsed]
            · rw [labelOf, declared]
              simp [Json.arr?, Json.getD, idRead]

omit [Host] in
theorem planNode_of_reads {node : Json} (reads : NodeReads node) (label : String) :
    planNode label node = onFailOf node >>= fun onFail =>
      .ok { id := (PlanNode.ofJson node).id, task := node.getD "task" (.str label),
            skill := (PlanNode.ofJson node).skill, args := (PlanNode.ofJson node).args,
            after := (PlanNode.ofJson node).after, onFail,
            executor := (PlanNode.ofJson node).executor, kind := (PlanNode.ofJson node).kind } := by
  rw [planNode, item_of_get? reads.id, item_of_get? reads.skill, item_of_get? reads.args,
    item_of_get? reads.after]
  simp only [bind_ok, Json.text, Json.dict, Json.iter, mapM_text]
  rfl

structure Lifts (plan : Json) (view : PlanNode) (node : Node) : Prop where
  id : node.id = view.id
  task : node.task = view.task plan
  skill : node.skill = view.skill
  args : node.args = view.args
  after : node.after = view.after
  executor : node.executor = view.executor
  kind : node.kind = view.kind

omit [Host] in
theorem lifts_of_planNode {plan node : Json} {label : String} {lifted : Node}
    (reads : NodeReads node) (labelled : labelOf plan = .str label)
    (done : planNode label node = .ok lifted) : Lifts plan (PlanNode.ofJson node) lifted := by
  rw [planNode_of_reads reads] at done
  obtain ⟨onFail, _, built⟩ := of_bind done
  cases built
  exact ⟨rfl, by rw [PlanNode.task, labelled]; rfl, rfl, rfl, rfl, rfl, rfl⟩

omit [Host] in
theorem returns_planNode_iff {node : Json} (reads : NodeReads node) (label : String) :
    Returns (planNode label node) ↔ Returns (onFailOf node) := by
  rw [planNode_of_reads reads, returns_bind]
  exact ⟨fun ⟨onFail, done, _⟩ => ⟨onFail, done⟩, fun ⟨onFail, done⟩ => ⟨onFail, done, _, rfl⟩⟩

theorem lifts_of_planToGraph {plan : Json} (reads : PlanReads plan) {graph : ExecutionGraph}
    (done : planToGraph plan = .ok graph) :
    List.Forall₂ (Lifts plan) (planNodes plan) graph.nodes := by
  obtain ⟨tasks, parsed, labelled⟩ := planTasks_of_reads reads
  rw [planToGraph, parsed, item_of_get? reads.nodes] at done
  simp only [bind_ok, Json.iter] at done
  obtain ⟨nodes, lifted, rest⟩ := of_bind done
  obtain ⟨_, _, rest⟩ := of_bind rest
  obtain ⟨_, _, rest⟩ := of_bind rest
  obtain ⟨_, _, built⟩ := of_bind rest
  cases built
  exact forall₂_of_mapM lifted (fun node mem lifted here =>
    lifts_of_planNode (reads.each node mem) labelled here)

theorem returns_planToGraph_iff {plan : Json} (reads : PlanReads plan) :
    Returns (planToGraph plan) ↔
      (∀ node ∈ nodesOf plan, Returns (onFailOf node)) ∧
        Returns (pyInt (plan.getD "seed" (.int 0))) := by
  obtain ⟨tasks, parsed, labelled⟩ := planTasks_of_reads reads
  obtain ⟨goal, goalRead⟩ := reads.goal
  rw [planToGraph, parsed, item_of_get? reads.nodes, item_of_get? goalRead]
  simp only [bind_ok, Json.iter, Json.text, returns_bind]
  constructor
  · rintro ⟨nodes, lifted, seed, converted, _⟩
    refine ⟨fun node mem => ?_, seed, converted⟩
    exact (returns_planNode_iff (reads.each node mem) _).mp
      (returns_mapM_iff.mp ⟨nodes, lifted⟩ node mem)
  · rintro ⟨onFails, seed, converted⟩
    obtain ⟨nodes, lifted⟩ := returns_mapM_iff.mpr (fun node mem =>
      (returns_planNode_iff (reads.each node mem) _).mpr (onFails node mem))
    exact ⟨nodes, lifted, seed, converted, _, rfl⟩

omit [Host] in
theorem PlanReads.seeded {plan : Json} (reads : PlanReads plan) (seed : Int) :
    PlanReads (plan.setField "seed" (.int seed)) := by
  have nodes : nodesOf (plan.setField "seed" (.int seed)) = nodesOf plan := by
    simp [nodesOf, Json.getD]
  refine ⟨?_, ?_, ?_, ?_⟩
  · simpa using reads.goal
  · simpa [nodes] using reads.nodes
  · simpa [Json.getD] using reads.tasks
  · rw [nodes]
    exact reads.each

theorem lifts_of_seeded {plan : Json} (reads : PlanReads plan) {seed : Int}
    {graph : ExecutionGraph} (built : planToGraph (plan.setField "seed" (.int seed)) = .ok graph) :
    List.Forall₂ (Lifts plan) (planNodes plan) graph.nodes := by
  have lifts := lifts_of_planToGraph (reads.seeded seed) built
  have nodes : planNodes (plan.setField "seed" (.int seed)) = planNodes plan := by
    simp [planNodes, nodesOf, Json.getD]
  have label : labelOf (plan.setField "seed" (.int seed)) = labelOf plan := by
    simp [labelOf, Json.getD]
  rw [nodes] at lifts
  refine lifts.imp (fun view node here => ⟨here.id, ?_, here.skill, here.args, here.after,
    here.executor, here.kind⟩)
  rw [here.task, PlanNode.task, PlanNode.task, label]

omit [Host] in
theorem taskForms_of_checkTasks {tasks : Json} (passed : checkTasks tasks = .ok ()) :
    tasks = .null ∨ ∃ items, tasks = .arr items ∧ ∀ task ∈ items, taskForm task = true := by
  cases tasks with
  | null => exact Or.inl rfl
  | arr items =>
      cases items with
      | nil => cases passed
      | cons first rest =>
          refine Or.inr ⟨first :: rest, rfl, fun task mem => ?_⟩
          obtain ⟨i, bound, found⟩ := List.mem_iff_getElem.mp mem
          have entry : (task, i) ∈ (first :: rest).zipIdx :=
            List.mem_zipIdx_iff_getElem?.mpr (by rw [List.getElem?_eq_getElem bound, found])
          exact Gate.require_eq_ok_iff.mp (Gate.each_eq_ok_iff.mp passed _ entry)
  | _ => cases passed

omit [Host] in
theorem settles_checkTasks (tasks : Json) : (checkTasks tasks).Settles := by
  cases tasks with
  | null => exact Gate.settles_ok _
  | arr items =>
      cases items with
      | nil => exact Gate.settles_refuse _
      | cons first rest => exact Gate.settles_each (fun _ _ => Gate.settles_require _ _)
  | _ => exact Gate.settles_refuse _

omit [Host] in
theorem settles_checkShape (plan : Json) : (checkShape plan).Settles := by
  simp only [checkShape, Gate.settles_require_bind, settles_checkTasks, implies_true]

omit [Host] in
theorem planReads_of_checks {plan : Json} {catalogue : Catalogue}
    (shape : checkShape plan = .ok ()) (nodes : AcceptedNodes catalogue (nodesOf plan)) :
    PlanReads plan := by
  simp only [checkShape, Gate.require_bind_eq_ok] at shape
  obtain ⟨_, named, nonempty, tasks⟩ := shape
  obtain ⟨goal, goalEq, _⟩ := (Json.isNonemptyStr_iff _).mp named
  refine ⟨⟨goal, ?_⟩, ?_, taskForms_of_checkTasks tasks, ?_⟩
  · cases found : plan.get? "goal" with
    | none => simp [Json.getD, found] at goalEq
    | some value => simpa [Json.getD, found] using goalEq
  · unfold nodesOf at nonempty ⊢
    cases found : plan.get? "nodes" with
    | none => simp [Json.getD, found, Json.arr?] at nonempty
    | some value =>
        cases value with
        | arr items => simp [Json.getD, found, Json.arr?]
        | _ => simp [Json.getD, found, Json.arr?] at nonempty
  · intro node mem
    obtain ⟨first, rest, split⟩ := List.append_of_mem mem
    exact (nodes first node rest split).reads

omit [Host] in
theorem get?_withoutExecutor (node : Json) (name : String) :
    (withoutExecutor node).get? name = if name = "executor" then none else node.get? name := by
  rw [withoutExecutor, Json.get?, Assoc.get?_filter_ne, ← Json.get?_eq_fields]

omit [Host] in
theorem ofJson_withoutExecutor (node : Json) :
    PlanNode.ofJson (withoutExecutor node) =
      { PlanNode.ofJson node with raw := withoutExecutor node } := by
  simp [PlanNode.ofJson, Json.getD, get?_withoutExecutor]

omit [Host] in
theorem NodeReads.withoutExecutor {node : Json} (reads : NodeReads node) :
    NodeReads (withoutExecutor node) := by
  constructor <;>
    simp [get?_withoutExecutor, ofJson_withoutExecutor, reads.id, reads.skill, reads.args,
      reads.after]

omit [Host] in
theorem onFailOf_withoutExecutor (node : Json) :
    onFailOf (withoutExecutor node) = onFailOf node := by
  have kept : (withoutExecutor node).getD "on_fail" .null = node.getD "on_fail" .null := by
    simp [Json.getD, get?_withoutExecutor]
  unfold onFailOf
  rw [kept]

omit [Host] in
theorem nodesOf_typedPlan (plan : Json) :
    nodesOf (typedPlan plan) = (nodesOf plan).map withoutExecutor := by
  simp [nodesOf, typedPlan, Json.getD, Json.arr?]

omit [Host] in
theorem PlanReads.typed {plan : Json} (reads : PlanReads plan) : PlanReads (typedPlan plan) := by
  obtain ⟨goal, goalRead⟩ := reads.goal
  refine ⟨⟨goal, ?_⟩, ?_, Or.inr ?_, ?_⟩
  · simpa [typedPlan] using goalRead
  · rw [nodesOf_typedPlan]
    simp [typedPlan]
  · refine ⟨((plan.getD "tasks" .null).arr?.getD []).map withoutGoal, ?_, ?_⟩
    · simp [typedPlan, Json.getD]
    · intro task mem
      obtain ⟨source, sourceMember, same⟩ := List.mem_map.mp mem
      subst same
      rcases reads.tasks with absent | ⟨items, declared, forms⟩
      · rw [absent] at sourceMember
        cases sourceMember
      · rw [declared] at sourceMember
        have form := forms source sourceMember
        simp only [taskForm, Bool.and_eq_true] at form
        simpa [taskForm, withoutGoal, Json.getD, Json.get?, Json.isMapping, Json.arr?,
          Assoc.get?_cons] using form.1.2
  · intro node mem
    rw [nodesOf_typedPlan] at mem
    obtain ⟨source, sourceMember, same⟩ := List.mem_map.mp mem
    exact same ▸ (reads.each source sourceMember).withoutExecutor

structure ViewsInOrder (views : List PlanNode) : Prop where
  distinct : (views.map PlanNode.id).Nodup
  earlier : ∀ first view rest, views = first ++ view :: rest →
    ∀ a ∈ view.after, a ∈ first.map PlanNode.id

omit [Host] in
theorem distinct_of_fresh {α β : Type} {f : α → β} {items : List α}
    (fresh : ∀ first item rest, items = first ++ item :: rest → f item ∉ first.map f) :
    (items.map f).Nodup := by
  induction items using List.reverseRecOn with
  | nil => exact List.nodup_nil
  | append_singleton initial last ih =>
      have earlier := ih (fun first item rest split =>
        fresh first item (rest ++ [last]) (by rw [split, List.append_assoc]; rfl))
      have new := fresh initial last [] rfl
      rw [List.map_append, List.nodup_append]
      refine ⟨earlier, List.nodup_singleton _, ?_⟩
      intro known mem other single same
      rw [List.map_singleton, List.mem_singleton] at single
      exact new (single ▸ same ▸ mem)

omit [Host] in
theorem AcceptedNodes.inOrder {catalogue : Catalogue} {nodes : List Json}
    (accepted : AcceptedNodes catalogue nodes) {view : Json → PlanNode}
    (ids : ∀ node, (view node).id = (PlanNode.ofJson node).id)
    (afters : ∀ node, (view node).after = (PlanNode.ofJson node).after) :
    ViewsInOrder (nodes.map view) := by
  have idsEq : ∀ first : List Json, (first.map view).map PlanNode.id =
      first.map (fun other => (PlanNode.ofJson other).id) := by
    intro first
    rw [List.map_map]
    exact List.map_congr_left (fun node _ => ids node)
  constructor
  · rw [idsEq]
    exact distinct_of_fresh (fun first node rest split => (accepted first node rest split).fresh)
  · intro first node rest split a depends
    obtain ⟨before, later, sourceSplit, firstEq, restEq⟩ := List.map_eq_append_iff.mp split
    obtain ⟨source, after, laterEq, nodeEq, _⟩ := List.map_eq_cons_iff.mp restEq
    subst firstEq nodeEq laterEq
    rw [idsEq]
    rw [afters] at depends
    exact (accepted before source after sourceSplit).earlier a depends

omit [Host] in
theorem inOrder_of_lifts {plan : Json} {views : List PlanNode} {nodes : List Node}
    (lifts : List.Forall₂ (Lifts plan) views nodes) (inOrder : ViewsInOrder views) :
    InOrder nodes := by
  constructor
  · rw [map_eq_of_forall₂ lifts (fun _ _ here => here.id)]
    exact inOrder.distinct
  · intro first node rest split a depends
    rw [split] at lifts
    obtain ⟨before, view, after, viewSplit, aligned, here⟩ := forall₂_split_right lifts
    rw [here.after] at depends
    rw [map_eq_of_forall₂ aligned (fun _ _ here => here.id)]
    exact inOrder.earlier before view after viewSplit a depends

/-! ## Accepted plans -/

structure Accepted (plan : Json) (catalogue : Catalogue) (oracles : List String)
    (done : List Json) (requirements : List (String × Json)) : Prop where
  shape : checkShape plan = .ok ()
  nodes : AcceptedNodes catalogue (nodesOf plan)
  typed : checkTyped catalogue plan = .ok ()
  verify : checkVerify ((planNodes plan).map PlanNode.id) oracles plan = .ok ()
  covered : Gate.each (checkCovered (coveredIds plan)) (planNodes plan) = .ok ()
  required : checkRequirements requirements (planNodes plan) = .ok ()
  ledger : checkLedger done plan = .ok ()

section

variable {plan : Json} {catalogue : Catalogue} {oracles : List String} {done : List Json}
  {requirements : List (String × Json)}

omit [Host] in
theorem ids_planNodes (plan : Json) :
    (planNodes plan).map PlanNode.id =
      (nodesOf plan).map (fun node => (PlanNode.ofJson node).id) := by
  rw [planNodes, List.map_map]
  rfl

theorem validatePlan_accepts_iff {message : String} :
    validatePlan plan catalogue oracles done requirements = .ok (true, message) ↔
      Accepted plan catalogue oracles done requirements ∧ message = "" := by
  rw [validatePlan, Gate.settle_eq_accept_iff]
  refine and_congr ?_ Iff.rfl
  simp only [planGate, bind_eq_ok, acceptedNodes_iff]
  constructor
  · rintro ⟨_, _, shape, ids, ⟨same, nodes⟩, _, typed, _, verify, _, covered, _, required, ledger⟩
    rw [same, ← ids_planNodes] at verify
    exact ⟨shape, nodes, typed, verify, covered, required, ledger⟩
  · rintro ⟨shape, nodes, typed, verify, covered, required, ledger⟩
    rw [ids_planNodes] at verify
    exact ⟨(), (), shape, _, ⟨rfl, nodes⟩, (), typed, (), verify, (), covered, (), required, ledger⟩

namespace Accepted

variable (accepted : Accepted plan catalogue oracles done requirements)

include accepted

theorem reads : PlanReads plan := planReads_of_checks accepted.shape accepted.nodes

theorem inOrder : ViewsInOrder (planNodes plan) :=
  accepted.nodes.inOrder (fun _ => rfl) (fun _ => rfl)

theorem nodeReads {view : PlanNode} (mem : view ∈ planNodes plan) :
    NodeReads view.raw ∧ PlanNode.ofJson view.raw = view := by
  obtain ⟨source, sourceMember, same⟩ := List.mem_map.mp mem
  subst same
  exact ⟨accepted.reads.each source sourceMember, rfl⟩

theorem kind_eq {view : PlanNode} (mem : view ∈ planNodes plan) :
    ∃ kind : NodeKind, view.kind = .str kind.name := by
  obtain ⟨source, sourceMember, same⟩ := List.mem_map.mp mem
  obtain ⟨first, rest, split⟩ := List.append_of_mem sourceMember
  subst same
  exact (accepted.nodes first source rest split).kind

end Accepted

end

omit [Host] in
theorem get?_ledgerNode (entry : Json) (name : String) :
    (ledgerNode entry).get? name =
      if name = "task" then some (entry.getD "task" (.str "main")) else entry.get? name := by
  rw [ledgerNode, Json.get?, Assoc.get?_cons, Assoc.get?_filter_ne, ← Json.get?_eq_fields]
  by_cases same : name = "task"
  · simp [same]
  · simp [same, Ne.symm same]

omit [Host] in
theorem get?_doneSpec (plan : Json) (view : PlanNode) (name : String) :
    (doneSpec plan view).get? name =
      if "task" = name then some (view.task plan)
      else if "after" = name then some (.arr (view.after.map .str))
      else if "args" = name then some (.obj view.args)
      else view.raw.get? name := by
  simp only [doneSpec, Json.get?_setField]

omit [Host] in
theorem id_doneSpec {plan : Json} {view : PlanNode} (reads : NodeReads view.raw)
    (exact_ : PlanNode.ofJson view.raw = view) :
    (doneSpec plan view).get? "id" = some (.str view.id) := by
  rw [get?_doneSpec, ← exact_]
  simpa [PlanNode.ofJson] using reads.id

omit [Host] in
theorem fromDict_ledgerNode {plan : Json} {view : PlanNode} (reads : NodeReads view.raw)
    (exact_ : PlanNode.ofJson view.raw = view) :
    Node.fromDict (ledgerNode (doneSpec plan view)) =
      pyDict (view.raw.getD "on_fail" (.obj [])) >>= fun onFail =>
        .ok { id := view.id, task := view.task plan, skill := view.skill, args := view.args,
              after := view.after, onFail, executor := view.executor, kind := view.kind } := by
  have held : ∀ name value, (ledgerNode (doneSpec plan view)).get? name = some value →
      (ledgerNode (doneSpec plan view)).item name = .ok value :=
    fun _ _ found => item_of_get? found
  have id := reads.id
  have skill := reads.skill
  rw [exact_] at id skill
  rw [Node.fromDict, held "id" (.str view.id) (by simp [get?_ledgerNode, get?_doneSpec, id]),
    held "task" (view.task plan) (by simp [get?_ledgerNode, get?_doneSpec, Json.getD]),
    held "skill" view.skill (by simp [get?_ledgerNode, get?_doneSpec, skill])]
  simp [-List.mapM_map, get?_ledgerNode, get?_doneSpec, Json.getD, Json.text, Json.dict, Json.iter,
    mapM_text, PlanNode.executor, PlanNode.kind, kindOf]

end Task
end PhysicalHarness
