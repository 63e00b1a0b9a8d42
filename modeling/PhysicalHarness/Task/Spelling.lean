import PhysicalHarness.Protocol.Goals
import PhysicalHarness.Task.PerObject
import PhysicalHarness.Task.Retry

namespace PhysicalHarness
namespace Task

open Python Protocol
open Fallible

section

variable [Host]

/-!
# One plan, two constructors

A graph is built from a plan by `plan_to_graph`, or by `from_dict` from the document that says the
same with every label written out.  `from_dict` puts each goal into its canonical spelling;
`plan_to_graph` keeps the planner's.  They also differ in an `on_fail` that is false but no empty
container.  Contracts and facts are always canonical, so the spelling of a goal decides whether
anything can ensure it.
-/

/-- `{"id": "main", "goal": []}`. -/
def mainDoc : Json := .obj [("id", .str "main"), ("goal", .arr [])]

def docTasks (plan : Json) : List Json :=
  match (plan.getD "tasks" .null).arr? with
  | some (first :: rest) => first :: rest
  | _ => [mainDoc]

/-- A node with its label. -/
def labelled (label : Json) (node : Json) : Json := node.setField "task" (node.getD "task" label)

/-- The `{mission, seed, tasks, nodes}` document of a plan. -/
def documentOf (plan : Json) : Json :=
  .obj [("mission", plan.getD "goal" .null), ("seed", plan.getD "seed" (.int 0)),
    ("tasks", .arr (docTasks plan)),
    ("nodes", .arr ((nodesOf plan).map (labelled (labelOf plan))))]

/-! ## Goals and their spellings -/

def goalTexts (task : Json) : List String := strings (task.getD "goal" .null)

def taskId (task : Json) : String := ((task.getD "id" .null).str?).getD ""

/-- All goals of a plan. -/
def goalsOf (plan : Json) : List String := (docTasks plan).flatMap goalTexts

/-- The text is the spelling that `pred_ref_str` gives it. -/
def IsCanonical (text : String) : Prop := predRefStr (refOfStr text) = .ok text

def SameRef (text again : String) : Prop :=
  parsePredRef (refOfStr again) = parsePredRef (refOfStr text)

structure RespellsTask (task other : Json) : Prop where
  form : taskForm task = true
  again : taskForm other = true
  id : taskId other = taskId task
  goal : List.Forall₂ SameRef (goalTexts task) (goalTexts other)

/-- The same plan with the goals of its tasks spelled again. -/
structure Respells (plan other : Json) : Prop where
  fields : ∀ name, name ≠ "tasks" → other.get? name = plan.get? name
  declared : other.getD "tasks" .null = .null ∨
    ∃ items, other.getD "tasks" .null = .arr items ∧ ∀ task ∈ items, taskForm task = true
  tasks : List.Forall₂ RespellsTask (docTasks plan) (docTasks other)

omit [Host] in
theorem taskForm_mainDoc : taskForm mainDoc = true := by
  decide +kernel

variable {task node : Json}

omit [Host] in
theorem form_of_mem_docTasks {plan : Json}
    (declared : plan.getD "tasks" .null = .null ∨
      ∃ items, plan.getD "tasks" .null = .arr items ∧ ∀ task ∈ items, taskForm task = true)
    (mem : task ∈ docTasks plan) : taskForm task = true := by
  rw [docTasks] at mem
  rcases declared with absent | ⟨items, listed, forms⟩
  · rw [absent] at mem
    rw [List.mem_singleton.mp mem]
    exact taskForm_mainDoc
  · rw [listed] at mem
    cases items with
    | nil =>
        rw [List.mem_singleton.mp mem]
        exact taskForm_mainDoc
    | cons first rest => exact forms task mem

theorem respells_refl {plan : Json} (reads : PlanReads plan) : Respells plan plan where
  fields := fun _ _ => rfl
  declared := reads.tasks
  tasks := by
    rw [List.forall₂_same]
    intro task mem
    have form := form_of_mem_docTasks reads.tasks mem
    exact ⟨form, form, rfl, List.forall₂_same.mpr (fun _ _ => rfl)⟩

omit [Host] in
theorem reads_of_taskForm (form : taskForm task = true) :
    task.get? "id" = some (.str (taskId task)) ∧
      task.get? "goal" = some (.arr ((goalTexts task).map .str)) := by
  simp only [taskForm, Bool.and_eq_true] at form
  obtain ⟨⟨_, named⟩, goals⟩ := form
  constructor
  · obtain ⟨id, idEq, _⟩ := (Json.isNonemptyStr_iff _).mp named
    cases found : task.get? "id" with
    | none => simp [Json.getD, found] at idEq
    | some value =>
        rw [Json.getD, found, Option.getD_some] at idEq
        rw [taskId, Json.getD, found, Option.getD_some, idEq]
        rfl
  · cases found : task.get? "goal" with
    | none => simp [Json.getD, found, Json.arr?] at goals
    | some value =>
        rw [Json.getD, found, Option.getD_some] at goals
        cases value with
        | arr items =>
            rw [goalTexts, Json.getD, found, Option.getD_some,
              strings_of_texts (List.all_eq_true.mp goals)]
        | _ => cases goals

omit [Host] in
theorem planTask_eq (form : taskForm task = true) :
    planTask task = .ok ⟨taskId task, goalTexts task⟩ := by
  obtain ⟨id, goal⟩ := reads_of_taskForm form
  rw [planTask, item_of_get? id, Json.getD, goal, Option.getD_some]
  simp only [bind_ok, Json.text, Json.iter, mapM_text]
  rfl

def Prints (text atom : String) : Prop := predRefStr (refOfStr text) = .ok atom

theorem fromDict_eq (form : taskForm task = true) :
    Protocol.Task.fromDict task =
      (goalTexts task).mapM (fun text => predRefStr (refOfStr text)) >>= fun goal =>
        .ok ⟨taskId task, goal⟩ := by
  obtain ⟨id, goal⟩ := reads_of_taskForm form
  rw [Protocol.Task.fromDict, item_of_get? id, item_of_get? goal]
  simp only [bind_ok, Json.text, Json.iter]
  rw [List.mapM_map]
  rfl

theorem canonical_iff_of_prints {texts atoms : List String}
    (prints : List.Forall₂ Prints texts atoms) :
    texts = atoms ↔ ∀ text ∈ texts, IsCanonical text := by
  constructor
  · intro same
    subst same
    exact fun text mem => List.forall₂_same.mp prints text mem
  · intro canonical
    induction prints with
    | nil => rfl
    | @cons text atom _ _ here _ ih =>
        have same := (canonical text (.head _)).symm.trans here
        rw [Except.ok.inj same, ih (fun other mem => canonical other (List.mem_cons_of_mem _ mem))]

theorem prints_of_sameRef {text again atom : String} (same : SameRef text again)
    (prints : Prints text atom) : Prints again atom := by
  rw [Prints, predRefStr] at prints ⊢
  rw [same]
  exact prints

theorem beside_of_respells {items others : List Json} {tasks : List Protocol.Task}
    (respells : List.Forall₂ RespellsTask items others)
    (parsed : items.mapM Protocol.Task.fromDict = .ok tasks) :
    List.Forall₂ (fun other task => taskId other = task.id ∧
      List.Forall₂ Prints (goalTexts other) task.goal) others tasks := by
  have along := mapM_eq_ok_iff.mp parsed
  clear parsed
  induction respells generalizing tasks with
  | nil =>
      cases along
      exact List.Forall₂.nil
  | @cons item other _ _ here _ ih =>
      cases along with
      | @cons _ task _ _ done later =>
          refine List.Forall₂.cons ?_ (ih later)
          rw [fromDict_eq here.form] at done
          obtain ⟨goal, printed, built⟩ := of_bind done
          cases built
          refine ⟨here.id, ?_⟩
          have texts := mapM_eq_ok_iff.mp printed
          have pairs := forall₂_join here.goal texts
          apply pairs.imp
          rintro again atom ⟨text, _, same, prints⟩
          exact prints_of_sameRef same prints

/-- The task that `plan_to_graph` makes of a declared one. -/
def asWritten (task : Json) : Protocol.Task := ⟨taskId task, goalTexts task⟩

theorem parallel_of_beside {others : List Json} {tasks : List Protocol.Task}
    (beside : List.Forall₂ (fun other task => taskId other = task.id ∧
      List.Forall₂ Prints (goalTexts other) task.goal) others tasks) :
    Parallel (others.map asWritten) tasks := by
  rw [Parallel, List.forall₂_map_left_iff]
  exact beside.imp (fun _ _ here => ⟨here.1, here.2.length_eq⟩)

theorem asWritten_eq_iff {others : List Json} {tasks : List Protocol.Task}
    (beside : List.Forall₂ (fun other task => taskId other = task.id ∧
      List.Forall₂ Prints (goalTexts other) task.goal) others tasks) :
    others.map asWritten = tasks ↔ ∀ text ∈ others.flatMap goalTexts, IsCanonical text := by
  induction beside with
  | nil => simp
  | @cons other task _ _ here _ ih =>
      obtain ⟨id, prints⟩ := here
      rw [List.map_cons, List.cons.injEq, ih, List.flatMap_cons]
      simp only [List.mem_append, or_imp, forall_and]
      refine and_congr ?_ Iff.rfl
      rw [← canonical_iff_of_prints prints]
      constructor
      · intro same
        exact congrArg Protocol.Task.goal same
      · intro goals
        rw [asWritten, id, goals]

omit [Host] in
theorem planTasks_eq {plan : Json} (declared : plan.getD "tasks" .null = .null ∨
      ∃ items, plan.getD "tasks" .null = .arr items ∧ ∀ task ∈ items, taskForm task = true) :
    planTasks plan = .ok ((docTasks plan).map asWritten) := by
  rw [planTasks, docTasks]
  rcases declared with absent | ⟨items, listed, forms⟩
  · rw [absent]
    rfl
  · rw [listed]
    cases items with
    | nil => rfl
    | cons first rest =>
        have parsed : (first :: rest).mapM planTask = .ok ((first :: rest).map asWritten) := by
          rw [mapM_eq_ok_iff, List.forall₂_map_right_iff, List.forall₂_same]
          exact fun task mem => planTask_eq (forms task mem)
        have truthy : (Json.arr (first :: rest)).truthy = true := rfl
        rw [truthy, if_pos rfl, Json.iter, bind_ok, parsed]
        rfl

omit [Host] in
theorem onFailOf_eq_of_iterable (iterable : OnFailIterable node) :
    onFailOf node = pyDict (node.getD "on_fail" (.obj [])) := by
  rw [onFailOf, Json.getD, Json.getD]
  cases held : node.get? "on_fail" with
  | none => rfl
  | some value =>
      rw [Option.getD_some, Option.getD_some]
      cases truth : value.truthy with
      | true => rfl
      | false =>
          obtain ⟨pairs, converted⟩ := (returns_pyDict_of_falsy truth).mpr (iterable value held)
          cases value with
          | obj fields =>
              cases fields with
              | nil => rfl
              | cons _ _ => cases truth
          | arr items =>
              cases items with
              | nil => rfl
              | cons _ _ => cases truth
          | str text =>
              have empty : text = "" := by
                by_contra other
                rw [Json.truthy, decide_eq_true other] at truth
                cases truth
              rw [empty]
              rfl
          | _ => cases converted

omit [Host] in
theorem returns_onFailOf_of_pyDict (converted : Returns (pyDict (node.getD "on_fail" (.obj [])))) :
    Returns (onFailOf node) ∧ OnFailIterable node := by
  have iterable : OnFailIterable node := by
    intro value held
    rw [Json.getD, held, Option.getD_some] at converted
    exact iterable_of_pyDict converted
  rw [onFailOf_eq_of_iterable iterable]
  exact ⟨converted, iterable⟩

omit [Host] in
theorem fromDict_labelled (reads : NodeReads node) (label : String) :
    Node.fromDict (labelled (.str label) node) =
      pyDict (node.getD "on_fail" (.obj [])) >>= fun onFail =>
        .ok { id := (PlanNode.ofJson node).id, task := node.getD "task" (.str label),
              skill := (PlanNode.ofJson node).skill, args := (PlanNode.ofJson node).args,
              after := (PlanNode.ofJson node).after, onFail,
              executor := (PlanNode.ofJson node).executor,
              kind := (PlanNode.ofJson node).kind } := by
  have held : ∀ name value, (labelled (.str label) node).get? name = some value →
      (labelled (.str label) node).item name = .ok value :=
    fun _ _ found => item_of_get? found
  rw [Node.fromDict, held "id" _ (by simpa [labelled] using reads.id),
    held "task" (node.getD "task" (.str label)) (by simp [labelled]),
    held "skill" _ (by simpa [labelled] using reads.skill)]
  have args : (labelled (.str label) node).getD "args" (.obj []) =
      .obj (PlanNode.ofJson node).args := by
    simp [labelled, Json.getD, reads.args]
  have after : (labelled (.str label) node).getD "after" (.arr []) =
      .arr ((PlanNode.ofJson node).after.map .str) := by
    simp [labelled, Json.getD, reads.after]
  have onFail : (labelled (.str label) node).getD "on_fail" (.obj []) =
      node.getD "on_fail" (.obj []) := by
    simp [labelled, Json.getD]
  have executor : (labelled (.str label) node).getD "executor" .null =
      (PlanNode.ofJson node).executor := by
    simp [labelled, Json.getD, PlanNode.executor, PlanNode.ofJson]
  have kind : (labelled (.str label) node).getD "kind" (.str "manipulate") =
      (PlanNode.ofJson node).kind := by
    simp [labelled, Json.getD, PlanNode.kind, PlanNode.ofJson, kindOf]
  rw [args, after, onFail, executor, kind]
  simp only [bind_ok, Json.text, Json.dict, Json.iter, mapM_text]
  rfl

omit [Host] in
theorem nodes_agree {nodes : List Json} (reads : ∀ node ∈ nodes, NodeReads node) (label : String)
    (iterable : ∀ node ∈ nodes, OnFailIterable node) :
    (nodes.map (labelled (.str label))).mapM Node.fromDict = nodes.mapM (planNode label) := by
  have each : ∀ node ∈ nodes, Node.fromDict (labelled (.str label) node) = planNode label node := by
    intro node mem
    rw [fromDict_labelled (reads node mem), planNode_of_reads (reads node mem),
      onFailOf_eq_of_iterable (iterable node mem)]
  induction nodes with
  | nil => rfl
  | cons node rest ih =>
      rw [List.map_cons, List.mapM_cons, List.mapM_cons, each node List.mem_cons_self,
        ih (fun other mem => reads other (.tail _ mem))
          (fun other mem => iterable other (.tail _ mem))
          (fun other mem => each other (.tail _ mem))]

/-! ## The two graphs -/

def labelText (plan : Json) : String := (((docTasks plan).map taskId).head?).getD "main"

omit [Host] in
theorem labelOf_eq {plan : Json} (reads : PlanReads plan) : labelOf plan = .str (labelText plan) := by
  obtain ⟨tasks, parsed, labelled⟩ := planTasks_of_reads reads
  rw [planTasks_eq reads.tasks] at parsed
  cases parsed
  rw [labelled, List.head?_map, labelText, List.head?_map, Option.map_map]
  rfl

theorem planToGraph_eq {plan : Json} (reads : PlanReads plan) :
    ∃ mission, planToGraph plan = (nodesOf plan).mapM (planNode (labelText plan)) >>= fun nodes =>
      pyInt (plan.getD "seed" (.int 0)) >>= fun seed =>
        .ok { mission, seed, tasks := (docTasks plan).map asWritten, nodes } := by
  obtain ⟨goal, goalRead⟩ := reads.goal
  have head : (((docTasks plan).map asWritten).head?.map Protocol.Task.id).getD "main" =
      labelText plan := by
    rw [List.head?_map, labelText, List.head?_map, Option.map_map]
    rfl
  refine ⟨goal, ?_⟩
  rw [planToGraph, planTasks_eq reads.tasks, item_of_get? reads.nodes, item_of_get? goalRead]
  simp only [bind_ok, Json.iter, Json.text, head]
  rfl

theorem fromDict_documentOf {plan : Json} (reads : PlanReads plan) :
    ∃ mission, ExecutionGraph.fromDict (documentOf plan) =
      pyInt (plan.getD "seed" (.int 0)) >>= fun seed =>
        (docTasks plan).mapM Protocol.Task.fromDict >>= fun tasks =>
          ((nodesOf plan).map (labelled (.str (labelText plan)))).mapM Node.fromDict >>= fun nodes =>
            .ok { mission, seed, tasks, nodes } := by
  refine ⟨pyStr (plan.getD "goal" .null), ?_⟩
  rw [ExecutionGraph.fromDict, documentOf, labelOf_eq reads]
  rfl

/-- What a caller gets from `validate_graph`: the answer, or nothing when it raises. -/
def verdict (graph : Except PyError ExecutionGraph) (records : List (Json × SkillRecordV0))
    (facts : List PredRef) (objects : List String) : Option (Bool × List String) :=
  (graph >>= fun graph => validateGraph graph records facts objects).toOption

section

variable {plan other : Json} {catalogue : Catalogue}

theorem Respells.reads (respells : Respells plan other) (reads : PlanReads plan) :
    PlanReads other ∧ nodesOf other = nodesOf plan ∧ labelText other = labelText plan := by
  have nodes : nodesOf other = nodesOf plan := by
    rw [nodesOf, nodesOf, Json.getD, Json.getD, respells.fields "nodes" (by decide)]
  refine ⟨⟨?_, ?_, respells.declared, ?_⟩, nodes, ?_⟩
  · obtain ⟨goal, goalRead⟩ := reads.goal
    exact ⟨goal, (respells.fields "goal" (by decide)).trans goalRead⟩
  · rw [nodes, respells.fields "nodes" (by decide)]
    exact reads.nodes
  · rw [nodes]
    exact reads.each
  · have ids : (docTasks other).map taskId = (docTasks plan).map taskId :=
      map_eq_of_forall₂ respells.tasks (fun _ _ here => here.id)
    rw [labelText, labelText, ids]

/-- Neither constructor gives a verdict, or both read the same graph: every `on_fail` can be
iterated over, and the goals are written canonically or never reached. -/
def AgreeWhen (plan other : Json) : Prop :=
  ¬ Converts plan ∨
    (∀ node ∈ nodesOf plan, OnFailIterable node) ∧
      ((∀ goal ∈ goalsOf other, IsCanonical goal) ∨
        (∀ goal ∈ goalsOf plan, Returns (predRefStr (refOfStr goal))) ∧
          ∃ node ∈ nodesOf plan, (taskLabel node).hashable = false ∨
            (node.getD "executor" .null).hashable = false)

theorem returns_fromDict_tasks_iff {items : List Json}
    (forms : ∀ task ∈ items, taskForm task = true) :
    Returns (items.mapM Protocol.Task.fromDict) ↔
      ∀ goal ∈ items.flatMap goalTexts, Returns (predRefStr (refOfStr goal)) := by
  rw [returns_mapM_iff]
  have each : ∀ task ∈ items, (Returns (Protocol.Task.fromDict task) ↔
      ∀ goal ∈ goalTexts task, Returns (predRefStr (refOfStr goal))) := by
    intro task mem
    rw [fromDict_eq (forms task mem), returns_bind, ← returns_mapM_iff]
    exact ⟨fun ⟨goal, done, _⟩ => ⟨goal, done⟩, fun ⟨goal, done⟩ => ⟨goal, done, _, rfl⟩⟩
  constructor
  · intro parsed goal mem
    obtain ⟨task, inside, listed⟩ := List.mem_flatMap.mp mem
    exact (each task inside).mp (parsed task inside) goal listed
  · intro parsed task mem
    exact (each task mem).mpr
      (fun goal listed => parsed goal (List.mem_flatMap.mpr ⟨task, mem, listed⟩))

omit [Host] in
theorem lookable_of_lifted {node : Json} (reads : NodeReads node) {label : String} {lifted : Node}
    (done : planNode label node = .ok lifted) :
    Lookable lifted ↔
      (taskLabel node).hashable = true ∧ (node.getD "executor" .null).hashable = true := by
  rw [planNode_of_reads reads] at done
  obtain ⟨_, _, built⟩ := of_bind done
  cases built
  refine and_congr ?_ Iff.rfl
  rw [taskLabel, Json.getD, Json.getD]
  cases node.get? "task" <;> simp [Json.hashable]

theorem verdict_isSome {graph : ExecutionGraph} (nonempty : graph.nodes ≠ [])
    (skills : ∀ node ∈ graph.nodes, node.skill.hashable = true) :
    (validateGraph graph [] [] []).toOption.isSome = true := by
  have unknown : graph.nodes.mapM (findRecord []) = .ok (graph.nodes.map (fun node =>
      ([], ["node " ++ Host.repr (.str node.id) ++ " names unknown skill " ++
        Host.repr node.skill]))) := by
    rw [mapM_eq_ok_iff, List.forall₂_map_right_iff, List.forall₂_same]
    intro node mem
    rw [findRecord, (hashed_eq_ok_iff _).mpr (skills node mem)]
    rfl
  have some_ : (indexNodes graph.nodes Dict.empty).2 ++ ((graph.nodes.map (fun node =>
      (([], ["node " ++ Host.repr (.str node.id) ++ " names unknown skill " ++
        Host.repr node.skill]) : List (Node × SkillRecordV0) × List String))).map
          Prod.snd).flatten ++
        (ancestors (indexNodes graph.nodes Dict.empty).1).problems ≠ [] := by
    obtain ⟨first, rest, split⟩ := List.exists_cons_of_ne_nil nonempty
    intro empty
    rw [split] at empty
    simp at empty
  unfold validateGraph
  rw [unknown]
  simp only [bind_ok, List.mapM_nil, pure_eq_ok]
  rw [if_pos some_]
  rfl

/-- `from_dict` reads the document when both conversions work as they stand and the goals parse. -/
theorem returns_fromDict_iff (reads : PlanReads plan) :
    Returns (ExecutionGraph.fromDict (documentOf plan)) ↔
      Converts plan ∧ (∀ node ∈ nodesOf plan, OnFailIterable node) ∧
        ∀ goal ∈ goalsOf plan, Returns (predRefStr (refOfStr goal)) := by
  obtain ⟨mission, document⟩ := fromDict_documentOf reads
  have tasks := returns_fromDict_tasks_iff
    (fun task mem => form_of_mem_docTasks reads.tasks mem : ∀ task ∈ docTasks plan, _)
  rw [document]
  simp only [returns_bind]
  constructor
  · rintro ⟨seed, seeded, parsed, parsing, built, building, _⟩
    have each : ∀ node ∈ nodesOf plan, Returns (onFailOf node) ∧ OnFailIterable node := by
      intro node mem
      obtain ⟨_, done⟩ := returns_mapM_iff.mp ⟨built, building⟩ _
        (List.mem_map_of_mem mem)
      rw [fromDict_labelled (reads.each node mem)] at done
      obtain ⟨onFail, converted, _⟩ := of_bind done
      exact returns_onFailOf_of_pyDict ⟨onFail, converted⟩
    exact ⟨⟨fun node mem => (each node mem).1, seed, seeded⟩,
      fun node mem => (each node mem).2, tasks.mp ⟨parsed, parsing⟩⟩
  · rintro ⟨converts, iterable, parses⟩
    obtain ⟨seed, seeded⟩ := converts.seed
    obtain ⟨parsed, parsing⟩ := tasks.mpr parses
    obtain ⟨built, building⟩ : Returns ((nodesOf plan).mapM (planNode (labelText plan))) :=
      returns_mapM_iff.mpr (fun node mem =>
        (returns_planNode_iff (reads.each node mem) _).mpr (converts.onFail node mem))
    refine ⟨seed, seeded, parsed, parsing, built, ?_, _, rfl⟩
    rw [nodes_agree reads.each _ iterable]
    exact building

theorem verdict_of_raises {graph : Except PyError ExecutionGraph} (raises : ¬ Returns graph)
    (records : List (Json × SkillRecordV0)) (facts : List PredRef) (objects : List String) :
    verdict graph records facts objects = none := by
  cases graph with
  | error _ => rfl
  | ok graph => exact absurd ⟨graph, rfl⟩ raises

theorem parses_of_canonical (respells : Respells plan other)
    (canonical : ∀ goal ∈ goalsOf other, IsCanonical goal) :
    ∀ goal ∈ goalsOf plan, Returns (predRefStr (refOfStr goal)) := by
  intro goal mem
  obtain ⟨task, inside, listed⟩ := List.mem_flatMap.mp mem
  obtain ⟨otherTask, otherInside, here⟩ := exists_right_of_forall₂ respells.tasks inside
  obtain ⟨again, againListed, same⟩ := exists_right_of_forall₂ here.goal listed
  have prints := canonical again (List.mem_flatMap.mpr ⟨otherTask, otherInside, againListed⟩)
  refine ⟨again, ?_⟩
  rw [IsCanonical, predRefStr, same] at prints
  exact prints

theorem nodes_of_planToGraph (reads : PlanReads plan) (some_ : nodesOf plan ≠ [])
    (nodes : AcceptedNodes catalogue (nodesOf plan)) {graph : ExecutionGraph}
    (built : planToGraph plan = .ok graph) :
    InOrder graph.nodes ∧ graph.nodes ≠ [] ∧
      ∀ node ∈ graph.nodes, node.skill.hashable = true := by
  have lifts := lifts_of_planToGraph reads built
  have order : ViewsInOrder (planNodes plan) := nodes.inOrder (fun _ => rfl) (fun _ => rfl)
  refine ⟨inOrder_of_lifts lifts order, ?_, ?_⟩
  · intro empty
    rw [empty, List.forall₂_nil_right_iff, planNodes, List.map_eq_nil_iff] at lifts
    exact some_ lifts
  · intro node mem
    obtain ⟨view, viewMember, here⟩ := exists_left_of_forall₂ lifts mem
    obtain ⟨source, inside, same⟩ := List.mem_map.mp viewMember
    subst same
    obtain ⟨first, rest, split⟩ := List.append_of_mem inside
    rw [here.skill]
    exact (nodes first source rest split).hashable

/-- Where both constructors build a graph, the graphs are judged alike exactly when the goals are
canonical or never reached. -/
theorem verdicts_agree_iff (reads : PlanReads plan) (respells : Respells plan other)
    (iterable : ∀ node ∈ nodesOf plan, OnFailIterable node)
    {graph also : ExecutionGraph} (built : planToGraph other = .ok graph)
    (document : ExecutionGraph.fromDict (documentOf plan) = .ok also)
    (inOrder : InOrder graph.nodes) (skills : ∀ node ∈ graph.nodes, node.skill.hashable = true) :
    (∀ records facts objects, verdict (planToGraph other) records facts objects =
        verdict (ExecutionGraph.fromDict (documentOf plan)) records facts objects) ↔
      (∀ goal ∈ goalsOf other, IsCanonical goal) ∨ ∃ node ∈ nodesOf plan,
        (taskLabel node).hashable = false ∨ (node.getD "executor" .null).hashable = false := by
  obtain ⟨readsOther, nodesEq, labelEq⟩ := respells.reads reads
  obtain ⟨mission, written⟩ := planToGraph_eq readsOther
  obtain ⟨missionDoc, read⟩ := fromDict_documentOf reads
  have seedEq : other.getD "seed" (.int 0) = plan.getD "seed" (.int 0) := by
    rw [Json.getD, Json.getD, respells.fields "seed" (by decide)]
  rw [nodesEq, labelEq, seedEq, built] at written
  rw [nodes_agree reads.each _ iterable, document] at read
  obtain ⟨lifted, lifting, written⟩ := of_bind written.symm
  obtain ⟨seed, seeded, written⟩ := of_bind written
  obtain ⟨_, seededAgain, read⟩ := of_bind read.symm
  obtain ⟨tasks, parsed, read⟩ := of_bind read
  obtain ⟨_, liftingAgain, read⟩ := of_bind read
  cases written
  cases read
  rw [lifting] at liftingAgain
  cases liftingAgain
  have beside := beside_of_respells respells.tasks parsed
  have parallel : Parallel ((docTasks other).map asWritten) tasks := parallel_of_beside beside
  rw [built, document]
  refine (answers_eq_iff ⟨mission, seed, (docTasks other).map asWritten, lifted⟩
    ⟨missionDoc, seed, tasks, lifted⟩ inOrder rfl parallel skills).trans ?_
  rw [asWritten_eq_iff beside]
  refine or_congr Iff.rfl ?_
  have along := mapM_eq_ok_iff.mp lifting
  constructor
  · rintro ⟨node, mem, unknown⟩
    obtain ⟨source, inside, done⟩ := exists_left_of_forall₂ along mem
    rw [lookable_of_lifted (reads.each source inside) done] at unknown
    refine ⟨source, inside, ?_⟩
    simpa [imp_iff_not_or] using unknown
  · rintro ⟨source, inside, unknown⟩
    obtain ⟨node, mem, done⟩ := exists_right_of_forall₂ along inside
    refine ⟨node, mem, ?_⟩
    rw [lookable_of_lifted (reads.each source inside) done]
    rintro ⟨task, executor⟩
    rw [task, executor] at unknown
    simp at unknown

/-- For a plan that passed the checks of shape and any spelling of its goals, the two constructors
get the same verdicts exactly when neither gets any or they read the same graph. -/
theorem constructors_agree_iff (shape : checkShape plan = .ok ())
    (nodes : AcceptedNodes catalogue (nodesOf plan)) (respells : Respells plan other) :
    (∀ records facts objects, verdict (planToGraph other) records facts objects =
        verdict (ExecutionGraph.fromDict (documentOf plan)) records facts objects) ↔
      AgreeWhen plan other := by
  have reads := planReads_of_checks shape nodes
  obtain ⟨readsOther, nodesEq, _⟩ := respells.reads reads
  have seedEq : other.getD "seed" (.int 0) = plan.getD "seed" (.int 0) := by
    rw [Json.getD, Json.getD, respells.fields "seed" (by decide)]
  have writes : Returns (planToGraph other) ↔ Converts plan := by
    rw [returns_planToGraph_iff readsOther, nodesEq, seedEq]
    exact ⟨fun both => ⟨both.1, both.2⟩, fun converts => ⟨converts.onFail, converts.seed⟩⟩
  have document := returns_fromDict_iff reads
  by_cases converts : Converts plan
  · obtain ⟨graph, built⟩ := writes.mpr converts
    have some_ : nodesOf plan ≠ [] := by
      intro empty
      simp only [checkShape, Gate.require_bind_eq_ok] at shape
      rw [empty] at shape
      cases shape.2.2.1
    rw [← nodesEq] at some_
    obtain ⟨inOrder, nonempty, skills⟩ :=
      nodes_of_planToGraph readsOther some_ (by rw [nodesEq]; exact nodes) built
    by_cases readable : Returns (ExecutionGraph.fromDict (documentOf plan))
    · obtain ⟨_, iterable, parses⟩ := document.mp readable
      obtain ⟨also, read⟩ := readable
      refine (verdicts_agree_iff reads respells iterable built read inOrder skills).trans ?_
      constructor
      · rintro (canonical | dark)
        · exact Or.inr ⟨iterable, Or.inl canonical⟩
        · exact Or.inr ⟨iterable, Or.inr ⟨parses, dark⟩⟩
      · rintro (never | ⟨_, canonical | ⟨_, dark⟩⟩)
        · exact absurd converts never
        · exact Or.inl canonical
        · exact Or.inr dark
    · constructor
      · intro agree
        have here := agree [] [] []
        rw [verdict_of_raises readable, built] at here
        have judged := verdict_isSome nonempty skills
        rw [show (validateGraph graph [] [] []).toOption = none from here] at judged
        cases judged
      · rintro (never | ⟨iterable, canonical | ⟨parses, _⟩⟩)
        · exact absurd converts never
        · exact absurd (document.mpr ⟨converts, iterable, parses_of_canonical respells canonical⟩)
            readable
        · exact absurd (document.mpr ⟨converts, iterable, parses⟩) readable
  · refine ⟨fun _ => Or.inl converts, fun _ records facts objects => ?_⟩
    rw [verdict_of_raises (fun built => converts (writes.mp built)),
      verdict_of_raises (fun read => converts (document.mp read).1)]

end

end

section Example

local instance spellHost : Host := asciiHost

private def stackPlan (goal : String) : Json :=
  .obj [("goal", .str "stack"),
    ("tasks", .arr [.obj [("id", .str "t"), ("goal", .arr [.str goal])]]),
    ("nodes", .arr [.obj [("id", .str "a"), ("skill", .str "stack"), ("args", .obj []),
      ("after", .arr [])]]),
    ("verify", .arr [.obj [("after", .str "a"), ("predicate", .str "seen")]])]

private def stackRecords : List (Json × SkillRecordV0) :=
  [(.str "stack", { id := .str "stack", name := .str "stack", ensures := ["on(a, b)"] })]

private theorem shape_stackPlan (goal : String) (nonempty : goal ≠ "") :
    checkShape (stackPlan goal) = .ok () := by
  have task : taskForm (.obj [("id", .str "t"), ("goal", .arr [.str goal])]) = true := by
    simp [taskForm, Json.isMapping, Json.getD, Json.get?, Json.arr?, Assoc.get?_cons,
      Json.isNonemptyStr, nonempty]
  rw [checkShape]
  simp only [Gate.require_bind_eq_ok]
  refine ⟨rfl, rfl, rfl, Gate.each_eq_ok_iff.mpr (fun entry mem => ?_)⟩
  cases List.mem_singleton.mp mem
  exact Gate.require_eq_ok_iff.mpr task

theorem constructors_agree_stack : checkShape (stackPlan "on(a,b)") = .ok () ∧
    ∀ records facts objects, verdict (planToGraph (stackPlan "on(a,b)")) records facts objects =
      verdict (ExecutionGraph.fromDict (documentOf (stackPlan "on(a,b)"))) records facts objects := by
  have shape := shape_stackPlan "on(a,b)" (by decide)
  have nodes : AcceptedNodes [("stack", [])] (nodesOf (stackPlan "on(a,b)")) := by
    have passed : checkNodes [("stack", [])] [] 0 (nodesOf (stackPlan "on(a,b)")) = .ok ["a"] := by
      rfl
    exact (acceptedNodes_iff.mp passed).2
  refine ⟨shape, (constructors_agree_iff shape nodes
    (respells_refl (planReads_of_checks shape nodes))).mpr (Or.inr ⟨?_, Or.inl ?_⟩)⟩
  · intro node member value held
    cases List.mem_singleton.mp member
    cases held
  · intro goal member
    cases List.mem_singleton.mp member
    rw [IsCanonical]
    decide +kernel

/-- A blank after the comma: the document's goal is ensured, the plan's is not. -/
theorem blank_hides_goal :
    verdict (ExecutionGraph.fromDict (documentOf (stackPlan "on(a, b)"))) stackRecords [] [] =
        some (true, []) ∧
      verdict (planToGraph (stackPlan "on(a, b)")) stackRecords [] [] =
        some (false, ["covered: task 't' goal on(a, b) is ensured by none of its nodes"]) ∧
      verdict (planToGraph (stackPlan "on(a,b)")) stackRecords [] [] = some (true, []) ∧
      checkShape (stackPlan "on(a, b)") = .ok () ∧
      checkNodes [("stack", [])] [] 0 (nodesOf (stackPlan "on(a, b)")) = .ok ["a"] ∧
      ¬ ∀ records facts objects,
        verdict (planToGraph (stackPlan "on(a, b)")) records facts objects =
          verdict (ExecutionGraph.fromDict (documentOf (stackPlan "on(a, b)"))) records facts
            objects := by
  have document : verdict (ExecutionGraph.fromDict (documentOf (stackPlan "on(a, b)")))
      stackRecords [] [] = some (true, []) := by
    decide +kernel
  have written : verdict (planToGraph (stackPlan "on(a, b)")) stackRecords [] [] =
      some (false, ["covered: task 't' goal on(a, b) is ensured by none of its nodes"]) := by
    decide +kernel
  refine ⟨document, written, by decide +kernel, shape_stackPlan _ (by decide), rfl,
    fun agree => ?_⟩
  have same := agree stackRecords [] []
  rw [document, written] at same
  cases same

end Example

end Task
end PhysicalHarness
