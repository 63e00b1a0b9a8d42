import PhysicalHarness.Protocol.Soundness
import PhysicalHarness.Task.Reading

namespace PhysicalHarness
namespace Task

open Python Protocol
open Fallible

section

variable [Host]

/-!
# When the gate answers

The gate stands between an untrusted planner and the loop, and the loop does not
catch its exceptions.  It answers unless it reaches a field that it cannot look
up or convert: a `kind`, `skill`, `task` or verify predicate that is a list or
an object, an `on_fail` that is no dict, or a `seed` that is no number.
`Readable` names these fields with the checks that must pass before each is
reached, and the gate answers exactly when the plan is readable.
-/

def ContractFree (record : SkillRecordV0) : Prop :=
  record.requires = [] ∧ record.ensures = [] ∧ record.clobbers = []

/-- What the stages before the protocol gate establish for a node of the graph. -/
structure Resolved (records : List (Json × SkillRecordV0)) (node : Node) : Prop where
  hashable : node.skill.hashable = true
  record : ∃ record, recordFor records node.skill = some record ∧ ContractFree record
  unbound : node.executor = .null

variable {records : List (Json × SkillRecordV0)} {catalogue : Catalogue} {plan : Json}
  {oracles ids : List String}

theorem findRecord_of_resolved {node : Node} (resolved : Resolved records node) :
    ∃ record, findRecord records node = .ok ([(node, record)], []) ∧ ContractFree record := by
  obtain ⟨record, found, free⟩ := resolved.record
  refine ⟨record, ?_, free⟩
  rw [findRecord, (hashed_eq_ok_iff _).mpr resolved.hashable]
  simp [found]

/-- Resolving the skills of a resolved graph finds a contract-free record for
every node and no problem. -/
theorem resolve_of_resolved {nodes : List Node} (resolved : ∀ node ∈ nodes, Resolved records node) :
    ∃ found, nodes.mapM (findRecord records) = .ok found ∧
      (found.map Prod.snd).flatten = [] ∧
      (found.map Prod.fst).flatten.map Prod.fst = nodes ∧
      ∀ pair ∈ (found.map Prod.fst).flatten, ContractFree pair.2 := by
  induction nodes with
  | nil => exact ⟨[], rfl, rfl, rfl, nofun⟩
  | cons node rest ih =>
      obtain ⟨record, here, free⟩ := findRecord_of_resolved (resolved node (.head _))
      obtain ⟨found, there, clean, nodesEq, each⟩ :=
        ih (fun other mem => resolved other (.tail _ mem))
      refine ⟨([(node, record)], []) :: found, ?_, ?_, ?_, ?_⟩
      · rw [List.mapM_cons, here, bind_ok, there]
        rfl
      · simpa using clean
      · simpa using nodesEq
      · intro pair mem
        rw [List.map_cons, List.flatten_cons] at mem
        rcases List.mem_append.mp mem with atHead | later
        · cases List.mem_singleton.mp atHead
          exact free
        · exact each pair later

theorem returns_typedProblems_iff (tasks : List String) (pair : Node × SkillRecordV0) :
    Returns (typedProblems tasks pair) ↔ pair.1.task.hashable = true := by
  rw [typedProblems, returns_bind, ← hashed_eq_ok_iff]
  constructor
  · rintro ⟨_, looked, _⟩
    exact looked
  · intro looked
    exact ⟨(), looked, _, rfl⟩

theorem place_of_free {pair : Node × SkillRecordV0} (free : ContractFree pair.2) :
    place pair = .ok ⟨pair.1, pair.2, ⟨[], [], []⟩⟩ := by
  obtain ⟨requires, ensures, clobbers⟩ := free
  simp [place, contractOf, requires, ensures, clobbers]

theorem returns_groundedProblems {placed : List Placed} (anc : Dict String (List String))
    (free : ∀ here ∈ placed, here.contract.ensures = []) (objects : List String) (here : Placed) :
    Returns (groundedProblems placed anc objects here) := by
  have nothing : ∀ m, ensuresOf placed m = [] := by
    intro m
    unfold ensuresOf
    cases found : placed.find? (fun other => other.id = m) with
    | none => rfl
    | some other => exact free other (List.mem_of_find?_eq_some found)
  rw [groundedProblems, returns_bind]
  obtain ⟨produced, done⟩ := returns_collect_iff.mpr
    (fun m (_ : m ∈ (anc.get? here.id).getD []) =>
      (⟨[], by rw [nothing m]; rfl⟩ : Returns (collect producedArgs (ensuresOf placed m))))
  exact ⟨produced, done, _, rfl⟩

theorem returns_validateGraph_iff {graph : ExecutionGraph} (inOrder : InOrder graph.nodes)
    (resolved : ∀ node ∈ graph.nodes, Resolved records node) :
    Returns (validateGraph graph records [] []) ↔
      ∀ node ∈ graph.nodes, node.task.hashable = true := by
  obtain ⟨found, ran, clean, nodesEq, free⟩ := resolve_of_resolved resolved
  have indexed : (indexNodes graph.nodes Dict.empty).2 = [] ∧
      (indexNodes graph.nodes Dict.empty).1.keys = Dict.empty.keys ++ graph.nodes.map Node.id :=
    indexNodes_of_nodup inOrder.distinct (fun _ _ never => by cases never)
  have acyclic := ancestors_clean inOrder.ranked
  unfold validateGraph
  rw [ran]
  simp only [bind_ok, List.mapM_nil, pure_eq_ok, indexed.1, clean, acyclic,
    List.append_nil, ne_eq, not_true_eq_false, if_false]
  generalize (found.map Prod.fst).flatten = pairs at nodesEq free
  have unbound : ∀ pair ∈ pairs, boundProblems pair = .ok [] := by
    intro pair mem
    have executor := (resolved pair.1 (nodesEq ▸ List.mem_map_of_mem mem)).unbound
    rw [boundProblems]
    simp [executor, Json.isNull]
  have bound : collect boundProblems pairs = .ok [] :=
    collect_eq_nil_iff.mpr unbound
  obtain ⟨placed, placing⟩ : Returns (pairs.mapM place) :=
    returns_mapM_iff.mpr (fun pair mem => ⟨_, place_of_free (free pair mem)⟩)
  have silent : ∀ here ∈ placed, here.contract.ensures = [] := by
    intro here mem
    obtain ⟨pair, pairMember, done⟩ := exists_mem_of_mapM placing mem
    rw [place_of_free (free pair pairMember)] at done
    cases done
    rfl
  obtain ⟨grounded, grounding⟩ := returns_collect_iff.mpr
    (fun here (_ : here ∈ placed) => returns_groundedProblems
      (ancestors (indexNodes graph.nodes Dict.empty).1).anc silent [] here)
  rw [bound, placing]
  simp only [bind_ok, grounding, returns_bind, returns_ok, and_true]
  constructor
  · intro typed node mem
    rw [← nodesEq] at mem
    obtain ⟨pair, pairMember, same⟩ := List.mem_map.mp mem
    subst same
    exact (returns_typedProblems_iff _ pair).mp (returns_collect_iff.mp typed pair pairMember)
  · intro hashable
    exact returns_collect_iff.mpr (fun pair mem =>
      (returns_typedProblems_iff _ pair).mpr
        (hashable pair.1 (nodesEq ▸ List.mem_map_of_mem mem)))

/-! ## The stage of types -/

omit [Host] in
theorem recordFor_setDefault_of_isSome {skill : Json} (known : (recordFor records skill).isSome)
    (key : Json) (record : SkillRecordV0) :
    (recordFor (setDefault records key record) skill).isSome := by
  unfold setDefault
  split
  · exact known
  · unfold recordFor at known ⊢
    rw [List.find?_append]
    cases found : records.find? (fun entry => entry.1.eq skill) with
    | none => simp [found] at known
    | some entry => rfl

omit [Host] in
theorem mem_setDefault {key : Json} {record : SkillRecordV0} {entry : Json × SkillRecordV0}
    (mem : entry ∈ setDefault records key record) : entry ∈ records ∨ entry = (key, record) := by
  unfold setDefault at mem
  split at mem
  · exact Or.inl mem
  · rcases List.mem_append.mp mem with old | new
    · exact Or.inl old
    · exact Or.inr (List.mem_singleton.mp new)

omit [Host] in
theorem withRecoveries_contractFree (free : ∀ entry ∈ records, ContractFree entry.2)
    (nodes : List Json) :
    ∀ entry ∈ withRecoveries records nodes, ContractFree entry.2 := by
  unfold withRecoveries
  induction nodes generalizing records with
  | nil => exact free
  | cons node rest ih =>
      rw [List.foldl_cons]
      refine ih (fun entry mem => ?_)
      split at mem
      · rcases mem_setDefault mem with old | new
        · exact free entry old
        · rw [new]
          exact ⟨rfl, rfl, rfl⟩
      · exact free entry mem

omit [Host] in
theorem recordFor_withRecoveries_of_isSome {skill : Json} (known : (recordFor records skill).isSome)
    (nodes : List Json) :
    (recordFor (withRecoveries records nodes) skill).isSome := by
  unfold withRecoveries
  induction nodes generalizing records with
  | nil => exact known
  | cons node rest ih =>
      rw [List.foldl_cons]
      refine ih ?_
      split
      · exact recordFor_setDefault_of_isSome known _ _
      · exact known

omit [Host] in
theorem recordFor_withRecoveries_of_recovery {nodes : List Json} {node : Json}
    (mem : node ∈ nodes) (recovery : (node.getD "kind" .null).eq (.str "recovery") = true) :
    (recordFor (withRecoveries records nodes) (node.getD "skill" .null)).isSome := by
  obtain ⟨first, rest, split⟩ := List.append_of_mem mem
  subst split
  unfold withRecoveries
  rw [List.foldl_append, List.foldl_cons, if_pos recovery]
  exact recordFor_withRecoveries_of_isSome (recordFor_setDefault _ _ _) rest

omit [Host] in
theorem recordFor_catalogueRecords {skill : Json} (known : inCatalogue catalogue skill = true) :
    (recordFor (catalogueRecords catalogue) skill).isSome := by
  obtain ⟨name, mem, same⟩ := List.any_eq_true.mp known
  obtain ⟨entry, entryMember, nameEq⟩ := List.mem_map.mp mem
  rw [recordFor, Option.isSome_map, List.find?_isSome]
  refine ⟨(.str entry.1, argRecord (.str entry.1) entry.2),
    List.mem_map_of_mem entryMember, ?_⟩
  rw [nameEq, (Json.eq_str_iff _ _).mp same]
  exact Json.eq_self _

omit [Host] in
theorem kind_of_recovery {node : Json} (recovery : kindOf node = .str "recovery") :
    (node.getD "kind" .null).eq (.str "recovery") = true := by
  cases found : node.get? "kind" with
  | none => simp [kindOf, Json.getD, found] at recovery
  | some value =>
      rw [kindOf, Json.getD, found, Option.getD_some] at recovery
      rw [Json.getD, found, Option.getD_some, recovery]
      exact Json.eq_self _

omit [Host] in
theorem resolved_of_accepted (accepted : AcceptedNodes catalogue (nodesOf plan)) {source : Json}
    (mem : source ∈ nodesOf plan) {node : Node}
    (lifts : Lifts (typedPlan plan) (PlanNode.ofJson (withoutExecutor source)) node) :
    Resolved (withRecoveries (catalogueRecords catalogue) (nodesOf plan)) node := by
  obtain ⟨first, rest, split⟩ := List.append_of_mem mem
  have good := accepted first source rest split
  have skillEq : node.skill = (PlanNode.ofJson source).skill := by
    rw [lifts.skill, ofJson_withoutExecutor]
  have typedOnly : ∀ entry ∈ catalogueRecords catalogue, ContractFree entry.2 := by
    intro entry entryMember
    obtain ⟨source, _, same⟩ := List.mem_map.mp entryMember
    exact same ▸ ⟨rfl, rfl, rfl⟩
  have free := withRecoveries_contractFree typedOnly (nodesOf plan)
  have known : (recordFor (withRecoveries (catalogueRecords catalogue) (nodesOf plan))
      node.skill).isSome := by
    rw [skillEq]
    rcases good.known with listed | recovery
    · exact recordFor_withRecoveries_of_isSome (recordFor_catalogueRecords listed) _
    · exact recordFor_withRecoveries_of_recovery mem (kind_of_recovery recovery)
  obtain ⟨record, found⟩ := Option.isSome_iff_exists.mp known
  refine ⟨skillEq ▸ good.hashable, ⟨record, found, ?_⟩, ?_⟩
  · obtain ⟨entry, entryFound, same⟩ := Option.map_eq_some_iff.mp found
    exact same ▸ free entry (List.mem_of_find?_eq_some entryFound)
  · rw [lifts.executor, PlanNode.executor, ofJson_withoutExecutor, Json.getD,
      get?_withoutExecutor]
    rfl

/-- The task label of a node, some string when the node names none. -/
def taskLabel (node : Json) : Json := node.getD "task" (.str "main")

omit [Host] in
theorem hashable_task_iff {node : Json} {lifted : Node} {label : String}
    (labelled : labelOf plan = .str label)
    (lifts : Lifts plan (PlanNode.ofJson (withoutExecutor node)) lifted) :
    lifted.task.hashable = true ↔ (taskLabel node).hashable = true := by
  rw [lifts.task, PlanNode.task, labelled, ofJson_withoutExecutor, taskLabel, Json.getD, Json.getD,
    get?_withoutExecutor]
  cases node.get? "task" <;> simp [Json.hashable]

/-- The two conversions of `plan_to_graph`. -/
structure Converts (plan : Json) : Prop where
  onFail : ∀ node ∈ nodesOf plan, Returns (onFailOf node)
  seed : Returns (pyInt (plan.getD "seed" (.int 0)))

omit [Host] in
theorem seed_typedPlan (plan : Json) :
    (typedPlan plan).getD "seed" (.int 0) = plan.getD "seed" (.int 0) := by
  simp [typedPlan, Json.getD]

theorem returns_typedGraph_iff (reads : PlanReads plan) :
    Returns (planToGraph (typedPlan plan)) ↔ Converts plan := by
  rw [returns_planToGraph_iff reads.typed, nodesOf_typedPlan, seed_typedPlan]
  constructor
  · rintro ⟨onFail, seed⟩
    exact ⟨fun node mem => onFailOf_withoutExecutor node ▸
      onFail _ (List.mem_map_of_mem mem), seed⟩
  · rintro ⟨onFail, seed⟩
    refine ⟨fun node mem => ?_, seed⟩
    obtain ⟨source, sourceMember, same⟩ := List.mem_map.mp mem
    exact same ▸ (onFailOf_withoutExecutor source).symm ▸ onFail source sourceMember

omit [Host] in
theorem planNodes_typedPlan (plan : Json) :
    planNodes (typedPlan plan) =
      (nodesOf plan).map (fun node => PlanNode.ofJson (withoutExecutor node)) := by
  rw [planNodes, nodesOf_typedPlan, List.map_map]
  rfl

theorem typedGraph_inOrder (reads : PlanReads plan)
    (accepted : AcceptedNodes catalogue (nodesOf plan)) {graph : ExecutionGraph}
    (built : planToGraph (typedPlan plan) = .ok graph) : InOrder graph.nodes := by
  refine inOrder_of_lifts (lifts_of_planToGraph reads.typed built) ?_
  rw [planNodes_typedPlan]
  exact accepted.inOrder (fun node => by rw [ofJson_withoutExecutor])
    (fun node => by rw [ofJson_withoutExecutor])

theorem exists_source (reads : PlanReads plan) {graph : ExecutionGraph}
    (built : planToGraph (typedPlan plan) = .ok graph) {node : Node} (mem : node ∈ graph.nodes) :
    ∃ source ∈ nodesOf plan,
      Lifts (typedPlan plan) (PlanNode.ofJson (withoutExecutor source)) node := by
  have lifts := lifts_of_planToGraph reads.typed built
  obtain ⟨first, rest, split⟩ := List.append_of_mem mem
  rw [split, planNodes_typedPlan] at lifts
  obtain ⟨before, view, after, viewSplit, _, here⟩ := forall₂_split_right lifts
  have viewMember : view ∈ (nodesOf plan).map (fun node => PlanNode.ofJson (withoutExecutor node)) :=
    viewSplit ▸ List.mem_append_right _ List.mem_cons_self
  obtain ⟨source, sourceMember, same⟩ := List.mem_map.mp viewMember
  exact ⟨source, sourceMember, same ▸ here⟩

theorem exists_lifted (reads : PlanReads plan) {graph : ExecutionGraph}
    (built : planToGraph (typedPlan plan) = .ok graph) {source : Json}
    (mem : source ∈ nodesOf plan) :
    ∃ node ∈ graph.nodes,
      Lifts (typedPlan plan) (PlanNode.ofJson (withoutExecutor source)) node := by
  have lifts := (lifts_of_planToGraph reads.typed built).flip
  rw [planNodes_typedPlan] at lifts
  obtain ⟨first, rest, split⟩ := List.append_of_mem mem
  rw [split, List.map_append, List.map_cons] at lifts
  obtain ⟨before, node, after, nodeSplit, _, here⟩ := forall₂_split_right lifts
  exact ⟨node, nodeSplit ▸ List.mem_append_right _ List.mem_cons_self, here⟩

theorem returns_judgeTyped_iff (reads : PlanReads plan)
    (accepted : AcceptedNodes catalogue (nodesOf plan)) :
    Returns (judgeTyped catalogue plan) ↔
      Converts plan ∧ ∀ node ∈ nodesOf plan, (taskLabel node).hashable = true := by
  obtain ⟨tasks, _, labelled⟩ := planTasks_of_reads reads.typed
  rw [judgeTyped, returns_bind, ← returns_typedGraph_iff reads]
  have judged : ∀ graph, planToGraph (typedPlan plan) = .ok graph →
      (Returns (validateGraph graph (withRecoveries (catalogueRecords catalogue) (nodesOf plan))
        [] []) ↔ ∀ node ∈ nodesOf plan, (taskLabel node).hashable = true) := by
    intro graph built
    rw [returns_validateGraph_iff (typedGraph_inOrder reads accepted built) (fun node mem =>
      let ⟨_, sourceMember, lifts⟩ := exists_source reads built mem
      resolved_of_accepted accepted sourceMember lifts)]
    constructor
    · intro each source mem
      obtain ⟨node, nodeMember, lifts⟩ := exists_lifted reads built mem
      exact (hashable_task_iff labelled lifts).mp (each node nodeMember)
    · intro each node mem
      obtain ⟨source, sourceMember, lifts⟩ := exists_source reads built mem
      exact (hashable_task_iff labelled lifts).mpr (each source sourceMember)
  constructor
  · rintro ⟨graph, built, answered⟩
    exact ⟨⟨graph, built⟩, (judged graph built).mp answered⟩
  · rintro ⟨⟨graph, built⟩, labels⟩
    exact ⟨graph, built, (judged graph built).mpr labels⟩

omit [Host] in
theorem hashable_of_admits {type : ArgType} {value : Json} (admits : type.admits value = true) :
    value.hashable = true := by
  cases type <;> cases value <;> first | rfl | cases admits

theorem hashable_args_of_typed {tasks : List String} {pair : Node × SkillRecordV0}
    (typed : typedProblems tasks pair = .ok []) :
    ∀ arg ∈ pair.1.args, arg.2.hashable = true := by
  obtain ⟨node, record⟩ := pair
  intro arg mem
  rw [typedProblems] at typed
  obtain ⟨_, _, rest⟩ := of_bind typed
  have none_ := Except.ok.inj rest
  rw [List.append_eq_nil_iff, List.append_eq_nil_iff] at none_
  obtain ⟨⟨_, shape⟩, values⟩ := none_
  have here := List.flatMap_eq_nil_iff.mp values arg mem
  have closed : sorted ((Assoc.keys node.args).filter (fun name => name ∉ Assoc.keys record.args)) =
      [] := by
    by_contra open_
    rw [if_neg (fun both => open_ both.2)] at shape
    cases shape
  cases declared : Assoc.get? record.args arg.1 with
  | none =>
      have unknown := (Assoc.get?_eq_none_iff _ _).mp declared
      have listed : arg.1 ∈ (Assoc.keys node.args).filter
          (fun name => name ∉ Assoc.keys record.args) := by
        rw [List.mem_filter, decide_eq_true_eq]
        exact ⟨List.mem_map_of_mem mem, unknown⟩
      have kept := (List.mem_insertionSort (fun left right => left ≤ right)).mpr listed
      rw [show List.insertionSort _ _ = [] from closed] at kept
      cases kept
  | some name =>
      cases known : Assoc.get? types name with
      | none => simp [declared, known] at here
      | some type =>
          by_cases admits : type.admits arg.2 = true
          · exact hashable_of_admits admits
          · simp [declared, known, admits] at here

theorem typed_of_legal {graph : ExecutionGraph} {facts : List PredRef}
    {objects problems : List String}
    (legal : validateGraph graph records facts objects = .ok (true, problems)) :
    ∀ node ∈ graph.nodes, ∃ record,
      typedProblems (graph.tasks.map Protocol.Task.id) (node, record) = .ok [] := by
  unfold validateGraph at legal
  obtain ⟨found, resolved, legal⟩ := of_bind legal
  obtain ⟨known, _, legal⟩ := of_bind legal
  by_cases clean : (indexNodes graph.nodes Dict.empty).2 ++ (found.map Prod.snd).flatten ++
      (ancestors (indexNodes graph.nodes Dict.empty).1).problems = []
  · simp only [clean, ne_eq, not_true_eq_false, if_false] at legal
    obtain ⟨typed, typing, legal⟩ := of_bind legal
    obtain ⟨bound, _, legal⟩ := of_bind legal
    obtain ⟨placed, _, legal⟩ := of_bind legal
    obtain ⟨grounded, _, legal⟩ := of_bind legal
    have empty := List.isEmpty_iff.mp (congrArg Prod.fst (Except.ok.inj legal))
    simp only [List.append_eq_nil_iff] at empty
    rw [empty.1.1.1.1] at typing
    rw [List.append_eq_nil_iff, List.append_eq_nil_iff] at clean
    obtain ⟨nodesEq, _⟩ := findRecords_clean (mapM_eq_ok_iff.mp resolved) clean.1.2
    intro node mem
    rw [← nodesEq] at mem
    obtain ⟨pair, pairMember, same⟩ := List.mem_map.mp mem
    subst same
    exact ⟨pair.2, collect_eq_nil_iff.mp typing pair pairMember⟩
  · simp only [clean, ne_eq, not_false_eq_true, if_true] at legal
    cases legal

theorem hashable_args_of_checkTyped (reads : PlanReads plan)
    (passed : checkTyped catalogue plan = .ok ()) {node : Json} (mem : node ∈ nodesOf plan) :
    ∀ arg ∈ (PlanNode.ofJson node).args, arg.2.hashable = true := by
  obtain ⟨⟨ok, problems⟩, judged, accepted⟩ := Gate.lift_bind_eq_ok.mp passed
  have yes : ok = true := Gate.require_eq_ok_iff.mp accepted
  subst yes
  obtain ⟨graph, built, legal⟩ := of_bind judged
  obtain ⟨lifted, liftedMember, lifts⟩ := exists_lifted reads built mem
  obtain ⟨record, typed⟩ := typed_of_legal legal lifted liftedMember
  have args := hashable_args_of_typed typed
  rw [lifts.args, ofJson_withoutExecutor] at args
  exact args

omit [Host] in
theorem hashable_objectOf {node : PlanNode}
    (scalars : ∀ arg ∈ node.args, arg.2.hashable = true) : (objectOf node).hashable = true := by
  unfold objectOf
  cases found : Assoc.get? node.args "object" with
  | none => rfl
  | some value => exact scalars _ (Assoc.mem_of_get? found)

omit [Host] in
theorem returns_inSet {value : Json} (hashable : value.hashable = true) (names : List String) :
    Returns (inSet value names) := by
  rw [inSet, (hashed_eq_ok_iff _).mpr hashable]
  exact ⟨_, rfl⟩

theorem settles_checkOrder (nodes : List PlanNode) (ancestors : Dict String (List String))
    (object : String) (previous : Option PlanNode) (order : List String) :
    (checkOrder nodes ancestors object previous order).Settles := by
  induction order generalizing previous with
  | nil => exact Gate.settles_ok _
  | cons skill rest ih =>
      unfold checkOrder
      dsimp only
      split
      · exact Gate.settles_require_bind.mpr (fun _ => ih _)
      · exact Gate.settles_refuse _

theorem settles_checkRequirements (requirements : List (String × Json)) {nodes : List PlanNode}
    (scalars : ∀ node ∈ nodes, ∀ arg ∈ node.args, arg.2.hashable = true) :
    (checkRequirements requirements nodes).Settles := by
  have lookup : ∀ node ∈ nodes, ∀ names, (Gate.lift (inSet (objectOf node) names)).Settles :=
    fun node mem names =>
      Gate.settles_lift_iff.mpr (returns_inSet (hashable_objectOf (scalars node mem)) names)
  have declared : ∀ objects order, (Gate.each (checkDeclared objects order) nodes).Settles := by
    intro objects order
    refine Gate.settles_each (fun node mem => ?_)
    unfold checkDeclared
    split
    · exact Gate.settles_bind.mpr ⟨lookup node mem _, fun _ _ => Gate.settles_require _ _⟩
    · exact Gate.settles_ok _
  have targets : ∀ objects targets, (checkTargets objects targets nodes).Settles := by
    intro objects targets
    unfold checkTargets
    split
    · exact Gate.settles_ok _
    · refine Gate.settles_each (fun node mem => ?_)
      refine Gate.settles_bind.mpr ⟨lookup node mem _, fun known _ => ?_⟩
      split
      · exact Gate.settles_ok _
      · exact Gate.settles_require _ _
    · exact Gate.settles_refuse _
  have orders : ∀ ancestors order objects, (Gate.each (fun object =>
      checkOrder nodes ancestors object none order) objects).Settles :=
    fun ancestors order objects =>
      Gate.settles_each (fun object _ => settles_checkOrder nodes ancestors object none order)
  unfold checkRequirements
  dsimp only
  split
  · exact Gate.settles_ok _
  · simp only [Gate.settles_bind, Gate.settles_require, declared, orders, targets, implies_true,
      and_self]

/-- The ledgers the loop builds hold nodes of accepted plans. -/
def LedgerEntry (entry : Json) : Prop :=
  ∃ plan catalogue oracles done requirements,
    Accepted plan catalogue oracles done requirements ∧
      ∃ view ∈ planNodes plan, entry = doneSpec plan view

/-- `dict(n.get("on_fail", {}))`, which has no `or {}`. -/
def ledgerOnFail (entry : Json) : Except PyError (List (Json × Json)) :=
  pyDict (entry.getD "on_fail" (.obj []))

theorem LedgerEntry.id {entry : Json} (built : LedgerEntry entry) :
    ∃ id, entry.get? "id" = some (.str id) := by
  obtain ⟨plan, _, _, _, _, accepted, view, mem, same⟩ := built
  obtain ⟨reads, exact_⟩ := accepted.nodeReads mem
  exact ⟨view.id, same ▸ id_doneSpec reads exact_⟩

theorem LedgerEntry.returns_fromDict_iff {entry : Json} (built : LedgerEntry entry) :
    Returns (Node.fromDict (ledgerNode entry)) ↔ Returns (ledgerOnFail entry) := by
  obtain ⟨plan, _, _, _, _, accepted, view, mem, same⟩ := built
  obtain ⟨reads, exact_⟩ := accepted.nodeReads mem
  have kept : ledgerOnFail entry = pyDict (view.raw.getD "on_fail" (.obj [])) := by
    rw [same, ledgerOnFail, Json.getD, get?_doneSpec]
    simp [Json.getD]
  rw [same, fromDict_ledgerNode reads exact_, ← same, kept, returns_bind]
  constructor
  · rintro ⟨onFail, done, _⟩
    exact ⟨onFail, done⟩
  · rintro ⟨onFail, done⟩
    exact ⟨onFail, done, _, rfl⟩

theorem returns_ledgerGraph_iff {done : List Json} (built : ∀ entry ∈ done, LedgerEntry entry)
    (goal : Json) :
    Returns (ledgerGraph goal done) ↔ ∀ entry ∈ done, Returns (ledgerOnFail entry) := by
  have parsed : Returns ((done.map ledgerNode).mapM Node.fromDict) ↔
      ∀ entry ∈ done, Returns (ledgerOnFail entry) := by
    rw [returns_mapM_iff, List.forall_mem_map]
    exact forall₂_congr (fun entry mem => (built entry mem).returns_fromDict_iff)
  rw [← parsed, ledgerGraph, ExecutionGraph.fromDict]
  have mission : (Json.obj [("mission", goal), ("nodes", .arr (done.map ledgerNode))]).item
      "mission" = .ok goal := rfl
  have seed : (Json.obj [("mission", goal), ("nodes", .arr (done.map ledgerNode))]).getD
      "seed" (.int 0) = .int 0 := rfl
  have tasks : (Json.obj [("mission", goal), ("nodes", .arr (done.map ledgerNode))]).getD
      "tasks" (.arr []) = .arr [] := rfl
  have nodes : (Json.obj [("mission", goal), ("nodes", .arr (done.map ledgerNode))]).getD
      "nodes" (.arr []) = .arr (done.map ledgerNode) := rfl
  rw [mission, seed, tasks, nodes]
  simp only [bind_ok, pyInt, Json.iter, List.mapM_nil, pure_eq_ok,
    returns_bind, returns_ok, and_true]
  exact Iff.rfl

theorem settles_checkLedger_iff {done : List Json} (graph : Returns (planToGraph plan))
    (built : ∀ entry ∈ done, LedgerEntry entry) :
    (checkLedger done plan).Settles ↔ ∀ entry ∈ done, Returns (ledgerOnFail entry) := by
  unfold checkLedger
  by_cases some_ : done = []
  · subst some_
    simp
  · rw [if_pos some_, Gate.settles_lift_bind, ← returns_ledgerGraph_iff built
      (plan.getD "goal" .null)]
    obtain ⟨new, lifted⟩ := graph
    have named : ∀ entry ∈ done,
        Returns (do (← entry.item "id").text : Except PyError String) := by
      intro entry mem
      obtain ⟨id, read⟩ := (built entry mem).id
      exact ⟨id, by rw [item_of_get? read]; rfl⟩
    obtain ⟨ids, listed⟩ := returns_mapM_iff.mpr named
    rw [judgeLedger, lifted, listed]
    simp only [bind_ok, returns_bind, pure_eq_ok, returns_ok,
      and_true, Gate.settles_require, implies_true]
    exact Iff.rfl

/-! ## The whole gate -/

theorem settles_checkNodes_iff {nodes : List Json} {i : Nat} :
    (checkNodes catalogue ids i nodes).Settles ↔
      ∀ first node rest, nodes = first ++ node :: rest →
        (∃ passed, checkNodes catalogue ids i first = .ok passed) →
          (checkNode catalogue
            (ids ++ first.map (fun other => (PlanNode.ofJson other).id)) (i + first.length)
              node).Settles := by
  induction nodes generalizing ids i with
  | nil =>
      constructor
      · intro _ first node rest split
        simp at split
      · intro _
        exact Gate.settles_ok _
  | cons head tail ih =>
      rw [checkNodes, Gate.settles_bind]
      constructor
      · rintro ⟨here, there⟩ first node rest split ⟨passed, ran⟩
        cases first with
        | nil =>
            cases split
            simpa using here
        | cons other first =>
            obtain ⟨same, tailSplit⟩ := List.cons.inj split
            subst same
            rw [checkNodes] at ran
            obtain ⟨id, checked, ran⟩ := of_bind ran
            obtain ⟨_, idEq⟩ := checkNode_eq_ok_iff.mp checked
            have later := ih.mp (there id checked) first node rest tailSplit ⟨passed, ran⟩
            rw [idEq, List.append_assoc, Nat.add_assoc, Nat.add_comm 1] at later
            exact later
      · intro each
        constructor
        · simpa using each [] head tail rfl ⟨ids, rfl⟩
        · intro id checked
          refine ih.mpr (fun first node rest split ran => ?_)
          obtain ⟨_, idEq⟩ := checkNode_eq_ok_iff.mp checked
          obtain ⟨passed, ran⟩ := ran
          have later := each (head :: first) node rest (by rw [split]; rfl)
            ⟨passed, by rw [checkNodes, checked]; exact ran⟩
          rw [idEq, List.append_assoc, Nat.add_assoc, Nat.add_comm 1]
          exact later

/-- The keys and the id of a node are in order, so its kind is looked up next. -/
structure NamedNode (earlier : List String) (node : Json) : Prop where
  form : nodeForm node = true
  id : (node.getD "id" .null).isNonemptyStr = true
  fresh : (PlanNode.ofJson node).id ∉ earlier

/-- The kind of a node can be looked up and, if it is a known kind, the skill. -/
structure NodeReadable (node : Json) : Prop where
  kind : (kindOf node).hashable = true
  skill : (NodeKind.ofJson (kindOf node)).isSome = true →
    (node.getD "skill" .null).hashable = true

theorem settles_checkNode_iff {earlier : List String} {i : Nat} {node : Json} :
    (checkNode catalogue earlier i node).Settles ↔
      (NamedNode earlier node → NodeReadable node) := by
  simp only [checkNode, Gate.settles_require_bind, settles_hashed_bind, decide_eq_true_eq,
    pure_eq_ok, Gate.settles_ok, implies_true, and_true]
  constructor
  · rintro each ⟨form, id, fresh⟩
    obtain ⟨kind, skill⟩ := each form id fresh
    exact ⟨kind, skill⟩
  · intro readable form id fresh
    obtain ⟨kind, skill⟩ := readable ⟨form, id, fresh⟩
    exact ⟨kind, skill⟩

def followsNode (ids : List String) (v : Json) : Bool :=
  v.isMapping && ids.any (fun id => (v.getD "after" .null).eq (.str id))

def namesOracle (oracles : List String) (v : Json) : Bool :=
  oracles.any (fun oracle => (v.getD "predicate" .null).eq (.str oracle))

omit [Host] in
theorem hashable_of_namesOracle {v : Json} (named : namesOracle oracles v = true) :
    (v.getD "predicate" .null).hashable = true := by
  obtain ⟨oracle, _, same⟩ := List.any_eq_true.mp named
  rw [(Json.eq_str_iff _ _).mp same]
  rfl

theorem checkVerifyEntry_eq_ok_iff {entry : Json × Nat} :
    checkVerifyEntry ids oracles entry = .ok () ↔
      followsNode ids entry.1 = true ∧ namesOracle oracles entry.1 = true := by
  simp only [checkVerifyEntry, Gate.require_bind_eq_ok, hashed_bind_eq_ok, Gate.require_eq_ok_iff]
  exact ⟨fun ⟨follows, _, named⟩ => ⟨follows, named⟩,
    fun ⟨follows, named⟩ => ⟨follows, hashable_of_namesOracle named, named⟩⟩

theorem settles_checkVerify_iff :
    (checkVerify ids oracles plan).Settles ↔
      ∀ first entry rest, verifyOf plan = first ++ entry :: rest →
        (∀ earlier ∈ first, followsNode ids earlier = true ∧ namesOracle oracles earlier = true) →
          followsNode ids entry = true → (entry.getD "predicate" .null).hashable = true := by
  have settles : ∀ entry, (checkVerifyEntry ids oracles entry).Settles ↔
      (followsNode ids entry.1 = true → (entry.1.getD "predicate" .null).hashable = true) := by
    intro entry
    simp only [checkVerifyEntry, Gate.settles_require_bind, settles_hashed_bind,
      Gate.settles_require, and_true]
    exact Iff.rfl
  rw [checkVerify, Gate.settles_require_bind]
  constructor
  · intro each first entry rest split passed
    have some_ : (!(verifyOf plan).isEmpty) = true := by
      rw [split]
      cases first <;> rfl
    refine (settles (entry, first.length)).mp (Gate.settles_each_iff.mp (each some_) first.zipIdx
      (entry, first.length) (rest.zipIdx (first.length + 1)) ?_ ?_)
    · rw [split, List.zipIdx_append, List.zipIdx_cons, Nat.zero_add]
    · intro earlier mem
      exact checkVerifyEntry_eq_ok_iff.mpr (passed earlier.1 (List.fst_mem_of_mem_zipIdx mem))
  · intro each _
    refine Gate.settles_each_iff.mpr (fun first entry rest split passed => ?_)
    refine (settles entry).mpr (each (first.map Prod.fst) entry.1 (rest.map Prod.fst) ?_ ?_)
    · rw [← List.map_cons, ← List.map_append, ← split, List.zipIdx_map_fst]
    · intro earlier mem
      obtain ⟨pair, pairMember, same⟩ := List.mem_map.mp mem
      exact same ▸ checkVerifyEntry_eq_ok_iff.mp (passed pair pairMember)

/-- Every field is readable by the time the gate reads it. -/
structure Readable (plan : Json) (catalogue : Catalogue) (oracles : List String)
    (done : List Json) (requirements : List (String × Json)) : Prop where
  /-- `kind` and `skill` of the first node that is not accepted -/
  node : checkShape plan = .ok () → ∀ first node rest, nodesOf plan = first ++ node :: rest →
    AcceptedNodes catalogue first →
      NamedNode (first.map (fun other => (PlanNode.ofJson other).id)) node → NodeReadable node
  /-- `on_fail`, `seed` and `task`, once all nodes are accepted -/
  graph : checkShape plan = .ok () → AcceptedNodes catalogue (nodesOf plan) →
    Converts plan ∧ ∀ node ∈ nodesOf plan, (taskLabel node).hashable = true
  /-- the predicates up to the first entry that is refused, once the plan is typed -/
  predicate : checkShape plan = .ok () → AcceptedNodes catalogue (nodesOf plan) →
    checkTyped catalogue plan = .ok () →
      ∀ first entry rest, verifyOf plan = first ++ entry :: rest →
        (∀ earlier ∈ first, followsNode ((planNodes plan).map PlanNode.id) earlier = true ∧
          namesOracle oracles earlier = true) →
        followsNode ((planNodes plan).map PlanNode.id) entry = true →
          (entry.getD "predicate" .null).hashable = true
  /-- `on_fail` of the finished nodes, once only the ledger is left -/
  ledger : checkShape plan = .ok () → AcceptedNodes catalogue (nodesOf plan) →
    checkTyped catalogue plan = .ok () →
    checkVerify ((planNodes plan).map PlanNode.id) oracles plan = .ok () →
    Gate.each (checkCovered (coveredIds plan)) (planNodes plan) = .ok () →
    checkRequirements requirements (planNodes plan) = .ok () →
      ∀ entry ∈ done, Returns (ledgerOnFail entry)

/-- The gate answers exactly when every field it reaches is readable. -/
theorem validatePlan_returns_iff (plan : Json) (catalogue : Catalogue) (oracles : List String)
    (done : List Json) (requirements : List (String × Json))
    (built : ∀ entry ∈ done, LedgerEntry entry) :
    Returns (validatePlan plan catalogue oracles done requirements) ↔
      Readable plan catalogue oracles done requirements := by
  have nodeStage : (checkNodes catalogue [] 0 (nodesOf plan)).Settles ↔
      ∀ first node rest, nodesOf plan = first ++ node :: rest → AcceptedNodes catalogue first →
        NamedNode (first.map (fun other => (PlanNode.ofJson other).id)) node →
          NodeReadable node := by
    rw [settles_checkNodes_iff]
    simp only [acceptedNodes_iff, exists_and_right, exists_eq, true_and, settles_checkNode_iff,
      List.nil_append]
  have typedStage : ∀ (shape : checkShape plan = .ok ())
      (nodes : AcceptedNodes catalogue (nodesOf plan)), (checkTyped catalogue plan).Settles ↔
        Converts plan ∧ ∀ node ∈ nodesOf plan, (taskLabel node).hashable = true := by
    intro shape nodes
    rw [checkTyped, Gate.settles_lift_bind, ← returns_judgeTyped_iff
      (planReads_of_checks shape nodes) nodes]
    exact ⟨fun both => both.1, fun judged => ⟨judged, fun _ _ => Gate.settles_require _ _⟩⟩
  have lateStages : ∀ (shape : checkShape plan = .ok ())
      (nodes : AcceptedNodes catalogue (nodesOf plan)) (typed : checkTyped catalogue plan = .ok ()),
      (checkRequirements requirements (planNodes plan)).Settles ∧ ((checkLedger done plan).Settles ↔
        ∀ entry ∈ done, Returns (ledgerOnFail entry)) := by
    intro shape nodes typed
    have reads := planReads_of_checks shape nodes
    constructor
    · refine settles_checkRequirements requirements (fun view member => ?_)
      obtain ⟨source, sourceMember, same⟩ := List.mem_map.mp member
      exact same ▸ hashable_args_of_checkTyped reads typed sourceMember
    · obtain ⟨_, judged, _⟩ := Gate.lift_bind_eq_ok.mp typed
      obtain ⟨conversions, _⟩ := (returns_judgeTyped_iff reads nodes).mp ⟨_, judged⟩
      exact settles_checkLedger_iff
        ((returns_planToGraph_iff reads).mpr ⟨conversions.onFail, conversions.seed⟩) built
  have coverage : (Gate.each (checkCovered (coveredIds plan)) (planNodes plan)).Settles :=
    Gate.settles_each (fun _ _ => Gate.settles_require _ _)
  rw [validatePlan, Gate.returns_settle_iff]
  simp only [planGate, Gate.settles_bind, settles_checkShape, true_and, coverage, acceptedNodes_iff]
  constructor
  · intro settles
    refine ⟨fun shape => nodeStage.mp (settles () shape).1, ?_, ?_, ?_⟩
    · intro shape nodes
      exact (typedStage shape nodes).mp (((settles () shape).2 _ ⟨rfl, nodes⟩).1)
    · intro shape nodes typed
      have verify := (((settles () shape).2 _ ⟨rfl, nodes⟩).2 () typed).1
      rw [← ids_planNodes] at verify
      exact settles_checkVerify_iff.mp verify
    · intro shape nodes typed verify covered required
      rw [ids_planNodes] at verify
      exact (lateStages shape nodes typed).2.mp
        (((((settles () shape).2 _ ⟨rfl, nodes⟩).2 () typed).2 () verify () covered).2 () required)
  · rintro ⟨node, graph, predicate, ledger⟩ _ shape
    refine ⟨nodeStage.mpr (node shape), ?_⟩
    rintro _ ⟨same, nodes⟩
    subst same
    rw [← ids_planNodes]
    refine ⟨(typedStage shape nodes).mpr (graph shape nodes), fun _ typed =>
      ⟨settles_checkVerify_iff.mpr (predicate shape nodes typed), fun _ verify _ covered =>
        ⟨(lateStages shape nodes typed).1, fun _ required =>
          (lateStages shape nodes typed).2.mpr
            (ledger shape nodes typed verify covered required)⟩⟩⟩

end

section Example

local instance pickHost : Host := asciiHost

private def pickPlan (skill : Json) : Json :=
  .obj [("goal", .str "tidy"),
    ("nodes", .arr [.obj [("id", .str "a"), ("skill", skill), ("args", .obj []),
      ("after", .arr [])]]),
    ("verify", .arr [.obj [("after", .str "a"), ("predicate", .str "seen")]])]

private def pickCatalogue : Catalogue := [("pick", [])]

private def pickLedger : List Json :=
  [doneSpec (pickPlan (.str "pick")) (PlanNode.ofJson (.obj [("id", .str "a"),
    ("skill", .str "pick"), ("args", .obj []), ("after", .arr [])]))]

/-- A skill that is a list makes the gate raise. -/
theorem not_returns_validatePlan_listSkill :
    ¬ Returns (validatePlan (pickPlan (.arr [])) pickCatalogue ["seen"] [] []) := by
  have raises : validatePlan (pickPlan (.arr [])) pickCatalogue ["seen"] [] [] =
      .error .typeError := by
    decide +kernel
  rw [raises]
  exact Fallible.not_returns_error _

theorem readable_pickPlan :
    Readable (pickPlan (.str "pick")) pickCatalogue ["seen"] pickLedger [] := by
  have first : validatePlan (pickPlan (.str "pick")) pickCatalogue ["seen"] [] [] =
      .ok (true, "") := by
    decide +kernel
  have again : validatePlan (pickPlan (.str "pick")) pickCatalogue ["seen"] pickLedger [] =
      .ok (true, "") := by
    decide +kernel
  refine (validatePlan_returns_iff _ _ _ _ _ ?_).mp ⟨_, again⟩
  intro entry member
  cases List.mem_singleton.mp member
  exact ⟨_, _, _, _, _, (validatePlan_accepts_iff.mp first).1, _, List.mem_singleton.mpr rfl, rfl⟩

end Example

end Task
end PhysicalHarness
