import PhysicalHarness.Protocol.Canonical
import PhysicalHarness.Protocol.Replan
import PhysicalHarness.Protocol.Soundness
import PhysicalHarness.Python.Arithmetic

namespace PhysicalHarness
namespace Protocol

open Python Fallible

variable [Host]

/-!
# Plan records

A graph that is promoted is stored as a record of its own, with the goal of its task, the
evidence for it and the rule that the evidence cleared.  The gate checks the record's shape,
its id, its evidence and its rule, and the graph itself where the skills are at hand.
-/

/-- What the gate raises: its own refusal, or whatever a malformed part runs into. -/
inductive PlanError where
  | skillRecordError (message : String)
  | raised (error : PyError)
  | number (error : NumberError)
  deriving DecidableEq

/-- `PLAN_REQUIRED`. -/
def planRequired : List String :=
  ["kind", "id", "task", "goal", "graph", "embodiment", "arm", "evidence", "rule", "published_from"]

structure PlanRecord where
  id : Json
  task : Json
  goal : List String
  graph : Json
  embodiment : Json
  arm : Json
  evidence : Json
  rule : Json
  publishedFrom : List Json
  kind : Json

/-- `to_plain(record)`. -/
def PlanRecord.plain (record : PlanRecord) : Json :=
  .obj [("id", record.id), ("task", record.task), ("goal", .arr (record.goal.map .str)),
    ("graph", record.graph), ("embodiment", record.embodiment), ("arm", record.arm),
    ("evidence", record.evidence), ("rule", record.rule), ("published_from", .arr record.publishedFrom),
    ("kind", record.kind)]

/-- `PlanRecord.from_dict`. -/
def PlanRecord.fromDict (value : Json) : Except PyError PlanRecord := do
  let refs ← (value.getD "goal" (.arr [])).iter
  let goal ← refs.mapM (fun ref => predRefStr (.value ref))
  let publishedFrom ← (value.getD "published_from" (.arr [])).iter
  let id ← value.item "id"
  let task ← value.item "task"
  let graph ← value.item "graph"
  let embodiment ← value.item "embodiment"
  let arm ← value.item "arm"
  let evidence ← value.item "evidence"
  let rule ← value.item "rule"
  return { id, task, goal, graph, embodiment, arm, evidence, rule, publishedFrom,
           kind := value.getD "kind" (.str "plan") }

/-- A node under the record's task, without the fields that the checker does not read. -/
def executionNode (task node : Json) : Except PyError Json := do
  let id ← node.item "id"
  let skill ← node.item "skill"
  let args ← (node.getD "args" (.obj [])).dict
  let after ← (node.getD "after" (.arr [])).iter
  return .obj [("id", id), ("task", task), ("skill", skill), ("args", .obj args), ("after", .arr after)]

/-- `record.execution_graph()`: one task, with the record's goal. -/
def PlanRecord.executionGraph (record : PlanRecord) : Except PyError Json := do
  let items ← (if (record.graph.getD "nodes" .null).truthy then record.graph.getD "nodes" .null
    else .arr []).iter
  let nodes ← items.mapM (executionNode record.task)
  return .obj [("mission", record.graph.getD "goal" (.str "")), ("seed", .int 0),
    ("tasks", .arr [.obj [("id", record.task), ("goal", .arr (record.goal.map .str))]]),
    ("nodes", .arr nodes)]

def refuse {α : Type} (message : String) : Except PlanError α := .error (.skillRecordError message)

/-- `_int`. -/
def intField (value : Json) (whole : String) : Except PlanError Int :=
  match value with
  | .int number => .ok number
  | other => refuse (whole ++ " must be an int, got " ++ Host.repr other)

def number? : Json → Option PyFloat
  | .int value => some (.fin value)
  | .float value => some value
  | _ => none

def checkKeys (record : Json) : Except PlanError Unit :=
  let missing := sorted (planRequired.filter (fun key => key ∉ Assoc.keys record.fields))
  let unknown := sorted ((Assoc.keys record.fields).filter (fun key => key ∉ planRequired))
  if missing = [] ∧ unknown = [] then .ok ()
  else refuse ("plan record: missing " ++ reprNames missing ++ ", unknown " ++ reprNames unknown)

def checkName (record : Json) (key : String) : Except PlanError Unit :=
  if (record.getD key .null).isNonemptyStr then .ok ()
  else refuse (key ++ " must be a non-empty string, got " ++ Host.repr (record.getD key .null))

def checkGraph (record : Json) : Except PlanError Unit :=
  let graph := record.getD "graph" .null
  match graph.get? "nodes" with
  | some (.arr (_ :: _)) =>
      if (record.getD "id" .null).eq (.str (graphSha graph)) then .ok ()
      else refuse ("id " ++ Host.repr (record.getD "id" .null) ++ " is not graph_sha(graph) " ++
        Host.repr (.str (graphSha graph)))
  | _ => refuse "graph must be a planner-format dict with non-empty nodes"

def checkRuleKey (rule : Json) (key : String) : Except PlanError Unit :=
  match number? (rule.getD key .null) with
  | some _ => .ok ()
  | none => refuse ("rule." ++ key ++ " must be a number, got " ++ Host.repr (rule.getD key .null))

variable (planLowerBound : Int → Int → Except NumberError Double)

/-- The evidence is so many of so many, and clears the rule with the bound it names. -/
def checkEvidence (record : Json) : Except PlanError Unit := do
  let evidence := record.getD "evidence" .null
  let rule := record.getD "rule" .null
  if !(evidence.isMapping && rule.isMapping) then refuse "evidence and rule must be objects"
  let n ← intField (evidence.getD "n" .null) "evidence.n"
  let k ← intField (evidence.getD "k" .null) "evidence.k"
  if n ≤ 0 ∨ ¬ (0 ≤ k ∧ k ≤ n) then
    refuse ("evidence must be 0 <= k <= n with n > 0, got " ++ toString k ++ "/" ++ toString n)
  ["theta", "n_min", "lower"].forM (checkRuleKey rule)
  let lower ← (planLowerBound n k).mapError .number
  let theta := (number? (rule.getD "theta" .null)).getD .nan
  let nMin := (number? (rule.getD "n_min" .null)).getD .nan
  if !(rule.getD "lower" .null).eq (.float lower.value) || lower.value.lt theta ||
      (PyFloat.fin n).lt nMin then
    refuse ("rule " ++ Host.repr rule ++ " is not the bound " ++ toString k ++ "/" ++ toString n ++
      " clears (lower=" ++ Host.repr (.float lower.value) ++ ")")

/-- The graph under the record's goal is legal from these facts. -/
def checkLegal (record : Json) (records : List (Json × SkillRecordV0)) (facts objects : List Json) :
    Except PlanError Unit := do
  let plan ← (PlanRecord.fromDict record).mapError .raised
  let value ← plan.executionGraph.mapError .raised
  let graph ← (ExecutionGraph.fromDict value).mapError .raised
  (objects.forM hashed).mapError .raised
  let (ok, problems) ← (validateGraph graph records (facts.map .value)
    (objects.filterMap Json.str?)).mapError .raised
  if ok then return ()
  else refuse ("plan graph is not Legal(G): " ++ reprNames problems)

/-- `validate_plan`. -/
def validatePlan (record : Json) (records : Option (List (Json × SkillRecordV0)))
    (facts objects : List Json) : Except PlanError Unit := do
  checkKeys record
  ["task", "embodiment", "arm"].forM (checkName record)
  checkGraph record
  checkEvidence planLowerBound record
  match records with
  | none => return ()
  | some records => checkLegal record records facts objects

section

omit planLowerBound

theorem fromDict_plain {record plan : PlanRecord} (read : PlanRecord.fromDict record.plain = .ok plan) :
    record.goal.mapM (fun ref => predRefStr (refOfStr ref)) = .ok plan.goal ∧
      plan.task = record.task ∧ plan.graph = record.graph := by
  rcases of_bind read with ⟨refs, same, read⟩
  cases same
  rcases of_bind read with ⟨goal, parsed, read⟩
  rcases of_bind read with ⟨publishedFrom, same, read⟩
  cases same
  cases read
  rw [List.mapM_map] at parsed
  exact ⟨parsed, rfl, rfl⟩

omit [Host] in
theorem task_of_executionNode {task node value : Json} (built : executionNode task node = .ok value)
    {read : Node} (read_ : Node.fromDict value = .ok read) : read.task = task := by
  rcases of_bind built with ⟨id, _, built⟩
  rcases of_bind built with ⟨skill, _, built⟩
  rcases of_bind built with ⟨args, _, built⟩
  rcases of_bind built with ⟨after, _, built⟩
  cases built
  rw [Node.fromDict] at read_
  rcases of_bind read_ with ⟨_, _, read_⟩
  rcases of_bind read_ with ⟨_, _, read_⟩
  rcases of_bind read_ with ⟨found, same, read_⟩
  rcases of_bind read_ with ⟨_, _, read_⟩
  rcases of_bind read_ with ⟨_, _, read_⟩
  rcases of_bind read_ with ⟨_, _, read_⟩
  rcases of_bind read_ with ⟨_, _, read_⟩
  rcases of_bind read_ with ⟨_, _, read_⟩
  rw [← Except.ok.inj read_]
  exact (Except.ok.inj same).symm

theorem carries {plan : PlanRecord} {value : Json} {graph : ExecutionGraph}
    (built : plan.executionGraph = .ok value) (read : ExecutionGraph.fromDict value = .ok graph)
    {first : Json} {rest : List Json} (nodes : plan.graph.getD "nodes" .null = .arr (first :: rest)) :
    ∃ name goal, plan.task = .str name ∧ plan.goal.mapM (fun ref => predRefStr (refOfStr ref)) = .ok goal ∧
      graph.tasks = [⟨name, goal⟩] ∧ (∀ node ∈ graph.nodes, node.task = .str name) ∧ graph.nodes ≠ [] := by
  rcases of_bind built with ⟨items, walked, built⟩
  rw [nodes] at walked
  cases walked
  rcases of_bind built with ⟨views, viewed, built⟩
  cases built
  rw [ExecutionGraph.fromDict] at read
  rcases of_bind read with ⟨mission, _, read⟩
  rcases of_bind read with ⟨seed, _, read⟩
  rcases of_bind read with ⟨taskItems, same, read⟩
  rcases of_bind read with ⟨tasks, tasked, read⟩
  rcases of_bind read with ⟨nodeItems, same_, read⟩
  rcases of_bind read with ⟨nodes_, noded, finished⟩
  cases same
  cases same_
  rw [← Except.ok.inj finished]
  rcases of_bind tasked with ⟨only, one, tasked⟩
  cases tasked
  rw [Task.fromDict] at one
  rcases of_bind one with ⟨task, same, one⟩
  cases same
  rcases of_bind one with ⟨name, named, one⟩
  rcases of_bind one with ⟨refs, same, one⟩
  cases same
  rcases of_bind one with ⟨goalItems, same, one⟩
  cases same
  rcases of_bind one with ⟨goal, parsed, one⟩
  rw [List.mapM_map] at parsed
  have task : plan.task = .str name := by
    generalize plan.task = value at named
    cases value with
    | str text => exact congrArg Json.str (Except.ok.inj named)
    | _ => cases named
  refine ⟨name, goal, task, parsed, ?_, ?_, ?_⟩
  · rw [← Except.ok.inj one]
    rfl
  · intro node mem
    rcases exists_mem_of_mapM noded mem with ⟨view, listed, here⟩
    rcases exists_mem_of_mapM viewed listed with ⟨item, _, there⟩
    rw [← task]
    exact task_of_executionNode there here
  · intro empty
    change nodes_ = [] at empty
    have length := (mapM_eq_ok_iff.mp noded).length_eq
    have length_ := (mapM_eq_ok_iff.mp viewed).length_eq
    rw [empty, ← length_] at length
    cases length

def PlanRecord.Checked (record : PlanRecord) (graph : ExecutionGraph) : Prop :=
  ∃ plan value, PlanRecord.fromDict record.plain = .ok plan ∧ plan.executionGraph = .ok value ∧
    ExecutionGraph.fromDict value = .ok graph

/-- In whatever order the nodes run from these facts, every goal of the record holds at the
end. -/
def PlanRecord.Achieves (record : PlanRecord) (records : List (Json × SkillRecordV0))
    (facts : List Json) : Prop :=
  ∃ graph, record.Checked graph ∧ ∀ order, Linearizes graph order → ∀ goal ∈ record.goal,
    ∃ atom, predRefStr (refOfStr goal) = .ok atom ∧
      atom ∈ CausalLink.exec (effects graph records) (canonicalFacts (facts.map .value)) order

theorem problems_eq_nil {graph : ExecutionGraph} {records : List (Json × SkillRecordV0)}
    {facts : List PredRef} {objects problems : List String}
    (legal : validateGraph graph records facts objects = .ok (true, problems)) : problems = [] := by
  rw [validateGraph] at legal
  rcases of_bind legal with ⟨found, _, legal⟩
  rcases of_bind legal with ⟨known, _, legal⟩
  dsimp only at legal
  split at legal
  · cases legal
  · rcases of_bind legal with ⟨typed, _, legal⟩
    rcases of_bind legal with ⟨bound, _, legal⟩
    rcases of_bind legal with ⟨placed, _, legal⟩
    rcases of_bind legal with ⟨grounded, _, legal⟩
    rcases Prod.mk.inj (Except.ok.inj legal) with ⟨empty, same⟩
    rw [← same]
    exact List.isEmpty_iff.mp empty

theorem checkLegal_eq_ok {record : Json} {records : List (Json × SkillRecordV0)} {facts objects : List Json}
    (legal : checkLegal record records facts objects = .ok ()) :
    ∃ plan value graph, PlanRecord.fromDict record = .ok plan ∧ plan.executionGraph = .ok value ∧
      ExecutionGraph.fromDict value = .ok graph ∧
      validateGraph graph records (facts.map .value) (objects.filterMap Json.str?) = .ok (true, []) := by
  rcases of_bind legal with ⟨plan, read, legal⟩
  rcases of_bind legal with ⟨value, built, legal⟩
  rcases of_bind legal with ⟨graph, shaped, legal⟩
  rcases of_bind legal with ⟨_, _, legal⟩
  rcases of_bind legal with ⟨⟨ok, problems⟩, judged, legal⟩
  refine ⟨plan, value, graph, mapError_eq_ok.mp read, mapError_eq_ok.mp built, mapError_eq_ok.mp shaped, ?_⟩
  have checked := mapError_eq_ok.mp judged
  cases ok with
  | false => cases legal
  | true =>
      rw [problems_eq_nil checked] at checked
      exact checked

theorem achieves_of_legal (paren : Host.isWord '(' = false) {record : PlanRecord}
    {records : List (Json × SkillRecordV0)} {facts objects : List Json} {first : Json} {rest : List Json}
    (nodes : record.graph.getD "nodes" .null = .arr (first :: rest))
    (legal : checkLegal record.plain records facts objects = .ok ()) : record.Achieves records facts := by
  rcases checkLegal_eq_ok legal with ⟨plan, value, graph, read, built, shaped, legal⟩
  rcases fromDict_plain read with ⟨canonical_, task, same⟩
  rw [← same] at nodes
  rcases carries built shaped nodes with ⟨name, goal, named, again, tasks, labels, some_⟩
  rcases accepted_of_legal legal with ⟨placed, known, accepted⟩
  refine ⟨graph, ⟨plan, value, read, built, shaped⟩, ?_⟩
  intro order linear ref listed
  -- The graph has one task, so its end is the end of the order.
  have ends : ∃ front last, order = front ++ [last] := by
    rcases List.eq_nil_or_concat order with rfl | ⟨front, last, rfl⟩
    · have none_ := linear.perm.length_eq
      rw [List.length_map] at none_
      exact absurd (List.length_eq_zero_iff.mp none_.symm) some_
    · exact ⟨front, last, List.concat_eq_append⟩
  rcases ends with ⟨front, last, split⟩
  have labelled : Labelled graph last ⟨name, goal⟩ := by
    have mem : last ∈ graph.nodes.map Node.id := by
      rw [← linear.perm.mem_iff, split]
      exact List.mem_append_right _ (.head _)
    rcases List.mem_map.mp mem with ⟨node, here, id⟩
    exact ⟨node, here, id, labels node here⟩
  have declared : (⟨name, goal⟩ : Task) ∈ graph.tasks := by
    rw [tasks]
    exact .head _
  rcases exists_result_of_mapM canonical_ listed with ⟨atom, inside, parsed⟩
  rcases exists_result_of_mapM again inside with ⟨atom_, goal_, parsed_⟩
  have same := (predRefStr_canonical paren parsed).symm.trans parsed_
  rw [← Except.ok.inj same] at goal_
  refine ⟨atom, parsed, ?_⟩
  have holds := accepted.goals_hold linear declared split labelled
    (List.forall_mem_nil _) goal_
  rw [split]
  exact holds

/-- A record that passed has nodes and the id of its graph, and its graph is legal where the
skills are at hand. -/
theorem validatePlan_eq_ok {planLowerBound : Int → Int → Except NumberError Double} {record : PlanRecord}
    {records : List (Json × SkillRecordV0)} {facts objects : List Json}
    (passed : validatePlan planLowerBound record.plain (some records) facts objects = .ok ()) :
    record.id = .str (graphSha record.graph) ∧
      (∃ first rest, record.graph.getD "nodes" .null = .arr (first :: rest)) ∧
      checkLegal record.plain records facts objects = .ok () := by
  rcases of_bind passed with ⟨_, _, passed⟩
  rcases of_bind passed with ⟨_, _, passed⟩
  rcases of_bind passed with ⟨_, graph, passed⟩
  rcases of_bind passed with ⟨_, _, legal⟩
  rw [checkGraph] at graph
  change (match record.graph.get? "nodes" with
    | some (.arr (_ :: _)) => if record.id.eq (.str (graphSha record.graph)) = true then Except.ok ()
        else refuse _
    | _ => refuse _) = _ at graph
  split at graph
  · rename_i first rest nodes
    split at graph
    · rename_i same
      refine ⟨(Json.eq_str_iff _ _).mp same, ⟨first, rest, ?_⟩, legal⟩
      rw [Json.getD, nodes]
      rfl
    · cases graph
  · cases graph

theorem validatePlan_none {planLowerBound : Int → Int → Except NumberError Double} {record : Json}
    {records : List (Json × SkillRecordV0)} {facts objects : List Json}
    (passed : validatePlan planLowerBound record (some records) facts objects = .ok ()) :
    validatePlan planLowerBound record none [] [] = .ok () := by
  rcases of_bind passed with ⟨_, keys, passed⟩
  rcases of_bind passed with ⟨_, names, passed⟩
  rcases of_bind passed with ⟨_, graph, passed⟩
  rcases of_bind passed with ⟨_, evidence, _⟩
  rw [validatePlan, keys]
  change (["task", "embodiment", "arm"].forM (checkName record) >>= fun _ => _) = _
  rw [names]
  change (checkGraph record >>= fun _ => _) = _
  rw [graph]
  change (checkEvidence planLowerBound record >>= fun _ => _) = _
  rw [evidence]
  rfl

end

end Protocol
end PhysicalHarness
