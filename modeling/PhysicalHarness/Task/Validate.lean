import PhysicalHarness.Lib.Gate
import PhysicalHarness.Task.Plan

namespace PhysicalHarness
namespace Task

open Python Protocol

variable [Host]

/-!
# The plan gate

`validate_plan` is the boundary to an untrusted planner.  It stops at the first
problem with a message for the next brief.  The stages below are the paragraphs
of that function in their order, each with the function's own messages.  A stage
raises where Python does: when it looks up a list or an object in a set or dict
or converts a value that does not convert.
-/

/-- The skills a plan may name, with the types of their arguments. -/
abbrev Catalogue := List (String × List (String × ArgType))

def nonemptyStrings (value : Json) : Bool :=
  match value.arr? with
  | some (first :: rest) => (first :: rest).all Json.isNonemptyStr
  | _ => false

def taskForm (task : Json) : Bool :=
  task.isMapping && (task.getD "id" .null).isNonemptyStr &&
    match (task.getD "goal" .null).arr? with
    | some goal => goal.all Json.isNonemptyStr
    | none => false

def checkTask (entry : Json × Nat) : Gate PyError Unit :=
  Gate.require (taskForm entry.1)
    ("tasks[" ++ toString entry.2 ++ "] must be \x7bid: str, goal: [pred ref strings]\x7d")

def checkTasks (tasks : Json) : Gate PyError Unit :=
  match tasks with
  | .null => .ok ()
  | .arr (first :: rest) => Gate.each checkTask (first :: rest).zipIdx
  | _ => Gate.refuse "plan.tasks must be a non-empty list of \x7bid, goal\x7d"

def checkShape (plan : Json) : Gate PyError Unit := do
  Gate.require plan.isMapping ("plan must be a JSON object, got " ++ className plan)
  Gate.require (plan.getD "goal" .null).isNonemptyStr "plan.goal must be a non-empty string"
  Gate.require (!(nodesOf plan).isEmpty) "plan.nodes must be a non-empty list of skill calls"
  checkTasks (plan.getD "tasks" .null)

/-- `_NODE_KEYS` and `_NODE_OPTIONAL`. -/
def nodeKeys : List String := ["id", "skill", "args", "after"]

def nodeOptional : List String := ["kind", "task", "on_fail", "executor"]

/-- The keys of a node without the optional ones are exactly the required. -/
def nodeForm (node : Json) : Bool :=
  node.isMapping && nodeKeys.all (fun key => key ∈ Assoc.keys node.fields) &&
    (Assoc.keys node.fields).all (fun key => key ∈ nodeOptional || key ∈ nodeKeys)

/-- `skill in catalogue`. -/
def inCatalogue (catalogue : Catalogue) (skill : Json) : Bool :=
  (Assoc.keys catalogue).any (fun name => skill.eq (.str name))

def afterForm (earlier : List String) (after : Json) : Bool :=
  match after.arr? with
  | some items => items.all (fun a => earlier.any (fun id => a.eq (.str id)))
  | none => false

def checkNode (catalogue : Catalogue) (earlier : List String) (i : Nat) (node : Json) :
    Gate PyError String := do
  let at_i := "node[" ++ toString i ++ "]"
  let id := (PlanNode.ofJson node).id
  let who := "node " ++ Host.repr (.str id)
  let skill := node.getD "skill" .null
  Gate.require (nodeForm node) (at_i ++ " must be an object with exactly " ++
    reprNames (sorted nodeKeys) ++ " (optional " ++ reprNames (sorted nodeOptional) ++ ")")
  Gate.require (node.getD "id" .null).isNonemptyStr (at_i ++ ".id must be a non-empty string")
  Gate.require (id ∉ earlier) ("duplicate node id " ++ Host.repr (.str id))
  Gate.lift (hashed (kindOf node))
  Gate.require (NodeKind.ofJson (kindOf node)).isSome
    (who ++ " declares unknown kind " ++ Host.repr (kindOf node) ++ "; known kinds: " ++
      reprNames (sorted (NodeKind.all.map NodeKind.name)))
  Gate.lift (hashed skill)
  Gate.require (inCatalogue catalogue skill ||
      NodeKind.ofJson (kindOf node) = some .recovery)
    (who ++ " names unknown skill " ++ Host.repr skill ++ "; catalogue is " ++
      reprNames (sorted (Assoc.keys catalogue)))
  Gate.require (node.getD "args" .null).isMapping (who ++ ".args must be an object")
  Gate.require (afterForm earlier (node.getD "after" .null))
    (who ++ ".after must list ids of earlier nodes; earlier ids: " ++ reprNames earlier)
  return id

/-- The loop over the nodes, with the ids met so far. -/
def checkNodes (catalogue : Catalogue) : List String → Nat → List Json →
    Gate PyError (List String)
  | ids, _, [] => .ok ids
  | ids, i, node :: rest => do
      let id ← checkNode catalogue ids i node
      checkNodes catalogue (ids ++ [id]) (i + 1) rest

/-! ## The protocol gate on types -/

def catalogueRecords (catalogue : Catalogue) : List (Json × SkillRecordV0) :=
  catalogue.map (fun entry => (.str entry.1, argRecord (.str entry.1) entry.2))

def withRecoveries (records : List (Json × SkillRecordV0)) (nodes : List Json) :
    List (Json × SkillRecordV0) :=
  nodes.foldl (fun records node =>
    if (node.getD "kind" .null).eq (.str "recovery") then
      let skill := node.getD "skill" .null
      setDefault records skill { id := skill, name := skill }
    else records) records

/-- `{k: v for k, v in n.items() if k != "executor"}`. -/
def withoutExecutor (node : Json) : Json :=
  .obj (node.fields.filter (fun field => field.1 ≠ "executor"))

/-- `{"id": t["id"], "goal": []}`. -/
def withoutGoal (task : Json) : Json :=
  .obj [("id", task.getD "id" .null), ("goal", .arr [])]

def typedPlan (plan : Json) : Json :=
  (plan.setField "tasks"
      (.arr (((plan.getD "tasks" .null).arr?.getD []).map withoutGoal))).setField "nodes"
    (.arr ((nodesOf plan).map withoutExecutor))

/-- What `validate_graph` says about the plan without goals and executors. -/
def judgeTyped (catalogue : Catalogue) (plan : Json) : Except PyError (Bool × List String) := do
  let graph ← planToGraph (typedPlan plan)
  validateGraph graph (withRecoveries (catalogueRecords catalogue) (nodesOf plan)) [] []

def checkTyped (catalogue : Catalogue) (plan : Json) : Gate PyError Unit := do
  let (ok, problems) ← Gate.lift (judgeTyped catalogue plan)
  Gate.require ok ("; ".intercalate problems)

def checkVerifyEntry (ids oracles : List String) (entry : Json × Nat) : Gate PyError Unit := do
  let (v, i) := entry
  let predicate := v.getD "predicate" .null
  Gate.require (v.isMapping && ids.any (fun id => (v.getD "after" .null).eq (.str id)))
    ("verify[" ++ toString i ++ "].after must name a node id from " ++ reprNames ids)
  Gate.lift (hashed predicate)
  Gate.require (oracles.any (fun oracle => predicate.eq (.str oracle)))
    ("verify[" ++ toString i ++ "] names unknown predicate " ++ Host.repr predicate ++
      "; declared oracles: " ++ reprNames (sorted oracles))

def checkVerify (ids oracles : List String) (plan : Json) : Gate PyError Unit := do
  Gate.require (!(verifyOf plan).isEmpty)
    "plan.verify must be a non-empty list: an unverified plan is vacuous"
  Gate.each (checkVerifyEntry ids oracles) (verifyOf plan).zipIdx

def coveredIds (plan : Json) : List String :=
  (verifyOf plan).filterMap (fun v => (v.getD "after" .null).str?) ++
    ((planNodes plan).filter (fun node => node.kind.eq (.str "verify"))).flatMap PlanNode.after

def checkCovered (covered : List String) (node : PlanNode) : Gate PyError Unit :=
  Gate.require (!((node.kind.eq (.str "manipulate") || node.kind.eq (.str "segment")) &&
      node.id ∉ covered))
    ("node " ++ Host.repr (.str node.id) ++ " (kind " ++ Host.repr node.kind ++
      ") is not covered by any verify: add a verify entry after it or a verify-kind " ++
      "successor node")

/-! ## Task requirements -/

/-- The object argument of a node, `None` when it has none. -/
def objectOf (node : PlanNode) : Json := (Assoc.get? node.args "object").getD .null

/-- `value in set_of_strings`. -/
def inSet (value : Json) (names : List String) : Except PyError Bool := do
  hashed value
  return names.any (fun name => value.eq (.str name))

def ancestorSets : List PlanNode → Dict String (List String) → Dict String (List String)
  | [], sets => sets
  | node :: rest, sets =>
      ancestorSets rest (sets.set node.id
        (node.after ∪ node.after.flatMap (fun parent => (sets.get? parent).getD [])))

def checkDeclared (objects order : List String) (node : PlanNode) : Gate PyError Unit := do
  if order.any (fun skill => node.skill.eq (.str skill)) then
    let known ← Gate.lift (inSet (objectOf node) objects)
    Gate.require known ("node " ++ Host.repr (.str node.id) ++ " applies required skill " ++
      Host.repr node.skill ++ " to undeclared object " ++ Host.repr (objectOf node))

def checkOrder (nodes : List PlanNode) (ancestors : Dict String (List String)) (object : String) :
    Option PlanNode → List String → Gate PyError Unit
  | _, [] => .ok ()
  | previous, skill :: rest => do
      let who := "object " ++ Host.repr (.str object) ++ " requires "
      match nodes.filter (fun node =>
          node.skill.eq (.str skill) && (objectOf node).eq (.str object)) with
      | [current] =>
          Gate.require (previous.all (fun earlier =>
              decide (earlier.id ∈ (ancestors.get? current.id).getD [])))
            (who ++ Host.repr (.str skill) ++ " after " ++
              ((previous.map (fun earlier => Host.repr earlier.skill)).getD ""))
          checkOrder nodes ancestors object (some current) rest
      | calls =>
          Gate.refuse (who ++ "exactly one " ++ Host.repr (.str skill) ++ " call, got " ++
            toString calls.length)

def checkTarget (objects : List String) (targets : List (String × Json)) (node : PlanNode) :
    Gate PyError Unit := do
  let known ← Gate.lift (inSet (objectOf node) objects)
  match Assoc.get? node.args "target" with
  | none => .ok ()
  | some target =>
      let expected := (Assoc.get? targets (pyStr (objectOf node))).getD .null
      Gate.require (!known || target.eq expected)
        ("node " ++ Host.repr (.str node.id) ++ " targets " ++ Host.repr target ++
          " for object " ++ Host.repr (objectOf node) ++ "; expected " ++ Host.repr expected)

def checkTargets (objects : List String) (targets : Json) (nodes : List PlanNode) :
    Gate PyError Unit :=
  match targets with
  | .null => .ok ()
  | .obj fields => Gate.each (checkTarget objects fields) nodes
  | _ => Gate.refuse "planning_context.target_by_object must be an object"

def strings (value : Json) : List String := (value.arr?.getD []).filterMap Json.str?

def checkRequirements (requirements : List (String × Json)) (nodes : List PlanNode) :
    Gate PyError Unit := do
  let objects := (Json.obj requirements).getD "objects" .null
  let order := (Json.obj requirements).getD "required_per_object_order" .null
  if objects.isNull && order.isNull then .ok ()
  else
    Gate.require (nonemptyStrings objects)
      "planning_context.objects must be a non-empty string list"
    Gate.require (nonemptyStrings order)
      "planning_context.required_per_object_order must be a non-empty string list"
    let ancestors := ancestorSets nodes Dict.empty
    Gate.each (checkDeclared (strings objects) (strings order)) nodes
    Gate.each (fun object => checkOrder nodes ancestors object none (strings order))
      (strings objects)
    checkTargets (strings objects) ((Json.obj requirements).getD "target_by_object" .null) nodes

/-- `{"task": "main", **d}`. -/
def ledgerNode (entry : Json) : Json :=
  .obj (("task", entry.getD "task" (.str "main")) ::
    entry.fields.filter (fun field => field.1 ≠ "task"))

def ledgerGraph (goal : Json) (done : List Json) : Except PyError ExecutionGraph :=
  ExecutionGraph.fromDict (.obj [("mission", goal), ("nodes", .arr (done.map ledgerNode))])

/-- What `replan_monotone` says about the plan and the ledger. -/
def judgeLedger (done : List Json) (plan : Json) : Except PyError (Bool × List String) := do
  let new ← planToGraph plan
  let ids ← done.mapM (fun entry => do (← entry.item "id").text)
  let old ← ledgerGraph (plan.getD "goal" .null) done
  return replanMonotone old new ids

def checkLedger (done : List Json) (plan : Json) : Gate PyError Unit := do
  if done ≠ [] then
    let (ok, problems) ← Gate.lift (judgeLedger done plan)
    Gate.require ok ("; ".intercalate problems ++ "; done nodes must be preserved verbatim")

section

variable (plan : Json) (catalogue : Catalogue) (oracles : List String) (done : List Json)
  (requirements : List (String × Json))

/-- The stages in their order; an absent requirements object is an empty one. -/
def planGate : Gate PyError Unit := do
  checkShape plan
  let ids ← checkNodes catalogue [] 0 (nodesOf plan)
  checkTyped catalogue plan
  checkVerify ids oracles plan
  Gate.each (checkCovered (coveredIds plan)) (planNodes plan)
  checkRequirements requirements (planNodes plan)
  checkLedger done plan

/-- `validate_plan`: `(ok, message)`, or the exception it raises. -/
def validatePlan : Except PyError (Bool × String) :=
  (planGate plan catalogue oracles done requirements).settle

end

end Task
end PhysicalHarness
