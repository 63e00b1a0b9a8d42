import PhysicalHarness.Protocol.Replan

namespace PhysicalHarness
namespace Task

open Python Protocol

variable [Host]

/-!
# Plans

A plan is the JSON object a planner emits: a goal, a list of nodes and a list of
verify entries, with declared tasks when it is composed.  The gate and the loop
read it field by field; the views below are what these reads give on a plan the
gate accepted.
-/

/-- `NODE_KINDS`: the kinds the loop can dispatch. -/
inductive NodeKind where
  | manipulate
  | segment
  | perceive
  | decide
  | verify
  | recovery
  deriving DecidableEq, Repr

namespace NodeKind

def name : NodeKind → String
  | manipulate => "manipulate"
  | segment => "segment"
  | perceive => "perceive"
  | decide => "decide"
  | verify => "verify"
  | recovery => "recovery"

def all : List NodeKind := [manipulate, segment, perceive, decide, verify, recovery]

def ofJson (value : Json) : Option NodeKind :=
  all.find? (fun kind => value.eq (.str kind.name))

end NodeKind

omit [Host] in
theorem NodeKind.ofJson_eq_some_iff {value : Json} {kind : NodeKind} :
    NodeKind.ofJson value = some kind ↔ value = .str kind.name := by
  constructor
  · intro found
    unfold ofJson at found
    have matched := List.find?_some found
    exact (Json.eq_str_iff _ _).mp matched
  · intro same
    subst same
    cases kind <;> decide

/-! ## Reading a plan -/

/-- `plan["nodes"]`. -/
def nodesOf (plan : Json) : List Json := (plan.getD "nodes" .null).arr?.getD []

/-- `plan["verify"]`. -/
def verifyOf (plan : Json) : List Json := (plan.getD "verify" .null).arr?.getD []

/-- `node.get("kind", "manipulate")`. -/
def kindOf (node : Json) : Json := node.getD "kind" (.str "manipulate")

/-- `(plan.get("tasks") or [{"id": "main"}])[0]["id"]`. -/
def labelOf (plan : Json) : Json :=
  match (plan.getD "tasks" .null).arr? with
  | some (first :: _) => first.getD "id" .null
  | _ => .str "main"

/-- A node as the loop reads it. -/
structure PlanNode where
  raw : Json
  id : String
  skill : Json
  args : List (String × Json)
  after : List String

namespace PlanNode

/-- The reads `n["id"]`, `n["skill"]`, `n["args"]` and `n["after"]`. -/
def ofJson (node : Json) : PlanNode where
  raw := node
  id := (node.getD "id" .null).str?.getD ""
  skill := node.getD "skill" .null
  args := (node.getD "args" .null).fields
  after := ((node.getD "after" .null).arr?.getD []).filterMap Json.str?

def kind (node : PlanNode) : Json := kindOf node.raw

def executor (node : PlanNode) : Json := node.raw.getD "executor" .null

/-- The declared task, or the first task of the plan. -/
def task (plan : Json) (node : PlanNode) : Json := node.raw.getD "task" (labelOf plan)

end PlanNode

def planNodes (plan : Json) : List PlanNode := (nodesOf plan).map PlanNode.ofJson

/-- The entry of the ledger of finished work: the node with its own copies of
its arguments and dependencies and with the task it ran for. -/
def doneSpec (plan : Json) (node : PlanNode) : Json :=
  ((node.raw.setField "args" (.obj node.args)).setField "after"
    (.arr (node.after.map .str))).setField "task" (node.task plan)

def planTask (value : Json) : Except PyError Protocol.Task := do
  let id ← (← value.item "id").text
  let goal ← (← (value.getD "goal" (.arr [])).iter).mapM Json.text
  return { id, goal }

/-- `on_fail=dict(n.get("on_fail") or {})`. -/
def onFailOf (node : Json) : Except PyError (List (Json × Json)) :=
  let declared := node.getD "on_fail" .null
  pyDict (if declared.truthy then declared else .obj [])

def planNode (label : String) (value : Json) : Except PyError Node := do
  let id ← (← value.item "id").text
  let skill ← value.item "skill"
  let args ← (← value.item "args").dict
  let after ← (← (← value.item "after").iter).mapM Json.text
  let onFail ← onFailOf value
  return { id, task := value.getD "task" (.str label), skill, args, after, onFail,
           executor := value.getD "executor" .null, kind := kindOf value }

def mainTask : Protocol.Task := { id := "main", goal := [] }

def planTasks (plan : Json) : Except PyError (List Protocol.Task) := do
  let declared := plan.getD "tasks" .null
  let tasks ← (← (if declared.truthy then declared else .arr []).iter).mapM planTask
  return if tasks = [] then [mainTask] else tasks

/-- `plan_to_graph`. -/
def planToGraph (plan : Json) : Except PyError ExecutionGraph := do
  let tasks ← planTasks plan
  let label := (tasks.head?.map Protocol.Task.id).getD "main"
  let nodes ← (← (← plan.item "nodes").iter).mapM (planNode label)
  let mission ← (← plan.item "goal").text
  let seed ← pyInt (plan.getD "seed" (.int 0))
  return { mission, seed, tasks, nodes }

end Task
end PhysicalHarness
