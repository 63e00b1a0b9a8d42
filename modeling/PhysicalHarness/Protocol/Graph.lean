import PhysicalHarness.Protocol.PredRef

namespace PhysicalHarness
namespace Protocol

open Python

variable [Host]

/-!
# Skill records and execution graphs

The typed objects of the protocol.  A node's `task`, `skill`, `kind` and
`executor` are whatever JSON the planner wrote there: the dataclasses annotate
them as strings but nothing converts them.  Ids, argument names and the entries
of `after` are strings in every graph the gate builds.
-/

inductive ArgType where
  | str
  | int
  | float
  | bool
  deriving DecidableEq, Repr

/-- `TYPES`: schema type name to Python type.  An entity is a string. -/
def types : List (String × ArgType) :=
  [("entity", .str), ("str", .str), ("int", .int), ("float", .float), ("bool", .bool)]

/-- `_TYPE_NAME`: the last schema name listed for a Python type. -/
def typeName : ArgType → String
  | .str => "str"
  | .int => "int"
  | .float => "float"
  | .bool => "bool"

/-- `isinstance(v, t)` without the booleans that Python counts as integers. -/
def ArgType.admits : ArgType → Json → Bool
  | .str, .str _ => true
  | .int, .int _ => true
  | .float, .float _ => true
  | .bool, .bool _ => true
  | _, _ => false

/-- `type(value).__name__`. -/
def className : Json → String
  | .null => "NoneType"
  | .bool _ => "bool"
  | .int _ => "int"
  | .float _ => "float"
  | .str _ => "str"
  | .arr _ => "list"
  | .obj _ => "dict"

/-- The symbolic contract and the bindings of a skill. -/
structure SkillRecordV0 where
  id : Json
  name : Json
  args : List (String × String) := []
  requires : List String := []
  ensures : List String := []
  clobbers : List String := []
  /-- embodiment -> binding, whose `policies` are keyed by executor -/
  bindings : List (String × Json) := []

/-- A record's argument schema without a contract, as the catalogue gives it. -/
def argRecord (name : Json) (schema : List (String × ArgType)) : SkillRecordV0 :=
  { id := name, name := name, args := schema.map (fun arg => (arg.1, typeName arg.2)) }

/-- `executors_of`: the executor keys over every binding; `scripted` always. -/
def executorsOf (record : SkillRecordV0) : Except PyError (List Json) := do
  let policies ← record.bindings.mapM (fun binding =>
    match binding.2 with
    | .obj fields =>
        let declared := (Assoc.get? fields "policies").getD .null
        pyDict (if declared.truthy then declared else .obj [])
    | _ => .error .attributeError)
  return .str "scripted" :: policies.flatten.map Prod.fst

structure Task where
  id : String
  goal : List String

structure Node where
  id : String
  task : Json
  skill : Json
  args : List (String × Json)
  after : List String
  onFail : List (Json × Json)
  /-- an explicit policy key, or `None` -/
  executor : Json
  kind : Json

structure ExecutionGraph where
  mission : String
  seed : Int
  tasks : List Task
  nodes : List Node

/-- One node of `ExecutionGraph.from_dict`. -/
def Node.fromDict (value : Json) : Except PyError Node := do
  let id ← (← value.item "id").text
  let task ← value.item "task"
  let skill ← value.item "skill"
  let args ← (value.getD "args" (.obj [])).dict
  let after ← (← (value.getD "after" (.arr [])).iter).mapM Json.text
  let onFail ← pyDict (value.getD "on_fail" (.obj []))
  return { id, task, skill, args, after, onFail,
           executor := value.getD "executor" .null,
           kind := value.getD "kind" (.str "manipulate") }

/-- One task of `ExecutionGraph.from_dict`. -/
def Task.fromDict (value : Json) : Except PyError Task := do
  let id ← (← value.item "id").text
  let goal ← (← value.item "goal").iter
  let goal ← goal.mapM (fun ref => predRefStr (.value ref))
  return { id, goal }

def ExecutionGraph.fromDict (value : Json) : Except PyError ExecutionGraph := do
  let mission ← value.item "mission"
  let seed ← pyInt (value.getD "seed" (.int 0))
  let tasks ← (← (value.getD "tasks" (.arr [])).iter).mapM Task.fromDict
  let nodes ← (← (value.getD "nodes" (.arr [])).iter).mapM Node.fromDict
  return { mission := pyStr mission, seed, tasks, nodes }

/-- `records.get(skill)`, for a mapping whose keys compare with `==`. -/
def recordFor (records : List (Json × SkillRecordV0)) (skill : Json) : Option SkillRecordV0 :=
  (records.find? (fun entry => entry.1.eq skill)).map Prod.snd

/-- `records.setdefault(skill, record)`. -/
def setDefault (records : List (Json × SkillRecordV0)) (skill : Json)
    (record : SkillRecordV0) : List (Json × SkillRecordV0) :=
  if (recordFor records skill).isSome then records else records ++ [(skill, record)]

omit [Host] in
theorem recordFor_setDefault (records : List (Json × SkillRecordV0)) (skill : Json)
    (record : SkillRecordV0) : (recordFor (setDefault records skill record) skill).isSome := by
  unfold setDefault
  by_cases known : (recordFor records skill).isSome
  · rw [if_pos known]
    exact known
  · rw [if_neg known]
    simp [recordFor, List.find?_append, Json.eq_self]

end Protocol
end PhysicalHarness
