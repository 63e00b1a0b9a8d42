import PhysicalHarness.Task.Reading

namespace PhysicalHarness
namespace Task

open Python Protocol

/-!
# What a run seals

A run leaves a row for every proposal, legal or not, a row for every node that it verified
under a legal one, and a closing row unless it raises or its process dies.  The rows of a
session are those of its runs one after another, among rows of other kinds.
-/

variable [Host]

/-! ## The rows -/

/-- The kind of a sealed row and its payload. -/
abbrev Content := String × Json

/-- A row of the chain. -/
structure Row where
  seq : Nat
  kind : String
  data : Json

def Row.content (row : Row) : Content := (row.kind, row.data)

/-- The payload of a `task.plan` row; the proposal is what the planner returned. -/
structure PlanNote where
  replan : Nat
  seed : Int
  mission : Option String
  sigma0 : Json
  skills : List String
  showEvidence : Bool
  done : List String
  fault : Json
  plan : Json
  plannerRef : String
  embodiment : String
  arm : String
  facts : List Json
  objects : List Json
  visible : List String
  legal : Bool
  msg : String
  block : Json

def nameList (names : List String) : Json := .arr (names.map .str)

def nullable (name : Option String) : Json := (name.map Json.str).getD .null

/-- `plan if isinstance(plan, Mapping) else None`. -/
def PlanNote.graph (note : PlanNote) : Json := if note.plan.isMapping then note.plan else .null

def PlanNote.planner (note : PlanNote) : Json :=
  if (note.plan.getD "planner" .null).isMapping then note.plan.getD "planner" .null
  else .obj [("provider", .str note.plannerRef)]

def PlanNote.content (note : PlanNote) : Content :=
  ("task.plan", .obj [("replan", .int note.replan), ("seed", .int note.seed),
    ("mission", nullable note.mission), ("sigma0", note.sigma0), ("skills", nameList note.skills),
    ("show_evidence", .bool note.showEvidence), ("done", nameList note.done), ("fault", note.fault),
    ("graph", note.graph),
    ("graph_id", if note.plan.isMapping then .str (Host.sha note.plan) else .null),
    ("graph_sha", if note.plan.isMapping then .str (graphSha note.plan) else .null),
    ("planner", note.planner), ("embodiment", .str note.embodiment), ("arm", .str note.arm),
    ("rationale", note.plan.getD "rationale" (.str "")), ("facts", .arr note.facts),
    ("objects", .arr note.objects), ("visible", nameList note.visible), ("legal", .bool note.legal),
    ("problems", if note.legal then .arr [] else .arr [.str note.msg]), ("block", note.block)])

/-- `protocol.tri` in a row. -/
def tri : Option Bool → Json
  | none => .null
  | some value => .bool value

/-- The payload of a `task.verify` row, as far as it is read back. -/
structure VerifyNote where
  node : String
  results : List (String × Option Bool)
  executor : Option String

def VerifyNote.content (note : VerifyNote) : Content :=
  ("task.verify", .obj ([("node", .str note.node),
    ("results", .obj (note.results.map (fun result => (result.1, tri result.2))))] ++
      (note.executor.map (fun executor => ("executor", Json.str executor))).toList))

/-- The payload of a `task.plan_complete` row, as far as it is read back. -/
structure CompleteNote where
  success : Bool
  goal : Json
  replans : Nat
  actuations : Nat

def CompleteNote.content (note : CompleteNote) : Content :=
  ("task.plan_complete", .obj [("success", .bool note.success), ("goal", note.goal), ("replans", .int note.replans),
    ("actuations", .int note.actuations)])

def Passed (plan : Json) : Prop :=
  ∃ catalogue oracles done requirements, Accepted plan catalogue oracles done requirements

/-- A proposal and the nodes that were verified under it, which are those of a legal one. -/
structure Attempt where
  note : PlanNote
  passed : note.legal = true → Passed note.plan
  verified : List VerifyNote
  legal : verified ≠ [] → note.legal = true

/-- The proposals of a run in their order, and its closing row if it came to it. -/
structure Run where
  attempts : List Attempt
  completed : Option CompleteNote

def Attempt.contents (attempt : Attempt) : List Content :=
  attempt.note.content :: attempt.verified.map VerifyNote.content

def Run.contents (run : Run) : List Content :=
  run.attempts.flatMap Attempt.contents ++ (run.completed.map CompleteNote.content).toList

def taskKinds : List String := ["task.plan", "task.verify", "task.plan_complete"]

/-- The rows of the runs, among rows of other kinds. -/
def Writes (runs : List Run) (rows : List Row) : Prop :=
  (rows.map Row.content).filter (fun content => decide (content.1 ∈ taskKinds)) =
    runs.flatMap Run.contents

end Task
end PhysicalHarness
