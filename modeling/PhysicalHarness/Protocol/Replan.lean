import PhysicalHarness.Protocol.Legal

namespace PhysicalHarness
namespace Protocol

open Python

variable [Host]

/-!
# Answering a fault

What a replan may change and when it counts as progress.  A fault is the loop's
answer to a proposal that was refused or that failed while it ran; the planner
sees it in the next brief.  `replan_monotone` protects finished work,
`replan_progress` stops the same graph from failing the same way for ever, and
`insert_recovery` is the repair a stateless planner answers with.
-/

inductive FaultKind where
  | nodeFailure
  | budget
  | cancelled
  | invalidPlan
  | noProgress
  deriving DecidableEq, Repr

def FaultKind.name : FaultKind → String
  | .nodeFailure => "node_failure"
  | .budget => "budget"
  | .cancelled => "cancelled"
  | .invalidPlan => "invalid_plan"
  | .noProgress => "no_progress"

/-- A fault dict; an optional field is a key that may be absent. -/
structure Fault where
  kind : FaultKind
  msg : String
  node : Option String := none
  failed : Option (List Json) := none
  done : Option (List String) := none
  left : Option (List String) := none
  failureMode : Option Json := none
  /-- the ids of the finished nodes -/
  nodesDone : Option (List String) := none
  /-- the strategy each finished `recover-<id>` ran, under `<id>` -/
  recoveriesDone : Option (List (String × Json)) := none
  nodesLeft : Option (List String) := none
  signature : Option FaultKind := none
  graphSha : Option String := none

/-- `fault.get("signature") or fault.get("kind")`. -/
def Fault.key (fault : Fault) : FaultKind := fault.signature.getD fault.kind

/-- `{n.id: n for n in nodes}[id]`: the last node with an id wins. -/
def nodeAt (graph : ExecutionGraph) (id : String) : Option Node :=
  graph.nodes.reverse.find? (fun node => node.id = id)

def sameCall (new old : Node) : Bool :=
  new.skill.eq old.skill && (Json.obj new.args).eq (.obj old.args)

def sameIdentity (new old : Node) : Bool :=
  new.kind.eq old.kind && new.task.eq old.task && new.executor.eq old.executor

/-- What a node depends on outside the finished ones. -/
def unfinished (done : List String) (node : Node) : List String :=
  node.after.filter (fun a => a ∉ done)

def callText (node : Node) : String := pyStr node.skill ++ pyStr (.obj node.args)

def doneProblems (old new : ExecutionGraph) (done : List String) (d : String) : List String :=
  let who := Host.repr (.str d)
  let identity :=
    match nodeAt old d, nodeAt new d with
    | none, _ => ["done node " ++ who ++ " is not in the old graph"]
    | some _, none => ["replan dropped done node " ++ who]
    | some before, some now =>
        if !sameCall now before then
          ["replan rewrote done node " ++ who ++ ": " ++ callText now ++ " != " ++
            callText before]
        else if !sameIdentity now before then
          ["replan rewrote done node " ++ who ++
            " execution identity (kind, task, executor)"]
        else []
  let dependencies :=
    match nodeAt new d with
    | none => []
    | some now =>
        if unfinished done now = [] then []
        else ["done node " ++ who ++ " depends on unfinished nodes " ++
          reprNames (sorted (unfinished done now).dedup)]
  identity ++ dependencies

def expectedPrefix (old : ExecutionGraph) (done : List String) : List String :=
  (old.nodes.map Node.id).filter (fun id => id ∈ done)

def actualPrefix (old new : ExecutionGraph) (done : List String) : List String :=
  (new.nodes.map Node.id).take (expectedPrefix old done).length

def prefixProblems (old new : ExecutionGraph) (done : List String) : List String :=
  if (∀ d ∈ done, (nodeAt old d).isSome) ∧ (∀ d ∈ done, (nodeAt new d).isSome) then
    if actualPrefix old new done = expectedPrefix old done then []
    else ["replan must preserve done nodes as an ordered prefix: expected " ++
      reprNames (expectedPrefix old done) ++ ", got " ++ reprNames (actualPrefix old new done)]
  else []

/-- `replan_monotone`: finished nodes keep their execution identity and form the
same ordered prefix. -/
def replanMonotone (old new : ExecutionGraph) (doneIds : List String) : Bool × List String :=
  let problems := (sorted doneIds.dedup).flatMap (doneProblems old new doneIds) ++
    prefixProblems old new doneIds
  (problems.isEmpty, problems)

structure HistoryRow where
  graphSha : String
  node : String
  signature : FaultKind
  deriving DecidableEq

/-- How often this graph already failed on this node in this way. -/
def tried (history : List HistoryRow) (sha node : String) (kind : FaultKind) : Nat :=
  history.countP (fun row => decide (row = ⟨sha, node, kind⟩))

inductive Progress where
  | fresh
  | retry
  | noProgress
  deriving DecidableEq, Repr

def Progress.name : Progress → String
  | .fresh => "fresh"
  | .retry => "retry"
  | .noProgress => "no_progress"

/-- The content id of a plan without `planner` and `rationale`. -/
def graphSha (graph : Json) : String :=
  Host.sha (.obj (graph.fields.filter (fun field =>
    field.1 ≠ "planner" ∧ field.1 ≠ "rationale")))

/-- `replan_progress`: against one fault the same graph may run once more as it
is; a fault without a node never blocks. -/
def replanProgress (history : List HistoryRow) (newGraph : Json) (fault : Option Fault) :
    Bool × Progress :=
  match fault with
  | none => (true, .fresh)
  | some fault =>
      match fault.node with
      | none => (true, .fresh)
      | some node =>
          let count := tried history (graphSha newGraph) node fault.key
          if count = 0 then (true, .fresh)
          else if count = 1 then (true, .retry)
          else (false, .noProgress)

/-! ## Recoveries -/

/-- The id of the recovery node of a node. -/
def recoverId (nodeId : String) : String := "recover-" ++ nodeId

/-- `nid[len("recover-"):]` when the id starts so. -/
def recovered (id : String) : Option String :=
  if "recover-".toList.isPrefixOf id.toList then
    some (String.ofList (id.toList.drop "recover-".length))
  else none

def recoveryNode (nodeId : String) (strategy : Json) (after : List Json) : Json :=
  .obj [("id", .str (recoverId nodeId)), ("skill", strategy), ("args", .obj []),
    ("kind", .str "recovery"), ("after", .arr after)]

/-- One turn of the loop of `insert_recovery`. -/
def insertBefore (nodeId : String) (strategy node : Json) : Except PyError (List Json × Bool) := do
  let id ← node.item "id"
  if id.eq (.str nodeId) then
    let after ← (← node.item "after").iter
    if after.any (fun a => a.eq (.str (recoverId nodeId))) then return ([node], true)
    return ([recoveryNode nodeId strategy after,
      node.setField "after" (.arr (after ++ [.str (recoverId nodeId)]))], true)
  return ([node], false)

/-- `insert_recovery`: one recovery node right before the node, and into its
`after`; a plan that carries it already comes back as it is. -/
def insertRecovery (plan : Json) (nodeId : String) (strategy : Json) : Except PyError Json := do
  let nodes ← (← plan.item "nodes").iter
  let found ← nodes.mapM (insertBefore nodeId strategy)
  if found.any Prod.snd then
    return plan.setField "nodes" (.arr (found.map Prod.fst).flatten)
  .error .keyError

/-- The card's repairs: by the stage word, and by failure mode first. -/
structure Repairs where
  byStage : List (String × String)
  byMode : List (String × List (String × String)) := []

/-- `id.split("-")[0]`. -/
def stageOf (id : String) : String := String.ofList (id.toList.takeWhile (· ≠ '-'))

def lookupStrategy (table : List (String × String)) (stage : String) : Option Json :=
  ((Assoc.get? table stage).map Json.str).filter Json.truthy

def doneStrategy (repairs : Repairs) (ran : List (String × Json)) (node : String) : Option Json :=
  ((Assoc.get? ran node).filter Json.truthy).or (lookupStrategy repairs.byStage (stageOf node))

/-- The strategy a `no_progress` fault is answered with. -/
def repairStrategy (repairs : Repairs) (mode : Json) (node : String) :
    Except PyError (Option Json) := do
  hashed mode
  let table := (repairs.byMode.find? (fun entry => mode.eq (.str entry.1))).map Prod.snd
  return (lookupStrategy (table.getD []) (stageOf node)).or
    (lookupStrategy repairs.byStage (stageOf node))

/-- `insert_recovery(plan, node, strategy) if strategy else plan`. -/
def insertIf (plan : Json) (node : String) : Option Json → Except PyError Json
  | some strategy => insertRecovery plan node strategy
  | none => .ok plan

/-- The loop of `recover_plan` over the finished nodes. -/
def reinsert (repairs : Repairs) (ran : List (String × Json)) :
    List String → Json → Except PyError Json
  | [], plan => .ok plan
  | id :: rest, plan =>
      match recovered id with
      | none => reinsert repairs ran rest plan
      | some node => do
          let plan ← insertIf plan node (doneStrategy repairs ran node)
          reinsert repairs ran rest plan

/-- `recover_plan`: re-insert every finished recovery, then answer a
`no_progress` fault with the repair for the failed node. -/
def recoverPlan (repairs : Repairs) (plan : Json) (fault : Option Fault) :
    Except PyError Json :=
  match fault with
  | none => .ok plan
  | some fault => do
      let plan ← reinsert repairs (fault.recoveriesDone.getD []) (fault.nodesDone.getD []) plan
      if fault.kind = .noProgress then
        match fault.node with
        | none => .error .keyError
        | some node =>
            let strategy ← repairStrategy repairs (fault.failureMode.getD .null) node
            insertIf plan node strategy
      else return plan

end Protocol
end PhysicalHarness
