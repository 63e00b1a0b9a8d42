import PhysicalHarness.Lib.Loop
import PhysicalHarness.Task.Validate

namespace PhysicalHarness
namespace Task

open Python Protocol Loop

/-!
# The plan-act-verify loop

`run` consults a planner, gates its answer, dispatches the nodes of an accepted
plan in list order and folds every refusal and failure back as a fault.  The
planner, the node handlers and the operator's stop probe are arbitrary functions
of everything that happened so far, so a theorem about every world speaks about
stateful and adversarial ones.

The state carries what the code's variables hold and, as `trace`, the record of
what happened; nothing the loop does depends on the trace.  Runs start without a
replay bundle.
-/

structure Stage where
  name : String
  success : Bool
  deriving DecidableEq

/-- The dict a node handler returns; an optional field is a key that may be
absent. -/
structure Result where
  success : Bool
  stages : List Stage := []
  steps : Json := .null
  governance : Json := .obj []
  facts : Option Json := none
  decision : Option Json := none
  diagnostics : Option Json := none
  driver : Option Json := none
  executor : Option Json := none
  evidencePolicy : Option String := none
  blockedReads : Option (List String) := none
  verificationSuccess : Option Bool := none

/-- The row of `nodes_out`: the result without the evaluator's reading. -/
structure Entry where
  success : Bool
  steps : Json
  stages : List Stage
  governance : Json
  facts : Option Json
  decision : Option Json
  diagnostics : Option Json
  driver : Option Json
  executor : Option Json
  evidencePolicy : Option String
  blockedReads : Option (List String)

def entryOf (result : Result) : Entry where
  success := result.success
  steps := result.steps
  stages := result.stages
  governance := result.governance
  facts := result.facts
  decision := result.decision
  diagnostics := result.diagnostics
  driver := result.driver
  executor := result.executor
  evidencePolicy := result.evidencePolicy
  blockedReads := result.blockedReads

/-- `EVIDENCE_POLICY`. -/
def evidencePolicy : String := "world-dependencies-v1"

structure Provenance where
  kind : NodeKind
  clean : Bool
  blockedReads : List String

def provenanceOf (kind : NodeKind) (result : Result) : Provenance where
  kind := kind
  clean := decide (result.evidencePolicy = some evidencePolicy ∧ result.blockedReads = some [])
  blockedReads := result.blockedReads.getD []

/-- The rows and their provenance as one node sees them. -/
structure NodeView where
  nodesOut : Dict String Entry
  provenance : Dict String Provenance

/-! ## The outside -/

/-- The parts of the brief that change from one consultation to the next. -/
structure Brief where
  fault : Option Fault
  budget : Int

inductive Outcome where
  | returned (result : Result)
  | raised (error : PyError)

/-- What happened, in order. -/
inductive Event where
  /-- the planner was asked, or the composed graph read -/
  | consulted (brief : Brief) (reply : Except PyError Json)
  | accepted (plan : Json) (retry : Bool) (fault : Option Fault)
  | refused (plan : Json) (kind : FaultKind) (msg : String)
  | polled (fired : Bool)
  | dispatched (plan : Json) (node : PlanNode) (outcome : Outcome)
  | faulted (fault : Fault)
  /-- the closing `task.plan_complete` note -/
  | planComplete (success : Bool)

/-- The planner, the node handlers and the stop probe. -/
structure World where
  plan : Brief → List Event → Except PyError Json
  handle : NodeKind → PlanNode → NodeView → List Event → Except PyError Result
  cancelled : List Event → Bool

/-- What the brief and the call fix for the whole run. -/
structure Config where
  catalogue : Catalogue
  oracles : List String
  /-- `planning_context`; an absent one is empty -/
  requirements : List (String × Json)
  /-- the contract records of the card, when it publishes any -/
  records : List SkillRecordV0
  /-- sigma0 -/
  facts : List PredRef
  objects : List String
  /-- a composed graph that is executed as it is -/
  graph : Json
  seed : Int
  maxReplans : Int
  maxActuations : Int
  segmentRetries : Int

/-- The variables of the loop. -/
structure State where
  plan : Json := .obj []
  nodesOut : Dict String Entry := Dict.empty
  provenance : Dict String Provenance := Dict.empty
  doneSpecs : Dict String Json := Dict.empty
  faults : List Fault := []
  history : List HistoryRow := []
  actuations : Nat := 0
  replans : Nat := 0
  retryCounts : Dict String Nat := Dict.empty
  retryPlan : Option Json := none
  prevPlan : Option Json := none
  /-- `brief["fault"]` -/
  fault : Option Fault := none
  trace : List Event := []

def State.log (state : State) (event : Event) : State :=
  { state with trace := state.trace ++ [event] }

/-- The ids whose row says success, in the order of the rows. -/
def State.nodesDone (state : State) : List String :=
  (state.nodesOut.entries.filter (fun entry => entry.2.success)).map Prod.fst

/-- Where the loop is: about to consult, with a proposal, among the nodes of an
accepted plan (with those still to visit) or with a fault to answer. -/
inductive Point where
  | consulting
  | judging (retry : Bool) (plan : Json)
  | running (plan : Json) (rest : List PlanNode)
  | answering (plan : Json) (executed : Bool) (fault : Fault)

inductive Final where
  | finished (success : Bool) (state : State)
  | crashed (error : PyError) (state : State)

def Final.state : Final → State
  | .finished _ state => state
  | .crashed _ state => state

variable [Host]

/-- `{**plan, "seed": seed}` as a graph. -/
def seededGraph (plan : Json) (seed : Int) : Except PyError ExecutionGraph :=
  planToGraph (plan.setField "seed" (.int seed))

/-- `_records`: keyed by id and by name, or typed-only ones of the catalogue. -/
def recordTable (config : Config) : List (Json × SkillRecordV0) :=
  if config.records = [] then catalogueRecords config.catalogue
  else config.records.foldl (fun table record =>
    assign (assign table (record.id, record)) (record.name, record)) []

/-- `_graph_problems`. -/
def graphProblems (config : Config) (plan : Json) (prevPlan : Option Json) (done : List String) :
    Except PyError (List String) := do
  let graph ← seededGraph plan config.seed
  let monotone ← match prevPlan with
    | none => pure []
    | some prev => do
        let old ← seededGraph prev config.seed
        pure (replanMonotone old graph done).2
  let (_, problems) ← validateGraph graph (withRecoveries (recordTable config) (nodesOf plan))
    config.facts config.objects
  return monotone ++ problems

/-- `NO_PROGRESS_HINT`. -/
def noProgressHint : String :=
  "same graph already tried; change args/executor or add a recovery node"

inductive Verdict where
  | accept
  | invalid (msg : String)
  | noProgress (msg : String)

/-- The two gates and the progress rule, in their order. -/
def judge (config : Config) (state : State) (retry : Bool) (plan : Json) :
    Except PyError Verdict := do
  let (ok, msg) ← validatePlan plan config.catalogue config.oracles
    (state.doneSpecs.entries.map Prod.snd) config.requirements
  if !ok then return .invalid msg
  let problems ← graphProblems config plan state.prevPlan state.doneSpecs.keys
  if problems ≠ [] then return .invalid ("; ".intercalate problems)
  if state.replans ≠ 0 ∧ !retry then
    let (progress, reason) := replanProgress state.history plan state.fault
    if !progress then
      return .noProgress ("replan rejected: " ++ reason.name ++ ": " ++ noProgressHint)
  return .accept

/-! ## One node -/

def withLocal {α : Type} (task : Json) (dict : Dict String α) : Dict String α :=
  match task with
  | .str name =>
      dict.entries.foldl (fun view entry =>
        if name ≠ "" ∧ (name ++ ".").toList.isPrefixOf entry.1.toList then
          view.set (String.ofList (entry.1.toList.drop (name.length + 1))) entry.2
        else view) dict
  | _ => dict

def viewFor (node : PlanNode) (state : State) : NodeView where
  nodesOut := withLocal (node.raw.getD "task" .null) state.nodesOut
  provenance := withLocal (node.raw.getD "task" .null) state.provenance

/-- The names of the stages that succeeded, and of those that failed. -/
def doneStages (result : Result) : List String :=
  (result.stages.filter (fun stage => stage.success)).map Stage.name

def leftStages (result : Result) : List String :=
  (result.stages.filter (fun stage => !stage.success)).map Stage.name

def badPreds (plan : Json) (node : PlanNode) (result : Result) : List Json :=
  ((verifyOf plan).filter (fun v =>
    (v.getD "after" .null).eq (.str node.id) && !result.success)).map
      (fun v => v.getD "predicate" .null)

/-- Whether the node faults: a failed stage, a failed predicate or no success. -/
def faulty (plan : Json) (node : PlanNode) (result : Result) : Bool :=
  !(leftStages result).isEmpty || !(badPreds plan node result).isEmpty || !result.success

/-- `node_failure` after a handler returned. -/
def failureFault (plan : Json) (node : PlanNode) (result : Result) : Fault where
  kind := .nodeFailure
  node := some node.id
  failed :=
    let failed := (leftStages result).map Json.str ++ badPreds plan node result
    some (if failed = [] then [node.skill] else failed)
  done := some (doneStages result)
  left := some (leftStages result)
  failureMode :=
    let diagnostics := result.diagnostics.getD .null
    some (diagnostics.getD "failure_mode" .null)
  msg := "node " ++ Host.repr (.str node.id) ++ " failed: stages " ++
    reprNames (leftStages result) ++ ", predicates " ++
    Host.repr (.arr (badPreds plan node result)) ++ "; done " ++ reprNames (doneStages result)

/-- `node_failure` when the handler refused with a `ValueError`. -/
def refusalFault (node : PlanNode) (text : String) : Fault where
  kind := .nodeFailure
  node := some node.id
  failed := some [node.skill]
  done := some []
  left := some []
  msg := "node " ++ Host.repr (.str node.id) ++ " refused at dispatch: " ++ text

def cancelFault (node : PlanNode) : Fault where
  kind := .cancelled
  node := some node.id
  msg := "cancelled by the operator before node " ++ Host.repr (.str node.id)

def budgetFault (config : Config) (node : PlanNode) : Fault where
  kind := .budget
  node := some node.id
  msg := "max_actuations=" ++ toString config.maxActuations ++ " reached before dispatching node " ++
    Host.repr (.str node.id)

def State.bill (state : State) : State := { state with actuations := state.actuations + 1 }

/-- The row, its provenance and, on success, the entry of the ledger. -/
def State.record (state : State) (plan : Json) (node : PlanNode) (kind : NodeKind)
    (result : Result) : State :=
  { state with
    nodesOut := state.nodesOut.set node.id (entryOf result)
    provenance := state.provenance.set node.id (provenanceOf kind result)
    doneSpecs :=
      if result.success then state.doneSpecs.set node.id (doneSpec plan node)
      else state.doneSpecs }

/-- The node already succeeded. -/
def State.finished (state : State) (id : String) : Bool :=
  (state.nodesOut.get? id).any Entry.success

/-- The strategy each finished `recover-<id>` ran, under `<id>`. -/
def State.recoveries (state : State) : List (String × Json) :=
  state.nodesDone.filterMap (fun id => (recovered id).map (fun node =>
    (node, ((state.doneSpecs.get? id).getD (.obj [])).getD "skill" .null)))

def attachDone (plan : Json) (state : State) (fault : Fault) : Fault :=
  { fault with
    nodesDone := some state.nodesDone
    recoveriesDone := some state.recoveries
    nodesLeft := some (((planNodes plan).map PlanNode.id).filter (fun id => id ∉ state.nodesDone)) }

def breakWith (plan : Json) (state : State) (fault : Fault) : Turn (Point × State) Final :=
  .again (.answering plan true (attachDone plan state fault), state)

def dispatch (world : World) (plan : Json) (node : PlanNode) (rest : List PlanNode)
    (state : State) : Turn (Point × State) Final :=
  let state := state.bill
  match NodeKind.ofJson node.kind with
  | none => .stop (.crashed .keyError state)
  | some kind =>
      match world.handle kind node (viewFor node state) state.trace with
      | .error (.valueError text) =>
          breakWith plan (state.log (.dispatched plan node (.raised (.valueError text))))
            (refusalFault node text)
      | .error error =>
          .stop (.crashed error (state.log (.dispatched plan node (.raised error))))
      | .ok result =>
          let state := (state.log (.dispatched plan node (.returned result))).record
            plan node kind result
          if faulty plan node result then breakWith plan state (failureFault plan node result)
          else .again (.running plan rest, state)

def visit (config : Config) (world : World) (plan : Json) (node : PlanNode)
    (rest : List PlanNode) (state : State) : Turn (Point × State) Final :=
  let fired := world.cancelled state.trace
  let state := state.log (.polled fired)
  if fired then breakWith plan state (cancelFault node)
  else if state.finished node.id then .again (.running plan rest, state)
  else if config.maxActuations ≤ state.actuations then
    breakWith plan state (budgetFault config node)
  else dispatch world plan node rest state

/-! ## The outer loop -/

/-- The fault of a refused repetition keeps what the last fault said. -/
def noProgressFault (state : State) (plan : Json) (msg : String) : Fault :=
  match state.fault with
  | some prev =>
      { prev with kind := .noProgress, msg, signature := some prev.key,
                  graphSha := some (graphSha plan) }
  | none => { kind := .noProgress, msg, graphSha := some (graphSha plan) }

/-- The search for the failed node in whatever the planner proposed. -/
def findFailed (target : Json) : List Json → Except PyError (Option Json)
  | [] => .ok none
  | node :: rest =>
      match node with
      | .obj _ =>
          if (node.getD "id" .null).eq target then .ok (some node) else findFailed target rest
      | _ => .error .attributeError

/-- `next((n for n in plan.get("nodes", ()) if n.get("id") == failed_node), None)`. -/
def failedSpec (plan : Json) (node : Option String) : Except PyError (Option Json) :=
  match plan with
  | .obj _ => do
      let nodes ← (plan.getD "nodes" (.arr [])).iter
      findFailed ((node.map Json.str).getD .null) nodes
  | _ => .error .attributeError

/-- `str(failed_node)`. -/
def retryKey (node : Option String) : String := node.getD "None"

def retries (config : Config) (state : State) (fault : Fault) (spec : Option Json) : Bool :=
  decide (fault.kind = .nodeFailure) &&
    spec.any (fun node => (kindOf node).eq (.str "segment")) &&
    decide ((((state.retryCounts.get? (retryKey fault.node)).getD 0 : Nat) : Int) <
      config.segmentRetries)

/-- Whether a fault ends the task whatever the planner might say. -/
def terminal (state : State) (fault : Fault) : Bool :=
  decide (fault.kind = .budget) || decide (fault.kind = .cancelled) ||
    (decide (fault.kind = .noProgress) &&
      state.fault.any (fun prev => decide (prev.kind = .noProgress)))

/-- The bookkeeping of a fault; `executed` tells whether a graph ran into it. -/
def State.enter (state : State) (plan : Json) (executed : Bool) (fault : Fault) : State :=
  { state with
    faults := state.faults ++ [fault]
    history :=
      match fault.node with
      | some node =>
          if executed then state.history ++ [⟨graphSha plan, node, fault.kind⟩]
          else state.history
      | none => state.history
    trace := state.trace ++ [.faulted fault] }

/-- Run the failed segment again on the same graph. -/
def State.retry (state : State) (plan : Json) (fault : Fault) : State :=
  { state with
    retryCounts := state.retryCounts.set (retryKey fault.node)
      ((state.retryCounts.get? (retryKey fault.node)).getD 0 + 1)
    retryPlan := some plan }

/-- Ask the planner again, with the fault in its brief. -/
def State.replan (state : State) (fault : Fault) : State :=
  { state with replans := state.replans + 1, fault := some fault }

/-- What the loop does about a fault. -/
def answer (config : Config) (state : State) (plan : Json) (executed : Bool) (fault : Fault) :
    Turn (Point × State) Final :=
  let state := state.enter plan executed fault
  if terminal state fault then .stop (.finished false state)
  else
    match failedSpec plan fault.node with
    | .error error => .stop (.crashed error state)
    | .ok spec =>
        if retries config state fault spec then .again (.consulting, state.retry plan fault)
        else if config.maxReplans ≤ state.replans then .stop (.finished false state)
        else .again (.consulting, state.replan fault)

/-- The brief of this consultation. -/
def State.brief (config : Config) (state : State) : Brief where
  fault := state.fault
  budget := config.maxActuations - state.actuations

/-- The composed graph or the planner's answer. -/
def reply (config : Config) (world : World) (state : State) : Except PyError Json :=
  if config.graph.truthy then .ok config.graph
  else world.plan (state.brief config) state.trace

/-- The proposal of this turn, which is the plan to retry when there is one. -/
def propose (config : Config) (world : World) (state : State) : Turn (Point × State) Final :=
  match state.retryPlan with
  | some plan => .again (.judging true plan, { state with plan, retryPlan := none })
  | none =>
      let asked := state.log (.consulted (state.brief config) (reply config world state))
      match reply config world state with
      | .ok plan => .again (.judging false plan, { asked with plan })
      | .error error => .stop (.crashed error asked)

def settle (config : Config) (retry : Bool) (plan : Json) (state : State) :
    Turn (Point × State) Final :=
  match judge config state retry plan with
  | .error error => .stop (.crashed error state)
  | .ok .accept =>
      .again (.running plan (planNodes plan),
        { state with prevPlan := some plan }.log (.accepted plan retry state.fault))
  | .ok (.invalid msg) =>
      .again (.answering plan false { kind := .invalidPlan, msg },
        state.log (.refused plan .invalidPlan msg))
  | .ok (.noProgress msg) =>
      .again (.answering plan false (noProgressFault state plan msg),
        state.log (.refused plan .noProgress msg))

/-- One step from one point of the loop to the next. -/
def step (config : Config) (world : World) : Point × State → Turn (Point × State) Final
  | (.consulting, state) => propose config world state
  | (.judging retry plan, state) => settle config retry plan state
  | (.running _ [], state) => .stop (.finished true state)
  | (.running plan (node :: rest), state) => visit config world plan node rest state
  | (.answering plan executed fault, state) => answer config state plan executed fault

def close : Final → Final
  | .finished success state => .finished success (state.log (.planComplete success))
  | .crashed error state => .crashed error state

/-- `run`, for a number of steps. -/
def run (config : Config) (world : World) (fuel : Nat) : Option Final :=
  (iterate (step config world) fuel (.consulting, {})).map close

/-- The loop can be at this point in this state. -/
def Reachable (config : Config) (world : World) (here : Point × State) : Prop :=
  Reaches (step config world) (.consulting, {}) here

/-- The records of a run: while it is under way and when it has ended. -/
inductive RecordOf (config : Config) (world : World) : List Event → Prop
  | underway {here : Point × State} (reached : Reachable config world here) :
      RecordOf config world here.2.trace
  | ended {fuel : Nat} {final : Final} (ran : run config world fuel = some final) :
      RecordOf config world final.state.trace

theorem exists_last_of_run {config : Config} {world : World} {fuel : Nat} {final : Final}
    (ran : run config world fuel = some final) :
    ∃ here last, Reachable config world here ∧ step config world here = .stop last ∧
      final = close last := by
  obtain ⟨last, stopped, closed⟩ := Option.map_eq_some_iff.mp ran
  obtain ⟨here, reached, stops⟩ := exists_last_of_iterate stopped
  exact ⟨here, last, reached, stops, closed.symm⟩

end Task
end PhysicalHarness
