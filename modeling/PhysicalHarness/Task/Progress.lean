import PhysicalHarness.Task.Effort

namespace PhysicalHarness
namespace Task

open Python Protocol Loop

/-!
# Progress against a fault

`replan_progress` compares a proposal with the one fault in its brief.  A graph
that already ended in that fault twice is not accepted in answer to it again; in
answer to another fault, or to a refusal without a node, it is.
-/

section

variable [Host]

/-- The plan that is being executed and the executions that ended in a fault at
a node, after one more event. -/
def scan : Option Json × List HistoryRow → Event → Option Json × List HistoryRow
  | (_, rows), .accepted plan _ _ => (some plan, rows)
  | (some plan, rows), .faulted fault =>
      (none, rows ++ (fault.node.map (fun node =>
        (⟨graphSha plan, node, fault.kind⟩ : HistoryRow))).toList)
  | current, _ => current

/-- The executions of a record that ended in a fault at a node, in order. -/
def executions (record : List Event) : List HistoryRow := (record.foldl scan (none, [])).2

theorem scan_snoc (record : List Event) (event : Event) :
    (record ++ [event]).foldl scan (none, []) = scan (record.foldl scan (none, [])) event :=
  List.foldl_concat ..

/-! ## The history is the executions so far -/

def Charted : Point × State → Prop
  | (.running plan _, state) => state.trace.foldl scan (none, []) = (some plan, state.history)
  | (.answering plan executed _, state) =>
      state.trace.foldl scan (none, []) = (if executed then some plan else none, state.history)
  | (_, state) => state.trace.foldl scan (none, []) = (none, state.history)

def Charts : Turn (Point × State) Final → Prop
  | .again next => Charted next
  | .stop _ => True

section

variable {config : Config} {world : World} {plan : Json} {state : State}
  {next : Turn (Point × State) Final}

theorem charts_of_proposed (charted : Charted (.consulting, state))
    (taken : Proposed config world state next) : Charts next := by
  cases taken with
  | again plan pending => exact charted
  | asked plan idle replied =>
      show (state.trace ++ [_]).foldl scan (none, []) = _
      rw [scan_snoc, charted]
      rfl
  | crashed error idle replied => trivial

theorem charts_of_settled {retry : Bool} (charted : Charted (.judging retry plan, state))
    (taken : Settled config retry plan state next) : Charts next := by
  have scanned : state.trace.foldl scan (none, []) = (none, state.history) := charted
  cases taken with
  | crashed error verdict => trivial
  | _ =>
      show (state.trace ++ [_]).foldl scan (none, []) = _
      rw [scan_snoc, scanned]
      rfl

theorem charts_of_visited {node : PlanNode} {rest : List PlanNode}
    (charted : Charted (.running plan (node :: rest), state))
    (taken : Visited config world plan node rest state next) : Charts next := by
  have scanned : state.trace.foldl scan (none, []) = (some plan, state.history) := charted
  have polled : ∀ fired, (state.trace ++ [Event.polled fired]).foldl scan (none, []) =
      (some plan, state.history) := by
    intro fired
    rw [scan_snoc, scanned]
    rfl
  have sent : ∀ outcome, (state.trace ++ [Event.polled false] ++
      [Event.dispatched plan node outcome]).foldl scan (none, []) = (some plan, state.history) := by
    intro outcome
    rw [scan_snoc, polled]
    rfl
  cases taken with
  | cancelled fired => exact polled true
  | skipped finished => exact polled false
  | exhausted due spent => exact polled false
  | unknown due affordable kindless => trivial
  | crashed error due affordable kind view record called other => trivial
  | _ => exact sent _

theorem charts_of_answered {executed : Bool} {fault : Fault}
    (charted : Charted (.answering plan executed fault, state))
    (taken : Answered config state plan executed fault next) : Charts next := by
  have scanned : state.trace.foldl scan (none, []) =
      (if executed then some plan else none, state.history) := charted
  have entered : (state.enter plan executed fault).trace.foldl scan (none, []) =
      (none, (state.enter plan executed fault).history) := by
    show (state.trace ++ [_]).foldl scan (none, []) = _
    rw [scan_snoc, scanned]
    cases executed with
    | true =>
        cases named : fault.node with
        | none => simp [scan, State.enter, named]
        | some node => simp [scan, State.enter, named]
    | false => cases named : fault.node <;> simp [scan, State.enter, named]
  cases taken with
  | retried spec goes scanned retries => exact entered
  | replanned spec goes scanned stays affordable => exact entered
  | _ => trivial

variable {here : Point × State}

theorem charts_step (charted : Charted here) :
    Charts (step config world here) := by
  obtain ⟨point, state⟩ := here
  cases point with
  | consulting => exact charts_of_proposed charted (proposed config world state)
  | judging retry plan => exact charts_of_settled charted (settled config retry plan state)
  | running plan rest =>
      cases rest with
      | nil => trivial
      | cons node rest => exact charts_of_visited charted (visited config world plan node rest state)
  | answering plan executed fault =>
      exact charts_of_answered charted (answered config state plan executed fault)

theorem charted_of_reachable (reached : Reachable config world here) :
    Charted here := by
  induction reached with
  | start => rfl
  | @again before after way stepped ih =>
      have charts : Charts (step config world before) := charts_step ih
      rw [stepped] at charts
      exact charts

/-- No plan is waiting to be retried, and a brief without a replan has no fault. -/
def Fresh : Point × State → Prop
  | (.judging retry _, state) => retry = false ∧ state.retryPlan = none ∧
      (state.replans = 0 → state.fault = none)
  | (_, state) => state.retryPlan = none ∧ (state.replans = 0 → state.fault = none)

def Freshens : Turn (Point × State) Final → Prop
  | .again next => Fresh next
  | .stop _ => True

omit [Host] in
theorem not_retries (none_ : config.segmentRetries = 0) (state : State) (fault : Fault)
    (spec : Option Json) : retries config state fault spec = false := by
  rw [retries, none_]
  simp

theorem freshens_step (none_ : config.segmentRetries = 0) (fresh : Fresh here) :
    Freshens (step config world here) := by
  obtain ⟨point, state⟩ := here
  cases point with
  | consulting =>
      have taken := proposed config world state
      change Freshens (propose config world state)
      generalize propose config world state = next at taken ⊢
      cases taken with
      | again plan pending =>
          rw [fresh.1] at pending
          cases pending
      | asked plan idle replied => exact ⟨rfl, fresh⟩
      | crashed error idle replied => trivial
  | judging retry plan =>
      have taken := settled config retry plan state
      change Freshens (settle config retry plan state)
      generalize settle config retry plan state = next at taken ⊢
      cases taken with
      | crashed error verdict => trivial
      | _ => exact fresh.2
  | running plan rest =>
      cases rest with
      | nil => trivial
      | cons node rest =>
          have taken := visited config world plan node rest state
          change Freshens (visit config world plan node rest state)
          generalize visit config world plan node rest state = next at taken ⊢
          cases taken with
          | unknown due affordable kindless => trivial
          | crashed error due affordable kind view record called other => trivial
          | _ => exact fresh
  | answering plan executed fault =>
      have taken := answered config state plan executed fault
      change Freshens (answer config state plan executed fault)
      generalize answer config state plan executed fault = next at taken ⊢
      cases taken with
      | retried spec goes scanned retries =>
          rw [not_retries none_] at retries
          cases retries
      | replanned spec goes scanned stays affordable =>
          exact ⟨fresh.1, fun never => absurd never (Nat.succ_ne_zero _)⟩
      | _ => trivial

theorem fresh_of_reachable (none_ : config.segmentRetries = 0)
    (reached : Reachable config world here) : Fresh here := by
  induction reached with
  | start => exact ⟨rfl, fun _ => rfl⟩
  | @again before after way stepped ih =>
      have freshens : Freshens (step config world before) := freshens_step none_ ih
      rw [stepped] at freshens
      exact freshens

theorem tried_of_accept {fault : Fault} {node : String} (due : state.replans ≠ 0)
    (held : state.fault = some fault) (named : fault.node = some node)
    (verdict : judge config state false plan = .ok .accept) :
    tried state.history (graphSha plan) node fault.key ≤ 1 := by
  by_contra more
  unfold judge at verdict
  obtain ⟨⟨ok, msg⟩, _, verdict⟩ := Fallible.of_bind verdict
  cases ok with
  | false => cases verdict
  | true =>
      obtain ⟨problems, _, verdict⟩ := Fallible.of_bind verdict
      by_cases clean : problems = []
      · have notZero : tried state.history (graphSha plan) node fault.key ≠ 0 := by omega
        have notOne : tried state.history (graphSha plan) node fault.key ≠ 1 := by omega
        simp [clean, due, held, named, replanProgress, notZero, notOne] at verdict
      · simp [clean] at verdict

/-- An acceptance in answer to a fault at a node follows at most one execution of
the same graph that ended in that fault. -/
def Answering (past : List Event) : Event → Prop
  | .accepted plan _ brief => ∀ fault node, brief = some fault → fault.node = some node →
      tried (executions past) (graphSha plan) node fault.key ≤ 1
  | _ => True

theorem answering_step (none_ : config.segmentRetries = 0) (reached : Reachable config world here)
    (always : Always Answering here.2.trace) : Recounts Answering (step config world here) := by
  refine recounts_of_events ?_ (fun _ _ _ _ => trivial) ?_ (fun _ _ _ _ _ _ _ _ _ => trivial) reached
    always
  · intro past event quiet
    cases event with
    | accepted plan retry fault => cases quiet
    | _ => trivial
  · intro retry plan state judged verdict fault node held named
    obtain ⟨first, _, start⟩ := fresh_of_reachable none_ judged
    subst first
    have rows : executions state.trace = state.history :=
      congrArg Prod.snd (charted_of_reachable judged)
    have due : state.replans ≠ 0 := by
      intro zero
      rw [start zero] at held
      cases held
    rw [rows]
    exact tried_of_accept due held named verdict

/-- Without segment retries, a graph of which two executions ended in a fault at a
node is not accepted again in answer to that fault. -/
theorem third_execution_answers_another (config : Config) (world : World)
    (noRetries : config.segmentRetries = 0) (record first rest : List Event)
    (recorded : RecordOf config world record) (plan : Json) (retry : Bool) (brief : Option Fault)
    (split : record = first ++ .accepted plan retry brief :: rest) (node : String) (kind : FaultKind)
    (twice : 2 ≤ tried (executions first) (graphSha plan) node kind) :
    ∀ answered, brief = some answered → ¬ (answered.node = some node ∧ answered.key = kind) := by
  rintro answered same ⟨sameNode, sameKind⟩
  have always : Always Answering record := always_of_recordOf (fun _ _ => trivial)
    (fun _ reached always => answering_step noRetries reached always) recorded
  have once : tried (executions first) (graphSha plan) node answered.key ≤ 1 :=
    always first (.accepted plan retry brief) rest split answered node same sameNode
  rw [sameKind] at once
  omega

end

end

section Example

local instance wallHost : Host := asciiHost

private def wallPlan : Json :=
  .obj [("goal", .str "tidy"),
    ("nodes", .arr [
      .obj [("id", .str "push"), ("skill", .str "push"), ("args", .obj []), ("after", .arr [])]]),
    ("verify", .arr [.obj [("after", .str "push"), ("predicate", .str "moved")]])]

private def wallConfig : Config where
  catalogue := [("push", [])]
  oracles := ["moved"]
  requirements := []
  records := []
  facts := []
  objects := []
  graph := .null
  seed := 0
  maxReplans := 3
  maxActuations := 8
  segmentRetries := 0

private def isFaulted : Event → Bool
  | .faulted _ => true
  | _ => false

/-- Every push fails.  The planner proposes the same graph, except that the third
proposal is empty. -/
private def wallWorld : World where
  plan := fun _ record => if record.countP isFaulted = 2 then .ok (.obj []) else .ok wallPlan
  handle := fun _ _ _ _ => .ok { success := false }
  cancelled := fun _ => false

private def wallRecord : List Event :=
  ((run wallConfig wallWorld 40).map (fun final => final.state.trace)).getD []

private theorem recordOf_wallRecord : RecordOf wallConfig wallWorld wallRecord := by
  have ends : (run wallConfig wallWorld 40).isSome = true := by
    decide +kernel
  rcases Option.isSome_iff_exists.mp ends with ⟨final, ran⟩
  rw [wallRecord, ran]
  exact .ended ran

/-- A refusal without a node in between lets the same graph end in the same fault
at the same node a third time. -/
theorem wall_three_times :
    wallConfig.segmentRetries = 0 ∧ RecordOf wallConfig wallWorld wallRecord ∧
      tried (executions wallRecord) (graphSha wallPlan) "push" .nodeFailure = 3 :=
  ⟨rfl, recordOf_wallRecord, by decide +kernel⟩

private def opening : List Event → Option (Json × Bool × Option Fault)
  | .accepted plan retry brief :: _ => some (plan, retry, brief)
  | _ => none

private theorem eq_of_opening {events : List Event} {plan : Json} {retry : Bool}
    {brief : Option Fault} (opens : opening events = some (plan, retry, brief)) :
    events = .accepted plan retry brief :: events.tail := by
  unfold opening at opens
  split at opens
  · cases opens
    rfl
  · cases opens

/-- The third acceptance of the graph answers the refusal. -/
theorem third_execution_answers_another_push :
    ∃ first rest plan retry brief, wallRecord = first ++ .accepted plan retry brief :: rest ∧
      2 ≤ tried (executions first) (graphSha plan) "push" .nodeFailure ∧
      ∀ answered, brief = some answered →
        ¬ (answered.node = some "push" ∧ answered.key = .nodeFailure) := by
  have third : (opening (wallRecord.drop 14)).any (fun opened =>
      decide (2 ≤ tried (executions (wallRecord.take 14)) (graphSha opened.1) "push"
        .nodeFailure)) = true := by
    decide +kernel
  rw [Option.any_eq_true] at third
  rcases third with ⟨⟨plan, retry, brief⟩, opens, facts⟩
  have twice : 2 ≤ tried (executions (wallRecord.take 14)) (graphSha plan) "push"
      .nodeFailure := of_decide_eq_true facts
  have split : wallRecord = wallRecord.take 14 ++
      .accepted plan retry brief :: (wallRecord.drop 14).tail := by
    rw [← eq_of_opening opens, List.take_append_drop]
  exact ⟨_, _, plan, retry, brief, split, twice,
    third_execution_answers_another wallConfig wallWorld rfl wallRecord _ _ recordOf_wallRecord
      plan retry brief split "push" .nodeFailure twice⟩

end Example

end Task
end PhysicalHarness
