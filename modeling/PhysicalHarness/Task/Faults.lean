import PhysicalHarness.Task.Dispatch

namespace PhysicalHarness
namespace Task

open Python Protocol Loop

/-!
# Faults and finished work

Whether a node faults and whether it is finished are two readings of one result:
a failed stage, a failed predicate or no success make it fault, success alone
makes it finished.  They part on a result that reports success although one of
its stages failed.
-/

def disagrees (result : Result) : Bool := result.success && !(leftStages result).isEmpty

/-- The last thing that happened is a dispatch that came back with success and a
failed stage. -/
def endsInDisagreement (record : List Event) : Bool :=
  match record.getLast? with
  | some (.dispatched _ _ (.returned result)) => disagrees result
  | _ => false

@[simp] theorem endsInDisagreement_returned (past : List Event) (plan : Json) (node : PlanNode)
    (result : Result) :
    endsInDisagreement (past ++ [.dispatched plan node (.returned result)]) = disagrees result := by
  rw [endsInDisagreement, List.getLast?_concat]

@[simp] theorem endsInDisagreement_raised (past : List Event) (plan : Json) (node : PlanNode)
    (error : PyError) :
    endsInDisagreement (past ++ [.dispatched plan node (.raised error)]) = false := by
  rw [endsInDisagreement, List.getLast?_concat]

theorem disagrees_of_faulty {plan : Json} {node : PlanNode} {result : Result}
    (fault : faulty plan node result = true) : disagrees result = result.success := by
  cases success : result.success with
  | false => simp [disagrees, success]
  | true =>
      simp only [faulty, badPreds, success] at fault
      simpa [disagrees, success] using fault

theorem State.mem_nodesDone {state : State} {id : String} :
    id ∈ state.nodesDone ↔ state.finished id = true := by
  rw [State.nodesDone, List.mem_map]
  constructor
  · rintro ⟨⟨key, entry⟩, mem, same⟩
    obtain ⟨listed, success⟩ := List.mem_filter.mp mem
    have found := (state.nodesOut.mem_entries_iff key entry).mp listed
    rw [State.finished, ← same, found]
    exact success
  · intro finished
    rw [State.finished, Option.any_eq_true] at finished
    obtain ⟨entry, found, success⟩ := finished
    exact ⟨(id, entry), List.mem_filter.mpr ⟨(state.nodesOut.mem_entries_iff id entry).mpr found,
      success⟩, rfl⟩

/-! ## What a fault says about its node -/

/-- A fault that names a node after a dispatch counts the node as finished, and
it is finished, exactly when the dispatch ended in disagreement. -/
def Attributed (past : List Event) : Event → Prop
  | .faulted fault => fault.kind = .nodeFailure → ∀ node, fault.node = some node →
      (node ∈ fault.nodesDone.getD [] ↔ endsInDisagreement past = true) ∧
      (node ∈ successes past ↔ endsInDisagreement past = true)
  | _ => True

def Faulted : Point × State → Prop
  | (.answering _ _ fault, state) =>
      Always Attributed state.trace ∧ Attributed state.trace (.faulted fault)
  | (_, state) => Always Attributed state.trace

def Attributes : Turn (Point × State) Final → Prop
  | .again next => Faulted next
  | .stop last => Always Attributed last.state.trace

section

variable [Host] {config : Config} {world : World} {plan : Json} {state : State}
  {next : Turn (Point × State) Final}

omit [Host] in
theorem attributes_of_proposed (faults : Always Attributed state.trace)
    (taken : Proposed config world state next) : Attributes next := by
  cases taken with
  | again plan pending => exact faults
  | asked plan idle replied => exact faults.snoc trivial
  | crashed error idle replied => exact faults.snoc trivial

theorem attributes_of_settled {retry : Bool} (faults : Always Attributed state.trace)
    (taken : Settled config retry plan state next) : Attributes next := by
  cases taken with
  | accepted verdict => exact faults.snoc trivial
  | invalid msg verdict =>
      exact ⟨faults.snoc trivial, nofun⟩
  | noProgress msg verdict =>
      refine ⟨faults.snoc trivial, fun never => ?_⟩
      have kind : (noProgressFault state plan msg).kind = .noProgress := by
        unfold noProgressFault
        cases state.fault <;> rfl
      rw [kind] at never
      cases never
  | crashed error verdict => exact faults

omit [Host] in
theorem attributed_breakWith {sent : State} (books : Books sent) {fault : Fault} {node : String}
    (named : fault.node = some node)
    (finished : node ∈ successes sent.trace ↔ endsInDisagreement sent.trace = true) :
    Attributed sent.trace (.faulted (attachDone plan sent fault)) := by
  intro _ other same
  cases named.symm.trans same
  refine ⟨?_, finished⟩
  show node ∈ sent.nodesDone ↔ _
  rw [State.mem_nodesDone, books.rows, finished]

theorem attributes_of_visited {node : PlanNode} {rest : List PlanNode} (books : Books state)
    (faults : Always Attributed state.trace)
    (after : ∀ last, next = .again last → Books last.2)
    (taken : Visited config world plan node rest state next) : Attributes next := by
  have polled : ∀ fired, Always Attributed (state.log (.polled fired)).trace :=
    fun _ => faults.snoc trivial
  have notDone : state.finished node.id = false → node.id ∉ successes state.trace := by
    intro due done
    rw [(books.rows node.id).mpr done] at due
    cases due
  have unchanged : ∀ error, successes (state.sent plan node (.raised error)).trace =
      successes state.trace := by
    intro error
    rw [State.sent_trace, successes_snoc_of_silent rfl, successes_snoc_of_silent rfl]
  cases taken with
  | cancelled fired => exact ⟨polled true, nofun⟩
  | skipped finished => exact polled false
  | exhausted due spent => exact ⟨polled false, nofun⟩
  | unknown due affordable kindless => exact polled false
  | crashed error due affordable kind view record called other => exact (polled false).snoc trivial
  | passed kind result due affordable clean => exact (polled false).snoc trivial
  | refused text due affordable =>
      refine ⟨(polled false).snoc trivial, attributed_breakWith (after _ rfl) rfl ?_⟩
      rw [unchanged, State.sent_trace, endsInDisagreement_raised]
      exact iff_of_false (notDone due) Bool.false_ne_true
  | faulted kind result due affordable fault =>
      refine ⟨(polled false).snoc trivial, attributed_breakWith (after _ rfl) rfl ?_⟩
      rw [State.returned_trace, endsInDisagreement_returned, disagrees_of_faulty fault]
      cases success : result.success with
      | true =>
          rw [successes_append]
          simp [successes, finishedWork, finishedBy, success]
      | false =>
          rw [successes_snoc_of_silent (by simp [finishedBy, success]),
            successes_snoc_of_silent rfl]
          exact iff_of_false (notDone due) Bool.false_ne_true

theorem attributes_of_answered {executed : Bool} {fault : Fault}
    (faults : Always Attributed state.trace) (here : Attributed state.trace (.faulted fault))
    (taken : Answered config state plan executed fault next) : Attributes next := by
  have entered : Always Attributed (state.enter plan executed fault).trace := faults.snoc here
  cases taken with
  | _ => exact entered

theorem attributes_step {here : Point × State} (reached : Reachable config world here)
    (faulted : Faulted here) : Attributes (step config world here) := by
  have books := (holds_of_reachable reached).books
  have after : ∀ last, step config world here = .again last → Books last.2 :=
    fun last stepped => (holds_of_reachable (reached.again stepped)).books
  obtain ⟨point, state⟩ := here
  cases point with
  | consulting => exact attributes_of_proposed faulted (proposed config world state)
  | judging retry plan => exact attributes_of_settled faulted (settled config retry plan state)
  | running plan rest =>
      cases rest with
      | nil => exact faulted
      | cons node rest =>
          exact attributes_of_visited books faulted after
            (visited config world plan node rest state)
  | answering plan executed fault =>
      exact attributes_of_answered faulted.1 faulted.2 (answered config state plan executed fault)

theorem faulted_of_reachable {here : Point × State} (reached : Reachable config world here) :
    Faulted here :=
  Reaches.invariant reached (always_nil _) (fun before after way faulted stepped => by
    have attributes : Attributes (step config world before) := attributes_step way faulted
    rw [stepped] at attributes
    exact attributes)

omit [Host] in
theorem Faulted.always {here : Point × State} (faulted : Faulted here) :
    Always Attributed here.2.trace := by
  obtain ⟨point, state⟩ := here
  cases point with
  | answering plan executed fault => exact faulted.1
  | _ => exact faulted

theorem attributed_of_recordOf {record : List Event} (recorded : RecordOf config world record) :
    Always Attributed record := by
  cases recorded with
  | underway reached => exact (faulted_of_reachable reached).always
  | ended ran =>
      obtain ⟨here, last, reached, stops, same⟩ := exists_last_of_run ran
      have attributes : Attributes (step config world here) :=
        attributes_step reached (faulted_of_reachable reached)
      rw [stops] at attributes
      subst same
      cases last with
      | finished success state => exact Always.snoc attributes trivial
      | crashed error state => exact attributes

/-- The node is dispatched in this part of the record. -/
def DispatchedIn (record : List Event) (id : String) : Prop :=
  ∃ plan node outcome, .dispatched plan node outcome ∈ record ∧ node.id = id

omit [Host] in
theorem dispatchedIn_of_mem_successes {record : List Event} {id : String}
    (done : id ∈ successes record) : DispatchedIn record id := by
  obtain ⟨⟨plan, node⟩, mem, same⟩ := List.mem_map.mp done
  obtain ⟨event, listed, finished⟩ := List.mem_filterMap.mp mem
  unfold finishedBy at finished
  split at finished
  · rename_i other view result
    split at finished
    · cases finished
      exact ⟨_, _, _, listed, same⟩
    · cases finished
  · cases finished

/-- A node that a `node_failure` fault names is outside the fault's `nodes_done`
and outside the ledger exactly when the dispatch before the fault did not report
success together with a failed stage; in a run that ends in success with a plan
that holds the node, exactly then the node was dispatched again. -/
theorem unfinished_of_fault (config : Config) (world : World) :
    (∀ plan executed fault state node,
      Reachable config world (.answering plan executed fault, state) →
      fault.kind = .nodeFailure → fault.node = some node →
        ((node ∉ fault.nodesDone.getD [] ∧ node ∉ state.doneSpecs.keys) ↔
          endsInDisagreement state.trace = false)) ∧
    (∀ fuel state first fault rest node plan,
      run config world fuel = some (.finished true state) →
      state.trace = first ++ .faulted fault :: rest →
      fault.kind = .nodeFailure → fault.node = some node →
      LastAccepted plan state.trace → node ∈ (planNodes plan).map PlanNode.id →
        (DispatchedIn rest node ↔ endsInDisagreement first = false)) := by
  constructor
  · intro plan executed fault state node reached failure named
    obtain ⟨listed, finished⟩ := (faulted_of_reachable reached).2 failure node named
    rw [(holds_of_reachable reached).books.keys, listed, finished, and_self,
      Bool.not_eq_true]
  · intro fuel state first fault rest node plan ran split failure named last member
    have recorded : RecordOf config world state.trace := .ended ran
    obtain ⟨_, finished⟩ := attributed_of_recordOf recorded first _ rest split failure node named
    rw [← Bool.not_eq_true, ← finished]
    constructor
    · rintro ⟨other, view, outcome, again, same⟩ done
      obtain ⟨between, later, parts⟩ := List.append_of_mem again
      have whole : state.trace = (first ++ .faulted fault :: between) ++
          .dispatched other view outcome :: later := by
        rw [split, parts, List.append_assoc]
        rfl
      have fresh := (disciplined_of_recordOf recorded _ _ later whole).1
      rw [successes_append, same] at fresh
      exact fresh (List.mem_append_left _ done)
    · intro undone
      obtain ⟨other, also, once⟩ := complete_of_run ran
      obtain ⟨view, listed, same⟩ := List.mem_map.mp member
      have done : node ∈ successes state.trace := by
        rw [← same]
        refine List.count_pos_iff.mp ?_
        rw [once view (last.unique also ▸ listed)]
        exact Nat.one_pos
      rw [split, successes_append, List.mem_append] at done
      rcases done with before | after
      · exact absurd before undone
      · exact dispatchedIn_of_mem_successes after

end

/-! ## A result that disagrees with itself, and one that does not -/

section Example

local instance graspHost : Host := asciiHost

private def graspPlan : Json :=
  .obj [("goal", .str "tidy"),
    ("nodes", .arr [
      .obj [("id", .str "grasp"), ("skill", .str "grasp"), ("args", .obj []), ("after", .arr [])]]),
    ("verify", .arr [.obj [("after", .str "grasp"), ("predicate", .str "held")]])]

private def graspConfig : Config where
  catalogue := [("grasp", [])]
  oracles := ["held"]
  requirements := []
  records := []
  facts := []
  objects := []
  graph := .null
  seed := 0
  maxReplans := 1
  maxActuations := 4
  segmentRetries := 0

private def afterFault : Event → Bool
  | .faulted _ => true
  | _ => false

/-- The first stage of the first attempt fails; the planner always answers the
same. -/
private def graspWorld (success : Bool) : World where
  plan := fun _ _ => .ok graspPlan
  handle := fun _ _ _ record =>
    if record.any afterFault then .ok { success := true }
    else .ok { success, stages := [⟨"approach", false⟩, ⟨"close", true⟩] }
  cancelled := fun _ => false

private def faultOf : Option (Point × State) → Option Fault
  | some (.answering _ _ fault, _) => some fault
  | _ => none

private def ledgerOf (here : Option (Point × State)) : List String :=
  (here.map (fun at_ => at_.2.doneSpecs.keys)).getD []

private def graspFault (success : Bool) : Option (Point × State) :=
  advance (step graspConfig (graspWorld success)) 3 (.consulting, {})

private theorem reachable_graspFault {success : Bool} {fault : Fault}
    (faulted : faultOf (graspFault success) = some fault) :
    ∃ plan executed state,
      Reachable graspConfig (graspWorld success) (.answering plan executed fault, state) ∧
        graspFault success = some (.answering plan executed fault, state) := by
  unfold faultOf at faulted
  split at faulted
  · rename_i plan executed other state arrived
    cases faulted
    exact ⟨plan, executed, state, reaches_of_advance arrived, arrived⟩
  · cases faulted

private def successAfter : Option Final → Option Nat
  | some (.finished true state) => some state.actuations
  | _ => none

/-- A dispatch that comes back with success and a failed stage is named by the
fault, by its `nodes_done` and by the ledger, and the run succeeds without
another dispatch. -/
theorem finished_of_disagreement :
    ∃ plan executed fault state node,
      Reachable graspConfig (graspWorld true) (.answering plan executed fault, state) ∧
      fault.kind = .nodeFailure ∧ fault.node = some node ∧
      node ∈ fault.nodesDone.getD [] ∧ node ∈ state.doneSpecs.keys ∧
      successAfter (run graspConfig (graspWorld true) 20) = some 1 := by
  have faults : (faultOf (graspFault true)).any (fun fault =>
      decide (fault.kind = .nodeFailure ∧ fault.node = some "grasp" ∧
        "grasp" ∈ fault.nodesDone.getD [])) = true := by
    decide +kernel
  have ledger : "grasp" ∈ ledgerOf (graspFault true) := by
    decide +kernel
  rw [Option.any_eq_true] at faults
  obtain ⟨fault, faulted, facts⟩ := faults
  obtain ⟨failure, named, listed⟩ := of_decide_eq_true facts
  obtain ⟨plan, executed, state, reached, arrived⟩ := reachable_graspFault faulted
  rw [arrived] at ledger
  exact ⟨plan, executed, fault, state, "grasp", reached, failure, named, listed, ledger,
    by decide +kernel⟩

private def opensFault : List Event → Option Fault
  | .faulted fault :: _ => some fault
  | _ => none

private def opensLastAccepted : List Event → Option Json
  | .accepted plan _ _ :: later => if later.any Event.isAccepted then none else some plan
  | _ => none

private theorem lastAccepted_of_drop {record : List Event} {n : Nat} {plan : Json}
    (opens : opensLastAccepted (record.drop n) = some plan) : LastAccepted plan record := by
  unfold opensLastAccepted at opens
  split at opens
  · rename_i other retry fault later found
    split at opens
    · cases opens
    · rename_i none_
      cases opens
      refine ⟨record.take n, retry, fault, later, ?_, fun event mem => ?_⟩
      · rw [← found, List.take_append_drop]
      · exact Bool.eq_false_iff.mpr (fun accepted =>
          none_ (List.any_eq_true.mpr ⟨event, mem, accepted⟩))
  · cases opens

private def traceOf (final : Option Final) : List Event :=
  (final.map (fun last => last.state.trace)).getD []

private def succeeded : Option Final → Option State
  | some (.finished true state) => some state
  | _ => none

/-- A dispatch that fails is left out, and the run that succeeds dispatches the
node again. -/
theorem unfinished_of_fault_grasp :
    (∃ plan executed fault state node,
      Reachable graspConfig (graspWorld false) (.answering plan executed fault, state) ∧
      fault.node = some node ∧ node ∉ fault.nodesDone.getD [] ∧ node ∉ state.doneSpecs.keys) ∧
    (∃ state first fault rest, run graspConfig (graspWorld false) 20 = some (.finished true state) ∧
      state.trace = first ++ .faulted fault :: rest ∧ DispatchedIn rest "grasp") := by
  obtain ⟨atFault, later⟩ := unfinished_of_fault graspConfig (graspWorld false)
  constructor
  · have faults : (faultOf (graspFault false)).any (fun fault =>
        decide (fault.kind = .nodeFailure ∧ fault.node = some "grasp")) = true := by
      decide +kernel
    have agrees : (graspFault false).any (fun here =>
        endsInDisagreement here.2.trace) = false := by
      decide +kernel
    rw [Option.any_eq_true] at faults
    obtain ⟨fault, faulted, facts⟩ := faults
    obtain ⟨failure, named⟩ := of_decide_eq_true facts
    obtain ⟨plan, executed, state, reached, arrived⟩ := reachable_graspFault faulted
    rw [arrived] at agrees
    obtain ⟨unlisted, undone⟩ :=
      (atFault plan executed fault state "grasp" reached failure named).mpr agrees
    exact ⟨plan, executed, fault, state, "grasp", reached, named, unlisted, undone⟩
  · have ends : (succeeded (run graspConfig (graspWorld false) 20)).isSome = true := by
      decide +kernel
    have faults : (opensFault ((traceOf (run graspConfig (graspWorld false) 20)).drop 4)).any
        (fun fault => decide (fault.kind = .nodeFailure ∧ fault.node = some "grasp")) = true := by
      decide +kernel
    have agrees : endsInDisagreement
        ((traceOf (run graspConfig (graspWorld false) 20)).take 4) = false := by
      decide +kernel
    have last : (opensLastAccepted ((traceOf (run graspConfig (graspWorld false) 20)).drop 6)).any
        (fun plan => decide ("grasp" ∈ (planNodes plan).map PlanNode.id)) = true := by
      decide +kernel
    obtain ⟨state, success⟩ := Option.isSome_iff_exists.mp ends
    unfold succeeded at success
    split at success
    · rename_i state' ran
      cases success
      rw [ran] at faults agrees last
      simp only [traceOf, Option.map_some, Option.getD_some, Final.state] at faults agrees last
      rw [Option.any_eq_true] at faults last
      obtain ⟨fault, opens, facts⟩ := faults
      obtain ⟨failure, named⟩ := of_decide_eq_true facts
      obtain ⟨plan, accepted, member⟩ := last
      unfold opensFault at opens
      split at opens
      · rename_i other rest found
        cases opens
        have split : state.trace = state.trace.take 4 ++ .faulted fault :: rest := by
          rw [← found, List.take_append_drop]
        exact ⟨state, _, fault, rest, ran, split,
          (later 20 state _ fault rest "grasp" plan ran split failure named
            (lastAccepted_of_drop accepted) (of_decide_eq_true member)).mpr agrees⟩
      · cases opens
    · cases success

end Example

end Task
end PhysicalHarness
