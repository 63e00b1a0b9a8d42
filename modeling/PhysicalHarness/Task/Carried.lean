import PhysicalHarness.Task.Effort
import PhysicalHarness.Task.Faults
import PhysicalHarness.Task.Recovery

namespace PhysicalHarness
namespace Task

open Python Protocol Loop

/-!
# What a brief carries

A fault that goes to the planner carries the finished nodes and the strategies
of the finished recoveries when it was raised among the nodes of a plan, and
when it was copied from such a fault; the fault of a plan that was refused as
invalid carries neither.
-/

/-- The finished recoveries: the repaired node and the strategy that ran. -/
def recoveriesOf (record : List Event) : List (String × Json) :=
  (finishedWork record).filterMap (fun done =>
    (recovered done.2.id).map (fun node => (node, done.2.skill)))

/-- The fault has the finished work of the record. -/
def Carries (record : List Event) (fault : Fault) : Prop :=
  (∃ ids, fault.nodesDone = some ids ∧ ids.Perm (successes record)) ∧
    ∃ ran, fault.recoveriesDone = some ran ∧ ran.Perm (recoveriesOf record)

/-- A brief without a fault is the first; the fault of a later one has the
finished work unless it refuses a plan as invalid. -/
def Briefed (past : List Event) : Event → Prop
  | .consulted brief _ =>
      (brief.fault = none → past = []) ∧
        ∀ fault, brief.fault = some fault → (Carries past fault ↔ fault.kind ≠ .invalidPlan)
  | _ => True

/-! ## What the state says -/

/-- The fault has the finished work of the state unless it refuses a plan as
invalid. -/
structure Attached (state : State) (fault : Fault) : Prop where
  bare : fault.kind = .invalidPlan → fault.nodesDone = none ∧ fault.node = none
  full : fault.kind ≠ .invalidPlan →
    fault.nodesDone = some state.nodesDone ∧ fault.recoveriesDone = some state.recoveries

/-- The fault in the brief is up to date wherever the planner is asked or its
answer judged. -/
def Current : Point × State → Prop
  | (.consulting, state) => state.retryPlan = none →
      (state.fault = none → state.trace = []) ∧
        ∀ fault, state.fault = some fault → Attached state fault
  | (.judging retry _, state) => retry = false →
      ∀ fault, state.fault = some fault → Attached state fault
  | (.answering _ _ fault, state) => Attached state fault
  | _ => True

def Keeping : Turn (Point × State) Final → Prop
  | .again next => Current next
  | .stop _ => True

theorem Attached.congr {state other : State} {fault : Fault} (attached : Attached state fault)
    (rows : other.nodesOut = state.nodesOut) (specs : other.doneSpecs = state.doneSpecs) :
    Attached other fault := by
  refine ⟨attached.bare, fun kind => ?_⟩
  rw [State.nodesDone, State.recoveries, State.nodesDone, rows, specs]
  exact attached.full kind

section

variable [Host] {config : Config} {world : World} {plan : Json} {state : State}
  {next : Turn (Point × State) Final}

omit [Host] in
theorem attached_attachDone {fault : Fault} (kind : fault.kind ≠ .invalidPlan) :
    Attached state (attachDone plan state fault) :=
  ⟨fun never => absurd never kind, fun _ => ⟨rfl, rfl⟩⟩

theorem fault_of_noProgress {retry : Bool} {msg : String}
    (verdict : judge config state retry plan = .ok (.noProgress msg)) :
    retry = false ∧ ∃ fault, state.fault = some fault ∧ fault.node ≠ none := by
  unfold judge at verdict
  obtain ⟨⟨ok, text⟩, _, verdict⟩ := Fallible.of_bind verdict
  cases ok with
  | false => cases verdict
  | true =>
      obtain ⟨problems, _, verdict⟩ := Fallible.of_bind verdict
      by_cases clean : problems = []
      · by_cases due : state.replans ≠ 0 ∧ retry = false
        · refine ⟨due.2, ?_⟩
          cases held : state.fault with
          | none => simp [clean, due, held, replanProgress] at verdict
          | some fault =>
              refine ⟨fault, rfl, fun unnamed => ?_⟩
              simp [clean, due, held, unnamed, replanProgress] at verdict
        · simp [clean, due] at verdict
      · simp [clean] at verdict

omit [Host] in
theorem keeping_of_proposed (current : Current (.consulting, state))
    (taken : Proposed config world state next) : Keeping next := by
  cases taken with
  | again plan pending => exact fun never => by cases never
  | asked plan idle replied =>
      exact fun _ fault held => ((current idle).2 fault held).congr rfl rfl
  | crashed error idle replied => trivial

theorem keeping_of_settled {retry : Bool} (current : Current (.judging retry plan, state))
    (taken : Settled config retry plan state next) : Keeping next := by
  cases taken with
  | accepted verdict => trivial
  | invalid msg verdict => exact ⟨fun _ => ⟨rfl, rfl⟩, fun kind => absurd rfl kind⟩
  | noProgress msg verdict =>
      obtain ⟨fresh, fault, held, named⟩ := fault_of_noProgress verdict
      have attached := current fresh fault held
      have copied : noProgressFault state plan msg = { fault with
          kind := .noProgress, msg, signature := some fault.key,
          graphSha := some (graphSha plan) } := by
        rw [noProgressFault, held]
      have full := attached.full (fun invalid => named (attached.bare invalid).2)
      show Attached (state.log _) (noProgressFault state plan msg)
      rw [copied]
      exact ⟨fun never => (by cases never), fun _ => full⟩
  | crashed error verdict => trivial

theorem keeping_of_visited {node : PlanNode} {rest : List PlanNode}
    (taken : Visited config world plan node rest state next) : Keeping next := by
  cases taken with
  | cancelled fired => exact attached_attachDone (fun never => by cases never)
  | exhausted due spent => exact attached_attachDone (fun never => by cases never)
  | refused text due affordable =>
      exact attached_attachDone (fun never => by cases never)
  | faulted kind result due affordable fault =>
      exact attached_attachDone (fun never => by cases never)
  | _ => trivial

theorem keeping_of_answered {executed : Bool} {fault : Fault} (attached : Attached state fault)
    (taken : Answered config state plan executed fault next) : Keeping next := by
  cases taken with
  | retried spec goes scanned retries => exact fun never => by cases never
  | replanned spec goes scanned stays affordable =>
      intro _
      refine ⟨fun never => (by cases never), fun other held => ?_⟩
      cases held
      exact attached.congr rfl rfl
  | _ => trivial

theorem keeping_step {here : Point × State} (current : Current here) :
    Keeping (step config world here) := by
  obtain ⟨point, state⟩ := here
  cases point with
  | consulting => exact keeping_of_proposed current (proposed config world state)
  | judging retry plan => exact keeping_of_settled current (settled config retry plan state)
  | running plan rest =>
      cases rest with
      | nil => trivial
      | cons node rest => exact keeping_of_visited (visited config world plan node rest state)
  | answering plan executed fault =>
      exact keeping_of_answered current (answered config state plan executed fault)

theorem current_of_reachable {here : Point × State} (reached : Reachable config world here) :
    Current here :=
  Reaches.invariant reached (fun _ => ⟨fun _ => rfl, fun _ never => by cases never⟩)
    (fun before after (_ : Reachable config world before) current stepped => by
      have keeping : Keeping (step config world before) := keeping_step current
      rw [stepped] at keeping
      exact keeping)

omit [Host] in
theorem Books.nodesDone_perm (books : Books state) :
    state.nodesDone.Perm (successes state.trace) := by
  have distinct : state.nodesDone.Nodup :=
    state.nodesOut.nodup_keys.sublist (List.filter_sublist.map _)
  refine (List.perm_ext_iff_of_nodup distinct books.distinct).mpr (fun id => ?_)
  rw [State.mem_nodesDone, books.rows]

omit [Host] in
theorem Books.doneSpec_skill (books : Books state) {done : Json × PlanNode}
    (mem : done ∈ finishedWork state.trace) :
    ((state.doneSpecs.get? done.2.id).getD (.obj [])).getD "skill" .null = done.2.skill := by
  have listed : (done.2.id, doneSpec done.1 done.2) ∈ state.doneSpecs.entries := by
    rw [books.specs]
    exact List.mem_map_of_mem mem
  rw [(state.doneSpecs.mem_entries_iff _ _).mp listed, Option.getD_some, Json.getD, get?_doneSpec]
  obtain ⟨reads, exact_⟩ := books.reads done mem
  have skill := reads.skill
  rw [exact_] at skill
  simp [skill]

omit [Host] in
theorem Books.recoveries_perm (books : Books state) :
    state.recoveries.Perm (recoveriesOf state.trace) := by
  have listed := books.nodesDone_perm.filterMap (fun id => (recovered id).map (fun node =>
    (node, ((state.doneSpecs.get? id).getD (.obj [])).getD "skill" .null)))
  have same : (successes state.trace).filterMap (fun id => (recovered id).map (fun node =>
      (node, ((state.doneSpecs.get? id).getD (.obj [])).getD "skill" .null))) =
        recoveriesOf state.trace := by
    rw [successes, List.filterMap_map, recoveriesOf]
    refine List.filterMap_congr (fun done mem => ?_)
    rw [Function.comp_apply, books.doneSpec_skill mem]
  exact same ▸ listed

omit [Host] in
theorem Attached.carries_iff {fault : Fault} (attached : Attached state fault)
    (books : Books state) : Carries state.trace fault ↔ fault.kind ≠ .invalidPlan := by
  constructor
  · rintro ⟨⟨ids, held, _⟩, _⟩ invalid
    rw [(attached.bare invalid).1] at held
    cases held
  · intro kind
    obtain ⟨nodes, recoveries⟩ := attached.full kind
    exact ⟨⟨_, nodes, books.nodesDone_perm⟩, _, recoveries, books.recoveries_perm⟩

theorem briefed_of_recordOf {record : List Event} (recorded : RecordOf config world record) :
    Always Briefed record := by
  refine always_of_events ?_ ?_ (fun _ _ _ _ _ => trivial) (fun _ _ _ _ _ _ _ _ _ => trivial) recorded
  · intro past event quiet
    cases event with
    | consulted brief reply => cases quiet
    | _ => trivial
  · intro state reached idle replied
    obtain ⟨first, attached⟩ := current_of_reachable reached idle
    exact ⟨first, fun fault held =>
      (attached fault held).carries_iff (holds_of_reachable reached).books⟩

end

end Task
end PhysicalHarness
