import PhysicalHarness.Task.Reading
import PhysicalHarness.Task.Workload

namespace PhysicalHarness
namespace Task

open Python Protocol Loop

/-!
# What one step can do

Each step of the loop is a case distinction.  The relations below list the cases
once, with the guard of each and the state it leaves; every invariant of the
loop is then proved by cases on them.
-/

section

variable (state : State) (event : Event)

@[simp] theorem State.log_trace : (state.log event).trace = state.trace ++ [event] := rfl

/-- The state after a dispatch that was due: polled, billed and logged. -/
def State.sent (plan : Json) (node : PlanNode) (outcome : Outcome) : State :=
  (state.log (.polled false)).bill.log (.dispatched plan node outcome)

variable (plan : Json) (node : PlanNode) (outcome : Outcome)

@[simp] theorem State.sent_trace : (state.sent plan node outcome).trace =
    state.trace ++ [.polled false] ++ [.dispatched plan node outcome] := rfl
@[simp] theorem State.sent_nodesOut : (state.sent plan node outcome).nodesOut = state.nodesOut :=
  rfl
@[simp] theorem State.sent_actuations :
    (state.sent plan node outcome).actuations = state.actuations + 1 := rfl
@[simp] theorem State.sent_replans : (state.sent plan node outcome).replans = state.replans := rfl

end

/-- The state after a handler returned. -/
def State.returned (state : State) (plan : Json) (node : PlanNode) (kind : NodeKind)
    (result : Result) : State :=
  (state.sent plan node (.returned result)).record plan node kind result

section

variable (state : State) (plan : Json) (node : PlanNode) (kind : NodeKind) (result : Result)

@[simp] theorem State.returned_trace : (state.returned plan node kind result).trace =
    state.trace ++ [.polled false] ++ [.dispatched plan node (.returned result)] := rfl

end

variable [Host]

/-! ## The cases -/

inductive Proposed (config : Config) (world : World) (state : State) :
    Turn (Point × State) Final → Prop
  | again (plan : Json) (pending : state.retryPlan = some plan) :
      Proposed config world state
        (.again (.judging true plan, { state with plan, retryPlan := none }))
  | asked (plan : Json) (idle : state.retryPlan = none) (replied : reply config world state = .ok plan) :
      Proposed config world state
        (.again (.judging false plan,
          { state.log (.consulted (state.brief config) (.ok plan)) with plan }))
  | crashed (error : PyError) (idle : state.retryPlan = none)
      (replied : reply config world state = .error error) :
      Proposed config world state
        (.stop (.crashed error (state.log (.consulted (state.brief config) (.error error)))))

omit [Host] in
theorem proposed (config : Config) (world : World) (state : State) :
    Proposed config world state (propose config world state) := by
  unfold propose
  cases pending : state.retryPlan with
  | some plan => exact Proposed.again plan pending
  | none =>
      dsimp only
      cases replied : reply config world state with
      | ok plan => exact Proposed.asked plan pending replied
      | error error => exact Proposed.crashed error pending replied

/-- A proposal is accepted, refused or beyond the gate. -/
inductive Settled (config : Config) (retry : Bool) (plan : Json) (state : State) :
    Turn (Point × State) Final → Prop
  | accepted (verdict : judge config state retry plan = .ok .accept) :
      Settled config retry plan state
        (.again (.running plan (planNodes plan),
          { state with prevPlan := some plan }.log (.accepted plan retry state.fault)))
  | invalid (msg : String) (verdict : judge config state retry plan = .ok (.invalid msg)) :
      Settled config retry plan state
        (.again (.answering plan false { kind := .invalidPlan, msg },
          state.log (.refused plan .invalidPlan msg)))
  | noProgress (msg : String) (verdict : judge config state retry plan = .ok (.noProgress msg)) :
      Settled config retry plan state
        (.again (.answering plan false (noProgressFault state plan msg),
          state.log (.refused plan .noProgress msg)))
  | crashed (error : PyError) (verdict : judge config state retry plan = .error error) :
      Settled config retry plan state (.stop (.crashed error state))

theorem settled (config : Config) (retry : Bool) (plan : Json) (state : State) :
    Settled config retry plan state (settle config retry plan state) := by
  unfold settle
  cases verdict : judge config state retry plan with
  | error error => exact Settled.crashed error verdict
  | ok decision =>
      cases decision with
      | accept => exact Settled.accepted verdict
      | invalid msg => exact Settled.invalid msg verdict
      | noProgress msg => exact Settled.noProgress msg verdict

/-- A node is cancelled, skipped, out of budget or dispatched; a dispatch raises,
comes back faulty or passes. -/
inductive Visited (config : Config) (world : World) (plan : Json) (node : PlanNode)
    (rest : List PlanNode) (state : State) : Turn (Point × State) Final → Prop
  | cancelled (fired : world.cancelled state.trace = true) :
      Visited config world plan node rest state
        (breakWith plan (state.log (.polled true)) (cancelFault node))
  | skipped (finished : state.finished node.id = true) :
      Visited config world plan node rest state
        (.again (.running plan rest, state.log (.polled false)))
  | exhausted (due : state.finished node.id = false)
      (spent : config.maxActuations ≤ state.actuations) :
      Visited config world plan node rest state
        (breakWith plan (state.log (.polled false)) (budgetFault config node))
  | unknown (due : state.finished node.id = false)
      (affordable : (state.actuations : Int) < config.maxActuations)
      (kindless : NodeKind.ofJson node.kind = none) :
      Visited config world plan node rest state
        (.stop (.crashed .keyError (state.log (.polled false)).bill))
  | refused (text : String) (due : state.finished node.id = false)
      (affordable : (state.actuations : Int) < config.maxActuations) :
      Visited config world plan node rest state
        (breakWith plan (state.sent plan node (.raised (.valueError text)))
          (refusalFault node text))
  | crashed (error : PyError) (due : state.finished node.id = false)
      (affordable : (state.actuations : Int) < config.maxActuations)
      (kind : NodeKind) (view : NodeView) (record : List Event)
      (called : world.handle kind node view record = .error error)
      (other : ∀ text, error ≠ .valueError text) :
      Visited config world plan node rest state
        (.stop (.crashed error (state.sent plan node (.raised error))))
  | faulted (kind : NodeKind) (result : Result) (due : state.finished node.id = false)
      (affordable : (state.actuations : Int) < config.maxActuations)
      (fault : faulty plan node result = true) :
      Visited config world plan node rest state
        (breakWith plan (state.returned plan node kind result) (failureFault plan node result))
  | passed (kind : NodeKind) (result : Result) (due : state.finished node.id = false)
      (affordable : (state.actuations : Int) < config.maxActuations)
      (clean : faulty plan node result = false) :
      Visited config world plan node rest state
        (.again (.running plan rest, state.returned plan node kind result))

theorem visited (config : Config) (world : World) (plan : Json) (node : PlanNode)
    (rest : List PlanNode) (state : State) :
    Visited config world plan node rest state (visit config world plan node rest state) := by
  unfold visit
  dsimp only
  cases fired : world.cancelled state.trace with
  | true => exact Visited.cancelled fired
  | false =>
      rw [if_neg Bool.false_ne_true]
      by_cases finished : state.finished node.id = true
      · rw [if_pos (show (state.log (.polled false)).finished node.id = true from finished)]
        exact Visited.skipped finished
      have due : state.finished node.id = false := Bool.eq_false_iff.mpr finished
      rw [if_neg (show ¬ (state.log (.polled false)).finished node.id = true from finished)]
      by_cases spent : config.maxActuations ≤ state.actuations
      · rw [if_pos (show config.maxActuations ≤ (state.log (.polled false)).actuations from spent)]
        exact Visited.exhausted due spent
      have affordable := Int.not_le.mp spent
      rw [if_neg (show ¬ config.maxActuations ≤ (state.log (.polled false)).actuations from spent)]
      unfold dispatch
      dsimp only
      cases kindless : NodeKind.ofJson node.kind with
      | none => exact Visited.unknown due affordable kindless
      | some kind =>
          dsimp only
          cases called : world.handle kind node (viewFor node (state.log (.polled false)).bill)
              (state.log (.polled false)).bill.trace with
          | error error =>
              cases error with
              | valueError text => exact Visited.refused text due affordable
              | _ =>
                  exact Visited.crashed _ due affordable kind _ _ called
                    nofun
          | ok result =>
              dsimp only
              cases fault : faulty plan node result with
              | true => exact Visited.faulted kind result due affordable fault
              | false => exact Visited.passed kind result due affordable fault

/-- A fault ends the run, is retried on the same graph or goes to the planner. -/
inductive Answered (config : Config) (state : State) (plan : Json) (executed : Bool)
    (fault : Fault) : Turn (Point × State) Final → Prop
  | terminal (ends : terminal state fault = true) :
      Answered config state plan executed fault
        (.stop (.finished false (state.enter plan executed fault)))
  | crashed (error : PyError) (goes : terminal state fault = false)
      (scanned : failedSpec plan fault.node = .error error) :
      Answered config state plan executed fault
        (.stop (.crashed error (state.enter plan executed fault)))
  | retried (spec : Option Json) (goes : terminal state fault = false)
      (scanned : failedSpec plan fault.node = .ok spec)
      (retries : retries config state fault spec = true) :
      Answered config state plan executed fault
        (.again (.consulting, (state.enter plan executed fault).retry plan fault))
  | exhausted (spec : Option Json) (goes : terminal state fault = false)
      (scanned : failedSpec plan fault.node = .ok spec)
      (spent : config.maxReplans ≤ state.replans) :
      Answered config state plan executed fault
        (.stop (.finished false (state.enter plan executed fault)))
  | replanned (spec : Option Json) (goes : terminal state fault = false)
      (scanned : failedSpec plan fault.node = .ok spec)
      (stays : retries config state fault spec = false)
      (affordable : (state.replans : Int) < config.maxReplans) :
      Answered config state plan executed fault
        (.again (.consulting, (state.enter plan executed fault).replan fault))

theorem answered (config : Config) (state : State) (plan : Json) (executed : Bool)
    (fault : Fault) :
    Answered config state plan executed fault (answer config state plan executed fault) := by
  unfold answer
  dsimp only
  cases ends : terminal state fault with
  | true =>
      rw [if_pos (show terminal (state.enter plan executed fault) fault = true from ends)]
      exact Answered.terminal ends
  | false =>
      have goes : ¬ terminal (state.enter plan executed fault) fault = true :=
        fun never => by
          rw [show terminal (state.enter plan executed fault) fault = terminal state fault from rfl,
            ends] at never
          cases never
      rw [if_neg goes]
      cases scanned : failedSpec plan fault.node with
      | error error => exact Answered.crashed error ends scanned
      | ok spec =>
          dsimp only
          cases again : retries config state fault spec with
          | true =>
              rw [if_pos (show retries config (state.enter plan executed fault) fault spec = true
                from again)]
              exact Answered.retried spec ends scanned again
          | false =>
              have stays : ¬ retries config (state.enter plan executed fault) fault spec = true :=
                fun never => by
                  rw [show retries config (state.enter plan executed fault) fault spec =
                    retries config state fault spec from rfl, again] at never
                  cases never
              rw [if_neg stays]
              by_cases spent : config.maxReplans ≤ state.replans
              · rw [if_pos (show config.maxReplans ≤ (state.enter plan executed fault).replans
                  from spent)]
                exact Answered.exhausted spec ends scanned spent
              · rw [if_neg (show ¬ config.maxReplans ≤ (state.enter plan executed fault).replans
                  from spent)]
                exact Answered.replanned spec ends scanned again (Int.not_le.mp spent)

def Extends (state : State) : Turn (Point × State) Final → Prop
  | .again next => ∃ events, next.2.trace = state.trace ++ events
  | .stop _ => True

theorem extends_step (config : Config) (world : World) (here : Point × State) :
    Extends here.2 (step config world here) := by
  obtain ⟨point, state⟩ := here
  cases point with
  | consulting =>
      have taken := proposed config world state
      change Extends state (propose config world state)
      generalize propose config world state = next at taken ⊢
      cases taken with
      | again plan pending => exact ⟨[], (List.append_nil _).symm⟩
      | asked plan idle replied => exact ⟨[_], rfl⟩
      | crashed error idle replied => trivial
  | judging retry plan =>
      have taken := settled config retry plan state
      change Extends state (settle config retry plan state)
      generalize settle config retry plan state = next at taken ⊢
      cases taken with
      | crashed error verdict => trivial
      | _ => exact ⟨[_], rfl⟩
  | running plan rest =>
      cases rest with
      | nil => trivial
      | cons node rest =>
          have taken := visited config world plan node rest state
          change Extends state (visit config world plan node rest state)
          generalize visit config world plan node rest state = next at taken ⊢
          cases taken with
          | unknown due affordable kindless => trivial
          | refused text due affordable => exact ⟨_, List.append_assoc _ _ _⟩
          | crashed error due affordable kind view record called other => trivial
          | faulted kind result due affordable fault =>
              exact ⟨_, List.append_assoc _ _ _⟩
          | passed kind result due affordable clean =>
              exact ⟨_, List.append_assoc _ _ _⟩
          | _ => exact ⟨[_], rfl⟩
  | answering plan executed fault =>
      have taken := answered config state plan executed fault
      change Extends state (answer config state plan executed fault)
      generalize answer config state plan executed fault = next at taken ⊢
      cases taken with
      | retried spec goes scanned retries => exact ⟨[_], rfl⟩
      | replanned spec goes scanned stays affordable => exact ⟨[_], rfl⟩
      | _ => trivial

def Recounts (allowed : List Event → Event → Prop) : Turn (Point × State) Final → Prop
  | .again next => Always allowed next.2.trace
  | .stop last => Always allowed last.state.trace

theorem always_of_recordOf {config : Config} {world : World}
    {allowed : List Event → Event → Prop}
    (closing : ∀ past success, allowed past (.planComplete success))
    (kept : ∀ here, Reachable config world here → Always allowed here.2.trace →
      Recounts allowed (step config world here)) {record : List Event}
    (recorded : RecordOf config world record) : Always allowed record := by
  have throughout : ∀ here, Reachable config world here → Always allowed here.2.trace := by
    intro here reached
    induction reached with
    | start => exact always_nil _
    | again way stepped ih =>
        have recounts : Recounts allowed (step config world _) := kept _ way ih
        rw [stepped] at recounts
        exact recounts
  cases recorded with
  | underway reached => exact throughout _ reached
  | ended ran =>
      obtain ⟨here, last, reached, stops, same⟩ := exists_last_of_run ran
      have recounts : Recounts allowed (step config world here) :=
        kept here reached (throughout here reached)
      rw [stops] at recounts
      subst same
      cases last with
      | finished success state => exact Always.snoc recounts (closing _ success)
      | crashed error state => exact recounts

/-- An event that is neither a consultation, nor an acceptance, nor a dispatch. -/
def Event.isQuiet : Event → Bool
  | .consulted _ _ | .accepted _ _ _ | .dispatched _ _ _ => false
  | _ => true

section

variable {config : Config} {world : World} {allowed : List Event → Event → Prop}

/-- What every event of a record satisfies, from what the three events of the loop do. -/
theorem recounts_of_events
    (quiet : ∀ past event, event.isQuiet = true → allowed past event)
    (consulted : ∀ state, Reachable config world (.consulting, state) → state.retryPlan = none →
      ∀ replied, allowed state.trace (.consulted (state.brief config) replied))
    (accepted : ∀ retry plan state, Reachable config world (.judging retry plan, state) →
      judge config state retry plan = .ok .accept →
        allowed state.trace (.accepted plan retry state.fault))
    (dispatched : ∀ plan node rest state, Reachable config world (.running plan (node :: rest), state) →
      world.cancelled state.trace = false → state.finished node.id = false →
      (state.actuations : Int) < config.maxActuations → ∀ outcome,
        allowed (state.trace ++ [.polled false]) (.dispatched plan node outcome))
    {here : Point × State} (reached : Reachable config world here)
    (always : Always allowed here.2.trace) : Recounts allowed (step config world here) := by
  have silent : ∀ event, event.isQuiet = true → Always allowed (here.2.trace ++ [event]) :=
    fun event other => always.snoc (quiet _ _ other)
  obtain ⟨point, state⟩ := here
  cases point with
  | consulting =>
      have taken := proposed config world state
      change Recounts allowed (propose config world state)
      generalize propose config world state = next at taken ⊢
      cases taken with
      | again plan pending => exact always
      | asked plan idle replied => exact always.snoc (consulted state reached idle _)
      | crashed error idle replied => exact always.snoc (consulted state reached idle _)
  | judging retry plan =>
      have taken := settled config retry plan state
      change Recounts allowed (settle config retry plan state)
      generalize settle config retry plan state = next at taken ⊢
      cases taken with
      | accepted verdict => exact always.snoc (accepted retry plan state reached verdict)
      | invalid msg verdict => exact silent _ rfl
      | noProgress msg verdict => exact silent _ rfl
      | crashed error verdict => exact always
  | running plan rest =>
      cases rest with
      | nil => exact always
      | cons node rest =>
          have polled : ∀ fired, Always allowed (state.trace ++ [.polled fired]) :=
            fun fired => silent _ rfl
          change Recounts allowed (visit config world plan node rest state)
          cases fired : world.cancelled state.trace with
          | true =>
              unfold visit
              rw [fired]
              exact polled true
          | false =>
              have sent : state.finished node.id = false →
                  (state.actuations : Int) < config.maxActuations → ∀ outcome,
                  Always allowed (state.trace ++ [.polled false] ++ [.dispatched plan node outcome]) :=
                fun due affordable outcome => (polled false).snoc
                  (dispatched plan node rest state reached fired due affordable outcome)
              have taken := visited config world plan node rest state
              generalize visit config world plan node rest state = next at taken ⊢
              cases taken with
              | cancelled fired_ => exact polled true
              | refused text due affordable => exact sent due affordable _
              | crashed error due affordable kind view record called other =>
                  exact sent due affordable _
              | faulted kind result due affordable fault => exact sent due affordable _
              | passed kind result due affordable clean => exact sent due affordable _
              | _ => exact polled false
  | answering plan executed fault =>
      have faulted : Always allowed (state.enter plan executed fault).trace := silent (.faulted fault) rfl
      have taken := answered config state plan executed fault
      change Recounts allowed (answer config state plan executed fault)
      generalize answer config state plan executed fault = next at taken ⊢
      cases taken with
      | _ => exact faulted

theorem always_of_events
    (quiet : ∀ past event, event.isQuiet = true → allowed past event)
    (consulted : ∀ state, Reachable config world (.consulting, state) → state.retryPlan = none →
      ∀ replied, allowed state.trace (.consulted (state.brief config) replied))
    (accepted : ∀ retry plan state, Reachable config world (.judging retry plan, state) →
      judge config state retry plan = .ok .accept →
        allowed state.trace (.accepted plan retry state.fault))
    (dispatched : ∀ plan node rest state, Reachable config world (.running plan (node :: rest), state) →
      world.cancelled state.trace = false → state.finished node.id = false →
      (state.actuations : Int) < config.maxActuations → ∀ outcome,
        allowed (state.trace ++ [.polled false]) (.dispatched plan node outcome))
    {record : List Event} (recorded : RecordOf config world record) : Always allowed record :=
  always_of_recordOf (fun _ _ => quiet _ _ rfl)
    (fun _ reached always => recounts_of_events quiet consulted accepted dispatched reached always) recorded

end

theorem accepted_of_judge {config : Config} {state : State} {retry : Bool} {plan : Json}
    (verdict : judge config state retry plan = .ok .accept) :
    Accepted plan config.catalogue config.oracles (state.doneSpecs.entries.map Prod.snd)
      config.requirements ∧
    graphProblems config plan state.prevPlan state.doneSpecs.keys = .ok [] := by
  unfold judge at verdict
  obtain ⟨⟨ok, msg⟩, validated, verdict⟩ := Fallible.of_bind verdict
  cases ok with
  | false => cases verdict
  | true =>
      obtain ⟨problems, found, verdict⟩ := Fallible.of_bind verdict
      by_cases clean : problems = []
      · subst clean
        obtain ⟨accepted, _⟩ := validatePlan_accepts_iff.mp validated
        exact ⟨accepted, found⟩
      · simp [clean] at verdict

end Task
end PhysicalHarness
