import Mathlib.Data.Prod.Lex
import PhysicalHarness.Task.Steps

namespace PhysicalHarness
namespace Task

open Python Protocol Loop Fallible

/-!
# Bounded effort

However the planner and the handlers behave, a run ends, consults the planner at
most once more than it may replan and dispatches at most as many nodes as it may
actuate.  It closes with its one `task.plan_complete` note exactly when every
proposal on the way could be digested: the gates return on it, and when they
refuse it the loop can still scan it for the failed node.
-/

/-! ## Counting events -/

def Event.isConsulted : Event → Bool
  | .consulted _ _ => true
  | _ => false

def Event.isDispatched : Event → Bool
  | .dispatched _ _ _ => true
  | _ => false

def Event.isComplete : Event → Bool
  | .planComplete _ => true
  | _ => false

/-- How often the planner, or the composed graph, was consulted. -/
def consultations (record : List Event) : Nat := record.countP Event.isConsulted

/-- How often a handler was invoked. -/
def dispatches (record : List Event) : Nat := record.countP Event.isDispatched

/-- How many closing notes there are. -/
def completions (record : List Event) : Nat := record.countP Event.isComplete

theorem countP_snoc {α : Type*} (test : α → Bool) (items : List α) (item : α) :
    (items ++ [item]).countP test = items.countP test + if test item then 1 else 0 := by
  rw [List.countP_append, List.countP_singleton]

def ScannableFor (target : Json) (items : List Json) : Prop :=
  ∀ first item rest, items = first ++ item :: rest →
    (∀ earlier ∈ first, (earlier.getD "id" .null).eq target = false) → item.isMapping = true

/-- An object whose `nodes` are iterable, with objects up to the first without
an id. -/
def Scannable (plan : Json) : Prop :=
  plan.isMapping = true ∧
    ∃ items, (plan.getD "nodes" (.arr [])).iter = .ok items ∧ ScannableFor .null items

theorem returns_findFailed_iff (target : Json) (items : List Json) :
    Returns (findFailed target items) ↔ ScannableFor target items := by
  induction items with
  | nil =>
      refine ⟨fun _ first item rest split => ?_, fun _ => ⟨none, rfl⟩⟩
      simp at split
  | cons head tail ih =>
      have step : ScannableFor target (head :: tail) ↔ head.isMapping = true ∧
          ((head.getD "id" .null).eq target = false → ScannableFor target tail) := by
        constructor
        · intro scannable
          refine ⟨scannable [] head tail rfl nofun, ?_⟩
          intro differs first item rest split earlier
          refine scannable (head :: first) item rest (by rw [split]; rfl) ?_
          intro other mem
          rcases List.mem_cons.mp mem with same | later
          · exact same ▸ differs
          · exact earlier other later
        · rintro ⟨here, there⟩ first item rest split earlier
          cases first with
          | nil =>
              cases split
              exact here
          | cons other first =>
              cases split
              exact there (earlier _ (.head _)) first item rest rfl
                (fun old mem => earlier old (.tail _ mem))
      rw [step, ← ih]
      cases head with
      | obj fields =>
          cases found : ((Json.obj fields).getD "id" .null).eq target with
          | true => simp [findFailed, found, Json.isMapping]
          | false => simp [findFailed, found, Json.isMapping]
      | _ => simp [findFailed, Json.isMapping]

theorem returns_failedSpec_none_iff (plan : Json) :
    Returns (failedSpec plan none) ↔ Scannable plan := by
  cases plan with
  | obj fields =>
      rw [failedSpec, returns_bind]
      simp only [Scannable, Json.isMapping, true_and, ← returns_findFailed_iff]
      rfl
  | _ => simp [failedSpec, Scannable, Json.isMapping]

section

variable [Host] {config : Config} {world : World} {plan : Json} {state : State}

theorem returns_failedSpec_of_accepted {catalogue : Catalogue} {oracles : List String}
    {done : List Json} {requirements : List (String × Json)}
    (accepted : Accepted plan catalogue oracles done requirements) (node : Option String) :
    Returns (failedSpec plan node) := by
  obtain ⟨fields, same⟩ : ∃ fields, plan = .obj fields := by
    have nodes := accepted.reads.nodes
    cases plan with
    | obj fields => exact ⟨fields, rfl⟩
    | _ => cases nodes
  subst same
  have listed : (Json.obj fields).getD "nodes" (.arr []) = .arr (nodesOf (.obj fields)) := by
    rw [Json.getD, accepted.reads.nodes, Option.getD_some]
  rw [failedSpec, returns_bind, listed]
  refine ⟨_, rfl, (returns_findFailed_iff _ _).mpr (fun first item rest split _ => ?_)⟩
  have form := (accepted.nodes first item rest split).form
  simp only [nodeForm, Bool.and_eq_true] at form
  exact form.1.1

section

variable (last : Final)

omit [Host]

theorem consultations_close :
    consultations (close last).state.trace = consultations last.state.trace := by
  cases last with
  | finished success state => exact countP_snoc _ _ _
  | crashed error state => rfl

theorem dispatches_close : dispatches (close last).state.trace = dispatches last.state.trace := by
  cases last with
  | finished success state => exact countP_snoc _ _ _
  | crashed error state => rfl

theorem replans_close : (close last).state.replans = last.state.replans := by
  cases last <;> rfl

theorem actuations_close : (close last).state.actuations = last.state.actuations := by
  cases last <;> rfl

end

/-- Both gates return on the proposal, and it is scannable when it is refused by
the first. -/
structure Digestible (config : Config) (state : State) (plan : Json) : Prop where
  gate : Returns (validatePlan plan config.catalogue config.oracles
    (state.doneSpecs.entries.map Prod.snd) config.requirements)
  protocol : ∀ msg, validatePlan plan config.catalogue config.oracles
    (state.doneSpecs.entries.map Prod.snd) config.requirements = .ok (true, msg) →
      Returns (graphProblems config plan state.prevPlan state.doneSpecs.keys)
  scan : ∀ msg, validatePlan plan config.catalogue config.oracles
    (state.doneSpecs.entries.map Prod.snd) config.requirements = .ok (false, msg) → Scannable plan

/-- The planner answers here, with a proposal that can be digested. -/
def Digests (config : Config) (world : World) : Point × State → Prop
  | (.consulting, state) => state.retryPlan = none → Returns (reply config world state)
  | (.judging _ plan, state) => Digestible config state plan
  | _ => True

theorem returns_judge (digestible : Digestible config state plan) (retry : Bool) :
    Returns (judge config state retry plan) := by
  rw [judge, returns_bind]
  obtain ⟨⟨ok, msg⟩, validated⟩ := digestible.gate
  refine ⟨(ok, msg), validated, ?_⟩
  cases ok with
  | false => exact ⟨_, rfl⟩
  | true =>
      obtain ⟨problems, found⟩ := digestible.protocol msg validated
      refine returns_bind.mpr ⟨problems, found, ?_⟩
      by_cases clean : problems = []
      · subst clean
        by_cases due : state.replans ≠ 0 ∧ retry = false
        · cases progress : (replanProgress state.history plan state.fault).1 with
          | true => simp [due, progress]
          | false => simp [due, progress]
        · simp [due]
      · simp [clean]

theorem returns_failedSpec_of_judge {retry : Bool} {verdict : Verdict}
    (digestible : Digestible config state plan)
    (judged : judge config state retry plan = .ok verdict) :
    Returns (failedSpec plan none) ∧ ((∀ msg, verdict ≠ .invalid msg) →
      ∀ node, Returns (failedSpec plan node)) := by
  obtain ⟨⟨ok, msg⟩, validated⟩ := digestible.gate
  cases ok with
  | false =>
      refine ⟨(returns_failedSpec_none_iff plan).mpr (digestible.scan msg validated), ?_⟩
      intro other
      rw [judge, validated] at judged
      cases judged
      exact absurd rfl (other msg)
  | true =>
      have accepted := (validatePlan_accepts_iff.mp validated).1
      exact ⟨returns_failedSpec_of_accepted accepted none,
        fun _ node => returns_failedSpec_of_accepted accepted node⟩

/-- The counters are within their limits and agree with the record. -/
structure Within (config : Config) (state : State) : Prop where
  replans : (state.replans : Int) ≤ config.maxReplans
  actuations : (state.actuations : Int) ≤ config.maxActuations
  asked : consultations state.trace ≤ state.replans + 1
  billed : state.actuations = dispatches state.trace
  underway : completions state.trace = 0

def Dispatchable (nodes : List PlanNode) : Prop :=
  ∀ node ∈ nodes, ∃ kind, NodeKind.ofJson node.kind = some kind

/-- The bounds at each point; a consultation that is due has not been made. -/
def Spent (config : Config) : Point × State → Prop
  | (.consulting, state) => Within config state ∧
      (state.retryPlan = none → consultations state.trace ≤ state.replans)
  | (.running _ rest, state) => Within config state ∧ Dispatchable rest
  | (_, state) => Within config state

/-- What a step within the bounds leaves behind. -/
def Bounded (config : Config) : Turn (Point × State) Final → Prop
  | .again next => Spent config next
  | .stop last => Within config last.state

section

omit [Host]

theorem Within.log (within : Within config state) {event : Event}
    (uncounted : event.isConsulted = false ∧ event.isDispatched = false ∧
      event.isComplete = false) : Within config (state.log event) where
  replans := within.replans
  actuations := within.actuations
  asked := by
    rw [State.log_trace, consultations, countP_snoc, uncounted.1]
    exact within.asked
  billed := by
    rw [State.log_trace, dispatches, countP_snoc, uncounted.2.1]
    exact within.billed
  underway := by
    rw [State.log_trace, completions, countP_snoc, uncounted.2.2]
    exact within.underway

theorem Within.ask (within : Within config state)
    (due : consultations state.trace ≤ state.replans) (brief : Brief)
    (replied : Except PyError Json) : Within config (state.log (.consulted brief replied)) where
  replans := within.replans
  actuations := within.actuations
  asked := by
    rw [State.log_trace, consultations, countP_snoc]
    exact Nat.add_le_add_right due 1
  billed := by
    rw [State.log_trace, dispatches, countP_snoc]
    exact within.billed
  underway := by
    rw [State.log_trace, completions, countP_snoc]
    exact within.underway

theorem Within.sent (within : Within config state)
    (affordable : (state.actuations : Int) < config.maxActuations) (plan : Json) (node : PlanNode)
    (outcome : Outcome) : Within config (state.sent plan node outcome) where
  replans := within.replans
  actuations := by
    rw [State.sent_actuations]
    omega
  asked := by
    rw [State.sent_trace, consultations, countP_snoc, countP_snoc]
    exact within.asked
  billed := by
    rw [State.sent_trace, dispatches, countP_snoc, countP_snoc, State.sent_actuations,
      within.billed]
    rfl
  underway := by
    rw [State.sent_trace, completions, countP_snoc, countP_snoc]
    exact within.underway

end

omit [Host] in
theorem Within.returned (within : Within config state)
    (affordable : (state.actuations : Int) < config.maxActuations) (plan : Json) (node : PlanNode)
    (kind : NodeKind) (result : Result) : Within config (state.returned plan node kind result) := by
  have sent := within.sent affordable plan node (.returned result)
  exact ⟨sent.replans, sent.actuations, sent.asked, sent.billed, sent.underway⟩

theorem Within.enter (within : Within config state) {executed : Bool} {fault : Fault} :
    Within config (state.enter plan executed fault) := by
  have logged : Within config (state.log (.faulted fault)) := within.log ⟨rfl, rfl, rfl⟩
  exact ⟨logged.replans, logged.actuations, logged.asked, logged.billed, logged.underway⟩

section

variable {next : Turn (Point × State) Final}

omit [Host] in
theorem bounded_of_proposed (within : Within config state)
    (due : state.retryPlan = none → consultations state.trace ≤ state.replans)
    (taken : Proposed config world state next) : Bounded config next := by
  cases taken with
  | again plan pending =>
      exact ⟨within.replans, within.actuations, within.asked, within.billed, within.underway⟩
  | asked plan idle replied =>
      have asked := within.ask (due idle) (state.brief config) (.ok plan)
      exact ⟨asked.replans, asked.actuations, asked.asked, asked.billed, asked.underway⟩
  | crashed error idle replied => exact within.ask (due idle) _ _

variable {here before after : Point × State} {rest : List PlanNode} {retry executed : Bool}
  {node : PlanNode}

theorem bounded_of_settled (within : Within config state)
    (taken : Settled config retry plan state next) : Bounded config next := by
  cases taken with
  | accepted verdict =>
      have noted : Within config { state with prevPlan := some plan } :=
        ⟨within.replans, within.actuations, within.asked, within.billed, within.underway⟩
      refine ⟨noted.log ⟨rfl, rfl, rfl⟩, fun node mem => ?_⟩
      obtain ⟨kind, same⟩ := (accepted_of_judge verdict).1.kind_eq mem
      exact ⟨kind, NodeKind.ofJson_eq_some_iff.mpr same⟩
  | invalid msg verdict => exact within.log ⟨rfl, rfl, rfl⟩
  | noProgress msg verdict => exact within.log ⟨rfl, rfl, rfl⟩
  | crashed error verdict => exact within

theorem bounded_of_visited (within : Within config state) (kinds : Dispatchable (node :: rest))
    (taken : Visited config world plan node rest state next) : Bounded config next := by
  have polled : ∀ fired, Within config (state.log (.polled fired)) :=
    fun _ => within.log ⟨rfl, rfl, rfl⟩
  have later : Dispatchable rest := fun other mem => kinds other (.tail _ mem)
  cases taken with
  | cancelled fired => exact polled true
  | skipped finished => exact ⟨polled false, later⟩
  | exhausted due spent => exact polled false
  | unknown due affordable kindless =>
      obtain ⟨kind, known⟩ := kinds node (.head _)
      rw [known] at kindless
      cases kindless
  | refused text due affordable => exact within.sent affordable plan node _
  | crashed error due affordable kind view record called other =>
      exact within.sent affordable plan node _
  | faulted kind result due affordable fault =>
      exact within.returned affordable plan node kind result
  | passed kind result due affordable clean =>
      exact ⟨within.returned affordable plan node kind result, later⟩

theorem bounded_of_answered {fault : Fault} (within : Within config state)
    (taken : Answered config state plan executed fault next) : Bounded config next := by
  have entered : Within config (state.enter plan executed fault) := within.enter
  cases taken with
  | retried spec goes scanned retries =>
      exact ⟨⟨entered.replans, entered.actuations, entered.asked, entered.billed,
        entered.underway⟩, nofun⟩
  | replanned spec goes scanned stays affordable =>
      refine ⟨⟨?_, entered.actuations, Nat.le_succ_of_le entered.asked, entered.billed,
        entered.underway⟩, fun _ => entered.asked⟩
      show ((state.replans + 1 : Nat) : Int) ≤ config.maxReplans
      omega
  | _ => exact entered

theorem bounded_step (spent : Spent config here) :
    Bounded config (step config world here) := by
  obtain ⟨point, state⟩ := here
  cases point with
  | consulting => exact bounded_of_proposed spent.1 spent.2 (proposed config world state)
  | judging retry plan => exact bounded_of_settled spent (settled config retry plan state)
  | running plan rest =>
      cases rest with
      | nil => exact spent.1
      | cons node rest =>
          exact bounded_of_visited spent.1 spent.2 (visited config world plan node rest state)
  | answering plan executed fault =>
      exact bounded_of_answered spent (answered config state plan executed fault)

theorem spent_of_reachable (replans : 0 ≤ config.maxReplans) (actuations : 0 ≤ config.maxActuations)
    (reached : Reachable config world here) : Spent config here :=
  reached.invariant ⟨⟨replans, actuations, Nat.zero_le _, rfl, rfl⟩, fun _ => Nat.zero_le _⟩
    (fun before after _ spent stepped => by
      have bounded : Bounded config (step config world before) := bounded_step spent
      rw [stepped] at bounded
      exact bounded)

omit [Host] in
theorem Spent.within (spent : Spent config here) :
    Within config here.2 := by
  obtain ⟨point, state⟩ := here
  cases point with
  | consulting => exact spent.1
  | judging retry plan => exact spent
  | running plan rest => exact spent.1
  | answering plan executed fault => exact spent

theorem within_of_run (replans : 0 ≤ config.maxReplans) (actuations : 0 ≤ config.maxActuations)
    {fuel : Nat} {final : Final} (ran : run config world fuel = some final) :
    ∃ last, final = close last ∧ Within config last.state := by
  obtain ⟨here, last, reached, stops, closed⟩ := exists_last_of_run ran
  have bounded : Bounded config (step config world here) :=
    bounded_step (spent_of_reachable replans actuations reached)
  rw [stops] at bounded
  exact ⟨last, closed, bounded⟩

/-! ## Every run ends -/

def rank : Point → Nat
  | .answering _ _ fault => if fault.kind = .nodeFailure then 5 else 1
  | .consulting => 4
  | .judging _ _ => 3
  | .running _ _ => 2

def pending : Point → Nat
  | .running _ rest => rest.length
  | _ => 0

def effort (config : Config) (state : State) : Nat :=
  (config.maxActuations - state.actuations).toNat + (config.maxReplans - state.replans).toNat

def measure (config : Config) (here : Point × State) : Nat ×ₗ Nat ×ₗ Nat :=
  toLex (effort config here.2, toLex (rank here.1, pending here.1))

omit [Host] in
theorem measure_lt_of_effort (less : effort config after.2 < effort config before.2) :
    measure config after < measure config before :=
  Prod.Lex.toLex_lt_toLex.mpr (Or.inl less)

omit [Host] in
theorem measure_lt_of_rank (same : effort config after.2 = effort config before.2)
    (less : rank after.1 < rank before.1) : measure config after < measure config before :=
  Prod.Lex.toLex_lt_toLex.mpr (Or.inr ⟨same, Prod.Lex.toLex_lt_toLex.mpr (Or.inl less)⟩)

omit [Host] in
theorem measure_lt_of_pending (same : effort config after.2 = effort config before.2)
    (level : rank after.1 = rank before.1) (less : pending after.1 < pending before.1) :
    measure config after < measure config before :=
  Prod.Lex.toLex_lt_toLex.mpr
    (Or.inr ⟨same, Prod.Lex.toLex_lt_toLex.mpr (Or.inr ⟨level, less⟩)⟩)

/-- A turn either stops the loop or goes down in the measure. -/
def Descends (config : Config) (before : Point × State) : Turn (Point × State) Final → Prop
  | .again after => measure config after < measure config before
  | .stop _ => True

omit [Host] in
theorem descends_of_proposed (taken : Proposed config world state next) :
    Descends config (.consulting, state) next := by
  cases taken with
  | again plan pending => exact measure_lt_of_rank rfl (by simp [rank])
  | asked plan idle replied => exact measure_lt_of_rank rfl (by simp [rank])
  | crashed error idle replied => trivial

theorem descends_of_settled (taken : Settled config retry plan state next) :
    Descends config (.judging retry plan, state) next := by
  cases taken with
  | accepted verdict => exact measure_lt_of_rank rfl (by simp [rank])
  | invalid msg verdict => exact measure_lt_of_rank rfl (by simp [rank])
  | noProgress msg verdict =>
      refine measure_lt_of_rank rfl ?_
      have kind : (noProgressFault state plan msg).kind = .noProgress := by
        unfold noProgressFault
        cases state.fault <;> rfl
      simp [rank, kind]
  | crashed error verdict => trivial

omit [Host] in
theorem effort_sent_lt (affordable : (state.actuations : Int) < config.maxActuations)
    (plan : Json) (node : PlanNode) (outcome : Outcome) :
    effort config (state.sent plan node outcome) < effort config state := by
  rw [effort, effort, State.sent_actuations, State.sent_replans]
  omega

theorem descends_of_visited (taken : Visited config world plan node rest state next) :
    Descends config (.running plan (node :: rest), state) next := by
  cases taken with
  | cancelled fired => exact measure_lt_of_rank rfl (by simp [rank, attachDone, cancelFault])
  | skipped finished => exact measure_lt_of_pending rfl rfl (Nat.lt_succ_self _)
  | exhausted due spent =>
      exact measure_lt_of_rank rfl (by simp [rank, attachDone, budgetFault])
  | unknown due affordable kindless => trivial
  | refused text due affordable => exact measure_lt_of_effort (effort_sent_lt affordable plan node _)
  | crashed error due affordable kind view record called other => trivial
  | faulted kind result due affordable fault =>
      exact measure_lt_of_effort (effort_sent_lt affordable plan node (.returned result))
  | passed kind result due affordable clean =>
      exact measure_lt_of_effort (effort_sent_lt affordable plan node (.returned result))

theorem descends_of_answered {fault : Fault}
    (taken : Answered config state plan executed fault next) :
    Descends config (.answering plan executed fault, state) next := by
  cases taken with
  | retried spec goes scanned retries =>
      refine measure_lt_of_rank rfl ?_
      have kind : fault.kind = .nodeFailure := by
        simp only [Task.retries, Bool.and_eq_true, decide_eq_true_eq] at retries
        exact retries.1.1
      simp [rank, kind]
  | replanned spec goes scanned stays affordable =>
      refine measure_lt_of_effort ?_
      show (config.maxActuations - state.actuations).toNat +
        (config.maxReplans - ((state.replans + 1 : Nat) : Int)).toNat < effort config state
      rw [effort]
      omega
  | _ => trivial

theorem descends_step (here : Point × State) : Descends config here (step config world here) := by
  obtain ⟨point, state⟩ := here
  cases point with
  | consulting => exact descends_of_proposed (proposed config world state)
  | judging retry plan => exact descends_of_settled (settled config retry plan state)
  | running plan rest =>
      cases rest with
      | nil => trivial
      | cons node rest => exact descends_of_visited (visited config world plan node rest state)
  | answering plan executed fault =>
      exact descends_of_answered (answered config state plan executed fault)

theorem exists_run (config : Config) (world : World) :
    ∃ fuel final, run config world fuel = some final := by
  obtain ⟨fuel, last, stopped⟩ := exists_iterate wellFounded_lt (measure config)
    (fun before after (_ : Reachable config world before) stepped => by
      have descends : Descends config before (step config world before) := descends_step before
      rw [stepped] at descends
      exact descends)
  exact ⟨fuel, close last, by rw [run, stopped]; rfl⟩

/-! ## Runs that close with their note -/

/-- Handlers return or refuse with a `ValueError`. -/
def World.RefusesOnly (world : World) : Prop :=
  ∀ kind node view record error, world.handle kind node view record = .error error →
    ∃ text, error = .valueError text

/-- The plan at hand can be scanned for the node of its fault. -/
def Clear : Point × State → Prop
  | (.running plan _, _) => ∀ node, Returns (failedSpec plan node)
  | (.answering plan _ fault, _) => Returns (failedSpec plan fault.node)
  | _ => True

/-- A turn that does not crash and leaves the way clear. -/
def Survives : Turn (Point × State) Final → Prop
  | .again next => Clear next
  | .stop (.finished _ _) => True
  | .stop (.crashed _ _) => False

omit [Host] in
theorem survives_of_proposed (replies : state.retryPlan = none → Returns (reply config world state))
    (taken : Proposed config world state next) : Survives next := by
  cases taken with
  | again plan pending => trivial
  | asked plan idle replied => trivial
  | crashed error idle replied =>
      obtain ⟨plan, answered⟩ := replies idle
      rw [answered] at replied
      cases replied

theorem survives_of_settled (digestible : Digestible config state plan)
    (taken : Settled config retry plan state next) : Survives next := by
  cases taken with
  | accepted verdict =>
      exact (returns_failedSpec_of_judge digestible verdict).2 (fun _ never => by
        cases never)
  | invalid msg verdict => exact (returns_failedSpec_of_judge digestible verdict).1
  | noProgress msg verdict =>
      exact (returns_failedSpec_of_judge digestible verdict).2 (fun _ never => by
        cases never) _
  | crashed error verdict =>
      obtain ⟨decision, judged⟩ := returns_judge digestible retry
      rw [judged] at verdict
      cases verdict

theorem survives_of_visited (refuses : world.RefusesOnly) (kinds : Dispatchable (node :: rest))
    (clear : ∀ node, Returns (failedSpec plan node))
    (taken : Visited config world plan node rest state next) : Survives next := by
  cases taken with
  | unknown due affordable kindless =>
      obtain ⟨kind, known⟩ := kinds node (.head _)
      rw [known] at kindless
      cases kindless
  | crashed error due affordable kind view record called other =>
      obtain ⟨text, same⟩ := refuses kind node view record error called
      exact other text same
  | skipped finished => exact clear
  | passed kind result due affordable clean => exact clear
  | _ => exact clear _

theorem survives_of_answered {fault : Fault} (clear : Returns (failedSpec plan fault.node))
    (taken : Answered config state plan executed fault next) : Survives next := by
  cases taken with
  | crashed error goes scanned =>
      rw [scanned] at clear
      exact not_returns_error error clear
  | _ => trivial

theorem survives_step (refuses : world.RefusesOnly) (spent : Spent config here)
    (digests : Digests config world here) (clear : Clear here) :
    Survives (step config world here) := by
  obtain ⟨point, state⟩ := here
  cases point with
  | consulting => exact survives_of_proposed digests (proposed config world state)
  | judging retry plan => exact survives_of_settled digests (settled config retry plan state)
  | running plan rest =>
      cases rest with
      | nil => trivial
      | cons node rest =>
          exact survives_of_visited refuses spent.2 clear
            (visited config world plan node rest state)
  | answering plan executed fault =>
      exact survives_of_answered clear (answered config state plan executed fault)

theorem not_finished_of_crashes {error : PyError} {last : State}
    (crashes : step config world here = .stop (.crashed error last)) {left : Nat} {success : Bool}
    {state : State} : iterate (step config world) left here ≠ some (.finished success state) := by
  intro ran
  cases left with
  | zero => cases ran
  | succ left =>
      rw [iterate, crashes] at ran
      cases ran

theorem digestible_of_judge (judged : Returns (judge config state retry plan))
    (scanned : ∀ msg, judge config state retry plan = .ok (.invalid msg) →
      Returns (failedSpec plan none)) : Digestible config state plan := by
  have parts := judged
  rw [judge, returns_bind] at parts
  obtain ⟨answer, validated, later⟩ := parts
  refine ⟨⟨answer, validated⟩, fun msg accepted => ?_, fun msg refused => ?_⟩
  · cases validated.symm.trans accepted
    obtain ⟨problems, found, _⟩ := returns_bind.mp later
    exact ⟨problems, found⟩
  · refine (returns_failedSpec_none_iff plan).mp (scanned msg ?_)
    rw [judge, refused]
    rfl

theorem digests_of_finished {fuel : Nat} {success : Bool} {last : State}
    (reached : Reachable config world here)
    (ran : iterate (step config world) fuel (.consulting, {}) = some (.finished success last)) :
    Digests config world here := by
  obtain ⟨left, stopped⟩ := exists_iterate_of_reaches reached ran
  obtain ⟨point, state⟩ := here
  cases point with
  | consulting =>
      intro idle
      cases replied : reply config world state with
      | ok plan => exact ⟨plan, rfl⟩
      | error error =>
          have crashes : step config world (.consulting, state) = .stop (.crashed error
              (state.log (.consulted (state.brief config) (.error error)))) := by
            simp only [step, propose, idle, replied]
          exact absurd stopped (not_finished_of_crashes crashes)
  | judging retry plan =>
      have judged : Returns (judge config state retry plan) := by
        cases verdict : judge config state retry plan with
        | ok decision => exact ⟨decision, rfl⟩
        | error error =>
            have crashes : step config world (.judging retry plan, state) =
                .stop (.crashed error state) := by
              simp only [step, settle, verdict]
            exact absurd stopped (not_finished_of_crashes crashes)
      refine digestible_of_judge judged (fun msg invalid => ?_)
      cases scanned : failedSpec plan none with
      | ok spec => exact ⟨spec, rfl⟩
      | error error =>
          let fault : Fault := { kind := .invalidPlan, msg }
          let refused := state.log (.refused plan .invalidPlan msg)
          have onward : step config world (.judging retry plan, state) =
              .again (.answering plan false fault, refused) := by
            simp only [step, settle, invalid, fault, refused]
          have crashes : step config world (.answering plan false fault, refused) =
              .stop (.crashed error (refused.enter plan false fault)) := by
            simp [step, answer, terminal, fault, scanned]
          obtain ⟨left, stopped⟩ := exists_iterate_of_reaches (reached.again onward) ran
          exact absurd stopped (not_finished_of_crashes crashes)
  | running plan rest => trivial
  | answering plan executed fault => trivial

omit [Host] in
theorem Within.limits (within : Within config state) :
    (consultations state.trace : Int) ≤ config.maxReplans + 1 ∧
      (dispatches state.trace : Int) ≤ config.maxActuations := by
  have asked := within.asked
  have replans := within.replans
  have billed := within.billed
  have actuations := within.actuations
  omega

theorem finished_of_digests (refuses : world.RefusesOnly) (replans : 0 ≤ config.maxReplans)
    (actuations : 0 ≤ config.maxActuations)
    (digests : ∀ here, Reachable config world here → Digests config world here) {fuel : Nat}
    {last : Final} (ran : iterate (step config world) fuel (.consulting, {}) = some last) :
    ∃ success state, last = .finished success state := by
  obtain ⟨here, reached, stops⟩ := exists_last_of_iterate ran
  have clear : Clear here := Reaches.invariant reached trivial
    (fun before after (way : Reachable config world before) clear stepped => by
      have survives : Survives (step config world before) := survives_step refuses
        (spent_of_reachable replans actuations way) (digests before way) clear
      rw [stepped] at survives
      exact survives)
  have survives : Survives (step config world here) := survives_step refuses
    (spent_of_reachable replans actuations reached) (digests here reached) clear
  rw [stops] at survives
  cases last with
  | finished success state => exact ⟨success, state, rfl⟩
  | crashed error state => cases survives

/-- Every run ends within its limits, with one actuation billed for each handler
invocation; it closes with exactly one note exactly when it could digest every
proposal it met. -/
theorem bounded_effort (config : Config) (world : World) (refuses : world.RefusesOnly)
    (replans : 0 ≤ config.maxReplans) (actuations : 0 ≤ config.maxActuations) :
    (∀ record, RecordOf config world record →
      (consultations record : Int) ≤ config.maxReplans + 1 ∧
      (dispatches record : Int) ≤ config.maxActuations) ∧
    ∃ fuel final, run config world fuel = some final ∧
      (final.state.replans : Int) ≤ config.maxReplans ∧
      (final.state.actuations : Int) ≤ config.maxActuations ∧
      final.state.actuations = dispatches final.state.trace ∧
      (completions final.state.trace = 1 ↔
        ∀ here, Reachable config world here → Digests config world here) := by
  constructor
  · intro record recorded
    cases recorded with
    | underway reached => exact (spent_of_reachable replans actuations reached).within.limits
    | ended ran =>
        obtain ⟨last, closed, within⟩ := within_of_run replans actuations ran
        subst closed
        rw [consultations_close, dispatches_close]
        exact within.limits
  · obtain ⟨fuel, final, ran⟩ := exists_run config world
    obtain ⟨last, closed, within⟩ := within_of_run replans actuations ran
    subst closed
    obtain ⟨other, stopped, same⟩ := Option.map_eq_some_iff.mp ran
    refine ⟨fuel, close last, ran, ?_, ?_, ?_, ?_⟩
    · rw [replans_close]
      exact within.replans
    · rw [actuations_close]
      exact within.actuations
    · rw [actuations_close, dispatches_close]
      exact within.billed
    · constructor
      · intro once here reached
        cases other with
        | finished success state => exact digests_of_finished reached stopped
        | crashed error state =>
            cases last with
            | finished success last => cases same
            | crashed other last =>
                have none_ : completions last.trace = 0 := within.underway
                exact absurd (once.symm.trans none_) Nat.one_ne_zero
      · intro digests
        obtain ⟨success, state, ended⟩ :=
          finished_of_digests refuses replans actuations digests stopped
        subst ended
        cases last with
        | crashed error last => cases same
        | finished yes last =>
            have none_ : completions last.trace = 0 := within.underway
            show completions (last.trace ++ [_]) = 1
            rw [completions, countP_snoc, ← completions, none_]
            rfl

theorem run_unique {fuel other : Nat} {final last : Final}
    (ran : run config world fuel = some final) (also : run config world other = some last) :
    final = last := by
  obtain ⟨here, stopped, same⟩ := Option.map_eq_some_iff.mp ran
  obtain ⟨there, halted, equal⟩ := Option.map_eq_some_iff.mp also
  rw [← same, ← equal, iterate_unique stopped halted]

end

end

section Example

local instance replyHost : Host := asciiHost

private def replyConfig : Config where
  catalogue := [("look", [])]
  oracles := ["seen"]
  requirements := []
  records := []
  facts := []
  objects := []
  graph := .null
  seed := 0
  maxReplans := 1
  maxActuations := 4
  segmentRetries := 0

private def replyPlan : Json :=
  .obj [("goal", .str "tidy"),
    ("nodes", .arr [
      .obj [("id", .str "look"), ("skill", .str "look"), ("args", .obj []), ("after", .arr []),
        ("kind", .str "perceive")]]),
    ("verify", .arr [.obj [("after", .str "look"), ("predicate", .str "seen")]])]

/-- The planner always answers the same; every node succeeds. -/
private def replyWorld (plan : Json) : World where
  plan := fun _ _ => .ok plan
  handle := fun _ _ _ _ => .ok { success := true }
  cancelled := fun _ => false

private theorem refusesOnly_replyWorld (plan : Json) : (replyWorld plan).RefusesOnly := by
  intro kind node view record error never
  cases never

private def closings (final : Option Final) : Option Nat :=
  final.map (fun last => completions last.state.trace)

/-- A planner that answers with a text instead of an object is refused, and then
the run crashes without its closing note. -/
theorem not_planComplete_textReply :
    (replyWorld (.str "no plan")).RefusesOnly ∧ 0 ≤ replyConfig.maxReplans ∧
      0 ≤ replyConfig.maxActuations ∧
      ¬ ∃ fuel final, run replyConfig (replyWorld (.str "no plan")) fuel = some final ∧
        completions final.state.trace = 1 := by
  refine ⟨refusesOnly_replyWorld _, by decide, by decide, ?_⟩
  rintro ⟨fuel, final, ran, once⟩
  have silent : closings (run replyConfig (replyWorld (.str "no plan")) 4) = some 0 := by
    decide +kernel
  obtain ⟨last, crashed, none_⟩ := Option.map_eq_some_iff.mp silent
  rw [run_unique ran crashed, none_] at once
  cases once

/-- A planner whose plan the gate accepts is consulted at most twice, and every
proposal on the way can be digested. -/
theorem bounded_effort_replyPlan :
    (∀ record, RecordOf replyConfig (replyWorld replyPlan) record →
      (consultations record : Int) ≤ 2 ∧ (dispatches record : Int) ≤ 4) ∧
    ∀ here, Reachable replyConfig (replyWorld replyPlan) here →
      Digests replyConfig (replyWorld replyPlan) here := by
  obtain ⟨limits, fuel, final, ran, _, _, _, once⟩ := bounded_effort replyConfig
    (replyWorld replyPlan) (refusesOnly_replyWorld _) (by decide) (by decide)
  refine ⟨limits, once.mp ?_⟩
  have closes : closings (run replyConfig (replyWorld replyPlan) 20) = some 1 := by
    decide +kernel
  obtain ⟨last, ended, one⟩ := Option.map_eq_some_iff.mp closes
  rw [run_unique ran ended]
  exact one

end Example

end Task
end PhysicalHarness
