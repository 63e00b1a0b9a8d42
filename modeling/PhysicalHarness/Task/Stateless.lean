import PhysicalHarness.Task.Carried

namespace PhysicalHarness
namespace Task

open Python Protocol Loop Fallible

/-!
# The stateless planner

A planner that answers every fault with `recover_plan` over one base plan keeps
no state: what is finished comes to it in the fault.  As long as no brief holds
the fault of a plan refused as invalid, and no `no_progress` fault names a node
that is finished, `replan_monotone` has nothing against its answers.
-/

/-- The planner is `recover_plan` over a base plan. -/
def World.Recovers (world : World) (repairs : Repairs) (base : Json) : Prop :=
  ∀ brief record, world.plan brief record = recoverPlan repairs base brief.fault

/-- Every fault that went to the planner had the finished work, and those
without progress named an unfinished node. -/
def Answerable (record : List Event) : Prop :=
  ∀ brief replied, .consulted brief replied ∈ record → ∀ fault, brief.fault = some fault →
    fault.kind ≠ .invalidPlan ∧ (fault.kind = .noProgress → ∀ node, fault.node = some node →
      node ∉ fault.nodesDone.getD [])

theorem Answerable.of_append {first rest : List Event} (answerable : Answerable (first ++ rest)) :
    Answerable first :=
  fun brief replied mem => answerable brief replied (List.mem_append_left _ mem)

/-- The plan is the base with recoveries, and it opens with the finished work. -/
structure FitsWith (base : Json) (record : List Event) (plan : Json) (marks : Marks) : Prop where
  shaped : Shaped base plan marks
  sound : marks.Sound
  distinct : (idsOf plan).Nodup
  front : (finishedWork record).map Prod.snd =
    (planNodes plan).take (finishedWork record).length

def Fits (base : Json) (record : List Event) (plan : Json) : Prop :=
  ∃ marks, FitsWith base record plan marks

theorem Fits.congr {base plan : Json} {record other : List Event} (fits : Fits base record plan)
    (same : finishedWork other = finishedWork record) : Fits base other plan := by
  obtain ⟨marks, with_⟩ := fits
  exact ⟨marks, with_.shaped, with_.sound, with_.distinct, by rw [same]; exact with_.front⟩

theorem labelOf_congr {plan other : Json} (same : plan.get? "tasks" = other.get? "tasks") :
    labelOf plan = labelOf other := by
  rw [labelOf, labelOf, Json.getD, Json.getD, same]

theorem FitsWith.label {base plan : Json} {record : List Event} {marks : Marks}
    (fits : FitsWith base record plan marks) : labelOf plan = labelOf base :=
  labelOf_congr (fits.shaped.others "tasks" (by decide))

theorem FitsWith.successes {base plan : Json} {record : List Event} {marks : Marks}
    (fits : FitsWith base record plan marks) :
    successes record =
      (((nodesOf base).flatMap (spliced marks)).take (finishedWork record).length).map idOf := by
  have ids := congrArg (List.map PlanNode.id) fits.front
  rw [List.map_map, planNodes, ← List.map_take, List.map_map, fits.shaped.nodes] at ids
  exact ids

section

variable {base : Json} {repairs : Repairs} {state : State}

theorem doneStrategy_of_fits (books : Books state) {plan : Json} {marks : Marks}
    (fits : FitsWith base state.trace plan marks) {node strategy : Json}
    (mem : node ∈ nodesOf base) (marked : marks node = some strategy)
    (finished : recoverId (idOf node) ∈ state.nodesDone) :
    doneStrategy repairs state.recoveries (idOf node) = some strategy := by
  have distinct : (Assoc.keys state.recoveries).Nodup := by
    have nodes : state.nodesDone.Nodup :=
      state.nodesOut.nodup_keys.sublist (List.filter_sublist.map _)
    rw [Assoc.keys, State.recoveries, List.map_filterMap]
    refine nodes.filterMap (fun first second id inFirst inSecond => ?_)
    simp only [Option.map_map, Option.mem_def, Option.map_eq_some_iff, Function.comp_apply]
      at inFirst inSecond
    obtain ⟨_, firstEq, rfl⟩ := inFirst
    obtain ⟨_, secondEq, same⟩ := inSecond
    rw [recovered_eq_some_iff.mp firstEq, recovered_eq_some_iff.mp secondEq, same]
  have isSuccess := books.nodesDone_perm.mem_iff.mp finished
  obtain ⟨done, doneMember, doneId⟩ := List.mem_map.mp isSuccess
  have skill : done.2.skill = strategy := by
    have inFront : done.2 ∈ (planNodes plan).take (finishedWork state.trace).length :=
      fits.front ▸ List.mem_map_of_mem doneMember
    obtain ⟨source, sourceMember, sourceEq⟩ :=
      List.mem_map.mp (List.take_subset _ _ inFront)
    have recovery : recoveryNode (idOf node) strategy ((depsOf node).map .str) ∈ nodesOf plan := by
      rw [fits.shaped.nodes]
      refine List.mem_flatMap.mpr ⟨node, mem, ?_⟩
      rw [spliced, marked]
      exact .head _
    have sameId : idOf source =
        idOf (recoveryNode (idOf node) strategy ((depsOf node).map .str)) := by
      rw [idOf_recoveryNode, ← doneId, ← sourceEq]
      rfl
    rw [← sourceEq, List.inj_on_of_nodup_map fits.distinct sourceMember recovery sameId]
    rfl
  have held : Assoc.get? state.recoveries (idOf node) = some strategy := by
    refine Assoc.get?_of_mem distinct (List.mem_filterMap.mpr ⟨_, finished, ?_⟩)
    rw [recovered_eq_some_iff.mpr rfl, Option.map_some, ← doneId, books.doneSpec_skill doneMember,
      skill]
  rw [doneStrategy, held, Option.filter_some, (fits.sound node strategy marked).1]
  rfl

theorem fits_reply (listed : Listed base) (books : Books state) {last plan : Json}
    (fits : Fits base state.trace last) {fault : Fault} (attached : Attached state fault)
    (kind : fault.kind ≠ .invalidPlan)
    (unfinished : fault.kind = .noProgress → ∀ node, fault.node = some node →
      node ∉ fault.nodesDone.getD [])
    (replied : recoverPlan repairs base (some fault) = .ok plan)
    (distinct : (idsOf plan).Nodup) : Fits base state.trace plan := by
  obtain ⟨marks, fits⟩ := fits
  obtain ⟨nodes, recoveries⟩ := attached.full kind
  have finished : ∀ id, id ∈ fault.nodesDone.getD [] ↔
      id ∈ (((nodesOf base).flatMap (spliced marks)).take
        (finishedWork state.trace).length).map idOf := by
    intro id
    rw [nodes, Option.getD_some, books.nodesDone_perm.mem_iff, fits.successes]
  have origin : ∀ id ∈ fault.nodesDone.getD [],
      id ∈ ((nodesOf base).flatMap (spliced marks)).map idOf :=
    fun id mem => List.map_subset _ (List.take_subset _ _) ((finished id).mp mem)
  obtain ⟨after, shaped, answers⟩ :=
    shaped_recoverPlan listed origin unfinished replied distinct
  have oldDistinct := fits.distinct
  rw [idsOf, fits.shaped.nodes] at oldDistinct
  have newDistinct := distinct
  rw [idsOf, shaped.nodes] at newDistinct
  have same := front_of_answers fits.sound oldDistinct finished
    (fun node mem strategy marked isDone => by
      rw [recoveries, Option.getD_some]
      rw [nodes, Option.getD_some] at isDone
      exact doneStrategy_of_fits books fits mem marked isDone) answers newDistinct
  refine ⟨after, shaped, answers.sound, distinct, ?_⟩
  rw [fits.front, planNodes, planNodes, ← List.map_take, ← List.map_take, fits.shaped.nodes,
    shaped.nodes, same]

end

/-! ## The loop under the stateless planner -/

/-- The last accepted plan, or the base before there is one, fits the finished
work. -/
structure Follows (base : Json) (state : State) : Prop where
  labels : ∀ done ∈ finishedWork state.trace, labelOf done.1 = labelOf base
  last : Fits base state.trace (state.prevPlan.getD base)

/-- What holds where the loop is: a plan to retry, a proposal with distinct ids
and the plan of a failed node fit the finished work. -/
def Following (base : Json) : Point × State → Prop
  | (.consulting, state) => Follows base state ∧
      ∀ plan, state.retryPlan = some plan → Fits base state.trace plan
  | (.judging _ plan, state) => Follows base state ∧ state.retryPlan = none ∧
      ((idsOf plan).Nodup → Fits base state.trace plan)
  | (.running plan _, state) => Follows base state ∧ state.retryPlan = none ∧
      state.prevPlan = some plan
  | (.answering plan _ fault, state) => Follows base state ∧ state.retryPlan = none ∧
      (fault.kind = .nodeFailure → Fits base state.trace plan)

/-- What a step leaves behind, when the faults so far were answerable. -/
def Trails (base : Json) : Turn (Point × State) Final → Prop
  | .again next => Answerable next.2.trace → Following base next
  | .stop _ => True

theorem Follows.congr {base : Json} {state other : State} (follows : Follows base state)
    (same : finishedWork other.trace = finishedWork state.trace)
    (prev : other.prevPlan = state.prevPlan) : Follows base other where
  labels := same ▸ follows.labels
  last := prev ▸ follows.last.congr same

section

variable [Host] {config : Config} {world : World} {base plan : Json} {repairs : Repairs}
  {state : State} {next : Turn (Point × State) Final}

omit [Host] in
theorem Follows.log (follows : Follows base state) {event : Event}
    (silent : finishedBy event = none) : Follows base (state.log event) :=
  follows.congr (finishedWork_snoc_of_silent silent) rfl

omit [Host] in
theorem trails_of_proposed (listed : Listed base) (books : Books state)
    (recovers : world.Recovers repairs base) (asks : config.graph.truthy = false)
    (current : Current (.consulting, state)) (follows : Follows base state)
    (pending : ∀ plan, state.retryPlan = some plan → Fits base state.trace plan)
    (taken : Proposed config world state next) : Trails base next := by
  cases taken with
  | again plan held =>
      intro _
      exact ⟨follows.congr rfl rfl, rfl, fun _ => pending plan held⟩
  | asked plan idle replied =>
      intro answerable
      have logged : Follows base (state.log (.consulted (state.brief config) (.ok plan))) :=
        follows.log rfl
      refine ⟨logged.congr rfl rfl, idle, fun distinct => ?_⟩
      rw [reply, asks, if_neg Bool.false_ne_true, recovers] at replied
      obtain ⟨first, attached⟩ := current idle
      cases held : state.fault with
      | none =>
          have nothing : state.trace = [] := first held
          have same : plan = base := by
            rw [show (state.brief config).fault = none from held] at replied
            exact (Except.ok.inj replied).symm
          subst same
          refine Fits.congr ?_ (finishedWork_snoc_of_silent rfl)
          rw [nothing]
          exact ⟨fun _ => none, shaped_base listed, fun _ _ never => (by cases never),
            distinct, rfl⟩
      | some fault =>
          have asked : Event.consulted (state.brief config) (.ok plan) ∈
              state.trace ++ [.consulted (state.brief config) (.ok plan)] :=
            List.mem_append_right _ (List.mem_singleton.mpr rfl)
          obtain ⟨kind, unfinished⟩ := answerable _ _ asked fault held
          rw [show (state.brief config).fault = some fault from held] at replied
          exact (fits_reply listed books follows.last (attached fault held) kind unfinished replied
            distinct).congr (finishedWork_snoc_of_silent rfl)
  | crashed error idle replied => trivial

omit [Host] in
theorem idsOf_eq (plan : Json) : idsOf plan = (planNodes plan).map PlanNode.id :=
  (ids_planNodes plan).symm

theorem trails_of_settled {retry : Bool} (follows : Follows base state)
    (idle : state.retryPlan = none) (fits : (idsOf plan).Nodup → Fits base state.trace plan)
    (taken : Settled config retry plan state next) : Trails base next := by
  cases taken with
  | accepted verdict =>
      intro _
      have inOrder := (accepted_of_judge verdict).1.inOrder
      have accepted := fits (idsOf_eq plan ▸ inOrder.distinct)
      have silent : finishedWork (state.trace ++ [.accepted plan retry state.fault]) =
          finishedWork state.trace := finishedWork_snoc_of_silent rfl
      refine ⟨⟨?_, accepted.congr silent⟩, idle, rfl⟩
      show ∀ done ∈ finishedWork (state.trace ++ [_]), _
      rw [silent]
      exact follows.labels
  | invalid msg verdict =>
      intro _
      exact ⟨follows.log rfl, idle, nofun⟩
  | noProgress msg verdict =>
      intro _
      refine ⟨follows.log rfl, idle, fun never => ?_⟩
      have kind : (noProgressFault state plan msg).kind = .noProgress := by
        unfold noProgressFault
        cases state.fault <;> rfl
      rw [kind] at never
      cases never
  | crashed error verdict => trivial

omit [Host] in
theorem follows_returned {node : PlanNode} {rest : List PlanNode} (follows : Follows base state)
    (prev : state.prevPlan = some plan) (among : Among plan (node :: rest) state)
    (due : node.id ∉ successes state.trace) (kind : NodeKind) (result : Result) :
    Follows base (state.returned plan node kind result) := by
  cases success : result.success with
  | false =>
      refine follows.congr ?_ rfl
      rw [State.returned_trace, finishedWork_snoc_of_silent (by simp [finishedBy, success]),
        finishedWork_snoc_of_silent rfl]
  | true =>
      have last := follows.last
      rw [prev, Option.getD_some] at last
      obtain ⟨marks, fits⟩ := last
      have work : finishedWork (state.returned plan node kind result).trace =
          finishedWork state.trace ++ [(plan, node)] := by
        rw [State.returned_trace, finishedWork_append, finishedWork_snoc_of_silent rfl]
        simp [finishedWork, finishedBy, success]
      obtain ⟨first, split, done⟩ := among.due due
      have length : (finishedWork state.trace).length = first.length := by
        have lengths := congrArg List.length done
        rwa [successes, List.length_map, List.length_map] at lengths
      constructor
      · rw [work]
        intro other mem
        rcases List.mem_append.mp mem with earlier | new
        · exact follows.labels other earlier
        · exact List.mem_singleton.mp new ▸ fits.label
      · show Fits base _ (state.prevPlan.getD base)
        rw [prev, Option.getD_some]
        refine ⟨marks, fits.shaped, fits.sound, fits.distinct, ?_⟩
        rw [work, List.map_append, fits.front, List.length_append, length, split,
          List.take_left' rfl, List.take_append]
        simp [List.take_of_length_le]

theorem trails_of_visited {node : PlanNode} {rest : List PlanNode} (follows : Follows base state)
    (idle : state.retryPlan = none) (prev : state.prevPlan = some plan) (books : Books state)
    (among : Among plan (node :: rest) state)
    (taken : Visited config world plan node rest state next) : Trails base next := by
  have notDone : state.finished node.id = false → node.id ∉ successes state.trace := by
    intro due done
    rw [(books.rows node.id).mpr done] at due
    cases due
  have held : ∀ {other : State}, Follows base other → other.prevPlan = some plan →
      Fits base other.trace plan := by
    intro other otherFollows same
    have last := otherFollows.last
    rw [same] at last
    exact last
  cases taken with
  | cancelled fired =>
      intro _
      exact ⟨follows.log rfl, idle, nofun⟩
  | skipped finished =>
      intro _
      exact ⟨follows.log rfl, idle, prev⟩
  | exhausted due spent =>
      intro _
      exact ⟨follows.log rfl, idle, nofun⟩
  | unknown due affordable kindless => trivial
  | refused text due affordable =>
      intro _
      have sent : Follows base (state.sent plan node (.raised (.valueError text))) := by
        refine follows.congr ?_ rfl
        rw [State.sent_trace, finishedWork_snoc_of_silent rfl, finishedWork_snoc_of_silent rfl]
      exact ⟨sent, idle, fun _ => held sent prev⟩
  | crashed error due affordable kind view record called other => trivial
  | faulted kind result due affordable fault =>
      intro _
      have returned := follows_returned follows prev among (notDone due) kind result
      exact ⟨returned, idle, fun _ => held returned prev⟩
  | passed kind result due affordable clean =>
      intro _
      exact ⟨follows_returned follows prev among (notDone due) kind result, idle, prev⟩

theorem trails_of_answered {executed : Bool} {fault : Fault} (follows : Follows base state)
    (idle : state.retryPlan = none)
    (fits : fault.kind = .nodeFailure → Fits base state.trace plan)
    (taken : Answered config state plan executed fault next) : Trails base next := by
  have silent : finishedWork (state.enter plan executed fault).trace = finishedWork state.trace :=
    finishedWork_snoc_of_silent rfl
  cases taken with
  | retried spec goes scanned retries =>
      intro _
      refine ⟨follows.congr silent rfl, fun pending same => ?_⟩
      cases same
      refine (fits ?_).congr silent
      simp only [Task.retries, Bool.and_eq_true, decide_eq_true_eq] at retries
      exact retries.1.1
  | replanned spec goes scanned stays affordable =>
      intro _
      refine ⟨follows.congr silent rfl, fun pending same => ?_⟩
      rw [show ((state.enter plan executed fault).replan fault).retryPlan = state.retryPlan from rfl,
        idle] at same
      cases same
  | _ => trivial

theorem trails_step (listed : Listed base) (recovers : world.Recovers repairs base)
    (asks : config.graph.truthy = false) {here : Point × State}
    (reached : Reachable config world here) (following : Following base here) :
    Trails base (step config world here) := by
  have holds := holds_of_reachable reached
  have current := current_of_reachable reached
  obtain ⟨point, state⟩ := here
  cases point with
  | consulting =>
      exact trails_of_proposed listed holds recovers asks current following.1 following.2
        (proposed config world state)
  | judging retry plan =>
      exact trails_of_settled following.1 following.2.1 following.2.2
        (settled config retry plan state)
  | running plan rest =>
      cases rest with
      | nil => trivial
      | cons node rest =>
          exact trails_of_visited following.1 following.2.1 following.2.2 holds.1 holds.2
            (visited config world plan node rest state)
  | answering plan executed fault =>
      exact trails_of_answered following.1 following.2.1 following.2.2
        (answered config state plan executed fault)

omit [Host] in
theorem following_start (listed : Listed base) (distinct : (idsOf base).Nodup) :
    Following base (.consulting, {}) := by
  refine ⟨⟨nofun, fun _ => none, shaped_base listed,
    fun _ _ never => (by cases never), distinct, rfl⟩, fun _ never => ?_⟩
  cases never

theorem following_of_reachable (listed : Listed base) (distinct : (idsOf base).Nodup)
    (recovers : world.Recovers repairs base) (asks : config.graph.truthy = false)
    {here : Point × State} (reached : Reachable config world here)
    (answerable : Answerable here.2.trace) : Following base here := by
  induction reached with
  | start => exact following_start listed distinct
  | @again before after way stepped ih =>
      have extends_ := extends_step config world before
      rw [stepped] at extends_
      obtain ⟨events, longer⟩ := extends_
      have earlier := ih (longer ▸ answerable).of_append
      have trails : Trails base (step config world before) :=
        trails_step listed recovers asks way earlier
      rw [stepped] at trails
      exact trails answerable

/-- `replan_monotone` has problems with a proposal whose nodes are accepted:
against the ledger, or against the last accepted plan. -/
def MonotoneObjects (config : Config) (state : State) (plan : Json) : Prop :=
  (checkShape plan = .ok () ∧ AcceptedNodes config.catalogue (nodesOf plan) ∧
    ∃ problems, judgeLedger (state.doneSpecs.entries.map Prod.snd) plan = .ok (false, problems)) ∨
  (Accepted plan config.catalogue config.oracles (state.doneSpecs.entries.map Prod.snd)
      config.requirements ∧
    ∃ prev old new, state.prevPlan = some prev ∧ seededGraph prev config.seed = .ok old ∧
      seededGraph plan config.seed = .ok new ∧
        (replanMonotone old new state.doneSpecs.keys).2 ≠ [])

omit [Host] in
theorem planReads_of_shaped {marks : Marks} (reads : PlanReads base)
    (shaped : Shaped base plan marks) : PlanReads plan where
  goal := by
    rw [shaped.others "goal" (by decide)]
    exact reads.goal
  nodes := shaped.listed.nodes
  tasks := by
    rw [Json.getD, shaped.others "tasks" (by decide)]
    exact reads.tasks
  each := shaped.listed.reads

theorem not_monotoneObjects_of_fits (reads : PlanReads base) (books : Books state)
    (follows : Follows base state) (fits : (idsOf plan).Nodup → Fits base state.trace plan) :
    ¬ MonotoneObjects config state plan := by
  have ids : state.doneSpecs.keys =
      (finishedWork state.trace).map (fun entry => entry.2.id) := books.keys
  rintro (⟨shape, nodes, problems, judged⟩ | ⟨accepted, prev, old, new, held, first, second, bad⟩)
  · have inOrder : ViewsInOrder (planNodes plan) := nodes.inOrder (fun _ => rfl) (fun _ => rfl)
    obtain ⟨marks, fits⟩ := fits (idsOf_eq plan ▸ inOrder.distinct)
    rw [judgeLedger] at judged
    obtain ⟨new, lifted, judged⟩ := of_bind judged
    obtain ⟨listed, named, judged⟩ := of_bind judged
    obtain ⟨old, built, judged⟩ := of_bind judged
    rw [books.ledger, ids_of_ledger books.reads] at named
    cases named
    rw [books.ledger] at built
    have oldLifts := lifts_of_ledgerGraph books.reads built
    have distinct : (old.nodes.map Node.id).Nodup := by
      rw [map_eq_of_forall₂ oldLifts (fun _ _ here => here.id)]
      exact books.distinct
    have oldFront : List.Forall₂ (fun entry node =>
        ∃ source, labelOf source = labelOf plan ∧ Lifts source entry.2 node)
          (finishedWork state.trace) (old.nodes.take (finishedWork state.trace).length) := by
      rw [List.take_of_length_le oldLifts.length_eq.ge]
      have itself : List.Forall₂ (· = ·) (finishedWork state.trace) (finishedWork state.trace) :=
        List.forall₂_same.mpr (fun _ _ => rfl)
      refine (forall₂_join itself oldLifts).imp ?_
      rintro entry node ⟨_, mem, same, here⟩
      subst same
      exact ⟨_, (follows.labels _ mem).trans fits.label.symm, here⟩
    have clean : (replanMonotone old new _).2 = [] := monotone_of_lifts inOrder
      (lifts_of_planToGraph (planReads_of_checks shape nodes) lifted) fits.front oldFront distinct rfl
    have verdict := (replanMonotone_fst old new _).mpr clean
    rw [Except.ok.inj judged] at verdict
    cases verdict
  · have inOrder := accepted.inOrder
    obtain ⟨marks, fits⟩ := fits (idsOf_eq plan ▸ inOrder.distinct)
    have last := follows.last
    rw [held, Option.getD_some] at last
    obtain ⟨lastMarks, last⟩ := last
    have oldLifts := lifts_of_seeded (planReads_of_shaped reads last.shaped) first
    have oldFront := List.forall₂_take (finishedWork state.trace).length oldLifts
    rw [← last.front, List.forall₂_map_left_iff] at oldFront
    have distinct : (old.nodes.map Node.id).Nodup := by
      rw [map_eq_of_forall₂ oldLifts (fun _ _ here => here.id), ← idsOf_eq]
      exact last.distinct
    refine bad (monotone_of_lifts inOrder (lifts_of_seeded accepted.reads second) fits.front
      (oldFront.imp (fun entry node here => ?_)) distinct ids)
    exact ⟨prev, last.label.trans fits.label.symm, here⟩

/-- After the first consultation every brief has a fault, which carries the
finished work exactly when it does not refuse a plan as invalid; and under the
stateless planner over an accepted base, while the faults were answerable,
`replan_monotone` has nothing against what is judged. -/
theorem brief_carries_work (config : Config) (world : World) :
    (∀ record, RecordOf config world record → ∀ first brief replied rest,
      record = first ++ .consulted brief replied :: rest →
      (∃ event ∈ first, event.isConsulted = true) →
        ∃ fault, brief.fault = some fault ∧ (Carries first fault ↔ fault.kind ≠ .invalidPlan)) ∧
    (∀ repairs base,
      validatePlan base config.catalogue config.oracles [] config.requirements = .ok (true, "") →
      world.Recovers repairs base → config.graph.truthy = false →
      ∀ retry plan state, Reachable config world (.judging retry plan, state) →
        Answerable state.trace → ¬ MonotoneObjects config state plan) := by
  constructor
  · intro record recorded first brief replied rest split earlier
    obtain ⟨nothing, each⟩ := briefed_of_recordOf recorded first _ rest split
    cases held : brief.fault with
    | none =>
        obtain ⟨event, member, _⟩ := earlier
        rw [nothing held] at member
        cases member
    | some fault => exact ⟨fault, rfl, each fault held⟩
  · intro repairs base validated recovers asks retry plan state reached answerable
    have accepted := (validatePlan_accepts_iff.mp validated).1
    have listed : Listed base := ⟨accepted.reads.nodes, accepted.reads.each⟩
    have distinct : (idsOf base).Nodup := idsOf_eq base ▸ accepted.inOrder.distinct
    obtain ⟨follows, _, fits⟩ := following_of_reachable listed distinct recovers asks reached answerable
    exact not_monotoneObjects_of_fits accepted.reads (holds_of_reachable reached) follows fits

end

/-! ## A recovering planner whose second repair is refused -/

section Example

local instance reachHost : Host := asciiHost

private def cupNode (id : String) (after : List String) : Json :=
  .obj [("id", .str id), ("skill", .str id), ("args", .obj [("object", .str "cup")]),
    ("after", .arr (after.map .str))]

private def reachPlan : Json :=
  .obj [("goal", .str "tidy"),
    ("nodes", .arr [cupNode "reach" [], cupNode "pick" ["reach"]]),
    ("verify", .arr [.obj [("after", .str "reach"), ("predicate", .str "near")],
      .obj [("after", .str "pick"), ("predicate", .str "held")]])]

private def reachConfig : Config where
  catalogue := [("reach", [("object", .str)]), ("pick", [("object", .str)])]
  oracles := ["near", "held"]
  requirements := []
  records := []
  facts := []
  objects := []
  graph := .null
  seed := 0
  maxReplans := 7
  maxActuations := 20
  segmentRetries := 0

/-- The repair of `pick` is itself a skill that needs an object. -/
private def reachRepairs : Repairs where
  byStage := [("reach", "home"), ("pick", "pick")]

private def isDispatchOf (id : String) : Event → Bool
  | .dispatched _ node _ => decide (node.id = id)
  | _ => false

/-- The first two attempts at `reach` and at `pick` are refused. -/
private def reachWorld : World where
  plan := fun brief _ => recoverPlan reachRepairs reachPlan brief.fault
  handle := fun _ node _ record =>
    if (node.id = "reach" ∨ node.id = "pick") ∧ record.countP (isDispatchOf node.id) < 2 then
      .error (.valueError "no binding")
    else .ok { success := true }
  cancelled := fun _ => false

private def reachRecord : List Event :=
  ((run reachConfig reachWorld 100).map (fun last => last.state.trace)).getD []

private def opensConsulted : List Event → Option Fault
  | .consulted brief _ :: _ => brief.fault
  | _ => none

private theorem split_of_opensConsulted {record : List Event} {n : Nat} {fault : Fault}
    (opens : opensConsulted (record.drop n) = some fault) :
    ∃ brief replied rest, record = record.take n ++ .consulted brief replied :: rest ∧
      brief.fault = some fault := by
  unfold opensConsulted at opens
  split at opens
  · rename_i brief replied rest found
    exact ⟨brief, replied, rest, by rw [← found, List.take_append_drop], opens⟩
  · cases opens

private def isDropRefusal : Event → Bool
  | .refused _ kind msg => decide (kind = .invalidPlan ∧
      msg = "replan dropped done node 'recover-reach'; done nodes must be preserved verbatim")
  | _ => false

private theorem reachRecord_facts :
    (run reachConfig reachWorld 100).isSome = true ∧
      (opensConsulted (reachRecord.drop 35)).any (fun fault =>
        fault.nodesDone.isNone && fault.recoveriesDone.isNone) = true ∧
      successes (reachRecord.take 35) = ["recover-reach", "reach"] ∧
      reachRecord.any isDropRefusal = true ∧
      (opensConsulted (reachRecord.drop 22)).any (fun fault =>
        decide (fault.kind ≠ .invalidPlan)) = true ∧
      (reachRecord.take 22).any Event.isConsulted = true := by
  decide +kernel

private theorem recordOf_reachRecord : RecordOf reachConfig reachWorld reachRecord := by
  obtain ⟨last, ran⟩ := Option.isSome_iff_exists.mp reachRecord_facts.1
  rw [reachRecord, ran]
  exact .ended ran

/-- The brief after the refused repair has a fault without the finished work, and
the planner's answer to it is refused because it drops a finished recovery. -/
theorem invalidPlan_carries_nothing :
    validatePlan reachPlan reachConfig.catalogue reachConfig.oracles [] reachConfig.requirements =
        .ok (true, "") ∧
      reachWorld.Recovers reachRepairs reachPlan ∧ reachConfig.graph.truthy = false ∧
      RecordOf reachConfig reachWorld reachRecord ∧
      (∃ first brief replied rest fault, reachRecord = first ++ .consulted brief replied :: rest ∧
        brief.fault = some fault ∧ successes first = ["recover-reach", "reach"] ∧
          fault.nodesDone = none ∧ fault.recoveriesDone = none) ∧
      ∃ plan msg, .refused plan .invalidPlan msg ∈ reachRecord ∧
        msg = "replan dropped done node 'recover-reach'; done nodes must be preserved verbatim" := by
  obtain ⟨_, bare, done, refuses, _, _⟩ := reachRecord_facts
  refine ⟨by decide +kernel, fun _ _ => rfl, rfl, recordOf_reachRecord, ?_, ?_⟩
  · rw [Option.any_eq_true] at bare
    obtain ⟨fault, opens, nothing⟩ := bare
    rw [Bool.and_eq_true, Option.isNone_iff_eq_none, Option.isNone_iff_eq_none] at nothing
    obtain ⟨brief, replied, rest, split, held⟩ := split_of_opensConsulted opens
    exact ⟨_, brief, replied, rest, fault, split, held, done, nothing.1, nothing.2⟩
  · obtain ⟨event, member, drops⟩ := List.any_eq_true.mp refuses
    unfold isDropRefusal at drops
    split at drops
    · rename_i plan kind msg
      obtain ⟨kindEq, msgEq⟩ := of_decide_eq_true drops
      subst kindEq
      exact ⟨plan, msg, member, msgEq⟩
    · cases drops

private def fineFault (fault : Fault) : Bool :=
  decide (fault.kind ≠ .invalidPlan) &&
    fault.node.all (fun node =>
      !decide (fault.kind = .noProgress) || decide (node ∉ fault.nodesDone.getD []))

private def fineEvent : Event → Bool
  | .consulted brief _ => brief.fault.all fineFault
  | _ => true

private theorem answerable_of_fine {record : List Event} (fine : record.all fineEvent = true) :
    Answerable record := by
  intro brief replied mem fault held
  have here := List.all_eq_true.mp fine _ mem
  simp only [fineEvent, held, Option.all_some, fineFault, Bool.and_eq_true, decide_eq_true_eq,
    Option.all_eq_true, Bool.or_eq_true, Bool.not_eq_true', decide_eq_false_iff_not] at here
  refine ⟨here.1, fun kind node named => ?_⟩
  rcases here.2 node named with other | unlisted
  · exact absurd kind other
  · exact unlisted

private def judgingAt : Option (Point × State) → Option (Json × State)
  | some (.judging false plan, state) => some (plan, state)
  | _ => none

/-- The brief after the failure of `pick` carries the finished recovery, and the
answer to it keeps it. -/
theorem brief_carries_work_reach :
    (∃ first brief replied rest fault, reachRecord = first ++ .consulted brief replied :: rest ∧
      brief.fault = some fault ∧ Carries first fault) ∧
    ∃ plan state, Reachable reachConfig reachWorld (.judging false plan, state) ∧
      successes state.trace = ["recover-reach", "reach"] ∧
        ¬ MonotoneObjects reachConfig state plan := by
  obtain ⟨briefs, judged⟩ := brief_carries_work reachConfig reachWorld
  constructor
  · obtain ⟨_, _, _, _, fails, asked⟩ := reachRecord_facts
    rw [Option.any_eq_true] at fails
    obtain ⟨fault, opens, kind⟩ := fails
    obtain ⟨brief, replied, rest, split, held⟩ := split_of_opensConsulted opens
    obtain ⟨other, same, carries⟩ := briefs _ recordOf_reachRecord _ brief replied rest split
      (List.any_eq_true.mp asked)
    rw [held] at same
    cases same
    exact ⟨_, brief, replied, rest, fault, split, held, carries.mpr (of_decide_eq_true kind)⟩
  · have arrives : (judgingAt (advance (step reachConfig reachWorld) 18 (.consulting, {}))).any
        (fun here => decide (successes here.2.trace = ["recover-reach", "reach"]) &&
          here.2.trace.all fineEvent) = true := by
      decide +kernel
    rw [Option.any_eq_true] at arrives
    obtain ⟨⟨plan, state⟩, found, facts⟩ := arrives
    rw [Bool.and_eq_true, decide_eq_true_eq] at facts
    unfold judgingAt at found
    split at found
    · rename_i other last arrived
      cases found
      have reached := reaches_of_advance arrived
      exact ⟨plan, state, reached, facts.1, judged reachRepairs reachPlan (by decide +kernel)
        (fun _ _ => rfl) rfl false plan state reached (answerable_of_fine facts.2)⟩
    · cases found

end Example

end Task
end PhysicalHarness
