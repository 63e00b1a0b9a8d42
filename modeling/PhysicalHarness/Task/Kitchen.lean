import PhysicalHarness.Task.Linear

namespace PhysicalHarness
namespace Task

open Python Protocol Loop Fallible

/-!
# The kitchen mission

`KitchenThawPlanner` answers every fault with `recover_plan` over one linear graph, in which
a segment is followed by the verify node that depends on it.  A segment that succeeded is
finished work and is skipped, so that the verify node of a step is dispatched again without
the segment, and no recovery is put in front of a finished segment.
-/

/-- `_CHAIN`. -/
def kitchenChain : List ChainStep :=
  [⟨"nav-fridge", "nav_fridge", "at-fridge", "v_at_fridge"⟩,
    ⟨"grasp", "grasp_meat", "grasped", "v_grasped"⟩,
    ⟨"nav-micro", "nav_micro", "at-micro", "v_carry"⟩,
    ⟨"place", "place_meat", "inside", "v_inside"⟩,
    ⟨"close", "close", "closed", "v_closed"⟩,
    ⟨"press", "press", "on", "v_on"⟩]

/-- `_emit_plan`. -/
def emitPlan : Json :=
  emitChain ("in ONE persistent kitchen episode, take the frozen meat from the fridge to the " ++
    "microwave and start it thawing -- survey, then for each appliance sub-goal drive a segment and " ++
    "verify the live state, retrying a failed sub-goal in the SAME world, closing with a machine report")
    kitchenChain

/-- `_RECOVERY` and `_RECOVERY_BY_MODE`. -/
def kitchenRepairs : Repairs where
  byStage := [("nav", "redock_retry"), ("grasp", "regrasp_kitchen"), ("place", "reapproach")]
  byMode := [("reach_stall", [("place", "base_nudge")])]

/-- `KitchenThawPlanner.plan`, on the task and the fault of the brief. -/
def planKitchenThaw [Host] (task : Json) (fault : Option Fault) : Except PyError Json :=
  if task.eq (.str "kitchen_thaw") then recoverPlan kitchenRepairs emitPlan fault
  else .error (.valueError ("KitchenThawPlanner only plans 'kitchen_thaw', got " ++ Host.repr task))

def Waits (plan : Json) (id dep : String) : Prop :=
  ∀ node ∈ nodesOf plan, idOf node = id → dep ∈ depsOf node

/-- What the planner keeps of a step of the chain: its verify node waits for its segment, the
segment for its recovery where there is one, and no recovery is put in front of the verify
node. -/
structure Woven (entry : ChainStep) (plan : Json) : Prop where
  listed : Listed plan
  waits : Waits plan entry.verify entry.segment
  kind : ∀ node ∈ nodesOf plan, idOf node = entry.verify → kindOf node = .str "verify"
  present : entry.segment ∈ idsOf plan
  linked : recoverId entry.segment ∈ idsOf plan → Waits plan entry.segment (recoverId entry.segment)
  bare : recoverId entry.verify ∉ idsOf plan

/-- The ids of a step are not those of recoveries. -/
def ChainStep.Plain (entry : ChainStep) : Prop :=
  recovered entry.segment = none ∧ recovered entry.verify = none

theorem ChainStep.Plain.segment {entry : ChainStep} (plain : entry.Plain) (id : String) :
    recoverId id ≠ entry.segment := by
  intro same
  have found := recovered_eq_some_iff.mpr same.symm
  rw [plain.1] at found
  cases found

theorem ChainStep.Plain.verify {entry : ChainStep} (plain : entry.Plain) (id : String) :
    recoverId id ≠ entry.verify := by
  intro same
  have found := recovered_eq_some_iff.mpr same.symm
  rw [plain.2] at found
  cases found

theorem mem_insertAt {target : String} {strategy node other : Json}
    (mem : other ∈ insertAt target strategy node) :
    (idOf other = recoverId target ∧ idOf node = target) ∨
      (idOf other = idOf node ∧ kindOf other = kindOf node ∧ (∀ dep ∈ depsOf node, dep ∈ depsOf other) ∧
        (idOf node = target → recoverId target ∈ depsOf other)) := by
  unfold insertAt at mem
  split at mem
  · rename_i due
    rcases List.mem_cons.mp mem with rfl | later
    · refine Or.inl ⟨?_, due.1⟩
      rw [idOf_recoveryNode, due.1]
    · rw [List.mem_singleton.mp later]
      refine Or.inr ⟨idOf_setField_after _ _, ?_, ?_, ?_⟩
      · rw [kindOf, Json.getD, Json.get?_setField, if_neg (by decide)]
        rfl
      · intro dep listed
        rw [depsOf_setField_after]
        exact List.mem_append_left _ listed
      · intro _
        rw [depsOf_setField_after, due.1]
        exact List.mem_append_right _ (.head _)
  · rename_i undue
    rw [List.mem_singleton.mp mem]
    refine Or.inr ⟨rfl, rfl, fun dep listed => listed, ?_⟩
    intro here
    by_contra absent
    exact undue ⟨here, absent⟩

theorem Woven.insert {entry : ChainStep} (plain : entry.Plain) {plan result strategy : Json}
    {target : String} (woven : Woven entry plan) (other : target ≠ entry.verify)
    (inserted : insertRecovery plan target strategy = .ok result) : Woven entry result := by
  rcases insertRecovery_eq_ok woven.listed inserted with ⟨listed, nodes, _⟩
  have origin : ∀ node ∈ nodesOf result, ∃ source ∈ nodesOf plan, node ∈ insertAt target strategy source := by
    intro node mem
    rw [nodes] at mem
    exact List.mem_flatMap.mp mem
  refine ⟨listed, ?_, ?_, ?_, ?_, ?_⟩
  · intro node mem here
    rcases origin node mem with ⟨source, known, inside⟩
    rcases mem_insertAt inside with ⟨fresh, _⟩ | ⟨same, _, grows, _⟩
    · exact absurd (fresh.symm.trans here) (plain.verify target)
    · exact grows _ (woven.waits source known (same.symm.trans here))
  · intro node mem here
    rcases origin node mem with ⟨source, known, inside⟩
    rcases mem_insertAt inside with ⟨fresh, _⟩ | ⟨same, kind, _, _⟩
    · exact absurd (fresh.symm.trans here) (plain.verify target)
    · exact kind.trans (woven.kind source known (same.symm.trans here))
  · exact (sublist_insertRecovery woven.listed inserted).subset woven.present
  · intro named node mem here
    rcases origin node mem with ⟨source, known, inside⟩
    rcases mem_insertAt inside with ⟨fresh, _⟩ | ⟨same, _, grows, links⟩
    · exact absurd (fresh.symm.trans here) (plain.segment target)
    · have source_ : idOf source = entry.segment := same.symm.trans here
      rcases List.mem_map.mp named with ⟨found, foundMember, foundId⟩
      rcases origin found foundMember with ⟨source', known', inside'⟩
      rcases mem_insertAt inside' with ⟨fresh, _⟩ | ⟨same', _, _, _⟩
      · have aimed := recoverId_injective (fresh.symm.trans foundId)
        rw [aimed] at links
        exact links source_
      · have old : recoverId entry.segment ∈ idsOf plan :=
          List.mem_map.mpr ⟨source', known', same'.symm.trans foundId⟩
        exact grows _ (woven.linked old source known source_)
  · intro named
    rcases List.mem_map.mp named with ⟨found, foundMember, foundId⟩
    rcases origin found foundMember with ⟨source, known, inside⟩
    rcases mem_insertAt inside with ⟨fresh, _⟩ | ⟨same, _, _, _⟩
    · exact other (recoverId_injective (fresh.symm.trans foundId))
    · exact woven.bare (List.mem_map.mpr ⟨source, known, same.symm.trans foundId⟩)

/-- No table of the card has a repair for the stage word of the verify node. -/
def ChainStep.Unrepaired (entry : ChainStep) : Prop :=
  lookupStrategy kitchenRepairs.byStage (stageOf entry.verify) = none ∧
    lookupStrategy [("place", "base_nudge")] (stageOf entry.verify) = none

instance (entry : ChainStep) : Decidable entry.Plain :=
  inferInstanceAs (Decidable (_ = none ∧ _ = none))

theorem repairStrategy_verify {entry : ChainStep} (unrepaired : entry.Unrepaired) {mode : Json}
    {strategy : Option Json} (found : repairStrategy kitchenRepairs mode entry.verify = .ok strategy) :
    strategy = none := by
  rcases of_bind found with ⟨_, _, found⟩
  have same := (Except.ok.inj found).symm
  rw [same, unrepaired.1, Option.or_none]
  change lookupStrategy ((((kitchenRepairs.byMode).find? _).map Prod.snd).getD []) _ = none
  rw [kitchenRepairs, List.find?_cons]
  split
  · exact unrepaired.2
  · rfl

theorem Woven.insertIf {entry : ChainStep} (plain : entry.Plain) {plan result : Json}
    {strategy : Option Json} {target : String} (woven : Woven entry plan)
    (other : target = entry.verify → strategy = none)
    (inserted : insertIf plan target strategy = .ok result) : Woven entry result := by
  cases strategy with
  | none =>
      cases inserted
      exact woven
  | some strategy =>
      refine woven.insert plain ?_ inserted
      intro same
      cases other same

theorem Woven.reinsert {entry : ChainStep} (plain : entry.Plain) {repairs : Repairs}
    {ran : List (String × Json)} {ids : List String} {plan result : Json} (woven : Woven entry plan)
    (fresh : recoverId entry.verify ∉ ids) (reinserted : reinsert repairs ran ids plan = .ok result) :
    Woven entry result := by
  induction ids generalizing plan with
  | nil =>
      cases reinserted
      exact woven
  | cons id rest ih =>
      have later : recoverId entry.verify ∉ rest := fun mem => fresh (.tail _ mem)
      rw [Protocol.reinsert] at reinserted
      cases named : recovered id with
      | none =>
          rw [named] at reinserted
          exact ih woven later reinserted
      | some node =>
          rw [named] at reinserted
          rcases of_bind reinserted with ⟨middle, inserted, reinserted⟩
          refine ih (woven.insertIf plain ?_ inserted) later reinserted
          intro same
          rw [recovered_eq_some_iff.mp named, same] at fresh
          exact absurd (.head _) fresh

theorem Woven.recover {entry : ChainStep} (plain : entry.Plain) (unrepaired : entry.Unrepaired)
    {plan result : Json} {fault : Option Fault} (woven : Woven entry plan)
    (fresh : ∀ given, fault = some given → recoverId entry.verify ∉ given.nodesDone.getD [])
    (replied : recoverPlan kitchenRepairs plan fault = .ok result) : Woven entry result := by
  cases fault with
  | none =>
      cases replied
      exact woven
  | some fault =>
      rcases of_bind replied with ⟨middle, reinserted, replied⟩
      have kept := woven.reinsert plain (fresh fault rfl) reinserted
      split at replied
      · cases named : fault.node with
        | none =>
            rw [named] at replied
            cases replied
        | some node =>
            rw [named] at replied
            rcases of_bind replied with ⟨strategy, chosen, inserted⟩
            refine kept.insertIf plain ?_ inserted
            intro same
            rw [same] at chosen
            exact repairStrategy_verify unrepaired chosen
      · cases replied
        exact kept

theorem woven_emitPlan : ∀ entry ∈ kitchenChain, Woven entry emitPlan := by
  have facts : ∀ entry ∈ kitchenChain, (∀ node ∈ nodesOf emitPlan, idOf node = entry.verify →
      entry.segment ∈ depsOf node ∧ (kindOf node).eq (.str "verify") = true) ∧
      entry.segment ∈ idsOf emitPlan ∧ recoverId entry.segment ∉ idsOf emitPlan ∧
      recoverId entry.verify ∉ idsOf emitPlan := by
    decide +kernel
  intro entry mem
  rcases facts entry mem with ⟨verify, present, unlinked, bare⟩
  refine ⟨listed_emitChain _ _, ?_, ?_, present, fun named => absurd named unlinked, bare⟩
  · exact fun node known here => (verify node known here).1
  · exact fun node known here => (Json.eq_str_iff _ _).mp (verify node known here).2

theorem plain_of_chain : ∀ entry ∈ kitchenChain, entry.Plain := by
  decide +kernel

theorem unrepaired_of_chain : ∀ entry ∈ kitchenChain, entry.Unrepaired := by
  have stages : ∀ entry ∈ kitchenChain, stageOf entry.verify ∉ ["nav", "grasp", "place"] := by
    decide +kernel
  intro entry mem
  have apart := stages entry mem
  simp only [List.mem_cons, List.not_mem_nil, or_false, not_or] at apart
  rcases apart with ⟨nav, grasp, place⟩
  constructor
  · simp [lookupStrategy, kitchenRepairs, Assoc.get?_cons, Ne.symm nav, Ne.symm grasp, Ne.symm place]
  · simp [lookupStrategy, Assoc.get?_cons, Ne.symm place]

/-! ## Runs -/

/-- Every plan in play keeps the step, and no recovery of its verify node has finished. -/
structure Weaves (entry : ChainStep) (here : Point × State) : Prop where
  fresh : recoverId entry.verify ∉ successes here.2.trace
  pending : ∀ plan, here.2.retryPlan = some plan → Woven entry plan
  inPlay : ∀ plan, here.1.plan? = some plan → Woven entry plan

def Weaving (entry : ChainStep) : Turn (Point × State) Final → Prop
  | .again next => Weaves entry next
  | .stop _ => True

section

variable [Host]

/-- The planner on its task, the handlers and the stop probe. -/
def kitchenWorld (handle : NodeKind → PlanNode → NodeView → List Event → Except PyError Result)
    (cancelled : List Event → Bool) : World where
  plan := fun brief _ => planKitchenThaw (.str "kitchen_thaw") brief.fault
  handle := handle
  cancelled := cancelled

variable {config : Config} {handle : NodeKind → PlanNode → NodeView → List Event → Except PyError Result}
  {cancelled : List Event → Bool} {state : State} {plan : Json} {next : Turn (Point × State) Final}
  {entry : ChainStep}

theorem reply_kitchen {replied : Json}
    (answered : reply config.asking (kitchenWorld handle cancelled) state = .ok replied) :
    recoverPlan kitchenRepairs emitPlan state.fault = .ok replied := answered

theorem weaving_of_proposed (mem : entry ∈ kitchenChain) (books : Books state)
    (current : Current (.consulting, state)) (weaves : Weaves entry (.consulting, state))
    (taken : Proposed config.asking (kitchenWorld handle cancelled) state next) : Weaving entry next := by
  cases taken with
  | again plan pending =>
      refine ⟨weaves.fresh, nofun, ?_⟩
      rintro _ ⟨⟩
      exact weaves.pending plan pending
  | asked plan idle replied =>
      refine ⟨?_, fun other held => weaves.pending other held, ?_⟩
      · change recoverId entry.verify ∉ successes (state.trace ++ [_])
        rw [successes_snoc_of_silent rfl]
        exact weaves.fresh
      · rintro _ ⟨⟩
        refine (woven_emitPlan entry mem).recover (plain_of_chain entry mem)
          (unrepaired_of_chain entry mem) ?_ (reply_kitchen replied)
        intro fault held
        have attached := (current idle).2 fault held
        by_cases kind : fault.kind = .invalidPlan
        · rw [(attached.bare kind).1]
          exact List.not_mem_nil
        · rw [(attached.full kind).1, Option.getD_some, books.nodesDone_perm.mem_iff]
          exact weaves.fresh
  | crashed error idle replied => trivial

theorem weaving_of_settled {retry : Bool} (weaves : Weaves entry (.judging retry plan, state))
    (taken : Settled config retry plan state next) : Weaving entry next := by
  have quiet : ∀ event, finishedBy event = none →
      recoverId entry.verify ∉ successes (state.trace ++ [event]) := by
    intro event silent
    rw [successes_snoc_of_silent silent]
    exact weaves.fresh
  cases taken with
  | crashed error verdict => trivial
  | _ => exact ⟨quiet _ rfl, weaves.pending, weaves.inPlay⟩

variable {node : PlanNode} {rest : List PlanNode}

omit [Host] in
theorem mem_successes_sent {past : List Event} {outcome : Outcome} {id : String}
    (mem : id ∈ successes (past ++ [.polled false] ++ [.dispatched plan node outcome])) :
    id ∈ successes past ∨ id = node.id := by
  rw [successes_append, successes_snoc_of_silent rfl] at mem
  rcases List.mem_append.mp mem with earlier | last
  · exact Or.inl earlier
  · apply Or.inr
    unfold successes finishedWork at last
    rcases List.mem_map.mp last with ⟨done, listed, rfl⟩
    rcases List.mem_filterMap.mp listed with ⟨event, only, finished⟩
    rw [List.mem_singleton.mp only] at finished
    cases outcome with
    | raised error => cases finished
    | returned result =>
        have done_ : (if result.success then some (plan, node) else none) = some done := finished
        split at done_
        · cases done_
          rfl
        · cases done_

theorem weaving_of_visited {world : World} (listed : node.id ∈ idsOf plan)
    (weaves : Weaves entry (.running plan (node :: rest), state))
    (taken : Visited config world plan node rest state next) : Weaving entry next := by
  have woven := weaves.inPlay plan rfl
  have other : recoverId entry.verify ≠ node.id := fun same => woven.bare (same ▸ listed)
  have polled : ∀ fired, recoverId entry.verify ∉ successes (state.trace ++ [.polled fired]) := by
    intro fired
    rw [successes_snoc_of_silent rfl]
    exact weaves.fresh
  have sent : ∀ outcome, recoverId entry.verify ∉
      successes (state.trace ++ [.polled false] ++ [.dispatched plan node outcome]) := by
    intro outcome mem
    exact (mem_successes_sent mem).elim weaves.fresh other
  cases taken with
  | cancelled fired => exact ⟨polled true, weaves.pending, weaves.inPlay⟩
  | skipped finished => exact ⟨polled false, weaves.pending, weaves.inPlay⟩
  | exhausted due spent => exact ⟨polled false, weaves.pending, weaves.inPlay⟩
  | unknown due affordable kindless => trivial
  | crashed error due affordable kind view record called other => trivial
  | _ => exact ⟨sent _, weaves.pending, weaves.inPlay⟩

theorem weaving_of_answered {executed : Bool} {fault : Fault}
    (weaves : Weaves entry (.answering plan executed fault, state))
    (taken : Answered config state plan executed fault next) : Weaving entry next := by
  have quiet : recoverId entry.verify ∉ successes (state.trace ++ [.faulted fault]) := by
    rw [successes_snoc_of_silent rfl]
    exact weaves.fresh
  cases taken with
  | retried spec goes scanned retries =>
      refine ⟨quiet, ?_, nofun⟩
      rintro _ ⟨⟩
      exact weaves.inPlay plan rfl
  | replanned spec goes scanned stays affordable =>
      exact ⟨quiet, weaves.pending, nofun⟩
  | _ => trivial

theorem weaves_of_reachable (mem : entry ∈ kitchenChain) {here : Point × State}
    (reached : Reachable config.asking (kitchenWorld handle cancelled) here) : Weaves entry here := by
  refine reached.invariant ⟨List.not_mem_nil, nofun,
    nofun⟩ ?_
  intro before after way weaves stepped
  have holds := holds_of_reachable way
  have current := current_of_reachable way
  have weaving : Weaving entry (step config.asking (kitchenWorld handle cancelled) before) := by
    rcases before with ⟨point, state⟩
    cases point with
    | consulting => exact weaving_of_proposed mem holds current weaves (proposed _ _ _)
    | judging retry plan => exact weaving_of_settled weaves (settled _ _ _ _)
    | running plan rest =>
        cases rest with
        | nil => trivial
        | cons node rest =>
            exact weaving_of_visited (listed_of_among holds.2) weaves (visited _ _ _ _ _ _)
    | answering plan executed fault => exact weaving_of_answered weaves (answered _ _ _ _ _)
  rw [stepped] at weaving
  exact weaving

theorem always_of_dispatches {world : World} {allowed : List Event → Event → Prop}
    (quiet : ∀ past event, (∀ plan node outcome, event ≠ .dispatched plan node outcome) →
      allowed past event)
    (made : ∀ plan node rest state, Reachable config world (.running plan (node :: rest), state) →
      world.cancelled state.trace = false → state.finished node.id = false →
      (state.actuations : Int) < config.maxActuations → ∀ outcome,
        allowed (state.trace ++ [.polled false]) (.dispatched plan node outcome))
    {record : List Event} (recorded : RecordOf config world record) : Always allowed record := by
  refine always_of_events ?_ (fun _ _ _ _ => quiet _ _ (fun _ _ _ => Event.noConfusion))
    (fun _ _ _ _ _ => quiet _ _ (fun _ _ _ => Event.noConfusion)) made recorded
  intro past event silent
  apply quiet
  intro plan node outcome same
  rw [same] at silent
  cases silent

def Chained (entry : ChainStep) (past : List Event) : Event → Prop
  | .dispatched _ node _ =>
      node.id ∉ successes past ∧ (node.id = entry.verify → entry.segment ∈ successes past) ∧
        (node.id = recoverId entry.segment → entry.segment ∉ successes past) ∧
        node.id ≠ recoverId entry.verify
  | _ => True

omit [Host] in
theorem unfinished_of_recovery (woven : Woven entry plan) (among : Among plan (node :: rest) state)
    (due : node.id ∉ successes state.trace) (repairs : node.id = recoverId entry.segment) :
    entry.segment ∉ successes state.trace := by
  intro finished
  rcases among.due due with ⟨first, split, done⟩
  have named : recoverId entry.segment ∈ idsOf plan := repairs ▸ listed_of_among among
  rw [done] at finished due
  rcases List.mem_map.mp finished with ⟨segment, inside, id⟩
  rcases List.append_of_mem inside with ⟨before, after, parts⟩
  have whole : planNodes plan = before ++ segment :: (after ++ node :: rest) := by
    rw [split, parts, List.append_assoc]
    rfl
  have mem : segment ∈ planNodes plan := by
    rw [whole]
    exact List.mem_append_right _ (.head _)
  rcases List.mem_map.mp mem with ⟨raw, known, rfl⟩
  have waits := woven.linked named raw known id
  have earlier := among.inOrder.earlier before _ _ whole _ waits
  rw [repairs, parts, List.map_append] at due
  exact due (List.mem_append_left _ earlier)

theorem chained_of_recordOf (mem : entry ∈ kitchenChain) {record : List Event}
    (recorded : RecordOf config.asking (kitchenWorld handle cancelled) record) :
    Always (Chained entry) record := by
  refine always_of_dispatches ?_ ?_ recorded
  · intro past event other
    cases event with
    | dispatched plan node outcome => exact absurd rfl (other plan node outcome)
    | _ => trivial
  · intro plan node rest state reached _ unfinished _ outcome
    have holds := holds_of_reachable reached
    have woven := (weaves_of_reachable mem reached).inPlay plan rfl
    have listed := listed_of_among holds.2
    have due : node.id ∉ successes state.trace := by
      intro done
      rw [(holds.1.rows node.id).mpr done] at unfinished
      cases unfinished
    have quiet : successes (state.trace ++ [.polled false]) = successes state.trace :=
      successes_snoc_of_silent rfl
    change node.id ∉ successes (state.trace ++ [.polled false]) ∧ _
    rw [quiet]
    refine ⟨due, ?_, unfinished_of_recovery woven holds.2 due, fun same => woven.bare (same ▸ listed)⟩
    intro verifies
    rcases raw_of_among holds.2 with ⟨raw, known, same⟩
    have waits : entry.segment ∈ depsOf raw :=
      woven.waits raw known ((congrArg PlanNode.id same).trans verifies)
    exact holds.2.after_done due _ (by rw [← same]; exact waits)

def Fails : Outcome → Prop
  | .returned result => result.success = false
  | .raised _ => True

def FailedIn (record : List Event) (id : String) : Prop :=
  ∃ plan node outcome, Event.dispatched plan node outcome ∈ record ∧ node.id = id ∧ Fails outcome

/-- The event dispatches the segment of the step, or a recovery for it. -/
def ChainStep.Redrives (entry : ChainStep) : Event → Prop
  | .dispatched _ node _ =>
      node.id = entry.segment ∨ node.id = recoverId entry.segment ∨ node.id = recoverId entry.verify
  | _ => False

/-- Whenever the verify node of a step fails and is dispatched again, the segment of the step
or a recovery for it is dispatched in between. -/
def Redriven (record : List Event) : Prop :=
  ∀ entry ∈ kitchenChain, ∀ past plan node outcome between plan' node' outcome' later,
    record = past ++ .dispatched plan node outcome :: (between ++ .dispatched plan' node' outcome' :: later) →
    node.id = entry.verify → Fails outcome → node'.id = entry.verify →
    ∃ event ∈ between, entry.Redrives event

/-- A verify node that failed and is next is not dispatched: the operator stops the run, or the
budget is spent. -/
def Blocked (config : Config) (world : World) : Point × State → Prop
  | (.running _ (node :: _), state) =>
      (∃ entry ∈ kitchenChain, node.id = entry.verify ∧ FailedIn state.trace entry.verify) →
        state.finished node.id = false →
        world.cancelled state.trace = true ∨ config.maxActuations ≤ state.actuations
  | _ => True

omit [Host] in
theorem not_redriven {past between later : List Event} {plan plan' : Json} {node' : PlanNode}
    {outcome outcome' : Outcome}
    (chained : Always (Chained entry)
      (past ++ .dispatched plan node outcome :: (between ++ .dispatched plan' node' outcome' :: later)))
    (verifies : node.id = entry.verify) : ∀ event ∈ between, ¬ entry.Redrives event := by
  intro event mem redrives
  have first := (chained past _ _ rfl).2.1 verifies
  rcases List.append_of_mem mem with ⟨before, after, split⟩
  have here : Chained entry (past ++ .dispatched plan node outcome :: before) event := by
    refine chained _ event (after ++ .dispatched plan' node' outcome' :: later) ?_
    rw [split]
    simp only [List.append_assoc, List.cons_append]
  have finished : entry.segment ∈ successes (past ++ .dispatched plan node outcome :: before) := by
    rw [successes_append]
    exact List.mem_append_left _ first
  cases event with
  | dispatched plan_ node_ outcome_ =>
      rcases redrives with segment | repaired | other
      · exact here.1 (segment ▸ finished)
      · exact here.2.2.1 repaired finished
      · exact here.2.2.2 other
  | _ => exact redrives

theorem exists_record_of_due {world : World} {kind : NodeKind}
    (reached : Reachable config world (.running plan (node :: rest), state))
    (silent : world.cancelled state.trace = false) (due : state.finished node.id = false)
    (affordable : (state.actuations : Int) < config.maxActuations)
    (known : NodeKind.ofJson node.kind = some kind) :
    ∃ outcome, RecordOf config world
      (state.trace ++ [.polled false] ++ [.dispatched plan node outcome]) := by
  have stepped : step config world (.running plan (node :: rest), state) =
    visit config world plan node rest state := rfl
  have taken := visited config world plan node rest state
  generalize visit config world plan node rest state = next at taken stepped
  cases taken with
  | cancelled fired =>
      rw [silent] at fired
      cases fired
  | skipped finished =>
      rw [due] at finished
      cases finished
  | exhausted due_ spent => exact absurd affordable (Int.not_lt.mpr spent)
  | unknown due_ affordable_ kindless =>
      rw [known] at kindless
      cases kindless
  | crashed error due_ affordable_ kind_ view record called other =>
      rcases exists_run config world with ⟨fuel, final, ran⟩
      rcases Option.map_eq_some_iff.mp ran with ⟨last, stopped, closed⟩
      rcases exists_iterate_of_reaches reached stopped with ⟨left, ends⟩
      cases left with
      | zero => cases ends
      | succ left =>
          rw [iterate, stepped] at ends
          cases ends
          cases closed
          exact ⟨_, .ended ran⟩
  | _ => exact ⟨_, .underway (reached.again stepped)⟩

/-- No verify node that is dispatched again after it failed comes with its segment: the
promise holds of a run in which none is dispatched again, and of no other. -/
theorem verify_redriven_iff (config : Config)
    (handle : NodeKind → PlanNode → NodeView → List Event → Except PyError Result)
    (cancelled : List Event → Bool) :
    (∀ record, RecordOf config.asking (kitchenWorld handle cancelled) record → Redriven record) ↔
      ∀ here, Reachable config.asking (kitchenWorld handle cancelled) here →
        Blocked config.asking (kitchenWorld handle cancelled) here := by
  constructor
  · intro redriven here reached
    rcases here with ⟨point, state⟩
    cases point with
    | running plan rest =>
        cases rest with
        | nil => trivial
        | cons node rest =>
            rintro ⟨entry, member, verifies, planBefore, nodeBefore, outcomeBefore, failed, same, fails⟩ due
            by_contra goes_on
            rw [not_or, Bool.not_eq_true, not_le] at goes_on
            have among := (holds_of_reachable reached).2
            have woven := (weaves_of_reachable member reached).inPlay plan rfl
            rcases raw_of_among among with ⟨raw, known, read⟩
            have verifies_ : idOf raw = entry.verify := (congrArg PlanNode.id read).trans verifies
            have kind : NodeKind.ofJson node.kind = some .verify := by
              rw [← read]
              change NodeKind.ofJson (kindOf raw) = _
              rw [woven.kind raw known verifies_]
              rfl
            rcases exists_record_of_due reached goes_on.1 due goes_on.2 kind with ⟨outcome, recorded⟩
            rcases List.append_of_mem failed with ⟨past, between, split⟩
            have parts : state.trace ++ [.polled false] ++ [.dispatched plan node outcome] =
                past ++ .dispatched planBefore nodeBefore outcomeBefore ::
                  (between ++ [.polled false] ++ .dispatched plan node outcome :: []) := by
              rw [split]
              simp only [List.append_assoc, List.cons_append]
            have chained := chained_of_recordOf member recorded
            rcases redriven _ recorded entry member past planBefore nodeBefore outcomeBefore _ plan node
              outcome [] parts same fails verifies with ⟨event, inside, redrives⟩
            rw [parts] at chained
            exact not_redriven chained same event inside redrives
    | _ => trivial
  · intro blocked record recorded entry member past plan node outcome between plan' node' outcome' later
      split verifies fails verifies'
    have once : Always (fun past event => ∀ plan node outcome, event = .dispatched plan node outcome →
        node.id = entry.verify → ¬ FailedIn past entry.verify) record := by
      refine always_of_dispatches ?_ ?_ recorded
      · intro past event other plan node outcome same
        exact absurd same (other plan node outcome)
      · rintro plan node rest state reached silent due affordable _ _ _ _ ⟨⟩ again failed
        have before : FailedIn state.trace entry.verify := by
          rcases failed with ⟨planBefore, nodeBefore, outcomeBefore, logged, rest_⟩
          refine ⟨planBefore, nodeBefore, outcomeBefore, ?_, rest_⟩
          rcases List.mem_append.mp logged with earlier | polled
          · exact earlier
          · cases List.mem_singleton.mp polled
        rcases blocked _ reached ⟨entry, member, again, before⟩ due with fired | spent
        · rw [silent] at fired
          cases fired
        · exact absurd affordable (Int.not_lt.mpr spent)
    have here := once (past ++ .dispatched plan node outcome :: between) _ later (by
      rw [split]
      simp only [List.append_assoc, List.cons_append]) plan' node' outcome' rfl verifies'
    refine absurd ⟨plan, node, outcome, ?_, verifies, fails⟩ here
    exact List.mem_append_right _ List.mem_cons_self

end

section Example

local instance kitchenHost : Host := asciiHost

/-- The brief of the card, without contract records. -/
def kitchenConfig : Config where
  catalogue := ["survey", "plan", "nav_fridge", "v_at_fridge", "grasp_meat", "v_grasped", "nav_micro",
    "v_carry", "place_meat", "v_inside", "close", "v_closed", "press", "v_on", "report"].map (fun skill => (skill, []))
  oracles := ["staged", "reported"]
  requirements := []
  records := []
  facts := []
  objects := []
  graph := .null
  seed := 0
  maxReplans := 3
  maxActuations := 20
  segmentRetries := 1

/-- Everything succeeds except the check that the fridge is open. -/
def shutFridge (_ : NodeKind) (node : PlanNode) (_ : NodeView) (_ : List Event) : Except PyError Result :=
  .ok { success := decide (node.id ≠ "at-fridge") }

private def sent : List Event → Option (Json × PlanNode × Outcome)
  | .dispatched plan node outcome :: _ => some (plan, node, outcome)
  | _ => none

private theorem eq_of_sent {events : List Event} {plan : Json} {node : PlanNode} {outcome : Outcome}
    (first : sent events = some (plan, node, outcome)) :
    events = .dispatched plan node outcome :: events.tail := by
  unfold sent at first
  split at first
  · cases first
    rfl
  · cases first

instance (outcome : Outcome) : Decidable (Fails outcome) :=
  match outcome with
  | .returned result => inferInstanceAs (Decidable (result.success = false))
  | .raised _ => .isTrue trivial

/-- The check of the fridge is the tenth event and the eighteenth, and fails. -/
private def shutTwice (here : Point × State) : Bool :=
  (sent (here.2.trace.drop 9)).any (fun first => decide (first.2.1.id = "at-fridge" ∧ Fails first.2.2)) &&
    (sent ((here.2.trace.drop 10).drop 7)).any (fun again => decide (again.2.1.id = "at-fridge"))

/-- The check that fails is repeated at once, and the fridge is not driven to again. -/
theorem check_repeated_without_drive :
    ∃ record, RecordOf kitchenConfig.asking (kitchenWorld shutFridge (fun _ => false)) record ∧
      ¬ Redriven record := by
  have twice : (advance (step kitchenConfig.asking (kitchenWorld shutFridge (fun _ => false))) 13
      (.consulting, {})).any shutTwice = true := by
    decide +kernel
  rw [Option.any_eq_true] at twice
  rcases twice with ⟨here, arrived, checks⟩
  have recorded := RecordOf.underway (reaches_of_advance arrived)
  rw [shutTwice, Bool.and_eq_true, Option.any_eq_true, Option.any_eq_true] at checks
  rcases checks with ⟨⟨⟨plan, node, outcome⟩, first, facts⟩, ⟨plan', node', outcome'⟩, again, verifies'⟩
  rcases of_decide_eq_true facts with ⟨verifies, fails⟩
  have split : here.2.trace = here.2.trace.take 9 ++ .dispatched plan node outcome ::
      ((here.2.trace.drop 10).take 7 ++
        .dispatched plan' node' outcome' :: ((here.2.trace.drop 10).drop 7).tail) := by
    have tail : (here.2.trace.drop 9).tail = here.2.trace.drop 10 := List.tail_drop
    rw [← eq_of_sent again, List.take_append_drop, ← tail, ← eq_of_sent first, List.take_append_drop]
  refine ⟨_, recorded, ?_⟩
  intro redriven
  have listed : ⟨"nav-fridge", "nav_fridge", "at-fridge", "v_at_fridge"⟩ ∈ kitchenChain :=
    List.mem_cons_self
  have chained := chained_of_recordOf listed recorded
  rcases redriven _ listed _ plan node outcome _ plan' node' outcome' _ split verifies fails
    (of_decide_eq_true verifies') with ⟨event, inside, redrives⟩
  rw [split] at chained
  exact not_redriven chained verifies event inside redrives

end Example

end Task
end PhysicalHarness
