import PhysicalHarness.Rsi.Campaign

namespace PhysicalHarness
namespace Rsi

open Python Harness JsonText Fallible

/-!
# Promotion never sees the held-out block

Until the last generation every rollout is one of a seed of the reservoir.  Two executors
that agree on those seeds run the same generations, whatever they return for the others;
the held-out block decides nothing but its own entries of the result.
-/

/-- The same campaign on another executor. -/
def Setting.on (setting : Setting) (executor : Executor) : Setting := { setting with executor }

/-- A reasoner that is a function of the evidence: it uses neither the seeds, the executor
nor the store of its brief. -/
def evidenceReasoner (identity : Option String)
    (propose : List (List (String × List Double)) → List Bool → Nat → Bundle → List String → Reply) :
    Reasoner where
  identity := identity
  propose := fun brief =>
    propose brief.traces brief.labels brief.generation brief.parent brief.strategies

theorem seed_of_specsOf {seeds : List Int} {prereg : Preregistration} {spec : RolloutSpec}
    (mem : spec ∈ specsOf seeds prereg) : spec.seed ∈ seeds := by
  rcases List.mem_map.mp mem with ⟨seed, listed, rfl⟩
  exact listed

theorem mem_of_sliceTo {α : Type} {items : List α} {count : Int} {item : α}
    (mem : item ∈ sliceTo items count) : item ∈ items := by
  rw [sliceTo] at mem
  split at mem
  · exact List.mem_of_mem_take mem
  · exact List.mem_of_mem_take mem

section

variable [Libm]

theorem seed_of_planned {prereg : Preregistration} {session next : Session} {generation : Nat}
    {specs : List RolloutSpec} (sized : planned prereg session generation = .ok (next, specs)) :
    ∀ spec ∈ specs, spec.seed ∈ prereg.dev := by
  intro spec mem
  rw [planned] at sized
  split at sized
  · rcases map_eq_ok.mp sized with ⟨plan, _, same⟩
    cases same
    exact seed_of_specsOf (mem_of_sliceTo mem)
  · cases sized
    exact seed_of_specsOf mem

end

section

variable [Host] [Sha256] [FloatText] [Libm]
variable {setting : Setting} {prereg : Preregistration} {left right : Executor}

omit [Host] [Libm] in
theorem gatesOf_congr (agree : AgreeOn prereg.dev left right) {specs : List RolloutSpec}
    (within : ∀ spec ∈ specs, spec.seed ∈ prereg.dev) (generation : Nat) (bundle child : Bundle)
    (rule : Rule) : gatesOf (setting.on left) generation specs bundle child rule =
      gatesOf (setting.on right) generation specs bundle child rule := by
  have dev := pairedGate_congr setting.installed agree (.gate generation) within child bundle.arm
  have blind := fun twin : Bundle =>
    pairedGate_congr setting.installed agree (.blindGate generation) within child (some twin)
  rw [gatesOf, gatesOf]
  change ((pairedGate setting.installed left (.gate generation) specs child bundle.arm).bind
    (fun dev => (raised (bundle.append setting.installed.repertoire (blindTwin rule))).bind
      (fun twin => (pairedGate setting.installed left (.blindGate generation) specs child
        (some twin)).bind (fun blind => .ok (Gates.mk dev blind))))) = _
  simp only [dev, blind]
  rfl

omit [Host] [Libm] in
theorem judge_congr (agree : AgreeOn prereg.dev left right) {specs : List RolloutSpec}
    (within : ∀ spec ∈ specs, spec.seed ∈ prereg.dev) (preregSha : String) (generation : Nat)
    (labels : List Bool) (session : Session) (rule : Rule) :
    judge (setting.on left) prereg preregSha generation specs labels session rule =
      judge (setting.on right) prereg preregSha generation specs labels session rule := by
  rw [judge, judge]
  refine Logged.lift_bind_congr (fun child _ => ?_)
  rw [gatesOf_congr agree within]
  rfl

theorem generationOf_congr {identity : Option String}
    {propose : List (List (String × List Double)) → List Bool → Nat → Bundle → List String → Reply}
    (agree : AgreeOn prereg.dev left right) (preregSha : String) :
    generationOf (setting.on left) (evidenceReasoner identity propose) prereg preregSha =
      generationOf (setting.on right) (evidenceReasoner identity propose) prereg preregSha := by
  funext session generation
  rw [generationOf, generationOf]
  refine Logged.lift_bind_congr (fun sized planned_ => ?_)
  rcases sized with ⟨next, specs⟩
  have within := seed_of_planned planned_
  have jobs : ∀ job ∈ specs.map (Job.mk · next.bundle.arm), job.spec.seed ∈ prereg.dev := by
    intro job mem
    rcases List.mem_map.mp mem with ⟨spec, listed, rfl⟩
    exact within spec listed
  have current := map_congr agree (.current generation) jobs
  change Logged.lift (left.map (.current generation) _) >>= _ =
    Logged.lift (right.map (.current generation) _) >>= _
  rw [current]
  refine Logged.lift_bind_congr (fun results _ => ?_)
  -- the brief of such a reasoner does not depend on the executor
  refine bind_congr (m := Logged Put CampaignError) (fun candidate => ?_)
  cases candidate with
  | none => rfl
  | some rule => exact judge_congr agree within preregSha generation _ next rule

theorem untilHeldout_congr {identity : Option String}
    {propose : List (List (String × List Double)) → List Bool → Nat → Bundle → List String → Reply}
    (agree : AgreeOn prereg.dev left right)
    (asks : setting.reasoner = some (evidenceReasoner identity propose)) :
    untilHeldout (setting.on left) prereg = untilHeldout (setting.on right) prereg := by
  rw [untilHeldout, untilHeldout]
  refine Logged.lift_bind_congr (fun outcome admits => ?_)
  rcases outcome with ⟨reasoner, named⟩
  rcases admitted_eq_ok admits with ⟨given_, name, rfl⟩
  have same : reasoner = evidenceReasoner identity propose :=
    (Option.some.inj (asks.symm.trans given_)).symm
  have agree_ : AgreeOn (prereg.proposedBy name).dev left right := agree
  have generations : generationOf (setting.on left) (evidenceReasoner identity propose)
        (prereg.proposedBy name) (shaJson (prereg.proposedBy name).hashPayload) =
      generationOf (setting.on right) (evidenceReasoner identity propose)
        (prereg.proposedBy name) (shaJson (prereg.proposedBy name).hashPayload) :=
    generationOf_congr agree_ _
  have evolves : evolve (setting.on left) reasoner (prereg.proposedBy name)
        (shaJson (prereg.proposedBy name).hashPayload) =
      evolve (setting.on right) reasoner (prereg.proposedBy name)
        (shaJson (prereg.proposedBy name).hashPayload) := by
    rw [same, evolve, evolve, generations]
    rfl
  change Logged.write _ >>= (fun _ => evolve (setting.on left) reasoner (prereg.proposedBy name) _ >>= _) =
    Logged.write _ >>= (fun _ => evolve (setting.on right) reasoner (prereg.proposedBy name) _ >>= _)
  rw [evolves]
  rfl

end

/-! ## The held-out block -/

/-- The payloads of the generation artifacts, in order. -/
def generationArtifacts (puts : List Put) : List Json :=
  (puts.filter (fun put => put.kind = "generation")).map Put.payload

/-- What the result says of the final bundle and of the power plans. -/
def CampaignResult.decision (result : CampaignResult) : String × List PowerPlan :=
  (result.finalSha, result.powerPlans)

section

variable [Host] [Sha256] [FloatText] [Libm]

/-- What a campaign has decided when it comes to the held-out block. -/
def decided (setting : Setting) (prereg : Preregistration) :
    Except CampaignError (String × List PowerPlan) :=
  (untilHeldout setting prereg []).1.map (fun outcome => outcome.2.2.decision)

theorem decided_of_returned {setting : Setting} {prereg : Preregistration} {result : CampaignResult}
    (returned : (runCampaign setting prereg []).1 = .ok result) :
    decided setting prereg = .ok result.decision := by
  have ran : runCampaign setting prereg [] = (.ok result, (runCampaign setting prereg []).2) :=
    Prod.ext returned rfl
  rcases Logged.bind_eq_ok.mp ran with ⟨outcome, middle, until_, finish_⟩
  have unscored : result.unscored.decision = outcome.2.2.unscored.decision :=
    congrArg CampaignResult.decision (unscored_finish finish_)
  have same : result.decision = outcome.2.2.decision := unscored
  rw [decided, until_, same]
  rfl

theorem generationArtifacts_runCampaign (setting : Setting) (prereg : Preregistration) :
    generationArtifacts (runCampaign setting prereg []).2 =
      generationArtifacts (untilHeldout setting prereg []).2 := by
  have whole : runCampaign setting prereg [] =
      Logged.andThen (untilHeldout setting prereg) (finish setting) [] := rfl
  rw [whole, Logged.andThen]
  generalize untilHeldout setting prereg [] = outcome
  rcases outcome with ⟨_ | decided, puts⟩
  · rfl
  · rcases writes_finish setting decided puts with ⟨more, added, kinds⟩
    change generationArtifacts (finish setting decided puts).2 = _
    have none_ : more.filter (fun put => put.kind = "generation") = [] := by
      rw [List.filter_eq_nil_iff]
      intro put mem generation
      rcases kinds put mem with ⟨final, rfl⟩
      cases generation
    rw [added, generationArtifacts, generationArtifacts, List.filter_append, none_, List.append_nil]

/-- Whatever the executors return for other seeds, the generations, the final bundle and
the power plans are the same. -/
theorem promotion_never_sees_heldout (setting : Setting) (prereg : Preregistration)
    (identity : Option String)
    (propose : List (List (String × List Double)) → List Bool → Nat → Bundle → List String → Reply)
    (asks : setting.reasoner = some (evidenceReasoner identity propose)) (left right : Executor)
    (agree : AgreeOn prereg.dev left right) :
    generationArtifacts (runCampaign (setting.on left) prereg []).2 =
      generationArtifacts (runCampaign (setting.on right) prereg []).2 ∧
    decided (setting.on left) prereg = decided (setting.on right) prereg ∧
    (∀ executor result, (runCampaign (setting.on executor) prereg []).1 = .ok result →
      decided (setting.on executor) prereg = .ok result.decision) ∧
    (∀ first second, (runCampaign (setting.on left) prereg []).1 = .ok first →
      (runCampaign (setting.on right) prereg []).1 = .ok second →
        first.finalSha = second.finalSha ∧ first.powerPlans = second.powerPlans) := by
  have same := untilHeldout_congr agree asks
  have decides : decided (setting.on left) prereg = decided (setting.on right) prereg := by
    rw [decided, decided, same]
  refine ⟨?_, decides, fun executor result returned => decided_of_returned returned, ?_⟩
  · rw [generationArtifacts_runCampaign, generationArtifacts_runCampaign, same]
  · intro first second returned returned_
    have here := decided_of_returned returned
    rw [decides, decided_of_returned returned_] at here
    have equal := Prod.mk.inj (Except.ok.inj here)
    exact ⟨equal.1.symm, equal.2.symm⟩

end

section

local instance heldHost : Host := asciiHost

local instance heldSha : Sha256 := sha256

local instance heldFloats : FloatText := exactDecimals

local instance heldLibm : Libm := productPow

/-- One seed to develop on and one held out. -/
def smallPreregistration : Preregistration where
  dev := [1]
  heldout := [2]
  perceptNoise := Double.nearest 0
  criticBudget := 0
  actionBudget := 0
  recoverySensorSd := Double.nearest (1 / 50)
  maxGenerations := 2
  task := "lift"
  policy := "scripted"
  scaleDevByPower := false
  powerFixShare := Double.nearest (4 / 5)
  powerTarget := Double.nearest (4 / 5)
  minFixed := 1
  alpha := Double.nearest (1 / 20)
  searchRecovery := false
  recoverySearchN := 60
  screenTriggers := false
  priorDiscordanceYield := Double.nearest (7 / 10)
  minDiscordanceYield := Double.nearest (1 / 20)
  screenSearchFraction := Double.nearest (1 / 2)
  requireJudgement := false
  judgementFixShare := Double.nearest (7 / 10)
  priorJudgementYield := Double.nearest (7 / 20)
  earliness := Double.nearest 0
  fpPenalty := Double.nearest (6 / 5)
  recoveryName := "regrasp"
  parentStore := none
  parentFinalSha := none
  reasoner := none
  stages := none
  terminalLabel := false
  segmentIsolate := none
  horizon := 900
  envProvider := none
  policyProvider := none
  perceptProvider := defaultPerceptRef
  apart := by decide

/-- The label of an episode is a function of its seed. -/
def labelled (success : Int → Bool) : Executor :=
  ⟨fun _ job => .ok ⟨success job.spec.seed, none, [], none⟩⟩

def constantProposal (_traces : List (List (String × List Double))) (_labels : List Bool)
    (_generation : Nat) (_parent : Bundle) (_strategies : List String) : Reply :=
  ⟨[], .ok (.rule (sealedRule (1 / 2)))⟩

def smallSetting : Setting where
  installed := ⟨⟨[("observable.finger_gap", .observable)], by decide⟩, ⟨[]⟩, []⟩
  executor := labelled (fun _ => false)
  reasoner := some (evidenceReasoner (some "constant") constantProposal)
  clock := fun _ => Double.nearest 0
  directory := .fresh
  directories := fun _ _ => .fresh
  depth := 0

/-- The held-out seed fails for one executor and succeeds for the other. -/
theorem promotion_never_sees_heldout_small :
    generationArtifacts (runCampaign (smallSetting.on (labelled (fun _ => false)))
        smallPreregistration []).2 =
      generationArtifacts (runCampaign (smallSetting.on (labelled (fun seed => decide (seed = 2))))
        smallPreregistration []).2 :=
  (promotion_never_sees_heldout smallSetting smallPreregistration (some "constant") constantProposal rfl
    (labelled (fun _ => false)) (labelled (fun seed => decide (seed = 2))) (by
      intro call job member
      have one : job.spec.seed = 1 := List.mem_singleton.mp member
      change Except.ok (RolloutResult.mk false none [] none) =
        .ok ⟨decide (job.spec.seed = 2), none, [], none⟩
      rw [one]
      rfl)).1

end

end Rsi
end PhysicalHarness
