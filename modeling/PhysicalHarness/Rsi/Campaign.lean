import PhysicalHarness.Lib.Logged
import PhysicalHarness.Rsi.Attribution
import PhysicalHarness.Rsi.Regrow

namespace PhysicalHarness
namespace Rsi

open Python Harness JsonText Fallible Logged

/-!
# A campaign

A campaign seals its preregistration, then runs generations: measure the residual
failures of the current bundle, ask the reasoner for one rule, gate the child against its
parent and against its blind twin, and keep it only if both tests are passed.  The
held-out block is scored once, after the last generation.

All that a campaign writes are artifacts, so it is a computation over the list of its
puts; what it wrote before an exception stays in the store.
-/

def campaignKinds : List String :=
  ["preregistration", "stage_attribution", "generation", "campaign_result"]

/-- A record that the reasoner leaves in the store, of a kind of its own. -/
structure Audit where
  kind : String
  payload : Json
  own : kind ∉ campaignKinds
  proper : Proper payload

/-- What `propose(brief).get("rule")` is. -/
inductive Proposed where
  | none
  | rule (rule : Rule)
  /-- The canonical dict of a rule. -/
  | canonical (payload : List (String × Json))

/-- The reply of the reasoner, with the records it left. -/
structure Reply where
  audits : List Audit
  proposed : Except CampaignError Proposed

structure Brief where
  traces : List (List (String × List Double))
  labels : List Bool
  generation : Nat
  prereg : Preregistration
  devSpecs : List RolloutSpec
  executor : Executor
  parent : Bundle
  store : CampaignStore
  strategies : List String

structure Reasoner where
  /-- `identity`, where it is a string. -/
  identity : Option String
  propose : Brief → Reply

/-- What a campaign runs with. -/
structure Setting where
  installed : Installed
  executor : Executor
  reasoner : Option Reasoner
  clock : Nat → Double
  /-- The directory of the campaign before it. -/
  directory : CampaignStore
  /-- Where other paths lead; one may lead to the campaign's own directory. -/
  directories : CampaignStore → Directories
  /-- How deep the interpreter recurses. -/
  depth : Nat

/-- `_specs`. -/
def specsOf (seeds : List Int) (prereg : Preregistration) : List RolloutSpec :=
  seeds.map (fun seed => {
    seed
    stages := prereg.stages
    task := prereg.task
    policy := prereg.policy
    perceptNoise := prereg.perceptNoise
    terminalLabel := prereg.terminalLabel
    envProvider := prereg.envProvider
    policyProvider := prereg.policyProvider
    perceptProvider := prereg.perceptProvider
    segmentIsolate := prereg.segmentIsolate
    horizon := prereg.horizon })

/-- `1e12`. -/
def always : Double := Double.nearest (10 ^ 12)

/-- `blind_twin`: the same recovery, fired as soon as it is armed. -/
def blindTwin (rule : Rule) : Rule where
  ruleId := rule.ruleId ++ "-blind"
  trigger := ⟨rule.trigger.feature, .gt, always.neg, 1, rule.trigger.armAfter, .value⟩
  recovery := rule.recovery

def cardOf (reference : String) : String :=
  match (reference.toList.takeWhile (· ≠ ':')).splitOn '.' with
  | package :: card :: _ => if String.ofList package = "plugins" then String.ofList card else ""
  | _ => ""

/-- `prereg.env_provider or DEFAULT_ENV_REF`. -/
def Preregistration.environment (prereg : Preregistration) : String :=
  match prereg.envProvider with
  | some reference => if reference = "" then defaultEnvRef else reference
  | none => defaultEnvRef

/-- `items[:count]`. -/
def sliceTo {α : Type} (items : List α) (count : Int) : List α :=
  if 0 ≤ count then items.take count.toNat else items.take (items.length + count).toNat

structure GenerationRecord where
  generation : Nat
  ruleId : String
  parentSha : String
  childSha : String
  dev : PairedResult
  promoted : Bool
  reason : String

/-- What one generation hands to the next. -/
structure Session where
  bundle : Bundle
  history : List GenerationRecord
  plans : List PowerPlan
  /-- `prev_residual_rate`. -/
  residualRate : Option Double
  /-- `prev_yield`. -/
  discordanceYield : Option Double
  /-- `prev_j_yield`. -/
  judgementYield : Option Double

/-- The bundle as an arm; an empty one is the ungoverned policy. -/
def Bundle.arm (bundle : Bundle) : Option Bundle := if bundle.rules = [] then none else some bundle

/-! ## One generation -/

/-- The plan of a generation, large enough for both of its tests. -/
def sizeOf [Libm] (prereg : Preregistration) (session : Session) (generation reservoir : Nat) :
    Except NumberError PowerPlan := do
  let rate := session.residualRate.getD (Double.nearest (1 / 2))
  let failures ← (rate.mul (← Double.ofInt reservoir)).roundInt
  let plan ← planGeneration generation failures reservoir reservoir prereg.powerFixShare prereg.alpha
    prereg.powerTarget (session.discordanceYield.getD prereg.priorDiscordanceYield)
    (if prereg.screenTriggers then prereg.screenSearchFraction else Double.nearest 1)
  let judgement ← planGeneration generation failures reservoir reservoir prereg.judgementFixShare
    prereg.alpha prereg.powerTarget (Double.nearest 1) (Double.nearest 1)
  let yield_ := (session.judgementYield.getD prereg.priorJudgementYield).maxOf smallest
  let seeds ← ((← Double.ofInt judgement.discordantNeeded).div yield_).bind Double.roundInt
  if prereg.requireJudgement && decide (plan.seedsUsed < seeds) then
    return { plan with
      seedsNeeded := max plan.seedsNeeded seeds
      seedsUsed := min (max plan.seedsUsed seeds) reservoir
      capped := decide ((reservoir : Int) < seeds) }
  else return plan

/-- The session with the plan of this generation, and the specs it runs on. -/
def planned [Libm] (prereg : Preregistration) (session : Session) (generation : Nat) :
    Except CampaignError (Session × List RolloutSpec) :=
  let reservoir := specsOf prereg.dev prereg
  if prereg.scaleDevByPower then
    (numeric (sizeOf prereg session generation reservoir.length)).map (fun plan =>
      ({ session with plans := session.plans ++ [plan] }, sliceTo reservoir plan.seedsUsed))
  else .ok (session, reservoir)

structure Gates where
  dev : PairedResult
  blind : PairedResult

namespace Gates

def judged (gates : Gates) (prereg : Preregistration) : Bool :=
  gates.blind.pValue.lt prereg.alpha && decide (gates.blind.broken < gates.blind.fixed)

def promoted (gates : Gates) (prereg : Preregistration) : Bool :=
  decide (prereg.minFixed ≤ gates.dev.fixed) && gates.dev.pValue.lt prereg.alpha &&
    decide (gates.dev.broken < gates.dev.fixed) &&
    (gates.judged prereg || !prereg.requireJudgement)

def reason (gates : Gates) (prereg : Preregistration) : String :=
  if gates.promoted prereg then "promoted"
  else if !gates.judged prereg && prereg.requireJudgement then
    "rejected (no judgement vs its blind twin: delta=" ++ gates.blind.delta.percentText 1 ++ " p=" ++
      gates.blind.pValue.fixedText 4 ++ ")"
  else
    "rejected (fixed=" ++ toString gates.dev.fixed ++ " broken=" ++ toString gates.dev.broken ++ " p=" ++
      gates.dev.pValue.fixedText 4 ++ ")"

end Gates

section

variable [Host] [Sha256] [FloatText] [Libm]

/-- The rule that was proposed; a canonical dict is read. -/
def resolve (proposed : Proposed) : Except CampaignError (Option Rule) :=
  match proposed with
  | .none => .ok none
  | .rule rule => .ok (some rule)
  | .canonical payload => (raised (ruleFromCanonical (.obj payload))).map some

def childOf (installed : Installed) (bundle : Bundle) (rule : Rule) : Except CampaignError Bundle :=
  raised ((bundle.append installed.repertoire rule).bind (fun child =>
    (child.assertAtomicChildOf installed.repertoire bundle).map (fun _ => child)))

/-- The child against its parent, and against its blind twin, on the same specs. -/
def gatesOf (setting : Setting) (generation : Nat) (specs : List RolloutSpec) (bundle child : Bundle)
    (rule : Rule) : Except CampaignError Gates := do
  let dev ← pairedGate setting.installed setting.executor (.gate generation) specs child bundle.arm
  let blindChild ← raised (bundle.append setting.installed.repertoire (blindTwin rule))
  let blind ← pairedGate setting.installed setting.executor (.blindGate generation) specs child
    (some blindChild)
  return ⟨dev, blind⟩

/-- What is measured of a generation for the plan of the next one. -/
def measured (prereg : Preregistration) (labels : List Bool) (gates : Gates) (session : Session) :
    Except NumberError Session := do
  let residual : Int := max ((labels.length : Int) - labels.count true) 1
  let discordance ← Double.ratio (gates.dev.fixed + gates.dev.broken : Nat) residual
  let judgement ← Double.ratio (gates.blind.fixed + gates.blind.broken : Nat) (max labels.length 1 : Nat)
  return { session with
    discordanceYield := some (discordance.maxOf prereg.minDiscordanceYield)
    judgementYield := some (judgement.maxOf prereg.minDiscordanceYield) }

/-- The payload of a `generation` artifact. -/
def generationFields (preregSha : String) (record : GenerationRecord) (rule : Json)
    (blind : PairedResult) : List (String × Json) :=
  [("blind_gate", blind.asdict), ("preregistration_sha", .str preregSha),
    ("generation", .int record.generation), ("rule", rule), ("parent_sha", .str record.parentSha),
    ("child_sha", .str record.childSha), ("dev_gate", record.dev.asdict),
    ("promoted", .bool record.promoted), ("reason", .str record.reason)]

def recordOf (prereg : Preregistration) (generation : Nat) (rule : Rule) (parentSha childSha : String)
    (gates : Gates) : GenerationRecord where
  generation := generation
  ruleId := rule.ruleId
  parentSha := parentSha
  childSha := childSha
  dev := gates.dev
  promoted := gates.promoted prereg
  reason := gates.reason prereg

/-- The session after a candidate, and whether the loop goes on: a child that was promoted
is the next parent. -/
def settled (record : GenerationRecord) (child : Bundle) (session : Session) : Session × Bool :=
  let session := { session with history := session.history ++ [record] }
  if record.promoted then
    ({ session with
      bundle := child
      residualRate := some ((Double.nearest 1).sub record.dev.governedRate) }, true)
  else (session, false)

/-- A candidate rule: gated, recorded and, if it was promoted, kept. -/
def judge (setting : Setting) (prereg : Preregistration) (preregSha : String) (generation : Nat)
    (specs : List RolloutSpec) (labels : List Bool) (session : Session) (rule : Rule) :
    Logged Put CampaignError (Session × Bool) := do
  let repertoire := setting.installed.repertoire
  let child ← .lift (childOf setting.installed session.bundle rule)
  let gates ← .lift (gatesOf setting generation specs session.bundle child rule)
  let parentSha ← .lift (raised (session.bundle.sha repertoire))
  let childSha ← .lift (raised (child.sha repertoire))
  let record := recordOf prereg generation rule parentSha childSha gates
  let session ← .lift (numeric (measured prereg labels gates session))
  let form ← .lift (raised (rule.canonical repertoire))
  .write ⟨"generation", .obj (generationFields preregSha record form gates.blind)⟩
  return settled record child session

def writeAudits : List Audit → Logged Put CampaignError Unit
  | [] => return ()
  | audit :: rest => do
      .write ⟨audit.kind, audit.payload⟩
      writeAudits rest

/-- The table of the residual failures, where the rollouts have stages. -/
def writeAttribution (preregSha : String) (generation : Nat) :
    Option StageAttribution → Logged Put CampaignError Unit
  | some attribution => .write ⟨"stage_attribution", .obj [("preregistration_sha", .str preregSha),
      ("generation", .int generation), ("table", attribution.json)]⟩
  | none => return ()

/-- The candidate of a generation; there is none when no failure is left, and none when
the reasoner has none. -/
def consult (setting : Setting) (reasoner : Reasoner) (prereg : Preregistration) (preregSha : String)
    (generation : Nat) (parent : Bundle) (specs : List RolloutSpec) (current : List RolloutResult) :
    Logged Put CampaignError (Option Rule) := do
  let labels := current.map RolloutResult.success
  writeAttribution preregSha generation (← .lift (raised (stageAttribution current)))
  if labels.all id then return none
  let reply := reasoner.propose {
    traces := current.map RolloutResult.trace
    labels, generation, prereg
    devSpecs := specs
    executor := setting.executor
    parent
    store := setting.directory.putAll setting.clock (← .written)
    strategies := setting.installed.strategiesFor (cardOf prereg.environment) }
  writeAudits reply.audits
  .lift (reply.proposed.bind resolve)

/-- One turn of the loop: the session after it, and whether the loop goes on. -/
def generationOf (setting : Setting) (reasoner : Reasoner) (prereg : Preregistration)
    (preregSha : String) (session : Session) (generation : Nat) :
    Logged Put CampaignError (Session × Bool) := do
  let (session, specs) ← .lift (planned prereg session generation)
  let current ← .lift (setting.executor.map (.current generation)
    (specs.map (Job.mk · session.bundle.arm)))
  match ← consult setting reasoner prereg preregSha generation session.bundle specs current with
  | none => return (session, false)
  | some rule =>
      judge setting prereg preregSha generation specs (current.map RolloutResult.success) session rule

/-! ## A whole campaign -/

def evolve (setting : Setting) (reasoner : Reasoner) (prereg : Preregistration) (preregSha : String) :
    Logged Put CampaignError Session := do
  let store := setting.directory.putAll setting.clock (← .written)
  let bundle ← .lift (startingBundle setting.installed (setting.directories store) setting.depth prereg)
  .iterate (generationOf setting reasoner prereg preregSha)
    ⟨bundle, [], [], none, none, none⟩ (range 1 (prereg.maxGenerations.toNat + 1))

end

/-- What `run_campaign` returns. -/
structure CampaignResult where
  preregistrationSha : String
  powerPlans : List PowerPlan
  generations : Nat
  promoted : Nat
  finalSha : String
  rules : List String
  heldout : Option PairedResult
  heldoutVsBlind : Option PairedResult
  ablation : Option (List (Double × PairedResult))

def present {α : Type} (name : String) (encode : α → Json) (value : Option α) : List (String × Json) :=
  (value.map (fun value => (name, encode value))).toList

def rungJson (rung : Double × PairedResult) : Json := .arr [.float rung.1.value, rung.2.asdict]

/-- The dict of a result. -/
def CampaignResult.json (result : CampaignResult) : Json :=
  .obj ([("preregistration_sha", .str result.preregistrationSha),
    ("power_plans", .arr (result.powerPlans.map PowerPlan.asdict)),
    ("generations", .int result.generations), ("promoted", .int result.promoted),
    ("final_sha", .str result.finalSha), ("rules", namesJson result.rules)] ++
    present "heldout" PairedResult.asdict result.heldout ++
    present "heldout_vs_blind" PairedResult.asdict result.heldoutVsBlind ++
    present "ablation" (fun rungs => .arr (rungs.map rungJson)) result.ablation)

section

variable [Host] [Sha256] [FloatText] [Libm]

/-- The result of the generations, before the held-out block is looked at. -/
def resultOf (repertoire : Repertoire) (preregSha : String) (session : Session) :
    Except CampaignError CampaignResult :=
  (raised (session.bundle.sha repertoire)).map (fun finalSha => {
    preregistrationSha := preregSha
    powerPlans := session.plans
    generations := session.history.length
    promoted := session.history.countP GenerationRecord.promoted
    finalSha
    rules := session.bundle.rules.map Rule.ruleId
    heldout := none
    heldoutVsBlind := none
    ablation := none })

def blindBundle (bundle : Bundle) : Bundle :=
  ⟨bundle.rules.map blindTwin, bundle.criticBudget, bundle.actionBudget, none⟩

def judgedHeld (setting : Setting) (prereg : Preregistration) (held : List RolloutSpec)
    (bundle : Bundle) : Except CampaignError (Option PairedResult) :=
  if prereg.requireJudgement then
    (pairedGate setting.installed setting.executor .heldoutBlind held bundle
      (some (blindBundle bundle))).map some
  else .ok none

/-- The held-out block, scored once. -/
def scored (setting : Setting) (prereg : Preregistration) (bundle : Bundle) (result : CampaignResult) :
    Except CampaignError CampaignResult := do
  let held := specsOf prereg.heldout prereg
  let final ← pairedGate setting.installed setting.executor .heldout held bundle none
  let vsBlind ← judgedHeld setting prereg held bundle
  let curve ← ablationCurve setting.installed setting.executor held bundle
  return { result with heldout := some final, heldoutVsBlind := vsBlind, ablation := some curve }

/-- `replace(prereg, reasoner=identity)`. -/
def Preregistration.proposedBy (prereg : Preregistration) (identity : String) : Preregistration :=
  { prereg with reasoner := some identity }

/-- The reasoner, and the preregistration with its identity. -/
def admitted (setting : Setting) (prereg : Preregistration) :
    Except CampaignError (Reasoner × Preregistration) :=
  match setting.reasoner with
  | none => .error (.raised (.valueError "run_campaign requires an explicit LLM reasoner"))
  | some reasoner =>
      if prereg.searchRecovery then
        .error (.raised (.valueError "search_recovery is unavailable in LLM-only campaigns"))
      else
        match reasoner.identity.filter (fun identity => strip identity.toList ≠ []) with
        | none => .error (.raised (.valueError "run_campaign requires a non-empty reasoner.identity"))
        | some identity => .ok (reasoner, prereg.proposedBy identity)

/-- A campaign up to its last generation: the preregistration that was sealed, the session
and the result so far. -/
def untilHeldout (setting : Setting) (prereg : Preregistration) :
    Logged Put CampaignError (Preregistration × Session × CampaignResult) := do
  let (reasoner, prereg) ← .lift (admitted setting prereg)
  .write ⟨"preregistration", prereg.hashPayload⟩
  let preregSha := shaJson prereg.hashPayload
  let session ← evolve setting reasoner prereg preregSha
  let result ← .lift (resultOf setting.installed.repertoire preregSha session)
  return (prereg, session, result)

def finish (setting : Setting) (outcome : Preregistration × Session × CampaignResult) :
    Logged Put CampaignError CampaignResult := do
  let (prereg, session, result) := outcome
  if session.bundle.rules = [] then return result
  let result ← .lift (scored setting prereg session.bundle result)
  .write ⟨"campaign_result", result.json⟩
  return result

/-- `run_campaign`. -/
def runCampaign (setting : Setting) (prereg : Preregistration) :
    Logged Put CampaignError CampaignResult :=
  untilHeldout setting prereg >>= finish setting

/-- The directory after a campaign that wrote these artifacts. -/
def Setting.after (setting : Setting) (puts : List Put) : CampaignStore :=
  setting.directory.putAll setting.clock puts

def CampaignResult.unscored (result : CampaignResult) : CampaignResult :=
  { result with heldout := none, heldoutVsBlind := none, ablation := none }

variable {setting : Setting}

omit [Host] [Sha256] [FloatText] [Libm] in
theorem unscored_scored {prereg : Preregistration} {bundle : Bundle} {result final : CampaignResult}
    (ran : scored setting prereg bundle result = .ok final) :
    final.unscored = result.unscored := by
  rw [scored] at ran
  rcases of_bind ran with ⟨gate, _, ran⟩
  rcases of_bind ran with ⟨vsBlind, _, ran⟩
  rcases of_bind ran with ⟨curve, _, ran⟩
  cases ran
  rfl

omit [Host] [Sha256] [FloatText] [Libm] in
theorem unscored_finish {outcome : Preregistration × Session × CampaignResult}
    {log after : List Put} {result : CampaignResult}
    (ran : finish setting outcome log = (.ok result, after)) :
    result.unscored = outcome.2.2.unscored := by
  rw [finish] at ran
  by_cases empty : outcome.2.1.bundle.rules = []
  · rw [if_pos empty] at ran
    cases ran
    rfl
  · rw [if_neg empty] at ran
    rcases bind_eq_ok.mp ran with ⟨final, middle, scores, ran⟩
    rcases bind_eq_ok.mp ran with ⟨_, _, _, last⟩
    cases last
    exact unscored_scored (Prod.mk.inj scores).1

omit [Host] [Sha256] [FloatText] [Libm] in
theorem writes_finish (setting : Setting) (outcome : Preregistration × Session × CampaignResult) :
    Writes (fun put => ∃ final : CampaignResult, put = ⟨"campaign_result", final.json⟩)
      (finish setting outcome) := by
  rw [finish]
  by_cases empty : outcome.2.1.bundle.rules = []
  · rw [if_pos empty]
    exact Writes.ret _
  · rw [if_neg empty]
    refine Writes.lift_bind (fun result _ => ?_)
    exact Writes.bind (Writes.write ⟨result, rfl⟩) (fun _ => Writes.ret _)

omit [Host] [Sha256] [FloatText] [Libm] in
theorem admitted_eq_ok {prereg named : Preregistration} {reasoner : Reasoner}
    (admits : admitted setting prereg = .ok (reasoner, named)) :
    setting.reasoner = some reasoner ∧ ∃ identity, named = prereg.proposedBy identity := by
  rw [admitted] at admits
  split at admits
  · cases admits
  · rename_i asked given_
    split at admits
    · cases admits
    · split at admits
      · cases admits
      · rename_i identity _
        cases admits
        exact ⟨given_, identity, rfl⟩

theorem untilHeldout_eq_ok {prereg named : Preregistration} {session : Session}
    {result : CampaignResult} {puts : List Put}
    (ran : untilHeldout setting prereg [] = (.ok (named, session, result), puts)) :
    ∃ reasoner identity, setting.reasoner = some reasoner ∧ named = prereg.proposedBy identity ∧
      evolve setting reasoner named (shaJson named.hashPayload)
        [⟨"preregistration", named.hashPayload⟩] = (.ok session, puts) ∧
      resultOf setting.installed.repertoire (shaJson named.hashPayload) session = .ok result := by
  rw [untilHeldout] at ran
  rcases bind_eq_ok.mp ran with ⟨outcome, start, lifted, ran⟩
  rcases outcome with ⟨reasoner, sealed_⟩
  rcases Logged.lift_eq_ok.mp lifted with ⟨admits, rfl⟩
  rcases admitted_eq_ok admits with ⟨given_, identity, rfl⟩
  rcases bind_eq_ok.mp ran with ⟨_, opened, opening, ran⟩
  cases opening
  rcases bind_eq_ok.mp ran with ⟨final, evolved, evolves, ran⟩
  rcases bind_eq_ok.mp ran with ⟨interim, ended, lifted_, last⟩
  rcases Logged.lift_eq_ok.mp lifted_ with ⟨results, rfl⟩
  cases last
  exact ⟨reasoner, identity, given_, rfl, evolves, results⟩

end

end Rsi
end PhysicalHarness
