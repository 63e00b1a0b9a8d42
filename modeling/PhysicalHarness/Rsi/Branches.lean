import PhysicalHarness.Rsi.Beam
import PhysicalHarness.Rsi.Discipline

namespace PhysicalHarness
namespace Rsi
namespace Beam

open Python Harness JsonText Fallible

/-!
# The branches of a beam campaign

A branch is seeded with a rule that no gate has seen.  The first generation judges that rule, and
every later one proposes a rule and appends it; a branch whose rule is rejected is rolled back.  So
a rule that stays was promoted in the generation of its position, but for a campaign that has no
generation at all.  The rules that are proposed carry the repair of the preregistration; the seed
rule carries the default one.
-/

abbrev Trace := List (String × List Double)

structure Search where
  /-- `search_triggers(traces, labels, privilege_budget, top_k)`, with the weights of the
  objective where they are given. -/
  searchTriggers : List Trace → List Bool → Int → Int → Option (Double × Double) →
    Except CampaignError (List Trigger)
  /-- `screen(traces, labels, privilege_budget, pool=8)`, with the weights. -/
  screen : List Trace → List Bool → Int → Double × Double → Except CampaignError (List Trigger)

/-- What a beam campaign runs with; each branch measures on its own. -/
structure Setting where
  installed : Installed
  search : Search
  seeding : Executor
  growing : Nat → Executor
  selecting : Nat → Executor
  final : Executor

/-- An entry of `history`. -/
structure Attempt where
  generation : Nat
  n : Nat
  gate : PairedResult
  blindGate : Option PairedResult
  promoted : Bool
  rule : Json

structure Branch where
  /-- The place among the seeds, which the id is made of. -/
  index : Nat
  bundle : Bundle
  alive : Bool
  history : List Attempt
  residualRate : Option Double
  discordanceYield : Option Double

/-- `SEED_SLICE`. -/
def seedSlice : Nat := 120

namespace Branch

variable (branch : Branch)

def id : String := "b" ++ toString branch.index

/-- The id of the rule of a generation. -/
def ruleId (generation : Nat) : String := branch.id ++ "g" ++ toString generation

def depth : Nat := branch.bundle.rules.length

/-- A branch before its first generation. -/
def start (index : Nat) (bundle : Bundle) : Branch := ⟨index, bundle, true, [], none, none⟩

end Branch

def preregistered (prereg : Preregistration) : RecoverySpec :=
  ⟨prereg.recoveryName, none, prereg.recoverySensorSd, 1⟩

def seedRecovery (prereg : Preregistration) : RecoverySpec :=
  ⟨"regrasp", none, prereg.recoverySensorSd, 1⟩

section

variable (search : Search) (prereg : Preregistration)

/-- The triggers that are ranked out of sample, where the campaign screens. -/
def screened (traces : List Trace) (labels : List Bool) : Except CampaignError (List Trigger) :=
  if prereg.screenTriggers then
    search.screen traces labels prereg.criticBudget (prereg.earliness, prereg.fpPenalty)
  else .ok []

/-- The trigger of a proposal: the first that was screened, or the first of the search. -/
def proposedTrigger (traces : List Trace) (labels : List Bool) :
    List Trigger → Except CampaignError (Option Trigger)
  | trigger :: _ => .ok (some trigger)
  | [] => (search.searchTriggers traces labels prereg.criticBudget 3
      (some (prereg.earliness, prereg.fpPenalty))).map List.head?

/-- `propose_rule`, without a parent and without specs to replay on. -/
def proposeRule (traces : List Trace) (labels : List Bool) : Except CampaignError (Option Rule) :=
  if !labels.any id || labels.all id then .ok none
  else
    (screened search prereg traces labels).bind (fun triggers =>
      (proposedTrigger search prereg traces labels triggers).map (fun chosen =>
        chosen.map (fun trigger => ⟨"g1", trigger, preregistered prereg⟩)))

end

section

variable [Sha256] [FloatText] [Libm]

variable (setting : Setting) (prereg : Preregistration)

/-- The bundle without a rule. -/
def root : Bundle := ⟨[], prereg.criticBudget, prereg.actionBudget, none⟩

def seedRule (index : Nat) (trigger : Trigger) : Rule :=
  ⟨(Branch.start index (root prereg)).ruleId 1, trigger, seedRecovery prereg⟩

def seeded (beamWidth : Int) (reservoir : List RolloutSpec) : Except CampaignError (List Branch) := do
  let base ← setting.seeding.map (.current 0) ((reservoir.take seedSlice).map (Job.mk · none))
  let ranked ← setting.search.searchTriggers (base.map RolloutResult.trace)
    (base.map RolloutResult.success) prereg.criticBudget beamWidth none
  ranked.zipIdx.mapM (fun entry =>
    (raised ((root prereg).append setting.installed.repertoire (seedRule prereg entry.2 entry.1))).map
      (Branch.start entry.2))

/-! ## One generation of a branch -/

/-- The number of seeds that the plan of a later generation asks for. -/
def sizeOf (branch : Branch) (reservoir : Nat) : Except NumberError PowerPlan := do
  let rate := branch.residualRate.getD (Double.nearest (1 / 2))
  let failures ← (rate.mul (← Double.ofInt reservoir)).roundInt
  planGeneration (branch.depth + 1) failures reservoir reservoir prereg.powerFixShare prereg.alpha
    prereg.powerTarget (branch.discordanceYield.getD prereg.priorDiscordanceYield)
    (if prereg.screenTriggers then prereg.screenSearchFraction else Double.nearest 1)

/-- `_size_slice`. -/
def sizeSlice (branch : Branch) (reservoir : List RolloutSpec) (generation : Nat) :
    Except CampaignError (List RolloutSpec) :=
  if generation = 1 || !prereg.scaleDevByPower then .ok (reservoir.take seedSlice)
  else (numeric (sizeOf prereg branch reservoir.length)).map (fun plan =>
    sliceTo reservoir plan.seedsUsed)

structure Candidate where
  parent : Bundle
  child : Bundle
  specs : List RolloutSpec

def beforeSeed (bundle : Bundle) : Bundle :=
  ⟨bundle.rules.dropLast, bundle.criticBudget, bundle.actionBudget, none⟩

def extended (branch : Branch) (generation : Nat) (specs : List RolloutSpec) :
    Option Rule → Except CampaignError (Option Candidate)
  | none => .ok none
  | some rule => (childOf setting.installed branch.bundle
      ⟨branch.ruleId generation, rule.trigger, rule.recovery⟩).map (fun child =>
        some ⟨branch.bundle, child, specs⟩)

/-- What a later generation judges; nothing where no failure is left or no rule is proposed. -/
def proposed (branch : Branch) (generation : Nat) (specs : List RolloutSpec) :
    Except CampaignError (Option Candidate) := do
  let current ← (setting.growing branch.index).map (.current generation)
    (specs.map (Job.mk · branch.bundle.arm))
  let labels := current.map RolloutResult.success
  if labels.all (fun label => label) then return none
  let rule ← proposeRule setting.search prereg (current.map RolloutResult.trace) labels
  extended setting branch generation specs rule

/-- What a generation judges; the first one judges the seed rule. -/
def candidate (reservoir : List RolloutSpec) (branch : Branch) (generation : Nat) :
    Except CampaignError (Option Candidate) :=
  (sizeSlice prereg branch reservoir generation).bind (fun specs =>
    if generation = 1 then .ok (some ⟨beforeSeed branch.bundle, branch.bundle, specs⟩)
    else proposed setting prereg branch generation specs)

/-- The two verdicts on a candidate; the second where judgement is required. -/
structure Verdicts where
  dev : PairedResult
  blind : Option PairedResult

/-- `judged`. -/
def beatsTwin (blind : PairedResult) : Bool :=
  blind.pValue.lt prereg.alpha && decide (blind.broken < blind.fixed)

/-- `ok`. -/
def Verdicts.ok (verdicts : Verdicts) : Bool :=
  decide (prereg.minFixed ≤ verdicts.dev.fixed) && verdicts.dev.pValue.lt prereg.alpha &&
    decide (verdicts.dev.broken < verdicts.dev.fixed) && verdicts.blind.all (beatsTwin prereg)

def blindVerdict (index generation : Nat) (candidate : Candidate) (rule : Rule) :
    Except CampaignError (Option PairedResult) :=
  if prereg.requireJudgement then
    (raised (candidate.parent.append setting.installed.repertoire (blindTwin rule))).bind (fun twin =>
      (pairedGate setting.installed (setting.growing index) (.blindGate generation) candidate.specs
        candidate.child (some twin)).map some)
  else .ok none

/-- `child.rules[-1]`. -/
def Candidate.rule (candidate : Candidate) : Except CampaignError Rule :=
  match candidate.child.rules.getLast? with
  | none => .error (.raised .indexError)
  | some rule => .ok rule

/-- The branch after a verdict: with the child, or rolled back to the parent. -/
def sealedOf (candidate : Candidate) (verdicts : Verdicts) (branch : Branch) :
    Except NumberError Branch :=
  if verdicts.ok prereg then do
    let failures := ((Double.nearest 1).sub verdicts.dev.baseRate).mul (← Double.ofInt verdicts.dev.n)
    let residual := max (← failures.roundInt) 1
    let discordance ← Double.ratio (verdicts.dev.fixed + verdicts.dev.broken : Nat) residual
    return { branch with
      bundle := candidate.child
      residualRate := some ((Double.nearest 1).sub verdicts.dev.governedRate)
      discordanceYield := some (discordance.maxOf prereg.minDiscordanceYield) }
  else .ok { branch with alive := false, bundle := candidate.parent }

/-- A candidate is judged and recorded. -/
def attempt (branch : Branch) (generation : Nat) (candidate : Candidate) :
    Except CampaignError Branch := do
  let dev ← pairedGate setting.installed (setting.growing branch.index) (.gate generation)
    candidate.specs candidate.child candidate.parent.arm
  let rule ← candidate.rule
  let blind ← blindVerdict setting prereg branch.index generation candidate rule
  let form ← raised (rule.canonical setting.installed.repertoire)
  let verdicts : Verdicts := ⟨dev, blind⟩
  numeric (sealedOf prereg candidate verdicts { branch with
    history := branch.history ++ [⟨generation, dev.n, dev, blind, verdicts.ok prereg, form⟩] })

def attempted (branch : Branch) (generation : Nat) : Option Candidate → Except CampaignError Branch
  | none => .ok { branch with alive := false }
  | some candidate => attempt setting prereg branch generation candidate

def stepBranch (reservoir : List RolloutSpec) (generation : Nat) (branch : Branch) :
    Except CampaignError Branch :=
  if branch.alive then
    (candidate setting prereg reservoir branch generation).bind (attempted setting prereg branch generation)
  else .ok branch

def generations (reservoir : List RolloutSpec) :
    List Nat → List Branch → Except CampaignError (List Branch)
  | [], branches => .ok branches
  | generation :: rest, branches =>
      if branches.any Branch.alive then
        (branches.mapM (stepBranch setting prereg reservoir generation)).bind (generations reservoir rest)
      else .ok branches

/-- The branches as the selection block finds them. -/
def branchesOf (beamWidth : Int) (selection : List Int) :
    Except CampaignError (BeamBlocks × List Branch) := do
  let blocks ← raised (beamBlocks prereg selection)
  let reservoir := specsOf prereg.dev prereg
  let branches ← seeded setting prereg beamWidth reservoir
  let grown ← generations setting prereg reservoir (range 1 (prereg.maxGenerations.toNat + 1)) branches
  return (blocks, grown)

/-- The branches that compete. -/
def survivors (branches : List Branch) : List Branch :=
  branches.filter (fun branch => decide (branch.bundle.rules ≠ []))

/-- `max(scored, key=lambda t: t[1].delta)`: the first of the best. -/
def best : List (Branch × PairedResult) → Option (Branch × PairedResult)
  | [] => none
  | first :: rest => some (rest.foldl (fun kept other =>
      if kept.2.delta.lt other.2.delta then other else kept) first)

structure Selected where
  branch : Branch
  selection : PairedResult
  heldout : PairedResult
  ablation : List (Double × PairedResult)

def finish (held : List RolloutSpec) :
    Option (Branch × PairedResult) → Except CampaignError (Option Selected)
  | none => .ok none
  | some (branch, selection) => do
      let heldout ← pairedGate setting.installed setting.final .heldout held branch.bundle none
      let ablation ← ablationCurve setting.installed setting.final held branch.bundle
      return some ⟨branch, selection, heldout, ablation⟩

end

/-! ## A rule that earned its place -/

section

variable [Sha256] [FloatText]

variable (setting : Setting) (prereg : Preregistration)

/-- The rule beats a blind twin of itself. -/
def Judged (index generation : Nat) (specs : List RolloutSpec) (parent child : Bundle) (rule : Rule)
    (attempt : Attempt) : Prop :=
  ∃ twin blind, parent.append setting.installed.repertoire (blindTwin rule) = .ok twin ∧
    pairedGate setting.installed (setting.growing index) (.blindGate generation) specs child
      (some twin) = .ok blind ∧
    attempt.blindGate = some blind ∧ blind.pValue.lt prereg.alpha = true ∧ blind.broken < blind.fixed

/-- The attempt appended the rule to the chain before it, behind a gate against that chain. -/
structure Appended (index : Nat) (before : List Rule) (rule : Rule) (attempt : Attempt) : Prop where
  generation : attempt.generation = before.length + 1
  promoted : attempt.promoted = true
  form : rule.canonical setting.installed.repertoire = .ok attempt.rule
  gated : ∃ specs parent child, parent.rules = before ∧ child.rules = before ++ [rule] ∧
    pairedGate setting.installed (setting.growing index) (.gate attempt.generation) specs child
      parent.arm = .ok attempt.gate ∧
    (prereg.requireJudgement = true →
      Judged setting prereg index attempt.generation specs parent child rule attempt)
  enough : prereg.minFixed ≤ attempt.gate.fixed
  significant : attempt.gate.pValue.lt prereg.alpha = true
  better : attempt.gate.broken < attempt.gate.fixed

/-- Every rule of the branch was appended in exactly one generation, and its repair is the
preregistered one. -/
def Branch.Earned (branch : Branch) : Prop :=
  ∀ position rule, branch.bundle.rules[position]? = some rule →
    (∃! attempt, attempt ∈ branch.history ∧ Appended setting prereg branch.index
      (branch.bundle.rules.take position) rule attempt) ∧
    rule.recovery = preregistered prereg

def carried (position : Nat) : RecoverySpec :=
  if position = 0 then seedRecovery prereg else preregistered prereg

structure Standing (index : Nat) (rules : List Rule) (history : List Attempt) : Prop where
  numbered : history.map Attempt.generation = List.range' 1 history.length
  appended : ∀ position rule, rules[position]? = some rule → ∃ attempt ∈ history,
    Appended setting prereg index (rules.take position) rule attempt
  repairs : ∀ position rule, rules[position]? = some rule → rule.recovery = carried prereg position

structure Sealed (generation : Nat) (branch : Branch) : Prop where
  standing : Standing setting prereg branch.index branch.bundle.rules branch.history
  live : branch.alive = true → branch.history.length = generation ∧
    branch.bundle.rules.length = generation

structure Seeded (branch : Branch) : Prop where
  live : branch.alive = true
  fresh : branch.history = []
  seed : ∃ rule, branch.bundle.rules = [rule] ∧ rule.recovery = seedRecovery prereg

variable {setting prereg}

theorem standing_nil (index : Nat) : Standing setting prereg index [] [] where
  numbered := rfl
  appended := by
    intro position rule found
    cases found
  repairs := by
    intro position rule found
    cases found

variable {reservoir : List RolloutSpec} {generation index : Nat} {branch next : Branch}
  {candidate : Candidate} {rule : Rule}

theorem standing_rejected {rules : List Rule} {history : List Attempt} {attempt : Attempt}
    (standing : Standing setting prereg index rules history)
    (next : attempt.generation = history.length + 1) :
    Standing setting prereg index rules (history ++ [attempt]) where
  numbered := by
    rw [List.map_append, standing.numbered, List.length_append, List.length_singleton,
      List.range'_1_concat, List.map_singleton, next, Nat.add_comm 1]
  appended := by
    intro position rule found
    rcases standing.appended position rule found with ⟨earlier, mem, appended⟩
    exact ⟨earlier, List.mem_append_left _ mem, appended⟩
  repairs := standing.repairs

theorem standing_promoted {rules : List Rule} {history : List Attempt} {attempt : Attempt}
    (standing : Standing setting prereg index rules history)
    (next : attempt.generation = history.length + 1)
    (appended : Appended setting prereg index rules rule attempt)
    (repair : rule.recovery = carried prereg rules.length) :
    Standing setting prereg index (rules ++ [rule]) (history ++ [attempt]) := by
  have split {position : Nat} {other : Rule} (found : (rules ++ [rule])[position]? = some other) :
      rules[position]? = some other ∧ position < rules.length ∨ position = rules.length ∧ other = rule := by
    rcases Nat.lt_or_ge position rules.length with inside | outside
    · rw [List.getElem?_append_left inside] at found
      exact Or.inl ⟨found, inside⟩
    · rw [List.getElem?_append_right outside] at found
      cases gap : position - rules.length with
      | zero =>
          rw [gap] at found
          cases found
          exact Or.inr ⟨Nat.le_antisymm (Nat.sub_eq_zero_iff_le.mp gap) outside, rfl⟩
      | succ more =>
          rw [gap] at found
          cases found
  refine ⟨(standing_rejected standing next).numbered, ?_, ?_⟩
  · intro position other found
    rcases split found with ⟨before, inside⟩ | ⟨rfl, rfl⟩
    · rcases standing.appended position other before with ⟨earlier, mem, did⟩
      rw [List.take_append_of_le_length (Nat.le_of_lt inside)]
      exact ⟨earlier, List.mem_append_left _ mem, did⟩
    · rw [List.take_left']
      · exact ⟨attempt, List.mem_append_right _ (.head _), appended⟩
      · rfl
  · intro position other found
    rcases split found with ⟨before, _⟩ | ⟨rfl, rfl⟩
    · exact standing.repairs position other before
    · exact repair

omit [Sha256] [FloatText] in
theorem ok_iff {verdicts : Verdicts} : verdicts.ok prereg = true ↔
    prereg.minFixed ≤ verdicts.dev.fixed ∧ verdicts.dev.pValue.lt prereg.alpha = true ∧
      verdicts.dev.broken < verdicts.dev.fixed ∧
      ∀ blind, verdicts.blind = some blind →
        blind.pValue.lt prereg.alpha = true ∧ blind.broken < blind.fixed := by
  rw [Verdicts.ok, Bool.and_eq_true, Bool.and_eq_true, Bool.and_eq_true, decide_eq_true_iff,
    decide_eq_true_iff, Option.all_eq_true, and_assoc, and_assoc]
  simp only [beatsTwin, Bool.and_eq_true, decide_eq_true_iff]

theorem judged_of_blindVerdict {blind : Option PairedResult} {attempt : Attempt}
    (required : prereg.requireJudgement = true)
    (ran : blindVerdict setting prereg index generation candidate rule = .ok blind)
    (kept : attempt.blindGate = blind)
    (passed : ∀ verdict, blind = some verdict →
      verdict.pValue.lt prereg.alpha = true ∧ verdict.broken < verdict.fixed) :
    Judged setting prereg index generation candidate.specs candidate.parent candidate.child rule attempt := by
  rw [blindVerdict, if_pos required] at ran
  rcases of_bind ran with ⟨twin, made, ran⟩
  rcases map_eq_ok.mp ran with ⟨verdict, gated, rfl⟩
  rcases mapError_eq_ok.mp made with made
  rcases passed verdict rfl with ⟨significant, better⟩
  exact ⟨twin, verdict, made, gated, kept, significant, better⟩

theorem sealed_attempt
    (standing : Standing setting prereg branch.index candidate.parent.rules branch.history)
    (attempts : branch.history.length = generation)
    (before : candidate.parent.rules.length = generation)
    (grows : candidate.child.rules = candidate.parent.rules ++ [rule])
    (repair : rule.recovery = carried prereg generation)
    (ran : attempt setting prereg branch (generation + 1) candidate = .ok next) :
    Sealed setting prereg (generation + 1) next := by
  rcases of_bind ran with ⟨dev, gated, ran⟩
  rcases of_bind ran with ⟨last, found, ran⟩
  rcases of_bind ran with ⟨blind, blinded, ran⟩
  rcases of_bind ran with ⟨form, formed, ran⟩
  have same : last = rule := by
    rw [Candidate.rule, grows, List.getLast?_concat] at found
    cases found
    rfl
  subst same
  have verdict := mapError_eq_ok.mp ran
  rw [sealedOf] at verdict
  let entry : Attempt := ⟨generation + 1, dev.n, dev, blind, Verdicts.ok prereg ⟨dev, blind⟩, form⟩
  have next_ : entry.generation = branch.history.length + 1 := by rw [attempts]
  have longer : (branch.history ++ [entry]).length = generation + 1 := by
    rw [List.length_append, attempts]
    rfl
  cases passes : Verdicts.ok prereg ⟨dev, blind⟩ with
  | true =>
      rw [if_pos passes] at verdict
      rcases of_bind verdict with ⟨count, _, verdict⟩
      rcases of_bind verdict with ⟨failures, _, verdict⟩
      rcases of_bind verdict with ⟨discordance, _, verdict⟩
      cases verdict
      rcases ok_iff.mp passes with ⟨enough, significant, better, beats⟩
      have appended : Appended setting prereg branch.index candidate.parent.rules last entry :=
        { generation := congrArg (· + 1) before.symm
          promoted := passes
          form := mapError_eq_ok.mp formed
          gated := ⟨candidate.specs, candidate.parent, candidate.child, rfl, grows, gated,
            fun required => judged_of_blindVerdict required blinded rfl beats⟩
          enough, significant, better }
      rw [← before] at repair
      refine ⟨?_, fun _ => ⟨longer, ?_⟩⟩
      · have standing_ := standing_promoted standing next_ appended repair
        rw [← grows] at standing_
        exact standing_
      · change candidate.child.rules.length = generation + 1
        rw [grows, List.length_append, before]
        rfl
  | false =>
      rw [if_neg (by rw [passes]; exact Bool.noConfusion)] at verdict
      cases verdict
      exact ⟨standing_rejected standing next_, fun never => Bool.noConfusion never⟩

omit [Sha256] [FloatText] in
theorem repair_of_proposeRule {search : Search} {traces : List Trace} {labels : List Bool}
    (ran : proposeRule search prereg traces labels = .ok (some rule)) :
    rule.recovery = preregistered prereg := by
  rw [proposeRule] at ran
  split at ran
  · cases ran
  · rcases of_bind ran with ⟨triggers, _, ran⟩
    rcases map_eq_ok.mp ran with ⟨chosen, _, made⟩
    rcases Option.map_eq_some_iff.mp made with ⟨trigger, _, rfl⟩
    rfl

/-- What a later generation judges is the chain with one rule more, which carries the
preregistered repair. -/
theorem proposed_eq_some {specs : List RolloutSpec}
    (ran : proposed setting prereg branch generation specs = .ok (some candidate)) :
    candidate.parent = branch.bundle ∧ ∃ rule,
      candidate.child.rules = branch.bundle.rules ++ [rule] ∧ rule.recovery = preregistered prereg := by
  rcases of_bind ran with ⟨current, _, ran⟩
  dsimp only at ran
  split at ran
  · cases ran
  · rcases of_bind ran with ⟨rule, suggested, ran⟩
    cases rule with
    | none => cases ran
    | some rule =>
        rcases map_eq_ok.mp ran with ⟨child, made, same⟩
        cases same
        rcases of_bind (mapError_eq_ok.mp made) with ⟨grown, appended, checked⟩
        rcases map_eq_ok.mp checked with ⟨_, _, rfl⟩
        rcases map_eq_ok.mp appended with ⟨parent, _, rfl⟩
        have repair := repair_of_proposeRule suggested
        exact ⟨rfl, _, rfl, repair⟩

variable [Libm]

theorem seeded_stepBranch (seeded : Seeded prereg branch)
    (ran : stepBranch setting prereg reservoir 1 branch = .ok next) :
    Sealed setting prereg 1 next := by
  rw [stepBranch, if_pos seeded.live] at ran
  rcases of_bind ran with ⟨found, chosen, ran⟩
  rcases of_bind chosen with ⟨specs, _, chosen⟩
  rw [if_pos rfl] at chosen
  cases chosen
  rcases seeded.seed with ⟨rule, only, repair⟩
  have parent : (beforeSeed branch.bundle).rules = [] := by
    rw [beforeSeed, only]
    rfl
  have standing : Standing setting prereg branch.index (beforeSeed branch.bundle).rules branch.history := by
    rw [parent, seeded.fresh]
    exact standing_nil branch.index
  have grows : branch.bundle.rules = (beforeSeed branch.bundle).rules ++ [rule] := by
    rw [parent, only]
    rfl
  have none_ : branch.history.length = 0 := by
    rw [seeded.fresh]
    rfl
  have empty : (beforeSeed branch.bundle).rules.length = 0 := by
    rw [parent]
    rfl
  exact sealed_attempt standing none_ empty grows repair ran

theorem sealed_stepBranch (later : 1 ≤ generation)
    (sealed_ : Sealed setting prereg generation branch)
    (ran : stepBranch setting prereg reservoir (generation + 1) branch = .ok next) :
    Sealed setting prereg (generation + 1) next := by
  rw [stepBranch] at ran
  cases lives : branch.alive with
  | false =>
      rw [lives] at ran
      cases ran
      refine ⟨sealed_.standing, fun never => ?_⟩
      rw [lives] at never
      cases never
  | true =>
      rw [if_pos lives] at ran
      rcases of_bind ran with ⟨found, chosen, ran⟩
      rcases of_bind chosen with ⟨specs, _, chosen⟩
      have notFirst : generation + 1 ≠ 1 := fun same => absurd later (by omega)
      rw [if_neg notFirst] at chosen
      rcases sealed_.live lives with ⟨attempts, rules⟩
      cases found with
      | none =>
          cases ran
          exact ⟨sealed_.standing, fun never => Bool.noConfusion never⟩
      | some candidate =>
          rcases proposed_eq_some chosen with ⟨parent, rule, grows, repair⟩
          have carries : rule.recovery = carried prereg generation := by
            rw [carried, if_neg (Nat.ne_of_gt later)]
            exact repair
          have standing : Standing setting prereg branch.index candidate.parent.rules branch.history := by
            rw [parent]
            exact sealed_.standing
          rw [← parent] at grows rules
          exact sealed_attempt standing attempts rules grows carries ran

theorem forall_mapM {before after : Branch → Prop} {branches next : List Branch}
    (step : ∀ branch grown, before branch →
      stepBranch setting prereg reservoir generation branch = .ok grown → after grown)
    (start : ∀ branch ∈ branches, before branch)
    (ran : branches.mapM (stepBranch setting prereg reservoir generation) = .ok next) :
    ∀ branch ∈ next, after branch := by
  intro branch mem
  rcases exists_mem_of_mapM ran mem with ⟨earlier, was, stepped⟩
  exact step earlier branch (start earlier was) stepped

theorem sealed_generations {left : Nat} {branches grown : List Branch} (later : 1 ≤ generation)
    (start : ∀ branch ∈ branches, Sealed setting prereg generation branch)
    (ran : generations setting prereg reservoir (List.range' (generation + 1) left) branches = .ok grown)
    :
    ∀ branch ∈ grown, ∃ last, Sealed setting prereg last branch := by
  induction left generalizing generation branches with
  | zero =>
      cases ran
      exact fun branch mem => ⟨generation, start branch mem⟩
  | succ left ih =>
      rw [List.range'_succ, generations] at ran
      split at ran
      · rcases of_bind ran with ⟨next, stepped, ran⟩
        apply ih (Nat.le_succ_of_le later) _ ran
        exact forall_mapM (fun _ _ => sealed_stepBranch later) start stepped
      · cases ran
        exact fun branch mem => ⟨generation, start branch mem⟩

omit [Libm] in
theorem seeded_of_seeded {beamWidth : Int} {branches : List Branch}
    (ran : seeded setting prereg beamWidth reservoir = .ok branches) :
    ∀ branch ∈ branches, Seeded prereg branch := by
  intro branch mem
  rcases of_bind ran with ⟨base, _, ran⟩
  rcases of_bind ran with ⟨ranked, _, ran⟩
  rcases exists_mem_of_mapM ran mem with ⟨entry, _, made⟩
  rcases map_eq_ok.mp made with ⟨bundle, appended, rfl⟩
  rcases map_eq_ok.mp (mapError_eq_ok.mp appended) with ⟨parent, _, rfl⟩
  exact ⟨rfl, rfl, _, rfl, rfl⟩

/-! ## The bundles that compete -/

omit [Libm] in
theorem existsUnique_of_standing
    (standing : Standing setting prereg branch.index branch.bundle.rules branch.history)
    {position : Nat} (found : branch.bundle.rules[position]? = some rule) :
    ∃! attempt, attempt ∈ branch.history ∧ Appended setting prereg branch.index
      (branch.bundle.rules.take position) rule attempt := by
  rcases standing.appended position rule found with ⟨attempt, mem, appended⟩
  refine ⟨attempt, ⟨mem, appended⟩, ?_⟩
  rintro other ⟨listed, appended_⟩
  have distinct : (branch.history.map Attempt.generation).Nodup := by
    rw [standing.numbered]
    exact List.nodup_range'
  exact List.inj_on_of_nodup_map distinct listed mem
    (appended_.generation.trans appended.generation.symm)

omit [Sha256] [FloatText] [Libm] in
theorem preregistered_eq_iff : seedRecovery prereg = preregistered prereg ↔
    prereg.recoveryName = "regrasp" := by
  constructor
  · intro same
    exact (congrArg RecoverySpec.name same).symm
  · intro name
    rw [seedRecovery, preregistered, name]

omit [Libm] in
theorem earned_of_sealed (sealed_ : Sealed setting prereg generation branch)
    (some_ : branch.bundle.rules ≠ []) :
    branch.Earned setting prereg ↔ prereg.recoveryName = "regrasp" := by
  rw [← preregistered_eq_iff]
  constructor
  · intro earned
    rcases List.exists_cons_of_ne_nil some_ with ⟨seed, rest, rules⟩
    have first : branch.bundle.rules[0]? = some seed := by
      rw [rules]
      rfl
    exact (sealed_.standing.repairs 0 seed first).symm.trans (earned 0 seed first).2
  · intro same position rule found
    refine ⟨existsUnique_of_standing sealed_.standing found, ?_⟩
    rw [sealed_.standing.repairs position rule found, carried]
    split
    · exact same
    · rfl

omit [Libm] in
theorem not_earned_of_seeded (seeded : Seeded prereg branch) :
    ¬ branch.Earned setting prereg := by
  intro earned
  rcases seeded.seed with ⟨rule, only, _⟩
  have first : branch.bundle.rules[0]? = some rule := by
    rw [only]
    rfl
  rcases (earned 0 rule first).1 with ⟨attempt, ⟨mem, _⟩, _⟩
  rw [seeded.fresh] at mem
  exact absurd mem List.not_mem_nil

omit [Sha256] [FloatText] [Libm] in
theorem range_one (count : Nat) : range 1 (count + 1) = List.range' 1 count := by
  rw [range, Nat.add_sub_cancel, List.range'_eq_map_range]

/-- The rules of a bundle that competes have each been promoted in exactly one generation and carry
the preregistered repair, exactly where the campaign has a generation and the preregistered repair
is the default one. -/
theorem earned_iff {beamWidth : Int} {selection : List Int} {blocks : BeamBlocks} {branches : List Branch}
    (ran : branchesOf setting prereg beamWidth selection = .ok (blocks, branches)) :
    ∀ branch ∈ survivors branches, branch.Earned setting prereg ↔
      1 ≤ prereg.maxGenerations ∧ prereg.recoveryName = "regrasp" := by
  intro branch survives
  rcases List.mem_filter.mp survives with ⟨member, nonempty⟩
  have some_ : branch.bundle.rules ≠ [] := of_decide_eq_true nonempty
  rcases of_bind ran with ⟨blocks_, _, ran⟩
  rcases of_bind ran with ⟨start, seeds, ran⟩
  rcases of_bind ran with ⟨grown, grows, ran⟩
  cases ran
  have fresh := seeded_of_seeded seeds
  rw [range_one] at grows
  cases many : prereg.maxGenerations.toNat with
  | zero =>
      rw [many] at grows
      cases grows
      have none_ : ¬ 1 ≤ prereg.maxGenerations := by omega
      exact iff_of_false (not_earned_of_seeded (fresh branch member)) (fun both => none_ both.1)
  | succ more =>
      rw [many, List.range'_succ, generations] at grows
      have first : 1 ≤ prereg.maxGenerations := by omega
      rw [and_iff_right first]
      split at grows
      · rcases of_bind grows with ⟨next, stepped, grows⟩
        have once := forall_mapM (fun _ _ => seeded_stepBranch) fresh stepped
        rcases sealed_generations le_rfl once grows branch member with ⟨last, sealed_⟩
        exact earned_of_sealed sealed_ some_
      · rename_i idle
        cases grows
        exact absurd (List.any_eq_true.mpr ⟨branch, member, (fresh branch member).live⟩) idle

end

theorem lt_trans {first second third : Double} (less : first.lt second = true)
    (more : second.lt third = true) : first.lt third = true := by
  rcases first with ⟨first, _⟩
  rcases second with ⟨second, _⟩
  rcases third with ⟨third, _⟩
  cases first <;> cases second <;> cases third <;> simp_all [Double.lt, PyFloat.lt, PyFloat.toRat?] <;> grind

theorem lt_irrefl (number : Double) : number.lt number = false := by
  rcases number with ⟨number, _⟩
  cases number <;> simp [Double.lt, PyFloat.lt, PyFloat.toRat?]

section

local instance branchesSha : Sha256 := sha256

local instance branchesFloats : FloatText := exactDecimals

local instance branchesLibm : Libm := productPow

theorem six_apart : ∀ seed ∈ ([1, 2, 3, 4, 5, 6] : List Int), seed ∉ ([7] : List Int) := by decide

/-- A campaign of one generation on six seeds, under this repair. -/
def repairing (name : String) : Preregistration :=
  { smallPreregistration with
    dev := [1, 2, 3, 4, 5, 6]
    heldout := [7]
    maxGenerations := 1
    minFixed := 3
    requireJudgement := true
    recoveryName := name
    apart := six_apart }

/-- Every episode fails, but under a rule that waits for a dwell of two. -/
def waits : Executor where
  run := fun _ job => .ok {
    success := job.bundle.any (fun bundle => bundle.rules.all (fun rule => rule.trigger.dwell = 2))
    firedAt := none
    trace := []
    stages := none }

def gapSearch : Search where
  searchTriggers := fun _ _ _ _ _ =>
    .ok [⟨"observable.finger_gap", .gt, Double.nearest (1 / 2), 2, 1, .value⟩]
  screen := fun _ _ _ _ => .ok []

def gapSetting : Setting where
  installed := ⟨featureCatalog, ⟨[("regrasp", []), ("replace", [])]⟩, []⟩
  search := gapSearch
  seeding := waits
  growing := fun _ => waits
  selecting := fun _ => waits
  final := waits

/-- The first rule of a bundle that competes is repaired under this name. -/
def firstRepair (name : String) (branches : List Branch) : Bool :=
  (survivors branches).any (fun branch =>
    branch.bundle.rules[0]?.any (fun rule => rule.recovery.name = name))

theorem exists_of_any {run : Except CampaignError (BeamBlocks × List Branch)} {name : String}
    (found : run.toOption.any (fun found => firstRepair name found.2) = true) :
    ∃ blocks branches, run = .ok (blocks, branches) ∧ firstRepair name branches = true := by
  cases run with
  | error halt => cases found
  | ok ran => exact ⟨ran.1, ran.2, rfl, found⟩

theorem earned_regrasp : ∃ blocks branches,
    branchesOf gapSetting (repairing "regrasp") 1 [8] = .ok (blocks, branches) ∧
      firstRepair "regrasp" branches = true ∧
      ∀ branch ∈ survivors branches, branch.Earned gapSetting (repairing "regrasp") := by
  have found : (branchesOf gapSetting (repairing "regrasp") 1 [8]).toOption.any (fun found =>
      firstRepair "regrasp" found.2) = true := by decide +kernel
  rcases exists_of_any found with ⟨blocks, branches, ran, first⟩
  exact ⟨blocks, branches, ran, first, fun branch survives =>
    (earned_iff ran branch survives).mpr ⟨by decide, rfl⟩⟩

/-- A campaign under another repair selects a rule that carries the default one. -/
theorem seed_regrasps : ∃ blocks branches,
    branchesOf gapSetting (repairing "replace") 1 [8] = .ok (blocks, branches) ∧
      ¬ ∀ branch ∈ survivors branches, branch.Earned gapSetting (repairing "replace") := by
  have found : (branchesOf gapSetting (repairing "replace") 1 [8]).toOption.any (fun found =>
      firstRepair "regrasp" found.2) = true := by decide +kernel
  rcases exists_of_any found with ⟨blocks, branches, ran, first⟩
  refine ⟨blocks, branches, ran, fun earned => ?_⟩
  rcases List.any_eq_true.mp first with ⟨branch, survives, named⟩
  rw [Option.any_eq_true] at named
  rcases named with ⟨rule, at_, regrasps⟩
  have name := congrArg RecoverySpec.name (earned branch survives 0 rule at_).2
  rw [of_decide_eq_true regrasps] at name
  exact absurd name (by decide)

end

end Beam
end Rsi
end PhysicalHarness
