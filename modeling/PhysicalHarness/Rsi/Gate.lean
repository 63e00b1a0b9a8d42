import PhysicalHarness.Rsi.Governed
import PhysicalHarness.Rsi.Power
import PhysicalHarness.Rsi.Store

namespace PhysicalHarness
namespace Rsi

open Python Harness JsonText Fallible

/-!
# The paired gate

Both arms run the same seeds, and only the pairs that differ are tested.  Rollouts are
the executor's; what a rollout returns is read here by its label, its fires and its
stages.
-/

/-- `EpisodeSpec`, with the fields that only the plant reads. -/
structure RolloutSpec extends EpisodeSpec where
  task : String
  policy : String
  perceptNoise : Double
  terminalLabel : Bool
  envProvider : Option String
  policyProvider : Option String
  perceptProvider : String
  segmentIsolate : Option (List String)
  horizon : Int

/-- What is read of the result of a governed rollout. -/
structure RolloutResult where
  success : Bool
  firedAt : Option Int
  trace : List (String × List Double)
  stages : Option (List StageResult)

/-- The arguments of `_run`. -/
structure Job where
  spec : RolloutSpec
  bundle : Option Bundle

/-- The calls of `map` of a campaign. -/
inductive Call where
  | current (generation : Nat)
  | gate (generation : Nat)
  | blindGate (generation : Nat)
  | heldout
  | heldoutBlind
  | ablation (sensorSd : Double)
  deriving DecidableEq

inductive CampaignError where
  | raised (error : PyError)
  | number (error : NumberError)
  | store (error : StoreError)
  | assertionError (text : String)
  | recursionError
  deriving DecidableEq

/-- The executor of the rollouts; its results need not be the same in another call. -/
structure Executor where
  run : Call → Job → Except CampaignError RolloutResult

/-- `map(_run, jobs)`: one result for each job, in order. -/
def Executor.map (executor : Executor) (call : Call) (jobs : List Job) :
    Except CampaignError (List RolloutResult) := jobs.mapM (executor.run call)

def raised {α : Type} (run : Except PyError α) : Except CampaignError α := run.mapError .raised

def numeric {α : Type} (run : Except NumberError α) : Except CampaignError α := run.mapError .number

/-! ## The gate -/

/-- One paired comparison of two arms. -/
structure PairedResult where
  n : Nat
  baseRate : Double
  governedRate : Double
  fixed : Nat
  broken : Nat
  fires : Nat
  pValue : Double
  declaredPrivilege : Nat

namespace PairedResult

def delta (result : PairedResult) : Double := result.governedRate.sub result.baseRate

/-- `asdict(result)`. -/
def asdict (result : PairedResult) : Json :=
  .obj [("n", .int result.n), ("base_rate", .float result.baseRate.value),
    ("governed_rate", .float result.governedRate.value), ("fixed", .int result.fixed),
    ("broken", .int result.broken), ("fires", .int result.fires),
    ("p_value", .float result.pValue.value),
    ("declared_privilege", .int result.declaredPrivilege)]

end PairedResult

/-- `exact_mcnemar`, which computes what `mcnemar_p` does. -/
def exactMcnemar (fixed broken : Nat) : Except NumberError Double := mcnemarP fixed broken

def meanOf (labels : List Bool) : Double :=
  if labels = [] then Double.nan
  else Double.nearest ((labels.count true : ℚ) / labels.length)

/-- The cards that are installed: their features, their strategies and who declares which. -/
structure Installed where
  registry : Registry
  repertoire : Repertoire
  /-- The embodiment card that declares each strategy. -/
  cards : List (String × String)

/-- `strategies_for`. -/
def Installed.strategiesFor (installed : Installed) (card : String) : List String :=
  (installed.cards.filter (fun entry => entry.2 = card)).map Prod.fst

/-- `declared_privilege()`; an unknown feature raises `KeyError`. -/
def declared (installed : Installed) (bundle : Bundle) : Except CampaignError Nat :=
  match bundle.declaredPrivilege installed.registry with
  | some cost => .ok cost
  | none => .error (.raised .keyError)

/-- `paired_gate`. -/
def pairedGate (installed : Installed) (executor : Executor) (call : Call) (specs : List RolloutSpec)
    (bundle : Bundle) (baseline : Option Bundle) : Except CampaignError PairedResult := do
  let out ← executor.map call (specs.map (Job.mk · baseline) ++ specs.map (Job.mk · (some bundle)))
  let base := (out.take specs.length).map RolloutResult.success
  let governed := (out.drop specs.length).map RolloutResult.success
  let fixed := (base.zip governed).countP (fun pair => !pair.1 && pair.2)
  let broken := (base.zip governed).countP (fun pair => pair.1 && !pair.2)
  let pValue ← numeric (exactMcnemar fixed broken)
  let declaredPrivilege ← declared installed bundle
  return {
    n := specs.length
    baseRate := meanOf base
    governedRate := meanOf governed
    fixed, broken
    fires := (out.drop specs.length).countP (fun result => result.firedAt.isSome)
    pValue, declaredPrivilege }

def degraded (bundle : Bundle) (sensorSd : Double) : Bundle :=
  { bundle with rules := bundle.rules.map (fun rule =>
      { rule with recovery := { rule.recovery with sensorSd } }) }

def sensorSds : List Double :=
  [Double.nearest 0, Double.nearest (1 / 100), Double.nearest (2 / 100), Double.nearest (3 / 100)]

/-- `ablation_curve`. -/
def ablationCurve (installed : Installed) (executor : Executor) (specs : List RolloutSpec)
    (bundle : Bundle) : Except CampaignError (List (Double × PairedResult)) :=
  sensorSds.mapM (fun sensorSd =>
    (pairedGate installed executor (.ablation sensorSd) specs (degraded bundle sensorSd) none).map
      (fun result => (sensorSd, result)))

/-- The two executors return the same for every job of these seeds. -/
def AgreeOn (seeds : List Int) (left right : Executor) : Prop :=
  ∀ call job, job.spec.seed ∈ seeds → left.run call job = right.run call job

section

variable {seeds : List Int} {left right : Executor}

theorem map_congr (agree : AgreeOn seeds left right) (call : Call) {jobs : List Job}
    (within : ∀ job ∈ jobs, job.spec.seed ∈ seeds) : left.map call jobs = right.map call jobs := by
  rw [Executor.map, Executor.map]
  induction jobs with
  | nil => rfl
  | cons job rest ih =>
      rw [List.mapM_cons, List.mapM_cons, agree call job (within job List.mem_cons_self),
        ih (fun job mem => within job (.tail _ mem))]

theorem pairedGate_congr (installed : Installed) (agree : AgreeOn seeds left right) (call : Call)
    {specs : List RolloutSpec} (within : ∀ spec ∈ specs, spec.seed ∈ seeds) (bundle : Bundle)
    (baseline : Option Bundle) : pairedGate installed left call specs bundle baseline =
      pairedGate installed right call specs bundle baseline := by
  have jobs : ∀ job ∈ specs.map (Job.mk · baseline) ++ specs.map (Job.mk · (some bundle)),
      job.spec.seed ∈ seeds := by
    intro job mem
    rcases List.mem_append.mp mem with first | second
    · rcases List.mem_map.mp first with ⟨spec, listed, rfl⟩
      exact within spec listed
    · rcases List.mem_map.mp second with ⟨spec, listed, rfl⟩
      exact within spec listed
  rw [pairedGate, pairedGate, map_congr agree call jobs]

end

end Rsi
end PhysicalHarness
