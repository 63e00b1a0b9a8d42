import PhysicalHarness.Harness.EpisodeLog
import PhysicalHarness.Rsi.Governed
import PhysicalHarness.Rsi.Rebuild

namespace PhysicalHarness
namespace Rsi

open Python Harness JsonText Fallible

/-!
# Preregistrations

The partition of the seeds and every constant of a campaign are written down before the
first episode, and hashed.  Fields that were added later fold out of the hash at their
default, so that an older archive keeps its hash.  A sealed preregistration is read back
field by field: a field that is missing has today's default.
-/

/-- `Preregistration`; `__post_init__` refuses overlapping seeds and a percept provider
that is `None`. -/
structure Preregistration where
  dev : List Int
  heldout : List Int
  perceptNoise : Double
  criticBudget : Int
  actionBudget : Int
  recoverySensorSd : Double
  maxGenerations : Int
  task : String
  policy : String
  scaleDevByPower : Bool
  powerFixShare : Double
  powerTarget : Double
  minFixed : Int
  alpha : Double
  searchRecovery : Bool
  recoverySearchN : Int
  screenTriggers : Bool
  priorDiscordanceYield : Double
  minDiscordanceYield : Double
  screenSearchFraction : Double
  requireJudgement : Bool
  judgementFixShare : Double
  priorJudgementYield : Double
  earliness : Double
  fpPenalty : Double
  recoveryName : String
  parentStore : Option String
  parentFinalSha : Option String
  reasoner : Option String
  stages : Option (List StageSpec)
  terminalLabel : Bool
  segmentIsolate : Option (List String)
  horizon : Int
  envProvider : Option String
  policyProvider : Option String
  perceptProvider : String
  apart : ∀ seed ∈ dev, seed ∉ heldout

/-- `DEFAULT_PERCEPT_REF`. -/
def defaultPerceptRef : String := "plugins.embodiment_robosuite.percept:provider"

/-- `DEFAULT_ENV_REF`. -/
def defaultEnvRef : String := "plugins.embodiment_robosuite:provider"

/-! ## The dict of a preregistration -/

def Clause.asdict (clause : Clause) : Json :=
  .obj [("feature", .str clause.feature), ("op", .str clause.op.text),
    ("threshold", .float clause.threshold.value)]

def StageSpec.asdict (stage : StageSpec) : Json :=
  .obj [("name", .str stage.name), ("success", .arr (stage.success.map Clause.asdict)),
    ("budget", .int stage.budget)]

/-- A value or `None`. -/
def orNull {α : Type} (encode : α → Json) : Option α → Json
  | some value => encode value
  | none => .null

def stagesJson (stages : List StageSpec) : Json := .arr (stages.map StageSpec.asdict)

def namesJson (names : List String) : Json := .arr (names.map Json.str)

def seedsJson (seeds : List Int) : Json := .arr (seeds.map Json.int)

namespace Preregistration

/-- `asdict(prereg)`. -/
def asdict (prereg : Preregistration) : List (String × Json) :=
  [("dev", seedsJson prereg.dev), ("heldout", seedsJson prereg.heldout),
    ("percept_noise", .float prereg.perceptNoise.value), ("critic_budget", .int prereg.criticBudget),
    ("action_budget", .int prereg.actionBudget),
    ("recovery_sensor_sd", .float prereg.recoverySensorSd.value),
    ("max_generations", .int prereg.maxGenerations), ("task", .str prereg.task),
    ("policy", .str prereg.policy), ("scale_dev_by_power", .bool prereg.scaleDevByPower),
    ("power_fix_share", .float prereg.powerFixShare.value),
    ("power_target", .float prereg.powerTarget.value), ("min_fixed", .int prereg.minFixed),
    ("alpha", .float prereg.alpha.value), ("search_recovery", .bool prereg.searchRecovery),
    ("recovery_search_n", .int prereg.recoverySearchN),
    ("screen_triggers", .bool prereg.screenTriggers),
    ("prior_discordance_yield", .float prereg.priorDiscordanceYield.value),
    ("min_discordance_yield", .float prereg.minDiscordanceYield.value),
    ("screen_search_fraction", .float prereg.screenSearchFraction.value),
    ("require_judgement", .bool prereg.requireJudgement),
    ("judgement_fix_share", .float prereg.judgementFixShare.value),
    ("prior_judgement_yield", .float prereg.priorJudgementYield.value),
    ("earliness", .float prereg.earliness.value), ("fp_penalty", .float prereg.fpPenalty.value),
    ("recovery_name", .str prereg.recoveryName), ("parent_store", orNull Json.str prereg.parentStore),
    ("parent_final_sha", orNull Json.str prereg.parentFinalSha),
    ("reasoner", orNull Json.str prereg.reasoner), ("stages", orNull stagesJson prereg.stages),
    ("terminal_label", .bool prereg.terminalLabel),
    ("segment_isolate", orNull namesJson prereg.segmentIsolate), ("horizon", .int prereg.horizon),
    ("env_provider", orNull Json.str prereg.envProvider),
    ("policy_provider", orNull Json.str prereg.policyProvider),
    ("percept_provider", .str prereg.perceptProvider)]

/-- `_HASH_FOLD_DEFAULTS`. -/
def hashFoldDefaults : List (String × Json) :=
  [("recovery_name", .str "regrasp"), ("parent_store", .null), ("parent_final_sha", .null),
    ("reasoner", .null), ("segment_isolate", .null), ("horizon", .int 900)]

def folds (field : String × Json) : Bool :=
  hashFoldDefaults.any (fun default => default.1 == field.1 && field.2.eq default.2)

/-- `_hash_payload`. -/
def hashPayload (prereg : Preregistration) : Json :=
  .obj (prereg.asdict.filter (fun field => !folds field))

/-- `Preregistration.sha()`. -/
def sha [Sha256] [FloatText] (prereg : Preregistration) : String :=
  Harness.sha (dumps compact (sortKeys prereg.hashPayload))

end Preregistration

/-- A keyword argument, or its default where the payload has none. -/
def given {α : Type} (fields : List (String × Json)) (name : String)
    (decode : Json → Except PyError α) (default : Except PyError α) : Except PyError α :=
  match Assoc.get? fields name with
  | some value => decode value
  | none => default

def required {α : Type} (fields : List (String × Json)) (name : String)
    (decode : Json → Except PyError α) : Except PyError α :=
  given fields name decode (.error .typeError)

def flag : Json → Except PyError Bool
  | .bool value => .ok value
  | _ => .error .typeError

def listed {α : Type} (decode : Json → Except PyError α) (value : Json) : Except PyError (List α) :=
  value.iter.bind (fun items => items.mapM decode)

/-- A value or `None`. -/
def optional {α : Type} (decode : Json → Except PyError α) (value : Json) :
    Except PyError (Option α) :=
  if value.isNull then .ok none else (decode value).map some

/-- `Clause(**c)`. -/
def readClause (value : Json) : Except PyError Clause := do
  let feature ← (← value.item "feature").text
  let op ← opOf (← value.item "op")
  let threshold ← number (← value.item "threshold")
  return ⟨feature, op, threshold⟩

def readStage (value : Json) : Except PyError StageSpec := do
  let name ← (← value.item "name").text
  let success ← listed readClause (← value.item "success")
  let budget ← integer (← value.item "budget")
  return ⟨name, success, budget⟩

/-- The text of the refusal in `__post_init__`. -/
def overlapText [Host] (overlap : List Int) : String :=
  "dev and held-out seeds overlap: " ++
    Host.repr (seedsJson ((overlap.dedup.insertionSort (· ≤ ·)).take 5))

/-- `rebuild_preregistration`; keys that the dataclass does not declare are dropped. -/
def rebuildPreregistration [Host] (payload : Json) : Except PyError Preregistration := do
  let fields ← payload.dict
  let dev ← required fields "dev" (listed integer)
  let heldout ← required fields "heldout" (listed integer)
  let perceptNoise ← required fields "percept_noise" number
  let criticBudget ← required fields "critic_budget" integer
  let actionBudget ← required fields "action_budget" integer
  let recoverySensorSd ← required fields "recovery_sensor_sd" number
  let maxGenerations ← required fields "max_generations" integer
  let task ← given fields "task" Json.text (.ok "lift")
  let policy ← given fields "policy" Json.text (.ok "scripted")
  let scaleDevByPower ← given fields "scale_dev_by_power" flag (.ok false)
  let powerFixShare ← given fields "power_fix_share" number (.ok (Double.nearest (4 / 5)))
  let powerTarget ← given fields "power_target" number (.ok (Double.nearest (4 / 5)))
  let minFixed ← given fields "min_fixed" integer (.ok 3)
  let alpha ← given fields "alpha" number (.ok (Double.nearest (1 / 20)))
  let searchRecovery ← given fields "search_recovery" flag (.ok false)
  let recoverySearchN ← given fields "recovery_search_n" integer (.ok 60)
  let screenTriggers ← given fields "screen_triggers" flag (.ok false)
  let priorDiscordanceYield ←
    given fields "prior_discordance_yield" number (.ok (Double.nearest (7 / 10)))
  let minDiscordanceYield ←
    given fields "min_discordance_yield" number (.ok (Double.nearest (1 / 20)))
  let screenSearchFraction ←
    given fields "screen_search_fraction" number (.ok (Double.nearest (1 / 2)))
  let requireJudgement ← given fields "require_judgement" flag (.ok true)
  let judgementFixShare ← given fields "judgement_fix_share" number (.ok (Double.nearest (7 / 10)))
  let priorJudgementYield ←
    given fields "prior_judgement_yield" number (.ok (Double.nearest (7 / 20)))
  let earliness ← given fields "earliness" number (.ok (Double.nearest 0))
  let fpPenalty ← given fields "fp_penalty" number (.ok (Double.nearest (6 / 5)))
  let recoveryName ← given fields "recovery_name" Json.text (.ok "regrasp")
  let parentStore ← given fields "parent_store" (optional Json.text) (.ok none)
  let parentFinalSha ← given fields "parent_final_sha" (optional Json.text) (.ok none)
  let reasoner ← given fields "reasoner" (optional Json.text) (.ok none)
  let stages ← given fields "stages" (optional (listed readStage)) (.ok none)
  let terminalLabel ← given fields "terminal_label" flag (.ok false)
  let segmentIsolate ← given fields "segment_isolate" (optional (listed Json.text)) (.ok none)
  let horizon ← given fields "horizon" integer (.ok 900)
  let envProvider ← given fields "env_provider" (optional Json.text) (.ok none)
  let policyProvider ← given fields "policy_provider" (optional Json.text) (.ok none)
  let perceptProvider ← given fields "percept_provider" (optional Json.text) (.ok none)
  if apart : ∀ seed ∈ dev, seed ∉ heldout then
    return {
      dev, heldout, perceptNoise, criticBudget, actionBudget, recoverySensorSd, maxGenerations,
      task, policy, scaleDevByPower, powerFixShare, powerTarget, minFixed, alpha, searchRecovery,
      recoverySearchN, screenTriggers, priorDiscordanceYield, minDiscordanceYield,
      screenSearchFraction, requireJudgement, judgementFixShare, priorJudgementYield, earliness,
      fpPenalty, recoveryName, parentStore, parentFinalSha, reasoner, stages, terminalLabel,
      segmentIsolate, horizon, envProvider, policyProvider
      perceptProvider := perceptProvider.getD defaultPerceptRef, apart }
  else .error (.valueError (overlapText (dev.filter (fun seed => seed ∈ heldout))))

/-! ## The round trip -/

section

variable (prereg : Preregistration)

def storedFields : List (String × Json) :=
  sortFields (sortValues (prereg.asdict.filter (fun field => !Preregistration.folds field)))

theorem nodup_asdict : (Assoc.keys prereg.asdict).Nodup := by
  change ["dev", "heldout", "percept_noise", "critic_budget", "action_budget", "recovery_sensor_sd",
    "max_generations", "task", "policy", "scale_dev_by_power", "power_fix_share", "power_target",
    "min_fixed", "alpha", "search_recovery", "recovery_search_n", "screen_triggers",
    "prior_discordance_yield", "min_discordance_yield", "screen_search_fraction",
    "require_judgement", "judgement_fix_share", "prior_judgement_yield", "earliness", "fp_penalty",
    "recovery_name", "parent_store", "parent_final_sha", "reasoner", "stages", "terminal_label",
    "segment_isolate", "horizon", "env_provider", "policy_provider", "percept_provider"].Nodup
  decide +kernel

theorem get?_stored (name : String) : Assoc.get? (storedFields prereg) name =
    ((Assoc.get? prereg.asdict name).filter (fun value =>
      !Preregistration.folds (name, value))).map sortKeys := by
  have unique := nodup_asdict prereg
  have fewer : (Assoc.keys (prereg.asdict.filter (fun field =>
      !Preregistration.folds field))).Nodup :=
    unique.sublist (List.filter_sublist.map Prod.fst)
  rw [storedFields, get?_sorted fewer, Assoc.get?_filter unique]

variable {prereg} {α : Type} (name : String) {value : Json} {decode : Json → Except PyError α}
  {default : Except PyError α} {result : α}

theorem given_stored (listed : Assoc.get? prereg.asdict name = some value)
    (read : decode (sortKeys value) = .ok result)
    (folded : Preregistration.folds (name, value) = true → default = .ok result) :
    given (storedFields prereg) name decode default = .ok result := by
  rw [given, get?_stored, listed, Option.filter_some]
  by_cases folds : Preregistration.folds (name, value) = true
  · rw [folds]
    exact folded folds
  · rw [Bool.eq_false_of_not_eq_true folds]
    exact read

theorem given_kept (listed : Assoc.get? prereg.asdict name = some value)
    (read : decode (sortKeys value) = .ok result)
    (kept : Preregistration.folds (name, value) = false) :
    given (storedFields prereg) name decode default = .ok result :=
  given_stored name listed read (fun folded => by cases kept.symm.trans folded)

end

theorem number_value (value : Double) : number (sortKeys (.float value.value)) = .ok value :=
  congrArg Except.ok (toDouble_value value)

theorem integer_value (value : Int) : integer (sortKeys (.int value)) = .ok value := rfl

theorem text_value (value : String) : (sortKeys (.str value)).text = .ok value := rfl

theorem flag_value (value : Bool) : flag (sortKeys (.bool value)) = .ok value := rfl

theorem sortItems_eq_map (items : List Json) : sortItems items = items.map sortKeys := by
  induction items with
  | nil => rfl
  | cons item rest ih => rw [sortItems, ih, List.map_cons]

variable {α : Type} {encode : α → Json}

theorem listed_map {decode : Json → Except PyError α}
    (read : ∀ value, decode (sortKeys (encode value)) = .ok value) (values : List α) :
    listed decode (sortKeys (.arr (values.map encode))) = .ok values := by
  rw [sortKeys, sortItems_eq_map, List.map_map]
  change (values.map _).mapM decode = _
  rw [mapM_eq_ok_iff, List.forall₂_map_left_iff, List.forall₂_same]
  exact fun value _ => read value

theorem optional_orNull {decode : Json → Except PyError α}
    (solid : ∀ value, (sortKeys (encode value)).isNull = false)
    (read : ∀ value, decode (sortKeys (encode value)) = .ok value) (value : Option α) :
    optional decode (sortKeys (orNull encode value)) = .ok value := by
  cases value with
  | none => rfl
  | some value =>
      rw [orNull, optional, solid, read]
      rfl

theorem readClause_asdict (clause : Clause) : readClause (sortKeys clause.asdict) = .ok clause := by
  have fields : sortKeys clause.asdict = .obj [("feature", .str clause.feature),
      ("op", .str clause.op.text), ("threshold", .float clause.threshold.value)] := by
    simp [Clause.asdict, sortKeys, sortValues, sortFields, List.insertionSort]
  have threshold : number (.float clause.threshold.value) = .ok clause.threshold :=
    number_value clause.threshold
  rw [fields]
  change (opOf (.str clause.op.text)).bind (fun op =>
    (number (.float clause.threshold.value)).bind (fun threshold =>
      .ok (Clause.mk clause.feature op threshold))) = _
  rw [opOf_text, threshold]
  rfl

theorem readStage_asdict (stage : StageSpec) : readStage (sortKeys stage.asdict) = .ok stage := by
  have fields : sortKeys stage.asdict = .obj [("budget", .int stage.budget),
      ("name", .str stage.name), ("success", sortKeys (.arr (stage.success.map Clause.asdict)))] := by
    simp [StageSpec.asdict, sortKeys, sortValues, sortFields, List.insertionSort, List.orderedInsert]
  have success := listed_map readClause_asdict stage.success
  rw [fields]
  change (listed readClause (sortKeys (.arr (stage.success.map Clause.asdict)))).bind (fun success =>
    .ok (StageSpec.mk stage.name success stage.budget)) = _
  rw [success]
  rfl

theorem eq_null_iff (solid : ∀ value, (encode value).eq .null = false) {value : Option α}
    (same : (orNull encode value).eq .null = true) : value = none := by
  cases value with
  | none => rfl
  | some value => cases (solid value).symm.trans same

theorem folds_orNull {name : String} (solid : ∀ value, (encode value).eq .null = false)
    {value : Option α} (apart : name ≠ "recovery_name" ∧ name ≠ "horizon")
    (folded : Preregistration.folds (name, orNull encode value) = true) : value = none := by
  rw [Preregistration.folds, List.any_eq_true] at folded
  rcases folded with ⟨default, mem, same⟩
  rw [Bool.and_eq_true, beq_iff_eq] at same
  simp only [Preregistration.hashFoldDefaults, List.mem_cons, List.not_mem_nil, or_false] at mem
  rcases mem with rfl | rfl | rfl | rfl | rfl | rfl
  · exact absurd same.1.symm apart.1
  · exact eq_null_iff solid same.2
  · exact eq_null_iff solid same.2
  · exact eq_null_iff solid same.2
  · exact eq_null_iff solid same.2
  · exact absurd same.1.symm apart.2

theorem rebuildPreregistration_stored [Host] (prereg : Preregistration) :
    rebuildPreregistration (sortKeys prereg.hashPayload) = .ok prereg := by
  have dict : (sortKeys prereg.hashPayload).dict = .ok (storedFields prereg) := rfl
  have texts : ∀ value : Option String,
      optional Json.text (sortKeys (orNull Json.str value)) = .ok value :=
    optional_orNull (fun _ => rfl) (fun _ => rfl)
  have names : ∀ value : Option (List String),
      optional (listed Json.text) (sortKeys (orNull namesJson value)) = .ok value :=
    optional_orNull (fun _ => rfl) (listed_map (fun _ => rfl))
  have chains : ∀ value : Option (List StageSpec),
      optional (listed readStage) (sortKeys (orNull stagesJson value)) = .ok value :=
    optional_orNull (fun _ => rfl) (listed_map readStage_asdict)
  have absent : ∀ {name : String} {value : Option String},
      name ≠ "recovery_name" ∧ name ≠ "horizon" →
      Preregistration.folds (name, orNull Json.str value) = true →
        (.ok none : Except PyError (Option String)) = .ok value := by
    intro name value apart folded
    rw [folds_orNull (fun _ => rfl) apart folded]
  have seeds : ∀ values : List Int, listed integer (sortKeys (seedsJson values)) = .ok values :=
    listed_map (fun _ => rfl)
  have recoveryName : Preregistration.folds ("recovery_name", .str prereg.recoveryName) = true →
      (.ok "regrasp" : Except PyError String) = .ok prereg.recoveryName := by
    intro folded
    have same : (Json.str prereg.recoveryName).eq (.str "regrasp") = true := by
      simpa [Preregistration.folds, Preregistration.hashFoldDefaults] using folded
    exact congrArg Except.ok (Json.str.inj ((Json.eq_str_iff _ _).mp same)).symm
  have segments : Preregistration.folds ("segment_isolate", orNull namesJson prereg.segmentIsolate) =
      true → (.ok none : Except PyError (Option (List String))) = .ok prereg.segmentIsolate := by
    intro folded
    rw [folds_orNull (fun _ => rfl) (by decide) folded]
  have horizon : Preregistration.folds ("horizon", .int prereg.horizon) = true →
      (.ok 900 : Except PyError Int) = .ok prereg.horizon := by
    intro folded
    have same : (Json.int prereg.horizon).eq (.int 900) = true := by
      simpa [Preregistration.folds, Preregistration.hashFoldDefaults] using folded
    have number : (prereg.horizon : ℚ) = 900 := by
      simpa [Json.eq, Json.sameScalar, Json.toRat?] using same
    exact congrArg Except.ok (by exact_mod_cast number.symm)
  have percept : optional Json.text (sortKeys (.str prereg.perceptProvider)) =
      .ok (some prereg.perceptProvider) := rfl
  rw [rebuildPreregistration, dict, bind_ok]
  simp only [required]
  rw [given_kept "dev" rfl (seeds prereg.dev) rfl, bind_ok]
  rw [given_kept "heldout" rfl (seeds prereg.heldout) rfl, bind_ok]
  rw [given_kept "percept_noise" rfl (number_value _) rfl, bind_ok]
  rw [given_kept "critic_budget" rfl (integer_value _) rfl, bind_ok]
  rw [given_kept "action_budget" rfl (integer_value _) rfl, bind_ok]
  rw [given_kept "recovery_sensor_sd" rfl (number_value _) rfl, bind_ok]
  rw [given_kept "max_generations" rfl (integer_value _) rfl, bind_ok]
  rw [given_kept "task" rfl (text_value _) rfl, bind_ok]
  rw [given_kept "policy" rfl (text_value _) rfl, bind_ok]
  rw [given_kept "scale_dev_by_power" rfl (flag_value _) rfl, bind_ok]
  rw [given_kept "power_fix_share" rfl (number_value _) rfl, bind_ok]
  rw [given_kept "power_target" rfl (number_value _) rfl, bind_ok]
  rw [given_kept "min_fixed" rfl (integer_value _) rfl, bind_ok]
  rw [given_kept "alpha" rfl (number_value _) rfl, bind_ok]
  rw [given_kept "search_recovery" rfl (flag_value _) rfl, bind_ok]
  rw [given_kept "recovery_search_n" rfl (integer_value _) rfl, bind_ok]
  rw [given_kept "screen_triggers" rfl (flag_value _) rfl, bind_ok]
  rw [given_kept "prior_discordance_yield" rfl (number_value _) rfl, bind_ok]
  rw [given_kept "min_discordance_yield" rfl (number_value _) rfl, bind_ok]
  rw [given_kept "screen_search_fraction" rfl (number_value _) rfl, bind_ok]
  rw [given_kept "require_judgement" rfl (flag_value _) rfl, bind_ok]
  rw [given_kept "judgement_fix_share" rfl (number_value _) rfl, bind_ok]
  rw [given_kept "prior_judgement_yield" rfl (number_value _) rfl, bind_ok]
  rw [given_kept "earliness" rfl (number_value _) rfl, bind_ok]
  rw [given_kept "fp_penalty" rfl (number_value _) rfl, bind_ok]
  rw [given_stored "recovery_name" rfl (text_value _) recoveryName, bind_ok]
  rw [given_stored "parent_store" rfl (texts _) (absent (by decide)), bind_ok]
  rw [given_stored "parent_final_sha" rfl (texts _) (absent (by decide)), bind_ok]
  rw [given_stored "reasoner" rfl (texts _) (absent (by decide)), bind_ok]
  rw [given_kept "stages" rfl (chains _) rfl, bind_ok]
  rw [given_kept "terminal_label" rfl (flag_value _) rfl, bind_ok]
  rw [given_stored "segment_isolate" rfl (names _) segments, bind_ok]
  rw [given_stored "horizon" rfl (integer_value _) horizon, bind_ok]
  rw [given_kept "env_provider" rfl (texts _) rfl, bind_ok]
  rw [given_kept "policy_provider" rfl (texts _) rfl, bind_ok]
  rw [given_kept "percept_provider" rfl percept rfl, bind_ok]
  rw [dif_pos prereg.apart]
  rfl

section

variable {floats : PyFloat → Prop} {keys : List String → Prop}

theorem throughout_orNull {α : Type} {encode : α → Json}
    (each : ∀ value, Throughout floats keys (encode value)) (value : Option α) :
    Throughout floats keys (orNull encode value) := by
  cases value with
  | none => exact trivial
  | some value => exact each value

theorem throughout_stage (doubles : ∀ value : Double, floats value.value)
    (clauseKeys : keys ["feature", "op", "threshold"]) (stageKeys : keys ["name", "success", "budget"])
    (stage : StageSpec) : Throughout floats keys stage.asdict := by
  have clauses : ThroughoutItems floats keys (stage.success.map Clause.asdict) :=
    throughoutItems_map Clause.asdict (fun clause =>
      ⟨clauseKeys, trivial, trivial, doubles clause.threshold, trivial⟩) _
  exact ⟨stageKeys, trivial, clauses, trivial, trivial⟩

theorem throughout_hashPayload (doubles : ∀ value : Double, floats value.value)
    (clauseKeys : keys ["feature", "op", "threshold"]) (stageKeys : keys ["name", "success", "budget"])
    (prereg : Preregistration)
    (payloadKeys : keys (Assoc.keys (prereg.asdict.filter (fun field =>
      !Preregistration.folds field)))) : Throughout floats keys prereg.hashPayload := by
  have seeds : ∀ values, Throughout floats keys (seedsJson values) :=
    throughoutItems_map Json.int (fun _ => trivial)
  have texts : ∀ value, Throughout floats keys (orNull Json.str value) :=
    throughout_orNull (fun _ => trivial)
  have names : ∀ value, Throughout floats keys (orNull namesJson value) :=
    throughout_orNull (throughoutItems_map Json.str (fun _ => trivial))
  have stages : ∀ value, Throughout floats keys (orNull stagesJson value) :=
    throughout_orNull (throughoutItems_map StageSpec.asdict
      (throughout_stage doubles clauseKeys stageKeys))
  have fields : ThroughoutFields floats keys prereg.asdict :=
    ⟨seeds _, seeds _, doubles _, trivial, trivial, doubles _, trivial, trivial, trivial, trivial,
      doubles _, doubles _, trivial, doubles _, trivial, trivial, trivial, doubles _, doubles _,
      doubles _, trivial, doubles _, doubles _, doubles _, doubles _, trivial, texts _, texts _,
      texts _, stages _, trivial, names _, trivial, texts _, texts _, trivial, trivial⟩
  rw [throughoutFields_iff] at fields
  refine ⟨payloadKeys, (throughoutFields_iff _).mpr (fun field mem => ?_)⟩
  exact fields field (List.mem_of_mem_filter mem)

end

theorem proper_hashPayload (prereg : Preregistration) : Proper prereg.hashPayload :=
  throughout_hashPayload (fun value => value.double) trivial trivial prereg trivial

theorem distinct_hashPayload (prereg : Preregistration) : Distinct prereg.hashPayload := by
  refine throughout_hashPayload (fun _ => trivial) (by decide) (by decide) prereg ?_
  exact (nodup_asdict prereg).sublist (List.filter_sublist.map Prod.fst)

theorem rebuildPreregistration_archived [Host] (prereg : Preregistration) :
    rebuildPreregistration (rebuild gather (sortKeys prereg.hashPayload)) = .ok prereg := by
  rw [rebuild_gather_of_distinct _ (Ordered.distinct (ordered_sortKeys (distinct_hashPayload prereg)))]
  exact rebuildPreregistration_stored prereg

end Rsi
end PhysicalHarness
