import PhysicalHarness.Rsi.Appended
import PhysicalHarness.Rsi.Gate

namespace PhysicalHarness
namespace Rsi

open Python Harness JsonText Fallible

/-!
# What a gate measures

A rollout opens an episode, drives it, and scores the end; a spec with isolated segments
drives the sub-goals before the last one ungoverned.  The two arms of a gate take the same
path, and differ where the appended rule has fired.
-/

/-- The embodiment of an episode. -/
structure Embodiment (World Obs Action Goal Actor : Type) where
  /-- The environment and the driver of the first spec, and the percept of the second. -/
  plant : RolloutSpec → RolloutSpec → Plant World Obs Action Goal Actor
  /-- `make_env`, `reset`, `make_driver` and `observe_once`. -/
  opening : RolloutSpec → Except PyError (World × Obs)
  /-- `float(obs[embodiment.object_key(spec)][2])`. -/
  startHeight : RolloutSpec → Obs → Except PyError Double
  success : RolloutSpec → Obs → Double → Except PyError Bool
  /-- `terminal_success`, where the embodiment has it. -/
  terminalSuccess : RolloutSpec → Option (World → Obs → Double → Except PyError Bool)
  /-- `driver.enter_segment`, where the driver has it. -/
  enterSegment : RolloutSpec → Option (World → RolloutSpec → Except PyError World)
  /-- `driver.segment_success(env)`. -/
  segmentSuccess : World → Except PyError Bool
  /-- `env.close()`. -/
  close : World → Except PyError Unit
  /-- `type(embodiment).__name__`. -/
  name : RolloutSpec → String
  /-- `type(driver).__name__`. -/
  driverName : RolloutSpec → String

/-- A rollout that ended: its label, and the segment that is reported. -/
structure Rollout (World Action Obs : Type) where
  success : Bool
  drove : Drove World Action Obs

/-- What the gate reads of it. -/
def Rollout.result {World Action Obs : Type} (rollout : Rollout World Action Obs) : RolloutResult where
  success := rollout.success
  firedAt := rollout.drove.segment.fires.head?.map (fun fire => (fire.step : Int))
  trace := rollout.drove.segment.trace
  stages := rollout.drove.segment.stages

section

variable {World Obs Action Goal Actor : Type}

/-- `score_terminal`. -/
def scoreTerminal (embodiment : Embodiment World Obs Action Goal Actor) (spec : RolloutSpec)
    (world : World) (obs : Obs) (startZ : Double) : Except PyError Bool :=
  if spec.terminalLabel then
    match embodiment.terminalSuccess spec with
    | none => .error (.valueError ("spec.terminal_label is set but embodiment " ++ embodiment.name spec ++
        " has no terminal_success; refusing to fall back to the sub-goal (round 79)"))
    | some terminal => terminal world obs startZ
  else embodiment.success spec obs startZ

variable [Sha256] [FloatText] (registry : Registry) (embodiment : Embodiment World Obs Action Goal Actor)
  (spec : RolloutSpec) (bundle : Option Bundle)

/-- The sub-goals of `isolated_segment_rollout` from one on; the last one is governed, and
one before it that fails ends the rollout. -/
def isolatedFrom (enter : World → RolloutSpec → Except PyError World) (world : World) (obs : Obs)
    (cursor : Nat) (subtask : String) : List String → Except Halt (Rollout World Action Obs)
  | [] =>
      let segSpec := { spec with task := subtask }
      (lift (enter world segSpec)).bind (fun world =>
        (driveSegment registry (embodiment.plant spec segSpec) segSpec.toEpisodeSpec bundle world obs
          (max (spec.horizon - cursor) 1)).bind (fun drove =>
            (lift (embodiment.segmentSuccess drove.world)).map (fun success => ⟨success, drove⟩)))
  | next :: rest =>
      let segSpec := { spec with task := subtask }
      (lift (enter world segSpec)).bind (fun world =>
        (driveSegment registry (embodiment.plant spec segSpec) segSpec.toEpisodeSpec none world obs
          (max (spec.horizon - cursor) 1)).bind (fun drove =>
            (lift (embodiment.segmentSuccess drove.world)).bind (fun success =>
              if success then
                isolatedFrom enter drove.world drove.segment.obs (cursor + drove.segment.steps) next rest
              else .ok ⟨success, drove⟩)))

/-- `isolated_segment_rollout`. -/
def isolatedSegmentRollout (subtask : String) (rest : List String) :
    Except Halt (Rollout World Action Obs) :=
  (lift (embodiment.opening spec)).bind (fun opened =>
    match embodiment.enterSegment spec with
    | none =>
        (lift (embodiment.close opened.1)).bind (fun _ =>
          .error (.raised (.valueError ("segment_isolate needs an episodic-segment driver " ++
            "(enter_segment); " ++ embodiment.driverName spec ++
            " is obs-only retargetable, no isolated path"))))
    | some enter =>
        (isolatedFrom registry embodiment spec bundle enter opened.1 opened.2 0 subtask rest).bind
          (fun rollout => (lift (embodiment.close rollout.drove.world)).map (fun _ => rollout)))

def wholeRollout : Except Halt (Rollout World Action Obs) :=
  (lift (embodiment.opening spec)).bind (fun opened =>
    (lift (embodiment.startHeight spec opened.2)).bind (fun startZ =>
      (driveSegment registry (embodiment.plant spec spec) spec.toEpisodeSpec bundle opened.1 opened.2
        spec.horizon).bind (fun drove =>
          (lift (scoreTerminal embodiment spec drove.world drove.segment.obs startZ)).bind
            (fun success => (lift (embodiment.close drove.world)).map (fun _ => ⟨success, drove⟩)))))

/-- `governed_rollout`. -/
def governedRollout : Except Halt (Rollout World Action Obs) :=
  match spec.segmentIsolate with
  | some (subtask :: rest) => isolatedSegmentRollout registry embodiment spec bundle subtask rest
  | _ => wholeRollout registry embodiment spec bundle

/-- The rule at a position fires in the rollout. -/
def firedOn (position : Nat) : Bool :=
  match governedRollout registry embodiment spec bundle with
  | .ok rollout => rollout.drove.moments.any (fun moment => moment.fired = some position)
  | .error _ => false

end

section

variable {World Obs Action Goal Actor : Type} [Sha256] [FloatText] {registry : Registry}
  {embodiment : Embodiment World Obs Action Goal Actor} {spec : RolloutSpec}
  {repertoire : Repertoire} {rule : Rule} {base : Option Bundle} {child : Bundle}

theorem drove_apart (grown : Grown repertoire rule base child)
    {plant : Plant World Obs Action Goal Actor} {spec : EpisodeSpec} {world : World} {obs : Obs}
    {stepBudget : Int} {drove drove_ : Drove World Action Obs}
    (ran : driveSegment registry plant spec base world obs stepBudget = .ok drove)
    (ran_ : driveSegment registry plant spec (some child) world obs stepBudget = .ok drove_) :
    (∃ moment ∈ drove_.moments, moment.fired = some (rulesOf base).length) ∨
      (drove_.world = drove.world ∧ drove_.segment.obs = drove.segment.obs) := by
  rcases segments_attributed grown ran ran_ with ⟨attributed, worlds⟩
  cases attributed with
  | parts before shared _ _ _ =>
      rcases shared with ⟨moment, rest, rest_, _, split_, _⟩
      apply Or.inl
      rw [split_]
      exact ⟨_, List.mem_append_right _ (.head _), rfl⟩
  | never shared quiet obs _ _ _ _ _ =>
      rw [shared] at worlds
      exact Or.inr ⟨worlds quiet, obs⟩

variable {rollout_ rollout : Rollout World Action Obs} {specs : List RolloutSpec}

theorem isolatedFrom_apart (grown : Grown repertoire rule base child)
    {enter : World → RolloutSpec → Except PyError World} {world : World} {obs : Obs} {cursor : Nat}
    {subtask : String} {rest : List String}
    (ran : isolatedFrom registry embodiment spec base enter world obs cursor subtask rest = .ok rollout)
    (ran_ : isolatedFrom registry embodiment spec (some child) enter world obs cursor subtask rest =
      .ok rollout_) :
    (∃ moment ∈ rollout_.drove.moments, moment.fired = some (rulesOf base).length) ∨
      rollout_.success = rollout.success := by
  induction rest generalizing world obs cursor subtask with
  | nil =>
      rcases of_bind ran with ⟨entered, enters, later⟩
      rcases of_bind ran_ with ⟨entered_, enters_, later_⟩
      cases enters.symm.trans enters_
      rcases of_bind later with ⟨drove, drives, later⟩
      rcases of_bind later_ with ⟨drove_, drives_, later_⟩
      rcases map_eq_ok.mp later with ⟨success, scored, rfl⟩
      rcases map_eq_ok.mp later_ with ⟨success_, scored_, rfl⟩
      rcases drove_apart grown drives drives_ with fired | ⟨same, _⟩
      · exact Or.inl fired
      · rw [same] at scored_
        exact Or.inr (Except.ok.inj (scored_.symm.trans scored))
  | cons next rest ih =>
      rcases of_bind ran with ⟨entered, enters, later⟩
      rcases of_bind ran_ with ⟨entered_, enters_, later_⟩
      cases enters.symm.trans enters_
      rcases of_bind later with ⟨drove, drives, later⟩
      rcases of_bind later_ with ⟨drove_, drives_, later_⟩
      cases drives.symm.trans drives_
      rcases of_bind later with ⟨success, scored, later⟩
      rcases of_bind later_ with ⟨success_, scored_, later_⟩
      cases scored.symm.trans scored_
      cases success with
      | true => exact ih later later_
      | false =>
          cases later
          cases later_
          exact Or.inr rfl

theorem wholeRollout_apart (grown : Grown repertoire rule base child)
    (ran : wholeRollout registry embodiment spec base = .ok rollout)
    (ran_ : wholeRollout registry embodiment spec (some child) = .ok rollout_) :
    (∃ moment ∈ rollout_.drove.moments, moment.fired = some (rulesOf base).length) ∨
      rollout_.success = rollout.success := by
  rcases of_bind ran with ⟨opened, opens, later⟩
  rcases of_bind ran_ with ⟨opened_, opens_, later_⟩
  cases opens.symm.trans opens_
  rcases of_bind later with ⟨height, starts, later⟩
  rcases of_bind later_ with ⟨height_, starts_, later_⟩
  cases starts.symm.trans starts_
  rcases of_bind later with ⟨drove, drives, later⟩
  rcases of_bind later_ with ⟨drove_, drives_, later_⟩
  rcases of_bind later with ⟨success, scored, later⟩
  rcases of_bind later_ with ⟨success_, scored_, later_⟩
  rcases map_eq_ok.mp later with ⟨_, _, rfl⟩
  rcases map_eq_ok.mp later_ with ⟨_, _, rfl⟩
  rcases drove_apart grown drives drives_ with fired | ⟨same, obs⟩
  · exact Or.inl fired
  · rw [same, obs] at scored_
    exact Or.inr (Except.ok.inj (scored_.symm.trans scored))

theorem isolatedSegmentRollout_apart (grown : Grown repertoire rule base child) {subtask : String}
    {rest : List String}
    (ran : isolatedSegmentRollout registry embodiment spec base subtask rest = .ok rollout)
    (ran_ : isolatedSegmentRollout registry embodiment spec (some child) subtask rest = .ok rollout_)
    :
    (∃ moment ∈ rollout_.drove.moments, moment.fired = some (rulesOf base).length) ∨
      rollout_.success = rollout.success := by
  rcases of_bind ran with ⟨opened, opens, later⟩
  rcases of_bind ran_ with ⟨opened_, opens_, later_⟩
  cases opens.symm.trans opens_
  cases method : embodiment.enterSegment spec with
  | none =>
      rw [method] at later
      rcases of_bind later with ⟨_, _, never⟩
      cases never
  | some enter =>
      rw [method] at later later_
      rcases of_bind later with ⟨ended, drives, later⟩
      rcases of_bind later_ with ⟨ended_, drives_, later_⟩
      rcases map_eq_ok.mp later with ⟨_, _, rfl⟩
      rcases map_eq_ok.mp later_ with ⟨_, _, rfl⟩
      exact isolatedFrom_apart grown drives drives_

theorem rollouts_apart (grown : Grown repertoire rule base child)
    (ran : governedRollout registry embodiment spec base = .ok rollout)
    (ran_ : governedRollout registry embodiment spec (some child) = .ok rollout_) :
    (∃ moment ∈ rollout_.drove.moments, moment.fired = some (rulesOf base).length) ∨
      rollout_.success = rollout.success := by
  rw [governedRollout] at ran ran_
  cases isolate : spec.segmentIsolate with
  | none =>
      rw [isolate] at ran ran_
      exact wholeRollout_apart grown ran ran_
  | some subgoals =>
      rw [isolate] at ran ran_
      cases subgoals with
      | nil => exact wholeRollout_apart grown ran ran_
      | cons subtask rest => exact isolatedSegmentRollout_apart grown ran ran_

theorem firedOn_of_apart (grown : Grown repertoire rule base child)
    (ran : governedRollout registry embodiment spec base = .ok rollout)
    (ran_ : governedRollout registry embodiment spec (some child) = .ok rollout_)
    (apart : rollout_.success ≠ rollout.success) :
    firedOn registry embodiment spec (some child) (rulesOf base).length = true := by
  rw [firedOn, ran_]
  rcases rollouts_apart grown ran ran_ with ⟨moment, mem, fired⟩ | same
  · exact List.any_eq_true.mpr ⟨moment, mem, decide_eq_true fired⟩
  · exact absurd same apart

/-! ## The gate -/

/-- The executor returns what `_run` does. -/
def Rolls (registry : Registry) (embodiment : Embodiment World Obs Action Goal Actor)
    (executor : Executor) : Prop :=
  ∀ call job result, executor.run call job = .ok result →
    ∃ rollout, governedRollout registry embodiment job.spec job.bundle = .ok rollout ∧
      result = rollout.result

def Arm (registry : Registry) (embodiment : Embodiment World Obs Action Goal Actor)
    (bundle : Option Bundle) (specs : List RolloutSpec) (results : List RolloutResult) : Prop :=
  List.Forall₂ (fun spec result => ∃ rollout,
    governedRollout registry embodiment spec bundle = .ok rollout ∧ result = rollout.result) specs results

theorem arms_of_map {executor : Executor} (rolls : Rolls registry embodiment executor) {call : Call}
    {out : List RolloutResult}
    (ran : executor.map call (specs.map (Job.mk · base) ++ specs.map (Job.mk · (some child))) = .ok out)
    :
    Arm registry embodiment base specs (out.take specs.length) ∧
      Arm registry embodiment (some child) specs (out.drop specs.length) := by
  have each := (mapM_eq_ok_iff.mp ran).imp (fun job result => rolls call job result)
  have length (bundle : Option Bundle) : (specs.map (Job.mk · bundle)).length = specs.length :=
    List.length_map _
  have first := List.forall₂_take specs.length each
  have second := List.forall₂_drop specs.length each
  rw [← length base, List.take_left, length base, List.forall₂_map_left_iff] at first
  rw [← length base, List.drop_left, length base, List.forall₂_map_left_iff] at second
  exact ⟨first, second⟩

theorem exists_of_arm {results : List RolloutResult}
    (arm : Arm registry embodiment base specs results) {spec : RolloutSpec}
    (mem : spec ∈ specs) :
    ∃ rollout, governedRollout registry embodiment spec base = .ok rollout := by
  rcases exists_right_of_forall₂ arm mem with ⟨_, _, rollout, rolled, _⟩
  exact ⟨rollout, rolled⟩

theorem discordant_le (grown : Grown repertoire rule base child) {out out_ : List RolloutResult}
    (arm : Arm registry embodiment base specs out)
    (arm_ : Arm registry embodiment (some child) specs out_) :
    ((out.map RolloutResult.success).zip (out_.map RolloutResult.success)).countP
        (fun pair => !pair.1 && pair.2) +
      ((out.map RolloutResult.success).zip (out_.map RolloutResult.success)).countP
        (fun pair => pair.1 && !pair.2) ≤
      specs.countP (fun spec => firedOn registry embodiment spec (some child) (rulesOf base).length) := by
  induction arm generalizing out_ with
  | nil => exact Nat.zero_le _
  | @cons spec result specs out here _ ih =>
      rcases arm_ with _ | ⟨here_, rest_⟩
      rcases here with ⟨rollout, ran, rfl⟩
      rcases here_ with ⟨rollout_, ran_, rfl⟩
      have later := ih rest_
      have fired := firedOn_of_apart grown ran ran_
      rw [List.map_cons, List.map_cons, List.zip_cons_cons, List.countP_cons, List.countP_cons,
        List.countP_cons]
      have labels : rollout.result.success = rollout.success ∧ rollout_.result.success = rollout_.success :=
        ⟨rfl, rfl⟩
      rw [labels.1, labels.2]
      cases first : rollout.success <;> cases second : rollout_.success <;> rw [first, second] at fired
      · simpa using Nat.le_add_right_of_le later
      · rw [fired Bool.noConfusion]
        simp only [Bool.not_false, Bool.and_self, if_true, Bool.not_true, Bool.false_eq_true, if_false]
        omega
      · rw [fired Bool.noConfusion]
        simp only [Bool.not_false, Bool.and_self, if_true, Bool.not_true, Bool.false_eq_true, if_false]
        omega
      · simpa using Nat.le_add_right_of_le later

/-- Appending a rule changes nothing until the rule fires, neither in a segment nor in what a
gate counts. -/
theorem appended_attributable (grown : Grown repertoire rule base child) :
    (∀ (plant : Plant World Obs Action Goal Actor) (spec : EpisodeSpec) (world : World) (obs : Obs)
        (stepBudget : Int) (segment segment_ : Segment Obs),
      governedSegment registry plant spec base world obs stepBudget = .ok segment →
      governedSegment registry plant spec (some child) world obs stepBudget = .ok segment_ →
      ∃ moments last moments_ last_,
        transcript registry plant spec base stepBudget.toNat (openingDrive spec base world obs) =
          .ok (moments, last) ∧
        transcript registry plant spec (some child) stepBudget.toNat
          (openingDrive spec (some child) world obs) = .ok (moments_, last_) ∧
        Attributed (rulesOf base) (base ≠ none) moments moments_ segment segment_) ∧
    ∀ (installed : Installed) (executor : Executor) (call : Call) (specs : List RolloutSpec)
        (paired : PairedResult), Rolls registry embodiment executor →
      pairedGate installed executor call specs child base = .ok paired →
      (∀ spec ∈ specs, ∃ rollout rollout_,
        governedRollout registry embodiment spec base = .ok rollout ∧
        governedRollout registry embodiment spec (some child) = .ok rollout_ ∧
        (rollout_.success ≠ rollout.success →
          firedOn registry embodiment spec (some child) (rulesOf base).length = true)) ∧
      paired.fixed + paired.broken ≤
        specs.countP (fun spec => firedOn registry embodiment spec (some child) (rulesOf base).length) := by
  constructor
  · intro plant spec world obs stepBudget segment segment_ ran ran_
    rw [governedSegment_eq] at ran ran_
    rcases map_eq_ok.mp ran with ⟨drove, drives, rfl⟩
    rcases map_eq_ok.mp ran_ with ⟨drove_, drives_, rfl⟩
    have attributed := (segments_attributed grown drives drives_).1.mono grown.sameBudget
    rcases of_bind drives with ⟨⟨moments, last⟩, went, later⟩
    rcases of_bind drives_ with ⟨⟨moments_, last_⟩, went_, later_⟩
    rcases map_eq_ok.mp later with ⟨stages, _, rfl⟩
    rcases map_eq_ok.mp later_ with ⟨stages_, _, rfl⟩
    exact ⟨moments, last, moments_, last_, went, went_, attributed⟩
  · intro installed executor call specs paired rolls gated
    rcases of_bind gated with ⟨out, ran, later⟩
    rcases of_bind later with ⟨pValue, _, later⟩
    rcases of_bind later with ⟨privilege, _, later⟩
    cases later
    rcases arms_of_map rolls ran with ⟨arm, arm_⟩
    refine ⟨fun spec member => ?_, discordant_le grown arm arm_⟩
    rcases exists_of_arm arm member with ⟨rollout, rolled⟩
    rcases exists_of_arm arm_ member with ⟨rollout_, rolled_⟩
    exact ⟨rollout, rollout_, rolled, rolled_, firedOn_of_apart grown rolled rolled_⟩

end

section

local instance rolloutSha : Sha256 := sha256

local instance rolloutFloats : FloatText := exactDecimals

/-- An embodiment whose gap stays wide, and which succeeds. -/
def wideEmbodiment : Embodiment Nat Nat Unit Unit Unit where
  plant := fun _ _ => widePlant
  opening := fun _ => .ok (0, 0)
  startHeight := fun _ _ => .ok (Double.nearest 0)
  success := fun _ _ _ => .ok true
  terminalSuccess := fun _ => none
  enterSegment := fun _ => none
  segmentSuccess := fun _ => .ok true
  close := fun _ => .ok ()
  name := fun _ => "Wide"
  driverName := fun _ => "Wide"

def wideSpec : RolloutSpec where
  seed := 0
  stages := none
  task := "Lift"
  policy := "pick"
  perceptNoise := Double.nearest 0
  terminalLabel := false
  envProvider := none
  policyProvider := none
  perceptProvider := "percept"
  segmentIsolate := none
  horizon := 4

def wideInstalled : Installed := ⟨featureCatalog, widePlant.repertoire, []⟩

/-- The executor that runs every job itself. -/
def rolling (registry : Registry) (embodiment : Embodiment Nat Nat Unit Unit Unit) : Executor where
  run := fun _ job =>
    match governedRollout registry embodiment job.spec job.bundle with
    | .ok rollout => .ok rollout.result
    | .error _ => .error .recursionError

theorem rolls_rolling (registry : Registry) (embodiment : Embodiment Nat Nat Unit Unit Unit) :
    Rolls registry embodiment (rolling registry embodiment) := by
  intro call job result ran
  rw [rolling] at ran
  dsimp only at ran
  cases rolled : governedRollout registry embodiment job.spec job.bundle with
  | error halt =>
      rw [rolled] at ran
      cases ran
  | ok rollout =>
      rw [rolled] at ran
      exact ⟨rollout, rfl, (Except.ok.inj ran).symm⟩

/-- The rule for a wide gap, and itself appended to it. -/
def wideParent : Bundle := ⟨[wideRule], 0, 0, none⟩

def wideChild : Bundle := (wideParent.append widePlant.repertoire wideRule).toOption.getD wideParent

theorem append_wideParent : wideParent.append widePlant.repertoire wideRule = .ok wideChild := by
  have ended : (wideParent.append widePlant.repertoire wideRule).toBool = true := by decide +kernel
  rcases returns_of_toBool ended with ⟨child, appended⟩
  rw [wideChild, appended]
  rfl

theorem appended_attributable_wide :
    ∃ (segment segment_ : Segment Nat) (moments moments_ : List (Moment Unit Nat))
        (paired : PairedResult),
      governedSegment featureCatalog widePlant probeSpec (some wideParent) 0 0 4 = .ok segment ∧
      governedSegment featureCatalog widePlant probeSpec (some wideChild) 0 0 4 = .ok segment_ ∧
      Attributed wideParent.rules (some wideParent ≠ none) moments moments_ segment segment_ ∧
      pairedGate wideInstalled (rolling featureCatalog wideEmbodiment) (.gate 0) [wideSpec] wideChild
        (some wideParent) = .ok paired ∧ paired.fixed + paired.broken ≤ 1 := by
  rcases appended_attributable (.parent append_wideParent) with ⟨segments, gates⟩
  have ended : (governedSegment featureCatalog widePlant probeSpec (some wideParent) 0 0 4).toBool =
    true := by decide +kernel
  have ended_ : (governedSegment featureCatalog widePlant probeSpec (some wideChild) 0 0 4).toBool =
    true := by decide +kernel
  have gated : (pairedGate wideInstalled (rolling featureCatalog wideEmbodiment) (.gate 0) [wideSpec]
    wideChild (some wideParent)).toBool = true := by decide +kernel
  rcases returns_of_toBool ended with ⟨segment, ran⟩
  rcases returns_of_toBool ended_ with ⟨segment_, ran_⟩
  rcases returns_of_toBool gated with ⟨paired, gated⟩
  rcases segments widePlant probeSpec 0 0 4 segment segment_ ran ran_ with
    ⟨moments, _, moments_, _, _, _, attributed⟩
  have counted := (gates wideInstalled _ (.gate 0) [wideSpec] paired
    (rolls_rolling featureCatalog wideEmbodiment) gated).2
  refine ⟨segment, segment_, moments, moments_, paired, ran, ran_, attributed, gated, ?_⟩
  exact counted.trans List.countP_le_length

end

end Rsi
end PhysicalHarness
