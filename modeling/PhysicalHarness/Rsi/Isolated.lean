import PhysicalHarness.Rsi.Rollout

namespace PhysicalHarness
namespace Rsi

open Python Harness JsonText Fallible

/-!
# What an isolated rollout reports

The sub-goals before the last one are there to bring the world to where the last one
starts.  The rollout keeps one segment, which each of them overwrites: where one of them
fails, the segment that is reported is its own, with what was read under it.
-/

/-- What the result of a rollout says of its segment. -/
structure Report where
  success : Bool
  policySteps : Nat
  fires : List Fire
  chain : String
  trace : List (String × List Double)
  stages : Option (List StageResult)

def Rollout.report {World Action Obs : Type} (rollout : Rollout World Action Obs) : Report where
  success := rollout.success
  policySteps := rollout.drove.segment.policySteps
  fires := rollout.drove.segment.fires
  chain := rollout.drove.segment.chain
  trace := rollout.drove.segment.trace
  stages := rollout.drove.segment.stages

section

variable {World Obs Action Goal Actor : Type} [Sha256] [FloatText]

/-- The report of a list of sub-goals; without any, no segment is driven. -/
def isolatedReport (registry : Registry) (embodiment : Embodiment World Obs Action Goal Actor)
    (spec : RolloutSpec) (bundle : Option Bundle) : List String → Except Halt Report
  | [] =>
      (lift (embodiment.opening spec)).bind (fun opened =>
        (lift (embodiment.close opened.1)).bind (fun _ =>
          match embodiment.enterSegment spec with
          | none => .error (.raised (.valueError ("segment_isolate needs an episodic-segment driver " ++
              "(enter_segment); " ++ embodiment.driverName spec ++
              " is obs-only retargetable, no isolated path")))
          | some _ => .ok ⟨false, 0, [], chainStart episodeSeed, [], none⟩))
  | subtask :: rest =>
      (isolatedSegmentRollout registry embodiment spec bundle subtask rest).map Rollout.report

variable (registry : Registry) (embodiment : Embodiment World Obs Action Goal Actor) (spec : RolloutSpec)
  (enter : World → RolloutSpec → Except PyError World)

/-- The world, the observation and the steps taken, between two sub-goals. -/
abbrev Stand (World Obs : Type) := World × Obs × Nat

/-- One sub-goal from a stand: its segment, and its own word on its success. -/
def Drives (bundle : Option Bundle) (stand : Stand World Obs) (subtask : String)
    (rollout : Rollout World Action Obs) : Prop :=
  ∃ entered, enter stand.1 { spec with task := subtask } = .ok entered ∧
    driveSegment registry (embodiment.plant spec { spec with task := subtask }) spec.toEpisodeSpec bundle
      entered stand.2.1 (max (spec.horizon - stand.2.2) 1) = .ok rollout.drove ∧
    embodiment.segmentSuccess rollout.drove.world = .ok rollout.success

/-- Where a sub-goal leaves off. -/
def Stand.after (stand : Stand World Obs) (drove : Drove World Action Obs) : Stand World Obs :=
  (drove.world, drove.segment.obs, stand.2.2 + drove.segment.steps)

variable (bundle : Option Bundle)

/-- The report is that of the target: the sub-goals before it were driven without a bundle, one
after another, and all of them succeeded. -/
def Targets (report : Report) : Stand World Obs → List String → Prop
  | _, [] => False
  | stand, [target] => ∃ rollout, Drives registry embodiment spec enter bundle stand target rollout ∧
      report = rollout.report
  | stand, subtask :: rest => ∃ drove,
      Drives registry embodiment spec enter none stand subtask ⟨true, drove⟩ ∧
        Targets report (stand.after drove) rest

/-- A sub-goal before the last one fails after a step of the policy. -/
def Stranded : Stand World Obs → List String → Prop
  | _, [] => False
  | _, [_] => False
  | stand, subtask :: rest => ∃ rollout,
      Drives registry embodiment spec enter none stand subtask rollout ∧
        if rollout.success then Stranded (stand.after rollout.drove) rest
        else rollout.drove.segment.policySteps ≠ 0

/-- What is reported is of the target, or is nothing; a success is one of all the sub-goals. -/
structure TargetOnly (report : Report) (stand : Stand World Obs) (subgoals : List String) : Prop where
  segment : Targets registry embodiment spec enter bundle report stand subgoals ∨
    (report.trace = [] ∧ report.fires = [] ∧ report.policySteps = 0)
  success : report.success = true → Targets registry embodiment spec enter bundle report stand subgoals

variable {registry embodiment spec enter bundle}

theorem drives_unique {stand : Stand World Obs} {subtask : String}
    {rollout rollout_ : Rollout World Action Obs}
    (drives : Drives registry embodiment spec enter bundle stand subtask rollout)
    (drives_ : Drives registry embodiment spec enter bundle stand subtask rollout_) :
    rollout = rollout_ := by
  rcases drives with ⟨entered, enters, drove, success⟩
  rcases drives_ with ⟨entered_, enters_, drove_, success_⟩
  cases enters.symm.trans enters_
  have same := Except.ok.inj (drove.symm.trans drove_)
  rw [← same] at success_
  have label := Except.ok.inj (success.symm.trans success_)
  cases rollout
  cases rollout_
  cases same
  cases label
  rfl

theorem silent_of_ungoverned {plant : Plant World Obs Action Goal Actor} {spec : EpisodeSpec}
    {world : World} {obs : Obs} {stepBudget : Int} {drove : Drove World Action Obs}
    (ran : driveSegment registry plant spec none world obs stepBudget = .ok drove) :
    drove.segment.fires = [] ∧ (drove.segment.policySteps = 0 → drove.segment.trace = []) := by
  rcases of_bind ran with ⟨⟨moments, last⟩, went, later⟩
  rcases map_eq_ok.mp later with ⟨stages, _, rfl⟩
  have marked := marked_of_transcript marked_start went
  rw [List.nil_append] at marked
  constructor
  · have fires : last.critic.fires = firesOf [] (governedSteps 0 moments) := marked.fires
    rw [fires, firesOf]
    apply List.filterMap_eq_nil_iff.mpr
    intro step _
    cases step.1.1.fired with
    | none => rfl
    | some index => rfl
  · intro none_
    have empty : governedSteps 0 moments = [] := by
      apply List.eq_nil_of_length_eq_zero
      exact marked.k.symm.trans none_
    rcases marked.logged with ⟨views, shown, trace, _⟩
    have steps : governedSteps (openingDrive spec none world obs : Drive World Obs Actor).t moments = [] :=
      empty
    rw [steps] at shown
    cases shown
    exact trace

theorem isolatedFrom_cases {world : World} {obs : Obs} {cursor : Nat} {subtask : String}
    {rest : List String} {rollout : Rollout World Action Obs}
    (ran : isolatedFrom registry embodiment spec bundle enter world obs cursor subtask rest = .ok rollout) :
    (Targets registry embodiment spec enter bundle rollout.report (world, obs, cursor) (subtask :: rest) ∧
      ¬ Stranded registry embodiment spec enter (world, obs, cursor) (subtask :: rest)) ∨
    (¬ Targets registry embodiment spec enter bundle rollout.report (world, obs, cursor) (subtask :: rest) ∧
      rollout.success = false ∧ rollout.report.fires = [] ∧
      (rollout.report.policySteps = 0 → rollout.report.trace = []) ∧
      (Stranded registry embodiment spec enter (world, obs, cursor) (subtask :: rest) ↔
        rollout.report.policySteps ≠ 0)) := by
  induction rest generalizing world obs cursor subtask with
  | nil =>
      rcases of_bind ran with ⟨entered, enters, later⟩
      rcases of_bind later with ⟨drove, drives, later⟩
      rcases map_eq_ok.mp later with ⟨success, scored, rfl⟩
      exact Or.inl ⟨⟨_, ⟨entered, lift_eq_ok.mp enters, drives, lift_eq_ok.mp scored⟩, rfl⟩, id⟩
  | cons next rest ih =>
      rcases of_bind ran with ⟨entered, enters, later⟩
      rcases of_bind later with ⟨drove, drives, later⟩
      rcases of_bind later with ⟨success, scored, later⟩
      have here : Drives registry embodiment spec enter none (world, obs, cursor) subtask ⟨success, drove⟩ :=
        ⟨entered, lift_eq_ok.mp enters, drives, lift_eq_ok.mp scored⟩
      cases success with
      | true =>
          have there : Stranded registry embodiment spec enter (world, obs, cursor)
              (subtask :: next :: rest) ↔ Stranded registry embodiment spec enter
                (Stand.after (world, obs, cursor) drove) (next :: rest) := by
            constructor
            · rintro ⟨other, drives_, stranded⟩
              cases drives_unique here drives_
              exact stranded
            · exact fun stranded => ⟨_, here, stranded⟩
          have there_ : Targets registry embodiment spec enter bundle rollout.report (world, obs, cursor)
              (subtask :: next :: rest) ↔ Targets registry embodiment spec enter bundle rollout.report
                (Stand.after (world, obs, cursor) drove) (next :: rest) := by
            constructor
            · rintro ⟨other, drives_, targets⟩
              cases drives_unique here drives_
              exact targets
            · exact fun targets => ⟨drove, here, targets⟩
          rw [there, there_]
          exact ih later
      | false =>
          cases later
          have silent := silent_of_ungoverned drives
          refine Or.inr ⟨?_, rfl, silent.1, silent.2, ?_⟩
          · rintro ⟨other, drives_, _⟩
            cases drives_unique here drives_
          · constructor
            · rintro ⟨other, drives_, stranded⟩
              cases drives_unique here drives_
              exact stranded
            · exact fun stranded => ⟨_, here, stranded⟩

theorem targetOnly_of_cases {stand : Stand World Obs} {subgoals : List String} {report : Report}
    (cases_ : (Targets registry embodiment spec enter bundle report stand subgoals ∧
        ¬ Stranded registry embodiment spec enter stand subgoals) ∨
      (¬ Targets registry embodiment spec enter bundle report stand subgoals ∧
        report.success = false ∧ report.fires = [] ∧ (report.policySteps = 0 → report.trace = []) ∧
        (Stranded registry embodiment spec enter stand subgoals ↔ report.policySteps ≠ 0))) :
    TargetOnly registry embodiment spec enter bundle report stand subgoals ↔
      ¬ Stranded registry embodiment spec enter stand subgoals := by
  rcases cases_ with ⟨targets, reached⟩ | ⟨missed, failed, silent, empty, stranded⟩
  · exact iff_of_true ⟨Or.inl targets, fun _ => targets⟩ reached
  · rw [stranded, not_not]
    constructor
    · rintro ⟨targets | ⟨_, _, none_⟩, _⟩
      · exact absurd targets missed
      · exact none_
    · intro none_
      refine ⟨Or.inr ⟨empty none_, silent, none_⟩, fun success => ?_⟩
      rw [failed] at success
      cases success

/-- An isolated rollout reports its target only exactly where no sub-goal before it fails after a
step of the policy. -/
theorem isolated_target_only_iff {subgoals : List String} {report : Report}
    (ran : isolatedReport registry embodiment spec bundle subgoals = .ok report) :
    ∃ opened enter, embodiment.opening spec = .ok opened ∧ embodiment.enterSegment spec = some enter ∧
      (TargetOnly registry embodiment spec enter bundle report (opened.1, opened.2, 0) subgoals ↔
        ¬ Stranded registry embodiment spec enter (opened.1, opened.2, 0) subgoals) := by
  cases subgoals with
  | nil =>
      rcases of_bind ran with ⟨opened, opens, later⟩
      rcases of_bind later with ⟨_, _, later⟩
      cases method : embodiment.enterSegment spec with
      | none =>
          rw [method] at later
          cases later
      | some enter =>
          rw [method] at later
          cases later
          refine ⟨opened, enter, lift_eq_ok.mp opens, rfl, ?_⟩
          exact targetOnly_of_cases (Or.inr ⟨id, rfl, rfl, fun _ => rfl,
            iff_of_false id (fun some_ => some_ rfl)⟩)
  | cons subtask rest =>
      rcases map_eq_ok.mp ran with ⟨rollout, went, rfl⟩
      rcases of_bind went with ⟨opened, opens, later⟩
      cases method : embodiment.enterSegment spec with
      | none =>
          rw [method] at later
          rcases of_bind later with ⟨_, _, impossible⟩
          cases impossible
      | some enter =>
          rw [method] at later
          rcases of_bind later with ⟨ended, drives, later⟩
          rcases map_eq_ok.mp later with ⟨_, _, rfl⟩
          exact ⟨opened, enter, lift_eq_ok.mp opens, rfl, targetOnly_of_cases (isolatedFrom_cases drives)⟩

end

section

local instance isolatedSha : Sha256 := sha256

local instance isolatedFloats : FloatText := exactDecimals

/-- A driver with sub-goals, all of which succeed or none. -/
def stagedEmbodiment (success : Bool) : Embodiment Nat Nat Unit Unit Unit :=
  { wideEmbodiment with
    enterSegment := fun _ => some (fun world _ => .ok world)
    segmentSuccess := fun _ => .ok success }

theorem isolated_target_only_staged : ∃ report enter,
    isolatedReport featureCatalog (stagedEmbodiment true) wideSpec (some wideParent) ["nav", "grasp"] =
      .ok report ∧
    (TargetOnly featureCatalog (stagedEmbodiment true) wideSpec enter (some wideParent) report (0, 0, 0)
        ["nav", "grasp"] ↔
      ¬ Stranded featureCatalog (stagedEmbodiment true) wideSpec enter (0, 0, 0) ["nav", "grasp"]) := by
  have ended : (isolatedReport featureCatalog (stagedEmbodiment true) wideSpec (some wideParent)
      ["nav", "grasp"]).toBool = true := by decide +kernel
  rcases returns_of_toBool ended with ⟨report, ran⟩
  rcases isolated_target_only_iff ran with ⟨opened, enter, opens, _, same⟩
  cases opens
  exact ⟨report, enter, ran, same⟩

/-- The first sub-goal fails after four steps, which are what is reported. -/
theorem prefix_reported : ∃ report,
    isolatedReport featureCatalog (stagedEmbodiment false) wideSpec (some wideParent) ["nav", "grasp"] =
      .ok report ∧ report.policySteps = 4 ∧
    ¬ TargetOnly featureCatalog (stagedEmbodiment false) wideSpec (fun world _ => .ok world)
      (some wideParent) report (0, 0, 0) ["nav", "grasp"] := by
  have steps : ((isolatedReport featureCatalog (stagedEmbodiment false) wideSpec (some wideParent)
      ["nav", "grasp"]).map Report.policySteps).toOption = some 4 := by decide +kernel
  cases ran : isolatedReport featureCatalog (stagedEmbodiment false) wideSpec (some wideParent)
      ["nav", "grasp"] with
  | error halt =>
      rw [ran] at steps
      cases steps
  | ok report =>
      rw [ran] at steps
      have four : report.policySteps = 4 := Option.some.inj steps
      refine ⟨report, rfl, four, ?_⟩
      rintro ⟨⟨drove, ⟨_, _, _, success⟩, _⟩ | ⟨_, _, none_⟩, _⟩
      · cases success
      · rw [four] at none_
        cases none_

end

end Rsi
end PhysicalHarness
