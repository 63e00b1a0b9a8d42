import PhysicalHarness.Task.Executors

namespace PhysicalHarness
namespace Task

open Python Harness JsonText Fallible
open Rsi (Bundle)

/-!
# What a reported success is worth

An executor that runs a sub-goal itself replies with an `ok`, and the harness then asks the
driver of the episode whether the sub-goal was reached.  The reply is a veto: a dispatch
whose executor gives up fails even where the sub-goal was reached.  It is no evidence: over
a driver that knows its sub-goals, no reply makes a dispatch succeed where the terminal of
its drive does not hold.

A driver that is retargeted by pose is scored on the observation that the drive left, also
where it has a terminal of its own.
-/

namespace Robot

variable {World : Type} (robot : Robot World)

/-- The same robot, whose executors do the same and reply something else. -/
def reporting (reply : World → String → Json → Except PyError Bool) : Robot World :=
  { robot with
    run := fun world ref request => do
      let (after, _) ← robot.run world ref request
      let ok ← reply after ref request
      return (after, ok) }

def Confirms (world : World) : Prop :=
  ∃ truth, robot.segmentSuccess = some truth ∧ truth world = .ok true

def Scored (spec : EpisodeSpec) (world : World) : Prop :=
  match robot.enterSegment with
  | some _ => robot.Confirms world
  | none => robot.scoreTerminal world spec = .ok true

end Robot

def RunsItself : Option (String × ExecutorDriver × Json) → Prop
  | some (_, driver, _) => driver.runs = true
  | none => False

def Held {World : Type} (robot : Robot World) (spec : EpisodeSpec)
    (mounted : Option (String × ExecutorDriver × Json)) (world : World) : Prop :=
  (RunsItself mounted → robot.Confirms world) ∧ (¬ RunsItself mounted → robot.Scored spec world)

/-- No executor runs a sub-goal itself over a driver without a terminal of its own. -/
def Gated {World : Type} (robot : Robot World) (mounted : Option (String × ExecutorDriver × Json)) :
    Prop :=
  RunsItself mounted → robot.segmentSuccess.isSome = true

section

variable [Host] {World : Type} {ctx : SegmentCtx} {robot : Robot World}

variable {episode next other : Episode World} {reply : World → String → Json → Except PyError Bool}
  {node : PlanNode} {outcome : SegmentOutcome} {steps : List Author} {spec : EpisodeSpec}
  {bundle : Option Bundle}

omit [Host] in
theorem scored_of_governedDrive {executor : Option String}
    (ran : governedDrive robot episode spec bundle executor = .ok (next, true, steps)) :
    robot.Scored spec next.world := by
  rw [governedDrive] at ran
  cases method : robot.enterSegment with
  | some enter =>
      rw [method] at ran
      rcases of_bind ran with ⟨⟨entered, taken⟩, _, ran⟩
      rcases of_bind ran with ⟨⟨after, owned⟩, _, ran⟩
      rcases of_bind ran with ⟨success, scored, ran⟩
      cases ran
      rw [Robot.Scored, method]
      cases own : robot.segmentSuccess with
      | none =>
          rw [own] at scored
          cases scored
      | some truth =>
          rw [own] at scored
          exact ⟨truth, own, scored⟩
  | none =>
      rw [method] at ran
      rcases of_bind ran with ⟨entered, _, ran⟩
      rcases of_bind ran with ⟨⟨after, owned⟩, _, ran⟩
      rcases of_bind ran with ⟨success, scored, ran⟩
      cases ran
      rw [Robot.Scored, method]
      exact scored

omit [Host] in
theorem confirms_of_runSegment {ref : String}
    (ran : runSegment robot episode spec node ref = .ok (next, true, steps))
    (gated : robot.segmentSuccess.isSome = true) : robot.Confirms next.world := by
  rcases of_bind ran with ⟨entered, _, ran⟩
  rcases of_bind ran with ⟨⟨after, ok⟩, _, ran⟩
  rcases of_bind ran with ⟨success, asked, ran⟩
  cases ran
  rcases Option.isSome_iff_exists.mp gated with ⟨truth, own⟩
  unfold confirmed at asked
  rw [own] at asked
  cases ok with
  | false => cases asked
  | true => exact ⟨truth, own, asked⟩

omit [Host] in
theorem held_of_driven {mounted : Option (String × ExecutorDriver × Json)}
    (ran : driven robot episode spec node bundle mounted = .ok (next, true, steps))
    (gated : Gated robot mounted) : Held robot spec mounted next.world := by
  cases mounted with
  | none => exact ⟨False.elim, fun _ => scored_of_governedDrive ran⟩
  | some executor =>
      rcases executor with ⟨ref, driver, row⟩
      unfold driven at ran
      dsimp only at ran
      split at ran
      · rename_i runs
        exact ⟨fun _ => confirms_of_runSegment ran (gated runs), fun polled => absurd runs polled⟩
      · rename_i polled
        exact ⟨fun runs => absurd runs polled, fun _ => scored_of_governedDrive ran⟩

omit [Host] in
theorem runSegment_reporting {ref : String} {success changed : Bool} {others : List Author}
    (ran : runSegment robot episode spec node ref = .ok (next, success, steps))
    (reran : runSegment (robot.reporting reply) episode spec node ref = .ok (other, changed, others))
    :
    other = next := by
  rcases of_bind ran with ⟨entered, arms, ran⟩
  rcases of_bind ran with ⟨⟨after, ok⟩, replies, ran⟩
  rcases of_bind ran with ⟨_, _, ran⟩
  rcases of_bind reran with ⟨entered_, arms_, reran⟩
  rcases of_bind reran with ⟨⟨after_, ok_⟩, replies_, reran⟩
  rcases of_bind reran with ⟨_, _, reran⟩
  cases arms.symm.trans arms_
  rcases of_bind replies_ with ⟨⟨left, claim⟩, replied, answers⟩
  rcases of_bind answers with ⟨_, _, answers⟩
  cases answers
  cases replies.symm.trans replied
  cases ran
  cases reran
  rfl

omit [Host] in
theorem driven_reporting {mounted : Option (String × ExecutorDriver × Json)}
    {success changed : Bool} {others : List Author}
    (ran : driven robot episode spec node bundle mounted = .ok (next, success, steps))
    (reran : driven (robot.reporting reply) episode spec node bundle mounted =
      .ok (other, changed, others)) :
    other = next := by
  cases mounted with
  | none =>
      have same : driven (robot.reporting reply) episode spec node bundle none =
          driven robot episode spec node bundle none := rfl
      cases ran.symm.trans (same.symm.trans reran)
      rfl
  | some executor =>
      rcases executor with ⟨ref, driver, row⟩
      unfold driven at ran reran
      dsimp only at ran reran
      split at ran
      · rename_i runs
        rw [if_pos runs] at reran
        exact runSegment_reporting ran reran
      · rename_i polled
        rw [if_neg polled] at reran
        have same : governedDrive (robot.reporting reply) episode spec bundle (some ref) =
          governedDrive robot episode spec bundle (some ref) := rfl
        cases ran.symm.trans (same.symm.trans reran)
        rfl

variable [Sha256] [FloatText]

theorem driven_of_segment (ran : segment ctx robot episode node = .ok (next, outcome))
    (goes_on : episode.exhausted = false) :
    ∃ spec bundle mountedAt mounted,
      segmentSpec ctx.library ctx.specs ctx.arm node episode.spec = .ok spec ∧
      Except.map Prod.fst (assembleBundle ctx.installed ctx.skills spec.task) = .ok bundle ∧
      mountExecutor ctx robot episode spec node = .ok (mountedAt, mounted) ∧
      driven robot mountedAt spec node bundle mounted = .ok (next, outcome.success, outcome.steps) := by
  rcases of_bind ran with ⟨spec, reads, ran⟩
  rcases of_bind ran with ⟨⟨bundle, digests⟩, assembles, ran⟩
  dsimp only at ran
  rw [goes_on, if_neg (by decide)] at ran
  rcases of_bind ran with ⟨⟨mountedAt, mounted⟩, mounts, ran⟩
  rcases of_bind ran with ⟨⟨last, success, steps⟩, drives, ran⟩
  rcases of_bind ran with ⟨_, _, ran⟩
  rcases of_bind ran with ⟨_, _, ran⟩
  rcases of_bind ran with ⟨_, _, ran⟩
  cases ran
  refine ⟨spec, bundle, mountedAt, mounted, reads, ?_, mounts, drives⟩
  rw [assembles]
  rfl

theorem exhausted_of_segment (ran : segment ctx robot episode node = .ok (next, outcome))
    (ended : episode.exhausted = true) :
    outcome.success = false := by
  rcases of_bind ran with ⟨spec, _, ran⟩
  rcases of_bind ran with ⟨⟨bundle, digests⟩, _, ran⟩
  dsimp only at ran
  rw [if_pos ended] at ran
  rcases of_bind ran with ⟨_, _, ran⟩
  cases ran
  rfl

/-- The episode went on, and the terminal of the drive of this node holds, if an executor's
own run is gated at all. -/
def TerminalHeld (ctx : SegmentCtx) (robot : Robot World) (episode : Episode World) (node : PlanNode)
    (world : World) : Prop :=
  episode.exhausted = false ∧ ∃ spec mountedAt mounted,
    segmentSpec ctx.library ctx.specs ctx.arm node episode.spec = .ok spec ∧
    mountExecutor ctx robot episode spec node = .ok (mountedAt, mounted) ∧
    (Gated robot mounted → Held robot spec mounted world)

theorem terminalHeld_of_success (ran : segment ctx robot episode node = .ok (next, outcome))
    (success : outcome.success = true) : TerminalHeld ctx robot episode node next.world := by
  have goes_on : episode.exhausted = false := by
    apply Bool.eq_false_of_not_eq_true
    intro ended
    rw [exhausted_of_segment ran ended] at success
    cases success
  rcases driven_of_segment ran goes_on with ⟨spec, bundle, mountedAt, mounted, reads, _, mounts, drives⟩
  rw [success] at drives
  exact ⟨goes_on, spec, mountedAt, mounted, reads, mounts, held_of_driven drives⟩

theorem segment_reporting {changed : SegmentOutcome}
    (ran : segment ctx robot episode node = .ok (next, outcome))
    (reran : segment ctx (robot.reporting reply) episode node = .ok (other, changed))
    (goes_on : episode.exhausted = false) : other = next := by
  rcases driven_of_segment ran goes_on with ⟨spec, bundle, mountedAt, mounted, reads, assembles, mounts, drives⟩
  rcases driven_of_segment reran goes_on with
    ⟨spec_, bundle_, mountedAt_, mounted_, reads_, assembles_, mounts_, drives_⟩
  cases reads.symm.trans reads_
  cases assembles.symm.trans assembles_
  have same : mountExecutor ctx (robot.reporting reply) episode spec node =
    mountExecutor ctx robot episode spec node := rfl
  cases mounts.symm.trans (same.symm.trans mounts_)
  exact driven_reporting drives drives_

/-- A dispatch succeeds only where the terminal of its drive holds, and whatever its executor
replies instead, a dispatch that failed succeeds only where that terminal holds in the world
it had left. -/
theorem success_only_where_terminal_held {episode next : Episode World} {node : PlanNode}
    {outcome : SegmentOutcome} (ran : segment ctx robot episode node = .ok (next, outcome)) :
    (outcome.success = true → TerminalHeld ctx robot episode node next.world) ∧
    ∀ reply other changed, segment ctx (robot.reporting reply) episode node = .ok (other, changed) →
      changed.success = true → other = next ∧ TerminalHeld ctx robot episode node next.world := by
  refine ⟨terminalHeld_of_success ran, ?_⟩
  intro reply other changed reran success
  have held := terminalHeld_of_success reran success
  have same := segment_reporting ran reran held.1
  rw [same] at held
  exact ⟨same, held⟩

end

section

local instance terminalHost : Host := asciiHost

local instance terminalFloats : FloatText := exactDecimals

local instance terminalSha : Sha256 := Rsi.fourthSha

/-- A skill with a policy for the arm `mcp`. -/
def serviceCtx : SegmentCtx where
  library := ⟨["scripted", "mcp"], [], fun _ => .ok [], fun template _ => .ok template⟩
  specs := [("grasp", ⟨some [("mcp", ⟨none, some "service", [], none⟩)], none, none, none, none,
    ⟨none, some "grasp_can", none, none, none, none, []⟩⟩)]
  arm := "mcp"
  skills := []
  installed := ⟨⟨[], List.nodup_nil⟩, ⟨[]⟩, []⟩
  mountParams := fun _ => []

/-- A driver with or without `enter_segment` and a terminal, over providers whose drivers run
the sub-goal themselves or not, and give up. -/
def serviceRobot (enters : Bool) (terminal : Option Bool) (scored runs : Bool) : Robot Unit where
  enterSegment := if enters then some (fun _ _ executor => .ok ((), executor.isSome)) else none
  segmentSuccess := terminal.map (fun truth _ => .ok truth)
  retarget := fun _ _ => .ok ()
  scoreTerminal := fun _ _ => .ok scored
  drive := fun _ _ _ _ => .ok ((), [false])
  connect := fun _ _ _ => .ok ()
  makeDriver := fun _ _ _ => .ok ((), ⟨runs, .null⟩)
  run := fun _ _ _ => .ok ((), false)
  sigma := fun _ => .obj []

theorem known_nil : ∀ name ∈ Assoc.keys ([] : List (String × Json)), name ∈ plantFields :=
  List.forall_mem_nil _

def serviceEpisode : Episode Unit where
  spec := ⟨1, "Kitchen", 2, none, none, some "scripted", [], known_nil⟩
  world := ()
  cursor := 0
  factories := []

def serviceNode : PlanNode :=
  PlanNode.ofJson (.obj [("id", .str "n"), ("skill", .str "grasp"), ("kind", .str "segment"),
    ("args", .obj []), ("after", .arr [])])

/-- A success whose terminal is the driver's own, or the score where it has none. -/
def Robot.Evidenced {World : Type} (robot : Robot World) (spec : EpisodeSpec) (world : World) : Prop :=
  match robot.segmentSuccess with
  | some truth => truth world = .ok true
  | none => robot.scoreTerminal world spec = .ok true

/-- An executor that claims its success turns a failure into a success, over a driver whose
terminal holds; over a driver without a terminal its claim is the success, whatever the score
is; and a driver that is retargeted by pose succeeds against its own terminal. -/
theorem reply_turns_failure : ∃ next failed succeeded,
    segment serviceCtx (serviceRobot true (some true) true true) serviceEpisode serviceNode =
      .ok (next, failed) ∧ failed.success = false ∧
    segment serviceCtx ((serviceRobot true (some true) true true).reporting (fun _ _ _ => .ok true))
      serviceEpisode serviceNode = .ok (next, succeeded) ∧ succeeded.success = true ∧
    (∃ left claimed, segment serviceCtx
        ((serviceRobot true none false true).reporting (fun _ _ _ => .ok true)) serviceEpisode
        serviceNode = .ok (left, claimed) ∧ claimed.success = true ∧
      ∀ spec, ¬ (serviceRobot true none false true).Evidenced spec left.world) ∧
    ∃ left scored, segment serviceCtx (serviceRobot false (some false) true false) serviceEpisode
        serviceNode = .ok (left, scored) ∧ scored.success = true ∧
      ∀ spec, ¬ (serviceRobot false (some false) true false).Evidenced spec left.world := by
  refine ⟨_, _, _, rfl, rfl, rfl, rfl, ⟨_, _, rfl, rfl, ?_⟩, _, _, rfl, rfl, ?_⟩
  · intro spec evidenced
    cases evidenced
  · intro spec evidenced
    cases evidenced

/-- The dispatch whose executor gives up. -/
theorem success_only_where_terminal_held_service : ∃ next outcome,
    segment serviceCtx (serviceRobot true (some true) true true) serviceEpisode serviceNode =
      .ok (next, outcome) ∧
    (outcome.success = true → TerminalHeld serviceCtx (serviceRobot true (some true) true true)
      serviceEpisode serviceNode next.world) ∧
    ∀ reply other changed, segment serviceCtx
        ((serviceRobot true (some true) true true).reporting reply) serviceEpisode serviceNode =
        .ok (other, changed) → changed.success = true → other = next ∧
      TerminalHeld serviceCtx (serviceRobot true (some true) true true) serviceEpisode serviceNode
        next.world :=
  ⟨_, _, rfl, success_only_where_terminal_held rfl⟩

end

end Task
end PhysicalHarness
