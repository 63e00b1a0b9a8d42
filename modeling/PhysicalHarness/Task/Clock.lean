import PhysicalHarness.Rsi.Horizon
import PhysicalHarness.Task.Terminal

namespace PhysicalHarness
namespace Task

open Python Harness JsonText Fallible
open Rsi (Bundle Plant Halt driveSegment segmentCalls)

/-!
# The clock of a persistent episode

The segments and recoveries of a run share one environment and one cursor.  A drive adds its
steps to the cursor when it returns, a recovery after each step; a dispatch that raises has
stepped the environment all the same, and the run goes on after a `ValueError`.
-/

/-! ## A dispatch and its charge -/

/-- The calls of `env.step` that a dispatch made, and how many of them the cursor took. -/
structure Charge where
  calls : Nat
  taken : Nat
  deriving DecidableEq

/-- The cursor took every call. -/
def Charge.Settled (charge : Charge) : Prop := charge.taken = charge.calls

/-- The environment and the driver of an episode, step by step. -/
structure Rig (World Obs Action Goal Actor : Type) where
  /-- Its `drive` is not used. -/
  robot : Robot (World × Obs)
  registry : Registry
  plant : EpisodeSpec → Plant World Obs Action Goal Actor
  /-- The declared strategy of this name, and the actor that the driver makes for it. -/
  makeRecovery : World → String → Obs → Except PyError (Actor × World)

/-- The exception of a segment.  An `InvariantViolation` is an `AssertionError`, which no
handler of a dispatch catches, as it catches no `TypeError`. -/
def excused : Halt → PyError
  | .raised error => error
  | .missingFeature _ => .keyError
  | .invariantViolation _ => .typeError

section

variable {World Obs Action Goal Actor : Type}

def loopSpec (spec : EpisodeSpec) : Rsi.EpisodeSpec := ⟨spec.seed, spec.stages⟩

section

variable [Sha256] [FloatText] (rig : Rig World Obs Action Goal Actor)

/-- The robot whose drive is `governed_segment`. -/
def Rig.governed : Robot (World × Obs) :=
  { rig.robot with
    drive := fun live spec bundle budget =>
      match driveSegment rig.registry (rig.plant spec) (loopSpec spec) bundle live.1 live.2 budget with
      | .error halt => .error (excused halt)
      | .ok drove => .ok ((drove.world, drove.segment.obs), drove.moments.map (fun moment => !moment.owned)) }

end

section

variable (rig : Rig World Obs Action Goal Actor)

/-- `enter_segment`, or `retarget` for a driver without it. -/
def entered (live : World × Obs) (spec : EpisodeSpec) (executor : Option String) :
    Except PyError (World × Obs) :=
  match rig.robot.enterSegment with
  | some enter => (enter live spec executor).map Prod.fst
  | none => rig.robot.retarget live spec

variable [Sha256] [FloatText]

/-- The charge of `_governed_segment`. -/
def driveCharge (episode : Episode (World × Obs)) (spec : EpisodeSpec) (bundle : Option Bundle)
    (executor : Option String) : Charge :=
  match entered rig episode.world spec executor with
  | .error _ => ⟨0, 0⟩
  | .ok live =>
      let budget := episode.spec.horizon - episode.cursor
      let calls := segmentCalls rig.registry (rig.plant spec) (loopSpec spec) bundle live.1 live.2 budget
      match driveSegment rig.registry (rig.plant spec) (loopSpec spec) bundle live.1 live.2 budget with
      | .error _ => ⟨calls, 0⟩
      | .ok drove => ⟨calls, drove.segment.steps⟩

def drivenCharge (episode : Episode (World × Obs)) (spec : EpisodeSpec) (bundle : Option Bundle) :
    Option (String × ExecutorDriver × Json) → Charge
  | some (ref, driver, _) =>
      if driver.runs then ⟨0, 0⟩ else driveCharge rig episode spec bundle (some ref)
  | none => driveCharge rig episode spec bundle none

/-- The charge of `_segment`. -/
def segmentCharge [Host] (ctx : SegmentCtx) (episode : Episode (World × Obs)) (node : PlanNode) : Charge :=
  let mounts := do
    let spec ← segmentSpec ctx.library ctx.specs ctx.arm node episode.spec
    let (bundle, _) ← assembleBundle ctx.installed ctx.skills spec.task
    let (mountedAt, mounted) ← mountExecutor ctx rig.governed episode spec node
    return (spec, bundle, mountedAt, mounted)
  if episode.exhausted then ⟨0, 0⟩
  else
    match mounts with
    | .error _ => ⟨0, 0⟩
    | .ok (spec, bundle, mountedAt, mounted) => drivenCharge rig mountedAt spec bundle mounted

end

/-- The loop of `_recovery`, for what is left of the horizon: its charge, and where it ends. -/
def repair (plant : Plant World Obs Action Goal Actor) : Nat → World → Obs → Actor →
    Charge × Except PyError (World × Obs × Actor)
  | 0, world, obs, actor => (⟨0, 0⟩, .ok (world, obs, actor))
  | left + 1, world, obs, actor =>
      if plant.actorDone world actor then (⟨0, 0⟩, .ok (world, obs, actor))
      else
        match plant.actorAct world actor obs with
        | .error error => (⟨0, 0⟩, .error error)
        | .ok (action, actor, world) =>
            match plant.step world action with
            | .error error => (⟨1, 0⟩, .error error)
            | .ok (obs, _, world) =>
                let later := repair plant left world obs actor
                (⟨later.1.calls + 1, later.1.taken + 1⟩, later.2)

/-- `_recovery`. -/
def recovery (rig : Rig World Obs Action Goal Actor) (episode : Episode (World × Obs))
    (strategy : String) : Charge × Except PyError (Episode (World × Obs)) :=
  match rig.makeRecovery episode.world.1 strategy episode.world.2 with
  | .error error => (⟨0, 0⟩, .error error)
  | .ok (actor, world) =>
      let plant := rig.plant episode.spec
      let ran := repair plant (episode.spec.horizon - episode.cursor).toNat world episode.world.2 actor
      (ran.1, do
        let (world, obs, _) ← ran.2
        let world ← plant.onHandback world
        return { episode with world := (world, obs), cursor := episode.cursor + ran.1.taken })

inductive Dispatch where
  | segment (node : PlanNode)
  | recovery (strategy : String)

section

variable [Host] [Sha256] [FloatText] (ctx : SegmentCtx) (rig : Rig World Obs Action Goal Actor)

/-- The handler of a node: its charge, and the episode it returns with. -/
def attempt (episode : Episode (World × Obs)) :
    Dispatch → Charge × Except PyError (Episode (World × Obs))
  | .segment node =>
      (segmentCharge rig ctx episode node, (segment ctx rig.governed episode node).map Prod.fst)
  | .recovery strategy => recovery rig episode strategy

end

/-! ## What one dispatch adds -/

/-- The cursor takes no more than what was called, and the calls fit in what is left. -/
structure Charge.Fits (charge : Charge) (left : Nat) : Prop where
  taken : charge.taken ≤ charge.calls
  calls : charge.calls ≤ left

def remaining (episode : Episode (World × Obs)) : Nat := (episode.spec.horizon - episode.cursor).toNat

section

variable {rig : Rig World Obs Action Goal Actor}

variable {episode next : Episode (World × Obs)} {charges : List Charge} {node : PlanNode}

variable [Sha256] [FloatText]

variable [Host] {ctx : SegmentCtx}

def lost (charges : List Charge) : Nat := (charges.map (fun charge => charge.calls - charge.taken)).sum

/-- What a run keeps: the cursor stays within the horizon, and with what it did not take it
counts the calls. -/
structure Kept (episode last : Episode (World × Obs)) (calls total : Nat) (charges : List Charge) :
    Prop where
  horizon : last.spec.horizon = episode.spec.horizon
  within : last.cursor ≤ max episode.cursor episode.spec.horizon.toNat
  counted : total + episode.cursor = calls + last.cursor + lost charges
  fits : ∀ charge ∈ charges, charge.taken ≤ charge.calls

end

end

section

local instance clockHost : Host := asciiHost

local instance clockFloats : FloatText := exactDecimals

local instance clockSha : Sha256 := Rsi.fourthSha

end

end Task
end PhysicalHarness
