import PhysicalHarness.Task.Assemble
import PhysicalHarness.Task.Segment

namespace PhysicalHarness
namespace Task

open Python Harness JsonText Fallible
open Rsi (Bundle Installed)

/-!
# Who drives a segment

An arm, or the pick of a node, resolves to a policy key; the policy behind it may name a
provider, whose driver is handed to the driver of the episode.  What the row of the segment
seals is the key.  The driver of the episode decides whether the executor gets to act, and a
driver that is retargeted by pose never sees it.
-/

inductive Author where
  | recovery
  /-- the episode's own driver -/
  | episode
  /-- the driver that this provider made -/
  | executor (ref : String)
  deriving DecidableEq

structure ExecutorDriver where
  /-- `is_segment`: it runs the sub-goal itself. -/
  runs : Bool
  /-- What its `handshake` is or returns. -/
  handshake : Json

/-- The environment, the driver of the episode and the providers; everything may raise and
change the world. -/
structure Robot (World : Type) where
  /-- `driver.enter_segment`, where the driver has it: the world, and whether the executor that
  was passed answers `act` from now on. -/
  enterSegment : Option (World → EpisodeSpec → Option String → Except PyError (World × Bool))
  /-- `driver.segment_success`. -/
  segmentSuccess : Option (World → Except PyError Bool)
  /-- `driver.retarget` on the object of the spec, with a fresh clock. -/
  retarget : World → EpisodeSpec → Except PyError World
  /-- `score_terminal`. -/
  scoreTerminal : World → EpisodeSpec → Except PyError Bool
  /-- `governed_segment`: the world after it, and for each step whether a recovery owned it. -/
  drive : World → EpisodeSpec → Option Bundle → Int → Except PyError (World × List Bool)
  /-- `load_provider(ref, params)`. -/
  connect : World → String → List (String × Json) → Except PyError World
  makeDriver : World → String → EpisodeSpec → Except PyError (World × ExecutorDriver)
  /-- `executor.run(spec, deadline_s)`: its `ok`. -/
  run : World → String → Json → Except PyError (World × Bool)
  /-- `scene.snapshot(obs)`. -/
  sigma : World → Json

/-- The persistent episode. -/
structure Episode (World : Type) where
  spec : EpisodeSpec
  world : World
  cursor : Nat
  factories : List String

def Episode.exhausted {World : Type} (episode : Episode World) : Bool :=
  decide (episode.spec.horizon ≤ episode.cursor)

/-- What a segment reads of its run. -/
structure SegmentCtx where
  library : Library
  specs : List (String × SkillSpec)
  arm : String
  skills : List Json
  installed : Installed
  /-- `mount_params`. -/
  mountParams : String → List (String × Json)

/-- `_segment_governance`. -/
structure SegmentGovernance where
  skills : List String
  bundleSha : Option String
  criticBudget : Int
  actionBudget : Int
  entered : Nat
  exited : Nat

/-- What `_segment` returns. -/
structure SegmentOutcome where
  success : Bool
  steps : List Author
  aborted : Bool
  governance : SegmentGovernance
  executor : Option String
  driver : Option Json

/-- `(ctx.segment_specs or {}).get(node["skill"]) or {}`. -/
def specOf (ctx : SegmentCtx) (node : PlanNode) : Except PyError SkillSpec :=
  (keyed ctx.specs node.skill).map (fun found => found.getD SkillSpec.empty)

/-- `TRANSPORTS`. -/
def transports : List String := ["inproc", "ssp", "mcp"]

section

variable [Host]

/-- `normalize_handshake`. -/
def normalizeHandshake (transport : String) (ref : String) (record : Json) : Except PyError Json := do
  if transport ∉ transports then
    throw (.valueError ("unknown executor transport " ++ Host.repr (.str transport) ++
      "; known: ('inproc', 'ssp', 'mcp')"))
  else
    let metaFields ← (if record.truthy then record else .obj []).dict
    let flat := (Assoc.get? metaFields "checkpoint_sha").getD .null
    let nested := ((Assoc.get? metaFields "metadata").getD (.obj [])).getD "checkpoint_sha" .null
    let sha := if flat.truthy then flat else nested
    let unverified := (Assoc.get? metaFields "unverified").getD (.arr [])
    let unverified ← (if unverified.truthy then unverified else .arr []).iter
    return .obj [("transport", .str transport), ("ref", .str ref),
      ("checkpoint_sha", if sha.truthy then sha else .null), ("unverified", .arr unverified),
      ("ok", .bool ((Assoc.get? metaFields "ok").getD (.bool true)).truthy), ("meta", .obj metaFields)]

def sealHandshake (transport : String) (ref : String) (record : Json) : Except PyError Json :=
  if (record.get? "transport").isSome then .ok record else normalizeHandshake transport ref record

variable {World : Type} (ctx : SegmentCtx) (robot : Robot World)

def connected (episode : Episode World) (ref : String) (params : List (String × Json)) :
    Except PyError (Episode World) :=
  if ref ∈ episode.factories then .ok episode
  else (robot.connect episode.world ref
      (params.foldl (fun fields entry => Assoc.set fields entry.1 entry.2) (ctx.mountParams ref))).map
    (fun world => { episode with world, factories := episode.factories ++ [ref] })

/-- `_executor`: the provider and its driver, with the row that it seals; `none` where the
segment runs under the episode's own driver. -/
def mountExecutor (episode : Episode World) (spec : EpisodeSpec) (node : PlanNode) :
    Except PyError (Episode World × Option (String × ExecutorDriver × Json)) := do
  let binding ← specOf ctx node
  let mounted ← rearm ctx.library.arms binding ctx.arm node.executor
  match mounted.ref with
  | none => return (episode, none)
  | some ref =>
      if episode.spec.policyProvider = some ref then return (episode, none)
      else
        let episode ← connected ctx robot episode ref mounted.params
        let (world, driver) ← robot.makeDriver episode.world ref spec
        let handshake ← sealHandshake mounted.transport ref driver.handshake
        return ({ episode with world },
          some (ref, driver, .obj [("ref", .str ref), ("handshake", handshake)]))

/-- The author of a step of the driver, given who answers its `act`. -/
def authorOf (acting : Author) (recovered : Bool) : Author := if recovered then .recovery else acting

/-- `_governed_segment`. -/
def governedDrive (episode : Episode World) (spec : EpisodeSpec) (bundle : Option Bundle)
    (executor : Option String) : Except PyError (Episode World × Bool × List Author) := do
  let budget := episode.spec.horizon - episode.cursor
  match robot.enterSegment with
  | some enter =>
      let (world, taken) ← enter episode.world spec executor
      let acting := if taken then (executor.map Author.executor).getD .episode else .episode
      let (world, owned) ← robot.drive world spec bundle budget
      let success ← (robot.segmentSuccess.map (fun truth => truth world)).getD (.error .attributeError)
      return ({ episode with world, cursor := episode.cursor + owned.length }, success,
        owned.map (authorOf acting))
  | none =>
      -- the executor is not passed on
      let world ← robot.retarget episode.world spec
      let (world, owned) ← robot.drive world spec bundle budget
      let success ← robot.scoreTerminal world spec
      return ({ episode with world, cursor := episode.cursor + owned.length }, success,
        owned.map (authorOf .episode))

/-- `driver.enter_segment(env, spec)`, where the driver has it. -/
def armed (world : World) (spec : EpisodeSpec) : Except PyError World :=
  match robot.enterSegment with
  | some enter => (enter world spec none).map Prod.fst
  | none => .ok world

/-- An executor's `ok` is a claim that the driver confirms, where it can. -/
def confirmed (world : World) (ok : Bool) : Except PyError Bool :=
  match robot.segmentSuccess with
  | some truth => if ok then truth world else .ok false
  | none => .ok ok

/-- `_run_segment`: the executor runs the sub-goal, and the harness steps nothing. -/
def runSegment (episode : Episode World) (spec : EpisodeSpec) (node : PlanNode) (ref : String) :
    Except PyError (Episode World × Bool × List Author) := do
  let world ← armed robot episode.world spec
  let request := .obj [("skill", node.skill), ("args", .obj node.args), ("sigma", robot.sigma world)]
  let (world, ok) ← robot.run world ref request
  let success ← confirmed robot world ok
  return ({ episode with world }, success, [])

/-- The executor runs the sub-goal, or the driver is governed through it. -/
def driven (episode : Episode World) (spec : EpisodeSpec) (node : PlanNode) (bundle : Option Bundle)
    (mounted : Option (String × ExecutorDriver × Json)) :
    Except PyError (Episode World × Bool × List Author) :=
  match mounted with
  | some (ref, driver, _) =>
      if driver.runs then runSegment robot episode spec node ref
      else governedDrive robot episode spec bundle (some ref)
  | none => governedDrive robot episode spec bundle none

variable [Sha256] [FloatText]

/-- The seal of a segment from one step of the episode to another. -/
def segmentGovernance (bundle : Option Bundle) (digests : List String) (entered exited : Nat) :
    Except PyError SegmentGovernance :=
  match bundle with
  | none => .ok ⟨digests, none, 0, 0, entered, exited⟩
  | some bundle => (bundle.sha ctx.installed.repertoire).map (fun sha =>
      ⟨digests, some sha, bundle.criticBudget, bundle.actionBudget, entered, exited⟩)

/-- `_segment`. -/
def segment (episode : Episode World) (node : PlanNode) :
    Except PyError (Episode World × SegmentOutcome) := do
  let spec ← segmentSpec ctx.library ctx.specs ctx.arm node episode.spec
  let (bundle, digests) ← assembleBundle ctx.installed ctx.skills spec.task
  if episode.exhausted then
    let governance ← segmentGovernance ctx bundle digests episode.cursor episode.cursor
    return (episode, ⟨false, [], true, governance, none, none⟩)
  else
    let (mountedAt, mounted) ← mountExecutor ctx robot episode spec node
    let (last, success, steps) ← driven robot mountedAt spec node bundle mounted
    let governance ← segmentGovernance ctx bundle digests episode.cursor last.cursor
    let binding ← specOf ctx node
    let key ← executorKey ctx.library.arms binding ctx.arm node.executor
    return (last, ⟨success, steps, false, governance, some key, mounted.map (fun executor => executor.2.2)⟩)

/-- A segment that was dispatched and returned. -/
structure Trial (World : Type) where
  episode : Episode World
  node : PlanNode
  outcome : SegmentOutcome

/-- A run from one state of the episode to another, with its trials in order.  Other nodes,
and dispatches that raise, leave any state of the same episode behind. -/
inductive Segments : Episode World → List (Trial World) → Episode World → Prop where
  | done (episode : Episode World) : Segments episode [] episode
  | trial {episode next last : Episode World} {node : PlanNode} {outcome : SegmentOutcome}
      {trials : List (Trial World)} (ran : segment ctx robot episode node = .ok (next, outcome))
      (rest : Segments next trials last) : Segments episode (⟨episode, node, outcome⟩ :: trials) last
  | other {episode next last : Episode World} {trials : List (Trial World)}
      (spec : next.spec = episode.spec) (rest : Segments next trials last) :
      Segments episode trials last

end

end Task
end PhysicalHarness
