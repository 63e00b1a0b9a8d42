import PhysicalHarness.Protocol.Projection
import PhysicalHarness.Task.Assemble
import PhysicalHarness.Task.Linear
import PhysicalHarness.Task.Segment

namespace PhysicalHarness
namespace Task

open Python Harness Protocol Loop Fallible

/-!
# The steaming mission

The checks of `SteamPrepPlanner` compare a grasped object with the height it was taken from:
the surveyed one, or, for the second grasp, the height that the check `veg-in-sink` returns
as a fact.  The handler of a verify node keeps no facts of its predicate.
-/

/-- `_CHAIN`. -/
def steamChain : List ChainStep :=
  [⟨"faucet-on", "faucet_on", "water-on", "v_water_on"⟩,
    ⟨"grasp-veg", "grasp_veg", "veg-grasped", "v_veg_grasped"⟩,
    ⟨"sink-veg", "sink_veg", "veg-in-sink", "v_veg_in_sink"⟩,
    ⟨"faucet-off", "faucet_off", "water-off", "v_water_off"⟩,
    ⟨"regrasp-veg", "regrasp_veg", "veg-held", "v_veg_held"⟩,
    ⟨"carry-veg", "carry_veg", "at-pot", "v_at_pot"⟩,
    ⟨"pot-veg", "pot_veg", "veg-in-pot", "v_veg_in_pot"⟩,
    ⟨"grasp-pot", "grasp_pot", "pot-held", "v_pot_held"⟩,
    ⟨"burner-pot", "burner_pot", "pot-on-burner", "v_pot_on_burner"⟩]

/-- `_emit_plan`. -/
def emitSteamPlan : Json :=
  emitChain ("in ONE persistent kitchen episode, prep the steaming: turn the " ++
    "sink on, rinse the vegetable in the running sink, turn the " ++
    "sink off, move the vegetable to the pot, and set the pot on " ++
    "the chosen burner -- five phases with temporal constraints, " ++
    "each segment verified on live state and retried in the SAME " ++
    "world, closing with a machine report") steamChain

/-- `SteamPrepPlanner.plan`, on the task of the brief. -/
def planSteamPrep [Host] (task : Json) : Except PyError Json :=
  if task.eq (.str "steam_prep") then .ok emitSteamPlan
  else .error (.valueError ("SteamPrepPlanner only plans 'steam_prep', got " ++ Host.repr task))

structure Raw where
  success : Bool
  facts : Option Json := none
  decision : Option Json := none
  privilege : List String := []

abbrev Predicate := NodeView → List Event → Except PyError (Raw × List String)

/-- `float(position[2])`. -/
def thirdOf [Host] (position : Json) : Except PyError Double :=
  match position with
  | .arr items =>
      match items[2]? with
      | some item => Governor.pyFloat item
      | none => .error .indexError
  | .str text =>
      match text.toList[2]? with
      | some char => Governor.pyFloat (.str (String.ofList [char]))
      | none => .error .indexError
  | .obj _ => .error .keyError
  | _ => .error .typeError

/-- `ctx.nodes_out.get(id)`: the row, whether the audit admits its facts only, and what the
lookup blocks. -/
structure RowRead where
  row : Option Entry
  guarded : Bool
  path : String
  blocked : List String

/-- A row is clean when a perception without blocked reads wrote it. -/
def admitted (origin : Option Provenance) : Bool :=
  origin.any (fun origin => decide (origin.kind = .perceive) && origin.clean)

/-- `_DependencyReads.outputs`. -/
def readRow [Host] (view : NodeView) (id : String) : RowRead :=
  let path := "ctx.nodes_out[" ++ Host.repr (.str id) ++ "]"
  let origin := view.provenance.get? id
  { row := view.nodesOut.get? id
    guarded := admitted origin
    path
    blocked := if admitted origin then [] else path :: (origin.map Provenance.blockedReads).getD [] }

namespace RowRead

/-- `(row or {}).get("facts") or {}`. -/
def facts (read : RowRead) : Json := orEmpty ((read.row.bind Entry.facts).getD .null)

/-- `bool((row or {}).get("success"))`. -/
def success (read : RowRead) : Bool := read.row.any Entry.success

def successPaths [Host] (read : RowRead) : List String :=
  if read.guarded && read.row.isSome then [read.path ++ "[" ++ Host.repr (.str "success") ++ "]"]
  else []

end RowRead

/-! ## The predicates -/

/-- What the simulator tells at a point of the run; each reading may raise. -/
structure Simulator where
  sinkWater : Bool → List Event → Except PyError Bool
  baseNearObj : String → ℚ → List Event → Except PyError Bool
  objGraspedAny : String → List Event → Except PyError Bool
  objInFixture : String → String → List Event → Except PyError Bool
  gripperFar : String → List Event → Except PyError Bool
  objInReceptacle : String → String → List Event → Except PyError Bool
  potOnChosenBurner : String → List Event → Except PyError Bool
  /-- `_obj_z` -/
  objZ : String → List Event → Except PyError Double
  /-- `obs[name + "_pos"]` -/
  objPos : String → List Event → Except PyError (List Double)
  /-- the fingerprint of the scene -/
  scene : List Event → Json
  /-- `env._check_success` -/
  checkSuccess : List Event → Except PyError Bool
  /-- the flags the environment has -/
  flags : List Event → List (String × Bool)

namespace SteamPrep

/-- `VEG`. -/
def veg : String := "vegetable1"

/-- `POT`. -/
def pot : String := "pot"

/-- `SECURE_DZ`. -/
def secureDz : Double := Double.nearest (8 / 100)

/-- `np.isfinite(value) and abs(value) < 100`. -/
def steady (value : Double) : Bool :=
  match value.value with
  | .fin value => decide (|value| < 100)
  | .negZero => true
  | _ => false

section

variable [Host] (sim : Simulator)

def survey : Predicate := fun _ past => do
  let vegetable ← sim.objPos veg past
  let kettle ← sim.objPos pot past
  let objects := [(veg, vegetable.take 3), (pot, kettle.take 3)]
  return ({ success := objects.all (fun object => object.2.all steady)
            facts := some (.obj [("scene", sim.scene past),
              ("objects", .obj (objects.map (fun object =>
                (object.1, .arr (object.2.map (fun value => .float value.value))))))])
            privilege := ["privileged.object_z"] }, [])

def planReady : Predicate := fun view _ => do
  let sealed := readRow view "survey"
  let objects ← if sealed.success then fieldOf sealed.facts "objects" else .ok .null
  let named ← (orEmpty objects).iter
  let _ ← named.mapM hashed
  let scene ← fieldOf sealed.facts "scene"
  return ({ success := sealed.success && [veg, pot].all (fun name => named.any (fun other => other.eq (.str name)))
            decision := some (.obj [("sequence", .arr (steamChain.map (fun entry => .str entry.segment))),
              ("scene", scene)]) }, sealed.blocked ++ sealed.successPaths)

omit [Host] in
/-- `_wrap`. -/
def wrap (prim : List Event → Except PyError Bool) : Predicate := fun _ past => do
  let holds ← prim past
  return ({ success := holds }, [])

def vWaterOn : Predicate := wrap (sim.sinkWater true)

def vWaterOff : Predicate := wrap (sim.sinkWater false)

def vAtPot : Predicate := wrap (sim.baseNearObj pot (3 / 2))

def vPotOnBurner : Predicate := wrap (sim.potOnChosenBurner pot)

/-- `first and second`, for two readings. -/
def both (first second : Except PyError Bool) : Except PyError Bool := do
  if ← first then second else return false

/-- The object has risen above the reference, or its segment says so, and is grasped. -/
def secured (name : String) (reference : Except PyError Double) (segment : RowRead) (past : List Event) :
    Except PyError Bool := do
  let z ← sim.objZ name past
  let z0 ← reference
  let grasped ← sim.objGraspedAny name past
  return grasped && ((z0.add secureDz).lt z || segment.success)

def liftedFromSurvey (name segment : String) : Predicate := fun view past => do
  let sealed := readRow view "survey"
  let objects ← fieldOf sealed.facts "objects"
  let pos0 ← fieldOf (orEmpty objects) name
  if pos0.truthy then
    let drive := readRow view segment
    let held ← secured sim name (thirdOf pos0) drive past
    return ({ success := held }, sealed.blocked ++ drive.blocked ++ drive.successPaths)
  else return ({ success := false }, sealed.blocked)

def vVegGrasped : Predicate := liftedFromSurvey sim veg "grasp-veg"

def vPotHeld : Predicate := liftedFromSurvey sim pot "grasp-pot"

def vVegInSink : Predicate := fun _ past => do
  let z ← sim.objZ veg past
  let settled ← both (sim.objInFixture veg "sink" past) (sim.gripperFar veg past)
  return ({ success := settled, facts := some (.obj [("veg_z", .float z.value)]) }, [])

/-- The second grasp, from the height that `veg-in-sink` sealed. -/
def vVegHeld : Predicate := fun view past => do
  let sealed := readRow view "veg-in-sink"
  let z0 ← fieldOf sealed.facts "veg_z"
  if z0.isNull then return ({ success := false }, sealed.blocked)
  else
    let drive := readRow view "regrasp-veg"
    let held ← secured sim veg (Governor.pyFloat z0) drive past
    return ({ success := held }, sealed.blocked ++ drive.blocked ++ drive.successPaths)

def vVegInPot : Predicate := fun _ past => do
  let settled ← both (sim.objInReceptacle veg pot past) (sim.gripperFar veg past)
  return ({ success := settled }, [])

omit [Host] in
/-- A reading of the report; one that raises reads as `None`. -/
def liveOf (reading : Except PyError Bool) : Json :=
  match reading with
  | .ok value => .bool value
  | .error _ => .null

def report : Predicate := fun view past =>
  let live := [("water_on", liveOf (sim.sinkWater true past)),
    ("veg_in_pot", liveOf (sim.objInReceptacle veg pot past)),
    ("pot_on_burner", liveOf (sim.potOnChosenBurner pot past))]
  let ready := liveOf (sim.checkSuccess past)
  let flags := ["water_was_turned_on", "vegetable_was_in_sink"].filterMap (fun name =>
    (Assoc.get? (sim.flags past) name).map (fun value => (name, .bool value)))
  let segments := steamChain.map (fun entry => (entry.segment, readRow view entry.segment))
  .ok ({ success := (live.all (fun reading => !reading.2.isNull)) && !ready.isNull
         decision := some (.obj [("live", .obj live),
           ("flags", .obj flags),
           ("segments", .obj (segments.map (fun segment => (segment.1, .bool segment.2.success)))),
           ("steam_ready", ready)]) },
    segments.flatMap (fun segment => segment.2.blocked ++ segment.2.successPaths))

/-- `PREDICATES`. -/
def predicates : List (String × Predicate) :=
  [("survey", survey sim), ("plan", planReady), ("report", report sim),
    ("v_water_on", vWaterOn sim), ("v_veg_grasped", vVegGrasped sim), ("v_veg_in_sink", vVegInSink sim),
    ("v_water_off", vWaterOff sim), ("v_veg_held", vVegHeld sim), ("v_at_pot", vAtPot sim),
    ("v_veg_in_pot", vVegInPot sim), ("v_pot_held", vPotHeld sim), ("v_pot_on_burner", vPotOnBurner sim)]

end

end SteamPrep

/-! ## The handlers -/

section

variable [Host] (predicates : List (String × Predicate))

/-- `_call_predicate`, with the metadata of its reads. -/
def callPredicate (node : PlanNode) (view : NodeView) (past : List Event) :
    Except PyError (Raw × List String) := do
  match ← keyed predicates node.skill with
  | some predicate =>
      let read ← predicate view past
      return (read.1, sorted read.2.dedup)
  | none =>
      .error (.valueError ("node " ++ Host.repr (.str node.id) ++ " (kind " ++
        Host.repr (node.raw.getD "kind" .null) ++ ") names predicate " ++ Host.repr node.skill ++
        " with no ref in the card's PREDICATES table; declared predicates: " ++
        reprNames (sorted (Assoc.keys predicates))))

/-- `{"privilege_features": .., "privilege_cost": ..}`. -/
def governanceOf (features : List String) (cost : Nat) : Json :=
  .obj [("privilege_features", .arr (features.map .str)), ("privilege_cost", .int cost)]

namespace Handler

/-- `_perceive`. -/
def perceive (registry : Registry) (node : PlanNode) (view : NodeView) (past : List Event) :
    Except PyError Result := do
  let read ← callPredicate predicates node view past
  let cost ← privilegeCost registry read.1.privilege
  return { success := read.1.success
           facts := some (read.1.facts.getD .null)
           evidencePolicy := some evidencePolicy
           blockedReads := some read.2
           governance := governanceOf read.1.privilege cost }

/-- `_decide`. -/
def decide (node : PlanNode) (view : NodeView) (past : List Event) : Except PyError Result := do
  let read ← callPredicate predicates node view past
  return { success := read.1.success
           decision := some (read.1.decision.getD .null)
           evidencePolicy := some evidencePolicy
           blockedReads := some read.2
           governance := governanceOf [] 0 }

/-- `_verify`. -/
def verify (node : PlanNode) (view : NodeView) (past : List Event) : Except PyError Result := do
  let read ← callPredicate predicates node view past
  return { success := read.1.success
           verificationSuccess := if read.2.isEmpty then some read.1.success else none
           evidencePolicy := some evidencePolicy
           blockedReads := some read.2
           governance := governanceOf [] 0 }

end Handler

end

/-- What a run of the mission is given. -/
structure Steaming where
  simulator : Simulator
  registry : Registry
  /-- the handlers of the kinds that drive -/
  drive : NodeKind → PlanNode → NodeView → List Event → Except PyError Result
  cancelled : List Event → Bool

/-- `_KIND_HANDLERS`. -/
def Steaming.handle [Host] (steaming : Steaming) (kind : NodeKind) (node : PlanNode) (view : NodeView)
    (past : List Event) : Except PyError Result :=
  match kind with
  | .perceive => Handler.perceive (SteamPrep.predicates steaming.simulator) steaming.registry node view past
  | .decide => Handler.decide (SteamPrep.predicates steaming.simulator) node view past
  | .verify => Handler.verify (SteamPrep.predicates steaming.simulator) node view past
  | kind => steaming.drive kind node view past

def steamWorld [Host] (steaming : Steaming) : World where
  plan := fun _ _ => planSteamPrep (.str "steam_prep")
  handle := steaming.handle
  cancelled := steaming.cancelled

section

variable [Host]

variable {here : Point × State} {past : List Event} {view : NodeView}

theorem facts_none_of_verify {predicates : List (String × Predicate)} {node : PlanNode}
    {result : Result} (returned : Handler.verify predicates node view past = .ok result) :
    result.facts = none := by
  rcases of_bind returned with ⟨read, called, same⟩
  cases same
  rfl

theorem exists_read_of_verify {predicates : List (String × Predicate)} {node : PlanNode}
    {result : Result} {name : String} {predicate : Predicate} (skill : node.skill = .str name)
    (known : Assoc.get? predicates name = some predicate)
    (returned : Handler.verify predicates node view past = .ok result) :
    ∃ read, predicate view past = .ok read ∧ result.success = read.1.success := by
  rcases of_bind returned with ⟨read, called, same⟩
  cases same
  unfold callPredicate at called
  have keyed_ : keyed predicates node.skill = .ok (some predicate) := by
    rw [skill]
    exact congrArg Except.ok known
  rw [keyed_, bind_ok] at called
  rcases of_bind called with ⟨raw, told, same⟩
  cases same
  exact ⟨raw, told, rfl⟩

theorem vVegHeld_of_unsealed {sim : Simulator} {read : Raw × List String}
    (unsealed : ∀ entry, view.nodesOut.get? "veg-in-sink" = some entry → entry.facts = none)
    (told : SteamPrep.vVegHeld sim view past = .ok read) : read.1.success = false := by
  have bare : (readRow view "veg-in-sink").facts = .obj [] := by
    change orEmpty (((view.nodesOut.get? "veg-in-sink").bind Entry.facts).getD .null) = .obj []
    cases row : view.nodesOut.get? "veg-in-sink" with
    | none => rfl
    | some entry =>
        rw [Option.bind_some, unsealed entry row]
        rfl
  unfold SteamPrep.vVegHeld at told
  dsimp only at told
  rw [bare] at told
  cases told
  rfl

omit [Host] in
theorem check_of_emitted : ∀ entry ∈ steamChain, ∀ raw ∈ nodesOf emitSteamPlan, idOf raw = entry.verify →
    NodeKind.ofJson (kindOf raw) = some .verify ∧
      (raw.getD "skill" .null).eq (.str entry.verifySkill) = true ∧ (raw.getD "task" .null).isNull = true := by
  decide +kernel

variable {config : Config} {steaming : Steaming}

theorem emitted_of_steaming (brief : Brief) (past : List Event) (plan : Json)
    (replied : (steamWorld steaming).plan brief past = .ok plan) : plan = emitSteamPlan := by
  have same : Except.ok emitSteamPlan = (.ok plan : Except PyError Json) := replied
  cases same
  rfl

theorem exists_verify_of_row {entry : ChainStep} {row : Entry} (mem : entry ∈ steamChain)
    (reached : Reachable config.asking (steamWorld steaming) here)
    (found : here.2.nodesOut.get? entry.verify = some row) :
    ∃ node state past result, node.skill = .str entry.verifySkill ∧
      (∃ point, Reachable config.asking (steamWorld steaming) (point, state)) ∧
      Handler.verify (SteamPrep.predicates steaming.simulator) node ⟨state.nodesOut, state.provenance⟩ past =
        .ok result ∧ row = entryOf result := by
  have written := sourced_of_reachable reached _ _ found
  generalize wanted : entry.verify = id at written
  cases written with
  | @returned plan node rest state kind result way known called =>
      have played := (plays_of_reachable emitted_of_steaming way).inPlay plan rfl
      have among := (holds_of_reachable way).2
      rcases raw_of_among among with ⟨raw, listed, read⟩
      rw [played] at listed
      rcases check_of_emitted entry mem raw listed ((congrArg PlanNode.id read).trans wanted.symm)
        with ⟨verifies, skill, taskless⟩
      rw [← read] at known called
      have kinds : some NodeKind.verify = some kind := verifies.symm.trans known
      cases kinds
      have own : viewFor (PlanNode.ofJson raw) state = ⟨state.nodesOut, state.provenance⟩ := by
        unfold viewFor
        have null : (PlanNode.ofJson raw).raw.getD "task" .null = .null := by
          change raw.getD "task" .null = .null
          cases task : raw.getD "task" .null with
          | null => rfl
          | _ =>
              rw [task] at taskless
              cases taskless
        rw [null]
        rfl
      rw [own] at called
      exact ⟨_, state, _, result, (Json.eq_str_iff _ _).mp skill, ⟨_, way⟩, called, rfl⟩

theorem unsealed_of_reachable {entry : ChainStep} {row : Entry} (mem : entry ∈ steamChain)
    (reached : Reachable config.asking (steamWorld steaming) here)
    (found : here.2.nodesOut.get? entry.verify = some row) : row.facts = none := by
  rcases exists_verify_of_row mem reached found with ⟨node, state, past, result, _, _, called, rfl⟩
  exact facts_none_of_verify called

theorem unheld_of_reachable (reached : Reachable config.asking (steamWorld steaming) here) :
    here.2.finished "veg-held" = false := by
  unfold State.finished
  cases found : here.2.nodesOut.get? "veg-held" with
  | none => rfl
  | some row =>
      have held : ⟨"regrasp-veg", "regrasp_veg", "veg-held", "v_veg_held"⟩ ∈ steamChain := by decide
      have basin : ⟨"sink-veg", "sink_veg", "veg-in-sink", "v_veg_in_sink"⟩ ∈ steamChain := by decide
      rcases exists_verify_of_row held reached found with ⟨node, state, past, result, skill, way, called, rfl⟩
      rcases way with ⟨point, way⟩
      rcases exists_read_of_verify skill rfl called with ⟨read, told, same⟩
      change result.success = false
      rw [same]
      exact vVegHeld_of_unsealed (fun entry row => unsealed_of_reachable basin way row) told

/-- The mission always ends, and never with success. -/
theorem steaming_never_completes (config : Config) (steaming : Steaming) :
    (∃ fuel final, run config.asking (steamWorld steaming) fuel = some final) ∧
      ∀ fuel state, run config.asking (steamWorld steaming) fuel ≠ some (.finished true state) := by
  refine ⟨exists_run _ _, ?_⟩
  intro fuel state ran
  rcases among_of_run ran with ⟨plan, last, reached⟩
  have holds := holds_of_reachable reached
  have played := (plays_of_reachable emitted_of_steaming reached).inPlay plan rfl
  have known : chainNode "veg-held" "v_veg_held" "verify" ["regrasp-veg"] ∈ nodesOf plan := by
    rw [played]
    change _ ∈ chainNode "survey" "survey" "perceive" [] ::
      chainNode "plan" "plan" "decide" ["survey"] :: chainNodes "plan" steamChain
    simp [chainNodes, steamChain]
  have done := finished_of_among holds.1 holds.2 known
  change last.finished "veg-held" = true at done
  rw [unheld_of_reachable reached] at done
  cases done

end

section Example

local instance steamHost : Host := asciiHost

def sank : Event → Bool
  | .dispatched _ node _ => decide (node.id = "veg-in-sink")
  | _ => false

/-- Every segment succeeds, every reading is `True`, and what is grasped has risen above the
surveyed height, after the basin above the one read there. -/
structure Favourable (steaming : Steaming) : Prop where
  drives : ∀ kind node view past,
    ∃ result, steaming.drive kind node view past = .ok result ∧ result.success = true ∧ result.stages = []
  water : ∀ on past, steaming.simulator.sinkWater on past = .ok true
  near : ∀ name th past, steaming.simulator.baseNearObj name th past = .ok true
  grasped : ∀ name past, steaming.simulator.objGraspedAny name past = .ok true
  inside : ∀ name place past, steaming.simulator.objInFixture name place past = .ok true ∧
    steaming.simulator.objInReceptacle name place past = .ok true
  released : ∀ name past, steaming.simulator.gripperFar name past = .ok true
  burner : ∀ name past, steaming.simulator.potOnChosenBurner name past = .ok true
  ready : ∀ past, steaming.simulator.checkSuccess past = .ok true
  surveyed : ∀ name past, ∃ x y z, steaming.simulator.objPos name past = .ok [x, y, z] ∧
    [x, y, z].all SteamPrep.steady = true ∧ ∀ later height, steaming.simulator.objZ name later = .ok height →
      (z.add SteamPrep.secureDz).lt height = true
  regrasped : ∀ past later low height, past.any sank = false → later.any sank = true →
    steaming.simulator.objZ SteamPrep.veg past = .ok low →
    steaming.simulator.objZ SteamPrep.veg later = .ok height → (low.add SteamPrep.secureDz).lt height = true

/-- The brief of the card, without contract records, and with budget for its nodes. -/
def steamConfig : Config where
  catalogue := (["survey", "plan", "report"] ++ steamChain.map ChainStep.segmentSkill ++
    steamChain.map ChainStep.verifySkill).map (fun skill => (skill, []))
  oracles := ["staged", "reported"]
  requirements := []
  records := []
  facts := []
  objects := []
  graph := .null
  seed := 0
  maxReplans := 0
  maxActuations := 42
  segmentRetries := 1

/-- Both objects are surveyed on the floor; the first grasp lifts to one metre, the second to
two. -/
def calmKitchen : Steaming where
  simulator :=
    { sinkWater := fun _ _ => .ok true
      baseNearObj := fun _ _ _ => .ok true
      objGraspedAny := fun _ _ => .ok true
      objInFixture := fun _ _ _ => .ok true
      gripperFar := fun _ _ => .ok true
      objInReceptacle := fun _ _ _ => .ok true
      potOnChosenBurner := fun _ _ => .ok true
      objZ := fun _ past => .ok (Double.nearest (if past.any sank then 2 else 1))
      objPos := fun _ _ => .ok [Double.nearest 0, Double.nearest 0, Double.nearest 0]
      scene := fun _ => .obj []
      checkSuccess := fun _ => .ok true
      flags := fun _ => [] }
  registry := ⟨[("privileged.object_z", .privileged)], by decide⟩
  drive := fun _ _ _ _ => .ok { success := true }
  cancelled := fun _ => false

theorem favourable_calmKitchen : Favourable calmKitchen where
  drives _ _ _ _ := ⟨_, rfl, rfl, rfl⟩
  water _ _ := rfl
  near _ _ _ := rfl
  grasped _ _ := rfl
  inside _ _ _ := ⟨rfl, rfl⟩
  released _ _ := rfl
  burner _ _ := rfl
  ready _ := rfl
  surveyed _ _ := by
    refine ⟨_, _, _, rfl, by decide +kernel, ?_⟩
    rintro later _ ⟨⟩
    split
    · decide +kernel
    · decide +kernel
  regrasped past later := by
    rintro _ _ before after ⟨⟩ ⟨⟩
    rw [before, after]
    decide +kernel

private def stuckAt (name : String) : Final → Bool
  | .finished false state => decide (state.faults.map Fault.node = [some name])
  | _ => false

/-- The mission fails at the check of the second grasp. -/
theorem second_grasp_unconfirmed : Favourable calmKitchen ∧
    ((nodesOf emitSteamPlan).length : Int) ≤ steamConfig.maxActuations ∧
    ∃ state, run steamConfig.asking (steamWorld calmKitchen) 20 = some (.finished false state) ∧
      state.faults.map Fault.node = [some "veg-held"] := by
  have stuck : (run steamConfig.asking (steamWorld calmKitchen) 20).any (stuckAt "veg-held") = true := by
    decide +kernel
  rw [Option.any_eq_true] at stuck
  rcases stuck with ⟨final, ran, fails⟩
  refine ⟨favourable_calmKitchen, by decide +kernel, ?_⟩
  cases final with
  | crashed error state => cases fails
  | finished success state =>
      cases success with
      | true => cases fails
      | false => exact ⟨state, ran, of_decide_eq_true fails⟩

end Example

end Task
end PhysicalHarness
