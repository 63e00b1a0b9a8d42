import PhysicalHarness.Rsi.Bundle

namespace PhysicalHarness
namespace Rsi

open Python Harness JsonText

/-!
# The governed segment

One loop drives an open environment for a bounded span.  The policy owns a step
unless a recovery does; after a step of the policy the critic sees the admitted
features, its rules are stepped, and the first rule whose trigger has held long
enough starts a recovery.  Stages are scored along the way and feed nothing.

The environment, the driver, the percept and the recovery actor are a `Plant`:
each of its operations may raise, and may change the world as it likes.
-/

structure Clause where
  feature : String
  op : Op
  threshold : Double
  deriving DecidableEq

structure StageSpec where
  name : String
  success : List Clause
  budget : Int
  deriving DecidableEq

/-- What the segment itself reads of an `EpisodeSpec`; the rest is the plant's. -/
structure EpisodeSpec where
  seed : Int
  stages : Option (List StageSpec)

/-- The environment, the driver, the percept provider and the recovery actors. -/
structure Plant (World Obs Action Goal Actor : Type) where
  /-- `REGISTRY[name].extract(obs)`. -/
  extract : String → Obs → Except PyError Double
  repertoire : Repertoire
  /-- `driver.exhausted`. -/
  exhausted : World → Bool
  act : World → Obs → Except PyError (Action × World)
  /-- `env.step(action)`: the observation and `done`. -/
  step : World → Action → Except PyError (Obs × Bool × World)
  onHandback : World → Except PyError World
  /-- `driver.k`, where the driver has a clock. -/
  clock : World → Option Int
  /-- `driver.make_recovery`, where the driver has it. -/
  makeRecovery : Option (World → RecoverySpec → Obs → Nat → Except PyError (Actor × World))
  /-- `_percept_object`. -/
  perceptObject : World → Obs → Double → Nat → Except PyError (Goal × World)
  /-- `_place_object`. -/
  placeObject : World → Obs → Double → Nat → Except PyError (Goal × World)
  retarget : World → Goal → Except PyError World
  retargetPlace : World → Goal → Except PyError World
  /-- `RecoveryActor(steps, goal)`. -/
  newActor : List Step → Goal → Except PyError Actor
  actorDone : World → Actor → Bool
  actorAct : World → Actor → Obs → Except PyError (Action × Actor × World)

inductive Halt where
  /-- `InvariantViolation` of `assert_privilege_budget`. -/
  | invariantViolation (role : String)
  /-- The `KeyError` of a trigger whose feature is not in the critic's view. -/
  | missingFeature (name : String)
  /-- Anything that the plant, a strategy lookup or a stage predicate raises. -/
  | raised (error : PyError)
  deriving DecidableEq

def lift {α : Type} : Except PyError α → Except Halt α
  | .ok value => .ok value
  | .error error => .error (.raised error)

structure Slot where
  rule : Rule
  consec : Nat
  used : Nat

/-- One entry of `fires`; the source keeps the rule's id. -/
structure Fire where
  rule : Rule
  step : Nat
  envStep : Nat

structure Critic where
  slots : List Slot
  fires : List Fire
  history : List (String × List Double)
  chain : String
  privilegeUsed : Nat
  k : Nat

/-- One rule on one view: the view after the read, the slot, and whether the
trigger has held for its dwell. -/
def visit (step : Nat) (view : FeatureView) (slot : Slot) :
    Except Halt (FeatureView × Slot × Bool) :=
  if slot.rule.recovery.maxInvocations ≤ slot.used then .ok (view, { slot with consec := 0 }, false)
  else if (step : Int) < slot.rule.trigger.armAfter then .ok (view, { slot with consec := 0 }, false)
  else
    match view.read slot.rule.trigger.feature with
    | none => .error (.missingFeature slot.rule.trigger.feature)
    | some (value, view) =>
        let consec := if slot.rule.trigger.crosses value then slot.consec + 1 else 0
        .ok (view, { slot with consec := consec }, decide (slot.rule.trigger.dwell ≤ consec))

/-- All rules on one view, with the position of the first that has triggered. -/
def scan (step : Nat) (view : FeatureView) :
    List Slot → Except Halt (FeatureView × List Slot × Option Nat)
  | [] => .ok (view, [], none)
  | slot :: rest =>
      (visit step view slot).bind (fun visited =>
        (scan step visited.1 rest).map (fun later =>
          (later.1, visited.2.1 :: later.2.1,
            if visited.2.2 then some 0 else later.2.2.map (· + 1))))

/-- `history.setdefault(name, []).append(value)` for each feature. -/
def record (history : List (String × List Double)) (values : List (String × Double)) :
    List (String × List Double) :=
  values.foldl (fun history pair =>
    Assoc.set history pair.1 ((Assoc.get? history pair.1).getD [] ++ [pair.2])) history

namespace Critic

section

variable [Sha256] [FloatText]

def log (critic : Critic) (view : FeatureView) : Critic :=
  { critic with
    history := record critic.history view.values
    chain := chainStep critic.chain view.digest []
    k := critic.k + 1 }

end

/-- The rules on a logged view, and the budget they are asserted against. -/
def judge (registry : Registry) (budget : Int) (critic : Critic) (view : FeatureView) :
    Except Halt (Critic × Option Nat) :=
  if critic.slots.isEmpty then .ok (critic, none)
  else
    (scan (critic.k - 1) view critic.slots).bind (fun scanned =>
      if budget < scanned.1.privilegeUsed registry then .error (.invariantViolation "critic")
      else
        .ok ({ critic with
          slots := scanned.2.1
          privilegeUsed := max critic.privilegeUsed (scanned.1.privilegeUsed registry) },
          scanned.2.2))

/-- The triggered rule is charged and recorded, and all dwell counts start anew. -/
def fire (critic : Critic) (index envStep : Nat) : Critic :=
  { critic with
    slots := (critic.slots.modify index (fun slot => { slot with used := slot.used + 1 })).map
      (fun slot => { slot with consec := 0 })
    fires := critic.fires ++ (critic.slots[index]?.map (fun slot =>
      Fire.mk slot.rule (critic.k - 1) envStep)).toList }

end Critic

structure StageResult where
  name : String
  enteredStep : Option Nat
  exitedStep : Option Nat
  success : Bool
  reached : Bool
  privilegeUsed : Nat

/-- The stages that are not scored yet with their cumulative budgets, the bound of
the last scored one, the step the current one was entered at, and the results. -/
structure Board where
  left : List (StageSpec × Int)
  bound : Int
  entered : Nat
  results : List StageResult

def bounds (sum : Int) : List StageSpec → List (StageSpec × Int)
  | [] => []
  | stage :: rest => (stage, stage.budget + sum) :: bounds (stage.budget + sum) rest

/-- `StageSpec.holds`. -/
def holds (view : FeatureView) : List Clause → Except PyError (Bool × FeatureView)
  | [] => .ok (true, view)
  | clause :: rest =>
      match view.read clause.feature with
      | none => .error .keyError
      | some (value, view) =>
          let met := match clause.op with
            | .lt => value.lt clause.threshold
            | .gt => clause.threshold.lt value
          if met then holds view rest else .ok (false, view)

section

variable {World Obs Action Goal Actor : Type}

/-- `project(obs, names, step, episode)`. -/
def Plant.view (plant : Plant World Obs Action Goal Actor) (spec : EpisodeSpec) (obs : Obs)
    (names : List String) (step : Nat) : Except PyError FeatureView :=
  (names.mapM (fun name => (plant.extract name obs).map (fun value => (name, value)))).map
    (fun values => project values step (String.ofList ('s' :: intText spec.seed)))

variable (registry : Registry) (plant : Plant World Obs Action Goal Actor) (spec : EpisodeSpec)

/-- `_score_stage`. -/
def scoreStage (obs : Obs) (k entered : Nat) (exited : Option Nat) (stage : StageSpec) :
    Except PyError StageResult :=
  (plant.view spec obs (registry.admitted 1) k).bind (fun view =>
    (holds view stage.success).map (fun held =>
      ⟨stage.name, some entered, exited, held.1, true, held.2.privilegeUsed registry⟩))

def crossStages (obs : Obs) (k : Nat) (clock : Int) (bound : Int) (entered : Nat)
    (results : List StageResult) : List (StageSpec × Int) → Except PyError Board
  | [] => .ok ⟨[], bound, entered, results⟩
  | (stage, limit) :: rest =>
      if limit ≤ clock then
        (scoreStage registry plant spec obs k entered (some k) stage).bind (fun result =>
          crossStages obs k clock limit k (results ++ [result]) rest)
      else .ok ⟨(stage, limit) :: rest, bound, entered, results⟩

/-- The stage overlay after a policy step; nothing without stages. -/
def stageStep (world : World) (obs : Obs) (k : Nat) : Option Board → Except PyError (Option Board)
  | none => .ok none
  | some board =>
      (crossStages registry plant spec obs k ((plant.clock world).getD k) board.bound board.entered
        board.results board.left).map some

def unreached (stage : StageSpec × Int) : StageResult := ⟨stage.1.name, none, none, false, false, 0⟩

/-- The overlay after the loop: crossed stages, the stage in progress, the rest. -/
def settleStages (world : World) (obs : Obs) (k : Nat) :
    Option Board → Except PyError (Option (List StageResult))
  | none => .ok none
  | some board =>
      let clock := (plant.clock world).getD k
      (crossStages registry plant spec obs k clock board.bound board.entered board.results
        board.left).bind (fun board =>
          match board.left with
          | [] => .ok (some board.results)
          | stage :: rest =>
              if board.bound < clock then
                (scoreStage registry plant spec obs k board.entered none stage.1).map (fun result =>
                  some (board.results ++ [result] ++ rest.map unreached))
              else .ok (some (board.results ++ board.left.map unreached)))

end

/-! ## The loop -/

/-- The state of the loop. -/
structure Drive (World Obs Actor : Type) where
  world : World
  obs : Obs
  critic : Critic
  recovery : Option Actor
  t : Nat
  board : Option Board

inductive Turn (World Obs Actor : Type) where
  | stop (drive : Drive World Obs Actor)
  | next (drive : Drive World Obs Actor)

section

variable {World Obs Action Goal Actor : Type}

def Turn.drive : Turn World Obs Actor → Drive World Obs Actor
  | .stop drive => drive
  | .next drive => drive

def handBack (plant : Plant World Obs Action Goal Actor) (drive : Drive World Obs Actor) :
    Except PyError (Drive World Obs Actor) :=
  match drive.recovery with
  | none => .ok drive
  | some actor =>
      if plant.actorDone drive.world actor then
        (plant.onHandback drive.world).map (fun world => { drive with world, recovery := none })
      else .ok drive

/-- The next action and whether the policy owns it; `none` when the driver is
exhausted. -/
def command (plant : Plant World Obs Action Goal Actor) (drive : Drive World Obs Actor) :
    Except PyError (Option (Action × Bool × Drive World Obs Actor)) :=
  match drive.recovery with
  | some actor =>
      (plant.actorAct drive.world actor drive.obs).map (fun acted =>
        some (acted.1, false, { drive with world := acted.2.2, recovery := some acted.2.1 }))
  | none =>
      if plant.exhausted drive.world then .ok none
      else
        (plant.act drive.world drive.obs).map (fun acted =>
          some (acted.1, true, { drive with world := acted.2 }))

/-- `_is_place_recovery`: the phases of `STACK_PHASE_HEIGHT`. -/
def isPlaceRecovery (steps : List Step) : Bool :=
  steps.any (fun step => step.name ∈ ["over_b", "place", "release", "retreat"])

def startRecovery (plant : Plant World Obs Action Goal Actor) (world : World) (obs : Obs)
    (recovery : RecoverySpec) (draw : Nat) : Except PyError (Actor × World) :=
  (recovery.steps plant.repertoire).bind (fun steps =>
    match plant.makeRecovery with
    | some make => make world recovery obs draw
    | none =>
        if isPlaceRecovery steps then
          (plant.placeObject world obs recovery.sensorSd draw).bind (fun estimate =>
            (plant.retargetPlace estimate.2 estimate.1).bind (fun world =>
              (plant.newActor steps estimate.1).map (fun actor => (actor, world))))
        else
          (plant.perceptObject world obs recovery.sensorSd draw).bind (fun estimate =>
            (plant.retarget estimate.2 estimate.1).bind (fun world =>
              (plant.newActor steps estimate.1).map (fun actor => (actor, world)))))

/-- `bundle.critic_budget if bundle else 0`. -/
def criticBudget (bundle : Option Bundle) : Int := (bundle.map Bundle.criticBudget).getD 0

def actionBudget (bundle : Option Bundle) : Int := (bundle.map Bundle.actionBudget).getD 0

variable [Sha256] [FloatText]

variable (registry : Registry) (plant : Plant World Obs Action Goal Actor) (spec : EpisodeSpec)
  (bundle : Option Bundle)

/-- A rule has triggered: its recovery is started under the action budget. -/
def dispatch (drive : Drive World Obs Actor) (index : Nat) : Except Halt (Drive World Obs Actor) :=
  (lift (plant.view spec drive.obs (registry.admitted (actionBudget bundle))
    (drive.critic.k - 1))).bind (fun view =>
      -- the view is built for the assertion, and nothing reads it
      if actionBudget bundle < view.privilegeUsed registry then
        .error (.invariantViolation "recovery")
      else
        let critic := drive.critic.fire index (drive.t - 1)
        match critic.slots[index]? with
        | none => .ok { drive with critic }
        | some slot =>
            (lift (startRecovery plant drive.world drive.obs slot.rule.recovery slot.used)).map
              (fun started =>
                { drive with critic, world := started.2, recovery := some started.1 }))

/-- The critic on one policy-owned step.  The view is unchanged between the log and
the rules, so that `assert_view_reconstructable` holds. -/
def govern (drive : Drive World Obs Actor) : Except Halt (Drive World Obs Actor) :=
  (lift (plant.view spec drive.obs (registry.admitted (criticBudget bundle))
    drive.critic.k)).bind (fun view =>
      let logged := drive.critic.log view
      (lift (stageStep registry plant spec drive.world drive.obs logged.k drive.board)).bind
        (fun board =>
          (logged.judge registry (criticBudget bundle) view).bind (fun judged =>
            let drive := { drive with critic := judged.1, board }
            match judged.2 with
            | none => .ok drive
            | some index => dispatch registry plant spec bundle drive index)))

/-- One turn of the loop. -/
def turn (drive : Drive World Obs Actor) : Except Halt (Turn World Obs Actor) :=
  (lift (handBack plant drive)).bind (fun drive =>
    (lift (command plant drive)).bind (fun commanded =>
      match commanded with
      | none => .ok (.stop drive)
      | some (action, policyOwned, drive) =>
          (lift (plant.step drive.world action)).bind (fun stepped =>
            let drive := { drive with world := stepped.2.2, obs := stepped.1, t := drive.t + 1 }
            if stepped.2.1 then .ok (.stop drive)
            else if policyOwned then
              (govern registry plant spec bundle drive).map Turn.next
            else .ok (.next drive))))

def driveFor : Nat → Drive World Obs Actor → Except Halt (Drive World Obs Actor)
  | 0, drive => .ok drive
  | left + 1, drive =>
      (turn registry plant spec bundle drive).bind (fun turned =>
        match turned with
        | .stop drive => .ok drive
        | .next drive => driveFor left drive)

/-- `CHAIN_SEED`. -/
def episodeSeed : String := "governor/episode-chain/v1"

def freshCritic : Critic where
  slots := ((bundle.map Bundle.rules).getD []).map (fun rule => ⟨rule, 0, 0⟩)
  fires := []
  history := []
  chain := chainStart episodeSeed
  privilegeUsed := 0
  k := 0

/-- What the segment returns. -/
structure Segment (Obs : Type) where
  obs : Obs
  steps : Nat
  policySteps : Nat
  fires : List Fire
  chain : String
  criticPrivilegeUsed : Nat
  trace : List (String × List Double)
  stages : Option (List StageResult)

/-- `governed_segment`. -/
def governedSegment (world : World) (obs : Obs) (stepBudget : Int) : Except Halt (Segment Obs) :=
  let start : Drive World Obs Actor :=
    ⟨world, obs, freshCritic bundle, none, 0,
      spec.stages.map (fun stages => ⟨bounds 0 stages, 0, 0, []⟩)⟩
  (driveFor registry plant spec bundle stepBudget.toNat start).bind (fun last =>
    (lift (settleStages registry plant spec last.world last.obs last.critic.k last.board)).map
      (fun stages =>
        ⟨last.obs, last.t, last.critic.k, last.critic.fires, last.critic.chain,
          last.critic.privilegeUsed, last.critic.history, stages⟩))

end

end Rsi
end PhysicalHarness
