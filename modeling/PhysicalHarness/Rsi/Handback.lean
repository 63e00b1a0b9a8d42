import PhysicalHarness.Harness.ChunkDriver
import PhysicalHarness.Rsi.Discipline

namespace PhysicalHarness
namespace Rsi
namespace KitchenThaw

open Python Harness JsonText Fallible
open Harness.ChunkDriver (Config Driver Inferred Trace Tracked)

/-!
# An executor that gets the control back

The composite driver of the kitchen empties the chunks of its executor when a segment is
entered.  A recovery takes the control away as well, but the hand-back is not passed on, so
that the executor goes on with what its chunks have left.
-/

variable {K ι : Type}

/-! ## What an action is computed from -/

/-- One action of the executor: the executor before it, what an inference would return, and the
last moment at which the control was regained, counted in actions. -/
structure Play (ι K : Type) where
  before : Trace ι K
  fresh : List (ChunkDriver.Action ι K)
  resumed : Nat
  /-- no action since that moment -/
  handed : Bool

namespace Play

variable (config : Config ι K) (play : Play ι K)

/-- The chunks that have an entry for the action. -/
def used : List (Inferred ι K) :=
  (ChunkDriver.taking config (play.before.logged config play.fresh)).filter
    (fun inferred => (inferred.covers play.before.time).isSome)

/-- The action is computed from these chunks, and from nothing else. -/
def Computed [Field K] [ChunkDriver.Exponential K] [DecidableEq ι] : Prop :=
  ∃ acted, ChunkDriver.act config play.before.driver play.fresh = .ok acted ∧
    acted.heads = (play.used config).filterMap (Inferred.covers play.before.time)

/-- No chunk was inferred before the control was regained. -/
def Fresh : Prop := ∀ inferred ∈ play.used config, play.resumed ≤ inferred.at_

/-- At the first action the chunks are used up, or the one that is left is replaced. -/
def Clear : Prop :=
  play.handed = true → play.before.driver.chunks = [] ∨
    config.ensemble = none ∧ ∃ k, config.replanEvery = some k ∧ k ≤ play.before.driver.since

end Play

/-- What holds of the executor between two actions. -/
structure Settled (config : Config ι K) (trace : Trace ι K) (resumed : Nat) (handed : Bool) : Prop where
  tracked : Tracked config trace
  early : ∀ inferred ∈ trace.log, inferred.at_ < trace.time
  reached : resumed ≤ trace.time
  atOnce : handed = true → resumed = trace.time

/-- What is left was inferred since the control was regained. -/
def Own (config : Config ι K) (trace : Trace ι K) (resumed : Nat) : Prop :=
  ∀ inferred ∈ ChunkDriver.taking config trace.log, inferred.remaining trace.time ≠ [] →
    resumed ≤ inferred.at_

theorem remaining_ne_nil_iff (time : Nat) (inferred : Inferred ι K) :
    inferred.remaining time ≠ [] ↔ (inferred.covers time).isSome = true := by
  rw [← ChunkDriver.head?_remaining]
  cases inferred.remaining time with
  | nil => exact iff_of_false (fun some_ => some_ rfl) Bool.noConfusion
  | cons first rest => exact iff_of_true (List.cons_ne_nil _ _) rfl

theorem mem_taking {config : Config ι K} {log : List (Inferred ι K)} {inferred : Inferred ι K}
    (mem : inferred ∈ ChunkDriver.taking config log) : inferred ∈ log := by
  rw [ChunkDriver.taking] at mem
  split_ifs at mem
  · exact mem
  · exact List.mem_of_getLast? (Option.mem_toList.mp mem)

theorem chunks_eq_nil_iff {config : Config ι K} {trace : Trace ι K} (tracked : Tracked config trace) :
    trace.driver.chunks = [] ↔
      ∀ inferred ∈ ChunkDriver.taking config trace.log, inferred.remaining trace.time = [] := by
  rw [tracked.chunks, ChunkDriver.live, List.filter_eq_nil_iff]
  constructor
  · intro all inferred mem
    have empty := all _ (List.mem_map_of_mem mem)
    rw [Bool.not_eq_true', Bool.not_eq_false, List.isEmpty_iff] at empty
    exact empty
  · intro all chunk mem
    rcases List.mem_map.mp mem with ⟨inferred, listed, rfl⟩
    rw [all inferred listed]
    exact Bool.noConfusion

section

variable [Field K] [ChunkDriver.Exponential K] [DecidableEq ι] {config : Config ι K} {play : Play ι K}
  {acted : ChunkDriver.Acted ι K}

theorem fresh_ne_nil (ran : ChunkDriver.act config play.before.driver play.fresh = .ok acted)
    (asks : ChunkDriver.infers config play.before.driver = true) : play.fresh ≠ [] := by
  intro empty
  rcases of_bind ran with ⟨heads, popped, _⟩
  have mem : ([] : List (ChunkDriver.Action ι K)) ∈
      (ChunkDriver.refreshed config play.before.driver play.fresh).chunks := by
    rw [ChunkDriver.refreshed, if_pos asks, empty]
    simp only []
    split_ifs
    · exact List.mem_append_right _ (.head _)
    · exact .head _
  rcases returns_mapM_iff.mp ⟨heads, popped⟩ _ mem with ⟨head, made⟩
  cases made

theorem act_tracked (tracked : Tracked config play.before)
    (ran : ChunkDriver.act config play.before.driver play.fresh = .ok acted) :
    play.Computed config ∧
      Tracked config ⟨acted.driver, play.before.time + 1, play.before.logged config play.fresh⟩ := by
  have heads_of {fresh : List (ChunkDriver.Action ι K)} {acted : ChunkDriver.Acted ι K}
      (aligned : ChunkDriver.Aligned config play.before.time (play.before.logged config fresh) acted) :
      acted.heads = ((ChunkDriver.taking config (play.before.logged config fresh)).filter (fun inferred =>
        (inferred.covers play.before.time).isSome)).filterMap (Inferred.covers play.before.time) := by
    rw [aligned.heads, List.filterMap_filter]
    apply List.filterMap_congr
    intro inferred _
    cases inferred.covers play.before.time with
    | none => rfl
    | some action => rfl
  cases asks : ChunkDriver.infers config play.before.driver with
  | true =>
      rcases ChunkDriver.act_spec tracked (fresh_ne_nil ran asks) with ⟨acted_, ran_, aligned, later⟩
      cases ran.symm.trans ran_
      exact ⟨⟨acted, ran, heads_of aligned⟩, later⟩
  | false =>
      have some_ : [(0 : ChunkDriver.Action ι K)] ≠ [] := List.cons_ne_nil _ _
      have same : ChunkDriver.refreshed config play.before.driver [0] =
          ChunkDriver.refreshed config play.before.driver play.fresh := by
        rw [ChunkDriver.refreshed, ChunkDriver.refreshed, asks]
        rfl
      have logs : play.before.logged config [0] = play.before.logged config play.fresh := by
        rw [Trace.logged, Trace.logged, asks]
        rfl
      rcases ChunkDriver.act_spec tracked some_ with ⟨acted_, ran_, aligned, later⟩
      have again : ChunkDriver.act config play.before.driver play.fresh = .ok acted_ := by
        rw [← ran_, ChunkDriver.act, ChunkDriver.act, same]
      cases ran.symm.trans again
      rw [logs] at aligned later
      exact ⟨⟨acted, ran, heads_of aligned⟩, later⟩

theorem settled_act (settled : Settled config play.before play.resumed play.handed)
    (ran : ChunkDriver.act config play.before.driver play.fresh = .ok acted) :
    Settled config ⟨acted.driver, play.before.time + 1, play.before.logged config play.fresh⟩
      play.resumed false where
  tracked := (act_tracked settled.tracked ran).2
  early := by
    intro inferred mem
    rw [Trace.logged] at mem
    split_ifs at mem
    · rcases List.mem_append.mp mem with before | now
      · exact Nat.lt_succ_of_lt (settled.early inferred before)
      · cases List.mem_singleton.mp now
        exact Nat.lt_succ_self _
    · exact Nat.lt_succ_of_lt (settled.early inferred mem)
  reached := Nat.le_succ_of_le settled.reached
  atOnce := fun never => Bool.noConfusion never

omit [Field K] [ChunkDriver.Exponential K] [DecidableEq ι] in
theorem due_of_infers {driver : Driver ι K} (asks : ChunkDriver.infers config driver = true)
    (left : driver.chunks ≠ []) : ∃ k, config.replanEvery = some k ∧ k ≤ driver.since := by
  rw [ChunkDriver.infers, Bool.or_eq_true, List.isEmpty_iff] at asks
  rcases asks with empty | due
  · exact absurd empty left
  · rw [Option.any_eq_true] at due
    rcases due with ⟨k, found, late⟩
    exact ⟨k, found, of_decide_eq_true late⟩

omit [Field K] [ChunkDriver.Exponential K] [DecidableEq ι] in
theorem infers_of_due {driver : Driver ι K} {k : Nat} (found : config.replanEvery = some k)
    (late : k ≤ driver.since) : ChunkDriver.infers config driver = true := by
  rw [ChunkDriver.infers, Bool.or_eq_true, found]
  exact Or.inr (decide_eq_true late)

omit [Field K] [ChunkDriver.Exponential K] [DecidableEq ι] in
theorem left_of_taking {inferred : Inferred ι K}
    (mem : inferred ∈ ChunkDriver.taking config (play.before.logged config play.fresh)) :
    inferred.at_ = play.before.time ∨
      inferred ∈ ChunkDriver.taking config play.before.log ∧
        (ChunkDriver.infers config play.before.driver = true → config.ensemble ≠ none) := by
  rw [Trace.logged] at mem
  split_ifs at mem with asks
  · rw [ChunkDriver.taking_snoc] at mem
    split_ifs at mem with ensemble
    · rcases List.mem_append.mp mem with before | now
      · refine Or.inr ⟨?_, fun _ none_ => ?_⟩
        · rw [ChunkDriver.taking, if_pos ensemble]
          exact before
        · rw [none_] at ensemble
          cases ensemble
      · cases List.mem_singleton.mp now
        exact Or.inl rfl
    · cases List.mem_singleton.mp mem
      exact Or.inl rfl
  · exact Or.inr ⟨mem, fun never => absurd never asks⟩

omit [Field K] [ChunkDriver.Exponential K] [DecidableEq ι] in
theorem own_of_clear (settled : Settled config play.before play.resumed play.handed)
    (clear : play.Clear config) (own : play.handed = false → Own config play.before play.resumed)
    (driver : Driver ι K) :
    play.Fresh config ∧
      Own config ⟨driver, play.before.time + 1, play.before.logged config play.fresh⟩ play.resumed := by
  have each : ∀ inferred ∈ ChunkDriver.taking config (play.before.logged config play.fresh),
      inferred.remaining play.before.time ≠ [] → play.resumed ≤ inferred.at_ := by
    intro inferred mem left
    rcases left_of_taking mem with now | ⟨before, several⟩
    · rw [now]
      exact settled.reached
    · cases handed : play.handed with
      | false => exact own handed inferred before left
      | true =>
          rcases clear handed with empty | ⟨single, k, found, late⟩
          · exact absurd ((chunks_eq_nil_iff settled.tracked).mp empty inferred before) left
          · exact absurd single (several (infers_of_due found late))
  constructor
  · intro inferred mem
    rcases List.mem_filter.mp mem with ⟨listed, covered⟩
    exact each inferred listed ((remaining_ne_nil_iff _ _).mpr covered)
  · intro inferred mem left
    apply each inferred mem
    intro empty
    apply left
    rw [Inferred.remaining, List.drop_eq_nil_iff] at empty ⊢
    exact empty.trans (Nat.sub_le_sub_right (Nat.le_succ _) _)

omit [Field K] [ChunkDriver.Exponential K] [DecidableEq ι] in
theorem stale_of_not_clear (settled : Settled config play.before play.resumed play.handed)
    (unclear : ¬ play.Clear config) : ¬ play.Fresh config := by
  rw [Play.Clear, Classical.not_imp, not_or, not_and] at unclear
  rcases unclear with ⟨handed, left, kept⟩
  have found : ∃ inferred ∈ ChunkDriver.taking config play.before.log,
      inferred.remaining play.before.time ≠ [] := by
    by_contra none_
    apply left
    apply (chunks_eq_nil_iff settled.tracked).mpr
    intro inferred mem
    by_contra some_
    exact none_ ⟨inferred, mem, some_⟩
  rcases found with ⟨inferred, mem, some_⟩
  have again : inferred ∈ ChunkDriver.taking config (play.before.logged config play.fresh) := by
    rw [Trace.logged]
    split_ifs with asks
    · have several : config.ensemble ≠ none := fun single => kept single (due_of_infers asks left)
      rw [ChunkDriver.taking_snoc, if_pos (Option.isSome_iff_ne_none.mpr several)]
      exact List.mem_append_left _ (mem_taking mem)
    · exact mem
  intro fresh
  have late := fresh inferred (List.mem_filter.mpr ⟨again, (remaining_ne_nil_iff _ _).mp some_⟩)
  have early := settled.early inferred (mem_taking mem)
  rw [settled.atOnce handed] at late
  exact absurd early (Nat.not_lt.mpr late)

end

section

variable {World Obs Action Goal Actor : Type}

/-- Whatever the loop asks of the plant, but for an action of the driver, keeps a property of the
world. -/
structure Keeps (holds : World → Prop) (plant : Plant World Obs Action Goal Actor) : Prop where
  step {world action stepped} : holds world → plant.step world action = .ok stepped → holds stepped.2.2
  onHandback {world next} : holds world → plant.onHandback world = .ok next → holds next
  makeRecovery {make world recovery obs draw made} : plant.makeRecovery = some make → holds world →
    make world recovery obs draw = .ok made → holds made.2
  perceptObject {world obs sd draw estimate} : holds world →
    plant.perceptObject world obs sd draw = .ok estimate → holds estimate.2
  placeObject {world obs sd draw estimate} : holds world →
    plant.placeObject world obs sd draw = .ok estimate → holds estimate.2
  retarget {world goal next} : holds world → plant.retarget world goal = .ok next → holds next
  retargetPlace {world goal next} : holds world → plant.retargetPlace world goal = .ok next → holds next
  actorAct {world actor obs acted} : holds world → plant.actorAct world actor obs = .ok acted →
    holds acted.2.2

variable {holds : World → Prop} {plant : Plant World Obs Action Goal Actor}

variable {drive next : Drive World Obs Actor}

theorem keeps_handBack (keeps : Keeps holds plant) (start : holds drive.world)
    (ran : handBack plant drive = .ok next) : holds next.world := by
  rw [handBack] at ran
  split at ran
  · cases ran
    exact start
  · split at ran
    · rcases map_eq_ok.mp ran with ⟨world, handed, rfl⟩
      exact keeps.onHandback start handed
    · cases ran
      exact start

theorem keeps_command (keeps : Keeps holds plant) {action : Action} {owned : Bool}
    (start : holds drive.world) (ran : command plant drive = .ok (some (action, owned, next))) :
    owned = false ∧ holds next.world ∨
      owned = true ∧ plant.act drive.world drive.obs = .ok (action, next.world) := by
  rw [command] at ran
  split at ran
  · rcases map_eq_ok.mp ran with ⟨acted, done, same⟩
    cases same
    exact Or.inl ⟨rfl, keeps.actorAct start done⟩
  · split at ran
    · cases ran
    · rcases map_eq_ok.mp ran with ⟨acted, done, same⟩
      cases same
      exact Or.inr ⟨rfl, done⟩

theorem keeps_startRecovery (keeps : Keeps holds plant) {world : World} {obs : Obs}
    {recovery : RecoverySpec} {draw : Nat} {started : Actor × World} (start : holds world)
    (ran : startRecovery plant world obs recovery draw = .ok started) : holds started.2 := by
  rcases of_bind ran with ⟨steps, _, later⟩
  cases makes : plant.makeRecovery with
  | some make =>
      rw [makes] at later
      exact keeps.makeRecovery makes start later
  | none =>
      rw [makes] at later
      simp only [] at later
      split at later
      · rcases of_bind later with ⟨estimate, placed, later⟩
        rcases of_bind later with ⟨next, aimed, later⟩
        rcases map_eq_ok.mp later with ⟨actor, _, rfl⟩
        exact keeps.retargetPlace (keeps.placeObject start placed) aimed
      · rcases of_bind later with ⟨estimate, seen, later⟩
        rcases of_bind later with ⟨next, aimed, later⟩
        rcases map_eq_ok.mp later with ⟨actor, _, rfl⟩
        exact keeps.retarget (keeps.perceptObject start seen) aimed

variable {registry : Registry} {spec : EpisodeSpec} {bundle : Option Bundle}

theorem keeps_dispatch (keeps : Keeps holds plant) {index : Nat} (start : holds drive.world)
    (ran : dispatch registry plant spec bundle drive index = .ok next) :
    holds next.world := by
  rcases of_bind ran with ⟨view, _, later⟩
  split at later
  · cases later
  · simp only [] at later
    split at later
    · cases later
      exact start
    · rcases map_eq_ok.mp later with ⟨started, done, rfl⟩
      exact keeps_startRecovery keeps start (lift_eq_ok.mp done)

variable [Sha256] [FloatText]

theorem keeps_governAt (keeps : Keeps holds plant) {governed : Drive World Obs Actor × Option Nat}
    (start : holds drive.world) (ran : governAt registry plant spec bundle drive = .ok governed) :
    holds governed.1.world := by
  rcases of_bind ran with ⟨view, _, later⟩
  rcases of_bind later with ⟨board, _, later⟩
  rcases of_bind later with ⟨⟨critic, triggered⟩, _, later⟩
  cases triggered with
  | none =>
      cases later
      exact start
  | some index =>
      rcases map_eq_ok.mp later with ⟨next, dispatched, rfl⟩
      have start_ : holds ({ drive with critic, board } : Drive World Obs Actor).world := start
      exact keeps_dispatch keeps start_ dispatched

/-- What a turn asks of the driver: nothing, and then the property is kept; or one action, after
which it is kept as well. -/
theorem keeps_watch (keeps : Keeps holds plant)
    {watched : Turn World Obs Actor × Option (Moment Action Obs)} (start : holds drive.world)
    (ran : watch registry plant spec bundle drive = .ok watched) :
    (watched.2.toList.filter Moment.owned = [] ∧ holds watched.1.drive.world) ∨
    (∃ world obs moment next, watched.2 = some moment ∧ moment.owned = true ∧ holds world ∧
      plant.act world obs = .ok (moment.action, next) ∧
      ∀ {after : World → Prop}, Keeps after plant → after next → after watched.1.drive.world) := by
  rcases of_bind ran with ⟨first, handed, ran⟩
  have first_ := keeps_handBack keeps start (lift_eq_ok.mp handed)
  rcases of_bind ran with ⟨commanded, orders, ran⟩
  rcases commanded with _ | ⟨action, owned, second⟩
  · cases ran
    exact Or.inl ⟨rfl, first_⟩
  rcases of_bind ran with ⟨⟨obs, done, world⟩, steps, ran⟩
  have steps_ := lift_eq_ok.mp steps
  rcases keeps_command keeps first_ (lift_eq_ok.mp orders) with ⟨idle, second_⟩ | ⟨owns, acts⟩
  · subst idle
    have third := keeps.step second_ steps_
    cases done with
    | true =>
        cases ran
        exact Or.inl ⟨rfl, third⟩
    | false =>
        cases ran
        exact Or.inl ⟨rfl, third⟩
  · subst owns
    cases done with
    | true =>
        cases ran
        exact Or.inr ⟨first.world, first.obs, _, second.world, rfl, rfl, first_, acts,
          fun keeps_ after => keeps_.step after steps_⟩
    | false =>
        rcases map_eq_ok.mp ran with ⟨governed, done, rfl⟩
        exact Or.inr ⟨first.world, first.obs, _, second.world, rfl, rfl, first_, acts,
          fun keeps_ after => keeps_governAt keeps_ (keeps_.step after steps_) done⟩

end

/-- The simulator, the policy server and the stage drivers of an episode; `Env` is all of their
state. -/
structure Robot (Env Stage Obs PolicyObs EnvAction Actor ι K : Type) where
  extract : String → Obs → Except PyError Double
  repertoire : Repertoire
  /-- `_STAGES`: a stage driver and its cap. -/
  stages : String → Option (Stage × Int)
  /-- `repr(task)` and `sorted(_STAGES)`, as they print. -/
  repr : String → String
  stageNames : String
  /-- `D.tunables()["segment_cap"]`. -/
  segmentCap : Int
  /-- `str(env.get_ep_meta().get("lang") or task)`. -/
  prompt : Env → String → Except PyError String
  step : Env → EnvAction → Except PyError (Obs × Bool × Env)
  /-- `stage.done(env)`. -/
  done : Env → Stage → Bool
  /-- `stage.failure_mode is not None`. -/
  failed : Env → Stage → Bool
  /-- `vla_io.build_obs`. -/
  buildObs : Obs → String → Except PyError PolicyObs
  /-- `_infer`. -/
  infer : Env → PolicyObs → Except PyError (List (ChunkDriver.Action ι K) × Env)
  /-- `vla_io.lerobot_to_env`. -/
  lerobotToEnv : ChunkDriver.Action ι K → Except PyError EnvAction
  /-- `RobocasaRecoveryActor.for_stage`. -/
  forStage : Env → Option Stage → RecoverySpec → Except PyError (Actor × Env)
  actorDone : Env → Actor → Bool
  actorAct : Env → Actor → Obs → Except PyError (EnvAction × Actor × Env)

/-- `KitchenThawDriver` with a chunk driver bound. -/
structure KitchenDriver (Stage ι K : Type) where
  stage : Option Stage
  cap : Int
  k : Nat
  prompt : String
  executor : Trace ι K

/-- The world of the governed loop, with what the executor has played and when it last regained
the control. -/
structure Kitchen (Env Stage ι K : Type) where
  env : Env
  driver : KitchenDriver Stage ι K
  resumed : Nat
  handed : Bool
  played : List (Play ι K)

section

variable {Env Stage Obs PolicyObs EnvAction Actor : Type} [Field K] [ChunkDriver.Exponential K]
  [DecidableEq ι]

variable (config : Config ι K) (robot : Robot Env Stage Obs PolicyObs EnvAction Actor ι K)

def Kitchen.inferred (kitchen : Kitchen Env Stage ι K) (seen : PolicyObs) :
    Except PyError (List (ChunkDriver.Action ι K) × Env) :=
  if ChunkDriver.infers config kitchen.driver.executor.driver then robot.infer kitchen.env seen
  else .ok ([], kitchen.env)

/-- `act` of the composite driver, through the executor. -/
def Kitchen.act (kitchen : Kitchen Env Stage ι K) (obs : Obs) :
    Except PyError (EnvAction × Kitchen Env Stage ι K) := do
  let seen ← robot.buildObs obs kitchen.driver.prompt
  let inferred ← kitchen.inferred config robot seen
  let executor := kitchen.driver.executor
  let acted ← ChunkDriver.act config executor.driver inferred.1
  let action ← robot.lerobotToEnv acted.action
  return (action, { kitchen with
    env := inferred.2
    driver := { kitchen.driver with
      k := kitchen.driver.k + 1
      executor := ⟨acted.driver, executor.time + 1, executor.logged config inferred.1⟩ }
    handed := false
    played := kitchen.played ++ [⟨executor, inferred.1, kitchen.resumed, kitchen.handed⟩] })

/-- `exhausted`. -/
def Kitchen.exhausted (kitchen : Kitchen Env Stage ι K) : Bool :=
  match kitchen.driver.stage with
  | none => true
  | some stage => decide (kitchen.driver.cap ≤ kitchen.driver.k) || robot.done kitchen.env stage ||
      robot.failed kitchen.env stage

/-- `on_handback`: the driver does nothing. -/
def Kitchen.onHandback (kitchen : Kitchen Env Stage ι K) : Kitchen Env Stage ι K :=
  { kitchen with resumed := kitchen.driver.executor.time, handed := true }

/-- `enter_segment` with an executor: the chunks are dropped. -/
def enterSegment (task : String) (executor : Trace ι K) (env : Env) :
    Except PyError (Kitchen Env Stage ι K) :=
  match robot.stages task with
  | none => .error (.valueError ("kitchen_thaw has no stage driver for sub-goal task " ++ robot.repr task ++
      "; SEGMENT_SPECS must re-task each segment to one of " ++ robot.stageNames))
  | some (stage, cap) => (robot.prompt env task).map (fun prompt =>
      { env
        driver :=
          { stage := some stage
            cap := if robot.segmentCap = 0 then cap else robot.segmentCap
            k := 0
            prompt
            executor := ⟨ChunkDriver.reset executor.driver, executor.time, []⟩ }
        resumed := executor.time
        handed := true
        played := [] })

/-- The composite driver and the environment under the governed loop. -/
def plant : Plant (Kitchen Env Stage ι K) Obs EnvAction Unit Actor where
  extract := robot.extract
  repertoire := robot.repertoire
  exhausted := Kitchen.exhausted robot
  act := Kitchen.act config robot
  step := fun kitchen action => (robot.step kitchen.env action).map (fun stepped =>
    (stepped.1, stepped.2.1, { kitchen with env := stepped.2.2 }))
  onHandback := fun kitchen => .ok kitchen.onHandback
  clock := fun kitchen => some kitchen.driver.k
  makeRecovery := some (fun kitchen recovery _ _ =>
    (robot.forStage kitchen.env kitchen.driver.stage recovery).map (fun made =>
      (made.1, { kitchen with env := made.2 })))
  perceptObject := fun _ _ _ _ => .error .attributeError
  placeObject := fun _ _ _ _ => .error .attributeError
  retarget := fun kitchen _ => .ok kitchen
  retargetPlace := fun _ _ => .error .attributeError
  newActor := fun _ _ => .error .attributeError
  actorDone := fun kitchen actor => robot.actorDone kitchen.env actor
  actorAct := fun kitchen actor obs => (robot.actorAct kitchen.env actor obs).map (fun acted =>
    (acted.1, acted.2.1, { kitchen with env := acted.2.2 }))

/-! ## Every action of a segment -/

structure Consistent (kitchen : Kitchen Env Stage ι K) : Prop where
  settled : Settled config kitchen.driver.executor kitchen.resumed kitchen.handed
  computed : ∀ play ∈ kitchen.played, play.Computed config
  own : (∀ play ∈ kitchen.played, play.Clear config) →
    (∀ play ∈ kitchen.played, play.Fresh config) ∧
      (kitchen.handed = false → Own config kitchen.driver.executor kitchen.resumed)
  stale : (∀ play ∈ kitchen.played, play.Fresh config) → ∀ play ∈ kitchen.played, play.Clear config

variable {config robot}

variable {kitchen : Kitchen Env Stage ι K}

theorem consistent_enterSegment {task : String} {executor : Trace ι K} {env : Env}
    (entered : enterSegment robot task executor env = .ok kitchen) :
    Consistent config kitchen := by
  rw [enterSegment] at entered
  cases found : robot.stages task with
  | none =>
      rw [found] at entered
      cases entered
  | some stage =>
      rw [found] at entered
      rcases map_eq_ok.mp entered with ⟨prompt, _, rfl⟩
      have tracked : Tracked config (⟨ChunkDriver.reset executor.driver, executor.time, []⟩ : Trace ι K) :=
        ChunkDriver.tracked_reset
      have nothing {motive : Play ι K → Prop} : ∀ play ∈ ([] : List (Play ι K)), motive play :=
        List.forall_mem_nil _
      exact ⟨⟨tracked, List.forall_mem_nil _, le_rfl, fun _ => rfl⟩,
        nothing, fun _ => ⟨nothing, fun never => Bool.noConfusion never⟩, fun _ => nothing⟩

omit [Field K] [ChunkDriver.Exponential K] [DecidableEq ι] in
theorem played_enterSegment {task : String} {executor : Trace ι K} {env : Env}
    (entered : enterSegment robot task executor env = .ok kitchen) :
    kitchen.played = [] := by
  rw [enterSegment] at entered
  cases found : robot.stages task with
  | none =>
      rw [found] at entered
      cases entered
  | some stage =>
      rw [found] at entered
      rcases map_eq_ok.mp entered with ⟨prompt, _, rfl⟩
      rfl

theorem consistent_env (consistent : Consistent config kitchen) (env : Env) :
    Consistent config { kitchen with env } :=
  ⟨consistent.settled, consistent.computed, consistent.own, consistent.stale⟩

theorem consistent_onHandback (consistent : Consistent config kitchen) :
    Consistent config kitchen.onHandback where
  settled := ⟨consistent.settled.tracked, consistent.settled.early, le_rfl, fun _ => rfl⟩
  computed := consistent.computed
  own := fun clear => ⟨(consistent.own clear).1, fun never => Bool.noConfusion never⟩
  stale := consistent.stale

theorem consistent_act (consistent : Consistent config kitchen) {obs : Obs}
    {acted : EnvAction × Kitchen Env Stage ι K} (ran : kitchen.act config robot obs = .ok acted) :
    Consistent config acted.2 := by
  rcases of_bind ran with ⟨seen, _, later⟩
  rcases of_bind later with ⟨inferred, _, later⟩
  rcases of_bind later with ⟨chosen, acts, later⟩
  rcases of_bind later with ⟨action, _, later⟩
  cases later
  let play : Play ι K := ⟨kitchen.driver.executor, inferred.1, kitchen.resumed, kitchen.handed⟩
  have settled : Settled config play.before play.resumed play.handed := consistent.settled
  have acts_ : ChunkDriver.act config play.before.driver play.fresh = .ok chosen := acts
  have with_last {motive : Play ι K → Prop} (before : ∀ other ∈ kitchen.played, motive other)
      (now : motive play) : ∀ other ∈ kitchen.played ++ [play], motive other := by
    intro other mem
    rcases List.mem_append.mp mem with earlier | last
    · exact before other earlier
    · cases List.mem_singleton.mp last
      exact now
  have last : play ∈ kitchen.played ++ [play] := List.mem_append_right _ (.head _)
  constructor
  · exact settled_act settled acts_
  · exact with_last consistent.computed (act_tracked settled.tracked acts_).1
  · intro clear
    have before := consistent.own (fun other mem => clear other (List.mem_append_left _ mem))
    have own := own_of_clear settled (clear play last) before.2 chosen.driver
    exact ⟨with_last before.1 own.1, fun _ => own.2⟩
  · intro fresh
    have before := consistent.stale (fun other mem => fresh other (List.mem_append_left _ mem))
    apply with_last before
    by_contra unclear
    exact stale_of_not_clear settled unclear (fresh play last)

/-- The action of the step is the one of the play. -/
def Contributes (config : Config ι K) (robot : Robot Env Stage Obs PolicyObs EnvAction Actor ι K)
    (moment : Moment EnvAction Obs) (play : Play ι K) : Prop :=
  ∃ acted, ChunkDriver.act config play.before.driver play.fresh = .ok acted ∧
    robot.lerobotToEnv acted.action = .ok moment.action

theorem contributes_act {next : Kitchen Env Stage ι K} {obs : Obs} {moment : Moment EnvAction Obs}
    (ran : kitchen.act config robot obs = .ok (moment.action, next)) :
    ∃ play, next.played = kitchen.played ++ [play] ∧ Contributes config robot moment play := by
  rcases of_bind ran with ⟨seen, _, later⟩
  rcases of_bind later with ⟨inferred, _, later⟩
  rcases of_bind later with ⟨chosen, acts, later⟩
  rcases of_bind later with ⟨action, turned, later⟩
  cases later
  exact ⟨_, rfl, chosen, acts, turned⟩

theorem keeps_plant {holds : Kitchen Env Stage ι K → Prop}
    (simulator : ∀ kitchen env, holds kitchen → holds { kitchen with env })
    (handback : ∀ kitchen, holds kitchen → holds kitchen.onHandback) :
    Keeps holds (plant config robot) where
  step := by
    intro kitchen action stepped start ran
    rcases map_eq_ok.mp ran with ⟨made, _, rfl⟩
    exact simulator kitchen _ start
  onHandback := by
    intro kitchen next start ran
    cases ran
    exact handback kitchen start
  makeRecovery := by
    intro make kitchen recovery obs draw made makes start ran
    cases makes
    rcases map_eq_ok.mp ran with ⟨actor, _, rfl⟩
    exact simulator kitchen _ start
  perceptObject := by
    intro kitchen obs sd draw estimate _ ran
    cases ran
  placeObject := by
    intro kitchen obs sd draw estimate _ ran
    cases ran
  retarget := by
    intro kitchen goal next start ran
    cases ran
    exact start
  retargetPlace := by
    intro kitchen goal next _ ran
    cases ran
  actorAct := by
    intro kitchen actor obs acted start ran
    rcases map_eq_ok.mp ran with ⟨made, _, rfl⟩
    exact simulator kitchen _ start

def Stands (config : Config ι K) (played : List (Play ι K)) (kitchen : Kitchen Env Stage ι K) : Prop :=
  Consistent config kitchen ∧ kitchen.played = played

theorem keeps_stands (played : List (Play ι K)) :
    Keeps (Stands config played) (plant config robot) :=
  keeps_plant (fun _ env stands => ⟨consistent_env stands.1 env, stands.2⟩)
    (fun _ stands => ⟨consistent_onHandback stands.1, stands.2⟩)

variable [Sha256] [FloatText] {registry : Registry} {spec : EpisodeSpec} {bundle : Option Bundle}

theorem stands_watch {drive : Drive (Kitchen Env Stage ι K) Obs Actor} {played : List (Play ι K)}
    {watched : Turn (Kitchen Env Stage ι K) Obs Actor × Option (Moment EnvAction Obs)}
    (start : Stands config played drive.world)
    (ran : watch registry (plant config robot) spec bundle drive = .ok watched) :
    ∃ plays, Stands config (played ++ plays) watched.1.drive.world ∧
      List.Forall₂ (Contributes config robot) (watched.2.toList.filter Moment.owned) plays := by
  rcases keeps_watch (keeps_stands played) start ran with
    ⟨idle, stands⟩ | ⟨kitchen, obs, moment, next, shown, owns, stands, acts, after⟩
  · refine ⟨[], ?_, ?_⟩
    · rw [List.append_nil]
      exact stands
    · rw [idle]
      exact List.Forall₂.nil
  · have acts_ : kitchen.act config robot obs = .ok (moment.action, next) := acts
    rcases contributes_act acts_ with ⟨play, now, contributes⟩
    refine ⟨[play], after (keeps_stands _) ⟨consistent_act stands.1 acts_, ?_⟩, ?_⟩
    · rw [now, stands.2]
    · rw [shown, Option.toList_some, List.filter_singleton, owns]
      exact List.Forall₂.cons contributes List.Forall₂.nil

theorem stands_transcript {left : Nat} {drive : Drive (Kitchen Env Stage ι K) Obs Actor}
    {played : List (Play ι K)} {done : List (Moment EnvAction Obs) × Drive (Kitchen Env Stage ι K) Obs Actor}
    (start : Stands config played drive.world)
    (ran : transcript registry (plant config robot) spec bundle left drive = .ok done) :
    ∃ plays, Stands config (played ++ plays) done.2.world ∧
      List.Forall₂ (Contributes config robot) (done.1.filter Moment.owned) plays := by
  induction left generalizing drive played done with
  | zero =>
      cases ran
      refine ⟨[], ?_, List.Forall₂.nil⟩
      rw [List.append_nil]
      exact start
  | succ left ih =>
      rcases of_bind ran with ⟨⟨turned, moment⟩, watched, later⟩
      rcases stands_watch start watched with ⟨plays, stands, contribute⟩
      cases turned with
      | stop last =>
          cases later
          exact ⟨plays, stands, contribute⟩
      | next following =>
          rcases map_eq_ok.mp later with ⟨rest, runs, rfl⟩
          rcases ih stands runs with ⟨more, last, contribute_⟩
          refine ⟨plays ++ more, ?_, ?_⟩
          · rw [← List.append_assoc]
            exact last
          · rw [List.filter_append]
            exact List.rel_append contribute contribute_

/-- In every segment the actions of the executor are those of its plays, each computed from its
chunks; and no chunk is older than the control exactly where every first action after a hand-back
finds the chunks used up, or replaces the one that is left. -/
theorem fresh_iff_clear {task : String} {executor : Trace ι K} {env : Env}
    {kitchen : Kitchen Env Stage ι K} {obs : Obs} {left : Nat}
    {done : List (Moment EnvAction Obs) × Drive (Kitchen Env Stage ι K) Obs Actor}
    (entered : enterSegment robot task executor env = .ok kitchen)
    (ran : transcript registry (plant config robot) spec bundle left
      (openingDrive spec bundle kitchen obs) = .ok done) :
    List.Forall₂ (Contributes config robot) (done.1.filter Moment.owned) done.2.world.played ∧
      (∀ play ∈ done.2.world.played, play.Computed config) ∧
      ((∀ play ∈ done.2.world.played, play.Fresh config) ↔
        ∀ play ∈ done.2.world.played, play.Clear config) := by
  have start : Stands config [] kitchen := ⟨consistent_enterSegment entered, played_enterSegment entered⟩
  have start_ : Stands config []
      (openingDrive spec bundle kitchen obs : Drive (Kitchen Env Stage ι K) Obs Actor).world := start
  rcases stands_transcript start_ ran with ⟨plays, ⟨consistent, played⟩, contribute⟩
  rw [List.nil_append] at played
  refine ⟨?_, consistent.computed, consistent.stale, fun clear => (consistent.own clear).1⟩
  rw [played]
  exact contribute

end

section

local instance handbackSha : Sha256 := sha256

local instance handbackFloats : FloatText := exactDecimals

/-- A chunk is drained before the next one is asked for. -/
def draining : Config Unit ℝ where
  replanEvery := none
  ensemble := none
  discreteDims := []
  positive := by
    intro k impossible
    cases impossible
  overlap := fun impossible => Bool.noConfusion impossible

noncomputable def eightZeros : List (ChunkDriver.Action Unit ℝ) := List.replicate 8 (fun _ => 0)

/-- A kitchen whose finger gap stays wide, and whose recoveries take one step. -/
noncomputable def wideKitchen : Robot Nat Unit Nat Unit Unit Nat Unit ℝ where
  extract := fun _ _ => .ok (Double.nearest 1)
  repertoire := ⟨[("regrasp", [])]⟩
  stages := fun task => if task = "nav_fridge" then some ((), 250) else none
  repr := id
  stageNames := ""
  segmentCap := 0
  prompt := fun _ task => .ok task
  step := fun env _ => .ok (env, false, env + 1)
  done := fun _ _ => false
  failed := fun _ _ => false
  buildObs := fun _ _ => .ok ()
  infer := fun env _ => .ok (eightZeros, env)
  lerobotToEnv := fun _ => .ok ()
  forStage := fun env _ _ => .ok (1, env)
  actorDone := fun _ left => left = 0
  actorAct := fun env left _ => .ok ((), left - 1, env)

/-- The segment is entered. -/
def fridge : Kitchen Nat Unit Unit ℝ where
  env := 0
  driver := ⟨some (), 250, 0, "nav_fridge", ⟨⟨[], 0, 0⟩, 0, []⟩⟩
  resumed := 0
  handed := true
  played := []

theorem entered_fridge : enterSegment wideKitchen "nav_fridge" Trace.start 0 = .ok fridge := rfl

/-- Six steps under the rule for a wide gap. -/
noncomputable def sixSteps : Except Halt (List (Moment Unit Nat) × Drive (Kitchen Nat Unit Unit ℝ) Nat Nat) :=
  transcript featureCatalog (plant draining wideKitchen) probeSpec (some wideBundle) 6
    (openingDrive probeSpec (some wideBundle) fridge 0)

/-- The play is computed from a chunk that is older than the control. -/
def Play.stale (play : Play Unit ℝ) : Bool :=
  (play.used draining).any (fun inferred => decide (inferred.at_ < play.resumed))

theorem fresh_iff_clear_six : ∃ done, sixSteps = .ok done ∧
    ((∀ play ∈ done.2.world.played, play.Fresh draining) ↔
      ∀ play ∈ done.2.world.played, play.Clear draining) := by
  have ended : sixSteps.toBool = true := by decide +kernel
  rcases returns_of_toBool ended with ⟨done, ran⟩
  exact ⟨done, ran, (fresh_iff_clear entered_fridge ran).2.2⟩

/-- After the recovery the executor plays what the chunk of before has left. -/
theorem stale_chunk_played : enterSegment wideKitchen "nav_fridge" Trace.start 0 = .ok fridge ∧
    ∃ done, sixSteps = .ok done ∧ ¬ ∀ play ∈ done.2.world.played,
      play.Fresh draining := by
  have found : sixSteps.toOption.any (fun done => done.2.world.played.any Play.stale) = true := by
    decide +kernel
  rw [Option.any_eq_true] at found
  rcases found with ⟨done, ran, some_⟩
  have ran_ : sixSteps = .ok done := by
    cases six : sixSteps with
    | error halt =>
        rw [six] at ran
        cases ran
    | ok done_ =>
        rw [six] at ran
        cases ran
        rfl
  refine ⟨rfl, done, ran_, fun fresh => ?_⟩
  rcases List.any_eq_true.mp some_ with ⟨play, member, old⟩
  rcases List.any_eq_true.mp old with ⟨inferred, used, early⟩
  exact absurd (fresh play member inferred used) (Nat.not_le.mpr (of_decide_eq_true early))

end

end KitchenThaw
end Rsi
end PhysicalHarness
