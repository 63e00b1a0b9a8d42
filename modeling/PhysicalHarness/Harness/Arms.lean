import PhysicalHarness.Lib.Fallible
import PhysicalHarness.Rsi.Governed

namespace PhysicalHarness
namespace Harness

open Python Fallible

/-!
# Episode specs and executor arms

A card writes keyword arguments for an `EpisodeSpec`, and with them the policies that may
drive the skill.  An arm, or the explicit pick of a node, resolves to one policy key; the
policy behind it supplies a driver and replaces the policy provider of the spec.  What
the plant alone reads of a spec is kept by name.
-/

/-! ## Episode specs -/

/-- The fields of `EpisodeSpec` that only the plant reads. -/
def plantFields : List String :=
  ["robot", "percept_noise", "arm_noise", "kp", "policy", "schedule", "grasp_height_offset",
    "terminal_label", "segment_isolate", "percept_provider"]

structure EpisodeSpec where
  seed : Int
  task : String
  horizon : Int
  stages : Option (List Rsi.StageSpec)
  envProvider : Option String
  policyProvider : Option String
  plant : List (String × Json)
  known : ∀ name ∈ Assoc.keys plant, name ∈ plantFields

/-- Keyword arguments as a card writes them; `stages` is still a reference. -/
structure Kwargs where
  seed : Option Int
  task : Option String
  horizon : Option Int
  stages : Option String
  envProvider : Option String
  policyProvider : Option String
  rest : List (String × Json)

namespace Kwargs

/-- `{}`. -/
def empty : Kwargs := ⟨none, none, none, none, none, none, []⟩

/-- `not kwargs`. -/
def isEmpty (kwargs : Kwargs) : Bool :=
  kwargs.seed.isNone && kwargs.task.isNone && kwargs.horizon.isNone && kwargs.stages.isNone &&
    kwargs.envProvider.isNone && kwargs.policyProvider.isNone && kwargs.rest.isEmpty

/-- `{**base, **over}`. -/
def merge (base update : Kwargs) : Kwargs where
  seed := update.seed.or base.seed
  task := update.task.or base.task
  horizon := update.horizon.or base.horizon
  stages := update.stages.or base.stages
  envProvider := update.envProvider.or base.envProvider
  policyProvider := update.policyProvider.or base.policyProvider
  rest := update.rest.foldl (fun fields entry => Assoc.set fields entry.1 entry.2) base.rest

theorem mem_keys_update {update base : List (String × Json)} {name : String}
    (mem : name ∈ Assoc.keys
      (update.foldl (fun fields entry => Assoc.set fields entry.1 entry.2) base)) :
    name ∈ Assoc.keys base ∨ name ∈ Assoc.keys update := by
  induction update generalizing base with
  | nil => exact Or.inl mem
  | cons entry rest ih =>
      rcases ih mem with earlier | later
      · rcases (Assoc.mem_keys_set _ _ _ _).mp earlier with same | there
        · exact Or.inr (by simp [same])
        · exact Or.inl there
      · exact Or.inr (by simp [later])

end Kwargs

namespace EpisodeSpec

/-- `EpisodeSpec(seed=…, stages=…, env_provider=…, policy_provider=…, **kwargs)`: an unknown
name and a name given twice raise. -/
def new (seed : Int) (stages : Option (List Rsi.StageSpec)) (envProvider policyProvider : String)
    (kwargs : Kwargs) : Except PyError EpisodeSpec :=
  if kwargs.seed.isSome || kwargs.stages.isSome || kwargs.envProvider.isSome ||
      kwargs.policyProvider.isSome then .error .typeError
  else if known : ∀ name ∈ Assoc.keys kwargs.rest, name ∈ plantFields then
    .ok {
      seed
      task := kwargs.task.getD "lift"
      horizon := kwargs.horizon.getD 900
      stages
      envProvider := some envProvider
      policyProvider := some policyProvider
      plant := kwargs.rest
      known }
  else .error .typeError

/-- `child(**kwargs)`, with the stages resolved. -/
def child (spec : EpisodeSpec) (kwargs : Kwargs) (stages : Option (List Rsi.StageSpec)) :
    Except PyError EpisodeSpec :=
  if known : ∀ name ∈ Assoc.keys kwargs.rest, name ∈ plantFields then
    .ok {
      seed := kwargs.seed.getD spec.seed
      task := kwargs.task.getD spec.task
      horizon := kwargs.horizon.getD spec.horizon
      stages := stages.or spec.stages
      envProvider := kwargs.envProvider.or spec.envProvider
      policyProvider := kwargs.policyProvider.or spec.policyProvider
      plant := kwargs.rest.foldl (fun fields entry => Assoc.set fields entry.1 entry.2) spec.plant
      known := fun name member => (Kwargs.mem_keys_update member).elim (spec.known name) (known name) }
  else .error .typeError

theorem new_task {seed : Int} {stages : Option (List Rsi.StageSpec)} {env policy : String}
    {kwargs : Kwargs} {spec : EpisodeSpec} (made : new seed stages env policy kwargs = .ok spec) :
    spec.task = kwargs.task.getD "lift" := by
  unfold new at made
  split at made
  · cases made
  · split at made
    · cases made
      rfl
    · cases made

theorem child_task {spec next : EpisodeSpec} {kwargs : Kwargs} {stages : Option (List Rsi.StageSpec)}
    (made : spec.child kwargs stages = .ok next) : next.task = kwargs.task.getD spec.task := by
  unfold child at made
  split at made
  · cases made
    rfl
  · cases made

end EpisodeSpec

/-! ## Policies and arms -/

/-- One entry of `policies`. -/
structure Policy where
  transport : Option String
  ref : Option String
  params : List (String × Json)
  checkpointSha : Option String

/-- A binding of a card: `None` stands for a key that it does not have. -/
structure SkillSpec where
  policies : Option (List (String × Policy))
  allowedArgs : Option (List (String × List Json))
  targetByObject : Option (List (String × Json))
  taskTemplate : Option String
  taskByObject : Option (List (String × String))
  kwargs : Kwargs

namespace SkillSpec

/-- `not binding`. -/
def isEmpty (spec : SkillSpec) : Bool :=
  spec.policies.isNone && spec.allowedArgs.isNone && spec.targetByObject.isNone &&
    spec.taskTemplate.isNone && spec.taskByObject.isNone && spec.kwargs.isEmpty

/-- The binding of a skill that a table does not list. -/
def empty : SkillSpec := ⟨none, none, none, none, none, Kwargs.empty⟩

/-- `list(spec.get("policies") or {})`. -/
def policyKeys (spec : SkillSpec) : List String := Assoc.keys (spec.policies.getD [])

end SkillSpec

variable [Host]

/-- `executor_key`. -/
def executorKey (arms : List String) (spec : SkillSpec) (arm : String) (executor : Json) :
    Except PyError String :=
  if arm ≠ "auto" ∧ arm ∉ arms then
    .error (.valueError ("unknown arm " ++ Host.repr (.str arm) ++ "; known arms: " ++
      reprNames (sorted arms)))
  else
    let unknown : Except PyError String :=
      .error (.valueError ("unknown executor " ++ Host.repr executor ++ "; bound: " ++
        reprNames (sorted ("scripted" :: spec.policyKeys).dedup)))
    match executor with
    | .null => .ok (if arm ∈ spec.policyKeys then arm else "scripted")
    | .str name => if name = "scripted" ∨ name ∈ spec.policyKeys then .ok name else unknown
    | other => do
        Python.hashed other
        unknown

/-- What `rearm` resolves. -/
structure Mounted where
  key : String
  transport : String
  ref : Option String
  params : List (String × Json)
  checkpointSha : Option String
  spec : SkillSpec

def nonempty (text : Option String) : Option String := text.filter (fun text => decide (text ≠ ""))

/-- The policy under a key, or `{}`. -/
def SkillSpec.policy (spec : SkillSpec) (key : String) : Policy :=
  (Assoc.get? (spec.policies.getD []) key).getD ⟨none, none, [], none⟩

/-- `rearm`. -/
def rearm (arms : List String) (spec : SkillSpec) (arm : String) (executor : Json) :
    Except PyError Mounted := do
  let key ← executorKey arms spec arm executor
  let policy := spec.policy key
  let params := match nonempty policy.checkpointSha with
    | some sha => Assoc.set policy.params "checkpoint_sha" (.str sha)
    | none => policy.params
  return {
    key
    transport := policy.transport.getD "inproc"
    ref := policy.ref
    params
    checkpointSha := policy.checkpointSha
    spec := { spec with
      policies := none
      kwargs := { spec.kwargs with
        policyProvider := (nonempty policy.ref).or spec.kwargs.policyProvider } } }

theorem rearm_eq_ok {arms : List String} {spec : SkillSpec} {arm : String} {executor : Json}
    {mounted : Mounted} (resolved : rearm arms spec arm executor = .ok mounted) :
    executorKey arms spec arm executor = .ok mounted.key ∧
      mounted.ref = (spec.policy mounted.key).ref ∧
      mounted.spec = { spec with
        policies := none
        kwargs := { spec.kwargs with
          policyProvider := (nonempty mounted.ref).or spec.kwargs.policyProvider } } := by
  obtain ⟨key, found, rest⟩ := of_bind resolved
  cases rest
  exact ⟨found, rfl, rfl⟩

end Harness
end PhysicalHarness
