import PhysicalHarness.Harness.Arms
import PhysicalHarness.Task.Plan

namespace PhysicalHarness
namespace Task

open Python Harness Fallible

variable [Host]

/-!
# The spec a node runs under

A `manipulate` node takes its spec from the execution table of the skills, a `segment` node
from the spec of the persistent episode, overridden by the card's binding for its skill.
The task of that spec is the key under which established skills are found.
-/

/-- What the runtime has loaded: the arms, the execution table, the providers of stages and
`str.format`. -/
structure Library where
  /-- `ARMS`. -/
  arms : List String
  /-- `SKILL_SPECS`; a binding without stages raises at dispatch. -/
  skillSpecs : List (String × SkillSpec)
  loadStages : String → Except PyError (List Rsi.StageSpec)
  /-- A field of the template that the arguments lack is named on the left. -/
  format : String → List (String × Json) → Except (String ⊕ PyError) String

structure TaskBinding where
  episodic : Bool
  episode : Option Kwargs
  segmentSpecs : Option (List (String × SkillSpec))

/-- `table.get(key)`, for a table with text keys. -/
def keyed {α : Type} (table : List (String × α)) (key : Json) : Except PyError (Option α) := do
  hashed key
  return key.str?.bind (Assoc.get? table)

omit [Host] in
theorem keyed_eq_ok {α : Type} {table : List (String × α)} {key : Json} {found : Option α}
    (looked : keyed table key = .ok found) : key.str?.bind (Assoc.get? table) = found := by
  obtain ⟨_, _, same⟩ := of_bind looked
  exact Except.ok.inj same

/-- `args.get("object")`. -/
def objectArg (node : PlanNode) : Json := (Assoc.get? node.args "object").getD .null

/-- `known objects: …`. -/
def knownObjects (table : List (String × String)) : String :=
  "; known objects: " ++ reprNames (sorted (Assoc.keys table))

/-- `task_by_object[obj]`, where the binding has the table. -/
def taskByObject (table : Option (List (String × String))) (object : Json)
    (refusal : List (String × String) → String) : Except PyError (Option String) :=
  match table with
  | none => .ok none
  | some table => do
      match ← keyed table object with
      | some task => return some task
      | none => throw (.valueError (refusal table))

/-- The spec that `_dispatch` builds. -/
def dispatchSpec (library : Library) (seed : Int) (envRef policyRef : String) (node : PlanNode) :
    Except PyError EpisodeSpec := do
  let binding ← keyed library.skillSpecs node.skill
  let unbound : PyError := .valueError ("skill " ++ Host.repr node.skill ++
    " validated against the catalogue but has no execution binding in SKILL_SPECS")
  let binding ← binding.elim (.error unbound) .ok
  let task ← taskByObject binding.taskByObject (objectArg node) (fun table =>
    "skill " ++ Host.repr node.skill ++ " has no task binding for object " ++
      Host.repr (objectArg node) ++ knownObjects table)
  let stagesRef ← binding.kwargs.stages.elim (.error .keyError) .ok
  let stages ← library.loadStages stagesRef
  -- the other keys of a segment binding are no fields of a spec
  if binding.policies.isSome || binding.allowedArgs.isSome || binding.targetByObject.isSome ||
      binding.taskTemplate.isSome then throw .typeError
  else
    EpisodeSpec.new seed (some stages) envRef policyRef
      { binding.kwargs with task := task.or binding.kwargs.task, stages := none }

/-! ## Segment -/

def stagesOf (library : Library) : Option String → Except PyError (Option (List Rsi.StageSpec))
  | none => .ok none
  | some ref => (library.loadStages ref).map some

/-- `_episode_spec`: an empty reference counts as none. -/
def episodeSpec (library : Library) (seed : Int) (envRef policyRef : String) (episode : Kwargs) :
    Except PyError EpisodeSpec := do
  let stages ← stagesOf library (nonempty episode.stages)
  EpisodeSpec.new seed stages envRef policyRef { episode with stages := none }

/-- The spec of the persistent episode; `None` for a binding that declares no episode. -/
def missionSpec (library : Library) (seed : Int) (envRef policyRef : String)
    (binding : TaskBinding) : Except PyError (Option EpisodeSpec) :=
  if binding.episodic then
    match binding.episode, binding.segmentSpecs with
    | some episode, some _ => (episodeSpec library seed envRef policyRef episode).map some
    | _, _ => .error .keyError
  else .ok none

/-- `segment 'id'`. -/
def segmentText (node : PlanNode) : String := "segment " ++ Host.repr (.str node.id)

/-- `allowed_args`. -/
def groundArgs (node : PlanNode) (allowedArgs : Option (List (String × List Json))) :
    Except PyError Unit :=
  (allowedArgs.getD []).forM (fun entry =>
    let given := (Assoc.get? node.args entry.1).getD .null
    if entry.2.any (fun value => given.eq value) then .ok ()
    else .error (.valueError (segmentText node ++ ": " ++ entry.1 ++ "=" ++ Host.repr given ++
      " is not grounded; allowed values: " ++ Host.repr (.arr entry.2))))

/-- `target_by_object`. -/
def groundTarget (node : PlanNode) (targets : Option (List (String × Json))) : Except PyError Unit :=
  match targets with
  | none => .ok ()
  | some table => do
      let target := (Assoc.get? node.args "target").getD .null
      let expected := (← keyed table (objectArg node)).getD .null
      if expected.isNull || !target.eq expected then
        throw (.valueError (segmentText node ++ ": target " ++ Host.repr target ++
          " is invalid for object " ++ Host.repr (objectArg node) ++ "; expected " ++ Host.repr expected))
      else return ()

/-- `str(task_template).format(**args)`, where the binding has a template. -/
def templated (library : Library) (node : PlanNode) (template : Option String) :
    Except PyError (Option String) :=
  match template with
  | none => .ok none
  | some template =>
      match library.format template node.args with
      | .ok task => .ok (some task)
      | .error (.inl missing) => .error (.valueError (segmentText node ++ ": binding template " ++
          Host.repr (.str template) ++ " needs missing arg " ++ Host.repr (.str missing)))
      | .error (.inr raised) => .error raised

def boundSpec (library : Library) (arm : String) (node : PlanNode) (episode : EpisodeSpec)
    (binding : SkillSpec) : Except PyError EpisodeSpec := do
  let mounted ← rearm library.arms binding arm node.executor
  groundArgs node mounted.spec.allowedArgs
  groundTarget node mounted.spec.targetByObject
  let formatted ← templated library node mounted.spec.taskTemplate
  let chosen ← taskByObject mounted.spec.taskByObject (objectArg node) (fun table =>
    segmentText node ++ ": object " ++ Host.repr (objectArg node) ++ " has no task binding" ++
      knownObjects table)
  let stages ← stagesOf library mounted.spec.kwargs.stages
  episode.child { mounted.spec.kwargs with
    task := chosen.or (formatted.or mounted.spec.kwargs.task) } stages

/-- `_segment_spec`. -/
def segmentSpec (library : Library) (specs : List (String × SkillSpec)) (arm : String)
    (node : PlanNode) (episode : EpisodeSpec) : Except PyError EpisodeSpec := do
  let binding := (← keyed specs node.skill).getD SkillSpec.empty
  if binding.isEmpty then return episode else boundSpec library arm node episode binding

/-- A run of a plan: the card, the arm and the references of the kernel. -/
structure Mission where
  library : Library
  binding : TaskBinding
  arm : String
  seed : Int
  envRef : String
  policyRef : String

/-- The task under which the established skills of a node are looked up at dispatch; a kind
that nothing governs has none. -/
def governedTask (mission : Mission) (node : PlanNode) : Except PyError (Option String) :=
  match NodeKind.ofJson node.kind with
  | some .manipulate => do
      let spec ← dispatchSpec mission.library mission.seed mission.envRef mission.policyRef node
      return some spec.task
  | some .segment => do
      match ← missionSpec mission.library mission.seed mission.envRef mission.policyRef
          mission.binding with
      | none => throw (.valueError ("segment node " ++ Host.repr (.str node.id) ++
          " needs a persistent episode; the brief must declare 'episodic' " ++
          "(no EpisodeContext threaded on this run)"))
      | some episode =>
          let spec ← segmentSpec mission.library (mission.binding.segmentSpecs.getD [])
            mission.arm node episode
          return some spec.task
  | _ => .ok none

def bindingOf (table : List (String × SkillSpec)) (node : PlanNode) : SkillSpec :=
  (node.skill.str?.bind (Assoc.get? table)).getD SkillSpec.empty

/-- The task that a binding names for a node: by its object, by the template, or directly. -/
def namedTask (library : Library) (binding : SkillSpec) (node : PlanNode) : Option String :=
  match binding.taskByObject with
  | some table => (objectArg node).str?.bind (Assoc.get? table)
  | none =>
      match binding.taskTemplate with
      | some template => (library.format template node.args).toOption
      | none => binding.kwargs.task

def episodeTask (binding : TaskBinding) : String :=
  ((binding.episode.getD Kwargs.empty).task).getD "lift"

/-- The sub-goal of a node: the task its table names, else that of the episode it runs in. -/
def subGoal (library : Library) (binding : TaskBinding) (node : PlanNode) : String :=
  if node.kind.eq (.str "segment") then
    (namedTask library (bindingOf (binding.segmentSpecs.getD []) node) node).getD (episodeTask binding)
  else (namedTask library (bindingOf library.skillSpecs node) node).getD "lift"

/-! ## A node runs under the task of its sub-goal -/

section

variable {library : Library} {node : PlanNode}

omit [Host] in
theorem bindingOf_eq {table : List (String × SkillSpec)} {found : Option SkillSpec}
    (looked : keyed table node.skill = .ok found) :
    bindingOf table node = found.getD SkillSpec.empty := by
  rw [bindingOf, keyed_eq_ok looked]

omit [Host] in
theorem taskByObject_eq_ok {table : Option (List (String × String))} {object : Json}
    {refusal : List (String × String) → String} {chosen : Option String}
    (looked : taskByObject table object refusal = .ok chosen) :
    chosen = table.bind (fun table => object.str?.bind (Assoc.get? table)) ∧
      (table.isSome → chosen.isSome) := by
  cases table with
  | none =>
      cases looked
      exact ⟨rfl, id⟩
  | some table =>
      rcases of_bind looked with ⟨found, found_, looked⟩
      cases found with
      | none => cases looked
      | some task =>
          cases looked
          exact ⟨(keyed_eq_ok found_).symm, fun _ => rfl⟩

theorem templated_eq_ok {template : Option String} {formatted : Option String}
    (ran : templated library node template = .ok formatted) :
    formatted = template.bind (fun template => (library.format template node.args).toOption) ∧
      (template.isSome → formatted.isSome) := by
  cases template with
  | none =>
      cases ran
      exact ⟨rfl, id⟩
  | some template =>
      rw [templated] at ran
      split at ran
      · rename_i task same
        cases ran
        refine ⟨?_, fun _ => rfl⟩
        rw [Option.bind_some, same]
        rfl
      · cases ran
      · cases ran

omit [Host] in
theorem namedTask_eq {binding : SkillSpec} {chosen formatted : Option String}
    (object : chosen = binding.taskByObject.bind (fun table =>
      (objectArg node).str?.bind (Assoc.get? table)))
    (listed : binding.taskByObject.isSome → chosen.isSome)
    (template : formatted = binding.taskTemplate.bind (fun template =>
      (library.format template node.args).toOption))
    (filled : binding.taskTemplate.isSome → formatted.isSome) :
    chosen.or (formatted.or binding.kwargs.task) = namedTask library binding node := by
  rw [namedTask]
  cases table : binding.taskByObject with
  | some entries =>
      rw [table] at object listed
      rcases Option.isSome_iff_exists.mp (listed rfl) with ⟨task, same⟩
      rw [same]
      exact same.symm.trans object
  | none =>
      rw [table] at object
      rw [object, Option.bind_none, Option.none_or]
      cases text : binding.taskTemplate with
      | some written =>
          rw [text] at template filled
          rcases Option.isSome_iff_exists.mp (filled rfl) with ⟨task, same⟩
          rw [same]
          exact same.symm.trans template
      | none =>
          rw [text] at template
          rw [template]
          rfl

variable {episode spec : EpisodeSpec}

theorem dispatchSpec_task {seed : Int} {envRef policyRef : String}
    (built : dispatchSpec library seed envRef policyRef node = .ok spec) :
    spec.task = (namedTask library (bindingOf library.skillSpecs node) node).getD "lift" ∧
      (bindingOf library.skillSpecs node).taskTemplate = none := by
  rcases of_bind built with ⟨found, looked, built⟩
  rcases of_bind built with ⟨binding, bound, built⟩
  rcases of_bind built with ⟨chosen, chose, built⟩
  rcases of_bind built with ⟨_, _, built⟩
  rcases of_bind built with ⟨_, _, built⟩
  have same : bindingOf library.skillSpecs node = binding := by
    rw [bindingOf_eq looked]
    cases found with
    | none => cases bound
    | some other => exact Except.ok.inj bound
  rw [same]
  split at built
  · cases built
  · rename_i plain
    have template : binding.taskTemplate = none := by
      cases text : binding.taskTemplate with
      | none => rfl
      | some written => exact absurd (by simp [text]) plain
    refine ⟨?_, template⟩
    rcases taskByObject_eq_ok chose with ⟨object, listed⟩
    have named : chosen.or ((none : Option String).or binding.kwargs.task) =
        namedTask library binding node :=
      namedTask_eq object listed (by rw [template]; rfl) (by simp [template])
    rw [EpisodeSpec.new_task built, ← named, Option.none_or]

theorem boundSpec_task {arm : String} {binding : SkillSpec}
    (built : boundSpec library arm node episode binding = .ok spec) :
    spec.task = (namedTask library binding node).getD episode.task := by
  rcases of_bind built with ⟨mounted, resolved, built⟩
  rcases of_bind built with ⟨_, _, built⟩
  rcases of_bind built with ⟨_, _, built⟩
  rcases of_bind built with ⟨formatted, fills, built⟩
  rcases of_bind built with ⟨chosen, chose, built⟩
  rcases of_bind built with ⟨_, _, built⟩
  -- the arm replaces the policies and their provider only
  have spec_ := (rearm_eq_ok resolved).2.2
  have named : namedTask library mounted.spec node = namedTask library binding node := by
    rw [spec_]
    rfl
  rcases taskByObject_eq_ok chose with ⟨object, listed⟩
  rcases templated_eq_ok fills with ⟨template, filled⟩
  rw [← named, ← namedTask_eq object listed template filled]
  exact EpisodeSpec.child_task built

theorem segmentSpec_task {specs : List (String × SkillSpec)} {arm : String}
    (built : segmentSpec library specs arm node episode = .ok spec) :
    spec.task = (namedTask library (bindingOf specs node) node).getD episode.task := by
  rcases of_bind built with ⟨found, looked, built⟩
  rw [bindingOf_eq looked]
  dsimp only at built
  split at built
  · rename_i bare
    cases built
    have parts : (found.getD SkillSpec.empty).taskByObject = none ∧
        (found.getD SkillSpec.empty).taskTemplate = none ∧
        (found.getD SkillSpec.empty).kwargs.task = none := by
      simp only [SkillSpec.isEmpty, Kwargs.isEmpty, Bool.and_eq_true, Option.isNone_iff_eq_none] at bare
      exact ⟨bare.1.2, bare.1.1.2, by tauto⟩
    rw [namedTask, parts.1, parts.2.1, parts.2.2]
    rfl
  · exact boundSpec_task built

omit [Host] in
theorem missionSpec_task {seed : Int} {envRef policyRef : String} {binding : TaskBinding}
    (opened : missionSpec library seed envRef policyRef binding = .ok (some episode)) :
    episode.task = episodeTask binding ∧ binding.episodic = true := by
  unfold missionSpec at opened
  split at opened
  · rename_i episodic
    refine ⟨?_, episodic⟩
    split at opened
    · rename_i kwargs specs declared _
      rcases map_eq_ok.mp opened with ⟨spec, built, same⟩
      cases same
      rcases of_bind built with ⟨stages, _, made⟩
      rw [EpisodeSpec.new_task made, episodeTask, declared]
      rfl
    · cases opened
  · cases opened

end

variable {mission : Mission} {node : PlanNode}

theorem governedTask_eq_subGoal {task : String}
    (ran : governedTask mission node = .ok (some task)) :
    task = subGoal mission.library mission.binding node := by
  unfold governedTask at ran
  cases kind : NodeKind.ofJson node.kind with
  | none =>
      rw [kind] at ran
      cases ran
  | some known =>
      rw [kind] at ran
      have named := NodeKind.ofJson_eq_some_iff.mp kind
      cases known with
      | manipulate =>
          rcases of_bind ran with ⟨spec, built, same⟩
          cases same
          have other : node.kind.eq (.str "segment") = false := by
            rw [named]
            rfl
          rw [subGoal, other, (dispatchSpec_task built).1]
          rfl
      | segment =>
          rcases of_bind ran with ⟨opened, opens, ran⟩
          cases opened with
          | none => cases ran
          | some episode =>
              rcases of_bind ran with ⟨spec, built, same⟩
              cases same
              have this : node.kind.eq (.str "segment") = true := by
                rw [named]
                rfl
              rw [subGoal, this, if_pos rfl, segmentSpec_task built, (missionSpec_task opens).1]
      | _ => cases ran

theorem episodic_of_governed {task : String} (ran : governedTask mission node = .ok (some task))
    (kind : node.kind.eq (.str "segment") = true) :
    mission.binding.episodic = true := by
  have named : NodeKind.ofJson node.kind = some .segment :=
    NodeKind.ofJson_eq_some_iff.mpr ((Json.eq_str_iff _ _).mp kind)
  rw [governedTask, named] at ran
  rcases of_bind ran with ⟨opened, opens, ran⟩
  cases opened with
  | none => cases ran
  | some episode => exact (missionSpec_task opens).2

theorem template_of_governed {task : String} (ran : governedTask mission node = .ok (some task))
    (kind : node.kind.eq (.str "segment") = false) :
    (bindingOf mission.library.skillSpecs node).taskTemplate = none := by
  rw [governedTask] at ran
  cases known : NodeKind.ofJson node.kind with
  | none =>
      rw [known] at ran
      cases ran
  | some named =>
      rw [known] at ran
      cases named with
      | manipulate =>
          rcases of_bind ran with ⟨spec, built, _⟩
          exact (dispatchSpec_task built).2
      | segment =>
          rw [NodeKind.ofJson_eq_some_iff.mp known] at kind
          cases kind
      | _ => cases ran

end Task
end PhysicalHarness
