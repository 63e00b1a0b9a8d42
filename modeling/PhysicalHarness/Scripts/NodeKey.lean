import PhysicalHarness.Rsi.Publish
import PhysicalHarness.Task.Segment

namespace PhysicalHarness
namespace Scripts

open Python Harness Fallible PhysicalHarness.Task

/-!
# The task a campaign publishes for a node

The campaign looks its target up in the tables of the card once more, on its own: a
`manipulate` node through the execution table, a `segment` node through the segment table
over the block of the episode.  The preregistration of an isolated segment then takes the
task of the mission, since that is the environment its rollouts open, and the records that
are published carry the task of the preregistration.
-/

section

variable [Host]

/-- The keyword arguments of a node that the preregistration reads. -/
structure NodeKwargs where
  task : Option String
  stages : Option (List Rsi.StageSpec)
  rest : List (String × Json)

/-- The binding of a node and the block under it; `segment` nodes override the episode. -/
def nodeTables (library : Library) (binding : TaskBinding) (node : PlanNode) :
    Except PyError (Kwargs × SkillSpec) := do
  if node.kind.eq (.str "segment") then
    let entry ← keyed (binding.segmentSpecs.getD []) node.skill
    return (binding.episode.getD Kwargs.empty, entry.getD SkillSpec.empty)
  else
    let entry ← keyed library.skillSpecs node.skill
    return (Kwargs.empty, entry.getD SkillSpec.empty)

/-- `node_spec_kwargs`. -/
def nodeSpecKwargs (library : Library) (binding : TaskBinding) (node : PlanNode) :
    Except PyError NodeKwargs := do
  let (base, entry) ← nodeTables library binding node
  if base.isEmpty && entry.isEmpty then
    throw (.valueError ("node " ++ Host.repr (.str node.id) ++ " (skill " ++ Host.repr node.skill ++
      ", kind " ++ Host.repr node.kind ++
      ") has no execution binding; nothing to build an EpisodeSpec from"))
  else
    let kwargs := base.merge entry.kwargs
    let chosen ← taskByObject entry.taskByObject (objectArg node) (fun _ =>
      "node " ++ Host.repr (.str node.id) ++ ": object " ++ Host.repr (objectArg node) ++
        " has no task binding")
    let stages ← stagesOf library kwargs.stages
    return {
      task := chosen.or kwargs.task
      stages
      rest := kwargs.rest.filter (fun field => decide (field.1 ≠ "percept_provider")) }

/-- The segments on the way to a node, the oldest first: backwards along the last edge
that stays in the graph, until a node repeats. -/
def segmentChain (graph : List PlanNode) : Nat → List String → Option String → List PlanNode
  | 0, _, _ => []
  | fuel + 1, seen, id =>
      match id.bind (fun id => graph.reverse.find? (fun node => node.id == id)) with
      | none => []
      | some node =>
          if node.id ∈ seen then []
          else
            let back := (node.after.filter (fun id => graph.any (fun other => other.id == id))).getLast?
            let earlier := segmentChain graph fuel (node.id :: seen) back
            if node.kind.eq (.str "segment") then earlier ++ [node] else earlier

/-- `_segment_isolation`: the task of the mission, the sub-goals to drive and the horizon. -/
def segmentIsolation (binding : TaskBinding) (task : String) (graph : List PlanNode)
    (node : PlanNode) : Except PyError (String × List String × Int) := do
  let specs ← binding.segmentSpecs.elim (.error .keyError) .ok
  let episode := binding.episode.getD Kwargs.empty
  -- every visit adds a node of the graph to the seen ones
  let chain := segmentChain graph (graph.length + 1) [] (some node.id)
  let subgoals ← chain.mapM (fun node => do
    let entry ← (← keyed specs node.skill).elim (.error .keyError) .ok
    entry.kwargs.task.elim (.error .keyError) .ok)
  return (episode.task.getD task, subgoals, episode.horizon.getD 4000)

/-- The operating point of a node: the task, the chain of an isolated segment and the
horizon. -/
def operatingPoint (binding : TaskBinding) (task : String) (graph : List PlanNode)
    (node : PlanNode) (own : String) : Except PyError (String × Option (List String) × Int) :=
  if node.kind.eq (.str "segment") && binding.episodic then
    (segmentIsolation binding task graph node).map (fun isolated =>
      (isolated.1, some isolated.2.1, isolated.2.2))
  else .ok (own, none, 900)

/-- `seeds(block)`: an inclusive range. -/
def seedsOf (block : Int × Int) : List Int :=
  (List.range (block.2 + 1 - block.1).toNat).map (fun offset => block.1 + (offset : Int))

/-- `build_prereg`, for the calibrated graph and the repair that its deaths ask for. -/
def buildPrereg (library : Library) (binding : TaskBinding) (task : String) (graph : List PlanNode)
    (node : PlanNode) (devBlock heldoutBlock : Int × Int) (recoveryName : String) :
    Except PyError Rsi.Preregistration := do
  let kwargs ← nodeSpecKwargs library binding node
  let own ← kwargs.task.elim (.error .keyError) .ok
  let (preregTask, segmentIsolate, horizon) ← operatingPoint binding task graph node own
  let perceptNoise ← ((Assoc.get? kwargs.rest "percept_noise").map Governor.pyFloat).getD
    (.ok (Double.nearest (3 / 250)))
  let terminalLabel := ((Assoc.get? kwargs.rest "terminal_label").getD (.bool false)).truthy
  let dev := seedsOf devBlock
  let heldout := seedsOf heldoutBlock
  if apart : ∀ seed ∈ dev, seed ∉ heldout then
    return {
      dev, heldout, perceptNoise
      criticBudget := 0
      actionBudget := 0
      recoverySensorSd := Double.nearest (1 / 50)
      maxGenerations := 2
      task := preregTask
      policy := "scripted"
      scaleDevByPower := true
      powerFixShare := Double.nearest (4 / 5)
      powerTarget := Double.nearest (4 / 5)
      minFixed := 3
      alpha := Double.nearest (1 / 20)
      searchRecovery := false
      recoverySearchN := 60
      screenTriggers := false
      priorDiscordanceYield := Double.nearest (7 / 10)
      minDiscordanceYield := Double.nearest (1 / 20)
      screenSearchFraction := Double.nearest (1 / 2)
      requireJudgement := true
      judgementFixShare := Double.nearest (7 / 10)
      priorJudgementYield := Double.nearest (7 / 20)
      earliness := Double.nearest 0
      fpPenalty := Double.nearest (6 / 5)
      recoveryName
      parentStore := none
      parentFinalSha := none
      reasoner := none
      stages := kwargs.stages
      terminalLabel, segmentIsolate, horizon
      envProvider := none
      policyProvider := none
      perceptProvider := Rsi.defaultPerceptRef
      apart }
  else throw (.valueError (Rsi.overlapText (dev.filter (fun seed => seed ∈ heldout))))

section

variable {library : Library} {binding : TaskBinding} {node : PlanNode}

theorem nodeSpecKwargs_task {kwargs : NodeKwargs}
    (looked : nodeSpecKwargs library binding node = .ok kwargs) :
    ∃ base entry chosen refusal, nodeTables library binding node = .ok (base, entry) ∧
      taskByObject entry.taskByObject (objectArg node) refusal = .ok chosen ∧
      kwargs.task = chosen.or (entry.kwargs.task.or base.task) := by
  rcases of_bind looked with ⟨⟨base, entry⟩, tables, looked⟩
  dsimp only at looked
  split at looked
  · cases looked
  · rcases of_bind looked with ⟨chosen, chose, looked⟩
    rcases of_bind looked with ⟨_, _, looked⟩
    cases looked
    exact ⟨base, entry, chosen, _, tables, chose, rfl⟩

variable {task : String} {graph : List PlanNode} {devBlock heldoutBlock : Int × Int}
  {recoveryName : String} {prereg : Rsi.Preregistration}

theorem buildPrereg_eq_ok (built : buildPrereg library binding task graph node devBlock heldoutBlock
      recoveryName = .ok prereg) :
    ∃ kwargs own point, nodeSpecKwargs library binding node = .ok kwargs ∧ kwargs.task = some own ∧
      operatingPoint binding task graph node own = .ok point ∧ prereg.task = point.1 := by
  rcases of_bind built with ⟨kwargs, looked, built⟩
  rcases of_bind built with ⟨own, named, built⟩
  rcases of_bind built with ⟨point, operates, built⟩
  rcases of_bind built with ⟨_, _, built⟩
  refine ⟨kwargs, own, point, looked, ?_, operates, ?_⟩
  · cases found : kwargs.task with
    | none =>
        rw [found] at named
        cases named
    | some other =>
        rw [found] at named
        exact congrArg some (Except.ok.inj named)
  · rcases point with ⟨preregTask, segmentIsolate, horizon⟩
    dsimp only at built
    split at built
    · cases built
      rfl
    · cases built

theorem prereg_task_of_segment (built : buildPrereg library binding task graph node devBlock
      heldoutBlock recoveryName = .ok prereg) (kind : node.kind.eq (.str "segment") = true)
    (episodic : binding.episodic = true) :
    prereg.task = (binding.episode.getD Kwargs.empty).task.getD task := by
  rcases buildPrereg_eq_ok built with ⟨kwargs, own, point, _, _, operates, same⟩
  rw [operatingPoint, kind, episodic] at operates
  rcases map_eq_ok.mp operates with ⟨isolated, ran, rfl⟩
  rcases of_bind ran with ⟨specs, _, ran⟩
  rcases of_bind ran with ⟨subgoals, _, ran⟩
  cases ran
  exact same

theorem prereg_task_of_manipulate (built : buildPrereg library binding task graph node devBlock
      heldoutBlock recoveryName = .ok prereg) (kind : node.kind.eq (.str "segment") = false)
    (plain : (bindingOf library.skillSpecs node).taskTemplate = none) :
    prereg.task = (namedTask library (bindingOf library.skillSpecs node) node).getD "lift" := by
  rcases buildPrereg_eq_ok built with ⟨kwargs, own, point, looked, named, operates, same⟩
  rw [operatingPoint, kind] at operates
  cases operates
  rw [same]
  change own = _
  rcases nodeSpecKwargs_task looked with ⟨base, entry, chosen, refusal, tables, chose, found⟩
  rw [nodeTables, kind] at tables
  rcases of_bind tables with ⟨listed, keyed_, tables⟩
  cases tables
  rw [bindingOf_eq keyed_] at plain ⊢
  rcases taskByObject_eq_ok chose with ⟨object, chosen_⟩
  have table : chosen.or ((none : Option String).or (listed.getD SkillSpec.empty).kwargs.task) =
      namedTask library (listed.getD SkillSpec.empty) node :=
    namedTask_eq object chosen_ (by rw [plain]; rfl) (by simp [plain])
  rw [named] at found
  change some own = chosen.or ((listed.getD SkillSpec.empty).kwargs.task.or none) at found
  rw [Option.or_none] at found
  rw [← table, Option.none_or, ← found]
  rfl

end

/-- A record governs the node it was learned on, and no node of another sub-goal, exactly
when the node is none of a persistent episode or its sub-goal is the task of the mission. -/
theorem governs_own_node_iff (mission : Mission) (task : String) (calibrated graph : List PlanNode)
    (node : PlanNode) (devBlock heldoutBlock : Int × Int) (recoveryName : String)
    (prereg : Rsi.Preregistration) (result : Rsi.CampaignResult) (finalBundleSha : Json)
    (mountPlanSha : Option String) (rec record : Json) (used : String)
    (learned : buildPrereg mission.library mission.binding task calibrated node devBlock heldoutBlock
      recoveryName = .ok prereg)
    (published : Rsi.skillRecord prereg result finalBundleSha mountPlanSha rec = .ok record)
    (ran : governedTask mission node = .ok (some used)) :
    (record.get? "task" = some (.str used) ∧ ∀ other ∈ graph,
      subGoal mission.library mission.binding other ≠ subGoal mission.library mission.binding node →
      ∀ theirs, governedTask mission other = .ok (some theirs) →
        record.get? "task" ≠ some (.str theirs)) ↔
    (node.kind.eq (.str "segment") = true → subGoal mission.library mission.binding node =
      (mission.binding.episode.getD Kwargs.empty).task.getD task) := by
  have carried := Rsi.task_of_skillRecord published
  have own := governedTask_eq_subGoal ran
  have settles : record.get? "task" = some (.str used) ↔ prereg.task = used := by
    rw [carried, Option.some.injEq, Json.str.injEq]
  have alone : prereg.task = used → ∀ other ∈ graph,
      subGoal mission.library mission.binding other ≠ subGoal mission.library mission.binding node →
      ∀ theirs, governedTask mission other = .ok (some theirs) →
        record.get? "task" ≠ some (.str theirs) := by
    intro same other _ apart theirs governed clash
    rw [carried, Option.some.injEq, Json.str.injEq] at clash
    apply apart
    rw [← governedTask_eq_subGoal governed, ← own, ← clash, same]
  have agrees : prereg.task = used ↔ (node.kind.eq (.str "segment") = true →
      subGoal mission.library mission.binding node =
        (mission.binding.episode.getD Kwargs.empty).task.getD task) := by
    cases kind : node.kind.eq (.str "segment") with
    | true =>
        have episodic := episodic_of_governed ran kind
        rw [prereg_task_of_segment learned kind episodic, ← own]
        constructor
        · intro same _
          exact same.symm
        · intro same
          exact (same rfl).symm
    | false =>
        have plain := template_of_governed ran kind
        rw [prereg_task_of_manipulate learned kind plain, own, subGoal, kind]
        constructor
        · intro _ impossible
          cases impossible
        · intro _
          rfl
  rw [settles, ← agrees]
  constructor
  · intro both
    exact both.1
  · intro same
    exact ⟨same, alone same⟩

end

section

local instance keyHost : Host := asciiHost

/-- A kitchen: one rollout skill, and one segment with a task of its own. -/
def kitchenLibrary : Library where
  arms := ["scripted"]
  skillSpecs := [("stack", ⟨none, none, none, none, none,
    ⟨none, some "stack", none, some "stages", none, none, []⟩⟩)]
  loadStages := fun _ => .ok []
  format := fun template _ => .ok template

def kitchenMission : Mission where
  library := kitchenLibrary
  binding := {
    episodic := true
    episode := some ⟨none, some "Kitchen", none, none, none, none, []⟩
    segmentSpecs := some [("grasp", ⟨none, none, none, none, none,
      ⟨none, some "grasp_can", none, none, none, none, []⟩⟩)] }
  arm := "scripted"
  seed := 1
  envRef := "env"
  policyRef := "policy"

def kitchenNode (kind skill : String) : PlanNode :=
  PlanNode.ofJson (.obj [("id", .str "n"), ("skill", .str skill), ("kind", .str kind),
    ("args", .obj []), ("after", .arr [])])

/-- The task of the preregistration of a node of the kitchen. -/
def kitchenPrereg (node : PlanNode) : Except PyError Rsi.Preregistration :=
  buildPrereg kitchenLibrary kitchenMission.binding "kitchen" [node] node (1, 1) (2, 2) "regrasp"

/-- A promoted generation, with the parts that the record keeps apart. -/
def kitchenGeneration : Json :=
  .obj [("rule", .obj [("trigger", .obj []), ("recovery", .obj [])])]

def kitchenResult : Rsi.CampaignResult := ⟨"", [], 1, 1, "", ["g1"], none, none, none⟩

theorem exists_prereg {node : PlanNode} {task : String}
    (built : (kitchenPrereg node).toOption.map Rsi.Preregistration.task = some task) :
    ∃ prereg, kitchenPrereg node = .ok prereg ∧ prereg.task = task := by
  cases made : kitchenPrereg node with
  | error error =>
      rw [made] at built
      cases built
  | ok prereg =>
      rw [made] at built
      exact ⟨prereg, rfl, Option.some.inj built⟩

/-- The rule learned on the grasp is published for the kitchen, and the grasp looks for
rules of its own task. -/
theorem grasp_published_for_kitchen : ∃ (prereg : Rsi.Preregistration) (record : Json),
    kitchenPrereg (kitchenNode "segment" "grasp") = .ok prereg ∧
    Rsi.skillRecord prereg kitchenResult .null none kitchenGeneration = .ok record ∧
    governedTask kitchenMission (kitchenNode "segment" "grasp") = .ok (some "grasp_can") ∧
    record.get? "task" = some (.str "Kitchen") := by
  rcases @exists_prereg (kitchenNode "segment" "grasp") "Kitchen" (by decide +kernel) with ⟨prereg, built, task⟩
  refine ⟨prereg, _, built, rfl, by decide +kernel, ?_⟩
  rw [← task]
  rfl

theorem governs_own_node_stack : ∃ (prereg : Rsi.Preregistration) (record : Json),
    kitchenPrereg (kitchenNode "manipulate" "stack") = .ok prereg ∧ ((record.get? "task" = some (.str "stack") ∧ ∀ other ∈ [kitchenNode "segment" "grasp"],
      subGoal kitchenLibrary kitchenMission.binding other ≠
        subGoal kitchenLibrary kitchenMission.binding (kitchenNode "manipulate" "stack") →
      ∀ theirs, governedTask kitchenMission other = .ok (some theirs) →
        record.get? "task" ≠ some (.str theirs)) ↔
    ((kitchenNode "manipulate" "stack").kind.eq (.str "segment") = true →
      subGoal kitchenLibrary kitchenMission.binding (kitchenNode "manipulate" "stack") =
        (kitchenMission.binding.episode.getD Kwargs.empty).task.getD "kitchen")) := by
  rcases @exists_prereg (kitchenNode "manipulate" "stack") "stack" (by decide +kernel) with ⟨prereg, built, _⟩
  exact ⟨prereg, _, built, governs_own_node_iff kitchenMission "kitchen" [kitchenNode "manipulate" "stack"]
    [kitchenNode "segment" "grasp"] (kitchenNode "manipulate" "stack") (1, 1) (2, 2) "regrasp" prereg
    kitchenResult .null none kitchenGeneration _ "stack" built rfl (by decide +kernel)⟩

end

end Scripts
end PhysicalHarness
