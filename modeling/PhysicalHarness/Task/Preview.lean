import PhysicalHarness.Task.Totality
import PhysicalHarness.Task.Workload

namespace PhysicalHarness
namespace Task

open Python Protocol Fallible

/-!
# The preview of a plan

`plan_skill_task` asks a planner for a plan and reports whether it could be executed;
`verify_plan_record` judges a plan that comes back.  Both run `validate_plan`, which looks
at a plan without the contracts of the binding.  The runtime runs the same function and then
the protocol gate on the binding's records, so a plan that was reported executable is
dispatched exactly when the contracts make it legal.
-/

/-- What a task binding declares for its plans; an absent part is empty. -/
structure Binding where
  catalogue : Catalogue
  oracles : List String
  planningContext : List (String × Json) := []
  records : List SkillRecordV0 := []
  /-- the `task_template` of a skill's segment, filled with the arguments of the node -/
  stage : Json → List (String × Json) → Except PyError (Option String) := fun _ _ => .ok none

inductive Channel where
  | graph
  | task (name : String) (binding : Binding)

def Channel.isTask : Channel → Bool
  | graph => false
  | task _ _ => true

structure Leaf where
  node : String
  skill : Json
  stage : Option String
  bound : Bool

/-- `Leaf.label`. -/
def Leaf.label [Host] (leaf : Leaf) : Json :=
  match leaf.stage with
  | some stage => if stage = "" then leaf.skill else .str (pyStr leaf.skill ++ "." ++ stage)
  | none => leaf.skill

structure Routing where
  channel : Channel
  score : Nat
  pinned : Bool

/-- What is installed: the task channels by name, and the skill graph with what its retrieval
offers for an instruction. -/
structure Desk where
  bindings : List (String × Binding)
  graphId : String
  graphVocabulary : String → Catalogue × List String
  expandGraph : Json → Except PyError (List Leaf)
  route : String → Except PyError Routing

inductive Status where
  | executable
  | planningOnly
  | rejected
  | noMatch
  deriving DecidableEq

section

variable [Host]

/-! ## The two calls -/

/-- `MAX_INSTRUCTION_CHARS`. -/
def maxInstructionChars : Nat := 4000

def instructionText : String :=
  "instruction must be a non-empty string of at most " ++ toString maxInstructionChars ++
    " characters"

/-- `_bounded_instruction`. -/
def boundedInstruction : Json → Option String
  | .str text =>
      if (strip text.toList).isEmpty || decide (maxInstructionChars < text.length) then none
      else some (String.ofList (strip text.toList))
  | _ => none

/-- `expand_plan` on a task channel: every node is a skill of the binding. -/
def taskLeaves (binding : Binding) (plan : Json) : Except PyError (List Leaf) :=
  (planNodes plan).mapM (fun node => do
    hashed node.skill
    let stage ← binding.stage node.skill node.args
    return { node := node.id, skill := node.skill, stage, bound := true })

def expandPlan (desk : Desk) (plan : Json) : Channel → Except PyError (List Leaf)
  | .graph => desk.expandGraph plan
  | .task _ binding => taskLeaves binding plan

/-- What `plan_skill_task` answers. -/
structure Report where
  channel : Channel
  status : Status
  plan : Option Json := none
  message : String := ""
  missing : List Leaf := []
  unboundOracles : List String := []

/-- `plan_skill_task`; the planner's answer is read as JSON. -/
def planSkillTask (desk : Desk) (planner : Channel → String → Int → Except PyError Json)
    (instruction : Json) (seed : Int) : Except PyError Report := do
  let some text := boundedInstruction instruction | throw (.valueError instructionText)
  let routing ← desk.route text
  let channel := routing.channel
  if routing.score = 0 ∧ routing.pinned = false then
    return { channel, status := .noMatch,
             message := "no installed skill vocabulary matches the instruction; " ++
               "nothing was sent to the model" }
  let plan ← planner channel text seed
  let (catalogue, oracles, context) := match channel with
    | .graph => ((desk.graphVocabulary text).1, (desk.graphVocabulary text).2, [])
    | .task _ binding => (binding.catalogue, binding.oracles, binding.planningContext)
  let unboundOracles := if channel.isTask then [] else oracles
  let (ok, message) ← validatePlan plan catalogue oracles [] context
  if !ok then
    return { channel, status := .rejected, plan := some plan, message, unboundOracles }
  let leaves ← expandPlan desk plan channel
  let missing := leaves.filter (fun leaf => !leaf.bound)
  let executable := channel.isTask && missing.isEmpty && unboundOracles.isEmpty
  return { channel, status := if executable then .executable else .planningOnly,
           plan := some plan, message, missing, unboundOracles }

/-- What `verify_plan_record` answers. -/
inductive Verified where
  | ok (task : String)
  | refused (status : Status) (error : String)
  deriving DecidableEq

def verifyPlanRecord (desk : Desk) (record : Json) : Except PyError Verified := do
  if !record.isMapping then return .refused .rejected "plan record must be an object"
  if (boundedInstruction (record.getD "instruction" .null)).isNone then
    return .refused .rejected instructionText
  let plan := record.getD "plan" .null
  if !plan.isMapping then return .refused .rejected "plan record has no plan object"
  let channel := record.getD "channel" .null
  if channel.eq (.str desk.graphId) then
    return .refused .planningOnly ("channel " ++ Host.repr (.str desk.graphId) ++
      " is planning-only: RoboCasa annotation skills have no policy/driver binding in this " ++
      "repository")
  hashed channel
  match channel.str?.bind (fun name => (Assoc.get? desk.bindings name).map (name, ·)) with
  | none => return .refused .rejected ("unknown or non-executable channel " ++
      Host.repr channel ++ "; executable channels: " ++
      reprNames (sorted (Assoc.keys desk.bindings)))
  | some (name, binding) =>
      let (ok, message) ←
        validatePlan plan binding.catalogue binding.oracles [] binding.planningContext
      if !ok then return .refused .rejected ("validate_plan: " ++ message)
      let leaves ← taskLeaves binding plan
      let missing := (leaves.filter (fun leaf => !leaf.bound)).map Leaf.label
      if missing ≠ [] then
        return .refused .planningOnly ("unbound leaves: " ++ Host.repr (.arr missing))
      return .ok name

/-- What a run adds to the binding: sigma0, the seed and the budgets. -/
structure Call where
  facts : List PredRef
  objects : List String
  graph : Json := .null
  seed : Int
  maxReplans : Int
  maxActuations : Int
  segmentRetries : Int := 0

/-- The brief that `task_brief` makes of a binding, as `run` holds it. -/
def runConfig (binding : Binding) (call : Call) : Config where
  catalogue := binding.catalogue
  oracles := binding.oracles
  requirements := binding.planningContext
  records := binding.records
  facts := call.facts
  objects := call.objects
  graph := call.graph
  seed := call.seed
  maxReplans := call.maxReplans
  maxActuations := call.maxActuations
  segmentRetries := call.segmentRetries

/-- The contracts make the plan legal: `Legal` of its graph over the binding's records,
with a record for each recovery strategy, and over sigma0. -/
def PlanLegal (binding : Binding) (call : Call) (plan : Json) : Prop :=
  ∃ graph, seededGraph plan call.seed = .ok graph ∧
    Legal graph (withRecoveries (recordTable (runConfig binding call)) (nodesOf plan))
      call.facts call.objects

/-- The plan was reported executable for the binding by either call. -/
def Previewed (desk : Desk) (binding : Binding) (plan : Json) : Prop :=
  (∃ planner instruction seed report name,
    planSkillTask desk planner instruction seed = .ok report ∧ report.status = .executable ∧
      report.channel = .task name binding ∧ report.plan = some plan) ∨
  ∃ record name, verifyPlanRecord desk record = .ok (.ok name) ∧
    Assoc.get? desk.bindings name = some binding ∧ record.getD "plan" .null = plan

section

variable {desk : Desk} {binding : Binding} {plan : Json}

theorem accepted_of_planSkillTask {planner : Channel → String → Int → Except PyError Json}
    {instruction : Json} {seed : Int} {report : Report}
    (done : planSkillTask desk planner instruction seed = .ok report)
    (executable : report.status = .executable) :
    ∃ name binding plan, report.channel = .task name binding ∧ report.plan = some plan ∧
      validatePlan plan binding.catalogue binding.oracles [] binding.planningContext =
        .ok (true, report.message) := by
  unfold planSkillTask at done
  cases bounded : boundedInstruction instruction with
  | none =>
      rw [bounded] at done
      cases done
  | some text =>
      simp only [bounded] at done
      rcases of_bind done with ⟨routing, _, rest⟩
      by_cases unmatched : routing.score = 0 ∧ routing.pinned = false
      · rw [if_pos unmatched] at rest
        cases rest
        cases executable
      · rw [if_neg unmatched] at rest
        rcases of_bind rest with ⟨reply, _, rest⟩
        rcases of_bind rest with ⟨judged, gate, rest⟩
        cases passed : judged.1 with
        | false =>
            simp only [passed, Bool.not_false, if_true] at rest
            cases rest
            cases executable
        | true =>
            simp only [passed, Bool.not_true, Bool.false_eq_true, if_false] at rest
            rcases of_bind rest with ⟨leaves, _, rest⟩
            cases chosen : routing.channel with
            | graph =>
                rw [chosen] at rest
                cases rest
                cases executable
            | task name binding =>
                rw [chosen] at rest gate
                cases rest
                exact ⟨name, binding, reply, rfl, rfl, passed ▸ gate⟩

theorem accepted_of_verifyPlanRecord {record : Json} {name : String}
    (done : verifyPlanRecord desk record = .ok (.ok name))
    (found : Assoc.get? desk.bindings name = some binding) :
    ∃ message, validatePlan (record.getD "plan" .null) binding.catalogue binding.oracles []
      binding.planningContext = .ok (true, message) := by
  unfold verifyPlanRecord at done
  dsimp only at done
  split at done
  · cases done
  split at done
  · cases done
  split at done
  · cases done
  split at done
  · cases done
  rcases of_bind done with ⟨_, _, rest⟩
  cases chosen : (record.getD "channel" .null).str?.bind
      (fun name => (Assoc.get? desk.bindings name).map (name, ·)) with
  | none =>
      rw [chosen] at rest
      cases rest
  | some pair =>
      simp only [chosen] at rest
      rcases of_bind rest with ⟨judged, gate, rest⟩
      cases passed : judged.1 with
      | false =>
          simp only [passed, Bool.not_false, if_true] at rest
          cases rest
      | true =>
          simp only [passed, Bool.not_true, Bool.false_eq_true, if_false] at rest
          rcases of_bind rest with ⟨leaves, _, rest⟩
          split at rest
          · cases rest
          · cases rest
            -- the channel of the record is the binding's own name
            rcases Option.bind_eq_some_iff.mp chosen with ⟨name, _, held⟩
            rcases Option.map_eq_some_iff.mp held with ⟨other, listed, same⟩
            subst same
            rw [listed] at found
            cases found
            exact ⟨judged.2, passed ▸ gate⟩

theorem Previewed.accepted (previewed : Previewed desk binding plan) :
    Accepted plan binding.catalogue binding.oracles [] binding.planningContext := by
  rcases previewed with ⟨planner, instruction, seed, report, name, done, executable, channel, same⟩ |
    ⟨record, name, done, found, same⟩
  · rcases accepted_of_planSkillTask done executable with
      ⟨_, held, reply, heldChannel, heldPlan, gate⟩
    rw [channel] at heldChannel
    rw [same] at heldPlan
    cases heldChannel
    cases heldPlan
    exact (validatePlan_accepts_iff.mp gate).1
  · subst same
    rcases accepted_of_verifyPlanRecord done found with ⟨message, gate⟩
    exact (validatePlan_accepts_iff.mp gate).1

end

theorem Accepted.seededGraph {plan : Json} {catalogue : Catalogue} {oracles : List String}
    {done : List Json} {requirements : List (String × Json)}
    (accepted : Accepted plan catalogue oracles done requirements) (seed : Int) :
    ∃ graph, Task.seededGraph plan seed = .ok graph ∧ InOrder graph.nodes := by
  have typed := accepted.typed
  rcases Gate.lift_bind_eq_ok.mp typed with ⟨judged, answered, _⟩
  rcases (returns_judgeTyped_iff accepted.reads accepted.nodes).mp ⟨judged, answered⟩ with
    ⟨conversions, _⟩
  have nodes : nodesOf (plan.setField "seed" (.int seed)) = nodesOf plan := by
    simp [nodesOf, Json.getD]
  have built : Returns (planToGraph (plan.setField "seed" (.int seed))) := by
    refine (returns_planToGraph_iff (accepted.reads.seeded seed)).mpr ⟨?_, ?_⟩
    · rw [nodes]
      exact conversions.onFail
    · exact ⟨seed, by simp [Json.getD, pyInt]⟩
  rcases built with ⟨graph, done⟩
  exact ⟨graph, done, inOrder_of_lifts (lifts_of_seeded accepted.reads done) accepted.inOrder⟩

/-- The first attempt of a run has nothing to compare the plan with, so its protocol gate is
the judgement of the plan's graph. -/
theorem graphProblems_first {config : Config} {plan : Json} {graph : ExecutionGraph}
    (built : Task.seededGraph plan config.seed = .ok graph) :
    graphProblems config plan none [] = .ok [] ↔
      ∃ ok, validateGraph graph (withRecoveries (recordTable config) (nodesOf plan))
        config.facts config.objects = .ok (ok, []) := by
  rw [graphProblems, built]
  simp only [bind_ok, pure_eq_ok, List.nil_append, bind_eq_ok]
  constructor
  · intro judged
    rcases judged with ⟨result, judged, empty⟩
    exact ⟨result.1, by rw [judged, ← Except.ok.inj empty]⟩
  · intro judged
    rcases judged with ⟨ok, judged⟩
    exact ⟨(ok, []), judged, rfl⟩

theorem judge_first {config : Config} {plan : Json} :
    judge config {} false plan = .ok .accept ↔
      (∃ message, validatePlan plan config.catalogue config.oracles [] config.requirements =
        .ok (true, message)) ∧ graphProblems config plan none [] = .ok [] := by
  unfold judge
  constructor
  · intro accepts
    rcases of_bind accepts with ⟨judged, gate, rest⟩
    cases passed : judged.1 with
    | false =>
        simp only [passed, Bool.not_false, if_true] at rest
        cases rest
    | true =>
        simp only [passed, Bool.not_true, Bool.false_eq_true, if_false] at rest
        rcases of_bind rest with ⟨problems, found, rest⟩
        refine ⟨⟨judged.2, passed ▸ gate⟩, ?_⟩
        by_cases clean : problems = []
        · rw [← clean]
          exact found
        · rw [if_pos clean] at rest
          cases rest
  · intro both
    rcases both with ⟨⟨message, gate⟩, found⟩
    refine bind_eq_ok.mpr ⟨(true, message), gate, ?_⟩
    exact bind_eq_ok.mpr ⟨[], found, rfl⟩

/-- A plan that was reported executable passes the gate of its first attempt exactly when the
binding's contracts make it legal. -/
theorem previewed_accepted_iff (desk : Desk) (binding : Binding) (plan : Json) (call : Call)
    (previewed : Previewed desk binding plan) :
    judge (runConfig binding call) {} false plan = .ok .accept ↔ PlanLegal binding call plan := by
  have accepted := previewed.accepted
  rcases accepted.seededGraph call.seed with ⟨graph, built, inOrder⟩
  have validated : ∃ message, validatePlan plan (runConfig binding call).catalogue
      (runConfig binding call).oracles [] (runConfig binding call).requirements =
        .ok (true, message) :=
    ⟨"", validatePlan_accepts_iff.mpr ⟨accepted, rfl⟩⟩
  have seeded : Task.seededGraph plan (runConfig binding call).seed = .ok graph := built
  rw [judge_first, and_iff_right validated, graphProblems_first seeded,
    validateGraph_accepts_iff inOrder, PlanLegal]
  constructor
  · intro legal
    exact ⟨graph, built, legal⟩
  · intro legal
    rcases legal with ⟨other, same, legal⟩
    rw [built] at same
    cases same
    exact legal

end

section Example

local instance previewHost : Host := asciiHost

/-- `pick` needs a clear object and leaves it held. -/
private def cubePick : SkillRecordV0 where
  id := .str "pick"
  name := .str "pick"
  args := [("object", "entity")]
  requires := ["clear(object)"]
  ensures := ["held(object)"]

private def cubeTask : Binding where
  catalogue := [("pick", [("object", .str)])]
  oracles := ["held"]
  records := [cubePick]

private def cubePlan : Json :=
  .obj [("goal", .str "pick the cube"),
    ("nodes", .arr [.obj [("id", .str "a"), ("skill", .str "pick"),
      ("args", .obj [("object", .str "cube")]), ("after", .arr [])]]),
    ("verify", .arr [.obj [("after", .str "a"), ("predicate", .str "held")]])]

private def cubeDesk : Desk where
  bindings := [("cube", cubeTask)]
  graphId := "graph"
  graphVocabulary := fun _ => ([], [])
  expandGraph := fun _ => .ok []
  route := fun _ => .ok ⟨.task "cube" cubeTask, 1, false⟩

/-- The scene holds the cube; whether it is clear is what the facts say. -/
private def cubeCall (facts : List String) : Call where
  facts := facts.map refOfStr
  objects := ["cube"]
  seed := 7
  maxReplans := 3
  maxActuations := 3

private def cubeSubmission : Json :=
  .obj [("channel", .str "cube"), ("instruction", .str "pick the cube"), ("plan", cubePlan)]

private theorem cubePlan_previewed : Previewed cubeDesk cubeTask cubePlan := by
  refine Or.inr ⟨cubeSubmission, "cube", ?_, rfl, rfl⟩
  decide +kernel

/-- Nothing says that the cube is clear: both calls report the plan executable and the first
attempt refuses it. -/
theorem previewed_plan_refused :
    (planSkillTask cubeDesk (fun _ _ _ => .ok cubePlan) (.str "pick the cube") 7).map
        Report.status = .ok .executable ∧
      verifyPlanRecord cubeDesk cubeSubmission = .ok (.ok "cube") ∧
      judge (runConfig cubeTask (cubeCall [])) {} false cubePlan ≠ .ok .accept := by
  refine ⟨by decide +kernel, by decide +kernel, ?_⟩
  intro accepts
  have clean := (judge_first.mp accepts).2
  revert clean
  decide +kernel

/-- With the fact the plan is legal and the first attempt accepts it. -/
theorem previewed_accepted_iff_cube :
    judge (runConfig cubeTask (cubeCall ["clear(cube)"])) {} false cubePlan = .ok .accept ↔
      PlanLegal cubeTask (cubeCall ["clear(cube)"]) cubePlan :=
  previewed_accepted_iff cubeDesk cubeTask cubePlan _ cubePlan_previewed

end Example

end Task
end PhysicalHarness
