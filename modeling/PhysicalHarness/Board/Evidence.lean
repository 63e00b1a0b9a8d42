import Mathlib.Data.List.Lex
import Mathlib.Data.String.Basic
import PhysicalHarness.Python.Float
import PhysicalHarness.Task.Notes

namespace PhysicalHarness
namespace Board

open Python PhysicalHarness.Task

/-!
# Evidence read back from a chain

Three readers fold the rows of a session: the trajectory samples, the evidence for plans
and the evidence for skills.  Each takes apart the payloads that the runs sealed, and the
proposals among them are whatever a planner returned.
-/

/-- `d.get(name)`. -/
def field (data : Json) (name : String) : Except PyError Json :=
  match data with
  | .obj fields => .ok ((Assoc.get? fields name).getD .null)
  | _ => .error .attributeError

/-- `list(value or [])`. -/
def listOf (value : Json) : Except PyError (List Json) := if value.truthy then value.iter else .ok []

/-- `value or default`. -/
def orDefault (value default : Json) : Json := if value.truthy then value else default

/-- `value.values()`. -/
def valuesOf : Json → Except PyError (List Json)
  | .obj fields => .ok (fields.map Prod.snd)
  | _ => .error .attributeError

def isTrue : Json → Bool
  | .bool value => value
  | _ => false

/-- `all(v is True for v in d["results"].values())`. -/
def allTrue (data : Json) : Except PyError Bool := do
  let results ← data.item "results"
  let values ← valuesOf results
  return values.all isTrue

/-- A `Trajectory`: what was given, what was proposed, and what came of it. -/
structure Sample where
  x : Json
  y : Json
  legal : Bool
  verify : List (Json × Json)
  L : Nat
  success : Json
  replans : Json
  seed : Json
  block : Json
  role : Json
  roleSource : String

/-- The samples of the episode that is open, and those that are closed. -/
structure Episodes where
  episode : List Sample
  out : List Sample

def modifyLast {α : Type} (change : α → α) : List α → List α
  | [] => []
  | [last] => [change last]
  | first :: second :: rest => first :: modifyLast change (second :: rest)

/-- The sample of a `task.plan` row. -/
def planSample (roleOfSeed : Json → Json) (roleSource : String) (data : Json) : Except PyError Sample := do
  let seed ← field data "seed"
  let mission ← field data "mission"
  let sigma0 ← field data "sigma0"
  let skills ← listOf (← field data "skills")
  let visible ← listOf (← field data "visible")
  let showEvidence ← field data "show_evidence"
  let done ← listOf (← field data "done")
  let fault ← field data "fault"
  let graphId ← field data "graph_id"
  let rationale ← field data "rationale"
  let legal ← field data "legal"
  let block ← field data "block"
  return {
    x := .obj [("mission", mission), ("sigma0", sigma0), ("skills", .arr skills),
      ("visible", .arr visible), ("show_evidence", .bool showEvidence.truthy), ("done", .arr done),
      ("fault", fault)]
    y := .obj [("graph", graphId), ("rationale", orDefault rationale (.str ""))]
    legal := legal.truthy
    verify := []
    L := done.length
    success := .null
    replans := .null
    seed
    block
    role := if seed.isNull then .null else roleOfSeed seed
    roleSource }

/-- A `task.verify` row folded into a sample. -/
def Sample.verified (node results : Json) (passed : Bool) (sample : Sample) : Sample :=
  { sample with
    verify := assign sample.verify (node, results)
    L := if passed then sample.L + 1 else sample.L }

/-- A `task.plan_complete` row stamped on a sample. -/
def Sample.close (success replans : Json) (sample : Sample) : Sample :=
  { sample with success := .bool success.truthy, replans }

def trajectoryStep (roleOfSeed : Json → Json) (roleSource : String) (state : Episodes)
    (content : Content) : Except PyError Episodes :=
  if content.1 = "task.plan" then do
    let sample ← planSample roleOfSeed roleSource content.2
    return { state with episode := state.episode ++ [sample] }
  else if content.1 = "task.verify" ∧ state.episode ≠ [] then do
    let results ← content.2.item "results"
    let node ← content.2.item "node"
    hashed node
    let passed ← allTrue content.2
    return { state with episode := modifyLast (Sample.verified node results passed) state.episode }
  else if content.1 = "task.plan_complete" ∧ state.episode ≠ [] then do
    let success ← field content.2 "success"
    let replans ← field content.2 "replans"
    return ⟨[], state.out ++ state.episode.map (Sample.close success replans)⟩
  else .ok state

/-- `trajectories`, with the roles of the seeds. -/
def trajectories (roleOfSeed : Json → Json) (roleSource : String) (rows : List Row) :
    Except PyError (List Sample) := do
  let state ← rows.foldlM (fun state row => trajectoryStep roleOfSeed roleSource state row.content) ⟨[], []⟩
  return state.out ++ state.episode

/-! ## Plans -/

/-- `(mission, graph_sha, embodiment, arm)`. -/
structure PlanKey where
  task : Json
  graphSha : Json
  embodiment : Json
  arm : Json

def PlanKey.items (key : PlanKey) : List Json := [key.task, key.graphSha, key.embodiment, key.arm]

def PlanKey.same (key other : PlanKey) : Bool :=
  key.task.eq other.task && key.graphSha.eq other.graphSha && key.embodiment.eq other.embodiment &&
    key.arm.eq other.arm

structure PlanEntry where
  key : PlanKey
  graph : Json
  facts : List Json
  objects : List Json
  seeds : List Json
  blocks : List Json
  seqs : List Nat
  L : List Nat
  n : Nat
  k : Nat

/-- The entries by key, and the position of the one whose episode is open. -/
structure PlanEntries where
  entries : List PlanEntry
  current : Option Nat

def hashedAll (items : List Json) : Except PyError Unit :=
  if items.all Json.hashable then .ok () else .error .typeError

/-- One more episode of an entry. -/
def PlanEntry.enter (seed block : Json) (seq : Nat) (entry : PlanEntry) : PlanEntry :=
  { entry with
    seeds := entry.seeds ++ [seed]
    blocks := if block.isNull || entry.blocks.any (fun known => known.eq block) then entry.blocks
      else entry.blocks ++ [block]
    seqs := entry.seqs ++ [seq]
    L := entry.L ++ [0]
    n := entry.n + 1 }

def planGraph (graph : Json) : Except PyError Json :=
  if graph.truthy then
    match graph with
    | .obj fields => .ok (.obj (fields.filter (fun entry =>
        decide (entry.1 ≠ "planner" ∧ entry.1 ≠ "rationale"))))
    | _ => .error .attributeError
  else .ok (.obj [])

def planIndexPlan (state : PlanEntries) (row : Row) : Except PyError PlanEntries := do
  let legal ← field row.data "legal"
  let replan ← field row.data "replan"
  let sha ← field row.data "graph_sha"
  if legal.truthy && replan.eq (.int 0) && sha.truthy then
    let key : PlanKey := ⟨← field row.data "mission", sha, ← field row.data "embodiment",
      ← field row.data "arm"⟩
    let graph ← planGraph (← field row.data "graph")
    let facts ← listOf (← field row.data "facts")
    let objects ← listOf (← field row.data "objects")
    hashedAll key.items
    let seed ← field row.data "seed"
    let block ← field row.data "block"
    match state.entries.findIdx? (fun entry => entry.key.same key) with
    | some position =>
        return ⟨state.entries.modify position (PlanEntry.enter seed block row.seq), some position⟩
    | none =>
        let entry : PlanEntry := ⟨key, graph, facts, objects, [], [], [], [], 0, 0⟩
        return ⟨state.entries ++ [entry.enter seed block row.seq], some state.entries.length⟩
  else return { state with current := none }

def planIndexStep (state : PlanEntries) (row : Row) : Except PyError PlanEntries :=
  if row.kind = "task.plan" then planIndexPlan state row
  else
    match state.current with
    | none => .ok state
    | some position =>
        if row.kind = "task.verify" then do
          let passed ← allTrue row.data
          return { state with entries := state.entries.modify position (fun entry =>
            { entry with L := modifyLast (fun nodes => if passed then nodes + 1 else nodes) entry.L }) }
        else if row.kind = "task.plan_complete" then do
          let success ← field row.data "success"
          return ⟨state.entries.modify position (fun entry =>
            { entry with k := entry.k + if success.truthy then 1 else 0 }), none⟩
        else .ok state

variable [Host]

def sortedBy {α : Type} (key : α → List Json) (entries : List α) : List α :=
  entries.insertionSort (fun left right => (key left).map pyStr ≤ (key right).map pyStr)

/-- `round(sum(L) / len(L), 4)`. -/
def meanLength (lengths : List Nat) : Double :=
  Double.nearest (Rounding.toUnit (1 / 10 ^ 4)
    (Rounding.binary 52 (-1074) ((lengths.sum : ℚ) / lengths.length)))

/-- `plan_index`: the entries in their order, each with its mean length. -/
def planIndex (rows : List Row) : Except PyError (List (PlanEntry × Double)) := do
  let state ← rows.foldlM planIndexStep ⟨[], none⟩
  return (sortedBy (fun entry => entry.key.items) state.entries).map (fun entry => (entry, meanLength entry.L))

/-! ## Skills -/

structure SkillEntry where
  skill : Json
  embodiment : Json
  executor : Json
  n : Nat
  k : Nat

def SkillEntry.items (entry : SkillEntry) : List Json := [entry.skill, entry.embodiment, entry.executor]

/-- The skills by node of the graph that is open, its embodiment, and the counts so far. -/
structure SkillCounts where
  skillOf : List (Json × Json)
  embodiment : Json
  entries : List SkillEntry

def skillOfNode (table : List (Json × Json)) (node : Json) : Except PyError (List (Json × Json)) := do
  let id ← field node "id"
  let skill ← field node "skill"
  hashed id
  return assign table (id, skill)

/-- `(d.get("graph") or {}).get("nodes", [])`. -/
def graphNodes (graph : Json) : Except PyError Json :=
  if graph.truthy then
    match graph with
    | .obj fields => .ok ((Assoc.get? fields "nodes").getD (.arr []))
    | _ => .error .attributeError
  else .ok (.arr [])

def skillTable (graph : Json) : Except PyError (List (Json × Json)) := do
  let nodes ← graphNodes graph
  let items ← nodes.iter
  items.foldlM skillOfNode []

def countSkill (key : SkillEntry) (passed : Bool) : List SkillEntry → List SkillEntry
  | [] => [{ key with n := 1, k := if passed then 1 else 0 }]
  | entry :: rest =>
      if entry.skill.eq key.skill && entry.embodiment.eq key.embodiment && entry.executor.eq key.executor then
        { entry with n := entry.n + 1, k := entry.k + if passed then 1 else 0 } :: rest
      else entry :: countSkill key passed rest

def skillStep (state : SkillCounts) (content : Content) : Except PyError SkillCounts :=
  if content.1 = "task.plan" then do
    let embodiment ← field content.2 "embodiment"
    let table ← skillTable (← field content.2 "graph")
    return { state with skillOf := table, embodiment }
  else if content.1 = "task.verify" then do
    let node ← field content.2 "node"
    hashed node
    match state.skillOf.find? (fun pair => pair.1.eq node) with
    | none => return state
    | some pair =>
        let executor ← field content.2 "executor"
        let key : SkillEntry := ⟨pair.2, state.embodiment, orDefault executor (.str "scripted"), 0, 0⟩
        hashedAll key.items
        let passed ← allTrue content.2
        return { state with entries := countSkill key passed state.entries }
  else .ok state

/-- `skill_evidence`. -/
def skillEvidence (rows : List Row) : Except PyError (List SkillEntry) := do
  let state ← rows.foldlM (fun state row => skillStep state row.content) ⟨[], .null, []⟩
  return sortedBy SkillEntry.items state.entries

omit [Host] in
theorem listOf_arr (items : List Json) : listOf (.arr items) = .ok items := by
  cases items <;> rfl

def sampleOf (roleOfSeed : Json → Json) (roleSource : String) (note : PlanNote) : Sample where
  x := .obj [("mission", nullable note.mission), ("sigma0", note.sigma0),
    ("skills", nameList note.skills), ("visible", nameList note.visible),
    ("show_evidence", .bool note.showEvidence), ("done", nameList note.done), ("fault", note.fault)]
  y := .obj [("graph", if note.plan.isMapping then .str (Host.sha note.plan) else .null),
    ("rationale", orDefault (note.plan.getD "rationale" (.str "")) (.str ""))]
  legal := note.legal
  verify := []
  L := note.done.length
  success := .null
  replans := .null
  seed := .int note.seed
  block := note.block
  role := roleOfSeed (.int note.seed)
  roleSource

theorem planSample_content (roleOfSeed : Json → Json) (roleSource : String) (note : PlanNote) :
    planSample roleOfSeed roleSource note.content.2 = .ok (sampleOf roleOfSeed roleSource note) := by
  have skills : listOf (nameList note.skills) = .ok (note.skills.map .str) := listOf_arr _
  have visible : listOf (nameList note.visible) = .ok (note.visible.map .str) := listOf_arr _
  have done : listOf (nameList note.done) = .ok (note.done.map .str) := listOf_arr _
  rw [planSample]
  change (listOf (nameList note.skills)).bind _ = _
  rw [skills]
  change (listOf (nameList note.visible)).bind _ = _
  rw [visible]
  change (listOf (nameList note.done)).bind _ = _
  rw [done]
  change Except.ok _ = Except.ok _
  rw [sampleOf, List.length_map]
  rfl

omit [Host] in
theorem isTrue_tri (result : Option Bool) : isTrue (tri result) = decide (result = some true) := by
  cases result with
  | none => rfl
  | some value => cases value <;> rfl

omit [Host] in
theorem allTrue_content (note : VerifyNote) :
    allTrue note.content.2 = .ok (note.results.all (fun result => decide (result.2 = some true))) := by
  rw [allTrue]
  change Except.ok _ = Except.ok _
  rw [List.map_map, List.all_map]
  refine congrArg Except.ok (congrArg (List.all note.results) (funext ?_))
  intro result
  exact isTrue_tri result.2

omit [Host] in
theorem foldlM_filter {σ ε : Type} {step : σ → Content → Except ε σ}
    (skips : ∀ state content, content.1 ∉ taskKinds → step state content = .ok state)
    (contents : List Content) (state : σ) :
    (contents.filter (fun content => decide (content.1 ∈ taskKinds))).foldlM step state =
      contents.foldlM step state := by
  induction contents generalizing state with
  | nil => rfl
  | cons content rest ih =>
      by_cases kept : content.1 ∈ taskKinds
      · rw [List.filter_cons, if_pos (decide_eq_true kept), List.foldlM_cons, List.foldlM_cons]
        exact congrArg (Except.bind _) (funext (fun next => ih next))
      · rw [List.filter_cons, decide_eq_false kept, if_neg Bool.false_ne_true, ih, List.foldlM_cons,
          skips state content kept]
        rfl

theorem foldlM_of_writes {σ ε : Type} {step : σ → Content → Except ε σ}
    (skips : ∀ state content, content.1 ∉ taskKinds → step state content = .ok state)
    {runs : List Run} {rows : List Row} (written : Writes runs rows) (state : σ) :
    rows.foldlM (fun state row => step state row.content) state =
      (runs.flatMap Run.contents).foldlM step state := by
  rw [← written, foldlM_filter skips, List.foldlM_map]

end Board
end PhysicalHarness
