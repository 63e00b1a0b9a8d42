import PhysicalHarness.SkillGraph.Expansion
import PhysicalHarness.Task.Reading

namespace PhysicalHarness
namespace Task

open Python
open PhysicalHarness.SkillGraph (UnifiedSkillGraph GraphError)

/-!
# The leaf chain of a plan

`expand_plan` walks through the nodes of a plan and lists their leaves.  A leaf follows the leaf
before it in its node; the first leaf of a node follows the last leaves of the nodes that the node
names in `after`.  What is followed is written down as a label, which is made of the names of a
skill and of a stage.
-/

/-- `str.format(**kwargs)`. -/
class StrFormat where
  format : String → List (String × Json) → Except PyError String

inductive ExpandError where
  | graph (error : GraphError)
  | raised (error : PyError)

/-- A `Leaf` of a plan; the skill of a node on a task channel is what the plan says. -/
structure PlanLeaf where
  skill : Json
  stage : Option String
  canonical : Option String
  via : String
  taxonomyPath : List String

structure TaskChannel where
  task : String
  policy : Json
  embodiment : Option String
  /-- the `task_template` of each skill that has a segment -/
  segmentSpecs : List (String × Option String)

inductive PlanChannel where
  | graph
  | task (channel : TaskChannel)

/-- The skill graph, the names that the library has for it, and the tasks that bind a skill. -/
structure Ontology where
  graph : UnifiedSkillGraph
  libraryToCanonical : List (String × String)
  bound : List (String × List String)

structure LeafRow extends PlanLeaf where
  node : String
  args : List (String × Json)
  bound : Bool
  binding : Option Json
  reason : Option String
  after : List Json

structure ExpandedNode where
  id : String
  skill : Json
  kind : Json
  args : List (String × Json)
  after : List String
  taxonomyPath : List String
  stages : List SkillGraph.Stage
  decomposition : List (String × List String × Bool)
  leaves : List Json
  bound : Bool

/-- What `expand_plan` returns; the terminal marker is always `done`. -/
structure ExpandedPlan where
  nodes : List ExpandedNode
  chain : List LeafRow

section

variable [Host]

/-- `Leaf.label`. -/
def PlanLeaf.label (leaf : PlanLeaf) : Json :=
  match leaf.stage with
  | some stage => if stage = "" then leaf.skill else .str (pyStr leaf.skill ++ "." ++ stage)
  | none => leaf.skill

def planLeaf (leaf : SkillGraph.Leaf) : PlanLeaf :=
  ⟨.str leaf.skill, leaf.stage, leaf.canonical, leaf.via, leaf.taxonomyPath⟩

def lookingUp {α : Type} (run : Except GraphError α) : Except ExpandError α :=
  run.mapError .graph

def skillName (skill : Json) : Except ExpandError String :=
  match skill.str? with
  | some name => .ok name
  | none => .error (.graph (.skillGraphError ("unknown skill graph node " ++ Host.repr skill)))

structure NodeLeaves where
  leaves : List PlanLeaf
  info : Option Json
  taxonomyPath : List String
  stages : List SkillGraph.Stage
  decomposition : List (String × List String × Bool)

def graphLeaves (ontology : Ontology) (expand : Bool) (skill : Json) :
    Except ExpandError NodeLeaves := do
  let name ← skillName skill
  let path ← lookingUp (ontology.graph.taxonomyPath name)
  let stages ← lookingUp (ontology.graph.stages name)
  let parts ← lookingUp (ontology.graph.decomposition name)
  let decomposition ← lookingUp (parts.mapM (fun part => do
    let partPath ← ontology.graph.taxonomyPath part
    return (part, partPath, decide (part ∈ Assoc.keys ontology.bound))))
  let leaves ←
    if expand then (lookingUp (ontology.graph.expand name)).map (List.map planLeaf)
    else do
      let canonical ← lookingUp (ontology.graph.canonicalParent name)
      pure [⟨skill, none, canonical, "NODE", path⟩]
  return ⟨leaves, none, path, stages, decomposition⟩

/-- The stage of a segment: its template, filled where the arguments are there. -/
def segmentStage [StrFormat] (template : Option String) (args : List (String × Json)) :
    Except ExpandError (Option String) :=
  match template with
  | none => .ok none
  | some template =>
      if template = "" then .ok none
      else
        match StrFormat.format template args with
        | .ok stage => .ok (some stage)
        | .error .keyError => .ok (some template)
        | .error .indexError => .ok (some template)
        | .error error => .error (.raised error)

def taskLeaf [StrFormat] (ontology : Ontology) (channel : TaskChannel) (node : PlanNode) :
    Except ExpandError NodeLeaves := do
  let canonical := node.skill.str?.bind (Assoc.get? ontology.libraryToCanonical)
  let known := canonical.filter (fun name => decide (name ≠ "") &&
    ((ontology.graph.byId name).or (ontology.graph.byName name)).isSome)
  let path ← match known with
    | some name => lookingUp (ontology.graph.taxonomyPath name)
    | none => pure []
  let template := (node.skill.str?.bind (Assoc.get? channel.segmentSpecs)).join
  let stage ← segmentStage template node.args
  let info : Json := .obj [("task", .str channel.task), ("policy", channel.policy),
    ("embodiment", (channel.embodiment.map Json.str).getD .null),
    ("task_template", (template.map Json.str).getD .null)]
  return ⟨[⟨node.skill, stage, canonical, "TASK_BINDING", path⟩], some info, path, [], []⟩

def nodeLeaves [StrFormat] (ontology : Ontology) (channel : PlanChannel) (expand : Bool)
    (node : PlanNode) : Except ExpandError NodeLeaves :=
  match channel with
  | .graph => graphLeaves ontology expand node.skill
  | .task channel => taskLeaf ontology channel node

def leafInfo (ontology : Ontology) (info : Option Json) (leaf : PlanLeaf) : Option Json :=
  match info with
  | some info => some info
  | none => (leaf.skill.str?.bind (Assoc.get? ontology.bound)).map (fun tasks =>
      .obj [("tasks", .arr (tasks.map .str))])

def unboundReason (ontology : Ontology) (leaf : PlanLeaf) : String :=
  let canonical := leaf.canonical.filter (· ≠ "")
  let named := ((leaf.skill.str?.bind (Assoc.get? ontology.bound)).filter (· ≠ [])).or
    (canonical.bind (Assoc.get? ontology.bound))
  "no task binding declares skill " ++ Host.repr leaf.skill ++
    (canonical.map (fun name => " (canonical " ++ Host.repr (.str name) ++ ")")).getD "" ++
    "; it exists only as a RoboCasa annotation" ++
    ((named.filter (· ≠ [])).map (fun tasks =>
      "; a same-named binding exists in " ++ reprNames tasks)).getD ""

/-- `_leaf_row`, with the labels that the leaf follows. -/
def leafRow (ontology : Ontology) (node : PlanNode) (info : Option Json) (leaf : PlanLeaf)
    (after : List Json) : LeafRow where
  toPlanLeaf := leaf
  node := node.id
  args := node.args
  bound := (leafInfo ontology info leaf).isSome
  binding := leafInfo ontology info leaf
  reason := if (leafInfo ontology info leaf).isSome then none else some (unboundReason ontology leaf)
  after

def leafRows (ontology : Ontology) (node : PlanNode) (info : Option Json) :
    List Json → List PlanLeaf → List LeafRow
  | _, [] => []
  | after, leaf :: rest =>
      leafRow ontology node info leaf after :: leafRows ontology node info [leaf.label] rest

def parentLabels (lastLeafOf : List (String × List Json)) (node : PlanNode) : List Json :=
  node.after.flatMap (fun parent => (Assoc.get? lastLeafOf parent).getD [])

def lastLabel (leaves : List PlanLeaf) : List Json := (leaves.getLast?.map PlanLeaf.label).toList

structure Expanding extends ExpandedPlan where
  lastLeafOf : List (String × List Json)

def expandNode [StrFormat] (ontology : Ontology) (channel : PlanChannel) (expand : Bool)
    (so : Expanding) (node : PlanNode) : Except ExpandError Expanding := do
  let found ← nodeLeaves ontology channel expand node
  let rows := leafRows ontology node found.info (parentLabels so.lastLeafOf node) found.leaves
  return {
    nodes := so.nodes ++ [{
      id := node.id
      skill := node.skill
      kind := node.kind
      args := node.args
      after := node.after
      taxonomyPath := found.taxonomyPath
      stages := found.stages
      decomposition := found.decomposition
      leaves := rows.map (fun row => row.label)
      bound := rows.all LeafRow.bound }]
    chain := so.chain ++ rows
    lastLeafOf := Assoc.set so.lastLeafOf node.id (lastLabel found.leaves) }

/-- `expand_plan`. -/
def expandPlanChain [StrFormat] (ontology : Ontology) (channel : PlanChannel) (expand : Bool)
    (plan : Json) : Except ExpandError ExpandedPlan :=
  ((planNodes plan).foldlM (expandNode ontology channel expand) ⟨⟨[], []⟩, []⟩).map
    Expanding.toExpandedPlan

end

end Task
end PhysicalHarness
