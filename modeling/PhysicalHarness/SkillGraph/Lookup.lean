import PhysicalHarness.SkillGraph.Document

namespace PhysicalHarness
namespace SkillGraph

open Python Finishing Fallible

/-!
# Lookups and expansion

Every query takes an id or a name.  A node of this id comes before the node of this name, and the
expansion of a skill goes through the names of its components again.
-/

structure Leaf where
  skill : String
  stage : Option String
  canonical : Option String
  via : String
  taxonomyPath : List String
  deriving DecidableEq

/-- `Leaf.label`. -/
def Leaf.label (leaf : Leaf) : String :=
  match leaf.stage with
  | some stage => if stage = "" then leaf.skill else leaf.skill ++ "." ++ stage
  | none => leaf.skill

/-- One of the stages of a skill. -/
structure Stage where
  stage : String
  name : String
  id : String
  realizes : Option String

/-- `name.rsplit(".", 1)[-1]`. -/
def afterLastDot (name : String) : String :=
  String.ofList (name.toList.reverse.takeWhile (fun char => char ≠ '.')).reverse

namespace UnifiedSkillGraph

/-- `_nodes[id]`. -/
def nodeAt (graph : UnifiedSkillGraph) (id : String) : Except GraphError Node :=
  match graph.byId id with
  | some node => .ok node
  | none => .error .keyError

/-- `_ordered`. -/
def ordered (graph : UnifiedSkillGraph) (id : String) (relation : Relation) : List String :=
  ((graph.out id relation).insertionSort (fun left right => left.order ≤ right.order)).map Edge.target

def firstName (graph : UnifiedSkillGraph) (relation : Relation) (id : String) :
    Except GraphError (Option String) :=
  match (graph.targets relation id).head? with
  | some target => (graph.nodeAt target).map (fun node => some node.name)
  | none => .ok none

def componentsOf (graph : UnifiedSkillGraph) (n : Node) : Except GraphError (List Node) :=
  (graph.ordered n.id .decomposesTo).mapM graph.nodeAt

section

variable [Host]

/-- One stage of `stages`. -/
def stageAt (graph : UnifiedSkillGraph) (id : String) : Except GraphError Stage := do
  let node ← graph.nodeAt id
  let realizes ← graph.firstName .realizes id
  let stage := node.raw.getD "stage" .null
  return {
    stage := pyStr (if stage.truthy then stage else .str (afterLastDot node.name))
    name := node.name
    id := node.id
    realizes }

def stagesOf (graph : UnifiedSkillGraph) (n : Node) : Except GraphError (List Stage) :=
  (graph.ordered n.id .hasStage).mapM graph.stageAt

/-- `node`: an id, or else a name. -/
def node (graph : UnifiedSkillGraph) (key : String) : Except GraphError Node :=
  match (graph.byId key).or (graph.byName key) with
  | some node => .ok node
  | none => .error (.skillGraphError ("unknown skill graph node " ++ text key))

/-- The climb of `taxonomy_path`, with the ids that it has seen and the names that it has taken. -/
def climb (graph : UnifiedSkillGraph) :
    Nat → Node → List String → List String → Except GraphError (List String)
  | 0, _, _, _ => .error .outOfFuel
  | fuel + 1, current, seen, path =>
      match (graph.targets .isA current.id).head? with
      | none => .ok path.reverse
      | some target => do
          let parent ← graph.nodeAt target
          if parent.id ∈ seen then
            throw (.skillGraphError ("IS_A cycle through " ++ text parent.id))
          graph.climb fuel parent (seen ++ [parent.id]) (path ++ [parent.name])

/-- `canonical_parent`. -/
def canonicalParent (graph : UnifiedSkillGraph) (skill : String) : Except GraphError (Option String) :=
  do graph.firstName .isA (← graph.node skill).id

/-- `taxonomy_path`. -/
def taxonomyPath (graph : UnifiedSkillGraph) (skill : String) : Except GraphError (List String) := do
  let n ← graph.node skill
  graph.climb (graph.nodes.length + 1) n [n.id] [n.name]

/-- `decomposition`. -/
def decomposition (graph : UnifiedSkillGraph) (skill : String) : Except GraphError (List String) := do
  let parts ← graph.componentsOf (← graph.node skill)
  return parts.map Node.name

/-- `stages`. -/
def stages (graph : UnifiedSkillGraph) (skill : String) : Except GraphError (List Stage) := do
  graph.stagesOf (← graph.node skill)

end

/-- One leaf for each stage.  A stage that realizes nothing takes the component of its position,
where there is one for each stage. -/
def stageLeaves (n : Node) (path : List String) (stages : List Stage) (parts : List String) :
    List Leaf :=
  stages.zipIdx.map (fun stage =>
    match stage.1.realizes with
    | some canonical => ⟨n.name, some stage.1.stage, some canonical, "HAS_STAGE+REALIZES", path⟩
    | none =>
        if parts.length = stages.length then
          ⟨n.name, some stage.1.stage, parts[stage.2]?, "HAS_STAGE+DECOMPOSES_TO[order]", path⟩
        else ⟨n.name, some stage.1.stage, none, "HAS_STAGE", path⟩)

variable [Host]

/-- `expand`, with the nodes that are being expanded. -/
def expandUnder (graph : UnifiedSkillGraph) :
    Nat → String → List String → Except GraphError (List Leaf)
  | 0, _, _ => .error .outOfFuel
  | fuel + 1, skill, stack => do
      let n ← graph.node skill
      if ¬ n.Selectable then
        throw (.skillGraphError (text n.name ++ " is a " ++ n.kind ++
          ", not a selectable skill; expand a skill"))
      if n.id ∈ stack then
        throw (.skillGraphError ("DECOMPOSES_TO cycle: " ++
          " -> ".intercalate (stack ++ [n.id])))
      let path ← graph.taxonomyPath n.name
      let stages ← graph.stages n.name
      let parts ← graph.decomposition n.name
      if stages ≠ [] then
        return stageLeaves n path stages parts
      if parts ≠ [] then
        let leaves ← parts.mapM (fun part => graph.expandUnder fuel part (stack ++ [n.id]))
        return leaves.flatten
      let canonical ←
        if n.kind = "canonical_skill" then pure (some n.name) else graph.canonicalParent n.name
      return [⟨n.name, none, canonical, "LEAF", path⟩]

/-- `expand`. -/
def expand (graph : UnifiedSkillGraph) (skill : String) : Except GraphError (List Leaf) :=
  graph.expandUnder (graph.nodes.length + 1) skill []

end UnifiedSkillGraph

end SkillGraph
end PhysicalHarness
