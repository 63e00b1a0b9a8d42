import PhysicalHarness.Lib.DepthFirst
import PhysicalHarness.Python.Value

namespace PhysicalHarness
namespace SkillGraph

open Python Finishing Fallible

/-!
# The document of a skill graph

The constructor reads nodes and edges from a decoded document and refuses what it could not serve:
repeated ids, two selectable nodes or categories of one name, edges to no node, edges without the
order that their relation needs, and cycles of `IS_A` or `DECOMPOSES_TO`.  What the tables promise
is part of the graph; that its two relations are acyclic is what the search at the end shows.
-/

/-- `RELATIONS`. -/
inductive Relation where
  | isA
  | hasStage
  | realizes
  | decomposesTo
  | observedTransition
  deriving DecidableEq

namespace Relation

def text : Relation → String
  | isA => "IS_A"
  | hasStage => "HAS_STAGE"
  | realizes => "REALIZES"
  | decomposesTo => "DECOMPOSES_TO"
  | observedTransition => "OBSERVED_TRANSITION"

def all : List Relation := [decomposesTo, hasStage, isA, observedTransition, realizes]

def ofText (text : String) : Option Relation := all.find? (fun relation => relation.text == text)

def ordered : Relation → Bool
  | hasStage => true
  | decomposesTo => true
  | _ => false

end Relation

structure Node where
  id : String
  name : String
  kind : String
  raw : Json

namespace Node

/-- `SKILL_KINDS`. -/
def skillKinds : List String := ["canonical_skill", "observed_skill"]

/-- A planner may select the node. -/
def Selectable (node : Node) : Prop := node.kind ∈ skillKinds

instance (node : Node) : Decidable node.Selectable := inferInstanceAs (Decidable (_ ∈ _))

def Catalogued (node : Node) : Prop := node.Selectable ∨ node.kind ∈ ["category", "root"]

instance (node : Node) : Decidable node.Catalogued := inferInstanceAs (Decidable (_ ∨ _))

end Node

/-- An edge; the order is zero where the relation has none. -/
structure Edge where
  relation : Relation
  source : String
  target : String
  order : Int

inductive GraphError where
  | skillGraphError (text : String)
  | typeError
  | keyError
  /-- never from the code: a recursion of the model was cut short -/
  | outOfFuel
  deriving DecidableEq

/-- The tables of the graph. -/
structure UnifiedSkillGraph where
  nodes : List Node
  edges : List Edge
  unique : (nodes.map Node.id).Nodup
  named : ((nodes.filter (fun node => decide node.Catalogued)).map Node.name).Nodup
  known : ∀ edge ∈ edges, edge.source ∈ nodes.map Node.id ∧ edge.target ∈ nodes.map Node.id

namespace UnifiedSkillGraph

def empty : UnifiedSkillGraph where
  nodes := []
  edges := []
  unique := List.nodup_nil
  named := List.nodup_nil
  known := fun _ member => absurd member List.not_mem_nil

/-- The keys of `_nodes`. -/
def ids (graph : UnifiedSkillGraph) : List String := graph.nodes.map Node.id

/-- `_nodes.get(id)`. -/
def byId (graph : UnifiedSkillGraph) (id : String) : Option Node :=
  graph.nodes.find? (fun node => node.id == id)

/-- The nodes of `_by_name`. -/
def catalogued (graph : UnifiedSkillGraph) : List Node :=
  graph.nodes.filter (fun node => decide node.Catalogued)

/-- `_by_name.get(name)`. -/
def byName (graph : UnifiedSkillGraph) (name : String) : Option Node :=
  graph.catalogued.find? (fun node => node.name == name)

/-- `_out[id][relation]`. -/
def out (graph : UnifiedSkillGraph) (id : String) (relation : Relation) : List Edge :=
  graph.edges.filter (fun edge => edge.source == id && edge.relation == relation)

def targets (graph : UnifiedSkillGraph) (relation : Relation) (id : String) : List String :=
  (graph.out id relation).map Edge.target

variable {graph : UnifiedSkillGraph} {node : Node}

theorem mem_ids_of_byId {id : String} (found : graph.byId id = some node) :
    node ∈ graph.nodes ∧ node.id = id :=
  ⟨List.mem_of_find?_eq_some found,
    beq_iff_eq.mp (List.find?_some (p := fun node : Node => node.id == id) found)⟩

theorem byId_of_mem (mem : node ∈ graph.nodes) :
    graph.byId node.id = some node := by
  rcases some_ : graph.byId node.id with _ | found
  · have none_ := List.find?_eq_none.mp some_ node mem
    exact absurd (beq_self_eq_true node.id) none_
  · rcases mem_ids_of_byId some_ with ⟨inside, same⟩
    rw [List.inj_on_of_nodup_map graph.unique inside mem same]

theorem mem_catalogued_of_byName {name : String} (found : graph.byName name = some node) :
    node ∈ graph.catalogued ∧ node.name = name :=
  ⟨List.mem_of_find?_eq_some found,
    beq_iff_eq.mp (List.find?_some (p := fun node : Node => node.name == name) found)⟩

theorem byName_of_mem (mem : node ∈ graph.catalogued) :
    graph.byName node.name = some node := by
  rcases some_ : graph.byName node.name with _ | found
  · have none_ := List.find?_eq_none.mp some_ node mem
    exact absurd (beq_self_eq_true node.name) none_
  · rcases mem_catalogued_of_byName some_ with ⟨inside, same⟩
    rw [List.inj_on_of_nodup_map graph.named inside mem same]

theorem mem_ids_of_targets {relation : Relation} {id target : String}
    (edge : target ∈ graph.targets relation id) : id ∈ graph.ids ∧ target ∈ graph.ids := by
  rcases List.mem_map.mp edge with ⟨found, mem, rfl⟩
  rcases List.mem_filter.mp mem with ⟨listed, own⟩
  rw [Bool.and_eq_true, beq_iff_eq] at own
  exact own.1 ▸ graph.known found listed

end UnifiedSkillGraph

/-! ## The constructor -/

section

variable [Host]

def text (value : String) : String := Host.repr (.str value)

namespace UnifiedSkillGraph

def addNode (graph : UnifiedSkillGraph) (i : Nat) (value : Json) :
    Except GraphError UnifiedSkillGraph :=
  let id := value.getD "id" .null
  let kind := value.getD "kind" .null
  let name := value.getD "name" .null
  if !(value.isMapping && id.truthy && kind.truthy) then
    .error (.skillGraphError ("node[" ++ toString i ++ "] must carry id and kind"))
  else
    let node : Node := ⟨pyStr id, pyStr (if name.truthy then name else id), pyStr kind, value⟩
    if fresh : node.id ∈ graph.nodes.map Node.id then
      .error (.skillGraphError ("duplicate node id " ++ text node.id))
    else if free : node.Catalogued ∧ node.name ∈ graph.catalogued.map Node.name then
      .error (.skillGraphError ("node name " ++ text node.name ++ " claimed by both " ++
        text (((graph.byName node.name).map Node.id).getD "") ++ " and " ++ text node.id))
    else .ok {
      nodes := graph.nodes ++ [node]
      edges := graph.edges
      unique := by
        rw [List.map_append, List.map_singleton, ← List.concat_eq_append, List.nodup_concat]
        exact ⟨fresh, graph.unique⟩
      named := by
        rw [List.filter_append, List.map_append]
        by_cases listed : node.Catalogued
        · rw [List.filter_singleton, decide_eq_true listed]
          change ((graph.catalogued.map Node.name) ++ [node.name]).Nodup
          rw [← List.concat_eq_append, List.nodup_concat]
          exact ⟨fun taken => free ⟨listed, taken⟩, graph.named⟩
        · rw [List.filter_singleton, decide_eq_false listed]
          exact (List.append_nil _).symm ▸ graph.named
      known := fun edge member => by
        rw [List.map_append, List.mem_append, List.mem_append]
        exact ⟨Or.inl (graph.known edge member).1, Or.inl (graph.known edge member).2⟩ }

/-- One end of an edge. -/
def endpoint (graph : UnifiedSkillGraph) (i : Nat) (relation : Relation) (label : String)
    (value : Json) : Except GraphError { id : String // id ∈ graph.nodes.map Node.id } :=
  if !value.hashable then .error .typeError
  else
    let id := value.str?.getD ""
    if known : value.str?.isSome ∧ id ∈ graph.nodes.map Node.id then .ok ⟨id, known.2⟩
    else .error (.skillGraphError ("edge[" ++ toString i ++ "] (" ++ relation.text ++ ") " ++ label ++
      " " ++ Host.repr value ++ " is not a node"))

def edgeOrder (i : Nat) (relation : Relation) (source target : String) (value : Json) :
    Except GraphError Int :=
  if relation.ordered then
    match value with
    | .int order => .ok order
    | _ => .error (.skillGraphError ("edge[" ++ toString i ++ "] (" ++ relation.text ++ " " ++
        source ++ "->" ++ target ++ ") needs an int order"))
  else .ok 0

def edgeRelation (i : Nat) (value : Json) : Except GraphError Relation :=
  if !value.hashable then .error .typeError
  else
    match value.str?.bind Relation.ofText with
    | some relation => .ok relation
    | none => .error (.skillGraphError ("edge[" ++ toString i ++ "] relation " ++ Host.repr value ++
        " not in " ++ reprNames (Relation.all.map Relation.text)))

def addEdge (graph : UnifiedSkillGraph) (i : Nat) (value : Json) :
    Except GraphError UnifiedSkillGraph := do
  if !value.isMapping then
    throw (.skillGraphError ("edge[" ++ toString i ++ "] must be an object"))
  let relation ← edgeRelation i (value.getD "relation" .null)
  let source ← graph.endpoint i relation "source" (value.getD "source" .null)
  let target ← graph.endpoint i relation "target" (value.getD "target" .null)
  let order ← edgeOrder i relation source.val target.val (value.getD "order" .null)
  return {
    nodes := graph.nodes
    edges := graph.edges ++ [⟨relation, source.val, target.val, order⟩]
    unique := graph.unique
    named := graph.named
    known := fun edge member => by
      rcases List.mem_append.mp member with earlier | last
      · exact graph.known edge earlier
      · rw [List.mem_singleton.mp last]
        exact ⟨source.property, target.property⟩ }

end UnifiedSkillGraph

end

namespace UnifiedSkillGraph

/-- `_assert_acyclic`. -/
def assertAcyclic (graph : UnifiedSkillGraph) (relation : Relation) : Except GraphError Unit :=
  match DepthFirst.search (graph.targets relation) graph.ids with
  | .ok _ => .ok ()
  | .error (.cycle nodes) =>
      .error (.skillGraphError (relation.text ++ " cycle: " ++ " -> ".intercalate nodes))
  | .error .outOfFuel => .error .outOfFuel

variable [Host]

/-- `UnifiedSkillGraph(data)`. -/
def ofData (data : Json) : Except GraphError UnifiedSkillGraph := do
  let version := pyStr (data.getD "schema_version" .null)
  if version ≠ "1.0" then
    throw (.skillGraphError ("unsupported schema_version " ++ text version ++
      " (supported: ['1.0'])"))
  let root := pyStr (data.getD "root" (.str ""))
  let some nodes := (data.getD "nodes" .null).arr? |
    throw (.skillGraphError "graph.nodes and graph.edges must be lists")
  let some edges := (data.getD "edges" .null).arr? |
    throw (.skillGraphError "graph.nodes and graph.edges must be lists")
  let tables ← nodes.zipIdx.foldlM (fun graph item => graph.addNode item.2 item.1) empty
  if root ≠ "" ∧ root ∉ tables.ids then
    throw (.skillGraphError ("root " ++ text root ++ " is not a node"))
  let graph ← edges.zipIdx.foldlM (fun graph item => graph.addEdge item.2 item.1) tables
  graph.assertAcyclic .isA
  graph.assertAcyclic .decomposesTo
  return graph

omit [Host] in
/-- The nodes have an order in which each comes after those that it points to. -/
def Acyclic (graph : UnifiedSkillGraph) (relation : Relation) : Prop :=
  ∃ order, Finished (graph.targets relation) order ∧ ∀ id ∈ graph.ids, id ∈ order

omit [Host] in
theorem acyclic_of_assert {graph : UnifiedSkillGraph} {relation : Relation}
    (passed : graph.assertAcyclic relation = .ok ()) : graph.Acyclic relation := by
  rw [assertAcyclic] at passed
  split at passed
  · rename_i marks ended
    exact DepthFirst.exists_finished_of_search ended
  · cases passed
  · cases passed

omit [Host] in
/-- Either no node leads back to itself, or the error names nodes that lead around. -/
theorem assertAcyclic_decides (graph : UnifiedSkillGraph) (relation : Relation) :
    (graph.assertAcyclic relation = .ok () ∧ ∀ id,
        ¬Relation.TransGen (fun below above => below ∈ graph.targets relation above) id id) ∨
      ∃ nodes, DepthFirst.Cycle (graph.targets relation) nodes ∧ graph.assertAcyclic relation =
        .error (.skillGraphError (relation.text ++ " cycle: " ++ " -> ".intercalate nodes)) := by
  cases ended : DepthFirst.search (graph.targets relation) graph.ids with
  | ok marks =>
      refine .inl ⟨by rw [assertAcyclic, ended], ?_⟩
      rcases DepthFirst.exists_finished_of_search ended with ⟨order, finished, listed⟩
      exact acyclic_of_rank (fun below above edge =>
        finished.idxOf_lt (listed above (mem_ids_of_targets edge).1) edge)
  | error stuck =>
      cases stuck with
      | cycle nodes => exact .inr ⟨nodes, DepthFirst.cycle_of_search ended, by rw [assertAcyclic, ended]⟩
      | outOfFuel =>
          refine absurd ended (DepthFirst.search_ne_outOfFuel (fun _ _ _ edge => ?_))
          exact (mem_ids_of_targets edge).2

theorem acyclic_of_ofData {data : Json} {graph : UnifiedSkillGraph} (accepted : ofData data = .ok graph) :
    graph.Acyclic .isA ∧ graph.Acyclic .decomposesTo := by
  rw [ofData] at accepted
  dsimp only at accepted
  split at accepted
  · cases accepted
  rcases nodes : (data.getD "nodes" .null).arr? with _ | nodeRows
  · simp only [nodes] at accepted
    cases accepted
  rcases edges : (data.getD "edges" .null).arr? with _ | edgeRows
  · simp only [nodes, edges] at accepted
    cases accepted
  simp only [nodes, edges] at accepted
  rcases of_bind accepted with ⟨tables, _, rest⟩
  split at rest
  · cases rest
  rcases of_bind rest with ⟨built, _, rest⟩
  rcases of_bind rest with ⟨_, taxonomy, rest⟩
  rcases of_bind rest with ⟨_, recipes, rest⟩
  cases rest
  exact ⟨acyclic_of_assert taxonomy, acyclic_of_assert recipes⟩

end UnifiedSkillGraph

end SkillGraph
end PhysicalHarness
