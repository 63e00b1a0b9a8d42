import PhysicalHarness.SkillGraph.Lookup

namespace PhysicalHarness
namespace SkillGraph

open Python Finishing Fallible

/-!
# What a name stands for

Along the edges of the nodes themselves, every skill has a line of parents and an expansion.  The
queries find both through names.  In a graph that the constructor accepts they find them for every
skill exactly where no id is the name of another node's skill, and where no recipe that is followed
leads out of the skills.
-/

namespace UnifiedSkillGraph

/-- The names from the root down to a node, by its own first parents. -/
inductive Lineage (graph : UnifiedSkillGraph) : Node → List String → Prop
  | root {n : Node} (top : graph.targets .isA n.id = []) : Lineage graph n [n.name]
  | child {n parent : Node} {path : List String} (member : parent ∈ graph.nodes)
      (first : (graph.targets .isA n.id).head? = some parent.id) (above : Lineage graph parent path) :
      Lineage graph n (path ++ [n.name])

/-- The leaves of a series of skills: the stages of a skill, or else the leaves of its components,
or else the skill itself. -/
inductive Expands [Host] (graph : UnifiedSkillGraph) : List Node → List Leaf → Prop
  | nil : Expands graph [] []
  | stages {n : Node} {rest parts : List Node} {stages : List Stage} {path : List String}
      {leaves : List Leaf} (skill : n.Selectable) (own : graph.stagesOf n = .ok stages)
      (some_ : stages ≠ []) (recipe : graph.componentsOf n = .ok parts) (line : graph.Lineage n path)
      (others : Expands graph rest leaves) :
      Expands graph (n :: rest) (stageLeaves n path stages (parts.map Node.name) ++ leaves)
  | components {n : Node} {rest parts : List Node} {own leaves : List Leaf} (skill : n.Selectable)
      (none_ : graph.stagesOf n = .ok []) (recipe : graph.componentsOf n = .ok parts)
      (some_ : parts ≠ []) (below : Expands graph parts own) (others : Expands graph rest leaves) :
      Expands graph (n :: rest) (own ++ leaves)
  | leaf {n : Node} {rest : List Node} {canonical : Option String} {path : List String}
      {leaves : List Leaf} (skill : n.Selectable) (none_ : graph.stagesOf n = .ok [])
      (single : graph.componentsOf n = .ok [])
      (parent : (if n.kind = "canonical_skill" then .ok (some n.name)
        else graph.firstName .isA n.id) = .ok canonical)
      (line : graph.Lineage n path) (others : Expands graph rest leaves) :
      Expands graph (n :: rest) (⟨n.name, none, canonical, "LEAF", path⟩ :: leaves)

/-- No other node has the name of a skill as its id. -/
def Unambiguous (graph : UnifiedSkillGraph) : Prop :=
  ∀ n ∈ graph.nodes, n.Selectable → ∀ other ∈ graph.nodes, other.id = n.name → other = n

/-- A recipe that is followed has skills only. -/
def RecipesOfSkills (graph : UnifiedSkillGraph) : Prop :=
  ∀ n ∈ graph.nodes, n.Selectable → graph.targets .hasStage n.id = [] →
    ∀ part ∈ graph.nodes, part.id ∈ graph.targets .decomposesTo n.id → part.Selectable

variable {graph : UnifiedSkillGraph}

/-! ## Nodes by id -/

theorem nodeAt_eq_ok {id : String} {node : Node} :
    graph.nodeAt id = .ok node ↔ node ∈ graph.nodes ∧ node.id = id := by
  rw [nodeAt]
  constructor
  · intro found
    split at found
    · rename_i here
      cases found
      exact mem_ids_of_byId here
    · cases found
  · rintro ⟨mem, rfl⟩
    rw [byId_of_mem mem]

theorem nodeAt_of_mem_ids {id : String} (known : id ∈ graph.ids) :
    ∃ node ∈ graph.nodes, graph.nodeAt id = .ok node := by
  rcases List.mem_map.mp known with ⟨node, mem, same⟩
  exact ⟨node, mem, nodeAt_eq_ok.mpr ⟨mem, same⟩⟩

theorem mem_ordered {id target : String} {relation : Relation} :
    target ∈ graph.ordered id relation ↔ target ∈ graph.targets relation id := by
  rw [ordered, targets, List.mem_map, List.mem_map]
  exact exists_congr (fun edge => and_congr_left (fun _ => List.mem_insertionSort _))

theorem ordered_eq_nil_iff {id : String} {relation : Relation} :
    graph.ordered id relation = [] ↔ graph.targets relation id = [] := by
  rw [List.eq_nil_iff_forall_not_mem, List.eq_nil_iff_forall_not_mem]
  exact forall_congr' (fun _ => not_congr mem_ordered)

variable (graph) in
theorem returns_componentsOf (n : Node) : Returns (graph.componentsOf n) := by
  rw [componentsOf, returns_mapM_iff]
  intro id mem
  rcases nodeAt_of_mem_ids (mem_ids_of_targets (mem_ordered.mp mem)).2 with ⟨node, _, found⟩
  exact ⟨node, found⟩

theorem mem_componentsOf {n : Node} {parts : List Node} (recipe : graph.componentsOf n = .ok parts)
    (part : Node) : part ∈ parts ↔ part ∈ graph.nodes ∧ part.id ∈ graph.targets .decomposesTo n.id := by
  rw [componentsOf, mapM_eq_ok_iff] at recipe
  constructor
  · intro mem
    rcases exists_left_of_forall₂ recipe mem with ⟨id, listed, found⟩
    rcases nodeAt_eq_ok.mp found with ⟨inside, rfl⟩
    exact ⟨inside, mem_ordered.mp listed⟩
  · rintro ⟨inside, edge⟩
    rcases exists_right_of_forall₂ recipe (mem_ordered.mpr edge) with ⟨node, mem, found⟩
    rcases nodeAt_eq_ok.mp found with ⟨there, same⟩
    rw [List.inj_on_of_nodup_map graph.unique inside there same.symm]
    exact mem

variable (graph) in
theorem returns_firstName (relation : Relation) (id : String) :
    Returns (graph.firstName relation id) := by
  rw [firstName]
  split
  · rename_i target first
    rcases nodeAt_of_mem_ids (mem_ids_of_targets (List.mem_of_mem_head? first)).2 with ⟨node, _, found⟩
    rw [found]
    exact ⟨_, rfl⟩
  · exact ⟨_, rfl⟩

section

variable [Host]

variable (graph) in
theorem returns_stagesOf (n : Node) : Returns (graph.stagesOf n) := by
  rw [stagesOf, returns_mapM_iff]
  intro id mem
  rcases nodeAt_of_mem_ids (mem_ids_of_targets (mem_ordered.mp mem)).2 with ⟨node, _, found⟩
  rcases returns_firstName graph .realizes id with ⟨name, first⟩
  rw [stageAt, found, bind_ok, first]
  exact ⟨_, rfl⟩

theorem stagesOf_eq_nil_iff {n : Node} :
    graph.stagesOf n = .ok [] ↔ graph.targets .hasStage n.id = [] := by
  rw [stagesOf, mapM_eq_ok_iff, List.forall₂_nil_right_iff, ordered_eq_nil_iff]

theorem node_eq_ok_of_mem (unambiguous : graph.Unambiguous) {n : Node} (mem : n ∈ graph.nodes)
    (skill : n.Selectable) : graph.node n.name = .ok n := by
  rw [node]
  rcases byId : graph.byId n.name with _ | other
  · have listed : n ∈ graph.catalogued :=
      List.mem_filter.mpr ⟨mem, decide_eq_true (Or.inl skill)⟩
    rw [byName_of_mem listed]
    rfl
  · rcases mem_ids_of_byId byId with ⟨inside, same⟩
    rw [unambiguous n mem skill other inside same]
    rfl

theorem eq_of_node {n other : Node} (found : graph.node n.name = .ok n) (mem : other ∈ graph.nodes)
    (same : other.id = n.name) : other = n := by
  rw [node, ← same, byId_of_mem mem] at found
  cases found
  rfl

omit [Host] in
theorem length_le_of_inside {seen : List String} (distinct : seen.Nodup)
    (inside : ∀ id ∈ seen, id ∈ graph.ids) : seen.length ≤ graph.nodes.length := by
  have fewer := (List.subperm_of_subset distinct inside).length_le
  rwa [ids, List.length_map] at fewer

/-- The climb takes the names above a node; the parents it comes to are lower in the finishing
order than all that it has seen. -/
theorem climb_lineage {order : List String} (finished : Finished (graph.targets .isA) order)
    (listed : ∀ id ∈ graph.ids, id ∈ order) (fuel : Nat) (current : Node) (seen path : List String)
    (mem : current ∈ graph.nodes) (distinct : seen.Nodup) (inside : ∀ id ∈ seen, id ∈ graph.ids)
    (lower : ∀ id ∈ seen, order.idxOf current.id ≤ order.idxOf id)
    (enough : graph.nodes.length < fuel + seen.length) :
    ∃ above, graph.climb fuel current seen path = .ok (path ++ above).reverse ∧
      graph.Lineage current (above.reverse ++ [current.name]) := by
  induction fuel generalizing current seen path with
  | zero =>
      have fewer := length_le_of_inside distinct inside
      omega
  | succ fuel ih =>
      rw [climb]
      rcases first : (graph.targets .isA current.id).head? with _ | target
      · refine ⟨[], ?_, Lineage.root (List.head?_eq_none_iff.mp first)⟩
        rw [List.append_nil]
      · have edge := List.mem_of_mem_head? first
        rcases nodeAt_of_mem_ids (mem_ids_of_targets edge).2 with ⟨parent, known, found⟩
        have same : parent.id = target := (nodeAt_eq_ok.mp found).2
        subst same
        have closer : order.idxOf parent.id < order.idxOf current.id :=
          finished.idxOf_lt (listed _ (List.mem_map_of_mem mem)) edge
        have fresh : parent.id ∉ seen := fun again =>
          absurd (lower parent.id again) (not_le.mpr closer)
        have next := ih parent (seen ++ [parent.id]) (path ++ [parent.name]) known
          (by rw [← List.concat_eq_append, List.nodup_concat]; exact ⟨fresh, distinct⟩)
          (fun id earlier => by
            rcases List.mem_append.mp earlier with old | last
            · exact inside id old
            · rw [List.mem_singleton.mp last]
              exact List.mem_map_of_mem known)
          (fun id earlier => by
            rcases List.mem_append.mp earlier with old | last
            · exact closer.le.trans (lower id old)
            · rw [List.mem_singleton.mp last])
          (by rw [List.length_append, List.length_singleton]; omega)
        rcases next with ⟨above, climbed, line⟩
        refine ⟨parent.name :: above, ?_, ?_⟩
        · simp only [found, bind_ok, if_neg fresh]
          rw [List.append_assoc, List.singleton_append] at climbed
          exact climbed
        · rw [List.reverse_cons]
          exact Lineage.child known first line

theorem taxonomyPath_lineage (acyclic : graph.Acyclic .isA) {n : Node} (mem : n ∈ graph.nodes)
    (found : graph.node n.name = .ok n) :
    ∃ path, graph.taxonomyPath n.name = .ok path ∧ graph.Lineage n path := by
  rcases acyclic with ⟨order, finished, listed⟩
  have start := climb_lineage finished listed (graph.nodes.length + 1) n [n.id] [n.name] mem
    (List.nodup_singleton _)
    (fun id here => by
      rw [List.mem_singleton.mp here]
      exact List.mem_map_of_mem mem)
    (fun id here => by rw [List.mem_singleton.mp here])
    (by rw [List.length_singleton]; omega)
  rcases start with ⟨above, climbed, line⟩
  refine ⟨_, ?_, line⟩
  rw [taxonomyPath, found, bind_ok, climbed, List.singleton_append, List.reverse_cons]

theorem Expands.cons {n : Node} {rest : List Node} {own leaves : List Leaf}
    (first : graph.Expands [n] own) (others : graph.Expands rest leaves) :
    graph.Expands (n :: rest) (own ++ leaves) := by
  cases first with
  | stages skill stages some_ recipe line last =>
      cases last
      rw [List.append_nil]
      exact .stages skill stages some_ recipe line others
  | components skill none_ recipe some_ below last =>
      cases last
      rw [List.append_nil]
      exact .components skill none_ recipe some_ below others
  | leaf skill none_ single parent line last =>
      cases last
      exact .leaf skill none_ single parent line others

theorem Expands.selectable {nodes : List Node} {leaves : List Leaf} (expands : graph.Expands nodes leaves) :
    ∀ n ∈ nodes, n.Selectable := by
  induction expands with
  | nil => exact fun n mem => absurd mem List.not_mem_nil
  | stages skill _ _ _ _ _ ih => exact List.forall_mem_cons.mpr ⟨skill, ih⟩
  | components skill _ _ _ _ _ _ ih => exact List.forall_mem_cons.mpr ⟨skill, ih⟩
  | leaf skill _ _ _ _ _ ih => exact List.forall_mem_cons.mpr ⟨skill, ih⟩

variable (graph) in
theorem mapM_expands (run : String → Except GraphError (List Leaf)) (nodes : List Node)
    (each : ∀ n ∈ nodes, ∃ leaves, run n.name = .ok leaves ∧ graph.Expands [n] leaves) :
    ∃ series, (nodes.map Node.name).mapM run = .ok series ∧ graph.Expands nodes series.flatten := by
  induction nodes with
  | nil => exact ⟨[], rfl, .nil⟩
  | cons n rest ih =>
      rcases List.forall_mem_cons.mp each with ⟨⟨own, ran, first⟩, later⟩
      rcases ih later with ⟨series, others, expands⟩
      refine ⟨own :: series, ?_, ?_⟩
      · rw [List.map_cons, List.mapM_cons, ran, bind_ok, others]
        rfl
      · rw [List.flatten_cons]
        exact first.cons expands

/-- A skill expands along its own edges; its components are lower in the finishing order than all
that is being expanded. -/
theorem expandUnder_expands (unambiguous : graph.Unambiguous) (recipes : graph.RecipesOfSkills)
    (taxonomy : graph.Acyclic .isA) {order : List String}
    (finished : Finished (graph.targets .decomposesTo) order) (listed : ∀ id ∈ graph.ids, id ∈ order)
    (fuel : Nat) (n : Node) (stack : List String) (mem : n ∈ graph.nodes) (skill : n.Selectable)
    (distinct : stack.Nodup) (inside : ∀ id ∈ stack, id ∈ graph.ids)
    (lower : ∀ id ∈ stack, order.idxOf n.id < order.idxOf id)
    (enough : graph.nodes.length < fuel + stack.length) :
    ∃ leaves, graph.expandUnder fuel n.name stack = .ok leaves ∧ graph.Expands [n] leaves := by
  induction fuel generalizing n stack with
  | zero =>
      have fewer := length_le_of_inside distinct inside
      omega
  | succ fuel ih =>
      have found := node_eq_ok_of_mem unambiguous mem skill
      have fresh : n.id ∉ stack := fun again => absurd (lower n.id again) (lt_irrefl _)
      rcases taxonomyPath_lineage taxonomy mem found with ⟨path, climbed, line⟩
      rcases returns_stagesOf graph n with ⟨stages, own⟩
      rcases returns_componentsOf graph n with ⟨parts, recipe⟩
      have stagesHere : graph.stages n.name = .ok stages := by
        rw [UnifiedSkillGraph.stages, found, bind_ok, own]
      have partsHere : graph.decomposition n.name = .ok (parts.map Node.name) := by
        rw [decomposition, found, bind_ok, recipe]
        rfl
      rw [expandUnder, found, bind_ok]
      simp only [if_neg (not_not.mpr skill), if_neg fresh]
      rw [climbed, bind_ok, stagesHere, bind_ok, partsHere, bind_ok]
      by_cases staged : stages = []
      · subst staged
        simp only [ne_eq, not_true_eq_false, if_false]
        by_cases bare : parts = []
        · subst bare
          simp only [List.map_nil, not_true_eq_false, if_false]
          rcases returns_firstName graph .isA n.id with ⟨name, first⟩
          by_cases canonical : n.kind = "canonical_skill"
          · refine ⟨_, by rw [if_pos canonical]; rfl, ?_⟩
            exact .leaf skill own recipe (by rw [if_pos canonical]) line .nil
          · refine ⟨[⟨n.name, none, name, "LEAF", path⟩], ?_, ?_⟩
            · rw [if_neg canonical, canonicalParent, found, bind_ok, first]
              rfl
            · exact .leaf skill own recipe (by rw [if_neg canonical, first]) line .nil
        · have named : parts.map Node.name ≠ [] := fun none_ => bare (List.map_eq_nil_iff.mp none_)
          rw [if_pos named]
          have series := mapM_expands graph (fun part => graph.expandUnder fuel part (stack ++ [n.id]))
            parts (fun part isPart => by
              rcases (mem_componentsOf recipe part).mp isPart with ⟨partMember, edge⟩
              have closer : order.idxOf part.id < order.idxOf n.id :=
                finished.idxOf_lt (listed _ (List.mem_map_of_mem mem)) edge
              apply ih part (stack ++ [n.id]) partMember
              · exact recipes n mem skill (stagesOf_eq_nil_iff.mp own) part partMember edge
              · rw [← List.concat_eq_append, List.nodup_concat]
                exact ⟨fresh, distinct⟩
              · intro id earlier
                rcases List.mem_append.mp earlier with old | last
                · exact inside id old
                · rw [List.mem_singleton.mp last]
                  exact List.mem_map_of_mem mem
              · intro id earlier
                rcases List.mem_append.mp earlier with old | last
                · exact closer.trans (lower id old)
                · rw [List.mem_singleton.mp last]
                  exact closer
              · rw [List.length_append, List.length_singleton]
                omega)
          rcases series with ⟨series, ran, expands⟩
          refine ⟨series.flatten, ?_, ?_⟩
          · rw [ran]
            rfl
          · have whole := Expands.components skill own recipe bare expands .nil
            rwa [List.append_nil] at whole
      · simp only [ne_eq, staged, not_false_eq_true, if_true]
        refine ⟨_, rfl, ?_⟩
        have whole := Expands.stages skill own staged recipe line .nil
        rwa [List.append_nil] at whole

theorem expandUnder_ne_nil {fuel : Nat} {skill : String} {stack : List String} {leaves : List Leaf}
    (expanded : graph.expandUnder fuel skill stack = .ok leaves) : leaves ≠ [] := by
  induction fuel generalizing skill stack leaves with
  | zero => cases expanded
  | succ fuel ih =>
      rw [expandUnder] at expanded
      rcases of_bind expanded with ⟨n, _, rest⟩
      by_cases skill : n.Selectable
      · by_cases again : n.id ∈ stack
        · simp only [if_neg (not_not.mpr skill), if_pos again] at rest
          cases rest
        simp only [if_neg (not_not.mpr skill), if_neg again] at rest
        rcases of_bind rest with ⟨path, _, rest⟩
        rcases of_bind rest with ⟨stages, _, rest⟩
        rcases of_bind rest with ⟨parts, _, rest⟩
        by_cases staged : stages ≠ []
        · rw [if_pos staged] at rest
          cases rest
          rw [stageLeaves, ne_eq, List.map_eq_nil_iff, List.zipIdx_eq_nil_iff]
          exact staged
        rw [if_neg staged] at rest
        by_cases some_ : parts ≠ []
        · rw [if_pos some_] at rest
          rcases of_bind rest with ⟨series, ran, rest⟩
          cases rest
          rw [mapM_eq_ok_iff] at ran
          cases ran with
          | nil => exact absurd rfl some_
          | cons first _ =>
              intro empty
              rw [List.flatten_cons] at empty
              exact ih first (List.append_eq_nil_iff.mp empty).1
        · rw [if_neg some_] at rest
          by_cases canonical : n.kind = "canonical_skill"
          · rw [if_pos canonical] at rest
            cases rest
            exact List.cons_ne_nil _ _
          · rw [if_neg canonical] at rest
            rcases of_bind rest with ⟨parent, _, rest⟩
            cases rest
            exact List.cons_ne_nil _ _
      · simp only [if_pos skill] at rest
        cases rest

/-- The name of a node leads to the node itself, to its own line of parents and to its own
expansion. -/
structure Named (graph : UnifiedSkillGraph) (n : Node) : Prop where
  node : graph.node n.name = .ok n
  taxonomyPath : ∃ path, graph.taxonomyPath n.name = .ok path ∧ graph.Lineage n path
  expand : ∃ leaves, graph.expand n.name = .ok leaves ∧ graph.Expands [n] leaves

theorem named_of_unambiguous (taxonomy : graph.Acyclic .isA) (acyclic : graph.Acyclic .decomposesTo)
    (unambiguous : graph.Unambiguous) (recipes : graph.RecipesOfSkills) {n : Node}
    (mem : n ∈ graph.nodes) (skill : n.Selectable) : graph.Named n := by
  have found := node_eq_ok_of_mem unambiguous mem skill
  refine ⟨found, taxonomyPath_lineage taxonomy mem found, ?_⟩
  rcases acyclic with ⟨order, finished, listed⟩
  apply expandUnder_expands unambiguous recipes taxonomy finished listed _ n [] mem skill
  · exact List.nodup_nil
  · exact fun id never => absurd never List.not_mem_nil
  · exact fun id never => absurd never List.not_mem_nil
  · rw [List.length_nil]
    omega

theorem selectable_of_expands {n part : Node} {leaves : List Leaf} (expands : graph.Expands [n] leaves)
    (bare : graph.targets .hasStage n.id = []) (mem : part ∈ graph.nodes)
    (edge : part.id ∈ graph.targets .decomposesTo n.id) : part.Selectable := by
  have none_ := stagesOf_eq_nil_iff.mpr bare
  cases expands with
  | stages _ own some_ _ _ _ =>
      cases none_.symm.trans own
      exact absurd rfl some_
  | components _ _ recipe _ below _ =>
      exact below.selectable part ((mem_componentsOf recipe part).mpr ⟨mem, edge⟩)
  | leaf _ _ single _ _ _ =>
      exact absurd ((mem_componentsOf single part).mpr ⟨mem, edge⟩) List.not_mem_nil

/-- In an accepted graph every skill is found by its name exactly where no name of a skill is the id
of another node and the recipes that are followed have skills only. -/
theorem named_iff (data : Json) (graph : UnifiedSkillGraph) (accepted : ofData data = .ok graph) :
    (∀ n ∈ graph.nodes, n.Selectable → graph.Named n) ↔
      graph.Unambiguous ∧ graph.RecipesOfSkills := by
  rcases acyclic_of_ofData accepted with ⟨taxonomy, acyclic⟩
  constructor
  · intro named
    refine ⟨?_, ?_⟩
    · intro n member skill other inside same
      exact eq_of_node (named n member skill).node inside same
    · intro n member skill bare part inside edge
      rcases (named n member skill).expand with ⟨leaves, _, expands⟩
      exact selectable_of_expands expands bare inside edge
  · rintro ⟨unambiguous, recipes⟩ n member skill
    exact named_of_unambiguous taxonomy acyclic unambiguous recipes member skill

end

section

local instance graphHost : Host := asciiHost

/-- A skill, and a category under it in the catalogue. -/
def pickDocument (category : String) : Json :=
  .obj [("schema_version", .str "1.0"),
    ("nodes", .arr [
      .obj [("id", .str category), ("name", .str "Hands"), ("kind", .str "category")],
      .obj [("id", .str "concept:Pick"), ("name", .str "Pick"), ("kind", .str "canonical_skill")]]),
    ("edges", .arr [.obj [("relation", .str "IS_A"), ("source", .str "concept:Pick"),
      ("target", .str category)]])]

/-- A category with an id of its own. -/
theorem named_iff_pick :
    ∃ graph, ofData (pickDocument "concept:Hands") = .ok graph ∧
      ((∀ n ∈ graph.nodes, n.Selectable → graph.Named n) ↔
        graph.Unambiguous ∧ graph.RecipesOfSkills) := by
  have reads : (ofData (pickDocument "concept:Hands")).toBool = true := by decide +kernel
  rcases returns_of_toBool reads with ⟨graph, accepted⟩
  exact ⟨graph, accepted, named_iff _ graph accepted⟩

/-- A category whose id is the name of the skill hides the skill. -/
theorem pick_hidden :
    ∃ graph, ofData (pickDocument "Pick") = .ok graph ∧
      ¬ ∀ n ∈ graph.nodes, n.Selectable → graph.Named n := by
  have reads : (ofData (pickDocument "Pick")).toOption.map
      (fun graph => graph.nodes.map (fun n => (n.id, n.name, n.kind))) =
        some [("Pick", "Hands", "category"), ("concept:Pick", "Pick", "canonical_skill")] := by
    decide +kernel
  rcases Option.map_eq_some_iff.mp reads with ⟨graph, some_, rows⟩
  refine ⟨graph, toOption_eq_some_iff.mp some_, fun named => ?_⟩
  have member : ∀ row ∈ [("Pick", "Hands", "category"), ("concept:Pick", "Pick", "canonical_skill")],
      ∃ n ∈ graph.nodes, (n.id, n.name, n.kind) = row := by
    intro row listed
    rw [← rows] at listed
    exact List.mem_map.mp listed
  rcases member _ (List.mem_cons_self ..) with ⟨category, inside, isCategory⟩
  rcases member _ (List.mem_cons_of_mem _ (List.mem_singleton_self _)) with ⟨pick, known, isPick⟩
  simp only [Prod.mk.injEq] at isCategory isPick
  have skill : pick.Selectable := by
    rw [Node.Selectable, isPick.2.2]
    decide
  have same : category = pick :=
    eq_of_node (named pick known skill).node inside (isCategory.1.trans isPick.2.1.symm)
  rw [same] at isCategory
  exact absurd (isCategory.1.symm.trans isPick.1) (by decide)

end

end UnifiedSkillGraph

end SkillGraph
end PhysicalHarness
