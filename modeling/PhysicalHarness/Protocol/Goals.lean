import PhysicalHarness.Protocol.Contracts

namespace PhysicalHarness
namespace Protocol

open Python
open Fallible

/-!
# What a graph's goals decide

`validate_graph` looks at the goals last and writes each one into its text, spelled as the graph
spells it.  Everything before that is the same for two graphs with the same nodes and the same task
ids.  So two such graphs get the same answer for all records only if their goals are spelled alike,
unless a label or an executor cannot be looked up and the goals are never reached.
-/

/-- What the checker has found when it turns to the goals: problems that end the check, or the
placed nodes and the problems so far. -/
inductive Inspection where
  | refused (problems : List String)
  | placed (placed : List Placed) (problems : List String)

section

variable [Host]

def inspect (nodes : List Node) (ids : List String) (records : List (Json × SkillRecordV0))
    (facts : List PredRef) (objects : List String) : Except PyError Inspection := do
  let found ← nodes.mapM (findRecord records)
  let facts ← facts.mapM predRefStr
  let index := indexNodes nodes Dict.empty
  let memo := ancestors index.1
  let problems := index.2 ++ (found.map Prod.snd).flatten ++ memo.problems
  if problems ≠ [] then return .refused problems
  let pairs := (found.map Prod.fst).flatten
  let typed ← collect (typedProblems ids) pairs
  let bound ← collect boundProblems pairs
  let placed ← pairs.mapM place
  let grounded ← collect (groundedProblems placed memo.anc objects) placed
  let supported := placed.flatMap (supportedProblems placed memo.anc facts)
  return .placed placed (typed ++ bound ++ grounded ++ supported)

/-- The answer once the goals are judged. -/
def Inspection.verdict (nodes : List Node) (tasks : List Task) : Inspection → Bool × List String
  | .refused problems => (false, problems)
  | .placed found problems =>
      let all := problems ++ tasks.flatMap (coveredProblems found
        (ancestors (indexNodes nodes Dict.empty).1).anc)
      (all.isEmpty, all)

theorem validateGraph_eq_inspect (graph : ExecutionGraph) (records : List (Json × SkillRecordV0))
    (facts : List PredRef) (objects : List String) :
    validateGraph graph records facts objects =
      inspect graph.nodes (graph.tasks.map Task.id) records facts objects >>= fun seen =>
        .ok (seen.verdict graph.nodes graph.tasks) := by
  unfold validateGraph inspect
  cases graph.nodes.mapM (findRecord records) with
  | error _ => rfl
  | ok found =>
      cases facts.mapM predRefStr with
      | error _ => rfl
      | ok known =>
          simp only [bind_ok]
          split
          · rfl
          · cases collect (typedProblems (graph.tasks.map Task.id))
                (found.map Prod.fst).flatten with
            | error _ => rfl
            | ok typed =>
                cases collect boundProblems (found.map Prod.fst).flatten with
                | error _ => rfl
                | ok bound =>
                    cases (found.map Prod.fst).flatten.mapM place with
                    | error _ => rfl
                    | ok placed =>
                        simp only [bind_ok]
                        cases collect (groundedProblems placed
                            (ancestors (indexNodes graph.nodes Dict.empty).1).anc objects) placed with
                        | error _ => rfl
                        | ok grounded => rfl

def Lookable (node : Node) : Prop := node.task.hashable = true ∧ node.executor.hashable = true

variable {placed : List Placed} {nodes : List Node}

theorem lookable_of_placed {ids : List String} {records : List (Json × SkillRecordV0)}
    {facts : List PredRef} {objects problems : List String}
    (seen : inspect nodes ids records facts objects = .ok (.placed placed problems)) :
    ∀ node ∈ nodes, Lookable node := by
  unfold inspect at seen
  obtain ⟨found, resolved, seen⟩ := of_bind seen
  obtain ⟨known, _, seen⟩ := of_bind seen
  by_cases clean : (indexNodes nodes Dict.empty).2 ++ (found.map Prod.snd).flatten ++
      (ancestors (indexNodes nodes Dict.empty).1).problems = []
  · simp only [clean, ne_eq, not_true_eq_false, if_false] at seen
    obtain ⟨typed, typing, seen⟩ := of_bind seen
    obtain ⟨bound, binding, _⟩ := of_bind seen
    rw [List.append_eq_nil_iff, List.append_eq_nil_iff] at clean
    obtain ⟨nodesEq, _⟩ := findRecords_clean (mapM_eq_ok_iff.mp resolved) clean.1.2
    intro node mem
    rw [← nodesEq] at mem
    obtain ⟨pair, inside, same⟩ := List.mem_map.mp mem
    subst same
    constructor
    · obtain ⟨_, here⟩ := returns_collect_iff.mp ⟨typed, typing⟩ pair inside
      rw [typedProblems] at here
      obtain ⟨_, looked, _⟩ := of_bind here
      exact (hashed_eq_ok_iff _).mp looked
    · obtain ⟨_, here⟩ := returns_collect_iff.mp ⟨bound, binding⟩ pair inside
      rw [boundProblems] at here
      split at here
      · rename_i absent
        cases held : pair.1.executor with
        | null => rfl
        | _ =>
            rw [held] at absent
            cases absent
      · obtain ⟨_, _, here⟩ := of_bind here
        obtain ⟨_, looked, _⟩ := of_bind here
        exact (hashed_eq_ok_iff _).mp looked
  · simp only [clean, ne_eq, not_false_eq_true, if_true] at seen
    cases seen

def bareRecords (nodes : List Node) : List (Json × SkillRecordV0) :=
  nodes.map (fun node => (node.skill, { id := node.skill, name := node.skill }))

omit [Host] in
theorem recordFor_bareRecords {node : Node} (mem : node ∈ nodes) :
    ∃ record, recordFor (bareRecords nodes) node.skill = some record ∧ record.args = [] ∧
      record.requires = [] ∧ record.ensures = [] ∧ record.clobbers = [] ∧ record.bindings = [] := by
  have known : ((bareRecords nodes).find? (fun entry => entry.1.eq node.skill)).isSome = true := by
    rw [List.find?_isSome]
    exact ⟨_, List.mem_map_of_mem mem, Json.eq_self _⟩
  obtain ⟨entry, found⟩ := Option.isSome_iff_exists.mp known
  obtain ⟨source, _, same⟩ := List.mem_map.mp (List.mem_of_find?_eq_some found)
  refine ⟨entry.2, by rw [recordFor, found]; rfl, ?_⟩
  subst same
  exact ⟨rfl, rfl, rfl, rfl, rfl⟩

omit [Host] in
theorem ensuresOf_of_free (free : ∀ here ∈ placed, here.contract.ensures = []) (id : String) :
    ensuresOf placed id = [] := by
  unfold ensuresOf
  cases found : placed.find? (fun other => other.id = id) with
  | none => rfl
  | some other => exact free other (List.mem_of_find?_eq_some found)

theorem inspect_bareRecords (inOrder : InOrder nodes) (ids : List String)
    (skills : ∀ node ∈ nodes, node.skill.hashable = true)
    (lookable : ∀ node ∈ nodes, Lookable node) :
    ∃ placed problems, inspect nodes ids (bareRecords nodes) [] [] = .ok (.placed placed problems) ∧
      ∀ here ∈ placed, here.contract.ensures = [] := by
  have each : ∀ node ∈ nodes, ∃ record : SkillRecordV0,
      findRecord (bareRecords nodes) node = .ok ([(node, record)], []) ∧
        record.bindings = [] ∧ place (node, record) = .ok ⟨node, record, ⟨[], [], []⟩⟩ := by
    intro node mem
    obtain ⟨record, found, _, requires, ensures, clobbers, bindings⟩ := recordFor_bareRecords mem
    refine ⟨record, ?_, bindings, ?_⟩
    · rw [findRecord, (hashed_eq_ok_iff _).mpr (skills node mem)]
      simp [found]
    · rw [place, contractOf, requires, ensures, clobbers]
      rfl
  have : Nonempty SkillRecordV0 := ⟨argRecord .null []⟩
  choose! recordOf resolves bindings placing using each
  have found : nodes.mapM (findRecord (bareRecords nodes)) =
      .ok (nodes.map (fun node => ([(node, recordOf node)], []))) := by
    rw [mapM_eq_ok_iff, List.forall₂_map_right_iff, List.forall₂_same]
    exact resolves
  have pairs : ((nodes.map (fun node => ([(node, recordOf node)], ([] : List String)))).map
      Prod.fst).flatten = nodes.map (fun node => (node, recordOf node)) := by
    rw [List.map_map, ← List.flatMap_def]
    exact List.map_eq_flatMap.symm
  have silent : ((nodes.map (fun node => ([(node, recordOf node)], ([] : List String)))).map
      Prod.snd).flatten = [] := by
    rw [List.flatten_eq_nil_iff]
    intro problems mem
    obtain ⟨_, inner, same⟩ := List.mem_map.mp mem
    obtain ⟨here, _, pairEq⟩ := List.mem_map.mp inner
    rw [← same, ← pairEq]
  obtain ⟨typed, typing⟩ : Returns (collect (typedProblems ids)
      (nodes.map (fun node => (node, recordOf node)))) := by
    apply returns_collect_iff.mpr
    intro pair mem
    obtain ⟨node, inside, same⟩ := List.mem_map.mp mem
    subst same
    rw [typedProblems, (hashed_eq_ok_iff _).mpr (lookable node inside).1]
    exact ⟨_, rfl⟩
  obtain ⟨bound, binding⟩ : Returns (collect boundProblems
      (nodes.map (fun node => (node, recordOf node)))) := by
    apply returns_collect_iff.mpr
    intro pair mem
    obtain ⟨node, inside, same⟩ := List.mem_map.mp mem
    subst same
    rw [boundProblems]
    split
    · exact ⟨_, rfl⟩
    · have keys : executorsOf (recordOf node) = .ok [.str "scripted"] := by
        rw [executorsOf, bindings node inside]
        rfl
      rw [keys, bind_ok, (hashed_eq_ok_iff _).mpr (lookable node inside).2,
        bind_ok]
      split
      · exact ⟨_, rfl⟩
      · exact ⟨_, rfl⟩
  have placed : (nodes.map (fun node => (node, recordOf node))).mapM place =
      .ok (nodes.map (fun node => ⟨node, recordOf node, ⟨[], [], []⟩⟩)) := by
    rw [mapM_eq_ok_iff, List.forall₂_map_left_iff, List.forall₂_map_right_iff,
      List.forall₂_same]
    exact placing
  have free : ∀ here ∈ nodes.map (fun node => (⟨node, recordOf node, ⟨[], [], []⟩⟩ : Placed)),
      here.contract.ensures = [] := by
    intro here mem
    obtain ⟨node, _, same⟩ := List.mem_map.mp mem
    subst same
    rfl
  obtain ⟨grounded, grounding⟩ : Returns (collect (groundedProblems
      (nodes.map (fun node => ⟨node, recordOf node, ⟨[], [], []⟩⟩))
        (ancestors (indexNodes nodes Dict.empty).1).anc [])
      (nodes.map (fun node => ⟨node, recordOf node, ⟨[], [], []⟩⟩))) := by
    apply returns_collect_iff.mpr
    intro here _
    have produced : collect (fun m => collect producedArgs
        (ensuresOf (nodes.map (fun node => ⟨node, recordOf node, ⟨[], [], []⟩⟩)) m))
        (((ancestors (indexNodes nodes Dict.empty).1).anc.get? here.id).getD []) = .ok [] := by
      rw [collect_eq_nil_iff]
      intro m _
      rw [ensuresOf_of_free free]
      rfl
    rw [groundedProblems, produced]
    exact ⟨_, rfl⟩
  have ran : ∃ problems, inspect nodes ids (bareRecords nodes) [] [] = .ok (.placed
      (nodes.map (fun node => ⟨node, recordOf node, ⟨[], [], []⟩⟩)) problems) := by
    unfold inspect
    simp only [found, List.mapM_nil, pure_eq_ok, bind_ok, pairs, silent,
      indexNodes_inOrder inOrder, ancestors_clean inOrder.ranked, List.append_nil, ne_eq,
      not_true_eq_false, if_false, typing, binding, placed, grounding]
    exact ⟨_, rfl⟩
  obtain ⟨problems, ran⟩ := ran
  exact ⟨_, problems, ran, free⟩

def uncovered (id p : String) : String :=
  "covered: task " ++ Host.repr (.str id) ++ " goal " ++ p ++ " is ensured by none of its nodes"

theorem uncovered_injective (id : String) : Function.Injective (uncovered id) := by
  intro first second same
  unfold uncovered at same
  have texts := congrArg String.toList same
  simp only [String.toList_append] at texts
  exact String.toList_injective (List.append_cancel_left (List.append_cancel_right texts))

theorem coveredProblems_of_free (free : ∀ here ∈ placed, here.contract.ensures = [])
    (anc : Dict String (List String)) (task : Task) :
    coveredProblems placed anc task = task.goal.map (uncovered task.id) := by
  have noSupporter : ∀ p, (members placed task).filter (fun m => p ∈ ensuresOf placed m) = [] := by
    intro p
    rw [List.filter_eq_nil_iff]
    intro m _
    rw [ensuresOf_of_free free]
    simp
  unfold coveredProblems
  dsimp only
  rw [List.map_eq_flatMap]
  apply List.flatMap_congr
  intro p _
  rw [noSupporter, if_pos rfl]
  rfl

def Parallel (tasks others : List Task) : Prop :=
  List.Forall₂ (fun task other => task.id = other.id ∧ task.goal.length = other.goal.length)
    tasks others

theorem goals_eq_of_uncovered {tasks others : List Task} (parallel : Parallel tasks others)
    (same : tasks.flatMap (fun task => task.goal.map (uncovered task.id)) =
      others.flatMap (fun task => task.goal.map (uncovered task.id))) : tasks = others := by
  induction parallel with
  | nil => rfl
  | @cons task other _ _ here _ ih =>
      rw [List.flatMap_cons, List.flatMap_cons] at same
      obtain ⟨head, tail⟩ := List.append_inj same (by simp [here.2])
      obtain ⟨id, goal⟩ := task
      obtain ⟨otherId, otherGoal⟩ := other
      cases here.1
      have goals : goal = otherGoal := (uncovered_injective id).list_map head
      rw [goals, ih tail]

/-- The answers to two graphs with the same nodes and parallel tasks agree for all records exactly
when the goals are the same, or the checker never gets to them. -/
theorem answers_eq_iff (graph other : ExecutionGraph) (inOrder : InOrder graph.nodes)
    (nodes : other.nodes = graph.nodes) (parallel : Parallel graph.tasks other.tasks)
    (skills : ∀ node ∈ graph.nodes, node.skill.hashable = true) :
    (∀ records facts objects, (validateGraph graph records facts objects).toOption =
        (validateGraph other records facts objects).toOption) ↔
      graph.tasks = other.tasks ∨ ∃ node ∈ graph.nodes, ¬ Lookable node := by
  have ids : graph.tasks.map Task.id = other.tasks.map Task.id :=
    (map_eq_of_forall₂ parallel (fun _ _ here => here.1.symm)).symm
  simp only [validateGraph_eq_inspect, nodes, ← ids]
  constructor
  · intro agree
    by_cases lookable : ∀ node ∈ graph.nodes, Lookable node
    · left
      obtain ⟨placed, problems, seen, free⟩ := inspect_bareRecords inOrder
        (graph.tasks.map Task.id) skills lookable
      have here := agree (bareRecords graph.nodes) [] []
      rw [seen, bind_ok, bind_ok] at here
      have texts := congrArg Prod.snd (Option.some.inj here)
      rw [Inspection.verdict, Inspection.verdict] at texts
      dsimp only at texts
      apply goals_eq_of_uncovered parallel
      rw [← List.flatMap_congr (fun task _ => coveredProblems_of_free free _ task),
        ← List.flatMap_congr (fun task _ => coveredProblems_of_free free _ task)]
      exact List.append_cancel_left texts
    · right
      simpa using lookable
  · rintro (same | ⟨node, mem, dark⟩) records facts objects
    · rw [same]
    · cases seen : inspect graph.nodes (graph.tasks.map Task.id) records facts objects with
      | error _ => rfl
      | ok seen_ =>
          cases seen_ with
          | refused _ => rfl
          | placed _ _ => exact absurd (lookable_of_placed seen node mem) dark

end

end Protocol
end PhysicalHarness
