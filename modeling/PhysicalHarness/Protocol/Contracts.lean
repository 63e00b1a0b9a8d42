import PhysicalHarness.Protocol.Ancestors

namespace PhysicalHarness
namespace Protocol

open Python
open Relation (TransGen)
open Fallible

variable [Host]

/-!
# What the contracts of a legal graph say

`validate_graph` returns a list of problems.  For a graph whose nodes are listed
in order, the empty list has a meaning without the checker: every node's skill
has a record whose schema its arguments match, an explicit executor is one of the
record's, an entity is an object of the scene or the product of a predecessor,
and every requirement and every goal has a supporter that no clobbering node
threatens.  A predecessor is a node that `after` edges lead from; the walk that
computes them is no part of the statement.
-/

/-! ## The conditions -/

/-- A path of `after` edges leads from one node to the other. -/
def Precedes (graph : ExecutionGraph) : String → String → Prop :=
  TransGen (fun a b => ∃ node ∈ graph.nodes, node.id = b ∧ a ∈ node.after)

/-- The task exists, and the arguments are the schema's with values of its types. -/
structure WellTyped (tasks : List String) (node : Node) (record : SkillRecordV0) : Prop where
  task : ∃ id ∈ tasks, node.task = .str id
  names : ∀ name, name ∈ Assoc.keys node.args ↔ name ∈ Assoc.keys record.args
  values : ∀ arg ∈ node.args, ∃ declared type, Assoc.get? record.args arg.1 = some declared ∧
    Assoc.get? types declared = some type ∧ type.admits arg.2 = true

def BindsExecutor (node : Node) (record : SkillRecordV0) : Prop :=
  node.executor = .null ∨ node.executor.hashable = true ∧
    ∃ keys, executorsOf record = .ok keys ∧ ∃ key ∈ keys, key.eq node.executor = true

section Conditions

variable (placed : List Placed) (precedes : String → String → Prop)

/-- Every reference that a predecessor of a node ensures can be read. -/
def ProductsParse : Prop :=
  ∀ here ∈ placed, ∀ m ∈ placed, precedes m.id here.id →
    ∀ p ∈ m.contract.ensures, Returns (producedArgs p)

/-- An entity argument names an object or something that a predecessor produces. -/
def Grounded (objects : List String) (here : Placed) : Prop :=
  ∀ arg ∈ here.node.args, Assoc.get? here.record.args arg.1 = some "entity" →
    pyStr arg.2 ∈ objects ∨ ∃ m ∈ placed, precedes m.id here.id ∧
      ∃ p ∈ m.contract.ensures, ∃ args, producedArgs p = .ok args ∧ pyStr arg.2 ∈ args

/-- No node threatens `p` between its supporter and its consumer. -/
def Safe (p : String) (m n : Option String) (ok : String → Prop) : Prop :=
  ∀ c ∈ placed, p ∈ c.contract.clobbers →
    m = some c.id ∨ n = some c.id ∨ ok c.id ∨
      (∃ supporter, m = some supporter ∧ precedes c.id supporter) ∨
      (∃ consumer, n = some consumer ∧ precedes consumer c.id)

/-- Every requirement is an initial fact or ensured by a predecessor, and safe. -/
def Supported (facts : List String) (here : Placed) : Prop :=
  ∀ p ∈ here.contract.requires,
    (p ∈ facts ∧ Safe placed precedes p none (some here.id) (fun _ => False)) ∨
      ∃ m ∈ placed, precedes m.id here.id ∧ p ∈ m.contract.ensures ∧
        Safe placed precedes p (some m.id) (some here.id) (fun _ => False)

/-- Every goal is ensured by a node of the task and safe until the task ends. -/
def Covered (task : Task) : Prop :=
  ∀ p ∈ task.goal, ∃ m ∈ placed, m.node.task = .str task.id ∧ p ∈ m.contract.ensures ∧
    Safe placed precedes p (some m.id) none (fun c =>
      ∀ member ∈ placed, member.node.task = .str task.id → precedes member.id c)

end Conditions

/-- The graph with the record and the instantiated contract of each node. -/
structure Contracted (graph : ExecutionGraph) (records : List (Json × SkillRecordV0))
    (facts : List PredRef) (objects : List String) (placed : List Placed)
    (known : List String) : Prop where
  nodes : placed.map Placed.node = graph.nodes
  contract : ∀ here ∈ placed, here.node.skill.hashable = true ∧
    recordFor records here.node.skill = some here.record ∧
    contractOf here.node here.record = .ok here.contract
  facts : facts.mapM predRefStr = .ok known
  typed : ∀ here ∈ placed, WellTyped (graph.tasks.map Task.id) here.node here.record
  bound : ∀ here ∈ placed, BindsExecutor here.node here.record
  parses : ProductsParse placed (Precedes graph)
  grounded : ∀ here ∈ placed, Grounded placed (Precedes graph) objects here
  supported : ∀ here ∈ placed, Supported placed (Precedes graph) known here
  covered : ∀ task ∈ graph.tasks, Covered placed (Precedes graph) task

def Legal (graph : ExecutionGraph) (records : List (Json × SkillRecordV0))
    (facts : List PredRef) (objects : List String) : Prop :=
  ∃ placed known, Contracted graph records facts objects placed known

omit [Host] in
theorem sorted_filter_eq_nil_iff {names : List String} {keep : String → Bool} :
    sorted (names.filter keep) = [] ↔ ∀ name ∈ names, keep name = false := by
  have empty : sorted (names.filter keep) = [] ↔ names.filter keep = [] := by
    rw [← List.length_eq_zero_iff, sorted, List.length_insertionSort, List.length_eq_zero_iff]
  rw [empty, List.filter_eq_nil_iff]
  simp

theorem typedProblems_eq_nil_iff {tasks : List String} {node : Node} {record : SkillRecordV0} :
    typedProblems tasks (node, record) = .ok [] ↔ WellTyped tasks node record := by
  have labelled : (hashed node.task = .ok () ∧ tasks.any (fun id => node.task.eq (.str id)) = true) ↔
      ∃ id ∈ tasks, node.task = .str id := by
    simp only [hashed_eq_ok_iff, List.any_eq_true, Json.eq_str_iff]
    constructor
    · exact And.right
    · intro labelled
      obtain ⟨id, mem, same⟩ := labelled
      exact ⟨by rw [same]; rfl, id, mem, same⟩
  have shape : (sorted ((Assoc.keys record.args).filter (fun name => name ∉ Assoc.keys node.args)) =
      [] ∧ sorted ((Assoc.keys node.args).filter (fun name => name ∉ Assoc.keys record.args)) = []) ↔
      ∀ name, name ∈ Assoc.keys node.args ↔ name ∈ Assoc.keys record.args := by
    rw [sorted_filter_eq_nil_iff, sorted_filter_eq_nil_iff]
    simp only [decide_eq_false_iff_not, not_not]
    exact ⟨fun both name => ⟨both.2 name, both.1 name⟩,
      fun same => ⟨fun name => (same name).mpr, fun name => (same name).mp⟩⟩
  rw [typedProblems, bind_eq_ok]
  constructor
  · intro passed
    obtain ⟨_, looked, rest⟩ := passed
    have empty := Except.ok.inj rest
    rw [List.append_eq_nil_iff, List.append_eq_nil_iff] at empty
    obtain ⟨⟨known, fits⟩, values⟩ := empty
    have listed : tasks.any (fun id => node.task.eq (.str id)) = true := by
      by_contra unknown
      rw [if_neg unknown] at known
      cases known
    have names := shape.mp (by
      by_contra mismatch
      rw [if_neg mismatch] at fits
      cases fits)
    refine ⟨labelled.mp ⟨looked, listed⟩, names, ?_⟩
    intro arg mem
    have here := List.flatMap_eq_nil_iff.mp values arg mem
    obtain ⟨declared, found⟩ := Assoc.get?_of_mem_keys
      ((names arg.1).mp (List.mem_map_of_mem mem))
    cases type : Assoc.get? types declared with
    | none => simp [found, type] at here
    | some type' =>
        refine ⟨declared, type', found, type, ?_⟩
        by_contra refuses
        simp [found, type, refuses] at here
  · intro typed
    obtain ⟨looked, listed⟩ := labelled.mpr typed.task
    refine ⟨(), looked, congrArg Except.ok ?_⟩
    rw [if_pos listed, if_pos (shape.mpr typed.names), List.nil_append, List.nil_append,
      List.flatMap_eq_nil_iff]
    intro arg mem
    obtain ⟨declared, type, found, known, admits⟩ := typed.values arg mem
    simp [found, known, admits]

theorem boundProblems_eq_nil_iff {node : Node} {record : SkillRecordV0} :
    boundProblems (node, record) = .ok [] ↔ BindsExecutor node record := by
  unfold boundProblems BindsExecutor
  cases absent : node.executor.isNull with
  | true =>
      have null : node.executor = .null := by
        cases given : node.executor <;> rw [given] at absent <;> first | rfl | cases absent
      simp [null, Json.isNull]
  | false =>
      have given : node.executor ≠ .null := by
        intro null
        rw [null] at absent
        cases absent
      simp only [absent, Bool.false_eq_true, if_false, given, false_or, bind_eq_ok]
      constructor
      · intro passed
        obtain ⟨keys, read, _, looked, rest⟩ := passed
        refine ⟨(hashed_eq_ok_iff _).mp looked, keys, read, ?_⟩
        by_contra none_
        have missing : ¬ keys.any (fun key => key.eq node.executor) = true := by
          rw [List.any_eq_true]
          exact none_
        rw [if_neg missing] at rest
        cases rest
      · intro binds
        obtain ⟨hashable, keys, read, key, mem, same⟩ := binds
        refine ⟨keys, read, (), (hashed_eq_ok_iff _).mpr hashable, ?_⟩
        rw [if_pos (List.any_eq_true.mpr ⟨key, mem, same⟩)]
        rfl

section Others

variable {placed : List Placed} {anc : Dict String (List String)}
  {precedes : String → String → Prop}
  (distinct : (placed.map Placed.id).Nodup)
  (agree : ∀ a b, before anc a b = true ↔ precedes a b)

include distinct in
omit [Host] in
theorem ensuresOf_of_mem {here : Placed} (mem : here ∈ placed) :
    ensuresOf placed here.id = here.contract.ensures := by
  unfold ensuresOf
  cases found : placed.find? (fun other => other.id = here.id) with
  | none =>
      have absent := List.find?_eq_none.mp found here mem
      simp at absent
  | some other =>
      have matched := List.find?_some found
      have same := List.inj_on_of_nodup_map distinct (List.mem_of_find?_eq_some found) mem
        (of_decide_eq_true matched)
      rw [same]
      rfl

include distinct in
omit [Host] in
theorem mem_ensuresOf_iff {m p : String} :
    p ∈ ensuresOf placed m ↔ ∃ other ∈ placed, other.id = m ∧ p ∈ other.contract.ensures := by
  constructor
  · intro ensured
    unfold ensuresOf at ensured
    cases found : placed.find? (fun other => other.id = m) with
    | none =>
        rw [found] at ensured
        cases ensured
    | some other =>
        rw [found] at ensured
        have matched := List.find?_some found
        exact ⟨other, List.mem_of_find?_eq_some found, of_decide_eq_true matched, ensured⟩
  · intro ensured
    obtain ⟨other, mem, same, ensures⟩ := ensured
    subst same
    rw [ensuresOf_of_mem distinct mem]
    exact ensures

include agree in
omit [Host] in
theorem mem_ancestors_iff {a b : String} : a ∈ (anc.get? b).getD [] ↔ precedes a b := by
  rw [← agree, before, List.contains_iff_mem]

include agree in
omit [Host] in
theorem unthreatened_iff {p : String} {m n : Option String} {ok : String → Bool} :
    unthreatened placed anc p m n ok = true ↔
      Safe placed precedes p m n (fun c => ok c = true) := by
  unfold unthreatened Safe
  rw [List.all_eq_true]
  refine forall_congr' fun c => forall_congr' fun _ => ?_
  simp only [Bool.or_eq_true, Bool.not_eq_true', List.contains_eq_mem, decide_eq_true_eq,
    decide_eq_false_iff_not, Option.any_eq_true, agree, or_assoc]
  exact imp_iff_not_or.symm

include distinct agree in
theorem groundedProblems_eq_nil_iff {objects : List String} {here : Placed} :
    groundedProblems placed anc objects here = .ok [] ↔
      (∀ m ∈ placed, precedes m.id here.id → ∀ p ∈ m.contract.ensures, Returns (producedArgs p)) ∧
        Grounded placed precedes objects here := by
  have parse : Returns (collect (fun m =>
      collect producedArgs (ensuresOf placed m)) ((anc.get? here.id).getD [])) ↔
      ∀ m ∈ placed, precedes m.id here.id → ∀ p ∈ m.contract.ensures,
        Returns (producedArgs p) := by
    rw [returns_collect_iff]
    simp only [returns_collect_iff, mem_ancestors_iff agree, mem_ensuresOf_iff distinct]
    constructor
    · intro each m mem before p ensured
      exact each m.id before p ⟨m, mem, rfl, ensured⟩
    · intro each m before p ensured
      obtain ⟨other, mem, same, ensures⟩ := ensured
      exact each other mem (same ▸ before) p ensures
  rw [groundedProblems, bind_eq_ok, ← parse]
  constructor
  · intro passed
    obtain ⟨produced, collected, rest⟩ := passed
    refine ⟨⟨produced, collected⟩, ?_⟩
    have each := List.flatMap_eq_nil_iff.mp (Except.ok.inj rest)
    intro arg mem entity
    have here' := each arg mem
    by_contra missing
    rw [not_or] at missing
    refine absurd here' ?_
    rw [if_pos]
    · simp
    · refine ⟨entity, missing.1, fun held => missing.2 ?_⟩
      obtain ⟨m, before, mArgs, read, inM⟩ := (mem_collect collected).mp held
      obtain ⟨p, ensured, args, parsed, inArgs⟩ := (mem_collect read).mp inM
      obtain ⟨other, otherMember, same, ensures⟩ := (mem_ensuresOf_iff distinct).mp ensured
      exact ⟨other, otherMember, same ▸ (mem_ancestors_iff agree).mp before, p, ensures, args,
        parsed, inArgs⟩
  · intro both
    obtain ⟨⟨produced, collected⟩, grounded⟩ := both
    refine ⟨produced, collected, congrArg Except.ok (List.flatMap_eq_nil_iff.mpr ?_)⟩
    intro arg mem
    rw [if_neg]
    intro all
    obtain ⟨entity, unknown, unproduced⟩ := all
    rcases grounded arg mem entity with known | ⟨m, mMember, before, p, ensured, args, parsed, held⟩
    · exact unknown known
    · refine unproduced ((mem_collect collected).mpr ?_)
      obtain ⟨mArgs, read⟩ := returns_collect_iff.mp ⟨produced, collected⟩ m.id
        ((mem_ancestors_iff agree).mpr before)
      exact ⟨m.id, (mem_ancestors_iff agree).mpr before, mArgs, read,
        (mem_collect read).mpr
          ⟨p, (mem_ensuresOf_iff distinct).mpr ⟨m, mMember, rfl, ensured⟩, args, parsed, held⟩⟩

include distinct agree in
theorem supportedProblems_eq_nil_iff {known : List String} {here : Placed} :
    supportedProblems placed anc known here = [] ↔ Supported placed precedes known here := by
  unfold supportedProblems Supported
  rw [List.flatMap_eq_nil_iff]
  refine forall_congr' fun p => forall_congr' fun _ => ?_
  dsimp only
  generalize found : (if p ∈ known then [none] else []) ++
    (((anc.get? here.id).getD []).filter (fun m => p ∈ ensuresOf placed m)).map some = supporters
  have listed : ∀ m, m ∈ supporters ↔ (m = none ∧ p ∈ known) ∨
      ∃ other ∈ placed, precedes other.id here.id ∧ p ∈ other.contract.ensures ∧
        m = some other.id := by
    intro m
    rw [← found, List.mem_append, List.mem_map]
    refine or_congr ?_ ?_
    · by_cases isFact : p ∈ known <;> simp [isFact]
    · constructor
      · intro earlier
        obtain ⟨id, kept, same⟩ := earlier
        rw [List.mem_filter, decide_eq_true_eq, mem_ancestors_iff agree,
          mem_ensuresOf_iff distinct] at kept
        obtain ⟨before, other, mem, sameId, ensures⟩ := kept
        exact ⟨other, mem, sameId ▸ before, ensures, by rw [← same, sameId]⟩
      · intro earlier
        obtain ⟨other, mem, before, ensures, same⟩ := earlier
        refine ⟨other.id, List.mem_filter.mpr ⟨(mem_ancestors_iff agree).mpr before, ?_⟩, same.symm⟩
        exact decide_eq_true ((mem_ensuresOf_iff distinct).mpr ⟨other, mem, rfl, ensures⟩)
  have some_safe : (∃ m ∈ supporters,
      Safe placed precedes p m (some here.id) (fun _ => False)) ↔
      (p ∈ known ∧ Safe placed precedes p none (some here.id) (fun _ => False)) ∨
        ∃ m ∈ placed, precedes m.id here.id ∧ p ∈ m.contract.ensures ∧
          Safe placed precedes p (some m.id) (some here.id) (fun _ => False) := by
    constructor
    · intro supported
      obtain ⟨m, mem, safe⟩ := supported
      rcases (listed m).mp mem with ⟨same, isFact⟩ | ⟨other, held, before, ensures, same⟩
      · exact Or.inl ⟨isFact, same ▸ safe⟩
      · exact Or.inr ⟨other, held, before, ensures, same ▸ safe⟩
    · intro supported
      rcases supported with ⟨isFact, safe⟩ | ⟨other, held, before, ensures, safe⟩
      · exact ⟨none, (listed none).mpr (Or.inl ⟨rfl, isFact⟩), safe⟩
      · exact ⟨some other.id, (listed _).mpr (Or.inr ⟨other, held, before, ensures, rfl⟩), safe⟩
  have any_safe : supporters.any (fun m =>
      unthreatened placed anc p m (some here.id) (fun _ => false)) = true ↔
      ∃ m ∈ supporters, Safe placed precedes p m (some here.id) (fun _ => False) := by
    simp only [List.any_eq_true, unthreatened_iff agree, Bool.false_eq_true]
  rw [← some_safe, ← any_safe]
  by_cases empty : supporters = []
  · simp [empty]
  · rw [if_neg empty]
    by_cases safe : supporters.any (fun m =>
        unthreatened placed anc p m (some here.id) (fun _ => false)) = true
    · simp only [safe, if_true]
    · simp [safe]

omit [Host] in
theorem mem_members {task : Task} {id : String} :
    id ∈ members placed task ↔ ∃ m ∈ placed, m.node.task = .str task.id ∧ m.id = id := by
  simp only [members, List.mem_map, List.mem_filter, Json.eq_str_iff, and_assoc]

include distinct agree in
theorem coveredProblems_eq_nil_iff {task : Task} :
    coveredProblems placed anc task = [] ↔ Covered placed precedes task := by
  unfold coveredProblems Covered
  dsimp only
  rw [List.flatMap_eq_nil_iff]
  refine forall_congr' fun p => forall_congr' fun _ => ?_
  generalize found : (members placed task).filter (fun m => p ∈ ensuresOf placed m) = supporters
  have listed : ∀ m, m ∈ supporters ↔ ∃ other ∈ placed,
      other.node.task = .str task.id ∧ p ∈ other.contract.ensures ∧ other.id = m := by
    intro m
    rw [← found, List.mem_filter, decide_eq_true_eq, mem_members]
    constructor
    · intro both
      obtain ⟨⟨other, mem, labelled, same⟩, ensured⟩ := both
      subst same
      rw [ensuresOf_of_mem distinct mem] at ensured
      exact ⟨other, mem, labelled, ensured, rfl⟩
    · intro both
      obtain ⟨other, mem, labelled, ensures, same⟩ := both
      subst same
      exact ⟨⟨other, mem, labelled, rfl⟩,
        (mem_ensuresOf_iff distinct).mpr ⟨other, mem, rfl, ensures⟩⟩
  have ended : ∀ c, (members placed task).all (fun m => before anc m c) = true ↔
      ∀ mem ∈ placed, mem.node.task = .str task.id → precedes mem.id c := by
    intro c
    rw [List.all_eq_true]
    constructor
    · intro each mem held labelled
      exact (agree _ _).mp (each mem.id (mem_members.mpr ⟨mem, held, labelled, rfl⟩))
    · intro each m listed'
      obtain ⟨mem, held, labelled, same⟩ := mem_members.mp listed'
      exact same ▸ (agree _ _).mpr (each mem held labelled)
  have any_safe : supporters.any (fun m => unthreatened placed anc p (some m) none
      (fun c => (members placed task).all (fun m => before anc m c))) = true ↔
      ∃ m ∈ placed, m.node.task = .str task.id ∧ p ∈ m.contract.ensures ∧
        Safe placed precedes p (some m.id) none (fun c =>
          ∀ mem ∈ placed, mem.node.task = .str task.id → precedes mem.id c) := by
    simp only [List.any_eq_true, unthreatened_iff agree, ended, listed]
    constructor
    · intro covered
      obtain ⟨_, ⟨other, mem, labelled, ensures, same⟩, safe⟩ := covered
      exact ⟨other, mem, labelled, ensures, same ▸ safe⟩
    · intro covered
      obtain ⟨other, mem, labelled, ensures, safe⟩ := covered
      exact ⟨other.id, ⟨other, mem, labelled, ensures, rfl⟩, safe⟩
  rw [← any_safe]
  by_cases empty : supporters = []
  · simp [empty]
  · rw [if_neg empty]
    by_cases safe : supporters.any (fun m => unthreatened placed anc p (some m) none
        (fun c => (members placed task).all (fun m => before anc m c))) = true
    · simp only [safe, if_true]
    · simp [safe]

end Others

theorem findRecord_clean {records : List (Json × SkillRecordV0)} {node : Node}
    {pairs : List (Node × SkillRecordV0)}
    (found : findRecord records node = .ok (pairs, [])) :
    ∃ record, pairs = [(node, record)] ∧ recordFor records node.skill = some record := by
  obtain ⟨_, _, rest⟩ := of_bind found
  cases known : recordFor records node.skill with
  | none =>
      rw [known] at rest
      cases rest
  | some record =>
      rw [known] at rest
      cases rest
      exact ⟨record, rfl, rfl⟩

theorem findRecords_clean {records : List (Json × SkillRecordV0)} {nodes : List Node}
    {found : List (List (Node × SkillRecordV0) × List String)}
    (ran : List.Forall₂ (fun node result => findRecord records node = .ok result) nodes found)
    (clean : (found.map Prod.snd).flatten = []) :
    (found.map Prod.fst).flatten.map Prod.fst = nodes ∧
      ∀ pair ∈ (found.map Prod.fst).flatten,
        recordFor records pair.1.skill = some pair.2 := by
  induction ran with
  | nil => exact ⟨rfl, List.forall_mem_nil _⟩
  | @cons node result nodes found here _ ih =>
      obtain ⟨pairs, problems⟩ := result
      rw [List.map_cons, List.flatten_cons, List.append_eq_nil_iff] at clean
      obtain ⟨none, cleanRest⟩ := clean
      cases none
      obtain ⟨record, shape, known⟩ := findRecord_clean here
      obtain ⟨nodesEq, each⟩ := ih cleanRest
      rw [List.map_cons, List.flatten_cons, shape]
      refine ⟨by rw [List.map_append, nodesEq]; rfl, ?_⟩
      intro pair mem
      rcases List.mem_append.mp mem with atHead | later
      · cases List.mem_singleton.mp atHead
        exact known
      · exact each pair later

theorem place_clean {pair : Node × SkillRecordV0} {placed : Placed}
    (done : place pair = .ok placed) :
    placed.node = pair.1 ∧ placed.record = pair.2 ∧
      contractOf placed.node placed.record = .ok placed.contract := by
  obtain ⟨contract, computed, rest⟩ := of_bind done
  cases rest
  exact ⟨rfl, rfl, computed⟩

theorem indexNodes_inOrder {nodes : List Node} (inOrder : InOrder nodes) :
    (indexNodes nodes Dict.empty).2 = [] :=
  (indexNodes_of_nodup inOrder.distinct (fun _ _ never => by cases never)).1

theorem edge_iff {nodes : List Node} (inOrder : InOrder nodes) {a b : String} :
    Edge (indexNodes nodes Dict.empty).1 a b ↔ ∃ node ∈ nodes, node.id = b ∧ a ∈ node.after := by
  obtain ⟨_, _, found, others⟩ := indexNodes_clean (indexNodes_inOrder inOrder)
  unfold Edge afterOf
  constructor
  · intro edge
    by_cases declared : b ∈ nodes.map Node.id
    · obtain ⟨node, mem, same⟩ := List.mem_map.mp declared
      subst same
      rw [found node mem] at edge
      exact ⟨node, mem, rfl, edge⟩
    · rw [others b declared] at edge
      cases edge
  · intro edge
    obtain ⟨node, mem, same, after⟩ := edge
    subst same
    rw [found node mem]
    exact after

theorem before_iff_precedes {graph : ExecutionGraph} (inOrder : InOrder graph.nodes)
    {a b : String} :
    before (ancestors (indexNodes graph.nodes Dict.empty).1).anc a b = true ↔
      Precedes graph a b := by
  have edges : Edge (indexNodes graph.nodes Dict.empty).1 =
      fun a b => ∃ node ∈ graph.nodes, node.id = b ∧ a ∈ node.after :=
    funext fun a => funext fun b => propext (edge_iff inOrder)
  rw [before_iff_transGen inOrder.ranked, Precedes, edges]

section Judgement

variable {graph : ExecutionGraph} {records : List (Json × SkillRecordV0)} {facts : List PredRef}
  {objects : List String}

theorem problems_eq_nil_iff (inOrder : InOrder graph.nodes) {placed : List Placed}
    (nodesEq : placed.map Placed.node = graph.nodes) {known : List String} :
    let anc := (ancestors (indexNodes graph.nodes Dict.empty).1).anc
    collect (groundedProblems placed anc objects) placed = .ok [] ∧
        placed.flatMap (supportedProblems placed anc known) = [] ∧
        graph.tasks.flatMap (coveredProblems placed anc) = [] ↔
      ProductsParse placed (Precedes graph) ∧
        (∀ here ∈ placed, Grounded placed (Precedes graph) objects here) ∧
        (∀ here ∈ placed, Supported placed (Precedes graph) known here) ∧
        ∀ task ∈ graph.tasks, Covered placed (Precedes graph) task := by
  intro anc
  have distinct : (placed.map Placed.id).Nodup := by
    have ids : placed.map Placed.id = graph.nodes.map Node.id := by
      rw [← nodesEq, List.map_map]
      rfl
    rw [ids]
    exact inOrder.distinct
  have agree : ∀ a b, before anc a b = true ↔ Precedes graph a b :=
    fun _ _ => before_iff_precedes inOrder
  simp only [collect_eq_nil_iff, groundedProblems_eq_nil_iff distinct agree,
    List.flatMap_eq_nil_iff, supportedProblems_eq_nil_iff distinct agree,
    coveredProblems_eq_nil_iff distinct agree, forall_and, ProductsParse, and_assoc]

theorem legal_of_accepted (inOrder : InOrder graph.nodes) {ok : Bool}
    (accepted : validateGraph graph records facts objects = .ok (ok, [])) :
    Legal graph records facts objects := by
  unfold validateGraph at accepted
  obtain ⟨found, resolved, accepted⟩ := of_bind accepted
  obtain ⟨known, canonicalized, accepted⟩ := of_bind accepted
  by_cases clean : (indexNodes graph.nodes Dict.empty).2 ++ (found.map Prod.snd).flatten ++
      (ancestors (indexNodes graph.nodes Dict.empty).1).problems = []
  · simp only [clean, ne_eq, not_true_eq_false, if_false] at accepted
    obtain ⟨typed, typing, accepted⟩ := of_bind accepted
    obtain ⟨bound, binding, accepted⟩ := of_bind accepted
    obtain ⟨placed, placing, accepted⟩ := of_bind accepted
    obtain ⟨grounded, grounding, accepted⟩ := of_bind accepted
    have empty := congrArg Prod.snd (Except.ok.inj accepted)
    simp only [List.append_eq_nil_iff] at empty
    obtain ⟨⟨⟨⟨noTyped, noBound⟩, noGrounded⟩, noSupported⟩, noCovered⟩ := empty
    rw [noTyped] at typing
    rw [noBound] at binding
    rw [noGrounded] at grounding
    rw [List.append_eq_nil_iff, List.append_eq_nil_iff] at clean
    obtain ⟨pairsEq, recorded⟩ :=
      findRecords_clean (mapM_eq_ok_iff.mp resolved) clean.1.2
    have nodesEq : placed.map Placed.node = graph.nodes :=
      (map_eq_of_mapM placing (fun _ _ done => (place_clean done).1)).trans pairsEq
    have origin : ∀ here ∈ placed, (here.node, here.record) ∈ (found.map Prod.fst).flatten ∧
        contractOf here.node here.record = .ok here.contract := by
      intro here mem
      obtain ⟨pair, pairMember, done⟩ := exists_mem_of_mapM placing mem
      obtain ⟨nodeEq, recordEq, computed⟩ := place_clean done
      rw [nodeEq, recordEq] at computed ⊢
      exact ⟨pairMember, computed⟩
    obtain ⟨parses, entities, supports, covers⟩ :=
      (problems_eq_nil_iff inOrder nodesEq).mp ⟨grounding, noSupported, noCovered⟩
    refine ⟨placed, known, nodesEq, ?_, canonicalized, ?_, ?_, parses, entities, supports, covers⟩
    · intro here mem
      obtain ⟨pairMember, computed⟩ := origin here mem
      refine ⟨?_, recorded _ pairMember, computed⟩
      have nodeMember : here.node ∈ graph.nodes := nodesEq ▸ List.mem_map_of_mem mem
      obtain ⟨_, looked⟩ := returns_mapM_iff.mp ⟨found, resolved⟩ here.node nodeMember
      obtain ⟨_, hashed_, _⟩ := of_bind looked
      exact (hashed_eq_ok_iff _).mp hashed_
    · intro here mem
      exact typedProblems_eq_nil_iff.mp
        (collect_eq_nil_iff.mp typing _ (origin here mem).1)
    · intro here mem
      exact boundProblems_eq_nil_iff.mp
        (collect_eq_nil_iff.mp binding _ (origin here mem).1)
  · simp only [clean, ne_eq, not_false_eq_true, if_true] at accepted
    exact absurd (congrArg Prod.snd (Except.ok.inj accepted)) clean

theorem accepted_of_contracted (inOrder : InOrder graph.nodes) {placed : List Placed}
    {known : List String} (contracted : Contracted graph records facts objects placed known) :
    validateGraph graph records facts objects = .ok (true, []) := by
  have resolved : graph.nodes.mapM (findRecord records) =
      .ok (placed.map (fun here => ([(here.node, here.record)], []))) := by
    rw [← contracted.nodes, mapM_eq_ok_iff, List.forall₂_map_left_iff,
      List.forall₂_map_right_iff, List.forall₂_same]
    intro here mem
    obtain ⟨hashable, recorded, _⟩ := contracted.contract here mem
    rw [findRecord, (hashed_eq_ok_iff _).mpr hashable]
    simp [recorded]
  have pairs : ((placed.map (fun here => ([(here.node, here.record)],
      ([] : List String)))).map Prod.fst).flatten =
      placed.map (fun here => (here.node, here.record)) := by
    rw [List.map_map, ← List.flatMap_def]
    exact List.map_eq_flatMap.symm
  have silent : ((placed.map (fun here => ([(here.node, here.record)],
      ([] : List String)))).map Prod.snd).flatten = [] := by
    rw [List.flatten_eq_nil_iff]
    intro problems mem
    obtain ⟨_, inner, same⟩ := List.mem_map.mp mem
    obtain ⟨here, _, pairEq⟩ := List.mem_map.mp inner
    rw [← same, ← pairEq]
  have placing : (placed.map (fun here => (here.node, here.record))).mapM place = .ok placed := by
    rw [mapM_eq_ok_iff, List.forall₂_map_left_iff, List.forall₂_same]
    intro here mem
    rw [place, (contracted.contract here mem).2.2]
    rfl
  have typing : collect (typedProblems (graph.tasks.map Task.id))
      (placed.map (fun here => (here.node, here.record))) = .ok [] := by
    rw [collect_eq_nil_iff]
    intro pair mem
    obtain ⟨here, held, same⟩ := List.mem_map.mp mem
    exact same ▸ typedProblems_eq_nil_iff.mpr (contracted.typed here held)
  have binding : collect boundProblems
      (placed.map (fun here => (here.node, here.record))) = .ok [] := by
    rw [collect_eq_nil_iff]
    intro pair mem
    obtain ⟨here, held, same⟩ := List.mem_map.mp mem
    exact same ▸ boundProblems_eq_nil_iff.mpr (contracted.bound here held)
  obtain ⟨grounding, noSupported, noCovered⟩ :=
    (problems_eq_nil_iff inOrder contracted.nodes).mpr
      ⟨contracted.parses, contracted.grounded, contracted.supported, contracted.covered⟩
  have indexed := indexNodes_inOrder inOrder
  unfold validateGraph
  simp only [resolved, contracted.facts, bind_ok, indexed, silent, pairs,
    ancestors_clean inOrder.ranked, List.append_nil, ne_eq, not_true_eq_false, if_false, typing,
    binding, placing, grounding, noSupported, noCovered]
  rfl

theorem validateGraph_accepts_iff (inOrder : InOrder graph.nodes) :
    (∃ ok, validateGraph graph records facts objects = .ok (ok, [])) ↔
      Legal graph records facts objects := by
  constructor
  · intro accepted
    obtain ⟨ok, judged⟩ := accepted
    exact legal_of_accepted inOrder judged
  · intro legal
    obtain ⟨placed, known, contracted⟩ := legal
    exact ⟨true, accepted_of_contracted inOrder contracted⟩

end Judgement

end Protocol
end PhysicalHarness
