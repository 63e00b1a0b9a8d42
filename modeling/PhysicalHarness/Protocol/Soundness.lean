import PhysicalHarness.Lib.CausalLink
import PhysicalHarness.Protocol.Contracts

namespace PhysicalHarness
namespace Protocol

open Python Fallible
open Relation (TransGen)

section

variable [Host]

/-!
# A legal graph runs in every order

`validate_graph` looks at a graph once, before anything runs, and a scheduler
may later run the nodes in any order that respects `after`.  The result here is
that the five checks are enough for all these orders: whenever a node is
reached, its instantiated requirements hold, and when the last node of a task
has run, the task's goals hold.

The meaning of a run is the abstract one of `CausalLink`: a node deletes its
clobbers and then adds its ensures, as sets of canonical references.
-/

/-- The contract of the node with this id, from the record its skill names. -/
def HasContract (graph : ExecutionGraph) (records : List (Json × SkillRecordV0))
    (id : String) (contract : Contract) : Prop :=
  ∃ node ∈ graph.nodes, node.id = id ∧
    ∃ record, recordFor records node.skill = some record ∧
      contractOf node record = .ok contract

/-- What running a node does to the facts. -/
def effects (graph : ExecutionGraph) (records : List (Json × SkillRecordV0)) :
    CausalLink.Effects String String where
  add := fun id => {p | ∃ contract, HasContract graph records id contract ∧ p ∈ contract.ensures}
  del := fun id => {p | ∃ contract, HasContract graph records id contract ∧ p ∈ contract.clobbers}

/-- The canonical facts a run starts from. -/
def canonicalFacts (facts : List PredRef) : Set String :=
  {p | ∃ fact ∈ facts, predRefStr fact = .ok p}

/-- The node with this id carries the label of the task. -/
def Labelled (graph : ExecutionGraph) (id : String) (task : Task) : Prop :=
  ∃ node ∈ graph.nodes, node.id = id ∧ node.task = .str task.id

/-- A total order of the node ids in which every dependency comes first. -/
structure Linearizes (graph : ExecutionGraph) (order : List String) : Prop where
  perm : order.Perm (graph.nodes.map Node.id)
  after : ∀ node ∈ graph.nodes, ∀ a ∈ node.after, order.idxOf a < order.idxOf node.id

structure Accepted (graph : ExecutionGraph) (records : List (Json × SkillRecordV0))
    (facts : List PredRef) (placed : List Placed) (known : List String) : Prop where
  distinct : (graph.nodes.map Node.id).Nodup
  nodes : placed.map Placed.node = graph.nodes
  contract : ∀ here ∈ placed, recordFor records here.node.skill = some here.record ∧
    contractOf here.node here.record = .ok here.contract
  facts : facts.mapM predRefStr = .ok known
  indexed : ∀ node ∈ graph.nodes,
    (indexNodes graph.nodes Dict.empty).1.get? node.id = some node
  complete : ∀ id, id ∉ graph.nodes.map Node.id →
    (indexNodes graph.nodes Dict.empty).1.get? id = none
  supported : ∀ here ∈ placed, supportedProblems placed
    (ancestors (indexNodes graph.nodes Dict.empty).1).anc known here = []
  covered : ∀ task ∈ graph.tasks, coveredProblems placed
    (ancestors (indexNodes graph.nodes Dict.empty).1).anc task = []

theorem accepted_of_legal {graph : ExecutionGraph} {records : List (Json × SkillRecordV0)}
    {facts : List PredRef} {objects : List String}
    (legal : validateGraph graph records facts objects = .ok (true, [])) :
    ∃ placed known, Accepted graph records facts placed known := by
  unfold validateGraph at legal
  obtain ⟨found, resolved, legal⟩ := of_bind legal
  obtain ⟨known, canonicalized, legal⟩ := of_bind legal
  by_cases clean : (indexNodes graph.nodes Dict.empty).2 ++ (found.map Prod.snd).flatten ++
      (ancestors (indexNodes graph.nodes Dict.empty).1).problems = []
  · simp only [clean, ne_eq, not_true_eq_false, if_false] at legal
    obtain ⟨typed, _, legal⟩ := of_bind legal
    obtain ⟨bound, _, legal⟩ := of_bind legal
    obtain ⟨placed, placing, legal⟩ := of_bind legal
    obtain ⟨grounded, _, legal⟩ := of_bind legal
    have empty := congrArg Prod.snd (Except.ok.inj legal)
    simp only [List.append_eq_nil_iff, List.flatMap_eq_nil_iff] at empty
    rw [List.append_eq_nil_iff, List.append_eq_nil_iff] at clean
    obtain ⟨distinct, _, indexed, complete⟩ := indexNodes_clean clean.1.1
    obtain ⟨pairsEq, recorded⟩ :=
      findRecords_clean (mapM_eq_ok_iff.mp resolved) clean.1.2
    have nodesEq : placed.map Placed.node = graph.nodes :=
      (map_eq_of_mapM placing (fun _ _ done => (place_clean done).1)).trans pairsEq
    refine ⟨placed, known, distinct, nodesEq, ?_, canonicalized, indexed, ?_, empty.1.2, empty.2⟩
    · intro here mem
      obtain ⟨pair, pairMember, done⟩ := exists_mem_of_mapM placing mem
      obtain ⟨nodeEq, recordEq, computed⟩ := place_clean done
      exact ⟨by rw [nodeEq, recordEq]; exact recorded pair pairMember, computed⟩
    · intro id absent
      exact complete id absent
  · simp only [clean, ne_eq, not_false_eq_true, if_true] at legal
    cases legal

/-! ## Contracts of an accepted graph -/

section

variable {graph : ExecutionGraph} {records : List (Json × SkillRecordV0)}
  {facts : List PredRef} {placed : List Placed} {known : List String}

namespace Accepted

variable (accepted : Accepted graph records facts placed known)

include accepted

variable {here : Placed} {order : List String}

theorem mem_nodes (mem : here ∈ placed) : here.node ∈ graph.nodes :=
  accepted.nodes ▸ List.mem_map_of_mem mem

theorem exists_placed {node : Node} (mem : node ∈ graph.nodes) :
    ∃ here ∈ placed, here.node = node := by
  rw [← accepted.nodes] at mem
  exact List.mem_map.mp mem

theorem ids_eq : placed.map Placed.id = graph.nodes.map Node.id := by
  rw [← accepted.nodes, List.map_map]
  rfl

theorem eq_of_id {first second : Placed} (left : first ∈ placed) (right : second ∈ placed)
    (same : first.id = second.id) : first = second := by
  have distinct : (placed.map Placed.id).Nodup := accepted.ids_eq ▸ accepted.distinct
  exact List.inj_on_of_nodup_map distinct left right same

theorem hasContract (mem : here ∈ placed) :
    HasContract graph records here.id here.contract :=
  ⟨here.node, accepted.mem_nodes mem, rfl, here.record, accepted.contract here mem⟩

theorem contract_eq (mem : here ∈ placed) {contract : Contract}
    (has : HasContract graph records here.id contract) : contract = here.contract := by
  obtain ⟨node, nodeMember, sameId, record, recorded, computed⟩ := has
  obtain ⟨other, otherMember, nodeEq⟩ := accepted.exists_placed nodeMember
  subst nodeEq
  have same := accepted.eq_of_id otherMember mem sameId
  subst same
  obtain ⟨expected, contracted⟩ := accepted.contract other mem
  rw [recorded] at expected
  cases expected
  rw [computed] at contracted
  exact Except.ok.inj contracted

theorem mem_add (mem : here ∈ placed) {p : String} (ensured : p ∈ here.contract.ensures) :
    p ∈ (effects graph records).add here.id :=
  ⟨here.contract, accepted.hasContract mem, ensured⟩

theorem clobbers_of_mem_del (mem : here ∈ placed) {p : String}
    (deleted : p ∈ (effects graph records).del here.id) : p ∈ here.contract.clobbers := by
  obtain ⟨contract, has, clobbered⟩ := deleted
  exact accepted.contract_eq mem has ▸ clobbered

theorem mem_canonicalFacts {p : String} (mem : p ∈ known) : p ∈ canonicalFacts facts := by
  obtain ⟨fact, factMember, canonicalized⟩ := exists_mem_of_mapM accepted.facts mem
  exact ⟨fact, factMember, canonicalized⟩

theorem edge_declared {a b : String}
    (edge : Edge (indexNodes graph.nodes Dict.empty).1 a b) :
    ∃ node ∈ graph.nodes, node.id = b ∧ a ∈ node.after := by
  unfold Edge afterOf at edge
  by_cases declared : b ∈ graph.nodes.map Node.id
  · obtain ⟨node, mem, same⟩ := List.mem_map.mp declared
    subst same
    rw [accepted.indexed node mem] at edge
    exact ⟨node, mem, rfl, edge⟩
  · rw [accepted.complete b declared] at edge
    cases edge

theorem forward (linear : Linearizes graph order) {a b : String}
    (reaches : TransGen (Edge (indexNodes graph.nodes Dict.empty).1) a b) :
    order.idxOf a < order.idxOf b := by
  induction reaches with
  | single edge =>
      obtain ⟨node, mem, same, declared⟩ := accepted.edge_declared edge
      exact same ▸ linear.after node mem _ declared
  | tail _ edge ih =>
      obtain ⟨node, mem, same, declared⟩ := accepted.edge_declared edge
      exact Nat.lt_trans ih (same ▸ linear.after node mem _ declared)

theorem respects (linear : Linearizes graph order) :
    CausalLink.Respects (fun a b =>
      before (ancestors (indexNodes graph.nodes Dict.empty).1).anc a b = true) order where
  nodup := linear.perm.nodup_iff.mpr accepted.distinct
  forward := fun _ _ precedes _ _ =>
    accepted.forward linear (transGen_of_before precedes)

theorem exists_placed_of_mem_order (linear : Linearizes graph order) {id : String}
    (mem : id ∈ order) : ∃ here ∈ placed, here.id = id := by
  have declared := linear.perm.mem_iff.mp mem
  rw [← accepted.ids_eq] at declared
  exact List.mem_map.mp declared

theorem mem_order (linear : Linearizes graph order) (mem : here ∈ placed) : here.id ∈ order :=
  linear.perm.mem_iff.mpr (List.mem_map_of_mem (accepted.mem_nodes mem))

end Accepted

theorem Accepted.labelled_iff (accepted : Accepted graph records facts placed known) (task : Task)
    (id : String) : id ∈ members placed task ↔ Labelled graph id task := by
  rw [mem_members, Labelled]
  constructor
  · rintro ⟨here, mem, label, same⟩
    exact ⟨here.node, accepted.mem_nodes mem, same, label⟩
  · rintro ⟨node, mem, same, label⟩
    obtain ⟨here, placedMember, nodeEq⟩ := accepted.exists_placed mem
    subst nodeEq
    exact ⟨here, placedMember, label, same⟩

theorem Accepted.requires_hold (accepted : Accepted graph records facts placed known)
    {order : List String} (linear : Linearizes graph order) {first : List String}
    {here : Placed} {second : List String} (split : order = first ++ here.id :: second)
    (mem : here ∈ placed) {p : String} (required : p ∈ here.contract.requires) :
    p ∈ CausalLink.exec (effects graph records) (canonicalFacts facts) first := by
  have respects := accepted.respects linear
  have supported := (supportedProblems_eq_nil_iff (accepted.ids_eq ▸ accepted.distinct)
    (fun _ _ => Iff.rfl)).mp (accepted.supported here mem)
  rcases supported p required with ⟨initial, safe⟩ | ⟨supporter, supporterMember, precedes, ensured, safe⟩
  · apply CausalLink.initial_link respects split (accepted.mem_canonicalFacts initial)
    intro c inOrder deleted
    obtain ⟨other, otherMember, same⟩ := accepted.exists_placed_of_mem_order linear inOrder
    subst same
    rcases safe other otherMember (accepted.clobbers_of_mem_del otherMember deleted) with
      never | consumer | never | ⟨_, never, _⟩ | ⟨_, same, after⟩
    · cases never
    · exact Or.inl (Option.some.inj consumer).symm
    · cases never
    · cases never
    · cases same
      exact Or.inr after
  · have supporterInOrder := accepted.mem_order linear supporterMember
    apply CausalLink.supporter_link respects split supporterInOrder precedes
      (accepted.mem_add supporterMember ensured)
    intro c inOrder deleted
    obtain ⟨other, otherMember, same⟩ := accepted.exists_placed_of_mem_order linear inOrder
    subst same
    rcases safe other otherMember (accepted.clobbers_of_mem_del otherMember deleted) with
      same | consumer | never | ⟨_, same, earlier⟩ | ⟨_, same, later⟩
    · exact Or.inl (Option.some.inj same).symm
    · exact Or.inr (Or.inl (Option.some.inj consumer).symm)
    · cases never
    · cases same
      exact Or.inr (Or.inr (Or.inl earlier))
    · cases same
      exact Or.inr (Or.inr (Or.inr later))

theorem Accepted.goals_hold (accepted : Accepted graph records facts placed known)
    {order : List String} (linear : Linearizes graph order) {task : Task}
    (declared : task ∈ graph.tasks) {first : List String} {last : String}
    {second : List String} (split : order = first ++ last :: second)
    (labelled : Labelled graph last task)
    (finished : ∀ other ∈ second, ¬ Labelled graph other task) {p : String}
    (goal : p ∈ task.goal) :
    p ∈ CausalLink.exec (effects graph records) (canonicalFacts facts) (first ++ [last]) := by
  have covered := (coveredProblems_eq_nil_iff (accepted.ids_eq ▸ accepted.distinct)
    (fun _ _ => Iff.rfl)).mp (accepted.covered task declared)
  obtain ⟨supporter, supporterMember, label, ensured, safe⟩ := covered p goal
  have inGroup : supporter.id ∈ members placed task :=
    mem_members.mpr ⟨supporter, supporterMember, label, rfl⟩
  have inside : ∀ other ∈ members placed task, other ∈ first ++ [last] := by
    intro other mem
    have label := (accepted.labelled_iff task other).mp mem
    have inOrder : other ∈ order := by
      obtain ⟨node, nodeMember, same, _⟩ := label
      exact linear.perm.mem_iff.mpr (List.mem_map.mpr ⟨node, nodeMember, same⟩)
    rw [split] at inOrder
    rcases List.mem_append.mp inOrder with early | rest
    · exact List.mem_append_left _ early
    · rcases List.mem_cons.mp rest with same | late
      · exact List.mem_append_right _ (List.mem_singleton.mpr same)
      · exact absurd label (finished other late)
  apply CausalLink.group_link (accepted.respects linear) split inside inGroup
    ((accepted.labelled_iff task last).mpr labelled)
    (accepted.mem_add supporterMember ensured)
  intro c inOrder deleted
  obtain ⟨other, otherMember, same⟩ := accepted.exists_placed_of_mem_order linear inOrder
  subst same
  rcases safe other otherMember (accepted.clobbers_of_mem_del otherMember deleted) with
    same | never | excused | ⟨_, same, earlier⟩ | ⟨_, never, _⟩
  · exact Or.inl (Option.some.inj same).symm
  · cases never
  · refine Or.inr (Or.inr (fun id inMembers => ?_))
    obtain ⟨mem, held, label, same⟩ := mem_members.mp inMembers
    exact same ▸ excused mem held label
  · cases same
    exact Or.inr (Or.inl earlier)
  · cases never

end

/-- Soundness of Legal(G): whatever admissible order the nodes run in, every
requirement holds when its node is reached, and every goal of a task holds right
after the last node of the task. -/
theorem legal_sound (graph : ExecutionGraph) (records : List (Json × SkillRecordV0))
    (facts : List PredRef) (objects : List String)
    (legal : validateGraph graph records facts objects = .ok (true, []))
    (order : List String) (linear : Linearizes graph order) :
    (∀ first id second, order = first ++ id :: second →
      ∃ contract, HasContract graph records id contract ∧ ∀ p ∈ contract.requires,
        p ∈ CausalLink.exec (effects graph records) (canonicalFacts facts) first) ∧
    (∀ task ∈ graph.tasks, ∀ first last second, order = first ++ last :: second →
      Labelled graph last task → (∀ other ∈ second, ¬ Labelled graph other task) →
        ∀ p ∈ task.goal, p ∈ CausalLink.exec (effects graph records) (canonicalFacts facts)
          (first ++ [last])) := by
  obtain ⟨placed, known, accepted⟩ := accepted_of_legal legal
  constructor
  · intro first id second split
    have inOrder : id ∈ order := split ▸ List.mem_append_right _ List.mem_cons_self
    obtain ⟨here, member, same⟩ := accepted.exists_placed_of_mem_order linear inOrder
    subst same
    exact ⟨here.contract, accepted.hasContract member, fun p required =>
      accepted.requires_hold linear split member required⟩
  · intro task declared first last second split labelled finished p goal
    exact accepted.goals_hold linear declared split labelled finished goal

end

section Example

local instance : Host := asciiHost

private def cubeNode (id : String) (after : List String) : Node where
  id := id
  task := .str "main"
  skill := .str id
  args := [("object", .str "cube")]
  after := after
  onFail := []
  executor := .null
  kind := .str "manipulate"

private def lookPickPlace : ExecutionGraph where
  mission := "tidy"
  seed := 0
  tasks := [⟨"main", ["on(cube)"]⟩]
  nodes := [cubeNode "pick" [], cubeNode "look" [], cubeNode "place" ["pick"]]

private def cubeRecord (id : String) (requires ensures clobbers : List String) :
    Json × SkillRecordV0 :=
  (.str id, { id := .str id, name := .str id, args := [("object", "entity")],
              requires, ensures, clobbers })

private def cubeRecords : List (Json × SkillRecordV0) :=
  [cubeRecord "pick" ["clear(object)"] ["held(object)"] ["clear(object)"],
   cubeRecord "look" [] [] [],
   cubeRecord "place" ["held(object)"] ["on(object)"] ["held(object)"]]

theorem legal_sound_lookPickPlace :
    ∃ contract, HasContract lookPickPlace cubeRecords "place" contract ∧
      ∀ p ∈ contract.requires, p ∈ CausalLink.exec (effects lookPickPlace cubeRecords)
        (canonicalFacts [refOfStr "clear(cube)"]) ["look", "pick"] :=
  (legal_sound lookPickPlace cubeRecords [refOfStr "clear(cube)"] ["cube"]
    (by decide +kernel) ["look", "pick", "place"]
    ⟨by decide, by decide⟩).1 ["look", "pick"] "place" [] rfl

end Example

end Protocol
end PhysicalHarness
