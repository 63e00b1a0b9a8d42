import PhysicalHarness.Protocol.Monotone
import PhysicalHarness.Task.PerObject
import PhysicalHarness.Task.Recovery
import PhysicalHarness.Task.Totality

namespace PhysicalHarness
namespace Task

open Python Protocol Loop
open Fallible

section

variable [Host]

/-!
# Repaired plans

`insert_recovery` puts one recovery in front of a node of an accepted plan.  When no node has the
recovery's id yet, every stage of the gate passes again: the new node needs what the repaired node
needed, it takes no arguments and names no object, and the finished nodes stay where they were.
Whether the recovery is already there is decided by the dependencies of the repaired node alone.
-/

/-- The plan that `insert_recovery` returns. -/
def repaired (plan : Json) (target : String) (strategy : Json) : Json :=
  plan.setField "nodes" (.arr ((nodesOf plan).flatMap (insertAt target strategy)))

def waiting (node : Json) : Json :=
  node.setField "after" (.arr ((depsOf node ++ [recoverId (idOf node)]).map .str))

section

variable {plan : Json} {target : String} (strategy : Json)

omit [Host] in
theorem insertRecovery_of_listed (listed : Listed plan) (known : target ∈ idsOf plan) :
    insertRecovery plan target strategy = .ok (repaired plan target strategy) := by
  have found : (nodesOf plan).mapM (insertBefore target strategy) = .ok ((nodesOf plan).map
      (fun node => (insertAt target strategy node, decide (idOf node = target)))) := by
    rw [mapM_eq_ok_iff, List.forall₂_map_right_iff, List.forall₂_same]
    exact fun node mem => insertBefore_of_reads (listed.reads node mem) target strategy
  have hit : ((nodesOf plan).map (fun node =>
      (insertAt target strategy node, decide (idOf node = target)))).any Prod.snd = true := by
    obtain ⟨node, mem, same⟩ := List.mem_map.mp known
    rw [List.any_eq_true]
    exact ⟨_, List.mem_map_of_mem mem, decide_eq_true same⟩
  have flat : ((nodesOf plan).map (fun node =>
      (insertAt target strategy node, decide (idOf node = target)))).map Prod.fst =
        (nodesOf plan).map (insertAt target strategy) := by
    rw [List.map_map]
    rfl
  rw [insertRecovery, item_of_get? listed.nodes, bind_ok, Json.iter, bind_ok,
    found, bind_ok, if_pos hit, flat, ← List.flatMap_def]
  rfl

omit [Host] in
theorem repaired_of_waits (listed : Listed plan)
    (waits : ∀ node ∈ nodesOf plan, idOf node = target → recoverId target ∈ depsOf node) :
    repaired plan target strategy = plan := by
  have stays : (nodesOf plan).flatMap (insertAt target strategy) = nodesOf plan := by
    have each : ∀ node ∈ nodesOf plan, insertAt target strategy node = [node] := by
      intro node mem
      unfold insertAt
      rw [if_neg (fun both => both.2 (waits node mem both.1))]
    rw [List.flatMap_congr each, List.flatMap_singleton']
  have nodes := listed.nodes
  rw [repaired, stays]
  cases plan with
  | obj fields => exact congrArg Json.obj (Assoc.set_of_get? nodes)
  | _ => cases nodes

omit [Host] in
theorem listed_repaired (listed : Listed plan) (known : target ∈ idsOf plan) :
    Listed (repaired plan target strategy) ∧
      nodesOf (repaired plan target strategy) =
        (nodesOf plan).flatMap (insertAt target strategy) ∧
      ∀ name, name ≠ "nodes" → (repaired plan target strategy).get? name = plan.get? name :=
  insertRecovery_eq_ok listed (insertRecovery_of_listed strategy listed known)

omit [Host] in
theorem repaired_repaired (listed : Listed plan) (known : target ∈ idsOf plan) :
    repaired (repaired plan target strategy) target strategy = repaired plan target strategy := by
  obtain ⟨again, nodes, _⟩ := listed_repaired strategy listed known
  apply repaired_of_waits strategy again
  intro node mem same
  rw [nodes] at mem
  obtain ⟨source, _, inside⟩ := List.mem_flatMap.mp mem
  unfold insertAt at inside
  split at inside
  · rename_i here
    rcases List.mem_cons.mp inside with isRecovery | isNode
    · subst isRecovery
      rw [idOf_recoveryNode, here.1] at same
      exact absurd same (recoverId_ne target)
    · rw [List.mem_singleton.mp isNode, depsOf_setField_after, here.1]
      exact List.mem_append_right _ (List.mem_singleton.mpr rfl)
  · rename_i other
    rw [List.mem_singleton.mp inside] at same ⊢
    by_contra open_
    exact other ⟨same, open_⟩

end

structure Inserts (plan result : Json) (strategy : Json) (first : List Json) (node : Json)
    (rest : List Json) : Prop where
  split : nodesOf plan = first ++ node :: rest
  nodes : nodesOf result = first ++
    recoveryNode (idOf node) strategy ((depsOf node).map .str) :: waiting node :: rest
  fields : ∀ name, name ≠ "nodes" → result.get? name = plan.get? name
  listed : Listed result

omit [Host] in
theorem nodup_idsOf {plan : Json} {catalogue : Catalogue}
    (accepted : AcceptedNodes catalogue (nodesOf plan)) : (idsOf plan).Nodup := by
  have distinct := (accepted.inOrder (fun _ => rfl) (fun _ => rfl) :
    ViewsInOrder ((nodesOf plan).map PlanNode.ofJson)).distinct
  rw [List.map_map] at distinct
  exact distinct

omit [Host] in
theorem inserts_repaired {plan : Json} {catalogue : Catalogue} {target : String} (strategy : Json)
    (listed : Listed plan) (accepted : AcceptedNodes catalogue (nodesOf plan))
    (known : target ∈ idsOf plan) (fresh : recoverId target ∉ idsOf plan) :
    ∃ first node rest, idOf node = target ∧
      Inserts plan (repaired plan target strategy) strategy first node rest := by
  obtain ⟨again, nodes, fields⟩ := listed_repaired strategy listed known
  obtain ⟨node, mem, same⟩ := List.mem_map.mp known
  obtain ⟨first, rest, split⟩ := List.append_of_mem mem
  refine ⟨first, node, rest, same, split, ?_, fields, again⟩
  have distinct := nodup_idsOf accepted
  rw [idsOf, split, List.map_append, List.map_cons, same] at distinct
  have apart : ∀ other ∈ first ++ rest, insertAt target strategy other = [other] := by
    intro other inside
    unfold insertAt
    rw [if_neg]
    rintro ⟨named, _⟩
    have listedOther : idOf other ∈ first.map idOf ++ rest.map idOf := by
      rw [← List.map_append]
      exact List.mem_map_of_mem inside
    rw [named] at listedOther
    exact (List.nodup_cons.mp (List.nodup_middle.mp distinct)).1 listedOther
  have kept : ∀ part : List Json, (∀ other ∈ part, other ∈ first ++ rest) →
      part.flatMap (insertAt target strategy) = part := by
    intro part within
    rw [List.flatMap_congr (fun other inside => apart other (within other inside)),
      List.flatMap_singleton']
  have waits : recoverId target ∉ depsOf node := by
    intro depends
    have earlier := (accepted first node rest split).earlier _ depends
    apply fresh
    rw [idsOf, split, List.map_append]
    exact List.mem_append_left _ earlier
  rw [nodes, split, List.flatMap_append, List.flatMap_cons,
    kept first (fun _ inside => List.mem_append_left _ inside),
    kept rest (fun _ inside => List.mem_append_right _ inside), insertAt, if_pos ⟨same, waits⟩]
  rfl

omit [Host] in
theorem AcceptedNode.mono {catalogue : Catalogue} {earlier more : List String} {node : Json}
    (accepted : AcceptedNode catalogue earlier node) (fresh : idOf node ∉ more)
    (among : ∀ id ∈ earlier, id ∈ more) : AcceptedNode catalogue more node :=
  { accepted with
    fresh := fresh
    earlier := fun a depends => among a (accepted.earlier a depends) }

omit [Host] in
theorem recoverId_ne_empty (id : String) : recoverId id ≠ "" := by
  intro same
  have length := recoverId_length id
  rw [same] at length
  change 0 = _ at length
  omega

omit [Host] in
theorem acceptedNode_recovery {catalogue : Catalogue} {earlier : List String} {id strategy : String}
    {after : List String} (fresh : recoverId id ∉ earlier) (among : ∀ a ∈ after, a ∈ earlier) :
    AcceptedNode catalogue earlier (recoveryNode id (.str strategy) (after.map .str)) where
  form := rfl
  id := rfl
  nonempty := recoverId_ne_empty id
  fresh := fresh
  kind := ⟨.recovery, rfl⟩
  skill := rfl
  hashable := rfl
  known := Or.inr rfl
  args := rfl
  after := (nodeReads_recoveryNode id (.str strategy) after).after
  earlier := by
    have same : (PlanNode.ofJson (recoveryNode id (.str strategy) (after.map .str))).after = after :=
      depsOf_recoveryNode id (.str strategy) after
    rw [same]
    exact among

omit [Host] in
theorem ofJson_waiting (node : Json) :
    PlanNode.ofJson (waiting node) =
      { PlanNode.ofJson node with
        raw := waiting node
        after := depsOf node ++ [recoverId (idOf node)] } := by
  have after : (PlanNode.ofJson (waiting node)).after = depsOf node ++ [recoverId (idOf node)] :=
    depsOf_setField_after node _
  have id : (PlanNode.ofJson (waiting node)).id = (PlanNode.ofJson node).id :=
    idOf_setField_after node _
  have skill : (PlanNode.ofJson (waiting node)).skill = (PlanNode.ofJson node).skill := by
    simp [PlanNode.ofJson, waiting, Json.getD]
  have args : (PlanNode.ofJson (waiting node)).args = (PlanNode.ofJson node).args := by
    simp [PlanNode.ofJson, waiting, Json.getD]
  have view : PlanNode.ofJson (waiting node) =
      ⟨waiting node, (PlanNode.ofJson (waiting node)).id, (PlanNode.ofJson (waiting node)).skill,
        (PlanNode.ofJson (waiting node)).args, (PlanNode.ofJson (waiting node)).after⟩ := rfl
  rw [view, id, skill, args, after]

omit [Host] in
theorem getD_waiting (node : Json) {name : String} (other : name ≠ "after") (default : Json) :
    (waiting node).getD name default = node.getD name default := by
  simp [waiting, Json.getD, Ne.symm other]

omit [Host] in
theorem acceptedNode_waiting {catalogue : Catalogue} {earlier more : List String} {node : Json}
    (accepted : AcceptedNode catalogue earlier node) (fresh : idOf node ∉ more)
    (among : ∀ id ∈ earlier, id ∈ more) (recovers : recoverId (idOf node) ∈ more) :
    AcceptedNode catalogue more (waiting node) := by
  have reads := accepted.reads.setAfter (depsOf node ++ [recoverId (idOf node)])
  have kind : kindOf (waiting node) = kindOf node := getD_waiting node (by decide) _
  have view := ofJson_waiting node
  constructor
  · have form := accepted.form
    have keys : Assoc.keys (waiting node).fields = Assoc.keys node.fields := by
      have present : "after" ∈ Assoc.keys node.fields :=
        Assoc.mem_keys_of_get? (by rw [← Json.get?_eq_fields]; exact accepted.after)
      exact Assoc.keys_set_of_mem present _
    unfold nodeForm at form ⊢
    simp only [Bool.and_eq_true] at form ⊢
    rw [keys]
    exact ⟨⟨rfl, form.1.2⟩, form.2⟩
  · exact reads.id
  · rw [view]
    exact accepted.nonempty
  · rw [view]
    exact fresh
  · rw [kind]
    exact accepted.kind
  · exact reads.skill
  · rw [view]
    exact accepted.hashable
  · rw [view, kind]
    exact accepted.known
  · exact reads.args
  · exact reads.after
  · rw [view]
    intro a depends
    rcases List.mem_append.mp depends with old | new
    · exact among a (accepted.earlier a old)
    · exact List.mem_singleton.mp new ▸ recovers

omit [Host] in
theorem acceptedNodes_iff_always {catalogue : Catalogue} {nodes : List Json} :
    AcceptedNodes catalogue nodes ↔
      Always (fun past node => AcceptedNode catalogue (past.map idOf) node) nodes := Iff.rfl

omit [Host] in
theorem acceptedNodes_inserts {plan result : Json} {catalogue : Catalogue} {strategy : String}
    {first : List Json} {node : Json} {rest : List Json}
    (inserts : Inserts plan result (.str strategy) first node rest)
    (accepted : AcceptedNodes catalogue (nodesOf plan))
    (fresh : recoverId (idOf node) ∉ idsOf plan) : AcceptedNodes catalogue (nodesOf result) := by
  have distinct := nodup_idsOf accepted
  rw [idsOf, inserts.split] at fresh distinct
  rw [acceptedNodes_iff_always, inserts.split, always_append_iff, always_cons_iff] at accepted
  rw [acceptedNodes_iff_always, inserts.nodes, always_append_iff, always_cons_iff, always_cons_iff]
  obtain ⟨front, here, back⟩ := accepted
  rw [List.append_nil] at here
  rw [List.map_append, List.map_cons, List.mem_append, List.mem_cons] at fresh
  rw [List.map_append, List.map_cons] at distinct
  have notFirst : recoverId (idOf node) ∉ first.map idOf := fun mem => fresh (Or.inl mem)
  refine ⟨front, ?_, ?_, ?_⟩
  · rw [List.append_nil]
    exact acceptedNode_recovery notFirst here.earlier
  · rw [List.map_append, List.map_singleton, idOf_recoveryNode]
    apply acceptedNode_waiting here
    · rw [List.mem_append, List.mem_singleton]
      rintro (before | same)
      · exact here.fresh before
      · exact recoverId_ne _ same.symm
    · exact fun _ mem => List.mem_append_left _ mem
    · exact List.mem_append_right _ (List.mem_singleton.mpr rfl)
  · refine back.imp (fun past other mem there => ?_)
    apply there.mono
    · have apart : idOf other ≠ recoverId (idOf node) := by
        intro same
        exact fresh (Or.inr (Or.inr (same ▸ List.mem_map_of_mem mem)))
      have old := there.fresh
      simp only [List.map_append, List.map_cons, List.mem_append, List.mem_cons,
        idOf_recoveryNode] at old ⊢
      rintro (before | isRecovery | isNode | later)
      · exact old (Or.inl before)
      · exact apart isRecovery
      · rw [waiting, idOf_setField_after] at isNode
        exact old (Or.inr (Or.inl isNode))
      · exact old (Or.inr (Or.inr later))
    · intro id known
      simp only [List.map_append, List.map_cons, List.mem_append, List.mem_cons] at known ⊢
      rcases known with before | same | later
      · exact Or.inl before
      · rw [waiting, idOf_setField_after]
        exact Or.inr (Or.inr (Or.inl same))
      · exact Or.inr (Or.inr (Or.inr later))

/-! ## The types stay in order -/

variable {records : List (Json × SkillRecordV0)} {graph : ExecutionGraph} {record : SkillRecordV0}

theorem validateGraph_true {facts : List PredRef} {objects problems : List String}
    (judged : validateGraph graph records facts objects = .ok (true, problems)) :
    validateGraph graph records facts objects = .ok (true, []) := by
  have empty : problems = [] := by
    unfold validateGraph at judged
    obtain ⟨found, _, judged⟩ := of_bind judged
    obtain ⟨_, _, judged⟩ := of_bind judged
    by_cases clean : (indexNodes graph.nodes Dict.empty).2 ++ (found.map Prod.snd).flatten ++
        (ancestors (indexNodes graph.nodes Dict.empty).1).problems = []
    · simp only [clean, ne_eq, not_true_eq_false, if_false] at judged
      obtain ⟨_, _, judged⟩ := of_bind judged
      obtain ⟨_, _, judged⟩ := of_bind judged
      obtain ⟨_, _, judged⟩ := of_bind judged
      obtain ⟨_, _, judged⟩ := of_bind judged
      obtain ⟨none_, same⟩ := Prod.mk.inj (Except.ok.inj judged)
      rw [← same]
      exact List.isEmpty_iff.mp none_
    · simp only [clean, ne_eq, not_false_eq_true, if_true] at judged
      cases judged
  rw [judged, empty]

/-- What the gate asks of one node when no record has a contract. -/
structure TypedBy (tasks : List String) (records : List (Json × SkillRecordV0)) (node : Node)
    (record : SkillRecordV0) : Prop where
  hashable : node.skill.hashable = true
  found : recordFor records node.skill = some record
  free : ContractFree record
  entities : ∀ name, Assoc.get? record.args name ≠ some "entity"
  typed : WellTyped tasks node record
  unbound : node.executor = .null

theorem contractOf_free (free : ContractFree record) (node : Node) :
    contractOf node record = .ok ⟨[], [], []⟩ := by
  rw [contractOf, free.1, free.2.1, free.2.2]
  rfl

theorem legal_of_typedBy (noGoals : ∀ task ∈ graph.tasks, task.goal = [])
    (each : ∀ node ∈ graph.nodes, ∃ record,
      TypedBy (graph.tasks.map Protocol.Task.id) records node record) :
    Legal graph records [] [] := by
  have : Nonempty SkillRecordV0 := ⟨argRecord .null []⟩
  choose! recordOf typedBy using each
  have origin : ∀ here ∈ graph.nodes.map
      (fun node => (⟨node, recordOf node, ⟨[], [], []⟩⟩ : Placed)),
      here.contract = ⟨[], [], []⟩ ∧ here.record = recordOf here.node ∧
        here.node ∈ graph.nodes := by
    intro here mem
    obtain ⟨node, inside, same⟩ := List.mem_map.mp mem
    subst same
    exact ⟨rfl, rfl, inside⟩
  refine ⟨graph.nodes.map (fun node => ⟨node, recordOf node, ⟨[], [], []⟩⟩), [], ?_, ?_, rfl, ?_,
    ?_, ?_, ?_, ?_, ?_⟩
  · rw [List.map_map]
    exact List.map_id' _
  · intro here mem
    obtain ⟨contract, record, inside⟩ := origin here mem
    rw [contract, record]
    have held := typedBy here.node inside
    exact ⟨held.hashable, held.found, contractOf_free held.free _⟩
  · intro here mem
    obtain ⟨_, record, inside⟩ := origin here mem
    rw [record]
    exact (typedBy here.node inside).typed
  · intro here mem
    exact Or.inl (typedBy here.node (origin here mem).2.2).unbound
  · intro here _ m mem _ p ensured
    rw [(origin m mem).1] at ensured
    cases ensured
  · intro here mem arg _ entity
    obtain ⟨_, record, inside⟩ := origin here mem
    rw [record] at entity
    exact absurd entity ((typedBy here.node inside).entities arg.1)
  · intro here mem p required
    rw [(origin here mem).1] at required
    cases required
  · intro task mem p goal
    rw [noGoals task mem] at goal
    cases goal

theorem typed_of_legal_node {facts : List PredRef} {objects : List String}
    (legal : Legal graph records facts objects) {node : Node} (mem : node ∈ graph.nodes) :
    ∃ record, recordFor records node.skill = some record ∧
      WellTyped (graph.tasks.map Protocol.Task.id) node record := by
  obtain ⟨placed, _, contracted⟩ := legal
  rw [← contracted.nodes] at mem
  obtain ⟨here, inside, same⟩ := List.mem_map.mp mem
  subst same
  exact ⟨here.record, (contracted.contract here inside).2.1, contracted.typed here inside⟩

omit [Host] in
theorem recordFor_append (records more : List (Json × SkillRecordV0)) (skill : Json) :
    recordFor (records ++ more) skill = (recordFor records skill).or (recordFor more skill) := by
  rw [recordFor, List.find?_append, recordFor, recordFor]
  cases records.find? (fun entry => entry.1.eq skill) <;> rfl

omit [Host] in
theorem setDefault_cases (records : List (Json × SkillRecordV0)) (key : Json)
    (record : SkillRecordV0) :
    setDefault records key record = records ∨
      setDefault records key record = records ++ [(key, record)] := by
  unfold setDefault
  split
  · exact Or.inl rfl
  · exact Or.inr rfl

omit [Host] in
theorem exists_withRecoveries (records : List (Json × SkillRecordV0)) (nodes : List Json) :
    ∃ more, withRecoveries records nodes = records ++ more ∧
      ∀ entry ∈ more, entry.2.args = [] := by
  unfold withRecoveries
  induction nodes generalizing records with
  | nil => exact ⟨[], (List.append_nil _).symm, by simp⟩
  | cons node rest ih =>
      rw [List.foldl_cons]
      split
      · rcases setDefault_cases records (node.getD "skill" .null)
            { id := node.getD "skill" .null, name := node.getD "skill" .null } with kept | added
        · dsimp only
          rw [kept]
          exact ih records
        · dsimp only
          rw [added]
          obtain ⟨more, same, bare⟩ := ih (records ++ [(node.getD "skill" .null,
            { id := node.getD "skill" .null, name := node.getD "skill" .null })])
          refine ⟨_ :: more, by rw [same, List.append_assoc]; rfl, ?_⟩
          intro entry mem
          rcases List.mem_cons.mp mem with here | later
          · subst here
            rfl
          · exact bare entry later
      · exact ih records

omit [Host] in
theorem args_of_recordFor {nodes : List Json} {skill : Json}
    (found : recordFor (withRecoveries records nodes) skill = some record) :
    recordFor records skill = some record ∨ recordFor records skill = none ∧ record.args = [] := by
  obtain ⟨more, same, bare⟩ := exists_withRecoveries records nodes
  rw [same, recordFor_append] at found
  cases known : recordFor records skill with
  | some held =>
      rw [known] at found
      exact Or.inl found
  | none =>
      rw [known, Option.none_or] at found
      obtain ⟨entry, entryFound, recordEq⟩ := Option.map_eq_some_iff.mp found
      exact Or.inr ⟨rfl, recordEq ▸ bare entry (List.mem_of_find?_eq_some entryFound)⟩

omit [Host] in
theorem recordFor_outside {catalogue : Catalogue} {strategy : String}
    (outside : inCatalogue catalogue (.str strategy) = false) :
    recordFor (catalogueRecords catalogue) (.str strategy) = none := by
  rw [recordFor, Option.map_eq_none_iff, List.find?_eq_none]
  intro entry mem same
  obtain ⟨source, inside, entryEq⟩ := List.mem_map.mp mem
  subst entryEq
  have named := (Json.eq_str_iff _ _).mp same
  rw [inCatalogue, Bool.eq_false_iff] at outside
  apply outside
  rw [List.any_eq_true]
  refine ⟨source.1, List.mem_map_of_mem inside, ?_⟩
  rw [← named]
  exact Json.eq_self _

theorem planTasks_of_planToGraph {plan : Json} (built : planToGraph plan = .ok graph) :
    planTasks plan = .ok graph.tasks := by
  rw [planToGraph] at built
  obtain ⟨tasks, parsed, built⟩ := of_bind built
  obtain ⟨_, _, built⟩ := of_bind built
  obtain ⟨_, _, built⟩ := of_bind built
  obtain ⟨_, _, built⟩ := of_bind built
  obtain ⟨_, _, built⟩ := of_bind built
  obtain ⟨_, _, built⟩ := of_bind built
  obtain ⟨_, _, built⟩ := of_bind built
  cases built
  exact parsed

omit [Host] in
theorem no_entities {catalogue : Catalogue} {nodes : List Json} {skill : Json}
    (found : recordFor (withRecoveries (catalogueRecords catalogue) nodes) skill = some record)
    (name : String) : Assoc.get? record.args name ≠ some "entity" := by
  intro entity
  rcases args_of_recordFor found with listed | ⟨_, bare⟩
  · obtain ⟨entry, entryFound, same⟩ := Option.map_eq_some_iff.mp listed
    obtain ⟨source, _, entryEq⟩ := List.mem_map.mp (List.mem_of_find?_eq_some entryFound)
    subst same entryEq
    have mem := Assoc.mem_of_get? entity
    obtain ⟨arg, _, pair⟩ := List.mem_map.mp mem
    have named := congrArg Prod.snd pair
    cases kind : arg.2 <;> rw [kind] at named <;> simp [typeName] at named
  · rw [bare] at entity
    cases entity

structure SameCall (source other : Json) : Prop where
  skill : (PlanNode.ofJson other).skill = (PlanNode.ofJson source).skill
  args : (PlanNode.ofJson other).args = (PlanNode.ofJson source).args
  task : ∀ default, other.getD "task" default = source.getD "task" default

omit [Host] in
theorem sameCall_refl (source : Json) : SameCall source source := ⟨rfl, rfl, fun _ => rfl⟩

omit [Host] in
theorem sameCall_waiting (node : Json) : SameCall node (waiting node) where
  skill := by rw [ofJson_waiting]
  args := by rw [ofJson_waiting]
  task := fun default => getD_waiting node (by decide) default

omit [Host] in
theorem task_of_lifts {plan source : Json} {node : Node}
    (lifts : Lifts (typedPlan plan) (PlanNode.ofJson (withoutExecutor source)) node) :
    node.task = source.getD "task" (labelOf (typedPlan plan)) := by
  rw [lifts.task, PlanNode.task, ofJson_withoutExecutor, Json.getD, get?_withoutExecutor]
  rfl

section

variable {plan result : Json} {catalogue : Catalogue} {oracles : List String} {done : List Json}
  {requirements : List (String × Json)} {strategy : String} {first rest : List Json} {node : Json}

omit [Host] in
theorem Inserts.getD (inserts : Inserts plan result (.str strategy) first node rest) {name : String}
    (other : name ≠ "nodes") (default : Json) :
    result.getD name default = plan.getD name default := by
  rw [Json.getD, Json.getD, inserts.fields name other]

omit [Host] in
theorem Inserts.labelOf_eq (inserts : Inserts plan result (.str strategy) first node rest) :
    labelOf result = labelOf plan := by
  rw [labelOf, labelOf, inserts.getD (by decide)]

omit [Host] in
theorem Inserts.typedTasks_eq (inserts : Inserts plan result (.str strategy) first node rest) :
    (typedPlan result).getD "tasks" .null = (typedPlan plan).getD "tasks" .null := by
  simp [typedPlan, Json.getD, inserts.fields "tasks" (by decide)]

omit [Host] in
theorem Inserts.mem_iff (inserts : Inserts plan result (.str strategy) first node rest)
    {source : Json} (mem : source ∈ nodesOf result) :
    (∃ origin ∈ nodesOf plan, SameCall origin source ∧ idOf source = idOf origin) ∨
      source = recoveryNode (idOf node) (.str strategy) ((depsOf node).map .str) := by
  rw [inserts.nodes, List.mem_append, List.mem_cons, List.mem_cons] at mem
  rw [inserts.split]
  rcases mem with before | isRecovery | isNode | later
  · exact Or.inl ⟨source, List.mem_append_left _ before, sameCall_refl _, rfl⟩
  · exact Or.inr isRecovery
  · subst isNode
    exact Or.inl ⟨node, List.mem_append_right _ (.head _), sameCall_waiting _,
      idOf_setField_after _ _⟩
  · exact Or.inl ⟨source, List.mem_append_right _ (.tail _ later),
      sameCall_refl _, rfl⟩

omit [Host] in
theorem Inserts.shape (inserts : Inserts plan result (.str strategy) first node rest)
    (shape : checkShape plan = .ok ()) : checkShape result = .ok () := by
  have mapping : result.isMapping = true := by
    have nodes := inserts.listed.nodes
    cases result with
    | obj fields => rfl
    | _ => cases nodes
  have nonempty : (!(nodesOf result).isEmpty) = true := by
    rw [inserts.nodes]
    cases first <;> rfl
  simp only [checkShape, Gate.require_bind_eq_ok] at shape ⊢
  rw [inserts.getD (by decide), inserts.getD (by decide)]
  exact ⟨mapping, shape.2.1, nonempty, shape.2.2.2⟩

theorem Inserts.converts (inserts : Inserts plan result (.str strategy) first node rest)
    (converts : Converts plan) : Converts result where
  onFail := by
    intro source mem
    rw [inserts.nodes, List.mem_append, List.mem_cons, List.mem_cons] at mem
    rcases mem with before | isRecovery | isNode | later
    · exact converts.onFail source (inserts.split ▸ List.mem_append_left _ before)
    · subst isRecovery
      exact ⟨[], rfl⟩
    · subst isNode
      have kept : onFailOf (waiting node) = onFailOf node := by
        rw [onFailOf, onFailOf, getD_waiting node (by decide)]
      rw [kept]
      exact converts.onFail node (inserts.split ▸ List.mem_append_right _ List.mem_cons_self)
    · exact converts.onFail source
        (inserts.split ▸ List.mem_append_right _ (List.mem_cons_of_mem _ later))
  seed := by
    rw [inserts.getD (by decide)]
    exact converts.seed

omit [Host] in
theorem tasks_ne_nil {plan : Json} {tasks : List Protocol.Task}
    (parsed : planTasks plan = .ok tasks) : tasks ≠ [] := by
  rw [planTasks] at parsed
  obtain ⟨_, _, parsed⟩ := of_bind parsed
  obtain ⟨built, _, same⟩ := of_bind parsed
  have final := Except.ok.inj same
  rw [← final]
  split
  · exact List.cons_ne_nil _ _
  · assumption

theorem legal_of_checkTyped (typed : checkTyped catalogue plan = .ok ())
    (reads : PlanReads plan) (nodes : AcceptedNodes catalogue (nodesOf plan)) :
    Converts plan ∧ ∃ graph, planToGraph (typedPlan plan) = .ok graph ∧
      Legal graph (withRecoveries (catalogueRecords catalogue) (nodesOf plan)) [] [] := by
  obtain ⟨⟨ok, problems⟩, judged, passed⟩ := Gate.lift_bind_eq_ok.mp typed
  have yes : ok = true := Gate.require_eq_ok_iff.mp passed
  subst yes
  refine ⟨((returns_judgeTyped_iff reads nodes).mp ⟨_, judged⟩).1, ?_⟩
  obtain ⟨graph, built, legal⟩ := of_bind judged
  exact ⟨graph, built, legal_of_accepted (typedGraph_inOrder reads nodes built)
    (validateGraph_true legal)⟩

theorem checkTyped_of_legal (reads : PlanReads plan)
    (nodes : AcceptedNodes catalogue (nodesOf plan)) {graph : ExecutionGraph}
    (built : planToGraph (typedPlan plan) = .ok graph)
    (legal : Legal graph (withRecoveries (catalogueRecords catalogue) (nodesOf plan)) [] []) :
    checkTyped catalogue plan = .ok () := by
  obtain ⟨placed, known, contracted⟩ := legal
  have judged : judgeTyped catalogue plan = .ok (true, []) := by
    rw [judgeTyped, built, bind_ok]
    exact accepted_of_contracted (typedGraph_inOrder reads nodes built) contracted
  rw [checkTyped, judged]
  rfl

omit [Host] in
theorem goals_typedPlan {tasks : List Protocol.Task} {plan : Json}
    (parsed : planTasks (typedPlan plan) = .ok tasks) : ∀ task ∈ tasks, task.goal = [] := by
  have declared : (typedPlan plan).getD "tasks" .null =
      .arr (((plan.getD "tasks" .null).arr?.getD []).map withoutGoal) := by
    simp [typedPlan, Json.getD]
  rw [planTasks, declared] at parsed
  generalize (plan.getD "tasks" .null).arr?.getD [] = items at parsed
  have listed : (if (Json.arr (items.map withoutGoal)).truthy then Json.arr (items.map withoutGoal)
      else .arr []).iter = .ok (items.map withoutGoal) := by
    cases items <;> rfl
  rw [listed, bind_ok] at parsed
  obtain ⟨built, mapped, same⟩ := of_bind parsed
  have bare : ∀ task ∈ built, task.goal = [] := by
    intro task mem
    obtain ⟨source, sourceMember, done⟩ := exists_mem_of_mapM mapped mem
    obtain ⟨item, _, itemEq⟩ := List.mem_map.mp sourceMember
    subst itemEq
    rw [planTask] at done
    obtain ⟨_, _, done⟩ := of_bind done
    obtain ⟨_, _, done⟩ := of_bind done
    obtain ⟨goals, goal, done⟩ := of_bind done
    obtain ⟨_, texts, done⟩ := of_bind done
    cases done
    cases goal
    cases texts
    rfl
  have final := Except.ok.inj same
  intro task mem
  rw [← final] at mem
  split at mem
  · cases List.mem_singleton.mp mem
    rfl
  · exact bare task mem

theorem checkTyped_inserts (inserts : Inserts plan result (.str strategy) first node rest)
    (reads : PlanReads plan) (nodes : AcceptedNodes catalogue (nodesOf plan))
    (readsResult : PlanReads result) (nodesResult : AcceptedNodes catalogue (nodesOf result))
    (outside : inCatalogue catalogue (.str strategy) = false)
    (typed : checkTyped catalogue plan = .ok ()) : checkTyped catalogue result = .ok () := by
  obtain ⟨converts, graph, built, legal⟩ := legal_of_checkTyped typed reads nodes
  obtain ⟨graphResult, builtResult⟩ :=
    (returns_typedGraph_iff readsResult).mpr (inserts.converts converts)
  have tasksEq : graphResult.tasks = graph.tasks := by
    have parsed := planTasks_of_planToGraph builtResult
    rw [planTasks, inserts.typedTasks_eq, ← planTasks, planTasks_of_planToGraph built] at parsed
    exact (Except.ok.inj parsed).symm
  have labelsEq : labelOf (typedPlan result) = labelOf (typedPlan plan) := by
    rw [labelOf, labelOf, inserts.typedTasks_eq]
  apply checkTyped_of_legal readsResult nodesResult builtResult
  apply legal_of_typedBy (goals_typedPlan (planTasks_of_planToGraph builtResult))
  intro fresh mem
  obtain ⟨source, inside, lifts⟩ := exists_source readsResult builtResult mem
  have resolved := resolved_of_accepted nodesResult inside lifts
  obtain ⟨record, found, free⟩ := resolved.record
  refine ⟨record, resolved.hashable, found, free, fun name => no_entities found name, ?_,
    resolved.unbound⟩
  rw [tasksEq]
  have skillEq : fresh.skill = (PlanNode.ofJson source).skill := by
    rw [lifts.skill, ofJson_withoutExecutor]
  have argsEq : fresh.args = (PlanNode.ofJson source).args := by
    rw [lifts.args, ofJson_withoutExecutor]
  have taskEq := task_of_lifts lifts
  rw [labelsEq] at taskEq
  rcases inserts.mem_iff inside with ⟨origin, listed, same, _⟩ | isRecovery
  · obtain ⟨lifted, liftedMember, from_⟩ := exists_lifted reads built listed
    obtain ⟨old, oldFound, wellTyped⟩ := typed_of_legal_node legal liftedMember
    have oldSkill : lifted.skill = (PlanNode.ofJson origin).skill := by
      rw [from_.skill, ofJson_withoutExecutor]
    have oldArgs : lifted.args = (PlanNode.ofJson origin).args := by
      rw [from_.args, ofJson_withoutExecutor]
    have args : fresh.args = lifted.args := by
      rw [argsEq, oldArgs, same.args]
    have schema : record.args = old.args := by
      rw [skillEq, same.skill] at found
      rw [oldSkill] at oldFound
      rcases args_of_recordFor found with now | ⟨absent, bare⟩
      · rcases args_of_recordFor oldFound with before | ⟨absent, _⟩
        · rw [before] at now
          cases now
          rfl
        · rw [absent] at now
          cases now
      · rcases args_of_recordFor oldFound with before | ⟨_, bareBefore⟩
        · rw [absent] at before
          cases before
        · rw [bare, bareBefore]
    constructor
    · rw [taskEq, same.task, ← task_of_lifts from_]
      exact wellTyped.task
    · rw [args, schema]
      exact wellTyped.names
    · rw [args, schema]
      exact wellTyped.values
  · subst isRecovery
    have noArgs : fresh.args = [] := argsEq
    have bare : record.args = [] := by
      rw [skillEq] at found
      rcases args_of_recordFor found with listed | ⟨_, bare⟩
      · rw [show (PlanNode.ofJson (recoveryNode (idOf node) (.str strategy)
          ((depsOf node).map .str))).skill = .str strategy from rfl,
          recordFor_outside outside] at listed
        cases listed
      · exact bare
    constructor
    · obtain ⟨tasks, parsed, labelled⟩ := planTasks_of_reads reads.typed
      rw [planTasks_of_planToGraph built] at parsed
      cases parsed
      refine ⟨(graph.tasks.head?.map Protocol.Task.id).getD "main", ?_, ?_⟩
      · cases declared : graph.tasks with
        | nil => exact absurd declared (tasks_ne_nil (planTasks_of_planToGraph built))
        | cons task others => exact .head _
      · rw [taskEq, ← labelled]
        rfl
    · rw [noArgs, bare]
      exact fun _ => Iff.rfl
    · rw [noArgs]
      simp

omit [Host] in
theorem Inserts.planNodes_eq (inserts : Inserts plan result (.str strategy) first node rest) :
    planNodes result = first.map PlanNode.ofJson ++
      PlanNode.ofJson (recoveryNode (idOf node) (.str strategy) ((depsOf node).map .str)) ::
        PlanNode.ofJson (waiting node) :: rest.map PlanNode.ofJson := by
  rw [planNodes, inserts.nodes, List.map_append, List.map_cons, List.map_cons]

omit [Host] in
theorem Inserts.planNodes_split (inserts : Inserts plan result (.str strategy) first node rest) :
    planNodes plan =
      first.map PlanNode.ofJson ++ PlanNode.ofJson node :: rest.map PlanNode.ofJson := by
  rw [planNodes, inserts.split, List.map_append, List.map_cons]

variable {sets more : Dict String (List String)} {view : PlanNode} {id : String}

omit [Host] in
theorem Inserts.ids_subset (inserts : Inserts plan result (.str strategy) first node rest)
    (known : id ∈ (planNodes plan).map PlanNode.id) :
    id ∈ (planNodes result).map PlanNode.id := by
  rw [inserts.planNodes_split] at known
  rw [inserts.planNodes_eq, ofJson_waiting]
  simp only [List.map_append, List.map_cons, List.mem_append, List.mem_cons] at known ⊢
  rcases known with before | here | later
  · exact Or.inl before
  · exact Or.inr (Or.inr (Or.inl here))
  · exact Or.inr (Or.inr (Or.inr later))

theorem checkVerify_inserts (inserts : Inserts plan result (.str strategy) first node rest)
    (passed : checkVerify ((planNodes plan).map PlanNode.id) oracles plan = .ok ()) :
    checkVerify ((planNodes result).map PlanNode.id) oracles result = .ok () := by
  have entries : verifyOf result = verifyOf plan := by
    rw [verifyOf, verifyOf, inserts.getD (by decide)]
  rw [checkVerify, Gate.require_bind_eq_ok] at passed ⊢
  rw [entries]
  refine ⟨passed.1, Gate.each_eq_ok_iff.mpr (fun entry mem => ?_)⟩
  obtain ⟨follows, named⟩ :=
    checkVerifyEntry_eq_ok_iff.mp (Gate.each_eq_ok_iff.mp passed.2 entry mem)
  refine checkVerifyEntry_eq_ok_iff.mpr ⟨?_, named⟩
  rw [followsNode, Bool.and_eq_true, List.any_eq_true] at follows ⊢
  obtain ⟨mapping, id, known, same⟩ := follows
  exact ⟨mapping, id, inserts.ids_subset known, same⟩

omit [Host] in
theorem Inserts.covered_subset (inserts : Inserts plan result (.str strategy) first node rest)
    (covered : id ∈ coveredIds plan) : id ∈ coveredIds result := by
  rw [coveredIds, List.mem_append, List.mem_flatMap] at covered ⊢
  have entries : verifyOf result = verifyOf plan := by
    rw [verifyOf, verifyOf, inserts.getD (by decide)]
  rw [entries]
  rcases covered with listed | ⟨view, mem, depends⟩
  · exact Or.inl listed
  · rw [List.mem_filter, inserts.planNodes_split, List.mem_append, List.mem_cons] at mem
    obtain ⟨place, verifies⟩ := mem
    rw [inserts.planNodes_eq]
    rcases place with before | here | later
    · exact Or.inr ⟨view, List.mem_filter.mpr ⟨List.mem_append_left _ before, verifies⟩, depends⟩
    · subst here
      refine Or.inr ⟨PlanNode.ofJson (waiting node), List.mem_filter.mpr ⟨?_, ?_⟩, ?_⟩
      · exact List.mem_append_right _ (.tail _ (.head _))
      · have kind : kindOf (waiting node) = kindOf node := getD_waiting node (by decide) _
        rw [PlanNode.kind] at verifies ⊢
        exact kind ▸ verifies
      · rw [ofJson_waiting]
        exact List.mem_append_left _ depends
    · exact Or.inr ⟨view, List.mem_filter.mpr ⟨List.mem_append_right _
        (.tail _ (.tail _ later)), verifies⟩, depends⟩

theorem checkCovered_inserts (inserts : Inserts plan result (.str strategy) first node rest)
    (passed : Gate.each (checkCovered (coveredIds plan)) (planNodes plan) = .ok ()) :
    Gate.each (checkCovered (coveredIds result)) (planNodes result) = .ok () := by
  have wider : ∀ view : PlanNode, checkCovered (coveredIds plan) view = .ok () →
      ∀ other : PlanNode, other.kind = view.kind → other.id = view.id →
        checkCovered (coveredIds result) other = .ok () := by
    intro view here other kind sameId
    rw [checkCovered, Gate.require_eq_ok_iff] at here ⊢
    rw [kind, sameId]
    rw [Bool.not_eq_true', Bool.and_eq_false_iff, decide_eq_false_iff_not, not_not] at here ⊢
    exact here.imp id (fun covered => inserts.covered_subset covered)
  rw [Gate.each_eq_ok_iff] at passed ⊢
  rw [inserts.planNodes_split] at passed
  rw [inserts.planNodes_eq]
  intro view mem
  rcases List.mem_append.mp mem with before | mem
  · exact wider view (passed view (List.mem_append_left _ before)) view rfl rfl
  rcases List.mem_cons.mp mem with isRecovery | mem
  · subst isRecovery
    rfl
  rcases List.mem_cons.mp mem with isNode | later
  · subst isNode
    apply wider _ (passed (PlanNode.ofJson node) (List.mem_append_right _ (.head _)))
    · exact getD_waiting node (by decide) _
    · exact idOf_setField_after node _
  · exact wider view (passed view (List.mem_append_right _ (.tail _ later))) view
      rfl rfl

/-! ## The requirements still hold -/

def Widens (sets more : Dict String (List String)) : Prop :=
  ∀ id, ∀ a ∈ (sets.get? id).getD [], a ∈ (more.get? id).getD []

omit [Host] in
theorem extends_set (wider : Widens sets more) {old new : List String}
    (within : ∀ a ∈ old, a ∈ new) :
    Widens (sets.set id old) (more.set id new) := by
  intro wanted a mem
  rw [Dict.get?_set] at mem ⊢
  by_cases here : id = wanted
  · rw [if_pos here] at mem ⊢
    exact within a mem
  · rw [if_neg here] at mem ⊢
    exact wider wanted a mem

omit [Host] in
theorem ancestorSets_append (before after : List PlanNode) (sets : Dict String (List String)) :
    ancestorSets (before ++ after) sets = ancestorSets after (ancestorSets before sets) := by
  induction before generalizing sets with
  | nil => rfl
  | cons node rest ih =>
      rw [List.cons_append, ancestorSets, ancestorSets, ih]

omit [Host] in
theorem union_extends (wider : Widens sets more) {after also : List String}
    (within : ∀ a ∈ after, a ∈ also) :
    ∀ a ∈ after ∪ after.flatMap (fun parent => (sets.get? parent).getD []),
      a ∈ also ∪ also.flatMap (fun parent => (more.get? parent).getD []) := by
  intro a mem
  rw [List.mem_union_iff, List.mem_flatMap] at mem ⊢
  rcases mem with direct | ⟨parent, depends, held⟩
  · exact Or.inl (within a direct)
  · exact Or.inr ⟨parent, within parent depends, wider parent a held⟩

omit [Host] in
theorem extends_ancestorSets (nodes : List PlanNode) (wider : Widens sets more) :
    Widens (ancestorSets nodes sets) (ancestorSets nodes more) := by
  induction nodes generalizing sets more with
  | nil => exact wider
  | cons node rest ih =>
      rw [ancestorSets, ancestorSets]
      exact ih (extends_set wider (union_extends wider (fun _ mem => mem)))

omit [Host] in
theorem mem_keys_ancestorSets {nodes : List PlanNode}
    (known : id ∈ (ancestorSets nodes sets).keys) :
    id ∈ sets.keys ∨ id ∈ nodes.map PlanNode.id := by
  induction nodes generalizing sets with
  | nil => exact Or.inl known
  | cons node rest ih =>
      rw [ancestorSets] at known
      rw [List.map_cons, List.mem_cons]
      rcases ih known with old | later
      · rcases (Dict.mem_keys_set _ _ _ _).mp old with here | older
        · exact Or.inr (Or.inl here)
        · exact Or.inl older
      · exact Or.inr (Or.inr later)

omit [Host] in
theorem Inserts.ancestors_extend (inserts : Inserts plan result (.str strategy) first node rest)
    (fresh : recoverId (idOf node) ∉ idsOf plan) :
    Widens (ancestorSets (planNodes plan) Dict.empty)
      (ancestorSets (planNodes result) Dict.empty) := by
  rw [inserts.planNodes_split, inserts.planNodes_eq, ancestorSets_append, ancestorSets_append,
    ofJson_waiting]
  simp only [ancestorSets]
  apply extends_ancestorSets
  have absent : recoverId (idOf node) ∉
      (ancestorSets (first.map PlanNode.ofJson) Dict.empty).keys := by
    intro known
    rcases mem_keys_ancestorSets known with never | listed
    · cases never
    · apply fresh
      rw [idsOf, inserts.split, List.map_append]
      rw [List.map_map] at listed
      exact List.mem_append_left _ listed
  have wider : ∀ set, Widens (ancestorSets (first.map PlanNode.ofJson) Dict.empty)
      ((ancestorSets (first.map PlanNode.ofJson) Dict.empty).set (recoverId (idOf node)) set) := by
    intro set id a mem
    rw [Dict.get?_set]
    by_cases here : recoverId (idOf node) = id
    · rw [← here, (Dict.get?_eq_none_iff _ _).mpr absent] at mem
      cases mem
    · rw [if_neg here]
      exact mem
  apply extends_set (wider _)
  exact union_extends (wider _) (fun _ mem => List.mem_append_left _ mem)

def renewed (node : Json) (view : PlanNode) : PlanNode :=
  if view.id = idOf node then PlanNode.ofJson (waiting node) else view

omit [Host] in
theorem id_renewed (node : Json) (view : PlanNode) : (renewed node view).id = view.id := by
  unfold renewed
  split
  · rename_i same
    rw [same]
    exact idOf_setField_after node _
  · rfl

omit [Host] in
theorem Inserts.renewed_eq (inserts : Inserts plan result (.str strategy) first node rest)
    (distinct : (idsOf plan).Nodup) :
    first.map PlanNode.ofJson ++ PlanNode.ofJson (waiting node) :: rest.map PlanNode.ofJson =
      (planNodes plan).map (renewed node) := by
  rw [idsOf, inserts.split, List.map_append, List.map_cons] at distinct
  have alone := (List.nodup_cons.mp (List.nodup_middle.mp distinct)).1
  rw [List.mem_append] at alone
  have kept : ∀ part : List Json, (∀ other ∈ part, idOf other ≠ idOf node) →
      (part.map PlanNode.ofJson).map (renewed node) = part.map PlanNode.ofJson := by
    intro part apart
    rw [List.map_map]
    apply List.map_congr_left
    intro other mem
    exact if_neg (apart other mem)
  have here : renewed node (PlanNode.ofJson node) = PlanNode.ofJson (waiting node) :=
    if_pos rfl
  rw [inserts.planNodes_split, List.map_append, List.map_cons, here,
    kept first (fun other mem same => alone (Or.inl (same ▸ List.mem_map_of_mem mem))),
    kept rest (fun other mem same => alone (Or.inr (same ▸ List.mem_map_of_mem mem)))]

omit [Host] in
theorem isCall_renewed (inserts : Inserts plan result (.str strategy) first node rest)
    (distinct : (idsOf plan).Nodup) (skill object : String) (mem : view ∈ planNodes plan) :
    isCall skill object (renewed node view) = isCall skill object view := by
  unfold renewed
  split
  · rename_i same
    have inside : PlanNode.ofJson node ∈ planNodes plan := by
      rw [inserts.planNodes_split]
      exact List.mem_append_right _ (.head _)
    have unique : ((planNodes plan).map PlanNode.id).Nodup := by
      rw [ids_planNodes]
      exact distinct
    have itself := eq_of_id_eq unique mem inside same
    rw [itself, isCall, isCall, objectOf, objectOf, ofJson_waiting]
  · rfl

omit [Host] in
theorem calls_inserts (inserts : Inserts plan result (.str strategy) first node rest)
    (distinct : (idsOf plan).Nodup) (skill object : String) :
    (planNodes result).filter (isCall skill object) =
      ((planNodes plan).filter (isCall skill object)).map (renewed node) := by
  have noCall : isCall skill object (PlanNode.ofJson
      (recoveryNode (idOf node) (.str strategy) ((depsOf node).map .str))) = false := by
    rw [Bool.eq_false_iff]
    intro call
    obtain ⟨_, named⟩ := isCall_iff.mp call
    cases named
  have skipped : (planNodes result).filter (isCall skill object) =
      (first.map PlanNode.ofJson ++ PlanNode.ofJson (waiting node) ::
        rest.map PlanNode.ofJson).filter (isCall skill object) := by
    rw [inserts.planNodes_eq, List.filter_append, List.filter_append, List.filter_cons,
      if_neg (by rw [noCall]; exact Bool.false_ne_true)]
  rw [skipped, inserts.renewed_eq distinct, List.filter_map]
  congr 1
  apply List.filter_congr
  intro view mem
  exact isCall_renewed inserts distinct skill object mem

theorem checkOrder_renewed {nodes others : List PlanNode} {ancestors : Dict String (List String)}
    {renew : PlanNode → PlanNode} (ids : ∀ view, (renew view).id = view.id)
    (wider : Widens ancestors more) {object : String} {previous : Option PlanNode}
    {skills : List String}
    (calls : ∀ skill ∈ skills, others.filter (isCall skill object) =
      (nodes.filter (isCall skill object)).map renew)
    (passed : checkOrder nodes ancestors object previous skills = .ok ()) :
    checkOrder others more object (previous.map renew) skills = .ok () := by
  induction skills generalizing previous with
  | nil => rfl
  | cons skill rest ih =>
      rw [checkOrder] at passed ⊢
      have renewedCalls := calls skill (.head _)
      unfold isCall at renewedCalls
      rw [renewedCalls]
      split at passed
      · rename_i current found
        rw [Gate.require_bind_eq_ok] at passed
        rw [found]
        refine Gate.require_bind_eq_ok.mpr ⟨?_, ?_⟩
        · cases previous with
          | none => rfl
          | some earlier =>
              have held := of_decide_eq_true passed.1
              apply decide_eq_true
              rw [ids, ids]
              exact wider _ _ held
        · exact ih (fun other mem => calls other (.tail _ mem)) passed.2
      · cases passed

theorem checkDeclared_eq_ok_iff {objects order : List String} :
    checkDeclared objects order view = .ok () ↔
      (order.any (fun skill => view.skill.eq (.str skill)) = true →
        inSet (objectOf view) objects = .ok true) := by
  unfold checkDeclared
  split
  · rename_i required
    rw [Gate.lift_bind_eq_ok]
    constructor
    · rintro ⟨known, looked, passed⟩ _
      rw [looked, Gate.require_eq_ok_iff.mp passed]
    · intro looked
      exact ⟨true, looked required, rfl⟩
  · rename_i free
    exact ⟨fun _ required => absurd required free, fun _ => rfl⟩

theorem checkTarget_eq_ok_iff {objects : List String} {targets : List (String × Json)} :
    checkTarget objects targets view = .ok () ↔
      ∃ known, inSet (objectOf view) objects = .ok known ∧
        ∀ target, Assoc.get? view.args "target" = some target →
          (!known || target.eq ((Assoc.get? targets (pyStr (objectOf view))).getD .null)) = true := by
  unfold checkTarget
  rw [Gate.lift_bind_eq_ok]
  apply exists_congr
  intro known
  apply and_congr_right
  intro _
  cases found : Assoc.get? view.args "target" with
  | none => simp
  | some target =>
      dsimp only
      rw [Gate.require_eq_ok_iff]
      constructor
      · rintro passed other same
        cases same
        exact passed
      · intro passed
        exact passed target rfl

theorem args_of_outside (reads : PlanReads plan) (nodes : AcceptedNodes catalogue (nodesOf plan))
    (typed : checkTyped catalogue plan = .ok ())
    (outside : inCatalogue catalogue (.str strategy) = false) (mem : view ∈ planNodes plan)
    (named : view.skill = .str strategy) : view.args = [] := by
  obtain ⟨_, graph, built, legal⟩ := legal_of_checkTyped typed reads nodes
  obtain ⟨source, inside, same⟩ := List.mem_map.mp mem
  subst same
  obtain ⟨lifted, liftedMember, lifts⟩ := exists_lifted reads built inside
  obtain ⟨record, found, wellTyped⟩ := typed_of_legal_node legal liftedMember
  rw [lifts.skill, ofJson_withoutExecutor, named] at found
  have names := wellTyped.names
  rw [lifts.args, ofJson_withoutExecutor] at names
  rcases args_of_recordFor found with listed | ⟨_, bare⟩
  · rw [recordFor_outside outside] at listed
    cases listed
  · rw [bare] at names
    rw [← List.map_eq_nil_iff (f := Prod.fst), List.eq_nil_iff_forall_not_mem]
    intro name listed
    cases (names name).mp listed

theorem checkRequirements_inserts (inserts : Inserts plan result (.str strategy) first node rest)
    (reads : PlanReads plan) (nodes : AcceptedNodes catalogue (nodesOf plan))
    (typed : checkTyped catalogue plan = .ok ())
    (outside : inCatalogue catalogue (.str strategy) = false)
    (fresh : recoverId (idOf node) ∉ idsOf plan)
    (passed : checkRequirements requirements (planNodes plan) = .ok ()) :
    checkRequirements requirements (planNodes result) = .ok () := by
  have distinct := nodup_idsOf nodes
  rw [checkRequirements] at passed ⊢
  dsimp only at passed ⊢
  split at passed
  · rename_i off
    rw [if_pos off]
  rename_i on
  rw [if_neg on]
  rw [Gate.require_bind_eq_ok, Gate.require_bind_eq_ok] at passed ⊢
  obtain ⟨objects, order, stages⟩ := passed
  obtain ⟨_, declared, stages⟩ := of_bind stages
  obtain ⟨_, ordered, mapped⟩ := of_bind stages
  rw [Gate.each_eq_ok_iff] at declared ordered
  have members : ∀ view ∈ planNodes result, view = PlanNode.ofJson
      (recoveryNode (idOf node) (.str strategy) ((depsOf node).map .str)) ∨
        ∃ origin ∈ planNodes plan, view.skill = origin.skill ∧ view.args = origin.args := by
    intro view mem
    obtain ⟨source, inside, same⟩ := List.mem_map.mp mem
    subst same
    rcases inserts.mem_iff inside with ⟨origin, listed, call, _⟩ | isRecovery
    · exact Or.inr ⟨_, List.mem_map_of_mem listed, call.skill, call.args⟩
    · exact Or.inl (congrArg PlanNode.ofJson isRecovery)
  have notRequired :
      strategy ∉ strings ((Json.obj requirements).getD "required_per_object_order" .null) := by
    intro required
    have nonempty : strings ((Json.obj requirements).getD "objects" .null) ≠ [] := by
      intro none_
      have form := strings_of_nonemptyStrings objects
      rw [none_] at form
      rw [form] at objects
      cases objects
    obtain ⟨object, listed⟩ := List.exists_mem_of_ne_nil _ nonempty
    obtain ⟨calls, walked⟩ := calls_of_checkOrder (ordered object listed)
    obtain ⟨call, _, found⟩ := exists_right_of_forall₂ walked.single required
    have called : call ∈ (planNodes plan).filter (isCall strategy object) := by
      rw [found]
      exact List.mem_singleton.mpr rfl
    obtain ⟨inside, isTheCall⟩ := List.mem_filter.mp called
    obtain ⟨named, on_⟩ := isCall_iff.mp isTheCall
    rw [objectOf, args_of_outside reads nodes typed outside inside named] at on_
    cases on_
  refine ⟨objects, order, bind_eq_ok.mpr ⟨(), ?_, bind_eq_ok.mpr ⟨(), ?_, ?_⟩⟩⟩
  · rw [Gate.each_eq_ok_iff]
    intro view mem
    rw [checkDeclared_eq_ok_iff]
    rcases members view mem with isRecovery | ⟨origin, listed, skill, args⟩
    · intro required
      obtain ⟨skill, listed, same⟩ := List.any_eq_true.mp required
      rw [isRecovery, Json.eq_str_iff] at same
      cases same
      exact absurd listed notRequired
    · rw [skill, objectOf, args]
      exact checkDeclared_eq_ok_iff.mp (declared origin listed)
  · rw [Gate.each_eq_ok_iff]
    intro object listed
    exact checkOrder_renewed (id_renewed node) (inserts.ancestors_extend fresh)
      (fun skill _ => calls_inserts inserts distinct skill object) (ordered object listed)
  · cases targets : (Json.obj requirements).getD "target_by_object" .null with
    | null => rfl
    | obj fields =>
        rw [targets, checkTargets, Gate.each_eq_ok_iff] at mapped
        rw [checkTargets, Gate.each_eq_ok_iff]
        intro view mem
        rw [checkTarget_eq_ok_iff]
        rcases members view mem with isRecovery | ⟨origin, listed, _, args⟩
        · subst isRecovery
          refine ⟨_, rfl, fun target found => ?_⟩
          cases found
        · rw [objectOf, args]
          exact checkTarget_eq_ok_iff.mp (mapped origin listed)
    | _ =>
        rw [targets] at mapped
        cases mapped

omit [Host] in
theorem Lifts.of_labels {first second : Json} {now : Node} (labels : labelOf first = labelOf second)
    (lifts : Lifts first view now) :
    Lifts second view now :=
  ⟨lifts.id, by rw [lifts.task, PlanNode.task, PlanNode.task, labels], lifts.skill, lifts.args,
    lifts.after, lifts.executor, lifts.kind⟩

omit [Host] in
theorem preserves_of_lifts {old new also : ExecutionGraph} {finished : List String}
    (preserves : Preserves old new finished) (distinct : (also.nodes.map Node.id).Nodup)
    (kept : ∀ d ∈ finished, ∀ now ∈ new.nodes, now.id = d → ∃ other ∈ also.nodes, other.id = d ∧
      other.skill = now.skill ∧ other.args = now.args ∧ other.kind = now.kind ∧
        other.task = now.task ∧ other.executor = now.executor ∧ other.after = now.after)
    (front : actualPrefix old also finished = actualPrefix old new finished) :
    Preserves old also finished := by
  refine ⟨?_, front.trans preserves.order⟩
  intro d mem
  obtain ⟨before, now, foundBefore, foundNow, call, identity, closed⟩ := preserves.each d mem
  obtain ⟨inside, named⟩ := mem_of_nodeAt foundNow
  obtain ⟨other, otherInside, otherId, skill, args, kind, task, executor, after⟩ :=
    kept d mem now inside named
  refine ⟨before, other, foundBefore, ?_, ?_, ?_, ?_⟩
  · rw [← otherId]
    exact nodeAt_of_mem distinct otherInside
  · rw [sameCall, skill, args]
    exact call
  · rw [sameIdentity, kind, task, executor]
    exact identity
  · rw [unfinished, after]
    exact closed

/-- The ids of the finished work. -/
def finishedIds (done : List Json) : Except PyError (List String) :=
  done.mapM (fun entry => do (← entry.item "id").text)

theorem checkLedger_inserts (inserts : Inserts plan result (.str strategy) first node rest)
    (reads : PlanReads plan) (readsResult : PlanReads result) (nodesResult : AcceptedNodes catalogue (nodesOf result))
    (converts : Converts plan) (open_ : ∀ ids, finishedIds done = .ok ids → idOf node ∉ ids)
    (passed : checkLedger done plan = .ok ()) : checkLedger done result = .ok () := by
  unfold checkLedger at passed ⊢
  split at passed
  swap
  · rename_i none_
    rw [if_neg none_]
    rfl
  rename_i some_
  rw [if_pos some_]
  obtain ⟨⟨ok, problems⟩, judged, accepted⟩ := Gate.lift_bind_eq_ok.mp passed
  have yes : ok = true := Gate.require_eq_ok_iff.mp accepted
  subst yes
  rw [judgeLedger] at judged
  obtain ⟨new, built, judged⟩ := of_bind judged
  obtain ⟨ids, listed, judged⟩ := of_bind judged
  obtain ⟨old, ledger, judged⟩ := of_bind judged
  have clean := (replanMonotone_fst old new ids).mp (by rw [Except.ok.inj judged])
  have preserves := (replanMonotone_iff old new ids).mp clean
  obtain ⟨also, builtAlso⟩ : Returns (planToGraph result) := by
    have convertsResult := inserts.converts converts
    exact (returns_planToGraph_iff readsResult).mpr
      ⟨convertsResult.onFail, convertsResult.seed⟩
  have lifts := lifts_of_planToGraph reads built
  have liftsAlso := (lifts_of_planToGraph readsResult builtAlso).imp
    (fun _ _ here => here.of_labels inserts.labelOf_eq)
  have order := inOrder_of_lifts (lifts_of_planToGraph readsResult builtAlso)
    (nodesResult.inOrder (fun _ => rfl) (fun _ => rfl))
  have notDone := open_ ids listed
  have newIds : new.nodes.map Node.id = first.map idOf ++ idOf node :: rest.map idOf := by
    rw [map_eq_of_forall₂ lifts (fun _ _ here => here.id), inserts.planNodes_split,
      List.map_append, List.map_cons, List.map_map, List.map_map]
    rfl
  have alsoIds : also.nodes.map Node.id =
      first.map idOf ++ recoverId (idOf node) :: idOf (waiting node) :: rest.map idOf := by
    rw [map_eq_of_forall₂ liftsAlso (fun _ _ here => here.id), inserts.planNodes_eq,
      List.map_append, List.map_cons, List.map_cons, List.map_map, List.map_map]
    rfl
  have kept : Preserves old also ids := by
    apply preserves_of_lifts preserves order.distinct
    · intro d finished now inside named
      obtain ⟨view, viewMember, here⟩ := exists_left_of_forall₂ lifts inside
      have viewInside : view ∈ planNodes result := by
        rw [inserts.planNodes_split, List.mem_append, List.mem_cons] at viewMember
        rw [inserts.planNodes_eq]
        rcases viewMember with before | isNode | later
        · exact List.mem_append_left _ before
        · have isDone : idOf node = d := by
            rw [← named, here.id, isNode]
            rfl
          exact absurd (isDone ▸ finished) notDone
        · exact List.mem_append_right _ (.tail _ (.tail _ later))
      obtain ⟨other, otherInside, there⟩ := exists_right_of_forall₂ liftsAlso viewInside
      refine ⟨other, otherInside, ?_, ?_, ?_, ?_, ?_, ?_, ?_⟩
      · rw [there.id, ← here.id, named]
      · rw [there.skill, here.skill]
      · rw [there.args, here.args]
      · rw [there.kind, here.kind]
      · rw [there.task, here.task]
      · rw [there.executor, here.executor]
      · rw [there.after, here.after]
    · have front := preserves.order
      rw [actualPrefix, newIds] at front
      rw [actualPrefix, actualPrefix, newIds, alsoIds]
      have short : (expectedPrefix old ids).length ≤ (first.map idOf).length := by
        by_contra longer
        apply notDone
        have reached : idOf node ∈ expectedPrefix old ids := by
          rw [← front, List.take_append, List.mem_append]
          right
          rw [List.take_cons (by omega)]
          exact .head _
        exact of_decide_eq_true (List.mem_filter.mp reached).2
      rw [List.take_append_of_le_length short, List.take_append_of_le_length short]
  have answer : judgeLedger done result = .ok (true, []) := by
    have goal : result.getD "goal" .null = plan.getD "goal" .null := inserts.getD (by decide) _
    rw [judgeLedger, builtAlso, bind_ok, listed, bind_ok, goal, ledger,
      bind_ok]
    have empty := (replanMonotone_iff old also ids).mpr kept
    have yes := (replanMonotone_fst old also ids).mpr empty
    exact congrArg Except.ok (Prod.ext yes empty)
  rw [answer]
  rfl

theorem accepted_inserts (inserts : Inserts plan result (.str strategy) first node rest)
    (accepted : Accepted plan catalogue oracles done requirements)
    (outside : inCatalogue catalogue (.str strategy) = false)
    (fresh : recoverId (idOf node) ∉ idsOf plan)
    (open_ : ∀ ids, finishedIds done = .ok ids → idOf node ∉ ids) :
    Accepted result catalogue oracles done requirements := by
  have reads := accepted.reads
  have shape := inserts.shape accepted.shape
  have nodes := acceptedNodes_inserts inserts accepted.nodes fresh
  have readsResult := planReads_of_checks shape nodes
  exact {
    shape := shape
    nodes := nodes
    typed := checkTyped_inserts inserts reads accepted.nodes readsResult nodes outside
      accepted.typed
    verify := checkVerify_inserts inserts accepted.verify
    covered := checkCovered_inserts inserts accepted.covered
    required := checkRequirements_inserts inserts reads accepted.nodes accepted.typed outside fresh
      accepted.required
    ledger := checkLedger_inserts inserts reads readsResult nodes
      (legal_of_checkTyped accepted.typed reads accepted.nodes).1 open_ accepted.ledger }

end

/-- The part of a plan that `graph_sha` hashes. -/
def hashedPart (graph : Json) : Json :=
  .obj (graph.fields.filter (fun field => field.1 ≠ "planner" ∧ field.1 ≠ "rationale"))

/-- Two objects with one digest agree in every field. -/
def DigestsApart (first second : Json) : Prop :=
  Host.sha first = Host.sha second →
    ∀ name, (first.getD name .null).eq (second.getD name .null) = true

omit [Host] in
theorem nodes_hashedPart (graph : Json) :
    (hashedPart graph).getD "nodes" .null = graph.getD "nodes" .null := by
  have twice : graph.fields.filter (fun field => field.1 ≠ "planner" ∧ field.1 ≠ "rationale") =
      (graph.fields.filter (fun field => field.1 ≠ "rationale")).filter
        (fun field => field.1 ≠ "planner") := by
    rw [List.filter_filter]
    congr 1
    funext field
    rw [Bool.decide_and]
  rw [Json.getD, Json.getD, hashedPart, twice, Json.get?, Assoc.get?_filter_ne,
    Assoc.get?_filter_ne, ← Json.get?_eq_fields]
  rfl

omit [Host] in
theorem length_eq_of_eqItems {items others : List Json} (same : Json.eqItems items others = true) :
    items.length = others.length := by
  induction items generalizing others with
  | nil =>
      cases others with
      | nil => rfl
      | cons _ _ => cases same
  | cons item rest ih =>
      cases others with
      | nil => cases same
      | cons other others =>
          rw [Json.eqItems, Bool.and_eq_true] at same
          rw [List.length_cons, List.length_cons, ih same.2]

theorem graphSha_inserts {plan result : Json} {strategy : String} {first rest : List Json}
    {node : Json} (listed : Listed plan)
    (inserts : Inserts plan result (.str strategy) first node rest)
    (apart : DigestsApart (hashedPart plan) (hashedPart result)) :
    graphSha result ≠ graphSha plan := by
  intro same
  have fields := apart same.symm "nodes"
  rw [nodes_hashedPart, nodes_hashedPart, Json.getD, Json.getD, listed.nodes, inserts.listed.nodes,
    Option.getD_some, Option.getD_some, Json.eq] at fields
  have lengths := length_eq_of_eqItems fields
  rw [inserts.nodes, inserts.split] at lengths
  simp only [List.length_append, List.length_cons] at lengths
  omega

/-- What `insert_recovery` is for: the recovery is inserted once, and the plan stays legal. -/
def RecoversOnce (plan : Json) (catalogue : Catalogue) (oracles : List String) (done : List Json)
    (requirements : List (String × Json)) (target strategy : String) : Prop :=
  ∃ result, insertRecovery plan target (.str strategy) = .ok result ∧
    insertRecovery result target (.str strategy) = .ok result ∧
    (idsOf result).Nodup ∧
    (recoverId target ∈ idsOf plan → result = plan) ∧
    (recoverId target ∉ idsOf plan →
      validatePlan result catalogue oracles done requirements = .ok (true, "") ∧
        graphSha result ≠ graphSha plan)

/-- On an accepted plan the recovery is inserted once unless the plan already has a node of its id
that the target does not wait for. -/
theorem recoversOnce_iff {plan : Json} {catalogue : Catalogue} {oracles : List String}
    {done : List Json} {requirements : List (String × Json)} {message target strategy : String}
    (accepts : validatePlan plan catalogue oracles done requirements = .ok (true, message))
    (known : target ∈ idsOf plan)
    (unfinished : ∀ ids, finishedIds done = .ok ids → target ∉ ids)
    (outside : inCatalogue catalogue (.str strategy) = false)
    (apart : DigestsApart (hashedPart plan) (hashedPart (repaired plan target (.str strategy)))) :
    RecoversOnce plan catalogue oracles done requirements target strategy ↔
      (recoverId target ∈ idsOf plan →
        ∀ node ∈ nodesOf plan, idOf node = target → recoverId target ∈ depsOf node) := by
  have accepted := (validatePlan_accepts_iff.mp accepts).1
  have listed : Listed plan := ⟨accepted.reads.nodes, accepted.reads.each⟩
  have distinct := nodup_idsOf accepted.nodes
  have inserted : insertRecovery plan target (.str strategy) =
      .ok (repaired plan target (.str strategy)) := insertRecovery_of_listed _ listed known
  constructor
  · rintro ⟨result, ran, _, _, same, _⟩ carried node member named
    rw [inserted] at ran
    cases ran
    by_contra open_
    obtain ⟨_, nodes, _⟩ := listed_repaired (.str strategy) listed known
    have inside : waiting node ∈ nodesOf plan := by
      rw [← same carried, nodes]
      apply List.mem_flatMap.mpr
      refine ⟨node, member, ?_⟩
      rw [insertAt, if_pos ⟨named, open_⟩]
      exact List.mem_cons_of_mem _ (List.mem_singleton.mpr rfl)
    have unmoved : waiting node = node :=
      List.inj_on_of_nodup_map distinct inside member (idOf_setField_after node _)
    have after := congrArg (fun other => (depsOf other).length) unmoved
    rw [waiting] at after
    simp only [depsOf_setField_after, List.length_append, List.length_singleton] at after
    omega
  · intro waits
    refine ⟨_, inserted, ?_⟩
    by_cases carried : recoverId target ∈ idsOf plan
    · have stays : repaired plan target (.str strategy) = plan :=
        repaired_of_waits _ listed (waits carried)
      rw [stays]
      exact ⟨inserted.trans (congrArg Except.ok stays), distinct, fun _ => rfl,
        fun absent => absurd carried absent⟩
    · obtain ⟨first, node, rest, named, inserts⟩ := inserts_repaired (.str strategy)
        listed accepted.nodes known carried
      subst named
      have legal := accepted_inserts inserts accepted outside carried unfinished
      have stillKnown : idOf node ∈ idsOf (repaired plan (idOf node) (.str strategy)) :=
        (sublist_insertRecovery listed inserted).subset known
      refine ⟨?_, nodup_idsOf legal.nodes, fun present => absurd present carried, fun _ => ⟨?_, ?_⟩⟩
      · rw [insertRecovery_of_listed _ inserts.listed stillKnown, repaired_repaired _ listed known]
      · exact validatePlan_accepts_iff.mpr ⟨legal, rfl⟩
      · exact graphSha_inserts listed inserts apart

end

section Example

local instance mendHost : Host := asciiHost

private def pushNode (id skill kind : String) (after : List String) : Json :=
  .obj [("id", .str id), ("skill", .str skill), ("args", .obj []), ("after", .arr (after.map .str)),
    ("kind", .str kind)]

private def pushPlan (first : Json) : Json :=
  .obj [("goal", .str "tidy"), ("nodes", .arr [first, pushNode "push" "push" "manipulate" []]),
    ("verify", .arr ([idOf first, "push"].map (fun id =>
      .obj [("after", .str id), ("predicate", .str "seen")])))]

private def pushCatalogue : Catalogue := [("look", []), ("push", [])]

private def lookNode : Json := pushNode "look" "look" "perceive" []

private def lookDone : List Json :=
  [doneSpec (pushPlan lookNode) (PlanNode.ofJson lookNode)]

theorem recoversOnce_push :
    RecoversOnce (pushPlan lookNode) pushCatalogue ["seen"] lookDone [] "push" "back_off" := by
  have accepts : validatePlan (pushPlan lookNode) pushCatalogue ["seen"] lookDone [] =
      .ok (true, "") := by
    decide +kernel
  have finished : finishedIds lookDone = .ok ["look"] := by
    decide +kernel
  refine (recoversOnce_iff accepts ?_ ?_ ?_ ?_).mpr ?_
  · decide +kernel
  · intro ids listed
    rw [finished] at listed
    cases listed
    decide +kernel
  · decide +kernel
  · intro same
    exact absurd same (by decide +kernel)
  · intro carried
    exact absurd carried (by decide +kernel)

/-- A recovery that the planner put first and nothing waits for is inserted a second time, and the
gate refuses the plan. -/
theorem recovery_inserted_twice :
    validatePlan (pushPlan (pushNode "recover-push" "back_off" "recovery" [])) pushCatalogue
        ["seen"] [] [] = .ok (true, "") ∧
      (∃ result, insertRecovery (pushPlan (pushNode "recover-push" "back_off" "recovery" []))
          "push" (.str "back_off") = .ok result ∧
        validatePlan result pushCatalogue ["seen"] [] [] =
          .ok (false, "duplicate node id 'recover-push'")) ∧
      ¬ RecoversOnce (pushPlan (pushNode "recover-push" "back_off" "recovery" [])) pushCatalogue
        ["seen"] [] [] "push" "back_off" := by
  have listed : Listed (pushPlan (pushNode "recover-push" "back_off" "recovery" [])) :=
    ⟨rfl, fun node member => by
      rcases List.mem_cons.mp member with first | second
      · subst first
        exact ⟨rfl, rfl, rfl, rfl⟩
      · rw [List.mem_singleton.mp second]
        exact ⟨rfl, rfl, rfl, rfl⟩⟩
  have known : "push" ∈ idsOf (pushPlan (pushNode "recover-push" "back_off" "recovery" [])) := by
    decide +kernel
  have inserted := insertRecovery_of_listed (.str "back_off") listed known
  refine ⟨by decide +kernel, ⟨_, inserted, by decide +kernel⟩, ?_⟩
  rintro ⟨result, ran, _, distinct, _⟩
  rw [inserted] at ran
  cases ran
  revert distinct
  decide +kernel

end Example

end Task
end PhysicalHarness
