import PhysicalHarness.Runtime.Decompose
import PhysicalHarness.Task.Composed
import PhysicalHarness.Task.Totality

namespace PhysicalHarness
namespace Runtime

open Python JsonText Fallible
open PhysicalHarness.Task (PlanNode nodesOf planNodes verifyOf validatePlan Catalogue under InTask
  localView NodeReads PlanReads Accepted Config World Point Reachable Entry)

/-!
# One graph from the plans of a mission

Each task of a mission has a plan of its own.  The runtime makes one graph of them: it puts
the id of the task and a dot before the ids of the nodes, and a node of the graph gets the
rows of its task back under the ids without them.  The ids are chosen by two planners, and
dots in them are read in either way.
-/

/-- A task with its plan. -/
abbrev Part := MissionTask × Json

section

variable [Host]

/-- `{**n, "id": ..., "task": ..., "after": ...}`. -/
def namespaced (tid : String) (node : Json) (id : String) (after : List String) : Json :=
  ((node.setField "id" (.str (under tid id))).setField "task" (.str tid)).setField "after"
    (.arr (after.map (fun a => .str (under tid a))))

def composeNode (tid : String) (node : Json) : Except PyError Json := do
  let id ← node.item "id"
  let after ← (← node.item "after").iter
  return namespaced tid node (pyStr id) (after.map pyStr)

def composeVerify (tid : String) (v : Json) : Except PyError Json := do
  let after ← v.item "after"
  return v.setField "after" (.str (under tid (pyStr after)))

/-- `plan.get(name) or ()`. -/
def listOf (plan : Json) (name : String) : Except PyError (List Json) :=
  if plan.isMapping then
    if (plan.getD name .null).truthy then (plan.getD name .null).iter else .ok []
  else .error .attributeError

def composePart (part : Part) : Except PyError (List Json × List Json) := do
  let nodes ← (← listOf part.2 "nodes").mapM (composeNode part.1.id)
  let verify ← (← listOf part.2 "verify").mapM (composeVerify part.1.id)
  return (nodes, verify)

def composedTask (task : MissionTask) : Json :=
  .obj [("id", .str task.id), ("goal", .arr (task.goal.map Json.str))]

def composedRationale (parts : List Part) : String :=
  "; ".intercalate (parts.map (fun part =>
    part.1.id ++ ": " ++ pyStr (part.2.getD "rationale" (.str ""))))

/-- `_compose`. -/
def compose (mission : String) (parts : List Part) (planner : Json) : Except PyError Json := do
  let pieces ← parts.mapM composePart
  return .obj [("goal", .str mission), ("tasks", .arr (parts.map (fun part => composedTask part.1))),
    ("nodes", .arr (pieces.flatMap Prod.fst)), ("verify", .arr (pieces.flatMap Prod.snd)),
    ("rationale", .str (composedRationale parts)), ("planner", planner)]

/-- A plan that the gate accepts, for some card. -/
def Gated (plan : Json) : Prop :=
  ∃ (catalogue : Catalogue) (oracles : List String) (done : List Json)
    (requirements : List (String × Json)),
    validatePlan plan catalogue oracles done requirements = .ok (true, "")

end

/-! ## The composed nodes -/

def cardIds (plan : Json) : List String := (planNodes plan).map PlanNode.id

def composedIds (part : Part) : List String := (cardIds part.2).map (under part.1.id)

def composedNode (tid : String) (node : Json) : Json :=
  namespaced tid node (PlanNode.ofJson node).id (PlanNode.ofJson node).after

def partNodes (part : Part) : List PlanNode :=
  (nodesOf part.2).map (fun node => PlanNode.ofJson (composedNode part.1.id node))

theorem id_composedNode (tid : String) (node : Json) :
    (PlanNode.ofJson (composedNode tid node)).id = under tid (PlanNode.ofJson node).id := by
  simp [PlanNode.ofJson, composedNode, namespaced, Json.getD, Json.str?]

theorem task_composedNode (tid : String) (node : Json) :
    (composedNode tid node).get? "task" = some (.str tid) := by
  simp [composedNode, namespaced]

theorem after_composedNode (tid : String) (node : Json) :
    (PlanNode.ofJson (composedNode tid node)).after = (PlanNode.ofJson node).after.map (under tid) := by
  have texts : ∀ names : List String,
      (names.map (fun a => Json.str (under tid a))).filterMap Json.str? = names.map (under tid) := by
    intro names
    induction names with
    | nil => rfl
    | cons name names ih => exact congrArg (List.cons (under tid name)) ih
  have after : (composedNode tid node).getD "after" .null =
      .arr ((PlanNode.ofJson node).after.map (fun a => .str (under tid a))) := by
    rw [Json.getD, composedNode, namespaced, Json.get?_setField, if_pos rfl]
    rfl
  rw [PlanNode.ofJson, after]
  exact texts _

theorem ids_partNodes (part : Part) : (partNodes part).map PlanNode.id = composedIds part := by
  rw [partNodes, List.map_map, composedIds, cardIds, planNodes, List.map_map, List.map_map]
  apply List.map_congr_left
  intro node _
  exact id_composedNode part.1.id node

section

variable [Host]

theorem composeNode_of_reads (tid : String) {node : Json} (reads : NodeReads node) :
    composeNode tid node = .ok (composedNode tid node) := by
  rw [composeNode, Task.item_of_get? reads.id, Task.item_of_get? reads.after]
  have texts : ((PlanNode.ofJson node).after.map Json.str).map pyStr = (PlanNode.ofJson node).after := by
    rw [List.map_map]
    exact List.map_id _
  refine bind_eq_ok.mpr ⟨.str (PlanNode.ofJson node).id, rfl, ?_⟩
  refine bind_eq_ok.mpr ⟨.arr ((PlanNode.ofJson node).after.map Json.str), rfl, ?_⟩
  refine bind_eq_ok.mpr ⟨(PlanNode.ofJson node).after.map Json.str, rfl, ?_⟩
  rw [texts]
  rfl

omit [Host] in
theorem mapM_eq_of_forall {α β ε : Type} {run : α → Except ε β} {value : α → β} {items : List α}
    (each : ∀ item ∈ items, run item = .ok (value item)) : items.mapM run = .ok (items.map value) := by
  apply mapM_eq_ok_iff.mpr
  induction items with
  | nil => exact List.Forall₂.nil
  | cons item items ih =>
      exact List.Forall₂.cons (each item (.head _))
        (ih (fun other mem => each other (.tail item mem)))

omit [Host] in
theorem listOf_of_get? {plan : Json} {name : String} {items : List Json}
    (held : plan.get? name = some (.arr items)) : listOf plan name = .ok items := by
  have mapping : plan.isMapping = true := by
    cases plan <;> first | rfl | cases held
  have value : plan.getD name .null = .arr items := by rw [Json.getD, held, Option.getD_some]
  rw [listOf, if_pos mapping, value]
  cases items with
  | nil => rfl
  | cons item items => rfl

omit [Host] in
theorem get?_verify {plan : Json} (some_ : verifyOf plan ≠ []) :
    plan.get? "verify" = some (.arr (verifyOf plan)) := by
  rw [verifyOf, Json.getD] at some_ ⊢
  cases found : plan.get? "verify" with
  | none =>
      rw [found] at some_
      exact absurd rfl some_
  | some value =>
      rw [found] at some_
      cases value with
      | arr items => rfl
      | _ => exact absurd rfl some_

omit [Host] in
theorem exists_after_of_followsNode {ids : List String} {v : Json} (follows : Task.followsNode ids v = true) :
    ∃ id, v.get? "after" = some (.str id) := by
  rw [Task.followsNode, Bool.and_eq_true, List.any_eq_true] at follows
  obtain ⟨_, id, _, same⟩ := follows
  have text := (Json.eq_str_iff _ _).mp same
  rw [Json.getD] at text
  cases found : v.get? "after" with
  | none =>
      rw [found] at text
      cases text
  | some value =>
      rw [found] at text
      exact ⟨id, congrArg some text⟩

theorem returns_composeVerify {plan : Json} {catalogue : Catalogue} {oracles : List String}
    {done : List Json} {requirements : List (String × Json)}
    (accepted : Accepted plan catalogue oracles done requirements) (tid : String) :
    ∃ items verify, listOf plan "verify" = .ok items ∧
      items.mapM (composeVerify tid) = .ok verify := by
  obtain ⟨nonempty, each⟩ := Gate.require_bind_eq_ok.mp accepted.verify
  have some_ : verifyOf plan ≠ [] := by
    intro none
    rw [none] at nonempty
    cases nonempty
  refine ⟨verifyOf plan, ?_⟩
  have returns : Returns ((verifyOf plan).mapM (composeVerify tid)) := by
    apply returns_mapM_iff.mpr
    intro v mem
    obtain ⟨index, bound, found⟩ := List.mem_iff_getElem.mp mem
    have inside : (v, index) ∈ (verifyOf plan).zipIdx :=
      List.mem_zipIdx_iff_getElem?.mpr (by rw [List.getElem?_eq_getElem bound, found])
    have checked := Gate.each_eq_ok_iff.mp each (v, index) inside
    obtain ⟨id, after⟩ := exists_after_of_followsNode (Task.checkVerifyEntry_eq_ok_iff.mp checked).1
    refine ⟨v.setField "after" (.str (under tid id)), ?_⟩
    rw [composeVerify, show v.item "after" = .ok (.str id) from Task.item_of_get? after]
    rfl
  obtain ⟨verify, made⟩ := returns
  exact ⟨verify, listOf_of_get? (get?_verify some_), made⟩

theorem composePart_of_gated {part : Part} (gated : Gated part.2) :
    ∃ verify, composePart part = .ok ((nodesOf part.2).map (composedNode part.1.id), verify) := by
  obtain ⟨catalogue, oracles, done, requirements, passed⟩ := gated
  obtain ⟨accepted, _⟩ := Task.validatePlan_accepts_iff.mp passed
  obtain ⟨items, verify, listed, made⟩ := returns_composeVerify accepted part.1.id
  refine ⟨verify, ?_⟩
  have nodes : (nodesOf part.2).mapM (composeNode part.1.id) =
      .ok ((nodesOf part.2).map (composedNode part.1.id)) := by
    apply mapM_eq_of_forall
    intro node mem
    exact composeNode_of_reads part.1.id (accepted.reads.each node mem)
  rw [composePart]
  refine bind_eq_ok.mpr ⟨nodesOf part.2, listOf_of_get? accepted.reads.nodes, ?_⟩
  refine bind_eq_ok.mpr ⟨_, nodes, ?_⟩
  refine bind_eq_ok.mpr ⟨items, listed, ?_⟩
  exact bind_eq_ok.mpr ⟨verify, made, rfl⟩

omit [Host] in
theorem flatMap_fst_of_forall₂ {pieces : List (List Json × List Json)} {parts : List Part}
    (each : List.Forall₂ (fun (part : Part) piece =>
      piece.1 = (nodesOf part.2).map (composedNode part.1.id)) parts pieces) :
    (pieces.flatMap Prod.fst).map PlanNode.ofJson = parts.flatMap partNodes := by
  induction each with
  | nil => rfl
  | @cons part piece parts pieces here _ ih =>
      rw [List.flatMap_cons, List.flatMap_cons, List.map_append, ih, here, List.map_map]
      rfl

theorem exists_compose {parts : List Part} (gated : ∀ part ∈ parts, Gated part.2) (mission : String)
    (planner : Json) :
    ∃ graph, compose mission parts planner = .ok graph ∧ graph.truthy = true ∧
      planNodes graph = parts.flatMap partNodes ∧
      graph.getD "tasks" .null = .arr (parts.map (fun part => composedTask part.1)) := by
  have returns : Returns (parts.mapM composePart) := by
    apply returns_mapM_iff.mpr
    intro part mem
    obtain ⟨verify, made⟩ := composePart_of_gated (gated part mem)
    exact ⟨_, made⟩
  obtain ⟨pieces, made⟩ := returns
  refine ⟨_, bind_eq_ok.mpr ⟨pieces, made, rfl⟩, rfl, ?_, rfl⟩
  have each : List.Forall₂ (fun (part : Part) piece =>
      piece.1 = (nodesOf part.2).map (composedNode part.1.id)) (parts.map id) pieces := by
    apply forall₂_of_mapM made
    intro part mem piece one
    obtain ⟨verify, known⟩ := composePart_of_gated (gated part mem)
    rw [one] at known
    cases known
    rfl
  rw [List.map_id] at each
  exact flatMap_fst_of_forall₂ each

end

/-- The one task is in the name of the other, and a node of the one in its place. -/
def Collides (part other : Part) : Prop :=
  ∃ piece name, other.1.id = under part.1.id piece ∧ under piece name ∈ cardIds part.2 ∧
    name ∈ cardIds other.2

theorem disjoint_composedIds_iff {part other : Part} (differ : part.1.id ≠ other.1.id) :
    List.Disjoint (composedIds part) (composedIds other) ↔ ¬ Collides part other ∧ ¬ Collides other part := by
  constructor
  · intro disjoint
    refine ⟨?_, ?_⟩
    · rintro ⟨piece, name, task, mine, yours⟩
      refine disjoint (List.mem_map_of_mem mine) (List.mem_map.mpr ⟨name, yours, ?_⟩)
      exact Task.under_eq_under_iff.mpr (Or.inr (Or.inr ⟨piece, task, rfl⟩))
    · rintro ⟨piece, name, task, mine, yours⟩
      refine disjoint (List.mem_map.mpr ⟨name, yours, ?_⟩) (List.mem_map_of_mem mine)
      exact Task.under_eq_under_iff.mpr (Or.inr (Or.inr ⟨piece, task, rfl⟩))
  · rintro ⟨apart, asunder⟩ id mine yours
    obtain ⟨name, named, rfl⟩ := List.mem_map.mp mine
    obtain ⟨rest, called, same⟩ := List.mem_map.mp yours
    rcases Task.under_eq_under_iff.mp same with ⟨one, _⟩ | ⟨piece, task, read⟩ | ⟨piece, task, read⟩
    · exact differ one.symm
    · exact asunder ⟨piece, name, task, read ▸ called, named⟩
    · exact apart ⟨piece, rest, task, read ▸ named, called⟩

section

variable [Host]

theorem nodup_cardIds {plan : Json} (gated : Gated plan) : (cardIds plan).Nodup := by
  obtain ⟨catalogue, oracles, done, requirements, passed⟩ := gated
  exact (Task.validatePlan_accepts_iff.mp passed).1.inOrder.distinct

theorem nodup_composedIds {part : Part} (gated : Gated part.2) : (composedIds part).Nodup :=
  (nodup_cardIds gated).map (Task.under_right_injective part.1.id)

theorem nodup_ids_iff {parts : List Part} (gated : ∀ part ∈ parts, Gated part.2)
    (distinct : (parts.map (fun part => part.1.id)).Nodup) :
    (parts.flatMap composedIds).Nodup ↔
      parts.Pairwise (fun part other => ¬ Collides part other ∧ ¬ Collides other part) := by
  have apart : parts.Pairwise (fun part other => part.1.id ≠ other.1.id) :=
    List.pairwise_map.mp distinct
  rw [List.nodup_flatMap]
  constructor
  · rintro ⟨_, disjoint⟩
    refine (apart.and disjoint).imp ?_
    rintro part other ⟨differ, none⟩
    exact (disjoint_composedIds_iff differ).mp none
  · intro calm
    refine ⟨fun part mem => nodup_composedIds (gated part mem), (apart.and calm).imp ?_⟩
    rintro part other ⟨differ, none⟩
    exact (disjoint_composedIds_iff differ).mpr none

omit [Host] in
theorem ids_flatMap (parts : List Part) :
    (parts.flatMap partNodes).map PlanNode.id = parts.flatMap composedIds := by
  rw [List.map_flatMap]
  apply List.flatMap_congr
  intro part _
  exact ids_partNodes part

/-- What a node of the graph follows are nodes of its own task, and no others. -/
def AfterOwn (nodes : List PlanNode) : Prop :=
  ∀ node ∈ nodes, ∀ a ∈ node.after, (∃ other ∈ nodes, other.id = a) ∧
    ∀ other ∈ nodes, other.id = a → other.raw.get? "task" = node.raw.get? "task"

theorem afterOwn_of_nodup {parts : List Part} (gated : ∀ part ∈ parts, Gated part.2)
    (distinct : (parts.flatMap composedIds).Nodup) : AfterOwn (parts.flatMap partNodes) := by
  intro node mem a follows
  obtain ⟨part, listed, own⟩ := List.mem_flatMap.mp mem
  obtain ⟨raw, inside, rfl⟩ := List.mem_map.mp own
  rw [after_composedNode] at follows
  obtain ⟨name, depends, rfl⟩ := List.mem_map.mp follows
  obtain ⟨catalogue, oracles, done, requirements, passed⟩ := gated part listed
  have accepted := (Task.validatePlan_accepts_iff.mp passed).1
  obtain ⟨first, rest, split⟩ := List.append_of_mem inside
  have earlier := (accepted.nodes first raw rest split).earlier name depends
  obtain ⟨parent, before, same⟩ := List.mem_map.mp earlier
  have parentOwn : PlanNode.ofJson (composedNode part.1.id parent) ∈ partNodes part := by
    refine List.mem_map_of_mem ?_
    rw [split]
    exact List.mem_append_left _ before
  have parentMember := List.mem_flatMap.mpr ⟨part, listed, parentOwn⟩
  have named : (PlanNode.ofJson (composedNode part.1.id parent)).id = under part.1.id name := by
    rw [id_composedNode, same]
  refine ⟨⟨_, parentMember, named⟩, ?_⟩
  intro other present again
  rw [← ids_flatMap] at distinct
  have one := List.inj_on_of_nodup_map distinct present parentMember (again.trans named.symm)
  rw [one]
  exact (task_composedNode _ _).trans (task_composedNode _ _).symm

end

/-- The view for the task has the rows of the part's own nodes, under the ids of the card, and no
others. -/
def SeesOwn (task : Json) (part : Part) (rows : Dict String Entry) : Prop :=
  ∀ name entry, (localView task rows).get? name = some entry ↔
    name ∈ cardIds part.2 ∧ rows.get? (under part.1.id name) = some entry

/-- A name of the graph would be read as one of the task. -/
def Leaks (other part : Part) : Prop := ∃ id ∈ composedIds other, InTask part.1.id id

theorem seesOwn_iff {part : Part} (nonempty : part.1.id ≠ "") (rows : Dict String Entry) :
    SeesOwn (.str part.1.id) part rows ↔ ∀ id ∈ rows.keys, InTask part.1.id id → id ∈ composedIds part := by
  constructor
  · intro sees id row inside
    obtain ⟨name, rfl⟩ := Task.inTask_iff.mp inside
    obtain ⟨entry, found⟩ := Dict.get?_of_mem_keys row
    have seen := (sees name entry).mp ((Task.get?_localView nonempty rows name).trans found)
    exact List.mem_map_of_mem seen.1
  · intro own name entry
    rw [Task.get?_localView nonempty]
    refine ⟨fun found => ⟨?_, found⟩, fun both => both.2⟩
    have inside := own _ (Dict.mem_keys_of_get? found) (Task.inTask_iff.mpr ⟨name, rfl⟩)
    obtain ⟨other, named, same⟩ := List.mem_map.mp inside
    rw [← Task.under_right_injective part.1.id same]
    exact named

theorem before_eq {parts first later : List Part} {part : Part} (split : parts = first ++ part :: later)
    (distinct : (parts.flatMap composedIds).Nodup) {node : PlanNode} (own : node ∈ partNodes part)
    {before rest : List PlanNode} (place : parts.flatMap partNodes = before ++ node :: rest) :
    ∃ mine, before = first.flatMap partNodes ++ mine ∧ mine ⊆ partNodes part := by
  obtain ⟨mine, others, listed⟩ := List.append_of_mem own
  have whole : before ++ node :: rest =
      (first.flatMap partNodes ++ mine) ++ node :: (others ++ later.flatMap partNodes) := by
    rw [← place, split, List.flatMap_append, List.flatMap_cons, listed, List.append_assoc,
      List.append_assoc, List.cons_append]
  have nodes : (parts.flatMap partNodes).Nodup := by
    apply List.Nodup.of_map PlanNode.id
    rw [ids_flatMap]
    exact distinct
  rw [place] at nodes
  have fresh : node ∉ before := by
    intro again
    exact (List.nodup_append.mp nodes).2.2 node again node (.head _) rfl
  have behind : node ∉ rest := (List.nodup_cons.mp (List.nodup_append.mp nodes).2.1).1
  refine ⟨mine, ((List.append_cons_inj_of_notMem fresh behind).mp whole).1, ?_⟩
  intro other mem
  rw [listed]
  exact List.mem_append_left _ mem

theorem task_of_mem_partNodes {part : Part} {node : PlanNode} (own : node ∈ partNodes part) :
    node.raw.getD "task" .null = .str part.1.id := by
  obtain ⟨raw, _, rfl⟩ := List.mem_map.mp own
  rw [Json.getD]
  exact congrArg (fun found : Option Json => found.getD .null) (task_composedNode part.1.id raw)

section

variable [Host]

omit [Host] in
theorem nonempty_of_reads {graph : Json} {parts : List Part} {part : Part} (reads : PlanReads graph)
    (tasks : graph.getD "tasks" .null = .arr (parts.map (fun part => composedTask part.1)))
    (mem : part ∈ parts) : part.1.id ≠ "" := by
  rcases reads.tasks with none | ⟨items, same, forms⟩
  · rw [tasks] at none
    cases none
  · rw [tasks] at same
    cases same
    have form := forms _ (List.mem_map_of_mem mem)
    rw [Task.taskForm, Bool.and_eq_true, Bool.and_eq_true] at form
    obtain ⟨text, held, some_⟩ := (Json.isNonemptyStr_iff _).mp form.1.2
    intro empty
    apply some_
    rw [composedTask, empty] at held
    cases held
    rfl

theorem seesOwn_due_iff {config : Config} {world : World} {graph plan : Json} {parts : List Part}
    (truthy : graph.truthy = true) (nodes : planNodes graph = parts.flatMap partNodes)
    (tasks : graph.getD "tasks" .null = .arr (parts.map (fun part => composedTask part.1)))
    (same : config.graph = graph) {node : PlanNode} {rest : List PlanNode} {state : Task.State}
    (reached : Reachable config world (.running plan (node :: rest), state))
    (due : state.finished node.id = false) {first later : List Part} {part : Part}
    (split : parts = first ++ part :: later) (own : node ∈ partNodes part) :
    SeesOwn (node.raw.getD "task" .null) part state.nodesOut ↔ ∀ other ∈ first, ¬ Leaks other part := by
  obtain ⟨reads, distinct, before, place, finished, rows⟩ := Task.rows_of_due truthy same reached due
  have mem : part ∈ parts := by
    rw [split]
    exact List.mem_append_right _ (.head _)
  rw [nodes, ids_flatMap] at distinct
  rw [nodes] at place
  obtain ⟨mine, front, inside⟩ := before_eq split distinct own place
  rw [task_of_mem_partNodes own, seesOwn_iff (nonempty_of_reads reads tasks mem)]
  have apart : ∀ other ∈ first, List.Disjoint (composedIds other) (composedIds part) := by
    intro other earlier
    have pairs := (List.nodup_flatMap.mp distinct).2
    rw [split] at pairs
    exact (List.pairwise_append.mp pairs).2.2 other earlier part (.head _)
  have mineIds : ∀ other ∈ partNodes part, other.id ∈ composedIds part := by
    intro other listed
    rw [← ids_partNodes]
    exact List.mem_map_of_mem listed
  constructor
  · rintro sees other earlier ⟨id, theirs, reads_⟩
    have row : id ∈ state.nodesOut.keys := by
      rw [← ids_partNodes] at theirs
      obtain ⟨view, listed, rfl⟩ := List.mem_map.mp theirs
      have done := finished view (by
        rw [front]
        exact List.mem_append_left _ (List.mem_flatMap.mpr ⟨other, earlier, listed⟩))
      rw [Task.State.finished, Option.any_eq_true] at done
      obtain ⟨entry, found, _⟩ := done
      exact Dict.mem_keys_of_get? found
    exact apart other earlier theirs (sees id row reads_)
  · intro calm id row reads_
    rcases rows id row with early | rfl
    · rw [front, List.map_append, List.mem_append] at early
      rcases early with theirs | ours
      · rw [ids_flatMap] at theirs
        obtain ⟨other, earlier, listed⟩ := List.mem_flatMap.mp theirs
        exact absurd ⟨id, listed, reads_⟩ (calm other earlier)
      · obtain ⟨view, listed, rfl⟩ := List.mem_map.mp ours
        exact mineIds view (inside listed)
    · exact mineIds node own

variable [Scanner] [FloatText]

/-- The graph of an accepted decomposition keeps its tasks apart exactly when no two of them collide,
and a node that is due sees the rows of its task exactly when no earlier task leaks into it. -/
theorem mission_apart_iff {mission : Mission} {reply : List Char} {dec : Decomposition}
    (decided : decompose mission reply = .ok dec) {parts : List Part}
    (tasks : parts.map Prod.fst = dec.tasks) (gated : ∀ part ∈ parts, Gated part.2) (planner : Json) :
    ∃ graph, compose mission.mission parts planner = .ok graph ∧
      (((planNodes graph).map PlanNode.id).Nodup ∧ AfterOwn (planNodes graph) ↔
        parts.Pairwise (fun part other => ¬ Collides part other ∧ ¬ Collides other part)) ∧
      ∀ (config : Config) (world : World) (plan : Json) (node : PlanNode) (rest : List PlanNode)
        (state : Task.State), config.graph = graph →
        Reachable config world (.running plan (node :: rest), state) →
        state.finished node.id = false →
        ∀ first part later, parts = first ++ part :: later → node ∈ partNodes part →
          (SeesOwn (node.raw.getD "task" .null) part state.nodesOut ↔
            ∀ other ∈ first, ¬ Leaks other part) := by
  have distinct : (parts.map (fun part => part.1.id)).Nodup := by
    obtain ⟨fields, _, checked⟩ := of_bind decided
    have ids := (tasks_of_decomposed (mapError_eq_ok.mp checked)).2.1
    rw [← tasks, List.map_map] at ids
    exact ids
  obtain ⟨graph, made, truthy, nodes, listed⟩ := exists_compose gated mission.mission planner
  refine ⟨graph, made, ?_, ?_⟩
  · rw [nodes, ids_flatMap, ← nodup_ids_iff gated distinct]
    refine and_iff_left_of_imp ?_
    exact afterOwn_of_nodup gated
  · intro config world plan node rest state same reached due first part later split own
    exact seesOwn_due_iff truthy nodes listed same reached due split own

end

/-! ## Dots in the ids -/

section

local instance tidyHost : Host := asciiHost

local instance tidyFloats : FloatText := exactDecimals

local instance tidyScanner : Scanner := ⟨fun _ => none, fun _ => "Expecting value"⟩

def tidyMission : Mission where
  mission := "tidy"
  seed := 0
  decomposer := "plugins.planner_vlm:provider"
  menu := ⟨["tidy"], ["moved"]⟩
  promptSha := ""

/-- A reply with the two task ids. -/
def tidyReply (first second : String) : Json :=
  .obj [("tasks", .arr [
    .obj [("id", .str first), ("task", .str "tidy"), ("goal", .arr [.str "moved"])],
    .obj [("id", .str second), ("task", .str "tidy"), ("goal", .arr [.str "moved"])]])]

def tidyTask (id : String) : MissionTask := ⟨id, some "tidy", ["moved()"]⟩

/-- A plan with one node. -/
def pushPlan (id : String) : Json :=
  .obj [("goal", .str "tidy"),
    ("nodes", .arr [
      .obj [("id", .str id), ("skill", .str "push"), ("args", .obj []), ("after", .arr [])]]),
    ("verify", .arr [.obj [("after", .str id), ("predicate", .str "moved")]])]

theorem proper_tidyReply (first second : String) : Proper (tidyReply first second) := by
  simp [tidyReply, Throughout, ThroughoutItems, ThroughoutFields]

theorem parse_tidyReply (first second : String) :
    parse "tasks" (print compact 0 (tidyReply first second)) = .ok (tidyReply first second).fields := by
  have read : parseValue (print compact 0 (tidyReply first second)) = .ok (tidyReply first second) := by
    rw [parseValue, loads_print compact (proper_tidyReply first second)]
    rfl
  rw [parse, read]
  rfl

theorem gated_parts (first second : String) {mine yours : String} (left : Gated (pushPlan mine))
    (right : Gated (pushPlan yours)) :
    ∀ part ∈ [(tidyTask first, pushPlan mine), (tidyTask second, pushPlan yours)], Gated part.2 := by
  intro part mem
  rcases List.mem_cons.mp mem with rfl | mem
  · exact left
  · rw [List.mem_singleton.mp mem]
    exact right

theorem gated_pushPlan : Gated (pushPlan "n") ∧ Gated (pushPlan "c") ∧ Gated (pushPlan "b.c") :=
  ⟨⟨[("push", [])], ["moved"], [], [], rfl⟩, ⟨[("push", [])], ["moved"], [], [], rfl⟩,
    ⟨[("push", [])], ["moved"], [], [], rfl⟩⟩

/-- A card whose one skill is pushing. -/
def pushConfig (graph : Json) : Config where
  catalogue := [("push", [])]
  oracles := ["moved"]
  requirements := []
  records := [⟨.str "push", .str "push", [], [], ["moved()"], [], []⟩]
  facts := []
  objects := []
  graph := graph
  seed := 0
  maxReplans := 0
  maxActuations := 8
  segmentRetries := 0

/-- Every push succeeds. -/
def pushWorld : World where
  plan := fun _ _ => .ok .null
  handle := fun _ _ _ _ => .ok { success := true }
  cancelled := fun _ => false

def dueAt : Option (Point × Task.State) → Option (Json × PlanNode × List PlanNode × Task.State)
  | some (.running plan (node :: rest), state) =>
      if state.finished node.id then none else some (plan, node, rest, state)
  | _ => none

theorem reachable_of_dueAt {config : Config} {world : World} {turns : Nat} {plan : Json} {node : PlanNode}
    {rest : List PlanNode} {state : Task.State}
    (found : dueAt (Loop.advance (Task.step config world) turns (.consulting, {})) =
      some (plan, node, rest, state)) :
    Reachable config world (.running plan (node :: rest), state) ∧ state.finished node.id = false := by
  unfold dueAt at found
  split at found
  · next arrived =>
      split at found
      · cases found
      · next unfinished =>
          cases found
          exact ⟨Loop.reaches_of_advance arrived, Bool.eq_false_of_not_eq_true unfinished⟩
  · cases found

/-- Two tasks with one push each. -/
def pushParts (first second mine yours : String) : List Part :=
  [(tidyTask first, pushPlan mine), (tidyTask second, pushPlan yours)]

def pushGraph (parts : List Part) : Json := ((compose "tidy" parts .null).toOption).getD .null

theorem composedIds_push (id name : String) : composedIds (tidyTask id, pushPlan name) = [under id name] := rfl

theorem exists_due {first second mine yours : String} {parts : List Part} {graph : Json}
    (pair : parts = pushParts first second mine yours) (made : compose "tidy" parts .null = .ok graph)
    (truthy : graph.truthy = true) (nodes : planNodes graph = parts.flatMap partNodes)
    (differ : under first mine ≠ under second yours)
    (arrives : (dueAt (Loop.advance (Task.step (pushConfig (pushGraph parts)) pushWorld) 3
      (.consulting, {}))).any (fun due => decide (due.2.1.id = under second yours)) = true) :
    ∃ plan node rest state, Reachable (pushConfig graph) pushWorld (.running plan (node :: rest), state) ∧
      state.finished node.id = false ∧ node ∈ partNodes (tidyTask second, pushPlan yours) := by
  have same : pushGraph parts = graph := by
    rw [pushGraph, made]
    rfl
  rw [same, Option.any_eq_true] at arrives
  obtain ⟨⟨plan, node, rest, state⟩, found, named⟩ := arrives
  obtain ⟨reached, due⟩ := reachable_of_dueAt found
  refine ⟨plan, node, rest, state, reached, due, ?_⟩
  obtain ⟨_, _, before, place, _⟩ := Task.rows_of_due truthy rfl reached due
  have mem : node ∈ parts.flatMap partNodes := by
    rw [← nodes, place]
    exact List.mem_append_right _ (.head _)
  obtain ⟨part, listed, own⟩ := List.mem_flatMap.mp mem
  rw [pair] at listed
  rcases List.mem_cons.mp listed with rfl | listed
  · have id : node.id ∈ composedIds (tidyTask first, pushPlan mine) := by
      rw [← ids_partNodes]
      exact List.mem_map_of_mem own
    rw [composedIds_push, List.mem_singleton] at id
    exact absurd (id.symm.trans (of_decide_eq_true named)) differ
  · rw [← List.mem_singleton.mp listed]
    exact own

/-- Two tasks without dots keep apart, and the second sees its own push when it is due. -/
theorem mission_apart_tidy :
    ∃ graph, compose "tidy" (pushParts "a" "b" "n" "n") .null = .ok graph ∧
      (((planNodes graph).map PlanNode.id).Nodup ∧ AfterOwn (planNodes graph)) ∧
      ∃ plan node rest state,
        Reachable (pushConfig graph) pushWorld (.running plan (node :: rest), state) ∧
          SeesOwn (node.raw.getD "task" .null) (tidyTask "b", pushPlan "n") state.nodesOut := by
  have decided : decompose tidyMission (print compact 0 (tidyReply "a" "b")) =
      .ok ⟨[tidyTask "a", tidyTask "b"], "", ""⟩ := by
    rw [decompose, parse_tidyReply]
    rfl
  have gated := gated_parts "a" "b" gated_pushPlan.1 gated_pushPlan.1
  obtain ⟨other, again, truthy, nodes, _⟩ := exists_compose gated "tidy" .null
  obtain ⟨graph, made, static, runs⟩ := mission_apart_iff decided rfl gated .null
  have one : other = graph := Except.ok.inj (again.symm.trans made)
  rw [one] at truthy nodes
  refine ⟨graph, made, static.mpr ?_, ?_⟩
  · refine List.pairwise_pair.mpr ⟨?_, ?_⟩
    · rintro ⟨piece, _, same, _⟩
      exact absurd (Task.inTask_iff.mpr ⟨piece, same⟩) (by decide)
    · rintro ⟨piece, _, same, _⟩
      exact absurd (Task.inTask_iff.mpr ⟨piece, same⟩) (by decide)
  · obtain ⟨plan, node, rest, state, reached, due, own⟩ :=
      exists_due rfl made truthy nodes (by decide) (by decide +kernel)
    refine ⟨plan, node, rest, state, reached, ?_⟩
    apply (runs _ _ plan node rest state rfl reached due [(tidyTask "a", pushPlan "n")] _ [] rfl own).mpr
    intro other listed
    rw [List.mem_singleton.mp listed]
    rintro ⟨id, theirs, inside⟩
    rw [composedIds_push, List.mem_singleton] at theirs
    rw [theirs] at inside
    exact absurd inside (by decide)

/-- With the tasks `a.b` and `a`, a node of each can have one id in the graph; and where the ids
differ, the second task sees the row of the first. -/
theorem dotted_tasks_mix :
    decompose tidyMission (print compact 0 (tidyReply "a.b" "a")) =
        .ok ⟨[tidyTask "a.b", tidyTask "a"], "", ""⟩ ∧
      (∀ part ∈ pushParts "a.b" "a" "c" "b.c" ++ pushParts "a.b" "a" "c" "n", Gated part.2) ∧
      (∃ graph, compose "tidy" (pushParts "a.b" "a" "c" "b.c") .null = .ok graph ∧
        ¬ ((planNodes graph).map PlanNode.id).Nodup) ∧
      ∃ graph, compose "tidy" (pushParts "a.b" "a" "c" "n") .null = .ok graph ∧
        ∃ plan node rest state,
          Reachable (pushConfig graph) pushWorld (.running plan (node :: rest), state) ∧
            state.finished node.id = false ∧ node ∈ partNodes (tidyTask "a", pushPlan "n") ∧
            ¬ SeesOwn (node.raw.getD "task" .null) (tidyTask "a", pushPlan "n") state.nodesOut := by
  obtain ⟨plain, inner, dotted⟩ := gated_pushPlan
  have collide := gated_parts "a.b" "a" inner dotted
  have leak := gated_parts "a.b" "a" inner plain
  refine ⟨?_, ?_, ?_, ?_⟩
  · rw [decompose, parse_tidyReply]
    rfl
  · intro part member
    rcases List.mem_append.mp member with member | member
    · exact collide part member
    · exact leak part member
  · obtain ⟨graph, made, _, nodes, _⟩ := exists_compose collide "tidy" .null
    refine ⟨graph, made, ?_⟩
    rw [nodes, ids_flatMap]
    decide
  · obtain ⟨graph, made, truthy, nodes, tasks⟩ := exists_compose leak "tidy" .null
    obtain ⟨plan, node, rest, state, reached, due, own⟩ :=
      exists_due rfl made truthy nodes (by decide) (by decide +kernel)
    refine ⟨graph, made, plan, node, rest, state, reached, due, own, ?_⟩
    have sees : SeesOwn (node.raw.getD "task" .null) (tidyTask "a", pushPlan "n") state.nodesOut ↔
        ∀ other ∈ [(tidyTask "a.b", pushPlan "c")], ¬ Leaks other (tidyTask "a", pushPlan "n") :=
      seesOwn_due_iff truthy nodes tasks rfl reached due rfl own
    rw [sees]
    intro calm
    apply calm _ List.mem_cons_self
    refine ⟨"a.b.c", List.mem_singleton.mpr rfl, ?_⟩
    decide

end

end Runtime
end PhysicalHarness
