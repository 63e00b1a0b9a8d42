import Mathlib.Data.List.Perm.Basic
import PhysicalHarness.Lib.Finishing
import PhysicalHarness.Task.Reading

namespace PhysicalHarness
namespace Task

open Python Protocol Finishing Loop Fallible
open Relation (TransGen)

section

variable [Host]

/-!
# The protocol of each object

A task may require that every object goes through the same skills.  The gate looks at one list of
nodes and at the sets of ancestors that it collects on the way.  What the task needs is about all
the orders in which the dependencies let the nodes run: in each of them the required calls on an
object are made once each, in the required order.
-/

/-! ## The orders of a plan -/

/-- The nodes in an order in which each comes after the nodes it depends on. -/
structure TopologicalOrder (nodes order : List PlanNode) : Prop where
  perm : order.Perm nodes
  placed : Always (fun past node => ∀ a ∈ node.after, a ∈ past.map PlanNode.id) order

def dependsOn (nodes : List PlanNode) (id : String) : List String :=
  (nodes.filter (fun node => node.id = id)).flatMap PlanNode.after

def LeadsTo (nodes : List PlanNode) : String → String → Prop :=
  TransGen (fun a b => a ∈ dependsOn nodes b)

omit [Host] in
theorem mem_dependsOn {nodes : List PlanNode} {a id : String} :
    a ∈ dependsOn nodes id ↔ ∃ node ∈ nodes, node.id = id ∧ a ∈ node.after := by
  simp [dependsOn, and_assoc]

omit [Host] in
theorem eq_of_id_eq {nodes : List PlanNode} (distinct : (nodes.map PlanNode.id).Nodup)
    {node other : PlanNode} (mem : node ∈ nodes) (also : other ∈ nodes)
    (same : node.id = other.id) : node = other :=
  List.inj_on_of_nodup_map distinct mem also same

namespace TopologicalOrder

variable {nodes order : List PlanNode} (sorted : TopologicalOrder nodes order)
  (distinct : (nodes.map PlanNode.id).Nodup)

include sorted distinct

omit [Host] in
theorem distinct_ids : (order.map PlanNode.id).Nodup :=
  (sorted.perm.map PlanNode.id).nodup_iff.mpr distinct

omit [Host] in
theorem finished : Finished (dependsOn nodes) (order.map PlanNode.id) := by
  intro first id rest split a edge
  obtain ⟨before, later, orderEq, firstEq, restEq⟩ := List.map_eq_append_iff.mp split
  obtain ⟨node, after, laterEq, idEq, _⟩ := List.map_eq_cons_iff.mp restEq
  subst firstEq laterEq idEq
  obtain ⟨other, mem, same, depends⟩ := mem_dependsOn.mp edge
  have listed : node ∈ nodes := by
    apply sorted.perm.subset
    rw [orderEq]
    exact List.mem_append_right _ (.head _)
  rw [eq_of_id_eq distinct mem listed same] at depends
  exact sorted.placed before node after orderEq a depends

omit [Host] in
theorem idxOf_lt {a b : String} (path : LeadsTo nodes a b) :
    (order.map PlanNode.id).idxOf a < (order.map PlanNode.id).idxOf b := by
  apply rank_lt_of_transGen _ path
  intro a b edge
  obtain ⟨node, mem, same, _⟩ := mem_dependsOn.mp edge
  have listed : b ∈ order.map PlanNode.id :=
    List.mem_map.mpr ⟨node, sorted.perm.symm.subset mem, same⟩
  exact (sorted.finished distinct).idxOf_lt listed edge

omit [Host] in
theorem pairwise_idxOf :
    order.Pairwise (fun node other =>
      (order.map PlanNode.id).idxOf node.id < (order.map PlanNode.id).idxOf other.id) := by
  have place : ∀ (k : Nat) (bound : k < order.length),
      (order.map PlanNode.id).idxOf (order[k]).id = k := by
    intro k bound
    have inside : k < (order.map PlanNode.id).length := by
      rw [List.length_map]
      exact bound
    have here := (sorted.distinct_ids distinct).idxOf_getElem k inside
    rw [List.getElem_map] at here
    exact here
  rw [List.pairwise_iff_getElem]
  intro i j iBound jBound before
  rw [place i iBound, place j jBound]
  exact before

omit [Host] in
/-- Nodes that follow each other along dependencies are met in their order, and nothing else with
the same mark is met between them. -/
theorem filter_eq {calls : List PlanNode} {marked : PlanNode → Bool}
    (members : ∀ node, node ∈ calls ↔ node ∈ nodes ∧ marked node = true)
    (chained : calls.Pairwise (fun earlier call => LeadsTo nodes earlier.id call.id)) :
    order.filter marked = calls := by
  have rising : calls.Pairwise (fun node other =>
      (order.map PlanNode.id).idxOf node.id < (order.map PlanNode.id).idxOf other.id) :=
    chained.imp (fun path => sorted.idxOf_lt distinct path)
  have listed := (sorted.pairwise_idxOf distinct).filter marked
  have perm : (order.filter marked).Perm calls := by
    rw [List.perm_ext_iff_of_nodup (listed.imp (fun less same => by simp [same] at less))
      (rising.imp (fun less same => by simp [same] at less))]
    intro node
    rw [List.mem_filter, members, sorted.perm.mem_iff]
  exact perm.eq_of_pairwise (fun a b _ _ less more => absurd less (Nat.lt_asymm more)) listed rising

end TopologicalOrder

def AncestorsSound (nodes : List PlanNode) (sets : Dict String (List String)) : Prop :=
  ∀ id found, sets.get? id = some found → ∀ a ∈ found, LeadsTo nodes a id

omit [Host] in
theorem ancestorSets_sound {nodes rest : List PlanNode} {sets : Dict String (List String)}
    (within : ∀ node ∈ rest, node ∈ nodes) (sound : AncestorsSound nodes sets) :
    AncestorsSound nodes (ancestorSets rest sets) := by
  induction rest generalizing sets with
  | nil => exact sound
  | cons node rest ih =>
      rw [ancestorSets]
      apply ih (fun other mem => within other (.tail _ mem))
      intro id found held a mem
      rw [Dict.get?_set] at held
      by_cases here : node.id = id
      · rw [if_pos here] at held
        cases held
        have edge : ∀ parent ∈ node.after, parent ∈ dependsOn nodes id := fun parent depends =>
          mem_dependsOn.mpr ⟨node, within node (.head _), here, depends⟩
        rcases List.mem_union_iff.mp mem with direct | inherited
        · exact TransGen.single (edge a direct)
        · obtain ⟨parent, depends, held⟩ := List.mem_flatMap.mp inherited
          cases set : sets.get? parent with
          | none =>
              rw [set] at held
              cases held
          | some found =>
              rw [set] at held
              exact TransGen.tail (sound parent found set a held) (edge parent depends)
      · rw [if_neg here] at held
        exact sound id found held a mem

def isCall (skill object : String) (node : PlanNode) : Bool :=
  node.skill.eq (.str skill) && (objectOf node).eq (.str object)

def isRequiredCall (order : List String) (object : String) (node : PlanNode) : Bool :=
  order.any (fun skill => isCall skill object node)

omit [Host] in
theorem isCall_iff {skill object : String} {node : PlanNode} :
    isCall skill object node = true ↔ node.skill = .str skill ∧ objectOf node = .str object := by
  rw [isCall, Bool.and_eq_true, Json.eq_str_iff, Json.eq_str_iff]

structure Calls (nodes : List PlanNode) (ancestors : Dict String (List String)) (object : String)
    (previous : Option PlanNode) (skills : List String) (calls : List PlanNode) : Prop where
  single : List.Forall₂ (fun skill call => nodes.filter (isCall skill object) = [call]) skills calls
  chained : List.IsChain (fun earlier call : PlanNode =>
    earlier.id ∈ (ancestors.get? call.id).getD []) (previous.toList ++ calls)

variable {ancestors : Dict String (List String)} {skills : List String} {calls : List PlanNode}

theorem calls_of_checkOrder {nodes : List PlanNode} {object : String} {previous : Option PlanNode}
    (passed : checkOrder nodes ancestors object previous skills = .ok ()) :
    ∃ calls, Calls nodes ancestors object previous skills calls := by
  induction skills generalizing previous with
  | nil =>
      refine ⟨[], List.Forall₂.nil, ?_⟩
      cases previous with
      | none => exact List.IsChain.nil
      | some earlier => exact List.IsChain.singleton earlier
  | cons skill rest ih =>
      rw [checkOrder] at passed
      split at passed
      · rename_i current found
        rw [Gate.require_bind_eq_ok] at passed
        obtain ⟨calls, walked⟩ := ih passed.2
        refine ⟨current :: calls, List.Forall₂.cons found walked.single, ?_⟩
        cases previous with
        | none => exact walked.chained
        | some earlier =>
            apply List.IsChain.cons_cons
            · exact of_decide_eq_true passed.1
            · exact walked.chained
      · cases passed

omit [Host] in
theorem Calls.pairwise {nodes : List PlanNode} {object : String}
    (walked : Calls nodes ancestors object none skills calls)
    (sound : AncestorsSound nodes ancestors) :
    calls.Pairwise (fun earlier call => LeadsTo nodes earlier.id call.id) := by
  have chained : List.IsChain (fun earlier call : PlanNode =>
      LeadsTo nodes earlier.id call.id) calls := by
    apply walked.chained.imp
    intro earlier call mem
    cases found : ancestors.get? call.id with
    | none =>
        rw [found] at mem
        cases mem
    | some set =>
        rw [found] at mem
        exact sound _ set found _ mem
  have : Trans (fun earlier call : PlanNode => LeadsTo nodes earlier.id call.id)
      (fun earlier call : PlanNode => LeadsTo nodes earlier.id call.id)
      (fun earlier call : PlanNode => LeadsTo nodes earlier.id call.id) :=
    ⟨fun first second => TransGen.trans first second⟩
  exact List.isChain_iff_pairwise.mp chained

omit [Host] in
theorem Calls.mem_iff {nodes : List PlanNode} {object : String}
    (walked : Calls nodes ancestors object none skills calls) (node : PlanNode) :
    node ∈ calls ↔ node ∈ nodes ∧ isRequiredCall skills object node = true := by
  have single := walked.single
  clear walked
  induction single with
  | nil => simp [isRequiredCall]
  | @cons skill call _ _ found _ ih =>
      have here : node = call ↔ node ∈ nodes ∧ isCall skill object node = true := by
        rw [← List.mem_filter, found, List.mem_singleton]
      rw [List.mem_cons, isRequiredCall, List.any_cons, Bool.or_eq_true, and_or_left]
      exact or_congr here ih

omit [Host] in
theorem Calls.skills_eq {nodes : List PlanNode} {object : String}
    (walked : Calls nodes ancestors object none skills calls) :
    calls.map PlanNode.skill = skills.map .str := by
  have single := walked.single
  clear walked
  induction single with
  | nil => rfl
  | @cons skill call _ _ found _ ih =>
      have mem : call ∈ nodes.filter (isCall skill object) := by
        rw [found]
        exact List.mem_singleton.mpr rfl
      rw [List.map_cons, List.map_cons, ih, (isCall_iff.mp (List.mem_filter.mp mem).2).1]

/-! ## The requirements -/

/-- The protocol that the requirements put on the nodes of a plan. -/
structure ObjectProtocol (nodes : List PlanNode) (objects order : List String) (targets : Json) :
    Prop where
  inOrder : ∀ sequence, TopologicalOrder nodes sequence → ∀ object ∈ objects,
    (sequence.filter (isRequiredCall order object)).map PlanNode.skill = order.map .str
  declared : ∀ node ∈ nodes, ∀ skill ∈ order, node.skill = .str skill →
    ∃ object ∈ objects, objectOf node = .str object
  mapped : targets = .null ∨ ∃ fields, targets = .obj fields ∧
    ∀ node ∈ nodes, ∀ object ∈ objects, objectOf node = .str object →
      ∀ target, Assoc.get? node.args "target" = some target →
        target.eq ((Assoc.get? fields object).getD .null) = true

theorem objectProtocol_of_checks {nodes : List PlanNode} {objects order : List String}
    {targets : Json} (distinct : (nodes.map PlanNode.id).Nodup)
    (declared : Gate.each (checkDeclared objects order) nodes = .ok ())
    (ordered : Gate.each (fun object =>
      checkOrder nodes (ancestorSets nodes Dict.empty) object none order) objects = .ok ())
    (mapped : checkTargets objects targets nodes = .ok ()) :
    ObjectProtocol nodes objects order targets where
  inOrder := by
    intro sequence sorted object mem
    obtain ⟨calls, walked⟩ := calls_of_checkOrder (Gate.each_eq_ok_iff.mp ordered object mem)
    have sound : AncestorsSound nodes (ancestorSets nodes Dict.empty) := by
      apply ancestorSets_sound (fun _ => id)
      intro id found held
      rw [Dict.get?_empty] at held
      cases held
    rw [sorted.filter_eq distinct walked.mem_iff (walked.pairwise sound)]
    exact walked.skills_eq
  declared := by
    intro node mem skill required named
    have passed := Gate.each_eq_ok_iff.mp declared node mem
    have listed : order.any (fun skill => node.skill.eq (.str skill)) = true :=
      List.any_eq_true.mpr ⟨skill, required, (Json.eq_str_iff _ _).mpr named⟩
    rw [checkDeclared, if_pos listed, Gate.lift_bind_eq_ok] at passed
    obtain ⟨known, looked, passed⟩ := passed
    rw [inSet, bind_eq_ok] at looked
    obtain ⟨_, _, found⟩ := looked
    cases found
    obtain ⟨object, listed, same⟩ := List.any_eq_true.mp (Gate.require_eq_ok_iff.mp passed)
    exact ⟨object, listed, (Json.eq_str_iff _ _).mp same⟩
  mapped := by
    cases targets with
    | null => exact Or.inl rfl
    | obj fields =>
        refine Or.inr ⟨fields, rfl, ?_⟩
        intro node mem object listed named target found
        have passed := Gate.each_eq_ok_iff.mp mapped node mem
        have looked : inSet (objectOf node) objects = .ok true := by
          have same : objects.any (fun name => (Json.str object).eq (.str name)) = true :=
            List.any_eq_true.mpr ⟨object, listed, (Json.eq_str_iff _ _).mpr rfl⟩
          rw [inSet, named, same]
          rfl
        rw [checkTarget, looked, found, named] at passed
        exact (Gate.require_eq_ok_iff.mp passed)
    | _ => cases mapped

/-- The values that switch the requirements on. -/
def DeclaresProtocol (requirements : List (String × Json)) : Prop :=
  (Json.obj requirements).getD "objects" .null ≠ .null ∨
    (Json.obj requirements).getD "required_per_object_order" .null ≠ .null

omit [Host] in
theorem isNull_iff {value : Json} : value.isNull = true ↔ value = .null := by
  cases value <;> simp [Json.isNull]

omit [Host] in
theorem strings_of_texts {items : List Json} (each : ∀ item ∈ items, item.isNonemptyStr = true) :
    (strings (.arr items)).map .str = items := by
  rw [strings, Json.arr?, Option.getD_some]
  induction items with
  | nil => rfl
  | cons item rest ih =>
      obtain ⟨text, same, _⟩ := (Json.isNonemptyStr_iff _).mp (each item (.head _))
      subst same
      simp [Json.str?, ih (fun item mem => each item (List.mem_cons_of_mem _ mem))]

omit [Host] in
theorem strings_of_nonemptyStrings {value : Json} (form : nonemptyStrings value = true) :
    value = .arr ((strings value).map .str) := by
  cases value with
  | arr items =>
      cases items with
      | nil => cases form
      | cons first rest =>
          simp only [nonemptyStrings, Json.arr?, List.all_eq_true] at form
          rw [strings_of_texts form]
  | _ => cases form

/-- An accepted plan puts every declared object through the required skills, once each and in
their order, however its dependencies are put in line. -/
theorem requirements_enforced {plan : Json} {catalogue : Catalogue} {oracles : List String}
    {done : List Json} {requirements : List (String × Json)} {message : String}
    (accepts : validatePlan plan catalogue oracles done requirements = .ok (true, message))
    (declares : DeclaresProtocol requirements) :
    ∃ objects order : List String,
      (Json.obj requirements).getD "objects" .null = .arr (objects.map .str) ∧
      (Json.obj requirements).getD "required_per_object_order" .null = .arr (order.map .str) ∧
      ObjectProtocol (planNodes plan) objects order
        ((Json.obj requirements).getD "target_by_object" .null) := by
  have accepted := (validatePlan_accepts_iff.mp accepts).1
  have required := accepted.required
  have on : ¬ (((Json.obj requirements).getD "objects" .null).isNull &&
      ((Json.obj requirements).getD "required_per_object_order" .null).isNull) = true := by
    rw [Bool.and_eq_true, isNull_iff, isNull_iff]
    rintro ⟨noObjects, noOrder⟩
    exact declares.elim (fun named => named noObjects) (fun named => named noOrder)
  rw [checkRequirements] at required
  rw [if_neg on, Gate.require_bind_eq_ok, Gate.require_bind_eq_ok] at required
  obtain ⟨objects, order, stages⟩ := required
  obtain ⟨_, declared, stages⟩ := Fallible.of_bind stages
  obtain ⟨_, ordered, mapped⟩ := Fallible.of_bind stages
  exact ⟨_, _, strings_of_nonemptyStrings objects, strings_of_nonemptyStrings order,
    objectProtocol_of_checks accepted.inOrder.distinct declared ordered mapped⟩

end

section Example

local instance tidyHost : Host := asciiHost

private def tidyNode (id skill object : String) (after : List String) : Json :=
  .obj [("id", .str id), ("skill", .str skill),
    ("args", .obj (("object", .str object) ::
      if skill = "place" then [("target", .str "shelf")] else [])),
    ("after", .arr (after.map .str)), ("kind", .str "manipulate")]

private def tidyPlan : Json :=
  .obj [("goal", .str "tidy"),
    ("nodes", .arr [tidyNode "p1" "pick" "cup" [], tidyNode "p2" "pick" "mug" [],
      tidyNode "q1" "place" "cup" ["p1"], tidyNode "q2" "place" "mug" ["p2", "q1"]]),
    ("verify", .arr (["p1", "p2", "q1", "q2"].map (fun id =>
      .obj [("after", .str id), ("predicate", .str "seen")])))]

private def tidyCatalogue : Catalogue := [("pick", [("object", .str)]),
  ("place", [("object", .str), ("target", .str)])]

private def tidyRequirements : List (String × Json) :=
  [("objects", .arr [.str "cup", .str "mug"]),
    ("required_per_object_order", .arr [.str "pick", .str "place"]),
    ("target_by_object", .obj [("cup", .str "shelf"), ("mug", .str "shelf")])]

theorem requirements_enforced_cups :
    validatePlan tidyPlan tidyCatalogue ["seen"] [] tidyRequirements = .ok (true, "") ∧
      ∃ objects order : List String,
        (Json.obj tidyRequirements).getD "objects" .null = .arr (objects.map .str) ∧
        (Json.obj tidyRequirements).getD "required_per_object_order" .null =
          .arr (order.map .str) ∧
        ObjectProtocol (planNodes tidyPlan) objects order
          ((Json.obj tidyRequirements).getD "target_by_object" .null) := by
  have accepts : validatePlan tidyPlan tidyCatalogue ["seen"] [] tidyRequirements =
      .ok (true, "") := by
    decide +kernel
  refine ⟨accepts, requirements_enforced accepts ?_⟩
  refine Or.inl (fun absent => ?_)
  cases absent

end Example

end Task
end PhysicalHarness
