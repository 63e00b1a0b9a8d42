import PhysicalHarness.Lib.Expansion
import PhysicalHarness.Task.Reading

namespace PhysicalHarness
namespace Task

open Python Protocol Expansion Fallible

/-!
# Inserted recoveries

`insert_recovery` expands one node of a plan into its recovery and itself, and
`recover_plan` expands several nodes of its base plan.  Seen as an expansion of
the base, a reply is determined by the strategies it gives to base nodes, as
long as its ids are distinct, and it keeps the finished front of the last plan
when both give the nodes in that front the same strategies.
-/

theorem toList_recoverId (id : String) :
    (recoverId id).toList = "recover-".toList ++ id.toList := by
  rw [recoverId, String.toList_append]

theorem recovered_eq_some_iff {id node : String} :
    recovered id = some node ↔ id = recoverId node := by
  constructor
  · intro found
    unfold recovered at found
    split at found
    · rename_i isFront
      obtain ⟨tail, whole⟩ := List.isPrefixOf_iff_prefix.mp isFront
      have same := Option.some.inj found
      have left : ("recover-".toList ++ tail).drop "recover-".length = tail := List.drop_left' rfl
      rw [← whole, left] at same
      refine String.toList_injective ?_
      rw [toList_recoverId, ← same, ← whole]
      exact congrArg ("recover-".toList ++ ·) String.toList_ofList.symm
    · cases found
  · intro same
    have isFront : "recover-".toList.isPrefixOf id.toList = true := by
      rw [same, toList_recoverId, List.isPrefixOf_iff_prefix]
      exact List.prefix_append _ _
    unfold recovered
    rw [if_pos isFront, same, toList_recoverId]
    exact congrArg some (String.ofList_toList)

theorem recoverId_injective : Function.Injective recoverId := by
  intro first second same
  have both := (recovered_eq_some_iff.mpr (rfl : recoverId first = recoverId first)).symm.trans
    (recovered_eq_some_iff.mpr same)
  exact Option.some.inj both

theorem recoverId_length (id : String) : (recoverId id).toList.length = 8 + id.toList.length := by
  rw [toList_recoverId, List.length_append]
  rfl

theorem recoverId_ne (id : String) : recoverId id ≠ id := by
  intro same
  have lengths := recoverId_length id
  rw [same] at lengths
  omega

theorem recoverId_recoverId_ne (id : String) : recoverId (recoverId id) ≠ id := by
  intro same
  have outer := recoverId_length (recoverId id)
  have inner := recoverId_length id
  rw [same] at outer
  omega

/-! ## One insertion into one node -/

/-- `n["id"]` and `n["after"]` of a node that has them. -/
def idOf (node : Json) : String := (PlanNode.ofJson node).id

def depsOf (node : Json) : List String := (PlanNode.ofJson node).after

def withRecovery (strategy node : Json) : List Json :=
  [recoveryNode (idOf node) strategy ((depsOf node).map .str),
    node.setField "after" (.arr ((depsOf node ++ [recoverId (idOf node)]).map .str))]

/-- What `insert_recovery` makes of a node. -/
def insertAt (target : String) (strategy node : Json) : List Json :=
  if idOf node = target ∧ recoverId target ∉ depsOf node then withRecovery strategy node
  else [node]

theorem filterMap_str (texts : List String) : (texts.map Json.str).filterMap Json.str? = texts := by
  rw [List.filterMap_map]
  exact List.filterMap_some

theorem idOf_recoveryNode (id : String) (strategy : Json) (after : List Json) :
    idOf (recoveryNode id strategy after) = recoverId id := rfl

theorem depsOf_recoveryNode (id : String) (strategy : Json) (after : List String) :
    depsOf (recoveryNode id strategy (after.map .str)) = after := filterMap_str after

theorem idOf_setField_after (node fresh : Json) : idOf (node.setField "after" fresh) = idOf node := by
  simp [idOf, PlanNode.ofJson, Json.getD]

theorem depsOf_setField_after (node : Json) (after : List String) :
    depsOf (node.setField "after" (.arr (after.map .str))) = after := by
  simp only [depsOf, PlanNode.ofJson, Json.getD, Json.get?_setField, if_true, Option.getD_some,
    Json.arr?]
  exact filterMap_str after

theorem nodeReads_recoveryNode (id : String) (strategy : Json) (after : List String) :
    NodeReads (recoveryNode id strategy (after.map .str)) := by
  refine ⟨rfl, rfl, rfl, ?_⟩
  rw [show (PlanNode.ofJson (recoveryNode id strategy (after.map .str))).after = after from
    depsOf_recoveryNode id strategy after]
  rfl

theorem NodeReads.setAfter {node : Json} (reads : NodeReads node) (after : List String) :
    NodeReads (node.setField "after" (.arr (after.map .str))) := by
  constructor
  · rw [show (PlanNode.ofJson (node.setField "after" (.arr (after.map .str)))).id =
      (PlanNode.ofJson node).id from idOf_setField_after _ _]
    simpa using reads.id
  · simpa [PlanNode.ofJson, Json.getD] using reads.skill
  · simpa [PlanNode.ofJson, Json.getD] using reads.args
  · rw [show (PlanNode.ofJson (node.setField "after" (.arr (after.map .str)))).after = after from
      depsOf_setField_after _ _]
    simp

theorem nodeReads_withRecovery {node : Json} (reads : NodeReads node) (strategy : Json) :
    ∀ other ∈ withRecovery strategy node, NodeReads other := by
  intro other mem
  rcases List.mem_cons.mp mem with same | later
  · exact same ▸ nodeReads_recoveryNode _ _ _
  · exact List.mem_singleton.mp later ▸ reads.setAfter _

theorem any_eq_str (texts : List String) (wanted : String) :
    (texts.map Json.str).any (fun a => a.eq (.str wanted)) = true ↔ wanted ∈ texts := by
  simp [List.any_eq_true, Json.eq_str_iff]

theorem insertBefore_of_reads {node : Json} (reads : NodeReads node) (target : String)
    (strategy : Json) :
    insertBefore target strategy node =
      .ok (insertAt target strategy node, decide (idOf node = target)) := by
  have id : node.item "id" = .ok (.str (idOf node)) := item_of_get? reads.id
  have after : node.item "after" = .ok (.arr ((depsOf node).map .str)) := item_of_get? reads.after
  rw [insertBefore, id, bind_ok, after]
  by_cases here : idOf node = target
  · subst here
    have yes : (Json.str (idOf node)).eq (.str (idOf node)) = true := Json.eq_self _
    by_cases waits : recoverId (idOf node) ∈ depsOf node
    · have found := (any_eq_str _ _).mpr waits
      simp only [yes, if_true, Json.iter, bind_ok, found, pure_eq_ok, insertAt,
        waits, not_true_eq_false, and_false, if_false, decide_true]
    · have absent := mt (any_eq_str _ _).mp waits
      simp only [yes, if_true, Json.iter, bind_ok, absent, pure_eq_ok, insertAt,
        waits, not_false_eq_true, and_self, decide_true, withRecovery, List.map_append,
        List.map_singleton, Bool.false_eq_true, if_false]
  · have no : (Json.str (idOf node)).eq (.str target) = false := by
      rw [Bool.eq_false_iff]
      intro same
      exact here (Json.str.inj ((Json.eq_str_iff _ _).mp same))
    simp [no, insertAt, here]

structure Listed (plan : Json) : Prop where
  nodes : plan.get? "nodes" = some (.arr (nodesOf plan))
  reads : ∀ node ∈ nodesOf plan, NodeReads node

def idsOf (plan : Json) : List String := (nodesOf plan).map idOf

variable {target : String} {plan result : Json}

theorem nodesOf_of_get? {nodes : List Json} (listed : plan.get? "nodes" = some (.arr nodes)) :
    nodesOf plan = nodes := by
  rw [nodesOf, Json.getD, listed]
  rfl

theorem nodeReads_insertAt {node : Json} (reads : NodeReads node) (target : String)
    (strategy : Json) : ∀ other ∈ insertAt target strategy node, NodeReads other := by
  intro other mem
  unfold insertAt at mem
  split at mem
  · exact nodeReads_withRecovery reads strategy other mem
  · exact List.mem_singleton.mp mem ▸ reads

theorem ids_withRecovery (strategy node : Json) :
    (withRecovery strategy node).map idOf = [recoverId (idOf node), idOf node] := by
  rw [withRecovery, List.map_cons, List.map_singleton, idOf_recoveryNode, idOf_setField_after]

theorem keeps_insertAt (target : String) (strategy node : Json) :
    [idOf node].Sublist ((insertAt target strategy node).map idOf) := by
  unfold insertAt
  split
  · rw [ids_withRecovery]
    exact List.sublist_cons_self _ _
  · exact List.Sublist.refl _

theorem insertRecovery_eq_ok (listed : Listed plan) {strategy : Json}
    (inserted : insertRecovery plan target strategy = .ok result) :
    Listed result ∧ nodesOf result = (nodesOf plan).flatMap (insertAt target strategy) ∧
      ∀ name, name ≠ "nodes" → result.get? name = plan.get? name := by
  have found : (nodesOf plan).mapM (insertBefore target strategy) = .ok ((nodesOf plan).map
      (fun node => (insertAt target strategy node, decide (idOf node = target)))) := by
    rw [mapM_eq_ok_iff, List.forall₂_map_right_iff, List.forall₂_same]
    exact fun node mem => insertBefore_of_reads (listed.reads node mem) target strategy
  rw [insertRecovery, item_of_get? listed.nodes, bind_ok, Json.iter, bind_ok,
    found, bind_ok] at inserted
  split at inserted
  · have same := (Except.ok.inj inserted).symm
    have flat : ((nodesOf plan).map (fun node =>
        (insertAt target strategy node, decide (idOf node = target)))).map Prod.fst =
          (nodesOf plan).map (insertAt target strategy) := by
      rw [List.map_map]
      rfl
    rw [flat, ← List.flatMap_def] at same
    have held : result.get? "nodes" =
        some (.arr ((nodesOf plan).flatMap (insertAt target strategy))) := by
      rw [same, Json.get?_setField, if_pos rfl]
    have nodes := nodesOf_of_get? held
    refine ⟨⟨nodes ▸ held, fun node mem => ?_⟩, nodes, fun name other => ?_⟩
    · rw [nodes] at mem
      obtain ⟨source, sourceMember, inside⟩ := List.mem_flatMap.mp mem
      exact nodeReads_insertAt (listed.reads source sourceMember) target strategy node inside
    · rw [same, Json.get?_setField, if_neg other.symm]
  · cases inserted

theorem sublist_insertRecovery (listed : Listed plan) {strategy : Json}
    (inserted : insertRecovery plan target strategy = .ok result) :
    (idsOf plan).Sublist (idsOf result) := by
  rw [idsOf, idsOf, (insertRecovery_eq_ok listed inserted).2.1]
  exact map_sublist_flatMap (fun node _ => keeps_insertAt target strategy node)

theorem listed_insertIf (listed : Listed plan) {strategy : Option Json}
    (inserted : insertIf plan target strategy = .ok result) :
    Listed result ∧ (idsOf plan).Sublist (idsOf result) := by
  cases strategy with
  | none =>
      cases inserted
      exact ⟨listed, List.Sublist.refl _⟩
  | some strategy =>
      exact ⟨(insertRecovery_eq_ok listed inserted).1, sublist_insertRecovery listed inserted⟩

theorem sublist_reinsert {repairs : Repairs} {ran : List (String × Json)} {ids : List String}
    (listed : Listed plan) (reinserted : reinsert repairs ran ids plan = .ok result) :
    Listed result ∧ (idsOf plan).Sublist (idsOf result) := by
  induction ids generalizing plan with
  | nil =>
      cases reinserted
      exact ⟨listed, List.Sublist.refl _⟩
  | cons id rest ih =>
      rw [reinsert] at reinserted
      cases named : recovered id with
      | none =>
          rw [named] at reinserted
          exact ih listed reinserted
      | some node =>
          rw [named] at reinserted
          obtain ⟨middle, inserted, later⟩ := of_bind reinserted
          obtain ⟨middleListed, first⟩ := listed_insertIf listed inserted
          obtain ⟨resultListed, second⟩ := ih middleListed later
          exact ⟨resultListed, first.trans second⟩

/-! ## Expansions of a base plan -/

abbrev Marks := Json → Option Json

def spliced (marks : Marks) (node : Json) : List Json :=
  match marks node with
  | none => [node]
  | some strategy => withRecovery strategy node

def Marks.insert (marks : Marks) (target : String) (strategy : Json) : Marks := fun node =>
  (marks node).or
    (if idOf node = target ∧ recoverId target ∉ depsOf node then some strategy else none)

theorem Marks.of_insert {marks : Marks} {node given strategy : Json}
    (marked : marks.insert target given node = some strategy) :
    marks node = some strategy ∨
      (idOf node = target ∧ recoverId target ∉ depsOf node) ∧ given = strategy := by
  rcases Option.or_eq_some_iff.mp marked with before | ⟨_, fresh⟩
  · exact Or.inl before
  · obtain ⟨here, same⟩ := Option.ite_none_right_eq_some.mp fresh
    exact Or.inr ⟨here, Option.some.inj same⟩

structure Shaped (base plan : Json) (marks : Marks) : Prop where
  listed : Listed plan
  nodes : nodesOf plan = (nodesOf base).flatMap (spliced marks)
  others : ∀ name, name ≠ "nodes" → plan.get? name = base.get? name

theorem shaped_base {base : Json} (listed : Listed base) : Shaped base base (fun _ => none) where
  listed := listed
  nodes := (List.flatMap_singleton' _).symm
  others := fun _ _ => rfl

theorem keeps_spliced (marks : Marks) (node : Json) :
    [idOf node].Sublist ((spliced marks node).map idOf) := by
  unfold spliced
  split
  · exact List.Sublist.refl _
  · rw [ids_withRecovery]
    exact List.sublist_cons_self _ _

theorem id_of_mem_spliced {marks : Marks} {node : Json} {id : String}
    (mem : id ∈ (spliced marks node).map idOf) :
    id = idOf node ∨ (marks node).isSome = true ∧ id = recoverId (idOf node) := by
  unfold spliced at mem
  split at mem
  · exact Or.inl (List.mem_singleton.mp mem)
  · rename_i strategy marked
    rw [ids_withRecovery] at mem
    rcases List.mem_cons.mp mem with same | same
    · exact Or.inr ⟨by rw [marked]; rfl, same⟩
    · exact Or.inl (List.mem_singleton.mp same)

theorem spliced_insert {marks : Marks} {node strategy : Json}
    (flat : (marks node).isSome = true → recoverId (idOf node) = target →
      recoverId target ∈ depsOf node) :
    (spliced marks node).flatMap (insertAt target strategy) =
      spliced (marks.insert target strategy) node := by
  cases marked : marks node with
  | none =>
      by_cases here : idOf node = target ∧ recoverId target ∉ depsOf node
      · simp only [spliced, Marks.insert, marked, insertAt, here, Option.none_or, if_true,
          List.flatMap_singleton, and_self, not_false_eq_true]
      · simp only [spliced, Marks.insert, marked, insertAt, here, Option.none_or, if_false,
          List.flatMap_singleton]
  | some given =>
      have recovery : insertAt target strategy (recoveryNode (idOf node) given
          ((depsOf node).map .str)) =
            [recoveryNode (idOf node) given ((depsOf node).map .str)] := by
        rw [insertAt, if_neg]
        rintro ⟨same, waits⟩
        rw [depsOf_recoveryNode] at waits
        exact waits (flat (by rw [marked]; rfl) same)
      have itself : insertAt target strategy (node.setField "after"
          (.arr ((depsOf node ++ [recoverId (idOf node)]).map .str))) =
            [node.setField "after" (.arr ((depsOf node ++ [recoverId (idOf node)]).map .str))] := by
        rw [insertAt, if_neg]
        rintro ⟨same, waits⟩
        rw [idOf_setField_after] at same
        rw [depsOf_setField_after, same] at waits
        exact waits (List.mem_append_right _ (List.mem_singleton.mpr rfl))
      simp only [spliced, Marks.insert, marked, withRecovery, Option.some_or, List.flatMap_cons,
        List.flatMap_nil, recovery, itself, List.append_nil, List.singleton_append]

theorem Shaped.insert {base strategy : Json} {marks : Marks} (shaped : Shaped base plan marks)
    (flat : ∀ node ∈ nodesOf base, (marks node).isSome = true →
      recoverId (idOf node) = target → recoverId target ∈ depsOf node)
    (inserted : insertRecovery plan target strategy = .ok result) :
    Shaped base result (marks.insert target strategy) := by
  obtain ⟨listed, nodes, others⟩ := insertRecovery_eq_ok shaped.listed inserted
  refine ⟨listed, ?_, fun name other => (others name other).trans (shaped.others name other)⟩
  rw [nodes, shaped.nodes, List.flatMap_assoc]
  exact List.flatMap_congr (fun node mem => spliced_insert (flat node mem))

section

variable {base : Json} {old marks : Marks}

theorem mem_segment (marks : Marks) (target : String) (strategy node : Json) :
    ∃ other ∈ (spliced marks node).flatMap (insertAt target strategy), idOf other = idOf node := by
  have keeps : [idOf node].Sublist
      (((spliced marks node).flatMap (insertAt target strategy)).map idOf) :=
    (keeps_spliced marks node).trans
      (map_sublist_flatMap (fun other _ => keeps_insertAt target strategy other))
  exact List.mem_map.mp (keeps.subset (.head _))

/-- A finished recovery is never inserted into an inserted recovery: the plan
would hold an id twice. -/
theorem flat_of_distinct {plan result strategy : Json} {target : String}
    (shaped : Shaped base plan marks)
    (inserted : insertRecovery plan target strategy = .ok result) (distinct : (idsOf result).Nodup)
    (origin : recoverId target ∈ ((nodesOf base).flatMap (spliced old)).map idOf) :
    ∀ node ∈ nodesOf base, (marks node).isSome = true → recoverId (idOf node) = target →
      recoverId target ∈ depsOf node := by
  intro node mem marked same
  by_contra waits
  rw [idsOf, (insertRecovery_eq_ok shaped.listed inserted).2.1, shaped.nodes,
    List.flatMap_assoc] at distinct
  obtain ⟨given, givenEq⟩ := Option.isSome_iff_exists.mp marked
  have segment : ∀ other ∈ withRecovery strategy (recoveryNode (idOf node) given
      ((depsOf node).map .str)), other ∈ (spliced marks node).flatMap (insertAt target strategy) := by
    intro other inside
    refine List.mem_flatMap.mpr ⟨recoveryNode (idOf node) given ((depsOf node).map .str), ?_, ?_⟩
    · rw [spliced, givenEq]
      exact .head _
    · rw [insertAt, if_pos ⟨same, by rwa [depsOf_recoveryNode]⟩]
      exact inside
  have reached : ∀ id ∈ [recoverId target, target],
      ∃ other ∈ (spliced marks node).flatMap (insertAt target strategy), idOf other = id := by
    intro id listed
    have ids := ids_withRecovery strategy (recoveryNode (idOf node) given ((depsOf node).map .str))
    rw [idOf_recoveryNode, same] at ids
    rw [← ids] at listed
    obtain ⟨other, inside, named⟩ := List.mem_map.mp listed
    exact ⟨other, segment other inside, named⟩
  rw [List.map_flatMap] at origin
  obtain ⟨native, nativeMember, named⟩ := List.mem_flatMap.mp origin
  obtain ⟨itself, inside, itselfId⟩ := mem_segment marks target strategy native
  rcases id_of_mem_spliced named with isNative | ⟨_, isRecovery⟩
  · have different : node ≠ native := by
      intro equal
      rw [← equal, ← same] at isNative
      exact recoverId_recoverId_ne _ isNative
    obtain ⟨other, otherInside, otherId⟩ := reached _ (.head _)
    exact key_ne_of_nodup distinct mem nativeMember different otherInside inside
      (by rw [otherId, itselfId, isNative])
  · have isTarget := recoverId_injective isRecovery
    have different : node ≠ native := by
      intro equal
      rw [← equal, ← same] at isTarget
      exact recoverId_ne _ isTarget
    obtain ⟨other, otherInside, otherId⟩ := reached _ (.tail _ (.head _))
    exact key_ne_of_nodup distinct mem nativeMember different otherInside inside
      (by rw [otherId, itselfId, isTarget])

end

section

variable {base : Json} {old : Marks} {repairs : Repairs} {ran : List (String × Json)}
  {done : List String}

/-- The recovery of this node is finished, and it ran this strategy. -/
structure Repaired (repairs : Repairs) (ran : List (String × Json)) (done : List String)
    (node strategy : Json) : Prop where
  finished : recoverId (idOf node) ∈ done
  strategy : doneStrategy repairs ran (idOf node) = some strategy
  missing : recoverId (idOf node) ∉ depsOf node

theorem shaped_reinsert
    (origin : ∀ d ∈ done, d ∈ ((nodesOf base).flatMap (spliced old)).map idOf)
    {ids : List String} (finished : ∀ id ∈ ids, id ∈ done) {plan result : Json} {marks : Marks}
    (shaped : Shaped base plan marks)
    (repaired : ∀ node strategy, marks node = some strategy →
      Repaired repairs ran done node strategy)
    (reinserted : reinsert repairs ran ids plan = .ok result) (distinct : (idsOf result).Nodup) :
    ∃ after : Marks, Shaped base result after ∧
      (∀ node strategy, after node = some strategy → Repaired repairs ran done node strategy) ∧
      (∀ node strategy, marks node = some strategy ∨
        (recoverId (idOf node) ∈ ids ∧ Repaired repairs ran done node strategy) →
          after node = some strategy) := by
  induction ids generalizing plan marks with
  | nil =>
      cases reinserted
      refine ⟨marks, shaped, repaired, fun node strategy either => ?_⟩
      rcases either with marked | ⟨never, _⟩
      · exact marked
      · cases never
  | cons id rest ih =>
      have later : ∀ id ∈ rest, id ∈ done := fun other mem =>
        finished other (.tail _ mem)
      -- The marks of the rest serve where no strategy goes to the node of this id.
      have further : ∀ {middle : Json} {held : Marks}, Shaped base middle held →
          (∀ node strategy, held node = some strategy →
            Repaired repairs ran done node strategy) →
          (∀ node strategy, marks node = some strategy → held node = some strategy) →
          (∀ node strategy, recoverId (idOf node) = id →
            Repaired repairs ran done node strategy → held node = some strategy) →
          reinsert repairs ran rest middle = .ok result →
          ∃ after : Marks, Shaped base result after ∧
            (∀ node strategy, after node = some strategy →
              Repaired repairs ran done node strategy) ∧
            (∀ node strategy, marks node = some strategy ∨
              (recoverId (idOf node) ∈ id :: rest ∧ Repaired repairs ran done node strategy) →
                after node = some strategy) := by
        intro middle held shaped repaired keeps first reinserted
        obtain ⟨after, shapedAfter, repairedAfter, complete⟩ := ih later shaped repaired reinserted
        refine ⟨after, shapedAfter, repairedAfter, fun node strategy either => ?_⟩
        rcases either with marked | ⟨mem, here⟩
        · exact complete node strategy (Or.inl (keeps node strategy marked))
        rcases List.mem_cons.mp mem with same | listed
        · exact complete node strategy (Or.inl (first node strategy same here))
        · exact complete node strategy (Or.inr ⟨listed, here⟩)
      rw [reinsert] at reinserted
      cases named : recovered id with
      | none =>
          rw [named] at reinserted
          refine further shaped repaired (fun _ _ marked => marked) ?_ reinserted
          intro node strategy same _
          rw [recovered_eq_some_iff.mpr same.symm] at named
          cases named
      | some target =>
          rw [named] at reinserted
          have idEq := recovered_eq_some_iff.mp named
          obtain ⟨middle, inserted, reinserted⟩ := of_bind reinserted
          cases chosen : doneStrategy repairs ran target with
          | none =>
              rw [chosen] at inserted
              cases inserted
              refine further shaped repaired (fun _ _ marked => marked) ?_ reinserted
              intro node strategy same here
              have strategyEq := here.strategy
              rw [recoverId_injective (same.trans idEq), chosen] at strategyEq
              cases strategyEq
          | some given =>
              rw [chosen] at inserted
              have middleListed := (insertRecovery_eq_ok shaped.listed inserted).1
              have middleDistinct : (idsOf middle).Nodup :=
                distinct.sublist (sublist_reinsert middleListed reinserted).2
              have isDone : recoverId target ∈ done := idEq ▸ finished id List.mem_cons_self
              have flat := flat_of_distinct shaped inserted middleDistinct
                (origin _ isDone)
              refine further (shaped.insert flat inserted) ?_ ?_ ?_ reinserted
              · intro node strategy marked
                rcases Marks.of_insert marked with before | ⟨⟨same, missing⟩, strategyEq⟩
                · exact repaired node strategy before
                · subst same strategyEq
                  exact ⟨isDone, chosen, missing⟩
              · intro node strategy marked
                rw [Marks.insert, marked]
                rfl
              · intro node strategy same here
                have isTarget : idOf node = target := recoverId_injective (same.trans idEq)
                have strategyEq := here.strategy
                cases before : marks node with
                | some strategy' =>
                    rw [Marks.insert, before]
                    exact (repaired node strategy' before).strategy.symm.trans strategyEq
                | none =>
                    rw [isTarget, chosen] at strategyEq
                    rw [Marks.insert, before, Option.none_or,
                      if_pos ⟨isTarget, isTarget ▸ here.missing⟩, strategyEq]

/-- Strategies are truthy and go to nodes that do not wait for a recovery yet. -/
def Marks.Sound (marks : Marks) : Prop :=
  ∀ node strategy, marks node = some strategy →
    strategy.truthy = true ∧ recoverId (idOf node) ∉ depsOf node

theorem truthy_lookupStrategy {table : List (String × String)} {stage : String} {strategy : Json}
    (found : lookupStrategy table stage = some strategy) : strategy.truthy = true :=
  (Option.filter_eq_some_iff.mp found).2

theorem truthy_doneStrategy {node : String} {strategy : Json}
    (found : doneStrategy repairs ran node = some strategy) : strategy.truthy = true := by
  rcases Option.or_eq_some_iff.mp found with given | ⟨_, fallback⟩
  · exact (Option.filter_eq_some_iff.mp given).2
  · exact truthy_lookupStrategy fallback

theorem truthy_repairStrategy {mode : Json} {node : String} {strategy : Json}
    (found : repairStrategy repairs mode node = .ok (some strategy)) : strategy.truthy = true := by
  obtain ⟨_, _, found⟩ := of_bind found
  rcases Option.or_eq_some_iff.mp (Except.ok.inj found) with given | ⟨_, fallback⟩
  · exact truthy_lookupStrategy given
  · exact truthy_lookupStrategy fallback

/-- The strategies of a reply: those of the finished recoveries, and one for an
unfinished node. -/
structure Answers (repairs : Repairs) (ran : List (String × Json)) (done : List String)
    (marks : Marks) : Prop where
  sound : marks.Sound
  given : ∀ node strategy, marks node = some strategy →
    Repaired repairs ran done node strategy ∨ idOf node ∉ done
  complete : ∀ node strategy, Repaired repairs ran done node strategy →
    marks node = some strategy

/-- A reply of the recovering planner is its base with the recoveries that are
finished and perhaps one more. -/
theorem shaped_recoverPlan {fault : Fault} {result : Json} (listed : Listed base)
    (origin : ∀ d ∈ fault.nodesDone.getD [],
      d ∈ ((nodesOf base).flatMap (spliced old)).map idOf)
    (unfinished : fault.kind = .noProgress → ∀ node, fault.node = some node →
      node ∉ fault.nodesDone.getD [])
    (replied : recoverPlan repairs base (some fault) = .ok result)
    (distinct : (idsOf result).Nodup) :
    ∃ after : Marks, Shaped base result after ∧
      Answers repairs (fault.recoveriesDone.getD []) (fault.nodesDone.getD []) after := by
  obtain ⟨middle, reinserted, replied⟩ := of_bind replied
  have reinsertion : (idsOf middle).Nodup → ∃ after : Marks, Shaped base middle after ∧
      (∀ node strategy, after node = some strategy →
        Repaired repairs (fault.recoveriesDone.getD []) (fault.nodesDone.getD []) node strategy) ∧
      (∀ node strategy,
        Repaired repairs (fault.recoveriesDone.getD []) (fault.nodesDone.getD []) node strategy →
          after node = some strategy) := by
    intro middleDistinct
    obtain ⟨after, shaped, repaired, complete⟩ := shaped_reinsert origin (fun _ mem => mem)
      (shaped_base listed) (fun _ _ never => by cases never) reinserted middleDistinct
    exact ⟨after, shaped, repaired, fun node strategy here =>
      complete node strategy (Or.inr ⟨here.finished, here⟩)⟩
  have stays : middle = result → ∃ after : Marks, Shaped base result after ∧
      Answers repairs (fault.recoveriesDone.getD []) (fault.nodesDone.getD []) after := by
    intro same
    subst same
    obtain ⟨after, shaped, repaired, complete⟩ := reinsertion distinct
    exact ⟨after, shaped, fun node strategy marked =>
      ⟨truthy_doneStrategy (repaired node strategy marked).strategy,
        (repaired node strategy marked).missing⟩,
      fun node strategy marked => Or.inl (repaired node strategy marked), complete⟩
  by_cases stuck : fault.kind = .noProgress
  · rw [if_pos stuck] at replied
    cases named : fault.node with
    | none =>
        rw [named] at replied
        cases replied
    | some target =>
        rw [named] at replied
        obtain ⟨chosen, found, inserted⟩ := of_bind replied
        cases chosen with
        | none => exact stays (Except.ok.inj inserted)
        | some given =>
            have middleListed := (sublist_reinsert listed reinserted).1
            have middleDistinct := distinct.sublist (sublist_insertRecovery middleListed inserted)
            obtain ⟨after, shaped, repaired, complete⟩ := reinsertion middleDistinct
            have isOpen := unfinished stuck target named
            have flat : ∀ node ∈ nodesOf base, (after node).isSome = true →
                recoverId (idOf node) = target → recoverId target ∈ depsOf node := by
              intro node mem marked same
              obtain ⟨strategy, here⟩ := Option.isSome_iff_exists.mp marked
              exact absurd (same ▸ (repaired node strategy here).finished) isOpen
            refine ⟨after.insert target given, shaped.insert flat inserted, ?_, ?_, ?_⟩
            · intro node strategy marked
              rcases Marks.of_insert marked with before | ⟨here, strategyEq⟩
              · have here := repaired node strategy before
                exact ⟨truthy_doneStrategy here.strategy, here.missing⟩
              · exact ⟨strategyEq ▸ truthy_repairStrategy found, here.1 ▸ here.2⟩
            · intro node strategy marked
              rcases Marks.of_insert marked with before | ⟨here, _⟩
              · exact Or.inl (repaired node strategy before)
              · exact Or.inr (here.1 ▸ isOpen)
            · intro node strategy here
              rw [Marks.insert, complete node strategy here]
              rfl
  · rw [if_neg stuck] at replied
    exact stays (Except.ok.inj replied)

theorem front_of_answers {after : Marks} {k : Nat} (sound : old.Sound)
    (oldDistinct : (((nodesOf base).flatMap (spliced old)).map idOf).Nodup)
    (finished : ∀ id, id ∈ done ↔ id ∈ (((nodesOf base).flatMap (spliced old)).take k).map idOf)
    (kept : ∀ node ∈ nodesOf base, ∀ strategy, old node = some strategy →
      recoverId (idOf node) ∈ done → doneStrategy repairs ran (idOf node) = some strategy)
    (answers : Answers repairs ran done after)
    (distinct : (((nodesOf base).flatMap (spliced after)).map idOf).Nodup) :
    ((nodesOf base).flatMap (spliced old)).take k =
      ((nodesOf base).flatMap (spliced after)).take k := by
  refine take_flatMap_congr (fun first node rest split reached => ?_)
  have mem : node ∈ nodesOf base := split ▸ List.mem_append_right _ List.mem_cons_self
  cases before : old node with
  | some strategy =>
      have segment : spliced old node = withRecovery strategy node := by
        rw [spliced, before]
      have front := mem_take_of_head rest segment reached
      rw [← split] at front
      have isDone : recoverId (idOf node) ∈ done :=
        (finished _).mpr (List.mem_map.mpr ⟨_, front, idOf_recoveryNode _ _ _⟩)
      have marked := answers.complete node strategy ⟨isDone, kept node mem strategy before isDone,
        (sound node strategy before).2⟩
      rw [segment, spliced, marked]
  | none =>
      have segment : spliced old node = [node] := by
        rw [spliced, before]
      have front := mem_take_of_head rest segment reached
      rw [← split] at front
      have isDone : idOf node ∈ done := (finished _).mpr (List.mem_map_of_mem front)
      cases marked : after node with
      | none => rw [segment, spliced, marked]
      | some strategy =>
          exfalso
          rcases answers.given node strategy marked with repaired | isOpen
          · have taken := (finished _).mp repaired.finished
            have whole : recoverId (idOf node) ∈
                ((nodesOf base).flatMap (spliced old)).map idOf :=
              List.map_subset _ (List.take_subset _ _) taken
            rw [List.map_flatMap] at whole
            obtain ⟨native, nativeMember, named⟩ := List.mem_flatMap.mp whole
            have sameKey : ∀ marks : Marks, ∃ other ∈ spliced marks native, idOf other = idOf native :=
              fun marks => List.mem_map.mp ((keeps_spliced marks native).subset (.head _))
            rcases id_of_mem_spliced named with isNative | ⟨nativeMarked, isRecovery⟩
            · have different : node ≠ native := by
                intro equal
                rw [← equal] at isNative
                exact recoverId_ne _ isNative
              obtain ⟨other, inside, otherId⟩ := sameKey after
              have recovery : recoveryNode (idOf node) strategy ((depsOf node).map .str) ∈
                  spliced after node := by
                rw [spliced, marked]
                exact .head _
              exact key_ne_of_nodup distinct mem nativeMember different recovery inside
                (by rw [idOf_recoveryNode, otherId, isNative])
            · have different : node ≠ native := by
                intro equal
                rw [← equal, before] at nativeMarked
                cases nativeMarked
              obtain ⟨other, inside, otherId⟩ := sameKey old
              have itself : node ∈ spliced old node := by
                rw [segment]
                exact .head _
              exact key_ne_of_nodup oldDistinct mem nativeMember different itself inside
                (by rw [otherId, recoverId_injective isRecovery])
          · exact isOpen isDone

end

end Task
end PhysicalHarness
