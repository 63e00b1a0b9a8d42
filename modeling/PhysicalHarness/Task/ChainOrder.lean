import PhysicalHarness.Lib.Segments
import PhysicalHarness.Task.Chain
import PhysicalHarness.Task.PerObject

namespace PhysicalHarness
namespace Task

open Python Loop Fallible
open Relation (TransGen ReflTransGen)

/-!
# The order of the leaf chain

The chain of a plan is laid out node after node, and an accepted plan names a node only after the
nodes it depends on.  So each label that a row follows names an earlier row.  It names that row
alone exactly where no other leaf of the plan has the label, and then the leaves of different nodes
are ordered as the nodes are.
-/

section

variable [Host]

def namedRows (chain : List LeafRow) (label : Json) : List LeafRow :=
  chain.filter (fun row => row.label.eq label)

def RowFollows (chain : List LeafRow) (row other : LeafRow) : Prop :=
  row ∈ chain ∧ other ∈ chain ∧ ∃ label ∈ other.after, row.label.eq label = true

/-- The chain keeps the order of the plan. -/
structure ChainOrdered (plan : Json) (chain : List LeafRow) : Prop where
  once : ∀ row ∈ chain, ∀ label ∈ row.after, (namedRows chain label).length = 1
  earlier : Always (fun past row => ∀ label ∈ row.after,
    ∃ other ∈ past, other.label.eq label = true) chain
  order : ∀ row ∈ chain, ∀ other ∈ chain, row.node ≠ other.node →
    (TransGen (RowFollows chain) row other ↔ LeadsTo (planNodes plan) row.node other.node)

/-! ## The nodes with their leaves -/

/-- A node with what it is expanded to. -/
abbrev Part := PlanNode × NodeLeaves

/-- The nodes of a plan, expanded one by one. -/
def planParts [StrFormat] (ontology : Ontology) (channel : PlanChannel) (expand : Bool) (plan : Json) :
    Except ExpandError (List Part) :=
  (planNodes plan).mapM (fun node => (nodeLeaves ontology channel expand node).map (Prod.mk node))

def leavesOf (parts : List Part) : List PlanLeaf := parts.flatMap (fun part => part.2.leaves)

def lastLeaves (parts : List Part) : List (String × List Json) :=
  parts.map (fun part => (part.1.id, lastLabel part.2.leaves))

/-- The labels that some leaf follows: of all leaves of a node but its last, and of the last leaf of
a node that another one depends on. -/
def followedLabels (parts : List Part) : List Json :=
  parts.flatMap (fun part => part.2.leaves.dropLast.map PlanLeaf.label) ++
    parts.flatMap (fun part => parentLabels (lastLeaves parts) part.1)

/-- No label that is followed is the label of two leaves. -/
def FollowedOnce (parts : List Part) : Prop :=
  ∀ label ∈ followedLabels parts, (leavesOf parts).countP (fun leaf => leaf.label.eq label) = 1

def partRows (ontology : Ontology) (done : List Part) (part : Part) : List LeafRow :=
  leafRows ontology part.1 part.2.info (parentLabels (lastLeaves done) part.1) part.2.leaves

def layout (ontology : Ontology) : List Part → List Part → List LeafRow
  | _, [] => []
  | done, part :: rest => partRows ontology done part ++ layout ontology (done ++ [part]) rest

theorem keys_lastLeaves (parts : List Part) :
    Assoc.keys (lastLeaves parts) = parts.map (fun part => part.1.id) := by
  rw [Assoc.keys, lastLeaves, List.map_map]
  rfl

theorem layout_of_foldlM [StrFormat] {ontology : Ontology} {channel : PlanChannel} {expand : Bool}
    {nodes : List PlanNode} {done : List Part} {so last : Expanding}
    (here : so.lastLeafOf = lastLeaves done)
    (fresh : (done.map (fun part => part.1.id) ++ nodes.map PlanNode.id).Nodup)
    (ran : nodes.foldlM (expandNode ontology channel expand) so = .ok last) :
    ∃ parts, nodes.mapM (fun node => (nodeLeaves ontology channel expand node).map (Prod.mk node)) =
        .ok parts ∧ last.chain = so.chain ++ layout ontology done parts := by
  induction nodes generalizing done so with
  | nil =>
      cases ran
      exact ⟨[], rfl, (List.append_nil _).symm⟩
  | cons node rest ih =>
      rw [List.foldlM_cons] at ran
      rcases of_bind ran with ⟨next, step, later⟩
      rw [expandNode] at step
      rcases of_bind step with ⟨found, leaves, step⟩
      cases step
      rw [List.map_cons, List.nodup_append] at fresh
      have absent : node.id ∉ Assoc.keys so.lastLeafOf := by
        rw [here, keys_lastLeaves]
        exact fun mem => fresh.2.2 _ mem _ (.head _) rfl
      have then_ : Assoc.set so.lastLeafOf node.id (lastLabel found.leaves) =
          lastLeaves (done ++ [(node, found)]) := by
        rw [Assoc.set_of_not_mem absent, here, lastLeaves, lastLeaves, List.map_append]
        rfl
      rcases ih then_ (by
        rw [List.map_append, List.append_assoc]
        exact List.nodup_append.mpr fresh) later with ⟨parts, all, chain⟩
      refine ⟨(node, found) :: parts, ?_, ?_⟩
      · rw [List.mapM_cons, leaves]
        show Except.bind (.ok (node, found)) _ = _
        rw [Except.bind, all]
        rfl
      · rw [chain, layout, here]
        exact List.append_assoc _ _ _

theorem mem_layout {ontology : Ontology} {done parts : List Part} {row : LeafRow} :
    row ∈ layout ontology done parts ↔ ∃ first part rest, parts = first ++ part :: rest ∧
      row ∈ partRows ontology (done ++ first) part := by
  induction parts generalizing done with
  | nil =>
      constructor
      · intro never
        exact absurd never List.not_mem_nil
      · rintro ⟨first, part, rest, split, _⟩
        simp at split
  | cons part rest ih =>
      rw [layout, List.mem_append, ih]
      constructor
      · rintro (here | ⟨first, other, others, rfl, there⟩)
        · exact ⟨[], part, rest, rfl, by rwa [List.append_nil]⟩
        · refine ⟨part :: first, other, others, rfl, ?_⟩
          rwa [List.append_assoc] at there
      · rintro ⟨first, other, others, split, there⟩
        cases first with
        | nil =>
            cases split
            left
            rwa [List.append_nil] at there
        | cons head first =>
            cases split
            right
            refine ⟨first, other, others, rfl, ?_⟩
            rwa [List.append_assoc]

section

variable {ontology : Ontology} {node : PlanNode} {info : Option Json} {after : List Json}
  {leaves : List PlanLeaf}

theorem map_leafRows : (leafRows ontology node info after leaves).map LeafRow.toPlanLeaf = leaves := by
  induction leaves generalizing after with
  | nil => rfl
  | cons leaf rest ih => rw [leafRows, List.map_cons, ih]; rfl

theorem node_of_mem_leafRows {row : LeafRow} (mem : row ∈ leafRows ontology node info after leaves) :
    row.node = node.id := by
  induction leaves generalizing after with
  | nil => exact absurd mem List.not_mem_nil
  | cons leaf rest ih =>
      rw [leafRows] at mem
      rcases List.mem_cons.mp mem with same | later
      · rw [same]
        rfl
      · exact ih later

theorem isChain_leafRows :
    (leafRows ontology node info after leaves).IsChain (fun row next => next.after = [row.label]) := by
  induction leaves generalizing after with
  | nil => exact List.isChain_nil
  | cons leaf rest ih =>
      rw [leafRows, List.isChain_cons]
      refine ⟨fun next first => ?_, ih⟩
      cases rest with
      | nil => cases first
      | cons second rest =>
          cases first
          rfl

variable (ontology node info after leaves) in
theorem lastLabel_eq_getLast? : lastLabel leaves =
    ((leafRows ontology node info after leaves).getLast?.map (fun row => row.label)).toList := by
  have all : (leafRows ontology node info after leaves).map LeafRow.toPlanLeaf = leaves :=
    map_leafRows
  have rows := congrArg List.getLast? all
  rw [List.getLast?_map] at rows
  rw [lastLabel, ← rows, Option.map_map]
  rfl

theorem exists_after_leafRows {label : Json} :
    (∃ row ∈ leafRows ontology node info after leaves, label ∈ row.after) ↔
      (leaves ≠ [] ∧ label ∈ after) ∨ label ∈ leaves.dropLast.map PlanLeaf.label := by
  induction leaves generalizing after with
  | nil => simp [leafRows]
  | cons leaf rest ih =>
      rw [leafRows]
      simp only [List.mem_cons, exists_eq_or_imp, ih]
      cases rest with
      | nil => simp [leafRow]
      | cons second rest => simp [leafRow]

theorem source_of_after {row : LeafRow} (mem : row ∈ leafRows ontology node info after leaves)
    {label : Json} (follows : label ∈ row.after) :
    label ∈ after ∨ ∃ before ∈ leafRows ontology node info after leaves, before.label = label := by
  induction leaves generalizing after with
  | nil => exact absurd mem List.not_mem_nil
  | cons leaf rest ih =>
      rw [leafRows] at mem ⊢
      rcases List.mem_cons.mp mem with same | later
      · rw [same] at follows
        exact Or.inl follows
      · right
        rcases ih later with head | ⟨before, inside, same⟩
        · rw [List.mem_singleton.mp head]
          exact ⟨_, .head _, rfl⟩
        · exact ⟨before, .tail _ inside, same⟩

theorem always_leafRows {before : List LeafRow}
    (known : ∀ label ∈ after, ∃ other ∈ before, other.label.eq label = true) :
    Always (fun past row => ∀ label ∈ row.after,
      ∃ other ∈ before ++ past, other.label.eq label = true)
      (leafRows ontology node info after leaves) := by
  induction leaves generalizing after before with
  | nil => exact always_nil _
  | cons leaf rest ih =>
      rw [leafRows, always_cons_iff]
      refine ⟨fun label mem => ?_, ?_⟩
      · rw [List.append_nil]
        exact known label mem
      · have later := @ih [leaf.label] (before ++ [leafRow ontology node info leaf after])
          (fun label mem => by
            rw [List.mem_singleton.mp mem]
            exact ⟨_, List.mem_append_right _ (List.mem_singleton_self _), Json.eq_self _⟩)
        refine later.imp (fun past row _ here label mem => ?_)
        rcases here label mem with ⟨other, inside, same⟩
        refine ⟨other, ?_, same⟩
        rwa [List.append_assoc] at inside

end

/-- What an accepted plan and the expansion promise of the nodes: their ids are distinct, they come
after the nodes they depend on, and each of them has a leaf. -/
structure PartsInOrder (parts : List Part) : Prop where
  distinct : (parts.map (fun part => part.1.id)).Nodup
  earlier : ∀ first part rest, parts = first ++ part :: rest →
    ∀ a ∈ part.1.after, a ∈ first.map (fun other => other.1.id)
  some_ : ∀ part ∈ parts, part.2.leaves ≠ []

theorem get?_lastLeaves {parts : List Part} (distinct : (parts.map (fun part => part.1.id)).Nodup)
    {part : Part} (mem : part ∈ parts) :
    Assoc.get? (lastLeaves parts) part.1.id = some (lastLabel part.2.leaves) := by
  apply Assoc.get?_of_mem
  · rw [keys_lastLeaves]
    exact distinct
  · exact List.mem_map.mpr ⟨part, mem, rfl⟩

namespace PartsInOrder

variable {ontology : Ontology} {parts : List Part} (inOrder : PartsInOrder parts)

include inOrder

variable {part : Part} {first rest : List Part}

theorem mem_parentLabels (split : parts = first ++ part :: rest) {label : Json} :
    label ∈ parentLabels (lastLeaves first) part.1 ↔
      ∃ parent ∈ first, parent.1.id ∈ part.1.after ∧ label ∈ lastLabel parent.2.leaves := by
  have distinct : (first.map (fun other => other.1.id)).Nodup := by
    have all := inOrder.distinct
    rw [split, List.map_append] at all
    exact (List.nodup_append.mp all).1
  rw [parentLabels, List.mem_flatMap]
  constructor
  · rintro ⟨a, depends, mem⟩
    rcases List.mem_map.mp (inOrder.earlier first part rest split a depends) with ⟨parent, inside, rfl⟩
    rw [get?_lastLeaves distinct inside] at mem
    exact ⟨parent, inside, depends, mem⟩
  · rintro ⟨parent, inside, depends, mem⟩
    refine ⟨parent.1.id, depends, ?_⟩
    rw [get?_lastLeaves distinct inside]
    exact mem

theorem parentLabels_eq (split : parts = first ++ part :: rest) :
    parentLabels (lastLeaves first) part.1 = parentLabels (lastLeaves parts) part.1 := by
  have all := inOrder.distinct
  have distinct := all
  rw [split, List.map_append] at distinct
  apply List.flatMap_congr
  intro a depends
  rcases List.mem_map.mp (inOrder.earlier first part rest split a depends) with ⟨parent, inside, rfl⟩
  have whole : parent ∈ parts := by
    rw [split]
    exact List.mem_append_left _ inside
  rw [get?_lastLeaves (List.nodup_append.mp distinct).1 inside, get?_lastLeaves all whole]

theorem partRows_eq (split : parts = first ++ part :: rest) :
    partRows ontology first part = partRows ontology parts part := by
  rw [partRows, partRows, inOrder.parentLabels_eq split]

theorem mem_layout_iff {row : LeafRow} :
    row ∈ layout ontology [] parts ↔ ∃ part ∈ parts, row ∈ partRows ontology parts part := by
  rw [mem_layout]
  constructor
  · rintro ⟨first, part, rest, split, inside⟩
    rw [List.nil_append, inOrder.partRows_eq split] at inside
    refine ⟨part, ?_, inside⟩
    rw [split]
    exact List.mem_append_right _ (.head _)
  · rintro ⟨part, mem, inside⟩
    rcases List.append_of_mem mem with ⟨first, rest, split⟩
    refine ⟨first, part, rest, split, ?_⟩
    rwa [List.nil_append, inOrder.partRows_eq split]

omit [Host] in
theorem exists_parent (mem : part ∈ parts) {a : String} (depends : a ∈ part.1.after) :
    ∃ parent ∈ parts, parent.1.id = a := by
  rcases List.append_of_mem mem with ⟨first, rest, split⟩
  rcases List.mem_map.mp (inOrder.earlier first part rest split a depends) with ⟨parent, inside, same⟩
  refine ⟨parent, ?_, same⟩
  rw [split]
  exact List.mem_append_left _ inside

theorem mem_labels (mem : part ∈ parts) {label : Json} :
    label ∈ parentLabels (lastLeaves parts) part.1 ↔
      ∃ parent ∈ parts, parent.1.id ∈ part.1.after ∧ label ∈ lastLabel parent.2.leaves := by
  rw [parentLabels, List.mem_flatMap]
  constructor
  · rintro ⟨a, depends, listed⟩
    rcases inOrder.exists_parent mem depends with ⟨parent, inside, rfl⟩
    rw [get?_lastLeaves inOrder.distinct inside] at listed
    exact ⟨parent, inside, depends, listed⟩
  · rintro ⟨parent, inside, depends, listed⟩
    refine ⟨parent.1.id, depends, ?_⟩
    rw [get?_lastLeaves inOrder.distinct inside]
    exact listed

theorem mem_partRows (mem : part ∈ parts) {row : LeafRow}
    (listed : row ∈ layout ontology [] parts) (same : row.node = part.1.id) :
    row ∈ partRows ontology parts part := by
  rcases inOrder.mem_layout_iff.mp listed with ⟨own, inside, here⟩
  have id : own.1.id = part.1.id := (node_of_mem_leafRows here).symm.trans same
  rwa [List.inj_on_of_nodup_map inOrder.distinct inside mem id] at here

end PartsInOrder

/-! ## Labels name earlier rows -/

theorem map_layout (ontology : Ontology) (done parts : List Part) :
    (layout ontology done parts).map LeafRow.toPlanLeaf = leavesOf parts := by
  induction parts generalizing done with
  | nil => rfl
  | cons part rest ih =>
      rw [layout, List.map_append, ih, partRows, map_leafRows]
      rfl

theorem length_namedRows (ontology : Ontology) (parts : List Part) (label : Json) :
    (namedRows (layout ontology [] parts) label).length =
      (leavesOf parts).countP (fun leaf => leaf.label.eq label) := by
  rw [namedRows, ← List.countP_eq_length_filter, ← map_layout ontology [] parts, List.countP_map]
  rfl

theorem exists_row_of_lastLabel (ontology : Ontology) (done : List Part) {part : Part} {label : Json}
    (mem : label ∈ lastLabel part.2.leaves) :
    ∃ last ∈ (partRows ontology done part).getLast?, last.label = label := by
  rw [lastLabel_eq_getLast? ontology part.1 part.2.info (parentLabels (lastLeaves done) part.1),
    Option.mem_toList, Option.map_eq_some_iff] at mem
  exact mem

theorem always_layout {ontology : Ontology} {done parts : List Part} {before : List LeafRow}
    (inOrder : PartsInOrder (done ++ parts))
    (known : ∀ part ∈ done, ∀ label ∈ lastLabel part.2.leaves,
      ∃ other ∈ before, other.label.eq label = true) :
    Always (fun past row => ∀ label ∈ row.after,
      ∃ other ∈ before ++ past, other.label.eq label = true) (layout ontology done parts) := by
  induction parts generalizing done before with
  | nil => exact always_nil _
  | cons part rest ih =>
      rw [layout, always_append_iff]
      refine ⟨always_leafRows (fun label mem => ?_), ?_⟩
      · rcases (inOrder.mem_parentLabels rfl).mp mem with ⟨parent, inside, _, last⟩
        exact known parent inside label last
      · have later := @ih (done ++ [part]) (before ++ partRows ontology done part)
          (by rwa [List.append_assoc]) (fun other mem label last => by
            rcases List.mem_append.mp mem with old | new
            · rcases known other old label last with ⟨row, inside, same⟩
              exact ⟨row, List.mem_append_left _ inside, same⟩
            · rw [List.mem_singleton.mp new] at last
              rcases exists_row_of_lastLabel ontology done last with
                ⟨row, isLast, rfl⟩
              exact ⟨row, List.mem_append_right _ (List.mem_of_getLast? isLast), Json.eq_self _⟩)
        refine later.imp (fun past row _ here label mem => ?_)
        rcases here label mem with ⟨other, inside, same⟩
        refine ⟨other, ?_, same⟩
        rwa [List.append_assoc] at inside

theorem exists_after_layout (ontology : Ontology) {parts : List Part} (inOrder : PartsInOrder parts)
    {label : Json} : (∃ row ∈ layout ontology [] parts, label ∈ row.after) ↔
      label ∈ followedLabels parts := by
  rw [followedLabels, List.mem_append, List.mem_flatMap, List.mem_flatMap]
  constructor
  · rintro ⟨row, mem, follows⟩
    rcases inOrder.mem_layout_iff.mp mem with ⟨part, whole, inside⟩
    rcases exists_after_leafRows.mp ⟨row, inside, follows⟩ with ⟨_, parent⟩ | own
    · exact Or.inr ⟨part, whole, parent⟩
    · exact Or.inl ⟨part, whole, own⟩
  · rintro (⟨part, whole, own⟩ | ⟨part, whole, parent⟩)
    · rcases exists_after_leafRows.mpr (Or.inr own) with ⟨row, inside, follows⟩
      exact ⟨row, inOrder.mem_layout_iff.mpr ⟨part, whole, inside⟩, follows⟩
    · rcases exists_after_leafRows.mpr (Or.inl ⟨inOrder.some_ part whole, parent⟩) with
        ⟨row, inside, follows⟩
      exact ⟨row, inOrder.mem_layout_iff.mpr ⟨part, whole, inside⟩, follows⟩

theorem once_iff (ontology : Ontology) {parts : List Part} (inOrder : PartsInOrder parts) :
    (∀ row ∈ layout ontology [] parts, ∀ label ∈ row.after,
      (namedRows (layout ontology [] parts) label).length = 1) ↔ FollowedOnce parts := by
  constructor
  · intro once label followed
    rcases (exists_after_layout ontology inOrder).mpr followed with
      ⟨row, mem, follows⟩
    rw [← length_namedRows ontology parts label]
    exact once row mem label follows
  · intro once row mem label follows
    rw [length_namedRows]
    exact once label ((exists_after_layout ontology inOrder).mp ⟨row, mem, follows⟩)

theorem eq_of_named {chain : List LeafRow} {label : Json} (once : (namedRows chain label).length = 1)
    {row other : LeafRow} (mem : row ∈ chain) (also : other ∈ chain)
    (here : row.label.eq label = true) (there : other.label.eq label = true) : row = other := by
  rcases List.length_eq_one_iff.mp once with ⟨only, named⟩
  have first : row ∈ namedRows chain label := List.mem_filter.mpr ⟨mem, here⟩
  have second : other ∈ namedRows chain label := List.mem_filter.mpr ⟨also, there⟩
  rw [named, List.mem_singleton] at first second
  rw [first, second]

section

variable (ontology : Ontology) {parts : List Part} (inOrder : PartsInOrder parts)

include inOrder

theorem reach_in_part {part : Part} (mem : part ∈ parts) :
    ∃ head ∈ partRows ontology parts part, head.after = parentLabels (lastLeaves parts) part.1 ∧
      ∀ row ∈ partRows ontology parts part,
        ReflTransGen (RowFollows (layout ontology [] parts)) head row ∧
          ∀ last ∈ (partRows ontology parts part).getLast?,
            ReflTransGen (RowFollows (layout ontology [] parts)) row last := by
  have linked : (partRows ontology parts part).IsChain (RowFollows (layout ontology [] parts)) := by
    refine List.IsChain.imp_of_mem_imp (fun row next here there follows => ?_) isChain_leafRows
    refine ⟨inOrder.mem_layout_iff.mpr ⟨part, mem, here⟩,
      inOrder.mem_layout_iff.mpr ⟨part, mem, there⟩, row.label, ?_, Json.eq_self _⟩
    rw [follows]
    exact List.mem_singleton_self _
  rcases leaves : part.2.leaves with _ | ⟨leaf, others⟩
  · exact absurd leaves (inOrder.some_ part mem)
  · have rows : partRows ontology parts part =
        leafRow ontology part.1 part.2.info leaf (parentLabels (lastLeaves parts) part.1) ::
          leafRows ontology part.1 part.2.info [leaf.label] others := by
      rw [partRows, leaves, leafRows]
    rw [rows] at linked ⊢
    exact ⟨_, .head _, rfl, fun row here => Segments.reach_of_isChain linked here⟩

theorem node_of_follows
    (once : ∀ row ∈ layout ontology [] parts, ∀ label ∈ row.after,
      (namedRows (layout ontology [] parts) label).length = 1)
    (row other : LeafRow) (follows : RowFollows (layout ontology [] parts) row other) :
    row.node = other.node ∨ row.node ∈ dependsOn (parts.map Prod.fst) other.node := by
  rcases follows with ⟨mem, also, label, listed, names⟩
  rcases inOrder.mem_layout_iff.mp also with ⟨part, whole, inside⟩
  have node : other.node = part.1.id := node_of_mem_leafRows inside
  -- the row that the label was made for is the only one it names
  have source : ∀ {own : Part} {before : LeafRow}, own ∈ parts → before ∈ partRows ontology parts own →
      before.label = label → row.node = own.1.id := by
    intro own before ownMember near same
    have only : row = before := eq_of_named (once other also label listed) mem
      (inOrder.mem_layout_iff.mpr ⟨own, ownMember, near⟩) names (same ▸ Json.eq_self _)
    rw [only]
    exact node_of_mem_leafRows near
  rcases source_of_after inside listed with head | ⟨before, near, same⟩
  · right
    rcases (inOrder.mem_labels whole).mp head with ⟨parent, known, depends, last⟩
    rcases exists_row_of_lastLabel ontology parts last with
      ⟨before, isLast, same⟩
    rw [source known (List.mem_of_getLast? isLast) same, node]
    exact mem_dependsOn.mpr ⟨part.1, List.mem_map_of_mem whole, rfl, depends⟩
  · left
    rw [source whole near same, node]

theorem transGen_of_dependsOn (row other : LeafRow) (mem : row ∈ layout ontology [] parts)
    (also : other ∈ layout ontology [] parts)
    (depends : row.node ∈ dependsOn (parts.map Prod.fst) other.node) :
    TransGen (RowFollows (layout ontology [] parts)) row other := by
  rcases mem_dependsOn.mp depends with ⟨node, listed, id, dependsHere⟩
  rcases List.mem_map.mp listed with ⟨part, whole, rfl⟩
  rcases inOrder.exists_parent whole dependsHere with ⟨parent, known, parentId⟩
  have rowHere := inOrder.mem_partRows known mem parentId.symm
  have otherHere := inOrder.mem_partRows whole also id.symm
  rcases reach_in_part ontology inOrder known with ⟨_, _, _, fromRow⟩
  rcases reach_in_part ontology inOrder whole with ⟨head, headHere, headAfter, toOther⟩
  have isLast := List.getLast?_eq_some_getLast (List.ne_nil_of_mem rowHere)
  have last := (partRows ontology parts parent).getLast_mem (List.ne_nil_of_mem rowHere)
  have step : RowFollows (layout ontology [] parts)
      ((partRows ontology parts parent).getLast (List.ne_nil_of_mem rowHere)) head := by
    refine ⟨inOrder.mem_layout_iff.mpr ⟨parent, known, last⟩,
      inOrder.mem_layout_iff.mpr ⟨part, whole, headHere⟩, _, ?_, Json.eq_self _⟩
    rw [headAfter]
    refine (inOrder.mem_labels whole).mpr ⟨parent, known, parentId ▸ dependsHere, ?_⟩
    rw [lastLabel_eq_getLast? ontology parent.1 parent.2.info (parentLabels (lastLeaves parts) parent.1),
      Option.mem_toList]
    exact Option.mem_map_of_mem _ isLast
  have reached := TransGen.tail' ((fromRow row rowHere).2 _ isLast) step
  exact reached.trans_left (toOther other otherHere).1

/-- The chain of nodes in order is ordered exactly where no label that is followed is repeated. -/
theorem chainOrdered_layout_iff {plan : Json} (same : parts.map Prod.fst = planNodes plan) :
    ChainOrdered plan (layout ontology [] parts) ↔ FollowedOnce parts := by
  constructor
  · intro ordered
    exact (once_iff ontology inOrder).mp ordered.once
  · intro followedOnce
    have once := (once_iff ontology inOrder).mpr followedOnce
    refine ⟨once, ?_, ?_⟩
    · exact @always_layout _ ontology [] parts [] inOrder
        (List.forall_mem_nil _)
    · intro row mem other also apart
      rw [LeadsTo, ← same]
      refine Segments.transGen_iff (node_of_follows ontology inOrder once)
        (transGen_of_dependsOn ontology inOrder) ?_ mem also apart
      intro k l depends
      rcases mem_dependsOn.mp depends with ⟨node, listed, _, dependsHere⟩
      rcases List.mem_map.mp listed with ⟨part, whole, rfl⟩
      rcases inOrder.exists_parent whole dependsHere with ⟨parent, known, rfl⟩
      rcases reach_in_part ontology inOrder known with ⟨head, here, _⟩
      exact ⟨head, inOrder.mem_layout_iff.mpr ⟨parent, known, here⟩, node_of_mem_leafRows here⟩

end

section

variable [StrFormat] {ontology : Ontology} {channel : PlanChannel} {expand : Bool}

theorem leaves_ne_nil {node : PlanNode} {found : NodeLeaves}
    (done : nodeLeaves ontology channel expand node = .ok found) : found.leaves ≠ [] := by
  cases channel with
  | graph =>
      rw [nodeLeaves, graphLeaves] at done
      rcases of_bind done with ⟨name, _, done⟩
      rcases of_bind done with ⟨path, _, done⟩
      rcases of_bind done with ⟨stages, _, done⟩
      rcases of_bind done with ⟨parts, _, done⟩
      rcases of_bind done with ⟨decomposition, _, done⟩
      cases expand with
      | true =>
          rcases of_bind done with ⟨leaves, expanded, done⟩
          cases done
          rcases map_eq_ok.mp expanded with ⟨own, ran, rfl⟩
          intro empty
          exact SkillGraph.UnifiedSkillGraph.expandUnder_ne_nil (mapError_eq_ok.mp ran)
            (List.map_eq_nil_iff.mp empty)
      | false =>
          rcases of_bind done with ⟨canonical, _, done⟩
          cases done
          exact List.cons_ne_nil _ _
  | task channel =>
      rw [nodeLeaves, taskLeaf] at done
      dsimp only at done
      split at done
      · rcases of_bind done with ⟨path, _, done⟩
        rcases of_bind done with ⟨stage, _, done⟩
        cases done
        exact List.cons_ne_nil _ _
      · rw [pure_bind] at done
        rcases of_bind done with ⟨stage, _, done⟩
        cases done
        exact List.cons_ne_nil _ _

theorem partsInOrder_of_accepted {plan : Json} {catalogue : Catalogue} {oracles : List String}
    {ledger : List Json} {requirements : List (String × Json)} {parts : List Part}
    (accepted : Accepted plan catalogue oracles ledger requirements)
    (made : planParts ontology channel expand plan = .ok parts) :
    PartsInOrder parts ∧ parts.map Prod.fst = planNodes plan := by
  rw [planParts, mapM_eq_ok_iff] at made
  have same : parts.map Prod.fst = planNodes plan := by
    have mapped : parts.map Prod.fst = (planNodes plan).map id := by
      refine map_eq_of_forall₂ made (fun node part here => ?_)
      rcases map_eq_ok.mp here with ⟨found, _, rfl⟩
      rfl
    rwa [List.map_id] at mapped
  have inOrder := accepted.inOrder
  refine ⟨⟨?_, ?_, ?_⟩, same⟩
  · have distinct := inOrder.distinct
    rwa [← same, List.map_map] at distinct
  · intro first part rest split a depends
    have cut : planNodes plan = first.map Prod.fst ++ part.1 :: rest.map Prod.fst := by
      rw [← same, split, List.map_append, List.map_cons]
    have earlier := inOrder.earlier _ _ _ cut a depends
    rwa [List.map_map] at earlier
  · intro part mem
    rcases exists_left_of_forall₂ made mem with ⟨node, _, here⟩
    rcases map_eq_ok.mp here with ⟨found, done, rfl⟩
    exact leaves_ne_nil done

theorem layout_of_expandPlanChain {plan : Json} {result : ExpandedPlan}
    (distinct : ((planNodes plan).map PlanNode.id).Nodup)
    (expanded : expandPlanChain ontology channel expand plan = .ok result) :
    ∃ parts, planParts ontology channel expand plan = .ok parts ∧
      result.chain = layout ontology [] parts := by
  rw [expandPlanChain] at expanded
  rcases map_eq_ok.mp expanded with ⟨last, ran, rfl⟩
  have fresh : (([] : List Part).map (fun part => part.1.id) ++
      (planNodes plan).map PlanNode.id).Nodup := distinct
  rcases layout_of_foldlM rfl fresh ran with ⟨parts, made, chain⟩
  exact ⟨parts, made, chain⟩

/-- The chain of an accepted plan keeps the plan's order exactly where no label that a leaf follows
is the label of two leaves. -/
theorem chain_ordered_iff (plan : Json) (catalogue : Catalogue) (oracles : List String)
    (ledger : List Json) (requirements : List (String × Json)) (message : String)
    (ontology : Ontology) (channel : PlanChannel) (expand : Bool) (result : ExpandedPlan)
    (accepted : validatePlan plan catalogue oracles ledger requirements = .ok (true, message))
    (expanded : expandPlanChain ontology channel expand plan = .ok result) :
    ChainOrdered plan result.chain ↔
      ∀ parts, planParts ontology channel expand plan = .ok parts → FollowedOnce parts := by
  have gate := (validatePlan_accepts_iff.mp accepted).1
  rcases layout_of_expandPlanChain gate.inOrder.distinct expanded with ⟨parts, made, chain⟩
  rcases partsInOrder_of_accepted gate made with ⟨inOrder, same⟩
  rw [chain, chainOrdered_layout_iff _ inOrder same]
  constructor
  · intro once other also
    cases made.symm.trans also
    exact once
  · intro once
    exact once parts made

end

end

section Example

local instance liftHost : Host := asciiHost

/-- A template without fields. -/
local instance literalFormat : StrFormat where
  format := fun template _ => .ok template

private def liftNode (id skill object : String) (after : List String) : Json :=
  .obj [("id", .str id), ("skill", .str skill), ("args", .obj [("object", .str object)]),
    ("after", .arr (after.map .str)), ("kind", .str "manipulate")]

private def liftPlan (nodes : List Json) (verified : List String) : Json :=
  .obj [("goal", .str "lift"), ("nodes", .arr nodes),
    ("verify", .arr (verified.map (fun id =>
      .obj [("after", .str id), ("predicate", .str "seen")])))]

private def liftOntology : Ontology := ⟨.empty, [], []⟩

private def liftChannel : PlanChannel :=
  .task ⟨"lift", .str "scripted", none, [("pick", some "reach"), ("place", none)]⟩

private def liftCatalogue : Catalogue := [("pick", [("object", .str)]), ("place", [("object", .str)])]

/-- Two skills, once each. -/
private def cupPlan : Json :=
  liftPlan [liftNode "a" "pick" "cup" [], liftNode "b" "place" "cup" ["a"]] ["a", "b"]

/-- The same skill for the cup and for the mug. -/
private def cupsPlan : Json :=
  liftPlan [liftNode "a" "pick" "cup" [], liftNode "b" "pick" "mug" [],
    liftNode "c" "place" "mug" ["b"]] ["a", "b", "c"]

theorem chain_ordered_cup :
    ∃ result, expandPlanChain liftOntology liftChannel true cupPlan = .ok result ∧
      (ChainOrdered cupPlan result.chain ↔ ∀ parts,
        planParts liftOntology liftChannel true cupPlan = .ok parts → FollowedOnce parts) := by
  have accepts : validatePlan cupPlan liftCatalogue ["seen"] [] [] = .ok (true, "") := by
    decide +kernel
  have runs : (expandPlanChain liftOntology liftChannel true cupPlan).toBool = true := by
    decide +kernel
  rcases returns_of_toBool runs with ⟨result, expanded⟩
  exact ⟨result, expanded, chain_ordered_iff _ _ _ _ _ _ _ _ _ _ accepts expanded⟩

/-- What follows the second pick follows the first one as well. -/
theorem chain_confused_cups :
    validatePlan cupsPlan liftCatalogue ["seen"] [] [] = .ok (true, "") ∧
      ∃ result, expandPlanChain liftOntology liftChannel true cupsPlan = .ok result ∧
        ¬ ChainOrdered cupsPlan result.chain := by
  have accepts : validatePlan cupsPlan liftCatalogue ["seen"] [] [] = .ok (true, "") := by
    decide +kernel
  have twice : (expandPlanChain liftOntology liftChannel true cupsPlan).toOption.map
      (fun result => result.chain.any (fun row => row.after.any (fun label =>
        decide ((namedRows result.chain label).length = 2)))) = some true := by
    decide +kernel
  rcases Option.map_eq_some_iff.mp twice with ⟨result, some_, both⟩
  refine ⟨accepts, result, toOption_eq_some_iff.mp some_, fun ordered => ?_⟩
  rcases List.any_eq_true.mp both with ⟨row, member, both⟩
  rcases List.any_eq_true.mp both with ⟨label, follows, two⟩
  have one := ordered.once row member label follows
  rw [of_decide_eq_true two] at one
  exact absurd one (by decide)

end Example

end Task
end PhysicalHarness
