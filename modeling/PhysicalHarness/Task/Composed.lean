import PhysicalHarness.Lib.Qualified
import PhysicalHarness.Task.Steps

namespace PhysicalHarness
namespace Task

open Python Protocol Loop Qualified

/-!
# Runs of a composed graph

A brief may carry a graph of its own.  The loop then never asks the planner: it goes through
the one graph again and again, and each time it passes over what is finished.  The rows are
those of the nodes before the one that is due, and a row of this node when it failed before.

A node with a task sees the rows of its task a second time, under the names that they have
without the task.
-/

/-! ## The rows of a task -/

/-- `f"{task}.{name}"`. -/
def under (task name : String) : String := task ++ "." ++ name

theorem toList_under (task name : String) :
    (under task name).toList = qualify '.' task.toList name.toList := by
  rw [under, String.toList_append, String.toList_append, List.append_assoc]
  rfl

theorem under_right_injective (task : String) : Function.Injective (under task) := by
  intro name other same
  have equal : qualify '.' task.toList name.toList = qualify '.' task.toList other.toList := by
    rw [← toList_under, ← toList_under, same]
  exact String.toList_inj.mp (qualify_right_injective equal)

theorem under_eq_under_iff {task other name rest : String} :
    under task name = under other rest ↔
      (task = other ∧ name = rest) ∨
        (∃ piece, other = under task piece ∧ name = under piece rest) ∨
        ∃ piece, task = under other piece ∧ rest = under piece name := by
  rw [← String.toList_inj, toList_under, toList_under, qualify_eq_qualify_iff]
  have read : ∀ first second third : String,
      first = under second third ↔ first.toList = qualify '.' second.toList third.toList := by
    intro first second third
    rw [← String.toList_inj, toList_under]
  constructor
  · rintro (⟨left, right⟩ | ⟨piece, left, right⟩ | ⟨piece, left, right⟩)
    · exact Or.inl ⟨String.toList_inj.mp left, String.toList_inj.mp right⟩
    · refine Or.inr (Or.inl ⟨String.ofList piece, (read _ _ _).mpr ?_, (read _ _ _).mpr ?_⟩)
      · rw [String.toList_ofList, left]
      · rw [String.toList_ofList, right]
    · refine Or.inr (Or.inr ⟨String.ofList piece, (read _ _ _).mpr ?_, (read _ _ _).mpr ?_⟩)
      · rw [String.toList_ofList, left]
      · rw [String.toList_ofList, right]
  · rintro (⟨rfl, rfl⟩ | ⟨piece, left, right⟩ | ⟨piece, left, right⟩)
    · exact Or.inl ⟨rfl, rfl⟩
    · exact Or.inr (Or.inl ⟨piece.toList, (read _ _ _).mp left, (read _ _ _).mp right⟩)
    · exact Or.inr (Or.inr ⟨piece.toList, (read _ _ _).mp left, (read _ _ _).mp right⟩)

def InTask (task name : String) : Prop := InSpace '.' task.toList name.toList

instance (task name : String) : Decidable (InTask task name) :=
  inferInstanceAs (Decidable (task.toList ++ ['.'] <+: name.toList))

theorem inTask_iff {task name : String} : InTask task name ↔ ∃ rest, name = under task rest := by
  rw [InTask, inSpace_iff]
  constructor
  · rintro ⟨rest, same⟩
    refine ⟨String.ofList rest, ?_⟩
    apply String.toList_inj.mp
    rw [toList_under, same, String.toList_ofList]
  · rintro ⟨rest, rfl⟩
    exact ⟨rest.toList, toList_under task rest⟩

section

variable {α : Type}

def takeRow (task : String) (view : Dict String α) (entry : String × α) : Dict String α :=
  if task ≠ "" ∧ (task ++ ".").toList.isPrefixOf entry.1.toList then
    view.set (String.ofList (entry.1.toList.drop (task.length + 1))) entry.2
  else view

/-- `{k[len(task) + 1:]: v for k, v in rows.items() if task and k.startswith(f"{task}.")}`. -/
def localView (task : Json) (dict : Dict String α) : Dict String α :=
  match task with
  | .str name => dict.entries.foldl (takeRow name) Dict.empty
  | _ => Dict.empty

theorem takeRow_under {task : String} (nonempty : task ≠ "") (view : Dict String α) (name : String)
    (value : α) : takeRow task view (under task name, value) = view.set name value := by
  have begins : (task ++ ".").toList.isPrefixOf (under task name).toList = true := by
    rw [List.isPrefixOf_iff_prefix, toList_under, String.toList_append]
    exact inSpace_qualify
  have behind : String.ofList ((under task name).toList.drop (task.length + 1)) = name := by
    rw [toList_under, ← String.length_toList, drop_qualify, String.ofList_toList]
  rw [takeRow, if_pos ⟨nonempty, begins⟩, behind]

theorem takeRow_other {task key : String} (other : ¬ InTask task key) (view : Dict String α)
    (value : α) : takeRow task view (key, value) = view := by
  apply if_neg
  rintro ⟨_, begins⟩
  apply other
  rw [List.isPrefixOf_iff_prefix, String.toList_append] at begins
  exact begins

theorem get?_foldl_takeRow {task : String} (nonempty : task ≠ "") (name : String)
    (entries : List (String × α)) (unique : (entries.map Prod.fst).Nodup) (view : Dict String α) :
    (entries.foldl (takeRow task) view).get? name =
      (Assoc.get? entries (under task name)).or (view.get? name) := by
  induction entries generalizing view with
  | nil => rfl
  | cons entry entries ih =>
      obtain ⟨fresh, others⟩ := List.nodup_cons.mp unique
      rw [List.foldl_cons, ih others, Assoc.get?_cons]
      by_cases inside : InTask task entry.1
      · obtain ⟨rest, same⟩ := inTask_iff.mp inside
        have row : entry = (under task rest, entry.2) := by rw [← same]
        rw [row, takeRow_under nonempty, Dict.get?_set]
        by_cases wanted : rest = name
        · have absent : Assoc.get? entries (under task name) = none := by
            rw [Assoc.get?_eq_none_iff, ← wanted, ← same]
            exact fresh
          rw [if_pos wanted, absent, if_pos (congrArg (under task) wanted)]
          rfl
        · rw [if_neg wanted, if_neg (mt (fun again => under_right_injective task again) wanted)]
      · have other : ¬ entry.1 = under task name := by
          intro same
          exact inside (inTask_iff.mpr ⟨name, same⟩)
        rw [if_neg other, takeRow_other inside]

theorem get?_localView {task : String} (nonempty : task ≠ "") (dict : Dict String α) (name : String) :
    (localView (.str task) dict).get? name = dict.get? (under task name) := by
  refine (get?_foldl_takeRow nonempty name dict.entries dict.unique Dict.empty).trans ?_
  exact Option.or_none

end

/-! ## One graph -/

/-- The nodes of the front are finished, and there is no row but theirs and one of the next node. -/
structure Fronted (plan : Json) (state : State) (front more : List PlanNode) : Prop where
  split : planNodes plan = front ++ more
  finished : ∀ node ∈ front, state.finished node.id = true
  rows : ∀ id ∈ state.nodesOut.keys, id ∈ front.map PlanNode.id ∨ id ∈ (more.take 1).map PlanNode.id

def Fronts (plan : Json) (state : State) : Prop := ∃ front more, Fronted plan state front more

/-- The loop is among the nodes of the plan, and has passed those before. -/
structure Underway (plan : Json) (state : State) (rest : List PlanNode) : Prop where
  reads : PlanReads plan
  inOrder : ViewsInOrder (planNodes plan)
  passed : ∃ before, planNodes plan = before ++ rest ∧ ∀ node ∈ before, state.finished node.id = true

def AsIs (graph : Json) : Point × State → Prop
  | (.consulting, state) => Fronts graph state ∧ ∀ plan, state.retryPlan = some plan → plan = graph
  | (.judging _ plan, state) => Fronts graph state ∧ state.retryPlan = none ∧ plan = graph
  | (.running plan rest, state) =>
      Fronts graph state ∧ state.retryPlan = none ∧ plan = graph ∧ Underway graph state rest
  | (.answering plan _ _, state) => Fronts graph state ∧ state.retryPlan = none ∧ plan = graph

def StaysAsIs (graph : Json) : Turn (Point × State) Final → Prop
  | .again next => AsIs graph next
  | .stop _ => True

theorem Fronts.congr {plan : Json} {state other : State} (fronts : Fronts plan state)
    (same : other.nodesOut = state.nodesOut) : Fronts plan other := by
  obtain ⟨front, more, fronted⟩ := fronts
  refine ⟨front, more, fronted.split, ?_, ?_⟩
  · intro node mem
    rw [State.finished, same]
    exact fronted.finished node mem
  · rw [same]
    exact fronted.rows

section

variable [Host] {config : Config} {world : World} {graph : Json} {state : State}
  {next : Turn (Point × State) Final}

variable {node : PlanNode} {rest : List PlanNode} {plan : Json}

omit [Host] in
theorem Underway.due (underway : Underway graph state (node :: rest)) (fronts : Fronts graph state)
    (due : state.finished node.id = false) :
    ∃ before, planNodes graph = before ++ node :: rest ∧
      (∀ other ∈ before, state.finished other.id = true) ∧
      ∀ id ∈ state.nodesOut.keys, id ∈ before.map PlanNode.id ∨ id = node.id := by
  obtain ⟨before, split, passed⟩ := underway.passed
  refine ⟨before, split, passed, ?_⟩
  obtain ⟨front, more, fronted⟩ := fronts
  have same : front ++ more = before ++ node :: rest := fronted.split.symm.trans split
  rcases List.append_eq_append_iff.mp same with ⟨piece, left, right⟩ | ⟨piece, left, right⟩
  · intro id row
    rcases fronted.rows id row with inFront | next
    · apply Or.inl
      rw [left, List.map_append]
      exact List.mem_append_left _ inFront
    · cases piece with
      | nil =>
          rw [right] at next
          exact Or.inr (List.mem_singleton.mp next)
      | cons head piece =>
          apply Or.inl
          rw [right] at next
          rw [List.mem_singleton.mp next, left, List.map_append]
          exact List.mem_append_right _ (.head _)
  · cases piece with
    | nil =>
        rw [List.nil_append] at right
        rw [List.append_nil] at left
        intro id row
        rcases fronted.rows id row with inFront | next
        · rw [left] at inFront
          exact Or.inl inFront
        · rw [← right] at next
          exact Or.inr (List.mem_singleton.mp next)
    | cons head piece =>
        obtain ⟨rfl, _⟩ := List.cons.inj right
        have done := fronted.finished node (by rw [left]; exact List.mem_append_right _ List.mem_cons_self)
        rw [due] at done
        cases done

omit [Host] in
theorem finished_returned (kind : NodeKind) (result : Result) (id : String) :
    (state.returned graph node kind result).finished id =
      if node.id = id then result.success else state.finished id := by
  rw [State.finished, State.returned, State.record, State.sent_nodesOut]
  rw [Dict.get?_set]
  by_cases same : node.id = id
  · rw [if_pos same, if_pos same]
    rfl
  · rw [if_neg same, if_neg same]
    rfl

omit [Host] in
theorem mem_keys_returned (kind : NodeKind) (result : Result) (id : String) :
    id ∈ (state.returned graph node kind result).nodesOut.keys ↔ id = node.id ∨ id ∈ state.nodesOut.keys :=
  Dict.mem_keys_set _ _ _ _

omit [Host] in
theorem finished_before {before : List PlanNode} (kind : NodeKind) (result : Result)
    (distinct : ((planNodes graph).map PlanNode.id).Nodup)
    (split : planNodes graph = before ++ node :: rest)
    (passed : ∀ other ∈ before, state.finished other.id = true) :
    ∀ other ∈ before, (state.returned graph node kind result).finished other.id = true := by
  intro other mem
  have differ : node.id ≠ other.id := by
    rw [split, List.map_append, List.map_cons] at distinct
    have apart := (List.nodup_append.mp distinct).2.2 other.id (List.mem_map_of_mem mem) node.id
      (.head _)
    exact apart.symm
  rw [finished_returned, if_neg differ]
  exact passed other mem

omit [Host] in
theorem success_of_not_faulty {result : Result} (clean : faulty plan node result = false) :
    result.success = true := by
  rw [faulty, Bool.or_eq_false_iff] at clean
  have ended := clean.2
  rwa [Bool.not_eq_false'] at ended

omit [Host] in
theorem asIs_proposed (truthy : graph.truthy = true) (same : config.graph = graph)
    (asIs : AsIs graph (.consulting, state)) (taken : Proposed config world state next) :
    StaysAsIs graph next := by
  cases taken with
  | again plan pending => exact ⟨asIs.1.congr rfl, rfl, asIs.2 plan pending⟩
  | asked plan idle replied =>
      refine ⟨asIs.1.congr rfl, idle, ?_⟩
      rw [reply, same, if_pos truthy] at replied
      cases replied
      rfl
  | crashed error idle replied => trivial

theorem asIs_settled {retry : Bool} (asIs : AsIs graph (.judging retry plan, state))
    (taken : Settled config retry plan state next) : StaysAsIs graph next := by
  obtain ⟨fronts, idle, rfl⟩ := asIs
  cases taken with
  | accepted verdict =>
      have accepted := (accepted_of_judge verdict).1
      refine ⟨fronts.congr rfl, idle, rfl, accepted.reads, accepted.inOrder, ?_⟩
      exact ⟨[], rfl, List.forall_mem_nil _⟩
  | invalid msg verdict => exact ⟨fronts.congr rfl, idle, rfl⟩
  | noProgress msg verdict => exact ⟨fronts.congr rfl, idle, rfl⟩
  | crashed error verdict => trivial

theorem asIs_visited (asIs : AsIs graph (.running plan (node :: rest), state))
    (taken : Visited config world plan node rest state next) : StaysAsIs graph next := by
  obtain ⟨fronts, idle, rfl, underway⟩ := asIs
  cases taken with
  | skipped finished =>
      obtain ⟨before, split, passed⟩ := underway.passed
      refine ⟨fronts.congr rfl, idle, rfl, underway.reads, underway.inOrder, before ++ [node], ?_, ?_⟩
      · rw [split, List.append_assoc, List.singleton_append]
      · intro other mem
        rcases List.mem_append.mp mem with early | late
        · exact passed other early
        · rw [List.mem_singleton.mp late]
          exact finished
  | unknown due affordable kindless => trivial
  | crashed error due affordable kind view record called other => trivial
  | faulted kind result due affordable fault =>
      obtain ⟨before, split, passed, rows⟩ := underway.due fronts due
      refine ⟨⟨before, node :: rest, split, ?_, ?_⟩, idle, rfl⟩
      · exact finished_before kind result underway.inOrder.distinct split passed
      · intro id row
        rcases (mem_keys_returned kind result id).mp row with same | row
        · exact Or.inr (List.mem_singleton.mpr same)
        · exact (rows id row).imp_right List.mem_singleton.mpr
  | passed kind result due affordable clean =>
      obtain ⟨before, split, passed, rows⟩ := underway.due fronts due
      have snoc : planNodes plan = (before ++ [node]) ++ rest := by
        rw [split, List.append_assoc, List.singleton_append]
      have finished : ∀ other ∈ before ++ [node],
          (state.returned plan node kind result).finished other.id = true := by
        intro other mem
        rcases List.mem_append.mp mem with early | late
        · exact finished_before kind result underway.inOrder.distinct split passed other early
        · rw [List.mem_singleton.mp late, finished_returned, if_pos rfl]
          exact success_of_not_faulty clean
      refine ⟨⟨before ++ [node], rest, snoc, finished, ?_⟩, idle, rfl, underway.reads,
        underway.inOrder, before ++ [node], snoc, finished⟩
      intro id row
      apply Or.inl
      rw [List.map_append]
      rcases (mem_keys_returned kind result id).mp row with same | row
      · exact List.mem_append_right _ (List.mem_singleton.mpr same)
      · rcases rows id row with early | same
        · exact List.mem_append_left _ early
        · exact List.mem_append_right _ (List.mem_singleton.mpr same)
  | _ => exact ⟨fronts.congr rfl, idle, rfl⟩

theorem asIs_answered {executed : Bool} {fault : Fault}
    (asIs : AsIs graph (.answering plan executed fault, state))
    (taken : Answered config state plan executed fault next) : StaysAsIs graph next := by
  obtain ⟨fronts, idle, rfl⟩ := asIs
  cases taken with
  | retried spec goes scanned retries =>
      refine ⟨fronts.congr rfl, ?_⟩
      intro plan pending
      cases pending
      rfl
  | replanned spec goes scanned stays affordable =>
      refine ⟨fronts.congr rfl, ?_⟩
      intro other pending
      have none : ((state.enter plan executed fault).replan fault).retryPlan = none := idle
      rw [none] at pending
      cases pending
  | _ => trivial

theorem asIs_step (truthy : graph.truthy = true) (same : config.graph = graph) {here : Point × State}
    (asIs : AsIs graph here) : StaysAsIs graph (step config world here) := by
  obtain ⟨point, state⟩ := here
  cases point with
  | consulting => exact asIs_proposed truthy same asIs (proposed config world state)
  | judging retry plan => exact asIs_settled asIs (settled config retry plan state)
  | running plan rest =>
      cases rest with
      | nil => trivial
      | cons node rest => exact asIs_visited asIs (visited config world plan node rest state)
  | answering plan executed fault =>
      exact asIs_answered asIs (answered config state plan executed fault)

theorem asIs_of_reachable (truthy : graph.truthy = true) (same : config.graph = graph)
    {here : Point × State} (reached : Reachable config world here) : AsIs graph here := by
  induction reached with
  | start =>
      refine ⟨⟨[], planNodes graph, rfl, List.forall_mem_nil _, ?_⟩, ?_⟩
      · intro id never
        cases never
      · intro plan never
        cases never
  | @again before after way stepped ih =>
      have stays : StaysAsIs graph (step config world before) := asIs_step truthy same ih
      rw [stepped] at stays
      exact stays

/-- When a node of a composed graph is due, the nodes before it are finished, and there is no row
but theirs and one of its own. -/
theorem rows_of_due (truthy : graph.truthy = true) (same : config.graph = graph)
    (reached : Reachable config world (.running plan (node :: rest), state))
    (due : state.finished node.id = false) :
    PlanReads graph ∧ ((planNodes graph).map PlanNode.id).Nodup ∧
      ∃ before, planNodes graph = before ++ node :: rest ∧
        (∀ other ∈ before, state.finished other.id = true) ∧
        ∀ id ∈ state.nodesOut.keys, id ∈ before.map PlanNode.id ∨ id = node.id := by
  obtain ⟨fronts, _, _, underway⟩ := asIs_of_reachable truthy same reached
  exact ⟨underway.reads, underway.inOrder.distinct, underway.due fronts due⟩

end

end Task
end PhysicalHarness
