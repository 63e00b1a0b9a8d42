import PhysicalHarness.Task.Ledger
import PhysicalHarness.Task.Steps

namespace PhysicalHarness
namespace Task

open Python Protocol Loop

/-!
# Dispatch discipline

Whatever the planner proposes and the handlers return, the loop dispatches no
node again after it succeeded, no node before its dependencies succeeded, and
keeps the finished work as an unchanged prefix of every plan it accepts.  When
it reports success, the nodes of the last accepted plan have each succeeded
once.

The invariant ties the ledger and the rows to the record of the run.  Among the
nodes of an accepted plan the successes are a prefix of its ids, at least as
long as the part already visited.
-/

/-- What the discipline allows after a record. -/
def Disciplined (past : List Event) : Event → Prop
  | .dispatched _ node _ => node.id ∉ successes past ∧ ∀ a ∈ node.after, a ∈ successes past
  | .accepted plan _ _ => Keeps (finishedWork past) plan
  | _ => True

def Event.isAccepted : Event → Bool
  | .accepted _ _ _ => true
  | _ => false

/-- The plan is the last one that was accepted. -/
def LastAccepted (plan : Json) (record : List Event) : Prop :=
  ∃ past retry fault later, record = past ++ .accepted plan retry fault :: later ∧
    ∀ event ∈ later, event.isAccepted = false

structure Books (state : State) : Prop where
  specs : state.doneSpecs.entries =
    (finishedWork state.trace).map (fun done => (done.2.id, doneSpec done.1 done.2))
  rows : ∀ id, state.finished id = true ↔ id ∈ successes state.trace
  reads : ∀ done ∈ finishedWork state.trace, ReadExactly done.2
  disciplined : Always Disciplined state.trace

structure Among (plan : Json) (rest : List PlanNode) (state : State) : Prop where
  inOrder : ViewsInOrder (planNodes plan)
  reads : ∀ view ∈ planNodes plan, ReadExactly view
  visited : ∃ first k, planNodes plan = first ++ rest ∧ first.length ≤ k ∧
    successes state.trace = ((planNodes plan).map PlanNode.id).take k
  last : LastAccepted plan state.trace

def Holds : Point × State → Prop
  | (.running plan rest, state) => Books state ∧ Among plan rest state
  | (_, state) => Books state

/-- Every node of the last accepted plan succeeded exactly once. -/
def Complete (record : List Event) : Prop :=
  ∃ plan, LastAccepted plan record ∧
    ∀ view ∈ planNodes plan, (successes record).count view.id = 1

def Good : Turn (Point × State) Final → Prop
  | .again next => Holds next
  | .stop (.finished success state) => Books state ∧ (success = true → Complete state.trace)
  | .stop (.crashed _ state) => Books state

theorem finishedWork_snoc_of_silent {record : List Event} {event : Event}
    (silent : finishedBy event = none) :
    finishedWork (record ++ [event]) = finishedWork record := by
  rw [finishedWork_append]
  simp [finishedWork, silent]

theorem successes_snoc_of_silent {record : List Event} {event : Event}
    (silent : finishedBy event = none) : successes (record ++ [event]) = successes record := by
  rw [successes, finishedWork_snoc_of_silent silent, successes]

theorem Books.log {state : State} (books : Books state) {event : Event}
    (silent : finishedBy event = none) (allowed : Disciplined state.trace event) :
    Books (state.log event) where
  specs := by
    show state.doneSpecs.entries = (finishedWork (state.trace ++ [event])).map _
    rw [finishedWork_snoc_of_silent silent]
    exact books.specs
  rows := fun id => by
    show state.finished id = true ↔ id ∈ successes (state.trace ++ [event])
    rw [successes_snoc_of_silent silent]
    exact books.rows id
  reads := fun done mem => by
    rw [State.log, finishedWork_snoc_of_silent silent] at mem
    exact books.reads done mem
  disciplined := books.disciplined.snoc allowed

theorem LastAccepted.snoc {plan : Json} {record : List Event} (last : LastAccepted plan record)
    {event : Event} (other : event.isAccepted = false) : LastAccepted plan (record ++ [event]) := by
  obtain ⟨past, retry, fault, later, split, none_⟩ := last
  refine ⟨past, retry, fault, later ++ [event], by rw [split, List.append_assoc]; rfl, ?_⟩
  intro old mem
  rcases List.mem_append.mp mem with earlier | new
  · exact none_ old earlier
  · exact List.mem_singleton.mp new ▸ other

theorem LastAccepted.unique {plan other : Json} {record : List Event}
    (last : LastAccepted plan record) (also : LastAccepted other record) : plan = other := by
  obtain ⟨past, retry, fault, later, split, none_⟩ := last
  obtain ⟨earlier, again, cause, rest, parts, silent⟩ := also
  rcases List.append_eq_append_iff.mp (split.symm.trans parts) with
    ⟨between, _, tail⟩ | ⟨between, _, tail⟩
  · cases between with
    | nil =>
        cases tail
        rfl
    | cons head between =>
        cases tail
        exact absurd (none_ _ (List.mem_append_right _ (.head _))) Bool.noConfusion
  · cases between with
    | nil =>
        cases tail
        rfl
    | cons head between =>
        cases tail
        exact absurd (silent _ (List.mem_append_right _ (.head _))) Bool.noConfusion

theorem Among.log {plan : Json} {rest : List PlanNode} {state : State}
    (among : Among plan rest state) {event : Event} (silent : finishedBy event = none)
    (other : event.isAccepted = false) : Among plan rest (state.log event) where
  inOrder := among.inOrder
  reads := among.reads
  visited := by
    show ∃ first k, planNodes plan = first ++ rest ∧ first.length ≤ k ∧
      successes (state.trace ++ [event]) = _
    rw [successes_snoc_of_silent silent]
    exact among.visited
  last := among.last.snoc other

theorem Books.keys {state : State} (books : Books state) :
    state.doneSpecs.keys = successes state.trace := by
  rw [Dict.keys, books.specs, List.map_map]
  rfl

theorem Books.distinct {state : State} (books : Books state) :
    (successes state.trace).Nodup := books.keys ▸ state.doneSpecs.nodup_keys

theorem Books.ledger {state : State} (books : Books state) :
    state.doneSpecs.entries.map Prod.snd =
      (finishedWork state.trace).map (fun done => doneSpec done.1 done.2) := by
  rw [books.specs, List.map_map]
  rfl

theorem start_books : Books {} where
  specs := rfl
  rows := fun id => by simp [State.finished, successes]
  reads := nofun
  disciplined := always_nil _

/-- The node next to be visited is not among the visited ones, so it is in place
right after the finished work unless it is finished itself. -/
theorem Among.next_of_finished {plan : Json} {node : PlanNode} {rest : List PlanNode}
    {state : State} (among : Among plan (node :: rest) state)
    (done : node.id ∈ successes state.trace) : Among plan rest state where
  inOrder := among.inOrder
  reads := among.reads
  visited := by
    obtain ⟨first, k, split, longer, prefix_⟩ := among.visited
    refine ⟨first ++ [node], k, by rw [split, List.append_assoc]; rfl, ?_, prefix_⟩
    rw [List.length_append, List.length_singleton]
    by_contra short
    have exactly_ : k = first.length := by omega
    have distinct := among.inOrder.distinct
    rw [prefix_, split, List.map_append, exactly_] at done
    rw [split, List.map_append] at distinct
    rw [List.take_left' (List.length_map ..)] at done
    exact (List.nodup_append.mp distinct).2.2 _ done _ (.head _) rfl
  last := among.last

theorem Among.due {plan : Json} {node : PlanNode} {rest : List PlanNode} {state : State}
    (among : Among plan (node :: rest) state) (due : node.id ∉ successes state.trace) :
    ∃ first, planNodes plan = first ++ node :: rest ∧
      successes state.trace = first.map PlanNode.id := by
  obtain ⟨first, k, split, longer, prefix_⟩ := among.visited
  refine ⟨first, split, ?_⟩
  have exactly_ : k = first.length := by
    by_contra different
    apply due
    rw [prefix_, split, List.map_append, List.map_cons]
    refine List.mem_iff_getElem?.mpr ⟨first.length, ?_⟩
    rw [List.getElem?_take_of_lt (by omega), List.getElem?_append_right (by simp)]
    simp
  rw [prefix_, split, List.map_append, exactly_]
  exact List.take_left' (List.length_map ..)

theorem Among.after_done {plan : Json} {node : PlanNode} {rest : List PlanNode} {state : State}
    (among : Among plan (node :: rest) state) (due : node.id ∉ successes state.trace) :
    ∀ a ∈ node.after, a ∈ successes state.trace := by
  obtain ⟨first, split, done⟩ := among.due due
  rw [done]
  exact among.inOrder.earlier first node rest split

theorem Among.reads_next {plan : Json} {node : PlanNode} {rest : List PlanNode} {state : State}
    (among : Among plan (node :: rest) state) (due : node.id ∉ successes state.trace) :
    ReadExactly node := by
  obtain ⟨first, split, _⟩ := among.due due
  exact among.reads node (split ▸ List.mem_append_right _ List.mem_cons_self)

theorem finished_record {state : State} {plan : Json} {node : PlanNode} {kind : NodeKind}
    {result : Result} (id : String) :
    (state.record plan node kind result).finished id =
      if node.id = id then result.success else state.finished id := by
  by_cases same : node.id = id
  · simp [State.finished, State.record, same, entryOf]
  · simp [State.finished, State.record, same]

theorem Books.record {state : State} (books : Books state) {plan : Json} {node : PlanNode}
    {kind : NodeKind} {result : Result} (reads : ReadExactly node)
    (due : node.id ∉ successes state.trace) (ready : ∀ a ∈ node.after, a ∈ successes state.trace) :
    Books ((state.log (.dispatched plan node (.returned result))).record plan node kind result) := by
  have disciplined : Always Disciplined
      (state.trace ++ [.dispatched plan node (.returned result)]) :=
    books.disciplined.snoc ⟨due, ready⟩
  cases success : result.success with
  | false =>
      have silent : finishedBy (.dispatched plan node (.returned result)) = none := by
        simp [finishedBy, success]
      refine ⟨?_, fun id => ?_, fun done mem => ?_, disciplined⟩
      · show (if result.success then _ else state.doneSpecs).entries =
          (finishedWork (state.trace ++ [_])).map _
        rw [success, finishedWork_snoc_of_silent silent]
        exact books.specs
      · rw [finished_record, success]
        show _ ↔ id ∈ successes (state.trace ++ [_])
        rw [successes_snoc_of_silent silent]
        by_cases same : node.id = id
        · subst same
          simp [due]
        · rw [if_neg same]
          exact books.rows id
      · have earlier : done ∈ finishedWork state.trace := by
          rw [← finishedWork_snoc_of_silent silent]
          exact mem
        exact books.reads done earlier
  | true =>
      have work : finishedWork (state.trace ++ [.dispatched plan node (.returned result)]) =
          finishedWork state.trace ++ [(plan, node)] := by
        rw [finishedWork_append]
        simp [finishedWork, finishedBy, success]
      have fresh : node.id ∉ state.doneSpecs.keys := books.keys ▸ due
      refine ⟨?_, fun id => ?_, fun done mem => ?_, disciplined⟩
      · show (if result.success then state.doneSpecs.set node.id (doneSpec plan node)
          else _).entries = (finishedWork (state.trace ++ [_])).map _
        rw [success, if_pos rfl, Dict.entries_set_of_not_mem fresh, work, List.map_append,
          books.specs]
        rfl
      · rw [finished_record, success]
        show _ ↔ id ∈ successes (state.trace ++ [_])
        rw [successes, work, List.map_append, List.mem_append]
        by_cases same : node.id = id
        · simp [same]
        · rw [if_neg same]
          refine (books.rows id).trans ⟨Or.inl, fun either => ?_⟩
          rcases either with earlier | new
          · exact earlier
          · exact absurd (List.mem_singleton.mp new).symm same
      · have either : done ∈ finishedWork state.trace ++ [(plan, node)] := work ▸ mem
        rcases List.mem_append.mp either with earlier | new
        · exact books.reads done earlier
        · exact List.mem_singleton.mp new ▸ reads

section

variable [Host] {config : Config} {world : World} {plan : Json} {state : State}
  {next : Turn (Point × State) Final}

/-! ## Every step keeps the invariant -/

omit [Host] in
theorem good_breakWith (books : Books state) (fault : Fault) :
    Good (breakWith plan state fault) := books

omit [Host] in
theorem good_of_proposed (books : Books state) (taken : Proposed config world state next) :
    Good next := by
  cases taken with
  | again plan pending => exact ⟨books.specs, books.rows, books.reads, books.disciplined⟩
  | asked plan idle replied =>
      have asked : Books (state.log (.consulted (state.brief config) (.ok plan))) :=
        books.log rfl trivial
      exact ⟨asked.specs, asked.rows, asked.reads, asked.disciplined⟩
  | crashed error idle replied => exact books.log rfl trivial

theorem good_of_settled {retry : Bool} (books : Books state)
    (taken : Settled config retry plan state next) : Good next := by
  cases taken with
  | accepted verdict =>
      obtain ⟨accepted, _⟩ := accepted_of_judge verdict
      have reads : ∀ view ∈ planNodes plan, ReadExactly view :=
        fun view mem => accepted.nodeReads mem
      have inOrder := accepted.inOrder
      rw [books.ledger] at accepted
      have keeps := keeps_of_accepted accepted books.reads books.distinct
      have noted : Books { state with prevPlan := some plan } :=
        ⟨books.specs, books.rows, books.reads, books.disciplined⟩
      refine ⟨noted.log rfl keeps, inOrder, reads, ⟨[], (successes state.trace).length, rfl,
        Nat.zero_le _, ?_⟩, ⟨state.trace, retry, state.fault, [], rfl, ?_⟩⟩
      · show successes (state.trace ++ [_]) = _
        rw [successes_snoc_of_silent rfl]
        have ids := keeps.ids
        rw [← List.length_map (fun done : Json × PlanNode => done.2.id)] at ids
        exact ids
      · intro event never
        cases never
  | invalid msg verdict => exact books.log rfl trivial
  | noProgress msg verdict => exact books.log rfl trivial
  | crashed error verdict => exact books

theorem good_of_visited {node : PlanNode} {rest : List PlanNode} (books : Books state)
    (among : Among plan (node :: rest) state)
    (taken : Visited config world plan node rest state next) : Good next := by
  have polledBooks : ∀ fired, Books (state.log (.polled fired)) :=
    fun fired => books.log rfl trivial
  have polledAmong : Among plan (node :: rest) (state.log (.polled false)) := among.log rfl rfl
  have notDone : state.finished node.id = false →
      node.id ∉ successes (state.log (.polled false)).trace := by
    intro due done
    have finished := ((polledBooks false).rows node.id).mpr done
    rw [show (state.log (.polled false)).finished node.id = state.finished node.id from rfl,
      due] at finished
    cases finished
  have dispatchable : state.finished node.id = false → ∀ {outcome : Outcome},
      Disciplined (state.log (.polled false)).trace (.dispatched plan node outcome) :=
    fun due => ⟨notDone due, polledAmong.after_done (notDone due)⟩
  have billed : Books (state.log (.polled false)).bill :=
    ⟨(polledBooks false).specs, (polledBooks false).rows, (polledBooks false).reads,
      (polledBooks false).disciplined⟩
  cases taken with
  | cancelled fired => exact good_breakWith (polledBooks true) _
  | skipped finished =>
      exact ⟨polledBooks false,
        polledAmong.next_of_finished (((polledBooks false).rows _).mp finished)⟩
  | exhausted due spent => exact good_breakWith (polledBooks false) _
  | unknown due affordable kindless => exact billed
  | refused text due affordable =>
      exact good_breakWith (billed.log rfl (dispatchable due)) _
  | crashed error due affordable kind view record called other =>
      exact billed.log rfl (dispatchable due)
  | faulted kind result due affordable fault =>
      exact good_breakWith (billed.record (polledAmong.reads_next (notDone due)) (notDone due)
        (polledAmong.after_done (notDone due))) _
  | passed kind result due affordable clean =>
      refine ⟨billed.record (polledAmong.reads_next (notDone due)) (notDone due)
        (polledAmong.after_done (notDone due)), among.inOrder, among.reads, ?_,
        polledAmong.last.snoc rfl⟩
      obtain ⟨first, split, done⟩ := polledAmong.due (notDone due)
      have success : result.success = true := by
        by_contra failed
        simp [faulty, failed] at clean
      refine ⟨first ++ [node], first.length + 1, by rw [split, List.append_assoc]; rfl,
        by simp, ?_⟩
      rw [State.log_trace] at done
      rw [State.returned_trace, successes_append, done, split]
      rw [List.map_append, List.take_append]
      simp [successes, finishedWork, finishedBy, success, List.take_of_length_le]

theorem good_of_answered {executed : Bool} {fault : Fault} (books : Books state)
    (taken : Answered config state plan executed fault next) : Good next := by
  have entered : Books (state.enter plan executed fault) := by
    have logged : Books (state.log (.faulted fault)) := books.log rfl trivial
    exact ⟨logged.specs, logged.rows, logged.reads, logged.disciplined⟩
  have failed : (false = true) → Complete (state.enter plan executed fault).trace :=
    nofun
  cases taken with
  | terminal ends => exact ⟨entered, failed⟩
  | crashed error goes scanned => exact entered
  | retried spec goes scanned retries =>
      exact ⟨entered.specs, entered.rows, entered.reads, entered.disciplined⟩
  | exhausted spec goes scanned spent => exact ⟨entered, failed⟩
  | replanned spec goes scanned stays affordable =>
      exact ⟨entered.specs, entered.rows, entered.reads, entered.disciplined⟩

omit [Host] in
theorem complete_of_among (books : Books state) (among : Among plan [] state) :
    Complete state.trace := by
  refine ⟨plan, among.last, fun view mem => ?_⟩
  obtain ⟨first, k, split, longer, prefix_⟩ := among.visited
  rw [List.append_nil] at split
  refine List.count_eq_one_of_mem books.distinct ?_
  rw [prefix_, List.take_of_length_le (by rw [List.length_map, split]; exact longer)]
  exact List.mem_map_of_mem mem

theorem good_step {here : Point × State} (holds : Holds here) : Good (step config world here) := by
  obtain ⟨point, state⟩ := here
  cases point with
  | consulting => exact good_of_proposed holds (proposed config world state)
  | judging retry plan => exact good_of_settled holds (settled config retry plan state)
  | running plan rest =>
      obtain ⟨books, among⟩ := holds
      cases rest with
      | nil => exact ⟨books, fun _ => complete_of_among books among⟩
      | cons node rest => exact good_of_visited books among (visited config world plan node rest state)
  | answering plan executed fault => exact good_of_answered holds (answered config state plan executed fault)

theorem holds_of_reachable {here : Point × State} (reached : Reachable config world here) :
    Holds here :=
  reached.invariant start_books (fun before after _ holds stepped => by
    have good : Good (step config world before) := good_step holds
    rw [stepped] at good
    exact good)

omit [Host] in
theorem Holds.books {here : Point × State} (holds : Holds here) : Books here.2 := by
  obtain ⟨point, state⟩ := here
  cases point with
  | running plan rest => exact holds.1
  | _ => exact holds

theorem disciplined_of_recordOf {record : List Event} (recorded : RecordOf config world record) :
    Always Disciplined record := by
  cases recorded with
  | underway reached => exact (holds_of_reachable reached).books.disciplined
  | ended ran =>
      obtain ⟨here, last, reached, stops, same⟩ := exists_last_of_run ran
      have good : Good (step config world here) := good_step (holds_of_reachable reached)
      rw [stops] at good
      subst same
      cases last with
      | finished success state =>
          have closed : Books (state.log (.planComplete success)) := good.1.log rfl trivial
          exact closed.disciplined
      | crashed error state => exact good.disciplined

theorem complete_of_run {fuel : Nat} {state : State}
    (ran : run config world fuel = some (.finished true state)) : Complete state.trace := by
  obtain ⟨here, last, reached, stops, same⟩ := exists_last_of_run ran
  have good : Good (step config world here) := good_step (holds_of_reachable reached)
  rw [stops] at good
  cases last with
  | crashed error other => cases same
  | finished success other =>
      cases same
      obtain ⟨plan, last, once⟩ := good.2 rfl
      refine ⟨plan, last.snoc rfl, fun view mem => ?_⟩
      rw [State.log, successes_snoc_of_silent rfl]
      exact once view mem

/-- Dispatch discipline of every run: no node is dispatched after it succeeded
or before its dependencies did, every plan accepted after a consultation keeps
the work finished by then, and success means that every node of the last
accepted plan succeeded exactly once. -/
theorem dispatch_discipline (config : Config) (world : World) :
    (∀ record, RecordOf config world record →
      (∀ first plan node outcome rest,
        record = first ++ .dispatched plan node outcome :: rest →
          node.id ∉ successes first ∧ ∀ a ∈ node.after, a ∈ successes first) ∧
      (∀ first brief answered between plan retry fault rest,
        record = first ++ .consulted brief answered :: between ++ .accepted plan retry fault :: rest →
          Keeps (finishedWork first) plan)) ∧
    (∀ fuel state, run config world fuel = some (.finished true state) →
      ∃ plan, LastAccepted plan state.trace ∧
        ∀ view ∈ planNodes plan, (successes state.trace).count view.id = 1) := by
  refine ⟨fun record recorded => ?_, fun fuel state ran => ?_⟩
  · have disciplined := disciplined_of_recordOf recorded
    refine ⟨fun first plan node outcome rest split => disciplined first _ rest split, ?_⟩
    intro first brief answered between plan retry fault rest split
    have keeps := disciplined (first ++ .consulted brief answered :: between) _ rest split
    rw [Disciplined, finishedWork_append] at keeps
    exact keeps.of_append
  · exact complete_of_run ran

end

section Example

local instance lookHost : Host := asciiHost

private def lookPlan : Json :=
  .obj [("goal", .str "tidy"),
    ("nodes", .arr [
      .obj [("id", .str "look"), ("skill", .str "look"), ("args", .obj []), ("after", .arr []),
        ("kind", .str "perceive")],
      .obj [("id", .str "check"), ("skill", .str "check"), ("args", .obj []),
        ("after", .arr [.str "look"]), ("kind", .str "verify")]]),
    ("verify", .arr [.obj [("after", .str "look"), ("predicate", .str "seen")]])]

private def lookConfig : Config where
  catalogue := [("look", []), ("check", [])]
  oracles := ["seen"]
  requirements := []
  records := []
  facts := []
  objects := []
  graph := .null
  seed := 0
  maxReplans := 1
  maxActuations := 4
  segmentRetries := 0

private def isFault : Event → Bool
  | .faulted _ => true
  | _ => false

/-- The first dispatch of `check` is refused; everything else succeeds. -/
private def lookWorld : World where
  plan := fun _ _ => .ok lookPlan
  handle := fun _ node _ record =>
    if node.id = "check" ∧ !record.any isFault then .error (.valueError "no binding")
    else .ok { success := true }
  cancelled := fun _ => false

private def recordOf (final : Option Final) : List Event :=
  (final.map (fun last => last.state.trace)).getD []

private def succeeds : Option Final → Bool
  | some (.finished true _) => true
  | _ => false

private def opensAccepted : List Event → Bool
  | .consulted _ _ :: .accepted _ _ _ :: _ => true
  | _ => false

private def opensDispatched : List Event → Bool
  | .dispatched _ _ _ :: _ => true
  | _ => false

/-- The second proposal keeps `look`, only `check` is dispatched again, and the
run succeeds. -/
theorem dispatch_discipline_lookPlan :
    ∃ state, run lookConfig lookWorld 20 = some (.finished true state) ∧
      (∃ first plan node outcome rest,
        state.trace = first ++ .dispatched plan node outcome :: rest ∧
          node.id ∉ successes first ∧ ∀ a ∈ node.after, a ∈ successes first) ∧
      (∃ first brief answered between plan retry fault rest,
        state.trace =
            first ++ .consulted brief answered :: between ++ .accepted plan retry fault :: rest ∧
          Keeps (finishedWork first) plan) ∧
      ∃ plan, LastAccepted plan state.trace ∧
        ∀ view ∈ planNodes plan, (successes state.trace).count view.id = 1 := by
  have succeeded : succeeds (run lookConfig lookWorld 20) = true := by
    decide +kernel
  have again : opensAccepted ((recordOf (run lookConfig lookWorld 20)).drop 7) = true := by
    decide +kernel
  have sent : opensDispatched ((recordOf (run lookConfig lookWorld 20)).drop 11) = true := by
    decide +kernel
  unfold succeeds at succeeded
  split at succeeded
  · rename_i state ran
    rw [ran] at again sent
    simp only [recordOf, Option.map_some, Option.getD_some, Final.state] at again sent
    obtain ⟨always, complete⟩ := dispatch_discipline lookConfig lookWorld
    obtain ⟨dispatches, accepts⟩ := always _ (.ended ran)
    refine ⟨state, ran, ?_, ?_, complete 20 state ran⟩
    · unfold opensDispatched at sent
      split at sent
      · rename_i plan node outcome rest found
        have whole := (List.take_append_drop 11 state.trace).symm
        rw [found] at whole
        exact ⟨_, plan, node, outcome, rest, whole, dispatches _ plan node outcome rest whole⟩
      · cases sent
    · unfold opensAccepted at again
      split at again
      · rename_i brief answered plan retry fault rest found
        have whole := (List.take_append_drop 7 state.trace).symm
        rw [found] at whole
        have parts : state.trace = state.trace.take 7 ++ .consulted brief answered :: [] ++
            .accepted plan retry fault :: rest := by
          rw [List.append_assoc]
          exact whole
        exact ⟨_, brief, answered, [], plan, retry, fault, rest, parts,
          accepts _ brief answered [] plan retry fault rest parts⟩
      · cases again
  · cases succeeded

end Example

end Task
end PhysicalHarness
