import Mathlib.Data.List.Find
import PhysicalHarness.Lib.Tally
import PhysicalHarness.Task.Dispatch

namespace PhysicalHarness
namespace Scripts

open Python Protocol PhysicalHarness.Task Loop

/-!
# Calibration

A calibration runs the task ungoverned on a block of seeds and charges every episode to
the first node that did not end true.  The charges are read off the rows of the nodes,
and the success off the loop's exit; an episode is accounted for when the two agree.
-/

/-- A node of the graph that a row carries. -/
structure GraphNode where
  id : String
  skill : Json
  kind : String
  after : List String
  args : Json

/-- The row of one calibration episode. -/
structure CalibrationRow where
  seed : Int
  success : Bool
  firstDeath : String
  graph : List GraphNode
  nodeOk : List (String × Bool)
  nodeStages : List (String × List Stage)
  replans : Nat
  actuations : Nat
  budgetExhaust : Bool
  /-- Only the row of an episode that nobody could finish has this key. -/
  wallTimeout : Option Bool

/-- The first row that did not end true. -/
def firstDeath (nodes : Dict String Entry) : String :=
  ((nodes.entries.find? (fun entry => !entry.2.success)).map Prod.fst).getD "none"

/-- `_probe_one_uncapped`, of a run that returned. -/
def probeRow (seed : Int) (graph : List GraphNode) (success : Bool) (final : State) :
    CalibrationRow where
  seed := seed
  success := success
  firstDeath := firstDeath final.nodesOut
  graph := graph
  nodeOk := final.nodesOut.entries.map (fun entry => (entry.1, entry.2.success))
  nodeStages := final.nodesOut.entries.map (fun entry => (entry.1, entry.2.stages))
  replans := final.replans
  actuations := final.actuations
  budgetExhaust := final.faults.getLast?.any (fun fault => decide (fault.kind = .budget))
  wallTimeout := none

/-- `_lost_row`. -/
def lostRow (seed : Int) (reason : String) : CalibrationRow where
  seed := seed
  success := false
  firstDeath := reason
  graph := []
  nodeOk := []
  nodeStages := []
  replans := 0
  actuations := 0
  budgetExhaust := false
  wallTimeout := some (decide (reason = "wall_timeout"))

/-! ## The summary -/

/-- `MECHANISM`. -/
def mechanisms : List (String × String) :=
  [("manipulate", "actuation_stall"), ("segment", "actuation_stall"), ("verify", "verify_drop"),
    ("perceive", "perceive_read"), ("decide", "decide_gate")]

def mechanismOf (kind : String) : String := (Assoc.get? mechanisms kind).getD "none"

/-- `ACTUATING`. -/
def actuating : List String := ["manipulate", "segment"]

def nodeNamed (graph : List GraphNode) (id : String) : Option GraphNode :=
  graph.reverse.find? (fun node => node.id = id)

/-- `Counter` of strings. -/
def counter (names : List String) : List (String × Nat) := Tally.of (fun left right => left == right) names

structure NodeDeaths where
  id : String
  kind : String
  mechanism : String
  deaths : Nat

/-- What `summarize` counts. -/
structure Summary where
  n : Nat
  successes : Nat
  graph : List GraphNode
  firstDeathByNode : List (String × Nat)
  firstDeathByMechanism : List (String × Nat)
  firstDeathByNodeXMechanism : List NodeDeaths
  budgetExhaust : Nat
  replansTotal : Nat
  episodes : List CalibrationRow

def graphOf (rows : List CalibrationRow) : List GraphNode :=
  ((rows.map CalibrationRow.graph).find? (fun graph => !graph.isEmpty)).getD []

/-- `summarize`. -/
def summarize (rows : List CalibrationRow) : Summary :=
  let graph := graphOf rows
  let kindOf := fun name : String => (nodeNamed graph name).map GraphNode.kind
  let byNode := counter (rows.map CalibrationRow.firstDeath)
  { n := rows.length
    successes := rows.countP CalibrationRow.success
    graph
    firstDeathByNode := byNode
    firstDeathByMechanism := counter (((rows.map CalibrationRow.firstDeath).filter
      (fun death => death ≠ "none")).map (fun death => mechanismOf ((kindOf death).getD "")))
    firstDeathByNodeXMechanism :=
      ((byNode.insertionSort (fun left right => right.2 ≤ left.2)).filter
        (fun entry => entry.1 ≠ "none")).map (fun entry =>
          ⟨entry.1, (kindOf entry.1).getD "?", mechanismOf ((kindOf entry.1).getD ""), entry.2⟩)
    budgetExhaust := rows.countP CalibrationRow.budgetExhaust
    replansTotal := (rows.map CalibrationRow.replans).sum
    episodes := rows }

/-- The walk of `owner`, backwards along `after`; no id is looked at twice, so it ends
within as many steps as there are nodes. -/
def ownerFrom (graph : List GraphNode) : Nat → List String → String → Option String
  | 0, _, _ => none
  | steps + 1, seen, name =>
      match nodeNamed graph name with
      | none => none
      | some node =>
          if name ∈ seen then none
          else if node.kind ∈ actuating then some name
          else
            match (node.after.filter (fun before => (nodeNamed graph before).isSome)).getLast? with
            | none => none
            | some before => ownerFrom graph steps (name :: seen) before

def owner (graph : List GraphNode) (id : String) : Option String :=
  (ownerFrom graph (graph.length + 1) [] id).filter (fun target => target ≠ "")

structure Attribution where
  governable : List (String × Nat)
  ungoverned : List (String × Nat)
  governableDeaths : Nat
  ungovernedDeaths : Nat
  target : Option String
  targetDeaths : Nat
  ranked : List (String × Nat)

/-- One entry of the deaths by node, on the charges so far. -/
def charge (graph : List GraphNode) (charges : List (String × Nat) × List (String × Nat))
    (entry : String × Nat) : List (String × Nat) × List (String × Nat) :=
  if entry.1 = "none" then charges
  else
    match owner graph entry.1 with
    | some target => (Tally.add (fun left right => left == right) charges.1 target entry.2, charges.2)
    | none => (charges.1, Tally.add (fun left right => left == right) charges.2 entry.1 entry.2)

/-- `attribute`. -/
def attributeDeaths (summary : Summary) : Attribution :=
  let charges := summary.firstDeathByNode.foldl (charge summary.graph) ([], [])
  let ranked := charges.1.insertionSort (fun left right =>
    right.2 < left.2 ∨ left.2 = right.2 ∧ left.1 ≤ right.1)
  { governable := charges.1
    ungoverned := charges.2
    governableDeaths := Tally.total charges.1
    ungovernedDeaths := Tally.total charges.2
    target := ranked.head?.map Prod.fst
    targetDeaths := (ranked.head?.map Prod.snd).getD 0
    ranked }

/-- The deaths at nodes. -/
def Summary.deaths (summary : Summary) : Nat :=
  Tally.totalOf (fun name => decide (name ≠ "none")) summary.firstDeathByNode

theorem deaths_summarize (rows : List CalibrationRow) : (summarize rows).deaths =
    rows.countP (fun row => decide (row.firstDeath ≠ "none")) := by
  have counts : (summarize rows).deaths =
      (rows.map CalibrationRow.firstDeath).countP (fun name => decide (name ≠ "none")) :=
    Tally.totalOf_of (fun left right equal => by rw [beq_iff_eq.mp equal]) _
  rw [counts, List.countP_map]
  rfl

theorem total_charge (graph : List GraphNode) (charges : List (String × Nat) × List (String × Nat))
    (entry : String × Nat) :
    Tally.total (charge graph charges entry).1 + Tally.total (charge graph charges entry).2 =
      Tally.total charges.1 + Tally.total charges.2 + if entry.1 ≠ "none" then entry.2 else 0 := by
  rw [charge]
  by_cases alive : entry.1 = "none"
  · rw [if_pos alive, if_neg (not_not_intro alive), Nat.add_zero]
  · rw [if_neg alive, if_pos alive]
    cases owner graph entry.1 with
    | some target =>
        change Tally.total (Tally.add _ _ _ _) + Tally.total charges.2 = _
        rw [Tally.total_add, Nat.add_right_comm]
    | none =>
        change Tally.total charges.1 + Tally.total (Tally.add _ _ _ _) = _
        rw [Tally.total_add, Nat.add_assoc]

theorem charged_attributeDeaths (summary : Summary) :
    (attributeDeaths summary).governableDeaths + (attributeDeaths summary).ungovernedDeaths = summary.deaths := by
  have general : ∀ charges, Tally.total (summary.firstDeathByNode.foldl (charge summary.graph) charges).1 +
      Tally.total (summary.firstDeathByNode.foldl (charge summary.graph) charges).2 =
        Tally.total charges.1 + Tally.total charges.2 + summary.deaths := by
    intro charges
    rw [Summary.deaths]
    generalize summary.firstDeathByNode = table
    induction table generalizing charges with
    | nil => rfl
    | cons entry rest ih =>
        rw [List.foldl_cons, ih, total_charge, Tally.totalOf_cons, Nat.add_assoc]
        simp only [decide_eq_true_eq]
  have whole := general ([], [])
  rw [show Tally.total ([] : List (String × Nat)) + Tally.total ([] : List (String × Nat)) = 0 from rfl,
    Nat.zero_add] at whole
  exact whole

/-! ## Rows and record -/

def ranBy : Event → Option String
  | .dispatched _ node (.returned _) => some node.id
  | _ => none

def ranIn (record : List Event) : List String := record.filterMap ranBy

def leftFailed (record : List Event) : Option String :=
  (ranIn record).find? (fun name => decide (name ∉ successes record))

theorem ranIn_snoc (record : List Event) (event : Event) :
    ranIn (record ++ [event]) = ranIn record ++ (ranBy event).toList := by
  rw [ranIn, List.filterMap_append]
  cases named : ranBy event <;> simp [ranIn, named]

/-- The keys of the rows are the nodes that ran, in the order of their first runs. -/
def Rowed (state : State) : Prop :=
  ∀ keep, state.nodesOut.keys.find? keep = (ranIn state.trace).find? keep

theorem Rowed.snoc {state next : State} {event : Event} (rowed : Rowed state)
    (rows : next.nodesOut = state.nodesOut) (trace : next.trace = state.trace ++ [event])
    (silent : ranBy event = none) : Rowed next := by
  intro keep
  rw [rows, trace, ranIn_snoc, silent, Option.toList_none, List.append_nil]
  exact rowed keep

theorem Rowed.returned {state : State} (rowed : Rowed state) (plan : Json) (node : PlanNode)
    (kind : NodeKind) (result : Result) : Rowed (state.returned plan node kind result) := by
  intro keep
  have keys : (state.returned plan node kind result).nodesOut.keys =
      Assoc.keys (Assoc.set state.nodesOut.entries node.id (entryOf result)) := rfl
  have record : ranIn (state.returned plan node kind result).trace =
      ranIn state.trace ++ [node.id] := by
    rw [State.returned_trace, ranIn_snoc, ranIn_snoc]
    exact congrArg (· ++ [node.id]) (List.append_nil _)
  have here : (Assoc.keys state.nodesOut.entries).find? keep = (ranIn state.trace).find? keep :=
    rowed keep
  rw [keys, record, List.find?_append, ← here]
  by_cases mem : node.id ∈ Assoc.keys state.nodesOut.entries
  · rw [Assoc.keys_set_of_mem mem]
    cases found : (Assoc.keys state.nodesOut.entries).find? keep with
    | some name => rfl
    | none =>
        have rejected := List.find?_eq_none.mp found _ mem
        rw [List.find?_cons_of_neg rejected]
        rfl
  · rw [Assoc.keys_set_of_not_mem mem, List.find?_append]

section

variable [Host] {config : Config} {world : World}

def Rows : Turn (Point × State) Final → Prop
  | .again next => Rowed next.2
  | .stop last => Rowed last.state

theorem rows_step {here : Point × State} (rowed : Rowed here.2) :
    Rows (step config world here) := by
  rcases here with ⟨point, state⟩
  cases point with
  | consulting =>
      have taken := proposed config world state
      change Rows (propose config world state)
      generalize propose config world state = next at taken ⊢
      cases taken with
      | again plan pending => exact rowed
      | asked plan idle replied => exact rowed.snoc rfl rfl rfl
      | crashed error idle replied => exact rowed.snoc rfl rfl rfl
  | judging retry plan =>
      have taken := settled config retry plan state
      change Rows (settle config retry plan state)
      generalize settle config retry plan state = next at taken ⊢
      cases taken with
      | crashed error verdict => exact rowed
      | _ => exact rowed.snoc rfl rfl rfl
  | running plan rest =>
      cases rest with
      | nil => exact rowed
      | cons node rest =>
          have polled : ∀ fired, Rowed (state.log (.polled fired)) :=
            fun fired => rowed.snoc rfl rfl rfl
          have taken := visited config world plan node rest state
          change Rows (visit config world plan node rest state)
          generalize visit config world plan node rest state = next at taken ⊢
          cases taken with
          | cancelled fired => exact polled true
          | refused text due affordable => exact (polled false).snoc rfl rfl rfl
          | crashed error due affordable kind view record called other =>
              exact (polled false).snoc rfl rfl rfl
          | faulted kind result due affordable fault => exact rowed.returned plan node kind result
          | passed kind result due affordable clean => exact rowed.returned plan node kind result
          | _ => exact polled false
  | answering plan executed fault =>
      have entered : Rowed (state.enter plan executed fault) := rowed.snoc rfl rfl rfl
      have taken := answered config state plan executed fault
      change Rows (answer config state plan executed fault)
      generalize answer config state plan executed fault = next at taken ⊢
      cases taken with
      | _ => exact entered

theorem rowed_of_reachable {here : Point × State} (reached : Reachable config world here) :
    Rowed here.2 := by
  refine @Reaches.invariant _ _ _ _ _ (fun here : Point × State => Rowed here.2) reached (fun _ => rfl) ?_
  intro before after _ rowed stepped
  have rows : Rows (step config world before) := rows_step rowed
  rw [stepped] at rows
  exact rows

omit [Host] in
theorem firstDeath_eq {state : State} (books : Books state) (rowed : Rowed state) :
    firstDeath state.nodesOut = (leftFailed state.trace).getD "none" := by
  have failing : ∀ entry ∈ state.nodesOut.entries,
      (!entry.2.success) = decide (entry.1 ∉ successes state.trace) := by
    intro entry mem
    have found : state.nodesOut.get? entry.1 = some entry.2 :=
      (state.nodesOut.mem_entries_iff entry.1 entry.2).mp mem
    have finished := books.rows entry.1
    rw [State.finished, found] at finished
    have same : entry.2.success = true ↔ entry.1 ∈ successes state.trace := finished
    rw [Bool.eq_iff_iff, Bool.not_eq_true', ← Bool.not_eq_true, same, decide_eq_true_eq]
  have rows : state.nodesOut.entries.find? (fun entry => !entry.2.success) =
      state.nodesOut.entries.find? (fun entry => decide (entry.1 ∉ successes state.trace)) :=
    List.find?_congr failing
  have keys : state.nodesOut.keys.find? (fun name => decide (name ∉ successes state.trace)) =
      (state.nodesOut.entries.find? (fun entry => decide (entry.1 ∉ successes state.trace))).map
        Prod.fst := List.find?_map
  rw [firstDeath, rows, ← keys, rowed]
  rfl

/-! ## When an episode is accounted for -/

/-- The run ends here, with this outcome. -/
def EndsAt (config : Config) (world : World) (here : Point × State) (success : Bool)
    (final : State) : Prop :=
  Reachable config world here ∧ ∃ state, step config world here = .stop (.finished success state) ∧
    final = state.log (.planComplete success)

/-- The plan that is completed still has the node that was left failed; a fault that ends
the run finds one. -/
def Accounted : Point × State → Prop
  | (.running plan _, state) => ∀ name, leftFailed state.trace = some name →
      name ∈ (planNodes plan).map PlanNode.id ∨ name = "none"
  | (.answering _ _ _, state) => ∃ name, leftFailed state.trace = some name ∧ name ≠ "none"
  | _ => True

omit [Host] in
theorem not_mem_successes_of_leftFailed {record : List Event} {name : String}
    (left : leftFailed record = some name) : name ∉ successes record := by
  rw [leftFailed] at left
  have kept := List.find?_some left
  exact of_decide_eq_true kept

theorem endsAt_cases {here : Point × State} {success : Bool} {final : State}
    (ends : EndsAt config world here success final) :
    (∃ plan state, here = (.running plan [], state) ∧ success = true ∧
      final = state.log (.planComplete true)) ∨
    (∃ plan executed fault state, here = (.answering plan executed fault, state) ∧ success = false ∧
      final = (state.enter plan executed fault).log (.planComplete false)) := by
  rcases ends with ⟨_, last, stops, rfl⟩
  rcases here with ⟨point, state⟩
  cases point with
  | consulting =>
      have taken := proposed config world state
      rw [show propose config world state = _ from stops] at taken
      cases taken
  | judging retry plan =>
      have taken := settled config retry plan state
      rw [show settle config retry plan state = _ from stops] at taken
      cases taken
  | running plan rest =>
      cases rest with
      | nil =>
          cases stops
          exact Or.inl ⟨plan, last, rfl, rfl, rfl⟩
      | cons node rest =>
          have taken := visited config world plan node rest state
          rw [show visit config world plan node rest state = _ from stops] at taken
          cases taken
  | answering plan executed fault =>
      have taken := answered config state plan executed fault
      rw [show answer config state plan executed fault = _ from stops] at taken
      cases taken with
      | terminal _ => exact Or.inr ⟨plan, executed, fault, state, rfl, rfl, rfl⟩
      | exhausted _ _ _ _ => exact Or.inr ⟨plan, executed, fault, state, rfl, rfl, rfl⟩

theorem agrees_iff_accounted {here : Point × State} {success : Bool} {final : State}
    (ends : EndsAt config world here success final) :
    (firstDeath final.nodesOut = "none" ↔ success = true) ↔ Accounted here := by
  have books := (holds_of_reachable ends.1).books
  have death := firstDeath_eq books (rowed_of_reachable ends.1)
  rcases endsAt_cases ends with ⟨plan, state, rfl, rfl, rfl⟩ |
    ⟨plan, executed, fault, state, rfl, rfl, rfl⟩
  · change (firstDeath state.nodesOut = "none" ↔ true = true) ↔ _
    have among : Among plan [] state := (holds_of_reachable ends.1).2
    rcases among.visited with ⟨first, k, nodes, short, done⟩
    have whole : successes state.trace = (planNodes plan).map PlanNode.id := by
      rw [done, List.take_of_length_le]
      rw [List.length_map, nodes, List.append_nil]
      exact short
    rw [death, Accounted]
    cases left : leftFailed state.trace with
    | none => simp
    | some name =>
        have failed := not_mem_successes_of_leftFailed left
        rw [whole] at failed
        simp only [Option.getD_some, Option.some.injEq, forall_eq', failed, false_or, iff_true]
  · change (firstDeath state.nodesOut = "none" ↔ false = true) ↔ _
    rw [death, Accounted]
    cases left : leftFailed state.trace with
    | none => simp
    | some name => simp

/-- A row that `calibrate` can fold, of a run that is accounted for or of an episode that
nobody could finish. -/
inductive Probed : CalibrationRow → Prop
  | ran {config : Config} {world : World} {here : Point × State} {success : Bool} {final : State}
      (ends : EndsAt config world here success final) (accounted : Accounted here) (seed : Int)
      (graph : List GraphNode) : Probed (probeRow seed graph success final)
  | lost (seed : Int) (reason : String) (named : reason ∈ ["wall_timeout", "worker_died"]) :
      Probed (lostRow seed reason)

theorem Probed.agrees {row : CalibrationRow} (probed : Probed row) :
    row.firstDeath = "none" ↔ row.success = true := by
  cases probed with
  | ran ends accounted seed graph => exact (agrees_iff_accounted ends).mpr accounted
  | lost seed reason named =>
      have other : reason ≠ "none" := by
        intro same
        rw [same] at named
        exact absurd named (by decide)
      exact iff_of_false other Bool.false_ne_true

/-- Exactly the runs that are accounted for have a first death unless they succeed, and a
summary of such rows charges every failure once. -/
theorem first_deaths_account (config : Config) (world : World) :
    (∀ fuel success final, run config world fuel = some (.finished success final) →
      ∃ here, EndsAt config world here success final ∧
        ((firstDeath final.nodesOut = "none" ↔ success = true) ↔ Accounted here)) ∧
    (∀ rows : List CalibrationRow, (∀ row ∈ rows, Probed row) →
      (summarize rows).deaths + (summarize rows).successes = (summarize rows).n ∧
      (attributeDeaths (summarize rows)).governableDeaths +
        (attributeDeaths (summarize rows)).ungovernedDeaths + (summarize rows).successes =
          (summarize rows).n) := by
  constructor
  · intro fuel success final ran
    rcases exists_last_of_run ran with ⟨here, last, reached, stops, same⟩
    cases last with
    | crashed error state => cases same
    | finished success_ state =>
        cases same
        have ends : EndsAt config world here success (state.log (.planComplete success)) :=
          ⟨reached, state, stops, rfl⟩
        exact ⟨here, ends, agrees_iff_accounted ends⟩
  · intro rows probed
    have deaths : (summarize rows).deaths + (summarize rows).successes = (summarize rows).n := by
      rw [deaths_summarize]
      change _ + rows.countP CalibrationRow.success = rows.length
      have failures : rows.countP (fun row => decide (row.firstDeath ≠ "none")) =
          rows.countP (fun row => decide (¬ row.success = true)) := by
        apply List.countP_congr
        intro row member
        rw [decide_eq_true_eq, decide_eq_true_eq, ne_eq, (probed row member).agrees]
      rw [failures, Nat.add_comm]
      exact (List.length_eq_countP_add_countP CalibrationRow.success).symm
    exact ⟨deaths, (charged_attributeDeaths _).symm ▸ deaths⟩

end

section

local instance calibrationHost : Host := asciiHost

def singlePlan (name : String) : Json :=
  .obj [("goal", .str "tidy"),
    ("nodes", .arr [
      .obj [("id", .str name), ("skill", .str name), ("args", .obj []), ("after", .arr [])]]),
    ("verify", .arr [.obj [("after", .str name), ("predicate", .str "held")]])]

def calibrationConfig : Config where
  catalogue := [("reach", []), ("push", [])]
  oracles := ["held"]
  requirements := []
  records := []
  facts := []
  objects := []
  graph := .null
  seed := 0
  maxReplans := 1
  maxActuations := 4
  segmentRetries := 0

def otherNode (brief : Brief) (_record : List Event) : Except PyError Json :=
  .ok (singlePlan (if brief.fault.isSome then "push" else "reach"))

/-- No node is dispatched. -/
def refusingWorld : World where
  plan := otherNode
  handle := fun _ _ _ _ => .error (.valueError "no scene binding")
  cancelled := fun _ => false

/-- `reach` fails, and `push` succeeds unless it is to fail as well. -/
def droppingWorld (pushes : Bool) : World where
  plan := otherNode
  handle := fun _ node _ _ => .ok { success := pushes && decide (node.id = "push") }
  cancelled := fun _ => false

def accountOf : Option Final → Option (Bool × String)
  | some (.finished success final) => some (success, firstDeath final.nodesOut)
  | _ => none

theorem exists_of_accountOf {ran : Option Final} {success : Bool} {death : String}
    (account : accountOf ran = some (success, death)) :
    ∃ final, ran = some (.finished success final) ∧ firstDeath final.nodesOut = death := by
  unfold accountOf at account
  split at account
  · rename_i success_ final
    cases account
    exact ⟨final, rfl, rfl⟩
  · cases account

/-- A run that fails although no node died, with the failure that the summary charges to
nobody, and a run that succeeds although one did. -/
theorem unaccounted_runs :
    (∃ final, run calibrationConfig refusingWorld 20 = some (.finished false final) ∧
      firstDeath final.nodesOut = "none" ∧
      (summarize [probeRow 0 [] false final]).n = 1 ∧
      (summarize [probeRow 0 [] false final]).successes = 0 ∧
      (summarize [probeRow 0 [] false final]).deaths = 0) ∧
    (∃ final, run calibrationConfig (droppingWorld true) 20 = some (.finished true final) ∧
      firstDeath final.nodesOut = "reach") := by
  have refused : accountOf (run calibrationConfig refusingWorld 20) = some (false, "none") := by
    decide +kernel
  have dropped : accountOf (run calibrationConfig (droppingWorld true) 20) = some (true, "reach") := by
    decide +kernel
  rcases exists_of_accountOf refused with ⟨final, ran, death⟩
  refine ⟨⟨final, ran, death, rfl, rfl, ?_⟩, exists_of_accountOf dropped⟩
  have alone : (probeRow 0 [] false final).firstDeath = "none" := death
  rw [deaths_summarize, List.countP_cons_of_neg, List.countP_nil]
  rw [alone]
  exact Bool.false_ne_true

/-- Both nodes of a run fail, and its summary charges the failure to the first. -/
theorem first_deaths_account_dropping : ∃ final,
    run calibrationConfig (droppingWorld false) 20 = some (.finished false final) ∧
    (summarize [probeRow 0 [] false final]).deaths + (summarize [probeRow 0 [] false final]).successes =
      1 := by
  have failed : accountOf (run calibrationConfig (droppingWorld false) 20) = some (false, "reach") := by
    decide +kernel
  rcases exists_of_accountOf failed with ⟨final, ran, death⟩
  rcases first_deaths_account calibrationConfig (droppingWorld false) with ⟨agrees, charges⟩
  rcases agrees 20 false final ran with ⟨here, ends, exact_⟩
  have accounted : Accounted here := by
    apply exact_.mp
    rw [death]
    exact iff_of_false (by decide) Bool.false_ne_true
  have probed : ∀ row ∈ [probeRow 0 [] false final], Probed row := by
    intro row member
    rw [List.mem_singleton.mp member]
    exact .ran ends accounted 0 []
  exact ⟨final, ran, (charges _ probed).1⟩

end

end Scripts
end PhysicalHarness
