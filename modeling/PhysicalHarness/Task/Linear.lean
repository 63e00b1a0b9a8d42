import PhysicalHarness.Task.Carried

namespace PhysicalHarness
namespace Task

open Python Protocol Loop

/-!
# Linear missions

A linear mission surveys, plans, then drives one segment after the other, each followed by
the verify node that depends on it, and reports.
-/

/-- One entry of `_CHAIN`. -/
structure ChainStep where
  segment : String
  segmentSkill : String
  verify : String
  verifySkill : String
  deriving DecidableEq

def chainNode (id skill kind : String) (after : List String) : Json :=
  .obj [("after", .arr (after.map .str)), ("args", .obj []), ("id", .str id), ("kind", .str kind),
    ("skill", .str skill)]

def chainNodes (prev : String) : List ChainStep → List Json
  | [] => [chainNode "report" "report" "decide" [prev]]
  | entry :: rest =>
      chainNode entry.segment entry.segmentSkill "segment" [prev] ::
        chainNode entry.verify entry.verifySkill "verify" [entry.segment] ::
          chainNodes entry.verify rest

/-- An entry of the `verify` list. -/
def chainOracle (after predicate : String) : Json :=
  .obj [("after", .str after), ("predicate", .str predicate)]

/-- `_emit_plan`, for a goal and a chain. -/
def emitChain (goal : String) (steps : List ChainStep) : Json :=
  .obj [("goal", .str goal),
    ("nodes", .arr (chainNode "survey" "survey" "perceive" [] ::
      chainNode "plan" "plan" "decide" ["survey"] :: chainNodes "plan" steps)),
    ("verify", .arr (steps.map (fun entry => chainOracle entry.segment "staged") ++
      [chainOracle "report" "reported"]))]

theorem nodeReads_chainNode (id skill kind : String) (after : List String) :
    NodeReads (chainNode id skill kind after) := by
  have deps : (PlanNode.ofJson (chainNode id skill kind after)).after = after := filterMap_str after
  exact ⟨rfl, rfl, rfl, by rw [deps]; rfl⟩

theorem mem_chainNodes {prev : String} {steps : List ChainStep} {node : Json}
    (mem : node ∈ chainNodes prev steps) :
    ∃ id skill kind after, node = chainNode id skill kind after := by
  induction steps generalizing prev with
  | nil =>
      rw [List.mem_singleton.mp mem]
      exact ⟨_, _, _, _, rfl⟩
  | cons entry rest ih =>
      rcases List.mem_cons.mp mem with rfl | mem
      · exact ⟨_, _, _, _, rfl⟩
      · rcases List.mem_cons.mp mem with rfl | mem
        · exact ⟨_, _, _, _, rfl⟩
        · exact ih mem

theorem listed_emitChain (goal : String) (steps : List ChainStep) : Listed (emitChain goal steps) := by
  refine ⟨rfl, ?_⟩
  intro node mem
  change node ∈ chainNode "survey" "survey" "perceive" [] ::
    chainNode "plan" "plan" "decide" ["survey"] :: chainNodes "plan" steps at mem
  rcases List.mem_cons.mp mem with rfl | mem
  · exact nodeReads_chainNode _ _ _ _
  · rcases List.mem_cons.mp mem with rfl | mem
    · exact nodeReads_chainNode _ _ _ _
    · rcases mem_chainNodes mem with ⟨id, skill, kind, after, rfl⟩
      exact nodeReads_chainNode id skill kind after

/-! ## Where the loop is -/

/-- The brief has no composed graph. -/
def Config.asking (config : Config) : Config := { config with graph := .null }

def Point.plan? : Point → Option Json
  | .consulting => none
  | .judging _ plan => some plan
  | .running plan _ => some plan
  | .answering plan _ _ => some plan

section

variable {plan : Json} {state : State}

theorem raw_of_among {node : PlanNode} {rest : List PlanNode} (among : Among plan (node :: rest) state) :
    ∃ raw ∈ nodesOf plan, PlanNode.ofJson raw = node := by
  rcases among.visited with ⟨first, _, split, _, _⟩
  apply List.mem_map.mp
  change node ∈ planNodes plan
  rw [split]
  exact List.mem_append_right _ (.head _)

theorem listed_of_among {node : PlanNode} {rest : List PlanNode}
    (among : Among plan (node :: rest) state) : node.id ∈ idsOf plan := by
  rcases raw_of_among among with ⟨raw, known, rfl⟩
  exact List.mem_map_of_mem known

theorem finished_of_among (books : Books state) (among : Among plan [] state) {raw : Json}
    (known : raw ∈ nodesOf plan) : state.finished (idOf raw) = true := by
  apply (books.rows (idOf raw)).mpr
  rcases among.visited with ⟨first, k, split, longer, taken⟩
  rw [List.append_nil] at split
  rw [taken, List.take_of_length_le (by rw [List.length_map, split]; exact longer)]
  exact List.mem_map_of_mem (List.mem_map_of_mem known : PlanNode.ofJson raw ∈ planNodes plan)

theorem among_of_run [Host] {config : Config} {world : World} {fuel : Nat}
    (ran : run config world fuel = some (.finished true state)) :
    ∃ plan state, Reachable config world (.running plan [], state) := by
  rcases exists_last_of_run ran with ⟨⟨point, before⟩, last, reached, stops, closed⟩
  cases point with
  | consulting =>
      have taken := proposed config world before
      change propose config world before = _ at stops
      rw [stops] at taken
      cases taken
      cases closed
  | judging retry plan =>
      have taken := settled config retry plan before
      change settle config retry plan before = _ at stops
      rw [stops] at taken
      cases taken
      cases closed
  | running plan rest =>
      cases rest with
      | nil => exact ⟨plan, before, reached⟩
      | cons node rest =>
          have taken := visited config world plan node rest before
          change visit config world plan node rest before = _ at stops
          rw [stops] at taken
          cases taken with
          | unknown due affordable kindless => cases closed
          | crashed error due affordable kind view record called other => cases closed
  | answering plan executed fault =>
      have taken := answered config before plan executed fault
      change answer config before plan executed fault = _ at stops
      rw [stops] at taken
      cases taken with
      | _ => cases closed

end

structure Plays (emitted : Json) (here : Point × State) : Prop where
  pending : ∀ plan, here.2.retryPlan = some plan → plan = emitted
  inPlay : ∀ plan, here.1.plan? = some plan → plan = emitted

section

variable [Host] {config : Config} {world : World}

theorem plays_of_reachable {emitted : Json} {here : Point × State}
    (answers : ∀ brief past plan, world.plan brief past = .ok plan → plan = emitted)
    (reached : Reachable config.asking world here) : Plays emitted here := by
  refine reached.invariant ⟨nofun,
    nofun⟩ ?_
  rintro ⟨point, state⟩ after _ plays stepped
  cases point with
  | consulting =>
      have taken := proposed config.asking world state
      change propose config.asking world state = _ at stepped
      rw [stepped] at taken
      cases taken with
      | again plan pending =>
          refine ⟨nofun, ?_⟩
          rintro _ ⟨⟩
          exact plays.pending plan pending
      | asked plan idle replied =>
          refine ⟨plays.pending, ?_⟩
          rintro _ ⟨⟩
          exact answers _ _ _ replied
  | judging retry plan =>
      have taken := settled config.asking retry plan state
      change settle config.asking retry plan state = _ at stepped
      rw [stepped] at taken
      cases taken with
      | _ => exact ⟨plays.pending, plays.inPlay⟩
  | running plan rest =>
      cases rest with
      | nil => cases stepped
      | cons node rest =>
          have taken := visited config.asking world plan node rest state
          change visit config.asking world plan node rest state = _ at stepped
          rw [stepped] at taken
          cases taken with
          | _ => exact ⟨plays.pending, plays.inPlay⟩
  | answering plan executed fault =>
      have taken := answered config.asking state plan executed fault
      change answer config.asking state plan executed fault = _ at stepped
      rw [stepped] at taken
      cases taken with
      | retried spec goes scanned retries =>
          refine ⟨?_, nofun⟩
          rintro _ ⟨⟩
          exact plays.inPlay plan rfl
      | replanned spec goes scanned stays affordable =>
          exact ⟨plays.pending, nofun⟩

/-- The row is what a handler returned when its node was dispatched. -/
inductive Written (config : Config) (world : World) : String → Entry → Prop
  | returned {plan : Json} {node : PlanNode} {rest : List PlanNode} {state : State} {kind : NodeKind}
      {result : Result} (reached : Reachable config world (.running plan (node :: rest), state))
      (known : NodeKind.ofJson node.kind = some kind)
      (called : world.handle kind node (viewFor node state) (state.trace ++ [.polled false]) = .ok result) :
      Written config world node.id (entryOf result)

theorem rows_of_visit {plan : Json} {node : PlanNode} {rest : List PlanNode} {state : State}
    {next : Point × State} (stepped : visit config world plan node rest state = .again next) :
    next.2.nodesOut = state.nodesOut ∨ ∃ kind result, NodeKind.ofJson node.kind = some kind ∧
      world.handle kind node (viewFor node state) (state.trace ++ [.polled false]) = .ok result ∧
      next.2.nodesOut = state.nodesOut.set node.id (entryOf result) := by
  unfold visit at stepped
  dsimp only at stepped
  cases fired : world.cancelled state.trace with
  | true =>
      rw [if_pos fired] at stepped
      cases stepped
      exact Or.inl rfl
  | false =>
      rw [fired, if_neg Bool.false_ne_true] at stepped
      split at stepped
      · cases stepped
        exact Or.inl rfl
      · split at stepped
        · cases stepped
          exact Or.inl rfl
        · unfold dispatch at stepped
          dsimp only at stepped
          cases known : NodeKind.ofJson node.kind with
          | none =>
              rw [known] at stepped
              cases stepped
          | some kind =>
              rw [known] at stepped
              dsimp only at stepped
              cases called : world.handle kind node (viewFor node (state.log (.polled false)).bill)
                  (state.log (.polled false)).bill.trace with
              | error error =>
                  rw [called] at stepped
                  cases error with
                  | valueError text =>
                      cases stepped
                      exact Or.inl rfl
                  | _ => cases stepped
              | ok result =>
                  rw [called] at stepped
                  dsimp only at stepped
                  refine Or.inr ⟨kind, result, rfl, called, ?_⟩
                  split at stepped
                  · cases stepped
                    rfl
                  · cases stepped
                    rfl

def Sourced (config : Config) (world : World) (here : Point × State) : Prop :=
  ∀ id entry, here.2.nodesOut.get? id = some entry → Written config world id entry

theorem sourced_of_reachable {here : Point × State} (reached : Reachable config world here) :
    Sourced config world here := by
  refine reached.invariant (fun id entry row => by cases row) ?_
  rintro ⟨point, state⟩ after way written stepped id entry row
  cases point with
  | consulting =>
      have taken := proposed config world state
      change propose config world state = _ at stepped
      rw [stepped] at taken
      cases taken with
      | again plan pending => exact written id entry row
      | asked plan idle replied => exact written id entry row
  | judging retry plan =>
      have taken := settled config retry plan state
      change settle config retry plan state = _ at stepped
      rw [stepped] at taken
      cases taken with
      | _ => exact written id entry row
  | running plan rest =>
      cases rest with
      | nil => cases stepped
      | cons node rest =>
          rcases rows_of_visit stepped with same | ⟨kind, result, known, called, same⟩
          · rw [same] at row
            exact written id entry row
          · rw [same, Dict.get?_set] at row
            split at row
            · rename_i here_
              cases row
              rw [← here_]
              exact .returned way known called
            · exact written id entry row
  | answering plan executed fault =>
      have taken := answered config state plan executed fault
      change answer config state plan executed fault = _ at stepped
      rw [stepped] at taken
      cases taken with
      | retried spec goes scanned retries => exact written id entry row
      | replanned spec goes scanned stays affordable => exact written id entry row

end

end Task
end PhysicalHarness
