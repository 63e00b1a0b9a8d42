import PhysicalHarness.Rsi.Gate
import PhysicalHarness.Rsi.Preregistration

namespace PhysicalHarness
namespace Rsi

open Python Harness JsonText Fallible

/-!
# Stage attribution

Where the residual failures of a generation land: every episode is counted under the
furthest stage it reached, and a failed one under the first stage that did not hold.
-/

def counters {α : Type} (names : List String) (zero : α) : List (String × α) :=
  names.foldl (fun table name => Assoc.set table name zero) []

/-- `table[name] += …`; a name that the table lacks raises `KeyError`. -/
def bump {α : Type} (table : List (String × α)) (name : String) (change : α → α) :
    Except PyError (List (String × α)) :=
  match Assoc.get? table name with
  | some count => .ok (Assoc.set table name (change count))
  | none => .error .keyError

structure StageCount where
  reached : Nat
  success : Nat

structure FurthestCount where
  episodes : Nat
  terminalSuccess : Nat

structure StageTable where
  perStage : List (String × StageCount)
  furthest : List (String × FurthestCount)
  firstFailure : List (String × Nat)

/-- The table before any episode. -/
def StageTable.fresh (names : List String) : StageTable where
  perStage := counters names ⟨0, 0⟩
  furthest := counters (names ++ ["(none)"]) ⟨0, 0⟩
  firstFailure := counters (names ++ ["(terminal)"]) 0

def countStage (state : StageTable × String) (stage : StageResult) :
    Except PyError (StageTable × String) := do
  let reached ←
    if stage.reached then
      bump state.1.perStage stage.name (fun count => { count with reached := count.reached + 1 })
    else .ok state.1.perStage
  let scored ←
    if stage.success then
      bump reached stage.name (fun count => { count with success := count.success + 1 })
    else .ok reached
  return ({ state.1 with perStage := scored }, if stage.reached then stage.name else state.2)

def firstFailed (stages : List StageResult) : String :=
  ((stages.find? (fun stage => !stage.success)).map StageResult.name).getD "(terminal)"

def countEpisode (table : StageTable) (result : RolloutResult) : Except PyError StageTable := do
  match result.stages with
  | none => throw .keyError
  | some stages =>
      let counted ← stages.foldlM countStage (table, "(none)")
      let furthest ← bump counted.1.furthest counted.2 (fun count =>
        ⟨count.episodes + 1, count.terminalSuccess + result.success.toNat⟩)
      let firstFailure ←
        if result.success then .ok counted.1.firstFailure
        else bump counted.1.firstFailure (firstFailed stages) (· + 1)
      return { counted.1 with furthest, firstFailure }

structure StageAttribution where
  n : Nat
  successes : Nat
  stageOrder : List String
  table : StageTable

/-- `stage_attribution`; results without stages have none. -/
def stageAttribution (results : List RolloutResult) : Except PyError (Option StageAttribution) :=
  match results.head?.bind RolloutResult.stages with
  | none => .ok none
  | some stages => do
      let names := stages.map StageResult.name
      let table ← results.foldlM countEpisode (StageTable.fresh names)
      return some ⟨results.length, results.countP RolloutResult.success, names, table⟩

def countsJson {α : Type} (encode : α → Json) (table : List (String × α)) : Json :=
  .obj (table.map (fun entry => (entry.1, encode entry.2)))

def StageCount.json (count : StageCount) : Json :=
  .obj [("reached", .int count.reached), ("success", .int count.success)]

def FurthestCount.json (count : FurthestCount) : Json :=
  .obj [("episodes", .int count.episodes), ("terminal_success", .int count.terminalSuccess)]

def countJson (count : Nat) : Json := .int count

def StageAttribution.json (attribution : StageAttribution) : Json :=
  .obj [("n", .int attribution.n), ("successes", .int attribution.successes),
    ("stage_order", namesJson attribution.stageOrder),
    ("per_stage", countsJson StageCount.json attribution.table.perStage),
    ("furthest", countsJson FurthestCount.json attribution.table.furthest),
    ("first_failure", countsJson countJson attribution.table.firstFailure)]

end Rsi
end PhysicalHarness
