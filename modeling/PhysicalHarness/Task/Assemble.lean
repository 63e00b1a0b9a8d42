import PhysicalHarness.Rsi.Publish

namespace PhysicalHarness
namespace Task

open Python Harness JsonText Fallible Rsi

/-!
# The governance of a task

The mounted records of a task whose held-out judgement was established are turned back
into rules and grown into one bundle, in the order in which the records come.  The rules
are named by their position, and the budgets are the least that admit what they declare.
-/

/-- The record is for this task, and its judgement is `True`. -/
def governs (task : String) (record : Json) : Bool :=
  (record.getD "task" .null).eq (.str task) &&
    (match record.get? "heldout_judgement_established" with
      | some (.bool verdict) => verdict
      | _ => false)

section

variable [Host]

def ruleOfRecord (position : Nat) (record : Json) : Except PyError Rule := do
  let trigger ← record.item "preconditions"
  let recovery ← record.item "recovery"
  ruleFromCanonical (.obj [("rule_id", .str ("g" ++ toString (position + 1))), ("trigger", trigger),
    ("recovery", recovery)])

/-- The rules of the records, from a position on. -/
def rulesOf (position : Nat) : List Json → Except PyError (List Rule)
  | [] => .ok []
  | record :: rest => do
      let rule ← ruleOfRecord position record
      let rules ← rulesOf (position + 1) rest
      return rule :: rules

end

/-- `privilege_cost`; an unknown feature raises `KeyError`. -/
def privilegeCost (registry : Registry) (names : List String) : Except PyError Nat :=
  match registry.privilegeCost names with
  | some cost => .ok cost
  | none => .error .keyError

/-- `max(..., default=0)`. -/
def actionBudgetOf (rules : List Rule) : Nat :=
  (rules.map (fun rule => rule.recovery.perceptPrivilege)).foldl max 0

section

variable [Host] [Sha256] [FloatText]

/-- `assemble_bundle`: the bundle, if a record matches, and the digests of the records. -/
def assembleBundle (installed : Installed) (records : List Json) (task : String) :
    Except PyError (Option Bundle × List String) :=
  let matching := records.filter (governs task)
  if matching.isEmpty then .ok (none, [])
  else do
    let rules ← rulesOf 0 matching
    let criticBudget ← privilegeCost installed.registry
      (sorted (rules.map (fun rule => rule.trigger.feature)).dedup)
    let bundle ← (Bundle.mk [] criticBudget (actionBudgetOf rules) none).appendAll installed.repertoire rules
    return (some bundle, matching.map shaJson)

end

end Task
end PhysicalHarness
