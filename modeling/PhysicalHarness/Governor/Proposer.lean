import PhysicalHarness.Lib.Fallible
import PhysicalHarness.Python.Arithmetic
import PhysicalHarness.Rsi.Bundle

namespace PhysicalHarness
namespace Governor

open Python Harness Rsi Fallible

/-!
# Proposals

A proposer answers with an object that names a feature, a comparison, a threshold
and a repair.  The answer becomes a rule, or it is refused.
-/

/-- What a proposer returns: JSON text or an object. -/
inductive Payload where
  | text (content : String)
  | value (value : Json)

def toDouble : PyFloat → Double
  | .fin value => Double.nearest value
  | .negZero => Double.negZero
  | .posInf => Double.posInf
  | .negInf => Double.negInf
  | .nan => Double.nan

/-- `type(value).__name__`. -/
def typeName : Json → String
  | .null => "NoneType"
  | .bool _ => "bool"
  | .int _ => "int"
  | .float _ => "float"
  | .str _ => "str"
  | .arr _ => "list"
  | .obj _ => "dict"

/-- `REDUCERS` and the two operators, by name. -/
def readReducer : Json → Option Reducer
  | .str "value" => some .value
  | .str "min" => some .min
  | .str "max" => some .max
  | .str "range" => some .range
  | _ => none

def readOp : Json → Option Op
  | .str "lt" => some .lt
  | .str "gt" => some .gt
  | _ => none

section

variable [Host]

/-- `float(value)`. -/
def pyFloat : Json → Except PyError Double
  | .float value => .ok (toDouble value)
  | .int value => if Double.Overflows value then .error .overflowError else .ok (Double.nearest value)
  | .bool value => .ok (Double.nearest (if value then 1 else 0))
  | .str text =>
      match Host.parseFloat text with
      | some value => .ok (toDouble value)
      | none => .error (.valueError ("could not convert string to float: " ++
          Host.repr (.str text)))
  | _ => .error .typeError

/-- The numbers of a proposal, as they are converted inside the `try`. -/
def proposalNumbers (payload : Json) : Except PyError (Double × Int × Int) := do
  let threshold ← pyFloat (← payload.item "threshold")
  let dwell ← pyInt (← payload.item "dwell")
  let armAfter ← pyInt (← payload.item "arm_after")
  return (threshold, dwell, armAfter)

/-- `except (KeyError, TypeError, ValueError)`; an `OverflowError` passes. -/
def refuseNumbers : PyError → PyError
  | .keyError => .proposerError "threshold/dwell/arm_after missing or non-numeric"
  | .typeError => .proposerError "threshold/dwell/arm_after missing or non-numeric"
  | .valueError text =>
      .proposerError ("threshold/dwell/arm_after missing or non-numeric: " ++ text)
  | other => other

def refuse {α : Type} (refused : Bool) (text : String) (rest : Except PyError α) : Except PyError α :=
  if refused then .error (.proposerError text) else rest

/-- `json.loads` of a text, an object as it is. -/
def decodeProposal : Payload → Except PyError Json
  | .text content =>
      match Host.loads content with
      | some value => .ok value
      | none => .error (.proposerError "proposal is not valid JSON")
  | .value value => .ok value

def proposalFeature (registry : Registry) (payload : Json) : Except PyError (String × Privilege) :=
  let feature := payload.getD "feature" .null
  (hashed feature).bind (fun _ =>
    match (feature.str?).bind (fun name => (registry.privilege? name).map (fun found => (name, found))) with
    | some found => .ok found
    | none => .error (.proposerError ("unknown feature " ++ Host.repr feature ++ "; catalog is " ++
        reprNames (sorted (Assoc.keys registry.features)))))

/-- `parse_proposal`. -/
def parseProposal (registry : Registry) (payload : Payload) (generation : Int)
    (privilegeBudget : Int) (strategies : List String) (recoverySensorSd : Double) (nSteps : Int) :
    Except PyError Rule :=
  (decodeProposal payload).bind (fun payload =>
    refuse (!payload.isMapping) ("proposal must be an object, got " ++ typeName payload) <|
    (proposalFeature registry payload).bind (fun feature =>
      refuse (decide (privilegeBudget < feature.2.cost))
        ("feature " ++ Host.repr (.str feature.1) ++ " costs " ++ toString feature.2.cost ++
          " privilege, budget is " ++ toString privilegeBudget) <|
      match readOp (payload.getD "op" .null) with
      | none => .error (.proposerError ("operator must be 'lt' or 'gt', got " ++
          Host.repr (payload.getD "op" .null)))
      | some op =>
          match readReducer (payload.getD "reducer" (.str "value")) with
          | none => .error (.proposerError ("unknown reducer " ++
              Host.repr (payload.getD "reducer" (.str "value")) ++ "; known: " ++
                reprNames ["value", "min", "max", "range"]))
          | some reducer =>
              ((proposalNumbers payload).mapError refuseNumbers).bind (fun numbers =>
                refuse (!numbers.1.value.isFinite)
                  ("threshold must be finite, got " ++ Host.repr (.float numbers.1.value)) <|
                refuse (decide (numbers.2.1 < 1))
                  ("dwell must be at least 1, got " ++ toString numbers.2.1) <|
                refuse (!decide (0 ≤ numbers.2.2 ∧ numbers.2.2 < nSteps))
                  ("arm_after must lie in [0, " ++ toString nSteps ++ "), got " ++
                    toString numbers.2.2) <|
                let strategy := payload.getD "recovery" (.str "regrasp")
                match strategies.find? (fun name => strategy.eq (.str name)) with
                | none => .error (.proposerError ("unknown recovery " ++ Host.repr strategy ++
                    "; known: " ++ reprNames strategies))
                | some name =>
                    .ok ⟨"g" ++ toString generation,
                      ⟨feature.1, op, numbers.1, numbers.2.1, numbers.2.2, reducer⟩,
                      ⟨name, none, recoverySensorSd, 1⟩⟩)))

/-- What every rule that passes the gate has. -/
structure Admitted (registry : Registry) (privilegeBudget nSteps : Int) (strategies : List String)
    (rule : Rule) : Prop where
  feature : ∃ privilege, registry.privilege? rule.trigger.feature = some privilege ∧
    (privilege.cost : Int) ≤ privilegeBudget
  threshold : rule.trigger.threshold.value.isFinite = true
  dwell : 1 ≤ rule.trigger.dwell
  armAfter : 0 ≤ rule.trigger.armAfter ∧ rule.trigger.armAfter < nSteps
  strategy : rule.recovery.name ∈ strategies
  invocations : rule.recovery.maxInvocations = 1

omit [Host] in
theorem refuse_eq_ok {α : Type} {refused : Bool} {text : String} {rest : Except PyError α} {value : α}
    (passed : refuse refused text rest = .ok value) : refused = false ∧ rest = .ok value := by
  cases refused with
  | true => cases passed
  | false => exact ⟨rfl, passed⟩

theorem registered_of_proposalFeature {registry : Registry} {payload : Json}
    {feature : String × Privilege} (found : proposalFeature registry payload = .ok feature) :
    registry.privilege? feature.1 = some feature.2 := by
  rcases of_bind found with ⟨_, _, later⟩
  split at later
  · rename_i pair read
    cases later
    rcases Option.bind_eq_some_iff.mp read with ⟨name, _, known⟩
    rcases Option.map_eq_some_iff.mp known with ⟨privilege, registered, rfl⟩
    exact registered
  · cases later

theorem admitted_of_parseProposal {registry : Registry} {payload : Payload} {generation : Int}
    {privilegeBudget : Int} {strategies : List String} {recoverySensorSd : Double} {nSteps : Int}
    {rule : Rule} (parsed : parseProposal registry payload generation privilegeBudget strategies
      recoverySensorSd nSteps = .ok rule) :
    Admitted registry privilegeBudget nSteps strategies rule := by
  rcases of_bind parsed with ⟨payload, _, parsed⟩
  rcases of_bind (refuse_eq_ok parsed).2 with ⟨feature, found, parsed⟩
  rcases refuse_eq_ok parsed with ⟨cheap, parsed⟩
  have registered := registered_of_proposalFeature found
  split at parsed
  · cases parsed
  split at parsed
  · cases parsed
  rcases of_bind parsed with ⟨numbers, _, parsed⟩
  rcases refuse_eq_ok parsed with ⟨finite, parsed⟩
  rcases refuse_eq_ok parsed with ⟨dwell, parsed⟩
  rcases refuse_eq_ok parsed with ⟨arm, parsed⟩
  simp only [] at parsed
  split at parsed
  · cases parsed
  rename_i name chosen
  cases parsed
  refine ⟨⟨feature.2, registered, ?_⟩, ?_, ?_, ?_, List.mem_of_find?_eq_some chosen, rfl⟩
  · exact not_lt.mp (of_decide_eq_false cheap)
  · simpa using finite
  · exact not_lt.mp (of_decide_eq_false dwell)
  · simpa using arm

end

end Governor
end PhysicalHarness
