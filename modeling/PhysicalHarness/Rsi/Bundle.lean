import PhysicalHarness.Rsi.Trigger

namespace PhysicalHarness
namespace Rsi

open Python Harness JsonText

/-!
# Rules and bundles

A rule pairs a trigger with a bounded, scripted repair.  A bundle is a chain of
rules that grows by one rule per generation.
-/

/-- A comparison with zero: `value <= 0.0`. -/
def atMostZero (value : Double) : Bool :=
  value.lt (Double.nearest 0) || decide (value.value = .negZero) || decide (value.value = .fin 0)

/-- One resolved step of a repair: a phase, its duration and lateral offsets. -/
structure Step where
  name : String
  duration : Int
  dx : Double
  dy : Double
  deriving DecidableEq

/-- `RecoverySpec`. -/
structure RecoverySpec where
  name : String
  program : Option (List (String × Int))
  sensorSd : Double
  maxInvocations : Int
  deriving DecidableEq

/-- The strategies that the embodiment cards declare, by name. -/
structure Repertoire where
  strategies : List (String × List Step)

/-- `strategy(name).steps`; an unknown name raises `KeyError`. -/
def Repertoire.strategy (repertoire : Repertoire) (name : String) : Except PyError (List Step) :=
  match Assoc.get? repertoire.strategies name with
  | some steps => .ok steps
  | none => .error .keyError

namespace RecoverySpec

/-- A perfect percept is ground truth, so it costs privilege. -/
def perceptPrivilege (recovery : RecoverySpec) : Nat := if atMostZero recovery.sensorSd then 1 else 0

/-- `0.0`. -/
def zero : Double := Double.nearest 0

/-- `steps()`: an explicit program, or the named strategy. -/
def steps (repertoire : Repertoire) (recovery : RecoverySpec) : Except PyError (List Step) :=
  match recovery.program with
  | some program => .ok (program.map (fun phase => ⟨phase.1, phase.2, zero, zero⟩))
  | none => repertoire.strategy recovery.name

end RecoverySpec

/-- One critic-recovery pair. -/
structure Rule where
  ruleId : String
  trigger : Trigger
  recovery : RecoverySpec
  deriving DecidableEq

/-- `declared_privilege`; `none` where the feature is unknown. -/
def Rule.declaredPrivilege (registry : Registry) (rule : Rule) : Option Nat :=
  (registry.privilegeCost [rule.trigger.feature]).map (fun cost =>
    cost + rule.recovery.perceptPrivilege)

def Op.text : Op → String
  | .lt => "lt"
  | .gt => "gt"

def Reducer.text : Reducer → String
  | .value => "value"
  | .min => "min"
  | .max => "max"
  | .range => "range"

/-- `list(step)` of one resolved step. -/
def Step.canonical (step : Step) : Json :=
  .arr [.str step.name, .int step.duration, .float step.dx.value, .float step.dy.value]

def Trigger.canonical (trigger : Trigger) : Json :=
  .obj [("feature", .str trigger.feature), ("op", .str trigger.op.text),
    ("threshold", .float trigger.threshold.round9.value), ("dwell", .int trigger.dwell),
    ("arm_after", .int trigger.armAfter), ("reducer", .str trigger.reducer.text)]

def RecoverySpec.canonical (recovery : RecoverySpec) (steps : List Step) : Json :=
  .obj [("name", .str recovery.name), ("strategy", .str recovery.name),
    ("program", .arr (steps.map Step.canonical)),
    ("sensor_sd", .float recovery.sensorSd.round9.value),
    ("max_invocations", .int recovery.maxInvocations)]

/-- `Rule.canonical()`; the named strategy is resolved to its steps. -/
def Rule.canonical (repertoire : Repertoire) (rule : Rule) : Except PyError Json :=
  (rule.recovery.steps repertoire).map (fun steps =>
    .obj [("rule_id", .str rule.ruleId), ("trigger", rule.trigger.canonical),
      ("recovery", rule.recovery.canonical steps)])

/-- An ordered chain of rules. -/
structure Bundle where
  rules : List Rule
  criticBudget : Int
  actionBudget : Int
  parentSha : Option String

namespace Bundle

/-- Worst-case privilege across the chain. -/
def declaredPrivilege (registry : Registry) (bundle : Bundle) : Option Nat :=
  (bundle.rules.mapM (Rule.declaredPrivilege registry)).map (fun costs => costs.foldl max 0)

def canonical (repertoire : Repertoire) (bundle : Bundle) : Except PyError Json :=
  (bundle.rules.mapM (Rule.canonical repertoire)).map (fun rules =>
    .obj [("rules", .arr rules), ("critic_budget", .int bundle.criticBudget),
      ("action_budget", .int bundle.actionBudget)])

section

variable [Sha256] [FloatText]

/-- `Bundle.sha()`. -/
def sha (repertoire : Repertoire) (bundle : Bundle) : Except PyError String :=
  (bundle.canonical repertoire).map (fun value => Harness.sha (dumps compact (sortKeys value)))

/-- The only sanctioned growth operation. -/
def append (repertoire : Repertoire) (bundle : Bundle) (rule : Rule) : Except PyError Bundle :=
  (bundle.sha repertoire).map (fun parent =>
    ⟨bundle.rules ++ [rule], bundle.criticBudget, bundle.actionBudget, some parent⟩)

/-- The canonical forms of the parent's rules against those of the child; a NaN that was
rounded is another one each time. -/
def assertFrozen (repertoire : Repertoire) : Nat → List (Rule × Rule) → Except PyError Unit
  | _, [] => .ok ()
  | position, (rule, kept) :: rest => do
      let before ← rule.canonical repertoire
      let after ← kept.canonical repertoire
      if before.eq after && decide (rule.trigger.threshold.value ≠ .nan) &&
          decide (rule.recovery.sensorSd.value ≠ .nan) then
        assertFrozen repertoire (position + 1) rest
      else
        .error (.valueError ("parent rule " ++ toString position ++ " (" ++ rule.ruleId ++
          ") was modified; parents are frozen"))

/-- `assert_atomic_child_of`. -/
def assertAtomicChildOf (repertoire : Repertoire) (child parent : Bundle) : Except PyError Unit := do
  if child.rules.length ≠ parent.rules.length + 1 then
    .error (.valueError ("generation must append exactly one rule: parent has " ++
      toString parent.rules.length ++ ", child has " ++ toString child.rules.length))
  else
    assertFrozen repertoire 0 (parent.rules.zip child.rules)
    let parentSha ← parent.sha repertoire
    if child.parentSha ≠ some parentSha then
      .error (.valueError "child does not record its parent's hash")
    else .ok ()

/-- One `append` after another. -/
def appendAll (repertoire : Repertoire) (bundle : Bundle) : List Rule → Except PyError Bundle
  | [] => .ok bundle
  | rule :: rest => (bundle.append repertoire rule).bind (fun child => child.appendAll repertoire rest)

theorem rules_of_appendAll {repertoire : Repertoire} {bundle grown : Bundle} {rules : List Rule}
    (done : bundle.appendAll repertoire rules = .ok grown) :
    grown.rules = bundle.rules ++ rules ∧ grown.criticBudget = bundle.criticBudget ∧
      grown.actionBudget = bundle.actionBudget := by
  induction rules generalizing bundle with
  | nil =>
      cases done
      exact ⟨(List.append_nil _).symm, rfl, rfl⟩
  | cons rule rest ih =>
      rw [appendAll, append] at done
      cases named : bundle.sha repertoire with
      | error raised =>
          rw [named] at done
          cases done
      | ok parent =>
          rw [named] at done
          rcases ih done with ⟨rules, critic, action⟩
          refine ⟨?_, critic, action⟩
          rw [rules, List.append_assoc]
          rfl

end

end Bundle

end Rsi
end PhysicalHarness
