import PhysicalHarness.Governor.Proposer
import PhysicalHarness.Python.Decimal

namespace PhysicalHarness
namespace Rsi

open Python Harness JsonText Fallible Rounding

/-!
# Rebuilding a rule

A sealed rule is stored in its canonical form: numbers rounded to nine decimals and
the strategy resolved to its steps.  `rule_from_canonical` turns the stored form back
into a rule.  The form survives; what the rounding took does not.
-/

/-! ## Reading the canonical form -/

def number (value : Json) : Except PyError Double :=
  match value with
  | .float value => .ok (Governor.toDouble value)
  | _ => .error .typeError

def integer (value : Json) : Except PyError Int :=
  match value with
  | .int value => .ok value
  | _ => .error .typeError

/-- The two operators; `Trigger` refuses another text. -/
def opOf (value : Json) : Except PyError Op :=
  match Governor.readOp value with
  | some op => .ok op
  | none => .error (.valueError "unknown operator")

def reducerOf (value : Json) : Except PyError Reducer :=
  match Governor.readReducer value with
  | some reducer => .ok reducer
  | none => .error (.valueError "unknown reducer")

/-- One `(name, dur, dx, dy)` of a program; any other number of items does not unpack. -/
def unpackStep (value : Json) : Except PyError (Json × Json × Json × Json) :=
  value.iter.bind (fun items =>
    match items with
    | [name, duration, dx, dy] => .ok (name, duration, dx, dy)
    | _ => .error (.valueError "not four values to unpack"))

/-- `any(dx or dy for …)`, which stops at the first offset. -/
def anyShifted : List Json → Except PyError Bool
  | [] => .ok false
  | item :: rest =>
      (unpackStep item).bind (fun step =>
        if step.2.2.1.truthy || step.2.2.2.truthy then .ok true else anyShifted rest)

section

variable [Host]

def phaseOf (item : Json) : Except PyError (String × Int) :=
  (unpackStep item).bind (fun step =>
    step.1.text.bind (fun name => (pyInt step.2.1).map (fun duration => (name, duration))))

/-- An explicit program; the explicit form carries no offsets, so that a program with
some is left to the named strategy. -/
def readProgram (items : List Json) : Except PyError (Option (List (String × Int))) :=
  (anyShifted items).bind (fun shifted =>
    if shifted then .ok none else (items.mapM phaseOf).map some)

def readTrigger (value : Json) : Except PyError Trigger := do
  let feature ← (← value.item "feature").text
  let op ← opOf (← value.item "op")
  let threshold ← number (← value.item "threshold")
  let dwell ← integer (← value.item "dwell")
  let armAfter ← integer (← value.item "arm_after")
  let reducer ← reducerOf (← value.item "reducer")
  return ⟨feature, op, threshold, dwell, armAfter, reducer⟩

def readRecovery (value : Json) (program : Option (List (String × Int))) :
    Except PyError RecoverySpec := do
  let name ← (← value.item "name").text
  let sensorSd ← number (← value.item "sensor_sd")
  let maxInvocations ← integer (← value.item "max_invocations")
  return ⟨name, program, sensorSd, maxInvocations⟩

/-- `rule_from_canonical`. -/
def ruleFromCanonical (payload : Json) : Except PyError Rule := do
  let trigger ← payload.item "trigger"
  let recovery ← payload.item "recovery"
  let program ← readProgram (← (← recovery.item "program").iter)
  let ruleId ← (← payload.item "rule_id").text
  return ⟨ruleId, ← readTrigger trigger, ← readRecovery recovery program⟩

end

/-! ## The round trip -/

theorem toDouble_value (value : Double) : Governor.toDouble value.value = value := by
  rcases value with ⟨value | _ | _ | _ | _, double⟩
  · exact Double.ext (congrArg PyFloat.fin double)
  all_goals rfl

def Step.shifted (step : Step) : Bool :=
  (Json.float step.dx.value).truthy || (Json.float step.dy.value).truthy

def programOf (steps : List Step) : Option (List (String × Int)) :=
  if steps.any Step.shifted then none else some (steps.map (fun step => (step.name, step.duration)))

/-- The rule that a stored one comes back as. -/
def Rule.reloaded (rule : Rule) (steps : List Step) : Rule :=
  { rule with
    trigger := { rule.trigger with threshold := rule.trigger.threshold.round9 }
    recovery := { rule.recovery with
      program := programOf steps
      sensorSd := rule.recovery.sensorSd.round9 } }

/-- The canonical form over resolved steps. -/
def Rule.form (rule : Rule) (steps : List Step) : Json :=
  .obj [("rule_id", .str rule.ruleId), ("trigger", rule.trigger.canonical),
    ("recovery", rule.recovery.canonical steps)]

variable {repertoire : Repertoire} {value : Double} {steps : List Step}

theorem canonical_eq {rule : Rule} (resolved : rule.recovery.steps repertoire = .ok steps) :
    rule.canonical repertoire = .ok (rule.form steps) := by
  rw [Rule.canonical, resolved]
  rfl

def Rule.sortedForm (rule : Rule) (steps : List Step) : Json :=
  .obj [("recovery", .obj [("max_invocations", .int rule.recovery.maxInvocations),
      ("name", .str rule.recovery.name), ("program", .arr (steps.map Step.canonical)),
      ("sensor_sd", .float rule.recovery.sensorSd.round9.value), ("strategy", .str rule.recovery.name)]),
    ("rule_id", .str rule.ruleId),
    ("trigger", .obj [("arm_after", .int rule.trigger.armAfter), ("dwell", .int rule.trigger.dwell),
      ("feature", .str rule.trigger.feature), ("op", .str rule.trigger.op.text),
      ("reducer", .str rule.trigger.reducer.text),
      ("threshold", .float rule.trigger.threshold.round9.value)])]

theorem sortItems_steps (steps : List Step) :
    sortItems (steps.map Step.canonical) = steps.map Step.canonical := by
  induction steps with
  | nil => rfl
  | cons step rest ih =>
      rw [List.map_cons, sortItems, ih]
      rfl

theorem sortKeys_form (rule : Rule) (steps : List Step) :
    sortKeys (rule.form steps) = rule.sortedForm steps := by
  simp [Rule.form, Rule.sortedForm, Trigger.canonical, RecoverySpec.canonical, sortKeys, sortValues,
    sortFields, List.insertionSort, List.orderedInsert, sortItems_steps]

theorem unpackStep_canonical (step : Step) : unpackStep step.canonical =
    .ok (.str step.name, .int step.duration, .float step.dx.value, .float step.dy.value) := rfl

theorem anyShifted_canonical (steps : List Step) :
    anyShifted (steps.map Step.canonical) = .ok (steps.any Step.shifted) := by
  induction steps with
  | nil => rfl
  | cons step rest ih =>
      rw [List.map_cons, anyShifted, unpackStep_canonical, List.any_cons]
      change (if step.shifted = true then _ else _) = _
      by_cases shifted : step.shifted = true
      · rw [if_pos shifted, shifted]
        rfl
      · rw [if_neg shifted, Bool.eq_false_of_not_eq_true shifted]
        exact ih

theorem opOf_text (op : Op) : opOf (.str op.text) = .ok op := by
  cases op <;> rfl

theorem reducerOf_text (reducer : Reducer) : reducerOf (.str reducer.text) = .ok reducer := by
  cases reducer <;> rfl

section

variable [Host]

theorem readProgram_canonical (steps : List Step) :
    readProgram (steps.map Step.canonical) = .ok (programOf steps) := by
  have phases : (steps.map Step.canonical).mapM phaseOf =
      .ok (steps.map (fun step => (step.name, step.duration))) := by
    rw [mapM_eq_ok_iff, List.forall₂_map_left_iff, List.forall₂_map_right_iff, List.forall₂_same]
    intro step _
    rfl
  rw [readProgram, anyShifted_canonical, programOf, phases]
  cases steps.any Step.shifted <;> rfl

def Trigger.sortedForm (trigger : Trigger) : Json :=
  .obj [("arm_after", .int trigger.armAfter), ("dwell", .int trigger.dwell),
    ("feature", .str trigger.feature), ("op", .str trigger.op.text),
    ("reducer", .str trigger.reducer.text), ("threshold", .float trigger.threshold.round9.value)]

omit [Host] in
theorem readTrigger_sortedForm (trigger : Trigger) : readTrigger trigger.sortedForm =
    .ok { trigger with threshold := trigger.threshold.round9 } := by
  have op : opOf (.str trigger.op.text) = .ok trigger.op := opOf_text trigger.op
  have reducer : reducerOf (.str trigger.reducer.text) = .ok trigger.reducer :=
    reducerOf_text trigger.reducer
  have threshold : number (.float trigger.threshold.round9.value) = .ok trigger.threshold.round9 :=
    congrArg Except.ok (toDouble_value _)
  change (opOf (.str trigger.op.text)).bind (fun op =>
    (number (.float trigger.threshold.round9.value)).bind (fun threshold =>
      (reducerOf (.str trigger.reducer.text)).bind (fun reducer =>
        .ok (Trigger.mk trigger.feature op threshold trigger.dwell trigger.armAfter reducer)))) = _
  rw [op, threshold, reducer]
  rfl

theorem ruleFromCanonical_sortedForm (rule : Rule) (steps : List Step) :
    ruleFromCanonical (rule.sortedForm steps) = .ok (rule.reloaded steps) := by
  have sensorSd : number (.float rule.recovery.sensorSd.round9.value) =
      .ok rule.recovery.sensorSd.round9 := congrArg Except.ok (toDouble_value _)
  change (readProgram (steps.map Step.canonical)).bind (fun program =>
    (readTrigger rule.trigger.sortedForm).bind (fun trigger =>
      ((number (.float rule.recovery.sensorSd.round9.value)).bind (fun sensorSd =>
        .ok (RecoverySpec.mk rule.recovery.name program sensorSd rule.recovery.maxInvocations))).bind
          (fun recovery => .ok (Rule.mk rule.ruleId trigger recovery)))) = _
  rw [readProgram_canonical, readTrigger_sortedForm, sensorSd]
  rfl

end

section

variable [FloatText]

/-- `json.loads(json.dumps(value, sort_keys=True))`. -/
def roundTrip (style : Style) (value : Json) : Option Json := loads (print style 0 (sortKeys value))

omit [FloatText] in
theorem throughout_steps {keys : List String → Prop} (steps : List Step) :
    ThroughoutItems PyFloat.IsDouble keys (steps.map Step.canonical) := by
  induction steps with
  | nil => trivial
  | cons step rest ih =>
      exact ⟨⟨trivial, trivial, step.dx.double, step.dy.double, trivial⟩, ih⟩

omit [FloatText] in
theorem proper_sortedForm (rule : Rule) (steps : List Step) : Proper (rule.sortedForm steps) :=
  ⟨trivial, ⟨trivial, trivial, trivial, throughout_steps steps, rule.recovery.sensorSd.round9.double,
    trivial, trivial⟩, trivial, ⟨trivial, trivial, trivial, trivial, trivial, trivial,
      rule.trigger.threshold.round9.double, trivial⟩, trivial⟩

omit [FloatText] in
theorem distinct_sortedForm (rule : Rule) (steps : List Step) : Distinct (rule.sortedForm steps) := by
  have items : ThroughoutItems (fun _ => True) List.Nodup (steps.map Step.canonical) :=
    ThroughoutItems.mono (fun _ _ => trivial) (fun _ holds => holds) _ (throughout_steps steps)
  have outer : ["recovery", "rule_id", "trigger"].Nodup := by decide
  have recovery : ["max_invocations", "name", "program", "sensor_sd", "strategy"].Nodup := by decide
  have trigger : ["arm_after", "dwell", "feature", "op", "reducer", "threshold"].Nodup := by decide
  exact ⟨outer, ⟨recovery, trivial, trivial, items, trivial, trivial, trivial⟩, trivial,
    ⟨trigger, trivial, trivial, trivial, trivial, trivial, trivial, trivial⟩, trivial⟩

theorem roundTrip_form (style : Style) (rule : Rule) (steps : List Step) :
    roundTrip style (rule.form steps) = some (rule.sortedForm steps) := by
  rw [roundTrip, sortKeys_form, loads_print style (proper_sortedForm rule steps),
    rebuild_gather_of_distinct _ (distinct_sortedForm rule steps)]

end

/-! ## What the rounding takes -/

theorem value_of_finite (finite : value.value.isFinite = true) :
    ∃ number, value.value.toRat? = some number := by
  rcases value with ⟨value | _ | _ | _ | _, double⟩
  · exact ⟨value, rfl⟩
  · exact ⟨0, rfl⟩
  all_goals cases finite

theorem lt_of_toRat {left right : Double} {first second : ℚ} (left_ : left.value.toRat? = some first)
    (right_ : right.value.toRat? = some second) : left.lt right = decide (first < second) := by
  rcases left with ⟨left | _ | _ | _ | _, double⟩ <;> rcases right with ⟨right | _ | _ | _ | _, double_⟩ <;>
    cases left_ <;> cases right_ <;> rfl

theorem isFinite_round9 (value : Double) : value.round9.value.isFinite = value.value.isFinite := by
  rcases value with ⟨value | _ | _ | _ | _, double⟩
  · change (Double.rounded value).value.isFinite = true
    rw [Double.rounded]
    split <;> rfl
  all_goals rfl

theorem round9_eq_of_toRat (finite : value.value.isFinite = true)
    (same : value.round9.value.toRat? = value.value.toRat?) : value.round9 = value := by
  rcases value with ⟨value | _ | _ | _ | _, double⟩
  · change (Double.rounded value).value.toRat? = some value at same
    change Double.rounded value = _
    rw [Double.rounded] at same ⊢
    split at same
    · rename_i negative
      cases same
      exact absurd negative.2 (lt_irrefl 0)
    · rename_i kept
      rw [if_neg kept]
      exact Double.ext (congrArg PyFloat.fin (Option.some.inj same))
  all_goals rfl

theorem eq_of_lt_agree {left right : Double} {first second : ℚ}
    (left_ : left.value.toRat? = some first) (right_ : right.value.toRat? = some second)
    (agree : (∀ value : Double, value.lt left = value.lt right) ∨
      ∀ value : Double, left.lt value = right.lt value) : first = second := by
  have apart : ∀ value other : ℚ, decide (value < value) = decide (value < other) → ¬ value < other := by
    intro value other same less
    rw [decide_eq_false (lt_irrefl value), decide_eq_true less] at same
    cases same
  rcases agree with below | above
  · have at_left := below left
    have at_right := below right
    rw [lt_of_toRat left_ left_, lt_of_toRat left_ right_] at at_left
    rw [lt_of_toRat right_ left_, lt_of_toRat right_ right_] at at_right
    exact le_antisymm (not_lt.mp (apart second first at_right.symm)) (not_lt.mp (apart first second at_left))
  · have at_left := above left
    have at_right := above right
    rw [lt_of_toRat left_ left_, lt_of_toRat right_ left_] at at_left
    rw [lt_of_toRat left_ right_, lt_of_toRat right_ right_] at at_right
    have apart_ : ∀ value other : ℚ, decide (value < value) = decide (other < value) →
        ¬ other < value := by
      intro value other same less
      rw [decide_eq_false (lt_irrefl value), decide_eq_true less] at same
      cases same
    exact le_antisymm (not_lt.mp (apart_ first second at_left))
      (not_lt.mp (apart_ second first at_right.symm))

theorem crosses_round9_iff (trigger : Trigger) :
    (∀ value, ({ trigger with threshold := trigger.threshold.round9 } : Trigger).crosses value =
      trigger.crosses value) ↔ trigger.threshold.round9 = trigger.threshold := by
  constructor
  · intro agree
    by_cases finite : trigger.threshold.value.isFinite = true
    · rcases value_of_finite finite with ⟨number, plain⟩
      rcases value_of_finite ((isFinite_round9 trigger.threshold).trans finite) with ⟨other, rounded⟩
      apply round9_eq_of_toRat finite
      rw [plain, rounded]
      refine congrArg some (eq_of_lt_agree rounded plain ?_)
      cases op : trigger.op with
      | lt =>
          refine Or.inl (fun value => ?_)
          have here := agree value
          rw [Trigger.crosses, Trigger.crosses, op] at here
          exact here
      | gt =>
          refine Or.inr (fun value => ?_)
          have here := agree value
          rw [Trigger.crosses, Trigger.crosses, op] at here
          exact here
    · rcases trigger with ⟨feature, op, ⟨value | _ | _ | _ | _, double⟩, dwell, armAfter, reducer⟩
      all_goals first | rfl | exact absurd (rfl : true = true) finite
  · intro same value
    rw [same]

def Tiny (value : Double) : Prop :=
  ∃ number, value.value = .fin number ∧ 0 < number ∧ number ≤ 1 / (2 * 10 ^ 9)

theorem toRat_nearest (value : ℚ) :
    (Double.nearest value).value.toRat? = some (binary 52 (-1074) value) := rfl

theorem atMostZero_of_toRat {number : ℚ} (plain : value.value.toRat? = some number) :
    atMostZero value = decide (number ≤ 0) := by
  have zero : (Double.nearest 0).value.toRat? = some 0 := congrArg some Double.binary_zero
  rw [atMostZero, lt_of_toRat plain zero]
  rcases value with ⟨value | _ | _ | _ | _, double⟩ <;> cases plain
  · simp [le_iff_lt_or_eq]
  · rfl

theorem toRat_rounded_of_nonpos {number : ℚ} (nonpos : number ≤ 0) :
    ∃ other, (Double.rounded number).value.toRat? = some other ∧ other ≤ 0 := by
  rw [Double.rounded]
  split
  · exact ⟨0, rfl, le_refl 0⟩
  · refine ⟨_, rfl, binary_nonpos ?_⟩
    have whole : even (number / (1 / 10 ^ 9)) ≤ 0 :=
      even_nonpos (div_nonpos_of_nonpos_of_nonneg nonpos (by norm_num))
    exact mul_nonpos_of_nonpos_of_nonneg (by exact_mod_cast whole) (by norm_num)

theorem binary_toUnit_pos {number : ℚ} (positive : 0 < number) (large : 1 / (2 * 10 ^ 9) < number) :
    0 < binary 52 (-1074) (toUnit (1 / 10 ^ 9) number) := by
  have whole : 1 ≤ even (number / (1 / 10 ^ 9)) := by
    have nonneg : 0 ≤ number / (1 / 10 ^ 9) := div_nonneg positive.le (by norm_num)
    have nonzero : even (number / (1 / 10 ^ 9)) ≠ 0 := by
      intro zero
      have small := (even_eq_zero_iff nonneg).mp zero
      rw [div_le_iff₀ (by norm_num)] at small
      linarith
    have above := even_nonneg nonneg
    omega
  have unit : (1 / 2 ^ 30 : ℚ) ≤ toUnit (1 / 10 ^ 9) number := by
    have cast : (1 : ℚ) ≤ even (number / (1 / 10 ^ 9)) := by exact_mod_cast whole
    rw [toUnit]
    linarith
  have short : Short 52 (-1074) (1 / 2 ^ 30) := by decide +kernel
  exact lt_of_lt_of_le (by norm_num) (le_binary short unit)

theorem atMostZero_round9_iff (value : Double) :
    atMostZero value.round9 = atMostZero value ↔ ¬ Tiny value := by
  rcases value with ⟨number | _ | _ | _ | _, double⟩
  · have plain : atMostZero ⟨.fin number, double⟩ = decide (number ≤ 0) := atMostZero_of_toRat rfl
    change atMostZero (Double.rounded number) = _ ↔ _
    rw [plain]
    rcases le_or_gt number 0 with nonpos | positive
    · rcases toRat_rounded_of_nonpos nonpos with ⟨other, rounded, nonpos_⟩
      rw [atMostZero_of_toRat rounded, decide_eq_true nonpos, decide_eq_true nonpos_]
      refine ⟨fun _ => ?_, fun _ => rfl⟩
      rintro ⟨same, named, positive, _⟩
      cases named
      exact absurd positive (not_lt.mpr nonpos)
    · have kept : Double.rounded number = Double.nearest (toUnit (1 / 10 ^ 9) number) :=
        if_neg (fun negative => absurd negative.2 (not_lt.mpr positive.le))
      rw [kept, atMostZero_of_toRat (toRat_nearest _), decide_eq_false (not_le.mpr positive)]
      by_cases small : number ≤ 1 / (2 * 10 ^ 9)
      · have zero : toUnit (1 / 10 ^ 9) number = 0 := by
          have none_ : even (number / (1 / 10 ^ 9)) = 0 := by
            rw [even_eq_zero_iff (div_nonneg positive.le (by norm_num)), div_le_iff₀ (by norm_num)]
            linarith
          rw [toUnit, none_, Int.cast_zero, zero_mul]
        rw [zero, Double.binary_zero]
        refine ⟨fun same => ?_, fun large => absurd ⟨number, rfl, positive, small⟩ large⟩
        rw [decide_eq_true (le_refl (0 : ℚ))] at same
        cases same
      · have above := binary_toUnit_pos positive (not_le.mp small)
        rw [decide_eq_false (not_le.mpr above)]
        refine ⟨fun _ => ?_, fun _ => rfl⟩
        rintro ⟨same, named, _, small_⟩
        cases named
        exact small small_
  all_goals
    refine ⟨fun _ => ?_, fun _ => rfl⟩
    rintro ⟨number, named, _⟩
    cases named

/-- Some offset counts, or none is written as a negative zero. -/
def PlainOffsets (steps : List Step) : Prop :=
  steps.any Step.shifted = true ∨
    ∀ step ∈ steps, step.dx.value ≠ .negZero ∧ step.dy.value ≠ .negZero

theorem zero_of_not_truthy (still : (Json.float value.value).truthy = false) :
    value.value = .fin 0 ∨ value.value = .negZero := by
  by_contra other
  rw [not_or] at other
  rw [Json.truthy, decide_eq_true other] at still
  cases still

theorem value_zero : RecoverySpec.zero.value = .fin 0 := congrArg PyFloat.fin Double.binary_zero

def Step.explicit (step : Step) : Step := ⟨step.name, step.duration, RecoverySpec.zero, RecoverySpec.zero⟩

theorem explicit_canonical_iff {step : Step} (still : step.shifted = false) :
    step.explicit.canonical = step.canonical ↔
      step.dx.value ≠ .negZero ∧ step.dy.value ≠ .negZero := by
  rw [Step.shifted, Bool.or_eq_false_iff] at still
  have dx := zero_of_not_truthy still.1
  have dy := zero_of_not_truthy still.2
  rw [Step.explicit, Step.canonical, Step.canonical, value_zero]
  constructor
  · intro same
    have items := List.cons.inj (List.cons.inj (List.cons.inj (Json.arr.inj same)).2).2
    have last := List.cons.inj items.2
    rw [← Json.float.inj items.1, ← Json.float.inj last.1]
    exact ⟨PyFloat.noConfusion, PyFloat.noConfusion⟩
  · intro plain
    rw [dx.resolve_right plain.1, dy.resolve_right plain.2]

theorem steps_reloaded {rule : Rule} (resolved : rule.recovery.steps repertoire = .ok steps) :
    (rule.reloaded steps).recovery.steps repertoire =
      .ok (if steps.any Step.shifted then steps else steps.map Step.explicit) := by
  have stored : (rule.reloaded steps).recovery.program = programOf steps := rfl
  have named : (rule.reloaded steps).recovery.name = rule.recovery.name := rfl
  rw [RecoverySpec.steps, stored, named, programOf]
  by_cases shifted : steps.any Step.shifted = true
  · rw [if_pos shifted, if_pos shifted]
    rw [RecoverySpec.steps] at resolved
    cases program : rule.recovery.program with
    | none =>
        rw [program] at resolved
        exact resolved
    | some phases =>
        -- an explicit program has no offsets
        rw [program] at resolved
        cases resolved
        rw [List.any_map, List.any_eq_true] at shifted
        rcases shifted with ⟨phase, _, never⟩
        have still : (Json.float RecoverySpec.zero.value).truthy = false := by
          rw [value_zero]
          rfl
        rw [Function.comp, Step.shifted, still] at never
        cases never
  · rw [if_neg shifted, if_neg shifted]
    change Except.ok ((steps.map _).map _) = _
    rw [List.map_map]
    rfl

theorem canonical_reloaded_iff {rule : Rule}
    (resolved : rule.recovery.steps repertoire = .ok steps) :
    (rule.reloaded steps).canonical repertoire = .ok (rule.form steps) ↔ PlainOffsets steps := by
  have form : ∀ others, (rule.reloaded steps).form others = rule.form others := by
    intro others
    rw [Rule.form, Rule.form, Rule.reloaded, Trigger.canonical, Trigger.canonical,
      RecoverySpec.canonical, RecoverySpec.canonical]
    simp only [Double.round9_round9]
  rw [canonical_eq (steps_reloaded resolved), form]
  by_cases shifted : steps.any Step.shifted = true
  · rw [if_pos shifted]
    exact ⟨fun _ => Or.inl shifted, fun _ => rfl⟩
  · rw [if_neg shifted]
    have still : ∀ step ∈ steps, step.shifted = false := by
      intro step mem
      by_contra counts
      exact shifted (List.any_eq_true.mpr ⟨step, mem, Bool.eq_true_of_not_eq_false counts⟩)
    have programs : rule.form (steps.map Step.explicit) = rule.form steps ↔
        (steps.map Step.explicit).map Step.canonical = steps.map Step.canonical := by
      constructor
      · intro same
        have fields := Json.obj.inj same
        have recovery := (List.cons.inj (List.cons.inj fields).2).2
        have inner := Json.obj.inj (Prod.mk.inj (List.cons.inj recovery).1).2
        have program := (List.cons.inj (List.cons.inj (List.cons.inj inner).2).2).1
        exact Json.arr.inj (Prod.mk.inj program).2
      · intro same
        rw [Rule.form, Rule.form, RecoverySpec.canonical, RecoverySpec.canonical, same]
    rw [Except.ok.injEq, programs, List.map_map, List.map_inj_left]
    constructor
    · intro same
      exact Or.inr (fun step mem => (explicit_canonical_iff (still step mem)).mp (same step mem))
    · intro plain step mem
      exact (explicit_canonical_iff (still step mem)).mpr (plain.resolve_left shifted step mem)

/-- The numbers of the rule are those of its canonical form. -/
def KeepsNumbers (rule : Rule) : Prop :=
  rule.trigger.threshold.round9 = rule.trigger.threshold ∧ ¬ Tiny rule.recovery.sensorSd

section

variable [Host] [FloatText]

/-- The rule that is rebuilt from the stored form has this form, and behaves as the
rule that was sealed. -/
def Reproduces (style : Style) (repertoire : Repertoire) (rule : Rule) : Prop :=
  ∃ form reread rebuilt, rule.canonical repertoire = .ok form ∧ roundTrip style form = some reread ∧
    ruleFromCanonical reread = .ok rebuilt ∧ rebuilt.canonical repertoire = .ok form ∧
    (∀ value, rebuilt.trigger.crosses value = rule.trigger.crosses value) ∧
    (∀ series, rebuilt.trigger.fireStep series = rule.trigger.fireStep series) ∧
    rebuilt.recovery.perceptPrivilege = rule.recovery.perceptPrivilege

omit [Host] [FloatText] in
theorem eq_of_canonical {trigger other : Trigger} (same : trigger.canonical = other.canonical)
    (kept : trigger.threshold.round9 = other.threshold.round9 → trigger.threshold = other.threshold) :
    trigger = other := by
  have fields := Json.obj.inj same
  simp only [List.cons.injEq, Prod.mk.injEq, Json.float.injEq, Json.int.injEq, Json.str.injEq,
    true_and] at fields
  rcases fields with ⟨feature, op, threshold, dwell, armAfter, reducer, _⟩
  have op_ : trigger.op = other.op := by
    have read : opOf (.str trigger.op.text) = opOf (.str other.op.text) := by rw [op]
    rw [opOf_text, opOf_text] at read
    exact Except.ok.inj read
  have reducer_ : trigger.reducer = other.reducer := by
    have read : reducerOf (.str trigger.reducer.text) = reducerOf (.str other.reducer.text) := by
      rw [reducer]
    rw [reducerOf_text, reducerOf_text] at read
    exact Except.ok.inj read
  have threshold_ := kept (Double.ext threshold)
  calc trigger = ⟨trigger.feature, trigger.op, trigger.threshold, trigger.dwell, trigger.armAfter,
        trigger.reducer⟩ := rfl
    _ = other := by rw [feature, op_, threshold_, dwell, armAfter, reducer_]

omit [Host] [FloatText] in
theorem perceptPrivilege_eq_iff (recovery other : RecoverySpec) :
    recovery.perceptPrivilege = other.perceptPrivilege ↔
      atMostZero recovery.sensorSd = atMostZero other.sensorSd := by
  rw [RecoverySpec.perceptPrivilege, RecoverySpec.perceptPrivilege]
  cases atMostZero recovery.sensorSd <;> cases atMostZero other.sensorSd <;> simp

/-- A sealed rule is the rule that ran exactly when the rounding took nothing from it;
rules of one canonical form behave alike when it took nothing from either. -/
theorem sealed_rule_reproduces (style : Style) (repertoire : Repertoire) (rule : Rule)
    (steps : List Step) (resolved : rule.recovery.steps repertoire = .ok steps) :
    (Reproduces style repertoire rule ↔ KeepsNumbers rule ∧ PlainOffsets steps) ∧
    (∀ other, KeepsNumbers rule → KeepsNumbers other →
      other.canonical repertoire = rule.canonical repertoire →
        other.trigger = rule.trigger ∧
          other.recovery.perceptPrivilege = rule.recovery.perceptPrivilege) := by
  have reread := roundTrip_form style rule steps
  have rebuilt := ruleFromCanonical_sortedForm rule steps
  refine ⟨⟨?_, ?_⟩, ?_⟩
  · rintro ⟨form, reread_, rebuilt_, formed, read, built, again, crosses, _, percept⟩
    rw [canonical_eq resolved] at formed
    cases formed
    rw [reread] at read
    cases read
    rw [rebuilt] at built
    cases built
    refine ⟨⟨(crosses_round9_iff rule.trigger).mp crosses, ?_⟩, (canonical_reloaded_iff resolved).mp again⟩
    exact (atMostZero_round9_iff _).mp ((perceptPrivilege_eq_iff _ _).mp percept)
  · rintro ⟨⟨threshold, large⟩, plain⟩
    have trigger : (rule.reloaded steps).trigger = rule.trigger := by
      change { rule.trigger with threshold := rule.trigger.threshold.round9 } = rule.trigger
      rw [threshold]
    refine ⟨_, _, _, canonical_eq resolved, reread, rebuilt, (canonical_reloaded_iff resolved).mpr plain,
      ?_, ?_, ?_⟩
    · intro value
      rw [trigger]
    · intro series
      rw [trigger]
    · exact (perceptPrivilege_eq_iff _ _).mpr ((atMostZero_round9_iff _).mpr large)
  · intro other keeps keeps_ same
    rw [canonical_eq resolved] at same
    rcases map_eq_ok.mp same with ⟨others, _, forms⟩
    have fields := Json.obj.inj forms
    have rest := List.cons.inj (List.cons.inj fields).2
    have recovery := Json.obj.inj (Prod.mk.inj (List.cons.inj rest.2).1).2
    refine ⟨eq_of_canonical (Prod.mk.inj rest.1).2 ?_, ?_⟩
    · intro numbers
      rw [← keeps_.1, ← keeps.1]
      exact numbers
    · rw [perceptPrivilege_eq_iff, ← (atMostZero_round9_iff _).mpr keeps.2,
        ← (atMostZero_round9_iff _).mpr keeps_.2]
      simp only [List.cons.injEq, Prod.mk.injEq, Json.float.injEq, true_and] at recovery
      exact congrArg atMostZero (Double.ext recovery.2.2.2.1)

end

section

local instance sealHost : Host := asciiHost

local instance sealFloats : FloatText := exactDecimals

/-- A rule over a threshold below the ninth decimal. -/
def sealedRule (threshold : ℚ) : Rule :=
  ⟨"g1", ⟨"observable.finger_gap", .lt, Double.nearest threshold, 1, 0, .value⟩,
    ⟨"regrasp", some [("approach", 20)], Double.nearest (1 / 50), 1⟩⟩

theorem resolved_sealedRule (threshold : ℚ) : (sealedRule threshold).recovery.steps ⟨[]⟩ =
    .ok [⟨"approach", 20, RecoverySpec.zero, RecoverySpec.zero⟩] := rfl

/-- The rule fires on a closed gripper, and the one that is rebuilt does not. -/
theorem threshold_lost : ∃ form reread rebuilt, (sealedRule (1 / 2 ^ 40)).canonical ⟨[]⟩ = .ok form ∧
    roundTrip compact form = some reread ∧ ruleFromCanonical reread = .ok rebuilt ∧
    (sealedRule (1 / 2 ^ 40)).trigger.crosses (Double.nearest 0) = true ∧
    rebuilt.trigger.crosses (Double.nearest 0) = false := by
  refine ⟨_, _, _, canonical_eq (resolved_sealedRule _), roundTrip_form compact _ _,
    ruleFromCanonical_sortedForm _ _, ?_, ?_⟩
  · decide +kernel
  · decide +kernel

theorem sealed_rule_reproduces_half :
    (Reproduces compact ⟨[]⟩ (sealedRule (1 / 2)) ↔ KeepsNumbers (sealedRule (1 / 2)) ∧
      PlainOffsets [⟨"approach", 20, RecoverySpec.zero, RecoverySpec.zero⟩]) ∧
    (∀ other, KeepsNumbers (sealedRule (1 / 2)) → KeepsNumbers other →
      other.canonical ⟨[]⟩ = (sealedRule (1 / 2)).canonical ⟨[]⟩ →
        other.trigger = (sealedRule (1 / 2)).trigger ∧ other.recovery.perceptPrivilege =
          (sealedRule (1 / 2)).recovery.perceptPrivilege) :=
  sealed_rule_reproduces compact ⟨[]⟩ (sealedRule (1 / 2)) _ (resolved_sealedRule _)

end

end Rsi
end PhysicalHarness
