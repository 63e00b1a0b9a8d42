import PhysicalHarness.Governor.Proposer
import PhysicalHarness.Python.Decimal
import PhysicalHarness.Rsi.Probe

namespace PhysicalHarness
namespace Rsi

open Python Harness JsonText Fallible

/-!
# Firing online and offline

The loop steps a rule on the reading of the moment; `fire_step` steps it on the
recorded series after the rule's reduction.  Both have the same recurrence, so
they agree wherever the reduction leaves the series as it is.
-/

theorem get?_record {values : List (String × Double)} (unique : (Assoc.keys values).Nodup)
    (history : List (String × List Double)) (name : String) :
    (Assoc.get? (record history values) name).getD [] =
      (Assoc.get? history name).getD [] ++ (Assoc.get? values name).toList := by
  induction values generalizing history with
  | nil => exact (List.append_nil _).symm
  | cons pair rest ih =>
      rcases pair with ⟨key, value⟩
      rw [Assoc.keys_cons, List.nodup_cons] at unique
      have step : record history ((key, value) :: rest) =
          record (Assoc.set history key ((Assoc.get? history key).getD [] ++ [value])) rest := rfl
      rw [step, ih unique.2, Assoc.get?_set, Assoc.get?_cons]
      by_cases same : key = name
      · have absent : Assoc.get? rest name = none := by
          rw [Assoc.get?_eq_none_iff, ← same]
          exact unique.1
        rw [if_pos same, if_pos same, absent, same]
        exact List.append_nil _
      · rw [if_neg same, if_neg same]

theorem get?_record_of_absent {values : List (String × Double)} {name : String}
    (absent : name ∉ Assoc.keys values) (history : List (String × List Double)) :
    Assoc.get? (record history values) name = Assoc.get? history name := by
  induction values generalizing history with
  | nil => rfl
  | cons pair rest ih =>
      rcases pair with ⟨key, value⟩
      rw [Assoc.keys_cons, List.mem_cons, not_or] at absent
      have step : record history ((key, value) :: rest) =
          record (Assoc.set history key ((Assoc.get? history key).getD [] ++ [value])) rest := rfl
      rw [step, ih absent.2, Assoc.get?_set, if_neg (fun same => absent.1 same.symm)]

section

variable [Sha256] [FloatText]

variable {registry : Registry} {views : List (FeatureView × Nat)} {bundle : Option Bundle}
  {rule : Rule} {critic last : Critic} {names : List String} {episode : String} {consec k : Nat}

theorem history_of_follow (shown : Shown names episode k views)
    (followed : critic.follow registry bundle views = .ok last) (unique : names.Nodup)
    {name : String} (admitted : name ∈ names) :
    (Assoc.get? last.history name).getD [] =
      (Assoc.get? critic.history name).getD [] ++ views.map (reading name) := by
  induction views generalizing critic k with
  | nil =>
      cases followed
      exact (List.append_nil _).symm
  | cons first rest ih =>
      rcases of_bind followed with ⟨next, passed, later⟩
      rcases shown with ⟨⟨values, view, keys⟩, shown⟩
      rw [ih shown later, (Critic.log_of_attend passed).1]
      have same : first.1.values = values := by
        rw [view]
        rfl
      rw [same, get?_record (keys ▸ unique)]
      rcases Assoc.get?_of_mem_keys (keys ▸ admitted : name ∈ Assoc.keys values) with ⟨value, found⟩
      rw [List.map_cons, reading, same, found, List.append_assoc]
      rfl

theorem history_of_follow_of_absent (shown : Shown names episode k views)
    (followed : critic.follow registry bundle views = .ok last) {name : String}
    (absent : name ∉ names) :
    Assoc.get? last.history name = Assoc.get? critic.history name := by
  induction views generalizing critic k with
  | nil =>
      cases followed
      rfl
  | cons first rest ih =>
      rcases of_bind followed with ⟨next, passed, later⟩
      rcases shown with ⟨⟨values, view, keys⟩, shown⟩
      rw [ih shown later, (Critic.log_of_attend passed).1, view]
      exact get?_record_of_absent (keys ▸ absent) _

/-! ## One rule -/

structure Sole (rule : Rule) (k consec : Nat) (critic : Critic) : Prop where
  slots : critic.slots = [⟨rule, consec, 0⟩]
  fires : critic.fires = []
  k : critic.k = k

omit [Sha256] [FloatText] in
theorem scan_singleton (step : Nat) (view : FeatureView) (slot : Slot) :
    scan step view [slot] = (visit step view slot).map (fun visited =>
      (visited.1, [visited.2.1], if visited.2.2 then some 0 else none)) := by
  rw [scan]
  cases visit step view slot with
  | error halt => rfl
  | ok visited => rfl

omit [Sha256] [FloatText] in
theorem visit_fresh {step : Nat} {view : FeatureView} (live : 1 ≤ rule.recovery.maxInvocations)
    {visited : FeatureView × Slot × Bool}
    (passed : visit step view ⟨rule, consec, 0⟩ = .ok visited) :
    ((step : Int) < rule.trigger.armAfter ∧ visited.2 = (⟨rule, 0, 0⟩, false)) ∨
    (¬ (step : Int) < rule.trigger.armAfter ∧ ∃ value,
      Assoc.get? view.values rule.trigger.feature = some value ∧
        visited.2 = (⟨rule, if rule.trigger.crosses value then consec + 1 else 0, 0⟩,
          decide (rule.trigger.dwell ≤
            ((if rule.trigger.crosses value then consec + 1 else 0 : Nat) : Int)))) := by
  have unused : ¬ rule.recovery.maxInvocations ≤ ((0 : Nat) : Int) := by
    rw [Nat.cast_zero]
    omega
  rw [visit, if_neg unused] at passed
  by_cases early : (step : Int) < rule.trigger.armAfter
  · rw [if_pos early] at passed
    cases passed
    exact Or.inl ⟨early, rfl⟩
  · rw [if_neg early] at passed
    refine Or.inr ⟨early, ?_⟩
    split at passed
    · cases passed
    · rename_i value view_ found
      rcases Option.map_eq_some_iff.mp found with ⟨value_, here, same⟩
      cases same
      cases passed
      exact ⟨value, here, rfl⟩

theorem attend_sole {next : Critic} {view : FeatureView} {envStep : Nat}
    (sole : Sole rule k consec critic) (live : 1 ≤ rule.recovery.maxInvocations)
    (passed : critic.attend registry bundle view envStep = .ok next) :
    ((k : Int) < rule.trigger.armAfter ∧ Sole rule (k + 1) 0 next) ∨
    (¬ (k : Int) < rule.trigger.armAfter ∧ ∃ value,
      Assoc.get? view.values rule.trigger.feature = some value ∧
        ((rule.trigger.dwell ≤ ((if rule.trigger.crosses value then consec + 1 else 0 : Nat) : Int) ∧
            next.fires.head?.map Fire.step = some k) ∨
          (¬ rule.trigger.dwell ≤
              ((if rule.trigger.crosses value then consec + 1 else 0 : Nat) : Int) ∧
            Sole rule (k + 1) (if rule.trigger.crosses value then consec + 1 else 0) next))) := by
  have k_ := Critic.k_of_attend passed
  rcases of_bind passed with ⟨judged, done, later⟩
  have slots : (critic.log view).slots = [⟨rule, consec, 0⟩] := sole.slots
  have step : (critic.log view).k - 1 = k := sole.k
  rw [sole.k] at k_
  rcases Critic.judge_cases done with ⟨empty, _⟩ | ⟨scanned, mapped, _, rfl⟩
  · rw [slots] at empty
    cases empty
  rw [slots, step, scan_singleton] at mapped
  rcases map_eq_ok.mp mapped with ⟨visited, here, rfl⟩
  rcases visit_fresh live here with ⟨early, same⟩ | ⟨armed, value, read, same⟩
  · refine Or.inl ⟨early, ?_⟩
    rw [same] at later
    cases later
    exact ⟨rfl, sole.fires, k_⟩
  · refine Or.inr ⟨armed, value, read, ?_⟩
    rw [same] at later
    by_cases held : rule.trigger.dwell ≤
        ((if rule.trigger.crosses value then consec + 1 else 0 : Nat) : Int)
    · refine Or.inl ⟨held, ?_⟩
      rw [decide_eq_true held, if_pos rfl, Critic.respond] at later
      split at later
      · cases later
      · cases later
        have none_ : critic.fires = [] := sole.fires
        simp [Critic.fire, Critic.log, none_, sole.k]
    · refine Or.inr ⟨held, ?_⟩
      rw [decide_eq_false held, if_neg Bool.false_ne_true] at later
      cases later
      exact ⟨rfl, sole.fires, k_⟩

theorem head_fires_of_follow (sole : Sole rule k consec critic)
    (live : 1 ≤ rule.recovery.maxInvocations) (shown : Shown names episode k views)
    (followed : critic.follow registry bundle views = .ok last) :
    last.fires.head?.map Fire.step =
      rule.trigger.fireFrom k consec (views.map (reading rule.trigger.feature)) := by
  induction views generalizing critic k consec with
  | nil =>
      cases followed
      rw [sole.fires]
      rfl
  | cons first rest ih =>
      rcases of_bind followed with ⟨next, passed, later⟩
      rw [List.map_cons, Trigger.fireFrom]
      rcases attend_sole sole live passed with ⟨early, sole⟩ | ⟨armed, value, read, held⟩
      · rw [if_pos early]
        exact ih sole shown.2 later
      · rw [if_neg armed, reading, read, Option.getD_some]
        rcases held with ⟨held, fired⟩ | ⟨waits, sole⟩
        · simp only []
          rw [if_pos held, ← fired]
          rcases Critic.fires_of_follow later with ⟨more, grown⟩
          rw [← grown]
          cases fires : next.fires with
          | nil =>
              rw [fires] at fired
              cases fired
          | cons fire others => rfl
        · simp only []
          rw [if_neg waits]
          exact ih sole shown.2 later

omit [FloatText] in
theorem sole_freshCritic {bundle : Bundle} (rules : bundle.rules = [rule]) :
    Sole rule 0 0 (freshCritic (some bundle)) := by
  refine ⟨?_, rfl, rfl⟩
  rw [freshCritic, Option.map_some, Option.getD_some, rules]
  rfl

theorem head_fires_of_segment {World Obs Action Goal Actor : Type}
    {plant : Plant World Obs Action Goal Actor} {spec : EpisodeSpec} {bundle : Bundle}
    {world : World} {obs : Obs} {stepBudget : Int} {segment : Segment Obs}
    (rules : bundle.rules = [rule]) (live : 1 ≤ rule.recovery.maxInvocations)
    (ran : governedSegment registry plant spec (some bundle) world obs stepBudget = .ok segment)
    {series : List Double} (traced : Assoc.get? segment.trace rule.trigger.feature = some series) :
    segment.fires.head?.map Fire.step = rule.trigger.fireFrom 0 0 series := by
  rcases follow_of_segment ran with ⟨views, last, shown, followed, fires, trace, _⟩
  rw [fires, head_fires_of_follow (sole_freshCritic rules) live shown followed]
  rw [trace] at traced
  by_cases admitted : rule.trigger.feature ∈ registry.admitted (criticBudget (some bundle))
  · have whole := history_of_follow shown followed (registry.nodup_admitted _) admitted
    rw [traced] at whole
    exact congrArg _ whole.symm
  · rw [history_of_follow_of_absent shown followed admitted] at traced
    cases traced

/-- The first fire of every segment under the one-rule bundle is the step that the
offline scan of its trace gives. -/
def FiresAsScored (registry : Registry) (rule : Rule) : Prop :=
  ∀ (World Obs Action Goal Actor : Type) (plant : Plant World Obs Action Goal Actor)
    (spec : EpisodeSpec) (bundle : Bundle) (world : World) (obs : Obs) (stepBudget : Int)
    (segment : Segment Obs) (series : List Double), bundle.rules = [rule] →
      governedSegment registry plant spec (some bundle) world obs stepBudget = .ok segment →
      Assoc.get? segment.trace rule.trigger.feature = some series →
      segment.fires.head?.map Fire.step = rule.trigger.fireStep series ∧
        (segment.fires = [] ↔ rule.trigger.fireStep series = none)

theorem firesAsScored_of_value (live : 1 ≤ rule.recovery.maxInvocations)
    (plain : rule.trigger.reducer = .value) :
    FiresAsScored registry rule := by
  intro World Obs Action Goal Actor plant spec bundle world obs stepBudget segment series rules ran
    traced
  have first := head_fires_of_segment rules live ran traced
  have offline : rule.trigger.fireStep series = rule.trigger.fireFrom 0 0 series := by
    rw [Trigger.fireStep, plain]
    rfl
  rw [offline, ← first]
  refine ⟨rfl, ?_⟩
  rw [Option.map_eq_none_iff, List.head?_eq_none_iff]

end

def lateReading (value : Double) (k : Nat) (_ : String) : Double := if k = 0 then Double.nan else value

theorem crosses_reduceSeries_of_nan {trigger : Trigger} {rest : List Double} {reducer : Reducer}
    (running : reducer ≠ .value) :
    ∀ value ∈ reduceSeries (Double.nan :: rest) reducer, trigger.crosses value = false := by
  have absorbed : ∀ combine : Double → Double → Double,
      (∀ value, combine Double.nan value = Double.nan) →
      ∀ rest : List Double, rest.scanl combine Double.nan = List.replicate (rest.length + 1) Double.nan := by
    intro combine keeps rest
    induction rest with
    | nil => rfl
    | cons value rest ih =>
        rw [List.scanl_cons, keeps, ih]
        rfl
  have least : accumulate minimum (Double.nan :: rest) = List.replicate (rest.length + 1) Double.nan :=
    absorbed minimum (fun _ => rfl) rest
  have most : accumulate maximum (Double.nan :: rest) = List.replicate (rest.length + 1) Double.nan :=
    absorbed maximum (fun _ => rfl) rest
  intro value mem
  have same : value = Double.nan := by
    cases reducer with
    | value => exact absurd rfl running
    | min =>
        rw [reduceSeries, least] at mem
        exact List.eq_of_mem_replicate mem
    | max =>
        rw [reduceSeries, most] at mem
        exact List.eq_of_mem_replicate mem
    | range =>
        rw [reduceSeries, least, most, List.zipWith_replicate'] at mem
        exact List.eq_of_mem_replicate mem
  rw [same]
  exact trigger.crosses_nan

section

variable [Sha256] [FloatText]

theorem value_of_firesAsScored {registry : Registry} {rule : Rule}
    (known : rule.trigger.feature ∈ registry.admitted 1)
    (finite : rule.trigger.threshold.value.isFinite = true) (dwell : 1 ≤ rule.trigger.dwell)
    (live : 1 ≤ rule.recovery.maxInvocations) (scored : FiresAsScored registry rule) :
    rule.trigger.reducer = .value := by
  by_contra running
  let bundle : Bundle := ⟨[rule], 1, 0, none⟩
  let readings := lateReading rule.trigger.beyond
  let steps := rule.trigger.armAfter.toNat + rule.trigger.dwell.toNat
  let views := probeViews readings (registry.admitted 1) 0 (steps + 1)
  have shown : Shown (registry.admitted 1) "s0" 0 views := shown_probeViews _ _ _ _
  have cheap : (worst registry [rule] : Int) ≤ 1 := by
    have one : worst registry [rule] = registry.costOf rule.trigger.feature := by
      have features : liveFeatures [rule] = [rule.trigger.feature] := by
        simp [liveFeatures, live]
      rw [worst, features, Registry.total]
      exact Nat.add_zero _
    rcases (registry.mem_admitted_iff 1 rule.trigger.feature).mp known with ⟨privilege, found, cost⟩
    rw [one, Registry.costOf, found]
    exact cost
  have present : ∀ other ∈ [rule], 1 ≤ other.recovery.maxInvocations →
      other.trigger.feature ∈ registry.admitted 1 := by
    intro other mem _
    rw [List.mem_singleton.mp mem]
    exact known
  have allowed : 0 ≤ bundle.actionBudget ∨ ∀ rule ∈ bundle.rules, ¬ CanFire rule := Or.inl (le_refl 0)
  rcases exists_segment_probe present (Or.inr cheap) allowed readings (steps + 1) with ⟨last, segment, followed, ran, fires, trace, _⟩
  have series : views.map (reading rule.trigger.feature) =
      Double.nan :: List.replicate steps rule.trigger.beyond := by
    rw [readings_probeViews known, List.range'_succ, List.map_cons]
    congr 1
    rw [List.map_eq_replicate_iff.mpr]
    · rw [List.length_range']
    · intro step mem
      rw [List.mem_range'_1] at mem
      exact if_neg (by omega)
  have traced : Assoc.get? segment.trace rule.trigger.feature =
      some (Double.nan :: List.replicate steps rule.trigger.beyond) := by
    have whole := history_of_follow shown followed (registry.nodup_admitted 1) known
    rw [series, ← trace] at whole
    cases found : Assoc.get? segment.trace rule.trigger.feature with
    | none =>
        rw [found] at whole
        cases whole
    | some recorded =>
        rw [found] at whole
        exact congrArg some whole
  have offline : rule.trigger.fireStep (Double.nan :: List.replicate steps rule.trigger.beyond) =
      none := Trigger.fireFrom_of_quiet dwell (crosses_reduceSeries_of_nan running) 0
  have only : bundle.rules = [rule] := rfl
  have online := head_fires_of_segment only live ran traced
  have both := (scored Nat Nat Unit Unit Unit _ _ bundle 0 0 _ segment _ rfl ran traced).1
  rw [offline] at both
  rw [both] at online
  -- the loop skips the step without a number and then sees the reading cross for good
  have fires_ : rule.trigger.fireFrom 0 0 (Double.nan :: List.replicate steps rule.trigger.beyond) =
      rule.trigger.fireFrom 1 0 (List.replicate steps rule.trigger.beyond) := by
    rw [Trigger.fireFrom, rule.trigger.crosses_nan]
    have waits : ¬ rule.trigger.dwell ≤ ((0 : Nat) : Int) := by
      rw [Nat.cast_zero]
      omega
    simp only [Bool.false_eq_true, if_false]
    rw [if_neg waits, ite_self]
  rw [fires_] at online
  refine Trigger.fireFrom_replicate (Or.inr (Trigger.crosses_beyond finite)) ?_ ?_ ?_ ?_ online.symm
  · omega
  · omega
  · rw [Nat.cast_one]
    omega
  · rw [Nat.cast_one]
    omega

/-- Of the rules that the gate admits, the loop fires those as they are scored that
read the instantaneous value. -/
theorem search_scores_what_fires [Host] (registry : Registry) (payload : Governor.Payload)
    (generation privilegeBudget : Int) (strategies : List String) (recoverySensorSd : Double)
    (nSteps : Int) (rule : Rule)
    (parsed : Governor.parseProposal registry payload generation privilegeBudget strategies
      recoverySensorSd nSteps = .ok rule) :
    FiresAsScored registry rule ↔ rule.trigger.reducer = .value := by
  have admitted := Governor.admitted_of_parseProposal parsed
  have live : 1 ≤ rule.recovery.maxInvocations := le_of_eq admitted.invocations.symm
  constructor
  · apply value_of_firesAsScored _ admitted.threshold admitted.dwell live
    rcases admitted.feature with ⟨privilege, found, _⟩
    refine (registry.mem_admitted_iff 1 _).mpr ⟨privilege, found, ?_⟩
    cases privilege
    · exact Int.zero_le_ofNat 1
    · exact le_refl 1
  · exact firesAsScored_of_value live

end

section

local instance rangeSha : Sha256 := sha256

local instance rangeFloats : FloatText := exactDecimals

local instance rangeHost : Host := asciiHost

/-- A proposal with a running reduction. -/
def rangeProposal : Governor.Payload :=
  .value (.obj [("feature", .str "observable.finger_gap"), ("op", .str "gt"),
    ("threshold", .float (.fin (1 / 2))), ("dwell", .int 1), ("arm_after", .int 0),
    ("reducer", .str "range")])

def rangeRule : Rule :=
  ⟨"g1", ⟨"observable.finger_gap", .gt, Double.nearest (1 / 2), 1, 0, .range⟩,
    ⟨"regrasp", none, RecoverySpec.zero, 1⟩⟩

theorem parse_rangeProposal : Governor.parseProposal featureCatalog rangeProposal 1 0 ["regrasp"]
    RecoverySpec.zero 100 = .ok rangeRule := by
  rfl

/-- A reading that stays above the threshold fires at once, and its range, which stays
at zero, never does. -/
theorem range_fires_unscored : Governor.parseProposal featureCatalog rangeProposal 1 0 ["regrasp"]
      RecoverySpec.zero 100 = .ok rangeRule ∧
    ∃ segment, governedSegment featureCatalog (probe (fun _ _ => Double.nearest 1) [rangeRule])
        probeSpec (some ⟨[rangeRule], 0, 0, none⟩) 0 0 1 = .ok segment ∧
      Assoc.get? segment.trace rangeRule.trigger.feature = some [Double.nearest 1] ∧
      segment.fires.head?.map Fire.step = some 0 ∧
      rangeRule.trigger.fireStep [Double.nearest 1] = none := by
  refine ⟨parse_rangeProposal, ?_⟩
  let bundle : Bundle := ⟨[rangeRule], 0, 0, none⟩
  have known : rangeRule.trigger.feature ∈ featureCatalog.admitted 0 :=
    (featureCatalog.mem_admitted_iff 0 _).mpr ⟨.observable, rfl, le_refl 0⟩
  have present : ∀ rule ∈ bundle.rules, 1 ≤ rule.recovery.maxInvocations →
      rule.trigger.feature ∈ featureCatalog.admitted 0 := by
    intro rule member _
    rw [List.mem_singleton.mp member]
    exact known
  have fits : (worst featureCatalog bundle.rules : Int) ≤ 0 := by decide
  rcases exists_segment_probe present (Or.inr fits) (Or.inl (le_refl 0))
    (fun _ _ => Double.nearest 1) 1 with ⟨last, segment, followed, ran, _, trace, _⟩
  have whole := history_of_follow (shown_probeViews _ _ 0 1) followed
    (featureCatalog.nodup_admitted 0) known
  rw [readings_probeViews known, ← trace] at whole
  have traced : Assoc.get? segment.trace rangeRule.trigger.feature = some [Double.nearest 1] := by
    cases found : Assoc.get? segment.trace rangeRule.trigger.feature with
    | none =>
        rw [found] at whole
        cases whole
    | some recorded =>
        rw [found] at whole
        exact congrArg some whole
  have above : rangeRule.trigger.crosses (Double.nearest 1) = true := by decide +kernel
  have level : rangeRule.trigger.crosses (difference (Double.nearest 1) (Double.nearest 1)) =
      false := by decide +kernel
  refine ⟨segment, ran, traced, ?_, ?_⟩
  · have only : bundle.rules = [rangeRule] := rfl
    rw [head_fires_of_segment only (le_refl 1) ran traced, Trigger.fireFrom, above]
    rfl
  · change rangeRule.trigger.fireFrom 0 0 [difference (Double.nearest 1) (Double.nearest 1)] = none
    rw [Trigger.fireFrom, level]
    rfl

def gapProposal : Governor.Payload :=
  .value (.obj [("feature", .str "observable.finger_gap"), ("op", .str "lt"),
    ("threshold", .float (.fin (1 / 2))), ("dwell", .int 3), ("arm_after", .int 10)])

def gapRule : Rule :=
  ⟨"g1", ⟨"observable.finger_gap", .lt, Double.nearest (1 / 2), 3, 10, .value⟩,
    ⟨"regrasp", none, RecoverySpec.zero, 1⟩⟩

theorem search_scores_what_fires_gap : FiresAsScored featureCatalog gapRule ↔
    gapRule.trigger.reducer = .value :=
  search_scores_what_fires featureCatalog gapProposal 1 0 ["regrasp"] RecoverySpec.zero 100 gapRule
    (by rfl)

end

end Rsi
end PhysicalHarness
