import PhysicalHarness.Python.Decimal
import PhysicalHarness.Rsi.Probe

namespace PhysicalHarness
namespace Rsi

open Python Harness JsonText Fallible

/-!
# The critic's budget and the declared privilege

Admission looks at one feature at a time, and the declaration at one rule at a
time.  A step is charged for all that its rules read, so both are exact only where
the live features of the chain together stay below the budget, or the declaration.
-/

/-! ## Readings without numbers -/

def Blind (view : FeatureView) : Prop := ∀ pair ∈ view.values, pair.2 = Double.nan

structure Quiet (rules : List Rule) (critic : Critic) : Prop where
  slots : critic.slots = rules.map (fun rule => ⟨rule, 0, 0⟩)

theorem Quiet.chained {rules : List Rule} {critic : Critic} (quiet : Quiet rules critic) :
    Chained rules critic := by
  refine ⟨?_⟩
  rw [quiet.slots, List.map_map]
  exact List.map_id _

theorem seen_of_blind {view : FeatureView} (blind : Blind view) (slot : Slot) :
    seen view.values slot = Double.nan := by
  rw [seen]
  cases found : Assoc.get? view.values slot.rule.trigger.feature with
  | none => rfl
  | some value => exact blind _ (Assoc.mem_of_get? found)

theorem counted_nan (slot : Slot) : counted slot Double.nan = 0 := by
  rw [counted, Trigger.crosses_nan]
  rfl

theorem held_of_blind {view : FeatureView} (blind : Blind view) {slot : Slot}
    (dwell : 1 ≤ slot.rule.trigger.dwell) (step : Nat) : held step view.values slot = false := by
  rw [held, seen_of_blind blind, counted_nan]
  refine decide_eq_false (fun both => ?_)
  have never := both.2
  rw [Nat.cast_zero] at never
  omega

theorem stepped_of_blind {view : FeatureView} (blind : Blind view) (rule : Rule) (step : Nat) :
    stepped step view.values ⟨rule, 0, 0⟩ = ⟨rule, 0, 0⟩ := by
  rw [stepped, seen_of_blind blind, counted_nan, ite_self]

theorem blind_probeView (names : List String) (k : Nat) :
    Blind (probeView (fun _ _ => Double.nan) names k) := by
  intro pair mem
  rcases List.mem_map.mp mem with ⟨name, _, rfl⟩
  rfl

section

variable [Sha256] [FloatText]

variable {registry : Registry} {bundle : Bundle}

omit [FloatText] in
theorem quiet_freshCritic : Quiet bundle.rules (freshCritic (some bundle)) := ⟨rfl⟩

variable {critic last : Critic} {rules : List Rule} {names : List String}

omit [Sha256] [FloatText] in
theorem Quiet.held {view : FeatureView} (quiet : Quiet rules critic) (blind : Blind view)
    (dwell : ∀ rule ∈ rules, 1 ≤ rule.trigger.dwell) :
    ∀ slot ∈ critic.slots, Rsi.held critic.k view.values slot = false := by
  intro slot mem
  exact held_of_blind blind (dwell slot.rule (mem_rules_of_slot quiet.chained mem)) critic.k

/-- A view without numbers leaves the chain as it is, and charges it for the rules
that are armed. -/
theorem Quiet.attend {next : Critic} {view : FeatureView} {envStep : Nat}
    (quiet : Quiet rules critic) (blind : Blind view)
    (dwell : ∀ rule ∈ rules, 1 ≤ rule.trigger.dwell)
    (passed : critic.attend registry (some bundle) view envStep = .ok next) :
    Quiet rules next ∧ critic.privilegeUsed ≤ next.privilegeUsed ∧
      (rules ≠ [] → (∀ rule ∈ rules, rule.trigger.armAfter ≤ critic.k) →
        worst registry rules ≤ next.privilegeUsed ∧ (worst registry rules : Int) ≤ bundle.criticBudget) := by
  rcases attend_cases passed with ⟨empty, empty_, _, used⟩ | ⟨scanned, done, within, used, left⟩
  · have none_ : rules = [] := by
      have slots := quiet.slots
      rw [empty] at slots
      exact List.map_eq_nil_iff.mp slots.symm
    refine ⟨⟨?_⟩, used.ge, fun some_ => absurd none_ some_⟩
    rw [empty_, none_]
    rfl
  have never := quiet.held blind dwell
  have slots : next.slots = critic.slots.map (stepped critic.k view.values) := by
    rcases left with ⟨_, slots, _⟩ | ⟨index, slot, triggered, _⟩
    · exact slots
    · rcases List.findIdx?_eq_some_iff_getElem.mp triggered with ⟨bound, holds, _⟩
      have none_ := never _ (List.getElem_mem bound)
      exact absurd (holds.symm.trans none_) Bool.noConfusion
  refine ⟨⟨?_⟩, ?_, ?_⟩
  · rw [slots, quiet.slots, List.map_map]
    apply List.map_congr_left
    intro rule _
    exact stepped_of_blind blind rule critic.k
  · rw [used]
    exact le_max_left _ _
  · intro _ armed
    have all : worst registry rules ≤ scanned.1.privilegeUsed registry := by
      apply worst_le_privilegeUsed done quiet.chained.chain
      intro slot mem live
      refine ⟨?_, armed slot.rule (mem_rules_of_slot quiet.chained mem)⟩
      rw [quiet.slots] at mem
      rcases List.mem_map.mp mem with ⟨rule, _, rfl⟩
      rw [Nat.cast_zero]
      omega
    refine ⟨?_, ?_⟩
    · rw [used]
      exact all.trans (le_max_right _ _)
    · have fit : ¬ bundle.criticBudget < scanned.1.privilegeUsed registry := within
      omega

/-- After a run without numbers that outlasts every arming, all live features have
been charged at once. -/
theorem Quiet.follow {k left : Nat} (quiet : Quiet rules critic) (here : critic.k = k)
    (dwell : ∀ rule ∈ rules, 1 ≤ rule.trigger.dwell)
    (followed : critic.follow registry (some bundle)
      (probeViews (fun _ _ => Double.nan) names k left) = .ok last) :
    critic.privilegeUsed ≤ last.privilegeUsed ∧
      (rules ≠ [] → (∀ rule ∈ rules, rule.trigger.armAfter < k + left) → 1 ≤ left →
        worst registry rules ≤ last.privilegeUsed ∧ (worst registry rules : Int) ≤ bundle.criticBudget) := by
  induction left generalizing critic k with
  | zero =>
      cases followed
      exact ⟨le_refl _, fun _ _ some_ => absurd some_ (Nat.not_succ_le_zero 0)⟩
  | succ left ih =>
      rcases of_bind followed with ⟨next, passed, later⟩
      rcases quiet.attend (blind_probeView names k) dwell passed with ⟨quiet_, less, charged⟩
      have k_ : next.k = k + 1 := by
        rw [Critic.k_of_attend passed, here]
      rcases ih quiet_ k_ later with ⟨less_, charged_⟩
      refine ⟨less.trans less_, fun some_ armed _ => ?_⟩
      rcases Nat.eq_zero_or_pos left with zero | more
      · have armed_ : ∀ rule ∈ rules, rule.trigger.armAfter ≤ critic.k := by
          intro rule mem
          have before := armed rule mem
          rw [here]
          omega
        rcases charged some_ armed_ with ⟨most, fits⟩
        exact ⟨most.trans less_, fits⟩
      · refine charged_ some_ (fun rule mem => ?_) more
        have before := armed rule mem
        push_cast
        omega

def allArmed (rules : List Rule) : Nat :=
  (rules.map (fun rule => rule.trigger.armAfter.toNat)).sum + 1

omit [Sha256] [FloatText] in
theorem lt_allArmed {rule : Rule} (mem : rule ∈ rules) :
    rule.trigger.armAfter < (allArmed rules : Int) := by
  have less := List.single_le_sum (l := rules.map (fun rule => rule.trigger.armAfter.toNat))
    (fun _ _ => Nat.zero_le _) _ (List.mem_map_of_mem mem)
  rw [allArmed, Nat.cast_add, Nat.cast_one]
  omega

theorem Quiet.exists_follow {k left : Nat} (quiet : Quiet bundle.rules critic) (here : critic.k = k)
    (dwell : ∀ rule ∈ bundle.rules, 1 ≤ rule.trigger.dwell)
    (present : ∀ rule ∈ bundle.rules, 1 ≤ rule.recovery.maxInvocations →
      rule.trigger.feature ∈ names)
    (fits : bundle.rules = [] ∨ (worst registry bundle.rules : Int) ≤ bundle.criticBudget) :
    ∃ last, critic.follow registry (some bundle)
      (probeViews (fun _ _ => Double.nan) names k left) = .ok last := by
  induction left generalizing critic k with
  | zero => exact ⟨critic, rfl⟩
  | succ left ih =>
      have blind := blind_probeView names k
      have keys : Assoc.keys (names.map (fun name => (name, Double.nan))) = names := by
        rw [Assoc.keys, List.map_map]
        exact List.map_id _
      have present_ : ∀ rule ∈ bundle.rules, 1 ≤ rule.recovery.maxInvocations →
          rule.trigger.feature ∈ Assoc.keys (names.map (fun name => (name, Double.nan))) := by
        rw [keys]
        exact present
      have asleep := quiet.held blind dwell
      have passes : ∃ next, critic.attend registry (some bundle)
          (probeView (fun _ _ => Double.nan) names k) k = .ok next :=
        exists_attend quiet.chained present_ fits (Or.inr asleep)
      rcases passes with ⟨next, passed⟩
      have k_ : next.k = k + 1 := by
        rw [Critic.k_of_attend passed, here]
      rcases ih (quiet.attend blind dwell passed).1 k_ with ⟨last, followed⟩
      refine ⟨last, ?_⟩
      rw [probeViews, Critic.follow, passed]
      exact followed

theorem charged_of_blind (dwell : ∀ rule ∈ bundle.rules, 1 ≤ rule.trigger.dwell)
    (some_ : bundle.rules ≠ [])
    (followed : (freshCritic (some bundle)).follow registry (some bundle)
      (probeViews (fun _ _ => Double.nan) names 0 (allArmed bundle.rules)) = .ok last) :
    worst registry bundle.rules ≤ last.privilegeUsed ∧
      (worst registry bundle.rules : Int) ≤ bundle.criticBudget := by
  have fresh : Quiet bundle.rules (freshCritic (some bundle)) := quiet_freshCritic
  have start : (freshCritic (some bundle)).k = 0 := rfl
  refine (fresh.follow start dwell followed).2 some_ (fun rule mem => ?_)
    (Nat.succ_le_succ (Nat.zero_le _))
  rw [Nat.cast_zero, zero_add]
  exact lt_allArmed mem

/-- A chain whose live features fit passes every run without numbers, and is charged
for all of them. -/
theorem exists_segment_blind (dwell : ∀ rule ∈ bundle.rules, 1 ≤ rule.trigger.dwell)
    (present : ∀ rule ∈ bundle.rules, 1 ≤ rule.recovery.maxInvocations →
      rule.trigger.feature ∈ registry.admitted bundle.criticBudget)
    (fits : bundle.rules = [] ∨ (worst registry bundle.rules : Int) ≤ bundle.criticBudget) :
    ∃ segment, governedSegment registry (probe (fun _ _ => Double.nan) bundle.rules) probeSpec
        (some bundle) 0 0 (allArmed bundle.rules : Nat) = .ok segment ∧
      (bundle.rules ≠ [] → worst registry bundle.rules ≤ segment.criticPrivilegeUsed) := by
  have fresh : Quiet bundle.rules (freshCritic (some bundle)) := quiet_freshCritic
  have start : (freshCritic (some bundle)).k = 0 := rfl
  rcases fresh.exists_follow start dwell present fits with ⟨last_, passed⟩
  rcases segment_probe registry (some bundle) (fun _ _ => Double.nan) (fun _ mem => mem)
    (allArmed bundle.rules) with ⟨halt, failed, _⟩ | ⟨last, segment, followed, ran, _, _, used⟩
  · cases failed.symm.trans passed
  · refine ⟨segment, ran, fun some_ => ?_⟩
    rw [used]
    exact (charged_of_blind dwell some_ followed).1

/-! ## The critic's budget -/

/-- Every trigger feature is in the catalogue and fits the budget by itself. -/
def FitAlone (registry : Registry) (budget : Int) (rules : List Rule) : Prop :=
  ∀ rule ∈ rules, rule.trigger.feature ∈ registry.admitted budget

/-- The live features fit the budget together, and no fire is started on a negative one. -/
def Within (registry : Registry) (bundle : Bundle) : Prop :=
  (bundle.rules = [] ∨ (worst registry bundle.rules : Int) ≤ bundle.criticBudget) ∧
    (0 ≤ bundle.actionBudget ∨ ∀ rule ∈ bundle.rules, ¬ CanFire rule)

/-- No run under the bundle violates an invariant or misses a feature. -/
def NeverTrips (registry : Registry) (bundle : Bundle) : Prop :=
  ∀ (World Obs Action Goal Actor : Type) (plant : Plant World Obs Action Goal Actor)
    (spec : EpisodeSpec) (world : World) (obs : Obs) (stepBudget : Int) (halt : Halt),
      governedSegment registry plant spec (some bundle) world obs stepBudget = .error halt →
        ∃ error, halt = .raised error

theorem neverTrips_of_within (alone : FitAlone registry bundle.criticBudget bundle.rules)
    (within : Within registry bundle) : NeverTrips registry bundle := by
  intro World Obs Action Goal Actor plant spec world obs stepBudget halt stopped
  rcases follow_of_segment_error stopped with raised | ⟨views, shown, failed⟩
  · exact raised
  · have passes : ∃ last, (freshCritic (some bundle)).follow registry (some bundle) views =
        .ok last :=
      exists_follow (chained_freshCritic bundle) (fun rule mem _ => alone rule mem) within.1
        within.2 shown
    rcases passes with ⟨last, passed⟩
    cases failed.symm.trans passed

theorem fits_of_neverTrips (dwell : ∀ rule ∈ bundle.rules, 1 ≤ rule.trigger.dwell)
    (never : NeverTrips registry bundle) :
    bundle.rules = [] ∨ (worst registry bundle.rules : Int) ≤ bundle.criticBudget := by
  by_cases some_ : bundle.rules = []
  · exact Or.inl some_
  refine Or.inr ?_
  rcases segment_probe registry (some bundle) (fun _ _ => Double.nan) (fun _ mem => mem)
    (allArmed bundle.rules) with ⟨halt, failed, stopped⟩ | ⟨last, segment, followed, _⟩
  · rcases never _ _ _ _ _ _ _ _ _ _ halt stopped with ⟨error, raised⟩
    exact absurd raised (ne_raised_of_follow failed error)
  · exact (charged_of_blind dwell some_ followed).2

theorem fireFrom_of_follow_negative (negative : bundle.actionBudget < 0) {rule : Rule}
    (live : 1 ≤ rule.recovery.maxInvocations) {consec k : Nat} {views : List (FeatureView × Nat)}
    (here : critic.k = k) (mem : (⟨rule, consec, 0⟩ : Slot) ∈ critic.slots)
    (followed : critic.follow registry (some bundle) views = .ok last) :
    rule.trigger.fireFrom k consec (views.map (reading rule.trigger.feature)) = none := by
  induction views generalizing critic consec k with
  | nil => rfl
  | cons first rest ih =>
      rcases of_bind followed with ⟨next, passed, later⟩
      have k_ : next.k = k + 1 := by
        rw [Critic.k_of_attend passed, here]
      rcases attend_cases passed with ⟨empty, _⟩ | ⟨scanned, _, _, _, left⟩
      · rw [empty] at mem
        exact absurd mem List.not_mem_nil
      rcases left with ⟨unheld, slots, _⟩ | ⟨_, _, _, _, allowed, _⟩
      · rw [here] at slots unheld
        have waits := List.findIdx?_eq_none_iff.mp unheld _ mem
        have kept : stepped k first.1.values ⟨rule, consec, 0⟩ ∈ next.slots := by
          rw [slots]
          exact List.mem_map_of_mem mem
        have unused : (((0 : Nat) : Int)) < rule.recovery.maxInvocations := by
          rw [Nat.cast_zero]
          omega
        rw [List.map_cons, Trigger.fireFrom]
        by_cases early : (k : Int) < rule.trigger.armAfter
        · have asleep : ¬ Awake k ⟨rule, consec, 0⟩ := fun awake => absurd awake.2 (not_le.mpr early)
          rw [stepped, if_neg asleep] at kept
          rw [if_pos early]
          exact ih k_ kept later
        · have awake : Awake k ⟨rule, consec, 0⟩ := ⟨unused, not_lt.mp early⟩
          rw [stepped, if_pos awake] at kept
          have short : ¬ rule.trigger.dwell ≤ counted ⟨rule, consec, 0⟩
              (seen first.1.values ⟨rule, consec, 0⟩) :=
            fun enough => of_decide_eq_false waits ⟨awake, enough⟩
          rw [if_neg early]
          exact (if_neg short).trans (ih k_ kept later)
      · exact absurd allowed (not_le.mpr negative)

omit [Sha256] [FloatText] in
theorem exists_fireFrom {rule : Rule} (can : CanFire rule) :
    ∃ value steps, rule.trigger.fireFrom 0 0 (List.replicate steps value) ≠ none := by
  rcases exists_ready can with ⟨value, ready⟩
  refine ⟨value, rule.trigger.armAfter.toNat + rule.trigger.dwell.toNat + 1, ?_⟩
  apply Trigger.fireFrom_replicate ready
  · omega
  · omega
  · rw [Nat.cast_zero]
    omega
  · rw [Nat.cast_zero]
    omega

theorem unable_of_neverTrips (alone : FitAlone registry bundle.criticBudget bundle.rules)
    (never : NeverTrips registry bundle) :
    0 ≤ bundle.actionBudget ∨ ∀ rule ∈ bundle.rules, ¬ CanFire rule := by
  by_cases negative : bundle.actionBudget < 0
  · refine Or.inr (fun rule mem can => ?_)
    rcases exists_fireFrom can with ⟨value, steps, fires⟩
    rcases segment_probe registry (some bundle) (fun _ _ => value) (fun _ mem => mem) steps with
      ⟨halt, failed, stopped⟩ | ⟨last, segment, followed, _⟩
    · rcases never _ _ _ _ _ _ _ _ _ _ halt stopped with ⟨error, raised⟩
      exact absurd raised (ne_raised_of_follow failed error)
    · have fresh : (⟨rule, 0, 0⟩ : Slot) ∈ (freshCritic (some bundle)).slots :=
        List.mem_map_of_mem mem
      have unfired := fireFrom_of_follow_negative negative can.1 rfl fresh followed
      have series : (probeViews (fun _ _ => value) (registry.admitted bundle.criticBudget) 0 steps).map
          (reading rule.trigger.feature) = List.replicate steps value := by
        rw [readings_probeViews (alone rule mem), List.map_const', List.length_range']
      rw [← series] at fires
      exact fires unfired
  · exact Or.inl (not_lt.mp negative)

/-- A chain of rules that are admitted one by one stays within its budgets in every
run where its live features fit together; and only then, when every dwell is at
least one. -/
theorem chain_within_budget (registry : Registry) (repertoire : Repertoire) (rules : List Rule)
    (criticBudget actionBudget : Int) (bundle : Bundle) (alone : FitAlone registry criticBudget rules)
    (grown : Bundle.appendAll repertoire ⟨[], criticBudget, actionBudget, none⟩ rules = .ok bundle) :
    (Within registry bundle → NeverTrips registry bundle) ∧
    ((∀ rule ∈ rules, 1 ≤ rule.trigger.dwell) → NeverTrips registry bundle →
      Within registry bundle) := by
  rcases Bundle.rules_of_appendAll grown with ⟨rules_, budget, _⟩
  have chain : bundle.rules = rules := rules_
  have alone_ : FitAlone registry bundle.criticBudget bundle.rules := by
    rw [chain, budget]
    exact alone
  refine ⟨neverTrips_of_within alone_, fun dwell never => ⟨?_, unable_of_neverTrips alone_ never⟩⟩
  apply fits_of_neverTrips _ never
  rw [chain]
  exact dwell

/-- What a completed run was charged is at most what the bundle declares. -/
def Bounds (registry : Registry) (bundle : Bundle) : Prop :=
  ∀ (World Obs Action Goal Actor : Type) (plant : Plant World Obs Action Goal Actor)
    (spec : EpisodeSpec) (world : World) (obs : Obs) (stepBudget : Int) (segment : Segment Obs),
      governedSegment registry plant spec (some bundle) world obs stepBudget = .ok segment →
        ∃ declared, bundle.declaredPrivilege registry = some declared ∧
          segment.criticPrivilegeUsed ≤ declared

theorem used_of_follow {episode : String} {k : Nat} {views : List (FeatureView × Nat)}
    (chained : Chained rules critic) (shown : Shown names episode k views)
    (followed : critic.follow registry (some bundle) views = .ok last)
    (before : critic.privilegeUsed = 0 ∨ critic.privilegeUsed ≤ worst registry rules ∧
      (critic.privilegeUsed : Int) ≤ bundle.criticBudget) :
    last.privilegeUsed = 0 ∨ last.privilegeUsed ≤ worst registry rules ∧
      (last.privilegeUsed : Int) ≤ bundle.criticBudget := by
  induction views generalizing critic k with
  | nil =>
      cases followed
      exact before
  | cons first rest ih =>
      rcases of_bind followed with ⟨next, passed, later⟩
      rcases shown with ⟨⟨values, view, _⟩, shown⟩
      refine ih (chained.attend passed) shown later ?_
      rcases attend_cases passed with ⟨_, _, _, used⟩ | ⟨scanned, done, within, used, _⟩
      · rw [used]
        exact before
      · rw [view] at done
        have cost : scanned.1.privilegeUsed registry ≤ worst registry rules :=
          privilegeUsed_le_worst done chained.chain
        have fit : ¬ bundle.criticBudget < scanned.1.privilegeUsed registry := within
        rw [used]
        omega

theorem bounds_of_declared {declared : Nat} (declares : bundle.declaredPrivilege registry = some declared)
    (covers : worst registry bundle.rules ≤ declared ∨ bundle.criticBudget ≤ declared) :
    Bounds registry bundle := by
  intro World Obs Action Goal Actor plant spec world obs stepBudget segment ran
  refine ⟨declared, declares, ?_⟩
  rcases follow_of_segment ran with ⟨views, last, shown, followed, _, _, _, used, _⟩
  have charged := used_of_follow (chained_freshCritic bundle) shown followed (Or.inl rfl)
  rw [used]
  omega

/-- The worst case over the chain is declared as the worst rule of the chain: it
bounds what runs are charged where it covers all live features together, or the
budget; and only then, in a chain that stays within its budget and has no dwell
below one. -/
theorem declared_bounds_measured (registry : Registry) (bundle : Bundle) :
    ((∃ declared, bundle.declaredPrivilege registry = some declared ∧
        (worst registry bundle.rules ≤ declared ∨ bundle.criticBudget ≤ declared)) →
      Bounds registry bundle) ∧
    ((∀ rule ∈ bundle.rules, 1 ≤ rule.trigger.dwell) →
      FitAlone registry bundle.criticBudget bundle.rules →
      (bundle.rules = [] ∨ (worst registry bundle.rules : Int) ≤ bundle.criticBudget) →
      Bounds registry bundle →
      ∃ declared, bundle.declaredPrivilege registry = some declared ∧
        worst registry bundle.rules ≤ declared) := by
  constructor
  · rintro ⟨declared, declares, covers⟩
    exact bounds_of_declared declares covers
  · intro dwell alone fits bounded
    rcases exists_segment_blind dwell (fun rule member _ => alone rule member) fits with
      ⟨segment, ran, charged⟩
    rcases bounded _ _ _ _ _ _ _ _ _ _ segment ran with ⟨declared, declares, covers⟩
    refine ⟨declared, declares, ?_⟩
    by_cases some_ : bundle.rules = []
    · rw [some_]
      exact Nat.zero_le declared
    · exact (charged some_).trans covers

end

section

local instance pairSha : Sha256 := sha256

local instance pairFloats : FloatText := exactDecimals

/-- Half a unit below a privileged feature, for three steps. -/
def privilegedRule (ruleId feature : String) : Rule :=
  ⟨ruleId, ⟨feature, .lt, Double.nearest (1 / 2), 3, 0, .value⟩,
    ⟨"regrasp", none, Double.nearest (1 / 50), 1⟩⟩

def pairRules : List Rule :=
  [privilegedRule "g1" "privileged.object_z", privilegedRule "g2" "privileged.grasp_error"]

def pairRepertoire : Repertoire := ⟨[("regrasp", [⟨"approach", 20, RecoverySpec.zero, RecoverySpec.zero⟩])]⟩

theorem fitAlone_pairRules : FitAlone featureCatalog 1 pairRules := by
  intro rule mem
  refine (featureCatalog.mem_admitted_iff 1 _).mpr ⟨.privileged, ?_, le_refl 1⟩
  rcases List.mem_cons.mp mem with rfl | mem
  · rfl
  · rw [List.mem_singleton.mp mem]
    rfl

/-- Both read in the first step, which costs two. -/
theorem pair_trips_budget : FitAlone featureCatalog 1 pairRules ∧
    ∃ bundle, Bundle.appendAll pairRepertoire ⟨[], 1, 0, none⟩ pairRules = .ok bundle ∧
      governedSegment featureCatalog (probe (fun _ _ => Double.nearest 1) pairRules) probeSpec
        (some bundle) 0 0 1 = .error (.invariantViolation "critic") := by
  exact ⟨fitAlone_pairRules, _, rfl, rfl⟩

/-- The first of them alone never does. -/
theorem chain_within_budget_first : ∃ bundle,
    Bundle.appendAll pairRepertoire ⟨[], 1, 0, none⟩ [privilegedRule "g1" "privileged.object_z"] =
      .ok bundle ∧
    (Within featureCatalog bundle → NeverTrips featureCatalog bundle) ∧
    ((∀ rule ∈ [privilegedRule "g1" "privileged.object_z"], 1 ≤ rule.trigger.dwell) →
      NeverTrips featureCatalog bundle → Within featureCatalog bundle) := by
  refine ⟨_, rfl, chain_within_budget featureCatalog pairRepertoire
    [privilegedRule "g1" "privileged.object_z"] 1 0 _ ?_ rfl⟩
  intro rule member
  apply fitAlone_pairRules
  rw [List.mem_singleton.mp member]
  exact List.mem_cons_self

/-- With a budget of two the run completes: it is charged for both features, and the
declaration is the cost of one. -/
theorem pair_exceeds_declared :
    (⟨pairRules, 2, 0, none⟩ : Bundle).declaredPrivilege featureCatalog = some 1 ∧
    (governedSegment featureCatalog (probe (fun _ _ => Double.nearest 1) pairRules) probeSpec
      (some ⟨pairRules, 2, 0, none⟩) 0 0 1).map Segment.criticPrivilegeUsed = .ok 2 := by
  refine ⟨by decide +kernel, ?_⟩
  decide +kernel

end

end Rsi
end PhysicalHarness
