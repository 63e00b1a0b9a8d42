import PhysicalHarness.Rsi.Chain

namespace PhysicalHarness
namespace Rsi

open Python Harness JsonText Fallible

/-!
# A plant with given readings

Each feature reads what a table gives for the step, the driver is never exhausted,
a recovery is over at once, and nothing raises.  Every sequence of views is the one
that some environment shows.
-/

/-- The plant that reads `readings k name` at policy step `k`. -/
def probe (readings : Nat → String → Double) (rules : List Rule) : Plant Nat Nat Unit Unit Unit where
  extract := fun name obs => .ok (readings obs name)
  repertoire := ⟨rules.map (fun rule => (rule.recovery.name, []))⟩
  exhausted := fun _ => false
  act := fun world _ => .ok ((), world)
  step := fun world _ => .ok (world, false, world + 1)
  onHandback := fun world => .ok world
  clock := fun _ => none
  makeRecovery := none
  perceptObject := fun world _ _ _ => .ok ((), world)
  placeObject := fun world _ _ _ => .ok ((), world)
  retarget := fun world _ => .ok world
  retargetPlace := fun world _ => .ok world
  newActor := fun _ _ => .ok ()
  actorDone := fun _ _ => true
  actorAct := fun world _ _ => .ok ((), (), world)

/-- An episode without stages. -/
def probeSpec : EpisodeSpec := ⟨0, none⟩

def probeView (readings : Nat → String → Double) (names : List String) (k : Nat) : FeatureView :=
  project (names.map (fun name => (name, readings k name))) k "s0"

/-- The views of some steps from `k` on. -/
def probeViews (readings : Nat → String → Double) (names : List String) (k : Nat) :
    Nat → List (FeatureView × Nat)
  | 0 => []
  | left + 1 => (probeView readings names k, k) :: probeViews readings names (k + 1) left

theorem shown_probeViews (readings : Nat → String → Double) (names : List String) (k left : Nat) :
    Shown names "s0" k (probeViews readings names k left) := by
  induction left generalizing k with
  | zero => trivial
  | succ left ih =>
      refine ⟨⟨names.map (fun name => (name, readings k name)), rfl, ?_⟩, ih (k + 1)⟩
      rw [Assoc.keys, List.map_map]
      exact List.map_id _

/-- What a view reads for a feature. -/
def reading (name : String) (shown : FeatureView × Nat) : Double :=
  (Assoc.get? shown.1.values name).getD Double.nan

theorem readings_probeViews {readings : Nat → String → Double} {names : List String} {name : String}
    (admitted : name ∈ names) (k left : Nat) :
    (probeViews readings names k left).map (reading name) =
      (List.range' k left).map (fun step => readings step name) := by
  induction left generalizing k with
  | zero => rfl
  | succ left ih =>
      have here : Assoc.get? (names.map (fun name => (name, readings k name))) name =
          some (readings k name) := by
        clear ih
        induction names with
        | nil => exact absurd admitted List.not_mem_nil
        | cons first rest rest_ih =>
            rw [List.map_cons, Assoc.get?_cons]
            by_cases same : first = name
            · rw [if_pos same, same]
            · rw [if_neg same]
              exact rest_ih ((List.mem_cons.mp admitted).resolve_left (fun same_ => same same_.symm))
      rw [probeViews, List.map_cons, ih, List.range'_succ, List.map_cons, reading]
      congr 1
      change (Assoc.get? (names.map (fun name => (name, readings k name))) name).getD _ = _
      rw [here]
      rfl

theorem view_probe (readings : Nat → String → Double) (rules : List Rule) (names : List String)
    (obs k : Nat) : (probe readings rules).view probeSpec obs names k =
      .ok (project (names.map (fun name => (name, readings obs name))) k "s0") := by
  have each : names.mapM (fun name => ((probe readings rules).extract name obs).map
      (fun value => (name, value))) = .ok (names.map (fun name => (name, readings obs name))) := by
    rw [mapM_eq_ok_iff]
    induction names with
    | nil => exact List.Forall₂.nil
    | cons name rest ih => exact List.Forall₂.cons rfl ih
  rw [Plant.view, each]
  rfl

theorem startRecovery_probe (readings : Nat → String → Double) {rules : List Rule} {rule : Rule}
    (listed : rule ∈ rules) (world obs draw : Nat) :
    startRecovery (probe readings rules) world obs rule.recovery draw = .ok ((), world) := by
  have found : ∃ steps, rule.recovery.steps (probe readings rules).repertoire = .ok steps := by
    rw [RecoverySpec.steps]
    split
    · exact ⟨_, rfl⟩
    · have key : rule.recovery.name ∈
          Assoc.keys (rules.map (fun rule => (rule.recovery.name, ([] : List Step)))) :=
        List.mem_map.mpr ⟨_, List.mem_map_of_mem listed, rfl⟩
      rcases Assoc.get?_of_mem_keys key with ⟨steps, named⟩
      exact ⟨steps, by rw [Repertoire.strategy, probe, named]⟩
  rcases found with ⟨steps, resolved⟩
  rw [startRecovery, resolved]
  show (if isPlaceRecovery steps then _ else _) = _
  split <;> rfl

variable [Sha256] [FloatText]

variable {registry : Registry} {bundle : Option Bundle} {readings : Nat → String → Double}
  {rules : List Rule}

/-- A probe is at step `k` before the `k`-th policy step. -/
structure Ready (rules : List Rule) (drive : Drive Nat Nat Unit) : Prop where
  world : drive.world = drive.critic.k
  clock : drive.t = drive.critic.k
  board : drive.board = none
  known : ∀ slot ∈ drive.critic.slots, slot.rule ∈ rules

omit [Sha256] [FloatText] in
theorem known_of_rules {slots others : List Slot} (same : slots.map Slot.rule = others.map Slot.rule)
    (known : ∀ slot ∈ others, slot.rule ∈ rules) : ∀ slot ∈ slots, slot.rule ∈ rules := by
  intro slot mem
  have listed : slot.rule ∈ others.map Slot.rule := same ▸ List.mem_map_of_mem mem
  rcases List.mem_map.mp listed with ⟨other, member_, named⟩
  rw [← named]
  exact known other member_

variable (registry bundle readings) in
theorem govern_probe {drive : Drive Nat Nat Unit} (here : drive.obs = drive.critic.k)
    (board : drive.board = none) (known : ∀ slot ∈ drive.critic.slots, slot.rule ∈ rules) :
    (∃ halt, drive.critic.attend registry bundle
        (probeView readings (registry.admitted (criticBudget bundle)) drive.critic.k) (drive.t - 1) =
          .error halt ∧
      govern registry (probe readings rules) probeSpec bundle drive = .error halt) ∨
    (∃ critic next, drive.critic.attend registry bundle
        (probeView readings (registry.admitted (criticBudget bundle)) drive.critic.k) (drive.t - 1) =
          .ok critic ∧
      govern registry (probe readings rules) probeSpec bundle drive = .ok next ∧
      next.critic = critic ∧ next.world = drive.world ∧ next.t = drive.t ∧ next.board = none) := by
  have view := view_probe readings rules (registry.admitted (criticBudget bundle)) drive.obs
    drive.critic.k
  have shown : project ((registry.admitted (criticBudget bundle)).map (fun name =>
      (name, readings drive.obs name))) drive.critic.k "s0" =
      probeView readings (registry.admitted (criticBudget bundle)) drive.critic.k := by
    rw [probeView, here]
  rw [shown] at view
  rw [govern, view, Critic.attend, board]
  simp only [lift, Except.bind, stageStep]
  cases judged : (drive.critic.log (probeView readings (registry.admitted (criticBudget bundle))
      drive.critic.k)).judge registry (criticBudget bundle)
      (probeView readings (registry.admitted (criticBudget bundle)) drive.critic.k) with
  | error halt => exact Or.inl ⟨halt, rfl, rfl⟩
  | ok pair =>
      rcases pair with ⟨critic, _ | index⟩
      · exact Or.inr ⟨critic, _, rfl, rfl, rfl, rfl, rfl, rfl⟩
      simp only [Critic.respond, dispatch]
      rw [view_probe]
      simp only [lift, Except.bind]
      have nothing : ∀ values step, (project values step "s0").privilegeUsed registry = 0 :=
        fun _ _ => rfl
      rw [nothing]
      by_cases beyond : actionBudget bundle < 0
      · rw [if_pos beyond, if_pos (by exact_mod_cast beyond)]
        exact Or.inl ⟨_, rfl, rfl⟩
      rw [if_neg beyond, if_neg (by exact_mod_cast beyond)]
      cases found : (critic.fire index (drive.t - 1)).slots[index]? with
      | none => exact Or.inr ⟨_, _, rfl, rfl, rfl, rfl, rfl, rfl⟩
      | some slot =>
          have listed : slot.rule ∈ rules := by
            apply known_of_rules _ known slot (List.mem_of_getElem? found)
            exact (Critic.rules_of_fire critic index (drive.t - 1)).trans (Critic.rules_of_judge judged)
          simp only [startRecovery_probe readings listed]
          exact Or.inr ⟨_, _, rfl, rfl, rfl, rfl, rfl, rfl⟩

variable (registry bundle readings) in
theorem turn_probe {drive : Drive Nat Nat Unit} (ready : Ready rules drive) :
    (∃ halt, drive.critic.attend registry bundle
        (probeView readings (registry.admitted (criticBudget bundle)) drive.critic.k)
          drive.critic.k = .error halt ∧
      turn registry (probe readings rules) probeSpec bundle drive = .error halt) ∨
    (∃ critic next, drive.critic.attend registry bundle
        (probeView readings (registry.admitted (criticBudget bundle)) drive.critic.k)
          drive.critic.k = .ok critic ∧
      turn registry (probe readings rules) probeSpec bundle drive = .ok (.next next) ∧
      next.critic = critic ∧ Ready rules next) := by
  have handed : handBack (probe readings rules) drive = .ok { drive with recovery := none } := by
    rcases drive with ⟨world, obs, critic, _ | actor, t, board⟩ <;> rfl
  let stepped : Drive Nat Nat Unit :=
    ⟨drive.world + 1, drive.world, drive.critic, none, drive.t + 1, drive.board⟩
  have governed := govern_probe registry bundle readings
    (show stepped.obs = stepped.critic.k from ready.world) ready.board ready.known
  have same : turn registry (probe readings rules) probeSpec bundle drive =
      (govern registry (probe readings rules) probeSpec bundle stepped).map Turn.next := by
    rw [turn, handed]
    rfl
  have envStep : stepped.t - 1 = drive.critic.k := ready.clock
  rw [envStep] at governed
  rw [same]
  rcases governed with ⟨halt, failed, stopped⟩ | ⟨critic, next, passed, went, critic_, world, t, board⟩
  · exact Or.inl ⟨halt, failed, by rw [stopped]; rfl⟩
  · refine Or.inr ⟨critic, next, passed, by rw [went]; rfl, critic_, ?_⟩
    have k : critic.k = drive.critic.k + 1 := Critic.k_of_attend passed
    refine ⟨?_, ?_, board, ?_⟩
    · rw [world, critic_, k, ← ready.world]
    · rw [t, critic_, k, ← ready.clock]
    · rw [critic_]
      exact known_of_rules (Critic.rules_of_attend passed) ready.known

variable (registry bundle readings) in
theorem driveFor_probe (left : Nat) {drive : Drive Nat Nat Unit} (ready : Ready rules drive) :
    (∃ halt, drive.critic.follow registry bundle
        (probeViews readings (registry.admitted (criticBudget bundle)) drive.critic.k left) =
          .error halt ∧
      driveFor registry (probe readings rules) probeSpec bundle left drive = .error halt) ∨
    (∃ critic last, drive.critic.follow registry bundle
        (probeViews readings (registry.admitted (criticBudget bundle)) drive.critic.k left) =
          .ok critic ∧
      driveFor registry (probe readings rules) probeSpec bundle left drive = .ok last ∧
      last.critic = critic ∧ last.board = none) := by
  induction left generalizing drive with
  | zero => exact Or.inr ⟨drive.critic, drive, rfl, rfl, rfl, ready.board⟩
  | succ left ih =>
      rw [driveFor, probeViews, Critic.follow]
      rcases turn_probe registry bundle readings ready with
        ⟨halt, failed, stopped⟩ | ⟨critic, next, passed, went, rfl, ready_⟩
      · rw [failed, stopped]
        exact Or.inl ⟨halt, rfl, rfl⟩
      · rw [passed, went]
        have k : next.critic.k = drive.critic.k + 1 := Critic.k_of_attend passed
        have later := ih ready_
        rw [k] at later
        exact later

variable (registry bundle readings) in
theorem segment_probe (known : ∀ rule ∈ (bundle.map Bundle.rules).getD [], rule ∈ rules)
    (stepBudget : Nat) :
    (∃ halt, (freshCritic bundle).follow registry bundle
        (probeViews readings (registry.admitted (criticBudget bundle)) 0 stepBudget) = .error halt ∧
      governedSegment registry (probe readings rules) probeSpec bundle 0 0 stepBudget =
        .error halt) ∨
    (∃ critic segment, (freshCritic bundle).follow registry bundle
        (probeViews readings (registry.admitted (criticBudget bundle)) 0 stepBudget) = .ok critic ∧
      governedSegment registry (probe readings rules) probeSpec bundle 0 0 stepBudget =
        .ok segment ∧
      segment.fires = critic.fires ∧ segment.trace = critic.history ∧
        segment.criticPrivilegeUsed = critic.privilegeUsed) := by
  let start : Drive Nat Nat Unit := ⟨0, 0, freshCritic bundle, none, 0, none⟩
  have ready : Ready rules start := by
    refine ⟨rfl, rfl, rfl, ?_⟩
    intro slot mem
    rcases List.mem_map.mp mem with ⟨rule, listed, rfl⟩
    exact known rule listed
  rw [governedSegment, Int.toNat_natCast]
  rcases driveFor_probe registry bundle readings stepBudget ready with ⟨halt, failed, stopped⟩ | ⟨critic, last, passed, went, rfl, board⟩
  · refine Or.inl ⟨halt, failed, ?_⟩
    exact congrArg (fun run => Except.bind run _) stopped
  · have settled : settleStages registry (probe readings rules) probeSpec last.world last.obs
        last.critic.k last.board = .ok none := by
      rw [board]
      rfl
    let segment : Segment Nat := ⟨last.obs, last.t, last.critic.k, last.critic.fires,
      last.critic.chain, last.critic.privilegeUsed, last.critic.history, none⟩
    refine Or.inr ⟨last.critic, segment, passed, ?_, rfl, rfl, rfl⟩
    change (driveFor registry (probe readings rules) probeSpec bundle stepBudget start).bind _ = _
    rw [went]
    change (lift (settleStages registry (probe readings rules) probeSpec last.world last.obs
      last.critic.k last.board)).map _ = _
    rw [settled]
    rfl

theorem exists_segment_probe {bundle : Bundle}
    (present : ∀ rule ∈ bundle.rules, 1 ≤ rule.recovery.maxInvocations →
      rule.trigger.feature ∈ registry.admitted bundle.criticBudget)
    (fits : bundle.rules = [] ∨ (worst registry bundle.rules : Int) ≤ bundle.criticBudget)
    (allowed : 0 ≤ bundle.actionBudget ∨ ∀ rule ∈ bundle.rules, ¬ CanFire rule)
    (readings : Nat → String → Double) (stepBudget : Nat) :
    ∃ critic segment, (freshCritic (some bundle)).follow registry (some bundle)
        (probeViews readings (registry.admitted bundle.criticBudget) 0 stepBudget) = .ok critic ∧
      governedSegment registry (probe readings bundle.rules) probeSpec (some bundle) 0 0 stepBudget =
        .ok segment ∧
      segment.fires = critic.fires ∧ segment.trace = critic.history ∧
        segment.criticPrivilegeUsed = critic.privilegeUsed := by
  have passes : ∃ last, (freshCritic (some bundle)).follow registry (some bundle)
      (probeViews readings (registry.admitted bundle.criticBudget) 0 stepBudget) = .ok last :=
    exists_follow (chained_freshCritic bundle) present fits allowed
      (shown_probeViews readings _ 0 stepBudget)
  rcases passes with ⟨last, passed⟩
  have known : ∀ rule ∈ ((some bundle).map Bundle.rules).getD [], rule ∈ bundle.rules :=
    fun _ mem => mem
  rcases segment_probe registry (some bundle) readings known stepBudget with ⟨halt, failed, _⟩ | ran
  · cases failed.symm.trans passed
  · exact ran

end Rsi
end PhysicalHarness
