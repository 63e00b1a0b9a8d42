import PhysicalHarness.Rsi.Campaign
import PhysicalHarness.Rsi.Rollout

namespace PhysicalHarness
namespace Rsi

open Python Harness JsonText Fallible

/-!
# The blind twin of a rule

A rule and its twin read one feature from one step on, with the same repair left.  The twin
fires as soon as it may, so that the run under it cannot be told from the run under the rule
before that step, and the rule itself fires on that step or later.
-/

section

variable {World Obs Action Goal Actor : Type}

/-- Readings that are finite and above `-1e12`. -/
def Bounded (plant : Plant World Obs Action Goal Actor) : Prop :=
  ∀ name obs value, plant.extract name obs = .ok value →
    ∃ number, value.value.toRat? = some number ∧ -(10 ^ 12) < number

theorem neg_always : always.neg.value = .fin (-(10 ^ 12)) := by decide +kernel

theorem crosses_blindTwin (rule : Rule) {value : Double} {number : ℚ}
    (finite : value.value.toRat? = some number) (above : -(10 ^ 12) < number) :
    (blindTwin rule).trigger.crosses value = true := by
  have reads : (blindTwin rule).trigger.crosses value = always.neg.value.lt value.value := rfl
  rw [reads, neg_always]
  cases kind : value.value with
  | fin other =>
      rw [kind] at finite
      cases finite
      exact decide_eq_true above
  | negZero =>
      rw [kind] at finite
      cases finite
      exact decide_eq_true above
  | _ =>
      rw [kind] at finite
      cases finite

end

theorem visit_beside {step : Nat} {view : FeatureView} {rule : Rule} {consec : Nat}
    {visited : FeatureView × Slot × Bool}
    (passed : visit step view ⟨blindTwin rule, consec, 0⟩ = .ok visited) (consec_ : Nat) :
    ∃ visited_, visit step view ⟨rule, consec_, 0⟩ = .ok visited_ ∧ visited_.1 = visited.1 := by
  by_cases awake : Awake step ⟨rule, consec_, 0⟩
  · have awake_ : Awake step ⟨blindTwin rule, consec, 0⟩ := awake
    cases found : Assoc.get? view.values rule.trigger.feature with
    | none =>
        have missing := @visit_missing view step ⟨blindTwin rule, consec, 0⟩ awake_ found
        rw [missing] at passed
        cases passed
    | some value =>
        have reads := @visit_of_awake view step ⟨blindTwin rule, consec, 0⟩ value awake_ found
        rw [reads] at passed
        cases passed
        exact ⟨_, visit_of_awake awake found, rfl⟩
  · have asleep : ¬ Awake step ⟨blindTwin rule, consec, 0⟩ := awake
    rw [visit_of_not_awake view asleep] at passed
    cases passed
    exact ⟨_, visit_of_not_awake view awake, rfl⟩

theorem scan_beside {step : Nat} {view : FeatureView} {rule : Rule} {shared : List Slot}
    {consec : Nat} {scanned : FeatureView × List Slot × Option Nat}
    (passed : scan step view (shared ++ [⟨blindTwin rule, consec, 0⟩]) = .ok scanned) (consec_ : Nat) :
    ∃ scanned_, scan step view (shared ++ [⟨rule, consec_, 0⟩]) = .ok scanned_ ∧
      scanned_.1 = scanned.1 := by
  induction shared generalizing view scanned with
  | nil =>
      rcases of_bind passed with ⟨visited, here, later⟩
      cases later
      rcases visit_beside here consec_ with ⟨visited_, here_, same⟩
      refine ⟨_, bind_eq_ok.mpr ⟨visited_, here_, rfl⟩, same⟩
  | cons slot rest ih =>
      rcases of_bind passed with ⟨visited, here, later⟩
      rcases map_eq_ok.mp later with ⟨others, there, rfl⟩
      rcases ih there with ⟨others_, there_, same⟩
      exact ⟨_, bind_eq_ok.mpr ⟨visited, here, map_eq_ok.mpr ⟨others_, there_, rfl⟩⟩, same⟩

/-- Two critics that differ in the last slot only: the twin's, and the rule's. -/
def Critic.Beside (rule : Rule) (count : Nat) (critic critic_ : Critic) : Prop :=
  ∃ shared consec consec_, shared.length = count ∧
    critic.slots = shared ++ [⟨blindTwin rule, consec, 0⟩] ∧
    critic_ = { critic with slots := shared ++ [⟨rule, consec_, 0⟩] }

/-- What the two critics make of one view. -/
inductive Judged (rule : Rule) (count : Nat) (step : Nat) : Option Nat → Option Nat → Prop where
  /-- A rule of the parent fires in both. -/
  | parent {index : Nat} (inside : index < count) : Judged rule count step (some index) (some index)
  | none (unarmed : (step : Int) < rule.trigger.armAfter) : Judged rule count step none none
  | fires {fired : Option Nat} (armed : rule.trigger.armAfter ≤ step)
      (either : fired = Option.none ∨ fired = some count) : Judged rule count step (some count) fired

theorem judge_of_scan {registry : Registry} {budget : Int} {critic : Critic} {view : FeatureView}
    {scanned : FeatureView × List Slot × Option Nat} (some_ : critic.slots ≠ [])
    (scans : scan (critic.k - 1) view critic.slots = .ok scanned)
    (within : ¬ budget < scanned.1.privilegeUsed registry) :
    critic.judge registry budget view = .ok ({ critic with
      slots := scanned.2.1
      privilegeUsed := max critic.privilegeUsed (scanned.1.privilegeUsed registry) }, scanned.2.2) := by
  have nonempty : critic.slots.isEmpty = false := by
    rw [List.isEmpty_eq_false_iff]
    exact some_
  rw [Critic.judge, nonempty, scans]
  exact if_neg within

theorem held_of_asleep {step : Nat} {values : List (String × Double)} {slot : Slot}
    (asleep : ¬ Awake step slot) : held step values slot = false :=
  decide_eq_false (fun both => asleep both.1)

theorem held_blindTwin {step : Nat} {values : List (String × Double)} {rule : Rule} {consec : Nat}
    {value : Double} (awake : Awake step ⟨blindTwin rule, consec, 0⟩)
    (reads : Assoc.get? values rule.trigger.feature = some value)
    (crosses : (blindTwin rule).trigger.crosses value = true) :
    held step values ⟨blindTwin rule, consec, 0⟩ = true := by
  have read : seen values ⟨blindTwin rule, consec, 0⟩ = value := by
    have found : Assoc.get? values (blindTwin rule).trigger.feature = some value := reads
    rw [seen, found]
    rfl
  rw [held, read, counted, if_pos crosses]
  refine decide_eq_true ⟨awake, ?_⟩
  have dwell : (blindTwin rule).trigger.dwell = 1 := rfl
  rw [dwell]
  omega

theorem judge_beside {registry : Registry} {budget : Int} {rule : Rule} {count : Nat}
    {critic critic_ : Critic} {view : FeatureView} {judged : Critic × Option Nat}
    (invocations : 1 ≤ rule.recovery.maxInvocations)
    (bounded : ∀ value, Assoc.get? view.values rule.trigger.feature = some value →
      (blindTwin rule).trigger.crosses value = true)
    (beside : critic.Beside rule count critic_) (passed : critic.judge registry budget view = .ok judged) :
    ∃ judged_, critic_.judge registry budget view = .ok judged_ ∧
      judged.1.Beside rule count judged_.1 ∧ judged.1.k = critic.k ∧
      Judged rule count (critic.k - 1) judged.2 judged_.2 := by
  rcases beside with ⟨shared, consec, consec_, length, slots, rfl⟩
  rcases Critic.judge_cases passed with ⟨empty, _⟩ | ⟨scanned, scans, within, rfl⟩
  · rw [slots] at empty
    exact absurd empty (List.append_ne_nil_of_right_ne_nil _ (List.cons_ne_nil _ _))
  have here := scan_eq scans
  have found := found_of_scan scans
  rw [slots] at scans here found
  rcases scan_beside scans consec_ with ⟨scanned_, scans_, same⟩
  have here_ := scan_eq scans_
  rw [List.map_append, List.map_singleton, List.findIdx?_append, List.findIdx?_singleton] at here here_
  let critic_ : Critic := { critic with slots := shared ++ [⟨rule, consec_, 0⟩] }
  have some_ : critic_.slots ≠ [] := List.append_ne_nil_of_right_ne_nil _ (List.cons_ne_nil _ _)
  rw [← same] at within
  refine ⟨_, judge_of_scan some_ scans_ within, ?_, rfl, ?_⟩
  · refine ⟨shared.map (stepped (critic.k - 1) view.values), _,
      (stepped (critic.k - 1) view.values ⟨rule, consec_, 0⟩).consec, ?_, congrArg Prod.fst here, ?_⟩
    · rw [List.length_map]
      exact length
    · simp only [congrArg Prod.fst here_, same]
      rfl
  · simp only [congrArg Prod.snd here, congrArg Prod.snd here_]
    cases first : shared.findIdx? (held (critic.k - 1) view.values) with
    | some index =>
        rcases List.findIdx?_eq_some_iff_getElem.mp first with ⟨inside, _, _⟩
        rw [length] at inside
        exact .parent inside
    | none =>
        simp only [Option.none_or, length]
        by_cases armed : rule.trigger.armAfter ≤ (critic.k - 1 : Nat)
        · have awake : Awake (critic.k - 1) ⟨blindTwin rule, consec, 0⟩ := ⟨invocations, armed⟩
          rcases found _ (List.mem_append_right _ (.head _)) awake with ⟨value, reads⟩
          have fires := held_blindTwin awake reads (bounded value reads)
          rw [if_pos fires, Option.map_some, Nat.zero_add]
          apply Judged.fires armed
          by_cases other : held (critic.k - 1) view.values ⟨rule, consec_, 0⟩ = true
          · rw [if_pos other, Option.map_some, Nat.zero_add]
            exact Or.inr rfl
          · rw [if_neg other]
            exact Or.inl rfl
        · have asleep (consec : Nat) : ¬ Awake (critic.k - 1) ⟨rule, consec, 0⟩ := fun awake => armed awake.2
          have quiet : held (critic.k - 1) view.values ⟨blindTwin rule, consec, 0⟩ = false :=
            held_of_asleep (asleep consec)
          rw [quiet, held_of_asleep (asleep consec_)]
          exact .none (not_le.mp armed)

/-! ## The loop -/

theorem slot_fire_parent {rule : Rule} {count index : Nat} {critic critic_ : Critic}
    (beside : critic.Beside rule count critic_) (inside : index < count) (envStep : Nat) :
    (critic.fire index envStep).Beside rule count (critic_.fire index envStep) ∧
      (critic_.fire index envStep).slots[index]? = (critic.fire index envStep).slots[index]? := by
  rcases beside with ⟨shared, consec, consec_, length, slots, rfl⟩
  have inside_ : index < shared.length := by
    rw [length]
    exact inside
  have lengths : ((shared.modify index (fun slot => { slot with used := slot.used + 1 })).map
      (fun slot => { slot with consec := 0 })).length = count := by
    rw [List.length_map, List.length_modify, length]
  have fired : (critic.fire index envStep).slots =
      (shared.modify index (fun slot => { slot with used := slot.used + 1 })).map
        (fun slot => { slot with consec := 0 }) ++ [⟨blindTwin rule, 0, 0⟩] := by
    rw [Critic.fire]
    simp only []
    rw [slots, modify_append_left _ _ inside_, List.map_append]
    rfl
  have fired_ : (Critic.fire { critic with slots := shared ++ [⟨rule, consec_, 0⟩] } index envStep).slots =
      (shared.modify index (fun slot => { slot with used := slot.used + 1 })).map
        (fun slot => { slot with consec := 0 }) ++ [⟨rule, 0, 0⟩] := by
    rw [Critic.fire]
    simp only []
    rw [modify_append_left _ _ inside_, List.map_append]
    rfl
  constructor
  · refine ⟨_, 0, 0, lengths, fired, ?_⟩
    rw [← fired_, Critic.fire, Critic.fire]
    simp only []
    rw [slots, List.getElem?_append_left inside_, List.getElem?_append_left inside_]
  · rw [fired, fired_, List.getElem?_append_left (lengths ▸ inside),
      List.getElem?_append_left (lengths ▸ inside)]

theorem slot_fire_last {rule : Rule} {count : Nat} {critic critic_ : Critic}
    (beside : critic.Beside rule count critic_) (envStep : Nat) :
    (critic.fire count envStep).slots[count]? = some ⟨blindTwin rule, 0, 1⟩ ∧
      (critic_.fire count envStep).slots[count]? = some ⟨rule, 0, 1⟩ := by
  rcases beside with ⟨shared, consec, consec_, length, slots, rfl⟩
  have last (slot : Slot) : (((shared ++ [slot]).modify count
      (fun slot => { slot with used := slot.used + 1 })).map
        (fun slot => { slot with consec := 0 }))[count]? = some { slot with consec := 0, used := slot.used + 1 } := by
    rw [List.getElem?_map, List.getElem?_modify_eq, ← length, List.getElem?_append_right le_rfl,
      Nat.sub_self]
    rfl
  constructor
  · rw [Critic.fire]
    simp only []
    rw [slots, last]
  · rw [Critic.fire]
    simp only []
    rw [last]

section

variable {World Obs Action Goal Actor : Type} {plant : Plant World Obs Action Goal Actor}
  {registry : Registry} {spec : EpisodeSpec}

theorem dispatch_under {bundle bundle_ : Option Bundle} (budget : actionBudget bundle_ = actionBudget bundle)
    {drive next : Drive World Obs Actor} {critic_ : Critic} {index : Nat} {slot slot_ : Slot}
    (k : critic_.k = drive.critic.k)
    (here : (drive.critic.fire index (drive.t - 1)).slots[index]? = some slot)
    (here_ : (critic_.fire index (drive.t - 1)).slots[index]? = some slot_)
    (recovery : slot_.rule.recovery = slot.rule.recovery) (used : slot_.used = slot.used)
    (ran : dispatch registry plant spec bundle drive index = .ok next) :
    dispatch registry plant spec bundle_ (drive.under critic_) index =
        .ok (next.under (critic_.fire index (drive.t - 1))) ∧
      next.critic = drive.critic.fire index (drive.t - 1) := by
  rcases of_bind ran with ⟨view, seen, later⟩
  split at later
  · cases later
  rename_i within
  simp only [here] at later
  rcases map_eq_ok.mp later with ⟨started, starts, rfl⟩
  refine ⟨bind_eq_ok.mpr ⟨view, ?_, ?_⟩, rfl⟩
  · rw [budget, ← seen]
    simp only [Drive.under, k]
  · rw [budget, if_neg within]
    simp only [Drive.under, here_]
    rw [recovery, used, starts]
    rfl

structure Siblings (rule : Rule) (parent : List Rule) (twin child : Option Bundle) : Prop where
  twins : rulesOf twin = parent ++ [blindTwin rule]
  rules : rulesOf child = parent ++ [rule]
  critic : criticBudget child = criticBudget twin
  action : actionBudget child = actionBudget twin

variable [Sha256] [FloatText] {rule : Rule} {twin child : Option Bundle} {parent : List Rule}
  {count : Nat}

inductive GovernsBeside (registry : Registry) (plant : Plant World Obs Action Goal Actor) (spec : EpisodeSpec)
    (rule : Rule) (child : Option Bundle) (count : Nat) (drive_ : Drive World Obs Actor) (k : Nat) :
    Drive World Obs Actor → Option Nat → Prop where
  /-- The two agree, before the arming or where a rule of the parent fires. -/
  | agree {next : Drive World Obs Actor} {fired : Option Nat} (critic_ : Critic)
      (ran : governAt registry plant spec child drive_ = .ok (next.under critic_, fired))
      (beside : next.critic.Beside rule count critic_) (clock : next.critic.k = k + 1)
      (shut : (fired = none ∧ (k : Int) < rule.trigger.armAfter) ∨ ∃ index < count, fired = some index) :
      GovernsBeside registry plant spec rule child count drive_ k next fired
  | fires {next : Drive World Obs Actor} (next_ : Drive World Obs Actor) (fired : Option Nat)
      (ran : governAt registry plant spec child drive_ = .ok (next_, fired))
      (armed : rule.trigger.armAfter ≤ k) (either : fired = none ∨ fired = some count) :
      GovernsBeside registry plant spec rule child count drive_ k next (some count)

theorem governAt_beside (bounded : Bounded plant) (invocations : 1 ≤ rule.recovery.maxInvocations)
    (siblings : Siblings rule parent twin child) {drive next : Drive World Obs Actor} {critic_ : Critic}
    {fired : Option Nat} (beside : drive.critic.Beside rule count critic_)
    (ran : governAt registry plant spec twin drive = .ok (next, fired)) :
    GovernsBeside registry plant spec rule child count (drive.under critic_) drive.critic.k next fired := by
  rcases of_bind ran with ⟨view, seen, later⟩
  rcases of_bind later with ⟨board, crossed, later⟩
  rcases of_bind later with ⟨⟨critic, index⟩, judges, later⟩
  have k : critic_.k = drive.critic.k := by
    rcases beside with ⟨_, _, _, _, _, rfl⟩
    rfl
  have seen_ : lift (plant.view spec (drive.under critic_).obs (registry.admitted (criticBudget child))
      (drive.under critic_).critic.k) = .ok view := by
    rw [siblings.critic, ← seen]
    simp only [Drive.under, k]
  have logged : (drive.critic.log view).Beside rule count (critic_.log view) := by
    rcases beside with ⟨shared, consec, consec_, length, slots, rfl⟩
    exact ⟨shared, consec, consec_, length, slots, rfl⟩
  have crossed_ : lift (stageStep registry plant spec (drive.under critic_).world (drive.under critic_).obs
      ((drive.under critic_).critic.log view).k (drive.under critic_).board) = .ok board := by
    rw [← crossed]
    simp only [Drive.under, Critic.log, k]
  have extracted := extracted_of_view (lift_eq_ok.mp seen)
  have crosses : ∀ value, Assoc.get? view.values rule.trigger.feature = some value →
      (blindTwin rule).trigger.crosses value = true := by
    intro value found
    rcases bounded _ _ _ (extracted _ _ found) with ⟨number, finite, above⟩
    exact crosses_blindTwin rule finite above
  rcases judge_beside invocations crosses logged judges with ⟨⟨judged_, index_⟩, judges_, beside_, clock, same⟩
  have judges__ : ((drive.under critic_).critic.log view).judge registry (criticBudget child) view =
      .ok (judged_, index_) := by
    rw [siblings.critic]
    exact judges_
  have step : (drive.critic.log view).k - 1 = drive.critic.k := rfl
  rw [step] at same
  dsimp only at same beside_ clock later
  let governed : Drive World Obs Actor := { drive with critic, board }
  have k_ : judged_.k = critic.k := by
    rcases beside_ with ⟨_, _, _, _, _, rfl⟩
    rfl
  cases same with
  | @parent index inside =>
      rcases map_eq_ok.mp later with ⟨next, starts, chosen⟩
      cases chosen
      rcases slot_fire_parent beside_ inside (drive.t - 1) with ⟨after, slots⟩
      have within : index < (critic.fire index (drive.t - 1)).slots.length := by
        rcases after with ⟨shared, _, _, length, slots, _⟩
        rw [slots, List.length_append]
        omega
      have here := List.getElem?_eq_getElem within
      have under := @dispatch_under _ _ _ _ _ _ _ _ _ _ siblings.action governed next judged_ index _
        (critic.fire index (drive.t - 1)).slots[index] k_ here (slots.trans here) rfl rfl starts
      rcases under with ⟨starts_, critics⟩
      refine .agree (judged_.fire index (drive.t - 1)) (bind_eq_ok.mpr ⟨view, seen_,
        bind_eq_ok.mpr ⟨board, crossed_, bind_eq_ok.mpr ⟨_, judges__, map_eq_ok.mpr ⟨_, starts_, rfl⟩⟩⟩⟩)
        ?_ ?_ (Or.inr ⟨index, inside, rfl⟩)
      · rw [critics]
        exact after
      · rw [critics]
        exact clock
  | none unarmed =>
      cases later
      exact .agree judged_ (bind_eq_ok.mpr ⟨view, seen_, bind_eq_ok.mpr ⟨board, crossed_,
        bind_eq_ok.mpr ⟨_, judges__, rfl⟩⟩⟩) beside_ clock (Or.inl ⟨rfl, unarmed⟩)
  | @fires fired armed either =>
      rcases map_eq_ok.mp later with ⟨next, starts, chosen⟩
      cases chosen
      rcases either with rfl | rfl
      · exact .fires (governed.under judged_) none (bind_eq_ok.mpr ⟨view, seen_, bind_eq_ok.mpr ⟨board,
          crossed_, bind_eq_ok.mpr ⟨_, judges__, rfl⟩⟩⟩) armed (Or.inl rfl)
      · rcases slot_fire_last beside_ (drive.t - 1) with ⟨here, here_⟩
        have under := @dispatch_under _ _ _ _ _ _ _ _ _ _ siblings.action governed next judged_ count _ _
          k_ here here_ rfl rfl starts
        rcases under with ⟨starts_, _⟩
        exact .fires _ (some count) (bind_eq_ok.mpr ⟨view, seen_, bind_eq_ok.mpr ⟨board, crossed_,
          bind_eq_ok.mpr ⟨_, judges__, map_eq_ok.mpr ⟨_, starts_, rfl⟩⟩⟩⟩) armed (Or.inr rfl)

/-- A step of the policy from the arming on, at which no rule of the parent fires. -/
structure Vacant (rule : Rule) (count policySteps : Nat) (moment : Moment Action Obs) : Prop where
  governed : moment.governed = true
  armed : rule.trigger.armAfter ≤ policySteps
  unclaimed : ∀ index, moment.fired = some index → count ≤ index

inductive Watches (registry : Registry) (plant : Plant World Obs Action Goal Actor) (spec : EpisodeSpec)
    (rule : Rule) (child : Option Bundle) (count : Nat) (drive_ : Drive World Obs Actor) (k : Nat) :
    Turn World Obs Actor → Option (Moment Action Obs) → Prop where
  | stop {drive : Drive World Obs Actor} {moment : Option (Moment Action Obs)} (critic_ : Critic)
      (ran : watch registry plant spec child drive_ = .ok (.stop (drive.under critic_), moment))
      (unseen : ∀ step ∈ moment, step.governed = false ∧ step.fired = none) :
      Watches registry plant spec rule child count drive_ k (.stop drive) moment
  | next {drive : Drive World Obs Actor} {moment : Moment Action Obs} (critic_ : Critic)
      (ran : watch registry plant spec child drive_ = .ok (.next (drive.under critic_), some moment))
      (beside : drive.critic.Beside rule count critic_)
      (clock : drive.critic.k = k + moment.governed.toNat)
      (quiet : moment.fired ≠ some count) (shut : ¬ Vacant rule count k moment) :
      Watches registry plant spec rule child count drive_ k (.next drive) (some moment)
  | fires {drive : Drive World Obs Actor} {moment : Moment Action Obs} (turned : Turn World Obs Actor)
      (fired : Option Nat)
      (ran : watch registry plant spec child drive_ = .ok (turned, some { moment with fired }))
      (vacant : Vacant rule count k moment) (here : moment.fired = some count)
      (either : fired = none ∨ fired = some count) :
      Watches registry plant spec rule child count drive_ k (.next drive) (some moment)

theorem watch_beside (bounded : Bounded plant) (invocations : 1 ≤ rule.recovery.maxInvocations)
    (siblings : Siblings rule parent twin child) {drive : Drive World Obs Actor} {critic_ : Critic}
    {watched : Turn World Obs Actor × Option (Moment Action Obs)}
    (beside : drive.critic.Beside rule count critic_)
    (ran : watch registry plant spec twin drive = .ok watched) :
    Watches registry plant spec rule child count (drive.under critic_) drive.critic.k watched.1
      watched.2 := by
  rcases of_bind ran with ⟨first, handed, later⟩
  have idle := unattended_of_handBack (lift_eq_ok.mp handed)
  have handed_ : lift (handBack plant (drive.under critic_)) = .ok (first.under critic_) := by
    rw [handBack_under, lift_eq_ok.mp handed]
    rfl
  rcases of_bind later with ⟨commanded, commands, later⟩
  have commands_ : lift (command plant (first.under critic_)) = .ok (commanded.map (fun commanded =>
      (commanded.1, commanded.2.1, commanded.2.2.under critic_))) := by
    rw [command_under, lift_eq_ok.mp commands]
    rfl
  rcases commanded with _ | ⟨action, owned, second⟩
  · cases later
    exact .stop critic_ (bind_eq_ok.mpr ⟨_, handed_, bind_eq_ok.mpr ⟨_, commands_, rfl⟩⟩)
      (fun _ never => absurd never (Option.not_mem_none _))
  have idle_ := unattended_of_command (lift_eq_ok.mp commands)
  have critic : second.critic = drive.critic := idle_.critic.trans idle.critic
  rcases of_bind later with ⟨⟨obs, done, world⟩, steps, later⟩
  let stepped : Drive World Obs Actor := { second with world, obs, t := second.t + 1 }
  cases done with
  | true =>
      cases later
      refine .stop critic_ (bind_eq_ok.mpr ⟨_, handed_, bind_eq_ok.mpr ⟨_, commands_,
        bind_eq_ok.mpr ⟨_, steps, rfl⟩⟩⟩) (fun step mem => ?_)
      rw [← Option.some.inj mem]
      exact ⟨Bool.and_false owned, rfl⟩
  | false =>
      cases owned with
      | false =>
          cases later
          refine .next critic_ (bind_eq_ok.mpr ⟨_, handed_, bind_eq_ok.mpr ⟨_, commands_,
            bind_eq_ok.mpr ⟨_, steps, rfl⟩⟩⟩) ?_ ?_ nofun
            (fun vacant => by cases vacant.governed)
          · rw [← critic] at beside
            exact beside
          · rw [← critic]
            rfl
      | true =>
          rcases map_eq_ok.mp later with ⟨⟨next, fired⟩, governs, rfl⟩
          have beside_ : stepped.critic.Beside rule count critic_ := by
            rw [← critic] at beside
            exact beside
          have governs_ := governAt_beside bounded invocations siblings beside_ governs
          have same : stepped.critic.k = drive.critic.k := congrArg Critic.k critic
          rw [same] at governs_
          cases governs_ with
          | agree critic_ ran_ beside clock shut =>
              refine .next critic_ (bind_eq_ok.mpr ⟨_, handed_, bind_eq_ok.mpr ⟨_, commands_,
                bind_eq_ok.mpr ⟨_, steps, map_eq_ok.mpr ⟨_, ran_, rfl⟩⟩⟩⟩) beside clock ?_ ?_
              · rcases shut with ⟨rfl, _⟩ | ⟨index, inside, rfl⟩
                · exact nofun
                · exact fun other => absurd (Option.some.inj other) (Nat.ne_of_lt inside)
              · rintro ⟨_, armed, unclaimed⟩
                rcases shut with ⟨_, unarmed⟩ | ⟨index, inside, rfl⟩
                · omega
                · exact absurd (unclaimed index rfl) (Nat.not_le.mpr inside)
          | fires next_ fired ran_ armed either =>
              refine .fires (.next next_) fired (bind_eq_ok.mpr ⟨_, handed_, bind_eq_ok.mpr ⟨_, commands_,
                bind_eq_ok.mpr ⟨_, steps, map_eq_ok.mpr ⟨_, ran_, rfl⟩⟩⟩⟩) ⟨rfl, armed, ?_⟩ rfl either
              intro index chosen
              exact (Option.some.inj chosen).le

/-- No step of a run, of which some policy steps came before, is vacant. -/
def Shut (rule : Rule) (count policySteps : Nat) (moments : List (Moment Action Obs)) : Prop :=
  ∀ before moment after, moments = before ++ moment :: after →
    ¬ Vacant rule count (policySteps + before.countP Moment.governed) moment

omit [Sha256] [FloatText] in
theorem shut_nil {policySteps : Nat} : Shut rule count policySteps ([] : List (Moment Action Obs)) := by
  intro before moment after split
  exact absurd split (List.append_ne_nil_of_right_ne_nil _ (List.cons_ne_nil _ _)).symm

omit [Sha256] [FloatText] in
theorem shut_cons {policySteps : Nat} {moment : Moment Action Obs} {rest : List (Moment Action Obs)}
    (here : ¬ Vacant rule count policySteps moment)
    (later : Shut rule count (policySteps + moment.governed.toNat) rest) :
    Shut rule count policySteps (moment :: rest) := by
  intro before other after split
  cases before with
  | nil =>
      cases split
      exact here
  | cons first before =>
      cases split
      have inner := later before other after rfl
      rw [List.countP_cons]
      cases governed : moment.governed with
      | false =>
          rw [governed] at inner
          simpa using inner
      | true =>
          rw [governed] at inner
          simpa [Nat.add_assoc, Nat.add_comm 1] using inner

inductive Controls (rule : Rule) (count : Nat)
    (run : Nat → Except Halt (List (Moment Action Obs) × Drive World Obs Actor)) (left policySteps : Nat)
    (moments : List (Moment Action Obs)) : Prop where
  /-- The twin does not fire, and nothing differs. -/
  | idle (last : Drive World Obs Actor) (ran : run left = .ok (moments, last))
      (quiet : ∀ moment ∈ moments, moment.fired ≠ some count) (shut : Shut rule count policySteps moments)
  /-- The twin fires on the first vacant step, to which the rule comes in the same way. -/
  | fires (before : List (Moment Action Obs)) (moment : Moment Action Obs)
      (rest : List (Moment Action Obs)) (fired : Option Nat) (last : Drive World Obs Actor)
      (split : moments = before ++ moment :: rest) (here : moment.fired = some count)
      (vacant : Vacant rule count (policySteps + before.countP Moment.governed) moment)
      (quiet : ∀ earlier ∈ before, earlier.fired ≠ some count) (shut : Shut rule count policySteps before)
      (ran : run (before.length + 1) = .ok (before ++ [{ moment with fired }], last))
      (either : fired = none ∨ fired = some count) :
      Controls rule count run left policySteps moments

theorem transcript_beside (bounded : Bounded plant) (invocations : 1 ≤ rule.recovery.maxInvocations)
    (siblings : Siblings rule parent twin child) {left : Nat} {drive last : Drive World Obs Actor}
    {critic_ : Critic} {moments : List (Moment Action Obs)}
    (beside : drive.critic.Beside rule count critic_)
    (ran : transcript registry plant spec twin left drive = .ok (moments, last)) :
    Controls rule count (fun left => transcript registry plant spec child left (drive.under critic_)) left
      drive.critic.k moments := by
  induction left generalizing drive critic_ moments with
  | zero =>
      cases ran
      exact .idle _ rfl (List.forall_mem_nil _) shut_nil
  | succ left ih =>
      rcases of_bind ran with ⟨⟨turned, seen⟩, watches, later⟩
      have both := watch_beside bounded invocations siblings beside watches
      dsimp only at both later
      cases both with
      | stop critic_ ran_ unseen =>
          cases later
          refine .idle _ (bind_eq_ok.mpr ⟨_, ran_, rfl⟩) (fun step mem => ?_) ?_
          · rw [(unseen step (Option.mem_toList.mp mem)).2]
            exact nofun
          · intro before step after split
            have mem : step ∈ seen.toList := split ▸ List.mem_append_right _ List.mem_cons_self
            intro vacant
            have governed := vacant.governed
            rw [(unseen step (Option.mem_toList.mp mem)).1] at governed
            cases governed
      | @next drive moment critic_ ran_ beside clock quiet shut =>
          rcases map_eq_ok.mp later with ⟨rest, went, same⟩
          cases same
          have rest_ := ih beside went
          rw [clock] at rest_
          have quiets (more : List (Moment Action Obs)) (others : ∀ step ∈ more, step.fired ≠ some count) :
              ∀ step ∈ moment :: more, step.fired ≠ some count := by
            intro step mem
            rcases List.mem_cons.mp mem with rfl | later
            · exact quiet
            · exact others step later
          cases rest_ with
          | idle last ran quiet_ shut_ =>
              exact .idle last (bind_eq_ok.mpr ⟨_, ran_, map_eq_ok.mpr ⟨_, ran, rfl⟩⟩) (quiets _ quiet_)
                (shut_cons shut shut_)
          | fires before moment_ rest_ fired last split here vacant quiet_ shut_ ran either =>
              refine .fires (moment :: before) moment_ rest_ fired last ?_ here ?_ (quiets _ quiet_)
                (shut_cons shut shut_) (bind_eq_ok.mpr ⟨_, ran_, map_eq_ok.mpr ⟨_, ran, rfl⟩⟩) either
              · rw [split]
                rfl
              · rw [List.countP_cons]
                cases governed : moment.governed with
                | false =>
                    rw [governed] at vacant
                    simpa using vacant
                | true =>
                    rw [governed] at vacant
                    simpa [Nat.add_assoc, Nat.add_comm 1] using vacant
      | @fires next moment turned fired ran_ vacant here either =>
          rcases map_eq_ok.mp later with ⟨rest, went, same⟩
          cases same
          have ended : ∃ last, transcript registry plant spec child 1
              (drive.under critic_) = .ok ([{ moment with fired }], last) := by
            cases turned with
            | stop last => exact ⟨last, bind_eq_ok.mpr ⟨_, ran_, rfl⟩⟩
            | next last => exact ⟨last, bind_eq_ok.mpr ⟨_, ran_, rfl⟩⟩
          rcases ended with ⟨last_, ended⟩
          exact .fires [] moment rest.1 fired last_ rfl here vacant
            (List.forall_mem_nil _) shut_nil ended either

theorem length_of_transcript {bundle : Option Bundle} {left : Nat} {drive : Drive World Obs Actor}
    {ran : List (Moment Action Obs) × Drive World Obs Actor}
    (went : transcript registry plant spec bundle left drive = .ok ran) : ran.1.length ≤ left := by
  induction left generalizing drive ran with
  | zero =>
      cases went
      exact le_rfl
  | succ left ih =>
      rcases of_bind went with ⟨⟨turned, seen⟩, _, later⟩
      have one : seen.toList.length ≤ 1 := by
        cases seen with
        | none => exact Nat.zero_le 1
        | some moment => exact le_rfl
      cases turned with
      | stop last =>
          cases later
          exact one.trans (Nat.le_add_left 1 left)
      | next next =>
          rcases map_eq_ok.mp later with ⟨rest, there, rfl⟩
          have after := ih there
          have sum : (seen.toList ++ rest.1).length ≤ left + 1 := by
            rw [List.length_append]
            omega
          exact sum

theorem initial_of_transcripts {bundle : Option Bundle} {few more : Nat} (le : few ≤ more)
    {drive : Drive World Obs Actor} {ran ran_ : List (Moment Action Obs) × Drive World Obs Actor}
    (went : transcript registry plant spec bundle few drive = .ok ran)
    (went_ : transcript registry plant spec bundle more drive = .ok ran_) : ran.1 <+: ran_.1 := by
  induction few generalizing more drive ran ran_ with
  | zero =>
      cases went
      exact List.nil_prefix
  | succ few ih =>
      cases more with
      | zero => exact absurd le (Nat.not_succ_le_zero few)
      | succ more =>
          rcases of_bind went with ⟨⟨turned, seen⟩, watches, later⟩
          rcases of_bind went_ with ⟨⟨turned_, seen_⟩, watches_, later_⟩
          cases watches.symm.trans watches_
          cases turned with
          | stop last =>
              cases later
              cases later_
              exact List.prefix_refl _
          | next next =>
              rcases map_eq_ok.mp later with ⟨rest, there, rfl⟩
              rcases map_eq_ok.mp later_ with ⟨rest_, there_, rfl⟩
              exact (List.prefix_append_right_inj _).mpr (ih (Nat.le_of_succ_le_succ le) there there_)

/-- A run under the twin, and what it says of the runs under the rule. -/
structure Shadowed (rule : Rule) (count : Nat)
    (run : Nat → Except Halt (List (Moment Action Obs) × Drive World Obs Actor)) (left : Nat)
    (moments : List (Moment Action Obs)) : Prop where
  /-- The first fire is at the first vacant step. -/
  first : ∀ before moment rest, moments = before ++ moment :: rest →
    ((moment.fired = some count ∧ ∀ earlier ∈ before, earlier.fired ≠ some count) ↔
      Vacant rule count (before.countP Moment.governed) moment ∧ Shut rule count 0 before)
  never : (∀ moment ∈ moments, moment.fired ≠ some count) ↔ Shut rule count 0 moments
  idle : (∀ moment ∈ moments, moment.fired ≠ some count) → ∃ last, run left = .ok (moments, last)
  /-- Up to that step the run under the rule is the same. -/
  shared : ∀ before moment rest, moments = before ++ moment :: rest → moment.fired = some count →
    (∀ earlier ∈ before, earlier.fired ≠ some count) →
    ∃ fired last, run (before.length + 1) = .ok (before ++ [{ moment with fired }], last) ∧
      (fired = none ∨ fired = some count) ∧
      ∀ ran, run left = .ok ran → before ++ [{ moment with fired }] <+: ran.1
  /-- The rule does not fire earlier. -/
  later : ∀ ran, run left = .ok ran → ∀ before moment rest, ran.1 = before ++ moment :: rest →
    moment.fired = some count →
    ∃ before_ moment_ rest_, moments = before_ ++ moment_ :: rest_ ∧ moment_.fired = some count ∧
      before_.length ≤ before.length

omit [Sha256] [FloatText] in
theorem places_of_split {α : Type} {before before_ rest rest_ : List α} {item item_ : α}
    (same : before ++ item :: rest = before_ ++ item_ :: rest_) :
    (before = before_ ∧ item = item_ ∧ rest = rest_) ∨ (∃ more, before = before_ ++ item_ :: more) ∨
      ∃ more, before_ = before ++ item :: more := by
  rcases List.append_eq_append_iff.mp same with ⟨more, later, here⟩ | ⟨more, later, here⟩
  · cases more with
    | nil =>
        cases here
        exact Or.inl ⟨by rw [later, List.append_nil], rfl, rfl⟩
    | cons first more =>
        cases here
        exact Or.inr (Or.inr ⟨more, later⟩)
  · cases more with
    | nil =>
        cases here
        exact Or.inl ⟨by rw [later, List.append_nil], rfl, rfl⟩
    | cons first more =>
        cases here
        exact Or.inr (Or.inl ⟨more, later⟩)

theorem shadowed_of_controls {drive_ : Drive World Obs Actor} {left : Nat}
    {moments : List (Moment Action Obs)} (short : moments.length ≤ left)
    (controls : Controls rule count (fun left => transcript registry plant spec child left drive_) left 0
      moments) :
    Shadowed rule count (fun left => transcript registry plant spec child left drive_) left moments := by
  cases controls with
  | idle last ran quiet shut =>
      refine ⟨?_, iff_of_true quiet shut, fun _ => ⟨last, ran⟩, ?_, ?_⟩
      · intro before moment rest split
        have vacant := shut before moment rest split
        rw [Nat.zero_add] at vacant
        have mem : moment ∈ moments := split ▸ List.mem_append_right _ List.mem_cons_self
        exact iff_of_false (fun fires => quiet moment mem fires.1) (fun open_ => vacant open_.1)
      · intro before moment rest split fires
        exact absurd fires (quiet moment (split ▸ List.mem_append_right _ List.mem_cons_self))
      · intro ran_ went before moment rest split fires
        cases ran.symm.trans went
        have mem : moment ∈ moments := by
          rw [show moments = before ++ moment :: rest from split]
          exact List.mem_append_right _ (.head _)
        exact absurd fires (quiet moment mem)
  | fires before moment rest fired last split here vacant quiet shut ran either =>
      rw [Nat.zero_add] at vacant
      have opened : ¬ Shut rule count 0 moments := by
        intro closed
        have vacant_ := closed before moment rest split
        rw [Nat.zero_add] at vacant_
        exact vacant_ vacant
      have mem : moment ∈ moments := split ▸ List.mem_append_right _ List.mem_cons_self
      have few : before.length + 1 ≤ left := by
        rw [split, List.length_append, List.length_cons] at short
        omega
      refine ⟨?_, iff_of_false (fun never => never moment mem here) opened, fun never =>
        absurd here (never moment mem), ?_, ?_⟩
      · intro before_ moment_ rest_ split_
        rcases places_of_split (split_.symm.trans split) with ⟨rfl, rfl, _⟩ | ⟨more, rfl⟩ | ⟨more, rfl⟩
        · exact iff_of_true ⟨here, quiet⟩ ⟨vacant, shut⟩
        · apply iff_of_false
          · exact fun fires => fires.2 moment (List.mem_append_right _ (.head _)) here
          · intro open_
            have closed := open_.2 before moment more rfl
            rw [Nat.zero_add] at closed
            exact closed vacant
        · apply iff_of_false
          · exact fun fires => quiet moment_ (List.mem_append_right _ (.head _)) fires.1
          · intro open_
            have closed := shut before_ moment_ more rfl
            rw [Nat.zero_add] at closed
            exact closed open_.1
      · intro before_ moment_ rest_ split_ fires_ quiet_
        rcases places_of_split (split_.symm.trans split) with ⟨rfl, rfl, _⟩ | ⟨more, rfl⟩ | ⟨more, rfl⟩
        · exact ⟨fired, last, ran, either, fun ran_ went => initial_of_transcripts few ran went⟩
        · exact absurd here (quiet_ moment (List.mem_append_right _ (.head _)))
        · exact absurd fires_ (quiet moment_ (List.mem_append_right _ (.head _)))
      · intro ran_ went before_ moment_ rest_ split_ fires_
        refine ⟨before, moment, rest, split, here, ?_⟩
        rcases initial_of_transcripts few ran went with ⟨more, whole⟩
        have whole_ : before ++ { moment with fired } :: more = before_ ++ moment_ :: rest_ := by
          rw [← split_, ← whole, List.append_assoc]
          rfl
        rcases places_of_split whole_ with ⟨rfl, _, _⟩ | ⟨others, rfl⟩ | ⟨others, rfl⟩
        · exact le_rfl
        · exact absurd fires_ (quiet moment_ (List.mem_append_right _ (.head _)))
        · rw [List.length_append]
          exact Nat.le_add_right _ _

/-- Under the blind twin the recovery is started at the first step at which it may be, and under the
rule at that step or later. -/
theorem blind_twin_first {repertoire : Repertoire} {parent child twin : Bundle}
    (bounded : Bounded plant) (invocations : 1 ≤ rule.recovery.maxInvocations)
    (appended : parent.append repertoire rule = .ok child)
    (twinned : parent.append repertoire (blindTwin rule) = .ok twin) (world : World) (obs : Obs)
    {left : Nat} {ran : List (Moment Action Obs) × Drive World Obs Actor}
    (went : transcript registry plant spec (some twin) left (openingDrive spec (some twin) world obs) =
      .ok ran) :
    Shadowed rule parent.rules.length (fun left => transcript registry plant spec (some child) left
      (openingDrive spec (some child) world obs)) left ran.1 := by
  rcases fields_of_append appended with ⟨rules, critic, action⟩
  rcases fields_of_append twinned with ⟨rules_, critic_, action_⟩
  have siblings : Siblings rule parent.rules (some twin) (some child) :=
    ⟨rules_, rules, critic.trans critic_.symm, action.trans action_.symm⟩
  have fresh : (freshCritic (some twin)).Beside rule parent.rules.length (freshCritic (some child)) := by
    refine ⟨parent.rules.map (fun rule => ⟨rule, 0, 0⟩), 0, 0, List.length_map _, ?_, ?_⟩
    · rw [slots_freshCritic, siblings.twins, List.map_append]
      rfl
    · have slots : (freshCritic (some child)).slots =
          parent.rules.map (fun rule => ⟨rule, 0, 0⟩) ++ [⟨rule, 0, 0⟩] := by
        rw [slots_freshCritic, siblings.rules, List.map_append]
        rfl
      rw [← slots]
      rfl
  have beside : (openingDrive spec (some twin) world obs : Drive World Obs Actor).critic.Beside rule
      parent.rules.length (freshCritic (some child)) := fresh
  exact shadowed_of_controls (length_of_transcript went)
    (transcript_beside bounded invocations siblings beside went)

end

section

local instance blindSha : Sha256 := sha256

local instance blindFloats : FloatText := exactDecimals

theorem bounded_widePlant : Bounded widePlant := by
  intro name obs value extracts
  cases extracts
  have one : (Double.nearest 1).value.toRat? = some 1 := by decide +kernel
  exact ⟨1, one, by norm_num⟩

/-- The twin of the rule for a wide gap, appended to it. -/
def wideTwin : Bundle :=
  (wideParent.append widePlant.repertoire (blindTwin wideRule)).toOption.getD wideParent

theorem append_wideTwin : wideParent.append widePlant.repertoire (blindTwin wideRule) = .ok wideTwin := by
  have ended : (wideParent.append widePlant.repertoire (blindTwin wideRule)).toBool = true := by
    decide +kernel
  rcases returns_of_toBool ended with ⟨twin, appended⟩
  rw [wideTwin, appended]
  rfl

theorem blind_twin_first_wide : ∃ ran : List (Moment Unit Nat) × Drive Nat Nat Unit,
    transcript featureCatalog widePlant probeSpec (some wideTwin) 4
      (openingDrive probeSpec (some wideTwin) 0 0) = .ok ran ∧
    Shadowed wideRule 1 (fun left => transcript featureCatalog widePlant probeSpec (some wideChild) left
      (openingDrive probeSpec (some wideChild) 0 0)) 4 ran.1 := by
  have ended : (transcript featureCatalog widePlant probeSpec (some wideTwin) 4
      (openingDrive probeSpec (some wideTwin) 0 0)).toBool = true := by decide +kernel
  rcases returns_of_toBool ended with ⟨ran, went⟩
  exact ⟨ran, went, blind_twin_first bounded_widePlant (by decide) append_wideParent append_wideTwin 0 0 went⟩

end

end Rsi
end PhysicalHarness
