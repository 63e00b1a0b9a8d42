import Mathlib.Data.List.Infix
import PhysicalHarness.Python.Decimal
import PhysicalHarness.Rsi.Probe
import PhysicalHarness.Rsi.Transcript

namespace PhysicalHarness
namespace Rsi

open Python Harness JsonText Fallible

/-!
# When the rules of a chain fire

The loop keeps counters: one dwell and one invocation count for each rule, and the number
of policy-owned steps.  Here a fire is judged by the run itself.  A rule meets its condition
on an observation when it has invocations left and its predicate has held for its dwell,
counted from its arming and from the last fire; the first rule that does is the one that
fires, and nothing is recorded of a step that the critic did not see.
-/

section

variable {World Obs Action Goal Actor : Type}

def Extracted (plant : Plant World Obs Action Goal Actor) (obs : Obs) (view : FeatureView) : Prop :=
  ∀ name value, Assoc.get? view.values name = some value → plant.extract name obs = .ok value

theorem extracted_of_view {plant : Plant World Obs Action Goal Actor} {spec : EpisodeSpec} {obs : Obs}
    {names : List String} {step : Nat} {view : FeatureView}
    (seen : plant.view spec obs names step = .ok view) : Extracted plant obs view := by
  rcases map_eq_ok.mp seen with ⟨values, read, rfl⟩
  intro name value found
  rcases exists_mem_of_mapM read (Assoc.mem_of_get? found) with ⟨other, _, made⟩
  rcases map_eq_ok.mp made with ⟨_, extracts, same⟩
  cases same
  exact extracts

def Rule.Hits (plant : Plant World Obs Action Goal Actor) (rule : Rule) (obs : Obs) : Prop :=
  ∃ value, plant.extract rule.trigger.feature obs = .ok value ∧ rule.trigger.crosses value = true

def firesAt (index : Nat) (past : List (Moment Action Obs × Nat)) : Nat :=
  past.countP (fun step => step.1.fired = some index)

/-- A run of steps since the arming of a rule and the last fire, on which its predicate held. -/
structure Unbroken (plant : Plant World Obs Action Goal Actor) (rule : Rule)
    (before since : List (Moment Action Obs × Nat)) : Prop where
  armed : rule.trigger.armAfter ≤ before.length
  quiet : ∀ step ∈ since, step.1.fired = none
  hits : ∀ step ∈ since, rule.Hits plant step.1.obs

/-- A rule meets its condition on an observation that follows some governed steps. -/
structure Meets (plant : Plant World Obs Action Goal Actor) (past : List (Moment Action Obs × Nat))
    (obs : Obs) (index : Nat) (rule : Rule) : Prop where
  left : (firesAt index past : Int) < rule.recovery.maxInvocations
  dwelt : ∃ before since, past = before ++ since ∧ Unbroken plant rule before since ∧
    (rule.trigger.dwell ≤ 0 ∨ rule.Hits plant obs ∧ rule.trigger.dwell ≤ since.length + 1)

theorem Meets.armed {plant : Plant World Obs Action Goal Actor}
    {past : List (Moment Action Obs × Nat)} {obs : Obs} {index : Nat} {rule : Rule}
    (meets : Meets plant past obs index rule) : rule.trigger.armAfter ≤ past.length := by
  rcases meets.dwelt with ⟨before, since, rfl, unbroken, _⟩
  have armed := unbroken.armed
  rw [List.length_append]
  omega

/-- The position of the rule that fires: the lowest one that meets its condition. -/
structure Fires (plant : Plant World Obs Action Goal Actor) (rules : List Rule)
    (past : List (Moment Action Obs × Nat)) (obs : Obs) (fired : Option Nat) : Prop where
  meets : ∀ index, fired = some index → ∃ rule, rules[index]? = some rule ∧
    Meets plant past obs index rule
  first : ∀ index rule, rules[index]? = some rule → Meets plant past obs index rule →
    ∃ lower ≤ index, fired = some lower

def firesOf (rules : List Rule) (steps : List (Moment Action Obs × Nat)) : List Fire :=
  steps.zipIdx.filterMap (fun step =>
    (step.1.1.fired.bind (rules[·]?)).map (fun rule => ⟨rule, step.2, step.1.2⟩))

def Views (registry : Registry) (plant : Plant World Obs Action Goal Actor) (spec : EpisodeSpec)
    (bundle : Option Bundle) (steps : List (Moment Action Obs × Nat)) (views : List FeatureView) :
    Prop :=
  List.Forall₂ (fun step view => plant.view spec step.1.1.obs
    (registry.admitted (criticBudget bundle)) step.2 = .ok view) steps.zipIdx views

structure Streak (plant : Plant World Obs Action Goal Actor) (rule : Rule)
    (past : List (Moment Action Obs × Nat)) (count : Nat) : Prop where
  reached : count = 0 ∨ ∃ before since, past = before ++ since ∧ since.length = count ∧
    Unbroken plant rule before since
  longest : ∀ before since, past = before ++ since → Unbroken plant rule before since →
    since.length ≤ count

variable {plant : Plant World Obs Action Goal Actor} {rule : Rule}
  {past : List (Moment Action Obs × Nat)} {step : Moment Action Obs × Nat}

theorem split_snoc {before since : List (Moment Action Obs × Nat)}
    (split : past ++ [step] = before ++ since) :
    since = [] ∨ ∃ earlier, since = earlier ++ [step] ∧ past = before ++ earlier := by
  rcases List.eq_nil_or_concat since with empty | ⟨earlier, last, rfl⟩
  · exact Or.inl empty
  · rw [List.concat_eq_append, ← List.append_assoc] at split
    rcases List.append_inj' split rfl with ⟨same, last_⟩
    cases last_
    exact Or.inr ⟨earlier, List.concat_eq_append, same⟩

theorem streak_nil : Streak plant rule ([] : List (Moment Action Obs × Nat)) 0 where
  reached := Or.inl rfl
  longest := by
    intro before since split _
    rw [(List.append_eq_nil_iff.mp split.symm).2]
    exact le_refl 0

theorem Streak.grow {count : Nat} (streak : Streak plant rule past count)
    (armed : rule.trigger.armAfter ≤ past.length) (quiet : step.1.fired = none)
    (hits : rule.Hits plant step.1.obs) : Streak plant rule (past ++ [step]) (count + 1) where
  reached := by
    have extend : ∀ before since, past = before ++ since → since.length = count →
        Unbroken plant rule before since → ∃ before since, past ++ [step] = before ++ since ∧
          since.length = count + 1 ∧ Unbroken plant rule before since := by
      intro before since split length unbroken
      refine ⟨before, since ++ [step], ?_, ?_, unbroken.armed, ?_, ?_⟩
      · rw [split, List.append_assoc]
      · rw [List.length_append, length, List.length_singleton]
      · intro other mem
        rcases List.mem_append.mp mem with earlier | here
        · exact unbroken.quiet other earlier
        · rw [List.mem_singleton.mp here]
          exact quiet
      · intro other mem
        rcases List.mem_append.mp mem with earlier | here
        · exact unbroken.hits other earlier
        · rw [List.mem_singleton.mp here]
          exact hits
    apply Or.inr
    rcases streak.reached with rfl | ⟨before, since, split, length, unbroken⟩
    · exact extend past [] (List.append_nil past).symm rfl
        ⟨armed, List.forall_mem_nil _,
          List.forall_mem_nil _⟩
    · exact extend before since split length unbroken
  longest := by
    intro before since split unbroken
    rcases split_snoc split with rfl | ⟨earlier, rfl, split_⟩
    · exact Nat.zero_le _
    · rw [List.length_append, List.length_singleton]
      apply Nat.succ_le_succ
      exact streak.longest before earlier split_ ⟨unbroken.armed,
        fun other mem => unbroken.quiet other (List.mem_append_left _ mem),
        fun other mem => unbroken.hits other (List.mem_append_left _ mem)⟩

theorem streak_broken (broken : rule.trigger.armAfter ≤ past.length → step.1.fired = none →
      ¬ rule.Hits plant step.1.obs) : Streak plant rule (past ++ [step]) 0 where
  reached := Or.inl rfl
  longest := by
    intro before since split unbroken
    rcases split_snoc split with rfl | ⟨earlier, rfl, split_⟩
    · exact Nat.zero_le _
    · have here : step ∈ earlier ++ [step] := List.mem_append_right _ (.head _)
      have armed : rule.trigger.armAfter ≤ past.length := by
        have before_ := unbroken.armed
        have length := congrArg List.length split_
        rw [List.length_append] at length
        omega
      exact absurd (unbroken.hits step here) (broken armed (unbroken.quiet step here))

theorem unbroken_nil (armed : rule.trigger.armAfter ≤ past.length) :
    Unbroken plant rule past [] :=
  ⟨armed, List.forall_mem_nil _,
    List.forall_mem_nil _⟩

theorem crosses_seen_iff {view : FeatureView} {slot : Slot} {obs : Obs} {value : Double}
    (extracted : Extracted plant obs view)
    (found : Assoc.get? view.values slot.rule.trigger.feature = some value) :
    slot.rule.trigger.crosses (seen view.values slot) = true ↔ slot.rule.Hits plant obs := by
  have value_ : seen view.values slot = value := by
    rw [seen, found]
    rfl
  rw [value_]
  constructor
  · intro crosses
    exact ⟨value, extracted _ _ found, crosses⟩
  · rintro ⟨other, read, crosses⟩
    rw [extracted _ _ found] at read
    cases read
    exact crosses

structure Counts (plant : Plant World Obs Action Goal Actor)
    (past : List (Moment Action Obs × Nat)) (index : Nat) (slot : Slot) : Prop where
  used : slot.used = firesAt index past
  streak : (slot.used : Int) < slot.rule.recovery.maxInvocations →
    Streak plant slot.rule past slot.consec

variable {index : Nat} {slot : Slot} {view : FeatureView} {obs : Obs}

theorem Counts.held_iff (counts : Counts plant past index slot) (extracted : Extracted plant obs view)
    (found : Awake past.length slot →
      ∃ value, Assoc.get? view.values slot.rule.trigger.feature = some value) :
    held past.length view.values slot = true ↔ Meets plant past obs index slot.rule := by
  rw [held, decide_eq_true_eq]
  constructor
  · rintro ⟨awake, dwell⟩
    rcases found awake with ⟨value, found⟩
    refine ⟨counts.used ▸ awake.1, ?_⟩
    rw [counted] at dwell
    split at dwell
    · rename_i crosses
      have hits := (crosses_seen_iff extracted found).mp crosses
      rcases (counts.streak awake.1).reached with zero | ⟨before, since, split, length, unbroken⟩
      · refine ⟨past, [], (List.append_nil past).symm, unbroken_nil awake.2, Or.inr ⟨hits, ?_⟩⟩
        rw [zero] at dwell
        exact_mod_cast dwell
      · refine ⟨before, since, split, unbroken, Or.inr ⟨hits, ?_⟩⟩
        rw [length]
        exact_mod_cast dwell
    · exact ⟨past, [], (List.append_nil past).symm, unbroken_nil awake.2,
        Or.inl (by exact_mod_cast dwell)⟩
  · rintro ⟨left, before, since, split, unbroken, dwell⟩
    have awake : Awake past.length slot := by
      refine ⟨counts.used ▸ left, ?_⟩
      have armed := unbroken.armed
      rw [split, List.length_append]
      omega
    refine ⟨awake, ?_⟩
    rcases dwell with free | ⟨hits, dwell⟩
    · exact free.trans (Int.natCast_nonneg _)
    · rcases found awake with ⟨value, found⟩
      rw [counted, if_pos ((crosses_seen_iff extracted found).mpr hits)]
      have longest := (counts.streak awake.1).longest before since split unbroken
      push_cast
      omega

theorem firesAt_snoc : firesAt index (past ++ [step]) =
    firesAt index past + if step.1.fired = some index then 1 else 0 := by
  rw [firesAt, List.countP_append, List.countP_singleton]
  simp only [decide_eq_true_eq]
  rfl

theorem Counts.stepped (counts : Counts plant past index slot)
    (extracted : Extracted plant step.1.obs view) (quiet : step.1.fired = none)
    (found : Awake past.length slot →
      ∃ value, Assoc.get? view.values slot.rule.trigger.feature = some value) :
    Counts plant (past ++ [step]) index (stepped past.length view.values slot) where
  used := by
    rw [firesAt_snoc, quiet]
    exact counts.used
  streak := by
    intro left
    have left_ : (slot.used : Int) < slot.rule.recovery.maxInvocations := left
    by_cases awake : Awake past.length slot
    · rcases found awake with ⟨value, found⟩
      have link := crosses_seen_iff extracted found
      rw [Rsi.stepped]
      simp only [if_pos awake, counted]
      split
      · rename_i crosses
        exact (counts.streak left_).grow awake.2 quiet (link.mp crosses)
      · rename_i misses
        exact streak_broken (fun _ _ hits => misses (link.mpr hits))
    · rw [Rsi.stepped]
      simp only [if_neg awake]
      exact streak_broken (fun armed _ _ => awake ⟨left_, armed⟩)

theorem firesOf_snoc (rules : List Rule) : firesOf rules (past ++ [step]) = firesOf rules past ++
    ((step.1.fired.bind (rules[·]?)).map (fun rule => Fire.mk rule past.length step.2)).toList := by
  rw [firesOf, List.zipIdx_append, List.filterMap_append, Nat.zero_add, List.zipIdx_singleton,
    List.filterMap_cons, List.filterMap_nil]
  cases (step.1.fired.bind (rules[·]?)).map (fun rule => Fire.mk rule past.length step.2) with
  | none => rfl
  | some fire => rfl

theorem bounded_of_fires {rules : List Rule}
    (fires : ∀ before step after, past = before ++ step :: after →
      Fires plant rules before step.1.obs step.1.fired)
    (found : rules[index]? = some rule) :
    (firesAt index past : Int) ≤ max 0 rule.recovery.maxInvocations := by
  induction past using List.reverseRecOn with
  | nil => exact le_max_left _ _
  | append_singleton before last ih =>
      have earlier := ih (fun first step after split => fires first step (after ++ [last])
        (by rw [split, List.append_assoc, List.cons_append]))
      rw [firesAt_snoc]
      by_cases fired : last.1.fired = some index
      · rcases (fires before last [] rfl).meets index fired with ⟨other, found_, meets⟩
        rw [found] at found_
        cases found_
        have left := meets.left
        rw [if_pos fired]
        push_cast
        omega
      · rw [if_neg fired]
        exact earlier

end

/-! ## The run -/

section

variable {World Obs Action Goal Actor : Type} [Sha256] [FloatText]

structure Marked (registry : Registry) (plant : Plant World Obs Action Goal Actor)
    (spec : EpisodeSpec) (bundle : Option Bundle) (rules : List Rule)
    (past : List (Moment Action Obs × Nat)) (critic : Critic) : Prop where
  k : critic.k = past.length
  chain : critic.slots.map Slot.rule = rules
  counts : ∀ index slot, critic.slots[index]? = some slot → Counts plant past index slot
  fires : critic.fires = firesOf rules past
  logged : ∃ views, Views registry plant spec bundle past views ∧
    critic.history = views.foldl (fun history view => record history view.values) [] ∧
    critic.chain =
      views.foldl (fun chain view => chainStep chain view.digest []) (chainStart episodeSeed)
  discipline : ∀ before step after, past = before ++ step :: after →
    Fires plant rules before step.1.obs step.1.fired

variable {registry : Registry} {plant : Plant World Obs Action Goal Actor} {spec : EpisodeSpec}
  {bundle : Option Bundle} {rules : List Rule} {past : List (Moment Action Obs × Nat)}

theorem marked_start : Marked registry plant spec bundle ((bundle.map Bundle.rules).getD [])
    ([] : List (Moment Action Obs × Nat)) (freshCritic bundle) where
  k := rfl
  chain := by
    rw [freshCritic, List.map_map]
    exact List.map_id _
  counts := by
    intro index slot found
    rcases List.mem_map.mp (List.mem_of_getElem? found) with ⟨rule, _, rfl⟩
    exact ⟨rfl, fun _ => streak_nil⟩
  fires := rfl
  logged := ⟨[], .nil, rfl, rfl⟩
  discipline := by
    intro before step after split
    have empty := (List.append_eq_nil_iff.mp split.symm).2
    cases empty

section

variable {critic next : Critic} {view : FeatureView} {moment : Moment Action Obs} {envStep : Nat}

theorem Marked.fires_of_held (marked : Marked registry plant spec bundle rules past critic)
    {obs : Obs} (extracted : Extracted plant obs view)
    (found : ∀ slot ∈ critic.slots, Awake past.length slot →
      ∃ value, Assoc.get? view.values slot.rule.trigger.feature = some value) :
    Fires plant rules past obs (critic.slots.findIdx? (held past.length view.values)) := by
  have link : ∀ index slot, critic.slots[index]? = some slot →
      (held past.length view.values slot = true ↔ Meets plant past obs index slot.rule) :=
    fun index slot here => (marked.counts index slot here).held_iff extracted
      (found slot (List.mem_of_getElem? here))
  have ruled : ∀ index : Nat, rules[index]? = (critic.slots[index]?).map Slot.rule := by
    intro index
    rw [← marked.chain, List.getElem?_map]
  constructor
  · intro index first
    rcases List.findIdx?_eq_some_iff_getElem.mp first with ⟨bound, holds, _⟩
    have here := List.getElem?_eq_getElem bound
    refine ⟨critic.slots[index].rule, ?_, (link index _ here).mp holds⟩
    rw [ruled, here]
    rfl
  · intro index rule listed meets
    rw [ruled] at listed
    rcases Option.map_eq_some_iff.mp listed with ⟨slot, here, rfl⟩
    have holds := (link index slot here).mpr meets
    cases first : critic.slots.findIdx? (held past.length view.values) with
    | none =>
        have never := List.findIdx?_eq_none_iff.mp first slot (List.mem_of_getElem? here)
        rw [holds] at never
        cases never
    | some lower =>
        refine ⟨lower, ?_, rfl⟩
        rcases List.findIdx?_eq_some_iff_getElem.mp first with ⟨_, _, before⟩
        by_contra beyond
        rcases List.getElem?_eq_some_iff.mp here with ⟨bound, same⟩
        have early := before index (not_le.mp beyond)
        rw [same, holds] at early
        exact early rfl

theorem Marked.counts_of_attend (marked : Marked registry plant spec bundle rules past critic)
    (extracted : Extracted plant moment.obs view)
    (found : ∀ slot ∈ critic.slots, Awake past.length slot →
      ∃ value, Assoc.get? view.values slot.rule.trigger.feature = some value)
    (fired : moment.fired = critic.slots.findIdx? (held critic.k view.values))
    (passed : critic.attend registry bundle view envStep = .ok next) :
    ∀ index slot, next.slots[index]? = some slot →
      Counts plant (past ++ [(moment, envStep)]) index slot := by
  rcases attend_cases passed with ⟨_, empty, _⟩ | ⟨scanned, _, _, _, ⟨quiet, slots, _⟩ |
    ⟨first, charged, held_, _, _, slots, _⟩⟩
  · rw [empty]
    intro index slot never
    cases never
  · intro index slot here
    rw [slots, List.getElem?_map] at here
    rcases Option.map_eq_some_iff.mp here with ⟨old, before, rfl⟩
    rw [marked.k]
    exact (marked.counts index old before).stepped extracted (fired.trans quiet)
      (found old (List.mem_of_getElem? before))
  · rw [held_] at fired
    intro index slot here
    rw [slots, List.getElem?_map, List.getElem?_modify, List.getElem?_map] at here
    rcases Option.map_eq_some_iff.mp here with ⟨changed, modified, rfl⟩
    rcases Option.map_eq_some_iff.mp modified with ⟨stepped_, stepped, rfl⟩
    rcases Option.map_eq_some_iff.mp stepped with ⟨old, before, rfl⟩
    refine ⟨?_, fun _ => streak_broken (fun _ quiet => ?_)⟩
    · have used := (marked.counts index old before).used
      rw [firesAt_snoc, fired, ← used]
      by_cases same : first = index
      · simp [same, Rsi.stepped]
      · simp [same, Rsi.stepped]
    · rw [fired] at quiet
      cases quiet

theorem Marked.fires_of_attend (marked : Marked registry plant spec bundle rules past critic)
    (fired : moment.fired = critic.slots.findIdx? (held critic.k view.values))
    (passed : critic.attend registry bundle view envStep = .ok next) :
    next.fires = firesOf rules (past ++ [(moment, envStep)]) := by
  rw [firesOf_snoc, ← marked.fires, fired]
  rcases attend_cases passed with ⟨empty, _, same, _⟩ | ⟨_, _, _, _, ⟨quiet, _, same⟩ |
    ⟨first, charged, held_, here, _, _, same⟩⟩
  · rw [same, empty]
    exact (List.append_nil _).symm
  · rw [same, quiet]
    exact (List.append_nil _).symm
  · have listed : rules[first]? = some charged.rule := by
      rw [← marked.chain, List.getElem?_map, here]
      rfl
    rw [same, held_, marked.k]
    simp only [Option.bind_some, listed]
    rfl

theorem Marked.attend (marked : Marked registry plant spec bundle rules past critic)
    (seen : plant.view spec moment.obs (registry.admitted (criticBudget bundle)) critic.k = .ok view)
    (passed : critic.attend registry bundle view envStep = .ok next)
    (fired : moment.fired = critic.slots.findIdx? (held critic.k view.values)) :
    Marked registry plant spec bundle rules (past ++ [(moment, envStep)]) next := by
  have extracted := extracted_of_view seen
  have logs := Critic.log_of_attend passed
  have chained := (Critic.rules_of_attend passed).trans marked.chain
  have found : ∀ slot ∈ critic.slots, Awake past.length slot →
      ∃ value, Assoc.get? view.values slot.rule.trigger.feature = some value := by
    rcases attend_cases passed with ⟨empty, _⟩ | ⟨scanned, done, _⟩
    · rw [empty]
      exact List.forall_mem_nil _
    · rw [← marked.k]
      exact found_of_scan done
  have chosen : Fires plant rules past moment.obs moment.fired := by
    rw [fired, marked.k]
    exact marked.fires_of_held extracted found
  have shown : Views registry plant spec bundle (past ++ [(moment, envStep)])
      (marked.logged.choose ++ [view]) := by
    rw [Views, List.zipIdx_append, Nat.zero_add, List.zipIdx_singleton]
    apply List.rel_append marked.logged.choose_spec.1
    rw [← marked.k]
    exact List.Forall₂.cons seen List.Forall₂.nil
  refine ⟨?_, chained, ?_, ?_, ⟨_, shown, ?_, ?_⟩, ?_⟩
  · rw [Critic.k_of_attend passed, marked.k, List.length_append, List.length_singleton]
  · exact marked.counts_of_attend extracted found fired passed
  · exact marked.fires_of_attend fired passed
  · rw [logs.1, List.foldl_append, ← marked.logged.choose_spec.2.1]
    rfl
  · rw [logs.2.1, List.foldl_append, ← marked.logged.choose_spec.2.2]
    rfl
  · intro before step after split
    rcases List.eq_nil_or_concat after with rfl | ⟨earlier, last, rfl⟩
    · rcases List.append_inj' split rfl with ⟨rfl, same⟩
      cases same
      exact chosen
    · rw [List.concat_eq_append, ← List.cons_append, ← List.append_assoc] at split
      rcases List.append_inj' split rfl with ⟨same, _⟩
      exact marked.discipline before step earlier same

end

theorem marked_of_transcript {left : Nat} {drive last : Drive World Obs Actor}
    {moments : List (Moment Action Obs)}
    (marked : Marked registry plant spec bundle rules past drive.critic)
    (ran : transcript registry plant spec bundle left drive = .ok (moments, last)) :
    Marked registry plant spec bundle rules (past ++ governedSteps drive.t moments) last.critic := by
  induction left generalizing drive moments past with
  | zero =>
      cases ran
      rw [governedSteps, List.zipIdx_nil, List.filter_nil, List.append_nil]
      exact marked
  | succ left ih =>
      rcases of_bind ran with ⟨watched, watches, later⟩
      rcases watch_cases watches with ⟨next, critic, _, rfl⟩ |
        ⟨next, moment, critic, clock, unseen, _, turned⟩ |
        ⟨stepped, next, fired, action, critic, clock, governed, rfl⟩
      · cases later
        rw [Option.toList_none, governedSteps, List.zipIdx_nil, List.filter_nil, List.append_nil, critic]
        exact marked
      · have nothing : governedSteps drive.t [moment] = [] := by
          rw [governedSteps_singleton, unseen]
          rfl
        rcases turned with rfl | rfl
        · cases later
          rw [Option.toList_some, nothing, List.append_nil, critic]
          exact marked
        · rcases map_eq_ok.mp later with ⟨rest, went, same⟩
          cases same
          rw [← critic] at marked
          have after := ih marked went
          rw [clock] at after
          rw [Option.toList_some, governedSteps_append, nothing, List.nil_append]
          exact after
      · rcases map_eq_ok.mp later with ⟨rest, went, same⟩
        cases same
        rcases attend_of_governAt governed with ⟨view, seen, passed, first, clock_⟩
        have envStep : stepped.t - 1 = drive.t := by
          rw [clock]
          rfl
        rw [critic] at seen passed first
        rw [envStep] at passed
        let moment : Moment Action Obs := ⟨action, stepped.obs, false, true, fired⟩
        have marked_ : Marked registry plant spec bundle rules (past ++ [(moment, drive.t)])
            next.critic := marked.attend seen passed first
        have after := ih marked_ went
        rw [clock_, clock, List.append_assoc] at after
        rw [Option.toList_some, governedSteps_append, governedSteps_singleton]
        exact after

/-- The run of a segment, and what its readouts say of it. -/
structure Disciplined (registry : Registry) (plant : Plant World Obs Action Goal Actor)
    (spec : EpisodeSpec) (bundle : Option Bundle) (rules : List Rule)
    (moments : List (Moment Action Obs)) (segment : Segment Obs) : Prop where
  /-- Every fire, and nothing else, is that of a governed step. -/
  fires : segment.fires = firesOf rules (governedSteps 0 moments)
  /-- The trace and the chain are those of the views of the governed steps. -/
  logged : ∃ views, Views registry plant spec bundle (governedSteps 0 moments) views ∧
    segment.trace = views.foldl (fun history view => record history view.values) [] ∧
    segment.chain =
      views.foldl (fun chain view => chainStep chain view.digest []) (chainStart episodeSeed)
  owned : ∀ step ∈ governedSteps 0 moments, moments[step.2]? = some step.1 ∧ step.1.owned = true
  /-- The lowest rule that meets its condition fires. -/
  discipline : ∀ before step after, governedSteps 0 moments = before ++ step :: after →
    Fires plant rules before step.1.obs step.1.fired
  armed : ∀ before step after index rule, governedSteps 0 moments = before ++ step :: after →
    step.1.fired = some index → rules[index]? = some rule → rule.trigger.armAfter ≤ before.length
  bounded : ∀ index rule, rules[index]? = some rule →
    (firesAt index (governedSteps 0 moments) : Int) ≤ max 0 rule.recovery.maxInvocations

/-- The fires of a segment keep the discipline of the chain. -/
theorem fires_disciplined {world : World} {obs : Obs} {stepBudget : Int} {segment : Segment Obs}
    (ran : governedSegment registry plant spec bundle world obs stepBudget = .ok segment) :
    ∃ moments last, transcript registry plant spec bundle stepBudget.toNat
        (openingDrive spec bundle world obs) = .ok (moments, last) ∧
      Disciplined registry plant spec bundle ((bundle.map Bundle.rules).getD []) moments segment := by
  rcases transcript_of_segment ran with ⟨moments, last, stages, watched, _, rfl⟩
  have marked := marked_of_transcript marked_start watched
  have steps : [] ++ governedSteps (openingDrive spec bundle world obs : Drive World Obs Actor).t moments =
    governedSteps 0 moments := rfl
  rw [steps] at marked
  refine ⟨moments, last, watched, ⟨marked.fires, marked.logged, ?_, marked.discipline, ?_, ?_⟩⟩
  · intro step member
    rcases List.mem_filter.mp member with ⟨listed, governed⟩
    refine ⟨?_, (Bool.and_eq_true_iff.mp governed).1⟩
    exact List.mem_zipIdx_iff_getElem?.mp listed
  · intro before step after index rule split fired listed
    rcases (marked.discipline before step after split).meets index fired with ⟨other, listed_, meets⟩
    rw [listed] at listed_
    cases listed_
    exact meets.armed
  · exact fun index rule listed => bounded_of_fires marked.discipline listed

end

section

local instance disciplineSha : Sha256 := sha256

local instance disciplineFloats : FloatText := exactDecimals

/-- A rule that is armed from the second step on, and fires on a wide gap that lasts for two. -/
def wideRule : Rule :=
  ⟨"g1", ⟨"observable.finger_gap", .gt, Double.nearest (1 / 2), 2, 1, .value⟩,
    ⟨"regrasp", none, RecoverySpec.zero, 1⟩⟩

/-- The rule twice, under one id. -/
def wideBundle : Bundle := ⟨[wideRule, wideRule], 0, 0, none⟩

/-- A plant on which the gap stays wide. -/
def widePlant : Plant Nat Nat Unit Unit Unit := probe (fun _ _ => Double.nearest 1) [wideRule]

theorem fires_disciplined_wide : ∃ segment moments last,
    governedSegment featureCatalog widePlant probeSpec (some wideBundle) 0 0 4 = .ok segment ∧
    transcript featureCatalog widePlant probeSpec (some wideBundle) 4
      (openingDrive probeSpec (some wideBundle) 0 0) = .ok (moments, last) ∧
    Disciplined featureCatalog widePlant probeSpec (some wideBundle) wideBundle.rules moments
      segment := by
  have ended : (governedSegment featureCatalog widePlant probeSpec (some wideBundle) 0 0 4).toBool =
      true := by
    decide +kernel
  rcases returns_of_toBool ended with ⟨segment, ran⟩
  rcases fires_disciplined ran with ⟨moments, last, watched, disciplined⟩
  exact ⟨segment, moments, last, ran, watched, disciplined⟩

def barredRule : Rule := { wideRule with recovery := ⟨"regrasp", none, RecoverySpec.zero, -1⟩ }

/-- A negative number of invocations is not refused, and no fire at all is more than that. -/
theorem fires_beyond_negative : ∃ segment,
    governedSegment featureCatalog widePlant probeSpec (some ⟨[barredRule], 0, 0, none⟩) 0 0 4 =
      .ok segment ∧
    ¬ (segment.fires.countP (fun fire => fire.rule = barredRule) : Int) ≤
      barredRule.recovery.maxInvocations := by
  have ended : (governedSegment featureCatalog widePlant probeSpec (some ⟨[barredRule], 0, 0, none⟩)
      0 0 4).toBool = true := by
    decide +kernel
  rcases returns_of_toBool ended with ⟨segment, ran⟩
  refine ⟨segment, ran, fun bounded => ?_⟩
  have negative : barredRule.recovery.maxInvocations = -1 := rfl
  rw [negative] at bounded
  omega

end

end Rsi
end PhysicalHarness
