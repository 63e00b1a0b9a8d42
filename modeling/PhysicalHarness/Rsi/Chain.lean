import PhysicalHarness.Rsi.Reads

namespace PhysicalHarness
namespace Rsi

open Python Harness JsonText Fallible

/-!
# Chains that stay within their budgets

Whether a run trips a budget is decided view by view.  A chain whose live features
fit the critic's budget together never does, and then only a fire under a negative
action budget can.
-/

def CanFire (rule : Rule) : Prop :=
  1 ≤ rule.recovery.maxInvocations ∧
    (rule.trigger.dwell ≤ 0 ∨ ∃ value, rule.trigger.crosses value = true)

theorem canFire_of_held {step : Nat} {values : List (String × Double)} {slot : Slot}
    (holds : held step values slot = true) : CanFire slot.rule := by
  rcases of_decide_eq_true holds with ⟨awake, dwell⟩
  refine ⟨live_of_awake awake, ?_⟩
  rw [counted] at dwell
  split at dwell
  · rename_i crossed
    exact Or.inr ⟨_, crossed⟩
  · exact Or.inl (by exact_mod_cast dwell)

theorem exists_ready {rule : Rule} (can : CanFire rule) :
    ∃ value, rule.trigger.dwell ≤ 0 ∨ rule.trigger.crosses value = true := by
  rcases can.2 with free | ⟨value, crosses⟩
  · exact ⟨Double.nan, Or.inl free⟩
  · exact ⟨value, Or.inr crosses⟩

variable [Sha256] [FloatText]

/-- The slots of the critic hold the rules of the chain in order. -/
structure Chained (rules : List Rule) (critic : Critic) : Prop where
  chain : critic.slots.map Slot.rule = rules

variable {bundle : Option Bundle} {registry : Registry} {critic : Critic} {rules : List Rule}
  {view : FeatureView} {envStep : Nat}

omit [Sha256] [FloatText] in
theorem mem_rules_of_slot (chained : Chained rules critic) {slot : Slot}
    (mem : slot ∈ critic.slots) : slot.rule ∈ rules := by
  rw [← chained.chain]
  exact List.mem_map_of_mem mem

theorem Chained.attend {next : Critic} (chained : Chained rules critic)
    (passed : critic.attend registry bundle view envStep = .ok next) : Chained rules next :=
  ⟨(Critic.rules_of_attend passed).trans chained.chain⟩

omit [FloatText] in
theorem chained_freshCritic (bundle : Bundle) :
    Chained bundle.rules (freshCritic (some bundle)) := by
  refine ⟨?_⟩
  rw [freshCritic, List.map_map]
  exact List.map_id _

theorem ne_raised_of_attend {halt : Halt}
    (stopped : critic.attend registry bundle view envStep = .error halt) (error : PyError) :
    halt ≠ .raised error := by
  have visited : ∀ (step : Nat) (view : FeatureView) (slot : Slot) (halt : Halt),
      visit step view slot = .error halt → halt ≠ .raised error := by
    intro step view slot halt failed
    by_cases awake : Awake step slot
    · cases found : Assoc.get? view.values slot.rule.trigger.feature with
      | none =>
          rw [visit_missing awake found] at failed
          cases failed
          exact Halt.noConfusion
      | some value =>
          rw [visit_of_awake awake found] at failed
          cases failed
    · rw [visit_of_not_awake view awake] at failed
      cases failed
  have scanned : ∀ (step : Nat) (slots : List Slot) (view : FeatureView) (halt : Halt),
      scan step view slots = .error halt → halt ≠ .raised error := by
    intro step slots
    induction slots with
    | nil =>
        intro view halt failed
        cases failed
    | cons slot rest ih =>
        intro view halt failed
        rcases bind_eq_error.mp failed with here | ⟨next, _, later⟩
        · exact visited step view slot halt here
        · exact ih _ _ (map_eq_error.mp later)
  rcases bind_eq_error.mp stopped with judged | ⟨judged, _, later⟩
  · rw [Critic.judge] at judged
    split at judged
    · cases judged
    · rcases bind_eq_error.mp judged with failed | ⟨done, _, later⟩
      · exact scanned _ _ _ _ failed
      · split at later
        · cases later
          exact Halt.noConfusion
        · cases later
  · rcases judged with ⟨critic, _ | index⟩
    · cases later
    · rw [Critic.respond] at later
      split at later
      · cases later
        exact Halt.noConfusion
      · cases later

theorem ne_raised_of_follow {views : List (FeatureView × Nat)} {halt : Halt}
    (stopped : critic.follow registry bundle views = .error halt) (error : PyError) :
    halt ≠ .raised error := by
  induction views generalizing critic with
  | nil => cases stopped
  | cons shown rest ih =>
      rcases bind_eq_error.mp stopped with failed | ⟨next, _, later⟩
      · exact ne_raised_of_attend failed error
      · exact ih later

/-- What one view does to the counters: nothing without rules; else its reads fit the
budget, and either no trigger is held and the counts go on, or the first that is held
is charged and all counts start anew. -/
theorem attend_cases {next : Critic}
    (passed : critic.attend registry bundle view envStep = .ok next) :
    (critic.slots = [] ∧ next.slots = [] ∧ next.fires = critic.fires ∧
      next.privilegeUsed = critic.privilegeUsed) ∨
    ∃ scanned, scan critic.k view critic.slots = .ok scanned ∧
      ¬ criticBudget bundle < scanned.1.privilegeUsed registry ∧
      next.privilegeUsed = max critic.privilegeUsed (scanned.1.privilegeUsed registry) ∧
      ((critic.slots.findIdx? (held critic.k view.values) = none ∧
          next.slots = critic.slots.map (stepped critic.k view.values) ∧
          next.fires = critic.fires) ∨
        ∃ index slot, critic.slots.findIdx? (held critic.k view.values) = some index ∧
          critic.slots[index]? = some slot ∧ 0 ≤ actionBudget bundle ∧
          next.slots = ((critic.slots.map (stepped critic.k view.values)).modify index
            (fun slot => { slot with used := slot.used + 1 })).map
              (fun slot => { slot with consec := 0 }) ∧
          next.fires = critic.fires ++ [⟨slot.rule, critic.k, envStep⟩]) := by
  rcases of_bind passed with ⟨judged, done, later⟩
  rcases Critic.judge_cases done with ⟨empty, rfl⟩ | ⟨scanned, mapped, within, rfl⟩
  · cases later
    exact Or.inl ⟨empty, empty, rfl, rfl⟩
  have mapped_ : scan critic.k view critic.slots = .ok scanned := mapped
  have both := scan_eq mapped_
  refine Or.inr ⟨scanned, mapped_, within, ?_⟩
  have slots : scanned.2.1 = critic.slots.map (stepped critic.k view.values) :=
    congrArg Prod.fst both
  have triggered : scanned.2.2 = critic.slots.findIdx? (held critic.k view.values) :=
    congrArg Prod.snd both
  rw [← triggered]
  cases first : scanned.2.2 with
  | none =>
      rw [first] at later
      cases later
      exact ⟨rfl, Or.inl ⟨rfl, slots, rfl⟩⟩
  | some index =>
      rw [first, Critic.respond] at later
      rw [first] at triggered
      rcases List.findIdx?_eq_some_iff_getElem.mp triggered.symm with ⟨bound, _, _⟩
      split at later
      · cases later
      · rename_i allowed
        cases later
        refine ⟨rfl, Or.inr ⟨index, critic.slots[index], rfl, List.getElem?_eq_getElem bound,
          not_lt.mp allowed, ?_, ?_⟩⟩
        · rw [← slots]
          rfl
        · have charged : scanned.2.1[index]? =
              some (stepped critic.k view.values critic.slots[index]) := by
            rw [slots, List.getElem?_map, List.getElem?_eq_getElem bound]
            rfl
          change critic.fires ++ (scanned.2.1[index]?.map _).toList = _
          rw [charged]
          rfl

/-- The critic passes a view that has the features of its chain, when these fit
its budget together and a fire is allowed or does not happen. -/
theorem exists_attend {values : List (String × Double)} {k : Nat} {episode : String}
    (chained : Chained rules critic)
    (present : ∀ rule ∈ rules, 1 ≤ rule.recovery.maxInvocations →
      rule.trigger.feature ∈ Assoc.keys values)
    (fits : rules = [] ∨ (worst registry rules : Int) ≤ criticBudget bundle)
    (allowed : 0 ≤ actionBudget bundle ∨ ∀ slot ∈ critic.slots, held critic.k values slot = false) :
    ∃ next, critic.attend registry bundle (project values k episode) envStep = .ok next := by
  have logged : (critic.log (project values k episode)).slots = critic.slots := rfl
  rw [Critic.attend, Critic.judge, logged]
  by_cases empty : critic.slots.isEmpty
  · rw [if_pos empty]
    exact ⟨_, rfl⟩
  rw [if_neg empty]
  have some_ : rules ≠ [] := by
    intro none_
    have slots := chained.chain
    rw [none_, List.map_eq_nil_iff] at slots
    exact empty (List.isEmpty_iff.mpr slots)
  have awake_ : ∀ slot ∈ critic.slots, Awake ((critic.log (project values k episode)).k - 1) slot →
      slot.rule.trigger.feature ∈ Assoc.keys (project values k episode).values :=
    fun slot mem awake => present slot.rule (mem_rules_of_slot chained mem) (live_of_awake awake)
  rcases exists_scan awake_ with ⟨scanned, done⟩
  have cost : scanned.1.privilegeUsed registry ≤ worst registry rules :=
    privilegeUsed_le_worst done chained.chain
  have within : ¬ criticBudget bundle < scanned.1.privilegeUsed registry := by
    have fit := fits.resolve_left some_
    omega
  rw [done]
  simp only [Except.bind]
  rw [if_neg within]
  simp only []
  cases triggered : scanned.2.2 with
  | none => exact ⟨_, rfl⟩
  | some index =>
      rw [Critic.respond]
      rcases allowed with budget | quiet
      · rw [if_neg (not_lt.mpr budget)]
        exact ⟨_, rfl⟩
      · have found := congrArg Prod.snd (scan_eq done)
        rw [triggered] at found
        rcases List.findIdx?_eq_some_iff_getElem.mp found.symm with ⟨bound, holds, _⟩
        have none_ := quiet _ (List.getElem_mem bound)
        exact absurd (holds.symm.trans none_) Bool.noConfusion

theorem exists_follow {names : List String} {episode : String} {k : Nat}
    {views : List (FeatureView × Nat)} (chained : Chained rules critic)
    (present : ∀ rule ∈ rules, 1 ≤ rule.recovery.maxInvocations → rule.trigger.feature ∈ names)
    (fits : rules = [] ∨ (worst registry rules : Int) ≤ criticBudget bundle)
    (allowed : 0 ≤ actionBudget bundle ∨ ∀ rule ∈ rules, ¬ CanFire rule)
    (shown : Shown names episode k views) :
    ∃ last, critic.follow registry bundle views = .ok last := by
  induction views generalizing critic k with
  | nil => exact ⟨critic, rfl⟩
  | cons first rest ih =>
      rcases shown with ⟨⟨values, view, keys⟩, shown⟩
      have allowed_ : 0 ≤ actionBudget bundle ∨
          ∀ slot ∈ critic.slots, held critic.k values slot = false := by
        rcases allowed with budget | never
        · exact Or.inl budget
        · refine Or.inr (fun slot mem => ?_)
          rw [Bool.eq_false_iff]
          exact fun holds => never slot.rule (mem_rules_of_slot chained mem) (canFire_of_held holds)
      rcases exists_attend chained (keys ▸ present) fits allowed_ with ⟨next, passed⟩
      rcases ih (chained.attend passed) shown with ⟨last, followed⟩
      refine ⟨last, ?_⟩
      rw [Critic.follow, view, passed]
      exact followed

end Rsi
end PhysicalHarness
