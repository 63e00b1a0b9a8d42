import PhysicalHarness.Rsi.Attention

namespace PhysicalHarness
namespace Rsi

open Python Harness JsonText Fallible

/-!
# What a chain reads in one step

A rule reads its feature in a step when it is armed and not exhausted.  The reads
of all rules share one view, so a step is charged for the distinct features of the
rules that are awake in it.
-/

def Awake (step : Nat) (slot : Slot) : Prop :=
  (slot.used : Int) < slot.rule.recovery.maxInvocations ∧ slot.rule.trigger.armAfter ≤ step

variable {scanned : FeatureView × List Slot × Option Nat} {view : FeatureView} {step : Nat}
  {slots : List Slot} {slot : Slot} {rules : List Rule}

theorem visit_of_not_awake (view : FeatureView) (asleep : ¬ Awake step slot) :
    visit step view slot = .ok (view, { slot with consec := 0 }, false) := by
  rw [visit]
  by_cases exhausted : slot.rule.recovery.maxInvocations ≤ slot.used
  · rw [if_pos exhausted]
  · rw [if_neg exhausted]
    by_cases early : (step : Int) < slot.rule.trigger.armAfter
    · rw [if_pos early]
    · exact absurd ⟨not_le.mp exhausted, not_lt.mp early⟩ asleep

def counted (slot : Slot) (value : Double) : Nat :=
  if slot.rule.trigger.crosses value then slot.consec + 1 else 0

theorem visit_of_awake {value : Double} (awake : Awake step slot)
    (found : Assoc.get? view.values slot.rule.trigger.feature = some value) :
    visit step view slot = .ok
      ({ view with reads := if slot.rule.trigger.feature ∈ view.reads then view.reads
          else slot.rule.trigger.feature :: view.reads },
        { slot with consec := counted slot value },
        decide (slot.rule.trigger.dwell ≤ counted slot value)) := by
  rw [visit, if_neg (not_le.mpr awake.1), if_neg (not_lt.mpr awake.2), FeatureView.read, found]
  rfl

theorem visit_missing (awake : Awake step slot)
    (absent : Assoc.get? view.values slot.rule.trigger.feature = none) :
    visit step view slot = .error (.missingFeature slot.rule.trigger.feature) := by
  rw [visit, if_neg (not_le.mpr awake.1), if_neg (not_lt.mpr awake.2), FeatureView.read, absent]
  rfl

theorem reads_of_visit {visited : FeatureView × Slot × Bool}
    (passed : visit step view slot = .ok visited) :
    visited.1.values = view.values ∧ (view.reads.Nodup → visited.1.reads.Nodup) ∧
      ∀ name, name ∈ visited.1.reads ↔
        name ∈ view.reads ∨ (Awake step slot ∧ slot.rule.trigger.feature = name) := by
  by_cases awake : Awake step slot
  · cases found : Assoc.get? view.values slot.rule.trigger.feature with
    | none =>
        rw [visit_missing awake found] at passed
        cases passed
    | some value =>
        rw [visit_of_awake awake found] at passed
        cases passed
        by_cases again : slot.rule.trigger.feature ∈ view.reads
        · refine ⟨rfl, ?_, ?_⟩
          · simp only [if_pos again]
            exact id
          · intro name
            simp only [if_pos again]
            constructor
            · exact Or.inl
            · rintro (before | ⟨_, rfl⟩)
              · exact before
              · exact again
        · refine ⟨rfl, ?_, ?_⟩
          · simp only [if_neg again]
            exact fun unique => List.nodup_cons.mpr ⟨again, unique⟩
          · intro name
            simp only [if_neg again, List.mem_cons]
            constructor
            · rintro (rfl | before)
              · exact Or.inr ⟨awake, rfl⟩
              · exact Or.inl before
            · rintro (before | ⟨_, rfl⟩)
              · exact Or.inr before
              · exact Or.inl rfl
  · rw [visit_of_not_awake view awake] at passed
    cases passed
    refine ⟨rfl, id, fun name => ⟨Or.inl, ?_⟩⟩
    rintro (before | ⟨awake_, _⟩)
    · exact before
    · exact absurd awake_ awake

theorem reads_of_scan (passed : scan step view slots = .ok scanned) :
    scanned.1.values = view.values ∧ (view.reads.Nodup → scanned.1.reads.Nodup) ∧
      ∀ name, name ∈ scanned.1.reads ↔
        name ∈ view.reads ∨ ∃ slot ∈ slots, Awake step slot ∧ slot.rule.trigger.feature = name := by
  induction slots generalizing view scanned with
  | nil =>
      cases passed
      exact ⟨rfl, id, fun name => ⟨Or.inl, fun found => found.elim id (fun never =>
        absurd never.choose_spec.1 List.not_mem_nil)⟩⟩
  | cons slot rest ih =>
      rcases of_bind passed with ⟨visited, here, later⟩
      rcases map_eq_ok.mp later with ⟨others, there, rfl⟩
      rcases reads_of_visit here with ⟨values, unique, reads⟩
      rcases ih there with ⟨values_, unique_, reads_⟩
      refine ⟨values_.trans values, fun distinct => unique_ (unique distinct), fun name => ?_⟩
      rw [reads_, reads, or_assoc]
      constructor
      · rintro (before | ⟨awake, named⟩ | ⟨other, mem, awake⟩)
        · exact Or.inl before
        · exact Or.inr ⟨slot, .head _, awake, named⟩
        · exact Or.inr ⟨other, .tail _ mem, awake⟩
      · rintro (before | ⟨other, mem, awake⟩)
        · exact Or.inl before
        · rcases List.mem_cons.mp mem with rfl | later
          · exact Or.inr (Or.inl awake)
          · exact Or.inr (Or.inr ⟨other, later, awake⟩)

theorem exists_scan
    (present : ∀ slot ∈ slots, Awake step slot →
      slot.rule.trigger.feature ∈ Assoc.keys view.values) :
    ∃ scanned, scan step view slots = .ok scanned := by
  induction slots generalizing view with
  | nil => exact ⟨_, rfl⟩
  | cons slot rest ih =>
      have here : ∃ visited, visit step view slot = .ok visited := by
        by_cases awake : Awake step slot
        · rcases Assoc.get?_of_mem_keys (present slot (.head _) awake) with ⟨value, found⟩
          exact ⟨_, visit_of_awake awake found⟩
        · exact ⟨_, visit_of_not_awake view awake⟩
      rcases here with ⟨visited, here⟩
      have values := (reads_of_visit here).1
      have present_ : ∀ other ∈ rest, Awake step other →
          other.rule.trigger.feature ∈ Assoc.keys visited.1.values := by
        intro other mem awake
        rw [values]
        exact present other (.tail _ mem) awake
      rcases ih present_ with ⟨others, there⟩
      rw [scan, here]
      exact ⟨_, congrArg (Except.map _) there⟩

instance (step : Nat) (slot : Slot) : Decidable (Awake step slot) :=
  inferInstanceAs (Decidable (_ ∧ _))

/-- What a rule reads in a view. -/
def seen (values : List (String × Double)) (slot : Slot) : Double :=
  (Assoc.get? values slot.rule.trigger.feature).getD Double.nan

def stepped (step : Nat) (values : List (String × Double)) (slot : Slot) : Slot :=
  { slot with consec := if Awake step slot then counted slot (seen values slot) else 0 }

/-- The trigger has held for its dwell. -/
def held (step : Nat) (values : List (String × Double)) (slot : Slot) : Bool :=
  decide (Awake step slot ∧ slot.rule.trigger.dwell ≤ counted slot (seen values slot))

theorem visit_eq {visited : FeatureView × Slot × Bool}
    (passed : visit step view slot = .ok visited) :
    visited.2 = (stepped step view.values slot, held step view.values slot) := by
  by_cases awake : Awake step slot
  · cases found : Assoc.get? view.values slot.rule.trigger.feature with
    | none =>
        rw [visit_missing awake found] at passed
        cases passed
    | some value =>
        have value_ : seen view.values slot = value := by
          rw [seen, found]
          rfl
        rw [visit_of_awake awake found] at passed
        cases passed
        rw [stepped, held, value_, if_pos awake]
        simp [awake]
  · rw [visit_of_not_awake view awake] at passed
    cases passed
    rw [stepped, held, if_neg awake]
    simp [awake]

theorem scan_eq (passed : scan step view slots = .ok scanned) :
    scanned.2 = (slots.map (stepped step view.values), slots.findIdx? (held step view.values)) := by
  induction slots generalizing view scanned with
  | nil =>
      cases passed
      rfl
  | cons slot rest ih =>
      rcases of_bind passed with ⟨visited, here, later⟩
      rcases map_eq_ok.mp later with ⟨others, there, rfl⟩
      have first := visit_eq here
      have second := ih there
      rw [(reads_of_visit here).1] at second
      simp only [first, second, List.map_cons, List.findIdx?_cons]

theorem found_of_scan (passed : scan step view slots = .ok scanned) :
    ∀ slot ∈ slots, Awake step slot →
      ∃ value, Assoc.get? view.values slot.rule.trigger.feature = some value := by
  induction slots generalizing view scanned with
  | nil => exact List.forall_mem_nil _
  | cons slot rest ih =>
      rcases of_bind passed with ⟨visited, here, later⟩
      rcases map_eq_ok.mp later with ⟨others, there, rfl⟩
      intro other mem awake
      rcases List.mem_cons.mp mem with rfl | member_
      · cases found : Assoc.get? view.values other.rule.trigger.feature with
        | none =>
            rw [visit_missing awake found] at here
            cases here
        | some value => exact ⟨value, rfl⟩
      · have after := ih there other member_ awake
        rw [(reads_of_visit here).1] at after
        exact after

def liveFeatures (rules : List Rule) : List String :=
  ((rules.filter (fun rule => decide (1 ≤ rule.recovery.maxInvocations))).map
    (fun rule => rule.trigger.feature)).dedup

/-- What a step costs in which all of them read. -/
def worst (registry : Registry) (rules : List Rule) : Nat := registry.total (liveFeatures rules)

theorem mem_liveFeatures_iff {name : String} :
    name ∈ liveFeatures rules ↔
      ∃ rule ∈ rules, 1 ≤ rule.recovery.maxInvocations ∧ rule.trigger.feature = name := by
  rw [liveFeatures, List.mem_dedup, List.mem_map]
  constructor
  · rintro ⟨rule, mem, named⟩
    rw [List.mem_filter, decide_eq_true_eq] at mem
    exact ⟨rule, mem.1, mem.2, named⟩
  · rintro ⟨rule, mem, live, named⟩
    exact ⟨rule, List.mem_filter.mpr ⟨mem, decide_eq_true live⟩, named⟩

theorem live_of_awake (awake : Awake step slot) :
    1 ≤ slot.rule.recovery.maxInvocations := by
  have used := awake.1
  omega

theorem privilegeUsed_le_worst {registry : Registry} {values : List (String × Double)} {k : Nat}
    {episode : String} (passed : scan step (project values k episode) slots = .ok scanned)
    (chain : slots.map Slot.rule = rules) :
    scanned.1.privilegeUsed registry ≤ worst registry rules := by
  rcases reads_of_scan passed with ⟨_, unique, reads⟩
  apply registry.total_le_of_subset (unique List.nodup_nil)
  intro name mem
  rcases (reads name).mp mem with before | ⟨slot, listed, awake, named⟩
  · exact absurd before List.not_mem_nil
  · refine mem_liveFeatures_iff.mpr ⟨slot.rule, ?_, live_of_awake awake, named⟩
    rw [← chain]
    exact List.mem_map_of_mem listed

theorem worst_le_privilegeUsed {registry : Registry} (passed : scan step view slots = .ok scanned)
    (chain : slots.map Slot.rule = rules)
    (awake : ∀ slot ∈ slots, 1 ≤ slot.rule.recovery.maxInvocations → Awake step slot) :
    worst registry rules ≤ scanned.1.privilegeUsed registry := by
  apply registry.total_le_of_subset (List.nodup_dedup _)
  intro name mem
  rcases mem_liveFeatures_iff.mp mem with ⟨rule, listed, live, named⟩
  rw [← chain] at listed
  rcases List.mem_map.mp listed with ⟨slot, member_, rfl⟩
  exact ((reads_of_scan passed).2.2 name).mpr (Or.inr ⟨slot, member_, awake slot member_ live, named⟩)

end Rsi
end PhysicalHarness
