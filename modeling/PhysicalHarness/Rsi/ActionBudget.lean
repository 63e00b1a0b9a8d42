import PhysicalHarness.Rsi.Privilege

namespace PhysicalHarness
namespace Rsi

open Python Harness JsonText Fallible

/-!
# The action budget

A fire is asserted against the action budget with a view that nobody reads, and
the goal of its repair comes straight from the observation.  So the budget stops
either every fire or none, whatever percept the fired repair uses.
-/

/-! ## How long a rule can be kept from firing -/

/-- The invocations that a slot has left. -/
def Slot.left (slot : Slot) : Nat := (slot.rule.recovery.maxInvocations - slot.used).toNat

def remaining (slots : List Slot) : Nat := (slots.map Slot.left).sum

theorem remaining_map {slots : List Slot} {update : Slot → Slot}
    (same : ∀ slot, (update slot).left = slot.left) :
    remaining (slots.map update) = remaining slots := by
  rw [remaining, remaining, List.map_map]
  exact congrArg List.sum (List.map_congr_left (fun slot _ => same slot))

theorem remaining_reset (slots : List Slot) :
    remaining (slots.map (fun slot => { slot with consec := 0 })) = remaining slots :=
  remaining_map (fun _ => rfl)

theorem remaining_modify {slots : List Slot} {index : Nat} {slot : Slot}
    (found : slots[index]? = some slot)
    (unused : (slot.used : Int) < slot.rule.recovery.maxInvocations) :
    remaining (slots.modify index (fun slot => { slot with used := slot.used + 1 })) + 1 =
      remaining slots := by
  induction slots generalizing index with
  | nil => cases found
  | cons first rest ih =>
      cases index with
      | zero =>
          cases found
          rw [List.modify_zero_cons, remaining, remaining, List.map_cons, List.map_cons,
            List.sum_cons, List.sum_cons, Slot.left, Slot.left]
          push_cast
          omega
      | succ index =>
          have later := ih (show rest[index]? = some slot from found)
          rw [List.modify_succ_cons, remaining, remaining, List.map_cons, List.map_cons,
            List.sum_cons, List.sum_cons, Nat.add_assoc]
          exact congrArg _ later

def span (rule : Rule) : Nat := max rule.trigger.dwell.toNat 1

/-- A slot of the chain has not fired; it counts only when it is armed. -/
structure Pending (rule : Rule) (index consec : Nat) (critic : Critic) : Prop where
  slot : critic.slots[index]? = some ⟨rule, consec, 0⟩
  short : consec < span rule
  early : (critic.k : Int) < rule.trigger.armAfter → consec = 0

/-- It fires at the latest after so many steps on which its reading crosses. -/
def delay (rule : Rule) (consec : Nat) (critic : Critic) : Nat :=
  span rule * remaining critic.slots + (span rule - consec) +
    (rule.trigger.armAfter - critic.k).toNat

theorem left_stepped (step : Nat) (values : List (String × Double)) (slot : Slot) :
    (stepped step values slot).left = slot.left := rfl

section

variable [Sha256] [FloatText]

variable {registry : Registry} {bundle : Option Bundle}

theorem Pending.attend {rule : Rule} {index consec : Nat} {critic next : Critic}
    {view : FeatureView} {envStep : Nat} (pending : Pending rule index consec critic)
    (live : 1 ≤ rule.recovery.maxInvocations)
    (ready : rule.trigger.dwell ≤ 0 ∨ rule.trigger.crosses
      (reading rule.trigger.feature (view, envStep)) = true)
    (passed : critic.attend registry bundle view envStep = .ok next) :
    (∃ fire ∈ next.fires, fire.rule = rule) ∨
      ∃ consec_, Pending rule index consec_ next ∧ delay rule consec_ next < delay rule consec critic := by
  have k_ := Critic.k_of_attend passed
  have unused : (((0 : Nat) : Int)) < rule.recovery.maxInvocations := by
    rw [Nat.cast_zero]
    omega
  have mem := List.mem_of_getElem? pending.slot
  rcases attend_cases passed with ⟨empty, _⟩ | ⟨scanned, _, _, _, left⟩
  · rw [empty] at mem
    exact absurd mem List.not_mem_nil
  rcases left with ⟨unheld, slots, _⟩ | ⟨fired, slot, first, found, _, slots, fires⟩
  · -- no rule is held: the count goes on, and an armed rule was short of its dwell
    have waits := List.findIdx?_eq_none_iff.mp unheld _ mem
    have rest : remaining next.slots = remaining critic.slots := by
      rw [slots]
      exact remaining_map (left_stepped critic.k view.values)
    have here : next.slots[index]? = some (stepped critic.k view.values ⟨rule, consec, 0⟩) := by
      rw [slots, List.getElem?_map, pending.slot]
      rfl
    by_cases early : (critic.k : Int) < rule.trigger.armAfter
    · have asleep : ¬ Awake critic.k ⟨rule, consec, 0⟩ := fun awake =>
        absurd awake.2 (not_le.mpr early)
      rw [stepped, if_neg asleep] at here
      have none_ := pending.early early
      refine Or.inr ⟨0, ⟨here, Nat.lt_of_lt_of_le Nat.one_pos (le_max_right _ _), fun _ => rfl⟩, ?_⟩
      rw [delay, delay, rest, k_, none_]
      push_cast
      omega
    · have awake : Awake critic.k ⟨rule, consec, 0⟩ := ⟨unused, not_lt.mp early⟩
      rw [stepped, if_pos awake] at here
      have short : ¬ rule.trigger.dwell ≤ counted ⟨rule, consec, 0⟩
          (seen view.values ⟨rule, consec, 0⟩) :=
        fun enough => of_decide_eq_false waits ⟨awake, enough⟩
      have crosses : rule.trigger.crosses (seen view.values ⟨rule, consec, 0⟩) = true := by
        rcases ready with free | crosses
        · exact absurd (free.trans (Int.natCast_nonneg _)) short
        · exact crosses
      have count : counted ⟨rule, consec, 0⟩ (seen view.values ⟨rule, consec, 0⟩) = consec + 1 := by
        rw [counted, if_pos crosses]
      rw [count] at here short
      have within : consec + 1 < span rule := by
        rw [span]
        omega
      refine Or.inr ⟨consec + 1, ⟨here, within, fun armed => ?_⟩, ?_⟩
      · rw [k_] at armed
        omega
      · rw [delay, delay, rest, k_]
        omega
  · -- some rule fires: this one, or another that uses up one of its invocations
    by_cases same : fired = index
    · rw [same, pending.slot] at found
      cases found
      refine Or.inl ⟨⟨rule, critic.k, envStep⟩, ?_, rfl⟩
      rw [fires]
      exact List.mem_append_right _ (.head _)
    · rcases List.findIdx?_eq_some_iff_getElem.mp first with ⟨bound, holds, _⟩
      rw [List.getElem?_eq_getElem bound] at found
      cases found
      have awake := (of_decide_eq_true holds).1.1
      have charged : (critic.slots.map (stepped critic.k view.values))[fired]? =
          some (stepped critic.k view.values (critic.slots.get ⟨fired, bound⟩)) := by
        rw [List.getElem?_map, List.getElem?_eq_getElem bound]
        rfl
      have rest : remaining next.slots + 1 = remaining critic.slots := by
        rw [slots, remaining_reset, remaining_modify charged awake]
        exact remaining_map (left_stepped critic.k view.values)
      have here : next.slots[index]? = some ⟨rule, 0, 0⟩ := by
        rw [slots, List.getElem?_map, List.getElem?_modify, List.getElem?_map, pending.slot]
        simp only [Option.map_eq_map, Option.map_some, if_neg same]
        rfl
      have short := pending.short
      refine Or.inr ⟨0, ⟨here, Nat.lt_of_lt_of_le Nat.one_pos (le_max_right _ _), fun _ => rfl⟩, ?_⟩
      rw [delay, delay, ← rest, k_, Nat.mul_add, Nat.mul_one]
      omega

theorem Pending.follow {rule : Rule} {index consec : Nat} {critic last : Critic}
    {views : List (FeatureView × Nat)} (pending : Pending rule index consec critic)
    (live : 1 ≤ rule.recovery.maxInvocations)
    (ready : ∀ shown ∈ views, rule.trigger.dwell ≤ 0 ∨ rule.trigger.crosses
      (reading rule.trigger.feature shown) = true)
    (long : delay rule consec critic < views.length)
    (followed : critic.follow registry bundle views = .ok last) :
    ∃ fire ∈ last.fires, fire.rule = rule := by
  induction views generalizing critic consec with
  | nil => exact absurd long (Nat.not_lt_zero _)
  | cons first rest ih =>
      rcases of_bind followed with ⟨next, passed, later⟩
      rcases pending.attend live (ready first (.head _)) passed with
        ⟨fire, mem, fires⟩ | ⟨consec_, pending_, less⟩
      · exact ⟨fire, (Critic.fires_of_follow later).subset mem, fires⟩
      · refine ih pending_ (fun shown mem => ready shown (.tail _ mem)) ?_ later
        rw [List.length_cons] at long
        omega

end

section

variable [Sha256] [FloatText]

variable {registry : Registry} {bundle : Bundle}

end

section

local instance exactSha : Sha256 := sha256

local instance exactFloats : FloatText := exactDecimals

end

end Rsi
end PhysicalHarness
