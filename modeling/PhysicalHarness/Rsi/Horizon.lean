import PhysicalHarness.Rsi.Rollout

namespace PhysicalHarness
namespace Rsi

open Python Harness JsonText Fallible

/-!
# The steps of the environment

A rollout calls the environment once in a turn that has an action, also where the turn
raises afterwards.  A segment stays within its budget; the isolated sub-goals share one
horizon, and a sub-goal that is entered with nothing left of it has one step all the same.
-/

section

variable {World Obs Action Goal Actor : Type}

/-! ## One segment -/

/-- The calls of `env.step` in one turn. -/
def turnCalls (plant : Plant World Obs Action Goal Actor) (drive : Drive World Obs Actor) : Nat :=
  match (handBack plant drive).bind (command plant) with
  | .ok (some _) => 1
  | _ => 0

theorem turnCalls_le (plant : Plant World Obs Action Goal Actor) (drive : Drive World Obs Actor) :
    turnCalls plant drive ≤ 1 := by
  unfold turnCalls
  split
  · exact Nat.le_refl 1
  · exact Nat.zero_le 1

variable [Sha256] [FloatText]

variable (registry : Registry) (plant : Plant World Obs Action Goal Actor) (spec : EpisodeSpec)
  (bundle : Option Bundle)

/-- The calls of the loop, for what is left of the budget; a turn that raises is its last. -/
def loopCalls : Nat → Drive World Obs Actor → Nat
  | 0, _ => 0
  | left + 1, drive =>
      turnCalls plant drive +
        match watch registry plant spec bundle drive with
        | .ok (.next next, _) => loopCalls left next
        | _ => 0

/-- The calls of `governed_segment`. -/
def segmentCalls (world : World) (obs : Obs) (stepBudget : Int) : Nat :=
  loopCalls registry plant spec bundle stepBudget.toNat (openingDrive spec bundle world obs)

theorem loopCalls_le (left : Nat) (drive : Drive World Obs Actor) :
    loopCalls registry plant spec bundle left drive ≤ left := by
  induction left generalizing drive with
  | zero => exact Nat.le_refl 0
  | succ left ih =>
      have one := turnCalls_le plant drive
      unfold loopCalls
      split
      · rename_i next _ _
        have later := ih next
        omega
      · omega

theorem segmentCalls_le (world : World) (obs : Obs) (stepBudget : Int) :
    segmentCalls registry plant spec bundle world obs stepBudget ≤ stepBudget.toNat :=
  loopCalls_le registry plant spec bundle _ _

theorem segmentCalls_one (world : World) (obs : Obs) :
    segmentCalls registry plant spec bundle world obs 1 =
      turnCalls plant (openingDrive spec bundle world obs) := by
  change turnCalls plant _ + _ = _
  split <;> rfl

variable {registry plant spec bundle}

variable {drive : Drive World Obs Actor}

end

section

variable {World Obs Action Goal Actor : Type} [Sha256] [FloatText]

variable (registry : Registry) (embodiment : Embodiment World Obs Action Goal Actor)
  (spec : RolloutSpec) (bundle : Option Bundle)

omit [Sha256] [FloatText] in
/-- The driver has an action: it is not exhausted, and `act` does not raise. -/
def ready (plant : Plant World Obs Action Goal Actor) (world : World) (obs : Obs) : Bool :=
  !plant.exhausted world && (plant.act world obs).toOption.isSome

end

section

variable {World Obs Action Goal Actor : Type} [Sha256] [FloatText] {registry : Registry}
  {embodiment : Embodiment World Obs Action Goal Actor} {spec : RolloutSpec} {bundle : Option Bundle}

omit [FloatText] in
theorem turnCalls_opening (plant : Plant World Obs Action Goal Actor) (episode : EpisodeSpec)
    (world : World) (obs : Obs) :
    turnCalls plant (openingDrive episode bundle world obs) = (ready plant world obs).toNat := by
  unfold turnCalls ready
  change (match command plant (openingDrive episode bundle world obs) with
    | .ok (some _) => 1
    | _ => 0) = _
  cases ended : plant.exhausted world with
  | true =>
      have stops : command plant (openingDrive episode bundle world obs) = .ok none := if_pos ended
      rw [stops]
      rfl
  | false =>
      have acts : command plant (openingDrive episode bundle world obs) =
          (plant.act world obs).map (fun acted =>
            some (acted.1, true, { openingDrive episode bundle world obs with world := acted.2 })) :=
        if_neg (fun done : plant.exhausted world = true => Bool.false_ne_true (ended.symm.trans done))
      rw [acts]
      cases plant.act world obs <;> rfl

/-- What a sub-goal takes of the horizon: at most what is left, and where nothing is left one
step of a driver that has an action. -/
theorem charged (registry : Registry) (bundle : Option Bundle)
    (plant : Plant World Obs Action Goal Actor) (episode : EpisodeSpec) (world : World) (obs : Obs) {horizon : Int} {cursor : Nat} (within : (cursor : Int) ≤ horizon) :
    (((cursor + segmentCalls registry plant episode bundle world obs (max (horizon - cursor) 1) : Nat) :
        Int) ≤ horizon ↔ (decide (horizon ≤ cursor) && ready plant world obs) = false) := by
  by_cases spent : horizon ≤ cursor
  · have budget : max (horizon - cursor) 1 = 1 := by omega
    rw [budget, segmentCalls_one, turnCalls_opening, decide_eq_true spent, Bool.true_and]
    cases ready plant world obs with
    | true =>
        constructor
        · intro fits
          rw [Bool.toNat_true] at fits
          omega
        · exact nofun
    | false => exact ⟨fun _ => rfl, fun _ => within⟩
  · have budget : max (horizon - cursor) 1 = horizon - cursor := by omega
    have calls := segmentCalls_le registry plant episode bundle world obs (horizon - cursor)
    rw [budget, decide_eq_false spent, Bool.false_and]
    constructor
    · intro _
      rfl
    · intro _
      omega

end

end Rsi
end PhysicalHarness
