import Mathlib.Data.List.Enum
import PhysicalHarness.Rsi.Reads

namespace PhysicalHarness
namespace Rsi

open Python Harness JsonText Fallible

/-!
# What happens in a segment, step by step

The readouts of a segment are those of its last critic.  Its transcript keeps what the
environment was given and what it showed, who owned the step, and which rule fired, so
that the readouts can be compared with the run they come from.
-/

/-- One step of the environment. -/
structure Moment (Action Obs : Type) where
  action : Action
  obs : Obs
  /-- The environment's `done`. -/
  ended : Bool
  /-- `policy_owned`. -/
  owned : Bool
  /-- The chain position of the rule that fired. -/
  fired : Option Nat

namespace Moment

variable {Action Obs : Type}

def governed (moment : Moment Action Obs) : Bool := moment.owned && !moment.ended

end Moment

section

variable {World Obs Action Goal Actor : Type} [Sha256] [FloatText]

variable (registry : Registry) (plant : Plant World Obs Action Goal Actor) (spec : EpisodeSpec)
  (bundle : Option Bundle)

/-- The critic on one policy-owned step, with the position of the rule that fires. -/
def governAt (drive : Drive World Obs Actor) :
    Except Halt (Drive World Obs Actor × Option Nat) :=
  (lift (plant.view spec drive.obs (registry.admitted (criticBudget bundle))
    drive.critic.k)).bind (fun view =>
      let logged := drive.critic.log view
      (lift (stageStep registry plant spec drive.world drive.obs logged.k drive.board)).bind
        (fun board =>
          (logged.judge registry (criticBudget bundle) view).bind (fun judged =>
            let drive := { drive with critic := judged.1, board }
            match judged.2 with
            | none => .ok (drive, none)
            | some index =>
                (dispatch registry plant spec bundle drive index).map (fun next =>
                  (next, some index)))))

/-- One turn of the loop, with the step that it took of the environment. -/
def watch (drive : Drive World Obs Actor) :
    Except Halt (Turn World Obs Actor × Option (Moment Action Obs)) :=
  (lift (handBack plant drive)).bind (fun drive =>
    (lift (command plant drive)).bind (fun commanded =>
      match commanded with
      | none => .ok (.stop drive, none)
      | some (action, policyOwned, drive) =>
          (lift (plant.step drive.world action)).bind (fun stepped =>
            let drive := { drive with world := stepped.2.2, obs := stepped.1, t := drive.t + 1 }
            if stepped.2.1 then
              .ok (.stop drive, some ⟨action, stepped.1, true, policyOwned, none⟩)
            else if policyOwned then
              (governAt registry plant spec bundle drive).map (fun governed =>
                (.next governed.1, some ⟨action, stepped.1, false, true, governed.2⟩))
            else .ok (.next drive, some ⟨action, stepped.1, false, false, none⟩))))

/-- The steps of the loop, for what is left of the budget. -/
def transcript : Nat → Drive World Obs Actor →
    Except Halt (List (Moment Action Obs) × Drive World Obs Actor)
  | 0, drive => .ok ([], drive)
  | left + 1, drive =>
      (watch registry plant spec bundle drive).bind (fun watched =>
        match watched.1 with
        | .stop drive => .ok (watched.2.toList, drive)
        | .next drive =>
            (transcript left drive).map (fun later => (watched.2.toList ++ later.1, later.2)))

/-- The loop before its first step. -/
def openingDrive (world : World) (obs : Obs) : Drive World Obs Actor :=
  ⟨world, obs, freshCritic bundle, none, 0,
    spec.stages.map (fun stages => ⟨bounds 0 stages, 0, 0, []⟩)⟩

theorem govern_eq (drive : Drive World Obs Actor) : govern registry plant spec bundle drive =
    (governAt registry plant spec bundle drive).map Prod.fst := by
  rw [govern, governAt]
  cases lift (plant.view spec drive.obs (registry.admitted (criticBudget bundle)) drive.critic.k) with
  | error halt => rfl
  | ok view =>
      simp only [Except.bind]
      cases lift (stageStep registry plant spec drive.world drive.obs
        (drive.critic.log view).k drive.board) with
      | error halt => rfl
      | ok board =>
          simp only []
          cases (drive.critic.log view).judge registry (criticBudget bundle) view with
          | error halt => rfl
          | ok judged =>
              rcases judged with ⟨critic, _ | index⟩
              · rfl
              · simp only []
                cases dispatch registry plant spec bundle
                  { drive with critic, board } index with
                | error halt => rfl
                | ok next => rfl

theorem turn_eq (drive : Drive World Obs Actor) : turn registry plant spec bundle drive =
    (watch registry plant spec bundle drive).map Prod.fst := by
  rw [turn, watch]
  cases lift (handBack plant drive) with
  | error halt => rfl
  | ok first =>
      simp only [Except.bind]
      cases lift (command plant first) with
      | error halt => rfl
      | ok commanded =>
          rcases commanded with _ | ⟨action, owned, second⟩
          · rfl
          simp only []
          cases lift (plant.step second.world action) with
          | error halt => rfl
          | ok stepped =>
              rcases stepped with ⟨obs, done, world⟩
              cases done with
              | true => rfl
              | false =>
                  cases owned with
                  | false => rfl
                  | true =>
                      simp only [Bool.false_eq_true, if_false, if_true]
                      rw [govern_eq]
                      cases governAt registry plant spec bundle
                        { second with world, obs, t := second.t + 1 } with
                      | error halt => rfl
                      | ok governed => rfl

theorem driveFor_eq (left : Nat) (drive : Drive World Obs Actor) :
    driveFor registry plant spec bundle left drive =
      (transcript registry plant spec bundle left drive).map Prod.snd := by
  induction left generalizing drive with
  | zero => rfl
  | succ left ih =>
      rw [driveFor, transcript, turn_eq]
      cases watch registry plant spec bundle drive with
      | error halt => rfl
      | ok watched =>
          rcases watched with ⟨next | next, moment⟩
          · rfl
          · change driveFor registry plant spec bundle left next =
              ((transcript registry plant spec bundle left next).map (fun later =>
                (moment.toList ++ later.1, later.2))).map Prod.snd
            rw [ih]
            cases transcript registry plant spec bundle left next with
            | error halt => rfl
            | ok later => rfl

variable {registry plant spec bundle}

theorem transcript_of_segment {world : World} {obs : Obs} {stepBudget : Int} {segment : Segment Obs}
    (ran : governedSegment registry plant spec bundle world obs stepBudget = .ok segment) :
    ∃ moments last stages,
      transcript registry plant spec bundle stepBudget.toNat (openingDrive spec bundle world obs) =
        .ok (moments, last) ∧
      settleStages registry plant spec last.world last.obs last.critic.k last.board = .ok stages ∧
      segment = ⟨last.obs, last.t, last.critic.k, last.critic.fires, last.critic.chain,
        last.critic.privilegeUsed, last.critic.history, stages⟩ := by
  rcases of_bind ran with ⟨last, driven, later⟩
  rcases map_eq_ok.mp later with ⟨stages, settled, rfl⟩
  rw [driveFor_eq] at driven
  rcases map_eq_ok.mp driven with ⟨found, watched, rfl⟩
  exact ⟨found.1, found.2, stages, watched, lift_eq_ok.mp settled, rfl⟩

/-- The governed steps, each with its step of the environment, the first of which is `t`. -/
def governedSteps (t : Nat) (moments : List (Moment Action Obs)) : List (Moment Action Obs × Nat) :=
  (moments.zipIdx t).filter (fun step => step.1.governed)

omit [Sha256] [FloatText] in
theorem governedSteps_append (t : Nat) (moments more : List (Moment Action Obs)) :
    governedSteps t (moments ++ more) =
      governedSteps t moments ++ governedSteps (t + moments.length) more := by
  rw [governedSteps, List.zipIdx_append, List.filter_append]
  rfl

omit [Sha256] [FloatText] in
theorem governedSteps_singleton (t : Nat) (moment : Moment Action Obs) :
    governedSteps t [moment] = if moment.governed then [(moment, t)] else [] := by
  rw [governedSteps, List.zipIdx_singleton, List.filter_singleton]
  exact Bool.cond_eq_ite _ _ _

theorem watch_cases {drive : Drive World Obs Actor}
    {watched : Turn World Obs Actor × Option (Moment Action Obs)}
    (ran : watch registry plant spec bundle drive = .ok watched) :
    (∃ next, next.critic = drive.critic ∧ next.t = drive.t ∧ watched = (.stop next, none)) ∨
    (∃ next moment, next.critic = drive.critic ∧ next.t = drive.t + 1 ∧ moment.governed = false ∧
      moment.fired = none ∧ (watched = (.stop next, some moment) ∨ watched = (.next next, some moment))) ∨
    (∃ stepped next fired action, stepped.critic = drive.critic ∧ stepped.t = drive.t + 1 ∧
      governAt registry plant spec bundle stepped = .ok (next, fired) ∧
      watched = (.next next, some ⟨action, stepped.obs, false, true, fired⟩)) := by
  rcases of_bind ran with ⟨first, handed, ran⟩
  have idle := unattended_of_handBack (lift_eq_ok.mp handed)
  rcases of_bind ran with ⟨commanded, orders, ran⟩
  rcases commanded with _ | ⟨action, owned, second⟩
  · cases ran
    exact Or.inl ⟨first, idle.critic, idle.clock, rfl⟩
  have idle_ := unattended_of_command (lift_eq_ok.mp orders)
  have critic := idle_.critic.trans idle.critic
  have clock : second.t + 1 = drive.t + 1 := congrArg (· + 1) (idle_.clock.trans idle.clock)
  rcases of_bind ran with ⟨⟨obs, done, world⟩, _, ran⟩
  let next : Drive World Obs Actor := { second with world, obs, t := second.t + 1 }
  cases done with
  | true =>
      cases ran
      exact Or.inr (Or.inl ⟨next, ⟨action, obs, true, owned, none⟩, critic, clock,
        Bool.and_false owned, rfl, Or.inl rfl⟩)
  | false =>
      cases owned with
      | false =>
          cases ran
          exact Or.inr (Or.inl ⟨next, ⟨action, obs, false, false, none⟩, critic, clock, rfl, rfl,
            Or.inr rfl⟩)
      | true =>
          rcases map_eq_ok.mp ran with ⟨governed, done, rfl⟩
          exact Or.inr (Or.inr ⟨next, governed.1, governed.2, action, critic, clock, done, rfl⟩)

omit [Sha256] [FloatText] in
theorem clock_of_dispatch {drive next : Drive World Obs Actor} {index : Nat}
    (dispatched : dispatch registry plant spec bundle drive index = .ok next) : next.t = drive.t := by
  rcases of_bind dispatched with ⟨view, _, later⟩
  split at later
  · cases later
  · simp only [] at later
    split at later
    · cases later
      rfl
    · rcases map_eq_ok.mp later with ⟨started, _, rfl⟩
      rfl

theorem attend_of_governAt {drive next : Drive World Obs Actor} {fired : Option Nat}
    (governed : governAt registry plant spec bundle drive = .ok (next, fired)) :
    ∃ view, plant.view spec drive.obs (registry.admitted (criticBudget bundle)) drive.critic.k =
        .ok view ∧
      drive.critic.attend registry bundle view (drive.t - 1) = .ok next.critic ∧
      fired = drive.critic.slots.findIdx? (held drive.critic.k view.values) ∧ next.t = drive.t := by
  rcases of_bind governed with ⟨view, seen, later⟩
  rcases of_bind later with ⟨board, _, later⟩
  rcases of_bind later with ⟨⟨critic, triggered⟩, judged, later⟩
  have first : triggered = drive.critic.slots.findIdx? (held drive.critic.k view.values) := by
    rcases Critic.judge_cases judged with ⟨empty, same⟩ | ⟨scanned, done, _, same⟩
    · have slots : drive.critic.slots = [] := empty
      rw [slots]
      exact congrArg Prod.snd same
    · have found : triggered = scanned.2.2 := congrArg Prod.snd same
      have done_ : scan drive.critic.k view drive.critic.slots = .ok scanned := done
      rw [found]
      exact congrArg Prod.snd (scan_eq done_)
  refine ⟨view, lift_eq_ok.mp seen, ?_⟩
  rw [Critic.attend, judged]
  cases triggered with
  | none =>
      cases later
      exact ⟨rfl, first, rfl⟩
  | some index =>
      rcases map_eq_ok.mp later with ⟨last, dispatched, same⟩
      cases same
      rcases critic_of_dispatch dispatched with ⟨within, fires⟩
      have clock := clock_of_dispatch dispatched
      rw [fires]
      exact ⟨if_neg within, first, clock⟩

end

end Rsi
end PhysicalHarness
