import PhysicalHarness.Lib.Fallible
import PhysicalHarness.Rsi.Governed

namespace PhysicalHarness
namespace Rsi

open Python Harness JsonText Fallible

/-!
# What the critic is shown

A run shows the critic one view for each policy-owned step, and nothing but these
views reaches its rules.  The critic at the end of a run is a fold over the views;
a violation or a missing feature comes from one of them.
-/

variable [Sha256] [FloatText]

def Critic.respond (bundle : Option Bundle) (envStep : Nat) : Critic × Option Nat → Except Halt Critic
  | (critic, none) => .ok critic
  | (critic, some index) =>
      if actionBudget bundle < 0 then .error (.invariantViolation "recovery")
      else .ok (critic.fire index envStep)

/-- The critic on one view: the log, the rules, and what they trigger. -/
def Critic.attend (registry : Registry) (bundle : Option Bundle) (critic : Critic)
    (view : FeatureView) (envStep : Nat) : Except Halt Critic :=
  ((critic.log view).judge registry (criticBudget bundle) view).bind (Critic.respond bundle envStep)

def Critic.follow (registry : Registry) (bundle : Option Bundle) (critic : Critic) :
    List (FeatureView × Nat) → Except Halt Critic
  | [] => .ok critic
  | shown :: rest =>
      (critic.attend registry bundle shown.1 shown.2).bind (fun next =>
        next.follow registry bundle rest)

variable {judged : Critic × Option Nat} {view : FeatureView} {envStep : Nat}

omit [Sha256] [FloatText] in
theorem Critic.k_of_respond {bundle : Option Bundle} {next : Critic}
    (responded : Critic.respond bundle envStep judged = .ok next) :
    next.k = judged.1.k := by
  rcases judged with ⟨critic, _ | index⟩
  · cases responded
    rfl
  · rw [respond] at responded
    split at responded
    · cases responded
    · cases responded
      rfl

/-- The views of an episode from step `k` on: the admitted features and no reads. -/
def Shown (names : List String) (episode : String) (k : Nat) : List (FeatureView × Nat) → Prop
  | [] => True
  | shown :: rest => (∃ values, shown.1 = project values k episode ∧ Assoc.keys values = names) ∧
      Shown names episode (k + 1) rest

omit [Sha256] [FloatText] in
/-- What the rules on one view leave: without rules nothing, else what the scan
gives when its reads fit the budget. -/
theorem Critic.judge_cases {registry : Registry} {budget : Int} {critic : Critic}
    (passed : critic.judge registry budget view = .ok judged) :
    (critic.slots = [] ∧ judged = (critic, none)) ∨
    (∃ scanned, scan (critic.k - 1) view critic.slots = .ok scanned ∧
      ¬ budget < scanned.1.privilegeUsed registry ∧
      judged = ({ critic with
        slots := scanned.2.1
        privilegeUsed := max critic.privilegeUsed (scanned.1.privilegeUsed registry) },
        scanned.2.2)) := by
  rw [judge] at passed
  split at passed
  · rename_i empty
    cases passed
    exact Or.inl ⟨List.isEmpty_iff.mp empty, rfl⟩
  · rcases of_bind passed with ⟨scanned, done, later⟩
    split at later
    · cases later
    · rename_i within
      cases later
      exact Or.inr ⟨scanned, done, within, rfl⟩

omit [Sha256] [FloatText] in
theorem Critic.kept_of_judge {registry : Registry} {budget : Int} {critic : Critic}
    (passed : critic.judge registry budget view = .ok judged) :
    judged.1.k = critic.k ∧ judged.1.history = critic.history ∧ judged.1.chain = critic.chain ∧
      judged.1.fires = critic.fires := by
  rcases judge_cases passed with ⟨_, rfl⟩ | ⟨scanned, _, _, rfl⟩
  · exact ⟨rfl, rfl, rfl, rfl⟩
  · exact ⟨rfl, rfl, rfl, rfl⟩

theorem Critic.k_of_attend {registry : Registry} {bundle : Option Bundle} {critic next : Critic}
    (passed : critic.attend registry bundle view envStep = .ok next) : next.k = critic.k + 1 := by
  rcases of_bind passed with ⟨judged, done, later⟩
  rw [k_of_respond later, (kept_of_judge done).1]
  rfl

theorem Critic.k_of_follow {registry : Registry} {bundle : Option Bundle} {critic last : Critic}
    {views : List (FeatureView × Nat)} (followed : critic.follow registry bundle views = .ok last) :
    last.k = critic.k + views.length := by
  induction views generalizing critic with
  | nil =>
      cases followed
      rfl
  | cons shown rest ih =>
      rcases of_bind followed with ⟨next, passed, later⟩
      rw [ih later, k_of_attend passed, List.length_cons, Nat.add_assoc, Nat.add_comm 1]

theorem Critic.log_of_attend {registry : Registry} {bundle : Option Bundle} {critic next : Critic}
    (passed : critic.attend registry bundle view envStep = .ok next) :
    next.history = record critic.history view.values ∧
      next.chain = chainStep critic.chain view.digest [] ∧ critic.fires <+: next.fires := by
  rcases of_bind passed with ⟨judged, done, later⟩
  rcases kept_of_judge done with ⟨_, history, chain, fires⟩
  rcases judged with ⟨judged, _ | index⟩
  · cases later
    exact ⟨history, chain, fires ▸ List.prefix_refl _⟩
  · rw [respond] at later
    split at later
    · cases later
    · cases later
      refine ⟨history, chain, ?_⟩
      rw [fire]
      simp only [] at fires
      rw [fires]
      exact List.prefix_append _ _

theorem Critic.fires_of_follow {registry : Registry} {bundle : Option Bundle} {critic last : Critic}
    {views : List (FeatureView × Nat)} (followed : critic.follow registry bundle views = .ok last) :
    critic.fires <+: last.fires := by
  induction views generalizing critic with
  | nil =>
      cases followed
      exact List.prefix_refl _
  | cons shown rest ih =>
      rcases of_bind followed with ⟨next, passed, later⟩
      exact (log_of_attend passed).2.2.trans (ih later)

omit [Sha256] [FloatText] in
theorem rule_of_visit {step : Nat} {slot : Slot} {visited : FeatureView × Slot × Bool}
    (passed : visit step view slot = .ok visited) :
    visited.2.1.rule = slot.rule := by
  rw [visit] at passed
  split at passed
  · cases passed
    rfl
  · split at passed
    · cases passed
      rfl
    · split at passed
      · cases passed
      · cases passed
        rfl

omit [Sha256] [FloatText] in
theorem rules_of_scan {step : Nat} {slots : List Slot}
    {scanned : FeatureView × List Slot × Option Nat} (passed : scan step view slots = .ok scanned) :
    scanned.2.1.map Slot.rule = slots.map Slot.rule := by
  induction slots generalizing view scanned with
  | nil =>
      cases passed
      rfl
  | cons slot rest ih =>
      rcases of_bind passed with ⟨visited, here, later⟩
      rcases map_eq_ok.mp later with ⟨others, there, rfl⟩
      rw [List.map_cons, List.map_cons, rule_of_visit here, ih there]

omit [Sha256] [FloatText] in
theorem Critic.rules_of_fire (critic : Critic) (index envStep : Nat) :
    (critic.fire index envStep).slots.map Slot.rule = critic.slots.map Slot.rule := by
  rw [fire, List.map_map]
  apply List.ext_getElem?
  intro place
  rw [List.getElem?_map, List.getElem?_map, List.getElem?_modify]
  cases critic.slots[place]? with
  | none => rfl
  | some slot =>
      by_cases same : index = place
      · simp [same]
      · simp [same]

omit [Sha256] [FloatText] in
theorem Critic.rules_of_judge {registry : Registry} {budget : Int} {critic : Critic}
    (passed : critic.judge registry budget view = .ok judged) :
    judged.1.slots.map Slot.rule = critic.slots.map Slot.rule := by
  rcases judge_cases passed with ⟨_, rfl⟩ | ⟨scanned, done, _, rfl⟩
  · rfl
  · exact rules_of_scan done

omit [Sha256] [FloatText] in
theorem Critic.rules_of_respond {bundle : Option Bundle} {next : Critic}
    (responded : Critic.respond bundle envStep judged = .ok next) :
    next.slots.map Slot.rule = judged.1.slots.map Slot.rule := by
  rcases judged with ⟨critic, _ | index⟩
  · cases responded
    rfl
  · rw [respond] at responded
    split at responded
    · cases responded
    · cases responded
      exact rules_of_fire critic index envStep

theorem Critic.rules_of_attend {registry : Registry} {bundle : Option Bundle} {critic next : Critic}
    (passed : critic.attend registry bundle view envStep = .ok next) :
    next.slots.map Slot.rule = critic.slots.map Slot.rule := by
  rcases of_bind passed with ⟨judged, done, later⟩
  have judged_ : judged.1.slots.map Slot.rule = (critic.log view).slots.map Slot.rule :=
    rules_of_judge done
  exact (rules_of_respond later).trans judged_

/-! ## From the loop to the views -/

section

variable {World Obs Action Goal Actor : Type} {registry : Registry}
  {plant : Plant World Obs Action Goal Actor} {spec : EpisodeSpec} {bundle : Option Bundle}

/-- The label of the views of an episode. -/
def EpisodeSpec.episode (spec : EpisodeSpec) : String := String.ofList ('s' :: intText spec.seed)

omit [Sha256] [FloatText] in
theorem exists_of_view {obs : Obs} {names : List String} {step : Nat} {view : FeatureView}
    (seen : plant.view spec obs names step = .ok view) :
    ∃ values, view = project values step spec.episode ∧ Assoc.keys values = names := by
  rcases map_eq_ok.mp seen with ⟨values, read, rfl⟩
  refine ⟨values, rfl, ?_⟩
  have pairs := mapM_eq_ok_iff.mp read
  clear read seen
  induction pairs with
  | nil => rfl
  | cons here _ ih =>
      rcases map_eq_ok.mp here with ⟨value, _, rfl⟩
      rw [Assoc.keys_cons, ih]

omit [Sha256] [FloatText] in
theorem lift_eq_ok {α : Type} {run : Except PyError α} {value : α} :
    lift run = .ok value ↔ run = .ok value := by
  cases run with
  | error error =>
      constructor <;> intro never <;> cases never
  | ok other =>
      constructor <;> intro same <;> cases same <;> rfl

omit [Sha256] [FloatText] in
theorem lift_eq_error {α : Type} {run : Except PyError α} {halt : Halt}
    (raised : lift run = .error halt) : ∃ error, halt = .raised error := by
  cases run with
  | error error =>
      cases raised
      exact ⟨error, rfl⟩
  | ok value => cases raised

omit [Sha256] [FloatText] in
theorem privilegeUsed_of_view {obs : Obs} {names : List String} {step : Nat} {view : FeatureView}
    (seen : plant.view spec obs names step = .ok view) : view.privilegeUsed registry = 0 := by
  rcases exists_of_view seen with ⟨values, rfl, _⟩
  rfl

omit [Sha256] [FloatText] in
theorem critic_of_dispatch {drive last : Drive World Obs Actor} {index : Nat}
    (dispatched : dispatch registry plant spec bundle drive index = .ok last) :
    ¬ actionBudget bundle < 0 ∧ last.critic = drive.critic.fire index (drive.t - 1) := by
  rcases of_bind dispatched with ⟨view, seen, later⟩
  have nothing : view.privilegeUsed registry = 0 := privilegeUsed_of_view (lift_eq_ok.mp seen)
  rw [nothing] at later
  split at later
  · cases later
  · rename_i within
    refine ⟨within, ?_⟩
    simp only [] at later
    cases found : (drive.critic.fire index (drive.t - 1)).slots[index]? with
    | none =>
        rw [found] at later
        cases later
        rfl
    | some slot =>
        rw [found] at later
        rcases map_eq_ok.mp later with ⟨started, _, rfl⟩
        rfl

theorem attend_of_govern {drive next : Drive World Obs Actor}
    (governed : govern registry plant spec bundle drive = .ok next) :
    ∃ view, (∃ values, view = project values drive.critic.k spec.episode ∧
        Assoc.keys values = registry.admitted (criticBudget bundle)) ∧
      drive.critic.attend registry bundle view (drive.t - 1) = .ok next.critic := by
  rcases of_bind governed with ⟨view, seen, later⟩
  refine ⟨view, exists_of_view (lift_eq_ok.mp seen), ?_⟩
  rcases of_bind later with ⟨board, _, later⟩
  rcases of_bind later with ⟨judged, passed, later⟩
  rw [Critic.attend, passed]
  rcases judged with ⟨critic, _ | index⟩
  · cases later
    rfl
  · rcases critic_of_dispatch later with ⟨within, fired⟩
    rw [fired]
    exact if_neg within

theorem attend_of_govern_error {drive : Drive World Obs Actor} {halt : Halt}
    (governed : govern registry plant spec bundle drive = .error halt) :
    (∃ error, halt = .raised error) ∨ ∃ view, (∃ values,
        view = project values drive.critic.k spec.episode ∧
          Assoc.keys values = registry.admitted (criticBudget bundle)) ∧
      drive.critic.attend registry bundle view (drive.t - 1) = .error halt := by
  rcases bind_eq_error.mp governed with raised | ⟨view, seen, later⟩
  · exact Or.inl (lift_eq_error raised)
  rcases bind_eq_error.mp later with raised | ⟨board, _, later⟩
  · exact Or.inl (lift_eq_error raised)
  rcases bind_eq_error.mp later with violated | ⟨judged, passed, later⟩
  · refine Or.inr ⟨view, exists_of_view (lift_eq_ok.mp seen), ?_⟩
    rw [Critic.attend, violated]
    rfl
  · rcases judged with ⟨critic, _ | index⟩
    · cases later
    rcases bind_eq_error.mp later with raised | ⟨actView, seen_, later⟩
    · exact Or.inl (lift_eq_error raised)
    have nothing : actView.privilegeUsed registry = 0 := privilegeUsed_of_view (lift_eq_ok.mp seen_)
    rw [nothing] at later
    split at later
    · rename_i beyond
      cases later
      refine Or.inr ⟨view, exists_of_view (lift_eq_ok.mp seen), ?_⟩
      rw [Critic.attend, passed]
      exact if_pos beyond
    · simp only [] at later
      split at later
      · cases later
      · exact Or.inl (lift_eq_error (map_eq_error.mp later))

structure Unattended (drive next : Drive World Obs Actor) : Prop where
  critic : next.critic = drive.critic
  board : next.board = drive.board
  clock : next.t = drive.t

omit [Sha256] [FloatText] in
theorem unattended_of_handBack {drive next : Drive World Obs Actor}
    (handed : handBack plant drive = .ok next) : Unattended drive next := by
  rw [handBack] at handed
  split at handed
  · cases handed
    exact ⟨rfl, rfl, rfl⟩
  · split at handed
    · rcases map_eq_ok.mp handed with ⟨world, _, rfl⟩
      exact ⟨rfl, rfl, rfl⟩
    · cases handed
      exact ⟨rfl, rfl, rfl⟩

omit [Sha256] [FloatText] in
theorem unattended_of_command {drive next : Drive World Obs Actor} {action : Action} {owned : Bool}
    (commanded : command plant drive = .ok (some (action, owned, next))) :
    Unattended drive next := by
  rw [command] at commanded
  split at commanded
  · rcases map_eq_ok.mp commanded with ⟨acted, _, same⟩
    cases same
    exact ⟨rfl, rfl, rfl⟩
  · split at commanded
    · cases commanded
    · rcases map_eq_ok.mp commanded with ⟨acted, _, same⟩
      cases same
      exact ⟨rfl, rfl, rfl⟩

variable (registry plant spec bundle) in
/-- What one turn can do: raise outside the critic, leave the critic alone, or
govern one step. -/
theorem turn_cases (drive : Drive World Obs Actor) :
    (∃ error, turn registry plant spec bundle drive = .error (.raised error)) ∨
    (∃ next, next.critic = drive.critic ∧
      (turn registry plant spec bundle drive = .ok (.stop next) ∨
        turn registry plant spec bundle drive = .ok (.next next))) ∨
    (∃ stepped, stepped.critic = drive.critic ∧ turn registry plant spec bundle drive =
      (govern registry plant spec bundle stepped).map Turn.next) := by
  rw [turn]
  cases handed : handBack plant drive with
  | error error => exact Or.inl ⟨error, rfl⟩
  | ok first =>
      have critic := (unattended_of_handBack handed).critic
      simp only [lift, Except.bind]
      cases commanded : command plant first with
      | error error => exact Or.inl ⟨error, rfl⟩
      | ok found =>
          rcases found with _ | ⟨action, owned, second⟩
          · exact Or.inr (Or.inl ⟨first, critic, Or.inl rfl⟩)
          have critic_ := (unattended_of_command commanded).critic.trans critic
          simp only []
          cases plant.step second.world action with
          | error error => exact Or.inl ⟨error, rfl⟩
          | ok stepped =>
              rcases stepped with ⟨obs, done, world⟩
              let next : Drive World Obs Actor := { second with world, obs, t := second.t + 1 }
              have kept : next.critic = drive.critic := critic_
              cases done with
              | true => exact Or.inr (Or.inl ⟨next, kept, Or.inl rfl⟩)
              | false =>
                  cases owned with
                  | true => exact Or.inr (Or.inr ⟨next, kept, rfl⟩)
                  | false => exact Or.inr (Or.inl ⟨next, kept, Or.inr rfl⟩)

theorem follow_of_driveFor {left : Nat} {drive last : Drive World Obs Actor}
    (ran : driveFor registry plant spec bundle left drive = .ok last) :
    ∃ views, Shown (registry.admitted (criticBudget bundle)) spec.episode drive.critic.k views ∧
      drive.critic.follow registry bundle views = .ok last.critic := by
  induction left generalizing drive with
  | zero =>
      cases ran
      exact ⟨[], trivial, rfl⟩
  | succ left ih =>
      rw [driveFor] at ran
      rcases turn_cases registry plant spec bundle drive with ⟨error, raised⟩ | ⟨next, critic, stopped | went⟩ | ⟨stepped, critic, governed⟩
      · rw [raised] at ran
        cases ran
      · rw [stopped] at ran
        cases ran
        exact ⟨[], trivial, congrArg Except.ok critic.symm⟩
      · rw [went] at ran
        rw [← critic]
        exact ih ran
      · rw [governed] at ran
        rcases of_bind ran with ⟨turned, mapped, later⟩
        rcases map_eq_ok.mp mapped with ⟨next, done, rfl⟩
        rcases attend_of_govern done with ⟨view, shown, attended⟩
        rcases ih later with ⟨views, shown_, followed⟩
        rw [critic] at shown attended
        refine ⟨(view, stepped.t - 1) :: views, ⟨shown, ?_⟩, ?_⟩
        · rw [← Critic.k_of_attend attended]
          exact shown_
        · rw [Critic.follow, attended]
          exact followed

theorem follow_of_driveFor_error {left : Nat} {drive : Drive World Obs Actor} {halt : Halt}
    (ran : driveFor registry plant spec bundle left drive = .error halt) :
    (∃ error, halt = .raised error) ∨ ∃ views,
      Shown (registry.admitted (criticBudget bundle)) spec.episode drive.critic.k views ∧
        drive.critic.follow registry bundle views = .error halt := by
  induction left generalizing drive with
  | zero => cases ran
  | succ left ih =>
      rw [driveFor] at ran
      rcases turn_cases registry plant spec bundle drive with ⟨error, raised⟩ | ⟨next, critic, stopped | went⟩ | ⟨stepped, critic, governed⟩
      · rw [raised] at ran
        cases ran
        exact Or.inl ⟨error, rfl⟩
      · rw [stopped] at ran
        cases ran
      · rw [went] at ran
        rw [← critic]
        exact ih ran
      · rw [governed] at ran
        rcases bind_eq_error.mp ran with mapped | ⟨turned, mapped, later⟩
        · rcases attend_of_govern_error (map_eq_error.mp mapped) with raised | ⟨view, shown, attended⟩
          · exact Or.inl raised
          · rw [critic] at shown attended
            refine Or.inr ⟨[(view, stepped.t - 1)], ⟨shown, trivial⟩, ?_⟩
            rw [Critic.follow, attended]
            rfl
        · rcases map_eq_ok.mp mapped with ⟨next, done, rfl⟩
          rcases attend_of_govern done with ⟨view, shown, attended⟩
          rcases ih later with raised | ⟨views, shown_, followed⟩
          · exact Or.inl raised
          · rw [critic] at shown attended
            refine Or.inr ⟨(view, stepped.t - 1) :: views, ⟨shown, ?_⟩, ?_⟩
            · rw [← Critic.k_of_attend attended]
              exact shown_
            · rw [Critic.follow, attended]
              exact followed

theorem follow_of_segment {world : World} {obs : Obs} {stepBudget : Int} {segment : Segment Obs}
    (ran : governedSegment registry plant spec bundle world obs stepBudget = .ok segment) :
    ∃ views last, Shown (registry.admitted (criticBudget bundle)) spec.episode 0 views ∧
      (freshCritic bundle).follow registry bundle views = .ok last ∧
      segment.fires = last.fires ∧ segment.trace = last.history ∧ segment.chain = last.chain ∧
        segment.criticPrivilegeUsed = last.privilegeUsed ∧ segment.policySteps = last.k := by
  rcases of_bind ran with ⟨drive, driven, later⟩
  rcases map_eq_ok.mp later with ⟨stages, _, rfl⟩
  rcases follow_of_driveFor driven with ⟨views, shown, followed⟩
  exact ⟨views, drive.critic, shown, followed, rfl, rfl, rfl, rfl, rfl⟩

theorem follow_of_segment_error {world : World} {obs : Obs} {stepBudget : Int} {halt : Halt}
    (ran : governedSegment registry plant spec bundle world obs stepBudget = .error halt) :
    (∃ error, halt = .raised error) ∨ ∃ views,
      Shown (registry.admitted (criticBudget bundle)) spec.episode 0 views ∧
        (freshCritic bundle).follow registry bundle views = .error halt := by
  rcases bind_eq_error.mp ran with driven | ⟨drive, _, later⟩
  · exact follow_of_driveFor_error driven
  · exact Or.inl (lift_eq_error (map_eq_error.mp later))

end

end Rsi
end PhysicalHarness
