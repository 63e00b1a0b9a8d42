import PhysicalHarness.Rsi.Discipline

namespace PhysicalHarness
namespace Rsi

open Python Harness JsonText Fallible

/-!
# A rule that is appended

The rule that a generation appends is the last of its chain.  It shares the view, the
budgets and the reset of the dwell counts with the rules before it, and until it fires
the two runs cannot be told apart: each is in the state of the other but for the counters
of the last rule.
-/

/-- `baseline`: the parent, or no bundle where the parent has no rules. -/
inductive Grown [Sha256] [FloatText] (repertoire : Repertoire) (rule : Rule) :
    Option Bundle → Bundle → Prop where
  | parent {parent child : Bundle} (appended : parent.append repertoire rule = .ok child) :
      Grown repertoire rule (some parent) child
  | alone {parent child : Bundle} (empty : parent.rules = [])
      (appended : parent.append repertoire rule = .ok child) : Grown repertoire rule none child

/-- The rules of a bundle, or none. -/
def rulesOf (bundle : Option Bundle) : List Rule := (bundle.map Bundle.rules).getD []

section

variable [Sha256] [FloatText] {repertoire : Repertoire} {rule : Rule} {base : Option Bundle}
  {child : Bundle}

theorem fields_of_append {parent : Bundle} (appended : parent.append repertoire rule = .ok child) :
    child.rules = parent.rules ++ [rule] ∧ child.criticBudget = parent.criticBudget ∧
      child.actionBudget = parent.actionBudget := by
  rcases map_eq_ok.mp appended with ⟨sha, _, rfl⟩
  exact ⟨rfl, rfl, rfl⟩

theorem Grown.rules (grown : Grown repertoire rule base child) :
    child.rules = rulesOf base ++ [rule] := by
  cases grown with
  | parent appended => exact (fields_of_append appended).1
  | alone empty appended =>
      rw [(fields_of_append appended).1, empty]
      rfl

theorem Grown.budgets (grown : Grown repertoire rule base child) :
    (criticBudget (some child) = criticBudget base ∧ actionBudget (some child) = actionBudget base) ∨
      base = none := by
  cases grown with
  | parent appended => exact Or.inl ⟨(fields_of_append appended).2.1, (fields_of_append appended).2.2⟩
  | alone _ _ => exact Or.inr rfl

end

/-- The critic of the longer chain: one slot more, whose rule has not fired. -/
structure Critic.Extends (rule : Rule) (logs : Prop) (critic extended : Critic) : Prop where
  slots : ∃ consec, extended.slots = critic.slots ++ [⟨rule, consec, 0⟩]
  fires : extended.fires = critic.fires
  k : extended.k = critic.k
  /-- The log is the same where the two see the same features. -/
  logs : logs → extended.history = critic.history ∧ extended.chain = critic.chain

theorem modify_append_left {α : Type} (change : α → α) {items : List α} (more : List α) {index : Nat}
    (inside : index < items.length) : (items ++ more).modify index change =
      items.modify index change ++ more := by
  induction items generalizing index with
  | nil => cases inside
  | cons item rest ih =>
      cases index with
      | zero => rfl
      | succ index =>
          rw [List.cons_append, List.modify_succ_cons, List.modify_succ_cons,
            ih (Nat.lt_of_succ_lt_succ inside), List.cons_append]

section

variable {rule : Rule} {logs : Prop} {critic extended : Critic}

theorem Critic.Extends.slot (extends_ : critic.Extends rule logs extended) {index : Nat}
    (inside : index < critic.slots.length) : extended.slots[index]? = critic.slots[index]? := by
  rcases extends_.slots with ⟨consec, slots⟩
  rw [slots, List.getElem?_append_left inside]

theorem Critic.Extends.fire (extends_ : critic.Extends rule logs extended) {index : Nat}
    (inside : index < critic.slots.length) (envStep : Nat) :
    (critic.fire index envStep).Extends rule logs (extended.fire index envStep) where
  slots := by
    rcases extends_.slots with ⟨consec, slots⟩
    refine ⟨0, ?_⟩
    rw [Critic.fire, Critic.fire]
    simp only []
    rw [slots, modify_append_left _ _ inside, List.map_append]
    rfl
  fires := by
    rw [Critic.fire, Critic.fire]
    simp only []
    rw [extends_.slot inside, extends_.fires, extends_.k]
  k := extends_.k
  logs := extends_.logs

theorem length_fire (index envStep : Nat) :
    (critic.fire index envStep).slots.length = critic.slots.length := by
  rw [Critic.fire]
  simp only []
  rw [List.length_map, List.length_modify]

theorem Critic.Extends.judge {registry : Registry} {budget budget_ : Int}
    (extends_ : critic.Extends rule logs extended) {view view_ : FeatureView}
    (values : critic.slots = [] ∨ view_ = view) {judged judged_ : Critic × Option Nat}
    (passed : critic.judge registry budget view = .ok judged)
    (passed_ : extended.judge registry budget_ view_ = .ok judged_) :
    (judged.2 = none ∧ judged_.2 = some critic.slots.length) ∨
      (judged.2 = judged_.2 ∧ (∀ index ∈ judged.2, index < critic.slots.length) ∧
        judged.1.slots.length = critic.slots.length ∧ judged.1.Extends rule logs judged_.1) := by
  rcases extends_.slots with ⟨consec, slots⟩
  rcases Critic.judge_cases passed_ with ⟨empty, _⟩ | ⟨scanned_, scans_, _, rfl⟩
  · rw [slots] at empty
    exact absurd empty (List.append_ne_nil_of_right_ne_nil _ (List.cons_ne_nil _ _))
  have both_ := scan_eq scans_
  rw [slots, List.map_append, List.map_singleton, List.findIdx?_append, List.findIdx?_singleton]
    at both_
  by_cases empty : critic.slots = []
  · -- the parent has no rules, and its critic does not look
    have idle : critic.judge registry budget view = .ok (critic, none) := by
      rw [Critic.judge, empty]
      rfl
    cases idle.symm.trans passed
    rw [empty] at both_ ⊢
    by_cases fires : held (extended.k - 1) view_.values ⟨rule, consec, 0⟩ = true
    · rw [if_pos fires] at both_
      exact Or.inl ⟨rfl, congrArg Prod.snd both_⟩
    · rw [if_neg fires] at both_
      refine Or.inr ⟨(congrArg Prod.snd both_).symm, by simp,
        rfl, ⟨?_, extends_.fires, extends_.k, extends_.logs⟩⟩
      refine ⟨(stepped (extended.k - 1) view_.values ⟨rule, consec, 0⟩).consec, ?_⟩
      rw [empty]
      exact congrArg Prod.fst both_
  · rcases Critic.judge_cases passed with ⟨never, _⟩ | ⟨scanned, scans, _, rfl⟩
    · exact absurd never empty
    have both := scan_eq scans
    rw [values.resolve_left empty, extends_.k] at both_
    have slots_ : scanned_.2.1 = scanned.2.1 ++ [stepped (critic.k - 1) view.values ⟨rule, consec, 0⟩] := by
      rw [both]
      exact congrArg Prod.fst both_
    have length : scanned.2.1.length = critic.slots.length := by
      rw [both, List.length_map]
    have longer : Critic.Extends rule logs
        { critic with
          slots := scanned.2.1
          privilegeUsed := max critic.privilegeUsed (scanned.1.privilegeUsed registry) }
        { extended with
          slots := scanned_.2.1
          privilegeUsed := max extended.privilegeUsed (scanned_.1.privilegeUsed registry) } :=
      ⟨⟨_, slots_⟩, extends_.fires, extends_.k, extends_.logs⟩
    cases first : critic.slots.findIdx? (held (critic.k - 1) view.values) with
    | some index =>
        rw [first] at both both_
        refine Or.inr ⟨(congrArg Prod.snd both).trans (congrArg Prod.snd both_).symm, ?_, length, longer⟩
        intro other chosen
        rw [both] at chosen
        cases chosen
        rcases List.findIdx?_eq_some_iff_getElem.mp first with ⟨inside, _, _⟩
        exact inside
    | none =>
        rw [first] at both both_
        by_cases fires : held (critic.k - 1) view.values ⟨rule, consec, 0⟩ = true
        · rw [if_pos fires] at both_
          refine Or.inl ⟨congrArg Prod.snd both, ?_⟩
          rw [both_]
          exact congrArg some (Nat.zero_add _)
        · rw [if_neg fires] at both_
          refine Or.inr ⟨(congrArg Prod.snd both).trans (congrArg Prod.snd both_).symm, ?_, length,
            longer⟩
          intro other chosen
          rw [both] at chosen
          cases chosen

end

section

variable {World Obs Action Goal Actor : Type} [Sha256] [FloatText]

/-- What a segment leaves: its readouts, the world, and the steps it took. -/
structure Drove (World Action Obs : Type) where
  segment : Segment Obs
  world : World
  moments : List (Moment Action Obs)

/-- `governed_segment`, with the world that it leaves. -/
def driveSegment (registry : Registry) (plant : Plant World Obs Action Goal Actor)
    (spec : EpisodeSpec) (bundle : Option Bundle) (world : World) (obs : Obs) (stepBudget : Int) :
    Except Halt (Drove World Action Obs) :=
  (transcript registry plant spec bundle stepBudget.toNat (openingDrive spec bundle world obs)).bind
    (fun ran =>
      (lift (settleStages registry plant spec ran.2.world ran.2.obs ran.2.critic.k ran.2.board)).map
        (fun stages =>
          ⟨⟨ran.2.obs, ran.2.t, ran.2.critic.k, ran.2.critic.fires, ran.2.critic.chain,
            ran.2.critic.privilegeUsed, ran.2.critic.history, stages⟩, ran.2.world, ran.1⟩))

end

/-! ## The loop -/

def Drive.under {World Obs Actor : Type} (drive : Drive World Obs Actor) (critic : Critic) :
    Drive World Obs Actor := { drive with critic }

section

variable {World Obs Action Goal Actor : Type} {plant : Plant World Obs Action Goal Actor}

theorem handBack_under (drive : Drive World Obs Actor) (critic : Critic) :
    handBack plant (drive.under critic) = (handBack plant drive).map (·.under critic) := by
  rcases drive with ⟨world, obs, other, _ | actor, t, board⟩
  · rfl
  · by_cases done : plant.actorDone world actor = true
    · simp only [handBack, Drive.under, done, if_true]
      cases plant.onHandback world with
      | error raised => rfl
      | ok next => rfl
    · simp only [handBack, Drive.under, done]
      rfl

theorem command_under (drive : Drive World Obs Actor) (critic : Critic) :
    command plant (drive.under critic) = (command plant drive).map (Option.map (fun commanded =>
      (commanded.1, commanded.2.1, commanded.2.2.under critic))) := by
  rcases drive with ⟨world, obs, other, _ | actor, t, board⟩
  · by_cases done : plant.exhausted world = true
    · simp only [command, Drive.under, done, if_true]
      rfl
    · simp only [command, Drive.under, done]
      cases plant.act world obs with
      | error raised => rfl
      | ok acted => rfl
  · rw [command, command]
    simp only [Drive.under]
    cases plant.actorAct world actor obs with
    | error raised => rfl
    | ok acted => rfl

variable [Sha256] [FloatText] {registry : Registry} {spec : EpisodeSpec} {repertoire : Repertoire}
  {rule : Rule} {base : Option Bundle} {child : Bundle}

def SameBudget (base : Option Bundle) (child : Bundle) : Prop :=
  criticBudget (some child) = criticBudget base

omit [Sha256] [FloatText] in
theorem dispatch_extends {drive next next_ : Drive World Obs Actor} {extended : Critic} {logs : Prop}
    {index : Nat} (extends_ : drive.critic.Extends rule logs extended)
    (inside : index < drive.critic.slots.length)
    (ran : dispatch registry plant spec base drive index = .ok next)
    (ran_ : dispatch registry plant spec (some child) (drive.under extended) index = .ok next_) :
    ∃ extended_, next_ = next.under extended_ ∧ next.critic.Extends rule logs extended_ ∧
      next.critic.slots.length = drive.critic.slots.length := by
  rcases of_bind ran with ⟨_, _, later⟩
  rcases of_bind ran_ with ⟨_, _, later_⟩
  split at later
  · cases later
  split at later_
  · cases later_
  have fires := extends_.fire inside (drive.t - 1)
  have inside_ : index < (drive.critic.fire index (drive.t - 1)).slots.length := by
    rw [length_fire]
    exact inside
  have slot := fires.slot inside_
  have longer : ((drive.under extended).critic.fire index ((drive.under extended).t - 1)) =
    extended.fire index (drive.t - 1) := rfl
  dsimp only at later later_
  rw [longer, slot, List.getElem?_eq_getElem inside_] at later_
  rw [List.getElem?_eq_getElem inside_] at later
  rcases map_eq_ok.mp later with ⟨started, starts, rfl⟩
  rcases map_eq_ok.mp later_ with ⟨started_, starts_, rfl⟩
  cases starts.symm.trans starts_
  exact ⟨extended.fire index (drive.t - 1), rfl, fires, length_fire index (drive.t - 1)⟩

theorem governAt_extends (grown : Grown repertoire rule base child)
    {drive next next_ : Drive World Obs Actor} {extended : Critic} {fired fired_ : Option Nat}
    (extends_ : drive.critic.Extends rule (SameBudget base child) extended)
    (rules : drive.critic.slots.length = (rulesOf base).length)
    (ran : governAt registry plant spec base drive = .ok (next, fired))
    (ran_ : governAt registry plant spec (some child) (drive.under extended) = .ok (next_, fired_)) :
    (fired = none ∧ fired_ = some (rulesOf base).length) ∨
      (fired = fired_ ∧ fired_ ≠ some (rulesOf base).length ∧
        ∃ extended_, next_ = next.under extended_ ∧
          next.critic.Extends rule (SameBudget base child) extended_ ∧
          next.critic.slots.length = (rulesOf base).length) := by
  rcases of_bind ran with ⟨view, seen, later⟩
  rcases of_bind ran_ with ⟨view_, seen_, later_⟩
  rcases of_bind later with ⟨board, crossed, later⟩
  rcases of_bind later_ with ⟨board_, crossed_, later_⟩
  rcases of_bind later with ⟨⟨critic, index⟩, judges, later⟩
  rcases of_bind later_ with ⟨⟨critic_, index_⟩, judges_, later_⟩
  have same : SameBudget base child → view_ = view := by
    intro budget
    have again : lift (plant.view spec drive.obs (registry.admitted (criticBudget (some child)))
      extended.k) = .ok view_ := seen_
    rw [budget, extends_.k] at again
    exact Except.ok.inj (again.symm.trans seen)
  have values : (drive.critic.log view).slots = [] ∨ view_ = view := by
    rcases grown.budgets with ⟨budget, _⟩ | none_
    · exact Or.inr (same budget)
    · apply Or.inl
      apply List.eq_nil_of_length_eq_zero
      rw [none_] at rules
      exact rules
  have logged : (drive.critic.log view).Extends rule (SameBudget base child) (extended.log view_) := by
    refine ⟨extends_.slots, extends_.fires, congrArg (· + 1) extends_.k, fun budget => ?_⟩
    rw [same budget, Critic.log, Critic.log]
    simp only []
    rw [(extends_.logs budget).1, (extends_.logs budget).2]
    exact ⟨rfl, rfl⟩
  have board : board_ = board := by
    have again : lift (stageStep registry plant spec drive.world drive.obs (extended.log view_).k
      drive.board) = .ok board_ := crossed_
    rw [logged.k] at again
    exact Except.ok.inj (again.symm.trans crossed)
  have length : (drive.critic.log view).slots.length = (rulesOf base).length := rules
  rcases logged.judge values judges judges_ with ⟨none_, last⟩ | ⟨indices, inside, length_, longer⟩
  · apply Or.inl
    have idle : index = none := none_
    have fires : index_ = some (rulesOf base).length := by
      rw [← length]
      exact last
    rw [idle] at later
    rw [fires] at later_
    rcases map_eq_ok.mp later_ with ⟨_, _, chosen⟩
    cases later
    cases chosen
    exact ⟨rfl, rfl⟩
  · apply Or.inr
    have chosen : index = index_ := indices
    rw [← chosen] at later_
    let governed : Drive World Obs Actor := { drive with critic := critic, board := board_ }
    cases index with
    | none =>
        cases later
        cases later_
        refine ⟨rfl, by simp, critic_, ?_, longer, length_.trans length⟩
        rw [board]
        rfl
    | some first =>
        rcases map_eq_ok.mp later with ⟨last, starts, chosen⟩
        rcases map_eq_ok.mp later_ with ⟨last_, starts_, chosen_⟩
        cases chosen
        cases chosen_
        have inside_ : first < (drive.critic.log view).slots.length := inside first rfl
        rw [← board] at starts
        have kept : governed.critic.slots.length = (drive.critic.log view).slots.length := length_
        have bound : first < governed.critic.slots.length := by
          rw [kept]
          exact inside_
        have longer_ : governed.critic.Extends rule (SameBudget base child) critic_ := longer
        have starts__ : dispatch registry plant spec (some child) (governed.under critic_) first =
          .ok next_ := starts_
        rcases dispatch_extends longer_ bound starts starts__ with
          ⟨extended_, same_, longer_, length__⟩
        refine ⟨rfl, ?_, extended_, same_, longer_, length__.trans (length_.trans length)⟩
        intro other
        have past := Option.some.inj other
        omega

/-- Both turns stop, or both go on, in states that differ in the critic only. -/
inductive TurnExtends (rule : Rule) (logs : Prop) (count : Nat) :
    Turn World Obs Actor → Turn World Obs Actor → Prop where
  | stop {drive : Drive World Obs Actor} {extended : Critic}
      (extends_ : drive.critic.Extends rule logs extended) (rules : drive.critic.slots.length = count) :
      TurnExtends rule logs count (.stop drive) (.stop (drive.under extended))
  | next {drive : Drive World Obs Actor} {extended : Critic}
      (extends_ : drive.critic.Extends rule logs extended) (rules : drive.critic.slots.length = count) :
      TurnExtends rule logs count (.next drive) (.next (drive.under extended))

theorem watch_extends (grown : Grown repertoire rule base child) {drive : Drive World Obs Actor}
    {extended : Critic} {watched watched_ : Turn World Obs Actor × Option (Moment Action Obs)}
    (extends_ : drive.critic.Extends rule (SameBudget base child) extended)
    (rules : drive.critic.slots.length = (rulesOf base).length)
    (ran : watch registry plant spec base drive = .ok watched)
    (ran_ : watch registry plant spec (some child) (drive.under extended) = .ok watched_) :
    (∃ moment, watched.2 = some moment ∧ moment.fired = none ∧
      watched_.2 = some { moment with fired := some (rulesOf base).length }) ∨
    (watched.2 = watched_.2 ∧ (∀ moment ∈ watched_.2, moment.fired ≠ some (rulesOf base).length) ∧
      TurnExtends rule (SameBudget base child) (rulesOf base).length watched.1 watched_.1) := by
  rcases of_bind ran with ⟨first, handed, later⟩
  rcases of_bind ran_ with ⟨first_, handed_, later_⟩
  rw [lift_eq_ok] at handed handed_
  rw [handBack_under, handed] at handed_
  cases handed_
  have idle := unattended_of_handBack handed
  rw [← idle.critic] at extends_ rules
  rcases of_bind later with ⟨commanded, commands, later⟩
  rcases of_bind later_ with ⟨commanded_, commands_, later_⟩
  rw [lift_eq_ok] at commands commands_
  rw [command_under, commands] at commands_
  cases commands_
  rcases commanded with _ | ⟨action, owned, second⟩
  · cases later
    cases later_
    exact Or.inr ⟨rfl, by simp, .stop extends_ rules⟩
  have idle_ := unattended_of_command commands
  rw [← idle_.critic] at extends_ rules
  rcases of_bind later with ⟨⟨obs, done, world⟩, steps, later⟩
  rcases of_bind later_ with ⟨⟨obs_, done_, world_⟩, steps_, later_⟩
  cases steps.symm.trans steps_
  let stepped : Drive World Obs Actor := { second with world, obs, t := second.t + 1 }
  have extends__ : stepped.critic.Extends rule (SameBudget base child) extended := extends_
  have unfired : ∀ (fired : Option Nat) (moment : Moment Action Obs), moment ∈ some
      (Moment.mk action obs done owned fired) → fired ≠ some (rulesOf base).length →
        moment.fired ≠ some (rulesOf base).length := by
    intro fired moment mem other
    rw [← Option.some.inj mem]
    exact other
  have never : (none : Option Nat) ≠ some (rulesOf base).length := by simp
  cases done with
  | true =>
      cases later
      cases later_
      exact Or.inr ⟨rfl, fun moment mem => unfired none moment mem never, .stop extends__ rules⟩
  | false =>
      cases owned with
      | false =>
          cases later
          cases later_
          exact Or.inr ⟨rfl, fun moment mem => unfired none moment mem never,
            .next extends__ rules⟩
      | true =>
          rcases map_eq_ok.mp later with ⟨⟨next, fired⟩, governs, rfl⟩
          rcases map_eq_ok.mp later_ with ⟨⟨next_, fired_⟩, governs_, rfl⟩
          have governs__ : governAt registry plant spec (some child) (stepped.under extended) =
            .ok (next_, fired_) := governs_
          rcases governAt_extends grown extends__ rules governs governs__ with ⟨rfl, rfl⟩ |
            ⟨rfl, other, extended_, rfl, longer, length⟩
          · exact Or.inl ⟨_, rfl, rfl, rfl⟩
          · exact Or.inr ⟨rfl, fun moment mem => unfired fired moment mem other,
              .next longer length⟩

/-- Two runs that are the same up to a step on which the appended rule fires. -/
def PartAt (position : Nat) (moments moments_ : List (Moment Action Obs)) (before : List (Moment Action Obs)) :
    Prop :=
  ∃ moment rest rest_, moments = before ++ moment :: rest ∧
    moments_ = before ++ { moment with fired := some position } :: rest_ ∧ moment.fired = none

theorem opening_of_transcript {bundle : Option Bundle} {left : Nat} {drive last : Drive World Obs Actor}
    {turned : Turn World Obs Actor} {moment : Moment Action Obs} {moments : List (Moment Action Obs)}
    (watches : watch registry plant spec bundle drive = .ok (turned, some moment))
    (ran : transcript registry plant spec bundle (left + 1) drive = .ok (moments, last)) :
    ∃ rest, moments = moment :: rest := by
  rw [transcript, watches] at ran
  cases turned with
  | stop drive =>
      cases ran
      exact ⟨[], rfl⟩
  | next drive =>
      rcases map_eq_ok.mp ran with ⟨rest, _, same⟩
      cases same
      exact ⟨rest.1, rfl⟩

theorem transcript_extends (grown : Grown repertoire rule base child) {left : Nat}
    {drive last last_ : Drive World Obs Actor} {extended : Critic}
    {moments moments_ : List (Moment Action Obs)}
    (extends_ : drive.critic.Extends rule (SameBudget base child) extended)
    (rules : drive.critic.slots.length = (rulesOf base).length)
    (ran : transcript registry plant spec base left drive = .ok (moments, last))
    (ran_ : transcript registry plant spec (some child) left (drive.under extended) =
      .ok (moments_, last_)) :
    (∃ before, PartAt (rulesOf base).length moments moments_ before ∧
      ∀ moment ∈ before, moment.fired ≠ some (rulesOf base).length) ∨
    (moments_ = moments ∧ (∀ moment ∈ moments, moment.fired ≠ some (rulesOf base).length) ∧
      ∃ extended_, last_ = last.under extended_ ∧
        last.critic.Extends rule (SameBudget base child) extended_) := by
  induction left generalizing drive extended moments moments_ with
  | zero =>
      cases ran
      cases ran_
      exact Or.inr ⟨rfl, List.forall_mem_nil _, extended, rfl, extends_⟩
  | succ left ih =>
      rcases of_bind ran with ⟨⟨turned, seen⟩, watches, later⟩
      rcases of_bind ran_ with ⟨⟨turned_, seen_⟩, watches_, later_⟩
      rcases watch_extends grown extends_ rules watches watches_ with ⟨moment, here, quiet, fires⟩ |
        ⟨same, others, turns⟩
      · -- the runs part on this step
        have first : seen = some moment := here
        have first_ : seen_ = some { moment with fired := some (rulesOf base).length } := fires
        rw [first] at watches
        rw [first_] at watches_
        rcases opening_of_transcript watches ran with ⟨rest, rfl⟩
        rcases opening_of_transcript watches_ ran_ with ⟨rest_, rfl⟩
        exact Or.inl ⟨[], ⟨moment, rest, rest_, rfl, rfl, quiet⟩,
          List.forall_mem_nil _⟩
      · have same_ : seen = seen_ := same
        have others_ : ∀ moment ∈ seen.toList, moment.fired ≠ some (rulesOf base).length := by
          intro moment mem
          rw [same_] at mem
          exact others moment (Option.mem_toList.mp mem)
        rw [← same_] at later_
        cases turns with
        | stop longer _ =>
            cases later
            cases later_
            exact Or.inr ⟨rfl, others_, _, rfl, longer⟩
        | next longer length =>
            rcases map_eq_ok.mp later with ⟨rest, went, found⟩
            rcases map_eq_ok.mp later_ with ⟨rest_, went_, found_⟩
            cases found
            cases found_
            have before_ : ∀ more : List (Moment Action Obs),
                (∀ moment ∈ more, moment.fired ≠ some (rulesOf base).length) →
                ∀ moment ∈ seen.toList ++ more, moment.fired ≠ some (rulesOf base).length := by
              intro more quiet moment mem
              rcases List.mem_append.mp mem with first | second
              · exact others_ moment first
              · exact quiet moment second
            rcases ih longer length went went_ with
              ⟨before, ⟨moment, after, after_, split, split_, quiet⟩, quiets⟩ | ⟨equal, quiets, extended_, ends, ended⟩
            · refine Or.inl ⟨seen.toList ++ before, ⟨moment, after, after_, ?_, ?_, quiet⟩,
                before_ before quiets⟩
              · rw [split, List.append_assoc]
              · rw [split_, List.append_assoc]
            · exact Or.inr ⟨congrArg (seen.toList ++ ·) equal, before_ _ quiets, extended_, ends, ended⟩

omit [Sha256] [FloatText] in
theorem firesOf_prefix (rules : List Rule) (steps more : List (Moment Action Obs × Nat)) :
    firesOf rules steps <+: firesOf rules (steps ++ more) := by
  rw [firesOf, firesOf, List.zipIdx_append, List.filterMap_append]
  exact List.prefix_append _ _

omit [Sha256] [FloatText] in
theorem firesOf_concat {rules : List Rule} {steps : List (Moment Action Obs × Nat)}
    (quiet : ∀ step ∈ steps, step.1.fired ≠ some rules.length) :
    firesOf (rules ++ [rule]) steps = firesOf rules steps := by
  rw [firesOf, firesOf]
  apply List.filterMap_congr
  intro step mem
  have other := quiet step.1 (List.fst_mem_of_mem_zipIdx mem)
  cases fired : step.1.1.fired with
  | none => rfl
  | some index =>
      have past : index ≠ rules.length := fun same => other (by rw [fired, same])
      have same : (rules ++ [rule])[index]? = rules[index]? := by
        by_cases inside : index < rules.length
        · exact List.getElem?_append_left inside
        · have beyond : (rules ++ [rule]).length ≤ index := by
            rw [List.length_append, List.length_singleton]
            omega
          rw [List.getElem?_eq_none beyond, List.getElem?_eq_none (not_lt.mp inside)]
      rw [Option.bind_some, Option.bind_some, same]

/-- What the two segments have in common: all up to the first fire of the appended rule, and
everything where it does not fire. -/
inductive Attributed (rules : List Rule) (logs : Prop) (moments moments_ : List (Moment Action Obs))
    (segment segment_ : Segment Obs) : Prop where
  | parts (before : List (Moment Action Obs)) (shared : PartAt rules.length moments moments_ before)
      (quiet : ∀ moment ∈ before, moment.fired ≠ some rules.length)
      (fires : firesOf rules (governedSteps 0 before) <+: segment.fires)
      (fires_ : firesOf rules (governedSteps 0 before) <+: segment_.fires) :
      Attributed rules logs moments moments_ segment segment_
  | never (shared : moments_ = moments)
      (quiet : ∀ moment ∈ moments, moment.fired ≠ some rules.length)
      (obs : segment_.obs = segment.obs) (steps : segment_.steps = segment.steps)
      (policySteps : segment_.policySteps = segment.policySteps)
      (fires : segment_.fires = segment.fires) (stages : segment_.stages = segment.stages)
      (log : logs → segment_.trace = segment.trace ∧ segment_.chain = segment.chain) :
      Attributed rules logs moments moments_ segment segment_

theorem governedSegment_eq (bundle : Option Bundle) (world : World) (obs : Obs) (stepBudget : Int) :
    governedSegment registry plant spec bundle world obs stepBudget =
      (driveSegment registry plant spec bundle world obs stepBudget).map Drove.segment := by
  rw [governedSegment, driveSegment, driveFor_eq, openingDrive]
  cases transcript registry plant spec bundle stepBudget.toNat _ with
  | error halt => rfl
  | ok ran =>
      change (lift (settleStages registry plant spec ran.2.world ran.2.obs ran.2.critic.k
        ran.2.board)).map _ = ((lift (settleStages registry plant spec ran.2.world ran.2.obs
          ran.2.critic.k ran.2.board)).map _).map _
      cases lift (settleStages registry plant spec ran.2.world ran.2.obs ran.2.critic.k
        ran.2.board) with
      | error halt => rfl
      | ok stages => rfl

omit [FloatText] in
theorem slots_freshCritic (bundle : Option Bundle) :
    (freshCritic bundle).slots = (rulesOf bundle).map (fun rule => ⟨rule, 0, 0⟩) := rfl

omit [Sha256] [FloatText] in
theorem Attributed.mono {rules : List Rule} {logs logs_ : Prop} {moments moments_ : List (Moment Action Obs)}
    {segment segment_ : Segment Obs} (weaker : logs_ → logs)
    (attributed : Attributed rules logs moments moments_ segment segment_) :
    Attributed rules logs_ moments moments_ segment segment_ := by
  cases attributed with
  | parts before shared quiet fires fires_ => exact .parts before shared quiet fires fires_
  | never shared quiet obs steps policySteps fires stages log =>
      exact .never shared quiet obs steps policySteps fires stages (fun same => log (weaker same))

theorem Grown.sameBudget (grown : Grown repertoire rule base child) (some_ : base ≠ none) :
    SameBudget base child := by
  rcases grown.budgets with ⟨same, _⟩ | none_
  · exact same
  · exact absurd none_ some_

theorem segments_attributed (grown : Grown repertoire rule base child) {world : World} {obs : Obs}
    {stepBudget : Int} {drove drove_ : Drove World Action Obs}
    (ran : driveSegment registry plant spec base world obs stepBudget = .ok drove)
    (ran_ : driveSegment registry plant spec (some child) world obs stepBudget = .ok drove_) :
    Attributed (rulesOf base) (SameBudget base child) drove.moments drove_.moments drove.segment
      drove_.segment ∧
    ((∀ moment ∈ drove_.moments, moment.fired ≠ some (rulesOf base).length) →
      drove_.world = drove.world) := by
  rcases of_bind ran with ⟨⟨moments, last⟩, went, later⟩
  rcases of_bind ran_ with ⟨⟨moments_, last_⟩, went_, later_⟩
  rcases map_eq_ok.mp later with ⟨stages, settled, rfl⟩
  rcases map_eq_ok.mp later_ with ⟨stages_, settled_, rfl⟩
  have fresh : (freshCritic base).Extends rule (SameBudget base child) (freshCritic (some child)) := by
    refine ⟨⟨0, ?_⟩, rfl, rfl, fun _ => ⟨rfl, rfl⟩⟩
    have rules : rulesOf (some child) = rulesOf base ++ [rule] := grown.rules
    rw [slots_freshCritic, slots_freshCritic, rules, List.map_append]
    rfl
  have length : (freshCritic base).slots.length = (rulesOf base).length := List.length_map _
  have marked := marked_of_transcript marked_start went
  have marked_ := marked_of_transcript marked_start went_
  rw [List.nil_append] at marked marked_
  have child_ : (((some child).map Bundle.rules).getD []) = rulesOf base ++ [rule] := grown.rules
  rw [child_] at marked_
  rcases transcript_extends grown fresh length went went_ with
    ⟨before, ⟨moment, rest, rest_, split, split_, quiet⟩, quiets⟩ | ⟨rfl, quiets, extended, ends, longer⟩
  · have quiets_ : ∀ step ∈ governedSteps 0 before, step.1.fired ≠ some (rulesOf base).length := by
      intro step mem
      exact quiets step.1 (List.fst_mem_of_mem_zipIdx (List.mem_of_mem_filter mem))
    refine ⟨.parts before ⟨moment, rest, rest_, split, split_, quiet⟩ quiets ?_ ?_, ?_⟩
    · rw [marked.fires, split]
      change firesOf (rulesOf base) _ <+: firesOf (rulesOf base) (governedSteps 0 _)
      rw [governedSteps_append]
      exact firesOf_prefix _ _ _
    · rw [marked_.fires, split_, ← firesOf_concat quiets_]
      change _ <+: firesOf _ (governedSteps 0 _)
      rw [governedSteps_append]
      exact firesOf_prefix _ _ _
    · intro never
      rw [split_] at never
      exact absurd rfl (never _ (List.mem_append_right _ (.head _)))
  · have same : stages_ = stages := by
      rw [ends] at settled_
      have again : lift (settleStages registry plant spec last.world last.obs extended.k last.board) =
        .ok stages_ := settled_
      rw [longer.k] at again
      exact Except.ok.inj (again.symm.trans settled)
    rw [ends]
    exact ⟨.never rfl quiets rfl rfl longer.k longer.fires same longer.logs, fun _ => rfl⟩

end

end Rsi
end PhysicalHarness
