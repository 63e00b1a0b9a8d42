import PhysicalHarness.Evolve.Repairs
import PhysicalHarness.Evolve.View

namespace PhysicalHarness
namespace Evolve
namespace Session

open Python JsonText Loop

/-!
# What licenses an evaluation

A state is measured on every seed only when one of its probes gained a milestone.  The gain is
the state's own when the row is no replay artifact, the node that passed ran in the probe, and
the baseline that the probe was compared with is still the incumbent's.
-/

/-- A node that ran in the probe passed the milestone, or the task ended well. -/
def executed (row : ProbeRow) (name : String) : Bool :=
  (name == "task" && row.success) ||
    row.counted.any (fun node => node.id == name && node.ok == some true && !row.replayed.contains name)

/-- A milestone that the baseline fails on the seed of the probe was passed in the probe itself. -/
def ownGain (baseline : Suite) (probe : Probe) : Bool :=
  match probe.row, Assoc.get? baseline probe.seed with
  | some row, some base => (newly base row.toRow).any (executed row)
  | _, _ => false

theorem exists_of_passed {row : Row} {name : String} (won : passed (milestones row) name = true) :
    (name = "task" ∧ row.success = true) ∨ ∃ node ∈ row.counted, node.id = name ∧ node.ok = some true := by
  rw [passed, get?_milestones] at won
  by_cases task : "task" = name
  · rw [if_pos task] at won
    exact Or.inl ⟨task.symm, won⟩
  · rw [if_neg task, lastMark] at won
    cases last : (row.counted.filter (fun node => node.id == name)).getLast? with
    | none =>
        rw [last] at won
        cases won
    | some node =>
        rw [last] at won
        have listed := List.mem_filter.mp (List.mem_of_getLast? last)
        exact Or.inr ⟨node, listed.1, beq_iff_eq.mp listed.2, beq_iff_eq.mp won⟩

theorem executed_of_newly {base : Row} {row : ProbeRow} {name : String}
    (gained : name ∈ newly base row.toRow) (own : name = "task" ∨ name ∉ row.replayed) :
    executed row name = true := by
  have won : passed (milestones row.toRow) name = true := by
    have parts := (List.mem_filter.mp gained).2
    rw [Bool.and_eq_true] at parts
    exact parts.1
  rw [executed, Bool.or_eq_true]
  rcases exists_of_passed won with task | node
  · left
    rw [Bool.and_eq_true, beq_iff_eq]
    exact task
  · rcases own with task | fresh
    · left
      rw [Bool.and_eq_true, beq_iff_eq]
      refine ⟨task, ?_⟩
      rw [passed, get?_milestones, if_pos task.symm] at won
      exact won
    · right
      rcases node with ⟨node, counted, id, ok⟩
      apply List.any_eq_true.mpr
      refine ⟨node, counted, ?_⟩
      simp [id, ok, fresh]

theorem gains_single (seed : Int) (base : Row) (rows : List (Int × ProbeRow)) {row : ProbeRow}
    (found : Assoc.get? rows seed = some row) :
    (compare [(seed, base)] (rows.map (fun entry => (entry.1, entry.2.toRow)))).gains =
      (newly base row.toRow).map (fun name => (seed, name)) := by
  have look : rowOf (rows.map (fun entry => (entry.1, entry.2.toRow))) seed = row.toRow := by
    rw [rowOf]
    have mapped : Assoc.get? (rows.map (fun entry => (entry.1, entry.2.toRow))) seed = some row.toRow := by
      induction rows with
      | nil => cases found
      | cons entry rest ih =>
          rcases entry with ⟨label, other⟩
          rw [Assoc.get?_cons] at found
          rw [List.map_cons, Assoc.get?_cons]
          by_cases same : label = seed
          · rw [if_pos same] at found ⊢
            cases found
            rfl
          · rw [if_neg same] at found ⊢
            exact ih found
    rw [mapped]
    rfl
  simp [compare, look]

/-! ## The books of a round -/

variable {Content : Type}

/-- A probe that gained reported a row that is no replay artifact and gained by a node of its own. -/
def Earned (probe : Probe) : Prop :=
  probe.gains ≠ [] → probe.suspect = false ∧ ownGain probe.against probe = true

/-- A row that gains over the baseline is no replay artifact, and a node that ran in the probe
gained. -/
def OwnRow (baseline : Suite) (seed : Int) (row : ProbeRow) : Prop :=
  ∀ base, Assoc.get? baseline seed = some base → newly base row.toRow ≠ [] →
    row.suspect = false ∧ ∃ name ∈ newly base row.toRow, name = "task" ∨ name ∉ row.replayed

def OwnRun (state : State Content) : Action Content → Prop
  | .run seeds _ _ (some row) => ∀ seed, some seed ∈ seeds → OwnRow state.baseline seed (row seed)
  | _ => True

def AllEarned (state : State Content) : Prop := ∀ probe ∈ state.probes, Earned probe

theorem earned_of_nil {probe : Probe} (nothing : probe.gains = []) : Earned probe :=
  fun gained => absurd nothing gained

theorem earned_report {baseline : Suite} {rows : List (Int × ProbeRow)}
    (own : ∀ seed row, Assoc.get? rows seed = some row → OwnRow baseline seed row)
    {probes : List Probe} (fresh : ∀ probe ∈ probes, probe.gains = [] ∧ probe.suspect = false) :
    ∀ probe ∈ (report baseline rows probes).1, Earned probe := by
  induction probes with
  | nil =>
      intro probe mem
      cases mem
  | cons first rest ih =>
      have later := ih (fun probe mem => fresh probe (.tail _ mem))
      have silent : ∀ probe ∈ first :: rest, Earned probe := fun probe mem =>
        earned_of_nil (fresh probe mem).1
      rw [report]
      split
      · rename_i row base ran known
        intro probe mem
        rcases List.mem_cons.mp mem with same | mem
        · subst same
          intro gained
          dsimp only at gained
          rw [gains_single first.seed base rows ran] at gained
          have some_ : newly base row.toRow ≠ [] := fun nothing => gained (by rw [nothing, List.map_nil])
          rcases own first.seed row ran base known some_ with ⟨sound, name, listed, here⟩
          refine ⟨?_, ?_⟩
          · show (first.suspect || row.suspect) = false
            rw [(fresh first List.mem_cons_self).2, sound]
            rfl
          · rw [ownGain]
            dsimp only
            rw [known]
            exact List.any_eq_true.mpr ⟨name, listed, executed_of_newly listed here⟩
        · exact later probe mem
      · exact silent

theorem report_nil (baseline : Suite) (probes : List Probe) : (report baseline [] probes).1 = probes := by
  cases probes with
  | nil => rfl
  | cons probe rest => rfl

theorem get?_rows {row : Int → ProbeRow} {seeds : List Int} {seed : Int} {found : ProbeRow}
    (ran : Assoc.get? (seeds.map (fun seed => (seed, row seed))) seed = some found) :
    seed ∈ seeds ∧ found = row seed := by
  rcases List.mem_map.mp (Assoc.mem_of_get? ran) with ⟨wanted, listed, same⟩
  cases same
  exact ⟨listed, rfl⟩

section

variable [Codebase Content] [FloatText] {setup : Setup} {state : State Content}

theorem splitAt_booked (seeds : List Int) (source : Option String) :
    (booked setup state seeds source).probes.splitAt
        ((booked setup state seeds source).probes.length - seeds.length) =
      (state.probes, seeds.map (newProbe setup state source)) := by
  rw [booked, List.length_append, List.length_map, Nat.add_sub_cancel, List.splitAt_eq]
  simp

theorem earned_runSeeds (earned : AllEarned state) {seeds : List (Option Int)} {source : Option String}
    {pointed : Bool} {result : Option (Int → ProbeRow)}
    (own : OwnRun state (.run seeds source pointed result)) :
    AllEarned (runSeeds setup state seeds source pointed result).1 := by
  have started : AllEarned (booked setup state (seeds.filterMap id) source) := by
    intro probe mem
    rcases List.mem_append.mp mem with old | new
    · exact earned probe old
    · rcases List.mem_map.mp new with ⟨seed, _, same⟩
      subst same
      exact earned_of_nil rfl
  unfold runSeeds
  dsimp only
  split
  · exact earned
  · split
    · exact earned
    · split
      · exact earned
      · split
        · exact earned
        · split
          · exact earned
          · cases result with
            | none => exact started
            | some row =>
                dsimp only
                rw [lastProbes]
                by_cases none_ : (seeds.filterMap id).length = 0
                · rw [if_pos none_, List.length_eq_zero_iff.mp none_]
                  intro probe mem
                  rw [List.map_nil, report_nil, List.nil_append] at mem
                  rw [List.length_eq_zero_iff.mp none_] at started
                  exact started probe mem
                · rw [if_neg none_]
                  intro probe mem
                  rcases List.mem_append.mp mem with old | new
                  · rw [splitAt_booked] at old
                    exact earned probe old
                  · rw [splitAt_booked] at new
                    refine earned_report ?_ ?_ probe new
                    · intro seed found ran
                      rcases get?_rows ran with ⟨listed, same⟩
                      subst same
                      rcases List.mem_filterMap.mp listed with ⟨wanted, inside, same⟩
                      cases same
                      exact own seed inside
                    · intro probe booked
                      rcases List.mem_map.mp booked with ⟨seed, _, same⟩
                      subst same
                      exact ⟨rfl, rfl⟩

omit [Codebase Content] [FloatText] in
theorem probes_judged (k : Nat) (measured : Measured) :
    (judged setup state k measured).1.probes = state.probes := by
  cases measured with
  | stopped => rfl
  | failed => rfl
  | rows row confirmed =>
      unfold judged
      dsimp only
      split
      · cases confirmed with
        | none => rfl
        | some verdict => cases verdict <;> rfl
      · split <;> rfl

theorem probes_evaluate (measured : Measured) :
    (evaluate setup state measured).1.probes = state.probes := by
  rw [evaluate]
  split
  · rfl
  · rw [probes_judged]

omit [Codebase Content] [FloatText] in
theorem probes_turnKnob (name value : Json) : (turnKnob state name value).1.probes = state.probes := by
  rw [turnKnob]
  split
  · split <;> rfl
  · rfl

omit [Codebase Content] [FloatText] in
theorem probes_branchFrom (source : String) : (branchFrom state source).1.probes = state.probes := by
  rw [branchFrom]
  split <;> rfl

variable (setup)

/-- A probe of this state gained over the baseline that is in force. -/
def Compared (state : State Content) : Prop :=
  ∃ probe ∈ state.probes,
    probe.identity = identity setup state ∧ probe.gains ≠ [] ∧ probe.against = state.baseline

/-- A probe of this state that is no replay artifact passed, by a node of its own, what the
baseline in force fails. -/
def Licensed (state : State Content) : Prop :=
  ∃ probe ∈ state.probes,
    probe.identity = identity setup state ∧ probe.suspect = false ∧ ownGain state.baseline probe = true

/-- Runs report rows of their own, and a state is measured after a probe of it gained over the
baseline in force. -/
def Own (state : State Content) : Action Content → Prop
  | .run seeds source pointed result => OwnRun state (.run seeds source pointed result)
  | .evaluate _ => refuses setup state = none → Compared setup state
  | _ => True

variable {setup}

theorem earned_act (earned : AllEarned state) {action : Action Content} (own : Own setup state action) :
    AllEarned (act setup state action).1 := by
  have same : ∀ next : State Content, next.probes = state.probes → AllEarned next := by
    intro next kept probe mem
    rw [kept] at mem
    exact earned probe mem
  cases action with
  | run seeds source pointed result => exact earned_runSeeds earned own
  | evaluate measured => exact same _ (probes_evaluate measured)
  | tunable name value => exact same _ (probes_turnKnob name value)
  | branch source => exact same _ (probes_branchFrom source)
  | edit result => cases result <;> exact same _ rfl
  | write result => cases result <;> exact same _ rfl
  | _ => exact earned

theorem earned_run {first : State Content} (earned : AllEarned first) {actions : List (Action Content)}
    (own : Always (fun before => Own setup (after setup first before)) actions) :
    AllEarned (after setup first actions) := by
  induction actions using List.reverseRecOn with
  | nil => exact earned
  | append_singleton before action ih =>
      rw [after_snoc]
      exact earned_act (ih own.of_snoc.1) own.of_snoc.2

theorem licensed_of_compared (earned : AllEarned state) (compared : Compared setup state) :
    Licensed setup state := by
  rcases compared with ⟨probe, booked, same, gained, against⟩
  rcases earned probe booked gained with ⟨sound, own⟩
  rw [against] at own
  exact ⟨probe, booked, same, sound, own⟩

variable (setup)

/-- In a round whose actions are of this kind every state that the agent has measured is licensed,
and so is the one that the round measures at its end where the last condition holds of it. -/
theorem licensed_of_own (tree : String → Content) (incumbent : String × Tuning)
    (parked : Option (String × Tuning)) (rounds : List (String × String)) (low high : Int)
    (baseline : Suite) (actions : List (Action Content))
    (own : Always (fun before => Own setup
      (after setup (start setup tree incumbent parked rounds low high baseline) before)) actions) :
    (∀ before measured, before ++ [.evaluate measured] <+: actions →
        refuses setup
          (after setup (start setup tree incumbent parked rounds low high baseline) before) = none →
        Licensed setup
          (after setup (start setup tree incumbent parked rounds low high baseline) before)) ∧
      ((closes setup
            (after setup (start setup tree incumbent parked rounds low high baseline) actions) = true →
          Compared setup
            (after setup (start setup tree incumbent parked rounds low high baseline) actions)) →
        closes setup
            (after setup (start setup tree incumbent parked rounds low high baseline) actions) = true →
        Licensed setup
          (after setup (start setup tree incumbent parked rounds low high baseline) actions)) := by
  have opening : AllEarned (start setup tree incumbent parked rounds low high baseline) := by
    intro probe member
    cases member
  constructor
  · intro before measured reached runs
    rcases reached with ⟨rest, same⟩
    rw [← same] at own
    have here := (always_append_iff.mp own).1.of_snoc
    exact licensed_of_compared (earned_run opening here.1) (here.2 runs)
  · intro compared closing
    exact licensed_of_compared (earned_run opening own) (compared closing)

end

section

local instance licenceCodebase : Codebase String := textCodebase

local instance licenceFloats : FloatText := exactDecimals

/-- A full run of the seed that passes everything. -/
def fullRun : Action String := .run [some 0] none false (some (fun _ => ⟨passingRow, [], false⟩))

/-- A replay whose only gain is a node that was copied. -/
def copiedRun : Action String :=
  .run [some 0] (some "lift-can") true
    (some (fun _ => ⟨⟨passingRow.trail, false⟩, ["verify-can"], false⟩))

/-- A replay that lost the object on its first sample. -/
def suspectRun : Action String :=
  .run [some 0] (some "verify-can") true (some (fun _ => ⟨passingRow, [], true⟩))

def measuredRun : List (Action String) :=
  [.edit (some "new"), fullRun, .evaluate (.rows (fun _ => passingRow) none)]

theorem licensed_of_own_measured :
    Licensed (roundOf reachCard)
      (after (roundOf reachCard) (opened reachCard none) [.edit (some "new"), fullRun]) := by
  have own : Always (fun before => Own (roundOf reachCard)
      (after (roundOf reachCard) (opened reachCard none) before)) measuredRun := by
    refine always_cons_iff.mpr ⟨trivial, always_cons_iff.mpr ⟨?_, always_cons_iff.mpr ⟨?_, always_nil _⟩⟩⟩
    · intro seed listed base known _
      cases List.mem_singleton.mp listed
      cases known
      exact ⟨rfl, "task", by decide +kernel, Or.inl rfl⟩
    · intro _
      exact ⟨_, List.mem_cons_self, by decide +kernel, by decide +kernel, rfl⟩
  have each := licensed_of_own (roundOf reachCard) (fun _ => "old") ("work", none) none [] 0 0
    [(0, failingRow)] measuredRun own
  exact each.1 [.edit (some "new"), fullRun] (.rows (fun _ => passingRow) none) (List.prefix_refl _)
    (by decide +kernel)

/-- A gain over a baseline that an accepted state has replaced, a gain of a copied node and a gain
of a replay artifact each let a state be measured. -/
theorem stale_gain_measured :
    (refuses (roundOf reachCard) (after (roundOf reachCard) (opened reachCard none)
          [.edit (some "first"), fullRun, .edit (some "new"), fullRun,
            .evaluate (.rows (fun _ => passingRow) none), .edit (some "first")]) = none ∧
        ¬ Licensed (roundOf reachCard) (after (roundOf reachCard) (opened reachCard none)
          [.edit (some "first"), fullRun, .edit (some "new"), fullRun,
            .evaluate (.rows (fun _ => passingRow) none), .edit (some "first")])) ∧
      (refuses (roundOf reachCard)
            (after (roundOf reachCard) (opened reachCard none) [.edit (some "new"), copiedRun]) = none ∧
        ¬ Licensed (roundOf reachCard)
            (after (roundOf reachCard) (opened reachCard none) [.edit (some "new"), copiedRun])) ∧
      refuses (roundOf reachCard)
            (after (roundOf reachCard) (opened reachCard none) [.edit (some "new"), suspectRun]) = none ∧
        ¬ Licensed (roundOf reachCard)
            (after (roundOf reachCard) (opened reachCard none) [.edit (some "new"), suspectRun]) := by
  unfold Licensed
  decide +kernel

end

end Session
end Evolve
end PhysicalHarness
