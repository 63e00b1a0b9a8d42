import PhysicalHarness.Evolve.Licence

namespace PhysicalHarness
namespace Evolve
namespace Session

open Python JsonText Loop

/-!
# The budgets of a round

The loop asks the model and executes what it replies.  A batch runs to its end, so the budget of
changes is looked at between the batches; calls, runs and replays never go past theirs.  The
evaluations that the agent asks for stay within their number, and the end of the round may
measure a pending state once more.
-/

/-! ## The loop -/

/-- What comes of a call: it fails each time, it is blank, it is no action, or it is some actions. -/
inductive Reply (Content : Type) where
  | failed
  | blank
  | garbled
  | batch (first : Action Content) (rest : List (Action Content))

/-- What a turn of the loop finds: whether the round was cancelled, and the reply. -/
structure Answer (Content : Type) where
  cancelled : Bool
  reply : Reply Content

inductive Status where
  | finished
  | gaveUp
  | exhausted
  | error
  | cancelled
  deriving DecidableEq, Repr

/-- The variables of the loop; `noted` says that some reply had a note. -/
structure Talk (Content : Type) where
  state : State Content
  steps : Nat
  calls : Nat
  empties : Nat
  diagnosed : Bool
  noted : Bool

variable {Content : Type}

/-- The actions that the budget counts. -/
def Action.changes : Action Content → Bool
  | .edit _ => true
  | .write _ => true
  | .tunable _ _ => true
  | .run _ _ _ _ => true
  | _ => false

def Action.ends : Action Content → Bool
  | .evaluate _ => true
  | .run _ _ _ _ => true
  | _ => false

def Action.isNote : Action Content → Bool
  | .note _ => true
  | _ => false

def Reply.actions : Reply Content → List (Action Content)
  | .batch first rest => first :: rest
  | _ => []

/-- The counted actions of a reply. -/
def Reply.changes (reply : Reply Content) : Nat := reply.actions.countP Action.changes

def Talk.opened (state : State Content) : Talk Content where
  state := state
  steps := 0
  calls := 0
  empties := 0
  diagnosed := false
  noted := false

section

variable [Codebase Content] [FloatText] (setup : Setup)

def execute (talk : Talk Content) (action : Action Content) : Talk Content × Bool :=
  if talk.diagnosed then
    let done := act setup talk.state action
    ({ talk with
        state := done.1
        steps := if action.changes then talk.steps + 1 else talk.steps },
      done.2 && !action.ends)
  else (talk, false)

/-- A batch runs to its end, its first error, or its first action that ends it. -/
def runBatch (talk : Talk Content) : List (Action Content) → Talk Content × Option Status
  | [] => (talk, none)
  | action :: rest =>
      let named := { talk with noted := talk.noted || action.isNote }
      match action with
      | .diagnose true => runBatch { named with diagnosed := true } rest
      | .diagnose false => (named, none)
      | .finish _ => (named, some .finished)
      | .giveUp => (named, some .gaveUp)
      | action =>
          let done := execute setup named action
          if done.2 then runBatch done.1 rest else (done.1, none)

def pending (state : State Content) : Bool :=
  Codebase.changed (state.tree state.parent) state.copy || !sameKnobs state.knobs state.knobsFrom

/-- A turn of `loop`; a call that was answered is counted, and the answers are numbered so. -/
def turn (answers : Nat → Answer Content) (talk : Talk Content) :
    Loop.Turn (Talk Content) (Talk Content × Status) :=
  if (answers talk.calls).cancelled then .stop (talk, .cancelled)
  else if setup.maxSteps ≤ talk.steps ∨ setup.maxSteps + 20 ≤ talk.calls then
    .stop (talk, if pending talk.state then .finished else .exhausted)
  else
    let called := { talk with calls := talk.calls + 1 }
    match (answers talk.calls).reply with
    | .failed => .stop (talk, .error)
    | .blank =>
        let silent := { called with empties := talk.empties + 1 }
        if 3 ≤ silent.empties then .stop (silent, .exhausted) else .again silent
    | .garbled => .again { called with empties := 0 }
    | .batch first rest =>
        let done := runBatch setup { called with empties := 0 } (first :: rest)
        match done.2 with
        | some status => .stop (done.1, status)
        | none => .again done.1

/-- The calls that are answered, with that for the closing note. -/
def answered (ended : Talk Content × Status) : Nat :=
  ended.1.calls +
    (if ended.2 ∈ [Status.finished, .gaveUp, .exhausted] ∧ ended.1.noted = false then 1 else 0)

/-- The evaluations of the agent, with that of the end of the round. -/
def evaluations (ended : Talk Content × Status) : Nat :=
  ended.1.state.evals +
    (if ended.2 ∈ [Status.finished, .error, .exhausted] ∧ closes setup ended.1.state = true then 1 else 0)

/-! ## What an action may spend -/

/-- The runs, the replays and the evaluations of the agent are within their budgets. -/
structure Within (state : State Content) : Prop where
  evals : state.evals ≤ setup.maxEvals
  runs : ∀ source, usedRuns state source ≤ runCap setup source

variable {setup} {state : State Content}

omit [Codebase Content] [FloatText] in
theorem sources_report (baseline : Suite) (rows : List (Int × ProbeRow)) (probes : List Probe) :
    (report baseline rows probes).1.map Probe.source = probes.map Probe.source := by
  induction probes with
  | nil => rfl
  | cons probe rest ih =>
      rw [report]
      split
      · rw [List.map_cons, List.map_cons, ih]
      · rfl

omit [Codebase Content] [FloatText] in
theorem usedRuns_eq (source : Option String) :
    usedRuns state source =
      (state.probes.map Probe.source).countP (fun other => other.isSome == source.isSome) := by
  rw [usedRuns, List.countP_map]
  rfl

omit [Codebase Content] [FloatText] in
theorem usedRuns_of_sources {next : State Content}
    (same : next.probes.map Probe.source = state.probes.map Probe.source) (source : Option String) :
    usedRuns next source = usedRuns state source := by
  rw [usedRuns_eq, usedRuns_eq, same]

omit [Codebase Content] [FloatText] in
theorem Within.of_sources {next : State Content} (within : Within setup state)
    (evals : next.evals = state.evals)
    (same : next.probes.map Probe.source = state.probes.map Probe.source) : Within setup next where
  evals := evals ▸ within.evals
  runs := by
    intro source
    rw [usedRuns_of_sources same]
    exact within.runs source

theorem usedRuns_booked (seeds : List Int) (source other : Option String) :
    usedRuns (booked setup state seeds source) other =
      usedRuns state other + if source.isSome == other.isSome then seeds.length else 0 := by
  rw [usedRuns_eq, usedRuns_eq, booked, List.map_append, List.countP_append, List.map_map]
  have each : seeds.map (Probe.source ∘ newProbe setup state source) = List.replicate seeds.length source := by
    rw [List.eq_replicate_iff, List.length_map]
    refine ⟨rfl, ?_⟩
    intro found mem
    rcases List.mem_map.mp mem with ⟨seed, _, same⟩
    exact same.symm
  rw [each, List.countP_replicate]

theorem within_booked (within : Within setup state) {seeds : List (Option Int)} {source : Option String}
    (room : ¬ runCap setup source < usedRuns state source + seeds.length) :
    Within setup (booked setup state (seeds.filterMap id) source) where
  evals := within.evals
  runs := by
    intro other
    have fewer := List.length_filterMap_le id seeds
    rw [usedRuns_booked]
    cases same : source.isSome == other.isSome with
    | false => exact within.runs other
    | true =>
        have kind : source.isSome = other.isSome := beq_iff_eq.mp same
        have used : usedRuns state other = usedRuns state source := by
          rw [usedRuns, usedRuns, kind]
        have cap : runCap setup other = runCap setup source := by
          rw [runCap, runCap, kind]
        rw [used, cap, if_pos rfl]
        omega

theorem within_runSeeds (within : Within setup state) (seeds : List (Option Int)) (source : Option String)
    (pointed : Bool) (result : Option (Int → ProbeRow)) :
    Within setup (runSeeds setup state seeds source pointed result).1 := by
  unfold runSeeds
  dsimp only
  split
  · exact within
  · split
    · exact within
    · rename_i room
      split
      · exact within
      · split
        · exact within
        · split
          · exact within
          · have started := within_booked within room
            cases result with
            | none => exact started
            | some row =>
                refine started.of_sources rfl ?_
                dsimp only
                rw [List.map_append, sources_report, ← List.map_append]
                apply congrArg
                rw [lastProbes]
                split
                · rfl
                · rw [List.splitAt_eq, List.take_append_drop]

omit [Codebase Content] [FloatText] in
theorem evals_judged (k : Nat) (measured : Measured) :
    (judged setup state k measured).1.evals = state.evals := by
  cases measured with
  | stopped => rfl
  | failed => rfl
  | rows row confirmed =>
      unfold judged
      dsimp only
      split
      · cases confirmed with
        | none => rfl
        | some verdict => cases verdict <;> rfl
      · split <;> rfl

theorem within_evaluate (within : Within setup state) (measured : Measured) :
    Within setup (evaluate setup state measured).1 := by
  rw [evaluate]
  split
  · exact within
  · rename_i allowed
    have room : state.evals < setup.maxEvals := by
      by_contra full
      rw [refuses, if_pos (Nat.le_of_not_lt full)] at allowed
      cases allowed
    have spent : Within setup
        { state with evals := state.evals + 1, lastEval := some (identity setup state) } :=
      ⟨room, within.runs⟩
    refine spent.of_sources (evals_judged _ _) ?_
    rw [probes_judged]

theorem within_act (within : Within setup state) (action : Action Content) :
    Within setup (act setup state action).1 := by
  cases action with
  | run seeds source pointed result => exact within_runSeeds within seeds source pointed result
  | evaluate measured => exact within_evaluate within measured
  | tunable name value =>
      refine within.of_sources ?_ (congrArg _ (probes_turnKnob name value))
      show (turnKnob state name value).1.evals = state.evals
      rw [turnKnob]
      split
      · split <;> rfl
      · rfl
  | branch source =>
      refine within.of_sources ?_ (congrArg _ (probes_branchFrom source))
      show (branchFrom state source).1.evals = state.evals
      rw [branchFrom]
      split <;> rfl
  | edit result => cases result <;> exact within.of_sources rfl rfl
  | write result => cases result <;> exact within.of_sources rfl rfl
  | _ => exact within

theorem within_execute (talk : Talk Content) (within : Within setup talk.state) (action : Action Content) :
    Within setup (execute setup talk action).1.state := by
  rw [execute]
  split
  · exact within_act within action
  · exact within

theorem steps_execute (talk : Talk Content) (action : Action Content) :
    (execute setup talk action).1.steps ≤ talk.steps + if action.changes then 1 else 0 := by
  rw [execute]
  split
  · dsimp only
    split <;> rfl
  · exact Nat.le_add_right _ _

theorem calls_execute (talk : Talk Content) (action : Action Content) :
    (execute setup talk action).1.calls = talk.calls := by
  rw [execute]
  split <;> rfl

structure Spent (setup : Setup) (talk next : Talk Content) (changes : Nat) : Prop where
  within : Within setup next.state
  steps : next.steps ≤ talk.steps + changes
  calls : next.calls = talk.calls

theorem spent_runBatch (talk : Talk Content) (within : Within setup talk.state)
    (actions : List (Action Content)) :
    Spent setup talk (runBatch setup talk actions).1 (actions.countP Action.changes) := by
  induction actions generalizing talk with
  | nil => exact ⟨within, Nat.le_refl _, rfl⟩
  | cons action rest ih =>
      let named : Talk Content := { talk with noted := talk.noted || action.isNote }
      have more : rest.countP Action.changes ≤ (action :: rest).countP Action.changes := by
        rw [List.countP_cons]
        exact Nat.le_add_right _ _
      have stopped : Spent setup talk named ((action :: rest).countP Action.changes) :=
        ⟨within, Nat.le_add_right _ _, rfl⟩
      have executed : Spent setup talk
          (if (execute setup named action).2 then runBatch setup (execute setup named action).1 rest
            else ((execute setup named action).1, none)).1
          ((action :: rest).countP Action.changes) := by
        have here : Within setup (execute setup named action).1.state :=
          within_execute named within action
        have calls : (execute setup named action).1.calls = talk.calls := calls_execute named action
        have steps : (execute setup named action).1.steps ≤ talk.steps + if action.changes then 1 else 0 :=
          steps_execute named action
        rw [List.countP_cons]
        split
        · have later := ih _ here
          exact ⟨later.within, by have := later.steps; omega, later.calls.trans calls⟩
        · exact ⟨here, by dsimp only; omega, calls⟩
      rw [runBatch.eq_def]
      cases action with
      | diagnose hypothesis =>
          cases hypothesis with
          | true =>
              have later : Spent setup { named with diagnosed := true }
                  (runBatch setup { named with diagnosed := true } rest).1 _ := ih _ within
              exact ⟨later.within, later.steps.trans (Nat.add_le_add_left more _), later.calls⟩
          | false => exact stopped
      | finish keep => exact stopped
      | giveUp => exact stopped
      | _ => exact executed

/-- What holds before every turn and when the loop stops: of the changes, only those of one reply
may come on top of the budget. -/
structure Kept (setup : Setup) (answers : Nat → Answer Content) (talk : Talk Content) : Prop where
  within : Within setup talk.state
  calls : talk.calls ≤ setup.maxSteps + 20
  steps : ∃ k, talk.steps < setup.maxSteps + (answers k).reply.changes

/-- A turn that goes on is an answered call, and keeps the budgets as one that stops does. -/
def KeptBy (setup : Setup) (answers : Nat → Answer Content) (calls : Nat) :
    Loop.Turn (Talk Content) (Talk Content × Status) → Prop
  | .again next => Kept setup answers next ∧ next.calls = calls + 1
  | .stop ended => Kept setup answers ended.1

variable {answers : Nat → Answer Content}

theorem keptBy_turn {talk : Talk Content} (kept : Kept setup answers talk) :
    KeptBy setup answers talk.calls (turn setup answers talk) := by
  unfold turn
  by_cases cancelled : (answers talk.calls).cancelled = true
  · rw [if_pos cancelled]
    exact kept
  rw [if_neg cancelled]
  by_cases spent : setup.maxSteps ≤ talk.steps ∨ setup.maxSteps + 20 ≤ talk.calls
  · rw [if_pos spent]
    exact kept
  rw [if_neg spent]
  rw [not_or, Nat.not_le, Nat.not_le] at spent
  cases reply : (answers talk.calls).reply with
  | failed => exact kept
  | blank =>
      dsimp only
      split
      · exact ⟨kept.within, spent.2, kept.steps⟩
      · exact ⟨⟨kept.within, spent.2, kept.steps⟩, rfl⟩
  | garbled => exact ⟨⟨kept.within, spent.2, kept.steps⟩, rfl⟩
  | batch first rest =>
      let called : Talk Content := { talk with calls := talk.calls + 1, empties := 0 }
      have done : Spent setup called (runBatch setup called (first :: rest)).1 _ :=
        spent_runBatch called kept.within (first :: rest)
      have changes : (answers talk.calls).reply.changes = (first :: rest).countP Action.changes := by
        rw [reply]
        rfl
      have next : Kept setup answers (runBatch setup called (first :: rest)).1 := by
        refine ⟨done.within, ?_, talk.calls, ?_⟩
        · rw [done.calls]
          exact spent.2
        · rw [changes]
          exact Nat.lt_of_le_of_lt done.steps (Nat.add_lt_add_right spent.1 _)
      dsimp only
      split
      · exact next
      · exact ⟨next, done.calls⟩

theorem kept_again {talk next : Talk Content} (kept : Kept setup answers talk)
    (going : turn setup answers talk = .again next) :
    Kept setup answers next ∧ next.calls = talk.calls + 1 := by
  have here := keptBy_turn kept
  rw [going] at here
  exact here

theorem kept_stop {talk : Talk Content} {ended : Talk Content × Status}
    (kept : Kept setup answers talk) (stopped : turn setup answers talk = .stop ended) :
    Kept setup answers ended.1 := by
  have here := keptBy_turn kept
  rw [stopped] at here
  exact here

theorem kept_of_reaches {first talk : Talk Content} (kept : Kept setup answers first)
    (reached : Reaches (turn setup answers) first talk) :
    Kept setup answers talk :=
  reached.invariant kept (fun _ _ _ before going => (kept_again before going).1)

theorem exists_ended {first : Talk Content} (kept : Kept setup answers first) :
    ∃ fuel ended, iterate (turn setup answers) fuel first = some ended ∧ Kept setup answers ended.1 := by
  have stops := exists_iterate Nat.lt_wfRel.wf
    (fun talk : Talk Content => setup.maxSteps + 20 - talk.calls)
    (fun before next (reached : Reaches (turn setup answers) first before) going => by
      have here := kept_again (kept_of_reaches kept reached) going
      have room := here.1.calls
      have more := here.2
      show setup.maxSteps + 20 - next.calls < setup.maxSteps + 20 - before.calls
      omega)
  rcases stops with ⟨fuel, ended, ran⟩
  rcases exists_last_of_iterate ran with ⟨last, reached, stopped⟩
  exact ⟨fuel, ended, ran, kept_stop (kept_of_reaches kept reached) stopped⟩

variable (setup)

/-- Whatever the replies are, the round stops within the budgets of calls, of runs, of replays and
of evaluations; the changes of one reply and the evaluation of the end may come on top. -/
theorem budgets_kept (tree : String → Content) (incumbent : String × Tuning)
    (parked : Option (String × Tuning)) (rounds : List (String × String)) (low high : Int)
    (baseline : Suite) (answers : Nat → Answer Content) (some_ : 1 ≤ setup.maxSteps) :
    ∃ fuel ended,
      iterate (turn setup answers) fuel
          (Talk.opened (start setup tree incumbent parked rounds low high baseline)) = some ended ∧
        ended.1.calls ≤ setup.maxSteps + 20 ∧
        answered ended ≤ ended.1.calls + 1 ∧
        (∃ k, ended.1.steps < setup.maxSteps + (answers k).reply.changes) ∧
        ended.1.state.probes.countP (fun probe => probe.source.isNone) ≤ setup.maxProbes ∧
        ended.1.state.probes.countP (fun probe => probe.source.isSome) ≤ 2 * setup.maxProbes ∧
        ended.1.state.evals ≤ setup.maxEvals ∧
        evaluations setup ended ≤ ended.1.state.evals + 1 := by
  have kept : Kept setup answers
      (Talk.opened (start setup tree incumbent parked rounds low high baseline)) := by
    refine ⟨⟨Nat.zero_le _, fun source => Nat.zero_le _⟩, Nat.zero_le _, 0, ?_⟩
    exact Nat.lt_of_lt_of_le some_ (Nat.le_add_right _ _)
  rcases exists_ended kept with ⟨fuel, ended, ran, here⟩
  have full := here.within.runs none
  have replays := here.within.runs (some "")
  refine ⟨fuel, ended, ran, here.calls, ?_, here.steps, ?_, ?_, here.within.evals, ?_⟩
  · rw [answered]
    split <;> omega
  · simpa [usedRuns, runCap] using full
  · simpa [usedRuns, runCap] using replays
  · rw [evaluations]
    split <;> omega

end

section

local instance budgetCodebase : Codebase String := textCodebase

local instance budgetFloats : FloatText := exactDecimals

def oneStep : Setup := { roundOf reachCard with maxSteps := 1 }

def oneEval : Setup := { roundOf reachCard with maxEvals := 1 }

/-- A diagnosis and two edits in one reply. -/
def twoEdits (_ : Nat) : Answer String where
  cancelled := false
  reply := .batch (.diagnose true) [.edit (some "first"), .edit (some "second")]

/-- An edit that gains is measured and rejected; another one that gains is pending at the end. -/
def twoGains (call : Nat) : Answer String where
  cancelled := false
  reply :=
    match call with
    | 0 => .batch (.diagnose true) [.edit (some "first"), fullRun]
    | 1 => .batch (.evaluate (.rows (fun _ => failingRow) none)) []
    | 2 => .batch (.edit (some "second")) [fullRun]
    | _ => .batch (.finish false) []

theorem budgets_kept_twoEdits :
    ∃ fuel ended,
      iterate (turn oneStep twoEdits) fuel (Talk.opened (opened reachCard none)) = some ended ∧
        ended.1.calls ≤ oneStep.maxSteps + 20 ∧
        answered ended ≤ ended.1.calls + 1 ∧
        (∃ k, ended.1.steps < oneStep.maxSteps + (twoEdits k).reply.changes) ∧
        ended.1.state.probes.countP (fun probe => probe.source.isNone) ≤ oneStep.maxProbes ∧
        ended.1.state.probes.countP (fun probe => probe.source.isSome) ≤ 2 * oneStep.maxProbes ∧
        ended.1.state.evals ≤ oneStep.maxEvals ∧
        evaluations oneStep ended ≤ ended.1.state.evals + 1 :=
  budgets_kept oneStep (fun _ => "old") ("work", none) none [] 0 0 [(0, failingRow)] twoEdits (by decide)

/-- With one change allowed a reply of two edits makes two, and with one evaluation allowed the end
of the round makes a second one. -/
theorem batch_overruns :
    (∃ fuel ended,
        iterate (turn oneStep twoEdits) fuel (Talk.opened (opened reachCard none)) = some ended ∧
          oneStep.maxSteps < ended.1.steps) ∧
      ∃ fuel ended,
        iterate (turn oneEval twoGains) fuel (Talk.opened (opened reachCard none)) = some ended ∧
          oneEval.maxEvals < evaluations oneEval ended := by
  constructor
  · have ran : (iterate (turn oneStep twoEdits) 2 (Talk.opened (opened reachCard none))).map
        (fun ended => ended.1.steps) = some 2 := by
      decide +kernel
    rcases Option.map_eq_some_iff.mp ran with ⟨ended, stopped, steps⟩
    exact ⟨2, ended, stopped, by rw [steps]; decide⟩
  · have ran : (iterate (turn oneEval twoGains) 4 (Talk.opened (opened reachCard none))).map
        (evaluations oneEval) = some 2 := by
      decide +kernel
    rcases Option.map_eq_some_iff.mp ran with ⟨ended, stopped, spent⟩
    exact ⟨4, ended, stopped, by rw [spent]; decide⟩

end

end Session
end Evolve
end PhysicalHarness
