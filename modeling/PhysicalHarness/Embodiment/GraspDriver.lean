import PhysicalHarness.Lib.Schedule
import PhysicalHarness.Python.Arithmetic

namespace PhysicalHarness
namespace Embodiment
namespace GraspDriver

open Python

/-!
# The grasp schedule

The driver parks, centres, descends, closes, squeezes and lifts, and where the lift shows no hold it
recovers and starts over with the next row of its schedule.  What it reads of the geometry is
arbitrary here.  Every call spends one of the steps that the phases of an attempt have left, so that
each attempt ends, and the fingers close only after a descent that ended centred.
-/

inductive Phase where
  | align
  | preyaw
  | hover
  | descend
  | close
  | squeeze
  | lift
  | recover
  deriving DecidableEq

/-- When the wrist is turned. -/
inductive Style where
  | gated
  | full
  | pre
  deriving DecidableEq

/-- `RETRY`: the yaw style of each row; the offsets of the row go into the geometry. -/
def retry : List Style := [.gated, .full, .gated, .pre, .gated, .full]

/-- The most ticks of a phase: `ALIGN_CAP`, `PHASE_CAP`, `CLOSE_TICKS` and the others. -/
def Phase.cap : Phase → Nat
  | .align => 110
  | .preyaw => 50
  | .hover | .descend => 90
  | .close => 12
  | .squeeze => 35
  | .lift => 40
  | .recover => 18

structure StallDetector where
  k : Int
  best : Double := Double.posInf
  since : Nat := 0

/-- `update`, with the default `eps`. -/
def StallDetector.update (detector : StallDetector) (dist : Double) : StallDetector × Bool :=
  let next :=
    if dist.lt (detector.best.sub (Double.nearest (2 / 1000))) then { detector with best := dist, since := 0 }
    else { detector with since := detector.since + 1 }
  (next, decide (detector.k ≤ next.since))

/-! ## The driver -/

/-- What one call reads. -/
structure Reading where
  /-- From the base to its park. -/
  dock : Double
  /-- From the hand to the waypoint of the hover: in the plane, in height, in all. -/
  hoverXY : Double
  hoverZ : Double
  hover : Double
  /-- From the hand to the aim of the descent, the height with its sign. -/
  aimXY : Double
  aimZ : Double
  aim : Double
  yaw : Double
  eefZ : Double

structure Driver where
  stallK : Int
  hoverXY : Double
  phase : Phase := .align
  attempt : Nat := 0
  ticks : Nat := 0
  liftZ : Option Double := none
  zHist : List Double := []
  stall : StallDetector := ⟨stallK, Double.posInf, 0⟩
  failureMode : Option String := none

inductive Grip where
  | opened
  | closed
  deriving DecidableEq

inductive Move where
  | base
  | still
  | turn
  | hover (yaws : Bool)
  | descend (yaws presses : Bool)
  | lift (height : Option Double)
  | rise

abbrev Action := Grip × Move

/-- `abs` of a float. -/
def magnitude (number : Double) : Double := if number.negative then number.neg else number

def rowInUse (attempt : Nat) : Nat := min attempt (retry.length - 1)

/-- `_tweak`. -/
def tweak (attempt : Nat) : Style := retry.getD (rowInUse attempt) .gated

def Driver.style (driver : Driver) : Style := tweak driver.attempt

/-- `_next_attempt`. -/
def nextAttempt (stalled : Bool) (driver : Driver) : Driver where
  stallK := driver.stallK
  hoverXY := driver.hoverXY
  attempt := driver.attempt + 1
  failureMode :=
    if stalled && decide (retry.length ≤ driver.attempt + 1) then some "reach_stall"
    else driver.failureMode

def Driver.tick (driver : Driver) : Driver := { driver with ticks := driver.ticks + 1 }

def Driver.enter (phase : Phase) (driver : Driver) : Driver := { driver with phase, ticks := 0 }

def Driver.spent (driver : Driver) : Bool := decide (driver.phase.cap < driver.ticks)

/-- The block of `_act` for `align`, after its tick; without an action the next one follows. -/
def alignBlock (reading : Reading) (driver : Driver) : Driver × Option Action :=
  if reading.dock.lt (Double.nearest (4 / 100)) || driver.spent then
    (driver.enter (if driver.style = .pre then .preyaw else .hover), none)
  else (driver, some (.opened, .base))

/-- The block for `preyaw`, after its tick. -/
def preyawBlock (reading : Reading) (driver : Driver) : Driver × Option Action :=
  (if (magnitude reading.yaw).lt (Double.nearest (2 / 10)) || driver.spent then driver.enter .hover
    else driver, some (.opened, .turn))

/-- Centred above the grasp point, with the fingers across the thin side. -/
def aligned (reading : Reading) (driver : Driver) : Bool :=
  reading.hoverXY.lt driver.hoverXY && (magnitude reading.hoverZ).lt (Double.nearest (4 / 100)) &&
    (decide (driver.style = .pre) || (magnitude reading.yaw).lt (Double.nearest (3 / 10)))

/-- A phase that can stall does so after all its ticks or where its detector says so. -/
def stalls (dist : Double) (driver : Driver) : Bool := driver.spent || (driver.stall.update dist).2

/-- The detector has seen the distance, unless the ticks were spent before it was asked. -/
def watch (dist : Double) (driver : Driver) : Driver := { driver with stall := (driver.stall.update dist).1 }

/-- The block for `hover`, after its tick. -/
def hoverBlock (reading : Reading) (driver : Driver) : Driver × Option Action :=
  if aligned reading driver then
    ({ driver.enter .descend with stall := ⟨driver.stallK, Double.posInf, 0⟩ }, none)
  else if stalls reading.hover driver then (nextAttempt true driver, some (.opened, .still))
  else
    let yaws := driver.style = .full ∨
      driver.style = .gated ∧ reading.hoverXY.lt (Double.nearest (6 / 100)) = true
    (watch reading.hover driver, some (.opened, .hover (decide yaws)))

/-- `CLOSE_XY`. -/
def closeXY : Double := Double.nearest (35 / 1000)

/-- The height has changed by less than this over so many of the last calls, the latest first. -/
def flat (count : Nat) (least : Double) (zHist : List Double) : Bool :=
  match zHist.head?, zHist[count]? with
  | some last, some first => (first.sub last).lt least
  | _, _ => false

def landed (reading : Reading) (driver : Driver) : Bool :=
  reading.aimXY.lt closeXY &&
    (reading.aimZ.neg.lt (Double.nearest (2 / 100)) || flat 25 (Double.nearest (3 / 1000)) driver.zHist)

/-- The block for `descend`, after its tick. -/
def descendBlock (reading : Reading) (driver : Driver) : Driver × Option Action :=
  let measured := { driver with zHist := reading.eefZ :: driver.zHist }
  if landed reading measured then (measured.enter .close, none)
  else if stalls reading.aim measured then (nextAttempt true measured, some (.opened, .still))
  else
    let yaws := driver.style = .full ∨ reading.aimXY.lt (Double.nearest (6 / 100)) = true
    (watch reading.aim measured,
      some (.opened, .descend (decide yaws) (flat 8 (Double.nearest (2 / 1000)) measured.zHist)))

def timed (next : Phase) (driver : Driver) : Driver :=
  if driver.spent then driver.enter next else driver

def squeezeBlock (reading : Reading) (driver : Driver) : Driver :=
  if driver.spent then
    { driver.enter .lift with liftZ := some (reading.eefZ.add (Double.nearest (20 / 100))) }
  else driver

/-- The blocks from `close` on. -/
def grip (reading : Reading) (driver : Driver) : Driver × Action :=
  match driver.phase with
  | .close => (timed .squeeze driver.tick, (.closed, .still))
  | .squeeze => (squeezeBlock reading driver.tick, (.closed, .still))
  | .lift => (timed .recover driver.tick, (.closed, .lift driver.liftZ))
  | _ => (if driver.tick.spent then nextAttempt false driver.tick else driver.tick, (.opened, .rise))

def inPhase (phase : Phase) (block : Driver → Driver × Option Action) (driver : Driver) :
    Driver × Option Action :=
  if driver.phase = phase then block driver.tick else (driver, none)

def andThen (passed : Driver × Option Action) (next : Driver → Driver × Option Action) :
    Driver × Option Action :=
  match passed.2 with
  | some action => (passed.1, some action)
  | none => next passed.1

/-- Up to the block for `hover`. -/
def beforeHover (reading : Reading) (driver : Driver) : Driver × Option Action :=
  andThen (inPhase .align (alignBlock reading) driver) (inPhase .preyaw (preyawBlock reading))

/-- Up to the block for `descend`. -/
def beforeDescent (reading : Reading) (driver : Driver) : Driver × Option Action :=
  andThen (beforeHover reading driver) (inPhase .hover (hoverBlock reading))

/-- Up to the block for `close`. -/
def beforeGrip (reading : Reading) (driver : Driver) : Driver × Option Action :=
  andThen (beforeDescent reading driver) (inPhase .descend (descendBlock reading))

/-- `_act`. -/
def act (reading : Reading) (driver : Driver) : Driver × Action :=
  match (beforeGrip reading driver).2 with
  | some action => ((beforeGrip reading driver).1, action)
  | none => grip reading (beforeGrip reading driver).1

structure Call where
  before : Driver
  reading : Reading
  action : Action
  after : Driver

/-- The calls of `act` over these readings. -/
def calls (driver : Driver) : List Reading → List Call
  | [] => []
  | reading :: rest =>
      ⟨driver, reading, (act reading driver).2, (act reading driver).1⟩ :: calls (act reading driver).1 rest

def phases (style : Style) : List Phase :=
  .align :: (if style = .pre then [.preyaw] else []) ++
    [.hover, .descend, .close, .squeeze, .lift, .recover]

/-- The ticks of the phases of an attempt and one call for each. -/
def budget (attempt : Nat) : Nat := ((phases (tweak attempt)).map (fun phase => phase.cap + 1)).sum

/-- The phases in which the fingers close. -/
def Phase.closes : Phase → Bool
  | .close | .squeeze | .lift => true
  | _ => false

/-- The first call of an attempt that closes the fingers, within `CLOSE_XY` of the grasp point. -/
def Call.Lands (call : Call) : Prop :=
  call.before.phase.closes = false ∧ call.action.1 = .closed ∧ call.reading.aimXY.lt closeXY = true

/-- The call stalls in `hover` or in `descend`. -/
def Call.Stalls (call : Call) : Prop :=
  (beforeHover call.reading call.before).2 = none ∧
      (beforeHover call.reading call.before).1.phase = .hover ∧
      stalls call.reading.hover (beforeHover call.reading call.before).1.tick = true ∨
    (beforeDescent call.reading call.before).2 = none ∧
      (beforeDescent call.reading call.before).1.phase = .descend ∧
      stalls call.reading.aim (beforeDescent call.reading call.before).1.tick = true

/-- What is said of the calls of a driver. -/
structure Scheduled (calls : List Call) : Prop where
  ends : ∀ attempt, calls.countP (fun call => call.before.attempt == attempt) ≤ budget attempt
  first : ∀ call ∈ calls.head?, call.before.attempt = 0
  order : calls.IsChain (fun call next =>
    next.before.attempt = call.before.attempt ∨ next.before.attempt = call.before.attempt + 1)
  rows : ∀ call ∈ calls, ∀ other ∈ calls,
    rowInUse call.before.attempt = rowInUse other.before.attempt →
      call.before.attempt = other.before.attempt ∨ rowInUse call.before.attempt = retry.length - 1
  lifts : ∀ call ∈ calls, ∀ height, call.action.2 = .lift height → height.isSome = true
  closes : ∀ before call after, calls = before ++ call :: after → call.action.1 = .closed →
    ∃ lands ∈ before ++ [call], lands.before.attempt = call.before.attempt ∧ lands.Lands
  fails : ∀ call ∈ calls, call.after.failureMode ≠ call.before.failureMode →
    call.after.failureMode = some "reach_stall" ∧ call.Stalls ∧
      rowInUse call.before.attempt = retry.length - 1

/-! ## What a call spends -/

/-- The calls that the phases after this one may take. -/
def later (style : Style) (phase : Phase) : Nat :=
  (((phases style).dropWhile (fun other => other != phase)).tail.map (fun phase => phase.cap + 1)).sum

/-- The calls that the attempt may still take. -/
def Driver.left (driver : Driver) : Nat :=
  driver.phase.cap + 1 - driver.ticks + later driver.style driver.phase

structure Kept (driver : Driver) : Prop where
  ticks : driver.ticks ≤ driver.phase.cap
  turns : driver.phase = .preyaw → driver.style = .pre
  lifted : driver.phase = .lift → driver.liftZ.isSome = true

structure Follows (reading : Reading) (before after : Driver) : Prop where
  kept : Kept after
  attempt : after.attempt = before.attempt
  left : after.left ≤ before.left
  failure : after.failureMode = before.failureMode
  closing : after.phase.closes = true → before.phase.closes = true ∨ reading.aimXY.lt closeXY = true

section

variable {reading : Reading} {driver before after last : Driver} {why other : Prop}

theorem Follows.refl (kept : Kept driver) : Follows reading driver driver :=
  ⟨kept, rfl, le_rfl, rfl, .inl⟩

theorem Follows.trans (first : Follows reading before after) (second : Follows reading after last) :
    Follows reading before last where
  kept := second.kept
  attempt := second.attempt.trans first.attempt
  left := second.left.trans first.left
  failure := second.failure.trans first.failure
  closing := fun closes => (second.closing closes).elim first.closing .inr

theorem left_pos (kept : Kept driver) : 0 < driver.left := by
  have within := kept.ticks
  rw [Driver.left]
  omega

theorem follows_tick (after : Driver) (kept : Kept before) (attempt : after.attempt = before.attempt)
    (phase : after.phase = before.phase) (ticks : after.ticks = before.ticks + 1)
    (unspent : ¬ before.phase.cap < before.ticks + 1) (lift : after.liftZ = before.liftZ)
    (failure : after.failureMode = before.failureMode) :
    Follows reading before after ∧ after.left < before.left := by
  have style : after.style = before.style := by rw [Driver.style, attempt, Driver.style]
  have less : after.left < before.left := by
    rw [Driver.left, Driver.left, phase, style, ticks]
    omega
  refine ⟨⟨⟨?_, ?_, ?_⟩, attempt, less.le, failure, ?_⟩, less⟩
  · rw [phase, ticks]
    exact not_lt.mp unspent
  · rw [phase, style]
    exact kept.turns
  · rw [phase, lift]
    exact kept.lifted
  · rw [phase]
    exact .inl

theorem follows_enter (next : Phase) (after : Driver) (kept : Kept before)
    (attempt : after.attempt = before.attempt) (phase : after.phase = next) (ticks : after.ticks = 0)
    (failure : after.failureMode = before.failureMode)
    (room : next.cap + 1 + later before.style next ≤ later before.style before.phase)
    (turns : next = .preyaw → before.style = .pre)
    (lifted : next = .lift → after.liftZ.isSome = true)
    (closing : next.closes = true → before.phase.closes = true ∨ reading.aimXY.lt closeXY = true) :
    Follows reading before after ∧ after.left < before.left := by
  have style : after.style = before.style := by rw [Driver.style, attempt, Driver.style]
  have within := kept.ticks
  rw [← phase] at room turns lifted closing
  have less : after.left < before.left := by
    rw [Driver.left, Driver.left, style, ticks]
    omega
  refine ⟨⟨⟨?_, ?_, lifted⟩, attempt, less.le, failure, closing⟩, less⟩
  · rw [ticks]
    exact Nat.zero_le _
  · rw [style]
    exact turns

inductive Passes (reading : Reading) (start : Driver) (why : Prop) : Driver × Option Action → Prop
  | falls {next : Driver} (follows : Follows reading start next) : Passes reading start why (next, none)
  | acts {next : Driver} {action : Action} (follows : Follows reading start next)
      (less : next.left < start.left) (waits : next.phase.closes = false) (grip : action.1 = .opened)
      (low : ∀ height, action.2 ≠ .lift height) : Passes reading start why (next, some action)
  | restarts {driver : Driver} {action : Action} (attempt : driver.attempt = start.attempt)
      (failure : driver.failureMode = start.failureMode) (stalled : why) (grip : action.1 = .opened)
      (low : ∀ height, action.2 ≠ .lift height) :
      Passes reading start why (nextAttempt true driver, some action)

theorem Passes.andThen {passed : Driver × Option Action} {next : Driver → Driver × Option Action}
    (first : Passes reading driver why passed)
    (second : passed.2 = none → Kept passed.1 → Passes reading passed.1 other (next passed.1)) :
    Passes reading driver (why ∨ passed.2 = none ∧ other) (andThen passed next) := by
  cases first with
  | acts follows less waits grip low => exact .acts follows less waits grip low
  | restarts attempt failure stalled grip low =>
      exact .restarts attempt failure (.inl stalled) grip low
  | falls follows =>
      rw [GraspDriver.andThen]
      have then_ := second rfl follows.kept
      generalize next _ = out at then_
      cases then_ with
      | falls more => exact .falls (follows.trans more)
      | acts more less waits grip low =>
          exact .acts (follows.trans more) (lt_of_lt_of_le less follows.left) waits grip low
      | restarts attempt failure stalled grip low =>
          exact .restarts (attempt.trans follows.attempt) (failure.trans follows.failure)
            (.inr ⟨rfl, stalled⟩) grip low

theorem passes_inPhase {phase : Phase} {block : Driver → Driver × Option Action} (kept : Kept driver)
    (passes : driver.phase = phase → Passes reading driver why (block driver.tick)) :
    Passes reading driver (driver.phase = phase ∧ why) (inPhase phase block driver) := by
  rw [inPhase]
  split
  · rename_i here
    have passed := passes here
    generalize block _ = out at passed
    cases passed with
    | falls follows => exact .falls follows
    | acts follows less waits grip low => exact .acts follows less waits grip low
    | restarts attempt failure stalled grip low =>
        exact .restarts attempt failure ⟨here, stalled⟩ grip low
  · exact .falls (.refl kept)

theorem passes_align (kept : Kept driver) (here : driver.phase = .align) :
    Passes reading driver False (alignBlock reading driver.tick) := by
  rw [alignBlock]
  split
  · apply Passes.falls
    refine (follows_enter (if driver.style = .pre then .preyaw else .hover) (driver.tick.enter _) kept rfl
      rfl rfl rfl ?_ ?_ ?_ ?_).1
    · rw [here]
      cases driver.style <;> decide
    · intro turns
      by_contra straight
      rw [if_neg straight] at turns
      cases turns
    · intro lifts
      split at lifts <;> cases lifts
    · intro closes
      split at closes <;> cases closes
  · rename_i stays
    rw [Bool.or_eq_true, not_or, Driver.spent, decide_eq_true_eq] at stays
    rcases follows_tick driver.tick kept rfl rfl rfl stays.2 rfl rfl with ⟨follows, less⟩
    exact .acts follows less (congrArg Phase.closes here) rfl (fun _ => Move.noConfusion)

theorem passes_preyaw (kept : Kept driver) (here : driver.phase = .preyaw) :
    Passes reading driver False (preyawBlock reading driver.tick) := by
  rw [preyawBlock]
  split
  · have room : Phase.hover.cap + 1 + later driver.style .hover ≤ later driver.style driver.phase := by
      rw [here, kept.turns here]
      decide
    have entered : Follows reading driver (driver.tick.enter .hover) ∧
        (driver.tick.enter .hover).left < driver.left :=
      follows_enter .hover _ kept rfl rfl rfl rfl room Phase.noConfusion Phase.noConfusion
        (fun closes => absurd closes Bool.false_ne_true)
    exact .acts entered.1 entered.2 rfl rfl (fun _ => Move.noConfusion)
  · rename_i stays
    rw [Bool.or_eq_true, not_or, Driver.spent, decide_eq_true_eq] at stays
    rcases follows_tick driver.tick kept rfl rfl rfl stays.2 rfl rfl with ⟨follows, less⟩
    exact .acts follows less (congrArg Phase.closes here) rfl (fun _ => Move.noConfusion)

theorem passes_hover (kept : Kept driver) (here : driver.phase = .hover) :
    Passes reading driver (stalls reading.hover driver.tick = true)
      (hoverBlock reading driver.tick) := by
  rw [hoverBlock]
  split
  · apply Passes.falls
    refine (follows_enter .descend
      { driver.tick.enter .descend with stall := ⟨driver.tick.stallK, Double.posInf, 0⟩ } kept rfl rfl
      rfl rfl ?_ Phase.noConfusion Phase.noConfusion ?_).1
    · rw [here]
      cases driver.style <;> decide
    · exact fun closes => absurd closes Bool.false_ne_true
  · split
    · rename_i stalled
      exact .restarts rfl rfl stalled rfl (fun _ => Move.noConfusion)
    · rename_i stays
      rw [stalls, Bool.or_eq_true, not_or, Driver.spent, decide_eq_true_eq] at stays
      have ticked : Follows reading driver (watch reading.hover driver.tick) ∧
          (watch reading.hover driver.tick).left < driver.left :=
        follows_tick _ kept rfl rfl rfl stays.1 rfl rfl
      exact .acts ticked.1 ticked.2 (congrArg Phase.closes here) rfl (fun _ => Move.noConfusion)

theorem passes_descend (kept : Kept driver) (here : driver.phase = .descend) :
    Passes reading driver (stalls reading.aim driver.tick = true)
      (descendBlock reading driver.tick) := by
  rw [descendBlock]
  split
  · rename_i lands
    apply Passes.falls
    refine (follows_enter .close
      (Driver.enter .close { driver.tick with zHist := reading.eefZ :: driver.tick.zHist }) kept rfl rfl
      rfl rfl ?_ Phase.noConfusion Phase.noConfusion ?_).1
    · rw [here]
      cases driver.style <;> decide
    · rw [landed, Bool.and_eq_true] at lands
      exact fun _ => .inr lands.1
  · split
    · rename_i stalled
      exact .restarts rfl rfl stalled rfl (fun _ => Move.noConfusion)
    · rename_i stays
      rw [stalls, Bool.or_eq_true, not_or, Driver.spent, decide_eq_true_eq] at stays
      have ticked : Follows reading driver
            (watch reading.aim { driver.tick with zHist := reading.eefZ :: driver.tick.zHist }) ∧
          (watch reading.aim { driver.tick with zHist := reading.eefZ :: driver.tick.zHist }).left <
            driver.left :=
        follows_tick _ kept rfl rfl rfl stays.1 rfl rfl
      exact .acts ticked.1 ticked.2 (congrArg Phase.closes here) rfl (fun _ => Move.noConfusion)

theorem passes_beforeGrip (kept : Kept driver) (action : Action) (next : Driver) :
    Passes reading driver (Call.Stalls ⟨driver, reading, action, next⟩) (beforeGrip reading driver) := by
  have aligned : driver.phase = .align → Passes reading driver False (alignBlock reading driver.tick) :=
    passes_align kept
  have parked := passes_inPhase kept aligned
  have hovers : Passes reading driver False (beforeHover reading driver) := by
    have passed := parked.andThen (fun _ kept_ => passes_inPhase kept_ (passes_preyaw kept_))
    rw [and_false, and_false, and_false, or_false] at passed
    exact passed
  have descends : Passes reading driver _ (beforeDescent reading driver) :=
    hovers.andThen (fun _ kept_ => passes_inPhase kept_ (passes_hover kept_))
  rw [false_or] at descends
  exact descends.andThen (fun _ kept_ => passes_inPhase kept_ (passes_descend kept_))

inductive Acts (call : Call) : Prop
  | goes (follows : Follows call.reading call.before call.after)
      (less : call.after.left < call.before.left)
      (grip : call.after.phase.closes = true → call.action.1 = .closed)
      (lands : call.action.1 = .closed →
        call.before.phase.closes = true ∨ call.reading.aimXY.lt closeXY = true)
      (lifts : ∀ height, call.action.2 = .lift height → height.isSome = true) : Acts call
  | restarts {driver : Driver} {stalled : Bool} (attempt : driver.attempt = call.before.attempt)
      (failure : driver.failureMode = call.before.failureMode)
      (again : call.after = nextAttempt stalled driver) (why : stalled = true → call.Stalls)
      (grip : call.action.1 = .opened) (low : ∀ height, call.action.2 ≠ .lift height) : Acts call

theorem acts_closing (next : Phase) (kept : Kept driver) {call : Call} {moved : Driver}
    (follows : Follows call.reading call.before driver) (here : driver.phase.closes = true)
    (ran : call.after = if driver.tick.spent then moved else driver.tick)
    (enters : moved.attempt = driver.attempt ∧ moved.phase = next ∧ moved.ticks = 0 ∧
      moved.failureMode = driver.failureMode)
    (room : ∀ style, next.cap + 1 + later style next ≤ later style driver.phase)
    (turns : next ≠ .preyaw) (lifted : next = .lift → moved.liftZ.isSome = true)
    (grips : call.action.1 = .closed)
    (lifts : ∀ height, call.action.2 = .lift height → height.isSome = true) : Acts call := by
  have goes : Follows call.reading driver call.after ∧ call.after.left < driver.left := by
    rw [ran]
    split
    · exact follows_enter next moved kept enters.1 enters.2.1 enters.2.2.1 enters.2.2.2 (room _)
        (fun same => absurd same turns) lifted (fun _ => .inl here)
    · rename_i unspent
      rw [Driver.spent, decide_eq_true_eq] at unspent
      exact follows_tick driver.tick kept rfl rfl rfl unspent rfl rfl
  exact .goes (follows.trans goes.1) (lt_of_lt_of_le goes.2 follows.left) (fun _ => grips)
    (fun _ => follows.closing here) lifts

theorem acts_grip (kept : Kept driver) {call : Call} (follows : Follows call.reading call.before driver)
    (ran : (call.after, call.action) = grip call.reading driver) : Acts call := by
  rw [grip] at ran
  split at ran
  · rename_i here
    injection ran with after action
    refine acts_closing .squeeze kept follows (congrArg Phase.closes here) after ⟨rfl, rfl, rfl, rfl⟩
      ?_ Phase.noConfusion Phase.noConfusion (congrArg Prod.fst action) ?_
    · rw [here]
      intro style
      cases style <;> decide
    · rw [action]
      exact fun _ => Move.noConfusion
  · rename_i here
    injection ran with after action
    refine acts_closing .lift kept follows (congrArg Phase.closes here) after ⟨rfl, rfl, rfl, rfl⟩
      ?_ Phase.noConfusion (fun _ => rfl) (congrArg Prod.fst action) ?_
    · rw [here]
      intro style
      cases style <;> decide
    · rw [action]
      exact fun _ => Move.noConfusion
  · rename_i here
    injection ran with after action
    refine acts_closing .recover kept follows (congrArg Phase.closes here) after ⟨rfl, rfl, rfl, rfl⟩
      ?_ Phase.noConfusion Phase.noConfusion (congrArg Prod.fst action) ?_
    · rw [here]
      intro style
      cases style <;> decide
    · rw [action]
      intro height same
      injection same with same
      rw [← same]
      exact kept.lifted here
  · rename_i close squeeze lift
    injection ran with after action
    have opens : driver.phase.closes = false := by
      cases phase : driver.phase <;> first | rfl | contradiction
    have low : ∀ height, call.action.2 ≠ .lift height := by
      rw [action]
      exact fun _ => Move.noConfusion
    split at after
    · exact @Acts.restarts call driver.tick false follows.attempt follows.failure after
        (fun never => absurd never Bool.false_ne_true) (congrArg Prod.fst action) low
    · rename_i unspent
      rw [Driver.spent, decide_eq_true_eq] at unspent
      have goes : Follows call.reading driver driver.tick ∧ driver.tick.left < driver.left :=
        follows_tick driver.tick kept rfl rfl rfl unspent rfl rfl
      rw [← after] at goes
      refine .goes (follows.trans goes.1) (lt_of_lt_of_le goes.2 follows.left) ?_ ?_ ?_
      · intro closes
        rw [after] at closes
        exact absurd (opens.symm.trans closes) Bool.false_ne_true
      · rw [action]
        exact Grip.noConfusion
      · exact fun height same => absurd same (low height)

theorem acts_act (kept : Kept driver) (reading : Reading) :
    Acts ⟨driver, reading, (act reading driver).2, (act reading driver).1⟩ := by
  generalize same : act reading driver = acted
  rcases acted with ⟨next, action⟩
  have passed : Passes reading driver _ (beforeGrip reading driver) := passes_beforeGrip kept action next
  rw [act] at same
  generalize beforeGrip reading driver = out at passed same
  cases passed with
  | falls follows => exact acts_grip follows.kept follows same.symm
  | acts follows less waits grip low =>
      cases same
      refine .goes follows less ?_ ?_ ?_
      · exact fun closes => absurd (waits.symm.trans closes) Bool.false_ne_true
      · exact fun closed => Grip.noConfusion (grip.symm.trans closed)
      · exact fun height lifts => absurd lifts (low height)
  | restarts attempt failure stalled grip low =>
      cases same
      exact .restarts attempt failure rfl (fun _ => stalled) grip low

end

theorem left_nextAttempt (stalled : Bool) (driver : Driver) :
    (nextAttempt stalled driver).left = budget (driver.attempt + 1) := by
  have style : (nextAttempt stalled driver).style = tweak (driver.attempt + 1) := rfl
  rw [Driver.left, style, budget]
  cases tweak (driver.attempt + 1) <;> rfl

theorem kept_nextAttempt (stalled : Bool) (driver : Driver) : Kept (nextAttempt stalled driver) :=
  ⟨Nat.zero_le _, Phase.noConfusion, Phase.noConfusion⟩

theorem Acts.next {call : Call} (acts : Acts call) :
    Kept call.after ∧ ((call.after.attempt = call.before.attempt ∧ call.after.left < call.before.left) ∨
      call.after.attempt = call.before.attempt + 1 ∧ call.after.left = budget (call.before.attempt + 1)) := by
  cases acts with
  | goes follows less _ _ _ => exact ⟨follows.kept, .inl ⟨follows.attempt, less⟩⟩
  | restarts attempt _ again _ _ _ =>
      rw [again, ← attempt]
      exact ⟨kept_nextAttempt _ _, .inr ⟨rfl, left_nextAttempt _ _⟩⟩

def room (driver : Driver) (attempt : Nat) : Nat :=
  if attempt = driver.attempt then driver.left else if driver.attempt < attempt then budget attempt else 0

theorem countP_calls_le {driver : Driver} (kept : Kept driver) (readings : List Reading) (attempt : Nat) :
    (calls driver readings).countP (fun call => call.before.attempt == attempt) ≤ room driver attempt := by
  induction readings generalizing driver with
  | nil => exact Nat.zero_le _
  | cons reading rest ih =>
      rcases (acts_act kept reading).next with ⟨kept_, moves⟩
      have rest_ := ih kept_
      have some_ := left_pos kept
      rw [calls, List.countP_cons]
      simp only [room, beq_iff_eq] at rest_ ⊢
      rcases moves with ⟨same, less⟩ | ⟨next, full⟩
      · simp only [] at same less
        rw [same] at rest_
        split_ifs at rest_ ⊢ <;> omega
      · simp only [] at next full
        rw [next, full] at rest_
        by_cases here : attempt = driver.attempt + 1
        · rw [if_pos here, ← here] at rest_
          rw [if_neg (by omega), if_neg (by omega), if_pos (by omega)]
          exact rest_
        · split_ifs at rest_ ⊢ <;> omega

theorem before_head {driver : Driver} {readings : List Reading} :
    ∀ call ∈ (calls driver readings).head?, call.before = driver := by
  cases readings with
  | nil =>
      intro call head
      cases head
  | cons reading rest =>
      intro call head
      cases head
      rfl

theorem acts_of_mem {driver : Driver} (kept : Kept driver) {readings : List Reading} {call : Call}
    (mem : call ∈ calls driver readings) : Acts call := by
  induction readings generalizing driver with
  | nil => cases mem
  | cons reading rest ih =>
      have acts := acts_act kept reading
      rcases List.mem_cons.mp mem with same | later
      · rw [same]
        exact acts
      · exact ih acts.next.1 later

theorem isChain_calls {driver : Driver} (kept : Kept driver) (readings : List Reading) :
    (calls driver readings).IsChain (fun call next =>
      next.before.attempt = call.before.attempt ∨ next.before.attempt = call.before.attempt + 1) := by
  induction readings generalizing driver with
  | nil => exact .nil
  | cons reading rest ih =>
      rcases (acts_act kept reading).next with ⟨kept_, moves⟩
      have chain := ih kept_
      cases rest with
      | nil => exact .singleton _
      | cons second more => exact .cons_cons (moves.imp And.left And.left) chain

theorem lands_of_closed {driver : Driver} (kept : Kept driver) {readings : List Reading}
    {before after : List Call} {call : Call} (split : calls driver readings = before ++ call :: after)
    (closed : call.action.1 = .closed) :
    (driver.phase.closes = true ∧ call.before.attempt = driver.attempt) ∨
      ∃ lands ∈ before ++ [call], lands.before.attempt = call.before.attempt ∧ lands.Lands := by
  induction readings generalizing driver before with
  | nil => exact absurd split.symm (List.append_ne_nil_of_right_ne_nil _ (List.cons_ne_nil _ _))
  | cons reading rest ih =>
      have acts := acts_act kept reading
      rw [calls] at split
      cases before with
      | nil =>
          injection split with same _
          rw [same] at acts
          cases acts with
          | restarts _ _ _ _ grip _ => exact Grip.noConfusion (grip.symm.trans closed)
          | goes _ _ _ lands _ =>
              rw [← same] at lands closed ⊢
              by_cases closes : driver.phase.closes = true
              · exact .inl ⟨closes, rfl⟩
              · right
                refine ⟨_, List.mem_singleton_self _, rfl, Bool.eq_false_iff.mpr closes, closed, ?_⟩
                exact (lands closed).resolve_left closes
      | cons first more =>
          injection split with same later
          rcases ih acts.next.1 later with ⟨closes, attempt⟩ | ⟨lands, mem, found⟩
          · cases acts with
            | restarts _ _ again _ _ _ =>
                have waits := congrArg (fun driver => driver.phase.closes) again
                exact absurd (waits.symm.trans closes) Bool.false_ne_true
            | goes follows _ grip lands _ =>
                have attempt_ : call.before.attempt = driver.attempt := attempt.trans follows.attempt
                by_cases closing : driver.phase.closes = true
                · exact .inl ⟨closing, attempt_⟩
                · right
                  refine ⟨first, .head _, ?_, ?_⟩
                  · rw [← same, attempt_]
                  · rw [← same]
                    exact ⟨Bool.eq_false_iff.mpr closing, grip closes,
                      (lands (grip closes)).resolve_left closing⟩
          · exact .inr ⟨lands, .tail _ mem, found⟩

/-- The schedule makes progress and closes the fingers only after a centred descent, whatever the
readings are. -/
theorem scheduled_calls (stallK : Int) (hoverXY : Double) (readings : List Reading) :
    Scheduled (calls { stallK, hoverXY } readings) := by
  have kept : Kept { stallK, hoverXY } := ⟨Nat.zero_le _, Phase.noConfusion, Phase.noConfusion⟩
  refine ⟨?_, ?_, isChain_calls kept readings, ?_, ?_, ?_, ?_⟩
  · intro attempt
    apply le_trans (countP_calls_le kept readings attempt)
    rw [room]
    split
    · rename_i first
      rw [first]
      exact le_of_eq rfl
    · split
      · exact le_rfl
      · exact Nat.zero_le _
  · intro call head
    rw [before_head call head]
  · intro call _ other _ same
    simp only [rowInUse] at same ⊢
    omega
  · intro call member
    cases acts_of_mem kept member with
    | goes _ _ _ _ lifts => exact lifts
    | restarts _ _ _ _ _ low => exact fun height same => absurd same (low height)
  · intro before call after split closed
    rcases lands_of_closed kept split closed with ⟨impossible, _⟩ | found
    · cases impossible
    · exact found
  · intro call member changed
    cases acts_of_mem kept member with
    | goes follows _ _ _ _ => exact absurd follows.failure changed
    | @restarts driver stalled attempt failure again why _ _ =>
        have mode := congrArg Driver.failureMode again
        rw [nextAttempt] at mode
        simp only [] at mode
        split at mode
        · rename_i spent
          rw [Bool.and_eq_true, decide_eq_true_eq, attempt] at spent
          refine ⟨mode, why spent.1, ?_⟩
          simp only [rowInUse]
          omega
        · exact absurd (mode.trans failure) changed

end GraspDriver
end Embodiment
end PhysicalHarness
