import Mathlib.Data.Rat.Floor
import Mathlib.Tactic.Linarith
import PhysicalHarness.Lib.Loop

namespace PhysicalHarness
namespace Harness
namespace Executor

open Loop

/-!
# The watched pool

With a timeout, `LocalPoolExecutor.map` runs every item in a process of its own, at most
`workers` at a time, and polls them.  The children are given by what each of them would do
if nobody killed it, the schedule of the parent by the time that passes before each of its
actions; both are arbitrary, so a child may send, close its pipe or die between any two
actions of the parent.

A child ends its part when it has sent its outcome or closed its pipe, and only then does
the parent wait for it without a limit.  `Departs` says that such a child goes on to exit.
-/

variable {Item Result Error : Type}

/-- How the call of `fn` ends in the child. -/
inductive Call (Result Error : Type) where
  | returned (result : Result)
  /-- a result that cannot be pickled: the pickling error is what is sent -/
  | unsendable (error : Error)
  | raised (error : Error)
  /-- an exception that cannot be pickled -/
  | unspeakable

inductive Message (Result Error : Type) where
  | ok (payload : Result)
  | err (error : Error)
  deriving DecidableEq

/-- `_child`: what the process puts into its pipe. -/
def child : Call Result Error → Option (Message Result Error)
  | .returned result => some (.ok result)
  | .unsendable error => some (.err error)
  | .raised error => some (.err error)
  | .unspeakable => none

/-- What a child does if nobody kills it.  The times count from its start, and what never
happens has none. -/
structure Life (Result Error : Type) where
  /-- the call of `fn` is over and its outcome handed over -/
  call : Option (ℚ × Call Result Error)
  /-- the last write end of the pipe is closed -/
  closed : Option ℚ
  died : Option ℚ
  call_le_closed : ∀ call' ∈ call, ∀ closed' ∈ closed, call'.1 ≤ closed'
  call_le_died : ∀ call' ∈ call, ∀ died' ∈ died, call'.1 ≤ died'

namespace Life

variable (life : Life Result Error)

def sent : Option (ℚ × Message Result Error) :=
  life.call.bind (fun call => (child call.2).map (fun message => (call.1, message)))

/-- A child that has sent its outcome or closed its pipe goes on to exit. -/
def Departs : Prop := life.sent.isSome ∨ life.closed.isSome → life.died.isSome

theorem sent_le_closed {life : Life Result Error} {message : ℚ × Message Result Error} {closed : ℚ}
    (sent : life.sent = some message) (ends : life.closed = some closed) : message.1 ≤ closed := by
  rcases Option.bind_eq_some_iff.mp sent with ⟨call, called, said⟩
  rcases Option.map_eq_some_iff.mp said with ⟨text, _, same⟩
  subst same
  exact life.call_le_closed call called closed ends

theorem sent_le_died {life : Life Result Error} {message : ℚ × Message Result Error} {died : ℚ}
    (sent : life.sent = some message) (ends : life.died = some died) : message.1 ≤ died := by
  rcases Option.bind_eq_some_iff.mp sent with ⟨call, called, said⟩
  rcases Option.map_eq_some_iff.mp said with ⟨text, _, same⟩
  subst same
  exact life.call_le_died call called died ends

end Life

/-- The children in the order of their start, and the time before each action of the parent. -/
structure Schedule (Result Error : Type) where
  life : Nat → Life Result Error
  delay : Nat → ℚ
  delay_nonneg : ∀ act, 0 ≤ delay act

/-! ## The parent -/

/-- A started process; `started` is what the parent read from the clock. -/
structure Proc (Item : Type) where
  pid : Nat
  item : Item
  born : ℚ
  started : ℚ
  deriving DecidableEq

inductive Reason where
  | wallTimeout
  | workerDied
  deriving DecidableEq

inductive Verdict (Result : Type) where
  | payload (result : Result)
  | lost (reason : Reason)

/-- The variables of `map`, with every process ever started and every kill. -/
structure Parent (Item Result : Type) where
  now : ℚ := 0
  acts : Nat := 0
  queue : List Item
  exhausted : Bool := false
  procs : List (Proc Item) := []
  killed : List (Nat × ℚ) := []
  live : List (Proc Item) := []
  out : List (Proc Item × Verdict Result) := []

namespace Schedule

variable (schedule : Schedule Result Error)

def diedBy (proc : Proc Item) (time : ℚ) : Bool :=
  (schedule.life proc.pid).died.any (fun died => decide (proc.born + died ≤ time))

def closedBy (proc : Proc Item) (time : ℚ) : Bool :=
  (schedule.life proc.pid).closed.any (fun closed => decide (proc.born + closed ≤ time))

def heard (proc : Proc Item) (time : ℚ) : Option (Message Result Error) :=
  ((schedule.life proc.pid).sent.filter
    (fun message => decide (proc.born + message.1 ≤ time))).map Prod.snd

/-- `rx.poll(0)`: a message is there, or the end of the pipe. -/
def polls (proc : Proc Item) (time : ℚ) : Bool :=
  (schedule.heard proc time).isSome || schedule.closedBy proc time

/-- The process runs: started, not dead by itself and not killed. -/
def alive (killed : List (Nat × ℚ)) (time : ℚ) (proc : Proc Item) : Bool :=
  decide (proc.born ≤ time) && !schedule.diedBy proc time &&
    killed.all (fun kill => decide (kill.1 ≠ proc.pid) || decide (time < kill.2))

end Schedule

section

variable (schedule : Schedule Result Error)

/-- The time passes that is due before the next action. -/
def Parent.act (parent : Parent Item Result) : Parent Item Result :=
  { parent with now := parent.now + schedule.delay parent.acts, acts := parent.acts + 1 }

/-- `proc.kill()`. -/
def Parent.kill (parent : Parent Item Result) (proc : Proc Item) : Parent Item Result :=
  { parent with killed := parent.killed ++ [(proc.pid, parent.now)] }

/-- `_TICK`. -/
def tick : ℚ := 1 / 4

/-- `time.sleep(_TICK)`. -/
def Parent.sleep (parent : Parent Item Result) : Parent Item Result :=
  let parent := parent.act schedule
  { parent with now := parent.now + tick }

/-- Start a process for the item; it runs from the fork on, and the clock is read later. -/
def Parent.start (parent : Parent Item Result) (item : Item) : Parent Item Result :=
  let forked := parent.act schedule
  let opened := forked.act schedule
  let proc := { pid := parent.procs.length, item, born := forked.now, started := opened.now }
  { opened with procs := opened.procs ++ [proc], live := opened.live ++ [proc] }

def fill (workers : Nat) : List Item → Parent Item Result → Parent Item Result
  | [], parent =>
      if parent.live.length < workers then { parent with exhausted := true } else parent
  | item :: rest, parent =>
      if parent.live.length < workers then
        fill workers rest (Parent.start schedule { parent with queue := rest } item)
      else parent

inductive Check (Result Error : Type) where
  | waiting
  | settled (verdict : Verdict Result)
  | raised (error : Error)

/-- The body of the loop over `live`: liveness is sampled before the pipe is polled. -/
def check (timeout : ℚ) (proc : Proc Item) (parent : Parent Item Result) :
    Parent Item Result × Check Result Error :=
  let sampled := parent.act schedule
  let polled := sampled.act schedule
  if schedule.polls proc polled.now then
    let read := polled.act schedule
    match schedule.heard proc read.now with
    | some (.ok payload) => (read, .settled (.payload payload))
    | some (.err error) => (read, .raised error)
    | none => (read, .settled (.lost .workerDied))
  else if schedule.diedBy proc sampled.now then (polled, .settled (.lost .workerDied))
  else
    let clocked := polled.act schedule
    if timeout < clocked.now - proc.started then
      ((clocked.act schedule).kill proc, .settled (.lost .wallTimeout))
    else (clocked, .waiting)

/-- The loop over `live`; an error leaves it at once. -/
def sweep (timeout : ℚ) : List (Proc Item) → Parent Item Result →
    List (Proc Item × Verdict Result) →
      Parent Item Result × Except Error (List (Proc Item × Verdict Result))
  | [], parent, settled => (parent, .ok settled)
  | proc :: rest, parent, settled =>
      match check schedule timeout proc parent with
      | (parent, .waiting) => sweep timeout rest parent settled
      | (parent, .settled verdict) => sweep timeout rest parent (settled ++ [(proc, verdict)])
      | (parent, .raised error) => (parent, .error error)

/-- `proc.join()`: it returns when the process is dead, and `none` stands for never. -/
def join (proc : Proc Item) (parent : Parent Item Result) : Option (Parent Item Result) :=
  let called := parent.act schedule
  if proc.pid ∈ called.killed.map Prod.fst then some called
  else (schedule.life proc.pid).died.map (fun died =>
    { called with now := max called.now (proc.born + died) })

/-- `live.pop(proc)`. -/
def Parent.pop (parent : Parent Item Result) (proc : Proc Item) : Parent Item Result :=
  { parent with live := parent.live.filter (fun other => decide (other.pid ≠ proc.pid)) }

/-- `out.append(result)`. -/
def Parent.settle (parent : Parent Item Result) (proc : Proc Item) (verdict : Verdict Result) :
    Parent Item Result :=
  { parent with out := parent.out ++ [(proc, verdict)] }

def retire : List (Proc Item × Verdict Result) → Parent Item Result → Option (Parent Item Result)
  | [], parent => some parent
  | (proc, verdict) :: rest, parent =>
      match join schedule proc (parent.pop proc) with
      | none => none
      | some parent => retire rest (parent.settle proc verdict)

/-- The `finally` block: every process that is left is killed and joined. -/
def cleanup : List (Proc Item) → Parent Item Result → Parent Item Result
  | [], parent => parent
  | proc :: rest, parent =>
      cleanup rest ((((parent.act schedule).kill proc).act schedule))

/-- How `map` ends; a `join` that never returns leaves it stuck. -/
inductive Ending (Item Result Error : Type) where
  | refused
  | returned (rows : List Result) (parent : Parent Item Result)
  | raised (error : Error) (parent : Parent Item Result)
  | stuck

def rowOf (onLost : Item → Reason → Result) (item : Item) : Verdict Result → Result
  | .payload result => result
  | .lost reason => onLost item reason

/-- One turn of the outer loop. -/
def turn (workers : Nat) (timeout : ℚ) (onLost : Item → Reason → Result)
    (parent : Parent Item Result) : Turn (Parent Item Result) (Ending Item Result Error) :=
  if parent.exhausted ∧ parent.live.isEmpty then
    .stop (.returned (parent.out.map (fun entry => rowOf onLost entry.1.item entry.2)) parent)
  else
    let filled := fill schedule workers parent.queue parent
    match sweep schedule timeout filled.live filled [] with
    | (swept, .error error) => .stop (.raised error (cleanup schedule swept.live swept))
    | (swept, .ok settled) =>
        match retire schedule settled swept with
        | none => .stop .stuck
        | some retired => .again (if settled.isEmpty then retired.sleep schedule else retired)

/-- `LocalPoolExecutor.map` with a timeout, for at most `fuel` turns of its loop. -/
def map (workers : Nat) (timeout : ℚ) (onLost : Option (Item → Reason → Result))
    (items : List Item) (fuel : Nat) : Option (Ending Item Result Error) :=
  match onLost with
  | none => some .refused
  | some onLost => iterate (turn schedule workers timeout onLost) fuel { queue := items }

end

end Executor
end Harness
end PhysicalHarness
