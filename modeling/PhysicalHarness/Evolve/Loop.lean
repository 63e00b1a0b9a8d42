import PhysicalHarness.Evolve.Suite
import PhysicalHarness.Lib.Schedule

namespace PhysicalHarness
namespace Evolve

/-!
# The evolve loop

A session keeps `campaign.json`, the copies of the card and the proposals.  A run of
`evolve.main` reads the campaign, and works round after round: it measures the incumbent,
copies it, takes a proposal, lets the agent edit the copy, and evaluates it as often as
the agent asks.  An accepted evaluation is copied aside and saved as the incumbent at
once; the row of the round and the cursor are saved when the round is over.  The process
may be cancelled, terminated or killed, and the next run continues from what was saved.

One event is a stretch of the code that nothing else can see the middle of: it writes one
file at most, and a process killed in the middle of it has done nothing, or has left a
copy half written, which is an event of its own.  `SIGTERM` saves what the process holds.
-/

variable {Content Tunables : Type}

/-! ## The files -/

/-- `work/r{round}` and `work/r{round}e{k}`. -/
inductive Dir where
  | work (round : Nat)
  | snap (round k : Nat)
  deriving DecidableEq, Repr

/-- The number in the name. -/
def Dir.round : Dir → Nat
  | .work round => round
  | .snap round _ => round

/-- `doc["incumbent"]`; no workspace is the stock card. -/
structure Incumbent (Tunables : Type) where
  workspace : Option Dir
  tunables : Tunables
  round : Nat

/-- `doc["parked"]`. -/
structure Parked (Tunables : Type) where
  workspace : Dir
  round : Nat
  tunables : Tunables

/-- A row of `doc["rounds"]`. -/
structure RoundRow where
  round : Nat
  accepted : Bool
  workspace : Option Dir
  proposal : Option String
  deriving DecidableEq, Repr

/-- `campaign.json`. -/
structure Doc (Tunables : Type) where
  low : Int
  high : Int
  rounds : List RoundRow
  cursor : Nat
  incumbent : Incumbent Tunables
  parked : Option (Parked Tunables)

structure Proposal where
  id : String
  task : String
  applied : Option Nat
  deriving DecidableEq, Repr

structure Disk (Content Tunables : Type) where
  campaign : Option (Doc Tunables)
  tree : Dir → Option Content
  proposals : List Proposal

/-- The card of a workspace. -/
def Disk.card (world : World Content Tunables) (disk : Disk Content Tunables) :
    Option Dir → Option Content
  | none => some world.stock
  | some dir => disk.tree dir

def Disk.save (disk : Disk Content Tunables) (doc : Doc Tunables) : Disk Content Tunables :=
  { disk with campaign := some doc }

def Disk.put (disk : Disk Content Tunables) (dir : Dir) (copy : Option Content) :
    Disk Content Tunables :=
  { disk with tree := Function.update disk.tree dir copy }

/-! ## The process -/

/-- Where a round is. -/
inductive Stage where
  | head
  | creating (source : Option Dir)
  | taking
  | opening
  | working
  /-- An evaluation was accepted, and its copy is made. -/
  | snapping (after : Suite) (confirmed : Bool)
  | finished
  | appended
  | advanced

/-- The row of the round is not in the campaign that the process holds. -/
def Stage.unrowed : Stage → Bool
  | .head | .appended | .advanced => false
  | _ => true

def Stage.unsaved : Stage → Bool
  | .head => false
  | _ => true

/-- The variables of `main`.  `confirmed` is a history: whether the range was widened
since `before` was measured. -/
structure Process (Tunables : Type) where
  doc : Doc Tunables
  confirmSeeds : Nat
  rounds : Nat
  completed : Nat
  base : Option Suite
  before : Suite
  incDir : Option Dir
  round : Nat
  tunables : Tunables
  dev : List Int
  evals : List Bool
  proposal : Option String
  confirmed : Bool
  stage : Stage

/-- The disk and the process; the proposals as they were submitted, the ids as they were
taken, and the states that an evaluation accepted. -/
structure State (Content Tunables : Type) where
  disk : Disk Content Tunables
  process : Option (Process Tunables)
  submitted : List (String × String)
  taken : List String
  accepted : List (Content × Tunables)

inductive Event (Content Tunables : Type) where
  | submit (id task : String)
  | boot (low high : Int) (confirmSeeds rounds : Nat)
  /-- The marker, the disk guard or the round limit at the head of the loop. -/
  | leave
  | begin
  | measureFails
  /-- A copy in the middle of being removed or written. -/
  | touch (left : Option Content)
  | create
  | take
  | refuse
  | openEndpoint
  /-- Any action of the agent on the copy and the tunables. -/
  | edit (copy : Option Content) (tunables : Tunables)
  | evaluate (fails confirmFails : Bool)
  | commit
  | unmeasured
  | cancel
  | finish (keep : Bool)
  | append
  | advance
  | trim (dir : Dir) (left : Option Content)
  | close (error : Bool)
  | term
  | crash

def freshDoc (world : World Content Tunables) (low high : Int) : Doc Tunables :=
  ⟨low, high, [], 0, ⟨none, world.noTunables, 0⟩, none⟩

/-- An incumbent whose copy is missing loses its workspace; its tunables stay. -/
def Doc.located (doc : Doc Tunables) (disk : Disk Content Tunables) : Doc Tunables :=
  if doc.incumbent.workspace.any (fun dir => (disk.tree dir).isNone) then
    { doc with incumbent := { doc.incumbent with workspace := none } }
  else doc

/-- `store.load() or {...}`. -/
def loaded (world : World Content Tunables) (disk : Disk Content Tunables) (low high : Int) :
    Doc Tunables :=
  (disk.campaign.getD (freshDoc world low high)).located disk

def boot (world : World Content Tunables) (state : State Content Tunables) (low high : Int)
    (confirmSeeds rounds : Nat) : State Content Tunables :=
  let doc := loaded world state.disk low high
  { state with
    disk := state.disk.save doc
    process := some
      { doc, confirmSeeds, rounds
        completed := 0, base := none, before := [], incDir := none, round := 0
        tunables := world.noTunables, dev := [], evals := [], proposal := none
        confirmed := false, stage := .head } }

/-- `store.save(doc)` and an exit. -/
def State.leave (state : State Content Tunables) (doc : Doc Tunables) : State Content Tunables :=
  { state with disk := state.disk.save doc, process := none }

def State.die (state : State Content Tunables) : State Content Tunables :=
  { state with process := none }

def State.set (state : State Content Tunables) (process : Process Tunables) :
    State Content Tunables :=
  { state with process := some process }

/-- The round number, the incumbent's directory, and the copy that the round starts from. -/
def Process.starting (process : Process Tunables) (disk : Disk Content Tunables) :
    Process Tunables :=
  let parked := process.doc.parked.filter (fun parked => (disk.tree parked.workspace).isSome)
  let incDir := process.doc.incumbent.workspace
  { process with
    round := process.doc.cursor + 1
    incDir
    evals := []
    proposal := none
    tunables := (parked.map Parked.tunables).getD process.doc.incumbent.tunables
    stage := .creating ((parked.map Parked.workspace).orElse fun _ => incDir) }

/-- `before = base or suite(...)`; a suite on a copy that is missing fails. -/
def beginRound (world : World Content Tunables) (state : State Content Tunables)
    (process : Process Tunables) : State Content Tunables :=
  let started := process.starting state.disk
  match process.base, state.disk.card world process.doc.incumbent.workspace with
  | some base, _ => state.set { started with before := base }
  | none, some copy =>
      state.set { started with
        before := world.suite (seedRange process.doc.low process.doc.high) copy
          process.doc.incumbent.tunables
        confirmed := false }
  | none, none => state.leave process.doc

/-- `Workspace.create`, which removes the copy before it reads its source. -/
def createCopy (world : World Content Tunables) (state : State Content Tunables)
    (process : Process Tunables) (source : Option Dir) : State Content Tunables :=
  let cleared := state.disk.put (.work process.round) none
  match cleared.card world source with
  | some copy =>
      { state with
        disk := state.disk.put (.work process.round) (some copy)
        process := some { process with stage := .taking } }
  | none => { state with disk := cleared, process := none }

/-- `sorted(inbox.glob("proposal-*.json"))`. -/
def inbox (proposals : List Proposal) : List Proposal :=
  proposals.insertionSort (fun left right => left.id ≤ right.id)

def Proposal.waits (task : String) (proposal : Proposal) : Bool :=
  proposal.task == task && proposal.applied.isNone

def oldest (task : String) (proposals : List Proposal) : Option Proposal :=
  (inbox proposals).find? (Proposal.waits task)

def stamp (id : String) (round : Nat) (proposals : List Proposal) : List Proposal :=
  proposals.map (fun proposal =>
    if proposal.id = id then { proposal with applied := some round } else proposal)

def takeProposal (task : String) (state : State Content Tunables) (process : Process Tunables) :
    State Content Tunables :=
  match oldest task state.disk.proposals with
  | none => state.set { process with stage := .opening }
  | some proposal =>
      { state with
        disk := { state.disk with
          proposals := stamp proposal.id process.round state.disk.proposals }
        taken := state.taken ++ [proposal.id]
        process := some { process with proposal := some proposal.id, stage := .opening } }

def confirms (check : Comparison) : Bool :=
  decide (check.before ≤ check.after) && decide (check.regressions.length ≤ check.gains.length)

/-- Whether the fresh seeds are asked. -/
def asks (process : Process Tunables) (after : Suite) : Bool :=
  (compare process.before after).accepted &&
    decide (process.before.count < after.count) && decide (0 < process.confirmSeeds)

/-- The verdict of the fresh seeds; a suite that fails confirms nothing. -/
def confirmation (world : World Content Tunables) (disk : Disk Content Tunables)
    (process : Process Tunables) (copy : Content) (confirmFails : Bool) : Bool :=
  let seeds := seedRange (process.doc.high + 1) (process.doc.high + process.confirmSeeds)
  match confirmFails, disk.card world process.incDir with
  | false, some incumbent =>
      confirms (compare (world.suite seeds incumbent process.doc.incumbent.tunables)
        (world.suite seeds copy process.tunables))
  | _, _ => false

def Process.widen (process : Process Tunables) : Process Tunables :=
  let high := process.doc.high + process.confirmSeeds
  { process with
    doc := { process.doc with high }
    dev := seedRange process.doc.low high
    confirmed := true }

/-- The receipt, or the copy of an accepted state. -/
def Process.judge (process : Process Tunables) (after : Suite) (accepted confirmed : Bool) :
    Process Tunables :=
  if accepted then { process with stage := .snapping after confirmed }
  else { process with evals := process.evals ++ [false] }

/-- `evaluate_state` on a copy that is there. -/
def evaluateState (world : World Content Tunables) (state : State Content Tunables)
    (process : Process Tunables) (copy : Content) (confirmFails : Bool) :
    State Content Tunables :=
  let after := world.suite process.dev copy process.tunables
  if asks process after then
    let wide := process.widen
    { state with
      disk := state.disk.save wide.doc
      process := some (wide.judge after
        (confirmation world state.disk process copy confirmFails) true) }
  else state.set (process.judge after (compare process.before after).accepted false)

/-- `work/r{rnd}e{k}` of the evaluation under way. -/
def Process.snapDir (process : Process Tunables) : Dir :=
  .snap process.round (process.evals.length + 1)

def commitState (state : State Content Tunables) (process : Process Tunables) (copy : Content)
    (after : Suite) (confirmed : Bool) : State Content Tunables :=
  let dir := process.snapDir
  let doc := { process.doc with incumbent := ⟨some dir, process.tunables, process.round⟩ }
  { state with
    disk := (state.disk.put dir (some copy)).save doc
    accepted := (copy, process.tunables) :: state.accepted
    process := some { process with
      doc
      incDir := some dir
      before := after
      base := if confirmed then none else some after
      confirmed
      evals := process.evals ++ [true]
      stage := .working } }

def Process.acceptedAny (process : Process Tunables) : Bool := process.evals.any id

/-- `doc["parked"]`. -/
def Process.park (process : Process Tunables) (keep : Bool) : Process Tunables :=
  let parked := if keep && !process.acceptedAny then
    some ⟨.work process.round, process.round, process.tunables⟩ else none
  { process with doc := { process.doc with parked }, stage := .finished }

/-- The row of the round. -/
def Process.row (process : Process Tunables) : RoundRow where
  round := process.round
  accepted := process.acceptedAny
  workspace := if process.acceptedAny then process.doc.incumbent.workspace
    else some (.work process.round)
  proposal := process.proposal

def Process.append (process : Process Tunables) : Process Tunables :=
  { process with
    doc := { process.doc with rounds := process.doc.rounds ++ [process.row] }
    stage := .appended }

def Process.advance (process : Process Tunables) : Process Tunables :=
  { process with doc := { process.doc with cursor := process.round }, stage := .advanced }

/-- `keep`: what accepted rows name, the incumbent's, and the parked copy. -/
def Doc.keeps (doc : Doc Tunables) (dir : Dir) : Bool :=
  doc.rounds.any (fun row => row.accepted && row.workspace == some dir) ||
    doc.incumbent.workspace == some dir ||
    doc.parked.any (fun parked => parked.workspace == dir)

/-- `WORKSPACES_KEPT`. -/
def workspacesKept : Nat := 10

/-- The last `tick` of the round, and the next baseline. -/
def closeRound (state : State Content Tunables) (process : Process Tunables) (error : Bool) :
    State Content Tunables :=
  if error then state.leave process.doc
  else
    { state with
      disk := state.disk.save process.doc
      process := some { process with
        completed := process.completed + 1
        base := process.base.map (fun _ => process.before)
        stage := .head } }

def Process.receipt (process : Process Tunables) : Process Tunables :=
  { process with evals := process.evals ++ [false] }

/-- An evaluation.  On an empty range the retest raises before it measures, and the agent
is told; so it is when its copy is gone. -/
def evaluate (world : World Content Tunables) (state : State Content Tunables)
    (process : Process Tunables) (fails confirmFails : Bool) : State Content Tunables :=
  match state.disk.tree (.work process.round) with
  | some copy =>
      if process.doc.high < process.doc.low then state
      else if fails then state.set process.receipt
      else evaluateState world state process copy confirmFails
  | none => state

/-- What the process does; `none` where the event cannot happen. -/
def act (world : World Content Tunables) (task : String) (event : Event Content Tunables)
    (state : State Content Tunables) (process : Process Tunables) :
    Option (State Content Tunables) :=
  match event, process.stage with
  | .leave, .head => some (state.leave process.doc)
  | .begin, .head =>
      if process.rounds = 0 ∨ process.completed < process.rounds then
        some (beginRound world state process)
      else none
  | .measureFails, .head =>
      if process.base.isNone = true then some (state.leave process.doc) else none
  | .touch left, .creating _ =>
      some { state with disk := state.disk.put (.work process.round) left }
  | .create, .creating source => some (createCopy world state process source)
  | .take, .taking => some (takeProposal task state process)
  | .refuse, .opening => some (state.leave process.doc)
  | .openEndpoint, .opening =>
      some (state.set { process with
        dev := seedRange process.doc.low process.doc.high, stage := .working })
  | .edit copy tunables, .working =>
      some { state with
        disk := state.disk.put (.work process.round) copy
        process := some { process with tunables } }
  | .evaluate fails confirmFails, .working =>
      some (evaluate world state process fails confirmFails)
  | .touch left, .snapping _ _ => some { state with disk := state.disk.put process.snapDir left }
  | .commit, .snapping after confirmed =>
      (state.disk.tree (.work process.round)).map
        (fun copy => commitState state process copy after confirmed)
  | .unmeasured, .working => some (state.set process.receipt)
  | .cancel, .working => some (state.leave process.doc)
  | .finish keep, .working => some (state.set (process.park keep))
  | .append, .finished =>
      -- the row names the first seed's death, which an empty range has not
      if process.doc.high < process.doc.low then some state.die
      else some (state.set process.append)
  | .advance, .appended => some (state.set process.advance)
  | .trim dir left, .advanced =>
      if process.doc.keeps dir = false ∧ dir.round + workspacesKept ≤ process.round then
        some { state with disk := state.disk.put dir left }
      else none
  | .close error, .advanced => some (closeRound state process error)
  | .term, _ => some (state.leave process.doc)
  | .crash, _ => some state.die
  | _, _ => none

def step (world : World Content Tunables) (task : String) (event : Event Content Tunables)
    (state : State Content Tunables) : Option (State Content Tunables) :=
  match event, state.process with
  | .submit id owner, _ =>
      if id ∈ state.submitted.map Prod.fst then none
      else some { state with
        disk := { state.disk with proposals := state.disk.proposals ++ [⟨id, owner, none⟩] }
        submitted := state.submitted ++ [(id, owner)] }
  | .boot low high confirmSeeds rounds, none => some (boot world state low high confirmSeeds rounds)
  | event, some process => act world task event state process
  | _, none => none

/-- A session before its first run. -/
def fresh : State Content Tunables := ⟨⟨none, fun _ => none, []⟩, none, [], [], []⟩

abbrev run (world : World Content Tunables) (task : String) :
    State Content Tunables → List (Event Content Tunables) → Option (State Content Tunables) :=
  Schedule.run (step world task)

/-! ## What a step can do -/

def Event.saves : Event Content Tunables → Bool
  | .leave | .measureFails | .refuse | .cancel | .term => true
  | _ => false

def Event.crashes : Event Content Tunables → Bool
  | .crash => true
  | _ => false

inductive Begins (world : World Content Tunables) (state : State Content Tunables)
    (process : Process Tunables) : State Content Tunables → Prop
  | kept {base : Suite} (cached : process.base = some base) :
      Begins world state process
        (state.set { process.starting state.disk with before := base })
  | measured {copy : Content} (uncached : process.base = none)
      (card : state.disk.card world process.doc.incumbent.workspace = some copy) :
      Begins world state process (state.set { process.starting state.disk with
        before := world.suite (seedRange process.doc.low process.doc.high) copy
          process.doc.incumbent.tunables
        confirmed := false })
  | missing : Begins world state process (state.leave process.doc)

theorem begins (world : World Content Tunables) (state : State Content Tunables)
    (process : Process Tunables) : Begins world state process (beginRound world state process) := by
  rw [beginRound]
  split
  · rename_i cached
    exact .kept cached
  · rename_i uncached card
    exact .measured uncached card
  · exact .missing

inductive Moves (world : World Content Tunables) (task : String)
    (state : State Content Tunables) : Event Content Tunables → State Content Tunables → Prop
  | submit (id owner : String) (new : id ∉ state.submitted.map Prod.fst) :
      Moves world task state (.submit id owner) { state with
        disk := { state.disk with proposals := state.disk.proposals ++ [⟨id, owner, none⟩] }
        submitted := state.submitted ++ [(id, owner)] }
  | boot (low high : Int) (confirmSeeds rounds : Nat) (down : state.process = none) :
      Moves world task state (.boot low high confirmSeeds rounds)
        (boot world state low high confirmSeeds rounds)
  | saved {event : Event Content Tunables} {process : Process Tunables}
      (up : state.process = some process) (saves : event.saves = true) :
      Moves world task state event (state.leave process.doc)
  | begin {process : Process Tunables} {next : State Content Tunables}
      (up : state.process = some process) (at_ : process.stage = .head)
      (begun : Begins world state process next) : Moves world task state .begin next
  | clearing {process : Process Tunables} {source : Option Dir} (left : Option Content)
      (up : state.process = some process) (at_ : process.stage = .creating source) :
      Moves world task state (.touch left)
        { state with disk := state.disk.put (.work process.round) left }
  | created {process : Process Tunables} {source : Option Dir} (copy : Content)
      (up : state.process = some process) (at_ : process.stage = .creating source) :
      Moves world task state .create { state with
        disk := state.disk.put (.work process.round) (some copy)
        process := some { process with stage := .taking } }
  | uncreated {process : Process Tunables} {source : Option Dir}
      (up : state.process = some process) (at_ : process.stage = .creating source) :
      Moves world task state .create
        { state with disk := state.disk.put (.work process.round) none, process := none }
  | untaken {process : Process Tunables} (up : state.process = some process)
      (at_ : process.stage = .taking) (none_ : oldest task state.disk.proposals = none) :
      Moves world task state .take (state.set { process with stage := .opening })
  | taken {process : Process Tunables} {proposal : Proposal} (up : state.process = some process)
      (at_ : process.stage = .taking) (found : oldest task state.disk.proposals = some proposal) :
      Moves world task state .take { state with
        disk := { state.disk with
          proposals := stamp proposal.id process.round state.disk.proposals }
        taken := state.taken ++ [proposal.id]
        process := some { process with proposal := some proposal.id, stage := .opening } }
  | opened {process : Process Tunables} (up : state.process = some process)
      (at_ : process.stage = .opening) :
      Moves world task state .openEndpoint (state.set { process with
        dev := seedRange process.doc.low process.doc.high, stage := .working })
  | edited {process : Process Tunables} (copy : Option Content) (tunables : Tunables)
      (up : state.process = some process) (at_ : process.stage = .working) :
      Moves world task state (.edit copy tunables) { state with
        disk := state.disk.put (.work process.round) copy
        process := some { process with tunables } }
  | nothing {process : Process Tunables} (fails confirmFails : Bool)
      (up : state.process = some process) (at_ : process.stage = .working) :
      Moves world task state (.evaluate fails confirmFails) state
  | receipt {event : Event Content Tunables} {process : Process Tunables}
      (up : state.process = some process) (at_ : process.stage = .working) :
      Moves world task state event (state.set process.receipt)
  | evaluated {process : Process Tunables} {copy : Content} (confirmFails : Bool)
      (up : state.process = some process) (at_ : process.stage = .working)
      (here : state.disk.tree (.work process.round) = some copy)
      (nonempty : process.doc.low ≤ process.doc.high) :
      Moves world task state (.evaluate false confirmFails)
        (evaluateState world state process copy confirmFails)
  | copying {process : Process Tunables} {after : Suite} {confirmed : Bool} (left : Option Content)
      (up : state.process = some process) (at_ : process.stage = .snapping after confirmed) :
      Moves world task state (.touch left)
        { state with disk := state.disk.put process.snapDir left }
  | committed {process : Process Tunables} {after : Suite} {confirmed : Bool} {copy : Content}
      (up : state.process = some process) (at_ : process.stage = .snapping after confirmed)
      (here : state.disk.tree (.work process.round) = some copy) :
      Moves world task state .commit (commitState state process copy after confirmed)
  | parked {process : Process Tunables} (keep : Bool) (up : state.process = some process)
      (at_ : process.stage = .working) :
      Moves world task state (.finish keep) (state.set (process.park keep))
  | unrowed {process : Process Tunables} (up : state.process = some process)
      (at_ : process.stage = .finished) (empty : process.doc.high < process.doc.low) :
      Moves world task state .append state.die
  | appended {process : Process Tunables} (up : state.process = some process)
      (at_ : process.stage = .finished) :
      Moves world task state .append (state.set process.append)
  | advanced {process : Process Tunables} (up : state.process = some process)
      (at_ : process.stage = .appended) :
      Moves world task state .advance (state.set process.advance)
  | trimmed {process : Process Tunables} (dir : Dir) (left : Option Content)
      (up : state.process = some process) (at_ : process.stage = .advanced)
      (dropped : process.doc.keeps dir = false) :
      Moves world task state (.trim dir left) { state with disk := state.disk.put dir left }
  | closed {process : Process Tunables} (error : Bool) (up : state.process = some process)
      (at_ : process.stage = .advanced) :
      Moves world task state (.close error) (closeRound state process error)
  | crash {process : Process Tunables} (up : state.process = some process) :
      Moves world task state .crash state.die

section Inversion

variable {world : World Content Tunables} {task : String} {state next : State Content Tunables}
  {process : Process Tunables}

theorem moves_create {source : Option Dir} (up : state.process = some process)
    (at_ : process.stage = .creating source) :
    Moves world task state .create (createCopy world state process source) := by
  rw [createCopy]
  split
  · exact .created _ up at_
  · exact .uncreated up at_

theorem moves_take (up : state.process = some process) (at_ : process.stage = .taking) :
    Moves world task state .take (takeProposal task state process) := by
  rw [takeProposal]
  split
  · rename_i none_
    exact .untaken up at_ none_
  · rename_i found
    exact .taken up at_ found

theorem moves_evaluate {fails confirmFails : Bool} (up : state.process = some process)
    (at_ : process.stage = .working) :
    Moves world task state (.evaluate fails confirmFails)
      (evaluate world state process fails confirmFails) := by
  rw [evaluate]
  split
  · rename_i copy here
    split_ifs with empty failed
    · exact .nothing fails confirmFails up at_
    · exact .receipt up at_
    · rw [Bool.not_eq_true] at failed
      rw [failed]
      exact .evaluated confirmFails up at_ here (not_lt.mp empty)
  · exact .nothing fails confirmFails up at_

theorem moves_append (up : state.process = some process) (at_ : process.stage = .finished)
    (acted : (if process.doc.high < process.doc.low then some state.die
      else some (state.set process.append)) = some next) :
    Moves world task state .append next := by
  split_ifs at acted with empty
  · cases acted
    exact .unrowed up at_ empty
  · cases acted
    exact .appended up at_

theorem moves_of_act {event : Event Content Tunables} (up : state.process = some process)
    (acted : act world task event state process = some next) :
    Moves world task state event next := by
  unfold act at acted
  split at acted
  case h_1 =>
    cases acted
    exact .saved up rfl
  case h_2 at_ =>
    rcases Option.ite_none_right_eq_some.mp acted with ⟨_, same⟩
    cases same
    exact .begin up at_ (begins world state process)
  case h_3 =>
    rcases Option.ite_none_right_eq_some.mp acted with ⟨_, same⟩
    cases same
    exact .saved up rfl
  case h_4 left source at_ =>
    cases acted
    exact .clearing left up at_
  case h_5 source at_ =>
    cases acted
    exact moves_create up at_
  case h_6 at_ =>
    cases acted
    exact moves_take up at_
  case h_7 =>
    cases acted
    exact .saved up rfl
  case h_8 at_ =>
    cases acted
    exact .opened up at_
  case h_9 copy tunables at_ =>
    cases acted
    exact .edited copy tunables up at_
  case h_10 at_ =>
    cases acted
    exact moves_evaluate up at_
  case h_11 left after confirmed at_ =>
    cases acted
    exact .copying left up at_
  case h_12 after confirmed at_ =>
    rcases Option.map_eq_some_iff.mp acted with ⟨copy, here, same⟩
    cases same
    exact .committed up at_ here
  case h_13 at_ =>
    cases acted
    exact .receipt up at_
  case h_14 =>
    cases acted
    exact .saved up rfl
  case h_15 keep at_ =>
    cases acted
    exact .parked keep up at_
  case h_16 at_ => exact moves_append up at_ acted
  case h_17 at_ =>
    cases acted
    exact .advanced up at_
  case h_18 dir left at_ =>
    rcases Option.ite_none_right_eq_some.mp acted with ⟨old, same⟩
    cases same
    exact .trimmed dir left up at_ old.1
  case h_19 error at_ =>
    cases acted
    exact .closed error up at_
  case h_20 =>
    cases acted
    exact .saved up rfl
  case h_21 =>
    cases acted
    exact .crash up
  case h_22 => cases acted

theorem moves_of_step {event : Event Content Tunables}
    (stepped : step world task event state = some next) : Moves world task state event next := by
  unfold step at stepped
  split at stepped
  case h_1 id owner =>
    rcases Option.ite_none_left_eq_some.mp stepped with ⟨new, same⟩
    cases same
    exact .submit id owner new
  case h_2 low high confirmSeeds rounds down =>
    cases stepped
    exact .boot low high confirmSeeds rounds down
  case h_3 up => exact moves_of_act up stepped
  case h_4 => cases stepped

end Inversion

/-- A copy finishes the seeds below its number. -/
def countWorld : World Nat Unit where
  stock := 0
  noTunables := ()
  measure copy _ seed := ⟨[], decide (seed < copy)⟩

/-- The state of a session in it. -/
def stateAfter (events : List (Event Nat Unit)) : State Nat Unit :=
  (run countWorld "stack" fresh events).getD fresh

end Evolve
end PhysicalHarness
