import PhysicalHarness.Python.JsonLine
import PhysicalHarness.Runtime.Decompose

namespace PhysicalHarness
namespace Board
namespace Storecli

open Python JsonText Fallible
open PhysicalHarness.Runtime (Scanner scanned)

/-!
# The resident reader

`serve` reads requests line by line and writes a line for each.  A request has a function and its
arguments, which are converted, dispatched and answered; an answer that is too large is refused.  An
exception becomes an answer, but the refusal is made outside of what is caught, and it repeats the
function that was asked for.
-/

/-- `str` of an exception; a text is shorter than `sys.maxsize` when it is printed. -/
structure Message where
  text : String
  short : text.length < 2 ^ 59

/-- An exception of a board function, as `serve` tells them apart. -/
inductive Failure where
  | keyError
  | other (message : Message)

/-- A value that `json.dumps` prints, in less than `sys.maxsize` characters. -/
structure Answer [FloatText] where
  value : Json
  short : (dumps plain value).length < 2 ^ 63

/-- The calls of board functions, with the paths that `safe_child` finds. -/
inductive BoardCall where
  | submitBrief (brief session : Json)
  | planSkillTask (instruction session : Json) (expand : Bool) (channel : Json) (seed : Int)
  | skillLibrary
  | submitSkillPlan (record session : Json) (seed : Int) (maxReplans maxActuations : Json)
  | briefStatus (path : String) (name : Json) (waitMs : Int)
  | cancelBrief (path : String) (name : Json)
  | proposals (path : String)
  | submitProposal (path : String) (brief : Json)
  | rsiRun (path : String) (name : Json) (round : Int)
  | rsiSeries (path : String) (name : Json)
  | rsiFrames (path : String) (name : Json) (round : Int)
  | rsiModelOptions
  | rsiCampaigns (path : String)
  | listStores
  | cards
  | vault
  | vaultNode (name : Json)
  | vaultNeighbors (name relation : Json)
  | campaignProgress
  | sessions
  | hostVitals
  | health (port : Int)
  | modelServer (action : Json)
  | policyServer (action checkpoint : Json)
  | restartServices (build : Bool)
  | ledger
  | rounds
  | store (path : String)
  | heldout (name : Json)
  | session (path : String)
  | runtimeStatus (path : String)
  | runtimeFrame (path : String) (afterTs : Double) (waitMs : Int)
  | runtimeRollout (path : String)
  | runtimeKeyframes (path : String)
  | runtimeKeyframe (path : String) (seq : Int)
  | runtimeEvents (path : String) (after : Int)
  | sessionProgress (path : String)
  | suiteResult (path : String) (sha : Json)
  | trajectories (path : String)
  | planIndex (path : String)
  | skillEvidence (path : String)
  | skills (path : String)

inductive Kind where
  | isStore
  | isSession

/-- The board, and what the interpreter says of a value that it refuses; the board may answer each
request anew. -/
structure Reader [FloatText] where
  /-- `bs.safe_child`. -/
  safeChild : Nat → Kind → Json → Except Failure (Option String)
  run : Nat → BoardCall → Except Failure Answer
  /-- `str` of what `json.loads` raises. -/
  unread : Json → Message
  /-- `str` of what reading `plan` raises. -/
  noPlan : Json → Message
  /-- `str` of what `int` raises. -/
  noInt : Json → Message
  /-- `str` of what `float` raises. -/
  noFloat : Json → Message

structure Args where
  name : Json
  after : Int
  relation : Json
  afterTs : Double
  waitMs : Int
  brief : Json
  session : Json
  seq : Int
  sha : Json
  round : Int
  checkpoint : Json
  instruction : Json
  channel : Json
  plan : Json
  seed : Int
  expand : Bool
  maxReplans : Json
  maxActuations : Json

/-- `bp.SCRATCH_SEED`. -/
def scratchSeed : Int := 424242

/-- `bp.DEFAULT_SESSION`. -/
def defaultSession : String := "session-robocasa"

/-- `bs._CONSOLE_PORT`. -/
def consolePort : Int := 3080

/-- `value or default`. -/
def orElse (value : Json) (default : String) : Json := if value.truthy then value else .str default

section

variable [Host] [FloatText] (reader : Reader)

/-- `int(req.get(key, default))`. -/
def intField (fields : List (String × Json)) (key : String) (default : Int) : Except Message Int :=
  let value := (Json.obj fields).getD key (.int default)
  (pyInt value).mapError (fun _ => reader.noInt value)

/-- `float(req.get(key, 0.0))`. -/
def floatField (fields : List (String × Json)) (key : String) : Except Message Double :=
  let value := (Json.obj fields).getD key (.float (.fin 0))
  (Governor.pyFloat value).mapError (fun _ => reader.noFloat value)

/-- The arguments of a request; the numbers are converted in their order. -/
def argsOf (fields : List (String × Json)) : Except Message Args := do
  let request := Json.obj fields
  let after ← intField reader fields "after" 0
  let afterTs ← floatField reader fields "after_ts"
  let waitMs ← intField reader fields "wait_ms" 0
  let seq ← intField reader fields "seq" 0
  let round ← intField reader fields "round" 0
  let seed ← intField reader fields "seed" scratchSeed
  return {
    name := request.getD "name" .null
    after
    relation := request.getD "relation" .null
    afterTs
    waitMs
    brief := request.getD "brief" .null
    session := request.getD "session" .null
    seq
    sha := request.getD "sha" .null
    round
    checkpoint := request.getD "checkpoint" .null
    instruction := request.getD "instruction" .null
    channel := request.getD "channel" (.str "auto")
    plan := request.getD "plan" .null
    seed
    expand := (request.getD "expand" (.bool true)).truthy
    maxReplans := request.getD "max_replans" .null
    maxActuations := request.getD "max_actuations" .null }

end

inductive Face where
  | submitBrief | planSkillTask | skillLibrary | submitSkillPlan | briefStatus | cancelBrief
  | submitProposal | proposals | rsiRun | rsiSeries | rsiFrames | rsiModelOptions | rsiCampaigns
  | listStores | cards | vault | vaultNode | vaultNeighbors | campaignProgress | sessions | hostVitals
  | health | modelServer | policyServer | restartServices | ledger | rounds | store | heldout | session
  | runtimeStatus | runtimeFrame | runtimeRollout | runtimeKeyframes | runtimeKeyframe | runtimeEvents
  | sessionProgress | suiteResult | trajectories | planIndex | skillEvidence | skills

/-- The names that `dispatch` compares with, in its order. -/
def faces : List (String × Face) :=
  [("submit_brief", .submitBrief), ("plan_skill_task", .planSkillTask), ("skill_library", .skillLibrary),
    ("submit_skill_plan", .submitSkillPlan), ("brief_status", .briefStatus),
    ("cancel_brief", .cancelBrief), ("submit_proposal", .submitProposal), ("proposals", .proposals),
    ("rsi_run", .rsiRun), ("rsi_series", .rsiSeries), ("rsi_frames", .rsiFrames),
    ("rsi_model_options", .rsiModelOptions), ("rsi_campaigns", .rsiCampaigns),
    ("list_stores", .listStores), ("cards", .cards), ("vault", .vault), ("vault_node", .vaultNode),
    ("vault_neighbors", .vaultNeighbors), ("campaign_progress", .campaignProgress),
    ("sessions", .sessions), ("host_vitals", .hostVitals), ("health", .health),
    ("model_server", .modelServer), ("policy_server", .policyServer),
    ("restart_services", .restartServices), ("ledger", .ledger), ("rounds", .rounds), ("store", .store),
    ("heldout", .heldout), ("session", .session), ("runtime_status", .runtimeStatus),
    ("runtime_frame", .runtimeFrame), ("runtime_rollout", .runtimeRollout),
    ("runtime_keyframes", .runtimeKeyframes), ("runtime_keyframe", .runtimeKeyframe),
    ("runtime_events", .runtimeEvents), ("session_progress", .sessionProgress),
    ("suite_result", .suiteResult), ("trajectories", .trajectories), ("plan_index", .planIndex),
    ("skill_evidence", .skillEvidence), ("skills", .skills)]

def faceOf (fn : Json) : Option Face :=
  (faces.find? (fun entry => fn.eq (.str entry.1))).map Prod.snd

/-- `raise ValueError(text)`. -/
def valueError {α : Type} (text : String) (short : text.length < 2 ^ 59) : Except Failure α :=
  .error (.other ⟨text, short⟩)

section

variable [FloatText] (reader : Reader) (position : Nat)

/-- The path of a session or a store, or the refusal of its name. -/
def located (kind : Kind) (name : Json) : Except Failure String :=
  (reader.safeChild position kind name).bind (fun found =>
    match found, kind with
    | some path, _ => .ok path
    | none, .isSession => valueError "unknown session" (by decide)
    | none, .isStore => valueError "unknown store" (by decide))

/-- A read of the session in the `name` slot. -/
def sessionRead (args : Args) (call : String → BoardCall) : Except Failure Answer := do
  let path ← located reader position .isSession (orElse args.name "session-main")
  reader.run position (call path)

/-- A call that needs the `name` slot, on the session that is addressed. -/
def namedRead (args : Args) (missing : Message) (call : String → BoardCall) : Except Failure Answer := do
  let path ← located reader position .isSession (orElse args.session "session-main")
  if args.name.truthy then reader.run position (call path) else .error (.other missing)

variable [Host] [Scanner]

/-- `json.loads(plan)`. -/
def planOf (plan : Json) : Except Failure Json :=
  match plan with
  | .str text => (scanned text.toList (loads text.toList)).mapError (fun _ => .other (reader.noPlan plan))
  | _ => .error (.other (reader.noPlan plan))

/-- The branches of `dispatch`. -/
def served (args : Args) : Face → Except Failure Answer
  | .submitBrief =>
      if args.brief.isNull then valueError "submit_brief needs --brief" (by decide)
      else reader.run position (.submitBrief args.brief (orElse args.session "session-main"))
  | .planSkillTask =>
      if args.instruction.truthy then
        reader.run position (.planSkillTask args.instruction (orElse args.session defaultSession)
          args.expand args.channel args.seed)
      else valueError "plan_skill_task needs --instruction" (by decide)
  | .skillLibrary => reader.run position .skillLibrary
  | .submitSkillPlan =>
      if args.plan.isNull then
        valueError "submit_skill_plan needs --plan '<composite_plan json>'" (by decide)
      else
        (planOf reader args.plan).bind (fun record =>
          reader.run position (.submitSkillPlan record (orElse args.session defaultSession) args.seed
            args.maxReplans args.maxActuations))
  | .briefStatus =>
      namedRead reader position args
        ⟨"brief_status needs a brief id as the name argument", by decide⟩
        (fun path => .briefStatus path args.name args.waitMs)
  | .cancelBrief =>
      namedRead reader position args
        ⟨"cancel_brief needs a brief id as the name argument", by decide⟩
        (fun path => .cancelBrief path args.name)
  | .submitProposal => do
      let path ← located reader position .isSession (orElse args.session "session-main")
      if args.brief.isNull then
        valueError "submit_proposal needs --brief (the proposal JSON)" (by decide)
      else reader.run position (.submitProposal path args.brief)
  | .proposals => do
      let path ← located reader position .isSession (orElse args.session "session-main")
      reader.run position (.proposals path)
  | .rsiRun =>
      namedRead reader position args ⟨"rsi_run needs a task as the name argument", by decide⟩
        (fun path => .rsiRun path args.name args.round)
  | .rsiSeries =>
      namedRead reader position args ⟨"rsi_series needs a task as the name argument", by decide⟩
        (fun path => .rsiSeries path args.name)
  | .rsiFrames =>
      namedRead reader position args ⟨"rsi_frames needs a task as the name argument", by decide⟩
        (fun path => .rsiFrames path args.name args.round)
  | .rsiModelOptions => reader.run position .rsiModelOptions
  | .rsiCampaigns => do
      let name := if args.name.truthy then args.name else orElse args.session "session-main"
      let path ← located reader position .isSession name
      reader.run position (.rsiCampaigns path)
  | .listStores => reader.run position .listStores
  | .cards => reader.run position .cards
  | .vault => reader.run position .vault
  | .vaultNode => reader.run position (.vaultNode (orElse args.name ""))
  | .vaultNeighbors => reader.run position (.vaultNeighbors (orElse args.name "") args.relation)
  | .campaignProgress => reader.run position .campaignProgress
  | .sessions => reader.run position .sessions
  | .hostVitals => reader.run position .hostVitals
  | .health =>
      if args.name.truthy then
        ((pyInt args.name).mapError (fun _ => Failure.other (reader.noInt args.name))).bind (fun port =>
          reader.run position (.health port))
      else reader.run position (.health consolePort)
  | .modelServer => reader.run position (.modelServer (orElse args.name "status"))
  | .policyServer => reader.run position (.policyServer (orElse args.name "status") args.checkpoint)
  | .restartServices => reader.run position (.restartServices (args.name.eq (.str "build")))
  | .ledger => reader.run position .ledger
  | .rounds => reader.run position .rounds
  | .store => do
      let path ← located reader position .isStore (orElse args.name "")
      reader.run position (.store path)
  | .heldout => do
      let _ ← located reader position .isStore (orElse args.name "")
      reader.run position (.heldout args.name)
  | .session => sessionRead reader position args .session
  | .runtimeStatus => sessionRead reader position args .runtimeStatus
  | .runtimeFrame => sessionRead reader position args (.runtimeFrame · args.afterTs args.waitMs)
  | .runtimeRollout => sessionRead reader position args .runtimeRollout
  | .runtimeKeyframes => sessionRead reader position args .runtimeKeyframes
  | .runtimeKeyframe => sessionRead reader position args (.runtimeKeyframe · args.seq)
  | .runtimeEvents => sessionRead reader position args (.runtimeEvents · args.after)
  | .sessionProgress => sessionRead reader position args .sessionProgress
  | .suiteResult => sessionRead reader position args (.suiteResult · args.sha)
  | .trajectories => sessionRead reader position args .trajectories
  | .planIndex => sessionRead reader position args .planIndex
  | .skillEvidence => sessionRead reader position args .skillEvidence
  | .skills => sessionRead reader position args .skills

def dispatch (fn : Json) (args : Args) : Except Failure Answer :=
  match faceOf fn with
  | some face => served reader position args face
  | none => .error .keyError

/-! ## A line -/

/-- `MAX_RESPONSE_BYTES`. -/
def maxResponseBytes : Nat := 4 * 1024 * 1024

/-- `_NARROW`. -/
def narrow : List (String × String) :=
  [("rsi_run", "--round <n> (one round in full)"), ("rsi_frames", "--round <n>"),
    ("runtime_events", "--after <seq>"), ("runtime_keyframes", "--after <seq>")]

/-- `_NARROW.get(fn)`, of a value with a hash. -/
def narrowOf (fn : Json) : Json :=
  match narrow.find? (fun entry => fn.eq (.str entry.1)) with
  | some entry => .str entry.2
  | none => .null

/-- `{"error": text}`. -/
def errorOf (text : String) : Json := .obj [("error", .str text)]

def tooLarge (fn : Json) (bytes : Nat) : Json :=
  .obj [("error", .str "response too large"), ("fn", fn), ("bytes", .int bytes),
    ("limit", .int maxResponseBytes), ("narrow", narrowOf fn)]

omit [Host] [Scanner] in
/-- `_emit`: the line that is printed. -/
def emit (fn result : Json) : Except PyError String :=
  let body := dumps plain result
  if maxResponseBytes < body.length then
    (hashed fn).map (fun _ => dumps plain (tooLarge fn body.length))
  else .ok body

def request (line : List Char) : Except Message (List (String × Json)) :=
  match scanned line (loads line) with
  | .ok (.obj fields) => .ok fields
  | .ok _ => .error ⟨"request must be a JSON object", by decide⟩
  | .error _ => .error (reader.unread (.str (String.ofList line)))

/-- `req.get("fn", "")`. -/
def fnOf (fields : List (String × Json)) : Json := (Json.obj fields).getD "fn" (.str "")

/-- The answer to a request, an exception included. -/
def answer (fields : List (String × Json)) : Json :=
  match argsOf reader fields with
  | .error message => errorOf message.text
  | .ok args =>
      match dispatch reader position (fnOf fields) args with
      | .ok found => found.value
      | .error .keyError => errorOf ("unknown fn: " ++ pyStr (fnOf fields))
      | .error (.other message) => errorOf message.text

/-- What is printed for a line, or the exception that ends the loop. -/
def respond (line : List Char) : Except PyError String :=
  match request reader line with
  | .error message => emit (.str "") (errorOf message.text)
  | .ok fields => emit (fnOf fields) (answer reader position fields)

/-- The lines that are written, and how the loop ends. -/
structure Served where
  written : List String
  ended : Except PyError Unit

end

end Storecli
end Board
end PhysicalHarness
