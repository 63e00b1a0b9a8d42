import PhysicalHarness.Python.Decimal
import PhysicalHarness.Python.JsonCodec
import PhysicalHarness.Runtime.Intake

namespace PhysicalHarness
namespace Runtime

open Python JsonText

/-!
# One brief

A claimed brief is read, checked, run and filed.  Its bytes come from whoever dropped the
file, and its handler may do anything; what the runtime does with both is followed here to
the directory in which the brief ends and to the rows that it seals on the way.
-/

/-- The texts on which `json.loads` gives up: values that are nested too deeply, integers
with too many digits. -/
class Limits where
  exceeds : String → Bool

inductive Reading where
  | json (value : Json)
  /-- `JSONDecodeError` or `UnicodeDecodeError`. -/
  | malformed
  /-- `RecursionError`, or the `ValueError` of a long integer. -/
  | raised

section

variable [FloatText] [Limits]

/-- `json.loads(path.read_text())`. -/
def readJson (content : ByteArray) : Reading :=
  match String.fromUTF8? content with
  | none => .malformed
  | some text =>
      if Limits.exceeds text then .raised
      else
        match loads text.toList with
        | none => .malformed
        | some value => .json value

/-- `Path.stem`. -/
def stem (name : String) : String :=
  let suffix := name.toList.reverse.takeWhile (fun char => decide (char ≠ '.'))
  let front := name.toList.reverse.dropWhile (fun char => decide (char ≠ '.'))
  if 1 < front.length ∧ suffix ≠ [] then String.ofList front.tail.reverse else name

/-- The entries of a directory with their contents. -/
abbrev Files := List (String × ByteArray)

/-- `glob("*.json")`. -/
def globJson (files : Files) : Files := files.filter (fun file => isJson file.1)

/-- `_skills_manifest`. -/
def skillsManifest (files : Files) : List String := sorted ((globJson files).map (fun file => stem file.1))

def Reading.isJson : Reading → Bool
  | .json _ => true
  | _ => false

/-- `InMemorySkillGraph(root)` reads every record; any that is not JSON raises. -/
def mounts (files : Files) : Bool := (globJson files).all (fun file => (readJson file.2).isJson)

inductive Mode where
  | execution
  | evolution
  deriving DecidableEq, Repr

def Mode.text : Mode → String
  | .execution => "execution"
  | .evolution => "evolution"

structure Session where
  mode : Mode
  manifest : List String
  skills : Files

/-- How a handler ends: it returns and tells whether it was stopped, raises an `Exception`
with its `repr`, or is ended by the operator (`SystemExit`, `KeyboardInterrupt`). -/
inductive Ended where
  | returned (stopped : Bool)
  | raised (error : String)
  | interrupted
  deriving DecidableEq

/-- What a handler did: whether it dispatched a node, and how it ended. -/
structure Ran where
  dispatched : Bool
  ended : Ended

/-- All that one call meets. -/
structure Behaviour where
  /-- Another process claimed the file. -/
  vanished : Bool
  /-- The cancel marker is there after the claim, and after the handler raised. -/
  cancelledQueued : Bool
  cancelledRunning : Bool
  /-- What a task or mission raises before it mounts the skills, and what the mount raises. -/
  prepare : Option String
  mountError : String
  run : Ran
  /-- The `repr` of the `OSError` with which a rename into the directory fails. -/
  refuses : Place → Option String

/-! ## The checks of a brief -/

variable [Host]

/-- `repr(ValueError(text))`. -/
def valueError (text : String) : String := "ValueError(" ++ Host.repr (.str text) ++ ")"

/-- `_BRIEF_KEYS`, whose default is empty. -/
def briefKeys : String → List String
  | "task" => ["kind", "task", "instruction", "seed", "max_replans", "max_actuations", "arm", "media"]
  | "campaign" => ["kind", "campaign", "dev", "heldout"]
  | "suite" => ["kind", "suite", "arm", "seeds", "max_replans", "max_actuations"]
  | "rsi" => ["kind", "task", "node", "cal", "dev", "heldout", "workers", "floor"]
  | "mission" => ["kind", "mission", "seed", "arm", "max_replans", "max_actuations"]
  | "evolve" => ["kind", "task", "seeds", "rounds", "continuous", "arm", "max_replans",
      "max_actuations", "proposer", "confirm_seeds", "max_steps", "max_probes", "max_evals",
      "max_output_tokens", "llm_model", "llm_effort"]
  | _ => []

/-- `_MAX_INSTRUCTION_CHARS`. -/
def maxInstructionChars : Nat := 4000

def isInstruction : Json → Bool
  | .str text => !(strip text.toList).isEmpty && decide (text.length ≤ maxInstructionChars)
  | _ => false

/-- The kind of a brief, `"task"` unless it names one. -/
def kindOf (brief : Json) : Json := brief.getD "kind" (.str "task")

/-- `repr` of what the lookup of an unhashable kind raises. -/
def unhashable : Json → String
  | .arr _ => "TypeError(\"unhashable type: 'list'\")"
  | _ => "TypeError(\"unhashable type: 'dict'\")"

/-- The checks that need the brief alone; they yield its kind, which has keys only if it is
a string. -/
def checkBrief (brief : Json) : Except String String :=
  if (kindOf brief).hashable = false then .error (unhashable (kindOf brief))
  else
    let kind := (kindOf brief).str?.getD ""
    let unknown := (Assoc.keys brief.fields).filter (fun key => decide (key ∉ briefKeys kind))
    if unknown ≠ [] then .error (valueError ("unknown brief keys " ++ reprNames (sorted unknown)))
    else if kind = "task" ∧ (brief.get? "instruction").any (fun value => !isInstruction value) then
      .error (valueError ("task instruction must be a non-empty string of at most " ++
        toString maxInstructionChars ++ " characters"))
    else if kind = "mission" ∧ !isInstruction (brief.getD "mission" .null) then
      .error (valueError ("mission must be a non-empty string of at most " ++
        toString maxInstructionChars ++ " characters"))
    else .ok kind

def audit (rt : Session) : Option String :=
  let current := skillsManifest rt.skills
  if rt.mode = .execution ∧ ¬((∀ name ∈ current, name ∈ rt.manifest) ∧ ∀ name ∈ rt.manifest, name ∈ current)
  then some (valueError ("skills-root mutated mid-session (execution mode): boot manifest " ++
    reprNames rt.manifest ++ " != " ++ reprNames current))
  else none

/-- `_run_task` and `_run_mission`: the skills are mounted afresh before anything runs. -/
def runMounted (rt : Session) (behaviour : Behaviour) : Ran :=
  match behaviour.prepare with
  | some error => ⟨false, .raised error⟩
  | none => if mounts rt.skills then behaviour.run else ⟨false, .raised behaviour.mountError⟩

def Ended.unstopped : Ended → Ended
  | .returned _ => .returned false
  | ended => ended

/-- The body of the `try` block. -/
def attempt (rt : Session) (behaviour : Behaviour) (brief : Json) : Ran :=
  match checkBrief brief with
  | .error error => ⟨false, .raised error⟩
  | .ok kind =>
      if kind = "task" ∨ kind = "mission" then
        match audit rt with
        | some error => ⟨false, .raised error⟩
        | none => runMounted rt behaviour
      else if kind = "suite" then behaviour.run
      else if kind = "campaign" ∨ kind = "rsi" ∨ kind = "evolve" then
        if rt.mode ≠ .evolution then
          ⟨false, .raised (valueError (kind ++ " briefs are accepted only in evolution mode " ++
            "(session mode is " ++ Host.repr (.str rt.mode.text) ++ ")"))⟩
        else ⟨behaviour.run.dispatched, behaviour.run.ended.unstopped⟩
      else ⟨false, .raised (valueError ("unknown brief kind " ++ Host.repr (kindOf brief)))⟩

/-- What a call leaves: the rows that it sealed, the directory of its last rename, the
directory of the brief, and whether the call raises. -/
structure Outcome where
  rows : List (String × Json)
  target : Option Place
  place : Place
  raises : Bool
  dispatched : Bool

def move (behaviour : Behaviour) (rows : List (String × Json)) (target : Place) (dispatched : Bool) :
    Outcome :=
  match behaviour.refuses target with
  | none => ⟨rows, some target, target, false, dispatched⟩
  | some _ => ⟨rows, some target, .processing, true, dispatched⟩

/-- `first or second`. -/
def orElse (first second : Json) : Json := if first.truthy then first else second

/-- `_seal_cancelled`. -/
def sealCancelled (behaviour : Behaviour) (id : String) (brief : Json) (stage : String)
    (dispatched : Bool) : Outcome :=
  move behaviour [("runtime.task_cancelled", .obj [("brief", .str id),
    ("task", orElse (brief.getD "task" .null) (brief.getD "campaign" .null)), ("stage", .str stage)])]
    .cancelled dispatched

def taskError (id : String) (brief : Json) (error : String) : String × Json :=
  ("runtime.task_error", .obj [("brief", .str id), ("task", brief.getD "task" .null),
    ("error", .str error)])

def conclude (behaviour : Behaviour) (id : String) (brief : Json) (ran : Ran) : Outcome :=
  match ran.ended with
  | .raised error =>
      if behaviour.cancelledRunning then sealCancelled behaviour id brief "running" ran.dispatched
      else move behaviour [taskError id brief error] .failed ran.dispatched
  | .interrupted =>
      { sealCancelled behaviour id brief "runtime_stopped" ran.dispatched with raises := true }
  | .returned true => sealCancelled behaviour id brief "running" ran.dispatched
  | .returned false =>
      match behaviour.refuses .done with
      | none => ⟨[], some .done, .done, false, ran.dispatched⟩
      | some error => ⟨[taskError id brief ("done-rename failed: " ++ error)], some .done, .processing,
          false, ran.dispatched⟩

def processClaimed (rt : Session) (behaviour : Behaviour) (id : String) (content : ByteArray) : Outcome :=
  match readJson content with
  | .raised => ⟨[], none, .processing, true, false⟩
  | .malformed => move behaviour [] .failed false
  | .json brief =>
      -- `brief.get` is an attribute of objects alone, and nothing catches here.
      if brief.isMapping = false then ⟨[], none, .processing, true, false⟩
      else if behaviour.cancelledQueued then sealCancelled behaviour id brief "queued" false
      else conclude behaviour id brief (attempt rt behaviour brief)

/-- `_process`; `none` where the claim comes too late. -/
def process (rt : Session) (behaviour : Behaviour) (id : String) (content : ByteArray) : Option Outcome :=
  if behaviour.vanished then none else some (processClaimed rt behaviour id content)

/-! ## What a call leaves behind -/

def Outcome.seals (outcome : Outcome) (kind : String) : Prop := ∃ row ∈ outcome.rows, row.1 = kind

/-- The call returns, the brief is filed unless its last rename failed, and the ending is
sealed as an error or as a cancellation, not as both. -/
structure Survives (behaviour : Behaviour) (outcome : Outcome) : Prop where
  returns : outcome.raises = false
  filed : (∃ ending : Ending, outcome.place = ending.place) ∨
    (outcome.place = .processing ∧ ∃ target, outcome.target = some target ∧
      behaviour.refuses target ≠ none)
  once : ¬(outcome.seals "runtime.task_error" ∧ outcome.seals "runtime.task_cancelled")

section

omit [FloatText] [Limits] [Host]

variable {behaviour : Behaviour}

end

/-- A behaviour under which a brief fails, or is cancelled before it starts. -/
def failing (queued : Bool) (refuses : Place → Option String) : Behaviour :=
  ⟨false, queued, false, some "", "", ⟨false, .raised ""⟩, refuses⟩

end

section

local instance briefFloats : FloatText := exactDecimals

local instance briefHost : Host := asciiHost

local instance briefLimits : Limits := ⟨fun _ => false⟩

end

end Runtime
end PhysicalHarness
