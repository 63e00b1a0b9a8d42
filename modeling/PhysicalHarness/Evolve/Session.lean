import PhysicalHarness.Evolve.Suite
import PhysicalHarness.Lib.Merge
import PhysicalHarness.Python.JsonOrder

namespace PhysicalHarness
namespace Evolve
namespace Session

open Python JsonText

/-!
# One round of the agent

A round works on a copy of the card and on a document of tunables.  The agent edits the one
and sets knobs in the other, runs single seeds, replays them from a saved point, goes back
to an earlier copy, and has its state measured against the incumbent on every seed.  What the
model says, and what the simulator and the tools make of it, comes with each action.
-/

/-! ## Knobs -/

/-- The card that hosts the policy, with the parameters that its manifest mounts it with. -/
structure Card where
  pkg : String
  ref : String
  params : List (String × Json)
  distinct : Distinct (.obj params)
  apart : pkg ≠ ref

/-- The document of tunables: nothing, or a table under the package of the card. -/
abbrev Tuning := Option (Dict String Json)

/-- `OVERRIDE_ENV`. -/
def document (card : Card) : Tuning → Json
  | none => .obj []
  | some table => .obj [(card.pkg, .obj [("tunables", .obj table.entries)])]

/-- `tunables.setdefault(pkg, {}).setdefault("tunables", {})[name] = value`. -/
def setKnob (tuning : Tuning) (name : String) (value : Json) : Tuning :=
  some ((tuning.getD Dict.empty).set name value)

/-- A table goes into the table that is there; anything else takes the place. -/
def overlaid (old : Option Json) (value : Json) : Json :=
  match value, old with
  | .obj new, some (.obj table) => .obj (Assoc.merge table new)
  | value, _ => value

/-- `mount_params` of the policy under a document. -/
def mountParams (card : Card) (override : Json) : List (String × Json) :=
  (Assoc.merge (override.getD card.pkg (.obj [])).fields
      (override.getD card.ref (.obj [])).fields).foldl
    (fun params entry => Assoc.set params entry.1 (overlaid (Assoc.get? params entry.1) entry.2))
    card.params

def isNumber : Json → Bool
  | .int _ => true
  | .float _ => true
  | _ => false

/-- The tunables, or the parameters where there is no table of tunables. -/
def tabled (params : List (String × Json)) : List (String × Json) :=
  match Assoc.get? params "tunables" with
  | some (.obj table) => table
  | _ => params

def knobsOf (params : List (String × Json)) : List (String × Json) :=
  (tabled params).filter (fun entry => isNumber entry.2)

/-- The knobs that the next run would have under the tunables. -/
def effective (card : Card) (tuning : Tuning) : List (String × Json) :=
  knobsOf (mountParams card (document card tuning))

/-- `==` of two dicts. -/
def sameKnobs (knobs other : List (String × Json)) : Bool := (Json.obj knobs).eq (.obj other)

/-- What the round asks of the copies. -/
class Codebase (Content : Type) where
  digest : Content → String
  /-- some file differs in more than comments and white space -/
  changedCode : Content → Content → Bool
  /-- some line differs -/
  changed : Content → Content → Bool
  protectedOk : Content → Bool

abbrev Identity := String × String

/-- A row of a probe: `replayed` are the nodes that were copied from an earlier run, `suspect`
says that the row is a replay artifact. -/
structure ProbeRow extends Row where
  replayed : List String
  suspect : Bool

/-- A probe; `row` and `against` are what it reported and the baseline that it was compared
with, which the code does not keep. -/
structure Probe where
  seed : Int
  identity : Identity
  source : Option String
  gains : List (Int × String)
  suspect : Bool
  row : Option ProbeRow
  against : Suite

structure Setup where
  card : Card
  /-- the directory of the installed card -/
  stock : String
  /-- the directory of the snapshot of an evaluation -/
  snapshot : Nat → String
  maxSteps : Nat
  maxProbes : Nat
  maxEvals : Nat
  confirmSeeds : Nat

/-- The variables of the round, of the agent and of the campaign. -/
structure State (Content : Type) where
  copy : Content
  tree : String → Content
  parent : String
  tuning : Tuning
  knobs : List (String × Json)
  knobsFrom : List (String × Json)
  /-- the incumbent's directory and tunables -/
  incumbent : String × Tuning
  points : List (String × String)
  low : Int
  high : Int
  baseline : Suite
  probes : List Probe
  ran : List (Int × Identity × Option String)
  lastEval : Option Identity
  evals : Nat

variable {Content : Type}

/-- The start of a round, on the parked copy or on the incumbent's. -/
def start (setup : Setup) (tree : String → Content) (incumbent : String × Tuning)
    (parked : Option (String × Tuning)) (rounds : List (String × String)) (low high : Int)
    (baseline : Suite) : State Content :=
  let source := parked.getD incumbent
  { copy := tree source.1
    tree
    parent := incumbent.1
    tuning := source.2
    knobs := effective setup.card source.2
    knobsFrom := effective setup.card source.2
    incumbent
    points := ("stock", setup.stock) :: ("incumbent", incumbent.1) :: rounds
    low
    high
    baseline
    probes := []
    ran := []
    lastEval := none
    evals := 0 }

/-- `dev`. -/
def State.dev (state : State Content) : List Int := seedRange state.low state.high

/-! ## Actions -/

/-- What the paired suite comes to: it is stopped, it fails, or it has rows; a confirmation that
is asked for is stopped or has a verdict. -/
inductive Measured where
  | stopped
  | failed
  | rows (row : Int → Row) (confirmed : Option Bool)

/-- An action, with what the tools and the simulator make of it. -/
inductive Action (Content : Type) where
  | diagnose (hypothesis : Bool)
  | finish (keep : Bool)
  | giveUp
  | evaluate (measured : Measured)
  | edit (result : Option Content)
  | write (result : Option Content)
  | tunable (name value : Json)
  | note (noted : Bool)
  | branch (source : String)
  /-- a seed that is no integer is `none`; `pointed` tells whether the replay points are there -/
  | run (seeds : List (Option Int)) (source : Option String) (pointed : Bool)
      (result : Option (Int → ProbeRow))
  /-- reading, searching, tracing, and what is not known -/
  | other (known : Bool)

/-- Why a state is not evaluated. -/
inductive Refused where
  | exhausted
  | repeated
  | unchanged
  | frozen
  | unproven
  deriving DecidableEq, Repr

section

variable [Codebase Content] [FloatText] (setup : Setup) (state : State Content)

/-- `state_identity`. -/
def identity : Identity :=
  (Codebase.digest state.copy, dumps plain (sortKeys (document setup.card state.tuning)))

/-- `unproven`: no probe of this state gained. -/
def unproven : Bool :=
  !state.probes.any (fun probe => decide (probe.identity = identity setup state) && !probe.gains.isEmpty)

/-- The code is the parent's, and the knobs are where they came from. -/
def untouched : Bool :=
  !Codebase.changedCode (state.tree state.parent) state.copy && sameKnobs state.knobs state.knobsFrom

/-- The checks of `_evaluate` in their order. -/
def refuses : Option Refused :=
  if setup.maxEvals ≤ state.evals then some .exhausted
  else if state.lastEval = some (identity setup state) then some .repeated
  else if untouched state then some .unchanged
  else if !Codebase.protectedOk state.copy then some .frozen
  else if unproven setup state then some .unproven
  else none

/-- What a state must be for the round to measure it once more at its end. -/
def closes : Bool :=
  decide (state.lastEval ≠ some (identity setup state)) && !untouched state &&
    Codebase.protectedOk state.copy && !unproven setup state

def suiteOf (seeds : List Int) (row : Int → Row) : Suite := seeds.map (fun seed => (seed, row seed))

def asksFresh (after : Suite) : Bool :=
  (compare state.baseline after).accepted && decide (state.baseline.count < after.count) &&
    decide (0 < setup.confirmSeeds)

/-- An accepted state is the incumbent at once. -/
def accept (k : Nat) (after : Suite) : State Content :=
  { state with
    tree := fun dir => if dir = setup.snapshot k then state.copy else state.tree dir
    incumbent := (setup.snapshot k, state.tuning)
    parent := setup.snapshot k
    baseline := after
    knobsFrom := state.knobs
    ran := [] }

/-- What `evaluate_state` makes of the measurement, and whether it returns. -/
def judged (k : Nat) : Measured → State Content × Bool
  | .stopped => (state, false)
  | .failed => (state, true)
  | .rows row confirmed =>
      let after := suiteOf state.dev row
      if asksFresh setup state after then
        match confirmed with
        | none => (state, false)
        | some verdict =>
            let widened := { state with high := state.high + setup.confirmSeeds }
            (if verdict then accept setup widened k after else widened, true)
      else (if (compare state.baseline after).accepted then accept setup state k after else state, true)

/-- `_evaluate`, and whether it returns. -/
def evaluate (measured : Measured) : State Content × Bool :=
  match refuses setup state with
  | some _ => (state, false)
  | none =>
      judged setup
        { state with evals := state.evals + 1, lastEval := some (identity setup state) }
        (state.evals + 1) measured

/-- `tunable`. -/
def turnKnob (name value : Json) : State Content × Bool :=
  match name.str? with
  | some key =>
      if key ∈ Assoc.keys state.knobs ∧ isNumber value = true then
        ({ state with knobs := Assoc.set state.knobs key value, tuning := setKnob state.tuning key value },
          true)
      else (state, false)
  | none => (state, false)

/-- `branch`. -/
def branchFrom (source : String) : State Content × Bool :=
  match Assoc.get? state.points source with
  | some dir =>
      ({ state with
          copy := state.tree dir, tuning := state.incumbent.2, knobs := state.knobsFrom, ran := [] },
        true)
  | none => (state, false)

def usedRuns (source : Option String) : Nat :=
  state.probes.countP (fun probe => probe.source.isSome == source.isSome)

def runCap (source : Option String) : Nat := if source.isSome then 2 * setup.maxProbes else setup.maxProbes

/-- The probes learn what the suite reports, one after the other; a seed without a row in the suite
or in the baseline ends it. -/
def report (baseline : Suite) (rows : List (Int × ProbeRow)) : List Probe → List Probe × Bool
  | [] => ([], true)
  | probe :: probes =>
      match Assoc.get? rows probe.seed, Assoc.get? baseline probe.seed with
      | some row, some base =>
          let rest := report baseline rows probes
          ({ probe with
              gains := (compare [(probe.seed, base)]
                (rows.map (fun entry => (entry.1, entry.2.toRow)))).gains
              suspect := probe.suspect || row.suspect
              row := some row
              against := baseline } :: rest.1, rest.2)
      | _, _ => (probe :: probes, false)

def newProbe (source : Option String) (seed : Int) : Probe where
  seed := seed
  identity := identity setup state
  source := source
  gains := []
  suspect := false
  row := none
  against := []

def booked (seeds : List Int) (source : Option String) : State Content :=
  { state with
    ran := seeds.foldl (fun ran seed => Assoc.set ran seed (identity setup state, source)) state.ran
    probes := state.probes ++ seeds.map (newProbe setup state source) }

/-- `probes[-n:]`, which is all of them for none. -/
def lastProbes (probes : List Probe) (count : Nat) : List Probe × List Probe :=
  if count = 0 then ([], probes) else probes.splitAt (probes.length - count)

/-- `run`. -/
def runSeeds (seeds : List (Option Int)) (source : Option String) (pointed : Bool)
    (result : Option (Int → ProbeRow)) : State Content × Bool :=
  let wanted := seeds.filterMap id
  if ¬ (∀ seed ∈ seeds, ∃ known ∈ state.dev, seed = some known) then (state, false)
  else if runCap setup source < usedRuns state source + seeds.length then (state, false)
  else if !Codebase.protectedOk state.copy then (state, false)
  else if source.isSome && !pointed then (state, false)
  else if ∃ seed ∈ wanted, Assoc.get? state.ran seed = some (identity setup state, source) then
    (state, false)
  else
    let started := booked setup state wanted source
    match result with
    | none => (started, false)
    | some row =>
        let parts := lastProbes started.probes wanted.length
        let told := report state.baseline (wanted.map (fun seed => (seed, row seed))) parts.2
        ({ started with probes := parts.1 ++ told.1 }, told.2)

/-- One action on the state, and whether it returns. -/
def act : Action Content → State Content × Bool
  | .evaluate measured => evaluate setup state measured
  | .edit (some copy) => ({ state with copy }, true)
  | .write (some copy) => ({ state with copy }, true)
  | .edit none => (state, false)
  | .write none => (state, false)
  | .tunable name value => turnKnob state name value
  | .branch source => branchFrom state source
  | .run seeds source pointed result => runSeeds setup state seeds source pointed result
  | .diagnose hypothesis => (state, hypothesis)
  | .note noted => (state, noted)
  | .other known => (state, known)
  | .finish _ => (state, true)
  | .giveUp => (state, true)

/-- The state after some actions. -/
def after (actions : List (Action Content)) : State Content :=
  actions.foldl (fun state action => (act setup state action).1) state

end

end Session
end Evolve
end PhysicalHarness
