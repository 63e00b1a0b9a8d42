import Mathlib.Data.List.Chain
import PhysicalHarness.Python.Decimal
import PhysicalHarness.Rsi.Probe

namespace PhysicalHarness
namespace Rsi

open Python Harness JsonText Fallible

/-!
# Every stage is accounted for once

The overlay scores the stages in order: as many as the clock has passed after a step of
the policy, the rest of them when the loop has ended, then the one that was in progress.
An entry is entered where the one before it was scored, so that whatever the clock does,
no stage is scored twice and none is left out.
-/

/-- An entry that was reached follows one that was scored at the step it was entered at. -/
def Follows (before after : StageResult) : Prop :=
  after.reached = true → before.reached = true ∧ ∃ entered scored,
    before.enteredStep = some entered ∧ before.exitedStep = some scored ∧ entered ≤ scored ∧
      after.enteredStep = some scored

/-- What the list of stages says of a chain of stages. -/
structure Accounted (stages : List StageSpec) (results : List StageResult) : Prop where
  /-- One entry for each stage, in order. -/
  names : results.map StageResult.name = stages.map StageSpec.name
  first : ∀ result ∈ results.head?, result.reached = true → result.enteredStep = some 0
  chain : results.IsChain Follows
  reached : ∃ here rest, results = here ++ rest ∧ (∀ result ∈ here, result.reached = true) ∧
    ∀ result ∈ rest, result.reached = false
  unreached : ∀ result ∈ results, result.reached = false → result.success = false

/-- Entries that were all scored, the next one entered at a step. -/
structure Scored (results : List StageResult) (entered : Nat) : Prop where
  reached : ∀ result ∈ results, result.reached = true
  chain : results.IsChain Follows
  first : ∀ result ∈ results.head?, result.enteredStep = some 0
  last : (results = [] ∧ entered = 0) ∨ ∃ result before, results.getLast? = some result ∧
    result.enteredStep = some before ∧ result.exitedStep = some entered ∧ before ≤ entered

theorem scored_nil : Scored [] 0 where
  reached := List.forall_mem_nil _
  chain := .nil
  first := nofun
  last := Or.inl ⟨rfl, rfl⟩

section

variable {results : List StageResult} {entered : Nat}

variable {result : StageResult}

theorem Scored.follows (scored : Scored results entered)
    (enters : result.enteredStep = some entered) :
    ∀ before ∈ results.getLast?, Follows before result := by
  intro before mem _
  have last : results.getLast? = some before := mem
  rcases scored.last with ⟨empty, _⟩ | ⟨other, step, found, entered_, exited, ordered⟩
  · rw [empty] at last
    cases last
  · rw [last] at found
    cases found
    exact ⟨scored.reached before (List.mem_of_getLast? last), step, entered, entered_, exited, ordered,
      enters⟩

theorem Scored.chain_snoc (scored : Scored results entered)
    (enters : result.enteredStep = some entered) : (results ++ [result]).IsChain Follows := by
  rw [List.isChain_append]
  refine ⟨scored.chain, .singleton _, fun before mem after head => ?_⟩
  have same : after = result := (Option.some.inj head).symm
  rw [same]
  exact scored.follows enters before mem

theorem Scored.first_snoc (scored : Scored results entered)
    (enters : result.enteredStep = some entered) :
    ∀ head ∈ (results ++ [result]).head?, head.enteredStep = some 0 := by
  intro head mem
  cases results with
  | nil =>
      have zero : entered = 0 := by
        rcases scored.last with ⟨_, zero⟩ | ⟨_, _, never, _⟩
        · exact zero
        · cases never
      have same : head = result := (Option.some.inj mem).symm
      rw [same, enters, zero]
  | cons other rest => exact scored.first head mem

theorem Scored.close (scored : Scored results entered) {k : Nat} (reached : result.reached = true)
    (enters : result.enteredStep = some entered) (exits : result.exitedStep = some k)
    (past : entered ≤ k) : Scored (results ++ [result]) k where
  reached := by
    intro other mem
    rcases List.mem_append.mp mem with before | here
    · exact scored.reached other before
    · rw [List.mem_singleton.mp here]
      exact reached
  chain := scored.chain_snoc enters
  first := scored.first_snoc enters
  last := Or.inr ⟨result, entered, List.getLast?_concat, enters, exits, past⟩

end

structure Kept (stages : List StageSpec) (k : Nat) (board : Board) : Prop where
  names : board.results.map StageResult.name ++ board.left.map (fun stage => stage.1.name) =
    stages.map StageSpec.name
  scored : Scored board.results board.entered
  past : board.entered ≤ k

theorem names_bounds (sum : Int) (stages : List StageSpec) :
    (bounds sum stages).map (fun stage => stage.1.name) = stages.map StageSpec.name := by
  induction stages generalizing sum with
  | nil => rfl
  | cons stage rest ih =>
      rw [bounds, List.map_cons, List.map_cons, ih]

theorem kept_start (stages : List StageSpec) : Kept stages 0 ⟨bounds 0 stages, 0, 0, []⟩ where
  names := names_bounds 0 stages
  scored := scored_nil
  past := le_refl 0

section

variable {World Obs Action Goal Actor : Type} {registry : Registry}
  {plant : Plant World Obs Action Goal Actor} {spec : EpisodeSpec} {stages : List StageSpec}

theorem scoreStage_eq_ok {obs : Obs} {k entered : Nat} {exited : Option Nat} {stage : StageSpec}
    {result : StageResult}
    (ran : scoreStage registry plant spec obs k entered exited stage = .ok result) :
    result.name = stage.name ∧ result.reached = true ∧ result.enteredStep = some entered ∧
      result.exitedStep = exited := by
  rcases of_bind ran with ⟨view, _, ran⟩
  rcases map_eq_ok.mp ran with ⟨held, _, rfl⟩
  exact ⟨rfl, rfl, rfl, rfl⟩

theorem kept_crossStages {obs : Obs} {k : Nat} {clock : Int} {left : List (StageSpec × Int)}
    {bound : Int} {entered : Nat} {results : List StageResult} {board : Board}
    (kept : Kept stages k ⟨left, bound, entered, results⟩)
    (ran : crossStages registry plant spec obs k clock bound entered results left = .ok board) :
    Kept stages k board := by
  induction left generalizing bound entered results with
  | nil =>
      cases ran
      exact kept
  | cons stage rest ih =>
      rcases stage with ⟨stage, limit⟩
      rw [crossStages] at ran
      split at ran
      · rcases of_bind ran with ⟨result, scores, later⟩
        rcases scoreStage_eq_ok scores with ⟨name, reached, enters, exits⟩
        refine ih ⟨?_, kept.scored.close reached enters exits kept.past, le_refl k⟩ later
        have names := kept.names
        rw [List.map_append, List.append_assoc, List.map_singleton, name]
        exact names
      · cases ran
        exact kept

theorem Kept.later {k next : Nat} {board : Board} (kept : Kept stages k board) (after : k ≤ next) :
    Kept stages next board := ⟨kept.names, kept.scored, kept.past.trans after⟩

theorem accounted_of_reached {here rest : List StageResult}
    (names : (here ++ rest).map StageResult.name = stages.map StageSpec.name)
    (reached : ∀ result ∈ here, result.reached = true) (chain : here.IsChain Follows)
    (first : ∀ result ∈ here.head?, result.enteredStep = some 0)
    (others : ∀ result ∈ rest, result.reached = false ∧ result.success = false) :
    Accounted stages (here ++ rest) where
  names := names
  first := by
    intro result mem entry
    cases here with
    | nil =>
        have unreached := (others result (List.mem_of_mem_head? mem)).1
        rw [entry] at unreached
        cases unreached
    | cons other more => exact first result mem
  chain := by
    have unreached : ∀ before, ∀ after ∈ rest, Follows before after := by
      intro before after mem entry
      rw [(others after mem).1] at entry
      cases entry
    rw [List.isChain_append]
    refine ⟨chain, ?_, fun before _ after head => unreached before after (List.mem_of_mem_head? head)⟩
    rw [List.isChain_iff_getElem]
    intro index inside
    exact unreached _ _ (List.getElem_mem _)
  reached := ⟨here, rest, rfl, reached, fun result mem => (others result mem).1⟩
  unreached := by
    intro result mem entry
    rcases List.mem_append.mp mem with before | after
    · rw [reached result before] at entry
      cases entry
    · exact (others result after).2

theorem unreached_of_mem {left : List (StageSpec × Int)} {result : StageResult}
    (mem : result ∈ left.map unreached) : result.reached = false ∧ result.success = false := by
  rcases List.mem_map.mp mem with ⟨stage, _, rfl⟩
  exact ⟨rfl, rfl⟩

theorem names_unreached (left : List (StageSpec × Int)) :
    (left.map unreached).map StageResult.name = left.map (fun stage => stage.1.name) := by
  rw [List.map_map]
  rfl

theorem accounted_of_settleStages {world : World} {obs : Obs} {k : Nat} {board : Board}
    {settled : Option (List StageResult)} (kept : Kept stages k board)
    (ran : settleStages registry plant spec world obs k (some board) = .ok settled) :
    ∃ results, settled = some results ∧ Accounted stages results := by
  rcases of_bind ran with ⟨crossed, crosses, later⟩
  have done : Kept stages k crossed := kept_crossStages kept crosses
  rcases crossed with ⟨left, bound, entered, results⟩
  have names := done.names
  cases left with
  | nil =>
      cases later
      refine ⟨results, rfl, ?_⟩
      rw [← List.append_nil results]
      exact accounted_of_reached (by simpa using names) done.scored.reached
        done.scored.chain done.scored.first (List.forall_mem_nil _)
  | cons stage rest =>
      simp only [] at later
      split at later
      · -- the stage in progress has an entry that was not closed
        rcases map_eq_ok.mp later with ⟨result, scores, rfl⟩
        rcases scoreStage_eq_ok scores with ⟨name, reached, enters, _⟩
        refine ⟨_, rfl, accounted_of_reached ?_ ?_ (done.scored.chain_snoc enters)
          (done.scored.first_snoc enters) (fun _ mem => unreached_of_mem mem)⟩
        · rw [List.map_append, List.map_append, names_unreached, List.map_singleton, name,
            List.append_assoc]
          exact names
        · intro other mem
          rcases List.mem_append.mp mem with before | here
          · exact done.scored.reached other before
          · rw [List.mem_singleton.mp here]
            exact reached
      · cases later
        refine ⟨_, rfl, accounted_of_reached ?_ done.scored.reached done.scored.chain
          done.scored.first (fun _ mem => unreached_of_mem mem)⟩
        rw [List.map_append, names_unreached]
        exact names

end

section

variable [Sha256] [FloatText] {World Obs Action Goal Actor : Type} {registry : Registry}
  {plant : Plant World Obs Action Goal Actor} {spec : EpisodeSpec} {bundle : Option Bundle}
  {stages : List StageSpec}

def Overlaid (stages : List StageSpec) (drive : Drive World Obs Actor) : Prop :=
  ∃ board, drive.board = some board ∧ Kept stages drive.critic.k board

omit [Sha256] [FloatText] in
theorem board_of_dispatch {drive last : Drive World Obs Actor} {index : Nat}
    (dispatched : dispatch registry plant spec bundle drive index = .ok last) :
    last.board = drive.board := by
  rcases of_bind dispatched with ⟨view, _, later⟩
  split at later
  · cases later
  · simp only [] at later
    split at later
    · cases later
      rfl
    · rcases map_eq_ok.mp later with ⟨started, _, rfl⟩
      rfl

theorem overlaid_of_govern {drive next : Drive World Obs Actor} (kept : Overlaid stages drive)
    (governed : govern registry plant spec bundle drive = .ok next) : Overlaid stages next := by
  rcases kept with ⟨board, found, kept⟩
  have clock : next.critic.k = drive.critic.k + 1 := by
    rcases attend_of_govern governed with ⟨view, _, attended⟩
    exact Critic.k_of_attend attended
  rcases of_bind governed with ⟨view, _, later⟩
  rcases of_bind later with ⟨crossed, steps, later⟩
  rw [lift_eq_ok, found] at steps
  rcases map_eq_ok.mp steps with ⟨crossed, crosses, rfl⟩
  have crossed_ : Kept stages next.critic.k crossed := by
    rw [clock]
    exact kept_crossStages (kept.later (Nat.le_succ _)) crosses
  refine ⟨crossed, ?_, crossed_⟩
  rcases of_bind later with ⟨⟨critic, triggered⟩, _, later⟩
  cases triggered with
  | none =>
      cases later
      rfl
  | some index => exact board_of_dispatch later

theorem overlaid_of_turn {drive : Drive World Obs Actor} {turned : Turn World Obs Actor}
    (kept : Overlaid stages drive)
    (ran : turn registry plant spec bundle drive = .ok turned) : Overlaid stages turned.drive := by
  rcases of_bind ran with ⟨first, handed, later⟩
  rw [lift_eq_ok] at handed
  have first_ : Overlaid stages first := by
    rw [Overlaid, (unattended_of_handBack handed).board, (unattended_of_handBack handed).critic]
    exact kept
  rcases of_bind later with ⟨commanded, commands, later⟩
  rw [lift_eq_ok] at commands
  rcases commanded with _ | ⟨action, owned, second⟩
  · cases later
    exact first_
  · have second_ : Overlaid stages second := by
      rw [Overlaid, (unattended_of_command commands).board, (unattended_of_command commands).critic]
      exact first_
    rcases of_bind later with ⟨⟨obs, ended, world⟩, _, later⟩
    simp only [] at later
    split at later
    · cases later
      exact second_
    · split at later
      · rcases map_eq_ok.mp later with ⟨next, governed, rfl⟩
        have stepped : Overlaid stages ({ second with world, obs, t := second.t + 1 } :
            Drive World Obs Actor) := second_
        exact overlaid_of_govern stepped governed
      · cases later
        exact second_

theorem overlaid_of_driveFor {left : Nat} {drive last : Drive World Obs Actor}
    (kept : Overlaid stages drive)
    (ran : driveFor registry plant spec bundle left drive = .ok last) : Overlaid stages last := by
  induction left generalizing drive with
  | zero =>
      cases ran
      exact kept
  | succ left ih =>
      rcases of_bind ran with ⟨turned, turns, later⟩
      have next := overlaid_of_turn kept turns
      cases turned with
      | stop stopped =>
          cases later
          exact next
      | next following => exact ih next later

/-- A segment with stages returns one entry for each of them. -/
theorem accounted_of_governedSegment {world : World} {obs : Obs} {stepBudget : Int}
    {segment : Segment Obs} (staged : spec.stages = some stages)
    (ran : governedSegment registry plant spec bundle world obs stepBudget = .ok segment) :
    ∃ results, segment.stages = some results ∧ Accounted stages results := by
  rcases of_bind ran with ⟨last, drove, later⟩
  have start : Overlaid stages (Drive.mk world obs (freshCritic bundle) (none : Option Actor) 0
      (spec.stages.map (fun stages => ⟨bounds 0 stages, 0, 0, []⟩))) := by
    rw [staged]
    exact ⟨_, rfl, kept_start stages⟩
  rcases overlaid_of_driveFor start drove with ⟨board, found, kept⟩
  rcases map_eq_ok.mp later with ⟨settled, settles, rfl⟩
  rw [lift_eq_ok, found] at settles
  exact accounted_of_settleStages kept settles

end

section

local instance overlaySha : Sha256 := sha256

local instance overlayFloats : FloatText := exactDecimals

/-- A reach of one step, a grip of two and a lift of one, over the finger gap. -/
def gripStages : List StageSpec :=
  [⟨"reach", [], 1⟩, ⟨"grip", [⟨"observable.finger_gap", .lt, Double.nearest (1 / 2)⟩], 2⟩,
    ⟨"lift", [], 1⟩]

/-- Two steps end in the middle of the grip. -/
theorem accounted_gripStages : ∃ segment results,
    governedSegment featureCatalog (probe (fun _ _ => Double.nearest 1) []) ⟨0, some gripStages⟩ none 0 0
      2 = .ok segment ∧ segment.stages = some results ∧ Accounted gripStages results := by
  have ended : (governedSegment featureCatalog (probe (fun _ _ => Double.nearest 1) [])
      ⟨0, some gripStages⟩ none 0 0 2).toBool = true := by decide +kernel
  rcases returns_of_toBool ended with ⟨segment, ran⟩
  have staged : (EpisodeSpec.mk 0 (some gripStages)).stages = some gripStages := rfl
  rcases accounted_of_governedSegment staged ran with ⟨results, returned, accounted⟩
  exact ⟨segment, results, ran, returned, accounted⟩

end

end Rsi
end PhysicalHarness
