import PhysicalHarness.Rsi.HeldOut

namespace PhysicalHarness
namespace Rsi

open Python

/-!
# The blocks of a beam campaign

A beam campaign grows branches on dev seeds, chooses among them on selection seeds, and scores the
chosen one on held-out seeds.  The specs of the first and the last block are those of `_specs`; the
specs of the selection seeds are built from a list of fields of their own, which leaves out what an
episode is scored on.  The three blocks measure the same claim exactly where the fields left out
are at the defaults of an episode.
-/

/-- `NOMINAL_SCHEDULE`. -/
def nominalSchedule : List (String × Int) := [("above", 25), ("descend", 25), ("close", 12), ("lift", 38)]

/-- `EpisodeSpec`, with the fields that no campaign sets. -/
structure WholeSpec extends RolloutSpec where
  robot : String
  armNoise : Double
  kp : Double
  schedule : List (String × Int)
  graspHeightOffset : Double

namespace RolloutSpec

def whole (spec : RolloutSpec) : WholeSpec where
  toRolloutSpec := spec
  robot := "Panda"
  armNoise := Double.nearest (2 / 100)
  kp := Double.nearest 8
  schedule := nominalSchedule
  graspHeightOffset := Double.nearest 0

end RolloutSpec

def WholeSpec.SameClaim (spec other : WholeSpec) : Prop := { spec with seed := other.seed } = other

/-- `str` of a list of seeds. -/
def seedsText (seeds : List Int) : String :=
  "[" ++ ", ".intercalate (seeds.map toString) ++ "]"

def selectionOverlap (prereg : Preregistration) (selection : List Int) : List Int :=
  selection.dedup.filter (fun seed => decide (seed ∈ prereg.dev) || decide (seed ∈ prereg.heldout))

/-- The spec of a selection seed; what is not named is at its default. -/
def selectionSpec (prereg : Preregistration) (seed : Int) : RolloutSpec where
  seed
  task := prereg.task
  policy := prereg.policy
  perceptNoise := prereg.perceptNoise
  envProvider := prereg.envProvider
  policyProvider := prereg.policyProvider
  perceptProvider := prereg.perceptProvider
  stages := none
  terminalLabel := false
  segmentIsolate := none
  horizon := 900

/-- The specs that a branch is gated on, chosen on and finally scored on. -/
structure BeamBlocks where
  reservoir : List WholeSpec
  selection : List WholeSpec
  held : List WholeSpec

/-- The blocks of `run_beam_campaign`, behind its checks. -/
def beamBlocks (prereg : Preregistration) (selection : List Int) : Except PyError BeamBlocks := do
  if selection = [] then
    throw (.valueError "beam search needs a selection block distinct from dev and held-out")
  let overlap := selectionOverlap prereg selection
  if overlap ≠ [] then
    throw (.valueError ("selection block overlaps dev or held-out: " ++
      seedsText ((overlap.mergeSort (· ≤ ·)).take 5)))
  return {
    reservoir := (specsOf prereg.dev prereg).map RolloutSpec.whole
    selection := (selection.map (selectionSpec prereg)).map RolloutSpec.whole
    held := (specsOf prereg.heldout prereg).map RolloutSpec.whole }

/-- A branch is chosen on the claim that it was gated on and is scored on. -/
def BeamBlocks.Agree (blocks : BeamBlocks) : Prop :=
  ∀ spec ∈ blocks.selection, ∀ other ∈ blocks.reservoir ++ blocks.held, spec.SameClaim other

/-- The fields that the selection specs leave out are at their defaults. -/
def Preregistration.PlainEpisodes (prereg : Preregistration) : Prop :=
  prereg.stages = none ∧ prereg.terminalLabel = false ∧ prereg.segmentIsolate = none ∧
    prereg.horizon = 900

instance (prereg : Preregistration) : Decidable prereg.PlainEpisodes :=
  inferInstanceAs (Decidable (_ ∧ _ ∧ _ ∧ _))

theorem beamBlocks_eq_ok {prereg : Preregistration} {selection : List Int} {blocks : BeamBlocks}
    (built : beamBlocks prereg selection = .ok blocks) :
    selection ≠ [] ∧ blocks.reservoir = (specsOf prereg.dev prereg).map RolloutSpec.whole ∧
      blocks.selection = (selection.map (selectionSpec prereg)).map RolloutSpec.whole ∧
      blocks.held = (specsOf prereg.heldout prereg).map RolloutSpec.whole := by
  rw [beamBlocks] at built
  by_cases empty : selection = []
  · rw [if_pos empty] at built
    cases built
  rw [if_neg empty] at built
  by_cases overlaps : selectionOverlap prereg selection ≠ []
  · simp only [if_pos overlaps] at built
    cases built
  · simp only [if_neg overlaps] at built
    cases built
    exact ⟨empty, rfl, rfl, rfl⟩

def scoredSpec (prereg : Preregistration) (seed : Int) : RolloutSpec where
  seed
  stages := prereg.stages
  task := prereg.task
  policy := prereg.policy
  perceptNoise := prereg.perceptNoise
  terminalLabel := prereg.terminalLabel
  envProvider := prereg.envProvider
  policyProvider := prereg.policyProvider
  perceptProvider := prereg.perceptProvider
  segmentIsolate := prereg.segmentIsolate
  horizon := prereg.horizon

theorem specsOf_eq_map (seeds : List Int) (prereg : Preregistration) :
    specsOf seeds prereg = seeds.map (scoredSpec prereg) := rfl

theorem sameClaim_iff (prereg : Preregistration) (seed other : Int) :
    (selectionSpec prereg seed).whole.SameClaim (scoredSpec prereg other).whole ↔
      prereg.PlainEpisodes := by
  constructor
  · intro same
    exact ⟨congrArg (·.stages) same.symm, congrArg (·.terminalLabel) same.symm,
      congrArg (·.segmentIsolate) same.symm, congrArg (·.horizon) same.symm⟩
  · rintro ⟨stages, label, isolate, horizon⟩
    rw [WholeSpec.SameClaim]
    simp only [RolloutSpec.whole, selectionSpec, scoredSpec, stages, label, isolate, horizon]

/-- The blocks of a campaign agree exactly where its episodes are plain, or where there is nothing
to agree with. -/
theorem blocks_agree_iff (prereg : Preregistration) (selection : List Int) (blocks : BeamBlocks)
    (built : beamBlocks prereg selection = .ok blocks) :
    blocks.Agree ↔ (prereg.dev = [] ∧ prereg.heldout = []) ∨ prereg.PlainEpisodes := by
  rcases beamBlocks_eq_ok built with ⟨some_, reservoir, chosen, held⟩
  have scored : blocks.reservoir ++ blocks.held =
      ((prereg.dev ++ prereg.heldout).map (scoredSpec prereg)).map RolloutSpec.whole := by
    rw [reservoir, held, specsOf_eq_map, specsOf_eq_map, ← List.map_append, ← List.map_append]
  rw [BeamBlocks.Agree, chosen, scored, List.map_map, List.map_map]
  constructor
  · intro agree
    rcases List.exists_mem_of_ne_nil selection some_ with ⟨picked, isPicked⟩
    rcases (prereg.dev ++ prereg.heldout).eq_nil_or_concat with none_ | ⟨first, last, all⟩
    · exact Or.inl (List.append_eq_nil_iff.mp none_)
    · right
      apply (sameClaim_iff prereg picked last).mp
      apply agree
      · exact List.mem_map_of_mem isPicked
      · rw [all, List.concat_eq_append]
        exact List.mem_map_of_mem (List.mem_append_right first (List.mem_singleton_self last))
  · intro plain spec member other otherMember
    rcases List.mem_map.mp member with ⟨picked, _, rfl⟩
    rcases List.mem_map.mp otherMember with ⟨seed, inside, rfl⟩
    rcases plain with ⟨noDev, noHeld⟩ | plain
    · rw [noDev, noHeld] at inside
      cases inside
    · exact (sameClaim_iff prereg picked seed).mpr plain

/-- A campaign of plain episodes. -/
theorem blocks_agree_small :
    ∃ blocks, beamBlocks smallPreregistration [3] = .ok blocks ∧ blocks.Agree :=
  ⟨_, rfl, (blocks_agree_iff smallPreregistration [3] _ rfl).mpr (Or.inr (by decide))⟩

/-- A campaign that is scored on the whole task chooses on the shared goal. -/
theorem blocks_disagree_terminal :
    ∃ blocks, beamBlocks { smallPreregistration with terminalLabel := true } [3] = .ok blocks ∧
      ¬ blocks.Agree := by
  refine ⟨_, rfl, fun agree => ?_⟩
  have same := agree _ (List.mem_singleton_self _) _ (List.mem_cons_self ..)
  exact absurd (congrArg (·.terminalLabel) same) (by decide)

end Rsi
end PhysicalHarness
