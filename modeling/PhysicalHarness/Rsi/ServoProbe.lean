import PhysicalHarness.Lib.Schedule
import PhysicalHarness.Python.Arithmetic

namespace PhysicalHarness
namespace Rsi
namespace ServoProbe

open Python

/-!
# The contact probe

The probe closes the fingers, and where they hold nothing it moves to the next point and tries again.
It decides when the fingers have stopped moving, but also when an attempt has taken all its steps:
fingers that are still far apart and closing then count as a hold.
-/

/-- `abs` of a float. -/
def magnitude (number : Double) : Double := if number.negative then number.neg else number

/-- `finger_gap`. -/
def fingerGap (qpos : Double × Double) : Double := magnitude (qpos.1.sub qpos.2)

/-- `SETTLE_DGAP`. -/
def settleDgap : Double := Double.nearest (15 / 100000)

/-- `EMPTY_GAP`. -/
def emptyGap : Double := Double.nearest (12 / 1000)

/-- A probe point, by the radius of its ring and the number of its heading. -/
structure Offset where
  radius : Double
  heading : Nat
  deriving DecidableEq

/-- `PROBE_RADII`. -/
def probeRadii : List Double := [Double.nearest (12 / 1000), Double.nearest (24 / 1000)]

/-- `PROBE_HEADINGS`. -/
def probeHeadings : Nat := 6

/-- `probe_offsets`. -/
def probeOffsets : List Offset :=
  ⟨Double.nearest 0, 0⟩ ::
    probeRadii.flatMap (fun radius => (List.range probeHeadings).map (fun k => ⟨radius, k⟩))

/-- The parameters that are step counts, with their defaults. -/
structure Params where
  maxSteps : Nat := 160
  settleSteps : Nat := 26
  travelSteps : Nat := 12

inductive Phase where
  | close
  | shift
  deriving DecidableEq

structure Probe where
  pts : List Offset := probeOffsets
  idx : Nat := 0
  phase : Phase := .close
  inPhase : Nat := 0
  used : Nat := 0
  held : Bool := false
  lastGap : Option Double := none
  still : Nat := 0

/-- Close the gripper in place, or open it and go towards a point, at first upwards. -/
inductive Action where
  | squeeze
  | travel (goal : Option Offset) (rises : Bool)

/-- The change since the last reading is below `SETTLE_DGAP`. -/
def small (lastGap : Option Double) (gap : Double) : Bool :=
  match lastGap with
  | none => false
  | some last => (magnitude (last.sub gap)).lt settleDgap

def stillAfter (gap : Double) (lastGap : Option Double) (still : Nat) : Nat :=
  if small lastGap gap then still + 1 else 0

section

variable (params : Params)

/-- `act` in the phase `close`, after the counters. -/
def closeStep (gap : Double) (probe : Probe) : Probe :=
  if 3 ≤ stillAfter gap probe.lastGap probe.still ∨ params.settleSteps ≤ probe.inPhase then
    if emptyGap.lt gap then { probe with held := true, inPhase := 0, still := 0, lastGap := none }
    else { probe with idx := probe.idx + 1, phase := .shift, inPhase := 0, still := 0, lastGap := none }
  else { probe with still := stillAfter gap probe.lastGap probe.still, lastGap := some gap }

/-- `act` in the phase `shift`, after the counters. -/
def shiftStep (probe : Probe) : Probe :=
  if params.travelSteps ≤ probe.inPhase then { probe with phase := .close, inPhase := 0 } else probe

/-- `_goal`, before it is a direction. -/
def goal (probe : Probe) : Option Offset := probe.pts[min probe.idx (probe.pts.length - 1)]?

/-- `act`. -/
def act (qpos : Double × Double) (probe : Probe) : Probe × Action :=
  let counted := { probe with used := probe.used + 1, inPhase := probe.inPhase + 1 }
  match probe.phase with
  | .close => (closeStep params (fingerGap qpos) counted, .squeeze)
  | .shift =>
      let moved := shiftStep params counted
      (moved, .travel (goal moved) (decide (moved.inPhase ≤ params.travelSteps / 2)))

/-- `done`. -/
def done (probe : Probe) : Bool :=
  probe.held || decide (params.maxSteps ≤ probe.used) || decide (probe.pts.length ≤ probe.idx)

/-- A probe with the points it has tried and the readings of its last close attempt, the latest first. -/
structure Trial where
  probe : Probe := {}
  tried : List Offset := []
  readings : List Double := []

/-- A reading in an attempt, or in the first step of the next one. -/
def Trial.record (gap : Double) (trial : Trial) (probe : Probe) : Trial :=
  if trial.probe.phase = .shift then { trial with probe }
  else if trial.probe.inPhase = 0 then
    ⟨probe, trial.tried ++ trial.probe.pts[trial.probe.idx]?.toList, [gap]⟩
  else ⟨probe, trial.tried, gap :: trial.readings⟩

/-- One action of a probe that is polled while it is not done. -/
def poll (qpos : Double × Double) (trial : Trial) : Option Trial :=
  if done params trial.probe then none
  else some (trial.record (fingerGap qpos) (act params qpos trial.probe).1)

end

/-- How many of the last changes were small, from the latest reading back. -/
def streak : List Double → Nat
  | gap :: last :: rest => if small (some last) gap then streak (last :: rest) + 1 else 0
  | _ => 0

/-- The fingers moved little on three readings in a row and are apart on the last one. -/
def Settled (readings : List Double) : Prop :=
  3 ≤ streak readings ∧ ∃ gap ∈ readings.head?, emptyGap.lt gap = true

/-- What is said of a probe. -/
structure Sound (params : Params) (trial : Trial) : Prop where
  held : trial.probe.held = true → Settled trial.readings
  order : trial.tried <+: probeOffsets
  nearest : trial.tried.Pairwise (fun first second => first.radius.le second.radius = true)
  once : trial.tried.Nodup
  bounded : trial.probe.used ≤ params.maxSteps
  complete : done params trial.probe = true → trial.probe.held = false →
    trial.probe.used < params.maxSteps → trial.tried = probeOffsets

/-- No attempt ends by its steps alone with the fingers apart. -/
def Decided (params : Params) (qpos : Double × Double) (trial : Trial) : Prop :=
  trial.probe.phase = .close → params.settleSteps ≤ trial.probe.inPhase + 1 →
    emptyGap.lt (fingerGap qpos) = true → 3 ≤ stillAfter (fingerGap qpos) trial.probe.lastGap trial.probe.still

theorem probeOffsets_nearest :
    probeOffsets.Pairwise (fun first second => first.radius.le second.radius = true) ∧
      probeOffsets.Nodup := by
  decide +kernel

def Attempting (probe : Probe) : Prop := probe.phase = .close ∧ probe.inPhase ≠ 0

structure Kept (params : Params) (trial : Trial) : Prop where
  pts : trial.probe.pts = probeOffsets
  held : trial.probe.held = false
  bounded : trial.probe.used ≤ params.maxSteps
  idle : ¬ Attempting trial.probe → trial.tried = probeOffsets.take trial.probe.idx ∧
    trial.probe.still = 0 ∧ trial.probe.lastGap = none
  trying : Attempting trial.probe → trial.tried = probeOffsets.take (trial.probe.idx + 1) ∧
    trial.probe.still = streak trial.readings ∧ trial.probe.lastGap = trial.readings.head? ∧
    trial.readings ≠ []

theorem kept_fresh (params : Params) : Kept params {} where
  pts := rfl
  held := rfl
  bounded := Nat.zero_le _
  idle := fun _ => ⟨rfl, rfl, rfl⟩
  trying := fun attempting => absurd rfl attempting.2

section

variable {params : Params} {trial next : Trial} {qpos : Double × Double}

theorem not_done (polled : poll params qpos trial = some next) :
    next = trial.record (fingerGap qpos) (act params qpos trial.probe).1 ∧
      trial.probe.used < params.maxSteps ∧ trial.probe.idx < trial.probe.pts.length := by
  rw [poll] at polled
  split at polled
  · cases polled
  · rename_i going
    cases polled
    rw [done, Bool.or_eq_true, Bool.or_eq_true, decide_eq_true_eq, decide_eq_true_eq, not_or, not_or]
      at going
    exact ⟨rfl, not_le.mp going.1.2, not_le.mp going.2⟩

theorem probe_record (gap : Double) (trial : Trial) (probe : Probe) :
    (trial.record gap probe).probe = probe := by
  rw [Trial.record]
  split
  · rfl
  · split <;> rfl

theorem poll_of_held (held : trial.probe.held = true) : poll params qpos trial = none := by
  rw [poll, done, held]
  rfl

theorem Kept.reading (kept : Kept params trial) (closes : trial.probe.phase = .close)
    (gap : Double) : ∃ readings, (∀ probe, trial.record gap probe =
        ⟨probe, probeOffsets.take (trial.probe.idx + 1), gap :: readings⟩) ∧
      stillAfter gap trial.probe.lastGap trial.probe.still = streak (gap :: readings) := by
  have stays : ¬ trial.probe.phase = .shift := fun shifts => Phase.noConfusion (closes.symm.trans shifts)
  by_cases starts : trial.probe.inPhase = 0
  · rcases kept.idle (fun attempting => attempting.2 starts) with ⟨tried, _, lastGap⟩
    refine ⟨[], fun probe => ?_, ?_⟩
    · rw [Trial.record, if_neg stays, if_pos starts, tried, kept.pts, ← List.take_add_one]
    · rw [stillAfter, lastGap]
      rfl
  · rcases kept.trying ⟨closes, starts⟩ with ⟨tried, still, lastGap, some_⟩
    refine ⟨trial.readings, fun probe => ?_, ?_⟩
    · rw [Trial.record, if_neg stays, if_neg starts, tried]
    · rw [stillAfter, lastGap, still]
      cases readings : trial.readings with
      | nil => exact absurd readings some_
      | cons last rest => rfl

theorem Kept.poll (kept : Kept params trial) (polled : poll params qpos trial = some next) :
    (next.probe.held = true ∧ (Sound params next ↔ Decided params qpos trial)) ∨
      (Kept params next ∧ Decided params qpos trial) := by
  rcases not_done polled with ⟨rfl, before, inside⟩
  rw [act]
  cases phase : trial.probe.phase with
  | close =>
      simp only []
      rcases kept.reading phase (fingerGap qpos) with ⟨readings, same, still⟩
      rw [same]
      dsimp only [closeStep]
      by_cases ends : 3 ≤ stillAfter (fingerGap qpos) trial.probe.lastGap trial.probe.still ∨
          params.settleSteps ≤ trial.probe.inPhase + 1
      · rw [if_pos ends]
        by_cases apart : emptyGap.lt (fingerGap qpos) = true
        · rw [if_pos apart]
          left
          refine ⟨rfl, ?_, ?_⟩
          · intro sound _ _ _
            exact still ▸ (sound.held rfl).1
          · intro decided
            have first := List.take_prefix (trial.probe.idx + 1) probeOffsets
            refine ⟨?_, first, probeOffsets_nearest.1.sublist first.sublist,
              probeOffsets_nearest.2.sublist first.sublist, before, ?_⟩
            · intro _
              refine ⟨still ▸ ends.elim id (fun steps => decided phase steps apart), ?_⟩
              exact ⟨fingerGap qpos, rfl, apart⟩
            · intro _ never
              cases never
        · rw [if_neg apart]
          right
          refine ⟨⟨kept.pts, kept.held, before, fun _ => ⟨rfl, rfl, rfl⟩, ?_⟩, ?_⟩
          · intro attempting
            exact absurd attempting.1 Phase.noConfusion
          · exact fun _ _ wide => absurd wide apart
      · rw [if_neg ends]
        right
        refine ⟨⟨kept.pts, kept.held, before, ?_, fun _ => ⟨rfl, still, rfl, List.cons_ne_nil _ _⟩⟩, ?_⟩
        · exact fun idle => absurd ⟨rfl, Nat.succ_ne_zero _⟩ idle
        · exact fun _ steps _ => absurd (.inr steps) ends
  | shift =>
      simp only []
      have waiting : ¬ Attempting trial.probe :=
        fun attempting => Phase.noConfusion (phase.symm.trans attempting.1)
      rcases kept.idle waiting with ⟨tried, still, lastGap⟩
      rw [Trial.record, if_pos phase, shiftStep]
      right
      refine ⟨?_, fun closes => absurd (phase.symm.trans closes) Phase.noConfusion⟩
      split
      · refine ⟨kept.pts, kept.held, before, fun _ => ⟨tried, still, lastGap⟩, ?_⟩
        exact fun attempting => absurd rfl attempting.2
      · refine ⟨kept.pts, kept.held, before, fun _ => ⟨tried, still, lastGap⟩, ?_⟩
        exact fun attempting => absurd attempting.1 Phase.noConfusion

theorem Kept.first_tried (kept : Kept params trial) : trial.tried <+: probeOffsets := by
  by_cases attempting : Attempting trial.probe
  · rw [(kept.trying attempting).1]
    exact List.take_prefix _ _
  · rw [(kept.idle attempting).1]
    exact List.take_prefix _ _

theorem Kept.sound (kept : Kept params trial) : Sound params trial where
  held := by
    rw [kept.held]
    exact fun never => absurd never Bool.false_ne_true
  order := kept.first_tried
  nearest := probeOffsets_nearest.1.sublist kept.first_tried.sublist
  once := probeOffsets_nearest.2.sublist kept.first_tried.sublist
  bounded := kept.bounded
  complete := by
    intro ended _ before
    rw [done, kept.held, Bool.false_or, Bool.or_eq_true, decide_eq_true_eq, decide_eq_true_eq, kept.pts]
      at ended
    have all := ended.resolve_left (not_le.mpr before)
    by_cases attempting : Attempting trial.probe
    · rw [(kept.trying attempting).1, List.take_of_length_le (Nat.le_succ_of_le all)]
    · rw [(kept.idle attempting).1, List.take_of_length_le all]

end

theorem sound_iff_of_kept {params : Params} {trial last : Trial} {observed : List (Double × Double)}
    (kept : Kept params trial) (ran : Schedule.run (poll params) trial observed = some last) :
    Sound params last ↔ Schedule.Admitted (poll params) (Decided params) trial observed := by
  induction observed generalizing trial with
  | nil =>
      cases ran
      exact ⟨fun _ => trivial, fun _ => kept.sound⟩
  | cons qpos rest ih =>
      rcases Option.bind_eq_some_iff.mp ran with ⟨next, polled, later⟩
      rw [Schedule.Admitted]
      rcases kept.poll polled with ⟨held, sound_iff⟩ | ⟨kept_, decided⟩
      · cases rest with
        | nil =>
            cases later
            exact sound_iff.trans ⟨fun decided => ⟨decided, fun _ _ => trivial⟩, And.left⟩
        | cons second more =>
            rcases Option.bind_eq_some_iff.mp later with ⟨_, never, _⟩
            rw [poll_of_held held] at never
            cases never
      · rw [ih kept_ later]
        constructor
        · intro admitted
          refine ⟨decided, ?_⟩
          intro other polled_
          rw [polled] at polled_
          cases polled_
          exact admitted
        · intro both
          exact both.2 next polled

theorem used_of_run {params : Params} {trial last : Trial} {observed : List (Double × Double)}
    (ran : Schedule.run (poll params) trial observed = some last) :
    last.probe.used = trial.probe.used + observed.length := by
  induction observed generalizing trial with
  | nil =>
      cases ran
      rfl
  | cons qpos rest ih =>
      rcases Option.bind_eq_some_iff.mp ran with ⟨next, polled, later⟩
      have once : next.probe.used = trial.probe.used + 1 := by
        rw [(not_done polled).1, probe_record, act]
        cases trial.probe.phase with
        | close =>
            dsimp only [closeStep]
            split
            · split <;> rfl
            · rfl
        | shift =>
            dsimp only [shiftStep]
            split <;> rfl
      rw [ih later, once, List.length_cons]
      omega

/-- A probe acts once an observation, and it is sound after exactly the runs in which no attempt
ends by its steps alone with the fingers apart. -/
theorem sound_iff_decided {params : Params} {last : Trial} {observed : List (Double × Double)}
    (ran : Schedule.run (poll params) {} observed = some last) :
    last.probe.used = observed.length ∧
      (Sound params last ↔ Schedule.Admitted (poll params) (Decided params) {} observed) :=
  ⟨(used_of_run ran).trans (Nat.zero_add _), sound_iff_of_kept (kept_fresh params) ran⟩

/-- Fingers that close by a millimetre a step, from this many millimetres. -/
def closing (start steps : Nat) : List (Double × Double) :=
  (List.range steps).map (fun k => (Double.nearest ((start - k : ℚ) / 1000), Double.nearest 0))

/-- With the default parameters fingers that close steadily are taken for a hold. -/
theorem held_by_count : ∃ last, Schedule.run (poll {}) {} (closing 80 26) = some last ∧
    last.probe.held = true ∧ ¬ Settled last.readings := by
  have ends : (Schedule.run (poll {}) {} (closing 80 26)).any
      (fun last => last.probe.held && decide (streak last.readings < 3)) = true := by decide +kernel
  rcases Option.any_eq_true _ _ |>.mp ends with ⟨last, ran, found⟩
  rw [Bool.and_eq_true, decide_eq_true_eq] at found
  exact ⟨last, ran, found.1, fun settled => absurd settled.1 (not_le.mpr found.2)⟩

/-- Fingers that stop four centimetres apart. -/
theorem sound_iff_decided_still : ∃ last,
    Schedule.run (poll {}) {} (List.replicate 4 (Double.nearest (4 / 100), Double.nearest 0)) =
      some last ∧ last.probe.used = 4 ∧
    (Sound {} last ↔ Schedule.Admitted (poll {}) (Decided {}) {}
      (List.replicate 4 (Double.nearest (4 / 100), Double.nearest 0))) := by
  have ends : (Schedule.run (poll {}) {}
      (List.replicate 4 (Double.nearest (4 / 100), Double.nearest 0))).isSome = true := by
    decide +kernel
  rcases Option.isSome_iff_exists.mp ends with ⟨last, ran⟩
  exact ⟨last, ran, sound_iff_decided ran⟩

end ServoProbe
end Rsi
end PhysicalHarness
