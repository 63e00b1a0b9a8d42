import PhysicalHarness.Board.Evidence

namespace PhysicalHarness
namespace Board

open Python PhysicalHarness.Task

/-!
# Whose success a sample carries

A sample is stamped by the closing row that comes next.  A run that ends without one leaves
its samples open, and they are stamped by the run after it if that one closes.
-/

section

variable [Host] (roleOfSeed : Json → Json) (roleSource : String)

theorem trajectoryStep_plan (state : Episodes) (note : PlanNote) :
    trajectoryStep roleOfSeed roleSource state note.content =
      .ok { state with episode := state.episode ++ [sampleOf roleOfSeed roleSource note] } := by
  have plan : note.content.1 = "task.plan" := rfl
  rw [trajectoryStep, if_pos plan, planSample_content]
  rfl

def verifiedOf (note : VerifyNote) : Sample → Sample :=
  Sample.verified (.str note.node) (.obj (note.results.map (fun result => (result.1, tri result.2))))
    (note.results.all (fun result => decide (result.2 = some true)))

omit [Host] in
theorem trajectoryStep_verify (state : Episodes) (note : VerifyNote) :
    trajectoryStep roleOfSeed roleSource state note.content =
      .ok { state with episode := modifyLast (verifiedOf note) state.episode } := by
  have verify : note.content.1 = "task.verify" := rfl
  rw [trajectoryStep, verify, if_neg (by decide)]
  cases opened : state.episode with
  | nil =>
      rw [if_neg (fun both => both.2 rfl), if_neg (fun both => both.2 rfl), modifyLast, ← opened]
  | cons first rest =>
      rw [if_pos ⟨rfl, List.cons_ne_nil first rest⟩, allTrue_content]
      rfl

omit [Host] in
theorem trajectoryStep_complete (state : Episodes) (note : CompleteNote) :
    trajectoryStep roleOfSeed roleSource state note.content =
      .ok ⟨[], state.out ++ state.episode.map (Sample.close (.bool note.success) (.int note.replans))⟩ := by
  have complete : note.content.1 = "task.plan_complete" := rfl
  rw [trajectoryStep, complete, if_neg (by decide), if_neg (fun both => absurd both.1 (by decide))]
  cases opened : state.episode with
  | nil =>
      rw [if_neg (fun both => both.2 rfl), List.map_nil, List.append_nil, ← opened]
  | cons first rest =>
      rw [if_pos ⟨rfl, List.cons_ne_nil first rest⟩]
      rfl

omit [Host] in
theorem trajectoryStep_skips (state : Episodes) (content : Content) (other : content.1 ∉ taskKinds) :
    trajectoryStep roleOfSeed roleSource state content = .ok state := by
  have kinds : content.1 ≠ "task.plan" ∧ content.1 ≠ "task.verify" ∧ content.1 ≠ "task.plan_complete" := by
    simpa [taskKinds] using other
  rw [trajectoryStep, if_neg kinds.1, if_neg (fun both => kinds.2.1 both.1),
    if_neg (fun both => kinds.2.2 both.1)]

/-! ## Marks -/

def Sample.origin (sample : Sample) : Json × Json := (sample.x, sample.y)

/-- What came of its run. -/
def Sample.label (sample : Sample) : Json × Json := (sample.success, sample.replans)

def Sample.mark (sample : Sample) : (Json × Json) × (Json × Json) := (sample.origin, sample.label)

def openLabel : Json × Json := (.null, .null)

def closedLabel (note : CompleteNote) : Json × Json := (.bool note.success, .int note.replans)

def labelOf (run : Run) : Json × Json :=
  match run.completed with
  | some note => closedLabel note
  | none => openLabel

def originsOf (run : Run) : List (Json × Json) :=
  run.attempts.map (fun attempt => (sampleOf roleOfSeed roleSource attempt.note).origin)

/-- Every proposal with what came of the run that made it. -/
def ownMarks (runs : List Run) : List ((Json × Json) × (Json × Json)) :=
  runs.flatMap (fun run => (originsOf roleOfSeed roleSource run).map (fun origin => (origin, labelOf run)))

def nextMarks : List (Json × Json) → List Run → List ((Json × Json) × (Json × Json))
  | pending, [] => pending.map (fun origin => (origin, openLabel))
  | pending, run :: rest =>
      match run.completed with
      | some note =>
          (pending ++ originsOf roleOfSeed roleSource run).map (fun origin => (origin, closedLabel note)) ++
            nextMarks [] rest
      | none => nextMarks (pending ++ originsOf roleOfSeed roleSource run) rest

omit [Host] in
theorem map_modifyLast {α β : Type} {change : α → α} {view : α → β}
    (same : ∀ item, view (change item) = view item) (items : List α) :
    (modifyLast change items).map view = items.map view := by
  induction items with
  | nil => rfl
  | cons first rest ih =>
      cases rest with
      | nil => exact congrArg (fun head => [head]) (same first)
      | cons second rest => exact congrArg (List.cons (view first)) ih

structure Opened (origins : List (Json × Json)) (state : Episodes) : Prop where
  marks : state.episode.map Sample.mark = origins.map (fun origin => (origin, openLabel))

omit [Host] in
theorem fold_verified (origins : List (Json × Json)) (notes : List VerifyNote) (state : Episodes)
    (opened : Opened origins state) :
    ∃ next, (notes.map VerifyNote.content).foldlM (trajectoryStep roleOfSeed roleSource) state = .ok next ∧
      Opened origins next ∧ next.out = state.out := by
  induction notes generalizing state with
  | nil => exact ⟨state, rfl, opened, rfl⟩
  | cons note rest ih =>
      have kept : Opened origins { state with episode := modifyLast (verifiedOf note) state.episode } := by
        have same : ∀ sample, (verifiedOf note sample).mark = sample.mark := fun _ => rfl
        exact ⟨(map_modifyLast same state.episode).trans opened.marks⟩
      rcases ih _ kept with ⟨next, ran, opened_, out⟩
      refine ⟨next, ?_, opened_, out⟩
      rw [List.map_cons, List.foldlM_cons, trajectoryStep_verify]
      exact ran

theorem fold_attempts (origins : List (Json × Json)) (attempts : List Attempt) (state : Episodes)
    (opened : Opened origins state) :
    ∃ next, (attempts.flatMap Attempt.contents).foldlM (trajectoryStep roleOfSeed roleSource) state =
        .ok next ∧
      Opened (origins ++ attempts.map (fun attempt =>
        (sampleOf roleOfSeed roleSource attempt.note).origin)) next ∧ next.out = state.out := by
  induction attempts generalizing origins state with
  | nil => exact ⟨state, rfl, by rw [List.map_nil, List.append_nil]; exact opened, rfl⟩
  | cons attempt rest ih =>
      have planned : Opened (origins ++ [(sampleOf roleOfSeed roleSource attempt.note).origin])
          { state with episode := state.episode ++ [sampleOf roleOfSeed roleSource attempt.note] } := by
        refine ⟨?_⟩
        rw [List.map_append, List.map_append, opened.marks]
        rfl
      rcases fold_verified roleOfSeed roleSource _ attempt.verified _ planned with ⟨middle, verified, opened_, out⟩
      rcases ih _ middle opened_ with ⟨next, ran, last, out_⟩
      refine ⟨next, ?_, ?_, out_.trans out⟩
      · rw [List.flatMap_cons, List.foldlM_append, Attempt.contents, List.foldlM_cons,
          trajectoryStep_plan]
        change Except.bind (List.foldlM _ _ (attempt.verified.map VerifyNote.content)) _ = _
        rw [verified]
        exact ran
      · rw [List.map_cons, List.append_cons]
        exact last

theorem fold_runs (origins : List (Json × Json)) (runs : List Run) (state : Episodes)
    (opened : Opened origins state) :
    ∃ next, (runs.flatMap Run.contents).foldlM (trajectoryStep roleOfSeed roleSource) state = .ok next ∧
      (next.out ++ next.episode).map Sample.mark =
        state.out.map Sample.mark ++ nextMarks roleOfSeed roleSource origins runs := by
  induction runs generalizing origins state with
  | nil =>
      refine ⟨state, rfl, ?_⟩
      rw [List.map_append, opened.marks]
      rfl
  | cons run rest ih =>
      rcases fold_attempts roleOfSeed roleSource origins run.attempts state opened with
        ⟨middle, ran, opened_, out⟩
      rw [List.flatMap_cons, Run.contents, List.append_assoc, List.foldlM_append, ran]
      cases completed : run.completed with
      | none =>
          rcases ih _ middle opened_ with ⟨next, ran_, marks⟩
          refine ⟨next, ran_, ?_⟩
          rw [marks, out, nextMarks, completed]
          rfl
      | some note =>
          have closed : (middle.episode.map (Sample.close (.bool note.success) (.int note.replans))).map
              Sample.mark = (origins ++ originsOf roleOfSeed roleSource run).map
                (fun origin => (origin, closedLabel note)) := by
            have marks := congrArg (List.map (fun mark => (mark.1, closedLabel note))) opened_.marks
            rw [List.map_map, List.map_map] at marks
            rw [List.map_map]
            exact marks
          rcases ih [] ⟨[], middle.out ++ middle.episode.map (Sample.close (.bool note.success)
            (.int note.replans))⟩ ⟨rfl⟩ with ⟨next, ran_, marks⟩
          refine ⟨next, ?_, ?_⟩
          · change Except.bind (trajectoryStep roleOfSeed roleSource middle note.content) _ = _
            rw [trajectoryStep_complete]
            exact ran_
          · rw [marks, List.map_append, closed, out, nextMarks, completed, List.append_assoc]

theorem trajectories_of_writes {runs : List Run} {rows : List Row} (written : Writes runs rows) :
    ∃ samples, trajectories roleOfSeed roleSource rows = .ok samples ∧
      samples.map Sample.mark = nextMarks roleOfSeed roleSource [] runs := by
  rcases fold_runs roleOfSeed roleSource [] runs ⟨[], []⟩ ⟨rfl⟩ with ⟨last, ran, marks⟩
  refine ⟨last.out ++ last.episode, ?_, marks⟩
  rw [trajectories, foldlM_of_writes (trajectoryStep_skips roleOfSeed roleSource) written, ran]
  rfl

/-- No run that proposed a plan and did not complete comes before one that did. -/
def Closed (runs : List Run) : Prop :=
  runs.Pairwise (fun run later => run.attempts ≠ [] → run.completed = none → later.completed = none)

theorem nextMarks_eq_iff (pending : List (Json × Json)) (runs : List Run) :
    nextMarks roleOfSeed roleSource pending runs =
        pending.map (fun origin => (origin, openLabel)) ++ ownMarks roleOfSeed roleSource runs ↔
      (pending ≠ [] → ∀ run ∈ runs, run.completed = none) ∧ Closed runs := by
  induction runs generalizing pending with
  | nil =>
      refine ⟨fun _ => ⟨fun _ _ never => absurd never List.not_mem_nil, List.Pairwise.nil⟩,
        fun _ => ?_⟩
      rw [nextMarks, ownMarks, List.flatMap_nil, List.append_nil]
  | cons run rest ih =>
      have here : ownMarks roleOfSeed roleSource (run :: rest) =
          (originsOf roleOfSeed roleSource run).map (fun origin => (origin, labelOf run)) ++
            ownMarks roleOfSeed roleSource rest := List.flatMap_cons
      have proposed : originsOf roleOfSeed roleSource run ≠ [] ↔ run.attempts ≠ [] := by
        rw [originsOf, Ne, List.map_eq_nil_iff]
      rw [nextMarks, here, Closed, List.pairwise_cons]
      cases completed : run.completed with
      | none =>
          have label : labelOf run = openLabel := by rw [labelOf, completed]
          rw [label, ← List.append_assoc, ← List.map_append, ih]
          constructor
          · intro both
            refine ⟨fun some_ later mem => ?_, fun later mem ran _ => ?_, both.2⟩
            · rcases List.mem_cons.mp mem with same | after
              · rw [same, completed]
              · exact both.1 (List.append_ne_nil_of_left_ne_nil some_ _) later after
            · exact both.1 (List.append_ne_nil_of_right_ne_nil _ (proposed.mpr ran)) later mem
          · intro both
            refine ⟨fun some_ later mem => ?_, both.2.2⟩
            by_cases earlier : pending = []
            · rw [earlier, List.nil_append] at some_
              exact both.2.1 later mem (proposed.mp some_) rfl
            · exact both.1 earlier later (.tail _ mem)
      | some note =>
          have label : labelOf run = closedLabel note := by rw [labelOf, completed]
          rw [label]
          cases pending with
          | nil =>
              have later := ih []
              rw [List.map_nil, List.nil_append] at later
              rw [List.nil_append, List.map_nil, List.nil_append, List.append_cancel_left_eq, later]
              refine ⟨fun both => ⟨fun never => absurd rfl never, ?_, both.2⟩,
                fun both => ⟨fun never => absurd rfl never, both.2.2⟩⟩
              exact fun _ _ _ never => absurd never (Option.some_ne_none note)
          | cons first others =>
              refine ⟨fun same => ?_, fun both => ?_⟩
              · have labels := congrArg (fun marks => marks.head?.map Prod.snd) same
                have success := congrArg Prod.fst (Option.some.inj labels)
                cases success
              · have none_ := both.1 (List.cons_ne_nil first others) run (.head _)
                rw [completed] at none_
                cases none_

/-- Every sample carries what came of the run that proposed it exactly when no run that
proposed a plan was cut off before one that completed. -/
theorem trajectories_own_iff {runs : List Run} {rows : List Row} (written : Writes runs rows) :
    (∃ samples, trajectories roleOfSeed roleSource rows = .ok samples ∧
      samples.map Sample.mark = ownMarks roleOfSeed roleSource runs) ↔ Closed runs := by
  rcases trajectories_of_writes roleOfSeed roleSource written with ⟨samples, read, marks⟩
  have agree := nextMarks_eq_iff roleOfSeed roleSource [] runs
  rw [List.map_nil, List.nil_append] at agree
  constructor
  · rintro ⟨samples_, read_, own⟩
    rw [read] at read_
    rw [← Except.ok.inj read_, marks] at own
    exact (agree.mp own).2
  · intro closed
    refine ⟨samples, read, marks.trans (agree.mpr ⟨fun impossible => absurd rfl impossible, closed⟩)⟩

end

section

local instance sampleHost : Host := asciiHost

def refusedNote : PlanNote where
  replan := 0
  seed := 7
  mission := some "stack"
  sigma0 := .obj []
  skills := []
  showEvidence := false
  done := []
  fault := .null
  plan := .null
  plannerRef := "planner"
  embodiment := "sim"
  arm := "scripted"
  facts := []
  objects := []
  visible := []
  legal := false
  msg := "plan must be a JSON object, got NoneType"
  block := .null

def refusedAttempt : Attempt := ⟨refusedNote, fun legal => absurd legal Bool.false_ne_true, [], fun some_ => absurd rfl some_⟩

/-- A run that dies after its proposal, and one that gives up and closes. -/
def cutRun : Run := ⟨[refusedAttempt], none⟩

def closedRun : Run := ⟨[refusedAttempt], some ⟨false, .null, 0, 0⟩⟩

/-- The rows of some runs, in their order. -/
def rowsOf (runs : List Run) : List Row :=
  (runs.flatMap Run.contents).map (fun content => ⟨0, content.1, content.2⟩)

theorem trajectories_own_iff_closed :
    (∃ samples, trajectories (fun _ => .str "dev") "caller" (rowsOf [closedRun]) = .ok samples ∧
      samples.map Sample.mark = ownMarks (fun _ => .str "dev") "caller" [closedRun]) ↔
      Closed [closedRun] :=
  trajectories_own_iff _ _ rfl

theorem cut_run_stamped : Writes [cutRun, closedRun] (rowsOf [cutRun, closedRun]) ∧
    (trajectories (fun _ => .str "dev") "caller" (rowsOf [cutRun, closedRun])).map
        (fun samples => samples.map Sample.label) = .ok [(.bool false, .int 0), (.bool false, .int 0)] ∧
      (ownMarks (fun _ => .str "dev") "caller" [cutRun, closedRun]).map Prod.snd =
        [(.null, .null), (.bool false, .int 0)] :=
  ⟨rfl, rfl, rfl⟩

end

end Board
end PhysicalHarness
