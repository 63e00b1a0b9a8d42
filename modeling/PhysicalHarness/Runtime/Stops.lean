import PhysicalHarness.Runtime.Intake

namespace PhysicalHarness
namespace Runtime

open Python

/-!
# Stop requests

The board stops a brief in two steps: it looks up the name, and then drops a marker of that
name.  The runtime looks for the marker of the brief it holds, files the brief as cancelled
if it finds one, and removes it there and where the work was finished.  A marker names no
submission, so it stops whatever the runtime holds under its name.  Here every submission is
numbered, and a marker remembers the number that its request found.
-/

namespace Stops

/-- Where the runtime found a request. -/
inductive Stage where
  | queued
  | running
  | runtimeStopped
  deriving DecidableEq, Repr

inductive Phase where
  | down
  /-- `_requeue` at the first of the stranded briefs. -/
  | recovering (stranded : List String) (counts fresh : List (String × Nat))
  | idle
  /-- The brief was renamed and not read yet. -/
  | claimed (name : String)
  /-- The brief runs; its workload has seen the marker at a boundary, or not. -/
  | running (name : String) (noticed : Bool)
  /-- The brief raised, and there was no marker. -/
  | failing (name : String)
  /-- The work is finished, and the marker was removed. -/
  | finishing (name : String)
  /-- `_seal_cancelled` before its rename. -/
  | sealing (name : String) (stage : Stage)
  /-- `_seal_cancelled` before it removes the marker. -/
  | sealed (name : String) (stage : Stage)
  deriving DecidableEq

abbrev Briefs : Type := Place → List (String × Nat)

/-- `os.replace(source / name, target / name)`. -/
def move (files : Briefs) (name : String) (source target : Place) : Briefs :=
  match Assoc.get? (files source) name with
  | none => files
  | some brief => fun place =>
      if place = target then Assoc.set (files target) name brief
      else if place = source then (files source).filter (fun entry => entry.1 ≠ name)
      else files place

/-- The files, the markers with the submission that their request found, the requests that
have looked up their brief and not dropped their marker, and the process.  `asked`, `filed`
and `cancelled` list the submissions so far that a request found, that were filed, and that
were filed as cancelled with a stage. -/
structure State where
  files : Briefs
  markers : List (String × Nat)
  located : List (String × Nat)
  phase : Phase
  counts : List (String × Nat)
  submissions : Nat
  asked : List Nat
  filed : List Nat
  cancelled : List (Nat × Stage)

inductive Event where
  | submit (name : String)
  /-- The first half of `cancel_brief`. -/
  | locate (name : String)
  /-- The second half of a `cancel_brief` that found this submission. -/
  | drop (name : String) (brief : Nat)
  | boot
  | requeue
  | save
  | claim (name : String)
  /-- The brief is not JSON. -/
  | malformed
  /-- Checkpoint 1. -/
  | check
  /-- Checkpoint 2: the workload stops at a boundary. -/
  | notice
  /-- The brief raises. -/
  | raise
  | fail
  /-- The runtime is told to exit. -/
  | halt
  | finish
  | file
  /-- The last rename fails, and the brief stays claimed. -/
  | keep
  | cancel
  | unlink
  | crash
  deriving DecidableEq

namespace State

def find (state : State) (place : Place) (name : String) : Option Nat :=
  Assoc.get? (state.files place) name

/-- `_brief_locate`, as far as it finds a live brief. -/
def locate (state : State) (name : String) : Option Nat :=
  state.find .inbox name <|> state.find .processing name

def aim (state : State) (name : String) : Option Nat :=
  state.find .processing name <|> state.find .inbox name

/-- `_cancel_requested`. -/
def requested (state : State) (name : String) : Bool := (Assoc.get? state.markers name).isSome

/-- `marker.unlink(missing_ok=True)`. -/
def unmark (state : State) (name : String) : State :=
  { state with markers := state.markers.filter (fun entry => entry.1 ≠ name) }

/-- A rename of the brief that is held. -/
def file (state : State) (name : String) (target : Place) (phase : Phase) : State :=
  { state with
    files := move state.files name .processing target
    filed := (state.find .processing name).toList ++ state.filed
    phase }

end State

/-- One step of `_requeue`. -/
def requeueOne (state : State) (name : String) (rest : List String)
    (counts fresh : List (String × Nat)) : State :=
  if maxRequeues < countOf counts name + 1 then
    state.file name .failed (.recovering rest counts fresh)
  else
    { state with
      files := move state.files name .processing .inbox
      phase := .recovering rest counts (Assoc.set fresh name (countOf counts name + 1)) }

/-- One operation; `none` where it cannot happen. -/
def step (event : Event) (state : State) : Option State :=
  match event, state.phase with
  | .submit name, _ =>
      some { state with
        files := fun place => if place = .inbox then
          Assoc.set (state.files .inbox) name state.submissions else state.files place
        submissions := state.submissions + 1 }
  | .locate name, _ =>
      match state.locate name with
      | none => some state
      | some brief => some { state with
          located := (name, brief) :: state.located
          asked := brief :: state.asked }
  | .drop name brief, _ =>
      if (name, brief) ∈ state.located then
        some { state with
          located := state.located.erase (name, brief)
          markers := Assoc.set state.markers name brief }
      else none
  | .boot, .down =>
      some { state with
        phase := .recovering (sorted ((Assoc.keys (state.files .processing)).filter isJson))
          state.counts [] }
  | .requeue, .recovering (name :: rest) counts fresh => some (requeueOne state name rest counts fresh)
  | .save, .recovering [] _ fresh => some { state with counts := fresh, phase := .idle }
  | .claim name, .idle =>
      if (state.find .inbox name).isSome ∧ isJson name = true then
        some { state with files := move state.files name .inbox .processing, phase := .claimed name }
      else none
  | .malformed, .claimed name => some (state.file name .failed .idle)
  | .check, .claimed name =>
      some { state with
        phase := if state.requested name then .sealing name .queued else .running name false }
  | .notice, .running name _ =>
      if state.requested name then some { state with phase := .running name true } else none
  | .raise, .running name _ =>
      some { state with
        phase := if state.requested name then .sealing name .running else .failing name }
  | .fail, .failing name => some (state.file name .failed .idle)
  | .halt, .running name _ => some { state with phase := .sealing name .runtimeStopped }
  | .finish, .running name true => some { state with phase := .sealing name .running }
  | .finish, .running name false => some { (state.unmark name) with phase := .finishing name }
  | .file, .finishing name => some (state.file name .done .idle)
  | .keep, .finishing _ => some { state with phase := .idle }
  | .cancel, .sealing name stage =>
      some { (state.file name .cancelled (.sealed name stage)) with
        cancelled := (state.find .processing name).toList.map (fun brief => (brief, stage)) ++
          state.cancelled }
  | .unlink, .sealed name stage =>
      some { (state.unmark name) with
        phase := if stage = .runtimeStopped then .down else .idle }
  | .crash, .down => none
  | .crash, _ => some { state with phase := .down }
  | _, _ => none

/-- A session before its first boot. -/
def fresh : State := ⟨fun _ => [], [], [], .down, [], 0, [], [], []⟩

abbrev run : State → List Event → Option State := Schedule.run step

/-- A brief is cancelled only on request, and no marker names a brief that was filed, but
while the runtime is about to remove it. -/
structure Exact (state : State) : Prop where
  asked : ∀ brief stage, (brief, stage) ∈ state.cancelled → stage ≠ .runtimeStopped →
    brief ∈ state.asked
  cleared : ∀ name brief, Assoc.get? state.markers name = some brief →
    (∃ stage, state.phase = .sealed name stage) ∨ brief ∉ state.filed

/-- A submission replaces no queued brief that has a marker, a marker is dropped while it
reaches the brief that its request found, a claim replaces no claimed brief that has a marker,
a brief that is filed otherwise than as cancelled has none, and the runtime does not die
between the two operations of a cancellation. -/
def Careful (event : Event) (state : State) : Prop :=
  match event, state.phase with
  | .submit name, _ => state.find .inbox name = none ∨ state.requested name = false
  | .drop name brief, _ => state.aim name = some brief
  | .claim name, _ => state.find .processing name = none ∨ state.requested name = false
  | .requeue, .recovering (name :: _) counts _ =>
      countOf counts name + 1 ≤ maxRequeues ∨ state.requested name = false
  | .malformed, .claimed name => state.requested name = false
  | .fail, .failing name => state.requested name = false
  | .file, .finishing name => state.requested name = false
  | .crash, .sealed name _ => state.requested name = false ∨
      Assoc.get? state.markers name = state.aim name
  | _, _ => True

theorem get?_move {files : Briefs} {name : String} {source target : Place} {brief : Nat}
    (found : Assoc.get? (files source) name = some brief) (place : Place) (other : String) :
    Assoc.get? (move files name source target place) other =
      if other = name ∧ place = target then some brief
      else if other = name ∧ place = source then none
      else Assoc.get? (files place) other := by
  rw [move, found]
  simp only []
  by_cases there : place = target
  · rw [if_pos there, Assoc.get?_set]
    by_cases same : other = name
    · rw [if_pos same.symm, if_pos ⟨same, there⟩]
    · rw [if_neg (Ne.symm same), if_neg (fun both => same both.1), if_neg (fun both => same both.1), there]
  · have outside : ¬ (other = name ∧ place = target) := fun both => there both.2
    rw [if_neg there, if_neg outside]
    by_cases here : place = source
    · rw [if_pos here, Assoc.get?_filter_ne]
      by_cases same : other = name
      · rw [if_pos same, if_pos ⟨same, here⟩]
      · rw [if_neg same, if_neg (fun both => same both.1), here]
    · have away : ¬ (other = name ∧ place = source) := fun both => here both.2
      rw [if_neg here, if_neg away]

def Live (place : Place) : Prop := place = .inbox ∨ place = .processing

/-- The numbers of live briefs are theirs alone, and no filed brief is live. -/
structure Tracked (files : Briefs) (submissions : Nat) (filed : List Nat) : Prop where
  numbered : ∀ place name brief, Live place → Assoc.get? (files place) name = some brief →
    brief < submissions
  one : ∀ place other name name_ brief, Live place → Live other →
    Assoc.get? (files place) name = some brief → Assoc.get? (files other) name_ = some brief →
      place = other ∧ name = name_
  unfiled : ∀ brief ∈ filed, brief < submissions ∧ ∀ place name, Live place →
    Assoc.get? (files place) name ≠ some brief

section

variable {files : Briefs} {submissions : Nat} {filed : List Nat} {name : String} {brief : Nat}

theorem Tracked.submit (tracked : Tracked files submissions filed) (name : String) :
    Tracked (fun place => if place = .inbox then Assoc.set (files .inbox) name submissions
      else files place) (submissions + 1) filed := by
  have found : ∀ place other, Assoc.get? (if place = .inbox then
      Assoc.set (files .inbox) name submissions else files place) other =
        if other = name ∧ place = .inbox then some submissions else Assoc.get? (files place) other := by
    intro place other
    by_cases here : place = .inbox
    · rw [if_pos here, Assoc.get?_set]
      by_cases same : name = other
      · rw [if_pos same, if_pos ⟨same.symm, here⟩]
      · rw [if_neg same, if_neg (fun both => same both.1.symm), here]
    · rw [if_neg here, if_neg (fun both => here both.2)]
  refine ⟨?_, ?_, ?_⟩
  · intro place other brief live held
    rw [found] at held
    split at held
    · rw [← Option.some.inj held]
      exact Nat.lt_succ_self _
    · exact Nat.lt_succ_of_lt (tracked.numbered place other brief live held)
  · intro place place_ other other_ brief live live_ held held_
    rw [found] at held held_
    split at held <;> split at held_
    · rename_i new new_
      exact ⟨new.2.trans new_.2.symm, new.1.trans new_.1.symm⟩
    · have old := tracked.numbered place_ other_ brief live_ held_
      rw [← Option.some.inj held] at old
      exact absurd old (lt_irrefl _)
    · have old := tracked.numbered place other brief live held
      rw [← Option.some.inj held_] at old
      exact absurd old (lt_irrefl _)
    · exact tracked.one place place_ other other_ brief live live_ held held_
  · intro brief mem
    rcases tracked.unfiled brief mem with ⟨below, absent⟩
    refine ⟨Nat.lt_succ_of_lt below, fun place other live held => ?_⟩
    rw [found] at held
    split at held
    · rw [Option.some.inj held] at below
      exact absurd below (lt_irrefl _)
    · exact absent place other live held

theorem Tracked.rename (tracked : Tracked files submissions filed) {source target : Place}
    (live : Live source) (found : Assoc.get? (files source) name = some brief) :
    Tracked (move files name source target) submissions filed := by
  refine ⟨?_, ?_, ?_⟩
  · intro place other number live_ held
    rw [get?_move found] at held
    split at held
    · rw [← Option.some.inj held]
      exact tracked.numbered source name brief live found
    · split at held
      · cases held
      · exact tracked.numbered place other number live_ held
  · intro place place_ other other_ number first second held held_
    rw [get?_move found] at held held_
    split at held <;> split at held_
    · rename_i here here_
      exact ⟨here.2.trans here_.2.symm, here.1.trans here_.1.symm⟩
    · split at held_
      · cases held_
      · rename_i away
        rw [← Option.some.inj held] at held_
        have same := tracked.one source place_ name other_ brief live second found held_
        exact absurd ⟨same.2.symm, same.1.symm⟩ away
    · split at held
      · cases held
      · rename_i away
        rw [← Option.some.inj held_] at held
        have same := tracked.one source place name other brief live first found held
        exact absurd ⟨same.2.symm, same.1.symm⟩ away
    · split at held
      · cases held
      · split at held_
        · cases held_
        · exact tracked.one place place_ other other_ number first second held held_
  · intro number mem
    rcases tracked.unfiled number mem with ⟨below, absent⟩
    refine ⟨below, fun place other live_ held => ?_⟩
    rw [get?_move found] at held
    split at held
    · rw [Option.some.inj held] at found
      exact absent source name live found
    · split at held
      · cases held
      · exact absent place other live_ held

theorem Tracked.file (tracked : Tracked files submissions filed) {target : Place}
    (away : ¬ Live target) (found : Assoc.get? (files .processing) name = some brief) :
    Tracked (move files name .processing target) submissions (brief :: filed) := by
  have live : Live .processing := Or.inr rfl
  have moved : Tracked (move files name .processing target) submissions filed :=
    tracked.rename live found
  refine ⟨moved.numbered, moved.one, ?_⟩
  intro number mem
  rcases List.mem_cons.mp mem with rfl | earlier
  · refine ⟨tracked.numbered .processing name number live found, fun place other live_ held => ?_⟩
    rw [get?_move found] at held
    split at held
    · rename_i here
      rw [here.2] at live_
      exact away live_
    · split at held
      · cases held
      · rename_i elsewhere
        have same := tracked.one .processing place name other number live live_ found held
        exact elsewhere ⟨same.2.symm, same.1.symm⟩
  · exact moved.unfiled number earlier

end

theorem get?_move_of_ne {files : Briefs} {name other : String} (apart : other ≠ name)
    (source target place : Place) : Assoc.get? (move files name source target place) other =
      Assoc.get? (files place) other := by
  cases found : Assoc.get? (files source) name with
  | none => rw [move, found]
  | some brief => rw [get?_move found, if_neg (fun both => apart both.1), if_neg (fun both => apart both.1)]

theorem aim_congr {state next : State} {name : String}
    (same : ∀ place, next.find place name = state.find place name) : next.aim name = state.aim name := by
  rw [State.aim, State.aim, same, same]

/-! ## What a marker reaches -/

def Attached (state : State) : Phase → Prop
  | .running name noticed =>
      noticed = true → ∀ brief, state.find .processing name = some brief → brief ∈ state.asked
  | .sealing name stage =>
      stage ≠ .runtimeStopped → ∀ brief, state.find .processing name = some brief → brief ∈ state.asked
  | _ => True

/-- Every marker reaches the brief that its request found, until that is cancelled. -/
structure Requested (state : State) : Prop where
  aimed : ∀ name brief, Assoc.get? state.markers name = some brief →
    (∃ stage, state.phase = .sealed name stage) ∨ state.aim name = some brief
  marked : ∀ name brief, Assoc.get? state.markers name = some brief → brief ∈ state.asked
  located : ∀ entry ∈ state.located, entry.2 ∈ state.asked
  attached : Attached state state.phase
  cancelled : ∀ brief stage, (brief, stage) ∈ state.cancelled → stage ≠ .runtimeStopped →
    brief ∈ state.asked

section

variable {state : State} {name : String}

theorem not_requested_iff : state.requested name = false ↔ Assoc.get? state.markers name = none := by
  rw [State.requested, ← Bool.not_eq_true, Option.isSome_iff_ne_none, not_not]

def Phase.unsealed : Phase → Prop
  | .sealed _ _ => False
  | _ => True

theorem Requested.aim_eq (requested : Requested state) (unsealed : state.phase.unsealed) {brief : Nat}
    (marker : Assoc.get? state.markers name = some brief) : state.aim name = some brief := by
  rcases requested.aimed name brief marker with ⟨stage, at_⟩ | aim
  · rw [at_] at unsealed
    exact absurd unsealed id
  · exact aim

theorem Requested.asked_of_held (requested : Requested state) (unsealed : state.phase.unsealed)
    (marker : state.requested name = true) {brief : Nat}
    (held : state.find .processing name = some brief) : brief ∈ state.asked := by
  rcases Option.isSome_iff_exists.mp marker with ⟨found, marked⟩
  have aim := requested.aim_eq unsealed marked
  rw [State.aim, held] at aim
  rw [Option.some.inj aim]
  exact requested.marked name found marked

variable {phase : Phase}

theorem Requested.turn (requested : Requested state) (unsealed : state.phase.unsealed)
    (attached : Attached state phase) (counts : List (String × Nat)) :
    Requested { state with phase, counts } where
  aimed := fun _ _ marker => Or.inr (requested.aim_eq unsealed marker)
  marked := requested.marked
  located := requested.located
  attached := by
    cases phase <;> exact attached
  cancelled := requested.cancelled

theorem Requested.moved (requested : Requested state) (unsealed : state.phase.unsealed)
    (unmarked : state.requested name = false) (source target : Place)
    (attached : ∀ next : State, Attached next phase) (filed : List Nat) :
    Requested { state with files := move state.files name source target, filed, phase } where
  aimed := by
    intro other brief marker
    have apart : other ≠ name := by
      rintro rfl
      rw [not_requested_iff.mp unmarked] at marker
      cases marker
    right
    rw [← requested.aim_eq unsealed marker]
    exact aim_congr (fun place => get?_move_of_ne apart source target place)
  marked := requested.marked
  located := requested.located
  attached := attached _
  cancelled := requested.cancelled

theorem Requested.requeued (requested : Requested state) (unsealed : state.phase.unsealed)
    (attached : ∀ next : State, Attached next phase) :
    Requested { state with files := move state.files name .processing .inbox, phase } where
  aimed := by
    intro other brief marker
    right
    rw [← requested.aim_eq unsealed marker]
    by_cases same : other = name
    · cases held : Assoc.get? (state.files .processing) name with
      | none =>
          have still : move state.files name .processing .inbox = state.files := by
            rw [move, held]
          simp only [State.aim, State.find, still]
      | some found =>
          simp only [State.aim, State.find, get?_move held, same, true_and, if_true]
          rw [if_neg Place.noConfusion, held]
          rfl
    · exact aim_congr (fun place => get?_move_of_ne same .processing .inbox place)
  marked := requested.marked
  located := requested.located
  attached := attached _
  cancelled := requested.cancelled

theorem Requested.claim (requested : Requested state) (unsealed : state.phase.unsealed)
    (here : (state.find .inbox name).isSome = true)
    (alone : state.find .processing name = none ∨ state.requested name = false) :
    Requested { state with files := move state.files name .inbox .processing, phase := .claimed name } := by
  rcases alone with empty | unmarked
  · refine ⟨?_, requested.marked, requested.located, trivial, requested.cancelled⟩
    intro other brief marker
    right
    rw [← requested.aim_eq unsealed marker]
    by_cases same : other = name
    · rcases Option.isSome_iff_exists.mp here with ⟨found, held⟩
      have held_ : Assoc.get? (state.files .inbox) name = some found := held
      have empty_ : Assoc.get? (state.files .processing) name = none := empty
      simp only [State.aim, State.find, get?_move held_, same, true_and, if_true]
      rw [empty_, held_]
      rfl
    · exact aim_congr (fun place => get?_move_of_ne same .inbox .processing place)
  · exact requested.moved unsealed unmarked .inbox .processing (by exact fun _ => trivial) state.filed

theorem Requested.submit (requested : Requested state)
    (free : state.find .inbox name = none ∨ state.requested name = false) :
    Requested { state with
      files := fun place => if place = .inbox then
        Assoc.set (state.files .inbox) name state.submissions else state.files place
      submissions := state.submissions + 1 } := by
  refine ⟨?_, requested.marked, requested.located, ?_, requested.cancelled⟩
  · intro other brief marker
    rcases requested.aimed other brief marker with sealed_ | aim
    · exact Or.inl sealed_
    · right
      rw [← aim]
      simp only [State.aim, State.find, if_true]
      rw [if_neg Place.noConfusion, Assoc.get?_set]
      by_cases same : name = other
      · rw [if_pos same]
        rcases free with empty | unmarked
        · rw [State.aim, ← same, empty] at aim
          cases held : state.find .processing name with
          | none =>
              rw [held] at aim
              cases aim
          | some found =>
              have held_ : Assoc.get? (state.files .processing) name = some found := held
              rw [← same, held_]
              rfl
        · rw [← same, not_requested_iff.mp unmarked] at marker
          cases marker
      · rw [if_neg same]
  · have attached := requested.attached
    revert attached
    cases state.phase <;> exact id

theorem get?_unmark (state : State) (name other : String) :
    Assoc.get? (state.unmark name).markers other =
      if other = name then none else Assoc.get? state.markers other :=
  Assoc.get?_filter_ne state.markers name other

theorem Requested.unmark (requested : Requested state)
    (others : ∀ other brief, other ≠ name → Assoc.get? state.markers other = some brief →
      state.aim other = some brief) (attached : ∀ next : State, Attached next phase) :
    Requested { (state.unmark name) with phase } := by
  have kept : ∀ {other brief}, Assoc.get? (state.unmark name).markers other = some brief →
      other ≠ name ∧ Assoc.get? state.markers other = some brief := by
    intro other brief marker
    rw [get?_unmark] at marker
    split at marker
    · cases marker
    · exact ⟨‹_›, marker⟩
  refine ⟨?_, ?_, requested.located, attached _, requested.cancelled⟩
  · intro other brief marker
    exact Or.inr (others other brief (kept marker).1 (kept marker).2)
  · intro other brief marker
    exact requested.marked other brief (kept marker).2

theorem Attached.mono {state next : State} (attached : Attached state phase)
    (files : ∀ name, next.find .processing name = state.find .processing name)
    (asked : state.asked ⊆ next.asked) : Attached next phase := by
  cases phase with
  | running name noticed =>
      intro seen brief held
      rw [files] at held
      exact asked (attached seen brief held)
  | sealing name stage =>
      intro stopped brief held
      rw [files] at held
      exact asked (attached stopped brief held)
  | _ => trivial

theorem Requested.locate (requested : Requested state) (name : String) (brief : Nat) :
    Requested { state with
      located := (name, brief) :: state.located
      asked := brief :: state.asked } where
  aimed := requested.aimed
  marked := fun other found marker => .tail _ (requested.marked other found marker)
  located := by
    intro entry mem
    rcases List.mem_cons.mp mem with rfl | earlier
    · exact .head _
    · exact .tail _ (requested.located entry earlier)
  attached := requested.attached.mono (fun _ => rfl) (List.subset_cons_self _ _)
  cancelled := fun other stage mem stopped =>
    .tail _ (requested.cancelled other stage mem stopped)

theorem Requested.drop (requested : Requested state) {brief : Nat}
    (listed : (name, brief) ∈ state.located) (reaches : state.aim name = some brief) :
    Requested { state with
      located := state.located.erase (name, brief)
      markers := Assoc.set state.markers name brief } where
  aimed := by
    intro other found marker
    rw [Assoc.get?_set] at marker
    split at marker
    · rename_i same
      rw [← same, ← Option.some.inj marker]
      exact Or.inr reaches
    · exact requested.aimed other found marker
  marked := by
    intro other found marker
    rw [Assoc.get?_set] at marker
    split at marker
    · rw [← Option.some.inj marker]
      exact requested.located _ listed
    · exact requested.marked other found marker
  located := fun entry mem => requested.located entry (List.mem_of_mem_erase mem)
  attached := requested.attached.mono (fun _ => rfl) (List.Subset.refl _)
  cancelled := requested.cancelled

theorem Requested.cancel (requested : Requested state) {stage : Stage}
    (at_ : state.phase = .sealing name stage) :
    Requested { (state.file name .cancelled (.sealed name stage)) with
      cancelled := (state.find .processing name).toList.map (fun brief => (brief, stage)) ++
        state.cancelled } where
  aimed := by
    intro other brief marker
    by_cases same : other = name
    · rw [same]
      exact Or.inl ⟨stage, rfl⟩
    · right
      have unsealed : state.phase.unsealed := by
        rw [at_]
        trivial
      rw [← requested.aim_eq unsealed marker]
      exact aim_congr (fun place => get?_move_of_ne same .processing .cancelled place)
  marked := requested.marked
  located := requested.located
  attached := trivial
  cancelled := by
    intro brief stage_ mem stopped
    rcases List.mem_append.mp mem with here | earlier
    · rcases List.mem_map.mp here with ⟨held, found, same⟩
      cases same
      have attached := requested.attached
      rw [at_] at attached
      exact attached stopped brief (Option.mem_toList.mp found)
    · exact requested.cancelled brief stage_ earlier stopped

end

/-! ## Careful runs -/

structure Kept (state : State) : Prop where
  tracked : Tracked state.files state.submissions state.filed
  requested : Requested state

theorem kept_fresh : Kept fresh where
  tracked := ⟨fun _ _ _ _ never => (by cases never),
    fun _ _ _ _ _ _ _ never => (by cases never),
    List.forall_mem_nil _⟩
  requested := ⟨fun _ _ never => (by cases never),
    fun _ _ never => (by cases never), List.forall_mem_nil _,
    trivial, fun _ _ never => absurd never List.not_mem_nil⟩

section

variable {state : State} {name : String}

theorem Tracked.filing (tracked : Tracked state.files state.submissions state.filed) (name : String)
    {target : Place} (away : ¬ Live target) : Tracked (move state.files name .processing target)
      state.submissions ((state.find .processing name).toList ++ state.filed) := by
  cases held : state.find .processing name with
  | none =>
      have held_ : Assoc.get? (state.files .processing) name = none := held
      rw [move, held_]
      exact tracked
  | some brief => exact tracked.file away held

theorem Kept.filed (kept : Kept state) (unsealed : state.phase.unsealed)
    (unmarked : state.requested name = false) {target : Place} (away : ¬ Live target) {phase : Phase}
    (attached : ∀ next : State, Attached next phase) : Kept (state.file name target phase) where
  tracked := kept.tracked.filing name away
  requested := kept.requested.moved unsealed unmarked .processing target attached _

theorem Kept.requeueOne (kept : Kept state) {rest : List String} {counts fresh : List (String × Nat)}
    (unsealed : state.phase.unsealed)
    (careful : countOf counts name + 1 ≤ maxRequeues ∨ state.requested name = false) :
    Kept (requeueOne state name rest counts fresh) := by
  rw [Stops.requeueOne]
  split
  · rename_i spent
    have unmarked := careful.resolve_left (Nat.not_le_of_lt spent)
    exact kept.filed unsealed unmarked (fun live => by rcases live with live | live <;> cases live)
      (fun _ => trivial)
  · refine ⟨?_, kept.requested.requeued unsealed (fun _ => trivial)⟩
    cases held : Assoc.get? (state.files .processing) name with
    | none =>
        have still : move state.files name .processing .inbox = state.files := by
          rw [move, held]
        rw [still]
        exact kept.tracked
    | some brief => exact kept.tracked.rename (Or.inr rfl) held

theorem kept_of_step {event : Event} {next : State} (kept : Kept state) (careful : Careful event state)
    (stepped : step event state = some next) : Kept next := by
  have terminal : ∀ place, place = .failed ∨ place = .done ∨ place = .cancelled → ¬ Live place := by
    rintro place (rfl | rfl | rfl) (never | never) <;> cases never
  have unsealed : ∀ phase, state.phase = phase → phase.unsealed → state.phase.unsealed := by
    intro phase at_ free
    rw [at_]
    exact free
  unfold step at stepped
  split at stepped
  case h_1 name =>
    cases stepped
    exact ⟨kept.tracked.submit name, kept.requested.submit careful⟩
  case h_2 name =>
    split at stepped
    · cases stepped
      exact kept
    · cases stepped
      exact ⟨kept.tracked, kept.requested.locate name _⟩
  case h_3 name brief =>
    rcases Option.ite_none_right_eq_some.mp stepped with ⟨listed, same⟩
    cases same
    exact ⟨kept.tracked, kept.requested.drop listed careful⟩
  case h_4 at_ =>
    cases stepped
    refine ⟨kept.tracked, kept.requested.turn (unsealed _ at_ trivial) ?_ _⟩
    trivial
  case h_5 name rest counts fresh at_ =>
    cases stepped
    simp only [Careful, at_] at careful
    exact kept.requeueOne (unsealed _ at_ trivial) careful
  case h_6 at_ =>
    cases stepped
    refine ⟨kept.tracked, kept.requested.turn (unsealed _ at_ trivial) ?_ _⟩
    trivial
  case h_7 name at_ =>
    rcases Option.ite_none_right_eq_some.mp stepped with ⟨here, same⟩
    cases same
    rcases Option.isSome_iff_exists.mp here.1 with ⟨brief, held⟩
    exact ⟨kept.tracked.rename (Or.inl rfl) held,
      kept.requested.claim (unsealed _ at_ trivial) here.1 careful⟩
  case h_8 name at_ =>
    cases stepped
    simp only [Careful, at_] at careful
    exact kept.filed (unsealed _ at_ trivial) careful (terminal _ (Or.inl rfl)) (fun _ => trivial)
  case h_9 name at_ =>
    cases stepped
    refine ⟨kept.tracked, kept.requested.turn (unsealed _ at_ trivial) ?_ _⟩
    split
    · rename_i marked
      exact fun _ brief held => kept.requested.asked_of_held (unsealed _ at_ trivial) marked held
    · exact nofun
  case h_10 name noticed at_ =>
    rcases Option.ite_none_right_eq_some.mp stepped with ⟨marked, same⟩
    cases same
    refine ⟨kept.tracked, kept.requested.turn (unsealed _ at_ trivial) ?_ _⟩
    exact fun _ brief held => kept.requested.asked_of_held (unsealed _ at_ trivial) marked held
  case h_11 name noticed at_ =>
    cases stepped
    refine ⟨kept.tracked, kept.requested.turn (unsealed _ at_ trivial) ?_ _⟩
    split
    · rename_i marked
      exact fun _ brief held => kept.requested.asked_of_held (unsealed _ at_ trivial) marked held
    · trivial
  case h_12 name at_ =>
    cases stepped
    simp only [Careful, at_] at careful
    exact kept.filed (unsealed _ at_ trivial) careful (terminal _ (Or.inl rfl)) (fun _ => trivial)
  case h_13 name noticed at_ =>
    cases stepped
    refine ⟨kept.tracked, kept.requested.turn (unsealed _ at_ trivial) ?_ _⟩
    exact fun stopped => absurd rfl stopped
  case h_14 name at_ =>
    cases stepped
    have attached := kept.requested.attached
    rw [at_] at attached
    refine ⟨kept.tracked, kept.requested.turn (unsealed _ at_ trivial) ?_ _⟩
    exact fun _ => attached rfl
  case h_15 name at_ =>
    cases stepped
    refine ⟨kept.tracked, kept.requested.unmark ?_ (fun _ => trivial)⟩
    exact fun other brief _ marker => kept.requested.aim_eq (unsealed _ at_ trivial) marker
  case h_16 name at_ =>
    cases stepped
    simp only [Careful, at_] at careful
    exact kept.filed (unsealed _ at_ trivial) careful (terminal _ (Or.inr (Or.inl rfl)))
      (fun _ => trivial)
  case h_17 at_ =>
    cases stepped
    refine ⟨kept.tracked, kept.requested.turn (unsealed _ at_ trivial) ?_ _⟩
    trivial
  case h_18 name stage at_ =>
    cases stepped
    exact ⟨kept.tracked.filing name (terminal _ (Or.inr (Or.inr rfl))), kept.requested.cancel at_⟩
  case h_19 name stage at_ =>
    cases stepped
    refine ⟨kept.tracked, kept.requested.unmark ?_ ?_⟩
    · intro other brief apart marker
      rcases kept.requested.aimed other brief marker with ⟨stage_, here⟩ | aim
      · rw [at_] at here
        cases here
        exact absurd rfl apart
      · exact aim
    · intro next
      split <;> trivial
  case h_20 => cases stepped
  case h_21 up =>
    cases stepped
    refine ⟨kept.tracked, ?_, kept.requested.marked, kept.requested.located, trivial,
      kept.requested.cancelled⟩
    intro other brief marker
    right
    rcases kept.requested.aimed other brief marker with ⟨stage, here⟩ | aim
    · simp only [Careful, here] at careful
      rcases careful with unmarked | reaches
      · rw [not_requested_iff.mp unmarked] at marker
        cases marker
      · exact reaches.symm.trans marker
    · exact aim
  case h_22 => cases stepped

theorem Kept.exact_ (kept : Kept state) : Exact state where
  asked := kept.requested.cancelled
  cleared := by
    intro name brief marker
    rcases kept.requested.aimed name brief marker with sealed_ | aim
    · exact Or.inl sealed_
    · right
      intro listed
      have absent := (kept.tracked.unfiled brief listed).2
      rw [State.aim] at aim
      cases held : state.find .processing name with
      | some found =>
          rw [held] at aim
          exact absent .processing name (Or.inr rfl) (held.trans aim)
      | none =>
          rw [held] at aim
          exact absent .inbox name (Or.inl rfl) aim

end

/-- In a careful run a stop request hits the brief that it found, at any time. -/
theorem stops_exact {events : List Event} {state : State}
    (careful : Schedule.Admitted step Careful fresh events) (ran : run fresh events = some state) :
    Exact state :=
  (Schedule.invariant_of_admitted (fun _ _ _ kept admitted stepped =>
    kept_of_step kept admitted stepped) kept_fresh careful ran).exact_

instance decidableCareful (event : Event) (state : State) : Decidable (Careful event state) := by
  unfold Careful
  split <;> infer_instance

/-- A brief that is stopped on request, and another that is done. -/
def stoppedOne : List Event := [.boot, .save, .submit "a.json", .locate "a.json", .drop "a.json" 0,
  .claim "a.json", .check, .cancel, .unlink, .submit "b.json", .claim "b.json", .check, .finish, .file]

theorem stops_exact_stoppedOne : ∃ state, run fresh stoppedOne = some state ∧ Exact state := by
  have careful : Schedule.Admitted step Careful fresh stoppedOne := by decide +kernel
  have runs : (run fresh stoppedOne).isSome = true := by decide +kernel
  rcases Option.isSome_iff_exists.mp runs with ⟨state, ran⟩
  exact ⟨state, ran, stops_exact careful ran⟩

/-- A request finds its brief while that runs, and drops its marker after the brief is done;
then the name is used again. -/
def stoppedOther : List Event := [.boot, .save, .submit "a.json", .claim "a.json", .check,
  .locate "a.json", .finish, .file, .drop "a.json" 0, .submit "a.json", .claim "a.json", .check,
  .cancel, .unlink]

/-- The second brief is cancelled, which nobody asked for. -/
theorem stoppedOther_inexact : ∃ state, run fresh stoppedOther = some state ∧
    state.cancelled = [(1, .queued)] ∧ state.asked = [0] ∧ ¬ Exact state := by
  have runs : ((run fresh stoppedOther).map (fun state => (state.cancelled, state.asked))) =
      some ([(1, .queued)], [0]) := by decide +kernel
  rcases Option.map_eq_some_iff.mp runs with ⟨state, ran, same⟩
  rcases Prod.mk.inj same with ⟨cancelled, asked⟩
  refine ⟨state, ran, cancelled, asked, fun exact_ => ?_⟩
  have requested := exact_.asked 1 .queued (by rw [cancelled]; exact List.mem_cons_self)
    (fun impossible => by cases impossible)
  rw [asked] at requested
  exact absurd requested (by decide)

end Stops

end Runtime
end PhysicalHarness
