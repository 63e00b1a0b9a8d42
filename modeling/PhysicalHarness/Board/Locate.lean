import PhysicalHarness.Runtime.Intake

namespace PhysicalHarness
namespace Board

open PhysicalHarness.Runtime

/-!
# Where a brief is

The board reads the state of a brief back from the directory that holds it.  It looks at the
five directories one after another, and the runtime may rename the brief between any two
looks.  A scan is told apart from a snapshot here: it sees the brief at five moments, and
all that is known is that the runtime's renames lead from each of them to the next.
-/

inductive Move where
  | claim
  | file (ending : Ending)
  | requeue
  | poison
  deriving DecidableEq, Repr

namespace Move

/-- The rename, and `none` where the brief is not in its source. -/
def step : Move → Place → Option Place
  | .claim, .inbox => some .processing
  | .file ending, .processing => some ending.place
  | .requeue, .processing => some .inbox
  | .poison, .processing => some .failed
  | _, _ => none

end Move

/-- Some renames lead from one directory to the other. -/
def Reaches (source target : Place) : Prop :=
  ∃ moves, Schedule.run Move.step source moves = some target

theorem Reaches.refl (place : Place) : Reaches place place := ⟨[], rfl⟩

theorem Reaches.single {source target : Place} (move : Move)
    (stepped : move.step source = some target) : Reaches source target :=
  ⟨[move], by rw [Schedule.run, stepped]; rfl⟩

theorem Reaches.filed {ending : Ending} {target : Place} (reaches : Reaches ending.place target) :
    target = ending.place := by
  rcases reaches with ⟨moves, ran⟩
  cases moves with
  | nil => exact (Option.some.inj ran).symm
  | cons move rest => cases ending <;> cases move <;> cases ran

theorem Reaches.trans {source middle target : Place} (first : Reaches source middle)
    (second : Reaches middle target) : Reaches source target := by
  rcases first with ⟨moves, ran⟩
  induction moves generalizing source with
  | nil =>
      cases ran
      exact second
  | cons move rest ih =>
      rcases Option.bind_eq_some_iff.mp ran with ⟨next, stepped, later⟩
      rcases ih later with ⟨more, ran_⟩
      exact ⟨move :: more, by rw [Schedule.run, stepped]; exact ran_⟩

section

variable {state last : State} {name : String} {place place_ : Place}

theorem reaches_rename (tracked : Tracked state) {renamed : String} {source target : Place}
    (here : renamed ∈ state.disk.files source) (move : Move) (stepped : move.step source = some target)
    (before : name ∈ state.disk.files place)
    (after : name ∈ (state.disk.rename renamed source target).files place_) : Reaches place place_ := by
  by_cases same : name = renamed
  · subst same
    have only := fun other mem => tracked.one name other source mem here
    rw [only place before, (mem_rename_self only target place_).mp after]
    exact .single move stepped
  · rw [tracked.one name place place_ before ((mem_rename_of_ne same source target place_).mp after)]
    exact .refl place_

theorem reaches_of_moves {event : Event} (tracked : Tracked state) (moves : Moves state event last)
    (before : name ∈ state.disk.files place) (after : name ∈ last.disk.files place_) :
    Reaches place place_ := by
  have attached := tracked.attached
  have stays : name ∈ state.disk.files place_ → Reaches place place_ := by
    intro still
    rw [tracked.one name place place_ before still]
    exact .refl place_
  cases moves with
  | submit fresh new =>
      have different : name ≠ fresh := fun same => new (same ▸ tracked.known name place before)
      change name ∈ (if place_ = .inbox then fresh :: state.disk.files .inbox
        else state.disk.files place_) at after
      by_cases here : place_ = .inbox
      · rw [if_pos here] at after
        exact stays (here ▸ List.mem_of_ne_of_mem different after)
      · rw [if_neg here] at after
        exact stays after
  | poison at_ spent =>
      rw [at_] at attached
      exact reaches_rename tracked (attached.2 _ (.head _)) .poison rfl before after
  | requeue at_ left =>
      rw [at_] at attached
      exact reaches_rename tracked (attached.2 _ (.head _)) .requeue rfl before after
  | claim fresh idle here brief => exact reaches_rename tracked here .claim rfl before after
  | file ending at_ unmarked =>
      rw [at_] at attached
      exact reaches_rename tracked attached (.file ending) rfl before after
  | _ => exact stays after

theorem submitted_of_moves {event : Event} (moves : Moves state event last)
    (listed : name ∈ state.submitted) : name ∈ last.submitted := by
  cases moves with
  | submit => exact .tail _ listed
  | _ => exact listed

theorem reaches_of_run (tracked : Tracked state) {events : List Event} (ran : run state events = some last)
    (before : name ∈ state.disk.files place) (after : name ∈ last.disk.files place_) :
    Tracked last ∧ Reaches place place_ := by
  induction events generalizing state place with
  | nil =>
      cases ran
      rw [tracked.one name place place_ before after]
      exact ⟨tracked, .refl place_⟩
  | cons event rest ih =>
      rcases Option.bind_eq_some_iff.mp ran with ⟨next, stepped, later⟩
      have moves := moves_of_step stepped
      have listed := submitted_of_moves moves (tracked.known name place before)
      rcases (tracked.moves moves).held name listed with ⟨middle, here⟩
      rcases ih (tracked.moves moves) later here with ⟨tracked_, reaches⟩
      exact ⟨tracked_, (reaches_of_moves tracked moves before here).trans reaches⟩

end

/-! ## The scan -/

inductive BriefState where
  | queued
  | running
  | done
  | failed
  | cancelled
  | unknown
  deriving DecidableEq, Repr

/-- `_BRIEF_DIRS`. -/
def briefDirs : List (Place × BriefState) :=
  [(.inbox, .queued), (.processing, .running), (.done, .done), (.failed, .failed),
    (.cancelled, .cancelled)]

/-- `_BRIEF_TERMINAL`. -/
def briefTerminal : List BriefState := [.done, .failed, .cancelled, .unknown]

/-- The names that `safe_child` does not refuse. -/
def safeName (name : String) : Bool :=
  !(name.toList.isEmpty || name.toList.contains '/' || name.toList.contains '\\' ||
    name.toList.head? == some '.')

/-- `_brief_locate`; `seen` tells where the brief is when a directory is looked at. -/
def briefLocate (name : String) (seen : Place → Place) : BriefState :=
  match briefDirs.find? (fun directory => safeName name && decide (seen directory.1 = directory.1)) with
  | some directory => directory.2
  | none => .unknown

/-- The five looks in their order, with renames between them. -/
structure Interleaved (seen : Place → Place) : Prop where
  inbox : Reaches (seen .inbox) (seen .processing)
  processing : Reaches (seen .processing) (seen .done)
  done : Reaches (seen .done) (seen .failed)
  failed : Reaches (seen .failed) (seen .cancelled)

/-- The reply of `cancel_brief`, and whether it drops the marker. -/
structure CancelReply where
  state : BriefState
  requested : Bool
  error : Option String
  deriving DecidableEq, Repr

def BriefState.text : BriefState → String
  | .queued => "queued"
  | .running => "running"
  | .done => "done"
  | .failed => "failed"
  | .cancelled => "cancelled"
  | .unknown => "unknown"

def cancelBrief (name : String) (seen : Place → Place) : CancelReply :=
  let state := briefLocate name seen
  if state = .unknown then ⟨state, false, some "unknown brief"⟩
  else if state ∈ briefTerminal then
    ⟨state, false, some ("already " ++ state.text ++ "; nothing to cancel")⟩
  else ⟨state, true, none⟩

/-- The brief was claimed when the inbox was looked at, and a boot has put it back by the
time the claimed ones are; what becomes of it later is filed behind the scan. -/
def Overtaken (seen : Place → Place) : Prop :=
  seen .inbox = .processing ∧ seen .processing = .inbox ∧ seen .done ≠ .done ∧
    seen .failed ≠ .failed ∧ seen .cancelled ≠ .cancelled

theorem briefLocate_eq_unknown_iff (name : String) (seen : Place → Place) :
    briefLocate name seen = .unknown ↔ (safeName name = true → ∀ place, seen place ≠ place) := by
  have found : ∀ place, ∃ directory ∈ briefDirs, directory.1 = place := by
    intro place
    cases place <;> decide
  have named : ∀ directory ∈ briefDirs, directory.2 ≠ .unknown := by decide
  rw [briefLocate]
  cases at_ : briefDirs.find? (fun directory =>
      safeName name && decide (seen directory.1 = directory.1)) with
  | none =>
      refine ⟨fun _ safe place here => ?_, fun _ => rfl⟩
      rcases found place with ⟨directory, mem, same⟩
      have missed := List.find?_eq_none.mp at_ directory mem
      rw [safe, Bool.true_and, decide_eq_true_eq, same] at missed
      exact missed here
  | some directory =>
      have here := List.find?_some at_
      rw [Bool.and_eq_true, decide_eq_true_eq] at here
      exact ⟨fun unknown => absurd unknown (named directory (List.mem_of_find?_eq_some at_)),
        fun missed => absurd here.2 (missed here.1 directory.1)⟩

theorem cancelBrief_error_iff (name : String) (seen : Place → Place) :
    (cancelBrief name seen).error = some "unknown brief" ↔ briefLocate name seen = .unknown := by
  rw [cancelBrief]
  generalize briefLocate name seen = state
  cases state <;> decide

namespace Interleaved

variable {seen : Place → Place}

theorem filed (interleaved : Interleaved seen) {ending : Ending}
    (early : seen .inbox = ending.place ∨ seen .processing = ending.place) :
    seen ending.place = ending.place := by
  have second : seen .processing = ending.place := by
    rcases early with first | second
    · have reaches := interleaved.inbox
      rw [first] at reaches
      exact reaches.filed
    · exact second
  have third : seen .done = ending.place := by
    have reaches := interleaved.processing
    rw [second] at reaches
    exact reaches.filed
  have fourth : seen .failed = ending.place := by
    have reaches := interleaved.done
    rw [third] at reaches
    exact reaches.filed
  cases ending with
  | done => exact third
  | failed => exact fourth
  | cancelled =>
      have reaches := interleaved.failed
      rw [fourth] at reaches
      exact reaches.filed

theorem overtaken_iff (interleaved : Interleaved seen) :
    (∀ place, seen place ≠ place) ↔ Overtaken seen := by
  constructor
  · intro missed
    have unfiled : ∀ ending : Ending, seen .inbox ≠ ending.place ∧ seen .processing ≠ ending.place := by
      intro ending
      exact ⟨fun first => missed ending.place (interleaved.filed (.inl first)),
        fun second => missed ending.place (interleaved.filed (.inr second))⟩
    refine ⟨?_, ?_, missed .done, missed .failed, missed .cancelled⟩
    · cases at_ : seen .inbox with
      | inbox => exact absurd at_ (missed .inbox)
      | processing => rfl
      | done => exact absurd at_ (unfiled .done).1
      | failed => exact absurd at_ (unfiled .failed).1
      | cancelled => exact absurd at_ (unfiled .cancelled).1
    · cases at_ : seen .processing with
      | inbox => rfl
      | processing => exact absurd at_ (missed .processing)
      | done => exact absurd at_ (unfiled .done).2
      | failed => exact absurd at_ (unfiled .failed).2
      | cancelled => exact absurd at_ (unfiled .cancelled).2
  · intro overtaken place
    rcases overtaken with ⟨first, second, third, fourth, fifth⟩
    cases place with
    | inbox => exact fun here => absurd (first.symm.trans here) Place.noConfusion
    | processing => exact fun here => absurd (second.symm.trans here) Place.noConfusion
    | done => exact third
    | failed => exact fourth
    | cancelled => exact fifth

end Interleaved

/-- A brief is located, and its cancellation is not refused as that of an unknown one,
exactly when its name is one that the board looks up and no boot overtakes the scan. -/
theorem located_iff (name : String) {seen : Place → Place} (interleaved : Interleaved seen) :
    (briefLocate name seen ≠ .unknown ∧ (cancelBrief name seen).error ≠ some "unknown brief") ↔
      safeName name = true ∧ ¬Overtaken seen := by
  rw [Ne, Ne, cancelBrief_error_iff, and_self, briefLocate_eq_unknown_iff, interleaved.overtaken_iff,
    Classical.not_imp]

theorem located_iff_waiting : (briefLocate "go.json" (fun _ => .inbox) ≠ .unknown ∧
    (cancelBrief "go.json" (fun _ => .inbox)).error ≠ some "unknown brief") ↔
      safeName "go.json" = true ∧ ¬Overtaken (fun _ => .inbox) :=
  located_iff "go.json" ⟨.refl _, .refl _, .refl _, .refl _⟩

/-- The five looks fall on moments of one run of the runtime. -/
structure Looks (at_ : Place → State) : Prop where
  inbox : ∃ events, run fresh events = some (at_ .inbox)
  processing : ∃ events, run (at_ .inbox) events = some (at_ .processing)
  done : ∃ events, run (at_ .processing) events = some (at_ .done)
  failed : ∃ events, run (at_ .done) events = some (at_ .failed)
  cancelled : ∃ events, run (at_ .failed) events = some (at_ .cancelled)

/-- Whatever the runtime does during a scan, only a boot that overtakes it hides a brief. -/
theorem located_of_run {name : String} {at_ : Place → State} {seen : Place → Place}
    (safe : safeName name = true) (looks : Looks at_)
    (here : ∀ place, name ∈ (at_ place).disk.files (seen place)) :
    briefLocate name seen ≠ .unknown ↔ ¬Overtaken seen := by
  rcases looks with ⟨⟨_, began⟩, ⟨_, second⟩, ⟨_, third⟩, ⟨_, fourth⟩, ⟨_, fifth⟩⟩
  rcases reaches_of_run (tracked_of_run began) second (here _) (here _) with ⟨tracked, inbox⟩
  rcases reaches_of_run tracked third (here _) (here _) with ⟨tracked, processing⟩
  rcases reaches_of_run tracked fourth (here _) (here _) with ⟨tracked, done⟩
  rcases reaches_of_run tracked fifth (here _) (here _) with ⟨_, failed⟩
  have interleaved : Interleaved seen := ⟨inbox, processing, done, failed⟩
  rw [Ne, briefLocate_eq_unknown_iff, forall_prop_of_true safe, interleaved.overtaken_iff]

theorem located_of_run_waiting :
    briefLocate "go.json" (fun _ => .inbox) ≠ .unknown ↔ ¬Overtaken (fun _ => .inbox) :=
  @located_of_run "go.json" (fun _ => ⟨fresh.disk.submit "go.json", .down, ["go.json"], []⟩) _ (by decide)
    ⟨⟨[.submit "go.json"], rfl⟩, ⟨[], rfl⟩, ⟨[], rfl⟩, ⟨[], rfl⟩, ⟨[], rfl⟩⟩ (fun _ => .head _)

/-- Claimed at the first look, back in the inbox at the others. -/
def recovered : Place → Place
  | .inbox => .processing
  | _ => .inbox

theorem recovered_brief_unknown : Interleaved recovered ∧ briefLocate "go.json" recovered = .unknown ∧
    cancelBrief "go.json" recovered = ⟨.unknown, false, some "unknown brief"⟩ :=
  ⟨⟨.single .requeue rfl, .refl _, .refl _, .refl _⟩, by decide +kernel, by decide +kernel⟩

end Board
end PhysicalHarness
