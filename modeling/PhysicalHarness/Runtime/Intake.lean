import PhysicalHarness.Lib.Schedule
import PhysicalHarness.Python.Value

namespace PhysicalHarness
namespace Runtime

open Python

/-!
# The intake of the resident runtime

A brief is a file, and the directory it is in is its state.  The runtime claims it by a
rename, runs it, and files it by another.  A runtime that dies leaves its brief claimed,
and the next boot moves it back, a bounded number of times by a count that it keeps in a
side file.  The process may die between any two operations on files.
-/

/-- The directories of the intake. -/
inductive Place where
  | inbox
  | processing
  | done
  | failed
  | cancelled
  deriving DecidableEq, Repr

inductive Ending where
  | done
  | failed
  | cancelled
  deriving DecidableEq, Repr

def Ending.place : Ending → Place
  | .done => .done
  | .failed => .failed
  | .cancelled => .cancelled

/-- The directories, `requeue.json`, which an absent file has empty, and the pgid
markers; a marker that was created and not written has no number. -/
structure Disk where
  files : Place → List String
  counts : List (String × Nat)
  markers : List (String × Option Nat)

/-- `os.replace(source / name, target / name)`. -/
def Disk.rename (disk : Disk) (name : String) (source target : Place) : Disk :=
  { disk with
    files := fun place =>
      if place = target then name :: (disk.files target).filter (fun other => decide (other ≠ name))
      else if place = source then (disk.files source).filter (fun other => decide (other ≠ name))
      else disk.files place }

def Disk.submit (disk : Disk) (name : String) : Disk :=
  { disk with
    files := fun place => if place = .inbox then name :: disk.files .inbox else disk.files place }

/-- `marker.unlink(missing_ok=True)`. -/
def Disk.unmark (disk : Disk) (name : String) : Disk :=
  { disk with markers := disk.markers.filter (fun marker => decide (marker.1 ≠ name)) }

/-- The names that `glob("*.json")` finds. -/
def isJson (name : String) : Bool := name.endsWith ".json"

/-! ## The process -/

/-- `_MAX_REQUEUES`. -/
def maxRequeues : Nat := 2

inductive Phase where
  | down
  /-- `_requeue` at the first of the stranded briefs, whose orphan is reaped or not. -/
  | recovering (stranded : List String) (reaped : Bool) (counts fresh : List (String × Nat))
  | idle
  | holding (name : String)
  deriving DecidableEq

/-- The disk, the process, and the briefs that were submitted and claimed so far. -/
structure State where
  disk : Disk
  phase : Phase
  submitted : List String
  claimed : List String

/-- How often a brief was claimed. -/
def State.claims (state : State) (name : String) : Nat := state.claimed.count name

inductive Event where
  | submit (name : String)
  | boot
  | reap
  | requeue
  | save
  | claim (name : String)
  | openMarker
  | writeMarker (pgid : Nat)
  | dropMarker
  | file (ending : Ending)
  /-- The last rename fails, and the brief stays claimed. -/
  | keep
  | crash
  deriving DecidableEq, Repr

/-- `counts.get(name, 0)`. -/
def countOf (counts : List (String × Nat)) (name : String) : Nat := (Assoc.get? counts name).getD 0

/-- One step of `_requeue` on a reaped brief. -/
def requeueOne (state : State) (name : String) (rest : List String)
    (counts fresh : List (String × Nat)) : State :=
  if maxRequeues < countOf counts name + 1 then
    { state with
      disk := state.disk.rename name .processing .failed
      phase := .recovering rest false counts fresh }
  else
    { state with
      disk := state.disk.rename name .processing .inbox
      phase := .recovering rest false counts (Assoc.set fresh name (countOf counts name + 1)) }

/-- `_reap_orphan`; a marker without a number raises, and the boot ends. -/
def reapOne (state : State) (name : String) (rest : List String)
    (counts fresh : List (String × Nat)) : State :=
  match Assoc.get? state.disk.markers name with
  | some none => { state with phase := .down }
  | _ =>
      { state with
        disk := state.disk.unmark name
        phase := .recovering (name :: rest) true counts fresh }

/-- One operation; `none` where it cannot happen. -/
def step (event : Event) (state : State) : Option State :=
  match event, state.phase with
  | .submit name, _ =>
      if name ∈ state.submitted then none
      else some { state with
        disk := state.disk.submit name
        submitted := name :: state.submitted }
  | .boot, .down =>
      some { state with
        phase := .recovering (sorted ((state.disk.files .processing).filter isJson)) false
          state.disk.counts [] }
  | .reap, .recovering (name :: rest) false counts fresh => some (reapOne state name rest counts fresh)
  | .requeue, .recovering (name :: rest) true counts fresh =>
      some (requeueOne state name rest counts fresh)
  | .save, .recovering [] _ _ fresh =>
      some { state with disk := { state.disk with counts := fresh }, phase := .idle }
  | .claim name, .idle =>
      if name ∈ state.disk.files .inbox ∧ isJson name = true then
        some { state with
          disk := state.disk.rename name .inbox .processing
          phase := .holding name
          claimed := name :: state.claimed }
      else none
  | .openMarker, .holding name =>
      some { state with disk := { state.disk with
        markers := Assoc.set state.disk.markers name none } }
  | .writeMarker pgid, .holding name =>
      if Assoc.get? state.disk.markers name = some none then
        some { state with disk := { state.disk with
          markers := Assoc.set state.disk.markers name (some pgid) } }
      else none
  | .dropMarker, .holding name => some { state with disk := state.disk.unmark name }
  | .file ending, .holding name =>
      if name ∈ Assoc.keys state.disk.markers then none
      else some { state with
        disk := state.disk.rename name .processing ending.place
        phase := .idle }
  | .keep, .holding name =>
      if name ∈ Assoc.keys state.disk.markers then none else some { state with phase := .idle }
  | .crash, .down => none
  | .crash, _ => some { state with phase := .down }
  | _, _ => none

/-- A session before its first boot. -/
def fresh : State := ⟨⟨fun _ => [], [], []⟩, .down, [], []⟩

abbrev run : State → List Event → Option State := Schedule.run step

inductive Moves (state : State) : Event → State → Prop
  | submit (name : String) (new : name ∉ state.submitted) :
      Moves state (.submit name)
        { state with disk := state.disk.submit name, submitted := name :: state.submitted }
  | boot (down : state.phase = .down) :
      Moves state .boot { state with
        phase := .recovering (sorted ((state.disk.files .processing).filter isJson)) false
          state.disk.counts [] }
  | raised {name : String} {rest : List String} {counts fresh : List (String × Nat)}
      (at_ : state.phase = .recovering (name :: rest) false counts fresh)
      (empty : Assoc.get? state.disk.markers name = some none) :
      Moves state .reap { state with phase := .down }
  | reap {name : String} {rest : List String} {counts fresh : List (String × Nat)}
      (at_ : state.phase = .recovering (name :: rest) false counts fresh) :
      Moves state .reap { state with
        disk := state.disk.unmark name, phase := .recovering (name :: rest) true counts fresh }
  | poison {name : String} {rest : List String} {counts fresh : List (String × Nat)}
      (at_ : state.phase = .recovering (name :: rest) true counts fresh)
      (spent : maxRequeues < countOf counts name + 1) :
      Moves state .requeue { state with
        disk := state.disk.rename name .processing .failed
        phase := .recovering rest false counts fresh }
  | requeue {name : String} {rest : List String} {counts fresh : List (String × Nat)}
      (at_ : state.phase = .recovering (name :: rest) true counts fresh)
      (left : countOf counts name + 1 ≤ maxRequeues) :
      Moves state .requeue { state with
        disk := state.disk.rename name .processing .inbox
        phase := .recovering rest false counts
          (Assoc.set fresh name (countOf counts name + 1)) }
  | save {reaped : Bool} {counts fresh : List (String × Nat)}
      (at_ : state.phase = .recovering [] reaped counts fresh) :
      Moves state .save { state with disk := { state.disk with counts := fresh }, phase := .idle }
  | claim (name : String) (idle : state.phase = .idle) (here : name ∈ state.disk.files .inbox)
      (brief : isJson name = true) :
      Moves state (.claim name) { state with
        disk := state.disk.rename name .inbox .processing
        phase := .holding name
        claimed := name :: state.claimed }
  | openMarker {name : String} (at_ : state.phase = .holding name) :
      Moves state .openMarker { state with
        disk := { state.disk with markers := Assoc.set state.disk.markers name none } }
  | writeMarker (pgid : Nat) {name : String} (at_ : state.phase = .holding name)
      (opened : Assoc.get? state.disk.markers name = some none) :
      Moves state (.writeMarker pgid) { state with
        disk := { state.disk with markers := Assoc.set state.disk.markers name (some pgid) } }
  | dropMarker {name : String} (at_ : state.phase = .holding name) :
      Moves state .dropMarker { state with disk := state.disk.unmark name }
  | file (ending : Ending) {name : String} (at_ : state.phase = .holding name)
      (unmarked : name ∉ Assoc.keys state.disk.markers) :
      Moves state (.file ending) { state with
        disk := state.disk.rename name .processing ending.place, phase := .idle }
  | keep {name : String} (at_ : state.phase = .holding name)
      (unmarked : name ∉ Assoc.keys state.disk.markers) :
      Moves state .keep { state with phase := .idle }
  | crash (up : state.phase ≠ .down) : Moves state .crash { state with phase := .down }

variable {state next : State} {rest : List String} {source target : Place} {event : Event}

theorem moves_reap {name : String} {counts fresh : List (String × Nat)}
    (at_ : state.phase = .recovering (name :: rest) false counts fresh) :
    Moves state .reap (reapOne state name rest counts fresh) := by
  rw [reapOne]
  split
  · rename_i empty
    exact .raised at_ empty
  · exact .reap at_

theorem moves_requeue {name : String} {counts fresh : List (String × Nat)}
    (at_ : state.phase = .recovering (name :: rest) true counts fresh) :
    Moves state .requeue (requeueOne state name rest counts fresh) := by
  rw [requeueOne]
  by_cases spent : maxRequeues < countOf counts name + 1
  · rw [if_pos spent]
    exact .poison at_ spent
  · rw [if_neg spent]
    exact .requeue at_ (Nat.le_of_not_lt spent)

theorem moves_of_step (stepped : step event state = some next) : Moves state event next := by
  unfold step at stepped
  split at stepped
  case h_1 name =>
    rcases Option.ite_none_left_eq_some.mp stepped with ⟨new, same⟩
    cases same
    exact .submit name new
  case h_2 down =>
    cases stepped
    exact .boot down
  case h_3 at_ =>
    cases stepped
    exact moves_reap at_
  case h_4 at_ =>
    cases stepped
    exact moves_requeue at_
  case h_5 at_ =>
    cases stepped
    exact .save at_
  case h_6 name idle =>
    rcases Option.ite_none_right_eq_some.mp stepped with ⟨here, same⟩
    cases same
    exact .claim name idle here.1 here.2
  case h_7 at_ =>
    cases stepped
    exact .openMarker at_
  case h_8 pgid name at_ =>
    rcases Option.ite_none_right_eq_some.mp stepped with ⟨opened, same⟩
    cases same
    exact .writeMarker pgid at_ opened
  case h_9 at_ =>
    cases stepped
    exact .dropMarker at_
  case h_10 ending name at_ =>
    rcases Option.ite_none_left_eq_some.mp stepped with ⟨unmarked, same⟩
    cases same
    exact .file ending at_ unmarked
  case h_11 at_ =>
    rcases Option.ite_none_left_eq_some.mp stepped with ⟨unmarked, same⟩
    cases same
    exact .keep at_ unmarked
  case h_12 => cases stepped
  case h_13 up =>
    cases stepped
    exact .crash up
  case h_14 => cases stepped

theorem mem_rename_of_ne {disk : Disk} {name other : String} (apart : other ≠ name)
    (source target place : Place) :
    other ∈ (disk.rename name source target).files place ↔ other ∈ disk.files place := by
  have kept : ∀ files : List String,
      other ∈ files.filter (fun other => decide (other ≠ name)) ↔ other ∈ files := by
    intro files
    rw [List.mem_filter, decide_eq_true_eq]
    exact and_iff_left apart
  simp only [Disk.rename]
  by_cases here : place = target
  · rw [if_pos here, List.mem_cons, kept, here]
    exact or_iff_right apart
  · rw [if_neg here]
    by_cases there : place = source
    · rw [if_pos there, kept, there]
    · rw [if_neg there]

theorem mem_rename_self {disk : Disk} {name : String}
    (only : ∀ place, name ∈ disk.files place → place = source) (target place : Place) :
    name ∈ (disk.rename name source target).files place ↔ place = target := by
  simp only [Disk.rename]
  by_cases here : place = target
  · rw [if_pos here]
    exact ⟨fun _ => here, fun _ => .head _⟩
  · rw [if_neg here]
    by_cases there : place = source
    · rw [if_pos there, List.mem_filter, decide_eq_true_eq]
      exact ⟨fun both => absurd rfl both.2, fun same => absurd same here⟩
    · rw [if_neg there]
      exact ⟨fun mem => absurd (only place mem) there, fun same => absurd same here⟩

theorem nodup_rename {disk : Disk} (unique : ∀ place, (disk.files place).Nodup) (name : String)
    (source target place : Place) : ((disk.rename name source target).files place).Nodup := by
  simp only [Disk.rename]
  by_cases here : place = target
  · rw [if_pos here, List.nodup_cons, List.mem_filter, decide_eq_true_eq]
    exact ⟨fun both => both.2 rfl, (unique target).filter _⟩
  · rw [if_neg here]
    by_cases there : place = source
    · rw [if_pos there]
      exact (unique source).filter _
    · rw [if_neg there]
      exact unique place

def Attached (files : List String) : Phase → Prop
  | .holding name => name ∈ files
  | .recovering stranded _ _ _ => stranded.Nodup ∧ ∀ name ∈ stranded, name ∈ files
  | _ => True

/-- Each submitted brief is in one directory, and nothing else is in any. -/
structure Tracked (state : State) : Prop where
  unique : ∀ place, (state.disk.files place).Nodup
  held : ∀ name ∈ state.submitted, ∃ place, name ∈ state.disk.files place
  one : ∀ name place other, name ∈ state.disk.files place → name ∈ state.disk.files other →
    place = other
  known : ∀ name place, name ∈ state.disk.files place → name ∈ state.submitted
  attached : Attached (state.disk.files .processing) state.phase

theorem tracked_fresh : Tracked fresh :=
  ⟨fun _ => List.nodup_nil, List.forall_mem_nil _,
    fun _ _ _ never => absurd never List.not_mem_nil,
    fun _ _ never => absurd never List.not_mem_nil, trivial⟩

theorem Tracked.rename (tracked : Tracked state) {name : String}
    (here : name ∈ state.disk.files source) (target : Place) (phase : Phase)
    (attached : Attached ((state.disk.rename name source target).files .processing) phase)
    (claimed : List String) :
    Tracked { state with disk := state.disk.rename name source target, phase, claimed } := by
  have only : ∀ place, name ∈ state.disk.files place → place = source :=
    fun place mem => tracked.one name place source mem here
  refine ⟨nodup_rename tracked.unique name source target, ?_, ?_, ?_, attached⟩
  · intro other listed
    by_cases same : other = name
    · exact ⟨target, by rw [same, mem_rename_self only]⟩
    · rcases tracked.held other listed with ⟨place, mem⟩
      exact ⟨place, (mem_rename_of_ne same source target place).mpr mem⟩
  · intro other place place_ mem member_
    by_cases same : other = name
    · rw [same, mem_rename_self only] at mem member_
      rw [mem, member_]
    · rw [mem_rename_of_ne same] at mem member_
      exact tracked.one other place place_ mem member_
  · intro other place mem
    by_cases same : other = name
    · rw [same]
      exact tracked.known name source here
    · rw [mem_rename_of_ne same] at mem
      exact tracked.known other place mem

theorem Tracked.same (tracked : Tracked state) (files : next.disk.files = state.disk.files)
    (submitted : next.submitted = state.submitted)
    (attached : Attached (state.disk.files .processing) next.phase) : Tracked next := by
  rcases tracked with ⟨unique, held, one, known, _⟩
  rw [← files] at unique held one known attached
  rw [← submitted] at held known
  exact ⟨unique, held, one, known, attached⟩

theorem Tracked.submit (tracked : Tracked state) {name : String} (new : name ∉ state.submitted) :
    Tracked { state with disk := state.disk.submit name, submitted := name :: state.submitted } := by
  have outside : ∀ place, name ∉ state.disk.files place :=
    fun place mem => new (tracked.known name place mem)
  have found : ∀ other place, other ∈ (state.disk.submit name).files place ↔
      (other = name ∧ place = .inbox) ∨ other ∈ state.disk.files place := by
    intro other place
    simp only [Disk.submit]
    by_cases here : place = .inbox
    · rw [if_pos here, List.mem_cons, here]
      exact or_congr_left ⟨fun same => ⟨same, rfl⟩, And.left⟩
    · rw [if_neg here]
      exact (or_iff_right (fun both => here both.2)).symm
  refine ⟨?_, ?_, ?_, ?_, ?_⟩
  · intro place
    simp only [Disk.submit]
    by_cases here : place = .inbox
    · rw [if_pos here]
      exact List.nodup_cons.mpr ⟨outside .inbox, tracked.unique .inbox⟩
    · rw [if_neg here]
      exact tracked.unique place
  · intro other listed
    rcases List.mem_cons.mp listed with same | earlier
    · exact ⟨.inbox, (found other .inbox).mpr (.inl ⟨same, rfl⟩)⟩
    · rcases tracked.held other earlier with ⟨place, mem⟩
      exact ⟨place, (found other place).mpr (.inr mem)⟩
  · intro other place place_ mem member_
    rcases (found other place).mp mem with ⟨same, here⟩ | old <;>
      rcases (found other place_).mp member_ with ⟨same_, here_⟩ | old_
    · rw [here, here_]
    · exact absurd (same ▸ old_) (outside place_)
    · exact absurd (same_ ▸ old) (outside place)
    · exact tracked.one other place place_ old old_
  · intro other place mem
    rcases (found other place).mp mem with ⟨same, _⟩ | old
    · exact same ▸ List.mem_cons_self
    · exact .tail _ (tracked.known other place old)
  · change Attached ((state.disk.submit name).files .processing) state.phase
    exact tracked.attached

theorem attached_rest {name : String} {reaped : Bool} {counts fresh : List (String × Nat)}
    (attached : Attached (state.disk.files .processing)
      (.recovering (name :: rest) reaped counts fresh)) (source target : Place)
    (fresh_ : List (String × Nat)) :
    Attached ((state.disk.rename name source target).files .processing)
      (.recovering rest false counts fresh_) := by
  rcases attached with ⟨apart, claimed⟩
  refine ⟨apart.of_cons, ?_⟩
  intro other mem
  have different : other ≠ name := fun same => (List.nodup_cons.mp apart).1 (same ▸ mem)
  exact (mem_rename_of_ne different source target .processing).mpr
    (claimed other (.tail _ mem))

theorem mem_sorted {name : String} {names : List String} : name ∈ sorted names ↔ name ∈ names :=
  (List.perm_insertionSort (· ≤ ·) names).mem_iff

theorem Tracked.moves (tracked : Tracked state) (moves : Moves state event next) :
    Tracked next := by
  have attached := tracked.attached
  cases moves with
  | submit name new => exact tracked.submit new
  | boot down =>
      refine tracked.same rfl rfl ⟨?_, ?_⟩
      · exact (List.perm_insertionSort (· ≤ ·) _).nodup_iff.mpr ((tracked.unique _).filter _)
      · intro name mem
        exact (List.mem_filter.mp (mem_sorted.mp mem)).1
  | reap at_ =>
      rw [at_] at attached
      exact tracked.same rfl rfl attached
  | poison at_ spent =>
      rw [at_] at attached
      exact tracked.rename (attached.2 _ (.head _)) .failed _
        (attached_rest attached .processing .failed _) _
  | requeue at_ left =>
      rw [at_] at attached
      exact tracked.rename (attached.2 _ (.head _)) .inbox _
        (attached_rest attached .processing .inbox _) _
  | claim name idle here brief =>
      have only : ∀ place, name ∈ state.disk.files place → place = .inbox :=
        fun place mem => tracked.one name place .inbox mem here
      exact tracked.rename here .processing (.holding name)
        ((mem_rename_self only .processing .processing).mpr rfl) _
  | openMarker at_ => exact tracked.same rfl rfl attached
  | writeMarker pgid at_ => exact tracked.same rfl rfl attached
  | dropMarker at_ => exact tracked.same rfl rfl attached
  | file ending at_ unmarked =>
      rw [at_] at attached
      exact tracked.rename attached ending.place .idle trivial _
  | _ => exact tracked.same rfl rfl trivial

/-! ## The count of a brief is the number of its claims -/

/-- The counts that the next boot reads if nothing more is stranded or moved. -/
def State.ledger (state : State) : List (String × Nat) :=
  match state.phase with
  | .down => []
  | .recovering _ _ _ fresh => fresh
  | _ => state.disk.counts

/-- `_requeue` has read the file and seen every claimed brief. -/
def Recovers (disk : Disk) : Phase → Prop
  | .recovering stranded _ counts _ =>
      counts = disk.counts ∧ ∀ name ∈ disk.files .processing, name ∈ stranded
  | _ => True

structure Counted (state : State) : Prop where
  inbox : ∀ name ∈ state.disk.files .inbox, state.claims name = countOf state.ledger name
  processing : ∀ name ∈ state.disk.files .processing,
    state.claims name = countOf state.disk.counts name + 1
  saved : ∀ name, countOf state.disk.counts name ≤ maxRequeues
  small : ∀ name, countOf state.ledger name ≤ maxRequeues
  unknown : ∀ name, name ∉ state.submitted → state.claims name = 0 ∧ countOf state.ledger name = 0
  bounded : ∀ name, state.claims name ≤ maxRequeues + 1
  briefs : ∀ name ∈ state.disk.files .processing, isJson name = true
  recovers : Recovers state.disk state.phase
  numbered : ∀ name, Assoc.get? state.disk.markers name = some none → state.phase = .holding name

/-- A crash leaves no claimed brief in the inbox and no marker without its number. -/
def Careful (event : Event) (state : State) : Prop :=
  event = .crash → (∀ name ∈ state.disk.files .inbox, state.claims name = 0) ∧
    ∀ name, Assoc.get? state.disk.markers name ≠ some none

theorem countOf_set (counts : List (String × Nat)) (name other : String) (count : Nat) :
    countOf (Assoc.set counts name count) other = if name = other then count else countOf counts other := by
  rw [countOf, Assoc.get?_set]
  by_cases same : name = other
  · rw [if_pos same, if_pos same]
    rfl
  · rw [if_neg same, if_neg same]
    rfl

theorem eq_or_mem_of_mem_rename {disk : Disk} {name other : String} {place : Place}
    (mem : other ∈ (disk.rename name source target).files place) :
    other = name ∨ other ∈ disk.files place := by
  by_cases same : other = name
  · exact .inl same
  · exact .inr ((mem_rename_of_ne same source target place).mp mem)

theorem mem_of_mem_rename {disk : Disk} {name other : String} {place : Place}
    (only : ∀ place, name ∈ disk.files place → place = source) (apart : place ≠ target)
    (mem : other ∈ (disk.rename name source target).files place) :
    other ≠ name ∧ other ∈ disk.files place := by
  have different : other ≠ name := by
    intro same
    rw [same] at mem
    exact apart ((mem_rename_self only target place).mp mem)
  exact ⟨different, (mem_rename_of_ne different source target place).mp mem⟩

theorem Counted.same (counted : Counted state) (files : next.disk.files = state.disk.files)
    (counts : next.disk.counts = state.disk.counts) (submitted : next.submitted = state.submitted)
    (claimed : next.claimed = state.claimed) (ledger : next.ledger = state.ledger)
    (recovers : Recovers next.disk next.phase)
    (numbered : ∀ name, Assoc.get? next.disk.markers name = some none → next.phase = .holding name)
    :
    Counted next := by
  rcases counted with ⟨inbox, processing, saved, small, unknown, bounded, briefs, _, _⟩
  have claims : ∀ name, next.claims name = state.claims name := by
    intro name
    rw [State.claims, State.claims, claimed]
  rw [← files] at inbox processing briefs
  rw [← counts] at processing saved
  rw [← ledger] at inbox small unknown
  rw [← submitted] at unknown
  simp only [← claims] at inbox processing unknown bounded
  exact ⟨inbox, processing, saved, small, unknown, bounded, briefs, recovers, numbered⟩

theorem Counted.filed (tracked : Tracked state) (counted : Counted state) {name : String}
    (here : name ∈ state.disk.files .processing) (ending : Ending) (phase : Phase)
    (ledger : State.ledger { state with phase } = state.ledger)
    (recovers : Recovers (state.disk.rename name .processing ending.place) phase)
    (numbered : ∀ name, Assoc.get? state.disk.markers name = some none → phase = .holding name) :
    Counted { state with disk := state.disk.rename name .processing ending.place, phase } := by
  have only : ∀ place, name ∈ state.disk.files place → place = .processing :=
    fun place mem => tracked.one name place .processing mem here
  have ledger_ : State.ledger { state with
      disk := state.disk.rename name .processing ending.place, phase } = state.ledger := by
    rw [← ledger]
    cases phase <;> rfl
  refine ⟨?_, ?_, counted.saved, ?_, ?_, counted.bounded, ?_, recovers, numbered⟩
  · intro other mem
    rw [ledger_]
    exact counted.inbox other
      (mem_of_mem_rename only (by cases ending <;> exact Place.noConfusion) mem).2
  · intro other mem
    exact counted.processing other
      (mem_of_mem_rename only (by cases ending <;> exact Place.noConfusion) mem).2
  · rw [ledger_]
    exact counted.small
  · rw [ledger_]
    exact counted.unknown
  · intro other mem
    exact counted.briefs other
      (mem_of_mem_rename only (by cases ending <;> exact Place.noConfusion) mem).2

theorem get?_unmark (disk : Disk) (name other : String) :
    Assoc.get? (disk.unmark name).markers other =
      if other = name then none else Assoc.get? disk.markers other :=
  Assoc.get?_filter_ne disk.markers name other

theorem Counted.submit (counted : Counted state) {name : String} (new : name ∉ state.submitted) :
    Counted { state with disk := state.disk.submit name, submitted := name :: state.submitted } := by
  refine ⟨?_, counted.processing, counted.saved, counted.small, ?_, counted.bounded, counted.briefs,
    counted.recovers, counted.numbered⟩
  · intro other mem
    change other ∈ name :: state.disk.files .inbox at mem
    rcases List.mem_cons.mp mem with same | old
    · rw [same]
      exact (counted.unknown name new).1.trans (counted.unknown name new).2.symm
    · exact counted.inbox other old
  · intro other outside
    exact counted.unknown other (fun listed => outside (.tail _ listed))

theorem recovers_rest (tracked : Tracked state) {name : String} {reaped : Bool}
    {counts fresh : List (String × Nat)}
    (at_ : state.phase = .recovering (name :: rest) reaped counts fresh)
    (recovers : Recovers state.disk (.recovering (name :: rest) reaped counts fresh))
    (away : target ≠ .processing) (fresh_ : List (String × Nat)) :
    Recovers (state.disk.rename name .processing target) (.recovering rest false counts fresh_) := by
  have attached := tracked.attached
  rw [at_] at attached
  have only : ∀ place, name ∈ state.disk.files place → place = .processing :=
    fun place mem => tracked.one name place .processing mem (attached.2 name (.head _))
  refine ⟨recovers.1, ?_⟩
  intro other mem
  rcases mem_of_mem_rename only away.symm mem with ⟨different, claimed⟩
  exact List.mem_of_ne_of_mem different (recovers.2 other claimed)

theorem Counted.requeued (tracked : Tracked state) (counted : Counted state) {name : String}
    {counts fresh : List (String × Nat)}
    (at_ : state.phase = .recovering (name :: rest) true counts fresh)
    (left : countOf counts name + 1 ≤ maxRequeues)
    (numbered : ∀ name, Assoc.get? state.disk.markers name ≠ some none) :
    Counted { state with
      disk := state.disk.rename name .processing .inbox
      phase := .recovering rest false counts
        (Assoc.set fresh name (countOf counts name + 1)) } := by
  have attached := tracked.attached
  have recovers := counted.recovers
  have ledger : state.ledger = fresh := by rw [State.ledger, at_]
  rw [at_] at attached recovers
  have here : name ∈ state.disk.files .processing := attached.2 name (.head _)
  have only : ∀ place, name ∈ state.disk.files place → place = .processing :=
    fun place mem => tracked.one name place .processing mem here
  have old : ∀ {other}, name ≠ other →
      countOf (Assoc.set fresh name (countOf counts name + 1)) other = countOf state.ledger other := by
    intro other different
    rw [countOf_set, if_neg different, ledger]
  refine ⟨?_, ?_, counted.saved, ?_, ?_, counted.bounded, ?_, ?_,
    fun name empty => absurd empty (numbered name)⟩
  · intro other mem
    change state.claims other = countOf (Assoc.set fresh name (countOf counts name + 1)) other
    by_cases same : name = other
    · rw [countOf_set, if_pos same, ← same, recovers.1]
      exact counted.processing name here
    · rw [old same]
      exact counted.inbox other ((eq_or_mem_of_mem_rename mem).resolve_left (Ne.symm same))
  · intro other mem
    exact counted.processing other (mem_of_mem_rename only Place.noConfusion mem).2
  · intro other
    change countOf (Assoc.set fresh name (countOf counts name + 1)) other ≤ maxRequeues
    by_cases same : name = other
    · rw [countOf_set, if_pos same]
      exact left
    · rw [old same]
      exact counted.small other
  · intro other outside
    have different : name ≠ other :=
      fun same => outside (same ▸ tracked.known name .processing here)
    exact ⟨(counted.unknown other outside).1, (old different).trans (counted.unknown other outside).2⟩
  · intro other mem
    exact counted.briefs other (mem_of_mem_rename only Place.noConfusion mem).2
  · exact recovers_rest tracked at_ recovers Place.noConfusion _

theorem Counted.claimed (tracked : Tracked state) (counted : Counted state) {name : String}
    (idle : state.phase = .idle) (here : name ∈ state.disk.files .inbox)
    (brief : isJson name = true) :
    Counted { state with
      disk := state.disk.rename name .inbox .processing
      phase := .holding name
      claimed := name :: state.claimed } := by
  have ledger : state.ledger = state.disk.counts := by rw [State.ledger, idle]
  have only : ∀ place, name ∈ state.disk.files place → place = .inbox :=
    fun place mem => tracked.one name place .inbox mem here
  have more : (name :: state.claimed).count name = countOf state.disk.counts name + 1 := by
    rw [List.count_cons_self, ← ledger]
    exact congrArg (· + 1) (counted.inbox name here)
  have other_claims : ∀ {other}, other ≠ name →
      (name :: state.claimed).count other = state.claims other :=
    fun different => List.count_cons_of_ne different.symm
  refine ⟨?_, ?_, counted.saved, counted.saved, ?_, ?_, ?_, trivial, ?_⟩
  · intro other mem
    rcases mem_of_mem_rename only Place.noConfusion mem with ⟨different, old⟩
    change (name :: state.claimed).count other = countOf state.disk.counts other
    rw [other_claims different, ← ledger]
    exact counted.inbox other old
  · intro other mem
    change (name :: state.claimed).count other = countOf state.disk.counts other + 1
    by_cases same : other = name
    · rw [same]
      exact more
    · rw [other_claims same]
      exact counted.processing other ((eq_or_mem_of_mem_rename mem).resolve_left same)
  · intro other outside
    have different : other ≠ name := fun same => outside (same ▸ tracked.known name .inbox here)
    refine ⟨(other_claims different).trans (counted.unknown other outside).1, ?_⟩
    change countOf state.disk.counts other = 0
    rw [← ledger]
    exact (counted.unknown other outside).2
  · intro other
    change (name :: state.claimed).count other ≤ maxRequeues + 1
    by_cases same : other = name
    · rw [same, more]
      exact Nat.succ_le_succ (counted.saved name)
    · rw [other_claims same]
      exact counted.bounded other
  · intro other mem
    rcases eq_or_mem_of_mem_rename mem with same | old
    · exact same ▸ brief
    · exact counted.briefs other old
  · intro other empty
    have holding := counted.numbered other empty
    rw [idle] at holding
    cases holding

theorem Counted.save (counted : Counted state) {reaped : Bool} {counts fresh : List (String × Nat)}
    (at_ : state.phase = .recovering [] reaped counts fresh)
    (numbered : ∀ name, Assoc.get? state.disk.markers name ≠ some none) :
    Counted { state with disk := { state.disk with counts := fresh }, phase := .idle } := by
  have recovers := counted.recovers
  have ledger : state.ledger = fresh := by rw [State.ledger, at_]
  rw [at_] at recovers
  have nothing : ∀ name, name ∉ state.disk.files .processing :=
    fun name mem => absurd (recovers.2 name mem) List.not_mem_nil
  have inbox := counted.inbox
  have small := counted.small
  have unknown := counted.unknown
  rw [ledger] at inbox small unknown
  exact ⟨inbox, fun name mem => absurd mem (nothing name), small, small, unknown,
    counted.bounded, counted.briefs, trivial, fun name empty => absurd empty (numbered name)⟩

theorem Counted.crash (counted : Counted state)
    (unclaimed : ∀ name ∈ state.disk.files .inbox, state.claims name = 0)
    (numbered : ∀ name, Assoc.get? state.disk.markers name ≠ some none) :
    Counted { state with phase := .down } :=
  ⟨unclaimed, counted.processing, counted.saved, fun _ => Nat.zero_le _,
    fun name outside => ⟨(counted.unknown name outside).1, rfl⟩, counted.bounded, counted.briefs,
    trivial, fun name empty => absurd empty (numbered name)⟩

theorem Counted.numbered_of (counted : Counted state) (free : ∀ name, state.phase ≠ .holding name)
    (name : String) :
    Assoc.get? state.disk.markers name ≠ some none :=
  fun empty => free name (counted.numbered name empty)

theorem Counted.moves (tracked : Tracked state) (counted : Counted state)
    (careful : Careful event state) (moves : Moves state event next) :
    Counted next := by
  have attached := tracked.attached
  have recovers := counted.recovers
  have numbered := counted.numbered
  cases moves with
  | submit name new => exact counted.submit new
  | boot down =>
      refine counted.same rfl rfl rfl rfl ?_ ⟨rfl, ?_⟩ ?_
      · rw [State.ledger, State.ledger, down]
      · intro name mem
        exact mem_sorted.mpr (List.mem_filter.mpr ⟨mem, counted.briefs name mem⟩)
      · intro name empty
        exact absurd empty (counted.numbered_of (by simp [down]) name)
  | raised at_ empty => exact absurd empty (counted.numbered_of (by simp [at_]) _)
  | reap at_ =>
      rw [at_] at recovers
      refine counted.same rfl rfl rfl rfl ?_ recovers ?_
      · rw [State.ledger, State.ledger, at_]
      · intro name empty
        rw [get?_unmark] at empty
        exact absurd (Option.ite_none_left_eq_some.mp empty).2
          (counted.numbered_of (by simp [at_]) name)
  | poison at_ spent =>
      rw [at_] at recovers attached
      refine counted.filed tracked (attached.2 _ (.head _)) .failed _ ?_ ?_ ?_
      · rw [State.ledger, State.ledger, at_]
      · exact recovers_rest tracked at_ recovers Place.noConfusion _
      · exact fun name empty => absurd empty (counted.numbered_of (by simp [at_]) name)
  | requeue at_ left =>
      exact counted.requeued tracked at_ left (counted.numbered_of (by simp [at_]))
  | save at_ => exact counted.save at_ (counted.numbered_of (by simp [at_]))
  | claim name idle here brief => exact counted.claimed tracked idle here brief
  | @openMarker name at_ =>
      refine counted.same rfl rfl rfl rfl ?_ recovers ?_
      · rw [State.ledger, State.ledger, at_]
      · intro other empty
        rw [Assoc.get?_set] at empty
        by_cases same : name = other
        · exact same ▸ at_
        · rw [if_neg same] at empty
          exact numbered other empty
  | @writeMarker pgid name at_ opened =>
      refine counted.same rfl rfl rfl rfl ?_ recovers ?_
      · rw [State.ledger, State.ledger, at_]
      · intro other empty
        rw [Assoc.get?_set] at empty
        by_cases same : name = other
        · exact same ▸ at_
        · rw [if_neg same] at empty
          exact numbered other empty
  | dropMarker at_ =>
      refine counted.same rfl rfl rfl rfl ?_ recovers ?_
      · rfl
      · intro other empty
        rw [get?_unmark] at empty
        exact numbered other (Option.ite_none_left_eq_some.mp empty).2
  | @file ending name at_ unmarked =>
      rw [at_] at attached
      refine counted.filed tracked attached ending .idle ?_ trivial ?_
      · rw [State.ledger, State.ledger, at_]
      · intro other empty
        have holding := numbered other empty
        rw [at_] at holding
        cases holding
        exact absurd (Assoc.mem_keys_of_get? empty) unmarked
  | @keep name at_ unmarked =>
      refine counted.same rfl rfl rfl rfl ?_ trivial ?_
      · rw [State.ledger, State.ledger, at_]
      · intro other empty
        have holding := numbered other empty
        rw [at_] at holding
        cases holding
        exact absurd (Assoc.mem_keys_of_get? empty) unmarked
  | crash up => exact counted.crash (careful rfl).1 (careful rfl).2

/-- The operations that are left of a boot. -/
def recovery : List String → Bool → List Event
  | [], _ => [.save]
  | _ :: rest, true => .requeue :: recovery rest false
  | _ :: rest, false => .reap :: .requeue :: recovery rest false

def State.recovery (state : State) : List Event :=
  match state.phase with
  | .down => .boot :: Runtime.recovery (sorted ((state.disk.files .processing).filter isJson)) false
  | .recovering stranded reaped _ _ => Runtime.recovery stranded reaped
  | _ => []

/-- The loop over the inbox runs. -/
def Serving (state : State) : Prop := state.phase = .idle ∨ ∃ name, state.phase = .holding name

theorem requeueOne_recovering (state : State) (name : String) (rest : List String)
    (counts fresh : List (String × Nat)) :
    (requeueOne state name rest counts fresh).disk.markers = state.disk.markers ∧
      ∃ fresh_, (requeueOne state name rest counts fresh).phase =
        .recovering rest false counts fresh_ := by
  rw [requeueOne]
  split
  · exact ⟨rfl, fresh, rfl⟩
  · exact ⟨rfl, _, rfl⟩

theorem reapOne_of_numbered {name : String}
    (numbered : Assoc.get? state.disk.markers name ≠ some none) (rest : List String)
    (counts fresh : List (String × Nat)) :
    reapOne state name rest counts fresh = { state with
      disk := state.disk.unmark name, phase := .recovering (name :: rest) true counts fresh } := by
  rw [reapOne]
  split
  · rename_i empty
    exact absurd empty numbered
  · rfl

theorem recovery_completes (stranded : List String) :
    ∀ {state : State} {reaped : Bool} {counts fresh : List (String × Nat)},
      state.phase = .recovering stranded reaped counts fresh →
      (∀ name, Assoc.get? state.disk.markers name ≠ some none) →
      ∃ last, run state (recovery stranded reaped) = some last ∧ Serving last := by
  induction stranded with
  | nil =>
      intro state reaped counts fresh at_ numbered
      refine ⟨{ state with disk := { state.disk with counts := fresh }, phase := .idle }, ?_, .inl rfl⟩
      simp only [recovery, run, Schedule.run, step, at_, Option.bind_some]
  | cons name rest ih =>
      have moved : ∀ {state : State} {counts fresh : List (String × Nat)},
          state.phase = .recovering (name :: rest) true counts fresh →
          (∀ name, Assoc.get? state.disk.markers name ≠ some none) →
          ∃ last, run state (.requeue :: recovery rest false) = some last ∧ Serving last := by
        intro state counts fresh at_ numbered
        rcases requeueOne_recovering state name rest counts fresh with ⟨markers, fresh_, recovering⟩
        rcases ih recovering (by rw [markers]; exact numbered) with ⟨last, ran, serving⟩
        refine ⟨last, ?_, serving⟩
        simp only [run, Schedule.run, step, at_, Option.bind_some]
        exact ran
      intro state reaped counts fresh at_ numbered
      cases reaped with
      | true => exact moved at_ numbered
      | false =>
          have unmarked : ∀ other, Assoc.get? (state.disk.unmark name).markers other ≠ some none := by
            intro other empty
            rw [get?_unmark] at empty
            exact numbered other (Option.ite_none_left_eq_some.mp empty).2
          rcases @moved { state with
              disk := state.disk.unmark name
              phase := .recovering (name :: rest) true counts fresh } counts fresh rfl unmarked with
            ⟨last, ran, serving⟩
          refine ⟨last, ?_, serving⟩
          simp only [recovery, run, Schedule.run, step, at_, Option.bind_some,
            reapOne_of_numbered (numbered name)]
          exact ran

theorem Counted.completes (counted : Counted state) :
    ∃ last, run state state.recovery = some last ∧ Serving last := by
  rcases at_ : state.phase with _ | ⟨stranded, reaped, counts, fresh⟩ | _ | name
  · have numbered := counted.numbered_of (by simp [at_])
    have booted := @recovery_completes (sorted ((state.disk.files .processing).filter isJson))
      ⟨state.disk, .recovering (sorted ((state.disk.files .processing).filter isJson)) false
        state.disk.counts [], state.submitted, state.claimed⟩ false state.disk.counts [] rfl numbered
    rcases booted with ⟨last, ran, serving⟩
    refine ⟨last, ?_, serving⟩
    simp only [State.recovery, at_, run, Schedule.run, step, Option.bind_some]
    exact ran
  · have numbered := counted.numbered_of (by simp [at_])
    rw [State.recovery, at_]
    exact recovery_completes stranded at_ numbered
  · refine ⟨state, ?_, .inl at_⟩
    rw [State.recovery, at_]
    rfl
  · refine ⟨state, ?_, .inr ⟨name, at_⟩⟩
    rw [State.recovery, at_]
    rfl

theorem tracked_of_run {events : List Event} {last : State} (ran : run fresh events = some last) :
    Tracked last :=
  Schedule.invariant (fun _ _ _ tracked stepped => tracked.moves (moves_of_step stepped))
    tracked_fresh ran

/-- A brief that is submitted and claimed. -/
def started : List Event := [.submit "go.json", .boot, .save, .claim "go.json"]

end Runtime
end PhysicalHarness
