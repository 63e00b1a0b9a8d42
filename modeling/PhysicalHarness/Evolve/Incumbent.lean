import PhysicalHarness.Evolve.Judged

namespace PhysicalHarness
namespace Evolve

/-!
# The incumbent of the campaign

An acceptance is saved at once, and its row when the round is over.  A run that ends in
between leaves an incumbent that no row records, and the next run gives the same number
to its round: an accepted evaluation is then copied over the directory that the saved
incumbent names.  Where neither happens, every campaign that is read back names a whole
accepted state, and a session at rest has its row.
-/

variable {Content Tunables : Type}

/-- The stock card without changes, or a copy that is there and was accepted with the
tunables beside it. -/
def Whole (world : World Content Tunables) (state : State Content Tunables)
    (doc : Doc Tunables) : Prop :=
  (doc.incumbent.workspace = none ∧ doc.incumbent.tunables = world.noTunables) ∨
    ∃ dir copy, doc.incumbent.workspace = some dir ∧ state.disk.tree dir = some copy ∧
      (copy, doc.incumbent.tunables) ∈ state.accepted

/-- The incumbent's acceptance has a row. -/
def Recorded (doc : Doc Tunables) : Prop :=
  ∀ dir, doc.incumbent.workspace = some dir →
    ∃ row ∈ doc.rounds, row.accepted = true ∧ row.workspace = some dir ∧
      row.round = doc.incumbent.round

/-- Whatever is read back is whole, and recorded once the process has exited. -/
structure Sound (world : World Content Tunables) (state : State Content Tunables) : Prop where
  whole : ∀ doc, state.disk.campaign = some doc → Whole world state doc
  recorded : ∀ doc, state.disk.campaign = some doc → state.process = none → Recorded doc

def Stage.copies : Stage → Bool
  | .snapping _ _ => true
  | _ => false

/-- No run ends between an acceptance and its row, and no copy is made over the
incumbent's. -/
def Undisturbed (event : Event Content Tunables) (state : State Content Tunables) : Prop :=
  ∀ process ∈ state.process,
    (event.saves = true → process.stage.unrowed = true → process.acceptedAny = false) ∧
    (event.crashes = true → process.stage.unsaved = true → process.acceptedAny = false) ∧
    (process.stage.copies = true → process.doc.incumbent.workspace ≠ some process.snapDir)

instance (event : Event Content Tunables) (state : State Content Tunables) :
    Decidable (Undisturbed event state) :=
  Option.decidableForallMem state.process

def Saved (state : State Content Tunables) (process : Process Tunables) : Prop :=
  ∃ doc, state.disk.campaign = some doc ∧ doc.incumbent = process.doc.incumbent ∧
    ((process.stage.unsaved = true → process.acceptedAny = false) → Recorded doc)

structure Agrees (world : World Content Tunables) (state : State Content Tunables)
    (process : Process Tunables) : Prop where
  snapped : Snapped process.doc
  whole : Whole world state process.doc
  saved : Saved state process
  held : (process.stage.unrowed = true → process.acceptedAny = false) → Recorded process.doc
  noted : process.stage.unrowed = true → process.acceptedAny = true →
    process.doc.incumbent.round = process.round ∧ process.doc.low ≤ process.doc.high
  copied : ∀ after confirmed, process.stage = .snapping after confirmed →
    process.doc.low ≤ process.doc.high
  early : ∀ source, process.stage = .creating source → process.acceptedAny = false

/-- The parts of a process that its agreement with the disk is about. -/
structure Alike (process after : Process Tunables) : Prop where
  incumbent : after.doc.incumbent = process.doc.incumbent
  rounds : after.doc.rounds = process.doc.rounds
  round : after.round = process.round
  any : after.acceptedAny = process.acceptedAny
  unrowed : after.stage.unrowed = process.stage.unrowed
  unsaved : after.stage.unsaved = process.stage.unsaved
  range : process.doc.low ≤ process.doc.high → after.doc.low ≤ after.doc.high
  copied : ∀ suite confirmed, after.stage = .snapping suite confirmed →
    after.doc.low ≤ after.doc.high
  early : ∀ source, after.stage = .creating source → process.stage = .creating source

variable {world : World Content Tunables} {task : String} {state next : State Content Tunables}
  {process after : Process Tunables}

theorem Agrees.refl (agrees : Agrees world state process) : Alike process process :=
  ⟨rfl, rfl, rfl, rfl, rfl, rfl, id, agrees.copied, fun _ => id⟩

theorem Whole.congr {doc other : Doc Tunables} (whole : Whole world state doc)
    (incumbent : other.incumbent = doc.incumbent)
    (accepted : ∀ entry ∈ state.accepted, entry ∈ next.accepted)
    (tree : ∀ dir, doc.incumbent.workspace = some dir →
      next.disk.tree dir = state.disk.tree dir) : Whole world next other := by
  rw [Whole, incumbent]
  rcases whole with stock | copied
  · exact .inl stock
  · rcases copied with ⟨dir, copy, named, here, mem⟩
    exact .inr ⟨dir, copy, named, (tree dir named).trans here, accepted _ mem⟩

theorem Recorded.congr {doc other : Doc Tunables} (recorded : Recorded doc)
    (incumbent : other.incumbent = doc.incumbent)
    (rounds : ∀ row ∈ doc.rounds, row ∈ other.rounds) : Recorded other := by
  intro dir named
  rw [incumbent] at named ⊢
  rcases recorded dir named with ⟨row, mem, facts⟩
  exact ⟨row, rounds row mem, facts⟩

theorem Alike.recorded (alike : Alike process after) (recorded : Recorded process.doc) :
    Recorded after.doc :=
  recorded.congr alike.incumbent (fun row mem => by rw [alike.rounds]; exact mem)

theorem Agrees.alike (agrees : Agrees world state process) (alike : Alike process after)
    (saved : Saved next after) (accepted : next.accepted = state.accepted)
    (tree : ∀ dir, process.doc.incumbent.workspace = some dir →
      next.disk.tree dir = state.disk.tree dir) : Agrees world next after where
  snapped := by
    intro dir named
    rw [alike.incumbent] at named
    exact agrees.snapped dir named
  whole := agrees.whole.congr alike.incumbent (fun _ mem => by rw [accepted]; exact mem) tree
  saved := saved
  held := by
    rw [alike.unrowed, alike.any]
    exact fun free => alike.recorded (agrees.held free)
  noted := by
    rw [alike.unrowed, alike.any, alike.incumbent, alike.round]
    intro unrowed any
    exact ⟨(agrees.noted unrowed any).1, alike.range (agrees.noted unrowed any).2⟩
  copied := alike.copied
  early := by
    intro source at_
    rw [alike.any]
    exact agrees.early source (alike.early source at_)

theorem Agrees.unsaved (agrees : Agrees world state process) (alike : Alike process after)
    (campaign : next.disk.campaign = state.disk.campaign) : Saved next after := by
  rw [Saved, campaign, alike.incumbent, alike.unsaved, alike.any]
  exact agrees.saved

theorem Agrees.saves (agrees : Agrees world state process) (alike : Alike process after)
    (campaign : next.disk.campaign = some after.doc) : Saved next after := by
  refine ⟨after.doc, campaign, rfl, ?_⟩
  rw [alike.unsaved, alike.any]
  intro free
  apply alike.recorded
  apply agrees.held
  intro unrowed
  apply free
  cases at_ : process.stage <;> rw [at_] at unrowed <;> first | rfl | cases unrowed

structure Kept (world : World Content Tunables) (state : State Content Tunables) : Prop where
  up : ∀ process, state.process = some process → Agrees world state process
  down : state.process = none → ∀ doc, state.disk.campaign = some doc →
    Snapped doc ∧ Whole world state doc ∧ Recorded doc

theorem kept_fresh : Kept world (fresh : State Content Tunables) :=
  ⟨fun _ same => (by cases same), fun _ _ same => (by cases same)⟩

theorem Kept.of_up (agrees : Agrees world state process) (up : state.process = some process) :
    Kept world state := by
  refine ⟨?_, ?_⟩
  · intro other same
    cases up.symm.trans same
    exact agrees
  · intro down
    rw [up] at down
    cases down

theorem Kept.sound (kept : Kept world state) : Sound world state := by
  refine ⟨?_, fun doc there down => (kept.down down doc there).2.2⟩
  intro doc there
  cases up : state.process with
  | none => exact (kept.down up doc there).2.1
  | some process =>
      have agrees := kept.up process up
      rcases agrees.saved with ⟨saved, same, incumbent, _⟩
      cases there.symm.trans same
      exact agrees.whole.congr incumbent (fun _ mem => mem) (fun _ _ => rfl)

theorem Agrees.leave (agrees : Agrees world state process)
    (free : process.stage.unrowed = true → process.acceptedAny = false) :
    Kept world (state.leave process.doc) := by
  refine ⟨fun _ same => (by cases same), ?_⟩
  intro _ doc there
  cases there
  refine ⟨agrees.snapped, ?_, agrees.held free⟩
  exact agrees.whole.congr rfl (fun _ mem => mem) (fun _ _ => rfl)

theorem Agrees.lost (agrees : Agrees world state process)
    (free : process.stage.unsaved = true → process.acceptedAny = false)
    {disk : Disk Content Tunables} (campaign : disk.campaign = state.disk.campaign)
    (tree : ∀ dir, process.doc.incumbent.workspace = some dir →
      disk.tree dir = state.disk.tree dir) :
    Kept world { state with disk, process := none } := by
  refine ⟨fun _ same => (by cases same), ?_⟩
  intro _ doc there
  rcases agrees.saved with ⟨saved, same, incumbent, recorded⟩
  have here : doc = saved := Option.some.inj ((there.symm.trans campaign).trans same)
  rw [here]
  refine ⟨?_, ?_, recorded free⟩
  · intro dir named
    rw [incumbent] at named
    exact agrees.snapped dir named
  · exact agrees.whole.congr incumbent (fun _ mem => mem) tree

theorem tree_put {disk : Disk Content Tunables} {doc : Doc Tunables} {target : Dir}
    (apart : doc.incumbent.workspace ≠ some target) (copy : Option Content) (dir : Dir)
    (named : doc.incumbent.workspace = some dir) : (disk.put target copy).tree dir = disk.tree dir := by
  have different : dir ≠ target := by
    intro same
    rw [same] at named
    exact apart named
  exact Function.update_of_ne different copy disk.tree

theorem located_eq {doc : Doc Tunables} (whole : Whole world state doc) :
    doc.located state.disk = doc := by
  rw [Doc.located, if_neg]
  rcases whole with stock | copied
  · rw [stock.1]
    exact Bool.false_ne_true
  · rcases copied with ⟨dir, copy, named, here, _⟩
    rw [named, Option.any_some, here]
    exact Bool.false_ne_true

theorem Kept.booted (kept : Kept world state) (down : state.process = none) (low high : Int)
    (confirmSeeds rounds : Nat) : Kept world (boot world state low high confirmSeeds rounds) := by
  have facts : ∃ doc, loaded world state.disk low high = doc ∧
      Snapped doc ∧ Whole world state doc ∧ Recorded doc := by
    rw [loaded]
    cases there : state.disk.campaign with
    | none =>
        exact ⟨_, rfl, fun _ same => (by cases same), .inl ⟨rfl, rfl⟩, fun _ same => (by cases same)⟩
    | some doc =>
        have facts := kept.down down doc there
        exact ⟨doc, located_eq facts.2.1, facts⟩
  rcases facts with ⟨doc, same, snapped, whole, recorded⟩
  rw [boot, same]
  refine Kept.of_up ?_ rfl
  refine ⟨snapped, ?_, ?_, fun _ => recorded, fun same => (by cases same),
    fun _ _ same => (by cases same), fun _ same => (by cases same)⟩
  · exact whole.congr rfl (fun _ mem => mem) (fun _ _ => rfl)
  · exact ⟨doc, rfl, rfl, fun _ => recorded⟩

theorem acceptedAny_receipt (process : Process Tunables) :
    process.receipt.acceptedAny = process.acceptedAny := by
  rw [Process.receipt, Process.acceptedAny, List.any_append, List.any_cons, List.any_nil]
  exact Bool.or_false _

/-! ## Steps -/

theorem Kept.alike (agrees : Agrees world state process) (alike : Alike process after)
    (up : next.process = some after) (campaign : next.disk.campaign = state.disk.campaign)
    (accepted : next.accepted = state.accepted)
    (tree : ∀ dir, process.doc.incumbent.workspace = some dir →
      next.disk.tree dir = state.disk.tree dir) : Kept world next :=
  Kept.of_up (agrees.alike alike (agrees.unsaved alike campaign) accepted tree) up

theorem Agrees.begins (agrees : Agrees world state process) (at_ : process.stage = .head)
    (begun : Begins world state process next) : Kept world next := by
  have held : Recorded process.doc := agrees.held (by rw [at_]; intro same; cases same)
  have whole := agrees.whole
  rcases agrees.saved with ⟨doc, there, incumbent, recorded⟩
  have rest : Recorded doc := recorded (by rw [at_]; intro same; cases same)
  cases begun with
  | kept cached =>
      refine Kept.of_up ?_ rfl
      refine ⟨agrees.snapped, whole, ⟨doc, there, incumbent, fun _ => rest⟩, fun _ => held, ?_,
        fun _ _ same => (by cases same), fun _ _ => rfl⟩
      intro _ never
      cases never
  | measured uncached card =>
      refine Kept.of_up ?_ rfl
      refine ⟨agrees.snapped, whole, ⟨doc, there, incumbent, fun _ => rest⟩, fun _ => held, ?_,
        fun _ _ same => (by cases same), fun _ _ => rfl⟩
      intro _ never
      cases never
  | missing => exact agrees.leave (by rw [at_]; intro same; cases same)

theorem Agrees.evaluated (agrees : Agrees world state process) (at_ : process.stage = .working)
    (copy : Content) (confirmFails : Bool) (nonempty : process.doc.low ≤ process.doc.high) :
    Kept world (evaluateState world state process copy confirmFails) := by
  have wide : process.doc.low ≤ process.doc.high + process.confirmSeeds := by omega
  have judged : ∀ (other : Process Tunables) (suite : Suite) (accepted confirmed : Bool),
      other.doc.incumbent = process.doc.incumbent → other.doc.rounds = process.doc.rounds →
      other.round = process.round → other.evals = process.evals → other.stage = .working →
      other.doc.low ≤ other.doc.high → Alike process (other.judge suite accepted confirmed) := by
    intro other suite accepted confirmed incumbent rounds round evals working range
    have any : other.acceptedAny = process.acceptedAny := by
      rw [Process.acceptedAny, evals, Process.acceptedAny]
    rw [Process.judge]
    split_ifs
    · exact ⟨incumbent, rounds, round, any, by rw [at_]; rfl, by rw [at_]; rfl, fun _ => range,
        fun _ _ _ => range, fun _ same => (by cases same)⟩
    · exact ⟨incumbent, rounds, round, (acceptedAny_receipt other).trans any, by rw [at_, working],
        by rw [at_, working], fun _ => range, fun _ _ _ => range,
        fun _ same => by cases working.symm.trans same⟩
  rw [evaluateState]
  split_ifs with asked
  · have alike := judged process.widen (world.suite process.dev copy process.tunables)
      (confirmation world state.disk process copy confirmFails) true rfl rfl rfl rfl at_ wide
    refine Kept.of_up (agrees.alike alike (agrees.saves alike ?_) rfl (fun _ _ => rfl)) rfl
    rw [Process.judge]
    split_ifs <;> rfl
  · have alike := judged process (world.suite process.dev copy process.tunables)
      (compare process.before (world.suite process.dev copy process.tunables)).accepted false
      rfl rfl rfl rfl at_ nonempty
    exact Kept.alike agrees alike rfl rfl rfl (fun _ _ => rfl)

theorem Agrees.committed (agrees : Agrees world state process) {suite : Suite} {confirmed : Bool}
    (at_ : process.stage = .snapping suite confirmed) (copy : Content) :
    Kept world (commitState state process copy suite confirmed) := by
  refine Kept.of_up ?_ rfl
  have any : (process.evals ++ [true]).any id = true := by
    rw [List.any_append]
    exact Bool.or_true _
  refine ⟨?_, ?_, ?_, ?_, ?_, fun _ _ same => (by cases same), fun _ same => (by cases same)⟩
  · intro dir same
    cases same
    exact ⟨_, _, rfl⟩
  · exact .inr ⟨process.snapDir, copy, rfl, Function.update_self _ _ _, .head _⟩
  · refine ⟨_, rfl, rfl, ?_⟩
    intro free
    cases any.symm.trans (free rfl)
  · intro free
    cases any.symm.trans (free rfl)
  · intro _ _
    exact ⟨rfl, agrees.copied suite confirmed at_⟩

theorem Agrees.appended (agrees : Agrees world state process) (at_ : process.stage = .finished) :
    Kept world (state.set process.append) := by
  have recorded : Recorded process.append.doc := by
    cases any : process.acceptedAny with
    | false =>
        have recorded := agrees.held (fun _ => any)
        exact recorded.congr rfl (fun row mem => List.mem_append_left _ mem)
    | true =>
        intro dir named
        have round := (agrees.noted (by rw [at_]; rfl) any).1
        refine ⟨process.row, List.mem_append_right _ (.head _), any, ?_, round.symm⟩
        rw [Process.row, if_pos any]
        exact named
  rcases agrees.saved with ⟨doc, there, incumbent, rest⟩
  refine Kept.of_up ?_ rfl
  refine ⟨agrees.snapped, agrees.whole, ⟨doc, there, incumbent, ?_⟩, fun _ => recorded,
    fun same => (by cases same),
    fun _ _ same => (by cases same), fun _ same => (by cases same)⟩
  intro free
  apply rest
  intro _
  exact free rfl

theorem Agrees.closed (agrees : Agrees world state process) (at_ : process.stage = .advanced)
    (error : Bool) : Kept world (closeRound state process error) := by
  have recorded : Recorded process.doc := agrees.held (by rw [at_]; intro same; cases same)
  rw [closeRound]
  split_ifs
  · exact agrees.leave (by rw [at_]; intro same; cases same)
  · refine Kept.of_up ?_ rfl
    exact ⟨agrees.snapped, agrees.whole, ⟨_, rfl, rfl, fun _ => recorded⟩, fun _ => recorded,
      fun same => (by cases same), fun _ _ same => (by cases same), fun _ same => (by cases same)⟩

theorem Kept.step {event : Event Content Tunables} (kept : Kept world state)
    (undisturbed : Undisturbed event state) (moved : Moves world task state event next) :
    Kept world next := by
  cases moved with
  | submit id owner new =>
      cases up : state.process with
      | none =>
          refine ⟨fun _ same => (by cases same), ?_⟩
          intro _ doc there
          have facts := kept.down up doc there
          exact ⟨facts.1, facts.2.1.congr rfl (fun _ mem => mem) (fun _ _ => rfl), facts.2.2⟩
      | some process =>
          have agrees := kept.up process up
          exact Kept.alike agrees agrees.refl rfl rfl rfl (fun _ _ => rfl)
  | boot low high confirmSeeds rounds down => exact kept.booted down low high confirmSeeds rounds
  | saved up saves => exact (kept.up _ up).leave ((undisturbed _ up).1 saves)
  | crash up => exact (kept.up _ up).lost ((undisturbed _ up).2.1 rfl) rfl (fun _ _ => rfl)
  | unrowed up at_ empty =>
      have agrees := kept.up _ up
      refine agrees.lost ?_ rfl (fun _ _ => rfl)
      intro _
      rw [← Bool.not_eq_true]
      intro any
      exact absurd (agrees.noted (by rw [at_]; rfl) any).2 (not_le.mpr empty)
  | @uncreated process source up at_ =>
      have agrees := kept.up _ up
      exact agrees.lost (fun _ => agrees.early source at_) rfl
        (tree_put (agrees.snapped.ne_work process.round) none)
  | begin up at_ begun => exact (kept.up _ up).begins at_ begun
  | evaluated confirmFails up at_ here nonempty =>
      exact (kept.up _ up).evaluated at_ _ confirmFails nonempty
  | committed up at_ here => exact (kept.up _ up).committed at_ _
  | closed error up at_ => exact (kept.up _ up).closed at_ error
  | nothing fails confirmFails up at_ => exact kept
  | appended up at_ => exact (kept.up _ up).appended at_
  | @clearing process source left up at_ =>
      have agrees := kept.up _ up
      exact Kept.alike agrees agrees.refl up
        rfl rfl (tree_put (agrees.snapped.ne_work process.round) left)
  | @created process source copy up at_ =>
      have agrees := kept.up _ up
      refine Kept.alike agrees ?_ rfl rfl rfl
        (tree_put (agrees.snapped.ne_work process.round) (some copy))
      exact ⟨rfl, rfl, rfl, rfl, by rw [at_]; rfl, by rw [at_]; rfl, id, fun _ _ same => (by cases same),
        fun _ same => (by cases same)⟩
  | untaken up at_ none_ =>
      refine Kept.alike (kept.up _ up) ?_ rfl rfl rfl (fun _ _ => rfl)
      exact ⟨rfl, rfl, rfl, rfl, by rw [at_]; rfl, by rw [at_]; rfl, id, fun _ _ same => (by cases same),
        fun _ same => (by cases same)⟩
  | taken up at_ found =>
      refine Kept.alike (kept.up _ up) ?_ rfl rfl rfl (fun _ _ => rfl)
      exact ⟨rfl, rfl, rfl, rfl, by rw [at_]; rfl, by rw [at_]; rfl, id, fun _ _ same => (by cases same),
        fun _ same => (by cases same)⟩
  | opened up at_ =>
      refine Kept.alike (kept.up _ up) ?_ rfl rfl rfl (fun _ _ => rfl)
      exact ⟨rfl, rfl, rfl, rfl, by rw [at_]; rfl, by rw [at_]; rfl, id, fun _ _ same => (by cases same),
        fun _ same => (by cases same)⟩
  | @edited process copy tunables up at_ =>
      have agrees := kept.up _ up
      refine Kept.alike agrees ?_ rfl rfl rfl (tree_put (agrees.snapped.ne_work process.round) copy)
      exact ⟨rfl, rfl, rfl, rfl, rfl, rfl, id, agrees.copied, fun _ => id⟩
  | @receipt event process up at_ =>
      have agrees := kept.up _ up
      refine Kept.alike agrees ?_ rfl rfl rfl (fun _ _ => rfl)
      exact ⟨rfl, rfl, rfl, acceptedAny_receipt process, rfl, rfl, id, agrees.copied, fun _ => id⟩
  | @copying process suite confirmed left up at_ =>
      have agrees := kept.up _ up
      have apart := (undisturbed _ up).2.2 (by rw [at_]; rfl)
      exact Kept.alike agrees agrees.refl up
        rfl rfl (tree_put apart left)
  | parked keep up at_ =>
      refine Kept.alike (kept.up _ up) ?_ rfl rfl rfl (fun _ _ => rfl)
      exact ⟨rfl, rfl, rfl, rfl, by rw [at_]; rfl, by rw [at_]; rfl, id, fun _ _ same => (by cases same),
        fun _ same => (by cases same)⟩
  | advanced up at_ =>
      refine Kept.alike (kept.up _ up) ?_ rfl rfl rfl (fun _ _ => rfl)
      exact ⟨rfl, rfl, rfl, rfl, by rw [at_]; rfl, by rw [at_]; rfl, id, fun _ _ same => (by cases same),
        fun _ same => (by cases same)⟩
  | trimmed dir left up at_ dropped =>
      have agrees := kept.up _ up
      exact Kept.alike agrees agrees.refl up
        rfl rfl (tree_put (ne_of_dropped dropped) left)

/-- In every run that nothing disturbs between an acceptance and its row, whatever is read
back is whole, and recorded where the process has exited. -/
theorem incumbent_sound (world : World Content Tunables) (task : String)
    (events : List (Event Content Tunables)) (state : State Content Tunables)
    (undisturbed : Schedule.Admitted (step world task) Undisturbed fresh events)
    (ran : run world task fresh events = some state) : Sound world state := by
  have kept : Kept world state := by
    refine Schedule.invariant_of_admitted ?_ kept_fresh undisturbed ran
    intro event now later holds admitted stepped
    exact holds.step admitted (moves_of_step stepped)
  exact kept.sound

section Example

/-- The first evaluation of a session is accepted. -/
def evaluatedRun : List (Event Nat Unit) :=
  [.boot 0 1 0 0, .begin, .create, .take, .openEndpoint, .edit (some 1) (), .evaluate false false]

def cancelledRun : List (Event Nat Unit) := evaluatedRun ++ [.commit, .cancel]

/-- The round is over, and the session is left at the head of the next. -/
def closedRun : List (Event Nat Unit) :=
  [.finish false, .append, .advance, .close false, .leave]

theorem incumbent_sound_closed :
    Sound countWorld (stateAfter (evaluatedRun ++ .commit :: closedRun)) :=
  incumbent_sound countWorld "stack" (evaluatedRun ++ .commit :: closedRun)
    (stateAfter (evaluatedRun ++ .commit :: closedRun)) (by decide +kernel) rfl

/-- The session is at rest, its incumbent is the copy of an accepted evaluation, and it
has no row. -/
theorem not_always_sound :
    ¬ ∀ (world : World Nat Unit) (task : String) (events : List (Event Nat Unit))
      (state : State Nat Unit), run world task fresh events = some state → Sound world state := by
  intro always
  have sound := always countWorld "stack" cancelledRun (stateAfter cancelledRun) rfl
  have recorded := sound.recorded _ rfl rfl
  rcases recorded (.snap 1 1) rfl with ⟨row, impossible, _⟩
  cases impossible

end Example

end Evolve
end PhysicalHarness
