import PhysicalHarness.Evolve.Loop

namespace PhysicalHarness
namespace Evolve

/-!
# What an evaluation is judged against

An evaluation compares the suite of the copy with `before`.  A confirmation widens the
range of the campaign, and `before` stays as it was measured: on the old range.  It is
measured anew by an acceptance that asked no fresh seeds, or at the head of a round that
holds no baseline from such an acceptance.
-/

variable {Content Tunables : Type}

/-! ## Measurements -/

def Snapped (doc : Doc Tunables) : Prop :=
  ∀ dir, doc.incumbent.workspace = some dir → ∃ round k, dir = .snap round k

/-- The suite has the rows of a range that ends before the campaign's. -/
def Outgrown (doc : Doc Tunables) (suite : Suite) : Prop :=
  ∃ high, high < doc.high ∧ doc.low ≤ doc.high ∧ Assoc.keys suite = seedRange doc.low high

def OfIncumbent (world : World Content Tunables) (disk : Disk Content Tunables)
    (doc : Doc Tunables) (suite : Suite) : Prop :=
  ∃ card, disk.card world doc.incumbent.workspace = some card ∧
    suite = world.suite (seedRange doc.low doc.high) card doc.incumbent.tunables

/-- What `before` is, by whether the range was widened since. -/
def Measured (world : World Content Tunables) (disk : Disk Content Tunables)
    (doc : Doc Tunables) (before : Suite) (confirmed : Bool) : Prop :=
  (confirmed = true → Outgrown doc before) ∧ (confirmed = false → OfIncumbent world disk doc before)

theorem Outgrown.keys_ne {doc : Doc Tunables} {suite : Suite} (outgrown : Outgrown doc suite) :
    Assoc.keys suite ≠ seedRange doc.low doc.high := by
  rcases outgrown with ⟨high, less, nonempty, keys⟩
  intro same
  have lengths := congrArg List.length (keys.symm.trans same)
  rw [length_seedRange, length_seedRange] at lengths
  omega

variable {disk : Disk Content Tunables} {confirmed : Bool}

theorem OfIncumbent.keys {world : World Content Tunables} {doc : Doc Tunables} {suite : Suite}
    (measured : OfIncumbent world disk doc suite) :
    Assoc.keys suite = seedRange doc.low doc.high := by
  rcases measured with ⟨card, _, same⟩
  rw [same, World.keys_suite]

theorem Measured.outgrown {world : World Content Tunables} {doc : Doc Tunables} {before : Suite}
    (measured : Measured world disk doc before confirmed) (nonempty : doc.low ≤ doc.high)
    {high : Int} (grown : doc.high < high) : Outgrown { doc with high } before := by
  have wide : doc.low ≤ high := le_trans nonempty grown.le
  cases confirmed with
  | false => exact ⟨doc.high, grown, wide, (measured.2 rfl).keys⟩
  | true =>
      rcases measured.1 rfl with ⟨old, less, _, keys⟩
      exact ⟨old, less.trans grown, wide, keys⟩

theorem card_put {world : World Content Tunables} {dir : Dir} {workspace : Option Dir}
    (apart : workspace ≠ some dir) (copy : Option Content) :
    (disk.put dir copy).card world workspace = disk.card world workspace := by
  cases workspace with
  | none => rfl
  | some other =>
      have different : other ≠ dir := fun same => apart (congrArg some same)
      exact Function.update_of_ne different copy disk.tree

theorem Outgrown.measured {world : World Content Tunables} {doc : Doc Tunables} {before : Suite}
    (outgrown : Outgrown doc before) :
    Measured world disk doc before true :=
  ⟨fun _ => outgrown, nofun⟩

theorem OfIncumbent.measured {world : World Content Tunables} {doc : Doc Tunables} {before : Suite}
    (measured : OfIncumbent world disk doc before) :
    Measured world disk doc before false :=
  ⟨nofun, fun _ => measured⟩

theorem Measured.put {world : World Content Tunables} {doc : Doc Tunables} {before : Suite}
    {dir : Dir} (measured : Measured world disk doc before confirmed)
    (apart : doc.incumbent.workspace ≠ some dir) (copy : Option Content) :
    Measured world (disk.put dir copy) doc before confirmed := by
  refine ⟨measured.1, ?_⟩
  intro unconfirmed
  rcases measured.2 unconfirmed with ⟨card, here, same⟩
  exact ⟨card, (card_put apart copy).trans here, same⟩

theorem Snapped.ne_work {doc : Doc Tunables} (snapped : Snapped doc) (round : Nat) :
    doc.incumbent.workspace ≠ some (.work round) := by
  intro same
  rcases snapped (.work round) same with ⟨_, _, never⟩
  cases never

theorem ne_of_dropped {doc : Doc Tunables} {dir : Dir} (dropped : doc.keeps dir = false) :
    doc.incumbent.workspace ≠ some dir := by
  intro same
  rw [Doc.keeps, same, beq_self_eq_true, Bool.or_true, Bool.true_or] at dropped
  cases dropped

/-! ## Every run -/

/-- The copy that was evaluated is there, and its suite is of the range, or of the range
before the fresh seeds were taken in. -/
def Copied (world : World Content Tunables) (disk : Disk Content Tunables)
    (process : Process Tunables) (after : Suite) (confirmed : Bool) : Prop :=
  process.dev = seedRange process.doc.low process.doc.high ∧
    (confirmed = true → Outgrown process.doc after) ∧
    (confirmed = false → ∀ copy, disk.tree (.work process.round) = some copy →
      after = world.suite (seedRange process.doc.low process.doc.high) copy process.tunables)

/-- What each stage knows of `before`. -/
def Settled (world : World Content Tunables) (disk : Disk Content Tunables)
    (process : Process Tunables) : Prop :=
  match process.stage with
  | .head =>
      process.base.isSome = true → Measured world disk process.doc process.before process.confirmed
  | .working =>
      Measured world disk process.doc process.before process.confirmed ∧
        process.dev = seedRange process.doc.low process.doc.high
  | .snapping after confirmed => Copied world disk process after confirmed
  | _ => Measured world disk process.doc process.before process.confirmed

structure Current (world : World Content Tunables) (disk : Disk Content Tunables)
    (process : Process Tunables) : Prop where
  snapped : Snapped process.doc
  cached : ∀ base, process.base = some base → process.before = base
  settled : Settled world disk process

structure Tracked (world : World Content Tunables) (state : State Content Tunables) : Prop where
  saved : ∀ doc, state.disk.campaign = some doc → Snapped doc
  current : ∀ process, state.process = some process → Current world state.disk process

variable {world : World Content Tunables} {task : String} {state next : State Content Tunables}
  {process : Process Tunables}

theorem tracked_fresh : Tracked world (fresh : State Content Tunables) :=
  ⟨fun _ => nofun, fun _ => nofun⟩

theorem snapped_located {doc : Doc Tunables} (snapped : Snapped doc) (disk : Disk Content Tunables) :
    Snapped (doc.located disk) := by
  rw [Doc.located]
  split_ifs
  · intro dir never
    cases never
  · exact snapped

theorem snapped_loaded (tracked : Tracked world state) (low high : Int) :
    Snapped (loaded world state.disk low high) := by
  apply snapped_located
  cases there : state.disk.campaign with
  | none =>
      intro dir never
      cases never
  | some doc => exact tracked.saved doc there

theorem Tracked.leave (tracked : Tracked world state) (up : state.process = some process) :
    Tracked world (state.leave process.doc) := by
  refine ⟨?_, fun _ => nofun⟩
  intro doc same
  cases same
  exact (tracked.current process up).snapped

theorem Tracked.down (tracked : Tracked world state)
    (campaign : disk.campaign = state.disk.campaign) :
    Tracked world { state with disk, process := none } := by
  refine ⟨?_, fun _ => nofun⟩
  intro doc same
  exact tracked.saved doc (campaign.symm.trans same)

theorem Tracked.go (tracked : Tracked world state) {after : Process Tunables} {taken : List String}
    {accepted : List (Content × Tunables)}
    (campaign : disk.campaign = state.disk.campaign ∨ disk.campaign = some after.doc)
    (current : Current world disk after) :
    Tracked world { state with disk, process := some after, taken, accepted } := by
  refine ⟨?_, ?_⟩
  · intro doc same
    rcases campaign with kept | saved
    · exact tracked.saved doc (kept.symm.trans same)
    · cases saved.symm.trans same
      exact current.snapped
  · intro found same
    cases same
    exact current

theorem Current.starting (current : Current world state.disk process) {before : Suite}
    (cached : ∀ base, process.base = some base → before = base)
    (measured : Measured world state.disk process.doc before confirmed) :
    Current world state.disk { process.starting state.disk with before, confirmed } :=
  ⟨current.snapped, cached, measured⟩

theorem Tracked.begins (tracked : Tracked world state) (up : state.process = some process)
    (at_ : process.stage = .head) (begun : Begins world state process next) : Tracked world next := by
  have current := tracked.current process up
  cases begun with
  | kept cached =>
      have settled := current.settled
      rw [Settled, at_] at settled
      rw [← current.cached _ cached]
      apply tracked.go (.inl rfl)
      exact current.starting current.cached (settled (by rw [cached]; rfl))
  | measured uncached card =>
      apply tracked.go (.inl rfl)
      apply current.starting
      · intro base same
        rw [uncached] at same
        cases same
      · exact OfIncumbent.measured ⟨_, card, rfl⟩
  | missing => exact tracked.leave up

theorem nonempty_of_asks {copy : Content} (dev : process.dev = seedRange process.doc.low process.doc.high)
    (asked : asks process (world.suite process.dev copy process.tunables) = true) :
    process.doc.low ≤ process.doc.high ∧
      process.doc.high < process.doc.high + process.confirmSeeds := by
  rw [asks, Bool.and_eq_true, Bool.and_eq_true, decide_eq_true_eq, decide_eq_true_eq] at asked
  rcases asked with ⟨⟨_, more⟩, seeds⟩
  have some_ : process.dev ≠ [] := World.seeds_of_count (Nat.zero_lt_of_lt more)
  rw [dev] at some_
  rcases List.exists_mem_of_ne_nil _ some_ with ⟨seed, inside⟩
  rw [mem_seedRange] at inside
  exact ⟨le_trans inside.1 inside.2, by omega⟩

theorem Current.widen (current : Current world state.disk process) (at_ : process.stage = .working)
    {copy : Content} (asked : asks process (world.suite process.dev copy process.tunables) = true)
    (accepted : Bool) :
    Current world (state.disk.save process.widen.doc)
      (process.widen.judge (world.suite process.dev copy process.tunables) accepted true) := by
  have settled := current.settled
  rw [Settled, at_] at settled
  rcases settled with ⟨measured, dev⟩
  rcases nonempty_of_asks dev asked with ⟨nonempty, grown⟩
  rw [Process.judge]
  split_ifs
  · refine ⟨current.snapped, current.cached, ?_⟩
    refine ⟨rfl, fun _ => ?_, nofun⟩
    exact ⟨process.doc.high, grown, le_trans nonempty grown.le, by rw [World.keys_suite, dev]; rfl⟩
  · refine ⟨current.snapped, current.cached, ?_⟩
    rw [Settled, show (Process.widen process).stage = .working from at_]
    exact ⟨(measured.outgrown nonempty grown).measured, rfl⟩

theorem Current.judge (current : Current world state.disk process) (at_ : process.stage = .working)
    {copy : Content} (here : state.disk.tree (.work process.round) = some copy) (accepted : Bool) :
    Current world state.disk
      (process.judge (world.suite process.dev copy process.tunables) accepted false) := by
  have settled := current.settled
  rw [Settled, at_] at settled
  rcases settled with ⟨measured, dev⟩
  rw [Process.judge]
  split_ifs
  · refine ⟨current.snapped, current.cached, ?_⟩
    refine ⟨dev, nofun, ?_⟩
    intro _ other there
    have same : copy = other := Option.some.inj (here.symm.trans there)
    rw [← same, dev]
  · refine ⟨current.snapped, current.cached, ?_⟩
    rw [Settled, at_]
    exact ⟨measured, dev⟩

theorem Tracked.evaluated (tracked : Tracked world state) (up : state.process = some process)
    (at_ : process.stage = .working) {copy : Content}
    (here : state.disk.tree (.work process.round) = some copy) (confirmFails : Bool) :
    Tracked world (evaluateState world state process copy confirmFails) := by
  have current := tracked.current process up
  rw [evaluateState]
  split_ifs with asked
  · apply tracked.go
    · right
      rw [Process.judge]
      split_ifs <;> rfl
    · exact current.widen at_ asked _
  · exact tracked.go (.inl rfl) (current.judge at_ here _)

theorem Tracked.committed (tracked : Tracked world state) (up : state.process = some process)
    {after : Suite} {copy : Content} (at_ : process.stage = .snapping after confirmed)
    (here : state.disk.tree (.work process.round) = some copy) :
    Tracked world (commitState state process copy after confirmed) := by
  have settled := (tracked.current process up).settled
  rw [Settled, at_] at settled
  have placed : ((state.disk.put process.snapDir (some copy)).card world
      (some process.snapDir)) = some copy := Function.update_self _ _ _
  apply tracked.go (.inr rfl)
  refine ⟨?_, ?_, ?_⟩
  · intro dir same
    cases same
    exact ⟨_, _, rfl⟩
  · intro base same
    cases confirmed with
    | true => cases same
    | false => exact Option.some.inj same
  · refine ⟨⟨settled.2.1, ?_⟩, settled.1⟩
    intro unconfirmed
    exact ⟨copy, placed, settled.2.2 unconfirmed copy here⟩

theorem Current.measured (current : Current world disk process) (at_ : process.stage ≠ .head)
    (unsnapped : ∀ after confirmed, process.stage ≠ .snapping after confirmed) :
    Measured world disk process.doc process.before process.confirmed := by
  have settled := current.settled
  rw [Settled] at settled
  split at settled
  case h_1 head => exact absurd head at_
  case h_2 => exact settled.1
  case h_3 after confirmed snapping => exact absurd snapping (unsnapped after confirmed)
  case h_4 => exact settled

theorem Settled.congr {other : Disk Content Tunables} (tree : other.tree = disk.tree)
    (settled : Settled world disk process) : Settled world other process := by
  cases disk
  cases other
  cases tree
  exact settled

theorem Current.same (current : Current world state.disk process) {after : Process Tunables}
    (incumbent : after.doc.incumbent = process.doc.incumbent) (base : after.base = process.base)
    (before : after.before = process.before) (settled : Settled world disk after) :
    Current world disk after := by
  refine ⟨?_, ?_, settled⟩
  · intro dir same
    rw [incumbent] at same
    exact current.snapped dir same
  · rw [base, before]
    exact current.cached

theorem Tracked.closed (tracked : Tracked world state) (up : state.process = some process)
    (at_ : process.stage = .advanced) (error : Bool) :
    Tracked world (closeRound state process error) := by
  have current := tracked.current process up
  have settled := current.settled
  rw [Settled, at_] at settled
  rw [closeRound]
  split_ifs
  · exact tracked.leave up
  · apply tracked.go (.inr rfl)
    refine ⟨current.snapped, ?_, fun _ => settled⟩
    intro base same
    rcases Option.map_eq_some_iff.mp same with ⟨_, _, kept⟩
    exact kept

theorem Tracked.kept {event : Event Content Tunables} (tracked : Tracked world state)
    (moved : Moves world task state event next) : Tracked world next := by
  cases moved with
  | submit id owner new =>
      refine ⟨tracked.saved, ?_⟩
      intro process up
      have current := tracked.current process up
      exact current.same rfl rfl rfl (current.settled.congr rfl)
  | boot low high confirmSeeds rounds down =>
      apply tracked.go (.inr rfl)
      exact ⟨snapped_loaded tracked low high, fun _ => nofun, nofun⟩
  | saved up saves => exact tracked.leave up
  | begin up at_ begun => exact tracked.begins up at_ begun
  | evaluated confirmFails up at_ here nonempty =>
      exact tracked.evaluated up at_ here confirmFails
  | committed up at_ here => exact tracked.committed up at_ here
  | closed error up at_ => exact tracked.closed up at_ error
  | nothing fails confirmFails up at_ => exact tracked
  | @clearing process source left up at_ =>
      have current := tracked.current _ up
      have measured := current.measured (by simp [at_]) (by simp [at_])
      rw [up]
      refine tracked.go (.inl rfl) (current.same rfl rfl rfl ?_)
      rw [Settled, at_]
      exact measured.put (current.snapped.ne_work process.round) left
  | @created process source copy up at_ =>
      have current := tracked.current _ up
      have measured := current.measured (by simp [at_]) (by simp [at_])
      refine tracked.go (.inl rfl) (current.same rfl rfl rfl ?_)
      exact measured.put (current.snapped.ne_work process.round) (some copy)
  | untaken up at_ none_ =>
      have current := tracked.current _ up
      have measured := current.measured (by simp [at_]) (by simp [at_])
      exact tracked.go (.inl rfl) (current.same rfl rfl rfl measured)
  | @taken process proposal up at_ found =>
      have current := tracked.current _ up
      have measured := current.measured (by simp [at_]) (by simp [at_])
      refine tracked.go (.inl rfl) (current.same rfl rfl rfl ?_)
      exact measured
  | opened up at_ =>
      have current := tracked.current _ up
      have measured := current.measured (by simp [at_]) (by simp [at_])
      exact tracked.go (.inl rfl) (current.same rfl rfl rfl ⟨measured, rfl⟩)
  | @edited process copy tunables up at_ =>
      have current := tracked.current _ up
      have settled := current.settled
      rw [Settled, at_] at settled
      refine tracked.go (.inl rfl) (current.same rfl rfl rfl ?_)
      rw [Settled, at_]
      exact ⟨settled.1.put (current.snapped.ne_work process.round) copy, settled.2⟩
  | receipt up at_ =>
      have current := tracked.current _ up
      have settled := current.settled
      rw [Settled, at_] at settled
      refine tracked.go (.inl rfl) (current.same rfl rfl rfl ?_)
      rw [Settled, show (Process.receipt _).stage = .working from at_]
      exact settled
  | @copying process after confirmed left up at_ =>
      have current := tracked.current _ up
      have settled := current.settled
      rw [Settled, at_] at settled
      rw [up]
      refine tracked.go (.inl rfl) (current.same rfl rfl rfl ?_)
      rw [Settled, at_]
      refine ⟨settled.1, settled.2.1, ?_⟩
      intro unconfirmed copy here
      have apart : Dir.work process.round ≠ process.snapDir := nofun
      apply settled.2.2 unconfirmed copy
      rw [← here]
      exact (Function.update_of_ne apart left state.disk.tree).symm
  | parked keep up at_ =>
      have current := tracked.current _ up
      have measured := current.measured (by simp [at_]) (by simp [at_])
      exact tracked.go (.inl rfl) (current.same rfl rfl rfl measured)
  | appended up at_ =>
      have current := tracked.current _ up
      have measured := current.measured (by simp [at_]) (by simp [at_])
      exact tracked.go (.inl rfl) (current.same rfl rfl rfl measured)
  | advanced up at_ =>
      have current := tracked.current _ up
      have measured := current.measured (by simp [at_]) (by simp [at_])
      exact tracked.go (.inl rfl) (current.same rfl rfl rfl measured)
  | @trimmed process dir left up at_ dropped =>
      have current := tracked.current _ up
      have measured := current.measured (by simp [at_]) (by simp [at_])
      rw [up]
      refine tracked.go (.inl rfl) (current.same rfl rfl rfl ?_)
      rw [Settled, at_]
      exact measured.put (ne_of_dropped dropped) left
  | _ => exact tracked.down rfl

/-- `evaluate_state` compares `before` with this suite. -/
structure Compares (world : World Content Tunables) (state : State Content Tunables)
    (process : Process Tunables) (after : Suite) : Prop where
  up : state.process = some process
  working : process.stage = .working
  nonempty : process.doc.low ≤ process.doc.high
  measured : ∃ copy, state.disk.tree (.work process.round) = some copy ∧
    after = world.suite process.dev copy process.tunables

/-- Both suites are of the range of the campaign, and `before` is the incumbent's on it. -/
structure Judged (world : World Content Tunables) (disk : Disk Content Tunables)
    (process : Process Tunables) (after : Suite) : Prop where
  before : Assoc.keys process.before = seedRange process.doc.low process.doc.high
  after : Assoc.keys after = seedRange process.doc.low process.doc.high
  incumbent : OfIncumbent world disk process.doc process.before

/-- In every state of every run: what `evaluate_state` compares is of the whole range and
against the incumbent if and only if no fresh seeds were taken in since `before` was
measured. -/
theorem judged_iff_unconfirmed (world : World Content Tunables) (task : String)
    (events : List (Event Content Tunables)) (state : State Content Tunables)
    (process : Process Tunables) (after : Suite)
    (ran : run world task fresh events = some state) (compares : Compares world state process after) :
    Judged world state.disk process after ↔ process.confirmed = false := by
  have tracked : Tracked world state := by
    refine Schedule.invariant ?_ tracked_fresh ran
    intro event now later holds stepped
    exact holds.kept (moves_of_step stepped)
  have settled := (tracked.current process compares.up).settled
  rw [Settled, compares.working] at settled
  rcases settled with ⟨measured, dev⟩
  rcases compares.measured with ⟨copy, _, same⟩
  constructor
  · intro judged
    rw [← Bool.not_eq_true]
    intro confirmed
    exact (measured.1 confirmed).keys_ne judged.before
  · intro unconfirmed
    have incumbent := measured.2 unconfirmed
    exact ⟨incumbent.keys, by rw [same, World.keys_suite, dev], incumbent⟩

section Example

/-- The first evaluation of a round is under way. -/
def firstRun : List (Event Nat Unit) :=
  [.boot 0 1 1 0, .begin, .create, .take, .openEndpoint, .edit (some 1) ()]

/-- It is accepted and takes one fresh seed in, and the second evaluation is under way. -/
def secondRun : List (Event Nat Unit) :=
  firstRun ++ [.evaluate false false, .commit, .edit (some 2) ()]

def firstProcess : Process Unit where
  doc := freshDoc countWorld 0 1
  confirmSeeds := 1
  rounds := 0
  completed := 0
  base := none
  before := countWorld.suite [0, 1] 0 ()
  incDir := none
  round := 1
  tunables := ()
  dev := [0, 1]
  evals := []
  proposal := none
  confirmed := false
  stage := .working

def secondProcess : Process Unit :=
  { firstProcess with
    doc := { freshDoc countWorld 0 2 with incumbent := ⟨some (.snap 1 1), (), 1⟩ }
    before := countWorld.suite [0, 1] 1 ()
    incDir := some (.snap 1 1)
    dev := [0, 1, 2]
    evals := [true]
    confirmed := true }

theorem judged_iff_unconfirmed_first :
    Judged countWorld (stateAfter firstRun).disk firstProcess (countWorld.suite [0, 1] 1 ()) :=
  (judged_iff_unconfirmed countWorld "stack" firstRun (stateAfter firstRun) firstProcess
    (countWorld.suite [0, 1] 1 ()) rfl ⟨rfl, rfl, by decide, 1, rfl, rfl⟩).mpr rfl

/-- The second evaluation has three seeds, and is compared with a suite of two. -/
theorem not_always_judged :
    ¬ ∀ (world : World Nat Unit) (task : String) (events : List (Event Nat Unit))
      (state : State Nat Unit) (process : Process Unit) (after : Suite),
      run world task fresh events = some state → Compares world state process after →
        Judged world state.disk process after := by
  intro always
  have judged := always countWorld "stack" secondRun (stateAfter secondRun) secondProcess
    (countWorld.suite [0, 1, 2] 2 ()) rfl ⟨rfl, rfl, by decide, 2, rfl, rfl⟩
  have keys : Assoc.keys (countWorld.suite [0, 1] 1 ()) = seedRange 0 2 := judged.before
  exact absurd keys (by decide)

end Example

end Evolve
end PhysicalHarness
