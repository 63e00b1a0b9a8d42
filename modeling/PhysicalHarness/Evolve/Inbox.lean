import Mathlib.Data.String.Basic
import PhysicalHarness.Evolve.Loop

namespace PhysicalHarness
namespace Evolve

/-!
# The proposals of a session

A round stamps the oldest pending proposal of its task before the model is reached, and
its row is appended when the round is over.  A run that ends in between leaves a proposal
that is neither pending nor in a row.  Where no such run ends so, and ids ascend as
proposals are submitted, each proposal is pending, in one row, or in the round in
progress, and they are taken in the order of their submission.
-/

variable {Content Tunables : Type}

/-- The rounds of the campaign on disk. -/
def Disk.rows (disk : Disk Content Tunables) : List RoundRow :=
  (disk.campaign.map Doc.rounds).getD []

def uses (id : String) (rows : List RoundRow) : List RoundRow :=
  rows.filter (fun row => row.proposal == some id)

def pending (task : String) (proposals : List Proposal) : List String :=
  (proposals.filter (Proposal.waits task)).map Proposal.id

/-- What was submitted for a task. -/
def owned (task : String) (submitted : List (String × String)) : List String :=
  (submitted.filter (fun entry => entry.2 == task)).map Prod.fst

/-- Pending and in no row, or in one row of the round it was applied in, or of the round
in progress. -/
def Accounts (rows : List RoundRow) (progress : String → Nat → Prop) (proposal : Proposal) : Prop :=
  (proposal.applied = none ∧ uses proposal.id rows = []) ∨
    ∃ round, proposal.applied = some round ∧
      ((∃ row, uses proposal.id rows = [row] ∧ row.round = round) ∨
        (uses proposal.id rows = [] ∧ progress proposal.id round))

/-- The round in progress, whose row is not on disk, took the proposal. -/
def InProgress (state : State Content Tunables) (id : String) (round : Nat) : Prop :=
  ∃ process, state.process = some process ∧ process.stage.unsaved = true ∧
    process.proposal = some id ∧ process.round = round

/-- No proposal is lost or used twice, and they are taken in order. -/
structure Accounted (task : String) (state : State Content Tunables) : Prop where
  inbox : state.disk.proposals.map (fun proposal => (proposal.id, proposal.task)) = state.submitted
  each : ∀ proposal ∈ state.disk.proposals, proposal.task = task →
    Accounts state.disk.rows (InProgress state) proposal
  order : owned task state.submitted = state.taken ++ pending task state.disk.proposals

def Event.submits : Event Content Tunables → Option String
  | .submit id _ => some id
  | _ => none

def Event.appends : Event Content Tunables → Bool
  | .append => true
  | _ => false

def Ascends (event : Event Content Tunables) (state : State Content Tunables) : Prop :=
  ∀ id ∈ event.submits, ∀ entry ∈ state.submitted, entry.1 < id

def RunsOut (event : Event Content Tunables) (state : State Content Tunables) : Prop :=
  ∀ process ∈ state.process, process.proposal.isSome = true →
    (event.saves = true → process.stage.unrowed = false) ∧
    (event.crashes = true → process.stage.unsaved = false) ∧
    (event.appends = true → process.doc.low ≤ process.doc.high)

def Orderly (event : Event Content Tunables) (state : State Content Tunables) : Prop :=
  Ascends event state ∧ RunsOut event state

instance decidableAscends (event : Event Content Tunables) (state : State Content Tunables) :
    Decidable (Ascends event state) :=
  Option.decidableForallMem event.submits

instance decidableRunsOut (event : Event Content Tunables) (state : State Content Tunables) :
    Decidable (RunsOut event state) :=
  Option.decidableForallMem state.process

instance (event : Event Content Tunables) (state : State Content Tunables) :
    Decidable (Orderly event state) :=
  inferInstanceAs (Decidable (_ ∧ _))

/-! ## Taking from the inbox -/

theorem stamp_of_not_mem {id : String} {proposals : List Proposal}
    (absent : id ∉ proposals.map Proposal.id) (round : Nat) : stamp id round proposals = proposals := by
  rw [stamp]
  nth_rewrite 2 [← List.map_id proposals]
  apply List.map_congr_left
  intro proposal mem
  apply if_neg
  intro same
  apply absent
  rw [← same]
  exact List.mem_map_of_mem mem

theorem pending_of_find {task : String} {proposals : List Proposal} {first : Proposal}
    (unique : (proposals.map Proposal.id).Nodup)
    (found : proposals.find? (Proposal.waits task) = some first) (round : Nat) :
    pending task proposals = first.id :: pending task (stamp first.id round proposals) := by
  induction proposals with
  | nil => cases found
  | cons proposal rest ih =>
      rw [List.map_cons, List.nodup_cons] at unique
      rw [List.find?_cons] at found
      cases waits : Proposal.waits task proposal with
      | true =>
          rw [waits] at found
          cases found
          have stamped : ¬ Proposal.waits task { first with applied := some round } = true := by
            rw [Proposal.waits, Option.isNone_some, Bool.and_false]
            exact Bool.false_ne_true
          rw [stamp, List.map_cons, if_pos rfl, ← stamp, stamp_of_not_mem unique.1, pending, pending,
            List.filter_cons_of_pos waits, List.filter_cons_of_neg stamped]
          rfl
      | false =>
          rw [waits] at found
          have apart : proposal.id ≠ first.id := by
            intro same
            apply unique.1
            rw [same]
            exact List.mem_map_of_mem (List.mem_of_find?_eq_some found)
          have rests : ¬ Proposal.waits task proposal = true := Bool.not_eq_true _ ▸ waits
          rw [stamp, List.map_cons, if_neg apart, ← stamp, pending, pending,
            List.filter_cons_of_neg rests, List.filter_cons_of_neg rests]
          exact ih unique.2 found

theorem inbox_eq {proposals : List Proposal}
    (ascending : proposals.Pairwise (fun left right => left.id < right.id)) :
    inbox proposals = proposals :=
  List.Pairwise.insertionSort_eq (ascending.imp fun less => le_of_lt less)

/-! ## The books

What the proposals, the rows on disk and the round in progress have to agree on. -/

structure View where
  rounds : List RoundRow
  round : Nat
  proposal : Option String
  unsaved : Bool
  unrowed : Bool
  early : Bool

def Stage.early : Stage → Bool
  | .creating _ | .taking => true
  | _ => false

def Process.view (process : Process Tunables) : View where
  rounds := process.doc.rounds
  round := process.round
  proposal := process.proposal
  unsaved := process.stage.unsaved
  unrowed := process.stage.unrowed
  early := process.stage.early

def Holds (view : Option View) (id : String) (round : Nat) : Prop :=
  ∃ now ∈ view, now.unsaved = true ∧ now.proposal = some id ∧ now.round = round

/-- What the process holds beyond the disk. -/
structure Carries (submitted : List (String × String)) (proposals : List Proposal)
    (rows : List RoundRow) (now : View) : Prop where
  saved : now.unrowed = true ∨ now.unsaved = false → now.rounds = rows
  rowed : now.unrowed = false → now.unsaved = true →
    ∃ row, now.rounds = rows ++ [row] ∧ row.proposal = now.proposal ∧ row.round = now.round
  open_ : now.unsaved = true → ∀ id, now.proposal = some id →
    uses id rows = [] ∧ id ∈ submitted.map Prod.fst ∧
      ∀ proposal ∈ proposals, proposal.id = id → proposal.applied = some now.round
  early : now.early = true → now.proposal = none ∧ now.unrowed = true ∧ now.unsaved = true

structure Balanced (task : String) (submitted : List (String × String)) (taken : List String)
    (proposals : List Proposal) (rows : List RoundRow) (view : Option View) : Prop where
  inbox : proposals.map (fun proposal => (proposal.id, proposal.task)) = submitted
  ascending : submitted.Pairwise (fun left right => left.1 < right.1)
  order : owned task submitted = taken ++ pending task proposals
  each : ∀ proposal ∈ proposals, proposal.task = task → Accounts rows (Holds view) proposal
  named : ∀ row ∈ rows, ∀ id, row.proposal = some id → id ∈ submitted.map Prod.fst
  carries : ∀ now ∈ view, Carries submitted proposals rows now

variable {task : String} {submitted : List (String × String)} {taken : List String}
  {proposals : List Proposal} {rows : List RoundRow} {view : Option View} {now later : View}

theorem uses_append (id : String) (row : RoundRow) :
    uses id (rows ++ [row]) = uses id rows ++ if row.proposal = some id then [row] else [] := by
  rw [uses, List.filter_append, List.filter_cons, List.filter_nil, ← uses]
  by_cases same : row.proposal = some id
  · rw [if_pos same, if_pos (beq_iff_eq.mpr same)]
  · rw [if_neg same, if_neg (fun holds => same (beq_iff_eq.mp holds))]

theorem Accounts.mono {progress other : String → Nat → Prop} {proposal : Proposal}
    (accounts : Accounts rows progress proposal)
    (kept : ∀ round, progress proposal.id round → other proposal.id round) :
    Accounts rows other proposal := by
  rcases accounts with waits | ⟨round, applied, recorded | ⟨unused, held⟩⟩
  · exact .inl waits
  · exact .inr ⟨round, applied, .inl recorded⟩
  · exact .inr ⟨round, applied, .inr ⟨unused, kept round held⟩⟩

theorem Accounts.idle {progress : String → Nat → Prop} {proposal : Proposal}
    (accounts : Accounts rows (Holds (some now)) proposal)
    (free : now.unsaved = true → now.proposal = none) : Accounts rows progress proposal := by
  apply accounts.mono
  intro round held
  rcases held with ⟨_, same, unsaved, taken, _⟩
  cases same
  rw [free unsaved] at taken
  cases taken

theorem Balanced.unique (balanced : Balanced task submitted taken proposals rows view) :
    (proposals.map Proposal.id).Nodup := by
  have ids : proposals.map Proposal.id = submitted.map Prod.fst := by
    rw [← balanced.inbox, List.map_map]
    rfl
  rw [ids]
  exact List.pairwise_map.mpr (balanced.ascending.imp fun less => ne_of_lt less)

theorem Balanced.sorted (balanced : Balanced task submitted taken proposals rows view) :
    Evolve.inbox proposals = proposals := by
  apply inbox_eq
  have ascending := balanced.ascending
  rw [← balanced.inbox, List.pairwise_map] at ascending
  exact ascending

theorem balanced_nil : Balanced task [] [] [] [] none :=
  ⟨rfl, List.Pairwise.nil, rfl, fun _ => nofun, fun _ => nofun, fun _ => nofun⟩

/-- The process goes on and what the books know of it stays, or it is at its head or early
in a round. -/
theorem Balanced.idle (balanced : Balanced task submitted taken proposals rows (some now))
    (free : now.unsaved = true → now.proposal = none)
    (carries : Carries submitted proposals rows later) :
    Balanced task submitted taken proposals rows (some later) where
  inbox := balanced.inbox
  ascending := balanced.ascending
  order := balanced.order
  each proposal mem owned := (balanced.each proposal mem owned).idle free
  named := balanced.named
  carries := fun _ same => by cases same; exact carries

theorem Balanced.submit (balanced : Balanced task submitted taken proposals rows view)
    {id : String} (owner : String) (ascends : ∀ entry ∈ submitted, entry.1 < id) :
    Balanced task (submitted ++ [(id, owner)]) taken (proposals ++ [⟨id, owner, none⟩]) rows view := by
  have fresh_ : id ∉ submitted.map Prod.fst := by
    intro mem
    rcases List.mem_map.mp mem with ⟨entry, listed, same⟩
    exact absurd (ascends entry listed) (same ▸ lt_irrefl _)
  refine ⟨?_, ?_, ?_, ?_, ?_, ?_⟩
  · rw [List.map_append, balanced.inbox]
    rfl
  · rw [List.pairwise_append]
    refine ⟨balanced.ascending, List.pairwise_singleton _ _, ?_⟩
    intro entry mem other here
    rw [List.mem_singleton.mp here]
    exact ascends entry mem
  · rw [owned, List.filter_append, List.map_append, ← owned, balanced.order, pending, pending,
      List.filter_append, List.map_append, List.append_assoc]
    congr 2
    by_cases same : owner = task
    · rw [List.filter_cons_of_pos (by simp [same]), List.filter_cons_of_pos (by simp [same, Proposal.waits])]
      rfl
    · rw [List.filter_cons_of_neg (by simp [same]), List.filter_cons_of_neg (by simp [same, Proposal.waits])]
      rfl
  · intro proposal mem task_
    rcases List.mem_append.mp mem with old | new
    · exact balanced.each proposal old task_
    · rw [List.mem_singleton.mp new]
      refine .inl ⟨rfl, ?_⟩
      rw [uses, List.filter_eq_nil_iff]
      intro row listed names
      exact fresh_ (balanced.named row listed id (beq_iff_eq.mp names))
  · intro row listed other names
    rw [List.map_append]
    exact List.mem_append_left _ (balanced.named row listed other names)
  · intro current same
    have carries := balanced.carries current same
    refine ⟨carries.saved, carries.rowed, ?_, carries.early⟩
    intro unsaved other names
    rcases carries.open_ unsaved other names with ⟨unused, known, applied⟩
    refine ⟨unused, ?_, ?_⟩
    · rw [List.map_append]
      exact List.mem_append_left _ known
    · intro proposal mem same
      rcases List.mem_append.mp mem with old | new
      · exact applied proposal old same
      · rw [List.mem_singleton.mp new] at same
        rw [← same] at known
        exact absurd known fresh_

theorem mem_stamp {id : String} {round : Nat} {stamped : Proposal}
    (mem : stamped ∈ stamp id round proposals) :
    (∃ proposal ∈ proposals, proposal.id = id ∧ stamped = { proposal with applied := some round }) ∨
      (stamped ∈ proposals ∧ stamped.id ≠ id) := by
  rcases List.mem_map.mp mem with ⟨proposal, listed, same⟩
  by_cases here : proposal.id = id
  · rw [if_pos here] at same
    exact .inl ⟨proposal, listed, here, same.symm⟩
  · rw [if_neg here] at same
    rw [← same]
    exact .inr ⟨listed, here⟩

theorem Balanced.take (balanced : Balanced task submitted taken proposals rows (some now))
    (early : now.early = true) {first : Proposal} (found : oldest task proposals = some first) :
    Balanced task submitted (taken ++ [first.id]) (stamp first.id now.round proposals) rows
      (some { now with proposal := some first.id, early := false }) := by
  have carries := balanced.carries now rfl
  rcases carries.early early with ⟨none_, unrowed, unsaved⟩
  rw [oldest, balanced.sorted] at found
  have mem := List.mem_of_find?_eq_some found
  have waits := List.find?_some found
  rw [Proposal.waits, Bool.and_eq_true, beq_iff_eq, Option.isNone_iff_eq_none] at waits
  have unused : uses first.id rows = [] := by
    rcases balanced.each first mem waits.1 with ⟨_, unused⟩ | ⟨round, applied, _⟩
    · exact unused
    · rw [waits.2] at applied
      cases applied
  refine ⟨?_, balanced.ascending, ?_, ?_, balanced.named, ?_⟩
  · rw [← balanced.inbox, stamp, List.map_map]
    apply List.map_congr_left
    intro proposal _
    rw [Function.comp_apply]
    split_ifs <;> rfl
  · rw [balanced.order, pending_of_find balanced.unique found now.round, List.append_assoc]
    rfl
  · intro proposal listed owned
    rcases mem_stamp listed with ⟨old, _, same, stamped⟩ | ⟨old, _⟩
    · rw [stamped]
      refine .inr ⟨now.round, rfl, .inr ⟨?_, _, rfl, unsaved, ?_, rfl⟩⟩
      · rw [show ({ old with applied := some now.round } : Proposal).id = first.id from same]
        exact unused
      · rw [← same]
    · exact (balanced.each proposal old owned).idle (fun _ => none_)
  · intro current same
    cases same
    refine ⟨carries.saved, ?_, ?_, nofun⟩
    · intro rowed
      rw [show now.unrowed = false from rowed] at unrowed
      cases unrowed
    · intro _ id names
      cases names
      refine ⟨unused, ?_, ?_⟩
      · rw [← balanced.inbox, List.map_map]
        exact List.mem_map_of_mem mem
      · intro proposal listed here
        rcases mem_stamp listed with ⟨_, _, _, stamped⟩ | ⟨_, apart⟩
        · rw [stamped]
        · exact absurd here apart

theorem Balanced.append (balanced : Balanced task submitted taken proposals rows (some now))
    (unrowed : now.unrowed = true) (unsaved : now.unsaved = true) {row : RoundRow} (named : row.proposal = now.proposal)
    (numbered : row.round = now.round) :
    Balanced task submitted taken proposals rows
      (some { now with rounds := now.rounds ++ [row], unrowed := false, early := false }) := by
  have carries := balanced.carries now rfl
  refine ⟨balanced.inbox, balanced.ascending, balanced.order, ?_, balanced.named, ?_⟩
  · intro proposal mem owned
    apply (balanced.each proposal mem owned).mono
    intro round held
    rcases held with ⟨_, same, facts⟩
    cases same
    exact ⟨_, rfl, facts⟩
  · intro current same
    cases same
    refine ⟨?_, ?_, carries.open_, nofun⟩
    · intro neither
      rcases neither with never | closed
      · cases never
      · cases unsaved.symm.trans closed
    · intro _ _
      exact ⟨row, by rw [carries.saved (.inl unrowed)], named, numbered⟩

theorem Balanced.save (balanced : Balanced task submitted taken proposals rows (some now))
    (free : now.unrowed = true → now.proposal = none) :
    Balanced task submitted taken proposals now.rounds none := by
  have carries := balanced.carries now rfl
  by_cases rowed : now.unrowed = false ∧ now.unsaved = true
  · rcases carries.rowed rowed.1 rowed.2 with ⟨row, rounds, named, numbered⟩
    rw [rounds]
    refine ⟨balanced.inbox, balanced.ascending, balanced.order, ?_, ?_, fun _ => nofun⟩
    · intro proposal mem owned
      by_cases here : now.proposal = some proposal.id
      · rcases carries.open_ rowed.2 proposal.id here with ⟨unused, _, applied⟩
        refine .inr ⟨now.round, applied proposal mem rfl, .inl ⟨row, ?_, numbered⟩⟩
        rw [uses_append, unused, named, if_pos here]
        rfl
      · have same : uses proposal.id (rows ++ [row]) = uses proposal.id rows := by
          rw [uses_append, named, if_neg here, List.append_nil]
        rw [Accounts, same]
        rcases balanced.each proposal mem owned with waits | ⟨round, applied, recorded | ⟨_, held⟩⟩
        · exact .inl waits
        · exact .inr ⟨round, applied, .inl recorded⟩
        · rcases held with ⟨_, current, _, holds, _⟩
          cases current
          exact absurd holds here
    · intro other mem id names
      rcases List.mem_append.mp mem with old | new
      · exact balanced.named other old id names
      · rw [List.mem_singleton.mp new, named] at names
        exact (carries.open_ rowed.2 id names).2.1
  · have same : now.rounds = rows := by
      apply carries.saved
      rw [not_and_or, Bool.not_eq_false, Bool.not_eq_true] at rowed
      exact rowed
    rw [same]
    refine ⟨balanced.inbox, balanced.ascending, balanced.order, ?_, balanced.named, fun _ => nofun⟩
    intro proposal mem owned
    apply (balanced.each proposal mem owned).idle
    intro unsaved
    apply free
    rw [← Bool.not_eq_false]
    exact fun unrowed => rowed ⟨unrowed, unsaved⟩

theorem Balanced.lose (balanced : Balanced task submitted taken proposals rows (some now))
    (free : now.unsaved = true → now.proposal = none) :
    Balanced task submitted taken proposals rows none where
  inbox := balanced.inbox
  ascending := balanced.ascending
  order := balanced.order
  each proposal mem owned := (balanced.each proposal mem owned).idle free
  named := balanced.named
  carries := fun _ => nofun

theorem Balanced.open_ (balanced : Balanced task submitted taken proposals rows none)
    (rounds : now.rounds = rows) (saved : now.unsaved = false) (late : now.early = false) :
    Balanced task submitted taken proposals rows (some now) := by
  refine ⟨balanced.inbox, balanced.ascending, balanced.order, ?_, balanced.named, ?_⟩
  · intro proposal mem owned
    apply (balanced.each proposal mem owned).mono
    intro round held
    rcases held with ⟨_, never, _⟩
    cases never
  · intro current same
    cases same
    refine ⟨fun _ => rounds, ?_, ?_, ?_⟩
    · intro _ unsaved
      cases saved.symm.trans unsaved
    · intro unsaved
      cases saved.symm.trans unsaved
    · intro early
      cases late.symm.trans early

/-! ## Every orderly run -/

variable {world : World Content Tunables} {state next : State Content Tunables}
  {process after : Process Tunables}

def Books (task : String) (state : State Content Tunables) : Prop :=
  Balanced task state.submitted state.taken state.disk.proposals state.disk.rows
    (state.process.map Process.view)

theorem Books.accounted (books : Books task state) : Accounted task state := by
  refine ⟨books.inbox, ?_, books.order⟩
  intro proposal mem owned
  apply (books.each proposal mem owned).mono
  intro round held
  rcases held with ⟨now, there, unsaved, named, numbered⟩
  rcases Option.map_eq_some_iff.mp there with ⟨process, up, view⟩
  rw [← view] at unsaved named numbered
  exact ⟨process, up, unsaved, named, numbered⟩

theorem Books.up (books : Books task state) (up : state.process = some process) :
    Balanced task state.submitted state.taken state.disk.proposals state.disk.rows
      (some process.view) := by
  rw [Books, up] at books
  exact books

theorem Books.same (books : Books task state) (up : state.process = some process)
    (rows : next.disk.rows = state.disk.rows) (now : next.process = some after)
    (view : after.view = process.view) (proposals : next.disk.proposals = state.disk.proposals)
    (submitted : next.submitted = state.submitted) (taken : next.taken = state.taken) :
    Books task next := by
  rw [Books, now, Option.map_some, view, proposals, rows, submitted, taken]
  exact books.up up

theorem Books.rows_save (books : Books task state) (up : state.process = some process)
    (unrowed : process.stage.unrowed = true) {disk : Disk Content Tunables} {doc : Doc Tunables}
    (rounds : doc.rounds = process.doc.rounds) : (disk.save doc).rows = state.disk.rows := by
  have carries := (books.up up).carries process.view rfl
  exact rounds.trans (carries.saved (.inl unrowed))

theorem Books.leave (books : Books task state) (up : state.process = some process)
    (free : process.stage.unrowed = true → process.proposal = none) :
    Books task (state.leave process.doc) :=
  (books.up up).save free

theorem Books.lose (books : Books task state) (up : state.process = some process)
    (free : process.stage.unsaved = true → process.proposal = none) {disk : Disk Content Tunables}
    (proposals : disk.proposals = state.disk.proposals) (rows : disk.rows = state.disk.rows) :
    Books task { state with disk, process := none } := by
  rw [Books, proposals, rows]
  exact (books.up up).lose free

theorem rounds_located (doc : Doc Tunables) (disk : Disk Content Tunables) :
    (doc.located disk).rounds = doc.rounds := by
  rw [Doc.located]
  split_ifs <;> rfl

theorem rounds_loaded (world : World Content Tunables) (disk : Disk Content Tunables)
    (low high : Int) : (loaded world disk low high).rounds = disk.rows := by
  rw [loaded, rounds_located, Disk.rows]
  cases disk.campaign <;> rfl

theorem Books.boot (books : Books task state) (down : state.process = none) (low high : Int)
    (confirmSeeds rounds : Nat) : Books task (boot world state low high confirmSeeds rounds) := by
  have same : (state.disk.save (loaded world state.disk low high)).rows = state.disk.rows :=
    rounds_loaded world state.disk low high
  rw [Books, down] at books
  rw [Books, Evolve.boot]
  dsimp only
  rw [same]
  exact books.open_ (rounds_loaded world state.disk low high) rfl rfl

theorem Books.starting (books : Books task state) (up : state.process = some process)
    (at_ : process.stage = .head) (before : Suite) (confirmed : Bool) :
    Books task (state.set { process.starting state.disk with before, confirmed }) := by
  have balanced := books.up up
  have saved : process.view.unsaved = false := by
    rw [Process.view, at_]
    rfl
  apply balanced.idle
  · intro unsaved
    cases saved.symm.trans unsaved
  · refine ⟨fun _ => (balanced.carries process.view rfl).saved (.inr saved), nofun, ?_, ?_⟩
    · intro _ id never
      cases never
    · intro _
      exact ⟨rfl, rfl, rfl⟩

theorem Books.begins (books : Books task state) (up : state.process = some process)
    (at_ : process.stage = .head) (begun : Begins world state process next) : Books task next := by
  cases begun with
  | kept cached => exact books.starting up at_ _ process.confirmed
  | measured uncached card => exact books.starting up at_ _ false
  | missing => exact books.leave up (by rw [at_]; exact nofun)

theorem Books.evaluated (books : Books task state) (up : state.process = some process)
    (at_ : process.stage = .working) (copy : Content) (confirmFails : Bool) :
    Books task (evaluateState world state process copy confirmFails) := by
  have judged : ∀ (other : Process Tunables) (suite : Suite) (accepted confirmed : Bool),
      other.view = process.view → other.stage = .working →
        (other.judge suite accepted confirmed).view = process.view := by
    intro other suite accepted confirmed view working
    rw [← view, Process.judge]
    split_ifs
    · rw [Process.view, Process.view, working]
      rfl
    · rfl
  rw [evaluateState]
  split_ifs
  · have rows : (state.disk.save process.widen.doc).rows = state.disk.rows :=
      books.rows_save up (by rw [at_]; rfl) rfl
    exact books.same up rows rfl (judged process.widen _ _ true rfl at_) rfl rfl rfl
  · exact books.same up rfl rfl (judged process _ _ false rfl at_) rfl rfl rfl

theorem Books.committed (books : Books task state) (up : state.process = some process)
    {suite : Suite} {confirmed : Bool} (at_ : process.stage = .snapping suite confirmed)
    (copy : Content) : Books task (commitState state process copy suite confirmed) := by
  refine books.same up ?_ rfl ?_ rfl rfl rfl
  · exact books.rows_save up (by rw [at_]; rfl) rfl
  · rw [Process.view, Process.view, at_]
    rfl

theorem Books.closed (books : Books task state) (up : state.process = some process)
    (at_ : process.stage = .advanced) (error : Bool) : Books task (closeRound state process error) := by
  have saved := (books.up up).save (by rw [Process.view, at_]; exact nofun)
  rw [closeRound]
  split_ifs
  · exact saved
  · exact saved.open_ rfl rfl rfl

theorem free_of_refused {holds : Prop} (refused : process.proposal.isSome = true → ¬ holds)
    (here : holds) : process.proposal = none := by
  rw [← Option.not_isSome_iff_eq_none]
  exact fun taken => refused taken here

theorem Books.step {event : Event Content Tunables} (books : Books task state)
    (orderly : Orderly event state) (moved : Moves world task state event next) :
    Books task next := by
  cases moved with
  | submit id owner new => exact Balanced.submit books owner (orderly.1 id rfl)
  | boot low high confirmSeeds rounds down => exact books.boot down low high confirmSeeds rounds
  | saved up saves =>
      apply books.leave up
      apply free_of_refused
      intro taken
      exact Bool.eq_false_iff.mp ((orderly.2 _ up taken).1 saves)
  | crash up =>
      refine books.lose up ?_ rfl rfl
      apply free_of_refused
      intro taken
      exact Bool.eq_false_iff.mp ((orderly.2 _ up taken).2.1 rfl)
  | unrowed up at_ empty =>
      refine books.lose up (fun _ => free_of_refused ?_ empty) rfl rfl
      intro taken
      exact not_lt.mpr ((orderly.2 _ up taken).2.2 rfl)
  | uncreated up at_ =>
      refine books.lose up ?_ rfl rfl
      intro _
      exact (((books.up up).carries _ rfl).early (by rw [Process.view, at_]; rfl)).1
  | begin up at_ begun => exact books.begins up at_ begun
  | evaluated confirmFails up at_ here nonempty => exact books.evaluated up at_ _ confirmFails
  | committed up at_ here => exact books.committed up at_ _
  | closed error up at_ => exact books.closed up at_ error
  | nothing fails confirmFails up at_ => exact books
  | @appended process up at_ =>
      have kept := (books.up up).append (by rw [Process.view, at_]; rfl)
        (by rw [Process.view, at_]; rfl) (show process.row.proposal = process.view.proposal from rfl) rfl
      rw [Process.view, at_] at kept
      exact kept
  | @clearing process source left up at_ =>
      exact books.same up rfl up rfl rfl rfl rfl
  | @created process source copy up at_ =>
      refine books.same up rfl rfl ?_ rfl rfl rfl
      rw [Process.view, Process.view, at_]
      rfl
  | @untaken process up at_ none_ =>
      have balanced := books.up up
      rw [Process.view, at_] at balanced
      have carries := balanced.carries _ rfl
      apply balanced.idle
      · exact fun _ => (carries.early rfl).1
      · exact ⟨carries.saved, carries.rowed, carries.open_, nofun⟩
  | @taken process first up at_ found =>
      have kept := (books.up up).take (by rw [Process.view, at_]; rfl) found
      rw [Process.view, at_] at kept
      exact kept
  | opened up at_ =>
      refine books.same up rfl rfl ?_ rfl rfl rfl
      rw [Process.view, Process.view, at_]
      rfl
  | edited copy tunables up at_ => exact books.same up rfl rfl rfl rfl rfl rfl
  | receipt up at_ => exact books.same up rfl rfl rfl rfl rfl rfl
  | copying left up at_ =>
      exact books.same up rfl up rfl rfl rfl rfl
  | parked keep up at_ =>
      refine books.same up rfl rfl ?_ rfl rfl rfl
      rw [Process.view, Process.view, at_]
      rfl
  | advanced up at_ =>
      refine books.same up rfl rfl ?_ rfl rfl rfl
      rw [Process.view, Process.view, at_]
      rfl
  | trimmed dir left up at_ dropped =>
      exact books.same up rfl up rfl rfl rfl rfl

/-- In every orderly run each proposal of the task is pending, in one row of the round it
was applied in, or of the round in progress, and they are taken as they were submitted. -/
theorem proposals_accounted (world : World Content Tunables) (task : String)
    (events : List (Event Content Tunables)) (state : State Content Tunables)
    (orderly : Schedule.Admitted (step world task) Orderly fresh events)
    (ran : run world task fresh events = some state) : Accounted task state := by
  have books : Books task state := by
    have initially : Books task (fresh : State Content Tunables) := balanced_nil
    refine Schedule.invariant_of_admitted ?_ initially orderly ran
    intro event now later holds admitted stepped
    exact holds.step admitted (moves_of_step stepped)
  exact books.accounted

section Example

def refusedRun : List (Event Nat Unit) :=
  [.submit "proposal-1" "stack", .boot 0 1 0 0, .begin, .create, .take, .refuse]

/-- The round of the first of two proposals is over. -/
def proposedRun : List (Event Nat Unit) :=
  [.submit "proposal-1" "stack", .submit "proposal-2" "stack", .boot 0 1 0 0, .begin, .create,
    .take, .openEndpoint, .finish false, .append, .advance, .close false, .leave]

theorem proposals_accounted_first : Accounted "stack" (stateAfter proposedRun) :=
  proposals_accounted countWorld "stack" proposedRun (stateAfter proposedRun) (by decide +kernel) rfl

/-- The proposal was applied in round 1, which has no row. -/
theorem not_always_accounted :
    ¬ ∀ (world : World Nat Unit) (task : String) (events : List (Event Nat Unit))
      (state : State Nat Unit), run world task fresh events = some state → Accounted task state := by
  intro always
  have accounted := always countWorld "stack" refusedRun (stateAfter refusedRun) rfl
  have accounts := accounted.each ⟨"proposal-1", "stack", some 1⟩ List.mem_cons_self rfl
  rcases accounts with ⟨impossible, _⟩ | ⟨_, _, ⟨_, impossible, _⟩ | ⟨_, _, impossible, _⟩⟩
  · cases impossible
  · cases impossible
  · cases impossible

end Example

end Evolve
end PhysicalHarness
