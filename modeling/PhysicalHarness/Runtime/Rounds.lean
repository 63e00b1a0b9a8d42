import PhysicalHarness.Evolve.Archive
import PhysicalHarness.Lib.Merge

namespace PhysicalHarness
namespace Runtime
namespace Rounds

open Python PhysicalHarness.Evolve Fallible
open PhysicalHarness.Evolve.Archive (Round Shards Campaign Standing)
open PhysicalHarness.Board.Series (sharded)

/-!
# Sealing the rounds of a campaign

`evolve.py` writes the rounds of a campaign into one file, in which the older ones stand in short.  The
runtime reads the file now and then and appends to the chain of the session what is not in it yet, first
the proposal that a round took and then the round.  A round is in the chain once, in order and as it was
appended to the campaign.  Its proposal is there once if the runtime does not stop between the two rows.
-/

abbrev LogRow := String × Json

def stepKeys : List String :=
  ["round", "tried", "before", "after", "best", "published", "suite_sha", "per_seed", "needs", "proposer",
    "llm", "parent", "outcome", "confirm", "usage", "regression", "accepted", "accepted_reason",
    "after_seeds", "before_score", "after_score", "probes", "workspace", "evaluation"]

def stepData (brief task : String) (round : Json) : Json :=
  .obj ([("brief", .str brief), ("task", .str task)] ++
    stepKeys.map (fun key => (key, round.getD key .null)))

def appliedData (brief task : String) (round : Json) (proposal : List (String × Json)) : Json :=
  .obj (Assoc.merge [("brief", .str brief), ("task", .str task), ("round", round.getD "round" .null)]
    proposal)

/-- The data of the rows of this kind about the task. -/
def about (kind task : String) (chain : List LogRow) : List Json :=
  (chain.filter (fun row => row.1 == kind && (row.2.getD "task" .null).eq (.str task))).map Prod.snd

def roundsOf (kind task : String) (chain : List LogRow) : List Json :=
  (about kind task chain).map (fun data => data.getD "round" .null)

structure State where
  campaign : Campaign
  chain : List LogRow
  /-- Whose `_seal_rounds` is under way, what it has still to look at, and the round of which it has
  appended the proposal only. -/
  brief : String
  pending : List Json
  half : Option Json

inductive Event where
  /-- of `evolve.py` -/
  | store (event : Archive.Step)
  | poll (brief : String)
  /-- `_seal_rounds` appends its next row. -/
  | write
  | restart
  | other (row : LogRow)

def start : State := ⟨Archive.start [], [], "", [], none⟩

/-- The rounds of the file that are not in the chain. -/
def unsealed (known : List Json) : List Json → Except PyError (List Json)
  | [] => .ok []
  | row :: rest => do
      let number ← row.item "round"
      let more ← unsealed known rest
      return if known.any (fun other => other.eq number) then more else row :: more

/-- The round in full, from its own file where the row is a short one. -/
def fetch (shards : Shards) (row : Json) : Option Json :=
  if sharded row then (Archive.numberOf row).toOption.bind (Assoc.get? shards) else some row

def writeStep (task : String) (state : State) (round : Json) : State :=
  { state with
    chain := state.chain ++ [("rsi_step", stepData state.brief task round)]
    pending := state.pending.tail
    half := none }

def writeApplied (task : String) (state : State) (round : Json) : State :=
  { state with
    chain := state.chain ++ [("rsi_proposal_applied",
      appliedData state.brief task round (round.getD "proposal" .null).fields)]
    half := some round }

/-- There is no next row where the file of a round is missing or its proposal is not a mapping. -/
def writeNext (task : String) (state : State) : Option State :=
  match state.pending, state.half with
  | [], _ => none
  | _ :: _, some round => some (writeStep task state round)
  | row :: _, none => (fetch state.campaign.shards row).bind (fun round =>
      if (round.getD "proposal" .null).truthy then
        if (round.getD "proposal" .null).isMapping then some (writeApplied task state round) else none
      else some (writeStep task state round))

def step (sumFloats : List Double → Double) (task : String) : Event → State → Option State
  | .store event, state =>
      (Archive.step sumFloats event state.campaign).map (fun campaign => { state with campaign })
  | .poll brief, state =>
      if state.pending.isEmpty then
        (unsealed (roundsOf "rsi_step" task state.chain) state.campaign.file).toOption.map (fun pending =>
          { state with brief, pending })
      else none
  | .write, state => writeNext task state
  | .restart, state => some { state with pending := [], half := none }
  | .other row, state =>
      if (about "rsi_step" task [row]).isEmpty && (about "rsi_proposal_applied" task [row]).isEmpty then
        some { state with chain := state.chain ++ [row] }
      else none

def IsProposal (value : Json) : Prop :=
  value = .null ∨ ∃ id kind note, value = .obj [("id", id), ("kind", kind), ("note", note)]

/-- The runtime does not stop between the two rows of a round, and `evolve.py` numbers its rounds apart, as
it does unless its handler of SIGTERM saves a round before the cursor is on it. -/
def Orderly : Event → State → Prop
  | .store (.append round), state => round.number ∉ state.campaign.made.map Round.number ∧
      IsProposal (round.json.getD "proposal" .null)
  | .restart, state => state.half = none
  | _, _ => True

/-- A row has the values of the round, for whichever brief. -/
def Carries (task : String) (data : Json) (round : Round) : Prop :=
  ∃ brief, data = stepData brief task round.json

/-- The steps are those of the first rounds, no round and no proposal is there twice, and a poll that is
not interrupted leaves the steps of all rounds of the file. -/
structure SealedOnce (sumFloats : List Double → Double) (task : String) (state : State) : Prop where
  steps : (roundsOf "rsi_step" task state.chain).Nodup
  proposals : (roundsOf "rsi_proposal_applied" task state.chain).Nodup
  carried : ∃ count, List.Forall₂ (Carries task) (about "rsi_step" task state.chain)
    (state.campaign.saved.take count)
  final : state.pending = [] → ∀ brief, ∃ rows last,
    Schedule.run (step sumFloats task) state (.poll brief :: List.replicate rows .write) = some last ∧
      last.pending = [] ∧ last.campaign = state.campaign ∧
      (roundsOf "rsi_proposal_applied" task last.chain).Nodup ∧
      List.Forall₂ (Carries task) (about "rsi_step" task last.chain) state.campaign.saved

section

variable {sumFloats : List Double → Double} {task : String} {state next : State} {count : Nat}

theorem about_append (kind task : String) (chain : List LogRow) (row : LogRow) :
    about kind task (chain ++ [row]) = about kind task chain ++ about kind task [row] := by
  rw [about, List.filter_append, List.map_append]
  rfl

theorem about_row (kind : String) (row : LogRow) (own : (row.2.getD "task" .null).eq (.str task) = true) :
    about kind task [row] = if row.1 = kind then [row.2] else [] := by
  rw [about, List.filter_singleton, own, Bool.and_true]
  by_cases same : row.1 = kind
  · rw [if_pos same, same, beq_self_eq_true]
    rfl
  · rw [if_neg same, beq_false_of_ne same]
    rfl

theorem about_step (brief : String) (round : Json) :
    about "rsi_step" task [("rsi_step", stepData brief task round)] = [stepData brief task round] ∧
      about "rsi_proposal_applied" task [("rsi_step", stepData brief task round)] = [] := by
  have own : ((stepData brief task round).getD "task" .null).eq (.str task) = true := Json.eq_self _
  exact ⟨about_row _ ("rsi_step", stepData brief task round) own,
    about_row _ ("rsi_step", stepData brief task round) own⟩

theorem about_applied {proposal : Json} (given : IsProposal proposal) (some_ : proposal.truthy = true)
    (brief : String) (round : Json) :
    roundsOf "rsi_proposal_applied" task [("rsi_proposal_applied",
        appliedData brief task round proposal.fields)] = [round.getD "round" .null] ∧
      about "rsi_step" task [("rsi_proposal_applied", appliedData brief task round proposal.fields)] = [] ∧
      proposal.isMapping = true := by
  rcases given with rfl | ⟨id, kind, note, rfl⟩
  · cases some_
  · have own : ((appliedData brief task round [("id", id), ("kind", kind), ("note", note)]).getD "task"
        .null).eq (.str task) = true := Json.eq_self _
    refine ⟨?_, about_row _ ("rsi_proposal_applied", appliedData brief task round _) own, rfl⟩
    exact congrArg (List.map (fun data => data.getD "round" .null))
      (about_row _ ("rsi_proposal_applied", appliedData brief task round _) own)

def numbers (rounds : List Round) : List Json := rounds.map (fun round => .int round.number)

theorem number_round (round : Round) : round.json.getD "round" .null = .int round.number := by
  rw [Json.getD, round.numbered]
  rfl

theorem rounds_of_carries {chain : List LogRow} {rounds : List Round}
    (carried : List.Forall₂ (Carries task) (about "rsi_step" task chain) rounds) :
    roundsOf "rsi_step" task chain = numbers rounds := by
  rw [roundsOf, numbers]
  generalize about "rsi_step" task chain = datas at carried ⊢
  induction carried with
  | nil => rfl
  | @cons data round _ _ here _ ih =>
      rcases here with ⟨brief, rfl⟩
      have number : (stepData brief task round.json).getD "round" .null = .int round.number :=
        number_round round
      rw [List.map_cons, List.map_cons, ih, number]

/-- What `_seal_rounds` makes of a row of the file. -/
def Fetches (shards : Shards) (row : Json) (round : Round) : Prop :=
  row.get? "round" = some (.int round.number) ∧ fetch shards row = some round.json

theorem Fetches.later {shards more : Shards} {row : Json} {round : Round}
    (kept : ∀ number round, Assoc.get? shards number = some round → Assoc.get? more number = some round)
    (fetches : Fetches shards row round) : Fetches more row round := by
  refine ⟨fetches.1, ?_⟩
  have found := fetches.2
  rw [fetch] at found ⊢
  by_cases short : sharded row = true
  · rw [if_pos short] at found ⊢
    rcases Option.bind_eq_some_iff.mp found with ⟨number, named, held⟩
    exact Option.bind_eq_some_iff.mpr ⟨number, named, kept number _ held⟩
  · rw [if_neg short] at found ⊢
    exact found

theorem find?_number {rounds : List Round} (distinct : (rounds.map Round.number).Nodup) {round : Round}
    (mem : round ∈ rounds) :
    rounds.find? (fun other => decide (other.number = round.number)) = some round := by
  cases found : rounds.find? (fun other => decide (other.number = round.number)) with
  | none => exact absurd (decide_eq_true rfl) (List.find?_eq_none.mp found round mem)
  | some other =>
      have same := List.find?_some found
      rw [decide_eq_true_eq] at same
      rw [List.inj_on_of_nodup_map distinct (List.mem_of_find?_eq_some found) mem same]

theorem fetches_file {campaign : Campaign} (standing : Archive.Standing sumFloats campaign)
    (distinct : (campaign.saved.map Round.number).Nodup) :
    List.Forall₂ (Fetches campaign.shards) campaign.file campaign.saved := by
  rcases standing with ⟨count, short, stands⟩
  have first : List.Forall₂ (Fetches campaign.shards) short (campaign.saved.take count) := by
    have named := (List.forall₂_and_left _ _).mpr ⟨fun round mem => mem, stands.archived⟩
    refine named.flip.imp ?_
    rintro row round ⟨mem, made⟩
    have shows := Archive.shows_of_indexRow made
    have number : row.get? "round" = some (.int round.number) := shows.number.trans round.numbered
    have unique : ((campaign.saved.take count).map Round.number).Nodup :=
      distinct.sublist ((List.take_sublist _ _).map _)
    refine ⟨number, ?_⟩
    rw [fetch, if_pos shows.short, Archive.numberOf, number]
    change Assoc.get? campaign.shards round.number = _
    rw [stands.files, find?_number unique mem]
    rfl
  have rest : List.Forall₂ (Fetches campaign.shards) ((campaign.saved.drop count).map Round.json)
      (campaign.saved.drop count) := by
    rw [List.forall₂_map_left_iff, List.forall₂_same]
    intro round _
    refine ⟨round.numbered, ?_⟩
    rw [fetch, if_neg (Bool.eq_false_iff.mp round.fresh)]
  have whole : List.Forall₂ (Fetches campaign.shards) (short ++ (campaign.saved.drop count).map Round.json)
      (campaign.saved.take count ++ campaign.saved.drop count) := List.rel_append first rest
  rwa [← stands.disk, List.take_append_drop] at whole

theorem unsealed_returns {shards : Shards} {rows : List Json} {rounds : List Round} (known : List Json)
    (fetches : List.Forall₂ (Fetches shards) rows rounds) :
    ∃ pending, unsealed known rows = .ok pending ∧ List.Forall₂ (Fetches shards) pending
      (rounds.filter (fun round => !known.any (fun other => other.eq (.int round.number)))) := by
  induction fetches with
  | nil => exact ⟨[], rfl, List.Forall₂.nil⟩
  | @cons row round rows rounds here _ ih =>
      rcases ih with ⟨more, ran, others⟩
      have number : row.item "round" = .ok (.int round.number) := by
        cases row with
        | obj fields => rw [Json.item, show Assoc.get? fields "round" = _ from here.1]
        | _ => cases here.1
      rw [unsealed, number, bind_ok, ran, bind_ok, List.filter_cons]
      cases sealed_ : known.any (fun other => other.eq (.int round.number)) with
      | true => exact ⟨more, rfl, others⟩
      | false => exact ⟨row :: more, rfl, List.Forall₂.cons here others⟩

theorem filter_unsealed {rounds : List Round} (distinct : (rounds.map Round.number).Nodup) (count : Nat) :
    rounds.filter (fun round => !(numbers (rounds.take count)).any (fun other =>
      other.eq (.int round.number))) = rounds.drop count := by
  have known (round : Round) : (numbers (rounds.take count)).any (fun other =>
      other.eq (.int round.number)) = true ↔ round.number ∈ (rounds.take count).map Round.number := by
    rw [numbers, List.any_map, List.any_eq_true, List.mem_map]
    simp [Json.eq, Json.sameScalar, Json.toRat?]
  have parts := List.take_append_drop count rounds
  have apart := List.nodup_append.mp (show (((rounds.take count).map Round.number) ++
    (rounds.drop count).map Round.number).Nodup by rwa [← List.map_append, parts])
  conv_lhs =>
    enter [2]
    rw [← parts]
  rw [List.filter_append, List.filter_eq_nil_iff.mpr, List.filter_eq_self.mpr, List.nil_append]
  · intro round mem
    rw [Bool.not_eq_true', Bool.eq_false_iff, ne_eq, known]
    intro before
    exact apart.2.2 _ before _ (List.mem_map_of_mem mem) rfl
  · intro round mem
    rw [Bool.not_eq_true', Bool.eq_false_iff, ne_eq, known, not_not]
    exact List.mem_map_of_mem mem

structure Numbered (sumFloats : List Double → Double) (campaign : Campaign) : Prop where
  standing : Standing sumFloats campaign
  apart : (campaign.made.map Round.number).Nodup
  proposals : ∀ round ∈ campaign.made, IsProposal (round.json.getD "proposal" .null)

def proposed (rounds : List Round) : List Json :=
  numbers (rounds.filter (fun round => (round.json.getD "proposal" .null).truthy))

/-- The chain has the steps of the first rounds and their proposals, with that of the next where only its
proposal is appended. -/
structure Follows (task : String) (state : State) (count : Nat) : Prop where
  within : count ≤ state.campaign.saved.length
  steps : List.Forall₂ (Carries task) (about "rsi_step" task state.chain)
    (state.campaign.saved.take count)
  proposals : roundsOf "rsi_proposal_applied" task state.chain =
    proposed (state.campaign.saved.take (count + state.half.toList.length))
  pending : ∃ rounds, rounds <+: state.campaign.saved.drop count ∧
    List.Forall₂ (Fetches state.campaign.shards) state.pending rounds
  half : ∀ held, state.half = some held → ∃ round, state.campaign.saved[count]? = some round ∧
    held = round.json ∧ state.pending ≠ []

theorem Numbered.distinct {campaign : Campaign} (numbered : Numbered sumFloats campaign) :
    (campaign.saved.map Round.number).Nodup := by
  rcases numbered.standing with ⟨count, short, stands⟩
  exact numbered.apart.sublist (stands.kept.sublist.map _)

/-- The rounds stay apart, and the file has what it had before. -/
theorem Numbered.step {event : Archive.Step} {campaign : Campaign}
    (numbered : Numbered sumFloats state.campaign) (orderly : Orderly (.store event) state)
    (stepped : Archive.step sumFloats event state.campaign = some campaign) :
    Numbered sumFloats campaign ∧ state.campaign.saved <+: campaign.saved ∧
      ∀ number round, Assoc.get? state.campaign.shards number = some round →
        Assoc.get? campaign.shards number = some round := by
  have standing := numbered.standing.step stepped
  rcases numbered.standing with ⟨_, _, stands⟩
  cases event with
  | append round =>
      cases stepped
      refine ⟨⟨standing, ?_, ?_⟩, List.prefix_refl _, fun _ _ found => found⟩
      · rw [List.map_append]
        exact (List.perm_append_singleton _ _).nodup_iff.mpr
          (List.nodup_cons.mpr ⟨orderly.1, numbered.apart⟩)
      · intro old mem
        rcases List.mem_append.mp mem with listed | new
        · exact numbered.proposals old listed
        · rw [List.mem_singleton.mp new]
          exact orderly.2
  | save =>
      rcases Option.map_eq_some_iff.mp stepped with ⟨done, ran, rfl⟩
      rcases stands.save (toOption_eq_some_iff.mp ran) with ⟨_, after⟩
      refine ⟨⟨standing, numbered.apart, numbered.proposals⟩, stands.kept, fun number found_ found => ?_⟩
      rw [stands.files] at found
      rcases Option.map_eq_some_iff.mp found with ⟨round, first, same⟩
      rw [after.files]
      have longer := stands.within.trans (Nat.sub_le_sub_right stands.kept.length_le _)
      have further := (stands.kept.take _).trans (List.take_prefix_take_left longer)
      exact Option.map_eq_some_iff.mpr ⟨round, further.find?_eq_some first, same⟩
  | load =>
      cases stepped
      exact ⟨⟨standing, numbered.apart.sublist (stands.kept.sublist.map _), fun round mem =>
        numbered.proposals round (stands.kept.subset mem)⟩, List.prefix_refl _, fun _ _ found => found⟩

/-! ## The chain keeps up -/

theorem follows_start : Follows task start 0 where
  within := Nat.zero_le _
  steps := List.Forall₂.nil
  proposals := rfl
  pending := ⟨[], List.prefix_refl _, List.Forall₂.nil⟩
  half := fun held never => by cases never

/-- The file has more rounds, and the files of the rounds are still there. -/
theorem Follows.grown (follows : Follows task state count) {campaign : Campaign}
    (saved : state.campaign.saved <+: campaign.saved)
    (shards : ∀ number round, Assoc.get? state.campaign.shards number = some round →
      Assoc.get? campaign.shards number = some round) :
    Follows task { state with campaign } count := by
  have within := follows.within
  rcases saved with ⟨more, whole⟩
  have longer : ∀ taken ≤ state.campaign.saved.length,
      campaign.saved.take taken = state.campaign.saved.take taken := by
    intro taken inside
    rw [← whole, List.take_append_of_le_length inside]
  refine ⟨?_, ?_, ?_, ?_, ?_⟩
  · rw [← whole, List.length_append]
    exact within.trans (Nat.le_add_right _ _)
  · rw [longer count within]
    exact follows.steps
  · rw [longer, follows.proposals]
    cases held : state.half with
    | none => exact within
    | some round =>
        rcases follows.half round held with ⟨_, there, _⟩
        exact (List.getElem?_eq_some_iff.mp there).1
  · rcases follows.pending with ⟨rounds, first, fetches⟩
    refine ⟨rounds, ?_, fetches.imp (fun _ _ here => here.later shards)⟩
    rw [← whole, List.drop_append_of_le_length within]
    exact first.trans (List.prefix_append _ _)
  · intro held same
    rcases follows.half held same with ⟨round, there, rest⟩
    refine ⟨round, ?_, rest⟩
    rw [← whole, List.getElem?_append_left (List.getElem?_eq_some_iff.mp there).1]
    exact there

theorem proposed_snoc (rounds : List Round) (round : Round) :
    proposed (rounds ++ [round]) = proposed rounds ++
      if (round.json.getD "proposal" .null).truthy then [.int round.number] else [] := by
  rw [proposed, numbers, List.filter_append, List.map_append, List.filter_singleton]
  cases (round.json.getD "proposal" .null).truthy with
  | true => rfl
  | false => rfl

theorem take_succ {rounds : List Round} {round : Round} (there : rounds[count]? = some round) :
    rounds.take (count + 1) = rounds.take count ++ [round] := by
  rw [List.take_add_one, there]
  rfl

/-- The step of the next round is appended. -/
theorem Follows.sealed (follows : Follows task state count) {round : Round}
    (there : state.campaign.saved[count]? = some round)
    (proposals : roundsOf "rsi_proposal_applied" task state.chain =
      proposed (state.campaign.saved.take (count + 1))) :
    Follows task (writeStep task state round.json) (count + 1) := by
  have own := @about_step task state.brief round.json
  refine ⟨(List.getElem?_eq_some_iff.mp there).1, ?_, ?_, ?_, fun held never => by cases never⟩
  · change List.Forall₂ _ (about _ _ (state.chain ++ [_])) (state.campaign.saved.take (count + 1))
    rw [about_append, own.1, take_succ there]
    exact List.rel_append follows.steps (List.Forall₂.cons ⟨state.brief, rfl⟩ List.Forall₂.nil)
  · change roundsOf _ _ (state.chain ++ [_]) = _
    rw [roundsOf, about_append, own.2, List.append_nil]
    exact proposals
  · rcases follows.pending with ⟨rounds, first, fetches⟩
    refine ⟨rounds.drop 1, ?_, ?_⟩
    · have later := first.drop 1
      rw [List.drop_drop] at later
      exact later
    · change List.Forall₂ _ state.pending.tail _
      rw [← List.drop_one]
      exact List.forall₂_drop 1 fetches

theorem next_of_pending (follows : Follows task state count) {row : Json} {rest : List Json}
    (at_ : state.pending = row :: rest) :
    ∃ round, state.campaign.saved[count]? = some round ∧
      fetch state.campaign.shards row = some round.json := by
  rcases follows.pending with ⟨rounds, first, fetches⟩
  rw [at_] at fetches
  cases fetches with
  | @cons _ round _ others here _ =>
      refine ⟨round, ?_, here.2⟩
      rcases first with ⟨more, whole⟩
      rw [← Nat.add_zero count, ← List.getElem?_drop, ← whole]
      rfl

/-- The rows that `_seal_rounds` has at most still to append. -/
def left (state : State) : Nat := 2 * state.pending.length - state.half.toList.length

/-- There is a next row while there are rounds, and nothing is left out. -/
theorem Follows.write (numbered : Numbered sumFloats state.campaign) (follows : Follows task state count)
    {row : Json} {rest : List Json} (at_ : state.pending = row :: rest) :
    ∃ next further, writeNext task state = some next ∧ next.campaign = state.campaign ∧
      Follows task next further ∧ further + next.pending.length = count + state.pending.length ∧
        left next < left state := by
  rcases next_of_pending follows at_ with ⟨round, there, fetched⟩
  have total : count + 1 + state.pending.tail.length = count + state.pending.length := by
    rw [at_, List.tail_cons, List.length_cons, Nat.add_right_comm, Nat.add_assoc]
  have fewer : left (writeStep task state round.json) < left state := by
    have few : state.half.toList.length ≤ 1 := by cases state.half <;> simp
    simp [left, writeStep, at_]
    omega
  cases held : state.half with
  | some other =>
      rcases follows.half other held with ⟨same, also, rfl, _⟩
      cases there.symm.trans also
      refine ⟨writeStep task state round.json, count + 1, ?_, rfl, follows.sealed there ?_, total, fewer⟩
      · rw [writeNext, at_, held]
      · rw [follows.proposals, held]
        rfl
  | none =>
      have before := follows.proposals
      rw [held] at before
      have written : writeNext task state =
          if (round.json.getD "proposal" .null).truthy then
            if (round.json.getD "proposal" .null).isMapping then some (writeApplied task state round.json)
            else none
          else some (writeStep task state round.json) := by
        rw [writeNext, at_, held]
        dsimp only
        rw [fetched, Option.bind_some]
      by_cases some_ : (round.json.getD "proposal" .null).truthy = true
      · rcases numbered.standing with ⟨_, _, stands⟩
        have mem : round ∈ state.campaign.made := stands.kept.subset (List.mem_of_getElem? there)
        rcases @about_applied task _ (numbered.proposals round mem) some_ state.brief round.json with
          ⟨number, apart, mapping⟩
        rw [if_pos some_, if_pos mapping] at written
        refine ⟨_, count, written, rfl, ⟨follows.within, ?_, ?_, follows.pending, ?_⟩, rfl, ?_⟩
        · change List.Forall₂ _ (about _ _ (state.chain ++ [_])) _
          rw [about_append, apart, List.append_nil]
          exact follows.steps
        · change roundsOf _ _ (state.chain ++ [_]) = proposed (state.campaign.saved.take (count + 1))
          rw [take_succ there, proposed_snoc, if_pos some_, roundsOf, about_append, List.map_append]
          exact congrArg₂ _ before (number.trans (congrArg (fun value => [value]) (number_round round)))
        · intro other same
          cases same
          refine ⟨round, there, rfl, ?_⟩
          change state.pending ≠ []
          rw [at_]
          exact List.cons_ne_nil _ _
        · simp [left, writeApplied, at_, held]
      · rw [if_neg some_] at written
        refine ⟨_, count + 1, written, rfl, follows.sealed there ?_, total, fewer⟩
        rw [before, take_succ there, proposed_snoc, if_neg some_, List.append_nil]
        rfl

/-- A poll takes all the rounds of the file that are not in the chain. -/
theorem Follows.poll (numbered : Numbered sumFloats state.campaign) (follows : Follows task state count)
    (idle : state.pending = []) (brief : String) :
    ∃ next, step sumFloats task (.poll brief) state = some next ∧ next.campaign = state.campaign ∧
      Follows task next count ∧ count + next.pending.length = state.campaign.saved.length := by
  rcases unsealed_returns (roundsOf "rsi_step" task state.chain)
    (fetches_file numbered.standing numbered.distinct) with ⟨pending, ran, fetches⟩
  rw [rounds_of_carries follows.steps, filter_unsealed numbered.distinct] at fetches
  refine ⟨{ state with brief, pending }, ?_, rfl, ⟨follows.within, follows.steps, follows.proposals,
    ⟨_, List.prefix_refl _, fetches⟩, fun held same => ?_⟩, ?_⟩
  · rw [step, idle, List.isEmpty_nil, if_pos rfl, ran]
    rfl
  · rcases follows.half held same with ⟨_, _, _, never⟩
    exact absurd idle never
  · have lengths := fetches.length_eq
    rw [List.length_drop] at lengths
    have within := follows.within
    dsimp only
    omega

theorem Follows.completes (numbered : Numbered sumFloats state.campaign) (follows : Follows task state count) :
    ∃ rows last, Schedule.run (step sumFloats task) state (List.replicate rows .write) = some last ∧
      last.pending = [] ∧ last.campaign = state.campaign ∧
        Follows task last (count + state.pending.length) := by
  generalize bound : left state = rows
  induction rows using Nat.strong_induction_on generalizing state count with
  | _ bound_ ih =>
      cases at_ : state.pending with
      | nil => exact ⟨0, state, rfl, at_, rfl, follows⟩
      | cons row rest =>
          rcases follows.write numbered at_ with ⟨next, further, wrote, same, kept, total, fewer⟩
          rcases ih _ (bound ▸ fewer) (same.symm ▸ numbered) kept rfl with ⟨rows, last, ran, done, held, final⟩
          refine ⟨rows + 1, last, ?_, done, held.trans same, ?_⟩
          · rw [List.replicate_succ, Schedule.run, step, wrote]
            exact ran
          · rw [← at_, ← total]
            exact final

def Kept (sumFloats : List Double → Double) (task : String) (state : State) : Prop :=
  Numbered sumFloats state.campaign ∧ ∃ count, Follows task state count

theorem kept_start : Kept sumFloats task start :=
  ⟨⟨⟨0, [], Archive.stands_start []⟩, List.nodup_nil, List.forall_mem_nil _⟩, 0, follows_start⟩

theorem Kept.step {event : Event} (kept : Kept sumFloats task state) (orderly : Orderly event state)
    (stepped : step sumFloats task event state = some next) : Kept sumFloats task next := by
  rcases kept with ⟨numbered, count, follows⟩
  cases event with
  | store event =>
      rcases Option.map_eq_some_iff.mp stepped with ⟨campaign, made, rfl⟩
      rcases numbered.step orderly made with ⟨later, saved, shards⟩
      exact ⟨later, count, follows.grown saved shards⟩
  | poll brief =>
      have idle : state.pending = [] :=
        List.isEmpty_iff.mp (Option.ite_none_right_eq_some.mp stepped).1
      rcases follows.poll numbered idle brief with ⟨after, polled, same, kept, _⟩
      cases polled.symm.trans stepped
      exact ⟨same.symm ▸ numbered, count, kept⟩
  | write =>
      cases at_ : state.pending with
      | nil =>
          rw [Rounds.step, writeNext, at_] at stepped
          cases stepped
      | cons row rest =>
          rcases follows.write numbered at_ with ⟨after, further, wrote, same, kept, _⟩
          cases wrote.symm.trans stepped
          exact ⟨same.symm ▸ numbered, further, kept⟩
  | restart =>
      cases stepped
      have proposals := follows.proposals
      rw [show state.half = none from orderly] at proposals
      exact ⟨numbered, count, follows.within, follows.steps, proposals,
        ⟨[], List.nil_prefix, List.Forall₂.nil⟩, fun held never => by cases never⟩
  | other row =>
      rcases Option.ite_none_right_eq_some.mp stepped with ⟨apart, stepped⟩
      cases stepped
      rw [Bool.and_eq_true, List.isEmpty_iff, List.isEmpty_iff] at apart
      refine ⟨numbered, count, follows.within, ?_, ?_, follows.pending, follows.half⟩
      · dsimp only
        rw [about_append, apart.1, List.append_nil]
        exact follows.steps
      · dsimp only
        rw [roundsOf, about_append, apart.2, List.append_nil]
        exact follows.proposals

theorem nodup_numbers {rounds : List Round} (distinct : (rounds.map Round.number).Nodup) :
    (numbers rounds).Nodup := by
  have mapped := distinct.map (fun _ _ same => Json.int.inj same : Function.Injective Json.int)
  rw [List.map_map] at mapped
  exact mapped

theorem Follows.nodup (follows : Follows task state count) (numbered : Numbered sumFloats state.campaign) :
    (roundsOf "rsi_proposal_applied" task state.chain).Nodup := by
  rw [follows.proposals]
  exact (nodup_numbers numbered.distinct).sublist
    ((List.filter_sublist.trans (List.take_sublist _ _)).map _)

theorem sealedOnce_of_kept (kept : Kept sumFloats task state) : SealedOnce sumFloats task state := by
  rcases kept with ⟨numbered, count, follows⟩
  refine ⟨?_, follows.nodup numbered, ⟨count, follows.steps⟩, fun idle brief => ?_⟩
  · rw [rounds_of_carries follows.steps]
    exact (nodup_numbers numbered.distinct).sublist ((List.take_sublist _ _).map _)
  · rcases follows.poll numbered idle brief with ⟨polled, stepped, same, further, whole⟩
    rcases further.completes (same.symm ▸ numbered) with ⟨rows, last, ran, done, held, final⟩
    have campaign : last.campaign = state.campaign := held.trans same
    have steps := final.steps
    rw [campaign, whole, List.take_length] at steps
    refine ⟨rows, last, ?_, done, campaign, final.nodup (campaign.symm ▸ numbered), steps⟩
    rw [Schedule.run, stepped]
    exact ran

/-- In every run whose steps are orderly, a round is in the chain once. -/
theorem rounds_sealed_once {events : List Event} {last : State}
    (orderly : Schedule.Admitted (step sumFloats task) Orderly start events)
    (ran : Schedule.run (step sumFloats task) start events = some last) : SealedOnce sumFloats task last := by
  apply sealedOnce_of_kept
  refine Schedule.invariant_of_admitted ?_ kept_start orderly ran
  intro event state next kept admitted stepped
  exact kept.step admitted stepped

end

def takenRound : Round where
  json := .obj [("round", .int 1), ("proposal", .obj [("id", .str "p"), ("kind", .str "hint"), ("note", .str "n")])]
  number := 1
  object := rfl
  numbered := rfl
  fresh := rfl
  trails := ⟨[], rfl, List.forall_mem_nil _⟩
  trailsAfter := ⟨[], rfl, List.forall_mem_nil _⟩

/-- A round that took a proposal is saved and sealed. -/
def taken : List Event := [.store (.append takenRound), .store .save, .poll "go", .write, .write]

theorem rounds_sealed_once_taken : ∃ last,
    Schedule.run (step Archive.plainSum "pick") start taken = some last ∧
      SealedOnce Archive.plainSum "pick" last := by
  rcases Option.isSome_iff_exists.mp
    (show (Schedule.run (step Archive.plainSum "pick") start taken).isSome = true by decide +kernel) with
    ⟨last, ran⟩
  refine ⟨last, ran, @rounds_sealed_once _ _ taken last ?_ ran⟩
  refine ⟨⟨List.not_mem_nil, .inr ⟨_, _, _, rfl⟩⟩, fun _ _ => ⟨trivial, fun _ _ => ⟨trivial, fun _ _ => ?_⟩⟩⟩
  exact ⟨trivial, fun _ _ => ⟨trivial, fun _ _ => trivial⟩⟩

end Rounds
end Runtime
end PhysicalHarness
