import PhysicalHarness.Runtime.Process

namespace PhysicalHarness
namespace Board
namespace BriefOutcome

open Python JsonText
open PhysicalHarness.Runtime (readJson Limits Behaviour Ran Place taskError sealCancelled conclude
  processClaimed attempt checkBrief audit Reading)

/-!
# The outcome of a brief

A brief may be run several times under one name.  Its outcome is read off the chain, where a row names
it, and off the operational feed otherwise.  The chain keeps the rows of all its runs, the feed those
of this boot, and a row of the chain goes before any event.  So the outcome is that of the latest run
exactly where that run has left a row, or where no run has and the latest has left a `plan_complete`
or no run of this boot has.
-/

/-! ## What a run leaves -/

inductive Action where
  | row (kind : String) (data : Json)
  | emit (kind : String) (detail : List (String × Json))

def Action.row? : Action → Option (String × Json)
  | .row kind data => some (kind, data)
  | .emit _ _ => none

def Action.emit? : Action → Option (String × List (String × Json))
  | .row _ _ => none
  | .emit kind detail => some (kind, detail)

def rowsOf (actions : List Action) : List (String × Json) := actions.filterMap Action.row?

def emitsOf (actions : List Action) : List (String × List (String × Json)) :=
  actions.filterMap Action.emit?

/-- `_BRIEF_CHAIN_KINDS`. -/
def briefChainKinds : List String :=
  ["runtime.task_error", "runtime.task_cancelled", "runtime.campaign_scheduled",
    "runtime.rsi_scheduled"]

/-- `_BRIEF_END_KINDS`. -/
def briefEndKinds : List String := ["task_done", "task_failed", "task_cancelled"]

/-- What the handler of a brief leaves while it runs: the rows that name a brief name this one, and
the events are inside of the boundaries of the claim. -/
structure Work (id : String) where
  actions : List Action
  names : ∀ row ∈ rowsOf actions, row.1 ∈ briefChainKinds → row.2.getD "brief" .null = .str id
  inside : ∀ note ∈ emitsOf actions, note.1 ≠ "task_claimed" ∧ note.1 ∉ briefEndKinds

/-- The row and the event of `_seal_cancelled`. -/
def sealActions (id : String) (brief : Json) (stage : String) : List Action :=
  [.row "runtime.task_cancelled" (.obj [("brief", .str id),
      ("task", Runtime.orElse (brief.getD "task" .null) (brief.getD "campaign" .null)),
      ("stage", .str stage)]),
    .emit "task_cancelled" [("brief", .str id), ("task", brief.getD "task" .null),
      ("stage", .str stage)]]

def errorRow (id : String) (brief : Json) (error : String) : Action :=
  .row (taskError id brief error).1 (taskError id brief error).2

/-- After the handler. -/
def closing (behaviour : Behaviour) (id : String) (brief : Json) (ran : Ran) : List Action :=
  match ran.ended with
  | .raised error =>
      if behaviour.cancelledRunning then sealActions id brief "running"
      else
        [errorRow id brief error,
          .emit "task_failed" [("brief", .str id), ("task", brief.getD "task" .null),
            ("error", .str error)]]
  | .interrupted => sealActions id brief "runtime_stopped"
  | .returned true => sealActions id brief "running"
  | .returned false =>
      .emit "task_done" [("brief", .str id), ("task", brief.getD "task" .null)] ::
        (match behaviour.refuses .done with
        | none => []
        | some error => [errorRow id brief ("done-rename failed: " ++ error)])

/-- The claim. -/
def claimed (id : String) (brief : Json) : Action :=
  .emit "task_claimed" [("brief", .str id), ("task", brief.getD "task" .null),
    ("campaign", brief.getD "campaign" .null), ("seed", brief.getD "seed" .null)]

section

variable [FloatText] [Limits] [Host]

def handles (rt : Runtime.Session) (brief : Json) : Bool :=
  match checkBrief brief with
  | .error _ => false
  | .ok kind =>
      if kind = "task" ∨ kind = "mission" then (audit rt).isNone
      else if kind = "suite" then true
      else decide (kind = "campaign" ∨ kind = "rsi" ∨ kind = "evolve") && decide (rt.mode = .evolution)

/-- All that `_process` leaves in the chain and in the feed, in its order. -/
def processActions (rt : Runtime.Session) (behaviour : Behaviour) (id : String) (content : ByteArray)
    (work : Work id) : List Action :=
  match readJson content with
  | .raised => []
  | .malformed => []
  | .json brief =>
      if brief.isMapping = false then []
      else
        claimed id brief ::
          (if behaviour.cancelledQueued then sealActions id brief "queued"
          else
            (if handles rt brief then work.actions else []) ++
              closing behaviour id brief (attempt rt behaviour brief))

end

structure ChainRow where
  seq : Nat
  kind : String
  data : Json

/-- `event.get("kind") == kind`. -/
def isKind (kind : String) (event : Json) : Bool := (event.getD "kind" .null).eq (.str kind)

/-- One turn of `_brief_events`: the segment so far, and whether the brief owns what follows. -/
def turn (id : String) (state : List Json × Bool) (event : Json) : List Json × Bool :=
  let mine := if isKind "task_claimed" event then (event.getD "brief" .null).eq (.str id) else state.2
  if mine then (state.1 ++ [event], !briefEndKinds.any (isKind · event)) else (state.1, false)

/-- `_brief_events`, with whether the brief owns what comes next. -/
def scan (id : String) (events : List Json) : List Json × Bool := events.foldl (turn id) ([], false)

def briefEvents (events : List Json) (id : String) : List Json := (scan id events).1

inductive Outcome where
  | chain (row : ChainRow)
  | event (event : Json)

/-- The dict of an outcome. -/
def Outcome.json : Outcome → Json
  | .chain row => .obj (row.data.fields.foldl (fun table field => Assoc.set table field.1 field.2)
      [("chain_kind", .str row.kind), ("chain_seq", .int row.seq)])
  | .event entry => .obj (entry.fields.filter (fun field => decide (field.1 ≠ "seq")))

/-- A row that names the brief. -/
def names (id : String) (row : ChainRow) : Bool :=
  decide (row.kind ∈ briefChainKinds) && (row.data.getD "brief" .null).eq (.str id)

/-- `_brief_outcome`. -/
def briefOutcome (rows : List ChainRow) (id : String) (seg : List Json) : Option Outcome :=
  match rows.reverse.find? (names id) with
  | some row => some (.chain row)
  | none => (seg.reverse.find? (isKind "plan_complete")).map .event

/-- The outcome in the reply of `brief_status`. -/
def statusOutcome (rows : List ChainRow) (feed : List Json) (id : String) : Option Outcome :=
  briefOutcome rows id (briefEvents feed id)

/-! ## Histories -/

def feedEvent (seq : Nat) (ts : Double) (kind : String) (detail : List (String × Json)) : Json :=
  .obj ([("ts", .float ts.value), ("seq", .int seq), ("kind", .str kind)] ++ detail)

def numbered (start : Nat) (rows : List (String × Json)) : List ChainRow :=
  (rows.zipIdx start).map (fun entry => ⟨entry.2, entry.1.1, entry.1.2⟩)

def stamped (clock : Nat → Double) (start : Nat) (notes : List (String × List (String × Json))) : List Json :=
  (notes.zipIdx start).map (fun entry => feedEvent entry.2 (clock entry.2) entry.1.1 entry.1.2)

/-- The latest run of the brief: the chain and the feed at its claim, its own rows and events, and
whether its events are still in the feed. -/
structure Latest where
  before : List ChainRow
  feedBefore : List Json
  rows : List ChainRow
  events : List Json
  inFeed : Bool

/-- A session, with the latest run of one brief; `down` where the runtime has to boot first. -/
structure Session where
  rows : List ChainRow
  feed : List Json
  down : Bool
  latest : Option Latest

/-- A claim, with all that it meets; `cut` is where the runtime dies in it. -/
structure Claim where
  id : String
  rt : Runtime.Session
  behaviour : Behaviour
  content : ByteArray
  work : Work id
  cut : Option Nat

inductive Step where
  /-- A boot; it files as poison the briefs that it has requeued too often. -/
  | boot (poison : List String) (detail : List (String × Json)) (clock : Nat → Double)
  | claim (claim : Claim) (clock : Nat → Double)

/-- The row of `_requeue`. -/
def poisonRow (id : String) : String × Json :=
  ("runtime.task_error", .obj [("brief", .str id), ("task", .null),
    ("error", .str ("crash-loop: re-queued 2 times and the runtime died holding it again each time; " ++
      "filed as poison rather than re-queued once more"))])

section

variable [FloatText] [Limits] [Host]

/-- What a claim does before the runtime dies. -/
def Claim.actions (claim : Claim) : List Action :=
  let actions := processActions claim.rt claim.behaviour claim.id claim.content claim.work
  match claim.cut with
  | none => actions
  | some count => actions.take count

def claimedBy (id : String) (claim : Claim) (clock : Nat → Double) (session : Session) : Session :=
  let rows := numbered session.rows.length (rowsOf claim.actions)
  let events := stamped clock (session.feed.length + 1) (emitsOf claim.actions)
  { rows := session.rows ++ rows
    feed := session.feed ++ events
    down := claim.cut.isSome ||
      (processClaimed claim.rt claim.behaviour claim.id claim.content).raises
    latest :=
      if claim.id = id then some ⟨session.rows, session.feed, rows, events, true⟩
      else session.latest }

/-- A step of a session, with the runs of one brief followed. -/
def step (id : String) : Step → Session → Option Session
  | .boot poison detail clock, session => some {
      rows := session.rows ++ numbered session.rows.length (poison.map poisonRow)
      feed := stamped clock 1 [("boot", detail)]
      down := false
      latest := session.latest.map (fun run => { run with inFeed := false }) }
  | .claim claim clock, session =>
      if session.down then none
      else if claim.behaviour.vanished then some session
      else some (claimedBy id claim clock session)

/-- Before the first boot. -/
def start : Session := ⟨[], [], true, none⟩

end

/-- What the latest run has done: its own newest row, or its own last `plan_complete`. -/
def Latest.outcome (id : String) (run : Latest) : Option Outcome := briefOutcome run.rows id run.events

/-- No earlier run hides what the latest one has done. -/
def Shows (id : String) (run : Latest) : Prop :=
  (∃ row ∈ run.rows, names id row = true) ∨
    ((∀ row ∈ run.before, names id row = false) ∧
      ((∃ event ∈ run.events, isKind "plan_complete" event = true) ∨
        ∀ event ∈ briefEvents run.feedBefore id, isKind "plan_complete" event = false))

variable {id : String} {seg : List Json} {α : Type} {keep : α → Bool} {items : List α}

theorem find?_reverse_append (keep : α → Bool) (first second : List α) :
    (first ++ second).reverse.find? keep = (second.reverse.find? keep).or (first.reverse.find? keep) := by
  rw [List.reverse_append, List.find?_append]

theorem find?_reverse_eq_none (none_ : ∀ item ∈ items, keep item = false) :
    items.reverse.find? keep = none := by
  apply List.find?_eq_none.mpr
  intro item mem
  rw [none_ item (List.mem_reverse.mp mem)]
  exact Bool.false_ne_true

theorem exists_of_find?_reverse {found : α} (search : items.reverse.find? keep = some found) :
    ∃ item ∈ items, keep item = true :=
  ⟨found, List.mem_reverse.mp (List.mem_of_find?_eq_some search), List.find?_some search⟩

theorem find?_reverse_isSome (some_ : ∃ item ∈ items, keep item = true) :
    ∃ found, items.reverse.find? keep = some found := by
  rcases some_ with ⟨item, mem, kept⟩
  have found : (items.reverse.find? keep).isSome = true :=
    List.find?_isSome.mpr ⟨item, List.mem_reverse.mpr mem, kept⟩
  exact Option.isSome_iff_exists.mp found

theorem briefOutcome_of_unnamed {rows : List ChainRow}
    (unnamed : rows.reverse.find? (names id) = none) :
    briefOutcome rows id seg = (seg.reverse.find? (isKind "plan_complete")).map .event := by
  rw [briefOutcome, unnamed]

theorem briefOutcome_of_named {rows : List ChainRow} {row : ChainRow}
    (named : rows.reverse.find? (names id) = some row) :
    briefOutcome rows id seg = some (.chain row) := by
  rw [briefOutcome, named]

/-- Where the rows and the events of a run stand behind those before it, its outcome is the one that
is shown exactly where no earlier one hides it. -/
theorem shown_iff {run : Latest} {rows later : List ChainRow} {feed : List Json}
    (chain : rows = run.before ++ run.rows ++ later) (others : ∀ row ∈ later, names id row = false)
    (segment : briefEvents feed id = briefEvents run.feedBefore id ++ run.events) :
    statusOutcome rows feed id = run.outcome id ↔ Shows id run := by
  have newest : rows.reverse.find? (names id) =
      (run.rows.reverse.find? (names id)).or (run.before.reverse.find? (names id)) := by
    rw [chain, find?_reverse_append, find?_reverse_eq_none others, Option.none_or, find?_reverse_append]
  have last : (briefEvents feed id).reverse.find? (isKind "plan_complete") =
      (run.events.reverse.find? (isKind "plan_complete")).or
        ((briefEvents run.feedBefore id).reverse.find? (isKind "plan_complete")) := by
    rw [segment, find?_reverse_append]
  rw [statusOutcome, Latest.outcome]
  cases own : run.rows.reverse.find? (names id) with
  | some row =>
      rw [own, Option.some_or] at newest
      rw [briefOutcome_of_named newest, briefOutcome_of_named own]
      exact iff_of_true rfl (Or.inl (exists_of_find?_reverse own))
  | none =>
      have unnamed : ¬ ∃ row ∈ run.rows, names id row = true := by
        intro named
        rcases find?_reverse_isSome named with ⟨row, found⟩
        cases own.symm.trans found
      rw [own, Option.none_or] at newest
      rw [briefOutcome_of_unnamed own, Shows, or_iff_right unnamed]
      cases earlier : run.before.reverse.find? (names id) with
      | some row =>
          rw [earlier] at newest
          rw [briefOutcome_of_named newest]
          refine iff_of_false ?_ (fun clear => ?_)
          · cases run.events.reverse.find? (isKind "plan_complete") with
            | none => exact fun never => Option.some_ne_none _ never
            | some event =>
                intro same
                cases Option.some.inj same
          · rw [find?_reverse_eq_none clear.1] at earlier
            cases earlier
      | none =>
          rw [earlier] at newest
          have clear : ∀ row ∈ run.before, names id row = false := by
            intro row mem
            by_contra named
            rcases find?_reverse_isSome ⟨row, mem, Bool.eq_true_of_not_eq_false named⟩ with ⟨_, found⟩
            cases earlier.symm.trans found
          rw [briefOutcome_of_unnamed newest, last, and_iff_right clear]
          cases completes : run.events.reverse.find? (isKind "plan_complete") with
          | some event => exact iff_of_true rfl (Or.inl (exists_of_find?_reverse completes))
          | none =>
              have silent : ¬ ∃ event ∈ run.events, isKind "plan_complete" event = true := by
                intro some_
                rcases find?_reverse_isSome some_ with ⟨event, found⟩
                cases completes.symm.trans found
              rw [Option.none_or, or_iff_right silent]
              cases before : (briefEvents run.feedBefore id).reverse.find? (isKind "plan_complete") with
              | none =>
                  refine iff_of_true rfl (fun event mem => ?_)
                  by_contra completed
                  rcases find?_reverse_isSome ⟨event, mem, Bool.eq_true_of_not_eq_false completed⟩ with
                    ⟨_, found⟩
                  cases before.symm.trans found
              | some event =>
                  refine iff_of_false (fun never => Option.some_ne_none _ never) (fun none_ => ?_)
                  rw [find?_reverse_eq_none none_] at before
                  cases before

/-! ## The events of a claim -/

theorem isKind_feedEvent (kind : String) (seq : Nat) (ts : Double) (own : String)
    (detail : List (String × Json)) : isKind kind (feedEvent seq ts own detail) = decide (own = kind) := by
  have found : (feedEvent seq ts own detail).getD "kind" .null = .str own := rfl
  rw [isKind, found]
  apply Bool.eq_iff_iff.mpr
  rw [Json.eq_str_iff, decide_eq_true_eq]
  exact ⟨Json.str.inj, congrArg Json.str⟩

theorem stamped_cons (clock : Nat → Double) (start : Nat) (note : String × List (String × Json))
    (notes : List (String × List (String × Json))) :
    stamped clock start (note :: notes) =
      feedEvent start (clock start) note.1 note.2 :: stamped clock (start + 1) notes := by
  rw [stamped, List.zipIdx_cons, List.map_cons]
  rfl

theorem stamped_append (clock : Nat → Double) (start : Nat)
    (notes more : List (String × List (String × Json))) :
    stamped clock start (notes ++ more) =
      stamped clock start notes ++ stamped clock (start + notes.length) more := by
  rw [stamped, List.zipIdx_append, List.map_append]
  rfl

/-- An event between the boundaries belongs to whom the claim belongs to. -/
def Inside (notes : List (String × List (String × Json))) : Prop :=
  ∀ note ∈ notes, note.1 ≠ "task_claimed" ∧ note.1 ∉ briefEndKinds

theorem turn_inside {state : List Json × Bool} {event : Json}
    (claimed : isKind "task_claimed" event = false)
    (ends : briefEndKinds.any (isKind · event) = false) :
    turn id state event = if state.2 then (state.1 ++ [event], true) else (state.1, false) := by
  rw [turn, claimed, ends]
  rfl

theorem ends_feedEvent {kind : String} (inside : kind ∉ briefEndKinds) (seq : Nat) (ts : Double)
    (detail : List (String × Json)) :
    briefEndKinds.any (isKind · (feedEvent seq ts kind detail)) = false := by
  apply List.any_eq_false.mpr
  intro ending mem
  rw [isKind_feedEvent, decide_eq_true_eq]
  intro same
  exact inside (same ▸ mem)

theorem scan_inside {clock : Nat → Double} {notes : List (String × List (String × Json))}
    (inside : Inside notes) (start : Nat) (state : List Json × Bool) :
    (stamped clock start notes).foldl (turn id) state =
      if state.2 then (state.1 ++ stamped clock start notes, true) else (state.1, false) := by
  induction notes generalizing start state with
  | nil =>
      rcases state with ⟨seg, mine⟩
      cases mine with
      | false => rfl
      | true =>
          rw [if_pos rfl]
          exact Prod.ext (List.append_nil seg).symm rfl
  | cons note rest ih =>
      have here := inside note (.head _)
      have later : Inside rest := fun other mem => inside other (.tail _ mem)
      have open_ : isKind "task_claimed" (feedEvent start (clock start) note.1 note.2) = false := by
        rw [isKind_feedEvent]
        exact decide_eq_false here.1
      rw [stamped_cons, List.foldl_cons, turn_inside open_ (ends_feedEvent here.2 _ _ _), ih later]
      rcases state with ⟨seg, mine⟩
      cases mine with
      | false => rfl
      | true =>
          rw [if_pos rfl, if_pos rfl, if_pos rfl, List.append_assoc]
          rfl

/-- What a claim leaves in the feed: nothing, or its beginning, what is inside and its end. -/
inductive Boundary (id : String) : List (String × List (String × Json)) → Prop where
  | nothing : Boundary id []
  | claimed (detail : List (String × Json)) (inside : List (String × List (String × Json)))
      (ending : String × List (String × Json)) (own : Assoc.get? detail "brief" = some (.str id))
      (between : Inside inside) (ends : ending.1 ∈ briefEndKinds) :
      Boundary id (("task_claimed", detail) :: (inside ++ [ending]))

theorem turn_claimed {other : String} {mine : Bool} {seq : Nat} {ts : Double}
    {detail : List (String × Json)} (own : Assoc.get? detail "brief" = some (.str other)) :
    turn id (seg, mine) (feedEvent seq ts "task_claimed" detail) =
      if other = id then (seg ++ [feedEvent seq ts "task_claimed" detail], true) else (seg, false) := by
  have opens : isKind "task_claimed" (feedEvent seq ts "task_claimed" detail) = true := by
    rw [isKind_feedEvent]
    exact decide_eq_true rfl
  have named : (feedEvent seq ts "task_claimed" detail).getD "brief" .null = .str other := by
    rw [Json.getD, feedEvent, Json.get?]
    rw [show Assoc.get? ([("ts", Json.float ts.value), ("seq", .int seq), ("kind", .str "task_claimed")] ++
      detail) "brief" = Assoc.get? detail "brief" from rfl, own]
    rfl
  have inside : "task_claimed" ∉ briefEndKinds := by decide
  rw [turn, opens, named, ends_feedEvent inside]
  by_cases same : other = id
  · rw [if_pos same, same, Json.eq_self]
    rfl
  · have apart : (Json.str other).eq (.str id) = false := by
      apply Bool.eq_false_iff.mpr
      intro equal
      exact same (Json.str.inj ((Json.eq_str_iff _ _).mp equal))
    rw [if_neg same, apart]
    rfl

theorem turn_ending {kind : String} {state : List Json × Bool} {seq : Nat} {ts : Double}
    {detail : List (String × Json)} (ends : kind ∈ briefEndKinds) :
    turn id state (feedEvent seq ts kind detail) =
      if state.2 then (state.1 ++ [feedEvent seq ts kind detail], false) else (state.1, false) := by
  have open_ : isKind "task_claimed" (feedEvent seq ts kind detail) = false := by
    rw [isKind_feedEvent]
    apply decide_eq_false
    intro same
    rw [same] at ends
    exact absurd ends (by decide)
  have closes : briefEndKinds.any (isKind · (feedEvent seq ts kind detail)) = true := by
    apply List.any_eq_true.mpr
    exact ⟨kind, ends, by rw [isKind_feedEvent]; exact decide_eq_true rfl⟩
  rw [turn, open_, closes]
  rfl

/-- The events of a claim, up to where the runtime dies, are those of the brief that is claimed. -/
theorem scan_boundary {other : String} {notes made : List (String × List (String × Json))}
    (boundary : Boundary other notes) (cut : made <+: notes) (clock : Nat → Double) (start : Nat)
    (seg : List Json) :
    ∃ mine, (stamped clock start made).foldl (turn id) (seg, false) =
        (if other = id then seg ++ stamped clock start made else seg, mine) ∧
      (made = notes → mine = false) := by
  have none_ : ∃ mine, (stamped clock start []).foldl (turn id) (seg, false) =
      (if other = id then seg ++ stamped clock start [] else seg, mine) ∧ mine = false := by
    refine ⟨false, ?_, rfl⟩
    by_cases same : other = id
    · rw [if_pos same]
      exact Prod.ext (List.append_nil seg).symm rfl
    · rw [if_neg same]
      rfl
  cases boundary with
  | nothing =>
      rw [List.prefix_nil.mp cut]
      rcases none_ with ⟨mine, scanned, closed⟩
      exact ⟨mine, scanned, fun _ => closed⟩
  | claimed detail inside ending own between ends =>
      rcases List.prefix_cons_iff.mp cut with rfl | ⟨more, rfl, within⟩
      · rcases none_ with ⟨mine, scanned, closed⟩
        exact ⟨mine, scanned, fun _ => closed⟩
      · rw [stamped_cons, List.foldl_cons, turn_claimed own]
        rcases List.prefix_concat_iff.mp within with rfl | within
        · refine ⟨false, ?_, fun _ => rfl⟩
          rw [stamped_append, List.foldl_append, scan_inside between, stamped_cons,
            List.foldl_cons]
          by_cases same : other = id
          · rw [if_pos same, if_pos rfl, turn_ending ends, if_pos same, if_pos rfl]
            simp [stamped]
          · rw [if_neg same, if_neg Bool.false_ne_true, turn_ending ends, if_neg same,
              if_neg Bool.false_ne_true]
            rfl
        · have between_ : Inside more := fun note mem => between note (within.subset mem)
          rw [scan_inside between_]
          by_cases same : other = id
          · rw [if_pos same, if_pos rfl, if_pos same]
            refine ⟨true, by rw [List.append_assoc]; rfl, fun never => ?_⟩
            have lengths := congrArg List.length (List.cons.inj never).2
            have short := within.length_le
            rw [List.length_append, List.length_singleton] at lengths
            omega
          · rw [if_neg same, if_neg Bool.false_ne_true, if_neg same]
            exact ⟨false, rfl, fun _ => rfl⟩

theorem rowsOf_append (actions more : List Action) : rowsOf (actions ++ more) = rowsOf actions ++ rowsOf more :=
  List.filterMap_append

theorem emitsOf_append (actions more : List Action) :
    emitsOf (actions ++ more) = emitsOf actions ++ emitsOf more :=
  List.filterMap_append

theorem closing_leaves (behaviour : Behaviour) (id : String) (brief : Json) (ran : Ran) :
    (∃ ending, emitsOf (closing behaviour id brief ran) = [ending] ∧ ending.1 ∈ briefEndKinds) ∧
      ∀ row ∈ rowsOf (closing behaviour id brief ran), row.2.getD "brief" .null = .str id := by
  have sealed (stage : String) :
      (∃ ending, emitsOf (sealActions id brief stage) = [ending] ∧ ending.1 ∈ briefEndKinds) ∧
        ∀ row ∈ rowsOf (sealActions id brief stage), row.2.getD "brief" .null = .str id := by
    refine ⟨⟨_, rfl, (by decide : "task_cancelled" ∈ briefEndKinds)⟩, fun row mem => ?_⟩
    rw [List.mem_singleton.mp mem]
    rfl
  rw [closing]
  split
  · split
    · exact sealed _
    · refine ⟨⟨_, rfl, (by decide : "task_failed" ∈ briefEndKinds)⟩, fun row mem => ?_⟩
      rw [List.mem_singleton.mp mem]
      rfl
  · exact sealed _
  · exact sealed _
  · cases behaviour.refuses .done with
    | none =>
        exact ⟨⟨_, rfl, (by decide : "task_done" ∈ briefEndKinds)⟩,
          List.forall_mem_nil _⟩
    | some error =>
        refine ⟨⟨_, rfl, (by decide : "task_done" ∈ briefEndKinds)⟩, fun row mem => ?_⟩
        rw [List.mem_singleton.mp mem]
        rfl

section

variable [FloatText] [Limits] [Host]

theorem boundary_processActions (rt : Runtime.Session) (behaviour : Behaviour) (id : String)
    (content : ByteArray) (work : Work id) :
    Boundary id (emitsOf (processActions rt behaviour id content work)) ∧
      ∀ row ∈ rowsOf (processActions rt behaviour id content work),
        row.1 ∈ briefChainKinds → row.2.getD "brief" .null = .str id := by
  have nothing : Boundary id (emitsOf []) ∧ ∀ row ∈ rowsOf [],
      row.1 ∈ briefChainKinds → row.2.getD "brief" .null = .str id :=
    ⟨Boundary.nothing, List.forall_mem_nil _⟩
  rw [processActions]
  split
  · exact nothing
  · exact nothing
  · rename_i brief _
    split
    · exact nothing
    · have framed (inner last : List Action)
          (within : Inside (emitsOf inner))
          (named : ∀ row ∈ rowsOf inner, row.1 ∈ briefChainKinds → row.2.getD "brief" .null = .str id)
          (leaves : (∃ ending, emitsOf last = [ending] ∧ ending.1 ∈ briefEndKinds) ∧
            ∀ row ∈ rowsOf last, row.2.getD "brief" .null = .str id) :
          Boundary id (emitsOf (claimed id brief :: (inner ++ last))) ∧
            ∀ row ∈ rowsOf (claimed id brief :: (inner ++ last)),
              row.1 ∈ briefChainKinds → row.2.getD "brief" .null = .str id := by
        rcases leaves with ⟨⟨ending, one, ends⟩, names_⟩
        have emits : emitsOf (claimed id brief :: (inner ++ last)) =
            ("task_claimed", [("brief", .str id), ("task", brief.getD "task" .null),
              ("campaign", brief.getD "campaign" .null), ("seed", brief.getD "seed" .null)]) ::
                (emitsOf inner ++ [ending]) := by
          rw [← one, ← emitsOf_append]
          rfl
        have rows : rowsOf (claimed id brief :: (inner ++ last)) = rowsOf inner ++ rowsOf last :=
          rowsOf_append inner last
        rw [emits, rows]
        refine ⟨Boundary.claimed _ _ ending rfl within ends, fun row mem kind => ?_⟩
        rcases List.mem_append.mp mem with before | after
        · exact named row before kind
        · exact names_ row after
      have empty : Inside (emitsOf []) := List.forall_mem_nil _
      have unnamed : ∀ row ∈ rowsOf [], row.1 ∈ briefChainKinds → row.2.getD "brief" .null = .str id :=
        List.forall_mem_nil _
      split
      · refine framed [] _ empty unnamed ⟨⟨_, rfl, (by decide : "task_cancelled" ∈ briefEndKinds)⟩,
          fun row mem => ?_⟩
        rw [List.mem_singleton.mp mem]
        rfl
      · split
        · exact framed _ _ work.inside work.names (closing_leaves behaviour id brief _)
        · exact framed [] _ empty unnamed (closing_leaves behaviour id brief _)

theorem rowsOf_processActions (rt : Runtime.Session) (behaviour : Behaviour) (id : String)
    (content : ByteArray) (work : Work id) :
    ∃ own : List (String × Json), (own = [] ∨ own = rowsOf work.actions) ∧
      rowsOf (processActions rt behaviour id content work) =
        own ++ (processClaimed rt behaviour id content).rows := by
  have moved (rows : List (String × Json)) (target : Place) (dispatched : Bool) :
      (Runtime.move behaviour rows target dispatched).rows = rows := by
    rw [Runtime.move]
    cases behaviour.refuses target with
    | none => rfl
    | some _ => rfl
  have sealed (brief : Json) (stage : String) (dispatched : Bool) :
      rowsOf (sealActions id brief stage) = (sealCancelled behaviour id brief stage dispatched).rows :=
    (moved _ _ _).symm
  have closed (brief : Json) (ran : Ran) :
      rowsOf (closing behaviour id brief ran) = (conclude behaviour id brief ran).rows := by
    rw [closing, conclude]
    cases ran.ended with
    | raised error =>
        cases behaviour.cancelledRunning with
        | true => exact sealed brief "running" ran.dispatched
        | false => exact (moved _ _ _).symm
    | interrupted => exact sealed brief "runtime_stopped" ran.dispatched
    | returned stopped =>
        cases stopped with
        | true => exact sealed brief "running" ran.dispatched
        | false =>
            dsimp only
            cases behaviour.refuses .done with
            | none => rfl
            | some error => rfl
  rw [processActions, processClaimed]
  cases readJson content with
  | raised => exact ⟨[], Or.inl rfl, rfl⟩
  | malformed => exact ⟨[], Or.inl rfl, (moved _ _ _).symm⟩
  | json brief =>
      dsimp only
      by_cases object : brief.isMapping = false
      · rw [if_pos object, if_pos object]
        exact ⟨[], Or.inl rfl, rfl⟩
      · rw [if_neg object, if_neg object]
        by_cases marked : behaviour.cancelledQueued = true
        · rw [if_pos marked, if_pos marked]
          exact ⟨[], Or.inl rfl, sealed brief "queued" false⟩
        · rw [if_neg marked, if_neg marked]
          have split_ (inner : List Action) :
              rowsOf (claimed id brief :: (inner ++ closing behaviour id brief (attempt rt behaviour brief))) =
                rowsOf inner ++ (conclude behaviour id brief (attempt rt behaviour brief)).rows := by
            rw [← closed, ← rowsOf_append]
            rfl
          by_cases handled : handles rt brief = true
          · rw [if_pos handled]
            exact ⟨rowsOf work.actions, Or.inr rfl, split_ work.actions⟩
          · rw [if_neg handled]
            exact ⟨[], Or.inl rfl, split_ []⟩

/-- The latest run stands behind those before it in the chain and in the feed, and no claim is open
unless the runtime has to boot first. -/
structure Follows (id : String) (session : Session) : Prop where
  shut : session.down = false → (scan id session.feed).2 = false
  rows : ∀ run, session.latest = some run → run.inFeed = true →
    ∃ later, session.rows = run.before ++ run.rows ++ later ∧ ∀ row ∈ later, names id row = false
  feed : ∀ run, session.latest = some run → run.inFeed = true →
    briefEvents session.feed id = briefEvents run.feedBefore id ++ run.events

omit [FloatText] [Limits] [Host] in
theorem follows_start (id : String) : Follows id start where
  shut := by
    exact nofun
  rows := by
    intro _ never
    cases never
  feed := by
    intro _ never
    cases never

omit [FloatText] [Limits] [Host] in
theorem follows_boot (id : String) (poison : List String) (detail : List (String × Json))
    (clock : Nat → Double) (session : Session) : Follows id {
      rows := session.rows ++ numbered session.rows.length (poison.map poisonRow)
      feed := stamped clock 1 [("boot", detail)]
      down := false
      latest := session.latest.map (fun run => { run with inFeed := false }) } := by
  have gone : ∀ run, session.latest.map (fun run => { run with inFeed := false }) = some run →
      run.inFeed ≠ true := by
    intro run found here
    rcases Option.map_eq_some_iff.mp found with ⟨_, _, rfl⟩
    cases here
  refine ⟨fun _ => ?_, fun run found here => absurd here (gone run found),
    fun run found here => absurd here (gone run found)⟩
  have kinds : "boot" ≠ "task_claimed" ∧ "boot" ∉ briefEndKinds := by decide
  have inside : Inside [("boot", detail)] := by
    intro note mem
    cases List.mem_singleton.mp mem
    exact kinds
  rw [scan, scan_inside inside]
  rfl

theorem actions_within (claim : Claim) : claim.actions <+:
    processActions claim.rt claim.behaviour claim.id claim.content claim.work := by
  rw [Claim.actions]
  cases claim.cut with
  | none => exact List.prefix_refl _
  | some count => exact List.take_prefix _ _

theorem unnamed_of_claim {id : String} {claim : Claim} (other : claim.id ≠ id) (start : Nat) :
    ∀ row ∈ numbered start (rowsOf claim.actions), names id row = false := by
  intro row mem
  rcases List.mem_map.mp mem with ⟨entry, listed, rfl⟩
  have made : entry.1 ∈ rowsOf claim.actions := List.fst_mem_of_mem_zipIdx listed
  have whole : entry.1 ∈ rowsOf (processActions claim.rt claim.behaviour claim.id claim.content
      claim.work) := ((actions_within claim).filterMap _).subset made
  by_contra named
  have both := (Bool.and_eq_true _ _).mp (Bool.eq_true_of_not_eq_false named)
  have here := (boundary_processActions claim.rt claim.behaviour claim.id claim.content
    claim.work).2 entry.1 whole (of_decide_eq_true both.1)
  have there := (Json.eq_str_iff _ _).mp both.2
  exact other (Json.str.inj (here.symm.trans there))

theorem scan_claim {id : String} {claim : Claim} {session : Session} (shut : (scan id session.feed).2 = false)
    (clock : Nat → Double) :
    ∃ mine, scan id (session.feed ++ stamped clock (session.feed.length + 1) (emitsOf claim.actions)) =
        (if claim.id = id then briefEvents session.feed id ++
            stamped clock (session.feed.length + 1) (emitsOf claim.actions)
          else briefEvents session.feed id, mine) ∧ (claim.cut = none → mine = false) := by
  have boundary := (boundary_processActions claim.rt claim.behaviour claim.id claim.content claim.work).1
  have cut : emitsOf claim.actions <+: emitsOf (processActions claim.rt claim.behaviour claim.id
      claim.content claim.work) := (actions_within claim).filterMap _
  have before : scan id session.feed = (briefEvents session.feed id, false) := Prod.ext rfl shut
  rcases @scan_boundary id claim.id _ _ boundary cut clock (session.feed.length + 1)
    (briefEvents session.feed id) with ⟨mine, scanned, closed⟩
  refine ⟨mine, ?_, fun whole => closed ?_⟩
  · rw [scan, List.foldl_append, ← scan, before, scanned]
  · rw [Claim.actions, whole]

theorem Follows.claimed {id : String} {session : Session} (follows : Follows id session)
    (up : session.down = false) (claim : Claim) (clock : Nat → Double) :
    Follows id (claimedBy id claim clock session) := by
  rcases @scan_claim _ _ _ id claim session (follows.shut up) clock with ⟨mine, scanned, closed⟩
  refine ⟨fun still => ?_, fun run found here => ?_, fun run found here => ?_⟩
  · have whole : claim.cut = none := by
      have parts := (Bool.or_eq_false_iff.mp still).1
      exact Option.not_isSome_iff_eq_none.mp (by rw [parts]; exact Bool.false_ne_true)
    change (scan id (session.feed ++ stamped clock (session.feed.length + 1) (emitsOf claim.actions))).2 = false
    rw [scanned]
    exact closed whole
  · rw [claimedBy] at found ⊢
    dsimp only at found ⊢
    by_cases same : claim.id = id
    · rw [if_pos same] at found
      cases found
      exact ⟨[], (List.append_nil _).symm, List.forall_mem_nil _⟩
    · rw [if_neg same] at found
      rcases follows.rows run found here with ⟨later, rows, others⟩
      refine ⟨later ++ numbered session.rows.length (rowsOf claim.actions), ?_, fun row mem => ?_⟩
      · rw [rows, List.append_assoc (run.before ++ run.rows)]
      · rcases List.mem_append.mp mem with before | fresh
        · exact others row before
        · exact unnamed_of_claim same _ row fresh
  · rw [claimedBy] at found ⊢
    dsimp only at found ⊢
    rw [briefEvents, scanned]
    by_cases same : claim.id = id
    · rw [if_pos same] at found ⊢
      cases found
      rfl
    · rw [if_neg same] at found ⊢
      exact follows.feed run found here

theorem Follows.step {id : String} {session next : Session} (follows : Follows id session) {event : Step}
    (stepped : step id event session = some next) : Follows id next := by
  cases event with
  | boot poison detail clock =>
      cases stepped
      exact follows_boot id poison detail clock session
  | claim claim clock =>
      rw [BriefOutcome.step] at stepped
      split at stepped
      · cases stepped
      · rename_i up
        split at stepped
        · cases stepped
          exact follows
        · cases stepped
          exact follows.claimed (Bool.eq_false_of_not_eq_true up) claim clock

/-- In every state of every history, while the events of the latest run of a brief are in the feed,
the outcome that is reported is its own exactly where no earlier run hides it. -/
theorem outcome_of_latest_iff {id : String} {steps : List Step} {session : Session}
    (ran : Schedule.run (step id) start steps = some session) {run : Latest}
    (latest : session.latest = some run) (live : run.inFeed = true) :
    statusOutcome session.rows session.feed id = run.outcome id ↔ Shows id run := by
  have follows : Follows id session := by
    refine Schedule.invariant ?_ (follows_start id) ran
    intro event state next (before : Follows id state) stepped
    exact before.step stepped
  rcases follows.rows run latest live with ⟨later, rows, others⟩
  exact shown_iff rows others (follows.feed run latest live)

end

/-! ## A brief that is submitted again -/

section

local instance sampleFloats : FloatText := exactDecimals

local instance sampleHost : Host := asciiHost

local instance sampleLimits : Limits := ⟨fun _ => false⟩

def endsAs (ended : Runtime.Ended) : Behaviour :=
  ⟨false, false, false, none, "", ⟨true, ended⟩, fun _ => none⟩

def silent : Work "a.json" where
  actions := []
  names := by
    intro _ impossible
    cases impossible
  inside := by
    intro _ impossible
    cases impossible

def completing : Work "a.json" where
  actions := [.emit "plan_complete" [("success", .bool true)]]
  names := by
    intro _ impossible
    cases impossible
  inside := by
    intro note member
    rw [List.mem_singleton.mp member]
    decide

def claimOf (ended : Runtime.Ended) (work : Work "a.json") : Claim :=
  ⟨"a.json", ⟨.evolution, [], []⟩, endsAs ended, "\x7b\x7d".toUTF8, work, none⟩

def sampleClock : Nat → Double := fun _ => Double.nearest 0

/-- A run that raises, and one that carries its plan out. -/
def failed : Step := .claim (claimOf (.raised "boom") silent) sampleClock

def completed : Step := .claim (claimOf (.returned false) completing) sampleClock

def ownRow (session : Session) : Bool :=
  session.latest.any (fun run => run.inFeed && run.rows.any (names "a.json"))

theorem outcome_of_resubmitted :
    ∃ session run,
      Schedule.run (step "a.json") start [.boot [] [] sampleClock, completed, failed] = some session ∧
        session.latest = some run ∧
          statusOutcome session.rows session.feed "a.json" = run.outcome "a.json" := by
  have ends : (Schedule.run (step "a.json") start [.boot [] [] sampleClock, completed, failed]).any
      ownRow = true := by decide +kernel
  rcases Option.any_eq_true _ _ |>.mp ends with ⟨session, ran, own⟩
  rcases Option.any_eq_true _ _ |>.mp own with ⟨run, latest, shown⟩
  have parts := (Bool.and_eq_true _ _).mp shown
  rcases List.any_eq_true.mp parts.2 with ⟨row, member, named⟩
  exact ⟨session, run, ran, latest,
    (outcome_of_latest_iff ran latest parts.1).mpr (Or.inl ⟨row, member, named⟩)⟩

def isError : Option Outcome → Bool
  | some (.chain row) => row.kind == "runtime.task_error"
  | _ => false

def isComplete : Option Outcome → Bool
  | some (.event event) => isKind "plan_complete" event
  | _ => false

def disagrees (session : Session) : Bool :=
  session.latest.any (fun run => run.inFeed &&
    (isComplete (run.outcome "a.json") && isError (statusOutcome session.rows session.feed "a.json")))

/-- A brief that failed and is submitted again carries its plan out, and is reported as failed. -/
theorem resubmitted_reported_failed :
    ∃ session run,
      Schedule.run (step "a.json") start [.boot [] [] sampleClock, failed, completed] = some session ∧
        session.latest = some run ∧ run.inFeed = true ∧
          (isComplete (run.outcome "a.json") = true ∧
            isError (statusOutcome session.rows session.feed "a.json") = true) ∧
              statusOutcome session.rows session.feed "a.json" ≠ run.outcome "a.json" := by
  have ends : (Schedule.run (step "a.json") start [.boot [] [] sampleClock, failed, completed]).any
      disagrees = true := by decide +kernel
  rcases Option.any_eq_true _ _ |>.mp ends with ⟨session, ran, differs⟩
  rcases Option.any_eq_true _ _ |>.mp differs with ⟨run, latest, shown⟩
  have live := (Bool.and_eq_true _ _).mp shown
  have sides := (Bool.and_eq_true _ _).mp live.2
  refine ⟨session, run, ran, latest, live.1, sides, ?_⟩
  intro same
  have error := sides.2
  rw [same] at error
  cases own : run.outcome "a.json" with
  | none =>
      rw [own] at error
      cases error
  | some outcome =>
      rw [own] at error sides
      cases outcome with
      | chain row => cases sides.1
      | event event => cases error

end

end BriefOutcome
end Board
end PhysicalHarness
