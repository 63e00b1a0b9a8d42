import PhysicalHarness.Board.Burned
import PhysicalHarness.Lib.Schedule

namespace PhysicalHarness
namespace Board
namespace RuntimeEvents

open Python JsonText

/-!
# The cursor of the event feed

The runtime truncates its feed at every boot and numbers the events from one.  A poller passes the
last number it has seen and appends what is newer; when the newest number is below its own, it starts
over.  A feed that has grown to the poller's number since the boot is not told from the old one.  The
poller loses nothing exactly where, at every poll after a boot, the new feed is still behind it or it
holds nothing.
-/

section

variable [FloatText]

/-! ## The writer -/

/-- The keyword arguments of `emit`: no caller passes a number, a time or a kind among them. -/
structure Detail where
  fields : List (String × Json)
  proper : Proper (.obj fields)
  distinct : Distinct (.obj fields)
  own : ∀ key ∈ Assoc.keys fields, key ∉ ["ts", "seq", "kind"]

def eventOf (seq : Nat) (kind : String) (detail : Detail) (ts : Double) : Json :=
  .obj ([("ts", .float ts.value), ("seq", .int seq), ("kind", .str kind)] ++ detail.fields)

/-- `opstream`: whether it is armed, the number of the last event and the file. -/
structure Stream where
  armed : Bool
  seq : Nat
  file : Option (List Char)

namespace Stream

/-- Before the first boot. -/
def fresh : Stream := ⟨false, 0, none⟩

/-- `arm`; where the file cannot be opened the stream is left unarmed. -/
def arm (opens : Bool) (stream : Stream) : Stream :=
  if opens then ⟨true, 0, some []⟩ else { stream with armed := false }

/-- `emit`; an event that cannot be written has taken its number all the same. -/
def emit (kind : String) (detail : Detail) (ts : Double) (lands : Bool) (stream : Stream) : Stream :=
  if stream.armed then
    if lands then
      { stream with
        seq := stream.seq + 1
        file := some (stream.file.getD [] ++
          (print plain 0 (eventOf (stream.seq + 1) kind detail ts) ++ ['\n'])) }
    else { stream with seq := stream.seq + 1 }
  else stream

end Stream

/-- `row["seq"]`, where it is an int. -/
def seqOf (row : Json) : Option Int :=
  match row.get? "seq" with
  | some (.int seq) => some seq
  | some (.bool value) => some (if value then 1 else 0)
  | _ => none

def rowOf (line : List Char) : Option (Json × Int) :=
  if strip line = [] then none
  else (loads (strip line)).bind (fun row => (seqOf row).map (fun seq => (row, seq)))

def lastSeq (rows : List (Json × Int)) : Int := (rows.map Prod.snd).foldl max 0

structure Reply where
  events : List Json
  lastSeq : Int

/-- `read_runtime_events`. -/
def readRuntimeEvents (file : Option (List Char)) (afterSeq : Int) : Reply :=
  match file with
  | none => ⟨[], 0⟩
  | some text =>
      let rows := (textLines text).filterMap rowOf
      ⟨(rows.filter (fun row => decide (afterSeq < row.2))).map Prod.fst, lastSeq rows⟩

/-- The last number that was seen, and the events since the last reset. -/
structure Poller where
  cursor : Int
  held : List Json

/-- A poll, and whether it is completed: where the feed is behind the cursor, the poller resets
itself and has yet to read again. -/
def Poller.poll (file : Option (List Char)) (poller : Poller) : Poller × Bool :=
  let reply := readRuntimeEvents file poller.cursor
  if reply.lastSeq < poller.cursor then (⟨0, []⟩, false)
  else (⟨reply.lastSeq, poller.held ++ reply.events⟩, true)

/-- The beginning of a line that is being written, which is no event yet. -/
structure Part where
  text : List Char
  printable : Printable text
  torn : rowOf text = none

/-- The stream and the poller, with the events of this boot that are in the file, whether there was a
boot since the last poll, and whether the last step was a poll that is completed. -/
structure State where
  stream : Stream
  poller : Poller
  live : List (Json × Int)
  booted : Bool
  completed : Bool

inductive Event where
  | emit (kind : String) (detail : Detail) (ts : Double) (lands : Bool)
  | boot
  | poll (part : Part)

def landed (state : State) (kind : String) (detail : Detail) (ts : Double) (lands : Bool) :
    List (Json × Int) :=
  if state.stream.armed && lands then
    state.live ++ [(eventOf (state.stream.seq + 1) kind detail ts, ((state.stream.seq + 1 : Nat) : Int))]
  else state.live

def next : Event → State → State
  | .emit kind detail ts lands, state =>
      { state with
        stream := state.stream.emit kind detail ts lands
        live := landed state kind detail ts lands
        completed := false }
  | .boot, state =>
      { state with stream := state.stream.arm true, live := [], booted := true, completed := false }
  | .poll part, state =>
      let polled := state.poller.poll (state.stream.file.map (· ++ part.text))
      { state with poller := polled.1, booted := false, completed := polled.2 }

/-- Every step can happen at any time. -/
def step (event : Event) (state : State) : Option State := some (next event state)

def start : State := ⟨.fresh, ⟨0, []⟩, [], false, false⟩

/-- A poll can tell whether there was a boot: there was none, or the new feed is behind the cursor, or
nothing is held. -/
def Told (event : Event) (state : State) : Prop :=
  match event with
  | .poll _ => state.booted = false ∨ lastSeq state.live < state.poller.cursor ∨ state.poller.cursor = 0
  | _ => True

/-- The poller holds the events of this boot that are in the file. -/
def Exact (state : State) : Prop :=
  state.completed = true → state.poller.held = state.live.map Prod.fst

omit [FloatText] in
theorem proper_eventOf (seq : Nat) (kind : String) (detail : Detail) (ts : Double) :
    Proper (eventOf seq kind detail ts) := by
  have first : Proper (.obj [("ts", .float ts.value), ("seq", .int seq), ("kind", .str kind)]) :=
    ⟨trivial, ts.double, trivial, trivial, trivial⟩
  refine ⟨trivial, (throughoutFields_iff _).mpr (fun field mem => ?_)⟩
  rcases List.mem_append.mp mem with own | given_
  · exact (throughoutFields_iff _).mp first.2 field own
  · exact (throughoutFields_iff _).mp detail.proper.2 field given_

omit [FloatText] in
theorem distinct_eventOf (seq : Nat) (kind : String) (detail : Detail) (ts : Double) :
    Distinct (eventOf seq kind detail ts) := by
  have first : Distinct (.obj [("ts", .float ts.value), ("seq", .int seq), ("kind", .str kind)]) :=
    ⟨(by decide : ["ts", "seq", "kind"].Nodup), trivial, trivial, trivial, trivial⟩
  refine ⟨?_, (throughoutFields_iff _).mpr (fun field mem => ?_)⟩
  · rw [Assoc.keys, List.map_append]
    apply List.Nodup.append first.1 detail.distinct.1
    intro key own given_
    exact detail.own key given_ own
  · rcases List.mem_append.mp mem with own | given_
    · exact (throughoutFields_iff _).mp first.2 field own
    · exact (throughoutFields_iff _).mp detail.distinct.2 field given_

theorem rowOf_event (seq : Nat) (kind : String) (detail : Detail) (ts : Double) :
    rowOf (print plain 0 (eventOf seq kind detail ts)) = some (eventOf seq kind detail ts, (seq : Int)) := by
  have same : strip (print plain 0 (eventOf seq kind detail ts)) =
    print plain 0 (eventOf seq kind detail ts) := strip_print_obj plain _
  have solid : print plain 0 (eventOf seq kind detail ts) ≠ [] := by
    rw [eventOf, List.cons_append, print]
    exact List.cons_ne_nil _ _
  rw [rowOf, same, if_neg solid, loads_print plain (proper_eventOf seq kind detail ts),
    rebuild_gather_of_distinct _ (distinct_eventOf seq kind detail ts)]
  rfl

def fileOf (rows : List (Json × Int)) : List Char :=
  rows.flatMap (fun row => print plain 0 row.1 ++ ['\n'])

theorem fileOf_cons (row : Json × Int) (rest : List (Json × Int)) :
    fileOf (row :: rest) = print plain 0 row.1 ++ '\n' :: fileOf rest := by
  rw [fileOf, List.flatMap_cons, List.append_assoc]
  rfl

omit [FloatText] in
theorem textLines_printable {text : List Char} (printable : Printable text) : textLines text = [text] := by
  have ended := textLines_line printable []
  rw [textLines_snoc] at ended
  exact (List.append_inj' ended rfl).1

variable {rows : List (Json × Int)} {state : State}

theorem rows_of_fileOf (readable : ∀ row ∈ rows, rowOf (print plain 0 row.1) = some row)
    (part : Part) : (textLines (fileOf rows ++ part.text)).filterMap rowOf = rows := by
  induction rows with
  | nil =>
      have line : textLines (fileOf [] ++ part.text) = [part.text] := textLines_printable part.printable
      rw [line, List.filterMap_cons, part.torn]
      rfl
  | cons row rest ih =>
      rw [fileOf_cons, List.append_assoc, List.cons_append, textLines_line (printable_print oneLine_plain 0 _),
        List.filterMap_cons, readable row (.head _)]
      exact congrArg (row :: ·) (ih (fun later mem => readable later (.tail _ mem)))

omit [FloatText] in
theorem lastSeq_snoc (rows : List (Json × Int)) (row : Json × Int) :
    lastSeq (rows ++ [row]) = max (lastSeq rows) row.2 := by
  rw [lastSeq, List.map_append, List.foldl_append]
  rfl

omit [FloatText] in
theorem le_lastSeq {row : Json × Int} (mem : row ∈ rows) :
    row.2 ≤ lastSeq rows := by
  induction rows using List.reverseRecOn with
  | nil => exact absurd mem List.not_mem_nil
  | append_singleton rows last ih =>
      rw [lastSeq_snoc]
      rcases List.mem_append.mp mem with before | here
      · exact Int.le_trans (ih before) (Int.le_max_left _ _)
      · cases List.mem_singleton.mp here
        exact Int.le_max_right _ _

omit [FloatText] in
theorem lastSeq_lt {bound : Int} (positive : 0 < bound) (below : ∀ row ∈ rows, row.2 < bound) :
    lastSeq rows < bound := by
  induction rows using List.reverseRecOn with
  | nil => exact positive
  | append_singleton rows last ih =>
      rw [lastSeq_snoc]
      exact Int.max_lt.mpr ⟨ih (fun row mem => below row (List.mem_append_left _ mem)),
        below last (List.mem_append_right _ (.head _))⟩

/-! ## What every step keeps -/

/-- The file holds the events of this boot, numbered upwards. -/
structure Recorded (state : State) : Prop where
  readable : ∀ row ∈ state.live, rowOf (print plain 0 row.1) = some row
  file : state.stream.file.getD [] = fileOf state.live
  ascending : state.live.Pairwise (fun row later => row.2 < later.2)
  positive : ∀ row ∈ state.live, 0 < row.2
  bounded : ∀ row ∈ state.live, row.2 ≤ state.stream.seq

theorem recorded_start : Recorded start where
  readable := List.forall_mem_nil _
  file := rfl
  ascending := List.Pairwise.nil
  positive := List.forall_mem_nil _
  bounded := List.forall_mem_nil _

theorem emit_cases (state : State) (kind : String) (detail : Detail) (ts : Double) (lands : Bool) :
    ((state.stream.emit kind detail ts lands).seq = state.stream.seq + 1 ∧
        (state.stream.emit kind detail ts lands).file.getD [] = state.stream.file.getD [] ++
          (print plain 0 (eventOf (state.stream.seq + 1) kind detail ts) ++ ['\n']) ∧
        landed state kind detail ts lands =
          state.live ++ [(eventOf (state.stream.seq + 1) kind detail ts, ((state.stream.seq + 1 : Nat) : Int))]) ∨
      ((state.stream.emit kind detail ts lands).file = state.stream.file ∧
        state.stream.seq ≤ (state.stream.emit kind detail ts lands).seq ∧
        landed state kind detail ts lands = state.live) := by
  rw [Stream.emit, landed]
  cases armed : state.stream.armed with
  | false => exact Or.inr ⟨rfl, Nat.le_refl _, rfl⟩
  | true =>
      cases lands with
      | false => exact Or.inr ⟨rfl, Nat.le_succ _, rfl⟩
      | true => exact Or.inl ⟨rfl, rfl, rfl⟩

theorem Recorded.emit (recorded : Recorded state) (kind : String) (detail : Detail) (ts : Double)
    (lands : Bool) : Recorded (next (.emit kind detail ts lands) state) := by
  rcases emit_cases state kind detail ts lands with ⟨number, text, live⟩ | ⟨file, numbered, live⟩
  · have rows : (RuntimeEvents.next (.emit kind detail ts lands) state).live = _ := live
    have seq : (RuntimeEvents.next (.emit kind detail ts lands) state).stream.seq = _ := number
    have stored : (RuntimeEvents.next (.emit kind detail ts lands) state).stream.file.getD [] = _ := text
    have below : ∀ row ∈ state.live, row.2 < ((state.stream.seq + 1 : Nat) : Int) := by
      intro row mem
      have bounded := recorded.bounded row mem
      omega
    refine ⟨?_, ?_, ?_, ?_, ?_⟩
    · rw [rows]
      intro row mem
      rcases List.mem_append.mp mem with before | here
      · exact recorded.readable row before
      · cases List.mem_singleton.mp here
        exact rowOf_event _ kind detail ts
    · rw [rows, stored, recorded.file, fileOf, fileOf, List.flatMap_append, List.flatMap_cons,
        List.flatMap_nil, List.append_nil]
    · rw [rows, List.pairwise_append]
      refine ⟨recorded.ascending, List.pairwise_singleton _ _, ?_⟩
      intro row mem later here
      cases List.mem_singleton.mp here
      exact below row mem
    · rw [rows]
      intro row mem
      rcases List.mem_append.mp mem with before | here
      · exact recorded.positive row before
      · cases List.mem_singleton.mp here
        exact Int.natCast_pos.mpr (Nat.succ_pos _)
    · rw [rows, seq]
      intro row mem
      rcases List.mem_append.mp mem with before | here
      · exact Int.le_of_lt (below row before)
      · cases List.mem_singleton.mp here
        exact Int.le_refl _
  · have rows : (RuntimeEvents.next (.emit kind detail ts lands) state).live = _ := live
    refine ⟨?_, ?_, ?_, ?_, ?_⟩
    · rw [rows]
      exact recorded.readable
    · rw [rows, ← recorded.file]
      exact congrArg (Option.getD · []) file
    · rw [rows]
      exact recorded.ascending
    · rw [rows]
      exact recorded.positive
    · rw [rows]
      intro row mem
      exact Int.le_trans (recorded.bounded row mem) (Int.ofNat_le.mpr numbered)

theorem Recorded.next (recorded : Recorded state) (event : Event) :
    Recorded (next event state) := by
  cases event with
  | emit kind detail ts lands => exact recorded.emit kind detail ts lands
  | boot =>
      exact ⟨List.forall_mem_nil _, rfl, List.Pairwise.nil,
        List.forall_mem_nil _,
        List.forall_mem_nil _⟩
  | poll part => exact ⟨recorded.readable, recorded.file, recorded.ascending, recorded.positive,
      recorded.bounded⟩

theorem Recorded.read (recorded : Recorded state) (part : Part) (afterSeq : Int) :
    readRuntimeEvents (state.stream.file.map (· ++ part.text)) afterSeq =
      ⟨(state.live.filter (fun row => decide (afterSeq < row.2))).map Prod.fst, lastSeq state.live⟩ := by
  have file := recorded.file
  cases text : state.stream.file with
  | none =>
      rw [text, Option.getD_none] at file
      have empty : state.live = [] := by
        cases live : state.live with
        | nil => rfl
        | cons row rest =>
            rw [live, fileOf_cons] at file
            exact absurd file.symm (List.append_ne_nil_of_right_ne_nil _ (List.cons_ne_nil _ _))
      rw [empty]
      rfl
  | some text_ =>
      rw [text, Option.getD_some] at file
      rw [Option.map_some, readRuntimeEvents, file, rows_of_fileOf recorded.readable]

theorem Recorded.polled (recorded : Recorded state) (part : Part) :
    RuntimeEvents.next (.poll part) state =
      if lastSeq state.live < state.poller.cursor then
        { state with poller := ⟨0, []⟩, booted := false, completed := false }
      else
        { state with
          poller := ⟨lastSeq state.live, state.poller.held ++
            (state.live.filter (fun row => decide (state.poller.cursor < row.2))).map Prod.fst⟩
          booted := false
          completed := true } := by
  rw [RuntimeEvents.next, Poller.poll, recorded.read]
  by_cases behind : lastSeq state.live < state.poller.cursor
  · rw [if_pos behind, if_pos behind]
  · rw [if_neg behind, if_neg behind]

/-- The poller has seen the first events of this boot, unless there was a boot since its last poll. -/
structure Follows (state : State) : Prop where
  recorded : Recorded state
  seen : state.booted = false → ∃ seen later, state.live = seen ++ later ∧
    state.poller.held = seen.map Prod.fst ∧ state.poller.cursor = lastSeq seen
  nothing : state.poller.cursor = 0 → state.poller.held = []
  exact : Exact state

omit [FloatText] in
theorem newer_of_seen {seen later : List (Json × Int)}
    (ascending : (seen ++ later).Pairwise (fun row later => row.2 < later.2))
    (positive : ∀ row ∈ seen ++ later, 0 < row.2) :
    (seen ++ later).filter (fun row => decide (lastSeq seen < row.2)) = later := by
  rw [List.filter_append]
  have old : seen.filter (fun row => decide (lastSeq seen < row.2)) = [] := by
    apply List.filter_eq_nil_iff.mpr
    intro row mem newer
    exact Int.not_lt.mpr (le_lastSeq mem) (of_decide_eq_true newer)
  have fresh : later.filter (fun row => decide (lastSeq seen < row.2)) = later := by
    apply List.filter_eq_self.mpr
    intro row mem
    apply decide_eq_true
    apply lastSeq_lt (positive row (List.mem_append_right _ mem))
    intro before first
    exact (List.pairwise_append.mp ascending).2.2 before first row mem
  rw [old, fresh, List.nil_append]

/-- A poll that can tell whether there was a boot leaves the poller with the events of this boot. -/
theorem Follows.poll (follows : Follows state) (part : Part) (told : Told (.poll part) state) :
    Follows (next (.poll part) state) := by
  have recorded := follows.recorded.next (.poll part)
  rw [follows.recorded.polled] at recorded ⊢
  by_cases behind : lastSeq state.live < state.poller.cursor
  · rw [if_pos behind] at recorded ⊢
    exact ⟨recorded, fun _ => ⟨[], state.live, rfl, rfl, rfl⟩, fun _ => rfl,
      fun never => Bool.noConfusion never⟩
  · rw [if_neg behind] at recorded ⊢
    have whole : state.poller.held ++
        (state.live.filter (fun row => decide (state.poller.cursor < row.2))).map Prod.fst =
          state.live.map Prod.fst := by
      rcases told with same | reset | empty
      · rcases follows.seen same with ⟨seen, later, live, held, cursor⟩
        have ascending := follows.recorded.ascending
        have positive := follows.recorded.positive
        rw [live] at ascending positive
        rw [cursor, held, live, newer_of_seen ascending positive, ← List.map_append]
      · exact absurd reset behind
      · have all : state.live.filter (fun row => decide (state.poller.cursor < row.2)) = state.live := by
          apply List.filter_eq_self.mpr
          intro row mem
          rw [empty]
          exact decide_eq_true (follows.recorded.positive row mem)
        rw [follows.nothing empty, all, List.nil_append]
    rw [whole] at recorded ⊢
    refine ⟨recorded, fun _ => ⟨state.live, [], (List.append_nil _).symm, rfl, rfl⟩, fun zero => ?_,
      fun _ => rfl⟩
    have none_ : state.live = [] := by
      cases live : state.live with
      | nil => rfl
      | cons row rest =>
          have here : row ∈ state.live := by
            rw [live]
            exact .head _
          have positive := follows.recorded.positive row here
          have most := le_lastSeq here
          have zero_ : lastSeq state.live = 0 := zero
          omega
    change state.live.map Prod.fst = []
    rw [none_]
    rfl

theorem Follows.next (follows : Follows state) {event : Event} (told : Told event state) :
    Follows (next event state) := by
  cases event with
  | poll part => exact follows.poll part told
  | boot =>
      refine ⟨follows.recorded.next .boot, fun never => ?_, follows.nothing, fun never => ?_⟩
      · cases never
      · cases never
  | emit kind detail ts lands =>
      refine ⟨follows.recorded.emit kind detail ts lands, fun same => ?_, follows.nothing,
        fun never => ?_⟩
      · rcases follows.seen same with ⟨seen, later, live, held, cursor⟩
        rcases emit_cases state kind detail ts lands with ⟨_, _, grown⟩ | ⟨_, _, same_⟩
        · refine ⟨seen, later ++ [(eventOf (state.stream.seq + 1) kind detail ts,
            ((state.stream.seq + 1 : Nat) : Int))], ?_, held, cursor⟩
          have rows : (RuntimeEvents.next (.emit kind detail ts lands) state).live = _ := grown
          rw [rows, live, List.append_assoc]
        · refine ⟨seen, later, ?_, held, cursor⟩
          have rows : (RuntimeEvents.next (.emit kind detail ts lands) state).live = _ := same_
          rw [rows, live]
      · cases never

theorem follows_start : Follows start where
  recorded := recorded_start
  seen := fun _ => ⟨[], [], rfl, rfl, rfl⟩
  nothing := fun _ => rfl
  exact := fun never => Bool.noConfusion never

/-- In every run whose polls can tell whether there was a boot, a poller that has completed a poll
holds the events of this boot that were in the file. -/
theorem cursor_loses_nothing {events : List Event} {last : State}
    (told : Schedule.Admitted step Told start events)
    (ran : Schedule.run step start events = some last) : Exact last := by
  have follows : Follows last := by
    refine Schedule.invariant_of_admitted ?_ follows_start told ran
    intro event state later follows tells stepped
    cases stepped
    exact follows.next tells
  exact follows.exact

end

section

local instance feedFloats : FloatText := exactDecimals

def noDetail : Detail where
  fields := []
  proper := proper_empty
  distinct := ⟨List.nodup_nil, trivial⟩
  own := List.forall_mem_nil _

def quiet : Part where
  text := []
  printable := List.forall_mem_nil _
  torn := rfl

def emitted (kind : String) : Event := .emit kind noDetail (Double.nearest 0) true

/-- Two polls in one boot. -/
def polledTwice : List Event :=
  [.boot, emitted "boot", .poll quiet, emitted "task_claimed", .poll quiet]

theorem cursor_loses_nothing_twice :
    ∃ last, Schedule.run step start polledTwice = some last ∧ Exact last := by
  refine ⟨_, rfl, @cursor_loses_nothing _ polledTwice _ ?_ rfl⟩
  refine ⟨trivial, fun _ booted => ?_⟩
  cases booted
  refine ⟨trivial, fun _ first => ?_⟩
  cases first
  refine ⟨Or.inr (Or.inr rfl), fun _ polled => ?_⟩
  cases polled
  refine ⟨trivial, fun _ second => ?_⟩
  cases second
  exact ⟨Or.inl rfl, fun _ _ => trivial⟩

/-- A poll in the first boot and one in the second, with one event before each. -/
def bootBetween : List Event :=
  [.boot, emitted "boot", .poll quiet, .boot, emitted "task_claimed", .poll quiet]

/-- The new feed has grown to the cursor before the next poll: the poller keeps the event of the boot
before, and has none of this boot. -/
theorem boot_unseen :
    ∃ last, Schedule.run step start bootBetween = some last ∧ ¬ Exact last := by
  have first := (recorded_start.next .boot).next (emitted "boot")
  have second := ((first.next (.poll quiet)).next .boot).next (emitted "task_claimed")
  refine ⟨_, rfl, fun exact_ => ?_⟩
  rw [second.polled, first.polled] at exact_
  have held := exact_ rfl
  have kinds := congrArg (fun rows => rows.map (fun row : Json => row.get? "kind")) held
  have same : [some (Json.str "boot")] = [some (Json.str "task_claimed")] := kinds
  have texts := Json.str.inj (Option.some.inj (List.cons.inj same).1)
  exact absurd texts (by decide)

end

end RuntimeEvents
end Board
end PhysicalHarness
