import PhysicalHarness.Lib.Schedule
import PhysicalHarness.Python.Value

namespace PhysicalHarness
namespace Harness
namespace SegmentRpc

open Python

/-!
# Calls to a segment server

The client numbers its calls and reads the lines of the server until one has the number of the call
as its id.  The server writes notifications and requests of its own in between, and the ids of its
requests are its own as well; the client does not look at anything but the id.
-/

/-- The answer to a request of the client. -/
inductive Reply where
  | result (value : Json)
  | error (value : Json)

inductive Origin where
  | notification
  | request
  | response (number : Nat) (reply : Reply)

/-- The members of a message by its kind: a notification has no id, a request of the server neither a
result nor an error, and a response the id of the request with one of the two. -/
def Shaped (fields : List (String × Json)) : Origin → Prop
  | .notification => Assoc.get? fields "id" = none
  | .request => Assoc.get? fields "result" = none ∧ Assoc.get? fields "error" = none
  | .response number (.result value) => Assoc.get? fields "id" = some (.int number) ∧
      Assoc.get? fields "result" = some value ∧ Assoc.get? fields "error" = none
  | .response number (.error value) => Assoc.get? fields "id" = some (.int number) ∧
      Assoc.get? fields "error" = some value ∧ Assoc.get? fields "result" = none

structure Message where
  origin : Origin
  fields : List (String × Json)
  shaped : Shaped fields origin

inductive Outcome where
  | result (value : Json)
  /-- `RuntimeError(f"mcp {method}: {msg['error']}")` -/
  | runtimeError (method : String) (error : Json)
  /-- of `msg["result"]` -/
  | keyError

/-- `msg.get("id") == self.n`. -/
def addressed (n : Nat) (fields : List (String × Json)) : Bool :=
  ((Assoc.get? fields "id").getD .null).eq (.int n)

/-- The last two statements of `call`. -/
def outcomeOf (method : String) (fields : List (String × Json)) : Outcome :=
  match Assoc.get? fields "error" with
  | some error => .runtimeError method error
  | none =>
      match Assoc.get? fields "result" with
      | some result => .result result
      | none => .keyError

/-- What a reply means to the call it answers. -/
def Reply.outcome (method : String) : Reply → Outcome
  | .result value => .result value
  | .error value => .runtimeError method value

/-! ## The connection -/

structure Ended where
  number : Nat
  method : String
  outcome : Outcome

structure State where
  /-- `self.n` -/
  n : Nat
  /-- the method of the call that is reading -/
  calling : Option String
  /-- the requests the server has not answered -/
  awaiting : List Nat
  /-- `self.lines` -/
  lines : List Message
  replies : List (Nat × Reply)
  ended : List Ended

def State.start : State := ⟨0, none, [], [], [], []⟩

inductive Action where
  | call (method : String)
  | write (message : Message)
  | read

/-- `self.n += 1` and `_send`. -/
def State.call (state : State) (method : String) : State :=
  { state with
    n := state.n + 1
    calling := some method
    awaiting := state.awaiting ++ [state.n + 1] }

def State.tell (state : State) (message : Message) : State :=
  { state with lines := state.lines ++ [message] }

/-- The server answers a request. -/
def State.answer (state : State) (message : Message) (number : Nat) (reply : Reply) : State :=
  { state with
    awaiting := state.awaiting.erase number
    lines := state.lines ++ [message]
    replies := state.replies ++ [(number, reply)] }

def readLine (state : State) (method : String) (message : Message) (rest : List Message) : State :=
  if addressed state.n message.fields then
    { state with
      lines := rest
      calling := none
      ended := state.ended ++ [⟨state.n, method, outcomeOf method message.fields⟩] }
  else { state with lines := rest }

/-- The server writes what it likes, but answers a request once. -/
def writeLine (state : State) (message : Message) : Origin → Option State
  | .response number reply =>
      if number ∈ state.awaiting then some (state.answer message number reply) else none
  | _ => some (state.tell message)

def step : Action → State → Option State
  | .call method, state =>
      match state.calling with
      | some _ => none
      | none => some (state.call method)
  | .write message, state => writeLine state message message.origin
  | .read, state =>
      match state.calling, state.lines with
      | some method, message :: rest => some (readLine state method message rest)
      | _, _ => none

abbrev run : State → List Action → Option State := Schedule.run step

/-- Every call that ended did so by the reply to its own request, and a call that is still reading has
a reply ahead or still to come. -/
structure Delivered (state : State) : Prop where
  own : ∀ entry ∈ state.ended, ∃ reply, (entry.number, reply) ∈ state.replies ∧
    entry.outcome = reply.outcome entry.method
  ahead : ∀ method, state.calling = some method → state.n ∈ state.awaiting ∨
    ∃ message ∈ state.lines, ∃ reply, message.origin = .response state.n reply

/-- The line that is read is no request of the server under the number of the call. -/
def Clear : Action → State → Prop
  | .read, state => ∀ message rest, state.lines = message :: rest → message.origin = .request →
      addressed state.n message.fields = false
  | _, _ => True

variable {state next : State} {fields : List (String × Json)} {action : Action} {message : Message}
  {rest : List Message}

theorem addressed_notification {n : Nat} (shaped : Shaped fields .notification) :
    addressed n fields = false := by
  have absent : Assoc.get? fields "id" = none := shaped
  rw [addressed, absent]
  rfl

theorem addressed_response_iff {n number : Nat} {reply : Reply}
    (shaped : Shaped fields (.response number reply)) : addressed n fields = true ↔ number = n := by
  have found : Assoc.get? fields "id" = some (.int number) := by
    cases reply with
    | result value => exact shaped.1
    | error value => exact shaped.1
  rw [addressed, found, Option.getD_some]
  simp [Json.eq, Json.sameScalar, Json.toRat?]

theorem outcomeOf_response {number : Nat} {reply : Reply}
    (shaped : Shaped fields (.response number reply)) (method : String) :
    outcomeOf method fields = reply.outcome method := by
  cases reply with
  | result value =>
      have found : Assoc.get? fields "result" = some value := shaped.2.1
      have clean : Assoc.get? fields "error" = none := shaped.2.2
      rw [outcomeOf, clean, found]
      rfl
  | error value =>
      have found : Assoc.get? fields "error" = some value := shaped.2.1
      rw [outcomeOf, found]
      rfl

theorem outcomeOf_request (shaped : Shaped fields .request) (method : String) :
    outcomeOf method fields = .keyError := by
  have none_ : Assoc.get? fields "result" = none := shaped.1
  have clean : Assoc.get? fields "error" = none := shaped.2
  rw [outcomeOf, clean, none_]

theorem outcome_ne_keyError (method : String) (reply : Reply) : reply.outcome method ≠ .keyError := by
  cases reply with
  | result value => exact Outcome.noConfusion
  | error value => exact Outcome.noConfusion

/-! ## Steps -/

inductive Stepped (state : State) : Action → State → Prop
  | call (method : String) (idle : state.calling = none) :
      Stepped state (.call method) (state.call method)
  | tell (message : Message) (own : ∀ number reply, message.origin ≠ .response number reply) :
      Stepped state (.write message) (state.tell message)
  | answer (message : Message) (number : Nat) (reply : Reply)
      (kind : message.origin = .response number reply) (open_ : number ∈ state.awaiting) :
      Stepped state (.write message) (state.answer message number reply)
  | read (method : String) (message : Message) (rest : List Message)
      (busy : state.calling = some method) (first : state.lines = message :: rest) :
      Stepped state .read (readLine state method message rest)

theorem stepped_of_step (stepped : step action state = some next) :
    Stepped state action next := by
  cases action with
  | call method =>
      rw [step] at stepped
      cases idle : state.calling with
      | some other =>
          rw [idle] at stepped
          cases stepped
      | none =>
          rw [idle] at stepped
          cases stepped
          exact .call method idle
  | write message =>
      rw [step] at stepped
      cases kind : message.origin with
      | response number reply =>
          rw [kind, writeLine] at stepped
          split_ifs at stepped with open_
          cases stepped
          exact .answer message number reply kind open_
      | notification =>
          rw [kind] at stepped
          cases stepped
          exact .tell message (by rw [kind]; exact fun _ _ => Origin.noConfusion)
      | request =>
          rw [kind] at stepped
          cases stepped
          exact .tell message (by rw [kind]; exact fun _ _ => Origin.noConfusion)
  | read =>
      cases busy : state.calling with
      | none => simp [step, busy] at stepped
      | some method =>
          cases first : state.lines with
          | nil => simp [step, busy, first] at stepped
          | cons message rest =>
              rw [step, busy, first] at stepped
              cases stepped
              exact .read method message rest busy first

/-- The server answers every request once, and what is in the queue as a response is one. -/
structure Sound (state : State) : Prop where
  apart : (state.awaiting ++ state.replies.map Prod.fst).Nodup
  numbered : ∀ number ∈ state.awaiting ++ state.replies.map Prod.fst, number ≤ state.n
  faithful : ∀ message ∈ state.lines, ∀ number reply, message.origin = .response number reply →
    (number, reply) ∈ state.replies

theorem sound_start : Sound State.start where
  apart := List.nodup_nil
  numbered := by
    intro number mem
    cases mem
  faithful := by
    intro message mem
    cases mem

theorem sound_of_fields (sound : Sound state) (counted : next.n = state.n)
    (waiting : next.awaiting = state.awaiting) (told : next.replies = state.replies)
    (faithful : ∀ message ∈ next.lines, ∀ number reply, message.origin = .response number reply →
      (number, reply) ∈ state.replies) : Sound next where
  apart := by
    rw [waiting, told]
    exact sound.apart
  numbered := by
    rw [waiting, told, counted]
    exact sound.numbered
  faithful := by
    rw [told]
    exact faithful

theorem sound_readLine (sound : Sound state) (method : String)
    (first : state.lines = message :: rest) :
    Sound (readLine state method message rest) := by
  have faithful : ∀ other ∈ rest, ∀ number reply, other.origin = .response number reply →
      (number, reply) ∈ state.replies := by
    intro other mem
    apply sound.faithful
    rw [first]
    exact .tail message mem
  rw [readLine]
  split_ifs
  · exact sound_of_fields sound rfl rfl rfl faithful
  · exact sound_of_fields sound rfl rfl rfl faithful

theorem sound_step (sound : Sound state) (stepped : Stepped state action next) : Sound next := by
  cases stepped with
  | call method idle =>
      have perm : (state.awaiting ++ [state.n + 1] ++ state.replies.map Prod.fst).Perm
          ((state.n + 1) :: (state.awaiting ++ state.replies.map Prod.fst)) := by
        rw [List.append_assoc]
        exact List.perm_middle
      have fresh : state.n + 1 ∉ state.awaiting ++ state.replies.map Prod.fst := by
        intro mem
        have bound := sound.numbered _ mem
        omega
      constructor
      · exact perm.nodup_iff.mpr (List.nodup_cons.mpr ⟨fresh, sound.apart⟩)
      · intro number mem
        rcases List.mem_cons.mp (perm.mem_iff.mp mem) with same | old
        · exact le_of_eq same
        · exact (sound.numbered number old).trans (Nat.le_succ state.n)
      · exact sound.faithful
  | tell message own =>
      refine @sound_of_fields state (state.tell message) sound rfl rfl rfl ?_
      intro other mem number reply kind
      rcases List.mem_append.mp mem with old | here
      · exact sound.faithful other old number reply kind
      · rw [List.mem_singleton] at here
        subst here
        exact absurd kind (own number reply)
  | answer message number reply kind open_ =>
      have perm : (state.awaiting.erase number ++ (state.replies ++ [(number, reply)]).map Prod.fst).Perm
          (state.awaiting ++ state.replies.map Prod.fst) := by
        rw [List.map_append, ← List.append_assoc]
        refine List.perm_append_singleton number _ |>.trans ?_
        rw [← List.cons_append]
        exact (List.perm_cons_erase open_).symm.append_right _
      constructor
      · exact perm.nodup_iff.mpr sound.apart
      · intro other mem
        exact sound.numbered other (perm.mem_iff.mp mem)
      · intro other mem otherNumber otherReply otherKind
        apply List.mem_append.mpr
        rcases List.mem_append.mp mem with old | here
        · exact Or.inl (sound.faithful other old otherNumber otherReply otherKind)
        · rw [List.mem_singleton] at here
          subst here
          rw [kind] at otherKind
          cases otherKind
          exact Or.inr (.head _)
  | read method message rest busy first => exact sound_readLine sound method first

theorem delivered_start : Delivered State.start where
  own := by
    intro entry mem
    cases mem
  ahead := by
    intro method busy
    cases busy

theorem response_of_addressed (clear : Clear .read state) (first : state.lines = message :: rest)
    (taken : addressed state.n message.fields = true) :
    ∃ reply, message.origin = .response state.n reply := by
  have shaped := message.shaped
  cases kind : message.origin with
  | notification =>
      rw [kind] at shaped
      rw [addressed_notification shaped] at taken
      cases taken
  | request =>
      rw [clear message rest first kind] at taken
      cases taken
  | response number reply =>
      rw [kind] at shaped
      have same := (addressed_response_iff shaped).mp taken
      exact ⟨reply, by rw [same]⟩

theorem outcome_of_response {number : Nat} {reply : Reply}
    (kind : message.origin = .response number reply) (method : String) :
    outcomeOf method message.fields = reply.outcome method := by
  have shaped := message.shaped
  rw [kind] at shaped
  exact outcomeOf_response shaped method

theorem delivered_readLine (sound : Sound state) (delivered : Delivered state) {method : String}
    (busy : state.calling = some method) (first : state.lines = message :: rest)
    (clear : Clear .read state) :
    Delivered (readLine state method message rest) := by
  rw [readLine]
  split_ifs with taken
  · rcases response_of_addressed clear first taken with ⟨reply, kind⟩
    constructor
    · intro entry mem
      rcases List.mem_append.mp mem with old | here
      · exact delivered.own entry old
      · rw [List.mem_singleton] at here
        subst here
        have inside : message ∈ state.lines := by
          rw [first]
          exact .head _
        exact ⟨reply, sound.faithful message inside state.n reply kind, outcome_of_response kind method⟩
    · intro other reading
      cases reading
  · constructor
    · exact delivered.own
    · intro other reading
      rcases delivered.ahead method busy with still | ⟨ahead, inside, reply, kind⟩
      · exact Or.inl still
      · refine Or.inr ⟨ahead, ?_, reply, kind⟩
        rw [first, List.mem_cons] at inside
        apply inside.resolve_left
        intro same
        have shaped := ahead.shaped
        rw [kind] at shaped
        rw [← same] at taken
        exact taken ((addressed_response_iff shaped).mpr rfl)

theorem delivered_step (sound : Sound state) (delivered : Delivered state)
    (clear : Clear action state) (stepped : Stepped state action next) :
    Delivered next := by
  cases stepped with
  | call method idle =>
      constructor
      · exact delivered.own
      · intro other reading
        exact Or.inl (List.mem_append_right _ (.head _))
  | tell message own =>
      constructor
      · exact delivered.own
      · intro method busy
        rcases delivered.ahead method busy with still | ⟨ahead, inside, found⟩
        · exact Or.inl still
        · exact Or.inr ⟨ahead, List.mem_append_left _ inside, found⟩
  | answer message number reply kind open_ =>
      constructor
      · intro entry mem
        rcases delivered.own entry mem with ⟨given, inside, same⟩
        exact ⟨given, List.mem_append_left _ inside, same⟩
      · intro method busy
        by_cases same : state.n = number
        · exact Or.inr ⟨message, List.mem_append_right _ List.mem_cons_self, reply, by rw [kind, ← same]; rfl⟩
        · rcases delivered.ahead method busy with still | ⟨ahead, inside, found⟩
          · exact Or.inl ((List.mem_erase_of_ne same).mpr still)
          · exact Or.inr ⟨ahead, List.mem_append_left _ inside, found⟩
  | read method message rest busy first => exact delivered_readLine sound delivered busy first clear

theorem ended_subset_step (stepped : Stepped state action next) :
    state.ended ⊆ next.ended := by
  cases stepped with
  | read method message rest busy first =>
      rw [readLine]
      split_ifs
      · exact List.subset_append_left _ _
      · exact List.Subset.refl _
  | _ => exact List.Subset.refl _

theorem ended_subset_run {last : State} {actions : List Action}
    (ran : run state actions = some last) : state.ended ⊆ last.ended := by
  induction actions generalizing state with
  | nil =>
      cases ran
      exact List.Subset.refl _
  | cons action rest ih =>
      rcases Option.bind_eq_some_iff.mp ran with ⟨next, here, later⟩
      exact List.Subset.trans (ended_subset_step (stepped_of_step here)) (ih later)

theorem clear_of_delivered {last : State} {rest : List Action} (stepped : Stepped state action next)
    (ran : run next rest = some last) (delivered : Delivered last) :
    Clear action state := by
  cases stepped with
  | read method message others busy first =>
      intro other behind same kind
      rw [first] at same
      cases same
      by_contra taken
      rw [Bool.not_eq_false] at taken
      have shaped := message.shaped
      rw [kind] at shaped
      have mem : (⟨state.n, method, .keyError⟩ : Ended) ∈ last.ended := by
        apply ended_subset_run ran
        rw [readLine, if_pos taken, outcomeOf_request shaped]
        exact List.mem_append_right _ (.head _)
      rcases delivered.own _ mem with ⟨reply, _, equal⟩
      exact outcome_ne_keyError method reply equal.symm
  | _ => exact trivial

/-- In every run each call ends by its own reply, and none is lost, exactly where no call reads a request
of the server under its own number. -/
theorem calls_get_their_replies_iff (actions : List Action) (last : State)
    (ran : run State.start actions = some last) :
    Delivered last ↔ Schedule.Admitted step Clear State.start actions := by
  constructor
  · intro delivered
    generalize State.start = state at ran
    induction actions generalizing state with
    | nil => exact trivial
    | cons action rest ih =>
        rcases Option.bind_eq_some_iff.mp ran with ⟨next, here, later⟩
        refine ⟨clear_of_delivered (stepped_of_step here) later delivered, ?_⟩
        intro other stepped
        rw [here] at stepped
        cases stepped
        exact ih next later
  · intro admitted
    have kept : ∀ action state next, Sound state ∧ Delivered state → Clear action state →
        step action state = some next → Sound next ∧ Delivered next := by
      intro action state next holds clear here
      have stepped := stepped_of_step here
      exact ⟨sound_step holds.1 stepped, delivered_step holds.1 holds.2 clear stepped⟩
    exact (Schedule.invariant_of_admitted kept ⟨sound_start, delivered_start⟩ admitted ran).2

def logLine : Message where
  origin := .notification
  fields := [("jsonrpc", .str "2.0"), ("method", .str "notifications/message")]
  shaped := rfl

def ping (id : Nat) : Message where
  origin := .request
  fields := [("jsonrpc", .str "2.0"), ("id", .int id), ("method", .str "ping")]
  shaped := ⟨rfl, rfl⟩

def welcome : Message where
  origin := .response 1 (.result (.obj []))
  fields := [("jsonrpc", .str "2.0"), ("id", .int 1), ("result", .obj [])]
  shaped := ⟨rfl, rfl, rfl⟩

/-- The server logs, pings and answers. -/
def greeting (id : Nat) : List Action :=
  [.call "initialize", .write logLine, .write (ping id), .write welcome, .read, .read]

theorem calls_get_their_replies_greeting :
    ∃ last, run State.start (greeting 2 ++ [.read]) = some last ∧ Delivered last := by
  refine ⟨_, rfl, ?_⟩
  refine (calls_get_their_replies_iff (greeting 2 ++ [.read]) _ rfl).mpr ?_
  have reads : ∀ state : State, ∀ message rest, state.lines = message :: rest →
      (message.origin = .request → addressed state.n message.fields = false) → Clear .read state := by
    intro state message rest first clear other behind same kind
    rw [first] at same
    cases same
    exact clear kind
  refine ⟨trivial, fun _ first => ⟨trivial, fun _ second => ⟨trivial, fun _ third => ⟨trivial, ?_⟩⟩⟩⟩
  cases first
  cases second
  cases third
  intro _ fourth
  cases fourth
  refine ⟨reads _ logLine _ rfl (fun kind => by cases kind), fun _ fifth => ?_⟩
  cases fifth
  refine ⟨reads _ (ping 2) _ rfl (fun _ => by decide), fun _ sixth => ?_⟩
  cases sixth
  exact ⟨reads _ welcome _ rfl (fun kind => by cases kind), fun _ _ => trivial⟩

/-- A ping under the number of the call ends it, though its reply is in the queue. -/
theorem ping_taken_for_reply :
    ∃ last, run State.start (greeting 1) = some last ∧ ¬ Delivered last := by
  refine ⟨_, rfl, ?_⟩
  intro delivered
  rcases delivered.own ⟨1, "initialize", .keyError⟩ List.mem_cons_self with ⟨reply, _, equal⟩
  exact outcome_ne_keyError "initialize" reply equal.symm

/-! ## A server that keeps off the number it has to answer next -/

def Origin.number? : Origin → Option Nat
  | .response number _ => some number
  | _ => none

/-- The requests that the queue answers. -/
def answers (lines : List Message) : List Nat := lines.filterMap (fun message => message.origin.number?)

/-- A request of the server does not have the number of the next request to be answered. -/
def Polite : Action → State → Prop
  | .write message, state => message.origin = .request →
      addressed (state.replies.length + 1) message.fields = false
  | _, _ => True

/-- No request in the queue has the number of the call that reads it. -/
def Spaced (ended : Nat) : List Message → Prop
  | [] => True
  | message :: rest => (message.origin = .request → addressed (ended + 1) message.fields = false) ∧
      Spaced (ended + (answers [message]).length) rest

/-- The calls come one after the other: only the one that is reading is not answered or has its answer
in the queue. -/
structure InTurn (state : State) : Prop where
  counted : state.n = state.ended.length + state.calling.toList.length
  waiting : state.awaiting ++ answers state.lines = state.calling.toList.map (fun _ => state.n)
  told : state.replies.length = state.ended.length + (answers state.lines).length
  spaced : Spaced state.ended.length state.lines

theorem answers_cons (message : Message) (rest : List Message) :
    answers (message :: rest) = answers [message] ++ answers rest :=
  @List.filterMap_append _ _ [message] rest _

theorem answers_snoc (lines : List Message) (message : Message) :
    answers (lines ++ [message]) = answers lines ++ answers [message] := List.filterMap_append

theorem answers_of_own (own : ∀ number reply, message.origin ≠ .response number reply) :
    answers [message] = [] := by
  cases kind : message.origin with
  | response number reply => exact absurd kind (own number reply)
  | _ => simp [answers, kind, Origin.number?]

theorem answers_of_response {number : Nat} {reply : Reply} (kind : message.origin = .response number reply) :
    answers [message] = [number] := by
  simp [answers, kind, Origin.number?]

theorem spaced_snoc {ended : Nat} {lines : List Message} (spaced : Spaced ended lines)
    (last : message.origin = .request → addressed (ended + (answers lines).length + 1) message.fields = false) :
    Spaced ended (lines ++ [message]) := by
  induction lines generalizing ended with
  | nil => exact ⟨last, trivial⟩
  | cons first rest ih =>
      rw [answers_cons, List.length_append, ← Nat.add_assoc] at last
      exact ⟨spaced.1, ih spaced.2 last⟩

namespace InTurn

variable (turn : InTurn state)

include turn

theorem clear {method : String} (busy : state.calling = some method) : Clear .read state := by
  intro message rest first kind
  have spaced := turn.spaced
  rw [first] at spaced
  rw [turn.counted, busy]
  exact spaced.1 kind

theorem readLine {method : String} (busy : state.calling = some method) (first : state.lines = message :: rest) :
    InTurn (readLine state method message rest) := by
  have counted := turn.counted
  have waiting := turn.waiting
  have told := turn.told
  have spaced := turn.spaced
  rw [first, answers_cons] at waiting told
  rw [busy] at waiting
  change _ = [state.n] at waiting
  rw [first] at spaced
  rw [SegmentRpc.readLine]
  split_ifs with taken
  · rcases response_of_addressed (turn.clear busy) first taken with ⟨reply, kind⟩
    have one := answers_of_response kind
    rw [one] at waiting told
    have alone : state.awaiting ++ answers rest = [] := by
      have lengths := congrArg List.length waiting
      rw [← List.length_eq_zero_iff]
      simp only [List.length_append, List.length_singleton] at lengths ⊢
      omega
    refine ⟨?_, alone, ?_, ?_⟩
    · rw [counted, busy, List.length_append]
      rfl
    · rw [told, List.length_append, List.length_append, Nat.add_assoc]
      rfl
    · have later := spaced.2
      rw [one] at later
      rw [List.length_append]
      exact later
  · have none_ : answers [message] = [] := by
      apply answers_of_own
      intro number reply kind
      have own : number ∈ [state.n] :=
        waiting ▸ List.mem_append_right _ (List.mem_append_left _ (answers_of_response kind ▸ .head _))
      have shaped := message.shaped
      rw [kind] at shaped
      exact taken ((addressed_response_iff shaped).mpr (List.mem_singleton.mp own))
    have later := spaced.2
    rw [none_] at waiting told later
    refine ⟨counted, ?_, told, later⟩
    rw [busy]
    exact waiting

theorem step (polite : Polite action state) (stepped : Stepped state action next) : InTurn next := by
  have waiting := turn.waiting
  cases stepped with
  | call method idle =>
      have counted := turn.counted
      rw [idle] at waiting counted
      have parts := List.append_eq_nil_iff.mp waiting
      refine ⟨congrArg (· + 1) counted, ?_, turn.told, turn.spaced⟩
      change state.awaiting ++ [state.n + 1] ++ answers state.lines = [state.n + 1]
      rw [parts.1, parts.2]
      rfl
  | tell message own =>
      have same : answers (state.lines ++ [message]) = answers state.lines := by
        rw [answers_snoc, answers_of_own own, List.append_nil]
      refine ⟨turn.counted, same.symm ▸ waiting, same.symm ▸ turn.told, spaced_snoc turn.spaced ?_⟩
      intro kind
      change addressed (state.ended.length + _ + 1) _ = false
      rw [← turn.told]
      exact polite kind
  | answer message number reply kind open_ =>
      have told : answers (state.lines ++ [message]) = answers state.lines ++ [number] := by
        rw [answers_snoc, answers_of_response kind]
      refine ⟨turn.counted, ?_, ?_, spaced_snoc turn.spaced (fun request => ?_)⟩
      · have whole : state.awaiting.erase number ++ answers state.lines = [] := by
          have lengths := congrArg List.length waiting
          have some_ := List.length_pos_of_mem open_
          have few : state.calling.toList.length ≤ 1 := by cases state.calling <;> simp
          rw [← List.length_eq_zero_iff, List.length_append, List.length_erase_of_mem open_]
          rw [List.length_append, List.length_map] at lengths
          omega
        have own : number ∈ state.calling.toList.map (fun _ => state.n) :=
          waiting ▸ List.mem_append_left _ open_
        change state.awaiting.erase number ++ answers (state.lines ++ [message]) =
          state.calling.toList.map (fun _ => state.n)
        rw [told, ← List.append_assoc, whole]
        cases busy : state.calling with
        | none => simp [busy] at own
        | some method =>
            rw [busy] at own
            exact congrArg (fun number => [number]) (List.mem_singleton.mp own)
      · change (state.replies ++ [_]).length = _ + (answers (state.lines ++ [message])).length
        rw [told, List.length_append, List.length_append, turn.told, Nat.add_assoc]
        rfl
      · rw [kind] at request
        cases request
  | read method message rest busy first => exact turn.readLine busy first

end InTurn

/-- A server that keeps off the number it has to answer next is never misread. -/
theorem delivered_of_polite {actions : List Action} {last : State}
    (polite : Schedule.Admitted step Polite State.start actions)
    (ran : run State.start actions = some last) : Delivered last := by
  have kept : ∀ action state next, (Sound state ∧ Delivered state) ∧ InTurn state → Polite action state →
      step action state = some next → (Sound next ∧ Delivered next) ∧ InTurn next := by
    intro action state next holds fair here
    have stepped := stepped_of_step here
    have clear : Clear action state := by
      cases stepped with
      | read method message rest busy first => exact holds.2.clear busy
      | _ => trivial
    exact ⟨⟨sound_step holds.1.1 stepped, delivered_step holds.1.1 holds.1.2 clear stepped⟩,
      holds.2.step fair stepped⟩
  exact (Schedule.invariant_of_admitted kept
    ⟨⟨sound_start, delivered_start⟩, ⟨rfl, rfl, rfl, trivial⟩⟩ polite ran).1.2

/-- The ping that comes before the first reply has the second number. -/
theorem delivered_of_polite_greeting : ∃ last, run State.start (greeting 2) = some last ∧ Delivered last := by
  refine ⟨_, rfl, @delivered_of_polite (greeting 2) _ ?_ rfl⟩
  refine ⟨trivial, fun _ first => ⟨fun other => ?_, fun _ second => ⟨fun _ => ?_, fun _ _ =>
    ⟨fun other => ?_, fun _ _ => ⟨trivial, fun _ _ => ⟨trivial, fun _ _ => trivial⟩⟩⟩⟩⟩⟩
  · cases other
  · cases first
    cases second
    decide
  · cases other

end SegmentRpc
end Harness
end PhysicalHarness
