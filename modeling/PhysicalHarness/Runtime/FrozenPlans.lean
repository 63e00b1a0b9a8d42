import Mathlib.Logic.Function.Basic
import PhysicalHarness.Lib.Memo
import PhysicalHarness.Rsi.Store
import PhysicalHarness.Runtime.Prompt

namespace PhysicalHarness
namespace Runtime

open Python JsonText Protocol Fallible

/-!
# Frozen plans

`VlmPlanner.plan` asks a model once for each key of a brief and answers every later call
with that key from a table that all planners of the process share.  The prompt depends on
more of the brief than the key does, and on the last plan of the planner that is asked.
-/

/-! ## The table -/

section

variable [FloatText] [Sha256]

/-- `content_id(messages)`. -/
def promptSha (messages : List Message) : String := Rsi.shaJson (.arr (messages.map Message.json))

def stamped (planner : Planner) (endpoint : Endpoint) (messages : List Message)
    (plan : List (String × Json)) : Json :=
  .obj (Assoc.set plan "planner" (.obj [("provider", .str planner.endpointRef),
    ("endpoint", .str endpoint.identity), ("prompt_sha", .str (promptSha messages))]))

end

/-- The table of the process and the last plan of each planner. -/
structure Frozen (ι : Type) where
  table : Dict String (List Char) := Dict.empty
  last : ι → Json := fun _ => .null

/-- A process: its planners, the providers of endpoints and `evidence_interval`.  A provider
takes the parameters by keyword, so that their order plays no part. -/
structure Setting (ι : Type) where
  planner : ι → Planner
  loadProvider : String → Json → Endpoint
  evidenceInterval : Counts → Except PyError (Double × Double)

namespace Setting

variable [Host] [FloatText] [Scanner] [Sha256] {ι : Type} (setting : Setting ι)

/-- `_endpoint()`. -/
def endpoint (i : ι) : Endpoint :=
  setting.loadProvider (setting.planner i).endpointRef (sortKeys (.obj (setting.planner i).endpointParams))

def key (call : ι × PlanBrief) : String := keyOf (setting.planner call.1) call.2

def messages (state : Frozen ι) (call : ι × PlanBrief) : Except PyError (List Message) :=
  (pieces setting.evidenceInterval call.2 (state.last call.1)).map
    (fun pieces => messagesOf (payloadOf call.2 pieces))

def textFor (i : ι) (messages : List Message) : Except Raised (List Char) := do
  let plan ← generate (setting.endpoint i) messages
  return print plain 0 (sortKeys (stamped (setting.planner i) (setting.endpoint i) messages plan))

def freshText (state : Frozen ι) (call : ι × PlanBrief) : Except Raised (List Char) := do
  let messages ← (setting.messages state call).mapError .python
  setting.textFor call.1 messages

/-- `json.loads(frozen)`. -/
def readBack (text : List Char) : Except Raised Json :=
  match loads text with
  | some plan => .ok plan
  | none => .error (.python (.valueError (Scanner.complaint text)))

/-- `plan`: what it returns. -/
def plan (state : Frozen ι) (call : ι × PlanBrief) : Except Raised Json :=
  (Memo.fetch state.table (setting.key call) (setting.freshText state call)).1 >>= readBack

variable [DecidableEq ι]

omit [Host] [FloatText] [Scanner] [Sha256] in
/-- `_last_plan`, after an answer. -/
def remember (i : ι) (last : ι → Json) : Except Raised Json → ι → Json
  | .ok out => if (out.getD "nodes" .null).truthy then Function.update last i out else last
  | .error _ => last

/-- `plan`: what it leaves behind. -/
def turn (state : Frozen ι) (call : ι × PlanBrief) : Frozen ι where
  table := (Memo.fetch state.table (setting.key call) (setting.freshText state call)).2
  last := remember call.1 state.last (setting.plan state call)

/-- The calls of a process share the table. -/
def process : Memo.Process (Frozen ι) (ι × PlanBrief) String (List Char) Raised where
  turn := setting.turn
  table := Frozen.table
  key := setting.key
  compute := setting.freshText
  fetches _ _ := rfl

end Setting

section

variable [FloatText] [Sha256]

theorem tidy_stamped {planner : Planner} {endpoint : Endpoint} {messages : List Message}
    {plan : List (String × Json)} (tidy : Tidy (.obj plan)) :
    Tidy (stamped planner endpoint messages plan) := by
  refine ⟨Assoc.nodup_keys_set tidy.1 _ _, ?_⟩
  rw [throughoutFields_iff]
  intro field mem
  rcases mem_of_mem_set mem with old | rfl
  · exact (throughoutFields_iff _).mp tidy.2 field old
  · exact ⟨by simp [Assoc.keys], trivial, trivial, trivial, trivial⟩

omit [Sha256] in
theorem readBack_print [Scanner] {value : Json} (tidy : Tidy value) :
    Setting.readBack (print plain 0 (sortKeys value)) = .ok (sortKeys value) := by
  have back : loads (print plain 0 (sortKeys value)) = some (sortKeys value) := by
    rw [loads_print plain (proper_sortKeys tidy.proper),
      rebuild_gather_of_distinct _ (ordered_sortKeys tidy.distinct).distinct]
  unfold Setting.readBack
  rw [back]

/-- `plan["planner"]["prompt_sha"]`. -/
def promptShaOf (plan : Json) : Json := (plan.getD "planner" .null).getD "prompt_sha" .null

theorem promptShaOf_stamped {planner : Planner} {endpoint : Endpoint} {messages : List Message}
    {plan : List (String × Json)} (tidy : Tidy (.obj plan)) :
    promptShaOf (sortKeys (stamped planner endpoint messages plan)) = .str (promptSha messages) := by
  have nodup := (tidy_stamped tidy : Tidy (stamped planner endpoint messages plan)).1
  have names : (Assoc.keys [("provider", Json.str planner.endpointRef), ("endpoint", .str endpoint.identity),
      ("prompt_sha", .str (promptSha messages))]).Nodup := by
    simp [Assoc.keys]
  have provenance : (sortKeys (stamped planner endpoint messages plan)).getD "planner" .null =
      sortKeys (.obj [("provider", .str planner.endpointRef), ("endpoint", .str endpoint.identity),
        ("prompt_sha", .str (promptSha messages))]) := by
    unfold stamped
    rw [sortKeys, Json.getD, Json.get?, get?_sorted nodup, Assoc.get?_set, if_pos rfl]
    rfl
  rw [promptShaOf, provenance, sortKeys, Json.getD, Json.get?, get?_sorted names]
  rfl

end

/-! ## Runs of a process -/

namespace Setting

section

variable [Host] [FloatText] [Scanner] [Sha256] {ι : Type} [DecidableEq ι] (setting : Setting ι)

/-- The state of the process after some calls. -/
def after (calls : List (ι × PlanBrief)) : Frozen ι := setting.process.after {} calls

/-- The call has the key of an earlier one that asked the model. -/
structure Reuses (past : List (ι × PlanBrief)) (call : ι × PlanBrief) (earlier : List (ι × PlanBrief))
    (maker : ι × PlanBrief) : Prop where
  before : ∃ between, past = earlier ++ maker :: between
  made : ∃ text, setting.process.Makes (setting.after earlier) maker text
  sameKey : setting.key maker = setting.key call

/-- The call would have sent the messages of the earlier one, is answered with their digest,
and as it would be without the table. -/
structure Honest (past : List (ι × PlanBrief)) (call : ι × PlanBrief) (earlier : List (ι × PlanBrief))
    (maker : ι × PlanBrief) : Prop where
  messages : setting.messages (setting.after past) call = setting.messages (setting.after earlier) maker
  prompt : ∃ sent out, setting.messages (setting.after past) call = .ok sent ∧
    setting.plan (setting.after past) call = .ok out ∧ promptShaOf out = .str (promptSha sent)
  fresh : setting.plan (setting.after past) call =
    (setting.freshText (setting.after past) call >>= readBack)

/-- The two calls show the same outside the key. -/
def Agreeing (past : List (ι × PlanBrief)) (call : ι × PlanBrief) (earlier : List (ι × PlanBrief))
    (maker : ι × PlanBrief) : Prop :=
  ∃ own made, pieces setting.evidenceInterval call.2 ((setting.after past).last call.1) = .ok own ∧
    pieces setting.evidenceInterval maker.2 ((setting.after earlier).last maker.1) = .ok made ∧
    Agrees call.2 own maker.2 made

variable {setting} {past earlier : List (ι × PlanBrief)} {call maker : ι × PlanBrief}

omit [DecidableEq ι] in
theorem proper_of_plan {state : Frozen ι} {out : Json} (planned : setting.plan state call = .ok out) :
    Proper out := by
  rcases of_bind planned with ⟨text, _, read⟩
  unfold readBack at read
  split at read
  · rename_i plan loaded
    cases read
    exact (tidy_of_loads loaded).proper
  · cases read

theorem proper_last (calls : List (ι × PlanBrief)) (i : ι) : Proper ((setting.after calls).last i) := by
  induction calls using List.reverseRecOn with
  | nil => trivial
  | append_singleton calls call ih =>
      have turned : setting.after (calls ++ [call]) = setting.turn (setting.after calls) call :=
        Memo.Process.after_snoc calls call
      rw [turned]
      change Proper (remember call.1 (setting.after calls).last (setting.plan (setting.after calls) call) i)
      cases planned : setting.plan (setting.after calls) call with
      | error error => exact ih
      | ok out =>
          unfold remember
          dsimp only
          split
          · by_cases same : i = call.1
            · rw [same, Function.update_self]
              exact proper_of_plan planned
            · rw [Function.update_of_ne same]
              exact ih
          · exact ih

theorem exists_messages_of_makes {state : Frozen ι} {text : List Char}
    (made : setting.process.Makes state maker text) :
    ∃ sent, setting.messages state maker = .ok sent ∧ setting.textFor maker.1 sent = .ok text := by
  rcases of_bind made.2 with ⟨sent, messaged, texted⟩
  exact ⟨sent, mapError_eq_ok.mp messaged, texted⟩

omit [Host] [Scanner] [Sha256] [DecidableEq ι] in
theorem sameKey_of_key (same : setting.key maker = setting.key call) :
    SameKey (setting.planner call.1) call.2 (setting.planner maker.1) maker.2 :=
  sameKey_of_keyOf same.symm

omit [Host] [DecidableEq ι] in
theorem textFor_of_key (same : setting.key maker = setting.key call) (sent : List Message) :
    setting.textFor call.1 sent = setting.textFor maker.1 sent := by
  have known := sameKey_of_key same
  have endpoint : setting.endpoint call.1 = setting.endpoint maker.1 := by
    unfold Setting.endpoint
    rw [known.endpointRef, known.endpointParams]
  unfold textFor stamped
  rw [endpoint, known.endpointRef]

theorem plan_of_reuses {text : List Char} (before : ∃ between, past = earlier ++ maker :: between)
    (made : setting.process.Makes (setting.after earlier) maker text)
    (same : setting.key maker = setting.key call) :
    setting.plan (setting.after past) call = readBack text := by
  rcases before with ⟨between, rfl⟩
  have known : (setting.after (earlier ++ maker :: between)).table.get? (setting.key call) = some text := by
    rw [← same]
    exact Memo.Process.known_of_made made
  unfold Setting.plan
  rw [Memo.fetch_of_known known]
  rfl

theorem answered_iff_reuses : (∃ text, (setting.after past).table.get? (setting.key call) = some text) ↔
    ∃ earlier maker, setting.Reuses past call earlier maker := by
  constructor
  · rintro ⟨text, known⟩
    have listed : (setting.process.table (setting.process.after {} past)).get? (setting.process.key call) =
      some text := known
    rcases Memo.Process.exists_maker rfl listed with ⟨earlier, maker, between, split, same, made⟩
    exact ⟨earlier, maker, ⟨between, split⟩, ⟨text, made⟩, same⟩
  · rintro ⟨earlier, maker, ⟨between, rfl⟩, ⟨text, made⟩, same⟩
    refine ⟨text, ?_⟩
    rw [← same]
    exact Memo.Process.known_of_made made

/-- Two calls with one key send the same messages when they show the same outside it, and only
then. -/
theorem messages_iff_agreeing (reuses : setting.Reuses past call earlier maker) :
    setting.messages (setting.after past) call = setting.messages (setting.after earlier) maker ↔
      setting.Agreeing past call earlier maker := by
  rcases reuses.made with ⟨text, made⟩
  rcases exists_messages_of_makes made with ⟨sent, messaged, _⟩
  rcases map_eq_ok.mp messaged with ⟨theirs, pieced, shown_⟩
  have same := sameKey_of_key reuses.sameKey
  constructor
  · intro equal
    rw [messaged] at equal
    rcases map_eq_ok.mp equal with ⟨own, pieced_, shown__⟩
    refine ⟨own, theirs, pieced_, pieced, ?_⟩
    apply agrees_of_payload
    exact sortKeys_of_messages (proper_payload (proper_last past call.1) pieced_)
      (proper_payload (proper_last earlier maker.1) pieced) (shown__.trans shown_.symm)
  · rintro ⟨own, made_, pieced_, pieced__, agrees⟩
    rw [pieced] at pieced__
    cases pieced__
    unfold Setting.messages
    rw [pieced_, pieced]
    change Except.ok (messagesOf _) = .ok (messagesOf _)
    unfold messagesOf
    rw [agrees.payload same]

theorem honest_of_messages (reuses : setting.Reuses past call earlier maker)
    (same : setting.messages (setting.after past) call = setting.messages (setting.after earlier) maker) :
    setting.Honest past call earlier maker := by
  rcases reuses.made with ⟨text, made⟩
  rcases exists_messages_of_makes made with ⟨sent, messaged, texted⟩
  have answered := plan_of_reuses reuses.before made reuses.sameKey
  have own : setting.messages (setting.after past) call = .ok sent := same.trans messaged
  have fresh : setting.freshText (setting.after past) call = .ok text := by
    unfold freshText
    rw [own]
    exact (textFor_of_key reuses.sameKey sent).trans texted
  refine ⟨same, ?_, ?_⟩
  · rcases of_bind texted with ⟨plan, generated, printed⟩
    cases printed
    have tidy := tidy_of_generate generated
    refine ⟨sent, sortKeys (stamped (setting.planner maker.1) (setting.endpoint maker.1) sent plan), own, ?_,
      promptShaOf_stamped tidy⟩
    rw [answered]
    exact readBack_print (tidy_stamped tidy)
  · rw [answered, fresh]
    rfl

end

end Setting

/-- The table answers the calls with the key of a plan that was made, and does so as a call
without the table would, with the digest of the prompt of its own brief, when the brief shows
the same as the one the plan was made for outside the key, and only then. -/
theorem frozen_transparent_iff [Host] [FloatText] [Scanner] [Sha256] {ι : Type} [DecidableEq ι]
    (setting : Setting ι) (calls : List (ι × PlanBrief)) :
    (∀ past call later, calls = past ++ call :: later →
      ((∃ text, (setting.after past).table.get? (setting.key call) = some text) ↔
        ∃ earlier maker, setting.Reuses past call earlier maker)) ∧
    ((∀ past call later earlier maker, calls = past ++ call :: later →
        setting.Reuses past call earlier maker → setting.Honest past call earlier maker) ↔
      ∀ past call later earlier maker, calls = past ++ call :: later →
        setting.Reuses past call earlier maker → setting.Agreeing past call earlier maker) := by
  refine ⟨fun past call later _ => Setting.answered_iff_reuses, ?_⟩
  constructor
  · intro honest past call later earlier maker split reuses
    apply (Setting.messages_iff_agreeing reuses).mp
    exact (honest past call later earlier maker split reuses).messages
  · intro agreeing past call later earlier maker split reuses
    apply Setting.honest_of_messages reuses
    exact (Setting.messages_iff_agreeing reuses).mpr (agreeing past call later earlier maker split reuses)

section

local instance armHost : Host := asciiHost

local instance armFloats : FloatText := exactDecimals

local instance armScanner : Scanner := ⟨fun _ => none, fun _ => "Expecting value"⟩

local instance armSha : Sha256 := sha256

/-- The brief of a stack, for an arm. -/
def stackBrief (arm : String) : PlanBrief where
  catalogue := [("stack", [("object", .str)])]
  oracles := [.str "stack_success"]
  task := .str "stack_vlm"
  seed := .int 0
  arm := .str arm
  proper := by
    intro value member
    simp only [List.cons_append, List.nil_append, List.mem_cons, List.not_mem_nil, or_false] at member
    rcases member with rfl | rfl | rfl | rfl | rfl | rfl | rfl | rfl | rfl | rfl | rfl | rfl | rfl
    all_goals trivial
  bound := fun _ none_ => absurd none_ List.not_mem_nil

def stackGraph : Json :=
  .obj [("goal", .str "stack"), ("nodes", .arr [.obj [("id", .str "a"), ("skill", .str "stack"),
      ("args", .obj [("object", .str "cube")]), ("after", .arr [])]]),
    ("verify", .arr [.obj [("after", .str "a"), ("predicate", .str "stack_success")]])]

/-- One planner, and a model that always answers with this graph. -/
def stackSetting : Setting Unit where
  planner _ := ⟨"plugins.model_endpoint:provider", [], fun _ none_ => absurd none_ List.not_mem_nil⟩
  loadProvider _ _ := ⟨fun _ => .ok (String.ofList (print compact 0 stackGraph)), "model"⟩
  evidenceInterval _ := .error .typeError

theorem proper_stackGraph : Proper stackGraph := by
  simp [stackGraph, Throughout, ThroughoutItems, ThroughoutFields]

theorem exists_text_stack (arm : String) :
    ∃ text, stackSetting.process.Makes {} ((), stackBrief arm) text := by
  have messaged : ∃ sent, stackSetting.messages {} ((), stackBrief arm) = .ok sent := ⟨_, rfl⟩
  rcases messaged with ⟨sent, messaged⟩
  have reply : parse "nodes" (String.ofList (print compact 0 stackGraph)).toList = .ok stackGraph.fields := by
    have read : parseValue (print compact 0 stackGraph) = .ok stackGraph := by
      rw [parseValue, loads_print compact proper_stackGraph]
      rfl
    rw [String.toList_ofList, parse, read]
    rfl
  have generated : generate (stackSetting.endpoint ()) sent = .ok stackGraph.fields := by
    have chatted : (stackSetting.endpoint ()).chat sent = .ok (String.ofList (print compact 0 stackGraph)) :=
      rfl
    unfold generate
    rw [chatted, bind_ok, reply, handled]
    intro text never
    cases never
  refine ⟨print plain 0 (sortKeys (stamped (stackSetting.planner ()) (stackSetting.endpoint ()) sent
    stackGraph.fields)), rfl, ?_⟩
  have texted : stackSetting.textFor () sent = .ok (print plain 0 (sortKeys (stamped (stackSetting.planner ())
      (stackSetting.endpoint ()) sent stackGraph.fields))) := by
    unfold Setting.textFor
    rw [generated, bind_ok, pure_eq_ok]
  have fresh : stackSetting.freshText {} ((), stackBrief arm) = stackSetting.textFor () sent := by
    unfold Setting.freshText
    rw [messaged, Except.mapError, bind_ok]
  exact fresh.trans texted

/-- A task that runs with one arm and then with another is planned for the first. -/
theorem plan_of_other_arm : ¬ ∀ past call later earlier maker,
    [((), stackBrief "scripted"), ((), stackBrief "auto")] = past ++ call :: later →
      stackSetting.Reuses past call earlier maker → stackSetting.Honest past call earlier maker := by
  intro honest
  have reuses : stackSetting.Reuses [((), stackBrief "scripted")] ((), stackBrief "auto") []
      ((), stackBrief "scripted") :=
    ⟨⟨[], rfl⟩, exists_text_stack "scripted", rfl⟩
  rcases (Setting.messages_iff_agreeing reuses).mp (honest _ _ [] _ _ rfl reuses).messages with
    ⟨own, made, _, _, agrees⟩
  exact absurd (Json.str.inj agrees.arm) (by decide)

end

end Runtime
end PhysicalHarness
