import PhysicalHarness.Governor.Answers
import PhysicalHarness.Rsi.Campaign
import PhysicalHarness.Runtime.Decompose

namespace PhysicalHarness
namespace Rsi

open Python Harness JsonText Fallible
open PhysicalHarness.Runtime (Scanner Raised scanned)

/-!
# The reasoner that asks a model

The evidence of a generation is summarized first, with statistics over the episodes that succeeded
and those that failed.  Then the model is asked, as often as there are attempts, and each reply is an
abstention, a rule that the parser accepts, or a rejection.  What came of it is put in the store.
-/

/-- `LlmReasoner`, without the state of its endpoint. -/
structure LlmReasoner where
  ref : String
  params : Json
  base : String
  attempts : Nat
  /-- `max_tokens`, `temperature` and `seed`. -/
  decode : Json
  positive : 0 < attempts
  properParams : Proper params
  properDecode : Proper decode
  /-- `str` of an exception that the parser raises. -/
  wording : PyError → String
  /-- `REGISTRY[name].doc`. -/
  doc : String → String

namespace LlmReasoner

/-! ## Statistics -/

/-- Series of one length, and how many of them are real at each step. -/
structure Aligned where
  rows : List (List Double)
  valid : List Nat

/-- The arithmetic of numpy. -/
class Numpy where
  /-- `prof.max()` and `prof.argmax()` of the profile of the groups, without signs and NaN. -/
  peak : Aligned → Aligned → Double × Nat
  /-- `round(value, 2)`. -/
  round2 : Double → Double
  /-- `np.quantile(finite, [0, .25, .5, .75, 1]).tolist()`. -/
  quantiles : List Double → List Double

def width (series : List (List Double)) : Nat := (series.map List.length).foldl max 0

def padded (steps : Nat) (series : List Double) : Except PyError (List Double) :=
  if series.length < steps then
    match series.getLast? with
    | none => .error .indexError
    | some last => .ok (series ++ List.replicate (steps - series.length) last)
  else .ok series

/-- `align`. -/
def align (series : List (List Double)) : Except PyError Aligned :=
  if series = [] then .error (.valueError "max() iterable argument is empty")
  else (series.mapM (padded (width series))).map (fun rows =>
    ⟨rows, (List.range (width series)).map (fun step =>
      series.countP (fun real => decide (step < real.length)))⟩)

/-- The columns of the episodes with this label. -/
def labelled {α : Type} (success : Bool) (columns : List α) (labels : List Bool) : List α :=
  ((columns.zip labels).filter (fun pair => pair.2 == success)).map Prod.fst

/-- `t[name]`. -/
def column (name : String) (trace : List (String × List Double)) : Except PyError (List Double) :=
  match Assoc.get? trace name with
  | none => .error .keyError
  | some series => .ok series

section

variable [Numpy]

def peakOf (ok bad : Aligned) : Except PyError (Double × Nat) :=
  if max ok.valid.length bad.valid.length = 0 then
    .error (.valueError "zero-size array to reduction operation maximum which has no identity")
  else .ok (Numpy.peak ok bad)

/-- `divergence_profile`, by its maximum. -/
def divergence (columns : List (List Double)) (labels : List Bool) : Except PyError (Double × Nat) := do
  let ok ← align (labelled true columns labels)
  let bad ← align (labelled false columns labels)
  peakOf ok bad

/-- An entry of `stats`. -/
structure Separation where
  feature : String
  reducer : Reducer
  peakSigma : Double
  peakStep : Nat

def Separation.json (separation : Separation) : Json :=
  .obj [("feature", .str separation.feature), ("reducer", .str separation.reducer.text),
    ("peak_sigma", .float separation.peakSigma.value), ("peak_step", .int separation.peakStep)]

/-- `REDUCERS`. -/
def reducers : List Reducer := [.value, .min, .max, .range]

def separation (traces : List (List (String × List Double))) (labels : List Bool) (name : String)
    (reducer : Reducer) : Except PyError (Option Separation) := do
  let columns ← traces.mapM (column name)
  let peak ← divergence (columns.map (fun series => reduceSeries series reducer)) labels
  return if peak.1.lt (Double.nearest 1) then none
    else some ⟨name, reducer, Numpy.round2 peak.1, peak.2⟩

/-- The features that a proposal may name: within the budget, and recorded in the first episode. -/
def offered (registry : Registry) (privilegeBudget : Int)
    (traces : List (List (String × List Double))) : List String :=
  (registry.admitted privilegeBudget).filter (fun name =>
    decide (name ∈ Assoc.keys (traces.head?.getD [])))

/-- `stats`, the strongest first. -/
def separations (names : List String) (traces : List (List (String × List Double)))
    (labels : List Bool) : Except PyError (List Separation) :=
  (names.mapM (fun name => reducers.mapM (separation traces labels name))).map (fun found =>
    (found.flatten.filterMap (fun entry => entry)).insertionSort (fun left right =>
      !left.peakSigma.lt right.peakSigma))

def catalogEntry (doc : String → String) (registry : Registry) (name : String) : Json :=
  .obj [("name", .str name), ("privilege_cost", .int (registry.costOf name)), ("doc", .str (doc name))]

/-- `response_schema`. -/
def responseSchema : Json :=
  .obj [("feature", .str "str, from catalog"), ("op", .str "lt|gt"), ("threshold", .str "float"),
    ("dwell", .str "int >= 1"), ("arm_after", .str "int >= 0"),
    ("reducer", .str "value|min|max|range"), ("recovery", .str "str, from recovery_strategies")]

/-- `build_brief`. -/
def buildBrief (doc : String → String) (registry : Registry)
    (traces : List (List (String × List Double))) (labels : List Bool) (generation : Nat)
    (privilegeBudget : Int) (strategies : List String) : Except PyError (List (String × Json)) :=
  let names := offered registry privilegeBudget traces
  (separations names traces labels).map (fun stats =>
    [("generation", .int generation), ("episodes", .int labels.length),
      ("failures", .int ((labels.length : Int) - labels.count true)),
      ("privilege_budget", .int privilegeBudget),
      ("catalog", .arr (names.map (catalogEntry doc registry))),
      ("separations", .arr ((stats.take 12).map Separation.json)),
      ("operators", .arr [.str "lt", .str "gt"]),
      ("reducers", .arr (reducers.map (fun reducer => .str reducer.text))),
      ("recovery_strategies", .arr (strategies.map Json.str)),
      ("response_schema", responseSchema)])

def groupSummary (columns : List (List Double)) (labels : List Bool) (success : Bool) : Json :=
  let finite := (labelled success columns labels).flatten.filter (fun value => value.value.isFinite)
  .obj [("samples", .int finite.length),
    ("quantiles_0_25_50_75_100", if finite = [] then .null
      else .arr ((Numpy.quantiles finite).map (fun value => .float value.value)))]

/-- `observed_values[feature]`. -/
def observed (traces : List (List (String × List Double))) (labels : List Bool) (name : String) :
    Except PyError (String × Json) :=
  (traces.mapM (column name)).map (fun columns =>
    (name, .obj [("success", groupSummary columns labels true),
      ("failure", groupSummary columns labels false)]))

end

/-- What leaves `propose` as an exception. -/
inductive Escape where
  | python (error : PyError)
  /-- `StopIteration` inside a generator. -/
  | runtimeError
  | recursionError
  /-- The endpoint raised. -/
  | request (error : CampaignError)

/-- `len(next(iter(t.values())))`. -/
def firstLength (trace : List (String × List Double)) : Except Escape Nat :=
  match trace with
  | [] => .error .runtimeError
  | (_, series) :: _ => .ok series.length

/-- An exception of the endpoint. -/
structure Refused where
  type : String
  message : String
  error : CampaignError

/-- A reply, with `last_usage` and `last_finish`. -/
structure Answer where
  content : String
  usage : Json
  finish : Json
  properUsage : Proper usage
  properFinish : Proper finish

structure Server where
  /-- `["data"][0]["id"]` of `GET /models`; it may be null. -/
  names : Nat → Except Refused (Option String)
  /-- `POST /chat/completions` with this model and these messages. -/
  reply : Nat → Option String → Json → Except Refused Answer

/-- `OpenAICompatEndpoint`, by its model; the requests are counted. -/
structure Endpoint where
  model : Option String
  requests : Nat

namespace Endpoint

/-- The model of the next request. -/
def resolved (server : Server) (endpoint : Endpoint) : Except Refused (Option String) :=
  match endpoint.model with
  | some model => .ok (some model)
  | none => server.names endpoint.requests

/-- `chat`: the reply, and the endpoint after it. -/
def chat (server : Server) (messages : Json) (endpoint : Endpoint) :
    Except Refused Answer × Endpoint :=
  match endpoint.resolved server with
  | .error refused => (.error refused, { endpoint with requests := endpoint.requests + 1 })
  | .ok model => (server.reply endpoint.requests model messages, ⟨model, endpoint.requests + 1⟩)

end Endpoint

/-! ## A proposal -/

/-- `_SYSTEM`. -/
def systemText : String :=
  "Propose one robot recovery rule from the evidence and response_schema.\n" ++
    "Use only catalog features and offered recovery_strategies. Return one JSON object,\n" ++
    "without prose or code fences. If evidence does not justify a candidate, return\n" ++
    "\x7b\"kind\":\"none\",\"reason\":\"your evidence-based reason\"\x7d. Never invent evidence."

/-- An entry of `attempts`; the reply is missing where the endpoint raised. -/
structure Row where
  messages : Json
  answer : Option Answer
  proper : Proper messages

def Row.json (row : Row) : Json :=
  match row.answer with
  | none => .obj [("messages", row.messages), ("raw", .null), ("usage", .null)]
  | some answer => .obj [("messages", row.messages), ("raw", .str answer.content),
      ("usage", answer.usage), ("finish_reason", answer.finish)]

structure Sealing where
  generation : Nat
  identity : String
  attempts : List Row
  rejections : List String
  status : String
  reason : String
  error : Option Refused

def Sealing.json (sealing : Sealing) : Json :=
  .obj ([("generation", .int sealing.generation), ("identity", .str sealing.identity),
    ("status", .str sealing.status), ("attempts", .arr (sealing.attempts.map Row.json)),
    ("rejections", .arr (sealing.rejections.map Json.str))] ++
    (sealing.error.map (fun refused => ("error", Json.obj [("type", .str refused.type),
      ("message", .str refused.message), ("stage", .str "request")]))).toList ++
    [("reason", .str sealing.reason)])

/-- What `propose` returns. -/
structure Result where
  rule : Option Json
  status : String
  reason : String

/-- A call of `propose`: what it returned or raised, what it put in the store, the replies it got, and
the endpoint after it. -/
structure Outcome where
  result : Except Escape Result
  puts : List Sealing
  replies : List String
  endpoint : Endpoint

def repliesOf (rows : List Row) : List String := rows.filterMap (fun row => row.answer.map Answer.content)

/-- What a reply amounts to. -/
inductive Reading where
  | abstained (reason : String)
  | proposed (rule : Rule)
  | rejected (text : String)
  | escapes (error : Escape)

section

variable [Host] [FloatText] [Scanner] [Numpy]

variable (llm : LlmReasoner) (installed : Installed) (server : Server)

/-- `identity` of the endpoint. -/
def endpointIdentity (endpoint : Endpoint) : String :=
  "openai_compat(model=" ++ endpoint.model.getD "None" ++ ",base=" ++ llm.base ++ ")"

def identityJson (endpoint : Endpoint) : Json :=
  .obj [("ref", .str llm.ref), ("params", llm.params), ("endpoint", .str (llm.endpointIdentity endpoint)),
    ("attempts", .int llm.attempts), ("decode", llm.decode)]

/-- `identity`. -/
def identity (endpoint : Endpoint) : String :=
  "llm_reasoner:" ++ dumps compact (sortKeys (llm.identityJson endpoint))

structure Context where
  generation : Nat
  ruleIndex : Nat
  prereg : Preregistration
  strategies : List String
  names : List String
  evidence : List (String × Json)
  nSteps : Nat
  identity : String

/-- The evidence of a brief, with the observed values. -/
def context (endpoint : Endpoint) (brief : Brief) : Except Escape Context := do
  let names := offered installed.registry brief.prereg.criticBudget brief.traces
  let evidence ← (buildBrief llm.doc installed.registry brief.traces brief.labels brief.generation
    brief.prereg.criticBudget brief.strategies).mapError .python
  let values ← (names.mapM (observed brief.traces brief.labels)).mapError .python
  let lengths ← brief.traces.mapM firstLength
  return {
    generation := brief.generation
    ruleIndex := brief.parent.rules.length + 1
    prereg := brief.prereg
    strategies := brief.strategies
    names
    evidence := evidence ++ [("observed_values", .obj values)]
    nSteps := lengths.foldl max 0
    identity := llm.identity endpoint }

def messages (context : Context) (attempt : Nat) (rejections : List String) : Json :=
  .arr [.obj [("role", .str "system"), ("content", .str systemText)],
    .obj [("role", .str "user"), ("content", .str (dumps plain (sortKeys (.obj (context.evidence ++
      [("attempt", .int attempt), ("previous_rejections", .arr (rejections.map Json.str))])))))]]

omit [Host] [Scanner] [Numpy] in
theorem proper_messages (context : Context) (attempt : Nat) (rejections : List String) :
    Proper (messages context attempt rejections) :=
  ⟨⟨trivial, trivial, trivial, trivial⟩, ⟨trivial, trivial, trivial, trivial⟩, trivial⟩

/-- `except (ValueError, TypeError, OverflowError)`. -/
def caught : PyError → Bool
  | .keyError => false
  | .attributeError => false
  | .indexError => false
  | _ => true

/-- An exception of the parser: a rejection, or it leaves `propose`. -/
def handled (error : PyError) : Reading :=
  if caught error then .rejected (llm.wording error) else .escapes (.python error)

def abstention : Json → Except PyError Reading
  | .str reason =>
      if strip reason.toList = [] then
        .error (.proposerError "an abstention needs a non-empty reason")
      else .ok (.abstained reason)
  | _ => .error (.proposerError "an abstention needs a non-empty reason")

/-- `payload.get("feature") not in evidence["observed_values"]`. -/
def checkFeature (context : Context) (payload : Json) : Except PyError Unit :=
  if payload.isMapping then
    (hashed (payload.getD "feature" .null)).bind (fun _ =>
      if context.names.any (fun name => (payload.getD "feature" .null).eq (.str name)) then .ok ()
      else .error (.proposerError "feature is not in the observed catalog"))
  else .ok ()

/-- A reply that is JSON: an abstention or a rule. -/
def judge (context : Context) (payload : Json) : Except PyError Reading :=
  if payload.isMapping && (payload.getD "kind" .null).eq (.str "none") then
    abstention (payload.getD "reason" .null)
  else
    (checkFeature context payload).bind (fun _ =>
      (Governor.parseProposal installed.registry (.value payload) context.ruleIndex
        context.prereg.criticBudget context.strategies context.prereg.recoverySensorSd
        context.nSteps).map Reading.proposed)

/-- The verdict on a reply, with what is caught turned into a rejection. -/
def settle : Except PyError Reading → Reading
  | .ok reading => reading
  | .error error => llm.handled error

/-- What a reply amounts to. -/
def read (context : Context) (content : String) : Reading :=
  match scanned content.toList (loads content.toList) with
  | .error .recursion => .escapes .recursionError
  | .error (.python error) => llm.handled error
  | .ok payload => llm.settle (judge installed context payload)

def canonicalOf (status reason : String) : Option Rule → Except Escape Result
  | none => .ok ⟨none, status, reason⟩
  | some rule => ((rule.canonical installed.repertoire).mapError .python).map (fun form =>
      ⟨some form, status, reason⟩)

/-- `finish`. -/
def finish (context : Context) (rows : List Row) (rejections : List String) (endpoint : Endpoint)
    (status reason : String) (rule : Option Rule) : Outcome where
  result := canonicalOf installed status reason rule
  puts := [⟨context.generation, context.identity, rows, rejections, status, reason, none⟩]
  replies := repliesOf rows
  endpoint

/-- The endpoint raised: the request is recorded before the exception goes on. -/
def failed (context : Context) (rows : List Row) (rejections : List String) (endpoint : Endpoint)
    (refused : Refused) : Outcome where
  result := .error (.request refused.error)
  puts := [⟨context.generation, context.identity, rows, rejections, "error", refused.message, some refused⟩]
  replies := repliesOf rows
  endpoint

def escaped (rows : List Row) (endpoint : Endpoint) (error : Escape) : Outcome :=
  ⟨.error error, [], repliesOf rows, endpoint⟩

def ask (context : Context) : Nat → Nat → List Row → List String → Endpoint → Outcome
  | 0, _, rows, rejections, endpoint =>
      finish installed context rows rejections endpoint "rejected" "candidate validation budget exhausted"
        none
  | left + 1, attempt, rows, rejections, endpoint =>
      let chatted := endpoint.chat server (messages context attempt rejections)
      let row (answer : Option Answer) : Row :=
        ⟨messages context attempt rejections, answer, proper_messages context attempt rejections⟩
      match chatted.1 with
      | .error refused => failed context (rows ++ [row none]) rejections chatted.2 refused
      | .ok answer =>
          let rows := rows ++ [row (some answer)]
          match llm.read installed context answer.content with
          | .abstained reason =>
              finish installed context rows rejections chatted.2 "abstained" reason none
          | .proposed rule =>
              finish installed context rows rejections chatted.2 "proposed" "validated model candidate"
                (some rule)
          | .rejected text => ask context left (attempt + 1) rows (rejections ++ [text]) chatted.2
          | .escapes error => escaped rows chatted.2 error

/-- `propose`. -/
def propose (endpoint : Endpoint) (brief : Brief) : Outcome :=
  if brief.traces = [] then ⟨.ok ⟨none, "not_evaluated", "no traces"⟩, [], [], endpoint⟩
  else
    match llm.context installed endpoint brief with
    | .error error => escaped [] endpoint error
    | .ok context => llm.ask installed server context llm.attempts 0 [] [] endpoint

end

end LlmReasoner
end Rsi
end PhysicalHarness
