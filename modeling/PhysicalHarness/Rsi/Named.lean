import PhysicalHarness.Protocol.Canonical
import PhysicalHarness.Python.JsonRead
import PhysicalHarness.Rsi.Verdict

namespace PhysicalHarness
namespace Rsi

open Python Harness JsonText Fallible
open PhysicalHarness.Runtime (Scanner)

/-!
# The model that a preregistration names

A campaign seals the identity of its reasoner before the first request.  The endpoint learns its
model from the server at the first request, where none was given, and its identity is another one
from then on.  So the preregistration names the model that proposes exactly where the model is known
when the campaign starts.
-/

namespace LlmReasoner

theorem framed_inj (opening comma base closing : String) {name other : String} :
    opening ++ name ++ comma ++ base ++ closing = opening ++ other ++ comma ++ base ++ closing ↔
      name = other := by
  rw [String.append_left_inj, String.append_left_inj, String.append_left_inj, String.append_right_inj]

theorem endpointIdentity_eq_iff {llm other : LlmReasoner} (base : llm.base = other.base)
    (endpoint endpoint_ : Endpoint) :
    llm.endpointIdentity endpoint = other.endpointIdentity endpoint_ ↔
      endpoint.model.getD "None" = endpoint_.model.getD "None" := by
  unfold endpointIdentity
  rw [base, framed_inj]

theorem proper_identityJson (llm : LlmReasoner) (endpoint : Endpoint) :
    Proper (llm.identityJson endpoint) :=
  ⟨trivial, trivial, llm.properParams, trivial, trivial, llm.properDecode, trivial⟩

theorem get?_identityJson (llm : LlmReasoner) (endpoint : Endpoint) :
    (sortKeys (llm.identityJson endpoint)).get? "endpoint" =
      some (.str (llm.endpointIdentity endpoint)) := by
  have distinct : (Assoc.keys [("ref", Json.str llm.ref), ("params", llm.params),
      ("endpoint", .str (llm.endpointIdentity endpoint)), ("attempts", .int llm.attempts),
      ("decode", llm.decode)]).Nodup := by
    change ["ref", "params", "endpoint", "attempts", "decode"].Nodup
    decide
  exact get?_sorted distinct "endpoint"

section

variable [FloatText]

theorem endpointIdentity_of_identity {llm other : LlmReasoner} {endpoint endpoint_ : Endpoint}
    (same : llm.identity endpoint = other.identity endpoint_) :
    llm.endpointIdentity endpoint = other.endpointIdentity endpoint_ := by
  rw [identity, identity, String.append_right_inj] at same
  have values := print_injective (proper_sortKeys (proper_identityJson llm endpoint))
    (proper_sortKeys (proper_identityJson other endpoint_)) (String.ofList_injective same)
  have fields := congrArg (fun value => value.get? "endpoint") values
  rw [get?_identityJson, get?_identityJson] at fields
  exact Json.str.inj (Option.some.inj fields)

end

/-! ## The reasoner of a campaign -/

/-- The exception as the campaign has it; a `RuntimeError` is taken as the subclass it knows. -/
def Escape.campaign : Escape → CampaignError
  | .python error => .raised error
  | .runtimeError => .recursionError
  | .recursionError => .recursionError
  | .request error => error

theorem proper_row (row : Row) : Proper row.json := by
  rw [Row.json]
  cases row.answer with
  | none => exact ⟨trivial, row.proper, trivial, trivial, trivial⟩
  | some answer =>
      exact ⟨trivial, row.proper, trivial, answer.properUsage, answer.properFinish, trivial⟩

theorem proper_sealing (sealing : Sealing) : Proper sealing.json := by
  have rows : Proper (.arr (sealing.attempts.map Row.json)) := by
    apply proper_arr
    intro item listed
    rcases List.mem_map.mp listed with ⟨row, _, rfl⟩
    exact proper_row row
  have fixed : Proper (.obj [("generation", .int sealing.generation),
      ("identity", .str sealing.identity), ("status", .str sealing.status),
      ("attempts", .arr (sealing.attempts.map Row.json)),
      ("rejections", .arr (sealing.rejections.map Json.str))]) :=
    ⟨trivial, trivial, trivial, trivial, rows, proper_texts _, trivial⟩
  apply proper_obj
  apply properFields_append
  · apply properFields_append ((throughoutFields_iff _).mp fixed.2)
    cases sealing.error with
    | none => exact List.forall_mem_nil _
    | some refused =>
        intro field mem
        cases List.mem_singleton.mp mem
        exact ⟨trivial, trivial, trivial, trivial, trivial⟩
  · intro field mem
    cases List.mem_singleton.mp mem
    trivial

theorem own_model_proposal : "model_proposal" ∉ campaignKinds := by decide

def audit (sealing : Sealing) : Audit where
  kind := "model_proposal"
  payload := sealing.json
  own := own_model_proposal
  proper := proper_sealing sealing

def candidateOf (result : Result) : Proposed :=
  match result.rule with
  | none => .none
  | some form => .canonical form.fields

/-- A call as the campaign sees it. -/
def reply (outcome : Outcome) : Reply where
  audits := outcome.puts.map audit
  proposed := (outcome.result.mapError Escape.campaign).map candidateOf

section

variable [Host] [FloatText] [Scanner] [Numpy]

/-- The endpoint after so many generations with these briefs. -/
def after (llm : LlmReasoner) (installed : Installed) (server : Server) (briefs : Nat → Brief)
    (endpoint : Endpoint) : Nat → Endpoint
  | 0 => endpoint
  | generation + 1 =>
      (llm.propose installed server (after llm installed server briefs endpoint generation)
        (briefs (generation + 1))).endpoint

/-- The reasoner in a campaign whose generations have these briefs. -/
def serving (llm : LlmReasoner) (installed : Installed) (server : Server) (briefs : Nat → Brief)
    (endpoint : Endpoint) : Reasoner where
  identity := some (llm.identity endpoint)
  propose := fun brief => reply (llm.propose installed server
    (llm.after installed server briefs endpoint (brief.generation - 1)) brief)

variable {llm : LlmReasoner} {installed : Installed} {server : Server} {briefs : Nat → Brief}

variable {endpoint : Endpoint} {context : Context}

omit [Host] [Scanner] [Numpy] in
theorem identity_congr {endpoint_ : Endpoint} (same : endpoint.model = endpoint_.model) :
    llm.identity endpoint = llm.identity endpoint_ := by
  unfold identity identityJson endpointIdentity
  rw [same]

omit [Host] [FloatText] [Scanner] [Numpy] in
theorem model_chat (known : endpoint.model.isSome = true) (messages : Json) :
    (endpoint.chat server messages).2.model = endpoint.model := by
  rcases Option.isSome_iff_exists.mp known with ⟨model, named⟩
  rw [Endpoint.chat, Endpoint.resolved, named]

omit [Numpy] in
theorem model_ask (left attempt : Nat) (rows : List Row) (rejections : List String)
    (known : endpoint.model.isSome = true) :
    (llm.ask installed server context left attempt rows rejections endpoint).endpoint.model =
      endpoint.model := by
  induction left generalizing attempt rows rejections endpoint with
  | zero => rfl
  | succ left ih =>
      have stays := @model_chat server endpoint known (messages context attempt rejections)
      rw [ask]
      dsimp only
      split
      · exact stays
      · split
        · exact stays
        · exact stays
        · rw [ih _ _ _ (by rw [stays]; exact known)]
          exact stays
        · exact stays

omit [Numpy] in
theorem model_ask_first {left attempt : Nat} {rows : List Row} {rejections : List String}
    (known : (endpoint.chat server (messages context attempt rejections)).2.model.isSome = true) :
    (llm.ask installed server context (left + 1) attempt rows rejections endpoint).endpoint.model =
      (endpoint.chat server (messages context attempt rejections)).2.model := by
  rw [ask]
  dsimp only
  split
  · rfl
  · split
    · rfl
    · rfl
    · exact model_ask _ _ _ _ known
    · rfl

theorem model_propose (known : endpoint.model.isSome = true) (brief : Brief) :
    (llm.propose installed server endpoint brief).endpoint.model = endpoint.model := by
  rw [propose]
  split
  · rfl
  · split
    · rfl
    · exact model_ask _ _ _ _ known

theorem model_after (known : endpoint.model.isSome = true) (generation : Nat) :
    (llm.after installed server briefs endpoint generation).model = endpoint.model := by
  induction generation with
  | zero => rfl
  | succ generation ih =>
      rw [after, model_propose (by rw [ih]; exact known), ih]

omit [Numpy] in
theorem sealed_ask (left attempt : Nat) (rows : List Row) (rejections : List String)
    (endpoint : Endpoint) :
    ∀ sealing ∈ (llm.ask installed server context left attempt rows rejections endpoint).puts,
      sealing.identity = context.identity := by
  have closed : ∀ sealing ∈ ([] : List Sealing), sealing.identity = context.identity :=
    List.forall_mem_nil _
  have one : ∀ {last : Sealing}, last.identity = context.identity →
      ∀ sealing ∈ [last], sealing.identity = context.identity := by
    intro last same sealing mem
    rw [List.mem_singleton.mp mem]
    exact same
  induction left generalizing attempt rows rejections endpoint with
  | zero => exact one rfl
  | succ left ih =>
      rw [ask]
      dsimp only
      split
      · exact one rfl
      · split
        · exact one rfl
        · exact one rfl
        · exact ih _ _ _ _
        · exact closed

omit [Host] [Scanner] in
theorem identity_context {brief : Brief}
    (made : llm.context installed endpoint brief = .ok context) :
    context.identity = llm.identity endpoint := by
  rw [LlmReasoner.context] at made
  rcases of_bind made with ⟨evidence, _, made⟩
  rcases of_bind made with ⟨values, _, made⟩
  rcases of_bind made with ⟨lengths, _, made⟩
  cases made
  rfl

theorem sealed_propose (endpoint : Endpoint) (brief : Brief) :
    ∀ sealing ∈ (llm.propose installed server endpoint brief).puts,
      sealing.identity = llm.identity endpoint := by
  intro sealing mem
  rw [propose] at mem
  split at mem
  · exact absurd mem List.not_mem_nil
  · split at mem
    · exact absurd mem List.not_mem_nil
    · rename_i context made
      rw [sealed_ask _ _ _ _ _ sealing mem, identity_context made]

end

end LlmReasoner

/-- An entry of a kind of the campaign, or a record of the reasoner. -/
def Origin (reasoner : Reasoner) (put : Put) : Prop :=
  put.kind ∈ campaignKinds ∨
    ∃ brief, ∃ audit ∈ (reasoner.propose brief).audits, put = ⟨audit.kind, audit.payload⟩

section

variable [Host] [Sha256] [FloatText]

omit [Host] [Sha256] [FloatText] in
theorem origin_audits {reasoner : Reasoner} (audits : List Audit)
    (left : ∀ audit ∈ audits, Origin reasoner ⟨audit.kind, audit.payload⟩) :
    Logged.Writes (Origin reasoner) (writeAudits audits) := by
  induction audits with
  | nil => exact Logged.Writes.ret ()
  | cons audit rest ih =>
      refine Logged.Writes.bind (Logged.Writes.write (left audit (.head _))) (fun _ => ?_)
      exact ih (fun other mem => left other (.tail _ mem))

theorem origin_consult (setting : Setting) (reasoner : Reasoner) (prereg : Preregistration)
    (preregSha : String) (generation : Nat) (parent : Bundle) (specs : List RolloutSpec)
    (current : List RolloutResult) : Logged.Writes (Origin reasoner)
      (consult setting reasoner prereg preregSha generation parent specs current) := by
  have table : ∀ attribution, Logged.Writes (Origin reasoner)
      (writeAttribution preregSha generation attribution) := by
    intro attribution
    cases attribution with
    | none => exact Logged.Writes.ret ()
    | some attribution =>
        have kind : "stage_attribution" ∈ campaignKinds := by decide
        exact Logged.Writes.write (Or.inl kind)
  refine Logged.Writes.bind (Logged.Writes.lift _) (fun attribution => ?_)
  refine Logged.Writes.bind (table attribution) (fun _ => ?_)
  by_cases converged : (current.map RolloutResult.success).all id = true
  · rw [if_pos converged]
    exact Logged.Writes.ret none
  · rw [if_neg converged]
    refine Logged.Writes.bind Logged.Writes.written (fun log => ?_)
    refine Logged.Writes.bind (origin_audits _ (fun audit mem => ?_)) (fun _ => Logged.Writes.lift _)
    exact Or.inr ⟨_, audit, mem, rfl⟩

omit [Host] in
theorem origin_judge (setting : Setting) (reasoner : Reasoner) (prereg : Preregistration)
    (preregSha : String) (generation : Nat) (specs : List RolloutSpec) (labels : List Bool)
    (session : Session) (rule : Rule) : Logged.Writes (Origin reasoner)
      (judge setting prereg preregSha generation specs labels session rule) := by
  rw [judge]
  refine Logged.Writes.lift_bind (fun child _ => ?_)
  refine Logged.Writes.lift_bind (fun gates _ => ?_)
  refine Logged.Writes.lift_bind (fun parentSha _ => ?_)
  refine Logged.Writes.lift_bind (fun childSha _ => ?_)
  refine Logged.Writes.lift_bind (fun next _ => ?_)
  refine Logged.Writes.lift_bind (fun form _ => ?_)
  have kind : "generation" ∈ campaignKinds := by decide
  exact Logged.Writes.bind (Logged.Writes.write (Or.inl kind)) (fun _ => Logged.Writes.ret _)

variable [Libm]

theorem origin_generationOf (setting : Setting) (reasoner : Reasoner) (prereg : Preregistration)
    (preregSha : String) (session : Session) (generation : Nat) : Logged.Writes (Origin reasoner)
      (generationOf setting reasoner prereg preregSha session generation) := by
  rw [generationOf]
  refine Logged.Writes.lift_bind (fun sized _ => ?_)
  rcases sized with ⟨next, specs⟩
  refine Logged.Writes.lift_bind (fun current _ => ?_)
  refine Logged.Writes.bind (origin_consult setting reasoner prereg preregSha generation next.bundle specs
    current) (fun candidate => ?_)
  cases candidate with
  | none => exact Logged.Writes.ret _
  | some rule => exact origin_judge setting reasoner prereg preregSha generation specs _ next rule

theorem origin_evolve (setting : Setting) (reasoner : Reasoner) (prereg : Preregistration)
    (preregSha : String) :
    Logged.Writes (Origin reasoner) (evolve setting reasoner prereg preregSha) := by
  rw [evolve]
  refine Logged.Writes.bind Logged.Writes.written (fun puts => ?_)
  refine Logged.Writes.lift_bind (fun bundle _ => ?_)
  exact Logged.Writes.iterate (origin_generationOf setting reasoner prereg preregSha) _ _

omit [Host] [Sha256] [FloatText] [Libm] in
theorem origin_finish (setting : Setting) (reasoner : Reasoner)
    (outcome : Preregistration × Session × CampaignResult) :
    Logged.Writes (Origin reasoner) (finish setting outcome) := by
  refine (writes_finish setting outcome).mono (fun put listed => ?_)
  rcases listed with ⟨final, rfl⟩
  have kind : "campaign_result" ∈ campaignKinds := by decide
  exact Or.inl kind

/-- What a campaign writes: the preregistration that it admits, then entries of the campaign and
records of its reasoner. -/
theorem writes_runCampaign (setting : Setting) (prereg : Preregistration) :
    (∃ error, admitted setting prereg = .error error ∧ (runCampaign setting prereg []).2 = []) ∨
      ∃ reasoner named rest, admitted setting prereg = .ok (reasoner, named) ∧
        (runCampaign setting prereg []).2 = ⟨"preregistration", named.hashPayload⟩ :: rest ∧
        ∀ put ∈ rest, Origin reasoner put := by
  cases admits : admitted setting prereg with
  | error error =>
      refine Or.inl ⟨error, rfl, ?_⟩
      rw [runCampaign, untilHeldout, admits]
      rfl
  | ok outcome =>
      right
      rcases outcome with ⟨reasoner, named⟩
      have tail : Logged.Writes (Origin reasoner) (do
          let session ← evolve setting reasoner named (shaJson named.hashPayload)
          let result ← Logged.lift
            (resultOf setting.installed.repertoire (shaJson named.hashPayload) session)
          finish setting (named, session, result)) := by
        refine Logged.Writes.bind (origin_evolve setting reasoner named _) (fun session => ?_)
        refine Logged.Writes.lift_bind (fun result _ => ?_)
        exact origin_finish setting reasoner _
      rcases tail [⟨"preregistration", named.hashPayload⟩] with ⟨rest, grew, origins⟩
      refine ⟨reasoner, named, rest, rfl, ?_, origins⟩
      rw [← List.singleton_append, ← grew, runCampaign, untilHeldout, admits]
      have bound (session : Session) :
          ((Logged.lift (resultOf setting.installed.repertoire (shaJson named.hashPayload) session) >>=
            fun result => Logged.ret (named, session, result)) >>= finish setting) =
          (Logged.lift (resultOf setting.installed.repertoire (shaJson named.hashPayload) session) >>=
            fun result => finish setting (named, session, result)) := Logged.bind_assoc _ _ _
      have whole := Logged.bind_assoc (evolve setting reasoner named (shaJson named.hashPayload))
        (fun session => Logged.lift (resultOf setting.installed.repertoire
          (shaJson named.hashPayload) session) >>= fun result => Logged.ret (named, session, result))
        (finish setting)
      simp only [bound] at whole
      rw [← whole]
      rfl

end

section

variable [Sha256] [FloatText]

def DigestTells (payload other : Json) : Prop :=
  shaJson payload = shaJson other → hashText payload = hashText other

omit [Sha256] in
theorem preregistration_of_hashText [Host] {prereg other : Preregistration}
    (same : hashText prereg.hashPayload = hashText other.hashPayload) : prereg = other := by
  have values := print_injective (proper_sortKeys (proper_hashPayload prereg))
    (proper_sortKeys (proper_hashPayload other)) (String.ofList_injective same)
  have rebuilt := rebuildPreregistration_stored prereg
  rw [values, rebuildPreregistration_stored other] at rebuilt
  exact (Except.ok.inj rebuilt).symm

end

namespace LlmReasoner

/-- Reasoners that are configured in one way, but for the parameters of the endpoint. -/
structure Twin (llm other : LlmReasoner) : Prop where
  ref : llm.ref = other.ref
  base : llm.base = other.base
  attempts : llm.attempts = other.attempts
  decode : llm.decode = other.decode

section

variable [Host] [FloatText] [Scanner] [Numpy]

/-- The campaign with this reasoner. -/
def asked (setting : Setting) (llm : LlmReasoner) (server : Server) (briefs : Nat → Brief)
    (endpoint : Endpoint) : Setting :=
  { setting with reasoner := some (llm.serving setting.installed server briefs endpoint) }

variable [Sha256] [Libm] (llm : LlmReasoner) (endpoint : Endpoint)

/-- Every proposal is recorded under the reasoner of the preregistration that was sealed. -/
def SealsProposer : Prop :=
  ∀ (setting : Setting) (server : Server) (briefs : Nat → Brief) (prereg : Preregistration),
    ∀ put ∈ (runCampaign (asked setting llm server briefs endpoint) prereg []).2,
      put.kind = "model_proposal" →
        ∃ (named : Preregistration) (identity : String),
          (runCampaign (asked setting llm server briefs endpoint) prereg []).2.head? =
              some ⟨"preregistration", named.hashPayload⟩ ∧
            named.reasoner = some identity ∧ put.payload.get? "identity" = some (.str identity)

/-- Campaigns that differ in the model of their requests only seal different digests. -/
def TellsModels : Prop :=
  ∀ (other : LlmReasoner) (setting : Setting) (server server_ : Server) (endpoint_ : Endpoint)
    (briefs briefs_ : Nat → Brief) (prereg : Preregistration) (model model_ : Option String)
    (put put_ : Put),
    Twin llm other → endpoint_.model.isSome = endpoint.model.isSome →
      endpoint.resolved server = .ok model → endpoint_.resolved server_ = .ok model_ →
        model ≠ model_ →
          (runCampaign (asked setting llm server briefs endpoint) prereg []).2.head? = some put →
            (runCampaign (asked setting other server_ briefs_ endpoint_) prereg []).2.head? = some put_ →
              DigestTells put.payload put_.payload → shaJson put.payload ≠ shaJson put_.payload

/-- The preregistration names the model that proposes. -/
structure NamesModel : Prop where
  seals : SealsProposer llm endpoint
  tells : TellsModels llm endpoint

/-! ## Where the model is known -/

variable {llm endpoint} {setting : Setting} {server : Server} {briefs : Nat → Brief}
  {prereg : Preregistration}

omit [Host] [Numpy] [Sha256] [Libm] [Scanner] in
theorem identity_not_blank : strip (llm.identity endpoint).toList ≠ [] := by
  intro blank
  rcases Protocol.exists_lstrip (llm.identity endpoint).toList with ⟨before, spaces, whole⟩
  rcases Protocol.exists_rstrip (lstrip (llm.identity endpoint).toList) with ⟨behind, spaces_, rest⟩
  rw [strip] at blank
  rw [blank, List.nil_append] at rest
  rw [rest] at whole
  have letter : 'l' ∈ (llm.identity endpoint).toList := by
    rw [identity, String.toList_append]
    apply List.mem_append_left
    decide
  rw [whole] at letter
  exact (List.mem_append.mp letter).elim (fun mem => absurd (spaces _ mem) (by decide))
    (fun mem => absurd (spaces_ _ mem) (by decide))

omit [Sha256] [Libm] in
theorem admitted_asked {reasoner : Reasoner} {named : Preregistration}
    (admits : admitted (asked setting llm server briefs endpoint) prereg = .ok (reasoner, named)) :
    reasoner = llm.serving setting.installed server briefs endpoint ∧
      named = prereg.proposedBy (llm.identity endpoint) := by
  unfold admitted at admits
  split at admits
  · cases admits
  · rename_i asked_ given_
    cases given_
    split at admits
    · cases admits
    · split at admits
      · cases admits
      · rename_i identity kept
        cases (Option.filter_eq_some_iff.mp kept).1
        cases admits
        exact ⟨rfl, rfl⟩

theorem writes_asked : (runCampaign (asked setting llm server briefs endpoint) prereg []).2 = [] ∨
    ∃ rest, (runCampaign (asked setting llm server briefs endpoint) prereg []).2 =
        ⟨"preregistration", (prereg.proposedBy (llm.identity endpoint)).hashPayload⟩ :: rest ∧
      ∀ put ∈ rest, Origin (llm.serving setting.installed server briefs endpoint) put := by
  rcases writes_runCampaign (asked setting llm server briefs endpoint) prereg with
    ⟨_, _, none_⟩ | ⟨reasoner, named, rest, admits, puts, origins⟩
  · exact Or.inl none_
  · rcases admitted_asked admits with ⟨rfl, rfl⟩
    exact Or.inr ⟨rest, puts, origins⟩

omit [Sha256] [Libm] in
theorem identity_of_origin {put : Put} (kind : put.kind = "model_proposal")
    (origin : Origin (llm.serving setting.installed server briefs endpoint) put) :
    ∃ generation, put.payload.get? "identity" =
      some (.str (llm.identity (llm.after setting.installed server briefs endpoint generation))) := by
  rcases origin with own | ⟨brief, record, mem, rfl⟩
  · rw [kind] at own
    exact absurd own own_model_proposal
  · rcases List.mem_map.mp mem with ⟨sealing, sealed, rfl⟩
    refine ⟨brief.generation - 1, ?_⟩
    rw [← sealed_propose _ _ sealing sealed]
    rfl

theorem sealsProposer (known : endpoint.model.isSome = true) : SealsProposer llm endpoint := by
  intro setting server briefs prereg put mem kind
  rcases @writes_asked _ _ _ _ _ _ llm endpoint setting server briefs prereg with none_ | ⟨rest, puts, origins⟩
  · rw [none_] at mem
    exact absurd mem List.not_mem_nil
  · refine ⟨prereg.proposedBy (llm.identity endpoint), llm.identity endpoint, ?_, rfl, ?_⟩
    · rw [puts]
      rfl
    · rw [puts] at mem
      rcases List.mem_cons.mp mem with rfl | later
      · have kinds : "preregistration" ≠ "model_proposal" := by decide
        exact absurd kind kinds
      · rcases identity_of_origin kind (origins put later) with ⟨generation, named⟩
        rw [named, identity_congr (model_after known generation)]

omit [Scanner] [Numpy] [Sha256] [Libm] [Host] in
theorem identity_apart {other : LlmReasoner} {endpoint_ : Endpoint} {model model_ : String}
    (twin : Twin llm other) (named : endpoint.model = some model) (named_ : endpoint_.model = some model_)
    (apart : model ≠ model_) : llm.identity endpoint ≠ other.identity endpoint_ := by
  intro same
  have one := (endpointIdentity_eq_iff twin.base endpoint endpoint_).mp (endpointIdentity_of_identity same)
  rw [named, named_] at one
  exact apart one

theorem head_asked {put : Put}
    (first : (runCampaign (asked setting llm server briefs endpoint) prereg []).2.head? = some put) :
    put = ⟨"preregistration", (prereg.proposedBy (llm.identity endpoint)).hashPayload⟩ := by
  rcases @writes_asked _ _ _ _ _ _ llm endpoint setting server briefs prereg with none_ | ⟨rest, puts, _⟩
  · rw [none_] at first
    cases first
  · rw [puts] at first
    exact (Option.some.inj first).symm

theorem tellsModels (known : endpoint.model.isSome = true) : TellsModels llm endpoint := by
  intro other setting server server_ endpoint_ briefs briefs_ prereg model model_ put put_ twin as_
    answers answers_ apart first first_ tells same
  rcases Option.isSome_iff_exists.mp known with ⟨name, named⟩
  rcases Option.isSome_iff_exists.mp (as_.trans known) with ⟨name_, named_⟩
  have here : model = some name := by
    rw [Endpoint.resolved, named] at answers
    exact (Except.ok.inj answers).symm
  have there : model_ = some name_ := by
    rw [Endpoint.resolved, named_] at answers_
    exact (Except.ok.inj answers_).symm
  rw [head_asked first, head_asked first_] at tells same
  have one := congrArg Preregistration.reasoner (preregistration_of_hashText (tells same))
  refine identity_apart twin named named_ ?_ (Option.some.inj one)
  intro equal
  exact apart (by rw [here, there, equal])

def naming (name : String) : Server where
  names := fun _ => .ok (some name)
  reply := fun _ _ _ => .ok ⟨"", .null, .null, trivial, trivial⟩

theorem head_small : (runCampaign (asked smallSetting llm server briefs endpoint)
    smallPreregistration []).2.head? =
      some ⟨"preregistration", (smallPreregistration.proposedBy (llm.identity endpoint)).hashPayload⟩ := by
  rcases writes_runCampaign (asked smallSetting llm server briefs endpoint) smallPreregistration with
    ⟨error, refused, _⟩ | ⟨reasoner, named, rest, admits, puts, _⟩
  · have kept : (some (llm.identity endpoint)).filter (fun identity => strip identity.toList ≠ []) =
        some (llm.identity endpoint) := Option.filter_some_pos (decide_eq_true identity_not_blank)
    have admits : admitted (asked smallSetting llm server briefs endpoint) smallPreregistration =
        .ok (llm.serving smallSetting.installed server briefs endpoint,
          smallPreregistration.proposedBy (llm.identity endpoint)) := by
      unfold admitted
      dsimp only [asked, serving]
      rw [kept]
      rfl
    cases refused.symm.trans admits
  · rw [puts, (admitted_asked admits).2]
    rfl

theorem not_tellsModels (unknown : endpoint.model = none) : ¬ TellsModels llm endpoint := by
  intro tells
  have resolved (name : String) : endpoint.resolved (naming name) = .ok (some name) := by
    rw [Endpoint.resolved, unknown]
    rfl
  refine tells llm smallSetting (naming "a") (naming "b") endpoint
    (fun _ => gapBrief oneGap oneGap [true, false]) (fun _ => gapBrief oneGap oneGap [true, false])
    smallPreregistration _ _ _ _ ⟨rfl, rfl, rfl, rfl⟩ rfl (resolved "a") (resolved "b") ?_ head_small
    head_small (fun _ => rfl) rfl
  decide

/-- The preregistration names the model that proposes exactly where the endpoint has a model when
the campaign starts. -/
theorem namesModel_iff (llm : LlmReasoner) (endpoint : Endpoint) :
    NamesModel llm endpoint ↔ endpoint.model.isSome = true := by
  constructor
  · intro names
    cases known : endpoint.model with
    | none => exact absurd names.tells (not_tellsModels known)
    | some model => rfl
  · intro known
    exact ⟨sealsProposer known, tellsModels known⟩

end

section

local instance namedHost : Host := asciiHost

local instance namedFloats : FloatText := exactDecimals

local instance namedScanner : Scanner := verdictScanner

local instance namedNumpy : Numpy := verdictNumpy

local instance namedSha : Sha256 := sha256

local instance namedLibm : Libm := productPow

/-- After its first proposal the reasoner of an endpoint without a model has another identity than
the one that was sealed. -/
theorem unnamed_model : ¬ NamesModel quietModel ⟨none, 0⟩ ∧
    quietModel.identity (quietModel.propose gapInstalled listServer ⟨none, 0⟩
      (gapBrief oneGap oneGap [true, false])).endpoint ≠ quietModel.identity ⟨none, 0⟩ := by
  refine ⟨fun names => not_tellsModels rfl names.tells, fun same => ?_⟩
  have traces : ∀ trace ∈ (gapBrief oneGap oneGap [true, false]).traces, trace ≠ [] := by
    intro trace member
    rcases List.mem_cons.mp member with rfl | member
    · exact List.cons_ne_nil _ _
    · cases List.mem_singleton.mp member
      exact List.cons_ne_nil _ _
  have made : Returns (quietModel.context gapInstalled ⟨none, 0⟩ (gapBrief oneGap oneGap [true, false])) :=
    (returns_context_iff (recorded_gap oneGap (Or.inr rfl) _) rfl (by decide)).mpr
      ⟨traces, Or.inr (by decide)⟩
  rcases made with ⟨context, made⟩
  have asked_ : quietModel.propose gapInstalled listServer ⟨none, 0⟩ (gapBrief oneGap oneGap [true, false]) =
      quietModel.ask gapInstalled listServer context 2 0 [] [] ⟨none, 0⟩ := by
    have some_ : (gapBrief oneGap oneGap [true, false]).traces ≠ [] := List.cons_ne_nil _ _
    rw [propose, if_neg some_, made]
    rfl
  have model : (quietModel.propose gapInstalled listServer ⟨none, 0⟩
      (gapBrief oneGap oneGap [true, false])).endpoint.model = some "m" := by
    rw [asked_]
    exact model_ask_first rfl
  have one := (endpointIdentity_eq_iff rfl _ _).mp (endpointIdentity_of_identity same)
  rw [model] at one
  have apart : "m" ≠ "None" := by decide
  exact apart one

end

end LlmReasoner

end Rsi
end PhysicalHarness
