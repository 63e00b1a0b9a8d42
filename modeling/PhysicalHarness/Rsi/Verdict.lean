import PhysicalHarness.Rsi.Audit
import PhysicalHarness.Rsi.HeldOut
import PhysicalHarness.Rsi.LlmReasoner

namespace PhysicalHarness
namespace Rsi
namespace LlmReasoner

open Python Harness JsonText Fallible
open PhysicalHarness.Runtime (Scanner Raised scanned Limit)

/-!
# A call of the reasoner ends in a verdict

Every reply is an abstention, a rule or a rejection, but for one that nests too deeply to be read.
The evidence is made before the first request, outside of what is caught: it compares the episodes
that succeeded with those that failed, and reads the length of every trace.  So a verdict is reached
exactly where some episode has succeeded and none has left an empty trace.
-/

/-! ## The series of an episode -/

theorem accumulate_ne_nil (combine : Double → Double → Double) {series : List Double}
    (some_ : series ≠ []) : accumulate combine series ≠ [] := by
  rcases List.exists_cons_of_ne_nil some_ with ⟨first, rest, rfl⟩
  exact List.scanl_ne_nil

theorem reduceSeries_ne_nil {series : List Double} (some_ : series ≠ []) (reducer : Reducer) :
    reduceSeries series reducer ≠ [] := by
  cases reducer with
  | value => exact some_
  | min => exact accumulate_ne_nil minimum some_
  | max => exact accumulate_ne_nil maximum some_
  | range =>
      intro empty
      rcases List.zipWith_eq_nil_iff.mp empty with high | low
      · exact accumulate_ne_nil maximum some_ high
      · exact accumulate_ne_nil minimum some_ low

theorem le_foldl_max (start : Nat) (lengths : List Nat) :
    start ≤ lengths.foldl max start ∧ ∀ length ∈ lengths, length ≤ lengths.foldl max start := by
  induction lengths generalizing start with
  | nil => exact ⟨le_rfl, List.forall_mem_nil _⟩
  | cons first rest ih =>
      rcases ih (max start first) with ⟨begin_, each⟩
      refine ⟨(Nat.le_max_left start first).trans begin_, ?_⟩
      intro length mem
      rcases List.mem_cons.mp mem with rfl | later
      · exact (Nat.le_max_right start length).trans begin_
      · exact each length later

variable {series : List (List Double)}

theorem width_pos (some_ : series ≠ []) (each : ∀ real ∈ series, real ≠ []) : 0 < width series := by
  rcases List.exists_mem_of_ne_nil series some_ with ⟨real, mem⟩
  exact (List.length_pos_iff.mpr (each real mem)).trans_le
    ((le_foldl_max 0 _).2 _ (List.mem_map_of_mem mem))

theorem returns_padded (steps : Nat) {series : List Double} (some_ : series ≠ []) :
    ∃ row, padded steps series = .ok row := by
  rw [padded]
  split
  · rw [List.getLast?_eq_some_getLast some_]
    exact ⟨_, rfl⟩
  · exact ⟨_, rfl⟩

theorem returns_align (some_ : series ≠ []) (each : ∀ real ∈ series, real ≠ []) :
    ∃ aligned, align series = .ok aligned ∧ 0 < aligned.valid.length := by
  rcases returns_mapM_iff.mpr (fun real mem => returns_padded (width series) (each real mem)) with
    ⟨rows, made⟩
  let aligned : Aligned := ⟨rows, (List.range (width series)).map (fun step =>
    series.countP (fun real => decide (step < real.length)))⟩
  have whole : align series = .ok aligned := by
    rw [align, if_neg some_]
    exact map_eq_ok.mpr ⟨rows, made, rfl⟩
  have long : aligned.valid.length = width series := by
    rw [List.length_map, List.length_range]
  exact ⟨aligned, whole, long ▸ width_pos some_ each⟩

theorem ne_nil_of_align {aligned : Aligned} (made : align series = .ok aligned) : series ≠ [] := by
  intro empty
  rw [align, if_pos empty] at made
  cases made

theorem mem_labelled {α : Type} {success : Bool} {columns : List α} {labels : List Bool} {item : α}
    (mem : item ∈ labelled success columns labels) : item ∈ columns := by
  rcases List.mem_map.mp mem with ⟨pair, kept, rfl⟩
  exact (List.of_mem_zip (List.mem_filter.mp kept).1).1

theorem labelled_ne_nil_iff {α : Type} {success : Bool} {columns : List α} {labels : List Bool}
    (lengths : columns.length = labels.length) : labelled success columns labels ≠ [] ↔ success ∈ labels := by
  rw [labelled, Ne, List.map_eq_nil_iff, List.filter_eq_nil_iff]
  constructor
  · intro some_
    by_contra none_
    apply some_
    intro pair mem
    rw [beq_iff_eq]
    rintro rfl
    exact none_ (List.of_mem_zip mem).2
  · intro mem none_
    rcases List.getElem_of_mem mem with ⟨place, inside, at_⟩
    have inside_ : place < columns.length := lengths ▸ inside
    have listed : (columns[place], labels[place]) ∈ columns.zip labels := by
      rw [← List.getElem_zip (h := by rw [List.length_zip]; omega)]
      exact List.getElem_mem _
    apply none_ _ listed
    rw [beq_iff_eq]
    exact at_

/-- What the traces of one executor call are: empty, or a series for each of the same features, with
an entry for each step. -/
def Recorded (traces : List (List (String × List Double))) : Prop :=
  ∃ names, ∀ trace ∈ traces, trace ≠ [] →
    Assoc.keys trace = names ∧ ∀ entry ∈ trace, entry.2 ≠ []

/-- The traces of segments under one bundle are recorded so. -/
theorem recorded_of_segments [Sha256] [FloatText] {World Obs Action Goal Actor : Type}
    {registry : Registry} {bundle : Option Bundle} {segments : List (Segment Obs)}
    (each : ∀ segment ∈ segments, ∃ plant : Plant World Obs Action Goal Actor, ∃ spec world obs budget,
      governedSegment registry plant spec bundle world obs budget = .ok segment) :
    Recorded (segments.map Segment.trace) := by
  refine ⟨registry.admitted (criticBudget bundle), ?_⟩
  intro trace mem some_
  rcases List.mem_map.mp mem with ⟨segment, listed, rfl⟩
  rcases each segment listed with ⟨plant, spec, world, obs, budget, ran⟩
  rcases follow_of_segment ran with ⟨views, last, shown, followed, _, trace, _⟩
  have unique := registry.nodup_admitted (criticBudget bundle)
  have views_ : views ≠ [] := by
    rintro rfl
    cases followed
    exact some_ trace
  have keys := keys_history_of_follow shown followed unique rfl views_
  rw [trace]
  refine ⟨keys, ?_⟩
  intro entry inside empty
  have unique_ : (Assoc.keys last.history).Nodup := keys ▸ unique
  have found := Assoc.get?_of_mem unique_ inside
  have admitted : entry.1 ∈ registry.admitted (criticBudget bundle) :=
    keys ▸ Assoc.mem_keys_of_get? found
  have whole := history_of_follow shown followed unique admitted
  rw [found, empty] at whole
  exact views_ (List.map_eq_nil_iff.mp whole.symm)

theorem returns_column {name : String} {trace : List (String × List Double)}
    (known : name ∈ Assoc.keys trace) (each : ∀ entry ∈ trace, entry.2 ≠ []) :
    ∃ series, column name trace = .ok series ∧ series ≠ [] := by
  rcases Assoc.get?_of_mem_keys known with ⟨series, found⟩
  refine ⟨series, ?_, each _ (Assoc.mem_of_get? found)⟩
  rw [column, found]

/-! ## The evidence -/

section

variable [Numpy]

theorem returns_divergence {columns : List (List Double)} {labels : List Bool}
    (lengths : columns.length = labels.length) (each : ∀ real ∈ columns, real ≠ [])
    (succeeded : true ∈ labels) (failed : false ∈ labels) : Returns (divergence columns labels) := by
  have group (success : Bool) (mem : success ∈ labels) :
      ∃ aligned, align (labelled success columns labels) = .ok aligned ∧ 0 < aligned.valid.length :=
    returns_align ((labelled_ne_nil_iff lengths).mpr mem) (fun real inside =>
      each real (mem_labelled inside))
  rcases group true succeeded with ⟨ok, good, long⟩
  rcases group false failed with ⟨bad, poor, _⟩
  have some_ : max ok.valid.length bad.valid.length ≠ 0 := by omega
  have peak : peakOf ok bad = .ok (Numpy.peak ok bad) := by rw [peakOf, if_neg some_]
  exact returns_bind.mpr ⟨ok, good, returns_bind.mpr ⟨bad, poor, _, peak⟩⟩

theorem succeeded_of_divergence {columns : List (List Double)} {labels : List Bool}
    (lengths : columns.length = labels.length) (returned : Returns (divergence columns labels)) :
    true ∈ labels := by
  rcases returned with ⟨peak, ran⟩
  rcases of_bind ran with ⟨ok, good, _⟩
  exact (labelled_ne_nil_iff lengths).mp (ne_nil_of_align good)

section

variable {traces : List (List (String × List Double))} {labels : List Bool} {name : String}

omit [Numpy] in
theorem returns_columns (known : ∀ trace ∈ traces, name ∈ Assoc.keys trace)
    (each : ∀ trace ∈ traces, ∀ entry ∈ trace, entry.2 ≠ []) :
    ∃ columns, traces.mapM (column name) = .ok columns ∧ columns.length = traces.length ∧
      ∀ series ∈ columns, series ≠ [] := by
  have one (trace : List (String × List Double)) (mem : trace ∈ traces) :=
    returns_column (known trace mem) (each trace mem)
  rcases returns_mapM_iff.mpr (fun trace mem => ⟨_, (one trace mem).choose_spec.1⟩) with
    ⟨columns, made⟩
  refine ⟨columns, made, (mapM_eq_ok_iff.mp made).length_eq.symm, ?_⟩
  intro series mem
  rcases exists_mem_of_mapM made mem with ⟨trace, listed, read⟩
  rcases one trace listed with ⟨other, read_, some_⟩
  cases read.symm.trans read_
  exact some_

theorem returns_separation (lengths : traces.length = labels.length)
    (known : ∀ trace ∈ traces, name ∈ Assoc.keys trace)
    (each : ∀ trace ∈ traces, ∀ entry ∈ trace, entry.2 ≠ [])
    (succeeded : true ∈ labels) (failed : false ∈ labels) (reducer : Reducer) :
    Returns (separation traces labels name reducer) := by
  rcases returns_columns known each with ⟨columns, made, long, some_⟩
  have reduced : ∀ series ∈ columns.map (fun series => reduceSeries series reducer), series ≠ [] := by
    intro series mem
    rcases List.mem_map.mp mem with ⟨real, listed, rfl⟩
    exact reduceSeries_ne_nil (some_ real listed) reducer
  have long_ : (columns.map (fun series => reduceSeries series reducer)).length = labels.length := by
    rw [List.length_map, long, lengths]
  rcases returns_divergence long_ reduced succeeded failed with ⟨peak, found⟩
  exact ⟨_, bind_eq_ok.mpr ⟨columns, made, bind_eq_ok.mpr ⟨peak, found, rfl⟩⟩⟩

theorem succeeded_of_separation (lengths : traces.length = labels.length) {reducer : Reducer}
    (returned : Returns (separation traces labels name reducer)) : true ∈ labels := by
  rcases returned with ⟨entry, ran⟩
  rcases of_bind ran with ⟨columns, made, ran⟩
  rcases of_bind ran with ⟨peak, found, _⟩
  apply succeeded_of_divergence _ ⟨peak, found⟩
  rw [List.length_map, ← (mapM_eq_ok_iff.mp made).length_eq, lengths]

end

omit [Numpy] in
theorem known_of_offered {registry : Registry} {privilegeBudget : Int}
    {traces : List (List (String × List Double))} {name : String}
    (recorded : Recorded traces) (full : ∀ trace ∈ traces, trace ≠ [])
    (chosen : name ∈ offered registry privilegeBudget traces) :
    ∀ trace ∈ traces, name ∈ Assoc.keys trace := by
  rcases recorded with ⟨names, each⟩
  have listed := of_decide_eq_true (List.mem_filter.mp chosen).2
  cases traces with
  | nil => exact List.forall_mem_nil _
  | cons first rest =>
      have first_ : first ∈ first :: rest := .head _
      have keys := (each first first_ (full first first_)).1
      have inside : name ∈ Assoc.keys first := listed
      intro trace mem
      rw [(each trace mem (full trace mem)).1, ← keys]
      exact inside

variable {traces : List (List (String × List Double))} {labels : List Bool} {names : List String}

theorem returns_separations (lengths : traces.length = labels.length)
    (known : ∀ name ∈ names, ∀ trace ∈ traces, name ∈ Assoc.keys trace)
    (each : ∀ trace ∈ traces, ∀ entry ∈ trace, entry.2 ≠ [])
    (succeeded : true ∈ labels) (failed : false ∈ labels) :
    Returns (separations names traces labels) := by
  apply returns_map.mpr
  rw [returns_mapM_iff]
  intro name chosen
  rw [returns_mapM_iff]
  intro reducer _
  exact returns_separation lengths (known name chosen) each succeeded failed reducer

theorem succeeded_of_separations (lengths : traces.length = labels.length) {name : String}
    (chosen : name ∈ names) (returned : Returns (separations names traces labels)) : true ∈ labels := by
  have each := returns_mapM_iff.mp (returns_map.mp returned) name chosen
  exact succeeded_of_separation lengths (returns_mapM_iff.mp each .value (.head _))

omit [Numpy] in
theorem returns_firstLength_iff (trace : List (String × List Double)) :
    Returns (firstLength trace) ↔ trace ≠ [] := by
  cases trace with
  | nil => exact iff_of_false (not_returns_error _) (fun some_ => some_ rfl)
  | cons entry rest => exact iff_of_true ⟨_, rfl⟩ (List.cons_ne_nil _ _)

omit [Numpy] in
theorem returns_mapError {ε ε' α : Type} {run : Except ε α} {turn : ε → ε'} :
    Returns (run.mapError turn) ↔ Returns run := by
  cases run with
  | error error => exact iff_of_false (not_returns_error _) (not_returns_error _)
  | ok value => exact iff_of_true ⟨value, rfl⟩ ⟨value, rfl⟩

variable [FloatText] {llm : LlmReasoner} {installed : Installed} {endpoint : Endpoint}
  {brief : Brief}

theorem returns_context_iff (recorded : Recorded brief.traces)
    (lengths : brief.traces.length = brief.labels.length) (failed : false ∈ brief.labels) :
    Returns (llm.context installed endpoint brief) ↔ (∀ trace ∈ brief.traces, trace ≠ []) ∧
      (offered installed.registry brief.prereg.criticBudget brief.traces = [] ∨ true ∈ brief.labels) := by
  constructor
  · intro returned
    rcases returns_bind.mp returned with ⟨evidence, made, returned⟩
    rcases returns_bind.mp returned with ⟨values, _, returned⟩
    rcases returns_bind.mp returned with ⟨counts, counted, _⟩
    have full := returns_mapM_iff.mp ⟨counts, counted⟩
    refine ⟨fun trace mem => (returns_firstLength_iff trace).mp (full trace mem), ?_⟩
    have stats := returns_map.mp (returns_mapError.mp ⟨evidence, made⟩)
    cases names : offered installed.registry brief.prereg.criticBudget brief.traces with
    | nil => exact Or.inl rfl
    | cons name rest =>
        rw [names] at stats
        exact Or.inr (succeeded_of_separations lengths (.head _) stats)
  · rintro ⟨full, compared⟩
    have known (name : String)
        (chosen : name ∈ offered installed.registry brief.prereg.criticBudget brief.traces) :=
      known_of_offered recorded full chosen
    have each : ∀ trace ∈ brief.traces, ∀ entry ∈ trace, entry.2 ≠ [] := by
      rcases recorded with ⟨names, each⟩
      exact fun trace mem => (each trace mem (full trace mem)).2
    have stats : Returns (separations (offered installed.registry brief.prereg.criticBudget brief.traces)
        brief.traces brief.labels) := by
      rcases compared with none_ | succeeded
      · rw [none_]
        exact ⟨_, rfl⟩
      · exact returns_separations lengths known each succeeded failed
    have values : Returns ((offered installed.registry brief.prereg.criticBudget brief.traces).mapM
        (observed brief.traces brief.labels)) := by
      rw [returns_mapM_iff]
      intro name chosen
      rcases returns_columns (known name chosen) each with ⟨columns, made, _⟩
      exact returns_map.mpr ⟨columns, made⟩
    have counts : Returns (brief.traces.mapM firstLength) := by
      rw [returns_mapM_iff]
      exact fun trace mem => (returns_firstLength_iff trace).mpr (full trace mem)
    have brief_ : Returns ((buildBrief llm.doc installed.registry brief.traces brief.labels
        brief.generation brief.prereg.criticBudget brief.strategies).mapError Escape.python) :=
      returns_mapError.mpr (returns_map.mpr stats)
    have values_ : Returns (((offered installed.registry brief.prereg.criticBudget brief.traces).mapM
        (observed brief.traces brief.labels)).mapError Escape.python) := returns_mapError.mpr values
    rcases brief_ with ⟨evidence, made⟩
    rcases values_ with ⟨values, read⟩
    rcases counts with ⟨counts, counted⟩
    exact returns_bind.mpr ⟨evidence, made, returns_bind.mpr ⟨values, read,
      returns_bind.mpr ⟨counts, counted, _, rfl⟩⟩⟩

end

section

variable [Host] [FloatText] [Scanner] {llm : LlmReasoner} {installed : Installed} {context : Context}

variable {error : PyError} {payload : Json}

omit [FloatText] [Scanner] in
theorem caught_of_parseProposal {registry : Registry} {generation : Int} {privilegeBudget : Int}
    {strategies : List String} {sensorSd : Double} {nSteps : Int}
    (raised : Governor.parseProposal registry (.value payload) generation
      privilegeBudget strategies sensorSd nSteps = .error error) : caught error = true := by
  have decoded : Governor.decodeProposal (.value payload) = .ok payload := rfl
  rcases Governor.refused_or_escapes decoded raised with ⟨text, rfl⟩ | escapes
  · rfl
  · rcases @Governor.raised_of_escapes _ registry generation privilegeBudget nSteps strategies
        sensorSd _ _ decoded escapes with ⟨other, raised_, kind⟩
    cases raised.symm.trans raised_
    rcases kind with rfl | rfl
    · rfl
    · rfl

omit [Host] [FloatText] [Scanner] in
theorem caught_of_abstention {reason : Json} (raised : abstention reason = .error error) :
    caught error = true := by
  cases reason with
  | str text =>
      rw [abstention] at raised
      split at raised
      · cases raised
        rfl
      · cases raised
  | _ => cases raised; rfl

omit [Host] [FloatText] [Scanner] in
theorem abstained_of_abstention {reason : Json} {reading : Reading}
    (returned : abstention reason = .ok reading) : ∃ text, reading = .abstained text := by
  cases reason with
  | str text =>
      rw [abstention] at returned
      split at returned
      · cases returned
      · cases returned
        exact ⟨text, rfl⟩
  | _ => cases returned

omit [Host] [FloatText] [Scanner] in
theorem caught_of_checkFeature (raised : checkFeature context payload = .error error) :
    caught error = true := by
  rw [checkFeature] at raised
  split at raised
  · rcases bind_eq_error.mp raised with unhashable | ⟨_, _, raised⟩
    · rw [Python.hashed] at unhashable
      split at unhashable
      · cases unhashable
      · cases unhashable
        rfl
    · split at raised
      · cases raised
      · cases raised
        rfl
  · cases raised

omit [FloatText] [Scanner] in
theorem caught_of_judge (raised : judge installed context payload = .error error) :
    caught error = true := by
  rw [judge] at raised
  split at raised
  · exact caught_of_abstention raised
  · rcases bind_eq_error.mp raised with feature | ⟨_, _, parsed⟩
    · exact caught_of_checkFeature feature
    · rcases map_eq_error.mp parsed with parsed
      exact caught_of_parseProposal parsed

omit [FloatText] [Scanner] in
theorem judge_eq_ok {reading : Reading} (judged : judge installed context payload = .ok reading) :
    (∃ reason, reading = .abstained reason) ∨
      ∃ rule, reading = .proposed rule ∧
        Governor.parseProposal installed.registry (.value payload) context.ruleIndex
          context.prereg.criticBudget context.strategies context.prereg.recoverySensorSd
          context.nSteps = .ok rule := by
  rw [judge] at judged
  split at judged
  · exact Or.inl (abstained_of_abstention judged)
  · rcases of_bind judged with ⟨_, _, parsed⟩
    rcases map_eq_ok.mp parsed with ⟨rule, made, rfl⟩
    exact Or.inr ⟨rule, rfl, made⟩

/-- A reply escapes where it nests too deeply, and nowhere else; a rule comes from the parser. -/
theorem read_cases (content : String) :
    (Scanner.limit content.toList = some .depth ∧
        llm.read installed context content = .escapes .recursionError) ∨
      (Scanner.limit content.toList ≠ some .depth ∧
        ((∃ reason, llm.read installed context content = .abstained reason) ∨
          (∃ text, llm.read installed context content = .rejected text) ∨
          ∃ rule payload, llm.read installed context content = .proposed rule ∧
            Governor.parseProposal installed.registry (.value payload) context.ruleIndex
              context.prereg.criticBudget context.strategies context.prereg.recoverySensorSd
              context.nSteps = .ok rule)) := by
  rcases Runtime.scanned_cases content.toList (loads content.toList) with
    ⟨deep, same⟩ | ⟨shallow, ⟨payload, _, _, same⟩ | ⟨_, same⟩⟩
  · have reads : llm.read installed context content = .escapes .recursionError := by
      rw [LlmReasoner.read, same]
    exact Or.inl ⟨deep, reads⟩
  · have reads : llm.read installed context content = llm.settle (judge installed context payload) := by
      rw [LlmReasoner.read, same]
    rw [reads]
    refine Or.inr ⟨shallow, ?_⟩
    cases judged : judge installed context payload with
    | error raised =>
        have rejected : llm.settle (.error raised) = .rejected (llm.wording raised) :=
          if_pos (caught_of_judge judged)
        exact Or.inr (Or.inl ⟨_, rejected⟩)
    | ok reading =>
        rcases judge_eq_ok judged with ⟨reason, rfl⟩ | ⟨rule, rfl, parsed⟩
        · exact Or.inl ⟨reason, rfl⟩
        · exact Or.inr (Or.inr ⟨rule, payload, rfl, parsed⟩)
  · have reads : llm.read installed context content =
        .rejected (llm.wording (.valueError (Scanner.complaint content.toList))) := by
      rw [LlmReasoner.read, same]
      exact if_pos rfl
    exact Or.inr ⟨shallow, Or.inr (Or.inl ⟨_, reads⟩)⟩

end

/-- The server answers every request. -/
structure Server.Answers (server : Server) : Prop where
  names : ∀ count, Returns (server.names count)
  reply : ∀ count model messages, Returns (server.reply count model messages)

theorem chat_of_answers {server : Server} (answers : server.Answers) (messages : Json)
    (endpoint : Endpoint) : ∃ answer model,
      endpoint.chat server messages = (.ok answer, ⟨model, endpoint.requests + 1⟩) := by
  rw [Endpoint.chat, Endpoint.resolved]
  cases endpoint.model with
  | some model =>
      rcases answers.reply endpoint.requests (some model) messages with ⟨answer, replied⟩
      simp only []
      rw [replied]
      exact ⟨answer, some model, rfl⟩
  | none =>
      rcases answers.names endpoint.requests with ⟨model, named⟩
      rcases answers.reply endpoint.requests model messages with ⟨answer, replied⟩
      simp only []
      rw [named]
      simp only []
      rw [replied]
      exact ⟨answer, model, rfl⟩

section

variable [Host]

def Accepted (installed : Installed) (context : Context) (form : Json) : Prop :=
  ∃ rule payload, Governor.parseProposal installed.registry (.value payload) context.ruleIndex
      context.prereg.criticBudget context.strategies context.prereg.recoverySensorSd context.nSteps =
        .ok rule ∧
    rule.canonical installed.repertoire = .ok form

/-- A call that ends in a verdict, with at most so many requests. -/
structure Concludes (installed : Installed) (context : Context) (before attempts : Nat)
    (outcome : Outcome) : Prop where
  verdict : ∃ result sealing, outcome.result = .ok result ∧ outcome.puts = [sealing] ∧
    sealing.status = result.status ∧ result.status ∈ ["proposed", "abstained", "rejected"] ∧
    ∀ form, result.rule = some form → Accepted installed context form
  few : outcome.endpoint.requests ≤ before + attempts

variable {installed : Installed} {context : Context}

omit [Host] in
theorem returns_canonical {rule : Rule} {strategies : List String}
    (known : ∀ name ∈ strategies, Returns (installed.repertoire.strategy name))
    (listed : rule.recovery.name ∈ strategies) : Returns (rule.canonical installed.repertoire) := by
  apply returns_map.mpr
  rw [RecoverySpec.steps]
  cases rule.recovery.program with
  | none => exact known _ listed
  | some program => exact ⟨_, rfl⟩

theorem concludes_finish {before attempts : Nat} {rows : List Row} {rejections : List String}
    {endpoint : Endpoint} {status reason : String} (few : endpoint.requests ≤ before + attempts)
    (listed : status ∈ ["proposed", "abstained", "rejected"]) :
    Concludes installed context before attempts
      (finish installed context rows rejections endpoint status reason none) where
  verdict := by
    refine ⟨⟨none, status, reason⟩, _, rfl, rfl, rfl, listed, ?_⟩
    intro form never
    cases never
  few := few

theorem concludes_proposed {before attempts : Nat} {rows : List Row} {rejections : List String}
    {endpoint : Endpoint} {reason : String} {rule : Rule} {payload : Json}
    (few : endpoint.requests ≤ before + attempts)
    (known : ∀ name ∈ context.strategies, Returns (installed.repertoire.strategy name))
    (parsed : Governor.parseProposal installed.registry (.value payload) context.ruleIndex
      context.prereg.criticBudget context.strategies context.prereg.recoverySensorSd context.nSteps =
        .ok rule) :
    Concludes installed context before attempts
      (finish installed context rows rejections endpoint "proposed" reason (some rule)) := by
  rcases returns_canonical known (Governor.admitted_of_parseProposal parsed).strategy with ⟨form, made⟩
  have result : canonicalOf installed "proposed" reason (some rule) =
      .ok ⟨some form, "proposed", reason⟩ := by
    rw [canonicalOf, made]
    rfl
  refine ⟨⟨_, _, result, rfl, rfl, .head _, ?_⟩, few⟩
  intro other same
  cases same
  exact ⟨rule, payload, parsed, made⟩

variable [FloatText] [Scanner] {llm : LlmReasoner} {server : Server}

theorem ask_concludes (answers : server.Answers)
    (known : ∀ name ∈ context.strategies, Returns (installed.repertoire.strategy name))
    (left attempt : Nat) (rows : List Row) (rejections : List String) (endpoint : Endpoint) :
    ∃ more, (llm.ask installed server context left attempt rows rejections endpoint).replies =
        repliesOf rows ++ more ∧
      (Concludes installed context endpoint.requests left
          (llm.ask installed server context left attempt rows rejections endpoint) ↔
        ∀ reply ∈ more, Scanner.limit reply.toList ≠ some .depth) := by
  induction left generalizing attempt rows rejections endpoint with
  | zero =>
      refine ⟨[], (List.append_nil _).symm, iff_of_true ?_ ?_⟩
      · exact concludes_finish le_rfl (by decide)
      · exact List.forall_mem_nil _
  | succ left ih =>
      rcases chat_of_answers answers (messages context attempt rejections) endpoint with
        ⟨answer, model, chatted⟩
      let asked : Row := ⟨messages context attempt rejections, some answer,
        proper_messages context attempt rejections⟩
      have row : repliesOf (rows ++ [asked]) = repliesOf rows ++ [answer.content] := by
        rw [repliesOf, List.filterMap_append]
        rfl
      have alone : (∀ reply ∈ [answer.content], Scanner.limit reply.toList ≠ some .depth) ↔
          Scanner.limit answer.content.toList ≠ some .depth := List.forall_mem_singleton
      have one : endpoint.requests + 1 ≤ endpoint.requests + (left + 1) := by omega
      rw [ask]
      dsimp only
      rw [chatted]
      rcases @read_cases _ _ _ llm installed context answer.content with
        ⟨deep, read⟩ | ⟨shallow, ⟨reason, read⟩ | ⟨text, read⟩ | ⟨rule, payload, read, parsed⟩⟩
      · simp only [read]
        refine ⟨[answer.content], row, ?_⟩
        rw [alone]
        refine iff_of_false ?_ (fun shallow => shallow deep)
        rintro ⟨⟨_, _, never, _⟩, _⟩
        cases never
      · simp only [read]
        refine ⟨[answer.content], row, ?_⟩
        rw [alone]
        exact iff_of_true (concludes_finish one (by decide)) shallow
      · simp only [read]
        rcases ih (attempt + 1) (rows ++ [asked]) (rejections ++ [text])
          ⟨model, endpoint.requests + 1⟩ with ⟨more, all, ends⟩
        refine ⟨answer.content :: more, ?_, ?_⟩
        · rw [all, row, List.append_assoc]
          rfl
        · rw [List.forall_mem_cons, ← ends, and_iff_right shallow]
          have same : endpoint.requests + 1 + left = endpoint.requests + (left + 1) := by omega
          constructor
          · exact fun concludes => ⟨concludes.verdict, same ▸ concludes.few⟩
          · exact fun concludes => ⟨concludes.verdict, same ▸ concludes.few⟩
      · simp only [read]
        refine ⟨[answer.content], row, ?_⟩
        rw [alone]
        exact iff_of_true (concludes_proposed one known parsed) shallow

variable [Numpy] {endpoint : Endpoint} {brief : Brief}

/-- A call on recorded episodes, one of which failed, ends in a verdict exactly where no trace is
empty, an episode has succeeded or there is no feature to compare, and no reply nests too deeply. -/
theorem concludes_iff (recorded : Recorded brief.traces) (some_ : brief.traces ≠ [])
    (lengths : brief.traces.length = brief.labels.length) (failed : false ∈ brief.labels)
    (answers : server.Answers)
    (known : ∀ name ∈ brief.strategies, Returns (installed.repertoire.strategy name)) :
    (∃ context, llm.context installed endpoint brief = .ok context ∧
      Concludes installed context endpoint.requests llm.attempts
        (llm.propose installed server endpoint brief)) ↔
    (∀ trace ∈ brief.traces, trace ≠ []) ∧
      (offered installed.registry brief.prereg.criticBudget brief.traces = [] ∨ true ∈ brief.labels) ∧
      ∀ reply ∈ (llm.propose installed server endpoint brief).replies,
        Scanner.limit reply.toList ≠ some .depth := by
  have evidence : Returns (llm.context installed endpoint brief) ↔ _ :=
    returns_context_iff recorded lengths failed
  rw [← and_assoc, ← evidence, propose, if_neg some_]
  cases made : llm.context installed endpoint brief with
  | error error =>
      refine iff_of_false ?_ (fun both => not_returns_error _ both.1)
      rintro ⟨context, impossible, _⟩
      cases impossible
  | ok context =>
      have strategies : context.strategies = brief.strategies := by
        rcases of_bind made with ⟨evidence, _, made⟩
        rcases of_bind made with ⟨values, _, made⟩
        rcases of_bind made with ⟨counts, _, made⟩
        cases made
        rfl
      rw [← strategies] at known
      rcases ask_concludes answers known llm.attempts 0 [] [] endpoint with ⟨more, all, ends⟩
      have replies : (llm.ask installed server context llm.attempts 0 [] [] endpoint).replies = more := all
      rw [replies, ← ends, and_iff_right ⟨context, rfl⟩]
      constructor
      · rintro ⟨other, same, concludes⟩
        cases same
        exact concludes
      · exact fun concludes => ⟨context, rfl, concludes⟩

end

section

local instance verdictHost : Host := asciiHost

local instance verdictFloats : FloatText := exactDecimals

local instance verdictSha : Sha256 := sha256

theorem recorded_of_segments_probe : ∃ segment, governedSegment featureCatalog
    (probe (fun _ _ => Double.nearest 1) []) probeSpec none 0 0 1 = .ok segment ∧
      Recorded ([segment].map Segment.trace) := by
  have ended : (governedSegment featureCatalog (probe (fun _ _ => Double.nearest 1) []) probeSpec none
      0 0 1).toBool = true := by
    decide +kernel
  rcases returns_of_toBool ended with ⟨segment, ran⟩
  have each : ∀ other ∈ [segment], ∃ plant : Plant Nat Nat Unit Unit Unit, ∃ spec world obs budget,
      governedSegment featureCatalog plant spec none world obs budget = .ok other :=
    fun other mem => List.mem_singleton.mp mem ▸ ⟨_, _, _, _, _, ran⟩
  exact ⟨segment, ran, recorded_of_segments each⟩

/-- No text nests too deeply, and no text is refused for its numbers. -/
local instance verdictScanner : Scanner := ⟨fun _ => none, fun _ => "Expecting value"⟩

/-- The statistics of groups of one value. -/
local instance verdictNumpy : Numpy where
  peak := fun _ _ => (Double.nearest 0, 0)
  round2 := id
  quantiles := fun finite => List.replicate 5 (finite.headD (Double.nearest 0))

def quietModel : LlmReasoner where
  ref := "plugins.model_endpoint:provider"
  params := .obj []
  base := "http://localhost:8000/v1"
  attempts := 2
  decode := .obj []
  positive := by decide
  properParams := proper_empty
  properDecode := proper_empty
  wording := fun _ => ""
  doc := fun _ => ""

/-- A server that answers with a list. -/
def listServer : Server where
  names := fun _ => .ok (some "m")
  reply := fun _ _ _ => .ok ⟨"[]", .null, .str "stop", trivial, trivial⟩

/-- Two episodes with one reading each, under these labels. -/
def gapBrief (first second : List (String × List Double)) (labels : List Bool) : Brief where
  traces := [first, second]
  labels
  generation := 1
  prereg := smallPreregistration
  devSpecs := []
  executor := Rsi.labelled (fun _ => false)
  parent := ⟨[], 0, 0, none⟩
  store := .fresh
  strategies := []

def oneGap : List (String × List Double) := [("observable.finger_gap", [Double.nearest 1])]

def gapInstalled : Installed := ⟨featureCatalog, ⟨[]⟩, []⟩

theorem recorded_gap (second : List (String × List Double)) (either : second = [] ∨ second = oneGap)
    (labels : List Bool) : Recorded (gapBrief oneGap second labels).traces := by
  refine ⟨["observable.finger_gap"], ?_⟩
  have one : Assoc.keys oneGap = ["observable.finger_gap"] ∧ ∀ entry ∈ oneGap, entry.2 ≠ [] := by
    refine ⟨rfl, ?_⟩
    intro entry mem
    cases List.mem_singleton.mp mem
    exact List.cons_ne_nil _ _
  intro trace mem some_
  rcases List.mem_cons.mp mem with rfl | mem
  · exact one
  · cases List.mem_singleton.mp mem
    rcases either with rfl | rfl
    · exact absurd rfl some_
    · exact one

theorem answers_listServer : listServer.Answers := ⟨fun _ => ⟨_, rfl⟩, fun _ _ _ => ⟨_, rfl⟩⟩

theorem concludes_gap : ∃ context,
    quietModel.context gapInstalled ⟨none, 0⟩ (gapBrief oneGap oneGap [true, false]) = .ok context ∧
      Concludes gapInstalled context 0 2
        (quietModel.propose gapInstalled listServer ⟨none, 0⟩ (gapBrief oneGap oneGap [true, false])) := by
  refine (concludes_iff (recorded_gap oneGap (Or.inr rfl) _) (List.cons_ne_nil _ _) rfl (by decide)
    answers_listServer (List.forall_mem_nil _)).mpr ⟨?_, Or.inr (by decide),
      fun _ _ impossible => Option.some_ne_none _ impossible.symm⟩
  intro trace member
  rcases List.mem_cons.mp member with rfl | member
  · exact List.cons_ne_nil _ _
  · cases List.mem_singleton.mp member
    exact List.cons_ne_nil _ _

/-- Where every episode failed, and where one ended before its first step, `propose` raises and
nothing is put in the store. -/
theorem no_verdict : (∀ context, ¬ Concludes gapInstalled context 0 2
      (quietModel.propose gapInstalled listServer ⟨none, 0⟩ (gapBrief oneGap oneGap [false, false]))) ∧
    ∀ context, ¬ Concludes gapInstalled context 0 2
      (quietModel.propose gapInstalled listServer ⟨none, 0⟩ (gapBrief oneGap [] [true, false])) := by
  have none_ : quietModel.propose gapInstalled listServer ⟨none, 0⟩ (gapBrief oneGap oneGap [false, false]) =
      escaped [] ⟨none, 0⟩ (.python (.valueError "max() iterable argument is empty")) := rfl
  have empty : quietModel.propose gapInstalled listServer ⟨none, 0⟩ (gapBrief oneGap [] [true, false]) =
      escaped [] ⟨none, 0⟩ (.python .keyError) := rfl
  rw [none_, empty]
  constructor
  · rintro context ⟨⟨_, _, impossible, _⟩, _⟩
    cases impossible
  · rintro context ⟨⟨_, _, impossible, _⟩, _⟩
    cases impossible

end

end LlmReasoner
end Rsi
end PhysicalHarness
