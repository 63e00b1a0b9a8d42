import PhysicalHarness.Governor.Proposer

namespace PhysicalHarness
namespace Governor

open Python Harness Rsi Fallible

/-!
# Answers of a model

A model may answer anything.  An answer becomes a rule or it is refused, but for a few
that raise something else: a text that the reader gives up on, a feature that cannot be
looked up in a table, a number that is too large to convert.
-/

/-! ## Numbers that do not convert -/

/-- `float(value)` of an integer that no float is near. -/
def TooLarge (value : Json) : Prop := ∃ number, value = .int number ∧ Double.Overflows number

/-- `int(value)` of an infinite float. -/
def Infinite (value : Json) : Prop := value = .float .posInf ∨ value = .float .negInf

/-- `KeyError`, `TypeError` or `ValueError`. -/
def Caught (error : PyError) : Prop :=
  error = .keyError ∨ error = .typeError ∨ ∃ text, error = .valueError text

theorem refuseNumbers_of_caught {error : PyError} (caught : Caught error) :
    ∃ text, refuseNumbers error = .proposerError text := by
  rcases caught with rfl | rfl | ⟨text, rfl⟩ <;> exact ⟨_, rfl⟩

section

variable [Host]

theorem pyFloat_of_tooLarge {value : Json} (large : TooLarge value) :
    pyFloat value = .error .overflowError := by
  rcases large with ⟨number, rfl, overflows⟩
  exact if_pos overflows

variable {error : PyError} {payload : Json}

theorem caught_of_pyFloat {value : Json} (raised : pyFloat value = .error error) :
    Caught error ∨ error = .overflowError ∧ TooLarge value := by
  cases value with
  | int number =>
      rw [pyFloat] at raised
      by_cases overflows : Double.Overflows number
      · rw [if_pos overflows] at raised
        cases raised
        exact Or.inr ⟨rfl, number, rfl, overflows⟩
      · rw [if_neg overflows] at raised
        cases raised
  | str text =>
      rw [pyFloat] at raised
      split at raised
      · cases raised
      · cases raised
        exact Or.inl (Or.inr (Or.inr ⟨_, rfl⟩))
  | bool _ => cases raised
  | float _ => cases raised
  | _ =>
      cases raised
      exact Or.inl (Or.inr (Or.inl rfl))

theorem pyInt_of_infinite {value : Json} (infinite : Infinite value) :
    pyInt value = .error .overflowError := by
  rcases infinite with rfl | rfl <;> rfl

theorem caught_of_pyInt {value : Json} (raised : pyInt value = .error error) :
    Caught error ∨ error = .overflowError ∧ Infinite value := by
  cases value with
  | int _ => cases raised
  | bool _ => cases raised
  | str text =>
      rw [pyInt] at raised
      split at raised
      · cases raised
      · cases raised
        exact Or.inl (Or.inr (Or.inr ⟨_, rfl⟩))
  | float number =>
      cases number with
      | fin _ => cases raised
      | negZero => cases raised
      | posInf =>
          cases raised
          exact Or.inr ⟨rfl, Or.inl rfl⟩
      | negInf =>
          cases raised
          exact Or.inr ⟨rfl, Or.inr rfl⟩
      | nan =>
          cases raised
          exact Or.inl (Or.inr (Or.inr ⟨_, rfl⟩))
  | _ =>
      cases raised
      exact Or.inl (Or.inr (Or.inl rfl))

omit [Host] in
theorem caught_of_item {name : String} (raised : payload.item name = .error error) :
    Caught error := by
  cases payload with
  | obj fields =>
      rw [Json.item] at raised
      cases found : Assoc.get? fields name with
      | some value =>
          rw [found] at raised
          cases raised
      | none =>
          rw [found] at raised
          cases raised
          exact Or.inl rfl
  | _ =>
      cases raised
      exact Or.inr (Or.inl rfl)

/-- The first number of a proposal that is too large to convert, the ones before it converted. -/
inductive Overflowing (payload : Json) : Prop
  | threshold {value : Json} (here : payload.item "threshold" = .ok value) (large : TooLarge value)
  | dwell {value other : Json} {threshold : Double} (before : payload.item "threshold" = .ok value)
      (converted : pyFloat value = .ok threshold) (here : payload.item "dwell" = .ok other)
      (infinite : Infinite other)
  | armAfter {value other last : Json} {threshold : Double} {dwell : Int}
      (before : payload.item "threshold" = .ok value) (converted : pyFloat value = .ok threshold)
      (next : payload.item "dwell" = .ok other) (convertedToo : pyInt other = .ok dwell)
      (here : payload.item "arm_after" = .ok last) (infinite : Infinite last)

theorem proposalNumbers_of_overflowing (overflowing : Overflowing payload) :
    proposalNumbers payload = .error .overflowError := by
  cases overflowing with
  | threshold here large =>
      rw [proposalNumbers, here, bind_ok, pyFloat_of_tooLarge large, bind_error]
  | dwell before converted here infinite =>
      rw [proposalNumbers, before, bind_ok, converted, bind_ok, here, bind_ok,
        pyInt_of_infinite infinite, bind_error]
  | armAfter before converted next convertedToo here infinite =>
      rw [proposalNumbers, before, bind_ok, converted, bind_ok, next, bind_ok, convertedToo, bind_ok,
        here, bind_ok, pyInt_of_infinite infinite, bind_error]

theorem caught_of_proposalNumbers (raised : proposalNumbers payload = .error error) :
    Caught error ∨ Overflowing payload := by
  rcases bind_eq_error.mp raised with missing | ⟨value, before, raised⟩
  · exact Or.inl (caught_of_item missing)
  rcases bind_eq_error.mp raised with failed | ⟨threshold, converted, raised⟩
  · rcases caught_of_pyFloat failed with caught | ⟨_, large⟩
    · exact Or.inl caught
    · exact Or.inr (.threshold before large)
  rcases bind_eq_error.mp raised with missing | ⟨other, next, raised⟩
  · exact Or.inl (caught_of_item missing)
  rcases bind_eq_error.mp raised with failed | ⟨dwell, convertedToo, raised⟩
  · rcases caught_of_pyInt failed with caught | ⟨_, infinite⟩
    · exact Or.inl caught
    · exact Or.inr (.dwell before converted next infinite)
  rcases bind_eq_error.mp raised with missing | ⟨last, here, raised⟩
  · exact Or.inl (caught_of_item missing)
  rcases bind_eq_error.mp raised with failed | ⟨armAfter, _, raised⟩
  · rcases caught_of_pyInt failed with caught | ⟨_, infinite⟩
    · exact Or.inl caught
    · exact Or.inr (.armAfter before converted next convertedToo here infinite)
  · cases raised

/-- The fields that are looked at before the numbers are in order. -/
structure Opening (registry : Registry) (privilegeBudget : Int) (payload : Json) : Prop where
  feature : ∃ name privilege, payload.getD "feature" .null = .str name ∧
    registry.privilege? name = some privilege ∧ (privilege.cost : Int) ≤ privilegeBudget
  op : (readOp (payload.getD "op" .null)).isSome = true
  reducer : (readReducer (payload.getD "reducer" (.str "value"))).isSome = true

inductive Escapes (registry : Registry) (privilegeBudget : Int) (payload : Json) : Prop
  | feature (object : payload.isMapping = true)
      (unhashable : (payload.getD "feature" .null).hashable = false)
  | number (object : payload.isMapping = true) (opening : Opening registry privilegeBudget payload)
      (overflowing : Overflowing payload)

variable {registry : Registry} {generation privilegeBudget nSteps : Int} {strategies : List String}
  {recoverySensorSd : Double}

/-- What the gate is for: a rule that meets every constraint, or a refusal. -/
def Settles (registry : Registry) (privilegeBudget nSteps : Int) (strategies : List String)
    (result : Except PyError Rule) : Prop :=
  (∃ rule, result = .ok rule ∧ Admitted registry privilegeBudget nSteps strategies rule) ∨
    ∃ text, result = .error (.proposerError text)

omit [Host] in
theorem refuse_eq_error {α : Type} {refused : Bool} {text : String} {rest : Except PyError α}
    (raised : refuse refused text rest = .error error) :
    refused = true ∧ error = .proposerError text ∨ refused = false ∧ rest = .error error := by
  cases refused with
  | true =>
      cases raised
      exact Or.inl ⟨rfl, rfl⟩
  | false => exact Or.inr ⟨rfl, raised⟩

theorem proposalFeature_eq_error (raised : proposalFeature registry payload = .error error) :
    (∃ text, error = .proposerError text) ∨ (payload.getD "feature" .null).hashable = false := by
  rcases bind_eq_error.mp raised with unhashable | ⟨_, _, raised⟩
  · right
    by_contra hashable
    rw [Python.hashed, if_pos (Bool.eq_true_of_not_eq_false hashable)] at unhashable
    cases unhashable
  · left
    split at raised
    · cases raised
    · cases raised
      exact ⟨_, rfl⟩

theorem opening_feature {feature : String × Privilege}
    (found : proposalFeature registry payload = .ok feature) :
    payload.getD "feature" .null = .str feature.1 := by
  rcases of_bind found with ⟨_, _, later⟩
  split at later
  · rename_i pair read
    cases later
    rcases Option.bind_eq_some_iff.mp read with ⟨name, named, known⟩
    rcases Option.map_eq_some_iff.mp known with ⟨privilege, _, rfl⟩
    cases value : payload.getD "feature" .null with
    | str text =>
        rw [value] at named
        rw [Option.some.inj named]
    | _ => rw [value] at named; cases named
  · cases later

theorem refused_or_escapes {payload : Payload} {value : Json}
    (decoded : decodeProposal payload = .ok value)
    (raised : parseProposal registry payload generation privilegeBudget strategies recoverySensorSd
      nSteps = .error error) :
    (∃ text, error = .proposerError text) ∨ Escapes registry privilegeBudget value := by
  rw [parseProposal, decoded] at raised
  change refuse (!value.isMapping) _ _ = _ at raised
  rcases refuse_eq_error raised with ⟨_, rfl⟩ | ⟨object, raised⟩
  · exact Or.inl ⟨_, rfl⟩
  have object : value.isMapping = true := by simpa using object
  rcases bind_eq_error.mp raised with failed | ⟨feature, found, raised⟩
  · rcases proposalFeature_eq_error failed with refused | unhashable
    · exact Or.inl refused
    · exact Or.inr (.feature object unhashable)
  rcases refuse_eq_error raised with ⟨_, rfl⟩ | ⟨cheap, raised⟩
  · exact Or.inl ⟨_, rfl⟩
  split at raised
  · cases raised
    exact Or.inl ⟨_, rfl⟩
  rename_i op knownOp
  split at raised
  · cases raised
    exact Or.inl ⟨_, rfl⟩
  rename_i reducer knownReducer
  rcases bind_eq_error.mp raised with failed | ⟨numbers, _, raised⟩
  · cases converted : proposalNumbers value with
    | ok numbers =>
        rw [converted] at failed
        cases failed
    | error cause =>
        rw [converted] at failed
        rcases caught_of_proposalNumbers converted with caught | overflowing
        · rcases refuseNumbers_of_caught caught with ⟨text, same⟩
          change Except.error (refuseNumbers cause) = _ at failed
          rw [same] at failed
          cases failed
          exact Or.inl ⟨_, rfl⟩
        · refine Or.inr (.number object ⟨⟨feature.1, feature.2, opening_feature found,
            registered_of_proposalFeature found, not_lt.mp (of_decide_eq_false cheap)⟩, ?_, ?_⟩ overflowing)
          · rw [knownOp]
            rfl
          · rw [knownReducer]
            rfl
  rcases refuse_eq_error raised with ⟨_, rfl⟩ | ⟨_, raised⟩
  · exact Or.inl ⟨_, rfl⟩
  rcases refuse_eq_error raised with ⟨_, rfl⟩ | ⟨_, raised⟩
  · exact Or.inl ⟨_, rfl⟩
  rcases refuse_eq_error raised with ⟨_, rfl⟩ | ⟨_, raised⟩
  · exact Or.inl ⟨_, rfl⟩
  simp only [] at raised
  split at raised
  · cases raised
    exact Or.inl ⟨_, rfl⟩
  · cases raised

omit [Host] in
theorem refuse_false {α : Type} {refused : Bool} (passed : refused = false) (text : String)
    (rest : Except PyError α) : refuse refused text rest = rest := by
  rw [passed]
  rfl

theorem raised_of_escapes {payload : Payload} {value : Json}
    (decoded : decodeProposal payload = .ok value)
    (escapes : Escapes registry privilegeBudget value) :
    ∃ error, parseProposal registry payload generation privilegeBudget strategies recoverySensorSd
      nSteps = .error error ∧ (error = .typeError ∨ error = .overflowError) := by
  rw [parseProposal, decoded]
  change ∃ error, refuse (!value.isMapping) _ _ = .error error ∧ _
  cases escapes with
  | feature object unhashable =>
      have first : proposalFeature registry value = .error .typeError := by
        rw [proposalFeature, Python.hashed, unhashable]
        rfl
      rw [refuse_false (by rw [object]; rfl), first]
      exact ⟨_, rfl, Or.inl rfl⟩
  | number object opening overflowing =>
      rcases opening.feature with ⟨name, privilege, named, known, cheap⟩
      rcases Option.isSome_iff_exists.mp opening.op with ⟨op, knownOp⟩
      rcases Option.isSome_iff_exists.mp opening.reducer with ⟨reducer, knownReducer⟩
      have first : proposalFeature registry value = .ok (name, privilege) := by
        simp [proposalFeature, named, Python.hashed, Json.hashable, Json.str?, known, Except.bind]
      refine ⟨.overflowError, ?_, Or.inr rfl⟩
      have budget : decide (privilegeBudget < (privilege.cost : Int)) = false :=
        decide_eq_false (not_lt.mpr cheap)
      rw [refuse_false (by rw [object]; rfl), first]
      change refuse (decide (privilegeBudget < (privilege.cost : Int))) _ _ = _
      rw [refuse_false budget, knownOp, knownReducer, proposalNumbers_of_overflowing overflowing]
      rfl

/-! ## Texts -/

end

/-- What comes out of the gate: an exception of the reader that is not a `JSONDecodeError`, or what
the checks say. -/
inductive Verdict where
  | reader
  | checked (result : Except PyError Rule)

section

variable [Host]

/-! `exceeds` tells the texts on which `json.loads` gives up with a `RecursionError` or with the
`ValueError` of a long integer. -/

variable (exceeds : String → Bool) (registry : Registry) (generation privilegeBudget nSteps : Int)
  (strategies : List String) (recoverySensorSd : Double)

/-- `parse_proposal`, of anything. -/
def parseAnswer (payload : Payload) : Verdict :=
  match payload with
  | .text content =>
      if exceeds content then .reader
      else .checked (parseProposal registry payload generation privilegeBudget strategies
        recoverySensorSd nSteps)
  | .value _ => .checked (parseProposal registry payload generation privilegeBudget strategies
      recoverySensorSd nSteps)

/-- What a call of `propose` leaves: its result, what was refused, and what the transport answered. -/
structure Proposed where
  result : Option (Except PyError (Option Rule))
  rejections : List String
  answers : List Payload

def ask (transport : Nat → List String → Payload) (attempt : Nat) :
    Nat → List String → List Payload → Proposed
  | 0, rejections, answers => ⟨some (.ok none), rejections, answers⟩
  | left + 1, rejections, answers =>
      let raw := transport attempt rejections
      match parseAnswer exceeds registry generation privilegeBudget nSteps strategies
        recoverySensorSd raw with
      | .checked (.ok rule) => ⟨some (.ok (some rule)), rejections, answers ++ [raw]⟩
      | .checked (.error (.proposerError text)) =>
          ask transport (attempt + 1) left (rejections ++ [text]) (answers ++ [raw])
      | .checked (.error error) => ⟨some (.error error), rejections, answers ++ [raw]⟩
      | .reader => ⟨none, rejections, answers ++ [raw]⟩

/-- `LlmProposer.propose`. -/
def propose (transport : Nat → List String → Payload) (attempts : Nat) (rejections : List String) :
    Proposed :=
  ask exceeds registry generation privilegeBudget nSteps strategies recoverySensorSd transport 0
    attempts rejections []

/-- The answers that raise something else than a refusal. -/
inductive Unruly (payload : Payload) : Prop
  | reader {content : String} (text : payload = .text content) (beyond : exceeds content = true)
  | object {value : Json} (within : ∀ content, payload = .text content → exceeds content = false)
      (decoded : decodeProposal payload = .ok value)
      (escapes : Escapes registry privilegeBudget value)

/-- The gate settles the answer. -/
def Verdict.Settled (verdict : Verdict) : Prop :=
  ∃ result, verdict = .checked result ∧ Settles registry privilegeBudget nSteps strategies result

variable {exceeds registry generation privilegeBudget nSteps strategies recoverySensorSd}

theorem parseAnswer_of_within {payload : Payload}
    (within : ∀ content, payload = .text content → exceeds content = false) :
    parseAnswer exceeds registry generation privilegeBudget nSteps strategies recoverySensorSd payload =
      .checked (parseProposal registry payload generation privilegeBudget strategies recoverySensorSd
        nSteps) := by
  cases payload with
  | text content =>
      rw [parseAnswer, within content rfl]
      rfl
  | value value => rfl

theorem decodeProposal_eq_error {payload : Payload} {error : PyError}
    (raised : decodeProposal payload = .error error) : ∃ text, error = .proposerError text := by
  cases payload with
  | text content =>
      rw [decodeProposal] at raised
      split at raised
      · cases raised
      · cases raised
        exact ⟨_, rfl⟩
  | value value => cases raised

theorem answer_settled_iff (payload : Payload) :
    (parseAnswer exceeds registry generation privilegeBudget nSteps strategies recoverySensorSd
      payload).Settled registry privilegeBudget nSteps strategies ↔
      ¬ Unruly exceeds registry privilegeBudget payload := by
  by_cases within : ∀ content, payload = .text content → exceeds content = false
  · rw [parseAnswer_of_within within]
    constructor
    · intro settled unruly
      rcases settled with ⟨result, same, settles⟩
      cases same
      cases unruly with
      | reader text beyond =>
          rw [within _ text] at beyond
          cases beyond
      | object _ decoded escapes =>
          rcases @raised_of_escapes _ registry generation privilegeBudget nSteps strategies
            recoverySensorSd payload _ decoded escapes with ⟨error, raised, kind⟩
          rw [raised] at settles
          rcases settles with ⟨_, never, _⟩ | ⟨text, refused⟩
          · cases never
          · cases refused
            rcases kind with never | never <;> cases never
    · intro ruly
      refine ⟨_, rfl, ?_⟩
      cases parsed : parseProposal registry payload generation privilegeBudget strategies
          recoverySensorSd nSteps with
      | ok rule => exact Or.inl ⟨rule, rfl, admitted_of_parseProposal parsed⟩
      | error error =>
          right
          cases decoded : decodeProposal payload with
          | error cause =>
              rw [parseProposal, decoded] at parsed
              cases parsed
              rcases decodeProposal_eq_error decoded with ⟨text, rfl⟩
              exact ⟨text, rfl⟩
          | ok value =>
              rcases refused_or_escapes decoded parsed with ⟨text, rfl⟩ | escapes
              · exact ⟨text, rfl⟩
              · exact absurd (.object within decoded escapes) ruly
  · simp only [not_forall] at within
    rcases within with ⟨content, rfl, beyond⟩
    have far : exceeds content = true := Bool.eq_true_of_not_eq_false beyond
    refine iff_of_false ?_ (fun ruly => ruly (.reader rfl far))
    rw [parseAnswer, if_pos far]
    rintro ⟨_, never, _⟩
    cases never

/-- The attempts that are left ask no more than their number, and end well if every answer is
settled. -/
theorem ask_settled (transport : Nat → List String → Payload) (left attempt : Nat)
    (rejections : List String) (answers : List Payload) :
    ∃ more, (ask exceeds registry generation privilegeBudget nSteps strategies recoverySensorSd
        transport attempt left rejections answers).answers = answers ++ more ∧ more.length ≤ left ∧
      ((∃ found, (ask exceeds registry generation privilegeBudget nSteps strategies recoverySensorSd
          transport attempt left rejections answers).result = some (.ok found) ∧
          ∀ rule ∈ found, Admitted registry privilegeBudget nSteps strategies rule) ↔
        ∀ answer ∈ more, ¬ Unruly exceeds registry privilegeBudget answer) := by
  induction left generalizing attempt rejections answers with
  | zero =>
      refine ⟨[], (List.append_nil _).symm, le_refl _, iff_of_true ⟨none, rfl, ?_⟩ ?_⟩
      · exact fun _ never => absurd never (Option.not_mem_none _)
      · exact List.forall_mem_nil _
  | succ left ih =>
      have settled := @answer_settled_iff _ exceeds registry generation privilegeBudget nSteps strategies
        recoverySensorSd (transport attempt rejections)
      have alone : ∀ holds : Payload → Prop, (∀ answer ∈ [transport attempt rejections], holds answer) ↔
          holds (transport attempt rejections) := fun holds => List.forall_mem_singleton
      rw [ask]
      split
      · rename_i rule parsed
        rw [parsed] at settled
        refine ⟨[transport attempt rejections], rfl, Nat.succ_le_succ (Nat.zero_le _), ?_⟩
        rw [alone, ← settled]
        constructor
        · rintro ⟨found, same, admitted⟩
          cases same
          exact ⟨_, rfl, Or.inl ⟨rule, rfl, admitted rule rfl⟩⟩
        · rintro ⟨result, same, settles⟩
          cases same
          rcases settles with ⟨other, found, admitted⟩ | ⟨_, never⟩
          · cases found
            refine ⟨some rule, rfl, ?_⟩
            intro other mem
            cases mem
            exact admitted
          · cases never
      · rename_i text parsed
        rw [parsed] at settled
        have ruly := settled.mp ⟨_, rfl, Or.inr ⟨text, rfl⟩⟩
        rcases ih (attempt + 1) (rejections ++ [text]) (answers ++ [transport attempt rejections]) with
          ⟨more, all, few, ends⟩
        refine ⟨transport attempt rejections :: more, ?_, Nat.succ_le_succ few, ?_⟩
        · rw [all, List.append_assoc]
          rfl
        · rw [ends, List.forall_mem_cons]
          exact (and_iff_right ruly).symm
      · rename_i error other parsed
        rw [parsed] at settled
        refine ⟨[transport attempt rejections], rfl, Nat.succ_le_succ (Nat.zero_le _), ?_⟩
        rw [alone, ← settled]
        refine iff_of_false ?_ ?_
        · rintro ⟨_, never, _⟩
          cases never
        · rintro ⟨result, same, settles⟩
          cases same
          rcases settles with ⟨_, never, _⟩ | ⟨text, refused⟩
          · cases never
          · exact other text (Except.error.inj refused)
      · rename_i parsed
        rw [parsed] at settled
        refine ⟨[transport attempt rejections], rfl, Nat.succ_le_succ (Nat.zero_le _), ?_⟩
        rw [alone, ← settled]
        refine iff_of_false ?_ ?_
        · rintro ⟨_, never, _⟩
          cases never
        · rintro ⟨_, never, _⟩
          cases never

variable (exceeds registry generation privilegeBudget nSteps strategies recoverySensorSd)

/-- The gate settles every answer but the unruly ones; asking a model takes as many answers as there
are attempts at most, and ends with a rule or without one unless an answer is unruly. -/
theorem gate_settles_iff :
    (∀ payload, (parseAnswer exceeds registry generation privilegeBudget nSteps strategies
        recoverySensorSd payload).Settled registry privilegeBudget nSteps strategies ↔
      ¬ Unruly exceeds registry privilegeBudget payload) ∧
    ∀ transport attempts rejections,
      (propose exceeds registry generation privilegeBudget nSteps strategies recoverySensorSd transport
        attempts rejections).answers.length ≤ attempts ∧
      ((∃ found, (propose exceeds registry generation privilegeBudget nSteps strategies recoverySensorSd
          transport attempts rejections).result = some (.ok found) ∧
          ∀ rule ∈ found, Admitted registry privilegeBudget nSteps strategies rule) ↔
        ∀ answer ∈ (propose exceeds registry generation privilegeBudget nSteps strategies
          recoverySensorSd transport attempts rejections).answers,
          ¬ Unruly exceeds registry privilegeBudget answer) := by
  refine ⟨answer_settled_iff, ?_⟩
  intro transport attempts rejections
  rcases ask_settled transport attempts 0 rejections [] with ⟨more, all, few, ends⟩
  rw [List.nil_append] at all
  rw [propose, all]
  exact ⟨few, ends⟩

end

section

local instance answerHost : Host := asciiHost

/-- An object whose feature is a list. -/
def listFeature : Payload := .value (.obj [("feature", .arr [])])

/-- A registry without features. -/
def bareRegistry : Registry := ⟨[], List.nodup_nil⟩

/-- It raises a `TypeError`, which ends the proposer. -/
theorem listFeature_unsettled :
    ¬ (parseAnswer (fun _ => false) bareRegistry 1 0 100 ["regrasp"] (Double.nearest 0)
        listFeature).Settled bareRegistry 0 100 ["regrasp"] ∧
      (propose (fun _ => false) bareRegistry 1 0 100 ["regrasp"] (Double.nearest 0)
        (fun _ _ => listFeature) 2 []).result = some (.error .typeError) := by
  refine ⟨?_, rfl⟩
  rintro ⟨result, same, settles⟩
  cases same
  rcases settles with ⟨_, impossible, _⟩ | ⟨_, impossible⟩
  · cases impossible
  · cases impossible

end

end Governor
end PhysicalHarness
