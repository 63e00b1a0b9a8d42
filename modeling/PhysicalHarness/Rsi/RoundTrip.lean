import PhysicalHarness.Rsi.HeldOut

namespace PhysicalHarness
namespace Rsi

open Python
open JsonText
open Fallible

/-!
# A preregistration and its archive

The payload of a preregistration goes through JSON text, where tuples become lists and key order is
free, and `rebuild_preregistration` makes a preregistration of it again.  Nothing of the payload is
lost and no two preregistrations share one, but only the fields of a hand-kept list become tuples
again: the isolated segments come back as a list, which is equal to no tuple.
-/

/-! ## Any order of the keys -/

/-- The fields of the payload, as `asdict` orders them. -/
def hashFields (prereg : Preregistration) : List (String × Json) :=
  prereg.asdict.filter (fun field => !Preregistration.folds field)

theorem get?_hashFields (prereg : Preregistration) (name : String) :
    Assoc.get? (hashFields prereg) name =
      (Assoc.get? prereg.asdict name).filter (fun value => !Preregistration.folds (name, value)) :=
  Assoc.get?_filter (nodup_asdict prereg) _ _

theorem listed_items {α : Type} {decode : Json → Except PyError α} {encode : α → Json}
    (read : ∀ value, decode (encode value) = .ok value) (values : List α) :
    listed decode (.arr (values.map encode)) = .ok values := by
  change (values.map encode).mapM decode = _
  rw [mapM_eq_ok_iff, List.forall₂_map_left_iff, List.forall₂_same]
  exact fun value _ => read value

theorem readClause_fields (clause : Clause) : readClause clause.asdict = .ok clause := by
  have threshold : number (.float clause.threshold.value) = .ok clause.threshold :=
    number_value clause.threshold
  change (opOf (.str clause.op.text)).bind (fun op =>
    (number (.float clause.threshold.value)).bind (fun threshold =>
      .ok (Clause.mk clause.feature op threshold))) = _
  rw [opOf_text, threshold]
  rfl

theorem readStage_fields (stage : StageSpec) : readStage stage.asdict = .ok stage := by
  change (listed readClause (.arr (stage.success.map Clause.asdict))).bind (fun success =>
    .ok (StageSpec.mk stage.name success stage.budget)) = _
  rw [listed_items readClause_fields]
  rfl

section

variable {α : Type} {decode : Json → Except PyError α}

theorem listed_sorted {encode : α → Json} (read : ∀ value, decode (encode value) = .ok value)
    (sorted : ∀ value, decode (sortKeys (encode value)) = .ok value) (values : List α) :
    listed decode (sortKeys (.arr (values.map encode))) = listed decode (.arr (values.map encode)) := by
  rw [listed_map sorted, listed_items read]

theorem optional_sorted {encode : α → Json}
    (same : ∀ value, decode (sortKeys (encode value)) = decode (encode value))
    (solid : ∀ value, (encode value).isNull = false ∧ (sortKeys (encode value)).isNull = false)
    (value : Option α) :
    optional decode (sortKeys (orNull encode value)) = optional decode (orNull encode value) := by
  cases value with
  | none => rfl
  | some value =>
      rcases solid value with ⟨plain, sorted⟩
      rw [orNull, optional, optional, plain, sorted, same]

theorem given_sorted {prereg : Preregistration} (name : String) {value : Json}
    {default : Except PyError α} (listed : Assoc.get? prereg.asdict name = some value)
    (same : decode (sortKeys value) = decode value) :
    given (hashFields prereg) name decode default = given (storedFields prereg) name decode default := by
  rw [given, given, get?_stored, get?_hashFields, listed, Option.filter_some]
  by_cases folds : (!Preregistration.folds (name, value)) = true
  · rw [if_pos folds]
    exact same.symm
  · rw [if_neg folds]
    rfl

end

theorem rebuildPreregistration_hashPayload [Host] (prereg : Preregistration) :
    rebuildPreregistration prereg.hashPayload = .ok prereg := by
  rw [← rebuildPreregistration_stored prereg]
  have plain : prereg.hashPayload.dict = .ok (hashFields prereg) := rfl
  have stored : (sortKeys prereg.hashPayload).dict = .ok (storedFields prereg) := rfl
  have seeds : ∀ values : List Int,
      listed integer (sortKeys (seedsJson values)) = listed integer (seedsJson values) :=
    listed_sorted (fun _ => rfl) (fun _ => rfl)
  have texts : ∀ value : Option String, optional Json.text (sortKeys (orNull Json.str value)) =
      optional Json.text (orNull Json.str value) :=
    optional_sorted (fun _ => rfl) (fun _ => ⟨rfl, rfl⟩)
  have names : ∀ value : Option (List String),
      optional (listed Json.text) (sortKeys (orNull namesJson value)) =
        optional (listed Json.text) (orNull namesJson value) :=
    optional_sorted (listed_sorted (fun _ => rfl) (fun _ => rfl)) (fun _ => ⟨rfl, rfl⟩)
  have chains : ∀ value : Option (List StageSpec),
      optional (listed readStage) (sortKeys (orNull stagesJson value)) =
        optional (listed readStage) (orNull stagesJson value) :=
    optional_sorted (listed_sorted readStage_fields readStage_asdict) (fun _ => ⟨rfl, rfl⟩)
  rw [rebuildPreregistration, rebuildPreregistration, plain, stored, bind_ok, bind_ok]
  simp only [required]
  rw [given_sorted "dev" rfl (seeds _), given_sorted "heldout" rfl (seeds _),
    given_sorted "percept_noise" rfl rfl,
    given_sorted "critic_budget" rfl rfl,
    given_sorted "action_budget" rfl rfl,
    given_sorted "recovery_sensor_sd" rfl rfl,
    given_sorted "max_generations" rfl rfl,
    given_sorted "task" rfl rfl,
    given_sorted "policy" rfl rfl,
    given_sorted "scale_dev_by_power" rfl rfl,
    given_sorted "power_fix_share" rfl rfl,
    given_sorted "power_target" rfl rfl,
    given_sorted "min_fixed" rfl rfl,
    given_sorted "alpha" rfl rfl,
    given_sorted "search_recovery" rfl rfl,
    given_sorted "recovery_search_n" rfl rfl,
    given_sorted "screen_triggers" rfl rfl,
    given_sorted "prior_discordance_yield" rfl rfl,
    given_sorted "min_discordance_yield" rfl rfl,
    given_sorted "screen_search_fraction" rfl rfl,
    given_sorted "require_judgement" rfl rfl,
    given_sorted "judgement_fix_share" rfl rfl,
    given_sorted "prior_judgement_yield" rfl rfl,
    given_sorted "earliness" rfl rfl,
    given_sorted "fp_penalty" rfl rfl,
    given_sorted "recovery_name" rfl rfl,
    given_sorted "parent_store" rfl (texts _),
    given_sorted "parent_final_sha" rfl (texts _),
    given_sorted "reasoner" rfl (texts _),
    given_sorted "stages" rfl (chains _),
    given_sorted "terminal_label" rfl rfl,
    given_sorted "segment_isolate" rfl (names _),
    given_sorted "horizon" rfl rfl,
    given_sorted "env_provider" rfl (texts _),
    given_sorted "policy_provider" rfl (texts _),
    given_sorted "percept_provider" rfl rfl]

abbrev NanFree : Json → Prop := Throughout (· ≠ .nan) (fun _ => True)

/-- `==` of what two attributes hold.  A NaN equals itself only, so that it matters whether the
NaNs of both are one shared object. -/
def SameValue (shared : Bool) (left right : Json) : Prop :=
  left.eq right = true ∧ (shared = true ∨ NanFree left)

/-- `==` of two preregistrations whose fields hold what they are declared to. -/
def Preregistration.Same (shared : Bool) (prereg other : Preregistration) : Prop :=
  ∀ name value value', Assoc.get? prereg.asdict name = some value →
    Assoc.get? other.asdict name = some value' → SameValue shared value value'

/-- No float of the preregistration is NaN. -/
def Preregistration.Finite (prereg : Preregistration) : Prop := NanFree (.obj prereg.asdict)

theorem same_self_iff (shared : Bool) (prereg : Preregistration) :
    prereg.Same shared prereg ↔ shared = true ∨ prereg.Finite := by
  constructor
  · intro same
    rcases Bool.eq_false_or_eq_true shared with isShared | apart
    · exact Or.inl isShared
    · right
      refine ⟨trivial, (throughoutFields_iff _).mpr (fun field mem => ?_)⟩
      have found := Assoc.get?_of_mem (nodup_asdict prereg) mem
      rcases (same _ _ _ found found).2 with isShared | numbers
      · cases isShared.symm.trans apart
      · exact numbers
  · intro numbers name value value' here there
    cases here.symm.trans there
    refine ⟨Json.eq_self value, numbers.imp_right (fun finite => ?_)⟩
    exact (throughoutFields_iff _).mp finite.2 _ (Assoc.mem_of_get? here)

theorem nodup_hashFields (prereg : Preregistration) : (Assoc.keys (hashFields prereg)).Nodup :=
  (nodup_asdict prereg).sublist (List.filter_sublist.map Prod.fst)

theorem keys_of_eq {prereg other : Preregistration}
    (same : prereg.hashPayload.eq other.hashPayload = true) (name : String) :
    name ∈ Assoc.keys (hashFields other) ↔ name ∈ Assoc.keys (hashFields prereg) := by
  have parts : (hashFields prereg).length = (hashFields other).length ∧
      Json.eqFields (hashFields prereg) (hashFields other) = true := by
    rw [← decide_eq_true_iff (p := _ = _), ← Bool.and_eq_true]
    exact same
  have within : Assoc.keys (hashFields prereg) ⊆ Assoc.keys (hashFields other) := by
    intro key mem
    rcases List.mem_map.mp mem with ⟨field, inside, rfl⟩
    rcases (Json.eqFields_iff _ _).mp parts.2 field inside with ⟨value, there, _⟩
    exact List.mem_map.mpr ⟨_, there, rfl⟩
  have perm := (List.subperm_of_subset (nodup_hashFields prereg) within).perm_of_length_le
    (by rw [Assoc.keys, Assoc.keys, List.length_map, List.length_map, parts.1])
  exact perm.mem_iff.symm

theorem folds_of_absent {prereg : Preregistration} {name : String} {value : Json}
    (here : Assoc.get? prereg.asdict name = some value)
    (absent : name ∉ Assoc.keys (hashFields prereg)) : Preregistration.folds (name, value) = true := by
  have none_ := (Assoc.get?_eq_none_iff _ _).mpr absent
  rw [get?_hashFields, here, Option.filter_some] at none_
  by_contra kept
  rw [if_pos (by rw [Bool.eq_false_of_not_eq_true kept]; rfl)] at none_
  cases none_

theorem eq_null {value : Json} (same : value.eq .null = true) : value = .null := by
  cases value <;> simp [Json.eq, Json.sameScalar, Json.toRat?] at same ⊢

theorem value_of_folds {prereg : Preregistration} {name : String} {value : Json}
    (here : Assoc.get? prereg.asdict name = some value)
    (folds : Preregistration.folds (name, value) = true) :
    some value = Assoc.get? Preregistration.hashFoldDefaults name := by
  rw [Preregistration.folds, List.any_eq_true] at folds
  rcases folds with ⟨default, mem, same⟩
  rw [Bool.and_eq_true, beq_iff_eq] at same
  rcases same with ⟨rfl, same⟩
  simp only [Preregistration.hashFoldDefaults, List.mem_cons, List.not_mem_nil, or_false] at mem
  rcases mem with rfl | rfl | rfl | rfl | rfl | rfl
  · exact congrArg some ((Json.eq_str_iff _ _).mp same)
  · exact congrArg some (eq_null same)
  · exact congrArg some (eq_null same)
  · exact congrArg some (eq_null same)
  · exact congrArg some (eq_null same)
  · cases here
    have number : (prereg.horizon : ℚ) = 900 := by
      simpa [Json.eq, Json.sameScalar, Json.toRat?] using same
    have whole : prereg.horizon = 900 := by exact_mod_cast number
    rw [whole]
    rfl

theorem numbers_default {name : String} {value : Json}
    (default : some value = Assoc.get? Preregistration.hashFoldDefaults name) : NanFree value := by
  have mem := Assoc.mem_of_get? default.symm
  simp only [Preregistration.hashFoldDefaults, List.mem_cons, List.not_mem_nil, or_false,
    Prod.mk.injEq] at mem
  rcases mem with ⟨_, rfl⟩ | ⟨_, rfl⟩ | ⟨_, rfl⟩ | ⟨_, rfl⟩ | ⟨_, rfl⟩ | ⟨_, rfl⟩ <;> trivial

theorem same_of_hashPayload {shared : Bool} {prereg other : Preregistration}
    (same : SameValue shared prereg.hashPayload other.hashPayload) : prereg.Same shared other := by
  intro name value value' here there
  by_cases stored : name ∈ Assoc.keys (hashFields prereg)
  · have kept : ∀ {prereg : Preregistration} {value : Json},
        Assoc.get? prereg.asdict name = some value → name ∈ Assoc.keys (hashFields prereg) →
          (name, value) ∈ hashFields prereg := by
      intro prereg value here stored
      rcases Assoc.get?_of_mem_keys stored with ⟨found, got⟩
      have source := got
      rw [get?_hashFields, here, Option.filter_some] at source
      split at source
      · cases source
        exact Assoc.mem_of_get? got
      · cases source
    have parts : Json.eqFields (hashFields prereg) (hashFields other) = true :=
      ((Bool.and_eq_true _ _).mp same.1).2
    have mem := kept here stored
    rcases (Json.eqFields_iff _ _).mp parts _ mem with ⟨found, inside, equal⟩
    have unique := Assoc.get?_of_mem (nodup_hashFields other) inside
    have twin := Assoc.get?_of_mem (nodup_hashFields other)
      (kept there ((keys_of_eq same.1 name).mpr stored))
    cases unique.symm.trans twin
    refine ⟨equal, same.2.imp_right (fun numbers => ?_)⟩
    exact (throughoutFields_iff _).mp numbers.2 _ mem
  · have default := value_of_folds here (folds_of_absent here stored)
    have default' := value_of_folds there
      (folds_of_absent there (fun mem => stored ((keys_of_eq same.1 name).mp mem)))
    cases default.trans default'.symm
    exact ⟨Json.eq_self value, Or.inr (numbers_default default)⟩

/-! ## The archive -/

inductive Container where
  | tuple
  | list
  deriving DecidableEq

/-- `_TUPLE_FIELDS`. -/
def tupleFields : List String := ["dev", "heldout"]

/-- What a field of the payload that JSON made a list is held in. -/
def restored (name : String) : Container := if name ∈ tupleFields then .tuple else .list

/-- A preregistration as an object: the class does not check what its fields of tuples hold. -/
structure Held where
  prereg : Preregistration
  dev : Container
  heldout : Container
  stages : Container
  segmentIsolate : Container

namespace Held

/-- A preregistration whose fields hold what they are declared to. -/
def declared (prereg : Preregistration) : Held := ⟨prereg, .tuple, .tuple, .tuple, .tuple⟩

/-- `==` of two preregistrations: a tuple is equal to no list. -/
structure Same (shared : Bool) (held other : Held) : Prop where
  values : held.prereg.Same shared other.prereg
  dev : held.dev = other.dev
  heldout : held.heldout = other.heldout
  stages : held.prereg.stages.isSome → held.stages = other.stages
  segmentIsolate : held.prereg.segmentIsolate.isSome → held.segmentIsolate = other.segmentIsolate

/-- `sha()`: JSON writes tuples and lists alike. -/
def sha [Sha256] [FloatText] (held : Held) : String := held.prereg.sha

end Held

/-- `rebuild_preregistration`, with what its fields hold; the chain of stages is made a tuple on its
own. -/
def rebuildHeld [Host] (payload : Json) : Except PyError Held := do
  let prereg ← rebuildPreregistration payload
  return ⟨prereg, restored "dev", restored "heldout", .tuple, restored "segment_isolate"⟩

/-- `json.loads(json.dumps(value, sort_keys=sort))`. -/
def jsonRoundTrip [FloatText] (style : Style) (sort : Bool) (value : Json) : Option Json :=
  loads (print style 0 (if sort then sortKeys value else value))

/-- The preregistration comes back from its archive as the value that it was, under the same digest,
and no other preregistration has its payload. -/
def SurvivesRoundTrip [Host] [Sha256] [FloatText] (style : Style) (sort shared : Bool)
    (prereg : Preregistration) : Prop :=
  (∃ archived held, jsonRoundTrip style sort prereg.hashPayload = some archived ∧
    rebuildHeld archived = .ok held ∧ held.Same shared (.declared prereg) ∧
    held.sha = (Held.declared prereg).sha) ∧
  ∀ other : Preregistration, ¬ prereg.Same shared other →
    ¬ SameValue shared prereg.hashPayload other.hashPayload

theorem rebuildHeld_eq_ok [Host] {payload : Json} {prereg : Preregistration}
    (read : rebuildPreregistration payload = .ok prereg) :
    rebuildHeld payload = .ok ⟨prereg, .tuple, .tuple, .tuple, .list⟩ := by
  rw [rebuildHeld, read]
  rfl

theorem rebuildHeld_jsonRoundTrip [Host] [FloatText] (style : Style) (sort : Bool)
    (prereg : Preregistration) : ∃ archived,
    jsonRoundTrip style sort prereg.hashPayload = some archived ∧
      rebuildHeld archived = .ok ⟨prereg, .tuple, .tuple, .tuple, .list⟩ := by
  cases sort with
  | true =>
      refine ⟨_, loads_print style (proper_sortKeys (proper_hashPayload prereg)), ?_⟩
      exact rebuildHeld_eq_ok (rebuildPreregistration_archived prereg)
  | false =>
      refine ⟨_, loads_print style (proper_hashPayload prereg), ?_⟩
      show rebuildHeld (rebuild gather prereg.hashPayload) = _
      rw [rebuild_gather_of_distinct _ (distinct_hashPayload prereg)]
      exact rebuildHeld_eq_ok (rebuildPreregistration_hashPayload prereg)

section

variable [Host] [Sha256] [FloatText] {style : Style} {sort shared : Bool} {prereg : Preregistration}

theorem segments_of_survives (survives : SurvivesRoundTrip style sort shared prereg) :
    prereg.segmentIsolate = none := by
  rcases survives with ⟨⟨archived, held, text, rebuilt, same, _⟩, _⟩
  rcases rebuildHeld_jsonRoundTrip style sort prereg with ⟨archived', text', rebuilt'⟩
  cases text.symm.trans text'
  cases rebuilt.symm.trans rebuilt'
  rcases segments : prereg.segmentIsolate with _ | names
  · rfl
  · cases same.segmentIsolate (by rw [segments]; rfl)

theorem numbers_of_survives (survives : SurvivesRoundTrip style sort shared prereg) :
    shared = true ∨ prereg.Finite := by
  rcases survives with ⟨⟨archived, held, text, rebuilt, same, _⟩, _⟩
  rcases rebuildHeld_jsonRoundTrip style sort prereg with ⟨archived', text', rebuilt'⟩
  cases text.symm.trans text'
  cases rebuilt.symm.trans rebuilt'
  exact (same_self_iff shared prereg).mp same.values

end

/-- A preregistration survives exactly without isolated segments, where its NaNs, if it has any, are
the one object that the reader of JSON gives. -/
theorem survives_iff [Host] [Sha256] [FloatText] (style : Style) (sort shared : Bool)
    (prereg : Preregistration) :
    SurvivesRoundTrip style sort shared prereg ↔
      prereg.segmentIsolate = none ∧ (shared = true ∨ prereg.Finite) := by
  constructor
  · intro survives
    exact ⟨segments_of_survives survives, numbers_of_survives survives⟩
  · rintro ⟨whole, numbers⟩
    rcases rebuildHeld_jsonRoundTrip style sort prereg with ⟨archived, text, rebuilt⟩
    refine ⟨⟨archived, _, text, rebuilt, ?_, rfl⟩, fun other differ same =>
      differ (same_of_hashPayload same)⟩
    exact {
      values := (same_self_iff shared prereg).mpr numbers
      dev := rfl
      heldout := rfl
      stages := fun _ => rfl
      segmentIsolate := fun some_ => by
        rw [whole] at some_
        cases some_ }

section

local instance archiveHost : Host := asciiHost

local instance archiveSha : Sha256 := sha256

local instance archiveFloats : FloatText := exactDecimals

/-- A segment campaign, archived as the store writes it. -/
theorem segments_lost :
    ¬ SurvivesRoundTrip indented true true
      { smallPreregistration with segmentIsolate := some ["NavigateKitchen", "PickPlace"] } :=
  fun survives => Option.some_ne_none _ (segments_of_survives survives)

end

end Rsi
end PhysicalHarness
