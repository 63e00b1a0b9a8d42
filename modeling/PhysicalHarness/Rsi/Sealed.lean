import PhysicalHarness.Rsi.HeldOut

namespace PhysicalHarness
namespace Rsi

open Python Harness JsonText Fallible Logged

/-!
# Rebuilding inverts sealing

While a campaign runs, the generations it has sealed so far grow, on the root of the
preregistration, a bundle with the forms of the one it holds.  Reading the store back
after the last generation therefore gives the preregistration that was sealed and a
bundle with the digest and the rule ids of the result.
-/

/-! ## Payloads that are read back -/

theorem item_archived {fields : List (String × Json)} (distinct : (Assoc.keys fields).Nodup)
    {name : String} {value : Json} (found : Assoc.get? fields name = some value) :
    (rebuild gather (sortKeys (.obj fields))).item name = .ok (rebuild gather (sortKeys value)) := by
  have perm : (sortFields (sortValues fields)).Perm (sortValues fields) := List.perm_insertionSort _ _
  have unique : (Assoc.keys (sortFields (sortValues fields))).Nodup := by
    refine (perm.map Prod.fst).nodup_iff.mpr ?_
    change (Assoc.keys (sortValues fields)).Nodup
    rw [keys_sortValues]
    exact distinct
  have rebuilt : ∀ fields : List (String × Json), Assoc.get? (rebuildFields gather fields) name =
      (Assoc.get? fields name).map (rebuild gather) := by
    intro fields
    induction fields with
    | nil => rfl
    | cons pair rest ih =>
        rw [rebuildFields, Assoc.get?_cons, Assoc.get?_cons, ih]
        split_ifs <;> rfl
  have whole : rebuild gather (sortKeys (.obj fields)) =
      .obj (rebuildFields gather (sortFields (sortValues fields))) := by
    rw [sortKeys, rebuild, gather_of_nodup]
    rw [keys_rebuildFields]
    exact unique
  rw [whole, Json.item, rebuilt, get?_sorted distinct, found]
  rfl

theorem proper_gate (result : PairedResult) : Proper result.asdict :=
  ⟨trivial, trivial, result.baseRate.double, result.governedRate.double, trivial, trivial, trivial,
    result.pValue.double, trivial, trivial⟩

theorem proper_form (rule : Rule) (steps : List Step) : Proper (rule.form steps) :=
  ⟨trivial, trivial, ⟨trivial, trivial, trivial, rule.trigger.threshold.round9.double, trivial,
    trivial, trivial, trivial⟩, ⟨trivial, trivial, trivial, throughout_steps steps,
      rule.recovery.sensorSd.round9.double, trivial, trivial⟩, trivial⟩

variable {repertoire : Repertoire}

theorem proper_canonical {rule : Rule} {form : Json} (formed : rule.canonical repertoire = .ok form) :
    Proper form := by
  rcases map_eq_ok.mp formed with ⟨steps, _, rfl⟩
  exact proper_form rule steps

theorem proper_counts {α : Type} {encode : α → Json} (each : ∀ count, Proper (encode count))
    (table : List (String × α)) : Proper (countsJson encode table) := by
  refine ⟨trivial, (throughoutFields_iff _).mpr (fun field mem => ?_)⟩
  rcases List.mem_map.mp mem with ⟨entry, _, rfl⟩
  exact each entry.2

theorem proper_attribution (attribution : StageAttribution) : Proper attribution.json := by
  have stages : ∀ count : StageCount, Proper count.json := fun _ => ⟨trivial, trivial, trivial, trivial⟩
  have furthest : ∀ count : FurthestCount, Proper count.json :=
    fun _ => ⟨trivial, trivial, trivial, trivial⟩
  have failures : ∀ count, Proper (countJson count) := fun _ => trivial
  exact ⟨trivial, trivial, trivial, throughoutItems_map Json.str (fun _ => trivial) _,
    proper_counts stages _, proper_counts furthest _, proper_counts failures _, trivial⟩

theorem proper_plan (plan : PowerPlan) : Proper plan.asdict :=
  ⟨trivial, trivial, trivial, plan.residualRate.double, trivial, trivial, trivial, trivial,
    plan.discordanceYield.double, plan.searchFraction.double, trivial⟩

theorem properFields_present {α : Type} {encode : α → Json} (each : ∀ value, Proper (encode value))
    (name : String) (value : Option α) : ∀ field ∈ present name encode value, Proper field.2 := by
  intro field mem
  cases value with
  | none => cases mem
  | some value =>
      rw [List.mem_singleton.mp mem]
      exact each value

theorem proper_rungs (rungs : List (Double × PairedResult)) : Proper (.arr (rungs.map rungJson)) := by
  have each : ∀ rung, Proper (rungJson rung) :=
    fun rung => ⟨rung.1.double, proper_gate rung.2, trivial⟩
  exact throughoutItems_map rungJson each rungs

theorem proper_result (result : CampaignResult) : Proper result.json := by
  have fixed : ThroughoutFields PyFloat.IsDouble (fun _ => True)
      [("preregistration_sha", .str result.preregistrationSha),
        ("power_plans", .arr (result.powerPlans.map PowerPlan.asdict)),
        ("generations", .int result.generations), ("promoted", .int result.promoted),
        ("final_sha", .str result.finalSha), ("rules", namesJson result.rules)] :=
    ⟨trivial, throughoutItems_map PowerPlan.asdict proper_plan _, trivial, trivial, trivial,
      throughoutItems_map Json.str (fun _ => trivial) _, trivial⟩
  rw [throughoutFields_iff] at fixed
  refine ⟨trivial, (throughoutFields_iff _).mpr (fun field mem => ?_)⟩
  rcases List.mem_append.mp mem with before | ablation
  · rcases List.mem_append.mp before with before | blind
    · rcases List.mem_append.mp before with here | heldout
      · exact fixed field here
      · exact properFields_present proper_gate _ _ field heldout
    · exact properFields_present proper_gate _ _ field blind
  · exact properFields_present proper_rungs _ _ field ablation

/-- An entry of the generations: proper, and no preregistration. -/
def Later (put : Put) : Prop := Proper put.payload ∧ put.kind ≠ "preregistration"

def Aside (put : Put) : Prop := Later put ∧ put.kind ≠ "generation"

section

variable [Host] [Sha256] [FloatText] [Libm]

omit [Host] [Sha256] [FloatText] [Libm] in
theorem writes_audits (audits : List Audit) : Writes Aside (writeAudits audits) := by
  induction audits with
  | nil => exact Writes.ret ()
  | cons audit rest ih =>
      have aside : Aside ⟨audit.kind, audit.payload⟩ := by
        refine ⟨⟨audit.proper, ?_⟩, ?_⟩
        · intro same
          have kind : audit.kind = "preregistration" := same
          exact audit.own (kind ▸ by decide)
        · intro same
          have kind : audit.kind = "generation" := same
          exact audit.own (kind ▸ by decide)
      exact Writes.bind (Writes.write aside) (fun _ => ih)

omit [Libm] in
theorem writes_consult (setting : Setting) (reasoner : Reasoner) (prereg : Preregistration)
    (preregSha : String) (generation : Nat) (parent : Bundle) (specs : List RolloutSpec)
    (current : List RolloutResult) : Writes Aside
      (consult setting reasoner prereg preregSha generation parent specs current) := by
  have table : ∀ attribution, Writes Aside
      (writeAttribution preregSha generation attribution) := by
    intro attribution
    cases attribution with
    | none => exact Writes.ret ()
    | some attribution =>
        have proper : Proper (.obj [("preregistration_sha", .str preregSha),
            ("generation", .int generation), ("table", attribution.json)]) :=
          ⟨trivial, trivial, trivial, proper_attribution attribution, trivial⟩
        have kinds : "stage_attribution" ≠ "preregistration" ∧ "stage_attribution" ≠ "generation" := by
          decide
        exact Writes.write ⟨⟨proper, kinds.1⟩, kinds.2⟩
  refine Writes.bind (Writes.lift _) (fun attribution => ?_)
  refine Writes.bind (table attribution) (fun _ => ?_)
  by_cases converged : (current.map RolloutResult.success).all id = true
  · rw [if_pos converged]
    exact Writes.ret none
  · rw [if_neg converged]
    refine Writes.bind Writes.written (fun log => ?_)
    exact Writes.bind (writes_audits _) (fun _ => Writes.lift _)

end

/-- No strategy is all zeros with a negative zero among them. -/
def Repertoire.Plain (repertoire : Repertoire) : Prop :=
  ∀ strategy ∈ repertoire.strategies, PlainOffsets strategy.2

theorem plainOffsets_of_steps (plain : repertoire.Plain) {recovery : RecoverySpec}
    {steps : List Step} (resolved : recovery.steps repertoire = .ok steps) :
    PlainOffsets steps := by
  rw [RecoverySpec.steps] at resolved
  cases program : recovery.program with
  | some phases =>
      rw [program] at resolved
      cases resolved
      refine Or.inr (fun step mem => ?_)
      rcases List.mem_map.mp mem with ⟨phase, _, rfl⟩
      have zero : RecoverySpec.zero.value ≠ .negZero := by
        rw [value_zero]
        simp
      exact ⟨zero, zero⟩
  | none =>
      rw [program] at resolved
      change repertoire.strategy recovery.name = _ at resolved
      rw [Repertoire.strategy] at resolved
      cases found : Assoc.get? repertoire.strategies recovery.name with
      | none =>
          rw [found] at resolved
          cases resolved
      | some strategy =>
          rw [found] at resolved
          cases resolved
          exact plain _ (Assoc.mem_of_get? found)

/-- The rules of the two bundles have the same ids and the same canonical forms. -/
structure Twins (repertoire : Repertoire) (rebuilt bundle : Bundle) : Prop where
  ids : rebuilt.rules.map Rule.ruleId = bundle.rules.map Rule.ruleId
  forms : rebuilt.rules.mapM (Rule.canonical repertoire) = bundle.rules.mapM (Rule.canonical repertoire)
  critic : rebuilt.criticBudget = bundle.criticBudget
  action : rebuilt.actionBudget = bundle.actionBudget

theorem Twins.refl (repertoire : Repertoire) (bundle : Bundle) : Twins repertoire bundle bundle :=
  ⟨rfl, rfl, rfl, rfl⟩

def Bundle.extended (bundle : Bundle) (rule : Rule) (parentSha : String) : Bundle :=
  ⟨bundle.rules ++ [rule], bundle.criticBudget, bundle.actionBudget, some parentSha⟩

theorem Twins.extended {rebuilt bundle : Bundle} (twins : Twins repertoire rebuilt bundle)
    {rule other : Rule} (ids : other.ruleId = rule.ruleId)
    (forms : other.canonical repertoire = rule.canonical repertoire) (parentSha : String) :
    Twins repertoire (rebuilt.extended other parentSha) (bundle.extended rule parentSha) where
  ids := by
    rw [Bundle.extended, Bundle.extended, List.map_append, List.map_append, twins.ids, List.map_singleton,
      List.map_singleton, ids]
  forms := by
    have one : [other].mapM (Rule.canonical repertoire) = [rule].mapM (Rule.canonical repertoire) := by
      rw [List.mapM_cons, List.mapM_cons, forms]
    rw [Bundle.extended, Bundle.extended, List.mapM_append, List.mapM_append, twins.forms, one]
  critic := twins.critic
  action := twins.action

section

variable [Sha256] [FloatText]

theorem Twins.sha {repertoire : Repertoire} {rebuilt bundle : Bundle}
    (twins : Twins repertoire rebuilt bundle) : rebuilt.sha repertoire = bundle.sha repertoire := by
  rw [Bundle.sha, Bundle.sha, Bundle.canonical, Bundle.canonical, twins.forms, twins.critic, twins.action]

theorem append_eq_ok {repertoire : Repertoire} {bundle child : Bundle} {rule : Rule} :
    bundle.append repertoire rule = .ok child ↔
      ∃ parentSha, bundle.sha repertoire = .ok parentSha ∧ bundle.extended rule parentSha = child :=
  map_eq_ok

end

/-! ## The generations that were sealed -/

def sealedGenerations (puts : List Put) : List Json :=
  (puts.filter (fun put => put.kind = "generation")).map (fun put =>
    rebuild gather (sortKeys put.payload))

theorem sealedGenerations_aside {puts more : List Put} (aside : ∀ put ∈ more, Aside put) :
    sealedGenerations (puts ++ more) = sealedGenerations puts := by
  have none_ : more.filter (fun put => put.kind = "generation") = [] := by
    rw [List.filter_eq_nil_iff]
    exact fun put mem same => (aside put mem).2 (of_decide_eq_true same)
  rw [sealedGenerations, sealedGenerations, List.filter_append, none_, List.append_nil]

theorem sealedGenerations_snoc (puts : List Put) (payload : Json) :
    sealedGenerations (puts ++ [⟨"generation", payload⟩]) =
      sealedGenerations puts ++ [rebuild gather (sortKeys payload)] := by
  have one : [Put.mk "generation" payload].filter (fun put => put.kind = "generation") =
      [⟨"generation", payload⟩] := rfl
  rw [sealedGenerations, sealedGenerations, List.filter_append, one, List.map_append]
  rfl

section

variable {preregSha : String} {record : GenerationRecord} {form : Json} {blind : PairedResult}

def rereadGeneration (preregSha : String) (record : GenerationRecord) (form : Json)
    (blind : PairedResult) : Json :=
  rebuild gather (sortKeys (.obj (generationFields preregSha record form blind)))

theorem item_generation (name : String) {value : Json}
    (found : Assoc.get? (generationFields preregSha record form blind) name = some value) :
    (rereadGeneration preregSha record form blind).item name =
      .ok (rebuild gather (sortKeys value)) := by
  have distinct : ["blind_gate", "preregistration_sha", "generation", "rule", "parent_sha", "child_sha",
      "dev_gate", "promoted", "reason"].Nodup := by decide
  have unique : (Assoc.keys (generationFields preregSha record form blind)).Nodup := distinct
  exact item_archived unique found

end

section

variable [Host] [Sha256] [FloatText]

variable {installed : Installed} {setting : Setting} {prereg : Preregistration} {puts : List Put}

theorem regrowOne_sealed (plain : installed.repertoire.Plain) {grown bundle : Bundle}
    (twins : Twins installed.repertoire grown bundle) {rule : Rule} {form : Json}
    (formed : rule.canonical installed.repertoire = .ok form) {parentSha : String}
    (parent : bundle.sha installed.repertoire = .ok parentSha) {record : GenerationRecord}
    (child : (bundle.extended rule parentSha).sha installed.repertoire = .ok record.childSha)
    (preregSha : String) (blind : PairedResult) :
    ∃ next, regrowOne installed grown (rereadGeneration preregSha record form blind) = .ok next ∧
      Twins installed.repertoire next
        (if record.promoted then bundle.extended rule parentSha else bundle) := by
  have promoted : (rereadGeneration preregSha record form blind).item "promoted" =
      .ok (.bool record.promoted) := item_generation "promoted" (show _ = some (.bool record.promoted) from rfl)
  cases kept : record.promoted with
  | false =>
      rw [kept] at promoted
      exact ⟨grown, regrowOne_rejected promoted, twins⟩
  | true =>
      rcases map_eq_ok.mp formed with ⟨steps, resolved, same⟩
      have reread : rebuild gather (sortKeys form) = rule.sortedForm steps := by
        rw [← same]
        change rebuild gather (sortKeys (rule.form steps)) = _
        rw [sortKeys_form, rebuild_gather_of_distinct _ (distinct_sortedForm rule steps)]
      have stored : (rereadGeneration preregSha record form blind).item "rule" =
          .ok (rule.sortedForm steps) := by
        rw [← reread]
        exact item_generation "rule" rfl
      have digest : (rereadGeneration preregSha record form blind).item "child_sha" =
          .ok (.str record.childSha) :=
        item_generation "child_sha" (show _ = some (.str record.childSha) from rfl)
      have forms : (rule.reloaded steps).canonical installed.repertoire =
          rule.canonical installed.repertoire := by
        rw [canonical_eq resolved]
        exact (canonical_reloaded_iff resolved).mpr (plainOffsets_of_steps plain resolved)
      have next : Twins installed.repertoire (grown.extended (rule.reloaded steps) parentSha)
          (bundle.extended rule parentSha) :=
        twins.extended (show (rule.reloaded steps).ruleId = rule.ruleId from rfl) forms parentSha
      have appended : grown.append installed.repertoire (rule.reloaded steps) =
          .ok (grown.extended (rule.reloaded steps) parentSha) :=
        append_eq_ok.mpr ⟨parentSha, twins.sha.trans parent, rfl⟩
      have sealed_ : (grown.extended (rule.reloaded steps) parentSha).sha installed.repertoire =
          .ok record.childSha := next.sha.trans child
      have read : ((rereadGeneration preregSha record form blind).item "rule").bind ruleFromCanonical =
          .ok (rule.reloaded steps) := by
        rw [stored]
        exact ruleFromCanonical_sortedForm rule steps
      rw [kept] at promoted
      exact ⟨grown.extended (rule.reloaded steps) parentSha,
        regrowOne_promoted promoted read appended sealed_ digest, next⟩

/-- What was sealed so far grows the bundle of the session again. -/
structure Regrown (installed : Installed) (root : Bundle) (session : Session) (puts : List Put) :
    Prop where
  grows : ∃ grown, (sealedGenerations puts).foldlM (regrowOne installed) root = .ok grown ∧
    Twins installed.repertoire grown session.bundle
  counted : session.bundle.rules.length = session.history.countP GenerationRecord.promoted

theorem Regrown.congr {root : Bundle} {session next : Session}
    (regrown : Regrown installed root session puts) (bundle : next.bundle = session.bundle)
    (history : next.history = session.history) :
    Regrown installed root next puts where
  grows := by
    rw [bundle]
    exact regrown.grows
  counted := by
    rw [bundle, history]
    exact regrown.counted

theorem Regrown.aside {root : Bundle} {session : Session} {more : List Put}
    (regrown : Regrown installed root session puts) (aside : ∀ put ∈ more, Aside put) :
    Regrown installed root session (puts ++ more) where
  grows := by
    rw [sealedGenerations_aside aside]
    exact regrown.grows
  counted := regrown.counted

theorem Regrown.snoc (plain : installed.repertoire.Plain) {root : Bundle} {session next : Session}
    (regrown : Regrown installed root session puts) {rule : Rule} {form : Json}
    (formed : rule.canonical installed.repertoire = .ok form) {parentSha : String}
    (parent : session.bundle.sha installed.repertoire = .ok parentSha) {record : GenerationRecord}
    (child : (session.bundle.extended rule parentSha).sha installed.repertoire = .ok record.childSha)
    (bundle : next.bundle =
      if record.promoted then session.bundle.extended rule parentSha else session.bundle)
    (history : next.history = session.history ++ [record]) (preregSha : String)
    (blind : PairedResult) :
    Regrown installed root next
      (puts ++ [⟨"generation", .obj (generationFields preregSha record form blind)⟩]) := by
  rcases regrown.grows with ⟨grown, grows, twins⟩
  rcases regrowOne_sealed plain twins formed parent child preregSha blind with ⟨after, regrows, twins_⟩
  refine ⟨⟨after, ?_, ?_⟩, ?_⟩
  · have one : [rereadGeneration preregSha record form blind].foldlM (regrowOne installed) grown =
        .ok after := by
      rw [List.foldlM_cons, regrows, bind_ok]
      rfl
    rw [sealedGenerations_snoc, List.foldlM_append, grows, bind_ok]
    exact one
  · rw [bundle]
    exact twins_
  · rw [bundle, history, List.countP_append, ← regrown.counted, List.countP_singleton]
    cases record.promoted with
    | false => rfl
    | true => exact List.length_append

omit [Host] in
theorem childOf_eq_ok {bundle child : Bundle} {rule : Rule}
    (made : childOf installed bundle rule = .ok child) :
    bundle.append installed.repertoire rule = .ok child := by
  rcases of_bind (mapError_eq_ok.mp made) with ⟨appended, append, checked⟩
  rcases map_eq_ok.mp checked with ⟨_, _, same⟩
  rw [← same]
  exact append

omit [Host] [Sha256] [FloatText] in
theorem measured_eq_ok {labels : List Bool} {gates : Gates} {session next : Session}
    (measures : measured prereg labels gates session = .ok next) :
    next.bundle = session.bundle ∧ next.history = session.history := by
  rw [measured] at measures
  rcases of_bind measures with ⟨_, _, rest⟩
  rcases of_bind rest with ⟨_, _, last⟩
  cases last
  exact ⟨rfl, rfl⟩

omit [Host] [Sha256] [FloatText] in
theorem bundle_settled (record : GenerationRecord) (child : Bundle) (session : Session) :
    (settled record child session).1.bundle = if record.promoted then child else session.bundle := by
  rw [settled]
  split <;> rfl

omit [Host] [Sha256] [FloatText] in
theorem history_settled (record : GenerationRecord) (child : Bundle) (session : Session) :
    (settled record child session).1.history = session.history ++ [record] := by
  rw [settled]
  split <;> rfl

theorem regrown_judge (plain : setting.installed.repertoire.Plain) (root : Bundle)
    (prereg : Preregistration) (preregSha : String) (generation : Nat) (specs : List RolloutSpec)
    (labels : List Bool) (session : Session) (rule : Rule) :
    Ensures (Regrown setting.installed root session)
      (judge setting prereg preregSha generation specs labels session rule)
      (fun next => Regrown setting.installed root next.1) := by
  rw [judge]
  refine Ensures.lift_bind (fun child made => ?_)
  refine Ensures.lift_bind (fun gates _ => ?_)
  refine Ensures.lift_bind (fun parentSha parent => ?_)
  refine Ensures.lift_bind (fun childSha digest => ?_)
  refine Ensures.lift_bind (fun next measures => ?_)
  refine Ensures.lift_bind (fun form formed => ?_)
  rcases append_eq_ok.mp (childOf_eq_ok made) with ⟨recorded, sha, rfl⟩
  rcases measured_eq_ok (mapError_eq_ok.mp measures) with ⟨bundle, history⟩
  have formed_ : rule.canonical setting.installed.repertoire = .ok form := mapError_eq_ok.mp formed
  have digest_ : (session.bundle.extended rule recorded).sha setting.installed.repertoire =
      .ok (recordOf prereg generation rule parentSha childSha gates).childSha := mapError_eq_ok.mp digest
  refine Ensures.bind (Ensures.write (fun puts regrown => ?_))
    (fun _ => Ensures.ret (fun _ holds => holds))
  refine regrown.snoc plain formed_ sha digest_ ?_ ?_ preregSha gates.blind
  · rw [bundle_settled, bundle]
  · rw [history_settled, history]

theorem regrown_consult (root : Bundle) (reasoner : Reasoner) (prereg : Preregistration)
    (preregSha : String) (generation : Nat) (session : Session) (specs : List RolloutSpec)
    (current : List RolloutResult) :
    Ensures (Regrown setting.installed root session)
      (consult setting reasoner prereg preregSha generation session.bundle specs current)
      (fun _ => Regrown setting.installed root session) := by
  exact (writes_consult setting reasoner prereg preregSha generation session.bundle specs
    current).ensures (fun log more regrown aside => regrown.aside aside)

omit [Host] [Sha256] [FloatText] in
theorem planned_eq_ok [Libm] {session next : Session} {generation : Nat} {specs : List RolloutSpec}
    (sized : planned prereg session generation = .ok (next, specs)) :
    next.bundle = session.bundle ∧ next.history = session.history := by
  rw [planned] at sized
  split at sized
  · rcases map_eq_ok.mp sized with ⟨plan, _, same⟩
    cases same
    exact ⟨rfl, rfl⟩
  · cases sized
    exact ⟨rfl, rfl⟩

variable [Libm]

theorem regrown_generationOf (plain : setting.installed.repertoire.Plain) (root : Bundle)
    (reasoner : Reasoner) (prereg : Preregistration) (preregSha : String) (session : Session)
    (generation : Nat) :
    Ensures (Regrown setting.installed root session)
      (generationOf setting reasoner prereg preregSha session generation)
      (fun next => Regrown setting.installed root next.1) := by
  rw [generationOf]
  refine Ensures.lift_bind (fun sized plans => ?_)
  rcases sized with ⟨next, specs⟩
  rcases planned_eq_ok plans with ⟨bundle, history⟩
  have consulted : ∀ current, Ensures (Regrown setting.installed root next)
      (consult setting reasoner prereg preregSha generation next.bundle specs current)
      (fun _ => Regrown setting.installed root next) :=
    regrown_consult root reasoner prereg preregSha generation next specs
  refine Ensures.lift_bind (fun current _ => ?_)
  have here := (consulted current).weaken
    (fun puts (regrown : Regrown setting.installed root session puts) => regrown.congr bundle history)
  refine Ensures.bind here (fun candidate => ?_)
  cases candidate with
  | none => exact Ensures.ret (fun _ holds => holds)
  | some rule => exact regrown_judge plain root prereg preregSha generation specs _ next rule

theorem regrown_evolve (plain : setting.installed.repertoire.Plain)
    (scratch : prereg.parentStore = none) (reasoner : Reasoner) (preregSha : String) :
    Ensures (fun puts => sealedGenerations puts = [])
      (evolve setting reasoner prereg preregSha)
      (fun session => Regrown setting.installed prereg.root session) := by
  have root : ∀ store, startingBundle setting.installed (setting.directories store) setting.depth
      prereg = .ok prereg.root := by
    intro store
    rw [startingBundle, scratch]
  have steps := regrown_generationOf plain prereg.root reasoner prereg preregSha
  rw [evolve]
  have reads : Ensures (fun puts => sealedGenerations puts = [])
      (written : Logged Put CampaignError (List Put))
      (fun _ puts => sealedGenerations puts = []) := Ensures.written (fun _ none_ => none_)
  refine Ensures.bind reads (fun puts => ?_)
  refine Ensures.lift_bind (fun bundle starts => ?_)
  rw [root] at starts
  cases starts
  refine (Ensures.iterate steps ⟨prereg.root, [], [], none, none, none⟩ _).weaken ?_
  intro log none_
  refine ⟨⟨prereg.root, ?_, Twins.refl _ _⟩, rfl⟩
  rw [none_]
  rfl

omit [Host] [Libm] in
theorem writes_judge (setting : Setting) (prereg : Preregistration) (preregSha : String)
    (generation : Nat) (specs : List RolloutSpec) (labels : List Bool) (session : Session)
    (rule : Rule) : Writes Later
      (judge setting prereg preregSha generation specs labels session rule) := by
  rw [judge]
  refine Writes.lift_bind (fun child _ => ?_)
  refine Writes.lift_bind (fun gates _ => ?_)
  refine Writes.lift_bind (fun parentSha _ => ?_)
  refine Writes.lift_bind (fun childSha _ => ?_)
  refine Writes.lift_bind (fun next _ => ?_)
  refine Writes.lift_bind (fun form formed => ?_)
  have proper : Proper (.obj (generationFields preregSha
      (recordOf prereg generation rule parentSha childSha gates) form gates.blind)) :=
    ⟨trivial, proper_gate gates.blind, trivial, trivial, proper_canonical (mapError_eq_ok.mp formed),
      trivial, trivial, proper_gate gates.dev, trivial, trivial, trivial⟩
  have kind : "generation" ≠ "preregistration" := by decide
  exact Writes.bind (Writes.write ⟨proper, kind⟩) (fun _ => Writes.ret _)

theorem writes_generationOf (setting : Setting) (reasoner : Reasoner) (prereg : Preregistration)
    (preregSha : String) (session : Session) (generation : Nat) : Writes Later
      (generationOf setting reasoner prereg preregSha session generation) := by
  rw [generationOf]
  refine Writes.lift_bind (fun sized _ => ?_)
  rcases sized with ⟨next, specs⟩
  refine Writes.lift_bind (fun current _ => ?_)
  have consulted := writes_consult setting reasoner prereg preregSha generation next.bundle specs current
  refine Writes.bind (consulted.mono (fun _ aside => aside.1)) (fun candidate => ?_)
  cases candidate with
  | none => exact Writes.ret _
  | some rule => exact writes_judge setting prereg preregSha generation specs _ next rule

theorem writes_evolve (setting : Setting) (reasoner : Reasoner) (prereg : Preregistration)
    (preregSha : String) : Writes Later (evolve setting reasoner prereg preregSha) := by
  rw [evolve]
  refine Writes.bind Writes.written (fun puts => ?_)
  refine Writes.lift_bind (fun bundle _ => ?_)
  exact Writes.iterate (writes_generationOf setting reasoner prereg preregSha) _ _

omit [Host] [Sha256] [FloatText] [Libm] in
theorem writes_finish_aside (setting : Setting) (outcome : Preregistration × Session × CampaignResult) :
    Writes Aside (finish setting outcome) := by
  refine (writes_finish setting outcome).mono (fun put listed => ?_)
  rcases listed with ⟨final, rfl⟩
  have kinds : "campaign_result" ≠ "preregistration" ∧ "campaign_result" ≠ "generation" := by decide
  exact ⟨⟨proper_result final, kinds.1⟩, kinds.2⟩

/-! ## A campaign that returns -/

/-- What a campaign that returns has written: its preregistration, then entries of the
generations that grow the final bundle, then perhaps its result. -/
structure Sealing (setting : Setting) (named : Preregistration) (result : CampaignResult)
    (puts : List Put) : Prop where
  scratch : named.parentStore = none
  first : ∃ more, puts = ⟨"preregistration", named.hashPayload⟩ :: more ∧ ∀ put ∈ more, Later put
  digest : result.preregistrationSha = shaJson named.hashPayload
  grown : ∃ session, Regrown setting.installed named.root session puts ∧
    session.bundle.sha setting.installed.repertoire = .ok result.finalSha ∧
    session.bundle.rules.map Rule.ruleId = result.rules ∧
    session.history.countP GenerationRecord.promoted = result.promoted

theorem sealing_of_returned (plain : setting.installed.repertoire.Plain)
    (scratch : prereg.parentStore = none) {result : CampaignResult}
    (ran : runCampaign setting prereg [] = (.ok result, puts)) :
    ∃ named, Sealing setting named result puts := by
  rcases bind_eq_ok.mp ran with ⟨outcome, middle, until_, finish_⟩
  rcases outcome with ⟨named, session, interim⟩
  rcases untilHeldout_eq_ok until_ with ⟨reasoner, identity, _, rfl, evolves, results⟩
  have scratch_ : (prereg.proposedBy identity).parentStore = none := scratch
  have regrown := regrown_evolve plain scratch_ reasoner _ _ session middle rfl evolves
  rcases map_eq_ok.mp results with ⟨finalSha, digest, rfl⟩
  have same := unscored_finish finish_
  rcases writes_evolve setting reasoner (prereg.proposedBy identity)
    (shaJson (prereg.proposedBy identity).hashPayload)
    [⟨"preregistration", (prereg.proposedBy identity).hashPayload⟩] with ⟨later, grew, laters⟩
  rcases writes_finish_aside setting (prereg.proposedBy identity, session, _) middle with
    ⟨more, added, asides⟩
  rw [finish_] at added
  rw [evolves] at grew
  change puts = middle ++ more at added
  change middle = _ at grew
  have parts : ∀ {α : Type} (part : CampaignResult → α), part result.unscored = part _ :=
    fun part => congrArg part same
  refine ⟨prereg.proposedBy identity, scratch_, ?_, parts CampaignResult.preregistrationSha, session, ?_,
    ?_, ?_, ?_⟩
  · refine ⟨later ++ more, ?_, ?_⟩
    · rw [added, grew, List.append_assoc]
      rfl
    · intro put mem
      exact (List.mem_append.mp mem).elim (laters put) (fun last => (asides put last).1)
  · rw [added]
    exact regrown.aside asides
  · rw [mapError_eq_ok.mp digest]
    exact congrArg Except.ok (parts CampaignResult.finalSha).symm
  · exact (parts CampaignResult.rules).symm
  · exact (parts CampaignResult.promoted).symm

omit [Libm] in
theorem rebuildFinalBundle_sealed {named : Preregistration} {result : CampaignResult}
    (sealing : Sealing setting named result puts) (some_ : 0 < result.promoted)
    (directories : Directories) (depth : Nat) :
    ∃ bundle, rebuildFinalBundle setting.installed directories depth named (sealedGenerations puts) =
        .ok bundle ∧
      bundle.sha setting.installed.repertoire = .ok result.finalSha ∧
      bundle.rules.map Rule.ruleId = result.rules := by
  rcases sealing.grown with ⟨session, regrown, digest, ids, promoted⟩
  rcases regrown.grows with ⟨grown, grows, twins⟩
  have lengths : grown.rules.length = result.promoted := by
    rw [← List.length_map Rule.ruleId, twins.ids, List.length_map, regrown.counted, promoted]
  have solid : grown.rules ≠ [] := by
    intro empty
    rw [empty] at lengths
    exact absurd some_ (lengths ▸ lt_irrefl 0)
  refine ⟨grown, ?_, twins.sha.trans digest, twins.ids.trans ids⟩
  have root : startingBundle setting.installed directories depth named = .ok named.root := by
    rw [startingBundle, sealing.scratch]
  rw [rebuildFinalBundle, root, bind_ok, regrow, grows, bind_ok, if_neg solid]
  rfl

/-- Reading the store of a campaign from scratch that promoted a rule gives back the
preregistration that was sealed and the final bundle. -/
theorem rebuild_inverts_seal (setting : Setting) (prereg : Preregistration) (result : CampaignResult)
    (puts : List Put) (fresh : setting.directory = .fresh) (scratch : prereg.parentStore = none)
    (plain : setting.installed.repertoire.Plain)
    (free : CollisionFree (puts.map (fun put => hashText put.payload)))
    (ran : runCampaign setting prereg [] = (.ok result, puts)) (some_ : 0 < result.promoted)
    (directories : Directories) (depth : Nat) :
    ∃ archived payload rebuilt bundle, readStoreArtifacts (setting.after puts) = .ok archived ∧
      archived.get "preregistration" = [payload] ∧
      rebuildPreregistration payload = .ok rebuilt ∧
      rebuilt.sha = result.preregistrationSha ∧
      rebuildFinalBundle setting.installed directories depth rebuilt (archived.get "generation") =
        .ok bundle ∧
      bundle.sha setting.installed.repertoire = .ok result.finalSha ∧
      bundle.rules.map Rule.ruleId = result.rules := by
  rcases sealing_of_returned plain scratch ran with ⟨named, sealing⟩
  rcases rebuildFinalBundle_sealed sealing some_ directories depth with ⟨bundle, rebuilds, digest, ids⟩
  rcases sealing.first with ⟨more, rfl, later⟩
  have proper : ∀ put ∈ Put.mk "preregistration" named.hashPayload :: more, Proper put.payload := by
    intro put member
    rcases List.mem_cons.mp member with rfl | after
    · exact proper_hashPayload named
    · exact (later put after).1
  have others : more.filter (fun put => put.kind = "preregistration") = [] := by
    rw [List.filter_eq_nil_iff]
    exact fun put member same => (later put member).2 (of_decide_eq_true same)
  have reads : readStoreArtifacts (setting.after (⟨"preregistration", named.hashPayload⟩ :: more)) =
      .ok ⟨(Put.mk "preregistration" named.hashPayload :: more).map Put.archived⟩ := by
    rw [Setting.after, fresh]
    exact readStoreArtifacts_putAll setting.clock (List.cons_ne_nil _ _) proper free
  refine ⟨_, _, named, bundle, reads, ?_, rebuildPreregistration_archived named, sealing.digest.symm, ?_,
    digest, ids⟩
  · rw [get_archived, List.filter_cons, others]
    rfl
  · rw [get_archived]
    exact rebuilds

end

section

local instance sealedHost : Host := asciiHost

local instance sealedFloats : FloatText := exactDecimals

local instance sealedLibm : Libm := productPow

/-- A stand-in for the digest, of the fourth character only: it tells the three texts of
the campaign below apart, as the digest does. -/
def fourth (text : List Char) : String :=
  String.ofList (List.replicate 63 '0' ++
    [if (text.drop 3).head? = some 'c' then '1' else if (text.drop 3).head? = some 'l' then '2' else '3'])

theorem length_fourth (text : List Char) : (fourth text).length = 64 := by
  rw [fourth, String.length_ofList, List.length_append, List.length_replicate, List.length_singleton]

@[reducible] def fourthSha : Sha256 := ⟨fun text => fourth text.toList, fun _ => length_fourth _⟩

local instance sealedSha : Sha256 := fourthSha

/-- One repaired failure is enough to be promoted. -/
def repairedPreregistration : Preregistration :=
  { smallPreregistration with maxGenerations := 1, alpha := Double.nearest 2 }

/-- The governed rollouts succeed and no others. -/
def repairingSetting : Setting :=
  { smallSetting with executor := ⟨fun _ job => .ok ⟨job.bundle.isSome, none, [], none⟩⟩ }

def promotedBy (outcome : Except CampaignError CampaignResult) : Nat :=
  match outcome with
  | .ok result => result.promoted
  | .error _ => 0

theorem promotedBy_repairing :
    promotedBy (runCampaign repairingSetting repairedPreregistration []).1 = 1 := by
  decide +kernel

theorem collisionFree_repairing : CollisionFree
    ((runCampaign repairingSetting repairedPreregistration []).2.map (fun put =>
      hashText put.payload)) := by
  apply collisionFree_of_nodup
  have digests : (Harness.sha ∘ fun put : Put => hashText put.payload) =
      fun put => fourth (print compact 0 (sortKeys put.payload)) :=
    funext (fun put => congrArg fourth String.toList_ofList)
  rw [List.map_map, digests]
  decide +kernel

/-- One rule is promoted, and the store gives it back. -/
theorem rebuild_inverts_seal_repairing : ∃ result archived payload rebuilt bundle,
    (runCampaign repairingSetting repairedPreregistration []).1 = .ok result ∧
    readStoreArtifacts (repairingSetting.after
      (runCampaign repairingSetting repairedPreregistration []).2) = .ok archived ∧
    archived.get "preregistration" = [payload] ∧ rebuildPreregistration payload = .ok rebuilt ∧
    rebuilt.sha = result.preregistrationSha ∧
    rebuildFinalBundle repairingSetting.installed (fun _ => .fresh) 0 rebuilt
      (archived.get "generation") = .ok bundle ∧
    bundle.sha repairingSetting.installed.repertoire = .ok result.finalSha ∧
    bundle.rules.map Rule.ruleId = result.rules := by
  have promoted := promotedBy_repairing
  cases returned : (runCampaign repairingSetting repairedPreregistration []).1 with
  | error error =>
      rw [returned] at promoted
      cases promoted
  | ok result =>
      rw [returned] at promoted
      have some_ : 0 < result.promoted := (show result.promoted = 1 from promoted) ▸ Nat.one_pos
      rcases rebuild_inverts_seal repairingSetting repairedPreregistration result
        (runCampaign repairingSetting repairedPreregistration []).2 rfl rfl
        (List.forall_mem_nil _) collisionFree_repairing
        (Prod.ext returned rfl) some_ (fun _ => .fresh) 0 with
        ⟨archived, payload, rebuilt, bundle, reads, first, rebuilds, digest, regrows, same, ids⟩
      exact ⟨result, archived, payload, rebuilt, bundle, rfl, reads, first, rebuilds, digest, regrows,
        same, ids⟩

end

end Rsi
end PhysicalHarness
