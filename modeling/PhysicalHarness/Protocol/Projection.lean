import PhysicalHarness.Protocol.Graph
import PhysicalHarness.Python.JsonRead

namespace PhysicalHarness
namespace Protocol

open Python JsonText Fallible

/-!
# The view of the skills that a model is shown

`vlm_projection` turns the records of the skills and the start state into one JSON object: a
card for each skill, the facts, the objects, the ids that are done, the last fault and the
shape of an answer.
-/

structure Counts where
  n : Int
  k : Int

/-- The evidence on one embodiment, with the rows of single executors. -/
structure Evidence extends Counts where
  byExecutor : List (String × Counts) := []

structure DescribedSkill extends SkillRecordV0 where
  kind : String := "segment"
  description : String := ""
  /-- embodiment -> evidence -/
  evidence : List (String × Evidence) := []

/-- `value or {}`. -/
def orEmpty (value : Json) : Json := if value.truthy then value else .obj []

/-- `value.get(name)`. -/
def fieldOf (value : Json) (name : String) : Except PyError Json :=
  match value with
  | .obj fields => .ok ((Assoc.get? fields name).getD .null)
  | _ => .error .attributeError

/-- `executors_of`, with the bindings. -/
def executorTable (record : DescribedSkill) : Except PyError (List (String × Json)) :=
  record.bindings.foldlM (fun table binding => do
    let declared ← fieldOf binding.2 "policies"
    let policies ← (orEmpty declared).dict
    return policies.foldl (fun table policy => Assoc.set table policy.1 policy.2) table)
    [("scripted", .obj [])]

/-- `VLM_OUTPUT_SCHEMA`. -/
def vlmOutputSchema : Json :=
  .obj [("goal", .str "<string>"),
    ("nodes", .arr [.obj [("id", .str "<unique string>"), ("skill", .str "<a skill name from skills>"),
      ("args", .obj [("<arg>", .str "<value of the declared type>")]),
      ("after", .arr [.str "<id of an EARLIER node>"]),
      ("executor", .str "<optional: a key of the skill's executors>")]]),
    ("verify", .arr [.obj [("after", .str "<node id>"), ("predicate", .str "<an oracle name>")]]),
    ("rationale", .str "<string: why this graph is legal and sufficient>")]

section

-- `evidence_interval`, the bounds for `k` of `n`
variable (evidenceInterval : Counts → Except PyError (Double × Double))

def intervalJson (counts : Counts) : Except PyError Json := do
  let bounds ← evidenceInterval counts
  return .arr [.float bounds.1.value, .float bounds.2.value]

/-- The interval of the first embodiment that measured this executor. -/
def executorInterval (record : DescribedSkill) (showEvidence : Bool) (key : String) : Except PyError Json :=
  match (sortFields record.evidence).filterMap (fun entry => Assoc.get? entry.2.byExecutor key) with
  | row :: _ => if showEvidence then intervalJson evidenceInterval row else .ok .null
  | [] => .ok .null

def executorCard (record : DescribedSkill) (showEvidence : Bool) (executor : String × Json) :
    Except PyError (String × Json) := do
  let interval ← executorInterval evidenceInterval record showEvidence executor.1
  let sha ← fieldOf executor.2 "checkpoint_sha"
  return (executor.1,
    .obj (("evidence", interval) :: if sha.truthy then [("checkpoint_sha", sha)] else []))

def shownEvidence (record : DescribedSkill) (showEvidence : Bool) : Except PyError (List (String × Json)) :=
  if showEvidence then do
    let rows ← (sortFields record.evidence).mapM (fun entry => do
      let interval ← intervalJson evidenceInterval entry.2.toCounts
      return (entry.1, interval))
    return [("evidence", .obj rows)]
  else .ok []

def skillCard (showEvidence : Bool) (named : String × DescribedSkill) : Except PyError Json := do
  let evidence ← shownEvidence evidenceInterval named.2 showEvidence
  let table ← executorTable named.2
  let executors ← (sortFields table).mapM (executorCard evidenceInterval named.2 showEvidence)
  return .obj ([("name", .str named.1), ("kind", .str named.2.kind),
      ("args", .obj ((sortFields named.2.args).map (fun arg => (arg.1, .str arg.2)))),
      ("requires", .arr (named.2.requires.map .str)), ("ensures", .arr (named.2.ensures.map .str))] ++
    (if named.2.clobbers.isEmpty then [] else [("clobbers", .arr (named.2.clobbers.map .str))]) ++
    (if named.2.description = "" then [] else [("description", .str named.2.description)]) ++
    evidence ++ [("executors", .obj executors)])

def skillCards (showEvidence : Bool) (records : List (String × DescribedSkill)) :
    Except PyError (List Json) :=
  (sortFields records).mapM (skillCard evidenceInterval showEvidence)

end

/-- `sorted(pred_ref_str(f) for f in facts)`. -/
def factTexts [Host] (facts : List Json) : Except PyError (List String) := do
  let texts ← facts.mapM (fun fact => predRefStr (.value fact))
  return sorted texts

/-- `sorted(str(o) for o in objects)`. -/
def objectTexts [Host] (objects : List Json) : List String := sorted (objects.map pyStr)

/-- `vlm_projection`, from its cards and texts. -/
def projection (cards : List Json) (facts objects : List String) (done : List Json) (fault : Json) :
    List (String × Json) :=
  [("skills", .arr cards), ("facts", .arr (facts.map .str)), ("objects", .arr (objects.map .str)),
    ("done", .arr done), ("fault", fault), ("output_schema", vlmOutputSchema)]

theorem proper_orEmpty {value : Json} (proper : Proper value) : Proper (orEmpty value) := by
  unfold orEmpty
  split
  · exact proper
  · exact ⟨trivial, trivial⟩

theorem proper_fieldOf {value found : Json} {name : String} (proper : Proper value)
    (read : fieldOf value name = .ok found) : Proper found := by
  unfold fieldOf at read
  split at read
  · rename_i fields
    cases read
    cases entry : Assoc.get? fields name with
    | none => trivial
    | some found => exact proper_get? proper entry
  · cases read

abbrev Bound (record : DescribedSkill) : Prop := ProperFields record.bindings

theorem properFields_executorTable {record : DescribedSkill} (bound : Bound record)
    {table : List (String × Json)} (made : executorTable record = .ok table) : ProperFields table := by
  unfold executorTable at made
  have known : ProperFields [("scripted", .obj [])] := by
    intro field mem
    rw [List.mem_singleton.mp mem]
    exact ⟨trivial, trivial⟩
  generalize [("scripted", Json.obj [])] = start at made known
  unfold Bound at bound
  generalize record.bindings = bindings at bound made
  induction bindings generalizing start with
  | nil =>
      cases made
      exact known
  | cons binding rest ih =>
      rw [List.foldlM_cons] at made
      rcases of_bind made with ⟨middle, added, made⟩
      rcases of_bind added with ⟨declared, read, added⟩
      rcases of_bind added with ⟨policies, dict, added⟩
      cases added
      refine ih _ ?_ (fun field mem => bound field (.tail _ mem)) made
      apply properFields_foldl_set _ known
      have proper := proper_orEmpty (proper_fieldOf (bound binding (.head _)) read)
      generalize orEmpty declared = value at dict proper
      cases value with
      | obj fields =>
          cases dict
          exact (throughoutFields_iff _).mp proper.2
      | _ => cases dict

section

variable {evidenceInterval : Counts → Except PyError (Double × Double)} {record : DescribedSkill}
  {showEvidence : Bool}

theorem proper_intervalJson {counts : Counts} {value : Json}
    (made : intervalJson evidenceInterval counts = .ok value) : Proper value := by
  rcases of_bind made with ⟨bounds, _, same⟩
  cases same
  exact ⟨bounds.1.double, bounds.2.double, trivial⟩

theorem proper_executorCard {executor card : String × Json} (proper : Proper executor.2)
    (made : executorCard evidenceInterval record showEvidence executor = .ok card) : Proper card.2 := by
  rcases of_bind made with ⟨interval, measured, made⟩
  rcases of_bind made with ⟨sha, read, made⟩
  cases made
  have known : Proper interval := by
    unfold executorInterval at measured
    split at measured
    · split at measured
      · exact proper_intervalJson measured
      · cases measured
        trivial
    · cases measured
      trivial
  apply proper_obj
  intro field mem
  rcases List.mem_cons.mp mem with rfl | later
  · exact known
  · split at later
    · rw [List.mem_singleton.mp later]
      exact proper_fieldOf proper read
    · cases later

theorem properFields_shownEvidence {fields : List (String × Json)}
    (made : shownEvidence evidenceInterval record showEvidence = .ok fields) : ProperFields fields := by
  unfold shownEvidence at made
  split at made
  · rcases of_bind made with ⟨rows, measured, made⟩
    cases made
    intro field mem
    rw [List.mem_singleton.mp mem]
    apply proper_obj
    intro row known
    rcases exists_mem_of_mapM measured known with ⟨entry, _, ran⟩
    rcases of_bind ran with ⟨interval, told, ran⟩
    cases ran
    exact proper_intervalJson told
  · cases made
    exact fun _ none_ => absurd none_ List.not_mem_nil

theorem proper_skillCard {named : String × DescribedSkill} {card : Json} (bound : Bound named.2)
    (made : skillCard evidenceInterval showEvidence named = .ok card) : Proper card := by
  rcases of_bind made with ⟨evidence, shown, made⟩
  rcases of_bind made with ⟨table, tabled, made⟩
  rcases of_bind made with ⟨executors, carded, made⟩
  cases made
  have texts : ∀ (pairs : List (String × String)), Proper (.obj (pairs.map (fun arg => (arg.1, .str arg.2)))) := by
    intro pairs
    apply proper_obj
    intro field mem
    rcases List.mem_map.mp mem with ⟨arg, _, rfl⟩
    trivial
  refine proper_obj (properFields_append (properFields_append (properFields_append
    (properFields_append ?_ ?_) ?_) (properFields_shownEvidence shown)) ?_)
  · intro field mem
    simp only [List.mem_cons, List.not_mem_nil, or_false] at mem
    rcases mem with rfl | rfl | rfl | rfl | rfl
    · trivial
    · trivial
    · exact texts _
    · exact proper_texts _
    · exact proper_texts _
  · split
    · exact fun _ none_ => absurd none_ List.not_mem_nil
    · intro field mem
      rw [List.mem_singleton.mp mem]
      exact proper_texts _
  · split
    · exact fun _ none_ => absurd none_ List.not_mem_nil
    · intro field mem
      rw [List.mem_singleton.mp mem]
      trivial
  · intro field mem
    rw [List.mem_singleton.mp mem]
    apply proper_obj
    intro executor known
    rcases exists_mem_of_mapM carded known with ⟨entry, listed, ran⟩
    exact proper_executorCard (properFields_executorTable bound tabled entry
      ((List.mem_insertionSort _).mp listed)) ran

theorem proper_skillCards {records : List (String × DescribedSkill)} {cards : List Json}
    (bound : ∀ named ∈ records, Bound named.2)
    (made : skillCards evidenceInterval showEvidence records = .ok cards) : ∀ card ∈ cards, Proper card := by
  intro card mem
  rcases exists_mem_of_mapM made mem with ⟨named, listed, ran⟩
  exact proper_skillCard (bound named ((List.mem_insertionSort _).mp listed)) ran

end

end Protocol
end PhysicalHarness
