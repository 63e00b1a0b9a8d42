import PhysicalHarness.Protocol.PlanRecord
import PhysicalHarness.Scripts.PublishPlans

namespace PhysicalHarness
namespace Scripts

open Python Board Protocol Fallible

/-!
# Promoting plans

A row of the pool that clears the rule becomes a record, with the goals that the caller
names for its task, and is published if the gate accepts it.  The skills root checks the
record again, without the skills.
-/

/-- A report line, with the record when the rule and the gate hold. -/
structure ReportLine where
  task : Json
  graphSha : Json
  embodiment : Json
  arm : Json
  n : Nat
  k : Nat
  lower : Double
  reason : Option String
  record : Option PlanRecord

/-- `goals.get(task, ())`. -/
def goalsOf (goals : List (String × List String)) (task : Json) : List String :=
  match task with
  | .str name => (Assoc.get? goals name).getD []
  | _ => []

def planRecord (theta : Double) (nMin : Int) (goals : List (String × List String))
    (row : PooledPlan × Double) (lower : Double) : PlanRecord where
  id := row.1.key.graphSha
  task := row.1.key.task
  goal := goalsOf goals row.1.key.task
  graph := row.1.graph
  embodiment := row.1.key.embodiment
  arm := row.1.key.arm
  evidence := .obj [("n", .int row.1.n), ("k", .int row.1.k), ("L_mean", .float row.2.value),
    ("seed_blocks", .arr row.1.blocks), ("sessions", .arr (row.1.sessions.map .str))]
  rule := .obj [("theta", .float theta.value), ("n_min", .int nMin), ("lower", .float lower.value)]
  publishedFrom := row.1.publishedFrom.map (fun source =>
    .obj [("session", .str source.1), ("seqs", .arr (source.2.map (fun seq => .int seq)))])
  kind := .str "plan"

def lineOf (row : PooledPlan × Double) (lower : Double) : ReportLine :=
  ⟨row.1.key.task, row.1.key.graphSha, row.1.key.embodiment, row.1.key.arm, row.1.n, row.1.k, lower,
    none, none⟩

section

variable [Host] (planLowerBound : Int → Int → Except NumberError Double) (theta : Double) (nMin : Int)
  (goals : List (String × List String)) (records : List (Json × SkillRecordV0))

def candidate (row : PooledPlan × Double) : Except PlanError ReportLine := do
  let lower ← (planLowerBound row.1.n row.1.k).mapError .number
  if lower.lt theta || decide ((row.1.n : Int) < nMin) then
    return { lineOf row lower with reason := some ("rule: lower " ++ Host.repr (.float lower.value) ++
      " < theta " ++ Host.repr (.float theta.value) ++ " or n " ++ toString row.1.n ++ " < n_min " ++
      toString nMin) }
  else do
    (hashed row.1.key.task).mapError .raised
    let record := planRecord theta nMin goals row lower
    match validatePlan planLowerBound record.plain (some records) row.1.facts row.1.objects with
    | .ok _ => return { lineOf row lower with record := some record }
    | .error (.skillRecordError message) => return { lineOf row lower with reason := some message }
    | .error error => .error error

/-- `candidates`. -/
def candidates (rows : List (PooledPlan × Double)) : Except PlanError (List ReportLine) :=
  rows.mapM (candidate planLowerBound theta nMin goals records)

/-- `publish`, of a plan record: the record is stored under its digest. -/
def publish (skills : Dict String Json) (record : Json) : Except PlanError (String × Dict String Json) := do
  validatePlan planLowerBound record none [] []
  return (Host.sha record, skills.set (Host.sha record) record)

end

section

variable [Host] {planLowerBound : Int → Int → Except NumberError Double} {theta : Double} {nMin : Int}
  {goals : List (String × List String)} {records : List (Json × SkillRecordV0)}

theorem record_of_candidate {row : PooledPlan × Double} {line : ReportLine} {record : PlanRecord}
    (ran : candidate planLowerBound theta nMin goals records row = .ok line)
    (carried : line.record = some record) : ∃ lower, record = planRecord theta nMin goals row lower ∧
      validatePlan planLowerBound record.plain (some records) row.1.facts row.1.objects = .ok () := by
  rcases of_bind ran with ⟨lower, _, ran⟩
  split at ran
  · rw [← Except.ok.inj ran] at carried
    cases carried
  · rcases of_bind ran with ⟨_, _, ran⟩
    dsimp only at ran
    split at ran
    · rename_i passed
      rw [← Except.ok.inj ran] at carried
      cases carried
      exact ⟨lower, rfl, passed⟩
    · rw [← Except.ok.inj ran] at carried
      cases carried
    · cases ran

/-- A published record names its graph, and its nodes achieve its goals; so it is proved to
reach a goal exactly when the caller named a goal for its task. -/
theorem promoted_iff_goal (paren : Host.isWord '(' = false) {rows : List (PooledPlan × Double)}
    {lines : List ReportLine} (ran : candidates planLowerBound theta nMin goals records rows = .ok lines) :
    ∀ row line, (row, line) ∈ rows.zip lines → ∀ record, line.record = some record →
      ∀ skills published, publish planLowerBound skills record.plain = .ok published →
        ((record.goal ≠ [] ∧ record.id = .str (graphSha record.graph) ∧
          record.Achieves records row.1.facts) ↔ goalsOf goals row.1.key.task ≠ []) := by
  intro row line paired record carried skills published _
  have here := (List.forall₂_iff_zip.mp (mapM_eq_ok_iff.mp ran)).2 paired
  rcases record_of_candidate here carried with ⟨lower, same, passed⟩
  rcases validatePlan_eq_ok passed with ⟨id, ⟨first, rest, nodes⟩, legal⟩
  have goal : record.goal = goalsOf goals row.1.key.task := congrArg PlanRecord.goal same
  rw [goal]
  constructor
  · intro all
    exact all.1
  · intro named
    exact ⟨named, id, achieves_of_legal paren nodes legal⟩

theorem publish_promoted {row : PooledPlan × Double} {line : ReportLine} {record : PlanRecord}
    (ran : candidate planLowerBound theta nMin goals records row = .ok line)
    (carried : line.record = some record) (skills : Dict String Json) :
    publish planLowerBound skills record.plain =
      .ok (Host.sha record.plain, skills.set (Host.sha record.plain) record.plain) := by
  rcases record_of_candidate ran carried with ⟨lower, _, passed⟩
  rw [publish, validatePlan_none passed]
  rfl

end

section

local instance promotionHost : Host := asciiHost

/-- The bound for ten successes of ten. -/
def tenOfTen (_ _ : Int) : Except NumberError Double := .ok (Double.nearest (7828 / 10 ^ 4))

def canPlan : Json := .obj [("goal", .str "hold the can"), ("nodes", .arr [.obj [("id", .str "n1"),
  ("skill", .str "pick"), ("args", .obj [("object", .str "can")]), ("after", .arr [])]])]

def canRow : PooledPlan × Double :=
  (⟨⟨.str "stack", .str (graphSha canPlan), .str "sim", .str "scripted"⟩, canPlan,
    [.str "present(can)"], [.str "can"], [4], [], [], 10, 10, Double.nearest 10, ["a"], [("a", [4])]⟩,
    Double.nearest 1)

def canRecords : List (Json × SkillRecordV0) :=
  [(.str "pick", {
    id := .str "pick"
    name := .str "pick"
    args := [("object", "str")]
    requires := ["present(object)"]
    ensures := ["holding(object)"] })]

def promotedGoals (goals : List (String × List String)) : Option (List (Option (List String))) :=
  ((candidates tenOfTen (Double.nearest (1 / 2)) 10 goals canRecords [canRow]).map
    (fun lines => lines.map (fun line => line.record.map PlanRecord.goal))).toOption

theorem exists_promoted {goals : List (String × List String)} {names : List String}
    (promoted : promotedGoals goals = some [some names]) : ∃ line record,
      candidates tenOfTen (Double.nearest (1 / 2)) 10 goals canRecords [canRow] = .ok [line] ∧
      line.record = some record ∧ record.goal = names := by
  rw [promotedGoals] at promoted
  cases ran : candidates tenOfTen (Double.nearest (1 / 2)) 10 goals canRecords [canRow] with
  | error error =>
      rw [ran] at promoted
      cases promoted
  | ok lines =>
      rw [ran] at promoted
      have views : lines.map (fun line => line.record.map PlanRecord.goal) = [some names] :=
        Option.some.inj promoted
      rcases List.map_eq_cons_iff.mp views with ⟨line, rest, same, here, nothing⟩
      rcases Option.map_eq_some_iff.mp here with ⟨record, carried, goal⟩
      rw [List.map_eq_nil_iff.mp nothing] at same
      exact ⟨line, record, by rw [same], carried, goal⟩

theorem promoted_iff_goal_can : ∃ line record published,
    candidates tenOfTen (Double.nearest (1 / 2)) 10 [("stack", ["holding(can)"])] canRecords [canRow] =
      .ok [line] ∧ line.record = some record ∧ publish tenOfTen Dict.empty record.plain = .ok published ∧
    ((record.goal ≠ [] ∧ record.id = .str (graphSha record.graph) ∧
      record.Achieves canRecords canRow.1.facts) ↔
        goalsOf [("stack", ["holding(can)"])] canRow.1.key.task ≠ []) := by
  rcases exists_promoted (show promotedGoals [("stack", ["holding(can)"])] = some [some ["holding(can)"]] by
    decide +kernel) with ⟨line, record, ran, carried, _⟩
  have here := (List.forall₂_iff_zip.mp (mapM_eq_ok_iff.mp ran)).2 List.mem_cons_self
  have stored := publish_promoted here carried Dict.empty
  exact ⟨line, record, _, ran, carried, stored, promoted_iff_goal (by decide) ran canRow line
    List.mem_cons_self record carried Dict.empty _ stored⟩

/-- Without a goal for the task, a record with no goal is published. -/
theorem promoted_without_goal : ∃ line record published,
    candidates tenOfTen (Double.nearest (1 / 2)) 10 [] canRecords [canRow] = .ok [line] ∧
      line.record = some record ∧ publish tenOfTen Dict.empty record.plain = .ok published ∧
      record.goal = [] := by
  rcases exists_promoted (show promotedGoals [] = some [some []] by decide +kernel) with
    ⟨line, record, ran, carried, goal⟩
  have here := (List.forall₂_iff_zip.mp (mapM_eq_ok_iff.mp ran)).2 List.mem_cons_self
  exact ⟨line, record, _, ran, carried, publish_promoted here carried Dict.empty, goal⟩

end

end Scripts
end PhysicalHarness
