import PhysicalHarness.Board.Trajectories

namespace PhysicalHarness
namespace Board

open Python Protocol PhysicalHarness.Task Fallible

/-!
# Which proposals the readers accept

The readers meet every proposal that was sealed, whether the gate accepted it or not.  Two
of them look at parts that the writer built itself.  The evidence for skills walks over the
nodes of the proposal, and returns as long as each proposal has nodes to walk over.
-/

section

variable [Host]

/-- The nodes are absent, empty, or objects whose ids have a hash. -/
def enumerable (plan : Json) : Bool :=
  match plan.get? "nodes" with
  | none => true
  | some (.arr items) => items.all (fun node => node.isMapping && (node.getD "id" .null).hashable)
  | some (.str text) => decide (text = "")
  | some (.obj fields) => fields.isEmpty
  | some _ => false

omit [Host] in
theorem returns_skillOfNode_iff (table : List (Json × Json)) (node : Json) :
    Returns (skillOfNode table node) ↔ (node.isMapping && (node.getD "id" .null).hashable) = true := by
  cases node with
  | obj fields =>
      change Returns (Except.bind (hashed ((Assoc.get? fields "id").getD .null)) _) ↔
        ((Assoc.get? fields "id").getD Json.null).hashable = true
      rw [hashed]
      by_cases hashes : ((Assoc.get? fields "id").getD Json.null).hashable = true
      · rw [if_pos hashes]
        exact ⟨fun _ => hashes, fun _ => ⟨_, rfl⟩⟩
      · rw [if_neg hashes]
        exact ⟨fun never => absurd never (not_returns_error _), fun same => absurd same hashes⟩
  | _ => exact ⟨fun never => absurd never (not_returns_error _), fun never => by cases never⟩

omit [Host] in
theorem returns_nodes_iff (items : List Json) :
    Returns (items.foldlM skillOfNode []) ↔
      items.all (fun node => node.isMapping && (node.getD "id" .null).hashable) = true := by
  rw [returns_foldlM_iff returns_skillOfNode_iff, List.all_eq_true]

omit [Host] in
theorem returns_walk_iff (nodes : Json) :
    Returns (nodes.iter >>= fun items => items.foldlM skillOfNode []) ↔
      enumerable (.obj [("nodes", nodes)]) = true := by
  cases nodes with
  | arr items => exact returns_nodes_iff items
  | str text =>
      change Returns ((text.toList.map (fun char => Json.str (String.ofList [char]))).foldlM skillOfNode []) ↔
        decide (text = "") = true
      rw [returns_nodes_iff, List.all_map, decide_eq_true_eq]
      cases chars : text.toList with
      | nil => exact ⟨fun _ => String.toList_inj.mp chars, fun _ => rfl⟩
      | cons first rest =>
          refine ⟨fun never => (by cases never), fun empty => ?_⟩
          rw [empty] at chars
          cases chars
  | obj fields =>
      change Returns ((fields.map (fun field => Json.str field.1)).foldlM skillOfNode []) ↔
        fields.isEmpty = true
      rw [returns_nodes_iff, List.all_map]
      cases fields with
      | nil => exact ⟨fun _ => rfl, fun _ => rfl⟩
      | cons first rest =>
          exact ⟨fun never => (by cases never), fun never => (by cases never)⟩
  | _ => exact ⟨fun never => absurd never (not_returns_error _), fun never => by cases never⟩

omit [Host] in
theorem returns_skillTable_iff (note : PlanNote) :
    Returns (skillTable note.graph) ↔ enumerable note.plan = true := by
  have nothing : Returns (skillTable .null) := ⟨[], rfl⟩
  rw [PlanNote.graph]
  cases note.plan with
  | obj fields =>
      cases fields with
      | nil => exact ⟨fun _ => rfl, fun _ => ⟨[], rfl⟩⟩
      | cons first rest =>
          change Returns (((Assoc.get? (first :: rest) "nodes").getD (.arr [])).iter >>= _) ↔ _
          rw [returns_walk_iff, enumerable, enumerable]
          change _ ↔ (match Assoc.get? (first :: rest) "nodes" with
            | none => true
            | some (.arr items) => items.all (fun node => node.isMapping && (node.getD "id" .null).hashable)
            | some (.str text) => decide (text = "")
            | some (.obj fields) => fields.isEmpty
            | some _ => false) = true
          cases Assoc.get? (first :: rest) "nodes" with
          | none => exact Iff.rfl
          | some nodes => exact Iff.rfl
  | _ => exact ⟨fun _ => rfl, fun _ => nothing⟩

def HashableSkills (table : List (Json × Json)) : Prop := ∀ pair ∈ table, pair.2.hashable = true

omit [Host] in
theorem mem_assign {α : Type} {pairs : List (Json × α)} {pair other : Json × α}
    (mem : other ∈ assign pairs pair) : other.2 = pair.2 ∨ other ∈ pairs := by
  induction pairs with
  | nil =>
      rw [assign, List.mem_singleton] at mem
      exact .inl (congrArg Prod.snd mem)
  | cons first rest ih =>
      rw [assign] at mem
      split at mem
      · rcases List.mem_cons.mp mem with same | later
        · exact .inl (by rw [same])
        · exact .inr (.tail _ later)
      · rcases List.mem_cons.mp mem with same | later
        · exact .inr (same ▸ List.mem_cons_self)
        · rcases ih later with fresh | old
          · exact .inl fresh
          · exact .inr (.tail _ old)

omit [Host] in
theorem skill_of_skillOfNode {table next : List (Json × Json)} {node : Json}
    (skills : HashableSkills table) (hashes : (node.getD "skill" .null).hashable = true)
    (stored : skillOfNode table node = .ok next) : HashableSkills next := by
  rw [skillOfNode] at stored
  rcases of_bind stored with ⟨id, _, rest⟩
  rcases of_bind rest with ⟨skill, read, rest_⟩
  rcases of_bind rest_ with ⟨_, _, same⟩
  rw [← Except.ok.inj same]
  intro pair mem
  rcases mem_assign mem with fresh | old
  · rw [fresh]
    cases node with
    | obj fields =>
        rw [← Except.ok.inj read]
        exact hashes
    | _ => cases read
  · exact skills pair old

omit [Host] in
theorem skillTable_eq {note : PlanNote} {items : List Json}
    (nodes : note.plan.get? "nodes" = some (.arr items)) :
    skillTable note.graph = items.foldlM skillOfNode [] := by
  rw [PlanNote.graph]
  cases plan : note.plan with
  | obj fields =>
      rw [plan] at nodes
      cases fields with
      | nil => cases nodes
      | cons first rest =>
          change (((Assoc.get? (first :: rest) "nodes").getD (.arr [])).iter >>= _) = _
          rw [show Assoc.get? (first :: rest) "nodes" = some (.arr items) from nodes]
          rfl
  | _ =>
      rw [plan] at nodes
      cases nodes

theorem skillTable_of_passed {note : PlanNote} (passed : Passed note.plan) :
    ∃ table, skillTable note.graph = .ok table ∧ HashableSkills table := by
  rcases passed with ⟨catalogue, oracles, done, requirements, accepted⟩
  have nodes := accepted.reads.nodes
  have forms : ∀ node ∈ nodesOf note.plan, ∃ earlier, AcceptedNode catalogue earlier node := by
    intro node mem
    rcases List.append_of_mem mem with ⟨first, rest, split⟩
    exact ⟨_, accepted.nodes first node rest split⟩
  have named : (nodesOf note.plan).all
      (fun node => node.isMapping && (node.getD "id" .null).hashable) = true := by
    rw [List.all_eq_true]
    intro node mem
    rcases forms node mem with ⟨earlier, form⟩
    rw [Json.getD, form.id, Option.getD_some]
    cases node with
    | obj fields => rfl
    | _ => cases form.id
  rcases (returns_nodes_iff _).mpr named with ⟨table, ran⟩
  refine ⟨table, (skillTable_eq nodes).trans ran, ?_⟩
  refine foldlM_invariant ?_ (List.forall_mem_nil _) ran
  intro state node next mem skills stored
  rcases forms node mem with ⟨earlier, form⟩
  refine skill_of_skillOfNode skills ?_ stored
  rw [Json.getD, form.skill, Option.getD_some]
  exact form.hashable

/-! ## The evidence for skills -/

omit [Host] in
theorem skillStep_skips (state : SkillCounts) (content : Content) (other : content.1 ∉ taskKinds) :
    skillStep state content = .ok state := by
  have kinds : content.1 ≠ "task.plan" ∧ content.1 ≠ "task.verify" ∧ content.1 ≠ "task.plan_complete" := by
    simpa [taskKinds] using other
  rw [skillStep, if_neg kinds.1, if_neg kinds.2.1]

theorem skillStep_plan (state : SkillCounts) (note : PlanNote) :
    skillStep state note.content =
      (skillTable note.graph).map (fun table =>
        ({ state with skillOf := table, embodiment := .str note.embodiment } : SkillCounts)) := by
  have plan : note.content.1 = "task.plan" := rfl
  rw [skillStep, if_pos plan]
  change Except.bind (skillTable note.graph) _ = _
  cases skillTable note.graph with
  | error error => rfl
  | ok table => rfl

omit [Host] in
theorem skillStep_complete (state : SkillCounts) (note : CompleteNote) :
    skillStep state note.content = .ok state := by
  have complete : note.content.1 = "task.plan_complete" := rfl
  rw [skillStep, complete, if_neg (by decide), if_neg (by decide)]

/-- A row of a verified node is counted when the skills of the proposal have a hash. -/
structure Countable (state : SkillCounts) : Prop where
  skills : HashableSkills state.skillOf
  embodiment : state.embodiment.hashable = true

omit [Host] in
theorem hashable_executor (executor : Option String) :
    (orDefault (nullable executor) (.str "scripted")).hashable = true := by
  rw [orDefault]
  split
  · cases executor with
    | none => rfl
    | some name => rfl
  · rfl

omit [Host] in
theorem skillStep_verify {state : SkillCounts} (countable : Countable state) (note : VerifyNote) :
    ∃ next, skillStep state note.content = .ok next ∧ Countable next := by
  have verify : note.content.1 = "task.verify" := rfl
  have executor : field note.content.2 "executor" = .ok (nullable note.executor) := by
    cases named : note.executor <;> (rw [VerifyNote.content, named]; rfl)
  have node : field note.content.2 "node" = .ok (.str note.node) := rfl
  have hashes : hashed (.str note.node) = .ok () := rfl
  rw [skillStep, verify, if_neg (by decide), if_pos rfl, node, bind_ok, hashes, bind_ok]
  cases found : state.skillOf.find? (fun pair => pair.1.eq (.str note.node)) with
  | none => exact ⟨state, rfl, countable⟩
  | some pair =>
      have skill := countable.skills pair (List.mem_of_find?_eq_some found)
      have key : hashedAll [pair.2, state.embodiment, orDefault (nullable note.executor) (.str "scripted")] =
          .ok () := by
        rw [hashedAll, if_pos]
        rw [List.all_cons, List.all_cons, List.all_cons, skill, countable.embodiment,
          hashable_executor]
        rfl
      simp only [executor, allTrue_content]
      change ∃ next, (hashedAll [pair.2, state.embodiment,
        orDefault (nullable note.executor) (.str "scripted")] >>= fun _ => _) = Except.ok next ∧ _
      rw [key]
      exact ⟨_, rfl, countable.skills, countable.embodiment⟩

omit [Host] in
theorem fold_countable (notes : List VerifyNote) {state : SkillCounts} (countable : Countable state) :
    Returns ((notes.map VerifyNote.content).foldlM skillStep state) := by
  induction notes generalizing state with
  | nil => exact ⟨state, rfl⟩
  | cons note rest ih =>
      rcases skillStep_verify countable note with ⟨next, here, countable_⟩
      rw [List.map_cons, List.foldlM_cons, here]
      exact ih countable_

theorem returns_attempt_iff (state : SkillCounts) (attempt : Attempt) :
    Returns (attempt.contents.foldlM skillStep state) ↔ enumerable attempt.note.plan = true := by
  rw [Attempt.contents, List.foldlM_cons, skillStep_plan, ← returns_skillTable_iff]
  constructor
  · intro ran
    rcases returns_bind.mp ran with ⟨next, here, _⟩
    rcases map_eq_ok.mp here with ⟨table, read, _⟩
    exact ⟨table, read⟩
  · intro read
    by_cases ran : attempt.verified = []
    · rcases read with ⟨table, at_⟩
      rw [at_, ran]
      exact ⟨_, rfl⟩
    · rcases skillTable_of_passed (attempt.passed (attempt.legal ran)) with ⟨table, at_, skills⟩
      rw [at_]
      exact fold_countable attempt.verified ⟨skills, rfl⟩

theorem returns_run_iff (state : SkillCounts) (run : Run) :
    Returns (run.contents.foldlM skillStep state) ↔
      ∀ attempt ∈ run.attempts, enumerable attempt.note.plan = true := by
  have closes : ∀ next, Returns ((run.completed.map CompleteNote.content).toList.foldlM skillStep next) := by
    intro next
    cases run.completed with
    | none => exact ⟨next, rfl⟩
    | some note => exact ⟨next, bind_eq_ok.mpr ⟨next, skillStep_complete next note, rfl⟩⟩
  rw [Run.contents, List.foldlM_append, returns_bind, foldlM_flatMap,
    ← returns_foldlM_iff returns_attempt_iff run.attempts state]
  constructor
  · intro ran
    rcases ran with ⟨next, here, _⟩
    exact ⟨next, here⟩
  · intro ran
    rcases ran with ⟨next, here⟩
    exact ⟨next, here, closes next⟩

variable {state : PlanEntries} {rows : List Row} {runs : List Run}

theorem returns_skillEvidence_iff (written : Writes runs rows) :
    Returns (skillEvidence rows) ↔
      ∀ run ∈ runs, ∀ attempt ∈ run.attempts, enumerable attempt.note.plan = true := by
  rw [skillEvidence, foldlM_of_writes skillStep_skips written, foldlM_flatMap, returns_bind,
    ← returns_foldlM_iff returns_run_iff runs ⟨[], .null, []⟩]
  constructor
  · intro ran
    rcases ran with ⟨next, here, _⟩
    exact ⟨next, here⟩
  · intro ran
    rcases ran with ⟨next, here⟩
    exact ⟨next, here, ⟨_, rfl⟩⟩

def SkillEntry.Bounded (entry : SkillEntry) : Prop := entry.k ≤ entry.n

omit [Host] in
theorem bounded_countSkill (key : SkillEntry) (passed : Bool) {entries : List SkillEntry}
    (bounded : ∀ entry ∈ entries, entry.Bounded) :
    ∀ entry ∈ countSkill key passed entries, entry.Bounded := by
  have one : (if passed then 1 else 0) ≤ 1 := by
    cases passed <;> decide
  induction entries with
  | nil =>
      intro entry mem
      rw [countSkill, List.mem_singleton] at mem
      rw [mem]
      exact one
  | cons first rest ih =>
      intro entry mem
      rw [countSkill] at mem
      split at mem
      · rcases List.mem_cons.mp mem with same | later
        · rw [same]
          exact Nat.add_le_add (bounded first (.head _)) one
        · exact bounded entry (.tail _ later)
      · rcases List.mem_cons.mp mem with same | later
        · rw [same]
          exact bounded first (.head _)
        · exact ih (fun other old => bounded other (.tail _ old)) entry later

omit [Host] in
theorem bounded_skillStep {state next : SkillCounts} {content : Content}
    (bounded : ∀ entry ∈ state.entries, entry.Bounded) (stepped : skillStep state content = .ok next) :
    ∀ entry ∈ next.entries, entry.Bounded := by
  rw [skillStep] at stepped
  split at stepped
  · rcases of_bind stepped with ⟨_, _, rest⟩
    rcases of_bind rest with ⟨_, _, rest_⟩
    rcases of_bind rest_ with ⟨_, _, same⟩
    rw [← Except.ok.inj same]
    exact bounded
  · split at stepped
    · rcases of_bind stepped with ⟨_, _, rest⟩
      rcases of_bind rest with ⟨_, _, rest_⟩
      split at rest_
      · rw [← Except.ok.inj rest_]
        exact bounded
      · rcases of_bind rest_ with ⟨_, _, counted⟩
        rcases of_bind counted with ⟨_, _, counted_⟩
        rcases of_bind counted_ with ⟨passed, _, same⟩
        rw [← Except.ok.inj same]
        exact bounded_countSkill _ passed bounded
    · rw [← Except.ok.inj stepped]
      exact bounded

theorem mem_sortedBy {α : Type} {key : α → List Json} {entries : List α} {entry : α} :
    entry ∈ sortedBy key entries ↔ entry ∈ entries :=
  (List.perm_insertionSort _ entries).mem_iff

theorem bounded_skillEvidence {entries : List SkillEntry} (read : skillEvidence rows = .ok entries) :
    ∀ entry ∈ entries, entry.Bounded := by
  rcases of_bind read with ⟨last, ran, same⟩
  have bounded : ∀ entry ∈ last.entries, entry.Bounded :=
    foldlM_invariant (fun _ _ _ _ bounded stepped => bounded_skillStep bounded stepped)
      (List.forall_mem_nil _) ran
  rw [← Except.ok.inj same]
  intro entry mem
  exact bounded entry (mem_sortedBy.mp mem)

/-! ## The evidence for plans -/

inductive Sealed : Content → Prop
  | plan (note : PlanNote) : Sealed note.content
  | verify (note : VerifyNote) : Sealed note.content
  | complete (note : CompleteNote) : Sealed note.content
  | other {content : Content} (kind : content.1 ∉ taskKinds) : Sealed content

theorem sealed_of_writes (written : Writes runs rows) :
    ∀ row ∈ rows, Sealed row.content := by
  intro row mem
  by_cases kind : row.content.1 ∈ taskKinds
  · have listed : row.content ∈ runs.flatMap Run.contents := by
      rw [← written]
      exact List.mem_filter.mpr ⟨List.mem_map_of_mem mem, decide_eq_true kind⟩
    rcases List.mem_flatMap.mp listed with ⟨run, _, inside⟩
    rcases List.mem_append.mp inside with attempted | closing
    · rcases List.mem_flatMap.mp attempted with ⟨attempt, _, part⟩
      rcases List.mem_cons.mp part with same | verified
      · rw [same]
        exact .plan attempt.note
      · rcases List.mem_map.mp verified with ⟨note, _, same⟩
        rw [← same]
        exact .verify note
    · rcases Option.mem_map.mp (Option.mem_toList.mp closing) with ⟨note, _, same⟩
      rw [← same]
      exact .complete note
  · exact .other kind

omit [Host] in
theorem returns_planGraph (note : PlanNote) : Returns (planGraph note.graph) := by
  rw [PlanNote.graph]
  cases note.plan with
  | obj fields => cases fields <;> exact ⟨_, rfl⟩
  | _ => exact ⟨_, rfl⟩

def keyOf (note : PlanNote) : PlanKey :=
  ⟨nullable note.mission, if note.plan.isMapping then .str (graphSha note.plan) else .null,
    .str note.embodiment, .str note.arm⟩

theorem hashable_keyOf (note : PlanNote) : hashedAll (keyOf note).items = .ok () := by
  have mission : (nullable note.mission).hashable = true := by
    cases note.mission <;> rfl
  have sha : (keyOf note).graphSha.hashable = true := by
    rw [keyOf]
    cases note.plan.isMapping <;> rfl
  rw [hashedAll, if_pos]
  rw [PlanKey.items, List.all_cons, List.all_cons, show (keyOf note).task.hashable = true from mission, sha]
  rfl

omit [Host] in
theorem returns_ite {α ε : Type} {choice : Prop} [Decidable choice] {first second : Except ε α}
    (yes : Returns first) (no : Returns second) : Returns (if choice then first else second) := by
  split
  · exact yes
  · exact no

theorem returns_planIndexPlan (state : PlanEntries) (seq : Nat) (note : PlanNote) :
    Returns (planIndexPlan state ⟨seq, note.content.1, note.content.2⟩) := by
  rw [planIndexPlan]
  refine returns_ite ?_ ⟨_, rfl⟩
  rcases returns_planGraph note with ⟨graph, read⟩
  change Returns (Except.bind (planGraph note.graph) _)
  rw [read]
  change Returns (Except.bind (listOf (.arr note.facts)) _)
  rw [listOf_arr]
  change Returns (Except.bind (listOf (.arr note.objects)) _)
  rw [listOf_arr]
  change Returns (Except.bind (hashedAll (keyOf note).items) _)
  rw [hashable_keyOf]
  refine returns_bind.mpr ⟨(), rfl, returns_bind.mpr ⟨_, rfl, returns_bind.mpr ⟨_, rfl, ?_⟩⟩⟩
  split
  · exact ⟨_, rfl⟩
  · exact ⟨_, rfl⟩

theorem returns_planIndexStep (state : PlanEntries) (seq : Nat) {content : Content}
    (sealed : Sealed content) : Returns (planIndexStep state ⟨seq, content.1, content.2⟩) := by
  rw [planIndexStep]
  cases sealed with
  | plan note => exact returns_planIndexPlan state seq note
  | verify note =>
      have verify : note.content.1 = "task.verify" := rfl
      simp only [verify]
      rw [if_neg (by decide)]
      cases state.current with
      | none => exact ⟨state, rfl⟩
      | some position =>
          simp only [if_true, allTrue_content]
          exact ⟨_, rfl⟩
  | complete note =>
      have complete : note.content.1 = "task.plan_complete" := rfl
      simp only [complete]
      rw [if_neg (by decide)]
      cases state.current with
      | none => exact ⟨state, rfl⟩
      | some position =>
          simp only [if_true]
          rw [if_neg (by decide)]
          exact ⟨_, rfl⟩
  | other unknown =>
      have kinds : content.1 ≠ "task.plan" ∧ content.1 ≠ "task.verify" ∧
          content.1 ≠ "task.plan_complete" := by
        simpa [taskKinds] using unknown
      simp only [if_neg kinds.1, if_neg kinds.2.1, if_neg kinds.2.2]
      cases state.current with
      | none => exact ⟨state, rfl⟩
      | some position => exact ⟨state, rfl⟩

theorem returns_planIndex (written : Writes runs rows) :
    Returns (planIndex rows) := by
  have fold : ∀ (rows : List Row) (state : PlanEntries), (∀ row ∈ rows, Sealed row.content) →
      Returns (rows.foldlM planIndexStep state) := by
    intro rows
    induction rows with
    | nil => exact fun state _ => ⟨state, rfl⟩
    | cons row rest ih =>
        intro state sealed
        rcases returns_planIndexStep state row.seq (sealed row (.head _)) with ⟨next, here⟩
        rw [List.foldlM_cons]
        exact returns_bind.mpr ⟨next, here, ih next (fun other later => sealed other (.tail _ later))⟩
  rcases fold rows ⟨[], none⟩ (sealed_of_writes written) with ⟨last, ran⟩
  exact returns_bind.mpr ⟨last, ran, ⟨_, rfl⟩⟩

/-- An episode that is open is counted in `n` and not yet in `k`. -/
def PlanEntries.Bounded (state : PlanEntries) : Prop :=
  ∀ (position : Nat) (entry : PlanEntry), state.entries[position]? = some entry →
    entry.k + (if state.current = some position then 1 else 0) ≤ entry.n

omit [Host] in
theorem PlanEntries.Bounded.closed (bounded : state.Bounded) {position : Nat} {entry : PlanEntry}
    (here : state.entries[position]? = some entry) : entry.k ≤ entry.n :=
  (Nat.le_add_right _ _).trans (bounded position entry here)

omit [Host] in
theorem PlanEntries.Bounded.close (bounded : state.Bounded) :
    PlanEntries.Bounded { state with current := none } := by
  intro position entry here
  rw [if_neg (by simp)]
  exact bounded.closed here

omit [Host] in
theorem bounded_enter (bounded : state.Bounded) (seed block : Json) (seq position : Nat) :
    PlanEntries.Bounded ⟨state.entries.modify position (PlanEntry.enter seed block seq), some position⟩ := by
  intro other entry here
  by_cases same : position = other
  · rw [← same] at here ⊢
    rw [List.getElem?_modify_eq] at here
    rcases Option.map_eq_some_iff.mp here with ⟨old, found, entered⟩
    rw [if_pos rfl, ← entered]
    exact Nat.succ_le_succ (bounded.closed found)
  · rw [List.getElem?_modify_ne _ _ same] at here
    rw [if_neg (fun equal => same (Option.some.inj equal))]
    exact bounded.closed here

omit [Host] in
theorem bounded_append (bounded : state.Bounded) {entry : PlanEntry}
    (fresh : entry.k + 1 ≤ entry.n) :
    PlanEntries.Bounded ⟨state.entries ++ [entry], some state.entries.length⟩ := by
  intro position other here
  by_cases earlier : position < state.entries.length
  · rw [List.getElem?_append_left earlier] at here
    rw [if_neg (fun equal => absurd (Option.some.inj equal) (Nat.ne_of_gt earlier))]
    exact bounded.closed here
  · rw [List.getElem?_append_right (Nat.le_of_not_lt earlier)] at here
    have last : other = entry := (List.mem_singleton.mp (List.mem_of_getElem? here))
    rw [last]
    refine le_trans (Nat.add_le_add_left ?_ _) fresh
    split <;> decide

omit [Host] in
theorem bounded_modify (bounded : state.Bounded) {position : Nat} {change : PlanEntry → PlanEntry}
    {current : Option Nat}
    (held : ∀ entry, entry.k + 1 ≤ entry.n → (change entry).k +
      (if current = some position then 1 else 0) ≤ (change entry).n)
    (opened : state.current = some position) (kept : current = some position ∨ current = none) :
    PlanEntries.Bounded ⟨state.entries.modify position change, current⟩ := by
  intro other entry here
  by_cases same : position = other
  · rw [← same] at here ⊢
    rw [List.getElem?_modify_eq] at here
    rcases Option.map_eq_some_iff.mp here with ⟨old, found, changed⟩
    have before := bounded position old found
    rw [if_pos opened] at before
    rw [← changed]
    exact held old before
  · rw [List.getElem?_modify_ne _ _ same] at here
    rcases kept with still | none_
    · rw [if_neg (fun equal => same (Option.some.inj (still.symm.trans equal)))]
      exact bounded.closed here
    · rw [if_neg (fun equal => by rw [none_] at equal; cases equal)]
      exact bounded.closed here

omit [Host] in
theorem bounded_planIndexPlan {next : PlanEntries} {row : Row} (bounded : state.Bounded)
    (stepped : planIndexPlan state row = .ok next) : next.Bounded := by
  rw [planIndexPlan] at stepped
  rcases of_bind stepped with ⟨legal, _, stepped⟩
  rcases of_bind stepped with ⟨replan, _, stepped⟩
  rcases of_bind stepped with ⟨sha, _, stepped⟩
  split at stepped
  · rcases of_bind stepped with ⟨mission, _, stepped⟩
    rcases of_bind stepped with ⟨embodiment, _, stepped⟩
    rcases of_bind stepped with ⟨arm, _, stepped⟩
    rcases of_bind stepped with ⟨_, _, stepped⟩
    rcases of_bind stepped with ⟨graph, _, stepped⟩
    rcases of_bind stepped with ⟨_, _, stepped⟩
    rcases of_bind stepped with ⟨facts, _, stepped⟩
    rcases of_bind stepped with ⟨_, _, stepped⟩
    rcases of_bind stepped with ⟨objects, _, stepped⟩
    rcases of_bind stepped with ⟨_, _, stepped⟩
    rcases of_bind stepped with ⟨seed, _, stepped⟩
    rcases of_bind stepped with ⟨block, _, stepped⟩
    split at stepped
    · rw [← Except.ok.inj stepped]
      exact bounded_enter bounded seed block row.seq _
    · rw [← Except.ok.inj stepped]
      exact bounded_append bounded (Nat.le_refl 1)
  · rw [← Except.ok.inj stepped]
    exact bounded.close

omit [Host] in
theorem bounded_planIndexStep {next : PlanEntries} {row : Row} (bounded : state.Bounded)
    (stepped : planIndexStep state row = .ok next) : next.Bounded := by
  rw [planIndexStep] at stepped
  split at stepped
  · exact bounded_planIndexPlan bounded stepped
  · split at stepped
    · rw [← Except.ok.inj stepped]
      exact bounded
    · rename_i position opened
      split at stepped
      · rcases of_bind stepped with ⟨passed, _, same⟩
        rw [← Except.ok.inj same]
        refine bounded_modify bounded (fun entry held => ?_) opened (.inl opened)
        rw [if_pos opened]
        exact held
      · split at stepped
        · rcases of_bind stepped with ⟨success, _, same⟩
          rw [← Except.ok.inj same]
          refine bounded_modify bounded (fun entry held => ?_) opened (.inr rfl)
          have one : (if success.truthy then 1 else 0) ≤ 1 := by
            split <;> decide
          exact (Nat.add_le_add_left one entry.k).trans held
        · rw [← Except.ok.inj stepped]
          exact bounded

theorem bounded_planIndex {index : List (PlanEntry × Double)} (read : planIndex rows = .ok index) :
    ∀ entry ∈ index, entry.1.k ≤ entry.1.n := by
  rcases of_bind read with ⟨last, ran, same⟩
  have bounded : last.Bounded :=
    foldlM_invariant (fun _ _ _ _ bounded stepped => bounded_planIndexStep bounded stepped)
      (fun _ _ never => by cases never) ran
  rw [← Except.ok.inj same]
  intro entry mem
  rcases List.mem_map.mp mem with ⟨source, listed, view⟩
  rcases List.mem_iff_getElem?.mp (mem_sortedBy.mp listed) with ⟨position, here⟩
  rw [← view]
  exact bounded.closed here

/-- The three readers return on what the runs sealed, and no count exceeds its total, exactly
when every proposal that was sealed has nodes to walk over. -/
theorem evidence_returns_iff (roleOfSeed : Json → Json) (roleSource : String) {runs : List Run}
    {rows : List Row} (written : Writes runs rows) :
    (Returns (trajectories roleOfSeed roleSource rows) ∧
      (∃ index, planIndex rows = .ok index ∧ ∀ entry ∈ index, 0 ≤ entry.1.k ∧ entry.1.k ≤ entry.1.n) ∧
      ∃ entries, skillEvidence rows = .ok entries ∧ ∀ entry ∈ entries, 0 ≤ entry.k ∧ entry.k ≤ entry.n) ↔
      ∀ run ∈ runs, ∀ attempt ∈ run.attempts, enumerable attempt.note.plan = true := by
  rw [← returns_skillEvidence_iff written]
  constructor
  · intro all
    rcases all.2.2 with ⟨entries, read, _⟩
    exact ⟨entries, read⟩
  · intro returns
    rcases trajectories_of_writes roleOfSeed roleSource written with ⟨samples, sampled, _⟩
    rcases returns_planIndex written with ⟨index, indexed⟩
    rcases returns with ⟨entries, counted⟩
    exact ⟨⟨samples, sampled⟩,
      ⟨index, indexed, fun entry member => ⟨Nat.zero_le _, bounded_planIndex indexed entry member⟩⟩,
      ⟨entries, counted, fun entry member => ⟨Nat.zero_le _, bounded_skillEvidence counted entry member⟩⟩⟩

end

section

local instance countHost : Host := asciiHost

/-- A run whose planner returned an object whose nodes are `null`. -/
def nullRun : Run :=
  ⟨[⟨{ refusedNote with plan := .obj [("nodes", .null)], msg := "plan.goal must be a non-empty string" },
    fun legal => absurd legal Bool.false_ne_true, [], fun some_ => absurd rfl some_⟩], none⟩

theorem evidence_returns_iff_closed :
    (Returns (trajectories (fun _ => .str "dev") "caller" (rowsOf [closedRun])) ∧
      (∃ index, planIndex (rowsOf [closedRun]) = .ok index ∧
        ∀ entry ∈ index, 0 ≤ entry.1.k ∧ entry.1.k ≤ entry.1.n) ∧
      ∃ entries, skillEvidence (rowsOf [closedRun]) = .ok entries ∧
        ∀ entry ∈ entries, 0 ≤ entry.k ∧ entry.k ≤ entry.n) ↔
      ∀ run ∈ [closedRun], ∀ attempt ∈ run.attempts, enumerable attempt.note.plan = true :=
  evidence_returns_iff _ _ rfl

theorem null_nodes_raise : Writes [nullRun] (rowsOf [nullRun]) ∧
    skillEvidence (rowsOf [nullRun]) = .error .typeError :=
  ⟨rfl, rfl⟩

end

end Board
end PhysicalHarness
