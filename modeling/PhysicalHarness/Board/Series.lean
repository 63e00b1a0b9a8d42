import PhysicalHarness.Evolve.Repairs

namespace PhysicalHarness
namespace Board
namespace Series

open Python Fallible
open PhysicalHarness.Evolve (round4)

/-!
# The series of a campaign

A round is read in one of two shapes.  Where it stands in full, its rates are read off its trails;
where it was archived, a short row stands for it that brings its rates along.
-/

/-- `values or ()`, as it is iterated. -/
def listed : Json → Except PyError (List Json)
  | .arr items => .ok items
  | .str text => .ok (text.toList.map (fun char => .str (String.ofList [char])))
  | .obj fields => .ok (fields.map (fun field => .str field.1))
  | other => if other.truthy then .error .typeError else .ok []

/-- `get` is an attribute of dicts alone. -/
def mapping (value : Json) : Except PyError Json :=
  if value.isMapping then .ok value else .error .attributeError

/-- `first or second`. -/
def orElse (first second : Json) : Json := if first.truthy then first else second

/-- The part of a table with these keys. -/
def part {α : Type} (keys : List String) (read : String → Option α) : List (String × α) :=
  keys.filterMap (fun key => (read key).map (fun value => (key, value)))

/-- `{k: value[k] for k in keys if k in value}`. -/
def pick (keys : List String) (value : Json) : List (String × Json) := part keys value.get?

theorem mem_keys_part {α : Type} {keys : List String} {read : String → Option α} {key : String}
    (listed : key ∈ Assoc.keys (part keys read)) : key ∈ keys ∧ read key ≠ none := by
  rcases List.mem_map.mp listed with ⟨field, kept, rfl⟩
  rcases List.mem_filterMap.mp kept with ⟨other, mem, here⟩
  rcases Option.map_eq_some_iff.mp here with ⟨value, present, rfl⟩
  refine ⟨mem, fun absent => ?_⟩
  cases absent.symm.trans present

theorem get?_part {α : Type} {keys : List String} {key : String} (mem : key ∈ keys)
    (read : String → Option α) : Assoc.get? (part keys read) key = read key := by
  induction keys with
  | nil => cases mem
  | cons first rest ih =>
      rw [part, List.filterMap_cons]
      by_cases same : first = key
      · rw [same]
        cases found : read key with
        | none =>
            apply (Assoc.get?_eq_none_iff _ _).mpr
            exact fun listed => (mem_keys_part listed).2 found
        | some value =>
            rw [Option.map_some, Assoc.get?_cons]
            exact if_pos rfl
      · have later : key ∈ rest := (List.mem_cons.mp mem).resolve_left (fun equal => same equal.symm)
        cases read first with
        | none => exact ih later
        | some value =>
            rw [Option.map_some, Assoc.get?_cons, if_neg same]
            exact ih later

theorem part_eq_iff {α : Type} (keys : List String) (read other : String → Option α) :
    part keys read = part keys other ↔ ∀ key ∈ keys, read key = other key := by
  constructor
  · intro same key mem
    rw [← get?_part mem read, same, get?_part mem]
  · intro same
    apply List.filterMap_congr
    intro key mem
    rw [same key mem]

/-! ## Rates -/

/-- `str(id).startswith("recover-")`; what is no text prints otherwise. -/
def opensRecover : Json → Bool
  | .str id => "recover-".toList.isPrefixOf id.toList
  | _ => false

/-- `_repair_node`. -/
def repairNode (node : Json) : Except PyError Bool :=
  (mapping node).map (fun node =>
    (node.getD "kind" .null).eq (.str "recovery") || opensRecover (node.getD "id" (.str "")))

/-- The nodes that are no repairs. -/
def plain : List Json → Except PyError (List Json)
  | [] => .ok []
  | node :: rest => do
      let repair ← repairNode node
      let kept ← plain rest
      return if repair then kept else node :: kept

/-- The trail of a seed; it is empty where the row carries no nodes. -/
def trailOf (row : Json) : Except PyError (List Json) := do
  let row ← mapping row
  let nodes ← listed (row.getD "nodes" .null)
  plain nodes

/-- `value is True`. -/
def isTrue : Json → Bool
  | .bool value => value
  | _ => false

def isOk (node : Json) : Bool := isTrue (node.getD "ok" .null)

/-- The task of a node, where it has one; it is a key of a table of texts. -/
def taskOf (node : Json) : Except PyError (Option String) :=
  match node.getD "task" .null with
  | .str text => .ok (if text = "" then none else some text)
  | other => if other.truthy then .error .typeError else .ok none

/-- `per[n["task"]] = per.get(n["task"], True) and ...`. -/
def mark (per : List (String × Bool)) (ok : Bool) : Option String → List (String × Bool)
  | none => per
  | some task => Assoc.set per task ((Assoc.get? per task).getD true && ok)

def marked (per : List (String × Bool)) (node : Json) : Except PyError (List (String × Bool)) :=
  (taskOf node).map (mark per (isOk node))

/-- `passes[t] = passes.get(t, 0) + ok`. -/
def counted (passes : List (String × Nat)) (mark : String × Bool) : List (String × Nat) :=
  Assoc.set passes mark.1 ((Assoc.get? passes mark.1).getD 0 + if mark.2 then 1 else 0)

def passesOf (passes : List (String × Nat)) (trail : List Json) : Except PyError (List (String × Nat)) :=
  (trail.foldlM marked []).map (fun per => per.foldl counted passes)

/-- `count / total` of two lengths. -/
def share (count total : Nat) : Double := Double.settled false (count / total)

/-- `total / count` of a float and a length. -/
def mean (total : Double) (count : Nat) : Double :=
  (total.div (Double.nearest count)).toOption.getD .nan

section

variable (sumFloats : List Double → Double)

def ratesOf (trails : List (List Json)) (passes : List (String × Nat)) :
    Option PyFloat × List (String × PyFloat) :=
  if trails.isEmpty then (none, [])
  else
    (some (round4 (mean (sumFloats (trails.map (fun trail => share (trail.countP isOk) trail.length)))
        trails.length)).value,
      passes.map (fun pass => (pass.1, (round4 (share pass.2 trails.length)).value)))

/-- `_rates`. -/
def rates (rows : Json) : Except PyError (Option PyFloat × List (String × PyFloat)) := do
  let rows ← listed rows
  let found ← rows.mapM trailOf
  let trails := found.filter (fun trail => !trail.isEmpty)
  let passes ← trails.foldlM passesOf []
  return ratesOf sumFloats trails passes

/-- The trails are such as the loop writes them: lists of nodes, whose tasks are texts. -/
def IsTrails (rows : Json) : Prop :=
  ∃ items, listed rows = .ok items ∧ ∀ row ∈ items, row.isMapping = true ∧
    ∃ nodes, listed (row.getD "nodes" .null) = .ok nodes ∧
      ∀ node ∈ nodes, node.isMapping = true ∧ ∃ task, taskOf node = .ok task

theorem mapping_eq_ok {value result : Json} (returned : mapping value = .ok result) :
    result = value ∧ value.isMapping = true := by
  rw [mapping] at returned
  split at returned
  · rename_i object
    cases returned
    exact ⟨rfl, object⟩
  · cases returned

theorem mapping_of {value : Json} (object : value.isMapping = true) : mapping value = .ok value :=
  if_pos object

theorem plain_returns {nodes : List Json} (objects : ∀ node ∈ nodes, node.isMapping = true) :
    ∃ kept, plain nodes = .ok kept ∧ kept ⊆ nodes := by
  induction nodes with
  | nil => exact ⟨[], rfl, fun _ mem => mem⟩
  | cons node rest ih =>
      rcases ih (fun other mem => objects other (.tail _ mem)) with ⟨kept, ran, within⟩
      have here : ∃ repair, repairNode node = .ok repair := by
        rw [repairNode, mapping_of (objects node List.mem_cons_self)]
        exact ⟨_, rfl⟩
      rcases here with ⟨repair, tested⟩
      refine ⟨if repair then kept else node :: kept, ?_, ?_⟩
      · rw [plain, tested, bind_ok, ran]
        rfl
      · cases repair with
        | true => exact fun other mem => .tail _ (within mem)
        | false => exact List.cons_subset_cons _ within

theorem marked_returns {trail : List Json} (texts : ∀ node ∈ trail, ∃ task, taskOf node = .ok task)
    (per : List (String × Bool)) : ∃ marks, trail.foldlM marked per = .ok marks := by
  induction trail generalizing per with
  | nil => exact ⟨per, rfl⟩
  | cons node rest ih =>
      rcases texts node (.head _) with ⟨task, named⟩
      rcases ih (fun other mem => texts other (.tail _ mem))
        (mark per (isOk node) task) with ⟨marks, ran⟩
      refine ⟨marks, ?_⟩
      rw [List.foldlM_cons, marked, named]
      exact ran

theorem passesOf_returns {trails : List (List Json)}
    (texts : ∀ trail ∈ trails, ∀ node ∈ trail, ∃ task, taskOf node = .ok task)
    (passes : List (String × Nat)) : ∃ all, trails.foldlM passesOf passes = .ok all := by
  induction trails generalizing passes with
  | nil => exact ⟨passes, rfl⟩
  | cons trail rest ih =>
      rcases marked_returns (texts trail (.head _)) [] with ⟨marks, ran⟩
      rcases ih (fun other mem => texts other (.tail _ mem))
        (marks.foldl counted passes) with ⟨all, whole⟩
      refine ⟨all, ?_⟩
      rw [List.foldlM_cons, passesOf, ran]
      exact whole

theorem trailOf_returns {row : Json} (object : row.isMapping = true) {nodes : List Json}
    (carried : listed (row.getD "nodes" .null) = .ok nodes)
    (objects : ∀ node ∈ nodes, node.isMapping = true) : ∃ trail, trailOf row = .ok trail ∧ trail ⊆ nodes := by
  rcases plain_returns objects with ⟨kept, ran, within⟩
  refine ⟨kept, ?_, within⟩
  rw [trailOf, mapping_of object, bind_ok, carried, bind_ok, ran]

theorem rates_returns {rows : Json} (trails : IsTrails rows) :
    ∃ read, rates sumFloats rows = .ok read := by
  rcases trails with ⟨items, iterated, each⟩
  have read : ∃ found, items.mapM trailOf = .ok found ∧
      ∀ trail ∈ found, ∀ node ∈ trail, ∃ task, taskOf node = .ok task := by
    clear iterated
    induction items with
    | nil => exact ⟨[], rfl, List.forall_mem_nil _⟩
    | cons row rest ih =>
        rcases ih (fun other mem => each other (.tail _ mem)) with ⟨found, ran, texts⟩
        rcases each row (.head _) with ⟨object, nodes, carried, typed⟩
        rcases trailOf_returns object carried (fun node mem => (typed node mem).1) with
          ⟨trail, here, within⟩
        refine ⟨trail :: found, ?_, ?_⟩
        · rw [List.mapM_cons, here, bind_ok, ran]
          rfl
        · rw [List.forall_mem_cons]
          exact ⟨fun node mem => (typed node (within mem)).2, texts⟩
  rcases read with ⟨found, ran, texts⟩
  rcases @passesOf_returns (found.filter (fun trail => !trail.isEmpty))
    (fun trail mem => texts trail (List.mem_of_mem_filter mem)) [] with ⟨passes, summed⟩
  refine ⟨ratesOf sumFloats (found.filter (fun trail => !trail.isEmpty)) passes, ?_⟩
  rw [rates, iterated, bind_ok, ran, bind_ok]
  dsimp only
  rw [summed]
  rfl

end

/-! ## The rows of the series -/

/-- `_TRIED_DETAIL`. -/
def triedDetail : List String := ["path", "from", "to", "reason", "error"]

def detailOf : Json → Json
  | .obj fields => .obj (pick triedDetail (.obj fields))
  | other => other

/-- `_tried`. -/
def tried : Json → Json
  | .obj fields => .obj [("kind", (Json.obj fields).getD "kind" .null),
      ("node", (Json.obj fields).getD "node" .null),
      ("detail", detailOf ((Json.obj fields).getD "detail" .null))]
  | other => other

/-- The two rates of a round and those of its tasks. -/
structure Reading where
  before : Option PyFloat
  after : Option PyFloat
  tasksBefore : List (String × PyFloat)
  tasksAfter : List (String × PyFloat)

def rateJson : Option PyFloat → Json
  | none => .null
  | some rate => .float rate

def rateOf : Json → Except PyError (Option PyFloat)
  | .null => .ok none
  | .float rate => .ok (some rate)
  | _ => .error .typeError

/-- `{t: v[side] for t, v in per_task.items() if v.get(side) is not None}`. -/
def readTasks (side : String) : List (String × Json) → Except PyError (List (String × PyFloat))
  | [] => .ok []
  | (task, value) :: rest => do
      let value ← mapping value
      let rate ← rateOf (value.getD side .null)
      let more ← readTasks side rest
      return (rate.map (fun rate => (task, rate))).toList ++ more

/-- `sorted(set(tb) | set(ta))`. -/
def taskNames (before after : List (String × PyFloat)) : List String :=
  sorted ((Assoc.keys before ++ Assoc.keys after).dedup)

/-- `{t: {"before": tb.get(t), "after": ta.get(t)} for t in sorted(set(tb) | set(ta))}`. -/
def byTask (before after : List (String × PyFloat)) : Json :=
  .obj ((taskNames before after).map (fun task =>
    (task, .obj [("before", rateJson (Assoc.get? before task)), ("after", rateJson (Assoc.get? after task))])))

def sharded (row : Json) : Bool := (row.getD "sharded" .null).truthy

def broughtAlong (row : Json) : Except PyError Reading := do
  let rate ← mapping (orElse (row.getD "node_rate" .null) (.obj []))
  let tasks ← mapping (orElse (row.getD "by_task" .null) (.obj []))
  let before ← rateOf (rate.getD "before" .null)
  let after ← rateOf (rate.getD "after" .null)
  let tasksBefore ← readTasks "before" tasks.fields
  let tasksAfter ← readTasks "after" tasks.fields
  return ⟨before, after, tasksBefore, tasksAfter⟩

theorem mem_taskNames {before after : List (String × PyFloat)} {task : String} :
    task ∈ taskNames before after ↔ Assoc.get? before task ≠ none ∨ Assoc.get? after task ≠ none := by
  have perm : (taskNames before after).Perm (Assoc.keys before ++ Assoc.keys after).dedup :=
    List.perm_insertionSort _ _
  rw [perm.mem_iff, List.mem_dedup, List.mem_append, ne_eq, Assoc.get?_eq_none_iff, not_not, ne_eq,
    Assoc.get?_eq_none_iff, not_not]

theorem taskNames_congr {before after before_ after_ : List (String × PyFloat)}
    (first : ∀ task, Assoc.get? before_ task = Assoc.get? before task)
    (second : ∀ task, Assoc.get? after_ task = Assoc.get? after task) :
    taskNames before_ after_ = taskNames before after := by
  have nodup (before after : List (String × PyFloat)) : (taskNames before after).Nodup :=
    (List.perm_insertionSort _ _).nodup_iff.mpr (List.nodup_dedup _)
  have ascends (before after : List (String × PyFloat)) :
      (taskNames before after).Pairwise (fun left right => left ≤ right) :=
    List.pairwise_insertionSort _ _
  have perm : (taskNames before_ after_).Perm (taskNames before after) := by
    apply (List.perm_ext_iff_of_nodup (nodup _ _) (nodup _ _)).mpr
    intro task
    rw [mem_taskNames, mem_taskNames, first, second]
  apply perm.eq_of_pairwise _ (ascends _ _) (ascends _ _)
  intro left right _ _ below above
  exact String.le_antisymm below above

theorem byTask_congr {before after before_ after_ : List (String × PyFloat)}
    (first : ∀ task, Assoc.get? before_ task = Assoc.get? before task)
    (second : ∀ task, Assoc.get? after_ task = Assoc.get? after task) :
    byTask before_ after_ = byTask before after := by
  rw [byTask, byTask, taskNames_congr first second]
  apply congrArg Json.obj
  apply List.map_congr_left
  intro task _
  rw [first, second]

theorem rateOf_rateJson (rate : Option PyFloat) : rateOf (rateJson rate) = .ok rate := by
  cases rate with
  | none => rfl
  | some _ => rfl

theorem orElse_obj (fields : List (String × Json)) : orElse (.obj fields) (.obj []) = .obj fields := by
  cases fields with
  | nil => rfl
  | cons _ _ => rfl

theorem readTasks_map {side : String} {names : List String} {value : String → Json}
    {rate : String → Option PyFloat} (object : ∀ name, (value name).isMapping = true)
    (reads : ∀ name, (value name).getD side .null = rateJson (rate name)) :
    readTasks side (names.map (fun name => (name, value name))) = .ok (part names rate) := by
  induction names with
  | nil => rfl
  | cons name rest ih =>
      have here : part (name :: rest) rate =
          ((rate name).map (fun rate => (name, rate))).toList ++ part rest rate := by
        rw [part, List.filterMap_cons]
        cases rate name with
        | none => rfl
        | some _ => rfl
      rw [List.map_cons, readTasks, mapping_of (object name), bind_ok, reads, rateOf_rateJson,
        bind_ok, ih, here]
      rfl

theorem broughtAlong_eq {row : Json} {before after : Option PyFloat}
    {tasksBefore tasksAfter : List (String × PyFloat)}
    (rate : row.getD "node_rate" .null = .obj [("before", rateJson before), ("after", rateJson after)])
    (tasks : row.getD "by_task" .null = byTask tasksBefore tasksAfter) :
    broughtAlong row = .ok ⟨before, after,
      part (taskNames tasksBefore tasksAfter) (Assoc.get? tasksBefore),
      part (taskNames tasksBefore tasksAfter) (Assoc.get? tasksAfter)⟩ := by
  have object (fields : List (String × Json)) : mapping (.obj fields) = .ok (.obj fields) := rfl
  rw [broughtAlong, rate, tasks, byTask, orElse_obj, orElse_obj, object, object]
  have first : rateOf ((Json.obj [("before", rateJson before), ("after", rateJson after)]).getD
      "before" .null) = .ok before := rateOf_rateJson before
  have second : rateOf ((Json.obj [("before", rateJson before), ("after", rateJson after)]).getD
      "after" .null) = .ok after := rateOf_rateJson after
  rw [bind_ok, bind_ok, first, second, bind_ok, bind_ok]
  unfold Json.fields
  dsimp only
  rw [@readTasks_map "before" _ _ (Assoc.get? tasksBefore) (fun _ => rfl) (fun _ => rfl),
    @readTasks_map "after" _ _ (Assoc.get? tasksAfter) (fun _ => rfl) (fun _ => rfl)]
  rfl

theorem byTask_part (before after : List (String × PyFloat)) :
    byTask (part (taskNames before after) (Assoc.get? before))
      (part (taskNames before after) (Assoc.get? after)) = byTask before after := by
  have again (table : List (String × PyFloat))
      (covered : ∀ task, Assoc.get? table task ≠ none → task ∈ taskNames before after) (task : String) :
      Assoc.get? (part (taskNames before after) (Assoc.get? table)) task = Assoc.get? table task := by
    by_cases mem : task ∈ taskNames before after
    · exact get?_part mem _
    · have absent : Assoc.get? table task = none := by
        by_contra present
        exact mem (covered task present)
      rw [absent]
      apply (Assoc.get?_eq_none_iff _ _).mpr
      exact fun listed => mem (mem_keys_part listed).1
  apply byTask_congr
  · exact again before (fun task present => mem_taskNames.mpr (Or.inl present))
  · exact again after (fun task present => mem_taskNames.mpr (Or.inr present))

section

variable (sumFloats : List Double → Double)

def readOff (row : Json) : Except PyError Reading := do
  let before ← rates sumFloats (row.getD "per_seed" .null)
  let after ← rates sumFloats (row.getD "after_seeds" .null)
  return ⟨before.1, after.1, before.2, after.2⟩

def reading (row : Json) : Except PyError Reading :=
  if sharded row then broughtAlong row else readOff sumFloats row

/-- `cur = na if na is not None else nb`. -/
def Reading.current (reading : Reading) : Option PyFloat := reading.after.or reading.before

/-- `cur if best is None or (cur is not None and cur > best) else best`. -/
def running : Option PyFloat → Option PyFloat → Option PyFloat
  | none, current => current
  | some best, none => some best
  | some best, some current => some (if best.lt current then current else best)

def seriesKeys : List String :=
  ["round", "before", "after", "best", "parent", "proposer", "outcome", "accepted", "published", "usage"]

def seriesOptional : List String :=
  ["evaluation", "transfer", "policy", "run_budget", "cycle_budget", "cycle_outcome"]

/-- A row of `_series`. -/
def seriesRow (row : Json) (reading : Reading) (best : Option PyFloat) : Json :=
  .obj (seriesKeys.map (fun key => (key, row.getD key .null)) ++ pick seriesOptional row ++
    [("tried", tried (row.getD "tried" .null)),
      ("node_rate", .obj [("before", rateJson reading.before), ("after", rateJson reading.after),
        ("best", rateJson best)]),
      ("by_task", byTask reading.tasksBefore reading.tasksAfter)])

def seriesFrom : Option PyFloat → List Json → Except PyError (List Json)
  | _, [] => .ok []
  | best, row :: rest => do
      let row ← mapping row
      let reading ← reading sumFloats row
      let more ← seriesFrom (running best reading.current) rest
      return seriesRow row reading (running best reading.current) :: more

theorem seriesFrom_cons {row : Json} {reading_ : Reading} (object : row.isMapping = true)
    (read : reading sumFloats row = .ok reading_) (best : Option PyFloat) (rest : List Json) :
    seriesFrom sumFloats best (row :: rest) =
      (seriesFrom sumFloats (running best reading_.current) rest).map
        (fun more => seriesRow row reading_ (running best reading_.current) :: more) := by
  rw [seriesFrom, mapping_of object, bind_ok, read, bind_ok]
  cases seriesFrom sumFloats (running best reading_.current) rest with
  | error _ => rfl
  | ok _ => rfl

theorem seriesFrom_returns {rows : List Json}
    (read : ∀ row ∈ rows, row.isMapping = true ∧ ∃ reading_, reading sumFloats row = .ok reading_)
    (best : Option PyFloat) : ∃ made, seriesFrom sumFloats best rows = .ok made := by
  induction rows generalizing best with
  | nil => exact ⟨[], rfl⟩
  | cons row rest ih =>
      rcases read row (.head _) with ⟨object, reading_, here⟩
      rcases ih (fun other mem => read other (.tail _ mem))
        (running best reading_.current) with ⟨made, ran⟩
      refine ⟨seriesRow row reading_ (running best reading_.current) :: made, ?_⟩
      rw [seriesFrom_cons sumFloats object here, ran]
      rfl

/-- `_series`. -/
def series (rows : List Json) : Except PyError (List Json) := seriesFrom sumFloats none rows

/-- `r.get("round") == n`. -/
def isRound (number : Int) (row : Json) : Bool := (row.getD "round" .null).eq (.int number)

/-- `_round`; the files of the archived rounds stand under their numbers. -/
def roundRow (rows : List Json) (shards : List (Int × Json)) (number : Int) : Option Json :=
  (rows.find? (isRound number)).map (fun row =>
    if sharded row then
      match Assoc.get? shards number with
      | some full => if full.isMapping then full else row
      | none => row
    else row)

/-- `RUN_TAIL`. -/
def runTail : Nat := 20

/-- The rounds of `rsi_run`. -/
def rsiRun (rows : List Json) (shards : List (Int × Json)) (number : Int) : Except PyError (List Json) :=
  (series sumFloats rows).map (fun series =>
    if number = 0 then series.drop (series.length - runTail)
    else (roundRow rows shards number).toList.filter Json.truthy)

end

end Series
end Board
end PhysicalHarness
