import PhysicalHarness.Governor.Proposer
import PhysicalHarness.Lib.Caught
import PhysicalHarness.Protocol.PredRef
import PhysicalHarness.Python.Decimal

namespace PhysicalHarness
namespace Runtime

open Python JsonText Protocol Fallible

/-!
# Decomposing a mission

A mission is given to a model, which answers with tasks.  The answer is read, its tasks
are checked one after the other, and the runtime seals what came of it: the tasks, or the
refusal.  A refusal is a `ValueError`, and nothing else is caught; the answers that raise
something else are found here.
-/

/-- Why the scanner of `json` gives up on a text: `RecursionError`, or the `ValueError` of an integer
with too many digits. -/
inductive Limit where
  | depth
  | digits

/-- The scanner's limits, and what it says of a text that it cannot read. -/
class Scanner where
  limit : List Char → Option Limit
  complaint : List Char → String

inductive Raised where
  | python (error : PyError)
  | recursion

section

variable [Scanner]

/-- What the scanner makes of a text in which the grammar finds `found`. -/
def scanned (text : List Char) (found : Option Json) : Except Raised Json :=
  match Scanner.limit text, found with
  | some .depth, _ => .error .recursion
  | none, some value => .ok value
  | _, _ => .error (.python (.valueError (Scanner.complaint text)))

section

variable [FloatText]

/-- `raw_decode`: one value, and whatever follows it. -/
def rawDecode (text : List Char) : Option Json := (readValue gather text.length text).map Prod.fst

def fromBrace (text : List Char) : List Char := text.dropWhile (fun char => decide (char ≠ '\x7b'))

/-- The first object of a reply that is no JSON text as a whole. -/
def firstObject (text : List Char) : Except Raised Json :=
  if fromBrace text = [] then .error (.python (.valueError "reply contains no JSON object"))
  else scanned (fromBrace text) (rawDecode (fromBrace text))

def parseValue (text : List Char) : Except Raised Json :=
  match scanned text (loads text) with
  | .error (.python (.valueError _)) => firstObject text
  | other => other

/-- A reply has to be an object with the field `key`. -/
def structured (key : String) : Json → Except PyError (List (String × Json))
  | .obj fields =>
      if (Assoc.get? fields key).isSome then .ok fields
      else .error (.valueError ("reply is a JSON object but not a plan (no '" ++ key ++ "' key)"))
  | value => .error (.valueError ("reply is JSON but not an object: " ++ Governor.typeName value))

/-- `_parse`. -/
def parse (key : String) (text : List Char) : Except Raised (List (String × Json)) := do
  let plan ← parseValue text
  (structured key plan).mapError .python

end

end

/-! ## The tasks of a reply -/

structure Menu where
  known : List String
  predicates : List String

structure MissionTask where
  id : String
  task : Option String
  goal : List String

structure Decomposition where
  tasks : List MissionTask
  rationale : String
  promptSha : String

/-- `decomposition.tasks[i]`, and what is wrong with it. -/
def wrongTask (index : Nat) (wrong : String) : PyError :=
  .valueError ("decomposition.tasks[" ++ toString index ++ "]" ++ wrong)

/-- The id of an entry, if it is a string that no entry before has. -/
def freshId (ids : List String) (entry : Json) : Option String :=
  ((entry.get? "id").bind Json.str?).filter (fun id => decide (id ∉ ids))

def goalList : Json → Option (List Json)
  | .arr (goal :: goals) => some (goal :: goals)
  | _ => none

/-- `t.get("task")`, once it is known. -/
def taskName (entry : Json) : Option String := (entry.get? "task").bind Json.str?

section

variable [Host]

def checkTask (menu : Menu) (index : Nat) (task : Json) : Except PyError Unit :=
  if task.isNull then .ok ()
  else do
    hashed task
    if ∃ name ∈ menu.known, task.str? = some name then .ok ()
    else .error (wrongTask index (" names unknown task " ++ Host.repr task ++ "; known: " ++
      reprNames (sorted menu.known)))

def checkGoal (menu : Menu) (index : Nat) (goal : Json) : Except PyError Unit := do
  let parsed ← parsePredRef (.value goal)
  if parsed.1 ∈ menu.predicates then .ok ()
  else .error (wrongTask index (" goal " ++ Host.repr goal ++ " names unknown predicate " ++
    Host.repr (.str parsed.1) ++ "; catalogue: " ++ reprNames (sorted menu.predicates)))

def checkGoals (menu : Menu) (index : Nat) (goal : Json) : Except PyError Unit :=
  match goalList goal with
  | none => .error (wrongTask index ".goal must be a non-empty list")
  | some goals => goals.forM (checkGoal menu index)

def checkEntry (menu : Menu) (index : Nat) (ids : List String) (entry : Json) :
    Except PyError (List String) :=
  match freshId ids entry with
  | none => .error (wrongTask index " needs a unique string id")
  | some id => do
      checkTask menu index (entry.getD "task" .null)
      checkGoals menu index (entry.getD "goal" .null)
      return ids ++ [id]

def checkEntries (menu : Menu) : Nat → List String → List Json → Except PyError Unit
  | _, _, [] => .ok ()
  | index, ids, entry :: entries => do
      let ids ← checkEntry menu index ids entry
      checkEntries menu (index + 1) ids entries

def missionTask (entry : Json) : Except PyError MissionTask := do
  let id ← (← entry.item "id").text
  let goals ← ((← entry.item "goal").iter)
  let goal ← goals.mapM (fun goal => predRefStr (.value goal))
  return ⟨id, taskName entry, goal⟩

/-- The checks of `decompose` on the fields of a reply. -/
def decomposed (menu : Menu) (promptSha : String) (fields : List (String × Json)) :
    Except PyError Decomposition :=
  match Assoc.get? fields "tasks" with
  | some (.arr (entry :: entries)) => do
      checkEntries menu 0 [] (entry :: entries)
      let tasks ← (entry :: entries).mapM missionTask
      return ⟨tasks, pyStr ((Assoc.get? fields "rationale").getD (.str "")), promptSha⟩
  | _ => .error (.valueError "decomposition.tasks must be a non-empty list")

end

/-- A mission, and what its decomposition needs of the runtime. -/
structure Mission where
  mission : String
  seed : Int
  decomposer : String
  menu : Menu
  promptSha : String

section

variable [Host] [Scanner] [FloatText]

def decompose (mission : Mission) (reply : List Char) : Except Raised Decomposition := do
  let fields ← parse "tasks" reply
  (decomposed mission.menu mission.promptSha fields).mapError .python

def bound (dec : Decomposition) : Except Raised Decomposition :=
  match dec.tasks.find? (fun task => task.task.isNone) with
  | some task => .error (.python (.valueError ("task " ++ Host.repr (.str task.id) ++
      " names no known task binding; the runtime can only plan under a binding")))
  | none => .ok dec

def MissionTask.json (task : MissionTask) : Json :=
  .obj [("id", .str task.id), ("task", (task.task.map Json.str).getD .null),
    ("goal", .arr (task.goal.map Json.str))]

def decomposedRow (mission : Mission) (dec : Decomposition) : String × Json :=
  ("mission.decomposed", .obj [("mission", .str mission.mission), ("seed", .int mission.seed),
    ("decomposer", .str mission.decomposer), ("tasks", .arr (dec.tasks.map MissionTask.json)),
    ("prompt_sha", .str dec.promptSha), ("rationale", .str dec.rationale)])

def refusedRow (mission : Mission) (error : String) : String × Json :=
  ("mission.refused", .obj [("mission", .str mission.mission), ("seed", .int mission.seed),
    ("decomposer", .str mission.decomposer), ("error", .str error)])

/-- How `_run_mission` gets to its tasks: the rows it appends, and the tasks or the exception. -/
structure MissionOutcome where
  rows : List (String × Json)
  result : Except Raised Decomposition

end

/-! ## What is refused -/

def Iterable : Json → Prop
  | .arr _ => True
  | .str _ => True
  | .obj _ => True
  | _ => False

/-- A goal that `parse_pred_ref` trips on: an empty list, a mapping without a name, a mapping with
arguments that cannot be iterated. -/
inductive Malformed : Json → Prop
  | empty : Malformed (.arr [])
  | unnamed {fields : List (String × Json)} (missing : Assoc.get? fields "name" = none) :
      Malformed (.obj fields)
  | arguments {fields : List (String × Json)} {name args : Json}
      (named : Assoc.get? fields "name" = some name) (given : Assoc.get? fields "args" = some args)
      (scalar : ¬ Iterable args) : Malformed (.obj fields)

theorem isNull_iff (value : Json) : value.isNull = true ↔ value = .null := by
  cases value <;> simp [Json.isNull]

section

variable [Host]

def Grounded (menu : Menu) (goal : Json) : Prop :=
  ∃ name args, parsePredRef (.value goal) = .ok (name, args) ∧ name ∈ menu.predicates

/-- No binding is named, or a known one. -/
def Named (menu : Menu) (task : Json) : Prop := task = .null ∨ ∃ name ∈ menu.known, task = .str name

/-- An entry that passes. -/
structure Sound (menu : Menu) (ids : List String) (entry : Json) (id : String) : Prop where
  fresh : freshId ids entry = some id
  named : Named menu (entry.getD "task" .null)
  grounded : ∃ goals, goalList (entry.getD "goal" .null) = some goals ∧ ∀ goal ∈ goals, Grounded menu goal

inductive Trips (menu : Menu) (ids : List String) (entry : Json) : Prop
  | task {id : String} (fresh : freshId ids entry = some id)
      (container : (entry.getD "task" .null).hashable = false)
  | goal {id : String} {goals : List Json} (fresh : freshId ids entry = some id)
      (named : Named menu (entry.getD "task" .null))
      (listed : goalList (entry.getD "goal" .null) = some goals)
      (malformed : FirstNot (Grounded menu) Malformed goals)

inductive TripsIn (menu : Menu) : List String → List Json → Prop
  | here {ids : List String} {entry : Json} {entries : List Json} (trips : Trips menu ids entry) :
      TripsIn menu ids (entry :: entries)
  | later {ids : List String} {entry : Json} {entries : List Json} {id : String}
      (sound : Sound menu ids entry id) (others : TripsIn menu (ids ++ [id]) entries) :
      TripsIn menu ids (entry :: entries)

variable {menu : Menu}

theorem checkGoal_eq_ok_iff (index : Nat) (goal : Json) :
    checkGoal menu index goal = .ok () ↔ Grounded menu goal := by
  rw [checkGoal, bind_eq_ok]
  constructor
  · rintro ⟨⟨name, args⟩, parsed, listed⟩
    by_cases mem : name ∈ menu.predicates
    · exact ⟨name, args, parsed, mem⟩
    · rw [if_neg mem] at listed
      cases listed
  · rintro ⟨name, args, parsed, mem⟩
    exact ⟨(name, args), parsed, if_pos mem⟩

theorem checkGoals_eq_ok_iff (index : Nat) (goal : Json) :
    checkGoals menu index goal = .ok () ↔
      ∃ goals, goalList goal = some goals ∧ ∀ one ∈ goals, Grounded menu one := by
  rw [checkGoals]
  cases goalList goal with
  | none =>
      refine iff_of_false ?_ ?_
      · exact nofun
      · rintro ⟨_, never, _⟩
        cases never
  | some goals =>
      refine (forM_eq_ok_iff (checkGoal_eq_ok_iff index) goals).trans ?_
      constructor
      · intro grounded
        exact ⟨goals, rfl, grounded⟩
      · rintro ⟨others, same, grounded⟩
        cases same
        exact grounded

omit [Host] in
theorem known_iff (task : Json) :
    (∃ name ∈ menu.known, task.str? = some name) ↔ ∃ name ∈ menu.known, task = .str name := by
  apply exists_congr
  intro name
  apply and_congr_right
  intro _
  cases task <;> simp [Json.str?]

theorem checkTask_eq_ok_iff (index : Nat) (task : Json) :
    checkTask menu index task = .ok () ↔ Named menu task := by
  rw [checkTask, Named]
  by_cases absent : task = .null
  · rw [absent]
    exact iff_of_true rfl (Or.inl rfl)
  · rw [if_neg (mt (isNull_iff task).mp absent), bind_eq_ok, or_iff_right absent, ← known_iff]
    constructor
    · rintro ⟨_, _, known⟩
      by_contra unknown
      rw [if_neg unknown] at known
      cases known
    · intro known
      obtain ⟨name, mem, same⟩ := (known_iff task).mp known
      exact ⟨(), (hashed_eq_ok_iff task).mpr (by rw [same]; rfl), if_pos known⟩

theorem checkEntry_eq_ok_iff (index : Nat) (ids next : List String) (entry : Json) :
    checkEntry menu index ids entry = .ok next ↔
      ∃ id, Sound menu ids entry id ∧ next = ids ++ [id] := by
  rw [checkEntry]
  cases fresh : freshId ids entry with
  | none =>
      refine iff_of_false ?_ ?_
      · exact nofun
      · rintro ⟨_, sound, _⟩
        rw [sound.fresh] at fresh
        cases fresh
  | some id =>
      constructor
      · intro passed
        obtain ⟨_, named, passed⟩ := of_bind passed
        obtain ⟨_, grounded, same⟩ := of_bind passed
        cases same
        exact ⟨id, ⟨fresh, (checkTask_eq_ok_iff index _).mp named,
          (checkGoals_eq_ok_iff index _).mp grounded⟩, rfl⟩
      · rintro ⟨other, sound, same⟩
        have one := sound.fresh
        rw [fresh] at one
        cases one
        refine bind_eq_ok.mpr ⟨(), (checkTask_eq_ok_iff index _).mpr sound.named, ?_⟩
        refine bind_eq_ok.mpr ⟨(), (checkGoals_eq_ok_iff index _).mpr sound.grounded, ?_⟩
        rw [same]
        rfl

omit [Host] in
theorem freshId_eq_some {ids : List String} {entry : Json} {id : String}
    (fresh : freshId ids entry = some id) :
    ∃ fields, entry = .obj fields ∧ Assoc.get? fields "id" = some (.str id) ∧ id ∉ ids := by
  obtain ⟨named, free⟩ := Option.filter_eq_some_iff.mp fresh
  obtain ⟨value, found, text⟩ := Option.bind_eq_some_iff.mp named
  refine ⟨entry.fields, ?_, ?_, of_decide_eq_true free⟩
  · cases entry <;> first | rfl | cases found
  · rw [← Json.get?_eq_fields, found]
    cases value <;> first | cases text; rfl | cases text

omit [Host] in
theorem goalList_eq_some {value : Json} {goals : List Json} (listed : goalList value = some goals) :
    value = .arr goals ∧ goals ≠ [] := by
  cases value with
  | arr items =>
      cases items with
      | nil => cases listed
      | cons goal rest =>
          cases listed
          exact ⟨rfl, List.cons_ne_nil goal rest⟩
  | _ => cases listed

structure MissionTask.Valid (menu : Menu) (task : MissionTask) : Prop where
  named : ∀ name, task.task = some name → name ∈ menu.known
  nonempty : task.goal ≠ []
  grounded : ∀ goal ∈ task.goal, ∃ name ∈ menu.predicates, ∃ args, goal = canonical name args

theorem predRefStr_of_grounded {goal : Json} (grounded : Grounded menu goal) :
    ∃ atom, predRefStr (.value goal) = .ok atom ∧
      ∃ name ∈ menu.predicates, ∃ args, atom = canonical name args := by
  obtain ⟨name, args, parsed, mem⟩ := grounded
  refine ⟨canonical name args, ?_, name, mem, args, rfl⟩
  rw [predRefStr, parsed]
  rfl

theorem mapM_predRefStr {goals : List Json} (grounded : ∀ goal ∈ goals, Grounded menu goal) :
    ∃ atoms, goals.mapM (fun goal => predRefStr (.value goal)) = .ok atoms ∧
      atoms.length = goals.length ∧
      ∀ atom ∈ atoms, ∃ name ∈ menu.predicates, ∃ args, atom = canonical name args := by
  have returns : Returns (goals.mapM (fun goal => predRefStr (.value goal))) := by
    apply returns_mapM_iff.mpr
    intro goal mem
    obtain ⟨atom, printed, _⟩ := predRefStr_of_grounded (grounded goal mem)
    exact ⟨atom, printed⟩
  obtain ⟨atoms, printed⟩ := returns
  refine ⟨atoms, printed, ?_, ?_⟩
  · exact (mapM_eq_ok_iff.mp printed).length_eq.symm
  · intro atom mem
    obtain ⟨goal, inside, made⟩ := exists_mem_of_mapM printed mem
    obtain ⟨other, same, shape⟩ := predRefStr_of_grounded (grounded goal inside)
    rw [made] at same
    cases same
    exact shape

theorem missionTask_of_sound {ids : List String} {entry : Json} {id : String}
    (sound : Sound menu ids entry id) :
    ∃ task, missionTask entry = .ok task ∧ task.id = id ∧ task.Valid menu := by
  obtain ⟨fields, rfl, named, _⟩ := freshId_eq_some sound.fresh
  obtain ⟨goals, listed, grounded⟩ := sound.grounded
  obtain ⟨items, some_⟩ := goalList_eq_some listed
  obtain ⟨atoms, printed, length, shapes⟩ := mapM_predRefStr grounded
  have goal : Assoc.get? fields "goal" = some (.arr goals) := by
    rw [Json.getD, Json.get?] at items
    cases found : Assoc.get? fields "goal" with
    | none =>
        rw [found] at items
        cases items
    | some value =>
        rw [found] at items
        exact congrArg some items
  refine ⟨⟨id, taskName (.obj fields), atoms⟩, ?_, rfl, ?_, ?_, shapes⟩
  · rw [missionTask, Json.item, named, Json.item, goal]
    exact bind_eq_ok.mpr ⟨.str id, rfl, bind_eq_ok.mpr ⟨id, rfl, bind_eq_ok.mpr ⟨.arr goals, rfl,
      bind_eq_ok.mpr ⟨goals, rfl, bind_eq_ok.mpr ⟨atoms, printed, rfl⟩⟩⟩⟩⟩
  · intro name given
    rcases sound.named with absent | ⟨known, mem, same⟩
    · rw [Json.getD, Json.get?] at absent
      rw [taskName, Json.get?] at given
      cases found : Assoc.get? fields "task" with
      | none =>
          rw [found] at given
          cases given
      | some value =>
          rw [found] at given absent
          rw [show value = .null from absent] at given
          cases given
    · rw [Json.getD, Json.get?] at same
      rw [taskName, Json.get?] at given
      cases found : Assoc.get? fields "task" with
      | none =>
          rw [found] at same
          cases same
      | some value =>
          rw [found] at given same
          rw [show value = .str known from same] at given
          cases given
          exact mem
  · intro none
    have short : atoms = [] := none
    rw [short] at length
    exact some_ (List.eq_nil_of_length_eq_zero length.symm)

theorem tasks_of_checkEntries (index : Nat) (ids : List String) (entries : List Json)
    (passed : checkEntries menu index ids entries = .ok ()) :
    ∃ tasks, entries.mapM missionTask = .ok tasks ∧ (tasks.map MissionTask.id).Nodup ∧
      (∀ task ∈ tasks, task.id ∉ ids ∧ task.Valid menu) ∧ tasks.length = entries.length := by
  induction entries generalizing index ids with
  | nil => exact ⟨[], mapM_nil _, List.nodup_nil, List.forall_mem_nil _, rfl⟩
  | cons entry entries ih =>
      rw [checkEntries] at passed
      obtain ⟨next, first, rest⟩ := of_bind passed
      obtain ⟨id, sound, rfl⟩ := (checkEntry_eq_ok_iff index _ _ entry).mp first
      obtain ⟨task, made, same, valid⟩ := missionTask_of_sound sound
      obtain ⟨tasks, others, distinct, all, length⟩ := ih (index + 1) (ids ++ [id]) rest
      obtain ⟨_, _, _, free⟩ := freshId_eq_some sound.fresh
      refine ⟨task :: tasks, ?_, ?_, ?_, ?_⟩
      · rw [List.mapM_cons, made, others]
        rfl
      · rw [List.map_cons, List.nodup_cons]
        refine ⟨?_, distinct⟩
        intro again
        obtain ⟨other, mem, one⟩ := List.mem_map.mp again
        apply (all other mem).1
        rw [one, same]
        exact List.mem_append_right ids (List.mem_singleton_self id)
      · intro other mem
        rcases List.mem_cons.mp mem with rfl | mem
        · rw [same]
          exact ⟨free, valid⟩
        · refine ⟨?_, (all other mem).2⟩
          intro earlier
          exact (all other mem).1 (List.mem_append_left [id] earlier)
      · rw [List.length_cons, List.length_cons, length]

end

/-! ## What the runtime seals -/

section

variable [Scanner]

theorem scanned_cases (text : List Char) (found : Option Json) :
    (Scanner.limit text = some .depth ∧ scanned text found = .error .recursion) ∨
      (Scanner.limit text ≠ some .depth ∧
        ((∃ value, Scanner.limit text = none ∧ found = some value ∧ scanned text found = .ok value) ∨
          (Scanner.limit text = some .digits ∨ Scanner.limit text = none ∧ found = none) ∧
            scanned text found = .error (.python (.valueError (Scanner.complaint text))))) := by
  unfold scanned
  cases limit : Scanner.limit text with
  | none =>
      refine Or.inr ⟨Option.some_ne_none _ ∘ Eq.symm, ?_⟩
      cases found with
      | none => exact Or.inr ⟨Or.inr ⟨rfl, rfl⟩, rfl⟩
      | some value => exact Or.inl ⟨value, rfl, rfl, rfl⟩
  | some reason =>
      cases reason with
      | depth => exact Or.inl ⟨rfl, rfl⟩
      | digits =>
          refine Or.inr ⟨?_, Or.inr ⟨Or.inl rfl, ?_⟩⟩
          · exact nofun
          · cases found <;> rfl

variable [FloatText]

/-- The scanner runs out of stack on the text, or on its first object after it refused the whole. -/
inductive TooDeep (text : List Char) : Prop
  | whole (deep : Scanner.limit text = some .depth)
  | part (refused : Scanner.limit text = some .digits ∨ Scanner.limit text = none ∧ loads text = none)
      (brace : fromBrace text ≠ []) (deep : Scanner.limit (fromBrace text) = some .depth)

end

section

variable [Host]

/-- A decomposition that the runtime can plan: every task has an id of its own, names a known
binding, and has goals over the predicates of the menu. -/
structure Decomposition.Sealable (menu : Menu) (dec : Decomposition) : Prop where
  nonempty : dec.tasks ≠ []
  distinct : (dec.tasks.map MissionTask.id).Nodup
  valid : ∀ task ∈ dec.tasks, task.Valid menu
  named : ∀ task ∈ dec.tasks, ∃ name ∈ menu.known, task.task = some name

theorem tasks_of_decomposed {menu : Menu} {promptSha : String} {fields : List (String × Json)}
    {dec : Decomposition} (made : decomposed menu promptSha fields = .ok dec) :
    dec.tasks ≠ [] ∧ (dec.tasks.map MissionTask.id).Nodup ∧ ∀ task ∈ dec.tasks, task.Valid menu := by
  rw [decomposed] at made
  split at made
  · next entry entries found =>
      obtain ⟨_, passed, rest⟩ := of_bind made
      obtain ⟨tasks, listed, same⟩ := of_bind rest
      obtain ⟨others, again, distinct, all, length⟩ := tasks_of_checkEntries 0 [] _ passed
      rw [listed] at again
      cases again
      cases same
      refine ⟨?_, distinct, ?_⟩
      · intro none
        have short : tasks = [] := none
        rw [short] at length
        cases length
      · intro task mem
        exact (all task mem).2
  · cases made

variable [Scanner] [FloatText]

/-- The replies that raise something else than a `ValueError`. -/
inductive Unruly (menu : Menu) (reply : List Char) : Prop
  | deep (deep : TooDeep reply)
  | tasks {fields : List (String × Json)} {entries : List Json}
      (object : parseValue reply = .ok (.obj fields))
      (listed : Assoc.get? fields "tasks" = some (.arr entries)) (trips : TripsIn menu [] entries)

/-- One row is sealed: of tasks that can be planned, or of the refusal that was raised. -/
def MissionOutcome.Settled (mission : Mission) (outcome : MissionOutcome) : Prop :=
  (∃ dec, outcome = ⟨[decomposedRow mission dec], .ok dec⟩ ∧ dec.Sealable mission.menu) ∨
    ∃ text, outcome = ⟨[refusedRow mission text], .error (.python (.valueError text))⟩

end

section

local instance replyHost : Host := asciiHost

local instance replyFloats : FloatText := exactDecimals

/-- A scanner that no short text exceeds. -/
local instance replyScanner : Scanner := ⟨fun _ => none, fun _ => "Expecting value"⟩

end

end Runtime
end PhysicalHarness
