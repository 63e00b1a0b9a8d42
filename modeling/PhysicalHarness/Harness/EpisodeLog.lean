import PhysicalHarness.Harness.Reload

namespace PhysicalHarness
namespace Harness

open Python JsonText

/-!
# The episode log

An episode is a handful of rows in one file and one block of feature columns under
the digest of its text.  Reading the rows back groups them by seed and bundle.
-/

/-! ## What is written -/

structure FireEntry where
  ruleId : String
  step : Nat
  envStep : Nat
  deriving DecidableEq

/-- What `write_episode` reads of a rollout. -/
structure Rollout where
  seed : Int
  success : Bool
  steps : Nat
  fires : List FireEntry
  chain : String
  trace : List (String × List Double)

structure EpisodeLog where
  rows : List Char
  blocks : List (String × String)

def column (trace : List (String × List Double)) (name : String) : List Double :=
  (Assoc.get? trace name).getD []

def columnLength (trace : List (String × List Double)) : List String → Nat
  | [] => 0
  | first :: _ => (column trace first).length

def blockOf (trace : List (String × List Double)) : Json :=
  let names := sorted (Assoc.keys trace)
  .obj [("names", .arr (names.map Json.str)), ("n", .int (columnLength trace names)),
    ("columns", .obj (names.map (fun name =>
      (name, .arr ((column trace name).map (fun value => .float value.round9.value))))))]

section

variable [FloatText]

def blockText (trace : List (String × List Double)) : String :=
  dumps compact (sortKeys (blockOf trace))

def lineCount (text : List Char) : Nat :=
  if (fileLines text).getLast? = some [] then (fileLines text).length - 1 else (fileLines text).length

def rowValue (seq : Nat) (kind : String) (data : List (String × Json)) : Json :=
  .obj [("seq", .int seq), ("type", .str kind), ("data", .obj data)]

namespace EpisodeLog

def fresh : EpisodeLog := ⟨[], []⟩

def append (log : EpisodeLog) (kind : String) (data : List (String × Json)) : EpisodeLog :=
  { log with
    rows := log.rows ++ (print compact 0 (rowValue (lineCount log.rows) kind data) ++ ['\n']) }

variable [Sha256]

/-- `put_block`: a block that is there is not written again. -/
def putBlock (log : EpisodeLog) (trace : List (String × List Double)) : String × EpisodeLog :=
  let text := blockText trace
  let digest := sha text
  (digest,
    if digest ∈ Assoc.keys log.blocks then log
    else { log with blocks := log.blocks ++ [(digest, text)] })

end EpisodeLog

/-- `{"seed": …, "bundle_sha": …}`. -/
def common (seed : Int) (bundleSha : String) : List (String × Json) :=
  [("seed", .int seed), ("bundle_sha", .str bundleSha)]

/-- The rows of an episode, in order. -/
def rowsOf (rollout : Rollout) (spec : Json) (bundleSha block : String) :
    List (String × List (String × Json)) :=
  ("episode/start", common rollout.seed bundleSha ++ [("spec", spec)]) ::
    ("episode/frames", common rollout.seed bundleSha ++ [("block", .str block),
      ("names", .arr ((sorted (Assoc.keys rollout.trace)).map Json.str))]) ::
    rollout.fires.map (fun fire => ("critic/fire", common rollout.seed bundleSha ++
      [("rule_id", .str fire.ruleId), ("step", .int fire.step), ("env_step", .int fire.envStep)])) ++
    [("episode/end", common rollout.seed bundleSha ++ [("success", .bool rollout.success),
      ("steps", .int rollout.steps), ("chain", .str rollout.chain)])]

/-- `write_episode`. -/
def writeEpisode [Sha256] (log : EpisodeLog) (rollout : Rollout) (spec : Json) (bundleSha : String) :
    String × EpisodeLog :=
  let stored := log.putBlock rollout.trace
  (stored.1, (rowsOf rollout spec bundleSha stored.1).foldl (fun log row => log.append row.1 row.2)
    stored.2)

end

/-- A record of `episodes()`; the keys that a row of some type sets may be missing. -/
structure EpisodeRecord where
  seed : Json
  bundleSha : Json
  fires : List (Json × Json)
  spec : Option Json
  block : Option Json
  names : Option Json
  success : Option Json
  steps : Option Json
  chain : Option Json

/-- `{"seed": …, "bundle_sha": …, "fires": []}`. -/
def EpisodeRecord.fresh (seed bundleSha : Json) : EpisodeRecord :=
  ⟨seed, bundleSha, [], none, none, none, none, none, none⟩

/-- `d.get(name)`; only a dict has it. -/
def dictGet (data : Json) (name : String) : Except PyError Json :=
  if data.isMapping then .ok (data.getD name .null) else .error .attributeError

def EpisodeRecord.update (data kind : Json) (record : EpisodeRecord) : Except PyError EpisodeRecord :=
  if kind.str? = some "episode/start" then
    (data.item "spec").map (fun spec => { record with spec := some spec })
  else if kind.str? = some "episode/frames" then
    (data.item "block").bind (fun block =>
      (data.item "names").map (fun names => { record with block := some block, names := some names }))
  else if kind.str? = some "critic/fire" then
    (data.item "rule_id").bind (fun ruleId =>
      (data.item "step").map (fun step => { record with fires := record.fires ++ [(ruleId, step)] }))
  else if kind.str? = some "episode/end" then
    (data.item "success").bind (fun success =>
      (data.item "steps").bind (fun steps =>
        (data.item "chain").map (fun chain =>
          { record with success := some success, steps := some steps, chain := some chain })))
  else .ok record

/-- `out.setdefault(key, …)`, and the update of what it returns. -/
def settle (seed bundleSha : Json) (update : EpisodeRecord → Except PyError EpisodeRecord) :
    List EpisodeRecord → Except PyError (List EpisodeRecord)
  | [] => (update (.fresh seed bundleSha)).map (fun record => [record])
  | record :: rest =>
      if record.seed.eq seed && record.bundleSha.eq bundleSha then
        (update record).map (fun record => record :: rest)
      else (settle seed bundleSha update rest).map (fun rest => record :: rest)

/-- One row of the file. -/
def enter (out : List EpisodeRecord) (row : Json) : Except PyError (List EpisodeRecord) :=
  (row.item "data").bind (fun data =>
    (dictGet data "seed").bind (fun seed =>
      (dictGet data "bundle_sha").bind (fun bundleSha =>
        (Python.hashed seed).bind (fun _ =>
          (Python.hashed bundleSha).bind (fun _ =>
            settle seed bundleSha (fun record =>
              (row.item "type").bind (fun kind => record.update data kind)) out)))))

section

variable [FloatText]

def regroup (out : List EpisodeRecord) : List (List Char) → Except PyError (List EpisodeRecord)
  | [] => .ok out
  | line :: rest =>
      if strip line = [] then regroup out rest
      else
        match loads line with
        | none => .error (.valueError "not JSON")
        | some row => (enter out row).bind (fun out => regroup out rest)

def EpisodeLog.episodes (log : EpisodeLog) : Except PyError (List EpisodeRecord) :=
  regroup [] (fileLines log.rows)

inductive BlockFault where
  | missing
  | contentHash (digest : String)
  | notJson
  deriving DecidableEq

/-- `get_block`. -/
def EpisodeLog.getBlock [Sha256] (log : EpisodeLog) (digest : String) : Except BlockFault Json :=
  match Assoc.get? log.blocks digest with
  | none => .error .missing
  | some text =>
      if sha text ≠ digest then .error (.contentHash digest)
      else
        match loads text.toList with
        | none => .error .notJson
        | some block => .ok block

end

/-! ## A block and its text -/

theorem pairwise_sorted {names : List String} (unique : names.Nodup) :
    (sorted names).Pairwise (· < ·) := by
  have ascending : (sorted names).Pairwise (· ≤ ·) := List.pairwise_insertionSort (· ≤ ·) names
  have apart : (sorted names).Nodup := (List.perm_insertionSort (· ≤ ·) names).nodup_iff.mpr unique
  exact (ascending.and apart).imp (fun both => lt_of_le_of_ne both.1 both.2)

def columnsOf (trace : List (String × List Double)) : List (String × Json) :=
  (sorted (Assoc.keys trace)).map (fun name =>
    (name, .arr ((column trace name).map (fun value => .float value.round9.value))))

def blockForm (trace : List (String × List Double)) : Json :=
  let names := sorted (Assoc.keys trace)
  .obj [("columns", .obj (columnsOf trace)), ("n", .int (columnLength trace names)),
    ("names", .arr (names.map Json.str))]

theorem keys_columnsOf (trace : List (String × List Double)) :
    Assoc.keys (columnsOf trace) = sorted (Assoc.keys trace) := by
  rw [Assoc.keys, columnsOf, List.map_map]
  exact List.map_id _

theorem throughoutItems_map {α : Type} {floats : PyFloat → Prop} {keys : List String → Prop}
    (form : α → Json) (each : ∀ item, Throughout floats keys (form item)) (items : List α) :
    ThroughoutItems floats keys (items.map form) := by
  induction items with
  | nil => exact trivial
  | cons item rest ih => exact ⟨each item, ih⟩

theorem throughoutFields_columnsOf {floats : PyFloat → Prop} {keys : List String → Prop}
    (doubles : ∀ value : Double, floats value.value) (trace : List (String × List Double)) :
    ThroughoutFields floats keys (columnsOf trace) := by
  rw [throughoutFields_iff]
  intro pair mem
  rcases List.mem_map.mp mem with ⟨name, _, rfl⟩
  exact throughoutItems_map (fun value : Double => Json.float value.round9.value)
    (fun value => doubles value.round9) _

theorem ordered_blockForm {trace : List (String × List Double)} (unique : (Assoc.keys trace).Nodup) :
    Ordered (blockForm trace) := by
  have names : ["columns", "n", "names"].Pairwise (· < ·) := by decide
  refine ⟨names, ⟨?_, throughoutFields_columnsOf (fun _ => trivial) trace⟩, trivial,
    throughoutItems_map Json.str (fun _ => trivial) _, trivial⟩
  rw [keys_columnsOf]
  exact pairwise_sorted unique

theorem proper_blockForm (trace : List (String × List Double)) : Proper (blockForm trace) :=
  ⟨trivial, ⟨trivial, throughoutFields_columnsOf (fun value => value.double) trace⟩, trivial,
    throughoutItems_map Json.str (fun _ => trivial) _, trivial⟩

theorem sortKeys_blockOf {trace : List (String × List Double)} (unique : (Assoc.keys trace).Nodup) :
    sortKeys (blockOf trace) = blockForm trace := by
  have ordered := ordered_blockForm unique
  have columns : sortKeys (.obj (columnsOf trace)) = .obj (columnsOf trace) :=
    sortKeys_of_ordered _ ordered.2.1
  have names : sortKeys (.arr ((sorted (Assoc.keys trace)).map Json.str)) =
      .arr ((sorted (Assoc.keys trace)).map Json.str) := sortKeys_of_ordered _ ordered.2.2.2.1
  have whole : sortKeys (blockOf trace) = .obj (sortFields [("names", sortKeys (.arr ((sorted
      (Assoc.keys trace)).map Json.str))), ("n", .int (columnLength trace (sorted (Assoc.keys trace)))),
      ("columns", sortKeys (.obj (columnsOf trace)))]) := rfl
  rw [whole, columns, names]
  simp [blockForm, sortFields, List.insertionSort, List.orderedInsert]

theorem loads_blockText [FloatText] {trace : List (String × List Double)}
    (unique : (Assoc.keys trace).Nodup) : loads (blockText trace).toList = some (blockForm trace) := by
  have text : (blockText trace).toList = print compact 0 (blockForm trace) := by
    rw [blockText, sortKeys_blockOf unique, dumps, String.toList_ofList]
  rw [text, loads_print compact (proper_blockForm trace),
    rebuild_gather_of_distinct _ (Ordered.distinct (ordered_blockForm unique))]

def EpisodeRecord.keyed (record : EpisodeRecord) (seed bundleSha : Json) : Bool :=
  record.seed.eq seed && record.bundleSha.eq bundleSha

theorem settle_new {seed bundleSha : Json} {update : EpisodeRecord → Except PyError EpisodeRecord}
    {out : List EpisodeRecord} (fresh : ∀ record ∈ out, record.keyed seed bundleSha = false) :
    settle seed bundleSha update out =
      (update (.fresh seed bundleSha)).map (fun record => out ++ [record]) := by
  induction out with
  | nil => rfl
  | cons first rest ih =>
      have other : (first.seed.eq seed && first.bundleSha.eq bundleSha) = false :=
        fresh first (.head _)
      rw [settle, other, if_neg Bool.false_ne_true,
        ih (fun record mem => fresh record (.tail _ mem))]
      cases update (.fresh seed bundleSha) <;> rfl

theorem settle_last {seed bundleSha : Json} {update : EpisodeRecord → Except PyError EpisodeRecord}
    {out : List EpisodeRecord} {last : EpisodeRecord}
    (fresh : ∀ record ∈ out, record.keyed seed bundleSha = false)
    (here : last.keyed seed bundleSha = true) :
    settle seed bundleSha update (out ++ [last]) =
      (update last).map (fun record => out ++ [record]) := by
  induction out with
  | nil =>
      have same : (last.seed.eq seed && last.bundleSha.eq bundleSha) = true := here
      rw [List.nil_append, settle, same, if_pos rfl]
      rfl
  | cons first rest ih =>
      have other : (first.seed.eq seed && first.bundleSha.eq bundleSha) = false :=
        fresh first (.head _)
      rw [List.cons_append, settle, other, if_neg Bool.false_ne_true,
        ih (fun record mem => fresh record (.tail _ mem))]
      cases update last <;> rfl

theorem enter_rowValue (out : List EpisodeRecord) (seq : Nat) (kind : String) (seed : Int)
    (bundleSha : String) (more : List (String × Json))
    (distinct : (Assoc.keys (common seed bundleSha ++ more)).Nodup) :
    enter out (rebuild gather (rowValue seq kind (common seed bundleSha ++ more))) =
      settle (.int seed) (.str bundleSha) (fun record =>
        record.update (.obj (common seed bundleSha ++ rebuildFields gather more)) (.str kind)) out := by
  have data : rebuild gather (.obj (common seed bundleSha ++ more)) =
      .obj (common seed bundleSha ++ rebuildFields gather more) := by
    have fields : rebuildFields gather (common seed bundleSha ++ more) =
        common seed bundleSha ++ rebuildFields gather more := rfl
    rw [rebuild, fields, gather_of_nodup]
    rw [← fields, keys_rebuildFields]
    exact distinct
  have row : rebuild gather (rowValue seq kind (common seed bundleSha ++ more)) =
      gather [("seq", .int seq), ("type", .str kind),
        ("data", rebuild gather (.obj (common seed bundleSha ++ more)))] := rfl
  have keys : (Assoc.keys [("seq", Json.int seq), ("type", .str kind),
      ("data", .obj (common seed bundleSha ++ rebuildFields gather more))]).Nodup := by
    have names : ["seq", "type", "data"].Nodup := by decide
    exact names
  rw [row, data, gather_of_nodup keys]
  rfl

def recordOf (rollout : Rollout) (spec : Json) (bundleSha block : String) : EpisodeRecord where
  seed := .int rollout.seed
  bundleSha := .str bundleSha
  fires := rollout.fires.map (fun fire => (.str fire.ruleId, .int fire.step))
  spec := some (rebuild gather spec)
  block := some (.str block)
  names := some (.arr ((sorted (Assoc.keys rollout.trace)).map Json.str))
  success := some (.bool rollout.success)
  steps := some (.int rollout.steps)
  chain := some (.str rollout.chain)

def enterAll (out : List EpisodeRecord) :
    List (String × List (String × Json)) → Except PyError (List EpisodeRecord)
  | [] => .ok out
  | row :: rest =>
      (enter out (rebuild gather (rowValue 0 row.1 row.2))).bind (fun out => enterAll out rest)

theorem enterAll_append (out : List EpisodeRecord) (rows more : List (String × List (String × Json))) :
    enterAll out (rows ++ more) = (enterAll out rows).bind (fun out => enterAll out more) := by
  induction rows generalizing out with
  | nil => rfl
  | cons row rest ih =>
      rw [List.cons_append, enterAll, enterAll]
      cases enter out (rebuild gather (rowValue 0 row.1 row.2)) with
      | error error => rfl
      | ok next => exact ih next

theorem keyed_int_str (record : EpisodeRecord) {seed : Int} {bundleSha : String}
    (seed_ : record.seed = .int seed) (bundle_ : record.bundleSha = .str bundleSha) :
    record.keyed (.int seed) (.str bundleSha) = true := by
  rw [EpisodeRecord.keyed, seed_, bundle_, Json.eq_self, Json.eq_self]
  rfl

section

variable {seed : Int} {bundleSha : String} {out : List EpisodeRecord}

theorem enter_last (fresh : ∀ record ∈ out, record.keyed (.int seed) (.str bundleSha) = false)
    {last : EpisodeRecord} (seed_ : last.seed = .int seed) (bundle_ : last.bundleSha = .str bundleSha)
    {kind : String} {more : List (String × Json)}
    (distinct : (Assoc.keys (common seed bundleSha ++ more)).Nodup) :
    enter (out ++ [last]) (rebuild gather (rowValue 0 kind (common seed bundleSha ++ more))) =
      (last.update (.obj (common seed bundleSha ++ rebuildFields gather more)) (.str kind)).map
        (fun record => out ++ [record]) := by
  rw [enter_rowValue _ _ _ _ _ _ distinct, settle_last fresh (keyed_int_str last seed_ bundle_)]

theorem enterAll_fires (fresh : ∀ record ∈ out, record.keyed (.int seed) (.str bundleSha) = false)
    (fires : List FireEntry) {last : EpisodeRecord} (seed_ : last.seed = .int seed)
    (bundle_ : last.bundleSha = .str bundleSha) :
    enterAll (out ++ [last]) (fires.map (fun fire => ("critic/fire", common seed bundleSha ++
      [("rule_id", .str fire.ruleId), ("step", .int fire.step), ("env_step", .int fire.envStep)]))) =
      .ok (out ++ [{ last with
        fires := last.fires ++ fires.map (fun fire => (.str fire.ruleId, .int fire.step)) }]) := by
  induction fires generalizing last with
  | nil =>
      rw [List.map_nil, List.map_nil, List.append_nil]
      rfl
  | cons fire rest ih =>
      have keys : ["seed", "bundle_sha", "rule_id", "step", "env_step"].Nodup := by decide
      let next : EpisodeRecord := { last with
        fires := last.fires ++ [(Json.str fire.ruleId, Json.int fire.step)] }
      have entered : enter (out ++ [last]) (rebuild gather (rowValue 0 "critic/fire"
          (common seed bundleSha ++ [("rule_id", .str fire.ruleId), ("step", .int fire.step),
            ("env_step", .int fire.envStep)]))) = .ok (out ++ [next]) :=
        enter_last fresh seed_ bundle_ keys
      have later := ih (show next.seed = _ from seed_) bundle_
      rw [List.map_cons, enterAll, entered]
      refine later.trans ?_
      rw [List.map_cons]
      simp only [next, List.append_assoc, List.singleton_append]

theorem enterAll_rowsOf (rollout : Rollout) (spec : Json) (bundleSha block : String)
    {out : List EpisodeRecord}
    (fresh : ∀ record ∈ out, record.keyed (.int rollout.seed) (.str bundleSha) = false) :
    enterAll out (rowsOf rollout spec bundleSha block) =
      .ok (out ++ [recordOf rollout spec bundleSha block]) := by
  have start_ : (Assoc.keys (common rollout.seed bundleSha ++ [("spec", spec)])).Nodup := by
    have names : ["seed", "bundle_sha", "spec"].Nodup := by decide
    exact names
  let names := Json.arr ((sorted (Assoc.keys rollout.trace)).map Json.str)
  have frames_ : (Assoc.keys (common rollout.seed bundleSha ++
      [("block", .str block), ("names", names)])).Nodup := by
    have keys : ["seed", "bundle_sha", "block", "names"].Nodup := by decide
    exact keys
  have end_ : (Assoc.keys (common rollout.seed bundleSha ++ [("success", .bool rollout.success),
      ("steps", .int rollout.steps), ("chain", .str rollout.chain)])).Nodup := by
    have keys : ["seed", "bundle_sha", "success", "steps", "chain"].Nodup := by decide
    exact keys
  let started : EpisodeRecord := { EpisodeRecord.fresh (.int rollout.seed) (.str bundleSha) with
    spec := some (rebuild gather spec) }
  let framed : EpisodeRecord := { started with block := some (.str block), names := some names }
  let fired : EpisodeRecord := { framed with
    fires := [] ++ rollout.fires.map (fun fire => (.str fire.ruleId, .int fire.step)) }
  have first : enter out (rebuild gather (rowValue 0 "episode/start"
      (common rollout.seed bundleSha ++ [("spec", spec)]))) = .ok (out ++ [started]) := by
    rw [enter_rowValue _ _ _ _ _ _ start_, settle_new fresh]
    rfl
  have plain : ∀ texts : List String, rebuildItems gather (texts.map Json.str) = texts.map Json.str := by
    intro texts
    induction texts with
    | nil => rfl
    | cons text rest ih => exact congrArg (List.cons (Json.str text)) ih
  have second : enter (out ++ [started]) (rebuild gather (rowValue 0 "episode/frames"
      (common rollout.seed bundleSha ++ [("block", .str block), ("names", names)]))) =
      .ok (out ++ [framed]) := by
    rw [enter_last fresh (show started.seed = _ from rfl) rfl frames_]
    have same : rebuild gather names = names := congrArg Json.arr (plain _)
    change Except.map _ (Except.ok { started with
      block := some (.str block), names := some (rebuild gather names) }) = _
    rw [same]
    rfl
  have third := enterAll_fires fresh rollout.fires (show framed.seed = _ from rfl) rfl
  have last : enter (out ++ [fired]) (rebuild gather (rowValue 0 "episode/end"
      (common rollout.seed bundleSha ++ [("success", .bool rollout.success),
        ("steps", .int rollout.steps), ("chain", .str rollout.chain)]))) =
      .ok (out ++ [recordOf rollout spec bundleSha block]) :=
    enter_last fresh (show fired.seed = _ from rfl) rfl end_
  rw [rowsOf, List.cons_append, List.cons_append, enterAll, first]
  change (enter (out ++ [started]) _).bind _ = _
  rw [second]
  change enterAll (out ++ [framed]) _ = _
  rw [enterAll_append, third]
  change (enter (out ++ [fired]) _).bind _ = _
  rw [last]
  rfl

end

def Lined [FloatText] : List (String × List (String × Json)) → List Char → Prop
  | [], file => file = []
  | row :: rest, file => ∃ seq more, Lined rest more ∧
      file = print compact 0 (rowValue seq row.1 row.2) ++ '\n' :: more

section

variable [FloatText]

theorem lined_append {rows : List (String × List (String × Json))} {log : EpisodeLog}
    (lined : Lined rows log.rows) (kind : String) (data : List (String × Json)) :
    Lined (rows ++ [(kind, data)]) (log.append kind data).rows := by
  have snoc : ∀ {rows : List (String × List (String × Json))} {file : List Char} (seq : Nat),
      Lined rows file → Lined (rows ++ [(kind, data)])
        (file ++ (print compact 0 (rowValue seq kind data) ++ ['\n'])) := by
    intro rows file seq lined
    induction rows generalizing file with
    | nil =>
        rw [show file = [] from lined]
        exact ⟨seq, [], rfl, rfl⟩
    | cons row rest ih =>
        rcases lined with ⟨seq_, more, lined, rfl⟩
        refine ⟨seq_, _, ih lined, ?_⟩
        rw [List.append_assoc, List.cons_append]
  exact snoc _ lined

theorem lined_foldl {rows more : List (String × List (String × Json))} {log : EpisodeLog}
    (lined : Lined rows log.rows) :
    Lined (rows ++ more) (more.foldl (fun log row => log.append row.1 row.2) log).rows := by
  induction more generalizing rows log with
  | nil =>
      rw [List.append_nil]
      exact lined
  | cons row rest ih =>
      have later := ih (lined_append lined row.1 row.2)
      rw [List.append_assoc, List.singleton_append] at later
      exact later

theorem blocks_foldl (more : List (String × List (String × Json))) (log : EpisodeLog) :
    (more.foldl (fun log row => log.append row.1 row.2) log).blocks = log.blocks := by
  induction more generalizing log with
  | nil => rfl
  | cons row rest ih => exact ih (log.append row.1 row.2)

omit [FloatText] in
theorem enter_seq (out : List EpisodeRecord) (seq : Nat) (kind : String) (data : List (String × Json)) :
    enter out (rebuild gather (rowValue seq kind data)) =
      enter out (rebuild gather (rowValue 0 kind data)) := rfl

theorem regroup_lined {rows : List (String × List (String × Json))} {file : List Char}
    (lined : Lined rows file)
    (proper : ∀ row ∈ rows, ThroughoutFields PyFloat.IsDouble (fun _ => True) row.2)
    (out : List EpisodeRecord) : regroup out (fileLines file) = enterAll out rows := by
  induction rows generalizing file out with
  | nil =>
      rw [show file = [] from lined]
      rfl
  | cons row rest ih =>
      rcases lined with ⟨seq, more, lined, rfl⟩
      have whole : Proper (rowValue seq row.1 row.2) :=
        ⟨trivial, trivial, trivial, ⟨trivial, proper row (.head _)⟩, trivial⟩
      have text : strip (print compact 0 (rowValue seq row.1 row.2)) =
          print compact 0 (rowValue seq row.1 row.2) := strip_print_obj compact _
      have solid : print compact 0 (rowValue seq row.1 row.2) ≠ [] := by
        rcases exists_print_obj compact 0 [("seq", .int seq), ("type", .str row.1), ("data", .obj row.2)]
          with ⟨inner, braces⟩
        rw [rowValue, braces]
        exact List.cons_ne_nil _ _
      rw [fileLines_line (printable_print oneLine_compact 0 _), regroup, text, if_neg solid,
        loads_print compact whole, enterAll, ← enter_seq out seq]
      change (enter out (rebuild gather (rowValue seq row.1 row.2))).bind _ = _
      cases enter out (rebuild gather (rowValue seq row.1 row.2)) with
      | error error => rfl
      | ok next => exact ih lined (fun row mem => proper row (.tail _ mem)) next

end

/-! ## Episode after episode -/

/-- The arguments of one `write_episode`. -/
structure Write where
  rollout : Rollout
  spec : Json
  proper : Proper spec
  bundleSha : String

namespace Write

/-- What an episode is kept under. -/
def key (write : Write) : Int × String := (write.rollout.seed, write.bundleSha)

theorem eq_int_iff (value other : Int) : (Json.int value).eq (.int other) = true ↔ value = other := by
  have plain : (Json.int value).eq (.int other) = decide ((value : ℚ) = other) := rfl
  rw [plain, decide_eq_true_eq, Int.cast_inj]

variable [FloatText]

def text (write : Write) : String := blockText write.rollout.trace

variable [Sha256]

def block (write : Write) : String := sha write.text

def rows (write : Write) : List (String × List (String × Json)) :=
  rowsOf write.rollout write.spec write.bundleSha write.block

def record (write : Write) : EpisodeRecord :=
  recordOf write.rollout write.spec write.bundleSha write.block

theorem keyed_record_iff (write : Write) (seed : Int) (bundleSha : String) :
    write.record.keyed (.int seed) (.str bundleSha) = true ↔ write.key = (seed, bundleSha) := by
  have parts : write.record.keyed (.int seed) (.str bundleSha) =
      ((Json.int write.rollout.seed).eq (.int seed) && (Json.str write.bundleSha).eq (.str bundleSha)) :=
    rfl
  rw [parts, Bool.and_eq_true, eq_int_iff, Json.eq_str_iff, key, Prod.mk.injEq]
  constructor
  · rintro ⟨seeds, shas⟩
    exact ⟨seeds, Json.str.inj shas⟩
  · rintro ⟨seeds, shas⟩
    exact ⟨seeds, congrArg Json.str shas⟩

theorem proper_rows (write : Write) :
    ∀ row ∈ write.rows, ThroughoutFields PyFloat.IsDouble (fun _ => True) row.2 := by
  intro row mem
  rcases List.mem_append.mp mem with before | last
  · rcases List.mem_cons.mp before with rfl | before
    · exact ⟨trivial, trivial, write.proper, trivial⟩
    · rcases List.mem_cons.mp before with rfl | before
      · exact ⟨trivial, trivial, trivial, throughoutItems_map Json.str (fun _ => trivial) _, trivial⟩
      · rcases List.mem_map.mp before with ⟨fire, _, rfl⟩
        exact ⟨trivial, trivial, trivial, trivial, trivial, trivial⟩
  · rw [List.mem_singleton.mp last]
    exact ⟨trivial, trivial, trivial, trivial, trivial, trivial⟩

end Write

section

variable [FloatText] [Sha256]

def EpisodeLog.writeAll (log : EpisodeLog) (writes : List Write) : EpisodeLog :=
  writes.foldl (fun log write =>
    (writeEpisode log write.rollout write.spec write.bundleSha).2) log

theorem putBlock_rows (log : EpisodeLog) (trace : List (String × List Double)) :
    (log.putBlock trace).2.rows = log.rows := by
  rw [EpisodeLog.putBlock]
  simp only []
  split
  · rfl
  · rfl

theorem lined_writeAll (writes : List Write) {rows : List (String × List (String × Json))}
    {log : EpisodeLog} (lined : Lined rows log.rows) :
    Lined (rows ++ writes.flatMap Write.rows) (log.writeAll writes).rows := by
  induction writes generalizing rows log with
  | nil =>
      rw [List.flatMap_nil, List.append_nil]
      exact lined
  | cons write rest ih =>
      have stored : Lined rows (log.putBlock write.rollout.trace).2.rows := by
        rw [putBlock_rows]
        exact lined
      rw [List.flatMap_cons, ← List.append_assoc]
      exact ih (lined_foldl stored)

theorem enterAll_writes (writes : List Write) {out : List EpisodeRecord}
    (distinct : (writes.map Write.key).Nodup)
    (fresh : ∀ record ∈ out, ∀ write ∈ writes,
      record.keyed (.int write.rollout.seed) (.str write.bundleSha) = false) :
    enterAll out (writes.flatMap Write.rows) = .ok (out ++ writes.map Write.record) := by
  induction writes generalizing out with
  | nil =>
      rw [List.map_nil, List.append_nil]
      rfl
  | cons write rest ih =>
      rw [List.map_cons, List.nodup_cons] at distinct
      have first : enterAll out write.rows = .ok (out ++ [write.record]) :=
        enterAll_rowsOf _ _ _ _ (fun record mem => fresh record mem write (.head _))
      have later : ∀ record ∈ out ++ [write.record], ∀ other ∈ rest,
          record.keyed (.int other.rollout.seed) (.str other.bundleSha) = false := by
        intro record mem other listed
        rcases List.mem_append.mp mem with before | last
        · exact fresh record before other (.tail _ listed)
        · rw [List.mem_singleton.mp last, ← Bool.not_eq_true, Write.keyed_record_iff]
          intro same
          apply distinct.1
          rw [same]
          exact List.mem_map.mpr ⟨other, listed, rfl⟩
      rw [List.flatMap_cons, enterAll_append, first]
      change enterAll (out ++ [write.record]) (rest.flatMap Write.rows) = _
      rw [ih distinct.2 later, List.append_assoc]
      rfl

theorem episodes_writeAll {writes : List Write} (distinct : (writes.map Write.key).Nodup) :
    (EpisodeLog.fresh.writeAll writes).episodes = .ok (writes.map Write.record) := by
  have lined : Lined (writes.flatMap Write.rows) (EpisodeLog.fresh.writeAll writes).rows :=
    @lined_writeAll _ _ writes [] EpisodeLog.fresh rfl
  have proper : ∀ row ∈ writes.flatMap Write.rows,
      ThroughoutFields PyFloat.IsDouble (fun _ => True) row.2 := by
    intro row mem
    rcases List.mem_flatMap.mp mem with ⟨write, _, inside⟩
    exact write.proper_rows row inside
  rw [EpisodeLog.episodes, regroup_lined lined proper]
  exact enterAll_writes writes distinct (List.forall_mem_nil _)

/-- Every write has its block, and every block is that of a write. -/
structure Stocked (writes : List Write) (log : EpisodeLog) : Prop where
  present : ∀ write ∈ writes, write.block ∈ Assoc.keys log.blocks
  named : ∀ pair ∈ log.blocks, ∃ write ∈ writes, pair = (write.block, write.text)

theorem stocked_write {writes : List Write} {log : EpisodeLog} (stocked : Stocked writes log)
    (write : Write) :
    Stocked (writes ++ [write]) (writeEpisode log write.rollout write.spec write.bundleSha).2 := by
  have blocks : (writeEpisode log write.rollout write.spec write.bundleSha).2.blocks =
      if write.block ∈ Assoc.keys log.blocks then log.blocks
      else log.blocks ++ [(write.block, write.text)] := by
    refine (blocks_foldl _ _).trans ?_
    change (if write.block ∈ Assoc.keys log.blocks then log else _).blocks = _
    split
    · rfl
    · rfl
  by_cases known : write.block ∈ Assoc.keys log.blocks
  · rw [if_pos known] at blocks
    constructor
    · intro other mem
      rw [blocks]
      rcases List.mem_append.mp mem with before | last
      · exact stocked.present other before
      · rw [List.mem_singleton.mp last]
        exact known
    · intro pair found
      rw [blocks] at found
      rcases stocked.named pair found with ⟨other, mem, named⟩
      exact ⟨other, List.mem_append_left _ mem, named⟩
  · rw [if_neg known] at blocks
    constructor
    · intro other mem
      rw [blocks, Assoc.keys, List.map_append]
      rcases List.mem_append.mp mem with before | last
      · exact List.mem_append_left _ (stocked.present other before)
      · rw [List.mem_singleton.mp last]
        exact List.mem_append_right _ (List.mem_singleton.mpr rfl)
    · intro pair found
      rw [blocks] at found
      rcases List.mem_append.mp found with before | last
      · rcases stocked.named pair before with ⟨other, mem, named⟩
        exact ⟨other, List.mem_append_left _ mem, named⟩
      · exact ⟨write, List.mem_append_right _ (.head _), List.mem_singleton.mp last⟩

theorem stocked_writeAll (writes : List Write) {before : List Write} {log : EpisodeLog}
    (stocked : Stocked before log) : Stocked (before ++ writes) (log.writeAll writes) := by
  induction writes generalizing before log with
  | nil =>
      rw [List.append_nil]
      exact stocked
  | cons write rest ih =>
      have later := ih (stocked_write stocked write)
      rw [List.append_assoc, List.singleton_append] at later
      exact later

theorem stocked_fresh : Stocked [] EpisodeLog.fresh :=
  ⟨List.forall_mem_nil _,
    List.forall_mem_nil _⟩

theorem block_writeAll {writes : List Write} (free : CollisionFree (writes.map Write.text))
    {write : Write} (mem : write ∈ writes) :
    Assoc.get? (EpisodeLog.fresh.writeAll writes).blocks write.block = some write.text := by
  have stocked := stocked_writeAll writes stocked_fresh
  rw [List.nil_append] at stocked
  rcases Assoc.get?_of_mem_keys (stocked.present write mem) with ⟨text, found⟩
  rcases stocked.named _ (Assoc.mem_of_get? found) with ⟨other, listed, named⟩
  rcases Prod.mk.inj named with ⟨blocks, texts⟩
  have same : write.text = other.text :=
    free _ (List.mem_map.mpr ⟨write, mem, rfl⟩) _ (List.mem_map.mpr ⟨other, listed, rfl⟩) blocks
  rw [found, texts, same]

end

end Harness
end PhysicalHarness
