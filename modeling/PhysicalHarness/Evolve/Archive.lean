import PhysicalHarness.Board.Series
import PhysicalHarness.Lib.Deposit
import PhysicalHarness.Lib.Schedule

namespace PhysicalHarness
namespace Evolve
namespace Archive

open Python Fallible
open PhysicalHarness.Board.Series

/-!
# The archive of a campaign

A campaign keeps its last rounds in full.  An older one is written to a file of its own, once, and a
short row stands for it.  The series of the board is the same before and after exactly where the board
asks of a row for nothing that the short row has not kept.
-/

/-- `_INDEX_KEYS`. -/
def indexKeys : List String :=
  ["round", "before", "after", "best", "parent", "outcome", "accepted", "accepted_reason", "published",
    "before_score", "after_score", "usage", "proposer", "needs", "confirm", "suite_sha", "proposal", "ts",
    "workspace", "llm", "evaluation", "diagnosis"]

/-- `_SEED_KEYS`. -/
def seedKeys : List String := ["seed", "success", "first_death", "failure_mode"]

def indexDetail : List String := ["summary", "reason", "error", "files", "tunables"]

/-- `v[:300]` of a text. -/
def clipped : Json → Json
  | .str text => .str (String.ofList (text.toList.take 300))
  | other => other

def shortDetail (fields : List (String × Json)) : List (String × Json) :=
  (fields.filter (fun field => decide (field.1 ∈ indexDetail))).map (fun field => (field.1, clipped field.2))

def shortTried (value : Json) : Except PyError Json := do
  let value ← mapping (orElse value (.obj []))
  let detail ← mapping (orElse (value.getD "detail" .null) (.obj []))
  return .obj [("kind", value.getD "kind" .null), ("node", value.getD "node" .null),
    ("detail", .obj (shortDetail detail.fields))]

def seedRow (row : Json) : Except PyError Json :=
  (mapping row).map (fun row => .obj (seedKeys.map (fun key => (key, row.getD key .null))))

def seedRows (rows : Json) : Except PyError (List Json) := do
  let rows ← listed rows
  rows.mapM seedRow

section

variable (sumFloats : List Double → Double)

def shortRow (row tried : Json) (before after : Option PyFloat × List (String × PyFloat))
    (perSeed afterSeeds : List Json) : Json :=
  .obj (pick indexKeys row ++ [("sharded", .bool true), ("tried", tried),
    ("node_rate", .obj [("before", rateJson before.1), ("after", rateJson after.1)]),
    ("by_task", byTask before.2 after.2), ("per_seed", .arr perSeed), ("after_seeds", .arr afterSeeds)])

/-- `index_row`. -/
def indexRow (row : Json) : Except PyError Json := do
  let before ← rates sumFloats (row.getD "per_seed" .null)
  let after ← rates sumFloats (row.getD "after_seeds" .null)
  let tried ← shortTried (row.getD "tried" .null)
  let perSeed ← seedRows (row.getD "per_seed" .null)
  let afterSeeds ← seedRows (row.getD "after_seeds" .null)
  return shortRow row tried before after perSeed afterSeeds

/-- `ROUNDS_KEPT`. -/
def roundsKept : Nat := 20

abbrev Shards := List (Int × Json)

/-- `int(r["round"])`; the number of a round is an int. -/
def numberOf (row : Json) : Except PyError Int :=
  match row.get? "round" with
  | some (.int number) => .ok number
  | some _ => .error .typeError
  | none => .error .keyError

/-- `_archive`; a file that is there is not written again. -/
def archive (shards : Shards) (row : Json) : Except PyError (Json × Shards) := do
  let number ← numberOf row
  let short ← indexRow sumFloats row
  return (short, Deposit.deposit shards number row)

def settle (shards : Shards) (row : Json) : Except PyError (Json × Shards) :=
  if sharded row then .ok (row, shards) else archive sumFloats shards row

def archiveAll : Shards → List Json → Except PyError (List Json × Shards)
  | shards, [] => .ok ([], shards)
  | shards, row :: rest => do
      let done ← settle sumFloats shards row
      let more ← archiveAll done.2 rest
      return (done.1 :: more.1, more.2)

/-- `save`: the rounds of the document, which are also those of its file, and the files of the rounds. -/
def save (shards : Shards) (rows : List Json) : Except PyError (List Json × Shards) :=
  (archiveAll sumFloats shards (rows.take (rows.length - roundsKept))).map (fun done =>
    (done.1 ++ rows.drop (rows.length - roundsKept), done.2))

end

/-- A round as the loop appends it. -/
structure Round where
  json : Json
  number : Int
  object : json.isMapping = true
  numbered : json.get? "round" = some (.int number)
  fresh : sharded json = false
  trails : IsTrails (json.getD "per_seed" .null)
  trailsAfter : IsTrails (json.getD "after_seeds" .null)

/-- The rounds of the document, those of its file, and the files of the archived rounds; with the
rounds of the document and of the file as they were appended. -/
structure Campaign where
  rows : List Json
  file : List Json
  shards : Shards
  made : List Round
  saved : List Round

inductive Step where
  | append (round : Round)
  | save
  /-- A new process reads the file. -/
  | load

/-- A document of which nothing has been archived. -/
def start (rounds : List Round) : Campaign :=
  ⟨rounds.map Round.json, rounds.map Round.json, [], rounds, rounds⟩

section

variable (sumFloats : List Double → Double)

/-- A step of a campaign; there is none where `save` raises. -/
def step : Step → Campaign → Option Campaign
  | .append round, campaign =>
      some { campaign with rows := campaign.rows ++ [round.json], made := campaign.made ++ [round] }
  | .save, campaign =>
      (save sumFloats campaign.shards campaign.rows).toOption.map (fun done =>
        { campaign with rows := done.1, file := done.1, shards := done.2, saved := campaign.made })
  | .load, campaign => some { campaign with rows := campaign.file, made := campaign.saved }

/-- The board shows the rounds as if they all stood in full. -/
def Invisible (campaign : Campaign) : Prop :=
  series sumFloats campaign.file = series sumFloats (campaign.saved.map Round.json) ∧
    ∀ number, number ≠ 0 → rsiRun sumFloats campaign.file campaign.shards number =
      .ok ((campaign.saved.find? (fun round => decide (round.number = number))).map Round.json).toList

end

def KeepsTried (value : Json) : Prop :=
  ∃ fields detail, value = .obj fields ∧ value.getD "detail" .null = .obj detail ∧
    ∀ key ∈ triedDetail, ∀ field, Assoc.get? detail key = some field →
      key ∈ indexDetail ∧ ∀ text, field = .str text → text.length ≤ 300

/-- All that the board reads of a row is kept. -/
structure Keeps (row : Json) : Prop where
  scalars : ∀ key ∈ seriesOptional, ∀ field, row.get? key = some field → key ∈ indexKeys
  tried : KeepsTried (row.getD "tried" .null)

theorem get?_shortDetail (fields : List (String × Json)) (key : String) :
    Assoc.get? (shortDetail fields) key =
      if key ∈ indexDetail then (Assoc.get? fields key).map clipped else none := by
  induction fields with
  | nil =>
      split
      · rfl
      · rfl
  | cons field rest ih =>
      rw [shortDetail, List.filter_cons]
      by_cases kept : field.1 ∈ indexDetail
      · rw [decide_eq_true kept, if_pos rfl, List.map_cons, Assoc.get?_cons, Assoc.get?_cons]
        by_cases same : field.1 = key
        · rw [if_pos same, if_pos same, if_pos (same ▸ kept)]
          rfl
        · rw [if_neg same, if_neg same]
          exact ih
      · rw [decide_eq_false kept, if_neg Bool.false_ne_true, Assoc.get?_cons]
        by_cases same : field.1 = key
        · rw [same] at kept
          rw [if_neg kept] at ih ⊢
          exact ih
        · rw [if_neg same]
          exact ih

theorem clipped_eq_self_iff (value : Json) :
    clipped value = value ↔ ∀ text, value = .str text → text.length ≤ 300 := by
  cases value with
  | str text =>
      have whole : clipped (.str text) = .str text ↔ text.toList.length ≤ 300 := by
        rw [clipped, Json.str.injEq, ← String.toList_inj, String.toList_ofList, List.take_eq_self_iff]
      rw [whole, String.length_toList]
      constructor
      · intro short other same
        cases same
        exact short
      · intro short
        exact short text rfl
  | _ =>
      refine iff_of_true rfl (fun text never => ?_)
      cases never

theorem pick_shortDetail_iff (detail : List (String × Json)) :
    pick triedDetail (.obj (shortDetail detail)) = pick triedDetail (.obj detail) ↔
      ∀ key ∈ triedDetail, ∀ field, Assoc.get? detail key = some field →
        key ∈ indexDetail ∧ ∀ text, field = .str text → text.length ≤ 300 := by
  rw [pick, pick, part_eq_iff]
  apply forall₂_congr
  intro key _
  change Assoc.get? (shortDetail detail) key = Assoc.get? detail key ↔ _
  rw [get?_shortDetail]
  cases found : Assoc.get? detail key with
  | none =>
      refine iff_of_true ?_ (fun field never => ?_)
      · split
        · rfl
        · rfl
      · cases never
  | some field =>
      by_cases kept : key ∈ indexDetail
      · rw [if_pos kept, Option.map_some, Option.some.injEq, clipped_eq_self_iff]
        constructor
        · intro short other same
          cases same
          exact ⟨kept, short⟩
        · intro each
          exact (each field rfl).2
      · rw [if_neg kept]
        refine iff_of_false (fun never => ?_) (fun each => kept (each field rfl).1)
        cases never

theorem shortTried_eq_ok {value short : Json} (shortened : shortTried value = .ok short) :
    short = .obj [("kind", (orElse value (.obj [])).getD "kind" .null),
      ("node", (orElse value (.obj [])).getD "node" .null),
      ("detail", .obj (shortDetail
        (orElse ((orElse value (.obj [])).getD "detail" .null) (.obj [])).fields))] := by
  rw [shortTried] at shortened
  rcases of_bind shortened with ⟨whole, isWhole, rest⟩
  rcases of_bind rest with ⟨detail, isDetail, made⟩
  rcases mapping_eq_ok isWhole with ⟨rfl, _⟩
  rcases mapping_eq_ok isDetail with ⟨rfl, _⟩
  cases made
  rfl

theorem tried_shortTried_iff {value short : Json} (shortened : shortTried value = .ok short) :
    tried short = tried value ↔ KeepsTried value := by
  rw [shortTried_eq_ok shortened]
  have shown (kind node : Json) (detail : List (String × Json)) :
      tried (.obj [("kind", kind), ("node", node), ("detail", .obj detail)]) =
        .obj [("kind", kind), ("node", node), ("detail", .obj (pick triedDetail (.obj detail)))] := rfl
  rw [shown]
  cases value with
  | obj fields =>
      have whole : tried (.obj fields) = .obj [("kind", (Json.obj fields).getD "kind" .null),
        ("node", (Json.obj fields).getD "node" .null),
        ("detail", detailOf ((Json.obj fields).getD "detail" .null))] := rfl
      rw [orElse_obj, whole]
      cases own : (Json.obj fields).getD "detail" .null with
      | obj detail =>
          rw [orElse_obj]
          have inner : detailOf (.obj detail) = .obj (pick triedDetail (.obj detail)) := rfl
          rw [inner, Json.fields]
          constructor
          · intro same
            have parts := Json.obj.inj same
            rw [List.cons.injEq, List.cons.injEq, List.cons.injEq, Prod.mk.injEq, Prod.mk.injEq,
              Prod.mk.injEq, Json.obj.injEq] at parts
            exact ⟨fields, detail, rfl, own, (pick_shortDetail_iff detail).mp parts.2.2.1.2⟩
          · rintro ⟨_, other, _, here, kept⟩
            rw [own] at here
            cases here
            rw [(pick_shortDetail_iff detail).mpr kept]
      | _ =>
          refine iff_of_false (fun same => ?_) ?_
          · have parts := Json.obj.inj same
            rw [List.cons.injEq, List.cons.injEq, List.cons.injEq, Prod.mk.injEq, Prod.mk.injEq,
              Prod.mk.injEq] at parts
            cases parts.2.2.1.2
          · rintro ⟨_, other, _, here, _⟩
            rw [own] at here
            cases here
  | _ =>
      refine iff_of_false (fun same => ?_) ?_
      · cases same
      · rintro ⟨_, _, never, _⟩
        cases never

theorem shortTried_of_keeps {value : Json} (keeps : KeepsTried value) :
    ∃ short, shortTried value = .ok short := by
  rcases keeps with ⟨fields, detail, rfl, own, _⟩
  have object (fields : List (String × Json)) : mapping (.obj fields) = .ok (.obj fields) := rfl
  rw [shortTried, orElse_obj, object, bind_ok, own, orElse_obj, object]
  exact ⟨_, rfl⟩

section

variable {row tried_ : Json} {before after : Option PyFloat × List (String × PyFloat)}
  {perSeed afterSeeds : List Json}

theorem get?_shortRow_of_index {key : String} (kept : key ∈ indexKeys) :
    (shortRow row tried_ before after perSeed afterSeeds).get? key = row.get? key := by
  have own : Assoc.get? (pick indexKeys row) key = row.get? key := get?_part kept _
  change Assoc.get? (pick indexKeys row ++ _) key = _
  cases found : row.get? key with
  | some field =>
      rw [found] at own
      exact Deposit.get?_append_of_get? own _
  | none =>
      rw [found] at own
      rw [Deposit.get?_append_of_not_mem ((Assoc.get?_eq_none_iff _ _).mp own)]
      apply (Assoc.get?_eq_none_iff _ _).mpr
      have others : ∀ key ∈ indexKeys,
          key ∉ ["sharded", "tried", "node_rate", "by_task", "per_seed", "after_seeds"] := by decide
      exact others key kept

theorem get?_shortRow_of_not_index {key : String} (other : key ∉ indexKeys) :
    (shortRow row tried_ before after perSeed afterSeeds).get? key =
      Assoc.get? [("sharded", .bool true), ("tried", tried_),
        ("node_rate", .obj [("before", rateJson before.1), ("after", rateJson after.1)]),
        ("by_task", byTask before.2 after.2), ("per_seed", .arr perSeed),
        ("after_seeds", .arr afterSeeds)] key :=
  Deposit.get?_append_of_not_mem (fun listed => other (mem_keys_part listed).1) _

theorem sharded_shortRow : sharded (shortRow row tried_ before after perSeed afterSeeds) = true := by
  have absent : "sharded" ∉ indexKeys := by decide
  rw [sharded, Json.getD, get?_shortRow_of_not_index absent]
  rfl

theorem tried_of_shortRow :
    (shortRow row tried_ before after perSeed afterSeeds).getD "tried" .null = tried_ := by
  have absent : "tried" ∉ indexKeys := by decide
  rw [Json.getD, get?_shortRow_of_not_index absent]
  rfl

theorem broughtAlong_shortRow :
    broughtAlong (shortRow row tried_ before after perSeed afterSeeds) = .ok ⟨before.1, after.1,
      part (taskNames before.2 after.2) (Assoc.get? before.2),
      part (taskNames before.2 after.2) (Assoc.get? after.2)⟩ := by
  have rate : "node_rate" ∉ indexKeys := by decide
  have tasks : "by_task" ∉ indexKeys := by decide
  apply broughtAlong_eq
  · rw [Json.getD, get?_shortRow_of_not_index rate]
    rfl
  · rw [Json.getD, get?_shortRow_of_not_index tasks]
    rfl

theorem seriesRow_shortRow_iff (shortened : shortTried (row.getD "tried" .null) = .ok tried_)
    (best : Option PyFloat) :
    seriesRow (shortRow row tried_ before after perSeed afterSeeds) ⟨before.1, after.1,
        part (taskNames before.2 after.2) (Assoc.get? before.2),
        part (taskNames before.2 after.2) (Assoc.get? after.2)⟩ best =
      seriesRow row ⟨before.1, after.1, before.2, after.2⟩ best ↔ Keeps row := by
  have scalars : seriesKeys.map (fun key =>
      (key, (shortRow row tried_ before after perSeed afterSeeds).getD key .null)) =
        seriesKeys.map (fun key => (key, row.getD key .null)) := by
    have within : ∀ key ∈ seriesKeys, key ∈ indexKeys := by decide
    apply List.map_congr_left
    intro key mem
    rw [Json.getD, get?_shortRow_of_index (within key mem)]
    rfl
  have optional : pick seriesOptional (shortRow row tried_ before after perSeed afterSeeds) =
      pick seriesOptional row ↔ ∀ key ∈ seriesOptional, ∀ field, row.get? key = some field →
        key ∈ indexKeys := by
    rw [pick, pick, part_eq_iff]
    apply forall₂_congr
    intro key mem
    by_cases kept : key ∈ indexKeys
    · exact iff_of_true (get?_shortRow_of_index kept) (fun _ _ => kept)
    · have others : ∀ key ∈ seriesOptional,
          key ∉ ["sharded", "tried", "node_rate", "by_task", "per_seed", "after_seeds"] := by decide
      have dropped : (shortRow row tried_ before after perSeed afterSeeds).get? key = none := by
        rw [get?_shortRow_of_not_index kept]
        exact (Assoc.get?_eq_none_iff _ _).mpr (others key mem)
      rw [dropped]
      constructor
      · intro absent field present
        cases absent.trans present
      · intro each
        cases found : row.get? key with
        | none => rfl
        | some field => exact absurd (each field found) kept
  rw [seriesRow, seriesRow, tried_of_shortRow, byTask_part, scalars, Json.obj.injEq, List.append_assoc,
    List.append_assoc, List.append_cancel_left_eq]
  constructor
  · intro same
    have parts := List.append_inj_left' same rfl
    have rest := List.append_inj_right' same rfl
    rw [List.cons.injEq, Prod.mk.injEq] at rest
    exact ⟨optional.mp parts, (tried_shortTried_iff shortened).mp rest.1.2⟩
  · intro keeps
    rw [optional.mpr keeps.scalars, (tried_shortTried_iff shortened).mpr keeps.tried]

end

/-! ## Archiving -/

/-- What a short row shows of its round. -/
structure Shows (sumFloats : List Double → Double) (round : Round) (row : Json) : Prop where
  object : row.isMapping = true
  short : sharded row = true
  number : row.get? "round" = round.json.get? "round"
  reads : ∃ full brought, readOff sumFloats round.json = .ok full ∧ broughtAlong row = .ok brought ∧
    brought.current = full.current ∧
      ∀ best, seriesRow row brought best = seriesRow round.json full best ↔ Keeps round.json

section

variable {sumFloats : List Double → Double}

theorem readOff_returns (round : Round) : ∃ reading_, readOff sumFloats round.json = .ok reading_ := by
  rcases rates_returns sumFloats round.trails with ⟨before, first⟩
  rcases rates_returns sumFloats round.trailsAfter with ⟨after, second⟩
  refine ⟨⟨before.1, after.1, before.2, after.2⟩, ?_⟩
  rw [readOff, first, bind_ok, second]
  rfl

theorem seedRows_returns {rows : Json} (trails : IsTrails rows) : ∃ made, seedRows rows = .ok made := by
  rcases trails with ⟨items, iterated, each⟩
  have made : Returns (items.mapM seedRow) := by
    apply returns_mapM_iff.mpr
    intro row mem
    rw [seedRow, mapping_of (each row mem).1]
    exact ⟨_, rfl⟩
  rcases made with ⟨results, ran⟩
  refine ⟨results, ?_⟩
  rw [seedRows, iterated]
  exact ran

theorem indexRow_returns (round : Round) (keeps : Keeps round.json) :
    ∃ short, indexRow sumFloats round.json = .ok short := by
  rcases rates_returns sumFloats round.trails with ⟨before, first⟩
  rcases rates_returns sumFloats round.trailsAfter with ⟨after, second⟩
  rcases shortTried_of_keeps keeps.tried with ⟨tried_, third⟩
  rcases seedRows_returns round.trails with ⟨perSeed, fourth⟩
  rcases seedRows_returns round.trailsAfter with ⟨afterSeeds, fifth⟩
  refine ⟨shortRow round.json tried_ before after perSeed afterSeeds, ?_⟩
  rw [indexRow, first, bind_ok, second, bind_ok, third, bind_ok, fourth,
    bind_ok, fifth]
  rfl

theorem shows_of_indexRow {round : Round} {short : Json} (made : indexRow sumFloats round.json = .ok short) :
    Shows sumFloats round short := by
  rw [indexRow] at made
  rcases of_bind made with ⟨before, first, rest⟩
  rcases of_bind rest with ⟨after, second, rest⟩
  rcases of_bind rest with ⟨tried_, third, rest⟩
  rcases of_bind rest with ⟨perSeed, _, rest⟩
  rcases of_bind rest with ⟨afterSeeds, _, done⟩
  cases done
  have named : "round" ∈ indexKeys := by decide
  have full : readOff sumFloats round.json = .ok ⟨before.1, after.1, before.2, after.2⟩ := by
    rw [readOff, first, bind_ok, second]
    rfl
  exact ⟨rfl, sharded_shortRow, get?_shortRow_of_index named, _, _, full, broughtAlong_shortRow, rfl,
    seriesRow_shortRow_iff third⟩

theorem seriesFrom_short_iff {rounds : List Round} {short : List Json}
    (shows : List.Forall₂ (Shows sumFloats) rounds short) (later : List Round) (best : Option PyFloat) :
    (∃ made, seriesFrom sumFloats best (short ++ later.map Round.json) = .ok made) ∧
      (seriesFrom sumFloats best (short ++ later.map Round.json) =
        seriesFrom sumFloats best (rounds.map Round.json ++ later.map Round.json) ↔
          ∀ round ∈ rounds, Keeps round.json) := by
  have full (round : Round) : ∃ reading_, reading sumFloats round.json = .ok reading_ := by
    rw [reading, if_neg (Bool.eq_false_iff.mp round.fresh)]
    exact readOff_returns round
  have whole (rounds : List Round) (best : Option PyFloat) :
      ∃ made, seriesFrom sumFloats best (rounds.map Round.json) = .ok made := by
    apply seriesFrom_returns
    intro row mem
    rcases List.mem_map.mp mem with ⟨round, _, rfl⟩
    exact ⟨round.object, full round⟩
  induction shows generalizing best with
  | nil =>
      refine ⟨whole later best, iff_of_true rfl ?_⟩
      exact List.forall_mem_nil _
  | @cons round row rounds rest here _ ih =>
      rcases here.reads with ⟨off, brought, readOff_, along, current, same⟩
      have first : reading sumFloats row = .ok brought := by
        rw [reading, if_pos here.short, along]
      have second : reading sumFloats round.json = .ok off := by
        rw [reading, if_neg (Bool.eq_false_iff.mp round.fresh), readOff_]
      rw [List.map_cons, List.cons_append, List.cons_append,
        seriesFrom_cons sumFloats here.object first, seriesFrom_cons sumFloats round.object second, current]
      rcases ih (running best off.current) with ⟨⟨made, ran⟩, inner⟩
      rcases whole (rounds ++ later) (running best off.current) with ⟨plain_, ran_⟩
      rw [List.map_append] at ran_
      rw [ran, ran_] at inner
      rw [ran, ran_]
      refine ⟨⟨_, rfl⟩, ?_⟩
      change Except.ok (_ :: made) = Except.ok (_ :: plain_) ↔ _
      rw [Except.ok.injEq, List.cons.injEq, same, List.forall_mem_cons, ← inner, Except.ok.injEq]

theorem archiveAll_cons {shards : Shards} {row : Json} {done : Json × Shards}
    (settled : settle sumFloats shards row = .ok done) (rest : List Json) :
    archiveAll sumFloats shards (row :: rest) =
      (archiveAll sumFloats done.2 rest).map (fun more => (done.1 :: more.1, more.2)) := by
  rw [archiveAll, settled, bind_ok]
  cases archiveAll sumFloats done.2 rest with
  | error _ => rfl
  | ok _ => rfl

theorem archiveAll_sharded {rows : List Json} (archived : ∀ row ∈ rows, sharded row = true)
    (shards : Shards) (more : List Json) :
    archiveAll sumFloats shards (rows ++ more) =
      (archiveAll sumFloats shards more).map (fun done => (rows ++ done.1, done.2)) := by
  induction rows with
  | nil =>
      rw [List.nil_append]
      cases archiveAll sumFloats shards more with
      | error _ => rfl
      | ok _ => rfl
  | cons row rest ih =>
      have kept : settle sumFloats shards row = .ok (row, shards) :=
        if_pos (archived row (.head _))
      rw [List.cons_append, archiveAll_cons kept, ih (fun other mem => archived other (List.mem_cons_of_mem _ mem))]
      cases archiveAll sumFloats shards more with
      | error _ => rfl
      | ok _ => rfl

theorem get?_deposit (shards : Shards) (number wanted : Int) (row : Json) :
    Assoc.get? (Deposit.deposit shards number row) wanted =
      (Assoc.get? shards wanted).or (if number = wanted then some row else none) := by
  cases found : Assoc.get? shards wanted with
  | some kept =>
      rw [Option.some_or]
      exact Deposit.get?_deposit_of_get? found
  | none =>
      rw [Option.none_or]
      by_cases same : number = wanted
      · rw [if_pos same, same]
        apply Deposit.get?_deposit_self
        intro other present
        cases found.symm.trans present
      · rw [if_neg same, Deposit.get?_deposit_of_ne same, found]

theorem settle_round (round : Round) (shards : Shards) :
    settle sumFloats shards round.json = (indexRow sumFloats round.json).map (fun short =>
      (short, Deposit.deposit shards round.number round.json)) := by
  have number : numberOf round.json = .ok round.number := by
    rw [numberOf, round.numbered]
  rw [settle, if_neg (Bool.eq_false_iff.mp round.fresh), archive, number, bind_ok]
  cases indexRow sumFloats round.json with
  | error _ => rfl
  | ok _ => rfl

theorem archiveAll_rounds {rounds : List Round} {shards next : Shards} {rows : List Json}
    (ran : archiveAll sumFloats shards (rounds.map Round.json) = .ok (rows, next)) :
    List.Forall₂ (fun round row => indexRow sumFloats round.json = .ok row) rounds rows ∧
      ∀ number, Assoc.get? next number = (Assoc.get? shards number).or
        ((rounds.find? (fun round => decide (round.number = number))).map Round.json) := by
  induction rounds generalizing shards rows with
  | nil =>
      cases ran
      exact ⟨List.Forall₂.nil, fun number => (Option.or_none).symm⟩
  | cons round rest ih =>
      rw [List.map_cons, archiveAll] at ran
      rcases of_bind ran with ⟨done, first, later⟩
      rw [settle_round] at first
      rcases map_eq_ok.mp first with ⟨short, made, rfl⟩
      rcases of_bind later with ⟨more, after, same⟩
      cases same
      rcases ih after with ⟨others, files⟩
      refine ⟨List.Forall₂.cons made others, fun number => ?_⟩
      rw [files, get?_deposit, Option.or_assoc, List.find?_cons]
      by_cases here : round.number = number
      · rw [if_pos here, decide_eq_true here, Option.some_or]
        rfl
      · rw [if_neg here, decide_eq_false here, Option.none_or]

theorem archiveAll_returns {rounds : List Round}
    (made : ∀ round ∈ rounds, ∃ short, indexRow sumFloats round.json = .ok short) (shards : Shards) :
    ∃ done, archiveAll sumFloats shards (rounds.map Round.json) = .ok done := by
  induction rounds generalizing shards with
  | nil => exact ⟨_, rfl⟩
  | cons round rest ih =>
      rcases made round (.head _) with ⟨short, here⟩
      rcases ih (fun other mem => made other (.tail _ mem))
        (Deposit.deposit shards round.number round.json) with ⟨done, later⟩
      refine ⟨(short :: done.1, done.2), ?_⟩
      have settled : settle sumFloats shards round.json =
          .ok (short, Deposit.deposit shards round.number round.json) := by
        rw [settle_round, here]
        rfl
      rw [List.map_cons, archiveAll_cons settled, later]
      rfl

theorem isRound_round (number : Int) (round : Round) :
    isRound number round.json = decide (round.number = number) := by
  rw [isRound, Json.getD, round.numbered]
  simp [Json.eq, Json.sameScalar, Json.toRat?]

theorem Shows.isRound {round : Round} {row : Json} (shows : Shows sumFloats round row) (number : Int) :
    isRound number row = decide (round.number = number) := by
  rw [← isRound_round, Board.Series.isRound, Board.Series.isRound, Json.getD, shows.number]
  rfl

theorem find?_short {rounds : List Round} {short : List Json}
    (shows : List.Forall₂ (Shows sumFloats) rounds short) (number : Int) :
    (rounds.find? (fun round => decide (round.number = number)) = none ∧
        short.find? (isRound number) = none) ∨
      ∃ round row, rounds.find? (fun round => decide (round.number = number)) = some round ∧
        short.find? (isRound number) = some row ∧ sharded row = true := by
  induction shows with
  | nil => exact Or.inl ⟨rfl, rfl⟩
  | @cons round row rounds rest here _ ih =>
      rw [List.find?_cons, List.find?_cons, here.isRound]
      by_cases same : round.number = number
      · rw [decide_eq_true same]
        exact Or.inr ⟨round, row, rfl, rfl, here.short⟩
      · rw [decide_eq_false same]
        exact ih

theorem find?_full (rounds : List Round) (number : Int) :
    (rounds.map Round.json).find? (isRound number) =
      (rounds.find? (fun round => decide (round.number = number))).map Round.json := by
  rw [List.find?_map]
  apply congrArg (Option.map Round.json)
  apply congrArg (fun keep => rounds.find? keep)
  funext round
  exact isRound_round number round

theorem truthy_round (round : Round) : round.json.truthy = true := by
  have numbered := round.numbered
  cases json : round.json with
  | obj fields =>
      rw [json] at numbered
      cases fields with
      | nil => cases numbered
      | cons _ _ => rfl
  | _ =>
      rw [json] at numbered
      cases numbered

theorem roundRow_eq {rounds later : List Round} {short : List Json} {shards : Shards}
    (shows : List.Forall₂ (Shows sumFloats) rounds short)
    (files : ∀ number, Assoc.get? shards number =
      (rounds.find? (fun round => decide (round.number = number))).map Round.json) (number : Int) :
    roundRow (short ++ later.map Round.json) shards number =
      ((rounds ++ later).find? (fun round => decide (round.number = number))).map Round.json := by
  rw [roundRow, List.find?_append, List.find?_append, find?_full]
  rcases find?_short shows number with ⟨absent, none_⟩ | ⟨round, row, found, found_, isShort⟩
  · rw [absent, none_, Option.none_or, Option.none_or]
    cases later.find? (fun round => decide (round.number = number)) with
    | none => rfl
    | some round =>
        rw [Option.map_some, Option.map_some, if_neg (Bool.eq_false_iff.mp round.fresh)]
  · rw [found, found_, Option.some_or, Option.some_or, Option.map_some, Option.map_some, if_pos isShort,
      files, found, Option.map_some]
    exact congrArg some (if_pos round.object)

/-! ## What every step keeps -/

/-- The first rounds of the file are archived, and the others stand in full. -/
structure Stands (sumFloats : List Double → Double) (campaign : Campaign) (count : Nat) (short : List Json) :
    Prop where
  archived : List.Forall₂ (fun round row => indexRow sumFloats round.json = .ok row)
    (campaign.saved.take count) short
  within : count ≤ campaign.saved.length - roundsKept
  kept : campaign.saved <+: campaign.made
  memory : campaign.rows = short ++ (campaign.made.drop count).map Round.json
  disk : campaign.file = short ++ (campaign.saved.drop count).map Round.json
  files : ∀ number, Assoc.get? campaign.shards number =
    ((campaign.saved.take count).find? (fun round => decide (round.number = number))).map Round.json

def Standing (sumFloats : List Double → Double) (campaign : Campaign) : Prop :=
  ∃ count short, Stands sumFloats campaign count short

theorem stands_start (rounds : List Round) : Stands sumFloats (start rounds) 0 [] where
  archived := List.Forall₂.nil
  within := Nat.zero_le _
  kept := List.prefix_refl _
  memory := rfl
  disk := rfl
  files := fun _ => rfl

theorem Stands.append {campaign : Campaign} {count : Nat} {short : List Json}
    (stands : Stands sumFloats campaign count short) (round : Round) :
    Stands sumFloats { campaign with
      rows := campaign.rows ++ [round.json]
      made := campaign.made ++ [round] } count short := by
  have long := stands.kept.length_le
  have within := stands.within
  refine ⟨stands.archived, stands.within, stands.kept.trans (List.prefix_append _ _), ?_, stands.disk,
    stands.files⟩
  dsimp only
  rw [stands.memory, List.drop_append_of_le_length (by omega), List.map_append, List.append_assoc]
  rfl

theorem Stands.load {campaign : Campaign} {count : Nat} {short : List Json}
    (stands : Stands sumFloats campaign count short) :
    Stands sumFloats { campaign with rows := campaign.file, made := campaign.saved } count short :=
  ⟨stands.archived, stands.within, List.prefix_refl _, stands.disk, stands.disk, stands.files⟩

theorem Stands.rows_split {campaign : Campaign} {count : Nat} {short : List Json}
    (stands : Stands sumFloats campaign count short) :
    campaign.made.take (campaign.made.length - roundsKept) = campaign.saved.take count ++
        (campaign.made.drop count).take (campaign.made.length - roundsKept - count) ∧
      campaign.rows.take (campaign.rows.length - roundsKept) = short ++
        ((campaign.made.drop count).take (campaign.made.length - roundsKept - count)).map Round.json ∧
      campaign.rows.drop (campaign.rows.length - roundsKept) =
        (campaign.made.drop (campaign.made.length - roundsKept)).map Round.json := by
  have long := stands.kept.length_le
  have within := stands.within
  have size : short.length = count := by
    rw [← stands.archived.length_eq, List.length_take]
    omega
  have total : campaign.rows.length = campaign.made.length := by
    rw [stands.memory, List.length_append, List.length_map, List.length_drop, size]
    omega
  have first : campaign.made.take count = campaign.saved.take count := by
    rcases stands.kept with ⟨more, whole⟩
    rw [← whole, List.take_append_of_le_length (by omega)]
  refine ⟨?_, ?_, ?_⟩
  · rw [← first, ← List.take_add]
    congr 1
    omega
  · rw [total, stands.memory, List.take_append, size, List.take_of_length_le (by omega), List.map_take]
  · rw [total, stands.memory, List.drop_append, size, List.drop_of_length_le (by omega), List.nil_append,
      ← List.map_drop, List.drop_drop]
    congr 2
    omega

theorem Stands.save {campaign : Campaign} {count : Nat} {short : List Json}
    (stands : Stands sumFloats campaign count short) {done : List Json × Shards}
    (ran : Archive.save sumFloats campaign.shards campaign.rows = .ok done) :
    ∃ fresh, Stands sumFloats { campaign with
      rows := done.1
      file := done.1
      shards := done.2
      saved := campaign.made } (campaign.made.length - roundsKept) fresh := by
  rcases stands.rows_split with ⟨archived, first, rest⟩
  rw [Archive.save, first, rest] at ran
  have shorts : ∀ row ∈ short, sharded row = true := by
    intro row mem
    rcases exists_left_of_forall₂ stands.archived mem with ⟨round, _, made⟩
    exact (shows_of_indexRow made).short
  rw [archiveAll_sharded shorts] at ran
  rcases map_eq_ok.mp ran with ⟨whole, archivedAll, rfl⟩
  rcases map_eq_ok.mp archivedAll with ⟨more, later, rfl⟩
  rcases archiveAll_rounds later with ⟨others, files⟩
  refine ⟨short ++ more.1, ?_, le_refl _, List.prefix_refl _, rfl, rfl, fun number => ?_⟩
  · dsimp only
    rw [archived]
    exact List.rel_append stands.archived others
  · dsimp only
    rw [archived, files, stands.files, List.find?_append, Option.map_or]

theorem Standing.step {event : Step} {state next : Campaign} (standing : Standing sumFloats state)
    (stepped : Archive.step sumFloats event state = some next) : Standing sumFloats next := by
  rcases standing with ⟨count, short, stands⟩
  cases event with
  | append round =>
      cases stepped
      exact ⟨count, short, stands.append round⟩
  | save =>
      rcases Option.map_eq_some_iff.mp stepped with ⟨done, ran, rfl⟩
      exact ⟨_, stands.save (toOption_eq_some_iff.mp ran)⟩
  | load =>
      cases stepped
      exact ⟨count, short, stands.load⟩

theorem standing_of_run {rounds : List Round} {steps : List Step} {campaign : Campaign}
    (ran : Schedule.run (step sumFloats) (start rounds) steps = some campaign) :
    Standing sumFloats campaign := by
  have first : Standing sumFloats (start rounds) := ⟨0, [], stands_start rounds⟩
  exact Schedule.invariant (fun _ _ _ before stepped => before.step stepped) first ran

/-- The rounds are shown as if they all stood in full exactly where those that are archived are kept. -/
theorem Stands.invisible_iff {campaign : Campaign} {count : Nat} {short : List Json}
    (stands : Stands sumFloats campaign count short) :
    Invisible sumFloats campaign ↔ ∀ round ∈ campaign.saved.take count, Keeps round.json := by
  have shows : List.Forall₂ (Shows sumFloats) (campaign.saved.take count) short :=
    stands.archived.imp (fun _ _ made => shows_of_indexRow made)
  have whole : campaign.saved.map Round.json = (campaign.saved.take count).map Round.json ++
      (campaign.saved.drop count).map Round.json := by
    rw [← List.map_append, List.take_append_drop]
  rcases seriesFrom_short_iff shows (campaign.saved.drop count) none with ⟨⟨made, ran⟩, same⟩
  rw [← stands.disk] at ran same
  rw [← whole] at same
  rw [Invisible, series, series, same]
  apply and_iff_left
  intro number nonzero
  have found := @roundRow_eq _ _ (campaign.saved.drop count) _ _ shows stands.files number
  rw [← stands.disk, List.take_append_drop] at found
  rw [rsiRun, series, ran]
  change Except.ok _ = Except.ok _
  dsimp only
  rw [if_neg nonzero, found]
  cases campaign.saved.find? (fun round => decide (round.number = number)) with
  | none => rfl
  | some round =>
      change Except.ok ([round.json].filter Json.truthy) = _
      rw [List.filter_cons_of_pos (truthy_round round)]
      rfl

/-- In every state of every campaign a save returns and leaves the board as if all rounds stood in
full exactly where those that it has to have archived are kept. -/
theorem archive_invisible_iff {rounds : List Round} {steps : List Step} {campaign : Campaign}
    (ran : Schedule.run (step sumFloats) (start rounds) steps = some campaign) :
    (∃ next, step sumFloats .save campaign = some next ∧ Invisible sumFloats next) ↔
      ∀ round ∈ campaign.made.take (campaign.made.length - roundsKept), Keeps round.json := by
  rcases standing_of_run ran with ⟨count, short, stands⟩
  constructor
  · rintro ⟨next, stepped, invisible⟩
    rcases Option.map_eq_some_iff.mp stepped with ⟨done, saved, rfl⟩
    rcases stands.save (Fallible.toOption_eq_some_iff.mp saved) with ⟨fresh, after⟩
    exact after.invisible_iff.mp invisible
  · intro keeps
    rcases stands.rows_split with ⟨archived, first, _⟩
    have shorts : ∀ row ∈ short, sharded row = true := by
      intro row member
      rcases Fallible.exists_left_of_forall₂ stands.archived member with ⟨round, _, made⟩
      exact (shows_of_indexRow made).short
    have made : ∀ round ∈ (campaign.made.drop count).take (campaign.made.length - roundsKept - count),
        ∃ row, indexRow sumFloats round.json = .ok row := by
      intro round member
      apply indexRow_returns
      apply keeps
      rw [archived]
      exact List.mem_append_right _ member
    rcases archiveAll_returns made campaign.shards with ⟨more, ran_⟩
    have returns : ∃ done, Archive.save sumFloats campaign.shards campaign.rows = .ok done := by
      rw [Archive.save, first, archiveAll_sharded shorts, ran_]
      exact ⟨_, rfl⟩
    rcases returns with ⟨done, saved⟩
    rcases stands.save saved with ⟨fresh, after⟩
    refine ⟨{ campaign with
      rows := done.1
      file := done.1
      shards := done.2
      saved := campaign.made }, ?_, after.invisible_iff.mpr keeps⟩
    rw [step, saved]
    rfl

end

/-- The sum from left to right. -/
def plainSum (floats : List Double) : Double := floats.foldl Double.add (Double.nearest 0)

def bareRound (tried : Json) (number : Nat) : Round where
  json := .obj [("round", .int number), ("tried", tried)]
  number := number
  object := rfl
  numbered := rfl
  fresh := rfl
  trails := ⟨[], rfl, List.forall_mem_nil _⟩
  trailsAfter := ⟨[], rfl, List.forall_mem_nil _⟩

/-- One round more than are kept. -/
def campaignOf (tried : Json) : Campaign := start ((List.range 21).map (bareRound tried))

def reasoned : Json := .obj [("kind", .str "edit"), ("detail", .obj [("reason", .str "no gain")])]

theorem keeps_reasoned (number : Nat) : Keeps (bareRound reasoned number).json where
  scalars := by
    intro key mem field present
    have absent : ∀ key ∈ seriesOptional, key ∉ ["round", "tried"] := by decide
    exact absurd (Assoc.mem_keys_of_get? present) (absent key mem)
  tried := by
    refine ⟨_, [("reason", .str "no gain")], rfl, rfl, ?_⟩
    intro key _ field present
    have named : key = "reason" := List.mem_singleton.mp (Assoc.mem_keys_of_get? present)
    rw [named] at present ⊢
    refine ⟨by decide, fun text same => ?_⟩
    cases same
    cases present
    decide

theorem reasoned_invisible :
    ∃ next, step plainSum .save (campaignOf reasoned) = some next ∧ Invisible plainSum next := by
  have ran : Schedule.run (step plainSum) (campaignOf reasoned) [] = some (campaignOf reasoned) := rfl
  apply (archive_invisible_iff ran).mpr
  intro round member
  rcases List.mem_map.mp (List.mem_of_mem_take member) with ⟨number, _, rfl⟩
  exact keeps_reasoned number

def firstUntried (rows : Except PyError (List Json)) : Option Bool :=
  rows.toOption.bind (fun rows => rows.head?.map (fun row => (row.getD "tried" .null).isNull))

/-- A round with a bare text as its detail stops the save, and one that tried nothing changes. -/
theorem older_rounds_visible :
    step plainSum .save (campaignOf (.obj [("kind", .str "edit"), ("detail", .str "no gain")])) = none ∧
      ∃ next, step plainSum .save (campaignOf .null) = some next ∧ ¬ Invisible plainSum next := by
  refine ⟨rfl, ?_⟩
  have changed : (step plainSum .save (campaignOf .null)).any (fun next =>
      decide (firstUntried (series plainSum next.file) ≠
        firstUntried (series plainSum (next.saved.map Round.json)))) = true := by decide +kernel
  rcases (Option.any_eq_true _ _).mp changed with ⟨next, stepped, differs⟩
  refine ⟨next, stepped, fun invisible => ?_⟩
  exact of_decide_eq_true differs (congrArg firstUntried invisible.1)

end Archive
end Evolve
end PhysicalHarness
