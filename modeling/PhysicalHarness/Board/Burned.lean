import Mathlib.Data.List.Dedup
import PhysicalHarness.Board.Evidence
import PhysicalHarness.Rsi.Store

namespace PhysicalHarness
namespace Board

open Python Harness JsonText Fallible
open Rsi (CampaignStore)

/-!
# The seeds that were burned

The ledger of burned seeds is read off the stores: every preregistration in the index of one
burns its seeds, as maximal runs.  A line of an index that is not JSON is skipped, and so is
a preregistration whose file is missing or is not JSON.
-/

/-! ## Runs of seeds -/

def extendRuns (runs : List (Int × Int)) (seed : Int) : List (Int × Int) :=
  match runs.getLast? with
  | none => [(seed, seed)]
  | some last =>
      if seed = last.2 + 1 then runs.dropLast ++ [(last.1, seed)] else runs ++ [(seed, seed)]

/-- `_runs_of`. -/
def runsOf (seeds : List Int) : List (Int × Int) :=
  (seeds.dedup.insertionSort (· ≤ ·)).foldl extendRuns []

def Covers (runs : List (Int × Int)) (seed : Int) : Prop := ∃ run ∈ runs, run.1 ≤ seed ∧ seed ≤ run.2

def Solid (runs : List (Int × Int)) : Prop := ∀ run ∈ runs, run.1 ≤ run.2

theorem covers_extendRuns {runs : List (Int × Int)} (solid : Solid runs) (seed : Int) :
    Solid (extendRuns runs seed) ∧ Covers (extendRuns runs seed) seed ∧
      ∀ other, Covers runs other → Covers (extendRuns runs seed) other := by
  rcases List.eq_nil_or_concat runs with rfl | ⟨before, last, rfl⟩
  · refine ⟨?_, ⟨(seed, seed), .head _, le_refl _, le_refl _⟩, ?_⟩
    · intro run mem
      rw [List.mem_singleton.mp mem]
    · rintro other ⟨run, mem, _⟩
      cases mem
  · rw [List.concat_eq_append] at solid ⊢
    rw [extendRuns, List.getLast?_concat]
    simp only []
    have whole : last.1 ≤ last.2 := solid last (List.mem_append_right _ (.head _))
    split
    · rename_i next
      rw [List.dropLast_concat]
      have here : (last.1, seed) ∈ before ++ [(last.1, seed)] :=
        List.mem_append_right _ (.head _)
      refine ⟨?_, ⟨_, here, ?_, le_refl _⟩, ?_⟩
      · intro run mem
        rcases List.mem_append.mp mem with earlier | added
        · exact solid run (List.mem_append_left _ earlier)
        · rw [List.mem_singleton.mp added]
          change last.1 ≤ seed
          omega
      · change last.1 ≤ seed
        omega
      · rintro other ⟨run, mem, low, high⟩
        rcases List.mem_append.mp mem with earlier | added
        · exact ⟨run, List.mem_append_left _ earlier, low, high⟩
        · rw [List.mem_singleton.mp added] at low high
          refine ⟨_, here, low, ?_⟩
          change other ≤ seed
          omega
    · refine ⟨?_, ⟨(seed, seed), List.mem_append_right _ (.head _), le_refl _, le_refl _⟩, ?_⟩
      · intro run mem
        rcases List.mem_append.mp mem with earlier | added
        · exact solid run earlier
        · rw [List.mem_singleton.mp added]
      · rintro other ⟨run, mem, bounds⟩
        exact ⟨run, List.mem_append_left _ mem, bounds⟩

theorem covers_foldl {seeds : List Int} {runs : List (Int × Int)} (solid : Solid runs) {seed : Int}
    (listed : seed ∈ seeds ∨ Covers runs seed) : Covers (seeds.foldl extendRuns runs) seed := by
  induction seeds generalizing runs with
  | nil => exact listed.resolve_left List.not_mem_nil
  | cons first rest ih =>
      rcases covers_extendRuns solid first with ⟨solid_, here, before⟩
      apply ih solid_
      rcases listed with mem | covered
      · rcases List.mem_cons.mp mem with rfl | later
        · exact Or.inr here
        · exact Or.inl later
      · exact Or.inr (before seed covered)

theorem covers_runsOf {seeds : List Int} {seed : Int} (listed : seed ∈ seeds) :
    Covers (runsOf seeds) seed := by
  apply covers_foldl (List.forall_mem_nil _)
  exact Or.inl ((List.mem_insertionSort (· ≤ ·)).mpr (List.mem_dedup.mpr listed))

/-- The characters that `str.splitlines` splits at. -/
def isLineEnd (char : Char) : Bool :=
  char ∈ ['\n', '\r', '\x0b', '\x0c', '\x1c', '\x1d', '\x1e', '\u0085', '\u2028', '\u2029']

def textLines : List Char → List (List Char)
  | [] => [[]]
  | char :: rest =>
      if isLineEnd char then [] :: textLines rest
      else
        match textLines rest with
        | [] => [[char]]
        | line :: lines => (char :: line) :: lines

section

variable [FloatText]

def rowOfLine (line : List Char) : Option Json :=
  if strip line = [] then none
  else
    (loads (strip line)).bind (fun row =>
      if row.isMapping && (row.get? "kind").isSome && (row.get? "sha").isSome then some row else none)

/-- `_index_rows`. -/
def indexRows (store : CampaignStore) : List Json :=
  match store.index with
  | none => []
  | some index => (textLines index).filterMap rowOfLine

end

/-- An inclusive block of seeds, with its role and the preregistration it comes from. -/
structure Block where
  lo : Int
  hi : Int
  role : String
  sha : String
  deriving DecidableEq

def Block.le (left right : Block) : Bool :=
  left.lo < right.lo || (left.lo = right.lo && (left.hi < right.hi || (left.hi = right.hi &&
    (left.role < right.role || (left.role = right.role && !(right.sha < left.sha))))))

/-- The keys of a preregistration that hold seeds, and the roles these are burned in. -/
def seedRoles : List (String × String) :=
  [("dev", "gate"), ("selection", "gate"), ("heldout", "heldout")]

section

variable [Host] [FloatText]

/-- `payload.get(key) or ()`, as integers. -/
def seedsOf (payload : Json) (key : String) : Except PyError (List Int) :=
  (field payload key).bind (fun value => (listOf value).bind (fun items => items.mapM pyInt))

def blocksOfPayload (payload : Json) (digest : String) : Except PyError (List Block) :=
  (seedRoles.mapM (fun entry => (seedsOf payload entry.1).map (fun seeds =>
    (runsOf seeds).map (fun run => Block.mk run.1 run.2 entry.2 digest)))).map List.flatten

def blocksOfRow (store : CampaignStore) (row : Json) : Except PyError (List Block) :=
  if (row.get? "kind").bind Json.str? = some "preregistration" then
    match (row.get? "sha").bind Json.str? with
    | none => .ok []
    | some digest =>
        match (Assoc.get? store.artifacts digest).bind loads with
        | none => .ok []
        | some payload => blocksOfPayload payload digest
  else .ok []

/-- `burned_blocks`: the stores under a root, and the rows that the operator's status burns. -/
def burnedBlocks (root : String) (stores : List CampaignStore) (prose : List Block) :
    Except PyError (List Block) :=
  if stores = [] then
    .error (.valueError ("no campaign store under " ++ root ++
      ": the burned set cannot be derived, refusing to treat it as empty"))
  else
    (stores.mapM (fun store => ((indexRows store).mapM (blocksOfRow store)).map List.flatten)).map
      (fun blocks => ((blocks.flatten ++ prose).dedup).insertionSort (fun left right => left.le right))

/-- Seeds as the writers put them: lists of integers, or nothing. -/
def Seeded (payload : Json) : Prop :=
  payload.isMapping = true ∧ ∀ key ∈ seedRoles.map Prod.fst, ∀ value, payload.get? key = some value →
    value = .null ∨ ∃ seeds : List Int, value = .arr (seeds.map Json.int)

omit [Host] [FloatText] in
theorem Seeded.exists_fields {payload : Json} (seeded : Seeded payload) :
    ∃ fields, payload = .obj fields := by
  have mapping := seeded.1
  cases payload with
  | obj fields => exact ⟨fields, rfl⟩
  | _ => cases mapping

omit [FloatText] in
theorem mapM_pyInt (seeds : List Int) : (seeds.map Json.int).mapM pyInt = .ok seeds := by
  rw [mapM_eq_ok_iff, List.forall₂_map_left_iff]
  exact List.forall₂_same.mpr (fun _ _ => rfl)

omit [FloatText] in
theorem seedsOf_seeds {fields : List (String × Json)} {key : String} {seeds : List Int}
    (found : Assoc.get? fields key = some (.arr (seeds.map Json.int))) :
    seedsOf (.obj fields) key = .ok seeds := by
  rw [seedsOf, field, found]
  change (listOf (.arr (seeds.map Json.int))).bind _ = _
  rw [listOf]
  cases seeds with
  | nil => rfl
  | cons seed rest => exact mapM_pyInt (seed :: rest)

omit [FloatText] in
theorem returns_seedsOf {payload : Json} (seeded : Seeded payload) {key : String}
    (named : key ∈ seedRoles.map Prod.fst) : Returns (seedsOf payload key) := by
  rcases seeded.exists_fields with ⟨fields, rfl⟩
  cases found : Assoc.get? fields key with
  | none =>
      rw [seedsOf, field, found]
      exact ⟨[], rfl⟩
  | some value =>
      rcases seeded.2 key named value found with rfl | ⟨listed, rfl⟩
      · rw [seedsOf, field, found]
        exact ⟨[], rfl⟩
      · exact ⟨listed, seedsOf_seeds found⟩

def Burns (blocks : List Block) (role digest : String) (seed : Int) : Prop :=
  ∃ block ∈ blocks, block.role = role ∧ block.sha = digest ∧ block.lo ≤ seed ∧ seed ≤ block.hi

omit [FloatText] in
theorem returns_blocksOfPayload {payload : Json} (seeded : Seeded payload) (digest : String) :
    Returns (blocksOfPayload payload digest) := by
  rw [blocksOfPayload]
  apply returns_map.mpr
  apply returns_mapM_iff.mpr
  intro entry mem
  apply returns_map.mpr
  exact returns_seedsOf seeded (List.mem_map_of_mem mem)

omit [FloatText] in
theorem burns_blocksOfPayload {fields : List (String × Json)} {digest : String} {blocks : List Block}
    (read : blocksOfPayload (.obj fields) digest = .ok blocks) {entry : String × String}
    (named : entry ∈ seedRoles) {seeds : List Int}
    (found : Assoc.get? fields entry.1 = some (.arr (seeds.map Json.int))) {seed : Int}
    (listed : seed ∈ seeds) : Burns blocks entry.2 digest seed := by
  rcases map_eq_ok.mp read with ⟨each, mapped, rfl⟩
  rcases exists_result_of_mapM mapped named with ⟨own, mem, made⟩
  rcases map_eq_ok.mp made with ⟨read_, decoded, rfl⟩
  rw [seedsOf_seeds found] at decoded
  cases decoded
  rcases covers_runsOf listed with ⟨run, covers, low, high⟩
  exact ⟨⟨run.1, run.2, entry.2, digest⟩,
    List.mem_flatten_of_mem mem (List.mem_map.mpr ⟨run, covers, rfl⟩), rfl, rfl, low, high⟩

end

/-! ## Reading an index -/

theorem textLines_ne_nil (text : List Char) : textLines text ≠ [] := by
  cases text with
  | nil => exact List.cons_ne_nil _ _
  | cons char rest =>
      rw [textLines]
      split
      · exact List.cons_ne_nil _ _
      · split
        · exact List.cons_ne_nil _ _
        · exact List.cons_ne_nil _ _

theorem textLines_line {line : List Char} (printable : Printable line) (rest : List Char) :
    textLines (line ++ '\n' :: rest) = line :: textLines rest := by
  induction line with
  | nil =>
      exact if_pos rfl
  | cons char line ih =>
      have visible := printable char (.head _)
      have inside : ¬ isLineEnd char = true := by
        intro ends
        simp only [isLineEnd, List.mem_cons, List.not_mem_nil, or_false, decide_eq_true_eq] at ends
        rcases ends with rfl | rfl | rfl | rfl | rfl | rfl | rfl | rfl | rfl | rfl <;> cases visible
      rw [List.cons_append, textLines, if_neg inside,
        ih (fun other mem => printable other (.tail _ mem))]

theorem textLines_snoc (text : List Char) : textLines (text ++ ['\n']) = textLines text ++ [[]] := by
  induction text with
  | nil => rfl
  | cons char rest ih =>
      rw [List.cons_append, textLines, textLines, ih]
      split
      · rfl
      · cases lines : textLines rest with
        | nil => exact absurd lines (textLines_ne_nil rest)
        | cons line more => rfl

section

variable [Sha256] [FloatText]

def RowOf (put : Rsi.Put) (row : Json) : Prop :=
  ∃ seq time, row = Rsi.indexRow seq time put.kind (Rsi.shaJson put.payload)

omit [Sha256] in
theorem rowOfLine_indexRow (seq : Nat) (time : Double) (kind digest : String) :
    rowOfLine (print plain 0 (Rsi.indexRow seq time kind digest)) =
      some (Rsi.indexRow seq time kind digest) := by
  have solid : print plain 0 (Rsi.indexRow seq time kind digest) ≠ [] := by
    rcases exists_print_obj plain 0 [("seq", .int seq), ("kind", .str kind), ("sha", .str digest),
      ("time", .float time.value)] with ⟨inner, braces⟩
    rw [Rsi.indexRow, braces]
    exact List.cons_ne_nil _ _
  have same : strip (print plain 0 (Rsi.indexRow seq time kind digest)) =
    print plain 0 (Rsi.indexRow seq time kind digest) := strip_print_obj plain _
  have row : Proper (Rsi.indexRow seq time kind digest) :=
    ⟨trivial, trivial, trivial, trivial, time.double, trivial⟩
  have distinct : Distinct (Rsi.indexRow seq time kind digest) := by
    have keys : ["seq", "kind", "sha", "time"].Nodup := by decide
    exact ⟨keys, trivial, trivial, trivial, trivial, trivial⟩
  rw [rowOfLine, same, if_neg solid, loads_print plain row, rebuild_gather_of_distinct _ distinct]
  rfl

theorem rows_of_indexed {puts : List Rsi.Put} {text : List Char} (indexed : Rsi.Indexed puts text) :
    List.Forall₂ RowOf puts ((textLines text).filterMap rowOfLine) := by
  induction indexed with
  | nil => exact List.Forall₂.nil
  | cons put seq time _ ih =>
      rw [textLines_line (printable_print oneLine_plain 0 _), List.filterMap_cons, rowOfLine_indexRow]
      exact List.Forall₂.cons ⟨seq, time, rfl⟩ ih

theorem rows_of_unended {puts : List Rsi.Put} {text : List Char}
    (indexed : Rsi.Indexed puts (text ++ ['\n'])) :
    List.Forall₂ RowOf puts ((textLines text).filterMap rowOfLine) := by
  have rows := rows_of_indexed indexed
  rw [textLines_snoc, List.filterMap_append] at rows
  have nothing : [([] : List Char)].filterMap rowOfLine = [] := rfl
  rw [nothing, List.append_nil] at rows
  exact rows

end

section

variable [Host] [Sha256] [FloatText]

/-- What is kept of a put: the text of its payload, under its digest. -/
def Shelved (store : CampaignStore) (put : Rsi.Put) : Prop :=
  Assoc.get? store.artifacts (Rsi.shaJson put.payload) =
    some (print indented 0 (sortKeys put.payload))

/-- A payload as the writers put it. -/
structure Sound (put : Rsi.Put) : Prop where
  proper : Proper put.payload
  distinct : Distinct put.payload
  seeded : put.kind = "preregistration" → Seeded put.payload

omit [Host] [Sha256] in
theorem Sound.loads {put : Rsi.Put} (sound : Sound put) :
    loads (print indented 0 (sortKeys put.payload)) = some (sortKeys put.payload) := by
  rw [loads_print indented (proper_sortKeys sound.proper),
    rebuild_gather_of_distinct _ (ordered_sortKeys sound.distinct).distinct]

omit [Host] [Sha256] [FloatText] in
theorem sortKeys_seeds (seeds : List Int) :
    sortKeys (.arr (seeds.map Json.int)) = .arr (seeds.map Json.int) := by
  have items : sortItems (seeds.map Json.int) = seeds.map Json.int := by
    induction seeds with
    | nil => rfl
    | cons seed rest ih =>
        rw [List.map_cons, sortItems, ih]
        rfl
  rw [sortKeys, items]

omit [Host] [Sha256] [FloatText] in
theorem Seeded.sorted {payload : Json} (seeded : Seeded payload) (distinct : Distinct payload) :
    Seeded (sortKeys payload) := by
  rcases seeded.exists_fields with ⟨fields, rfl⟩
  refine ⟨rfl, fun key named value found => ?_⟩
  have found_ : Assoc.get? (sortFields (sortValues fields)) key = some value := found
  rw [get?_sorted distinct.1] at found_
  rcases Option.map_eq_some_iff.mp found_ with ⟨before, held, rfl⟩
  rcases seeded.2 key named before held with rfl | ⟨listed, rfl⟩
  · exact Or.inl rfl
  · exact Or.inr ⟨listed, sortKeys_seeds listed⟩

variable {store : CampaignStore} {put : Rsi.Put}

theorem blocksOfRow_eq {row : Json} (rowed : RowOf put row) (shelved : Shelved store put)
    (sound : Sound put) : blocksOfRow store row =
      if put.kind = "preregistration" then
        blocksOfPayload (sortKeys put.payload) (Rsi.shaJson put.payload)
      else .ok [] := by
  rcases rowed with ⟨seq, time, rfl⟩
  have kind : ((Rsi.indexRow seq time put.kind (Rsi.shaJson put.payload)).get? "kind").bind Json.str? =
    some put.kind := rfl
  have digest : ((Rsi.indexRow seq time put.kind (Rsi.shaJson put.payload)).get? "sha").bind Json.str? =
    some (Rsi.shaJson put.payload) := rfl
  rw [blocksOfRow, kind, digest]
  by_cases sealed_ : put.kind = "preregistration"
  · rw [if_pos (congrArg some sealed_), if_pos sealed_]
    simp only []
    rw [shelved, Option.bind_some, sound.loads]
  · rw [if_neg (fun same => sealed_ (Option.some.inj same)), if_neg sealed_]

theorem burns_of_rows {puts : List Rsi.Put} (rows : List.Forall₂ RowOf puts (indexRows store))
    (shelved : ∀ put ∈ puts, Shelved store put) (sound : ∀ put ∈ puts, Sound put) (root : String)
    (prose : List Block) : ∃ blocks, burnedBlocks root [store] prose = .ok blocks ∧
      ∀ put ∈ puts, put.kind = "preregistration" → ∀ entry ∈ seedRoles, ∀ seeds : List Int,
        put.payload.get? entry.1 = some (.arr (seeds.map Json.int)) → ∀ seed ∈ seeds,
          Burns blocks entry.2 (Rsi.shaJson put.payload) seed := by
  have each : ∃ found, (indexRows store).mapM (blocksOfRow store) = .ok found ∧
      ∀ put ∈ puts, put.kind = "preregistration" → ∃ blocks ∈ found,
        blocksOfPayload (sortKeys put.payload) (Rsi.shaJson put.payload) = .ok blocks := by
    have returns : Returns ((indexRows store).mapM (blocksOfRow store)) := by
      apply returns_mapM_iff.mpr
      intro row mem
      rcases exists_left_of_forall₂ rows mem with ⟨put, listed, rowed⟩
      rw [blocksOfRow_eq rowed (shelved put listed) (sound put listed)]
      split
      · rename_i sealed_
        exact returns_blocksOfPayload (((sound put listed).seeded sealed_).sorted
          (sound put listed).distinct) _
      · exact ⟨[], rfl⟩
    rcases returns with ⟨found, ran⟩
    refine ⟨found, ran, fun put listed sealed_ => ?_⟩
    rcases exists_right_of_forall₂ rows listed with ⟨row, mem, rowed⟩
    rcases exists_result_of_mapM ran mem with ⟨blocks, there, made⟩
    rw [blocksOfRow_eq rowed (shelved put listed) (sound put listed), if_pos sealed_] at made
    exact ⟨blocks, there, made⟩
  rcases each with ⟨found, ran, own⟩
  refine ⟨((([found.flatten] : List (List Block)).flatten ++ prose).dedup).insertionSort
    (fun left right => left.le right), ?_, ?_⟩
  · rw [burnedBlocks, if_neg (List.cons_ne_nil _ _)]
    simp only [List.mapM_cons, List.mapM_nil]
    rw [ran]
    rfl
  · intro put listed sealed_ entry named seeds held seed mem
    rcases own put listed sealed_ with ⟨blocks, there, made⟩
    have distinct := (sound put listed).distinct
    rcases ((sound put listed).seeded sealed_).exists_fields with ⟨fields, payload⟩
    rw [payload] at held made distinct
    have held_ : Assoc.get? fields entry.1 = some (.arr (seeds.map Json.int)) := held
    have sorted_ : Assoc.get? (sortFields (sortValues fields)) entry.1 =
        some (.arr (seeds.map Json.int)) := by
      rw [get?_sorted distinct.1, held_, Option.map_some, sortKeys_seeds]
    rcases burns_blocksOfPayload made named sorted_ mem with ⟨block, inside, facts⟩
    rw [payload]
    refine ⟨block, ?_, facts⟩
    rw [List.mem_insertionSort, List.mem_dedup, List.flatten_singleton]
    exact List.mem_append_left _ (List.mem_flatten_of_mem there inside)

end

end Board
end PhysicalHarness
