import PhysicalHarness.Harness.EpisodeLog
import PhysicalHarness.Lib.Fallible

namespace PhysicalHarness
namespace Rsi

open Python Harness JsonText Fallible

/-!
# The campaign store

Every artifact is a file under the digest of its payload, and one line of the index says
of what kind it is.  A payload that is there already is not written again, so that the
store can be read back as long as no two payloads have one digest.
-/

/-- The arguments of one `put`. -/
structure Put where
  kind : String
  payload : Json

/-- The text of the index, if there is one, and the texts of the artifacts by digest. -/
structure CampaignStore where
  index : Option (List Char)
  artifacts : List (String × List Char)

/-- A directory without an artifact. -/
def CampaignStore.fresh : CampaignStore := ⟨none, []⟩

section

variable [Sha256] [FloatText]

/-- The text that a payload is hashed as. -/
def hashText (payload : Json) : String := dumps compact (sortKeys payload)

/-- `sha_json`. -/
def shaJson (payload : Json) : String := sha (hashText payload)

def indexRow (seq : Nat) (time : Double) (kind digest : String) : Json :=
  .obj [("seq", .int seq), ("kind", .str kind), ("sha", .str digest), ("time", .float time.value)]

namespace CampaignStore

/-- `size()`: the number of lines of the index. -/
def size (store : CampaignStore) : Nat := lineCount (store.index.getD [])

/-- `put`; the clock says what time it is when the line is written. -/
def put (clock : Nat → Double) (store : CampaignStore) (put : Put) : CampaignStore :=
  let digest := shaJson put.payload
  { index := some (store.index.getD [] ++
      (print plain 0 (indexRow store.size (clock store.size) put.kind digest) ++ ['\n']))
    artifacts :=
      if digest ∈ Assoc.keys store.artifacts then store.artifacts
      else store.artifacts ++ [(digest, print indented 0 (sortKeys put.payload))] }

/-- One `put` after another. -/
def putAll (clock : Nat → Double) (store : CampaignStore) (puts : List Put) : CampaignStore :=
  puts.foldl (put clock) store

end CampaignStore

inductive StoreError where
  | fileNotFound
  | notJson
  | raised (error : PyError)
  deriving DecidableEq

/-- `json.loads` of a text of the store. -/
def loadText (text : List Char) : Except StoreError Json :=
  match loads text with
  | some value => .ok value
  | none => .error .notJson

def raising {α : Type} (run : Except PyError α) : Except StoreError α := run.mapError .raised

/-- The artifacts of a store, by kind, in the order of the index. -/
structure Archived where
  artifacts : List (Json × Json)

/-- `archived.get(kind, [])`. -/
def Archived.get (archived : Archived) (kind : String) : List Json :=
  (archived.artifacts.filter (fun artifact => artifact.1.str? = some kind)).map Prod.snd

def readArtifact (store : CampaignStore) (row : Json) : Except StoreError (Json × Json) := do
  let digest ← raising (row.item "sha")
  match digest.str?.bind (Assoc.get? store.artifacts) with
  | none => throw .fileNotFound
  | some text =>
      let payload ← loadText text
      let kind ← raising ((row.item "kind").bind (fun kind => (hashed kind).map (fun _ => kind)))
      return (kind, payload)

def readRows (store : CampaignStore) : List (List Char) → Except StoreError (List (Json × Json))
  | [] => .ok []
  | line :: rest =>
      if strip line = [] then readRows store rest
      else do
        let row ← loadText (strip line)
        let artifact ← readArtifact store row
        let artifacts ← readRows store rest
        return artifact :: artifacts

/-- `read_store_artifacts`. -/
def readStoreArtifacts (store : CampaignStore) : Except StoreError Archived :=
  match store.index with
  | none => .error .fileNotFound
  | some index => (readRows store (fileLines index)).map Archived.mk

/-! ## What was put is read back -/

/-- What a payload is read back as. -/
def Put.archived (put : Put) : Json × Json :=
  (.str put.kind, rebuild gather (sortKeys put.payload))

inductive Indexed : List Put → List Char → Prop where
  | nil : Indexed [] []
  | cons {puts : List Put} {text : List Char} (put : Put) (seq : Nat) (time : Double)
      (rest : Indexed puts text) :
      Indexed (put :: puts)
        (print plain 0 (indexRow seq time put.kind (shaJson put.payload)) ++ '\n' :: text)

variable {store : CampaignStore} {puts : List Put}

theorem Indexed.snoc {text : List Char} (indexed : Indexed puts text) (put : Put) (seq : Nat)
    (time : Double) :
    Indexed (puts ++ [put])
      (text ++ (print plain 0 (indexRow seq time put.kind (shaJson put.payload)) ++ ['\n'])) := by
  induction indexed with
  | nil => exact .cons put seq time .nil
  | cons first seq_ time_ _ ih =>
      rw [List.append_assoc, List.cons_append]
      exact .cons first seq_ time_ ih

structure Holds (store : CampaignStore) (puts : List Put) : Prop where
  indexed : Indexed puts (store.index.getD [])
  started : puts ≠ [] → store.index.isSome = true
  present : ∀ put ∈ puts, shaJson put.payload ∈ Assoc.keys store.artifacts
  named : ∀ artifact ∈ store.artifacts, ∃ put ∈ puts,
    artifact = (shaJson put.payload, print indented 0 (sortKeys put.payload))

theorem holds_fresh : Holds .fresh [] where
  indexed := .nil
  started := fun never => absurd rfl never
  present := List.forall_mem_nil _
  named := List.forall_mem_nil _

theorem holds_put (holds : Holds store puts) (clock : Nat → Double) (put : Put) :
    Holds (store.put clock put) (puts ++ [put]) := by
  have indexed : Indexed (puts ++ [put]) ((store.put clock put).index.getD []) :=
    holds.indexed.snoc put _ _
  have earlier : ∀ other ∈ puts, other ∈ puts ++ [put] :=
    fun other mem => List.mem_append_left _ mem
  have last : put ∈ puts ++ [put] := List.mem_append_right _ (.head _)
  by_cases known : shaJson put.payload ∈ Assoc.keys store.artifacts
  · have same : (store.put clock put).artifacts = store.artifacts := if_pos known
    refine ⟨indexed, fun _ => rfl, ?_, ?_⟩
    · intro other mem
      rw [same]
      rcases List.mem_append.mp mem with before | here
      · exact holds.present other before
      · rw [List.mem_singleton.mp here]
        exact known
    · intro artifact mem
      rw [same] at mem
      rcases holds.named artifact mem with ⟨other, before, text⟩
      exact ⟨other, earlier other before, text⟩
  · have added : (store.put clock put).artifacts = store.artifacts ++
        [(shaJson put.payload, print indented 0 (sortKeys put.payload))] := if_neg known
    refine ⟨indexed, fun _ => rfl, ?_, ?_⟩
    · intro other mem
      rw [added, Assoc.keys, List.map_append, List.mem_append]
      rcases List.mem_append.mp mem with before | here
      · exact Or.inl (holds.present other before)
      · rw [List.mem_singleton.mp here]
        exact Or.inr (.head _)
    · intro artifact mem
      rw [added] at mem
      rcases List.mem_append.mp mem with before | here
      · rcases holds.named artifact before with ⟨other, before, text⟩
        exact ⟨other, earlier other before, text⟩
      · exact ⟨put, last, List.mem_singleton.mp here⟩

theorem holds_putAll {more : List Put} (holds : Holds store puts) (clock : Nat → Double) :
    Holds (store.putAll clock more) (puts ++ more) := by
  induction more generalizing store puts with
  | nil =>
      rw [List.append_nil]
      exact holds
  | cons put rest ih =>
      have later := ih (holds_put holds clock put)
      rw [List.append_assoc, List.singleton_append] at later
      exact later

theorem get?_artifacts (holds : Holds store puts) (proper : ∀ put ∈ puts, Proper put.payload)
    (free : CollisionFree (puts.map (fun put => hashText put.payload))) {put : Put}
    (mem : put ∈ puts) : Assoc.get? store.artifacts (shaJson put.payload) =
      some (print indented 0 (sortKeys put.payload)) := by
  rcases Assoc.get?_of_mem_keys (holds.present put mem) with ⟨text, found⟩
  rcases holds.named _ (Assoc.mem_of_get? found) with ⟨other, member_, named⟩
  rcases Prod.mk.inj named with ⟨digest, text_⟩
  have hashed : hashText put.payload = hashText other.payload :=
    free _ (List.mem_map.mpr ⟨put, mem, rfl⟩) _ (List.mem_map.mpr ⟨other, member_, rfl⟩) digest
  have same : sortKeys put.payload = sortKeys other.payload :=
    print_injective (proper_sortKeys (proper put mem)) (proper_sortKeys (proper other member_))
      (String.ofList_injective hashed)
  rw [found, text_, same]

theorem readArtifact_indexRow {put : Put} (proper : Proper put.payload)
    (kept : Assoc.get? store.artifacts (shaJson put.payload) =
      some (print indented 0 (sortKeys put.payload))) (seq : Nat) (time : Double) :
    readArtifact store (indexRow seq time put.kind (shaJson put.payload)) = .ok put.archived := by
  have text : loadText (print indented 0 (sortKeys put.payload)) =
      .ok (rebuild gather (sortKeys put.payload)) := by
    rw [loadText, loads_print indented (proper_sortKeys proper)]
  change (match Assoc.get? store.artifacts (shaJson put.payload) with
    | none => (.error .fileNotFound : Except StoreError (Json × Json))
    | some text => (loadText text).bind (fun payload => .ok (.str put.kind, payload))) = _
  rw [kept]
  change (loadText (print indented 0 (sortKeys put.payload))).bind _ = _
  rw [text]
  rfl

theorem readRows_indexed {text : List Char} (indexed : Indexed puts text)
    (proper : ∀ put ∈ puts, Proper put.payload)
    (kept : ∀ put ∈ puts, Assoc.get? store.artifacts (shaJson put.payload) =
      some (print indented 0 (sortKeys put.payload))) :
    readRows store (fileLines text) = .ok (puts.map Put.archived) := by
  induction indexed with
  | nil => rfl
  | cons put seq time rest ih =>
      have row : Proper (indexRow seq time put.kind (shaJson put.payload)) :=
        ⟨trivial, trivial, trivial, trivial, time.double, trivial⟩
      have distinct : Distinct (indexRow seq time put.kind (shaJson put.payload)) := by
        have keys : ["seq", "kind", "sha", "time"].Nodup := by decide
        exact ⟨keys, trivial, trivial, trivial, trivial, trivial⟩
      have line : strip (print plain 0 (indexRow seq time put.kind (shaJson put.payload))) =
          print plain 0 (indexRow seq time put.kind (shaJson put.payload)) := strip_print_obj plain _
      have solid : print plain 0 (indexRow seq time put.kind (shaJson put.payload)) ≠ [] := by
        rcases exists_print_obj plain 0 [("seq", .int seq), ("kind", .str put.kind),
          ("sha", .str (shaJson put.payload)), ("time", .float time.value)] with ⟨inner, braces⟩
        rw [indexRow, braces]
        exact List.cons_ne_nil _ _
      have loaded : loadText (print plain 0 (indexRow seq time put.kind (shaJson put.payload))) =
          .ok (indexRow seq time put.kind (shaJson put.payload)) := by
        rw [loadText, loads_print plain row, rebuild_gather_of_distinct _ distinct]
      have artifact := readArtifact_indexRow (proper put (.head _))
        (kept put (.head _)) seq time
      have later := ih (fun put mem => proper put (.tail _ mem))
        (fun put mem => kept put (.tail _ mem))
      rw [fileLines_line (printable_print oneLine_plain 0 _), readRows, line, if_neg solid, loaded,
        bind_ok, artifact, bind_ok, later, bind_ok]
      rfl

theorem readStoreArtifacts_putAll (clock : Nat → Double) (some_ : puts ≠ [])
    (proper : ∀ put ∈ puts, Proper put.payload)
    (free : CollisionFree (puts.map (fun put => hashText put.payload))) :
    readStoreArtifacts (CampaignStore.fresh.putAll clock puts) = .ok ⟨puts.map Put.archived⟩ := by
  have holds : Holds (CampaignStore.fresh.putAll clock puts) puts := holds_putAll holds_fresh clock
  have indexed := holds.indexed
  have started := holds.started some_
  rw [readStoreArtifacts]
  cases index : (CampaignStore.fresh.putAll clock puts).index with
  | none =>
      rw [index] at started
      cases started
  | some text =>
      rw [index] at indexed
      have rows : readRows (CampaignStore.fresh.putAll clock puts) (fileLines text) =
          .ok (puts.map Put.archived) :=
        readRows_indexed indexed proper (fun put mem => get?_artifacts holds proper free mem)
      change (readRows _ (fileLines text)).map _ = _
      rw [rows]
      rfl

omit [Sha256] [FloatText] in
theorem get_archived (puts : List Put) (kind : String) :
    (Archived.mk (puts.map Put.archived)).get kind =
      (puts.filter (fun put => put.kind = kind)).map (fun put =>
        rebuild gather (sortKeys put.payload)) := by
  induction puts with
  | nil => rfl
  | cons put rest ih =>
      rw [Archived.get] at ih ⊢
      by_cases same : put.kind = kind
      · rw [List.map_cons, List.filter_cons_of_pos, List.filter_cons_of_pos, List.map_cons, List.map_cons,
          ih]
        · rfl
        · exact decide_eq_true same
        · exact decide_eq_true (congrArg some same)
      · rw [List.map_cons, List.filter_cons_of_neg, List.filter_cons_of_neg, ih]
        · exact fun equal => same (of_decide_eq_true equal)
        · exact fun equal => same (Option.some.inj (of_decide_eq_true equal))

end

end Rsi
end PhysicalHarness
