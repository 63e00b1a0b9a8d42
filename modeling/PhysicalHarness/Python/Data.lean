import Mathlib.Order.WithBot
import PhysicalHarness.Python.JsonOrder

namespace PhysicalHarness
namespace Python

/-!
# Values that are printed as JSON

What a program hands to `json.dumps`: dicts may have numbers, booleans and `None`
as keys, and `default=str` turns any other object into its text.  With
`sort_keys=True` the items of a dict are sorted by their keys as they are, and
the keys become text afterwards.
-/

/-- A key of a dict; `json.dumps` raises for one that is none of the others. -/
inductive Key where
  | str (text : String)
  | int (value : Int)
  | float (value : Double)
  | bool (value : Bool)
  | null
  | other

namespace Key

def isStr : Key → Bool
  | str _ => true
  | _ => false

def number? : Key → Option PyFloat
  | int value => some (.fin value)
  | float number => some number.value
  | bool value => some (.fin (if value then 1 else 0))
  | _ => none

def isNumber (key : Key) : Bool := key.number?.isSome

def rank (key : Key) : WithBot (WithTop ℚ) :=
  match key.number? with
  | some .negInf => ⊥
  | some .posInf => ((⊤ : WithTop ℚ) : WithBot (WithTop ℚ))
  | some number => (((number.toRat?.getD 0 : ℚ) : WithTop ℚ) : WithBot (WithTop ℚ))
  | none => ⊥

def strText : Key → String
  | str text => text
  | _ => ""

/-- Sorting raises unless all keys are strings or all are numbers; one key is not
compared. -/
def comparable (keys : List Key) : Bool :=
  decide (keys.length ≤ 1) || keys.all isStr || keys.all isNumber

end Key

/-- `sorted(d.items())`.  Where a NaN is among the keys the order is whatever the
algorithm leaves. -/
class KeySort where
  sort : {α : Type} → List (Key × α) → List (Key × α)
  perm : ∀ {α : Type} (items : List (Key × α)), (sort items).Perm items
  strings : ∀ {α : Type} (items : List (Key × α)), (∀ item ∈ items, item.1.isStr = true) →
    (sort items).Pairwise (fun left right => left.1.strText ≤ right.1.strText)
  numbers : ∀ {α : Type} (items : List (Key × α)),
    (∀ item ∈ items, item.1.isNumber = true ∧ item.1.number? ≠ some .nan) →
    (sort items).Pairwise (fun left right => left.1.rank ≤ right.1.rank)

/-- Insertion sort by the text of the keys when all are strings, by their numbers
otherwise. -/
@[reducible] def insertionKeySort : KeySort where
  sort := fun items =>
    if items.all (fun item => item.1.isStr) then
      items.insertionSort (fun left right => left.1.strText ≤ right.1.strText)
    else items.insertionSort (fun left right => left.1.rank ≤ right.1.rank)
  perm := fun items => by
    split
    · exact List.perm_insertionSort _ items
    · exact List.perm_insertionSort _ items
  strings := fun items all => by
    rw [if_pos (List.all_eq_true.mpr all)]
    exact List.pairwise_insertionSort (fun left right => left.1.strText ≤ right.1.strText) items
  numbers := fun items all => by
    split
    · rename_i strings
      cases items with
      | nil => exact List.Pairwise.nil
      | cons item rest =>
          have text := List.all_eq_true.mp strings item (.head _)
          have number := (all item (.head _)).1
          rcases item with ⟨_ | _ | _ | _ | _ | _, value⟩ <;>
            first | exact (Bool.false_ne_true text).elim | exact (Bool.false_ne_true number).elim
    · exact List.pairwise_insertionSort (fun left right => left.1.rank ≤ right.1.rank) items

/-- A value in memory; an object of another type is there by its `str()`. -/
inductive Data where
  | null
  | bool (value : Bool)
  | int (value : Int)
  | float (value : Double)
  | str (text : String)
  | list (items : List Data)
  | dict (entries : List (Key × Data))
  | object (text : String)

namespace Data

open JsonText

section

variable [FloatText] [KeySort]

def keyText : Key → Option String
  | .str text => some text
  | .int value => some (String.ofList (intText value))
  | .float number => some (String.ofList (floatText number.value))
  | .bool value => some (if value then "true" else "false")
  | .null => some "null"
  | .other => none

def withText : List (Key × Json) → Option (List (String × Json))
  | [] => some []
  | (key, value) :: rest =>
      (keyText key).bind (fun text => (withText rest).map (fun fields => (text, value) :: fields))

def fieldsOf (items : List (Key × Json)) : Option (List (String × Json)) :=
  if Key.comparable (items.map Prod.fst) then withText (KeySort.sort items) else none

mutual

/-- The JSON value that `json.dumps(value, sort_keys=True, default=str)` prints;
`none` when it raises. -/
def normalize : Data → Option Json
  | null => some .null
  | bool value => some (.bool value)
  | int value => some (.int value)
  | float number => some (.float number.value)
  | str text => some (.str text)
  | object text => some (.str text)
  | list items => (normalizeItems items).map .arr
  | dict entries => ((normalizeEntries entries).bind fieldsOf).map .obj

def normalizeItems : List Data → Option (List Json)
  | [] => some []
  | item :: rest =>
      (normalize item).bind (fun first => (normalizeItems rest).map (fun others => first :: others))

def normalizeEntries : List (Key × Data) → Option (List (Key × Json))
  | [] => some []
  | (key, value) :: rest =>
      (normalize value).bind (fun first =>
        (normalizeEntries rest).map (fun others => (key, first) :: others))

end

/-- `json.dumps(value, sort_keys=True, separators=(",", ":"), default=str)`. -/
def payload (value : Data) : Option String := (normalize value).map (dumps compact)

end

mutual

def ofJson : Json → Data
  | .null => null
  | .bool value => bool value
  | .int value => int value
  | .float value => float (if double : value.IsDouble then ⟨value, double⟩ else Double.nan)
  | .str text => str text
  | .arr items => list (ofItems items)
  | .obj fields => dict (ofFields fields)

def ofItems : List Json → List Data
  | [] => []
  | item :: rest => ofJson item :: ofItems rest

def ofFields : List (String × Json) → List (Key × Data)
  | [] => []
  | (key, value) :: rest => (.str key, ofJson value) :: ofFields rest

end

section

variable [FloatText] [KeySort]

variable {fields : List (String × Json)} {items : List (Key × Json)}

omit [KeySort] in
theorem mem_of_withText (found : withText items = some fields) {pair : String × Json}
    (mem : pair ∈ fields) :
    ∃ key, (key, pair.2) ∈ items := by
  induction items generalizing fields with
  | nil =>
      cases found
      exact absurd mem List.not_mem_nil
  | cons item rest ih =>
      rcases item with ⟨key, value⟩
      rcases Option.bind_eq_some_iff.mp found with ⟨text, _, later⟩
      rcases Option.map_eq_some_iff.mp later with ⟨others, read, rfl⟩
      rcases List.mem_cons.mp mem with rfl | after
      · exact ⟨key, .head _⟩
      · exact (ih read after).imp (fun _ => .tail _)

theorem mem_of_fieldsOf (found : fieldsOf items = some fields) {pair : String × Json}
    (mem : pair ∈ fields) :
    ∃ key, (key, pair.2) ∈ items := by
  unfold fieldsOf at found
  split at found
  · rcases mem_of_withText found mem with ⟨key, listed⟩
    exact ⟨key, (KeySort.perm items).mem_iff.mp listed⟩
  · cases found

mutual

theorem proper_normalize (value : Data) {json : Json} (found : normalize value = some json) :
    Proper json := by
  cases value with
  | float number => cases found; exact number.double
  | list items =>
      rcases Option.map_eq_some_iff.mp found with ⟨values, read, rfl⟩
      exact proper_normalizeItems items read
  | dict entries =>
      rcases Option.map_eq_some_iff.mp found with ⟨fields, read, rfl⟩
      rcases Option.bind_eq_some_iff.mp read with ⟨items, normal, ordered⟩
      refine ⟨trivial, (throughoutFields_iff _).mpr (fun pair mem => ?_)⟩
      rcases mem_of_fieldsOf ordered mem with ⟨key, listed⟩
      exact proper_normalizeEntries entries normal _ listed
  | _ => cases found; trivial

theorem proper_normalizeItems (items : List Data) {values : List Json}
    (found : normalizeItems items = some values) :
    ThroughoutItems PyFloat.IsDouble (fun _ => True) values := by
  cases items with
  | nil =>
      cases found
      trivial
  | cons item rest =>
      rcases Option.bind_eq_some_iff.mp found with ⟨first, read, later⟩
      rcases Option.map_eq_some_iff.mp later with ⟨others, more, rfl⟩
      exact ⟨proper_normalize item read, proper_normalizeItems rest more⟩

theorem proper_normalizeEntries (entries : List (Key × Data)) {items : List (Key × Json)}
    (found : normalizeEntries entries = some items) : ∀ item ∈ items, Proper item.2 := by
  rcases entries with _ | ⟨⟨key, value⟩, rest⟩
  · cases found
    exact fun item never => absurd never List.not_mem_nil
  · rcases Option.bind_eq_some_iff.mp found with ⟨first, read, later⟩
    rcases Option.map_eq_some_iff.mp later with ⟨others, more, rfl⟩
    intro item mem
    rcases List.mem_cons.mp mem with rfl | after
    · exact proper_normalize value read
    · exact proper_normalizeEntries rest more item after

end

def strItem (pair : String × Json) : Key × Json := (.str pair.1, pair.2)

omit [FloatText] in
theorem sort_strItems (distinct : (Assoc.keys fields).Nodup) :
    KeySort.sort (fields.map strItem) = (sortFields fields).map strItem := by
  have all : ∀ item ∈ fields.map strItem, item.1.isStr = true := by
    intro item mem
    rcases List.mem_map.mp mem with ⟨pair, _, rfl⟩
    rfl
  have same : (KeySort.sort (fields.map strItem)).Perm ((sortFields fields).map strItem) :=
    (KeySort.perm _).trans ((List.perm_insertionSort _ fields).map strItem).symm
  have texts : ((fields.map strItem).map (fun item => item.1.strText)) = Assoc.keys fields := by
    rw [List.map_map]
    rfl
  have apart : (KeySort.sort (fields.map strItem)).Pairwise
      (fun left right => left.1.strText ≠ right.1.strText) := by
    refine List.pairwise_map.mp (((KeySort.perm _).map _).nodup_iff.mpr ?_)
    rw [texts]
    exact distinct
  have ascends : (KeySort.sort (fields.map strItem)).Pairwise
      (fun left right => left.1.strText < right.1.strText) :=
    ((KeySort.strings _ all).and apart).imp (fun both => lt_of_le_of_ne both.1 both.2)
  have ascends_ : ((sortFields fields).map strItem).Pairwise
      (fun left right => left.1.strText < right.1.strText) :=
    List.pairwise_map.mpr (List.pairwise_map.mp (pairwise_keys_sortFields distinct))
  exact same.eq_of_pairwise (fun left right _ _ less more => absurd (lt_trans less more) (lt_irrefl _))
    ascends ascends_

theorem fieldsOf_strItems (fields : List (String × Json)) (distinct : (Assoc.keys fields).Nodup) :
    fieldsOf (fields.map strItem) = some (sortFields fields) := by
  have comparable : Key.comparable ((fields.map strItem).map Prod.fst) = true := by
    have strings : ((fields.map strItem).map Prod.fst).all Key.isStr = true := by
      rw [List.map_map, List.all_map]
      exact List.all_eq_true.mpr (fun _ _ => rfl)
    rw [Key.comparable, strings, Bool.or_true, Bool.true_or]
  have plain : ∀ fields : List (String × Json), withText (fields.map strItem) = some fields := by
    intro fields
    induction fields with
    | nil => rfl
    | cons pair rest ih =>
        rw [List.map_cons, strItem, withText, ih]
        rfl
  rw [fieldsOf, if_pos comparable, sort_strItems distinct, plain]

mutual

theorem normalize_ofJson (value : Json) (proper : Proper value) (distinct : Distinct value) :
    normalize (ofJson value) = some (sortKeys value) := by
  cases value with
  | float value =>
      have double : value.IsDouble := proper
      simp only [ofJson, dif_pos double, normalize, sortKeys]
  | arr items =>
      rw [ofJson, normalize, normalizeItems_ofItems items proper distinct]
      rfl
  | obj fields =>
      rw [ofJson, normalize, normalizeEntries_ofFields fields proper.2 distinct.2, Option.bind_some,
        fieldsOf_strItems _ (by rw [keys_sortValues]; exact distinct.1)]
      rfl
  | _ => rfl

theorem normalizeItems_ofItems (items : List Json)
    (proper : ThroughoutItems PyFloat.IsDouble (fun _ => True) items)
    (distinct : ThroughoutItems (fun _ => True) List.Nodup items) :
    normalizeItems (ofItems items) = some (sortItems items) := by
  cases items with
  | nil => rfl
  | cons item rest =>
      rw [ofItems, normalizeItems, normalize_ofJson item proper.1 distinct.1,
        normalizeItems_ofItems rest proper.2 distinct.2]
      rfl

theorem normalizeEntries_ofFields (fields : List (String × Json))
    (proper : ThroughoutFields PyFloat.IsDouble (fun _ => True) fields)
    (distinct : ThroughoutFields (fun _ => True) List.Nodup fields) :
    normalizeEntries (ofFields fields) =
      some ((sortValues fields).map strItem) := by
  rcases fields with _ | ⟨⟨key, value⟩, rest⟩
  · rfl
  · rw [ofFields, normalizeEntries, normalize_ofJson value proper.1 distinct.1,
      normalizeEntries_ofFields rest proper.2 distinct.2]
    rfl

end

/-! ## Values whose keys ascend in their text -/

/-- In each object of the JSON text the keys ascend. -/
def Steady (data : Data) : Prop := ∀ value, normalize data = some value → Ordered value

theorem steady_iff {data : Data} {value : Json}
    (read : normalize data = some value) : Steady data ↔ Ordered value := by
  constructor
  · exact fun steady => steady value read
  · intro ordered other read_
    rw [read] at read_
    cases read_
    exact ordered

mutual

def StrKeys : Data → Prop
  | list items => StrKeysItems items
  | dict entries => (∀ entry ∈ entries, entry.1.isStr = true) ∧
      (entries.map (fun entry => entry.1.strText)).Nodup ∧ StrKeysEntries entries
  | _ => True

def StrKeysItems : List Data → Prop
  | [] => True
  | item :: rest => StrKeys item ∧ StrKeysItems rest

def StrKeysEntries : List (Key × Data) → Prop
  | [] => True
  | (_, value) :: rest => StrKeys value ∧ StrKeysEntries rest

end

theorem map_fst_of_normalizeEntries {entries : List (Key × Data)}
    (found : normalizeEntries entries = some items) :
    items.map Prod.fst = entries.map Prod.fst := by
  induction entries generalizing items with
  | nil =>
      cases found
      rfl
  | cons entry rest ih =>
      rcases entry with ⟨key, value⟩
      rcases Option.bind_eq_some_iff.mp found with ⟨first, _, later⟩
      rcases Option.map_eq_some_iff.mp later with ⟨others, more, rfl⟩
      rw [List.map_cons, List.map_cons, ih more]

omit [KeySort] in
theorem keys_of_withText (strings : ∀ item ∈ items, item.1.isStr = true)
    (found : withText items = some fields) :
    Assoc.keys fields = items.map (fun item => item.1.strText) := by
  induction items generalizing fields with
  | nil =>
      cases found
      rfl
  | cons item rest ih =>
      rcases item with ⟨key, value⟩
      rcases Option.bind_eq_some_iff.mp found with ⟨text, named, later⟩
      rcases Option.map_eq_some_iff.mp later with ⟨others, read, rfl⟩
      have string := strings _ (.head _)
      rw [Assoc.keys_cons, List.map_cons, ih (fun item mem =>
        strings item (.tail _ mem)) read]
      cases key with
      | str name =>
          cases named
          rfl
      | _ => cases string

theorem pairwise_keys_of_fieldsOf (strings : ∀ item ∈ items, item.1.isStr = true)
    (distinct : (items.map (fun item => item.1.strText)).Nodup)
    (found : fieldsOf items = some fields) :
    (Assoc.keys fields).Pairwise (· < ·) := by
  unfold fieldsOf at found
  split at found
  · have sorted : ∀ item ∈ KeySort.sort items, item.1.isStr = true :=
      fun item mem => strings item ((KeySort.perm items).mem_iff.mp mem)
    rw [keys_of_withText sorted found, List.pairwise_map]
    have apart : (KeySort.sort items).Pairwise
        (fun left right => left.1.strText ≠ right.1.strText) :=
      List.pairwise_map.mp (((KeySort.perm items).map _).nodup_iff.mpr distinct)
    exact ((KeySort.strings items strings).and apart).imp
      (fun both => lt_of_le_of_ne both.1 both.2)
  · cases found

mutual

theorem ordered_of_strKeys (data : Data) (strings : StrKeys data) {value : Json}
    (found : normalize data = some value) : Ordered value := by
  cases data with
  | list items =>
      rcases Option.map_eq_some_iff.mp found with ⟨values, read, rfl⟩
      exact orderedItems_of_strKeys items strings read
  | dict entries =>
      rcases Option.map_eq_some_iff.mp found with ⟨fields, read, rfl⟩
      rcases Option.bind_eq_some_iff.mp read with ⟨items, normal, sorted⟩
      have keys := map_fst_of_normalizeEntries normal
      have strings_ : ∀ item ∈ items, item.1.isStr = true := by
        intro item mem
        have listed : item.1 ∈ entries.map Prod.fst := keys ▸ List.mem_map_of_mem mem
        rcases List.mem_map.mp listed with ⟨entry, member_, same⟩
        rw [← same]
        exact strings.1 entry member_
      have distinct : (items.map (fun item => item.1.strText)).Nodup := by
        have texts := congrArg (List.map Key.strText) keys
        rw [List.map_map, List.map_map] at texts
        exact (texts ▸ strings.2.1 : (items.map (Key.strText ∘ Prod.fst)).Nodup)
      refine ⟨pairwise_keys_of_fieldsOf strings_ distinct sorted, ?_⟩
      refine (throughoutFields_iff _).mpr (fun pair mem => ?_)
      rcases mem_of_fieldsOf sorted mem with ⟨key, listed⟩
      exact orderedEntries_of_strKeys entries strings.2.2 normal _ listed
  | _ => cases found; trivial

theorem orderedItems_of_strKeys (items : List Data) (strings : StrKeysItems items)
    {values : List Json} (found : normalizeItems items = some values) :
    ThroughoutItems (fun _ => True) (List.Pairwise (· < ·)) values := by
  cases items with
  | nil =>
      cases found
      trivial
  | cons item rest =>
      rcases Option.bind_eq_some_iff.mp found with ⟨first, read, later⟩
      rcases Option.map_eq_some_iff.mp later with ⟨others, more, rfl⟩
      exact ⟨ordered_of_strKeys item strings.1 read, orderedItems_of_strKeys rest strings.2 more⟩

theorem orderedEntries_of_strKeys (entries : List (Key × Data)) (strings : StrKeysEntries entries)
    {items : List (Key × Json)} (found : normalizeEntries entries = some items) :
    ∀ item ∈ items, Ordered item.2 := by
  rcases entries with _ | ⟨⟨key, value⟩, rest⟩
  · cases found
    exact fun item never => absurd never List.not_mem_nil
  · rcases Option.bind_eq_some_iff.mp found with ⟨first, read, later⟩
    rcases Option.map_eq_some_iff.mp later with ⟨others, more, rfl⟩
    intro item mem
    rcases List.mem_cons.mp mem with rfl | after
    · exact ordered_of_strKeys value strings.1 read
    · exact orderedEntries_of_strKeys rest strings.2 more item after

end

theorem steady_of_strKeys {data : Data} (strings : StrKeys data) : Steady data :=
  fun _ found => ordered_of_strKeys data strings found

end

end Data

end Python
end PhysicalHarness
