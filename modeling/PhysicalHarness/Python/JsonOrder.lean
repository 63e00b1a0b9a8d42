import Mathlib.Data.String.Basic
import PhysicalHarness.Python.JsonCodec

namespace PhysicalHarness
namespace Python
namespace JsonText

/-!
# Keys in order

`sort_keys=True` sorts the fields of every object, and a dict keeps one field for
each key.  A value whose keys ascend throughout is the one that both leave alone,
and sorting a value with distinct keys gives such a one.
-/

/-- `sorted(fields.items())`; the keys of a dict do not repeat. -/
def sortFields {α : Type} (fields : List (String × α)) : List (String × α) :=
  fields.insertionSort (fun left right => left.1 ≤ right.1)

mutual

/-- The value as `sort_keys=True` prints it. -/
def sortKeys : Json → Json
  | .arr items => .arr (sortItems items)
  | .obj fields => .obj (sortFields (sortValues fields))
  | other => other

def sortItems : List Json → List Json
  | [] => []
  | item :: rest => sortKeys item :: sortItems rest

def sortValues : List (String × Json) → List (String × Json)
  | [] => []
  | (key, value) :: rest => (key, sortKeys value) :: sortValues rest

end

abbrev Ordered : Json → Prop := Throughout (fun _ => True) (List.Pairwise (· < ·))

abbrev Distinct : Json → Prop := Throughout (fun _ => True) List.Nodup

section

variable {floats floats_ : PyFloat → Prop} {keys keys_ : List String → Prop}

mutual

theorem Throughout.mono (weaker : ∀ value, floats value → floats_ value)
    (weaker_ : ∀ names, keys names → keys_ names) (value : Json)
    (holds : Throughout floats keys value) : Throughout floats_ keys_ value := by
  cases value with
  | float value => exact weaker value holds
  | arr items => exact ThroughoutItems.mono weaker weaker_ items holds
  | obj fields => exact ⟨weaker_ _ holds.1, ThroughoutFields.mono weaker weaker_ fields holds.2⟩
  | _ => trivial

theorem ThroughoutItems.mono (weaker : ∀ value, floats value → floats_ value)
    (weaker_ : ∀ names, keys names → keys_ names) (items : List Json)
    (holds : ThroughoutItems floats keys items) : ThroughoutItems floats_ keys_ items := by
  cases items with
  | nil => trivial
  | cons item rest =>
      exact ⟨Throughout.mono weaker weaker_ item holds.1,
        ThroughoutItems.mono weaker weaker_ rest holds.2⟩

theorem ThroughoutFields.mono (weaker : ∀ value, floats value → floats_ value)
    (weaker_ : ∀ names, keys names → keys_ names) (fields : List (String × Json))
    (holds : ThroughoutFields floats keys fields) : ThroughoutFields floats_ keys_ fields := by
  rcases fields with _ | ⟨⟨key, value⟩, rest⟩
  · trivial
  · exact ⟨Throughout.mono weaker weaker_ value holds.1,
      ThroughoutFields.mono weaker weaker_ rest holds.2⟩

end

theorem throughoutFields_iff (fields : List (String × Json)) :
    ThroughoutFields floats keys fields ↔
      ∀ pair ∈ fields, Throughout floats keys pair.2 := by
  induction fields with
  | nil => exact ⟨fun _ pair mem => absurd mem List.not_mem_nil, fun _ => trivial⟩
  | cons pair rest ih =>
      rw [List.forall_mem_cons, ← ih]
      rfl

end

variable {fields : List (String × Json)} {value : Json}

theorem Ordered.distinct (ordered : Ordered value) : Distinct value :=
  Throughout.mono (fun _ holds => holds)
    (fun _ ascending => ascending.imp (fun less => ne_of_lt less)) value ordered

theorem keys_sortValues (fields : List (String × Json)) :
    Assoc.keys (sortValues fields) = Assoc.keys fields := by
  induction fields with
  | nil => rfl
  | cons pair rest ih => rw [sortValues, Assoc.keys_cons, Assoc.keys_cons, ih]

theorem keys_rebuildFields (hook : List (String × Json) → Json) (fields : List (String × Json)) :
    Assoc.keys (rebuildFields hook fields) = Assoc.keys fields := by
  induction fields with
  | nil => rfl
  | cons pair rest ih => rw [rebuildFields, Assoc.keys_cons, Assoc.keys_cons, ih]

theorem pairwise_keys_sortFields {α : Type} {fields : List (String × α)}
    (distinct : (Assoc.keys fields).Nodup) :
    (Assoc.keys (sortFields fields)).Pairwise (· < ·) := by
  have same : (Assoc.keys (sortFields fields)).Perm (Assoc.keys fields) :=
    (List.perm_insertionSort _ fields).map _
  have ascending : (Assoc.keys (sortFields fields)).Pairwise (· ≤ ·) :=
    List.pairwise_map.mpr (List.pairwise_insertionSort (fun left right => left.1 ≤ right.1) fields)
  have apart : (Assoc.keys (sortFields fields)).Pairwise (· ≠ ·) := same.nodup_iff.mpr distinct
  exact (ascending.and apart).imp (fun both => lt_of_le_of_ne both.1 both.2)

theorem sortFields_of_ascending {α : Type} {fields : List (String × α)}
    (ascending : (Assoc.keys fields).Pairwise (· < ·)) : sortFields fields = fields :=
  List.Pairwise.insertionSort_eq ((List.pairwise_map.mp ascending).imp (fun less => le_of_lt less))

theorem get?_sortValues (fields : List (String × Json)) (name : String) :
    Assoc.get? (sortValues fields) name = (Assoc.get? fields name).map sortKeys := by
  induction fields with
  | nil => rfl
  | cons pair rest ih =>
      rw [sortValues, Assoc.get?_cons, Assoc.get?_cons, ih]
      split_ifs <;> rfl

theorem get?_sorted (distinct : (Assoc.keys fields).Nodup) (name : String) :
    Assoc.get? (sortFields (sortValues fields)) name = (Assoc.get? fields name).map sortKeys := by
  rw [← get?_sortValues]
  have perm : (sortFields (sortValues fields)).Perm (sortValues fields) := List.perm_insertionSort _ _
  apply (Assoc.get?_perm perm.symm _ name).symm
  rw [keys_sortValues]
  exact distinct

mutual

theorem sortKeys_of_ordered (value : Json) (ordered : Ordered value) : sortKeys value = value := by
  cases value with
  | arr items => exact congrArg Json.arr (sortItems_of_ordered items ordered)
  | obj fields =>
      rw [sortKeys, sortValues_of_ordered fields ordered.2, sortFields_of_ascending ordered.1]
  | _ => rfl

theorem sortItems_of_ordered (items : List Json)
    (ordered : ThroughoutItems (fun _ => True) (List.Pairwise (· < ·)) items) :
    sortItems items = items := by
  cases items with
  | nil => rfl
  | cons item rest =>
      rw [sortItems, sortKeys_of_ordered item ordered.1, sortItems_of_ordered rest ordered.2]

theorem sortValues_of_ordered (fields : List (String × Json))
    (ordered : ThroughoutFields (fun _ => True) (List.Pairwise (· < ·)) fields) :
    sortValues fields = fields := by
  rcases fields with _ | ⟨⟨key, value⟩, rest⟩
  · rfl
  · rw [sortValues, sortKeys_of_ordered value ordered.1, sortValues_of_ordered rest ordered.2]

end

theorem throughoutFields_sortFields {floats : PyFloat → Prop} {keys : List String → Prop}
    (holds : ThroughoutFields floats keys fields) :
    ThroughoutFields floats keys (sortFields fields) := by
  rw [throughoutFields_iff] at holds ⊢
  exact fun pair mem => holds pair ((List.mem_insertionSort _).mp mem)

section

variable {floats : PyFloat → Prop} {keys keys_ : List String → Prop}

def SortsInto (keys keys_ : List String → Prop) : Prop :=
  ∀ fields : List (String × Json), keys (Assoc.keys fields) →
    keys_ (Assoc.keys (sortFields fields))

mutual

theorem throughout_sortKeys (sorts : SortsInto keys keys_) (value : Json) (holds : Throughout floats keys value) :
    Throughout floats keys_ (sortKeys value) := by
  cases value with
  | arr items => exact throughoutItems_sortItems sorts items holds
  | obj fields =>
      refine ⟨sorts _ ?_,
        throughoutFields_sortFields (throughoutFields_sortValues sorts fields holds.2)⟩
      rw [keys_sortValues]
      exact holds.1
  | float value => exact holds
  | _ => trivial

theorem throughoutItems_sortItems (sorts : SortsInto keys keys_) (items : List Json)
    (holds : ThroughoutItems floats keys items) :
    ThroughoutItems floats keys_ (sortItems items) := by
  cases items with
  | nil => trivial
  | cons item rest =>
      exact ⟨throughout_sortKeys sorts item holds.1, throughoutItems_sortItems sorts rest holds.2⟩

theorem throughoutFields_sortValues (sorts : SortsInto keys keys_)
    (fields : List (String × Json))
    (holds : ThroughoutFields floats keys fields) :
    ThroughoutFields floats keys_ (sortValues fields) := by
  rcases fields with _ | ⟨⟨key, value⟩, rest⟩
  · trivial
  · exact ⟨throughout_sortKeys sorts value holds.1, throughoutFields_sortValues sorts rest holds.2⟩

end

end

theorem ordered_sortKeys (distinct : Distinct value) : Ordered (sortKeys value) :=
  throughout_sortKeys (fun _ nodup => pairwise_keys_sortFields nodup) value distinct

theorem proper_sortKeys (proper : Proper value) : Proper (sortKeys value) :=
  throughout_sortKeys (fun _ _ => trivial) value proper

/-! ## Objects as dicts -/

theorem mem_of_mem_set {pairs : List (String × Json)} {key : String} {fresh : Json}
    {pair : String × Json} (mem : pair ∈ Assoc.set pairs key fresh) :
    pair ∈ pairs ∨ pair = (key, fresh) := by
  induction pairs with
  | nil => exact .inr (List.mem_singleton.mp mem)
  | cons first rest ih =>
      rw [Assoc.set] at mem
      by_cases same : first.1 = key
      · rw [if_pos same] at mem
        rcases List.mem_cons.mp mem with here | later
        · exact .inr (same ▸ here)
        · exact .inl (.tail _ later)
      · rw [if_neg same] at mem
        rcases List.mem_cons.mp mem with here | later
        · exact .inl (here ▸ List.mem_cons_self)
        · exact (ih later).imp (.tail _) id

theorem mem_of_mem_foldl_set {pairs done : List (String × Json)} {pair : String × Json}
    (mem : pair ∈ pairs.foldl (fun fields pair => Assoc.set fields pair.1 pair.2) done) :
    pair ∈ done ∨ pair ∈ pairs := by
  induction pairs generalizing done with
  | nil => exact .inl mem
  | cons first rest ih =>
      rcases ih mem with before | later
      · rcases mem_of_mem_set before with old | new
        · exact .inl old
        · exact .inr (new ▸ List.mem_cons_self)
      · exact .inr (.tail _ later)

theorem nodup_keys_foldl_set (pairs done : List (String × Json))
    (distinct : (Assoc.keys done).Nodup) :
    (Assoc.keys (pairs.foldl (fun fields pair => Assoc.set fields pair.1 pair.2) done)).Nodup := by
  induction pairs generalizing done with
  | nil => exact distinct
  | cons pair rest ih => exact ih _ (Assoc.nodup_keys_set distinct pair.1 pair.2)

theorem foldl_set_of_nodup {α : Type} (fields done : List (String × α))
    (unique : (Assoc.keys (done ++ fields)).Nodup) :
    fields.foldl (fun acc pair => Assoc.set acc pair.1 pair.2) done = done ++ fields := by
  induction fields generalizing done with
  | nil => rw [List.foldl_nil, List.append_nil]
  | cons pair rest ih =>
      have absent : pair.1 ∉ Assoc.keys done := by
        rw [Assoc.keys, List.map_append, List.map_cons] at unique
        intro mem
        exact (List.nodup_append.mp unique).2.2 _ mem _ (.head _) rfl
      have shifted : done ++ pair :: rest = (done ++ [pair]) ++ rest := by
        rw [List.append_assoc, List.singleton_append]
      rw [List.foldl_cons, Assoc.set_of_not_mem absent, shifted]
      exact ih _ (shifted ▸ unique)

theorem gather_of_nodup (unique : (Assoc.keys fields).Nodup) :
    gather fields = .obj fields := by
  rw [gather, foldl_set_of_nodup fields [] unique, List.nil_append]

mutual

theorem rebuild_gather_of_distinct (value : Json) (distinct : Distinct value) :
    rebuild gather value = value := by
  cases value with
  | arr items => exact congrArg Json.arr (rebuildItems_gather_of_distinct items distinct)
  | obj fields =>
      rw [rebuild, rebuildFields_gather_of_distinct fields distinct.2, gather_of_nodup distinct.1]
  | _ => rfl

theorem rebuildItems_gather_of_distinct (items : List Json)
    (distinct : ThroughoutItems (fun _ => True) List.Nodup items) :
    rebuildItems gather items = items := by
  cases items with
  | nil => rfl
  | cons item rest =>
      rw [rebuildItems, rebuild_gather_of_distinct item distinct.1,
        rebuildItems_gather_of_distinct rest distinct.2]

theorem rebuildFields_gather_of_distinct (fields : List (String × Json))
    (distinct : ThroughoutFields (fun _ => True) List.Nodup fields) :
    rebuildFields gather fields = fields := by
  rcases fields with _ | ⟨⟨key, value⟩, rest⟩
  · rfl
  · rw [rebuildFields, rebuild_gather_of_distinct value distinct.1,
      rebuildFields_gather_of_distinct rest distinct.2]

end

section

variable {floats : PyFloat → Prop} {keys : List String → Prop}

/-- What `dict` guarantees of the keys. -/
def Gathered (keys : List String → Prop) : Prop :=
  ∀ pairs : List (String × Json),
    keys (Assoc.keys (pairs.foldl (fun fields pair => Assoc.set fields pair.1 pair.2) []))

mutual

theorem throughout_rebuild_gather (gathered : Gathered keys) (value : Json)
    (holds : Throughout floats (fun _ => True) value) :
    Throughout floats keys (rebuild gather value) := by
  cases value with
  | arr items => exact throughoutItems_rebuild_gather gathered items holds
  | obj fields =>
      refine ⟨gathered _, (throughoutFields_iff _).mpr (fun pair mem => ?_)⟩
      rcases mem_of_mem_foldl_set mem with never | mem
      · exact absurd never List.not_mem_nil
      · exact (throughoutFields_iff _).mp (throughoutFields_rebuild_gather gathered fields holds.2)
          pair mem
  | float value => exact holds
  | _ => trivial

theorem throughoutItems_rebuild_gather (gathered : Gathered keys) (items : List Json)
    (holds : ThroughoutItems floats (fun _ => True) items) :
    ThroughoutItems floats keys (rebuildItems gather items) := by
  cases items with
  | nil => trivial
  | cons item rest =>
      exact ⟨throughout_rebuild_gather gathered item holds.1,
        throughoutItems_rebuild_gather gathered rest holds.2⟩

theorem throughoutFields_rebuild_gather (gathered : Gathered keys)
    (fields : List (String × Json))
    (holds : ThroughoutFields floats (fun _ => True) fields) :
    ThroughoutFields floats keys (rebuildFields gather fields) := by
  rcases fields with _ | ⟨⟨key, value⟩, rest⟩
  · trivial
  · exact ⟨throughout_rebuild_gather gathered value holds.1,
      throughoutFields_rebuild_gather gathered rest holds.2⟩

end

end

theorem proper_rebuild_gather (proper : Proper value) :
    Proper (rebuild gather value) :=
  throughout_rebuild_gather (fun _ => trivial) value proper

theorem distinct_rebuild_gather (proper : Proper value) :
    Distinct (rebuild gather value) :=
  throughout_rebuild_gather (fun pairs => nodup_keys_foldl_set pairs [] List.nodup_nil) value
    (Throughout.mono (fun _ _ => trivial) (fun _ _ => trivial) value proper)

mutual

theorem rebuild_obj (value : Json) : rebuild Json.obj value = value := by
  cases value with
  | arr items => exact congrArg Json.arr (rebuildItems_obj items)
  | obj fields => exact congrArg Json.obj (rebuildFields_obj fields)
  | _ => rfl

theorem rebuildItems_obj (items : List Json) : rebuildItems Json.obj items = items := by
  cases items with
  | nil => rfl
  | cons item rest => rw [rebuildItems, rebuild_obj item, rebuildItems_obj rest]

theorem rebuildFields_obj (fields : List (String × Json)) :
    rebuildFields Json.obj fields = fields := by
  rcases fields with _ | ⟨⟨key, value⟩, rest⟩
  · rfl
  · rw [rebuildFields, rebuild_obj value, rebuildFields_obj rest]

end

section

variable [FloatText]

theorem loads_print (style : Style) {value : Json} (proper : Proper value) :
    loads (print style 0 value) = some (rebuild gather value) :=
  read_print style proper

theorem print_injective {style : Style} {value other : Json} (proper : Proper value)
    (proper_ : Proper other) (same : print style 0 value = print style 0 other) :
    value = other := by
  have back : read Json.obj (print style 0 value) = some (rebuild Json.obj value) :=
    read_print style proper
  rw [same, read_print style proper_, rebuild_obj, rebuild_obj] at back
  exact (Option.some.inj back).symm

/-- Text with sorted keys, read back and printed with sorted keys, is the same
text exactly when the keys ascended in it. -/
theorem print_sortKeys_loads_iff {style : Style} {value : Json} (proper : Proper value) :
    print style 0 (sortKeys (rebuild gather value)) = print style 0 value ↔ Ordered value := by
  constructor
  · intro same
    have fixed : sortKeys (rebuild gather value) = value :=
      print_injective (proper_sortKeys (proper_rebuild_gather proper)) proper same
    rw [← fixed]
    exact ordered_sortKeys (distinct_rebuild_gather proper)
  · intro ordered
    rw [rebuild_gather_of_distinct value ordered.distinct, sortKeys_of_ordered value ordered]

end

end JsonText
end Python
end PhysicalHarness
