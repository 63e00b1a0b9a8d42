import PhysicalHarness.Lib.Fallible
import PhysicalHarness.Python.JsonOrder

namespace PhysicalHarness
namespace Python
namespace JsonText

open Fallible

/-!
# Values that were read

What holds of every float that can be read and is kept when the fields of an object are
gathered holds throughout a value that was read.
-/

section

variable [FloatText] {floats : PyFloat → Prop} {keys : List String → Prop}

def Anywhere (floats : PyFloat → Prop) : Prop := ∀ number : Double, floats number.value

omit [FloatText] in
theorem throughout_literal {word text : List Char} {value : Json} {found : Json × List Char}
    (read : literal word value text = some found) (holds : Throughout floats keys value) :
    Throughout floats keys found.1 := by
  unfold literal at read
  split at read
  · cases read
    exact holds
  · cases read

theorem throughout_number {text : List Char} {found : Json × List Char} (anywhere : Anywhere floats)
    (read : number text = some found) : Throughout floats keys found.1 := by
  unfold number at read
  split at read
  · cases read
    trivial
  · rcases Option.map_eq_some_iff.mp read with ⟨double, _, rfl⟩
    exact anywhere double

theorem throughout_atom {text : List Char} {found : Json × List Char} (anywhere : Anywhere floats)
    (read : atom text = some found) : Throughout floats keys found.1 := by
  unfold atom at read
  simp only [Option.or_eq_some_iff] at read
  rcases read with null | ⟨_, yes | ⟨_, no | ⟨_, nan | ⟨_, inf | ⟨_, neg | ⟨_, digits⟩⟩⟩⟩⟩⟩
  · exact throughout_literal null trivial
  · exact throughout_literal yes trivial
  · exact throughout_literal no trivial
  · exact throughout_literal nan (anywhere Double.nan)
  · exact throughout_literal inf (anywhere Double.posInf)
  · exact throughout_literal neg (anywhere Double.negInf)
  · exact throughout_number anywhere digits

/-- The fields of an object are gathered into a value of the same property. -/
def Gathers (floats : PyFloat → Prop) (keys : List String → Prop) (hook : List (String × Json) → Json) :
    Prop :=
  ∀ pairs, ThroughoutFields floats keys pairs → Throughout floats keys (hook pairs)

structure Reads (floats : PyFloat → Prop) (keys : List String → Prop)
    (hook : List (String × Json) → Json) (fuel : Nat) : Prop where
  value : ∀ text found, readValue hook fuel text = some found → Throughout floats keys found.1
  items : ∀ text found, readItems hook fuel text = some found → ThroughoutItems floats keys found.1
  field : ∀ text found, readField hook fuel text = some found → Throughout floats keys found.1.2
  fields : ∀ text found, readFields hook fuel text = some found → ThroughoutFields floats keys found.1

theorem reads {hook : List (String × Json) → Json} (anywhere : Anywhere floats)
    (gathers : Gathers floats keys hook) (fuel : Nat) : Reads floats keys hook fuel := by
  induction fuel with
  | zero =>
      refine ⟨?_, ?_, ?_, ?_⟩
      all_goals
        intro text found read
        cases read
  | succ fuel ih =>
      refine ⟨?_, ?_, ?_, ?_⟩
      · intro text found read
        unfold readValue at read
        split at read
        · rcases Option.map_eq_some_iff.mp read with ⟨_, _, rfl⟩
          trivial
        · split at read
          · cases read
            trivial
          · rcases Option.bind_eq_some_iff.mp read with ⟨first, one, read⟩
            rcases Option.bind_eq_some_iff.mp read with ⟨others, more, read⟩
            cases read
            exact ⟨ih.value _ _ one, ih.items _ _ more⟩
        · split at read
          · cases read
            exact gathers [] trivial
          · rcases Option.bind_eq_some_iff.mp read with ⟨first, one, read⟩
            rcases Option.bind_eq_some_iff.mp read with ⟨others, more, read⟩
            cases read
            exact gathers _ ⟨ih.field _ _ one, ih.fields _ _ more⟩
        · exact throughout_atom anywhere read
      · intro text found read
        unfold readItems at read
        split at read
        · cases read
          trivial
        · rcases Option.bind_eq_some_iff.mp read with ⟨item, one, read⟩
          rcases Option.bind_eq_some_iff.mp read with ⟨others, more, read⟩
          cases read
          exact ⟨ih.value _ _ one, ih.items _ _ more⟩
        · cases read
      · intro text found read
        unfold readField at read
        split at read
        · rcases Option.bind_eq_some_iff.mp read with ⟨key, _, read⟩
          split at read
          · rcases Option.bind_eq_some_iff.mp read with ⟨value, one, read⟩
            cases read
            exact ih.value _ _ one
          · cases read
        · cases read
      · intro text found read
        unfold readFields at read
        split at read
        · cases read
          trivial
        · rcases Option.bind_eq_some_iff.mp read with ⟨field, one, read⟩
          rcases Option.bind_eq_some_iff.mp read with ⟨others, more, read⟩
          cases read
          exact ⟨ih.field _ _ one, ih.fields _ _ more⟩
        · cases read

omit [FloatText] in
theorem gathers_gather (floats : PyFloat → Prop) : Gathers floats List.Nodup gather := by
  intro pairs holds
  refine ⟨nodup_keys_foldl_set pairs [] List.nodup_nil, ?_⟩
  rw [throughoutFields_iff] at holds ⊢
  intro pair mem
  rcases mem_of_mem_foldl_set mem with none_ | kept
  · cases none_
  · exact holds pair kept

/-- The floats are floats of the interpreter, and no key repeats. -/
abbrev Tidy : Json → Prop := Throughout PyFloat.IsDouble List.Nodup

omit [FloatText] in
theorem Tidy.proper {value : Json} (tidy : Tidy value) : Proper value :=
  Throughout.mono (fun _ double => double) (fun _ _ => trivial) value tidy

omit [FloatText] in
theorem Tidy.distinct {value : Json} (tidy : Tidy value) : Distinct value :=
  Throughout.mono (fun _ _ => trivial) (fun _ nodup => nodup) value tidy

theorem tidy_of_readValue {fuel : Nat} {text : List Char} {found : Json × List Char}
    (read : readValue gather fuel text = some found) :
    Tidy found.1 :=
  (reads (fun number => number.double) (gathers_gather _) fuel).value text found read

theorem tidy_of_loads {text : List Char} {value : Json} (read : loads text = some value) : Tidy value := by
  rcases Option.bind_eq_some_iff.mp read with ⟨found, value_, read⟩
  split at read
  · cases read
    exact tidy_of_readValue value_
  · cases read

end

/-! ## Parts of a value -/

variable {fields : List (String × Json)} {pairs : List (Json × Json)} {value : Json}
  {items : List Json}

theorem proper_get? {name : String} (proper : Proper (.obj fields))
    (found : Assoc.get? fields name = some value) : Proper value :=
  (throughoutFields_iff fields).mp proper.2 _ (Assoc.mem_of_get? found)

abbrev ProperFields (fields : List (String × Json)) : Prop := ∀ field ∈ fields, Proper field.2

theorem proper_obj (each : ProperFields fields) : Proper (.obj fields) :=
  ⟨trivial, (throughoutFields_iff fields).mpr each⟩

theorem proper_arr (each : ∀ item ∈ items, Proper item) : Proper (.arr items) := by
  induction items with
  | nil => trivial
  | cons item rest ih =>
      exact ⟨each item (.head _), ih (fun later mem => each later (.tail _ mem))⟩

theorem proper_texts (texts : List String) : Proper (.arr (texts.map .str)) := by
  apply proper_arr
  intro item mem
  rcases List.mem_map.mp mem with ⟨text, _, rfl⟩
  trivial

theorem properFields_append {others : List (String × Json)} (first : ProperFields fields)
    (second : ProperFields others) : ProperFields (fields ++ others) := by
  intro field mem
  exact (List.mem_append.mp mem).elim (first field) (second field)

theorem properFields_foldl_set {policies table : List (String × Json)} (fresh : ProperFields policies)
    (known : ProperFields table) :
    ProperFields (policies.foldl (fun table policy => Assoc.set table policy.1 policy.2) table) := by
  intro field mem
  exact (mem_of_mem_foldl_set mem).elim (known field) (fresh field)

theorem proper_items (proper : Proper (.arr items)) : ∀ item ∈ items, Proper item := by
  induction items with
  | nil => exact fun _ none_ => absurd none_ List.not_mem_nil
  | cons first rest ih =>
      intro item mem
      rcases List.mem_cons.mp mem with rfl | later
      · exact proper.1
      · exact ih proper.2 item later

theorem proper_iter (proper : Proper value) (read : value.iter = .ok items) :
    ∀ item ∈ items, Proper item := by
  intro item mem
  cases value with
  | arr listed =>
      cases read
      exact proper_items proper item mem
  | str text =>
      cases read
      rcases List.mem_map.mp mem with ⟨_, _, rfl⟩
      trivial
  | obj fields =>
      cases read
      rcases List.mem_map.mp mem with ⟨_, _, rfl⟩
      trivial
  | _ => cases read

theorem proper_item {found : Json} {name : String} (proper : Proper value)
    (read : value.item name = .ok found) : Proper found := by
  cases value with
  | obj fields =>
      unfold Json.item at read
      dsimp only at read
      split at read
      · rename_i entry
        cases read
        exact proper_get? proper entry
      · cases read
  | _ => cases read

theorem mem_assign {fresh pair : Json × Json} (mem : pair ∈ assign pairs fresh) :
    pair ∈ pairs ∨ pair.2 = fresh.2 := by
  induction pairs with
  | nil => exact Or.inr (congrArg Prod.snd (List.mem_singleton.mp mem))
  | cons first rest ih =>
      rw [assign] at mem
      split at mem
      · rcases List.mem_cons.mp mem with here | later
        · exact Or.inr (here ▸ rfl)
        · exact Or.inl (.tail _ later)
      · rcases List.mem_cons.mp mem with here | later
        · exact Or.inl (here ▸ List.mem_cons_self)
        · exact (ih later).imp_left (.tail _)

theorem proper_foldl_assign {table : List (Json × Json)} (known : ∀ pair ∈ table, Proper pair.2)
    (fresh : ∀ pair ∈ pairs, Proper pair.2) : ∀ pair ∈ pairs.foldl assign table, Proper pair.2 := by
  induction pairs generalizing table with
  | nil => exact known
  | cons first rest ih =>
      apply ih
      · intro pair mem
        rcases mem_assign mem with old | new
        · exact known pair old
        · exact new ▸ fresh first List.mem_cons_self
      · exact fun pair mem => fresh pair (.tail _ mem)

theorem proper_pyPair {pair : Json × Json} (proper : Proper value) (read : pyPair value = .ok pair) :
    Proper pair.2 := by
  unfold pyPair at read
  split at read
  · split at read
    · cases read
      exact proper.2.1
    · cases read
  · cases read
  · split at read
    · cases read
      trivial
    · cases read
  · cases read
    trivial
  · cases read
  · cases read

theorem proper_pyDict [Host] (proper : Proper value) (read : pyDict value = .ok pairs) :
    ∀ pair ∈ pairs, Proper pair.2 := by
  cases value with
  | obj fields =>
      cases read
      intro pair mem
      rcases List.mem_map.mp mem with ⟨field, listed, rfl⟩
      exact (throughoutFields_iff _).mp proper.2 field listed
  | arr items =>
      rcases of_bind read with ⟨found, each, read⟩
      cases read
      apply proper_foldl_assign
      · exact fun _ none_ => absurd none_ List.not_mem_nil
      · intro pair mem
        rcases exists_mem_of_mapM each mem with ⟨item, listed, ran⟩
        exact proper_pyPair (proper_iter proper rfl item listed) ran
  | str text =>
      change (if text = "" then Except.ok [] else _) = .ok pairs at read
      split at read
      · cases read
        exact fun _ none_ => absurd none_ List.not_mem_nil
      · cases read
  | _ => cases read

end JsonText
end Python
end PhysicalHarness
