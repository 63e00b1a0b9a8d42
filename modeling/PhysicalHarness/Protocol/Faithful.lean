import PhysicalHarness.Protocol.Canonical

namespace PhysicalHarness
namespace Protocol

open Python Fallible

/-!
# Faithful references

A contract is a reference whose arguments may name the arguments of a node, and the checker
compares what it asks of a node by a string.  The string tells two atoms apart, and is read
back as the atom it was made from, where the name is an identifier and every argument could
have stood in a string.
-/

section

variable [Host]

/-- The name and the arguments of a reference in each of its forms. -/
inductive Denotes : PredRef → String → List String → Prop
  | record {name : String} {args : List String} : Denotes (.record ⟨name, args⟩) name args
  | mapping {fields : List (String × Json)} {name : Json} {args : List Json} :
      Assoc.get? fields "name" = some name →
      ((Assoc.get? fields "args").getD (.arr [])).iter = .ok args →
      Denotes (.value (.obj fields)) (pyStr name) (args.map pyStr)
  | sequence {name : Json} {args : List Json} :
      Denotes (.value (.arr (name :: args))) (pyStr name) (args.map pyStr)
  | text {ref : Json} {name : String} {args : List String} :
      (∀ fields, ref ≠ .obj fields) → (∀ items, ref ≠ .arr items) →
      Written (pyStr ref).toList name args → Denotes (.value ref) name args

theorem parsePredRef_iff (words : WordClass) {ref : PredRef} {name : String} {args : List String} :
    parsePredRef ref = .ok (name, args) ↔ Denotes ref name args := by
  have pattern : ∀ value : Json, (∀ fields, value ≠ .obj fields) → (∀ items, value ≠ .arr items) →
      (parsePredRef (.value value) = .ok (name, args) ↔ Written (pyStr value).toList name args) := by
    intro value object sequence
    rw [parsePredRef_pattern object sequence, elim_eq_ok_iff]
    exact matchPred_iff words
  constructor
  · intro parsed
    rcases ref with ⟨name_, args_⟩ | value
    · cases parsed
      exact .record
    cases value with
    | obj fields =>
        rw [parsePredRef] at parsed
        split at parsed
        · cases parsed
        · rename_i named
          rcases of_bind parsed with ⟨items, listed, same⟩
          cases same
          exact .mapping named listed
    | arr items =>
        cases items with
        | nil => cases parsed
        | cons first rest =>
            cases parsed
            exact .sequence
    | _ =>
        apply Denotes.text
        · simp
        · simp
        · apply (pattern _ ?_ ?_).mp parsed
          · simp
          · simp
  · intro denoted
    cases denoted with
    | record => rfl
    | mapping named listed =>
        rw [parsePredRef, named]
        exact bind_eq_ok.mpr ⟨_, listed, rfl⟩
    | sequence => rfl
    | text object sequence written => exact (pattern _ object sequence).mpr written

theorem Denotes.unique (words : WordClass) {ref : PredRef} {name name_ : String}
    {args args_ : List String} (denoted : Denotes ref name args) (denoted_ : Denotes ref name_ args_) :
    name = name_ ∧ args = args_ := by
  have same := ((parsePredRef_iff words).mpr denoted).symm.trans ((parsePredRef_iff words).mpr denoted_)
  exact Prod.mk.inj (Except.ok.inj same)

theorem Denotes.predRefStr (words : WordClass) {ref : PredRef} {name : String} {args : List String}
    (denoted : Denotes ref name args) : predRefStr ref = .ok (canonical name args) := by
  rw [Protocol.predRefStr, (parsePredRef_iff words).mpr denoted]
  rfl

/-- A contract of a record, and the arguments of a node. -/
structure Instance where
  contract : PredRef
  args : List (String × Json)

namespace Instance

def filled (inst : Instance) (slot : String) : String :=
  ((Assoc.get? inst.args slot).map pyStr).getD slot

/-- The tuple that `instantiate` hands on. -/
def ground (inst : Instance) : Except PyError PredRef := do
  let (name, slots) ← parsePredRef inst.contract
  return .value (.arr (.str name :: slots.map (fun slot => .str (inst.filled slot))))

/-- `instantiate`, for a contract in any form. -/
def atom (inst : Instance) : Except PyError String := do predRefStr (← inst.ground)

/-- A reference in any form that denotes the contract for the node. -/
def Produces (inst : Instance) (ref : PredRef) : Prop :=
  ∃ name slots, Denotes inst.contract name slots ∧ Denotes ref name (slots.map inst.filled)

/-- The name is an identifier, and no argument is empty, is between white space, or has a
comma or a line feed in it. -/
def Plain (inst : Instance) : Prop :=
  ∀ name slots, Denotes inst.contract name slots → Identifier name.toList ∧
    ∀ slot ∈ slots, Piece (inst.filled slot).toList ∧ '\n' ∉ (inst.filled slot).toList

end Instance

/-- The strings of some contracts are read back as what they were made from, and two of them
are the same for the same name and arguments alone. -/
structure Faithful (instances : List Instance) : Prop where
  reread : ∀ inst ∈ instances, ∀ ref, inst.Produces ref → ∃ atom, predRefStr ref = .ok atom ∧
    parsePredRef (refOfStr atom) = parsePredRef ref
  apart : ∀ left ∈ instances, ∀ right ∈ instances, ∀ ref other, left.Produces ref →
    right.Produces other →
      (predRefStr ref = predRefStr other ↔ parsePredRef ref = parsePredRef other)

theorem Instance.Plain.reread (words : WordClass) {inst : Instance} (plain : inst.Plain)
    {ref : PredRef} (produced : inst.Produces ref) : ∃ atom, predRefStr ref = .ok atom ∧
      parsePredRef (refOfStr atom) = parsePredRef ref := by
  rcases produced with ⟨name, slots, contract, denoted⟩
  rcases plain name slots contract with ⟨identifier, clean⟩
  refine ⟨_, denoted.predRefStr words, ?_⟩
  have pieces : (slots.map (fun slot => (inst.filled slot).toList)).map String.ofList =
      slots.map inst.filled := by
    rw [List.map_map]
    exact List.map_congr_left (fun slot _ => String.ofList_toList)
  have read := matchPred_canonical words.paren identifier
    (List.forall_mem_map.mpr (fun slot mem => (clean slot mem).1))
    (List.forall_mem_map.mpr (fun slot mem => (clean slot mem).2))
  rw [pieces, String.ofList_toList] at read
  rw [parsePredRef_str.mpr read, (parsePredRef_iff words).mpr denoted]

theorem Instance.plain_of_reread {inst : Instance}
    (reread : ∀ ref, inst.Produces ref → ∃ atom, predRefStr ref = .ok atom ∧
      parsePredRef (refOfStr atom) = parsePredRef ref) : inst.Plain := by
  intro name slots contract
  have denoted : Denotes (.record ⟨name, slots.map inst.filled⟩) name (slots.map inst.filled) :=
    .record
  rcases reread _ ⟨name, slots, contract, denoted⟩ with ⟨atom, _, read⟩
  have written : Written atom.toList name (slots.map inst.filled) :=
    written_of_matchPred (parsePredRef_str.mp read)
  rcases written.clean with ⟨word, pieces, named, listed, identifier, clean, oneLine⟩
  constructor
  · rw [named, String.toList_ofList]
    exact identifier
  · intro slot mem
    have argument : inst.filled slot ∈ pieces.map String.ofList :=
      listed ▸ List.mem_map_of_mem mem
    rcases List.mem_map.mp argument with ⟨piece, here, same⟩
    rw [← same, String.toList_ofList]
    exact ⟨clean piece here, oneLine piece here⟩

/-- The strings of some contracts are faithful exactly when each contract is plain. -/
theorem faithful_iff (words : WordClass) (instances : List Instance) :
    Faithful instances ↔ ∀ inst ∈ instances, inst.Plain := by
  constructor
  · intro faithful inst member
    exact Instance.plain_of_reread (faithful.reread inst member)
  · intro plain
    refine ⟨fun inst member ref => (plain inst member).reread words, ?_⟩
    intro left here right there ref other produced produced_
    rcases (plain left here).reread words produced with ⟨atom, made, read⟩
    rcases (plain right there).reread words produced_ with ⟨atom_, made_, read_⟩
    constructor
    · intro same
      rw [made, made_] at same
      rw [← read, ← read_, Except.ok.inj same]
    · intro same
      rw [predRefStr, predRefStr, same]

end

section

local instance faithfulHost : Host := asciiHost

theorem asciiWords : WordClass where
  paren := by decide
  blank := by
    intro char space
    have code : char.toNat ≤ 32 ∨ 123 ≤ char.toNat := by
      simp only [isSpace, Bool.or_eq_true, Bool.and_eq_true, decide_eq_true_eq, beq_iff_eq] at space
      omega
    apply Bool.eq_false_iff.mpr
    intro word
    change ((decide (char.val ≥ 65 ∧ char.val ≤ 90) ||
      (decide (char.val ≥ 97) && decide (char.val ≤ 122))) ||
        (decide (char.val ≥ 48) && decide (char.val ≤ 57)) || char == '_') = true at word
    simp only [Bool.or_eq_true, Bool.and_eq_true, decide_eq_true_eq, beq_iff_eq, ge_iff_le,
      UInt32.le_iff_toNat_le] at word
    have value : char.val.toNat = char.toNat := rfl
    rw [value] at word
    rcases word with ((upper | lower) | digit) | rfl
    · have low : 65 ≤ char.toNat := upper.1
      have high : char.toNat ≤ 90 := upper.2
      omega
    · have low : 97 ≤ char.toNat := lower.1
      have high : char.toNat ≤ 122 := lower.2
      omega
    · have low : 48 ≤ char.toNat := digit.1
      have high : char.toNat ≤ 57 := digit.2
      omega
    · revert code
      decide

/-- A contract for a place that the node gives. -/
def placed (place : String) : Instance := ⟨refOfStr "at(what)", [("what", .str place)]⟩

theorem denotes_placed (place : String) : Denotes (placed place).contract "at" ["what"] := by
  have parsed : parsePredRef (refOfStr "at(what)") = .ok ("at", ["what"]) := by decide +kernel
  exact (parsePredRef_iff asciiWords).mp parsed

theorem filled_placed (place : String) : (placed place).filled "what" = place := rfl

/-- A place in one word. -/
theorem faithful_cup : Faithful [placed "cup"] := by
  apply (faithful_iff asciiWords _).mpr
  intro inst member
  rw [List.mem_singleton.mp member]
  intro name slots denoted
  rcases denoted.unique asciiWords (denotes_placed "cup") with ⟨rfl, rfl⟩
  refine ⟨⟨'a', ['t'], rfl, by decide, List.all_eq_true.mp rfl⟩, fun slot listed => ?_⟩
  have text : "cup".toList = ['c', 'u', 'p'] := rfl
  rw [List.mem_singleton.mp listed, filled_placed, text]
  refine ⟨⟨List.cons_ne_nil _ _, by decide, ?_, ?_⟩, by decide⟩
  · rintro first rest same
    cases same
    decide
  · rintro first rest same
    cases same
    decide

/-- A place that spells two arguments makes the atom of two arguments. -/
theorem not_faithful_comma : (placed "cup,table").atom = .ok "at(cup,table)" ∧
    ¬ ∀ instances, Faithful instances := by
  refine ⟨by decide +kernel, fun faithful => ?_⟩
  have denoted : Denotes (.record ⟨"at", ["cup,table"]⟩) "at" ["cup,table"] := .record
  rcases (faithful [placed "cup,table"]).reread _ List.mem_cons_self _
    ⟨"at", ["what"], denotes_placed _, denoted⟩ with ⟨atom, made, read⟩
  have text : atom = "at(cup,table)" := Except.ok.inj (made.symm.trans (by decide +kernel))
  rw [text] at read
  exact absurd read (by decide +kernel)

end

end Protocol
end PhysicalHarness
