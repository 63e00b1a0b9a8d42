import Mathlib.Data.List.Infix
import PhysicalHarness.Lib.Dict

/-!
# Files that are written once

A file whose name stands for what it holds is written where there is no file of that name,
and left alone otherwise.  A writer that dies leaves a part of the text under the name, which
the next writer takes for the whole: what is found under a name is the text that the first
writer left there.
-/

namespace Deposit

variable {κ τ : Type*} [DecidableEq κ]

/-- Write a text under a name unless there is a file of that name. -/
def deposit (files : List (κ × τ)) (name : κ) (text : τ) : List (κ × τ) :=
  if name ∈ Assoc.keys files then files else files ++ [(name, text)]

def Intact (files : List (κ × τ)) (name : κ) (text : τ) : Prop :=
  ∀ found, Assoc.get? files name = some found → found = text

variable {files : List (κ × τ)} {name other : κ} {text found : τ}

theorem get?_append_of_get? (kept : Assoc.get? files name = some found) (more : List (κ × τ)) :
    Assoc.get? (files ++ more) name = some found := by
  induction files with
  | nil => cases kept
  | cons pair rest ih =>
      rcases pair with ⟨key, value⟩
      rw [Assoc.get?_cons] at kept
      rw [List.cons_append, Assoc.get?_cons]
      split at kept
      · rename_i same
        rw [if_pos same]
        exact kept
      · rename_i different
        rw [if_neg different]
        exact ih kept

theorem get?_append_of_not_mem (absent : name ∉ Assoc.keys files) (more : List (κ × τ)) :
    Assoc.get? (files ++ more) name = Assoc.get? more name := by
  induction files with
  | nil => rfl
  | cons pair rest ih =>
      rw [Assoc.keys_cons, List.mem_cons, not_or] at absent
      rw [List.cons_append, Assoc.get?_cons, if_neg (Ne.symm absent.1)]
      exact ih absent.2

theorem get?_deposit_of_get? (kept : Assoc.get? files name = some found) :
    Assoc.get? (deposit files other text) name = some found := by
  rw [deposit]
  split
  · exact kept
  · exact get?_append_of_get? kept _

theorem get?_deposit_self (intact : Intact files name text) :
    Assoc.get? (deposit files name text) name = some text := by
  rw [deposit]
  split
  · rename_i mem
    rcases Assoc.get?_of_mem_keys mem with ⟨value, kept⟩
    rw [kept, intact value kept]
  · rename_i absent
    rw [get?_append_of_not_mem absent, Assoc.get?_cons, if_pos rfl]

theorem get?_deposit_of_ne (different : other ≠ name) :
    Assoc.get? (deposit files other text) name = Assoc.get? files name := by
  cases kept : Assoc.get? files name with
  | some value => exact get?_deposit_of_get? kept
  | none =>
      rw [deposit]
      split
      · exact kept
      · rw [get?_append_of_not_mem ((Assoc.get?_eq_none_iff files name).mp kept), Assoc.get?_cons,
          if_neg different]
        rfl

end Deposit
