import PhysicalHarness.Lib.Fallible

namespace Fallible

/-!
# What a handler catches

A handler catches some errors and lets the others through.  A computation is handled if
every error that it can raise is caught; a sequence is handled part by part, and a loop of
checks is handled unless the first item that does not pass raises what is not caught.
-/

universe u v

variable {ε : Type u} {α β : Type v} {caught : ε → Prop}

inductive FirstNot (good bad : α → Prop) : List α → Prop
  | here {item : α} {rest : List α} (raises : bad item) : FirstNot good bad (item :: rest)
  | later {item : α} {rest : List α} (passes : good item) (others : FirstNot good bad rest) :
      FirstNot good bad (item :: rest)

variable {run : α → Except ε PUnit}

theorem forM_cons_eq (item : α) (items : List α) :
    (item :: items).forM run = (run item >>= fun _ => items.forM run) := rfl

theorem forM_eq_ok_iff {good : α → Prop} (passes : ∀ item, run item = .ok ⟨⟩ ↔ good item)
    (items : List α) :
    items.forM run = .ok ⟨⟩ ↔ ∀ item ∈ items, good item := by
  induction items with
  | nil =>
      refine iff_of_true rfl ?_
      intro item never
      cases never
  | cons item items ih =>
      rw [forM_cons_eq, bind_eq_ok, List.forall_mem_cons, ← ih, ← passes]
      constructor
      · rintro ⟨_, first, rest⟩
        exact ⟨first, rest⟩
      · rintro ⟨first, rest⟩
        exact ⟨⟨⟩, first, rest⟩

end Fallible
