import Mathlib.Data.List.Infix

namespace PhysicalHarness
namespace Qualified

/-!
# Qualified names

A name in a space is the space, a separator and the name.  Neither part is free of the
separator, so that one qualified name can be read in several spaces; two readings differ by
a piece that the one counts to the space and the other to the name.
-/

universe u

variable {α : Type u} {sep : α} {space other name rest : List α}

def qualify (sep : α) (space name : List α) : List α := space ++ sep :: name

def InSpace (sep : α) (space name : List α) : Prop := space ++ [sep] <+: name

theorem qualify_right_injective : Function.Injective (qualify sep space) := by
  intro name rest same
  exact (List.cons.inj (List.append_cancel_left same)).2

theorem qualify_assoc (middle : List α) :
    qualify sep (qualify sep space middle) name = qualify sep space (qualify sep middle name) := by
  rw [qualify, qualify, qualify, qualify, List.append_assoc, List.cons_append]

theorem inSpace_iff : InSpace sep space name ↔ ∃ rest, name = qualify sep space rest := by
  constructor
  · rintro ⟨rest, same⟩
    refine ⟨rest, ?_⟩
    rw [← same, qualify, List.append_assoc, List.singleton_append]
  · rintro ⟨rest, rfl⟩
    refine ⟨rest, ?_⟩
    rw [qualify, List.append_assoc, List.singleton_append]

theorem inSpace_qualify : InSpace sep space (qualify sep space name) := inSpace_iff.mpr ⟨name, rfl⟩

theorem drop_qualify : (qualify sep space name).drop (space.length + 1) = name := by
  rw [qualify, List.drop_append, List.drop_of_length_le (Nat.le_succ _), List.nil_append,
    Nat.add_sub_cancel_left]
  rfl

theorem qualify_eq_qualify_iff :
    qualify sep space name = qualify sep other rest ↔
      (space = other ∧ name = rest) ∨
        (∃ piece, other = qualify sep space piece ∧ name = qualify sep piece rest) ∨
        ∃ piece, space = qualify sep other piece ∧ rest = qualify sep piece name := by
  constructor
  · intro same
    rcases List.append_eq_append_iff.mp same with ⟨piece, left, right⟩ | ⟨piece, left, right⟩
    · cases piece with
      | nil =>
          rw [List.append_nil] at left
          rw [List.nil_append] at right
          exact Or.inl ⟨left.symm, (List.cons.inj right).2⟩
      | cons first piece =>
          obtain ⟨rfl, behind⟩ := List.cons.inj right
          exact Or.inr (Or.inl ⟨piece, left, behind⟩)
    · cases piece with
      | nil =>
          rw [List.append_nil] at left
          rw [List.nil_append] at right
          exact Or.inl ⟨left, (List.cons.inj right).2.symm⟩
      | cons first piece =>
          obtain ⟨rfl, behind⟩ := List.cons.inj right
          exact Or.inr (Or.inr ⟨piece, left, behind⟩)
  · rintro (⟨rfl, rfl⟩ | ⟨piece, rfl, rfl⟩ | ⟨piece, rfl, rfl⟩)
    · rfl
    · exact (qualify_assoc piece).symm
    · exact qualify_assoc piece

end Qualified
end PhysicalHarness
