import Mathlib.Data.List.Infix

namespace PhysicalHarness
namespace Occurrence

/-!
# Occurrences of a pattern

A pattern occurs at an index of a text if the text goes on with it there.  Occurrences may
overlap: a count that goes on behind each occurrence does not see those that start inside
one.
-/

universe u

variable {α : Type u} {pattern text : List α}

def OccursAt (pattern text : List α) (index : Nat) : Prop := pattern <+: text.drop index

def FirstAt (pattern text : List α) (index : Nat) : Prop :=
  OccursAt pattern text index ∧ ∀ earlier, OccursAt pattern text earlier → index ≤ earlier

def Lapped (pattern text : List α) : Prop :=
  ∃ first second, OccursAt pattern text first ∧ OccursAt pattern text second ∧
    first < second ∧ second < first + pattern.length

theorem FirstAt.unique {first second : Nat} (left : FirstAt pattern text first)
    (right : FirstAt pattern text second) : first = second :=
  Nat.le_antisymm (left.2 second right.1) (right.2 first left.1)

theorem occursAt_drop {skipped index : Nat} :
    OccursAt pattern (text.drop skipped) index ↔ OccursAt pattern text (skipped + index) := by
  rw [OccursAt, List.drop_drop, OccursAt]

theorem only_iff_not_lapped {index : Nat} (first : FirstAt pattern text index)
    (last : ∀ later, OccursAt pattern text later → later < index + pattern.length) :
    (∀ other, OccursAt pattern text other → other = index) ↔ ¬ Lapped pattern text := by
  constructor
  · intro only lapped
    rcases lapped with ⟨left, right, here, there, less, _⟩
    rw [only left here, only right there] at less
    exact Nat.lt_irrefl _ less
  · intro apart other there
    rcases Nat.lt_or_eq_of_le (first.2 other there) with less | same
    · exact absurd ⟨index, other, first.1, there, less, last other there⟩ apart
    · exact same.symm

end Occurrence
end PhysicalHarness
