import Mathlib.Data.List.Chain
import Mathlib.Logic.Relation

/-!
# Segments laid out one after another

Each key has a segment of rows.  Within a segment the rows follow one another; the first row of a
segment follows the last rows of the segments before it.  Then one row comes before another of a
different segment exactly where the segments do.
-/

universe u v

namespace Segments

open Relation (TransGen ReflTransGen)

variable {ρ : Type u} {κ : Type v} {next : ρ → ρ → Prop} {after : κ → κ → Prop} {key : ρ → κ}

theorem reach_of_isChain {first : ρ} {rest : List ρ} (chain : (first :: rest).IsChain next) {row : ρ}
    (mem : row ∈ first :: rest) :
    ReflTransGen next first row ∧ ∀ last ∈ (first :: rest).getLast?, ReflTransGen next row last := by
  induction rest generalizing first row with
  | nil =>
      rw [List.mem_singleton.mp mem]
      refine ⟨ReflTransGen.refl, fun last isLast => ?_⟩
      cases isLast
      exact ReflTransGen.refl
  | cons second rest ih =>
      rw [List.isChain_cons_cons] at chain
      rcases chain with ⟨step, chain⟩
      rw [List.getLast?_cons_cons]
      rcases List.mem_cons.mp mem with same | later
      · rw [same]
        refine ⟨ReflTransGen.refl, fun last isLast => ?_⟩
        exact ReflTransGen.head step ((ih chain (.head _)).2 last isLast)
      · rcases ih chain later with ⟨reached, toLast⟩
        exact ⟨ReflTransGen.head step reached, toLast⟩

theorem keys_of_transGen (down : ∀ a b, next a b → key a = key b ∨ after (key a) (key b)) {a b : ρ}
    (path : TransGen next a b) : key a = key b ∨ TransGen after (key a) (key b) := by
  induction path with
  | single step => exact (down _ _ step).imp_right TransGen.single
  | @tail middle last _ step ih =>
      rcases down _ _ step with same | forth
      · rw [← same]
        exact ih
      · right
        rcases ih with here | before
        · rw [here]
          exact TransGen.single forth
        · exact before.tail forth

theorem transGen_iff {rows : ρ → Prop} (down : ∀ a b, next a b → key a = key b ∨ after (key a) (key b))
    (bridge : ∀ a b, rows a → rows b → after (key a) (key b) → TransGen next a b)
    (inhabited : ∀ k l, after k l → ∃ row, rows row ∧ key row = k) {a b : ρ} (first : rows a)
    (second : rows b) (apart : key a ≠ key b) :
    TransGen next a b ↔ TransGen after (key a) (key b) := by
  constructor
  · intro path
    exact (keys_of_transGen down path).resolve_left apart
  · have reach : ∀ k, TransGen after (key a) k → ∀ row, rows row → key row = k →
        TransGen next a row := by
      intro k path
      induction path with
      | single step =>
          rintro row isRow rfl
          exact bridge a row first isRow step
      | @tail middle last _ step ih =>
          rintro row isRow rfl
          rcases inhabited middle (key row) step with ⟨between, isBetween, rfl⟩
          exact (ih between isBetween rfl).trans (bridge between row isBetween isRow step)
    intro path
    exact reach _ path b second rfl

end Segments
