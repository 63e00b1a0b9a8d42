import Mathlib.Data.List.Nodup
import Mathlib.Data.List.Flatten
import Mathlib.Data.List.Pairwise

/-!
# Lists whose items expand

An expansion replaces each item of a list by a segment that still holds the key
of the item, for instance the item with a companion before it.  Two expansions
agree on a front when they agree on every item that the front reaches, and an
expansion whose keys are distinct keeps the segments of different items apart.
-/

universe u v w

namespace Expansion

variable {α : Type u} {β : Type v} {κ : Type w}

theorem take_flatMap_congr {f g : α → List β} {items : List α} {k : Nat}
    (same : ∀ first item rest, items = first ++ item :: rest →
      (first.flatMap f).length < k → f item = g item) :
    (items.flatMap f).take k = (items.flatMap g).take k := by
  induction items generalizing k with
  | nil => rfl
  | cons item rest ih =>
      rcases Nat.eq_zero_or_pos k with zero | positive
      · rw [zero, List.take_zero, List.take_zero]
      have here : f item = g item := same [] item rest rfl positive
      have later := ih (k := k - (f item).length) (fun first other after split shorter => by
        refine same (item :: first) other after (by rw [split]; rfl) ?_
        rw [List.flatMap_cons, List.length_append]
        omega)
      rw [List.flatMap_cons, List.flatMap_cons, List.take_append, List.take_append, later, here]

theorem mem_take_of_head {f : α → List β} {first : List α} (rest : List α) {item : α} {head : β}
    {tail : List β} {k : Nat} (segment : f item = head :: tail)
    (reached : (first.flatMap f).length < k) :
    head ∈ ((first ++ item :: rest).flatMap f).take k := by
  rw [List.flatMap_append, List.flatMap_cons, segment, List.take_append]
  refine List.mem_append_right _ ?_
  obtain ⟨left, same⟩ := Nat.exists_eq_succ_of_ne_zero (Nat.sub_ne_zero_of_lt reached)
  rw [same]
  exact .head _

theorem key_ne_of_nodup {f : α → List β} {key : β → κ} {items : List α}
    (distinct : ((items.flatMap f).map key).Nodup) {a b : α} (aMember : a ∈ items)
    (bMember : b ∈ items) (different : a ≠ b) {x y : β} (xMember : x ∈ f a)
    (yMember : y ∈ f b) : key x ≠ key y := by
  rw [List.map_flatMap, List.nodup_flatMap] at distinct
  have symmetric : Std.Symm (Function.onFun List.Disjoint fun item => (f item).map key) :=
    ⟨fun _ _ disjoint _ inFirst inSecond => disjoint inSecond inFirst⟩
  have apart := distinct.2.forall aMember bMember different
  intro same
  exact apart (List.mem_map_of_mem xMember) (same ▸ List.mem_map_of_mem yMember)

theorem map_sublist_flatMap {f : α → List α} {key : α → κ} {items : List α}
    (keeps : ∀ item ∈ items, [key item].Sublist ((f item).map key)) :
    (items.map key).Sublist ((items.flatMap f).map key) := by
  induction items with
  | nil => exact List.Sublist.refl _
  | cons item rest ih =>
      rw [List.flatMap_cons, List.map_append, List.map_cons]
      exact (keeps item (.head _)).append
        (ih (fun other mem => keeps other (.tail _ mem)))

end Expansion
