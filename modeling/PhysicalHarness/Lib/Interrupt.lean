import Mathlib.Data.List.Basic

/-!
# Writes that are cut

A process that writes one thing after another and dies has written some of them whole, and
perhaps a part of the next one.  What every whole write and that part keep is kept by the
process.
-/

/-- Where a process dies: after so many whole writes, and in the next one after so many
characters, if that was begun. -/
structure Interrupt where
  whole : Nat
  part : Option Nat

namespace Interrupt

variable {σ α : Type*}

/-- The items that are written whole. -/
def done (items : List α) : Option Interrupt → List α
  | none => items
  | some cut => items.take cut.whole

def begun (items : List α) : Option Interrupt → Option (α × Nat)
  | none => none
  | some cut => cut.part.bind (fun count => items[cut.whole]?.map (fun item => (item, count)))

/-- The writes up to the cut. -/
def run (write : σ → α → σ) (torn : σ → α × Nat → σ) (start : σ) (items : List α)
    (cut : Option Interrupt) : σ :=
  match begun items cut with
  | none => (done items cut).foldl write start
  | some part => torn ((done items cut).foldl write start) part

variable {write : σ → α → σ} {torn : σ → α × Nat → σ} {start : σ} {items : List α}
  {cut : Option Interrupt}

theorem done_subset : done items cut ⊆ items := by
  cases cut with
  | none => exact List.Subset.refl _
  | some cut => exact List.take_subset _ _

theorem mem_of_begun {part : α × Nat} (next : begun items cut = some part) : part.1 ∈ items := by
  cases cut with
  | none => cases next
  | some cut =>
      rcases Option.bind_eq_some_iff.mp next with ⟨count, _, found⟩
      rcases Option.map_eq_some_iff.mp found with ⟨item, at_, rfl⟩
      exact List.mem_of_getElem? at_

theorem kept_foldl (Kept : σ → Prop)
    (whole : ∀ state, ∀ item ∈ items, Kept state → Kept (write state item))
    (begins : Kept start) : Kept (items.foldl write start) := by
  induction items generalizing start with
  | nil => exact begins
  | cons item rest ih =>
      apply ih (fun state other mem => whole state other (.tail _ mem))
      exact whole start item (.head _) begins

theorem kept_run (Kept : σ → Prop)
    (whole : ∀ state, ∀ item ∈ items, Kept state → Kept (write state item))
    (part : ∀ state, ∀ last, begun items cut = some last → Kept state → Kept (torn state last))
    (begins : Kept start) : Kept (run write torn start items cut) := by
  have before : Kept ((done items cut).foldl write start) :=
    kept_foldl Kept (fun state item mem => whole state item (done_subset mem)) begins
  rw [run]
  cases next : begun items cut with
  | none => exact before
  | some last => exact part _ last next before

theorem reached_foldl (Has : α → σ → Prop)
    (here : ∀ state item, Has item (write state item))
    (later : ∀ state item other, Has item state → Has item (write state other)) {item : α}
    (mem : item ∈ items) : Has item (items.foldl write start) := by
  induction items generalizing start with
  | nil => cases mem
  | cons first rest ih =>
      rw [List.foldl_cons]
      rcases List.mem_cons.mp mem with rfl | after
      · apply kept_foldl (Has item)
        · exact fun state other _ => later state item other
        · exact here start item
      · exact ih after

/-- What a write brings about, and the others keep, holds of every item that is written whole. -/
theorem reached_run (Has : α → σ → Prop)
    (here : ∀ state item, Has item (write state item))
    (later : ∀ state item other, Has item state → Has item (write state other))
    (part : ∀ state item last, Has item state → Has item (torn state last)) {item : α}
    (mem : item ∈ done items cut) : Has item (run write torn start items cut) := by
  have before : Has item ((done items cut).foldl write start) := reached_foldl Has here later mem
  rw [run]
  cases next : begun items cut with
  | none => exact before
  | some last => exact part _ item last before

end Interrupt
