import Mathlib.Data.List.Perm.Basic
import Mathlib.Logic.Function.Basic

/-!
# Elimination by standing rivals

Items that name a winner and a loser are walked in some order, and the loser falls if both of
them still stand.  A winner that has fallen eliminates nobody, so what falls depends on the
order, unless every loser has a winner that nothing can eliminate.
-/

namespace Elimination

variable {α ι : Type*} [DecidableEq α]

def strike (ends : ι → Option (α × α)) (rivals : α → α → Bool) (standing : α → Bool) (item : ι) :
    α → Bool :=
  match ends item with
  | none => standing
  | some edge =>
      if standing edge.2 && standing edge.1 && rivals edge.1 edge.2 then
        Function.update standing edge.2 false
      else standing

def walk (ends : ι → Option (α × α)) (rivals : α → α → Bool) (standing : α → Bool)
    (items : List ι) : α → Bool :=
  items.foldl (strike ends rivals) standing

def Beats (ends : ι → Option (α × α)) (rivals : α → α → Bool) (standing : α → Bool)
    (items : List ι) (winner loser : α) : Prop :=
  (∃ item ∈ items, ends item = some (winner, loser)) ∧
    standing loser = true ∧ standing winner = true ∧ rivals winner loser = true

/-- Every loser is beaten by itself or by a winner that nobody beats. -/
def Decided (ends : ι → Option (α × α)) (rivals : α → α → Bool) (standing : α → Bool)
    (items : List ι) : Prop :=
  ∀ winner loser, Beats ends rivals standing items winner loser →
    ∃ champion, Beats ends rivals standing items champion loser ∧
      (champion = loser ∨ ∀ other, ¬ Beats ends rivals standing items other champion)

variable {ends : ι → Option (α × α)} {rivals : α → α → Bool} {standing : α → Bool}
  {items more : List ι} {item : ι} {winner loser other : α}

omit [DecidableEq α] in
theorem Beats.mono (beats : Beats ends rivals standing items winner loser) (within : items ⊆ more) :
    Beats ends rivals standing more winner loser := by
  rcases beats with ⟨⟨item, mem, named⟩, facts⟩
  exact ⟨⟨item, within mem, named⟩, facts⟩

theorem walk_append : walk ends rivals standing (items ++ more) =
    walk ends rivals (walk ends rivals standing items) more :=
  List.foldl_append

theorem strike_eq_true_iff : strike ends rivals standing item other = true ↔
    standing other = true ∧ ¬ ∃ winner, Beats ends rivals standing [item] winner other := by
  have single : ∀ winner, Beats ends rivals standing [item] winner other ↔
      ends item = some (winner, other) ∧ standing other = true ∧ standing winner = true ∧
        rivals winner other = true := by
    intro winner
    rw [Beats]
    refine and_congr_left' ⟨?_, fun named => ⟨item, .head _, named⟩⟩
    rintro ⟨found, mem, named⟩
    rw [← List.mem_singleton.mp mem]
    exact named
  simp only [single]
  rw [strike]
  cases named : ends item with
  | none =>
      refine ⟨fun stands => ⟨stands, ?_⟩, And.left⟩
      rintro ⟨winner, never, _⟩
      cases never
  | some edge =>
      rcases edge with ⟨first, last⟩
      simp only []
      split
      · rename_i falls
        rw [Bool.and_eq_true, Bool.and_eq_true] at falls
        by_cases here : other = last
        · rw [here, Function.update_self]
          constructor
          · exact nofun
          · intro stays
            exact absurd ⟨first, rfl, falls.1.1, falls.1.2, falls.2⟩ stays.2
        · rw [Function.update_of_ne here]
          refine ⟨fun stands => ⟨stands, ?_⟩, And.left⟩
          rintro ⟨winner, same, _⟩
          exact here (Prod.ext_iff.mp (Option.some.inj same)).2.symm
      · rename_i stays
        refine ⟨fun stands => ⟨stands, ?_⟩, And.left⟩
        rintro ⟨winner, same, facts⟩
        cases same
        apply stays
        rw [facts.1, facts.2.1, facts.2.2]
        rfl

theorem standing_of_walk (stands : walk ends rivals standing items other = true) :
    standing other = true := by
  induction items generalizing standing with
  | nil => exact stands
  | cons item rest ih => exact (strike_eq_true_iff.mp (ih stands)).1

theorem walk_of_unbeaten (unbeaten : ∀ winner, ¬ Beats ends rivals standing items winner other) :
    walk ends rivals standing items other = standing other := by
  induction items generalizing standing with
  | nil => rfl
  | cons item rest ih =>
      have here : strike ends rivals standing item other = standing other := by
        rw [Bool.eq_iff_iff, strike_eq_true_iff]
        refine ⟨And.left, fun stands => ⟨stands, ?_⟩⟩
        rintro ⟨winner, beats⟩
        exact unbeaten winner (beats.mono (List.cons_subset_cons item (List.nil_subset rest)))
      rw [← here]
      apply ih
      rintro winner ⟨⟨found, mem, named⟩, stands, won, rival⟩
      rw [here] at stands
      exact unbeaten winner ⟨⟨found, .tail _ mem, named⟩, stands,
        (strike_eq_true_iff.mp won).1, rival⟩

theorem falls_of_champion (beats : Beats ends rivals standing items winner loser)
    (champion : winner = loser ∨ ∀ other, ¬ Beats ends rivals standing items other winner) :
    walk ends rivals standing items loser = false := by
  rcases beats with ⟨⟨item, mem, named⟩, stands, won, rival⟩
  rcases List.append_of_mem mem with ⟨before, after, rfl⟩
  have split : walk ends rivals standing (before ++ item :: after) =
      walk ends rivals (strike ends rivals (walk ends rivals standing before) item) after :=
    walk_append
  rw [split, Bool.eq_false_iff]
  intro last
  rcases strike_eq_true_iff.mp (standing_of_walk last) with ⟨still, unbeaten⟩
  refine unbeaten ⟨winner, ⟨item, .head _, named⟩, still, ?_, rival⟩
  rcases champion with rfl | free
  · exact still
  · rw [walk_of_unbeaten (fun other beats => free other (beats.mono (List.subset_append_left _ _)))]
    exact won

omit [DecidableEq α] in
theorem beats_perm (same : items.Perm more) : Beats ends rivals standing items winner loser ↔
    Beats ends rivals standing more winner loser :=
  ⟨fun beats => beats.mono same.subset, fun beats => beats.mono same.symm.subset⟩

omit [DecidableEq α] in
theorem Decided.perm (decided : Decided ends rivals standing items) (same : items.Perm more) :
    Decided ends rivals standing more := by
  intro winner loser beats
  rcases decided winner loser ((beats_perm same).mpr beats) with ⟨champion, won, free⟩
  refine ⟨champion, (beats_perm same).mp won, ?_⟩
  exact free.imp_right (fun free other beats => free other ((beats_perm same).mpr beats))

theorem Decided.falls_iff (decided : Decided ends rivals standing items)
    (stands : standing loser = true) : walk ends rivals standing items loser = false ↔
      ∃ winner, Beats ends rivals standing items winner loser := by
  constructor
  · intro falls
    by_contra unbeaten
    rw [walk_of_unbeaten (fun winner beats => unbeaten ⟨winner, beats⟩), stands] at falls
    cases falls
  · rintro ⟨winner, beats⟩
    rcases decided winner loser beats with ⟨champion, won, free⟩
    exact falls_of_champion won free

def postpone (ends : ι → Option (α × α)) (loser : α) (items : List ι) : List ι :=
  items.filter (fun item => (ends item).map Prod.snd ≠ some loser) ++
    items.filter (fun item => !decide ((ends item).map Prod.snd ≠ some loser))

theorem postpone_perm (ends : ι → Option (α × α)) (loser : α) (items : List ι) : (postpone ends loser items).Perm items :=
  List.filter_append_perm _ items

theorem decided_of_falls (all : ∀ order : List ι, order.Perm items → ∀ loser,
    standing loser = true → (∃ winner, Beats ends rivals standing items winner loser) →
      walk ends rivals standing order loser = false) : Decided ends rivals standing items := by
  intro winner loser beats
  by_contra undecided
  have shape : ∀ champion, Beats ends rivals standing items champion loser →
      champion ≠ loser ∧ ∃ other, Beats ends rivals standing items other champion := by
    intro champion won
    refine ⟨fun same => undecided ⟨champion, won, Or.inl same⟩, ?_⟩
    by_contra free
    exact undecided ⟨champion, won, Or.inr (fun other beats => free ⟨other, beats⟩)⟩
  let first := items.filter (fun item => (ends item).map Prod.snd ≠ some loser)
  let last := items.filter (fun item => !decide ((ends item).map Prod.snd ≠ some loser))
  let middle := walk ends rivals standing first
  have untouched : middle loser = true := by
    have same : middle loser = standing loser := by
      apply walk_of_unbeaten
      rintro winner ⟨⟨item, mem, named⟩, _⟩
      have apart := (List.mem_filter.mp mem).2
      rw [named, decide_eq_true_eq] at apart
      exact apart rfl
    rw [same]
    exact beats.2.1
  have others : ∀ other, other ≠ loser →
      walk ends rivals middle last other = middle other := by
    intro other different
    apply walk_of_unbeaten
    rintro winner ⟨⟨item, mem, named⟩, _⟩
    have own := (List.mem_filter.mp mem).2
    rw [named, Bool.not_eq_true', decide_eq_false_iff_not, not_not] at own
    exact different (Option.some.inj own)
  have split : walk ends rivals standing (postpone ends loser items) =
      walk ends rivals middle last := walk_append
  -- Every winner has fallen before its item comes up.
  have fallen : ∀ champion, Beats ends rivals standing items champion loser →
      middle champion = false := by
    intro champion won
    rcases shape champion won with ⟨different, beaten⟩
    have falls := all _ (postpone_perm ends loser items) champion won.2.2.1 beaten
    rw [split, others champion different] at falls
    exact falls
  have stays : walk ends rivals middle last loser = middle loser := by
    apply walk_of_unbeaten
    rintro champion ⟨⟨item, mem, named⟩, _, won, rival⟩
    have beats_ : Beats ends rivals standing items champion loser :=
      ⟨⟨item, (List.mem_filter.mp mem).1, named⟩, beats.2.1, standing_of_walk won, rival⟩
    rw [fallen champion beats_] at won
    cases won
  have falls := all _ (postpone_perm ends loser items) loser beats.2.1 ⟨winner, beats⟩
  rw [split, stays, untouched] at falls
  cases falls

theorem falls_iff_decided : (∀ order : List ι, order.Perm items → ∀ loser, standing loser = true →
    (walk ends rivals standing order loser = false ↔
      ∃ winner, Beats ends rivals standing items winner loser)) ↔
        Decided ends rivals standing items := by
  constructor
  · exact fun all => decided_of_falls
      (fun order same loser stands => (all order same loser stands).mpr)
  · intro decided order same loser stands
    rw [(decided.perm same.symm).falls_iff stands]
    exact exists_congr (fun winner => beats_perm same)

end Elimination
