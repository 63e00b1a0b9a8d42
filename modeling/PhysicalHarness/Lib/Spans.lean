import Mathlib.Data.Int.Order.Basic
import Mathlib.Data.List.Sort
import Mathlib.Order.Bounds.Basic
import Mathlib.Order.MinMax

namespace PhysicalHarness
namespace Spans

/-!
# Spans of integers

A span is a pair of inclusive bounds.  A range of a given length that starts at an integer
meets a span if neither lies wholly before the other.  Spans in the order of their starts
are fused where they touch, which meets what they met, and the first free range is found
by one pass over the fused spans.
-/

def Meets (length start : ℤ) (span : ℤ × ℤ) : Prop := start ≤ span.2 ∧ span.1 < start + length

/-- The range meets none of the spans. -/
def Clear (length : ℤ) (spans : List (ℤ × ℤ)) (start : ℤ) : Prop :=
  ∀ span ∈ spans, ¬ Meets length start span

def Ascending (spans : List (ℤ × ℤ)) : Prop := spans.Pairwise (fun left right => left.1 ≤ right.1)

theorem clear_nil (length start : ℤ) : Clear length [] start :=
  List.forall_mem_nil _

variable {spans : List (ℤ × ℤ)} {length : ℤ}

theorem clear_cons {start : ℤ} {span : ℤ × ℤ} :
    Clear length (span :: spans) start ↔ ¬ Meets length start span ∧ Clear length spans start :=
  List.forall_mem_cons

theorem clear_append {start : ℤ} {left right : List (ℤ × ℤ)} :
    Clear length (left ++ right) start ↔ Clear length left start ∧ Clear length right start :=
  List.forall_mem_append

theorem clear_of_perm {start : ℤ} {left right : List (ℤ × ℤ)} (same : left.Perm right) :
    Clear length left start ↔ Clear length right start := by
  constructor
  · intro clear span mem
    exact clear span (same.mem_iff.mpr mem)
  · intro clear span mem
    exact clear span (same.mem_iff.mp mem)

/-- Bounds that hold an integer are met where the range holds one of theirs. -/
theorem meets_iff {start : ℤ} {span : ℤ × ℤ} (some_ : 0 < length) (solid : span.1 ≤ span.2) :
    Meets length start span ↔
      ∃ point, (start ≤ point ∧ point < start + length) ∧ span.1 ≤ point ∧ point ≤ span.2 := by
  constructor
  · intro meets
    rcases meets with ⟨before, after⟩
    refine ⟨max start span.1, ⟨le_max_left _ _, ?_⟩, le_max_right _ _, max_le before solid⟩
    exact max_lt (by omega) after
  · intro shared
    rcases shared with ⟨point, ⟨low, high⟩, above, below⟩
    exact ⟨low.trans below, lt_of_le_of_lt above high⟩

/-! ## Fusing -/

def extend (spans : List (ℤ × ℤ)) (span : ℤ × ℤ) : List (ℤ × ℤ) :=
  match spans.getLast? with
  | none => [span]
  | some last =>
      if span.1 ≤ last.2 + 1 then spans.dropLast ++ [(last.1, max last.2 span.2)] else spans ++ [span]

def fuse (spans : List (ℤ × ℤ)) : List (ℤ × ℤ) := spans.foldl extend []

theorem extend_concat (before : List (ℤ × ℤ)) (last span : ℤ × ℤ) :
    extend (before ++ [last]) span =
      if span.1 ≤ last.2 + 1 then before ++ [(last.1, max last.2 span.2)]
      else before ++ [last] ++ [span] := by
  rw [extend, List.getLast?_concat]
  simp only [List.dropLast_concat]

theorem meets_fused {start : ℤ} {last span : ℤ × ℤ} (some_ : 0 < length) (ordered : last.1 ≤ span.1)
    (touching : span.1 ≤ last.2 + 1) :
    Meets length start (last.1, max last.2 span.2) ↔
      Meets length start last ∨ Meets length start span := by
  constructor
  · intro meets
    rcases meets with ⟨before, after⟩
    by_cases within : start ≤ last.2
    · exact Or.inl ⟨within, after⟩
    · have later : start ≤ span.2 := (le_max_iff.mp before).resolve_left within
      exact Or.inr ⟨later, by omega⟩
  · intro meets
    rcases meets with ⟨before, after⟩ | ⟨before, after⟩
    · exact ⟨before.trans (le_max_left _ _), after⟩
    · exact ⟨before.trans (le_max_right _ _), lt_of_le_of_lt ordered after⟩

/-- What is known after the spans up to here were fused: their starts ascend and are not
after those to come, and they are met where the spans were. -/
structure Fused (length : ℤ) (done fused : List (ℤ × ℤ)) : Prop where
  ascending : Ascending fused
  started : ∀ span ∈ fused, ∃ old ∈ done, span.1 = old.1
  clear : ∀ start, Clear length fused start ↔ Clear length done start

theorem Fused.extend (some_ : 0 < length) {done fused : List (ℤ × ℤ)} {span : ℤ × ℤ}
    (known : Fused length done fused) (ordered : ∀ old ∈ done, old.1 ≤ span.1) :
    Fused length (done ++ [span]) (extend fused span) := by
  have starts : ∀ old ∈ fused, old.1 ≤ span.1 := by
    intro old mem
    rcases known.started old mem with ⟨source, listed, same⟩
    exact same ▸ ordered source listed
  have single : ∀ start, Clear length [span] start ↔ ¬ Meets length start span := by
    intro start
    rw [clear_cons]
    exact and_iff_left (clear_nil length start)
  rcases List.eq_nil_or_concat fused with rfl | ⟨before, last, rfl⟩
  · refine ⟨List.pairwise_singleton _ _, ?_, ?_⟩
    · intro other mem
      rw [List.mem_singleton.mp mem]
      exact ⟨span, List.mem_append_right _ (.head _), rfl⟩
    · intro start
      change Clear length [span] start ↔ _
      rw [clear_append, ← known.clear start]
      exact (and_iff_right (clear_nil length start)).symm
  rw [List.concat_eq_append] at known starts ⊢
  rw [extend_concat]
  have lastStart : last.1 ≤ span.1 := starts last (List.mem_append_right _ (.head _))
  have ascending := List.pairwise_append.mp known.ascending
  by_cases touching : span.1 ≤ last.2 + 1
  · rw [if_pos touching]
    refine ⟨List.pairwise_append.mpr ⟨ascending.1, List.pairwise_singleton _ _, ?_⟩, ?_, ?_⟩
    · intro old mem other added
      rw [List.mem_singleton.mp added]
      exact ascending.2.2 old mem last (.head _)
    · intro other mem
      rcases List.mem_append.mp mem with earlier | added
      · rcases known.started other (List.mem_append_left _ earlier) with ⟨source, listed, same⟩
        exact ⟨source, List.mem_append_left _ listed, same⟩
      · rcases known.started last (List.mem_append_right _ (.head _)) with
          ⟨source, listed, same⟩
        rw [List.mem_singleton.mp added]
        exact ⟨source, List.mem_append_left _ listed, same⟩
    · intro start
      have both : Clear length (before ++ [last]) start ↔ Clear length done start := known.clear start
      rw [clear_append, clear_cons] at both
      rw [clear_append, clear_append, clear_cons, ← both, single start,
        meets_fused some_ lastStart touching]
      have nothing := clear_nil length start
      tauto
  · rw [if_neg touching]
    refine ⟨List.pairwise_append.mpr ⟨known.ascending, List.pairwise_singleton _ _, ?_⟩, ?_, ?_⟩
    · intro old mem other added
      rw [List.mem_singleton.mp added]
      exact starts old mem
    · intro other mem
      rcases List.mem_append.mp mem with earlier | added
      · rcases known.started other earlier with ⟨source, listed, same⟩
        exact ⟨source, List.mem_append_left _ listed, same⟩
      · rw [List.mem_singleton.mp added]
        exact ⟨span, List.mem_append_right _ (.head _), rfl⟩
    · intro start
      rw [clear_append, known.clear start, clear_append]

theorem fused_foldl (some_ : 0 < length) {done fused : List (ℤ × ℤ)}
    (ascending : Ascending (done ++ spans)) (known : Fused length done fused) :
    Fused length (done ++ spans) (spans.foldl extend fused) := by
  induction spans generalizing done fused with
  | nil =>
      rw [List.append_nil]
      exact known
  | cons span rest ih =>
      have split : done ++ span :: rest = done ++ [span] ++ rest := by simp
      rw [split] at ascending ⊢
      have earlier := List.pairwise_append.mp (List.pairwise_append.mp ascending).1
      have ordered : ∀ old ∈ done, old.1 ≤ span.1 :=
        fun old mem => earlier.2.2 old mem span (.head _)
      exact ih ascending (known.extend some_ ordered)

theorem fused_fuse (some_ : 0 < length) (ascending : Ascending spans) :
    Fused length spans (fuse spans) := by
  have start : Fused length [] [] :=
    ⟨List.Pairwise.nil, List.forall_mem_nil _, fun _ => Iff.rfl⟩
  rw [← List.nil_append spans] at ascending
  exact fused_foldl some_ ascending start

/-- The start of the first range of this length, from a floor on, that meets no span. -/
def firstFree (length : ℤ) : List (ℤ × ℤ) → ℤ → ℤ
  | [], start => start
  | span :: rest, start =>
      if start + length ≤ span.1 then start
      else if start ≤ span.2 then firstFree length rest (span.2 + 1)
      else firstFree length rest start

theorem isLeast_firstFree (ascending : Ascending spans) (floor : ℤ) :
    IsLeast {start | floor ≤ start ∧ Clear length spans start} (firstFree length spans floor) := by
  induction spans generalizing floor with
  | nil => exact ⟨⟨le_refl floor, clear_nil length floor⟩, fun _ free => free.1⟩
  | cons span rest ih =>
      have parts := List.pairwise_cons.mp ascending
      rw [firstFree]
      by_cases before : floor + length ≤ span.1
      · rw [if_pos before]
        refine ⟨⟨le_refl floor, ?_⟩, fun _ free => free.1⟩
        intro other mem meets
        have later : span.1 ≤ other.1 := by
          rcases List.mem_cons.mp mem with rfl | listed
          · exact le_refl _
          · exact parts.1 other listed
        have inside : other.1 < floor + length := meets.2
        omega
      · rw [if_neg before]
        by_cases within : floor ≤ span.2
        · rw [if_pos within]
          rcases ih parts.2 (span.2 + 1) with ⟨free, least⟩
          have past : span.2 + 1 ≤ firstFree length rest (span.2 + 1) := free.1
          refine ⟨⟨by omega, clear_cons.mpr ⟨fun meets => ?_, free.2⟩⟩, ?_⟩
          · have inside := meets.1
            omega
          · intro start other
            have apart := clear_cons.mp other.2
            have above : floor ≤ start := other.1
            apply least
            refine ⟨?_, apart.2⟩
            by_contra low
            exact apart.1 ⟨by omega, by omega⟩
        · rw [if_neg within]
          rcases ih parts.2 floor with ⟨free, least⟩
          have above : floor ≤ firstFree length rest floor := free.1
          refine ⟨⟨above, clear_cons.mpr ⟨fun meets => ?_, free.2⟩⟩, ?_⟩
          · have inside := meets.1
            omega
          · intro start other
            exact least ⟨other.1, (clear_cons.mp other.2).2⟩

theorem isLeast_firstFree_fuse (some_ : 0 < length) (ascending : Ascending spans) (floor : ℤ) :
    IsLeast {start | floor ≤ start ∧ Clear length spans start}
      (firstFree length (fuse spans) floor) := by
  have fused := fused_fuse some_ ascending
  rcases isLeast_firstFree fused.ascending floor with ⟨free, least⟩
  refine ⟨⟨free.1, (fused.clear _).mp free.2⟩, ?_⟩
  intro start other
  exact least ⟨other.1, (fused.clear start).mpr other.2⟩

end Spans
end PhysicalHarness
