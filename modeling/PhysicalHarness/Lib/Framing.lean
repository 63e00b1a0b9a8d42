import Mathlib.Data.List.Basic

/-!
# Records one after the other

A record is a header, a mark that no header has in it, and a content of any symbols.  A stream is the
records one after the other.  The header of the first record can be read off a stream, but not where
its content ends: two lists of records make one stream where, after the records they share, a content
of one of them goes on with what follows in the other.
-/

universe u

namespace Framing

variable {α : Type u} (mark : α)

/-- The records one after the other. -/
def stream (records : List (List α × List α)) : List α :=
  records.flatMap (fun record => record.1 ++ mark :: record.2)

/-- No header has the mark in it. -/
def Plain (records : List (List α × List α)) : Prop := ∀ record ∈ records, mark ∉ record.1

/-- A content of the second list goes on with the beginning of what follows in the first. -/
def Swallowed (first second : List (List α × List α)) : Prop :=
  ∃ common header content more rest others, more ≠ [] ∧
    first = common ++ (header, content) :: rest ∧
    second = common ++ (header, content ++ more) :: others ∧
    stream mark rest = more ++ stream mark others

variable {mark}

theorem stream_cons (record : List α × List α) (rest : List (List α × List α)) :
    stream mark (record :: rest) = record.1 ++ mark :: (record.2 ++ stream mark rest) := by
  rw [stream, List.flatMap_cons, List.append_assoc, List.cons_append]
  rfl

theorem stream_append (first second : List (List α × List α)) :
    stream mark (first ++ second) = stream mark first ++ stream mark second :=
  List.flatMap_append

theorem stream_ne_nil (record : List α × List α) (rest : List (List α × List α)) :
    stream mark (record :: rest) ≠ [] := by
  rw [stream_cons]
  exact List.append_ne_nil_of_right_ne_nil _ (List.cons_ne_nil _ _)

theorem header_eq {header other tail rest : List α} (plain : mark ∉ header) (also : mark ∉ other)
    (same : header ++ mark :: tail = other ++ mark :: rest) : header = other ∧ tail = rest := by
  induction header generalizing other with
  | nil =>
      cases other with
      | nil => exact ⟨rfl, (List.cons.inj same).2⟩
      | cons head more =>
          have first := (List.cons.inj same).1
          exact absurd (first ▸ List.mem_cons_self) also
  | cons letter header ih =>
      rw [List.mem_cons, not_or] at plain
      cases other with
      | nil => exact absurd (List.cons.inj same).1.symm plain.1
      | cons head more =>
          rw [List.mem_cons, not_or] at also
          have parts := List.cons.inj same
          have later := ih plain.2 also.2 parts.2
          exact ⟨by rw [parts.1, later.1], later.2⟩

variable {second first : List (List α × List α)}

theorem Swallowed.cons (swallowed : Swallowed mark first second) (record : List α × List α) :
    Swallowed mark (record :: first) (record :: second) := by
  rcases swallowed with ⟨common, header, content, more, rest, others, some_, left, right, same⟩
  exact ⟨record :: common, header, content, more, rest, others, some_, by rw [left]; rfl,
    by rw [right]; rfl, same⟩

theorem Swallowed.stream_eq (swallowed : Swallowed mark first second) :
    stream mark first = stream mark second := by
  rcases swallowed with ⟨common, header, content, more, rest, others, _, left, right, same⟩
  rw [left, right, stream_append, stream_append, stream_cons, stream_cons, same, List.append_assoc]

theorem eq_or_swallowed (plain : Plain mark first) (also : Plain mark second)
    (same : stream mark first = stream mark second) :
    first = second ∨ Swallowed mark first second ∨ Swallowed mark second first := by
  induction first generalizing second with
  | nil =>
      cases second with
      | nil => exact Or.inl rfl
      | cons record rest => exact absurd same.symm (stream_ne_nil record rest)
  | cons record rest ih =>
      cases second with
      | nil => exact absurd same (stream_ne_nil record rest)
      | cons other others =>
          rcases record with ⟨header, content⟩
          rcases other with ⟨header', content'⟩
          rw [stream_cons, stream_cons] at same
          rcases header_eq (plain _ (.head _)) (also _ (.head _)) same with ⟨here, tail⟩
          have alike : header = header' := here
          subst alike
          have later : Plain mark rest := fun record mem => plain record (.tail _ mem)
          have alsoLater : Plain mark others := fun record mem => also record (.tail _ mem)
          rcases List.append_eq_append_iff.mp tail with ⟨more, longer, goes⟩ | ⟨more, longer, goes⟩
          · cases more with
            | nil =>
                have equal : content' = content := longer.trans (List.append_nil content)
                rw [equal]
                rcases ih later alsoLater goes with equal | left | right
                · exact Or.inl (by rw [equal])
                · exact Or.inr (Or.inl (left.cons _))
                · exact Or.inr (Or.inr (right.cons _))
            | cons letter more =>
                refine Or.inr (Or.inl ⟨[], header, content, letter :: more, rest, others,
                  List.cons_ne_nil _ _, rfl, ?_, goes⟩)
                have longer_ : content' = content ++ letter :: more := longer
                rw [longer_]
                rfl
          · cases more with
            | nil =>
                have equal : content = content' := longer.trans (List.append_nil content')
                rw [equal]
                rcases ih later alsoLater goes.symm with equal | left | right
                · exact Or.inl (by rw [equal])
                · exact Or.inr (Or.inl (left.cons _))
                · exact Or.inr (Or.inr (right.cons _))
            | cons letter more =>
                refine Or.inr (Or.inr ⟨[], header, content', letter :: more, others, rest,
                  List.cons_ne_nil _ _, rfl, ?_, goes⟩)
                have longer_ : content = content' ++ letter :: more := longer
                rw [longer_]
                rfl

theorem Swallowed.ne (swallowed : Swallowed mark first second) :
    first ≠ second := by
  rcases swallowed with ⟨common, header, content, more, rest, others, some_, left, right, _⟩
  intro same
  rw [left, right] at same
  have heads := (List.cons.inj (List.append_cancel_left same)).1
  have contents : content = content ++ more := congrArg Prod.snd heads
  exact some_ (List.self_eq_append_right.mp contents)

end Framing
