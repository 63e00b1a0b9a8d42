import PhysicalHarness.Lib.Fallible
import PhysicalHarness.Protocol.PredRef

namespace PhysicalHarness
namespace Protocol

open Python Fallible

variable [Host]

/-!
# Canonical references

A reference is compared by its canonical string, and the canonical string of a reference
that was read from a string is read back as itself.
-/

/-! ## The pieces of an argument list -/

/-- An argument as the parser yields it: not empty, without a comma, and with no white space
around it. -/
structure Piece (piece : List Char) : Prop where
  nonempty : piece ≠ []
  comma : ',' ∉ piece
  left : ∀ first rest, piece = first :: rest → isSpace first = false
  right : ∀ first rest, piece.reverse = first :: rest → isSpace first = false

omit [Host] in
theorem Piece.strip {piece : List Char} (clean : Piece piece) : strip piece = piece := by
  have front : lstrip piece = piece := by
    cases piece with
    | nil => rfl
    | cons first rest => exact List.dropWhile_cons_of_neg (Bool.eq_false_iff.mp (clean.left first rest rfl))
  rw [Python.strip, front, rstrip]
  cases reversed : piece.reverse with
  | nil => exact (List.reverse_eq_nil_iff.mp reversed).symm ▸ rfl
  | cons first rest =>
      rw [List.dropWhile_cons_of_neg (Bool.eq_false_iff.mp (clean.right first rest reversed)),
        ← reversed, List.reverse_reverse]

omit [Host] in
theorem head_dropWhile {keep : Char → Bool} {text rest : List Char} {first : Char}
    (same : text.dropWhile keep = first :: rest) : keep first = false := by
  induction text with
  | nil => cases same
  | cons char others ih =>
      rw [List.dropWhile_cons] at same
      split at same
      · exact ih same
      · rename_i stops
        cases same
        exact Bool.eq_false_iff.mpr stops

omit [Host] in
theorem mem_strip {text : List Char} {char : Char} (mem : char ∈ strip text) : char ∈ text := by
  rw [Python.strip, rstrip, List.mem_reverse] at mem
  have inner := List.mem_reverse.mp (List.dropWhile_subset _ mem)
  exact List.dropWhile_subset _ inner

omit [Host] in
theorem piece_strip {text : List Char} (nonempty : strip text ≠ []) (comma : ',' ∉ text) :
    Piece (strip text) := by
  refine ⟨nonempty, fun mem => comma (mem_strip mem), ?_, ?_⟩
  · intro first rest same
    rw [Python.strip, rstrip] at same
    have front : (first :: rest) <+: lstrip text := by
      rw [← same, ← List.reverse_suffix, List.reverse_reverse]
      exact List.dropWhile_suffix _
    rcases front with ⟨after, whole⟩
    exact head_dropWhile whole.symm
  · intro first rest same
    rw [Python.strip, rstrip, List.reverse_reverse] at same
    exact head_dropWhile same

omit [Host] in
theorem splitComma_append {piece : List Char} (comma : ',' ∉ piece) (rest : List Char) :
    splitComma (piece ++ ',' :: rest) = piece :: splitComma rest := by
  induction piece with
  | nil => rw [List.nil_append, splitComma, if_pos rfl]
  | cons char others ih =>
      rw [List.mem_cons, not_or] at comma
      rw [List.cons_append, splitComma, if_neg (Ne.symm comma.1), ih comma.2]

omit [Host] in
theorem splitComma_of_not_mem {piece : List Char} (comma : ',' ∉ piece) : splitComma piece = [piece] := by
  induction piece with
  | nil => rfl
  | cons char others ih =>
      rw [List.mem_cons, not_or] at comma
      rw [splitComma, if_neg (Ne.symm comma.1), ih comma.2]

omit [Host] in
theorem not_mem_splitComma {text piece : List Char} (mem : piece ∈ splitComma text) : ',' ∉ piece := by
  induction text generalizing piece with
  | nil =>
      rw [List.mem_singleton.mp mem]
      exact List.not_mem_nil
  | cons char rest ih =>
      rw [splitComma] at mem
      split at mem
      · rcases List.mem_cons.mp mem with rfl | later
        · exact List.not_mem_nil
        · exact ih later
      · rename_i other
        split at mem
        · rename_i head others pieces
          rw [pieces] at ih
          rcases List.mem_cons.mp mem with rfl | later
          · rw [List.mem_cons]
            rintro (same | inside)
            · exact other same.symm
            · exact ih (.head _) inside
          · exact ih (.tail _ later)
        · rw [List.mem_singleton.mp mem, List.mem_singleton]
          exact fun same => other same.symm

omit [Host] in
theorem mem_of_splitComma {text piece : List Char} (mem : piece ∈ splitComma text) {char : Char}
    (inside : char ∈ piece) : char ∈ text := by
  induction text generalizing piece with
  | nil =>
      rw [List.mem_singleton.mp mem] at inside
      cases inside
  | cons first rest ih =>
      rw [splitComma] at mem
      split at mem
      · rcases List.mem_cons.mp mem with rfl | later
        · cases inside
        · exact .tail _ (ih later inside)
      · split at mem
        · rename_i head others pieces
          rw [pieces] at ih
          rcases List.mem_cons.mp mem with rfl | later
          · rcases List.mem_cons.mp inside with rfl | inside
            · exact .head _
            · exact .tail _ (ih (.head _) inside)
          · exact .tail _ (ih (.tail _ later) inside)
        · rw [List.mem_singleton.mp mem] at inside
          rw [List.mem_singleton.mp inside]
          exact .head _

def joined : List (List Char) → List Char
  | [] => []
  | [piece] => piece
  | piece :: next :: rest => piece ++ ',' :: joined (next :: rest)

omit [Host] in
theorem mem_joined {pieces : List (List Char)} {char : Char} (mem : char ∈ joined pieces) :
    char = ',' ∨ ∃ piece ∈ pieces, char ∈ piece := by
  induction pieces with
  | nil => cases mem
  | cons piece rest ih =>
      cases rest with
      | nil => exact .inr ⟨piece, .head _, mem⟩
      | cons next others =>
          rw [joined, List.mem_append, List.mem_cons] at mem
          rcases mem with here | comma | later
          · exact .inr ⟨piece, .head _, here⟩
          · exact .inl comma
          · rcases ih later with comma | ⟨other, listed, inside⟩
            · exact .inl comma
            · exact .inr ⟨other, .tail _ listed, inside⟩

omit [Host] in
theorem splitComma_joined {pieces : List (List Char)} (clean : ∀ piece ∈ pieces, Piece piece)
    (some_ : pieces ≠ []) : splitComma (joined pieces) = pieces := by
  induction pieces with
  | nil => exact absurd rfl some_
  | cons piece rest ih =>
      have comma := (clean piece (.head _)).comma
      cases rest with
      | nil => exact splitComma_of_not_mem comma
      | cons next others =>
          rw [joined, splitComma_append comma,
            ih (fun piece mem => clean piece (.tail _ mem)) (List.cons_ne_nil _ _)]

omit [Host] in
theorem toList_intercalate (pieces : List (List Char)) :
    (",".intercalate (pieces.map String.ofList)).toList = joined pieces := by
  induction pieces with
  | nil => rfl
  | cons piece rest ih =>
      cases rest with
      | nil => rw [List.map_singleton, String.intercalate_singleton, String.toList_ofList, joined]
      | cons next others =>
          rw [List.map_cons] at ih
          rw [List.map_cons, List.map_cons, String.intercalate_cons_cons, String.toList_append,
            String.toList_append, ih, String.toList_ofList, joined, List.append_assoc]
          rfl

omit [Host] in
theorem splitArgs_joined {pieces : List (List Char)} (clean : ∀ piece ∈ pieces, Piece piece) :
    splitArgs (joined pieces) = pieces.map String.ofList := by
  cases pieces with
  | nil => rfl
  | cons piece rest =>
      rw [splitArgs, splitComma_joined clean (List.cons_ne_nil _ _)]
      congr 1
      have stripped : (piece :: rest).map strip = piece :: rest := by
        rw [List.map_congr_left (fun piece mem => (clean piece mem).strip), List.map_id']
      rw [stripped, List.filter_eq_self]
      intro piece mem
      cases piece with
      | nil => exact absurd rfl (clean [] mem).nonempty
      | cons _ _ => rfl

omit [Host] in
theorem exists_pieces (body : List Char) : ∃ pieces : List (List Char),
    splitArgs body = pieces.map String.ofList ∧ (∀ piece ∈ pieces, Piece piece) ∧
      ∀ piece ∈ pieces, ∀ char ∈ piece, char ∈ body := by
  refine ⟨((splitComma body).map strip).filter (fun piece => !piece.isEmpty), rfl, ?_, ?_⟩
  · intro piece mem
    rw [List.mem_filter, List.mem_map] at mem
    rcases mem with ⟨⟨text, listed, rfl⟩, some_⟩
    apply piece_strip _ (not_mem_splitComma listed)
    intro empty
    rw [empty] at some_
    cases some_
  · intro piece mem char inside
    rw [List.mem_filter, List.mem_map] at mem
    rcases mem with ⟨⟨text, listed, rfl⟩, _⟩
    exact mem_of_splitComma listed (mem_strip inside)

/-! ## Reading a canonical reference -/

omit [Host] in
theorem not_space_of_identStart {char : Char} (start : isIdentStart char = true) :
    isSpace char = false := by
  have letter : 65 ≤ char.toNat ∧ char.toNat ≤ 122 := by
    simp only [isIdentStart, Bool.or_eq_true, Bool.and_eq_true, decide_eq_true_eq, beq_iff_eq] at start
    rcases start with (upper | lower) | rfl
    · have low : 'A'.toNat ≤ char.toNat := upper.1
      have high : char.toNat ≤ 'Z'.toNat := upper.2
      rw [show 'A'.toNat = 65 from rfl] at low
      rw [show 'Z'.toNat = 90 from rfl] at high
      omega
    · have low : 'a'.toNat ≤ char.toNat := lower.1
      have high : char.toNat ≤ 'z'.toNat := lower.2
      rw [show 'a'.toNat = 97 from rfl] at low
      rw [show 'z'.toNat = 122 from rfl] at high
      omega
    · exact ⟨by decide, by decide⟩
  simp only [isSpace, Bool.or_eq_false_iff, Bool.and_eq_false_iff, decide_eq_false_iff_not, beq_eq_false_iff_ne]
  omega

structure Identifier (name : List Char) : Prop where
  opens : ∃ first word, name = first :: word ∧ isIdentStart first = true ∧
    ∀ char ∈ word, Host.isWord char = true

def Blank (text : List Char) : Prop := ∀ char ∈ text, isSpace char = true

/-- A reference in a string: a name, and the arguments in parentheses if there are any, with
white space around both. -/
inductive Written : List Char → String → List String → Prop
  | bare {before name after : List Char} : Blank before → Identifier name → Blank after →
      Written (before ++ (name ++ after)) (String.ofList name) []
  | listed {before name between body after : List Char} : Blank before → Identifier name →
      Blank between → '\n' ∉ body → Blank after →
      Written (before ++ (name ++ (between ++ '(' :: (body ++ ')' :: after)))) (String.ofList name)
        (splitArgs body)

/-- What the pattern relies on: `\w` matches neither white space nor a parenthesis. -/
structure WordClass : Prop where
  paren : Host.isWord '(' = false
  blank : ∀ char, isSpace char = true → Host.isWord char = false

omit [Host] in
theorem lstrip_append {before rest : List Char} (blank : Blank before) :
    lstrip (before ++ rest) = lstrip rest :=
  List.dropWhile_append_of_pos blank

omit [Host] in
theorem lstrip_of_blank {text : List Char} (blank : Blank text) : lstrip text = [] := by
  rw [← List.append_nil text, lstrip_append blank]
  rfl

omit [Host] in
theorem rstrip_closed {body after : List Char} (blank : Blank after) :
    (rstrip (body ++ ')' :: after)).reverse = ')' :: body.reverse := by
  have spaces : ∀ char ∈ after.reverse, isSpace char = true :=
    fun char mem => blank char (List.mem_reverse.mp mem)
  rw [rstrip, List.reverse_reverse, List.reverse_append, List.reverse_cons, List.append_assoc,
    List.dropWhile_append_of_pos spaces]
  exact List.dropWhile_cons_of_neg (by decide)

theorem matchPred_name {before word rest : List Char} {first : Char} (blank : Blank before)
    (start : isIdentStart first = true) (letters : ∀ char ∈ word, Host.isWord char = true)
    (stops : ∀ char ∈ rest.head?, Host.isWord char = false) :
    lstrip (before ++ (first :: word ++ rest)) = first :: (word ++ rest) ∧
      (word ++ rest).takeWhile Host.isWord = word ∧ (word ++ rest).dropWhile Host.isWord = rest := by
  have front : lstrip (before ++ (first :: word ++ rest)) = first :: (word ++ rest) := by
    rw [lstrip_append blank]
    exact List.dropWhile_cons_of_neg (Bool.eq_false_iff.mp (not_space_of_identStart start))
  rw [List.takeWhile_append_of_pos letters, List.dropWhile_append_of_pos letters]
  cases rest with
  | nil => exact ⟨front, List.append_nil word, rfl⟩
  | cons char others =>
      have stop := Bool.eq_false_iff.mp (stops char rfl)
      rw [List.takeWhile_cons_of_neg stop, List.dropWhile_cons_of_neg stop, List.append_nil]
      exact ⟨front, rfl, rfl⟩

theorem matchPred_bare {before name after : List Char} (blank : Blank before)
    (identifier : Identifier name) (blank_ : Blank after)
    (stops : ∀ char ∈ after.head?, Host.isWord char = false) :
    matchPred (before ++ (name ++ after)) = some (String.ofList name, []) := by
  rcases identifier.opens with ⟨first, word, rfl, start, letters⟩
  rcases matchPred_name blank start letters stops with ⟨front, taken, dropped⟩
  simp only [matchPred, front, if_pos start, taken, dropped, lstrip_of_blank blank_]

theorem matchPred_listed {before name between body after : List Char} (blank : Blank before)
    (identifier : Identifier name) (blank_ : Blank between) (line : '\n' ∉ body)
    (blank__ : Blank after)
    (stops : ∀ char ∈ (between ++ '(' :: (body ++ ')' :: after)).head?, Host.isWord char = false) :
    matchPred (before ++ (name ++ (between ++ '(' :: (body ++ ')' :: after)))) =
      some (String.ofList name, splitArgs body) := by
  rcases identifier.opens with ⟨first, word, rfl, start, letters⟩
  rcases matchPred_name blank start letters stops with ⟨front, taken, dropped⟩
  have opened : lstrip (between ++ '(' :: (body ++ ')' :: after)) =
      '(' :: (body ++ ')' :: after) := by
    rw [lstrip_append blank_]
    exact List.dropWhile_cons_of_neg (by decide)
  have line_ : '\n' ∉ body.reverse := fun mem => line (List.mem_reverse.mp mem)
  simp only [matchPred, front, if_pos start, taken, dropped, opened, rstrip_closed blank__,
    if_neg line_, List.reverse_reverse]

theorem matchPred_of_written (words : WordClass) {text : List Char} {name : String}
    {args : List String} (written : Written text name args) : matchPred text = some (name, args) := by
  cases written with
  | bare blank identifier blank_ =>
      exact matchPred_bare blank identifier blank_
        (fun char mem => words.blank char (blank_ char (List.mem_of_mem_head? mem)))
  | @listed _ _ between _ _ blank identifier blank_ line blank__ =>
      apply matchPred_listed blank identifier blank_ line blank__
      intro char mem
      cases between with
      | nil =>
          cases mem
          exact words.paren
      | cons space others =>
          cases mem
          exact words.blank char (blank_ char (.head _))

theorem matchPred_canonical (paren : Host.isWord '(' = false) {name : List Char}
    (identifier : Identifier name) {pieces : List (List Char)}
    (clean : ∀ piece ∈ pieces, Piece piece) (oneLine : ∀ piece ∈ pieces, '\n' ∉ piece) :
    matchPred (canonical (String.ofList name) (pieces.map String.ofList)).toList =
      some (String.ofList name, pieces.map String.ofList) := by
  have text : (canonical (String.ofList name) (pieces.map String.ofList)).toList =
      [] ++ (name ++ ([] ++ '(' :: (joined pieces ++ ')' :: []))) := by
    rw [canonical, String.toList_append, String.toList_append, String.toList_append,
      toList_intercalate, String.toList_ofList, List.append_assoc, List.append_assoc]
    rfl
  have line : '\n' ∉ joined pieces := by
    intro mem
    rcases mem_joined mem with comma | ⟨piece, listed, inside⟩
    · cases comma
    · exact oneLine piece listed inside
  have nothing : Blank [] := List.forall_mem_nil _
  rw [text, ← splitArgs_joined clean]
  apply matchPred_listed nothing identifier nothing line nothing
  intro char mem
  cases mem
  exact paren

omit [Host] in
theorem mem_takeWhile {keep : Char → Bool} {text : List Char} {char : Char}
    (mem : char ∈ text.takeWhile keep) : keep char = true :=
  List.all_eq_true.mp (List.all_takeWhile) char mem

omit [Host] in
theorem exists_lstrip (text : List Char) : ∃ before, Blank before ∧ text = before ++ lstrip text :=
  ⟨text.takeWhile isSpace, fun _ mem => mem_takeWhile mem, List.takeWhile_append_dropWhile.symm⟩

omit [Host] in
theorem exists_rstrip (text : List Char) : ∃ after, Blank after ∧ text = rstrip text ++ after := by
  rcases exists_lstrip text.reverse with ⟨before, blank, whole⟩
  refine ⟨before.reverse, fun char mem => blank char (List.mem_reverse.mp mem), ?_⟩
  rw [rstrip, ← List.reverse_append, ← List.reverse_eq_iff]
  exact whole

theorem written_of_matchPred {text : List Char} {name : String} {args : List String}
    (parsed : matchPred text = some (name, args)) : Written text name args := by
  rcases exists_lstrip text with ⟨before, blank, whole⟩
  rw [matchPred] at parsed
  split at parsed
  · cases parsed
  · rename_i first rest stripped
    split at parsed
    · rename_i start
      have identifier : Identifier (first :: rest.takeWhile Host.isWord) :=
        ⟨first, _, rfl, start, fun _ mem => mem_takeWhile mem⟩
      rcases exists_lstrip (rest.dropWhile Host.isWord) with ⟨between, blank_, later⟩
      have split_ : text = before ++ (first :: rest.takeWhile Host.isWord ++
          rest.dropWhile Host.isWord) := by
        rw [List.cons_append, List.takeWhile_append_dropWhile, ← stripped]
        exact whole
      split at parsed
      · rename_i ends
        cases parsed
        rw [ends, List.append_nil] at later
        rw [split_, later]
        exact .bare blank identifier blank_
      · rename_i more opened
        split at parsed
        · rename_i body closed
          split at parsed
          · cases parsed
          · rename_i line
            cases parsed
            rcases exists_rstrip more with ⟨after, blank__, end_⟩
            have inner : rstrip more = body.reverse ++ [')'] := by
              rw [← List.reverse_reverse (rstrip more), closed, List.reverse_cons]
            rw [inner, List.append_assoc] at end_
            rw [split_, later, opened, end_]
            exact .listed blank identifier blank_ (fun mem => line (List.mem_reverse.mp mem))
              blank__
        · cases parsed
      · cases parsed
    · cases parsed

theorem matchPred_iff (words : WordClass) {text : List Char} {name : String} {args : List String} :
    matchPred text = some (name, args) ↔ Written text name args :=
  ⟨written_of_matchPred, matchPred_of_written words⟩

theorem Written.clean {text : List Char} {name : String} {args : List String}
    (written : Written text name args) : ∃ (word : List Char) (pieces : List (List Char)),
      name = String.ofList word ∧ args = pieces.map String.ofList ∧ Identifier word ∧
      (∀ piece ∈ pieces, Piece piece) ∧ ∀ piece ∈ pieces, '\n' ∉ piece := by
  cases written with
  | bare _ identifier _ =>
      exact ⟨_, [], rfl, rfl, identifier, List.forall_mem_nil _,
        List.forall_mem_nil _⟩
  | @listed _ _ _ body _ _ identifier _ line _ =>
      rcases exists_pieces body with ⟨pieces, same, clean, inside⟩
      exact ⟨_, pieces, rfl, same, identifier, clean,
        fun piece listed mem => line (inside piece listed _ mem)⟩

theorem parsePredRef_pattern {value : Json} (object : ∀ fields, value ≠ .obj fields)
    (sequence : ∀ items, value ≠ .arr items) : parsePredRef (.value value) =
      (matchPred (pyStr value).toList).elim
        (.error (.valueError ("bad predicate ref " ++ Host.repr value))) .ok := by
  rw [parsePredRef]
  · cases matchPred (pyStr value).toList <;> rfl
  · exact object
  · exact sequence []
  · exact fun name args => sequence (name :: args)

omit [Host] in
theorem elim_eq_ok_iff {α : Type} {found : Option α} {error : PyError} {value : α} :
    found.elim (.error error) Except.ok = .ok value ↔ found = some value := by
  cases found with
  | none =>
      constructor <;> intro never <;> cases never
  | some held =>
      constructor <;> intro same <;> cases same <;> rfl

theorem parsePredRef_str {ref : String} {name : String} {args : List String} :
    parsePredRef (refOfStr ref) = .ok (name, args) ↔ matchPred ref.toList = some (name, args) := by
  rw [refOfStr, parsePredRef_pattern (fun _ never => by cases never)
    (fun _ never => by cases never)]
  exact elim_eq_ok_iff

theorem predRefStr_canonical (paren : Host.isWord '(' = false) {ref atom : String}
    (read : predRefStr (refOfStr ref) = .ok atom) : predRefStr (refOfStr atom) = .ok atom := by
  rcases of_bind read with ⟨⟨name, args⟩, parsed, same⟩
  have text : canonical name args = atom := Except.ok.inj same
  rcases (written_of_matchPred (parsePredRef_str.mp parsed)).clean with
    ⟨word, pieces, rfl, rfl, identifier, clean, oneLine⟩
  have again := matchPred_canonical paren identifier clean oneLine
  rw [text] at again
  rw [predRefStr, parsePredRef_str.mpr again]
  exact congrArg Except.ok text

end Protocol
end PhysicalHarness
