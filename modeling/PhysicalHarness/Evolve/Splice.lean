import PhysicalHarness.Evolve.Workspace
import PhysicalHarness.Lib.Occurrence

namespace PhysicalHarness
namespace Evolve

open Python Fallible Occurrence

/-!
# What an edit replaces

An edit replaces the one occurrence of a snippet, or, where the snippet does not occur
once, the one run of whole lines that reads like it without its indentation.  The
occurrences are counted one behind the other, so two that overlap count as one.  The new
lines are moved to the indentation of the file; a line that cannot be moved left that far
goes to the margin.
-/

theorem countOf_left (old text : List Char) (left : Nat) :
    countOf old text left = countOf old (text.drop left) 0 := by
  induction text generalizing left with
  | nil =>
      rw [List.drop_nil]
      cases left <;> rfl
  | cons char rest ih =>
      cases left with
      | zero => rfl
      | succ left => exact ih left

variable {text old line new fresh : List Char} {lines : List (List Char)}

theorem countOf_of_starting {char : Char} (starts : old.isPrefixOf (char :: text) = true)
    (some_ : old ≠ []) :
    countOf old (char :: text) 0 = 1 + countOf old ((char :: text).drop old.length) 0 := by
  rw [countOf, if_pos starts, countOf_left]
  cases old with
  | nil => exact absurd rfl some_
  | cons first others => rfl

theorem countOf_of_not_starting {char : Char} (other : ¬ old.isPrefixOf (char :: text) = true) :
    countOf old (char :: text) 0 = countOf old text 0 := by
  rw [countOf, if_neg other]

theorem not_occursAt_nil (some_ : old ≠ []) (index : Nat) : ¬ OccursAt old [] index := by
  rw [OccursAt, List.drop_nil]
  exact fun starts => some_ (List.prefix_nil.mp starts)

theorem not_occursAt_of_countOf (some_ : old ≠ []) (none_ : countOf old text 0 = 0) (index : Nat) :
    ¬ OccursAt old text index := by
  induction text generalizing index with
  | nil => exact not_occursAt_nil some_ index
  | cons char rest ih =>
      by_cases starts : old.isPrefixOf (char :: rest) = true
      · rw [countOf_of_starting starts some_] at none_
        omega
      · rw [countOf_of_not_starting starts] at none_
        cases index with
        | zero => exact fun here => starts (List.isPrefixOf_iff_prefix.mpr here)
        | succ index => exact ih none_ index

/-- Where one occurrence is counted, it is the first one, and what occurs beside it overlaps it. -/
theorem firstAt_of_countOf (some_ : old ≠ []) (once : countOf old text 0 = 1) :
    ∃ start, FirstAt old text start ∧
      (∀ later, OccursAt old text later → later < start + old.length) ∧
      ∀ new, replaceFirst old new text = text.take start ++ new ++ text.drop (start + old.length) := by
  induction text with
  | nil => cases once
  | cons char rest ih =>
      by_cases starts : old.isPrefixOf (char :: rest) = true
      · rw [countOf_of_starting starts some_] at once
        have nothing : countOf old ((char :: rest).drop old.length) 0 = 0 := by omega
        refine ⟨0, ⟨List.isPrefixOf_iff_prefix.mp starts, fun _ _ => Nat.zero_le _⟩, ?_, ?_⟩
        · intro later here
          by_contra far
          have behind : old.length + (later - old.length) = later := by omega
          rw [← behind, ← occursAt_drop] at here
          exact not_occursAt_of_countOf some_ nothing _ here
        · intro new
          rw [replaceFirst, if_pos starts, List.take_zero, List.nil_append, Nat.zero_add]
      · rw [countOf_of_not_starting starts] at once
        rcases ih once with ⟨start, first, last, replaced⟩
        refine ⟨start + 1, ⟨first.1, ?_⟩, ?_, ?_⟩
        · intro earlier here
          cases earlier with
          | zero => exact absurd (List.isPrefixOf_iff_prefix.mpr here) starts
          | succ earlier => exact Nat.succ_le_succ (first.2 earlier here)
        · intro later here
          cases later with
          | zero => omega
          | succ later =>
              have near := last later here
              omega
        · intro new
          have shift : start + 1 + old.length = start + old.length + 1 := by omega
          rw [replaceFirst, if_neg starts, replaced new, shift, List.take_succ_cons,
            List.drop_succ_cons]
          rfl

/-! ## Lines -/

def linesAbove (lines : List (List Char)) : List Char := lines.flatMap (fun line => line ++ ['\n'])

def linesBelow (lines : List (List Char)) : List Char := lines.flatMap (fun line => '\n' :: line)

theorem linesBelow_cons (line : List Char) (rest : List (List Char)) :
    linesBelow (line :: rest) = '\n' :: (line ++ linesBelow rest) := by
  rw [linesBelow, List.flatMap_cons]
  rfl

theorem joinLines_cons (line : List Char) (rest : List (List Char)) :
    joinLines (line :: rest) = line ++ linesBelow rest := by
  induction rest generalizing line with
  | nil => simp [joinLines, linesBelow, List.intercalate]
  | cons next others ih =>
      have joined : joinLines (line :: next :: others) = line ++ ('\n' :: joinLines (next :: others)) := by
        simp [joinLines, List.intercalate]
      rw [joined, ih next, linesBelow_cons]

theorem joinLines_between (above : List (List Char)) (some_ : lines ≠ [])
    (below : List (List Char)) :
    joinLines (above ++ lines ++ below) = linesAbove above ++ joinLines lines ++ linesBelow below := by
  induction above with
  | nil =>
      cases lines with
      | nil => exact absurd rfl some_
      | cons line rest =>
          change joinLines (line :: (rest ++ below)) = joinLines (line :: rest) ++ linesBelow below
          rw [joinLines_cons, joinLines_cons, linesBelow, List.flatMap_append, List.append_assoc]
          rfl
  | cons line rest ih =>
      have more : ∀ others : List (List Char), others ≠ [] →
          joinLines (line :: others) = line ++ ['\n'] ++ joinLines others := by
        intro others exist
        cases others with
        | nil => exact absurd rfl exist
        | cons next later =>
            rw [joinLines_cons, joinLines_cons, linesBelow_cons, List.append_assoc]
            rfl
      have exist : rest ++ lines ++ below ≠ [] := by
        intro empty
        exact some_ (List.append_eq_nil_iff.mp (List.append_eq_nil_iff.mp empty).1).2
      change joinLines (line :: (rest ++ lines ++ below)) = _
      rw [more _ exist, ih, linesAbove, linesAbove, List.flatMap_cons, List.append_assoc,
        List.append_assoc, List.append_assoc, List.append_assoc, List.append_assoc]

theorem splitAt_ne_nil (mark : Char) (text : List Char) : splitAt mark text ≠ [] := by
  cases text with
  | nil => exact List.cons_ne_nil _ _
  | cons char rest =>
      rw [splitAt]
      split_ifs
      · exact List.cons_ne_nil _ _
      · split <;> exact List.cons_ne_nil _ _

theorem splitAt_cons_of_ne {mark char : Char} (ne : char ≠ mark) {piece : List Char}
    {others : List (List Char)} (split_ : splitAt mark text = piece :: others) :
    splitAt mark (char :: text) = (char :: piece) :: others := by
  rw [splitAt, if_neg ne, split_]

theorem not_mem_of_splitAt {mark : Char} (listed : line ∈ splitAt mark text) :
    mark ∉ line := by
  induction text generalizing line with
  | nil =>
      rw [List.mem_singleton.mp listed]
      exact List.not_mem_nil
  | cons char rest ih =>
      by_cases ends : char = mark
      · rw [splitAt, if_pos ends] at listed
        rcases List.mem_cons.mp listed with rfl | later
        · exact List.not_mem_nil
        · exact ih later
      · cases pieces : splitAt mark rest with
        | nil => exact absurd pieces (splitAt_ne_nil mark rest)
        | cons piece others =>
            rw [splitAt_cons_of_ne ends pieces] at listed
            rw [pieces] at ih
            rcases List.mem_cons.mp listed with rfl | later
            · intro found
              rcases List.mem_cons.mp found with same | inside
              · exact ends same.symm
              · exact ih (.head _) inside
            · exact ih (.tail _ later)

theorem joinLines_splitAt (text : List Char) : joinLines (splitAt '\n' text) = text := by
  induction text with
  | nil => rfl
  | cons char rest ih =>
      cases pieces : splitAt '\n' rest with
      | nil => exact absurd pieces (splitAt_ne_nil '\n' rest)
      | cons piece others =>
          rw [pieces] at ih
          by_cases ends : char = '\n'
          · rw [splitAt, if_pos ends, pieces, joinLines_cons, linesBelow_cons, ends, ← joinLines_cons, ih]
            rfl
          · rw [splitAt_cons_of_ne ends pieces, joinLines_cons]
            change char :: (piece ++ linesBelow others) = _
            rw [← joinLines_cons, ih]

theorem splitAt_append (clean : '\n' ∉ line) (rest : List Char) :
    splitAt '\n' (line ++ '\n' :: rest) = line :: splitAt '\n' rest := by
  induction line with
  | nil =>
      rw [List.nil_append, splitAt]
      exact if_pos rfl
  | cons char others ih =>
      have ne : char ≠ '\n' := fun same => clean (same ▸ List.mem_cons_self)
      have later : '\n' ∉ others := fun mem => clean (.tail _ mem)
      exact splitAt_cons_of_ne ne (ih later)

theorem splitAt_of_not_mem (clean : '\n' ∉ line) : splitAt '\n' line = [line] := by
  induction line with
  | nil => rfl
  | cons char others ih =>
      have ne : char ≠ '\n' := fun same => clean (same ▸ List.mem_cons_self)
      have later : '\n' ∉ others := fun mem => clean (.tail _ mem)
      exact splitAt_cons_of_ne ne (ih later)

theorem splitAt_joinLines (some_ : lines ≠ []) (clean : ∀ line ∈ lines, '\n' ∉ line) :
    splitAt '\n' (joinLines lines) = lines := by
  induction lines with
  | nil => exact absurd rfl some_
  | cons line rest ih =>
      have here := clean line (.head _)
      cases rest with
      | nil =>
          rw [joinLines_cons, linesBelow, List.flatMap_nil, List.append_nil]
          exact splitAt_of_not_mem here
      | cons next others =>
          have later := ih (List.cons_ne_nil _ _)
            (fun line mem => clean line (.tail _ mem))
          rw [joinLines_cons] at later
          rw [joinLines_cons, linesBelow_cons, splitAt_append here, later]

/-! ## What is claimed of an edit -/

/-- `text.count(old) if old else 0`. -/
def occurrences (old text : List Char) : Nat := if old.isEmpty then 0 else countOf old text 0

/-- The lines from here on read like those of the snippet, up to the blanks around them. -/
def RunAt (text old : List Char) (start : Nat) : Prop :=
  (((splitAt '\n' text).map strip).drop start).take (splitAt '\n' old).length =
    (splitAt '\n' old).map strip

def OneRun (text old : List Char) : Prop :=
  ∀ first second, RunAt text old first → RunAt text old second → first = second

/-- The piece begins where a line does and ends where a line does. -/
def WholeLines (text : List Char) (start stop : Nat) : Prop :=
  (start = 0 ∨ text[start - 1]? = some '\n') ∧ (stop = text.length ∨ text[stop]? = some '\n')

/-- A line that is not blank is moved by the shift; a blank one is kept. -/
def Moved (shift : Int) (line fresh : List Char) : Prop :=
  if (strip line).isEmpty then fresh = line
  else (∃ width : Nat, shift = width ∧ fresh = List.replicate width ' ' ++ line) ∨
    ∃ margin : List Char, shift = -(margin.length : Int) ∧ (∀ char ∈ margin, isSpace char = true) ∧
      line = margin ++ fresh

/-- The first occurrence is replaced, and it is the only one, or else the only run of lines. -/
def ReplacesOccurrence (old new text result : List Char) : Prop :=
  ∃ start, FirstAt old text start ∧
    result = text.take start ++ new ++ text.drop (start + old.length) ∧
    ((∀ other, OccursAt old text other → other = start) ∨
      WholeLines text start (start + old.length) ∧ OneRun text old)

/-- The only run of lines is replaced by the new lines, moved by one shift. -/
def ReplacesRun (old new text result : List Char) : Prop :=
  ∃ above matched below fresh shift,
    splitAt '\n' text = above ++ matched ++ below ∧
    text = linesAbove above ++ joinLines matched ++ linesBelow below ∧
    result = linesAbove above ++ joinLines fresh ++ linesBelow below ∧
    matched.map strip = (splitAt '\n' old).map strip ∧
    (∀ other, RunAt text old other → other = above.length) ∧
    List.Forall₂ (Moved shift) (splitAt '\n' new) fresh

/-- What an edit replaces: an occurrence where one is counted, and a run of lines elsewhere. -/
def Faithful (old new text result : List Char) : Prop :=
  (occurrences old text = 1 → ReplacesOccurrence old new text result) ∧
    (occurrences old text ≠ 1 → ReplacesRun old new text result)

def leftward (text old : List Char) (start : Nat) : Nat :=
  let olds := splitAt '\n' old
  let first := ((olds.map strip).findIdx? (fun line => !line.isEmpty)).getD 0
  indent (olds.getD first []) - indent ((splitAt '\n' text).getD (start + first) [])

/-- No line that is not blank is indented less than that, or all are indented alike. -/
def Level (new : List Char) (left : Nat) : Prop :=
  (∀ line ∈ splitAt '\n' new, (strip line).isEmpty = false → left ≤ indent line) ∨
    ∀ line ∈ splitAt '\n' new, ∀ other ∈ splitAt '\n' new, (strip line).isEmpty = false →
      (strip other).isEmpty = false → indent line = indent other

/-- Where an edit does what is claimed: no two occurrences overlap, unless the first is the only
run of lines; and the new lines can be moved together. -/
structure Editable (old new text : List Char) : Prop where
  apart : occurrences old text = 1 → Lapped old text →
    ∃ start, FirstAt old text start ∧ WholeLines text start (start + old.length) ∧ OneRun text old
  level : occurrences old text ≠ 1 → ∀ start, RunAt text old start → Level new (leftward text old start)

theorem occurrences_eq_one (once : occurrences old text = 1) :
    old ≠ [] ∧ countOf old text 0 = 1 := by
  rw [occurrences] at once
  split at once
  · cases once
  · rename_i some_
    exact ⟨fun empty => some_ (List.isEmpty_iff.mpr empty), once⟩

theorem replacesOccurrence_iff (once : occurrences old text = 1) :
    ReplacesOccurrence old new text (replaceFirst old new text) ↔
      (Lapped old text → ∃ start, FirstAt old text start ∧
        WholeLines text start (start + old.length) ∧ OneRun text old) := by
  rcases occurrences_eq_one once with ⟨some_, counted⟩
  rcases firstAt_of_countOf some_ counted with ⟨start, first, last, replaced⟩
  constructor
  · intro replaces lapped
    rcases replaces with ⟨here, firstHere, _, only | lined⟩
    · rw [firstHere.unique first] at only
      exact absurd lapped ((only_iff_not_lapped first last).mp only)
    · exact ⟨here, firstHere, lined⟩
  · intro lined
    refine ⟨start, first, replaced new, ?_⟩
    by_cases lapped : Lapped old text
    · rcases lined lapped with ⟨here, firstHere, whole⟩
      rw [firstHere.unique first] at whole
      exact Or.inr whole
    · exact Or.inl ((only_iff_not_lapped first last).mpr lapped)

/-! ## A run of lines -/

def moveLine (there here : Nat) (line : List Char) : List Char :=
  if (strip line).isEmpty then line
  else if here < there then List.replicate (there - here) ' ' ++ line
  else line.drop (min (here - there) (indent line))

def amount (there here : Nat) (line : List Char) : Int :=
  if here < there then ((there - here : Nat) : Int) else -((min (here - there) (indent line) : Nat) : Int)

theorem indent_eq (line : List Char) : indent line = (line.takeWhile isSpace).length := by
  have whole := congrArg List.length (@List.takeWhile_append_dropWhile Char isSpace line)
  rw [List.length_append] at whole
  rw [indent, lstrip]
  omega

theorem indent_le (line : List Char) : indent line ≤ line.length := Nat.sub_le _ _

theorem isSpace_of_mem_take {width : Nat} (within : width ≤ indent line) {char : Char}
    (mem : char ∈ line.take width) : isSpace char = true := by
  rw [indent_eq] at within
  have margin : line.take width = (line.takeWhile isSpace).take width := by
    have whole : line.takeWhile isSpace ++ line.dropWhile isSpace = line :=
      List.takeWhile_append_dropWhile
    rw [← List.take_append_of_le_length within, whole]
  rw [margin] at mem
  exact List.all_eq_true.mp List.all_takeWhile char (List.mem_of_mem_take mem)

theorem moved_moveLine (there here : Nat) :
    Moved (amount there here line) line (moveLine there here line) := by
  rw [Moved, moveLine]
  split_ifs with blank right
  · rfl
  · left
    exact ⟨there - here, if_pos right, rfl⟩
  · right
    have within := Nat.min_le_right (here - there) (indent line)
    refine ⟨line.take (min (here - there) (indent line)), ?_, ?_, (List.take_append_drop _ _).symm⟩
    · rw [amount, if_neg right, List.length_take, Nat.min_eq_left (within.trans (indent_le line))]
    · intro char mem
      exact isSpace_of_mem_take within mem

theorem Moved.length {shift : Int} (moved : Moved shift line fresh)
    (solid : (strip line).isEmpty = false) : (fresh.length : Int) = line.length + shift := by
  rw [Moved, solid, if_neg Bool.false_ne_true] at moved
  rcases moved with ⟨width, same, rfl⟩ | ⟨margin, same, _, rfl⟩
  · rw [List.length_append, List.length_replicate, same]
    omega
  · rw [List.length_append, same]
    omega

theorem Moved.unique {left right : Int} (first : Moved left line fresh)
    (second : Moved right line fresh) (solid : (strip line).isEmpty = false) : left = right := by
  have here := first.length solid
  have there := second.length solid
  omega

theorem Moved.not_mem {shift : Int} (moved : Moved shift line fresh) (clean : '\n' ∉ line) :
    '\n' ∉ fresh := by
  rw [Moved] at moved
  split at moved
  · rw [moved]
    exact clean
  · rcases moved with ⟨width, _, rfl⟩ | ⟨margin, _, _, rfl⟩
    · intro mem
      rcases List.mem_append.mp mem with blank | inside
      · exact absurd (List.eq_of_mem_replicate blank) (by decide)
      · exact clean inside
    · exact fun mem => clean (List.mem_append_right _ mem)

theorem moved_iff {there here : Nat} :
    (∃ shift, List.Forall₂ (Moved shift) lines (lines.map (moveLine there here))) ↔
      ∀ line ∈ lines, ∀ other ∈ lines, (strip line).isEmpty = false → (strip other).isEmpty = false →
        amount there here line = amount there here other := by
  constructor
  · intro moved line mem other otherMember solid otherSolid
    rcases moved with ⟨shift, moved⟩
    have each : ∀ line ∈ lines, Moved shift line (moveLine there here line) :=
      List.forall₂_same.mp (List.forall₂_map_right_iff.mp moved)
    rw [← (each line mem).unique (moved_moveLine there here) solid]
    exact (each other otherMember).unique (moved_moveLine there here) otherSolid
  · intro even
    by_cases solid : ∃ line ∈ lines, (strip line).isEmpty = false
    · rcases solid with ⟨line, mem, solid⟩
      refine ⟨amount there here line, List.forall₂_map_right_iff.mpr (List.forall₂_same.mpr ?_)⟩
      intro other otherMember
      by_cases blank : (strip other).isEmpty = false
      · rw [even line mem other otherMember solid blank]
        exact moved_moveLine there here
      · have empty := Bool.eq_true_of_not_eq_false blank
        rw [Moved, moveLine, if_pos empty, if_pos empty]
    · refine ⟨0, List.forall₂_map_right_iff.mpr (List.forall₂_same.mpr ?_)⟩
      intro other otherMember
      have empty := Bool.eq_true_of_not_eq_false (fun filled => solid ⟨other, otherMember, filled⟩)
      rw [Moved, moveLine, if_pos empty, if_pos empty]

theorem level_iff {there here : Nat} :
    (∀ line ∈ splitAt '\n' new, ∀ other ∈ splitAt '\n' new, (strip line).isEmpty = false →
      (strip other).isEmpty = false → amount there here line = amount there here other) ↔
      Level new (here - there) := by
  by_cases right : here < there
  · have none_ : here - there = 0 := by omega
    constructor
    · intro _
      exact Or.inl (fun line _ _ => none_ ▸ Nat.zero_le _)
    · intro _ line _ other _ _ _
      rw [amount, if_pos right, amount, if_pos right]
  · have amounts : ∀ line, amount there here line =
        -((min (here - there) (indent line) : Nat) : Int) := fun line => if_neg right
    constructor
    · intro even
      by_cases reach : ∀ line ∈ splitAt '\n' new, (strip line).isEmpty = false →
          here - there ≤ indent line
      · exact Or.inl reach
      · simp only [not_forall] at reach
        rcases reach with ⟨line, mem, solid, short⟩
        have all : ∀ other ∈ splitAt '\n' new, (strip other).isEmpty = false →
            indent other = indent line := by
          intro other otherMember otherSolid
          have same := even line mem other otherMember solid otherSolid
          rw [amounts, amounts] at same
          omega
        refine Or.inr ?_
        intro first firstMember second secondMember firstSolid secondSolid
        rw [all first firstMember firstSolid, all second secondMember secondSolid]
    · intro level line mem other otherMember solid otherSolid
      rw [amounts, amounts]
      rcases level with reach | alike
      · have first := reach line mem solid
        have second := reach other otherMember otherSolid
        omega
      · rw [alike line mem other otherMember solid otherSolid]

theorem shifted_eq (lines old new : List (List Char)) (start : Nat) :
    shifted lines old new start = new.map
      (moveLine
        (indent (lines.getD (start + ((old.map strip).findIdx? (fun line => !line.isEmpty)).getD 0) []))
        (indent (old.getD (((old.map strip).findIdx? (fun line => !line.isEmpty)).getD 0) []))) := rfl

theorem runAt_of_retypedAt {start : Nat}
    (found : retypedAt (splitAt '\n' text) (splitAt '\n' old) = [start]) :
    RunAt text old start ∧ start + (splitAt '\n' old).length ≤ (splitAt '\n' text).length ∧
      ∀ other, RunAt text old other → other = start := by
  have some_ : 0 < (splitAt '\n' old).length := List.length_pos_iff.mpr (splitAt_ne_nil _ _)
  have within : ∀ other, RunAt text old other →
      other + (splitAt '\n' old).length ≤ (splitAt '\n' text).length := by
    intro other run
    have lengths := congrArg List.length run
    rw [List.length_take, List.length_drop, List.length_map, List.length_map] at lengths
    omega
  rw [retypedAt] at found
  split at found
  · cases found
  · have members : ∀ other, RunAt text old other → other = start := by
      intro other run
      have fits := within other run
      apply List.mem_singleton.mp
      rw [← found]
      exact List.mem_filter.mpr ⟨List.mem_range.mpr (by omega), decide_eq_true run⟩
    have here : start ∈ [start] := .head _
    rw [← found] at here
    have read := of_decide_eq_true (List.mem_filter.mp here).2
    have run : RunAt text old start := read
    exact ⟨run, within start run, members⟩

theorem replacesRun_iff {result : List Char} {start : Nat}
    (found : retypedAt (splitAt '\n' text) (splitAt '\n' old) = [start])
    (edited : result = joinLines ((splitAt '\n' text).take start ++
      shifted (splitAt '\n' text) (splitAt '\n' old) (splitAt '\n' new) start ++
      (splitAt '\n' text).drop (start + (splitAt '\n' old).length))) :
    ReplacesRun old new text result ↔
      ∀ start, RunAt text old start → Level new (leftward text old start) := by
  rcases runAt_of_retypedAt found with ⟨run, fits, only⟩
  have exist : shifted (splitAt '\n' text) (splitAt '\n' old) (splitAt '\n' new) start ≠ [] := by
    rw [shifted_eq]
    exact fun empty => splitAt_ne_nil '\n' new (List.map_eq_nil_iff.mp empty)
  rw [joinLines_between _ exist] at edited
  have level : Level new (leftward text old start) ↔
      ∃ shift, List.Forall₂ (Moved shift) (splitAt '\n' new)
        (shifted (splitAt '\n' text) (splitAt '\n' old) (splitAt '\n' new) start) := by
    rw [shifted_eq, moved_iff, level_iff]
    rfl
  constructor
  · intro replaces other runOther
    rw [only other runOther, level]
    rcases replaces with ⟨above, matched, below, fresh, shift, lines, _, result_, reads, unique, moved⟩
    have length : above.length = start := (unique start run).symm
    have matches_ : matched.length = (splitAt '\n' old).length := by
      have lengths := congrArg List.length reads
      rw [List.length_map, List.length_map] at lengths
      exact lengths
    have first : (splitAt '\n' text).take start = above := by
      rw [lines, List.append_assoc, ← length, List.take_left]
    have last : (splitAt '\n' text).drop (start + (splitAt '\n' old).length) = below := by
      rw [lines, ← length, ← matches_, ← List.length_append, List.drop_left]
    rw [first, last, result_] at edited
    have same := List.append_cancel_left (List.append_cancel_right edited)
    have cleanNew : ∀ line ∈ splitAt '\n' new, '\n' ∉ line := fun _ => not_mem_of_splitAt
    have cleanFresh : ∀ line ∈ fresh, '\n' ∉ line := by
      intro line mem
      rcases exists_left_of_forall₂ moved mem with ⟨source, listed, how⟩
      exact how.not_mem (cleanNew source listed)
    have cleanShifted : ∀ line ∈ shifted (splitAt '\n' text) (splitAt '\n' old)
        (splitAt '\n' new) start, '\n' ∉ line := by
      intro line mem
      rw [shifted_eq] at mem
      rcases List.mem_map.mp mem with ⟨source, listed, rfl⟩
      exact (moved_moveLine _ _).not_mem (cleanNew source listed)
    have nonempty : fresh ≠ [] := by
      rintro rfl
      exact splitAt_ne_nil '\n' new (List.length_eq_zero_iff.mp moved.length_eq)
    refine ⟨shift, ?_⟩
    rw [← splitAt_joinLines exist cleanShifted, ← same, splitAt_joinLines nonempty cleanFresh]
    exact moved
  · intro everywhere
    rcases level.mp (everywhere start run) with ⟨shift, moved⟩
    have pieces : splitAt '\n' text = (splitAt '\n' text).take start ++
        ((splitAt '\n' text).drop start).take (splitAt '\n' old).length ++
        (splitAt '\n' text).drop (start + (splitAt '\n' old).length) := by
      rw [List.append_assoc, ← List.drop_drop, List.take_append_drop, List.take_append_drop]
    have some_ : ((splitAt '\n' text).drop start).take (splitAt '\n' old).length ≠ [] := by
      intro empty
      have lengths := congrArg List.length empty
      have exist_ : 0 < (splitAt '\n' old).length := List.length_pos_iff.mpr (splitAt_ne_nil _ _)
      rw [List.length_take, List.length_drop, List.length_nil] at lengths
      omega
    refine ⟨_, _, _, _, shift, pieces, ?_, edited, ?_, ?_, moved⟩
    · rw [← joinLines_between _ some_, ← pieces, joinLines_splitAt]
    · rw [RunAt] at run
      rw [List.map_take, List.map_drop, run]
    · intro other runOther
      rw [List.length_take, Nat.min_eq_left (by omega)]
      exact only other runOther

theorem editText_faithful_iff {rel : String} {result : List Char}
    (edited : editText rel old new text = .ok result) :
    Faithful old new text result ↔ Editable old new text := by
  rw [editText] at edited
  split at edited
  · cases edited
  have counted : (if old.isEmpty then 0 else countOf old text 0) = occurrences old text := rfl
  by_cases once : occurrences old text = 1
  · rw [counted, if_pos once] at edited
    cases edited
    constructor
    · intro faithful
      exact ⟨fun _ => (replacesOccurrence_iff once).mp (faithful.1 once), fun other => absurd once other⟩
    · intro editable
      exact ⟨fun _ => (replacesOccurrence_iff once).mpr (editable.apart once),
        fun other => absurd once other⟩
  · rw [counted, if_neg once] at edited
    split at edited
    · rename_i start found
      have run := replacesRun_iff found (Except.ok.inj edited).symm
      constructor
      · intro faithful
        exact ⟨fun other => absurd other once, fun _ => run.mp (faithful.2 once)⟩
      · intro editable
        exact ⟨fun other => absurd other once, fun _ => run.mpr (editable.level once)⟩
    · cases edited

section

variable {β : Type} [Host] [Toolbox β] {space : Workspace}

theorem edited_of_edit {rel old new message : String} {storage next : Storage β}
    (ran : edit space rel old new storage = .ok (next, message)) :
    ∃ path text result, resolve space β rel = .ok path ∧ readText path storage = .ok text ∧
      editText rel old.toList new.toList text.toList = .ok result ∧
      next.files = fun file =>
        if file = path then some (Toolbox.encode (String.ofList result)) else storage.files file := by
  rcases of_bind ran with ⟨path, resolved, ran⟩
  split at ran
  · cases ran
  · split at ran
    · cases ran
    · rcases of_bind ran with ⟨text, read, ran⟩
      rcases of_bind ran with ⟨result, edited, ran⟩
      rcases written_of_writeText ran with ⟨_, files, _⟩
      exact ⟨path, text, result, resolved, read, edited, files⟩

theorem files_of_write_error {rel content : String} {storage : Storage β} {error : ToolError}
    (raised : (write space rel content storage).2 = .error error) :
    (write space rel content storage).1.files = storage.files := by
  rw [write] at raised ⊢
  split at raised
  · rfl
  · split at raised
    · rename_i refused
      rw [if_pos refused]
    · rename_i allowed
      rw [if_neg allowed]
      split at raised
      · rfl
      · rename_i made makes
        rw [mkdir] at makes
        split at makes
        · cases makes
        · cases makes
          split at raised
          · rfl
          · cases raised

/-- What an edit that writes replaces, and what a tool that raises leaves. -/
theorem edit_faithful_iff (space : Workspace) (storage : Storage β) :
    (∀ rel old new next message, edit space rel old new storage = .ok (next, message) →
      ∃ path text result, resolve space β rel = .ok path ∧ readText path storage = .ok text ∧
        (next.files = fun file =>
          if file = path then some (Toolbox.encode (String.ofList result)) else storage.files file) ∧
        (Faithful old.toList new.toList text.toList result ↔
          Editable old.toList new.toList text.toList)) ∧
    (∀ rel old new error, (runTool space storage (.edit rel old new)).2 = .error error →
      (runTool space storage (.edit rel old new)).1.files = storage.files) ∧
    (∀ rel content error, (runTool space storage (.write rel content)).2 = .error error →
      (runTool space storage (.write rel content)).1.files = storage.files) := by
  refine ⟨?_, ?_, ?_⟩
  · intro rel old new next message ran
    rcases edited_of_edit ran with ⟨path, text, result, resolved, read, edited, files⟩
    exact ⟨path, text, result, resolved, read, files, editText_faithful_iff edited⟩
  · intro rel old new error raised
    rw [runTool] at raised ⊢
    cases ran : edit space rel old new storage with
    | error error => rfl
    | ok result =>
        rw [ran] at raised
        cases raised
  · intro rel content error raised
    exact files_of_write_error raised

end

section

local instance lineHost : Host := asciiHost

/-- A file whose bytes are its text, and a compiler that refuses nothing. -/
local instance lineToolbox : Toolbox String where
  resolve := some
  encode := id
  decode := some
  syntaxError := fun _ => none
  digest := id

def lineSpace : Workspace := ⟨["copy"], ["card"], []⟩

def lineStorage (text : String) : Storage String where
  files := fun file => if file = ["copy", "drivers.py"] then some text else none
  dirs := fun dir => decide (dir = ["copy"])

/-- A snippet that was typed without its indentation. -/
theorem edit_faithful_typed :
    ∃ next message, edit lineSpace "drivers.py" "if a:\ngo()" "if b:\ngo()"
        (lineStorage "if a:\n    go()\n    go()") = .ok (next, message) ∧
      next.files ["copy", "drivers.py"] = some "if b:\ngo()\n    go()" ∧
      ∃ path text result, resolve lineSpace String "drivers.py" = .ok path ∧
        readText path (lineStorage "if a:\n    go()\n    go()") = .ok text ∧
        (next.files = fun file => if file = path then some (String.ofList result)
          else (lineStorage "if a:\n    go()\n    go()").files file) ∧
        (Faithful "if a:\ngo()".toList "if b:\ngo()".toList text.toList result ↔
          Editable "if a:\ngo()".toList "if b:\ngo()".toList text.toList) :=
  ⟨_, _, rfl, by decide +kernel, (edit_faithful_iff lineSpace _).1 _ _ _ _ _ rfl⟩

/-- The first of two occurrences that overlap is replaced. -/
theorem edit_lapped :
    ∃ next message, edit lineSpace "drivers.py" "--" "+" (lineStorage "x = ---1") = .ok (next, message) ∧
      next.files ["copy", "drivers.py"] = some "x = +-1" ∧
      ¬ Faithful "--".toList "+".toList "x = ---1".toList "x = +-1".toList := by
  refine ⟨_, _, rfl, by decide +kernel, ?_⟩
  intro faithful
  have edited : editText "drivers.py" "--".toList "+".toList "x = ---1".toList =
      .ok "x = +-1".toList := rfl
  have editable := (editText_faithful_iff edited).mp faithful
  have lapped : Lapped "--".toList "x = ---1".toList :=
    ⟨4, 5, List.isPrefixOf_iff_prefix.mp rfl, List.isPrefixOf_iff_prefix.mp rfl, by decide, by decide⟩
  rcases editable.apart rfl lapped with ⟨start, first, whole, _⟩
  rcases whole.1 with rfl | ended
  · have here : "--".toList <+: "x = ---1".toList := first.1
    exact absurd here (by decide)
  · have member := List.mem_of_getElem? ended
    exact absurd member (by decide)

end

end Evolve
end PhysicalHarness
