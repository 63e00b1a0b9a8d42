import PhysicalHarness.Python.JsonCodec

namespace PhysicalHarness
namespace Python
namespace JsonText

/-!
# Texts of one line

With `ensure_ascii` every character of a printed value is printable ASCII, up to
the white space of the style.  A style without line breaks prints one line.
-/

def isPrintable (char : Char) : Bool := 0x20 ≤ char.toNat && char.toNat ≤ 0x7e

def Printable (text : List Char) : Prop := ∀ char ∈ text, isPrintable char = true

theorem printable_append {left right : List Char} (first : Printable left)
    (second : Printable right) : Printable (left ++ right) :=
  fun char mem => (List.mem_append.mp mem).elim (first char) (second char)

theorem printable_cons {char : Char} {text : List Char} (first : isPrintable char = true)
    (second : Printable text) : Printable (char :: text) :=
  fun other mem => (List.mem_cons.mp mem).elim (fun same => same ▸ first) (second other)

theorem isPrintable_of_isNumeral {char : Char} (numeral : isNumeral char = true) :
    isPrintable char = true := by
  simp only [isNumeral, Bool.or_eq_true, beq_iff_eq] at numeral
  rcases numeral with ((((digit | rfl) | rfl) | rfl) | rfl) | rfl
  · simp only [Char.isDigit, Bool.and_eq_true, decide_eq_true_eq] at digit
    have low : 48 ≤ char.toNat := digit.1
    have high : char.toNat ≤ 57 := digit.2
    rw [isPrintable, Bool.and_eq_true, decide_eq_true_eq, decide_eq_true_eq]
    omega
  all_goals rfl

theorem isPrintable_digitChar : ∀ digit < 16, isPrintable (Nat.digitChar digit) = true := by
  decide

theorem printable_unit (code : Nat) : Printable (unit code) := by
  have hex : ∀ digit, isPrintable (Nat.digitChar (digit % 16)) = true :=
    fun digit => isPrintable_digitChar _ (Nat.mod_lt digit (by decide))
  apply printable_cons rfl
  apply printable_cons rfl
  exact printable_cons (hex _) (printable_cons (hex _) (printable_cons (hex _)
    (printable_cons (hex _) (List.forall_mem_nil _))))

theorem printable_escape (char : Char) : Printable (escape char) := by
  rw [escape]
  split
  · rename_i pair found
    have listed := List.mem_of_find?_eq_some found
    have letters : ∀ pair ∈ shortEscapes, isPrintable pair.1 = true := by
      decide
    exact printable_cons rfl (printable_cons (letters pair listed)
      (List.forall_mem_nil _))
  · split
    · rename_i visible
      intro other mem
      rw [List.mem_singleton.mp mem, isPrintable, Bool.and_eq_true, decide_eq_true_eq,
        decide_eq_true_eq]
      exact visible
    · split
      · exact printable_unit _
      · exact printable_append (printable_unit _) (printable_unit _)

theorem printable_quote (text : String) : Printable (quote text) := by
  apply printable_cons rfl
  apply printable_append
  · intro char mem
    rcases List.mem_flatMap.mp mem with ⟨from_, _, escaped⟩
    exact printable_escape from_ char escaped
  · exact printable_cons rfl (List.forall_mem_nil _)

/-! ## Values -/

def OneLine (style : Style) : Prop :=
  ∀ depth, Printable (style.opening depth).text ∧ Printable (style.comma depth).text ∧
    Printable (style.closing depth).text ∧ Printable style.colon.text

theorem printable_spaces (count : Nat) : Printable (Blank.spaces count).text := by
  intro char mem
  rw [List.eq_of_mem_replicate mem]
  rfl

theorem oneLine_plain : OneLine plain :=
  fun _ => ⟨printable_spaces 0, printable_spaces 1, printable_spaces 0, printable_spaces 1⟩

theorem oneLine_compact : OneLine compact :=
  fun _ => ⟨printable_spaces 0, printable_spaces 0, printable_spaces 0, printable_spaces 0⟩

section

variable [FloatText]

theorem printable_floatText (value : PyFloat) : Printable (floatText value) := by
  have finite : ∀ value : PyFloat, value.isFinite = true →
      Printable (if double : value.IsDouble then FloatText.text ⟨value, double⟩ else []) := by
    intro value finite
    split
    · rename_i double
      exact fun char mem =>
        isPrintable_of_isNumeral (FloatText.numeral ⟨value, double⟩ finite char mem)
    · exact List.forall_mem_nil _
  cases value with
  | negZero => exact finite .negZero rfl
  | fin value => exact finite (.fin value) rfl
  | _ => exact List.all_eq_true.mp rfl

mutual

theorem printable_print {style : Style} (oneLine : OneLine style) (depth : Nat) (value : Json) :
    Printable (print style depth value) := by
  cases value with
  | null => exact List.all_eq_true.mp rfl
  | bool value =>
      cases value
      · exact List.all_eq_true.mp rfl
      · exact List.all_eq_true.mp rfl
  | int value => exact fun char mem => isPrintable_of_isNumeral (isNumeral_of_mem_intText mem)
  | float value => exact printable_floatText value
  | str text => exact printable_quote text
  | arr items =>
      cases items with
      | nil => exact List.all_eq_true.mp rfl
      | cons item rest =>
          rw [print]
          exact printable_cons rfl (printable_append (oneLine depth).1
            (printable_append (printable_print oneLine (depth + 1) item)
              (printable_printItems oneLine depth rest)))
  | obj fields =>
      rcases fields with _ | ⟨⟨key, value⟩, rest⟩
      · exact List.all_eq_true.mp rfl
      · rw [print]
        apply printable_cons rfl
        apply printable_append (oneLine depth).1
        apply printable_append (printable_quote key)
        apply printable_cons rfl
        apply printable_append (oneLine depth).2.2.2
        exact printable_append (printable_print oneLine (depth + 1) value)
          (printable_printFields oneLine depth rest)

theorem printable_printItems {style : Style} (oneLine : OneLine style) (depth : Nat)
    (items : List Json) : Printable (printItems style depth items) := by
  cases items with
  | nil =>
      rw [printItems]
      exact printable_append (oneLine depth).2.2.1
        (printable_cons rfl (List.forall_mem_nil _))
  | cons item rest =>
      rw [printItems]
      exact printable_cons rfl (printable_append (oneLine depth).2.1
        (printable_append (printable_print oneLine (depth + 1) item)
          (printable_printItems oneLine depth rest)))

theorem printable_printFields {style : Style} (oneLine : OneLine style) (depth : Nat)
    (fields : List (String × Json)) : Printable (printFields style depth fields) := by
  rcases fields with _ | ⟨⟨key, value⟩, rest⟩
  · rw [printFields]
    exact printable_append (oneLine depth).2.2.1
      (printable_cons rfl (List.forall_mem_nil _))
  · rw [printFields]
    apply printable_cons rfl
    apply printable_append (oneLine depth).2.1
    apply printable_append (printable_quote key)
    apply printable_cons rfl
    apply printable_append (oneLine depth).2.2.2
    exact printable_append (printable_print oneLine (depth + 1) value)
      (printable_printFields oneLine depth rest)

end

theorem exists_printFields (style : Style) (depth : Nat) (fields : List (String × Json)) :
    ∃ inner, printFields style depth fields = inner ++ ['\x7d'] := by
  induction fields with
  | nil => exact ⟨(style.closing depth).text, printFields.eq_1 style depth⟩
  | cons field rest ih =>
      rcases field with ⟨key, value⟩
      rcases ih with ⟨inner, last⟩
      refine ⟨',' :: ((style.comma depth).text ++ (quote key ++ ':' :: (style.colon.text ++
        (print style (depth + 1) value ++ inner)))), ?_⟩
      rw [printFields, last]
      simp only [List.append_assoc, List.cons_append]

theorem exists_print_obj (style : Style) (depth : Nat) (fields : List (String × Json)) :
    ∃ inner, print style depth (.obj fields) = '\x7b' :: (inner ++ ['\x7d']) := by
  rcases fields with _ | ⟨⟨key, value⟩, rest⟩
  · exact ⟨[], print.eq_8 style depth⟩
  · rcases exists_printFields style depth rest with ⟨inner, last⟩
    refine ⟨(style.opening depth).text ++ (quote key ++ ':' :: (style.colon.text ++
      (print style (depth + 1) value ++ inner))), ?_⟩
    rw [print, last]
    simp only [List.append_assoc, List.cons_append]

omit [FloatText] in
theorem strip_between {first last : Char} (solid : isSpace first = false)
    (solid_ : isSpace last = false) (inner : List Char) :
    strip (first :: (inner ++ [last])) = first :: (inner ++ [last]) := by
  rw [strip, lstrip, List.dropWhile_cons_of_neg (by rw [solid]; exact Bool.false_ne_true), rstrip,
    List.reverse_cons, List.reverse_append, List.reverse_singleton, List.singleton_append,
    List.cons_append, List.dropWhile_cons_of_neg (by rw [solid_]; exact Bool.false_ne_true)]
  simp

theorem strip_print_obj (style : Style) (fields : List (String × Json)) :
    strip (print style 0 (.obj fields)) = print style 0 (.obj fields) := by
  rcases exists_print_obj style 0 fields with ⟨inner, text⟩
  rw [text, strip_between rfl rfl]

end

end JsonText
end Python
end PhysicalHarness
