import PhysicalHarness.Python.JsonText

namespace PhysicalHarness
namespace Python
namespace JsonText

/-!
# Printing and reading JSON

The printer follows a style; the reader takes any white space between tokens.
What is printed is read back as it was, so one text belongs to one value.
-/

/-! ## White space -/

def isBlank (char : Char) : Bool :=
  char == ' ' || char == '\t' || char == '\n' || char == '\r'

structure Blank where
  text : List Char
  blank : ∀ char ∈ text, isBlank char = true

namespace Blank

def none : Blank := ⟨[], fun _ impossible => absurd impossible (List.not_mem_nil)⟩

def spaces (count : Nat) : Blank :=
  ⟨List.replicate count ' ', fun char member => by rw [List.eq_of_mem_replicate member]; rfl⟩

/-- A new line and its indentation. -/
def line (depth : Nat) : Blank :=
  ⟨'\n' :: List.replicate depth ' ', fun char member => by
    rcases List.mem_cons.mp member with first | later
    · rw [first]
      rfl
    · rw [List.eq_of_mem_replicate later]
      rfl⟩

end Blank

/-- Where white space stands, by depth of nesting. -/
structure Style where
  opening : Nat → Blank
  comma : Nat → Blank
  closing : Nat → Blank
  colon : Blank

/-- `separators=(",", ":")`. -/
def compact : Style :=
  ⟨fun _ => Blank.none, fun _ => Blank.none, fun _ => Blank.none, Blank.none⟩

/-- The default separators. -/
def plain : Style :=
  ⟨fun _ => Blank.none, fun _ => Blank.spaces 1, fun _ => Blank.none, Blank.spaces 1⟩

/-- `indent=1`. -/
def indented : Style :=
  ⟨fun depth => Blank.line (depth + 1), fun depth => Blank.line (depth + 1), Blank.line,
    Blank.spaces 1⟩

def skip (text : List Char) : List Char := text.dropWhile isBlank

theorem skip_blank (blank : Blank) (rest : List Char) : skip (blank.text ++ rest) = skip rest := by
  rw [skip, List.dropWhile_append_of_pos blank.blank]
  rfl

theorem skip_cons {char : Char} (rest : List Char) (solid : isBlank char = false) :
    skip (char :: rest) = char :: rest := by
  rw [skip, List.dropWhile_cons_of_neg (by simp [solid])]

/-! ## Words -/

def nullWord : List Char := ['n', 'u', 'l', 'l']

def trueWord : List Char := ['t', 'r', 'u', 'e']

def falseWord : List Char := ['f', 'a', 'l', 's', 'e']

def nanWord : List Char := ['N', 'a', 'N']

def infWord : List Char := ['I', 'n', 'f', 'i', 'n', 'i', 't', 'y']

def negInfWord : List Char := '-' :: infWord

def literal (word : List Char) (value : Json) (text : List Char) : Option (Json × List Char) :=
  if word.isPrefixOf text then some (value, text.drop word.length) else none

theorem literal_of_not_prefix {word text : List Char} (value : Json) (other : ¬ word <+: text) :
    literal word value text = none := by
  rw [literal, if_neg (fun prefixed => other (List.isPrefixOf_iff_prefix.mp prefixed))]

theorem literal_of_ne {first head : Char} (word : List Char) (value : Json) (rest : List Char)
    (other : first ≠ head) : literal (first :: word) value (head :: rest) = none :=
  literal_of_not_prefix value (fun prefixed => other (List.cons_prefix_cons.mp prefixed).1)

def Ends (rest : List Char) : Prop := ∀ char more, rest = char :: more → isNumeral char = false

theorem ends_cons {char : Char} {more : List Char} (other : isNumeral char = false) :
    Ends (char :: more) := by
  rintro char' more' same
  cases same
  exact other

theorem isNumeral_of_isBlank {char : Char} (blank : isBlank char = true) :
    isNumeral char = false := by
  simp only [isBlank, Bool.or_eq_true, beq_iff_eq] at blank
  rcases blank with ((rfl | rfl) | rfl) | rfl <;> rfl

theorem ends_blank (blank : Blank) {rest : List Char} (ends : Ends rest) :
    Ends (blank.text ++ rest) := by
  cases parts : blank.text with
  | nil => exact ends
  | cons head more =>
      refine ends_cons (isNumeral_of_isBlank (blank.blank head ?_))
      rw [parts]
      exact .head _

theorem number_of_token {token rest : List Char} (numerals : ∀ char ∈ token, isNumeral char = true)
    (ends : Ends rest) :
    (token ++ rest).takeWhile isNumeral = token ∧ (token ++ rest).dropWhile isNumeral = rest := by
  have stop : rest.takeWhile isNumeral = [] ∧ rest.dropWhile isNumeral = rest := by
    cases rest with
    | nil => exact ⟨rfl, rfl⟩
    | cons head more =>
        have other : isNumeral head = false := ends head more rfl
        constructor
        · rw [List.takeWhile_cons_of_neg (by simp [other])]
        · rw [List.dropWhile_cons_of_neg (by simp [other])]
  constructor
  · rw [List.takeWhile_append_of_pos numerals, stop.1, List.append_nil]
  · rw [List.dropWhile_append_of_pos numerals, stop.2]

section

variable (floats : PyFloat → Prop) (keys : List String → Prop)

mutual

/-- A property of the floats and of the keys of each object, throughout a value. -/
def Throughout : Json → Prop
  | .float value => floats value
  | .arr items => ThroughoutItems items
  | .obj fields => keys (Assoc.keys fields) ∧ ThroughoutFields fields
  | _ => True

def ThroughoutItems : List Json → Prop
  | [] => True
  | item :: rest => Throughout item ∧ ThroughoutItems rest

def ThroughoutFields : List (String × Json) → Prop
  | [] => True
  | (_, value) :: rest => Throughout value ∧ ThroughoutFields rest

end

end

abbrev Proper : Json → Prop := Throughout PyFloat.IsDouble (fun _ => True)

theorem proper_empty : Proper (.obj []) := ⟨trivial, trivial⟩

section

variable [FloatText]

def floatText (value : PyFloat) : List Char :=
  match value with
  | .nan => nanWord
  | .posInf => infWord
  | .negInf => negInfWord
  | finite => if double : finite.IsDouble then FloatText.text ⟨finite, double⟩ else []

mutual

/-- `json.dumps` of a value at some depth of nesting. -/
def print (style : Style) (depth : Nat) : Json → List Char
  | .null => nullWord
  | .bool value => if value then trueWord else falseWord
  | .int value => intText value
  | .float value => floatText value
  | .str text => quote text
  | .arr [] => ['[', ']']
  | .arr (item :: rest) =>
      '[' :: ((style.opening depth).text ++ (print style (depth + 1) item ++
        printItems style depth rest))
  | .obj [] => ['\x7b', '\x7d']
  | .obj ((key, value) :: rest) =>
      '\x7b' :: ((style.opening depth).text ++ (quote key ++ ':' :: (style.colon.text ++
        (print style (depth + 1) value ++ printFields style depth rest))))

def printItems (style : Style) (depth : Nat) : List Json → List Char
  | [] => (style.closing depth).text ++ [']']
  | item :: rest =>
      ',' :: ((style.comma depth).text ++ (print style (depth + 1) item ++
        printItems style depth rest))

def printFields (style : Style) (depth : Nat) : List (String × Json) → List Char
  | [] => (style.closing depth).text ++ ['\x7d']
  | (key, value) :: rest =>
      ',' :: ((style.comma depth).text ++ (quote key ++ ':' :: (style.colon.text ++
        (print style (depth + 1) value ++ printFields style depth rest))))

end

/-- `json.dumps`. -/
def dumps (style : Style) (value : Json) : String := String.ofList (print style 0 value)

/-! ## The reader -/

def number (text : List Char) : Option (Json × List Char) :=
  match readInt (text.takeWhile isNumeral) with
  | some value => some (.int value, text.dropWhile isNumeral)
  | none =>
      (FloatText.read (text.takeWhile isNumeral)).map (fun found =>
        (.float found.value, text.dropWhile isNumeral))

/-- A value that is neither a string nor a container. -/
def atom (text : List Char) : Option (Json × List Char) :=
  (literal nullWord .null text).or <| (literal trueWord (.bool true) text).or <|
    (literal falseWord (.bool false) text).or <| (literal nanWord (.float .nan) text).or <|
    (literal infWord (.float .posInf) text).or <|
    (literal negInfWord (.float .negInf) text).or (number text)

section

-- what becomes of the fields of an object (`object_pairs_hook`)
variable (hook : List (String × Json) → Json)

mutual

def readValue : Nat → List Char → Option (Json × List Char)
  | 0, _ => none
  | fuel + 1, text =>
      match text with
      | '"' :: rest => (readString rest).map (fun found => (.str (String.ofList found.1), found.2))
      | '[' :: rest =>
          match skip rest with
          | ']' :: more => some (.arr [], more)
          | more => do
              let first ← readValue fuel more
              let others ← readItems fuel first.2
              return (.arr (first.1 :: others.1), others.2)
      | '\x7b' :: rest =>
          match skip rest with
          | '\x7d' :: more => some (hook [], more)
          | more => do
              let first ← readField fuel more
              let others ← readFields fuel first.2
              return (hook (first.1 :: others.1), others.2)
      | other => atom other

def readItems : Nat → List Char → Option (List Json × List Char)
  | 0, _ => none
  | fuel + 1, text =>
      match skip text with
      | ']' :: rest => some ([], rest)
      | ',' :: rest => do
          let item ← readValue fuel (skip rest)
          let others ← readItems fuel item.2
          return (item.1 :: others.1, others.2)
      | _ => none

def readField : Nat → List Char → Option ((String × Json) × List Char)
  | 0, _ => none
  | fuel + 1, text =>
      match text with
      | '"' :: rest => do
          let key ← readString rest
          match skip key.2 with
          | ':' :: more => do
              let value ← readValue fuel (skip more)
              return ((String.ofList key.1, value.1), value.2)
          | _ => none
      | _ => none

def readFields : Nat → List Char → Option (List (String × Json) × List Char)
  | 0, _ => none
  | fuel + 1, text =>
      match skip text with
      | '\x7d' :: rest => some ([], rest)
      | ',' :: rest => do
          let field ← readField fuel (skip rest)
          let others ← readFields fuel field.2
          return (field.1 :: others.1, others.2)
      | _ => none

end

/-- One value and nothing but white space around it. -/
def read (text : List Char) : Option Json := do
  let found ← readValue hook text.length (skip text)
  if skip found.2 = [] then some found.1 else none

end

/-- `dict(pairs)`: of fields with one key the last one wins. -/
def gather (pairs : List (String × Json)) : Json :=
  .obj (pairs.foldl (fun fields pair => Assoc.set fields pair.1 pair.2) [])

/-- `json.loads`. -/
def loads (text : List Char) : Option Json := read gather text

theorem atom_of_opensNumber {text : List Char} (opens : OpensNumber text) (rest : List Char) :
    atom (text ++ rest) = number (text ++ rest) := by
  have digit_ne : ∀ {first head : Char}, head.isDigit = true → first.isDigit = false →
      first ≠ head := by
    rintro first head digit other rfl
    rw [digit] at other
    cases other
  cases opens with
  | digit more digit =>
      rw [atom, List.cons_append, nullWord, literal_of_ne _ _ _ (digit_ne digit rfl), trueWord,
        literal_of_ne _ _ _ (digit_ne digit rfl), falseWord,
        literal_of_ne _ _ _ (digit_ne digit rfl), nanWord,
        literal_of_ne _ _ _ (digit_ne digit rfl), infWord,
        literal_of_ne _ _ _ (digit_ne digit rfl), negInfWord,
        literal_of_ne _ _ _ (digit_ne digit rfl)]
      rfl
  | @sign second more digit =>
      have negInf : ∀ value text, literal negInfWord value ('-' :: second :: text) = none := by
        intro value text
        refine literal_of_not_prefix value (fun prefixed => ?_)
        have inner := (List.cons_prefix_cons.mp prefixed).2
        exact digit_ne digit rfl (List.cons_prefix_cons.mp inner).1
      have sign_ne : ∀ first : Char, first ≠ '-' → ∀ word value text,
          literal (first :: word) value ('-' :: text) = none :=
        fun first other word value text => literal_of_ne word value text other
      rw [atom, List.cons_append, List.cons_append, negInf, nullWord, trueWord, falseWord, nanWord,
        infWord, sign_ne _ (by decide), sign_ne _ (by decide), sign_ne _ (by decide),
        sign_ne _ (by decide), sign_ne _ (by decide)]
      rfl

theorem number_int (value : Int) {rest : List Char} (ends : Ends rest) :
    number (intText value ++ rest) = some (.int value, rest) := by
  have numerals : ∀ char ∈ intText value, isNumeral char = true :=
    fun _ mem => isNumeral_of_mem_intText mem
  have token := number_of_token numerals ends
  rw [number, token.1, token.2, readInt_intText]

theorem number_float (float : Double) (finite : float.value.isFinite = true) {rest : List Char}
    (ends : Ends rest) :
    number (FloatText.text float ++ rest) = some (.float float.value, rest) := by
  have token := number_of_token (FloatText.numeral float finite) ends
  rw [number, token.1, token.2, FloatText.notInt float finite, FloatText.read_text float finite]
  rfl

/-! ## Reading what was printed -/

section

variable (hook : List (String × Json) → Json)

mutual

/-- The value with the hook applied to every object, from the inside. -/
def rebuild : Json → Json
  | .arr items => .arr (rebuildItems items)
  | .obj fields => hook (rebuildFields fields)
  | other => other

def rebuildItems : List Json → List Json
  | [] => []
  | item :: rest => rebuild item :: rebuildItems rest

def rebuildFields : List (String × Json) → List (String × Json)
  | [] => []
  | (key, value) :: rest => (key, rebuild value) :: rebuildFields rest

end

end

section

variable {hook : List (String × Json) → Json}

theorem readValue_of_atom {head : Char} {more : List Char} (fuel : Nat) (notQuote : head ≠ '"')
    (notList : head ≠ '[') (notObject : head ≠ '\x7b') :
    readValue hook (fuel + 1) (head :: more) = atom (head :: more) := by
  rw [readValue.eq_def]
  simp only []
  split
  · rename_i same
    cases same
    exact absurd rfl notQuote
  · rename_i same
    cases same
    exact absurd rfl notList
  · rename_i same
    cases same
    exact absurd rfl notObject
  · rfl

theorem readValue_of_opensNumber {text : List Char} (opens : OpensNumber text) (fuel : Nat)
    (rest : List Char) : readValue hook (fuel + 1) (text ++ rest) = number (text ++ rest) := by
  rw [← atom_of_opensNumber opens]
  have digit_ne : ∀ {first head : Char}, head.isDigit = true → first.isDigit = false →
      head ≠ first := by
    rintro first head digit other rfl
    rw [digit] at other
    cases other
  cases opens with
  | digit more digit =>
      exact readValue_of_atom fuel (digit_ne digit rfl) (digit_ne digit rfl) (digit_ne digit rfl)
  | sign more digit => exact readValue_of_atom fuel (by decide) (by decide) (by decide)

theorem readValue_float (value : PyFloat) (double : value.IsDouble) (fuel : Nat) {rest : List Char}
    (ends : Ends rest) :
    readValue hook (fuel + 1) (floatText value ++ rest) = some (.float value, rest) := by
  have finite : ∀ float : Double, float.value.isFinite = true →
      readValue hook (fuel + 1) (FloatText.text float ++ rest) = some (.float float.value, rest) := by
    intro float finite
    rw [readValue_of_opensNumber (FloatText.opens float finite), number_float float finite ends]
  cases value with
  | fin value =>
      simp only [floatText, dif_pos double]
      exact finite ⟨.fin value, double⟩ rfl
  | negZero =>
      simp only [floatText, dif_pos double]
      exact finite ⟨.negZero, double⟩ rfl
  | _ => exact readValue_of_atom fuel (by decide) (by decide) (by decide)

/-- A first character that is neither white space nor a closing bracket. -/
def Solid (text : List Char) : Prop :=
  ∃ head more, text = head :: more ∧ isBlank head = false ∧ head ≠ ']'

omit [FloatText] in
theorem solid_of_opensNumber {text : List Char} (opens : OpensNumber text) : Solid text := by
  cases opens with
  | @digit first rest digit =>
      refine ⟨first, rest, rfl, ?_, ?_⟩
      · by_contra blank
        have other := isNumeral_of_isBlank (Bool.eq_true_of_not_eq_false blank)
        rw [isNumeral_of_isDigit digit] at other
        cases other
      · rintro rfl
        cases digit
  | sign rest digit => exact ⟨'-', _, rfl, rfl, by decide⟩

theorem solid_floatText {value : PyFloat} (double : value.IsDouble) : Solid (floatText value) := by
  cases value with
  | fin value =>
      simp only [floatText, dif_pos double]
      exact solid_of_opensNumber (FloatText.opens ⟨.fin value, double⟩ rfl)
  | negZero =>
      simp only [floatText, dif_pos double]
      exact solid_of_opensNumber (FloatText.opens ⟨.negZero, double⟩ rfl)
  | posInf => exact ⟨'I', _, rfl, rfl, by decide⟩
  | negInf => exact ⟨'-', _, rfl, rfl, by decide⟩
  | nan => exact ⟨'N', _, rfl, rfl, by decide⟩

theorem solid_print (style : Style) (depth : Nat) {value : Json} (proper : Proper value) :
    Solid (print style depth value) := by
  cases value with
  | null => exact ⟨'n', _, rfl, rfl, by decide⟩
  | bool value =>
      cases value with
      | true => exact ⟨'t', _, rfl, rfl, by decide⟩
      | false => exact ⟨'f', _, rfl, rfl, by decide⟩
  | int value =>
      rw [print]
      exact solid_of_opensNumber (opensNumber_intText value)
  | float value =>
      rw [print]
      exact solid_floatText proper
  | str text => exact ⟨'"', _, rfl, rfl, by decide⟩
  | arr items => cases items <;> exact ⟨'[', _, rfl, rfl, by decide⟩
  | obj fields => cases fields <;> exact ⟨'\x7b', _, rfl, rfl, by decide⟩

omit [FloatText] in
theorem skip_solid {text : List Char} (solid : Solid text) (rest : List Char) :
    skip (text ++ rest) = text ++ rest := by
  rcases solid with ⟨head, more, rfl, solid, _⟩
  exact skip_cons _ solid

theorem readValue_list {text : List Char} (solid : Solid text) (blank : Blank) (fuel : Nat)
    (rest : List Char) :
    readValue hook (fuel + 1) ('[' :: (blank.text ++ (text ++ rest))) =
      (readValue hook fuel (text ++ rest)).bind (fun first =>
        (readItems hook fuel first.2).bind (fun others =>
          some (.arr (first.1 :: others.1), others.2))) := by
  have skipped : skip (blank.text ++ (text ++ rest)) = text ++ rest := by
    rw [skip_blank, skip_solid solid]
  rw [readValue]
  simp only [skipped]
  rcases solid with ⟨head, more, rfl, _, open_⟩
  split
  · rename_i same
    cases same
    exact absurd rfl open_
  · rfl

theorem readItems_comma {text : List Char} (solid : Solid text) (blank : Blank) (fuel : Nat)
    (rest : List Char) :
    readItems hook (fuel + 1) (',' :: (blank.text ++ (text ++ rest))) =
      (readValue hook fuel (text ++ rest)).bind (fun item =>
        (readItems hook fuel item.2).bind (fun others => some (item.1 :: others.1, others.2))) := by
  have skipped : skip (blank.text ++ (text ++ rest)) = text ++ rest := by
    rw [skip_blank, skip_solid solid]
  rw [readItems, skip_cons _ rfl]
  simp only [skipped]
  rfl

theorem readItems_close (blank : Blank) (fuel : Nat) (rest : List Char) :
    readItems hook (fuel + 1) (blank.text ++ ([']'] ++ rest)) = some ([], rest) := by
  rw [readItems, skip_blank]
  rfl

theorem readFields_close (blank : Blank) (fuel : Nat) (rest : List Char) :
    readFields hook (fuel + 1) (blank.text ++ (['\x7d'] ++ rest)) = some ([], rest) := by
  rw [readFields, skip_blank]
  rfl

theorem readField_quote {text : List Char} (solid : Solid text) (key : String) (blank : Blank)
    (fuel : Nat) (rest : List Char) :
    readField hook (fuel + 1) (quote key ++ ':' :: (blank.text ++ (text ++ rest))) =
      (readValue hook fuel (text ++ rest)).bind (fun value => some ((key, value.1), value.2)) := by
  have skipped : skip (blank.text ++ (text ++ rest)) = text ++ rest := by
    rw [skip_blank, skip_solid solid]
  rw [quote, List.cons_append, readField, List.append_assoc, List.singleton_append,
    readString_flatMap_escape]
  simp only [Option.bind_eq_bind, Option.bind_some]
  rw [skip_cons _ rfl]
  simp only [skipped, String.ofList_toList]
  rfl

omit [FloatText] in
theorem solid_quote (key : String) : Solid (quote key) := ⟨'"', _, rfl, rfl, by decide⟩

theorem readValue_object (key : String) (blank : Blank) (fuel : Nat) (rest : List Char) :
    readValue hook (fuel + 1) ('\x7b' :: (blank.text ++ (quote key ++ rest))) =
      (readField hook fuel (quote key ++ rest)).bind (fun first =>
        (readFields hook fuel first.2).bind (fun others =>
          some (hook (first.1 :: others.1), others.2))) := by
  have skipped : skip (blank.text ++ (quote key ++ rest)) = quote key ++ rest := by
    rw [skip_blank, skip_solid (solid_quote key)]
  rw [readValue]
  simp only [skipped]
  rfl

theorem readFields_comma (key : String) (blank : Blank) (fuel : Nat) (rest : List Char) :
    readFields hook (fuel + 1) (',' :: (blank.text ++ (quote key ++ rest))) =
      (readField hook fuel (quote key ++ rest)).bind (fun field =>
        (readFields hook fuel field.2).bind (fun others => some (field.1 :: others.1, others.2))) := by
  have skipped : skip (blank.text ++ (quote key ++ rest)) = quote key ++ rest := by
    rw [skip_blank, skip_solid (solid_quote key)]
  rw [readFields, skip_cons _ rfl]
  simp only [skipped]
  rfl

theorem ends_printItems (style : Style) (depth : Nat) (items : List Json)
    (rest : List Char) : Ends (printItems style depth items ++ rest) := by
  cases items with
  | nil =>
      rw [printItems, List.append_assoc]
      exact ends_blank _ (ends_cons rfl)
  | cons item others =>
      rw [printItems]
      exact ends_cons rfl

theorem ends_printFields (style : Style) (depth : Nat) (fields : List (String × Json))
    (rest : List Char) : Ends (printFields style depth fields ++ rest) := by
  rcases fields with _ | ⟨⟨key, value⟩, others⟩
  · rw [printFields, List.append_assoc]
    exact ends_blank _ (ends_cons rfl)
  · rw [printFields]
    exact ends_cons rfl

mutual

theorem readValue_print (style : Style) (depth : Nat) (value : Json) (proper : Proper value)
    {rest : List Char} (ends : Ends rest) {fuel : Nat}
    (enough : (print style depth value).length ≤ fuel) :
    readValue hook fuel (print style depth value ++ rest) = some (rebuild hook value, rest) := by
  cases fuel with
  | zero =>
      rcases solid_print style depth proper with ⟨head, more, parts, _⟩
      rw [parts] at enough
      cases enough
  | succ fuel =>
      cases value with
      | null => exact readValue_of_atom fuel (by decide) (by decide) (by decide)
      | bool value =>
          cases value <;> exact readValue_of_atom fuel (by decide) (by decide) (by decide)
      | int value =>
          rw [print, readValue_of_opensNumber (opensNumber_intText value), number_int value ends]
          rfl
      | float value =>
          rw [print]
          exact readValue_float value proper fuel ends
      | str text =>
          rw [print, quote, List.cons_append, readValue, List.append_assoc, List.singleton_append,
            readString_flatMap_escape, Option.map_some, String.ofList_toList]
          rfl
      | arr items =>
          cases items with
          | nil => rfl
          | cons item others =>
              rw [Proper, Throughout, ThroughoutItems] at proper
              rw [print, List.length_cons, List.length_append, List.length_append] at enough
              rw [print, List.cons_append, List.append_assoc, List.append_assoc,
                readValue_list (solid_print style (depth + 1) proper.1),
                readValue_print style (depth + 1) item proper.1 (ends_printItems _ _ _ _)
                  (by omega),
                Option.bind_some, readItems_print style depth others proper.2 rest (by omega)]
              rfl
      | obj fields =>
          cases fields with
          | nil => rfl
          | cons field others =>
              rcases field with ⟨key, value⟩
              rw [Proper, Throughout, ThroughoutFields] at proper
              have proper := proper.2
              rw [print, List.length_cons, List.length_append, List.length_append,
                List.length_cons, List.length_append, List.length_append] at enough
              have long : 2 ≤ (quote key).length := by
                rw [quote, List.length_cons, List.length_append, List.length_singleton]
                omega
              rw [print, List.cons_append, List.append_assoc, List.append_assoc, List.cons_append,
                List.append_assoc, List.append_assoc, readValue_object]
              cases fuel with
              | zero => omega
              | succ fuel =>
                  rw [readField_quote (solid_print style (depth + 1) proper.1),
                    readValue_print style (depth + 1) value proper.1 (ends_printFields _ _ _ _)
                      (by omega)]
                  simp only [Option.bind_some]
                  rw [readFields_print style depth others proper.2 rest (by omega)]
                  rfl

theorem readItems_print (style : Style) (depth : Nat) (items : List Json)
    (proper : ThroughoutItems PyFloat.IsDouble (fun _ => True) items) (rest : List Char) {fuel : Nat}
    (enough : (printItems style depth items).length ≤ fuel) :
    readItems hook fuel (printItems style depth items ++ rest) =
      some (rebuildItems hook items, rest) := by
  cases items with
  | nil =>
      rw [printItems, List.length_append, List.length_singleton] at enough
      cases fuel with
      | zero => omega
      | succ fuel =>
          rw [printItems, List.append_assoc]
          exact readItems_close _ fuel rest
  | cons item others =>
      rw [ThroughoutItems] at proper
      rw [printItems, List.length_cons, List.length_append, List.length_append] at enough
      cases fuel with
      | zero => omega
      | succ fuel =>
          rw [printItems, List.cons_append, List.append_assoc, List.append_assoc,
            readItems_comma (solid_print style (depth + 1) proper.1),
            readValue_print style (depth + 1) item proper.1 (ends_printItems _ _ _ _)
                  (by omega),
            Option.bind_some, readItems_print style depth others proper.2 rest (by omega)]
          rfl

theorem readFields_print (style : Style) (depth : Nat) (fields : List (String × Json))
    (proper : ThroughoutFields PyFloat.IsDouble (fun _ => True) fields) (rest : List Char) {fuel : Nat}
    (enough : (printFields style depth fields).length ≤ fuel) :
    readFields hook fuel (printFields style depth fields ++ rest) =
      some (rebuildFields hook fields, rest) := by
  cases fields with
  | nil =>
      rw [printFields, List.length_append, List.length_singleton] at enough
      cases fuel with
      | zero => omega
      | succ fuel =>
          rw [printFields, List.append_assoc]
          exact readFields_close _ fuel rest
  | cons field others =>
      rcases field with ⟨key, value⟩
      rw [ThroughoutFields] at proper
      rw [printFields, List.length_cons, List.length_append, List.length_append, List.length_cons,
        List.length_append, List.length_append] at enough
      have long : 2 ≤ (quote key).length := by
        rw [quote, List.length_cons, List.length_append, List.length_singleton]
        omega
      cases fuel with
      | zero => omega
      | succ fuel =>
          rw [printFields, List.cons_append, List.append_assoc, List.append_assoc,
            List.cons_append, List.append_assoc, List.append_assoc, readFields_comma]
          cases fuel with
          | zero => omega
          | succ fuel =>
              rw [readField_quote (solid_print style (depth + 1) proper.1),
                readValue_print style (depth + 1) value proper.1 (ends_printFields _ _ _ _) (by omega)]
              simp only [Option.bind_some]
              rw [readFields_print style depth others proper.2 rest (by omega)]
              rfl

end

theorem read_print (style : Style) {value : Json} (proper : Proper value) :
    read hook (print style 0 value) = some (rebuild hook value) := by
  have found : readValue hook (print style 0 value).length (print style 0 value) =
      some (rebuild hook value, []) := by
    have ends : Ends [] := fun char more never => by cases never
    have whole : readValue hook (print style 0 value).length (print style 0 value ++ []) =
        some (rebuild hook value, []) := readValue_print style 0 value proper ends (Nat.le_refl _)
    rwa [List.append_nil] at whole
  have start : skip (print style 0 value) = print style 0 value := by
    have whole := skip_solid (solid_print style 0 proper) []
    rwa [List.append_nil] at whole
  rw [read, start, found]
  rfl

end

end

end JsonText
end Python
end PhysicalHarness
