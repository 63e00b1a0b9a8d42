import Mathlib.Data.Rat.Defs
import Mathlib.Algebra.Order.Field.Rat
import Mathlib.Data.List.Sort
import PhysicalHarness.Lib.Dict

namespace PhysicalHarness
namespace Python

/-!
# Python values as the harness receives them

A planner's reply, a proposal and a sealed ledger row are JSON values that the
code inspects with Python's own operations.  Four of these operations can
raise: looking a value up in a set or dict when it is a list or an object,
`int()`, `dict()` and reading an attribute that the value does not have.  They
are modelled here with their results in `Except PyError`; the rest of the
development never raises in any other way.

Text tables (which characters are word characters or decimal digits), `repr`,
JSON decoding and the content digest belong to the interpreter.  They are the
fields of `Host`, and every result holds for all of them.
-/

/-- A Python exception.  The text of a `ValueError` is kept because the run loop
folds it back into the next brief. -/
inductive PyError where
  | typeError
  | valueError (text : String)
  | keyError
  | attributeError
  | overflowError
  | indexError
  | proposerError (text : String)
  deriving DecidableEq, Repr

/-- A float by its value.  The sign of zero is visible in its text only. -/
inductive PyFloat where
  | fin (value : ℚ)
  | negZero
  | posInf
  | negInf
  | nan
  deriving DecidableEq

namespace PyFloat

def toRat? : PyFloat → Option ℚ
  | fin value => some value
  | negZero => some 0
  | _ => none

/-- The comparison `a < b`; every comparison with NaN is false. -/
def lt : PyFloat → PyFloat → Bool
  | nan, _ => false
  | _, nan => false
  | negInf, other => decide (other ≠ negInf)
  | _, negInf => false
  | posInf, _ => false
  | _, posInf => true
  | left, right => decide (left.toRat?.getD 0 < right.toRat?.getD 0)

@[simp] theorem lt_nan (value : PyFloat) : value.lt nan = false := by
  cases value <;> rfl

@[simp] theorem nan_lt (value : PyFloat) : nan.lt value = false := rfl

/-- `math.isfinite`. -/
def isFinite (value : PyFloat) : Bool := value.toRat?.isSome

/-- Equality of two floats.  A NaN equals itself, as one object does inside a
container; JSON text has none. -/
def same : PyFloat → PyFloat → Bool
  | fin left, negZero => decide (left = 0)
  | negZero, fin right => decide (0 = right)
  | left, right => decide (left = right)

@[simp] theorem same_self (value : PyFloat) : value.same value = true := by
  cases value <;> simp [same]

end PyFloat

/-! ## JSON values -/

/-- A decoded JSON value.  An object keeps its fields in the order received. -/
inductive Json where
  | null
  | bool (value : Bool)
  | int (value : Int)
  | float (value : PyFloat)
  | str (value : String)
  | arr (items : List Json)
  | obj (fields : List (String × Json))
  deriving Inhabited

namespace Json

/-- The number behind `bool`, `int` and a finite `float`. -/
def toRat? : Json → Option ℚ
  | bool value => some (if value then 1 else 0)
  | int value => some value
  | float value => value.toRat?
  | _ => none

/-- Scalars compare by value: `True == 1 == 1.0`. -/
def sameScalar : Json → Json → Bool
  | null, null => true
  | str left, str right => decide (left = right)
  | float left, float right => left.same right
  | left, right =>
      match left.toRat?, right.toRat? with
      | some first, some second => decide (first = second)
      | _, _ => false

mutual

/-- Python's `==` on decoded JSON. -/
def eq : Json → Json → Bool
  | arr left, arr right => eqItems left right
  | obj left, obj right => decide (left.length = right.length) && eqFields left right
  | left, right => sameScalar left right

def eqItems : List Json → List Json → Bool
  | [], [] => true
  | first :: rest, other :: others => eq first other && eqItems rest others
  | _, _ => false

/-- Each field of the first object has an equal one in the second; with the
same number of distinct keys this is equality of dicts. -/
def eqFields : List (String × Json) → List (String × Json) → Bool
  | [], _ => true
  | (key, value) :: rest, others =>
      others.any (fun field => decide (field.1 = key) && eq value field.2) &&
        eqFields rest others

end

mutual

theorem eq_self (value : Json) : eq value value = true := by
  cases value with
  | arr items => simpa [eq] using eqItems_self items
  | obj fields =>
      simpa [eq] using eqFields_of_subset fields fields (fun _ mem => mem)
  | null => rfl
  | bool value => cases value <;> simp [eq, sameScalar, toRat?]
  | int value => simp [eq, sameScalar, toRat?]
  | float value => simp [eq, sameScalar]
  | str value => simp [eq, sameScalar]

theorem eqItems_self (items : List Json) : eqItems items items = true := by
  cases items with
  | nil => rfl
  | cons first rest => simp [eqItems, eq_self first, eqItems_self rest]

theorem eqFields_of_subset (fields others : List (String × Json))
    (included : ∀ field ∈ fields, field ∈ others) : eqFields fields others = true := by
  cases fields with
  | nil => rfl
  | cons field rest =>
      obtain ⟨key, value⟩ := field
      have here : others.any (fun other => decide (other.1 = key) && eq value other.2) = true :=
        List.any_eq_true.mpr ⟨(key, value), included _ (.head _), by
          simp [eq_self value]⟩
      have there := eqFields_of_subset rest others
        (fun other mem => included other (.tail _ mem))
      simp [eqFields, here, there]

end

theorem eqFields_iff (fields others : List (String × Json)) :
    eqFields fields others = true ↔
      ∀ field ∈ fields, ∃ value, (field.1, value) ∈ others ∧ field.2.eq value = true := by
  induction fields with
  | nil => exact ⟨fun _ field mem => absurd mem List.not_mem_nil, fun _ => rfl⟩
  | cons field rest ih =>
      rcases field with ⟨key, value⟩
      rw [eqFields, Bool.and_eq_true, List.any_eq_true, ih, List.forall_mem_cons]
      refine and_congr_left (fun _ => ⟨?_, ?_⟩)
      · rintro ⟨⟨key', value'⟩, mem, equal⟩
        rw [Bool.and_eq_true, decide_eq_true_iff] at equal
        rcases equal with ⟨rfl, equal⟩
        exact ⟨value', mem, equal⟩
      · rintro ⟨value', mem, equal⟩
        refine ⟨(key, value'), mem, ?_⟩
        rw [Bool.and_eq_true, decide_eq_true_iff]
        exact ⟨rfl, equal⟩

/-- `bool(value)`. -/
def truthy : Json → Bool
  | null => false
  | bool value => value
  | int value => decide (value ≠ 0)
  | float value => decide (value ≠ .fin 0 ∧ value ≠ .negZero)
  | str value => decide (value ≠ "")
  | arr items => !items.isEmpty
  | obj fields => !fields.isEmpty

def hashable : Json → Bool
  | arr _ => false
  | obj _ => false
  | _ => true

/-- `value.get(name)` on an object, `None` being an absent result here. -/
def get? : Json → String → Option Json
  | obj fields, name => Assoc.get? fields name
  | _, _ => none

/-- `value.get(name, default)`. -/
def getD (value : Json) (name : String) (default : Json) : Json :=
  (value.get? name).getD default

def isMapping : Json → Bool
  | obj _ => true
  | _ => false

def isNull : Json → Bool
  | null => true
  | _ => false

def str? : Json → Option String
  | str value => some value
  | _ => none

def arr? : Json → Option (List Json)
  | arr items => some items
  | _ => none

/-- `isinstance(value, str) and value`. -/
def isNonemptyStr : Json → Bool
  | str value => decide (value ≠ "")
  | _ => false

def fields : Json → List (String × Json)
  | obj fields => fields
  | _ => []

/-- `{**value, name: fresh}`. -/
def setField (value : Json) (name : String) (fresh : Json) : Json :=
  .obj (Assoc.set value.fields name fresh)

/-- `value[name]`. -/
def item (value : Json) (name : String) : Except PyError Json :=
  match value with
  | .obj fields =>
      match Assoc.get? fields name with
      | some found => .ok found
      | none => .error .keyError
  | _ => .error .typeError

def iter : Json → Except PyError (List Json)
  | .arr items => .ok items
  | .str text => .ok (text.toList.map (fun char => .str (String.ofList [char])))
  | .obj fields => .ok (fields.map (fun field => .str field.1))
  | _ => .error .typeError

/-- A field the dataclass declares to be a string. -/
def text : Json → Except PyError String
  | .str text => .ok text
  | _ => .error .typeError

/-- A field the dataclass declares to be a dict with string keys. -/
def dict : Json → Except PyError (List (String × Json))
  | .obj fields => .ok fields
  | _ => .error .typeError

theorem get?_eq_fields (value : Json) (name : String) :
    value.get? name = Assoc.get? value.fields name := by
  cases value <;> rfl

@[simp] theorem get?_setField (value : Json) (name wanted : String) (fresh : Json) :
    (value.setField name fresh).get? wanted =
      if name = wanted then some fresh else value.get? wanted := by
  rw [setField, get?, Assoc.get?_set, get?_eq_fields]

theorem isNonemptyStr_iff (value : Json) :
    value.isNonemptyStr = true ↔ ∃ text, value = .str text ∧ text ≠ "" := by
  cases value <;> simp [isNonemptyStr]

theorem eq_str_iff (value : Json) (text : String) :
    eq value (.str text) = true ↔ value = .str text := by
  cases value <;> simp [eq, sameScalar, toRat?]

end Json

/-- Looking a value up in a set or dict hashes it first. -/
def hashed (value : Json) : Except PyError Unit :=
  if value.hashable then .ok () else .error .typeError

theorem hashed_eq_ok_iff (value : Json) : hashed value = .ok () ↔ value.hashable = true := by
  cases value <;> simp [hashed, Json.hashable]

/-! ## What the interpreter supplies -/

namespace Json

mutual

/-- Compact JSON text, with a non-integral number as a fraction. -/
def compact : Json → String
  | null => "null"
  | bool value => if value then "true" else "false"
  | int value => toString value
  | float value =>
      ((value.toRat?).map (fun number =>
        toString number.num ++ "/" ++ toString number.den)).getD "nan"
  | str value => "\"" ++ value ++ "\""
  | arr items => "[" ++ compactItems items ++ "]"
  | obj fields => "\x7b" ++ compactFields fields ++ "\x7d"

def compactItems : List Json → String
  | [] => ""
  | item :: rest => compact item ++ "," ++ compactItems rest

def compactFields : List (String × Json) → String
  | [] => ""
  | (key, value) :: rest => "\"" ++ key ++ "\":" ++ compact value ++ "," ++ compactFields rest

end

end Json

/-- Interpreter services whose details no result depends on. -/
class Host where
  /-- `\w` of the `re` module. -/
  isWord : Char → Bool
  /-- The value of a decimal digit of any script. -/
  decimal : Char → Option Nat
  repr : Json → String
  /-- `float(text)`. -/
  parseFloat : String → Option PyFloat
  /-- `json.loads(text)`. -/
  loads : String → Option Json
  /-- `sha_json(to_plain(value))`. -/
  sha : Json → String

/-- The services on ASCII text: a string prints between quotes, and no text is
read as a float or as JSON. -/
@[reducible] def asciiHost : Host where
  isWord := fun char => char.isAlphanum || char == '_'
  decimal := fun char => if char.isDigit then some (char.toNat - 48) else none
  repr := fun value => (value.str?.map (fun text => "'" ++ text ++ "'")).getD value.compact
  parseFloat := fun _ => none
  loads := fun _ => none
  sha := Json.compact

variable [Host]

/-- `str(value)`: a string is its own text, anything else its `repr`. -/
def pyStr : Json → String
  | .str text => text
  | value => Host.repr value

/-- Unicode white space, as `str.strip` and `\s` have it. -/
def isSpace (char : Char) : Bool :=
  let code := char.toNat
  (9 ≤ code && code ≤ 13) || (0x1c ≤ code && code ≤ 0x20) || code == 0x85 || code == 0xa0 ||
    code == 0x1680 || (0x2000 ≤ code && code ≤ 0x200a) || code == 0x2028 || code == 0x2029 ||
    code == 0x202f || code == 0x205f || code == 0x3000

def lstrip (text : List Char) : List Char := text.dropWhile isSpace

def rstrip (text : List Char) : List Char := (text.reverse.dropWhile isSpace).reverse

def strip (text : List Char) : List Char := rstrip (lstrip text)

/-- Decimal digits with single underscores between them; `last` tells whether
the previous character was a digit. -/
def digits : List Char → Bool → Nat → Option Nat
  | [], last, value => if last then some value else none
  | char :: rest, last, value =>
      match Host.decimal char with
      | some digit => digits rest true (10 * value + digit)
      | none => if char = '_' ∧ last then digits rest false value else none

/-- CPython refuses longer digit strings (`sys.int_info.default_max_str_digits`). -/
def maxStrDigits : Nat := 4300

/-- `int(text)` in base ten. -/
def intOfStr (text : String) : Option Int :=
  let parse (body : List Char) : Option Nat :=
    if (body.filter (fun char => (Host.decimal char).isSome)).length ≤ maxStrDigits then
      digits body false 0
    else none
  match strip text.toList with
  | '+' :: body => (parse body).map Int.ofNat
  | '-' :: body => (parse body).map (fun value => -Int.ofNat value)
  | body => (parse body).map Int.ofNat

def truncate (value : ℚ) : Int := Int.tdiv value.num value.den

/-- `int(value)`. -/
def pyInt : Json → Except PyError Int
  | .int value => .ok value
  | .bool value => .ok (if value then 1 else 0)
  | .float .posInf => .error .overflowError
  | .float .negInf => .error .overflowError
  | .float .nan => .error (.valueError "cannot convert float NaN to integer")
  | .float value => .ok (truncate (value.toRat?.getD 0))
  | .str text =>
      match intOfStr text with
      | some value => .ok value
      | none => .error (.valueError
          ("invalid literal for int() with base 10: " ++ Host.repr (.str text)))
  | _ => .error .typeError

/-- One element of the argument of `dict()`, which must be a pair. -/
def pyPair : Json → Except PyError (Json × Json)
  | .arr [key, value] => if key.hashable then .ok (key, value) else .error .typeError
  | .arr _ => .error (.valueError "dictionary update sequence element has the wrong length")
  | .str text =>
      match text.toList with
      | [first, second] => .ok (.str (String.ofList [first]), .str (String.ofList [second]))
      | _ => .error (.valueError "dictionary update sequence element has the wrong length")
  | .obj [first, second] => .ok (.str first.1, .str second.1)
  | .obj _ => .error (.valueError "dictionary update sequence element has the wrong length")
  | _ => .error .typeError

def assign {α : Type} (pairs : List (Json × α)) (pair : Json × α) : List (Json × α) :=
  match pairs with
  | [] => [pair]
  | (key, value) :: rest =>
      if key.eq pair.1 then (key, pair.2) :: rest else (key, value) :: assign rest pair

/-- `dict(value)`. -/
def pyDict : Json → Except PyError (List (Json × Json))
  | .obj fields => .ok (fields.map (fun field => (.str field.1, field.2)))
  | .arr items => do
      let pairs ← items.mapM pyPair
      return pairs.foldl assign []
  | .str text =>
      -- the elements of a string are strings of length one, never pairs
      if text = "" then .ok []
      else .error (.valueError "dictionary update sequence element has the wrong length")
  | _ => .error .typeError

/-- `sorted` on strings, by code points. -/
def sorted (names : List String) : List String :=
  names.insertionSort (fun left right => left ≤ right)

def reprNames (names : List String) : String := Host.repr (.arr (names.map .str))

end Python
end PhysicalHarness
