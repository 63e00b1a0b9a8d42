import PhysicalHarness.Board.Storecli

namespace PhysicalHarness
namespace Board
namespace Storecli

open Python JsonText Fallible
open PhysicalHarness.Runtime (Scanner scanned)

/-!
# Which requests are answered

A refusal is printed outside of what is caught, with the function of the request in it.  The
functions of the reader have short names, so their answers can always be refused.  A request for
another function is answered with that function, and the loop goes on exactly where that answer is
within the limit or can be refused within it.
-/

/-! ## Sizes -/

section

variable [FloatText]

end

section

variable [FloatText]

def Fits (value : Json) : Prop := (dumps plain value).length ≤ maxResponseBytes

end

section

variable [FloatText]

variable [Host] [Scanner] {reader : Reader} {position : Nat}

/-- The answer to a request that reaches no function of the board. -/
def unserved (reader : Reader) (fields : List (String × Json)) : Json :=
  match argsOf reader fields with
  | .error message => errorOf message.text
  | .ok _ => errorOf ("unknown fn: " ++ pyStr (fnOf fields))

/-- A request for an unknown function is answered within the limit, or refused within it. -/
def Settled (reader : Reader) (fields : List (String × Json)) : Prop :=
  faceOf (fnOf fields) = none →
    Fits (unserved reader fields) ∨
      ((fnOf fields).hashable = true ∧
        Fits (tooLarge (fnOf fields) (dumps plain (unserved reader fields)).length))

/-- A line with a request that is settled, or with none. -/
def Answerable (reader : Reader) (line : List Char) : Prop :=
  ∀ fields, request reader line = .ok fields → Settled reader fields

variable {line : List Char}

/-- What is written for a request: one line of JSON within the limit. -/
structure Reply (reader : Reader) (asked : List Char × Nat) (body : String) : Prop where
  answers : respond reader asked.2 asked.1 = .ok body
  json : ∃ value, body = dumps plain value
  oneLine : '\n' ∉ body.toList
  fits : body.length ≤ maxResponseBytes

/-- The lines that are not blank, with their numbers. -/
def requests (position : Nat) (lines : List (List Char)) : List (List Char × Nat) :=
  ((lines.map strip).filter (fun line => decide (line ≠ []))).zipIdx position

end

/-! ## A function that is no text, and one that is too long -/

section

/-- A list of one text prints as it does in Python. -/
local instance residentHost : Host :=
  { asciiHost with repr := fun value =>
      match value with
      | .arr [.str text] => "['" ++ text ++ "']"
      | _ => asciiHost.repr value }

local instance residentFloats : FloatText := exactDecimals

local instance residentScanner : Scanner := ⟨fun _ => none, fun _ => "Expecting value"⟩

variable {text : String}

/-- As many letters as fit in an answer. -/
def letters : String := String.ofList (List.replicate maxResponseBytes 'x')

end

end Storecli
end Board
end PhysicalHarness
