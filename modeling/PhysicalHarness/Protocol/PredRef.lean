import PhysicalHarness.Python.Value

namespace PhysicalHarness
namespace Protocol

open Python

variable [Host]

/-!
# Predicate references

A reference names a predicate and its arguments.  Cards write it as a string, a
mapping, a tuple or a record; the checker compares the canonical string
`name(arg1,arg2)` only.  A reference inside a skill record is a template: an
argument that names one of the record's parameters is replaced by the value the
node gives that parameter.
-/

/-- The two fields of a predicate record that a reference reads. -/
structure PredicateRecord where
  name : String
  args : List String

/-- A reference in any of the forms the parser accepts. -/
inductive PredRef where
  | record (pred : PredicateRecord)
  | value (ref : Json)

def isIdentStart (char : Char) : Bool :=
  ('A' ≤ char && char ≤ 'Z') || ('a' ≤ char && char ≤ 'z') || char == '_'

def splitComma : List Char → List (List Char)
  | [] => [[]]
  | char :: rest =>
      if char = ',' then [] :: splitComma rest
      else match splitComma rest with
        | piece :: others => (char :: piece) :: others
        | [] => [[char]]

/-- `[a.strip() for a in body.split(",") if a.strip()]`. -/
def splitArgs (body : List Char) : List String :=
  (((splitComma body).map strip).filter (fun piece => !piece.isEmpty)).map String.ofList

/-- The match of `_PRED`: an identifier, then nothing or a parenthesised list
without a line break, with white space around both. -/
def matchPred (text : List Char) : Option (String × List String) :=
  match lstrip text with
  | [] => none
  | first :: rest =>
      if isIdentStart first then
        let name := String.ofList (first :: rest.takeWhile Host.isWord)
        match lstrip (rest.dropWhile Host.isWord) with
        | [] => some (name, [])
        | '(' :: more =>
            match (rstrip more).reverse with
            | ')' :: body =>
                if '\n' ∈ body then none else some (name, splitArgs body.reverse)
            | _ => none
        | _ => none
      else none

def parsePredRef : PredRef → Except PyError (String × List String)
  | .record pred => .ok (pred.name, pred.args)
  | .value (.obj fields) =>
      match Assoc.get? fields "name" with
      | none => .error .keyError
      | some name => do
          let args ← ((Assoc.get? fields "args").getD (.arr [])).iter
          return (pyStr name, args.map pyStr)
  | .value (.arr []) => .error .indexError
  | .value (.arr (name :: args)) => .ok (pyStr name, args.map pyStr)
  | .value ref =>
      match matchPred (pyStr ref).toList with
      | some parsed => .ok parsed
      | none => .error (.valueError ("bad predicate ref " ++ Host.repr ref))

/-- A reference given as a string. -/
def refOfStr (text : String) : PredRef := .value (.str text)

/-- `f"{name}({','.join(args)})"`. -/
def canonical (name : String) (args : List String) : String :=
  name ++ "(" ++ ",".intercalate args ++ ")"

def predRefStr (ref : PredRef) : Except PyError String := do
  let (name, args) ← parsePredRef ref
  return canonical name args

def instantiate (ref : String) (args : List (String × Json)) : Except PyError String := do
  let (name, slots) ← parsePredRef (refOfStr ref)
  return canonical name (slots.map (fun slot =>
    match Assoc.get? args slot with
    | some value => pyStr value
    | none => slot))

end Protocol
end PhysicalHarness
