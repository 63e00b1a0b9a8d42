import PhysicalHarness.Python.Data
import PhysicalHarness.Python.Sha256

namespace PhysicalHarness
namespace Harness

open Python JsonText

variable [Sha256] [FloatText] [KeySort]

/-!
# The chained session log

Every ledger of the harness folds its rows into a chain of digests.  The session
log keeps its rows in memory and mirrors them to a file, one line of JSON each; a
written ledger is reopened from the file, and `verify` recomputes the digest of
every payload and the whole chain against what the rows claim.
-/

/-- `_sha`. -/
def sha (text : String) : String := Sha256.hexdigest text

/-- `":".join((first, *rest))`. -/
def joined (first : String) : List String → String
  | [] => first
  | next :: rest => first ++ ":" ++ joined next rest

def chainStart (seed : String) : String := sha seed

/-- `sha256("prev:part[:part...]")`, with at least one part. -/
def chainStep (previous part : String) (parts : List String) : String :=
  sha (joined previous (part :: parts))

/-! ## The log -/

/-- `_SEED`. -/
def sessionSeed : String := "harness-session-v1"

structure Row where
  seq : Nat
  kind : String
  data : Data
  sha : String
  chain : String

structure SessionLog where
  rows : List Row
  chain : String

/-- A fresh writer starts a fresh chain. -/
def SessionLog.fresh : SessionLog := ⟨[], chainStart sessionSeed⟩

/-- The part of `append` in memory; `none` when the payload cannot be printed,
which changes nothing. -/
def SessionLog.append (log : SessionLog) (kind : String) (data : Data) :
    Option (Row × SessionLog) :=
  data.payload.map (fun payload =>
    let dataSha := sha payload
    let chain := chainStep log.chain kind [dataSha]
    let row : Row := ⟨log.rows.length, kind, data, dataSha, chain⟩
    (row, ⟨log.rows ++ [row], chain⟩))

def Row.toData (row : Row) : Data :=
  .dict [(.str "seq", .int row.seq), (.str "kind", .str row.kind), (.str "data", row.data),
    (.str "sha", .str row.sha), (.str "chain", .str row.chain)]

/-- `json.dumps(row, sort_keys=True, default=str) + "\n"`. -/
def Row.line (row : Row) : Option (List Char) :=
  row.toData.normalize.map (fun value => print plain 0 value ++ ['\n'])

def fileLines : List Char → List (List Char)
  | [] => [[]]
  | char :: rest =>
      if char = '\n' ∨ char = '\r' then [] :: fileLines rest
      else
        match fileLines rest with
        | [] => [[char]]
        | line :: lines => (char :: line) :: lines

def rowOf (value : Json) : Option Row := do
  let seq ← value.get? "seq"
  let kind ← (← value.get? "kind").str?
  let data ← value.get? "data"
  let sha ← (← value.get? "sha").str?
  let chain ← (← value.get? "chain").str?
  match seq with
  | .int seq => if 0 ≤ seq then some ⟨seq.toNat, kind, .ofJson data, sha, chain⟩ else none
  | _ => none

def readLines : List (List Char) → Option (List Row)
  | [] => some []
  | line :: lines =>
      if strip line = [] then readLines lines
      else
        (loads (strip line)).bind (fun value =>
          (rowOf value).bind (fun row => (readLines lines).map (fun rows => row :: rows)))

/-- `SessionLog.load`, from the content of the file. -/
def SessionLog.load (file : List Char) : Option SessionLog :=
  (readLines (fileLines file)).map (fun rows =>
    ⟨rows, (rows.getLast?.map Row.chain).getD (chainStart sessionSeed)⟩)

def verifyFrom (chain : String) : List Row → Except PyError Bool
  | [] => .ok true
  | row :: rest =>
      match row.data.payload with
      | none => .error .typeError
      | some payload =>
          if sha payload ≠ row.sha then .ok false
          else if chainStep chain row.kind [row.sha] ≠ row.chain then .ok false
          else verifyFrom (chainStep chain row.kind [row.sha]) rest

/-- `verify`. -/
def verify (rows : List Row) : Except PyError Bool := verifyFrom (chainStart sessionSeed) rows

/-- Each row has the digest of its payload and continues the chain. -/
def Linked (chain : String) : List Row → Prop
  | [] => True
  | row :: rest =>
      (∃ payload, row.data.payload = some payload ∧ row.sha = sha payload) ∧
        row.chain = chainStep chain row.kind [row.sha] ∧ Linked row.chain rest

theorem verifyFrom_eq_true_iff (chain : String) (rows : List Row) :
    verifyFrom chain rows = .ok true ↔ Linked chain rows := by
  induction rows generalizing chain with
  | nil => exact ⟨fun _ => trivial, fun _ => rfl⟩
  | cons row rest ih =>
      rw [verifyFrom, Linked]
      cases read : row.data.payload with
      | none =>
          constructor
          · exact nofun
          · rintro ⟨⟨payload, never, _⟩, _⟩
            cases never
      | some payload =>
          simp only []
          by_cases digest : sha payload = row.sha
          · rw [if_neg (not_not.mpr digest)]
            by_cases chained : chainStep chain row.kind [row.sha] = row.chain
            · rw [if_neg (not_not.mpr chained), chained, ih]
              exact ⟨fun linked => ⟨⟨payload, rfl, digest.symm⟩, rfl, linked⟩, fun linked => linked.2.2⟩
            · rw [if_pos chained]
              constructor
              · exact nofun
              · intro linked
                exact absurd linked.2.1.symm chained
          · rw [if_pos digest]
            constructor
            · exact nofun
            · rintro ⟨⟨other, same, named⟩, _⟩
              cases same
              exact absurd named.symm digest

theorem verify_eq_true_iff (rows : List Row) :
    verify rows = .ok true ↔ Linked (chainStart sessionSeed) rows :=
  verifyFrom_eq_true_iff _ rows

end Harness
end PhysicalHarness
