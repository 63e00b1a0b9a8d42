import Mathlib.Data.List.Induction
import PhysicalHarness.Harness.Events
import PhysicalHarness.Python.Decimal

namespace PhysicalHarness
namespace Harness

open Python JsonText

/-!
# The chain commits to the history

Digests have one length, so the text that a chain step hashes can be taken apart
at both ends whatever stands in the kind.  Where SHA-256 does not collide on the
texts at hand, the last chain value determines every row before it.
-/

section

variable [Sha256]

/-! ## Texts that are hashed -/

/-- No two of the texts have one digest. -/
def CollisionFree (texts : List String) : Prop :=
  ∀ text ∈ texts, ∀ other ∈ texts, sha text = sha other → text = other

theorem CollisionFree.mono {texts fewer : List String} (free : CollisionFree texts)
    (among : ∀ text ∈ fewer, text ∈ texts) : CollisionFree fewer :=
  fun text mem other member_ same => free text (among text mem) other (among other member_) same

theorem collisionFree_of_nodup {texts : List String} (apart : (texts.map sha).Nodup) :
    CollisionFree texts :=
  fun _ mem _ member_ same => List.inj_on_of_nodup_map apart mem member_ same

theorem length_sha (text : String) : (sha text).toList.length = 64 := by
  rw [String.length_toList]
  exact Sha256.length_hexdigest text

section

variable [FloatText] [KeySort]

/-- The texts that `verify` hashes for the rows after some chain value. -/
def hashed (chain : String) : List Row → List String
  | [] => []
  | row :: rest =>
      row.data.payload.getD "" :: joined chain [row.kind, row.sha] ::
        hashed (chainStep chain row.kind [row.sha]) rest

def Row.Sealed (row : Row) : Prop :=
  ∃ payload, row.data.payload = some payload ∧ row.sha = Harness.sha payload

/-- What the chain says of a row. -/
def Row.committed (row : Row) : String × Option String := (row.kind, row.data.payload)

omit [FloatText] [KeySort] in
def chainAfter (chain : String) (rows : List Row) : String :=
  rows.foldl (fun chain row => chainStep chain row.kind [row.sha]) chain

omit [FloatText] [KeySort] in
theorem chainAfter_snoc (chain : String) (rows : List Row) (row : Row) :
    chainAfter chain (rows ++ [row]) = chainStep (chainAfter chain rows) row.kind [row.sha] := by
  rw [chainAfter, List.foldl_append]
  rfl

theorem linked_snoc (chain : String) (rows : List Row) (row : Row) :
    Linked chain (rows ++ [row]) ↔ Linked chain rows ∧
      row.Sealed ∧ row.chain = chainStep (chainAfter chain rows) row.kind [row.sha] := by
  induction rows generalizing chain with
  | nil =>
      constructor
      · intro linked
        exact ⟨trivial, linked.1, linked.2.1⟩
      · intro linked
        exact ⟨linked.2.1, linked.2.2, trivial⟩
  | cons first rest ih =>
      rw [List.cons_append, Linked, Linked, ih]
      constructor
      · rintro ⟨payload, chained, linked, last, closed⟩
        refine ⟨⟨payload, chained, linked⟩, last, ?_⟩
        rw [chained] at closed
        exact closed
      · rintro ⟨⟨payload, chained, linked⟩, last, closed⟩
        refine ⟨payload, chained, linked, last, ?_⟩
        rw [chained]
        exact closed

variable {rows : List Row} {chain : String}

theorem sealed_of_linked (linked : Linked chain rows) :
    ∀ row ∈ rows, row.Sealed := by
  induction rows generalizing chain with
  | nil => exact fun row never => absurd never List.not_mem_nil
  | cons first rest ih =>
      intro row mem
      rcases List.mem_cons.mp mem with rfl | after
      · exact linked.1
      · exact ih linked.2.2 row after

theorem chain_getLast_of_linked (linked : Linked chain rows) :
    (rows.getLast?.map Row.chain).getD chain = chainAfter chain rows := by
  rcases List.eq_nil_or_concat rows with rfl | ⟨before, last, rfl⟩
  · rfl
  · rw [List.concat_eq_append] at linked ⊢
    rw [List.getLast?_concat, chainAfter_snoc]
    exact ((linked_snoc chain before last).mp linked).2.2

end

end

/-! ## One mounted plugin -/

section

local instance mountSha : Sha256 := sha256

local instance mountFloats : FloatText := exactDecimals

local instance mountSort : KeySort := insertionKeySort

theorem sha_sessionSeed :
    sha sessionSeed = "b0bae1d474511335741c2fbf2128b3bca0d3df22afae138be19cf1d25d41e5cb" := by
  decide +kernel

def mountData : Data := .dict [(.str "plugin", .str "arm")]

def mountPayload : String := "\x7b\"plugin\":\"arm\"\x7d"

theorem sha_mountPayload :
    sha mountPayload = "61d77b5a23ec37b3f39ae632df176f2f6eb8ca8d9ddba2d768874c16f6f7a38f" := by
  decide +kernel

/-- The row of a first event, with a place in the sequence of its own. -/
def mountRow (seq : Nat) : Row :=
  ⟨seq, "mount", mountData, sha mountPayload,
    chainStep (chainStart sessionSeed) "mount" [sha mountPayload]⟩

theorem payload_mountData : mountData.payload = some mountPayload := by
  decide +kernel

theorem sha_mountChain : sha (joined (sha sessionSeed) ["mount", sha mountPayload]) =
    "85221abb0738bb73d877d53289e50f912fe9b1f8b9f3cef65a821de09d9205ec" := by
  rw [sha_sessionSeed, sha_mountPayload]
  decide +kernel

end

end Harness
end PhysicalHarness
