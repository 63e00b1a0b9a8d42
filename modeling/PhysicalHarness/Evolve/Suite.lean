import PhysicalHarness.Python.Value

namespace PhysicalHarness
namespace Evolve

open Python

/-!
# Suites and their comparison

A suite is one row a seed.  Two suites are compared seed by seed on the milestones that
the rows passed, and only the seeds of the first suite count: a seed that the second
alone ran is not looked at, and one that the first alone ran has lost its milestones.
-/

/-- `list(range(low, high + 1))`. -/
def seedRange (low high : Int) : List Int :=
  (List.range (high + 1 - low).toNat).map (fun offset : Nat => low + (offset : Int))

theorem mem_seedRange {low high seed : Int} : seed ∈ seedRange low high ↔ low ≤ seed ∧ seed ≤ high := by
  rw [seedRange, List.mem_map]
  constructor
  · intro inside
    rcases inside with ⟨offset, below, same⟩
    rw [List.mem_range] at below
    omega
  · intro inside
    refine ⟨(seed - low).toNat, ?_, ?_⟩
    · rw [List.mem_range]
      omega
    · omega

theorem length_seedRange (low high : Int) : (seedRange low high).length = (high + 1 - low).toNat := by
  rw [seedRange, List.length_map, List.length_range]

/-- An entry of a trail. -/
structure Node where
  id : String
  kind : Option String
  ok : Option Bool
  deriving DecidableEq, Repr

/-- What a suite reports of one seed. -/
structure Row where
  trail : List Node
  success : Bool
  deriving DecidableEq, Repr

/-- The rows by seed, in the order in which they were merged. -/
abbrev Suite := List (Int × Row)

/-- `suite["count"]`. -/
def Suite.count (suite : Suite) : Nat := (List.filter (fun entry => entry.2.success) suite).length

/-- The nodes that count: the verify nodes, or every node where there is none. -/
def Row.counted (row : Row) : List Node :=
  let verified := row.trail.filter (fun node => node.kind == some "verify")
  if verified.isEmpty then row.trail else verified

def milestones (row : Row) : List (String × Bool) :=
  let marks := row.counted.foldl (fun marks node => Assoc.set marks node.id (node.ok == some true)) []
  Assoc.set marks "task" row.success

/-- `m.get(name)`, as a truth value. -/
def passed (marks : List (String × Bool)) (name : String) : Bool := (Assoc.get? marks name).getD false

structure Comparison where
  gains : List (Int × String)
  regressions : List (Int × String)
  lostSuccess : List Int
  before : Nat
  after : Nat
  accepted : Bool
  deriving DecidableEq, Repr

/-- `after["seeds"].get(seed) or {}`. -/
def rowOf (suite : Suite) (seed : Int) : Row := (Assoc.get? suite seed).getD ⟨[], false⟩

/-- The milestones that one row passes and the other does not, in the order of their names. -/
def newly (lost won : Row) : List String :=
  let before := milestones lost
  let after := milestones won
  (sorted ((Assoc.keys before ++ Assoc.keys after).dedup)).filter
    (fun name => passed after name && !passed before name)

def compare (before after : Suite) : Comparison :=
  let gains := before.flatMap (fun entry =>
    (newly entry.2 (rowOf after entry.1)).map (fun name => (entry.1, name)))
  let losses := before.flatMap (fun entry =>
    (newly (rowOf after entry.1) entry.2).map (fun name => (entry.1, name)))
  let done := (before.filter (fun entry => entry.2.success)).length
  let kept := (before.filter (fun entry => (rowOf after entry.1).success)).length
  { gains
    regressions := losses
    lostSuccess := (before.filter (fun entry =>
      entry.2.success && !(rowOf after entry.1).success)).map Prod.fst
    before := done
    after := kept
    accepted := decide (losses.length < gains.length) && decide (done ≤ kept) }

/-- The installed card, the empty tunables, and the row that a copy of the card gives
under tunables on a seed. -/
structure World (Content Tunables : Type) where
  stock : Content
  noTunables : Tunables
  measure : Content → Tunables → Int → Row

variable {Content Tunables : Type}

/-- `suite(seed_list, workspace, tunables)`. -/
def World.suite (world : World Content Tunables) (seeds : List Int) (copy : Content)
    (tunables : Tunables) : Suite :=
  seeds.map (fun seed => (seed, world.measure copy tunables seed))

theorem World.keys_suite (world : World Content Tunables) (seeds : List Int) (copy : Content)
    (tunables : Tunables) : Assoc.keys (world.suite seeds copy tunables) = seeds := by
  rw [Assoc.keys, World.suite, List.map_map]
  exact List.map_id seeds

theorem World.seeds_of_count {world : World Content Tunables} {seeds : List Int} {copy : Content}
    {tunables : Tunables} (some_ : 0 < Suite.count (world.suite seeds copy tunables)) : seeds ≠ [] := by
  intro empty
  rw [empty] at some_
  exact absurd some_ (Nat.lt_irrefl 0)

end Evolve
end PhysicalHarness
