import Mathlib.Data.Nat.Choose.Basic
import PhysicalHarness.Python.Arithmetic

namespace PhysicalHarness
namespace Rsi

open Python

/-!
# The size of a generation

How many seeds a generation is gated on is computed before its candidate is known: from
the residual failures and the yield of the generation before, so that the exact test has
the power that was preregistered.
-/

/-- `float ** int` of the platform's library. -/
class Libm where
  pow : Double → Nat → Except NumberError Double

@[reducible] def productPow : Libm where
  pow := fun base exponent => .ok ((List.replicate exponent base).foldl Double.mul (Double.nearest 1))

/-- `range(start, stop)`. -/
def range (start stop : Nat) : List Nat := (List.range (stop - start)).map (start + ·)

/-- The number of outcomes at least as lopsided on the smaller side. -/
def tail (fixed broken : Nat) : Nat :=
  ((List.range (min fixed broken + 1)).map ((fixed + broken).choose ·)).sum

/-- `mcnemar_p`: twice the tail over all outcomes, at most one. -/
def mcnemarP (fixed broken : Nat) : Except NumberError Double := do
  if fixed + broken = 0 then return Double.nearest 1
  let outcomes ← Double.ofInt (tail fixed broken)
  let all ← Double.ofInt (2 ^ (fixed + broken))
  let value ← ((Double.nearest 2).mul outcomes).div all
  return (Double.nearest 1).minOf value

section

variable [Libm]

/-- One term of `power_at`. -/
def powerTerm (discordant : Nat) (fixShare alpha total : Double) (fixed : Nat) :
    Except NumberError Double := do
  let ways ← Double.ofInt (discordant.choose fixed)
  let fixes ← Libm.pow fixShare fixed
  let breaks ← Libm.pow ((Double.nearest 1).sub fixShare) (discordant - fixed)
  let observed := (ways.mul fixes).mul breaks
  let value ← mcnemarP fixed (discordant - fixed)
  return if value.lt alpha then total.add observed else total

/-- `power_at`. -/
def powerAt (discordant : Nat) (fixShare alpha : Double) : Except NumberError Double :=
  (List.range (discordant + 1)).foldlM (powerTerm discordant fixShare alpha) (Double.nearest 0)

/-- The first of these numbers of pairs that reaches the power, or the cap. -/
def firstPowered (fixShare alpha power : Double) (cap : Nat) : List Nat → Except NumberError Nat
  | [] => .ok cap
  | discordant :: rest => do
      let reached ← powerAt discordant fixShare alpha
      if power.le reached then return discordant
      firstPowered fixShare alpha power cap rest

/-- `discordant_needed`. -/
def discordantNeeded (fixShare alpha power : Double) (cap : Nat) : Except NumberError Nat :=
  firstPowered fixShare alpha power cap (range 2 (cap + 1))

end

structure PowerPlan where
  generation : Nat
  residualFailures : Int
  residualRate : Double
  discordantNeeded : Nat
  seedsNeeded : Int
  seedsUsed : Int
  capped : Bool
  discordanceYield : Double
  searchFraction : Double

namespace PowerPlan

/-- `asdict(plan)`. -/
def asdict (plan : PowerPlan) : Json :=
  .obj [("generation", .int plan.generation), ("residual_failures", .int plan.residualFailures),
    ("residual_rate", .float plan.residualRate.value),
    ("discordant_needed", .int plan.discordantNeeded), ("seeds_needed", .int plan.seedsNeeded),
    ("seeds_used", .int plan.seedsUsed), ("capped", .bool plan.capped),
    ("discordance_yield", .float plan.discordanceYield.value),
    ("search_fraction", .float plan.searchFraction.value)]

end PowerPlan

/-- `1e-6`. -/
def smallest : Double := Double.nearest (1 / 1000000)

/-- `plan_generation`, with its default cap and minimum. -/
def planGeneration [Libm] (generation : Nat) (residualFailures : Int) (observed reservoir : Nat)
    (fixShare alpha power discordanceYield searchFraction : Double) : Except NumberError PowerPlan := do
  let residualRate ← Double.ratio residualFailures (max observed 1 : Nat)
  let needed ← discordantNeeded fixShare alpha power 400
  let yieldPerSeed := (residualRate.mul discordanceYield).maxOf smallest
  let wanted ← ((← Double.ofInt needed).div yieldPerSeed).bind Double.roundInt
  let searched ← ((← Double.ofInt (max 60 wanted)).div (searchFraction.maxOf smallest)).bind
    Double.roundInt
  return {
    generation, residualFailures, residualRate
    discordantNeeded := needed
    seedsNeeded := searched
    seedsUsed := min searched reservoir
    capped := decide ((reservoir : Int) < searched)
    discordanceYield, searchFraction }

end Rsi
end PhysicalHarness
