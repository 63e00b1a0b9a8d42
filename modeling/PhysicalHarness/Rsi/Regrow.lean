import PhysicalHarness.Rsi.Gate
import PhysicalHarness.Rsi.Preregistration

namespace PhysicalHarness
namespace Rsi

open Python Harness JsonText Fallible

/-!
# Growing a bundle again

A sealed campaign is a preregistration and its generations.  The promoted ones are
appended again, each is held against the digest that was sealed, and a campaign that was
seeded starts from the bundle of its parent, which is grown again in the same way.
-/

/-- The bundle that a campaign starts from when no parent is given. -/
def Preregistration.root (prereg : Preregistration) : Bundle :=
  ⟨[], prereg.criticBudget, prereg.actionBudget, none⟩

def short (digest : String) : String := String.ofList (digest.toList.take 12)

section

variable [Host] [Sha256] [FloatText]

def regrowOne (installed : Installed) (bundle : Bundle) (generation : Json) :
    Except CampaignError Bundle := do
  let promoted ← raised (generation.item "promoted")
  if !promoted.truthy then return bundle
  let rule ← raised ((generation.item "rule").bind ruleFromCanonical)
  let child ← raised (bundle.append installed.repertoire rule)
  let digest ← raised (child.sha installed.repertoire)
  let recorded ← raised (generation.item "child_sha")
  if recorded.eq (.str digest) then return child
  let number ← raised (generation.item "generation")
  let recordedText ← raised recorded.text
  throw (.assertionError ("rebuilt generation " ++ pyStr number ++ " hashes to " ++ short digest ++
    ", archive sealed child_sha " ++ short recordedText ++
    ": the reconstruction does not reproduce the sealed bundle"))

theorem regrowOne_rejected {installed : Installed} {bundle : Bundle} {generation : Json}
    (promoted : generation.item "promoted" = .ok (.bool false)) :
    regrowOne installed bundle generation = .ok bundle := by
  rw [regrowOne, promoted]
  rfl

theorem regrowOne_promoted {installed : Installed} {bundle child : Bundle} {generation : Json}
    {rule : Rule} {digest : String} (promoted : generation.item "promoted" = .ok (.bool true))
    (read : (generation.item "rule").bind ruleFromCanonical = .ok rule)
    (appended : bundle.append installed.repertoire rule = .ok child)
    (reproduced : child.sha installed.repertoire = .ok digest)
    (recorded : generation.item "child_sha" = .ok (.str digest)) :
    regrowOne installed bundle generation = .ok child := by
  have same : (Json.str digest).eq (.str digest) = true := (Json.eq_str_iff _ _).mpr rfl
  have promoted_ : raised (generation.item "promoted") = .ok (.bool true) :=
    mapError_eq_ok.mpr promoted
  have rule_ : raised ((generation.item "rule").bind ruleFromCanonical) = .ok rule :=
    mapError_eq_ok.mpr read
  have child_ : raised (bundle.append installed.repertoire rule) = .ok child :=
    mapError_eq_ok.mpr appended
  have digest_ : raised (child.sha installed.repertoire) = .ok digest := mapError_eq_ok.mpr reproduced
  have recorded_ : raised (generation.item "child_sha") = .ok (.str digest) :=
    mapError_eq_ok.mpr recorded
  rw [regrowOne, promoted_, bind_ok]
  change (raised ((generation.item "rule").bind ruleFromCanonical) >>= _) = _
  rw [rule_, bind_ok, child_, bind_ok, digest_, bind_ok, recorded_, bind_ok, if_pos same]
  rfl

def regrow (installed : Installed) (root : Bundle) (generations : List Json) :
    Except CampaignError Bundle := do
  let bundle ← generations.foldlM (regrowOne installed) root
  if bundle.rules = [] then
    throw (.raised (.valueError "no promoted generations in this store; nothing to rebuild"))
  return bundle

/-- The directories that a path may lead to; a directory without a store has no index. -/
abbrev Directories : Type := String → CampaignStore

/-- `_seed_from_parent`; the chain of parents is followed as deep as the interpreter
recurses. -/
def seedFromParent (installed : Installed) (directories : Directories) :
    Nat → Preregistration → String → Except CampaignError Bundle
  | 0, _, _ => .error .recursionError
  | depth + 1, prereg, path => do
      let archived ← (readStoreArtifacts (directories path)).mapError .store
      match archived.get "preregistration" with
      | [] => throw (.raised (.valueError ("parent store " ++ path ++
          " has no preregistration artifact")))
      | payload :: _ =>
          let parentPrereg ← raised (rebuildPreregistration payload)
          let root ← match parentPrereg.parentStore with
            | none => pure parentPrereg.root
            | some path => seedFromParent installed directories depth parentPrereg path
          let parent ← regrow installed root (archived.get "generation")
          let digest ← raised (parent.sha installed.repertoire)
          if prereg.parentFinalSha ≠ some digest then
            throw (.assertionError ("parent store " ++ path ++ " rebuilds to bundle " ++ short digest ++
              ", but the prereg pinned parent_final_sha " ++
              short (prereg.parentFinalSha.getD "None") ++
              ": refusing to seed from a parent that does not match its preregistration"))
          return { prereg.root with rules := parent.rules }

def startingBundle (installed : Installed) (directories : Directories) (depth : Nat)
    (prereg : Preregistration) : Except CampaignError Bundle :=
  match prereg.parentStore with
  | none => .ok prereg.root
  | some path => seedFromParent installed directories depth prereg path

/-- `rebuild_final_bundle`. -/
def rebuildFinalBundle (installed : Installed) (directories : Directories) (depth : Nat)
    (prereg : Preregistration) (generations : List Json) : Except CampaignError Bundle := do
  let root ← startingBundle installed directories depth prereg
  regrow installed root generations

end

end Rsi
end PhysicalHarness
