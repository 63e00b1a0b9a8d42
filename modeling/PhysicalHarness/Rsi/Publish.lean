import PhysicalHarness.Rsi.Sealed

namespace PhysicalHarness
namespace Rsi

open Python Harness JsonText Fallible

/-!
# Publishing what a campaign promoted

Each promoted generation becomes one skill record.  The trigger and the recovery of the
record are those of the rule; the held-out numbers and the judgement belong to the whole
chain and are the same in every record of the campaign.
-/

/-- `SKILL_KIND`. -/
def skillKind : String := "grasp_recovery"

/-- `heldout_judgement_established`; `None` where the judgement was not required. -/
def established (prereg : Preregistration) (judgement : Option PairedResult) : Json :=
  orNull (fun result : PairedResult =>
    .bool (result.pValue.lt prereg.alpha && decide (result.broken < result.fixed))) judgement

def skillFields (prereg : Preregistration) (result : CampaignResult) (finalBundleSha : Json)
    (mountPlanSha : Option String) (rec trigger recovery : Json) : List (String × Json) :=
  [("kind", .str skillKind), ("policy", .str prereg.policy), ("task", .str prereg.task),
    ("generation", rec.getD "generation" .null), ("preconditions", trigger), ("recovery", recovery),
    ("effects", .obj [("dev_gate_vs_parent", rec.getD "dev_gate" .null)]),
    ("judgement_dev", rec.getD "blind_gate" .null),
    ("heldout_judgement_established", established prereg result.heldoutVsBlind),
    ("bundle_sha", rec.getD "child_sha" .null),
    ("bundle_evidence", .obj [
      ("note", .str ("bundle-level: shared by every rule in the promoted " ++
        "chain, not attributable to this rule alone")),
      ("final_bundle_sha", finalBundleSha), ("heldout", orNull PairedResult.asdict result.heldout),
      ("judgement", orNull PairedResult.asdict result.heldoutVsBlind),
      ("ablation", orNull (fun rungs => .arr (rungs.map rungJson)) result.ablation),
      ("declared_privilege",
        orNull (fun held : PairedResult => .int held.declaredPrivilege) result.heldout)]),
    ("prereg_sha", .str result.preregistrationSha)] ++
    present "mount_plan_sha" Json.str mountPlanSha

/-- The record of one promoted generation. -/
def skillRecord (prereg : Preregistration) (result : CampaignResult) (finalBundleSha : Json)
    (mountPlanSha : Option String) (rec : Json) : Except PyError Json := do
  let rule ← rec.item "rule"
  let trigger ← rule.item "trigger"
  let recovery ← rule.item "recovery"
  return .obj (skillFields prereg result finalBundleSha mountPlanSha rec trigger recovery)

theorem task_of_skillRecord {prereg : Preregistration} {result : CampaignResult} {finalBundleSha : Json}
    {mountPlanSha : Option String} {rec record : Json}
    (made : skillRecord prereg result finalBundleSha mountPlanSha rec = .ok record) :
    record.get? "task" = some (.str prereg.task) := by
  rcases of_bind made with ⟨rule, _, made⟩
  rcases of_bind made with ⟨trigger, _, made⟩
  rcases of_bind made with ⟨recovery, _, made⟩
  cases made
  rfl

end Rsi
end PhysicalHarness
