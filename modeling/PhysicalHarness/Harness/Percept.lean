import Mathlib.Algebra.Order.BigOperators.Group.List
import Mathlib.Data.List.Dedup
import Mathlib.Data.List.Perm.Subperm
import PhysicalHarness.Harness.Events

namespace PhysicalHarness
namespace Harness

open Python JsonText

/-!
# The privilege boundary

Candidate code sees an observation through a view: the features that the
campaign's budget admits, with a record of those that were read.  What the record
costs is charged against the budget, and the contents are committed to by digest.
-/

/-! ## The catalogue of features -/

inductive Privilege where
  | observable
  | privileged
  deriving DecidableEq

def Privilege.cost : Privilege → Nat
  | .observable => 0
  | .privileged => 1

/-- `REGISTRY`, by name; registering a name twice raises. -/
structure Registry where
  features : List (String × Privilege)
  unique : (Assoc.keys features).Nodup

namespace Registry

variable (registry : Registry)

def privilege? (name : String) : Option Privilege := Assoc.get? registry.features name

/-- The cost of one feature; an unknown name costs nothing here, see `privilegeCost`. -/
def costOf (name : String) : Nat := ((registry.privilege? name).map Privilege.cost).getD 0

/-- The cost of names that are registered. -/
def total (names : List String) : Nat := (names.map registry.costOf).sum

/-- `privilege_cost(names)`; `none` where it raises for an unknown feature. -/
def privilegeCost (names : List String) : Option Nat :=
  if names.all (fun name => (registry.privilege? name).isSome) then some (registry.total names)
  else none

/-- `PrivilegePolicy.admitted(budget)`. -/
def admitted (budget : Int) : List String :=
  ((registry.features.filter (fun feature => decide ((feature.2.cost : Int) ≤ budget))).map
    Prod.fst).insertionSort (· ≤ ·)

theorem mem_admitted_iff (budget : Int) (name : String) :
    name ∈ registry.admitted budget ↔
      ∃ privilege, registry.privilege? name = some privilege ∧ (privilege.cost : Int) ≤ budget := by
  rw [admitted, (List.perm_insertionSort _ _).mem_iff, List.mem_map]
  constructor
  · rintro ⟨⟨name_, privilege⟩, mem, rfl⟩
    rw [List.mem_filter, decide_eq_true_eq] at mem
    exact ⟨privilege, Assoc.get?_of_mem registry.unique mem.1, mem.2⟩
  · rintro ⟨privilege, found, cheap⟩
    refine ⟨(name, privilege), ?_, rfl⟩
    rw [List.mem_filter, decide_eq_true_eq]
    exact ⟨Assoc.mem_of_get? found, cheap⟩

theorem nodup_admitted (budget : Int) : (registry.admitted budget).Nodup := by
  rw [admitted, (List.perm_insertionSort _ _).nodup_iff]
  exact (registry.unique.sublist (List.Sublist.map _ List.filter_sublist))

theorem total_le_of_subset {names others : List String} (unique : names.Nodup)
    (within : ∀ name ∈ names, name ∈ others) : registry.total names ≤ registry.total others := by
  rcases List.subperm_of_subset unique within with ⟨same, perm, sublist⟩
  have costs := (perm.map registry.costOf).sum_eq
  have less := (sublist.map registry.costOf).sum_le_sum (fun _ _ => Nat.zero_le _)
  rw [total, total, ← costs]
  exact less

end Registry

/-- The catalogue of the base. -/
def featureCatalog : Registry where
  features := [
    ("observable.finger_gap", .observable),
    ("observable.eef_z", .observable),
    ("observable.joint_speed", .observable),
    ("observable.gripper_effort", .observable),
    ("privileged.object_z", .privileged),
    ("privileged.grasp_error", .privileged),
    ("privileged.stack_xy_residual", .privileged),
    ("privileged.stack_z_residual", .privileged)]
  unique := by decide

/-- A projection of one control step that remembers which features it served. -/
structure FeatureView where
  values : List (String × Double)
  reads : List String
  step : Nat
  episode : String

namespace FeatureView

/-- `view[name]`; `none` where it raises `KeyError`, which is no read. -/
def read (view : FeatureView) (name : String) : Option (Double × FeatureView) :=
  (Assoc.get? view.values name).map (fun value =>
    (value, { view with reads := if name ∈ view.reads then view.reads else name :: view.reads }))

def privilegeUsed (registry : Registry) (view : FeatureView) : Nat := registry.total view.reads

variable [Sha256] [FloatText]

def digest (view : FeatureView) : String :=
  sha (dumps compact (sortKeys (.obj [("episode", .str view.episode), ("step", .int view.step),
    ("values", .obj (view.values.map (fun pair => (pair.1, .float pair.2.round9.value))))])))

end FeatureView

/-- `project`, over the values that the extractors give. -/
def project (values : List (String × Double)) (step : Nat) (episode : String) : FeatureView :=
  ⟨values, [], step, episode⟩

end Harness
end PhysicalHarness
