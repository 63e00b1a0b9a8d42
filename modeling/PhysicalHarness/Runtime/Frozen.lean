import PhysicalHarness.Runtime.Process

namespace PhysicalHarness
namespace Runtime

open Python JsonText

/-!
# The skills root of an execution session

The first boot of a session seals the names of its skills, and every later boot takes them
from the sealed row.  Between a boot and a claim the files may change in any way.  The audit
of a claim compares names, so what it protects depends on which changes show in them.
-/

section

variable [FloatText] [Limits]

/-! ## Boots and changes -/

local instance frozenBytes : DecidableEq ByteArray := ByteArray.instDecidableEq

/-- The skills root, the manifest of the sealed boot row, the files at that seal, and the
baseline of the runtime that is up. -/
structure SkillsRoot where
  files : Files
  sealed : Option (List String)
  atSeal : Files
  baseline : Option (List String)
  deriving DecidableEq

inductive RootEvent where
  /-- Any change from outside. -/
  | change (files : Files)
  /-- A boot, whose records can be assembled or not. -/
  | boot (assembles : Bool)
  | stop

namespace SkillsRoot

def sealBoot (root : SkillsRoot) : SkillsRoot :=
  match root.sealed with
  | some _ => root
  | none => { root with sealed := some (skillsManifest root.files), atSeal := root.files }

/-- A boot that cannot read or assemble the records raises after its seal. -/
def boot (root : SkillsRoot) (assembles : Bool) : SkillsRoot :=
  if mounts root.files && assembles then { root.sealBoot with baseline := root.sealBoot.sealed } else root.sealBoot

def step : RootEvent → SkillsRoot → Option SkillsRoot
  | .change files, root => some { root with files }
  | .boot assembles, root => if root.baseline = none then some (root.boot assembles) else none
  | .stop, root => some { root with baseline := none }

/-- A session directory before its first boot. -/
def fresh (files : Files) : SkillsRoot := ⟨files, none, [], none⟩

abbrev run : SkillsRoot → List RootEvent → Option SkillsRoot := Schedule.run step

/-- The runtime that is up, in execution mode. -/
def session (root : SkillsRoot) : Session := ⟨.execution, root.baseline.getD [], root.files⟩

/-- A sealed manifest names the files at its seal, and a baseline is the sealed one. -/
structure Sealed (root : SkillsRoot) : Prop where
  names : ∀ manifest, root.sealed = some manifest → manifest = skillsManifest root.atSeal
  baseline : ∀ manifest, root.baseline = some manifest → root.sealed = some manifest

omit [FloatText] [Limits] in
theorem Sealed.sealBoot {root : SkillsRoot} (kept : Sealed root) : Sealed root.sealBoot := by
  rw [SkillsRoot.sealBoot]
  cases at_ : root.sealed with
  | some manifest => exact kept
  | none =>
      refine ⟨fun manifest same => (Option.some.inj same).symm, ?_⟩
      intro manifest up
      have never := kept.baseline manifest up
      rw [at_] at never
      cases never

theorem Sealed.step {event : RootEvent} {root next : SkillsRoot} (kept : Sealed root)
    (stepped : step event root = some next) : Sealed next := by
  cases event with
  | change files =>
      cases stepped
      exact ⟨kept.names, kept.baseline⟩
  | stop =>
      cases stepped
      exact ⟨kept.names, nofun⟩
  | boot assembles =>
      rcases Option.ite_none_right_eq_some.mp stepped with ⟨_, same⟩
      cases same
      rw [boot]
      by_cases booted : (mounts root.files && assembles) = true
      · rw [if_pos booted]
        exact ⟨kept.sealBoot.names, fun _ same => same⟩
      · rw [if_neg booted]
        exact kept.sealBoot

omit [FloatText] [Limits] in
theorem Sealed.manifest {root : SkillsRoot} (kept : Sealed root) (up : root.baseline ≠ none) :
    root.session.manifest = skillsManifest root.atSeal := by
  rcases Option.ne_none_iff_exists'.mp up with ⟨manifest, at_⟩
  have names := kept.names manifest (kept.baseline manifest at_)
  rw [session, at_]
  exact names

end SkillsRoot

/-- The same names of files with the same contents. -/
def SameFiles (before now : Files) : Prop := ∀ file, file ∈ before ↔ file ∈ now

/-- No node was dispatched, and the brief is not done. -/
def Refused (outcome : Outcome) : Prop := outcome.dispatched = false ∧ outcome.place ≠ .done

variable [Host]

end

section

local instance frozenFloats : FloatText := exactDecimals

local instance frozenHost : Host := asciiHost

local instance frozenLimits : Limits := ⟨fun _ => false⟩

end

end Runtime
end PhysicalHarness
