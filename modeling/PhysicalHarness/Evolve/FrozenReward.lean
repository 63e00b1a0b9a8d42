import PhysicalHarness.Evolve.Workspace

namespace PhysicalHarness
namespace Evolve

open Python Fallible

/-!
# The frozen reward

The tools never write outside the copy, and never to a protected file.  What an import of a
protected module reads is another matter: a package of the same name comes first, and a tool
may write one.
-/

variable {β : Type}

/-- The source file of a module and the package that comes before it, as paths in a card. -/
def guarded : List Path :=
  protectedModules.map (fun module_ => [module_ ++ ".py"]) ++
    protectedModules.map (fun module_ => [module_, "__init__.py"])

def Apart (space : Workspace) (card : Path) : Prop := ¬ space.path <+: card ∧ ¬ card <+: space.path

theorem Apart.file {space : Workspace} {card : Path} (apart : Apart space card) (rel : Path) :
    ¬ space.path <+: card ++ rel := by
  intro under
  rcases List.prefix_or_prefix_of_prefix under (List.prefix_append card rel) with inside | around
  · exact apart.1 inside
  · exact apart.2 around

theorem files_of_rmtree {path : Path} {storage next : Storage β} (ran : rmtree path storage = .ok next) :
    (∀ file, ¬ path <+: file → next.files file = storage.files file) ∧
      (∀ dir, ¬ path <+: dir → next.dirs dir = storage.dirs dir) ∧
      next.dirs path = false ∧ next.files path = none := by
  rw [rmtree] at ran
  split at ran
  · cases ran
    have itself : path.isPrefixOf path = true := List.isPrefixOf_iff_prefix.mpr (List.prefix_refl path)
    have other : ∀ file, ¬ path <+: file → path.isPrefixOf file = false := by
      intro file apart
      rw [← Bool.not_eq_true, List.isPrefixOf_iff_prefix]
      exact apart
    refine ⟨fun file apart => ?_, fun dir apart => ?_, ?_, ?_⟩
    · change (if path.isPrefixOf file then none else storage.files file) = _
      rw [other file apart]
      rfl
    · change (!path.isPrefixOf dir && storage.dirs dir) = _
      rw [other dir apart]
      rfl
    · change (!path.isPrefixOf path && storage.dirs path) = _
      rw [itself]
      rfl
    · change (if path.isPrefixOf path then none else storage.files path) = _
      rw [itself]
      rfl
  · cases ran

theorem files_of_copytree {source path : Path} {storage next : Storage β}
    (ran : copytree source path storage = .ok next) :
    (∀ file, ¬ path <+: file → next.files file = storage.files file) ∧
      (∀ dir, storage.dirs dir = true → next.dirs dir = true) ∧
      ∀ rel, ignored rel = false → next.files (path ++ rel) = storage.files (source ++ rel) := by
  rw [copytree] at ran
  split at ran
  · cases ran
    refine ⟨fun file apart => ?_, fun dir there => ?_, fun rel kept => ?_⟩
    · rw [← List.isPrefixOf_iff_prefix, Bool.not_eq_true] at apart
      change (if path.isPrefixOf file then _ else storage.files file) = _
      rw [apart]
      rfl
    · change (_ || storage.dirs dir) = true
      rw [there, Bool.or_true]
    · have under : path.isPrefixOf (path ++ rel) = true :=
        List.isPrefixOf_iff_prefix.mpr (List.prefix_append path rel)
      change (if path.isPrefixOf (path ++ rel) then
        (if ignored ((path ++ rel).drop path.length) then none
          else storage.files (source ++ (path ++ rel).drop path.length)) else _) = _
      rw [under, if_pos rfl, List.drop_left, kept]
      rfl
  · cases ran

section

variable [Host] [Toolbox β] {space : Workspace}

theorem inside_of_resolve {rel : String} {path : Path} (resolved : resolve space β rel = .ok path) :
    space.path <+: path := by
  rw [resolve] at resolved
  split at resolved
  · cases resolved
  · split at resolved
    · rename_i inside
      cases resolved
      rw [Bool.and_eq_true] at inside
      exact List.isPrefixOf_iff_prefix.mp inside.1
    · cases resolved

variable {storage next current : Storage β} {call : ToolCall}

theorem outside_of_effect (effect : Effect space storage call next) :
    (∀ file, ¬ space.path <+: file → next.files file = storage.files file) ∧
      ∀ dir, ¬ space.path <+: dir → storage.dirs dir = true → next.dirs dir = true := by
  have other : ∀ {path file : Path}, space.path <+: path → ¬ space.path <+: file → file ≠ path :=
    fun inside apart same => apart (same ▸ inside)
  cases effect with
  | none files dirs => exact ⟨fun file _ => congrFun files file, fun dir _ => dirs dir⟩
  | edited resolved open_ files dirs =>
      refine ⟨fun file apart => ?_, fun dir _ there => dirs ▸ there⟩
      rw [files]
      exact if_neg (other (inside_of_resolve resolved) apart)
  | written resolved open_ compiles files dirs =>
      refine ⟨fun file apart => ?_, fun dir _ => dirs dir⟩
      rw [files]
      exact if_neg (other (inside_of_resolve resolved) apart)
  | branched point removed copied =>
      rcases files_of_rmtree removed with ⟨files, dirs, _, _⟩
      rcases copied with done | ⟨rfl, _⟩
      · rcases files_of_copytree done with ⟨files_, dirs_, _⟩
        exact ⟨fun file apart => (files_ file apart).trans (files file apart),
          fun dir apart there => dirs_ dir ((dirs dir apart).trans there)⟩
      · exact ⟨files, fun dir apart there => (dirs dir apart).trans there⟩

/-! ## The guarded files -/

structure Beside (space : Workspace) (storage current : Storage β) : Prop where
  files : ∀ file, ¬ space.path <+: file → current.files file = storage.files file
  dirs : ∀ dir, ¬ space.path <+: dir → storage.dirs dir = true → current.dirs dir = true

theorem Beside.step (beside : Beside space storage current)
    (effect : Effect space current call next) :
    Beside space storage next := by
  rcases outside_of_effect effect with ⟨files, dirs⟩
  exact ⟨fun file apart => (files file apart).trans (beside.files file apart),
    fun dir apart there => dirs dir apart (beside.dirs dir apart there)⟩

/-- Where the check passes, a protected module is imported from a file of the stock's
content. -/
def Frozen (space : Workspace) (current : Storage β) : Prop :=
  protectedOk space current = none → ∀ module_ ∈ protectedModules,
    importFile space.path module_ current = importFile space.stock module_ current

end

section

local instance cardHost : Host := asciiHost

/-- Files without links, whose bytes are their text. -/
local instance textToolbox : Toolbox String where
  resolve := fun path => some (path.foldl (fun out part => if part = ".." then out.dropLast else out ++ [part]) [])
  encode := id
  decode := some
  syntaxError := fun _ => none
  digest := id

end

end Evolve
end PhysicalHarness
