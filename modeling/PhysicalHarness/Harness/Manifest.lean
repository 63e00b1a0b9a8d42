import Mathlib.Data.List.Perm.Basic
import PhysicalHarness.Lib.Claims
import PhysicalHarness.Python.HashKey

namespace PhysicalHarness
namespace Harness
namespace Manifest

open Python Fallible

/-!
# The manifests of the cards

Each card declares its mounts, task bindings, campaigns, benchmarks, bundles and recoveries in a
manifest, and every one of these names is claimed once.  Executors are collected as they come.  What
a card declares by itself is what it adds to the registry after any other cards, so the order of the
scan decides nothing about whether the cards are accepted.
-/

/-- A manifest with the name of its directory. -/
structure Card where
  plugin : String
  data : List (String × Json)

/-- A root of cards: a card of its own, or the directories below it that have a manifest. -/
structure PluginRoot where
  name : String
  manifest : Option (List (String × Json))
  cards : List Card

/-- `_load`. -/
def loadCards (root : PluginRoot) : List Card :=
  match root.manifest with
  | some data => [⟨root.name, data⟩]
  | none => root.cards.insertionSort (fun left right => left.plugin ≤ right.plugin)

/-- The cards in the order of the scan: the installed ones, then the extra roots. -/
def scan (root : PluginRoot) (extra : List PluginRoot) : List Card :=
  (root :: extra).flatMap loadCards

/-! ## What a manifest says -/

structure Mount where
  capability : String
  provider : Json
  params : List (Json × Json)

/-- An entry of `provides`. -/
structure Provided where
  kind : String
  ref : String
  name : Json
  plugin : String
  /-- the `reads` and `args` of a predicate -/
  signature : Option (List Json × List Json)
  /-- the wire of an executor -/
  transport : Option Json

structure Executor where
  key : String
  skill : Json
  embodiment : Json
  ref : Json
  transport : Json
  plugin : String

/-- `data.get(name, {}).items()`. -/
def Card.table (card : Card) (name : String) : Except PyError (List (String × Json)) :=
  match Assoc.get? card.data name with
  | none => .ok []
  | some (.obj fields) => .ok fields
  | some _ => .error .attributeError

/-- `spec if isinstance(spec, str) else spec["ref"]`. -/
def refOf (spec : Json) : Except PyError Json :=
  if spec.str?.isSome then .ok spec else spec.item "ref"

def mountOf (spec : String × Json) : Except PyError Mount := do
  let ref ← refOf spec.2
  let params ← if spec.2.str?.isSome then pure [] else pyDict (spec.2.getD "params" (.obj []))
  return ⟨spec.1, ref, params⟩

/-- `card_mounts`. -/
def cardMounts (card : Card) : Except PyError (List Mount) := do
  let specs ← card.table "mounts"
  specs.mapM mountOf

/-- `card_bundles`. -/
def cardBundles (card : Card) : Except PyError (List (String × List Mount)) := do
  let tables ← card.table "bundles"
  tables.mapM (fun table =>
    match table.2 with
    | .obj specs => (specs.mapM mountOf).map (Prod.mk table.1)
    | _ => .error .attributeError)

def executorOf (plugin : String) (spec : String × Json) : Except PyError Executor := do
  let skill ← spec.2.item "skill"
  let embodiment ← spec.2.item "embodiment"
  let ref ← spec.2.item "ref"
  return ⟨spec.1, skill, embodiment, ref, spec.2.getD "transport" (.str "inproc"), plugin⟩

def Card.executors (card : Card) : Except PyError (List Executor) := do
  let specs ← card.table "executors"
  specs.mapM (executorOf card.plugin)

/-- `data.get("enabled", True)`. -/
def Card.enabled (card : Card) : Bool := ((Assoc.get? card.data "enabled").getD (.bool true)).truthy

/-- `PROVIDES_KINDS`, as it prints. -/
def providesKinds : List String :=
  ["embodiment", "executor", "planner", "predicate", "recovery", "skill"]

section

variable [Host]

/-- `reads` and `args` of a predicate. -/
def signatureOf (plugin : String) (name raw : Json) : Except PyError (List Json × List Json) := do
  let reads := ((raw.get? "reads").bind Json.arr?).filter (fun names => names.all (·.str?.isSome))
  let needed ← match reads with
    | some names => pure names
    | none => .error (.valueError ("plugin " ++ Host.repr (.str plugin) ++ ": predicate " ++
        Host.repr name ++ " needs reads = [str, ...]"))
  let args ← (raw.getD "args" (.arr [])).iter
  if args.all (·.str?.isSome) then return (needed, args)
  else .error (.valueError ("plugin " ++ Host.repr (.str plugin) ++ ": predicate " ++
    Host.repr name ++ " args must be strings"))

/-- An entry of `provides`, shape-checked. -/
def providedOf (plugin : String) (raw : Json) : Except PyError Provided := do
  if raw.isMapping then pure () else .error .attributeError
  let kind := raw.getD "kind" .null
  hashed kind
  let kind ← match kind.str?.filter (fun kind => decide (kind ∈ providesKinds)) with
    | some kind => pure kind
    | none => .error (.valueError ("plugin " ++ Host.repr (.str plugin) ++ ": provides kind " ++
        Host.repr kind ++ " not in " ++ reprNames providesKinds))
  let ref ← match (raw.getD "ref" .null).str?.filter (fun ref => decide (':' ∈ ref.toList)) with
    | some ref => pure ref
    | none => .error (.valueError ("plugin " ++ Host.repr (.str plugin) ++
        ": provides ref must be 'module:attr', got " ++ Host.repr (raw.getD "ref" .null)))
  let attr := String.ofList (ref.toList.reverse.takeWhile (· ≠ ':')).reverse
  let name := raw.getD "name" (.str attr)
  let signature ←
    if kind = "predicate" then (signatureOf plugin name raw).map some else pure none
  let transport := if kind = "executor" then some (raw.getD "transport" (.str "inproc")) else none
  return ⟨kind, ref, name, plugin, signature, transport⟩

/-- `card_provides`: a kind and a name once. -/
def cardProvides (card : Card) : Except PyError (List Provided) := do
  let raws ← ((Assoc.get? card.data "provides").getD (.arr [])).iter
  raws.foldlM (fun out raw => do
    let entry ← providedOf card.plugin raw
    hashed entry.name
    if out.any (fun seen => decide (seen.kind = entry.kind ∧ seen.name.hashKey = entry.name.hashKey))
    then .error (.valueError ("plugin " ++ Host.repr (.str card.plugin) ++ " provides " ++ entry.kind ++
      " " ++ Host.repr entry.name ++ " twice"))
    else return out ++ [entry]) []

/-! ## The registry -/

abbrev Owned (ν : Type) := Claims String String ν

structure Folding where
  mounts : Owned Mount
  taskBindings : Owned (List (Json × Json))
  campaigns : Owned Json
  bundles : Owned (List Mount)
  recoveries : Owned (String × Json)
  benchmarks : Owned (List (Json × Json))
  thirdParty : List (String × List Json)
  provides : List Provided
  executors : List Executor

def Folding.empty : Folding := ⟨.empty, .empty, .empty, .empty, .empty, .empty, [], [], []⟩

/-- The union of the manifests. -/
structure Registry where
  mounts : List Mount
  taskBindings : Dict String (List (Json × Json))
  campaigns : Dict String Json
  thirdParty : List (String × List Json)
  bundles : Dict String (List Mount)
  recoveries : Dict String (String × Json)
  provides : List Provided
  benchmarks : Dict String (List (Json × Json))
  executors : List Executor

def Folding.registry (so : Folding) : Registry where
  mounts := so.mounts.registry.entries.map Prod.snd
  taskBindings := so.taskBindings.registry
  campaigns := so.campaigns.registry
  thirdParty := so.thirdParty
  bundles := so.bundles.registry
  recoveries := so.recoveries.registry
  provides := so.provides
  benchmarks := so.benchmarks.registry
  executors := so.executors

/-- What `_claim` says of a second claimant. -/
def duplicate (kind plugin key owner : String) : PyError :=
  .valueError ("duplicate " ++ kind ++ " " ++ Host.repr (.str key) ++ ": declared by both " ++
    Host.repr (.str owner) ++ " and " ++ Host.repr (.str plugin) ++
    " -- two cards cannot claim one " ++ kind)

/-- `_claim`, for each item of a card. -/
def claimEach {ν ι : Type} (kind plugin : String) (read : ι → Except PyError (String × ν))
    (space : Owned ν) (items : List ι) : Except PyError (Owned ν) :=
  space.claimEach (duplicate kind plugin) plugin read items

def nameThirdParty (named : List (String × List Json)) (card : Card) :
    Except PyError (List (String × List Json)) :=
  match Assoc.get? card.data "third_party" with
  | some names => names.iter.map (Assoc.set named card.plugin)
  | none => .ok named

/-- `_claim` for the repair shapes of a card. -/
def claimRecovery (plugin : String) (spec : String × Json) :
    Except PyError (String × String × Json) := do
  let ref ← refOf spec.2
  return (spec.1, (plugin, ref))

def claimTable (spec : String × Json) : Except PyError (String × List (Json × Json)) :=
  (pyDict spec.2).map (Prod.mk spec.1)

def foldOwned (so : Folding) (card : Card) : Except PyError Folding := do
  if ((Assoc.get? card.data "actuation").getD (.str "sim")).eq (.str "real") then
    .error (.valueError ("plugin " ++ Host.repr (.str card.plugin) ++
      " declares actuation:real; the sim runtime refuses it (a real actuator needs a separate " ++
      "authenticated runtime)"))
  else
    let thirdParty ← nameThirdParty so.thirdParty card
    let specs ← card.table "recoveries"
    let recoveries ← claimEach "recovery" card.plugin (claimRecovery card.plugin) so.recoveries specs
    let provided ← cardProvides card
    return { so with thirdParty, recoveries, provides := so.provides ++ provided }

def foldEnabled (so : Folding) (card : Card) : Except PyError Folding := do
  let listed ← cardMounts card
  let mounts ← claimEach "capability" card.plugin (fun mount => .ok (mount.capability, mount))
    so.mounts listed
  let bindings ← card.table "task_bindings"
  let taskBindings ← claimEach "task" card.plugin claimTable so.taskBindings bindings
  let scripts ← card.table "campaigns"
  let campaigns ← claimEach "campaign" card.plugin .ok so.campaigns scripts
  let suites ← card.table "benchmarks"
  let benchmarks ← claimEach "benchmark" card.plugin claimTable so.benchmarks suites
  let overlays ← cardBundles card
  let bundles ← claimEach "bundle" card.plugin .ok so.bundles overlays
  let executors ← card.executors
  return { so with mounts, taskBindings, campaigns, benchmarks, bundles,
                   executors := so.executors ++ executors }

def foldActive (so : Folding) (card : Card) : Except PyError Folding :=
  if card.enabled then foldEnabled so card else .ok so

def foldCard (so : Folding) (card : Card) : Except PyError Folding := do
  let next ← foldOwned so card
  foldActive next card

/-- `discover`. -/
def discover (cards : List Card) : Except PyError Registry := do
  let so ← cards.foldlM foldCard .empty
  return so.registry

/-! ## What a card declares by itself -/

theorem claimEach_own {ν ι : Type} {kind plugin : String} {read : ι → Except PyError (String × ν)}
    {space after : Owned ν} {items : List ι}
    (claimed : claimEach kind plugin read space items = .ok after) :
    ∃ own, claimEach kind plugin read .empty items = .ok own ∧ after.taken = space.taken ++ own.taken :=
  Claims.exists_own _ _ _ claimed

theorem claimEach_after {ν ι : Type} {kind plugin : String} {read : ι → Except PyError (String × ν)}
    {space own : Owned ν} {items : List ι} (alone : claimEach kind plugin read .empty items = .ok own)
    (distinct : (space.taken ++ own.taken).Nodup) :
    ∃ after, claimEach kind plugin read space items = .ok after := by
  rcases Claims.exists_after _ _ _ alone distinct with ⟨after, claimed, _⟩
  exact ⟨after, claimed⟩

inductive Space where
  | capability
  | task
  | campaign
  | bundle
  | recovery
  | benchmark

def Folding.taken (so : Folding) : Space → List String
  | .capability => so.mounts.taken
  | .task => so.taskBindings.taken
  | .campaign => so.campaigns.taken
  | .bundle => so.bundles.taken
  | .recovery => so.recoveries.taken
  | .benchmark => so.benchmarks.taken

omit [Host] in
theorem Folding.nodup_taken (so : Folding) (space : Space) : (so.taken space).Nodup := by
  cases space <;> exact Claims.nodup_taken _

def Adds (so own next : Folding) : Prop :=
  ∀ space, next.taken space = so.taken space ++ own.taken space

variable {so next own : Folding} {card : Card} {cards : List Card}

omit [Host] in
theorem named_own {named next : List (String × List Json)} (others : List (String × List Json))
    (done : nameThirdParty named card = .ok next) :
    ∃ own, nameThirdParty others card = .ok own := by
  rw [nameThirdParty] at done ⊢
  cases found : Assoc.get? card.data "third_party" with
  | none => exact ⟨others, rfl⟩
  | some names =>
      rw [found] at done
      rcases map_eq_ok.mp done with ⟨items, listed, _⟩
      exact ⟨_, map_eq_ok.mpr ⟨items, listed, rfl⟩⟩

theorem foldOwned_own (done : foldOwned so card = .ok next) :
    ∃ own, foldOwned .empty card = .ok own ∧ Adds so own next := by
  rw [foldOwned] at done
  by_cases real : ((Assoc.get? card.data "actuation").getD (.str "sim")).eq (.str "real") = true
  · rw [if_pos real] at done
    cases done
  · rw [if_neg real] at done
    rcases of_bind done with ⟨thirdParty, named, done⟩
    rcases of_bind done with ⟨specs, listed, done⟩
    rcases of_bind done with ⟨recoveries, claimed, done⟩
    rcases of_bind done with ⟨provided, shaped, done⟩
    cases done
    rcases claimEach_own claimed with ⟨own, alone, names⟩
    rcases named_own [] named with ⟨other, ownNamed⟩
    refine ⟨⟨.empty, .empty, .empty, .empty, own, .empty, other, provided, []⟩, ?_, ?_⟩
    · rw [foldOwned, if_neg real, Folding.empty, ownNamed, bind_ok, listed, bind_ok, alone, bind_ok,
        shaped]
      rfl
    · intro space
      cases space with
      | recovery => exact names
      | _ => exact (List.append_nil _).symm

theorem foldOwned_after (alone : foldOwned .empty card = .ok own)
    (distinct : ∀ space, (so.taken space ++ own.taken space).Nodup) :
    Returns (foldOwned so card) := by
  rw [foldOwned] at alone
  by_cases real : ((Assoc.get? card.data "actuation").getD (.str "sim")).eq (.str "real") = true
  · rw [if_pos real] at alone
    cases alone
  · rw [if_neg real] at alone
    rcases of_bind alone with ⟨thirdParty, named, alone⟩
    rcases of_bind alone with ⟨specs, listed, alone⟩
    rcases of_bind alone with ⟨recoveries, claimed, alone⟩
    rcases of_bind alone with ⟨provided, shaped, alone⟩
    cases alone
    rcases claimEach_after claimed (distinct .recovery) with ⟨after, here⟩
    rcases named_own so.thirdParty named with ⟨other, hereNamed⟩
    rw [foldOwned, if_neg real, hereNamed, bind_ok, listed, bind_ok, here, bind_ok, shaped, bind_ok]
    exact returns_ok _

theorem foldEnabled_own (done : foldEnabled so card = .ok next) :
    ∃ own, foldEnabled .empty card = .ok own ∧ Adds so own next := by
  rw [foldEnabled] at done
  rcases of_bind done with ⟨mounted, listed, done⟩
  rcases of_bind done with ⟨mounts, claimedMounts, done⟩
  rcases of_bind done with ⟨bindings, bound, done⟩
  rcases of_bind done with ⟨taskBindings, claimedTasks, done⟩
  rcases of_bind done with ⟨scripts, scripted, done⟩
  rcases of_bind done with ⟨campaigns, claimedCampaigns, done⟩
  rcases of_bind done with ⟨suites, measured, done⟩
  rcases of_bind done with ⟨benchmarks, claimedSuites, done⟩
  rcases of_bind done with ⟨overlays, layered, done⟩
  rcases of_bind done with ⟨bundles, claimedBundles, done⟩
  rcases of_bind done with ⟨executors, declared, done⟩
  cases done
  rcases claimEach_own claimedMounts with ⟨ownMounts, aloneMounts, namesMounts⟩
  rcases claimEach_own claimedTasks with ⟨ownTasks, aloneTasks, namesTasks⟩
  rcases claimEach_own claimedCampaigns with ⟨ownCampaigns, aloneCampaigns, namesCampaigns⟩
  rcases claimEach_own claimedSuites with ⟨ownSuites, aloneSuites, namesSuites⟩
  rcases claimEach_own claimedBundles with ⟨ownBundles, aloneBundles, namesBundles⟩
  refine ⟨⟨ownMounts, ownTasks, ownCampaigns, ownBundles, .empty, ownSuites, [], [], executors⟩, ?_, ?_⟩
  · rw [foldEnabled, listed, bind_ok]
    rw [Folding.empty, aloneMounts, bind_ok, bound, bind_ok, aloneTasks, bind_ok, scripted, bind_ok,
      aloneCampaigns, bind_ok, measured, bind_ok, aloneSuites, bind_ok, layered, bind_ok, aloneBundles,
      bind_ok, declared]
    rfl
  · intro space
    cases space with
    | capability => exact namesMounts
    | task => exact namesTasks
    | campaign => exact namesCampaigns
    | bundle => exact namesBundles
    | recovery => exact (List.append_nil _).symm
    | benchmark => exact namesSuites

theorem foldEnabled_after (alone : foldEnabled .empty card = .ok own)
    (distinct : ∀ space, (so.taken space ++ own.taken space).Nodup) :
    Returns (foldEnabled so card) := by
  rw [foldEnabled] at alone
  rcases of_bind alone with ⟨mounted, listed, alone⟩
  rcases of_bind alone with ⟨mounts, claimedMounts, alone⟩
  rcases of_bind alone with ⟨bindings, bound, alone⟩
  rcases of_bind alone with ⟨taskBindings, claimedTasks, alone⟩
  rcases of_bind alone with ⟨scripts, scripted, alone⟩
  rcases of_bind alone with ⟨campaigns, claimedCampaigns, alone⟩
  rcases of_bind alone with ⟨suites, measured, alone⟩
  rcases of_bind alone with ⟨benchmarks, claimedSuites, alone⟩
  rcases of_bind alone with ⟨overlays, layered, alone⟩
  rcases of_bind alone with ⟨bundles, claimedBundles, alone⟩
  rcases of_bind alone with ⟨executors, declared, alone⟩
  cases alone
  rcases claimEach_after claimedMounts (distinct .capability) with ⟨_, hereMounts⟩
  rcases claimEach_after claimedTasks (distinct .task) with ⟨_, hereTasks⟩
  rcases claimEach_after claimedCampaigns (distinct .campaign) with ⟨_, hereCampaigns⟩
  rcases claimEach_after claimedSuites (distinct .benchmark) with ⟨_, hereSuites⟩
  rcases claimEach_after claimedBundles (distinct .bundle) with ⟨_, hereBundles⟩
  rw [foldEnabled, listed, bind_ok, hereMounts, bind_ok, bound, bind_ok, hereTasks, bind_ok, scripted,
    bind_ok, hereCampaigns, bind_ok, measured, bind_ok, hereSuites, bind_ok, layered, bind_ok,
    hereBundles, bind_ok, declared]
  exact returns_ok _

omit [Host] in
theorem taken_empty (space : Space) : Folding.empty.taken space = [] := by
  cases space <;> rfl

theorem foldActive_own (done : foldActive so card = .ok next) :
    ∃ own, foldActive .empty card = .ok own ∧ Adds so own next := by
  rw [foldActive] at done ⊢
  by_cases enabled : card.enabled = true
  · rw [if_pos enabled] at done ⊢
    exact foldEnabled_own done
  · rw [if_neg enabled] at done ⊢
    cases done
    refine ⟨.empty, rfl, fun space => ?_⟩
    rw [taken_empty, List.append_nil]

theorem foldActive_after (alone : foldActive .empty card = .ok own)
    (distinct : ∀ space, (so.taken space ++ own.taken space).Nodup) :
    Returns (foldActive so card) := by
  rw [foldActive] at alone ⊢
  by_cases enabled : card.enabled = true
  · rw [if_pos enabled] at alone ⊢
    exact foldEnabled_after alone distinct
  · rw [if_neg enabled]
    exact returns_ok _

/-- What a card declares by itself, above the enabled gate and below it. -/
def alone (card : Card) : Except PyError (Folding × Folding) := do
  let owned ← foldOwned .empty card
  let active ← foldActive .empty card
  return (owned, active)

/-- The names that a card takes. -/
def names (own : Folding × Folding) (space : Space) : List String :=
  own.1.taken space ++ own.2.taken space

theorem foldCard_alone (done : foldCard so card = .ok next) :
    ∃ own, alone card = .ok own ∧ ∀ space, next.taken space = so.taken space ++ names own space := by
  rw [foldCard] at done
  rcases of_bind done with ⟨between, first, second⟩
  rcases foldOwned_own first with ⟨owned, firstAlone, addsOwned⟩
  rcases foldActive_own second with ⟨active, secondAlone, addsActive⟩
  refine ⟨(owned, active), ?_, fun space => ?_⟩
  · rw [alone, firstAlone, bind_ok, secondAlone]
    rfl
  · rw [addsActive space, addsOwned space, names, List.append_assoc]

theorem foldCard_after {own : Folding × Folding} (done : alone card = .ok own)
    (distinct : ∀ space, (so.taken space ++ names own space).Nodup) :
    Returns (foldCard so card) := by
  rw [alone] at done
  rcases of_bind done with ⟨owned, first, done⟩
  rcases of_bind done with ⟨active, second, done⟩
  cases done
  have whole : ∀ space, ((so.taken space ++ owned.taken space) ++ active.taken space).Nodup := by
    intro space
    rw [List.append_assoc]
    exact distinct space
  rcases foldOwned_after first (fun space => (List.nodup_append.mp (whole space)).1) with ⟨between, here⟩
  rw [foldCard, here, bind_ok]
  refine foldActive_after second (fun space => ?_)
  rcases foldOwned_own here with ⟨again, also, adds⟩
  cases first.symm.trans also
  rw [adds space]
  exact whole space

theorem scan_alone {last : Folding} (done : cards.foldlM foldCard so = .ok last) :
    ∃ own, cards.mapM alone = .ok own ∧
      ∀ space, last.taken space = so.taken space ++ own.flatMap (fun parts => names parts space) := by
  induction cards generalizing so with
  | nil =>
      cases done
      exact ⟨[], rfl, fun space => (List.append_nil _).symm⟩
  | cons card rest ih =>
      rw [List.foldlM_cons] at done
      rcases of_bind done with ⟨next, here, later⟩
      rcases foldCard_alone here with ⟨own, ownHere, taken⟩
      rcases ih later with ⟨others, all, takenLater⟩
      refine ⟨own :: others, ?_, fun space => ?_⟩
      · rw [List.mapM_cons, ownHere, bind_ok, all]
        rfl
      · rw [takenLater space, taken space, List.flatMap_cons, List.append_assoc]

theorem scan_after {own : List (Folding × Folding)} (all : cards.mapM alone = .ok own)
    (distinct : ∀ space, (so.taken space ++ own.flatMap (fun parts => names parts space)).Nodup) :
    Returns (cards.foldlM foldCard so) := by
  induction cards generalizing so own with
  | nil => exact returns_ok _
  | cons card rest ih =>
      rw [List.mapM_cons] at all
      rcases of_bind all with ⟨first, here, all⟩
      rcases of_bind all with ⟨others, later, same⟩
      cases same
      have head : ∀ space, (so.taken space ++ names first space).Nodup := by
        intro space
        have whole := distinct space
        rw [List.flatMap_cons, ← List.append_assoc] at whole
        exact (List.nodup_append.mp whole).1
      rcases foldCard_after here head with ⟨next, done⟩
      rcases foldCard_alone done with ⟨again, also, taken⟩
      cases here.symm.trans also
      rw [List.foldlM_cons, done, bind_ok]
      refine ih later (fun space => ?_)
      rw [taken space, List.append_assoc]
      exact distinct space

theorem returns_discover_of_perm {others : List Card} (perm : cards.Perm others)
    (accepted : Returns (discover cards)) : Returns (discover others) := by
  rcases accepted with ⟨registry, accepted⟩
  rw [discover] at accepted
  rcases of_bind accepted with ⟨last, done, _⟩
  rcases scan_alone done with ⟨own, all, taken⟩
  have each := mapM_eq_ok_iff.mp all
  rcases List.perm_comp_forall₂ perm.symm each with ⟨owns, also, same⟩
  have distinct : ∀ space, (Folding.empty.taken space ++
      owns.flatMap (fun parts => names parts space)).Nodup := by
    intro space
    have before := last.nodup_taken space
    rw [taken space] at before
    exact ((same.flatMap_right _).append_left _).nodup_iff.mpr before
  rcases scan_after (mapM_eq_ok_iff.mpr also) distinct with ⟨again, scanned⟩
  rw [discover, scanned]
  exact returns_ok _

/-- What a card contributes while it is enabled. -/
def contributed (card : Card) : List Executor :=
  if card.enabled then card.executors.toOption.getD [] else []

theorem executors_of_foldOwned (done : foldOwned so card = .ok next) :
    next.executors = so.executors := by
  rw [foldOwned] at done
  by_cases real : ((Assoc.get? card.data "actuation").getD (.str "sim")).eq (.str "real") = true
  · rw [if_pos real] at done
    cases done
  · rw [if_neg real] at done
    rcases of_bind done with ⟨_, _, done⟩
    rcases of_bind done with ⟨_, _, done⟩
    rcases of_bind done with ⟨_, _, done⟩
    rcases of_bind done with ⟨_, _, done⟩
    cases done
    rfl

theorem executors_of_foldActive (done : foldActive so card = .ok next) :
    next.executors = so.executors ++ contributed card := by
  rw [foldActive] at done
  rw [contributed]
  by_cases enabled : card.enabled = true
  · rw [if_pos enabled, foldEnabled] at done
    rcases of_bind done with ⟨_, _, done⟩
    rcases of_bind done with ⟨_, _, done⟩
    rcases of_bind done with ⟨_, _, done⟩
    rcases of_bind done with ⟨_, _, done⟩
    rcases of_bind done with ⟨_, _, done⟩
    rcases of_bind done with ⟨_, _, done⟩
    rcases of_bind done with ⟨_, _, done⟩
    rcases of_bind done with ⟨_, _, done⟩
    rcases of_bind done with ⟨_, _, done⟩
    rcases of_bind done with ⟨_, _, done⟩
    rcases of_bind done with ⟨executors, declared, done⟩
    cases done
    rw [if_pos enabled, declared]
    rfl
  · rw [if_neg enabled] at done ⊢
    cases done
    exact (List.append_nil _).symm

theorem executors_of_discover {registry : Registry} (found : discover cards = .ok registry) :
    registry.executors = cards.flatMap contributed := by
  have all : ∀ {so last : Folding}, cards.foldlM foldCard so = .ok last →
      last.executors = so.executors ++ cards.flatMap contributed := by
    intro so last done
    clear found
    induction cards generalizing so with
    | nil =>
        cases done
        exact (List.append_nil _).symm
    | cons card rest ih =>
        rw [List.foldlM_cons] at done
        rcases of_bind done with ⟨next, here, later⟩
        rw [foldCard] at here
        rcases of_bind here with ⟨between, first, second⟩
        rw [ih later, executors_of_foldActive second, executors_of_foldOwned first, List.flatMap_cons,
          List.append_assoc]
  rw [discover] at found
  rcases of_bind found with ⟨last, done, same⟩
  cases same
  exact all done

end

end Manifest
end Harness
end PhysicalHarness
