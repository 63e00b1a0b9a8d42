import PhysicalHarness.Lib.Interrupt
import PhysicalHarness.Rsi.Publish

namespace PhysicalHarness
namespace Rsi

open Python Harness JsonText Fallible

/-!
# The shared skills root and crashes

A campaign publishes into a root of its own, which the runtime folds into the shared root:
a record whose file is there is skipped.  A process may die in the middle of a file, and what
it leaves stands for the record from then on.  The shared root stays readable as long as no
process dies inside one of its files and every file that is folded is whole.
-/

/-- The text of each file of a skills root, by stem. -/
abbrev SkillsRoot : Type := Dict String (List Char)

section

variable [Sha256] [FloatText]

/-- `publish` of a record that is neither a capability nor a plan. -/
def publish (root : SkillsRoot) (record : Json) : SkillsRoot :=
  root.set (shaJson record) (print indented 0 (sortKeys record))

omit [Sha256] in
def skillAt (root : SkillsRoot) (stem : String) : Except StoreError Json :=
  match root.get? stem with
  | some text => loadText text
  | none => .error .fileNotFound

omit [Sha256] in
/-- `skills()` of a graph that was mounted on the root. -/
def skills (root : SkillsRoot) : Except StoreError (List Json) :=
  (sorted root.keys).mapM (skillAt root)

def skillText (record : Json) : List Char := print indented 0 (sortKeys record)

def publishPart (root : SkillsRoot) (part : Json × Nat) : SkillsRoot :=
  root.set (shaJson part.1) ((skillText part.1).take part.2)

omit [Sha256] [FloatText] in
def copyText (root : SkillsRoot) (stem : String) (text : List Char) : SkillsRoot :=
  if stem ∈ root.keys then root else root.set stem text

def textOf (source : SkillsRoot) (stem : String) : List Char := (source.get? stem).getD []

/-- The shared root, and the root of each campaign. -/
structure Roots where
  shared : SkillsRoot
  campaigns : Dict String SkillsRoot

/-- A root of a session: that of a campaign, or the shared one. -/
abbrev Place : Type := Option String

namespace Roots

def fresh : Roots := ⟨Dict.empty, Dict.empty⟩

def campaign (roots : Roots) (name : String) : SkillsRoot :=
  (roots.campaigns.get? name).getD Dict.empty

def rootAt (roots : Roots) : Place → SkillsRoot
  | none => roots.shared
  | some name => roots.campaign name

def write (roots : Roots) : Place → SkillsRoot → Roots
  | none, root => { roots with shared := root }
  | some name, root => { roots with campaigns := roots.campaigns.set name root }

end Roots

/-- What a process of a session does to its roots. -/
inductive SkillEvent where
  /-- A graph is mounted on a root and publishes records there. -/
  | publish (place : Place) (records : List Json) (cut : Option Interrupt)
  /-- `_copy_skills` of the root of a campaign into the shared one. -/
  | fold (name : String) (cut : Option Interrupt)
  /-- The runtime boots. -/
  | boot

namespace Roots

/-- One event.  A graph that cannot read its root is not mounted. -/
def after (roots : Roots) : SkillEvent → Roots
  | .publish place records cut =>
      if (skills (roots.rootAt place)).toBool then
        roots.write place (Interrupt.run publish publishPart (roots.rootAt place) records cut)
      else roots
  | .fold name cut =>
      { roots with
        shared := Interrupt.run (fun root stem => copyText root stem (textOf (roots.campaign name) stem))
          (fun root part => copyText root part.1 ((textOf (roots.campaign name) part.1).take part.2))
          roots.shared (sorted (roots.campaign name).keys) cut }
  | .boot => roots

/-- The records whose publication returned. -/
def made (roots : Roots) : SkillEvent → List (Place × Json)
  | .publish place records cut =>
      if (skills (roots.rootAt place)).toBool then
        (Interrupt.done records cut).map (fun record => (place, record))
      else []
  | .fold _ _ => []
  | .boot => []

def afterAll (roots : Roots) (events : List SkillEvent) : Roots := events.foldl after roots

def madeAll (roots : Roots) : List SkillEvent → List (Place × Json)
  | [] => []
  | event :: rest => roots.made event ++ madeAll (roots.after event) rest

end Roots

/-- The content of a file has the digest that it is named after. -/
def Genuine (stem : String) (text : List Char) : Prop :=
  ∃ value, loads text = some value ∧ shaJson value = stem

def AllGenuine (root : SkillsRoot) : Prop :=
  ∀ stem text, root.get? stem = some text → Genuine stem text

structure Storable (record : Json) : Prop where
  proper : Proper record
  distinct : Distinct record

namespace SkillEvent

/-- The records of an event can be stored. -/
def Storing : SkillEvent → Prop
  | publish _ records _ => ∀ record ∈ records, Storable record
  | fold _ _ => True
  | boot => True

end SkillEvent

namespace Roots

/-- No process dies inside a file of the shared root, and what is folded into it is whole. -/
def Careful (roots : Roots) : SkillEvent → Prop
  | .publish none records cut => ∀ record count, Interrupt.begun records cut = some (record, count) →
      (skillText record).length ≤ count
  | .publish (some _) _ _ => True
  | .fold name cut =>
      (∀ stem ∈ (roots.campaign name).keys, stem ∉ roots.shared.keys →
        Genuine stem (textOf (roots.campaign name) stem)) ∧
      ∀ stem count, Interrupt.begun (sorted (roots.campaign name).keys) cut = some (stem, count) →
        stem ∉ roots.shared.keys → (textOf (roots.campaign name) stem).length ≤ count
  | .boot => True

/-- Every event of a run is careful where it happens. -/
def CarefulAll (roots : Roots) : List SkillEvent → Prop
  | [] => True
  | event :: rest => roots.Careful event ∧ CarefulAll (roots.after event) rest

end Roots

/-! ## Writing a root -/

section

variable {root : SkillsRoot} {stem : String} {text : List Char} {record : Json}

omit [Sha256] in
theorem loads_skillText (storable : Storable record) :
    loads (skillText record) = some (sortKeys record) := by
  rw [skillText, loads_print indented (proper_sortKeys storable.proper),
    rebuild_gather_of_distinct _ (ordered_sortKeys storable.distinct).distinct]

theorem genuine_skillText (storable : Storable record) : Genuine (shaJson record) (skillText record) := by
  refine ⟨sortKeys record, loads_skillText storable, ?_⟩
  rw [shaJson, hashText, sortKeys_of_ordered _ (ordered_sortKeys storable.distinct)]
  rfl

theorem AllGenuine.set (genuine : AllGenuine root) (here : Genuine stem text) :
    AllGenuine (root.set stem text) := by
  intro other found held
  rw [Dict.get?_set] at held
  split at held
  · rename_i same
    rw [← same, ← Option.some.inj held]
    exact here
  · exact genuine other found held

theorem AllGenuine.copyText (genuine : AllGenuine root)
    (here : stem ∉ root.keys → Genuine stem text) : AllGenuine (copyText root stem text) := by
  rw [Rsi.copyText]
  split
  · exact genuine
  · rename_i absent
    exact genuine.set (here absent)

omit [Sha256] [FloatText] in
theorem keys_subset_set : root.keys ⊆ (root.set stem text).keys :=
  fun other mem => (Dict.mem_keys_set root stem other text).mpr (Or.inr mem)

omit [Sha256] [FloatText] in
theorem mem_keys_copyText (other : String) :
    other ∈ (copyText root stem text).keys ↔ other = stem ∨ other ∈ root.keys := by
  rw [copyText]
  split
  · rename_i mem
    constructor
    · exact Or.inr
    · rintro (rfl | held)
      · exact mem
      · exact held
  · exact Dict.mem_keys_set root stem other text

end

namespace Roots

variable {roots : Roots} {made : List (Place × Json)}

omit [Sha256] [FloatText] in
theorem rootAt_write (place other : Place) (root : SkillsRoot) :
    (roots.write place root).rootAt other = if place = other then root else roots.rootAt other := by
  cases place with
  | none =>
      cases other with
      | none => rfl
      | some name => rfl
  | some name =>
      cases other with
      | none => rfl
      | some wanted =>
          change ((roots.campaigns.set name root).get? wanted).getD Dict.empty = _
          rw [Dict.get?_set]
          by_cases same : name = wanted
          · rw [if_pos same, if_pos (congrArg some same)]
            rfl
          · rw [if_neg same, if_neg (fun equal => same (Option.some.inj equal))]
            rfl

/-- The shared root is genuine, and every record that was published has its file. -/
structure Kept (roots : Roots) (made : List (Place × Json)) : Prop where
  shared : AllGenuine roots.shared
  named : ∀ entry ∈ made, shaJson entry.2 ∈ (roots.rootAt entry.1).keys

theorem kept_fresh : Kept fresh [] where
  shared := fun _ _ never => by cases never
  named := List.forall_mem_nil _

theorem keys_publish (root : SkillsRoot) (records : List Json) (cut : Option Interrupt) :
    root.keys ⊆ (Interrupt.run publish publishPart root records cut).keys :=
  Interrupt.kept_run (fun after : SkillsRoot => root.keys ⊆ after.keys)
    (fun _ _ _ before => List.Subset.trans before keys_subset_set)
    (fun _ _ _ before => List.Subset.trans before keys_subset_set) (List.Subset.refl _)

theorem Kept.publish (kept : Kept roots made) {place : Place} {records : List Json}
    {cut : Option Interrupt} (careful : roots.Careful (.publish place records cut))
    (storing : ∀ record ∈ records, Storable record) :
    Kept (roots.after (.publish place records cut)) (made ++ roots.made (.publish place records cut)) := by
  rw [after, Roots.made]
  split
  · refine ⟨?_, fun entry mem => ?_⟩
    · cases place with
      | some name => exact kept.shared
      | none =>
          apply Interrupt.kept_run AllGenuine
          · intro root record mem genuine
            exact genuine.set (genuine_skillText (storing record mem))
          · intro root last next genuine
            rw [publishPart, List.take_of_length_le (careful last.1 last.2 next)]
            exact genuine.set (genuine_skillText (storing last.1 (Interrupt.mem_of_begun next)))
          · exact kept.shared
    · rw [rootAt_write]
      rcases List.mem_append.mp mem with before | here
      · have named := kept.named entry before
        split
        · rename_i same
          rw [← same] at named
          exact keys_publish _ _ _ named
        · exact named
      · rcases List.mem_map.mp here with ⟨record, listed, rfl⟩
        rw [if_pos rfl]
        refine Interrupt.reached_run (fun record (root : SkillsRoot) => shaJson record ∈ root.keys)
          ?_ ?_ ?_ listed
        · exact fun root record => (Dict.mem_keys_set root _ _ _).mpr (Or.inl rfl)
        · exact fun root record other before => keys_subset_set before
        · exact fun root record last before => keys_subset_set before
  · rw [List.append_nil]
    exact kept

theorem Kept.fold (kept : Kept roots made) {name : String} {cut : Option Interrupt}
    (careful : roots.Careful (.fold name cut)) : Kept (roots.after (.fold name cut)) made := by
  have shared : AllGenuine (roots.after (.fold name cut)).shared ∧
      roots.shared.keys ⊆ (roots.after (.fold name cut)).shared.keys := by
    apply Interrupt.kept_run
      (fun root : SkillsRoot => AllGenuine root ∧ roots.shared.keys ⊆ root.keys)
    · rintro root stem mem ⟨genuine, before⟩
      refine ⟨genuine.copyText (fun absent => ?_), fun other held =>
        (mem_keys_copyText other).mpr (Or.inr (before held))⟩
      exact careful.1 stem ((List.perm_insertionSort _ _).mem_iff.mp mem)
        (fun held => absent (before held))
    · rintro root last next ⟨genuine, before⟩
      refine ⟨genuine.copyText (fun absent => ?_), fun other held =>
        (mem_keys_copyText other).mpr (Or.inr (before held))⟩
      have fresh_ : last.1 ∉ roots.shared.keys := fun held => absent (before held)
      rw [List.take_of_length_le (careful.2 last.1 last.2 next fresh_)]
      exact careful.1 last.1 ((List.perm_insertionSort _ _).mem_iff.mp (Interrupt.mem_of_begun next))
        fresh_
    · exact ⟨kept.shared, List.Subset.refl _⟩
  refine ⟨shared.1, fun entry mem => ?_⟩
  have named := kept.named entry mem
  rcases entry with ⟨place, record⟩
  cases place with
  | none => exact shared.2 named
  | some other => exact named

theorem Kept.step (kept : Kept roots made) {event : SkillEvent} (careful : roots.Careful event)
    (storing : event.Storing) : Kept (roots.after event) (made ++ roots.made event) := by
  cases event with
  | publish place records cut => exact kept.publish careful storing
  | fold name cut =>
      rw [Roots.made, List.append_nil]
      exact kept.fold careful
  | boot =>
      rw [Roots.made, List.append_nil]
      exact kept

theorem Kept.run (kept : Kept roots made) {events : List SkillEvent}
    (careful : roots.CarefulAll events) (storing : ∀ event ∈ events, event.Storing) :
    Kept (roots.afterAll events) (made ++ roots.madeAll events) := by
  induction events generalizing roots made with
  | nil =>
      rw [madeAll, List.append_nil]
      exact kept
  | cons event rest ih =>
      have next := ih (kept.step careful.1 (storing event (.head _))) careful.2
        (fun other mem => storing other (.tail _ mem))
      rw [List.append_assoc] at next
      exact next

theorem keys_fold (roots : Roots) (name : String) :
    (roots.campaign name).keys ⊆ (roots.after (.fold name none)).shared.keys := by
  intro stem mem
  have listed : stem ∈ sorted (roots.campaign name).keys :=
    (List.perm_insertionSort _ _).mem_iff.mpr mem
  refine Interrupt.reached_run (fun stem (root : SkillsRoot) => stem ∈ root.keys) ?_ ?_ ?_ listed
  · exact fun root stem => (mem_keys_copyText stem).mpr (Or.inl rfl)
  · exact fun root stem other before => (mem_keys_copyText stem).mpr (Or.inr before)
  · exact fun root stem last before => (mem_keys_copyText stem).mpr (Or.inr before)

theorem CarefulAll.of_prefix {before events : List SkillEvent} (first : before <+: events)
    (careful : roots.CarefulAll events) : roots.CarefulAll before := by
  rcases first with ⟨rest, rfl⟩
  induction before generalizing roots with
  | nil => trivial
  | cons event later ih => exact ⟨careful.1, ih careful.2⟩

theorem afterAll_concat (roots : Roots) (events : List SkillEvent) (event : SkillEvent) :
    roots.afterAll (events ++ [event]) = (roots.afterAll events).after event :=
  List.foldl_concat after roots event events

end Roots

omit [Sha256] in
theorem returns_skills [Sha256] {root : SkillsRoot} (genuine : AllGenuine root) :
    Returns (skills root) := by
  rw [skills]
  apply returns_mapM_iff.mpr
  intro stem mem
  have listed : stem ∈ root.keys := (List.perm_insertionSort _ _).mem_iff.mp mem
  rcases Dict.get?_of_mem_keys listed with ⟨text, found⟩
  rcases genuine stem text found with ⟨value, read, _⟩
  refine ⟨value, ?_⟩
  rw [skillAt, found]
  change loadText text = _
  rw [loadText, read]

/-- The file of a record is there, and what its name says. -/
def Whole (root : SkillsRoot) (record : Json) : Prop :=
  ∃ text, root.get? (shaJson record) = some text ∧ Genuine (shaJson record) text

/-- What the shared root is like after these events: it can be mounted, and a fold that
returned has left every record of the campaign. -/
structure Readable (events : List SkillEvent) : Prop where
  genuine : AllGenuine (Roots.fresh.afterAll events).shared
  mounts : Returns (skills (Roots.fresh.afterAll events).shared)
  folded : ∀ before name, events = before ++ [.fold name none] →
    ∀ record, (some name, record) ∈ Roots.fresh.madeAll before →
      Whole (Roots.fresh.afterAll events).shared record

/-- The shared root of a careful session is readable at any time. -/
theorem root_readable {events : List SkillEvent} (careful : Roots.fresh.CarefulAll events)
    (storing : ∀ event ∈ events, event.Storing) : ∀ before, before <+: events → Readable before := by
  intro before first
  have kept : ∀ earlier, earlier <+: events →
      Roots.Kept (Roots.fresh.afterAll earlier) (Roots.fresh.madeAll earlier) := by
    intro earlier part
    exact Roots.kept_fresh.run (careful.of_prefix part)
      (fun event member => storing event (part.subset member))
  have genuine := (kept before first).shared
  refine ⟨genuine, returns_skills genuine, ?_⟩
  rintro earlier name rfl record published
  have part : earlier <+: events := (List.prefix_append _ _).trans first
  have named := (kept earlier part).named _ published
  rw [Roots.afterAll_concat] at genuine ⊢
  rcases Dict.get?_of_mem_keys (Roots.keys_fold _ name named) with ⟨text, found⟩
  exact ⟨text, found, genuine _ text found⟩

theorem allGenuine_publish {root : SkillsRoot} (genuine : AllGenuine root) {records : List Json}
    (storing : ∀ record ∈ records, Storable record) : AllGenuine (records.foldl publish root) := by
  apply Interrupt.kept_foldl AllGenuine
  · intro root record mem held
    exact held.set (genuine_skillText (storing record mem))
  · exact genuine

theorem careful_fold {roots : Roots} {name : String} (genuine : AllGenuine (roots.campaign name))
    {cut : Option Interrupt}
    (between : Interrupt.begun (sorted (roots.campaign name).keys) cut = none) :
    roots.Careful (.fold name cut) := by
  refine ⟨fun stem mem _ => ?_, fun stem count next => ?_⟩
  · rcases Dict.get?_of_mem_keys mem with ⟨text, found⟩
    rw [textOf, found]
    exact genuine stem text found
  · rw [between] at next
    cases next

theorem campaign_publish {roots : Roots} {name : String}
    (mounts : (skills (roots.campaign name)).toBool = true) (records : List Json) :
    (roots.after (.publish (some name) records none)).campaign name =
      records.foldl publish (roots.campaign name) := by
  have own : ∀ roots : Roots, roots.campaign name = roots.rootAt (some name) := fun _ => rfl
  rw [own] at mounts
  rw [own, own, Roots.after, if_pos mounts, Roots.rootAt_write, if_pos rfl]
  rfl

theorem campaign_fold (roots : Roots) (name other : String) (cut : Option Interrupt) :
    (roots.after (.fold name cut)).campaign other = roots.campaign other := rfl

end

section

local instance foldSha : Sha256 := sha256

local instance foldFloats : FloatText := exactDecimals

/-- A record with a task. -/
def smallSkill : Json := .obj [("task", .str "stack")]

theorem storable_smallSkill : Storable smallSkill where
  proper := ⟨trivial, trivial, trivial⟩
  distinct := by
    have keys : ["task"].Nodup := by decide
    exact ⟨keys, trivial, trivial⟩

/-- A campaign, a fold that dies between two files, and the fold again. -/
theorem root_readable_small : Readable [.publish (some "stack") [smallSkill] none,
    .fold "stack" (some ⟨0, none⟩), .fold "stack" none] := by
  have only : ∀ record ∈ [smallSkill], Storable record := by
    intro record member
    rw [List.mem_singleton.mp member]
    exact storable_smallSkill
  have genuine : AllGenuine
      ((Roots.fresh.after (.publish (some "stack") [smallSkill] none)).campaign "stack") := by
    rw [campaign_publish rfl]
    exact allGenuine_publish (fun _ _ impossible => by cases impossible) only
  have careful : Roots.fresh.CarefulAll [.publish (some "stack") [smallSkill] none,
      .fold "stack" (some ⟨0, none⟩), .fold "stack" none] := by
    refine ⟨trivial, careful_fold genuine rfl, careful_fold ?_ rfl, trivial⟩
    rw [campaign_fold]
    exact genuine
  apply root_readable careful ?_ _ (List.prefix_refl _)
  exact List.forall_mem_cons.mpr ⟨only, List.forall_mem_cons.mpr ⟨trivial,
    List.forall_mem_cons.mpr ⟨trivial, List.forall_mem_nil _⟩⟩⟩

/-- A fold that dies before the first character of a file, and the campaign and the fold again. -/
def poisoned : List SkillEvent := [.publish (some "stack") [smallSkill] none,
  .fold "stack" (some ⟨0, some 0⟩), .publish (some "stack") [smallSkill] none, .fold "stack" none]

/-- The empty file stays, and the next boot is refused. -/
theorem poisoned_refused :
    (Roots.fresh.afterAll poisoned).shared.get? (shaJson smallSkill) = some [] ∧
    (skills (Roots.fresh.afterAll poisoned).shared).map List.length = .error .notJson ∧
    ¬ Readable poisoned := by
  have refused : (skills (Roots.fresh.afterAll poisoned).shared).map List.length =
      .error .notJson := by
    decide +kernel
  refine ⟨?_, refused, fun readable => ?_⟩
  · decide +kernel
  · rcases readable.mounts with ⟨records, read⟩
    rw [read] at refused
    cases refused

end

end Rsi
end PhysicalHarness
