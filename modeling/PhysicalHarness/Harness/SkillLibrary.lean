import PhysicalHarness.Harness.Manifest
import PhysicalHarness.Lib.Writes
import PhysicalHarness.Protocol.Graph

namespace PhysicalHarness
namespace Harness
namespace SkillLibrary

open Python Fallible
open Manifest (Card Executor PluginRoot discover contributed scan)

/-!
# Executors folded into the skill library

The records are read from their files, and then each executor of a mounted card is written into the
policies of a skill.  A write asks for the skill and for the wire, never for what is bound under the
key; so what is written last is what stays.  A policy has one source, whatever the order of the cards,
exactly where no two executors share a skill, an embodiment and a key, and none of them takes a key
of the record.
-/

/-- A record file, as the dataclass is made of it. -/
structure RecordFile where
  name : Json
  kind : Json
  class_ : Json
  args : Json
  bindings : Json

/-- A record of the library; its bindings are keyed by embodiment. -/
structure Record where
  name : Json
  args : List (String × Json)
  bindings : List (HashKey × Json)

/-- The library, by the names of the skills. -/
abbrev Records := List (HashKey × Record)

/-- `TRANSPORTS`. -/
def transports : List String := ["inproc", "ssp", "mcp"]

/-- `value.items()`. -/
def itemsOf (value : Json) : Except PyError (List (String × Json)) :=
  match value with
  | .obj fields => .ok fields
  | _ => .error .attributeError

theorem itemsOf_eq_ok_iff {value : Json} {fields : List (String × Json)} :
    itemsOf value = .ok fields ↔ value = .obj fields := by
  cases value <;> simp [itemsOf]

section

variable [Host]

/-- `_KIND_CLASSES`. -/
def kindClasses : List String := ["verify", "decide", "perceive"]

/-- `skill_class`. -/
def skillClass (file : RecordFile) : Except PyError Json := do
  if file.class_.truthy then return file.class_
  else
    hashed file.kind
    if kindClasses.any (fun kind => file.kind.eq (.str kind)) then return file.kind
    else
      match file.name with
      | .str name => return .str (String.ofList (name.toList.takeWhile (· ≠ '_')))
      | _ => .error .attributeError

/-- `CLASS_TOKEN.fullmatch(text)`. -/
def classToken (text : String) : Bool :=
  match text.toList with
  | [] => false
  | first :: rest =>
      decide ('a' ≤ first ∧ first ≤ 'z') &&
        rest.all (fun char => decide ('a' ≤ char ∧ char ≤ 'z' ∨ '0' ≤ char ∧ char ≤ '9'))

def speaks (transport : Json) : Bool := transports.any (fun wire => transport.eq (.str wire))

/-- The policies of a binding are looked through for an unknown wire. -/
def checkPolicy (name : Json) (policy : String × Json) : Except PyError Unit :=
  if policy.2.isMapping then
    if speaks (policy.2.getD "transport" (.str "inproc")) then .ok ()
    else .error (.valueError ("skill " ++ Host.repr name ++ " policies[" ++
      Host.repr (.str policy.1) ++ "] transport " ++ Host.repr (policy.2.getD "transport" .null) ++
      " not in ('inproc', 'ssp', 'mcp')"))
  else .error .attributeError

def checkBinding (name binding : Json) : Except PyError Unit := do
  let fields ← itemsOf binding
  let policies := (Assoc.get? fields "policies").getD .null
  let listed ← itemsOf (if policies.truthy then policies else .obj [])
  listed.forM (checkPolicy name)

/-- The types of the arguments are hashed before they are looked up. -/
def checkArg (arg : String × Json) : Except PyError Bool := do
  hashed arg.2
  return (Protocol.types.any (fun type => arg.2.eq (.str type.1)))

/-- One file of `load_records`. -/
def addRecord (out : Records) (file : RecordFile) : Except PyError Records := do
  hashed file.name
  if file.name.hashKey ∈ Assoc.keys out then
    .error (.valueError ("duplicate skill record " ++ Host.repr file.name))
  else
    let args ← itemsOf file.args
    let known ← args.mapM checkArg
    let bad := ((args.zip known).filter (fun arg => !arg.2)).map Prod.fst
    if bad ≠ [] then
      .error (.valueError ("skill " ++ Host.repr file.name ++ " args have unknown types " ++
        Host.repr (.obj bad)))
    else
      let kind ← skillClass file
      let token ← kind.text
      if classToken token then
        let bindings ← itemsOf file.bindings
        bindings.forM (fun binding => checkBinding file.name binding.2)
        return out ++ [(file.name.hashKey,
          ⟨file.name, args, bindings.map (fun binding => (.text binding.1, binding.2))⟩)]
      else .error (.valueError ("skill " ++ Host.repr file.name ++ " class " ++ Host.repr kind ++
        " is not a lowercase token"))

/-- The records of the files under a root. -/
def readRecords (root : String) (files : List RecordFile) : Except PyError Records := do
  let out ← files.foldlM addRecord []
  if out.isEmpty then .error (.valueError ("no skill records under " ++ root)) else return out

/-- `setdefault("scripted", {})`. -/
def withScripted (policies : List (String × Json)) : List (String × Json) :=
  if (Assoc.get? policies "scripted").isSome then policies
  else Assoc.set policies "scripted" (.obj [])

/-- `b.setdefault("policies", {})`, which must be a dict. -/
def policiesOf (binding : Json) : Except PyError (List (String × Json)) := do
  let fields ← itemsOf binding
  itemsOf ((Assoc.get? fields "policies").getD (.obj []))

def policy (executor : Executor) : Json :=
  .obj [("transport", executor.transport), ("ref", executor.ref)]

def bound (binding : Json) (policies : List (String × Json)) (executor : Executor) : Json :=
  binding.setField "policies" (.obj (Assoc.set (withScripted policies) executor.key (policy executor)))

/-- One executor of `bind_executors`. -/
def bindExecutor (records : Records) (executor : Executor) : Except PyError Records := do
  hashed executor.skill
  match Assoc.get? records executor.skill.hashKey with
  | none => .error (.valueError ("plugin " ++ Host.repr (.str executor.plugin) ++ " binds executor " ++
      Host.repr (.str executor.key) ++ " to unknown skill " ++ Host.repr executor.skill))
  | some record =>
      if speaks executor.transport then
        hashed executor.embodiment
        let binding := (Assoc.get? record.bindings executor.embodiment.hashKey).getD (.obj [])
        let policies ← policiesOf binding
        return Assoc.set records executor.skill.hashKey { record with
          bindings := Assoc.set record.bindings executor.embodiment.hashKey
            (bound binding policies executor) }
      else .error (.valueError ("plugin " ++ Host.repr (.str executor.plugin) ++ " executor " ++
        Host.repr (.str executor.key) ++ " transport " ++ Host.repr executor.transport ++
        " not in ('inproc', 'ssp', 'mcp')"))

/-- `bind_executors`. -/
def bindExecutors (records : Records) (executors : List Executor) : Except PyError Records :=
  executors.foldlM bindExecutor records

/-- `load_records`, with the cards in the order of the scan. -/
def loadRecords (root : String) (files : List RecordFile) (cards : List Card) :
    Except PyError Records := do
  let out ← readRecords root files
  let registry ← discover cards
  bindExecutors out registry.executors

abbrev Target := HashKey × HashKey × String

def target (executor : Executor) : Target :=
  (executor.skill.hashKey, executor.embodiment.hashKey, executor.key)

/-- The policies of a binding; the task of the record is the scripted one. -/
def ownPolicies (binding : Json) : List (String × Json) :=
  withScripted ((binding.get? "policies").getD (.obj [])).fields

/-- The policy of a skill on an embodiment under a key. -/
def policyOf (records : Records) (place : Target) : Option Json :=
  (Assoc.get? records place.1).bind (fun record =>
    Assoc.get? (ownPolicies ((Assoc.get? record.bindings place.2.1).getD (.obj []))) place.2.2)

/-- The policies that the record and the cards declare at a place. -/
def declarations (base : Records) (executors : List Executor) (place : Target) : List Json :=
  Writes.sources target policy (policyOf base) executors place

/-- Each policy of the library has one declaration, and it is the same one in every order of the
cards. -/
structure OneDeclaration (root : String) (files : List RecordFile) (cards : List Card)
    (base folded : Records) : Prop where
  one : ∀ place, (policyOf folded place).toList = declarations base (cards.flatMap contributed) place
  anyOrder : ∀ others, others.Perm cards → ∃ again, loadRecords root files others = .ok again ∧
    ∀ place, policyOf again place = policyOf folded place

/-! ## One executor -/

omit [Host] in
theorem isSome_withScripted (policies : List (String × Json)) :
    (Assoc.get? (withScripted policies) "scripted").isSome = true := by
  rw [withScripted]
  by_cases there : (Assoc.get? policies "scripted").isSome = true
  · rw [if_pos there]
    exact there
  · rw [if_neg there, Assoc.get?_set, if_pos rfl]
    rfl

omit [Host] in
theorem withScripted_set (policies : List (String × Json)) (key : String) (value : Json) :
    withScripted (Assoc.set (withScripted policies) key value) =
      Assoc.set (withScripted policies) key value := by
  apply if_pos
  rw [Assoc.get?_set]
  by_cases same : key = "scripted"
  · rw [if_pos same]
    rfl
  · rw [if_neg same]
    exact isSome_withScripted policies

omit [Host] in
theorem ownPolicies_of_policiesOf {binding : Json} {policies : List (String × Json)}
    (read : policiesOf binding = .ok policies) : ownPolicies binding = withScripted policies := by
  rw [policiesOf] at read
  rcases of_bind read with ⟨fields, isDict, read⟩
  rw [itemsOf_eq_ok_iff] at isDict read
  rw [ownPolicies, isDict, Json.get?, read]
  rfl

omit [Host] in
theorem ownPolicies_bound (binding : Json) (policies : List (String × Json)) (executor : Executor) :
    ownPolicies (bound binding policies executor) =
      Assoc.set (withScripted policies) executor.key (policy executor) := by
  rw [ownPolicies, bound, Json.get?_setField, if_pos rfl]
  exact withScripted_set policies executor.key (policy executor)

/-- The library has the skill, and the policies of its binding are a dict. -/
def Readable (records : Records) (skill embodiment : HashKey) : Prop :=
  ∃ record, Assoc.get? records skill = some record ∧
    Returns (policiesOf ((Assoc.get? record.bindings embodiment).getD (.obj [])))

structure Bindable (records : Records) (executor : Executor) : Prop where
  skill : executor.skill.hashable = true
  embodiment : executor.embodiment.hashable = true
  wire : speaks executor.transport = true
  known : Readable records executor.skill.hashKey executor.embodiment.hashKey

/-- The library after an executor of this record was bound. -/
def after (records : Records) (executor : Executor) (record : Record)
    (policies : List (String × Json)) : Records :=
  Assoc.set records executor.skill.hashKey { record with
    bindings := Assoc.set record.bindings executor.embodiment.hashKey
      (bound ((Assoc.get? record.bindings executor.embodiment.hashKey).getD (.obj [])) policies executor) }

variable {records folded : Records} {executor : Executor}

theorem bindExecutor_eq_ok {next : Records} (done : bindExecutor records executor = .ok next) :
    ∃ record policies, Assoc.get? records executor.skill.hashKey = some record ∧
      policiesOf ((Assoc.get? record.bindings executor.embodiment.hashKey).getD (.obj [])) =
        .ok policies ∧ next = after records executor record policies := by
  rw [bindExecutor] at done
  rcases of_bind done with ⟨_, _, done⟩
  cases found : Assoc.get? records executor.skill.hashKey with
  | none =>
      rw [found] at done
      cases done
  | some record =>
      rw [found] at done
      by_cases wire : speaks executor.transport = true
      · simp only [if_pos wire] at done
        rcases of_bind done with ⟨_, _, done⟩
        rcases of_bind done with ⟨policies, read, done⟩
        cases done
        exact ⟨record, policies, rfl, read, rfl⟩
      · simp only [if_neg wire] at done
        cases done

theorem returns_bindExecutor_iff :
    Returns (bindExecutor records executor) ↔ Bindable records executor := by
  constructor
  · rintro ⟨next, done⟩
    rcases bindExecutor_eq_ok done with ⟨record, policies, found, read, _⟩
    rw [bindExecutor] at done
    rcases of_bind done with ⟨_, skill, done⟩
    rw [found] at done
    by_cases wire : speaks executor.transport = true
    · simp only [if_pos wire] at done
      rcases of_bind done with ⟨_, embodiment, _⟩
      exact ⟨(hashed_eq_ok_iff _).mp skill, (hashed_eq_ok_iff _).mp embodiment, wire, record, found,
        policies, read⟩
    · simp only [if_neg wire] at done
      cases done
  · rintro ⟨skill, embodiment, wire, record, found, policies, read⟩
    rw [bindExecutor, (hashed_eq_ok_iff _).mpr skill, bind_ok, found]
    simp only [if_pos wire]
    rw [(hashed_eq_ok_iff _).mpr embodiment, bind_ok, read]
    exact returns_ok _

omit [Host] in
theorem returns_policiesOf_bound (binding : Json) (policies : List (String × Json))
    (executor : Executor) : Returns (policiesOf (bound binding policies executor)) := by
  rw [bound, Json.setField, policiesOf, itemsOf, bind_ok, Assoc.get?_set, if_pos rfl]
  exact returns_ok _

omit [Host] in
theorem readable_after_iff {record : Record} {policies : List (String × Json)}
    (found : Assoc.get? records executor.skill.hashKey = some record)
    (read : policiesOf ((Assoc.get? record.bindings executor.embodiment.hashKey).getD (.obj [])) =
      .ok policies) (skill embodiment : HashKey) :
    Readable (after records executor record policies) skill embodiment ↔
      Readable records skill embodiment := by
  rw [Readable, Readable, after]
  simp only [Assoc.get?_set]
  by_cases sameSkill : executor.skill.hashKey = skill
  · subst sameSkill
    simp only [if_pos, found, Option.some.injEq, exists_eq_left', Assoc.get?_set]
    by_cases sameEmbodiment : executor.embodiment.hashKey = embodiment
    · subst sameEmbodiment
      rw [if_pos rfl, Option.getD_some]
      exact ⟨fun _ => ⟨policies, read⟩, fun _ => returns_policiesOf_bound _ _ _⟩
    · rw [if_neg sameEmbodiment]
  · simp only [if_neg sameSkill]

theorem bindable_iff_of_bindExecutor {next : Records} (other : Executor)
    (done : bindExecutor records executor = .ok next) :
    Bindable next other ↔ Bindable records other := by
  rcases bindExecutor_eq_ok done with ⟨record, policies, found, read, rfl⟩
  have known := readable_after_iff found read other.skill.hashKey other.embodiment.hashKey
  constructor
  · rintro ⟨skill, embodiment, wire, there⟩
    exact ⟨skill, embodiment, wire, known.mp there⟩
  · rintro ⟨skill, embodiment, wire, there⟩
    exact ⟨skill, embodiment, wire, known.mpr there⟩

theorem writing_bindExecutor (records : Records) (executor : Executor) (next : Records)
    (done : bindExecutor records executor = .ok next) :
    Writes.Writing target policy policyOf records executor next := by
  rcases bindExecutor_eq_ok done with ⟨record, policies, found, read, rfl⟩
  rintro ⟨skill, embodiment, key⟩
  rw [policyOf, policyOf, after, Assoc.get?_set]
  by_cases sameSkill : executor.skill.hashKey = skill
  · subst sameSkill
    rw [if_pos rfl, found, Option.bind_some, Option.bind_some, Assoc.get?_set]
    by_cases sameEmbodiment : executor.embodiment.hashKey = embodiment
    · subst sameEmbodiment
      rw [if_pos rfl, Option.getD_some, ownPolicies_bound, Assoc.get?_set, ownPolicies_of_policiesOf read]
      by_cases sameKey : executor.key = key
      · rw [if_pos sameKey, if_pos (by rw [target, sameKey])]
      · rw [if_neg sameKey, if_neg (fun same => sameKey (congrArg (·.2.2) same))]
    · rw [if_neg sameEmbodiment, if_neg (fun same => sameEmbodiment (congrArg (·.2.1) same))]
  · rw [if_neg sameSkill, if_neg (fun same => sameSkill (congrArg (·.1) same))]

theorem returns_bindExecutors_iff {executors : List Executor} :
    Returns (bindExecutors records executors) ↔ ∀ executor ∈ executors, Bindable records executor := by
  rw [bindExecutors]
  induction executors generalizing records with
  | nil => exact ⟨fun _ _ never => absurd never List.not_mem_nil, fun _ => returns_ok _⟩
  | cons executor rest ih =>
      rw [List.foldlM_cons, returns_bind, List.forall_mem_cons]
      constructor
      · rintro ⟨next, here, later⟩
        refine ⟨returns_bindExecutor_iff.mp ⟨next, here⟩, fun other mem => ?_⟩
        exact (bindable_iff_of_bindExecutor other here).mp (ih.mp later other mem)
      · rintro ⟨first, later⟩
        rcases returns_bindExecutor_iff.mpr first with ⟨next, here⟩
        refine ⟨next, here, ih.mpr (fun other mem => ?_)⟩
        exact (bindable_iff_of_bindExecutor other here).mpr (later other mem)

theorem policyOf_bindExecutors {base : Records} {executors : List Executor}
    (done : bindExecutors base executors = .ok folded) (place : Target) :
    policyOf folded place = (declarations base executors place).getLast? :=
  Writes.view_eq_getLast? writing_bindExecutor done place

theorem loadRecords_eq_ok_iff {root : String} {files : List RecordFile} {cards : List Card} :
    loadRecords root files cards = .ok folded ↔ ∃ base,
      readRecords root files = .ok base ∧ Returns (discover cards) ∧
        bindExecutors base (cards.flatMap contributed) = .ok folded := by
  rw [loadRecords]
  constructor
  · intro done
    rcases of_bind done with ⟨base, read, done⟩
    rcases of_bind done with ⟨registry, found, done⟩
    rw [Manifest.executors_of_discover found] at done
    exact ⟨base, read, ⟨registry, found⟩, done⟩
  · rintro ⟨base, read, ⟨registry, found⟩, done⟩
    rw [read, bind_ok, found, bind_ok, Manifest.executors_of_discover found]
    exact done

theorem loadRecords_of_perm {root : String} {files : List RecordFile} {cards others : List Card}
    {base : Records} (read : readRecords root files = .ok base)
    (accepted : loadRecords root files cards = .ok folded) (perm : others.Perm cards) :
    ∃ again, loadRecords root files others = .ok again ∧
      bindExecutors base (others.flatMap contributed) = .ok again := by
  rcases loadRecords_eq_ok_iff.mp accepted with ⟨same, readAgain, found, done⟩
  cases read.symm.trans readAgain
  have bindable := returns_bindExecutors_iff.mp ⟨folded, done⟩
  have all : Returns (bindExecutors base (others.flatMap contributed)) := by
    rw [returns_bindExecutors_iff]
    intro executor mem
    exact bindable executor ((perm.flatMap_right contributed).mem_iff.mp mem)
  rcases all with ⟨again, bound⟩
  refine ⟨again, loadRecords_eq_ok_iff.mpr ⟨base, read, ?_, bound⟩, bound⟩
  exact Manifest.returns_discover_of_perm perm.symm found

/-- Each policy of the library has one declaration, in whatever order the cards are scanned, exactly
where no two executors share a place and none takes a key that the record binds. -/
theorem one_declaration_iff (root : String) (files : List RecordFile) (installed : PluginRoot)
    (extra : List PluginRoot) (folded : Records)
    (accepted : loadRecords root files (scan installed extra) = .ok folded) :
    ∃ base, readRecords root files = .ok base ∧
      (OneDeclaration root files (scan installed extra) base folded ↔
        (((scan installed extra).flatMap contributed).map target).Nodup ∧
          ∀ executor ∈ (scan installed extra).flatMap contributed,
            policyOf base (target executor) = none) := by
  rcases loadRecords_eq_ok_iff.mp accepted with ⟨base, read, found, done⟩
  refine ⟨base, read, ?_⟩
  have single : (∀ place, (declarations base ((scan installed extra).flatMap contributed)
      place).length ≤ 1) ↔ _ := Writes.length_sources_le_one_iff
  constructor
  · intro kept
    apply single.mp
    intro place
    have held := kept.one place
    rw [policyOf_bindExecutors done place] at held
    exact (Writes.toList_getLast?_eq_iff _).mp held
  · intro apart
    have short := single.mpr apart
    refine ⟨fun place => ?_, fun others perm => ?_⟩
    · rw [policyOf_bindExecutors done place]
      exact (Writes.toList_getLast?_eq_iff _).mpr (short place)
    · rcases loadRecords_of_perm read accepted perm with ⟨again, loaded, bound⟩
      refine ⟨again, loaded, fun place => ?_⟩
      have same := Writes.sources_eq_of_perm (perm.symm.flatMap_right contributed) (short place)
      rw [policyOf_bindExecutors bound place, policyOf_bindExecutors done place]
      exact congrArg List.getLast? same

end

section Example

local instance graspHost : Host := asciiHost

private def graspFile : RecordFile where
  name := .str "grasp"
  kind := .str "segment"
  class_ := .str "grasp"
  args := .obj [("object", .str "str")]
  bindings := .obj [("robocasa", .obj [("task_template", .str "grasp_{object}")])]

/-- A card that binds an executor for the grasp. -/
private def graspCard (name key : String) : PluginRoot where
  name
  manifest := some [("executors", .obj [(key, .obj [("skill", .str "grasp"),
    ("embodiment", .str "robocasa"), ("ref", .str ("plugins.candidates." ++ name ++ ":provider"))])])]
  cards := []

private def graspRoot : PluginRoot := ⟨"plugins", none, []⟩

/-- Two cards with keys of their own. -/
theorem one_declaration_grasp :
    ∃ base, readRecords "records" [graspFile] = .ok base ∧ ∃ folded,
      loadRecords "records" [graspFile]
          (scan graspRoot [graspCard "geometric" "geo", graspCard "learned" "pi05"]) = .ok folded ∧
        (OneDeclaration "records" [graspFile]
            (scan graspRoot [graspCard "geometric" "geo", graspCard "learned" "pi05"]) base folded ↔
          (((scan graspRoot [graspCard "geometric" "geo", graspCard "learned" "pi05"]).flatMap
              contributed).map target).Nodup ∧
            ∀ executor ∈ (scan graspRoot [graspCard "geometric" "geo",
              graspCard "learned" "pi05"]).flatMap contributed, policyOf base (target executor) = none) := by
  have loads : (loadRecords "records" [graspFile]
      (scan graspRoot [graspCard "geometric" "geo", graspCard "learned" "pi05"])).toBool = true := by
    decide +kernel
  rcases returns_of_toBool loads with ⟨folded, accepted⟩
  rcases one_declaration_iff _ _ _ _ _ accepted with ⟨base, read, here⟩
  exact ⟨base, read, folded, accepted, here⟩

/-- Two cards with the same key: both are accepted, and the one that is scanned last is bound. -/
theorem two_declarations_grasp :
    ∃ base folded, readRecords "records" [graspFile] = .ok base ∧
      loadRecords "records" [graspFile]
          (scan graspRoot [graspCard "geometric" "geo", graspCard "learned" "geo"]) = .ok folded ∧
        ¬ OneDeclaration "records" [graspFile]
          (scan graspRoot [graspCard "geometric" "geo", graspCard "learned" "geo"]) base folded := by
  have loads : (loadRecords "records" [graspFile]
      (scan graspRoot [graspCard "geometric" "geo", graspCard "learned" "geo"])).toBool = true := by
    decide +kernel
  have twice : (readRecords "records" [graspFile]).toOption.map (fun base =>
      (declarations base ((scan graspRoot [graspCard "geometric" "geo",
        graspCard "learned" "geo"]).flatMap contributed)
        (.text "grasp", .text "robocasa", "geo")).length) = some 2 := by
    decide +kernel
  rcases returns_of_toBool loads with ⟨folded, accepted⟩
  rcases Option.map_eq_some_iff.mp twice with ⟨base, read, two⟩
  refine ⟨base, folded, toOption_eq_some_iff.mp read, accepted, fun kept => ?_⟩
  have here := congrArg List.length (kept.one (.text "grasp", .text "robocasa", "geo"))
  rw [two] at here
  have short := Option.length_toList_le (o := policyOf folded (.text "grasp", .text "robocasa", "geo"))
  omega

end Example

end SkillLibrary
end Harness
end PhysicalHarness
