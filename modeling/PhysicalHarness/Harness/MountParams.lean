import PhysicalHarness.Harness.Manifest
import PhysicalHarness.Lib.Merge
import PhysicalHarness.Python.JsonOrder

namespace PhysicalHarness
namespace Harness
namespace MountParams

open Python JsonText

/-!
# The parameters a provider is mounted with

The parameters of the first card that mounts a ref are filled up with the `[tunables]` of the card
that hosts it, and an override document is laid over both.  The document may name the ref or the
package of the card; both entries are merged into one before they are laid, and the package is what
precedes the last dot of the ref.
-/

/-- An entry of `[mounts]`: a ref by itself, or a table. -/
inductive Spec where
  | bare (ref : String)
  | table (ref : String) (params : Option (Dict String Json))

/-- A manifest, as far as the parameters of its mounts go. -/
structure Card where
  plugin : String
  mounts : List (String × Spec)
  tunables : Option (Dict String Json)

structure Mount where
  cap : String
  provider : String
  params : Dict String Json

def mountOf (entry : String × Spec) : Mount :=
  match entry.2 with
  | .bare ref => ⟨entry.1, ref, Dict.empty⟩
  | .table ref params => ⟨entry.1, ref, params.getD Dict.empty⟩

/-- `card_mounts`. -/
def cardMounts (card : Card) : List Mount := card.mounts.map mountOf

def Spec.toJson : Spec → Json
  | .bare ref => .str ref
  | .table ref none => .obj [("ref", .str ref)]
  | .table ref (some params) => .obj [("ref", .str ref), ("params", .obj params.entries)]

def Card.manifest (card : Card) : Manifest.Card where
  plugin := card.plugin
  data := ("mounts", .obj (card.mounts.map (fun entry => (entry.1, entry.2.toJson)))) ::
    (card.tunables.map (fun table => ("tunables", Json.obj table.entries))).toList

def Mount.declared (mount : Mount) : Manifest.Mount where
  capability := mount.cap
  provider := .str mount.provider
  params := mount.params.entries.map (fun field => (.str field.1, field.2))

theorem mountOf_toJson (entry : String × Spec) :
    Manifest.mountOf (entry.1, entry.2.toJson) = .ok (mountOf entry).declared := by
  rcases entry with ⟨cap, spec⟩
  cases spec with
  | bare ref => rfl
  | table ref params =>
      cases params with
      | none => rfl
      | some params => rfl

theorem cardMounts_manifest (card : Card) :
    Manifest.cardMounts card.manifest = .ok ((cardMounts card).map Mount.declared) := by
  have table : card.manifest.table "mounts" =
      .ok (card.mounts.map (fun entry => (entry.1, entry.2.toJson))) := rfl
  rw [Manifest.cardMounts, table, Fallible.bind_ok, cardMounts]
  induction card.mounts with
  | nil => rfl
  | cons entry rest ih =>
      rw [List.map_cons, List.mapM_cons, mountOf_toJson, ih]
      rfl

/-- `text.partition(":")[0]`. -/
def beforeColon (text : List Char) : List Char := text.takeWhile (· ≠ ':')

/-- `text.rpartition(".")[0]`. -/
def beforeLastDot (text : List Char) : List Char := (text.reverse.dropWhile (· ≠ '.')).tail.reverse

/-- `package` of `mount_params`. -/
def packageOf (ref : String) : String := String.ofList (beforeLastDot (beforeColon ref.toList))

/-- `"plugins"`. -/
def plugins : List Char := ['p', 'l', 'u', 'g', 'i', 'n', 's']

/-- `card` of `mount_params`. -/
def cardOf (ref : String) : String :=
  if plugins ++ ['.'] <+: ref.toList then
    String.ofList ((((beforeColon ref.toList).dropWhile (· ≠ '.')).tail).takeWhile (· ≠ '.'))
  else ""

/-- A table is merged key by key into the table below it, anything else replaces what is below. -/
def laid (below : Option Json) (value : Json) : Json :=
  match value with
  | .obj fields =>
      match below with
      | some (.obj table) => .obj (Assoc.merge table fields)
      | _ => value
  | _ => value

/-- `params[k] = ...` of `mount_params`. -/
def layOn (params : Dict String Json) (entry : String × Json) : Dict String Json :=
  params.set entry.1 (laid (params.get? entry.1) entry.2)

/-- `PH_MOUNT_PARAMS_OVERRIDE`, as `json.loads` returns it. -/
structure Override where
  tables : Dict String (Dict String Json)
  distinct : ∀ name table key value,
    tables.get? name = some table → table.get? key = some value → Distinct value

/-- `override.get(name, {})`. -/
def Override.entry (override : Override) (name : String) : Dict String Json :=
  (override.tables.get? name).getD Dict.empty

def firstParams (cards : List Card) (ref : String) : Dict String Json :=
  match (cards.flatMap cardMounts).find? (fun mount => decide (mount.provider = ref)) with
  | some mount => mount.params
  | none => Dict.empty

/-- `tun` of `mount_params`. -/
def tunablesOf (cards : List Card) (card : String) : Option (Dict String Json) :=
  (cards.find? (fun entry => decide (entry.plugin = card))).bind Card.tunables

/-- `if tun and "tunables" not in params`. -/
def withTunables (params : Dict String Json) (tunables : Option (Dict String Json)) :
    Dict String Json :=
  match tunables with
  | none => params
  | some table =>
      if table.entries ≠ [] ∧ "tunables" ∉ params.keys then
        params.set "tunables" (.obj table.entries)
      else params

/-- `mount_params`. -/
def mountParams (cards : List Card) (override : Override) (ref : String) : Dict String Json :=
  let params := withTunables (firstParams cards ref) (tunablesOf cards (cardOf ref))
  (Assoc.merge (override.entry (packageOf ref)).entries (override.entry ref).entries).foldl layOn params

/-! ## Refs of the providers of a card -/

def dotted (words : List (List Char)) : List Char := words.flatMap (List.cons '.')

/-- `plugins.<card>[.<module>...]:<factory>`. -/
structure ProviderRef where
  card : List Char
  modules : List (List Char)
  factory : List Char
  plain : ∀ word ∈ card :: modules, '.' ∉ word ∧ ':' ∉ word

namespace ProviderRef

variable (ref : ProviderRef)

def under (words : List (List Char)) : List Char := plugins ++ dotted words

def text : String := String.ofList (under (ref.card :: ref.modules) ++ ':' :: ref.factory)

def package : String := String.ofList (under [ref.card])

def above : String := String.ofList (under (ref.card :: ref.modules).dropLast)

theorem not_mem_under {words : List (List Char)} (plain : ∀ word ∈ words, ':' ∉ word) :
    ':' ∉ under words := by
  rw [under, List.mem_append, not_or]
  constructor
  · decide
  · rw [dotted, List.mem_flatMap]
    rintro ⟨word, mem, inside⟩
    rw [List.mem_cons] at inside
    rcases inside with dot | inside
    · exact absurd dot (by decide)
    · exact plain word mem inside

theorem beforeColon_text : beforeColon ref.text.toList = under (ref.card :: ref.modules) := by
  have free := not_mem_under (fun word mem => (ref.plain word mem).2)
  rw [text, String.toList_ofList, beforeColon, List.takeWhile_append_of_pos]
  · simp
  · intro letter mem
    rw [decide_eq_true_iff]
    intro colon
    exact free (colon ▸ mem)

theorem beforeLastDot_dotted (start : List Char) {last : List Char} (plain : '.' ∉ last) :
    beforeLastDot (start ++ '.' :: last) = start := by
  have letters : ∀ letter ∈ last.reverse, decide (letter ≠ '.') = true := by
    intro letter mem
    rw [decide_eq_true_iff]
    intro dot
    exact plain (dot ▸ List.mem_reverse.mp mem)
  rw [beforeLastDot, List.reverse_append, List.reverse_cons, List.append_assoc,
    List.dropWhile_append_of_pos letters]
  simp

theorem packageOf_text : packageOf ref.text = ref.above := by
  have split := List.dropLast_append_getLast (List.cons_ne_nil ref.card ref.modules)
  have mem := List.getLast_mem (List.cons_ne_nil ref.card ref.modules)
  rw [packageOf, beforeColon_text, above]
  apply congrArg String.ofList
  nth_rewrite 1 [← split]
  rw [under, dotted, List.flatMap_append, List.flatMap_singleton, ← List.append_assoc]
  exact beforeLastDot_dotted _ (ref.plain _ mem).1

theorem cardOf_text : cardOf ref.text = String.ofList ref.card := by
  have starts : plugins ++ ['.'] <+: ref.text.toList := by
    rw [text, String.toList_ofList, under, dotted, List.flatMap_cons]
    exact ⟨ref.card ++ (ref.modules.flatMap (List.cons '.') ++ ':' :: ref.factory), by simp⟩
  rw [cardOf, if_pos starts, beforeColon_text, under, dotted, List.flatMap_cons]
  apply congrArg String.ofList
  have first : (plugins ++ (('.' :: ref.card) ++ ref.modules.flatMap (List.cons '.'))).dropWhile
      (· ≠ '.') = '.' :: (ref.card ++ ref.modules.flatMap (List.cons '.')) := rfl
  have letters : ∀ letter ∈ ref.card, decide (letter ≠ '.') = true := by
    intro letter mem
    rw [decide_eq_true_iff]
    intro dot
    exact (ref.plain ref.card List.mem_cons_self).1 (dot ▸ mem)
  rw [first, List.tail_cons, List.takeWhile_append_of_pos letters]
  cases ref.modules with
  | nil => simp
  | cons next rest => simp

end ProviderRef

/-- An entry that may be absent, laid over a parameter that may be. -/
def lay (below value : Option Json) : Option Json :=
  match value with
  | none => below
  | some value => some (laid below value)

def tableOf : Option Json → List (String × Json)
  | some (.obj fields) => fields
  | _ => []

/-- Equal parameters; tables are equal whatever the order of their keys. -/
def Alike (one other : Option Json) : Prop :=
  one = other ∨ ∃ fields others,
    one = some (.obj fields) ∧ other = some (.obj others) ∧ Assoc.get? fields = Assoc.get? others

theorem alike_of_eq {one other : Option Json} (same : one = other) : Alike one other := Or.inl same

theorem alike_obj_iff (fields others : List (String × Json)) :
    Alike (some (.obj fields)) (some (.obj others)) ↔ Assoc.get? fields = Assoc.get? others := by
  constructor
  · rintro (same | ⟨one, other, first, second, equal⟩)
    · cases same
      rfl
    · cases first
      cases second
      exact equal
  · intro equal
    exact Or.inr ⟨fields, others, rfl, rfl, equal⟩

theorem laid_obj (below : Option Json) {fields : List (String × Json)}
    (unique : (Assoc.keys fields).Nodup) :
    laid below (.obj fields) = .obj (Assoc.merge (tableOf below) fields) := by
  have alone : Assoc.merge [] fields = fields := Assoc.merge_nil_left unique
  cases below with
  | none => exact congrArg Json.obj alone.symm
  | some below =>
      cases below with
      | obj table => rfl
      | _ => exact congrArg Json.obj alone.symm

theorem alike_laid_iff {fields : List (String × Json)} (unique : (Assoc.keys fields).Nodup)
    (below other : Option Json) :
    Alike (some (laid below (.obj fields))) (some (laid other (.obj fields))) ↔
      ∀ name, name ∉ Assoc.keys fields →
        Assoc.get? (tableOf below) name = Assoc.get? (tableOf other) name := by
  rw [laid_obj below unique, laid_obj other unique, alike_obj_iff]
  constructor
  · intro equal name absent
    have here := congrFun equal name
    rw [Assoc.get?_merge _ unique, Assoc.get?_merge _ unique,
      (Assoc.get?_eq_none_iff fields name).mpr absent] at here
    exact here
  · intro apart
    funext name
    rw [Assoc.get?_merge _ unique, Assoc.get?_merge _ unique]
    cases found : Assoc.get? fields name with
    | some value => rfl
    | none => exact apart name ((Assoc.get?_eq_none_iff fields name).mp found)

theorem get?_foldl_layOn {entries : List (String × Json)} (unique : (Assoc.keys entries).Nodup)
    (params : Dict String Json) (key : String) :
    (entries.foldl layOn params).get? key = lay (params.get? key) (Assoc.get? entries key) := by
  induction entries generalizing params with
  | nil => rfl
  | cons entry rest ih =>
      rw [Assoc.keys_cons, List.nodup_cons] at unique
      rw [List.foldl_cons, ih unique.2, layOn, Dict.get?_set, Assoc.get?_cons]
      by_cases same : entry.1 = key
      · have absent : Assoc.get? rest key = none :=
          (Assoc.get?_eq_none_iff rest key).mpr (same ▸ unique.1)
        rw [if_pos same, if_pos same, absent, same]
        rfl
      · rw [if_neg same, if_neg same]

section

variable (cards : List Card) (override : Override) (ref : ProviderRef) (key : String)

/-- A parameter before the override is laid over it. -/
def given : Option Json :=
  (withTunables (firstParams cards ref.text) (tunablesOf cards (String.ofList ref.card))).get? key

/-- What `mount_params` returns under a key: the entry of the ref alone, or else the one of the name
before the last dot. -/
theorem get?_mountParams :
    (mountParams cards override ref.text).get? key =
      lay (given cards ref key)
        (((override.entry ref.text).get? key).or ((override.entry ref.above).get? key)) := by
  have unique := Assoc.nodup_keys_merge (override.entry ref.above).unique (override.entry ref.text).entries
  rw [mountParams, ref.packageOf_text, ref.cardOf_text]
  refine (get?_foldl_layOn unique _ key).trans ?_
  rw [Assoc.get?_merge _ (override.entry ref.text).unique]
  rfl

/-- The declared parameters: those of the first mount, with the tunables of the hosting card unless
the mount has its own. -/
def declared : Option Json :=
  ((firstParams cards ref.text).get? key).or
    (if key = "tunables" then
      (tunablesOf cards (String.ofList ref.card)).map (fun table => .obj table.entries)
    else none)

/-- The declared parameter under the entry of the card package, under the entry of the ref. -/
def overlaid : Option Json :=
  lay (lay (declared cards ref key) ((override.entry ref.package).get? key))
    ((override.entry ref.text).get? key)

/-- The override reaches the parameter: without an entry of the ref, the entry found under the name
before the last dot does what the one of the package would; a table of the ref covers every key on
which the package and the declaration part. -/
def Reaches : Prop :=
  match (override.entry ref.text).get? key with
  | none =>
      Alike (lay (given cards ref key) ((override.entry ref.above).get? key))
        (lay (declared cards ref key) ((override.entry ref.package).get? key))
  | some (.obj fields) => ∀ name, name ∉ Assoc.keys fields →
      Assoc.get? (tableOf (given cards ref key)) name =
        Assoc.get? (tableOf (lay (declared cards ref key) ((override.entry ref.package).get? key))) name
  | some _ => True

theorem nodup_of_entry {name : String} {fields : List (String × Json)}
    (found : (override.entry name).get? key = some (.obj fields)) : (Assoc.keys fields).Nodup := by
  rw [Override.entry] at found
  cases held : override.tables.get? name with
  | none =>
      rw [held] at found
      cases found
  | some table =>
      rw [held] at found
      have distinct := override.distinct name table key _ held found
      rw [Distinct, Throughout] at distinct
      exact distinct.1

theorem mountParams_key_iff :
    Alike ((mountParams cards override ref.text).get? key) (overlaid cards override ref key) ↔
      Reaches cards override ref key := by
  rw [get?_mountParams, overlaid, Reaches]
  cases found : (override.entry ref.text).get? key with
  | none => rfl
  | some value =>
      rw [Option.some_or]
      cases value with
      | obj fields => exact alike_laid_iff (nodup_of_entry override key found) _ _
      | _ => exact ⟨fun _ => trivial, fun _ => alike_of_eq rfl⟩

end

/-- `mount_params` lays the declared parameters, the entry of the card package and the entry of the
ref over each other exactly where the override reaches every parameter. -/
theorem mountParams_overlaid_iff (cards : List Card) (override : Override) (ref : ProviderRef) :
    (∀ key, Alike ((mountParams cards override ref.text).get? key) (overlaid cards override ref key)) ↔
      ∀ key, Reaches cards override ref key :=
  forall_congr' (mountParams_key_iff cards override ref)

section

variable {cards : List Card} {ref : ProviderRef}

end

/-- A provider in the package of its card. -/
def packageRef : ProviderRef where
  card := ['c']
  modules := []
  factory := ['f']
  plain := by simp

/-- A provider in a module of the card. -/
def moduleRef : ProviderRef where
  card := ['c']
  modules := [['m']]
  factory := ['f']
  plain := by simp

def oneCard (ref : ProviderRef) : List Card := [⟨"c", [("policy", .bare ref.text)], none⟩]

/-- An entry for the package of the card. -/
def packageAlone : Override where
  tables := ⟨[("plugins.c", ⟨[("tunables", .obj [("stop", .int 1)])], by decide⟩)], by decide⟩
  distinct := by
    intro name table key value found inside
    have member := Assoc.mem_of_get? found
    rw [List.mem_singleton] at member
    cases member
    have here := Assoc.mem_of_get? inside
    rw [List.mem_singleton] at here
    cases here
    simp [Distinct, Throughout, throughoutFields_iff]

/-- Entries for the package of the card and for the ref. -/
def packageAndRef : Override where
  tables := ⟨[("plugins.c", ⟨[("tunables", .obj [("stop", .int 1)])], by decide⟩),
    ("plugins.c.m:f", ⟨[("tunables", .obj [("speed", .int 2)])], by decide⟩)], by decide⟩
  distinct := by
    intro name table key value found inside
    have member := Assoc.mem_of_get? found
    rw [List.mem_cons, List.mem_singleton] at member
    rcases member with same | same
    all_goals
      cases same
      have here := Assoc.mem_of_get? inside
      rw [List.mem_singleton] at here
      cases here
      simp [Distinct, Throughout, throughoutFields_iff]

/-- The entry of the package reaches neither a provider in the package itself nor, beside an entry of
the ref, a provider in a module. -/
theorem package_entry_lost :
    (¬ ∀ key, Alike ((mountParams (oneCard packageRef) packageAlone packageRef.text).get? key)
      (overlaid (oneCard packageRef) packageAlone packageRef key)) ∧
    ¬ ∀ key, Alike ((mountParams (oneCard moduleRef) packageAndRef moduleRef.text).get? key)
      (overlaid (oneCard moduleRef) packageAndRef moduleRef key) := by
  constructor
  · intro all
    have code : (mountParams (oneCard packageRef) packageAlone packageRef.text).get? "tunables" = none := by
      rfl
    have meant : overlaid (oneCard packageRef) packageAlone packageRef "tunables" =
        some (.obj [("stop", .int 1)]) := by
      rfl
    rcases all "tunables" with same | ⟨fields, others, here, _⟩
    · rw [code, meant] at same
      cases same
    · rw [code] at here
      cases here
  · intro all
    have code : (mountParams (oneCard moduleRef) packageAndRef moduleRef.text).get? "tunables" =
        some (.obj [("speed", .int 2)]) := by
      rfl
    have meant : overlaid (oneCard moduleRef) packageAndRef moduleRef "tunables" =
        some (.obj [("stop", .int 1), ("speed", .int 2)]) := by
      rfl
    have alike := all "tunables"
    rw [code, meant, alike_obj_iff] at alike
    exact absurd (congrFun alike "stop") (by simp [Assoc.get?])

end MountParams
end Harness
end PhysicalHarness
