import Mathlib.Data.List.Dedup
import Mathlib.Data.List.Lex
import Mathlib.Data.String.Basic
import PhysicalHarness.Lib.Elimination
import PhysicalHarness.Python.Value

namespace PhysicalHarness
namespace Board

open Python

/-!
# The skill vault

The vault is folded from the sealed stores: each record is promoted if it is claimed and its
held-out judgement was established, and retired if a promoted successor of its lineage
descends from it.  The edges are a set, and the walk that retires reads the statuses that it
changes, so a record is retired in every order only where it has a successor that is not.
-/

structure VaultRecord where
  task : Option String
  policy : Option String
  recoveryName : Option String
  generation : Option Int
  /-- The feature of the preconditions. -/
  feature : Option String
  declaredPrivilege : Option Int
  heldoutJudgementEstablished : Option Bool
  deriving DecidableEq

structure SealedStore where
  name : String
  digests : List String
  /-- It sealed generations. -/
  minting : Bool
  /-- The name of the parent store of its preregistration. -/
  parent : Option String

/-- An edge of the graph. -/
structure Edge where
  rel : String
  src : String
  dst : String
  rule : String
  via : String
  evidence : Option (Int × Int)
  deriving DecidableEq

/-- `(e["rel"], e["src"], e["dst"], e["rule"], e["via"])`. -/
def Edge.key (edge : Edge) : List String := [edge.rel, edge.src, edge.dst, edge.rule, edge.via]

/-- A digest that a card claims, with the sealed store it names. -/
structure VaultClaim where
  card : String
  digest : String
  store : Option String

inductive Status where
  | promoted
  | candidate
  | retired
  deriving DecidableEq

inductive VaultNode where
  | skill (digest : String) (record : VaultRecord) (status : Option Status) (evidencedBy : Option String)
  | other (kind id body : String)
  deriving DecidableEq

/-- `(n["kind"], n["id"])`. -/
def VaultNode.key : VaultNode → List String
  | .skill digest _ _ _ => ["skill", digest]
  | .other kind id _ => [kind, id]

structure Document where
  nodes : List VaultNode
  edges : List Edge
  deriving DecidableEq

/-- What `build_graph` folds.  The nodes and edges of cards, sessions and the library are
given: an edge with evidence is added once for each skill and benchmark. -/
structure Vault where
  records : Dict String VaultRecord
  stores : List SealedStore
  claims : List VaultClaim
  nodes : List VaultNode
  others : List Edge
  stored : ∀ store ∈ stores, ∀ digest ∈ store.digests, digest ∈ records.keys
  apart : ∀ edge ∈ others, edge.rel ∉ ["DESCENDS_FROM", "REQUIRES", "EVIDENCED_BY", "CLAIMS"]
  single : ∀ first ∈ others, ∀ second ∈ others, first.key = second.key → first = second

/-- `_FEATURE_CAP`. -/
def featureCap : String → Option String
  | "privileged" => some "embodiment.ground_truth"
  | "observable" => some "percept.model"
  | _ => none

namespace Vault

/-! ## Edges -/

/-- `evidenced.get(digest)`: the store that minted the record, or one that holds it. -/
def evidenced (vault : Vault) (digest : String) : Option String :=
  let held := vault.stores.filter (fun store => digest ∈ store.digests)
  let minted := held.filter SealedStore.minting
  (sorted ((if minted.isEmpty then held else minted).map SealedStore.name)).head?

/-- `records[digest].get("generation") or 0`. -/
def generation (vault : Vault) (digest : String) : Int :=
  ((vault.records.get? digest).bind VaultRecord.generation).getD 0

def ordered (vault : Vault) (store : SealedStore) : List String :=
  store.digests.insertionSort (fun left right => vault.generation left < vault.generation right ∨
    (vault.generation left = vault.generation right ∧ left ≤ right))

def chainEdges (vault : Vault) (store : SealedStore) : List Edge :=
  (((vault.ordered store).zip (vault.ordered store).tail).filter
    (fun pair => vault.generation pair.2 > vault.generation pair.1)).map (fun pair =>
      ⟨"DESCENDS_FROM", pair.2, pair.1, "generation.child_sha_chain", "runs/" ++ store.name ++ "/index",
        none⟩)

def namespaceOf (feature : String) : String := String.ofList (feature.toList.takeWhile (· ≠ '.'))

def requiresEdges (vault : Vault) (entry : String × VaultRecord) : List Edge :=
  let ns := namespaceOf (entry.2.feature.getD "")
  match featureCap ns with
  | none => []
  | some cap =>
      if ns ≠ "privileged" ∨ entry.2.declaredPrivilege.getD 0 > 0 then
        [⟨"REQUIRES", entry.1, cap, "preconditions.feature.namespace",
          "runs/" ++ (vault.evidenced entry.1).getD "?" ++ "/skills/" ++ entry.1 ++ ".json", none⟩]
      else []

def evidencedEdges (vault : Vault) (entry : String × VaultRecord) : List Edge :=
  match vault.evidenced entry.1 with
  | none => []
  | some store =>
      [⟨"EVIDENCED_BY", entry.1, store, "skills root sealed store", "runs/" ++ store ++ "/skills", none⟩]

/-- `store_digests.get(name, [])`. -/
def digestsOf (vault : Vault) (name : String) : List String :=
  ((vault.stores.find? (fun store => store.name = name)).map SealedStore.digests).getD []

def parentEdges (vault : Vault) (store : SealedStore) : List Edge :=
  match store.parent with
  | none => []
  | some parent =>
      (vault.digestsOf parent).flatMap (fun pdig =>
        (store.digests.filter (fun cdig => vault.evidenced cdig = some store.name ∧ cdig ≠ pdig)).map
          (fun cdig => ⟨"DESCENDS_FROM", cdig, pdig, "prereg.parent_store+parent_final_sha",
            "runs/" ++ store.name ++ "/prereg", none⟩))

def claimEdge (claim : VaultClaim) : Edge :=
  ⟨"CLAIMS", claim.card, claim.digest, "manifest.claim.sealed.skills", claim.store.getD claim.card, none⟩

/-- The set of the edges. -/
def edges (vault : Vault) : List Edge :=
  (vault.stores.flatMap vault.chainEdges ++
    vault.records.entries.flatMap (fun entry => vault.requiresEdges entry ++ vault.evidencedEdges entry) ++
      vault.stores.flatMap vault.parentEdges ++ vault.claims.map claimEdge ++ vault.others).dedup

/-! ## Statuses and the document -/

/-- `_same_lineage`. -/
def sameLineage (vault : Vault) (left right : String) : Bool :=
  match vault.records.get? left, vault.records.get? right with
  | some first, some second =>
      first.task = second.task && first.policy = second.policy &&
        first.recoveryName = second.recoveryName
  | _, _ => false

def promotes (vault : Vault) (digest : String) (record : VaultRecord) : Bool :=
  vault.claims.any (fun claim => claim.digest = digest) &&
    record.heldoutJudgementEstablished.getD false

def statuses (vault : Vault) : List (String × Status) :=
  vault.records.entries.map (fun entry =>
    (entry.1, if vault.promotes entry.1 entry.2 then .promoted else .candidate))

/-- The ends of a `DESCENDS_FROM` edge. -/
def descends (edge : Edge) : Option (String × String) :=
  if edge.rel = "DESCENDS_FROM" then some (edge.src, edge.dst) else none

def retire (vault : Vault) (table : List (String × Status)) (pair : String × String) :
    List (String × Status) :=
  if Assoc.get? table pair.2 = some .promoted ∧ Assoc.get? table pair.1 = some .promoted ∧
      vault.sameLineage pair.1 pair.2 then
    Assoc.set table pair.2 .retired
  else table

/-- The statuses after a walk of the edges in this order. -/
def retired (vault : Vault) (enumeration : List Edge) : List (String × Status) :=
  (enumeration.filterMap descends).foldl vault.retire vault.statuses

/-- `build_graph`, where the set of the edges is walked in this order. -/
def buildGraph (vault : Vault) (enumeration : List Edge) : Document where
  nodes := (vault.records.entries.map (fun entry => VaultNode.skill entry.1 entry.2
    (Assoc.get? (vault.retired enumeration) entry.1) (vault.evidenced entry.1)) ++
      vault.nodes).insertionSort (fun left right => left.key ≤ right.key)
  edges := enumeration.insertionSort (fun left right => left.key ≤ right.key)

def Enumerates (vault : Vault) (enumeration : List Edge) : Prop := enumeration.Perm vault.edges

def Standing (vault : Vault) (digest : String) : Prop :=
  ∃ record, vault.records.get? digest = some record ∧ vault.promotes digest record = true

/-- A standing record of the same lineage that descends from a standing record. -/
structure Succeeds (vault : Vault) (successor digest : String) : Prop where
  stands : vault.Standing digest
  stronger : vault.Standing successor
  lineage : vault.sameLineage successor digest = true
  descends : ∃ edge ∈ vault.edges, edge.rel = "DESCENDS_FROM" ∧ edge.src = successor ∧ edge.dst = digest

def Succeeded (vault : Vault) (digest : String) : Prop := ∃ successor, vault.Succeeds successor digest

/-- The document does not depend on the order of the set, and the succeeded are retired. -/
structure Settled (vault : Vault) : Prop where
  same : ∀ enumeration other, vault.Enumerates enumeration → vault.Enumerates other →
    vault.buildGraph enumeration = vault.buildGraph other
  retired : ∀ enumeration, vault.Enumerates enumeration → ∀ digest ∈ vault.records.keys,
    Assoc.get? (vault.retired enumeration) digest = some .retired ↔ vault.Succeeded digest

/-- Every succeeded record has a successor that is not succeeded. -/
def Crowned (vault : Vault) : Prop :=
  ∀ digest, vault.Succeeded digest → ∃ successor, vault.Succeeds successor digest ∧
    ¬ vault.Succeeded successor

def standing (vault : Vault) (digest : String) : Bool :=
  decide (Assoc.get? vault.statuses digest = some .promoted)

/-- The records that a walk leaves standing. -/
def survivors (vault : Vault) (enumeration : List Edge) : String → Bool :=
  Elimination.walk descends vault.sameLineage vault.standing enumeration

variable {vault : Vault} {digest : String} {enumeration : List Edge}

theorem get?_statuses (vault : Vault) (digest : String) :
    Assoc.get? vault.statuses digest = (vault.records.get? digest).map (fun record =>
      if vault.promotes digest record then .promoted else .candidate) := by
  have each : ∀ entries : List (String × VaultRecord),
      Assoc.get? (entries.map (fun entry => (entry.1,
        if vault.promotes entry.1 entry.2 then Status.promoted else Status.candidate))) digest =
        (Assoc.get? entries digest).map (fun record =>
          if vault.promotes digest record then Status.promoted else Status.candidate) := by
    intro entries
    induction entries with
    | nil => rfl
    | cons entry rest ih =>
        rw [List.map_cons, Assoc.get?_cons, Assoc.get?_cons, ih]
        by_cases here : entry.1 = digest
        · rw [if_pos here, if_pos here, here]
          rfl
        · rw [if_neg here, if_neg here]
  exact each vault.records.entries

theorem standing_iff : vault.standing digest = true ↔ vault.Standing digest := by
  rw [standing, decide_eq_true_eq, get?_statuses]
  constructor
  · intro promoted
    rcases Option.map_eq_some_iff.mp promoted with ⟨record, found, same⟩
    refine ⟨record, found, ?_⟩
    by_contra other
    rw [if_neg other] at same
    cases same
  · rintro ⟨record, found, promotes⟩
    rw [found, Option.map_some, if_pos promotes]

/-- A table of statuses in which these records stand and no other status has changed. -/
def Tracks (vault : Vault) (table : List (String × Status)) (stands : String → Bool) : Prop :=
  ∀ digest, Assoc.get? table digest =
    if vault.standing digest then some (if stands digest then .promoted else .retired)
    else Assoc.get? vault.statuses digest

theorem tracks_statuses (vault : Vault) : vault.Tracks vault.statuses vault.standing := by
  intro digest
  split
  · rename_i stands
    rw [of_decide_eq_true stands]
  · rfl

theorem Tracks.promoted_iff {table : List (String × Status)} {stands : String → Bool}
    (tracks : vault.Tracks table stands) (within : ∀ digest, stands digest → vault.standing digest)
    (digest : String) : Assoc.get? table digest = some .promoted ↔ stands digest = true := by
  rw [tracks digest]
  by_cases first : vault.standing digest = true
  · rw [if_pos first]
    by_cases still : stands digest = true
    · rw [if_pos still]
      exact ⟨fun _ => still, fun _ => rfl⟩
    · rw [if_neg still]
      exact ⟨nofun, fun never => absurd never still⟩
  · rw [if_neg first]
    exact ⟨fun promoted => absurd (decide_eq_true promoted) first,
      fun still => absurd (within digest still) first⟩

theorem tracks_retired (vault : Vault) (enumeration : List Edge) :
    vault.Tracks (vault.retired enumeration) (vault.survivors enumeration) := by
  have run : ∀ (edges : List Edge) (table : List (String × Status)) (stands : String → Bool),
      vault.Tracks table stands → (∀ digest, stands digest → vault.standing digest) →
        vault.Tracks ((edges.filterMap descends).foldl vault.retire table)
          (Elimination.walk descends vault.sameLineage stands edges) := by
    intro edges
    induction edges with
    | nil => exact fun table stands tracks _ => tracks
    | cons edge rest ih =>
        intro table stands tracks within
        rw [Elimination.walk, List.foldl_cons, Elimination.strike]
        cases ends : descends edge with
        | none =>
            rw [List.filterMap_cons_none ends]
            exact ih table stands tracks within
        | some pair =>
            rw [List.filterMap_cons_some ends, List.foldl_cons, retire]
            simp only [tracks.promoted_iff within]
            by_cases falls : stands pair.2 = true ∧ stands pair.1 = true ∧
                vault.sameLineage pair.1 pair.2 = true
            · rw [if_pos falls, if_pos (by rw [falls.1, falls.2.1, falls.2.2]; rfl)]
              apply ih
              · intro digest
                rw [Assoc.get?_set, tracks digest]
                by_cases here : pair.2 = digest
                · rw [if_pos here, ← here, if_pos (within _ falls.1), Function.update_self]
                  rfl
                · rw [if_neg here, Function.update_of_ne (Ne.symm here)]
              · intro digest still
                by_cases here : digest = pair.2
                · rw [here]
                  exact within _ falls.1
                · rw [Function.update_of_ne here] at still
                  exact within digest still
            · have stays : ¬ (stands pair.2 && stands pair.1 && vault.sameLineage pair.1 pair.2) = true := by
                rw [Bool.and_eq_true, Bool.and_eq_true, and_assoc]
                exact falls
              rw [if_neg falls, if_neg stays]
              exact ih table stands tracks within
  exact run enumeration _ _ (tracks_statuses vault) (fun _ stands => stands)

theorem retired_iff (vault : Vault) (enumeration : List Edge) (digest : String) :
    Assoc.get? (vault.retired enumeration) digest = some .retired ↔
      vault.standing digest = true ∧ vault.survivors enumeration digest = false := by
  rw [tracks_retired vault enumeration digest]
  by_cases stands : vault.standing digest = true
  · rw [if_pos stands]
    cases vault.survivors enumeration digest with
    | false => exact ⟨fun _ => ⟨stands, rfl⟩, fun _ => rfl⟩
    | true =>
        constructor
        · exact nofun
        · rintro ⟨_, never⟩
          cases never
  · rw [if_neg stands, get?_statuses]
    constructor
    · intro never
      rcases Option.map_eq_some_iff.mp never with ⟨record, _, same⟩
      split at same <;> cases same
    · rintro ⟨stood, _⟩
      exact absurd stood stands

/-! ## Lineage edges -/

variable {edge : Edge}

theorem descends_eq_some_iff {src dst : String} :
    descends edge = some (src, dst) ↔ edge.rel = "DESCENDS_FROM" ∧ edge.src = src ∧ edge.dst = dst := by
  rw [descends, Option.ite_none_right_eq_some, Option.some_inj, Prod.mk.injEq]

theorem beats_iff {successor : String} :
    Elimination.Beats descends vault.sameLineage vault.standing vault.edges successor digest ↔
      vault.Succeeds successor digest := by
  constructor
  · rintro ⟨⟨edge, mem, ends⟩, stands, stronger, lineage⟩
    exact ⟨standing_iff.mp stands, standing_iff.mp stronger, lineage, edge, mem,
      descends_eq_some_iff.mp ends⟩
  · rintro ⟨stands, stronger, lineage, edge, mem, ends⟩
    exact ⟨⟨edge, mem, descends_eq_some_iff.mpr ends⟩, standing_iff.mpr stands,
      standing_iff.mpr stronger, lineage⟩

theorem mem_edges_iff : edge ∈ vault.edges ↔
    ((((∃ store ∈ vault.stores, edge ∈ vault.chainEdges store) ∨
      (∃ entry ∈ vault.records.entries, edge ∈ vault.requiresEdges entry ++ vault.evidencedEdges entry)) ∨
        (∃ store ∈ vault.stores, edge ∈ vault.parentEdges store)) ∨
          edge ∈ vault.claims.map claimEdge) ∨ edge ∈ vault.others := by
  rw [edges, List.mem_dedup, List.mem_append, List.mem_append, List.mem_append, List.mem_append,
    List.mem_flatMap, List.mem_flatMap, List.mem_flatMap]

theorem edges_cases (mem : edge ∈ vault.edges) :
    (edge.rel = "DESCENDS_FROM" ∧ edge.src ≠ edge.dst ∧ edge.evidence = none) ∨
      (edge.rel ∈ ["REQUIRES", "EVIDENCED_BY", "CLAIMS"] ∧ edge.evidence = none) ∨
        edge ∈ vault.others := by
  rcases mem_edges_iff.mp mem with
    (((⟨store, _, chain⟩ | ⟨entry, _, own⟩) | ⟨store, _, lineage⟩) | claim) | other
  · rcases List.mem_map.mp chain with ⟨pair, listed, rfl⟩
    have above := of_decide_eq_true (List.mem_filter.mp listed).2
    refine Or.inl ⟨rfl, fun same => ?_, rfl⟩
    change pair.2 = pair.1 at same
    rw [same] at above
    exact lt_irrefl _ above
  · rcases List.mem_append.mp own with requires | evidenced
    · rw [requiresEdges] at requires
      split at requires
      · cases requires
      · split at requires
        · rw [List.mem_singleton.mp requires]
          exact Or.inr (Or.inl ⟨.head _, rfl⟩)
        · cases requires
    · rw [evidencedEdges] at evidenced
      split at evidenced
      · cases evidenced
      · rw [List.mem_singleton.mp evidenced]
        exact Or.inr (Or.inl ⟨.tail _ (.head _), rfl⟩)
  · rw [parentEdges] at lineage
    split at lineage
    · cases lineage
    · rcases List.mem_flatMap.mp lineage with ⟨pdig, _, here⟩
      rcases List.mem_map.mp here with ⟨cdig, kept, rfl⟩
      exact Or.inl ⟨rfl, (of_decide_eq_true (List.mem_filter.mp kept).2).2, rfl⟩
  · rcases List.mem_map.mp claim with ⟨held, _, rfl⟩
    exact Or.inr (Or.inl
      ⟨.tail _ (.tail _ (.head _)), rfl⟩)
  · exact Or.inr (Or.inr other)

theorem src_ne_dst (mem : edge ∈ vault.edges) (descends : edge.rel = "DESCENDS_FROM") :
    edge.src ≠ edge.dst := by
  rcases edges_cases mem with ⟨_, apart, _⟩ | ⟨named, _⟩ | other
  · exact apart
  · rw [descends] at named
    exact absurd named (by decide)
  · have apart := vault.apart edge other
    rw [descends] at apart
    exact absurd (.head _) apart

theorem derived_or_other (mem : edge ∈ vault.edges) :
    (edge.rel ∈ ["DESCENDS_FROM", "REQUIRES", "EVIDENCED_BY", "CLAIMS"] ∧ edge.evidence = none) ∨
      edge ∈ vault.others := by
  rcases edges_cases mem with ⟨named, _, bare⟩ | ⟨named, bare⟩ | other
  · rw [named]
    exact Or.inl ⟨.head _, bare⟩
  · exact Or.inl ⟨.tail _ named, bare⟩
  · exact Or.inr other

theorem edge_eq_of_key {left right : Edge} (first : left ∈ vault.edges) (second : right ∈ vault.edges)
    (same : left.key = right.key) : left = right := by
  have rel : left.rel = right.rel := (List.cons.inj same).1
  rcases derived_or_other first with ⟨named, bare⟩ | other
  · rcases derived_or_other second with ⟨_, bare_⟩ | other_
    · rcases left with ⟨_, _, _, _, _, _⟩
      rcases right with ⟨_, _, _, _, _, _⟩
      cases bare
      cases bare_
      cases same
      rfl
    · rw [rel] at named
      exact absurd named (vault.apart right other_)
  · rcases derived_or_other second with ⟨named, _⟩ | other_
    · rw [← rel] at named
      exact absurd named (vault.apart left other)
    · exact vault.single left other right other_ same

theorem sorted_edges {first second : List Edge} (left : vault.Enumerates first)
    (right : vault.Enumerates second) :
    first.insertionSort (fun left right => left.key ≤ right.key) =
      second.insertionSort (fun left right => left.key ≤ right.key) := by
  have total : Std.Total (fun left right : Edge => left.key ≤ right.key) :=
    ⟨fun left right => le_total left.key right.key⟩
  have trans : IsTrans Edge (fun left right => left.key ≤ right.key) :=
    ⟨fun _ _ _ => le_trans⟩
  have perm : ∀ edges : List Edge,
      (edges.insertionSort (fun left right => left.key ≤ right.key)).Perm edges :=
    fun edges => List.perm_insertionSort _ edges
  apply List.Perm.eq_of_pairwise
  · intro edge other mem member_ below above
    apply edge_eq_of_key (left.subset ((perm first).subset mem))
      (right.subset ((perm second).subset member_))
    exact le_antisymm below above
  · exact List.pairwise_insertionSort _ first
  · exact List.pairwise_insertionSort _ second
  · exact ((perm first).trans (left.trans right.symm)).trans (perm second).symm

theorem buildGraph_congr {first second : List Edge} (left : vault.Enumerates first)
    (right : vault.Enumerates second) (same : vault.survivors first = vault.survivors second) :
    vault.buildGraph first = vault.buildGraph second := by
  have table : ∀ digest, Assoc.get? (vault.retired first) digest =
      Assoc.get? (vault.retired second) digest := by
    intro digest
    rw [tracks_retired vault first digest, tracks_retired vault second digest, same]
  rw [buildGraph, buildGraph, sorted_edges left right]
  simp only [table]

theorem decided_iff_crowned : Elimination.Decided descends vault.sameLineage vault.standing vault.edges ↔
    vault.Crowned := by
  have unlike : ∀ successor digest, vault.Succeeds successor digest → successor ≠ digest := by
    rintro successor digest ⟨_, _, _, edge, mem, lineage, rfl, rfl⟩
    exact src_ne_dst mem lineage
  constructor
  · rintro decided digest ⟨successor, succeeds⟩
    rcases decided successor digest (beats_iff.mpr succeeds) with ⟨champion, beats, same | free⟩
    · exact absurd same (unlike champion digest (beats_iff.mp beats))
    · exact ⟨champion, beats_iff.mp beats, fun ⟨other, over_⟩ => free other (beats_iff.mpr over_)⟩
  · intro crowned successor digest beats
    rcases crowned digest ⟨successor, beats_iff.mp beats⟩ with ⟨champion, succeeds, free⟩
    exact ⟨champion, beats_iff.mpr succeeds, Or.inr (fun other over_ => free ⟨other, beats_iff.mp over_⟩)⟩

/-- The fold is independent of the order of the edges, and retires the succeeded records, exactly
if every succeeded record has a successor that is not succeeded. -/
theorem settled_iff (vault : Vault) : vault.Settled ↔ vault.Crowned := by
  rw [← decided_iff_crowned, ← Elimination.falls_iff_decided]
  have keyed : ∀ digest, vault.standing digest = true → digest ∈ vault.records.keys := by
    intro digest stands
    rcases standing_iff.mp stands with ⟨record, found, _⟩
    exact Dict.mem_keys_of_get? found
  have beaten : ∀ digest, (∃ winner, Elimination.Beats descends vault.sameLineage vault.standing
      vault.edges winner digest) ↔ vault.Succeeded digest :=
    fun digest => exists_congr (fun _ => beats_iff)
  constructor
  · intro settled enumeration orders digest stands
    rw [beaten, ← settled.retired enumeration orders digest (keyed digest stands), retired_iff]
    exact (and_iff_right stands).symm
  · intro falls
    have each : ∀ enumeration, vault.Enumerates enumeration → ∀ digest,
        Assoc.get? (vault.retired enumeration) digest = some .retired ↔ vault.Succeeded digest := by
      intro enumeration orders digest
      rw [retired_iff, ← beaten]
      constructor
      · rintro ⟨stands, fallen⟩
        exact (falls enumeration orders digest stands).mp fallen
      · rintro ⟨winner, beats⟩
        exact ⟨beats.2.1, (falls enumeration orders digest beats.2.1).mpr ⟨winner, beats⟩⟩
    refine ⟨fun first second left right => buildGraph_congr left right ?_,
      fun enumeration orders digest _ => each enumeration orders digest⟩
    funext digest
    by_cases stands : vault.standing digest = true
    · have same : vault.survivors first digest = false ↔ vault.survivors second digest = false :=
        (falls first left digest stands).trans (falls second right digest stands).symm
      rw [Bool.eq_iff_iff, ← Bool.not_eq_false, ← Bool.not_eq_false, not_iff_not]
      exact same
    · have none_ : ∀ enumeration, vault.survivors enumeration digest = false := by
        intro enumeration
        apply Bool.eq_false_iff.mpr
        exact fun still => stands (Elimination.standing_of_walk still)
      rw [none_, none_]

def generationRecord (generation : Int) : VaultRecord :=
  ⟨some "stack", some "scripted", some "regrasp", some generation, none, none, some true⟩

/-- A store with a chain of three promoted generations. -/
def threeGenerations : Vault where
  records := ⟨[("g1", generationRecord 1), ("g2", generationRecord 2), ("g3", generationRecord 3)],
    by decide⟩
  stores := [⟨"stack-rsi", ["g1", "g2", "g3"], true, none⟩]
  claims := [⟨"plugins/stack", "g1", none⟩, ⟨"plugins/stack", "g2", none⟩, ⟨"plugins/stack", "g3", none⟩]
  nodes := []
  others := []
  stored := by decide
  apart := List.forall_mem_nil _
  single := List.forall_mem_nil _

/-- Two orders of its edges give the first generation two statuses. -/
theorem threeGenerations_unsettled :
    Assoc.get? (threeGenerations.retired threeGenerations.edges) "g1" = some .retired ∧
    Assoc.get? (threeGenerations.retired threeGenerations.edges.reverse) "g1" = some .promoted ∧
    threeGenerations.buildGraph threeGenerations.edges ≠
      threeGenerations.buildGraph threeGenerations.edges.reverse ∧
    ¬ threeGenerations.Settled := by
  have first : Assoc.get? (threeGenerations.retired threeGenerations.edges) "g1" = some .retired := by
    decide +kernel
  have second : Assoc.get? (threeGenerations.retired threeGenerations.edges.reverse) "g1" =
      some .promoted := by
    decide +kernel
  refine ⟨first, second, ?_, fun settled => ?_⟩
  · decide +kernel
  · have same := settled.retired _ (List.Perm.refl _) "g1" List.mem_cons_self
    have reversed := settled.retired _ (List.reverse_perm _) "g1" List.mem_cons_self
    have impossible := reversed.mpr (same.mp first)
    rw [second] at impossible
    cases impossible

end Vault

end Board
end PhysicalHarness
