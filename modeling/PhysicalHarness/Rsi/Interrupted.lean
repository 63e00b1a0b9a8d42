import PhysicalHarness.Board.Burned
import PhysicalHarness.Lib.Deposit
import PhysicalHarness.Rsi.Preregistration

namespace PhysicalHarness
namespace Rsi

open Python Harness JsonText Fallible Deposit
open PhysicalHarness.Board

/-!
# Campaign stores and crashes

A put writes a file and then a line of the index, and a process may die in either.  What it
leaves is a part of the text.  The next put takes a file of that name for the artifact, and
appends its own line to whatever the index ends with, so that the store reads back what was
put as long as no put meets a part of its file or of a line.
-/

section

variable [Sha256] [FloatText]

def lineOf (store : CampaignStore) (time : Double) (put : Put) : List Char :=
  print plain 0 (indexRow store.size time put.kind (shaJson put.payload)) ++ ['\n']

def fileOf (put : Put) : List Char := print indented 0 (sortKeys put.payload)

inductive Cut where
  /-- After that many characters of the file. -/
  | file (count : Nat)
  /-- After the file, and that many characters of the line. -/
  | line (count : Nat)

/-- What a process does to a store. -/
inductive Event where
  /-- A `put` that returns. -/
  | returns (put : Put) (time : Double)
  /-- The process dies in a `put`. -/
  | dies (put : Put) (time : Double) (cut : Cut)

def Event.made : Event → List Put
  | .returns put _ => [put]
  | .dies _ _ _ => []

def Event.subject : Event → Put
  | .returns put _ => put
  | .dies put _ _ => put

namespace CampaignStore

/-- One event. -/
def after (store : CampaignStore) : Event → CampaignStore
  | .returns put time => store.put (fun _ => time) put
  | .dies put _ (.file count) =>
      { index := store.index
        artifacts := deposit store.artifacts (shaJson put.payload) ((fileOf put).take count) }
  | .dies put time (.line count) =>
      { index := some (store.index.getD [] ++ (lineOf store time put).take count)
        artifacts := deposit store.artifacts (shaJson put.payload) (fileOf put) }

/-- One event after another, by successive processes. -/
def afterAll (store : CampaignStore) (events : List Event) : CampaignStore :=
  events.foldl after store

def Ended (store : CampaignStore) : Prop :=
  store.index.getD [] = [] ∨ (store.index.getD []).getLast? = some '\n'

/-- An event that meets no part of its file or of a line, and leaves no part of a line but
one without its end. -/
def Careful (store : CampaignStore) : Event → Prop
  | .returns put _ => Intact store.artifacts (shaJson put.payload) (fileOf put) ∧ store.Ended
  | .dies _ _ (.file _) => True
  | .dies put time (.line count) => count = 0 ∨
      (Intact store.artifacts (shaJson put.payload) (fileOf put) ∧ store.Ended ∧
        (lineOf store time put).length ≤ count + 1)

end CampaignStore

/-- Every event of a run is careful where it happens. -/
def CarefulRun (store : CampaignStore) : List Event → Prop
  | [] => True
  | event :: rest => store.Careful event ∧ CarefulRun (store.after event) rest

/-! ## What a store holds -/

/-- The rows of a store, among them the puts that returned. -/
structure Survives (store : CampaignStore) (made rows : List Put) : Prop where
  made : made.Sublist rows
  indexed : Indexed rows (store.index.getD []) ∨
    (¬ store.Ended ∧ Indexed rows (store.index.getD [] ++ ['\n']))
  opened : rows ≠ [] → store.index.isSome = true
  shelved : ∀ put ∈ rows, Assoc.get? store.artifacts (shaJson put.payload) = some (fileOf put)

omit [Sha256] [FloatText] in
theorem intact_fresh (name : String) (text : List Char) :
    Intact CampaignStore.fresh.artifacts name text := by
  intro found kept
  cases kept

theorem survives_fresh : Survives .fresh [] [] where
  made := List.Sublist.refl _
  indexed := Or.inl .nil
  opened := fun never => absurd rfl never
  shelved := List.forall_mem_nil _

section

variable {store : CampaignStore} {made rows : List Put} {put : Put}

theorem Survives.ended (survives : Survives store made rows) (ended : store.Ended) :
    Indexed rows (store.index.getD []) := by
  rcases survives.indexed with indexed | ⟨unended, _⟩
  · exact indexed
  · exact absurd ended unended

theorem Survives.deposit (survives : Survives store made rows) (name : String) (text : List Char) :
    ∀ put ∈ rows, Assoc.get? (deposit store.artifacts name text) (shaJson put.payload) =
      some (fileOf put) :=
  fun put mem => get?_deposit_of_get? (survives.shelved put mem)

theorem Survives.deposit_self (survives : Survives store made rows)
    (intact : Intact store.artifacts (shaJson put.payload) (fileOf put)) :
    ∀ other ∈ rows ++ [put], Assoc.get?
      (Deposit.deposit store.artifacts (shaJson put.payload) (fileOf put)) (shaJson other.payload) =
        some (fileOf other) := by
  intro other mem
  rcases List.mem_append.mp mem with before | here
  · exact survives.deposit _ _ other before
  · rw [List.mem_singleton.mp here]
    exact get?_deposit_self intact

omit [Sha256] in
theorem getLast?_of_print (text : List Char) (seq : Nat) (time : Double) (kind digest : String) :
    (text ++ print plain 0 (indexRow seq time kind digest)).getLast? = some '\x7d' := by
  rcases exists_print_obj plain 0 [("seq", .int seq), ("kind", .str kind), ("sha", .str digest),
    ("time", .float time.value)] with ⟨inner, braces⟩
  rw [indexRow, braces, ← List.cons_append, ← List.append_assoc, List.getLast?_concat]

theorem length_lineOf (store : CampaignStore) (time : Double) (put : Put) :
    (lineOf store time put).length =
      (print plain 0 (indexRow store.size time put.kind (shaJson put.payload))).length + 1 := by
  rw [lineOf, List.length_append]
  rfl

theorem Survives.returned (survives : Survives store made rows) (time : Double)
    (intact : Intact store.artifacts (shaJson put.payload) (fileOf put)) (ended : store.Ended) :
    Survives (store.after (.returns put time)) (made ++ [put]) (rows ++ [put]) where
  made := List.Sublist.append survives.made (List.Sublist.refl _)
  indexed := Or.inl ((survives.ended ended).snoc put _ _)
  opened := fun _ => rfl
  shelved := survives.deposit_self intact

theorem Survives.line (survives : Survives store made rows) (time : Double) {count : Nat}
    (intact : Intact store.artifacts (shaJson put.payload) (fileOf put)) (ended : store.Ended)
    (long : (lineOf store time put).length ≤ count + 1) :
    Survives (store.after (.dies put time (.line count))) made (rows ++ [put]) where
  made := survives.made.trans (List.sublist_append_left _ _)
  indexed := by
    have whole : Indexed (rows ++ [put]) (store.index.getD [] ++ lineOf store time put) :=
      (survives.ended ended).snoc put _ _
    by_cases all : (lineOf store time put).length ≤ count
    · apply Or.inl
      change Indexed _ (store.index.getD [] ++ (lineOf store time put).take count)
      rw [List.take_of_length_le all]
      exact whole
    · have short : (lineOf store time put).take count =
          print plain 0 (indexRow store.size time put.kind (shaJson put.payload)) := by
        rw [length_lineOf] at all long
        rw [lineOf]
        exact List.take_left' (by omega)
      apply Or.inr
      constructor
      · change ¬ (store.index.getD [] ++ (lineOf store time put).take count = [] ∨
          (store.index.getD [] ++ (lineOf store time put).take count).getLast? = some '\n')
        have last := getLast?_of_print (store.index.getD []) store.size time put.kind
          (shaJson put.payload)
        rw [short]
        rintro (empty | newline)
        · rw [empty] at last
          cases last
        · rw [last] at newline
          cases newline
      · change Indexed _ (store.index.getD [] ++ (lineOf store time put).take count ++ ['\n'])
        rw [short, List.append_assoc]
        exact whole
  opened := fun _ => rfl
  shelved := survives.deposit_self intact

theorem Survives.opening (survives : Survives store made rows) (time : Double) :
    Survives (store.after (.dies put time (.line 0))) made rows where
  made := survives.made
  indexed := by
    have same : (store.after (.dies put time (.line 0))).index.getD [] = store.index.getD [] :=
      List.append_nil _
    rw [CampaignStore.Ended, same]
    exact survives.indexed
  opened := fun _ => rfl
  shelved := survives.deposit _ _

theorem Survives.file (survives : Survives store made rows) (time : Double) (count : Nat) :
    Survives (store.after (.dies put time (.file count))) made rows where
  made := survives.made
  indexed := survives.indexed
  opened := survives.opened
  shelved := survives.deposit _ _

theorem Survives.step (survives : Survives store made rows) {event : Event}
    (careful : store.Careful event) : ∃ more, (∀ put ∈ more, put = event.subject) ∧
      Survives (store.after event) (made ++ event.made) (rows ++ more) := by
  have only : ∀ put : Put, ∀ other ∈ [put], other = put := fun _ _ => List.mem_singleton.mp
  have none_ : ∀ put : Put, ∀ other ∈ ([] : List Put), other = put :=
    fun _ _ never => absurd never List.not_mem_nil
  cases event with
  | returns put time => exact ⟨[put], only put, survives.returned time careful.1 careful.2⟩
  | dies put time cut =>
      rw [Event.made, List.append_nil]
      cases cut with
      | file count =>
          refine ⟨[], none_ put, ?_⟩
          rw [List.append_nil]
          exact survives.file time count
      | line count =>
          rcases careful with rfl | ⟨intact, ended, long⟩
          · refine ⟨[], none_ put, ?_⟩
            rw [List.append_nil]
            exact survives.opening time
          · exact ⟨[put], only put, survives.line time intact ended long⟩

theorem Survives.run (survives : Survives store made rows) {events : List Event}
    (careful : CarefulRun store events) : ∃ more, (∀ put ∈ more, put ∈ events.map Event.subject) ∧
      Survives (store.afterAll events) (made ++ events.flatMap Event.made) (rows ++ more) := by
  induction events generalizing store made rows with
  | nil =>
      refine ⟨[], List.forall_mem_nil _, ?_⟩
      rw [List.append_nil, List.flatMap_nil, List.append_nil]
      exact survives
  | cons event rest ih =>
      rcases survives.step careful.1 with ⟨first, own, next⟩
      rcases ih next careful.2 with ⟨later, others, last⟩
      refine ⟨first ++ later, ?_, ?_⟩
      · intro put mem
        rw [List.map_cons]
        rcases List.mem_append.mp mem with here | there
        · rw [own put here]
          exact .head _
        · exact .tail _ (others put there)
      · rw [List.flatMap_cons, ← List.append_assoc, ← List.append_assoc]
        exact last

/-! ## Reading what is left -/

omit [Sha256] [FloatText] in
theorem fileLines_snoc (text : List Char) : fileLines (text ++ ['\n']) = fileLines text ++ [[]] := by
  have solid : ∀ text : List Char, fileLines text ≠ [] := by
    intro text
    cases text with
    | nil => exact List.cons_ne_nil _ _
    | cons char rest =>
        rw [fileLines]
        split
        · exact List.cons_ne_nil _ _
        · split
          · exact List.cons_ne_nil _ _
          · exact List.cons_ne_nil _ _
  induction text with
  | nil => rfl
  | cons char rest ih =>
      rw [List.cons_append, fileLines, fileLines, ih]
      split
      · rfl
      · cases lines : fileLines rest with
        | nil => exact absurd lines (solid rest)
        | cons line more => rfl

omit [Sha256] in
theorem readRows_snoc (store : CampaignStore) (lines : List (List Char)) :
    readRows store (lines ++ [[]]) = readRows store lines := by
  induction lines with
  | nil => rfl
  | cons line rest ih =>
      rw [List.cons_append, readRows, readRows, ih]

theorem Survives.read (survives : Survives store made rows) (opened : store.index.isSome = true)
    (proper : ∀ put ∈ rows, Proper put.payload) :
    readStoreArtifacts store = .ok ⟨rows.map Put.archived⟩ := by
  have whole : ∀ text, Indexed rows text →
      readRows store (fileLines text) = .ok (rows.map Put.archived) :=
    fun text indexed => readRows_indexed indexed proper survives.shelved
  rw [readStoreArtifacts]
  cases index : store.index with
  | none =>
      rw [index] at opened
      cases opened
  | some text =>
      have lines : readRows store (fileLines text) = .ok (rows.map Put.archived) := by
        rcases survives.indexed with indexed | ⟨_, indexed⟩
        · rw [index] at indexed
          exact whole text indexed
        · rw [index] at indexed
          have ended := whole _ indexed
          rw [fileLines_snoc, readRows_snoc] at ended
          exact ended
      change (readRows store (fileLines text)).map _ = _
      rw [lines]
      rfl

theorem Survives.rowsOf (survives : Survives store made rows) :
    List.Forall₂ RowOf rows (indexRows store) := by
  have read : indexRows store = (textLines (store.index.getD [])).filterMap rowOfLine := by
    rw [indexRows]
    cases store.index with
    | none => rfl
    | some text => rfl
  rw [read]
  rcases survives.indexed with indexed | ⟨_, indexed⟩
  · exact rows_of_indexed indexed
  · exact rows_of_unended indexed

end

/-- What a store gives back of the puts that returned. -/
structure GivesBack [Host] (root : String) (store : CampaignStore) (made : List Put) : Prop where
  artifacts : ∃ archived, readStoreArtifacts store = .ok archived ∧
    (made.map Put.archived).Sublist archived.artifacts
  burned : ∀ prose, ∃ blocks, burnedBlocks root [store] prose = .ok blocks ∧
    ∀ put ∈ made, put.kind = "preregistration" → ∀ entry ∈ seedRoles, ∀ seeds : List Int,
      put.payload.get? entry.1 = some (.arr (seeds.map Json.int)) → ∀ seed ∈ seeds,
        Burns blocks entry.2 (shaJson put.payload) seed

omit [Sha256] in
theorem CarefulRun.of_prefix [Sha256] {store : CampaignStore} {before events : List Event}
    (first : before <+: events) (careful : CarefulRun store events) : CarefulRun store before := by
  rcases first with ⟨rest, rfl⟩
  induction before generalizing store with
  | nil => trivial
  | cons event later ih => exact ⟨careful.1, ih careful.2⟩

/-- A store that is used carefully gives back every put that returned, at any time. -/
theorem store_survives [Host] (root : String) {events : List Event}
    (careful : CarefulRun .fresh events) (sound : ∀ event ∈ events, Sound event.subject) :
    ∀ before, before <+: events →
      (before.flatMap Event.made ≠ [] → (CampaignStore.fresh.afterAll before).index.isSome = true) ∧
      ((CampaignStore.fresh.afterAll before).index.isSome = true →
        GivesBack root (CampaignStore.fresh.afterAll before) (before.flatMap Event.made)) := by
  intro before first
  rcases survives_fresh.run (careful.of_prefix first) with ⟨rows, subjects, survives⟩
  rw [List.nil_append, List.nil_append] at survives
  have sound_ : ∀ put ∈ rows, Sound put := by
    intro put member
    rcases List.mem_map.mp (subjects put member) with ⟨event, listed, rfl⟩
    exact sound event (first.subset listed)
  refine ⟨fun some_ => survives.opened (fun none_ => some_ ?_), fun opened => ⟨?_, fun prose => ?_⟩⟩
  · rw [none_] at survives
    exact List.sublist_nil.mp survives.made
  · exact ⟨_, survives.read opened (fun put member => (sound_ put member).proper),
      survives.made.map Put.archived⟩
  · rcases burns_of_rows survives.rowsOf survives.shelved sound_ root prose with ⟨blocks, burned, burns⟩
    exact ⟨blocks, burned, fun put member => burns put (survives.made.subset member)⟩

end

section

local instance interruptedHost : Host := asciiHost

local instance interruptedSha : Sha256 := sha256

local instance interruptedFloats : FloatText := exactDecimals

/-- A preregistration of one seed for each role. -/
def smallPut : Put :=
  ⟨"preregistration", .obj [("dev", .arr [.int 1]), ("heldout", .arr [.int 2])]⟩

theorem sound_smallPut : Sound smallPut where
  proper := ⟨trivial, ⟨trivial, trivial⟩, ⟨trivial, trivial⟩, trivial⟩
  distinct := by
    have keys : ["dev", "heldout"].Nodup := by decide
    exact ⟨keys, ⟨trivial, trivial⟩, ⟨trivial, trivial⟩, trivial⟩
  seeded := by
    intro _
    refine ⟨rfl, fun key named value found => ?_⟩
    have keys : key = "dev" ∨ key = "selection" ∨ key = "heldout" := by
      simpa [seedRoles] using named
    rcases keys with rfl | rfl | rfl
    · exact Or.inr ⟨[1], (Option.some.inj found).symm⟩
    · cases found
    · exact Or.inr ⟨[2], (Option.some.inj found).symm⟩

/-- A crash before the file, one between the file and its line, and the put again. -/
theorem store_survives_small : GivesBack "runs"
    (CampaignStore.fresh.afterAll [.dies smallPut (Double.nearest 0) (.line 0),
      .returns smallPut (Double.nearest 0)]) [smallPut] := by
  have careful : CarefulRun .fresh [.dies smallPut (Double.nearest 0) (.line 0),
      .returns smallPut (Double.nearest 0)] := by
    refine ⟨Or.inl rfl, ⟨?_, Or.inl rfl⟩, trivial⟩
    intro found kept
    have whole : Assoc.get? (deposit CampaignStore.fresh.artifacts (shaJson smallPut.payload)
        (fileOf smallPut)) (shaJson smallPut.payload) = some (fileOf smallPut) :=
      get?_deposit_self (intact_fresh _ _)
    exact Option.some.inj (kept.symm.trans whole)
  have sound : ∀ event ∈ [Event.dies smallPut (Double.nearest 0) (.line 0),
      .returns smallPut (Double.nearest 0)], Sound event.subject := by
    intro event member
    rcases List.mem_cons.mp member with rfl | later
    · exact sound_smallPut
    · rw [List.mem_singleton.mp later]
      exact sound_smallPut
  have kept := store_survives "runs" careful sound _ (List.prefix_refl _)
  exact kept.2 (kept.1 (List.cons_ne_nil _ _))

/-- What a crash in the file leaves, and the put again. -/
def torn : CampaignStore :=
  CampaignStore.fresh.afterAll
    [.dies smallPut (Double.nearest 0) (.file 0), .returns smallPut (Double.nearest 0)]

/-- The store is not read, and nothing is burned. -/
theorem torn_file_kept :
    (readStoreArtifacts torn).map (fun archived => archived.artifacts.length) = .error .notJson ∧
    burnedBlocks "runs" [torn] [] = .ok [] ∧ ¬ GivesBack "runs" torn [smallPut] := by
  have unread : (readStoreArtifacts torn).map (fun archived => archived.artifacts.length) =
      .error .notJson := by
    decide +kernel
  refine ⟨unread, ?_, fun gives => ?_⟩
  · decide +kernel
  · rcases gives.artifacts with ⟨archived, read, _⟩
    rw [read] at unread
    cases unread

end

end Rsi
end PhysicalHarness
