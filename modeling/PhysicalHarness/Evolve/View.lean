import PhysicalHarness.Evolve.Session
import PhysicalHarness.Lib.Loop
import PhysicalHarness.Python.Decimal
import PhysicalHarness.Python.HashKey

namespace PhysicalHarness
namespace Evolve
namespace Session

open Python JsonText Loop

/-!
# What the agent sees of its state

The agent keeps the knobs and the values that they came from beside the tunables and the
incumbent of the campaign.  The two tell the same as long as the round starts from the knobs
of the incumbent, every knob that is set is one of a table, and the copy of the incumbent is
asked for only while the branch point is still the incumbent's.
-/

/-! ## Knobs under a document -/

def stockTable (card : Card) : List (String × Json) :=
  match Assoc.get? card.params "tunables" with
  | some (.obj table) => table
  | _ => []

def Tabled (card : Card) : Prop := ∃ table, Assoc.get? card.params "tunables" = some (.obj table)

theorem stockTable_of_get? {card : Card} {table : List (String × Json)}
    (found : Assoc.get? card.params "tunables" = some (.obj table)) : stockTable card = table := by
  rw [stockTable, found]

theorem tabled_of_get? {params table : List (String × Json)}
    (found : Assoc.get? params "tunables" = some (.obj table)) : tabled params = table := by
  rw [tabled, found]

theorem stockTable_of_not_tabled {card : Card} (unknown : ¬ Tabled card) : stockTable card = [] := by
  rw [stockTable]
  split
  · rename_i table found
    exact absurd ⟨table, found⟩ unknown
  · rfl

theorem nodup_stockTable (card : Card) : (Assoc.keys (stockTable card)).Nodup := by
  have each : ∀ name value, (name, value) ∈ card.params → Distinct value := by
    have distinct := card.distinct
    rw [Distinct, Throughout, throughoutFields_iff] at distinct
    exact fun name value mem => distinct.2 (name, value) mem
  rw [stockTable]
  split
  · rename_i table found
    have inner : Distinct (.obj table) := each "tunables" (.obj table) (Assoc.mem_of_get? found)
    rw [Distinct, Throughout] at inner
    exact inner.1
  · exact List.nodup_nil

theorem mountParams_none (card : Card) : mountParams card (document card none) = card.params := by
  rfl

theorem mountParams_some (card : Card) (table : Dict String Json) :
    mountParams card (document card (some table)) =
      Assoc.set card.params "tunables"
        (overlaid (Assoc.get? card.params "tunables") (.obj table.entries)) := by
  have package : (document card (some table)).getD card.pkg (.obj []) =
      .obj [("tunables", .obj table.entries)] := by
    simp [document, Json.getD, Json.get?, Assoc.get?]
  have reference : (document card (some table)).getD card.ref (.obj []) = .obj [] := by
    simp [document, Json.getD, Json.get?, Assoc.get?, card.apart]
  rw [mountParams, package, reference]
  rfl

theorem overlaid_obj (card : Card) (table : Dict String Json) :
    overlaid (Assoc.get? card.params "tunables") (.obj table.entries) =
      .obj (Assoc.merge (stockTable card) table.entries) := by
  have alone : Assoc.merge [] table.entries = table.entries := Assoc.merge_nil_left table.unique
  rw [stockTable]
  split
  · rename_i old found
    rw [found]
    rfl
  · rename_i other
    rw [alone, overlaid]
    intro new old same found
    exact other old found

theorem effective_some (card : Card) (table : Dict String Json) :
    effective card (some table) =
      (Assoc.merge (stockTable card) table.entries).filter (fun entry => isNumber entry.2) := by
  have found : Assoc.get? (mountParams card (document card (some table))) "tunables" =
      some (.obj (Assoc.merge (stockTable card) table.entries)) := by
    rw [mountParams_some, Assoc.get?_set, if_pos rfl, overlaid_obj]
  rw [effective, knobsOf, tabled_of_get? found]

theorem effective_none (card : Card) (known : Tabled card) :
    effective card none = (Assoc.merge (stockTable card) []).filter (fun entry => isNumber entry.2) := by
  rcases known with ⟨table, found⟩
  rw [effective, mountParams_none, knobsOf, tabled_of_get? found, stockTable_of_get? found]
  rfl

/-- The knobs are those of a table, or there is this one knob alone. -/
def Settable (card : Card) (tuning : Tuning) (name : String) : Prop :=
  Tabled card ∨ tuning ≠ none ∨ Assoc.keys (effective card tuning) = [name]

theorem effective_setKnob {card : Card} {tuning : Tuning} {name : String} {value : Json}
    (settable : Settable card tuning name) (known : name ∈ Assoc.keys (effective card tuning))
    (number : isNumber value = true) :
    effective card (setKnob tuning name value) = Assoc.set (effective card tuning) name value := by
  have laid : ∀ table : Dict String Json,
      effective card tuning =
        (Assoc.merge (stockTable card) table.entries).filter (fun entry => isNumber entry.2) →
      (Assoc.merge (stockTable card) (table.set name value).entries).filter
          (fun entry => isNumber entry.2) = Assoc.set (effective card tuning) name value := by
    intro table same
    rw [same] at known ⊢
    rw [Dict.set, Assoc.merge_set (stockTable card) table.unique]
    apply Assoc.filter_set (Assoc.nodup_keys_merge (nodup_stockTable card) table.entries) known
    exact number
  cases tuning with
  | some table =>
      rw [setKnob, effective_some]
      exact laid table (effective_some card table)
  | none =>
      rw [setKnob, effective_some]
      by_cases tabled : Tabled card
      · exact laid Dict.empty (effective_none card tabled)
      · have alone : Assoc.keys (effective card none) = [name] :=
          (settable.resolve_left tabled).resolve_left (fun other => other rfl)
        rcases List.map_eq_singleton_iff.mp alone with ⟨entry, single, same⟩
        subst same
        rw [single, stockTable_of_not_tabled tabled]
        simp [Dict.set, Dict.empty, Assoc.merge, Assoc.set, number]

structure Numbers (knobs : List (String × Json)) : Prop where
  unique : (Assoc.keys knobs).Nodup
  number : ∀ entry ∈ knobs, isNumber entry.2 = true

theorem hashable_of_isNumber {value : Json} (number : isNumber value = true) : value.hashable = true := by
  cases value <;> first | rfl | cases number

/-- What `==` of dicts sees under a name. -/
def valueAt (knobs : List (String × Json)) (name : String) : Option HashKey :=
  (Assoc.get? knobs name).map Json.hashKey

theorem valueAt_set (knobs : List (String × Json)) (name : String) (value : Json) :
    valueAt (Assoc.set knobs name value) =
      fun other => if name = other then some value.hashKey else valueAt knobs other := by
  funext other
  rw [valueAt, Assoc.get?_set]
  by_cases same : name = other
  · simp [same]
  · simp [same, valueAt]

theorem mem_keys_iff_valueAt (knobs : List (String × Json)) (name : String) :
    name ∈ Assoc.keys knobs ↔ valueAt knobs name ≠ none := by
  rw [valueAt, Ne, Option.map_eq_none_iff, Assoc.get?_eq_none_iff, not_not]

namespace Numbers

variable {knobs other : List (String × Json)}

theorem get?_of_mem (numbers : Numbers knobs) {entry : String × Json} (mem : entry ∈ knobs) :
    Assoc.get? knobs entry.1 = some entry.2 := Assoc.get?_of_mem numbers.unique mem

theorem set (numbers : Numbers knobs) (name : String) {value : Json} (number : isNumber value = true) :
    Numbers (Assoc.set knobs name value) := by
  refine ⟨Assoc.nodup_keys_set numbers.unique name value, ?_⟩
  intro entry mem
  have found := Assoc.get?_of_mem (Assoc.nodup_keys_set numbers.unique name value) mem
  rw [Assoc.get?_set] at found
  by_cases same : name = entry.1
  · rw [if_pos same] at found
    cases found
    exact number
  · rw [if_neg same] at found
    exact numbers.number entry (Assoc.mem_of_get? found)

theorem sameKnobs_iff (numbers : Numbers knobs) (others : Numbers other) :
    sameKnobs knobs other = true ↔ valueAt knobs = valueAt other := by
  rw [sameKnobs, Json.eq, Bool.and_eq_true, decide_eq_true_eq, Json.eqFields_iff]
  constructor
  · intro same
    have here : ∀ name ∈ Assoc.keys knobs, valueAt knobs name = valueAt other name := by
      intro name mem
      rcases List.mem_map.mp mem with ⟨entry, inside, rfl⟩
      rcases same.2 entry inside with ⟨found, there, equal⟩
      have first := hashable_of_isNumber (numbers.number entry inside)
      have second := hashable_of_isNumber (others.number (entry.1, found) there)
      rw [valueAt, valueAt, numbers.get?_of_mem inside, others.get?_of_mem there]
      exact congrArg some ((Json.hashKey_eq_iff first second).mpr equal)
    have inside : Assoc.keys knobs ⊆ Assoc.keys other := by
      intro name mem
      rw [mem_keys_iff_valueAt, ← here name mem]
      exact (mem_keys_iff_valueAt knobs name).mp mem
    have perm : (Assoc.keys knobs).Perm (Assoc.keys other) := by
      apply (List.subperm_of_subset numbers.unique inside).perm_of_length_le
      rw [Assoc.keys, Assoc.keys, List.length_map, List.length_map, same.1]
    funext name
    by_cases mem : name ∈ Assoc.keys knobs
    · exact here name mem
    · have absent : name ∉ Assoc.keys other := fun also => mem (perm.mem_iff.mpr also)
      rw [mem_keys_iff_valueAt, not_not] at mem absent
      rw [mem, absent]
  · intro same
    have perm : (Assoc.keys knobs).Perm (Assoc.keys other) := by
      apply (List.perm_ext_iff_of_nodup numbers.unique others.unique).mpr
      intro name
      rw [mem_keys_iff_valueAt, mem_keys_iff_valueAt, same]
    constructor
    · have lengths := perm.length_eq
      rw [Assoc.keys, Assoc.keys, List.length_map, List.length_map] at lengths
      exact lengths
    · intro entry mem
      have value : valueAt other entry.1 = some entry.2.hashKey := by
        rw [← same, valueAt, numbers.get?_of_mem mem]
        rfl
      rcases Option.map_eq_some_iff.mp value with ⟨found, there, equal⟩
      have inside := Assoc.mem_of_get? there
      have first := hashable_of_isNumber (numbers.number entry mem)
      have second := hashable_of_isNumber (others.number _ inside)
      exact ⟨found, inside, (Json.hashKey_eq_iff first second).mp equal.symm⟩

end Numbers

theorem numbers_knobsOf {params : List (String × Json)} (distinct : Distinct (.obj params)) :
    Numbers (knobsOf params) := by
  have unique : (Assoc.keys (tabled params)).Nodup := by
    rw [Distinct, Throughout, throughoutFields_iff] at distinct
    rw [tabled]
    split
    · rename_i table found
      have inner := distinct.2 ("tunables", .obj table) (Assoc.mem_of_get? found)
      rw [Throughout] at inner
      exact inner.1
    · exact distinct.1
  constructor
  · exact (List.filter_sublist.map Prod.fst).nodup unique
  · intro entry mem
    exact (List.mem_filter.mp mem).2

theorem numbers_effective (card : Card) (tuning : Tuning) : Numbers (effective card tuning) := by
  cases tuning with
  | none =>
      rw [effective, mountParams_none]
      exact numbers_knobsOf card.distinct
  | some table =>
      rw [effective_some]
      constructor
      · exact (List.filter_sublist.map Prod.fst).nodup
          (Assoc.nodup_keys_merge (nodup_stockTable card) table.entries)
      · intro entry mem
        exact (List.mem_filter.mp mem).2

/-! ## The view over a round -/

variable {Content : Type} (setup : Setup)

/-- The agent's knobs, the values they came from and the parent are the ones in force. -/
structure Current (state : State Content) : Prop where
  knobs : sameKnobs state.knobs (effective setup.card state.tuning) = true
  knobsFrom : sameKnobs state.knobsFrom (effective setup.card state.incumbent.2) = true
  parent : state.parent = state.incumbent.1

/-- The copy and the knobs are the incumbent's. -/
structure Restored (state : State Content) : Prop where
  copy : state.copy = state.tree state.incumbent.1
  knobs : sameKnobs state.knobs (effective setup.card state.incumbent.2) = true

def Moved (state : State Content) : Prop :=
  sameKnobs (effective setup.card state.tuning) (effective setup.card state.incumbent.2) = false

/-- A knob that is set reaches the next run, and the branch point of the incumbent is still the
incumbent's copy when it is asked for. -/
def Faithful (state : State Content) : Action Content → Prop
  | .tunable (.str name) value =>
      name ∈ Assoc.keys state.knobs → isNumber value = true → Settable setup.card state.tuning name
  | .branch source =>
      source = "incumbent" → ∀ dir, Assoc.get? state.points source = some dir →
        state.tree dir = state.tree state.incumbent.1
  | _ => True

structure View (state : State Content) : Prop extends Current setup state where
  numbers : Numbers state.knobs
  numbersFrom : Numbers state.knobsFrom
  point : ∃ dir, Assoc.get? state.points "incumbent" = some dir

namespace View

variable {setup} {state : State Content}

theorem valueAt_knobs (view : View setup state) :
    valueAt state.knobs = valueAt (effective setup.card state.tuning) :=
  (view.numbers.sameKnobs_iff (numbers_effective setup.card state.tuning)).mp view.knobs

theorem valueAt_knobsFrom (view : View setup state) :
    valueAt state.knobsFrom = valueAt (effective setup.card state.incumbent.2) :=
  (view.numbersFrom.sameKnobs_iff (numbers_effective setup.card state.incumbent.2)).mp view.knobsFrom

theorem accept (view : View setup state) (k : Nat) (after : Suite) :
    View setup (accept setup state k after) where
  knobs := view.knobs
  knobsFrom := view.knobs
  parent := rfl
  numbers := view.numbers
  numbersFrom := view.numbers
  point := view.point

theorem judged (view : View setup state) (k : Nat) (measured : Measured) :
    View setup (judged setup state k measured).1 := by
  have wider : View setup { state with high := state.high + setup.confirmSeeds } :=
    ⟨⟨view.knobs, view.knobsFrom, view.parent⟩, view.numbers, view.numbersFrom, view.point⟩
  cases measured with
  | stopped => exact view
  | failed => exact view
  | rows row confirmed =>
      unfold Session.judged
      dsimp only
      split
      · cases confirmed with
        | none => exact view
        | some verdict =>
            cases verdict with
            | true => exact wider.accept k _
            | false => exact wider
      · split
        · exact view.accept k _
        · exact view

theorem turnKnob (view : View setup state) {name value : Json}
    (faithful : Faithful setup state (.tunable name value)) :
    View setup (turnKnob state name value).1 := by
  cases name with
  | str key =>
      rw [Session.turnKnob, Json.str?]
      dsimp only
      split
      · rename_i accepted
        have known : key ∈ Assoc.keys (effective setup.card state.tuning) := by
          rw [mem_keys_iff_valueAt, ← view.valueAt_knobs, ← mem_keys_iff_valueAt]
          exact accepted.1
        have next := effective_setKnob (faithful accepted.1 accepted.2) known accepted.2
        have numbers := view.numbers.set key accepted.2
        refine ⟨⟨?_, view.knobsFrom, view.parent⟩, numbers, view.numbersFrom, view.point⟩
        apply (numbers.sameKnobs_iff (numbers_effective setup.card _)).mpr
        rw [next, valueAt_set, valueAt_set, view.valueAt_knobs]
      · exact view
  | _ => exact view

theorem branchFrom (view : View setup state) (source : String) :
    View setup (branchFrom state source).1 := by
  rw [Session.branchFrom]
  split
  · exact ⟨⟨view.knobsFrom, view.knobsFrom, view.parent⟩, view.numbersFrom, view.numbersFrom, view.point⟩
  · exact view

theorem restored (view : View setup state) (faithful : Faithful setup state (.branch "incumbent")) :
    Restored setup (Session.branchFrom state "incumbent").1 := by
  rcases view.point with ⟨dir, found⟩
  rw [Session.branchFrom, found]
  exact ⟨faithful rfl dir found, view.knobsFrom⟩

section

variable [Codebase Content] [FloatText]

theorem evaluate (view : View setup state) (measured : Measured) :
    View setup (evaluate setup state measured).1 := by
  rw [Session.evaluate]
  split
  · exact view
  · apply judged
    exact ⟨⟨view.knobs, view.knobsFrom, view.parent⟩, view.numbers, view.numbersFrom, view.point⟩

theorem runSeeds (view : View setup state) (seeds : List (Option Int)) (source : Option String)
    (pointed : Bool) (result : Option (Int → ProbeRow)) :
    View setup (runSeeds setup state seeds source pointed result).1 := by
  have kept : ∀ probes ran, View setup { state with probes, ran } := fun probes ran =>
    ⟨⟨view.knobs, view.knobsFrom, view.parent⟩, view.numbers, view.numbersFrom, view.point⟩
  unfold Session.runSeeds
  dsimp only
  split
  · exact view
  · split
    · exact view
    · split
      · exact view
      · split
        · exact view
        · split
          · exact view
          · cases result with
            | none => exact kept _ _
            | some row => exact kept _ _

theorem act (view : View setup state) {action : Action Content} (faithful : Faithful setup state action) :
    View setup (act setup state action).1 := by
  have edited : ∀ copy, View setup { state with copy } := fun copy =>
    ⟨⟨view.knobs, view.knobsFrom, view.parent⟩, view.numbers, view.numbersFrom, view.point⟩
  cases action with
  | evaluate measured => exact view.evaluate measured
  | edit result =>
      cases result with
      | none => exact view
      | some copy => exact edited copy
  | write result =>
      cases result with
      | none => exact view
      | some copy => exact edited copy
  | tunable name value => exact view.turnKnob faithful
  | branch source => exact view.branchFrom source
  | run seeds source pointed result => exact view.runSeeds seeds source pointed result
  | _ => exact view

end

theorem touched [Codebase Content] (view : View setup state) (moved : Moved setup state) : untouched state = false := by
  have apart : sameKnobs state.knobs state.knobsFrom = false := by
    rw [Bool.eq_false_iff]
    intro same
    have values := (view.numbers.sameKnobs_iff view.numbersFrom).mp same
    rw [view.valueAt_knobs, view.valueAt_knobsFrom] at values
    have equal := ((numbers_effective setup.card state.tuning).sameKnobs_iff
      (numbers_effective setup.card state.incumbent.2)).mpr values
    exact Bool.noConfusion (moved.symm.trans equal)
  rw [untouched, apart, Bool.and_false]

end View

theorem refuses_ne_unchanged [Codebase Content] [FloatText] {state : State Content} (touched : untouched state = false) :
    refuses setup state ≠ some .unchanged := by
  rw [refuses, touched]
  split
  · simp
  · split
    · simp
    · simp only [Bool.false_eq_true, if_false]
      split
      · simp
      · split <;> simp

section

variable [Codebase Content] [FloatText]

theorem after_snoc (state : State Content) (before : List (Action Content)) (action : Action Content) :
    after setup state (before ++ [action]) = (act setup (after setup state before) action).1 := by
  rw [after, List.foldl_append]
  rfl

variable {setup}

theorem View.run {first : State Content} (view : View setup first) {actions : List (Action Content)}
    (faithful : Always (fun before => Faithful setup (after setup first before)) actions) :
    View setup (after setup first actions) := by
  induction actions using List.reverseRecOn with
  | nil => exact view
  | append_singleton before action ih =>
      rw [after_snoc]
      exact (ih faithful.of_snoc.1).act faithful.of_snoc.2

omit [Codebase Content] [FloatText] in
theorem view_start {tree : String → Content} {incumbent : String × Tuning}
    {parked : Option (String × Tuning)} (rounds : List (String × String)) (low high : Int)
    (baseline : Suite)
    (resumed : ∀ source ∈ parked,
      sameKnobs (effective setup.card source.2) (effective setup.card incumbent.2) = true) :
    View setup (start setup tree incumbent parked rounds low high baseline) := by
  have numbers := numbers_effective setup.card (parked.getD incumbent).2
  refine ⟨⟨?_, ?_, rfl⟩, numbers, numbers, incumbent.1, ?_⟩
  · exact Json.eq_self _
  · cases parked with
    | none => exact Json.eq_self _
    | some source => exact resumed source rfl
  · rw [start, Assoc.get?_cons, if_neg (by decide), Assoc.get?_cons, if_pos rfl]

variable (setup)

/-- The agent sees the state in force, and a state whose knobs alone moved is not unchanged. -/
structure Told (state : State Content) : Prop extends Current setup state where
  noticed : state.copy = state.tree state.incumbent.1 → Moved setup state →
    refuses setup state ≠ some .unchanged

/-- In a round that goes on from the knobs of the incumbent and whose actions are faithful, the
agent sees the state in force before every action, and a branch to the incumbent restores it. -/
theorem told_of_faithful (tree : String → Content) (incumbent : String × Tuning)
    (parked : Option (String × Tuning)) (rounds : List (String × String)) (low high : Int)
    (baseline : Suite) (actions : List (Action Content))
    (resumed : ∀ source ∈ parked,
      sameKnobs (effective setup.card source.2) (effective setup.card incumbent.2) = true)
    (faithful : Always (fun before => Faithful setup
      (after setup (start setup tree incumbent parked rounds low high baseline) before)) actions)
    (before : List (Action Content)) (reached : before <+: actions) :
    Told setup (after setup (start setup tree incumbent parked rounds low high baseline) before) ∧
      ∀ earlier, before = earlier ++ [.branch "incumbent"] →
        Restored setup
          (after setup (start setup tree incumbent parked rounds low high baseline) before) := by
  have opening : View setup (start setup tree incumbent parked rounds low high baseline) :=
    view_start rounds low high baseline resumed
  rcases reached with ⟨rest, same⟩
  rw [← same] at faithful
  have here := (always_append_iff.mp faithful).1
  have view := opening.run here
  refine ⟨⟨view.toCurrent, ?_⟩, ?_⟩
  · intro _ moved
    exact refuses_ne_unchanged setup (view.touched moved)
  · intro earlier last
    subst last
    rw [after_snoc]
    exact (opening.run here.of_snoc.1).restored here.of_snoc.2

end

/-! ## Rounds on a card with one knob -/

@[reducible] def textCodebase : Codebase String where
  digest := id
  changedCode := fun old new => decide (old ≠ new)
  changed := fun old new => decide (old ≠ new)
  protectedOk := fun _ => true

def knobCard (params : List (String × Json)) (distinct : Distinct (.obj params)) : Card where
  pkg := "plugins.card"
  ref := "plugins.card.driver:make"
  params := params
  distinct := distinct
  apart := by decide

/-- The card has a table with one knob. -/
def reachCard : Card :=
  knobCard [("tunables", .obj [("reach", .int 1)])] (by simp [Throughout, ThroughoutFields, Assoc.keys])

/-- The mount of the card has two numbers and no table. -/
def bareCard : Card :=
  knobCard [("cap", .int 5), ("reach", .int 1)] (by simp [Throughout, ThroughoutFields, Assoc.keys])

def roundOf (card : Card) : Setup where
  card := card
  stock := "stock"
  snapshot := fun k => String.ofList ('e' :: Nat.toDigits 10 k)
  maxSteps := 40
  maxProbes := 8
  maxEvals := 3
  confirmSeeds := 0

/-- One seed that does not finish the task, and the row of a copy that does. -/
def failingRow : Row := ⟨[⟨"verify-can", some "verify", some false⟩], false⟩

def passingRow : Row := ⟨[⟨"verify-can", some "verify", some true⟩], true⟩

def opened (card : Card) (parked : Option (String × Tuning)) : State String :=
  start (roundOf card) (fun _ => "old") ("work", none) parked [] 0 0 [(0, failingRow)]

section

local instance viewCodebase : Codebase String := textCodebase

local instance viewFloats : FloatText := exactDecimals

/-- An edit that gains is accepted, and the incumbent is asked for. -/
def acceptedRun : List (Action String) :=
  [.edit (some "new"), .run [some 0] none false (some (fun _ => ⟨passingRow, [], false⟩)),
    .evaluate (.rows (fun _ => passingRow) none)]

/-- A knob is set and the incumbent is asked for before a state is accepted. -/
def faithfulRun : List (Action String) :=
  [.tunable (.str "reach") (.int 2), .branch "incumbent"] ++ acceptedRun

theorem told_of_faithful_reach :
    Told (roundOf reachCard) (after (roundOf reachCard) (opened reachCard none) faithfulRun) ∧
      Restored (roundOf reachCard)
        (after (roundOf reachCard) (opened reachCard none)
          [.tunable (.str "reach") (.int 2), .branch "incumbent"]) := by
  have resumed : ∀ source ∈ (none : Option (String × Tuning)),
      sameKnobs (effective (roundOf reachCard).card source.2)
        (effective (roundOf reachCard).card (none : Tuning)) = true := by
    intro source parked
    cases parked
  have faithful : Always (fun before => Faithful (roundOf reachCard)
      (after (roundOf reachCard) (opened reachCard none) before)) faithfulRun := by
    rw [faithfulRun, acceptedRun, List.cons_append, List.cons_append, List.nil_append]
    refine always_cons_iff.mpr ⟨?_, always_cons_iff.mpr ⟨?_, always_cons_iff.mpr ⟨trivial,
      always_cons_iff.mpr ⟨trivial, always_cons_iff.mpr ⟨trivial, always_nil _⟩⟩⟩⟩⟩
    · intro _ _
      exact Or.inl ⟨_, rfl⟩
    · intro _ dir _
      rfl
  have each := told_of_faithful (roundOf reachCard) (fun _ => "old") ("work", none) none [] 0 0
    [(0, failingRow)] faithfulRun resumed faithful
  refine ⟨(each faithfulRun (List.prefix_refl _)).1, ?_⟩
  exact (each [.tunable (.str "reach") (.int 2), .branch "incumbent"] (List.prefix_append _ _)).2
    [.tunable (.str "reach") (.int 2)] rfl

/-- The incumbent after an accepted state is not what the branch gives; a parked state that differs
from the incumbent in its knobs is refused as unchanged; and a knob that is set where there is no
table takes the others out of the next run. -/
theorem branch_gives_old :
    ¬ Restored (roundOf reachCard)
        (after (roundOf reachCard) (opened reachCard none) (acceptedRun ++ [.branch "incumbent"])) ∧
      ¬ Told (roundOf reachCard)
        (opened reachCard (some ("work", setKnob none "reach" (.int 2)))) ∧
      ¬ Current (roundOf bareCard)
        (after (roundOf bareCard) (opened bareCard none) [.tunable (.str "reach") (.int 2)]) := by
  refine ⟨?_, ?_, ?_⟩
  · intro restored
    exact absurd restored.copy (by decide +kernel)
  · intro told
    exact told.noticed rfl (by rfl) (by decide +kernel)
  · intro current
    exact absurd current.knobs (by decide +kernel)

end

end Session
end Evolve
end PhysicalHarness
