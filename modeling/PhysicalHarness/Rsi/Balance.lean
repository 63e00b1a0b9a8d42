import PhysicalHarness.Rsi.Attribution
import PhysicalHarness.Rsi.Overlay

namespace PhysicalHarness
namespace Rsi

open Python Harness JsonText Fallible

/-!
# The balance of the stage table

Every episode is counted once under the stage that it reached last, so that the sums of the table
are the numbers of episodes and of labels whatever the stages are called.  The count of a stage is
the sum of the last reached ones from it on, unless a stage bears the name under which the episodes
are counted that reached none.
-/

/-! ## Counting in a table -/

section

variable {α : Type} {table next : List (String × α)} {name : String} {change : α → α} {size : α → Nat}
  {more : Nat}

def summed (size : α → Nat) (table : List (String × α)) : Nat :=
  (table.map (fun entry => size entry.2)).sum

def under (size : α → Nat) (table : List (String × α)) (name : String) : Nat :=
  ((Assoc.get? table name).map size).getD 0

def bumpIf (holds : Bool) (table : List (String × α)) (name : String) (change : α → α) :
    Except PyError (List (String × α)) :=
  if holds then bump table name change else .ok table

variable {holds : Bool}

theorem bumpIf_eq_ok (bumped : bumpIf holds table name change = .ok next) :
    (holds = false ∧ next = table) ∨ holds = true ∧ ∃ count,
      Assoc.get? table name = some count ∧ next = Assoc.set table name (change count) := by
  rw [bumpIf] at bumped
  cases holds with
  | false =>
      cases bumped
      exact .inl ⟨rfl, rfl⟩
  | true =>
      rw [if_pos rfl, bump] at bumped
      split at bumped
      · rename_i count found
        cases bumped
        exact .inr ⟨rfl, count, found, rfl⟩
      · cases bumped

theorem returns_bumpIf (mem : name ∈ Assoc.keys table) :
    ∃ next, bumpIf holds table name change = .ok next := by
  rcases Assoc.get?_of_mem_keys mem with ⟨count, found⟩
  rw [bumpIf, bump, found]
  split
  · exact ⟨_, rfl⟩
  · exact ⟨_, rfl⟩

theorem keys_bumpIf (bumped : bumpIf holds table name change = .ok next) :
    Assoc.keys next = Assoc.keys table := by
  rcases bumpIf_eq_ok bumped with ⟨_, rfl⟩ | ⟨_, count, found, rfl⟩
  · rfl
  · exact Assoc.keys_set_of_mem (Assoc.mem_keys_of_get? found) _

theorem summed_set {count : α} (grew : size (change count) = size count + more)
    (found : Assoc.get? table name = some count) :
    summed size (Assoc.set table name (change count)) = summed size table + more := by
  induction table with
  | nil => cases found
  | cons entry rest ih =>
      rw [Assoc.get?] at found
      rw [Assoc.set]
      split at found
      · rename_i same
        cases found
        rw [if_pos same]
        simp only [summed, List.map_cons, List.sum_cons, grew]
        omega
      · rename_i other
        rw [if_neg other]
        have later := ih found
        simp only [summed, List.map_cons, List.sum_cons] at later ⊢
        omega

theorem summed_bumpIf (bumped : bumpIf holds table name change = .ok next)
    (grew : ∀ count, size (change count) = size count + more) :
    summed size next = summed size table + holds.toNat * more := by
  rcases bumpIf_eq_ok bumped with ⟨rfl, rfl⟩ | ⟨rfl, count, found, rfl⟩
  · rw [Bool.toNat_false, Nat.zero_mul, Nat.add_zero]
  · rw [Bool.toNat_true, Nat.one_mul]
    exact summed_set (grew count) found

variable (size more) in
theorem under_bumpIf (bumped : bumpIf holds table name change = .ok next)
    (grew : ∀ count, size (change count) = size count + more) (other : String) :
    under size next other = under size table other + if holds && name == other then more else 0 := by
  rcases bumpIf_eq_ok bumped with ⟨rfl, rfl⟩ | ⟨rfl, count, found, rfl⟩
  · rfl
  · rw [under, under, Assoc.get?_set, Bool.true_and]
    by_cases same : name = other
    · rw [if_pos same, if_pos (beq_iff_eq.mpr same), ← same, found]
      exact grew count
    · rw [if_neg same, if_neg (fun equal => same (beq_iff_eq.mp equal))]
      rfl

theorem mem_keys_counters {names : List String} (zero : α) (mem : name ∈ names) :
    name ∈ Assoc.keys (counters names zero) := by
  have general : ∀ start : List (String × α), name ∈ names ∨ name ∈ Assoc.keys start →
      name ∈ Assoc.keys (names.foldl (fun table name => Assoc.set table name zero) start) := by
    clear mem
    induction names with
    | nil => exact fun start listed => listed.resolve_left List.not_mem_nil
    | cons first rest ih =>
        intro start listed
        apply ih
        rw [Assoc.mem_keys_set]
        rw [List.mem_cons] at listed
        tauto
  exact general [] (.inl mem)

theorem fresh_set {zero : α} (none_ : size zero = 0) (empty : summed size table = 0) :
    summed size (Assoc.set table name zero) = 0 := by
  induction table with
  | nil => exact none_
  | cons entry rest ih =>
      simp only [summed, List.map_cons, List.sum_cons, Nat.add_eq_zero_iff] at empty ih ⊢
      rw [Assoc.set]
      split
      · simp only [List.map_cons, List.sum_cons, none_, empty.2]
      · simp only [List.map_cons, List.sum_cons, empty.1, ih empty.2]

theorem fresh_counters (size : α → Nat) (zero : α) (names : List String) (none_ : size zero = 0) :
    summed size (counters names zero) = 0 ∧ ∀ name, under size (counters names zero) name = 0 := by
  have general : ∀ start : List (String × α), summed size start = 0 ∧ (∀ name, under size start name = 0) →
      summed size (names.foldl (fun table name => Assoc.set table name zero) start) = 0 ∧
        ∀ name, under size (names.foldl (fun table name => Assoc.set table name zero) start) name = 0 := by
    induction names with
    | nil => exact fun start empty => empty
    | cons first rest ih =>
        rintro start ⟨empty, apart⟩
        apply ih
        refine ⟨fresh_set none_ empty, ?_⟩
        intro name
        rw [under, Assoc.get?_set]
        split
        · exact none_
        · exact apart name
  exact general [] ⟨rfl, fun _ => rfl⟩

end

/-! ## One episode -/

def reachedNames (stages : List StageResult) : List String :=
  (stages.filter StageResult.reached).map StageResult.name

def deepest (stages : List StageResult) : String := (reachedNames stages).getLast?.getD "(none)"

theorem countStage_eq (state : StageTable × String) (stage : StageResult) :
    countStage state stage = (do
      let reached ← bumpIf stage.reached state.1.perStage stage.name
        (fun count => { count with reached := count.reached + 1 })
      let scored ← bumpIf stage.success reached stage.name
        (fun count => { count with success := count.success + 1 })
      return ({ state.1 with perStage := scored }, if stage.reached then stage.name else state.2)) := by
  rw [countStage]
  cases stage.reached <;> cases stage.success <;> rfl

theorem stage_of_countStage {state after : StageTable × String} {stage : StageResult}
    (counted : countStage state stage = .ok after) :
    after.1.furthest = state.1.furthest ∧ after.1.firstFailure = state.1.firstFailure ∧
      Assoc.keys after.1.perStage = Assoc.keys state.1.perStage ∧
      after.2 = (if stage.reached then stage.name else state.2) ∧
      ∀ name, under StageCount.reached after.1.perStage name =
          under StageCount.reached state.1.perStage name +
            (if stage.reached && stage.name == name then 1 else 0) ∧
        under StageCount.success after.1.perStage name =
          under StageCount.success state.1.perStage name +
            if stage.success && stage.name == name then 1 else 0 := by
  rw [countStage_eq] at counted
  rcases of_bind counted with ⟨reached, reaches, later⟩
  rcases of_bind later with ⟨scored, scores, same⟩
  cases same
  refine ⟨rfl, rfl, (keys_bumpIf scores).trans (keys_bumpIf reaches), rfl, fun name => ⟨?_, ?_⟩⟩
  · rw [under_bumpIf StageCount.reached 0 scores (fun _ => rfl),
      under_bumpIf StageCount.reached 1 reaches (fun _ => rfl), ite_self, Nat.add_zero]
  · rw [under_bumpIf StageCount.success 1 scores (fun _ => rfl),
      under_bumpIf StageCount.success 0 reaches (fun _ => rfl), ite_self, Nat.add_zero]

theorem stages_of_count {state after : StageTable × String} {stages : List StageResult}
    (counted : stages.foldlM countStage state = .ok after) :
    after.1.furthest = state.1.furthest ∧ after.1.firstFailure = state.1.firstFailure ∧
      Assoc.keys after.1.perStage = Assoc.keys state.1.perStage ∧
      after.2 = (reachedNames stages).getLast?.getD state.2 ∧
      ∀ name, under StageCount.reached after.1.perStage name =
          under StageCount.reached state.1.perStage name +
            stages.countP (fun stage => stage.reached && stage.name == name) ∧
        under StageCount.success after.1.perStage name =
          under StageCount.success state.1.perStage name +
            stages.countP (fun stage => stage.success && stage.name == name) := by
  induction stages generalizing state with
  | nil =>
      cases counted
      exact ⟨rfl, rfl, rfl, rfl, fun name => ⟨rfl, rfl⟩⟩
  | cons stage rest ih =>
      rcases of_bind counted with ⟨next, first, later⟩
      rcases stage_of_countStage first with ⟨furthest, failure, keys, last, counts⟩
      rcases ih later with ⟨furthest_, failure_, keys_, last_, counts_⟩
      refine ⟨furthest_.trans furthest, failure_.trans failure, keys_.trans keys, ?_, ?_⟩
      · rw [last_, last, reachedNames, reachedNames, List.filter_cons]
        split
        · rw [List.map_cons, List.getLast?_cons]
          rfl
        · rfl
      · intro name
        rw [(counts_ name).1, (counts name).1, (counts_ name).2, (counts name).2, List.countP_cons,
          List.countP_cons]
        omega

structure Counted (table after : StageTable) (result : RolloutResult) (stages : List StageResult) :
    Prop where
  listed : result.stages = some stages
  keys : Assoc.keys after.perStage = Assoc.keys table.perStage ∧
    Assoc.keys after.furthest = Assoc.keys table.furthest ∧
    Assoc.keys after.firstFailure = Assoc.keys table.firstFailure
  episodes : summed FurthestCount.episodes after.furthest =
    summed FurthestCount.episodes table.furthest + 1
  terminal : summed FurthestCount.terminalSuccess after.furthest =
    summed FurthestCount.terminalSuccess table.furthest + result.success.toNat
  failures : summed id after.firstFailure = summed id table.firstFailure + (!result.success).toNat
  furthest : ∀ name, under FurthestCount.episodes after.furthest name =
    under FurthestCount.episodes table.furthest name + if deepest stages == name then 1 else 0
  reached : ∀ name, under StageCount.reached after.perStage name =
    under StageCount.reached table.perStage name +
      stages.countP (fun stage => stage.reached && stage.name == name)
  success : ∀ name, under StageCount.success after.perStage name =
    under StageCount.success table.perStage name +
      stages.countP (fun stage => stage.success && stage.name == name)

theorem countEpisode_eq {result : RolloutResult} {stages : List StageResult}
    (listed : result.stages = some stages) (table : StageTable) :
    countEpisode table result = (do
      let counted ← stages.foldlM countStage (table, "(none)")
      let furthest ← bumpIf true counted.1.furthest counted.2 (fun count =>
        ⟨count.episodes + 1, count.terminalSuccess + result.success.toNat⟩)
      let firstFailure ← bumpIf (!result.success) counted.1.firstFailure (firstFailed stages) (· + 1)
      return { counted.1 with furthest, firstFailure }) := by
  rw [countEpisode, listed]
  cases result.success <;> rfl

theorem counted_of_countEpisode {table after : StageTable} {result : RolloutResult}
    (counted : countEpisode table result = .ok after) : ∃ stages, Counted table after result stages := by
  cases listed : result.stages with
  | none =>
      rw [countEpisode, listed] at counted
      cases counted
  | some stages =>
      rw [countEpisode_eq listed] at counted
      rcases of_bind counted with ⟨state, scored, later⟩
      rcases of_bind later with ⟨furthest, counts, later⟩
      rcases of_bind later with ⟨failure, fails, same⟩
      cases same
      rcases stages_of_count scored with ⟨furthest_, failure_, keys, last, names⟩
      have last_ : state.2 = deepest stages := last
      rw [last_, furthest_] at counts
      rw [failure_] at fails
      exact ⟨stages, {
        listed
        keys := ⟨keys, keys_bumpIf counts, keys_bumpIf fails⟩
        episodes := (summed_bumpIf counts (fun _ => rfl)).trans (by rw [Bool.toNat_true, Nat.one_mul])
        terminal := (summed_bumpIf counts (fun _ => rfl)).trans (by rw [Bool.toNat_true, Nat.one_mul])
        failures := (summed_bumpIf fails (fun _ => rfl)).trans (by rw [Nat.mul_one])
        furthest := under_bumpIf _ _ counts (fun _ => rfl)
        reached := fun name => (names name).1
        success := fun name => (names name).2 }⟩

/-- The table has every name under which an episode over this chain may be counted. -/
structure Keyed (names : List String) (table : StageTable) : Prop where
  perStage : ∀ name ∈ names, name ∈ Assoc.keys table.perStage
  furthest : ∀ name ∈ names ++ ["(none)"], name ∈ Assoc.keys table.furthest
  firstFailure : ∀ name ∈ names ++ ["(terminal)"], name ∈ Assoc.keys table.firstFailure

theorem keyed_fresh (names : List String) : Keyed names (StageTable.fresh names) where
  perStage := fun _ mem => mem_keys_counters _ mem
  furthest := fun _ mem => mem_keys_counters _ mem
  firstFailure := fun _ mem => mem_keys_counters _ mem

theorem returns_countStage {state : StageTable × String} {stage : StageResult}
    (keyed : stage.name ∈ Assoc.keys state.1.perStage) : ∃ after, countStage state stage = .ok after := by
  rw [countStage_eq]
  rcases returns_bumpIf keyed with ⟨reached, reaches⟩
  rcases returns_bumpIf ((keys_bumpIf reaches).symm ▸ keyed) with ⟨scored, scores⟩
  exact ⟨_, bind_eq_ok.mpr ⟨reached, reaches, bind_eq_ok.mpr ⟨scored, scores, rfl⟩⟩⟩

theorem returns_countStages {state : StageTable × String} {stages : List StageResult}
    (keyed : ∀ stage ∈ stages, stage.name ∈ Assoc.keys state.1.perStage) :
    ∃ after, stages.foldlM countStage state = .ok after := by
  induction stages generalizing state with
  | nil => exact ⟨state, rfl⟩
  | cons stage rest ih =>
      rcases returns_countStage (keyed stage (.head _)) with ⟨next, first⟩
      have keys := (stage_of_countStage first).2.2.1
      have keyed_ : ∀ other ∈ rest, other.name ∈ Assoc.keys next.1.perStage :=
        fun other mem => keys ▸ keyed other (List.mem_cons_of_mem _ mem)
      rcases ih keyed_ with ⟨after, later⟩
      exact ⟨after, bind_eq_ok.mpr ⟨next, first, later⟩⟩

theorem deepest_mem (stages : List StageResult) :
    deepest stages ∈ stages.map StageResult.name ++ ["(none)"] := by
  rw [deepest, List.mem_append]
  cases last : (reachedNames stages).getLast? with
  | none => exact .inr (List.mem_singleton.mpr rfl)
  | some name =>
      left
      rcases List.mem_map.mp (List.mem_of_getLast? last) with ⟨stage, mem, rfl⟩
      exact List.mem_map.mpr ⟨stage, (List.mem_filter.mp mem).1, rfl⟩

theorem firstFailed_mem (stages : List StageResult) :
    firstFailed stages ∈ stages.map StageResult.name ++ ["(terminal)"] := by
  rw [firstFailed, List.mem_append]
  cases found : stages.find? (fun stage => !stage.success) with
  | none => exact .inr (List.mem_singleton.mpr rfl)
  | some stage => exact .inl (List.mem_map.mpr ⟨stage, List.mem_of_find?_eq_some found, rfl⟩)

theorem returns_countEpisode {table : StageTable} {result : RolloutResult} {stages : List StageResult}
    (keyed : Keyed (stages.map StageResult.name) table) (listed : result.stages = some stages) :
    ∃ after, countEpisode table result = .ok after := by
  have held : ∀ stage ∈ stages, stage.name ∈ Assoc.keys (table, "(none)").1.perStage :=
    fun stage mem => keyed.perStage _ (List.mem_map.mpr ⟨stage, mem, rfl⟩)
  rcases returns_countStages held with ⟨state, scored⟩
  rcases stages_of_count scored with ⟨furthest, failure, _, last, _⟩
  have last_ : state.2 = deepest stages := last
  have counts : state.2 ∈ Assoc.keys state.1.furthest := by
    rw [last_, furthest]
    exact keyed.furthest _ (deepest_mem stages)
  have fails : firstFailed stages ∈ Assoc.keys state.1.firstFailure := by
    rw [failure]
    exact keyed.firstFailure _ (firstFailed_mem stages)
  rcases returns_bumpIf counts with ⟨counted, counts⟩
  rcases returns_bumpIf fails with ⟨failed, fails⟩
  rw [countEpisode_eq listed]
  exact ⟨_, bind_eq_ok.mpr ⟨state, scored, bind_eq_ok.mpr ⟨counted, counts,
    bind_eq_ok.mpr ⟨failed, fails, rfl⟩⟩⟩⟩

/-- The stages of a result that has them. -/
def RolloutResult.scored (result : RolloutResult) : List StageResult := result.stages.getD []

theorem returns_countEpisodes {names : List String} {results : List RolloutResult} {table : StageTable}
    (keyed : Keyed names table) (chains : ∀ result ∈ results, ∃ stages,
      result.stages = some stages ∧ stages.map StageResult.name = names) :
    ∃ last, results.foldlM countEpisode table = .ok last := by
  induction results generalizing table with
  | nil => exact ⟨table, rfl⟩
  | cons result rest ih =>
      rcases chains result (.head _) with ⟨stages, listed, named⟩
      rcases returns_countEpisode (named.symm ▸ keyed) listed with ⟨next, counted⟩
      rcases counted_of_countEpisode counted with ⟨_, adds⟩
      rcases adds.keys with ⟨perStage, furthest, failure⟩
      have keyed_ : Keyed names next :=
        ⟨perStage ▸ keyed.perStage, furthest ▸ keyed.furthest, failure ▸ keyed.firstFailure⟩
      rcases ih keyed_ (fun other mem => chains other (.tail _ mem)) with ⟨last, later⟩
      exact ⟨last, bind_eq_ok.mpr ⟨next, counted, later⟩⟩

theorem sum_of_run {measure : StageTable → Nat} {adds : RolloutResult → Nat}
    (step : ∀ table after result, Counted table after result result.scored →
      measure after = measure table + adds result)
    {results : List RolloutResult} {table last : StageTable}
    (ran : results.foldlM countEpisode table = .ok last) :
    measure last = measure table + (results.map adds).sum := by
  induction results generalizing table with
  | nil =>
      cases ran
      rfl
  | cons result rest ih =>
      rcases of_bind ran with ⟨next, counted, later⟩
      rcases counted_of_countEpisode counted with ⟨stages, counts⟩
      have same : result.scored = stages := by rw [RolloutResult.scored, counts.listed, Option.getD_some]
      rw [← same] at counts
      rw [ih later, step table next result counts, List.map_cons, List.sum_cons, Nat.add_assoc]

/-- The sums of the table. -/
structure Balanced (attribution : StageAttribution) : Prop where
  episodes : summed FurthestCount.episodes attribution.table.furthest = attribution.n
  terminal : summed FurthestCount.terminalSuccess attribution.table.furthest = attribution.successes
  failures : summed id attribution.table.firstFailure + attribution.successes = attribution.n

/-- The counts of the stages along the chain. -/
structure Descends (attribution : StageAttribution) : Prop where
  falls : attribution.stageOrder.Pairwise (fun earlier later =>
    under StageCount.reached attribution.table.perStage later ≤
      under StageCount.reached attribution.table.perStage earlier)
  furthest : ∀ before name after, attribution.stageOrder = before ++ name :: after →
    under StageCount.reached attribution.table.perStage name =
      ((name :: after).map (under FurthestCount.episodes attribution.table.furthest)).sum
  success : ∀ name ∈ attribution.stageOrder,
    under StageCount.success attribution.table.perStage name ≤
      under StageCount.reached attribution.table.perStage name

theorem sum_toNat {results : List RolloutResult} (keep : RolloutResult → Bool) :
    (results.map (fun result => (keep result).toNat)).sum = results.countP keep := by
  induction results with
  | nil => rfl
  | cons result rest ih =>
      rw [List.map_cons, List.sum_cons, ih, List.countP_cons, Nat.add_comm]
      cases keep result <;> rfl

theorem balanced_of_run {names : List String} {results : List RolloutResult} {last : StageTable}
    (ran : results.foldlM countEpisode (StageTable.fresh names) = .ok last) :
    Balanced ⟨results.length, results.countP RolloutResult.success, names, last⟩ where
  episodes := by
    have empty := (fresh_counters FurthestCount.episodes ⟨0, 0⟩ (names ++ ["(none)"]) rfl).1
    have total := sum_of_run (fun _ _ _ counts => counts.episodes) ran
    rw [StageTable.fresh, empty, Nat.zero_add, List.map_const', List.sum_replicate_nat, Nat.mul_one]
      at total
    exact total
  terminal := by
    have empty := (fresh_counters FurthestCount.terminalSuccess ⟨0, 0⟩ (names ++ ["(none)"]) rfl).1
    have total := sum_of_run (fun _ _ _ counts => counts.terminal) ran
    rw [StageTable.fresh, empty, sum_toNat, Nat.zero_add] at total
    exact total
  failures := by
    have empty := (fresh_counters id 0 (names ++ ["(terminal)"]) rfl).1
    have total := sum_of_run (fun _ _ _ counts => counts.failures) ran
    rw [StageTable.fresh, empty, sum_toNat, Nat.zero_add] at total
    have split := @List.length_eq_countP_add_countP _ RolloutResult.success results
    simp only [total, split, Bool.not_eq_true, Bool.decide_eq_false]
    exact Nat.add_comm _ _

/-! ## Along the chain -/

theorem countP_reached (stages : List StageResult) (name : String) :
    stages.countP (fun stage => stage.reached && stage.name == name) = (reachedNames stages).count name := by
  rw [reachedNames, List.count_eq_countP, List.countP_map, List.countP_filter]
  apply List.countP_congr
  intro stage _
  simp [and_comm]

theorem reachedNames_of_accounted {stages : List StageSpec} {results : List StageResult}
    (accounted : Accounted stages results) :
    ∃ rest, stages.map StageSpec.name = reachedNames results ++ rest := by
  rcases accounted.reached with ⟨here, rest, rfl, reached, unreached⟩
  refine ⟨rest.map StageResult.name, ?_⟩
  have first : here.filter StageResult.reached = here := List.filter_eq_self.mpr reached
  have second : rest.filter StageResult.reached = [] := by
    rw [List.filter_eq_nil_iff]
    intro result mem
    rw [unreached result mem]
    exact Bool.false_ne_true
  rw [← accounted.names, reachedNames, List.filter_append, first, second, List.append_nil, List.map_append]

/-- The last of the first names is among the others exactly where the first of these is among the
first names. -/
theorem count_getLast {front back before after : List String} {name : String} (some_ : front ≠ [])
    (distinct : (front ++ back).Nodup) (split : front ++ back = before ++ name :: after) :
    (name :: after).count (front.getLast?.getD "(none)") = front.count name := by
  rw [List.getLast?_eq_some_getLast some_, Option.getD_some]
  have apart : (∀ other ∈ front, other ∉ name :: after) →
      (name :: after).count (front.getLast some_) = front.count name := by
    intro disjoint
    rw [List.count_eq_zero_of_not_mem (disjoint _ (List.getLast_mem some_)),
      List.count_eq_zero_of_not_mem (fun mem => disjoint name mem (.head _))]
  have disjoint := (List.nodup_append.mp distinct).2.2
  rcases List.append_eq_append_iff.mp split with ⟨middle, _, rest⟩ | ⟨middle, same, rest⟩
  · apply apart
    intro other mem later
    exact disjoint other mem other (rest ▸ List.mem_append_right _ later) rfl
  · cases middle with
    | nil =>
        apply apart
        intro other mem later
        rw [rest] at later
        exact disjoint other mem other later rfl
    | cons first more =>
        injection rest with head tail
        have inside : front.getLast some_ ∈ name :: after := by
          have last : front.getLast some_ = (first :: more).getLast (List.cons_ne_nil _ _) := by
            simp only [same, List.getLast_append_of_ne_nil _ (List.cons_ne_nil first more)]
          rw [last, tail, head]
          exact List.mem_append_left back (List.getLast_mem (List.cons_ne_nil first more))
        have unique : (name :: after).Nodup := (split ▸ distinct).of_append_right
        rw [List.count_eq_one_of_mem unique inside]
        apply (List.count_eq_one_of_mem distinct.of_append_left _).symm
        rw [same, head]
        exact List.mem_append_right _ (.head _)

theorem sum_furthest {table after : StageTable} {result : RolloutResult} {stages : List StageResult}
    (counts : Counted table after result stages) (names : List String) :
    (names.map (under FurthestCount.episodes after.furthest)).sum =
      (names.map (under FurthestCount.episodes table.furthest)).sum + names.count (deepest stages) := by
  induction names with
  | nil => rfl
  | cons name rest ih =>
      rw [List.map_cons, List.map_cons, List.sum_cons, List.sum_cons, ih, counts.furthest,
        List.count_cons, BEq.comm]
      omega

theorem sum_map_eq_iff {results : List RolloutResult} {first second : RolloutResult → Nat}
    (le : ∀ result ∈ results, first result ≤ second result) :
    (results.map first).sum = (results.map second).sum ↔
      ∀ result ∈ results, first result = second result := by
  induction results with
  | nil => exact ⟨fun _ => List.forall_mem_nil _, fun _ => rfl⟩
  | cons result rest ih =>
      have here := le result (.head _)
      have later : ∀ result ∈ rest, first result ≤ second result :=
        fun other mem => le other (.tail _ mem)
      have sums := List.sum_le_sum later
      rw [List.map_cons, List.map_cons, List.sum_cons, List.sum_cons, List.forall_mem_cons, ← ih later]
      omega

theorem counts_of_run {names : List String} {results : List RolloutResult} {last : StageTable}
    (ran : results.foldlM countEpisode (StageTable.fresh names) = .ok last) :
    (∀ name, under StageCount.reached last.perStage name =
      (results.map (fun result => (reachedNames result.scored).count name)).sum) ∧
    (∀ name, under StageCount.success last.perStage name = (results.map (fun result =>
      result.scored.countP (fun stage => stage.success && stage.name == name))).sum) ∧
    ∀ others : List String, (others.map (under FurthestCount.episodes last.furthest)).sum =
      (results.map (fun result => others.count (deepest result.scored))).sum := by
  refine ⟨?_, ?_, ?_⟩
  · intro name
    have empty := (fresh_counters StageCount.reached ⟨0, 0⟩ names rfl).2 name
    have total := sum_of_run (fun _ _ _ counts => counts.reached name) ran
    simp only [countP_reached] at total
    rw [StageTable.fresh, empty, Nat.zero_add] at total
    exact total
  · intro name
    have empty := (fresh_counters StageCount.success ⟨0, 0⟩ names rfl).2 name
    have total := sum_of_run (fun _ _ _ counts => counts.success name) ran
    rw [StageTable.fresh, empty, Nat.zero_add] at total
    exact total
  · intro others
    have empty := (fresh_counters FurthestCount.episodes ⟨0, 0⟩ (names ++ ["(none)"]) rfl).2
    have total := sum_of_run (fun _ _ _ counts => sum_furthest counts others) ran
    have none_ : (others.map (under FurthestCount.episodes
        (counters (names ++ ["(none)"]) ⟨0, 0⟩))).sum = 0 := by
      rw [List.sum_eq_zero_iff]
      intro count mem
      rcases List.mem_map.mp mem with ⟨name, _, rfl⟩
      exact empty name
    rw [StageTable.fresh, none_, Nat.zero_add] at total
    exact total

/-- An episode over this chain. -/
structure Episode (stages : List StageSpec) (result : RolloutResult) : Prop where
  listed : ∃ scored, result.stages = some scored
  accounted : Accounted stages result.scored

theorem Episode.chain {stages : List StageSpec} {result : RolloutResult}
    (episode : Episode stages result) : ∃ scored, result.stages = some scored ∧
      scored.map StageResult.name = stages.map StageSpec.name := by
  rcases episode.listed with ⟨scored, listed⟩
  have names := episode.accounted.names
  rw [RolloutResult.scored, listed] at names
  exact ⟨scored, listed, names⟩

theorem Episode.count_le {stages : List StageSpec} {result : RolloutResult}
    (episode : Episode stages result) (distinct : (stages.map StageSpec.name).Nodup)
    {before after : List String} {name : String}
    (split : stages.map StageSpec.name = before ++ name :: after) :
    (reachedNames result.scored).count name ≤ (name :: after).count (deepest result.scored) ∧
      ((reachedNames result.scored).count name = (name :: after).count (deepest result.scored) ↔
        (reachedNames result.scored = [] → "(none)" ∉ name :: after)) := by
  rcases reachedNames_of_accounted episode.accounted with ⟨rest, whole⟩
  rw [deepest]
  by_cases none_ : reachedNames result.scored = []
  · rw [none_]
    refine ⟨Nat.zero_le _, ?_⟩
    rw [List.count_nil, eq_comm, List.count_eq_zero]
    exact ⟨fun absent _ => absent, fun absent => absent rfl⟩
  · rw [count_getLast none_ (whole ▸ distinct) (whole ▸ split)]
    exact ⟨le_rfl, fun _ empty => absurd empty none_, fun _ => rfl⟩

theorem Episode.success_le {stages : List StageSpec} {result : RolloutResult}
    (episode : Episode stages result) (name : String) :
    result.scored.countP (fun stage => stage.success && stage.name == name) ≤
      (reachedNames result.scored).count name := by
  rw [← countP_reached]
  apply List.countP_mono_left
  intro stage mem holds
  rw [Bool.and_eq_true] at holds ⊢
  refine ⟨?_, holds.2⟩
  by_contra unreached
  have failed := episode.accounted.unreached stage mem (Bool.eq_false_iff.mpr unreached)
  rw [failed] at holds
  exact Bool.false_ne_true holds.1

/-- A later stage of the chain was not reached by an episode that did not reach the earlier one. -/
theorem Episode.falls {stages : List StageSpec} {result : RolloutResult}
    (episode : Episode stages result) (distinct : (stages.map StageSpec.name).Nodup) :
    (stages.map StageSpec.name).Pairwise (fun earlier later =>
      (reachedNames result.scored).count later ≤ (reachedNames result.scored).count earlier) := by
  rcases reachedNames_of_accounted episode.accounted with ⟨rest, whole⟩
  rw [whole] at distinct ⊢
  have disjoint := (List.nodup_append.mp distinct).2.2
  have none_ : ∀ name ∈ rest, (reachedNames result.scored).count name = 0 := by
    intro name mem
    exact List.count_eq_zero_of_not_mem (fun here => disjoint name here name mem rfl)
  have one : ∀ name ∈ reachedNames result.scored, (reachedNames result.scored).count name = 1 :=
    fun name mem => List.count_eq_one_of_mem distinct.of_append_left mem
  rw [List.pairwise_append]
  refine ⟨?_, ?_, ?_⟩
  · apply List.Pairwise.imp_of_mem _ distinct.of_append_left
    intro earlier later first second _
    rw [one _ first, one _ second]
  · apply List.Pairwise.imp_of_mem _ distinct.of_append_right
    intro earlier later first second _
    rw [none_ _ first, none_ _ second]
  · intro earlier first later second
    rw [none_ _ second]
    exact Nat.zero_le _

section

variable [Sha256] [FloatText] {World Obs Action Goal Actor : Type}

/-- A result with the stages that the scorer returned for this chain. -/
def ScoredOver (registry : Registry)
    (plant : Plant World Obs Action Goal Actor) (stages : List StageSpec) (result : RolloutResult) :
    Prop :=
  ∃ spec bundle world obs stepBudget segment, spec.stages = some stages ∧
    governedSegment registry plant spec bundle world obs stepBudget = .ok segment ∧
    segment.stages = result.stages

variable {registry : Registry}
  {plant : Plant World Obs Action Goal Actor} {stages : List StageSpec} {results : List RolloutResult}

theorem episode_of_scoredOver {result : RolloutResult}
    (scored : ScoredOver registry plant stages result) : Episode stages result := by
  rcases scored with ⟨spec, bundle, world, obs, stepBudget, segment, staged, ran, same⟩
  rcases accounted_of_governedSegment staged ran with ⟨entries, returned, accounted⟩
  rw [same] at returned
  refine ⟨⟨entries, returned⟩, ?_⟩
  rw [RolloutResult.scored, returned]
  exact accounted

omit [Sha256] [FloatText] in
theorem descends_iff {last : StageTable} {n successes : Nat}
    (distinct : (stages.map StageSpec.name).Nodup) (episodes : ∀ result ∈ results, Episode stages result)
    (ran : results.foldlM countEpisode (StageTable.fresh (stages.map StageSpec.name)) = .ok last) :
    Descends ⟨n, successes, stages.map StageSpec.name, last⟩ ↔
      ("(none)" ∈ stages.map StageSpec.name → ∀ result ∈ results, reachedNames result.scored ≠ []) := by
  rcases counts_of_run ran with ⟨reached, success, furthest⟩
  have split_iff : ∀ before name after, stages.map StageSpec.name = before ++ name :: after →
      (under StageCount.reached last.perStage name =
          ((name :: after).map (under FurthestCount.episodes last.furthest)).sum ↔
        ∀ result ∈ results, reachedNames result.scored = [] → "(none)" ∉ name :: after) := by
    intro before name after split
    rw [reached, furthest, sum_map_eq_iff (fun result mem => ((episodes result mem).count_le
      distinct split).1)]
    apply forall₂_congr
    intro result mem
    exact ((episodes result mem).count_le distinct split).2
  constructor
  · intro descends named result mem none_
    rcases List.append_of_mem named with ⟨before, after, split⟩
    exact (split_iff before _ after split).mp (descends.furthest before _ after split) result mem none_
      List.mem_cons_self
  · intro condition
    refine ⟨?_, ?_, ?_⟩
    · have each : ∀ result ∈ results, (stages.map StageSpec.name).Pairwise (fun earlier later =>
          (reachedNames result.scored).count later ≤ (reachedNames result.scored).count earlier) :=
        fun result mem => (episodes result mem).falls distinct
      clear condition split_iff furthest success ran
      rw [List.pairwise_iff_forall_sublist]
      intro earlier later inside
      rw [reached, reached]
      apply List.sum_le_sum
      intro result mem
      exact List.pairwise_iff_forall_sublist.mp (each result mem) inside
    · intro before name after split
      apply (split_iff before name after split).mpr
      intro result mem none_ named
      have chain : stages.map StageSpec.name = before ++ name :: after := split
      apply condition _ result mem none_
      rw [chain]
      exact List.mem_append_right _ named
    · intro name _
      rw [success, reached]
      apply List.sum_le_sum
      intro result mem
      exact (episodes result mem).success_le name

/-- The table balances over every chain; with distinct names the counts of the chain fall and are
the sums of the last reached ones unless a stage is called `(none)` and some episode reached no stage. -/
theorem attribution_balanced_iff (some_ : results ≠ [])
    (scored : ∀ result ∈ results, ScoredOver registry plant stages result) :
    ∃ attribution, stageAttribution results = .ok (some attribution) ∧
      attribution.n = results.length ∧ attribution.successes = results.countP RolloutResult.success ∧
      attribution.stageOrder = stages.map StageSpec.name ∧
      ((Balanced attribution ∧ (attribution.stageOrder.Nodup → Descends attribution)) ↔
        ((stages.map StageSpec.name).Nodup → "(none)" ∈ stages.map StageSpec.name →
          ∀ result ∈ results, ∃ stage ∈ result.scored, stage.reached = true)) := by
  have episodes : ∀ result ∈ results, Episode stages result :=
    fun result member => episode_of_scoredOver (scored result member)
  rcases returns_countEpisodes (keyed_fresh (stages.map StageSpec.name))
    (fun result member => (episodes result member).chain) with ⟨last, ran⟩
  refine ⟨⟨results.length, results.countP RolloutResult.success, stages.map StageSpec.name, last⟩,
    ?_, rfl, rfl, rfl, ?_⟩
  · cases results with
    | nil => exact absurd rfl some_
    | cons result rest =>
        rcases (episodes result List.mem_cons_self).chain with ⟨entries, listed, named⟩
        have head : (result :: rest).head?.bind RolloutResult.stages = some entries := listed
        rw [stageAttribution, head]
        apply bind_eq_ok.mpr
        rw [named]
        exact ⟨last, ran, rfl⟩
  · have reaches : ∀ result : RolloutResult, reachedNames result.scored ≠ [] ↔
        ∃ stage ∈ result.scored, stage.reached = true := by
      intro result
      rw [reachedNames, ne_eq, List.map_eq_nil_iff, List.filter_eq_nil_iff]
      simp
    simp only [← reaches]
    constructor
    · rintro ⟨_, descends⟩ distinct
      exact (descends_iff distinct episodes ran).mp (descends distinct)
    · intro condition
      exact ⟨balanced_of_run ran, fun distinct => (descends_iff distinct episodes ran).mpr (condition distinct)⟩

end

section

local instance balanceSha : Sha256 := sha256

local instance balanceFloats : FloatText := exactDecimals

/-- The result of an episode of so many steps over these stages. -/
def probedResult (stages : List StageSpec) (steps : Int) : RolloutResult where
  success := false
  firedAt := none
  trace := []
  stages := ((governedSegment featureCatalog (probe (fun _ _ => Double.nearest 1) []) ⟨0, some stages⟩
    none 0 0 steps).toOption.bind Segment.stages)

theorem scoredOver_probedResult {stages : List StageSpec} {steps : Int}
    (returns : (governedSegment featureCatalog (probe (fun _ _ => Double.nearest 1) [])
      ⟨0, some stages⟩ none 0 0 steps).toBool = true) :
    ScoredOver featureCatalog (probe (fun _ _ => Double.nearest 1) []) stages
      (probedResult stages steps) := by
  rcases returns_of_toBool returns with ⟨segment, ran⟩
  refine ⟨⟨0, some stages⟩, none, 0, 0, steps, segment, rfl, ran, ?_⟩
  rw [probedResult, ran]
  rfl

/-- An episode of no step counts for the stage that is called `(none)`. -/
theorem unbalanced_none : ∃ attribution,
    stageAttribution [probedResult [⟨"(none)", [], 1⟩] 0] = .ok (some attribution) ∧
    ScoredOver featureCatalog (probe (fun _ _ => Double.nearest 1) []) [⟨"(none)", [], 1⟩]
      (probedResult [⟨"(none)", [], 1⟩] 0) ∧
    attribution.stageOrder.Nodup ∧ ¬ Descends attribution := by
  refine ⟨⟨1, 0, ["(none)"], ⟨[("(none)", ⟨0, 0⟩)], [("(none)", ⟨1, 0⟩)],
    [("(none)", 1), ("(terminal)", 0)]⟩⟩, rfl, scoredOver_probedResult (by decide +kernel),
    List.nodup_singleton _, ?_⟩
  intro descends
  exact absurd (descends.furthest [] "(none)" [] rfl) (by decide)

theorem attribution_balanced_gripStages : ∃ attribution,
    stageAttribution [probedResult gripStages 2] = .ok (some attribution) ∧
    attribution.n = 1 ∧ attribution.successes = 0 ∧
    attribution.stageOrder = gripStages.map StageSpec.name ∧
    ((Balanced attribution ∧ (attribution.stageOrder.Nodup → Descends attribution)) ↔
      ((gripStages.map StageSpec.name).Nodup → "(none)" ∈ gripStages.map StageSpec.name →
        ∀ result ∈ [probedResult gripStages 2], ∃ stage ∈ result.scored, stage.reached = true)) := by
  have scored : ∀ result ∈ [probedResult gripStages 2], ScoredOver featureCatalog
      (probe (fun _ _ => Double.nearest 1) []) gripStages result := by
    intro result member
    rw [List.mem_singleton.mp member]
    exact scoredOver_probedResult (by decide +kernel)
  exact attribution_balanced_iff (List.cons_ne_nil _ _) scored

end

end Rsi
end PhysicalHarness
