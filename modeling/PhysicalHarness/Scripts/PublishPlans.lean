import Mathlib.Data.List.Perm.Basic
import PhysicalHarness.Board.Episodes
import PhysicalHarness.Python.Arithmetic

namespace PhysicalHarness
namespace Scripts

open Python Board PhysicalHarness.Task Fallible

/-!
# Publishing plans

The evidence for plans is pooled over the sessions that the caller names.  A row of the
pool carries the graph, the facts and the objects of the first session that has its key,
and the counts of all of them.
-/

/-- A row of the pool.  The first session's row gives the graph, the facts, the objects and
the positions in its chain. -/
structure PooledPlan where
  key : PlanKey
  graph : Json
  facts : List Json
  objects : List Json
  seqs : List Nat
  seeds : List Json
  blocks : List Json
  n : Nat
  k : Nat
  /-- The sum of the lengths, as a float. -/
  L : Double
  sessions : List String
  publishedFrom : List (String × List Nat)

inductive MergeError where
  | unknownSession (name : String)
  | reading (error : PyError)
  | number (error : NumberError)
  deriving DecidableEq

/-- A row before the first session. -/
def PooledPlan.start (entry : PlanEntry) : PooledPlan where
  key := entry.key
  graph := entry.graph
  facts := entry.facts
  objects := entry.objects
  seqs := entry.seqs
  seeds := []
  blocks := []
  n := 0
  k := 0
  L := Double.nearest 0
  sessions := []
  publishedFrom := []

/-- One more session's row. -/
def PooledPlan.enter (name : String) (entry : PlanEntry) (length : Double) (plan : PooledPlan) :
    PooledPlan :=
  { plan with
    L := plan.L.add length
    n := plan.n + entry.n
    k := plan.k + entry.k
    seeds := plan.seeds ++ entry.seeds
    blocks := plan.blocks ++
      entry.blocks.filter (fun block => !plan.blocks.any (fun known => known.eq block))
    sessions := plan.sessions ++ [name]
    publishedFrom := plan.publishedFrom ++ [(name, entry.seqs)] }

def pool (name : String) (pooled : List PooledPlan) (row : PlanEntry × Double) :
    Except MergeError (List PooledPlan) := do
  let weight ← (Double.ofInt row.1.n).mapError .number
  match pooled.findIdx? (fun plan => plan.key.same row.1.key) with
  | some position => return pooled.modify position (PooledPlan.enter name row.1 (row.2.mul weight))
  | none => return pooled ++ [(PooledPlan.start row.1).enter name row.1 (row.2.mul weight)]

section

variable [Host]

def poolSession (sessions : String → Option (List Row)) (pooled : List PooledPlan) (name : String) :
    Except MergeError (List PooledPlan) :=
  match sessions name with
  | none => .error (.unknownSession name)
  | some rows => do
      let index ← (planIndex rows).mapError .reading
      index.foldlM (pool name) pooled

/-- `round(length, 4)`. -/
def round4 : Double → Double
  | ⟨.fin value, _⟩ =>
      if Rounding.toUnit (1 / 10 ^ 4) value = 0 ∧ value < 0 then Double.negZero
      else Double.nearest (Rounding.toUnit (1 / 10 ^ 4) value)
  | other => other

def PooledPlan.meanLength (plan : PooledPlan) : Except NumberError Double :=
  if plan.n = 0 then .ok (Double.nearest 0)
  else do
    let weight ← Double.ofInt plan.n
    let mean ← plan.L.div weight
    return round4 mean

/-- `merge`: the rows of the pool in the order of their keys, each with its mean length. -/
def merge (sessions : String → Option (List Row)) (names : List String) :
    Except MergeError (List (PooledPlan × Double)) := do
  let pooled ← names.foldlM (poolSession sessions) []
  (sortedBy (fun plan => plan.key.items) pooled).mapM (fun plan => do
    let mean ← plan.meanLength.mapError .number
    return (plan, mean))

end

/-! ## What is pooled -/

/-- The episodes of the sessions, each with the name it was found under. -/
def pooledEpisodes (sessions : String → Option (List Row)) (names : List String) :
    List (String × Episode) :=
  names.flatMap (fun name => (episodesOf ((sessions name).getD [])).map (fun episode => (name, episode)))

/-- The rows have keys of their own, with so many episodes and successes under each key. -/
structure Pooled (episodes successes : PlanKey → Nat) (plans : List PooledPlan) : Prop where
  plain : ∀ plan ∈ plans, plan.key.Plain
  apart : (plans.map PooledPlan.key).Nodup
  counted : ∀ plan ∈ plans, 0 < plan.n
  seeded : ∀ plan ∈ plans, plan.seeds.length = plan.n
  n : ∀ key, Tally.sumWhere (fun plan => plan.key.same key) PooledPlan.n plans = episodes key
  k : ∀ key, Tally.sumWhere (fun plan => plan.key.same key) PooledPlan.k plans = successes key

variable {successes episodes : PlanKey → Nat} {plans next : List PooledPlan}

theorem pool_eq_ok {name : String} {pooled : List PooledPlan} {row : PlanEntry × Double}
    (ran : pool name pooled row = .ok next) : ∃ length,
      (∃ position plan, pooled[position]? = some plan ∧ plan.key.same row.1.key = true ∧
        next = pooled.modify position (PooledPlan.enter name row.1 length)) ∨
      ((∀ plan ∈ pooled, plan.key.same row.1.key = false) ∧
        next = pooled ++ [(PooledPlan.start row.1).enter name row.1 length]) := by
  rw [pool] at ran
  rcases of_bind ran with ⟨weight, _, ran⟩
  refine ⟨row.2.mul weight, ?_⟩
  split at ran
  · rename_i position found
    rcases List.findIdx?_eq_some_iff_getElem.mp found with ⟨bound, same, _⟩
    exact .inl ⟨position, _, List.getElem?_eq_getElem bound, same, (Except.ok.inj ran).symm⟩
  · rename_i absent
    exact .inr ⟨List.findIdx?_eq_none_iff.mp absent, (Except.ok.inj ran).symm⟩

theorem pooled_step {name : String} {row : PlanEntry × Double} (plain : row.1.key.Plain)
    (counted : 0 < row.1.n) (seeded : row.1.seeds.length = row.1.n)
    (before : Pooled episodes successes plans) (ran : pool name plans row = .ok next) :
    Pooled (fun key => episodes key + if row.1.key.same key then row.1.n else 0)
      (fun key => successes key + if row.1.key.same key then row.1.k else 0) next := by
  rcases pool_eq_ok ran with ⟨length, ⟨position, plan, here, same, rfl⟩ | ⟨fresh, rfl⟩⟩
  · have equal := (PlanKey.same_iff (before.plain plan (List.mem_of_getElem? here)) plain).mp same
    refine ⟨forall_modify before.plain position (fun _ holds => holds),
      nodup_modify before.apart position (fun _ => rfl),
      forall_modify before.counted position (fun plan holds => Nat.add_pos_left holds _),
      forall_modify before.seeded position ?_, ?_, ?_⟩
    · intro plan holds
      change (plan.seeds ++ row.1.seeds).length = plan.n + row.1.n
      rw [List.length_append, holds, seeded]
    · intro key
      rw [Tally.sumWhere_modify here rfl (show _ = _ + row.1.n from rfl), before.n, equal]
    · intro key
      rw [Tally.sumWhere_modify here rfl (show _ = _ + row.1.k from rfl), before.k, equal]
  · have last : ∀ {holds : PooledPlan → Prop}, (∀ plan ∈ plans, holds plan) →
        holds ((PooledPlan.start row.1).enter name row.1 length) →
        ∀ plan ∈ plans ++ [(PooledPlan.start row.1).enter name row.1 length], holds plan := by
      intro holds old new plan mem
      rcases List.mem_append.mp mem with listed | added
      · exact old plan listed
      · rw [List.mem_singleton.mp added]
        exact new
    refine ⟨last before.plain plain, ?_, last before.counted (Nat.add_pos_right 0 counted),
      last before.seeded ?_, ?_, ?_⟩
    · rw [List.map_append, List.nodup_append]
      refine ⟨before.apart, List.nodup_singleton _, ?_⟩
      intro known mem other new equal
      rw [List.mem_singleton.mp new] at equal
      rcases List.mem_map.mp mem with ⟨plan, listed, rfl⟩
      have same := (PlanKey.same_iff (before.plain plan listed) plain).mpr equal
      rw [fresh plan listed] at same
      cases same
    · change row.1.seeds.length = 0 + row.1.n
      rw [seeded, Nat.zero_add]
    · intro key
      rw [Tally.sumWhere_append, before.n, Tally.sumWhere_cons]
      change _ + ((if row.1.key.same key then 0 + row.1.n else 0) + 0) = _
      rw [Nat.zero_add, Nat.add_zero]
    · intro key
      rw [Tally.sumWhere_append, before.k, Tally.sumWhere_cons]
      change _ + ((if row.1.key.same key then 0 + row.1.k else 0) + 0) = _
      rw [Nat.zero_add, Nat.add_zero]

theorem pooled_fold {name : String} {index : List (PlanEntry × Double)}
    (plain : ∀ row ∈ index, row.1.key.Plain) (counted : ∀ row ∈ index, 0 < row.1.n)
    (seeded : ∀ row ∈ index, row.1.seeds.length = row.1.n)
    (before : Pooled episodes successes plans) (ran : index.foldlM (pool name) plans = .ok next) :
    Pooled (fun key => episodes key + countedN key (index.map Prod.fst))
      (fun key => successes key + countedK key (index.map Prod.fst)) next := by
  induction index generalizing plans episodes successes with
  | nil =>
      cases ran
      exact before
  | cons row rest ih =>
      rw [List.foldlM_cons] at ran
      rcases of_bind ran with ⟨middle, here, later⟩
      have step := pooled_step (plain row (.head _)) (counted row (.head _))
        (seeded row (.head _)) before here
      have whole := ih (fun other mem => plain other (.tail _ mem))
        (fun other mem => counted other (.tail _ mem))
        (fun other mem => seeded other (.tail _ mem)) step later
      refine ⟨whole.plain, whole.apart, whole.counted, whole.seeded, ?_, ?_⟩
      · intro key
        rw [whole.n, List.map_cons, countedN, countedN, Tally.sumWhere_cons, Nat.add_assoc]
      · intro key
        rw [whole.k, List.map_cons, countedK, countedK, Tally.sumWhere_cons, Nat.add_assoc]

/-- The episodes with this key, among those of the sessions. -/
def episodesUnder (sessions : String → Option (List Row)) (names : List String) (key : PlanKey) : Nat :=
  (pooledEpisodes sessions names).countP (fun episode => episode.2.key.same key)

/-- Those of them that were closed with success. -/
def successesUnder (sessions : String → Option (List Row)) (names : List String) (key : PlanKey) : Nat :=
  (pooledEpisodes sessions names).countP (fun episode => episode.2.key.same key && episode.2.succeeded)

theorem countP_pooledEpisodes (sessions : String → Option (List Row)) (name : String)
    (rest : List String) (keep : Episode → Bool) :
    (pooledEpisodes sessions (name :: rest)).countP (fun episode => keep episode.2) =
      (episodesOf ((sessions name).getD [])).countP keep +
        (pooledEpisodes sessions rest).countP (fun episode => keep episode.2) := by
  rw [pooledEpisodes, List.flatMap_cons, List.countP_append, List.countP_map]
  rfl

theorem nothing_pooled : Pooled (fun _ => 0) (fun _ => 0) [] :=
  ⟨List.forall_mem_nil _, List.nodup_nil,
    List.forall_mem_nil _,
    List.forall_mem_nil _, fun _ => rfl, fun _ => rfl⟩

theorem Pooled.row (pooled : Pooled episodes successes plans) {plan : PooledPlan}
    (listed : plan ∈ plans) :
    plan.n = episodes plan.key ∧ plan.k = successes plan.key := by
  have itself : plan.key.same plan.key = true :=
    (PlanKey.same_iff (pooled.plain plan listed) (pooled.plain plan listed)).mpr rfl
  have alone : plans.Pairwise (fun left right =>
      ¬ (left.key.same plan.key = true ∧ right.key.same plan.key = true)) := by
    refine (List.pairwise_map.mp pooled.apart).imp_of_mem ?_
    intro left right first second other both
    apply other
    rw [(PlanKey.same_iff (pooled.plain left first) (pooled.plain plan listed)).mp both.1,
      (PlanKey.same_iff (pooled.plain right second) (pooled.plain plan listed)).mp both.2]
  rw [← pooled.n plan.key, ← pooled.k plan.key]
  exact ⟨(Tally.sumWhere_eq listed itself alone).symm, (Tally.sumWhere_eq listed itself alone).symm⟩

theorem Pooled.exists_row (pooled : Pooled episodes successes plans) {key : PlanKey}
    (plain : key.Plain) (some_ : 0 < episodes key) : ∃ plan ∈ plans, plan.key = key := by
  rw [← pooled.n key, Tally.sumWhere] at some_
  cases kept : plans.filter (fun plan => plan.key.same key) with
  | nil =>
      rw [kept] at some_
      exact absurd some_ (lt_irrefl 0)
  | cons plan rest =>
      have listed : plan ∈ plans.filter (fun plan => plan.key.same key) := by
        rw [kept]
        exact .head _
      rw [List.mem_filter] at listed
      exact ⟨plan, listed.1, (PlanKey.same_iff (pooled.plain plan listed.1) plain).mp listed.2⟩

/-- What a reader of the evidence counts by. -/
def PooledPlan.evidence (plan : PooledPlan) : PlanKey × Nat × Nat := (plan.key, plan.n, plan.k)

theorem Pooled.perm {others : List PooledPlan} (pooled : Pooled episodes successes plans)
    (pooled_ : Pooled episodes successes others) :
    (plans.map PooledPlan.evidence).Perm (others.map PooledPlan.evidence) := by
  have apart : ∀ {plans : List PooledPlan}, Pooled episodes successes plans →
      (plans.map PooledPlan.evidence).Nodup := by
    intro plans pooled
    apply List.Nodup.of_map Prod.fst
    rw [List.map_map]
    exact pooled.apart
  have within : ∀ {plans others : List PooledPlan}, Pooled episodes successes plans →
      Pooled episodes successes others → ∀ evidence ∈ plans.map PooledPlan.evidence,
        evidence ∈ others.map PooledPlan.evidence := by
    intro plans others pooled pooled_ evidence mem
    rcases List.mem_map.mp mem with ⟨plan, listed, rfl⟩
    have counts := pooled.row listed
    have some_ : 0 < episodes plan.key := counts.1 ▸ pooled.counted plan listed
    rcases pooled_.exists_row (pooled.plain plan listed) some_ with ⟨other, member_, same⟩
    have counts_ := pooled_.row member_
    refine List.mem_map.mpr ⟨other, member_, ?_⟩
    rw [PooledPlan.evidence, PooledPlan.evidence, counts.1, counts.2, counts_.1, counts_.2, same]
  rw [List.perm_ext_iff_of_nodup (apart pooled) (apart pooled_)]
  exact fun evidence => ⟨within pooled pooled_ evidence, within pooled_ pooled evidence⟩

/-! ## A merge -/

section

variable [Host]

/-- The chains that the names stand for were written by runs. -/
def SealedChains (sessions : String → Option (List Row)) : Prop :=
  ∀ name rows, sessions name = some rows → ∀ row ∈ rows, Sealed row.content

variable {sessions : String → Option (List Row)} {names : List String}

theorem pooled_sessions (sealed_ : SealedChains sessions) {episodes successes : PlanKey → Nat}
    {plans next : List PooledPlan} (before : Pooled episodes successes plans)
    (ran : names.foldlM (poolSession sessions) plans = .ok next) :
    Pooled (fun key => episodes key + episodesUnder sessions names key)
      (fun key => successes key + successesUnder sessions names key) next := by
  induction names generalizing plans episodes successes with
  | nil =>
      cases ran
      exact before
  | cons name rest ih =>
      rw [List.foldlM_cons] at ran
      rcases of_bind ran with ⟨middle, here, later⟩
      rw [poolSession] at here
      cases known : sessions name with
      | none =>
          rw [known] at here
          cases here
      | some rows =>
          rw [known] at here
          rcases of_bind here with ⟨index, read, here⟩
          have counts := planIndex_counts (sealed_ name rows known) (mapError_eq_ok.mp read)
          have kept := (counts ⟨.null, .null, .null, .null⟩).1
          have step := pooled_fold (fun row mem => kept.plain row.1 (List.mem_map_of_mem mem))
            (fun row mem => kept.counted row.1 (List.mem_map_of_mem mem))
            (fun row mem => kept.seeded row.1 (List.mem_map_of_mem mem)) before here
          have whole := ih step later
          refine ⟨whole.plain, whole.apart, whole.counted, whole.seeded, ?_, ?_⟩
          · intro key
            have here : episodesUnder sessions (name :: rest) key =
                (episodesOf rows).countP (fun episode => episode.key.same key) +
                  episodesUnder sessions rest key := by
              rw [episodesUnder, countP_pooledEpisodes _ _ _ (fun episode => episode.key.same key), known]
              rfl
            rw [whole.n, (counts key).2.1, here, Nat.add_assoc]
          · intro key
            have here : successesUnder sessions (name :: rest) key =
                (episodesOf rows).countP (fun episode => episode.key.same key && episode.succeeded) +
                  successesUnder sessions rest key := by
              rw [successesUnder, countP_pooledEpisodes _ _ _
                (fun episode => episode.key.same key && episode.succeeded), known]
              rfl
            rw [whole.k, (counts key).2.2, here, Nat.add_assoc]

omit [Host] in
theorem returns_pool_iff (name : String) (pooled : List PooledPlan) (row : PlanEntry × Double) :
    Returns (pool name pooled row) ↔ Returns (Double.ofInt row.1.n) := by
  rw [pool, returns_bind]
  constructor
  · intro ran
    rcases ran with ⟨weight, weighed, _⟩
    exact ⟨weight, mapError_eq_ok.mp weighed⟩
  · intro ran
    rcases ran with ⟨weight, weighed⟩
    refine ⟨weight, mapError_eq_ok.mpr weighed, ?_⟩
    split <;> exact ⟨_, rfl⟩

/-- The session is known, its chain can be read, and its counts fit a float. -/
def Poolable (sessions : String → Option (List Row)) (name : String) : Prop :=
  ∃ rows index, sessions name = some rows ∧ planIndex rows = .ok index ∧
    ∀ row ∈ index, Returns (Double.ofInt row.1.n)

theorem returns_poolSession_iff (sessions : String → Option (List Row)) (pooled : List PooledPlan)
    (name : String) : Returns (poolSession sessions pooled name) ↔ Poolable sessions name := by
  rw [poolSession, Poolable]
  cases known : sessions name with
  | none =>
      constructor
      · intro never
        exact absurd never (not_returns_error _)
      · intro never
        rcases never with ⟨rows, _, same, _⟩
        cases same
  | some rows =>
      change Returns ((planIndex rows).mapError MergeError.reading >>= fun index =>
        index.foldlM (pool name) pooled) ↔ _
      rw [returns_bind]
      constructor
      · intro ran
        rcases ran with ⟨index, read, ran⟩
        exact ⟨rows, index, rfl, mapError_eq_ok.mp read,
          (returns_foldlM_iff (returns_pool_iff name) index pooled).mp ran⟩
      · intro ran
        rcases ran with ⟨rows_, index, same, read, ran⟩
        cases same
        exact ⟨index, mapError_eq_ok.mpr read,
          (returns_foldlM_iff (returns_pool_iff name) index pooled).mpr ran⟩

omit [Host] in
theorem returns_meanLength {plan : PooledPlan} (counted : 0 < plan.n) :
    Returns plan.meanLength ↔ Returns (Double.ofInt plan.n) := by
  rw [PooledPlan.meanLength, if_neg (Nat.pos_iff_ne_zero.mp counted), returns_bind]
  constructor
  · intro ran
    rcases ran with ⟨weight, weighed, _⟩
    exact ⟨weight, weighed⟩
  · intro ran
    rcases ran with ⟨weight, weighed⟩
    refine ⟨weight, weighed, ?_⟩
    have one : Rounding.Short 52 (-1074) 1 := by decide +kernel
    have positive : (1 : ℚ) ≤ Rounding.binary 52 (-1074) ((plan.n : Int) : ℚ) := by
      apply Rounding.le_binary one
      exact_mod_cast counted
    have value : weight.value = .fin (Rounding.binary 52 (-1074) ((plan.n : Int) : ℚ)) := by
      rw [Double.ofInt] at weighed
      split at weighed
      · cases weighed
      · rw [← Except.ok.inj weighed]
        rfl
    have divides : Returns (plan.L.div weight) := by
      rw [Double.div, value]
      split
      · rename_i zero
        have same : Rounding.binary 52 (-1074) ((plan.n : Int) : ℚ) = 0 := Option.some.inj zero
        rw [same] at positive
        exact absurd positive (by norm_num)
      all_goals exact ⟨_, rfl⟩
    rcases divides with ⟨mean, divided⟩
    exact ⟨round4 mean, by rw [divided]; rfl⟩

theorem merge_eq_ok {rows : List (PooledPlan × Double)} (merged : merge sessions names = .ok rows) :
    ∃ pooled, names.foldlM (poolSession sessions) [] = .ok pooled ∧ (rows.map Prod.fst).Perm pooled ∧
      ∀ plan ∈ pooled, Returns plan.meanLength := by
  rw [merge] at merged
  rcases of_bind merged with ⟨pooled, ran, finished⟩
  have order := List.perm_insertionSort (fun left right : PooledPlan =>
    left.key.items.map pyStr ≤ right.key.items.map pyStr) pooled
  refine ⟨pooled, ran, ?_, ?_⟩
  · have plans : rows.map Prod.fst = sortedBy (fun plan => plan.key.items) pooled := by
      rw [← List.map_id (sortedBy (fun plan => plan.key.items) pooled)]
      refine map_eq_of_mapM finished (fun plan row here => ?_)
      rcases of_bind here with ⟨mean, _, same⟩
      rw [← Except.ok.inj same]
      rfl
    rw [plans]
    exact order
  · intro plan listed
    have returns := returns_mapM_iff.mp ⟨rows, finished⟩ plan (order.mem_iff.mpr listed)
    rcases returns_bind.mp returns with ⟨mean, here, _⟩
    exact ⟨mean, mapError_eq_ok.mp here⟩

theorem merge_of_pool {pooled : List PooledPlan}
    (ran : names.foldlM (poolSession sessions) [] = .ok pooled)
    (returns : ∀ plan ∈ pooled, Returns plan.meanLength) : Returns (merge sessions names) := by
  rw [merge, returns_bind]
  refine ⟨pooled, ran, returns_mapM_iff.mpr (fun plan listed => ?_)⟩
  rcases returns plan (mem_sortedBy.mp listed) with ⟨mean, here⟩
  exact ⟨(plan, mean), by rw [here]; rfl⟩

theorem pooled_merge (sealed_ : SealedChains sessions) {pooled : List PooledPlan}
    (ran : names.foldlM (poolSession sessions) [] = .ok pooled) :
    Pooled (episodesUnder sessions names) (successesUnder sessions names) pooled := by
  have whole := pooled_sessions sealed_ nothing_pooled ran
  simp only [Nat.zero_add] at whole
  exact whole

omit [Host] in
theorem episodesUnder_perm {others : List String} (perm : others.Perm names) :
    episodesUnder sessions others = episodesUnder sessions names ∧
      successesUnder sessions others = successesUnder sessions names := by
  have episodes : (pooledEpisodes sessions others).Perm (pooledEpisodes sessions names) :=
    perm.flatMap_right _
  exact ⟨funext (fun _ => episodes.countP_eq _), funext (fun _ => episodes.countP_eq _)⟩

omit [Host] in
theorem nodup_pooledEpisodes (once : names.Nodup)
    (numbered : ∀ name rows, sessions name = some rows → (rows.map Row.seq).Nodup) :
    ((pooledEpisodes sessions names).map (fun episode => (episode.1, episode.2.seq))).Nodup := by
  have view : ∀ name, ((episodesOf ((sessions name).getD [])).map (fun episode => (name, episode))).map
      (fun episode => (episode.1, episode.2.seq)) =
      ((episodesOf ((sessions name).getD [])).map Episode.seq).map (fun seq => (name, seq)) := by
    intro name
    rw [List.map_map, List.map_map]
    rfl
  rw [pooledEpisodes, List.map_flatMap, List.nodup_flatMap]
  constructor
  · intro name _
    rw [view]
    apply List.Nodup.map (fun first second same => (Prod.mk.inj same).2)
    cases known : sessions name with
    | none => exact List.nodup_nil
    | some rows => exact (numbered name rows known).sublist (seqs_sublist rows)
  · refine once.imp ?_
    intro name other apart episode first second
    beta_reduce at first second
    rw [view] at first second
    rcases List.mem_map.mp first with ⟨_, _, rfl⟩
    rcases List.mem_map.mp second with ⟨_, _, same⟩
    exact apart (Prod.mk.inj same).1.symm

theorem plain_of_pooled (sealed_ : SealedChains sessions) {episode : String × Episode}
    (listed : episode ∈ pooledEpisodes sessions names) :
    episode.2.key.Plain := by
  rcases List.mem_flatMap.mp listed with ⟨name, _, mem⟩
  rcases List.mem_map.mp mem with ⟨found, here, rfl⟩
  cases known : sessions name with
  | none =>
      rw [known] at here
      cases here
  | some rows =>
      rw [known] at here
      rcases exists_row_of_episode here with ⟨row, mem, opened⟩
      exact plain_of_sealed (sealed_ name rows known row mem) opened

/-- The rows of a merge have keys of their own, and each counts every episode of the named
sessions under its key as often as its session is named: once, where no name comes twice.
The order of the names makes no difference to the keys and the counts. -/
theorem merge_counts {sessions : String → Option (List Row)} (sealed_ : SealedChains sessions)
    {names : List String} {rows : List (PooledPlan × Double)} (merged : merge sessions names = .ok rows) :
    (rows.map (fun row => row.1.key)).Nodup ∧
    (∀ row ∈ rows, row.1.n = episodesUnder sessions names row.1.key ∧
      row.1.k = successesUnder sessions names row.1.key ∧ 0 ≤ row.1.k ∧ row.1.k ≤ row.1.n ∧
      row.1.seeds.length = row.1.n) ∧
    (∀ episode ∈ pooledEpisodes sessions names, ∃ row ∈ rows, row.1.key = episode.2.key) ∧
    (names.Nodup → (∀ name chain, sessions name = some chain → (chain.map Row.seq).Nodup) →
      ((pooledEpisodes sessions names).map (fun episode => (episode.1, episode.2.seq))).Nodup) ∧
    ∀ others, others.Perm names → ∃ rows_, merge sessions others = .ok rows_ ∧
      (rows_.map (fun row => row.1.evidence)).Perm (rows.map (fun row => row.1.evidence)) := by
  rcases merge_eq_ok merged with ⟨plans, ran, order, returns⟩
  have pooled := pooled_merge sealed_ ran
  have listed : ∀ row ∈ rows, row.1 ∈ plans :=
    fun row member => order.mem_iff.mp (List.mem_map_of_mem member)
  have view : ∀ (rows : List (PooledPlan × Double)), rows.map (fun row => row.1.evidence) =
      (rows.map Prod.fst).map PooledPlan.evidence := by
    intro rows
    rw [List.map_map]
    rfl
  refine ⟨?_, ?_, ?_, nodup_pooledEpisodes, ?_⟩
  · have keys : rows.map (fun row => row.1.key) = (rows.map Prod.fst).map PooledPlan.key := by
      rw [List.map_map]
      rfl
    rw [keys, (order.map PooledPlan.key).nodup_iff]
    exact pooled.apart
  · intro row member
    have counts := pooled.row (listed row member)
    refine ⟨counts.1, counts.2, Nat.zero_le _, ?_, pooled.seeded row.1 (listed row member)⟩
    rw [counts.1, counts.2]
    apply List.countP_mono_left
    intro episode _ both
    rw [Bool.and_eq_true] at both
    exact both.1
  · intro episode member
    have plain := plain_of_pooled sealed_ member
    have some_ : 0 < episodesUnder sessions names episode.2.key :=
      List.countP_pos_iff.mpr ⟨episode, member, (PlanKey.same_iff plain plain).mpr rfl⟩
    rcases pooled.exists_row plain some_ with ⟨plan, here, same⟩
    rcases List.mem_map.mp (order.mem_iff.mpr here) with ⟨row, found, rfl⟩
    exact ⟨row, found, same⟩
  · intro others perm
    -- Each session can be pooled on its own, so the pool of any order can be built.
    have poolable := (returns_foldlM_iff (returns_poolSession_iff sessions) names []).mp ⟨plans, ran⟩
    rcases (returns_foldlM_iff (returns_poolSession_iff sessions) others []).mpr
      (fun name member => poolable name (perm.mem_iff.mp member)) with ⟨plans_, ran_⟩
    have pooled_ := pooled_merge sealed_ ran_
    rw [(episodesUnder_perm perm).1, (episodesUnder_perm perm).2] at pooled_
    have same := pooled_.perm pooled
    have means : ∀ plan ∈ plans_, Returns plan.meanLength := by
      intro plan member
      rcases List.mem_map.mp (same.mem_iff.mp (List.mem_map_of_mem member)) with ⟨other, there, equal⟩
      have counts : other.n = plan.n := congrArg (fun evidence => evidence.2.1) equal
      rw [returns_meanLength (pooled_.counted plan member), ← counts,
        ← returns_meanLength (pooled.counted other there)]
      exact returns other there
    rcases merge_of_pool ran_ means with ⟨rows_, merged_⟩
    rcases merge_eq_ok merged_ with ⟨_, again, order_, _⟩
    rw [ran_] at again
    cases again
    refine ⟨rows_, merged_, ?_⟩
    rw [view, view]
    exact ((order_.map _).trans same).trans (order.map _).symm

end

section

local instance publishHost : Host := asciiHost

/-- A proposal with one node. -/
def pickPlan : Json := .obj [("goal", .str "pick"), ("nodes", .arr [.obj [("id", .str "n1"),
  ("skill", .str "pick"), ("args", .obj []), ("after", .arr []), ("verify", .arr [.str "held"])]])]

def pickNote : PlanNote := { refusedNote with plan := pickPlan, legal := true, msg := "ok" }

def pickDone : CompleteNote := ⟨true, .str "pick", 0, 1⟩

def pickChain : List Row :=
  [⟨3, "session.boot", .obj []⟩, ⟨4, pickNote.content.1, pickNote.content.2⟩,
    ⟨5, pickDone.content.1, pickDone.content.2⟩]

def pickSessions (name : String) : Option (List Row) := if name = "a" then some pickChain else none

theorem sealed_pickSessions : SealedChains pickSessions := by
  intro name rows known row mem
  rw [pickSessions] at known
  split at known
  · cases known
    rcases List.mem_cons.mp mem with rfl | mem
    · exact .other (by decide)
    · rcases List.mem_cons.mp mem with rfl | mem
      · exact .plan pickNote
      · rw [List.mem_singleton.mp mem]
        exact .complete pickDone
  · cases known

/-- The counts of the rows. -/
def countsOf (merged : Except MergeError (List (PooledPlan × Double))) : Option (List (Nat × Nat)) :=
  match merged with
  | .ok rows => some (rows.map (fun row => (row.1.n, row.1.k)))
  | .error _ => none

theorem merge_counts_pick : ∃ rows, merge pickSessions ["a"] = .ok rows ∧
    (rows.map (fun row => row.1.key)).Nodup ∧
    (∀ row ∈ rows, row.1.n = episodesUnder pickSessions ["a"] row.1.key ∧
      row.1.k = successesUnder pickSessions ["a"] row.1.key ∧ 0 ≤ row.1.k ∧ row.1.k ≤ row.1.n ∧
      row.1.seeds.length = row.1.n) ∧
    (∀ episode ∈ pooledEpisodes pickSessions ["a"], ∃ row ∈ rows, row.1.key = episode.2.key) ∧
    (["a"].Nodup → (∀ name chain, pickSessions name = some chain → (chain.map Row.seq).Nodup) →
      ((pooledEpisodes pickSessions ["a"]).map (fun episode => (episode.1, episode.2.seq))).Nodup) ∧
    ∀ others, others.Perm ["a"] → ∃ rows_, merge pickSessions others = .ok rows_ ∧
      (rows_.map (fun row => row.1.evidence)).Perm (rows.map (fun row => row.1.evidence)) := by
  have counts : countsOf (merge pickSessions ["a"]) = some [(1, 1)] := by decide +kernel
  cases merged : merge pickSessions ["a"] with
  | error error =>
      rw [merged] at counts
      cases counts
  | ok rows => exact ⟨rows, rfl, merge_counts sealed_pickSessions merged⟩

/-- A name that comes twice: two episodes are counted, and there is one. -/
theorem named_twice_counts_twice : SealedChains pickSessions ∧
    countsOf (merge pickSessions ["a", "a"]) = some [(2, 2)] ∧
    ((pooledEpisodes pickSessions ["a", "a"]).map (fun episode => (episode.1, episode.2.seq))).dedup =
      [("a", 4)] :=
  ⟨sealed_pickSessions, by decide +kernel, by decide +kernel⟩

end

end Scripts
end PhysicalHarness
