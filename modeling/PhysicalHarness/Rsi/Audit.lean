import PhysicalHarness.Harness.EpisodeLog
import PhysicalHarness.Rsi.Firing
import PhysicalHarness.Rsi.Rebuild

namespace PhysicalHarness
namespace Rsi

open Python Harness JsonText Fallible Governor

/-!
# The offline audit

The chain of a run is computed from the views as they are shown.  The audit computes
it again from the columns of the stored block.  The two agree where the block has as
many steps as the run; a block that holds no column has none.
-/

/-! ## Rebuilding the views -/

section

variable [Host]

/-- `f"s{seed}"`. -/
def seedLabel : Json → String
  | .int seed => String.ofList ('s' :: intText seed)
  | other => "s" ++ pyStr other

/-- The length of `range(n)`. -/
def rangeLength : Json → Except PyError Nat
  | .int n => .ok n.toNat
  | .bool flag => .ok (if flag then 1 else 0)
  | _ => .error .typeError

/-- `column[i]`. -/
def elementAt (i : Nat) : Json → Except PyError Json
  | .arr items =>
      match items[i]? with
      | some value => .ok value
      | none => .error .indexError
  | .str text =>
      match text.toList[i]? with
      | some char => .ok (.str (String.ofList [char]))
      | none => .error .indexError
  | .obj _ => .error .keyError
  | _ => .error .typeError

/-- `name: float(cols[name][i])`; the names of a block are texts. -/
def cell (columns : Json) (i : Nat) (name : Json) : Except PyError (String × Double) :=
  name.text.bind (fun name =>
    (columns.item name).bind (fun column =>
      (elementAt i column).bind (fun value =>
        (pyFloat value).map (fun value => (name, value)))))

def rebuildView (names columns : Json) (episode : String) (i : Nat) : Except PyError FeatureView :=
  names.iter.bind (fun names =>
    (names.mapM (cell columns i)).map (fun values =>
      project (values.foldl (fun view pair => Assoc.set view pair.1 pair.2) []) i episode))

def rebuildViews (block seed : Json) : Except PyError (List FeatureView) :=
  (block.item "names").bind (fun names =>
    (block.item "n").bind (fun n =>
      (block.item "columns").bind (fun columns =>
        (rangeLength n).bind (fun count =>
          (List.range count).mapM (rebuildView names columns (seedLabel seed))))))

inductive AuditError where
  | unreadable (fault : BlockFault)
  | chainMismatch (derived : String)
  deriving DecidableEq

variable [Sha256] [FloatText]

def chainOver (chain : String) (views : List FeatureView) : String :=
  views.foldl (fun chain view => chainStep chain view.digest []) chain

/-- `audit_episode`; an error that is found is returned, not raised. -/
def auditEpisode (log : EpisodeLog) (episode : EpisodeRecord) : Except PyError (Option AuditError) :=
  match episode.block with
  | some (.str digest) =>
      match log.getBlock digest with
      | .error fault => .ok (some (.unreadable fault))
      | .ok block =>
          (rebuildViews block episode.seed).bind (fun views =>
            let derived := chainOver (chainStart episodeSeed) views
            match episode.chain with
            | none => .error .keyError
            | some chain =>
                if (Json.str derived).eq chain then .ok none
                else .ok (some (.chainMismatch derived)))
  | some _ => .error .typeError
  | none => .error .keyError

structure AuditResult where
  episodes : Nat
  verified : Nat
  broken : List AuditError
  deriving DecidableEq

/-- `audit_log`. -/
def auditLog (log : EpisodeLog) : Except PyError AuditResult :=
  log.episodes.bind (fun records =>
    let complete := records.filter (fun episode => episode.chain.isSome && episode.block.isSome)
    (complete.mapM (auditEpisode log)).map (fun found =>
      let broken := found.filterMap id
      ⟨complete.length, complete.length - broken.length, broken⟩))

end

variable {values : List (String × Double)}

theorem keys_record (unique : (Assoc.keys values).Nodup) {history : List (String × List Double)}
    (fresh : ∀ name ∈ Assoc.keys values, name ∉ Assoc.keys history) :
    Assoc.keys (record history values) = Assoc.keys history ++ Assoc.keys values := by
  induction values generalizing history with
  | nil => exact (List.append_nil _).symm
  | cons pair rest ih =>
      rw [Assoc.keys_cons, List.nodup_cons] at unique
      have new := Assoc.keys_set_of_not_mem (fresh pair.1 (.head _))
        ((Assoc.get? history pair.1).getD [] ++ [pair.2])
      have later := @ih unique.2 (Assoc.set history pair.1
        ((Assoc.get? history pair.1).getD [] ++ [pair.2])) (by
          intro name mem listed
          rw [new, List.mem_append, List.mem_singleton] at listed
          rcases listed with before | rfl
          · exact fresh name (.tail _ mem) before
          · exact unique.1 mem)
      rw [new, List.append_assoc] at later
      exact later

theorem keys_record_of_mem {history : List (String × List Double)}
    (known : ∀ name ∈ Assoc.keys values, name ∈ Assoc.keys history) :
    Assoc.keys (record history values) = Assoc.keys history := by
  induction values generalizing history with
  | nil => rfl
  | cons pair rest ih =>
      have same := Assoc.keys_set_of_mem (known pair.1 (.head _))
        ((Assoc.get? history pair.1).getD [] ++ [pair.2])
      have later := @ih (Assoc.set history pair.1
        ((Assoc.get? history pair.1).getD [] ++ [pair.2])) (by
          intro name mem
          rw [same]
          exact known name (.tail _ mem))
      exact later.trans same

section

variable [Sha256] [FloatText] {registry : Registry} {bundle : Option Bundle} {critic last : Critic}
  {names : List String} {episode : String} {k : Nat} {views : List (FeatureView × Nat)}

theorem chain_of_follow (followed : critic.follow registry bundle views = .ok last) :
    last.chain = chainOver critic.chain (views.map Prod.fst) := by
  induction views generalizing critic with
  | nil =>
      cases followed
      rfl
  | cons first rest ih =>
      rcases of_bind followed with ⟨next, passed, later⟩
      rw [ih later, (Critic.log_of_attend passed).2.1]
      rfl

theorem keys_history_of_follow (shown : Shown names episode k views)
    (followed : critic.follow registry bundle views = .ok last) (unique : names.Nodup)
    (start : critic.history = []) (some_ : views ≠ []) : Assoc.keys last.history = names := by
  have kept : ∀ {views : List (FeatureView × Nat)} {critic : Critic} {k : Nat},
      Shown names episode k views → critic.follow registry bundle views = .ok last →
      Assoc.keys critic.history = names → Assoc.keys last.history = names := by
    intro views critic k shown followed known
    induction views generalizing critic k with
    | nil =>
        cases followed
        exact known
    | cons first rest ih =>
        rcases of_bind followed with ⟨next, passed, later⟩
        rcases shown with ⟨⟨values, view, keys⟩, shown⟩
        apply ih shown later
        rw [(Critic.log_of_attend passed).1, view]
        refine (keys_record_of_mem ?_).trans known
        intro name mem
        rw [known]
        exact keys ▸ mem
  cases views with
  | nil => exact absurd rfl some_
  | cons first rest =>
      rcases of_bind followed with ⟨next, passed, later⟩
      rcases shown with ⟨⟨values, view, keys⟩, shown⟩
      apply kept shown later
      rw [(Critic.log_of_attend passed).1, start, view]
      refine (keys_record (keys ▸ unique) (fun _ _ never => absurd never List.not_mem_nil)).trans ?_
      exact keys

omit [Sha256] [FloatText] in
theorem view_of_shown (shown : Shown names episode k views) {i : Nat} {view : FeatureView × Nat}
    (here : views[i]? = some view) :
    ∃ values, view.1 = project values (k + i) episode ∧ Assoc.keys values = names := by
  induction views generalizing k i with
  | nil => cases here
  | cons first rest ih =>
      cases i with
      | zero =>
          cases here
          exact shown.1
      | succ i =>
          rw [show k + (i + 1) = k + 1 + i by omega]
          exact ih shown.2 here

end

theorem values_eq (unique : (Assoc.keys values).Nodup) :
    values = (Assoc.keys values).map (fun name => (name, (Assoc.get? values name).getD Double.nan)) := by
  rw [Assoc.keys, List.map_map]
  symm
  refine (List.map_congr_left ?_).trans (List.map_id _)
  intro pair mem
  have found : Assoc.get? values pair.1 = some pair.2 := Assoc.get?_of_mem unique mem
  change (pair.1, (Assoc.get? values pair.1).getD Double.nan) = pair
  rw [found]
  rfl

theorem get?_columnsOf {trace : List (String × List Double)} (unique : (Assoc.keys trace).Nodup)
    {name : String} (listed : name ∈ sorted (Assoc.keys trace)) :
    Assoc.get? (columnsOf trace) name =
      some (.arr ((column trace name).map (fun value => .float value.round9.value))) := by
  have keys : (Assoc.keys (columnsOf trace)).Nodup := by
    rw [keys_columnsOf]
    exact (pairwise_sorted unique).imp (fun less => ne_of_lt less)
  exact Assoc.get?_of_mem keys (List.mem_map.mpr ⟨name, listed, rfl⟩)

theorem rebuildView_columnsOf [Host] {trace : List (String × List Double)}
    (unique : (Assoc.keys trace).Nodup) (episode : String) {i : Nat} {value : String → Double}
    (here : ∀ name ∈ sorted (Assoc.keys trace), (column trace name)[i]? = some (value name)) :
    rebuildView (.arr ((sorted (Assoc.keys trace)).map Json.str)) (.obj (columnsOf trace)) episode i =
      .ok (project ((sorted (Assoc.keys trace)).map (fun name => (name, (value name).round9))) i
        episode) := by
  have cells : ((sorted (Assoc.keys trace)).map Json.str).mapM (cell (.obj (columnsOf trace)) i) =
      .ok ((sorted (Assoc.keys trace)).map (fun name => (name, (value name).round9))) := by
    rw [mapM_eq_ok_iff, List.forall₂_map_left_iff, List.forall₂_map_right_iff, List.forall₂_same]
    intro name listed
    have entry : (Json.obj (columnsOf trace)).item name =
        .ok (.arr ((column trace name).map (fun value => .float value.round9.value))) := by
      rw [Json.item, get?_columnsOf unique listed]
    have element : elementAt i (.arr ((column trace name).map (fun value =>
        Json.float value.round9.value))) = .ok (.float (value name).round9.value) := by
      rw [elementAt, List.getElem?_map, here name listed]
      rfl
    change ((Json.obj (columnsOf trace)).item name).bind _ = _
    rw [entry]
    change (elementAt i _).bind _ = _
    rw [element]
    change Except.ok (name, toDouble (value name).round9.value) = _
    rw [toDouble_value]
  have distinct : (Assoc.keys ((sorted (Assoc.keys trace)).map
      (fun name => (name, (value name).round9)))).Nodup := by
    rw [Assoc.keys, List.map_map]
    exact (List.map_id _).symm ▸ (pairwise_sorted unique).imp (fun less => ne_of_lt less)
  refine (congrArg (Except.map _) cells).trans ?_
  rw [Except.map, foldl_set_of_nodup _ _ distinct]
  rfl

theorem sorted_admitted (registry : Registry) (budget : Int) :
    sorted (registry.admitted budget) = registry.admitted budget :=
  List.Pairwise.insertionSort_eq (List.pairwise_insertionSort (· ≤ ·) _)

section

variable [Sha256] [FloatText]

theorem digest_rounded {values : List (String × Double)} (unique : (Assoc.keys values).Nodup)
    (k : Nat) (episode : String) :
    (project ((Assoc.keys values).map (fun name =>
      (name, ((Assoc.get? values name).getD Double.nan).round9))) k episode).digest =
      (project values k episode).digest := by
  have rounded : ((Assoc.keys values).map (fun name =>
        (name, ((Assoc.get? values name).getD Double.nan).round9))).map
          (fun pair => (pair.1, Json.float pair.2.round9.value)) =
      values.map (fun pair => (pair.1, Json.float pair.2.round9.value)) := by
    conv_rhs => rw [values_eq unique]
    rw [List.map_map, List.map_map]
    refine List.map_congr_left ?_
    intro name _
    change (name, Json.float (Double.round9 (Double.round9 _)).value) = _
    rw [Double.round9_round9]
    rfl
  change sha (dumps compact (sortKeys (.obj [_, _, ("values", .obj (List.map _ (List.map _ _)))]))) = _
  rw [rounded]
  rfl

theorem chainOver_congr {views others : List FeatureView}
    (same : views.map FeatureView.digest = others.map FeatureView.digest) (chain : String) :
    chainOver chain views = chainOver chain others := by
  have folded : ∀ views : List FeatureView, chainOver chain views =
      (views.map FeatureView.digest).foldl (fun chain digest => chainStep chain digest []) chain := by
    intro views
    rw [chainOver, List.foldl_map]
  rw [folded, folded, same]

variable [Host]

omit [Sha256] [FloatText] in
theorem rebuildViews_blockForm (trace : List (String × List Double)) (seed : Int) :
    rebuildViews (blockForm trace) (.int seed) =
      (List.range (columnLength trace (sorted (Assoc.keys trace)))).mapM
        (rebuildView (.arr ((sorted (Assoc.keys trace)).map Json.str)) (.obj (columnsOf trace))
          (String.ofList ('s' :: intText seed))) := rfl

omit [Sha256] [FloatText] in
theorem rebuildViews_nil (seed : Int) : rebuildViews (blockForm []) (.int seed) = .ok [] := rfl

section

variable {registry : Registry} {bundle : Option Bundle} {last : Critic} {seed : Int}
  {views : List (FeatureView × Nat)}

theorem rebuildViews_of_follow
    (shown : Shown (registry.admitted (criticBudget bundle)) (String.ofList ('s' :: intText seed)) 0 views)
    (followed : (freshCritic bundle).follow registry bundle views = .ok last) (saw : views ≠ [])
    (traced : registry.admitted (criticBudget bundle) ≠ []) :
    ∃ rebuilt, rebuildViews (blockForm last.history) (.int seed) = .ok rebuilt ∧
      rebuilt.map FeatureView.digest = (views.map Prod.fst).map FeatureView.digest := by
  let names := registry.admitted (criticBudget bundle)
  have unique : names.Nodup := registry.nodup_admitted _
  have keys : Assoc.keys last.history = names := keys_history_of_follow shown followed unique rfl saw
  have sorted_ : sorted (Assoc.keys last.history) = names := by
    rw [keys]
    exact sorted_admitted registry _
  have columns : ∀ name ∈ names, column last.history name = views.map (reading name) :=
    fun name listed => history_of_follow shown followed unique listed
  have length : columnLength last.history names = views.length := by
    cases first : names with
    | nil => exact absurd first traced
    | cons name rest =>
        rw [columnLength, columns name (first ▸ List.mem_cons_self), List.length_map]
  let value := fun (i : Nat) (name : String) => (views[i]?.map (reading name)).getD Double.nan
  let view := fun i => project (names.map (fun name => (name, (value i name).round9))) i
    (String.ofList ('s' :: intText seed))
  refine ⟨(List.range views.length).map view, ?_, ?_⟩
  · rw [rebuildViews_blockForm, sorted_, length, mapM_eq_ok_iff, List.forall₂_map_right_iff,
      List.forall₂_same]
    intro i inside
    have here : ∀ name ∈ sorted (Assoc.keys last.history),
        (column last.history name)[i]? = some (value i name) := by
      intro name listed
      rw [sorted_] at listed
      rw [columns name listed, List.getElem?_map, List.getElem?_eq_getElem (List.mem_range.mp inside)]
      simp only [value, List.getElem?_eq_getElem (List.mem_range.mp inside), Option.map_some,
        Option.getD_some]
    have rebuilt := rebuildView_columnsOf (keys ▸ unique) (String.ofList ('s' :: intText seed)) here
    rw [sorted_] at rebuilt
    exact rebuilt
  · apply List.ext_getElem?
    intro i
    rw [List.getElem?_map, List.getElem?_map, List.getElem?_map, List.getElem?_map]
    by_cases inside : i < views.length
    · rcases view_of_shown shown (List.getElem?_eq_getElem inside) with ⟨values, same, keys_⟩
      have rounded := digest_rounded (keys_.symm ▸ unique : (Assoc.keys values).Nodup) (0 + i)
        (String.ofList ('s' :: intText seed))
      have rebuilt : view i = project ((Assoc.keys values).map (fun name =>
          (name, ((Assoc.get? values name).getD Double.nan).round9))) (0 + i)
            (String.ofList ('s' :: intText seed)) := by
        rw [keys_, Nat.zero_add]
        simp only [view, value, List.getElem?_eq_getElem inside, Option.map_some, Option.getD_some,
          reading, same]
        rfl
      rw [List.getElem?_range inside, List.getElem?_eq_getElem inside, Option.map_some,
        Option.map_some, Option.map_some, Option.map_some, same, ← rounded, ← rebuilt]
    · rw [List.getElem?_eq_none (by rw [List.length_range]; omega),
        List.getElem?_eq_none (by omega)]
      rfl

end

end

/-! ## Runs that are written -/

/-- What `write_episode` is given of a segment. -/
def Segment.rollout {Obs : Type} (segment : Segment Obs) (seed : Int) (success : Bool) : Rollout where
  seed := seed
  success := success
  steps := segment.steps
  fires := segment.fires.map (fun fire => ⟨fire.rule.ruleId, fire.step, fire.envStep⟩)
  chain := segment.chain
  trace := segment.trace

/-- A write, the bundle that its run was under, and the policy-owned steps of the run. -/
structure Persisted where
  write : Write
  bundle : Option Bundle
  policySteps : Nat

section

variable [Sha256] [FloatText]

/-- What is written is the result of a segment. -/
def Persisted.Recorded (registry : Registry) (episode : Persisted) : Prop :=
  ∃ (World Obs Action Goal Actor : Type) (plant : Plant World Obs Action Goal Actor)
    (spec : EpisodeSpec) (world : World) (obs : Obs) (stepBudget : Int) (segment : Segment Obs)
    (success : Bool),
    governedSegment registry plant spec episode.bundle world obs stepBudget = .ok segment ∧
      episode.write.rollout = segment.rollout spec.seed success ∧
      episode.policySteps = segment.policySteps

def chainTexts (chain : String) : List FeatureView → List String
  | [] => []
  | view :: rest => joined chain [view.digest] :: chainTexts (chainStep chain view.digest []) rest

def blindViews (episode : String) (count : Nat) : List FeatureView :=
  (List.range count).map (fun k => project [] k episode)

/-- The text of the block, and the texts of the chain where the block has no column. -/
def Persisted.hashed (episode : Persisted) : List String :=
  episode.write.text ::
    if episode.write.rollout.trace.isEmpty then
      episodeSeed :: chainTexts (chainStart episodeSeed)
        (blindViews (String.ofList ('s' :: intText episode.write.rollout.seed)) episode.policySteps)
    else []

theorem chainOver_snoc (chain : String) (views : List FeatureView) (view : FeatureView) :
    chainOver chain (views ++ [view]) = sha (joined (chainOver chain views) [view.digest]) := by
  rw [chainOver, List.foldl_append]
  rfl

theorem mem_chainTexts_snoc (chain : String) (views : List FeatureView) (view : FeatureView) :
    joined (chainOver chain views) [view.digest] ∈ chainTexts chain (views ++ [view]) := by
  induction views generalizing chain with
  | nil => exact .head _
  | cons first rest ih => exact .tail _ (ih (chainStep chain first.digest []))

theorem length_chainOver {chain : String} (long : chain.toList.length = 64) (views : List FeatureView) :
    (chainOver chain views).toList.length = 64 := by
  rcases List.eq_nil_or_concat views with rfl | ⟨before, view, rfl⟩
  · exact long
  · rw [List.concat_eq_append, chainOver_snoc]
    exact length_sha _

theorem chainOver_ne_start {views : List FeatureView} (saw : views ≠ [])
    (free : CollisionFree (episodeSeed :: chainTexts (chainStart episodeSeed) views)) :
    chainOver (chainStart episodeSeed) views ≠ chainStart episodeSeed := by
  rcases List.eq_nil_or_concat views with rfl | ⟨before, view, rfl⟩
  · exact absurd rfl saw
  rw [List.concat_eq_append] at free ⊢
  intro back
  rw [chainOver_snoc] at back
  have text := free _ (.tail _ (mem_chainTexts_snoc _ before view)) _
    (.head _) back
  have lengths := congrArg (fun text : String => text.toList.length) text
  have colon : ":".toList = [':'] := by decide
  have seed : episodeSeed.toList.length = 25 := by decide
  have long := length_chainOver (length_sha episodeSeed) before
  simp only [joined, String.toList_append, List.length_append, colon, seed] at lengths
  change (chainOver (chainStart episodeSeed) before).toList.length = 64 at long
  omega

omit [Sha256] [FloatText] in
theorem blindViews_of_shown {episode : String} {views : List (FeatureView × Nat)}
    (shown : Shown [] episode 0 views) :
    views.map Prod.fst = blindViews episode views.length := by
  apply List.ext_getElem?
  intro i
  rw [blindViews, List.getElem?_map, List.getElem?_map]
  by_cases inside : i < views.length
  · rcases view_of_shown shown (List.getElem?_eq_getElem inside) with ⟨values, same, keys⟩
    have empty : values = [] := List.map_eq_nil_iff.mp keys
    rw [List.getElem?_range inside, List.getElem?_eq_getElem inside, Option.map_some, Option.map_some,
      same, empty, Nat.zero_add]
  · rw [List.getElem?_eq_none (by omega), List.getElem?_eq_none (by rw [List.length_range]; omega)]
    rfl

theorem follow_of_recorded {registry : Registry} {episode : Persisted}
    (recorded : episode.Recorded registry) :
    ∃ views last, Shown (registry.admitted (criticBudget episode.bundle))
        (String.ofList ('s' :: intText episode.write.rollout.seed)) 0 views ∧
      (freshCritic episode.bundle).follow registry episode.bundle views = .ok last ∧
      episode.write.rollout.trace = last.history ∧ episode.write.rollout.chain = last.chain ∧
      episode.policySteps = views.length := by
  rcases recorded with ⟨World, Obs, Action, Goal, Actor, plant, spec, world, obs, stepBudget, segment,
    success, ran, rollout, steps⟩
  rcases follow_of_segment ran with ⟨views, last, shown, followed, _, trace, chain, _, policySteps⟩
  refine ⟨views, last, ?_, followed, ?_, ?_, ?_⟩
  · rw [rollout]
    exact shown
  · rw [rollout]
    exact trace
  · rw [rollout]
    exact chain
  · have counted := Critic.k_of_follow followed
    rw [steps, policySteps, counted]
    exact Nat.zero_add _

variable [Host]

theorem auditEpisode_record (log : EpisodeLog) (write : Write) :
    auditEpisode log write.record =
      match log.getBlock write.block with
      | .error fault => .ok (some (.unreadable fault))
      | .ok block =>
          (rebuildViews block (.int write.rollout.seed)).bind (fun views =>
            if (Json.str (chainOver (chainStart episodeSeed) views)).eq (.str write.rollout.chain) then
              .ok none
            else .ok (some (.chainMismatch (chainOver (chainStart episodeSeed) views)))) := rfl

theorem auditEpisode_stored {log : EpisodeLog} {write : Write} {views : List FeatureView}
    (stored : Assoc.get? log.blocks write.block = some write.text)
    (unique : (Assoc.keys write.rollout.trace).Nodup)
    (rebuilt : rebuildViews (blockForm write.rollout.trace) (.int write.rollout.seed) = .ok views) :
    auditEpisode log write.record =
      if chainOver (chainStart episodeSeed) views = write.rollout.chain then .ok none
      else .ok (some (.chainMismatch (chainOver (chainStart episodeSeed) views))) := by
  have found : log.getBlock write.block = .ok (blockForm write.rollout.trace) := by
    rw [EpisodeLog.getBlock, stored]
    change (if sha write.text ≠ sha write.text then _ else _) = _
    rw [if_neg (not_not.mpr rfl), Write.text, loads_blockText unique]
  rw [auditEpisode_record, found]
  change (rebuildViews (blockForm write.rollout.trace) (.int write.rollout.seed)).bind _ = _
  rw [rebuilt]
  change (if (Json.str (chainOver (chainStart episodeSeed) views)).eq (.str write.rollout.chain) then _
    else _) = _
  by_cases same : chainOver (chainStart episodeSeed) views = write.rollout.chain
  · rw [if_pos same, if_pos ((Json.eq_str_iff _ _).mpr (congrArg Json.str same))]
  · rw [if_neg same, if_neg (fun equal => same (Json.str.inj ((Json.eq_str_iff _ _).mp equal)))]

/-- A run is verified where a feature is admitted or it has no policy-owned step, and
only there. -/
theorem auditEpisode_eq_none_iff {registry : Registry} {episode : Persisted} {log : EpisodeLog}
    (recorded : episode.Recorded registry)
    (stored : Assoc.get? log.blocks episode.write.block = some episode.write.text)
    (free : CollisionFree episode.hashed) :
    auditEpisode log episode.write.record = .ok none ↔
      registry.admitted (criticBudget episode.bundle) ≠ [] ∨ episode.policySteps = 0 := by
  rcases follow_of_recorded recorded with ⟨views, last, shown, followed, trace, chain, steps⟩
  have derived := chain_of_follow followed
  have start : (freshCritic episode.bundle).chain = chainStart episodeSeed := rfl
  rw [start] at derived
  by_cases saw : views = []
  · -- nothing was seen, and nothing is rebuilt
    rw [saw] at followed derived
    cases followed
    have rebuilt := rebuildViews_nil episode.write.rollout.seed
    have none_ : episode.write.rollout.trace = [] := trace
    rw [← none_] at rebuilt
    have same : chainOver (chainStart episodeSeed) [] = episode.write.rollout.chain :=
      derived.symm.trans chain.symm
    rw [auditEpisode_stored stored (none_ ▸ List.nodup_nil) rebuilt, if_pos same]
    constructor
    · intro _
      exact Or.inr (steps.trans (congrArg List.length saw))
    · intro _
      rfl
  · have keys := keys_history_of_follow shown followed (registry.nodup_admitted _) rfl saw
    have unique : (Assoc.keys episode.write.rollout.trace).Nodup := by
      rw [trace, keys]
      exact registry.nodup_admitted _
    by_cases traced : registry.admitted (criticBudget episode.bundle) = []
    · -- the steps were committed to, and the block has none
      have empty : episode.write.rollout.trace = [] := by
        rw [trace]
        exact List.map_eq_nil_iff.mp (keys.trans traced)
      have rebuilt := rebuildViews_nil episode.write.rollout.seed
      rw [← empty] at rebuilt
      rw [traced] at shown
      rw [Persisted.hashed, if_pos (List.isEmpty_iff.mpr empty), steps, ← blindViews_of_shown shown]
        at free
      have apart := chainOver_ne_start (fun none_ => saw (List.map_eq_nil_iff.mp none_))
        (free.mono (fun _ => .tail _))
      rw [← derived, ← chain] at apart
      rw [auditEpisode_stored stored unique rebuilt, if_neg (fun same => apart same.symm)]
      constructor
      · exact nofun
      · rintro (some_ | none_)
        · exact absurd traced some_
        · exact absurd (List.length_eq_zero_iff.mp (steps.symm.trans none_)) saw
    · rcases rebuildViews_of_follow shown followed saw traced with ⟨rebuilt, done, digests⟩
      rw [← trace] at done
      have same := chainOver_congr digests (chainStart episodeSeed)
      rw [auditEpisode_stored stored unique done, if_pos (same.trans (derived.symm.trans chain.symm))]
      constructor
      · intro _
        exact Or.inl traced
      · intro _
        rfl

theorem auditLog_verified_iff {log : EpisodeLog} {records : List EpisodeRecord}
    (read : log.episodes = .ok records)
    (complete : ∀ episode ∈ records, (episode.chain.isSome && episode.block.isSome) = true) :
    auditLog log = .ok ⟨records.length, records.length, []⟩ ↔
      ∀ episode ∈ records, auditEpisode log episode = .ok none := by
  have unfolded : auditLog log = (records.mapM (auditEpisode log)).map (fun found =>
      ⟨records.length, records.length - (found.filterMap id).length, found.filterMap id⟩) := by
    rw [auditLog, read]
    change ((List.filter _ records).mapM (auditEpisode log)).map _ = _
    rw [List.filter_eq_self.mpr complete]
  rw [unfolded]
  constructor
  · intro verified
    rcases map_eq_ok.mp verified with ⟨found, done, result⟩
    have sound : ∀ error ∈ found, error = none := by
      intro error mem
      cases error with
      | none => rfl
      | some error =>
          have listed : error ∈ found.filterMap id := List.mem_filterMap.mpr ⟨_, mem, rfl⟩
          rw [(AuditResult.mk.inj result).2.2] at listed
          cases listed
    have along := mapM_eq_ok_iff.mp done
    clear done unfolded verified result read complete
    induction along with
    | nil => exact List.forall_mem_nil _
    | cons here _ ih =>
        intro episode mem
        rcases List.mem_cons.mp mem with rfl | later
        · rw [here, sound _ List.mem_cons_self]
        · exact ih (fun error listed => sound error (.tail _ listed)) episode later
  · intro sound
    have done : records.mapM (auditEpisode log) = .ok (records.map (fun _ => none)) := by
      rw [mapM_eq_ok_iff, List.forall₂_map_right_iff, List.forall₂_same]
      exact sound
    have nothing : (records.map (fun _ => (none : Option AuditError))).filterMap id = [] := by
      rw [List.filterMap_eq_nil_iff]
      intro error mem
      rcases List.mem_map.mp mem with ⟨_, _, rfl⟩
      rfl
    rw [done, Except.map, nothing]
    rfl

/-! ## Online and offline agree -/

def replaceBlock (log : EpisodeLog) (digest text : String) : EpisodeLog :=
  { log with blocks := Assoc.set log.blocks digest text }

def logOf (episodes : List Persisted) : EpisodeLog :=
  EpisodeLog.fresh.writeAll (episodes.map Persisted.write)

/-- The record is read back, the audit verifies it, and no other block passes for its
own. -/
structure Reproduced (episodes : List Persisted) : Prop where
  grouped : (logOf episodes).episodes = .ok (episodes.map (fun episode => episode.write.record))
  verified : auditLog (logOf episodes) = .ok ⟨episodes.length, episodes.length, []⟩
  guarded : ∀ episode ∈ episodes, ∀ text, CollisionFree [episode.write.text, text] →
    loads text.toList ≠ loads episode.write.text.toList →
    ∃ fault, auditEpisode (replaceBlock (logOf episodes) episode.write.block text)
      episode.write.record = .ok (some (.unreadable fault))

theorem auditEpisode_replaced (log : EpisodeLog) (write : Write) {text : String}
    (free : CollisionFree [write.text, text]) (other : text ≠ write.text) :
    auditEpisode (replaceBlock log write.block text) write.record =
      .ok (some (.unreadable (.contentHash write.block))) := by
  have apart : sha text ≠ write.block := fun same =>
    other (free text (by simp) write.text (by simp) same)
  have found : (replaceBlock log write.block text).getBlock write.block =
      .error (.contentHash write.block) := by
    rw [EpisodeLog.getBlock, replaceBlock, Assoc.get?_set, if_pos rfl]
    exact if_pos apart
  rw [auditEpisode_record, found]

section

variable {registry : Registry} {episodes : List Persisted}

omit [Host] in
theorem grouped_logOf (distinct : (episodes.map (fun episode => episode.write.key)).Nodup) :
    (logOf episodes).episodes = .ok (episodes.map (fun episode => episode.write.record)) := by
  have keys : ((episodes.map Persisted.write).map Write.key).Nodup := by
    rw [List.map_map]
    exact distinct
  rw [logOf, episodes_writeAll keys, List.map_map]
  rfl

/-- The audit verifies all results exactly when each run was admitted a feature or has
no policy-owned step. -/
theorem verified_logOf_iff (recorded : ∀ episode ∈ episodes, episode.Recorded registry)
    (distinct : (episodes.map (fun episode => episode.write.key)).Nodup)
    (free : CollisionFree (episodes.flatMap Persisted.hashed)) :
    auditLog (logOf episodes) = .ok ⟨episodes.length, episodes.length, []⟩ ↔
      ∀ episode ∈ episodes,
        registry.admitted (criticBudget episode.bundle) ≠ [] ∨ episode.policySteps = 0 := by
  have texts : CollisionFree ((episodes.map Persisted.write).map Write.text) := by
    apply free.mono
    intro text mem
    rw [List.map_map] at mem
    rcases List.mem_map.mp mem with ⟨episode, listed, rfl⟩
    exact List.mem_flatMap.mpr ⟨episode, listed, .head _⟩
  have audited := auditLog_verified_iff (grouped_logOf distinct) (by
    intro episode mem
    rcases List.mem_map.mp mem with ⟨_, _, rfl⟩
    rfl)
  rw [List.length_map] at audited
  rw [audited, List.forall_mem_map]
  refine forall₂_congr (fun episode listed => ?_)
  apply auditEpisode_eq_none_iff (recorded episode listed)
  · exact block_writeAll texts (List.mem_map_of_mem listed)
  · exact free.mono (fun text mem => List.mem_flatMap.mpr ⟨episode, listed, mem⟩)

end

/-- Results of segments, written in any number under distinct seeds and bundles, are
grouped back into their records; a block that is replaced by another is refused; and the
audit verifies all of them exactly when each run was admitted a feature or has no
policy-owned step. -/
theorem audit_reproduces_chain (registry : Registry) (episodes : List Persisted)
    (recorded : ∀ episode ∈ episodes, episode.Recorded registry)
    (distinct : (episodes.map (fun episode => episode.write.key)).Nodup)
    (free : CollisionFree (episodes.flatMap Persisted.hashed)) :
    Reproduced episodes ↔ ∀ episode ∈ episodes,
      registry.admitted (criticBudget episode.bundle) ≠ [] ∨ episode.policySteps = 0 := by
  rw [← verified_logOf_iff recorded distinct free]
  constructor
  · exact fun reproduced => reproduced.verified
  · intro verified
    refine ⟨grouped_logOf distinct, verified, ?_⟩
    intro episode _ text free_ other
    exact ⟨_, auditEpisode_replaced _ _ free_ (fun same => other (congrArg _ (congrArg _ same)))⟩

end

/-- An episode of a probe without rules. -/
def probeEpisode (rollout : Rollout) (bundleSha : String) (bundle : Bundle) (steps : Nat) : Persisted :=
  ⟨⟨rollout, .obj [], proper_empty, bundleSha⟩, some bundle, steps⟩

section

local instance auditSha : Sha256 := sha256

local instance auditFloats : FloatText := exactDecimals

local instance auditHost : Host := asciiHost

theorem audit_reproduces_chain_probe :
    ∃ (rollout : Rollout) (steps : Nat), Assoc.keys rollout.trace = featureCatalog.admitted 0 ∧
      Reproduced [probeEpisode rollout "first" ⟨[], 0, 0, none⟩ steps,
        probeEpisode rollout "second" ⟨[], 0, 0, none⟩ steps] := by
  have sensed : featureCatalog.admitted 0 ≠ [] := by decide
  have runs := fun present => @exists_segment_probe _ _ featureCatalog ⟨[], 0, 0, none⟩ present
    (Or.inl rfl) (Or.inl le_rfl) (fun _ _ => Double.nan) 1
  rcases runs (List.forall_mem_nil _) with
    ⟨critic, segment, followed, ran, _, trace, _⟩
  have keys : Assoc.keys segment.trace = featureCatalog.admitted 0 := by
    rw [trace]
    exact keys_history_of_follow (shown_probeViews _ _ 0 1) followed (featureCatalog.nodup_admitted 0)
      rfl (List.cons_ne_nil _ _)
  have some_ : (segment.rollout 0 true).trace.isEmpty = false := by
    rw [List.isEmpty_eq_false_iff]
    intro none_
    rw [show segment.trace = [] from none_] at keys
    exact sensed keys.symm
  have recorded : ∀ bundleSha, (probeEpisode (segment.rollout 0 true) bundleSha ⟨[], 0, 0, none⟩
      segment.policySteps).Recorded featureCatalog := fun bundleSha =>
    ⟨Nat, Nat, Unit, Unit, Unit, _, probeSpec, 0, 0, _, segment, true, ran, rfl, rfl⟩
  refine ⟨segment.rollout 0 true, segment.policySteps, keys,
    (audit_reproduces_chain featureCatalog _ ?_ ?_ ?_).mpr ?_⟩
  · intro episode member
    rcases List.mem_cons.mp member with rfl | member
    · exact recorded "first"
    · rw [List.mem_singleton.mp member]
      exact recorded "second"
  · have apart : [((0 : Int), "first"), (0, "second")].Nodup := by decide
    exact apart
  · have texts : ∀ text ∈ [probeEpisode (segment.rollout 0 true) "first" ⟨[], 0, 0, none⟩
          segment.policySteps, probeEpisode (segment.rollout 0 true) "second" ⟨[], 0, 0, none⟩
          segment.policySteps].flatMap Persisted.hashed, text = blockText segment.trace := by
      intro text member
      rcases List.mem_flatMap.mp member with ⟨episode, listed, inside⟩
      have same : episode.write.rollout = segment.rollout 0 true := by
        rcases List.mem_cons.mp listed with rfl | listed
        · rfl
        · rw [List.mem_singleton.mp listed]
          rfl
      rw [Persisted.hashed, same, some_, if_neg Bool.false_ne_true, List.mem_singleton, Write.text, same]
        at inside
      exact inside
    intro text member other member_ _
    rw [texts text member, texts other member_]
  · intro episode member
    left
    rcases List.mem_cons.mp member with rfl | member
    · exact sensed
    · rw [List.mem_singleton.mp member]
      exact sensed

/-- The results of a run with one policy-owned step under a budget of -1. -/
def blindEpisode : Persisted :=
  probeEpisode ⟨0, true, 1, [], chainOver (chainStart episodeSeed) [project [] 0 "s0"], []⟩ "none"
    ⟨[], -1, 0, none⟩ 1

theorem segment_blind :
    governedSegment featureCatalog (probe (fun _ _ => Double.nan) []) probeSpec
      (some ⟨[], -1, 0, none⟩) 0 0 1 =
    .ok ⟨0, 1, 1, [], chainOver (chainStart episodeSeed) [project [] 0 "s0"], 0, [], none⟩ := rfl

theorem blind_run_unverified :
    blindEpisode.Recorded featureCatalog ∧ ¬ Reproduced [blindEpisode] := by
  have recorded : blindEpisode.Recorded featureCatalog :=
    ⟨Nat, Nat, Unit, Unit, Unit, _, probeSpec, 0, 0, 1, _, true, segment_blind, rfl, rfl⟩
  have free : CollisionFree ([blindEpisode].flatMap Persisted.hashed) :=
    collisionFree_of_nodup (by decide +kernel)
  have unseen : ¬ (featureCatalog.admitted (-1) ≠ [] ∨ 1 = 0) := by decide
  refine ⟨recorded, fun reproduced => unseen ?_⟩
  have all : ∀ episode ∈ [blindEpisode], episode.Recorded featureCatalog := by
    intro episode member
    rw [List.mem_singleton.mp member]
    exact recorded
  have apart : ([blindEpisode].map (fun episode => episode.write.key)).Nodup := List.nodup_singleton _
  exact (verified_logOf_iff all apart free).mp reproduced.verified blindEpisode
    (List.mem_singleton.mpr rfl)

end

end Rsi
end PhysicalHarness
