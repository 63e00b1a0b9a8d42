import PhysicalHarness.Board.Counts
import PhysicalHarness.Lib.Tally

namespace PhysicalHarness
namespace Board

open Python PhysicalHarness.Task Fallible

/-!
# The episodes of a chain

A legal first proposal that carries the digest of its graph opens an episode, and the
next proposal or closing row ends it.  The evidence for plans counts every episode of the
chain once, whatever rows stand between.
-/

/-- One episode of a session. -/
structure Episode where
  seq : Nat
  key : PlanKey
  /-- It was closed with success, and no proposal came before that. -/
  succeeded : Bool

def openedBy (row : Row) : Option PlanKey :=
  if row.kind = "task.plan" ∧ (row.data.getD "legal" .null).truthy = true ∧
      (row.data.getD "replan" .null).eq (.int 0) = true ∧ (row.data.getD "graph_sha" .null).truthy = true then
    some ⟨row.data.getD "mission" .null, row.data.getD "graph_sha" .null,
      row.data.getD "embodiment" .null, row.data.getD "arm" .null⟩
  else none

/-- The episode before these rows is closed with success. -/
def closes : List Row → Bool
  | [] => false
  | row :: later =>
      if row.kind = "task.plan" then false
      else if row.kind = "task.plan_complete" then (row.data.getD "success" .null).truthy
      else closes later

def episodesOf : List Row → List Episode
  | [] => []
  | row :: later =>
      match openedBy row with
      | some key => ⟨row.seq, key, closes later⟩ :: episodesOf later
      | none => episodesOf later

def PlainPart : Json → Prop
  | .null => True
  | .str _ => True
  | _ => False

theorem eq_iff_of_plainPart {left right : Json} (plain : PlainPart left) (plain_ : PlainPart right) :
    left.eq right = true ↔ left = right := by
  cases right with
  | null => cases left <;> simp_all [PlainPart, Json.eq, Json.sameScalar, Json.toRat?]
  | str text => exact Json.eq_str_iff left text
  | _ => cases plain_

structure PlanKey.Plain (key : PlanKey) : Prop where
  task : PlainPart key.task
  graphSha : PlainPart key.graphSha
  embodiment : PlainPart key.embodiment
  arm : PlainPart key.arm

theorem PlanKey.same_iff {key other : PlanKey} (plain : key.Plain) (plain_ : other.Plain) :
    key.same other = true ↔ key = other := by
  rw [PlanKey.same, Bool.and_eq_true, Bool.and_eq_true, Bool.and_eq_true,
    eq_iff_of_plainPart plain.task plain_.task, eq_iff_of_plainPart plain.graphSha plain_.graphSha,
    eq_iff_of_plainPart plain.embodiment plain_.embodiment, eq_iff_of_plainPart plain.arm plain_.arm]
  rcases key with ⟨task, graphSha, embodiment, arm⟩
  rcases other with ⟨task_, graphSha_, embodiment_, arm_⟩
  rw [PlanKey.mk.injEq, and_assoc, and_assoc]

theorem plainPart_nullable (name : Option String) : PlainPart (nullable name) := by
  cases name <;> exact trivial

theorem plain_of_sealed [Host] {row : Row} (sealed_ : Sealed row.content) {key : PlanKey}
    (opened : openedBy row = some key) : key.Plain := by
  rcases row with ⟨seq, kind, data⟩
  rw [openedBy] at opened
  split at opened
  · rename_i opens
    cases opened
    change Sealed (kind, data) at sealed_
    generalize same : (kind, data) = content at sealed_
    cases sealed_ with
    | plan note =>
        cases same
        refine ⟨plainPart_nullable note.mission, ?_, trivial, trivial⟩
        change PlainPart (if note.plan.isMapping then .str _ else .null)
        split <;> exact trivial
    | verify note =>
        cases same
        have other : "task.verify" ≠ "task.plan" := by decide
        exact absurd opens.1 other
    | complete note =>
        cases same
        have other : "task.plan_complete" ≠ "task.plan" := by decide
        exact absurd opens.1 other
    | other unknown =>
        cases same
        have plan : kind = "task.plan" := opens.1
        have listed : "task.plan" ∈ taskKinds := by decide
        exact absurd (plan ▸ listed) unknown
  · cases opened

theorem field_eq_ok {data : Json} {name : String} {value : Json}
    (read : field data name = .ok value) : value = data.getD name .null := by
  cases data with
  | obj fields => exact (Except.ok.inj read).symm
  | _ => cases read

inductive Read (state : PlanEntries) (row : Row) : PlanEntries → Prop
  | again {key : PlanKey} {position : Nat} {entry : PlanEntry} (seed block : Json)
      (opens : openedBy row = some key) (here : state.entries[position]? = some entry)
      (same : entry.key.same key = true) :
      Read state row ⟨state.entries.modify position (PlanEntry.enter seed block row.seq), some position⟩
  | first {key : PlanKey} (graph : Json) (facts objects : List Json) (seed block : Json)
      (opens : openedBy row = some key) (fresh : ∀ entry ∈ state.entries, entry.key.same key = false) :
      Read state row ⟨state.entries ++ [PlanEntry.enter seed block row.seq
        ⟨key, graph, facts, objects, [], [], [], [], 0, 0⟩], some state.entries.length⟩
  | passed (plan : row.kind = "task.plan") (silent : openedBy row = none) :
      Read state row { state with current := none }
  | verified {position : Nat} (change : List Nat → List Nat) (opened : state.current = some position)
      (other : row.kind ≠ "task.plan") (open_ : row.kind ≠ "task.plan_complete") :
      Read state row { state with entries := state.entries.modify position (fun entry =>
        { entry with L := change entry.L }) }
  | closed {position : Nat} (opened : state.current = some position)
      (complete : row.kind = "task.plan_complete") :
      Read state row ⟨state.entries.modify position (fun entry =>
        { entry with k := entry.k + if (row.data.getD "success" .null).truthy then 1 else 0 }), none⟩
  | skipped (other : row.kind ≠ "task.plan")
      (idle : row.kind = "task.plan_complete" → state.current = none) : Read state row state

theorem read_of_planIndexPlan {state next : PlanEntries} {row : Row} (plan : row.kind = "task.plan")
    (stepped : planIndexPlan state row = .ok next) : Read state row next := by
  rw [planIndexPlan] at stepped
  rcases of_bind stepped with ⟨legal, legal_, stepped⟩
  rcases of_bind stepped with ⟨replan, replan_, stepped⟩
  rcases of_bind stepped with ⟨sha, sha_, stepped⟩
  rw [field_eq_ok legal_, field_eq_ok replan_, field_eq_ok sha_] at stepped
  split at stepped
  · rename_i opens
    rw [Bool.and_eq_true, Bool.and_eq_true] at opens
    rcases of_bind stepped with ⟨mission, mission_, stepped⟩
    rcases of_bind stepped with ⟨embodiment, embodiment_, stepped⟩
    rcases of_bind stepped with ⟨arm, arm_, stepped⟩
    rcases of_bind stepped with ⟨_, _, stepped⟩
    rcases of_bind stepped with ⟨graph, _, stepped⟩
    rcases of_bind stepped with ⟨_, _, stepped⟩
    rcases of_bind stepped with ⟨facts, _, stepped⟩
    rcases of_bind stepped with ⟨_, _, stepped⟩
    rcases of_bind stepped with ⟨objects, _, stepped⟩
    rcases of_bind stepped with ⟨_, _, stepped⟩
    rcases of_bind stepped with ⟨seed, _, stepped⟩
    rcases of_bind stepped with ⟨block, _, stepped⟩
    have key : openedBy row = some ⟨mission, row.data.getD "graph_sha" .null, embodiment, arm⟩ := by
      rw [openedBy, if_pos ⟨plan, opens.1.1, opens.1.2, opens.2⟩, field_eq_ok mission_,
        field_eq_ok embodiment_, field_eq_ok arm_]
    split at stepped
    · rename_i position found
      rw [← Except.ok.inj stepped]
      rcases List.findIdx?_eq_some_iff_getElem.mp found with ⟨bound, same, _⟩
      exact .again seed block key (List.getElem?_eq_getElem bound) same
    · rename_i absent
      rw [← Except.ok.inj stepped]
      refine .first graph facts objects seed block key (fun entry mem => ?_)
      exact List.findIdx?_eq_none_iff.mp absent entry mem
  · rename_i silent
    rw [← Except.ok.inj stepped]
    refine .passed plan (if_neg (fun opens => silent ?_))
    rw [Bool.and_eq_true, Bool.and_eq_true]
    exact ⟨⟨opens.2.1, opens.2.2.1⟩, opens.2.2.2⟩

theorem read_of_planIndexStep {state next : PlanEntries} {row : Row}
    (stepped : planIndexStep state row = .ok next) : Read state row next := by
  rw [planIndexStep] at stepped
  split at stepped
  · rename_i plan
    exact read_of_planIndexPlan plan stepped
  · rename_i other
    split at stepped
    · rename_i idle
      rw [← Except.ok.inj stepped]
      exact .skipped other (fun _ => idle)
    · rename_i position opened
      split at stepped
      · rename_i verify
        rcases of_bind stepped with ⟨passed, _, same⟩
        rw [← Except.ok.inj same]
        refine .verified (modifyLast (fun nodes => if passed then nodes + 1 else nodes)) opened other ?_
        rw [verify]
        decide
      · split at stepped
        · rename_i complete
          rcases of_bind stepped with ⟨success, success_, same⟩
          rw [← Except.ok.inj same, field_eq_ok success_]
          exact .closed opened complete
        · rename_i open_
          rw [← Except.ok.inj stepped]
          exact .skipped other (fun complete => absurd complete open_)

/-! ## What all rows do -/

theorem forall_modify {α : Type} {holds : α → Prop} {items : List α} (each : ∀ item ∈ items, holds item)
    (position : Nat) {change : α → α} (kept : ∀ item, holds item → holds (change item)) :
    ∀ item ∈ items.modify position change, holds item := by
  induction items generalizing position with
  | nil =>
      cases position <;> exact each
  | cons first rest ih =>
      have here := each first (.head _)
      have later : ∀ item ∈ rest, holds item := fun item mem => each item (.tail _ mem)
      cases position with
      | zero =>
          rw [List.modify_zero_cons]
          exact List.forall_mem_cons.mpr ⟨kept first here, later⟩
      | succ position =>
          rw [List.modify_succ_cons]
          exact List.forall_mem_cons.mpr ⟨here, ih later position⟩

theorem nodup_modify {α β : Type} {view : α → β} {items : List α} (apart : (items.map view).Nodup)
    (position : Nat) {change : α → α} (kept : ∀ item, view (change item) = view item) :
    ((items.modify position change).map view).Nodup := by
  have same : (items.modify position change).map view = items.map view := by
    clear apart
    induction items generalizing position with
    | nil => cases position <;> rfl
    | cons first rest ih =>
        cases position with
        | zero => rw [List.modify_zero_cons, List.map_cons, kept, List.map_cons]
        | succ position => rw [List.modify_succ_cons, List.map_cons, ih, List.map_cons]
  rw [same]
  exact apart

/-- The keys are plain and apart, every entry is counted, and there is one seed for each
episode of an entry. -/
structure Kept (state : PlanEntries) : Prop where
  plain : ∀ entry ∈ state.entries, entry.key.Plain
  apart : (state.entries.map PlanEntry.key).Nodup
  counted : ∀ entry ∈ state.entries, 0 < entry.n
  seeded : ∀ entry ∈ state.entries, entry.seeds.length = entry.n
  opened : ∀ position, state.current = some position → position < state.entries.length

theorem Kept.entry {state : PlanEntries} (kept : Kept state) {position : Nat}
    (opened : state.current = some position) : ∃ entry, state.entries[position]? = some entry :=
  ⟨_, List.getElem?_eq_getElem (kept.opened position opened)⟩

theorem kept_step {state next : PlanEntries} {row : Row} (kept : Kept state)
    (plain : ∀ key, openedBy row = some key → key.Plain) (read : Read state row next) : Kept next := by
  cases read with
  | again seed block opens here same =>
      rename_i key position entry
      refine ⟨forall_modify kept.plain position (fun _ holds => holds),
        nodup_modify kept.apart position (fun _ => rfl),
        forall_modify kept.counted position (fun _ _ => Nat.succ_pos _),
        forall_modify kept.seeded position (fun entry holds => ?_), ?_⟩
      · change (entry.seeds ++ [seed]).length = entry.n + 1
        rw [List.length_append, holds, List.length_singleton]
      · intro other same_
        rw [← Option.some.inj same_, List.length_modify]
        exact (List.getElem?_eq_some_iff.mp here).1
  | first graph facts objects seed block opens fresh =>
      rename_i key
      have split : ∀ {holds : PlanEntry → Prop}, (∀ entry ∈ state.entries, holds entry) →
          holds (PlanEntry.enter seed block row.seq ⟨key, graph, facts, objects, [], [], [], [], 0, 0⟩) →
          ∀ entry ∈ state.entries ++ [PlanEntry.enter seed block row.seq
            ⟨key, graph, facts, objects, [], [], [], [], 0, 0⟩], holds entry := by
        intro holds before last entry mem
        rcases List.mem_append.mp mem with old | new
        · exact before entry old
        · rw [List.mem_singleton.mp new]
          exact last
      refine ⟨split kept.plain (plain key opens), ?_, split kept.counted Nat.one_pos,
        split kept.seeded rfl, ?_⟩
      · rw [List.map_append, List.nodup_append]
        refine ⟨kept.apart, List.nodup_singleton _, ?_⟩
        intro known mem other last equal
        rw [List.mem_singleton.mp last] at equal
        rcases List.mem_map.mp mem with ⟨entry, listed, rfl⟩
        have same := (PlanKey.same_iff (kept.plain entry listed) (plain key opens)).mpr equal
        rw [fresh entry listed] at same
        cases same
      · intro position same
        rw [← Option.some.inj same, List.length_append]
        exact Nat.lt_succ_self _
  | passed plan_ silent => exact ⟨kept.plain, kept.apart, kept.counted, kept.seeded, nofun⟩
  | verified change opened other open_ =>
      rename_i position
      refine ⟨forall_modify kept.plain position (fun _ holds => holds),
        nodup_modify kept.apart position (fun _ => rfl),
        forall_modify kept.counted position (fun _ holds => holds),
        forall_modify kept.seeded position (fun _ holds => holds), ?_⟩
      rw [List.length_modify]
      exact kept.opened
  | closed opened complete =>
      rename_i position
      exact ⟨forall_modify kept.plain position (fun _ holds => holds),
        nodup_modify kept.apart position (fun _ => rfl),
        forall_modify kept.counted position (fun _ holds => holds),
        forall_modify kept.seeded position (fun _ holds => holds), nofun⟩
  | skipped other idle => exact kept

def countedN (key : PlanKey) (entries : List PlanEntry) : Nat :=
  Tally.sumWhere (fun entry => entry.key.same key) PlanEntry.n entries

def countedK (key : PlanKey) (entries : List PlanEntry) : Nat :=
  Tally.sumWhere (fun entry => entry.key.same key) PlanEntry.k entries

def openUnder (key : PlanKey) (state : PlanEntries) : Bool :=
  (state.current.bind (fun position => state.entries[position]?)).any (fun entry => entry.key.same key)

def unit (yes : Bool) : Nat := if yes then 1 else 0

theorem kind_of_openedBy {row : Row} {key : PlanKey} (opens : openedBy row = some key) :
    row.kind = "task.plan" := by
  rw [openedBy] at opens
  split at opens
  · rename_i all
    exact all.1
  · cases opens

theorem closes_plan {row : Row} (plan : row.kind = "task.plan") (rest : List Row) :
    closes (row :: rest) = false := by
  rw [closes, if_pos plan]

theorem closes_complete {row : Row} (complete : row.kind = "task.plan_complete") (rest : List Row) :
    closes (row :: rest) = (row.data.getD "success" .null).truthy := by
  rw [closes, complete, if_neg (by decide), if_pos rfl]

theorem closes_other {row : Row} (other : row.kind ≠ "task.plan") (open_ : row.kind ≠ "task.plan_complete")
    (rest : List Row) : closes (row :: rest) = closes rest := by
  rw [closes, if_neg other, if_neg open_]

theorem countP_episodesOf (keep : Episode → Bool) (row : Row) (rest : List Row) :
    (episodesOf (row :: rest)).countP keep = (episodesOf rest).countP keep +
      unit ((openedBy row).any (fun key => keep ⟨row.seq, key, closes rest⟩)) := by
  rw [episodesOf]
  cases openedBy row with
  | none => rfl
  | some key =>
      change (Episode.mk row.seq key (closes rest) :: episodesOf rest).countP keep = _
      rw [List.countP_cons]
      rfl

theorem openUnder_eq {key : PlanKey} {state : PlanEntries} {position : Nat} {entry : PlanEntry}
    (opened : state.current = some position) (here : state.entries[position]? = some entry) :
    openUnder key state = entry.key.same key := by
  rw [openUnder, opened, Option.bind_some, here]
  rfl

theorem openUnder_none {key : PlanKey} {state : PlanEntries} (idle : state.current = none) :
    openUnder key state = false := by
  rw [openUnder, idle]
  rfl

theorem countedN_step {state next : PlanEntries} {row : Row} (kept : Kept state)
    (plain : ∀ key, openedBy row = some key → key.Plain) (read : Read state row next) (key : PlanKey) :
    countedN key next.entries =
      countedN key state.entries + unit ((openedBy row).any (fun opened => opened.same key)) := by
  have silent : row.kind ≠ "task.plan" → openedBy row = none := by
    intro other
    cases opens : openedBy row with
    | none => rfl
    | some opened => exact absurd (kind_of_openedBy opens) other
  have still : ∀ (position : Nat) (entry : PlanEntry) (change : PlanEntry → PlanEntry),
      state.entries[position]? = some entry → (∀ entry, (change entry).key = entry.key) →
      (∀ entry, (change entry).n = entry.n) →
      countedN key (state.entries.modify position change) = countedN key state.entries := by
    intro position entry change here keys counts
    have none_ : (change entry).n = entry.n + 0 := counts entry
    rw [countedN, Tally.sumWhere_modify here (by rw [keys]) none_, ite_self]
    rfl
  cases read with
  | again seed block opens here same =>
      rename_i opened position entry
      have equal := (PlanKey.same_iff (kept.plain entry (List.mem_of_getElem? here))
        (plain opened opens)).mp same
      rw [opens, countedN, Tally.sumWhere_modify here rfl (show _ = _ + 1 from rfl), equal]
      rfl
  | first graph facts objects seed block opens fresh =>
      rw [opens, countedN, Tally.sumWhere_append, Tally.sumWhere_cons]
      rfl
  | passed plan_ none_ =>
      rw [none_]
      rfl
  | verified change opened other open_ =>
      rename_i position
      rcases kept.entry opened with ⟨entry, here⟩
      rw [silent other]
      exact still position entry _ here (fun _ => rfl) (fun _ => rfl)
  | closed opened complete =>
      rename_i position
      have other : row.kind ≠ "task.plan" := by
        rw [complete]
        decide
      rcases kept.entry opened with ⟨entry, here⟩
      rw [silent other]
      exact still position entry _ here (fun _ => rfl) (fun _ => rfl)
  | skipped other idle =>
      rw [silent other]
      rfl

/-- One row adds the success of the episode that it opens, and pays out that of the one
that it ends. -/
theorem countedK_step {state next : PlanEntries} {row : Row} (kept : Kept state)
    (plain : ∀ key, openedBy row = some key → key.Plain) (read : Read state row next) (key : PlanKey)
    (rest : List Row) :
    countedK key next.entries + unit (openUnder key next && closes rest) =
      countedK key state.entries +
        unit ((openedBy row).any (fun opened => opened.same key && closes rest)) +
          unit (openUnder key state && closes (row :: rest)) := by
  have silent : row.kind ≠ "task.plan" → openedBy row = none := by
    intro other
    cases opens : openedBy row with
    | none => rfl
    | some opened => exact absurd (kind_of_openedBy opens) other
  cases read with
  | again seed block opens here same =>
      rename_i opened position entry
      have equal := (PlanKey.same_iff (kept.plain entry (List.mem_of_getElem? here))
        (plain opened opens)).mp same
      have still : countedK key (state.entries.modify position (PlanEntry.enter seed block row.seq)) =
          countedK key state.entries := by
        rw [countedK, Tally.sumWhere_modify here rfl (show _ = _ + 0 from rfl), ite_self]
        rfl
      have there : (state.entries.modify position (PlanEntry.enter seed block row.seq))[position]? =
          some (PlanEntry.enter seed block row.seq entry) := by
        rw [List.getElem?_modify_eq, here]
        rfl
      rw [openUnder_eq rfl there, still, opens, closes_plan (kind_of_openedBy opens), Bool.and_false,
        ← equal]
      rfl
  | first graph facts objects seed block opens fresh =>
      rename_i opened
      have there : (state.entries ++ [PlanEntry.enter seed block row.seq
          ⟨opened, graph, facts, objects, [], [], [], [], 0, 0⟩])[state.entries.length]? =
          some (PlanEntry.enter seed block row.seq
            ⟨opened, graph, facts, objects, [], [], [], [], 0, 0⟩) := List.getElem?_concat_length
      have still : countedK key (state.entries ++ [PlanEntry.enter seed block row.seq
          ⟨opened, graph, facts, objects, [], [], [], [], 0, 0⟩]) = countedK key state.entries := by
        rw [countedK, Tally.sumWhere_append, Tally.sumWhere_cons]
        change _ + ((if _ then 0 else 0) + 0) = _
        rw [ite_self]
        rfl
      rw [openUnder_eq rfl there, still, opens, closes_plan (kind_of_openedBy opens), Bool.and_false]
      rfl
  | passed plan_ none_ =>
      rw [openUnder_none rfl, none_, closes_plan plan_, Bool.and_false]
      rfl
  | verified change opened other open_ =>
      rename_i position
      rcases kept.entry opened with ⟨entry, here⟩
      have there : (state.entries.modify position (fun entry => { entry with L := change entry.L }))[position]? =
          some { entry with L := change entry.L } := by
        rw [List.getElem?_modify_eq, here]
        rfl
      have still : countedK key (state.entries.modify position (fun entry =>
          { entry with L := change entry.L })) = countedK key state.entries := by
        rw [countedK, Tally.sumWhere_modify here rfl (show _ = _ + 0 from rfl), ite_self]
        rfl
      have open_next : openUnder key
          ⟨state.entries.modify position (fun entry => { entry with L := change entry.L }),
            state.current⟩ = entry.key.same key :=
        @openUnder_eq key ⟨_, state.current⟩ position { entry with L := change entry.L } opened there
      rw [open_next, openUnder_eq opened here, still, silent other, closes_other other open_]
      rfl
  | closed opened complete =>
      rename_i position
      have other : row.kind ≠ "task.plan" := by
        rw [complete]
        decide
      rcases kept.entry opened with ⟨entry, here⟩
      rw [openUnder_none rfl, openUnder_eq opened here, silent other, closes_complete complete,
        countedK, Tally.sumWhere_modify here rfl (show _ = _ + _ from rfl)]
      cases entry.key.same key <;> rfl
  | skipped other idle =>
      rw [silent other]
      by_cases complete : row.kind = "task.plan_complete"
      · rw [openUnder_none (idle complete)]
        rfl
      · rw [closes_other other complete]
        rfl

theorem totals_fold {rows : List Row} {state final : PlanEntries} (kept : Kept state)
    (plain : ∀ row ∈ rows, ∀ key, openedBy row = some key → key.Plain)
    (ran : rows.foldlM planIndexStep state = .ok final) (key : PlanKey) :
    Kept final ∧
    countedN key final.entries =
      countedN key state.entries + (episodesOf rows).countP (fun episode => episode.key.same key) ∧
    countedK key final.entries = countedK key state.entries +
      (episodesOf rows).countP (fun episode => episode.key.same key && episode.succeeded) +
        unit (openUnder key state && closes rows) := by
  induction rows generalizing state with
  | nil =>
      cases ran
      refine ⟨kept, rfl, ?_⟩
      rw [closes, Bool.and_false]
      rfl
  | cons row rest ih =>
      rcases of_bind ran with ⟨next, stepped, ran⟩
      have read := read_of_planIndexStep stepped
      have here := plain row (.head _)
      rcases ih (kept_step kept here read) (fun other mem => plain other (.tail _ mem))
        ran with ⟨last, n, k⟩
      have stepN := countedN_step kept here read key
      have stepK := countedK_step kept here read key rest
      refine ⟨last, ?_, ?_⟩
      · rw [n, stepN, countP_episodesOf]
        change _ = _ + (_ + unit ((openedBy row).any (fun opened => opened.same key)))
        omega
      · rw [k, countP_episodesOf]
        change _ = _ + (_ + unit ((openedBy row).any (fun opened => opened.same key && closes rest))) + _
        omega

theorem exists_row_of_episode {rows : List Row} {episode : Episode} (listed : episode ∈ episodesOf rows) :
    ∃ row ∈ rows, openedBy row = some episode.key := by
  induction rows with
  | nil => cases listed
  | cons row rest ih =>
      rw [episodesOf] at listed
      cases opens : openedBy row with
      | none =>
          rw [opens] at listed
          rcases ih listed with ⟨other, mem, opened⟩
          exact ⟨other, .tail _ mem, opened⟩
      | some key =>
          rw [opens] at listed
          rcases List.mem_cons.mp listed with rfl | later
          · exact ⟨row, .head _, opens⟩
          · rcases ih later with ⟨other, mem, opened⟩
            exact ⟨other, .tail _ mem, opened⟩

theorem seqs_sublist (rows : List Row) :
    ((episodesOf rows).map Episode.seq).Sublist (rows.map Row.seq) := by
  induction rows with
  | nil => exact .slnil
  | cons row rest ih =>
      rw [episodesOf]
      cases openedBy row with
      | none => exact ih.cons _
      | some key => exact ih.cons_cons _

theorem planIndex_counts [Host] {rows : List Row} (sealed_ : ∀ row ∈ rows, Sealed row.content)
    {index : List (PlanEntry × Double)} (read : planIndex rows = .ok index) (key : PlanKey) :
    Kept ⟨index.map Prod.fst, none⟩ ∧
    countedN key (index.map Prod.fst) =
      (episodesOf rows).countP (fun episode => episode.key.same key) ∧
    countedK key (index.map Prod.fst) =
      (episodesOf rows).countP (fun episode => episode.key.same key && episode.succeeded) := by
  rcases of_bind read with ⟨last, ran, same⟩
  have start : Kept ⟨[], none⟩ :=
    ⟨List.forall_mem_nil _, List.nodup_nil,
      List.forall_mem_nil _,
      List.forall_mem_nil _, nofun⟩
  rcases totals_fold start (fun row mem key => plain_of_sealed (sealed_ row mem)) ran key with
    ⟨kept, n, k⟩
  have perm : (index.map Prod.fst).Perm last.entries := by
    rw [← Except.ok.inj same, List.map_map]
    exact (List.map_id _).symm ▸ List.perm_insertionSort _ _
  have sums : ∀ size, Tally.sumWhere (fun entry => entry.key.same key) size (index.map Prod.fst) =
      Tally.sumWhere (fun entry => entry.key.same key) size last.entries :=
    fun size => ((perm.filter _).map size).sum_eq
  refine ⟨⟨fun entry mem => kept.plain entry (perm.mem_iff.mp mem),
    (perm.map PlanEntry.key).nodup_iff.mpr kept.apart,
    fun entry mem => kept.counted entry (perm.mem_iff.mp mem),
    fun entry mem => kept.seeded entry (perm.mem_iff.mp mem), nofun⟩, ?_, ?_⟩
  · rw [countedN, sums]
    exact n.trans (Nat.zero_add _)
  · rw [countedK, sums]
    exact k.trans (Nat.zero_add _)

end Board
end PhysicalHarness
