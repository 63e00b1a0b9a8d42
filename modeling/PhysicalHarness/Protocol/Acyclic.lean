import PhysicalHarness.Lib.Finishing
import PhysicalHarness.Protocol.Ancestors

namespace PhysicalHarness
namespace Protocol

open Python Finishing
open Relation (TransGen)

/-!
# The walk as a cycle test

The memo table lists the nodes in the order in which their walks were over.  A walk that reports
nothing never came back to a node on its path, so this order puts every node after its
dependencies: the edges have a rank, and the sets in the table are complete.  A graph without
cycles and unknown nodes has a rank from the start, so the walk reports nothing about it,
whatever node it begins with.
-/

section

variable [Host]

/-! ## A walk that reports nothing -/

/-- The walk from one memo to another leaves the table in finishing order, with known nodes only,
if it reports nothing. -/
structure Finishes (nodes : Dict String Node) (memo memo' : Walk) : Prop where
  silent : memo'.problems = [] → memo.problems = []
  grows : ∀ nid ∈ memo.anc.keys, nid ∈ memo'.anc.keys
  order : memo'.problems = [] → Finished (afterOf nodes) memo.anc.keys →
    Finished (afterOf nodes) memo'.anc.keys
  known : memo'.problems = [] → (∀ nid ∈ memo.anc.keys, ∀ a ∈ afterOf nodes nid, a ∈ nodes.keys) →
    ∀ nid ∈ memo'.anc.keys, ∀ a ∈ afterOf nodes nid, a ∈ nodes.keys

omit [Host] in
theorem finishes_refl (nodes : Dict String Node) (memo : Walk) : Finishes nodes memo memo :=
  ⟨id, fun _ => id, fun _ => id, fun _ => id⟩

variable {nodes : Dict String Node}

omit [Host] in
theorem Finishes.trans {first second third : Walk} (left : Finishes nodes first second)
    (right : Finishes nodes second third) :
    Finishes nodes first third where
  silent := fun empty => left.silent (right.silent empty)
  grows := fun nid held => right.grows nid (left.grows nid held)
  order := fun empty finished => right.order empty (left.order (right.silent empty) finished)
  known := fun empty held => right.known empty (left.known (right.silent empty) held)

omit [Host] in
theorem report_ne_nil (memo : Walk) (problem : String) : (memo.report problem).problems ≠ [] :=
  List.append_ne_nil_of_right_ne_nil _ (List.cons_ne_nil _ _)

omit [Host] in
theorem finishes_report (nodes : Dict String Node) (memo : Walk) (problem : String) :
    Finishes nodes memo (memo.report problem) where
  silent := fun empty => absurd empty (report_ne_nil memo problem)
  grows := fun _ held => held
  order := fun empty => absurd empty (report_ne_nil memo problem)
  known := fun empty => absurd empty (report_ne_nil memo problem)

omit [Host] in
theorem finishes_set {memo : Walk} {nid : String} (out : List String)
    (below : memo.problems = [] → ∀ a ∈ afterOf nodes nid, a ∈ nodes.keys ∧ a ∈ memo.anc.keys) :
    Finishes nodes memo { memo with anc := memo.anc.set nid out } := by
  have mem : ∀ other, other ∈ (memo.anc.set nid out).keys ↔ other = nid ∨ other ∈ memo.anc.keys :=
    fun other => Dict.mem_keys_set memo.anc nid other out
  refine ⟨id, fun other held => (mem other).mpr (Or.inr held), ?_, ?_⟩
  · intro empty finished
    by_cases old : nid ∈ memo.anc.keys
    · have same : (memo.anc.set nid out).keys = memo.anc.keys := Assoc.keys_set_of_mem old out
      change Finished (afterOf nodes) (memo.anc.set nid out).keys
      rw [same]
      exact finished
    · change Finished (afterOf nodes) (memo.anc.set nid out).keys
      rw [Dict.keys_set_of_not_mem old]
      exact finished.snoc (fun a edge => (below empty a edge).2)
  · intro empty held other recorded a edge
    rcases (mem other).mp recorded with same | earlier
    · subst same
      exact (below empty a edge).1
    · exact held other earlier a edge

theorem visitAfter_finishes {next : String → Walk → Option (List String × Walk)} {nid : String}
    (each : ∀ a memo more memo', a ∈ nodes.keys → next a memo = some (more, memo') →
      Finishes nodes memo memo' ∧ (memo'.problems = [] → a ∈ memo'.anc.keys))
    (after out : List String) (memo : Walk) {out' : List String} {memo' : Walk}
    (found : visitAfter nodes next nid after out memo = some (out', memo')) :
    Finishes nodes memo memo' ∧
      (memo'.problems = [] → ∀ a ∈ after, a ∈ nodes.keys ∧ a ∈ memo'.anc.keys) := by
  induction after generalizing out memo with
  | nil =>
      cases found
      refine ⟨finishes_refl nodes _, ?_⟩
      intro _ a never
      cases never
  | cons a rest ih =>
      rcases visitAfter_cons found with ⟨known, more, between, step, went⟩ | ⟨_, went⟩
      · rcases each a memo more between known step with ⟨here, recorded⟩
        rcases ih _ between went with ⟨later, others⟩
        refine ⟨here.trans later, ?_⟩
        intro empty b mem
        rcases List.mem_cons.mp mem with same | deeper
        · subst same
          exact ⟨known, later.grows b (recorded (later.silent empty))⟩
        · exact others empty b deeper
      · rcases ih _ _ went with ⟨later, _⟩
        have here := finishes_report nodes memo (unknownAfter nid a)
        refine ⟨here.trans later, ?_⟩
        intro empty
        exact absurd (later.silent empty) (report_ne_nil memo _)

theorem walk_finishes (fuel : Nat) (nid : String) (path : List String) (memo : Walk)
    {out : List String} {memo' : Walk} (found : walk nodes fuel nid path memo = some (out, memo')) :
    Finishes nodes memo memo' ∧ (memo'.problems = [] → nid ∈ memo'.anc.keys) := by
  induction fuel generalizing nid path memo out memo' with
  | zero => cases found
  | succ fuel ih =>
      cases walked_of_walk found with
      | cached recorded => exact ⟨finishes_refl nodes memo, fun _ => Dict.mem_keys_of_get? recorded⟩
      | cycle _ =>
          refine ⟨finishes_report nodes memo _, ?_⟩
          intro empty
          exact absurd empty (report_ne_nil memo _)
      | visit went =>
          rcases visitAfter_finishes (fun a memo more memo' _ => ih a (path ++ [nid]) memo)
            (afterOf nodes nid) [] memo went with ⟨earlier, below⟩
          refine ⟨earlier.trans (finishes_set _ below), ?_⟩
          intro _
          exact (Dict.mem_keys_set _ _ _ _).mpr (Or.inl rfl)

theorem walkAll_finishes (ids : List String) (memo : Walk) {memo' : Walk}
    (found : walkAll nodes ids memo = some memo') :
    Finishes nodes memo memo' ∧ (memo'.problems = [] → ∀ nid ∈ ids, nid ∈ memo'.anc.keys) := by
  induction ids generalizing memo with
  | nil =>
      cases found
      refine ⟨finishes_refl nodes _, ?_⟩
      intro _ nid never
      cases never
  | cons nid rest ih =>
      rcases walkAll_cons found with ⟨out, between, step, went⟩
      rcases walk_finishes _ nid [] memo step with ⟨here, recorded⟩
      rcases ih between went with ⟨later, others⟩
      refine ⟨here.trans later, ?_⟩
      intro empty other mem
      rcases List.mem_cons.mp mem with same | deeper
      · subst same
        exact later.grows other (recorded (later.silent empty))
      · exact others empty other deeper

omit [Host] in
theorem mem_keys_of_edge {a b : String} (edge : Edge nodes a b) :
    b ∈ nodes.keys := by
  by_contra unknown
  rw [Edge, afterOf, (Dict.get?_eq_none_iff _ _).mpr unknown] at edge
  cases edge

theorem ranked_of_silent (silent : (ancestors nodes).problems = []) :
    Ranked nodes (fun nid => (ancestors nodes).anc.keys.idxOf nid) := by
  rcases walkAll_finishes nodes.keys Walk.start (walkAll_eq_ancestors nodes) with ⟨finishes, recorded⟩
  have order : Finished (afterOf nodes) (ancestors nodes).anc.keys :=
    finishes.order silent (finished_nil _)
  have known := finishes.known silent (List.forall_mem_nil _)
  constructor
  · intro nid mem
    exact known nid (recorded silent nid mem)
  · intro nid mem a edge
    exact order.idxOf_lt (recorded silent nid mem) edge

omit [Host] in
theorem exists_ranked (known : ∀ nid ∈ nodes.keys, ∀ a ∈ afterOf nodes nid, a ∈ nodes.keys)
    (acyclic : ∀ nid, ¬ TransGen (Edge nodes) nid nid) : ∃ rank, Ranked nodes rank := by
  rcases exists_rank (fun a b edge => known b (mem_keys_of_edge edge) a edge) acyclic with ⟨rank, lower⟩
  exact ⟨rank, known, fun nid _ a edge => lower a nid edge⟩

/-- Nothing is reported exactly about the graphs whose dependencies are known and without a
cycle. -/
theorem silent_iff (nodes : Dict String Node) :
    (ancestors nodes).problems = [] ↔
      (∀ nid ∈ nodes.keys, ∀ a ∈ afterOf nodes nid, a ∈ nodes.keys) ∧
        ∀ nid, ¬ TransGen (Edge nodes) nid nid := by
  constructor
  · intro silent
    have ranked := ranked_of_silent silent
    refine ⟨ranked.known, ?_⟩
    apply acyclic_of_rank
    intro a b edge
    exact ranked.lower b (mem_keys_of_edge edge) a edge
  · rintro ⟨known, acyclic⟩
    rcases exists_ranked known acyclic with ⟨rank, ranked⟩
    exact ancestors_clean ranked

theorem recorded_of_silent (silent : (ancestors nodes).problems = []) {nid : String}
    (known : nid ∈ nodes.keys) : ∃ out, (ancestors nodes).anc.get? nid = some out ∧
      ∀ a, a ∈ out ↔ TransGen (Edge nodes) a nid := by
  rcases walkAll_finishes nodes.keys Walk.start (walkAll_eq_ancestors nodes) with ⟨_, recorded⟩
  rcases Dict.get?_of_mem_keys (recorded silent nid known) with ⟨out, found⟩
  refine ⟨out, found, ?_⟩
  intro a
  rw [← before_iff_transGen (ranked_of_silent silent), before, found, Option.getD_some,
    List.contains_iff_mem]

/-- `_ancestors` returns for every node map.  It reports nothing exactly when every dependency is
a node and no node leads to itself, and then its sets are the strict transitive predecessors. -/
theorem ancestors_exact (nodes : Dict String Node) :
    walkAll nodes nodes.keys Walk.start = some (ancestors nodes) ∧
      ((ancestors nodes).problems = [] ↔
        (∀ nid ∈ nodes.keys, ∀ a ∈ afterOf nodes nid, a ∈ nodes.keys) ∧
          ∀ nid, ¬ TransGen (Edge nodes) nid nid) ∧
      ((ancestors nodes).problems = [] → ∀ nid ∈ nodes.keys,
        ∃ out, (ancestors nodes).anc.get? nid = some out ∧
          ∀ a, a ∈ out ↔ TransGen (Edge nodes) a nid) :=
  ⟨walkAll_eq_ancestors nodes, silent_iff nodes, fun silent _ known => recorded_of_silent silent known⟩

end

section

local instance diamondHost : Host := asciiHost

private def named (id : String) (after : List String) : Node where
  id := id
  task := .str "main"
  skill := .str id
  args := []
  after := after
  onFail := []
  executor := .null
  kind := .str "manipulate"

/-- A shared base, listed last. -/
private def diamond : Dict String Node :=
  (indexNodes [named "top" ["left", "right"], named "left" ["base"], named "right" ["base"],
    named "base" []] Dict.empty).1

/-- The top of a diamond comes after both sides and the base. -/
theorem ancestors_exact_diamond : (ancestors diamond).problems = [] ∧
    ∃ out, (ancestors diamond).anc.get? "top" = some out ∧
      ∀ a, a ∈ out ↔ TransGen (Edge diamond) a "top" := by
  have silent : (ancestors diamond).problems = [] := by decide +kernel
  exact ⟨silent, (ancestors_exact diamond).2.2 silent "top" (by decide)⟩

/-- Two nodes that wait for each other are reported. -/
example : (ancestors (indexNodes [named "left" ["right"], named "right" ["left"]] Dict.empty).1).problems =
    ["cycle through 'left'"] := by decide +kernel

end

end Protocol
end PhysicalHarness
