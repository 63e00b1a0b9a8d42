import PhysicalHarness.Task.Ledger
import PhysicalHarness.Task.Totality

namespace PhysicalHarness
namespace Task

open Python Protocol Fallible

/-!
# A plan against its own progress

A segment that is retried as it is comes back to the gates with the first part of its own
nodes as the finished work.  Both routes to a graph give these nodes the same identity.  They
differ in a node's `on_fail`: the plan's route replaces a false one by an empty dict, and the
ledger's route converts what the node has.
-/

/-- The values that `dict(...)` iterates over. -/
def Iterable : Json → Prop
  | .obj _ => True
  | .arr _ => True
  | .str _ => True
  | _ => False

/-- The node has no `on_fail`, or one to iterate over. -/
def OnFailIterable (node : Json) : Prop := ∀ value, node.get? "on_fail" = some value → Iterable value

theorem iterable_of_pyDict {value : Json} (built : Returns (pyDict value)) : Iterable value := by
  rcases built with ⟨pairs, done⟩
  cases value with
  | obj => trivial
  | arr => trivial
  | str => trivial
  | _ => cases done

theorem returns_pyDict_of_falsy {value : Json} (falsy : value.truthy = false) :
    Returns (pyDict value) ↔ Iterable value := by
  cases value with
  | str text =>
      have empty : text = "" := by
        by_contra other
        rw [Json.truthy, decide_eq_true other] at falsy
        cases falsy
      rw [empty]
      exact ⟨fun _ => trivial, fun _ => ⟨[], rfl⟩⟩
  | arr items =>
      cases items with
      | nil => exact ⟨fun _ => trivial, fun _ => ⟨[], rfl⟩⟩
      | cons _ _ => cases falsy
  | obj fields => exact ⟨fun _ => trivial, fun _ => ⟨_, rfl⟩⟩
  | _ => exact ⟨iterable_of_pyDict, False.elim⟩

theorem returns_onFail_iff {node : Json} (lifted : Returns (onFailOf node)) :
    Returns (pyDict (node.getD "on_fail" (.obj []))) ↔ OnFailIterable node := by
  cases held : node.get? "on_fail" with
  | none =>
      have nothing : OnFailIterable node := by
        intro value same
        rw [held] at same
        cases same
      rw [Json.getD, held]
      exact ⟨fun _ => nothing, fun _ => ⟨[], rfl⟩⟩
  | some value =>
      have only : OnFailIterable node ↔ Iterable value := by
        rw [OnFailIterable, held]
        constructor
        · intro each
          exact each value rfl
        · rintro iterable other same
          cases same
          exact iterable
      rw [Json.getD, held, Option.getD_some, only]
      rw [onFailOf, Json.getD, held, Option.getD_some] at lifted
      cases truth : value.truthy with
      | false => exact returns_pyDict_of_falsy truth
      | true =>
          rw [truth, if_pos rfl] at lifted
          exact ⟨iterable_of_pyDict, fun _ => lifted⟩

section

variable [Host]

/-- Both gates accept the plan again when any number of its nodes are finished. -/
def Resumes (config : Config) (plan : Json) : Prop :=
  ∀ k, validatePlan plan config.catalogue config.oracles
      (((planNodes plan).take k).map (doneSpec plan)) config.requirements = .ok (true, "") ∧
    graphProblems config plan (some plan) (((planNodes plan).take k).map PlanNode.id) = .ok []

variable {config : Config} {plan : Json} {requirements : List (String × Json)} {done : List Json}

theorem Accepted.converts (accepted : Accepted plan config.catalogue config.oracles done requirements) :
    Converts plan := by
  have typed := accepted.typed
  rw [checkTyped] at typed
  rcases Gate.lift_bind_eq_ok.mp typed with ⟨verdict, judged, _⟩
  exact ((returns_judgeTyped_iff accepted.reads accepted.nodes).mp ⟨verdict, judged⟩).1

theorem ledgerEntry_of_mem (accepted : Accepted plan config.catalogue config.oracles done requirements)
    {k : Nat} : ∀ entry ∈ ((planNodes plan).take k).map (doneSpec plan), LedgerEntry entry := by
  rw [List.forall_mem_map]
  intro view mem
  exact ⟨plan, _, _, _, _, accepted, view, List.take_subset _ _ mem, rfl⟩

omit [Host] in
theorem ledgerOnFail_doneSpec (view : PlanNode) :
    ledgerOnFail (doneSpec plan view) = pyDict (view.raw.getD "on_fail" (.obj [])) := by
  rw [ledgerOnFail, Json.getD, get?_doneSpec]
  simp [Json.getD]

/-- The graph of the ledger is built exactly when every finished node has an `on_fail` to
iterate over. -/
theorem returns_ownLedger_iff
    (accepted : Accepted plan config.catalogue config.oracles done requirements) (k : Nat) :
    Returns (ledgerGraph (plan.getD "goal" .null) (((planNodes plan).take k).map (doneSpec plan))) ↔
      ∀ view ∈ (planNodes plan).take k, OnFailIterable view.raw := by
  rw [returns_ledgerGraph_iff (ledgerEntry_of_mem accepted), List.forall_mem_map]
  refine forall₂_congr (fun view mem => ?_)
  rcases List.mem_map.mp (List.take_subset _ _ mem) with ⟨node, listed, rfl⟩
  rw [ledgerOnFail_doneSpec]
  exact returns_onFail_iff (accepted.converts.onFail node listed)

/-- The finished nodes with the plan that they were dispatched for. -/
def ownWork (plan : Json) (k : Nat) : List (Json × PlanNode) :=
  ((planNodes plan).take k).map (fun view => (plan, view))

omit [Host] in
theorem ownWork_front (plan : Json) (k : Nat) :
    (ownWork plan k).map Prod.snd = (planNodes plan).take (ownWork plan k).length := by
  rw [ownWork, List.map_map, List.length_map, List.length_take, List.take_eq_take_min]
  exact List.map_id _

theorem ownWork_reads (accepted : Accepted plan config.catalogue config.oracles done requirements)
    (k : Nat) : ∀ entry ∈ ownWork plan k, ReadExactly entry.2 := by
  rw [ownWork, List.forall_mem_map]
  intro view mem
  exact accepted.nodeReads (List.take_subset _ _ mem)

omit [Host] in
theorem ownWork_lifts {k : Nat} {graph : ExecutionGraph}
    (lifts : List.Forall₂ (Lifts plan) (planNodes plan) graph.nodes) :
    List.Forall₂ (fun entry node => ∃ source, labelOf source = labelOf plan ∧
      Lifts source entry.2 node) (ownWork plan k) (graph.nodes.take (ownWork plan k).length) := by
  have length : (ownWork plan k).length = min k (planNodes plan).length := by
    rw [ownWork, List.length_map, List.length_take]
  rw [length, ownWork, List.forall₂_map_left_iff, List.take_eq_take_min]
  exact (List.forall₂_take _ lifts).imp (fun _ _ here => ⟨plan, rfl, here⟩)

theorem ownWork_distinct
    (accepted : Accepted plan config.catalogue config.oracles done requirements) (k : Nat) :
    ((ownWork plan k).map (fun entry => entry.2.id)).Nodup := by
  have ids : (ownWork plan k).map (fun entry => entry.2.id) =
      ((planNodes plan).map PlanNode.id).take k := by
    rw [ownWork, List.map_map, ← List.map_take]
    rfl
  rw [ids]
  exact accepted.inOrder.distinct.sublist (List.take_sublist _ _)

theorem checkLedger_own_iff
    (accepted : Accepted plan config.catalogue config.oracles [] requirements) (k : Nat) :
    checkLedger (((planNodes plan).take k).map (doneSpec plan)) plan = .ok () ↔
      ∀ view ∈ (planNodes plan).take k, OnFailIterable view.raw := by
  rw [← returns_ownLedger_iff accepted k, checkLedger]
  by_cases empty : ((planNodes plan).take k).map (doneSpec plan) = []
  · rw [if_neg (not_not.mpr empty), empty]
    have nothing : ∀ entry ∈ ([] : List Json), LedgerEntry entry ∧ Returns (ledgerOnFail entry) :=
      List.forall_mem_nil _
    exact ⟨fun _ => (returns_ledgerGraph_iff (fun entry mem => (nothing entry mem).1) _).mpr
      (fun entry mem => (nothing entry mem).2), fun _ => rfl⟩
  rw [if_pos empty]
  have specs : (ownWork plan k).map (fun entry => doneSpec entry.1 entry.2) =
      ((planNodes plan).take k).map (doneSpec plan) := by
    rw [ownWork, List.map_map]
    rfl
  constructor
  · intro passed
    rcases Gate.lift_bind_eq_ok.mp passed with ⟨verdict, judged, _⟩
    rw [judgeLedger] at judged
    rcases of_bind judged with ⟨new, _, judged⟩
    rcases of_bind judged with ⟨ids, _, judged⟩
    rcases of_bind judged with ⟨old, built, _⟩
    exact ⟨old, built⟩
  · rintro ⟨old, built⟩
    rcases (returns_planToGraph_iff accepted.reads).mpr
      ⟨accepted.converts.onFail, accepted.converts.seed⟩ with ⟨new, lifted⟩
    have ids := ids_of_ledger (ownWork_reads accepted k)
    rw [specs] at ids
    have oldLifts := lifts_of_ledgerGraph (ownWork_reads accepted k) (specs.symm ▸ built)
    have newLifts := lifts_of_planToGraph accepted.reads lifted
    have oldFront : List.Forall₂ (fun entry node => ∃ source, labelOf source = labelOf plan ∧
        Lifts source entry.2 node) (ownWork plan k) (old.nodes.take (ownWork plan k).length) := by
      rw [List.take_of_length_le oldLifts.length_eq.ge]
      rw [ownWork, List.forall₂_map_left_iff] at oldLifts ⊢
      exact oldLifts.imp (fun _ _ here => ⟨plan, rfl, here⟩)
    have distinct : (old.nodes.map Node.id).Nodup := by
      rw [map_eq_of_forall₂ oldLifts (fun _ _ here => here.id)]
      exact ownWork_distinct accepted k
    have clean : (replanMonotone old new ((ownWork plan k).map (fun entry => entry.2.id))).2 = [] :=
      monotone_of_lifts accepted.inOrder newLifts (ownWork_front plan k) oldFront distinct rfl
    have verdict := (replanMonotone_fst old new _).mpr clean
    apply Gate.lift_bind_eq_ok.mpr
    refine ⟨_, ?_, Gate.require_eq_ok_iff.mpr verdict⟩
    rw [judgeLedger, lifted, bind_ok, ids, bind_ok, built]
    rfl

theorem graphProblems_own (accepted : Accepted plan config.catalogue config.oracles done requirements)
    (legal : graphProblems config plan none [] = .ok []) (k : Nat) :
    graphProblems config plan (some plan) (((planNodes plan).take k).map PlanNode.id) = .ok [] := by
  rcases of_bind legal with ⟨graph, built, legal⟩
  have lifts := lifts_of_seeded accepted.reads built
  have distinct : (graph.nodes.map Node.id).Nodup := (inOrder_of_lifts lifts accepted.inOrder).distinct
  have ids : ((planNodes plan).take k).map PlanNode.id =
      (ownWork plan k).map (fun entry => entry.2.id) := by
    rw [ownWork, List.map_map]
    rfl
  have clean := monotone_of_lifts accepted.inOrder lifts (ownWork_front plan k) (ownWork_lifts lifts)
    distinct ids
  rcases of_bind legal with ⟨monotone, none_, legal⟩
  cases none_
  rcases of_bind legal with ⟨verdict, judged, legal⟩
  rw [graphProblems, built, bind_ok]
  dsimp only
  rw [built, bind_ok, clean]
  exact bind_eq_ok.mpr ⟨[], rfl, bind_eq_ok.mpr ⟨verdict, judged, legal⟩⟩

/-- A plan that both gates accept resumes its own progress exactly when every node has an
`on_fail` to iterate over, or none. -/
theorem resumes_iff (accepts : validatePlan plan config.catalogue config.oracles []
      config.requirements = .ok (true, ""))
    (legal : graphProblems config plan none [] = .ok []) :
    Resumes config plan ↔ ∀ node ∈ nodesOf plan, OnFailIterable node := by
  have accepted := (validatePlan_accepts_iff.mp accepts).1
  have views : (∀ node ∈ nodesOf plan, OnFailIterable node) ↔
      ∀ view ∈ planNodes plan, OnFailIterable view.raw := by
    rw [planNodes, List.forall_mem_map]
    rfl
  rw [views]
  constructor
  · intro resumes
    have again := (validatePlan_accepts_iff.mp (resumes (planNodes plan).length).1).1.ledger
    have each := (checkLedger_own_iff accepted _).mp again
    rw [List.take_length] at each
    exact each
  · intro iterable k
    have ledger := (checkLedger_own_iff accepted k).mpr
      (fun view member => iterable view (List.take_subset _ _ member))
    refine ⟨validatePlan_accepts_iff.mpr ⟨?_, rfl⟩, graphProblems_own accepted legal k⟩
    exact ⟨accepted.shape, accepted.nodes, accepted.typed, accepted.verify, accepted.covered,
      accepted.required, ledger⟩

end

section

local instance retryHost : Host := asciiHost

/-- One pick, with an `on_fail` or without. -/
def pickOnce (onFail : List (String × Json)) : Json :=
  .obj [("goal", .str "tidy"),
    ("nodes", .arr [.obj ([("id", .str "pick"), ("skill", .str "pick"), ("args", .obj []),
      ("after", .arr [])] ++ onFail)]),
    ("verify", .arr [.obj [("after", .str "pick"), ("predicate", .str "held")]])]

def pickConfig : Config where
  catalogue := [("pick", [])]
  oracles := ["held"]
  requirements := []
  records := []
  facts := []
  objects := []
  graph := .null
  seed := 0
  maxReplans := 1
  maxActuations := 4
  segmentRetries := 1

theorem resumes_pickOnce : Resumes pickConfig (pickOnce [("on_fail", .obj [])]) := by
  apply (resumes_iff (by decide +kernel) (by decide +kernel)).mpr
  intro node member value held
  rw [List.mem_singleton.mp member] at held
  cases held
  trivial

/-- An `on_fail` of null is accepted, and the finished pick makes the gate raise. -/
theorem null_onFail_raises :
    validatePlan (pickOnce [("on_fail", .null)]) pickConfig.catalogue pickConfig.oracles []
      pickConfig.requirements = .ok (true, "") ∧
    graphProblems pickConfig (pickOnce [("on_fail", .null)]) none [] = .ok [] ∧
    validatePlan (pickOnce [("on_fail", .null)]) pickConfig.catalogue pickConfig.oracles
      (((planNodes (pickOnce [("on_fail", .null)])).take 1).map (doneSpec (pickOnce [("on_fail", .null)])))
      pickConfig.requirements = .error .typeError ∧
    ¬ Resumes pickConfig (pickOnce [("on_fail", .null)]) := by
  have raises : validatePlan (pickOnce [("on_fail", .null)]) pickConfig.catalogue pickConfig.oracles
      (((planNodes (pickOnce [("on_fail", .null)])).take 1).map (doneSpec (pickOnce [("on_fail", .null)])))
      pickConfig.requirements = .error .typeError := by
    decide +kernel
  refine ⟨by decide +kernel, by decide +kernel, raises, ?_⟩
  intro resumes
  have again := (resumes 1).1
  rw [raises] at again
  cases again

end

end Task
end PhysicalHarness
