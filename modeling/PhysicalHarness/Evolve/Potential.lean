import Mathlib.Data.List.Dedup
import PhysicalHarness.Evolve.Suite
import PhysicalHarness.Lib.Paired

namespace PhysicalHarness
namespace Evolve

open Python

/-!
# Acceptance is progress

The gains and the regressions of two suites are lists of names over the union of what the
rows have.  Their difference is the difference of the milestones that the two suites
pass, so an accepted suite passes more than the one it is compared with.
-/

/-- The milestones that a row passes: `sum(milestones(row).values())`. -/
def Row.passes (row : Row) : Nat := (milestones row).countP Prod.snd

theorem nodup_milestones (row : Row) : (Assoc.keys (milestones row)).Nodup := by
  apply Assoc.nodup_keys_set
  have kept : ∀ (nodes : List Node) (marks : List (String × Bool)), (Assoc.keys marks).Nodup →
      (Assoc.keys (nodes.foldl
        (fun marks node => Assoc.set marks node.id (node.ok == some true)) marks)).Nodup := by
    intro nodes
    induction nodes with
    | nil => exact fun _ unique => unique
    | cons node rest ih => exact fun marks unique => ih _ (Assoc.nodup_keys_set unique node.id _)
  exact kept row.counted [] List.nodup_nil

theorem mem_keys_of_passed {marks : List (String × Bool)} {name : String}
    (passes : passed marks name = true) : name ∈ Assoc.keys marks := by
  cases found : Assoc.get? marks name with
  | none =>
      rw [passed, found] at passes
      cases passes
  | some _ => exact Assoc.mem_keys_of_get? found

theorem countP_keys {marks : List (String × Bool)} (unique : (Assoc.keys marks).Nodup) :
    (Assoc.keys marks).countP (passed marks) = marks.countP Prod.snd := by
  rw [Assoc.keys, List.countP_map]
  apply List.countP_congr
  intro entry mem
  rw [Function.comp_apply, passed, Assoc.get?_of_mem unique mem, Option.getD_some]

theorem Row.passes_eq {row : Row} {names : List String} (unique : names.Nodup)
    (listed : ∀ name ∈ Assoc.keys (milestones row), name ∈ names) :
    row.passes = names.countP (passed (milestones row)) := by
  rw [Row.passes, ← countP_keys (nodup_milestones row)]
  apply Paired.countP_of_mem_iff (nodup_milestones row) unique
  intro name passes
  exact ⟨listed name, fun _ => mem_keys_of_passed passes⟩

theorem passes_missing : (Row.mk [] false).passes = 0 := rfl

theorem length_newly (lost won : Row) :
    (newly lost won).length =
      ((Assoc.keys (milestones lost) ++ Assoc.keys (milestones won)).dedup).countP
        (fun name => passed (milestones won) name && !passed (milestones lost) name) := by
  rw [newly, ← List.countP_eq_length_filter]
  exact (List.perm_insertionSort _ _).countP_eq _

theorem length_newly_add (lost won : Row) :
    (newly lost won).length + lost.passes = (newly won lost).length + won.passes := by
  have swapped : ((Assoc.keys (milestones won) ++ Assoc.keys (milestones lost)).dedup).countP
        (fun name => passed (milestones lost) name && !passed (milestones won) name) =
      ((Assoc.keys (milestones lost) ++ Assoc.keys (milestones won)).dedup).countP
        (fun name => passed (milestones lost) name && !passed (milestones won) name) :=
    (List.Perm.dedup List.perm_append_comm).countP_eq _
  have ofLost : ∀ name ∈ Assoc.keys (milestones lost),
      name ∈ (Assoc.keys (milestones lost) ++ Assoc.keys (milestones won)).dedup :=
    fun name mem => List.mem_dedup.mpr (List.mem_append_left _ mem)
  have ofWon : ∀ name ∈ Assoc.keys (milestones won),
      name ∈ (Assoc.keys (milestones lost) ++ Assoc.keys (milestones won)).dedup :=
    fun name mem => List.mem_dedup.mpr (List.mem_append_right _ mem)
  rw [length_newly, length_newly, swapped, Row.passes_eq (List.nodup_dedup _) ofLost,
    Row.passes_eq (List.nodup_dedup _) ofWon]
  exact Paired.countP_gained _ _ _

/-! ## A suite -/

/-- The milestones that a suite passes. -/
def Suite.passes (suite : Suite) : Nat := (suite.map (fun entry => entry.2.passes)).sum

/-- The rows of the second suite are of seeds of the first; some may be missing. -/
structure SameSeeds (before after : Suite) : Prop where
  unique : (Assoc.keys before).Nodup
  uniqueAfter : (Assoc.keys after).Nodup
  listed : ∀ seed ∈ Assoc.keys after, seed ∈ Assoc.keys before

theorem SameSeeds.refl {suite : Suite} (unique : (Assoc.keys suite).Nodup) : SameSeeds suite suite :=
  ⟨unique, unique, fun _ mem => mem⟩

theorem SameSeeds.trans {first second third : Suite} (left : SameSeeds first second)
    (right : SameSeeds second third) : SameSeeds first third :=
  ⟨left.unique, right.uniqueAfter, fun seed mem => left.listed seed (right.listed seed mem)⟩

variable {before after : Suite}

theorem SameSeeds.sum_rowOf (same : SameSeeds before after) {weigh : Row → Nat}
    (nothing : weigh ⟨[], false⟩ = 0) :
    (before.map (fun entry => weigh (rowOf after entry.1))).sum =
      (after.map (fun entry => weigh entry.2)).sum := by
  have seeds : before.map (fun entry => weigh (rowOf after entry.1)) =
      (Assoc.keys before).map (fun seed => weigh ((Assoc.get? after seed).getD ⟨[], false⟩)) := by
    rw [Assoc.keys, List.map_map]
    rfl
  rw [seeds]
  exact Paired.sum_get?_of_subset same.uniqueAfter same.unique same.listed
    (fun row => weigh (row.getD ⟨[], false⟩)) nothing

theorem length_filter_eq_sum {α : Type} (keep : α → Bool) (items : List α) :
    (items.filter keep).length = (items.map (fun item => (keep item).toNat)).sum := by
  induction items with
  | nil => rfl
  | cons item rest ih =>
      rw [List.map_cons, List.sum_cons, ← ih]
      cases kept : keep item with
      | true => simp [List.filter_cons_of_pos kept, Nat.add_comm]
      | false => simp [List.filter_cons_of_neg (Bool.eq_false_iff.mp kept)]

theorem Suite.count_eq_sum (suite : Suite) :
    suite.count = (suite.map (fun entry => entry.2.success.toNat)).sum :=
  length_filter_eq_sum _ _

theorem SameSeeds.completed (same : SameSeeds before after) :
    (compare before after).before = before.count ∧ (compare before after).after = after.count := by
  refine ⟨rfl, ?_⟩
  have kept : (compare before after).after =
      (before.map (fun entry => (rowOf after entry.1).success.toNat)).sum :=
    length_filter_eq_sum _ _
  rw [kept, Suite.count_eq_sum]
  exact @SameSeeds.sum_rowOf before after same (fun row => row.success.toNat) rfl

theorem sum_newly_add (before after : Suite) :
    (before.flatMap (fun entry => (newly entry.2 (rowOf after entry.1)).map
        (fun name => (entry.1, name)))).length + before.passes =
      (before.flatMap (fun entry => (newly (rowOf after entry.1) entry.2).map
        (fun name => (entry.1, name)))).length +
      (before.map (fun entry => (rowOf after entry.1).passes)).sum := by
  rw [Suite.passes]
  have step : ∀ entries : Suite,
      (entries.flatMap (fun entry => (newly entry.2 (rowOf after entry.1)).map
          (fun name => (entry.1, name)))).length + (entries.map (fun entry => entry.2.passes)).sum =
        (entries.flatMap (fun entry => (newly (rowOf after entry.1) entry.2).map
          (fun name => (entry.1, name)))).length +
        (entries.map (fun entry => (rowOf after entry.1).passes)).sum := by
    intro entries
    induction entries with
    | nil => rfl
    | cons entry rest ih =>
        have here := length_newly_add entry.2 (rowOf after entry.1)
        simp only [List.flatMap_cons, List.length_append, List.length_map, List.map_cons,
          List.sum_cons]
        omega
  exact step before

theorem SameSeeds.gains (same : SameSeeds before after) :
    (compare before after).gains.length + before.passes =
      (compare before after).regressions.length + after.passes := by
  have total := sum_newly_add before after
  have rows := @SameSeeds.sum_rowOf before after same Row.passes passes_missing
  rw [rows] at total
  exact total

/-- The verdict of `compare`. -/
def Accepts (before after : Suite) : Prop := (compare before after).accepted = true

theorem SameSeeds.accepts_iff (same : SameSeeds before after) :
    Accepts before after ↔ before.passes < after.passes ∧ before.count ≤ after.count := by
  have gains := same.gains
  rcases same.completed with ⟨done, kept⟩
  have verdict : (compare before after).accepted =
      (decide ((compare before after).regressions.length < (compare before after).gains.length) &&
        decide ((compare before after).before ≤ (compare before after).after)) := rfl
  rw [Accepts, verdict, done, kept, Bool.and_eq_true, decide_eq_true_iff, decide_eq_true_iff]
  constructor
  · intro accepted
    exact ⟨by omega, accepted.2⟩
  · intro more
    exact ⟨by omega, more.2⟩

/-! ## Chains -/

/-- What was measured: which milestones the row of each seed passes. -/
def Suite.outcome (suite : Suite) (seed : Int) (name : String) : Bool :=
  passed (milestones (rowOf suite seed)) name

theorem newly_eq_nil {lost won : Row}
    (same : ∀ name, passed (milestones lost) name = passed (milestones won) name) :
    newly lost won = [] := by
  rw [newly, List.filter_eq_nil_iff]
  intro name _
  rw [same name]
  cases passed (milestones won) name <;> decide

theorem rowOf_of_mem {suite : Suite} (unique : (Assoc.keys suite).Nodup) {entry : Int × Row}
    (mem : entry ∈ suite) : rowOf suite entry.1 = entry.2 := by
  rw [rowOf, Assoc.get?_of_mem unique mem, Option.getD_some]

theorem SameSeeds.passes_of_outcome (same : SameSeeds before after)
    (outcome : before.outcome = after.outcome) : before.passes = after.passes := by
  have rows : ∀ entry ∈ before, ∀ name,
      passed (milestones entry.2) name = passed (milestones (rowOf after entry.1)) name := by
    intro entry mem name
    have here := congrFun (congrFun outcome entry.1) name
    rw [Suite.outcome, rowOf_of_mem same.unique mem] at here
    exact here
  have gains : (compare before after).gains = [] := by
    apply List.flatMap_eq_nil_iff.mpr
    intro entry mem
    rw [newly_eq_nil (rows entry mem), List.map_nil]
  have losses : (compare before after).regressions = [] := by
    apply List.flatMap_eq_nil_iff.mpr
    intro entry mem
    rw [newly_eq_nil (fun name => (rows entry mem name).symm), List.map_nil]
  have total := same.gains
  rw [gains, losses] at total
  simpa using total

/-- One suite after the other, each accepted against the one before. -/
def Succeeds (before after : Suite) : Prop := SameSeeds before after ∧ Accepts before after

structure Beyond (before after : Suite) : Prop where
  seeds : SameSeeds before after
  passes : before.passes < after.passes
  completes : before.count ≤ after.count
  outcome : before.outcome ≠ after.outcome

theorem beyond_of_succeeds (succeeds : Succeeds before after) :
    Beyond before after := by
  rcases succeeds with ⟨same, accepted⟩
  rcases same.accepts_iff.mp accepted with ⟨more, completes⟩
  exact ⟨same, more, completes, fun outcome => absurd (same.passes_of_outcome outcome) more.ne⟩

theorem Beyond.trans {first second third : Suite} (left : Beyond first second)
    (right : Beyond second third) : Beyond first third := by
  have same := left.seeds.trans right.seeds
  have more := left.passes.trans right.passes
  exact ⟨same, more, left.completes.trans right.completes,
    fun outcome => absurd (same.passes_of_outcome outcome) more.ne⟩

theorem Beyond.accepts (beyond : Beyond before after) : Accepts before after :=
  beyond.seeds.accepts_iff.mpr ⟨beyond.passes, beyond.completes⟩

theorem pairwise_of_chain {suites : List Suite} (chain : suites.IsChain Succeeds) :
    suites.Pairwise Beyond := by
  have beyond : suites.IsChain Beyond := chain.imp (fun _ _ => beyond_of_succeeds)
  have transitive : IsTrans Suite Beyond := ⟨fun _ _ _ => Beyond.trans⟩
  exact List.isChain_iff_pairwise.mp beyond

/-- Acceptance is a strict order on the suites of one set of seeds, with the number of passed
milestones as its measure. -/
theorem acceptance_is_progress :
    (∀ before after, SameSeeds before after →
      (Accepts before after ↔ before.passes < after.passes ∧ before.count ≤ after.count) ∧
      ((compare before after).gains.length : Int) - (compare before after).regressions.length =
        (after.passes : Int) - before.passes) ∧
    (∀ suite, (Assoc.keys suite).Nodup → ¬ Accepts suite suite) ∧
    (∀ first second third, Succeeds first second → Succeeds second third → Accepts first third) ∧
    (∀ suites : List Suite, suites.IsChain Succeeds → suites.Pairwise (fun earlier later =>
      earlier.passes < later.passes ∧ earlier.outcome ≠ later.outcome)) := by
  refine ⟨?_, ?_, ?_, ?_⟩
  · intro before after same
    have gains := same.gains
    exact ⟨same.accepts_iff, by omega⟩
  · intro suite unique accepted
    exact Nat.lt_irrefl _ ((SameSeeds.refl unique).accepts_iff.mp accepted).1
  · intro first second third left right
    exact ((beyond_of_succeeds left).trans (beyond_of_succeeds right)).accepts
  · intro suites chain
    exact (pairwise_of_chain chain).imp (fun beyond => ⟨beyond.passes, beyond.outcome⟩)

/-- Two seeds, a repeated id, a node called `task`, and a row that the second suite lacks. -/
def suiteBefore : Suite :=
  [(0, ⟨[⟨"grasp", none, some true⟩, ⟨"grasp", none, none⟩, ⟨"task", none, some true⟩], false⟩),
    (1, ⟨[], false⟩)]

def suiteAfter : Suite := [(0, ⟨[⟨"grasp", some "verify", some true⟩], true⟩)]

theorem acceptance_is_progress_grasp :
    (Accepts suiteBefore suiteAfter ↔ suiteBefore.passes < suiteAfter.passes ∧
      suiteBefore.count ≤ suiteAfter.count) ∧ ¬ Accepts suiteAfter suiteAfter := by
  have same : SameSeeds suiteBefore suiteAfter := ⟨by decide, by decide, by decide⟩
  exact ⟨(acceptance_is_progress.1 suiteBefore suiteAfter same).1,
    acceptance_is_progress.2.1 suiteAfter same.uniqueAfter⟩

end Evolve
end PhysicalHarness
