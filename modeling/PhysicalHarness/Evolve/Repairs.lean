import Mathlib.Data.List.Induction
import PhysicalHarness.Evolve.Potential
import PhysicalHarness.Lib.Fallible
import PhysicalHarness.Python.Arithmetic

namespace PhysicalHarness
namespace Evolve

open Python Fallible

/-!
# Repairs in a trail

A planner inserts a repair before a node that failed.  The board leaves repairs out of its
rates.  The milestones of a row leave them out as well where the row has a verify node;
where it has none, every node of the trail is a milestone, the repairs too.
-/

/-- `round(value, 4)`. -/
def round4 : Double → Double
  | ⟨.fin value, _⟩ =>
      if Rounding.toUnit (1 / 10 ^ 4) value = 0 ∧ value < 0 then Double.negZero
      else Double.nearest (Rounding.toUnit (1 / 10 ^ 4) value)
  | other => other

/-- `sum(m.values()) / len(m)`. -/
def Row.fraction (row : Row) : Except NumberError Double :=
  Double.ratio row.passes (milestones row).length

section

/-! The interpreters that the package admits add floats from left to right, or keep the lost
digits and add them last. -/

variable (sumFloats : List Double → Double)

/-- `score`. -/
def score (suite : Suite) : Except NumberError (Nat × Double) := do
  let fractions ←
    (suite.filter (fun entry => !(milestones entry.2).isEmpty)).mapM (fun entry => entry.2.fraction)
  if fractions.isEmpty then
    return (suite.count, Double.nearest 0)
  else do
    let mean ← (sumFloats fractions).div (Double.nearest fractions.length)
    return (suite.count, round4 mean)

end

/-- `_repair_node`. -/
def repairNode (node : Node) : Bool :=
  node.kind == some "recovery" || "recover-".toList.isPrefixOf node.id.toList

/-- The row without its repairs. -/
def Row.plain (row : Row) : Row := { row with trail := row.trail.filter (fun node => !repairNode node) }

/-- The id and the kind of a node: what a planner chooses of a repair. -/
abbrev Shape := String × Option String

def Node.shape (node : Node) : Shape := (node.id, node.kind)

def Shape.ended (shape : Shape) (ok : Option Bool) : Node := ⟨shape.1, shape.2, ok⟩

/-- The two rows agree but for repairs, and the repairs of the second are of these shapes. -/
structure Repaired (repairs : Shape → Prop) (row other : Row) : Prop where
  plain : other.plain = row.plain
  shapes : ∀ node ∈ other.trail, repairNode node = true → repairs node.shape

/-- The two suites agree but for repairs, seed by seed. -/
def Variant (repairs : Shape → Prop) (suite other : Suite) : Prop :=
  List.Forall₂ (fun entry changed => changed.1 = entry.1 ∧ Repaired repairs entry.2 changed.2) suite other

/-- Nothing is gained or lost, and the chart shows the same. -/
def Immaterial (sumFloats : List Double → Double) (left right : Suite) : Prop :=
  (compare left right).gains = [] ∧ (compare left right).regressions = [] ∧
    score sumFloats left = score sumFloats right

/-- A repair of this shape is a milestone of the row: it is a verify node itself, or no node that is
not a repair is one. -/
def CountedIn (row : Row) (shape : Shape) : Prop :=
  shape.2 = some "verify" ∨ ∀ node ∈ row.plain.trail, node.kind ≠ some "verify"

def lastMark (nodes : List Node) (name : String) : Option Bool :=
  ((nodes.filter (fun node => node.id == name)).getLast?).map (fun node => node.ok == some true)

theorem lastMark_concat (nodes : List Node) (node : Node) (name : String) :
    lastMark (nodes ++ [node]) name =
      if node.id = name then some (node.ok == some true) else lastMark nodes name := by
  rw [lastMark, List.filter_append]
  by_cases same : node.id = name
  · have kept : [node].filter (fun node => node.id == name) = [node] := by simp [same]
    rw [kept, List.getLast?_concat, if_pos same]
    rfl
  · have dropped : [node].filter (fun node => node.id == name) = [] := by simp [same]
    rw [dropped, List.append_nil, if_neg same]
    rfl

theorem get?_marks (nodes : List Node) (name : String) :
    Assoc.get? (nodes.foldl (fun marks node => Assoc.set marks node.id (node.ok == some true)) []) name =
      lastMark nodes name := by
  induction nodes using List.reverseRecOn with
  | nil => rfl
  | append_singleton nodes node ih =>
      rw [List.foldl_append, List.foldl_cons, List.foldl_nil, Assoc.get?_set, ih, lastMark_concat]

theorem get?_milestones (row : Row) (name : String) :
    Assoc.get? (milestones row) name =
      if "task" = name then some row.success else lastMark row.counted name := by
  rw [milestones, Assoc.get?_set, get?_marks]

theorem counted_of_verified {row : Row} {node : Node} (listed : node ∈ row.trail)
    (verify : node.kind = some "verify") :
    row.counted = row.trail.filter (fun node => node.kind == some "verify") := by
  rw [Row.counted]
  have here : node ∈ row.trail.filter (fun node => node.kind == some "verify") :=
    List.mem_filter.mpr ⟨listed, beq_iff_eq.mpr verify⟩
  exact if_neg (fun empty => List.not_mem_nil (List.isEmpty_iff.mp empty ▸ here))

theorem counted_of_unverified {row : Row} (none_ : ∀ node ∈ row.trail, node.kind ≠ some "verify") :
    row.counted = row.trail := by
  have empty : row.trail.filter (fun node => node.kind == some "verify") = [] := by
    apply List.filter_eq_nil_iff.mpr
    intro node listed
    exact fun same => none_ node listed (beq_iff_eq.mp same)
  rw [Row.counted, empty]
  exact if_pos rfl

theorem mem_plain {row : Row} {node : Node} :
    node ∈ row.plain.trail ↔ node ∈ row.trail ∧ repairNode node = false := by
  rw [Row.plain, List.mem_filter, Bool.not_eq_true']

theorem filter_plain {row : Row} {keep : Node → Bool}
    (apart : ∀ node ∈ row.trail, keep node = true → repairNode node = false) :
    row.trail.filter keep = row.plain.trail.filter keep := by
  rw [Row.plain, List.filter_filter]
  apply List.filter_congr
  intro node listed
  cases kept : keep node with
  | false => rfl
  | true => rw [apart node listed kept]; rfl

structure RowAlike (left right : Row) : Prop where
  marks : ∀ name, Assoc.get? (milestones left) name = Assoc.get? (milestones right) name
  success : left.success = right.success

theorem RowAlike.symm {left right : Row} (alike : RowAlike left right) : RowAlike right left :=
  ⟨fun name => (alike.marks name).symm, alike.success.symm⟩

theorem RowAlike.trans {first second third : Row} (left : RowAlike first second) (right : RowAlike second third) :
    RowAlike first third :=
  ⟨fun name => (left.marks name).trans (right.marks name), left.success.trans right.success⟩

theorem RowAlike.passed {left right : Row} (alike : RowAlike left right) (name : String) :
    passed (milestones left) name = passed (milestones right) name := by
  rw [Evolve.passed, alike.marks name, Evolve.passed]

theorem mem_keys_iff {marks : List (String × Bool)} {name : String} :
    name ∈ Assoc.keys marks ↔ Assoc.get? marks name ≠ none := by
  rw [ne_eq, Assoc.get?_eq_none_iff, not_not]

theorem RowAlike.keys {left right : Row} (alike : RowAlike left right) :
    (Assoc.keys (milestones left)).Perm (Assoc.keys (milestones right)) := by
  apply (List.perm_ext_iff_of_nodup (nodup_milestones left) (nodup_milestones right)).mpr
  intro name
  rw [mem_keys_iff, mem_keys_iff, alike.marks name]

theorem RowAlike.fraction {left right : Row} (alike : RowAlike left right) :
    left.fraction = right.fraction := by
  have counted : left.passes = right.passes := by
    rw [Row.passes_eq (nodup_milestones left) (fun _ mem => mem),
      Row.passes_eq (nodup_milestones left) (fun _ mem => alike.keys.mem_iff.mpr mem)]
    exact List.countP_congr (fun name _ => by rw [alike.passed name])
  have length : (milestones left).length = (milestones right).length := by
    have names := alike.keys.length_eq
    rw [Assoc.keys, Assoc.keys, List.length_map, List.length_map] at names
    exact names
  rw [Row.fraction, Row.fraction, counted, length]

theorem milestones_ne_nil (row : Row) : (milestones row).isEmpty = false := by
  have success : Assoc.get? (milestones row) "task" = some row.success := by
    rw [get?_milestones, if_pos rfl]
  cases marks : milestones row with
  | nil =>
      rw [marks] at success
      cases success
  | cons _ _ => rfl

theorem score_congr (sumFloats : List Double → Double) {left right : Suite}
    (rows : List.Forall₂ (fun entry changed => changed.1 = entry.1 ∧ RowAlike entry.2 changed.2) left right) :
    score sumFloats left = score sumFloats right := by
  have all : ∀ suite : Suite, suite.filter (fun entry => !(milestones entry.2).isEmpty) = suite := by
    intro suite
    apply List.filter_eq_self.mpr
    intro entry _
    rw [milestones_ne_nil]
    rfl
  have fractions : left.map (fun entry => entry.2.fraction) = right.map (fun entry => entry.2.fraction) :=
    (map_eq_of_forall₂ rows (fun _ _ alike => alike.2.fraction.symm)).symm
  have counts : left.map (fun entry => entry.2.success.toNat) =
      right.map (fun entry => entry.2.success.toNat) :=
    (map_eq_of_forall₂ rows (fun _ _ alike => congrArg Bool.toNat alike.2.success.symm)).symm
  have one : ∀ suite : Suite, suite.mapM (fun entry => entry.2.fraction) =
      (suite.map (fun entry => entry.2.fraction)).mapM id := by
    intro suite
    rw [List.mapM_map]
    rfl
  rw [score, score, all, all, one, one, fractions, Suite.count_eq_sum, Suite.count_eq_sum, counts]

theorem immaterial_of_alike (sumFloats : List Double → Double) {left right : Suite}
    (unique : (Assoc.keys right).Nodup)
    (rows : List.Forall₂ (fun entry changed => changed.1 = entry.1 ∧ RowAlike entry.2 changed.2) left right) :
    Immaterial sumFloats left right := by
  have found : ∀ entry ∈ left, RowAlike entry.2 (rowOf right entry.1) := by
    intro entry mem
    rcases exists_right_of_forall₂ rows mem with ⟨changed, listed, same, alike⟩
    rw [← same, rowOf_of_mem unique listed]
    exact alike
  refine ⟨?_, ?_, score_congr sumFloats rows⟩
  · apply List.flatMap_eq_nil_iff.mpr
    intro entry mem
    rw [newly_eq_nil (found entry mem).passed, List.map_nil]
  · apply List.flatMap_eq_nil_iff.mpr
    intro entry mem
    rw [newly_eq_nil (found entry mem).symm.passed, List.map_nil]

/-- The shapes are those of repairs. -/
def OfRepairs (repairs : Shape → Prop) : Prop :=
  ∀ shape, repairs shape → repairNode (shape.ended none) = true

/-- No repair that may be inserted is a milestone of the row, one called `task` apart. -/
def Uncounted (repairs : Shape → Prop) (row : Row) : Prop :=
  ∀ shape, repairs shape → CountedIn row shape → shape.1 = "task"

theorem repairNode_eq_false {node : Node} (verify : node.kind = some "verify") (task : node.id = "task") :
    repairNode node = false := by
  rw [repairNode, verify, task]
  decide

variable {repairs : Shape → Prop} {row other : Row}

theorem Repaired.plain_of_verify (repaired : Repaired repairs row other)
    (uncounted : Uncounted repairs row) {node : Node} (listed : node ∈ other.trail)
    (verify : node.kind = some "verify") : repairNode node = false := by
  by_contra repair
  have shape := repaired.shapes node listed (Bool.eq_true_of_not_eq_false repair)
  exact repair (repairNode_eq_false verify (uncounted node.shape shape (Or.inl verify)))

theorem Repaired.lastMark_counted (repaired : Repaired repairs row other)
    (uncounted : Uncounted repairs row) {name : String} (ne : name ≠ "task") :
    lastMark other.counted name = lastMark row.plain.counted name := by
  have trails : other.plain.trail = row.plain.trail := congrArg Row.trail repaired.plain
  by_cases verified : ∃ node ∈ row.plain.trail, node.kind = some "verify"
  · rcases verified with ⟨node, listed, verify⟩
    have mine : node ∈ other.trail := (mem_plain.mp (trails ▸ listed)).1
    rw [counted_of_verified mine verify, counted_of_verified listed verify, ← trails]
    congr 1
    apply filter_plain
    intro found mem kept
    exact repaired.plain_of_verify uncounted mem (beq_iff_eq.mp kept)
  · have nowhere : ∀ node ∈ row.plain.trail, node.kind ≠ some "verify" :=
      fun node listed verify => verified ⟨node, listed, verify⟩
    have nowhereElse : ∀ node ∈ other.trail, node.kind ≠ some "verify" := by
      intro node listed verify
      have plain := repaired.plain_of_verify uncounted listed verify
      exact nowhere node (trails ▸ mem_plain.mpr ⟨listed, plain⟩) verify
    rw [counted_of_unverified nowhere, counted_of_unverified nowhereElse, ← trails, lastMark, lastMark]
    have same : other.trail.filter (fun node => node.id == name) =
        other.plain.trail.filter (fun node => node.id == name) := by
      apply filter_plain
      intro node listed kept
      by_contra repair
      have shape := repaired.shapes node listed (Bool.eq_true_of_not_eq_false repair)
      have task : node.id = "task" := uncounted node.shape shape (Or.inr nowhere)
      exact ne ((beq_iff_eq.mp kept).symm.trans task)
    rw [same]

theorem Repaired.alike (repaired : Repaired repairs row other) (uncounted : Uncounted repairs row) :
    RowAlike other row.plain := by
  have plain := congrArg Row.success repaired.plain
  have success : other.success = row.success := plain
  refine ⟨?_, success⟩
  intro name
  rw [get?_milestones, get?_milestones, success]
  by_cases task : "task" = name
  · rw [if_pos task, if_pos task]
    rfl
  · rw [if_neg task, if_neg task]
    exact repaired.lastMark_counted uncounted (Ne.symm task)

theorem Variant.keys {suite other : Suite} (variant_ : Variant repairs suite other) :
    Assoc.keys other = Assoc.keys suite :=
  map_eq_of_forall₂ variant_ (fun _ _ repaired => repaired.1)

theorem Variant.alike {suite left right : Suite} (first : Variant repairs suite left)
    (second : Variant repairs suite right) (uncounted : ∀ entry ∈ suite, Uncounted repairs entry.2) :
    List.Forall₂ (fun entry changed => changed.1 = entry.1 ∧ RowAlike entry.2 changed.2) left right := by
  induction first generalizing right with
  | nil =>
      cases second
      exact List.Forall₂.nil
  | cons here _ ih =>
      cases second with
      | cons there rest =>
          have quiet := uncounted _ (.head _)
          refine List.Forall₂.cons ⟨there.1.trans here.1.symm, ?_⟩
            (ih rest (fun entry mem => uncounted entry (.tail _ mem)))
          exact (here.2.alike quiet).trans (there.2.alike quiet).symm

/-! ## A repair that is counted -/

def Row.withRepair (row : Row) (node : Node) : Row :=
  { row.plain with trail := row.plain.trail ++ [node] }

theorem plain_plain (row : Row) : row.plain.plain = row.plain := by
  rw [Row.plain, Row.plain]
  simp

theorem repaired_plain (row : Row) : Repaired repairs row row.plain := by
  refine ⟨plain_plain row, ?_⟩
  intro node listed repair
  rw [(mem_plain.mp listed).2] at repair
  cases repair

theorem repaired_withRepair (row : Row) {shape : Shape} (ofRepairs : OfRepairs repairs)
    (among : repairs shape) (ok : Option Bool) :
    Repaired repairs row (row.withRepair (shape.ended ok)) := by
  have repair : repairNode (shape.ended ok) = true := ofRepairs shape among
  constructor
  · have trail : (row.withRepair (shape.ended ok)).plain.trail = row.plain.trail := by
      change (row.plain.trail ++ [shape.ended ok]).filter (fun node => !repairNode node) = _
      rw [List.filter_append]
      have dropped : [shape.ended ok].filter (fun node => !repairNode node) = [] := by simp [repair]
      rw [dropped, List.append_nil]
      exact congrArg Row.trail (plain_plain row)
    exact congrArg (fun nodes => Row.mk nodes row.success) trail
  · intro node listed found
    rcases List.mem_append.mp listed with plain | added
    · rw [(mem_plain.mp plain).2] at found
      cases found
    · rw [List.mem_singleton.mp added]
      exact among

theorem passed_withRepair {shape : Shape} (counted : CountedIn row shape) (ne : shape.1 ≠ "task")
    (mark : Bool) :
    Assoc.get? (milestones (row.withRepair (shape.ended (some mark)))) shape.1 = some mark := by
  have last : ∃ nodes, (row.withRepair (shape.ended (some mark))).counted =
      nodes ++ [shape.ended (some mark)] := by
    have listed : shape.ended (some mark) ∈ (row.withRepair (shape.ended (some mark))).trail :=
      List.mem_append_right _ (.head _)
    by_cases verify : shape.2 = some "verify"
    · rw [counted_of_verified listed verify]
      change ∃ nodes, (row.plain.trail ++ [shape.ended (some mark)]).filter _ = nodes ++ _
      rw [List.filter_append]
      have kept : [shape.ended (some mark)].filter (fun node => node.kind == some "verify") =
          [shape.ended (some mark)] := by simp [Shape.ended, verify]
      exact ⟨_, congrArg _ kept⟩
    · have nowhere := counted.resolve_left verify
      have nowhereElse : ∀ node ∈ (row.withRepair (shape.ended (some mark))).trail,
          node.kind ≠ some "verify" := by
        intro node mem
        rcases List.mem_append.mp mem with plain | added
        · exact nowhere node plain
        · rw [List.mem_singleton.mp added]
          exact verify
      exact ⟨row.plain.trail, counted_of_unverified nowhereElse⟩
  rcases last with ⟨nodes, counts⟩
  rw [get?_milestones, if_neg (Ne.symm ne), counts, lastMark_concat]
  have ended : ((shape.ended (some mark)).ok == some true) = mark := by cases mark <;> rfl
  rw [ended]
  exact if_pos rfl

theorem mem_newly {lost won : Row} {name : String} (won_ : passed (milestones won) name = true)
    (lost_ : passed (milestones lost) name = false) : name ∈ newly lost won := by
  rw [newly, List.mem_filter, sorted, List.mem_insertionSort, List.mem_dedup, won_, lost_]
  exact ⟨List.mem_append_right _ (mem_keys_of_passed won_), rfl⟩

/-- The suite without repairs, with one more node in the row of a seed. -/
def withRepairAt (suite : Suite) (seed : Int) (node : Node) : Suite :=
  suite.map (fun entry => (entry.1, if entry.1 = seed then entry.2.withRepair node else entry.2.plain))

theorem variant_plain (suite : Suite) :
    Variant repairs suite (suite.map (fun entry => (entry.1, entry.2.plain))) := by
  rw [Variant, List.forall₂_map_right_iff]
  exact List.forall₂_same.mpr (fun entry _ => ⟨rfl, repaired_plain entry.2⟩)

theorem variant_withRepairAt (suite : Suite) (seed : Int) {shape : Shape}
    (ofRepairs : OfRepairs repairs) (among : repairs shape) (ok : Option Bool) :
    Variant repairs suite (withRepairAt suite seed (shape.ended ok)) := by
  rw [Variant, withRepairAt, List.forall₂_map_right_iff]
  apply List.forall₂_same.mpr
  intro entry _
  refine ⟨rfl, ?_⟩
  dsimp only
  split_ifs
  · exact repaired_withRepair entry.2 ofRepairs among ok
  · exact repaired_plain entry.2

theorem material_of_counted (sumFloats : List Double → Double) {suite : Suite}
    (unique : (Assoc.keys suite).Nodup) (ofRepairs : OfRepairs repairs) {entry : Int × Row}
    (listed : entry ∈ suite) {shape : Shape} (among : repairs shape)
    (counted : CountedIn entry.2 shape) (ne : shape.1 ≠ "task") :
    ∃ left right, Variant repairs suite left ∧ Variant repairs suite right ∧
      ¬ Immaterial sumFloats left right := by
  let mark := !passed (milestones entry.2.plain) shape.1
  let node := shape.ended (some mark)
  have changed := @variant_withRepairAt repairs suite entry.1 shape ofRepairs among (some mark)
  refine ⟨_, _, variant_plain suite, changed, ?_⟩
  intro immaterial
  rcases immaterial with ⟨gains, losses, _⟩
  have here : (entry.1, entry.2.plain) ∈ suite.map (fun entry => (entry.1, entry.2.plain)) :=
    List.mem_map.mpr ⟨entry, listed, rfl⟩
  have there : rowOf (withRepairAt suite entry.1 node) entry.1 = entry.2.withRepair node := by
    have uniqueToo : (Assoc.keys (withRepairAt suite entry.1 node)).Nodup := changed.keys ▸ unique
    have mem : (entry.1, entry.2.withRepair node) ∈ withRepairAt suite entry.1 node := by
      refine List.mem_map.mpr ⟨entry, listed, ?_⟩
      rw [if_pos rfl]
    exact rowOf_of_mem uniqueToo mem
  have noGain := List.map_eq_nil_iff.mp (List.flatMap_eq_nil_iff.mp gains _ here)
  have noLoss := List.map_eq_nil_iff.mp (List.flatMap_eq_nil_iff.mp losses _ here)
  have reported : passed (milestones (entry.2.withRepair node)) shape.1 = mark := by
    rw [passed, passed_withRepair counted ne mark, Option.getD_some]
  dsimp only at noGain noLoss
  rw [there] at noGain noLoss
  cases before : passed (milestones entry.2.plain) shape.1 with
  | false =>
      have after : passed (milestones (entry.2.withRepair node)) shape.1 = true := by
        rw [reported]
        change (!passed (milestones entry.2.plain) shape.1) = true
        rw [before]
        rfl
      exact List.not_mem_nil (noGain ▸ mem_newly after before)
  | true =>
      have after : passed (milestones (entry.2.withRepair node)) shape.1 = false := by
        rw [reported]
        change (!passed (milestones entry.2.plain) shape.1) = false
        rw [before]
        rfl
      exact List.not_mem_nil (noLoss ▸ mem_newly before after)

/-- Repairs do not matter exactly where none that may be inserted is a milestone. -/
theorem repairs_immaterial_iff (sumFloats : List Double → Double) {suite : Suite}
    (unique : (Assoc.keys suite).Nodup) (ofRepairs : OfRepairs repairs) :
    (∀ left right, Variant repairs suite left → Variant repairs suite right →
      Immaterial sumFloats left right) ↔
      ∀ entry ∈ suite, Uncounted repairs entry.2 := by
  constructor
  · intro immaterial entry listed shape among counted
    by_contra ne
    rcases material_of_counted sumFloats unique ofRepairs listed among counted ne with
      ⟨left, right, first, second, material⟩
    exact material (immaterial left right first second)
  · intro uncounted left right first second
    apply immaterial_of_alike
    · rw [second.keys]
      exact unique
    · exact first.alike second uncounted

/-- The repairs that the planner inserts before a grasp. -/
def graspRepair (shape : Shape) : Prop := shape = ("recover-grasp", some "recovery")

def graspSuite : Suite :=
  [(7, ⟨[⟨"grasp", some "manipulate", some true⟩, ⟨"look", some "verify", some true⟩], true⟩)]

/-- Floats added from left to right. -/
def leftSum (numbers : List Double) : Double := numbers.foldl Double.add (Double.nearest 0)

theorem repairs_immaterial_grasp :
    (∀ left right, Variant graspRepair graspSuite left → Variant graspRepair graspSuite right →
      Immaterial leftSum left right) ↔ ∀ entry ∈ graspSuite, Uncounted graspRepair entry.2 := by
  apply repairs_immaterial_iff leftSum (by decide)
  rintro _ rfl
  decide

/-- One grasp without a verify node after it. -/
def blindSuite : Suite := [(7, ⟨[⟨"grasp", some "manipulate", some true⟩], true⟩)]

/-- The same run, with a repair before the grasp. -/
def blindRepaired : Suite :=
  [(7, ⟨[⟨"recover-grasp", some "recovery", some true⟩, ⟨"grasp", some "manipulate", some true⟩], true⟩)]

/-- The repair is a gain one way and a regression the other way. -/
theorem repair_counted_blind :
    Variant graspRepair blindSuite blindRepaired ∧
      (compare blindSuite blindRepaired).gains = [(7, "recover-grasp")] ∧
      (compare blindRepaired blindSuite).regressions = [(7, "recover-grasp")] := by
  refine ⟨List.Forall₂.cons ⟨rfl, rfl, ?_⟩ List.Forall₂.nil, by decide +kernel, by decide +kernel⟩
  intro node listed repair
  rcases List.mem_cons.mp listed with rfl | later
  · rfl
  · rw [List.mem_singleton.mp later] at repair
    exact absurd repair (by decide)

end Evolve
end PhysicalHarness
