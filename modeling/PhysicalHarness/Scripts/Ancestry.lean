import PhysicalHarness.Lib.Finishing
import PhysicalHarness.Scripts.Calibration
import PhysicalHarness.Scripts.NodeKey

namespace PhysicalHarness
namespace Scripts

open Python Relation Fallible

/-!
# Walking back along `after`

A death is charged to the nearest actuating node behind it, and an isolated rollout first drives the
segments behind its target.  Both walks take the last of the parents at every node.  A node that is
behind another one but not on the line of last parents is seen by neither.
-/

/-- The `episode` of a binding. -/
structure Episode where
  task : Option String
  horizon : Option Int

section

variable (graph : List GraphNode)

def Parent (a b : String) : Prop :=
  ∃ node, nodeNamed graph b = some node ∧ a ∈ node.after ∧ (nodeNamed graph a).isSome = true

def Acyclic : Prop := ∀ name, ¬ TransGen (Parent graph) name name

end

section

variable {graph : List GraphNode}

variable {node : GraphNode} {seen : List String}

/-- The walk may go on: the nodes it has seen are in front of it, each once, and there is a step for
every node it has not seen. -/
structure Fresh (graph : List GraphNode) (steps : Nat) (seen : List String) (name : String) : Prop where
  ahead : ∀ other ∈ seen, TransGen (Parent graph) name other
  unique : seen.Nodup
  known : ∀ other ∈ seen, (nodeNamed graph other).isSome = true
  enough : graph.length < steps + seen.length

/-- The skill of a node by its id. -/
def skillOf (graph : List GraphNode) (name : String) : Json :=
  ((nodeNamed graph name).map GraphNode.skill).getD .null

end

/-- The sub-goal of a segment is its own skill. -/
def sameSkill (skill : Json) : Except PyError String := (skill.str?.elim (.error .keyError) .ok)

end Scripts
end PhysicalHarness
