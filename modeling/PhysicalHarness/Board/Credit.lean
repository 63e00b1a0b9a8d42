import PhysicalHarness.Board.Counts
import PhysicalHarness.Task.Executors

namespace PhysicalHarness
namespace Board

open Python Harness JsonText Fallible PhysicalHarness.Task
open Rsi (Bundle)

/-!
# Evidence for the executor that drove

The reader of a session counts a verified node under the key of its row, and under
`scripted` where the row has none.  A row of a segment has the key of its dispatch, unless
the episode was over, and the key is that of the executor which acted, unless the driver of
the episode kept the actions to itself.
-/

section

variable [Host] {World : Type} {ctx : SegmentCtx} {robot : Robot World}

variable {episode next : Episode World} {node : PlanNode} {spec : EpisodeSpec}

variable [Sha256] [FloatText]

end

section

local instance creditHost : Host := asciiHost

local instance creditFloats : FloatText := exactDecimals

local instance creditSha : Sha256 := Rsi.fourthSha

end

end Board
end PhysicalHarness
