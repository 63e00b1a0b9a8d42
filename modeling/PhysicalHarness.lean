import PhysicalHarness.Task.Progress
import PhysicalHarness.Task.Stateless
import PhysicalHarness.Harness.TornWrite
import PhysicalHarness.Rsi.ActionBudget
import PhysicalHarness.Runtime.Frozen
import PhysicalHarness.Board.Locate
import PhysicalHarness.Task.Preview
import PhysicalHarness.Harness.Watchdog
import PhysicalHarness.Evolve.Incumbent
import PhysicalHarness.Evolve.Inbox
import PhysicalHarness.Scripts.Promotion
import PhysicalHarness.Evolve.FrozenReward
import PhysicalHarness.Board.Credit
import PhysicalHarness.Protocol.Faithful
import PhysicalHarness.Rsi.Interrupted
import PhysicalHarness.Rsi.Fold
import PhysicalHarness.Board.Vault
import PhysicalHarness.Runtime.Stops
import PhysicalHarness.Protocol.Acyclic
import PhysicalHarness.Task.Repaired
import PhysicalHarness.Task.Spelling
import PhysicalHarness.Rsi.RoundTrip
import PhysicalHarness.Task.ChainOrder
import PhysicalHarness.Harness.MountParams
import PhysicalHarness.Harness.SegmentRpc
import PhysicalHarness.Scripts.Ancestry
import PhysicalHarness.Harness.Checkpoint
import PhysicalHarness.Harness.SkillLibrary
import PhysicalHarness.Scripts.AllocSeeds
import PhysicalHarness.Evolve.Splice
import PhysicalHarness.Runtime.Mission
import PhysicalHarness.Evolve.Budget
import PhysicalHarness.Task.Clock
import PhysicalHarness.Task.Kitchen
import PhysicalHarness.Task.Steaming
import PhysicalHarness.Runtime.FrozenPlans
import PhysicalHarness.Rsi.Blind
import PhysicalHarness.Rsi.Isolated
import PhysicalHarness.Rsi.Handback
import PhysicalHarness.Rsi.Branches
import PhysicalHarness.Rsi.Named
import PhysicalHarness.Board.Resident
import PhysicalHarness.Board.RuntimeEvents
import PhysicalHarness.Board.BriefOutcome
import PhysicalHarness.Evolve.Archive
import PhysicalHarness.Rsi.Balance
import PhysicalHarness.Rsi.Sizing
import PhysicalHarness.Rsi.ServoProbe
import PhysicalHarness.Embodiment.GraspDriver
import PhysicalHarness.Runtime.Rounds
