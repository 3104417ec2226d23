import AgentRuntimeGrid.Runtime.NoLoss
import AgentRuntimeGrid.Runtime.Evidence
import AgentRuntimeGrid.Runtime.Attempts
import AgentRuntimeGrid.Runtime.Budget
import AgentRuntimeGrid.Runtime.Submission
import AgentRuntimeGrid.Runtime.Drained
import AgentRuntimeGrid.Runtime.DeadLetters
import AgentRuntimeGrid.Cli.ProofCommands
import AgentRuntimeGrid.Cli.Datasets
import AgentRuntimeGrid.Evidence.Neighbours
import AgentRuntimeGrid.Jobs.Classified
import AgentRuntimeGrid.Jobs.LocalUrl
import AgentRuntimeGrid.Jobs.FailurePlan
import AgentRuntimeGrid.Cli.Operator
import AgentRuntimeGrid.Cli.Cleanup
import AgentRuntimeGrid.Evidence.Handling
import AgentRuntimeGrid.Cost.Jsonl
import AgentRuntimeGrid.Cli.ReliabilityProof
import AgentRuntimeGrid.Worker.RecoveryBatch
import AgentRuntimeGrid.Storage.CanonicalPayload
import AgentRuntimeGrid.Artifacts.Agreement
import AgentRuntimeGrid.Runtime.Orderly
import AgentRuntimeGrid.Evidence.CommittedRelease
import AgentRuntimeGrid.Runtime.Quiescence
import AgentRuntimeGrid.Runtime.Story
import AgentRuntimeGrid.Cli.SmokeRun
