import AgentRuntimeGrid.Artifacts.Records

/-! The reliability report that the commands make of a run. -/
namespace AgentRuntimeGrid

structure QueueBackpressureSnapshot where
  queueDepth : ℤ
  oldestPendingAgeSeconds : PyFloat
  consumerLag : ℤ
  leasedJobs : ℤ
  runningJobs : ℤ
  workerUtilization : PyFloat
  retryRate : PyFloat
  dlqCount : ℤ
  p95QueueWaitSeconds : PyFloat
  p95ExecutionSeconds : PyFloat

structure ArtifactIntegritySummary where
  checkedCount : ℕ
  validCount : ℕ
  rows : List ArtifactRecord

/-- A `dict[str, int]` in insertion order. -/
abbrev Counts := List (String × ℕ)

namespace Counts

/-- `counts.get(key, 0)`. -/
def get (c : Counts) (key : String) : ℕ := (c.lookup key).getD 0

/-- `counts[key] += 1` on a `defaultdict(int)`. -/
def bump : Counts → String → Counts
  | [], key => [(key, 1)]
  | (k, n) :: c, key => if k = key then (k, n + 1) :: c else (k, n) :: bump c key

end Counts

structure ReliabilityReport where
  submittedJobs : ℕ
  lifecycleCounts : Counts
  completionRate : PyFloat
  duplicateFinalizationCount : ℕ
  retryCount : ℕ
  queueLagSeconds : PyFloat
  p95DurationSeconds : PyFloat
  artifactCompleteness : PyFloat
  finalizationConflictAttemptCount : ℕ
  failureClassification : Counts
  /-- `str(report.estimated_cost_usd)`. -/
  estimatedCostUsd : String
  runId : Option PyStr
  source : PyStr
  idempotencyReplayCount : ℕ
  injectedFailureCount : ℕ
  title : String
  backpressure : Option QueueBackpressureSnapshot
  artifactIntegrity : Option ArtifactIntegritySummary

end AgentRuntimeGrid
