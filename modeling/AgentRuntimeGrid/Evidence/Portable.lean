import AgentRuntimeGrid.Cli.Benchmark
import AgentRuntimeGrid.Lib.PyPath

/-! The JSON data of an evidence bundle, in which paths of the host are replaced by portable
references. -/
namespace AgentRuntimeGrid

structure EvidenceEnv extends ReportEnv where
  /-- `path.resolve().relative_to(Path.cwd().resolve())`; `none` is its `ValueError`. -/
  relativeToCwd : PyPath → Option PyPath

def portablePath (env : EvidenceEnv) (value : PyPath) (uriNamespace : String) : PyStr :=
  if ¬ value.isAbsolute then value.text
  else match env.relativeToCwd value with
    | some relative => relative.text
    | none => py uriNamespace ++ py "://" ++ value.name

/-- `portable_artifact_path`. -/
def portableRecordPath (jobId path : PyStr) : PyStr :=
  py "artifact://" ++ jobId ++ py "/" ++ (PyPath.parse path).name

inductive ConfigValue where
  | decimal (text : PyStr)
  | path (p : PyPath)
  | dict (items : List (PyStr × ConfigValue))
  | list (items : List ConfigValue)
  | plain (v : Json)

mutual
def jsonSafe (env : EvidenceEnv) : ConfigValue → Json
  | .decimal text => .str text
  | .path p => .str (portablePath env p "artifact")
  | .dict items => .obj (jsonSafeFields env items)
  | .list items => .arr (jsonSafeItems env items)
  | .plain v => v

def jsonSafeItems (env : EvidenceEnv) : List ConfigValue → List Json
  | [] => []
  | v :: vs => jsonSafe env v :: jsonSafeItems env vs

def jsonSafeFields (env : EvidenceEnv) : List (PyStr × ConfigValue) → Dict
  | [] => []
  | (k, v) :: items => (k, jsonSafe env v) :: jsonSafeFields env items
end

def countsJson (c : Counts) : Json := .obj (c.map fun kn => (py kn.1, .int kn.2))

/-- The entry of `_report_payload` for one artifact. -/
def artifactRow (env : EvidenceEnv) (row : ArtifactRecord) : Json := .obj [
  (py "path", .str (portableRecordPath row.jobId row.path)),
  (py "size_bytes", .int row.sizeBytes),
  (py "sha256", .str row.sha256),
  (py "job_id", .str row.jobId),
  (py "run_id", .str row.runId),
  (py "attempt_number", .int row.attemptNumber),
  (py "input_digest", .str row.inputDigest),
  (py "created_at", .str row.createdAt),
  (py "eval_result_path", match row.evalResultPath with
    | some p => .str (portablePath env (PyPath.parse p) "eval-result")
    | none => .null)]

/-- `asdict(backpressure)`. -/
def QueueBackpressureSnapshot.toJson (b : QueueBackpressureSnapshot) : Json := .obj [
  (py "queue_depth", .int b.queueDepth),
  (py "oldest_pending_age_seconds", .float b.oldestPendingAgeSeconds),
  (py "consumer_lag", .int b.consumerLag),
  (py "leased_jobs", .int b.leasedJobs),
  (py "running_jobs", .int b.runningJobs),
  (py "worker_utilization", .float b.workerUtilization),
  (py "retry_rate", .float b.retryRate),
  (py "dlq_count", .int b.dlqCount),
  (py "p95_queue_wait_seconds", .float b.p95QueueWaitSeconds),
  (py "p95_execution_seconds", .float b.p95ExecutionSeconds)]

def reportPayload (env : EvidenceEnv) (report : ReliabilityReport) : Json :=
  let rows := match report.artifactIntegrity with
    | some integrity => integrity.rows
    | none => []
  .obj [
    (py "title", .str (py report.title)),
    (py "run_id", match report.runId with
      | some runId => .str runId
      | none => .null),
    (py "source", .str report.source),
    (py "submitted_jobs", .int report.submittedJobs),
    (py "lifecycle_counts", countsJson report.lifecycleCounts),
    (py "completion_rate", .float report.completionRate),
    (py "duplicate_terminal_event_count", .int report.duplicateFinalizationCount),
    (py "finalization_conflict_attempt_count", .int report.finalizationConflictAttemptCount),
    (py "retry_count", .int report.retryCount),
    (py "queue_lag_seconds", .float report.queueLagSeconds),
    (py "p95_duration_seconds", .float report.p95DurationSeconds),
    (py "artifact_completeness", .float report.artifactCompleteness),
    (py "failure_classification", countsJson report.failureClassification),
    (py "estimated_cost_usd", .str (py report.estimatedCostUsd)),
    (py "idempotency_replay_count", .int report.idempotencyReplayCount),
    (py "injected_failure_count", .int report.injectedFailureCount),
    (py "backpressure", match report.backpressure with
      | some b => b.toJson
      | none => .null),
    (py "artifact_integrity", .obj [
      (py "checked_count", .int ((report.artifactIntegrity.map
        ArtifactIntegritySummary.checkedCount).getD 0)),
      (py "valid_count", .int ((report.artifactIntegrity.map
        ArtifactIntegritySummary.validCount).getD 0)),
      (py "artifacts", .arr (rows.map (artifactRow env)))])]

/-- What a bundle tells of the time, the revision and the machine it was made on. -/
structure RunOrigin where
  generatedAt : PyStr
  sourceRevision : Dict
  environment : Dict

/-- The payload of `write_evidence_bundle`. -/
def evidencePayload (env : EvidenceEnv) (made : RunOrigin) (report : ReliabilityReport)
    (command : String) (config : List (PyStr × ConfigValue)) (seed : Option ℤ) : Dict := [
  (py "schema_version", .str (py "agent-runtime-grid.run-evidence.v1")),
  (py "generated_at", .str made.generatedAt),
  (py "command", .str (py command)),
  (py "config", .obj (jsonSafeFields env config)),
  (py "seed", match seed with
    | some seed => .int seed
    | none => .null),
  (py "source_revision", .obj made.sourceRevision),
  (py "environment", .obj made.environment),
  (py "report", reportPayload env report)]

end AgentRuntimeGrid
