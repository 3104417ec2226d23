import AgentRuntimeGrid.Cli.Batch
import AgentRuntimeGrid.Cli.Smoke
import AgentRuntimeGrid.Evidence.Portable

/-! The Markdown report, and what the smoke command and the v1 proof write as evidence of a run:
its JSON payload and its rendered report. -/
namespace AgentRuntimeGrid

/-- `sep.join(parts)`. -/
def joinText (sep : PyStr) (parts : List PyStr) : PyStr := (parts.intersperse sep).flatten

/-- `str(counts)` of a `dict` whose keys have no quotes. -/
def countsText (c : Counts) : PyStr :=
  py "\x7b" ++ joinText (py ", ")
    (c.map fun kn => py "'" ++ py kn.1 ++ py "': " ++ py (toString kn.2)) ++ py "\x7d"

private def natText (n : ℕ) : PyStr := py (toString n)

private def intText (n : ℤ) : PyStr := py (toString n)

def artifactLine (env : EvidenceEnv) (row : ArtifactRecord) : PyStr :=
  py "- artifact " ++
  py "job_id=" ++ row.jobId ++ py " run_id=" ++ row.runId ++
  py " attempt_number=" ++ intText row.attemptNumber ++
  py " size_bytes=" ++ intText row.sizeBytes ++ py " sha256=" ++ row.sha256 ++
  py " input_digest=" ++ row.inputDigest ++ py " created_at=" ++ row.createdAt ++
  py " path=" ++ portableRecordPath row.jobId row.path ++
  match row.evalResultPath with
  | some p => py " eval_result_path=" ++ portablePath env (PyPath.parse p) "eval-result"
  | none => []

def renderReliabilityReport (env : EvidenceEnv) (report : ReliabilityReport) : PyStr :=
  let percent (x : PyFloat) : PyStr := py (env.percent x)
  let seconds (x : PyFloat) : PyStr := py (env.fixed3 x)
  let sortedCounts := report.lifecycleCounts.insertionSort fun a b => py a.1 ≤ py b.1
  let integrity := report.artifactIntegrity
  let b := report.backpressure
  let measured (f : QueueBackpressureSnapshot → PyFloat) : PyFloat := (b.map f).getD (.finite 0)
  let counted (f : QueueBackpressureSnapshot → ℤ) : PyStr := intText ((b.map f).getD 0)
  joinText (py "\n") (
    [py "# " ++ py report.title, [], py "source: " ++ report.source] ++
    (match report.runId with
      | some runId => [py "run id: " ++ runId]
      | none => []) ++
    [py "submitted jobs: " ++ natText report.submittedJobs,
      py "submitted_jobs: " ++ natText report.submittedJobs, [], py "## lifecycle counts"] ++
    sortedCounts.map (fun kn => py "- " ++ py kn.1 ++ py ": " ++ natText kn.2) ++
    [[], py "## reliability fields",
      py "- completion rate: " ++ percent report.completionRate,
      py "- duplicate-finalization count: " ++ natText report.duplicateFinalizationCount,
      py "- finalization conflict attempts: " ++ natText report.finalizationConflictAttemptCount,
      py "- retry count: " ++ natText report.retryCount,
      py "- timeout count: " ++ natText (report.lifecycleCounts.get "timed_out"),
      py "- DLQ count: " ++ natText (report.lifecycleCounts.get "dlq"),
      py "- queue lag: " ++ seconds report.queueLagSeconds ++ py "s",
      py "- queue lag p95: " ++ seconds report.queueLagSeconds ++ py "s",
      py "- p95 duration: " ++ seconds report.p95DurationSeconds ++ py "s",
      py "- execution duration p95: " ++ seconds report.p95DurationSeconds ++ py "s",
      py "- artifact completeness: " ++ percent report.artifactCompleteness,
      py "- failure classification: " ++ countsText report.failureClassification,
      py "- injected failure count: " ++ natText report.injectedFailureCount,
      py "- idempotency replay count: " ++ natText report.idempotencyReplayCount,
      py "- idempotency proof: duplicate_finalization_count == " ++
        natText report.duplicateFinalizationCount,
      py "- estimated cost: $" ++ py report.estimatedCostUsd,
      [],
      py "## artifact integrity",
      py "- checked artifacts: " ++
        natText ((integrity.map ArtifactIntegritySummary.checkedCount).getD 0),
      py "- valid artifacts: " ++
        natText ((integrity.map ArtifactIntegritySummary.validCount).getD 0)] ++
    (match integrity with
      | some integrity => integrity.rows.map (artifactLine env)
      | none => []) ++
    [[], py "## queue/backpressure",
      py "- queue depth: " ++ counted QueueBackpressureSnapshot.queueDepth,
      py "- oldest pending age seconds: " ++
        seconds (measured QueueBackpressureSnapshot.oldestPendingAgeSeconds),
      py "- consumer lag: " ++ counted QueueBackpressureSnapshot.consumerLag,
      py "- leased jobs: " ++ counted QueueBackpressureSnapshot.leasedJobs,
      py "- running jobs: " ++ counted QueueBackpressureSnapshot.runningJobs,
      py "- worker utilization: " ++
        percent (measured QueueBackpressureSnapshot.workerUtilization),
      py "- retry rate: " ++ percent (measured QueueBackpressureSnapshot.retryRate),
      py "- DLQ count: " ++ counted QueueBackpressureSnapshot.dlqCount,
      py "- p95 queue wait seconds: " ++ seconds
        ((b.map QueueBackpressureSnapshot.p95QueueWaitSeconds).getD report.queueLagSeconds),
      py "- p95 execution seconds: " ++ seconds
        ((b.map QueueBackpressureSnapshot.p95ExecutionSeconds).getD report.p95DurationSeconds),
      []])

/-- Where a command is told to read and write, and the files it finds there. -/
structure Site where
  artifactRoot : PyPath
  reportPath : PyPath
  evalLabDatasetPath : PyPath
  evalLabReportPath : PyPath
  gdevArtifactPath : PyPath
  resolve : PyStr → FileRef
  files : FileStore

/-- `str(artifact_root / str(job.id) / f"attempt-{attempt_number}.json")`. -/
def Site.pathText (site : Site) : FileRef → PyStr
  | .artifact jobId attemptNumber => PyPath.text ⟨site.artifactRoot.root,
      site.artifactRoot.parts ++ [uuidText jobId] ++ [py s!"attempt-{attemptNumber}.json"]⟩
  | .other path => py path

/-- The library as it behaves at a site. -/
def EvidenceEnv.onSite (env : EvidenceEnv) (site : Site) : EvidenceEnv :=
  { env with resolve := site.resolve, pathText := site.pathText }

/-- What a run leaves for its evidence wherever it is made. -/
structure RunData where
  db : Database
  runId : RunId
  measured : Measurements
  origin : RunOrigin

/-- The payload and the rendered report that a command passes to `write_evidence_bundle`. -/
structure Evidence where
  payload : Dict
  rendered : PyStr

structure SmokeRun extends RunData where
  jobs : ℤ
  workers : ℤ
  failureRate : PyFloat
  mode : PyStr

def SmokeRun.config (run : SmokeRun) (site : Site) : List (PyStr × ConfigValue) := [
  (py "jobs", .plain (.int run.jobs)),
  (py "workers", .plain (.int run.workers)),
  (py "failure_rate", .plain (.float run.failureRate)),
  (py "mode", .plain (.str run.mode)),
  (py "artifact_root", .path site.artifactRoot)]

/-- The evidence of `run_smoke`. -/
def SmokeRun.evidence (env : EvidenceEnv) (run : SmokeRun) (site : Site) :
    Except String Evidence := do
  if run.jobs ≤ 0 ∨ run.workers ≤ 0 ∨ run.mode ≠ py "stub" ∨ run.failureRate ≠ .finite 0 then
    throw "ValueError"
  let report ← buildSmokeReport (env.onSite site).toReportEnv site.files run.db run.runId
    site.artifactRoot.name run.measured
  match validateSmokeReport env.toReportEnv report run.jobs with
  | .error _ => throw "SmokeValidationError"
  | .ok () => return {
      payload := evidencePayload env run.origin report "smoke" (run.config site) none
      rendered := renderReliabilityReport env report }

structure ReliabilityRun extends RunData where
  jobs : ℤ
  workers : ℤ
  failureRate : PyFloat
  includeTimeouts : Bool
  repeatIdempotencySubmissions : Bool
  seed : ℤ
  failures : List InjectedFailure
  /-- `int(jobs * failure_rate)`. -/
  failureCount : ℕ
  idempotencyReplayCount : ℕ

/-- The counts of `failure_plan.counts()` that are not zero, under their names in the report. -/
def injectedCounts (failures : List InjectedFailure) : Counts :=
  ([("injected_transient", .transient), ("injected_permanent", .permanent),
    ("injected_timeout", .timeout), ("injected_cancellation", .cancellation),
    ("injected_duplicate_submission", .duplicateSubmission)].map
      fun (named : String × FailureMode) =>
        (named.1, failures.countP fun f => f.mode = named.2)).filter fun kn => kn.2 ≠ 0

/-- The report of `run_reliability_proof`, made of the one of `build_smoke_report`. -/
def ReliabilityRun.report (run : ReliabilityRun) (site : Site) (report : ReliabilityReport) :
    ReliabilityReport := { report with
  failureClassification := report.failureClassification ++ injectedCounts run.failures
  estimatedCostUsd := "0"
  runId := some (uuidText run.runId)
  source := py "runtime_state:" ++ site.artifactRoot.text
  idempotencyReplayCount := run.idempotencyReplayCount
  injectedFailureCount := run.failureCount
  title := "V1 Reliability Proof Report" }

/-- `0 < x` and `0 <= x <= 1`. -/
def floatPositive : PyFloat → Bool
  | .finite q => 0 < q
  | .infinity negative => !negative
  | .nan => false

def floatIsRate : PyFloat → Bool
  | .finite q => 0 ≤ q && q ≤ 1
  | _ => false

/-- Whether `validate_reliability_proof` finds no error. -/
def ReliabilityRun.valid (run : ReliabilityRun) (report : ReliabilityReport) : Bool :=
  let counts := report.lifecycleCounts
  (report.submittedJobs : ℤ) = run.jobs && (terminalCount counts : ℤ) = run.jobs &&
  report.duplicateFinalizationCount = 0 &&
  !(floatPositive run.failureRate && report.retryCount = 0) &&
  !(run.includeTimeouts && counts.get "timed_out" = 0) &&
  !(run.repeatIdempotencySubmissions && report.idempotencyReplayCount = 0) &&
  !floatLtOne report.artifactCompleteness &&
  (report.artifactIntegrity.all fun integrity =>
    integrity.checkedCount = counts.get "completed" &&
      integrity.validCount = integrity.checkedCount) &&
  report.estimatedCostUsd = "0"

def ReliabilityRun.config (run : ReliabilityRun) (site : Site) : List (PyStr × ConfigValue) := [
  (py "jobs", .plain (.int run.jobs)),
  (py "workers", .plain (.int run.workers)),
  (py "failure_rate", .plain (.float run.failureRate)),
  (py "include_timeouts", .plain (.bool run.includeTimeouts)),
  (py "repeat_idempotency_submissions", .plain (.bool run.repeatIdempotencySubmissions)),
  (py "artifact_root", .path site.artifactRoot)]

/-- The evidence of `run_reliability_proof`. -/
def ReliabilityRun.evidence (env : EvidenceEnv) (run : ReliabilityRun) (site : Site) :
    Except String Evidence := do
  if run.jobs ≤ 0 ∨ run.workers ≤ 0 ∨ ¬ floatIsRate run.failureRate then throw "ValueError"
  let report := run.report site (← buildSmokeReport (env.onSite site).toReportEnv site.files run.db
    run.runId site.artifactRoot.name run.measured)
  if ¬ run.valid report then throw "ReliabilityProofValidationError"
  return {
    payload := evidencePayload env run.origin report "benchmark v1-proof" (run.config site)
      (some run.seed)
    rendered := renderReliabilityReport env report }

end AgentRuntimeGrid
