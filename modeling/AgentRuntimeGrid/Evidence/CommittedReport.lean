import AgentRuntimeGrid.Evidence.Portable
import AgentRuntimeGrid.Evidence.Release

/-! Which reports can be committed: the gate of a release against the data the commands write. -/
namespace AgentRuntimeGrid

/-- The snapshot shows nothing queued, leased, running, retried or dead. -/
structure QueueBackpressureSnapshot.Idle (b : QueueBackpressureSnapshot) : Prop where
  consumerLag : b.consumerLag = 0
  dlqCount : b.dlqCount = 0
  leasedJobs : b.leasedJobs = 0
  oldestPendingAgeSeconds : b.oldestPendingAgeSeconds = .finite 0
  queueDepth : b.queueDepth = 0
  retryRate : b.retryRate = .finite 0
  runningJobs : b.runningJobs = 0
  workerUtilization : b.workerUtilization = .finite 0

/-- The artifact is of a first attempt in the run, and the metadata are well formed. -/
structure CommittableRow (runId : PyStr) (r : ArtifactRecord) : Prop where
  job_ne_nil : r.jobId ≠ []
  run : r.runId = runId
  name : (PyPath.parse r.path).name = py "attempt-1.json"
  attempt : r.attemptNumber = 1
  evalResult : r.evalResultPath = none
  sha256 : isSha256 (.str r.sha256) = true
  inputDigest : isSha256 (.str r.inputDigest) = true
  size : 0 < r.sizeBytes

/-- Twenty jobs completed in their first attempt, nothing failed, was retried or was refused, and
the queue was measured empty. -/
structure Committable (report : ReliabilityReport) : Prop where
  title : report.title = "Load Smoke Report"
  source : report.source = py "runtime_state:artifacts"
  submitted : report.submittedJobs = 20
  counts : (countsJson report.lifecycleCounts).eqValue (.obj [
    (py "cancelled", .int 0), (py "completed", .int 20), (py "dlq", .int 0), (py "failed", .int 0),
    (py "queued", .int 0), (py "running", .int 0), (py "timed_out", .int 0)]) = true
  completionRate : report.completionRate = .finite 1
  duplicates : report.duplicateFinalizationCount = 0
  conflicts : report.finalizationConflictAttemptCount = 0
  retries : report.retryCount = 0
  artifactCompleteness : report.artifactCompleteness = .finite 1
  failures : report.failureClassification = []
  cost : report.estimatedCostUsd = "0"
  replays : report.idempotencyReplayCount = 0
  injected : report.injectedFailureCount = 0
  idle : ∃ b, report.backpressure = some b ∧ b.Idle ∧
    (report.queueLagSeconds ≠ .nan ∧ report.queueLagSeconds = b.p95QueueWaitSeconds) ∧
    report.p95DurationSeconds ≠ .nan ∧ report.p95DurationSeconds = b.p95ExecutionSeconds
  artifacts : ∃ a runId, report.artifactIntegrity = some a ∧ a.checkedCount = 20 ∧
    a.validCount = 20 ∧ a.rows.length = 20 ∧ report.runId = some runId ∧ runId ≠ [] ∧
    (a.rows.map ArtifactRecord.jobId).Nodup ∧ ∀ r ∈ a.rows, CommittableRow runId r

/-- The bundle comes from the revision, the machine and the command of the release. -/
structure PinnedOrigin (env : EvidenceEnv) (origin : RunOrigin) (command : String)
    (config : List (PyStr × ConfigValue)) (seed : Option ℤ) : Prop where
  command : command = "smoke"
  seed : seed = none
  revision : (Json.obj origin.sourceRevision).eqValue (.obj [
    (py "commit", .str committedReleaseSourceRevision), (py "dirty", .bool false)]) = true
  config : (Json.obj (jsonSafeFields env config)).eqValue (.obj [
    (py "artifact_root", .str (py "artifacts")), (py "failure_rate", .float (.finite 0)),
    (py "jobs", .int 20), (py "mode", .str (py "stub")), (py "workers", .int 4)]) = true
  environment : (Json.obj origin.environment).eqValue (.obj [
    (py "implementation", .str (py "CPython")), (py "machine", .str (py "x86_64")),
    (py "platform", .str (py "Linux")), (py "python", .str (py "3.12.3"))]) = true

section
variable {env : EvidenceEnv} {runId : PyStr}

private theorem number_int {n m : ℤ} :
    (Json.int n).number? = some (.finite (m : ℚ)) ↔ n = m := by
  simp [Json.number?]

private theorem number_nat {n : ℕ} {m : ℕ} :
    (Json.int n).number? = some (.finite ((m : ℤ) : ℚ)) ↔ n = m :=
  number_int.trans Nat.cast_inj

private theorem number_zero {x : PyFloat} :
    (Json.float x).number? = some (.finite ((0 : ℤ) : ℚ)) ↔ x = .finite 0 := by
  simp [Json.number?]

private theorem evalResult_null {r : ArtifactRecord} {row : Dict}
    (hrow : artifactRow env r = .obj row) :
    getOrNull row (py "eval_result_path") = .null ↔ r.evalResultPath = none := by
  obtain rfl := Json.obj.inj hrow
  obtain ⟨_, _, _, _, _, _, _, _, evalResult⟩ := r
  cases evalResult with
  | none => exact iff_of_true rfl rfl
  | some p => exact iff_of_false (fun h => (nomatch h)) (fun h => (nomatch h))

private theorem committedRow_artifactRow {r : ArtifactRecord} {jobId : PyStr} :
    (∃ row, artifactRow env r = .obj row ∧ CommittedRow runId jobId row) ↔
      jobId = r.jobId ∧ CommittableRow runId r := by
  have hpath : py "artifact://" ++ r.jobId ++ py "/" ++ (PyPath.parse r.path).name =
      py "artifact://" ++ r.jobId ++ py "/attempt-1.json" ↔
        (PyPath.parse r.path).name = py "attempt-1.json" := by
    have hname : py "/attempt-1.json" = py "/" ++ py "attempt-1.json" := by decide
    rw [hname, ← List.append_assoc]
    exact ⟨List.append_cancel_left, fun h => by rw [h]⟩
  constructor
  · rintro ⟨row, hrow, h⟩
    obtain rfl := Json.obj.inj hrow
    obtain rfl := Json.str.inj (Option.some.inj h.job)
    refine ⟨rfl, h.job_ne_nil, Json.str.inj h.run, hpath.mp (Json.str.inj h.path), ?_, ?_,
      h.sha256, h.inputDigest, of_decide_eq_true h.size⟩
    · have hattempt : (Json.int r.attemptNumber).number? = some (.finite 1) := h.attempt
      simpa [Json.number?] using hattempt
    · exact (evalResult_null rfl).mp h.evalResult
  · rintro ⟨rfl, h⟩
    refine ⟨_, rfl, rfl, h.job_ne_nil, congrArg Json.str h.run,
      congrArg Json.str (hpath.mpr h.name), ?_, ?_, h.sha256, h.inputDigest, decide_eq_true h.size⟩
    · change (Json.int r.attemptNumber).number? = _
      rw [h.attempt]
      rfl
    · exact (evalResult_null rfl).mpr h.evalResult

private theorem committedRows_artifactRow {rows : List ArtifactRecord} {jobIds : List PyStr} :
    CommittedRows runId (rows.map (artifactRow env)) jobIds ↔
      jobIds = rows.map ArtifactRecord.jobId ∧ (rows.map ArtifactRecord.jobId).Nodup ∧
        ∀ r ∈ rows, CommittableRow runId r := by
  have hrows : List.Forall₂ (fun v jobId => ∃ row, v = .obj row ∧ CommittedRow runId jobId row)
      (rows.map (artifactRow env)) jobIds ↔
        jobIds = rows.map ArtifactRecord.jobId ∧ ∀ r ∈ rows, CommittableRow runId r := by
    rw [List.forall₂_map_left_iff]
    simp only [committedRow_artifactRow]
    induction rows generalizing jobIds with
    | nil => simp
    | cons r rows ih =>
      rw [List.forall₂_cons_left_iff, List.map_cons, List.forall_mem_cons]
      constructor
      · rintro ⟨jobId, rest, ⟨rfl, hr⟩, hrest, rfl⟩
        obtain ⟨rfl, hall⟩ := ih.mp hrest
        exact ⟨rfl, hr, hall⟩
      · rintro ⟨rfl, hr, hall⟩
        exact ⟨_, _, ⟨rfl, hr⟩, ih.mpr ⟨rfl, hall⟩, rfl⟩
  unfold CommittedRows
  rw [hrows]
  constructor
  · rintro ⟨hnodup, rfl, hall⟩
    exact ⟨rfl, hnodup, hall⟩
  · rintro ⟨rfl, hnodup, hall⟩
    exact ⟨hnodup, rfl, hall⟩

private theorem hasFields_cons {d fields : Dict} {key : PyStr} {expected : Json} :
    HasFields d ((key, expected) :: fields) ↔
      (getOrNull d key).eqValue expected = true ∧ HasFields d fields :=
  List.forall_mem_cons

private theorem hasFields_nil (d : Dict) : HasFields d [] := List.forall_mem_nil _

/-- The fields of the snapshot are as expected when it is idle. -/
private theorem hasFields_backpressure {b : QueueBackpressureSnapshot} {d : Dict}
    (hd : b.toJson = .obj d) : HasFields d expectedBackpressure ↔ b.Idle := by
  obtain rfl := Json.obj.inj hd
  simp only [expectedBackpressure, List.map_cons, List.map_nil, hasFields_cons, hasFields_nil,
    and_true, Json.eqValue_int]
  constructor
  · rintro ⟨hlag, hdlq, hleased, hage, hdepth, hrate, hrunning, hutilization⟩
    exact ⟨number_int.mp hlag, number_int.mp hdlq, number_int.mp hleased, number_zero.mp hage,
      number_int.mp hdepth, number_zero.mp hrate, number_int.mp hrunning,
      number_zero.mp hutilization⟩
  · rintro ⟨hlag, hdlq, hleased, hage, hdepth, hrate, hrunning, hutilization⟩
    exact ⟨number_int.mpr hlag, number_int.mpr hdlq, number_int.mpr hleased, number_zero.mpr hage,
      number_int.mpr hdepth, number_zero.mpr hrate, number_int.mpr hrunning,
      number_zero.mpr hutilization⟩

def reportFields (env : EvidenceEnv) (report : ReliabilityReport) : Dict :=
  match reportPayload env report with
  | .obj fields => fields
  | _ => []

private theorem hasFields_report {report : ReliabilityReport} :
    HasFields (reportFields env report) expectedReport ↔
      report.title = "Load Smoke Report" ∧ report.source = py "runtime_state:artifacts" ∧
      report.submittedJobs = 20 ∧ (countsJson report.lifecycleCounts).eqValue (.obj [
        (py "cancelled", .int 0), (py "completed", .int 20), (py "dlq", .int 0),
        (py "failed", .int 0), (py "queued", .int 0), (py "running", .int 0),
        (py "timed_out", .int 0)]) = true ∧ report.completionRate = .finite 1 ∧
      report.duplicateFinalizationCount = 0 ∧ report.finalizationConflictAttemptCount = 0 ∧
      report.retryCount = 0 ∧ report.artifactCompleteness = .finite 1 ∧
      report.failureClassification = [] ∧ report.estimatedCostUsd = "0" ∧
      report.idempotencyReplayCount = 0 ∧ report.injectedFailureCount = 0 := by
  have hone : ∀ x, (Json.float x).eqValue (.float (.finite 1)) = true ↔ x = .finite 1 := by
    intro x
    rw [Json.eqValue_float]
    exact ⟨And.right, fun h => ⟨by rw [h]; simp, h⟩⟩
  have htext : ∀ s t : String, (Json.str (py s)).eqValue (.str (py t)) = true ↔ s = t := by
    intro s t
    rw [Json.eqValue_str, Json.str.injEq, py_inj]
  have hcounts : (countsJson report.failureClassification).eqValue (.obj []) = true ↔
      report.failureClassification = [] := by
    rw [countsJson, Json.eqValue_empty, List.map_eq_nil_iff]
  simp only [expectedReport, hasFields_cons, hasFields_nil, and_true]
  refine and_congr (htext _ _) (and_congr ?_ (and_congr (Json.eqValue_int.trans number_nat)
    (and_congr Iff.rfl (and_congr (hone _) (and_congr (Json.eqValue_int.trans number_nat)
    (and_congr (Json.eqValue_int.trans number_nat) (and_congr (Json.eqValue_int.trans number_nat)
    (and_congr (hone _) (and_congr hcounts (and_congr (htext _ _) (and_congr
    (Json.eqValue_int.trans number_nat) (Json.eqValue_int.trans number_nat))))))))))))
  exact Json.eqValue_str.trans ⟨Json.str.inj, congrArg Json.str⟩

private theorem get?_backpressure (report : ReliabilityReport) :
    Dict.get? (reportFields env report) (py "backpressure") =
      some (report.backpressure.elim .null QueueBackpressureSnapshot.toJson) := by
  obtain ⟨_, _, _, _, _, _, _, _, _, _, _, _, _, _, _, _, backpressure, _⟩ := report
  cases backpressure <;> rfl

private theorem get?_runId (report : ReliabilityReport) :
    Dict.get? (reportFields env report) (py "run_id") = some (report.runId.elim .null .str) := by
  obtain ⟨_, _, _, _, _, _, _, _, _, _, _, runId, _, _, _, _, _, _⟩ := report
  cases runId <;> rfl

private def integrityFields (env : EvidenceEnv) (a : Option ArtifactIntegritySummary) : Dict := [
  (py "checked_count", .int ((a.map ArtifactIntegritySummary.checkedCount).getD 0)),
  (py "valid_count", .int ((a.map ArtifactIntegritySummary.validCount).getD 0)),
  (py "artifacts", .arr ((a.elim [] ArtifactIntegritySummary.rows).map (artifactRow env)))]

private theorem get?_integrity (report : ReliabilityReport) :
    Dict.get? (reportFields env report) (py "artifact_integrity") =
      some (.obj (integrityFields env report.artifactIntegrity)) := by
  obtain ⟨_, _, _, _, _, _, _, _, _, _, _, _, _, _, _, _, _, integrity⟩ := report
  cases integrity <;> rfl

private theorem checked_count {a : Option ArtifactIntegritySummary} :
    (getOrNull (integrityFields env a) (py "checked_count")).number? = some (.finite 20) ↔
      (a.map ArtifactIntegritySummary.checkedCount).getD 0 = 20 := number_nat

private theorem valid_count {a : Option ArtifactIntegritySummary} :
    (getOrNull (integrityFields env a) (py "valid_count")).number? = some (.finite 20) ↔
      (a.map ArtifactIntegritySummary.validCount).getD 0 = 20 := number_nat

/-- The parts of the data that are written of a report, where it has them. -/
private theorem committedReport_iff {report : ReliabilityReport} :
    (∃ parts : CommittedParts, parts.report = reportFields env report ∧
      HasFields parts.report expectedReport ∧
      Dict.get? parts.report (py "backpressure") = some (.obj parts.backpressure) ∧
      HasFields parts.backpressure expectedBackpressure ∧
      (getOrNull parts.report (py "queue_lag_seconds")).eqValue
        (getOrNull parts.backpressure (py "p95_queue_wait_seconds")) = true ∧
      (getOrNull parts.report (py "p95_duration_seconds")).eqValue
        (getOrNull parts.backpressure (py "p95_execution_seconds")) = true ∧
      Dict.get? parts.report (py "artifact_integrity") = some (.obj parts.integrity) ∧
      (getOrNull parts.integrity (py "checked_count")).number? = some (.finite 20) ∧
      (getOrNull parts.integrity (py "valid_count")).number? = some (.finite 20) ∧
      Dict.get? parts.integrity (py "artifacts") = some (.arr parts.rows) ∧
      parts.rows.length = 20 ∧ Dict.get? parts.report (py "run_id") = some (.str parts.runId) ∧
      parts.runId ≠ [] ∧ CommittedRows parts.runId parts.rows parts.jobIds) ↔
      Committable report := by
  constructor
  · rintro ⟨⟨_, backpressure, integrity, runId, rows, jobIds⟩, rfl, hfields, hbackpressure, hidle,
      hlag, hduration, hintegrity, hchecked, hvalid, hartifacts, htwenty, hrun, hne, hrows⟩
    obtain ⟨htitle, hsource, hsubmitted, hcounts, hcompletion, hduplicates, hconflicts, hretries,
      hcompleteness, hfailures, hcost, hreplays, hinjected⟩ := hasFields_report.mp hfields
    have hidleReport : ∃ b, report.backpressure = some b ∧ b.Idle ∧
        (report.queueLagSeconds ≠ .nan ∧ report.queueLagSeconds = b.p95QueueWaitSeconds) ∧
        report.p95DurationSeconds ≠ .nan ∧ report.p95DurationSeconds = b.p95ExecutionSeconds := by
      rw [get?_backpressure] at hbackpressure
      cases hb : report.backpressure with
      | none =>
        rw [hb] at hbackpressure
        cases hbackpressure
      | some b =>
        rw [hb] at hbackpressure
        have hd : b.toJson = .obj backpressure := Option.some.inj hbackpressure
        have hbIdle : b.Idle := (hasFields_backpressure hd).mp hidle
        obtain rfl := Json.obj.inj hd
        exact ⟨b, rfl, hbIdle, Json.eqValue_float.mp hlag, Json.eqValue_float.mp hduration⟩
    have hartifactsReport : ∃ a runId, report.artifactIntegrity = some a ∧ a.checkedCount = 20 ∧
        a.validCount = 20 ∧ a.rows.length = 20 ∧ report.runId = some runId ∧ runId ≠ [] ∧
        (a.rows.map ArtifactRecord.jobId).Nodup ∧ ∀ r ∈ a.rows, CommittableRow runId r := by
      rw [get?_integrity] at hintegrity
      obtain rfl := Json.obj.inj (Option.some.inj hintegrity)
      rw [get?_runId] at hrun
      cases ha : report.artifactIntegrity with
      | none =>
        rw [ha] at hchecked
        exact absurd (checked_count.mp hchecked) (by decide)
      | some a =>
        rw [ha] at hchecked hvalid hartifacts
        obtain rfl := Json.arr.inj (Option.some.inj hartifacts)
        obtain ⟨-, hnodup, hall⟩ := committedRows_artifactRow.mp hrows
        rw [List.length_map] at htwenty
        cases hid : report.runId with
        | none =>
          rw [hid] at hrun
          cases hrun
        | some id =>
          rw [hid] at hrun
          obtain rfl := Json.str.inj (Option.some.inj hrun)
          exact ⟨a, id, rfl, checked_count.mp hchecked, valid_count.mp hvalid, htwenty, rfl, hne,
            hnodup, hall⟩
    exact ⟨htitle, hsource, hsubmitted, hcounts, hcompletion, hduplicates, hconflicts, hretries,
      hcompleteness, hfailures, hcost, hreplays, hinjected, hidleReport, hartifactsReport⟩
  · intro h
    obtain ⟨b, hb, hidle, hlag, hduration⟩ := h.idle
    obtain ⟨a, runId, ha, hchecked, hvalid, htwenty, hrun, hne, hnodup, hrows⟩ := h.artifacts
    refine ⟨⟨reportFields env report, _, integrityFields env report.artifactIntegrity, runId,
      a.rows.map (artifactRow env), a.rows.map ArtifactRecord.jobId⟩, rfl, ?_, ?_,
      (hasFields_backpressure rfl).mpr hidle, Json.eqValue_float.mpr hlag,
      Json.eqValue_float.mpr hduration, get?_integrity report, ?_, ?_, ?_, ?_, ?_, hne, ?_⟩
    · exact hasFields_report.mpr ⟨h.title, h.source, h.submitted, h.counts, h.completionRate,
        h.duplicates, h.conflicts, h.retries, h.artifactCompleteness, h.failures, h.cost, h.replays,
        h.injected⟩
    · rw [get?_backpressure, hb]
      rfl
    · rw [ha]
      exact checked_count.mpr hchecked
    · rw [ha]
      exact valid_count.mpr hvalid
    · rw [ha]
      rfl
    · rw [List.length_map, htwenty]
    · rw [get?_runId, hrun]
      rfl
    · exact committedRows_artifactRow.mpr ⟨rfl, hnodup, hrows⟩

private theorem hasFields_payload {origin : RunOrigin} {report : ReliabilityReport}
    {command : String} {config : List (PyStr × ConfigValue)} {seed : Option ℤ} :
    HasFields (evidencePayload env origin report command config seed) expectedTopLevel ↔
      PinnedOrigin env origin command config seed := by
  have hcommand : (Json.str (py command)).eqValue (.str (py "smoke")) = true ↔
      command = "smoke" := by
    rw [Json.eqValue_str, Json.str.injEq, py_inj]
  have hseed : (getOrNull (evidencePayload env origin report command config seed)
      (py "seed")).eqValue .null = true ↔ seed = none := by
    rw [Json.eqValue_null]
    cases seed with
    | none => exact iff_of_true rfl rfl
    | some n => exact iff_of_false (fun h => (nomatch h)) (fun h => (nomatch h))
  simp only [expectedTopLevel, hasFields_cons, hasFields_nil, and_true]
  constructor
  · rintro ⟨-, h, h', hrevision, hconfig, henvironment⟩
    exact ⟨hcommand.mp h, hseed.mp h', hrevision, hconfig, henvironment⟩
  · intro h
    exact ⟨Json.eqValue_str.mpr rfl, hcommand.mpr h.command, hseed.mpr h.seed, h.revision, h.config,
      h.environment⟩

/-- The data that are written of a report are those of a release exactly when they come from the
pinned origin and the report is of a clean run of twenty jobs. -/
theorem exists_committedData_iff (env : EvidenceEnv) (origin : RunOrigin)
    (report : ReliabilityReport) (command : String) (config : List (PyStr × ConfigValue))
    (seed : Option ℤ) :
    (∃ parts, CommittedData (evidencePayload env origin report command config seed) parts) ↔
      PinnedOrigin env origin command config seed ∧ Committable report := by
  have hreport : Dict.get? (evidencePayload env origin report command config seed) (py "report") =
      some (.obj (reportFields env report)) := rfl
  rw [← @hasFields_payload env origin report, ← @committedReport_iff env report]
  constructor
  · rintro ⟨parts, h⟩
    have hparts : parts.report = reportFields env report :=
      Json.obj.inj (Option.some.inj (h.report.symm.trans hreport))
    exact ⟨h.topLevel, parts, hparts, h.fields, h.backpressure, h.idle, h.queueLag, h.duration,
      h.integrity, h.checked, h.valid, h.artifacts, h.twenty, h.runId, h.runId_ne_nil, h.rows⟩
  · rintro ⟨htop, parts, hparts, hrest⟩
    rw [hparts] at hrest
    obtain ⟨hfields, hbackpressure, hidle, hlag, hduration, hintegrity, hchecked, hvalid,
      hartifacts, htwenty, hrun, hne, hrows⟩ := hrest
    exact ⟨{ parts with report := reportFields env report }, htop, hreport, hfields, hbackpressure,
      hidle, hlag, hduration, hintegrity, hchecked, hvalid, hartifacts, htwenty, hrun, hne, hrows⟩

private theorem distinct_artifactRow (r : ArtifactRecord) : Json.Distinct (artifactRow env r) := by
  have hkeys : [py "path", py "size_bytes", py "sha256", py "job_id", py "run_id",
      py "attempt_number", py "input_digest", py "created_at", py "eval_result_path"].Nodup := by
    decide
  refine ⟨hkeys, trivial, trivial, trivial, trivial, trivial, trivial, trivial, trivial, ?_,
    trivial⟩
  cases r.evalResultPath <;> trivial

private theorem distinct_snapshot (b : QueueBackpressureSnapshot) : Json.Distinct b.toJson := by
  have hkeys : [py "queue_depth", py "oldest_pending_age_seconds", py "consumer_lag",
      py "leased_jobs", py "running_jobs", py "worker_utilization", py "retry_rate",
      py "dlq_count", py "p95_queue_wait_seconds", py "p95_execution_seconds"].Nodup := by
    decide
  exact ⟨hkeys, trivial, trivial, trivial, trivial, trivial, trivial, trivial, trivial, trivial,
    trivial, trivial⟩

private theorem distinct_reportPayload {report : ReliabilityReport}
    (hcounts : Json.Distinct (countsJson report.lifecycleCounts))
    (hfailures : Json.Distinct (countsJson report.failureClassification)) :
    Json.Distinct (reportPayload env report) := by
  have hkeys : [py "title", py "run_id", py "source", py "submitted_jobs", py "lifecycle_counts",
      py "completion_rate", py "duplicate_terminal_event_count",
      py "finalization_conflict_attempt_count", py "retry_count", py "queue_lag_seconds",
      py "p95_duration_seconds", py "artifact_completeness", py "failure_classification",
      py "estimated_cost_usd", py "idempotency_replay_count", py "injected_failure_count",
      py "backpressure", py "artifact_integrity"].Nodup := by
    decide
  have hintegrityKeys : [py "checked_count", py "valid_count", py "artifacts"].Nodup := by decide
  obtain ⟨_, counts, _, _, _, _, _, _, _, failures, _, runId, _, _, _, _, backpressure,
    integrity⟩ := report
  have hrows : ∀ rows : List ArtifactRecord,
      Json.DistinctItems (rows.map (artifactRow env)) := fun rows =>
    Json.distinctItems_iff.mpr (List.forall_mem_map.mpr fun r _ => distinct_artifactRow r)
  refine ⟨hkeys, trivial, ?_, trivial, trivial, hcounts, trivial, trivial, trivial, trivial,
    trivial, trivial, trivial, hfailures, trivial, trivial, trivial, ?_,
    ⟨hintegrityKeys, trivial, trivial, hrows _, trivial⟩, trivial⟩
  · cases runId <;> trivial
  · cases backpressure with
    | none => trivial
    | some b => exact distinct_snapshot b

/-- The written data have distinct keys when the parts that the caller gives have. -/
theorem distinct_evidencePayload {origin : RunOrigin} {report : ReliabilityReport}
    {command : String} {config : List (PyStr × ConfigValue)} {seed : Option ℤ}
    (hcounts : Json.Distinct (countsJson report.lifecycleCounts))
    (hfailures : Json.Distinct (countsJson report.failureClassification))
    (hconfig : Json.Distinct (.obj (jsonSafeFields env config)))
    (hrevision : Json.Distinct (.obj origin.sourceRevision))
    (henvironment : Json.Distinct (.obj origin.environment)) :
    Json.Distinct (.obj (evidencePayload env origin report command config seed)) := by
  have hkeys : [py "schema_version", py "generated_at", py "command", py "config", py "seed",
      py "source_revision", py "environment", py "report"].Nodup := by
    decide
  refine ⟨hkeys, trivial, trivial, trivial, hconfig, ?_, hrevision, henvironment,
    distinct_reportPayload hcounts hfailures, trivial⟩
  cases seed <;> trivial

end

end AgentRuntimeGrid
