import AgentRuntimeGrid.Evidence.Handling
import AgentRuntimeGrid.Jobs.Payload
import AgentRuntimeGrid.Lib.Exceptions
import AgentRuntimeGrid.Lib.PyEquality

/-! The gate of a committed release: its manifest has a fixed digest, the manifest fixes the report
and the data, and the data tells of the run that the release was made from. -/
namespace AgentRuntimeGrid

structure ReleaseEnv extends Env where
  /-- `repr` of a text. -/
  reprText : PyStr → PyStr

/-- `repr(v)`. -/
def ReleaseEnv.repr (env : ReleaseEnv) : Json → PyStr
  | .str s => env.reprText s
  | v => env.strOther v

def runEvidenceSchema : PyStr := py "agent-runtime-grid.run-evidence.v1"

def committedReleaseParts : List PyStr :=
  [py "docs", py "evidence", py "releases", py "v0.1.0"]

def committedReleaseStem : PyStr := py "runtime-smoke"

/-- `COMMITTED_RELEASE_MANIFEST.as_posix()`. -/
def committedReleaseManifest : PyStr :=
  PyPath.text ⟨[], committedReleaseParts ++ [manifestName committedReleaseStem]⟩

def committedReleaseManifestSha256 : String :=
  "07442b769fad42a1664cc3adc7a11d73cb2041ceb61f65e402087e096d5b12ed"

def committedReleaseSourceRevision : PyStr := py "ddf533b36bbca0fd90a3093984d0b3f36e8ebeab"

/-- `d.get(key)`. -/
def getOrNull (d : Dict) (key : PyStr) : Json := (Dict.get? d key).getD .null

def requireCommittedValue (env : ReleaseEnv) (actual expected : Json) (field : PyStr) :
    Except EvidenceError Unit :=
  if actual.eqValue expected then .ok ()
  else .error (.verification (py "committed release semantic mismatch for " ++ field ++
    py ": expected " ++ env.repr expected ++ py ", got " ++ env.repr actual))

/-- The loop over the expected fields of an object. -/
def requireFields (env : ReleaseEnv) (d : Dict) (path : PyStr) :
    List (PyStr × Json) → Except EvidenceError Unit
  | [] => .ok ()
  | (field, expected) :: rest => do
      requireCommittedValue env (getOrNull d field) expected (path ++ field)
      requireFields env d path rest

def expectedTopLevel : Dict := [
  (py "schema_version", .str runEvidenceSchema),
  (py "command", .str (py "smoke")),
  (py "seed", .null),
  (py "source_revision", .obj [
    (py "commit", .str committedReleaseSourceRevision),
    (py "dirty", .bool false)]),
  (py "config", .obj [
    (py "artifact_root", .str (py "artifacts")),
    (py "failure_rate", .float (.finite 0)),
    (py "jobs", .int 20),
    (py "mode", .str (py "stub")),
    (py "workers", .int 4)]),
  (py "environment", .obj [
    (py "implementation", .str (py "CPython")),
    (py "machine", .str (py "x86_64")),
    (py "platform", .str (py "Linux")),
    (py "python", .str (py "3.12.3"))])]

def expectedReport : Dict := [
  (py "title", .str (py "Load Smoke Report")),
  (py "source", .str (py "runtime_state:artifacts")),
  (py "submitted_jobs", .int 20),
  (py "lifecycle_counts", .obj [
    (py "cancelled", .int 0),
    (py "completed", .int 20),
    (py "dlq", .int 0),
    (py "failed", .int 0),
    (py "queued", .int 0),
    (py "running", .int 0),
    (py "timed_out", .int 0)]),
  (py "completion_rate", .float (.finite 1)),
  (py "duplicate_terminal_event_count", .int 0),
  (py "finalization_conflict_attempt_count", .int 0),
  (py "retry_count", .int 0),
  (py "artifact_completeness", .float (.finite 1)),
  (py "failure_classification", .obj []),
  (py "estimated_cost_usd", .str (py "0")),
  (py "idempotency_replay_count", .int 0),
  (py "injected_failure_count", .int 0)]

def expectedBackpressure : Dict :=
  [py "consumer_lag", py "dlq_count", py "leased_jobs", py "oldest_pending_age_seconds",
    py "queue_depth", py "retry_rate", py "running_jobs",
    py "worker_utilization"].map fun field => (field, .int 0)

/-- `_is_sha256`. -/
def isSha256 : Json → Bool
  | .str s => decide (s.length = 64) && s.all fun c => decide (c ∈ py "0123456789abcdef")
  | _ => false

/-- `isinstance(v, int) and v > 0`; `True` is an instance of `int`. -/
def isPositiveInt : Json → Bool
  | .int n => 0 < n
  | .bool b => b
  | _ => false

/-- `f"artifact[{index}]"`. -/
def artifactField (index : ℕ) (field : String) : PyStr :=
  py ("artifact[" ++ toString index ++ "].") ++ py field

/-- What the check of an artifact row says of the fields beside its `job_id`. -/
def verifyRowFields (env : ReleaseEnv) (runId jobId : PyStr) (index : ℕ) (artifact : Dict) :
    Except EvidenceError Unit := do
  requireCommittedValue env (getOrNull artifact (py "run_id")) (.str runId)
    (artifactField index "run_id")
  requireCommittedValue env (getOrNull artifact (py "path"))
    (.str (py "artifact://" ++ jobId ++ py "/attempt-1.json")) (artifactField index "path")
  requireCommittedValue env (getOrNull artifact (py "attempt_number")) (.int 1)
    (artifactField index "attempt_number")
  requireCommittedValue env (getOrNull artifact (py "eval_result_path")) .null
    (artifactField index "eval_result_path")
  if ¬ isSha256 (getOrNull artifact (py "sha256")) then
    throw (.verification (artifactField index "sha256" ++ py " must be lowercase SHA-256"))
  if ¬ isSha256 (getOrNull artifact (py "input_digest")) then
    throw (.verification (artifactField index "input_digest" ++ py " must be lowercase SHA-256"))
  if ¬ isPositiveInt (getOrNull artifact (py "size_bytes")) then
    throw (.verification (artifactField index "size_bytes" ++ py " must be positive"))

/-- The loop over the artifact rows; `jobIds` have been seen before. -/
def verifyRows (env : ReleaseEnv) (runId : PyStr) (jobIds : List PyStr) (index : ℕ) :
    List Json → Except EvidenceError Unit
  | [] => .ok ()
  | .obj artifact :: rest => do
      let noJobId := EvidenceError.verification (py "committed artifact row " ++
        py (toString index) ++ py " has a missing or duplicate job_id")
      match Dict.get? artifact (py "job_id") with
      | some (.str jobId) =>
        if jobId = [] ∨ jobId ∈ jobIds then .error noJobId
        else do
          verifyRowFields env runId jobId index artifact
          verifyRows env runId (jobId :: jobIds) (index + 1) rest
      | _ => .error noJobId
  | _ :: _ => .error (.verification (py "committed artifact row " ++ py (toString index) ++
      py " must be an object"))

/-- The part of `_verify_committed_release_semantics` about `report["artifact_integrity"]`. -/
def verifyArtifactIntegrity (env : ReleaseEnv) (report integrity : Dict) :
    Except EvidenceError Unit := do
  requireCommittedValue env (getOrNull integrity (py "checked_count")) (.int 20)
    (py "report.artifact_integrity.checked_count")
  requireCommittedValue env (getOrNull integrity (py "valid_count")) (.int 20)
    (py "report.artifact_integrity.valid_count")
  match Dict.get? integrity (py "artifacts") with
  | some (.arr artifacts) =>
    if artifacts.length ≠ 20 then
      .error (.verification
        (py "committed release artifact integrity must contain exactly 20 rows"))
    else match Dict.get? report (py "run_id") with
      | some (.str runId) =>
        if runId = [] then
          .error (.verification (py "committed release run_id must be a non-empty string"))
        else verifyRows env runId [] 0 artifacts
      | _ => .error (.verification (py "committed release run_id must be a non-empty string"))
  | _ => .error (.verification
      (py "committed release artifact integrity must contain exactly 20 rows"))

/-- The part of `_verify_committed_release_semantics` about `payload["report"]`. -/
def verifyReleaseReport (env : ReleaseEnv) (report : Dict) : Except EvidenceError Unit := do
  requireFields env report (py "report.") expectedReport
  match Dict.get? report (py "backpressure") with
  | some (.obj backpressure) => do
    requireFields env backpressure (py "report.backpressure.") expectedBackpressure
    requireCommittedValue env (getOrNull report (py "queue_lag_seconds"))
      (getOrNull backpressure (py "p95_queue_wait_seconds")) (py "report.queue_lag_seconds")
    requireCommittedValue env (getOrNull report (py "p95_duration_seconds"))
      (getOrNull backpressure (py "p95_execution_seconds")) (py "report.p95_duration_seconds")
    match Dict.get? report (py "artifact_integrity") with
    | some (.obj integrity) => verifyArtifactIntegrity env report integrity
    | _ => .error (.verification
        (py "committed release artifact integrity must be an object"))
  | _ => .error (.verification (py "committed release backpressure must be a JSON object"))

def verifyCommittedReleaseSemantics (env : ReleaseEnv) : Json → Except EvidenceError Unit
  | .obj payload => do
    requireFields env payload [] expectedTopLevel
    match Dict.get? payload (py "report") with
    | some (.obj report) => verifyReleaseReport env report
    | _ => .error (.verification (py "committed release report must be a JSON object"))
  | _ => .error (.verification (py "committed release data must be a JSON object"))

structure CommittedEvidenceVerification where
  manifestPath : PyStr
  contentAddress : PyStr
  sourceRevision : PyStr
  submittedJobs : Json
  validArtifacts : Json

/-- `v[key]`. -/
def item (v : Json) (key : PyStr) : Except EvidenceError Json :=
  match v with
  | .obj d => match Dict.get? d key with
    | some w => .ok w
    | none => .error (.raised "KeyError")
  | _ => .error (.raised "TypeError")

/-- `json.loads(data_path.read_text(encoding="utf-8"))`. -/
def readCommittedData (env : Env) (d : Directory) (parent : PyPath) : Except EvidenceError Json :=
  let name := dataName committedReleaseStem
  let unreadable := EvidenceError.verification
    (py "cannot read committed release data: " ++ manifestPath parent name)
  match d.read name with
  | none => .error unreadable
  | some bytes => match PyText.utf8Decode bytes with
    | none => .error (.raised "UnicodeDecodeError")
    | some text => match env.jsonLoads text with
      | .error .decodeError => .error unreadable
      | .error (.other c) => .error (.raised c)
      | .ok payload => .ok payload

/-- What is made of the data once they have passed. -/
def committedVerification (payload : Json) :
    Except EvidenceError CommittedEvidenceVerification := do
  let report ← item payload (py "report")
  let artifactIntegrity ← item report (py "artifact_integrity")
  return {
    manifestPath := committedReleaseManifest
    contentAddress := py "sha256:" ++ py committedReleaseManifestSha256
    sourceRevision := committedReleaseSourceRevision
    submittedJobs := ← item report (py "submitted_jobs")
    validArtifacts := ← item artifactIntegrity (py "valid_count") }

def releaseParent (root : PyPath) : PyPath :=
  { root with parts := root.parts ++ committedReleaseParts }

/-- `verify_committed_release_evidence`; the directory is that of the manifest under `root`. -/
def verifyCommittedReleaseEvidence (env : ReleaseEnv) (d : Directory) (root : PyPath) :
    Except EvidenceError CommittedEvidenceVerification :=
  match d.lookup (manifestName committedReleaseStem) with
  | some (.file bytes) =>
    if env.sha256 bytes ≠ committedReleaseManifestSha256 then
      .error (.verification (py "committed release manifest content address mismatch: expected " ++
        py committedReleaseManifestSha256 ++ py ", got " ++ py (env.sha256 bytes)))
    else do
      verifyEvidenceManifest env.toEnv d (releaseParent root) (manifestName committedReleaseStem)
      let payload ← readCommittedData env.toEnv d (releaseParent root)
      verifyCommittedReleaseSemantics env payload
      committedVerification payload
  | _ => .error (.verification (py "committed release manifest is missing or unsafe: " ++
      committedReleaseManifest))

/-- `verify_committed_release_evidence`, where lookups may raise. -/
def verifyCommittedReleaseEvidenceOn (errors : LookupErrors) (env : ReleaseEnv) (d : Directory)
    (root : PyPath) : Except EvidenceError CommittedEvidenceVerification :=
  let name := manifestName committedReleaseStem
  let missing := EvidenceError.verification
    (py "committed release manifest is missing or unsafe: " ++ committedReleaseManifest)
  match errors.isSymlink name with
  | some c => .error (.raised c)
  | none =>
    if (d.lookup name).any DirEntry.isSymlink then .error missing
    else match errors.isFile name with
      | some c => .error (.raised c)
      | none => match d.read name with
        | none => .error missing
        | some bytes =>
          if env.sha256 bytes ≠ committedReleaseManifestSha256 then
            .error (.verification (py
              "committed release manifest content address mismatch: expected " ++
                py committedReleaseManifestSha256 ++ py ", got " ++ py (env.sha256 bytes)))
          else do
            verifyEvidenceManifestOn errors env.toEnv d (releaseParent root) name
            let payload ← readCommittedData env.toEnv d (releaseParent root)
            verifyCommittedReleaseSemantics env payload
            committedVerification payload

/-- The row is of the first attempt of the job in the run. -/
structure CommittedRow (runId jobId : PyStr) (row : Dict) : Prop where
  job : Dict.get? row (py "job_id") = some (.str jobId)
  job_ne_nil : jobId ≠ []
  run : getOrNull row (py "run_id") = .str runId
  path : getOrNull row (py "path") = .str (py "artifact://" ++ jobId ++ py "/attempt-1.json")
  attempt : (getOrNull row (py "attempt_number")).number? = some (.finite 1)
  evalResult : getOrNull row (py "eval_result_path") = .null
  sha256 : isSha256 (getOrNull row (py "sha256")) = true
  inputDigest : isSha256 (getOrNull row (py "input_digest")) = true
  size : isPositiveInt (getOrNull row (py "size_bytes")) = true

/-- The rows are of these jobs, one of each. -/
def CommittedRows (runId : PyStr) (rows : List Json) (jobIds : List PyStr) : Prop :=
  jobIds.Nodup ∧ List.Forall₂ (fun v jobId => ∃ row, v = .obj row ∧ CommittedRow runId jobId row)
    rows jobIds

def HasFields (d fields : Dict) : Prop :=
  ∀ fe ∈ fields, (getOrNull d fe.1).eqValue fe.2 = true

structure CommittedParts where
  report : Dict
  backpressure : Dict
  integrity : Dict
  runId : PyStr
  rows : List Json
  jobIds : List PyStr

/-- The data tell of a clean run of twenty jobs. -/
structure CommittedData (payload : Dict) (parts : CommittedParts) : Prop where
  topLevel : HasFields payload expectedTopLevel
  report : Dict.get? payload (py "report") = some (.obj parts.report)
  fields : HasFields parts.report expectedReport
  backpressure : Dict.get? parts.report (py "backpressure") = some (.obj parts.backpressure)
  idle : HasFields parts.backpressure expectedBackpressure
  queueLag : (getOrNull parts.report (py "queue_lag_seconds")).eqValue
    (getOrNull parts.backpressure (py "p95_queue_wait_seconds")) = true
  duration : (getOrNull parts.report (py "p95_duration_seconds")).eqValue
    (getOrNull parts.backpressure (py "p95_execution_seconds")) = true
  integrity : Dict.get? parts.report (py "artifact_integrity") = some (.obj parts.integrity)
  checked : (getOrNull parts.integrity (py "checked_count")).number? = some (.finite 20)
  valid : (getOrNull parts.integrity (py "valid_count")).number? = some (.finite 20)
  artifacts : Dict.get? parts.integrity (py "artifacts") = some (.arr parts.rows)
  twenty : parts.rows.length = 20
  runId : Dict.get? parts.report (py "run_id") = some (.str parts.runId)
  runId_ne_nil : parts.runId ≠ []
  rows : CommittedRows parts.runId parts.rows parts.jobIds

section Semantics
variable {env : ReleaseEnv} {H : EvidenceError → Prop} {P : Unit → Prop}

private theorem eq_ok_iff {x : Except EvidenceError Unit} :
    x = .ok () ↔ x.Ensures (fun _ => False) fun _ => True := by
  cases x <;> simp

private theorem and_implies_iff {a b : Prop} : (a ∧ (a → b)) ↔ a ∧ b :=
  and_congr_right fun h => forall_prop_of_true h

theorem requireCommittedValue_passes {actual expected : Json} {field : PyStr} :
    (requireCommittedValue env actual expected field).Ensures (fun _ => False) P ↔
      actual.eqValue expected = true ∧ P () := by
  unfold requireCommittedValue
  split <;> simp [*]

theorem requireFields_passes {d fields : Dict} {path : PyStr} :
    (requireFields env d path fields).Ensures (fun _ => False) P ↔ HasFields d fields ∧ P () := by
  induction fields with
  | nil => simp [requireFields, HasFields]
  | cons fe fields ih =>
    obtain ⟨field, expected⟩ := fe
    rw [requireFields, Except.ensures_bind, requireCommittedValue_passes, ih, ← and_assoc]
    simp [HasFields]

private theorem verifyRowFields_passes {runId jobId : PyStr} {index : ℕ} {row : Dict}
    (hjob : Dict.get? row (py "job_id") = some (.str jobId)) (hne : jobId ≠ []) :
    (verifyRowFields env runId jobId index row).Ensures (fun _ => False) P ↔
      CommittedRow runId jobId row ∧ P () := by
  unfold verifyRowFields
  simp only [Except.ensures_bind, requireCommittedValue_passes, Json.eqValue_str,
    Json.eqValue_int, Json.eqValue_null, Except.ensures_ite, Except.ensures_throw,
    Except.ensures_pure, imp_false, not_not, and_implies_iff]
  constructor
  · rintro ⟨hrun, hpath, hattempt, heval, hsha, hdigest, hsize, hP⟩
    exact ⟨⟨hjob, hne, hrun, hpath, hattempt, heval, hsha, hdigest, hsize⟩, hP⟩
  · rintro ⟨h, hP⟩
    exact ⟨h.run, h.path, h.attempt, h.evalResult, h.sha256, h.inputDigest, h.size, hP⟩

theorem verifyRows_eq_ok {runId : PyStr} {seen : List PyStr} {index : ℕ} {rows : List Json} :
    verifyRows env runId seen index rows = .ok () ↔
      ∃ jobIds, CommittedRows runId rows jobIds ∧ ∀ jobId ∈ jobIds, jobId ∉ seen := by
  induction rows generalizing seen index with
  | nil =>
    constructor
    · exact fun _ => ⟨[], ⟨List.nodup_nil, .nil⟩, List.forall_mem_nil _⟩
    · exact fun _ => rfl
  | cons v rows ih =>
    constructor
    · intro h
      cases v with
      | obj row =>
        rw [verifyRows] at h
        split at h
        next jobId hjob =>
          split at h
          · cases h
          next hnew =>
          push Not at hnew
          rw [eq_ok_iff, Except.ensures_bind, verifyRowFields_passes hjob hnew.1, ← eq_ok_iff,
            ih] at h
          obtain ⟨hrow, jobIds, ⟨hnodup, hrows⟩, hseen⟩ := h
          have hnotMem : jobId ∉ jobIds := fun hmem => hseen jobId hmem List.mem_cons_self
          refine ⟨jobId :: jobIds, ⟨hnodup.cons hnotMem, .cons ⟨row, rfl, hrow⟩ hrows⟩, ?_⟩
          rw [List.forall_mem_cons]
          exact ⟨hnew.2, fun id hid hmem => hseen id hid (List.mem_cons_of_mem _ hmem)⟩
        next => cases h
      | _ => cases h
    · rintro ⟨jobIds, ⟨hnodup, hrows⟩, hseen⟩
      obtain ⟨jobId, jobIds, ⟨row, rfl, hrow⟩, hrest, rfl⟩ := List.forall₂_cons_left_iff.mp hrows
      rw [List.nodup_cons] at hnodup
      rw [List.forall_mem_cons] at hseen
      have hnew : ¬(jobId = [] ∨ jobId ∈ seen) := not_or.mpr ⟨hrow.job_ne_nil, hseen.1⟩
      rw [verifyRows]
      simp only [hrow.job, hnew, if_false]
      rw [eq_ok_iff, Except.ensures_bind, verifyRowFields_passes hrow.job hrow.job_ne_nil,
        ← eq_ok_iff, ih]
      refine ⟨hrow, jobIds, ⟨hnodup.2, hrest⟩, fun id hid hmem => ?_⟩
      rcases List.mem_cons.mp hmem with rfl | hmem
      · exact hnodup.1 hid
      · exact hseen.2 id hid hmem

private theorem verifyArtifactIntegrity_passes {report integrity : Dict} :
    verifyArtifactIntegrity env report integrity = .ok () ↔ ∃ rows runId jobIds,
      (getOrNull integrity (py "checked_count")).number? = some (.finite 20) ∧
      (getOrNull integrity (py "valid_count")).number? = some (.finite 20) ∧
      Dict.get? integrity (py "artifacts") = some (.arr rows) ∧ rows.length = 20 ∧
      Dict.get? report (py "run_id") = some (.str runId) ∧ runId ≠ [] ∧
      CommittedRows runId rows jobIds := by
  unfold verifyArtifactIntegrity
  rw [eq_ok_iff, Except.ensures_bind, requireCommittedValue_passes, Except.ensures_bind,
    requireCommittedValue_passes, ← eq_ok_iff, Json.eqValue_int, Json.eqValue_int]
  constructor
  · rintro ⟨hchecked, hvalid, h⟩
    split at h
    next rows hrows =>
      split at h
      · cases h
      next hlength =>
        split at h
        next runId hrun =>
          split at h
          · cases h
          next hne =>
            obtain ⟨jobIds, hjobs, -⟩ := verifyRows_eq_ok.mp h
            exact ⟨rows, runId, jobIds, hchecked, hvalid, hrows, not_not.mp hlength, hrun, hne,
              hjobs⟩
        next => cases h
    next => cases h
  · rintro ⟨rows, runId, jobIds, hchecked, hvalid, hrows, hlength, hrun, hne, hjobs⟩
    refine ⟨hchecked, hvalid, ?_⟩
    simp only [hrows, hlength, hrun, hne, ne_eq, not_true_eq_false, if_false]
    exact verifyRows_eq_ok.mpr ⟨jobIds, hjobs, fun _ _ => List.not_mem_nil⟩

/-- The check of the data passes exactly when they tell of a clean run of twenty jobs. -/
theorem verifyCommittedReleaseSemantics_eq_ok {v : Json} :
    verifyCommittedReleaseSemantics env v = .ok () ↔
      ∃ payload parts, v = .obj payload ∧ CommittedData payload parts := by
  constructor
  · intro h
    cases v with
    | obj payload =>
      unfold verifyCommittedReleaseSemantics at h
      rw [eq_ok_iff, Except.ensures_bind, requireFields_passes, ← eq_ok_iff] at h
      obtain ⟨htop, h⟩ := h
      split at h
      next report hreport =>
        unfold verifyReleaseReport at h
        rw [eq_ok_iff, Except.ensures_bind, requireFields_passes, ← eq_ok_iff] at h
        obtain ⟨hfields, h⟩ := h
        split at h
        next backpressure hbackpressure =>
          rw [eq_ok_iff, Except.ensures_bind, requireFields_passes, Except.ensures_bind,
            requireCommittedValue_passes, Except.ensures_bind, requireCommittedValue_passes,
            ← eq_ok_iff] at h
          obtain ⟨hidle, hlag, hduration, h⟩ := h
          split at h
          next integrity hintegrity =>
            obtain ⟨rows, runId, jobIds, hchecked, hvalid, hrows, hlength, hrun, hne, hjobs⟩ :=
              verifyArtifactIntegrity_passes.mp h
            exact ⟨payload, ⟨report, backpressure, integrity, runId, rows, jobIds⟩, rfl, htop,
              hreport, hfields, hbackpressure, hidle, hlag, hduration, hintegrity, hchecked,
              hvalid, hrows, hlength, hrun, hne, hjobs⟩
          next => cases h
        next => cases h
      next => cases h
    | _ => cases h
  · rintro ⟨payload, parts, rfl, h⟩
    unfold verifyCommittedReleaseSemantics
    rw [eq_ok_iff, Except.ensures_bind, requireFields_passes, ← eq_ok_iff]
    refine ⟨h.topLevel, ?_⟩
    simp only [h.report]
    unfold verifyReleaseReport
    rw [eq_ok_iff, Except.ensures_bind, requireFields_passes, ← eq_ok_iff]
    refine ⟨h.fields, ?_⟩
    simp only [h.backpressure]
    rw [eq_ok_iff, Except.ensures_bind, requireFields_passes, Except.ensures_bind,
      requireCommittedValue_passes, Except.ensures_bind, requireCommittedValue_passes,
      ← eq_ok_iff]
    refine ⟨h.idle, h.queueLag, h.duration, ?_⟩
    simp only [h.integrity]
    exact verifyArtifactIntegrity_passes.mpr ⟨parts.rows, parts.runId, parts.jobIds, h.checked,
      h.valid, h.artifacts, h.twenty, h.runId, h.runId_ne_nil, h.rows⟩

private theorem ownError_verification (message : PyStr) :
    OwnError (.verification message) := ⟨message, rfl⟩

theorem requireCommittedValue_handled {actual expected : Json} {field : PyStr} :
    (requireCommittedValue env actual expected field).Ensures OwnError fun _ => True := by
  unfold requireCommittedValue
  split <;> simp [OwnError]

theorem requireFields_handled {d fields : Dict} {path : PyStr} :
    (requireFields env d path fields).Ensures OwnError fun _ => True := by
  induction fields with
  | nil => simp [requireFields]
  | cons fe fields ih =>
    rw [requireFields, Except.ensures_bind]
    exact requireCommittedValue_handled.mono fun _ _ _ => ih

private theorem verifyRowFields_handled {runId jobId : PyStr} {index : ℕ} {row : Dict} :
    (verifyRowFields env runId jobId index row).Ensures OwnError fun _ => True := by
  unfold verifyRowFields
  simp only [Except.ensures_bind]
  refine requireCommittedValue_handled.mono fun _ _ _ => ?_
  refine requireCommittedValue_handled.mono fun _ _ _ => ?_
  refine requireCommittedValue_handled.mono fun _ _ _ => ?_
  refine requireCommittedValue_handled.mono fun _ _ _ => ?_
  simp only [Except.ensures_bind, Except.ensures_ite, Except.ensures_throw, Except.ensures_pure,
    ownError_verification, implies_true, and_self]

private theorem verifyRows_handled {runId : PyStr} {seen : List PyStr} {index : ℕ}
    {rows : List Json} : (verifyRows env runId seen index rows).Ensures OwnError fun _ => True := by
  induction rows generalizing seen index with
  | nil => simp [verifyRows]
  | cons v rows ih =>
    cases v with
    | obj row =>
      rw [verifyRows]
      split
      · split
        · exact ownError_verification _
        · rw [Except.ensures_bind]
          exact verifyRowFields_handled.mono fun _ _ _ => ih
      · exact ownError_verification _
    | _ => exact ownError_verification _

theorem verifyCommittedReleaseSemantics_handled (v : Json) :
    (verifyCommittedReleaseSemantics env v).Ensures OwnError fun _ => True := by
  cases v with
  | obj payload =>
    unfold verifyCommittedReleaseSemantics
    rw [Except.ensures_bind]
    refine requireFields_handled.mono fun _ _ _ => ?_
    split
    · unfold verifyReleaseReport
      rw [Except.ensures_bind]
      refine requireFields_handled.mono fun _ _ _ => ?_
      split
      · simp only [Except.ensures_bind]
        refine requireFields_handled.mono fun _ _ _ => ?_
        refine requireCommittedValue_handled.mono fun _ _ _ => ?_
        refine requireCommittedValue_handled.mono fun _ _ _ => ?_
        split
        · unfold verifyArtifactIntegrity
          simp only [Except.ensures_bind]
          refine requireCommittedValue_handled.mono fun _ _ _ => ?_
          refine requireCommittedValue_handled.mono fun _ _ _ => ?_
          split
          · split
            · exact ownError_verification _
            · split
              · split
                · exact ownError_verification _
                · exact verifyRows_handled
              · exact ownError_verification _
          · exact ownError_verification _
        · exact ownError_verification _
      · exact ownError_verification _
    · exact ownError_verification _
  | _ => exact ownError_verification _

end Semantics

section KeyOrder
variable {d : Dict} {key : PyStr}

theorem getOrNull_sorted (h : (d.map Prod.fst).Nodup) :
    getOrNull (Dict.sorted d) key = (getOrNull d key).sortKeys := by
  unfold getOrNull
  rw [Json.get?_sorted h]
  cases Dict.get? d key <;> rfl

theorem hasFields_sorted (h : (d.map Prod.fst).Nodup) {fields : Dict} :
    HasFields (Dict.sorted d) fields ↔ HasFields d fields :=
  forall₂_congr fun fe _ => by rw [getOrNull_sorted h, Json.eqValue_sortKeys_left]

theorem get?_sorted_obj (h : (d.map Prod.fst).Nodup) {e : Dict} :
    Dict.get? (Dict.sorted d) key = some (.obj e) ↔
      ∃ e', Dict.get? d key = some (.obj e') ∧ e = Dict.sorted e' := by
  rw [Json.get?_sorted h]
  cases hget : Dict.get? d key with
  | none => simp
  | some v => cases v <;> simp [Json.sortKeys, Dict.sorted, eq_comm]

theorem get?_sorted_arr (h : (d.map Prod.fst).Nodup) {vs : List Json} :
    Dict.get? (Dict.sorted d) key = some (.arr vs) ↔
      ∃ ws, Dict.get? d key = some (.arr ws) ∧ vs = Json.sortItems ws := by
  rw [Json.get?_sorted h]
  cases hget : Dict.get? d key with
  | none => simp
  | some v => cases v <;> simp [Json.sortKeys, eq_comm]

theorem get?_sorted_str (h : (d.map Prod.fst).Nodup) {s : PyStr} :
    Dict.get? (Dict.sorted d) key = some (.str s) ↔ Dict.get? d key = some (.str s) := by
  rw [Json.get?_sorted h]
  cases hget : Dict.get? d key with
  | none => simp
  | some v => cases v <;> simp [Json.sortKeys]

theorem sortKeys_eq_str {v : Json} {s : PyStr} : v.sortKeys = .str s ↔ v = .str s := by
  cases v <;> simp [Json.sortKeys]

theorem sortKeys_eq_null {v : Json} : v.sortKeys = .null ↔ v = .null := by
  cases v <;> simp [Json.sortKeys]

theorem isSha256_sortKeys (v : Json) : isSha256 v.sortKeys = isSha256 v := by
  cases v <;> rfl

theorem isPositiveInt_sortKeys (v : Json) : isPositiveInt v.sortKeys = isPositiveInt v := by
  cases v <;> rfl

theorem committedRow_sorted {runId jobId : PyStr} (h : (d.map Prod.fst).Nodup) :
    CommittedRow runId jobId (Dict.sorted d) ↔ CommittedRow runId jobId d := by
  constructor
  · rintro ⟨hjob, hne, hrun, hpath, hattempt, heval, hsha, hdigest, hsize⟩
    simp only [getOrNull_sorted h, sortKeys_eq_str, sortKeys_eq_null, isSha256_sortKeys,
      isPositiveInt_sortKeys, Json.number?_sortKeys] at hrun hpath hattempt heval hsha hdigest hsize
    exact ⟨(get?_sorted_str h).mp hjob, hne, hrun, hpath, hattempt, heval, hsha, hdigest, hsize⟩
  · rintro ⟨hjob, hne, hrun, hpath, hattempt, heval, hsha, hdigest, hsize⟩
    refine ⟨(get?_sorted_str h).mpr hjob, hne, ?_, ?_, ?_, ?_, ?_, ?_, ?_⟩ <;>
      simpa only [getOrNull_sorted h, sortKeys_eq_str, sortKeys_eq_null, isSha256_sortKeys,
        isPositiveInt_sortKeys, Json.number?_sortKeys]

theorem committedRows_sorted {runId : PyStr} {rows : List Json} {jobIds : List PyStr}
    (h : Json.DistinctItems rows) :
    CommittedRows runId (Json.sortItems rows) jobIds ↔ CommittedRows runId rows jobIds := by
  unfold CommittedRows
  rw [and_congr_right_iff]
  intro hnodup
  clear hnodup
  induction rows generalizing jobIds with
  | nil => rfl
  | cons v rows ih =>
    rw [Json.sortItems, List.forall₂_cons_left_iff, List.forall₂_cons_left_iff]
    refine exists_congr fun jobId => exists_congr fun rest => and_congr ?_ (and_congr (ih h.2)
      Iff.rfl)
    constructor
    · rintro ⟨row, hrow, hcommitted⟩
      cases v with
      | obj row' =>
        obtain rfl := Json.obj.inj hrow
        exact ⟨row', rfl, (committedRow_sorted h.1.1).mp hcommitted⟩
      | _ => cases hrow
    · rintro ⟨row, rfl, hcommitted⟩
      exact ⟨Dict.sorted row, rfl, (committedRow_sorted h.1.1).mpr hcommitted⟩

theorem distinct_getOrNull (h : Json.Distinct (.obj d)) : Json.Distinct (getOrNull d key) := by
  unfold getOrNull
  cases hget : Dict.get? d key with
  | none => trivial
  | some v => exact h.get? hget

theorem eqValue_sorted {e : Dict} {key' : PyStr} (h : (d.map Prod.fst).Nodup)
    (he : Json.Distinct (.obj e)) : (getOrNull (Dict.sorted d) key).eqValue
      (getOrNull (Dict.sorted e) key') = (getOrNull d key).eqValue (getOrNull e key') := by
  rw [getOrNull_sorted h, getOrNull_sorted he.1, Json.eqValue_sortKeys (distinct_getOrNull he)]

theorem number?_sorted (h : (d.map Prod.fst).Nodup) :
    (getOrNull (Dict.sorted d) key).number? = (getOrNull d key).number? := by
  rw [getOrNull_sorted h, Json.number?_sortKeys]

theorem length_sortItems (vs : List Json) : (Json.sortItems vs).length = vs.length := by
  induction vs with
  | nil => rfl
  | cons v vs ih => rw [Json.sortItems, List.length_cons, List.length_cons, ih]

end KeyOrder

/-- The order in which the data were written does not matter to their check. -/
theorem exists_committedData_sorted {payload : Dict} (h : Json.Distinct (.obj payload)) :
    (∃ parts, CommittedData (Dict.sorted payload) parts) ↔
      ∃ parts, CommittedData payload parts := by
  constructor
  · rintro ⟨⟨_, _, _, runId, _, jobIds⟩, hdata⟩
    obtain ⟨report, hreport, rfl⟩ := (get?_sorted_obj h.1).mp hdata.report
    have hdistinct := h.get? hreport
    obtain ⟨backpressure, hbackpressure, rfl⟩ := (get?_sorted_obj hdistinct.1).mp hdata.backpressure
    obtain ⟨integrity, hintegrity, rfl⟩ := (get?_sorted_obj hdistinct.1).mp hdata.integrity
    have hb := hdistinct.get? hbackpressure
    have hi := hdistinct.get? hintegrity
    obtain ⟨rows, hrows, rfl⟩ := (get?_sorted_arr hi.1).mp hdata.artifacts
    exact ⟨⟨report, backpressure, integrity, runId, rows, jobIds⟩,
      { topLevel := (hasFields_sorted h.1).mp hdata.topLevel
        report := hreport
        fields := (hasFields_sorted hdistinct.1).mp hdata.fields
        backpressure := hbackpressure
        idle := (hasFields_sorted hb.1).mp hdata.idle
        queueLag := (eqValue_sorted hdistinct.1 hb).symm.trans hdata.queueLag
        duration := (eqValue_sorted hdistinct.1 hb).symm.trans hdata.duration
        integrity := hintegrity
        checked := (number?_sorted hi.1).symm.trans hdata.checked
        valid := (number?_sorted hi.1).symm.trans hdata.valid
        artifacts := hrows
        twenty := (length_sortItems rows).symm.trans hdata.twenty
        runId := (get?_sorted_str hdistinct.1).mp hdata.runId
        runId_ne_nil := hdata.runId_ne_nil
        rows := (committedRows_sorted (hi.get? hrows)).mp hdata.rows }⟩
  · rintro ⟨parts, hdata⟩
    have hdistinct := h.get? hdata.report
    have hb := hdistinct.get? hdata.backpressure
    have hi := hdistinct.get? hdata.integrity
    exact ⟨⟨Dict.sorted parts.report, Dict.sorted parts.backpressure,
      Dict.sorted parts.integrity, parts.runId, Json.sortItems parts.rows, parts.jobIds⟩,
      { topLevel := (hasFields_sorted h.1).mpr hdata.topLevel
        report := (get?_sorted_obj h.1).mpr ⟨_, hdata.report, rfl⟩
        fields := (hasFields_sorted hdistinct.1).mpr hdata.fields
        backpressure := (get?_sorted_obj hdistinct.1).mpr ⟨_, hdata.backpressure, rfl⟩
        idle := (hasFields_sorted hb.1).mpr hdata.idle
        queueLag := (eqValue_sorted hdistinct.1 hb).trans hdata.queueLag
        duration := (eqValue_sorted hdistinct.1 hb).trans hdata.duration
        integrity := (get?_sorted_obj hdistinct.1).mpr ⟨_, hdata.integrity, rfl⟩
        checked := (number?_sorted hi.1).trans hdata.checked
        valid := (number?_sorted hi.1).trans hdata.valid
        artifacts := (get?_sorted_arr hi.1).mpr ⟨_, hdata.artifacts, rfl⟩
        twenty := (length_sortItems parts.rows).trans hdata.twenty
        runId := (get?_sorted_str hdistinct.1).mpr hdata.runId
        runId_ne_nil := hdata.runId_ne_nil
        rows := (committedRows_sorted (hi.get? hdata.artifacts)).mpr hdata.rows }⟩

theorem item_of_number {d : Dict} {key : PyStr} {x : PyFloat}
    (h : (getOrNull d key).number? = some x) : item (.obj d) key = .ok (getOrNull d key) := by
  unfold getOrNull at h ⊢
  cases hget : Dict.get? d key with
  | none => simp [hget, Json.number?] at h
  | some w => simp [item, hget]

theorem item_of_get? {d : Dict} {key : PyStr} {v : Json} (h : Dict.get? d key = some v) :
    item (.obj d) key = .ok v := by
  simp [item, h]

section Gate
variable {env : ReleaseEnv} {d d' : Directory} {root root' : PyPath}
  {r r' : CommittedEvidenceVerification} {payload : Dict} {parts : CommittedParts}

theorem CommittedData.submitted (h : CommittedData payload parts) :
    (getOrNull parts.report (py "submitted_jobs")).number? = some (.finite 20) :=
  Json.eqValue_int.mp (h.fields (py "submitted_jobs", .int 20) (by simp [expectedReport]))

/-- What the gate returns of data that pass. -/
def receipt (parts : CommittedParts) : CommittedEvidenceVerification where
  manifestPath := committedReleaseManifest
  contentAddress := py "sha256:" ++ py committedReleaseManifestSha256
  sourceRevision := committedReleaseSourceRevision
  submittedJobs := getOrNull parts.report (py "submitted_jobs")
  validArtifacts := getOrNull parts.integrity (py "valid_count")

/-- The lookups behind the check all succeed. -/
theorem CommittedData.verification (h : CommittedData payload parts) :
    committedVerification (.obj payload) = .ok (receipt parts) := by
  unfold committedVerification
  simp only [item_of_get? h.report, item_of_get? h.integrity, item_of_number h.submitted,
    item_of_number h.valid, bind, Except.bind, pure, Except.pure]
  rfl

/-- The gate passes when the manifest has the fixed digest and verifies, and the data can be read
and pass their check. -/
theorem verifyCommittedReleaseEvidence_eq_ok :
    verifyCommittedReleaseEvidence env d root = .ok r ↔ ∃ bytes payload parts,
      d.lookup (manifestName committedReleaseStem) = some (.file bytes) ∧
      env.sha256 bytes = committedReleaseManifestSha256 ∧
      verifyEvidenceManifest env.toEnv d (releaseParent root)
        (manifestName committedReleaseStem) = .ok () ∧
      readCommittedData env.toEnv d (releaseParent root) = .ok (.obj payload) ∧
      CommittedData payload parts ∧ r = receipt parts := by
  unfold verifyCommittedReleaseEvidence
  constructor
  · intro h
    split at h
    next bytes hbytes =>
      split at h
      · cases h
      next hsha =>
        obtain ⟨_, hverify, h⟩ := Except.bind_eq_ok.mp h
        obtain ⟨v, hread, h⟩ := Except.bind_eq_ok.mp h
        obtain ⟨_, hcheck, h⟩ := Except.bind_eq_ok.mp h
        obtain ⟨payload, parts, rfl, hdata⟩ := verifyCommittedReleaseSemantics_eq_ok.mp hcheck
        rw [hdata.verification] at h
        exact ⟨bytes, payload, parts, hbytes, not_not.mp hsha, hverify, hread, hdata,
          (Except.ok.inj h).symm⟩
    next => cases h
  · rintro ⟨bytes, payload, parts, hbytes, hsha, hverify, hread, hdata, rfl⟩
    have hcheck : verifyCommittedReleaseSemantics env (.obj payload) = .ok () :=
      verifyCommittedReleaseSemantics_eq_ok.mpr ⟨payload, parts, rfl, hdata⟩
    simp only [hbytes, hsha, ne_eq, not_true_eq_false, if_false]
    refine Except.bind_eq_ok.mpr ⟨_, hverify, Except.bind_eq_ok.mpr ⟨_, hread, ?_⟩⟩
    exact Except.bind_eq_ok.mpr ⟨_, hcheck, hdata.verification⟩

theorem verifyCommittedReleaseEvidenceOn_noLookupErrors :
    verifyCommittedReleaseEvidenceOn noLookupErrors env d root =
      verifyCommittedReleaseEvidence env d root := by
  simp only [verifyCommittedReleaseEvidenceOn, verifyCommittedReleaseEvidence, Directory.read,
    verifyEvidenceManifestOn_noLookupErrors]
  cases d.lookup (manifestName committedReleaseStem) with
  | none => rfl
  | some entry => cases entry <;> rfl

end Gate

end AgentRuntimeGrid
