import AgentRuntimeGrid.Cli.Rendering
import AgentRuntimeGrid.Jobs.GdevAgent

/-! The full-stack proof: one `gdev_webhook_eval` job for each case of a dataset, whose payload
tells the job where to write its evaluation result, and the evidence of the run. -/
namespace AgentRuntimeGrid

structure FullStackEnv extends EvidenceEnv, RunnerEnv

structure LiveLocalGdevConfig where
  baseUrl : PyStr
  tenantSlug : PyStr
  tenantId : PyStr
  webhookSecretEnv : PyStr

/-- The execution that completes the job of a case: its job, the worker and the attempt, the time
of its artifact and what its runner finds. -/
structure CaseExecution where
  jobId : JobId
  workerId : String
  attemptNumber : ℤ
  createdAt : String
  ctx : RunContext

structure FullStackRun extends RunData where
  /-- The contents of the three inputs. -/
  evalLabDataset : PyBytes
  evalLabReport : PyBytes
  gdevArtifact : PyBytes
  candidateId : PyStr
  jobs : ℤ
  workers : ℤ
  liveLocalGdev : Option LiveLocalGdevConfig
  /-- The executions, in the order of the cases. -/
  executions : List CaseExecution

namespace FullStackRun

def proofError : String := "FullStackProofError"

/-- The loop of `_load_eval_lab_cases`. -/
def loadCases (env : Env) : ℕ → List PyStr → Except String (List Dict)
  | 0, _ => .ok []
  | _, [] => .ok []
  | limit + 1, line :: lines =>
    if PyText.strip line = [] then loadCases env (limit + 1) lines
    else match env.jsonLoads line with
      | .error .decodeError => .error proofError
      | .error (.other c) => .error c
      | .ok (.obj case) => (loadCases env limit lines).map (case :: ·)
      | .ok _ => .error proofError

def loadEvalLabCases (env : Env) (dataset : PyBytes) (limit : ℤ) : Except String (List Dict) :=
  if limit ≤ 0 then .error proofError
  else match PyText.utf8Decode dataset with
    | none => .error "UnicodeDecodeError"
    | some text => loadCases env limit.toNat (PyText.splitlines text)

def caseId (env : Env) (case : Dict) : Except String PyStr :=
  match PyText.strip (env.str (Dict.getOr case (py "id"))) with
  | [] => .error proofError
  | id => .ok id

def caseRequest (case : Dict) (caseId : PyStr) : Dict :=
  let orElse (key : String) (default : PyStr) : Json := match Dict.get? case (py key) with
    | some v => if v.truthy then v else .str default
    | none => .str default
  match Dict.get? case (py "input") with
  | some (.obj input) => input
  | _ => [(py "message_id", orElse "message_id" caseId),
      (py "tenant_slug", orElse "tenant_slug" (py "synthetic-eval")),
      (py "text", orElse "text" [])]

variable (env : FullStackEnv) (run : FullStackRun) (site : Site)

/-- `report_path.parent / "eval-results" / candidate_id / f"{case_id}.json"`. -/
def evalResultPath (caseId : PyStr) : PyPath :=
  ((site.reportPath.parent.join (py "eval-results")).join (PyText.strip run.candidateId)).join
    (caseId ++ py ".json")

def gdevJobPayload (case : Dict) (caseId : PyStr) : Dict := [
    (py "case_id", .str caseId),
    (py "candidate_id", .str (PyText.strip run.candidateId)),
    (py "mode", .str (if run.liveLocalGdev.isSome then py "local" else py "stub")),
    (py "request", .obj (caseRequest case caseId)),
    (py "eval_result_path", .str (run.evalResultPath site caseId).text)] ++
  match run.liveLocalGdev with
  | some live => [
      (py "gdev_base_url", .str live.baseUrl),
      (py "gdev_tenant_slug", .str live.tenantSlug),
      (py "gdev_tenant_id", .str live.tenantId),
      (py "gdev_webhook_secret_env", .str live.webhookSecretEnv)]
  | none => []

private def textString (s : PyStr) : String := String.ofList (s.map Char.ofNat)

/-- The job of a case; a payload that a `jsonb` column does not accept is a `DataError`. -/
def caseJob (case : Dict) (caseId : PyStr) (x : CaseExecution) : Option JobRecord :=
  if h : jsonbStorable (.obj (run.gdevJobPayload site case caseId)) = true then some {
    id := x.jobId
    runId := run.runId
    jobType := "gdev_webhook_eval"
    payload := ⟨run.gdevJobPayload site case caseId, h⟩
    payloadHash := (payloadSha256 env.toEnv (run.gdevJobPayload site case caseId)).getD ""
    idempotencyKey := textString (uuidText run.runId ++ py ":" ++ caseId)
    status := .running
    timeoutSeconds := 30
    maxRetries := 1
    traceId := textString (py "trace-" ++ uuidText run.runId)
    budgetCents := none }
  else none

/-- The result of the execution of a case, with the metadata of its artifact. -/
def caseResult (case : Dict) (x : CaseExecution) : Except String JobResult := do
  let caseId ← caseId env.toEnv case
  let some job := run.caseJob env site case caseId x | .error "DataError"
  -- a job whose runner fails does not complete, which is an error of the proof
  let .ok r := GdevAgent.run env.toRunnerEnv x.ctx job.payload.fields x.attemptNumber
    | .error proofError
  let (metadata, _) ← encodeStubJobArtifact env.toEnv job x.workerId x.attemptNumber x.createdAt
    r.result
  return ⟨r.result, some metadata⟩

def results (cases : List Dict) : Except String (List (JobId × JobResult)) :=
  (cases.zip run.executions).mapM fun cx => do
    return (cx.2.jobId, ← run.caseResult env site cx.1 cx.2)

def resultOf (results : List (JobId × JobResult)) (j : JobId) : Option JobResult :=
  (results.find? fun r => r.1 = j).map Prod.snd

end FullStackRun

def JobEvent.withResult (results : JobId → Option JobResult) (e : JobEvent) : JobEvent :=
  match e.eventData with
  | .completed workerId n result => { e with
      eventData := .completed workerId n ((results e.jobId).getD result) }
  | _ => e

def Database.withResults (db : Database) (results : JobId → Option JobResult) : Database :=
  { db with jobEvents := db.jobEvents.map (JobEvent.withResult results) }

namespace FullStackRun
variable (env : FullStackEnv) (run : FullStackRun) (site : Site)

/-- Whether `validate_full_stack_report` finds no error. -/
def valid (report : ReliabilityReport) (expectedJobs : ℕ) : Bool :=
  report.submittedJobs = expectedJobs &&
  report.lifecycleCounts.get "completed" = expectedJobs &&
  report.duplicateFinalizationCount = 0 &&
  report.artifactIntegrity.any fun integrity => integrity.validCount = expectedJobs

def proofMode : String :=
  if run.liveLocalGdev.isSome then "full-stack-live-local" else "full-stack-artifact-proof"

/-- The portable texts of the three inputs and of the report. -/
def inputPaths (env : EvidenceEnv) (site : Site) : PyStr × PyStr × PyStr × PyStr :=
  (portablePath env site.evalLabDatasetPath "eval-dataset",
    portablePath env site.evalLabReportPath "eval-report",
    portablePath env site.gdevArtifactPath "gdev-artifact",
    portablePath env site.reportPath "runtime-report")

def knownLimitLines : List PyStr :=
  if run.liveLocalGdev.isSome then [
    py "- This proof uses local Grid execution and configured localhost " ++
      py "gdev-agent HTTP calls.",
    py "- Eval cases cannot define network destinations, tenant secrets, or " ++
      py "commands; the operator supplies the local gdev-agent config.",
    py "- Runtime Grid does not make live model calls. For reproducible local " ++
      py "evidence, run gdev-agent in deterministic demo mode."]
  else [
    py "- This proof uses local deterministic Grid execution.",
    py "- gdev-agent is represented through ready artifact paths and deterministic " ++
      py "`gdev_webhook_eval` jobs.",
    py "- No live model calls or non-local worker egress are enabled by default."]

/-- `render_full_stack_report`. -/
def render (caseIds : List PyStr) (report : ReliabilityReport) : PyStr :=
  let (dataset, evalReport, gdevArtifact, runtimeReport) := inputPaths env.toEvidenceEnv site
  let code (text : PyStr) : PyStr := py "`" ++ text ++ py "`"
  joinText (py "\n") (
    [py "# Full Stack Runtime Proof", [],
      py "grid_run_id: " ++ uuidText run.runId,
      py "candidate_id: " ++ PyText.strip run.candidateId,
      py "proof_mode: " ++ py run.proofMode,
      py "eval_lab_dataset_path: " ++ dataset,
      py "eval_lab_report_path: " ++ evalReport,
      py "gdev_artifact_path: " ++ gdevArtifact,
      py "selected_cases: " ++ py (toString caseIds.length),
      [], py "## Cross-Project Links", [],
      py "- Eval Lab quality report: " ++ code evalReport,
      py "- gdev-agent artifact path: " ++ code gdevArtifact,
      py "- Grid runtime report: " ++ code runtimeReport,
      py "- Grid run ID: " ++ code (uuidText run.runId),
      [], py "## Selected Cases", []] ++
    caseIds.map (fun caseId => py "- " ++ code caseId) ++
    [[], py "## Runtime Reliability", [], renderReliabilityReport env.toEvidenceEnv report,
      [], py "## Known Limits", []] ++
    run.knownLimitLines)

def config (jobs : ℕ) : List (PyStr × ConfigValue) :=
  let (dataset, evalReport, gdevArtifact, _) := inputPaths env.toEvidenceEnv site
  let input (path : PyStr) (content : PyBytes) : ConfigValue := .dict [
    (py "path", .plain (.str path)), (py "sha256", .plain (.str (py (env.sha256 content))))]
  [(py "candidate_id", .plain (.str (PyText.strip run.candidateId))),
    (py "jobs", .plain (.int jobs)),
    (py "workers", .plain (.int run.workers)),
    (py "artifact_root", .path site.artifactRoot),
    (py "inputs", .dict [
      (py "eval_lab_dataset", input dataset run.evalLabDataset),
      (py "eval_lab_report", input evalReport run.evalLabReport),
      (py "gdev_artifact", input gdevArtifact run.gdevArtifact)])]

/-- The report of `build_smoke_report` at a site, under the title of the proof. -/
def report (results : List (JobId × JobResult)) : Except String ReliabilityReport :=
  (buildSmokeReport (env.toEvidenceEnv.onSite site).toReportEnv site.files
    (run.db.withResults (resultOf results)) run.runId site.artifactRoot.name run.measured).map
    fun report => { report with title := "Full Stack Runtime Reliability" }

/-- The evidence of `run_full_stack_proof`. -/
def evidence : Except String Evidence := do
  if PyText.strip run.candidateId = [] then throw proofError
  let cases ← loadEvalLabCases env.toEnv run.evalLabDataset run.jobs
  if cases = [] ∨ run.workers ≤ 0 then throw proofError
  let caseIds ← cases.mapM (caseId env.toEnv)
  let results ← run.results env site cases
  let report ← run.report env site results
  if ¬ valid report cases.length then throw proofError
  return {
    payload := evidencePayload env.toEvidenceEnv run.origin report run.proofMode
      (run.config env site cases.length) none
    rendered := run.render env site caseIds report }

end FullStackRun
end AgentRuntimeGrid
