import AgentRuntimeGrid.Jobs.Dispatch
import AgentRuntimeGrid.Lib.Erasure

/-! The evidence of a `gdev_webhook_eval` job tells the request and the webhook secret only by
their hashes: a statement about two executions of one case. -/
namespace AgentRuntimeGrid.GdevAgent

/-- The names under which evidence holds a hash of the request. -/
def hashKeys : List PyStr := [py "request_hash", py "input_digest"]

/-- The payloads differ at most in the request and in the variable that holds the secret. -/
def SameCase (p p' : GdevWebhookEvalPayload) : Prop :=
  p' = { p with request := p'.request, gdevWebhookSecretEnv := p'.gdevWebhookSecretEnv }

def RequestFields.ofCategory (category : PyStr) : RequestFields :=
  if category = py "moderation" then ⟨category, true, py "pending"⟩
  else ⟨category, false, py "executed"⟩

section Verdict
variable {env : RunnerEnv} {ctx ctx' : RunContext} {p p' : GdevWebhookEvalPayload}

/-- The category is the one thing that normalisation keeps of a request. -/
theorem normalizeRequest_eq_ofCategory (request : Dict) :
    normalizeRequest env request = .ofCategory (normalizeRequest env request).category := by
  simp only [normalizeRequest]
  split_ifs <;> rfl

/-- The verdict is made of the response, or of the category of the request. -/
theorem verdict_eq (hcase : SameCase p p')
    (hclock : ctx'.measuredLatencyMs = ctx.measuredLatencyMs)
    (hlocal : p.mode = py "local" → invokeLocalGdev env ctx' p' = invokeLocalGdev env ctx p)
    (hstub : p.mode ≠ py "local" → (normalizeRequest env p'.request).category =
      (normalizeRequest env p.request).category) :
    verdict env ctx' p' = verdict env ctx p := by
  have hmode : p'.mode = p.mode := by rw [hcase]
  have hid : p'.caseId = p.caseId := by rw [hcase]
  unfold verdict
  rw [hmode, hid, hclock]
  by_cases h : p.mode = py "local"
  · rw [if_pos h, if_pos h, hlocal h]
  · rw [if_neg h, if_neg h, normalizeRequest_eq_ofCategory p'.request, hstub h,
      ← normalizeRequest_eq_ofCategory]

end Verdict

section Evidence
variable {env : RunnerEnv} {ctx : RunContext} {payload : Dict} {p p' : GdevWebhookEvalPayload}
  {r : EvalRun} {n : ℤ}

/-- What a run that returns has gone through. -/
theorem run_eq_ok (h : run env ctx payload n = .ok r) :
    ∃ p requestHash v, validatePayload env payload = .ok p ∧
      digest env p.request = .ok requestHash ∧
      verdict env ctx p = .ok v ∧ r = evidence p requestHash v n ctx.latencyMs := by
  obtain ⟨p, hp, h⟩ := Except.bind_eq_ok.mp h
  obtain ⟨requestHash, hhash, h⟩ := Except.bind_eq_ok.mp h
  obtain ⟨v, hv, h⟩ := Except.bind_eq_ok.mp h
  exact ⟨p, requestHash, v, hp, hhash, hv, (Except.ok.inj h).symm⟩

theorem evidence_linked (p : GdevWebhookEvalPayload) (requestHash : PyStr) (v : GdevVerdict)
    (n : ℤ) (latencyMs : ℕ) : (evidence p requestHash v n latencyMs).Linked :=
  ⟨rfl, rfl⟩

/-- Evidence of one case and verdict differs in the hash of the request alone. -/
theorem evidence_sameBut (hcase : SameCase p p') (hash hash' : PyStr) (v : GdevVerdict) (n : ℤ)
    (latencyMs : ℕ) :
    Dict.SameBut hashKeys (evidence p hash v n latencyMs).result
      (evidence p' hash' v n latencyMs).result ∧
    Dict.SameBut hashKeys (evidence p hash v n latencyMs).evalResult
      (evidence p' hash' v n latencyMs).evalResult ∧
    Dict.SameBut hashKeys (evidence p hash v n latencyMs).artifactPayload
      (evidence p' hash' v n latencyMs).artifactPayload := by
  rw [hcase]
  exact ⟨rfl, rfl, rfl⟩

/-- So do the artifacts made of it, the digest of the job's payload apart. -/
theorem artifactContent_sameBut (env : RunnerEnv) (n : ℤ) {job job' : JobRecord}
    (hid : job'.id = job.id) (hrun : job'.runId = job.runId) (hcase : SameCase p p')
    (workerId now : String) (hash hash' : PyStr) (v : GdevVerdict) (latencyMs : ℕ) :
    Dict.SameBut hashKeys
      (artifactContent env.toEnv job workerId n now (evidence p hash v n latencyMs).result
        (evidence p hash v n latencyMs).artifactPayload)
      (artifactContent env.toEnv job' workerId n now (evidence p' hash' v n latencyMs).result
        (evidence p' hash' v n latencyMs).artifactPayload) := by
  obtain ⟨-, -, hpayload⟩ := evidence_sameBut hcase hash hash' v n latencyMs
  refine Dict.SameBut.update ?_ hpayload
  unfold artifactBaseContent
  rw [hid, hrun, hcase]
  rfl

end Evidence

/-- One execution of a job: what its runner finds, the grid and the message of its worker, the job
and its payload, and what the runner makes of it. -/
structure Execution where
  ctx : RunContext
  grid : Grid
  message : QueueJobMessage
  job : JobRecord
  payload : GdevWebhookEvalPayload
  run : EvalRun

namespace Execution

structure Returns (x : Execution) (env : RunnerEnv) : Prop where
  jobType : x.job.jobType = "gdev_webhook_eval"
  payload : validatePayload env x.job.payload.fields = .ok x.payload
  run : GdevAgent.run env x.ctx x.job.payload.fields x.message.attemptNumber = .ok x.run

/-- The execution up to the completion of the job. -/
def completed (x : Execution) (env : RunnerEnv) (w : Worker) (now : String) : Grid × WorkerState :=
  w.runAlone env x.ctx now 3 (x.grid, .executing x.message x.job)

def evalResultFile (x : Execution) (env : RunnerEnv) (w : Worker) (now : String) :
    Option PyBytes :=
  (x.completed env w now).1.files (env.resolve x.payload.evalResultPath.text)

def artifactFile (x : Execution) (env : RunnerEnv) (w : Worker) (now : String) : Option PyBytes :=
  (x.completed env w now).1.files (.artifact x.job.id x.message.attemptNumber)

/-- `json.loads` reads back the object to which the cross-link is added, its fields sorted. -/
def ReadsBack (x : Execution) (env : RunnerEnv) (w : Worker) (now : String) : Prop :=
  LoadsAs env.toEnv (w.linkedContent env now x.message x.job x.run)
    (w.linkedContent env now x.message x.job x.run).sorted

/-- Two executions of one case by one worker at one time: the jobs may differ in the request, and
the workers' hosts in the webhook secret, while the response, or the category that the request is
given, is the same. -/
structure Alike (env : RunnerEnv) (x x' : Execution) : Prop where
  jobId : x'.job.id = x.job.id
  runId : x'.job.runId = x.job.runId
  attemptNumber : x'.message.attemptNumber = x.message.attemptNumber
  case : SameCase x.payload x'.payload
  latencyMs : x'.ctx.latencyMs = x.ctx.latencyMs
  measuredLatencyMs : x'.ctx.measuredLatencyMs = x.ctx.measuredLatencyMs
  response : x.payload.mode = py "local" →
    invokeLocalGdev env x'.ctx x'.payload = invokeLocalGdev env x.ctx x.payload
  category : x.payload.mode = py "stub" → (normalizeRequest env x'.payload.request).category =
    (normalizeRequest env x.payload.request).category

end Execution

/-- Both files are the text of an object, and the objects differ at most in a hash of the
request. -/
def SameFile (env : Env) (file file' : Option PyBytes) : Prop :=
  ∃ d d', Dict.SameBut hashKeys d d' ∧ file = encodeIndented env d ∧
    file' = encodeIndented env d'

section Pairs
variable {env : RunnerEnv} {w : Worker} {now : String} {x x' : Execution}

/-- What a payload that was accepted holds. -/
structure Validated (env : Env) (payload : Dict) (p : GdevWebhookEvalPayload) : Prop where
  caseId : requiredStr env payloadError payload (py "case_id") = .ok p.caseId
  candidateId : AgentRuntimeGrid.candidateId env payloadError payload = .ok p.candidateId
  request : Dict.get? payload (py "request") = some (.obj p.request)
  mode : requiredStr env payloadError payload (py "mode") = .ok p.mode
  mode_mem : p.mode = py "stub" ∨ p.mode = py "local"
  evalResultPath : p.evalResultPath = evalResultPathOf env payload p.candidateId p.caseId

theorem validatePayload_eq_ok {payload : Dict} {p : GdevWebhookEvalPayload}
    (h : validatePayload env payload = .ok p) : Validated env.toEnv payload p := by
  unfold validatePayload at h
  obtain ⟨caseId, hcase, h⟩ := Except.bind_eq_ok.mp h
  obtain ⟨candidate, hcandidate, h⟩ := Except.bind_eq_ok.mp h
  split at h
  case h_2 => cases h
  next request hrequest =>
    obtain ⟨mode, hmode, h⟩ := Except.bind_eq_ok.mp h
    dsimp only at h
    split at h
    · obtain ⟨_, h, -⟩ := Except.bind_eq_ok.mp h
      cases h
    next hmem =>
      have hmem : mode = py "stub" ∨ mode = py "local" := by simpa using not_not.mp hmem
      split at h
      · obtain ⟨_, -, h⟩ := Except.bind_eq_ok.mp h
        obtain ⟨baseUrl, -, h⟩ := Except.bind_eq_ok.mp h
        obtain ⟨tenantSlug, -, h⟩ := Except.bind_eq_ok.mp h
        obtain ⟨tenantId, -, h⟩ := Except.bind_eq_ok.mp h
        obtain ⟨secretEnv, -, h⟩ := Except.bind_eq_ok.mp h
        cases h
        exact ⟨hcase, hcandidate, hrequest, hmode, hmem, rfl⟩
      · cases h
        exact ⟨hcase, hcandidate, hrequest, hmode, hmem, rfl⟩

theorem Execution.Returns.runJob_eq (h : x.Returns env) :
    runJob env { x.ctx with files := x.grid.files } x.job x.message.attemptNumber =
      x.run.finish env.toEnv := by
  have hrun : GdevAgent.run env { x.ctx with files := x.grid.files } x.job.payload.fields
      x.message.attemptNumber = .ok x.run := h.run
  have hne : x.job.jobType ≠ "eval_lab_case" := by
    rw [h.jobType]
    decide
  rw [runJob, if_neg hne, if_pos h.jobType, hrun, endOfEval]

theorem Execution.Returns.run_eq (h : x.Returns env) : ∃ requestHash v,
    verdict env x.ctx x.payload = .ok v ∧ x.run = evidence x.payload requestHash v
      x.message.attemptNumber x.ctx.latencyMs := by
  obtain ⟨p, requestHash, v, hp, -, hv, hr⟩ := run_eq_ok h.run
  obtain rfl : x.payload = p := Except.ok.inj (h.payload.symm.trans hp)
  exact ⟨requestHash, v, hv, hr⟩

/-- The files of an execution: the artifact, and the cross-link over the evaluation result. -/
theorem Execution.Returns.files (hstore : w.hasArtifactStore = true) (h : x.Returns env)
    (hread : x.ReadsBack env w now) : ∃ metadata : ArtifactMetadata,
      metadata.jobId = x.job.id ∧ metadata.attemptNumber = x.message.attemptNumber ∧
      x.evalResultFile env w now = encodeIndented env.toEnv
        ((w.linkedContent env now x.message x.job x.run).sorted.update
          (crossLinkFields metadata x.run.artifactPayload)) ∧
      x.artifactFile env w now =
        if env.resolve x.payload.evalResultPath.text = .artifact x.job.id x.message.attemptNumber
        then x.evalResultFile env w now
        else encodeIndented env.toEnv (artifactContent env.toEnv x.job w.workerId
          x.message.attemptNumber now x.run.result x.run.artifactPayload) := by
  obtain ⟨requestHash, v, -, hr⟩ := h.run_eq
  have hlinked : x.run.Linked := hr ▸ evidence_linked _ _ _ _ _
  have hpath : x.run.evalResultPath = x.payload.evalResultPath.text := by rw [hr]; rfl
  obtain ⟨metadata, evalResult, artifact, linked, -, hartifact, hlink, hid, hattempt, hafter⟩ :=
    Worker.runAlone_evalRun hstore hlinked h.runJob_eq hread
  refine ⟨metadata, hid, hattempt, ?_, ?_⟩
  · rw [evalResultFile, completed, hafter, hlink, ← hpath]
    exact FileStore.write_self _ _ _
  · rw [artifactFile, evalResultFile, completed, hafter, hartifact, ← hpath]
    split
    next hself => rw [hself]
    next hother =>
      exact (FileStore.write_of_ne _ _ (Ne.symm hother)).trans (FileStore.write_self _ _ _)

/-- The evidence of two executions of one case, whatever request and secret each of them has, is
the same but for the hashes of the request. -/
theorem evidence_hides_request (hstore : w.hasArtifactStore = true) (hx : x.Returns env)
    (hx' : x'.Returns env) (halike : x.Alike env x') (hread : x.ReadsBack env w now)
    (hread' : x'.ReadsBack env w now) :
    Dict.SameBut hashKeys x.run.result x'.run.result ∧
    SameFile env.toEnv (x.evalResultFile env w now) (x'.evalResultFile env w now) ∧
    SameFile env.toEnv (x.artifactFile env w now) (x'.artifactFile env w now) := by
  obtain ⟨hash, v, hv, hr⟩ := hx.run_eq
  obtain ⟨hash', v', hv', hr'⟩ := hx'.run_eq
  -- the verdicts are the same, so the runs differ in the hash of the request
  have hverdict : v' = v := by
    refine Except.ok.inj (hv'.symm.trans (Eq.trans ?_ hv))
    refine verdict_eq halike.case halike.measuredLatencyMs halike.response fun hmode => ?_
    exact halike.category ((validatePayload_eq_ok hx.payload).mode_mem.resolve_right hmode)
  rw [hverdict, halike.attemptNumber, halike.latencyMs] at hr'
  obtain ⟨hresult, hevalResult, hpayload⟩ := evidence_sameBut (n := x.message.attemptNumber)
    halike.case hash hash' v x.ctx.latencyMs
  have hartifact := artifactContent_sameBut env x.message.attemptNumber
    halike.jobId halike.runId halike.case w.workerId now hash hash' v x.ctx.latencyMs
  obtain ⟨metadata, hid, hattempt, hevalFile, hartifactFile⟩ := hx.files hstore hread
  obtain ⟨metadata', hid', hattempt', hevalFile', hartifactFile'⟩ := hx'.files hstore hread'
  have hpath : x'.payload.evalResultPath = x.payload.evalResultPath := by rw [halike.case]
  have hlink : crossLinkFields metadata' x'.run.artifactPayload =
      crossLinkFields metadata x.run.artifactPayload := by
    rw [crossLinkFields, crossLinkFields, hid, hid', hattempt, hattempt', halike.jobId,
      halike.attemptNumber, hr, hr', halike.case]
    rfl
  have hlinked : Dict.SameBut hashKeys (w.linkedContent env now x.message x.job x.run)
      (w.linkedContent env now x'.message x'.job x'.run) := by
    have hrunPath : x'.run.evalResultPath = x.run.evalResultPath := by
      rw [hr, hr', halike.case]
      rfl
    rw [Worker.linkedContent, Worker.linkedContent, hrunPath, halike.jobId, halike.attemptNumber,
      hr, hr']
    split
    · exact hartifact
    · exact hevalResult
  have heval : SameFile env.toEnv (x.evalResultFile env w now) (x'.evalResultFile env w now) := by
    refine ⟨_, _, ?_, hevalFile, hevalFile'⟩
    rw [hlink]
    exact hlinked.sorted.update (.refl _ _)
  refine ⟨?_, heval, ?_⟩
  · rw [hr, hr']
    exact hresult
  · rw [hartifactFile, hartifactFile', hpath, halike.jobId, halike.attemptNumber]
    split
    · exact heval
    · refine ⟨_, _, ?_, rfl, rfl⟩
      rw [hr, hr']
      exact hartifact

end Pairs

/-- Two requests about one case. -/
def pairRequest : Bool → Dict
  | false => [(py "text", .str (py "Refund my order"))]
  | true => [(py "text", .str (py "A billing question"))]

def pairFields (second : Bool) : Dict := [
  (py "case_id", .str (py "case-1")), (py "candidate_id", .str (py "candidate")),
  (py "mode", .str (py "local")), (py "request", .obj (pairRequest second)),
  (py "gdev_base_url", .str (py "http://localhost")),
  (py "gdev_tenant_slug", .str (py "slug")), (py "gdev_tenant_id", .str (py "tenant"))]

def pairPayload (second : Bool) : GdevWebhookEvalPayload where
  caseId := py "case-1"
  candidateId := py "candidate"
  request := pairRequest second
  mode := py "local"
  evalResultPath := ⟨[], [py "reports", py "eval-lab", py "candidate", py "case-1.json"]⟩
  gdevBaseUrl := some (py "http://localhost")
  gdevTenantSlug := some (py "slug")
  gdevTenantId := some (py "tenant")
  gdevWebhookSecretEnv := some (py "GDEV_AGENT_WEBHOOK_SECRET")

def pairHash : Bool → String
  | false => "5702cc68aac85ef100e7cf43c6e568b4937336ebb239985c6594d134ae12a254"
  | true => "1433cb7ac2ab5dc54ea60a7607ee03c4061c0c1de654c212b0bff70be7bc7d91"

/-- The verdict on an empty response. -/
def pairVerdict : GdevVerdict where
  normalizedFields := (invalidLiveOutput (py "case-1")
    (py "response body is not a structured object") 0).toDict
  sanitizedResponse := [
    (py "case_id", .str (py "case-1")), (py "http_status", .int 200),
    (py "status", .str (py "error")), (py "category", .str (py "invalid_structured_output")),
    (py "requires_human", .bool true), (py "guard_blocked", .bool false),
    (py "adapter_error", .bool false), (py "invalid_structured_output", .bool true),
    (py "response_hash",
      .str (py "b4512953364b45224b1b2fd6d63c29041992c8be2d8c10a2800df9a49d32e897"))]
  qualityStatus := py "fail"

def pairRun (second : Bool) : EvalRun :=
  evidence (pairPayload second) (py (pairHash second)) pairVerdict 1 0

private theorem pair_floatRepr_ascii : ∀ _x : PyFloat, ∀ c ∈ py "0.0", c < 128 := by
  intro _
  decide

/-- A library that digests both requests and the response, and reads back both results. -/
def pairEnv : RunnerEnv where
  sha256 data :=
    if data = py "\x7b\"text\":\"Refund my order\"\x7d" then pairHash false
    else if data = py "\x7b\"text\":\"A billing question\"\x7d" then pairHash true
    else "b4512953364b45224b1b2fd6d63c29041992c8be2d8c10a2800df9a49d32e897"
  floatRepr _ := py "0.0"
  strOther _ := []
  jsonLoads text :=
    if text = Json.dumps Json.indentedFormat (fun _ => py "0.0") (.obj (pairRun false).evalResult)
    then .ok (.obj (pairRun false).evalResult.sorted)
    else .ok (.obj (pairRun true).evalResult.sorted)
  resolve _ := .other "case-1.json"
  floatRepr_ascii := pair_floatRepr_ascii
  strOther_storable _ := by decide
  jsonLoads_dumps _ := by
    split
    · exact ⟨_, rfl⟩
    · exact ⟨_, rfl⟩
  lower s := s
  floatOfInt _ := none
  floatOfText _ := none
  hmacSha256 _ _ := ""
  urlparse _ := some ⟨py "http", some (py "localhost"), none, none, []⟩

def pairExecution (second : Bool) : Execution where
  ctx := {
    files := fun _ => none
    getenv := fun _ => some (if second then py "one secret" else py "another")
    urlopen := fun _ _ _ => .responded 200 (.body [])
    sleep := fun _ => .finished
    measuredLatencyMs := 0
    latencyMs := 0 }
  grid := .empty
  message := ⟨1, 2, 1, "trace", none⟩
  job := {
    id := 1
    runId := 2
    jobType := "gdev_webhook_eval"
    payload := ⟨pairFields second, by cases second <;> decide⟩
    payloadHash := ""
    idempotencyKey := "key"
    status := .running
    timeoutSeconds := 30
    maxRetries := 1
    traceId := "trace"
    budgetCents := none }
  payload := pairPayload second
  run := pairRun second

/-- A worker that keeps artifacts. -/
def pairWorker : Worker := ⟨"worker-0", .stub 2, true⟩

private theorem pair_returns (second : Bool) : (pairExecution second).Returns pairEnv := by
  cases second
  · exact ⟨rfl, by decide +kernel, by decide +kernel⟩
  · exact ⟨rfl, by decide +kernel, by decide +kernel⟩

private theorem pairEnv_jsonLoads (text : PyStr) : pairEnv.jsonLoads text =
    if text = Json.dumps Json.indentedFormat pairEnv.floatRepr (.obj (pairRun false).evalResult)
    then .ok (.obj (pairRun false).evalResult.sorted)
    else .ok (.obj (pairRun true).evalResult.sorted) := rfl

private theorem pair_texts_ne :
    Json.dumps Json.indentedFormat pairEnv.floatRepr (.obj (pairRun true).evalResult) ≠
      Json.dumps Json.indentedFormat pairEnv.floatRepr (.obj (pairRun false).evalResult) := by
  decide +kernel

private theorem pair_readsBack (second : Bool) :
    (pairExecution second).ReadsBack pairEnv pairWorker "" := by
  have hloads : ∀ second, pairEnv.jsonLoads (Json.dumps Json.indentedFormat pairEnv.floatRepr
      (.obj (pairRun second).evalResult)) = .ok (.obj (pairRun second).evalResult.sorted) := by
    intro second
    rw [pairEnv_jsonLoads]
    cases second with
    | false => rw [if_pos rfl]
    | true => rw [if_neg pair_texts_ne]
  have hlinked : pairWorker.linkedContent pairEnv "" (pairExecution second).message
      (pairExecution second).job (pairRun second) = (pairRun second).evalResult :=
    if_neg nofun
  unfold Execution.ReadsBack
  rw [show (pairExecution second).run = pairRun second from rfl, hlinked]
  exact hloads second

/-- Different requests and different secrets leave the same evidence. -/
theorem evidence_hides_request_pair :
    Dict.SameBut hashKeys (pairExecution false).run.result (pairExecution true).run.result ∧
    SameFile pairEnv.toEnv ((pairExecution false).evalResultFile pairEnv pairWorker "")
      ((pairExecution true).evalResultFile pairEnv pairWorker "") ∧
    SameFile pairEnv.toEnv ((pairExecution false).artifactFile pairEnv pairWorker "")
      ((pairExecution true).artifactFile pairEnv pairWorker "") := by
  have hresponse : invokeLocalGdev pairEnv (pairExecution true).ctx (pairPayload true) =
      invokeLocalGdev pairEnv (pairExecution false).ctx (pairPayload false) := by
    decide +kernel
  have halike : (pairExecution false).Alike pairEnv (pairExecution true) := by
    refine ⟨rfl, rfl, rfl, rfl, rfl, rfl, fun _ => hresponse, fun h => absurd h ?_⟩
    exact show py "local" ≠ py "stub" by decide
  exact evidence_hides_request rfl (pair_returns false) (pair_returns true) halike
    (pair_readsBack false) (pair_readsBack true)

end AgentRuntimeGrid.GdevAgent
