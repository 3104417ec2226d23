import AgentRuntimeGrid.Jobs.Payload

/-! The runner of `gdev_webhook_eval` jobs: a request classified by its words, or sent signed to a
local agent whose response is normalised, and the evidence of either. -/
namespace AgentRuntimeGrid.GdevAgent

def payloadError : JobException := .policy "GdevAgentPayloadError"

structure GdevWebhookEvalPayload where
  caseId : PyStr
  candidateId : PyStr
  request : Dict
  mode : PyStr
  evalResultPath : PyPath
  gdevBaseUrl : Option PyStr
  gdevTenantSlug : Option PyStr
  gdevTenantId : Option PyStr
  gdevWebhookSecretEnv : Option PyStr
  deriving DecidableEq

def validateLocalBaseUrl (env : RunnerEnv) (value : PyStr) : Except JobException PyStr :=
  match env.urlparse value with
  | none => .error (.unhandled "ValueError")
  | some parsed =>
    if parsed.scheme ≠ py "http" then .error payloadError
    else if parsed.hostname ∉ [some (py "localhost"), some (py "127.0.0.1"), some (py "::1")] then
      .error payloadError
    else if parsed.username.getD [] ≠ [] ∨ parsed.password.getD [] ≠ [] then .error payloadError
    else if parsed.path ∉ [[], py "/"] then .error payloadError
    else .ok (value.reverse.dropWhile (· = 47)).reverse

/-- The name of the environment variable, `DEFAULT_GDEV_WEBHOOK_SECRET_ENV` unless given. -/
def webhookSecretEnv (env : Env) (payload : Dict) : Except JobException PyStr :=
  let value := match Dict.getOr payload (py "gdev_webhook_secret_env") with
    | .str [] => .str (py "GDEV_AGENT_WEBHOOK_SECRET")
    | v => v
  match PyText.strip (env.str value) with
  | [] => .error payloadError
  | name => .ok name

/-- `validate_gdev_webhook_eval_payload`. -/
def validatePayload (env : RunnerEnv) (payload : Dict) :
    Except JobException GdevWebhookEvalPayload := do
  let caseId ← requiredStr env.toEnv payloadError payload (py "case_id")
  let candidate ← candidateId env.toEnv payloadError payload
  let some (.obj request) := Dict.get? payload (py "request") | throw payloadError
  let mode ← requiredStr env.toEnv payloadError payload (py "mode")
  if mode ∉ [py "stub", py "local"] then throw payloadError
  let path := evalResultPathOf env.toEnv payload candidate caseId
  if mode = py "local" then
    let baseUrl ← validateLocalBaseUrl env
      (← requiredStr env.toEnv payloadError payload (py "gdev_base_url"))
    let tenantSlug ← requiredStr env.toEnv payloadError payload (py "gdev_tenant_slug")
    let tenantId ← requiredStr env.toEnv payloadError payload (py "gdev_tenant_id")
    let secretEnv ← webhookSecretEnv env.toEnv payload
    return ⟨caseId, candidate, request, mode, path, some baseUrl, some tenantSlug, some tenantId,
      some secretEnv⟩
  else return ⟨caseId, candidate, request, mode, path, none, none, none, none⟩

def optionalString : Option Json → PyStr
  | some (.str s) => s
  | _ => []

/-- `text or default`. -/
def orText (text default : PyStr) : PyStr := if text = [] then default else text

def requiredLocalValue : Option PyStr → Except JobException PyStr
  | none => .error payloadError
  | some value => if PyText.strip value = [] then .error payloadError else .ok value

def buildLocalWebhookPayload (p : GdevWebhookEvalPayload) : Except JobException Dict := do
  let some (.str text) := Dict.get? p.request (py "text") | throw payloadError
  if PyText.strip text = [] then throw payloadError
  let metadata := match Dict.get? p.request (py "metadata") with
    | some (.obj metadata) => metadata
    | _ => []
  let requestId := orText (optionalString (Dict.get? p.request (py "request_id"))) p.caseId
  let tenantId ← requiredLocalValue p.gdevTenantId
  return [
    (py "request_id", .str requestId),
    (py "tenant_id", .str tenantId),
    (py "message_id",
      .str (orText (optionalString (Dict.get? p.request (py "message_id"))) p.caseId)),
    (py "user_id", .str (optionalString (Dict.get? p.request (py "user_id")))),
    (py "text", .str text),
    (py "metadata", .obj (Dict.set metadata (py "eval_case_id") (.str p.caseId)))]

/-- `separators=(",", ":"), sort_keys=True`. -/
def wireFormat : Json.DumpsFormat := ⟨py ",", py ":", none, true⟩

def webhookSecretFromEnv (ctx : RunContext) (envName : Option PyStr) :
    Except JobException PyStr := do
  let name ← requiredLocalValue envName
  match ctx.getenv name with
  | none | some [] => throw payloadError
  | some secret => return secret

def signedHeaders (env : RunnerEnv) (body : PyBytes) (tenantSlug webhookSecret : PyStr) :
    Except JobException (List (PyStr × PyStr)) := do
  let some key := PyText.utf8Encode webhookSecret | throw (.unhandled "UnicodeEncodeError")
  return [
    (py "Content-Type", py "application/json"),
    (py "X-Tenant-Slug", tenantSlug),
    (py "X-Webhook-Signature", py "sha256=" ++ py (env.hmacSha256 key body))]

structure LocalGdevHttpResponse where
  statusCode : ℤ
  output : Json
  deriving DecidableEq

def decodeJsonBody (env : Env) (rawBody : PyStr) : Except JobException Json :=
  if rawBody = [] then .ok .null
  else match env.jsonLoads rawBody with
    | .ok v => .ok v
    | .error .decodeError => .ok (.obj [(py "detail", .str rawBody)])
    | .error (.other c) => .error (.unhandled c)

/-- A response whose body has been read. -/
def decodeResponse (env : Env) (status : ℤ) (body : PyBytes) :
    Except JobException LocalGdevHttpResponse :=
  match PyText.utf8Decode body with
  | none => .error (.unhandled "UnicodeDecodeError")
  | some rawBody => (decodeJsonBody env rawBody).map fun output => ⟨status, output⟩

/-- The answer made of an exception that is caught. -/
def failedRequest (errorClass : String) (text : PyStr) : LocalGdevHttpResponse :=
  ⟨599, .obj [(py "detail", .str (py errorClass ++ py ": " ++ text)),
    (py "error_type", .str (py errorClass))]⟩

/-- `_post_signed_json_sync` on what `urlopen` does. -/
def postSignedJson (env : Env) : HttpOutcome → Except JobException LocalGdevHttpResponse
  | .responded status (.body body) => decodeResponse env status body
  | .responded _ (.failed c text) => .ok (failedRequest c text)
  | .responded _ (.raised c) => .error (.unhandled c)
  | .httpError code (.body body) => decodeResponse env code body
  -- raised inside a handler, so by no clause caught, but `run_with_timeout` takes a `TimeoutError`
  -- for its own
  | .httpError _ (.failed c _) => .error (if c = "TimeoutError" then .timedOut else .unhandled c)
  | .httpError _ (.raised c) => .error (.unhandled c)
  | .failed c text => .ok (failedRequest c text)
  | .raised c => .error (.unhandled c)
  | .timedOut => .error .timedOut

def invokeLocalGdev (env : RunnerEnv) (ctx : RunContext) (p : GdevWebhookEvalPayload) :
    Except JobException LocalGdevHttpResponse := do
  let some baseUrl := p.gdevBaseUrl | throw payloadError
  let bodyPayload ← buildLocalWebhookPayload p
  let some body := PyText.utf8Encode (Json.dumps wireFormat env.floatRepr (.obj bodyPayload))
    | throw (.unhandled "UnicodeEncodeError")
  let webhookSecret ← webhookSecretFromEnv ctx p.gdevWebhookSecretEnv
  let headers ← signedHeaders env body (← requiredLocalValue p.gdevTenantSlug) webhookSecret
  postSignedJson env.toEnv (ctx.urlopen (baseUrl ++ py "/webhook") body headers)

/-- The fields `_normalize_request` returns. -/
structure RequestFields where
  category : PyStr
  requiresHuman : Bool
  expectedStatus : PyStr
  deriving DecidableEq

def RequestFields.toDict (f : RequestFields) : Dict :=
  [(py "category", .str f.category), (py "requires_human", .bool f.requiresHuman),
    (py "expected_status", .str f.expectedStatus)]

/-- `needle in text`. -/
def mentions (text : PyStr) (needle : String) : Bool := py needle <:+: text

def normalizeRequest (env : RunnerEnv) (request : Dict) : RequestFields :=
  let value := match Dict.get? request (py "text") with
    | some v => if v.truthy then v else Dict.getOr request (py "message")
    | none => Dict.getOr request (py "message")
  let text := env.lower (env.str value)
  if mentions text "refund" || mentions text "billing" then ⟨py "billing", false, py "executed"⟩
  else if mentions text "bug" || mentions text "error" || mentions text "spinner" then
    ⟨py "bug_report", false, py "executed"⟩
  else if mentions text "abuse" || mentions text "moderation" || mentions text "harass" then
    ⟨py "moderation", true, py "pending"⟩
  else ⟨py "webhook", false, py "executed"⟩

/-- The fields `_normalize_live_response` returns. -/
structure LiveFields where
  caseId : PyStr
  status : PyStr
  category : PyStr
  confidence : PyFloat
  requiresHuman : Bool
  riskReason : PyStr
  guardBlocked : Bool
  invalidStructuredOutput : Bool
  unsafeAutoApproval : Bool
  costUsd : Option PyFloat
  latencyMs : ℕ
  adapterError : Bool

def LiveFields.toDict (f : LiveFields) : Dict := [
  (py "case_id", .str f.caseId),
  (py "status", .str f.status),
  (py "category", .str f.category),
  (py "confidence", .float f.confidence),
  (py "requires_human", .bool f.requiresHuman),
  (py "risk_reason", .str f.riskReason),
  (py "guard_blocked", .bool f.guardBlocked),
  (py "invalid_structured_output", .bool f.invalidStructuredOutput),
  (py "unsafe_auto_approval", .bool f.unsafeAutoApproval),
  (py "cost_usd", match f.costUsd with
    | none => .null
    | some x => .float x),
  (py "latency_ms", .int f.latencyMs),
  (py "adapter_error", .bool f.adapterError)]

/-- `number < 0`. -/
def isNegative : PyFloat → Bool
  | .finite q => q < 0
  | .infinity negative => negative
  | .nan => false

def optionalFloat (env : RunnerEnv) : Option Json → Except JobException (Option PyFloat)
  | some (.int n) => match env.floatOfInt n with
    | none => .error (.unhandled "OverflowError")
    | some x => .ok (if isNegative x then none else some x)
  | some (.float x) => .ok (if isNegative x then none else some x)
  | _ => .ok none

def optionalBool (default : Bool) : Option Json → Bool
  | some (.bool b) => b
  | _ => default

def extractCost (env : RunnerEnv) (body : Dict) : Except JobException (Option PyFloat) := do
  match ← optionalFloat env (Dict.get? body (py "cost_usd")) with
  | some cost => return some cost
  | none => match Dict.get? body (py "usage") with
    | some (.obj usage) => optionalFloat env (Dict.get? usage (py "estimated_cost_usd"))
    | _ => return none

def extractRiskReason (body : Dict) : PyStr :=
  let nested (key field : String) : PyStr := match Dict.get? body (py key) with
    | some (.obj d) => optionalString (Dict.get? d (py field))
    | _ => []
  orText (optionalString (Dict.get? body (py "risk_reason")))
    (orText (nested "action" "risk_reason") (nested "pending" "reason"))

def extractErrorReason (body : Dict) : PyStr :=
  let value := match Dict.get? body (py "error") with
    | some v => if v.truthy then v else Dict.getOr body (py "message")
    | none => Dict.getOr body (py "message")
  orText (optionalString (Dict.get? body (py "detail")))
    (optionalString (some (if value.truthy then value else .str (py "http error"))))

def invalidLiveOutput (caseId reason : PyStr) (latencyMs : ℕ) : LiveFields where
  caseId := caseId
  status := py "error"
  category := py "invalid_structured_output"
  confidence := .finite 0
  requiresHuman := true
  riskReason := reason
  guardBlocked := false
  invalidStructuredOutput := true
  unsafeAutoApproval := false
  costUsd := none
  latencyMs := latencyMs
  adapterError := false

def adapterErrorFields (env : RunnerEnv) (caseId : PyStr) (body : Dict) (latencyMs : ℕ) :
    Except JobException LiveFields := do
  let reason := extractErrorReason body
  let lowered := env.lower reason
  let blocked := mentions lowered "guard" || mentions lowered "injection"
  let cost ← extractCost env body
  return {
    caseId := caseId
    status := if blocked then py "blocked" else py "error"
    category := if blocked then py "guard_blocked" else py "adapter_error"
    confidence := .finite 0
    requiresHuman := true
    riskReason := reason
    guardBlocked := blocked
    invalidStructuredOutput := false
    unsafeAutoApproval := false
    costUsd := cost
    latencyMs := latencyMs
    adapterError := !blocked }

def deriveRequiresHuman (status : PyStr) (body : Dict) : Bool :=
  if status ∈ [py "blocked", py "error", py "pending"] then true
  else match Dict.get? body (py "pending") with
    | some .null | none => match Dict.get? body (py "action") with
      | some (.obj action) => match Dict.get? action (py "risky") with
        | some (.bool b) => b
        | _ => false
      | _ => false
    | some _ => true

/-- `value is not None` of `d.get(key)`. -/
def present : Option Json → Option Json
  | none | some .null => none
  | some v => some v

/-- What `_extract_required_fields` finds: the status, the category, the confidence and whether a
human is required. -/
structure RequiredFields where
  status : Option Json
  category : Option Json
  confidence : Option Json
  requiresHuman : Option Json

def extractRequiredFields (body : Dict) : RequiredFields :=
  let classification : Option Dict := match Dict.get? body (py "classification") with
    | some (.obj d) => some d
    | _ => none
  let field (key : String) : Option Json := match Dict.get? body (py key) with
    | some v => some v
    | none => classification.bind fun d => Dict.get? d (py key)
  { status := present (Dict.get? body (py "status"))
    category := present (field "category")
    confidence := present (field "confidence")
    requiresHuman := match Dict.get? body (py "requires_human") with
      | some v => some v
      | none => match classification, Dict.get? body (py "status") with
        | some _, some (.str status) => some (.bool (deriveRequiresHuman status body))
        | _, _ => none }

def RequiredFields.missing (r : RequiredFields) : List PyStr :=
  (if r.status.isNone then [py "status"] else []) ++
  (if r.category.isNone then [py "category"] else []) ++
  (if r.confidence.isNone then [py "confidence"] else []) ++
  if r.requiresHuman.isNone then [py "requires_human"] else []

def normalizeLiveResponse (env : RunnerEnv) (caseId : PyStr) (response : LocalGdevHttpResponse)
    (latencyMs : ℕ) : Except JobException LiveFields := do
  let .obj body := response.output
    | return invalidLiveOutput caseId (py "response body is not a structured object") latencyMs
  if response.statusCode ≥ 400 then adapterErrorFields env caseId body latencyMs
  else
    let required := extractRequiredFields body
    if required.missing ≠ [] then
      return invalidLiveOutput caseId (py "missing required fields: " ++
        (required.missing.intersperse (py ", ")).flatten) latencyMs
    else
      let confidence ← optionalFloat env required.confidence
      match required.status, required.category, confidence, required.requiresHuman with
      | some (.str status), some (.str category), some confidence, some (.bool requiresHuman) =>
        if status ∉ [py "executed", py "pending", py "blocked", py "error"] ∨ category = [] then
          return invalidLiveOutput caseId (py "invalid required field types or values") latencyMs
        else
          let cost ← extractCost env body
          return {
            caseId := caseId
            status := status
            category := category
            confidence := confidence
            requiresHuman := requiresHuman
            riskReason := extractRiskReason body
            guardBlocked :=
              optionalBool (status = py "blocked") (Dict.get? body (py "guard_blocked"))
            invalidStructuredOutput := false
            unsafeAutoApproval := optionalBool false (Dict.get? body (py "unsafe_auto_approval"))
            costUsd := cost
            latencyMs := latencyMs
            adapterError := status = py "error" }
      | _, _, _, _ =>
        return invalidLiveOutput caseId (py "invalid required field types or values") latencyMs

/-- `payload_sha256` of a `dict` of the runner. -/
def digest (env : RunnerEnv) (d : Dict) : Except JobException PyStr :=
  match payloadSha256 env.toEnv d with
  | none => .error (.unhandled "UnicodeEncodeError")
  | some hash => .ok (py hash)

def sanitizedResponse (env : RunnerEnv) (caseId : PyStr) (f : RequestFields) :
    Except JobException Dict := do
  let hash ← digest env [(py "case_id", .str caseId), (py "normalized_fields", .obj f.toDict)]
  return [
    (py "case_id", .str caseId),
    (py "status", .str f.expectedStatus),
    (py "category", .str f.category),
    (py "requires_human", .bool f.requiresHuman),
    (py "response_hash", .str hash)]

def sanitizedLiveResponse (env : RunnerEnv) (caseId : PyStr) (httpStatus : ℤ) (f : LiveFields) :
    Except JobException Dict := do
  let visible : Dict := [
    (py "case_id", .str caseId),
    (py "http_status", .int httpStatus),
    (py "status", .str f.status),
    (py "category", .str f.category),
    (py "requires_human", .bool f.requiresHuman),
    (py "guard_blocked", .bool f.guardBlocked),
    (py "adapter_error", .bool f.adapterError),
    (py "invalid_structured_output", .bool f.invalidStructuredOutput)]
  return visible ++ [(py "response_hash", .str (← digest env visible))]

/-- What a run makes of its response: the normalised fields, the sanitised response and the
quality status. -/
structure GdevVerdict where
  normalizedFields : Dict
  sanitizedResponse : Dict
  qualityStatus : PyStr
  deriving DecidableEq

def verdict (env : RunnerEnv) (ctx : RunContext) (p : GdevWebhookEvalPayload) :
    Except JobException GdevVerdict := do
  if p.mode = py "local" then
    let response ← invokeLocalGdev env ctx p
    let fields ← normalizeLiveResponse env p.caseId response ctx.measuredLatencyMs
    let sanitized ← sanitizedLiveResponse env p.caseId response.statusCode fields
    return ⟨fields.toDict, sanitized,
      if fields.adapterError ∨ fields.invalidStructuredOutput then py "fail" else py "pass"⟩
  else
    let fields := normalizeRequest env p.request
    return ⟨fields.toDict, ← sanitizedResponse env p.caseId fields, py "pass"⟩

/-- The evidence of a run: what it returns and writes, given the hash of the request. -/
def evidence (p : GdevWebhookEvalPayload) (requestHash : PyStr) (v : GdevVerdict)
    (attemptNumber : ℤ) (latencyMs : ℕ) : EvalRun :=
  let path := p.evalResultPath.text
  let artifactPayload : Dict := [
    (py "case_id", .str p.caseId),
    (py "gdev_case_id", .str p.caseId),
    (py "candidate_id", .str p.candidateId),
    (py "request_hash", .str requestHash),
    (py "sanitized_response", .obj v.sanitizedResponse),
    (py "normalized_fields", .obj v.normalizedFields),
    (py "runtime_status", .str (py "completed")),
    (py "status", .str (py "completed")),
    (py "quality_status", .str v.qualityStatus),
    (py "runtime_attempts", .int attemptNumber),
    (py "attempt_count", .int attemptNumber),
    (py "latency_ms", .int latencyMs),
    (py "eval_result_path", .str path),
    (py "mode", .str p.mode)]
  { result := [
      (py "summary", .str (py "gdev_webhook_eval completed")),
      (py "case_id", .str p.caseId),
      (py "request_hash", .str requestHash),
      (py "quality_status", .str v.qualityStatus),
      (py "eval_result_path", .str path),
      (py "artifact_payload", .obj artifactPayload)]
    evalResultPath := path
    evalResult := [
      (py "case_id", .str p.caseId),
      (py "candidate_id", .str p.candidateId),
      (py "quality_status", .str v.qualityStatus),
      (py "request_hash", .str requestHash),
      (py "normalized_fields", .obj v.normalizedFields),
      (py "sanitized_response", .obj v.sanitizedResponse)] }

/-- `run_gdev_webhook_eval`. -/
def run (env : RunnerEnv) (ctx : RunContext) (payload : Dict) (attemptNumber : ℤ) :
    Except JobException EvalRun := do
  let p ← validatePayload env payload
  let requestHash ← digest env p.request
  let v ← verdict env ctx p
  return evidence p requestHash v attemptNumber ctx.latencyMs

end AgentRuntimeGrid.GdevAgent
