import AgentRuntimeGrid.Jobs.HandledResponse

/-! The whole run of a `gdev_webhook_eval` job, judged by its payload, by the secret of its tenant
and by the response to its request. -/
namespace AgentRuntimeGrid.GdevAgent

/-- The fields that are checked before the base URL are valid, the mode is local, and this is the
base URL. -/
structure LocalBase (env : Env) (payload : Dict) (url : PyStr) : Prop where
  caseId : ∃ s, requiredStr env payloadError payload (py "case_id") = .ok s
  candidateId : ∃ s, candidateId env payloadError payload = .ok s
  request : ∃ d, Dict.get? payload (py "request") = some (.obj d)
  mode : requiredStr env payloadError payload (py "mode") = .ok (py "local")
  baseUrl : requiredStr env payloadError payload (py "gdev_base_url") = .ok url

/-- A request before it is signed. -/
structure WebhookRequest where
  url : PyStr
  body : PyBytes
  tenantSlug : PyStr
  webhookSecret : PyStr

/-- The request that a payload in local mode comes to. -/
structure Requests (env : RunnerEnv) (ctx : RunContext) (p : GdevWebhookEvalPayload)
    (r : WebhookRequest) : Prop where
  url : ∃ baseUrl, p.gdevBaseUrl = some baseUrl ∧ r.url = baseUrl ++ py "/webhook"
  body : ∃ d, buildLocalWebhookPayload p = .ok d ∧
    PyText.utf8Encode (Json.dumps wireFormat env.floatRepr (.obj d)) = some r.body
  tenantSlug : requiredLocalValue p.gdevTenantSlug = .ok r.tenantSlug
  webhookSecret : webhookSecretFromEnv ctx p.gdevWebhookSecretEnv = .ok r.webhookSecret

/-- The text of a response is empty, or JSON that is kept, or the reason of an error. -/
def BodyHandled (env : RunnerEnv) (status : ℤ) (rawBody : PyStr) : Prop :=
  rawBody ≠ [] → match env.jsonLoads rawBody with
    | .ok output => ResponseKept env ⟨status, output⟩
    | .error .decodeError => 400 ≤ status → storableText rawBody = true
    | .error (.other _) => False

/-- The bytes of a response are such a text. -/
def BytesHandled (env : RunnerEnv) (status : ℤ) (body : PyBytes) : Prop :=
  ∃ rawBody, PyText.utf8Decode body = some rawBody ∧ BodyHandled env status rawBody

/-- The text of an exception that is caught can be kept. -/
def FailureHandled (errorClass : String) (text : PyStr) : Prop :=
  storableText (py errorClass ++ py ": " ++ text) = true

/-- What becomes of a request can be handled. -/
def OutcomeHandled (env : RunnerEnv) : HttpOutcome → Prop
  | .responded status (.body body) | .httpError status (.body body) => BytesHandled env status body
  | .responded _ (.failed errorClass text) | .failed errorClass text =>
      FailureHandled errorClass text
  | .httpError _ (.failed errorClass _) => errorClass = "TimeoutError"
  | .responded _ (.raised _) | .httpError _ (.raised _) | .raised _ => False
  | .timedOut => True

/-- A job whose base URL can be parsed, and in local mode its secret encoded and what becomes of
its request handled. -/
structure Handled (env : RunnerEnv) (ctx : RunContext) (payload : Dict) : Prop where
  baseUrl : ∀ url, LocalBase env.toEnv payload url → env.urlparse url ≠ none
  request : ∀ p, validatePayload env payload = .ok p → p.mode = py "local" →
    ∀ r, Requests env ctx p r → ∃ headers,
      signedHeaders env r.body r.tenantSlug r.webhookSecret = .ok headers ∧
        OutcomeHandled env (ctx.urlopen r.url r.body headers)

section Validate
variable {env : RunnerEnv} {payload : Dict}

theorem payloadError_handled : payloadError.Handled := trivial

theorem ensures_validateLocalBaseUrl {url : PyStr} :
    (validateLocalBaseUrl env url).Ensures JobException.Handled (fun _ => True) ↔
      env.urlparse url ≠ none := by
  unfold validateLocalBaseUrl
  cases env.urlparse url with
  | none => simp [JobException.Handled]
  | some parsed => simp [payloadError_handled]

theorem ensures_webhookSecretEnv {P : PyStr → Prop} :
    (webhookSecretEnv env.toEnv payload).Ensures JobException.Handled P ↔
      ∀ s, webhookSecretEnv env.toEnv payload = .ok s → P s := by
  refine Except.ensures_iff_of_raises ?_
  unfold webhookSecretEnv
  dsimp only
  split
  · exact payloadError_handled
  · trivial

/-- Checking a payload raises another exception only where the base URL is parsed. -/
theorem ensures_validatePayload {P : GdevWebhookEvalPayload → Prop} :
    (validatePayload env payload).Ensures JobException.Handled P ↔
      (∀ url, LocalBase env.toEnv payload url → env.urlparse url ≠ none) ∧
        ∀ p, validatePayload env payload = .ok p → P p := by
  rw [Except.ensures_iff]
  refine and_congr_left' ?_
  unfold validatePayload
  simp only [Except.ensures_bind, ensures_requiredStr payloadError_handled,
    ensures_candidateId payloadError_handled]
  have hlocal : py "local" ∈ [py "stub", py "local"] := by decide
  constructor
  · rintro h url ⟨⟨caseId, hcase⟩, ⟨candidate, hcandidate⟩, ⟨request, hrequest⟩, hmode, hurl⟩
    have h := h caseId hcase candidate hcandidate
    rw [hrequest] at h
    simp only [Except.ensures_bind, Except.ensures_ite, Except.ensures_throw, Except.ensures_pure,
      ensures_requiredStr payloadError_handled, ensures_webhookSecretEnv,
      ensures_validateLocalBaseUrl, payloadError_handled, implies_true, true_and, and_true] at h
    exact h (py "local") hmode (not_not.mpr hlocal) rfl url hurl
  · intro h caseId hcase candidate hcandidate
    split
    next request hrequest =>
      simp only [Except.ensures_bind, Except.ensures_ite, Except.ensures_throw, Except.ensures_pure,
        ensures_requiredStr payloadError_handled, ensures_webhookSecretEnv,
        ensures_validateLocalBaseUrl, payloadError_handled, implies_true, true_and, and_true]
      intro mode hmode _ hlocal url hurl
      refine h url ⟨⟨caseId, hcase⟩, ⟨candidate, hcandidate⟩, ⟨request, hrequest⟩, ?_, hurl⟩
      rw [hmode, hlocal]
    next => exact payloadError_handled

/-- The texts and the request of a valid payload are kept. -/
structure GdevWebhookEvalPayload.Storable (p : GdevWebhookEvalPayload) : Prop where
  caseId : storableText p.caseId = true
  candidateId : storableText p.candidateId = true
  request : jsonbStorable (.obj p.request) = true
  mode : storableText p.mode = true
  evalResultPath : storableText p.evalResultPath.text = true

theorem storable_of_validatePayload {p : GdevWebhookEvalPayload}
    (h : jsonbStorable (.obj payload) = true) (hp : validatePayload env payload = .ok p) :
    p.Storable := by
  have hvalid := validatePayload_eq_ok hp
  have hcase := storableText_requiredStr h hvalid.caseId
  have hcandidate := storableText_candidateId h hvalid.candidateId
  refine ⟨hcase, hcandidate, jsonbStorable_get? h hvalid.request,
    storableText_requiredStr h hvalid.mode, ?_⟩
  rw [hvalid.evalResultPath]
  exact (storablePath_evalResultPathOf h hcandidate hcase).text

end Validate

section Verdict
variable {env : RunnerEnv} {ctx : RunContext} {p : GdevWebhookEvalPayload} {n : ℤ}

theorem digest_of_storable (hsha : HexDigests env.toEnv) {d : Dict}
    (h : jsonbStorable (.obj d) = true) :
    ∃ hash, digest env d = .ok hash ∧ storableText hash = true := by
  unfold digest
  obtain ⟨hash, hhash⟩ := exists_payloadSha256 env.toEnv h
  rw [hhash]
  refine ⟨py hash, rfl, ?_⟩
  obtain ⟨bytes, -, rfl⟩ := Option.map_eq_some_iff.mp hhash
  exact hsha bytes

theorem digest_error {d : Dict} {e : JobException} (h : digest env d = .error e) : ¬e.Handled := by
  unfold digest at h
  split at h
  · cases h
    exact id
  · cases h

/-- The evidence of a verdict is kept if its fields and its sanitised response are. -/
theorem storable_evidence (hp : p.Storable) {hash : PyStr} (hhash : storableText hash = true)
    {fields sanitized : Dict} {quality : PyStr} (hquality : storableText quality = true)
    (latencyMs : ℕ) :
    jsonbStorable (.obj (evidence p hash ⟨fields, sanitized, quality⟩ n latencyMs).result) = true ↔
      jsonbStorable (.obj sanitized) = true ∧ jsonbStorable (.obj fields) = true := by
  constructor
  · intro h
    let r := evidence p hash ⟨fields, sanitized, quality⟩ n latencyMs
    have hpayload : Dict.get? r.result (py "artifact_payload") = some (.obj r.artifactPayload) :=
      rfl
    have hkept := jsonbStorable_get? h hpayload
    have hsanitized : Dict.get? r.artifactPayload (py "sanitized_response") =
        some (.obj sanitized) := rfl
    have hfields : Dict.get? r.artifactPayload (py "normalized_fields") = some (.obj fields) := rfl
    exact ⟨jsonbStorable_get? hkept hsanitized, jsonbStorable_get? hkept hfields⟩
  · rintro ⟨hsanitized, hfields⟩
    simp only [jsonbStorable, Json.all] at hsanitized hfields
    simp only [evidence, jsonbStorable, Json.all, Json.allFields, Bool.and_eq_true, hsanitized,
      hfields, hhash, hquality, hp.caseId, hp.candidateId, hp.mode, hp.evalResultPath]
    decide

/-- In stub mode the verdict is made of fixed words. -/
theorem kept_stubVerdict (hsha : HexDigests env.toEnv) (hp : p.Storable) {hash : PyStr}
    (hhash : storableText hash = true) (hmode : p.mode ≠ py "local") (latencyMs : ℕ) :
    (verdict env ctx p).Ensures JobException.Handled fun v =>
      jsonbStorable (.obj (evidence p hash v n latencyMs).result) = true := by
  have hfields : ∀ f : RequestFields, f = normalizeRequest env p.request →
      storableText f.category = true ∧ storableText f.expectedStatus = true := by
    rintro f rfl
    rw [normalizeRequest_eq_ofCategory]
    simp only [normalizeRequest]
    split_ifs <;> decide
  obtain ⟨hcategory, hstatus⟩ := hfields _ rfl
  unfold verdict sanitizedResponse
  rw [if_neg hmode]
  generalize normalizeRequest env p.request = f at hcategory hstatus ⊢
  have hdict : jsonbStorable (.obj f.toDict) = true := by
    simp only [RequestFields.toDict, jsonbStorable, Json.all, Json.allFields, Bool.and_eq_true,
      hcategory, hstatus]
    decide
  have hvisible : jsonbStorable (.obj [(py "case_id", .str p.caseId),
      (py "normalized_fields", .obj f.toDict)]) = true := by
    simp only [jsonbStorable, Json.all] at hdict
    simp only [jsonbStorable, Json.all, Json.allFields, Bool.and_eq_true, hp.caseId, hdict]
    decide
  obtain ⟨hash', hdigest, hhash'⟩ := digest_of_storable hsha hvisible
  simp only [Except.ensures_bind, Except.ensures_pure, hdigest, Except.ensures_ok]
  rw [storable_evidence hp hhash (by decide)]
  refine ⟨?_, hdict⟩
  simp only [jsonbStorable, Json.all, Json.allFields, Bool.and_eq_true, hp.caseId, hcategory,
    hstatus, hhash']
  decide

/-- In local mode the evidence of some fields is kept if they are. -/
theorem ensures_sanitizedLiveResponse (hsha : HexDigests env.toEnv) (hp : p.Storable)
    {hash : PyStr} (hhash : storableText hash = true) {httpStatus : ℤ} {f : LiveFields}
    (hcase : f.caseId = p.caseId) {quality : PyStr} (hquality : storableText quality = true)
    (latencyMs : ℕ) :
    ((sanitizedLiveResponse env p.caseId httpStatus f).Ensures JobException.Handled fun s =>
        jsonbStorable (.obj (evidence p hash ⟨f.toDict, s, quality⟩ n latencyMs).result) = true) ↔
      f.Storable := by
  have hdict : jsonbStorable (.obj f.toDict) = true ↔ f.Storable :=
    storable_toDict (hcase ▸ hp.caseId)
  unfold sanitizedLiveResponse
  simp only [Except.ensures_bind, Except.ensures_pure, storable_evidence hp hhash hquality, hdict]
  by_cases hf : f.Storable
  · have hvisible : jsonbStorable (.obj [
        (py "case_id", .str p.caseId), (py "http_status", .int httpStatus),
        (py "status", .str f.status), (py "category", .str f.category),
        (py "requires_human", .bool f.requiresHuman), (py "guard_blocked", .bool f.guardBlocked),
        (py "adapter_error", .bool f.adapterError),
        (py "invalid_structured_output", .bool f.invalidStructuredOutput)]) = true := by
      simp only [jsonbStorable, Json.all, Json.allFields, Bool.and_eq_true, hp.caseId, hf.status,
        hf.category]
      decide
    obtain ⟨hash', hdigest, hhash'⟩ := digest_of_storable hsha hvisible
    refine iff_of_true ?_ hf
    rw [hdigest, Except.ensures_ok]
    refine ⟨?_, hf⟩
    simp only [List.cons_append, List.nil_append, jsonbStorable, Json.all, Json.allFields,
      Bool.and_eq_true, hp.caseId, hf.status, hf.category, hhash']
    decide
  · cases hdigest : digest env _ with
    | error e => exact iff_of_false (digest_error hdigest) hf
    | ok hash' => exact iff_of_false (fun h => hf h.2) hf

theorem normalizeLiveResponse_caseId {caseId : PyStr} {response : LocalGdevHttpResponse}
    {latencyMs : ℕ} {f : LiveFields}
    (h : normalizeLiveResponse env caseId response latencyMs = .ok f) : f.caseId = caseId := by
  have hensures : (normalizeLiveResponse env caseId response latencyMs).Ensures (fun _ => True)
      fun f => f.caseId = caseId := by
    unfold normalizeLiveResponse
    split
    · split
      · unfold adapterErrorFields
        rw [Except.ensures_bind]
        exact Except.ensures_of_forall fun _ => rfl
      dsimp only
      split
      · rfl
      rw [Except.ensures_bind]
      refine Except.ensures_of_forall fun confidence => ?_
      split
      · split
        · rfl
        rw [Except.ensures_bind]
        exact Except.ensures_of_forall fun _ => rfl
      · rfl
    · rfl
  exact hensures.of_ok h

theorem ensures_decodeJsonBody {status : ℤ} {rawBody : PyStr} :
    (decodeJsonBody env.toEnv rawBody).Ensures JobException.Handled (fun output =>
        ResponseKept env ⟨status, output⟩) ↔ BodyHandled env status rawBody := by
  unfold decodeJsonBody BodyHandled
  by_cases hraw : rawBody = []
  · rw [if_pos hraw]
    refine iff_of_true (responseKept_of_no_object fun body h => ?_) fun hne => absurd hraw hne
    cases h
  · rw [if_neg hraw]
    simp only [ne_eq, hraw, not_false_eq_true, true_imp_iff]
    cases env.jsonLoads rawBody with
    | ok output => rfl
    | error e =>
      cases e with
      | other c => rfl
      | decodeError =>
        refine responseKept_detail rfl hraw rfl rfl fun h => ?_
        cases h

theorem ensures_decodeResponse {status : ℤ} {body : PyBytes} :
    (decodeResponse env.toEnv status body).Ensures JobException.Handled (ResponseKept env) ↔
      BytesHandled env status body := by
  unfold decodeResponse BytesHandled
  cases PyText.utf8Decode body with
  | none => simp [JobException.Handled]
  | some rawBody =>
    simp only [Except.ensures_map, ensures_decodeJsonBody, Option.some.injEq, exists_eq_left']

theorem responseKept_failedRequest {errorClass : String} {text : PyStr} :
    ResponseKept env (failedRequest errorClass text) ↔ FailureHandled errorClass text := by
  have hne : py errorClass ++ py ": " ++ text ≠ [] := by simp [py]
  unfold failedRequest FailureHandled
  rw [responseKept_detail rfl hne rfl rfl fun h => ?_]
  · simp
  · cases h

/-- What becomes of a request decides whether the evidence of the response is kept. -/
theorem ensures_postSignedJson {outcome : HttpOutcome} :
    (postSignedJson env.toEnv outcome).Ensures JobException.Handled (ResponseKept env) ↔
      OutcomeHandled env outcome := by
  cases outcome with
  | responded status read =>
    cases read with
    | body body => exact ensures_decodeResponse
    | failed errorClass text => exact responseKept_failedRequest
    | raised errorClass => rfl
  | httpError code read =>
    cases read with
    | body body => exact ensures_decodeResponse
    | failed errorClass text =>
      change JobException.Handled (if errorClass = "TimeoutError" then _ else _) ↔ _
      split
      next htimeout => exact iff_of_true trivial htimeout
      next hother => exact iff_of_false id hother
    | raised errorClass => rfl
  | failed errorClass text => exact responseKept_failedRequest
  | raised errorClass => rfl
  | timedOut => exact iff_of_true trivial trivial

theorem ensures_requiredLocalValue {value : Option PyStr} {P : PyStr → Prop} :
    (requiredLocalValue value).Ensures JobException.Handled P ↔
      ∀ s, requiredLocalValue value = .ok s → P s := by
  refine Except.ensures_iff_of_raises ?_
  unfold requiredLocalValue
  split
  · exact payloadError_handled
  · split
    · exact payloadError_handled
    · trivial

theorem ensures_buildLocalWebhookPayload {P : Dict → Prop} :
    (buildLocalWebhookPayload p).Ensures JobException.Handled P ↔
      ∀ d, buildLocalWebhookPayload p = .ok d → P d := by
  refine Except.ensures_iff_of_raises ?_
  unfold buildLocalWebhookPayload
  split
  · simp only [Except.ensures_ite, Except.ensures_bind, Except.ensures_throw, Except.ensures_pure,
      ensures_requiredLocalValue, payloadError_handled, implies_true, and_self]
  · exact payloadError_handled

theorem ensures_webhookSecretFromEnv {name : Option PyStr} {P : PyStr → Prop} :
    (webhookSecretFromEnv ctx name).Ensures JobException.Handled P ↔
      ∀ s, webhookSecretFromEnv ctx name = .ok s → P s := by
  refine Except.ensures_iff_of_raises ?_
  unfold webhookSecretFromEnv
  rw [Except.ensures_bind, ensures_requiredLocalValue]
  intro name _
  split
  · exact payloadError_handled
  · exact payloadError_handled
  · trivial

theorem ensures_signedHeaders {body : PyBytes} {tenantSlug webhookSecret : PyStr}
    {P : List (PyStr × PyStr) → Prop} :
    (signedHeaders env body tenantSlug webhookSecret).Ensures JobException.Handled P ↔
      ∃ headers, signedHeaders env body tenantSlug webhookSecret = .ok headers ∧ P headers := by
  refine Except.ensures_iff_exists fun e h => ?_
  unfold signedHeaders at h
  split at h
  · cases h
  · cases h
    exact id

/-- A local run is judged by the request it comes to. -/
theorem ensures_invokeLocalGdev {P : LocalGdevHttpResponse → Prop} :
    (invokeLocalGdev env ctx p).Ensures JobException.Handled P ↔
      ∀ r, Requests env ctx p r → ∃ headers,
        signedHeaders env r.body r.tenantSlug r.webhookSecret = .ok headers ∧
          (postSignedJson env.toEnv (ctx.urlopen r.url r.body headers)).Ensures
            JobException.Handled P := by
  have hencode : ∀ d, ∃ body,
      PyText.utf8Encode (Json.dumps wireFormat env.floatRepr (.obj d)) = some body := fun d =>
    ⟨_, PyText.utf8Encode_ascii
      (Json.dumps_ascii rfl (by decide) (by decide) env.floatRepr_ascii (.obj d))⟩
  unfold invokeLocalGdev
  cases hbase : p.gdevBaseUrl with
  | none =>
    refine iff_of_true payloadError_handled fun r h => ?_
    obtain ⟨baseUrl, hsome, -⟩ := h.url
    rw [hbase] at hsome
    cases hsome
  | some baseUrl =>
    simp only [Except.ensures_bind, ensures_buildLocalWebhookPayload]
    constructor
    · rintro h ⟨url, body, tenantSlug, webhookSecret⟩ hr
      obtain ⟨baseUrl', hsome, rfl⟩ := hr.url
      obtain rfl : baseUrl = baseUrl' := Option.some.inj (hbase.symm.trans hsome)
      obtain ⟨d, hd, hbody⟩ := hr.body
      have h := h d hd
      simp only [hbody, Except.ensures_bind, ensures_webhookSecretFromEnv,
        ensures_requiredLocalValue, ensures_signedHeaders] at h
      exact h webhookSecret hr.webhookSecret tenantSlug hr.tenantSlug
    · intro h d hd
      obtain ⟨body, hbody⟩ := hencode d
      simp only [hbody, Except.ensures_bind, ensures_webhookSecretFromEnv,
        ensures_requiredLocalValue, ensures_signedHeaders]
      intro webhookSecret hsecret tenantSlug hslug
      exact h ⟨_, body, tenantSlug, webhookSecret⟩
        ⟨⟨baseUrl, hbase, rfl⟩, ⟨d, hd, hbody⟩, hslug, hsecret⟩

/-- In local mode the verdict is kept exactly if what becomes of the request can be handled. -/
theorem kept_localVerdict (hsha : HexDigests env.toEnv) (hp : p.Storable) {hash : PyStr}
    (hhash : storableText hash = true) (hmode : p.mode = py "local") (latencyMs : ℕ) :
    ((verdict env ctx p).Ensures JobException.Handled fun v =>
        jsonbStorable (.obj (evidence p hash v n latencyMs).result) = true) ↔
      ∀ r, Requests env ctx p r → ∃ headers,
        signedHeaders env r.body r.tenantSlug r.webhookSecret = .ok headers ∧
          OutcomeHandled env (ctx.urlopen r.url r.body headers) := by
  unfold verdict
  rw [if_pos hmode]
  simp only [Except.ensures_bind, Except.ensures_pure, ← ensures_postSignedJson]
  rw [← ensures_invokeLocalGdev]
  refine Except.ensures_congr fun response _ => ?_
  rw [← ensures_normalizeLiveResponse]
  refine Except.ensures_congr fun f hf => ?_
  refine ensures_sanitizedLiveResponse hsha hp hhash (normalizeLiveResponse_caseId hf) ?_ latencyMs
  split <;> decide

end Verdict

section Run
variable {env : RunnerEnv} {ctx : RunContext} {payload : Dict} {n : ℤ}

/-- A run is judged by its base URL and its request: its result is kept if it returns one. -/
theorem kept_run (hsha : HexDigests env.toEnv) (hpayload : jsonbStorable (.obj payload) = true) :
    Kept ((run env ctx payload n).map EvalRun.result) ↔ Handled env ctx payload := by
  unfold Kept run
  simp only [Except.ensures_map, Except.ensures_bind, Except.ensures_pure,
    ensures_validatePayload]
  have hvalid : ∀ p, validatePayload env payload = .ok p →
      (((digest env p.request).Ensures JobException.Handled fun hash =>
        (verdict env ctx p).Ensures JobException.Handled fun v =>
          jsonbStorable (.obj (evidence p hash v n ctx.latencyMs).result) = true) ↔
      (p.mode = py "local" → ∀ r, Requests env ctx p r → ∃ headers,
        signedHeaders env r.body r.tenantSlug r.webhookSecret = .ok headers ∧
          OutcomeHandled env (ctx.urlopen r.url r.body headers))) := by
    intro p hp
    have hstorable := storable_of_validatePayload hpayload hp
    obtain ⟨hash, hdigest, hhash⟩ := digest_of_storable hsha hstorable.request
    rw [hdigest, Except.ensures_ok]
    by_cases hmode : p.mode = py "local"
    · rw [kept_localVerdict hsha hstorable hhash hmode]
      exact ⟨fun h _ => h, fun h => h hmode⟩
    · exact iff_of_true (kept_stubVerdict hsha hstorable hhash hmode _) (absurd · hmode)
  constructor
  · exact fun h => ⟨h.1, fun p hp => (hvalid p hp).mp (h.2 p hp)⟩
  · exact fun h => ⟨h.baseUrl, fun p hp => (hvalid p hp).mpr (h.request p hp)⟩

end Run
end AgentRuntimeGrid.GdevAgent
