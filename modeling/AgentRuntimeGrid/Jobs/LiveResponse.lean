import AgentRuntimeGrid.Jobs.Confidentiality

/-! A live response is normalised to one of four records, and fails closed. -/
namespace AgentRuntimeGrid.GdevAgent

def qualityStatus (normalizedFields : Dict) : PyStr :=
  let truthy (key : String) : Bool :=
    ((Dict.get? normalizedFields (py key)).getD .null).truthy
  if truthy "adapter_error" || truthy "invalid_structured_output" then py "fail" else py "pass"

def liveKeys : List PyStr := [py "case_id", py "status", py "category", py "confidence",
  py "requires_human", py "risk_reason", py "guard_blocked", py "invalid_structured_output",
  py "unsafe_auto_approval", py "cost_usd", py "latency_ms", py "adapter_error"]

/-- The keys that `_sanitized_live_response` reads. -/
def sanitizedKeys : List PyStr := [py "status", py "category", py "requires_human",
  py "guard_blocked", py "adapter_error", py "invalid_structured_output"]

def gdevStatuses : List PyStr := [py "executed", py "pending", py "blocked", py "error"]

/-- A number that is no boolean and as a float not below 0. -/
def Confident (env : RunnerEnv) (v : Json) : Prop :=
  ∃ x, isNegative x = false ∧ (v = .float x ∨ ∃ n, v = .int n ∧ env.floatOfInt n = some x)

/-- The response is no HTTP error, and its body is an object that has, at its top level or in its
classification or derived from them, a known status, a category, a confidence and whether a human
is required. -/
def Conforms (env : RunnerEnv) (response : LocalGdevHttpResponse) : Prop :=
  response.statusCode < 400 ∧ ∃ body status category confidence requiresHuman,
    response.output = .obj body ∧
    extractRequiredFields body = ⟨some (.str status), some (.str category), some confidence,
      some (.bool requiresHuman)⟩ ∧
    status ∈ gdevStatuses ∧ category ≠ [] ∧ Confident env confidence

section Normalize
variable {env : RunnerEnv} {caseId : PyStr} {response : LocalGdevHttpResponse} {latencyMs : ℕ}
  {f : LiveFields}

/-- The record reports a failure and asks for a human. -/
structure LiveFields.FailsClosed (f : LiveFields) : Prop where
  status : f.status = py "error" ∨ f.status = py "blocked"
  requiresHuman : f.requiresHuman = true
  unsafeAutoApproval : f.unsafeAutoApproval = false
  confidence : f.confidence = .finite 0

/-- The status is a known one, and an error exactly when the record says so in its flags. -/
structure LiveFields.Consistent (f : LiveFields) : Prop where
  status : f.status ∈ gdevStatuses
  error_iff : f.status = py "error" ↔ f.adapterError = true ∨ f.invalidStructuredOutput = true

private theorem error_mem : py "error" ∈ gdevStatuses := by decide

private theorem blocked_mem : py "blocked" ∈ gdevStatuses := by decide

private theorem blocked_ne_error : py "blocked" ≠ py "error" := by decide

theorem invalidLiveOutput_failsClosed (caseId reason : PyStr) (latencyMs : ℕ) :
    (invalidLiveOutput caseId reason latencyMs).Consistent ∧
      (invalidLiveOutput caseId reason latencyMs).FailsClosed :=
  ⟨⟨error_mem, iff_of_true rfl (.inr rfl)⟩, ⟨.inl rfl, rfl, rfl, rfl⟩⟩

theorem adapterErrorFields_failsClosed {body : Dict}
    (h : adapterErrorFields env caseId body latencyMs = .ok f) : f.Consistent ∧ f.FailsClosed := by
  obtain ⟨cost, -, h⟩ := Except.bind_eq_ok.mp h
  cases h
  cases mentions (env.lower (extractErrorReason body)) "guard" ||
      mentions (env.lower (extractErrorReason body)) "injection" with
  | true => exact ⟨⟨blocked_mem, iff_of_false blocked_ne_error nofun⟩, ⟨.inr rfl, rfl, rfl, rfl⟩⟩
  | false => exact ⟨⟨error_mem, iff_of_true rfl (.inl rfl)⟩, ⟨.inl rfl, rfl, rfl, rfl⟩⟩

theorem unless_negative_iff {x y : PyFloat} :
    (if isNegative y then none else some y) = some x ↔ isNegative x = false ∧ y = x := by
  cases hneg : isNegative y with
  | true =>
    refine iff_of_false (by simp) ?_
    rintro ⟨hx, rfl⟩
    rw [hneg] at hx
    cases hx
  | false =>
    rw [if_neg Bool.false_ne_true, Option.some.injEq]
    constructor
    · rintro rfl
      exact ⟨hneg, rfl⟩
    · exact fun h => h.2

theorem optionalFloat_eq_some {v : Option Json} {x : PyFloat}
    (h : optionalFloat env v = .ok (some x)) : ∃ c, v = some c ∧ Confident env c := by
  unfold optionalFloat at h
  split at h
  next n =>
    cases hn : env.floatOfInt n with
    | none =>
      rw [hn] at h
      cases h
    | some y =>
      simp only [hn, Except.ok.injEq] at h
      obtain ⟨hx, rfl⟩ := unless_negative_iff.mp h
      exact ⟨.int n, rfl, y, hx, .inr ⟨n, rfl, hn⟩⟩
  next y =>
    obtain ⟨hx, rfl⟩ := unless_negative_iff.mp (Except.ok.inj h)
    exact ⟨.float y, rfl, y, hx, .inl rfl⟩
  next => cases h

/-- The fields are made by one of the four exits, and by the last only for a conforming response. -/
theorem normalizeLiveResponse_eq_ok
    (h : normalizeLiveResponse env caseId response latencyMs = .ok f) :
    f.Consistent ∧ (f.FailsClosed ∨ Conforms env response) := by
  have closed : f.Consistent ∧ f.FailsClosed →
      f.Consistent ∧ (f.FailsClosed ∨ Conforms env response) := fun h => ⟨h.1, .inl h.2⟩
  unfold normalizeLiveResponse at h
  split at h
  next body hbody =>
    split at h
    · exact closed (adapterErrorFields_failsClosed h)
    next hcode =>
      dsimp only at h
      split at h
      · cases h
        exact closed (invalidLiveOutput_failsClosed _ _ _)
      next hmissing =>
        obtain ⟨confidence, hconfidence, h⟩ := Except.bind_eq_ok.mp h
        split at h
        next _ _ _ _ status category x requiresHuman hstatus hcategory hhuman =>
          split at h
          · cases h
            exact closed (invalidLiveOutput_failsClosed _ _ _)
          next hvalid =>
            obtain ⟨cost, -, h⟩ := Except.bind_eq_ok.mp h
            cases h
            simp only [not_or, not_not] at hvalid
            refine ⟨⟨hvalid.1, ?_⟩, .inr ⟨not_le.mp hcode, body, status, category, ?_⟩⟩
            · simp only [decide_eq_true_eq, Bool.false_eq_true, or_false]
            · obtain ⟨c, hc, hconfident⟩ := optionalFloat_eq_some hconfidence
              refine ⟨c, requiresHuman, hbody, ?_, hvalid.1, hvalid.2, hconfident⟩
              rw [← hstatus, ← hcategory, ← hc, ← hhuman]
        · cases h
          exact closed (invalidLiveOutput_failsClosed _ _ _)
  · cases h
    exact closed (invalidLiveOutput_failsClosed _ _ _)

theorem qualityStatus_toDict (f : LiveFields) : qualityStatus f.toDict =
    if f.adapterError ∨ f.invalidStructuredOutput then py "fail" else py "pass" := by
  have hadapter : Dict.get? f.toDict (py "adapter_error") = some (.bool f.adapterError) := rfl
  have hinvalid : Dict.get? f.toDict (py "invalid_structured_output") =
      some (.bool f.invalidStructuredOutput) := rfl
  simp only [qualityStatus, hadapter, hinvalid, Option.getD_some, Json.truthy, Bool.or_eq_true]

/-- The verdict of a live run reads the quality status off the normalised fields. -/
theorem verdict_qualityStatus {ctx : RunContext} {p : GdevWebhookEvalPayload} {v : GdevVerdict}
    (hmode : p.mode = py "local") (h : verdict env ctx p = .ok v) :
    v.qualityStatus = qualityStatus v.normalizedFields := by
  unfold verdict at h
  rw [if_pos hmode] at h
  obtain ⟨response, -, h⟩ := Except.bind_eq_ok.mp h
  obtain ⟨fields, -, h⟩ := Except.bind_eq_ok.mp h
  obtain ⟨sanitized, -, h⟩ := Except.bind_eq_ok.mp h
  cases h
  exact (qualityStatus_toDict fields).symm

/-- What the keys have that the sanitised response reads. -/
def LiveFields.sanitized (f : LiveFields) : List (Option Json) := [some (.str f.status),
  some (.str f.category), some (.bool f.requiresHuman), some (.bool f.guardBlocked),
  some (.bool f.adapterError), some (.bool f.invalidStructuredOutput)]

theorem toDict_sanitizedKeys : sanitizedKeys.map (Dict.get? f.toDict) = f.sanitized := rfl

theorem visible_sanitizedKeys {httpStatus : ℤ} {d : Dict}
    (h : sanitizedLiveResponse env caseId httpStatus f = .ok d) :
    sanitizedKeys.map (Dict.get? d) = f.sanitized := by
  obtain ⟨hash, -, h⟩ := Except.bind_eq_ok.mp h
  cases h
  rfl

theorem sanitizedLiveResponse_get? {httpStatus : ℤ} {d : Dict}
    (h : sanitizedLiveResponse env caseId httpStatus f = .ok d) :
    ∀ key ∈ sanitizedKeys, Dict.get? d key = Dict.get? f.toDict key ∧
      (Dict.get? d key).isSome = true := by
  have hcopied := visible_sanitizedKeys h
  have hread := List.map_inj_left.mp (hcopied.trans toDict_sanitizedKeys.symm)
  have hsome : ∀ v ∈ f.sanitized, v.isSome = true := by simp [LiveFields.sanitized]
  intro key hkey
  exact ⟨hread key hkey, hsome _ (hcopied ▸ List.mem_map_of_mem hkey)⟩

/-- A live response is normalised to the twelve fields, with a known status that is an error exactly
when the quality fails, and a response that does not conform fails closed. -/
theorem live_response_fails_closed
    (h : normalizeLiveResponse env caseId response latencyMs = .ok f) :
    f.toDict.map Prod.fst = liveKeys ∧
    (∀ d, sanitizedLiveResponse env caseId response.statusCode f = .ok d →
      ∀ key ∈ sanitizedKeys, Dict.get? d key = Dict.get? f.toDict key ∧
        (Dict.get? d key).isSome = true) ∧
    f.status ∈ gdevStatuses ∧
    (qualityStatus f.toDict = py "fail" ↔ f.status = py "error") ∧
    (¬ Conforms env response → (f.status = py "error" ∨ f.status = py "blocked") ∧
      f.requiresHuman = true ∧ f.unsafeAutoApproval = false ∧ f.confidence = .finite 0) := by
  obtain ⟨hconsistent, hexit⟩ := normalizeLiveResponse_eq_ok h
  refine ⟨rfl, fun d hd => sanitizedLiveResponse_get? hd, hconsistent.status, ?_, fun hnot => ?_⟩
  · rw [qualityStatus_toDict, hconsistent.error_iff]
    split
    next hfail => exact iff_of_true rfl hfail
    next hpass => exact iff_of_false (by decide) hpass
  · have hclosed := hexit.resolve_right hnot
    exact ⟨hclosed.status, hclosed.requiresHuman, hclosed.unsafeAutoApproval, hclosed.confidence⟩

end Normalize

/-- A service that refuses a request. -/
def guardResponse : LocalGdevHttpResponse :=
  ⟨403, .obj [(py "detail", .str (py "blocked by input guard"))]⟩

theorem live_response_fails_closed_guard : ∃ f,
    normalizeLiveResponse pairEnv (py "case-1") guardResponse 7 = .ok f ∧
    f.status = py "blocked" ∧ f.requiresHuman = true ∧ qualityStatus f.toDict ≠ py "fail" := by
  obtain ⟨f, hf, hblocked⟩ : ∃ f, normalizeLiveResponse pairEnv (py "case-1") guardResponse 7 =
      .ok f ∧ f.status = py "blocked" := ⟨_, rfl, by decide⟩
  have hnot : ¬ Conforms pairEnv guardResponse := fun h => absurd h.1 (by decide)
  obtain ⟨-, -, -, hquality, hclosed⟩ := live_response_fails_closed hf
  refine ⟨f, hf, hblocked, (hclosed hnot).2.1, fun hfail => blocked_ne_error ?_⟩
  rw [← hblocked, hquality.mp hfail]

end AgentRuntimeGrid.GdevAgent
