import AgentRuntimeGrid.Jobs.Handled
import AgentRuntimeGrid.Jobs.LiveResponse

/-! Which requests and responses a `gdev_webhook_eval` job in local mode brings to an end that its
worker has a clause for, with a result that a `jsonb` column keeps. -/
namespace AgentRuntimeGrid.GdevAgent

/-- The number has a float, and a `jsonb` column keeps it unless it is negative and left out. -/
def NumberKept (env : RunnerEnv) : Option Json → Prop
  | some (.int n) =>
      ∃ x, env.floatOfInt n = some x ∧ (isNegative x = true ∨ storableFloat x = true)
  | some (.float x) => isNegative x = true ∨ storableFloat x = true
  | _ => True

/-- So it is with the cost of a body, or else with that of its usage. -/
structure CostKept (env : RunnerEnv) (body : Dict) : Prop where
  cost : NumberKept env (Dict.get? body (py "cost_usd"))
  usage : (∀ v, Dict.get? body (py "cost_usd") = some v → ¬Confident env v) →
    ∀ usage, Dict.get? body (py "usage") = some (.obj usage) →
      NumberKept env (Dict.get? usage (py "estimated_cost_usd"))

/-- The float that a non-negative number is read as. -/
def ReadAs (env : RunnerEnv) (v : Json) (x : PyFloat) : Prop :=
  isNegative x = false ∧ (v = .float x ∨ ∃ n, v = .int n ∧ env.floatOfInt n = some x)

/-- The fields of a response that is no error, if it has them all and they are valid. -/
structure HasVerdict (env : RunnerEnv) (body : Dict) (category : PyStr) (x : PyFloat) : Prop where
  fields : ∃ status confidence requiresHuman, extractRequiredFields body =
      ⟨some (.str status), some (.str category), some confidence, some (.bool requiresHuman)⟩ ∧
    status ∈ gdevStatuses ∧ ReadAs env confidence x
  category : category ≠ []

/-- What the evidence keeps of a response: of an error its reason and its cost, of a verdict its
category, its confidence, its risk reason and its cost. -/
structure ResponseKept (env : RunnerEnv) (response : LocalGdevHttpResponse) : Prop where
  error : ∀ body, response.output = .obj body → 400 ≤ response.statusCode →
    storableText (extractErrorReason body) = true ∧ CostKept env body
  confidence : ∀ body n, response.output = .obj body → response.statusCode < 400 →
    (extractRequiredFields body).missing = [] →
    (extractRequiredFields body).confidence = some (.int n) → env.floatOfInt n ≠ none
  verdict : ∀ body category x, response.output = .obj body → response.statusCode < 400 →
    HasVerdict env body category x → storableFloat x = true ∧ storableText category = true ∧
      storableText (extractRiskReason body) = true ∧ CostKept env body

section Numbers
variable {env : RunnerEnv} {v : Option Json} {R : Prop}

theorem confident_iff {v : Json} : Confident env v ↔ ∃ x, ReadAs env v x := Iff.rfl

theorem readAs_float {x y : PyFloat} :
    ReadAs env (.float x) y ↔ isNegative y = false ∧ x = y := by
  simp [ReadAs]

theorem readAs_int {n : ℤ} {y : PyFloat} :
    ReadAs env (.int n) y ↔ isNegative y = false ∧ env.floatOfInt n = some y := by
  simp [ReadAs]

theorem optionalFloat_eq_some_iff {x : PyFloat} :
    optionalFloat env v = .ok (some x) ↔ ∃ c, v = some c ∧ ReadAs env c x := by
  cases v with
  | none => simp [optionalFloat]
  | some j =>
    simp only [Option.some.injEq, exists_eq_left']
    cases j with
    | int n =>
      simp only [optionalFloat, readAs_int]
      cases env.floatOfInt n with
      | none => simp
      | some y => simp only [Except.ok.injEq, unless_negative_iff, Option.some.injEq]
    | float y => simp only [optionalFloat, readAs_float, Except.ok.injEq, unless_negative_iff]
    | _ => simp [optionalFloat, ReadAs]

/-- Reading a number raises only for an integer that no float holds. -/
theorem ensures_optionalFloat_iff {P : Option PyFloat → Prop} :
    (optionalFloat env v).Ensures JobException.Handled P ↔
      (∀ n, v = some (.int n) → env.floatOfInt n ≠ none) ∧
        ∀ r, optionalFloat env v = .ok r → P r := by
  rw [Except.ensures_iff]
  refine and_congr_left' ?_
  cases v with
  | none => simp [optionalFloat]
  | some j =>
    cases j with
    | int n => cases h : env.floatOfInt n <;> simp [optionalFloat, h, JobException.Handled]
    | _ => simp [optionalFloat]

/-- A number that is read is kept or left out; any other value has no part in it. -/
theorem ensures_optionalFloat :
    (optionalFloat env v).Ensures JobException.Handled (fun r => match r with
        | some x => storableFloat x = true
        | none => R) ↔
      NumberKept env v ∧ ((∀ c, v = some c → ¬Confident env c) → R) := by
  cases v with
  | none => simp [optionalFloat, NumberKept]
  | some j =>
    simp only [Option.some.injEq, forall_eq', confident_iff]
    cases j with
    | int n =>
      simp only [optionalFloat, NumberKept, readAs_int]
      cases env.floatOfInt n with
      | none => simp [JobException.Handled]
      | some x => cases hneg : isNegative x <;> simp [hneg]
    | float x =>
      simp only [optionalFloat, NumberKept, readAs_float]
      cases hneg : isNegative x <;> simp [hneg]
    | _ => simp [optionalFloat, NumberKept, ReadAs]

/-- The floats that evidence holds are kept. -/
def KeptFloat (x : Option PyFloat) : Prop := ∀ y, x = some y → storableFloat y = true

theorem ensures_optionalFloat_kept :
    (optionalFloat env v).Ensures JobException.Handled KeptFloat ↔ NumberKept env v := by
  rw [← and_true (NumberKept env v), ← implies_true (∀ c, v = some c → ¬Confident env c),
    ← ensures_optionalFloat]
  refine Except.ensures_congr fun r _ => ?_
  cases r <;> simp [KeptFloat]

theorem optionalFloat_error {e : JobException} (h : optionalFloat env v = .error e) :
    ¬e.Handled := by
  unfold optionalFloat at h
  split at h
  · split at h
    · cases h
      exact id
    · cases h
  · cases h
  · cases h

theorem extractCost_error {body : Dict} {e : JobException} (h : extractCost env body = .error e) :
    ¬e.Handled := by
  unfold extractCost at h
  cases hcost : optionalFloat env (Dict.get? body (py "cost_usd")) with
  | error e' =>
    rw [hcost] at h
    cases h
    exact optionalFloat_error hcost
  | ok r =>
    rw [hcost] at h
    cases r with
    | some x => cases h
    | none =>
      dsimp only [bind, Except.bind] at h
      split at h
      · exact optionalFloat_error h
      · cases h

theorem ensures_extractCost {body : Dict} :
    (extractCost env body).Ensures JobException.Handled KeptFloat ↔ CostKept env body := by
  unfold extractCost
  rw [Except.ensures_bind]
  refine Iff.trans (Except.ensures_congr fun r _ => ?_) (ensures_optionalFloat.trans
    (⟨fun h => ⟨h.1, h.2⟩, fun h => ⟨h.cost, h.usage⟩⟩ : _ ↔ CostKept env body))
  cases r with
  | none =>
    dsimp only
    split
    next usage h => simp [h, ensures_optionalFloat_kept]
    next hnone =>
      refine iff_of_true ?_ fun usage h => absurd h (hnone usage)
      simp [KeptFloat]
  | some x => simp [KeptFloat]

end Numbers

section Response
variable {env : RunnerEnv} {caseId : PyStr} {response : LocalGdevHttpResponse} {latencyMs : ℕ}
  {f : LiveFields}

/-- The texts and the numbers of the fields are kept. -/
structure LiveFields.Storable (f : LiveFields) : Prop where
  status : storableText f.status = true
  category : storableText f.category = true
  confidence : storableFloat f.confidence = true
  riskReason : storableText f.riskReason = true
  costUsd : KeptFloat f.costUsd

theorem storable_toDict (hcase : storableText f.caseId = true) :
    jsonbStorable (.obj f.toDict) = true ↔ f.Storable := by
  constructor
  · intro h
    have kept {key : PyStr} {v : Json} (hv : Dict.get? f.toDict key = some v) :=
      jsonbStorable_get? h hv
    refine ⟨@kept (py "status") _ rfl, @kept (py "category") _ rfl, @kept (py "confidence") _ rfl,
      @kept (py "risk_reason") _ rfl, fun x hx => ?_⟩
    have hcost : Dict.get? f.toDict (py "cost_usd") = some (.float x) := by
      simp only [LiveFields.toDict, hx]
      rfl
    exact kept hcost
  · intro h
    unfold LiveFields.toDict
    cases hcost : f.costUsd with
    | none =>
      simp only [jsonbStorable, Json.all, Json.allFields, Bool.and_eq_true, hcase, h.status,
        h.category, h.confidence, h.riskReason]
      decide
    | some x =>
      simp only [jsonbStorable, Json.all, Json.allFields, Bool.and_eq_true, hcase, h.status,
        h.category, h.confidence, h.riskReason, h.costUsd x hcost]
      decide

theorem ensures_adapterErrorFields {body : Dict} :
    (adapterErrorFields env caseId body latencyMs).Ensures JobException.Handled
        LiveFields.Storable ↔
      storableText (extractErrorReason body) = true ∧ CostKept env body := by
  rw [← ensures_extractCost, ← Except.ensures_and_left fun e => extractCost_error]
  unfold adapterErrorFields
  simp only [Except.ensures_bind, Except.ensures_pure]
  refine Except.ensures_congr fun cost _ => ⟨fun h => ⟨h.riskReason, h.costUsd⟩, fun h => ?_⟩
  refine ⟨?_, ?_, rfl, h.1, h.2⟩
  · dsimp only
    split <;> decide
  · dsimp only
    split <;> decide

theorem storable_invalidLiveOutput {reason : PyStr} (h : storableText reason = true) :
    (invalidLiveOutput caseId reason latencyMs).Storable where
  status := show storableText (py "error") = true by decide
  category := show storableText (py "invalid_structured_output") = true by decide
  confidence := rfl
  riskReason := h
  costUsd := by
    intro x hx
    cases hx

theorem storableText_missing (r : RequiredFields) :
    storableText (r.missing.intersperse (py ", ")).flatten = true := by
  refine storableText_intersperse (by decide) fun part hpart => ?_
  have hname {c : Prop} [Decidable c] {name : PyStr} (hname : storableText name = true)
      (h : part ∈ if c then [name] else []) : storableText part = true := by
    split at h
    · rwa [List.mem_singleton.mp h]
    · exact absurd h List.not_mem_nil
  simp only [RequiredFields.missing, List.mem_append] at hpart
  rcases hpart with ((hpart | hpart) | hpart) | hpart
  · exact hname (by decide) hpart
  · exact hname (by decide) hpart
  · exact hname (by decide) hpart
  · exact hname (by decide) hpart

/-- Of a response that is an error. -/
theorem responseKept_error {body : Dict} (hbody : response.output = .obj body)
    (hcode : 400 ≤ response.statusCode) : ResponseKept env response ↔
      storableText (extractErrorReason body) = true ∧ CostKept env body := by
  constructor
  · exact fun h => h.error body hbody hcode
  · intro h
    refine ⟨fun body' hbody' _ => ?_, fun _ _ _ hlt => absurd hlt hcode.not_gt,
      fun _ _ _ _ hlt => absurd hlt hcode.not_gt⟩
    obtain rfl : body = body' := Json.obj.inj (hbody.symm.trans hbody')
    exact h

/-- Of a response that is none. -/
theorem responseKept_verdict {body : Dict} (hbody : response.output = .obj body)
    (hcode : response.statusCode < 400) : ResponseKept env response ↔
      ((extractRequiredFields body).missing = [] →
        ∀ n, (extractRequiredFields body).confidence = some (.int n) → env.floatOfInt n ≠ none) ∧
      ∀ category x, HasVerdict env body category x → storableFloat x = true ∧
        storableText category = true ∧ storableText (extractRiskReason body) = true ∧
          CostKept env body := by
  constructor
  · intro h
    exact ⟨fun hmissing n => h.confidence body n hbody hcode hmissing,
      fun category x => h.verdict body category x hbody hcode⟩
  · rintro ⟨hconfidence, hverdict⟩
    refine ⟨fun _ _ hle => absurd hcode hle.not_gt, fun body' n hbody' _ hmissing => ?_,
      fun body' category x hbody' _ => ?_⟩
    · obtain rfl : body = body' := Json.obj.inj (hbody.symm.trans hbody')
      exact hconfidence hmissing n
    · obtain rfl : body = body' := Json.obj.inj (hbody.symm.trans hbody')
      exact hverdict category x

theorem HasVerdict.missing_eq_nil {body : Dict} {category : PyStr} {x : PyFloat}
    (h : HasVerdict env body category x) : (extractRequiredFields body).missing = [] := by
  obtain ⟨status, confidence, requiresHuman, hfields, -, -⟩ := h.fields
  rw [hfields]
  rfl

/-- Of one without a body to read. -/
theorem responseKept_of_no_object (h : ∀ body, response.output ≠ .obj body) :
    ResponseKept env response where
  error body hbody := absurd hbody (h body)
  confidence body _ hbody := absurd hbody (h body)
  verdict body _ _ hbody := absurd hbody (h body)

/-- Of one that says no more than a detail. -/
theorem responseKept_detail {status : ℤ} {body : Dict} {detail : PyStr}
    (hdetail : Dict.get? body (py "detail") = some (.str detail)) (hne : detail ≠ [])
    (hcost : Dict.get? body (py "cost_usd") = none) (husage : Dict.get? body (py "usage") = none)
    (hmissing : (extractRequiredFields body).missing ≠ []) :
    ResponseKept env ⟨status, .obj body⟩ ↔ (400 ≤ status → storableText detail = true) := by
  have hreason : extractErrorReason body = detail := by
    simp only [extractErrorReason, hdetail, optionalString, orText, hne, if_false]
  have hkept : CostKept env body := by
    refine ⟨?_, fun _ usage h => ?_⟩
    · rw [hcost]
      trivial
    · rw [husage] at h
      cases h
  by_cases hcode : 400 ≤ status
  · rw [responseKept_error rfl hcode, hreason]
    exact ⟨fun h _ => h.1, fun h => ⟨h hcode, hkept⟩⟩
  · rw [responseKept_verdict rfl (not_le.mp hcode)]
    refine iff_of_true ⟨fun h => absurd h hmissing, fun category x h => ?_⟩ (absurd · hcode)
    exact absurd h.missing_eq_nil hmissing

theorem ensures_verdictFields {body : Dict} {fields : Option PyFloat → LiveFields}
    (hstatus : storableText (fields none).status = true)
    (hfields : ∀ cost, fields cost = { fields none with costUsd := cost }) :
    ((extractCost env body).Ensures JobException.Handled fun cost => (fields cost).Storable) ↔
      storableFloat (fields none).confidence = true ∧ storableText (fields none).category = true ∧
        storableText (fields none).riskReason = true ∧ CostKept env body := by
  rw [← ensures_extractCost, ← Except.ensures_and_left fun e => extractCost_error,
    ← Except.ensures_and_left fun e => extractCost_error,
    ← Except.ensures_and_left fun e => extractCost_error]
  refine Except.ensures_congr fun cost _ => ?_
  rw [hfields cost]
  constructor
  · exact fun h => ⟨h.confidence, h.category, h.riskReason, h.costUsd⟩
  · exact fun h => ⟨hstatus, h.2.1, h.1, h.2.2.1, h.2.2.2⟩

theorem storableText_gdevStatus {status : PyStr} (h : status ∈ gdevStatuses) :
    storableText status = true := by
  revert status
  decide

theorem ensures_normalizeLiveResponse :
    (normalizeLiveResponse env caseId response latencyMs).Ensures JobException.Handled
        LiveFields.Storable ↔ ResponseKept env response := by
  unfold normalizeLiveResponse
  cases hbody : response.output with
  | obj body =>
    dsimp only
    split
    next hcode => rw [responseKept_error hbody hcode, ensures_adapterErrorFields]
    next hcode =>
      rw [responseKept_verdict hbody (not_le.mp hcode)]
      split
      next hmissing =>
        refine iff_of_true ?_ ⟨fun hnil => absurd hnil hmissing, fun category x h => ?_⟩
        · exact storable_invalidLiveOutput
            (storableText_append.mpr ⟨by decide, storableText_missing _⟩)
        · exact absurd h.missing_eq_nil hmissing
      next hmissing =>
        have hmissing : (extractRequiredFields body).missing = [] := not_not.mp hmissing
        simp only [Except.ensures_bind, hmissing, true_imp_iff]
        rw [ensures_optionalFloat_iff]
        refine and_congr_right fun _ => ?_
        constructor
        · rintro h category x ⟨⟨status, confidence, requiresHuman, hfields, hstatus, hread⟩, hne⟩
          have h := h (some x) (optionalFloat_eq_some_iff.mpr ⟨confidence, by rw [hfields], hread⟩)
          simp only [hfields] at h
          have hvalid : ¬(status ∉ gdevStatuses ∨ category = []) := by
            simp [hstatus, hne]
          rw [show [py "executed", py "pending", py "blocked", py "error"] = gdevStatuses from rfl,
            if_neg hvalid] at h
          simp only [Except.ensures_bind, Except.ensures_pure] at h
          rw [ensures_verdictFields (storableText_gdevStatus hstatus) fun _ => rfl] at h
          exact h
        · intro h r hr
          split
          next _ _ _ _ status category x requiresHuman hstatus hcategory hhuman =>
            split
            · exact storable_invalidLiveOutput (by decide)
            next hvalid =>
              simp only [Except.ensures_bind, Except.ensures_pure]
              simp only [not_or, not_not] at hvalid
              rw [ensures_verdictFields (storableText_gdevStatus hvalid.1) fun _ => rfl]
              obtain ⟨c, hc, hread⟩ := optionalFloat_eq_some_iff.mp hr
              refine h category x ⟨⟨status, c, requiresHuman, ?_, hvalid.1, hread⟩, hvalid.2⟩
              rw [← hstatus, ← hcategory, ← hc, ← hhuman]
          · exact storable_invalidLiveOutput (by decide)
  | _ =>
    refine iff_of_true (storable_invalidLiveOutput (by decide)) (responseKept_of_no_object ?_)
    simp [hbody]

end Response
end AgentRuntimeGrid.GdevAgent
