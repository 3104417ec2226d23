import AgentRuntimeGrid.Domain.Jobs

/-! The budget policy of the dispatch and retry gates. -/
namespace AgentRuntimeGrid

/-- `BudgetPolicyError` and its subclasses, with the fields the worker records. -/
structure BudgetPolicyError where
  errorClass : String
  reason : String
  attemptedCostUsd : ℚ
  budgetLimitUsd : ℚ
  deriving DecidableEq

inductive BudgetMode where
  | stub
  | live
  | other (name : String)
  deriving DecidableEq, Repr

structure BudgetPolicy where
  mode : BudgetMode
  runBudgetCents : Option ℤ
  perJobBudgetCents : Option ℤ
  retryBudget : ℤ

namespace BudgetPolicy

/-- `BudgetPolicy.stub(retry_budget=...)`. -/
def stub (retryBudget : ℤ) : BudgetPolicy := ⟨.stub, some 0, some 0, retryBudget⟩

/-- `BudgetPolicy.live(...)`. -/
def live (runBudgetCents perJobBudgetCents : Option ℤ) (retryBudget : ℤ) : BudgetPolicy :=
  ⟨.live, runBudgetCents, perJobBudgetCents, retryBudget⟩

def centsToUsd (cents : ℤ) : ℚ := (cents : ℚ) / 100

/-- `job_type.startswith("live.")`. -/
def isLiveJobType (jobType : String) : Bool := "live.".toList.isPrefixOf jobType.toList

def validateDispatch (p : BudgetPolicy) (jobType : String) (budgetCents : Option ℤ) :
    Except BudgetPolicyError Unit :=
  match p.mode with
  | .stub =>
      if isLiveJobType jobType then
        .error ⟨"ProviderCallBlockedError", "stub_live_job_blocked", 0, 0⟩
      else .ok ()
  | .other name => .error ⟨"BudgetPolicyError", "unsupported_budget_mode:" ++ name, 0, 0⟩
  | .live =>
      match p.runBudgetCents, p.perJobBudgetCents with
      | some runBudget, some perJob =>
          match budgetCents with
          | none => .error ⟨"LiveBudgetRequiredError", "missing_job_budget", 0, 0⟩
          | some cents =>
              if perJob < cents then
                .error ⟨"BudgetExceededError", "per_job_budget_overrun", centsToUsd cents,
                  centsToUsd perJob⟩
              else if runBudget < cents then
                .error ⟨"BudgetExceededError", "run_budget_overrun", centsToUsd cents,
                  centsToUsd runBudget⟩
              else .ok ()
      | _, _ => .error ⟨"LiveBudgetRequiredError", "missing_live_run_or_job_budget", 0, 0⟩

def validateJobDispatch (p : BudgetPolicy) (job : JobRecord) : Except BudgetPolicyError Unit :=
  p.validateDispatch job.jobType job.budgetCents

def validateRetry (p : BudgetPolicy) (nextAttemptNumber : ℤ) : Except BudgetPolicyError Unit :=
  if p.retryBudget < nextAttemptNumber - 1 then
    .error ⟨"BudgetExceededError", "retry_budget_overrun", 0, 0⟩
  else .ok ()

theorem validateRetry_ok_iff {p : BudgetPolicy} {n : ℤ} :
    p.validateRetry n = .ok () ↔ n - 1 ≤ p.retryBudget := by
  unfold validateRetry
  split
  · constructor
    · intro h
      cases h
    · intro h
      omega
  · constructor
    · intro _
      omega
    · intro _
      rfl

/-- A live gate with both limits set lets a job through exactly when the job names a budget that
stays within each limit on its own. -/
theorem live_validateDispatch_ok_iff {runBudget perJob retry : ℤ} {jobType : String}
    {cents : Option ℤ} :
    (live (some runBudget) (some perJob) retry).validateDispatch jobType cents = .ok () ↔
      ∃ c, cents = some c ∧ c ≤ perJob ∧ c ≤ runBudget := by
  cases cents with
  | none => simp [live, validateDispatch]
  | some c =>
    simp only [live, validateDispatch, Option.some.injEq, exists_eq_left']
    split
    · simp only [reduceCtorEq, false_iff, not_and]
      omega
    split
    · simp only [reduceCtorEq, false_iff, not_and]
      omega
    · simp only [true_iff]
      omega

end BudgetPolicy
end AgentRuntimeGrid
