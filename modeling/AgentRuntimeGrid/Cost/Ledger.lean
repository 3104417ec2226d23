import AgentRuntimeGrid.Lib.PyDecimal
import Mathlib.Data.List.Lex
import Mathlib.Data.List.Sort

/-! The cost ledger, which gates the live jobs of a run, and the strict check of the rollup. -/
namespace AgentRuntimeGrid

open PyText

structure CostTelemetryRecord where
  project : PyStr
  runId : PyStr
  jobId : PyStr
  jobType : PyStr
  workerId : PyStr
  model : PyStr
  provider : PyStr
  inputTokens : ℤ
  outputTokens : ℤ
  estimatedCostUsd : PyDecimal
  retryCount : ℤ
  environment : PyStr
  deriving DecidableEq

structure BudgetBlockedEvent where
  runId : PyStr
  jobId : PyStr
  reason : PyStr
  attemptedCostUsd : PyDecimal
  budgetLimitUsd : PyDecimal
  deriving DecidableEq

/-- `sum(record.estimated_cost_usd for record in records)`, from a decimal zero. -/
def totalCost (records : List CostTelemetryRecord) : Except String PyDecimal :=
  PyDecimal.sum (records.map CostTelemetryRecord.estimatedCostUsd)

structure CostTelemetryLedger where
  runBudgetUsd : PyDecimal
  maxModelCalls : ℤ
  records : List CostTelemetryRecord
  budgetBlockedEvents : List BudgetBlockedEvent
  deriving DecidableEq

namespace CostTelemetryLedger

/-- `CostTelemetryLedger(run_budget_usd=..., max_model_calls=...)`. -/
def new (runBudgetUsd : PyDecimal) (maxModelCalls : ℤ) : CostTelemetryLedger :=
  ⟨runBudgetUsd, maxModelCalls, [], []⟩

def totalCostUsd (l : CostTelemetryLedger) : Except String PyDecimal := totalCost l.records

def projectedCalls (l : CostTelemetryLedger) : ℤ := (l.records.length : ℤ) + 1

def recordBudgetBlock (l : CostTelemetryLedger) (record : CostTelemetryRecord) (reason : PyStr)
    (attemptedCostUsd : PyDecimal) : CostTelemetryLedger :=
  { l with budgetBlockedEvents := l.budgetBlockedEvents ++
      [⟨record.runId, record.jobId, reason, attemptedCostUsd, l.runBudgetUsd⟩] }

/-- Whether the record was taken, and the ledger after the call. What the arithmetic raises leaves
the ledger as it was. -/
def recordLiveJob (l : CostTelemetryLedger) (record : CostTelemetryRecord) :
    Except String (Bool × CostTelemetryLedger) := do
  let projectedCost ← (← l.totalCostUsd).add record.estimatedCostUsd
  if ← projectedCost.gt l.runBudgetUsd then
    return (false, l.recordBudgetBlock record (py "budget_overrun") projectedCost)
  if l.maxModelCalls < l.projectedCalls then
    return (false, l.recordBudgetBlock record (py "model_call_limit") projectedCost)
  return (true, { l with records := l.records ++ [record] })

def afterCalls (l : CostTelemetryLedger) (calls : List CostTelemetryRecord) :
    Except String CostTelemetryLedger :=
  calls.foldlM (fun l record => (l.recordLiveJob record).map Prod.snd) l

end CostTelemetryLedger

namespace CostRollup

/-- `run_totals[run_id] += cost`, with a decimal zero for an absent run. -/
def addTo (runId : PyStr) (cost : PyDecimal) :
    List (PyStr × PyDecimal) → Except String (List (PyStr × PyDecimal))
  | [] => do return [(runId, ← PyDecimal.zero.add cost)]
  | (k, total) :: totals =>
    if k = runId then do return (k, ← total.add cost) :: totals
    else do return (k, total) :: (← addTo runId cost totals)

def runTotals (records : List CostTelemetryRecord) : Except String (List (PyStr × PyDecimal)) :=
  records.foldlM (fun totals record => addTo record.runId record.estimatedCostUsd totals) []

/-- `sorted(run_totals.items())`; no two of them are of one run. -/
def sortedTotals (totals : List (PyStr × PyDecimal)) : List (PyStr × PyDecimal) :=
  totals.insertionSort fun a b => a.1 ≤ b.1

def totalError (total limit : PyDecimal) : PyStr :=
  py "total cost $" ++ total.text ++ py " exceeds limit $" ++ limit.text

def runError (runId : PyStr) (total limit : PyDecimal) : PyStr :=
  py "run " ++ runId ++ py " cost $" ++ total.text ++ py " exceeds limit $" ++ limit.text

def runErrors (limit : PyDecimal) (totals : List (PyStr × PyDecimal)) :
    Except String (List PyStr) :=
  totals.foldlM (fun errors (runId, total) => do
    if ← total.gt limit then return errors ++ [runError runId total limit] else return errors) []

def validateCostRollup (records : List CostTelemetryRecord)
    (maxTotalCost maxRunCost : Option PyDecimal) : Except String (List PyStr) := do
  let totalCost ← totalCost records
  let errors ← match maxTotalCost with
    | none => pure []
    | some limit => do
      if ← totalCost.gt limit then pure [totalError totalCost limit] else pure []
  match maxRunCost with
  | none => return errors
  | some limit => return errors ++ (← runErrors limit (sortedTotals (← runTotals records)))

end CostRollup

theorem totalCost_append (records : List CostTelemetryRecord) (r : CostTelemetryRecord) :
    totalCost (records ++ [r]) = totalCost records >>= fun t => t.add r.estimatedCostUsd := by
  rw [totalCost, PyDecimal.sum, List.map_append, List.foldlM_append, List.map_singleton]
  refine congrArg _ (funext fun t => ?_)
  rw [List.foldlM_cons]
  exact bind_pure _

namespace CostTelemetryLedger
variable {l l' : CostTelemetryLedger} {r : CostTelemetryRecord} {total projected : PyDecimal}
  {negative accepted : Bool}

/-- What a call does that does not raise: it takes the record exactly when both projections fit, and
leaves one event with the cost it would have led to when it does not. -/
structure Recorded (l : CostTelemetryLedger) (r : CostTelemetryRecord)
    (projected : PyDecimal) (accepted : Bool) (l' : CostTelemetryLedger) : Prop where
  accepted_iff : accepted = true ↔
    projected.value ≤ l.runBudgetUsd.value ∧ l.projectedCalls ≤ l.maxModelCalls
  taken : accepted = true → l' = { l with records := l.records ++ [r] }
  blocked : accepted = false → ∃ reason, l' = l.recordBudgetBlock r reason projected

theorem recordLiveJob_recorded (htotal : l.totalCostUsd = .ok total)
    (hadd : total.add r.estimatedCostUsd = .ok projected) (hnumber : projected.isNan = false)
    (hbudget : l.runBudgetUsd.isNan = false) :
    ∃ accepted l', l.recordLiveJob r = .ok (accepted, l') ∧ l.Recorded r projected accepted l' := by
  have heq : l.recordLiveJob r = .ok (
      if l.runBudgetUsd.value < projected.value then
        (false, l.recordBudgetBlock r (py "budget_overrun") projected)
      else if l.maxModelCalls < l.projectedCalls then
        (false, l.recordBudgetBlock r (py "model_call_limit") projected)
      else (true, { l with records := l.records ++ [r] })) := by
    unfold recordLiveJob
    simp only [htotal, hadd, PyDecimal.gt_eq_ok hnumber hbudget, bind, Except.bind, pure,
      Except.pure, decide_eq_true_eq]
    split_ifs <;> rfl
  rw [heq]
  split_ifs with hcost hcalls
  · exact ⟨_, _, rfl, iff_of_false nofun fun h => absurd h.1 (not_le.mpr hcost), nofun,
      fun _ => ⟨_, rfl⟩⟩
  · exact ⟨_, _, rfl, iff_of_false nofun fun h => absurd h.2 (not_le.mpr hcalls), nofun,
      fun _ => ⟨_, rfl⟩⟩
  · exact ⟨_, _, rfl, iff_of_true rfl ⟨not_lt.mp hcost, not_lt.mp hcalls⟩, fun _ => rfl, nofun⟩

theorem Recorded.length (h : l.Recorded r projected accepted l') :
    l'.records.length + l'.budgetBlockedEvents.length =
      l.records.length + l.budgetBlockedEvents.length + 1 := by
  cases accepted with
  | true =>
    simp only [h.taken rfl, List.length_append, List.length_singleton]
    omega
  | false =>
    obtain ⟨reason, rfl⟩ := h.blocked rfl
    simp only [recordBudgetBlock, List.length_append, List.length_singleton]
    omega

theorem Recorded.limits (h : l.Recorded r projected accepted l') :
    l'.runBudgetUsd = l.runBudgetUsd ∧ l'.maxModelCalls = l.maxModelCalls := by
  cases accepted with
  | true => exact h.taken rfl ▸ ⟨rfl, rfl⟩
  | false =>
    obtain ⟨reason, rfl⟩ := h.blocked rfl
    exact ⟨rfl, rfl⟩

theorem Recorded.records_subset (h : l.Recorded r projected accepted l') :
    ∀ x ∈ l'.records, x ∈ l.records ∨ x = r := by
  intro x hx
  cases accepted with
  | true =>
    rw [h.taken rfl] at hx
    simpa using hx
  | false =>
    obtain ⟨reason, rfl⟩ := h.blocked rfl
    exact .inl hx

/-- What every call keeps, as long as the costs are numbers other than one of the infinities. -/
structure Within (negative : Bool) (l : CostTelemetryLedger) : Prop where
  budget : l.runBudgetUsd.isNan = false
  cost : ∃ total, l.totalCostUsd = .ok total ∧ total.Addend negative ∧
    total.value ≤ l.runBudgetUsd.value
  modelCalls : (l.records.length : ℤ) ≤ l.maxModelCalls

theorem within_new {b : PyDecimal} {m : ℤ} (hnumber : b.isNan = false) (hb : 0 ≤ b.value)
    (hm : 0 ≤ m) : (new b m).Within negative where
  budget := hnumber
  cost := ⟨.zero, rfl, PyDecimal.addend_zero negative, PyDecimal.value_zero ▸ hb⟩
  modelCalls := hm

/-- A call does not raise, and keeps the ledger within its limits. -/
theorem Within.exists_recorded (h : l.Within negative) (htotal : l.totalCostUsd = .ok total)
    (hr : r.estimatedCostUsd.Addend negative) :
    ∃ projected accepted l', total.add r.estimatedCostUsd = .ok projected ∧
      projected.value = total.value + r.estimatedCostUsd.value ∧
      l.recordLiveJob r = .ok (accepted, l') ∧ l.Recorded r projected accepted l' ∧
      l'.Within negative := by
  obtain ⟨total', htotal', haddend, hcost⟩ := h.cost
  obtain rfl := Except.ok.inj (htotal.symm.trans htotal')
  obtain ⟨projected, hadd, hprojected, hvalue⟩ := haddend.add hr
  obtain ⟨accepted, l', hcall, hrecorded⟩ :=
    recordLiveJob_recorded htotal hadd hprojected.number h.budget
  refine ⟨projected, accepted, l', hadd, hvalue, hcall, hrecorded, ?_⟩
  cases accepted with
  | true =>
    obtain ⟨hfits, hcalls⟩ := hrecorded.accepted_iff.mp rfl
    rw [hrecorded.taken rfl]
    refine ⟨h.budget, ⟨projected, ?_, hprojected, hfits⟩, ?_⟩
    · rw [totalCostUsd, totalCost_append, show totalCost l.records = _ from htotal]
      exact hadd
    · simpa [projectedCalls] using hcalls
  | false =>
    obtain ⟨reason, rfl⟩ := hrecorded.blocked rfl
    exact ⟨h.budget, ⟨total, htotal, haddend, hcost⟩, h.modelCalls⟩

/-- What any number of calls leaves. -/
structure After (negative : Bool) (l : CostTelemetryLedger) (calls : List CostTelemetryRecord)
    (l' : CostTelemetryLedger) : Prop where
  within : l'.Within negative
  limits : l'.runBudgetUsd = l.runBudgetUsd ∧ l'.maxModelCalls = l.maxModelCalls
  length : l'.records.length + l'.budgetBlockedEvents.length =
    l.records.length + l.budgetBlockedEvents.length + calls.length
  records_subset : ∀ x ∈ l'.records, x ∈ l.records ∨ x ∈ calls

theorem Within.exists_after (h : l.Within negative) {calls : List CostTelemetryRecord}
    (hcalls : ∀ r ∈ calls, r.estimatedCostUsd.Addend negative) :
    ∃ l', l.afterCalls calls = .ok l' ∧ After negative l calls l' := by
  induction calls generalizing l with
  | nil => exact ⟨l, rfl, h, ⟨rfl, rfl⟩, rfl, fun x hx => .inl hx⟩
  | cons r calls ih =>
    rw [List.forall_mem_cons] at hcalls
    obtain ⟨total, htotal, -⟩ := h.cost
    obtain ⟨projected, accepted, l₁, -, -, hcall, hrecorded, hwithin⟩ :=
      h.exists_recorded htotal hcalls.1
    obtain ⟨l', hrest, hafter⟩ := ih hwithin hcalls.2
    refine ⟨l', ?_, hafter.within, ?_, ?_, fun x hx => ?_⟩
    · rw [CostTelemetryLedger.afterCalls, List.foldlM_cons, hcall]
      exact hrest
    · exact ⟨hafter.limits.1.trans hrecorded.limits.1, hafter.limits.2.trans hrecorded.limits.2⟩
    · rw [hafter.length, hrecorded.length, List.length_cons]
      omega
    · rcases hafter.records_subset x hx with hx | hx
      · rcases hrecorded.records_subset x hx with hx | rfl
        · exact .inl hx
        · exact .inr List.mem_cons_self
      · exact .inr (List.mem_cons_of_mem _ hx)

end CostTelemetryLedger

namespace CostRollup

/-- The records of one run are summed as all the records are. -/
theorem foldlM_addTo {runId : PyStr} {records : List CostTelemetryRecord} (total : PyDecimal)
    (h : ∀ r ∈ records, r.runId = runId) :
    records.foldlM (fun totals r => addTo r.runId r.estimatedCostUsd totals) [(runId, total)] =
      (records.map CostTelemetryRecord.estimatedCostUsd).foldlM PyDecimal.add total >>=
        fun t => pure [(runId, t)] := by
  induction records generalizing total with
  | nil => rfl
  | cons r records ih =>
    have hr : addTo r.runId r.estimatedCostUsd [(runId, total)] =
        total.add r.estimatedCostUsd >>= fun t => pure [(runId, t)] := by
      rw [addTo, if_pos (h r List.mem_cons_self).symm]
    rw [List.foldlM_cons, List.map_cons, List.foldlM_cons, hr]
    cases total.add r.estimatedCostUsd with
    | error c => rfl
    | ok t => exact ih t fun x hx => h x (List.mem_cons_of_mem _ hx)

theorem runTotals_eq {runId : PyStr} {records : List CostTelemetryRecord} {total : PyDecimal}
    (h : ∀ r ∈ records, r.runId = runId) (htotal : totalCost records = .ok total) :
    runTotals records = .ok (if records = [] then [] else [(runId, total)]) := by
  cases records with
  | nil => rfl
  | cons r records =>
    have hfirst : addTo r.runId r.estimatedCostUsd [] =
        PyDecimal.zero.add r.estimatedCostUsd >>= fun t => pure [(runId, t)] := by
      rw [addTo, h r List.mem_cons_self]
    rw [totalCost, PyDecimal.sum, List.map_cons, List.foldlM_cons] at htotal
    rw [runTotals, List.foldlM_cons, hfirst, if_neg (List.cons_ne_nil r records)]
    cases hzero : PyDecimal.zero.add r.estimatedCostUsd with
    | error c =>
      rw [hzero] at htotal
      cases htotal
    | ok t =>
      rw [hzero] at htotal
      refine (foldlM_addTo t fun x hx => h x (List.mem_cons_of_mem _ hx)).trans ?_
      rw [show (records.map _).foldlM PyDecimal.add t = .ok total from htotal]
      rfl

/-- Records of one run whose total is within the limit pass the strict check with that limit for
the total and for every run. -/
theorem validateCostRollup_eq_nil {runId : PyStr} {records : List CostTelemetryRecord}
    {total limit : PyDecimal} (h : ∀ r ∈ records, r.runId = runId)
    (htotal : totalCost records = .ok total) (hnumber : total.isNan = false)
    (hlimit : limit.isNan = false) (hle : total.value ≤ limit.value) :
    validateCostRollup records (some limit) (some limit) = .ok [] := by
  have hfits : total.gt limit = .ok false := by
    rw [PyDecimal.gt_eq_ok hnumber hlimit, decide_eq_false (not_lt.mpr hle)]
  unfold validateCostRollup
  rw [htotal, runTotals_eq h htotal]
  by_cases hnil : records = []
  · simp [hnil, hfits, sortedTotals, runErrors, bind, Except.bind, pure, Except.pure]
  · simp [hnil, hfits, sortedTotals, runErrors, bind, Except.bind, pure, Except.pure]

end CostRollup

/-- After any calls with records of one run whose costs are numbers other than one of the
infinities, the ledger has not overspent, every call has left a record or an event, and the records
pass the strict check of the rollup. The next call is taken exactly when both projections fit. -/
theorem cost_ledger_within_budget {b : PyDecimal} {m : ℤ} {negative : Bool} (runId : PyStr)
    (calls : List CostTelemetryRecord) (hnumber : b.isNan = false) (hb : 0 ≤ b.value) (hm : 0 ≤ m)
    (hrun : ∀ r ∈ calls, r.runId = runId)
    (hcosts : ∀ r ∈ calls, r.estimatedCostUsd.Addend negative) :
    ∃ l total, (CostTelemetryLedger.new b m).afterCalls calls = .ok l ∧
      l.totalCostUsd = .ok total ∧ total.value ≤ b.value ∧ (l.records.length : ℤ) ≤ m ∧
      l.records.length + l.budgetBlockedEvents.length = calls.length ∧
      CostRollup.validateCostRollup l.records (some b) (some b) = .ok [] ∧
      ∀ record : CostTelemetryRecord, record.estimatedCostUsd.Addend negative →
        ∃ projected accepted l', l.recordLiveJob record = .ok (accepted, l') ∧
          total.add record.estimatedCostUsd = .ok projected ∧
          projected.value = total.value + record.estimatedCostUsd.value ∧
          (accepted = true ↔ projected.value ≤ b.value ∧ (l.records.length : ℤ) + 1 ≤ m) ∧
          (accepted = true → l' = { l with records := l.records ++ [record] }) ∧
          (accepted = false → ∃ reason, l' = { l with
            budgetBlockedEvents := l.budgetBlockedEvents ++
              [⟨record.runId, record.jobId, reason, projected, b⟩] }) := by
  obtain ⟨l, hcalls, hafter⟩ :=
    (CostTelemetryLedger.within_new hnumber hb hm).exists_after hcosts
  obtain ⟨hbudget, hlimit⟩ : l.runBudgetUsd = b ∧ l.maxModelCalls = m := hafter.limits
  obtain ⟨total, htotal, haddend, hcost⟩ := hafter.within.cost
  rw [hbudget] at hcost
  have hrecords : ∀ r ∈ l.records, r.runId = runId := fun r hr =>
    (hafter.records_subset r hr).elim (fun h => (List.not_mem_nil h).elim) (hrun r)
  have hlength : l.records.length + l.budgetBlockedEvents.length = calls.length := by
    rw [hafter.length]
    exact Nat.zero_add _
  refine ⟨l, total, hcalls, htotal, hcost, hlimit ▸ hafter.within.modelCalls, hlength,
    CostRollup.validateCostRollup_eq_nil hrecords htotal haddend.number hnumber hcost,
    fun record hrecord => ?_⟩
  obtain ⟨projected, accepted, l', hadd, hvalue, hcall, hrecorded, -⟩ :=
    hafter.within.exists_recorded htotal hrecord
  refine ⟨projected, accepted, l', hcall, hadd, hvalue, ?_, hrecorded.taken, fun hrejected => ?_⟩
  · rw [hrecorded.accepted_iff, hbudget, hlimit]
    rfl
  · obtain ⟨reason, rfl⟩ := hrecorded.blocked hrejected
    exact ⟨reason, by rw [CostTelemetryLedger.recordBudgetBlock, hbudget]⟩

def CostTelemetryRecord.sample (cost : PyDecimal) : CostTelemetryRecord :=
  ⟨py "p", py "r", py "j", py "t", py "w", py "m", py "v", 1, 1, cost, 0, py "e"⟩

def tenCents : PyDecimal := .finite ⟨false, 10, -2⟩

/-- Two jobs of 6 cents, one of an infinite cost and one of 4 cents under a budget of 10 cents. -/
theorem cost_ledger_within_budget_four :
    let calls := [CostTelemetryRecord.sample (.finite ⟨false, 6, -2⟩),
      CostTelemetryRecord.sample (.finite ⟨false, 6, -2⟩),
      CostTelemetryRecord.sample (.infinity false),
      CostTelemetryRecord.sample (.finite ⟨false, 4, -2⟩)]
    ∃ l, (CostTelemetryLedger.new tenCents 5).afterCalls calls = .ok l ∧ l.records.length = 2 ∧
      CostRollup.validateCostRollup l.records (some tenCents) (some tenCents) = .ok [] := by
  intro calls
  have hb : 0 ≤ tenCents.value :=
    WithBot.coe_le_coe.mpr (WithTop.coe_le_coe.mpr (FiniteDecimal.toRat_nonneg rfl))
  have hcosts : ∀ r ∈ calls, r.estimatedCostUsd.Addend true := by
    simp only [calls, List.forall_mem_cons, List.not_mem_nil, false_imp_iff, implies_true,
      and_true]
    exact ⟨⟨rfl, by decide⟩, ⟨rfl, by decide⟩, ⟨rfl, by decide⟩, rfl, by decide⟩
  obtain ⟨l, total, hcalls, -, -, -, -, hrollup, -⟩ :=
    cost_ledger_within_budget (m := 5) (py "r") calls rfl hb (by decide) (by decide) hcosts
  have htwo : ((CostTelemetryLedger.new tenCents 5).afterCalls calls).map
      (fun l => l.records.length) = .ok 2 := by decide
  rw [hcalls] at htwo
  exact ⟨l, hcalls, Except.ok.inj htwo, hrollup⟩

/-- A cost that is no number raises, and so do opposite infinities, with neither a record nor an
event for the call. -/
theorem cost_ledger_raises :
    (CostTelemetryLedger.new tenCents 5).recordLiveJob (.sample (.nan false false 0)) =
      .error "InvalidOperation" ∧
    (CostTelemetryLedger.new tenCents 5).afterCalls
      [.sample (.infinity true), .sample (.infinity false)] = .error "InvalidOperation" ∧
    ¬ ∀ calls : List CostTelemetryRecord, (∀ r ∈ calls, r.runId = py "r") →
      ∃ l, (CostTelemetryLedger.new tenCents 5).afterCalls calls = .ok l ∧
        l.records.length + l.budgetBlockedEvents.length = calls.length := by
  have hnan : (CostTelemetryLedger.new tenCents 5).recordLiveJob (.sample (.nan false false 0)) =
      .error "InvalidOperation" := by decide
  refine ⟨hnan, by decide, fun claim => ?_⟩
  obtain ⟨l, hcalls, -⟩ := claim [.sample (.nan false false 0)] (by decide)
  rw [CostTelemetryLedger.afterCalls, List.foldlM_cons, hnan] at hcalls
  cases hcalls

end AgentRuntimeGrid
