import AgentRuntimeGrid.Runtime.Provenance
import Mathlib.Algebra.Order.BigOperators.Group.List

/-! What the live budget gate guarantees of a run: a bound for each dispatched job on its own,
and so for their sum a bound that grows with their number. -/
namespace AgentRuntimeGrid

/-- The job got through the dispatch gate: it has a running event. -/
def Database.Dispatched (db : Database) (j : JobId) : Prop :=
  ∃ e ∈ db.eventsOf j, e.eventType = .running

instance (db : Database) (j : JobId) : Decidable (db.Dispatched j) :=
  inferInstanceAs (Decidable (∃ e ∈ db.eventsOf j, e.eventType = .running))

def Database.dispatchedBudgets (db : Database) (runId : RunId) : List ℤ :=
  (db.jobs.rows.filter fun job => job.runId = runId && decide (db.Dispatched job.id)).map
    fun job => job.budgetCents.getD 0

def WithinLimits (runBudget perJob : ℤ) (job : JobRecord) : Prop :=
  ∃ c, job.budgetCents = some c ∧ c ≤ min perJob runBudget

theorem withinLimits_iff {runBudget perJob retry : ℤ} {job : JobRecord} :
    (BudgetPolicy.live (some runBudget) (some perJob) retry).validateJobDispatch job = .ok () ↔
      WithinLimits runBudget perJob job := by
  unfold BudgetPolicy.validateJobDispatch
  rw [BudgetPolicy.live_validateDispatch_ok_iff]
  simp only [WithinLimits, le_min_iff]

theorem JobRecord.SameJob.withinLimits {runBudget perJob : ℤ} {job job' : JobRecord}
    (h : job.SameJob job') : WithinLimits runBudget perJob job' ↔
      WithinLimits runBudget perJob job := by
  have hbudget : job'.budgetCents = job.budgetCents := by
    rw [h]
    rfl
  unfold WithinLimits
  rw [hbudget]

namespace Deployment
variable {cfg : Deployment} {s t : State}

/-- Every worker shares one live policy with both limits set. -/
def SharesLivePolicy (cfg : Deployment) (runBudget perJob retry : ℤ) : Prop :=
  ∀ i, (cfg.worker i).budgetPolicy = .live (some runBudget) (some perJob) retry

variable {runBudget perJob retry : ℤ}

private theorem dispatched_step {a : ℕ × Action}
    (hpolicy : cfg.SharesLivePolicy runBudget perJob retry) (h : cfg.lts.step s a = some t)
    (hlaw : ∀ j, (s.shared.db.history j).Lawful)
    (hs : ∀ j row, s.shared.db.loadJob j = some row → s.shared.db.Dispatched j →
      WithinLimits runBudget perJob row) :
    ∀ j row, t.shared.db.loadJob j = some row → t.shared.db.Dispatched j →
      WithinLimits runBudget perJob row := by
  obtain ⟨g', l', ht, rfl⟩ := step_transition h
  intro j row' hrow' ⟨e, he, hrunning⟩
  have hgrows := ht.grows
  -- a job that is dispatched already keeps the row that was let through, up to its status
  have old : s.shared.db.Dispatched j → WithinLimits runBudget perJob row' := by
    intro hdispatched
    cases hrow : s.shared.db.loadJob j with
    | none =>
      have hempty := (hlaw j).absent hrow
      obtain ⟨e, he, -⟩ := hdispatched
      rw [show s.shared.db.eventsOf j = [] from congrArg JobHistory.events hempty] at he
      cases he
    | some row =>
      obtain ⟨row'', hrow'', hsame⟩ := hgrows.loadJob hrow
      obtain rfl := Option.some.inj (hrow'.symm.trans hrow'')
      exact hsame.withinLimits.mpr (hs j row hrow hdispatched)
  rcases ht.jobEvents with heq | ⟨e', hwrite, heq⟩
  · refine old ⟨e, ?_, hrunning⟩
    unfold Database.eventsOf at he ⊢
    rwa [heq] at he
  · unfold Database.eventsOf at he
    rw [heq, List.filter_append, List.mem_append] at he
    rcases he with he | he
    · exact old ⟨e, he, hrunning⟩
    · obtain ⟨hmem, hj⟩ := List.mem_filter.mp he
      obtain rfl := List.mem_singleton.mp hmem
      have hj := of_decide_eq_true hj
      generalize s.locals a.1 = l at hwrite
      cases hwrite with
      | @running m job hjob hopen hbudget =>
        have hid := Database.id_of_loadJob hjob
        rw [hpolicy a.1, withinLimits_iff] at hbudget
        obtain ⟨row'', hrow'', hsame⟩ := hgrows.loadJob hjob
        have hj : m.jobId = j := hid ▸ hj
        rw [hj] at hrow''
        obtain rfl := Option.some.inj (hrow'.symm.trans hrow'')
        exact hsame.withinLimits.mpr hbudget
      | completed => cases hrunning
      | other htype => exact absurd hrunning htype

private theorem dispatched_withinLimits (hpolicy : cfg.SharesLivePolicy runBudget perJob retry)
    (hs : cfg.lts.Reachable Lts.anyStep s) : ∀ j row, s.shared.db.loadJob j = some row →
      s.shared.db.Dispatched j → WithinLimits runBudget perJob row := by
  refine Lts.Reachable.invariant
    (P := fun s => ∀ j row, s.shared.db.loadJob j = some row → s.shared.db.Dispatched j →
      WithinLimits runBudget perJob row) ?_ ?_ hs
  · intro j row h
    cases h
  · intro s a t hs hinv _ hstep
    exact dispatched_step hpolicy hstep (history_lawful hs) hinv

/-- Under one live policy shared by all workers, each job that is let through has a budget within
both limits, so `n` jobs of a run cost at most `n` times the smaller limit; a job that is not
within the limits takes the blocked exit of its dispatch, whose commit finalizes it as
`budget_blocked` unless it was finalized before. -/
theorem dispatch_respects_limits (hpolicy : cfg.SharesLivePolicy runBudget perJob retry)
    (hs : cfg.lts.Reachable Lts.anyStep s) :
    (∀ row ∈ s.shared.db.jobs.rows, s.shared.db.Dispatched row.id →
      WithinLimits runBudget perJob row) ∧
    (∀ runId, (s.shared.db.dispatchedBudgets runId).sum ≤
      (s.shared.db.dispatchedBudgets runId).length * min perJob runBudget) ∧
    (∀ i m row now t, s.locals i = .worker (.leased m) → s.shared.db.loadJob m.jobId = some row →
      row.status.terminal = false → ¬ WithinLimits runBudget perJob row →
      cfg.lts.step s (i, .advance now) = some t →
      ∃ exc, t.locals i = .worker (.dispatchAck m (.budgetBlocked row exc))) ∧
    ∀ i m job exc now t, s.locals i = .worker (.dispatchCommit m (.budgetBlocked job exc)) →
      cfg.lts.step s (i, .advance now) = some t →
      ∃ f, t.shared.db.jobFinalizations.get? m.jobId = some f ∧
        (s.shared.db.jobFinalizations.get? m.jobId = some f ∨
          f.status = .failed ∧ f.eventType = .budgetBlocked) := by
  have within := dispatched_withinLimits hpolicy hs
  have each : ∀ row ∈ s.shared.db.jobs.rows, s.shared.db.Dispatched row.id →
      WithinLimits runBudget perJob row := by
    intro row hrow
    exact within row.id row (KeyedTable.get?_eq_some_iff.mpr ⟨hrow, rfl⟩)
  refine ⟨each, ?_, ?_, ?_⟩
  · intro runId
    refine (List.sum_le_card_nsmul _ (min perJob runBudget) ?_).trans_eq (nsmul_eq_mul _ _)
    intro c hc
    obtain ⟨row, hrow, rfl⟩ := List.mem_map.mp hc
    obtain ⟨hrow, hdispatched⟩ := List.mem_filter.mp hrow
    obtain ⟨c, hc, hle⟩ := each row hrow (of_decide_eq_true (Bool.and_eq_true_iff.mp hdispatched).2)
    rw [hc]
    exact hle
  · intro i m row now t hl hrow hopen hover h
    obtain ⟨g', l', ht, rfl⟩ := step_transition h
    simp only [Function.update_self]
    rw [hl] at ht
    cases ht with
    | worker ht =>
      cases ht with
      | dispatchMissing hjob =>
        rw [hrow] at hjob
        cases hjob
      | dispatchTerminal hjob hterminal =>
        obtain rfl := Option.some.inj (hrow.symm.trans hjob)
        rw [hopen] at hterminal
        cases hterminal
      | @dispatchBlocked _ _ exc hjob =>
        obtain rfl := Option.some.inj (hrow.symm.trans hjob)
        exact ⟨exc, rfl⟩
      | dispatchRunning hjob _ hbudget =>
        obtain rfl := Option.some.inj (hrow.symm.trans hjob)
        rw [hpolicy i, withinLimits_iff] at hbudget
        exact absurd hbudget hover
  · intro i m job exc now t hl h
    have hcarries := (sound_reachable hs).2 i
    obtain ⟨g', l', ht, rfl⟩ := step_transition h
    rw [hl] at ht hcarries
    obtain ⟨-, hid, row, hrow, -⟩ := hcarries
    cases ht with
    | worker ht =>
      cases ht with
      | blockedCommits hdb =>
        obtain ⟨-, -, ⟨f, hf, -, rfl⟩ | ⟨fins, hfins, -, rfl⟩⟩ := Database.finalizeJob_cases hdb
        · exact ⟨f, hid ▸ hf, .inl (hid ▸ hf)⟩
        · exact ⟨_, hid ▸ KeyedTable.get?_of_insert_self hfins, .inr ⟨rfl, rfl⟩⟩
      | blockedRaises hdb =>
        have hnone := Database.loadJob_of_finalizeJob_none rfl hdb
        rw [hid, hrow] at hnone
        cases hnone

/-- Workers that share a live policy of 100 cents a job and 100 cents a run. -/
def liveDeployment : Deployment where
  env := sampleEnv
  worker i := ⟨"worker-" ++ toString i, .live (some 100) (some 100) 2, false⟩

/-- Two jobs of one run, of 60 cents each, and a worker for each of them. -/
def twoJobsRun : List (ℕ × Action) :=
  [(0, .createJob { stubSubmission with budgetCents := some 60 }), (0, .publishJob 1 1),
    (0, .createJob { stubSubmission with
      budgetCents := some 60, jobId := 3, idempotencyKey := "other key" }), (0, .publishJob 3 1),
    (1, .processOne), (1, .advance ""), (2, .processOne), (2, .advance "")]

theorem dispatch_respects_limits_twoJobs : ∃ s, liveDeployment.lts.Reachable Lts.anyStep s ∧
    (s.shared.db.dispatchedBudgets 2).length = 2 ∧
    (s.shared.db.dispatchedBudgets 2).sum ≤ 2 * min 100 100 := by
  obtain ⟨s, hs, hp⟩ := Lts.exists_reachable_of_exec liveDeployment.lts twoJobsRun
    (fun s => (s.shared.db.dispatchedBudgets 2).length = 2) (by decide)
  have hlength := of_decide_eq_true hp
  have hsum := (@dispatch_respects_limits liveDeployment s 100 100 2 (fun _ => rfl) hs).2.1 2
  rw [hlength] at hsum
  exact ⟨s, hs, hlength, hsum⟩

/-- The limit of a run is checked against each job alone, so two jobs exceed it together. -/
theorem run_budget_exceeded : ¬ ∀ s, liveDeployment.lts.Reachable Lts.anyStep s →
    ∀ runId, (s.shared.db.dispatchedBudgets runId).sum ≤ 100 := by
  intro claim
  obtain ⟨s, hs, hp⟩ := Lts.exists_reachable_of_exec liveDeployment.lts twoJobsRun
    (fun s => 100 < (s.shared.db.dispatchedBudgets 2).sum) (by decide)
  exact absurd (claim s hs 2) (not_le.mpr (of_decide_eq_true hp))

end Deployment
end AgentRuntimeGrid
