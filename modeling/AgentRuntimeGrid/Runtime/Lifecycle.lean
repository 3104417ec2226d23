import AgentRuntimeGrid.Runtime.Transitions

/-! The lifecycle laws of every run: the log explains the status, the first finalization wins,
and, as long as no late retry is written, a terminal status is final. -/
namespace AgentRuntimeGrid

theorem Database.duplicateTerminalEventCount_eq_zero {db : Database}
    (h : ∀ j, (terminalEvents (db.eventsOf j)).length ≤ 1) (runId : Option RunId) :
    db.duplicateTerminalEventCount runId = 0 := by
  unfold duplicateTerminalEventCount
  rw [List.length_eq_zero_iff, List.filter_eq_nil_iff]
  intro j _
  rw [decide_eq_true_iff, not_lt, List.count_eq_countP, List.countP_map, List.countP_filter]
  refine le_trans ?_ (h j)
  rw [terminalEvents, eventsOf, ← List.countP_eq_length_filter, List.countP_filter]
  apply List.countP_mono_left
  intro e _ he
  simp only [Function.comp_apply, Bool.and_eq_true, beq_iff_eq] at he
  simp only [Bool.and_eq_true, decide_eq_true_eq]
  refine ⟨?_, he.1⟩
  cases ht : e.eventType <;> first | rfl | simp [isTerminalEventType, ht] at he

namespace Deployment
variable {cfg : Deployment} {s t : State}

theorem history_step {G : Database → JobId → Prop} {a : ℕ × Action}
    (h : cfg.lts.step s a = some t) (hG : RetryGuard cfg a.1 s.shared (s.locals a.1) a.2 G)
    (j : JobId) : (s.shared.db.history j).Step (G s.shared.db j) (t.shared.db.history j) := by
  obtain ⟨g', l', ht, rfl⟩ := step_transition h
  exact (ht.dbStep hG).history j

theorem history_anyStep {a : ℕ × Action} (h : cfg.lts.step s a = some t) (j : JobId) :
    (s.shared.db.history j).Step True (t.shared.db.history j) :=
  history_step (G := fun _ _ => True) h (fun _ _ _ _ _ _ _ _ => trivial) j

theorem history_lawful (hs : cfg.lts.Reachable Lts.anyStep s) (j : JobId) :
    (s.shared.db.history j).Lawful :=
  Lts.Reachable.invariant (P := fun s => (s.shared.db.history j).Lawful) JobHistory.lawful_empty
    (fun _ _ _ _ hv _ hstep => hv.step (history_anyStep hstep j)) hs

theorem finalization_run (h : cfg.lts.Run Lts.anyStep s t) {j : JobId} {f : JobFinalization}
    (hf : s.shared.db.jobFinalizations.get? j = some f) :
    t.shared.db.jobFinalizations.get? j = some f :=
  Lts.Run.preserves (P := fun s => s.shared.db.jobFinalizations.get? j = some f)
    (fun _ _ _ hf _ hstep => JobHistory.finalization_step (history_anyStep hstep j) hf) h hf

/-- Worker 1 is slow, its lease is recovered, and worker 3 completes the requeued attempt. -/
def overtakenRun : List (ℕ × Action) :=
  [(0, .createJob stubSubmission), (0, .publishJob 1 1), (1, .processOne), (1, .advance ""),
    (2, .recoverStaleLeases (fun _ => 60000) 30000 100), (2, .advance ""), (2, .advance ""),
    (2, .advance ""), (3, .processOne), (3, .advance ""), (3, .run [] (.success [])),
    (3, .advance ""), (3, .advance "")]

/-- After that, worker 1 meets a transient error. -/
def lateRetryRun : List (ℕ × Action) :=
  overtakenRun ++ [(1, .run [] (.transientError "TransientRunnerError")), (1, .advance "")]

/-- The status of a job is what its events say, and the first of them, and no other, is its
submission. -/
theorem status_eq_replay (hs : cfg.lts.Reachable Lts.anyStep s) {j : JobId} {row : JobRecord}
    (hrow : s.shared.db.jobs.get? j = some row) :
    replay (s.shared.db.eventsOf j) = some row.status ∧
      ∃ e es, s.shared.db.eventsOf j = e :: es ∧ e.eventType = .submitted ∧
        ∀ e' ∈ es, e'.eventType ≠ .submitted :=
  ⟨(history_lawful hs j).status row hrow, (history_lawful hs j).submitted row hrow⟩

theorem status_eq_replay_lateRetry : ∃ s row, stubDeployment.lts.Reachable Lts.anyStep s ∧
    s.shared.db.jobs.get? 1 = some row ∧ row.status = .queued ∧
    replay (s.shared.db.eventsOf 1) = some .queued := by
  obtain ⟨s, hs, hp⟩ := Lts.exists_reachable_of_exec stubDeployment.lts lateRetryRun
    (fun s => (s.shared.db.jobs.get? 1).any (·.status = .queued)) (by decide)
  obtain ⟨row, hrow, hstatus⟩ := (Option.any_eq_true _ _).mp hp
  have hstatus : row.status = .queued := of_decide_eq_true hstatus
  exact ⟨s, row, hs, hrow, hstatus, hstatus ▸ (status_eq_replay hs hrow).1⟩

/-- A job has a terminal event exactly when it has its one finalization row, the two name the
same event type, the row never changes, and each call of `finalize_job` is accounted for. -/
theorem first_finalization_wins (hs : cfg.lts.Reachable Lts.anyStep s) (j : JobId) :
    (terminalEvents (s.shared.db.eventsOf j)).length = (s.shared.db.finalizationsOf j).length ∧
    (s.shared.db.finalizationsOf j).length ≤ 1 ∧
    (terminalEvents (s.shared.db.eventsOf j)).map JobEvent.eventType =
      (s.shared.db.finalizationsOf j).map JobFinalization.eventType ∧
    (∀ t f, cfg.lts.Run Lts.anyStep s t → s.shared.db.finalizationsOf j = [f] →
      t.shared.db.finalizationsOf j = [f]) ∧
    (s.shared.db.callsOf j).length =
      (s.shared.db.finalizationsOf j).length + (s.shared.db.conflictsOf j).length ∧
    (s.shared.db.callsOf j ≠ [] →
      ((s.shared.db.callsOf j).filter FinalizationResult.finalized).length = 1) ∧
    ∀ runId, s.shared.db.duplicateTerminalEventCount runId = 0 := by
  have law := history_lawful hs
  have terminal : ∀ j, (terminalEvents (s.shared.db.eventsOf j)).map JobEvent.eventType =
      (s.shared.db.finalizationsOf j).map JobFinalization.eventType := by
    intro j
    rw [Database.finalizationsOf_eq]
    refine (law j).terminal.trans ?_
    simp only [Database.history]
    cases s.shared.db.jobFinalizations.get? j <;> rfl
  have count : ∀ j, (terminalEvents (s.shared.db.eventsOf j)).length =
      (s.shared.db.finalizationsOf j).length := by
    intro j
    simpa using congrArg List.length (terminal j)
  have atMostOne : ∀ j, (s.shared.db.finalizationsOf j).length ≤ 1 := by
    intro j
    rw [Database.finalizationsOf_eq]
    cases s.shared.db.jobFinalizations.get? j <;> simp
  refine ⟨count j, atMostOne j, terminal j, ?_, ?_, ?_, ?_⟩
  · intro t f hrun hf
    rw [Database.finalizationsOf_eq] at hf ⊢
    rw [finalization_run hrun (Option.toList_eq_singleton_iff.mp hf), Option.toList_some]
  · rw [Database.finalizationsOf_eq]
    exact (law j).calls
  · intro hcalls
    have hwins := (law j).wins
    have hlength := (law j).calls
    have hfirst := (law j).first
    simp only [Database.history] at hwins hlength hfirst
    rw [hwins]
    cases hf : s.shared.db.jobFinalizations.get? j with
    | none =>
      rw [hf, hfirst hf] at hlength
      exact absurd (List.length_eq_zero_iff.mp hlength) hcalls
    | some f => rfl
  · exact Database.duplicateTerminalEventCount_eq_zero fun j => (count j).trans_le (atMostOne j)

theorem first_finalization_wins_conflict : ∃ s, stubDeployment.lts.Reachable Lts.anyStep s ∧
    (s.shared.db.conflictsOf 1).length = 1 ∧ (s.shared.db.finalizationsOf 1).length ≤ 1 ∧
    ((s.shared.db.callsOf 1).filter FinalizationResult.finalized).length = 1 := by
  obtain ⟨s, hs, hp⟩ := Lts.exists_reachable_of_exec stubDeployment.lts
    (overtakenRun ++ [(1, .run [] .timedOut), (1, .advance "")])
    (fun s => (s.shared.db.conflictsOf 1).length = 1 && s.shared.db.callsOf 1 ≠ []) (by decide)
  simp only [Bool.and_eq_true, decide_eq_true_eq] at hp
  have law := first_finalization_wins hs 1
  exact ⟨s, hs, hp.1, law.2.1, law.2.2.2.2.2.1 hp.2⟩

/-- The step schedules no retry of a job that already has its finalization row. -/
def NoLateRetry (cfg : Deployment) (s : State) (a : ℕ × Action) : Prop :=
  RetryGuard cfg a.1 s.shared (s.locals a.1) a.2 fun db j => ¬ db.Finalized j

theorem noLateRetry_step {a : ℕ × Action} (hc : cfg.NoLateRetry s a)
    (h : cfg.lts.step s a = some t) (j : JobId) :
    (s.shared.db.history j).Step ((s.shared.db.history j).finalization = none)
      (t.shared.db.history j) := by
  refine history_step (G := fun db j => (db.history j).finalization = none) h ?_ j
  intro m job c now hl ha hretries hbudget
  simpa [Database.Finalized, Database.history] using hc m job c now hl ha hretries hbudget

theorem history_settled (hs : cfg.lts.Reachable cfg.NoLateRetry s) (j : JobId) :
    (s.shared.db.history j).Lawful ∧ (s.shared.db.history j).Settled :=
  Lts.Reachable.invariant
    (P := fun s => (s.shared.db.history j).Lawful ∧ (s.shared.db.history j).Settled)
    ⟨JobHistory.lawful_empty, JobHistory.settled_empty⟩
    (fun _ _ _ _ hv hc hstep => ⟨hv.1.step (history_anyStep hstep j),
      hv.2.step (noLateRetry_step hc hstep j) hv.1⟩) hs

/-- In a run without late retries a job has a terminal status exactly when it has a finalization
row, the two statuses are equal, and from then on neither the row nor the log changes. -/
theorem terminal_status_absorbing (hs : cfg.lts.Reachable cfg.NoLateRetry s)
    (hst : cfg.lts.Run cfg.NoLateRetry s t) {j : JobId} {row : JobRecord}
    (hrow : s.shared.db.jobs.get? j = some row) :
    (row.status.terminal = true ↔ s.shared.db.Finalized j) ∧
    (∀ f, s.shared.db.jobFinalizations.get? j = some f → row.status = f.status) ∧
    (row.status.terminal = true → t.shared.db.jobs.get? j = some row ∧
      t.shared.db.eventsOf j = s.shared.db.eventsOf j) := by
  have settled := (history_settled hs j).2
  refine ⟨settled.terminal_iff row hrow, fun f hf => settled.status_eq row f hrow hf, ?_⟩
  intro hterminal
  have frozen := Lts.Run.preserves
    (P := fun u => ((u.shared.db.history j).Lawful ∧ (u.shared.db.history j).Settled) ∧
      u.shared.db.jobs.get? j = some row ∧ u.shared.db.eventsOf j = s.shared.db.eventsOf j)
    (fun u a v hu hc hstep => by
      have hv := hu.1.2.frozen (noLateRetry_step hc hstep j) hu.2.1 hterminal
      exact ⟨⟨hu.1.1.step (history_anyStep hstep j),
        hu.1.2.step (noLateRetry_step hc hstep j) hu.1.1⟩, hv.1, hv.2.trans hu.2.2⟩)
    hst ⟨history_settled hs j, hrow, rfl⟩
  exact frozen.2

/-- A check that implies the condition: no actor is about to handle an error. -/
private def notHandling (s : State) (a : ℕ × Action) : Bool :=
  match s.locals a.1 with
  | .worker (.handling _ _ _) => false
  | _ => true

private theorem noLateRetry_of_notHandling (s : State) (a : ℕ × Action)
    (h : notHandling s a = true) : cfg.NoLateRetry s a := by
  intro m job c now hl
  simp [notHandling, hl] at h

/-- A duplicate message of a completed job changes nothing. -/
theorem terminal_status_absorbing_duplicate : ∃ s t row,
    stubDeployment.lts.Reachable stubDeployment.NoLateRetry s ∧
    stubDeployment.lts.Run stubDeployment.NoLateRetry s t ∧
    s.shared.db.jobs.get? 1 = some row ∧ row.status = .completed ∧
    t.shared.db.jobs.get? 1 = some row := by
  obtain ⟨s, hs, hp⟩ := Lts.exists_run_of_exec (L := stubDeployment.lts)
    (C := stubDeployment.NoLateRetry) noLateRetry_of_notHandling stubDeployment.lts.init
    overtakenRun (fun s => (s.shared.db.jobs.get? 1).any (·.status = .completed) &&
      (stubDeployment.lts.exec notHandling s [(0, .publishJob 1 1), (3, .finish), (3, .processOne),
        (3, .advance ""), (3, .advance ""), (3, .advance "")]).any fun _ => true) (by decide)
  obtain ⟨hrow, hrun⟩ := Bool.and_eq_true_iff.mp hp
  obtain ⟨row, hrow, hstatus⟩ := (Option.any_eq_true _ _).mp hrow
  have hstatus : row.status = .completed := of_decide_eq_true hstatus
  obtain ⟨t, hst, -⟩ := Lts.exists_run_of_exec (C := stubDeployment.NoLateRetry)
    noLateRetry_of_notHandling s _ _ hrun
  have frozen := (terminal_status_absorbing hs hst hrow).2.2 (by rw [hstatus]; rfl)
  exact ⟨s, t, row, hs, hst, hrow, hstatus, frozen.1⟩

/-- Without the condition a completed job is put back to `queued`. -/
theorem terminal_status_undone : ¬ ∀ s, stubDeployment.lts.Reachable Lts.anyStep s →
    ∀ j row, s.shared.db.jobs.get? j = some row →
      (row.status.terminal = true ↔ s.shared.db.Finalized j) := by
  intro claim
  obtain ⟨s, hs, hp⟩ := Lts.exists_reachable_of_exec stubDeployment.lts lateRetryRun
    (fun s => (s.shared.db.jobs.get? 1).any (!·.status.terminal) &&
      decide (s.shared.db.Finalized 1)) (by decide)
  obtain ⟨hrow, hfin⟩ := Bool.and_eq_true_iff.mp hp
  obtain ⟨row, hrow, hopen⟩ := (Option.any_eq_true _ _).mp hrow
  rw [(claim s hs 1 row hrow).mpr (of_decide_eq_true hfin)] at hopen
  cases hopen

end Deployment
end AgentRuntimeGrid
