import AgentRuntimeGrid.Runtime.Provenance

/-! The event and the finalization a step can commit, with what its actor has seen when it does. -/
namespace AgentRuntimeGrid

/-- The record is a row of the database, its status apart. -/
def Database.Describes (db : Database) (job : JobRecord) : Prop :=
  ∃ row, db.loadJob job.id = some row ∧ job.SameJob row

/-- The lifecycle event a step appends to the log of a job that stays open. -/
inductive LifecycleEvent (cfg : Deployment) (i : ℕ) (g : Grid) :
    ActorState → Action → JobRecord → EventType → EventData → Prop where
  | running {m : QueueJobMessage} {job : JobRecord} {now : String}
      (hjob : g.db.loadJob m.jobId = some job) (hopen : job.status.terminal = false) :
      LifecycleEvent cfg i g (.worker (.leased m)) (.advance now) job .running
        (.running (cfg.worker i).workerId m.attemptNumber)
  | retryScheduled {m : QueueJobMessage} {job : JobRecord} {c now : String}
      (hretries : m.attemptNumber ≤ job.maxRetries)
      (hbudget : (cfg.worker i).budgetPolicy.validateRetry (m.attemptNumber + 1) = .ok ()) :
      LifecycleEvent cfg i g (.worker (.handling m job (.transient c))) (.advance now) job
        .retryScheduled (.retryScheduled (cfg.worker i).workerId m.attemptNumber
          (m.attemptNumber + 1) c true)
  | staleLeaseRecovered {lease : StaleLease} {rest : List StaleLease}
      {result : StaleLeaseRecoveryResult} {job : JobRecord} {now : String}
      (hjob : g.db.loadJob lease.message.jobId = some job) (hopen : job.status.terminal = false)
      (hretries : lease.message.attemptNumber ≤ job.maxRetries) :
      LifecycleEvent cfg i g (.recovery (.planning (lease :: rest) result)) (.advance now) job
        .staleLeaseRecovered (.staleLeaseRecovered (cfg.worker i).workerId lease.consumerName
          lease.message.entryId lease.idleMs lease.deliveryCount lease.message.attemptNumber
          (lease.message.attemptNumber + 1) Database.staleLeaseErrorClass true)

/-- How a worker ends a job whose coroutine raised an error it handles. -/
inductive Worker.Handles (w : Worker) (m : QueueJobMessage) (job : JobRecord) :
    HandledError → EventType → EventData → Prop where
  | budgetBlocked {c : String} {exc : BudgetPolicyError}
      (hretries : m.attemptNumber ≤ job.maxRetries)
      (hexc : w.budgetPolicy.validateRetry (m.attemptNumber + 1) = .error exc) :
      Worker.Handles w m job (.transient c) .budgetBlocked (.budgetBlocked w.workerId
        m.attemptNumber exc.reason exc.attemptedCostUsd exc.budgetLimitUsd "BudgetPolicyError"
        false)
  | exhausted {c : String} (hretries : job.maxRetries < m.attemptNumber) :
      Worker.Handles w m job (.transient c) .failed (.failed w.workerId m.attemptNumber c true)
  | policy {c : String} :
      Worker.Handles w m job (.policy c) .failed (.failed w.workerId m.attemptNumber c false)
  | timedOut : Worker.Handles w m job .timedOut .timedOut
      (.timedOut w.workerId m.attemptNumber "JobTimedOutError")
  | cancelled : Worker.Handles w m job .cancelled .cancelled
      (.cancelled w.workerId m.attemptNumber "running")

/-- The terminal event a step proposes to `finalize_job`. -/
inductive TerminalEvent (cfg : Deployment) (i : ℕ) (g : Grid) :
    ActorState → Action → JobRecord → EventType → EventData → Prop where
  | cancelledQueued {j : JobId} {job : JobRecord} (hjob : g.db.loadJob j = some job) :
      TerminalEvent cfg i g .idle (.cancelQueuedJob j) job .cancelled
        (.cancelled (cfg.worker i).workerId 0 "queued")
  | blocked {m : QueueJobMessage} {job : JobRecord} {exc : BudgetPolicyError} {now : String} :
      TerminalEvent cfg i g (.worker (.dispatchCommit m (.budgetBlocked job exc)))
        (.advance now) job .budgetBlocked
        (.budgetBlocked (cfg.worker i).workerId m.attemptNumber exc.reason
          exc.attemptedCostUsd exc.budgetLimitUsd "BudgetPolicyError" false)
  | handled {m : QueueJobMessage} {job : JobRecord} {error : HandledError} {now : String}
      {eventType : EventType} {eventData : EventData}
      (h : (cfg.worker i).Handles m job error eventType eventData) :
      TerminalEvent cfg i g (.worker (.handling m job error)) (.advance now) job eventType eventData
  | completed {m : QueueJobMessage} {job : JobRecord} {result : JobResult} {now : String} :
      TerminalEvent cfg i g (.worker (.completing m job result)) (.advance now) job .completed
        (.completed (cfg.worker i).workerId m.attemptNumber result)
  | leaseExhausted {lease : StaleLease} {rest : List StaleLease}
      {result : StaleLeaseRecoveryResult} {job : JobRecord} {now : String}
      (hjob : g.db.loadJob lease.message.jobId = some job) (hopen : job.status.terminal = false)
      (hretries : job.maxRetries < lease.message.attemptNumber) :
      TerminalEvent cfg i g (.recovery (.planning (lease :: rest) result)) (.advance now) job
        .failed (.failed (cfg.worker i).workerId lease.message.attemptNumber
          Database.staleLeaseExhaustedErrorClass true)

inductive DbWrite (cfg : Deployment) (i : ℕ) (g : Grid) (l : ActorState) (a : Action) :
    Database → Prop where
  | same : DbWrite cfg i g l a g.db
  | created {row : JobRecord} {db : Database} (hdb : g.db.insertJob row = .ok db)
      (hstatus : row.status = .submitted) (hretries : 0 ≤ row.maxRetries) :
      DbWrite cfg i g l a db
  | lifecycle {job : JobRecord} {eventType : EventType} {eventData : EventData} {db : Database}
      (h : LifecycleEvent cfg i g l a job eventType eventData)
      (hdb : g.db.recordStateEvent job eventType.status eventType eventData = some db) :
      DbWrite cfg i g l a db
  | finalized {job : JobRecord} {eventType : EventType} {eventData : EventData}
      {r : FinalizationResult} {db : Database}
      (h : TerminalEvent cfg i g l a job eventType eventData)
      (hdb : g.db.finalizeJob job eventType.status eventType eventData = some (r, db)) :
      DbWrite cfg i g l a db

variable {cfg : Deployment} {i : ℕ} {g g' : Grid} {l l' : ActorState} {a : Action}

private theorem handle_dbWrite {m : QueueJobMessage} {job : JobRecord} {error : HandledError}
    {now : String} {st : WorkerState}
    (h : (cfg.worker i).handle g m job error = (g', st)) :
    DbWrite cfg i g (.worker (.handling m job error)) (.advance now) g'.db := by
  have finalized : ∀ {eventType : EventType} {eventData : EventData},
      (cfg.worker i).Handles m job error eventType eventData →
      g.commit ((g.db.finalizeJob job eventType.status eventType eventData).map Prod.snd)
        (WorkerState.raised "IntegrityError") (.acknowledging m) = (g', st) →
      DbWrite cfg i g (.worker (.handling m job error)) (.advance now) g'.db := by
    intro eventType eventData hhandles hc
    obtain ⟨-, rfl, -⟩ | ⟨db, hdb, rfl, -⟩ := Grid.commit_cases hc
    · exact .same
    · obtain ⟨r, hr⟩ := map_snd_eq_some hdb
      exact .finalized (.handled hhandles) hr
  cases error with
  | transient c =>
    change (cfg.worker i).handleTransientError g m job c = _ at h
    unfold Worker.handleTransientError at h
    split at h
    next hretries =>
      simp only at h
      split at h
      next exc hexc => exact finalized (.budgetBlocked hretries hexc) h
      next hbudget =>
        obtain ⟨-, rfl, -⟩ | ⟨db, hdb, rfl, -⟩ := Grid.commit_cases h
        · exact .same
        · exact .lifecycle (.retryScheduled hretries hbudget) hdb
    next hretries => exact finalized (.exhausted (not_le.mp hretries)) h
  | policy c => exact finalized .policy h
  | timedOut => exact finalized .timedOut h
  | cancelled => exact finalized .cancelled h

/-- A step commits at most one transaction, of one of these kinds. -/
theorem Deployment.localStep_dbWrite (h : cfg.localStep i g l a = some (g', l')) :
    DbWrite cfg i g l a g'.db := by
  cases localStep_transition h with
  | crash =>
    rw [Grid.db_rollback]
    exact .same
  | @createJob s =>
    obtain h | ⟨row, db', hdb, hstatus, hretries, h⟩ := Database.createJob_cases g.db cfg.env s
    · simp only [h]
      exact .same
    · simp only [h]
      exact .created hdb hstatus hretries
  | cancelQueuedJob hjob hdb => exact .finalized (.cancelledQueued hjob) hdb
  | worker ht =>
    cases ht with
    | dispatchRunning hjob hopen _ hdb => exact .lifecycle (.running hjob hopen) hdb
    | retryScheduled hretries hbudget hdb => exact .lifecycle (.retryScheduled hretries hbudget) hdb
    | blockedCommits hdb => exact .finalized .blocked hdb
    | @handled m job error =>
      obtain ⟨⟨g₁, st'⟩, hst, heq⟩ := Option.map_eq_some_iff.mp h
      cases heq
      simp only [Worker.advance] at hst
      split at hst
      · cases hst
      · exact handle_dbWrite (Option.some.inj hst)
    | completed hdb => exact .finalized .completed hdb
    | dispatchAck | acknowledged =>
      rw [Grid.db_acknowledge]
      exact .same
    | _ => exact .same
  | recovery ht =>
    cases ht with
    | planRequeue hjob hopen hretries hdb =>
      exact .lifecycle (.staleLeaseRecovered hjob hopen hretries) hdb
    | planDlq hjob hopen hretries hdb => exact .finalized (.leaseExhausted hjob hopen hretries) hdb
    | acknowledged =>
      rw [Grid.db_acknowledge]
      exact .same
    | _ => exact .same
  | _ => exact .same

theorem Database.describes_of_loadJob {db : Database} {j : JobId} {job : JobRecord}
    (h : db.loadJob j = some job) : db.Describes job :=
  ⟨job, by rw [id_of_loadJob h]; exact h, .refl job⟩

theorem Grid.Carries.describes {m : QueueJobMessage} {job : JobRecord} (h : g.Carries m job) :
    g.db.Describes job := by
  obtain ⟨hid, row, hrow, hsame⟩ := h
  exact ⟨row, by rw [hid]; exact hrow, hsame⟩

theorem LifecycleEvent.describes {job : JobRecord} {eventType : EventType} {eventData : EventData}
    (h : LifecycleEvent cfg i g l a job eventType eventData) (hl : l.Sound g) :
    g.db.Describes job := by
  cases h with
  | running hjob => exact Database.describes_of_loadJob hjob
  | retryScheduled => exact Grid.Carries.describes (And.right hl)
  | staleLeaseRecovered hjob => exact Database.describes_of_loadJob hjob

theorem TerminalEvent.describes {job : JobRecord} {eventType : EventType} {eventData : EventData}
    (h : TerminalEvent cfg i g l a job eventType eventData) (hl : l.Sound g) :
    g.db.Describes job := by
  cases h with
  | cancelledQueued hjob | leaseExhausted hjob => exact Database.describes_of_loadJob hjob
  | blocked => exact Grid.Carries.describes (And.right hl)
  | handled => exact Grid.Carries.describes (And.right hl)
  | completed => exact Grid.Carries.describes (And.right hl)

end AgentRuntimeGrid
