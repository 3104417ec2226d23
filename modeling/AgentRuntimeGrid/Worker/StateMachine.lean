import AgentRuntimeGrid.Cost.Telemetry
import AgentRuntimeGrid.Storage.Finalization

/-! The `record_*` transitions. Each is one transaction; `none` is a transaction that raises and
leaves nothing behind. -/
namespace AgentRuntimeGrid
namespace Database

/-- `load_job_for_update` without its lock. -/
def loadJob (db : Database) (j : JobId) : Option JobRecord := db.jobs.get? j

theorem id_of_loadJob {db : Database} {j : JobId} {job : JobRecord}
    (h : db.loadJob j = some job) : job.id = j := KeyedTable.key_of_get? h

/-- `_record_state_event`: the status is written and the event appended whatever the row says. -/
def recordStateEvent (db : Database) (job : JobRecord) (status : JobStatus)
    (eventType : EventType) (eventData : EventData) : Option Database :=
  match db.jobs.get? job.id with
  | none => none
  | some _ => some ((db.updateStatus job.id status).appendEvent
      ⟨job.id, job.runId, eventType, eventData, job.traceId⟩)

def recordRunning (db : Database) (job : JobRecord) (workerId : String) (attemptNumber : ℤ) :
    Option Database :=
  db.recordStateEvent job .running .running (.running workerId attemptNumber)

def recordCompleted (db : Database) (job : JobRecord) (workerId : String) (attemptNumber : ℤ)
    (result : JobResult) : Option (FinalizationResult × Database) :=
  db.finalizeJob job .completed .completed (.completed workerId attemptNumber result)

def recordRetryScheduled (db : Database) (job : JobRecord) (workerId : String)
    (attemptNumber nextAttemptNumber : ℤ) (errorClass : String) : Option Database :=
  db.recordStateEvent job .queued .retryScheduled
    (.retryScheduled workerId attemptNumber nextAttemptNumber errorClass true)

def staleLeaseErrorClass : String := "StaleWorkerLeaseError"

def staleLeaseExhaustedErrorClass : String := "StaleLeaseExhaustedError"

def recordStaleLeaseRecovered (db : Database) (job : JobRecord) (recoveryWorkerId
    staleConsumerName : String) (staleEntryId : Option ℕ) (staleIdleMs deliveryCount : ℕ)
    (attemptNumber nextAttemptNumber : ℤ) : Option Database :=
  db.recordStateEvent job .queued .staleLeaseRecovered
    (.staleLeaseRecovered recoveryWorkerId staleConsumerName staleEntryId staleIdleMs
      deliveryCount attemptNumber nextAttemptNumber staleLeaseErrorClass true)

def recordFailed (db : Database) (job : JobRecord) (workerId : String) (attemptNumber : ℤ)
    (errorClass : String) (retryable : Bool) : Option (FinalizationResult × Database) :=
  db.finalizeJob job .failed .failed (.failed workerId attemptNumber errorClass retryable)

def recordTimedOut (db : Database) (job : JobRecord) (workerId : String) (attemptNumber : ℤ) :
    Option (FinalizationResult × Database) :=
  db.finalizeJob job .timedOut .timedOut (.timedOut workerId attemptNumber "JobTimedOutError")

def recordCancelled (db : Database) (job : JobRecord) (workerId : String) (attemptNumber : ℤ)
    (cancelledWhile : String) : Option (FinalizationResult × Database) :=
  db.finalizeJob job .cancelled .cancelled (.cancelled workerId attemptNumber cancelledWhile)

def recordBudgetBlocked (db : Database) (job : JobRecord) (workerId : String) (attemptNumber : ℤ)
    (exc : BudgetPolicyError) : Option (FinalizationResult × Database) :=
  db.finalizeJob job .failed .budgetBlocked
    (.budgetBlocked workerId attemptNumber exc.reason exc.attemptedCostUsd exc.budgetLimitUsd
      "BudgetPolicyError" false)

def cancelQueuedJob (db : Database) (job : JobRecord) (workerId : String) :
    Option (FinalizationResult × Database) :=
  db.recordCancelled job workerId 0 "queued"

theorem recordStateEvent_eq_some {db db' : Database} {job : JobRecord} {status : JobStatus}
    {eventType : EventType} {eventData : EventData}
    (h : db.recordStateEvent job status eventType eventData = some db') :
    (∃ row, db.jobs.get? job.id = some row) ∧ db' = (db.updateStatus job.id status).appendEvent
      ⟨job.id, job.runId, eventType, eventData, job.traceId⟩ := by
  unfold recordStateEvent at h
  split at h
  · cases h
  next row hrow =>
    cases h
    exact ⟨⟨row, hrow⟩, rfl⟩

theorem mem_eventsOf_recordStateEvent {db db' : Database} {job : JobRecord} {status : JobStatus}
    {eventType : EventType} {eventData : EventData}
    (h : db.recordStateEvent job status eventType eventData = some db') :
    ⟨job.id, job.runId, eventType, eventData, job.traceId⟩ ∈ db'.eventsOf job.id := by
  obtain ⟨-, rfl⟩ := recordStateEvent_eq_some h
  rw [eventsOf_appendEvent]
  simp

/-- A lifecycle write of an existing job always commits. -/
theorem recordStateEvent_isSome {db : Database} {job row : JobRecord} (status : JobStatus)
    (eventType : EventType) (eventData : EventData) (hrow : db.jobs.get? job.id = some row) :
    ∃ db', db.recordStateEvent job status eventType eventData = some db' := by
  unfold recordStateEvent
  rw [hrow]
  exact ⟨_, rfl⟩

end Database
end AgentRuntimeGrid
