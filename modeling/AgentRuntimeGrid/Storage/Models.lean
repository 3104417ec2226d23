import AgentRuntimeGrid.Artifacts.Store
import AgentRuntimeGrid.Lib.KeyedTable

/-! The Postgres tables of the job lifecycle. `job_events.id` grows with every insert, so the
event log is a list in id order. -/
namespace AgentRuntimeGrid

inductive EventType where
  | submitted | running | retryScheduled | staleLeaseRecovered
  | completed | failed | timedOut | cancelled | budgetBlocked
  deriving DecidableEq, Repr

/-- The status a job has after an event of the type. -/
def EventType.status : EventType → JobStatus
  | .submitted => .submitted
  | .running => .running
  | .retryScheduled | .staleLeaseRecovered => .queued
  | .completed => .completed
  | .failed | .budgetBlocked => .failed
  | .timedOut => .timedOut
  | .cancelled => .cancelled

/-- The runner's result with the artifact metadata added to it, as the completed event stores
it. -/
structure JobResult where
  fields : Dict
  artifact : Option ArtifactMetadata

/-- `job_events.event_data`, one constructor for each shape the code writes. -/
inductive EventData where
  | submitted (idempotencyKey : String) (timeoutSeconds maxRetries : ℤ)
  | running (workerId : String) (attemptNumber : ℤ)
  | retryScheduled (workerId : String) (attemptNumber nextAttemptNumber : ℤ)
      (errorClass : String) (retryable : Bool)
  | staleLeaseRecovered (workerId staleConsumerName : String) (staleEntryId : Option ℕ)
      (staleIdleMs deliveryCount : ℕ) (attemptNumber nextAttemptNumber : ℤ)
      (errorClass : String) (retryable : Bool)
  | completed (workerId : String) (attemptNumber : ℤ) (result : JobResult)
  | failed (workerId : String) (attemptNumber : ℤ) (errorClass : String) (retryable : Bool)
  | timedOut (workerId : String) (attemptNumber : ℤ) (errorClass : String)
  | cancelled (workerId : String) (attemptNumber : ℤ) (cancelledWhile : String)
  | budgetBlocked (workerId : String) (attemptNumber : ℤ) (reason : String)
      (attemptedCostUsd budgetLimitUsd : ℚ) (errorClass : String) (retryable : Bool)

/-- `event_data["attempt_number"]`. -/
def EventData.attemptNumber : EventData → Option ℤ
  | .submitted _ _ _ => none
  | .running _ n => some n
  | .retryScheduled _ n _ _ _ => some n
  | .staleLeaseRecovered _ _ _ _ _ n _ _ _ => some n
  | .completed _ n _ => some n
  | .failed _ n _ _ => some n
  | .timedOut _ n _ => some n
  | .cancelled _ n _ => some n
  | .budgetBlocked _ n _ _ _ _ _ => some n

/-- `event_data["next_attempt_number"]`. -/
def EventData.nextAttemptNumber : EventData → Option ℤ
  | .retryScheduled _ _ n _ _ => some n
  | .staleLeaseRecovered _ _ _ _ _ _ n _ _ => some n
  | _ => none

/-- `event_data["error_class"]`. -/
def EventData.errorClass : EventData → Option String
  | .retryScheduled _ _ _ c _ => some c
  | .staleLeaseRecovered _ _ _ _ _ _ _ c _ => some c
  | .failed _ _ c _ => some c
  | .timedOut _ _ c => some c
  | .budgetBlocked _ _ _ _ _ c _ => some c
  | _ => none

def EventData.artifact : EventData → Option ArtifactMetadata
  | .completed _ _ result => result.artifact
  | _ => none

structure JobEvent where
  jobId : JobId
  runId : RunId
  eventType : EventType
  eventData : EventData
  traceId : String

structure JobFinalization where
  jobId : JobId
  runId : RunId
  status : JobStatus
  eventType : EventType
  traceId : String
  deriving DecidableEq, Repr

structure FinalizationConflictAttempt where
  jobId : JobId
  runId : RunId
  attemptedStatus : JobStatus
  attemptedEventType : EventType
  traceId : String
  deriving DecidableEq, Repr

structure FinalizationResult where
  finalized : Bool
  conflictRecorded : Bool
  deriving DecidableEq, Repr

structure Database where
  jobs : KeyedTable JobRecord.id
  jobEvents : List JobEvent
  jobFinalizations : KeyedTable JobFinalization.jobId
  finalizationConflictAttempts : List FinalizationConflictAttempt
  /-- History only: every committed `finalize_job` call and what it returned. No code reads it. -/
  finalizeCalls : List (JobId × FinalizationResult)

namespace Database

def empty : Database := ⟨.empty, [], .empty, [], []⟩

/-- The events of one job, in id order. -/
def eventsOf (db : Database) (j : JobId) : List JobEvent := db.jobEvents.filter fun e => e.jobId = j

/-- What a `finalize_job` call returned for one job, in commit order. -/
def callsOf (db : Database) (j : JobId) : List FinalizationResult :=
  (db.finalizeCalls.filter fun c => c.1 = j).map Prod.snd

def conflictsOf (db : Database) (j : JobId) : List FinalizationConflictAttempt :=
  db.finalizationConflictAttempts.filter fun c => c.jobId = j

/-- The `job_finalizations` rows of one job. -/
def finalizationsOf (db : Database) (j : JobId) : List JobFinalization :=
  db.jobFinalizations.rows.filter fun f => f.jobId = j

def Finalized (db : Database) (j : JobId) : Prop := (db.jobFinalizations.get? j).isSome = true

instance (db : Database) (j : JobId) : Decidable (db.Finalized j) :=
  inferInstanceAs (Decidable (_ = _))

theorem finalized_iff {db : Database} {j : JobId} :
    db.Finalized j ↔ ∃ f, db.jobFinalizations.get? j = some f := Option.isSome_iff_exists

theorem finalizationsOf_eq (db : Database) (j : JobId) :
    db.finalizationsOf j = (db.jobFinalizations.get? j).toList :=
  db.jobFinalizations.filter_key_eq j

/-- `UPDATE jobs SET status = s WHERE id = j`. -/
def updateStatus (db : Database) (j : JobId) (s : JobStatus) : Database :=
  { db with jobs := db.jobs.modify j (·.withStatus s) fun job => job.withStatus_id s }

/-- `INSERT INTO job_events`. -/
def appendEvent (db : Database) (e : JobEvent) : Database :=
  { db with jobEvents := db.jobEvents ++ [e] }

/-- `INSERT INTO finalization_conflict_attempts`. -/
def appendConflict (db : Database) (c : FinalizationConflictAttempt) : Database :=
  { db with finalizationConflictAttempts := db.finalizationConflictAttempts ++ [c] }

def noteFinalizeCall (db : Database) (j : JobId) (r : FinalizationResult) : Database :=
  { db with finalizeCalls := db.finalizeCalls ++ [(j, r)] }

theorem get?_updateStatus (db : Database) (j k : JobId) (s : JobStatus) :
    (db.updateStatus j s).jobs.get? k =
      if k = j then (db.jobs.get? k).map (·.withStatus s) else db.jobs.get? k :=
  KeyedTable.get?_modify db.jobs j (·.withStatus s) (fun job => job.withStatus_id s) k

theorem eventsOf_appendEvent (db : Database) (e : JobEvent) (j : JobId) :
    (db.appendEvent e).eventsOf j = db.eventsOf j ++ if e.jobId = j then [e] else [] := by
  change (db.jobEvents ++ [e]).filter _ = _
  rw [List.filter_append]
  by_cases he : e.jobId = j <;> simp [he, eventsOf]

theorem conflictsOf_appendConflict (db : Database) (c : FinalizationConflictAttempt) (j : JobId) :
    (db.appendConflict c).conflictsOf j =
      db.conflictsOf j ++ if c.jobId = j then [c] else [] := by
  change (db.finalizationConflictAttempts ++ [c]).filter _ = _
  rw [List.filter_append]
  by_cases hc : c.jobId = j <;> simp [hc, conflictsOf]

theorem callsOf_noteFinalizeCall (db : Database) (k : JobId) (r : FinalizationResult) (j : JobId) :
    (db.noteFinalizeCall k r).callsOf j = db.callsOf j ++ if k = j then [r] else [] := by
  change ((db.finalizeCalls ++ [(k, r)]).filter _).map Prod.snd = _
  rw [List.filter_append, List.map_append]
  by_cases hk : k = j <;> simp [hk, callsOf]

end Database
end AgentRuntimeGrid
