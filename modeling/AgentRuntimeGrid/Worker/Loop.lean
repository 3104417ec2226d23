import AgentRuntimeGrid.Queue.RedisStreams
import AgentRuntimeGrid.Worker.StateMachine

/-! `Worker.process_one`, cut at every point where another process can act: between two awaits,
and between the commit of a transaction and the next Redis command. -/
namespace AgentRuntimeGrid

/-- What the processes of one deployment share. `rowLocks` lists the job rows that a transaction
still open has locked with `FOR UPDATE`. -/
structure Grid where
  db : Database
  queue : RedisStreamsQueue
  files : FileStore
  rowLocks : List JobId

namespace Grid

def empty : Grid := ⟨.empty, .empty, fun _ => none, []⟩

def rowLocked (g : Grid) (j : JobId) : Bool := decide (j ∈ g.rowLocks)

def lockRow (g : Grid) (j : JobId) : Grid := { g with rowLocks := j :: g.rowLocks }

def unlockRow (g : Grid) (j : JobId) : Grid := { g with rowLocks := g.rowLocks.erase j }

/-- A transaction in one step: it raises and leaves nothing, or commits. -/
def commit {l : Type*} (g : Grid) (tx : Option Database) (raised next : l) : Grid × l :=
  match tx with
  | none => (g, raised)
  | some db => ({ g with db := db }, next)

/-- `if message.entry_id is not None: await queue.acknowledge(message.entry_id)`. -/
def acknowledge (g : Grid) (m : QueueJobMessage) : Grid :=
  match m.entryId with
  | none => g
  | some e => { g with queue := g.queue.acknowledge e }

def writeFiles (g : Grid) (writes : List (FileRef × PyBytes)) : Grid :=
  { g with files := writes.foldl (fun fs w => fs.write w.1 w.2) g.files }

section Acknowledge
variable (g : Grid) (m : QueueJobMessage)

@[simp] theorem db_acknowledge : (g.acknowledge m).db = g.db := by
  unfold acknowledge
  split <;> rfl

@[simp] theorem files_acknowledge : (g.acknowledge m).files = g.files := by
  unfold acknowledge
  split <;> rfl

theorem rowLocks_acknowledge : (g.acknowledge m).rowLocks = g.rowLocks := by
  unfold acknowledge
  split <;> rfl

theorem log_acknowledge : (g.acknowledge m).queue.jobs.log = g.queue.jobs.log := by
  unfold acknowledge
  split <;> rfl

theorem dlq_acknowledge : (g.acknowledge m).queue.dlq = g.queue.dlq := by
  unfold acknowledge
  split <;> rfl

theorem pending_acknowledge : (g.acknowledge m).queue.jobs.pending =
    g.queue.jobs.pending.filter fun p => m.entryId ≠ some p.entryId := by
  unfold acknowledge
  split
  next h => simp [h]
  next e h =>
    rw [h]
    simp only [RedisStreamsQueue.jobs_acknowledge, ConsumerGroup.ack, ne_eq, Option.some.injEq,
      eq_comm (a := e)]

end Acknowledge
end Grid

/-- How the coroutine of the job ends, once its exceptions are sorted by the `except` clauses. -/
inductive RunOutcome where
  | success (result : Dict)
  | transientError (errorClass : String)
  | policyError (errorClass : String)
  | timedOut
  | cancelled
  /-- An exception no clause handles. -/
  | raised (errorClass : String)

inductive HandledError where
  | transient (errorClass : String)
  | policy (errorClass : String)
  | timedOut
  | cancelled
  deriving DecidableEq, Repr

/-- The branches of the dispatch transaction that return without a running event. -/
inductive DispatchExit where
  | missing
  | terminal
  | budgetBlocked (job : JobRecord) (exc : BudgetPolicyError)

inductive WorkerState where
  /-- The entry is leased and the dispatch transaction not begun. -/
  | leased (m : QueueJobMessage)
  /-- Inside the open dispatch transaction, before and after the acknowledgement. -/
  | dispatchAck (m : QueueJobMessage) (exit : DispatchExit)
  | dispatchCommit (m : QueueJobMessage) (exit : DispatchExit)
  | executing (m : QueueJobMessage) (job : JobRecord)
  | handling (m : QueueJobMessage) (job : JobRecord) (error : HandledError)
  | retryPublish (m : QueueJobMessage) (job : JobRecord) (nextAttemptNumber : ℤ)
  | writingArtifact (m : QueueJobMessage) (job : JobRecord) (result : Dict)
  | crossLinking (m : QueueJobMessage) (job : JobRecord) (result : Dict)
      (metadata : ArtifactMetadata) (evalResultPath : PyStr)
  | completing (m : QueueJobMessage) (job : JobRecord) (result : JobResult)
  | acknowledging (m : QueueJobMessage)
  | returned (processed : Bool)
  | raised (errorClass : String)

namespace WorkerState

/-- The entry whose lease the heartbeat task renews in this state. -/
def heartbeat : WorkerState → Option EntryId
  | .executing m _ | .handling m _ _ | .retryPublish m _ _ | .writingArtifact m _ _
  | .crossLinking m _ _ _ _ | .completing m _ _ | .acknowledging m => m.entryId
  | _ => none

/-- The job row the open transaction of this state has locked. -/
def lockedRow : WorkerState → Option JobId
  | .dispatchAck m .terminal | .dispatchCommit m .terminal => some m.jobId
  | .dispatchAck m (.budgetBlocked _ _) | .dispatchCommit m (.budgetBlocked _ _) => some m.jobId
  | _ => none

end WorkerState

/-- The fields of `Worker` its methods read. -/
structure Worker where
  workerId : String
  budgetPolicy : BudgetPolicy
  hasArtifactStore : Bool

/-- The message of a job's attempt, before it is in the stream. -/
def JobRecord.message (job : JobRecord) (attemptNumber : ℤ) : QueueJobMessage where
  jobId := job.id
  runId := job.runId
  attemptNumber := attemptNumber
  traceId := job.traceId
  entryId := none

theorem JobRecord.SameJob.message_eq {job row : JobRecord} (h : job.SameJob row) (n : ℤ) :
    row.message n = job.message n := by
  rw [h]
  rfl

namespace Worker
variable (w : Worker) (g : Grid)

/-- `process_one` up to the answer of `lease_jobs`. -/
def leaseOne : Grid × WorkerState :=
  match g.queue.leaseJobs w.workerId with
  | none => (g, .returned false)
  | some (none, q) => ({ g with queue := q }, .raised "ValueError")
  | some (some m, q) => ({ g with queue := q }, .leased m)

/-- The dispatch transaction of `_process_message` up to its commit or its first acknowledgement.
The `SELECT ... FOR UPDATE` waits while the row is locked. -/
def dispatch (m : QueueJobMessage) : Option (Grid × WorkerState) :=
  if g.rowLocked m.jobId then none
  else match g.db.loadJob m.jobId with
    | none => some (g, .dispatchAck m .missing)
    | some job =>
      if job.status.terminal then some (g.lockRow m.jobId, .dispatchAck m .terminal)
      else match w.budgetPolicy.validateJobDispatch job with
        | .error exc => some (g.lockRow m.jobId, .dispatchAck m (.budgetBlocked job exc))
        | .ok () => some (g.commit (g.db.recordRunning job w.workerId m.attemptNumber)
            (.raised "IntegrityError") (.executing m job))

def dispatchEnd (m : QueueJobMessage) : DispatchExit → Grid × WorkerState
  | .missing => (g, .returned true)
  | .terminal => (g.unlockRow m.jobId, .returned true)
  | .budgetBlocked job exc => (g.unlockRow m.jobId).commit
      ((g.db.recordBudgetBlocked job w.workerId m.attemptNumber exc).map Prod.snd)
      (.raised "IntegrityError") (.returned true)

/-- What follows `run_with_timeout`. -/
def afterRun (m : QueueJobMessage) (job : JobRecord) : RunOutcome → WorkerState
  | .success result =>
      if w.hasArtifactStore then .writingArtifact m job result else .completing m job ⟨result, none⟩
  | .transientError c => .handling m job (.transient c)
  | .policyError c => .handling m job (.policy c)
  | .timedOut => .handling m job .timedOut
  | .cancelled => .handling m job .cancelled
  | .raised c => .raised c

/-- The transaction of `_handle_transient_error`. -/
def handleTransientError (m : QueueJobMessage) (job : JobRecord) (errorClass : String) :
    Grid × WorkerState :=
  if m.attemptNumber ≤ job.maxRetries then
    let nextAttemptNumber := m.attemptNumber + 1
    match w.budgetPolicy.validateRetry nextAttemptNumber with
    | .error exc => g.commit
        ((g.db.recordBudgetBlocked job w.workerId m.attemptNumber exc).map Prod.snd)
        (.raised "IntegrityError") (.acknowledging m)
    | .ok () => g.commit
        (g.db.recordRetryScheduled job w.workerId m.attemptNumber nextAttemptNumber errorClass)
        (.raised "IntegrityError") (.retryPublish m job nextAttemptNumber)
  else g.commit
    ((g.db.recordFailed job w.workerId m.attemptNumber errorClass true).map Prod.snd)
    (.raised "IntegrityError") (.acknowledging m)

def handlePolicyError (m : QueueJobMessage) (job : JobRecord) (errorClass : String) :
    Grid × WorkerState :=
  g.commit ((g.db.recordFailed job w.workerId m.attemptNumber errorClass false).map Prod.snd)
    (.raised "IntegrityError") (.acknowledging m)

def handleTimeout (m : QueueJobMessage) (job : JobRecord) : Grid × WorkerState :=
  g.commit ((g.db.recordTimedOut job w.workerId m.attemptNumber).map Prod.snd)
    (.raised "IntegrityError") (.acknowledging m)

def handleCancellation (m : QueueJobMessage) (job : JobRecord) : Grid × WorkerState :=
  g.commit ((g.db.recordCancelled job w.workerId m.attemptNumber "running").map Prod.snd)
    (.raised "IntegrityError") (.acknowledging m)

def handle (m : QueueJobMessage) (job : JobRecord) : HandledError → Grid × WorkerState
  | .transient c => w.handleTransientError g m job c
  | .policy c => w.handlePolicyError g m job c
  | .timedOut => w.handleTimeout g m job
  | .cancelled => w.handleCancellation g m job

/-- `write_stub_job_artifact` up to `write_bytes`; `now` is the text of `datetime.now(UTC)`. -/
def writeArtifact (env : Env) (now : String) (m : QueueJobMessage) (job : JobRecord)
    (result : Dict) : Grid × WorkerState :=
  match encodeStubJobArtifact env job w.workerId m.attemptNumber now result with
  | .error c => (g, .raised c)
  | .ok (metadata, bytes) =>
    let g' := g.writeFiles [(metadata.path, bytes)]
    match metadata.evalResultPath with
    | none => (g', .completing m job ⟨result, some metadata⟩)
    | some p => (g', .crossLinking m job result metadata p)

/-- The rest of `write_stub_job_artifact`. -/
def crossLink (env : Env) (m : QueueJobMessage) (job : JobRecord) (result : Dict)
    (metadata : ArtifactMetadata) (evalResultPath : PyStr) : Grid × WorkerState :=
  let payload := ((artifactPayload result).toOption.bind id).getD []
  match upsertEvalResultCrossLink env g.files evalResultPath metadata payload with
  | .error c => (g, .raised c)
  | .ok bytes => (g.writeFiles [(env.resolve evalResultPath, bytes)],
      .completing m job ⟨result, some metadata⟩)

/-- The completion transaction; a result a `jsonb` column does not accept is a `DataError`. -/
def complete (m : QueueJobMessage) (job : JobRecord) (result : JobResult) : Grid × WorkerState :=
  if jsonbStorable (.obj result.fields) then
    g.commit ((g.db.recordCompleted job w.workerId m.attemptNumber result).map Prod.snd)
      (.raised "IntegrityError") (.acknowledging m)
  else (g, .raised "DataError")

/-- The next step of a call to `process_one`, the end of the job's coroutine apart. A write to a
job waits while another transaction has its row locked. -/
def advance (env : Env) (now : String) : WorkerState → Option (Grid × WorkerState)
  | .leased m => w.dispatch g m
  | .dispatchAck m exit => some (g.acknowledge m, .dispatchCommit m exit)
  | .dispatchCommit m exit => some (w.dispatchEnd g m exit)
  | .executing _ _ => none
  | .handling m job error =>
      if g.rowLocked job.id then none else some (w.handle g m job error)
  | .retryPublish m job n => some ({ g with
      queue := g.queue.publishJob (job.message n) m.entryId }, .acknowledging m)
  | .writingArtifact m job result => some (w.writeArtifact g env now m job result)
  | .crossLinking m job result metadata p => some (crossLink g env m job result metadata p)
  | .completing m job result =>
      if g.rowLocked job.id then none else some (w.complete g m job result)
  | .acknowledging m => some (g.acknowledge m, .returned true)
  | .returned _ => none
  | .raised _ => none

end Worker
end AgentRuntimeGrid
