import AgentRuntimeGrid.Lib.Interleaving
import AgentRuntimeGrid.Storage.Repositories
import AgentRuntimeGrid.Worker.Recovery

/-! The whole deployment: any number of actors, each of which submits, publishes and cancels
jobs, runs `process_one` or runs `recover_stale_leases`, and can die at any point. -/
namespace AgentRuntimeGrid

inductive ActorState where
  | idle
  | worker (st : WorkerState)
  | recovery (st : RecoveryState)

inductive Action where
  /-- `create_job` of a client; a submission that another one overtakes leaves the database as
  the call made after it does. -/
  | createJob (s : JobSubmission)
  /-- A client publishes a message of a job it has created. -/
  | publishJob (j : JobId) (attemptNumber : ℤ)
  | cancelQueuedJob (j : JobId)
  | processOne
  | recoverStaleLeases (idle : EntryId → ℕ) (staleAfterMs count : ℕ)
  /-- The next step of the call the actor is in, at the given time of day. -/
  | advance (now : String)
  /-- The job's coroutine ends, having written the given files. -/
  | run (writes : List (FileRef × PyBytes)) (outcome : RunOutcome)
  | renewLease
  /-- The call is over and the actor is free again. -/
  | finish
  /-- The process dies or the call is torn down by a failed command: the transaction in progress
  is rolled back. -/
  | crash

structure Deployment where
  env : Env
  worker : ℕ → Worker

namespace ActorState

def lockedRow : ActorState → Option JobId
  | .worker st => st.lockedRow
  | _ => none

def Finished : ActorState → Prop
  | .worker (.returned _) | .worker (.raised _) => True
  | .recovery (.returned _) | .recovery (.raised _) => True
  | _ => False

end ActorState

def Grid.rollback (g : Grid) (l : ActorState) : Grid :=
  match l.lockedRow with
  | none => g
  | some j => g.unlockRow j

/-- `cancel_queued_job` on the row of a job, in a transaction of its own. -/
def Grid.cancelQueuedJob (g : Grid) (workerId : String) (j : JobId) : Option Grid :=
  if g.rowLocked j then none
  else (g.db.loadJob j).bind fun job =>
    (g.db.cancelQueuedJob job workerId).map fun r => { g with db := r.2 }

namespace Deployment

def localStep (cfg : Deployment) (i : ℕ) (g : Grid) (l : ActorState) (a : Action) :
    Option (Grid × ActorState) :=
  match l, a with
  | l, .crash => some (g.rollback l, .idle)
  | .idle, .createJob s => some ({ g with db := (g.db.createJob cfg.env s).2 }, .idle)
  | .idle, .publishJob j n => (g.db.loadJob j).map fun job =>
      ({ g with queue := g.queue.publishJob (job.message n) none }, .idle)
  | .idle, .cancelQueuedJob j =>
      (g.cancelQueuedJob (cfg.worker i).workerId j).map fun g => (g, .idle)
  | .idle, .processOne =>
      let r := (cfg.worker i).leaseOne g
      some (r.1, .worker r.2)
  | .idle, .recoverStaleLeases idle staleAfterMs count =>
      some (g, .recovery (Recovery.find g idle staleAfterMs count))
  | .worker st, .advance now =>
      ((cfg.worker i).advance g cfg.env now st).map fun r => (r.1, .worker r.2)
  | .worker (.executing m job), .run writes outcome =>
      some (g.writeFiles writes, .worker ((cfg.worker i).afterRun m job outcome))
  | .worker st, .renewLease => st.heartbeat.map fun e =>
      ({ g with queue := g.queue.renewPendingLease e (cfg.worker i).workerId }, .worker st)
  | .worker (.returned _), .finish => some (g, .idle)
  | .worker (.raised _), .finish => some (g, .idle)
  | .recovery st, .advance _ =>
      (Recovery.advance (cfg.worker i).workerId g st).map fun r => (r.1, .recovery r.2)
  | .recovery (.returned _), .finish => some (g, .idle)
  | .recovery (.raised _), .finish => some (g, .idle)
  | _, _ => none

abbrev State := Actors ℕ Grid ActorState

/-- The deployment started with nothing stored and every actor idle. -/
def lts (cfg : Deployment) : Lts State (ℕ × Action) :=
  Actors.lts cfg.localStep ⟨.empty, fun _ => .idle⟩

end Deployment

/-- Library behaviour enough for runs on the empty payload. -/
def sampleEnv : Env where
  sha256 data := if data = [123, 125] then
      "44136fa355b3678a1146ad16f7e8649e94fb4fc21fe77e8310c060f61caaff8a" else ""
  floatRepr _ := py "0.0"
  strOther _ := py "None"
  jsonLoads _ := .ok (.obj [])
  resolve _ := .other ""
  floatRepr_ascii _ := by decide
  strOther_storable _ := by decide
  jsonLoads_dumps := emptyObject_read

/-- Workers in stub mode that keep no artifacts. -/
def stubDeployment : Deployment where
  env := sampleEnv
  worker i := ⟨"worker-" ++ toString i, .stub 2, false⟩

def stubSubmission : JobSubmission where
  jobType := "stub"
  payload := []
  idempotencyKey := "key"
  timeoutSeconds := 30
  maxRetries := 1
  traceId := "trace"
  budgetCents := none
  jobId := 1
  runId := 2

end AgentRuntimeGrid
