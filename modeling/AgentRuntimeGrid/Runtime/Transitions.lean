import AgentRuntimeGrid.Runtime.System
import AgentRuntimeGrid.Storage.JobHistory
import AgentRuntimeGrid.Worker.Transitions

/-! Everything one step of the deployment can do, and the part of it the database sees. -/
namespace AgentRuntimeGrid

/-- One step of actor `i`. -/
inductive Transition (cfg : Deployment) (i : ℕ) (g : Grid) :
    ActorState → Action → Grid → ActorState → Prop where
  | crash {l : ActorState} : Transition cfg i g l .crash (g.rollback l) .idle
  | createJob {s : JobSubmission} :
      Transition cfg i g .idle (.createJob s) { g with db := (g.db.createJob cfg.env s).2 } .idle
  | publishJob {j : JobId} {n : ℤ} {job : JobRecord} (hjob : g.db.loadJob j = some job) :
      Transition cfg i g .idle (.publishJob j n)
        { g with queue := g.queue.publishJob (job.message n) none } .idle
  | cancelQueuedJob {j : JobId} {job : JobRecord} {r : FinalizationResult} {db : Database}
      (hjob : g.db.loadJob j = some job)
      (hdb : g.db.cancelQueuedJob job (cfg.worker i).workerId = some (r, db)) :
      Transition cfg i g .idle (.cancelQueuedJob j) { g with db := db } .idle
  | leaseNone (hqueue : g.queue.leaseJobs (cfg.worker i).workerId = none) :
      Transition cfg i g .idle .processOne g (.worker (.returned false))
  | lease {entry : StreamEntry} {jobs : ConsumerGroup StreamEntry}
      (hdeliver : g.queue.jobs.deliver (cfg.worker i).workerId =
        some (g.queue.jobs.delivered, entry, jobs)) :
      Transition cfg i g .idle .processOne { g with queue := { g.queue with jobs := jobs } }
        (.worker (.leased { entry.message with entryId := some g.queue.jobs.delivered }))
  | recover {idle : EntryId → ℕ} {staleAfterMs count : ℕ} :
      Transition cfg i g .idle (.recoverStaleLeases idle staleAfterMs count) g
        (.recovery (Recovery.find g idle staleAfterMs count))
  | worker {st st' : WorkerState} {now : String} {g' : Grid}
      (h : WorkerTransition (cfg.worker i) cfg.env g st g' st') :
      Transition cfg i g (.worker st) (.advance now) g' (.worker st')
  | run {m : QueueJobMessage} {job : JobRecord} {writes : List (FileRef × PyBytes)}
      {outcome : RunOutcome} :
      Transition cfg i g (.worker (.executing m job)) (.run writes outcome) (g.writeFiles writes)
        (.worker ((cfg.worker i).afterRun m job outcome))
  | renewLease {st : WorkerState} {e : EntryId} (he : st.heartbeat = some e) :
      Transition cfg i g (.worker st) .renewLease
        { g with queue := g.queue.renewPendingLease e (cfg.worker i).workerId } (.worker st)
  | recovery {st st' : RecoveryState} {now : String} {g' : Grid}
      (h : RecoveryTransition (cfg.worker i).workerId g st g' st') :
      Transition cfg i g (.recovery st) (.advance now) g' (.recovery st')
  | finish {l : ActorState} (hl : l.Finished) : Transition cfg i g l .finish g .idle

namespace Deployment
variable {cfg : Deployment} {i : ℕ} {g g' : Grid} {l l' : ActorState} {a : Action}

private theorem processOne_transition :
    Transition cfg i g .idle .processOne ((cfg.worker i).leaseOne g).1
      (.worker ((cfg.worker i).leaseOne g).2) := by
  unfold Worker.leaseOne
  cases hq : g.queue.leaseJobs (cfg.worker i).workerId with
  | none => exact .leaseNone hq
  | some r =>
    obtain ⟨m, q⟩ := r
    obtain ⟨entry, jobs, hd, rfl, rfl⟩ := RedisStreamsQueue.leaseJobs_spec hq
    exact .lease hd

private theorem cancel_transition {j : JobId}
    (h : g.cancelQueuedJob (cfg.worker i).workerId j = some g') :
    Transition cfg i g .idle (.cancelQueuedJob j) g' .idle := by
  unfold Grid.cancelQueuedJob at h
  split at h
  · cases h
  · obtain ⟨job, hjob, h⟩ := Option.bind_eq_some_iff.mp h
    obtain ⟨⟨r, db⟩, hdb, rfl⟩ := Option.map_eq_some_iff.mp h
    exact .cancelQueuedJob hjob hdb

theorem localStep_transition (h : cfg.localStep i g l a = some (g', l')) :
    Transition cfg i g l a g' l' := by
  unfold localStep at h
  split at h
  · cases h
    exact .crash
  · cases h
    exact .createJob
  · obtain ⟨job, hjob, heq⟩ := Option.map_eq_some_iff.mp h
    cases heq
    exact .publishJob hjob
  · obtain ⟨g₁, hg, heq⟩ := Option.map_eq_some_iff.mp h
    cases heq
    exact cancel_transition hg
  · cases h
    exact processOne_transition
  · cases h
    exact .recover
  · obtain ⟨⟨g₁, st'⟩, hst, heq⟩ := Option.map_eq_some_iff.mp h
    cases heq
    exact .worker (Worker.advance_transition hst)
  · cases h
    exact .run
  · obtain ⟨e, he, heq⟩ := Option.map_eq_some_iff.mp h
    cases heq
    exact .renewLease he
  · cases h
    exact .finish trivial
  · cases h
    exact .finish trivial
  · obtain ⟨⟨g₁, st'⟩, hst, heq⟩ := Option.map_eq_some_iff.mp h
    cases heq
    exact .recovery (Recovery.advance_transition hst)
  · cases h
    exact .finish trivial
  · cases h
    exact .finish trivial
  · cases h

theorem step_transition {s t : State} {a : ℕ × Action} (h : cfg.lts.step s a = some t) :
    ∃ g' l', Transition cfg a.1 s.shared (s.locals a.1) a.2 g' l' ∧
      t = ⟨g', Function.update s.locals a.1 l'⟩ := by
  obtain ⟨g', l', hs, rfl⟩ := Actors.globalStep_eq_some.mp h
  exact ⟨g', l', localStep_transition hs, rfl⟩

end Deployment

@[simp] theorem Grid.db_rollback (g : Grid) (l : ActorState) : (g.rollback l).db = g.db := by
  unfold Grid.rollback
  split <;> rfl

@[simp] theorem Grid.queue_rollback (g : Grid) (l : ActorState) :
    (g.rollback l).queue = g.queue := by
  unfold Grid.rollback
  split <;> rfl

@[simp] theorem Grid.files_rollback (g : Grid) (l : ActorState) :
    (g.rollback l).files = g.files := by
  unfold Grid.rollback
  split <;> rfl

/-- What is known of the database when a scheduled retry is written. -/
def RetryGuard (cfg : Deployment) (i : ℕ) (g : Grid) (l : ActorState) (a : Action)
    (G : Database → JobId → Prop) : Prop :=
  ∀ m job c now, l = .worker (.handling m job (.transient c)) → a = .advance now →
    m.attemptNumber ≤ job.maxRetries →
    (cfg.worker i).budgetPolicy.validateRetry (m.attemptNumber + 1) = .ok () → G g.db job.id

theorem Transition.dbStep {cfg : Deployment} {i : ℕ} {g g' : Grid} {l l' : ActorState}
    {a : Action} {G : Database → JobId → Prop} (h : Transition cfg i g l a g' l')
    (hG : RetryGuard cfg i g l a G) : DbStep G g.db g'.db := by
  cases h with
  | crash => simpa using .same
  | @createJob s =>
    obtain h | ⟨row, db', hdb, hstatus, hretries, h⟩ := Database.createJob_cases g.db cfg.env s
    · simpa only [h] using .same
    · simpa only [h] using .created hdb hstatus hretries
  | cancelQueuedJob _ hdb => exact @DbStep.finalized G _ _ .cancelled _ _ _ hdb
  | worker h =>
    cases h with
    | dispatchRunning hjob hopen _ hdb =>
      have hid := Database.id_of_loadJob hjob
      exact .lifecycle (hid ▸ hjob) (.inl rfl) (.inr hopen) hdb
    | retryScheduled hretries hbudget hdb =>
      obtain ⟨⟨row, hrow⟩, -⟩ := Database.recordStateEvent_eq_some hdb
      exact .lifecycle hrow (.inr (.inl rfl)) (.inl (hG _ _ _ _ rfl rfl hretries hbudget)) hdb
    | blockedCommits hdb => exact @DbStep.finalized G _ _ .budgetBlocked _ _ _ hdb
    | handled _ hdb => exact .finalized hdb
    | completed hdb => exact @DbStep.finalized G _ _ .completed _ _ _ hdb
    | dispatchAck | acknowledged => simpa using .same
    | _ => exact .same
  | recovery h =>
    cases h with
    | planRequeue hjob hopen _ hdb =>
      have hid := Database.id_of_loadJob hjob
      exact .lifecycle (hid ▸ hjob) (.inr (.inr rfl)) (.inr hopen) hdb
    | planDlq _ _ _ hdb => exact @DbStep.finalized G _ _ .failed _ _ _ hdb
    | acknowledged => simpa using .same
    | _ => exact .same
  | _ => exact .same

/-- Which events a step can write, and what the writer has seen when it does. -/
inductive EventWrite (cfg : Deployment) (i : ℕ) (g : Grid) : ActorState → JobEvent → Prop where
  | running {m : QueueJobMessage} {job : JobRecord} (hjob : g.db.loadJob m.jobId = some job)
      (hopen : job.status.terminal = false)
      (hbudget : (cfg.worker i).budgetPolicy.validateJobDispatch job = .ok ()) :
      EventWrite cfg i g (.worker (.leased m)) ⟨job.id, job.runId, .running,
        .running (cfg.worker i).workerId m.attemptNumber, job.traceId⟩
  | completed {m : QueueJobMessage} {job : JobRecord} {result : JobResult} :
      EventWrite cfg i g (.worker (.completing m job result)) ⟨job.id, job.runId, .completed,
        .completed (cfg.worker i).workerId m.attemptNumber result, job.traceId⟩
  | other {l : ActorState} {e : JobEvent} (htype : e.eventType ≠ .running)
      (hartifact : e.eventData.artifact = none) : EventWrite cfg i g l e

theorem Transition.jobEvents {cfg : Deployment} {i : ℕ} {g g' : Grid} {l l' : ActorState}
    {a : Action} (h : Transition cfg i g l a g' l') :
    g'.db.jobEvents = g.db.jobEvents ∨
      ∃ e, EventWrite cfg i g l e ∧ g'.db.jobEvents = g.db.jobEvents ++ [e] := by
  have lifecycle : ∀ (eventType : EventType) {eventData : EventData} {job : JobRecord}
      {status : JobStatus} {db : Database},
      g.db.recordStateEvent job status eventType eventData = some db →
      EventWrite cfg i g l ⟨job.id, job.runId, eventType, eventData, job.traceId⟩ →
      db.jobEvents = g.db.jobEvents ∨
        ∃ e, EventWrite cfg i g l e ∧ db.jobEvents = g.db.jobEvents ++ [e] := by
    intro eventType eventData job status db hdb hwrite
    obtain ⟨-, rfl⟩ := Database.recordStateEvent_eq_some hdb
    exact .inr ⟨_, hwrite, rfl⟩
  have finalized : ∀ (eventType : EventType) {eventData : EventData} {job : JobRecord}
      {status : JobStatus} {r : FinalizationResult} {db : Database},
      g.db.finalizeJob job status eventType eventData = some (r, db) →
      EventWrite cfg i g l ⟨job.id, job.runId, eventType, eventData, job.traceId⟩ →
      db.jobEvents = g.db.jobEvents ∨
        ∃ e, EventWrite cfg i g l e ∧ db.jobEvents = g.db.jobEvents ++ [e] := by
    intro eventType eventData job status r db hdb hwrite
    exact (Database.jobEvents_of_finalizeJob hdb).imp id fun h => ⟨_, hwrite, h⟩
  cases h with
  | crash => simp
  | @createJob s =>
    obtain h | ⟨row, db', hdb, -, -, h⟩ := Database.createJob_cases g.db cfg.env s
    · exact .inl (congrArg Database.jobEvents h)
    · obtain ⟨jobs, -, rfl⟩ := Database.insertJob_eq_ok hdb
      refine .inr ⟨submittedEvent row, .other (by simp [submittedEvent]) rfl, ?_⟩
      rw [h]
      rfl
  | @cancelQueuedJob j job r db _ hdb =>
    have hdb : g.db.recordCancelled job (cfg.worker i).workerId 0 "queued" = some (r, db) := hdb
    exact finalized .cancelled hdb (.other (by simp) rfl)
  | worker h =>
    cases h with
    | dispatchRunning hjob hopen hbudget hdb =>
      exact lifecycle .running hdb (.running hjob hopen hbudget)
    | retryScheduled _ _ hdb => exact lifecycle .retryScheduled hdb (.other (by simp) rfl)
    | blockedCommits hdb => exact finalized .budgetBlocked hdb (.other (by simp) rfl)
    | @handled _ _ _ eventType _ _ _ hartifact hdb =>
      refine finalized eventType hdb (.other ?_ hartifact)
      rintro rfl
      exact absurd (Database.finalizeJob_cases hdb).1 (by decide)
    | completed hdb => exact finalized .completed hdb .completed
    | dispatchAck | acknowledged => simp
    | _ => exact .inl rfl
  | recovery h =>
    cases h with
    | planRequeue _ _ _ hdb => exact lifecycle .staleLeaseRecovered hdb (.other (by simp) rfl)
    | planDlq _ _ _ hdb => exact finalized .failed hdb (.other (by simp) rfl)
    | acknowledged => simp
    | _ => exact .inl rfl
  | _ => exact .inl rfl

end AgentRuntimeGrid
