import AgentRuntimeGrid.Runtime.Attempts
import AgentRuntimeGrid.Runtime.Writes
import AgentRuntimeGrid.Lib.Promises

/-! What the event log accounts for. A retry is recorded before its message is published, and a
worker records an attempt as running before it records how the attempt ended. -/
namespace AgentRuntimeGrid

namespace ActorState

/-- The attempt whose retry the actor has recorded and not yet published. -/
def promise : ActorState → Option (JobId × ℤ)
  | .worker (.retryPublish _ job n) => some (job.id, n)
  | .recovery (.publishing _ message _ _) => some (message.jobId, message.attemptNumber)
  | _ => none

/-- The message of the attempt the worker has recorded as running and has not answered for. -/
def running : ActorState → Option QueueJobMessage
  | .worker (.executing m _) | .worker (.handling m _ _) | .worker (.writingArtifact m _ _)
  | .worker (.crossLinking m _ _ _ _) | .worker (.completing m _ _) => some m
  | _ => none

/-- The actor has ended the job it had in hand. -/
def Decided : ActorState → Prop
  | .idle | .worker (.acknowledging _) | .worker (.returned _)
  | .recovery (.deadLettering _ _ _) => True
  | _ => False

theorem Decided.holds_none {l : ActorState} (h : l.Decided) :
    l.promise = none ∧ l.running = none := by
  cases l with
  | idle => exact ⟨rfl, rfl⟩
  | worker st => cases st <;> first | exact ⟨rfl, rfl⟩ | cases h
  | recovery st => cases st <;> first | exact ⟨rfl, rfl⟩ | cases h

/-- The actor goes on without a new promise or attempt. -/
structure GoesOn (l l' : ActorState) : Prop where
  promise : ∀ p, l'.promise = some p → l.promise = some p
  running : ∀ m, l'.running = some m → l.running = some m

end ActorState

/-- The event a step appends to the log, with where its actor is before and after. -/
inductive Appends (cfg : Deployment) (i : ℕ) (g : Grid) :
    ActorState → Action → ActorState → JobEvent → Prop where
  | submitted {s : JobSubmission} {row : JobRecord} (hnew : g.db.loadJob row.id = none) :
      Appends cfg i g .idle (.createJob s) .idle (submittedEvent row)
  | running {m : QueueJobMessage} {job : JobRecord} {now : String}
      (hjob : g.db.loadJob m.jobId = some job) (hopen : job.status.terminal = false) :
      Appends cfg i g (.worker (.leased m)) (.advance now) (.worker (.executing m job))
        ⟨job.id, job.runId, .running, .running (cfg.worker i).workerId m.attemptNumber,
          job.traceId⟩
  | retryScheduled {m : QueueJobMessage} {job : JobRecord} {c now : String} :
      Appends cfg i g (.worker (.handling m job (.transient c))) (.advance now)
        (.worker (.retryPublish m job (m.attemptNumber + 1)))
        ⟨job.id, job.runId, .retryScheduled, .retryScheduled (cfg.worker i).workerId
          m.attemptNumber (m.attemptNumber + 1) c true, job.traceId⟩
  | staleLeaseRecovered {lease : StaleLease} {rest : List StaleLease}
      {result : StaleLeaseRecoveryResult} {job : JobRecord} {now : String}
      (hjob : g.db.loadJob lease.message.jobId = some job) (hopen : job.status.terminal = false) :
      Appends cfg i g (.recovery (.planning (lease :: rest) result)) (.advance now)
        (.recovery (.publishing lease (job.message (lease.message.attemptNumber + 1)) rest
          result))
        ⟨job.id, job.runId, .staleLeaseRecovered, .staleLeaseRecovered (cfg.worker i).workerId
          lease.consumerName lease.message.entryId lease.idleMs lease.deliveryCount
          lease.message.attemptNumber (lease.message.attemptNumber + 1)
          Database.staleLeaseErrorClass true, job.traceId⟩
  | terminal {l l' : ActorState} {a : Action} {job : JobRecord} {eventType : EventType}
      {eventData : EventData} (h : TerminalEvent cfg i g l a job eventType eventData)
      (hl' : l'.Decided) :
      Appends cfg i g l a l' ⟨job.id, job.runId, eventType, eventData, job.traceId⟩

/-- A step appends nothing and makes no promise, or it appends one event. -/
def Journaled (cfg : Deployment) (i : ℕ) (g g' : Grid) (l : ActorState) (a : Action)
    (l' : ActorState) : Prop :=
  (g'.db.jobEvents = g.db.jobEvents ∧ l.GoesOn l') ∨
    ∃ e, Appends cfg i g l a l' e ∧ g'.db.jobEvents = g.db.jobEvents ++ [e]

variable {cfg : Deployment} {i : ℕ} {g g' : Grid} {l l' : ActorState} {a : Action}

theorem ActorState.goesOn_of_none (hpromise : l'.promise = none) (hrunning : l'.running = none) :
    l.GoesOn l' := by
  constructor
  · intro p h
    cases hpromise.symm.trans h
  · intro m h
    cases hrunning.symm.trans h

/-- A worker goes on with the attempt it is at. -/
theorem ActorState.goesOn_of_running (hpromise : l'.promise = none)
    (hrunning : l'.running = l.running) : l.GoesOn l' := by
  constructor
  · intro p h
    cases hpromise.symm.trans h
  · intro m h
    exact hrunning ▸ h

/-- A terminal write appends its event or finds the job finalized. -/
private theorem journaled_of_finalizeJob {job : JobRecord} {eventType : EventType}
    {eventData : EventData} {r : FinalizationResult} {db : Database}
    (h : TerminalEvent cfg i g l a job eventType eventData)
    (hdb : g.db.finalizeJob job eventType.status eventType eventData = some (r, db))
    (hg' : g'.db = db) (hl' : l'.Decided) : Journaled cfg i g g' l a l' := by
  rcases Database.jobEvents_of_finalizeJob hdb with heq | heq
  · exact .inl ⟨hg' ▸ heq, ActorState.goesOn_of_none hl'.holds_none.1 hl'.holds_none.2⟩
  · exact .inr ⟨_, .terminal h hl', hg' ▸ heq⟩

private theorem handle_journaled {m : QueueJobMessage} {job : JobRecord} {error : HandledError}
    {now : String} {st : WorkerState} (h : (cfg.worker i).handle g m job error = (g', st)) :
    Journaled cfg i g g' (.worker (.handling m job error)) (.advance now) (.worker st) := by
  have finalized : ∀ {eventType : EventType} {eventData : EventData},
      (cfg.worker i).Handles m job error eventType eventData →
      g.commit ((g.db.finalizeJob job eventType.status eventType eventData).map Prod.snd)
        (WorkerState.raised "IntegrityError") (.acknowledging m) = (g', st) →
      Journaled cfg i g g' (.worker (.handling m job error)) (.advance now) (.worker st) := by
    intro eventType eventData hhandles hc
    obtain ⟨-, rfl, rfl⟩ | ⟨db, hdb, rfl, rfl⟩ := Grid.commit_cases hc
    · exact .inl ⟨rfl, ActorState.goesOn_of_none rfl rfl⟩
    · obtain ⟨r, hr⟩ := map_snd_eq_some hdb
      exact journaled_of_finalizeJob (.handled hhandles) hr rfl trivial
  cases error with
  | transient c =>
    change (cfg.worker i).handleTransientError g m job c = _ at h
    unfold Worker.handleTransientError at h
    split at h
    next hretries =>
      simp only at h
      split at h
      next exc hexc => exact finalized (.budgetBlocked hretries hexc) h
      next hbudget =>
        obtain ⟨-, rfl, rfl⟩ | ⟨db, hdb, rfl, rfl⟩ := Grid.commit_cases h
        · exact .inl ⟨rfl, ActorState.goesOn_of_none rfl rfl⟩
        · obtain ⟨-, rfl⟩ := Database.recordStateEvent_eq_some hdb
          exact .inr ⟨_, .retryScheduled, rfl⟩
    next hretries => exact finalized (.exhausted (not_le.mp hretries)) h
  | policy c => exact finalized .policy h
  | timedOut => exact finalized .timedOut h
  | cancelled => exact finalized .cancelled h

theorem Worker.goesOn_afterRun (w : Worker) (m : QueueJobMessage) (job : JobRecord)
    (outcome : RunOutcome) :
    (ActorState.worker (.executing m job)).GoesOn (.worker (w.afterRun m job outcome)) := by
  cases outcome with
  | success result =>
    change ActorState.GoesOn _ (.worker (if _ then _ else _))
    split <;> exact ActorState.goesOn_of_running rfl rfl
  | raised c => exact ActorState.goesOn_of_none rfl rfl
  | _ => exact ActorState.goesOn_of_running rfl rfl

theorem Deployment.localStep_journaled (h : cfg.localStep i g l a = some (g', l')) :
    Journaled cfg i g g' l a l' := by
  have quiet : ∀ {g' : Grid} {l l' : ActorState}, g'.db = g.db → l.GoesOn l' →
      Journaled cfg i g g' l a l' := fun hdb hl => .inl ⟨congrArg Database.jobEvents hdb, hl⟩
  have rests : ∀ {g' : Grid} {l l' : ActorState}, g'.db = g.db → l'.promise = none →
      l'.running = none → Journaled cfg i g g' l a l' :=
    fun hdb hpromise hrunning => quiet hdb (ActorState.goesOn_of_none hpromise hrunning)
  cases localStep_transition h with
  | crash => exact rests (Grid.db_rollback _ _) rfl rfl
  | @createJob s =>
    obtain h | ⟨row, db', hdb, -, -, h⟩ := Database.createJob_cases g.db cfg.env s
    · exact rests h rfl rfl
    · obtain ⟨jobs, hjobs, rfl⟩ := Database.insertJob_eq_ok hdb
      exact .inr ⟨submittedEvent row, .submitted (KeyedTable.get?_of_insert_none hjobs), by
        rw [h]; rfl⟩
  | cancelQueuedJob hjob hdb =>
    exact journaled_of_finalizeJob (.cancelledQueued hjob) hdb rfl trivial
  | worker ht =>
    cases ht with
    | dispatchRunning hjob hopen _ hdb =>
      obtain ⟨-, rfl⟩ := Database.recordStateEvent_eq_some hdb
      exact .inr ⟨_, .running hjob hopen, rfl⟩
    | retryScheduled | handled | handlingRaises =>
      obtain ⟨⟨g₁, st'⟩, hst, heq⟩ := Option.map_eq_some_iff.mp h
      cases heq
      simp only [Worker.advance] at hst
      split at hst
      · cases hst
      · exact handle_journaled (Option.some.inj hst)
    | blockedCommits hdb => exact journaled_of_finalizeJob .blocked hdb rfl trivial
    | completed hdb => exact journaled_of_finalizeJob .completed hdb rfl trivial
    | dispatchAck | acknowledged => exact rests (Grid.db_acknowledge _ _) rfl rfl
    | artifactWritten _ hnext =>
      obtain rfl | ⟨p, -, rfl⟩ := hnext <;>
      exact quiet rfl (ActorState.goesOn_of_running rfl rfl)
    | crossLinked => exact quiet rfl (ActorState.goesOn_of_running rfl rfl)
    | _ => exact rests rfl rfl rfl
  | run => exact quiet rfl (Worker.goesOn_afterRun _ _ _ _)
  | renewLease => exact quiet rfl ⟨fun p h => h, fun m h => h⟩
  | recovery ht =>
    cases ht with
    | planRequeue hjob hopen _ hdb =>
      obtain ⟨-, rfl⟩ := Database.recordStateEvent_eq_some hdb
      exact .inr ⟨_, .staleLeaseRecovered hjob hopen, rfl⟩
    | planDlq hjob hopen hretries hdb =>
      exact journaled_of_finalizeJob (.leaseExhausted hjob hopen hretries) hdb rfl trivial
    | acknowledged => exact rests (Grid.db_acknowledge _ _) rfl rfl
    | _ => exact rests rfl rfl rfl
  | _ => exact rests rfl rfl rfl

/-- Who has promised a retry publishes it or dies, or keeps the promise. -/
theorem Transition.promise (h : Transition cfg i g l a g' l') {p : JobId × ℤ}
    (hp : l.promise = some p) : l'.promise = some p ∨ a = .crash ∨
      ∃ entry, Publishes g l a l' entry ∧ g'.queue.jobs.log = g.queue.jobs.log ++ [entry] := by
  cases h with
  | crash => exact .inr (.inl rfl)
  | worker h =>
    cases h with
    | retryPublish => exact .inr (.inr ⟨_, .retry, rfl⟩)
    | _ => cases hp
  | renewLease => exact .inl hp
  | recovery h =>
    cases h with
    | published => exact .inr (.inr ⟨_, .requeue, rfl⟩)
    | _ => cases hp
  | finish hl =>
    cases l with
    | worker st =>
      cases st with
      | retryPublish => cases hl
      | _ => cases hp
    | recovery st =>
      cases st with
      | publishing => cases hl
      | _ => cases hp
    | idle => cases hp
  | _ => cases hp

/-- Every message that is not a client's was promised by its publisher. -/
theorem Publishes.promise {entry : StreamEntry} (h : Publishes g l a l' entry) (hl : l.Sound g) :
    (entry.cause = none ∧ l.promise = none ∨ entry.cause.isSome = true ∧
      l.promise = some (entry.message.jobId, entry.message.attemptNumber)) ∧
    l'.promise = none := by
  cases h with
  | client => exact ⟨.inl ⟨rfl, rfl⟩, rfl⟩
  | @retry m job n =>
    obtain ⟨⟨e, entry, -, -, rfl⟩, -⟩ := hl
    exact ⟨.inr ⟨rfl, rfl⟩, rfl⟩
  | @requeue lease message rest result =>
    obtain ⟨e, entry, -, -, hm⟩ := hl.2 lease List.mem_cons_self
    refine ⟨.inr ⟨?_, rfl⟩, rfl⟩
    rw [hm]
    rfl

/-- A step does not publish and write an event at once. -/
theorem Publishes.not_appends {entry : StreamEntry} {e : JobEvent} (h : Publishes g l a l' entry)
    (happends : Appends cfg i g l a l' e) : False := by
  cases h <;> cases happends with
  | terminal hterminal => cases hterminal

theorem TerminalEvent.nextAttemptNumber {job : JobRecord} {eventType : EventType}
    {eventData : EventData} (h : TerminalEvent cfg i g l a job eventType eventData) :
    eventData.nextAttemptNumber = none ∧ l.promise = none := by
  cases h with
  | handled h => cases h <;> exact ⟨rfl, rfl⟩
  | _ => exact ⟨rfl, rfl⟩

/-- The events of a job that announce its attempt `n`. -/
def Database.retriesRecorded (db : Database) (j : JobId) (n : ℤ) : ℕ :=
  (db.eventsOf j).countP fun e => decide (e.eventData.nextAttemptNumber = some n)

/-- The messages of a job's attempt `n` that the runtime has published in place of another. -/
def Grid.retriesPublished (g : Grid) (j : JobId) (n : ℤ) : ℕ :=
  g.queue.jobs.log.countP fun entry => entry.cause.isSome &&
    decide ((entry.message.jobId, entry.message.attemptNumber) = (j, n))

def ActorState.promises (j : JobId) (n : ℤ) (l : ActorState) : Bool :=
  decide (l.promise = some (j, n))

theorem ActorState.promises_iff {j : JobId} {n : ℤ} :
    l.promises j n = true ↔ l.promise = some (j, n) := decide_eq_true_iff

theorem ActorState.promises_of_none {j : JobId} {n : ℤ} (h : l.promise = none) :
    l.promises j n = false := by
  unfold promises
  rw [h]
  rfl

theorem Database.eventsOf_of_append {db db' : Database} {e : JobEvent}
    (h : db'.jobEvents = db.jobEvents ++ [e]) (j : JobId) :
    db'.eventsOf j = db.eventsOf j ++ if e.jobId = j then [e] else [] := by
  have happend := db.eventsOf_appendEvent e j
  unfold eventsOf at happend ⊢
  rw [h]
  exact happend

theorem Database.countP_of_append {db db' : Database} {e : JobEvent}
    (h : db'.jobEvents = db.jobEvents ++ [e]) (j : JobId) (c : JobEvent → Bool) :
    (db'.eventsOf j).countP c =
      (db.eventsOf j).countP c + (decide (e.jobId = j) && c e).toNat := by
  rw [eventsOf_of_append h, List.countP_append]
  by_cases he : e.jobId = j
  · rw [if_pos he, decide_eq_true he, List.countP_singleton, Bool.true_and]
    cases c e <;> rfl
  · rw [if_neg he, decide_eq_false he, List.countP_nil, Bool.false_and, Bool.toNat_false]

theorem Database.countP_of_eq {db db' : Database} (h : db'.jobEvents = db.jobEvents) (j : JobId)
    (c : JobEvent → Bool) : (db'.eventsOf j).countP c = (db.eventsOf j).countP c := by
  unfold eventsOf
  rw [h]

/-- An event announces an attempt exactly when its actor then promises it. -/
theorem Appends.retriesRecorded {e : JobEvent} (h : Appends cfg i g l a l' e)
    (hdb : g'.db.jobEvents = g.db.jobEvents ++ [e]) (j : JobId) (n : ℤ) :
    l.promise = none ∧ g'.db.retriesRecorded j n =
      g.db.retriesRecorded j n + (l'.promises j n).toNat := by
  have hcount := Database.countP_of_append hdb j fun e =>
    decide (e.eventData.nextAttemptNumber = some n)
  have promised : ∀ {k : JobId} {m : ℤ},
      (decide (k = j) && decide (some m = some n)) = decide (some (k, m) = some (j, n)) := by
    intro k m
    rw [← Bool.decide_and]
    simp only [Option.some.injEq, Prod.mk.injEq]
  unfold Database.retriesRecorded
  rw [hcount]
  cases h with
  | submitted | running => simp [ActorState.promises, ActorState.promise, submittedEvent,
      EventData.nextAttemptNumber]
  | retryScheduled | staleLeaseRecovered =>
    exact ⟨rfl, congrArg (fun b : Bool => _ + b.toNat) promised⟩
  | terminal h hl' =>
    obtain ⟨hnext, hl⟩ := h.nextAttemptNumber
    simp [ActorState.promises, hl'.holds_none.1, hnext, hl]

namespace Deployment
variable {s t : State}

/-- No process dies that has recorded a retry and not yet published it. -/
def NoBrokenPromise (s : State) (a : ℕ × Action) : Prop :=
  a.2 = .crash → (s.locals a.1).promise = none

/-- A step balances the account of a job's retries, unless a process dies with a promise. -/
private theorem retries_balance (h : cfg.localStep i g l a = some (g', l')) (hl : l.Sound g)
    (j : JobId) (n : ℤ) :
    g'.retriesPublished j n + (l'.promises j n).toNat + g.db.retriesRecorded j n ≤
      g'.db.retriesRecorded j n + (g.retriesPublished j n + (l.promises j n).toNat) ∧
    ((a = .crash → l.promise = none) →
      g'.retriesPublished j n + (l'.promises j n).toNat + g.db.retriesRecorded j n =
        g'.db.retriesRecorded j n + (g.retriesPublished j n + (l.promises j n).toNat)) := by
  have ht := localStep_transition h
  rcases ht.log with hlog | ⟨entry, hpub, hlog⟩
  · have hpublished : g'.retriesPublished j n = g.retriesPublished j n := by
      unfold Grid.retriesPublished
      rw [hlog]
    rw [hpublished]
    rcases localStep_journaled h with ⟨hdb, hgoes⟩ | ⟨e, happends, hdb⟩
    · have hrecorded : g'.db.retriesRecorded j n = g.db.retriesRecorded j n :=
        Database.countP_of_eq hdb j _
      have hless : (l'.promises j n).toNat ≤ (l.promises j n).toNat :=
        Bool.toNat_le_toNat fun hp => ActorState.promises_iff.mpr
          (hgoes.promise _ (ActorState.promises_iff.mp hp))
      have hkept : (a = .crash → l.promise = none) →
          (l.promises j n).toNat ≤ (l'.promises j n).toNat := by
        intro hc
        refine Bool.toNat_le_toNat fun hp => ActorState.promises_iff.mpr ?_
        have hp := ActorState.promises_iff.mp hp
        rcases ht.promise hp with hp' | ha | ⟨entry, -, happend⟩
        · exact hp'
        · cases (hc ha).symm.trans hp
        · have hlength := congrArg List.length (hlog.symm.trans happend)
          rw [List.length_append, List.length_singleton] at hlength
          omega
      exact ⟨by omega, fun hc => by have := hkept hc; omega⟩
    · obtain ⟨hnone, hrecorded⟩ := happends.retriesRecorded hdb j n
      have hfalse : l.promises j n = false := ActorState.promises_of_none hnone
      rw [hrecorded, hfalse, Bool.toNat_false]
      exact ⟨by omega, fun _ => by omega⟩
  · have hrecorded : g'.db.retriesRecorded j n = g.db.retriesRecorded j n := by
      rcases localStep_journaled h with ⟨hdb, -⟩ | ⟨e, happends, -⟩
      · exact Database.countP_of_eq hdb j _
      · exact (hpub.not_appends happends).elim
    obtain ⟨hpromise, hnone⟩ := hpub.promise hl
    have hfalse : l'.promises j n = false := ActorState.promises_of_none hnone
    have hpublished : g'.retriesPublished j n =
        g.retriesPublished j n + (l.promises j n).toNat := by
      unfold Grid.retriesPublished
      rw [hlog, List.countP_append, List.countP_singleton]
      congr 1
      rcases hpromise with ⟨hcause, hl⟩ | ⟨hcause, hl⟩
      · rw [ActorState.promises_of_none hl, hcause]
        rfl
      · unfold ActorState.promises
        rw [hl, hcause, Bool.true_and]
        simp only [Option.some.injEq]
        cases decide (_ = (j, n)) <;> rfl
    rw [hrecorded, hpublished, hfalse, Bool.toNat_false]
    exact ⟨by omega, fun _ => by omega⟩

/-- In every run, the messages that the runtime has published for a job's attempt, and the actors
about to publish one, are no more than the events that announce the attempt, and exactly as many
where no process dies in between. -/
theorem retries_accounted (hs : cfg.lts.Reachable Lts.anyStep s) (j : JobId) (n : ℤ) :
    s.shared.retriesPublished j n + Actors.holders (fun _ l => l.promises j n) s ≤
      s.shared.db.retriesRecorded j n ∧
    (cfg.lts.Reachable NoBrokenPromise s →
      s.shared.retriesPublished j n + Actors.holders (fun _ l => l.promises j n) s =
        s.shared.db.retriesRecorded j n) := by
  constructor
  · refine Actors.promises_le (fun _ l => l.promises j n) (fun g => g.db.retriesRecorded j n)
      (fun g => g.retriesPublished j n) (L := cfg.lts) rfl (fun _ => rfl) rfl ?_ hs
    intro s i a g' l' hs _ h
    exact (retries_balance h ((sound_reachable hs).2 i) j n).1
  · refine Actors.promises_eq (fun _ l => l.promises j n) (fun g => g.db.retriesRecorded j n)
      (fun g => g.retriesPublished j n) (L := cfg.lts) rfl (fun _ => rfl) rfl ?_
    intro s i a g' l' hs hc h
    exact (retries_balance h ((sound_reachable hs.weaken).2 i) j n).2 hc

private def checkPromise (s : State) (a : ℕ × Action) : Bool :=
  match a.2 with | .crash => (s.locals a.1).promise.isNone | _ => true

/-- Worker 1 requeues the job after a transient error, and the retry is waiting. -/
theorem retries_accounted_retry : ∃ s, stubDeployment.lts.Reachable NoBrokenPromise s ∧
    s.shared.retriesPublished 1 2 = 1 ∧
    1 + Actors.holders (fun _ l => l.promises 1 2) s = s.shared.db.retriesRecorded 1 2 := by
  obtain ⟨s, hs, hp⟩ := Lts.exists_run_of_exec (L := stubDeployment.lts) (C := NoBrokenPromise)
    (c := checkPromise) (fun s a h ha => by simpa [checkPromise, ha] using h)
    stubDeployment.lts.init
    [(0, .createJob stubSubmission), (0, .publishJob 1 1), (1, .processOne), (1, .advance ""),
      (1, .run [] (.transientError "TransientRunnerError")), (1, .advance ""), (1, .advance "")]
    (fun s => decide (s.shared.retriesPublished 1 2 = 1)) (by decide)
  have hpublished : s.shared.retriesPublished 1 2 = 1 := of_decide_eq_true hp
  refine ⟨s, hs, hpublished, ?_⟩
  have haccount := (retries_accounted (Lts.Reachable.weaken hs) 1 2).2 hs
  rwa [hpublished] at haccount

end Deployment

/-- The event says that the worker runs attempt `n`. -/
def EventData.starts (workerId : String) (n : ℤ) : EventData → Bool
  | .running w k => decide (w = workerId ∧ k = n)
  | _ => false

/-- The event says how attempt `n` ended that the worker had running, a blocked retry apart. -/
def EventData.answers (workerId : String) (n : ℤ) : EventData → Bool
  | .completed w k _ | .retryScheduled w k _ _ _ | .timedOut w k _ =>
      decide (w = workerId ∧ k = n)
  | .failed w k c _ => decide (w = workerId ∧ k = n) && c != Database.staleLeaseExhaustedErrorClass
  | .cancelled w k cancelledWhile =>
      decide (w = workerId ∧ k = n) && cancelledWhile == "running"
  | _ => false

/-- The actor is that worker, and it has the attempt of the job running. -/
def Deployment.runs (cfg : Deployment) (j : JobId) (workerId : String) (n : ℤ) (i : ℕ)
    (l : ActorState) : Bool :=
  l.running.any fun m => decide ((cfg.worker i).workerId = workerId ∧ m.jobId = j ∧
    m.attemptNumber = n)

theorem Deployment.runs_eq {j : JobId} {workerId : String} {n : ℤ} {m : QueueJobMessage}
    (hm : l.running = some m) (hj : m.jobId = j) : cfg.runs j workerId n i l =
      decide ((cfg.worker i).workerId = workerId ∧ m.attemptNumber = n) := by
  unfold runs
  rw [hm, Option.any_some]
  simp only [hj, true_and]

theorem Deployment.runs_of_none {j : JobId} {workerId : String} {n : ℤ} (h : l.running = none) :
    cfg.runs j workerId n i l = false := by
  unfold runs
  rw [h]
  rfl

/-- A worker answers for the attempt it has running. -/
theorem TerminalEvent.answers {job : JobRecord} {eventType : EventType} {eventData : EventData}
    (h : TerminalEvent cfg i g l a job eventType eventData) (hl : l.Sound g) {workerId : String}
    {n : ℤ} (hanswers : eventData.answers workerId n = true) :
    cfg.runs job.id workerId n i l = true := by
  have answered : ∀ {m : QueueJobMessage}, l.running = some m → m.jobId = job.id →
      (cfg.worker i).workerId = workerId ∧ m.attemptNumber = n →
      cfg.runs job.id workerId n i l = true := by
    intro m hm hj hn
    rw [Deployment.runs_eq hm hj]
    exact decide_eq_true hn
  cases h with
  | cancelledQueued =>
    rw [EventData.answers, Bool.and_eq_true] at hanswers
    cases hanswers.2
  | blocked => cases hanswers
  | @handled m job error now _ _ h =>
    have hj : m.jobId = job.id := (And.right hl).1.symm
    cases h with
    | budgetBlocked => cases hanswers
    | exhausted | policy | cancelled =>
      rw [EventData.answers, Bool.and_eq_true] at hanswers
      exact answered rfl hj (of_decide_eq_true hanswers.1)
    | timedOut => exact answered rfl hj (of_decide_eq_true hanswers)
  | @completed m job =>
    have hj : m.jobId = job.id := (And.right hl).1.symm
    exact answered rfl hj (of_decide_eq_true hanswers)
  | leaseExhausted =>
    rw [EventData.answers, Bool.and_eq_true] at hanswers
    cases hanswers.2

theorem Appends.answers {e : JobEvent} (h : Appends cfg i g l a l' e) (hl : l.Sound g)
    (workerId : String) (n : ℤ) :
    (e.eventData.answers workerId n).toNat + (cfg.runs e.jobId workerId n i l').toNat ≤
      (e.eventData.starts workerId n).toNat + (cfg.runs e.jobId workerId n i l).toNat := by
  cases h with
  | submitted | staleLeaseRecovered => exact Nat.zero_le _
  | @running m job now hjob hopen =>
    rw [Deployment.runs_eq (m := m) rfl (Database.id_of_loadJob hjob).symm]
    exact Nat.le_of_eq (Nat.add_comm _ _)
  | @retryScheduled m job c =>
    have hj : m.jobId = job.id := (And.right hl).1.symm
    rw [Deployment.runs_eq (l := .worker (.handling m job (.transient c))) rfl hj]
    exact Nat.le_of_eq (Nat.add_comm _ _)
  | terminal h hl' =>
    rw [Deployment.runs_of_none hl'.holds_none.2, Bool.toNat_false, Nat.add_zero]
    exact (Bool.toNat_le_toNat (h.answers hl)).trans (Nat.le_add_left _ _)

/-- The event of one job does not set its actor to work on another. -/
theorem Appends.runs_of_ne {e : JobEvent} (h : Appends cfg i g l a l' e) {j : JobId}
    (hj : e.jobId ≠ j) (workerId : String) (n : ℤ) : cfg.runs j workerId n i l' = false := by
  cases h with
  | @running m job now hjob =>
    refine Bool.eq_false_iff.mpr fun hruns => hj ?_
    obtain ⟨m', hm', hmatch⟩ := (Option.any_eq_true _ _).mp hruns
    obtain rfl := Option.some.inj hm'
    exact (Database.id_of_loadJob hjob).trans (of_decide_eq_true hmatch).2.1
  | submitted | retryScheduled | staleLeaseRecovered => exact Deployment.runs_of_none rfl
  | terminal _ hl' => exact Deployment.runs_of_none hl'.holds_none.2

namespace Deployment
variable {s t : State}

/-- What holds of a job's log in every state holds of every beginning of it. -/
theorem forall_prefix_reachable {C : State → ℕ × Action → Prop} {j : JobId}
    {Q : List JobEvent → Prop} (hQ : ∀ s, cfg.lts.Reachable C s → Q (s.shared.db.eventsOf j))
    (hs : cfg.lts.Reachable C s) : ∀ pre, pre <+: s.shared.db.eventsOf j → Q pre := by
  refine Lts.Reachable.invariant (P := fun s => ∀ pre, pre <+: s.shared.db.eventsOf j → Q pre)
    ?_ ?_ hs
  · intro pre hpre
    rw [List.prefix_nil.mp hpre]
    exact hQ _ .init
  · intro s a t hs ih hc h pre hpre
    have ht := hQ t (hs.step ⟨a, hc, h⟩)
    obtain ⟨g', l', hstep, rfl⟩ := step_transition h
    change pre <+: g'.db.eventsOf j at hpre
    change Q (g'.db.eventsOf j) at ht
    have heq : g'.db.eventsOf j = s.shared.db.eventsOf j ∨
        ∃ e, g'.db.eventsOf j = s.shared.db.eventsOf j ++ [e] := by
      rcases hstep.jobEvents with heq | ⟨e, -, heq⟩
      · exact .inl (by unfold Database.eventsOf; rw [heq])
      · rw [Database.eventsOf_of_append heq]
        split
        · exact .inr ⟨e, rfl⟩
        · exact .inl (List.append_nil _)
    rcases heq with heq | ⟨e, heq⟩
    · exact ih pre (heq ▸ hpre)
    · rw [heq] at hpre
      rcases List.prefix_concat_iff.mp hpre with rfl | hpre
      · exact heq ▸ ht
      · exact ih pre hpre

/-- At every moment of a job's log, a worker has written down no more ends of an attempt than
beginnings of it, the attempts it still has running counted in. -/
theorem answers_follow_starts (hs : cfg.lts.Reachable Lts.anyStep s) (j : JobId)
    (workerId : String) (n : ℤ) :
    (∀ pre, pre <+: s.shared.db.eventsOf j →
      pre.countP (fun e => e.eventData.answers workerId n) ≤
        pre.countP fun e => e.eventData.starts workerId n) ∧
    (s.shared.db.eventsOf j).countP (fun e => e.eventData.answers workerId n) +
        Actors.holders (cfg.runs j workerId n) s ≤
      (s.shared.db.eventsOf j).countP fun e => e.eventData.starts workerId n := by
  have account : ∀ s, cfg.lts.Reachable Lts.anyStep s →
      (s.shared.db.eventsOf j).countP (fun e => e.eventData.answers workerId n) +
          Actors.holders (cfg.runs j workerId n) s ≤
        (s.shared.db.eventsOf j).countP fun e => e.eventData.starts workerId n := by
    intro s hs
    refine Actors.promises_le (cfg.runs j workerId n)
      (fun g => (g.db.eventsOf j).countP fun e => e.eventData.starts workerId n)
      (fun g => (g.db.eventsOf j).countP fun e => e.eventData.answers workerId n)
      (L := cfg.lts) rfl (fun _ => rfl) rfl ?_ hs
    intro s i a g' l' hs _ h
    rcases localStep_journaled h with ⟨hdb, hgoes⟩ | ⟨e, happends, hdb⟩
    · rw [Database.countP_of_eq hdb, Database.countP_of_eq hdb]
      have hless : (cfg.runs j workerId n i l').toNat ≤
          (cfg.runs j workerId n i (s.locals i)).toNat := by
        refine Bool.toNat_le_toNat fun hruns => ?_
        obtain ⟨m, hm, hmatch⟩ := (Option.any_eq_true _ _).mp hruns
        exact (Option.any_eq_true _ _).mpr ⟨m, hgoes.running m hm, hmatch⟩
      omega
    · rw [Database.countP_of_append hdb, Database.countP_of_append hdb]
      by_cases hj : e.jobId = j
      · subst hj
        have hanswers := happends.answers ((sound_reachable hs).2 i) workerId n
        simp only [decide_true, Bool.true_and]
        omega
      · rw [happends.runs_of_ne hj workerId n]
        simp only [hj, decide_false, Bool.false_and, Bool.toNat_false]
        omega
  exact ⟨forall_prefix_reachable (fun s hs => (Nat.le_add_right _ _).trans (account s hs)) hs,
    account s hs⟩

/-- Worker 1 has requeued the job, and worker 2 has the second attempt running. -/
theorem answers_follow_starts_retry : ∃ s, stubDeployment.lts.Reachable Lts.anyStep s ∧
    (s.shared.db.eventsOf 1).countP (fun e => e.eventData.answers "worker-1" 1) = 1 ∧
    ∀ pre, pre <+: s.shared.db.eventsOf 1 →
      pre.countP (fun e => e.eventData.answers "worker-1" 1) ≤
        pre.countP fun e => e.eventData.starts "worker-1" 1 := by
  obtain ⟨s, hs, hp⟩ := Lts.exists_reachable_of_exec stubDeployment.lts
    [(0, .createJob stubSubmission), (0, .publishJob 1 1), (1, .processOne), (1, .advance ""),
      (1, .run [] (.transientError "TransientRunnerError")), (1, .advance ""), (1, .advance ""),
      (2, .processOne), (2, .advance "")]
    (fun s => decide ((s.shared.db.eventsOf 1).countP
      (fun e => e.eventData.answers "worker-1" 1) = 1)) (by decide)
  exact ⟨s, hs, of_decide_eq_true hp, (answers_follow_starts hs 1 "worker-1" 1).1⟩

end Deployment
end AgentRuntimeGrid
