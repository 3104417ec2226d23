import AgentRuntimeGrid.Worker.Recovery

/-! Everything one step of a worker call or of a recovery call can do, as relations with one
constructor for each way a step can end. -/
namespace AgentRuntimeGrid

theorem Grid.commit_cases {l : Type*} {g g' : Grid} {tx : Option Database} {raised next x : l}
    (h : g.commit tx raised next = (g', x)) :
    (tx = none ∧ g' = g ∧ x = raised) ∨
      ∃ db, tx = some db ∧ g' = { g with db := db } ∧ x = next := by
  cases tx with
  | none =>
    cases h
    exact .inl ⟨rfl, rfl, rfl⟩
  | some db =>
    cases h
    exact .inr ⟨db, rfl, rfl, rfl⟩

/-- One step of `process_one`, the coroutine's end apart. -/
inductive WorkerTransition (w : Worker) (env : Env) (g : Grid) :
    WorkerState → Grid → WorkerState → Prop where
  | dispatchMissing {m : QueueJobMessage} (hjob : g.db.loadJob m.jobId = none) :
      WorkerTransition w env g (.leased m) g (.dispatchAck m .missing)
  | dispatchTerminal {m : QueueJobMessage} {job : JobRecord}
      (hjob : g.db.loadJob m.jobId = some job) (hterminal : job.status.terminal = true) :
      WorkerTransition w env g (.leased m) (g.lockRow m.jobId) (.dispatchAck m .terminal)
  | dispatchBlocked {m : QueueJobMessage} {job : JobRecord} {exc : BudgetPolicyError}
      (hjob : g.db.loadJob m.jobId = some job) (hopen : job.status.terminal = false)
      (hexc : w.budgetPolicy.validateJobDispatch job = .error exc) :
      WorkerTransition w env g (.leased m) (g.lockRow m.jobId)
        (.dispatchAck m (.budgetBlocked job exc))
  | dispatchRunning {m : QueueJobMessage} {job : JobRecord} {db : Database}
      (hjob : g.db.loadJob m.jobId = some job) (hopen : job.status.terminal = false)
      (hbudget : w.budgetPolicy.validateJobDispatch job = .ok ())
      (hdb : g.db.recordRunning job w.workerId m.attemptNumber = some db) :
      WorkerTransition w env g (.leased m) { g with db := db } (.executing m job)
  | dispatchAck {m : QueueJobMessage} {exit : DispatchExit} :
      WorkerTransition w env g (.dispatchAck m exit) (g.acknowledge m) (.dispatchCommit m exit)
  | missingReturns {m : QueueJobMessage} :
      WorkerTransition w env g (.dispatchCommit m .missing) g (.returned true)
  | terminalReturns {m : QueueJobMessage} :
      WorkerTransition w env g (.dispatchCommit m .terminal) (g.unlockRow m.jobId) (.returned true)
  | blockedCommits {m : QueueJobMessage} {job : JobRecord} {exc : BudgetPolicyError}
      {r : FinalizationResult} {db : Database}
      (hdb : g.db.recordBudgetBlocked job w.workerId m.attemptNumber exc = some (r, db)) :
      WorkerTransition w env g (.dispatchCommit m (.budgetBlocked job exc))
        { g.unlockRow m.jobId with db := db } (.returned true)
  | blockedRaises {m : QueueJobMessage} {job : JobRecord} {exc : BudgetPolicyError} {c : String}
      (hdb : g.db.recordBudgetBlocked job w.workerId m.attemptNumber exc = none) :
      WorkerTransition w env g (.dispatchCommit m (.budgetBlocked job exc)) (g.unlockRow m.jobId)
        (.raised c)
  | retryScheduled {m : QueueJobMessage} {job : JobRecord} {c : String} {db : Database}
      (hretries : m.attemptNumber ≤ job.maxRetries)
      (hbudget : w.budgetPolicy.validateRetry (m.attemptNumber + 1) = .ok ())
      (hdb : g.db.recordRetryScheduled job w.workerId m.attemptNumber (m.attemptNumber + 1) c =
        some db) :
      WorkerTransition w env g (.handling m job (.transient c)) { g with db := db }
        (.retryPublish m job (m.attemptNumber + 1))
  | handled {m : QueueJobMessage} {job : JobRecord} {error : HandledError} {eventType : EventType}
      {eventData : EventData} {r : FinalizationResult} {db : Database}
      (hartifact : eventData.artifact = none)
      (hdb : g.db.finalizeJob job eventType.status eventType eventData = some (r, db)) :
      WorkerTransition w env g (.handling m job error) { g with db := db } (.acknowledging m)
  | handlingRaises {m : QueueJobMessage} {job : JobRecord} {error : HandledError} {c : String}
      (hjob : g.db.loadJob job.id = none) :
      WorkerTransition w env g (.handling m job error) g (.raised c)
  | retryPublish {m : QueueJobMessage} {job : JobRecord} {n : ℤ} :
      WorkerTransition w env g (.retryPublish m job n)
        { g with queue := g.queue.publishJob (job.message n) m.entryId } (.acknowledging m)
  | artifactRaises {m : QueueJobMessage} {job : JobRecord} {result : Dict} {c : String} :
      WorkerTransition w env g (.writingArtifact m job result) g (.raised c)
  | artifactWritten {m : QueueJobMessage} {job : JobRecord} {result : Dict} {now : String}
      {metadata : ArtifactMetadata} {bytes : PyBytes} {next : WorkerState}
      (henc : encodeStubJobArtifact env job w.workerId m.attemptNumber now result =
        .ok (metadata, bytes))
      (hnext : next = .completing m job ⟨result, some metadata⟩ ∨
        ∃ p, metadata.evalResultPath = some p ∧ next = .crossLinking m job result metadata p) :
      WorkerTransition w env g (.writingArtifact m job result)
        (g.writeFiles [(metadata.path, bytes)]) next
  | crossLinkRaises {m : QueueJobMessage} {job : JobRecord} {result : Dict}
      {metadata : ArtifactMetadata} {p : PyStr} {c : String} :
      WorkerTransition w env g (.crossLinking m job result metadata p) g (.raised c)
  | crossLinked {m : QueueJobMessage} {job : JobRecord} {result : Dict}
      {metadata : ArtifactMetadata} {p : PyStr} {bytes : PyBytes} :
      WorkerTransition w env g (.crossLinking m job result metadata p)
        (g.writeFiles [(env.resolve p, bytes)]) (.completing m job ⟨result, some metadata⟩)
  | completed {m : QueueJobMessage} {job : JobRecord} {result : JobResult}
      {r : FinalizationResult} {db : Database}
      (hdb : g.db.recordCompleted job w.workerId m.attemptNumber result = some (r, db)) :
      WorkerTransition w env g (.completing m job result) { g with db := db } (.acknowledging m)
  | completingRaises {m : QueueJobMessage} {job : JobRecord} {result : JobResult} {c : String} :
      WorkerTransition w env g (.completing m job result) g (.raised c)
  | acknowledged {m : QueueJobMessage} :
      WorkerTransition w env g (.acknowledging m) (g.acknowledge m) (.returned true)

/-- One step of `recover_stale_leases` after the listing. -/
inductive RecoveryTransition (recoveryWorkerId : String) (g : Grid) :
    RecoveryState → Grid → RecoveryState → Prop where
  | returned {result : StaleLeaseRecoveryResult} :
      RecoveryTransition recoveryWorkerId g (.planning [] result) g (.returned result)
  | planMissing {lease : StaleLease} {rest : List StaleLease} {result : StaleLeaseRecoveryResult}
      (hjob : g.db.loadJob lease.message.jobId = none) :
      RecoveryTransition recoveryWorkerId g (.planning (lease :: rest) result) g
        (.acknowledging .ackMissing lease rest result)
  | planTerminal {lease : StaleLease} {rest : List StaleLease}
      {result : StaleLeaseRecoveryResult} {job : JobRecord}
      (hjob : g.db.loadJob lease.message.jobId = some job)
      (hterminal : job.status.terminal = true) :
      RecoveryTransition recoveryWorkerId g (.planning (lease :: rest) result) g
        (.acknowledging .ackTerminal lease rest result)
  | planRequeue {lease : StaleLease} {rest : List StaleLease} {result : StaleLeaseRecoveryResult}
      {job : JobRecord} {db : Database} (hjob : g.db.loadJob lease.message.jobId = some job)
      (hopen : job.status.terminal = false)
      (hretries : lease.message.attemptNumber ≤ job.maxRetries)
      (hdb : g.db.recordStaleLeaseRecovered job recoveryWorkerId lease.consumerName
        lease.message.entryId lease.idleMs lease.deliveryCount lease.message.attemptNumber
        (lease.message.attemptNumber + 1) = some db) :
      RecoveryTransition recoveryWorkerId g (.planning (lease :: rest) result) { g with db := db }
        (.publishing lease (job.message (lease.message.attemptNumber + 1)) rest result)
  | planDlq {lease : StaleLease} {rest : List StaleLease} {result : StaleLeaseRecoveryResult}
      {job : JobRecord} {r : FinalizationResult} {db : Database}
      (hjob : g.db.loadJob lease.message.jobId = some job) (hopen : job.status.terminal = false)
      (hretries : job.maxRetries < lease.message.attemptNumber)
      (hdb : g.db.recordFailed job recoveryWorkerId lease.message.attemptNumber
        Database.staleLeaseExhaustedErrorClass true = some (r, db)) :
      RecoveryTransition recoveryWorkerId g (.planning (lease :: rest) result) { g with db := db }
        (.deadLettering lease rest result)
  | published {lease : StaleLease} {m : QueueJobMessage} {rest : List StaleLease}
      {result : StaleLeaseRecoveryResult} :
      RecoveryTransition recoveryWorkerId g (.publishing lease m rest result)
        { g with queue := g.queue.publishJob m lease.message.entryId }
        (.acknowledging .requeue lease rest result)
  | deadLettered {lease : StaleLease} {rest : List StaleLease}
      {result : StaleLeaseRecoveryResult} :
      RecoveryTransition recoveryWorkerId g (.deadLettering lease rest result)
        { g with
          queue := g.queue.addDeadLetter lease.message Database.staleLeaseExhaustedErrorClass
            lease.message.attemptNumber }
        (.acknowledging .dlq lease rest result)
  | acknowledged {kind : RecoveryKind} {lease : StaleLease} {rest : List StaleLease}
      {result : StaleLeaseRecoveryResult} :
      RecoveryTransition recoveryWorkerId g (.acknowledging kind lease rest result)
        (g.acknowledge lease.message) (.planning rest (result.count kind))

variable {w : Worker} {env : Env} {now : String} {g g' : Grid}

theorem map_snd_eq_some {r : Option (FinalizationResult × Database)} {db : Database}
    (h : r.map Prod.snd = some db) : ∃ x, r = some (x, db) := by
  obtain ⟨⟨x, db⟩, hr, rfl⟩ := Option.map_eq_some_iff.mp h
  exact ⟨x, hr⟩

/-- A lifecycle write raises only when the job has no row. -/
theorem Database.loadJob_of_finalizeJob_none {db : Database} {job : JobRecord}
    {status : JobStatus} {eventType : EventType} {eventData : EventData}
    (hs : status.terminal = true) (h : db.finalizeJob job status eventType eventData = none) :
    db.loadJob job.id = none := by
  cases hrow : db.loadJob job.id with
  | none => rfl
  | some row =>
    obtain ⟨r, db', hdb⟩ := finalizeJob_isSome eventType eventData hs hrow
    rw [h] at hdb
    cases hdb

theorem Database.loadJob_of_recordStateEvent_none {db : Database} {job : JobRecord}
    {status : JobStatus} {eventType : EventType} {eventData : EventData}
    (h : db.recordStateEvent job status eventType eventData = none) : db.loadJob job.id = none := by
  cases hrow : db.loadJob job.id with
  | none => rfl
  | some row =>
    obtain ⟨db', hdb⟩ := recordStateEvent_isSome status eventType eventData hrow
    rw [h] at hdb
    cases hdb

private theorem dispatch_transition {m : QueueJobMessage} {st : WorkerState}
    (h : w.dispatch g m = some (g', st)) : WorkerTransition w env g (.leased m) g' st := by
  unfold Worker.dispatch at h
  split at h
  · cases h
  split at h
  next hjob =>
    cases h
    exact .dispatchMissing hjob
  next job hjob =>
    split at h
    next hterminal =>
      cases h
      exact .dispatchTerminal hjob hterminal
    next hopen =>
      have hopen : job.status.terminal = false := by simpa using hopen
      split at h
      next exc hexc =>
        cases h
        exact .dispatchBlocked hjob hopen hexc
      next hbudget =>
        obtain ⟨hdb, rfl, rfl⟩ | ⟨db, hdb, rfl, rfl⟩ := Grid.commit_cases (Option.some.inj h)
        · have hid : job.id = m.jobId := Database.id_of_loadJob hjob
          have hnone := Database.loadJob_of_recordStateEvent_none hdb
          rw [hid, hjob] at hnone
          cases hnone
        · exact .dispatchRunning hjob hopen hbudget hdb

private theorem dispatchEnd_transition {m : QueueJobMessage} {exit : DispatchExit}
    {st : WorkerState} (h : w.dispatchEnd g m exit = (g', st)) :
    WorkerTransition w env g (.dispatchCommit m exit) g' st := by
  cases exit with
  | missing =>
    cases h
    exact .missingReturns
  | terminal =>
    cases h
    exact .terminalReturns
  | budgetBlocked job exc =>
    obtain ⟨hdb, rfl, rfl⟩ | ⟨db, hdb, rfl, rfl⟩ := Grid.commit_cases h
    · exact .blockedRaises (Option.map_eq_none_iff.mp hdb)
    · obtain ⟨r, hr⟩ := map_snd_eq_some hdb
      exact .blockedCommits hr

private theorem handle_transition {m : QueueJobMessage} {job : JobRecord} {error : HandledError}
    {st : WorkerState} (h : w.handle g m job error = (g', st)) :
    WorkerTransition w env g (.handling m job error) g' st := by
  have finalized : ∀ (eventType : EventType) {eventData : EventData},
      eventType.status.terminal = true → eventData.artifact = none →
      g.commit ((g.db.finalizeJob job eventType.status eventType eventData).map Prod.snd)
        (WorkerState.raised "IntegrityError") (.acknowledging m) = (g', st) →
      WorkerTransition w env g (.handling m job error) g' st := by
    intro eventType eventData hs hdata hc
    obtain ⟨hdb, rfl, rfl⟩ | ⟨db, hdb, rfl, rfl⟩ := Grid.commit_cases hc
    · exact .handlingRaises
        (Database.loadJob_of_finalizeJob_none hs (Option.map_eq_none_iff.mp hdb))
    · obtain ⟨r, hr⟩ := map_snd_eq_some hdb
      exact .handled hdata hr
  cases error with
  | transient c =>
    change w.handleTransientError g m job c = _ at h
    unfold Worker.handleTransientError at h
    split at h
    next hretries =>
      simp only at h
      split at h
      · exact finalized .budgetBlocked rfl rfl h
      next hbudget =>
        obtain ⟨hdb, rfl, rfl⟩ | ⟨db, hdb, rfl, rfl⟩ := Grid.commit_cases h
        · exact .handlingRaises (Database.loadJob_of_recordStateEvent_none hdb)
        · exact .retryScheduled hretries hbudget hdb
    next => exact finalized .failed rfl rfl h
  | policy c => exact finalized .failed rfl rfl h
  | timedOut => exact finalized .timedOut rfl rfl h
  | cancelled => exact finalized .cancelled rfl rfl h

private theorem writeArtifact_transition {m : QueueJobMessage} {job : JobRecord} {result : Dict}
    {st : WorkerState} (h : w.writeArtifact g env now m job result = (g', st)) :
    WorkerTransition w env g (.writingArtifact m job result) g' st := by
  unfold Worker.writeArtifact at h
  split at h
  · cases h
    exact .artifactRaises
  next metadata bytes henc =>
    simp only at h
    split at h
    · cases h
      exact .artifactWritten henc (.inl rfl)
    next p hp =>
      cases h
      exact .artifactWritten henc (.inr ⟨p, hp, rfl⟩)

private theorem crossLink_transition {m : QueueJobMessage} {job : JobRecord} {result : Dict}
    {metadata : ArtifactMetadata} {p : PyStr} {st : WorkerState}
    (h : Worker.crossLink g env m job result metadata p = (g', st)) :
    WorkerTransition w env g (.crossLinking m job result metadata p) g' st := by
  unfold Worker.crossLink at h
  simp only at h
  split at h
  · cases h
    exact .crossLinkRaises
  · cases h
    exact .crossLinked

private theorem complete_transition {m : QueueJobMessage} {job : JobRecord} {result : JobResult}
    {st : WorkerState} (h : w.complete g m job result = (g', st)) :
    WorkerTransition w env g (.completing m job result) g' st := by
  unfold Worker.complete at h
  split at h
  · obtain ⟨hdb, rfl, rfl⟩ | ⟨db, hdb, rfl, rfl⟩ := Grid.commit_cases h
    · exact .completingRaises
    · obtain ⟨r, hr⟩ := map_snd_eq_some hdb
      exact .completed hr
  · cases h
    exact .completingRaises

theorem Worker.advance_transition {st st' : WorkerState}
    (h : w.advance g env now st = some (g', st')) : WorkerTransition w env g st g' st' := by
  cases st with
  | leased m => exact dispatch_transition h
  | dispatchAck m exit =>
    cases h
    exact .dispatchAck
  | dispatchCommit m exit => exact dispatchEnd_transition (Option.some.inj h)
  | executing m job => cases h
  | handling m job error =>
    simp only [Worker.advance] at h
    split at h
    · cases h
    · exact handle_transition (Option.some.inj h)
  | retryPublish m job n =>
    cases h
    exact .retryPublish
  | writingArtifact m job result => exact writeArtifact_transition (Option.some.inj h)
  | crossLinking m job result metadata p => exact crossLink_transition (Option.some.inj h)
  | completing m job result =>
    simp only [Worker.advance] at h
    split at h
    · cases h
    · exact complete_transition (Option.some.inj h)
  | acknowledging m =>
    cases h
    exact .acknowledged
  | returned processed => cases h
  | raised c => cases h

private theorem plan_transition {who : String} {lease : StaleLease} {rest : List StaleLease}
    {result : StaleLeaseRecoveryResult} {st : RecoveryState}
    (h : Recovery.plan who g lease rest result = some (g', st)) :
    RecoveryTransition who g (.planning (lease :: rest) result) g' st := by
  unfold Recovery.plan at h
  split at h
  · cases h
  split at h
  next hjob =>
    cases h
    exact .planMissing hjob
  next job hjob =>
    have hid : job.id = lease.message.jobId := Database.id_of_loadJob hjob
    split at h
    next hterminal =>
      cases h
      exact .planTerminal hjob hterminal
    next hopen =>
      have hopen : job.status.terminal = false := by simpa using hopen
      split at h
      next hretries =>
        obtain ⟨hdb, rfl, rfl⟩ | ⟨db, hdb, rfl, rfl⟩ := Grid.commit_cases (Option.some.inj h)
        · have hnone := Database.loadJob_of_recordStateEvent_none hdb
          rw [hid, hjob] at hnone
          cases hnone
        · exact .planRequeue hjob hopen hretries hdb
      next hretries =>
        obtain ⟨hdb, rfl, rfl⟩ | ⟨db, hdb, rfl, rfl⟩ := Grid.commit_cases (Option.some.inj h)
        · have hnone := Database.loadJob_of_finalizeJob_none rfl (Option.map_eq_none_iff.mp hdb)
          rw [hid, hjob] at hnone
          cases hnone
        · obtain ⟨r, hr⟩ := map_snd_eq_some hdb
          exact .planDlq hjob hopen (not_le.mp hretries) hr

theorem Recovery.advance_transition {who : String} {st st' : RecoveryState}
    (h : Recovery.advance who g st = some (g', st')) : RecoveryTransition who g st g' st' := by
  cases st with
  | planning leases result =>
    cases leases with
    | nil =>
      cases h
      exact .returned
    | cons lease rest => exact plan_transition h
  | publishing lease m rest result =>
    cases h
    exact .published
  | deadLettering lease rest result =>
    cases h
    exact .deadLettered
  | acknowledging kind lease rest result =>
    cases h
    exact .acknowledged
  | returned result => cases h
  | raised c => cases h

end AgentRuntimeGrid
