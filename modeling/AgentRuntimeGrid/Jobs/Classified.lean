import AgentRuntimeGrid.Jobs.HandledWebhook

/-! A leased message taken to its end by a worker while no other actor moves: the job is finished
or handed on exactly if its runner brings it to an end that can be handled. -/
namespace AgentRuntimeGrid

/-- What the runner of the job meets can be handled. -/
def JobHandled (env : RunnerEnv) (ctx : RunContext) (job : JobRecord) : Prop :=
  if job.jobType = "eval_lab_case" then EvalLab.Handled env.toEnv ctx.files job.payload.fields
  else if job.jobType = "gdev_webhook_eval" then GdevAgent.Handled env ctx job.payload.fields
  else StubJobRunner.Handled env job.payload.fields

section RunJob
variable {env : RunnerEnv} {ctx : RunContext} {job : JobRecord} {n : ℤ}

theorem EvalRun.finish_eq (env : Env) (r : EvalRun) :
    ∃ bytes, r.finish env = ([(env.resolve r.evalResultPath, bytes)], .success r.result) := by
  obtain ⟨bytes, hbytes, -⟩ := encodeIndented_readable env r.evalResult
  exact ⟨bytes, by rw [EvalRun.finish, hbytes]⟩

theorem classified_endOfEval {env : Env} {x : Except JobException EvalRun} :
    (endOfEval env x).2.Classified ↔ Kept (x.map EvalRun.result) := by
  cases x with
  | error e => exact e.classified_outcome
  | ok r =>
    obtain ⟨bytes, hfinish⟩ := r.finish_eq env
    rw [endOfEval, hfinish]
    rfl

/-- A runner ends in a way that can be handled exactly if all that it meets can. -/
theorem classified_runJob_iff (hsha : HexDigests env.toEnv) :
    (runJob env ctx job n).2.Classified ↔ JobHandled env ctx job := by
  unfold runJob JobHandled
  split
  · rw [classified_endOfEval, EvalLab.kept_run job.payload.storable]
  split
  · rw [classified_endOfEval, GdevAgent.kept_run hsha job.payload.storable]
  · rw [← StubJobRunner.kept_run job.payload.storable]
    cases StubJobRunner.run env ctx job.payload.fields with
    | error e => exact e.classified_outcome
    | ok result => rfl

theorem EvalLab.run_linked {payload : Dict} {r : EvalRun}
    (h : EvalLab.run env ctx payload n = .ok r) : r.Linked := by
  obtain ⟨p, -, h⟩ := Except.bind_eq_ok.mp h
  obtain ⟨case, -, h⟩ := Except.bind_eq_ok.mp h
  obtain ⟨quality, -, h⟩ := Except.bind_eq_ok.mp h
  obtain rfl := Except.ok.inj h
  exact ⟨rfl, rfl⟩

theorem StubJobRunner.artifactPayload_run {payload result : Dict}
    (h : StubJobRunner.run env ctx payload = .ok result) : artifactPayload result = .ok none := by
  have hensures : (StubJobRunner.run env ctx payload).Ensures (fun _ => True)
      fun result => artifactPayload result = .ok none := by
    unfold StubJobRunner.run
    simp only [Except.ensures_ite, Except.ensures_bind, Except.ensures_throw, Except.ensures_pure]
    have hresult : ∀ keys, artifactPayload [(py "summary", .str (py "stub job completed")),
        (py "input_keys", .arr keys)] = .ok none := fun _ => rfl
    simp only [hresult, implies_true, and_true, true_and]
    exact fun _ _ _ _ => Except.ensures_of_forall fun _ => trivial
  exact hensures.of_ok h

/-- What the worker gets from a runner that returns: an evaluation with its artifact's payload, or
the result of a stub without one. -/
theorem runJob_success {result : Dict} (h : (runJob env ctx job n).2 = .success result) :
    (∃ r : EvalRun, r.Linked ∧ runJob env ctx job n = r.finish env.toEnv ∧ r.result = result) ∨
      (runJob env ctx job n = ([], .success result) ∧ artifactPayload result = .ok none) := by
  have hend {x : Except JobException EvalRun} (hx : ∀ r, x = .ok r → r.Linked)
      (h : (endOfEval env.toEnv x).2 = .success result) :
      ∃ r : EvalRun, r.Linked ∧ endOfEval env.toEnv x = r.finish env.toEnv ∧
        r.result = result := by
    cases x with
    | error e => cases e <;> cases h
    | ok r =>
      refine ⟨r, hx r rfl, rfl, ?_⟩
      obtain ⟨bytes, hfinish⟩ := r.finish_eq env.toEnv
      rw [endOfEval, hfinish] at h
      exact RunOutcome.success.inj h
  unfold runJob at h ⊢
  split at h
  next htype =>
    rw [if_pos htype]
    exact .inl (hend (fun r => EvalLab.run_linked) h)
  next htype =>
    rw [if_neg htype]
    split at h
    next hgdev =>
      rw [if_pos hgdev]
      refine .inl (hend (fun r hr => ?_) h)
      obtain ⟨p, requestHash, v, -, -, -, rfl⟩ := GdevAgent.run_eq_ok hr
      exact GdevAgent.evidence_linked _ _ _ _ _
    next hgdev =>
      rw [if_neg hgdev]
      right
      cases hrun : StubJobRunner.run env ctx job.payload.fields with
      | error e =>
        rw [hrun] at h
        cases e <;> cases h
      | ok result' =>
        rw [hrun] at h
        obtain rfl := RunOutcome.success.inj h
        exact ⟨rfl, StubJobRunner.artifactPayload_run hrun⟩

end RunJob

/-- The job is finalized, or queued again with the message of its next attempt published since. -/
def Settled (g g' : Grid) (m : QueueJobMessage) (job : JobRecord) : Prop :=
  g'.db.Finalized job.id ∨
    (∃ row, g'.db.loadJob job.id = some row ∧ row.status = .queued) ∧
      g'.queue.jobs.log = g.queue.jobs.log ++ [⟨job.message (m.attemptNumber + 1), m.entryId⟩]

/-- The call has returned, with its entry acknowledged and the job settled. -/
structure BroughtToEnd (g : Grid) (m : QueueJobMessage) (job : JobRecord)
    (s : Grid × WorkerState) : Prop where
  returned : s.2 = .returned true
  acknowledged : ∀ e, m.entryId = some e → ¬s.1.queue.jobs.Pending e
  settled : Settled g s.1 m job

namespace Worker
variable {w : Worker} {env : RunnerEnv} {ctx : RunContext} {now : String} {g g₀ g' : Grid}
  {l l' : WorkerState} {m : QueueJobMessage} {job : JobRecord}

section Steps

theorem runAlone_step (h : w.stepAlone env ctx now g l = some (g', l')) (n : ℕ) :
    w.runAlone env ctx now (n + 1) (g, l) = w.runAlone env ctx now n (g', l') := by
  simp only [runAlone, h]

theorem runAlone_end (h : w.stepAlone env ctx now g l = none) (n : ℕ) :
    w.runAlone env ctx now n (g, l) = (g, l) := by
  cases n with
  | zero => rfl
  | succ n => simp only [runAlone, h]

theorem runAlone_add (k n : ℕ) (s : Grid × WorkerState) :
    w.runAlone env ctx now (n + k) s = w.runAlone env ctx now n (w.runAlone env ctx now k s) := by
  induction k generalizing s with
  | zero => rfl
  | succ k ih =>
    obtain ⟨g, l⟩ := s
    rw [← Nat.add_assoc]
    cases h : w.stepAlone env ctx now g l with
    | none => rw [runAlone_end h, runAlone_end h, runAlone_end h]
    | some s' =>
      obtain ⟨g', l'⟩ := s'
      rw [runAlone_step h, runAlone_step h, ih]

theorem not_pending_acknowledge (g : Grid) (m : QueueJobMessage) (e : EntryId)
    (he : m.entryId = some e) : ¬(g.acknowledge m).queue.jobs.Pending e := by
  rw [Grid.acknowledge, he, RedisStreamsQueue.jobs_acknowledge, ConsumerGroup.pending_ack]
  exact fun h => h.2 rfl

theorem broughtToEnd_of_acknowledging (h : Settled g₀ g m job) (n : ℕ) :
    BroughtToEnd g₀ m job (w.runAlone env ctx now (n + 1) (g, .acknowledging m)) := by
  rw [runAlone_step (show w.stepAlone env ctx now g (.acknowledging m) =
    some (g.acknowledge m, .returned true) from rfl), runAlone_end rfl]
  refine ⟨rfl, not_pending_acknowledge g m, ?_⟩
  unfold Settled at h ⊢
  rwa [Grid.db_acknowledge, Grid.log_acknowledge]

theorem commit_finalizeJob {status : JobStatus} {eventType : EventType} {eventData : EventData}
    (hs : status.terminal = true) (hrow : ∃ row, g.db.loadJob job.id = some row)
    (raised next : WorkerState) :
    ∃ db, g.commit ((g.db.finalizeJob job status eventType eventData).map Prod.snd) raised next =
      ({ g with db := db }, next) ∧ db.Finalized job.id := by
  obtain ⟨row, hrow⟩ := hrow
  obtain ⟨r, db, hdb⟩ := Database.finalizeJob_isSome eventType eventData hs hrow
  refine ⟨db, ?_, Database.finalized_of_finalizeJob hdb⟩
  rw [hdb]
  rfl

theorem loadJob_recordStateEvent {db db' : Database} {status : JobStatus} {eventType : EventType}
    {eventData : EventData} (h : db.recordStateEvent job status eventType eventData = some db') :
    ∃ row, db'.loadJob job.id = some row ∧ row.status = status := by
  obtain ⟨⟨row, hrow⟩, rfl⟩ := Database.recordStateEvent_eq_some h
  refine ⟨row.withStatus status, ?_, rfl⟩
  have hget := Database.get?_updateStatus db job.id job.id status
  rw [if_pos rfl, hrow] at hget
  exact hget

theorem broughtToEnd_of_handling (hrow : ∃ row, g.db.loadJob job.id = some row)
    (hfree : g.rowLocked job.id = false) (hlog : g.queue.jobs.log = g₀.queue.jobs.log)
    (error : HandledError) (n : ℕ) :
    BroughtToEnd g₀ m job (w.runAlone env ctx now (n + 3) (g, .handling m job error)) := by
  have hstep {g' : Grid} {l' : WorkerState} (h : w.handle g m job error = (g', l')) :
      w.stepAlone env ctx now g (.handling m job error) = some (g', l') := by
    simp only [stepAlone, advance, hfree, h]
    rfl
  have hfinal {status : JobStatus} {eventType : EventType} {eventData : EventData}
      (h : w.handle g m job error =
        g.commit ((g.db.finalizeJob job status eventType eventData).map Prod.snd)
          (.raised "IntegrityError") (.acknowledging m)) (hs : status.terminal = true) :
      BroughtToEnd g₀ m job (w.runAlone env ctx now (n + 3) (g, .handling m job error)) := by
    obtain ⟨db, hcommit, hdb⟩ := commit_finalizeJob hs hrow (.raised "IntegrityError")
      (.acknowledging m)
    rw [runAlone_step (hstep (h.trans hcommit))]
    exact broughtToEnd_of_acknowledging (.inl hdb) (n + 1)
  cases error with
  | transient c =>
    by_cases hretries : m.attemptNumber ≤ job.maxRetries
    · cases hbudget : w.budgetPolicy.validateRetry (m.attemptNumber + 1) with
      | error exc =>
        have hhandle : w.handle g m job (.transient c) = g.commit
            ((g.db.recordBudgetBlocked job w.workerId m.attemptNumber exc).map Prod.snd)
            (.raised "IntegrityError") (.acknowledging m) := by
          simp only [handle, handleTransientError, if_pos hretries, hbudget]
        exact hfinal hhandle rfl
      | ok _ =>
        obtain ⟨row, hrow⟩ := hrow
        obtain ⟨db, hdb⟩ := Database.recordStateEvent_isSome .queued .retryScheduled
          (.retryScheduled w.workerId m.attemptNumber (m.attemptNumber + 1) c true) hrow
        have hhandle : w.handle g m job (.transient c) =
            ({ g with db := db }, .retryPublish m job (m.attemptNumber + 1)) := by
          simp only [handle, handleTransientError, if_pos hretries, hbudget]
          rw [Database.recordRetryScheduled, hdb]
          rfl
        rw [runAlone_step (hstep hhandle), runAlone_step rfl]
        refine broughtToEnd_of_acknowledging (.inr ⟨?_, ?_⟩) n
        · exact loadJob_recordStateEvent hdb
        · exact congrArg (· ++ [⟨job.message (m.attemptNumber + 1), m.entryId⟩]) hlog
    · have hhandle : w.handle g m job (.transient c) = g.commit
          ((g.db.recordFailed job w.workerId m.attemptNumber c true).map Prod.snd)
          (.raised "IntegrityError") (.acknowledging m) := by
        simp only [handle, handleTransientError, if_neg hretries]
      exact hfinal hhandle rfl
  | policy c => exact hfinal rfl rfl
  | timedOut => exact hfinal rfl rfl
  | cancelled => exact hfinal rfl rfl

/-- A completion takes two steps if the result is kept, and else raises. -/
theorem broughtToEnd_of_completing (hrow : ∃ row, g.db.loadJob job.id = some row)
    (hfree : g.rowLocked job.id = false) (result : JobResult)
    (hkept : jsonbStorable (.obj result.fields) = true) (n : ℕ) :
    BroughtToEnd g₀ m job (w.runAlone env ctx now (n + 2) (g, .completing m job result)) := by
  have hterminal : JobStatus.completed.terminal = true := rfl
  obtain ⟨db, hcommit, hdb⟩ := commit_finalizeJob hterminal hrow (.raised "IntegrityError")
    (.acknowledging m)
  have hcomplete : w.complete g m job result = ({ g with db := db }, .acknowledging m) := by
    rw [complete, if_pos hkept]
    exact hcommit
  have hstep : w.stepAlone env ctx now g (.completing m job result) =
      some ({ g with db := db }, .acknowledging m) := by
    simp only [stepAlone, advance, hfree, hcomplete]
    rfl
  rw [runAlone_step hstep]
  exact broughtToEnd_of_acknowledging (.inl hdb) n

theorem raised_of_completing (hfree : g.rowLocked job.id = false) (result : JobResult)
    (hkept : ¬jsonbStorable (.obj result.fields) = true) (n : ℕ) :
    w.runAlone env ctx now (n + 1) (g, .completing m job result) = (g, .raised "DataError") := by
  have hstep : w.stepAlone env ctx now g (.completing m job result) =
      some (g, .raised "DataError") := by
    simp only [stepAlone, advance, hfree, complete, if_neg hkept]
    rfl
  rw [runAlone_step hstep, runAlone_end rfl]

/-- From the end of a run that returned to its completion, with the files written in between. -/
theorem completing_of_success {result : Dict}
    (hrun : (runJob env { ctx with files := g.files } job m.attemptNumber).2 = .success result) :
    ∃ k ≤ 3, ∃ files r, r.fields = result ∧
      w.runAlone env ctx now k (g, .executing m job) =
        ({ g with files := files }, .completing m job r) := by
  by_cases hstore : w.hasArtifactStore = true
  · obtain ⟨r, hlinked, hfinish, rfl⟩ | ⟨hresult, hnone⟩ := runJob_success hrun
    · obtain ⟨d, hloads⟩ := env.jsonLoads_dumps (w.linkedContent env now m job r)
      obtain ⟨metadata, evalResult, artifact, linked, -, -, -, -, -, hsteps⟩ :=
        runAlone_evalRun hstore hlinked hfinish hloads
      exact ⟨3, le_rfl, _, _, rfl, hsteps⟩
    · obtain ⟨metadata, bytes, hartifact, hpath, -⟩ := encodeStubJobArtifact_eq_ok env.toEnv job
        w.workerId m.attemptNumber now hnone
      refine ⟨2, by decide, (g.writeFiles [(metadata.path, bytes)]).files,
        ⟨result, some metadata⟩, rfl, ?_⟩
      have hrunStep : w.stepAlone env ctx now g (.executing m job) =
          some (g, .writingArtifact m job result) := by
        simp only [stepAlone, hresult, afterRun, hstore, if_true]
        rfl
      have hartifactStep : w.stepAlone env ctx now g (.writingArtifact m job result) =
          some (g.writeFiles [(metadata.path, bytes)],
            .completing m job ⟨result, some metadata⟩) := by
        simp only [stepAlone, advance, writeArtifact, hartifact, hpath, Option.bind_none]
      rw [runAlone_step hrunStep, runAlone_step hartifactStep]
      rfl
  · refine ⟨1, by decide, (g.writeFiles (runJob env { ctx with files := g.files } job
      m.attemptNumber).1).files, ⟨result, none⟩, rfl, ?_⟩
    have hrunStep : w.stepAlone env ctx now g (.executing m job) =
        some (g.writeFiles (runJob env { ctx with files := g.files } job m.attemptNumber).1,
          .completing m job ⟨result, none⟩) := by
      simp only [stepAlone, hrun, afterRun, hstore]
      rfl
    rw [runAlone_step hrunStep]
    rfl

theorem broughtToEnd_of_executing_iff (hrow : ∃ row, g.db.loadJob job.id = some row)
    (hfree : g.rowLocked job.id = false) (hlog : g.queue.jobs.log = g₀.queue.jobs.log) (n : ℕ) :
    BroughtToEnd g₀ m job (w.runAlone env ctx now (n + 5) (g, .executing m job)) ↔
      (runJob env { ctx with files := g.files } job m.attemptNumber).2.Classified := by
  have hstep {l' : WorkerState}
      (h : w.afterRun m job (runJob env { ctx with files := g.files } job m.attemptNumber).2 = l') :
      w.stepAlone env ctx now g (.executing m job) = some
        (g.writeFiles (runJob env { ctx with files := g.files } job m.attemptNumber).1, l') := by
    rw [← h]
    rfl
  have hhandled {error : HandledError} (h : w.afterRun m job
      (runJob env { ctx with files := g.files } job m.attemptNumber).2 = .handling m job error) :
      BroughtToEnd g₀ m job (w.runAlone env ctx now (n + 5) (g, .executing m job)) := by
    rw [runAlone_step (hstep h)]
    refine broughtToEnd_of_handling ?_ ?_ ?_ error (n + 1)
    · exact hrow
    · exact hfree
    · exact hlog
  cases hrun : (runJob env { ctx with files := g.files } job m.attemptNumber).2 with
  | success result =>
    obtain ⟨k, hk, files, r, rfl, hsteps⟩ := @completing_of_success w env ctx now g m job _ hrun
    have hn : n + 5 = n + (3 - k) + 2 + k := by omega
    rw [hn, runAlone_add, hsteps]
    by_cases hkept : jsonbStorable (.obj r.fields) = true
    · refine iff_of_true ?_ hkept
      refine broughtToEnd_of_completing ?_ ?_ r hkept (n + (3 - k))
      · exact hrow
      · exact hfree
    · refine iff_of_false (fun h => ?_) hkept
      have hreturned := h.returned
      rw [@raised_of_completing w env ctx now { g with files := files } m job hfree r hkept]
        at hreturned
      cases hreturned
  | transientError c => exact iff_of_true (hhandled (by rw [hrun]; rfl)) trivial
  | policyError c => exact iff_of_true (hhandled (by rw [hrun]; rfl)) trivial
  | timedOut => exact iff_of_true (hhandled (by rw [hrun]; rfl)) trivial
  | cancelled => exact iff_of_true (hhandled (by rw [hrun]; rfl)) trivial
  | raised c =>
    refine iff_of_false (fun h => ?_) id
    have hreturned := h.returned
    rw [runAlone_step (hstep (show _ = WorkerState.raised c by rw [hrun]; rfl)),
      runAlone_end rfl] at hreturned
    cases hreturned

/-- A message whose job exists and is not finished is brought to its end exactly if the dispatch
is blocked by the budget or what the runner of the job meets can be handled. -/
theorem processMessage_broughtToEnd_iff {steps : ℕ} (hsteps : 6 ≤ steps)
    (hsha : HexDigests env.toEnv) (hjob : g.db.loadJob m.jobId = some job)
    (hopen : job.status.terminal = false) (hfree : g.rowLocked m.jobId = false) :
    BroughtToEnd g m job (w.runAlone env ctx now steps (g, .leased m)) ↔
      (w.budgetPolicy.validateJobDispatch job = .ok () →
        JobHandled env { ctx with files := g.files } job) := by
  obtain ⟨n, rfl⟩ := Nat.exists_eq_add_of_le' hsteps
  have hid : job.id = m.jobId := Database.id_of_loadJob hjob
  cases hbudget : w.budgetPolicy.validateJobDispatch job with
  | error exc =>
    refine iff_of_true ?_ fun h => ?_
    · let g₁ := ((g.lockRow m.jobId).acknowledge m).unlockRow m.jobId
      have hdispatch : w.stepAlone env ctx now g (.leased m) =
          some (g.lockRow m.jobId, .dispatchAck m (.budgetBlocked job exc)) := by
        simp only [stepAlone, advance, dispatch, hfree, hjob, hopen, hbudget]
        rfl
      have hrow : ∃ row, g₁.db.loadJob job.id = some row := by
        refine ⟨job, ?_⟩
        rw [hid, ← hjob]
        exact congrArg (Database.loadJob · m.jobId) (Grid.db_acknowledge (g.lockRow m.jobId) m)
      have hterminal : JobStatus.failed.terminal = true := rfl
      obtain ⟨db, hcommit, hdb⟩ := commit_finalizeJob hterminal hrow (.raised "IntegrityError")
        (.returned true)
      have hend : w.stepAlone env ctx now ((g.lockRow m.jobId).acknowledge m)
          (.dispatchCommit m (.budgetBlocked job exc)) =
            some ({ g₁ with db := db }, .returned true) := congrArg some hcommit
      rw [runAlone_step hdispatch, runAlone_step rfl, runAlone_step hend, runAlone_end rfl]
      exact ⟨rfl, not_pending_acknowledge (g.lockRow m.jobId) m, .inl hdb⟩
    · cases h
  | ok _ =>
    obtain ⟨db, hdb⟩ := Database.recordStateEvent_isSome .running .running
      (.running w.workerId m.attemptNumber) (hid ▸ hjob)
    have hdispatch : w.stepAlone env ctx now g (.leased m) =
        some ({ g with db := db }, .executing m job) := by
      simp only [stepAlone, advance, dispatch, hfree, hjob, hopen, hbudget]
      rw [Database.recordRunning, hdb]
      rfl
    have hrow := loadJob_recordStateEvent hdb
    rw [runAlone_step hdispatch]
    refine (broughtToEnd_of_executing_iff ?_ ?_ ?_ n).trans ?_
    · obtain ⟨row, hrow, -⟩ := hrow
      exact ⟨row, hrow⟩
    · rw [hid]
      exact hfree
    · rfl
    · rw [classified_runJob_iff hsha]
      simp

end Steps

section Example

/-- A library whose `float` reads no text, and that digests nothing but an empty payload. -/
def wordsEnv : RunnerEnv where
  sha256 _ := "44136fa355b3678a1146ad16f7e8649e94fb4fb21fe77e8310c060f61caaff8a"
  floatRepr _ := []
  strOther _ := []
  jsonLoads _ := .ok (.obj [])
  resolve _ := .other "case.json"
  floatRepr_ascii := noText_ascii
  strOther_storable := noText_storable
  jsonLoads_dumps := emptyObject_read
  lower s := s
  floatOfInt n := some (.finite n)
  floatOfText _ := none
  hmacSha256 _ _ := ""
  urlparse _ := none

def quietContext : RunContext where
  files _ := none
  getenv _ := none
  urlopen _ _ _ := .timedOut
  sleep _ := .finished
  measuredLatencyMs := 0
  latencyMs := 0

theorem jsonbStorable_sleepFields : jsonbStorable (.obj
    [(py "mode", .str (py "sleep")), (py "duration_seconds", .int 2)]) = true := by
  decide

/-- A stub that is told to sleep for two seconds. -/
def sleepFields : JsonbObject := ⟨_, jsonbStorable_sleepFields⟩

theorem jsonbStorable_soonFields : jsonbStorable (.obj
    [(py "mode", .str (py "sleep")), (py "duration_seconds", .str (py "soon"))]) = true := by
  decide

/-- A stub that is told to sleep for a time that is no number. -/
def soonFields : JsonbObject := ⟨_, jsonbStorable_soonFields⟩

def stubJob (payload : JsonbObject) : JobRecord where
  id := 1
  runId := 2
  jobType := "stub"
  payload := payload
  payloadHash := ""
  idempotencyKey := "key"
  status := .queued
  timeoutSeconds := 30
  maxRetries := 1
  traceId := "trace"
  budgetCents := none

/-- The job submitted, and its first message published. -/
def stubGrid (payload : JsonbObject) : Grid :=
  { Grid.empty with
    db := { Database.empty with
      jobs := (KeyedTable.empty.insert (stubJob payload)).getD .empty }
    queue := RedisStreamsQueue.empty.publishJob ((stubJob payload).message 1) none }

def stubWorker : Worker := ⟨"worker-1", .stub 1, false⟩

/-- The message as the worker leases it. -/
def stubMessage (payload : JsonbObject) : QueueJobMessage :=
  { (stubJob payload).message 1 with entryId := some 0 }

/-- A stub that sleeps is brought to its end. -/
theorem processMessage_broughtToEnd_of_stub :
    BroughtToEnd (stubWorker.leaseOne (stubGrid sleepFields)).1 (stubMessage sleepFields)
      (stubJob sleepFields) (stubWorker.runAlone wordsEnv quietContext "" 6
        ((stubWorker.leaseOne (stubGrid sleepFields)).1, .leased (stubMessage sleepFields))) := by
  have hdigest : storableText
      (py "44136fa355b3678a1146ad16f7e8649e94fb4fb21fe77e8310c060f61caaff8a") = true := by decide
  have hhandled : StubJobRunner.Handled wordsEnv sleepFields.fields :=
    ⟨by decide, fun _ => ⟨.finite 2, rfl⟩⟩
  have hfree : (stubWorker.leaseOne (stubGrid sleepFields)).1.rowLocked
      (stubMessage sleepFields).jobId = false := by decide
  have hsha : HexDigests wordsEnv.toEnv := fun _ => hdigest
  exact (processMessage_broughtToEnd_iff le_rfl hsha rfl rfl hfree).mpr fun _ => hhandled

/-- The duration of the other raises through the worker: its job is left running and its entry
pending. -/
theorem processMessage_raises_valueError :
    let leased := stubWorker.leaseOne (stubGrid soonFields)
    let s := stubWorker.runAlone wordsEnv quietContext "" 6 leased
    leased.2 = .leased (stubMessage soonFields) ∧ s.2 = .raised "ValueError" ∧
      s.1.queue.jobs.Pending 0 ∧ s.1.queue.jobs.log.length = 1 ∧ ¬s.1.db.Finalized 1 ∧
      (s.1.db.loadJob 1).map JobRecord.status = some .running ∧
      ¬BroughtToEnd leased.1 (stubMessage soonFields) (stubJob soonFields) s := by
  refine ⟨rfl, rfl, by decide, by decide, by decide, by decide, fun h => ?_⟩
  cases h.returned

end Example
end Worker
end AgentRuntimeGrid
