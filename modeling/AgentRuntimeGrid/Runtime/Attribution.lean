import AgentRuntimeGrid.Runtime.Writes

/-! Every row and every message of a job carries the run and the trace of the job's own row. -/
namespace AgentRuntimeGrid

/-- The run that the row of a job belongs to. -/
def Database.runOf (db : Database) (j : JobId) : Option RunId :=
  (db.loadJob j).map JobRecord.runId

/-- The job has a row, with this run and this trace. -/
def Database.OfJob (db : Database) (j : JobId) (runId : RunId) (traceId : String) : Prop :=
  ∃ row, db.loadJob j = some row ∧ row.runId = runId ∧ row.traceId = traceId

/-- The metadata of the artifact the actor has written and not yet recorded. -/
def ActorState.metadata : ActorState → Option ArtifactMetadata
  | .worker (.crossLinking _ _ _ metadata _) => some metadata
  | .worker (.completing _ _ result) => result.artifact
  | _ => none

/-- The artifact in the actor's hands is of the job it works on. -/
def ActorState.Owns : ActorState → Prop
  | .worker (.crossLinking _ job _ metadata _) =>
      metadata.jobId = job.id ∧ metadata.runId = job.runId
  | .worker (.completing _ job result) => ∀ metadata, result.artifact = some metadata →
      metadata.jobId = job.id ∧ metadata.runId = job.runId
  | _ => True

structure Grid.Attributed (g : Grid) : Prop where
  events : ∀ e ∈ g.db.jobEvents, g.db.OfJob e.jobId e.runId e.traceId
  finalizations : ∀ f ∈ g.db.jobFinalizations.rows, g.db.OfJob f.jobId f.runId f.traceId
  conflicts : ∀ c ∈ g.db.finalizationConflictAttempts, g.db.OfJob c.jobId c.runId c.traceId
  stream : ∀ entry ∈ g.queue.jobs.log,
    g.db.OfJob entry.message.jobId entry.message.runId entry.message.traceId
  dlq : ∀ d ∈ g.queue.dlq, g.db.OfJob d.jobId d.runId d.traceId
  artifacts : ∀ e ∈ g.db.jobEvents, ∀ metadata, e.eventData.artifact = some metadata →
    metadata.jobId = e.jobId ∧ metadata.runId = e.runId

variable {cfg : Deployment} {i : ℕ} {g g' : Grid} {l l' : ActorState} {a : Action}

theorem JobRecord.SameJob.runId_eq {job row : JobRecord} (h : job.SameJob row) :
    row.runId = job.runId := by
  rw [h]
  rfl

theorem JobRecord.SameJob.traceId_eq {job row : JobRecord} (h : job.SameJob row) :
    row.traceId = job.traceId := by
  rw [h]
  rfl

theorem Database.OfJob.mono (hgrows : g.Grows g') {j : JobId} {runId : RunId} {traceId : String}
    (h : g.db.OfJob j runId traceId) : g'.db.OfJob j runId traceId := by
  obtain ⟨row, hrow, rfl, rfl⟩ := h
  obtain ⟨row', hrow', hsame⟩ := hgrows.loadJob hrow
  exact ⟨row', hrow', hsame.runId_eq, hsame.traceId_eq⟩

/-- What is written for a record is attributed to the row the record describes. -/
theorem Database.Describes.ofJob {db : Database} {job : JobRecord} (h : db.Describes job) :
    db.OfJob job.id job.runId job.traceId := by
  obtain ⟨row, hrow, hsame⟩ := h
  exact ⟨row, hrow, hsame.runId_eq, hsame.traceId_eq⟩

theorem Database.OfJob.runOf_eq {db : Database} {j : JobId} {runId : RunId} {traceId : String}
    (h : db.OfJob j runId traceId) : db.runOf j = some runId := by
  obtain ⟨row, hrow, rfl, -⟩ := h
  rw [runOf, hrow]
  rfl

theorem Grid.Attributed.holds (hg : g.Attributed) {m : QueueJobMessage} (hm : g.Holds m) :
    g.db.OfJob m.jobId m.runId m.traceId := by
  obtain ⟨e, entry, he, -, rfl⟩ := hm
  exact hg.stream entry (List.mem_of_getElem? he)

theorem Publishes.ofJob {entry : StreamEntry} (h : Publishes g l a l' entry) (hl : l.Sound g) :
    g.db.OfJob entry.message.jobId entry.message.runId entry.message.traceId := by
  cases h with
  | client hjob => exact (Database.describes_of_loadJob hjob).ofJob
  | retry => exact (Grid.Carries.describes (And.left (And.right hl))).ofJob
  | requeue =>
    obtain ⟨⟨job, hjob, rfl, -⟩, -⟩ := hl
    exact hjob.describes.ofJob

/-- A dead letter is added for the lease whose job the recovery has just failed. -/
theorem Transition.dlq (h : Transition cfg i g l a g' l') : g'.queue.dlq = g.queue.dlq ∨
    ∃ lease rest result, l = .recovery (.deadLettering lease rest result) ∧
      g'.queue = g.queue.addDeadLetter lease.message Database.staleLeaseExhaustedErrorClass
        lease.message.attemptNumber ∧
      l' = .recovery (.acknowledging .dlq lease rest result) := by
  have acknowledge : ∀ m, (g.acknowledge m).queue.dlq = g.queue.dlq := by
    intro m
    unfold Grid.acknowledge
    split <;> rfl
  cases h with
  | crash => exact .inl (by rw [Grid.queue_rollback])
  | worker h =>
    cases h with
    | dispatchAck | acknowledged => exact .inl (acknowledge _)
    | _ => exact .inl rfl
  | recovery h =>
    cases h with
    | deadLettered => exact .inr ⟨_, _, _, rfl, rfl, rfl⟩
    | acknowledged => exact .inl (acknowledge _)
    | _ => exact .inl rfl
  | _ => exact .inl rfl

theorem Transition.owns (h : Transition cfg i g l a g' l') (hl : l.Owns) : l'.Owns := by
  cases h with
  | worker h =>
    cases h with
    | artifactWritten henc hnext =>
      obtain ⟨hid, hrun, -⟩ := encodeStubJobArtifact_ids henc
      obtain rfl | ⟨p, -, rfl⟩ := hnext
      · intro metadata hmetadata
        obtain rfl := Option.some.inj hmetadata
        exact ⟨hid, hrun⟩
      · exact ⟨hid, hrun⟩
    | crossLinked =>
      intro metadata hmetadata
      obtain rfl := Option.some.inj hmetadata
      exact hl
    | _ => trivial
  | @run m job writes outcome =>
    cases outcome with
    | success result =>
      change ActorState.Owns (.worker (if _ then _ else _))
      split
      · trivial
      · intro metadata hmetadata
        cases hmetadata
    | _ => trivial
  | renewLease => exact hl
  | recovery h =>
    cases h <;> trivial
  | _ => trivial

theorem TerminalEvent.artifact {job : JobRecord} {eventType : EventType} {eventData : EventData}
    {metadata : ArtifactMetadata} (h : TerminalEvent cfg i g l a job eventType eventData)
    (hl : l.Owns) (hdata : eventData.artifact = some metadata) :
    metadata.jobId = job.id ∧ metadata.runId = job.runId := by
  cases h with
  | completed => exact hl metadata hdata
  | handled hhandles => cases hhandles <;> cases hdata
  | _ => cases hdata

theorem LifecycleEvent.artifact {job : JobRecord} {eventType : EventType} {eventData : EventData}
    (h : LifecycleEvent cfg i g l a job eventType eventData) : eventData.artifact = none := by
  cases h <;> rfl

namespace Deployment
variable {s t : State}

/-- The rows a transaction appends to the three tables are of the job it works on. -/
private theorem appended_ofJob {db : Database} (h : DbWrite cfg i g l a db)
    (hmono : ∀ {j runId traceId}, g.db.OfJob j runId traceId → db.OfJob j runId traceId)
    (hl : l.Sound g) (howns : l.Owns) :
    ∃ es fs cs, db.jobEvents = g.db.jobEvents ++ es ∧
      db.jobFinalizations.rows = g.db.jobFinalizations.rows ++ fs ∧
      db.finalizationConflictAttempts = g.db.finalizationConflictAttempts ++ cs ∧
      (∀ e ∈ es, db.OfJob e.jobId e.runId e.traceId ∧
        ∀ metadata, e.eventData.artifact = some metadata →
          metadata.jobId = e.jobId ∧ metadata.runId = e.runId) ∧
      (∀ f ∈ fs, db.OfJob f.jobId f.runId f.traceId) ∧
      ∀ c ∈ cs, db.OfJob c.jobId c.runId c.traceId := by
  cases h with
  | same => exact ⟨[], [], [], by simp⟩
  | @created row _ hinsert =>
    obtain ⟨jobs, hjobs, rfl⟩ := Database.insertJob_eq_ok hinsert
    refine ⟨[submittedEvent row], [], [], rfl, by simp [Database.appendEvent],
      by simp [Database.appendEvent], ?_, by simp, by simp⟩
    rintro e he
    obtain rfl := List.mem_singleton.mp he
    refine ⟨⟨row, KeyedTable.get?_of_insert_self hjobs, rfl, rfl⟩, fun metadata hmetadata => ?_⟩
    cases hmetadata
  | @lifecycle job eventType eventData _ h hrecord =>
    have hnew := hmono (h.describes hl).ofJob
    obtain ⟨-, rfl⟩ := Database.recordStateEvent_eq_some hrecord
    refine ⟨[⟨job.id, job.runId, eventType, eventData, job.traceId⟩], [], [], rfl,
      by simp [Database.appendEvent, Database.updateStatus],
      by simp [Database.appendEvent, Database.updateStatus], ?_, by simp, by simp⟩
    intro e he
    obtain rfl := List.mem_singleton.mp he
    refine ⟨hnew, fun metadata hmetadata => ?_⟩
    rw [h.artifact] at hmetadata
    cases hmetadata
  | @finalized job eventType eventData r _ h hfinalize =>
    have hnew := hmono (h.describes hl).ofJob
    obtain ⟨-, -, ⟨f, -, -, rfl⟩ | ⟨fins, hfins, -, rfl⟩⟩ := Database.finalizeJob_cases hfinalize
    · refine ⟨[], [], [⟨job.id, job.runId, eventType.status, eventType, job.traceId⟩],
        (List.append_nil _).symm, (List.append_nil _).symm, rfl, by simp, by simp, ?_⟩
      intro c hc
      obtain rfl := List.mem_singleton.mp hc
      exact hnew
    · refine ⟨[⟨job.id, job.runId, eventType, eventData, job.traceId⟩],
        [⟨job.id, job.runId, eventType.status, eventType, job.traceId⟩], [], rfl,
        KeyedTable.rows_of_insert hfins, (List.append_nil _).symm, ?_, ?_, by simp⟩
      · intro e he
        obtain rfl := List.mem_singleton.mp he
        exact ⟨hnew, fun metadata hmetadata => h.artifact howns hmetadata⟩
      · intro f hf
        obtain rfl := List.mem_singleton.mp hf
        exact hnew

private theorem attributed_step {a : ℕ × Action} (hsound : Sound s) (howns : (s.locals a.1).Owns)
    (h : cfg.lts.step s a = some t) (hs : s.shared.Attributed) : t.shared.Attributed := by
  obtain ⟨g', l', hlocal, rfl⟩ := Actors.globalStep_eq_some.mp h
  have ht := localStep_transition hlocal
  have hl := hsound.2 a.1
  have hmono : ∀ {j runId traceId}, s.shared.db.OfJob j runId traceId →
      g'.db.OfJob j runId traceId := fun hj => hj.mono ht.grows
  obtain ⟨es, fs, cs, hes, hfs, hcs, events, finalizations, conflicts⟩ :=
    appended_ofJob (localStep_dbWrite hlocal) hmono hl howns
  constructor
  · intro e he
    rw [hes] at he
    rcases List.mem_append.mp he with he | he
    · exact hmono (hs.events e he)
    · exact (events e he).1
  · intro f hf
    rw [hfs] at hf
    rcases List.mem_append.mp hf with hf | hf
    · exact hmono (hs.finalizations f hf)
    · exact finalizations f hf
  · intro c hc
    rw [hcs] at hc
    rcases List.mem_append.mp hc with hc | hc
    · exact hmono (hs.conflicts c hc)
    · exact conflicts c hc
  · intro entry hentry
    rcases ht.log with heq | ⟨entry', hpub, heq⟩
    · exact hmono (hs.stream entry (heq ▸ hentry))
    · rw [heq] at hentry
      rcases List.mem_append.mp hentry with hentry | hentry
      · exact hmono (hs.stream entry hentry)
      · obtain rfl := List.mem_singleton.mp hentry
        exact hmono (hpub.ofJob hl)
  · intro d hd
    rcases ht.dlq with heq | ⟨lease, rest, result, hlease, heq, -⟩
    · exact hmono (hs.dlq d (heq ▸ hd))
    · rw [hlease] at hl
      rw [heq] at hd
      rcases List.mem_append.mp hd with hd | hd
      · exact hmono (hs.dlq d hd)
      · obtain rfl := List.mem_singleton.mp hd
        exact hmono (hs.holds (hl lease List.mem_cons_self))
  · intro e he
    rw [hes] at he
    rcases List.mem_append.mp he with he | he
    · exact hs.artifacts e he
    · exact (events e he).2

private theorem owns_reachable (hs : cfg.lts.Reachable Lts.anyStep s) : ∀ k, (s.locals k).Owns := by
  refine Lts.Reachable.invariant (P := fun s => ∀ k, (s.locals k).Owns) (fun _ => trivial) ?_ hs
  intro s a t _ hs _ h
  obtain ⟨g', l', ht, rfl⟩ := step_transition h
  exact Actors.forall_locals_update (P := fun _ l => ActorState.Owns l) (ht.owns (hs a.1))
    fun k _ => hs k

theorem attributed_reachable (hs : cfg.lts.Reachable Lts.anyStep s) : s.shared.Attributed := by
  refine Lts.Reachable.invariant (P := fun s => s.shared.Attributed) ?_ ?_ hs
  · exact ⟨by simp [lts, Actors.lts, Grid.empty, Database.empty],
      by simp [lts, Actors.lts, Grid.empty, Database.empty, KeyedTable.empty],
      by simp [lts, Actors.lts, Grid.empty, Database.empty],
      by simp [lts, Actors.lts, Grid.empty, RedisStreamsQueue.empty, ConsumerGroup.empty],
      by simp [lts, Actors.lts, Grid.empty, RedisStreamsQueue.empty],
      by simp [lts, Actors.lts, Grid.empty, Database.empty]⟩
  · intro s a t hs hg _ h
    exact attributed_step (sound_reachable hs) (owns_reachable hs a.1) h hg

/-- Metadata not yet recorded is of a job with a row, and of that row's run. -/
private theorem metadata_runOf (hs : cfg.lts.Reachable Lts.anyStep s) {k : ℕ}
    {metadata : ArtifactMetadata} (h : (s.locals k).metadata = some metadata) :
    s.shared.db.runOf metadata.jobId = some metadata.runId := by
  have hsound := (sound_reachable hs).2 k
  have howns := owns_reachable hs k
  generalize s.locals k = l at h hsound howns
  have carried : ∀ {m : QueueJobMessage} {job : JobRecord}, s.shared.Carries m job →
      metadata.jobId = job.id ∧ metadata.runId = job.runId →
      s.shared.db.runOf metadata.jobId = some metadata.runId := by
    rintro m job hcarries ⟨hid, hrun⟩
    rw [hid, hrun]
    exact hcarries.describes.ofJob.runOf_eq
  cases l with
  | idle => cases h
  | recovery st => cases h
  | worker st =>
    cases st with
    | crossLinking m job result metadata' p =>
      obtain rfl := Option.some.inj h
      exact carried (And.right hsound) howns
    | completing m job result => exact carried (And.right hsound) (howns metadata h)
    | _ => cases h

/-- In every reachable state each row, message and artifact record carries the run of its job's
row, and its trace where it has one, so that events and conflicts grouped by their own run are
grouped by the run of their job. -/
theorem attribution_preserved (hs : cfg.lts.Reachable Lts.anyStep s) :
    s.shared.Attributed ∧
    (∀ k metadata, (s.locals k).metadata = some metadata →
      s.shared.db.runOf metadata.jobId = some metadata.runId) ∧
    (∀ runId, (s.shared.db.jobEvents.filter fun e => e.runId = runId) =
      s.shared.db.jobEvents.filter fun e => s.shared.db.runOf e.jobId = some runId) ∧
    ∀ runId, (s.shared.db.finalizationConflictAttempts.filter fun c => c.runId = runId) =
      s.shared.db.finalizationConflictAttempts.filter fun c =>
        s.shared.db.runOf c.jobId = some runId := by
  have hg := attributed_reachable hs
  refine ⟨hg, fun k metadata => metadata_runOf hs, fun runId => ?_, fun runId => ?_⟩
  · refine List.filter_congr fun e he => ?_
    simp [(hg.events e he).runOf_eq]
  · refine List.filter_congr fun c hc => ?_
    simp [(hg.conflicts c hc).runOf_eq]

/-- A lease is recovered, the key is submitted again for another run, and the overtaken worker
loses the race to finalize the job. -/
theorem attribution_preserved_replay : ∃ s, stubDeployment.lts.Reachable Lts.anyStep s ∧
    s.shared.queue.jobs.log.length = 2 ∧
    s.shared.db.finalizationConflictAttempts.length = 1 ∧ s.shared.Attributed := by
  obtain ⟨s, hs, hp⟩ := Lts.exists_reachable_of_exec stubDeployment.lts
    (overtakenRun ++ [(0, .createJob { stubSubmission with
        jobId := 8, runId := 9, traceId := "other trace" }),
      (1, .run [] .timedOut), (1, .advance "")])
    (fun s => s.shared.queue.jobs.log.length = 2 &&
      s.shared.db.finalizationConflictAttempts.length = 1) (by decide)
  obtain ⟨hlog, hconflicts⟩ := Bool.and_eq_true_iff.mp hp
  exact ⟨s, hs, of_decide_eq_true hlog, of_decide_eq_true hconflicts, (attribution_preserved hs).1⟩

end Deployment
end AgentRuntimeGrid
