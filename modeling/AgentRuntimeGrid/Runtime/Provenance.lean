import AgentRuntimeGrid.Runtime.Lifecycle

/-! What no step takes away, and from it, where the messages and the job records the actors
carry come from. -/
namespace AgentRuntimeGrid

inductive QueueStep (q : RedisStreamsQueue) : RedisStreamsQueue → Prop where
  | same : QueueStep q q
  | lease {consumer : String} {entry : StreamEntry} {jobs : ConsumerGroup StreamEntry}
      (hdeliver : q.jobs.deliver consumer = some (q.jobs.delivered, entry, jobs)) :
      QueueStep q { q with jobs := jobs }
  | publish {m : QueueJobMessage} {cause : Option EntryId} : QueueStep q (q.publishJob m cause)
  | acknowledge {e : EntryId} : QueueStep q (q.acknowledge e)
  | renew {e : EntryId} {consumer : String} : QueueStep q (q.renewPendingLease e consumer)
  | deadLetter {m : QueueJobMessage} {errorClass : String} {n : ℤ} :
      QueueStep q (q.addDeadLetter m errorClass n)

theorem Grid.acknowledge_queueStep (g : Grid) (m : QueueJobMessage) :
    QueueStep g.queue (g.acknowledge m).queue := by
  unfold acknowledge
  split
  · exact .same
  · exact .acknowledge

theorem Transition.queueStep {cfg : Deployment} {i : ℕ} {g g' : Grid} {l l' : ActorState}
    {a : Action} (h : Transition cfg i g l a g' l') : QueueStep g.queue g'.queue := by
  cases h with
  | crash =>
    rw [Grid.queue_rollback]
    exact .same
  | publishJob => exact .publish
  | lease hdeliver => exact .lease hdeliver
  | worker h =>
    cases h with
    | dispatchAck | acknowledged => exact g.acknowledge_queueStep _
    | retryPublish => exact .publish
    | _ => exact .same
  | renewLease => exact .renew
  | recovery h =>
    cases h with
    | published => exact .publish
    | deadLettered => exact .deadLetter
    | acknowledged => exact g.acknowledge_queueStep _
    | _ => exact .same
  | _ => exact .same

/-- The streams only grow, and an entry leaves the pending list for good. -/
structure RedisStreamsQueue.Grows (q q' : RedisStreamsQueue) : Prop where
  log : q.jobs.log <+: q'.jobs.log
  delivered : q.jobs.delivered ≤ q'.jobs.delivered
  pending : ∀ e, e < q.jobs.delivered → q'.jobs.Pending e → q.jobs.Pending e

theorem QueueStep.grows {q q' : RedisStreamsQueue} (h : QueueStep q q') : q.Grows q' := by
  cases h with
  | same => exact ⟨List.prefix_refl _, le_refl _, fun _ _ h => h⟩
  | lease hdeliver =>
    obtain ⟨-, -, hlog, hdelivered, hpending⟩ := ConsumerGroup.deliver_spec hdeliver
    refine ⟨hlog ▸ List.prefix_refl _, hdelivered ▸ Nat.le_succ _, fun e he h => ?_⟩
    rcases (hpending e).mp h with h | rfl
    · exact h
    · exact absurd he (lt_irrefl _)
  | publish => exact ⟨List.prefix_append _ _, le_refl _, fun _ _ h => h⟩
  | acknowledge =>
    exact ⟨List.prefix_refl _, le_refl _, fun e _ h => ((ConsumerGroup.pending_ack _ _ _).mp h).1⟩
  | renew =>
    exact ⟨List.prefix_refl _, le_refl _, fun e _ h => (ConsumerGroup.pending_claim _ _ _ _).mp h⟩
  | deadLetter => exact ⟨List.prefix_refl _, le_refl _, fun _ _ h => h⟩

/-- The history of a job only grows: its row changes in its status alone. -/
structure JobHistory.Grows (v v' : JobHistory) : Prop where
  row : ∀ row, v.row = some row → ∃ row', v'.row = some row' ∧ row.SameJob row'
  events : v.events <+: v'.events
  finalization : ∀ f, v.finalization = some f → v'.finalization = some f

theorem JobHistory.Step.grows {G : Prop} {v v' : JobHistory} (h : v.Step G v') : v.Grows v' := by
  have hf : ∀ f, v.finalization = some f → v'.finalization = some f :=
    fun f => JobHistory.finalization_step h
  cases h with
  | same | conflict => exact ⟨fun row h => ⟨row, h, .refl row⟩, List.prefix_refl _, hf⟩
  | created hrow =>
    refine ⟨fun row h => ?_, List.prefix_append _ _, hf⟩
    rw [hrow] at h
    cases h
  | lifecycle hrow | finalized hrow =>
    refine ⟨fun row h => ⟨_, rfl, ?_⟩, List.prefix_append _ _, hf⟩
    rw [hrow] at h
    obtain rfl := Option.some.inj h
    exact JobRecord.SameJob.withStatus (.refl _) _

/-- An entry that was not in the stream before is there to be delivered. -/
theorem QueueStep.live_of_new {q q' : RedisStreamsQueue} (h : QueueStep q q') {e : EntryId}
    {entry : StreamEntry} (hnew : q.jobs.log[e]? = none) (he : q'.jobs.log[e]? = some entry) :
    q'.jobs.Live e := by
  have hlt : e < q'.jobs.log.length := (List.getElem?_eq_some_iff.mp he).1
  have hge : q.jobs.log.length ≤ e := List.getElem?_eq_none_iff.mp hnew
  cases h with
  | publish => exact ⟨hlt, .inl (q.jobs.delivered_le.trans hge)⟩
  | lease hdeliver =>
    have hlog := (ConsumerGroup.deliver_spec hdeliver).2.2.1
    exact absurd (hlog ▸ hlt) (not_lt.mpr hge)
  | same | acknowledge | renew | deadLetter => exact absurd hlt (not_lt.mpr hge)

/-- What a step of any actor leaves in place. -/
structure Grid.Grows (g g' : Grid) : Prop where
  queue : g.queue.Grows g'.queue
  history : ∀ j, (g.db.history j).Grows (g'.db.history j)

theorem Transition.grows {cfg : Deployment} {i : ℕ} {g g' : Grid} {l l' : ActorState}
    {a : Action} (h : Transition cfg i g l a g' l') : g.Grows g' where
  queue := h.queueStep.grows
  history j := ((h.dbStep (G := fun _ _ => True) fun _ _ _ _ _ _ _ _ => trivial).history j).grows

namespace Grid
variable {g g' : Grid} {m : QueueJobMessage} {job : JobRecord}

/-- The message is the delivered entry of the stream its entry id names. -/
def Holds (g : Grid) (m : QueueJobMessage) : Prop :=
  ∃ (e : EntryId) (entry : StreamEntry), g.queue.jobs.log[e]? = some entry ∧
    e < g.queue.jobs.delivered ∧ m = { entry.message with entryId := some e }

/-- The record is the row of the message's job, its status apart. -/
def Carries (g : Grid) (m : QueueJobMessage) (job : JobRecord) : Prop :=
  job.id = m.jobId ∧ ∃ row, g.db.loadJob m.jobId = some row ∧ job.SameJob row

/-- Every message in the stream is of a job with a row. -/
def LogSound (g : Grid) : Prop :=
  ∀ (e : EntryId) (entry : StreamEntry), g.queue.jobs.log[e]? = some entry →
    ∃ row, g.db.loadJob entry.message.jobId = some row

theorem Grows.loadJob (h : g.Grows g') {j : JobId} {row : JobRecord}
    (hrow : g.db.loadJob j = some row) :
    ∃ row', g'.db.loadJob j = some row' ∧ row.SameJob row' := (h.history j).row row hrow

theorem Grows.log (h : g.Grows g') {e : EntryId} {entry : StreamEntry}
    (he : g.queue.jobs.log[e]? = some entry) : g'.queue.jobs.log[e]? = some entry := by
  obtain ⟨es, hes⟩ := h.queue.log
  rw [← hes, List.getElem?_append_left (List.getElem?_eq_some_iff.mp he).1]
  exact he

theorem Grows.finalized (h : g.Grows g') {j : JobId} (hj : g.db.Finalized j) :
    g'.db.Finalized j := by
  obtain ⟨f, hf⟩ := Database.finalized_iff.mp hj
  exact Database.finalized_iff.mpr ⟨f, (h.history j).finalization f hf⟩

theorem Holds.mono (hm : g.Holds m) (h : g.Grows g') : g'.Holds m := by
  obtain ⟨e, entry, he, hd, rfl⟩ := hm
  exact ⟨e, entry, h.log he, hd.trans_le h.queue.delivered, rfl⟩

theorem Carries.mono (hj : g.Carries m job) (h : g.Grows g') : g'.Carries m job := by
  obtain ⟨hid, row, hrow, hsame⟩ := hj
  obtain ⟨row', hrow', hsame'⟩ := h.loadJob hrow
  exact ⟨hid, row', hrow', hsame.trans hsame'⟩

theorem carries_of_loadJob {j : JobId} (h : g.db.loadJob j = some job) (hj : j = m.jobId) :
    g.Carries m job := by
  subst hj
  exact ⟨Database.id_of_loadJob h, job, h, .refl job⟩

theorem LogSound.loadJob_ne_none (hlog : g.LogSound) (hm : g.Holds m) :
    g.db.loadJob m.jobId ≠ none := by
  obtain ⟨e, entry, he, -, rfl⟩ := hm
  obtain ⟨row, hrow⟩ := hlog e entry he
  exact Option.ne_none_iff_exists'.mpr ⟨row, hrow⟩

end Grid

/-- What the worker's local data is, in terms of the shared state. -/
def WorkerState.Sound (g : Grid) : WorkerState → Prop
  | .leased m => g.Holds m
  | .dispatchAck m exit | .dispatchCommit m exit => g.Holds m ∧
      match exit with
      | .missing => False
      | .terminal => True
      | .budgetBlocked job _ => g.Carries m job
  | .executing m job | .handling m job _ | .writingArtifact m job _ | .crossLinking m job _ _ _
  | .completing m job _ => g.Holds m ∧ g.Carries m job
  | .retryPublish m job n =>
      g.Holds m ∧ g.Carries m job ∧ n = m.attemptNumber + 1 ∧ m.attemptNumber ≤ job.maxRetries
  | .acknowledging m => g.Holds m
  | .returned _ | .raised _ => True

def RecoveryState.Sound (g : Grid) : RecoveryState → Prop
  | .planning leases _ => ∀ lease ∈ leases, g.Holds lease.message
  | .publishing lease message rest _ =>
      (∃ job, g.Carries lease.message job ∧
        message = job.message (lease.message.attemptNumber + 1) ∧
        lease.message.attemptNumber ≤ job.maxRetries) ∧
      ∀ lease' ∈ lease :: rest, g.Holds lease'.message
  | .deadLettering lease rest _ => ∀ lease' ∈ lease :: rest, g.Holds lease'.message
  | .acknowledging kind lease rest _ =>
      kind ≠ .ackMissing ∧ ∀ lease' ∈ lease :: rest, g.Holds lease'.message
  | .returned _ | .raised _ => True

def ActorState.Sound (g : Grid) : ActorState → Prop
  | .idle => True
  | .worker st => st.Sound g
  | .recovery st => st.Sound g

theorem WorkerState.Sound.mono {g g' : Grid} (h : g.Grows g') {st : WorkerState}
    (hst : st.Sound g) : st.Sound g' := by
  cases st with
  | leased m => exact Grid.Holds.mono hst h
  | dispatchAck m exit | dispatchCommit m exit =>
    refine ⟨Grid.Holds.mono hst.1 h, ?_⟩
    cases exit with
    | missing => exact hst.2
    | terminal => trivial
    | budgetBlocked job exc => exact Grid.Carries.mono hst.2 h
  | executing m job | handling m job error | writingArtifact m job result
  | crossLinking m job result metadata p | completing m job result =>
    exact ⟨hst.1.mono h, hst.2.mono h⟩
  | retryPublish m job n => exact ⟨hst.1.mono h, hst.2.1.mono h, hst.2.2⟩
  | acknowledging m => exact Grid.Holds.mono hst h
  | returned processed | raised c => trivial

theorem RecoveryState.Sound.mono {g g' : Grid} (h : g.Grows g') {st : RecoveryState}
    (hst : st.Sound g) : st.Sound g' := by
  cases st with
  | planning leases result | deadLettering lease rest result =>
    exact fun lease hl => (hst lease hl).mono h
  | publishing lease message rest result =>
    obtain ⟨⟨job, hjob, hm⟩, hrest⟩ := hst
    exact ⟨⟨job, hjob.mono h, hm⟩, fun lease hl => (hrest lease hl).mono h⟩
  | acknowledging kind lease rest result => exact ⟨hst.1, fun lease hl => (hst.2 lease hl).mono h⟩
  | returned result | raised c => trivial

theorem ActorState.Sound.mono {g g' : Grid} (h : g.Grows g') {l : ActorState} (hl : l.Sound g) :
    l.Sound g' := by
  cases l with
  | idle => trivial
  | worker st => exact WorkerState.Sound.mono h hl
  | recovery st => exact RecoveryState.Sound.mono h hl

private theorem WorkerTransition.sound {w : Worker} {env : Env} {g g' : Grid}
    {st st' : WorkerState} (h : WorkerTransition w env g st g' st') (hgrows : g.Grows g')
    (hlog : g.LogSound) (hst : st.Sound g) : st'.Sound g' := by
  cases h with
  | dispatchMissing hjob => exact absurd hjob (hlog.loadJob_ne_none hst)
  | dispatchTerminal => exact ⟨Grid.Holds.mono hst hgrows, trivial⟩
  | dispatchBlocked hjob =>
    exact ⟨Grid.Holds.mono hst hgrows, (Grid.carries_of_loadJob hjob rfl).mono hgrows⟩
  | dispatchRunning hjob =>
    exact ⟨Grid.Holds.mono hst hgrows, (Grid.carries_of_loadJob hjob rfl).mono hgrows⟩
  | @dispatchAck m exit =>
    have hst : WorkerState.Sound g (.dispatchCommit m exit) := hst
    exact hst.mono hgrows
  | retryScheduled hretries =>
    exact ⟨hst.1.mono hgrows, hst.2.mono hgrows, rfl, hretries⟩
  | handled | retryPublish | completed => exact hst.1.mono hgrows
  | artifactWritten _ hnext =>
    obtain rfl | ⟨p, -, rfl⟩ := hnext
    · exact ⟨hst.1.mono hgrows, hst.2.mono hgrows⟩
    · exact ⟨hst.1.mono hgrows, hst.2.mono hgrows⟩
  | crossLinked => exact ⟨hst.1.mono hgrows, hst.2.mono hgrows⟩
  | missingReturns | terminalReturns | blockedCommits | blockedRaises | handlingRaises
  | artifactRaises | crossLinkRaises | completingRaises | acknowledged => trivial

private theorem RecoveryTransition.sound {who : String} {g g' : Grid} {st st' : RecoveryState}
    (h : RecoveryTransition who g st g' st') (hgrows : g.Grows g') (hlog : g.LogSound)
    (hst : st.Sound g) : st'.Sound g' := by
  cases h with
  | returned => trivial
  | planMissing hjob => exact absurd hjob (hlog.loadJob_ne_none (hst _ List.mem_cons_self))
  | planTerminal => exact ⟨by simp, hst⟩
  | planRequeue hjob _ hretries =>
    exact ⟨⟨_, (Grid.carries_of_loadJob hjob rfl).mono hgrows, rfl, hretries⟩,
      fun lease hl => (hst lease hl).mono hgrows⟩
  | planDlq => exact fun lease hl => (hst lease hl).mono hgrows
  | published => exact ⟨by simp, fun lease hl => (hst.2 lease hl).mono hgrows⟩
  | deadLettered => exact ⟨by simp, fun lease hl => (hst lease hl).mono hgrows⟩
  | acknowledged => exact fun lease hl => (hst.2 lease (List.mem_cons_of_mem _ hl)).mono hgrows

theorem Transition.sound {cfg : Deployment} {i : ℕ} {g g' : Grid} {l l' : ActorState} {a : Action}
    (h : Transition cfg i g l a g' l') (hlog : g.LogSound) (hl : l.Sound g) : l'.Sound g' := by
  have hgrows := h.grows
  cases h with
  | crash | createJob | publishJob | cancelQueuedJob | leaseNone | finish => trivial
  | lease hdeliver =>
    obtain ⟨-, hentry, hlog', hdelivered, -⟩ := ConsumerGroup.deliver_spec hdeliver
    exact ⟨_, _, by rw [hlog']; exact hentry, by rw [hdelivered]; exact Nat.lt_succ_self _, rfl⟩
  | recover =>
    intro lease hlease
    obtain ⟨e, entry, hpending, hentry, hm⟩ := RedisStreamsQueue.mem_findStaleLeases hlease
    exact ⟨e, entry, hentry, hpending.lt_delivered, hm⟩
  | worker h => exact h.sound hgrows hlog hl
  | @run m job writes outcome =>
    have hl : WorkerState.Sound _ (.executing m job) := WorkerState.Sound.mono hgrows hl
    cases outcome with
    | success result =>
      change WorkerState.Sound _ (if _ then _ else _)
      split <;> exact hl
    | raised c => trivial
    | _ => exact hl
  | renewLease he => exact WorkerState.Sound.mono hgrows hl
  | recovery h => exact h.sound hgrows hlog hl

/-- Who appends which entry to the stream. -/
inductive Publishes (g : Grid) : ActorState → Action → ActorState → StreamEntry → Prop where
  | client {j : JobId} {n : ℤ} {job : JobRecord} (hjob : g.db.loadJob j = some job) :
      Publishes g .idle (.publishJob j n) .idle ⟨job.message n, none⟩
  | retry {m : QueueJobMessage} {job : JobRecord} {n : ℤ} {now : String} :
      Publishes g (.worker (.retryPublish m job n)) (.advance now) (.worker (.acknowledging m))
        ⟨job.message n, m.entryId⟩
  | requeue {lease : StaleLease} {message : QueueJobMessage} {rest : List StaleLease}
      {result : StaleLeaseRecoveryResult} {now : String} :
      Publishes g (.recovery (.publishing lease message rest result)) (.advance now)
        (.recovery (.acknowledging .requeue lease rest result)) ⟨message, lease.message.entryId⟩

theorem Transition.log {cfg : Deployment} {i : ℕ} {g g' : Grid} {l l' : ActorState} {a : Action}
    (h : Transition cfg i g l a g' l') : g'.queue.jobs.log = g.queue.jobs.log ∨
      ∃ entry, Publishes g l a l' entry ∧ g'.queue.jobs.log = g.queue.jobs.log ++ [entry] := by
  have acknowledge : ∀ m, (g.acknowledge m).queue.jobs.log = g.queue.jobs.log := by
    intro m
    unfold Grid.acknowledge
    split <;> rfl
  cases h with
  | crash => exact .inl (by rw [Grid.queue_rollback])
  | publishJob hjob => exact .inr ⟨_, .client hjob, rfl⟩
  | lease hdeliver => exact .inl (ConsumerGroup.deliver_spec hdeliver).2.2.1
  | worker h =>
    cases h with
    | dispatchAck | acknowledged => exact .inl (acknowledge _)
    | retryPublish => exact .inr ⟨_, .retry, rfl⟩
    | _ => exact .inl rfl
  | recovery h =>
    cases h with
    | published => exact .inr ⟨_, .requeue, rfl⟩
    | acknowledged => exact .inl (acknowledge _)
    | _ => exact .inl rfl
  | _ => exact .inl rfl

theorem Publishes.loadJob {g : Grid} {l l' : ActorState} {a : Action} {entry : StreamEntry}
    (h : Publishes g l a l' entry) (hl : l.Sound g) :
    ∃ row, g.db.loadJob entry.message.jobId = some row := by
  cases h with
  | @client j n job hjob =>
    have hid : (job.message n).jobId = j := Database.id_of_loadJob hjob
    exact ⟨job, by rw [hid]; exact hjob⟩
  | @retry m job n =>
    obtain ⟨-, ⟨hid, row, hrow, -⟩, -⟩ := hl
    have hid : (job.message n).jobId = m.jobId := hid
    exact ⟨row, by rw [hid]; exact hrow⟩
  | @requeue lease =>
    obtain ⟨⟨job, ⟨hid, row, hrow, -⟩, rfl, -⟩, -⟩ := hl
    have hid : (job.message (lease.message.attemptNumber + 1)).jobId = lease.message.jobId := hid
    exact ⟨row, by rw [hid]; exact hrow⟩

theorem getElem?_append_singleton {α : Type*} {as : List α} {a b : α} {n : ℕ}
    (h : (as ++ [a])[n]? = some b) : as[n]? = some b ∨ n = as.length ∧ b = a := by
  rw [List.getElem?_append] at h
  split at h
  · exact .inl h
  next hlt =>
    rw [List.getElem?_singleton] at h
    split at h
    next hz => exact .inr ⟨by omega, (Option.some.inj h).symm⟩
    next => cases h

theorem Transition.logSound {cfg : Deployment} {i : ℕ} {g g' : Grid} {l l' : ActorState}
    {a : Action} (h : Transition cfg i g l a g' l') (hlog : g.LogSound) (hl : l.Sound g) :
    g'.LogSound := by
  intro e entry he
  have hold : ∃ row, g.db.loadJob entry.message.jobId = some row := by
    rcases h.log with heq | ⟨entry', hpub, heq⟩
    · exact hlog e entry (heq ▸ he)
    · rw [heq] at he
      rcases getElem?_append_singleton he with he | ⟨-, rfl⟩
      · exact hlog e entry he
      · exact hpub.loadJob hl
  obtain ⟨row, hrow⟩ := hold
  obtain ⟨row', hrow', -⟩ := h.grows.loadJob hrow
  exact ⟨row', hrow'⟩

namespace Deployment

/-- Every actor's local data is sound and every message is of a stored job. -/
def Sound (s : State) : Prop := s.shared.LogSound ∧ ∀ i, (s.locals i).Sound s.shared

theorem sound_step {cfg : Deployment} {s t : State} {a : ℕ × Action}
    (h : cfg.lts.step s a = some t) (hs : Sound s) : Sound t := by
  obtain ⟨g', l', ht, rfl⟩ := step_transition h
  refine ⟨ht.logSound hs.1 (hs.2 a.1), ?_⟩
  exact Actors.forall_locals_update (P := fun _ l => ActorState.Sound g' l)
    (ht.sound hs.1 (hs.2 a.1)) fun k _ => (hs.2 k).mono ht.grows

theorem sound_init (cfg : Deployment) : Sound cfg.lts.init :=
  ⟨fun _ _ h => (nomatch h), fun _ => trivial⟩

theorem sound_reachable {cfg : Deployment} {s : State} (hs : cfg.lts.Reachable Lts.anyStep s) :
    Sound s :=
  Lts.Reachable.invariant (P := Sound) (sound_init cfg)
    (fun _ _ _ _ hs _ hstep => sound_step hstep hs) hs

end Deployment
end AgentRuntimeGrid
