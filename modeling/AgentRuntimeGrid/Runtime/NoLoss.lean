import AgentRuntimeGrid.Runtime.Provenance

/-! No published job is lost: an entry is acknowledged only when its job is finalized or its
successor is in the stream, as long as no acknowledgement is sent from inside a dispatch
transaction that still has a `budget_blocked` event to commit. -/
namespace AgentRuntimeGrid

namespace Grid
variable {g g' : Grid}

/-- A rescheduling event of the message's attempt is committed. -/
def Rescheduled (g : Grid) (m : QueueJobMessage) : Prop :=
  ∃ ev ∈ g.db.eventsOf m.jobId,
    (ev.eventType = .retryScheduled ∨ ev.eventType = .staleLeaseRecovered) ∧
      ev.eventData.attemptNumber = some m.attemptNumber

/-- The entry has a successor in the stream, published by whoever handled the entry. -/
def HasSuccessor (g : Grid) (e : EntryId) (j : JobId) : Prop :=
  ∃ (e' : EntryId) (entry : StreamEntry), e < e' ∧ g.queue.jobs.log[e']? = some entry ∧
    entry.cause = some e ∧ entry.message.jobId = j

/-- The database outcome that makes the entry of a message dispensable is committed. -/
def Covered (g : Grid) (e : EntryId) (m : QueueJobMessage) : Prop :=
  g.db.Finalized m.jobId ∨ (g.Rescheduled m ∧ g.HasSuccessor e m.jobId)

/-- Every entry of the stream is live or dispensable. -/
def NothingLost (g : Grid) : Prop :=
  ∀ (e : EntryId) (entry : StreamEntry), g.queue.jobs.log[e]? = some entry →
    g.queue.jobs.Live e ∨ g.Covered e entry.message

theorem Rescheduled.mono (h : g.Grows g') {m : QueueJobMessage} (hm : g.Rescheduled m) :
    g'.Rescheduled m := by
  obtain ⟨ev, hev, htype⟩ := hm
  exact ⟨ev, (h.history m.jobId).events.subset hev, htype⟩

theorem HasSuccessor.mono (h : g.Grows g') {e : EntryId} {j : JobId} (he : g.HasSuccessor e j) :
    g'.HasSuccessor e j := by
  obtain ⟨e', entry, hlt, hentry, hcause⟩ := he
  exact ⟨e', entry, hlt, h.log hentry, hcause⟩

theorem Covered.mono (h : g.Grows g') {e : EntryId} {m : QueueJobMessage} (he : g.Covered e m) :
    g'.Covered e m :=
  he.imp h.finalized fun hs => ⟨hs.1.mono h, hs.2.mono h⟩

end Grid

def ActorState.acknowledges : ActorState → Option EntryId
  | .worker (.dispatchAck m _) => m.entryId
  | .worker (.acknowledging m) => m.entryId
  | .recovery (.acknowledging _ lease _ _) => lease.message.entryId
  | _ => none

theorem ActorState.acknowledges_eq_some {l : ActorState} {e : EntryId}
    (h : l.acknowledges = some e) :
    (∃ m exit, l = .worker (.dispatchAck m exit) ∧ m.entryId = some e) ∨
    (∃ m, l = .worker (.acknowledging m) ∧ m.entryId = some e) ∨
    ∃ kind lease rest result, l = .recovery (.acknowledging kind lease rest result) ∧
      lease.message.entryId = some e := by
  cases l with
  | idle => cases h
  | worker st =>
    cases st with
    | dispatchAck m exit => exact .inl ⟨m, exit, rfl, h⟩
    | acknowledging m => exact .inr (.inl ⟨m, rfl, h⟩)
    | _ => cases h
  | recovery st =>
    cases st with
    | acknowledging kind lease rest result => exact .inr (.inr ⟨kind, lease, rest, result, rfl, h⟩)
    | _ => cases h

theorem Grid.live_acknowledge {g : Grid} {m : QueueJobMessage} {e : EntryId}
    (h : g.queue.jobs.Live e) : (g.acknowledge m).queue.jobs.Live e ∨ m.entryId = some e := by
  unfold Grid.acknowledge
  cases hm : m.entryId with
  | none => exact .inl h
  | some e' =>
    by_cases he : e = e'
    · exact .inr (congrArg some he.symm)
    · exact .inl (ConsumerGroup.live_ack h he)

/-- An entry stops being live only when an actor acknowledges it. -/
theorem Transition.live {cfg : Deployment} {i : ℕ} {g g' : Grid} {l l' : ActorState} {a : Action}
    (h : Transition cfg i g l a g' l') {e : EntryId} (he : g.queue.jobs.Live e) :
    g'.queue.jobs.Live e ∨ (l.acknowledges = some e ∧ ∃ now, a = .advance now) := by
  cases h with
  | crash => exact .inl (by rwa [Grid.queue_rollback])
  | publishJob => exact .inl (ConsumerGroup.live_append he)
  | lease hdeliver => exact .inl (ConsumerGroup.live_deliver hdeliver he)
  | @worker _ _ now _ h =>
    cases h with
    | dispatchAck | acknowledged =>
      exact (Grid.live_acknowledge he).imp id fun h => ⟨h, now, rfl⟩
    | retryPublish => exact .inl (ConsumerGroup.live_append he)
    | _ => exact .inl he
  | renewLease => exact .inl (ConsumerGroup.live_claim he)
  | @recovery _ _ now _ h =>
    cases h with
    | published => exact .inl (ConsumerGroup.live_append he)
    | acknowledged => exact (Grid.live_acknowledge he).imp id fun h => ⟨h, now, rfl⟩
    | _ => exact .inl he
  | _ => exact .inl he

def WorkerState.Justified (g : Grid) : WorkerState → Prop
  | .dispatchAck m .terminal | .acknowledging m => ∀ e, m.entryId = some e → g.Covered e m
  | .retryPublish m _ _ => g.Rescheduled m
  | _ => True

def RecoveryState.Justified (g : Grid) : RecoveryState → Prop
  | .publishing lease _ _ _ => g.Rescheduled lease.message
  | .deadLettering lease _ _ | .acknowledging _ lease _ _ =>
      ∀ e, lease.message.entryId = some e → g.Covered e lease.message
  | _ => True

/-- What the actor is about to acknowledge is dispensable already. -/
def ActorState.Justified (g : Grid) : ActorState → Prop
  | .idle => True
  | .worker st => st.Justified g
  | .recovery st => st.Justified g

theorem ActorState.Justified.mono {g g' : Grid} (h : g.Grows g') {l : ActorState}
    (hl : l.Justified g) : l.Justified g' := by
  cases l with
  | idle => trivial
  | worker st =>
    cases st with
    | dispatchAck m exit =>
      cases exit with
      | terminal => exact fun e he => (hl e he).mono h
      | missing | budgetBlocked => trivial
    | acknowledging m => exact fun e he => (hl e he).mono h
    | retryPublish m job n => exact Grid.Rescheduled.mono h hl
    | _ => trivial
  | recovery st =>
    cases st with
    | publishing lease m rest result => exact Grid.Rescheduled.mono h hl
    | deadLettering lease rest result | acknowledging kind lease rest result =>
      exact fun e he => (hl e he).mono h
    | _ => trivial

namespace Grid
variable {g : Grid}

private theorem finalized_of_terminal (hlaw : ∀ j, (g.db.history j).Lawful) {j : JobId}
    {job : JobRecord} (hjob : g.db.loadJob j = some job) (h : job.status.terminal = true) :
    g.db.Finalized j := (hlaw j).settled job hjob h

private theorem rescheduled_of_record {db : Database} {m : QueueJobMessage} {job : JobRecord}
    {eventType : EventType} {eventData : EventData} {q : RedisStreamsQueue} {files : FileStore}
    {locks : List JobId} (hid : job.id = m.jobId)
    (htype : eventType = .retryScheduled ∨ eventType = .staleLeaseRecovered)
    (hdata : eventData.attemptNumber = some m.attemptNumber)
    (hdb : g.db.recordStateEvent job .queued eventType eventData = some db) :
    Grid.Rescheduled ⟨db, q, files, locks⟩ m :=
  ⟨_, hid ▸ Database.mem_eventsOf_recordStateEvent hdb, htype, hdata⟩

private theorem hasSuccessor_of_publish {m : QueueJobMessage} {message : QueueJobMessage}
    {e : EntryId} (hm : g.Holds m) (he : m.entryId = some e) (hid : message.jobId = m.jobId) :
    HasSuccessor { g with queue := g.queue.publishJob message m.entryId } e m.jobId := by
  obtain ⟨e₀, entry, -, hlt, rfl⟩ := hm
  obtain rfl := Option.some.inj he
  refine ⟨g.queue.jobs.log.length, ⟨message, some e₀⟩, ?_, ?_, rfl, hid⟩
  · exact hlt.trans_le g.queue.jobs.delivered_le
  · exact List.getElem?_concat_length

end Grid

private theorem WorkerTransition.justified {w : Worker} {env : Env} {g g' : Grid}
    {st st' : WorkerState} (h : WorkerTransition w env g st g' st') (hgrows : g.Grows g')
    (hlaw : ∀ j, (g.db.history j).Lawful) (hst : st.Sound g) (hj : st.Justified g) :
    st'.Justified g' := by
  cases h with
  | dispatchTerminal hjob hterminal =>
    exact fun _ _ => .inl (hgrows.finalized (Grid.finalized_of_terminal hlaw hjob hterminal))
  | retryScheduled _ _ hdb =>
    exact Grid.rescheduled_of_record hst.2.1 (.inl rfl) rfl hdb
  | handled _ hdb =>
    exact fun _ _ => .inl (hst.2.1 ▸ Database.finalized_of_finalizeJob hdb)
  | completed hdb =>
    exact fun _ _ => .inl (hst.2.1 ▸ Database.finalized_of_finalizeJob hdb)
  | retryPublish =>
    obtain ⟨hm, ⟨hid, -⟩, -⟩ := hst
    exact fun e he => .inr ⟨Grid.Rescheduled.mono hgrows hj,
      Grid.hasSuccessor_of_publish hm he hid⟩
  | artifactWritten _ hnext =>
    obtain rfl | ⟨p, -, rfl⟩ := hnext <;> trivial
  | dispatchMissing | dispatchBlocked | dispatchRunning | dispatchAck | missingReturns
  | terminalReturns | blockedCommits | blockedRaises | handlingRaises | artifactRaises
  | crossLinkRaises | crossLinked | completingRaises | acknowledged => trivial

private theorem RecoveryTransition.justified {who : String} {g g' : Grid} {st st' : RecoveryState}
    (h : RecoveryTransition who g st g' st') (hgrows : g.Grows g')
    (hlaw : ∀ j, (g.db.history j).Lawful) (hlog : g.LogSound) (hst : st.Sound g)
    (hj : st.Justified g) : st'.Justified g' := by
  cases h with
  | planTerminal hjob hterminal =>
    exact fun _ _ => .inl (Grid.finalized_of_terminal hlaw hjob hterminal)
  | planRequeue hjob _ _ hdb =>
    exact Grid.rescheduled_of_record (Database.id_of_loadJob hjob) (.inr rfl) rfl hdb
  | planDlq hjob _ _ hdb =>
    exact fun _ _ => .inl (Database.id_of_loadJob hjob ▸ Database.finalized_of_finalizeJob hdb)
  | published =>
    obtain ⟨⟨job, ⟨hid, -⟩, rfl, -⟩, hm⟩ := hst
    exact fun e he => .inr ⟨Grid.Rescheduled.mono hgrows hj,
      Grid.hasSuccessor_of_publish (hm _ List.mem_cons_self) he hid⟩
  | deadLettered => exact fun e he => (hj e he).mono hgrows
  | planMissing hjob => exact absurd hjob (hlog.loadJob_ne_none (hst _ List.mem_cons_self))
  | returned | acknowledged => trivial

theorem Transition.justified {cfg : Deployment} {i : ℕ} {g g' : Grid} {l l' : ActorState}
    {a : Action} (h : Transition cfg i g l a g' l') (hlaw : ∀ j, (g.db.history j).Lawful)
    (hlog : g.LogSound) (hl : l.Sound g) (hj : l.Justified g) : l'.Justified g' := by
  have hgrows := h.grows
  cases h with
  | worker h => exact h.justified hgrows hlaw hl hj
  | recovery h => exact h.justified hgrows hlaw hlog hl hj
  | renewLease => exact ActorState.Justified.mono hgrows hj
  | @run m job writes outcome =>
    cases outcome with
    | success result =>
      change WorkerState.Justified _ (if _ then _ else _)
      split <;> trivial
    | _ => trivial
  | crash | createJob | publishJob | cancelQueuedJob | leaseNone | lease | recover | finish =>
    trivial

namespace Deployment
variable {cfg : Deployment} {s t : State}

/-- The step sends no acknowledgement from inside a dispatch transaction whose `budget_blocked`
event is still to be committed. -/
def NoEarlyAck (s : State) (a : ℕ × Action) : Prop :=
  ∀ m job exc now, s.locals a.1 = .worker (.dispatchAck m (.budgetBlocked job exc)) →
    a.2 ≠ .advance now

/-- An actor that acknowledges an entry holds its message, and the entry is dispensable. -/
private theorem covered_of_acknowledges {i : ℕ} {now : String} {e : EntryId} (hs : Sound s)
    (hj : (s.locals i).Justified s.shared) (hc : NoEarlyAck s (i, .advance now))
    (he : (s.locals i).acknowledges = some e) :
    ∃ m, s.shared.Holds m ∧ m.entryId = some e ∧ s.shared.Covered e m := by
  have hl := hs.2 i
  rcases ActorState.acknowledges_eq_some he with ⟨m, exit, h, hm⟩ | ⟨m, h, hm⟩ |
    ⟨kind, lease, rest, result, h, hm⟩
  · rw [h] at hl hj
    cases exit with
    | missing => exact hl.2.elim
    | terminal => exact ⟨m, hl.1, hm, hj e hm⟩
    | budgetBlocked job exc => exact absurd rfl (hc m job exc now h)
  · rw [h] at hl hj
    exact ⟨m, hl, hm, hj e hm⟩
  · rw [h] at hl hj
    exact ⟨lease.message, hl.2 lease List.mem_cons_self, hm, hj e hm⟩

/-- An entry that stops being live in a step is dispensable before it. -/
private theorem covered_of_not_live {a : ℕ × Action} (hs : Sound s)
    (hj : ∀ i, (s.locals i).Justified s.shared) (hc : NoEarlyAck s a)
    (h : cfg.lts.step s a = some t) {e : EntryId} {entry : StreamEntry}
    (hentry : s.shared.queue.jobs.log[e]? = some entry) (hlive : s.shared.queue.jobs.Live e)
    (hdead : ¬ t.shared.queue.jobs.Live e) : s.shared.Covered e entry.message := by
  obtain ⟨i, a⟩ := a
  obtain ⟨g', l', ht, rfl⟩ := step_transition h
  obtain hlive' | ⟨he, now, rfl⟩ := ht.live hlive
  · exact absurd hlive' hdead
  · obtain ⟨m, ⟨e₀, entry₀, hentry₀, -, rfl⟩, hm, hcovered⟩ :=
      covered_of_acknowledges hs (hj i) hc he
    obtain rfl := Option.some.inj hm
    rw [hentry] at hentry₀
    obtain rfl := Option.some.inj hentry₀
    exact hcovered

private theorem nothingLost_step {a : ℕ × Action} (hs : Sound s)
    (hj : ∀ i, (s.locals i).Justified s.shared) (hc : NoEarlyAck s a)
    (h : cfg.lts.step s a = some t) (hlost : s.shared.NothingLost) : t.shared.NothingLost := by
  obtain ⟨g', l', ht, hteq⟩ := step_transition h
  have hgrows : s.shared.Grows t.shared := hteq ▸ ht.grows
  have hqueue : QueueStep s.shared.queue t.shared.queue := hteq ▸ ht.queueStep
  intro e entry hentry
  by_cases hlive : t.shared.queue.jobs.Live e
  · exact .inl hlive
  right
  cases hold : s.shared.queue.jobs.log[e]? with
  | none => exact absurd (hqueue.live_of_new hold hentry) hlive
  | some entry₀ =>
    rw [hgrows.log hold] at hentry
    obtain rfl := Option.some.inj hentry
    rcases hlost e entry₀ hold with hl | hcovered
    · exact (covered_of_not_live hs hj hc h hold hl hlive).mono hgrows
    · exact hcovered.mono hgrows

private theorem nothingLost_reachable (hs : cfg.lts.Reachable NoEarlyAck s) :
    s.shared.NothingLost ∧ ∀ i, (s.locals i).Justified s.shared := by
  refine Lts.Reachable.invariant
    (P := fun s => s.shared.NothingLost ∧ ∀ i, (s.locals i).Justified s.shared)
    ⟨fun _ _ h => (nomatch h), fun _ => trivial⟩ ?_ hs
  intro s a t hs hinv hc h
  have hsound := sound_reachable hs.weaken
  refine ⟨nothingLost_step hsound hinv.2 hc h hinv.1, ?_⟩
  obtain ⟨g', l', ht, rfl⟩ := step_transition h
  exact Actors.forall_locals_update (P := fun _ l => ActorState.Justified g' l)
    (ht.justified (history_lawful hs.weaken) hsound.1 (hsound.2 a.1) (hinv.2 a.1))
    fun k _ => (hinv.2 k).mono ht.grows

/-- A job with a message in the stream is finalized or has a live entry: from any entry of the
job the chain of successors leads to one. -/
theorem exists_live {g : Grid} (hlost : g.NothingLost) {j : JobId}
    (hopen : ¬ g.db.Finalized j) {e : EntryId} {entry : StreamEntry}
    (hentry : g.queue.jobs.log[e]? = some entry) (hj : entry.message.jobId = j) :
    ∃ (e' : EntryId) (entry' : StreamEntry), g.queue.jobs.log[e']? = some entry' ∧
      entry'.message.jobId = j ∧ g.queue.jobs.Live e' := by
  induction hn : g.queue.jobs.log.length - e using Nat.strong_induction_on generalizing e entry with
  | _ n ih =>
    rcases hlost e entry hentry with hlive | hfin | ⟨-, e', entry', hlt, hentry', -, hj'⟩
    · exact ⟨e, entry, hentry, hj, hlive⟩
    · exact absurd (hj ▸ hfin) hopen
    · have hlength := (List.getElem?_eq_some_iff.mp hentry').1
      have hshorter := Nat.sub_lt_sub_left (hlt.trans hlength) hlt
      exact ih _ (hn ▸ hshorter) hentry' (hj'.trans hj) rfl

/-- In a run without early acknowledgements every job that has been published and has no
finalization row keeps a live entry, and every acknowledgement comes after the outcome that
justifies it. -/
theorem no_published_job_lost (hs : cfg.lts.Reachable NoEarlyAck s) :
    (∀ (j : JobId) (e : EntryId) (entry : StreamEntry),
      s.shared.queue.jobs.log[e]? = some entry → entry.message.jobId = j →
      ¬ s.shared.db.Finalized j →
      ∃ (e' : EntryId) (entry' : StreamEntry), s.shared.queue.jobs.log[e']? = some entry' ∧
        entry'.message.jobId = j ∧ s.shared.queue.jobs.Live e') ∧
    ∀ a t, NoEarlyAck s a → cfg.lts.step s a = some t →
      ∀ (e : EntryId) (entry : StreamEntry), s.shared.queue.jobs.log[e]? = some entry →
        s.shared.queue.jobs.Pending e → ¬ t.shared.queue.jobs.Pending e →
        s.shared.Covered e entry.message := by
  have hinv := nothingLost_reachable hs
  have hsound := sound_reachable hs.weaken
  constructor
  · intro j e entry hentry hj hopen
    exact exists_live hinv.1 hopen hentry hj
  · intro a t hc h e entry hentry hpending hacked
    refine covered_of_not_live hsound hinv.2 hc h hentry hpending.live fun hlive => ?_
    obtain ⟨g', l', ht, rfl⟩ := step_transition h
    rcases hlive.2 with hundelivered | hp
    · exact absurd (hpending.lt_delivered.trans_le ht.grows.queue.delivered)
        (not_lt.mpr hundelivered)
    · exact hacked hp

private def notBlocked (s : State) (a : ℕ × Action) : Bool :=
  match s.locals a.1 with
  | .worker (.dispatchAck _ (.budgetBlocked _ _)) => false
  | _ => true

/-- A worker that dies while it executes a job leaves the entry to be recovered. -/
theorem no_published_job_lost_crash : ∃ s, stubDeployment.lts.Reachable NoEarlyAck s ∧
    ¬ s.shared.db.Finalized 1 ∧
    ∃ (e : EntryId) (entry : StreamEntry), s.shared.queue.jobs.log[e]? = some entry ∧
      entry.message.jobId = 1 ∧ s.shared.queue.jobs.Live e := by
  obtain ⟨s, hs, hp⟩ := Lts.exists_run_of_exec (L := stubDeployment.lts) (C := NoEarlyAck)
    (c := notBlocked) (fun s a h m job exc now hl => by simp [notBlocked, hl] at h)
    stubDeployment.lts.init
    [(0, .createJob stubSubmission), (0, .publishJob 1 1), (1, .processOne), (1, .advance ""),
      (1, .crash)]
    (fun s => !decide (s.shared.db.Finalized 1) &&
      s.shared.queue.jobs.log[0]?.any (·.message.jobId = 1)) (by decide)
  obtain ⟨hopen, hentry⟩ := Bool.and_eq_true_iff.mp hp
  obtain ⟨entry, hentry, hj⟩ := (Option.any_eq_true _ _).mp hentry
  have hopen : ¬ s.shared.db.Finalized 1 := by simpa using hopen
  exact ⟨s, hs, hopen, (no_published_job_lost hs).1 1 0 entry hentry (of_decide_eq_true hj) hopen⟩

/-- Without the condition a worker that dies between the acknowledgement and the commit of a
blocked dispatch leaves an open job that nothing in the stream stands for. -/
theorem published_job_lost : ¬ ∀ s, stubDeployment.lts.Reachable Lts.anyStep s →
    ∀ (j : JobId) (e : EntryId) (entry : StreamEntry),
      s.shared.queue.jobs.log[e]? = some entry → entry.message.jobId = j →
      ¬ s.shared.db.Finalized j →
      ∃ (e' : EntryId) (entry' : StreamEntry), s.shared.queue.jobs.log[e']? = some entry' ∧
        entry'.message.jobId = j ∧ s.shared.queue.jobs.Live e' := by
  intro claim
  obtain ⟨s, hs, hp⟩ := Lts.exists_reachable_of_exec stubDeployment.lts
    [(0, .createJob { stubSubmission with jobType := "live.completion" }), (0, .publishJob 1 1),
      (1, .processOne), (1, .advance ""), (1, .advance ""), (1, .crash)]
    (fun s => s.shared.queue.jobs.log[0]?.any (·.message.jobId = 1) &&
      !decide (s.shared.db.Finalized 1) && decide (s.shared.queue.jobs.log.length = 1) &&
      !decide (s.shared.queue.jobs.Live 0)) (by decide)
  simp only [Bool.and_eq_true, Bool.not_eq_true', decide_eq_false_iff_not, decide_eq_true_eq] at hp
  obtain ⟨⟨⟨hentry, hopen⟩, hlength⟩, hdead⟩ := hp
  obtain ⟨entry, hentry, hj⟩ := (Option.any_eq_true _ _).mp hentry
  obtain ⟨e', entry', hentry', -, hlive⟩ :=
    claim s hs 1 0 entry hentry (of_decide_eq_true hj) hopen
  have he : e' = 0 := by
    have hlt := (List.getElem?_eq_some_iff.mp hentry').1
    rw [hlength] at hlt
    exact Nat.lt_one_iff.mp hlt
  exact hdead (he ▸ hlive)

end Deployment
end AgentRuntimeGrid
