import AgentRuntimeGrid.Runtime.Attempts
import AgentRuntimeGrid.Runtime.Attribution

/-! The attempt numbers the two requeue paths hand out: how far they go on either path, and how
far beyond the retry budget recovery takes them. -/
namespace AgentRuntimeGrid

/-- An attempt number from 1 to the retry limit of the job plus `extra`. -/
def Database.AttemptUpTo (db : Database) (extra : ℤ) (j : JobId) (n : ℤ) : Prop :=
  1 ≤ n ∧ ∃ row, db.loadJob j = some row ∧ n ≤ row.maxRetries + extra

/-- The attempt numbers of a running event and of a requeue event. -/
structure Database.EventInRange (db : Database) (e : JobEvent) : Prop where
  running : e.eventType = .running →
    ∃ n, e.eventData.attemptNumber = some n ∧ db.AttemptUpTo 1 e.jobId n
  requeue : e.eventType = .retryScheduled ∨ e.eventType = .staleLeaseRecovered →
    ∃ n, e.eventData.attemptNumber = some n ∧ e.eventData.nextAttemptNumber = some (n + 1) ∧
      db.AttemptUpTo 0 e.jobId n

structure Grid.AttemptsInRange (g : Grid) : Prop where
  stream : ∀ entry ∈ g.queue.jobs.log,
    g.db.AttemptUpTo 1 entry.message.jobId entry.message.attemptNumber
  dlq : ∀ d ∈ g.queue.dlq, g.db.AttemptUpTo 1 d.jobId d.attemptNumber
  events : ∀ e ∈ g.db.jobEvents, g.db.EventInRange e

/-- Entry `y` is the last of `n` requeues, each published in place of the one before it, that
start from entry `x`. -/
inductive Grid.RequeueChain (g : Grid) (x : EntryId) : EntryId → ℕ → Prop where
  | start {entry : StreamEntry} (hx : g.queue.jobs.log[x]? = some entry) : RequeueChain g x x 0
  | requeue {y z : EntryId} {n : ℕ} {entry : StreamEntry} (h : RequeueChain g x y n)
      (hz : g.queue.jobs.log[z]? = some entry) (hcause : entry.cause = some y) :
      RequeueChain g x z (n + 1)

/-- An entry published in place of another is the next attempt of the same job. -/
def Grid.CausesNext (g : Grid) : Prop :=
  ∀ (x e : EntryId) (ex : StreamEntry), g.queue.jobs.log[x]? = some ex → ex.cause = some e →
    ∃ ee : StreamEntry, g.queue.jobs.log[e]? = some ee ∧
      ee.message.jobId = ex.message.jobId ∧
      ex.message.attemptNumber = ee.message.attemptNumber + 1

theorem Grid.RequeueChain.attempt {g : Grid} (hg : g.CausesNext) {x y : EntryId} {n : ℕ}
    (h : g.RequeueChain x y n) : ∃ ex ey : StreamEntry, g.queue.jobs.log[x]? = some ex ∧
      g.queue.jobs.log[y]? = some ey ∧ ex.message.jobId = ey.message.jobId ∧
      ey.message.attemptNumber = ex.message.attemptNumber + n := by
  induction h with
  | @start entry hx => exact ⟨entry, entry, hx, hx, rfl, by simp⟩
  | @requeue y z n entry _ hz hcause ih =>
    obtain ⟨ex, ey, hx, hy, hj, hn⟩ := ih
    obtain ⟨ey', hy', hj', hn'⟩ := hg z y entry hz hcause
    obtain rfl := Option.some.inj (hy.symm.trans hy')
    refine ⟨ex, entry, hx, hz, hj.trans hj', ?_⟩
    push_cast
    omega

variable {cfg : Deployment} {i : ℕ} {g g' : Grid} {l l' : ActorState} {a : Action}

theorem Database.AttemptUpTo.mono (hgrows : g.Grows g') {extra n : ℤ} {j : JobId}
    (h : g.db.AttemptUpTo extra j n) : g'.db.AttemptUpTo extra j n := by
  obtain ⟨hpos, row, hrow, hle⟩ := h
  obtain ⟨row', hrow', hsame⟩ := hgrows.loadJob hrow
  refine ⟨hpos, row', hrow', ?_⟩
  rw [hsame.maxRetries_eq]
  exact hle

theorem Database.EventInRange.mono (hgrows : g.Grows g') {e : JobEvent}
    (h : g.db.EventInRange e) : g'.db.EventInRange e := by
  constructor
  · intro htype
    obtain ⟨n, hn, hle⟩ := h.running htype
    exact ⟨n, hn, hle.mono hgrows⟩
  · intro htype
    obtain ⟨n, hn, hnext, hle⟩ := h.requeue htype
    exact ⟨n, hn, hnext, hle.mono hgrows⟩

theorem Grid.AttemptsInRange.holds (hg : g.AttemptsInRange) {m : QueueJobMessage}
    (hm : g.Holds m) : g.db.AttemptUpTo 1 m.jobId m.attemptNumber := by
  obtain ⟨e, entry, he, -, rfl⟩ := hm
  exact hg.stream entry (List.mem_of_getElem? he)

theorem Database.eventInRange_of_terminal {db : Database} {e : JobEvent}
    (h : e.eventType.status.terminal = true) : db.EventInRange e := by
  constructor
  · intro htype
    rw [htype] at h
    cases h
  · rintro (htype | htype) <;>
    · rw [htype] at h
      cases h

theorem LifecycleEvent.inRange {job : JobRecord} {eventType : EventType} {eventData : EventData}
    (h : LifecycleEvent cfg i g l a job eventType eventData) (hl : l.Sound g)
    (hg : g.AttemptsInRange) :
    g.db.EventInRange ⟨job.id, job.runId, eventType, eventData, job.traceId⟩ := by
  -- a requeue is decided for an attempt within the limit of the record the actor has read
  have requeue : ∀ {m : QueueJobMessage}, g.Holds m → g.Carries m job →
      m.attemptNumber ≤ job.maxRetries → g.db.AttemptUpTo 0 job.id m.attemptNumber := by
    rintro m hm ⟨hid, row, hrow, hsame⟩ hretries
    refine ⟨(hg.holds hm).1, row, by rw [hid]; exact hrow, ?_⟩
    rw [hsame.maxRetries_eq]
    omega
  cases h with
  | @running m _ now hjob =>
    refine ⟨fun _ => ⟨m.attemptNumber, rfl, ?_⟩, fun htype => by simp at htype⟩
    change g.db.AttemptUpTo 1 job.id _
    rw [Database.id_of_loadJob hjob]
    exact hg.holds hl
  | @retryScheduled m =>
    exact ⟨fun htype => by simp at htype, fun _ => ⟨m.attemptNumber, rfl, rfl,
      requeue (And.left hl) (And.right hl) ‹_›⟩⟩
  | @staleLeaseRecovered lease rest result _ now hjob hopen hretries =>
    exact ⟨fun htype => by simp at htype, fun _ => ⟨lease.message.attemptNumber, rfl, rfl,
      requeue (hl lease List.mem_cons_self) (Grid.carries_of_loadJob hjob rfl) hretries⟩⟩

/-- The only event a step adds that is not terminal is a submission or a lifecycle event. -/
theorem DbWrite.eventsInRange {db : Database} (h : DbWrite cfg i g l a db) (hl : l.Sound g)
    (hg : g.AttemptsInRange) (hmono : ∀ e, g.db.EventInRange e → db.EventInRange e) :
    ∀ e ∈ db.jobEvents, db.EventInRange e := by
  have append : ∀ {e' : JobEvent}, db.jobEvents = g.db.jobEvents ++ [e'] → db.EventInRange e' →
      ∀ e ∈ db.jobEvents, db.EventInRange e := by
    intro e' heq hnew e he
    rw [heq] at he
    rcases List.mem_append.mp he with he | he
    · exact hmono e (hg.events e he)
    · exact List.mem_singleton.mp he ▸ hnew
  cases h with
  | same => exact hg.events
  | @created row _ hinsert =>
    obtain ⟨jobs, -, rfl⟩ := Database.insertJob_eq_ok hinsert
    exact append rfl ⟨fun htype => by simp [submittedEvent] at htype,
      fun htype => by simp [submittedEvent] at htype⟩
  | lifecycle h hrecord =>
    have hnew := hmono _ (h.inRange hl hg)
    obtain ⟨-, rfl⟩ := Database.recordStateEvent_eq_some hrecord
    exact append rfl hnew
  | finalized h hfinalize =>
    obtain ⟨hterminal, -, ⟨f, -, -, rfl⟩ | ⟨fins, -, -, rfl⟩⟩ :=
      Database.finalizeJob_cases hfinalize
    · exact fun e he => hmono e (hg.events e he)
    · exact append rfl (Database.eventInRange_of_terminal hterminal)

namespace Deployment
variable {s t : State}

/-- Whoever is not the runtime publishes first attempts only. -/
def PublishesFirst (_ : State) (a : ℕ × Action) : Prop :=
  ∀ j n, a.2 = .publishJob j n → n = 1

/-- What a step publishes is a first attempt or the next one of a job within its limit. -/
private theorem publish_upTo {entry : StreamEntry} (hpub : Publishes s.shared l a l' entry)
    (hl : l.Sound s.shared) (hlaw : ∀ j, (s.shared.db.history j).Lawful)
    (hc : ∀ j n, a = .publishJob j n → n = 1) (hs : s.shared.AttemptsInRange) :
    s.shared.db.AttemptUpTo 1 entry.message.jobId entry.message.attemptNumber := by
  cases hcause : entry.cause with
  | none =>
    obtain ⟨j, n, job, ha, hjob, rfl⟩ := hpub.client_of_cause_eq_none hl hcause
    obtain rfl := hc j n ha
    have hretries := (hlaw j).retries job hjob
    refine ⟨le_refl 1, job, ?_, le_add_of_nonneg_left hretries⟩
    change s.shared.db.loadJob job.id = some job
    rw [Database.id_of_loadJob hjob]
    exact hjob
  | some e =>
    obtain ⟨-, ee, hee, hj, hn, row, hrow, hle⟩ := hpub.succeeds hl hcause
    have hpos := (hs.stream ee (List.mem_of_getElem? hee)).1
    exact ⟨by omega, row, hrow, by omega⟩

private theorem attemptsInRange_step {a : ℕ × Action} (hsound : Sound s)
    (hlaw : ∀ j, (s.shared.db.history j).Lawful) (hc : PublishesFirst s a)
    (h : cfg.lts.step s a = some t) (hs : s.shared.AttemptsInRange) :
    t.shared.AttemptsInRange := by
  obtain ⟨g', l', hlocal, rfl⟩ := Actors.globalStep_eq_some.mp h
  have ht := localStep_transition hlocal
  have hl := hsound.2 a.1
  have hgrows := ht.grows
  refine ⟨?_, ?_, (localStep_dbWrite hlocal).eventsInRange hl hs fun e he => he.mono hgrows⟩
  · intro entry hentry
    rcases ht.log with heq | ⟨entry', hpub, heq⟩
    · exact (hs.stream entry (heq ▸ hentry)).mono hgrows
    · rw [heq] at hentry
      rcases List.mem_append.mp hentry with hentry | hentry
      · exact (hs.stream entry hentry).mono hgrows
      · obtain rfl := List.mem_singleton.mp hentry
        exact (publish_upTo hpub hl hlaw hc hs).mono hgrows
  · intro d hd
    rcases ht.dlq with heq | ⟨lease, rest, result, hlease, heq, -⟩
    · exact (hs.dlq d (heq ▸ hd)).mono hgrows
    · rw [hlease] at hl
      rw [heq] at hd
      rcases List.mem_append.mp hd with hd | hd
      · exact (hs.dlq d hd).mono hgrows
      · obtain rfl := List.mem_singleton.mp hd
        exact (hs.holds (hl lease List.mem_cons_self)).mono hgrows

theorem causesNext_reachable (hs : cfg.lts.Reachable Lts.anyStep s) : s.shared.CausesNext := by
  refine Lts.Reachable.invariant (P := fun s => s.shared.CausesNext)
    (fun _ _ _ hx => (nomatch hx)) ?_ hs
  intro s a t hs hg _ h
  obtain ⟨g', l', ht, rfl⟩ := step_transition h
  intro x e ex hx hcause
  have old : s.shared.queue.jobs.log[x]? = some ex → ∃ ee : StreamEntry,
      g'.queue.jobs.log[e]? = some ee ∧ ee.message.jobId = ex.message.jobId ∧
        ex.message.attemptNumber = ee.message.attemptNumber + 1 := by
    intro hx
    obtain ⟨ee, hee, hspec⟩ := hg x e ex hx hcause
    exact ⟨ee, ht.grows.log hee, hspec⟩
  rcases ht.log with heq | ⟨entry, hpub, heq⟩
  · exact old (heq ▸ hx)
  · rcases getElem?_append_singleton (heq ▸ hx) with hx | ⟨-, rfl⟩
    · exact old hx
    · obtain ⟨-, ee, hee, hj, hn, -⟩ := hpub.succeeds ((sound_reachable hs).2 a.1) hcause
      exact ⟨ee, ht.grows.log hee, hj, hn⟩

private theorem attemptsInRange_reachable (hs : cfg.lts.Reachable PublishesFirst s) :
    s.shared.AttemptsInRange := by
  refine Lts.Reachable.invariant (P := fun s => s.shared.AttemptsInRange)
    ⟨fun _ h => (nomatch h), fun _ h => (nomatch h), fun _ h => (nomatch h)⟩ ?_ hs
  intro s a t hs hg hc h
  exact attemptsInRange_step (sound_reachable hs.weaken) (history_lawful hs.weaken) hc h hg

/-- When clients publish first attempts only, every message, dead letter and running event has an
attempt number from 1 to the retry limit plus one, every requeue event one within the limit with
the next number beside it, and so no chain of requeues is longer than the limit. -/
theorem attempts_bounded (hs : cfg.lts.Reachable PublishesFirst s) :
    s.shared.AttemptsInRange ∧
    ∀ x y n ey row, s.shared.RequeueChain x y n → s.shared.queue.jobs.log[y]? = some ey →
      s.shared.db.loadJob ey.message.jobId = some row → (n : ℤ) ≤ row.maxRetries := by
  have hg := attemptsInRange_reachable hs
  refine ⟨hg, ?_⟩
  intro x y n ey row hchain hy hrow
  obtain ⟨ex, ey', hx, hy', hj, hn⟩ := hchain.attempt (causesNext_reachable hs.weaken)
  obtain rfl := Option.some.inj (hy.symm.trans hy')
  obtain ⟨-, row', hrow', hle⟩ := hg.stream ey (List.mem_of_getElem? hy)
  obtain rfl := Option.some.inj (hrow.symm.trans hrow')
  have hpos := (hg.stream ex (List.mem_of_getElem? hx)).1
  omega

private def checkPublishesFirst (_ : State) (a : ℕ × Action) : Bool :=
  match a.2 with
  | .publishJob _ n => n = 1
  | _ => true

private theorem publishesFirst_of_check (s : State) (a : ℕ × Action)
    (h : checkPublishesFirst s a = true) : PublishesFirst s a := by
  intro j n ha
  rw [checkPublishesFirst, ha] at h
  exact of_decide_eq_true h

/-- Two workers are lost one after the other, so the second recovery gives the job up. -/
def exhaustedRun : List (ℕ × Action) :=
  [(0, .createJob stubSubmission), (0, .publishJob 1 1), (1, .processOne), (1, .advance ""),
    (2, .recoverStaleLeases (fun _ => 60000) 30000 100), (2, .advance ""), (2, .advance ""),
    (2, .advance ""), (2, .advance ""), (2, .finish), (3, .processOne), (3, .advance ""),
    (2, .recoverStaleLeases (fun _ => 60000) 30000 100), (2, .advance ""), (2, .advance ""),
    (2, .advance "")]

theorem attempts_bounded_exhausted : ∃ s, stubDeployment.lts.Reachable PublishesFirst s ∧
    s.shared.queue.jobs.log.map (fun entry => entry.message.attemptNumber) = [1, 2] ∧
    s.shared.queue.dlq.map DeadLetterMessage.attemptNumber = [2] ∧ s.shared.AttemptsInRange := by
  obtain ⟨s, hs, hp⟩ := Lts.exists_run_of_exec (L := stubDeployment.lts) publishesFirst_of_check
    stubDeployment.lts.init exhaustedRun
    (fun s => s.shared.queue.jobs.log.map (fun entry => entry.message.attemptNumber) = [1, 2] &&
      s.shared.queue.dlq.map DeadLetterMessage.attemptNumber = [2]) (by decide)
  obtain ⟨hlog, hdlq⟩ := Bool.and_eq_true_iff.mp hp
  exact ⟨s, hs, of_decide_eq_true hlog, of_decide_eq_true hdlq, (attempts_bounded hs).1⟩

end Deployment

/-- The attempt number the actor has committed to and not yet published. -/
def ActorState.promised : ActorState → Option ℤ
  | .worker (.retryPublish _ _ n) => some n
  | .recovery (.publishing _ message _ _) => some message.attemptNumber
  | _ => none

/-- Where a committed attempt number comes from: a gate that has let it through, or a lease that
recovery has found within the retry limit. -/
theorem Transition.promised (h : Transition cfg i g l a g' l') {n : ℤ}
    (hn : l'.promised = some n) : l.promised = some n ∨
    (cfg.worker i).budgetPolicy.validateRetry n = .ok () ∨
    ∃ lease rest result job now, l = .recovery (.planning (lease :: rest) result) ∧
      a = .advance now ∧ g.db.loadJob lease.message.jobId = some job ∧
      job.status.terminal = false ∧ lease.message.attemptNumber ≤ job.maxRetries ∧
      n = lease.message.attemptNumber + 1 := by
  cases h with
  | worker h =>
    cases h with
    | retryScheduled _ hbudget =>
      obtain rfl := Option.some.inj hn
      exact .inr (.inl hbudget)
    | artifactWritten _ hnext => obtain rfl | ⟨p, -, rfl⟩ := hnext <;> cases hn
    | _ => cases hn
  | @run m job writes outcome =>
    cases outcome with
    | success result =>
      change ActorState.promised (.worker (if _ then _ else _)) = _ at hn
      split at hn <;> cases hn
    | _ => cases hn
  | renewLease => exact .inl hn
  | recovery h =>
    cases h with
    | planRequeue hjob hopen hretries =>
      exact .inr (.inr ⟨_, _, _, _, _, rfl, rfl, hjob, hopen, hretries, (Option.some.inj hn).symm⟩)
    | _ => cases hn
  | _ => cases hn

/-- What is published is what was committed to, or a client's message. -/
theorem Publishes.promised {entry : StreamEntry} (h : Publishes g l a l' entry) :
    l.promised = some entry.message.attemptNumber ∨
      ∃ j, a = .publishJob j entry.message.attemptNumber := by
  cases h with
  | client => exact .inr ⟨_, rfl⟩
  | retry => exact .inl rfl
  | requeue => exact .inl rfl

namespace Deployment
variable {s t : State} {b : ℤ}

def SharesRetryBudget (cfg : Deployment) (b : ℤ) : Prop :=
  ∀ i, (cfg.worker i).budgetPolicy.retryBudget = b

/-- The step is neither a client's publication of an attempt beyond the budget nor the recovery
of an open job's lease that is within the retry limit and has used the budget up. -/
def WithinRetryBudget (b : ℤ) (s : State) (a : ℕ × Action) : Prop :=
  (∀ j n, a.2 = .publishJob j n → n ≤ b + 1) ∧
  ∀ lease rest result now job, s.locals a.1 = .recovery (.planning (lease :: rest) result) →
    a.2 = .advance now → s.shared.db.loadJob lease.message.jobId = some job →
    job.status.terminal = false → lease.message.attemptNumber ≤ job.maxRetries →
    lease.message.attemptNumber ≤ b

/-- No number beyond the budget is on its way to a worker or has been started. -/
structure BudgetKept (b : ℤ) (s : State) : Prop where
  stream : ∀ entry ∈ s.shared.queue.jobs.log, entry.message.attemptNumber ≤ b + 1
  promised : ∀ k n, (s.locals k).promised = some n → n ≤ b + 1
  running : ∀ e ∈ s.shared.db.jobEvents, e.eventType = .running →
    ∀ n, e.eventData.attemptNumber = some n → n ≤ b + 1

private theorem budgetKept_step {a : ℕ × Action} (hb : cfg.SharesRetryBudget b)
    (hsound : Sound s) (hc : WithinRetryBudget b s a) (h : cfg.lts.step s a = some t)
    (hs : BudgetKept b s) : BudgetKept b t := by
  obtain ⟨g', l', ht, rfl⟩ := step_transition h
  constructor
  · intro entry hentry
    rcases ht.log with heq | ⟨entry', hpub, heq⟩
    · exact hs.stream entry (heq ▸ hentry)
    · rw [heq] at hentry
      rcases List.mem_append.mp hentry with hentry | hentry
      · exact hs.stream entry hentry
      · obtain rfl := List.mem_singleton.mp hentry
        obtain hpromised | ⟨j, ha⟩ := hpub.promised
        · exact hs.promised a.1 _ hpromised
        · exact hc.1 j _ ha
  · refine Actors.forall_locals_update
      (P := fun _ l => ∀ n, ActorState.promised l = some n → n ≤ b + 1) ?_
      fun k _ => hs.promised k
    intro n hn
    obtain hold | hgate | ⟨lease, rest, result, job, now, hl, ha, hjob, hopen, hretries, rfl⟩ :=
      ht.promised hn
    · exact hs.promised a.1 n hold
    · have := BudgetPolicy.validateRetry_ok_iff.mp hgate
      rw [hb a.1] at this
      omega
    · have := hc.2 lease rest result now job hl ha hjob hopen hretries
      omega
  · intro e he hrunning n hn
    rcases ht.jobEvents with heq | ⟨e', hwrite, heq⟩
    · exact hs.running e (heq ▸ he) hrunning n hn
    · rw [heq] at he
      rcases List.mem_append.mp he with he | he
      · exact hs.running e he hrunning n hn
      · obtain rfl := List.mem_singleton.mp he
        have hl := hsound.2 a.1
        generalize s.locals a.1 = l at hwrite hl
        cases hwrite with
        | @running m job =>
          obtain ⟨x, entry, hentry, -, rfl⟩ := hl
          exact Option.some.inj hn ▸ hs.stream entry (List.mem_of_getElem? hentry)
        | completed => cases hrunning
        | other htype => exact absurd hrunning htype

/-- As long as clients publish within the budget and recovery meets no lease that has used it up,
no attempt beyond the budget is ever started. -/
theorem retry_budget_kept (hb : cfg.SharesRetryBudget b)
    (hs : cfg.lts.Reachable (WithinRetryBudget b) s) : ∀ e ∈ s.shared.db.jobEvents,
    e.eventType = .running → ∀ n, e.eventData.attemptNumber = some n → n ≤ b + 1 := by
  have hinit : BudgetKept b cfg.lts.init := by
    constructor
    · intro entry hentry
      cases hentry
    · intro k n hn
      cases hn
    · intro e he
      cases he
  refine (Lts.Reachable.invariant (P := BudgetKept b) hinit ?_ hs).running
  intro s a t hs hinv hc h
  exact budgetKept_step hb (sound_reachable hs.weaken) hc h hinv

/-- Workers in stub mode without any retries in their budget. -/
def noRetryDeployment : Deployment where
  env := sampleEnv
  worker i := ⟨"worker-" ++ toString i, .stub 0, false⟩

private def checkWithinRetryBudget (b : ℤ) (s : State) (a : ℕ × Action) : Bool :=
  match s.locals a.1, a.2 with
  | _, .publishJob _ n => n ≤ b + 1
  | .recovery (.planning (lease :: _) _), .advance _ => lease.message.attemptNumber ≤ b
  | _, _ => true

private theorem withinRetryBudget_of_check (s : State) (a : ℕ × Action)
    (h : checkWithinRetryBudget b s a = true) : WithinRetryBudget b s a := by
  constructor
  · intro j n ha
    simp only [checkWithinRetryBudget, ha, decide_eq_true_eq] at h
    exact h
  · intro lease rest result now job hl ha hjob hopen hretries
    simp only [checkWithinRetryBudget, hl, ha, decide_eq_true_eq] at h
    exact h

/-- One lost worker is within a budget of two retries. -/
theorem retry_budget_kept_overtaken : ∃ s,
    stubDeployment.lts.Reachable (WithinRetryBudget 2) s ∧
    (∃ e ∈ s.shared.db.jobEvents, e.eventType = .running ∧ e.eventData.attemptNumber = some 2) ∧
    ∀ e ∈ s.shared.db.jobEvents, e.eventType = .running →
      ∀ n, e.eventData.attemptNumber = some n → n ≤ 2 + 1 := by
  obtain ⟨s, hs, hp⟩ := Lts.exists_run_of_exec (L := stubDeployment.lts)
    (C := WithinRetryBudget 2) withinRetryBudget_of_check stubDeployment.lts.init overtakenRun
    (fun s => s.shared.db.jobEvents.any fun e =>
      e.eventType = .running && e.eventData.attemptNumber = some 2) (by decide)
  obtain ⟨e, he, hrunning⟩ := List.any_eq_true.mp hp
  simp only [Bool.and_eq_true, decide_eq_true_eq] at hrunning
  exact ⟨s, hs, ⟨e, he, hrunning⟩, retry_budget_kept (fun _ => rfl) hs⟩

/-- Recovery does not ask for the budget: the attempt after a lost worker is started without any
retry to spend. -/
theorem retry_budget_overrun : ¬ ∀ (cfg : Deployment) (b : ℤ) (s : State),
    cfg.SharesRetryBudget b → cfg.lts.Reachable PublishesFirst s →
    ∀ e ∈ s.shared.db.jobEvents, e.eventType = .running →
      ∀ n, e.eventData.attemptNumber = some n → n ≤ b + 1 := by
  intro claim
  obtain ⟨s, hs, hp⟩ := Lts.exists_run_of_exec (L := noRetryDeployment.lts)
    publishesFirst_of_check noRetryDeployment.lts.init overtakenRun
    (fun s => s.shared.db.jobEvents.any fun e =>
      e.eventType = .running && e.eventData.attemptNumber = some 2) (by decide)
  obtain ⟨e, he, hrunning⟩ := List.any_eq_true.mp hp
  simp only [Bool.and_eq_true, decide_eq_true_eq] at hrunning
  have := claim noRetryDeployment 0 s (fun _ => rfl) hs e he hrunning.1 2 hrunning.2
  omega

end Deployment
end AgentRuntimeGrid
