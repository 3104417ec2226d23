import AgentRuntimeGrid.Runtime.Requeues

/-! The dead-letter stream beside the terminal events: the failure, the dead letter and the
acknowledgement of an exhausted lease are three commits, and the second has no one to repeat it. -/
namespace AgentRuntimeGrid

/-- The job's terminal event is the failure of an exhausted lease. -/
def Database.LeaseExhausted (db : Database) (j : JobId) : Prop :=
  ∃ e ∈ db.eventsOf j, e.eventType = .failed ∧
    e.eventData.errorClass = some staleLeaseExhaustedErrorClass

instance (db : Database) (j : JobId) : Decidable (db.LeaseExhausted j) :=
  inferInstanceAs (Decidable (∃ e ∈ db.eventsOf j, e.eventType = .failed ∧
    e.eventData.errorClass = some Database.staleLeaseExhaustedErrorClass))

def RedisStreamsQueue.deadLettersOf (q : RedisStreamsQueue) (j : JobId) : List DeadLetterMessage :=
  q.dlq.filter fun d => d.jobId = j

def HandledError.errorClass : HandledError → Option String
  | .transient c | .policy c => some c
  | _ => none

/-- The class name of an exception that a runner raises for the worker to handle. -/
def RunOutcome.errorClass : RunOutcome → Option String
  | .transientError c | .policyError c => some c
  | _ => none

namespace ActorState

/-- The job whose failure a recovery has committed and whose dead letter it has not yet added. -/
def deadLettering : ActorState → Option JobId
  | .recovery (.deadLettering lease _ _) => some lease.message.jobId
  | _ => none

def handledClass : ActorState → Option String
  | .worker (.handling _ _ error) => error.errorClass
  | _ => none

/-- The step finds the job of a lease open and its retries used up. -/
inductive GivesUp (g : Grid) : ActorState → Action → StaleLease → Prop where
  | intro {lease : StaleLease} {rest : List StaleLease} {result : StaleLeaseRecoveryResult}
      {job : JobRecord} {now : String} (hjob : g.db.loadJob lease.message.jobId = some job)
      (hopen : job.status.terminal = false)
      (hretries : job.maxRetries < lease.message.attemptNumber) :
      GivesUp g (.recovery (.planning (lease :: rest) result)) (.advance now) lease

end ActorState

variable {cfg : Deployment} {i : ℕ} {g g' : Grid} {l l' : ActorState} {a : Action} {j : JobId}

/-- Giving a job up commits its failure and leaves its dead letter to be added. -/
theorem Transition.givesUp {lease : StaleLease} (h : Transition cfg i g l a g' l')
    (hl : l.GivesUp g a lease) : l'.deadLettering = some lease.message.jobId ∧
      g'.queue = g.queue ∧ ∃ job r, job.id = lease.message.jobId ∧
        g.db.recordFailed job (cfg.worker i).workerId lease.message.attemptNumber
          Database.staleLeaseExhaustedErrorClass true = some (r, g'.db) := by
  cases hl with
  | intro hjob hopen hretries =>
    cases h with
    | recovery h =>
      cases h with
      | planMissing hnone =>
        rw [hjob] at hnone
        cases hnone
      | planTerminal hjob' hterminal =>
        obtain rfl := Option.some.inj (hjob.symm.trans hjob')
        rw [hopen] at hterminal
        cases hterminal
      | planRequeue hjob' _ hretries' =>
        obtain rfl := Option.some.inj (hjob.symm.trans hjob')
        exact absurd hretries (not_lt.mpr hretries')
      | planDlq hjob' _ _ hdb => exact ⟨rfl, rfl, _, _, Database.id_of_loadJob hjob', hdb⟩

/-- Only giving a job up leaves its dead letter to be added. -/
theorem Transition.deadLettering (h : Transition cfg i g l a g' l')
    (hl : l'.deadLettering = some j) : ∃ lease, l.GivesUp g a lease ∧ lease.message.jobId = j := by
  cases h with
  | worker h =>
    cases h with
    | artifactWritten _ hnext => obtain rfl | ⟨p, -, rfl⟩ := hnext <;> cases hl
    | _ => cases hl
  | @run m job writes outcome => cases hl
  | recovery h =>
    cases h with
    | planDlq hjob hopen hretries =>
      exact ⟨_, .intro hjob hopen hretries, Option.some.inj hl⟩
    | _ => cases hl
  | _ => cases hl

/-- The actor adds the dead letter next, unless it dies. -/
theorem Transition.deadLetters (h : Transition cfg i g l a g' l') (hl : l.deadLettering = some j) :
    a = .crash ∨ g'.db = g.db ∧ l'.deadLettering = none ∧
      ∃ d, d.jobId = j ∧ g'.queue.dlq = g.queue.dlq ++ [d] := by
  cases h with
  | crash => exact .inl rfl
  | recovery h =>
    cases h with
    | @deadLettered lease =>
      obtain rfl := Option.some.inj hl
      exact .inr ⟨rfl, rfl, _, rfl, rfl⟩
    | _ => cases hl
  | finish hfinished =>
    cases l with
    | recovery st =>
      cases st with
      | deadLettering => exact hfinished.elim
      | _ => cases hl
    | _ => cases hl
  | _ => cases hl

theorem Transition.handledClass {c : String} (h : Transition cfg i g l a g' l')
    (hc : l'.handledClass = some c) : l.handledClass = some c ∨
      ∃ writes outcome, a = .run writes outcome ∧ outcome.errorClass = some c := by
  cases h with
  | worker h =>
    cases h with
    | artifactWritten _ hnext => obtain rfl | ⟨p, -, rfl⟩ := hnext <;> cases hc
    | _ => cases hc
  | @run m job writes outcome =>
    cases outcome with
    | success result =>
      change ActorState.handledClass (.worker (if _ then _ else _)) = _ at hc
      split at hc <;> cases hc
    | transientError c' | policyError c' => exact .inr ⟨writes, _, rfl, hc⟩
    | _ => cases hc
  | renewLease => exact .inl hc
  | recovery h => cases h <;> cases hc
  | _ => cases hc

namespace Database

theorem LeaseExhausted.mono (hgrows : g.Grows g') (h : g.db.LeaseExhausted j) :
    g'.db.LeaseExhausted j := by
  obtain ⟨e, he, hspec⟩ := h
  exact ⟨e, (hgrows.history j).events.subset he, hspec⟩

theorem leaseExhausted_append {db db' : Database} {e : JobEvent}
    (heq : db'.jobEvents = db.jobEvents ++ [e]) (h : db'.LeaseExhausted j) :
    db.LeaseExhausted j ∨ e.jobId = j ∧ e.eventType = .failed ∧
      e.eventData.errorClass = some staleLeaseExhaustedErrorClass := by
  obtain ⟨e', he', hspec⟩ := h
  unfold eventsOf at he'
  rw [heq, List.filter_append, List.mem_append] at he'
  rcases he' with he' | he'
  · exact .inl ⟨e', he', hspec⟩
  · obtain ⟨hmem, hj⟩ := List.mem_filter.mp he'
    obtain rfl := List.mem_singleton.mp hmem
    exact .inr ⟨of_decide_eq_true hj, hspec⟩

/-- A job without a finalization row has no terminal event. -/
theorem not_leaseExhausted {db : Database} (hlaw : (db.history j).Lawful) (h : ¬ db.Finalized j) :
    ¬ db.LeaseExhausted j := by
  rintro ⟨e, he, htype, -⟩
  have hnone : db.jobFinalizations.get? j = none := by
    cases hf : db.jobFinalizations.get? j with
    | none => rfl
    | some f => exact absurd (finalized_iff.mpr ⟨f, hf⟩) h
  have hterminal := hlaw.terminal
  simp only [history, hnone, Option.map_none, Option.toList_none, List.map_eq_nil_iff] at hterminal
  have hmem : e ∈ terminalEvents (db.eventsOf j) := by
    refine List.mem_filter.mpr ⟨he, ?_⟩
    rw [htype]
    rfl
  rw [hterminal] at hmem
  cases hmem

end Database

theorem Worker.Handles.errorClass {w : Worker} {m : QueueJobMessage} {job : JobRecord}
    {error : HandledError} {eventType : EventType} {eventData : EventData}
    (h : w.Handles m job error eventType eventData) (htype : eventType = .failed) :
    eventData.errorClass = error.errorClass := by
  cases h with
  | exhausted => rfl
  | policy => rfl
  | _ => cases htype

/-- Without a lease given up, and with no runner error of that class, no job gets the event. -/
theorem DbWrite.leaseExhausted {db : Database} (h : DbWrite cfg i g l a db)
    (hclass : l.handledClass ≠ some Database.staleLeaseExhaustedErrorClass)
    (hj : db.LeaseExhausted j) :
    g.db.LeaseExhausted j ∨ ∃ lease, l.GivesUp g a lease ∧ lease.message.jobId = j := by
  cases h with
  | same => exact .inl hj
  | created hinsert =>
    obtain ⟨jobs, -, rfl⟩ := Database.insertJob_eq_ok hinsert
    obtain hold | ⟨-, htype, -⟩ := Database.leaseExhausted_append rfl hj
    · exact .inl hold
    · cases htype
  | lifecycle h hrecord =>
    obtain ⟨-, rfl⟩ := Database.recordStateEvent_eq_some hrecord
    obtain hold | ⟨-, htype, -⟩ := Database.leaseExhausted_append rfl hj
    · exact .inl hold
    · cases h <;> cases htype
  | finalized h hfinalize =>
    obtain ⟨-, -, ⟨f, -, -, rfl⟩ | ⟨fins, -, -, rfl⟩⟩ := Database.finalizeJob_cases hfinalize
    · exact .inl hj
    · obtain hold | ⟨hid, htype, hdata⟩ := Database.leaseExhausted_append rfl hj
      · exact .inl hold
      · cases h with
        | handled hhandles => exact absurd ((hhandles.errorClass htype).symm.trans hdata) hclass
        | leaseExhausted hjob hopen hretries =>
          exact .inr ⟨_, .intro hjob hopen hretries, (Database.id_of_loadJob hjob).symm.trans hid⟩
        | _ => cases htype

/-- A job given up before anything finalized it gets the event. -/
theorem Transition.leaseExhausted {lease : StaleLease} (h : Transition cfg i g l a g' l')
    (hl : l.GivesUp g a lease) (hopen : ¬ g.db.Finalized lease.message.jobId) :
    g'.db.LeaseExhausted lease.message.jobId := by
  obtain ⟨-, -, job, r, hid, hdb⟩ := h.givesUp hl
  obtain ⟨-, -, ⟨f, hf, -⟩ | ⟨fins, -, -, heq⟩⟩ := Database.finalizeJob_cases hdb
  · exact absurd (Database.finalized_iff.mpr ⟨f, hid ▸ hf⟩) hopen
  · refine ⟨⟨job.id, job.runId, .failed, .failed (cfg.worker i).workerId
      lease.message.attemptNumber Database.staleLeaseExhaustedErrorClass true, job.traceId⟩,
      ?_, rfl, rfl⟩
    rw [heq]
    exact List.mem_filter.mpr ⟨List.mem_append_right _ List.mem_cons_self, decide_eq_true hid⟩

namespace Deployment
variable {s t : State}

/-- The step is not the death of a recovery between a job's failure and its dead letter, gives up
no job that is finalized already, and ends no runner with the error class that is recovery's own. -/
def DeadLettersSafely (s : State) (a : ℕ × Action) : Prop :=
  (a.2 = .crash → (s.locals a.1).deadLettering = none) ∧
  (∀ lease, (s.locals a.1).GivesUp s.shared a.2 lease →
    ¬ s.shared.db.Finalized lease.message.jobId) ∧
  ∀ writes outcome, a.2 = .run writes outcome →
    outcome.errorClass ≠ some Database.staleLeaseExhaustedErrorClass

/-- The dead letters of one job: one is owed by the recovery that has just failed the job, or
their number is what the terminal event says. -/
structure DlqAgrees (s : State) (j : JobId) : Prop where
  unique : ∀ k k', (s.locals k).deadLettering = some j → (s.locals k').deadLettering = some j →
    k' = k
  owed : ∀ k, (s.locals k).deadLettering = some j →
    s.shared.db.LeaseExhausted j ∧ s.shared.queue.deadLettersOf j = []
  paid : (∀ k, (s.locals k).deadLettering ≠ some j) →
    (s.shared.queue.deadLettersOf j).length = if s.shared.db.LeaseExhausted j then 1 else 0

private theorem deadLettersOf_append {q q' : RedisStreamsQueue} {d : DeadLetterMessage}
    (h : q'.dlq = q.dlq ++ [d]) (j : JobId) :
    q'.deadLettersOf j = q.deadLettersOf j ++ if d.jobId = j then [d] else [] := by
  unfold RedisStreamsQueue.deadLettersOf
  rw [h, List.filter_append]
  by_cases hd : d.jobId = j <;> simp [hd]

/-- The job is failed in this step, so no dead letter of it was added or owed before. -/
private theorem dlqAgrees_givesUp {lease : StaleLease}
    (ht : Transition cfg i s.shared (s.locals i) a g' l')
    (hgives : (s.locals i).GivesUp s.shared a lease)
    (hlaw : (s.shared.db.history lease.message.jobId).Lawful)
    (hopen : ¬ s.shared.db.Finalized lease.message.jobId) (hs : DlqAgrees s lease.message.jobId) :
    DlqAgrees ⟨g', Function.update s.locals i l'⟩ lease.message.jobId := by
  have hnot := Database.not_leaseExhausted hlaw hopen
  have hnone : ∀ k, (s.locals k).deadLettering ≠ some lease.message.jobId :=
    fun k hk => hnot (hs.owed k hk).1
  obtain ⟨hl', hqueue, -⟩ := ht.givesUp hgives
  have hempty : s.shared.queue.deadLettersOf lease.message.jobId = [] := by
    rw [← List.length_eq_zero_iff, hs.paid hnone, if_neg hnot]
  have hactor : ∀ k, (Function.update s.locals i l' k).deadLettering =
      some lease.message.jobId → k = i := by
    intro k hk
    by_contra hki
    rw [Function.update_of_ne hki] at hk
    exact hnone k hk
  constructor
  · intro k k' hk hk'
    exact (hactor k' hk').trans (hactor k hk).symm
  · intro k _
    exact ⟨ht.leaseExhausted hgives hopen, by rw [hqueue]; exact hempty⟩
  · intro hpaid
    refine absurd ?_ (hpaid i)
    change (Function.update s.locals i l' i).deadLettering = _
    rw [Function.update_self]
    exact hl'

/-- The job is not failed in this step: at most the dead letter it is owed is added. -/
private theorem dlqAgrees_other (ht : Transition cfg i s.shared (s.locals i) a g' l')
    (hl' : l'.deadLettering ≠ some j)
    (hexhausted : g'.db.LeaseExhausted j ↔ s.shared.db.LeaseExhausted j)
    (hcrash : a = .crash → (s.locals i).deadLettering = none) (hs : DlqAgrees s j) :
    DlqAgrees ⟨g', Function.update s.locals i l'⟩ j := by
  have hbefore : ∀ k, (Function.update s.locals i l' k).deadLettering = some j →
      k ≠ i ∧ (s.locals k).deadLettering = some j := by
    intro k hk
    by_cases hki : k = i
    · rw [hki, Function.update_self] at hk
      exact absurd hk hl'
    · rw [Function.update_of_ne hki] at hk
      exact ⟨hki, hk⟩
  by_cases hl : (s.locals i).deadLettering = some j
  · obtain ha | ⟨-, -, d, hd, hdlq⟩ := ht.deadLetters hl
    · rw [hcrash ha] at hl
      cases hl
    · obtain ⟨hexh, hempty⟩ := hs.owed i hl
      have hnone : ∀ k, (Function.update s.locals i l' k).deadLettering ≠ some j := by
        intro k hk
        obtain ⟨hki, hk⟩ := hbefore k hk
        exact hki (hs.unique i k hl hk)
      refine ⟨fun k _ hk => absurd hk (hnone k), fun k hk => absurd hk (hnone k), fun _ => ?_⟩
      rw [deadLettersOf_append hdlq, hempty, if_pos hd, if_pos (hexhausted.mpr hexh)]
      rfl
  · have hdlq : g'.queue.deadLettersOf j = s.shared.queue.deadLettersOf j := by
      rcases ht.dlq with heq | ⟨lease, rest, result, hlease, heq, -⟩
      · unfold RedisStreamsQueue.deadLettersOf
        rw [heq]
      · rw [deadLettersOf_append (congrArg RedisStreamsQueue.dlq heq), if_neg, List.append_nil]
        rintro hj
        rw [hlease] at hl
        exact hl (congrArg some hj)
    have hafter : ∀ k, (s.locals k).deadLettering = some j →
        (Function.update s.locals i l' k).deadLettering = some j := by
      intro k hk
      have hki : k ≠ i := by
        rintro rfl
        exact hl hk
      rw [Function.update_of_ne hki]
      exact hk
    constructor
    · intro k k' hk hk'
      exact hs.unique k k' (hbefore k hk).2 (hbefore k' hk').2
    · intro k hk
      obtain ⟨hexh, hempty⟩ := hs.owed k (hbefore k hk).2
      exact ⟨hexhausted.mpr hexh, hdlq.trans hempty⟩
    · intro hpaid
      simp only [hexhausted, hdlq]
      exact hs.paid fun k hk => hpaid k (hafter k hk)

private theorem dlqAgrees_step {a : ℕ × Action} (hlaw : ∀ j, (s.shared.db.history j).Lawful)
    (hclass : (s.locals a.1).handledClass ≠ some Database.staleLeaseExhaustedErrorClass)
    (hc : DeadLettersSafely s a) (h : cfg.lts.step s a = some t) (hs : DlqAgrees s j) :
    DlqAgrees t j := by
  obtain ⟨g', l', hlocal, rfl⟩ := Actors.globalStep_eq_some.mp h
  have ht := localStep_transition hlocal
  by_cases hgives : ∃ lease, (s.locals a.1).GivesUp s.shared a.2 lease ∧ lease.message.jobId = j
  · obtain ⟨lease, hgives, rfl⟩ := hgives
    exact dlqAgrees_givesUp ht hgives (hlaw _) (hc.2.1 lease hgives) hs
  · have hexhausted : g'.db.LeaseExhausted j ↔ s.shared.db.LeaseExhausted j :=
      ⟨fun hj => ((localStep_dbWrite hlocal).leaseExhausted hclass hj).resolve_right hgives,
        fun hj => hj.mono ht.grows⟩
    exact dlqAgrees_other ht (fun hl' => hgives (ht.deadLettering hl')) hexhausted hc.1 hs

private theorem handledClass_reachable (hs : cfg.lts.Reachable DeadLettersSafely s) :
    ∀ k, (s.locals k).handledClass ≠ some Database.staleLeaseExhaustedErrorClass := by
  refine Lts.Reachable.invariant (P := fun s => ∀ k, (s.locals k).handledClass ≠
    some Database.staleLeaseExhaustedErrorClass) (fun k hk => by cases hk) ?_ hs
  intro s a t _ hinv hc h
  obtain ⟨g', l', ht, rfl⟩ := step_transition h
  refine Actors.forall_locals_update (P := fun _ l => ActorState.handledClass l ≠
    some Database.staleLeaseExhaustedErrorClass) ?_ fun k _ => hinv k
  intro hk
  obtain hold | ⟨writes, outcome, ha, houtcome⟩ := ht.handledClass hk
  · exact hinv a.1 hold
  · exact hc.2.2 writes outcome ha houtcome

/-- Under the condition a job has one dead letter if its terminal event is the failure of an
exhausted lease and none otherwise, whenever no recovery stands between the two writes. -/
theorem dead_letters_agree (hs : cfg.lts.Reachable DeadLettersSafely s)
    (hidle : ∀ k, (s.locals k).deadLettering ≠ some j) :
    (s.shared.queue.deadLettersOf j).length = if s.shared.db.LeaseExhausted j then 1 else 0 := by
  refine (Lts.Reachable.invariant (P := fun s => DlqAgrees s j) ?_ ?_ hs).paid hidle
  · constructor
    · intro k k' hk
      cases hk
    · intro k hk
      cases hk
    · intro _
      rw [if_neg]
      · rfl
      · rintro ⟨e, he, -⟩
        cases he
  · intro s a t hs hinv hc h
    exact dlqAgrees_step (history_lawful hs.weaken) (handledClass_reachable hs a.1) hc h hinv

private def isIdle : ActorState → Bool
  | .idle => true
  | .worker _ => false
  | .recovery _ => false

private theorem eq_idle_of_isIdle {l : ActorState} (h : isIdle l = true) : l = .idle := by
  cases l with
  | idle => rfl
  | worker st => cases h
  | recovery st => cases h

/-- Nothing is in progress, and no entry of the job is undelivered or pending. -/
def Quiet (s : State) (j : JobId) : Prop :=
  (∀ k, s.locals k = .idle) ∧ ∀ (e : EntryId) (entry : StreamEntry),
    s.shared.queue.jobs.log[e]? = some entry → entry.message.jobId = j →
    ¬ s.shared.queue.jobs.Live e

private def checkDeadLettersSafely (s : State) (a : ℕ × Action) : Bool :=
  (match a.2 with
    | .crash => decide ((s.locals a.1).deadLettering = none)
    | .run _ outcome =>
        decide (outcome.errorClass ≠ some Database.staleLeaseExhaustedErrorClass)
    | _ => true) &&
  match s.locals a.1 with
  | .recovery (.planning (lease :: _) _) => !decide (s.shared.db.Finalized lease.message.jobId)
  | _ => true

private theorem deadLettersSafely_of_check (s : State) (a : ℕ × Action)
    (h : checkDeadLettersSafely s a = true) : DeadLettersSafely s a := by
  obtain ⟨haction, hlocal⟩ := Bool.and_eq_true_iff.mp h
  refine ⟨fun ha => ?_, fun lease hgives => ?_, fun writes outcome ha => ?_⟩
  · rw [ha] at haction
    exact of_decide_eq_true haction
  · generalize s.locals a.1 = l at hlocal hgives
    generalize a.2 = b at hgives
    cases hgives
    simpa using hlocal
  · rw [ha] at haction
    exact of_decide_eq_true haction

/-- Both workers are dead, the second recovery has returned, and job 1 has its dead letter. -/
theorem dead_letters_agree_exhausted : ∃ s, stubDeployment.lts.Reachable DeadLettersSafely s ∧
    s.shared.db.LeaseExhausted 1 ∧ (s.shared.queue.deadLettersOf 1).length = 1 := by
  obtain ⟨s, hs, hidle, hp⟩ := Actors.exists_run_of_exec_among (L := stubDeployment.lts)
    (C := DeadLettersSafely) (c := checkDeadLettersSafely) rfl 4
    (fun s a _ h => deadLettersSafely_of_check s a h) (s := stubDeployment.lts.init)
    (fun _ _ => rfl) (exhaustedRun ++ [(1, .crash), (3, .crash), (2, .advance ""), (2, .finish)])
    (fun s => decide (s.shared.db.LeaseExhausted 1) &&
      (List.range 4).all fun k => decide ((s.locals k).deadLettering ≠ some 1)) (by decide)
  obtain ⟨hexhausted, hactors⟩ := Bool.and_eq_true_iff.mp hp
  have hexhausted := of_decide_eq_true hexhausted
  have hnone : ∀ k, (s.locals k).deadLettering ≠ some 1 := by
    intro k
    by_cases hk : k < 4
    · exact of_decide_eq_true (List.all_eq_true.mp hactors k (List.mem_range.mpr hk))
    · rw [hidle k (not_lt.mp hk)]
      exact nofun
  have hlength := dead_letters_agree hs hnone
  rw [if_pos hexhausted] at hlength
  exact ⟨s, hs, hexhausted, hlength⟩

/-- The recovery dies after it has failed the job, and the next one finds the job terminal: it
acknowledges the entry and no dead letter is ever added. -/
theorem dead_letter_lost : ¬ ∀ s, stubDeployment.lts.Reachable Lts.anyStep s →
    ∀ j, Quiet s j → (s.shared.queue.deadLettersOf j).length =
      if s.shared.db.LeaseExhausted j then 1 else 0 := by
  intro claim
  obtain ⟨s, hs, hidle, hp⟩ := Actors.exists_run_of_exec_among (L := stubDeployment.lts)
    (C := Lts.anyStep) (c := Lts.unchecked) rfl 4 (fun _ _ _ _ => trivial)
    (s := stubDeployment.lts.init) (fun _ _ => rfl)
    (exhaustedRun.take 14 ++ [(2, .crash), (1, .crash), (3, .crash),
      (2, .recoverStaleLeases (fun _ => 60000) 30000 100), (2, .advance ""), (2, .advance ""),
      (2, .advance ""), (2, .finish)])
    (fun s => ((List.range 4).all fun k => isIdle (s.locals k)) &&
      ((List.range 2).all fun e => !decide (s.shared.queue.jobs.Live e)) &&
      decide (s.shared.queue.jobs.log.length = 2) && decide (s.shared.db.LeaseExhausted 1) &&
      decide ((s.shared.queue.deadLettersOf 1).length = 0)) (by decide)
  simp only [Bool.and_eq_true, decide_eq_true_eq] at hp
  obtain ⟨⟨⟨⟨hactors, hdead⟩, hlength⟩, hexhausted⟩, hnone⟩ := hp
  have hquiet : Quiet s 1 := by
    constructor
    · intro k
      by_cases hk : k < 4
      · exact eq_idle_of_isIdle (List.all_eq_true.mp hactors k (List.mem_range.mpr hk))
      · exact hidle k (not_lt.mp hk)
    · intro e entry he _
      have hlt : e < 2 := hlength ▸ (List.getElem?_eq_some_iff.mp he).1
      simpa using List.all_eq_true.mp hdead e (List.mem_range.mpr hlt)
  have := claim s hs 1 hquiet
  rw [if_pos hexhausted, hnone] at this
  cases this

end Deployment
end AgentRuntimeGrid
