import AgentRuntimeGrid.Runtime.Journal
import AgentRuntimeGrid.Runtime.Orderly

/-! The story a job's event log tells. In an orderly run the log is a word of one automaton: the
attempts are numbered one by one, each is started at most once, requeued before the next one, and
the job is closed by an event of the attempt that it has reached. -/
namespace AgentRuntimeGrid

/-- Where the story of a job is. -/
inductive Stage where
  | absent
  /-- So many attempts have been given up, and no further one has started. -/
  | waiting (attempts : ℤ)
  | running (attempt : ℤ)
  | closed
  deriving DecidableEq, Repr

namespace Stage

/-- A lease of the attempt can have run out: the attempt is running, or its worker has not started
it, or a recovery has died after it recorded the requeue. -/
def reaches (n : ℤ) : Stage → Bool
  | .waiting k => n = k + 1 || (n = k && 0 < k)
  | .running k => n = k
  | _ => false

/-- The event can close the job. -/
def ends (st : Stage) : EventData → Bool
  | .completed _ n _ | .timedOut _ n _ => st = .running n
  | .failed _ n errorClass _ =>
      st = .running n || (errorClass = Database.staleLeaseExhaustedErrorClass && st.reaches n)
  | .cancelled _ n cancelledWhile =>
      st = .running n || (cancelledWhile = "queued" && st != .absent && st != .closed)
  | .budgetBlocked _ n _ _ _ _ _ => st = .running n || st = .waiting (n - 1)
  | _ => false

def next (st : Stage) (e : JobEvent) : Option Stage :=
  if e.eventType.status.terminal then if st.ends e.eventData then some .closed else none
  else match e.eventData with
    | .submitted _ _ _ => if st = .absent then some (.waiting 0) else none
    | .running _ n => if st = .waiting (n - 1) then some (.running n) else none
    | .retryScheduled _ n next _ _ =>
        if st = .running n ∧ next = n + 1 then some (.waiting n) else none
    | .staleLeaseRecovered _ _ _ _ _ n next _ _ =>
        if st.reaches n = true ∧ next = n + 1 then some (.waiting n) else none
    | _ => none

variable {st st' : Stage} {e : JobEvent}

theorem ends_closed (d : EventData) : Stage.closed.ends d = false := by
  cases d <;> simp [ends, reaches]

/-- A closed story does not go on, and a terminal event closes it. -/
theorem next_eq_some (h : st.next e = some st') :
    st ≠ .closed ∧ st' ≠ .absent ∧ (st' = .closed ↔ e.eventType.status.terminal = true) := by
  unfold next at h
  split at h
  next hterminal =>
    split at h
    next hends =>
      obtain rfl := Option.some.inj h
      refine ⟨?_, by simp, by simp [hterminal]⟩
      rintro rfl
      rw [ends_closed] at hends
      cases hends
    next => cases h
  next hopen =>
    split at h
    · split at h
      next hst =>
        obtain rfl := Option.some.inj h
        simp [hst, hopen]
      next => cases h
    · split at h
      next hst =>
        obtain rfl := Option.some.inj h
        simp [hst, hopen]
      next => cases h
    · split at h
      next hst =>
        obtain rfl := Option.some.inj h
        simp [hst.1, hopen]
      next => cases h
    · split at h
      next hst =>
        obtain rfl := Option.some.inj h
        refine ⟨?_, by simp, by simp [hopen]⟩
        rintro rfl
        cases hst.1
      next => cases h
    · cases h

end Stage

/-- The stage the events lead to, if they tell a story. -/
def stageAfter (es : List JobEvent) : Option Stage := es.foldlM Stage.next .absent

theorem stageAfter_append (es : List JobEvent) (e : JobEvent) :
    stageAfter (es ++ [e]) = (stageAfter es).bind fun st => st.next e := by
  unfold stageAfter
  rw [List.foldlM_append]
  refine congrArg _ (funext fun st => ?_)
  exact Option.bind_fun_some _

/-- A story is closed by its terminal event, and absent before its first event. -/
theorem stageAfter_eq_some {es : List JobEvent} {st : Stage} (h : stageAfter es = some st) :
    (st = .closed ↔ terminalEvents es ≠ []) ∧ (st = .absent ↔ es = []) := by
  induction es using List.reverseRecOn generalizing st with
  | nil =>
    obtain rfl := Option.some.inj h
    simp [terminalEvents]
  | append_singleton es e ih =>
    rw [stageAfter_append] at h
    obtain ⟨st₀, hst₀, hnext⟩ := Option.bind_eq_some_iff.mp h
    obtain ⟨hopen, habsent, hclosed⟩ := Stage.next_eq_some hnext
    have hnone : terminalEvents es = [] := not_not.mp fun h => hopen ((ih hst₀).1.mpr h)
    refine ⟨?_, by simp [habsent]⟩
    rw [hclosed, terminalEvents_append, hnone, List.nil_append]
    cases e.eventType.status.terminal <;> simp

/-- The story of a job as its log tells it. -/
def Database.stageOf (db : Database) (j : JobId) : Option Stage := stageAfter (db.eventsOf j)

/-- The message an actor is at work on, and where the story of its job is then, if it is not
closed. -/
def ActorState.expects : ActorState → Option (QueueJobMessage × Stage)
  | .worker (.leased m) | .worker (.dispatchAck m (.budgetBlocked _ _))
  | .worker (.dispatchCommit m (.budgetBlocked _ _)) => some (m, .waiting (m.attemptNumber - 1))
  | .worker (.executing m _) | .worker (.handling m _ _) | .worker (.writingArtifact m _ _)
  | .worker (.crossLinking m _ _ _ _) | .worker (.completing m _ _) =>
      some (m, .running m.attemptNumber)
  | .worker (.retryPublish m _ _) => some (m, .waiting m.attemptNumber)
  | .recovery (.publishing lease _ _ _) =>
      some (lease.message, .waiting lease.message.attemptNumber)
  | _ => none

variable {cfg : Deployment} {i : ℕ} {g g' : Grid} {l l' : ActorState} {a : Action} {e : EntryId}
  {m : QueueJobMessage} {st : Stage}

theorem Worker.expects_afterRun {w : Worker} {m' : QueueJobMessage} {job : JobRecord}
    {outcome : RunOutcome}
    (h : (ActorState.worker (w.afterRun m' job outcome)).expects = some (m, st)) :
    (ActorState.worker (.executing m' job)).expects = some (m, st) := by
  cases outcome with
  | success result =>
    change ActorState.expects (.worker (if _ then _ else _)) = _ at h
    split at h <;> exact h
  | raised c => cases h
  | _ => exact h

/-- An actor comes to expect something when it is handed an entry or appends an event. -/
theorem Transition.expects (h : Transition cfg i g l a g' l') (hl' : l'.expects = some (m, st)) :
    l.expects = some (m, st) ∨
    (∃ entry : StreamEntry, g.queue.jobs.log[g.queue.jobs.delivered]? = some entry ∧
      m = { entry.message with entryId := some g.queue.jobs.delivered } ∧
      st = .waiting (m.attemptNumber - 1)) ∨
    ∃ e, g'.db.jobEvents = g.db.jobEvents ++ [e] := by
  cases h with
  | lease hdeliver =>
    obtain ⟨-, hentry, -⟩ := ConsumerGroup.deliver_spec hdeliver
    cases hl'
    exact .inr (.inl ⟨_, hentry, rfl, rfl⟩)
  | worker h =>
    cases h with
    | dispatchRunning _ _ _ hdb | retryScheduled _ _ hdb =>
      obtain ⟨-, rfl⟩ := Database.recordStateEvent_eq_some hdb
      exact .inr (.inr ⟨_, rfl⟩)
    | dispatchBlocked => exact .inl hl'
    | @dispatchAck m' exit =>
      cases exit with
      | budgetBlocked job exc => exact .inl hl'
      | missing => cases hl'
      | terminal => cases hl'
    | artifactWritten _ hnext => obtain rfl | ⟨p, -, rfl⟩ := hnext <;> exact .inl hl'
    | crossLinked => exact .inl hl'
    | _ => cases hl'
  | run => exact .inl (Worker.expects_afterRun hl')
  | renewLease => exact .inl hl'
  | recovery h =>
    cases h with
    | planRequeue _ _ _ hdb =>
      obtain ⟨-, rfl⟩ := Database.recordStateEvent_eq_some hdb
      exact .inr (.inr ⟨_, rfl⟩)
    | _ => cases hl'
  | _ => cases hl'

theorem ActorState.expects_of_running (h : l.running = some m) :
    l.expects = some (m, .running m.attemptNumber) ∧ l.undecided = some m := by
  cases l with
  | worker st =>
    cases st with
    | executing | handling | writingArtifact | crossLinking | completing =>
      cases h
      exact ⟨rfl, rfl⟩
    | _ => cases h
  | _ => cases h

/-- The actor is at work on an entry that it has in hand or has just released. -/
theorem ActorState.has_of_expects (h : l.expects = some (m, st)) (hm : m.entryId = some e) :
    (l.Has e ∧ l.closing = none) ∨ l.released = some e := by
  cases l with
  | idle => cases h
  | worker w =>
    cases w with
    | leased | executing | handling | writingArtifact | crossLinking | completing | retryPublish =>
      cases h
      exact .inl ⟨.inl hm, rfl⟩
    | dispatchAck m' exit =>
      cases exit with
      | budgetBlocked =>
        cases h
        exact .inl ⟨.inl hm, rfl⟩
      | _ => cases h
    | dispatchCommit m' exit =>
      cases exit with
      | budgetBlocked =>
        cases h
        exact .inr hm
      | _ => cases h
    | _ => cases h
  | recovery r =>
    cases r with
    | publishing =>
      cases h
      exact .inl ⟨.inr (RecoveryState.head_listed hm), rfl⟩
    | _ => cases h

theorem ActorState.Sound.holds_of_expects (hl : l.Sound g) (h : l.expects = some (m, st)) :
    g.Holds m := by
  cases l with
  | idle => cases h
  | worker w =>
    cases w with
    | leased =>
      cases h
      exact hl
    | executing | handling | writingArtifact | crossLinking | completing | retryPublish =>
      cases h
      exact And.left hl
    | dispatchAck m' exit | dispatchCommit m' exit =>
      cases exit with
      | budgetBlocked =>
        cases h
        exact And.left hl
      | _ => cases h
    | _ => cases h
  | recovery r =>
    cases r with
    | publishing =>
      cases h
      exact hl.2 _ List.mem_cons_self
    | _ => cases h

/-- A message of the runtime's is the next attempt of the one its publisher is at work on. -/
theorem Publishes.expects {entry : StreamEntry} (h : Publishes g l a l' entry) (hl : l.Sound g) :
    entry.cause = none ∨ ∃ m, l.expects = some (m, .waiting m.attemptNumber) ∧
      entry.message.jobId = m.jobId ∧ entry.message.attemptNumber = m.attemptNumber + 1 := by
  cases h with
  | client => exact .inl rfl
  | @retry m job n =>
    obtain ⟨-, ⟨hid, -⟩, hn, -⟩ := hl
    exact .inr ⟨m, rfl, hid, hn⟩
  | @requeue lease message rest result =>
    obtain ⟨⟨job, ⟨hid, -⟩, rfl, -⟩, -⟩ := hl
    exact .inr ⟨lease.message, rfl, hid, rfl⟩

namespace Deployment
variable {s t : State} {ms : ℕ}

/-- The actor has the entry in hand and will decide what becomes of it, or it has acknowledged it
in a transaction that is still open. -/
def Claims (s : State) (k : ℕ) (e : EntryId) : Prop :=
  ((s.locals k).Has e ∧ (s.locals k).closing = none) ∨ (s.locals k).released = some e

/-- What the orderly discipline gives for the stories. -/
structure Tidy (s : State) : Prop extends Serial s where
  chain : s.shared.AttemptChain
  injective : ∀ (x y : EntryId) (ex ey : StreamEntry), s.shared.queue.jobs.log[x]? = some ex →
    s.shared.queue.jobs.log[y]? = some ey → ex.message.jobId = ey.message.jobId →
    ex.message.attemptNumber = ey.message.attemptNumber → x = y
  lawful : ∀ j, (s.shared.db.history j).Lawful
  settled : ∀ j, (s.shared.db.history j).Settled
  undisturbed : Undisturbed s

theorem tidy_reachable {s : Clocked State EntryId} (hs : cfg.timed.Reachable (Orderly ms) s) :
    Tidy s.state := by
  have hchain := chain_reachable (fun _ _ h => h.1) hs
  obtain ⟨hu, hreach⟩ := undisturbed_reachable hs
  exact {
    toSerial := serial_reachable (fun _ _ h => h.1.1) hs
    chain := attemptChain_reachable hchain
    injective := attempts_injective hchain
    lawful := fun j => (history_settled hreach j).1
    settled := fun j => (history_settled hreach j).2
    undisturbed := hu }

theorem Claims.last (hs : Tidy s) {k : ℕ} (hk : Claims s k e) : ¬ s.shared.Succeeded e := by
  rcases hk with ⟨hhas, hclosing⟩ | hreleased
  · exact not_succeeded hs.toSerial hhas hclosing
  · exact hs.released.last k e hreleased

theorem Claims.lt_delivered (hs : Tidy s) {k : ℕ} (hk : Claims s k e) :
    e < s.shared.queue.jobs.delivered := by
  rcases hk with ⟨hhas, -⟩ | hreleased
  · exact (pending_of_has hs.exclusive hs.recoveries hhas).lt_delivered
  · exact (hs.released.acked k e hreleased).1

theorem Claims.unique (hs : Tidy s) {k k' : ℕ} (hk : Claims s k e) (hk' : Claims s k' e) :
    k = k' := by
  rcases hk with ⟨h, -⟩ | h <;> rcases hk' with ⟨h', -⟩ | h'
  · exact has_unique hs.exclusive hs.recoveries h h'
  · exact absurd (pending_of_has hs.exclusive hs.recoveries h) (hs.released.acked k' e h').2
  · exact absurd (pending_of_has hs.exclusive hs.recoveries h') (hs.released.acked k e h).2
  · exact hs.released.alone k k' e h h'

theorem Claims.same (hs : Tidy s) {k k' : ℕ} {e' : EntryId} {entry entry' : StreamEntry}
    (hk : Claims s k e) (hk' : Claims s k' e')
    (he : s.shared.queue.jobs.log[e]? = some entry)
    (he' : s.shared.queue.jobs.log[e']? = some entry')
    (hj : entry.message.jobId = entry'.message.jobId) : k = k' ∧ e = e' := by
  obtain rfl := hs.chain.last_unique hs.injective he he' hj (hk.last hs) (hk'.last hs)
  exact ⟨hk.unique hs hk', rfl⟩

/-- An actor claims the entry it is at work on. -/
theorem claims_of_expects (hs : Tidy s) {k : ℕ} (hk : (s.locals k).expects = some (m, st)) :
    ∃ (e : EntryId) (entry : StreamEntry), s.shared.queue.jobs.log[e]? = some entry ∧
      m = { entry.message with entryId := some e } ∧ Claims s k e := by
  obtain ⟨e, entry, hentry, -, rfl⟩ := (hs.sound.2 k).holds_of_expects hk
  exact ⟨e, entry, hentry, rfl, ActorState.has_of_expects hk rfl⟩

/-- A recovery claims the entry whose lease it is about to decide on. -/
theorem claims_of_planning (hs : Tidy s) {k : ℕ} {lease : StaleLease} {rest : List StaleLease}
    {result : StaleLeaseRecoveryResult}
    (hk : s.locals k = .recovery (.planning (lease :: rest) result)) :
    ∃ (e : EntryId) (entry : StreamEntry), s.shared.queue.jobs.log[e]? = some entry ∧
      lease.message = { entry.message with entryId := some e } ∧ Claims s k e := by
  have hl := hs.sound.2 k
  rw [hk] at hl
  obtain ⟨e, entry, hentry, -, hm⟩ := hl lease List.mem_cons_self
  have hid : lease.message.entryId = some e := by rw [hm]
  refine ⟨e, entry, hentry, hm, .inl ⟨.inr ?_, by rw [hk]; rfl⟩⟩
  rw [hk]
  exact RecoveryState.head_listed hid

/-- The stories of the jobs, and how far they are from what the stream and the actors hold. -/
structure Story (s : State) : Prop where
  told : ∀ j, ∃ st, s.shared.db.stageOf j = some st
  /-- Before its first message is published, a job waits or is cancelled. -/
  unpublished : ∀ j st, s.shared.db.stageOf j = some st →
    (∀ (e : EntryId) (entry : StreamEntry), s.shared.queue.jobs.log[e]? = some entry →
      entry.message.jobId ≠ j) → st = .absent ∨ st = .waiting 0 ∨ st = .closed
  last : ∀ (e : EntryId) (entry : StreamEntry) (st : Stage),
    s.shared.queue.jobs.log[e]? = some entry → ¬ s.shared.Succeeded e →
    s.shared.db.stageOf entry.message.jobId = some st →
    st = .closed ∨ st = .waiting (entry.message.attemptNumber - 1) ∨
      e < s.shared.queue.jobs.delivered ∧ (st = .running entry.message.attemptNumber ∨
        st = .waiting entry.message.attemptNumber)
  expected : ∀ k m st st', (s.locals k).expects = some (m, st) →
    s.shared.db.stageOf m.jobId = some st' → st' = st ∨ st' = .closed

/-- The story of a finalized job is closed, and no other is. -/
theorem Tidy.closed_iff (hs : Tidy s) {j : JobId} {st : Stage}
    (hst : s.shared.db.stageOf j = some st) : st = .closed ↔ s.shared.db.Finalized j := by
  rw [(stageAfter_eq_some hst).1]
  have hterminal := congrArg List.length (hs.lawful j).terminal
  rw [List.length_map] at hterminal
  change (terminalEvents (s.shared.db.eventsOf j)).length =
    ((s.shared.db.jobFinalizations.get? j).map _).toList.length at hterminal
  unfold Database.Finalized
  cases hf : s.shared.db.jobFinalizations.get? j with
  | none =>
    rw [hf] at hterminal
    simp [List.length_eq_zero_iff.mp hterminal]
  | some f =>
    rw [hf] at hterminal
    have hne : terminalEvents (s.shared.db.eventsOf j) ≠ [] := by
      intro hnil
      rw [hnil] at hterminal
      cases hterminal
    simp [hne]

/-- A job without a row has no story, and every other job has one. -/
theorem Tidy.absent_iff (hs : Tidy s) {j : JobId} {st : Stage}
    (hst : s.shared.db.stageOf j = some st) :
    st = .absent ↔ s.shared.db.loadJob j = none := by
  rw [(stageAfter_eq_some hst).2]
  cases hrow : s.shared.db.loadJob j with
  | none =>
    have habsent := (hs.lawful j).absent hrow
    exact iff_of_true (congrArg JobHistory.events habsent) rfl
  | some row =>
    obtain ⟨e, es, hevents, -⟩ := (hs.lawful j).submitted row hrow
    refine iff_of_false (fun hnil => ?_) (fun h => by cases h)
    cases hevents.symm.trans hnil

/-- A step that writes no event leaves every story where it is. -/
private theorem story_quiet (hs : Tidy s) (hstory : Story s) (hc : FirstPublishOnce s (i, a))
    (ht : Transition cfg i s.shared (s.locals i) a g' l')
    (hdb : g'.db.jobEvents = s.shared.db.jobEvents) :
    Story ⟨g', Function.update s.locals i l'⟩ := by
  have hstage : ∀ j, g'.db.stageOf j = s.shared.db.stageOf j := by
    intro j
    unfold Database.stageOf Database.eventsOf
    rw [hdb]
  refine ⟨fun j => hstage j ▸ hstory.told j, fun j st hst hnone => ?_,
    fun e entry st hentry hlast hst => ?_, fun k m st st' hk hst' => ?_⟩
  · exact hstory.unpublished j st (hstage j ▸ hst) fun e entry he => hnone e entry (ht.grows.log he)
  · change g'.db.stageOf _ = _ at hst
    rw [hstage] at hst
    cases hold : s.shared.queue.jobs.log[e]? with
    | some entry₀ =>
      obtain rfl := Option.some.inj ((ht.grows.log hold).symm.trans hentry)
      have hlast₀ : ¬ s.shared.Succeeded e :=
        fun ⟨x, ex, hx, hcause⟩ => hlast ⟨x, ex, ht.grows.log hx, hcause⟩
      rcases hstory.last e entry₀ st hold hlast₀ hst with h | h | ⟨hlt, h⟩
      · exact .inl h
      · exact .inr (.inl h)
      · exact .inr (.inr ⟨hlt.trans_le ht.grows.queue.delivered, h⟩)
    | none =>
      change g'.queue.jobs.log[e]? = some entry at hentry
      rcases ht.log with hlog | ⟨entry', hpub, hlog⟩
      · rw [hlog, hold] at hentry
        cases hentry
      · rw [hlog] at hentry
        rcases getElem?_append_singleton hentry with h | ⟨-, rfl⟩
        · rw [hold] at h
          cases h
        · rcases hpub.expects (hs.sound.2 i) with hcause | ⟨m, hm, hj, hn⟩
          · obtain ⟨j, n, job, ha, hjob, rfl⟩ :=
              hpub.client_of_cause_eq_none (hs.sound.2 i) hcause
            obtain ⟨rfl, hnone⟩ := hc j n ha
            have hid : job.id = j := Database.id_of_loadJob hjob
            change s.shared.db.stageOf job.id = _ at hst
            rcases hstory.unpublished job.id st hst (hid ▸ hnone) with h | h | h
            · have habsent := (hs.absent_iff hst).mp h
              rw [hid, hjob] at habsent
              cases habsent
            · exact .inr (.inl h)
            · exact .inl h
          · rw [hj] at hst
            rcases hstory.expected i m _ st hm hst with h | h
            · refine .inr (.inl ?_)
              rw [h, hn, add_sub_cancel_right]
            · exact .inl h
  · change g'.db.stageOf _ = _ at hst'
    rw [hstage] at hst'
    by_cases hki : k = i
    · subst hki
      change (Function.update s.locals k l' k).expects = _ at hk
      rw [Function.update_self] at hk
      rcases ht.expects hk with hold | ⟨entry, hentry, rfl, rfl⟩ | ⟨e, happend⟩
      · exact hstory.expected k m st st' hold hst'
      · have hlast : ¬ s.shared.Succeeded s.shared.queue.jobs.delivered :=
          fun h => Nat.lt_irrefl _ (hs.successors.delivered _ h)
        rcases hstory.last _ entry st' hentry hlast hst' with h | h | ⟨hlt, -⟩
        · exact .inr h
        · exact .inl h
        · exact absurd hlt (Nat.lt_irrefl _)
      · have hlength := congrArg List.length (hdb.symm.trans happend)
        rw [List.length_append, List.length_singleton] at hlength
        omega
    · change (Function.update s.locals i l' k).expects = _ at hk
      rw [Function.update_of_ne hki] at hk
      exact hstory.expected k m st st' hk hst'

theorem Tidy.open_of_status (hs : Tidy s) {j : JobId} {job : JobRecord} {st : Stage}
    (hjob : s.shared.db.loadJob j = some job) (hopen : job.status.terminal = false)
    (hst : s.shared.db.stageOf j = some st) : st ≠ .closed := by
  intro hclosed
  rw [((hs.settled j).terminal_iff job hjob).mpr ((hs.closed_iff hst).mp hclosed)] at hopen
  cases hopen

/-- What becomes of the story of a job by an event: it is closed, it begins, or it goes on with
the attempt whose entry the writer claims. -/
inductive Goes (s : State) (i : ℕ) (j : JobId) (l' : ActorState) : Stage → Prop where
  | closes (hl' : l'.expects = none) : Goes s i j l' .closed
  | begins (hnew : s.shared.db.loadJob j = none) (hl' : l'.expects = none) :
      Goes s i j l' (.waiting 0)
  | goesOn {e : EntryId} {entry : StreamEntry} {st : Stage}
      (hentry : s.shared.queue.jobs.log[e]? = some entry) (hclaim : Claims s i e)
      (hj : entry.message.jobId = j)
      (hst : st = .running entry.message.attemptNumber ∨ st = .waiting entry.message.attemptNumber)
      (hl' : ∀ m x, l'.expects = some (m, x) → m.jobId = j ∧ x = st) : Goes s i j l' st

/-- The actor's job is still open, and its story is where the actor expects it. -/
private theorem stage_of_expects (hs : Tidy s) (hstory : Story s) {k : ℕ} {job : JobRecord}
    {st' : Stage} (hk : (s.locals k).expects = some (m, st)) (hid : job.id = m.jobId)
    (hst : s.shared.db.stageOf job.id = some st') (hopen : ¬ s.shared.db.Finalized m.jobId) :
    st' = st := by
  rcases hstory.expected k m st st' hk (hid ▸ hst) with h | h
  · exact h
  · exact absurd (hid ▸ (hs.closed_iff hst).mp h) hopen

/-- The story of an open job reaches the attempt whose lease a recovery decides on. -/
private theorem reaches_of_planning (hs : Tidy s) (hstory : Story s) {k : ℕ} {lease : StaleLease}
    {rest : List StaleLease} {result : StaleLeaseRecoveryResult} {job : JobRecord}
    (hk : s.locals k = .recovery (.planning (lease :: rest) result))
    (hjob : s.shared.db.loadJob lease.message.jobId = some job)
    (hopen : job.status.terminal = false)
    (hst : s.shared.db.stageOf lease.message.jobId = some st) :
    st.reaches lease.message.attemptNumber = true := by
  obtain ⟨e, entry, hentry, hm, hclaim⟩ := claims_of_planning hs hk
  have hj : lease.message.jobId = entry.message.jobId := by rw [hm]
  have hn : lease.message.attemptNumber = entry.message.attemptNumber := by rw [hm]
  have hpos := (hs.chain.bound e entry hentry).1
  rw [hn]
  rcases hstory.last e entry st hentry (hclaim.last hs) (hj ▸ hst) with rfl | rfl | ⟨-, rfl | rfl⟩
  · exact absurd rfl (hs.open_of_status hjob hopen hst)
  · simp [Stage.reaches]
  · simp [Stage.reaches]
  · simp only [Stage.reaches, decide_true, Bool.true_and, Bool.or_eq_true, decide_eq_true_eq]
    omega

theorem ActorState.Decided.expects (h : l.Decided) : l.expects = none := by
  cases l with
  | idle => rfl
  | worker st => cases st <;> first | rfl | cases h
  | recovery st => cases st <;> first | rfl | cases h

private theorem ends_of_terminal (hs : Tidy s) (hstory : Story s) (hc : CancelsQueued s (i, a))
    {job : JobRecord} {eventType : EventType} {eventData : EventData}
    (h : TerminalEvent cfg i s.shared (s.locals i) a job eventType eventData)
    (hst : s.shared.db.stageOf job.id = some st) :
    st.ends eventData = true ∧ eventType.status.terminal = true := by
  have hsound := hs.sound.2 i
  have hopened := hs.undisturbed.opened i
  generalize hl : s.locals i = l at h hsound hopened
  cases h with
  | @cancelledQueued j _ hjob =>
    have hid : job.id = j := Database.id_of_loadJob hjob
    have hopen : st ≠ .closed := fun h => (hc j rfl).1 (hid ▸ (hs.closed_iff hst).mp h)
    have habsent : st ≠ .absent := by
      intro h
      have hnone := (hs.absent_iff hst).mp h
      rw [hid, hjob] at hnone
      cases hnone
    simp [Stage.ends, hopen, habsent, EventType.status, JobStatus.terminal]
  | @blocked m =>
    have hk : (s.locals i).expects = some (m, .waiting (m.attemptNumber - 1)) := by rw [hl]; rfl
    obtain rfl := stage_of_expects hs hstory hk (And.right hsound).1 hst (hopened m rfl)
    simp [Stage.ends, EventType.status, JobStatus.terminal]
  | @handled m _ error now _ _ h =>
    have hk : (s.locals i).expects = some (m, .running m.attemptNumber) := by rw [hl]; rfl
    obtain rfl := stage_of_expects hs hstory hk (And.right hsound).1 hst (hopened m rfl)
    cases h <;> simp [Stage.ends, EventType.status, JobStatus.terminal]
  | @completed m =>
    have hk : (s.locals i).expects = some (m, .running m.attemptNumber) := by rw [hl]; rfl
    obtain rfl := stage_of_expects hs hstory hk (And.right hsound).1 hst (hopened m rfl)
    simp [Stage.ends, EventType.status, JobStatus.terminal]
  | @leaseExhausted lease rest result _ now hjob hopen _ =>
    have hid : job.id = lease.message.jobId := Database.id_of_loadJob hjob
    have hreaches := reaches_of_planning hs hstory hl hjob hopen (hid ▸ hst)
    simp [Stage.ends, hreaches, EventType.status, JobStatus.terminal]

private theorem goes_of_appends (hs : Tidy s) (hstory : Story s) (hc : CancelsQueued s (i, a))
    {e : JobEvent} (h : Appends cfg i s.shared (s.locals i) a l' e) {st : Stage}
    (hst : s.shared.db.stageOf e.jobId = some st) :
    ∃ st', st.next e = some st' ∧ Goes s i e.jobId l' st' := by
  have hsound := hs.sound.2 i
  have hopened := hs.undisturbed.opened i
  have goesOn : ∀ {m : QueueJobMessage} {x st' : Stage}, (s.locals i).expects = some (m, x) →
      m.jobId = e.jobId → (st' = .running m.attemptNumber ∨ st' = .waiting m.attemptNumber) →
      (∀ m' x, l'.expects = some (m', x) → m' = m ∧ x = st') → Goes s i e.jobId l' st' := by
    intro m x st' hk hj hst' hl'
    obtain ⟨e₀, entry, hentry, rfl, hclaim⟩ := claims_of_expects hs hk
    refine .goesOn hentry hclaim hj hst' fun m' x' hx => ?_
    obtain ⟨rfl, rfl⟩ := hl' m' x' hx
    exact ⟨hj, rfl⟩
  generalize hl : s.locals i = l at h hsound hopened
  cases h with
  | @submitted _ row hnew =>
    obtain rfl := (hs.absent_iff hst).mpr hnew
    exact ⟨.waiting 0, rfl, .begins hnew rfl⟩
  | @running m job now hjob hopen =>
    have hid : job.id = m.jobId := Database.id_of_loadJob hjob
    have hk : (s.locals i).expects = some (m, .waiting (m.attemptNumber - 1)) := by rw [hl]; rfl
    have hfin : ¬ s.shared.db.Finalized m.jobId := fun h =>
      hs.open_of_status hjob hopen (hid ▸ hst) ((hs.closed_iff (hid ▸ hst)).mpr h)
    obtain rfl := stage_of_expects hs hstory hk hid hst hfin
    refine ⟨.running m.attemptNumber, ?_, goesOn hk hid.symm (.inl rfl) fun m' x h => ?_⟩
    · simp [Stage.next, EventType.status, JobStatus.terminal]
    · cases h
      exact ⟨rfl, rfl⟩
  | @retryScheduled m job c now =>
    have hid : job.id = m.jobId := (And.right hsound).1
    have hk : (s.locals i).expects = some (m, .running m.attemptNumber) := by rw [hl]; rfl
    obtain rfl := stage_of_expects hs hstory hk hid hst (hopened m rfl)
    refine ⟨.waiting m.attemptNumber, ?_, goesOn hk hid.symm (.inr rfl) fun m' x h => ?_⟩
    · simp [Stage.next, EventType.status, JobStatus.terminal]
    · cases h
      exact ⟨rfl, rfl⟩
  | @staleLeaseRecovered lease rest result job now hjob hopen =>
    have hid : job.id = lease.message.jobId := Database.id_of_loadJob hjob
    have hreaches := reaches_of_planning hs hstory hl hjob hopen (hid ▸ hst)
    obtain ⟨e₀, entry, hentry, hm, hclaim⟩ := claims_of_planning hs hl
    have hj : entry.message.jobId = job.id := by rw [hid, hm]
    have hn : lease.message.attemptNumber = entry.message.attemptNumber := by rw [hm]
    refine ⟨.waiting lease.message.attemptNumber, ?_,
      .goesOn hentry hclaim hj (.inr (congrArg _ hn)) fun m' x h => ?_⟩
    · simp [Stage.next, hreaches, EventType.status, JobStatus.terminal]
    · cases h
      exact ⟨hid.symm, rfl⟩
  | terminal h hl' =>
    obtain ⟨hends, hterminal⟩ := ends_of_terminal hs hstory hc (hl ▸ h) hst
    refine ⟨.closed, ?_, .closes (ActorState.Decided.expects hl')⟩
    simp [Stage.next, hends, hterminal]

/-- A step that writes an event moves on the story of that event's job only. -/
private theorem story_append (hs : Tidy s) (hstory : Story s) (hc : CancelsQueued s (i, a))
    (ht : Transition cfg i s.shared (s.locals i) a g' l') {ev : JobEvent}
    (h : Appends cfg i s.shared (s.locals i) a l' ev)
    (hdb : g'.db.jobEvents = s.shared.db.jobEvents ++ [ev]) :
    Story ⟨g', Function.update s.locals i l'⟩ := by
  obtain ⟨st₀, hst₀⟩ := hstory.told ev.jobId
  obtain ⟨st₁, hnext, hgoes⟩ := goes_of_appends hs hstory hc h hst₀
  have hself : g'.db.stageOf ev.jobId = some st₁ := by
    unfold Database.stageOf at hst₀ ⊢
    rw [Database.eventsOf_of_append hdb, if_pos rfl, stageAfter_append, hst₀]
    exact hnext
  have hother : ∀ j, j ≠ ev.jobId → g'.db.stageOf j = s.shared.db.stageOf j := by
    intro j hj
    unfold Database.stageOf
    rw [Database.eventsOf_of_append hdb, if_neg (Ne.symm hj), List.append_nil]
  have hlog : g'.queue.jobs.log = s.shared.queue.jobs.log := by
    rcases ht.log with hlog | ⟨entry, hpub, -⟩
    · exact hlog
    · exact (hpub.not_appends h).elim
  have hsucc : ∀ e, g'.Succeeded e ↔ s.shared.Succeeded e := by
    intro e
    unfold Grid.Succeeded
    rw [hlog]
  refine ⟨fun j => ?_, fun j st hst hnone => ?_, fun e entry st hentry hlast hst => ?_,
    fun k m st st' hk hst' => ?_⟩
  · by_cases hj : j = ev.jobId
    · exact ⟨st₁, hj ▸ hself⟩
    · obtain ⟨st, hst⟩ := hstory.told j
      exact ⟨st, (hother j hj).trans hst⟩
  · change g'.db.stageOf j = _ at hst
    have hnone : ∀ (e : EntryId) (entry : StreamEntry), s.shared.queue.jobs.log[e]? = some entry →
        entry.message.jobId ≠ j := fun e entry he => hnone e entry (ht.grows.log he)
    by_cases hj : j = ev.jobId
    · subst hj
      obtain rfl := Option.some.inj (hself.symm.trans hst)
      cases hgoes with
      | closes => exact .inr (.inr rfl)
      | begins => exact .inr (.inl rfl)
      | goesOn hentry _ hj => exact absurd hj (hnone _ _ hentry)
    · rw [hother j hj] at hst
      exact hstory.unpublished j st hst hnone
  · change g'.queue.jobs.log[e]? = some entry at hentry
    change g'.db.stageOf _ = _ at hst
    rw [hlog] at hentry
    have hlast : ¬ s.shared.Succeeded e := fun h => hlast ((hsucc e).mpr h)
    by_cases hj : entry.message.jobId = ev.jobId
    · obtain rfl := Option.some.inj ((hj ▸ hself).symm.trans hst)
      cases hgoes with
      | closes => exact .inl rfl
      | begins hnew =>
        obtain ⟨row, hrow⟩ := hs.sound.1 e entry hentry
        rw [hj, hnew] at hrow
        cases hrow
      | goesOn hentry' hclaim hj' hst' =>
        obtain rfl := hs.chain.last_unique hs.injective hentry hentry' (hj.trans hj'.symm) hlast
          (hclaim.last hs)
        obtain rfl := Option.some.inj (hentry.symm.trans hentry')
        exact .inr (.inr ⟨(hclaim.lt_delivered hs).trans_le ht.grows.queue.delivered, hst'⟩)
    · rw [hother _ hj] at hst
      rcases hstory.last e entry st hentry hlast hst with h | h | ⟨hlt, h⟩
      · exact .inl h
      · exact .inr (.inl h)
      · exact .inr (.inr ⟨hlt.trans_le ht.grows.queue.delivered, h⟩)
  · change g'.db.stageOf _ = _ at hst'
    by_cases hki : k = i
    · subst hki
      change (Function.update s.locals k l' k).expects = _ at hk
      rw [Function.update_self] at hk
      cases hgoes with
      | closes hl' | begins _ hl' => cases hl'.symm.trans hk
      | goesOn _ _ _ _ hl' =>
        obtain ⟨hj, rfl⟩ := hl' m st hk
        rw [hj, hself] at hst'
        exact .inl (Option.some.inj hst').symm
    · change (Function.update s.locals i l' k).expects = _ at hk
      rw [Function.update_of_ne hki] at hk
      by_cases hj : m.jobId = ev.jobId
      · obtain ⟨e, entry, hentry, rfl, hclaim⟩ := claims_of_expects hs hk
        cases hgoes with
        | closes =>
          rw [hj, hself] at hst'
          exact .inr (Option.some.inj hst').symm
        | begins hnew =>
          obtain ⟨row, hrow⟩ := hs.sound.1 e entry hentry
          cases hnew.symm.trans (hj ▸ hrow)
        | goesOn hentry' hclaim' hj' =>
          exact absurd (hclaim.same hs hclaim' hentry hentry' (hj.trans hj'.symm)).1 hki
      · rw [hother _ hj] at hst'
        exact hstory.expected k m st st' hk hst'

private theorem story_step {a : ℕ × Action} (hs : Tidy s) (hstory : Story s)
    (hpublish : FirstPublishOnce s a) (hcancel : CancelsQueued s a)
    (h : cfg.lts.step s a = some t) : Story t := by
  obtain ⟨i, a⟩ := a
  obtain ⟨g', l', hlocal, rfl⟩ := Actors.globalStep_eq_some.mp h
  have ht := localStep_transition hlocal
  rcases localStep_journaled hlocal with ⟨hdb, -⟩ | ⟨e, happends, hdb⟩
  · exact story_quiet hs hstory hpublish ht hdb
  · exact story_append hs hstory hcancel ht happends hdb

theorem story_reachable {s : Clocked State EntryId} (hs : cfg.timed.Reachable (Orderly ms) s) :
    Story s.state := by
  refine Lts.Reachable.invariant (P := fun s => Story s.state) ?_ ?_ hs
  · refine ⟨fun _ => ⟨.absent, rfl⟩, fun j st hst _ => .inl (Option.some.inj hst).symm,
      fun _ _ _ h => (nomatch h), fun _ _ _ _ h => (nomatch h)⟩
  · intro s a t hs hstory hc h
    cases a with
    | tick d =>
      obtain rfl := Option.some.inj h
      exact hstory
    | act b =>
      obtain ⟨u, hstep, rfl⟩ := Lts.clocked_act_eq_some.mp h
      exact story_step (tidy_reachable hs) hstory (hc.1.2 b rfl) (hc.2 b rfl) hstep

/-- In an orderly run every job's log tells a story. It is closed exactly when the job is finalized;
while a worker has an attempt of the job running the story is at that attempt; and while the story
is open, the last message of the job is for the attempt that is running or was given up last, or
for the one after it. -/
theorem orderly_log_tells_story {s : Clocked State EntryId}
    (hs : cfg.timed.Reachable (Orderly ms) s) (j : JobId) :
    ∃ st, stageAfter (s.state.shared.db.eventsOf j) = some st ∧
      (st = .closed ↔ s.state.shared.db.Finalized j) ∧
      (∀ k m, (s.state.locals k).running = some m → m.jobId = j →
        st = .running m.attemptNumber) ∧
      ∀ (e : EntryId) (entry : StreamEntry), s.state.shared.queue.jobs.log[e]? = some entry →
        entry.message.jobId = j → ¬ s.state.shared.Succeeded e → st ≠ .closed →
        st = .waiting (entry.message.attemptNumber - 1) ∨
          st = .running entry.message.attemptNumber ∨ st = .waiting entry.message.attemptNumber := by
  have htidy := tidy_reachable hs
  have hstory := story_reachable hs
  obtain ⟨st, hst⟩ := hstory.told j
  refine ⟨st, hst, htidy.closed_iff hst, fun k m hk hj => ?_, fun e entry he hj hlast hopen => ?_⟩
  · obtain ⟨hexpects, hundecided⟩ := ActorState.expects_of_running hk
    have hopen := htidy.undisturbed.opened k m hundecided
    rcases hstory.expected k m _ st hexpects (hj ▸ hst) with h | h
    · exact h
    · exact absurd (hj ▸ (htidy.closed_iff hst).mp h) hopen
  · rcases hstory.last e entry st he hlast (hj ▸ hst) with h | h | ⟨-, h⟩
    · exact absurd h hopen
    · exact .inl h
    · exact .inr h

/-- The lease of worker 1 runs out, a recovery requeues its job, and worker 3 has the second attempt
running. -/
theorem orderly_log_tells_story_requeued : ∃ s, stubDeployment.timed.Reachable (Orderly 25000) s ∧
    s.state.shared.db.eventsOf 1 ≠ [] ∧
    stageAfter (s.state.shared.db.eventsOf 1) = some (.running 2) := by
  obtain ⟨s, hs, -, hp⟩ := exists_timed_run stubDeployment 4 25000 orderly_of_check (fun _ _ => rfl)
    [.act (0, .createJob stubSubmission), .act (0, .publishJob 1 1), .act (1, .processOne),
      .act (1, .advance ""), .act (1, .run [] (.raised "SystemExit")), .tick 40000,
      .act (2, .recoverStaleLeases (fun _ => 0) 30000 10), .act (2, .advance ""),
      .act (2, .advance ""), .act (2, .advance ""), .act (3, .processOne), .act (3, .advance "")]
    (fun s => ((s.state.locals 3).running.any fun m : QueueJobMessage =>
        decide (m.jobId = 1 ∧ m.attemptNumber = 2)) &&
      decide ((s.state.shared.db.eventsOf 1).length = 4))
    (s := stubDeployment.timed.init) (by decide)
  obtain ⟨hrunning, hlength⟩ := Bool.and_eq_true_iff.mp hp
  obtain ⟨m, hm, hmatch⟩ := (Option.any_eq_true _ _).mp hrunning
  obtain ⟨hj, hn⟩ : m.jobId = 1 ∧ m.attemptNumber = 2 := of_decide_eq_true hmatch
  obtain ⟨st, hst, -, hat, -⟩ := orderly_log_tells_story hs 1
  refine ⟨s, hs, ?_, ?_⟩
  · rw [← List.length_pos_iff, of_decide_eq_true hlength]
    decide
  · rw [hst, hat 3 m hm hj, hn]

end Deployment
end AgentRuntimeGrid
