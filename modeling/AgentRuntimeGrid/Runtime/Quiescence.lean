import AgentRuntimeGrid.Runtime.Locks
import AgentRuntimeGrid.Runtime.NoLoss
import AgentRuntimeGrid.Worker.RecoveryBatch

/-! From every state a deployment can be brought to rest without its clients: the actors that are
stuck die, one worker recovers the stale leases and works off what is left in the stream, and then
every published job is finalized. -/
namespace AgentRuntimeGrid

namespace Grid
variable {g g' g'' : Grid}

theorem Grows.refl (g : Grid) : g.Grows g where
  queue := ⟨List.prefix_refl _, le_refl _, fun _ _ h => h⟩
  history _ := ⟨fun row h => ⟨row, h, .refl row⟩, List.prefix_refl _, fun _ h => h⟩

theorem Grows.trans (h : g.Grows g') (h' : g'.Grows g'') : g.Grows g'' where
  queue := ⟨h.queue.log.trans h'.queue.log, h.queue.delivered.trans h'.queue.delivered,
    fun e he hp => h.queue.pending e he
      (h'.queue.pending e (he.trans_le h.queue.delivered) hp)⟩
  history j := by
    refine ⟨fun row hrow => ?_, (h.history j).events.trans (h'.history j).events, fun f hf => ?_⟩
    · obtain ⟨row', hrow', hsame⟩ := (h.history j).row row hrow
      obtain ⟨row'', hrow'', hsame'⟩ := (h'.history j).row row' hrow'
      exact ⟨row'', hrow'', hsame.trans hsame'⟩
    · exact (h'.history j).finalization f ((h.history j).finalization f hf)

end Grid

/-- The message the actor has acknowledged inside a dispatch transaction that has still to commit
its `budget_blocked` event. -/
def ActorState.blocking : ActorState → Option QueueJobMessage
  | .worker (.dispatchCommit m (.budgetBlocked _ _)) => some m
  | _ => none

theorem Transition.finalized_of_blocking {cfg : Deployment} {i : ℕ} {g g' : Grid}
    {l l' : ActorState} {a : Action} {m : QueueJobMessage} (h : Transition cfg i g l a g' l')
    (hl : l.Sound g) (hm : l.blocking = some m) (ha : a ≠ .crash) :
    g'.db.Finalized m.jobId := by
  cases h with
  | crash => exact absurd rfl ha
  | worker h =>
    cases h with
    | blockedCommits hdb =>
      obtain rfl := Option.some.inj hm
      obtain ⟨-, hid, -⟩ := hl
      exact hid ▸ Database.finalized_of_finalizeJob hdb
    | blockedRaises hdb =>
      obtain ⟨-, hid, row, hrow, -⟩ := hl
      have hnone := Database.loadJob_of_finalizeJob_none rfl hdb
      rw [hid, hrow] at hnone
      cases hnone
    | _ => cases hm
  | @renewLease st e he =>
    cases st with
    | dispatchCommit => cases he
    | _ => cases hm
  | finish hl =>
    cases l with
    | worker st =>
      cases st with
      | dispatchCommit => cases hl
      | _ => cases hm
    | _ => cases hm
  | _ => cases hm

namespace Deployment
variable {cfg : Deployment} {s t : State}

/-- No process dies between the acknowledgement inside a dispatch transaction and its commit. -/
def NoBlockedCrash (s : State) (a : ℕ × Action) : Prop :=
  a.2 = .crash → (s.locals a.1).blocking = none

/-- Every entry of the stream is live, dispensable, or acknowledged by an actor that is about to
finalize its job. -/
def NothingLeft (s : State) : Prop :=
  ∀ (e : EntryId) (entry : StreamEntry), s.shared.queue.jobs.log[e]? = some entry →
    s.shared.queue.jobs.Live e ∨ s.shared.Covered e entry.message ∨
      ∃ k m, (s.locals k).blocking = some m ∧ m.entryId = some e

/-- An actor that acknowledges an entry has seen it dispensable, or finalizes its job next. -/
private theorem covered_or_blocking {i : ℕ} {g' : Grid} {l' : ActorState} {now : String}
    {e : EntryId} {entry : StreamEntry} (hs : Sound s) (hj : (s.locals i).Justified s.shared)
    (ht : Transition cfg i s.shared (s.locals i) (.advance now) g' l')
    (he : (s.locals i).acknowledges = some e)
    (hentry : s.shared.queue.jobs.log[e]? = some entry) :
    s.shared.Covered e entry.message ∨ ∃ m, l'.blocking = some m ∧ m.entryId = some e := by
  have hjob : ∀ {m : QueueJobMessage}, s.shared.Holds m → m.entryId = some e →
      s.shared.Covered e m → s.shared.Covered e entry.message := by
    rintro m ⟨e₀, entry₀, hentry₀, -, rfl⟩ hm hcovered
    obtain rfl := Option.some.inj hm
    obtain rfl := Option.some.inj (hentry₀.symm.trans hentry)
    exact hcovered
  have hl := hs.2 i
  rcases ActorState.acknowledges_eq_some he with ⟨m, exit, h, hm⟩ | ⟨m, h, hm⟩ |
    ⟨kind, lease, rest, result, h, hm⟩
  · rw [h] at hl hj ht
    cases exit with
    | missing => exact hl.2.elim
    | terminal => exact .inl (hjob hl.1 hm (hj e hm))
    | budgetBlocked job exc =>
      refine .inr ⟨m, ?_, hm⟩
      cases ht with
      | worker ht =>
        cases ht with
        | dispatchAck => rfl
  · rw [h] at hl hj
    exact .inl (hjob hl hm (hj e hm))
  · rw [h] at hl hj
    exact .inl (hjob (hl.2 lease List.mem_cons_self) hm (hj e hm))

private theorem nothingLeft_step {a : ℕ × Action} (hs : Sound s)
    (hj : ∀ i, (s.locals i).Justified s.shared) (hc : NoBlockedCrash s a)
    (h : cfg.lts.step s a = some t) (hleft : NothingLeft s) : NothingLeft t := by
  obtain ⟨i, a⟩ := a
  obtain ⟨g', l', ht, rfl⟩ := step_transition h
  intro e entry hentry
  by_cases hlive : g'.queue.jobs.Live e
  · exact .inl hlive
  right
  cases hold : s.shared.queue.jobs.log[e]? with
  | none => exact absurd (ht.queueStep.live_of_new hold hentry) hlive
  | some entry₀ =>
    obtain rfl : entry₀ = entry :=
      Option.some.inj ((ht.grows.log hold).symm.trans hentry)
    rcases hleft e entry₀ hold with hl | hcovered | ⟨k, m, hk, hm⟩
    · obtain hlive' | ⟨he, now, rfl⟩ := ht.live hl
      · exact absurd hlive' hlive
      · refine (covered_or_blocking hs (hj i) ht he hold).imp (·.mono ht.grows) ?_
        rintro ⟨m, hblocking, hm⟩
        exact ⟨i, m, by simpa only [Function.update_self] using hblocking, hm⟩
    · exact .inl (hcovered.mono ht.grows)
    · by_cases hki : k = i
      · subst hki
        left
        have hcrash : a ≠ .crash := by
          intro ha
          rw [hc ha] at hk
          cases hk
        have hholds : s.shared.Holds m := by
          have hl := hs.2 k
          cases hlocal : s.locals k with
          | worker st =>
            rw [hlocal] at hk hl
            cases st with
            | dispatchCommit m' exit =>
              cases exit with
              | budgetBlocked => exact Option.some.inj hk ▸ hl.1
              | _ => cases hk
            | _ => cases hk
          | _ =>
            rw [hlocal] at hk
            cases hk
        obtain ⟨e₀, entry', hentry', -, rfl⟩ := hholds
        obtain rfl := Option.some.inj hm
        obtain rfl := Option.some.inj (hentry'.symm.trans hold)
        have hfinalized := ht.finalized_of_blocking (hs.2 k) hk hcrash
        exact .inl hfinalized
      · exact .inr ⟨k, m, by simpa only [Function.update_of_ne hki] using hk, hm⟩

theorem nothingLeft_reachable (hs : cfg.lts.Reachable NoBlockedCrash s) :
    NothingLeft s ∧ ∀ i, (s.locals i).Justified s.shared := by
  refine Lts.Reachable.invariant
    (P := fun s => NothingLeft s ∧ ∀ i, (s.locals i).Justified s.shared) ?_ ?_ hs
  · exact ⟨fun _ _ h => (nomatch h), fun _ => trivial⟩
  intro s a t hs hinv hc h
  have hsound := sound_reachable hs.weaken
  refine ⟨nothingLeft_step hsound hinv.2 hc h hinv.1, ?_⟩
  obtain ⟨g', l', ht, rfl⟩ := step_transition h
  exact Actors.forall_locals_update (P := fun _ l => ActorState.Justified g' l)
    (ht.justified (history_lawful hs.weaken) hsound.1 (hsound.2 a.1) (hinv.2 a.1))
    fun k _ => (hinv.2 k).mono ht.grows

/-- Where no actor is at work and no entry is live, every published job is finalized. -/
theorem finalized_of_rest (hs : cfg.lts.Reachable NoBlockedCrash s)
    (hidle : ∀ k, s.locals k = .idle) (hlive : ∀ e, ¬ s.shared.queue.jobs.Live e) {e : EntryId}
    {entry : StreamEntry} (hentry : s.shared.queue.jobs.log[e]? = some entry) :
    s.shared.db.Finalized entry.message.jobId := by
  have hlost : s.shared.NothingLost := by
    intro e entry hentry
    rcases (nothingLeft_reachable hs).1 e entry hentry with h | h | ⟨k, m, hk, -⟩
    · exact .inl h
    · exact .inr h
    · rw [hidle k] at hk
      cases hk
  by_contra hopen
  obtain ⟨e', -, -, -, hlive'⟩ := exists_live hlost hopen hentry rfl
  exact hlive e' hlive'

theorem grows_of_run {C : State → ℕ × Action → Prop} (h : cfg.lts.Run C s t) :
    s.shared.Grows t.shared := by
  refine Lts.Run.preserves (P := fun t => s.shared.Grows t.shared) ?_ h (.refl _)
  intro u a v hu _ hstep
  obtain ⟨g', l', ht, rfl⟩ := step_transition hstep
  exact hu.trans ht.grows

private theorem eventually_idle (hs : cfg.lts.Reachable Lts.anyStep s) :
    ∃ n, ∀ k, n ≤ k → s.locals k = .idle := by
  refine Lts.Reachable.invariant (P := fun s => ∃ n, ∀ k, n ≤ k → s.locals k = .idle) ?_ ?_ hs
  · exact ⟨0, fun _ _ => rfl⟩
  · rintro s a t - ⟨n, hn⟩ - h
    obtain ⟨g', l', -, rfl⟩ := step_transition h
    refine ⟨max n (a.1 + 1), fun k hk => ?_⟩
    obtain ⟨hnk, hak⟩ := max_le_iff.mp hk
    exact (Function.update_of_ne (Nat.ne_of_gt hak) l' s.locals).trans (hn k hnk)

end Deployment

/-- What each attempt of a job writes, and how it ends. -/
abbrev Runner := JobRecord → ℤ → List (FileRef × PyBytes) × RunOutcome

/-- What an actor may do while nobody attends to the deployment. Jobs write and end as the runner
says, the recoveries ask for up to `count` leases that are idle for `staleAfterMs`, and no process
dies inside a transaction that it has acknowledged. -/
def ActorState.Unattended (runner : Runner) (staleAfterMs count : ℕ) (l : ActorState) :
    Action → Prop
  | .crash => l.blocking = none
  | .processOne | .advance _ | .finish => True
  | .recoverStaleLeases _ after n => after = staleAfterMs ∧ n = count
  | .run writes outcome => ∀ m job, l = .worker (.executing m job) →
      (writes, outcome) = runner job m.attemptNumber
  | .createJob _ | .publishJob _ _ | .cancelQueuedJob _ | .renewLease => False

namespace Deployment
variable {cfg : Deployment} {s t : State} {runner : Runner}
  {i staleAfterMs count : ℕ}

/-- Actor `i` is the only one that begins anything. -/
def Repairs (runner : Runner) (i staleAfterMs count : ℕ) (s : State)
    (a : ℕ × Action) : Prop :=
  (s.locals a.1).Unattended runner staleAfterMs count a.2 ∧
    (a.1 = i ∨ s.locals a.1 ≠ .idle)

theorem Repairs.noBlockedCrash {a : ℕ × Action} (h : Repairs runner i staleAfterMs count s a) :
    NoBlockedCrash s a := by
  obtain ⟨k, a⟩ := a
  rintro rfl
  exact h.1

private theorem step_of_localStep {k : ℕ} {a : Action} {g' : Grid} {l' : ActorState}
    (h : cfg.localStep k s.shared (s.locals k) a = some (g', l')) :
    cfg.lts.step s (k, a) = some ⟨g', Function.update s.locals k l'⟩ :=
  Actors.globalStep_eq_some.mpr ⟨g', l', h, rfl⟩

private theorem localStep_crash (k : ℕ) (g : Grid) (l : ActorState) :
    cfg.localStep k g l .crash = some (g.rollback l, .idle) := by
  cases l <;> rfl

private theorem blocking_dispatchEnd (w : Worker) (g : Grid) (m : QueueJobMessage)
    (job : JobRecord) (exc : BudgetPolicyError) :
    ActorState.blocking (.worker (w.dispatchEnd g m (.budgetBlocked job exc)).2) = none := by
  simp only [Worker.dispatchEnd, Grid.commit]
  split <;> rfl

/-- An actor that is not at rest gets there, by its death or by a commit and its death. -/
private theorem exists_idle (k : ℕ) (hk : s.locals k ≠ .idle) : ∃ g',
    cfg.lts.Run (Repairs runner i staleAfterMs count) s
      ⟨g', Function.update s.locals k .idle⟩ := by
  have crash : ∀ s : State, s.locals k ≠ .idle → (s.locals k).blocking = none →
      cfg.lts.Run (Repairs runner i staleAfterMs count) s
        ⟨s.shared.rollback (s.locals k), Function.update s.locals k .idle⟩ := by
    intro s hk hblocking
    exact Lts.Run.single ⟨(k, .crash), ⟨hblocking, .inr hk⟩, step_of_localStep
      (localStep_crash k s.shared (s.locals k))⟩
  cases hblocking : (s.locals k).blocking with
  | none => exact ⟨_, crash s hk hblocking⟩
  | some m =>
    obtain ⟨job, exc, hlocal⟩ : ∃ job exc,
        s.locals k = .worker (.dispatchCommit m (.budgetBlocked job exc)) := by
      unfold ActorState.blocking at hblocking
      split at hblocking
      next m' job exc hlocal => exact ⟨job, exc, Option.some.inj hblocking ▸ hlocal⟩
      next => cases hblocking
    have hstep : cfg.localStep k s.shared (s.locals k) (.advance "") =
        some (((cfg.worker k).dispatchEnd s.shared m (.budgetBlocked job exc)).1,
          .worker ((cfg.worker k).dispatchEnd s.shared m (.budgetBlocked job exc)).2) := by
      rw [hlocal]
      rfl
    have hended := blocking_dispatchEnd (cfg.worker k) s.shared m job exc
    generalize (cfg.worker k).dispatchEnd s.shared m (.budgetBlocked job exc) = r at hstep hended
    let u : State := ⟨r.1, Function.update s.locals k (.worker r.2)⟩
    have hcommit : cfg.lts.Run (Repairs runner i staleAfterMs count) s u :=
      Lts.Run.single ⟨(k, .advance ""), ⟨trivial, .inr hk⟩, step_of_localStep hstep⟩
    have hu : u.locals k = .worker r.2 := Function.update_self _ _ _
    have hdeath := crash u (by rw [hu]; exact nofun) (by rw [hu]; exact hended)
    have hupdate : Function.update u.locals k ActorState.idle =
        Function.update s.locals k .idle := Function.update_idem _ _ _
    rw [hupdate] at hdeath
    exact ⟨_, hcommit.trans hdeath⟩

private theorem exists_restart {n : ℕ} (hn : ∀ k, n ≤ k → s.locals k = .idle) : ∃ g',
    cfg.lts.Run (Repairs runner i staleAfterMs count) s ⟨g', fun _ => .idle⟩ := by
  induction n generalizing s with
  | zero =>
    have hlocals : s.locals = fun _ => .idle := funext fun k => hn k (Nat.zero_le k)
    exact ⟨s.shared, by rw [← hlocals]; exact Relation.ReflTransGen.refl⟩
  | succ n ih =>
    by_cases hk : s.locals n = .idle
    · refine ih fun k hnk => ?_
      rcases Nat.eq_or_lt_of_le hnk with rfl | hlt
      · exact hk
      · exact hn k hlt
    · obtain ⟨g₁, hfirst⟩ := @exists_idle cfg s runner i staleAfterMs count n hk
      have hrest : ∀ k, n ≤ k → Function.update s.locals n .idle k = .idle := by
        intro k hnk
        rcases Nat.eq_or_lt_of_le hnk with rfl | hlt
        · exact Function.update_self _ _ _
        · exact (Function.update_of_ne (Nat.ne_of_gt hlt) _ _).trans (hn k hlt)
      obtain ⟨g', hlast⟩ := ih (s := ⟨g₁, Function.update s.locals n .idle⟩) hrest
      exact ⟨g', hfirst.trans hlast⟩

/-- What actor `i` does while all others are at rest. -/
def Alone (cfg : Deployment) (runner : Runner) (i staleAfterMs count : ℕ) :
    Grid × ActorState → Grid × ActorState → Prop :=
  Relation.ReflTransGen fun x y => ∃ a, x.2.Unattended runner staleAfterMs count a ∧
    cfg.localStep i x.1 x.2 a = some y

theorem Alone.run {g g' : Grid} (h : Alone cfg runner i staleAfterMs count (g, .idle) (g', .idle)) :
    cfg.lts.Run (Repairs runner i staleAfterMs count) ⟨g, fun _ => .idle⟩ ⟨g', fun _ => .idle⟩ := by
  have hrun : cfg.lts.Run (Repairs runner i staleAfterMs count)
      (Actors.alone ActorState.idle i g .idle) (Actors.alone ActorState.idle i g' .idle) :=
    Actors.run_alone (L := cfg.lts) (C := Repairs runner i staleAfterMs count) rfl
      (c := fun x a => x.2.Unattended runner staleAfterMs count a)
      (fun sh x a hx => ⟨by rw [Actors.locals_alone]; exact hx, .inl rfl⟩) h
  simpa only [Actors.alone_rest] using hrun

private theorem alone_step {g g' : Grid} {l l' : ActorState} (a : Action)
    (ha : l.Unattended runner staleAfterMs count a)
    (h : cfg.localStep i g l a = some (g', l')) :
    Alone cfg runner i staleAfterMs count (g, l) (g', l') := .single ⟨a, ha, h⟩

private theorem alone_recovery {x y : Grid × RecoveryState}
    (h : Recovery.Steps (cfg.worker i).workerId x y) :
    Alone cfg runner i staleAfterMs count (x.1, .recovery x.2) (y.1, .recovery y.2) := by
  refine h.lift (fun x => (x.1, ActorState.recovery x.2)) fun x y hxy => ?_
  refine ⟨.advance "", trivial, ?_⟩
  change (Recovery.advance _ x.1 x.2).map _ = _
  rw [hxy]
  rfl

/-- One recovery alone: what was pending and is found is gone afterwards. -/
private theorem exists_sweep {g : Grid} (hlocks : g.rowLocks = []) (hcount : 0 < count)
    (hpending : g.queue.jobs.pending ≠ []) :
    ∃ g', Alone cfg runner i staleAfterMs count (g, .idle) (g', .idle) ∧ g'.rowLocks = [] ∧
      g'.queue.jobs.pending.length < g.queue.jobs.pending.length := by
  let leases := g.queue.findStaleLeases (fun _ => staleAfterMs) staleAfterMs count
  obtain ⟨g', kinds, hbatch, hsteps⟩ := Recovery.exists_batchRecovered (cfg.worker i).workerId
    leases g hlocks (.start leases.length)
  have hrecovery : Alone cfg runner i staleAfterMs count
      (g, .recovery (.planning leases (.start leases.length)))
      (g', .recovery (.returned (kinds.foldl StaleLeaseRecoveryResult.count
        (.start leases.length)))) := alone_recovery hsteps
  have hbegin : Alone cfg runner i staleAfterMs count (g, .idle)
      (g, .recovery (.planning leases (.start leases.length))) :=
    alone_step (.recoverStaleLeases (fun _ => staleAfterMs) staleAfterMs count) ⟨rfl, rfl⟩ rfl
  refine ⟨g', (hbegin.trans hrecovery).trans (alone_step .finish trivial rfl), ?_, ?_⟩
  · have hrows : ∀ {g g' leases kinds}, Recovery.BatchRecovered (cfg.worker i).workerId g leases g'
        kinds → g'.rowLocks = g.rowLocks := by
      intro g g' leases kinds h
      induction h with
      | nil => rfl
      | cons hfirst _ ih => exact ih.trans hfirst.rowLocks_eq
    exact (hrows hbatch).trans hlocks
  · obtain ⟨p, hp, hfound⟩ := RedisStreamsQueue.exists_found staleAfterMs hpending hcount
    obtain ⟨lease, hlease, hid⟩ := List.mem_filterMap.mp hfound
    rw [hbatch.pending_eq]
    refine List.length_filter_lt_length_iff_exists.mpr ⟨p, hp, ?_⟩
    simp only [decide_eq_true_eq, not_forall, not_not]
    exact ⟨lease, hlease, hid⟩

private theorem exists_swept {g : Grid} (hlocks : g.rowLocks = []) (hcount : 0 < count) :
    ∃ g', Alone cfg runner i staleAfterMs count (g, .idle) (g', .idle) ∧ g'.rowLocks = [] ∧
      g'.queue.jobs.pending = [] := by
  refine Lts.exists_goal
    (R := fun g g' => Alone cfg runner i staleAfterMs count (g, .idle) (g', .idle))
    (fun _ => .refl) (fun _ _ _ h h' => h.trans h') (fun g => g.queue.jobs.pending.length)
    (P := fun g => g.rowLocks = []) (Q := fun g => g.queue.jobs.pending = []) ?_ hlocks
  intro g hlocks
  by_cases hpending : g.queue.jobs.pending = []
  · exact .inl hpending
  · exact .inr (exists_sweep hlocks hcount hpending)

end Deployment

section Work
variable {w : Worker} {g : Grid} {m : QueueJobMessage} {job : JobRecord}

private theorem commit_finalizeJob {l : Type*} {row : JobRecord} (status : JobStatus)
    (eventType : EventType) (eventData : EventData) (raised next : l)
    (hs : status.terminal = true) (hrow : g.db.loadJob job.id = some row) :
    ∃ db, g.commit ((g.db.finalizeJob job status eventType eventData).map Prod.snd) raised next =
      ({ g with db := db }, next) := by
  obtain ⟨r, db, hdb⟩ := Database.finalizeJob_isSome eventType eventData hs hrow
  exact ⟨db, by rw [hdb]; rfl⟩

/-- An error that the worker handles ends the job or schedules its next attempt. -/
private theorem handle_cases (error : HandledError) {row : JobRecord}
    (hrow : g.db.loadJob job.id = some row) : ∃ db,
    w.handle g m job error = ({ g with db := db }, .acknowledging m) ∨
      (m.attemptNumber ≤ job.maxRetries ∧ w.handle g m job error =
        ({ g with db := db }, .retryPublish m job (m.attemptNumber + 1))) := by
  have ends : ∀ {status : JobStatus} (eventType : EventType) (eventData : EventData),
      status.terminal = true →
      w.handle g m job error = g.commit
        ((g.db.finalizeJob job status eventType eventData).map Prod.snd)
        (WorkerState.raised "IntegrityError") (.acknowledging m) →
      ∃ db, w.handle g m job error = ({ g with db := db }, .acknowledging m) ∨
        (m.attemptNumber ≤ job.maxRetries ∧ w.handle g m job error =
          ({ g with db := db }, .retryPublish m job (m.attemptNumber + 1))) := by
    intro status eventType eventData hs heq
    obtain ⟨db, hdb⟩ := commit_finalizeJob status eventType eventData
      (WorkerState.raised "IntegrityError") (.acknowledging m) hs hrow
    exact ⟨db, .inl (heq.trans hdb)⟩
  cases error with
  | policy c => exact ends .failed _ rfl rfl
  | timedOut => exact ends .timedOut _ rfl rfl
  | cancelled => exact ends .cancelled _ rfl rfl
  | transient c =>
    by_cases hretries : m.attemptNumber ≤ job.maxRetries
    · cases hbudget : w.budgetPolicy.validateRetry (m.attemptNumber + 1) with
      | error exc =>
        refine @ends .failed .budgetBlocked (.budgetBlocked w.workerId m.attemptNumber exc.reason
          exc.attemptedCostUsd exc.budgetLimitUsd "BudgetPolicyError" false) rfl ?_
        simp only [Worker.handle, Worker.handleTransientError, if_pos hretries, hbudget]
        rfl
      | ok =>
        obtain ⟨db, hdb⟩ := Database.recordStateEvent_isSome .queued .retryScheduled
          (.retryScheduled w.workerId m.attemptNumber (m.attemptNumber + 1) c true) hrow
        refine ⟨db, .inr ⟨hretries, ?_⟩⟩
        simp only [Worker.handle, Worker.handleTransientError, if_pos hretries, hbudget,
          Database.recordRetryScheduled, hdb]
        rfl
    · refine @ends .failed .failed (.failed w.workerId m.attemptNumber c true) rfl ?_
      simp only [Worker.handle, Worker.handleTransientError, if_neg hretries]
      rfl

theorem Grid.queue_acknowledge {e : EntryId} (he : m.entryId = some e) :
    (g.acknowledge m).queue = g.queue.acknowledge e := by
  rw [Grid.acknowledge, he]

end Work

namespace Deployment
variable {cfg : Deployment} {runner : Runner} {i staleAfterMs count : ℕ}
  {g : Grid} {m : QueueJobMessage} {job : JobRecord} {e : EntryId}

/-- Where a call that has handled the message of an entry leaves the stream: the entry is
acknowledged, and the next attempt of the job may follow it. -/
structure HandledEntry (q : RedisStreamsQueue) (g' : Grid) (m : QueueJobMessage) (job : JobRecord)
    (e : EntryId) : Prop where
  locks : g'.rowLocks = []
  jobs : g'.queue.jobs = q.jobs.ack e ∨ (m.attemptNumber ≤ job.maxRetries ∧
    g'.queue.jobs = (q.jobs.append ⟨job.message (m.attemptNumber + 1), some e⟩).ack e)

/-- The message is of this entry, the only one that is leased. -/
structure OnlyLease (q : RedisStreamsQueue) (m : QueueJobMessage) (e : EntryId) : Prop where
  entry : ∃ entry, q.jobs.log[e]? = some entry ∧ m = { entry.message with entryId := some e }
  pending : ∃ p : PendingEntry, q.jobs.pending = [p] ∧ p.entryId = e

theorem OnlyLease.entryId {q : RedisStreamsQueue} (h : OnlyLease q m e) : m.entryId = some e := by
  obtain ⟨entry, -, rfl⟩ := h.entry
  rfl

theorem OnlyLease.findStaleLeases {q : RedisStreamsQueue} (h : OnlyLease q m e)
    (hcount : 0 < count) : ∃ lease : StaleLease,
      q.findStaleLeases (fun _ => staleAfterMs) staleAfterMs count = [lease] ∧
      lease.message = m := by
  obtain ⟨entry, hentry, rfl⟩ := h.entry
  obtain ⟨p, hpending, rfl⟩ := h.pending
  obtain ⟨n, rfl⟩ := Nat.exists_eq_succ_of_ne_zero hcount.ne'
  refine ⟨⟨_, p.consumer, staleAfterMs, p.timesDelivered⟩, ?_, rfl⟩
  simp [RedisStreamsQueue.findStaleLeases, hpending, RedisStreamsQueue.staleLease, hentry,
    queueMessageFromStreamEntry_toStreamFields]

/-- The message of a job that runs, with nothing locked. -/
structure Executing (g : Grid) (m : QueueJobMessage) (job : JobRecord) (e : EntryId) : Prop where
  lease : OnlyLease g.queue m e
  jobId : job.id = m.jobId
  row : g.db.loadJob job.id = some (job.withStatus .running)
  locks : g.rowLocks = []

theorem Executing.unlocked (h : Executing g m job e) : g.rowLocked job.id = false := by
  simp [Grid.rowLocked, h.locks]

theorem Executing.writeFiles (h : Executing g m job e) (writes : List (FileRef × PyBytes)) :
    Executing (g.writeFiles writes) m job e := ⟨h.lease, h.jobId, h.row, h.locks⟩

/-- What a recovery leaves of the stream when it has found one lease. -/
private theorem handled_of_recovered {recoveryWorkerId : String} {lease : StaleLease} {g' : Grid}
    {kind : RecoveryKind} (hx : Executing g m job e) (hlease : lease.message = m)
    (h : Recovery.LeaseRecovered recoveryWorkerId g lease g' kind) :
    HandledEntry g.queue g' m job e := by
  subst hlease
  have he := hx.lease.entryId
  have hrow := hx.jobId ▸ hx.row
  refine ⟨h.rowLocks_eq.trans hx.locks, ?_⟩
  cases h with
  | missing hjob => cases hjob.symm.trans hrow
  | terminal hjob hterminal =>
    rw [Grid.queue_acknowledge he]
    exact .inl rfl
  | @requeue row db hjob hopen hretries hdb =>
    obtain rfl := Option.some.inj (hjob.symm.trans hrow)
    rw [Grid.queue_acknowledge he]
    refine .inr ⟨hretries, ?_⟩
    rw [Grid.afterRequeue, he]
    rfl
  | dlq hjob hopen hretries hdb =>
    rw [Grid.queue_acknowledge he]
    exact .inl rfl

/-- From `x` actor `i` gets to rest alone, with the entry of the message handled. -/
def Settles (cfg : Deployment) (runner : Runner) (i staleAfterMs count : ℕ)
    (q : RedisStreamsQueue) (m : QueueJobMessage) (job : JobRecord) (e : EntryId)
    (x : Grid × ActorState) : Prop :=
  ∃ g', Alone cfg runner i staleAfterMs count x (g', .idle) ∧ HandledEntry q g' m job e

section Settles
variable {q : RedisStreamsQueue}

theorem Settles.after {x y : Grid × ActorState}
    (h : Settles cfg runner i staleAfterMs count q m job e y)
    (hxy : Alone cfg runner i staleAfterMs count x y) :
    Settles cfg runner i staleAfterMs count q m job e x := by
  obtain ⟨g', hrest, hhandled⟩ := h
  exact ⟨g', hxy.trans hrest, hhandled⟩

/-- One step of the worker's call first. -/
private theorem settles_of_advance {st st' : WorkerState} {g₁ : Grid}
    (hstep : (cfg.worker i).advance g cfg.env "" st = some (g₁, st'))
    (h : Settles cfg runner i staleAfterMs count q m job e (g₁, .worker st')) :
    Settles cfg runner i staleAfterMs count q m job e (g, .worker st) := by
  refine h.after (alone_step (.advance "") trivial ?_)
  change ((cfg.worker i).advance g cfg.env "" st).map _ = _
  rw [hstep]
  rfl

/-- A call that has raised leaves its entry to the next recovery. -/
private theorem raised_settles (hcount : 0 < count) (hx : Executing g m job e) (c : String) :
    Settles cfg runner i staleAfterMs count g.queue m job e (g, .worker (.raised c)) := by
  obtain ⟨lease, hfound, hlease⟩ :=
    @OnlyLease.findStaleLeases staleAfterMs count m e g.queue hx.lease hcount
  obtain ⟨g', kind, hrecovered⟩ := Recovery.exists_leaseRecovered (cfg.worker i).workerId g lease
  have hsteps := Recovery.steps_of_lease hrecovered hx.locks [] (.start 1)
  have hbegin : Alone cfg runner i staleAfterMs count (g, .idle)
      (g, .recovery (.planning [lease] (.start 1))) := by
    refine alone_step (.recoverStaleLeases (fun _ => staleAfterMs) staleAfterMs count)
      ⟨rfl, rfl⟩ ?_
    simp only [localStep, Recovery.find, hfound, List.length_singleton]
  have hend : Alone cfg runner i staleAfterMs count
      (g', .recovery (.planning [] (StaleLeaseRecoveryResult.count (.start 1) kind)))
      (g', .idle) :=
    (alone_step (.advance "") trivial rfl).trans (alone_step .finish trivial rfl)
  refine ⟨g', (alone_step .finish trivial rfl).trans (hbegin.trans ?_),
    handled_of_recovered hx hlease hrecovered⟩
  exact (alone_recovery hsteps).trans hend

private theorem acknowledging_settles (hlocks : g.rowLocks = []) (he : m.entryId = some e)
    (hjobs : (g.queue.acknowledge e).jobs = q.jobs.ack e ∨ (m.attemptNumber ≤ job.maxRetries ∧
      (g.queue.acknowledge e).jobs =
        (q.jobs.append ⟨job.message (m.attemptNumber + 1), some e⟩).ack e)) :
    Settles cfg runner i staleAfterMs count q m job e (g, .worker (.acknowledging m)) := by
  refine ⟨g.acknowledge m,
    (alone_step (.advance "") trivial rfl).trans (alone_step .finish trivial rfl), ?_, ?_⟩
  · rw [Grid.rowLocks_acknowledge]
    exact hlocks
  · rw [Grid.queue_acknowledge he]
    exact hjobs

private theorem handling_settles (hx : Executing g m job e) (error : HandledError) :
    Settles cfg runner i staleAfterMs count g.queue m job e
      (g, .worker (.handling m job error)) := by
  have hstep : (cfg.worker i).advance g cfg.env "" (.handling m job error) =
      some ((cfg.worker i).handle g m job error) := by
    simp only [Worker.advance, hx.unlocked, Bool.false_eq_true, if_false]
  have he := hx.lease.entryId
  obtain ⟨db, hdb | ⟨hretries, hdb⟩⟩ := handle_cases (w := cfg.worker i) (m := m) error hx.row
  · rw [hdb] at hstep
    exact settles_of_advance hstep (acknowledging_settles hx.locks he (.inl rfl))
  · rw [hdb] at hstep
    refine settles_of_advance hstep (settles_of_advance rfl ?_)
    refine acknowledging_settles hx.locks he (.inr ⟨hretries, ?_⟩)
    rw [he]
    rfl

/-- A result that a `jsonb` column does not accept leaves the entry to a recovery. -/
private theorem completing_settles (hcount : 0 < count) (hx : Executing g m job e)
    (result : JobResult) :
    Settles cfg runner i staleAfterMs count g.queue m job e
      (g, .worker (.completing m job result)) := by
  have hstep : (cfg.worker i).advance g cfg.env "" (.completing m job result) =
      some ((cfg.worker i).complete g m job result) := by
    simp only [Worker.advance, hx.unlocked, Bool.false_eq_true, if_false]
  by_cases hstorable : jsonbStorable (.obj result.fields)
  · obtain ⟨db, hdb⟩ := commit_finalizeJob .completed .completed
      (.completed (cfg.worker i).workerId m.attemptNumber result)
      (WorkerState.raised "IntegrityError") (.acknowledging m) rfl hx.row
    rw [Worker.complete, if_pos hstorable] at hstep
    exact settles_of_advance (hstep.trans (congrArg some hdb))
      (acknowledging_settles hx.locks hx.lease.entryId (.inl rfl))
  · rw [Worker.complete, if_neg hstorable] at hstep
    exact settles_of_advance hstep (raised_settles hcount hx "DataError")

private theorem crossLinking_settles (hcount : 0 < count) (hx : Executing g m job e)
    (result : Dict) (metadata : ArtifactMetadata) (evalResultPath : PyStr) :
    Settles cfg runner i staleAfterMs count g.queue m job e
      (g, .worker (.crossLinking m job result metadata evalResultPath)) := by
  have hstep : (cfg.worker i).advance g cfg.env ""
      (.crossLinking m job result metadata evalResultPath) =
      some (Worker.crossLink g cfg.env m job result metadata evalResultPath) := rfl
  cases hlink : upsertEvalResultCrossLink cfg.env g.files evalResultPath metadata
      (((artifactPayload result).toOption.bind id).getD []) with
  | error c =>
    simp only [Worker.crossLink, hlink] at hstep
    exact settles_of_advance hstep (raised_settles hcount hx c)
  | ok bytes =>
    simp only [Worker.crossLink, hlink] at hstep
    exact settles_of_advance hstep (completing_settles hcount (hx.writeFiles _) _)

private theorem writingArtifact_settles (hcount : 0 < count) (hx : Executing g m job e)
    (result : Dict) :
    Settles cfg runner i staleAfterMs count g.queue m job e
      (g, .worker (.writingArtifact m job result)) := by
  have hstep : (cfg.worker i).advance g cfg.env "" (.writingArtifact m job result) =
      some ((cfg.worker i).writeArtifact g cfg.env "" m job result) := rfl
  cases hencode : encodeStubJobArtifact cfg.env job (cfg.worker i).workerId m.attemptNumber ""
      result with
  | error c =>
    simp only [Worker.writeArtifact, hencode] at hstep
    exact settles_of_advance hstep (raised_settles hcount hx c)
  | ok r =>
    obtain ⟨metadata, bytes⟩ := r
    have hx' := hx.writeFiles [(metadata.path, bytes)]
    simp only [Worker.writeArtifact, hencode] at hstep
    cases hpath : metadata.evalResultPath with
    | none =>
      simp only [hpath] at hstep
      exact settles_of_advance hstep (completing_settles hcount hx' _)
    | some p =>
      simp only [hpath] at hstep
      exact settles_of_advance hstep (crossLinking_settles hcount hx' result metadata p)

/-- A job that runs is brought to the end of its attempt, or abandoned and recovered. -/
private theorem executing_settles (hcount : 0 < count) (hx : Executing g m job e) :
    Settles cfg runner i staleAfterMs count g.queue m job e (g, .worker (.executing m job)) := by
  have hrun : Alone cfg runner i staleAfterMs count (g, .worker (.executing m job))
      (g.writeFiles (runner job m.attemptNumber).1,
        .worker ((cfg.worker i).afterRun m job (runner job m.attemptNumber).2)) := by
    refine alone_step (.run (runner job m.attemptNumber).1 (runner job m.attemptNumber).2) ?_ rfl
    rintro m' job' heq
    cases heq
    rfl
  have hx' := hx.writeFiles (runner job m.attemptNumber).1
  refine Settles.after ?_ hrun
  cases (runner job m.attemptNumber).2 with
  | success result =>
    rw [Worker.afterRun]
    split
    · exact writingArtifact_settles hcount hx' result
    · exact completing_settles hcount hx' ⟨result, none⟩
  | transientError c => exact handling_settles hx' (.transient c)
  | policyError c => exact handling_settles hx' (.policy c)
  | timedOut => exact handling_settles hx' .timedOut
  | cancelled => exact handling_settles hx' .cancelled
  | raised c => exact raised_settles hcount hx' c

private theorem leased_settles (hcount : 0 < count) (hlease : OnlyLease g.queue m e)
    (hrow : g.db.loadJob m.jobId = some job) (hlocks : g.rowLocks = []) :
    Settles cfg runner i staleAfterMs count g.queue m job e (g, .worker (.leased m)) := by
  have hid : job.id = m.jobId := Database.id_of_loadJob hrow
  have hunlocked : g.rowLocked m.jobId = false := by simp [Grid.rowLocked, hlocks]
  -- an exit from the dispatch transaction acknowledges, commits and returns
  have exits : ∀ {exit : DispatchExit} {db : Database},
      (cfg.worker i).dispatch g m = some (g.lockRow m.jobId, .dispatchAck m exit) →
      (cfg.worker i).dispatchEnd ((g.lockRow m.jobId).acknowledge m) m exit =
        ({ ((g.lockRow m.jobId).acknowledge m).unlockRow m.jobId with db := db },
          .returned true) →
      Settles cfg runner i staleAfterMs count g.queue m job e (g, .worker (.leased m)) := by
    intro exit db hdispatch hend
    refine settles_of_advance hdispatch (settles_of_advance rfl
      (settles_of_advance (congrArg some hend) ⟨_, alone_step .finish trivial rfl, ?_, .inl ?_⟩))
    · change ((g.lockRow m.jobId).acknowledge m).rowLocks.erase m.jobId = []
      rw [Grid.rowLocks_acknowledge]
      change (m.jobId :: g.rowLocks).erase m.jobId = []
      rw [List.erase_cons_head, hlocks]
    · change ((g.lockRow m.jobId).acknowledge m).queue.jobs = _
      rw [Grid.queue_acknowledge hlease.entryId]
      rfl
  cases hterminal : job.status.terminal with
  | true =>
    refine @exits .terminal ((g.lockRow m.jobId).acknowledge m).db ?_ rfl
    simp only [Worker.dispatch, hunlocked, Bool.false_eq_true, if_false, hrow, hterminal, if_true]
  | false =>
    cases hbudget : (cfg.worker i).budgetPolicy.validateJobDispatch job with
    | error exc =>
      have hrow' : ((g.lockRow m.jobId).acknowledge m).db.loadJob job.id = some job := by
        rw [Grid.db_acknowledge, hid]
        exact hrow
      obtain ⟨r, db, hdb⟩ : ∃ r db, ((g.lockRow m.jobId).acknowledge m).db.recordBudgetBlocked job
          (cfg.worker i).workerId m.attemptNumber exc = some (r, db) :=
        Database.finalizeJob_isSome _ _ rfl hrow'
      refine @exits (.budgetBlocked job exc) db ?_ ?_
      · simp only [Worker.dispatch, hunlocked, Bool.false_eq_true, if_false, hrow, hterminal,
          hbudget]
      · simp only [Worker.dispatchEnd, hdb]
        rfl
    | ok =>
      obtain ⟨db, hdb⟩ := Database.recordStateEvent_isSome .running .running
        (.running (cfg.worker i).workerId m.attemptNumber) (hid ▸ hrow)
      have hdispatch : (cfg.worker i).dispatch g m =
          some ({ g with db := db }, .executing m job) := by
        simp only [Worker.dispatch, hunlocked, Bool.false_eq_true, if_false, hrow, hterminal,
          hbudget, Database.recordRunning, hdb]
        rfl
      have hhistory := Database.history_recordStateEvent (hid ▸ hrow) hdb job.id
      rw [if_pos rfl] at hhistory
      have hx : Executing { g with db := db } m job e :=
        ⟨hlease, hid, congrArg JobHistory.row hhistory, hlocks⟩
      exact settles_of_advance hdispatch (executing_settles hcount hx)

end Settles

/-- The next entry of the stream is leased and handled. -/
private theorem exists_processed (hcount : 0 < count) (hlog : g.LogSound)
    (hlocks : g.rowLocks = []) (hpending : g.queue.jobs.pending = [])
    (hlt : g.queue.jobs.delivered < g.queue.jobs.log.length) :
    ∃ (g' : Grid) (entry : StreamEntry) (job : JobRecord),
      g.queue.jobs.log[g.queue.jobs.delivered]? = some entry ∧
      g.db.loadJob entry.message.jobId = some job ∧
      Alone cfg runner i staleAfterMs count (g, .idle) (g', .idle) ∧ g'.rowLocks = [] ∧
      g'.queue.jobs.pending = [] ∧
      g'.queue.jobs.delivered = g.queue.jobs.delivered + 1 ∧
      (g'.queue.jobs.log = g.queue.jobs.log ∨
        (entry.message.attemptNumber ≤ job.maxRetries ∧
          g'.queue.jobs.log = g.queue.jobs.log ++
            [⟨job.message (entry.message.attemptNumber + 1), some g.queue.jobs.delivered⟩])) := by
  cases hq : g.queue.leaseJobs (cfg.worker i).workerId with
  | none => exact absurd (RedisStreamsQueue.leaseJobs_eq_none_iff.mp hq) (not_le.mpr hlt)
  | some r =>
    obtain ⟨m, q⟩ := r
    obtain ⟨entry, jobs, hdeliver, rfl, rfl⟩ := RedisStreamsQueue.leaseJobs_spec hq
    obtain ⟨-, hentry, hlogs, hdelivered, -⟩ := ConsumerGroup.deliver_spec hdeliver
    obtain ⟨job, hjob⟩ := hlog _ entry hentry
    let e : EntryId := g.queue.jobs.delivered
    let g₁ : Grid := { g with queue := { g.queue with jobs := jobs } }
    have hbegin : Alone cfg runner i staleAfterMs count (g, .idle)
        (g₁, .worker (.leased { entry.message with entryId := some e })) := by
      refine alone_step .processOne trivial ?_
      change some (((cfg.worker i).leaseOne g).1, ActorState.worker ((cfg.worker i).leaseOne g).2) =
        _
      simp only [Worker.leaseOne, hq]
      rfl
    have honly : jobs.pending = [⟨e, (cfg.worker i).workerId, 1⟩] := by
      rw [ConsumerGroup.pendingList_deliver hdeliver, hpending]
      rfl
    have hlease : OnlyLease g₁.queue { entry.message with entryId := some e } e :=
      ⟨⟨entry, hlogs ▸ hentry, rfl⟩, ⟨_, honly, rfl⟩⟩
    obtain ⟨g', hrest, hhandled⟩ :=
      @leased_settles cfg runner i staleAfterMs count g₁ _ job e hcount hlease hjob hlocks
    refine ⟨g', entry, job, hentry, hjob, hbegin.trans hrest, hhandled.locks, ?_⟩
    have hnone : (jobs.ack e).pending = [] := by
      simp [ConsumerGroup.ack, honly]
    rcases hhandled.jobs with hjobs | ⟨hretries, hjobs⟩
    · rw [hjobs]
      exact ⟨hnone, hdelivered, .inl hlogs⟩
    · rw [hjobs]
      refine ⟨hnone, hdelivered, .inr ⟨hretries, ?_⟩⟩
      change jobs.log ++ _ = _
      rw [hlogs]

end Deployment

namespace Grid
variable {g g' : Grid}

/-- The attempts that the undelivered entries can still cause, and the entries themselves. -/
def workLeft (retries : JobId → ℤ) (g : Grid) : ℕ :=
  ((g.queue.jobs.log.drop g.queue.jobs.delivered).map fun entry =>
    (retries entry.message.jobId + 2 - entry.message.attemptNumber).toNat + 1).sum

/-- Every message in the stream is of a job with a row and that many retries. -/
def Allows (retries : JobId → ℤ) (g : Grid) : Prop :=
  ∀ (e : EntryId) (entry : StreamEntry), g.queue.jobs.log[e]? = some entry →
    ∃ row, g.db.loadJob entry.message.jobId = some row ∧
      row.maxRetries = retries entry.message.jobId

theorem Allows.logSound {retries : JobId → ℤ} (h : g.Allows retries) : g.LogSound := by
  intro e entry hentry
  obtain ⟨row, hrow, -⟩ := h e entry hentry
  exact ⟨row, hrow⟩

theorem Allows.maxRetries_eq {retries : JobId → ℤ} (h : g.Allows retries) {e : EntryId}
    {entry : StreamEntry} {job : JobRecord} (hentry : g.queue.jobs.log[e]? = some entry)
    (hjob : g.db.loadJob entry.message.jobId = some job) :
    job.maxRetries = retries entry.message.jobId := by
  obtain ⟨row, hrow, hrow'⟩ := h e entry hentry
  obtain rfl := Option.some.inj (hjob.symm.trans hrow)
  exact hrow'

theorem Allows.next {retries : JobId → ℤ} (h : g.Allows retries) (hgrows : g.Grows g')
    {entry : StreamEntry} {job : JobRecord} {cause : Option EntryId}
    (hjob : g.db.loadJob entry.message.jobId = some job)
    (hretries : job.maxRetries = retries entry.message.jobId)
    (hlog : g'.queue.jobs.log = g.queue.jobs.log ∨
      (entry.message.attemptNumber ≤ job.maxRetries ∧ g'.queue.jobs.log = g.queue.jobs.log ++
        [⟨job.message (entry.message.attemptNumber + 1), cause⟩])) : g'.Allows retries := by
  intro e entry' hentry'
  have hold : ∃ row, g.db.loadJob entry'.message.jobId = some row ∧
      row.maxRetries = retries entry'.message.jobId := by
    rcases hlog with hlog | ⟨-, hlog⟩
    · exact h e entry' (hlog ▸ hentry')
    rw [hlog] at hentry'
    rcases getElem?_append_singleton hentry' with hentry' | ⟨-, rfl⟩
    · exact h e entry' hentry'
    · have hid : job.id = entry.message.jobId := Database.id_of_loadJob hjob
      refine ⟨job, ?_, ?_⟩
      · change g.db.loadJob job.id = some job
        rw [hid]
        exact hjob
      · change job.maxRetries = retries job.id
        rw [hid, hretries]
  obtain ⟨row, hrow, hmax⟩ := hold
  obtain ⟨row', hrow', hsame⟩ := hgrows.loadJob hrow
  exact ⟨row', hrow', hsame.maxRetries_eq.trans hmax⟩

/-- To handle an entry takes more off the work than a further attempt adds to it. -/
theorem workLeft_lt {retries : JobId → ℤ} {entry : StreamEntry} {job : JobRecord}
    {cause : Option EntryId}
    (hentry : g.queue.jobs.log[g.queue.jobs.delivered]? = some entry)
    (hid : job.id = entry.message.jobId) (hjob : job.maxRetries = retries entry.message.jobId)
    (hdelivered : g'.queue.jobs.delivered = g.queue.jobs.delivered + 1)
    (hlog : g'.queue.jobs.log = g.queue.jobs.log ∨
      (entry.message.attemptNumber ≤ job.maxRetries ∧ g'.queue.jobs.log = g.queue.jobs.log ++
        [⟨job.message (entry.message.attemptNumber + 1), cause⟩])) :
    g'.workLeft retries < g.workLeft retries := by
  obtain ⟨hlt, heq⟩ := List.getElem?_eq_some_iff.mp hentry
  unfold workLeft
  rw [List.drop_eq_getElem_cons hlt, heq, hdelivered, List.map_cons, List.sum_cons]
  rcases hlog with hlog | ⟨hretries, hlog⟩
  · rw [hlog]
    omega
  · have hle : g.queue.jobs.delivered + 1 ≤ g.queue.jobs.log.length := hlt
    rw [hlog, List.drop_append_of_le_length hle, List.map_append, List.sum_append,
      List.map_singleton, List.sum_singleton]
    change _ + ((retries job.id + 2 - (entry.message.attemptNumber + 1)).toNat + 1) < _
    rw [hid, ← hjob]
    omega

end Grid

namespace Deployment
variable {cfg : Deployment} {s : State} {runner : Runner}
  {i staleAfterMs count : ℕ} {g g' : Grid} {retries : JobId → ℤ}

/-- Worker `i` works off the stream. -/
private theorem exists_drained (hcount : 0 < count) (hallows : g.Allows retries)
    (hlocks : g.rowLocks = []) (hpending : g.queue.jobs.pending = []) : ∃ g',
      Alone cfg runner i staleAfterMs count (g, .idle) (g', .idle) ∧ g'.rowLocks = [] ∧
      ∀ e, ¬ g'.queue.jobs.Live e := by
  have hgoal : ∃ g', Alone cfg runner i staleAfterMs count (g, .idle) (g', .idle) ∧
      (g'.Allows retries ∧ g'.rowLocks = [] ∧ g'.queue.jobs.pending = []) ∧
      g'.queue.jobs.log.length ≤ g'.queue.jobs.delivered := by
    refine Lts.exists_goal
      (R := fun g g' => Alone cfg runner i staleAfterMs count (g, .idle) (g', .idle))
      (fun _ => .refl) (fun _ _ _ h h' => h.trans h') (Grid.workLeft retries)
      (P := fun g => g.Allows retries ∧ g.rowLocks = [] ∧ g.queue.jobs.pending = []) ?_
      ⟨hallows, hlocks, hpending⟩
    rintro g ⟨hallows, hlocks, hpending⟩
    by_cases hlt : g.queue.jobs.delivered < g.queue.jobs.log.length
    · obtain ⟨g₁, entry, job, hentry, hjob, hfirst, hlocks₁, hpending₁, hdelivered, hlog⟩ :=
        @exists_processed cfg runner i staleAfterMs count g hcount hallows.logSound hlocks hpending
          hlt
      have hid : job.id = entry.message.jobId := Database.id_of_loadJob hjob
      have hretries := hallows.maxRetries_eq hentry hjob
      have hallows₁ := hallows.next (grows_of_run (Alone.run hfirst)) hjob hretries hlog
      exact .inr ⟨g₁, hfirst, ⟨hallows₁, hlocks₁, hpending₁⟩,
        Grid.workLeft_lt hentry hid hretries hdelivered hlog⟩
    · exact .inl (not_lt.mp hlt)
  obtain ⟨g', hdrain, ⟨-, hlocks', hpending'⟩, hdelivered⟩ := hgoal
  refine ⟨g', hdrain, hlocks', fun e hlive => ?_⟩
  rcases hlive.2 with h | ⟨p, hp, -⟩
  · exact absurd hlive.1 (not_lt.mpr (hdelivered.trans h))
  · rw [hpending'] at hp
    cases hp

/-- From every state of a deployment in which no process has died between the acknowledgement
inside a dispatch transaction and its commit, there is a way to rest without its clients: the stuck
actors die, and one worker `i` recovers the stale leases, `count` at a time, and works off the
stream, whatever the jobs write and however they end: an attempt that raises leaves its entry to
the next recovery. Then nobody is at work, no row is locked, no entry is live, and every job that
was ever published is finalized. -/
theorem quiescence_reachable (hs : cfg.lts.Reachable NoBlockedCrash s) (staleAfterMs : ℕ)
    (hcount : 0 < count) :
    ∃ g, cfg.lts.Run (Repairs runner i staleAfterMs count) s ⟨g, fun _ => .idle⟩ ∧
      g.rowLocks = [] ∧ (∀ e, ¬ g.queue.jobs.Live e) ∧
      ∀ (e : EntryId) (entry : StreamEntry), g.queue.jobs.log[e]? = some entry →
        g.db.Finalized entry.message.jobId := by
  have hreach : ∀ {t : State}, cfg.lts.Run (Repairs runner i staleAfterMs count) s t →
      cfg.lts.Reachable NoBlockedCrash t :=
    fun ht => hs.trans (Lts.Run.mono (fun _ _ h => h.noBlockedCrash) ht)
  obtain ⟨n, hn⟩ := eventually_idle hs.weaken
  obtain ⟨g₁, hrestart⟩ := @exists_restart cfg s runner i staleAfterMs count n hn
  have hlocks₁ : g₁.rowLocks = [] := by
    have hheld := locksHeld_reachable (hreach hrestart).weaken
    refine List.eq_nil_iff_forall_not_mem.mpr fun j hj => ?_
    obtain ⟨k, hk⟩ := hheld.holder j hj
    cases hk
  obtain ⟨g₂, hsweep, hlocks₂, hpending₂⟩ :=
    @exists_swept cfg runner i staleAfterMs count g₁ hlocks₁ hcount
  have hswept := hrestart.trans (Alone.run hsweep)
  have hallows : g₂.Allows fun j => ((g₂.db.loadJob j).map JobRecord.maxRetries).getD 0 := by
    intro e entry hentry
    obtain ⟨row, hrow⟩ := (sound_reachable (hreach hswept).weaken).1 e entry hentry
    exact ⟨row, hrow, by simp only [hrow, Option.map_some, Option.getD_some]⟩
  obtain ⟨g₃, hdrain, hlocks₃, hlive⟩ :=
    @exists_drained cfg runner i staleAfterMs count g₂ _ hcount hallows hlocks₂ hpending₂
  have hdrained := hswept.trans (Alone.run hdrain)
  exact ⟨g₃, hdrained, hlocks₃, hlive, fun e entry hentry =>
    finalized_of_rest (hreach hdrained) (fun _ => rfl) hlive hentry⟩

/-- Worker 1 has died with its lease in hand, worker 2 sits in a job that never returns, and every
later attempt ends in an exception that nothing handles. -/
theorem quiescence_reachable_abandoned : ∃ s g,
    stubDeployment.lts.Reachable NoBlockedCrash s ∧ ¬ s.shared.db.Finalized 1 ∧
    stubDeployment.lts.Run (Repairs (fun _ _ => ([], .raised "KeyError")) 3 30000 10) s
      ⟨g, fun _ => .idle⟩ ∧ g.db.Finalized 1 := by
  obtain ⟨s, hs, hp⟩ := Lts.exists_run_of_exec (L := stubDeployment.lts) (C := NoBlockedCrash)
    (c := fun s a => decide ((s.locals a.1).blocking = none))
    (fun s a h _ => of_decide_eq_true h) stubDeployment.lts.init
    [(0, .createJob stubSubmission), (0, .publishJob 1 1), (0, .publishJob 1 1), (1, .processOne),
      (2, .processOne), (1, .crash), (2, .advance "")]
    (fun s => decide (¬ s.shared.db.Finalized 1) &&
      decide (s.shared.queue.jobs.log.map (fun entry => entry.message.jobId) = [1, 1]))
    (by decide)
  obtain ⟨hopen, hlog⟩ := Bool.and_eq_true_iff.mp hp
  obtain ⟨g, hrun, -, -, hfinalized⟩ :=
    @quiescence_reachable stubDeployment s (fun _ _ => ([], .raised "KeyError")) 3 10 hs 30000
      (by decide)
  refine ⟨s, g, hs, of_decide_eq_true hopen, hrun, ?_⟩
  have hold : (s.shared.queue.jobs.log.map fun entry => entry.message.jobId)[0]? = some 1 := by
    rw [of_decide_eq_true hlog]
    rfl
  rw [List.getElem?_map] at hold
  obtain ⟨entry, hentry, hjob⟩ := Option.map_eq_some_iff.mp hold
  have hfinal := hfinalized 0 entry ((grows_of_run hrun).log hentry)
  rwa [hjob] at hfinal

end Deployment
end AgentRuntimeGrid
