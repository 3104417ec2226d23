import AgentRuntimeGrid.Runtime.Lifecycle

/-! The drain loop of the proof commands, `while any(gather(process_one ...))`, over a pool of
workers that share one budget policy, and the log it is to leave for each job. -/
namespace AgentRuntimeGrid

/-- How an attempt ends when no one cancels it. -/
inductive JobOutcome where
  | success (result : Dict)
  | transientError (errorClass : String)
  | policyError (errorClass : String)
  | timedOut

namespace JobOutcome

def toRun : JobOutcome → RunOutcome
  | .success result => .success result
  | .transientError c => .transientError c
  | .policyError c => .policyError c
  | .timedOut => .timedOut

def isTransient : JobOutcome → Bool
  | .transientError _ => true
  | _ => false

/-- The error the worker goes on to handle. -/
def error : JobOutcome → Option HandledError
  | .success _ => none
  | .transientError c => some (.transient c)
  | .policyError c => some (.policy c)
  | .timedOut => some .timedOut

end JobOutcome

/-- The workers of one loop and the runner they call: the outcome of an attempt, and the files
written in it, are functions of the job and the attempt number. -/
structure Pool where
  env : Env
  workerId : ℕ → String
  budgetPolicy : BudgetPolicy
  hasArtifactStore : Bool
  outcome : JobId → ℤ → JobOutcome
  writes : JobId → ℤ → List (FileRef × PyBytes)

structure Drain (n : ℕ) where
  grid : Grid
  /-- A worker is idle until its coroutine of the current round has polled the stream. -/
  workers : Fin n → ActorState
  exited : Bool

inductive DrainAction (n : ℕ) where
  /-- The next step of worker `i`'s call to `process_one`, at the given time of day. -/
  | work (i : Fin n) (now : String)
  | renewLease (i : Fin n)
  /-- Every call has returned: start the next round, or leave the loop. -/
  | gather

def DrainAction.isWork {n : ℕ} : DrainAction n → Bool
  | .renewLease _ => false
  | _ => true

def ActorState.processed : ActorState → Option Bool
  | .worker (.returned b) => some b
  | _ => none

theorem ActorState.processed_eq {l : ActorState} {b : Bool} (h : l.processed = some b) :
    l = .worker (.returned b) := by
  unfold processed at h
  split at h
  · rw [Option.some.inj h]
  · cases h

namespace Pool
variable (p : Pool) {n : ℕ}

def deployment : Deployment where
  env := p.env
  worker i := ⟨p.workerId i, p.budgetPolicy, p.hasArtifactStore⟩

def action (now : String) : ActorState → Action
  | .idle => .processOne
  | .worker (.executing m job) =>
      .run (p.writes job.id m.attemptNumber) (p.outcome job.id m.attemptNumber).toRun
  | _ => .advance now

def step (s : Drain n) : DrainAction n → Option (Drain n)
  | .work i now =>
      if s.exited then none
      else (p.deployment.localStep i s.grid (s.workers i) (p.action now (s.workers i))).map fun r =>
        { s with grid := r.1, workers := Function.update s.workers i r.2 }
  | .renewLease i =>
      (p.deployment.localStep i s.grid (s.workers i) .renewLease).map fun r =>
        { s with grid := r.1, workers := Function.update s.workers i r.2 }
  | .gather =>
      if s.exited then none
      else if ∀ i, (s.workers i).processed.isSome then
        if ∃ i, (s.workers i).processed = some true then some { s with workers := fun _ => .idle }
        else some { s with exited := true }
      else none

/-- The loop of `n` workers entered on a grid. -/
def drain (n : ℕ) (g : Grid) : Lts (Drain n) (DrainAction n) where
  init := ⟨g, fun _ => .idle, false⟩
  step := p.step

end Pool

/-- The loop as a state of the deployment whose other actors are idle. -/
def Drain.toState {n : ℕ} (s : Drain n) : Deployment.State where
  shared := s.grid
  locals k := if h : k < n then s.workers ⟨k, h⟩ else .idle

namespace Pool
variable {p : Pool} {n : ℕ} {g : Grid} {s t : Drain n}

private theorem toState_update (g : Grid) (f : Fin n → ActorState) (i : Fin n) (l : ActorState)
    (b b' : Bool) : (⟨g, Function.update f i l, b⟩ : Drain n).toState =
      ⟨g, Function.update (⟨g, f, b'⟩ : Drain n).toState.locals i l⟩ := by
  refine congrArg (Actors.mk g) (funext fun k => ?_)
  by_cases hk : k = i
  · subst hk
    simp
  · rw [Function.update_of_ne hk]
    refine dite_congr rfl (fun hlt => ?_) fun _ => rfl
    have hne : (⟨k, hlt⟩ : Fin n) ≠ i := fun h => hk (congrArg Fin.val h)
    exact Function.update_of_ne hne l f

private theorem run_of_localStep {i : Fin n} {a : Action} {g' : Grid} {l' : ActorState}
    (h : p.deployment.localStep i s.grid (s.workers i) a = some (g', l')) :
    p.deployment.lts.Run Lts.anyStep s.toState
      (⟨g', Function.update s.workers i l', s.exited⟩ : Drain n).toState := by
  refine .single ⟨(i, a), trivial, Actors.globalStep_eq_some.mpr ⟨g', l', ?_, ?_⟩⟩
  · have hlocal : s.toState.locals i = s.workers i := dif_pos i.isLt
    rw [hlocal]
    exact h
  · exact toState_update g' s.workers i l' s.exited s.exited

/-- The calls of a round that is over are finished one after the other. -/
private theorem run_finish (hall : ∀ i, (s.workers i).processed.isSome) :
    p.deployment.lts.Run Lts.anyStep s.toState
      (⟨s.grid, fun _ => .idle, s.exited⟩ : Drain n).toState := by
  have upTo : ∀ m ≤ n, p.deployment.lts.Run Lts.anyStep s.toState
      (⟨s.grid, fun i => if i.val < m then .idle else s.workers i, s.exited⟩ :
        Drain n).toState := by
    intro m hm
    induction m with
    | zero => exact Relation.ReflTransGen.refl
    | succ m ih =>
      refine (ih (Nat.le_of_succ_le hm)).trans ?_
      obtain ⟨b, hb⟩ := Option.isSome_iff_exists.mp (hall ⟨m, hm⟩)
      have hfinish : p.deployment.localStep m s.grid
          (if m < m then .idle else s.workers ⟨m, hm⟩) .finish = some (s.grid, .idle) := by
        rw [if_neg (Nat.lt_irrefl m), ActorState.processed_eq hb]
        rfl
      have hnext : (fun i : Fin n => if i.val < m + 1 then .idle else s.workers i) =
          Function.update (fun i : Fin n => if i.val < m then .idle else s.workers i) ⟨m, hm⟩
            .idle := by
        funext i
        by_cases hi : i = ⟨m, hm⟩
        · subst hi
          rw [Function.update_self, if_pos (Nat.lt_succ_self m)]
        · have hne : i.val ≠ m := fun h => hi (Fin.ext h)
          rw [Function.update_of_ne hi]
          exact ite_congr (propext ⟨fun h => by omega, fun h => by omega⟩) (fun _ => rfl)
            fun _ => rfl
      rw [hnext]
      exact run_of_localStep (i := ⟨m, hm⟩) hfinish
  have hdone := upTo n (le_refl n)
  rwa [funext fun i : Fin n => if_pos i.isLt] at hdone

theorem drain_run (h : (p.drain n g).Run Lts.anyStep s t) :
    p.deployment.lts.Run Lts.anyStep s.toState t.toState := by
  refine Relation.ReflTransGen.lift' Drain.toState ?_ s t h
  rintro s t ⟨a, -, hstep⟩
  change p.step s a = some t at hstep
  cases a with
  | work i now =>
    simp only [step] at hstep
    split at hstep
    · cases hstep
    · obtain ⟨r, hr, rfl⟩ := Option.map_eq_some_iff.mp hstep
      exact run_of_localStep hr
  | renewLease i =>
    obtain ⟨r, hr, rfl⟩ := Option.map_eq_some_iff.mp hstep
    exact run_of_localStep hr
  | gather =>
    simp only [step] at hstep
    split at hstep
    · cases hstep
    · split at hstep
      next hall =>
        split at hstep
        · obtain rfl := Option.some.inj hstep
          exact run_finish hall
        · obtain rfl := Option.some.inj hstep
          exact Relation.ReflTransGen.refl
      next => cases hstep

end Pool

/-- What the loop finds: jobs just submitted, and one undelivered message for the first attempt of
each of them. -/
structure Grid.Batch (g : Grid) (jobs : List JobRecord) : Prop where
  nodup : (jobs.map JobRecord.id).Nodup
  log : g.queue.jobs.log = jobs.map fun job => ⟨job.message 1, none⟩
  delivered : g.queue.jobs.delivered = 0
  locks : g.rowLocks = []
  submitted : ∀ job ∈ jobs, job.status = .submitted
  history : ∀ job ∈ jobs, g.db.history job.id = .ofSubmitted job

/-- A deployment has such a grid when its clients have submitted and published jobs and nothing has
been leased yet. -/
theorem Deployment.batch_of_reachable {cfg : Deployment} {s : State} {jobs : List JobRecord}
    (hs : cfg.lts.Reachable Lts.anyStep s) (hnodup : (jobs.map JobRecord.id).Nodup)
    (hlog : s.shared.queue.jobs.log = jobs.map fun job => ⟨job.message 1, none⟩)
    (hdelivered : s.shared.queue.jobs.delivered = 0) (hlocks : s.shared.rowLocks = [])
    (hrow : ∀ job ∈ jobs, s.shared.db.loadJob job.id = some job)
    (hsubmitted : ∀ job ∈ jobs, job.status = .submitted) : s.shared.Batch jobs := by
  have fresh : ∀ j row, (s.shared.db.history j).row = some row → row.status = .submitted →
      s.shared.db.history j = .ofSubmitted row := by
    intro j
    refine Lts.Reachable.invariant (P := fun s => ∀ row, (s.shared.db.history j).row = some row →
      row.status = .submitted → s.shared.db.history j = .ofSubmitted row) ?_ ?_ hs
    · exact fun _ h => (nomatch h)
    · exact fun s a t hs hv _ hstep =>
        JobHistory.ofSubmitted_step (history_anyStep hstep j) (history_lawful hs j) hv
  exact {
    nodup := hnodup
    log := hlog
    delivered := hdelivered
    locks := hlocks
    submitted := hsubmitted
    history := fun job hjob => fresh job.id job (hrow job hjob) (hsubmitted job hjob) }

/-- The files an artifact write may cross-link to. -/
def Pool.Linked (p : Pool) (ref : FileRef) : Prop :=
  ∃ j n result d path, p.outcome j n = .success result ∧ artifactPayload result = .ok (some d) ∧
    evalResultPathText p.env d = some path ∧ p.env.resolve path = ref

/-- Success means that what follows it succeeds too: the result fits the `jsonb` column, its
artifact payload is a dictionary, and the evaluation result file it names, if any, is readable. -/
structure Pool.Records (p : Pool) (files : FileStore) : Prop where
  storable : ∀ j n result, p.outcome j n = .success result → jsonbStorable (.obj result) = true
  payload : ∀ j n result, p.outcome j n = .success result → ∃ d, artifactPayload result = .ok d
  files : ∀ ref bytes, p.Linked ref → files ref = some bytes → Readable p.env bytes
  writes : ∀ j n ref bytes, p.Linked ref → (ref, bytes) ∈ p.writes j n → Readable p.env bytes

/-- Results without a payload for the artifact are recorded whatever the files. -/
theorem Pool.records_of_plain {p : Pool}
    (h : ∀ j n result, p.outcome j n = .success result →
      jsonbStorable (.obj result) = true ∧ artifactPayload result = .ok none) (files : FileStore) :
    p.Records files := by
  have hlinked : ∀ ref, ¬ p.Linked ref := by
    rintro ref ⟨j, n, result, d, path, hresult, hpayload, -⟩
    rw [(h j n result hresult).2] at hpayload
    cases hpayload
  exact {
    storable := fun j n result hresult => (h j n result hresult).1
    payload := fun j n result hresult => ⟨none, (h j n result hresult).2⟩
    files := fun ref _ hlink => absurd hlink (hlinked ref)
    writes := fun _ _ ref _ hlink => absurd hlink (hlinked ref) }

/-- An event without its worker: its type and attempt number. -/
abbrev LogEntry := EventType × Option ℤ

def JobEvent.logEntry (e : JobEvent) : LogEntry := (e.eventType, e.eventData.attemptNumber)

/-- The event of the attempt after `k` retries. -/
def attemptEntry (eventType : EventType) (k : ℕ) : LogEntry := (eventType, some (k + 1))

/-- `submitted (running retry_scheduled)^k`. -/
def retriesLog : ℕ → List LogEntry
  | 0 => [(.submitted, none)]
  | k + 1 => retriesLog k ++ [attemptEntry .running k, attemptEntry .retryScheduled k]

namespace Pool
variable (p : Pool)

/-- `min(max_retries, retry_budget)`, at least zero. -/
def retryLimit (job : JobRecord) : ℕ := (min job.maxRetries p.budgetPolicy.retryBudget).toNat

/-- The number of leading transient outcomes, capped. -/
def retries (job : JobRecord) : ℕ :=
  ((List.range (p.retryLimit job)).takeWhile fun k : ℕ =>
    (p.outcome job.id (k + 1)).isTransient).length

/-- The terminal event of a job whose last attempt comes after `k` retries. -/
def verdict (job : JobRecord) (k : ℕ) : EventType :=
  match p.outcome job.id (k + 1) with
  | .success _ => .completed
  | .transientError _ => if k + 1 ≤ job.maxRetries then .budgetBlocked else .failed
  | .policyError _ => .failed
  | .timedOut => .timedOut

/-- `submitted (running retry_scheduled)^k running t`. -/
def drainedLog (job : JobRecord) : List LogEntry :=
  retriesLog (p.retries job) ++ [attemptEntry .running (p.retries job),
    attemptEntry (p.verdict job (p.retries job)) (p.retries job)]

/-- The number of retries is where the first outcome is that is not retried. -/
theorem retries_eq {job : JobRecord} {k : ℕ} (hle : k ≤ p.retryLimit job)
    (htransient : ∀ i < k, (p.outcome job.id (i + 1)).isTransient = true)
    (hlast : k = p.retryLimit job ∨ (p.outcome job.id (k + 1)).isTransient = false) :
    p.retries job = k := by
  obtain ⟨r, hr⟩ := Nat.exists_eq_add_of_le hle
  have hprefix : ∀ i ∈ List.range k, (p.outcome job.id (i + 1)).isTransient = true :=
    fun i hi => htransient i (List.mem_range.mp hi)
  unfold retries
  rw [hr, List.range_add, List.takeWhile_append_of_pos hprefix, List.length_append,
    List.length_range]
  rcases hlast with hk | hlast
  · have : r = 0 := by omega
    subst this
    simp
  · cases r with
    | zero => simp
    | succ r => simp [List.range_succ_eq_map, hlast]

end Pool
end AgentRuntimeGrid
