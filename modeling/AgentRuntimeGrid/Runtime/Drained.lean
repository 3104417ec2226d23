import AgentRuntimeGrid.Runtime.DrainInvariant
import Mathlib.Algebra.BigOperators.Fin
import Mathlib.Algebra.Order.BigOperators.Group.Finset

/-! Every run of the drain loop ends, and it ends with every job terminal and the log of each job
the same, whatever the number of workers and the order of their steps. -/
namespace AgentRuntimeGrid

namespace ActorState

/-- The call has taken a message in this round, so that there will be another round. -/
def used : ActorState → Bool
  | .idle | .worker (.returned false) => false
  | _ => true

/-- How many steps the actor is at most away from the end of its call. -/
def rank : ActorState → ℕ
  | .idle => 1
  | .worker st => st.rank
  | .recovery _ => 0

end ActorState

namespace Pool
variable (p : Pool) {n : ℕ}

/-- How many messages of a job there are at most from the given attempt on. -/
def ahead (attemptNumber : ℤ) : ℕ := (p.budgetPolicy.retryBudget.toNat + 2 - attemptNumber).toNat

/-- The messages that may still follow the one in the actor's hand. -/
def aheadOf : ActorState → ℕ
  | .worker st => (st.inHand.map fun m => p.ahead (m.attemptNumber + 1)).getD 0
  | _ => 0

/-- The messages that are or may come to be in the stream, those that follow one in some hand
apart. -/
def aheadIn (g : Grid) : ℕ :=
  ((g.queue.jobs.log.drop g.queue.jobs.delivered).map fun entry =>
    p.ahead entry.message.attemptNumber).sum

/-- An upper bound on the steps one of `n` workers still causes. -/
def effortOf (n : ℕ) (l : ActorState) : ℕ :=
  (n + 8) * p.aheadOf l + (if l.used then n + 1 else 0) + l.rank

/-- An upper bound on the steps the loop still takes. -/
def effort (s : Drain n) : ℕ :=
  (n + 8) * p.aheadIn s.grid + ∑ i, p.effortOf n (s.workers i) + if s.exited then 0 else 1

theorem ahead_succ {job : JobRecord} {k : ℕ} (h : k ≤ p.retryLimit job) :
    p.ahead (k + 1) = p.ahead (k + 1 + 1) + 1 := by
  unfold retryLimit at h
  unfold ahead
  omega

/-- Only the summand of the acting worker changes. -/
private theorem sum_effortOf_update (f : Fin n → ActorState) (i : Fin n) (l : ActorState) :
    (∑ k, p.effortOf n (Function.update f i l k)) + p.effortOf n (f i) =
      (∑ k, p.effortOf n (f k)) + p.effortOf n l := by
  have hupdate : ∀ k, p.effortOf n (Function.update f i l k) =
      Function.update (fun k => p.effortOf n (f k)) i (p.effortOf n l) k := by
    intro k
    by_cases hk : k = i
    · subst hk
      rw [Function.update_self, Function.update_self]
    · rw [Function.update_of_ne hk, Function.update_of_ne hk]
  rw [Finset.sum_congr rfl fun k _ => hupdate k, Finset.sum_update_of_mem (Finset.mem_univ i),
    Finset.sum_eq_add_sum_sdiff_singleton_of_mem (Finset.mem_univ i) fun k => p.effortOf n (f k)]
  omega

/-- A step of one worker costs when it costs on the stream and on that worker. -/
theorem effort_update_lt {s : Drain n} {g' : Grid} {i : Fin n} {l l' : ActorState}
    (hi : s.workers i = l)
    (h : (n + 8) * p.aheadIn g' + p.effortOf n l' < (n + 8) * p.aheadIn s.grid + p.effortOf n l) :
    p.effort ⟨g', Function.update s.workers i l', s.exited⟩ < p.effort s := by
  have hsum := p.sum_effortOf_update s.workers i l'
  rw [hi] at hsum
  unfold effort
  change (n + 8) * p.aheadIn g' + ∑ k, p.effortOf n (Function.update s.workers i l' k) +
    (if s.exited then 0 else 1) < _
  omega

theorem aheadIn_of_queue {g g' : Grid} (hlog : g'.queue.jobs.log = g.queue.jobs.log)
    (hdelivered : g'.queue.jobs.delivered = g.queue.jobs.delivered) :
    p.aheadIn g' = p.aheadIn g := by
  unfold aheadIn
  rw [hlog, hdelivered]

theorem aheadIn_publishJob {g : Grid} {m : QueueJobMessage} {cause : Option EntryId} :
    p.aheadIn { g with queue := g.queue.publishJob m cause } =
      p.aheadIn g + p.ahead m.attemptNumber := by
  unfold aheadIn
  change (((g.queue.jobs.log ++ [_]).drop g.queue.jobs.delivered).map _).sum = _
  rw [List.drop_append_of_le_length g.queue.jobs.delivered_le, List.map_append, List.sum_append]
  rfl

theorem aheadIn_deliver {g : Grid} {c : String} {e : EntryId} {entry : StreamEntry}
    {group : ConsumerGroup StreamEntry} (h : g.queue.jobs.deliver c = some (e, entry, group)) :
    p.aheadIn g = p.ahead entry.message.attemptNumber +
      p.aheadIn { g with queue := { g.queue with jobs := group } } := by
  obtain ⟨rfl, hentry, hlog, hdelivered, -⟩ := ConsumerGroup.deliver_spec h
  unfold aheadIn
  change _ = _ + ((group.log.drop group.delivered).map _).sum
  rw [hlog, hdelivered, List.drop_eq_getElem?_toList_append, hentry]
  rfl

end Pool

namespace Drain.Invariant
variable {p : Pool} {n : ℕ} {jobs : List JobRecord} {g₀ g' : Grid} {s : Drain n} {i : Fin n}
  {job : JobRecord} {k : ℕ} {e : EntryId} {st st' : WorkerState}

private theorem effortOf_holding {db : Database} (h : Holding p db job k e st) :
    p.effortOf n (.worker st) = (n + 8) * p.ahead (k + 1 + 1) + (n + 1) + st.rank := by
  have hused : (ActorState.worker st).used = true := by cases h <;> rfl
  have hahead : p.aheadOf (.worker st) = p.ahead (k + 1 + 1) := by
    change (st.inHand.map _).getD 0 = _
    rw [h.inHand]
    rfl
  rw [Pool.effortOf, hahead, if_pos hused]
  rfl

private theorem effortOf_handled {db db' : Database} (hold : Holding p db job k e st)
    (h : Handled p job k e st db' st') :
    p.effortOf n (.worker st') < p.effortOf n (.worker st) := by
  rw [effortOf_holding hold]
  cases h with
  | goesOn hold' hrank =>
    rw [effortOf_holding hold']
    omega
  | ends _ hrank =>
    change (n + 8) * 0 + (n + 1) + 1 < _
    omega

/-- What the call of a worker does next: it goes on, the invariant with it. -/
def Works (p : Pool) (jobs : List JobRecord) (g₀ : Grid) (s : Drain n) (i : Fin n)
    (now : String) : Prop :=
  ∃ g' l', p.deployment.localStep i s.grid (s.workers i) (p.action now (s.workers i)) =
      some (g', l') ∧
    Invariant p jobs g₀ ⟨g', Function.update s.workers i l', s.exited⟩ ∧
    p.effort ⟨g', Function.update s.workers i l', s.exited⟩ < p.effort s

private theorem works_idle {now : String} (hs : s.Invariant p jobs g₀) (hi : s.workers i = .idle)
    (hexited : s.exited = false) : Works p jobs g₀ s i now := by
  unfold Works
  rw [hi]
  cases hlease : s.grid.queue.leaseJobs (p.deployment.worker i).workerId with
  | none =>
    have hstep : p.deployment.localStep i s.grid .idle (p.action now .idle) =
        some (s.grid, .worker (.returned false)) := by
      change some (_, ActorState.worker _) = _
      unfold Worker.leaseOne
      rw [hlease]
    refine ⟨_, _, hstep, hs.polledNone hi (RedisStreamsQueue.leaseJobs_eq_none_iff.mp hlease)
      hexited, p.effort_update_lt hi ?_⟩
    change _ + ((n + 8) * 0 + 0 + 0) < _ + ((n + 8) * 0 + 0 + 1)
    omega
  | some r =>
    obtain ⟨m, q⟩ := r
    obtain ⟨entry, group, hdeliver, rfl, rfl⟩ := RedisStreamsQueue.leaseJobs_spec hlease
    have hstep : p.deployment.localStep i s.grid .idle (p.action now .idle) =
        some ({ s.grid with queue := { s.grid.queue with jobs := group } }, .worker (.leased
          { entry.message with entryId := some s.grid.queue.jobs.delivered })) := by
      change some (_, ActorState.worker _) = _
      unfold Worker.leaseOne
      rw [hlease]
    refine ⟨_, _, hstep, hs.leased hi hdeliver hexited, p.effort_update_lt hi ?_⟩
    obtain ⟨-, hentry, -⟩ := ConsumerGroup.deliver_spec hdeliver
    obtain ⟨job, -, k, cause, rfl, hattempt⟩ := hs.waiting _ entry (le_refl _) hentry
    have hleased : p.effortOf n (.worker (.leased (job.leased k s.grid.queue.jobs.delivered))) =
        (n + 8) * p.ahead (k + 1 + 1) + (n + 1) + 6 := effortOf_holding (.leased hattempt)
    have hahead : p.aheadIn s.grid = p.ahead (k + 1) + _ := p.aheadIn_deliver hdeliver
    have hlt : ∀ x y : ℕ, (n + 8) * x + ((n + 8) * y + (n + 1) + 6) <
        (n + 8) * (y + 1 + x) + ((n + 8) * 0 + 0 + 1) := by
      intro x y
      rw [Nat.mul_add, Nat.mul_add]
      omega
    rw [hahead, p.ahead_succ hattempt.le]
    change _ + p.effortOf n (.worker (.leased (job.leased k s.grid.queue.jobs.delivered))) < _
    rw [hleased]
    exact hlt _ _

private theorem works_holding {now : String} (hs : s.Invariant p jobs g₀)
    (hnodup : (jobs.map JobRecord.id).Nodup) (hrecords : p.Records g₀.files)
    (hdispatch : ∀ job ∈ jobs, p.budgetPolicy.validateJobDispatch job = .ok ()) (hjob : job ∈ jobs)
    (hi : s.workers i = .worker st) (hold : Holding p s.grid.db job k e st)
    (hexited : s.exited = false) : Works p jobs g₀ s i now := by
  unfold Works
  rw [hi]
  rcases exists_handled i now hrecords (hdispatch job hjob) hs.locks hs.files hold
    with ⟨row, hrow, rfl⟩ | ⟨g', st', hstep, hhandled, hconfined⟩
  · have hattempt : Attempting p job (k + 1) false (s.grid.db.history job.id) := by
      cases hold with
      | retryPublish _ h => exact h
    refine ⟨_, _, rfl, hs.published hjob hi hrow hattempt hexited, p.effort_update_lt hi ?_⟩
    rw [p.aheadIn_publishJob, effortOf_holding hold, Nat.mul_add]
    change _ + (n + 8) * p.ahead (k + 1 + 1) + ((n + 8) * 0 + (n + 1) + 1) < _ + (_ + (n + 1) + 2)
    omega
  · refine ⟨g', _, hstep, hs.handled hnodup hjob hi hold hhandled hconfined,
      p.effort_update_lt hi ?_⟩
    have hlog : g'.queue.jobs.log = s.grid.queue.jobs.log := by rw [hconfined.queue]
    have hdelivered : g'.queue.jobs.delivered = s.grid.queue.jobs.delivered := by
      rw [hconfined.queue]
    rw [p.aheadIn_of_queue hlog hdelivered]
    exact Nat.add_lt_add_left (effortOf_handled hold hhandled) _

private theorem works_acknowledging {m : QueueJobMessage} {now : String}
    (hs : s.Invariant p jobs g₀) (hi : s.workers i = .worker (.acknowledging m))
    (hm : m.entryId = some e) (hexited : s.exited = false) : Works p jobs g₀ s i now := by
  unfold Works
  rw [hi]
  refine ⟨_, _, rfl, hs.acknowledged hi hm hexited, p.effort_update_lt hi ?_⟩
  have hack : s.grid.acknowledge m = { s.grid with queue := s.grid.queue.acknowledge e } := by
    unfold Grid.acknowledge
    rw [hm]
  rw [p.aheadIn_of_queue (g := s.grid) (by rw [hack]; rfl) (by rw [hack]; rfl)]
  change _ + ((n + 8) * 0 + (n + 1) + 0) < _ + ((n + 8) * 0 + (n + 1) + 1)
  omega

/-- A worker whose call has not returned can go on with it, and no step of it is lost. -/
theorem works (hs : s.Invariant p jobs g₀) (now : String)
    (hnodup : (jobs.map JobRecord.id).Nodup) (hrecords : p.Records g₀.files)
    (hdispatch : ∀ job ∈ jobs, p.budgetPolicy.validateJobDispatch job = .ok ())
    (hi : (s.workers i).processed = none) : Works p jobs g₀ s i now := by
  have hexited : s.exited = false := by
    refine hs.exited_of_used (i := i) ?_ rfl
    intro hreturned
    rw [hreturned] at hi
    cases hi
  generalize hl : s.workers i = l at hi
  have hpool : PoolState p jobs s.grid.db l := hl ▸ hs.pool i
  cases hpool with
  | idle => exact works_idle hs hl hexited
  | holding hjob hold => exact works_holding hs hnodup hrecords hdispatch hjob hl hold hexited
  | acknowledging hm => exact works_acknowledging hs hl hm hexited
  | returned => cases hi

theorem start {g : Grid} (h : g.Batch jobs) (hrecords : p.Records g.files) :
    Invariant (n := n) p jobs g ⟨g, fun _ => .idle, false⟩ := by
  have hentry : ∀ (x : EntryId) (entry : StreamEntry), g.queue.jobs.log[x]? = some entry →
      ∃ job ∈ jobs, jobs[x]? = some job ∧ entry = ⟨job.message 1, none⟩ := by
    intro x entry hx
    rw [h.log, List.getElem?_map] at hx
    obtain ⟨job, hjob, rfl⟩ := Option.map_eq_some_iff.mp hx
    exact ⟨job, List.mem_of_getElem? hjob, hjob, rfl⟩
  refine ⟨fun _ => .idle, ?_, ?_, ?_, ?_, h.locks, hrecords.files, fun _ _ => rfl, ?_, nofun⟩
  · intro x entry _ hx
    obtain ⟨job, hjob, -, rfl⟩ := hentry x entry hx
    refine ⟨job, hjob, 0, none, rfl, ?_⟩
    rw [h.history job hjob]
    exact {
      row := ⟨job, rfl, .refl job, by rw [h.submitted job hjob]; rfl⟩
      log := rfl
      unfinalized := rfl
      conflicts := rfl
      le := Nat.zero_le _
      transient := nofun }
  · have hhand : ∀ t j, Holds (n := n) ⟨g, fun _ => .idle, false⟩ t j →
        ∃ x job, t = .inl x ∧ jobs[x]? = some job ∧ job.id = j := by
      rintro (x | i) j ht
      · obtain ⟨-, entry, hx, rfl⟩ := ht
        obtain ⟨job, -, hjob, rfl⟩ := hentry x entry hx
        exact ⟨x, job, rfl, hjob, rfl⟩
      · cases (show (none : Option JobId) = some j from ht)
    intro t t' j ht ht'
    obtain ⟨x, job, rfl, hjob, rfl⟩ := hhand t j ht
    obtain ⟨x', job', rfl, hjob', hid⟩ := hhand t' _ ht'
    obtain ⟨hlt, -⟩ := List.getElem?_eq_some_iff.mp hjob
    refine congrArg Sum.inl ((List.getElem?_inj (by simpa using hlt) h.nodup).mp ?_)
    rw [List.getElem?_map, List.getElem?_map, hjob, hjob']
    exact congrArg some hid.symm
  · intro job hjob
    obtain ⟨x, hx⟩ := List.mem_iff_getElem?.mp hjob
    refine .inl ⟨.inl x, h.delivered.trans_le (Nat.zero_le x), ⟨job.message 1, none⟩, ?_, rfl⟩
    change g.queue.jobs.log[x]? = _
    rw [h.log, List.getElem?_map, hx]
    rfl
  · intro e he
    have hlt := he.lt_delivered
    change e < g.queue.jobs.delivered at hlt
    rw [h.delivered] at hlt
    exact absurd hlt (Nat.not_lt_zero e)
  · rintro ⟨i, hi⟩
    cases hi

private theorem step_work {now : String} {t : Drain n} (hs : s.Invariant p jobs g₀)
    (hnodup : (jobs.map JobRecord.id).Nodup) (hrecords : p.Records g₀.files)
    (hdispatch : ∀ job ∈ jobs, p.budgetPolicy.validateJobDispatch job = .ok ())
    (h : p.step s (.work i now) = some t) :
    t.Invariant p jobs g₀ ∧ p.effort t + 1 ≤ p.effort s := by
  simp only [Pool.step] at h
  split at h
  · cases h
  · obtain ⟨r, hr, rfl⟩ := Option.map_eq_some_iff.mp h
    cases hi : (s.workers i).processed with
    | none =>
      obtain ⟨g', l', hstep, hs', hlt⟩ := hs.works now hnodup hrecords hdispatch hi
      rw [hstep] at hr
      obtain rfl := Option.some.inj hr
      exact ⟨hs', hlt⟩
    | some b =>
      rw [ActorState.processed_eq hi] at hr
      cases hr

private theorem step_renewLease {t : Drain n} (hs : s.Invariant p jobs g₀)
    (h : p.step s (.renewLease i) = some t) : t.Invariant p jobs g₀ ∧ p.effort t ≤ p.effort s := by
  obtain ⟨⟨g', l'⟩, hr, rfl⟩ := Option.map_eq_some_iff.mp h
  generalize hi : s.workers i = l at hr
  cases l with
  | idle => cases hr
  | recovery st => cases hr
  | worker st =>
    obtain ⟨e, he, heq⟩ := Option.map_eq_some_iff.mp hr
    cases heq
    rw [← hi, Function.update_eq_self]
    exact ⟨hs.renewed, le_refl _⟩

private theorem step_gather {t : Drain n} (hs : s.Invariant p jobs g₀)
    (h : p.step s .gather = some t) : t.Invariant p jobs g₀ ∧ p.effort t + 1 ≤ p.effort s := by
  simp only [Pool.step] at h
  split at h
  · cases h
  next hexited =>
    have hexited : s.exited = false := eq_false_of_ne_true hexited
    split at h
    next hall =>
      split at h
      next hsome =>
        obtain rfl := Option.some.inj h
        obtain ⟨i, hi⟩ := hsome
        have hidle : ∑ k : Fin n, p.effortOf n .idle = n := by
          change ∑ k : Fin n, ((n + 8) * 0 + 0 + 1) = n
          simp
        have hused : p.effortOf n (s.workers i) = n + 1 := by
          rw [ActorState.processed_eq hi]
          change (n + 8) * 0 + (n + 1) + 0 = n + 1
          omega
        have hle := Finset.single_le_sum (f := fun k => p.effortOf n (s.workers k))
          (fun _ _ => Nat.zero_le _) (Finset.mem_univ i)
        refine ⟨hs.nextRound hall hexited, ?_⟩
        change (n + 8) * p.aheadIn s.grid + ∑ k : Fin n, p.effortOf n .idle +
          (if s.exited then 0 else 1) + 1 ≤ (n + 8) * p.aheadIn s.grid + _ + _
        omega
      next hnone =>
        obtain rfl := Option.some.inj h
        refine ⟨hs.leftLoop hall hnone, ?_⟩
        unfold Pool.effort
        rw [hexited]
        exact le_refl _
    next => cases h

/-- Every step keeps the invariant, and all but the renewal of a lease bring the end nearer. -/
theorem step {a : DrainAction n} {t : Drain n} (hs : s.Invariant p jobs g₀)
    (hnodup : (jobs.map JobRecord.id).Nodup) (hrecords : p.Records g₀.files)
    (hdispatch : ∀ job ∈ jobs, p.budgetPolicy.validateJobDispatch job = .ok ())
    (h : p.step s a = some t) :
    t.Invariant p jobs g₀ ∧ p.effort t + (if a.isWork then 1 else 0) ≤ p.effort s := by
  cases a with
  | work i now => exact hs.step_work hnodup hrecords hdispatch h
  | renewLease i => exact hs.step_renewLease h
  | gather => exact hs.step_gather h

/-- A state that has not left the loop has a step that brings the end nearer. -/
theorem exists_work (hs : s.Invariant p jobs g₀) (hnodup : (jobs.map JobRecord.id).Nodup)
    (hrecords : p.Records g₀.files)
    (hdispatch : ∀ job ∈ jobs, p.budgetPolicy.validateJobDispatch job = .ok ())
    (hexited : s.exited = false) : ∃ a t, a.isWork = true ∧ p.step s a = some t := by
  by_cases hall : ∀ i, (s.workers i).processed.isSome
  · by_cases hsome : ∃ i, (s.workers i).processed = some true
    · exact ⟨.gather, _, rfl, by simp only [Pool.step, hexited, if_pos hall, if_pos hsome]; rfl⟩
    · exact ⟨.gather, _, rfl, by simp only [Pool.step, hexited, if_pos hall, if_neg hsome]; rfl⟩
  · obtain ⟨i, hi⟩ := not_forall.mp hall
    obtain ⟨g', l', hstep, -⟩ := hs.works "" hnodup hrecords hdispatch
      (Option.not_isSome_iff_eq_none.mp hi)
    exact ⟨.work i "", _, rfl, by simp only [Pool.step, hexited, hstep]; rfl⟩

/-- What holds when at least one worker has left the loop. -/
theorem drained (hs : s.Invariant p jobs g₀) (hn : 0 < n) (hexited : s.exited = true) :
    (∀ e, ¬ s.grid.queue.jobs.Live e) ∧ ∀ job ∈ jobs, Drained p job (s.grid.db.history job.id) := by
  have hall := hs.exited hexited
  have hempty : s.grid.queue.jobs.log.length ≤ s.grid.queue.jobs.delivered :=
    hs.empty ⟨⟨0, hn⟩, hall _⟩ fun i => by rw [hall i]; trivial
  refine ⟨?_, fun job hjob => (hs.covered job hjob).resolve_left ?_⟩
  · rintro e ⟨hlt, hundelivered | hpending⟩
    · exact absurd hundelivered (Nat.not_le_of_lt (Nat.lt_of_lt_of_le hlt hempty))
    · obtain ⟨i, hi⟩ := hs.pending e hpending
      rw [hall i] at hi
      cases hi
  · rintro ⟨x | i, ht⟩
    · obtain ⟨hx, entry, hentry, -⟩ := ht
      rw [List.getElem?_eq_none (hempty.trans hx)] at hentry
      cases hentry
    · change (s.workers i).job = _ at ht
      rw [hall i] at ht
      cases ht

end Drain.Invariant

/-- A bound on the steps of a loop of `n` workers over a batch of `m` jobs. -/
def Pool.workBound (p : Pool) (n m : ℕ) : ℕ :=
  (n + 8) * (m * (p.budgetPolicy.retryBudget.toNat + 1)) + n + 1

theorem Grid.Batch.effort_eq {p : Pool} {n : ℕ} {jobs : List JobRecord} {g : Grid}
    (h : g.Batch jobs) :
    p.effort (p.drain n g).init = p.workBound n jobs.length := by
  have hahead : p.aheadIn g = jobs.length * (p.budgetPolicy.retryBudget.toNat + 1) := by
    have hfirst : p.ahead 1 = p.budgetPolicy.retryBudget.toNat + 1 := by
      unfold Pool.ahead
      omega
    unfold Pool.aheadIn
    rw [h.log, h.delivered, List.drop_zero, List.map_map, ← hfirst, ← smul_eq_mul,
      ← List.sum_replicate, ← List.map_const']
    rfl
  have hidle : ∑ k : Fin n, p.effortOf n .idle = n := by
    change ∑ k : Fin n, ((n + 8) * 0 + 0 + 1) = n
    simp
  change (n + 8) * p.aheadIn g + ∑ k : Fin n, p.effortOf n .idle + 1 = _
  rw [hahead, hidle]
  rfl

/-- The loop takes at most so many steps that are not renewals of a lease. -/
theorem Grid.Batch.countP_isWork_le {p : Pool} {n : ℕ} {jobs : List JobRecord} {g : Grid}
    (h : g.Batch jobs) (hrecords : p.Records g.files)
    (hdispatch : ∀ job ∈ jobs, p.budgetPolicy.validateJobDispatch job = .ok ())
    {as : List (DrainAction n)} {t : Drain n}
    (ht : (p.drain n g).exec Lts.unchecked (p.drain n g).init as = some t) :
    as.countP DrainAction.isWork ≤ p.workBound n jobs.length := by
  have hstep : ∀ s a t, s.Invariant p jobs g → (p.drain n g).step s a = some t →
      t.Invariant p jobs g ∧ p.effort t + (if a.isWork then 1 else 0) ≤ p.effort s :=
    fun s a t hs => hs.step h.nodup hrecords hdispatch
  have hinit : (p.drain n g).init.Invariant p jobs g := .start h hrecords
  have := Lts.countP_le_of_exec hstep hinit ht
  rw [h.effort_eq] at this
  exact (Nat.le_add_right _ _).trans this

theorem Grid.Batch.drain_invariant {p : Pool} {n : ℕ} {jobs : List JobRecord} {g : Grid}
    (h : g.Batch jobs) (hrecords : p.Records g.files)
    (hdispatch : ∀ job ∈ jobs, p.budgetPolicy.validateJobDispatch job = .ok ()) {s : Drain n}
    (hs : (p.drain n g).Reachable Lts.anyStep s) : s.Invariant p jobs g :=
  hs.invariant (.start h hrecords) fun _ _ _ _ hs _ ht =>
    (hs.step h.nodup hrecords hdispatch ht).1

/-- The loop takes at most so many steps that are not renewals of a lease and can always take one
more until it is left; and then no message is live, no job of the batch has a conflict, and each is
terminal with the log that the outcomes of its attempts determine. -/
theorem Pool.drain_confluent {p : Pool} {n : ℕ} {jobs : List JobRecord} {g : Grid}
    (h : g.Batch jobs) (hn : 0 < n) (hrecords : p.Records g.files)
    (hdispatch : ∀ job ∈ jobs, p.budgetPolicy.validateJobDispatch job = .ok ()) :
    (∀ as t, (p.drain n g).exec Lts.unchecked (p.drain n g).init as = some t →
      as.countP DrainAction.isWork ≤ p.workBound n jobs.length) ∧
    ∀ s, (p.drain n g).Reachable Lts.anyStep s →
      (s.exited = false → ∃ a t, a.isWork = true ∧ (p.drain n g).step s a = some t) ∧
      (s.exited = true → (∀ e, ¬ s.grid.queue.jobs.Live e) ∧
        (∀ job ∈ jobs, Drained p job (s.grid.db.history job.id)) ∧
        ∀ j, j ∉ jobs.map JobRecord.id → s.grid.db.history j = g.db.history j) := by
  refine ⟨fun as t ht => h.countP_isWork_le hrecords hdispatch ht, fun s hs => ?_⟩
  have hs := h.drain_invariant hrecords hdispatch hs
  refine ⟨hs.exists_work h.nodup hrecords hdispatch, fun hexited => ?_⟩
  obtain ⟨hlive, hdrained⟩ := hs.drained hn hexited
  exact ⟨hlive, hdrained, hs.frame⟩

/-- Two workers in stub mode whose first attempt at any job meets a transient error. -/
def retryPool : Pool where
  env := sampleEnv
  workerId i := "proof-worker-" ++ toString (i + 1)
  budgetPolicy := .stub 2
  hasArtifactStore := false
  outcome _ n := if n = 1 then .transientError "TransientRunnerError" else .success []
  writes _ _ := []

/-- Worker 0 runs both attempts, while worker 1 finds the stream empty. -/
def retryDrainRun : List (DrainAction 2) :=
  [.work 0 "", .work 1 "", .work 0 "", .work 0 "", .work 0 "", .work 0 "", .work 0 "", .gather,
    .work 0 "", .work 1 "", .work 0 "", .work 0 "", .work 0 "", .work 0 "", .gather,
    .work 1 "", .work 0 "", .gather]

/-- The grid holds one new job with one retry, and its message. -/
def Grid.hasOneJob (g : Grid) (row : JobRecord) : Bool :=
  row.status = .submitted && row.jobType = "stub" && row.maxRetries = 1 &&
    g.queue.jobs.log = [⟨row.message 1, none⟩] && g.queue.jobs.delivered = 0 && g.rowLocks = []

/-- It succeeds with the empty result only, which is always recorded. -/
theorem retryPool_records (files : FileStore) : retryPool.Records files := by
  refine Pool.records_of_plain (fun j n result h => ?_) files
  change (if n = 1 then JobOutcome.transientError "TransientRunnerError"
    else .success []) = _ at h
  split at h
  · cases h
  · cases h
    exact ⟨by decide, rfl⟩

theorem Pool.drain_confluent_retry : ∃ g s, (retryPool.drain 2 g).Reachable Lts.anyStep s ∧
    s.exited = true ∧ (∀ e, ¬ s.grid.queue.jobs.Live e) ∧
    (s.grid.db.eventsOf 1).map JobEvent.logEntry = [(.submitted, none), (.running, some 1),
      (.retryScheduled, some 1), (.running, some 2), (.completed, some 2)] := by
  obtain ⟨s, hs, hp⟩ := Lts.exists_reachable_of_exec stubDeployment.lts
    [(0, .createJob stubSubmission), (0, .publishJob 1 1)]
    (fun s : Deployment.State => (s.shared.db.loadJob 1).any s.shared.hasOneJob &&
      ((retryPool.drain 2 s.shared).exec Lts.unchecked (retryPool.drain 2 s.shared).init
        retryDrainRun).any fun t => t.exited) (by decide)
  obtain ⟨hjob, hrun⟩ := Bool.and_eq_true_iff.mp hp
  obtain ⟨row, hrow, hone⟩ := (Option.any_eq_true _ _).mp hjob
  obtain ⟨t, ht, hexited⟩ := Lts.exists_reachable_of_exec _ _ _ hrun
  simp only [Grid.hasOneJob, Bool.and_eq_true, decide_eq_true_eq] at hone
  obtain ⟨⟨⟨⟨⟨hstatus, htype⟩, hretries⟩, hlog⟩, hdelivered⟩, hlocks⟩ := hone
  have hid : row.id = 1 := Database.id_of_loadJob hrow
  have hbatch : s.shared.Batch [row] := Deployment.batch_of_reachable hs (List.nodup_singleton _)
    hlog hdelivered hlocks (by simpa [hid] using hrow) (by simpa using hstatus)
  have hdispatch : ∀ job ∈ [row], retryPool.budgetPolicy.validateJobDispatch job = .ok () := by
    intro job hjob
    rw [List.mem_singleton.mp hjob, BudgetPolicy.validateJobDispatch, htype]
    rfl
  obtain ⟨-, hall⟩ := Pool.drain_confluent hbatch Nat.two_pos (retryPool_records _) hdispatch
  obtain ⟨hlive, hdrained, -⟩ := (hall t ht).2 hexited
  refine ⟨s.shared, t, ht, hexited, hlive, ?_⟩
  have hlog : (t.grid.db.eventsOf row.id).map JobEvent.logEntry = retryPool.drainedLog row :=
    (hdrained row List.mem_cons_self).log
  rw [hid] at hlog
  have hlimit : retryPool.retryLimit row = 1 := by
    unfold Pool.retryLimit
    rw [hretries]
    rfl
  have hretried : retryPool.retries row = 1 := by
    unfold Pool.retries
    rw [hlimit]
    rfl
  rw [hlog, Pool.drainedLog, hretried]
  rfl

end AgentRuntimeGrid
