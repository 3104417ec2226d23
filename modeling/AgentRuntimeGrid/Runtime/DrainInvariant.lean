import AgentRuntimeGrid.Runtime.Attempting

/-! The invariant of the drain loop: at any time a job has one message in the stream, or one worker
at work on it, or its final log. -/
namespace AgentRuntimeGrid

namespace WorkerState

/-- The message of the attempt the worker has in hand. -/
def inHand : WorkerState → Option QueueJobMessage
  | .leased m | .executing m _ | .handling m _ _ | .retryPublish m _ _ | .writingArtifact m _ _
  | .crossLinking m _ _ _ _ | .completing m _ _ => some m
  | _ => none

def unacknowledged : WorkerState → Option QueueJobMessage
  | .acknowledging m => some m
  | st => st.inHand

end WorkerState

namespace ActorState

def job : ActorState → Option JobId
  | .worker st => st.inHand.map QueueJobMessage.jobId
  | _ => none

def entry : ActorState → Option EntryId
  | .worker st => st.unacknowledged.bind QueueJobMessage.entryId
  | _ => none

end ActorState

variable {p : Pool} {job : JobRecord} {k : ℕ} {e : EntryId} {db db' : Database}

namespace Holding
variable {st : WorkerState}

theorem inHand (h : Holding p db job k e st) : st.inHand = some (job.leased k e) := by
  cases h <;> rfl

theorem job_eq (h : Holding p db job k e st) : (ActorState.worker st).job = some job.id := by
  rw [ActorState.job, h.inHand]
  rfl

theorem entry_eq (h : Holding p db job k e st) : (ActorState.worker st).entry = some e := by
  cases h <;> rfl

theorem congr (h : Holding p db job k e st) (heq : db'.history job.id = db.history job.id) :
    Holding p db' job k e st := by
  cases h with
  | leased h => exact .leased (heq ▸ h)
  | executing hrow h => exact .executing hrow (heq ▸ h)
  | handling hrow herror h => exact .handling hrow herror (heq ▸ h)
  | writingArtifact hrow hresult h => exact .writingArtifact hrow hresult (heq ▸ h)
  | crossLinking hrow hresult hpayload hpath h =>
    exact .crossLinking hrow hresult hpayload hpath (heq ▸ h)
  | completing hrow hresult h => exact .completing hrow hresult (heq ▸ h)
  | retryPublish hrow h => exact .retryPublish hrow (heq ▸ h)

end Holding

/-- What a worker of the pool can be at. -/
inductive PoolState (p : Pool) (jobs : List JobRecord) (db : Database) : ActorState → Prop
  | idle : PoolState p jobs db .idle
  | holding {job : JobRecord} {k : ℕ} {e : EntryId} {st : WorkerState} (hjob : job ∈ jobs)
      (h : Holding p db job k e st) : PoolState p jobs db (.worker st)
  | acknowledging {m : QueueJobMessage} {e : EntryId} (hm : m.entryId = some e) :
      PoolState p jobs db (.worker (.acknowledging m))
  | returned {processed : Bool} : PoolState p jobs db (.worker (.returned processed))

theorem PoolState.congr {jobs : List JobRecord} {l : ActorState} (h : PoolState p jobs db l)
    (heq : ∀ j, l.job = some j → db'.history j = db.history j) : PoolState p jobs db' l := by
  cases h with
  | idle => exact .idle
  | holding hjob h => exact .holding hjob (h.congr (heq _ h.job_eq))
  | acknowledging hm => exact .acknowledging hm
  | returned => exact .returned

/-- The worker of this state has not processed a message in the round. -/
def ActorState.Unused : ActorState → Prop
  | .idle | .worker (.returned false) => True
  | _ => False

namespace Drain
variable {n : ℕ}

/-- The job is in the undelivered entry or in the worker's hand. -/
def Holds (s : Drain n) : EntryId ⊕ Fin n → JobId → Prop
  | .inl x, j => s.grid.queue.jobs.delivered ≤ x ∧
      ∃ entry : StreamEntry, s.grid.queue.jobs.log[x]? = some entry ∧ entry.message.jobId = j
  | .inr i, j => (s.workers i).job = some j

structure Invariant (p : Pool) (jobs : List JobRecord) (g₀ : Grid) (s : Drain n) : Prop where
  pool : ∀ i, PoolState p jobs s.grid.db (s.workers i)
  waiting : ∀ (x : EntryId) (entry : StreamEntry), s.grid.queue.jobs.delivered ≤ x →
    s.grid.queue.jobs.log[x]? = some entry → ∃ job ∈ jobs, ∃ (k : ℕ) (cause : Option EntryId),
      entry = ⟨job.message (k + 1), cause⟩ ∧ Attempting p job k false (s.grid.db.history job.id)
  alone : ∀ t t' j, s.Holds t j → s.Holds t' j → t = t'
  covered : ∀ job ∈ jobs, (∃ t, s.Holds t job.id) ∨ Drained p job (s.grid.db.history job.id)
  pending : ∀ e, s.grid.queue.jobs.Pending e → ∃ i, (s.workers i).entry = some e
  locks : s.grid.rowLocks = []
  files : ∀ ref bytes, p.Linked ref → s.grid.files ref = some bytes → Readable p.env bytes
  frame : ∀ j, j ∉ jobs.map JobRecord.id → s.grid.db.history j = g₀.db.history j
  /-- Once a worker has found the stream empty, only a worker that found a message can fill it. -/
  empty : (∃ i, s.workers i = .worker (.returned false)) → (∀ i, (s.workers i).Unused) →
    s.grid.queue.jobs.log.length ≤ s.grid.queue.jobs.delivered
  exited : s.exited = true → ∀ i, s.workers i = .worker (.returned false)

namespace Invariant
variable {jobs : List JobRecord} {g₀ g' : Grid} {s : Drain n} {i : Fin n} {st st' : WorkerState}

/-- What another token stands for is another job. -/
private theorem ne_of_holds (hs : s.Invariant p jobs g₀) {t t' : EntryId ⊕ Fin n} {j j' : JobId}
    (ht : s.Holds t j) (ht' : s.Holds t' j') (hne : t ≠ t') : j ≠ j' := by
  rintro rfl
  exact hne (hs.alone t t' j ht ht')

theorem exited_of_used {b : Bool} (hs : s.Invariant p jobs g₀)
    (hi : s.workers i ≠ .worker (.returned false)) (hb : s.exited = b) : b = false := by
  cases b with
  | false => rfl
  | true => exact absurd (hs.exited hb i) hi

theorem unused_of_holding (h : Holding p db job k e st) : ¬ (ActorState.worker st).Unused := by
  cases h <;> exact id

section Handled
variable {db : Database} (h : Handled p job k e st db st')
include h

theorem poolState_of_handled (hjob : job ∈ jobs) : PoolState p jobs db (.worker st') := by
  cases h with
  | goesOn hold => exact .holding hjob hold
  | ends => exact .acknowledging rfl

theorem entry_of_handled : (ActorState.worker st').entry = some e := by
  cases h with
  | goesOn hold => exact hold.entry_eq
  | ends => rfl

theorem unused_of_handled : ¬(ActorState.worker st').Unused := by
  cases h with
  | goesOn hold => exact unused_of_holding hold
  | ends => exact id

theorem job_of_handled {j : JobId} (hj : (ActorState.worker st').job = some j) : j = job.id := by
  cases h with
  | goesOn hold =>
    rw [hold.job_eq] at hj
    exact (Option.some.inj hj).symm
  | ends => cases hj

end Handled

/-- A step of a worker on the job in its hand. -/
theorem handled (hs : s.Invariant p jobs g₀) (hnodup : (jobs.map JobRecord.id).Nodup)
    (hjob : job ∈ jobs) (hi : s.workers i = .worker st)
    (hold : Holding p s.grid.db job k e st) (h : Handled p job k e st g'.db st')
    (hc : Confined p job.id s.grid g') :
    Invariant p jobs g₀ ⟨g', Function.update s.workers i (.worker st'), s.exited⟩ := by
  have hhand : s.Holds (.inr i) job.id := by
    change (s.workers i).job = _
    rw [hi]
    exact hold.job_eq
  have hentry : (s.workers i).entry = some e := by
    rw [hi]
    exact hold.entry_eq
  have hused : s.workers i ≠ .worker (.returned false) := by
    rw [hi]
    rintro heq
    cases heq
    exact unused_of_holding hold trivial
  have hpool : PoolState p jobs g'.db (.worker st') := poolState_of_handled h hjob
  have hback : ∀ t j, Holds ⟨g', Function.update s.workers i (.worker st'), s.exited⟩ t j →
      s.Holds t j := by
    rintro (x | k') j ht
    · obtain ⟨hx, hspec⟩ := ht
      exact ⟨by rw [← hc.queue]; exact hx, by rw [← hc.queue]; exact hspec⟩
    · change (Function.update s.workers i _ k').job = some j at ht
      by_cases hk : k' = i
      · subst hk
        rw [Function.update_self] at ht
        rw [job_of_handled h ht]
        exact hhand
      · rw [Function.update_of_ne hk] at ht
        exact ht
  refine ⟨?_, ?_, ?_, ?_, ?_, ?_, ?_, ?_, ?_, ?_⟩
  · refine (Function.forall_update_iff s.workers fun _ l => PoolState p jobs g'.db l).mpr
      ⟨hpool, fun k' hk' => (hs.pool k').congr fun j hj => hc.history j ?_⟩
    exact hs.ne_of_holds (t := .inr k') hj hhand (by simpa using hk')
  · intro x entry hx hentry
    rw [hc.queue] at hx hentry
    obtain ⟨job', hjob', k', cause, rfl, hattempt⟩ := hs.waiting x entry hx hentry
    refine ⟨job', hjob', k', cause, rfl, ?_⟩
    have hne : job'.id ≠ job.id :=
      hs.ne_of_holds (t := .inl x) ⟨hx, _, hentry, rfl⟩ hhand (by simp)
    rw [hc.history _ hne]
    exact hattempt
  · exact fun t t' j ht ht' => hs.alone t t' j (hback t j ht) (hback t' j ht')
  · intro job₁ hjob₁
    by_cases hsame : job₁ = job
    · subst hsame
      cases h with
      | goesOn hold' =>
        refine .inl ⟨.inr i, ?_⟩
        change (Function.update s.workers i _ i).job = _
        rw [Function.update_self]
        exact hold'.job_eq
      | ends hdrained => exact .inr hdrained
    · have hne : job₁.id ≠ job.id :=
        fun hid => hsame (List.inj_on_of_nodup_map hnodup hjob₁ hjob hid)
      refine (hs.covered job₁ hjob₁).imp ?_ fun hdrained => by rwa [hc.history _ hne]
      rintro ⟨x | k', ht⟩
      · obtain ⟨hx, hspec⟩ := ht
        exact ⟨.inl x, by rw [← hc.queue] at hx; exact hx, by rw [← hc.queue] at hspec; exact hspec⟩
      · have hk : k' ≠ i := by
          rintro rfl
          exact hne (Option.some.inj (Eq.trans (Eq.symm ht) hhand))
        refine ⟨.inr k', ?_⟩
        change (Function.update s.workers i _ k').job = _
        rw [Function.update_of_ne hk]
        exact ht
  · intro e' he'
    rw [hc.queue] at he'
    obtain ⟨k', hk'⟩ := hs.pending e' he'
    refine ⟨k', ?_⟩
    change (Function.update s.workers i _ k').entry = _
    by_cases hk : k' = i
    · subst hk
      rw [Function.update_self, entry_of_handled h, ← hk', hentry]
    · rw [Function.update_of_ne hk]
      exact hk'
  · exact hc.locks.trans hs.locks
  · exact hc.files hs.files
  · intro j hj
    rw [hc.history j fun hid => hj (hid ▸ List.mem_map_of_mem hjob)]
    exact hs.frame j hj
  · intro _ hall
    have := hall i
    change (Function.update s.workers i _ i).Unused at this
    rw [Function.update_self] at this
    exact absurd this (unused_of_handled h)
  · intro hexited
    exact absurd (hs.exited_of_used hused hexited) (by decide)

/-- A step of a worker on the stream alone. The permutation says where the tokens have gone. -/
private theorem of_queue {q : RedisStreamsQueue} {l' : ActorState} (hs : s.Invariant p jobs g₀)
    (σ : Equiv.Perm (EntryId ⊕ Fin n)) (hpool : PoolState p jobs s.grid.db l')
    (hmoves : ∀ t j,
      Holds ⟨{ s.grid with queue := q }, Function.update s.workers i l', s.exited⟩ (σ t) j ↔
        s.Holds t j)
    (hwaiting : ∀ (x : EntryId) (entry : StreamEntry), q.jobs.delivered ≤ x →
      q.jobs.log[x]? = some entry → ∃ job ∈ jobs, ∃ (k : ℕ) (cause : Option EntryId),
        entry = ⟨job.message (k + 1), cause⟩ ∧
        Attempting p job k false (s.grid.db.history job.id))
    (hpending : ∀ e, q.jobs.Pending e → l'.entry = some e ∨
      s.grid.queue.jobs.Pending e ∧ (s.workers i).entry ≠ some e)
    (hempty : l'.Unused → l' = .worker (.returned false) ∧
      q.jobs.log.length ≤ q.jobs.delivered)
    (hexited : s.exited = false) :
    Invariant p jobs g₀ ⟨{ s.grid with queue := q }, Function.update s.workers i l', s.exited⟩ := by
  refine ⟨?_, hwaiting, ?_, ?_, ?_, hs.locks, hs.files, hs.frame, ?_, ?_⟩
  · exact (Function.forall_update_iff s.workers fun _ l => PoolState p jobs s.grid.db l).mpr
      ⟨hpool, fun k' _ => hs.pool k'⟩
  · intro t t' j ht ht'
    have hσ := hs.alone (σ.symm t) (σ.symm t') j ((hmoves _ j).mp (by simpa using ht))
      ((hmoves _ j).mp (by simpa using ht'))
    exact σ.symm.injective hσ
  · intro job hjob
    refine (hs.covered job hjob).imp ?_ id
    rintro ⟨t, ht⟩
    exact ⟨σ t, (hmoves t _).mpr ht⟩
  · intro e he
    rcases hpending e he with hown | ⟨hold, hne⟩
    · exact ⟨i, by change (Function.update s.workers i l' i).entry = _; rwa [Function.update_self]⟩
    · obtain ⟨k', hk'⟩ := hs.pending e hold
      have hk : k' ≠ i := by
        rintro rfl
        exact hne hk'
      refine ⟨k', ?_⟩
      change (Function.update s.workers i l' k').entry = _
      rwa [Function.update_of_ne hk]
  · intro _ hall
    have := hall i
    change (Function.update s.workers i l' i).Unused at this
    rw [Function.update_self] at this
    exact (hempty this).2
  · intro hexited'
    rw [show s.exited = true from hexited'] at hexited
    cases hexited

/-- A token that is the same before and after a step of worker `i`. -/
private theorem holds_update_iff {q : RedisStreamsQueue} {l' : ActorState}
    (hqueue : ∀ x j, Holds (n := n) ⟨{ s.grid with queue := q }, s.workers, s.exited⟩ (.inl x) j ↔
      s.Holds (.inl x) j) (hown : l'.job = (s.workers i).job) (t : EntryId ⊕ Fin n) (j : JobId) :
    Holds ⟨{ s.grid with queue := q }, Function.update s.workers i l', s.exited⟩
      (Equiv.refl _ t) j ↔ s.Holds t j := by
  cases t with
  | inl x => exact hqueue x j
  | inr k' =>
    change (Function.update s.workers i l' k').job = some j ↔ (s.workers k').job = some j
    by_cases hk : k' = i
    · subst hk
      rw [Function.update_self, hown]
    · rw [Function.update_of_ne hk]

theorem polledNone (hs : s.Invariant p jobs g₀) (hi : s.workers i = .idle)
    (hlog : s.grid.queue.jobs.log.length ≤ s.grid.queue.jobs.delivered)
    (hexited : s.exited = false) :
    Invariant p jobs g₀
      ⟨s.grid, Function.update s.workers i (.worker (.returned false)), s.exited⟩ := by
  refine hs.of_queue (q := s.grid.queue) (.refl _) .returned ?_ hs.waiting ?_ ?_ hexited
  · exact holds_update_iff (fun _ _ => Iff.rfl) (by rw [hi]; rfl)
  · intro e he
    exact .inr ⟨he, by rw [hi]; exact nofun⟩
  · exact fun _ => ⟨rfl, hlog⟩

theorem acknowledged {m : QueueJobMessage} (hs : s.Invariant p jobs g₀)
    (hi : s.workers i = .worker (.acknowledging m)) (hm : m.entryId = some e)
    (hexited : s.exited = false) :
    Invariant p jobs g₀ ⟨s.grid.acknowledge m,
      Function.update s.workers i (.worker (.returned true)), s.exited⟩ := by
  have hack : s.grid.acknowledge m = { s.grid with queue := s.grid.queue.acknowledge e } := by
    unfold Grid.acknowledge
    rw [hm]
  rw [hack]
  refine hs.of_queue (q := s.grid.queue.acknowledge e) (.refl _) .returned ?_ hs.waiting ?_ nofun
    hexited
  · exact holds_update_iff (fun _ _ => Iff.rfl) (by rw [hi]; rfl)
  · intro e' he'
    obtain ⟨hold, hne⟩ := (ConsumerGroup.pending_ack _ _ _).mp he'
    refine .inr ⟨hold, ?_⟩
    rw [hi]
    change m.entryId ≠ some e'
    rw [hm]
    exact fun h => hne (Option.some.inj h).symm

/-- The first undelivered message comes into the hand of the worker. -/
theorem leased {entry : StreamEntry} {group : ConsumerGroup StreamEntry} {c : String}
    (hs : s.Invariant p jobs g₀) (hi : s.workers i = .idle)
    (hdeliver : s.grid.queue.jobs.deliver c = some (s.grid.queue.jobs.delivered, entry, group))
    (hexited : s.exited = false) :
    Invariant p jobs g₀ ⟨{ s.grid with queue := { s.grid.queue with jobs := group } },
      Function.update s.workers i (.worker (.leased
        { entry.message with entryId := some s.grid.queue.jobs.delivered })), s.exited⟩ := by
  obtain ⟨-, hentry, hlog, hdelivered, hpending⟩ := ConsumerGroup.deliver_spec hdeliver
  obtain ⟨job, hjob, k, cause, rfl, hattempt⟩ := hs.waiting _ entry (le_refl _) hentry
  refine hs.of_queue (q := { s.grid.queue with jobs := group })
    (Equiv.swap (.inl s.grid.queue.jobs.delivered) (.inr i))
    (.holding (e := s.grid.queue.jobs.delivered) hjob (.leased hattempt)) ?_ ?_ ?_
    (fun hunused => hunused.elim) hexited
  · rintro (x | k') j
    · by_cases hx : x = s.grid.queue.jobs.delivered
      · subst hx
        rw [Equiv.swap_apply_left]
        change (Function.update s.workers i _ i).job = some j ↔ _ ≤ _ ∧ _
        rw [Function.update_self]
        constructor
        · intro hj
          exact ⟨le_refl _, _, hentry, Option.some.inj hj⟩
        · rintro ⟨-, entry', hentry', rfl⟩
          rw [hentry] at hentry'
          obtain rfl := Option.some.inj hentry'
          rfl
      · rw [Equiv.swap_apply_of_ne_of_ne (by simpa using hx) (by simp)]
        change group.delivered ≤ x ∧ (∃ entry, group.log[x]? = some entry ∧ _) ↔ _
        rw [hlog, hdelivered]
        refine and_congr_left fun _ => ?_
        exact ⟨Nat.le_of_succ_le, fun h => Nat.lt_of_le_of_ne h (Ne.symm hx)⟩
    · by_cases hk : k' = i
      · subst hk
        rw [Equiv.swap_apply_right]
        change group.delivered ≤ _ ∧ _ ↔ (s.workers k').job = some j
        rw [hdelivered, hi]
        exact ⟨fun h => absurd h.1 (Nat.not_succ_le_self _), nofun⟩
      · rw [Equiv.swap_apply_of_ne_of_ne (by simp) (by simpa using hk)]
        change (Function.update s.workers i _ k').job = some j ↔ _
        rw [Function.update_of_ne hk]
        rfl
  · intro x entry hx hentry'
    change group.delivered ≤ x at hx
    rw [hdelivered] at hx
    exact hs.waiting x entry (Nat.le_of_succ_le hx) (hlog ▸ hentry')
  · intro e' he'
    rcases (hpending e').mp he' with hold | rfl
    · refine .inr ⟨hold, ?_⟩
      rw [hi]
      exact nofun
    · exact .inl rfl

private theorem getElem?_append_of_ne {α : Type} {xs : List α} {a : α} {x : ℕ}
    (hx : x ≠ xs.length) : (xs ++ [a])[x]? = xs[x]? := by
  rcases Nat.lt_or_gt_of_ne hx with hlt | hgt
  · exact List.getElem?_append_left hlt
  · rw [List.getElem?_eq_none (by simp; omega), List.getElem?_eq_none (by omega)]

/-- The retry leaves the hand of the worker for the end of the stream. -/
theorem published {row : JobRecord} (hs : s.Invariant p jobs g₀) (hjob : job ∈ jobs)
    (hi : s.workers i = .worker (.retryPublish (job.leased k e) row (k + 1 + 1)))
    (hrow : job.SameJob row) (hattempt : Attempting p job (k + 1) false (s.grid.db.history job.id))
    (hexited : s.exited = false) :
    Invariant p jobs g₀ ⟨{ s.grid with
        queue := s.grid.queue.publishJob (row.message (k + 1 + 1)) (some e) },
      Function.update s.workers i (.worker (.acknowledging (job.leased k e))), s.exited⟩ := by
  have hhand : (s.workers i).job = some job.id := by
    rw [hi]
    rfl
  refine hs.of_queue (q := s.grid.queue.publishJob (row.message (k + 1 + 1)) (some e))
    (Equiv.swap (.inr i) (.inl s.grid.queue.jobs.log.length)) (.acknowledging rfl) ?_ ?_ ?_
    (fun hunused => hunused.elim) hexited
  · rintro (x | k') j
    · by_cases hx : x = s.grid.queue.jobs.log.length
      · subst hx
        rw [Equiv.swap_apply_right]
        change (Function.update s.workers i _ i).job = some j ↔ _ ≤ _ ∧ _
        rw [Function.update_self]
        refine ⟨nofun, ?_⟩
        rintro ⟨-, entry, hentry, -⟩
        rw [List.getElem?_eq_none (le_refl _)] at hentry
        cases hentry
      · rw [Equiv.swap_apply_of_ne_of_ne (by simp) (by simpa using hx)]
        change _ ≤ x ∧ (∃ entry, (s.grid.queue.jobs.log ++ [_])[x]? = some entry ∧ _) ↔ _
        rw [getElem?_append_of_ne hx]
        rfl
    · by_cases hk : k' = i
      · subst hk
        rw [Equiv.swap_apply_left]
        change _ ≤ _ ∧ (∃ entry, (s.grid.queue.jobs.log ++ [_])[_]? = some entry ∧ _) ↔
          (s.workers k').job = some j
        rw [List.getElem?_concat_length, hhand]
        constructor
        · rintro ⟨-, entry, hentry, rfl⟩
          obtain rfl := Option.some.inj hentry
          exact congrArg some hrow.id_eq.symm
        · intro hj
          exact ⟨s.grid.queue.jobs.delivered_le, _, rfl, hrow.id_eq.trans (Option.some.inj hj)⟩
      · rw [Equiv.swap_apply_of_ne_of_ne (by simpa using hk) (by simp)]
        change (Function.update s.workers i _ k').job = some j ↔ _
        rw [Function.update_of_ne hk]
        rfl
  · intro x entry hx hentry
    change (s.grid.queue.jobs.log ++ [_])[x]? = some entry at hentry
    by_cases hlast : x = s.grid.queue.jobs.log.length
    · subst hlast
      rw [List.getElem?_concat_length] at hentry
      obtain rfl := Option.some.inj hentry
      refine ⟨job, hjob, k + 1, some e, ?_, hattempt⟩
      rw [hrow.message_eq]
      push_cast
      rfl
    · rw [getElem?_append_of_ne hlast] at hentry
      exact hs.waiting x entry hx hentry
  · intro e' he'
    by_cases he : e' = e
    · subst he
      exact .inl rfl
    · refine .inr ⟨he', ?_⟩
      rw [hi]
      exact fun h => he (Option.some.inj h).symm

theorem renewed {c : String} (hs : s.Invariant p jobs g₀) :
    Invariant p jobs g₀ ⟨{ s.grid with queue := s.grid.queue.renewPendingLease e c }, s.workers,
      s.exited⟩ := by
  refine ⟨hs.pool, hs.waiting, hs.alone, hs.covered, fun e' he' => ?_, hs.locks, hs.files,
    hs.frame, hs.empty, hs.exited⟩
  exact hs.pending e' ((ConsumerGroup.pending_claim _ _ _ _).mp he')

theorem job_of_processed {l : ActorState} (h : l.processed.isSome) :
    l.job = none ∧ l.entry = none := by
  obtain ⟨b, hb⟩ := Option.isSome_iff_exists.mp h
  rw [ActorState.processed_eq hb]
  exact ⟨rfl, rfl⟩

theorem nextRound (hs : s.Invariant p jobs g₀) (hall : ∀ i, (s.workers i).processed.isSome)
    (hexited : s.exited = false) :
    Invariant (n := n) p jobs g₀ ⟨s.grid, fun _ => .idle, s.exited⟩ := by
  have hholds : ∀ t j, Holds (n := n) ⟨s.grid, fun _ => .idle, s.exited⟩ t j ↔ s.Holds t j := by
    rintro (x | k') j
    · exact Iff.rfl
    · change (none : Option JobId) = some j ↔ (s.workers k').job = some j
      rw [(job_of_processed (hall k')).1]
  refine ⟨fun _ => .idle, hs.waiting, ?_, ?_, ?_, hs.locks, hs.files, hs.frame, ?_, ?_⟩
  · exact fun t t' j ht ht' => hs.alone t t' j ((hholds t j).mp ht) ((hholds t' j).mp ht')
  · intro job hjob
    refine (hs.covered job hjob).imp ?_ id
    rintro ⟨t, ht⟩
    exact ⟨t, (hholds t _).mpr ht⟩
  · intro e he
    obtain ⟨k', hk'⟩ := hs.pending e he
    rw [(job_of_processed (hall k')).2] at hk'
    cases hk'
  · rintro ⟨k', hk'⟩
    cases hk'
  · intro hexited'
    rw [show s.exited = true from hexited'] at hexited
    cases hexited

theorem leftLoop (hs : s.Invariant p jobs g₀) (hall : ∀ i, (s.workers i).processed.isSome)
    (hnone : ¬ ∃ i, (s.workers i).processed = some true) :
    Invariant p jobs g₀ ⟨s.grid, s.workers, true⟩ := by
  refine ⟨hs.pool, hs.waiting, hs.alone, hs.covered, hs.pending, hs.locks, hs.files, hs.frame,
    hs.empty, fun _ i => ?_⟩
  obtain ⟨b, hb⟩ := Option.isSome_iff_exists.mp (hall i)
  cases b with
  | false => exact ActorState.processed_eq hb
  | true => exact absurd ⟨i, hb⟩ hnone

end Invariant
end Drain
end AgentRuntimeGrid
