import AgentRuntimeGrid.Queue.Inspection

/-! What an operator is shown of the queue: the backpressure snapshot and the number of stale
leases, each taken from the pending entries up to a default limit. -/
namespace AgentRuntimeGrid

structure OperatorQueueInspection where
  backpressure : QueueBackpressureSnapshot
  staleLeaseCount : ℕ

/-- `inspect_operator_queue`, with nothing else running between its reads; `none` if it raises. -/
def inspectOperatorQueue (q : RedisStreamsQueue) (idle : IdleTimes) (db : Database)
    (createdAt : ℕ → Datetime) (staleAfterMs : ℕ) (runId : Option RunId)
    (workerCount : Option ℤ) : Option OperatorQueueInspection := do
  let backpressure ← inspectQueueBackpressure q idle db createdAt runId workerCount 1000
  let staleLeases := q.findStaleLeases (fun e => idle e) staleAfterMs 100
  return ⟨backpressure, staleLeases.length⟩

namespace RedisStreamsQueue
variable {q : RedisStreamsQueue}

theorem staleLease_isSome (idle : EntryId → ℕ) {p : PendingEntry} (hp : p ∈ q.jobs.pending) :
    (q.staleLease idle p).isSome = true := by
  have hlt := (q.jobs.pending_lt p hp).trans_le q.jobs.delivered_le
  unfold staleLease
  simp [List.getElem?_eq_getElem hlt, queueMessageFromStreamEntry_toStreamFields]

theorem length_findStaleLeases (q : RedisStreamsQueue) (idle : EntryId → ℕ) (after count : ℕ) :
    (q.findStaleLeases idle after count).length =
      min count (q.jobs.pending.countP fun p => after ≤ idle p.entryId) := by
  unfold findStaleLeases
  rw [List.filterMap_length_eq_length.mpr, List.length_take, ← List.countP_eq_length_filter]
  · rw [(List.perm_insertionSort _ _).countP_eq]
  · intro p hp
    have hp := List.mem_of_mem_filter (List.mem_of_mem_take hp)
    exact staleLease_isSome idle ((List.mem_insertionSort _).mp hp)

theorem pendingSample_subset (q : RedisStreamsQueue) (count : ℕ) :
    q.pendingSample count ⊆ q.jobs.pending := by
  intro p hp
  exact (List.mem_insertionSort _).mp (List.mem_of_mem_take hp)

theorem pendingSample_eq_nil {count : ℕ} (hcount : 0 < count) (h : q.pendingSample count = []) :
    q.jobs.pending = [] := by
  have hlength := congrArg List.length h
  rw [pendingSample, List.length_take, List.length_insertionSort, List.length_nil] at hlength
  exact List.length_eq_zero_iff.mp (by omega)

end RedisStreamsQueue

/-- The inspection counts every pending entry that is idle for long enough, and reports the greatest
idle time of all pending entries. -/
def InspectsExactly (q : RedisStreamsQueue) (idle : IdleTimes) (staleAfterMs : ℕ)
    (inspection : Option OperatorQueueInspection) : Prop :=
  ∃ r, inspection = some r ∧
    r.staleLeaseCount = q.jobs.pending.countP (fun p => staleAfterMs ≤ (idle p.entryId : ℕ)) ∧
    r.backpressure.oldestPendingAgeSeconds =
      .finite (secondsOfMs (maxIdle idle q.jobs.pending))

variable {q : RedisStreamsQueue} {idle : IdleTimes} {db : Database} {createdAt : ℕ → Datetime}
  {staleAfterMs : ℕ} {runId : Option RunId}

/-- What the inspection returns without a worker count. -/
theorem inspectOperatorQueue_spec (hevents : db.jobEvents.length ≤ 2 ^ 63) :
    ∃ r, inspectOperatorQueue q idle db createdAt staleAfterMs runId none = some r ∧
      r.staleLeaseCount =
        min 100 (q.jobs.pending.countP fun p => staleAfterMs ≤ (idle p.entryId : ℕ)) ∧
      r.backpressure.oldestPendingAgeSeconds =
        .finite (secondsOfMs (maxIdle idle (q.pendingSample 1000))) := by
  obtain ⟨metrics, hmetrics⟩ := databaseBackpressureMetrics_isSome createdAt runId hevents
  unfold inspectOperatorQueue inspectQueueBackpressure
  simp only [oldestPendingAgeSeconds_eq, hmetrics, workerUtilization, Option.bind_eq_bind,
    Option.bind_some, RedisStreamsQueue.length_findStaleLeases]
  exact ⟨_, rfl, rfl, rfl⟩

/-- The inspection is exact as long as no more than a hundred entries are stale and, for every
pending entry, one of the first thousand has been idle for as long. -/
theorem inspectOperatorQueue_exact_iff (hevents : db.jobEvents.length ≤ 2 ^ 63) :
    InspectsExactly q idle staleAfterMs
        (inspectOperatorQueue q idle db createdAt staleAfterMs runId none) ↔
      q.jobs.pending.countP (fun p => staleAfterMs ≤ (idle p.entryId : ℕ)) ≤ 100 ∧
        ∀ p ∈ q.jobs.pending, ∃ p' ∈ q.pendingSample 1000,
          secondsOfMs (idle p.entryId) ≤ secondsOfMs (idle p'.entryId) := by
  obtain ⟨r, hr, hcount, hage⟩ := @inspectOperatorQueue_spec q idle db createdAt staleAfterMs runId
    hevents
  rw [← secondsOfMs_maxIdle_eq_iff (q.pendingSample_subset 1000)
    (RedisStreamsQueue.pendingSample_eq_nil (by decide))]
  unfold InspectsExactly
  rw [hr]
  constructor
  · rintro ⟨r', heq, hcount', hage'⟩
    obtain rfl := Option.some.inj heq
    refine ⟨by omega, ?_⟩
    exact PyFloat.finite.inj (hage.symm.trans hage')
  · rintro ⟨hle, heq⟩
    refine ⟨r, rfl, by omega, ?_⟩
    rw [hage, heq]

/-- A queue of `n` entries, all leased by one worker. -/
def backlog (n : ℕ) : RedisStreamsQueue where
  jobs := {
    log := List.replicate n ⟨⟨0, 0, 1, "trace", none⟩, none⟩
    delivered := n
    pending := (List.range n).map fun e => ⟨e, "worker-1", 1⟩
    delivered_le := by simp
    pending_lt := by
      intro p hp
      obtain ⟨e, he, rfl⟩ := List.mem_map.mp hp
      exact List.mem_range.mp he
    pending_nodup := by
      rw [List.map_map]
      simpa [Function.comp_def] using List.nodup_range }
  dlq := []

def idleForAMinute : IdleTimes := fun _ => 60000

theorem countP_backlog (n : ℕ) :
    (backlog n).jobs.pending.countP (fun p => 30000 ≤ (idleForAMinute p.entryId : ℕ)) = n := by
  have hall : ∀ p ∈ (backlog n).jobs.pending,
      decide (30000 ≤ (idleForAMinute p.entryId : ℕ)) = true := fun _ _ => rfl
  rw [List.countP_eq_length.mpr hall]
  simp [backlog]

theorem inspectOperatorQueue_exact_of_three :
    InspectsExactly (backlog 3) idleForAMinute 30000
      (inspectOperatorQueue (backlog 3) idleForAMinute .empty (fun _ => 0) 30000 none none) := by
  refine (inspectOperatorQueue_exact_iff (by decide)).mpr ⟨?_, fun p hp => ⟨p, ?_, le_rfl⟩⟩
  · rw [countP_backlog]
    decide
  · unfold RedisStreamsQueue.pendingSample
    rw [List.take_of_length_le (by simp [backlog])]
    exact (List.mem_insertionSort _).mpr hp

/-- Of a hundred and one stale leases a hundred are reported. -/
theorem inspectOperatorQueue_of_101 :
    (∃ r, inspectOperatorQueue (backlog 101) idleForAMinute .empty (fun _ => 0) 30000 none none =
        some r ∧ r.staleLeaseCount = 100) ∧
      ¬InspectsExactly (backlog 101) idleForAMinute 30000
        (inspectOperatorQueue (backlog 101) idleForAMinute .empty (fun _ => 0) 30000 none
          none) := by
  obtain ⟨r, hr, hcount, -⟩ := @inspectOperatorQueue_spec (backlog 101) idleForAMinute .empty
    (fun _ => 0) 30000 none (by decide)
  rw [countP_backlog] at hcount
  refine ⟨⟨r, hr, hcount⟩, ?_⟩
  rintro ⟨r', hr', hcount', -⟩
  obtain rfl := Option.some.inj (hr.symm.trans hr')
  rw [countP_backlog] at hcount'
  omega

end AgentRuntimeGrid
