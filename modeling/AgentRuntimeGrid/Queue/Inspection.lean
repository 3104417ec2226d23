import AgentRuntimeGrid.Cli.Benchmark
import AgentRuntimeGrid.Queue.Percentile
import AgentRuntimeGrid.Queue.RedisStreams
import AgentRuntimeGrid.Storage.Finalization

/-! The backpressure snapshot that operators read: the numbers Redis gives, cut at the size of the
pending sample, and those of the tables with their percentiles. -/
namespace AgentRuntimeGrid

/-- `a / b` of two `int`s; `none` if it raises. -/
def intDiv (a b : ℤ) : Option ℚ := if b = 0 then none else Binary64.round ((a : ℚ) / b)

/-- A `datetime`, in microseconds since the year one: those up to the year 9999. -/
abbrev Datetime := Fin (2 ^ 59)

structure EventRow where
  jobId : JobId
  eventType : EventType
  createdAt : Datetime

/-- `.where(run_id == ...)`, left out without a run. -/
def inRun (runId : Option RunId) (r : RunId) : Bool := runId.all fun run => r = run

/-- The rows of `job_events` in id order; `createdAt` is the clock column. -/
def Database.eventRows (db : Database) (createdAt : ℕ → Datetime) (runId : Option RunId) :
    List EventRow :=
  (db.jobEvents.zipIdx.filter fun e => inRun runId e.1.runId).map fun e =>
    ⟨e.1.jobId, e.1.eventType, createdAt e.2⟩

/-- The rows grouped by job, the groups in the order of their first events. -/
def Database.eventRowsByJob (db : Database) (createdAt : ℕ → Datetime) (runId : Option RunId) :
    List (List EventRow) :=
  let rows := db.eventRows createdAt runId
  (rows.map EventRow.jobId).eraseDups.map fun j => rows.filter fun row => row.jobId = j

def firstEventTime (events : List EventRow) (eventType : EventType) : Option Datetime :=
  (events.find? fun e => e.eventType = eventType).map EventRow.createdAt

def firstTerminalEventTime (events : List EventRow) : Option Datetime :=
  (events.find? fun e => Database.isTerminalEventType e.eventType).map EventRow.createdAt

/-- `max(0.0, (stop - start).total_seconds())`. -/
def elapsedSeconds (start stop : Datetime) : Option ℚ :=
  (intDiv ((stop : ℤ) - (start : ℤ)) 1000000).map (max 0)

/-- The durations, in seconds, of those jobs that have both events. -/
def durations (eventsByJob : List (List EventRow)) (start stop : List EventRow → Option Datetime) :
    Option (List ℚ) :=
  (eventsByJob.filterMap fun events => (start events).bind fun startedAt =>
    (stop events).map fun stoppedAt => (startedAt, stoppedAt)).mapM fun times =>
      elapsedSeconds times.1 times.2

/-- `retry_count / submitted_jobs`. -/
def retryRate (retryCount submittedJobs : ℕ) : Option ℚ :=
  if submittedJobs = 0 then some 0 else intDiv retryCount submittedJobs

structure DatabaseBackpressureMetrics where
  runningJobs : ℤ
  retryRate : ℚ
  p95QueueWaitSeconds : ℚ
  p95ExecutionSeconds : ℚ

def databaseBackpressureMetrics (db : Database) (createdAt : ℕ → Datetime) (runId : Option RunId) :
    Option DatabaseBackpressureMetrics := do
  let submittedJobs := db.jobs.rows.countP fun job => inRun runId job.runId
  let runningJobs := db.jobs.rows.countP fun job => job.status = .running && inRun runId job.runId
  let retryCount := db.jobEvents.countP fun e =>
    e.eventType = .retryScheduled && inRun runId e.runId
  let eventsByJob := db.eventRowsByJob createdAt runId
  let queueWaits ← durations eventsByJob (firstEventTime · .submitted) (firstEventTime · .running)
  let executionDurations ← durations eventsByJob (firstEventTime · .running) firstTerminalEventTime
  let retryRate ← retryRate retryCount submittedJobs
  let p95QueueWaitSeconds ← Inspection.p95 queueWaits
  let p95ExecutionSeconds ← Inspection.p95 executionDurations
  return ⟨runningJobs, retryRate, p95QueueWaitSeconds, p95ExecutionSeconds⟩

/-- The idle times of the pending entries, as Redis reports them: 64-bit integers. -/
abbrev IdleTimes := EntryId → Fin (2 ^ 63)

namespace RedisStreamsQueue

/-- `XPENDING - + count`: the first pending entries in id order. -/
def pendingSample (q : RedisStreamsQueue) (count : ℕ) : List PendingEntry :=
  (q.jobs.pending.insertionSort fun p p' => p.entryId ≤ p'.entryId).take count

/-- `lag` of `XINFO GROUPS`: the entries that no consumer was given. -/
def lag (q : RedisStreamsQueue) : ℕ := q.jobs.log.length - q.jobs.delivered

end RedisStreamsQueue

/-- The greatest idle time of some pending entries, zero if there are none. -/
def maxIdle (idle : IdleTimes) (entries : List PendingEntry) : ℕ :=
  (entries.map fun p => (idle p.entryId : ℕ)).foldr max 0

/-- `max(time_since_delivered) / 1000`, or `0.0` without an entry. -/
def oldestPendingAgeSeconds (idle : IdleTimes) (entries : List PendingEntry) : Option ℚ :=
  if entries = [] then some 0 else intDiv (maxIdle idle entries) 1000

/-- `running_jobs / worker_count`, capped at one, when there is a positive worker count. -/
def workerUtilization (runningJobs : ℤ) : Option ℤ → Option ℚ
  | none => some 0
  | some workerCount =>
      if 0 < workerCount then (intDiv runningJobs workerCount).map (min 1) else some 0

/-- `inspect_queue_backpressure`; `none` if it raises. -/
def inspectQueueBackpressure (q : RedisStreamsQueue) (idle : IdleTimes) (db : Database)
    (createdAt : ℕ → Datetime) (runId : Option RunId) (workerCount : Option ℤ)
    (pendingSampleSize : ℕ) : Option QueueBackpressureSnapshot := do
  let leasedJobs := q.jobs.pending.length
  let consumerLag := q.lag
  let oldest ← oldestPendingAgeSeconds idle (q.pendingSample pendingSampleSize)
  let metrics ← databaseBackpressureMetrics db createdAt runId
  let utilization ← workerUtilization metrics.runningJobs workerCount
  return {
    queueDepth := leasedJobs + consumerLag
    oldestPendingAgeSeconds := .finite oldest
    consumerLag := consumerLag
    leasedJobs := leasedJobs
    runningJobs := metrics.runningJobs
    workerUtilization := .finite utilization
    retryRate := .finite metrics.retryRate
    dlqCount := q.dlq.length
    p95QueueWaitSeconds := .finite metrics.p95QueueWaitSeconds
    p95ExecutionSeconds := .finite metrics.p95ExecutionSeconds }

theorem intDiv_eq_some {a b : ℤ} (hb : b ≠ 0) (ha : |a| ≤ 2 ^ 63) :
    intDiv a b = some (Binary64.nearest ((a : ℚ) / b)) := by
  unfold intDiv
  rw [if_neg hb]
  apply Binary64.round_eq_some (by decide : 63 < 1023)
  have hb1 : (1 : ℚ) ≤ |(b : ℚ)| := by exact_mod_cast Int.one_le_abs hb
  have ha1 : |(a : ℚ)| ≤ 2 ^ 63 := by exact_mod_cast ha
  rw [abs_div]
  exact (div_le_self (abs_nonneg _) hb1).trans ha1

private theorem mapM_isSome {α β : Type} {f : α → Option β} (h : ∀ a, ∃ b, f a = some b)
    (as : List α) : ∃ bs, as.mapM f = some bs ∧ bs.length = as.length := by
  induction as with
  | nil => exact ⟨[], rfl, rfl⟩
  | cons a as ih =>
    obtain ⟨b, hb⟩ := h a
    obtain ⟨bs, hbs, hlength⟩ := ih
    refine ⟨b :: bs, ?_, by simp [hlength]⟩
    rw [List.mapM_cons, hb, hbs]
    rfl

theorem elapsedSeconds_isSome (start stop : Datetime) :
    ∃ x, elapsedSeconds start stop = some x := by
  have hstart := start.isLt
  have hstop := stop.isLt
  have hdiff : |(stop : ℤ) - (start : ℤ)| ≤ 2 ^ 63 := by
    rw [abs_le]
    omega
  unfold elapsedSeconds
  rw [intDiv_eq_some (by decide) hdiff]
  exact ⟨_, rfl⟩

theorem durations_isSome (eventsByJob : List (List EventRow))
    (start stop : List EventRow → Option Datetime) :
    ∃ values, durations eventsByJob start stop = some values ∧
      values.length ≤ eventsByJob.length := by
  unfold durations
  obtain ⟨values, hvalues, hlength⟩ := mapM_isSome
    (fun times : Datetime × Datetime => elapsedSeconds_isSome times.1 times.2)
    (eventsByJob.filterMap fun events => (start events).bind fun startedAt =>
      (stop events).map fun stoppedAt => (startedAt, stoppedAt))
  exact ⟨values, hvalues, hlength.trans_le (List.length_filterMap_le _ _)⟩

private theorem length_eraseDups_le {α : Type} [BEq α] (n : ℕ) (as : List α)
    (h : as.length = n) : as.eraseDups.length ≤ n := by
  induction n using Nat.strong_induction_on generalizing as with
  | _ n ih =>
    cases as with
    | nil => simp
    | cons a as =>
      have hfilter := List.length_filter_le (fun b => !b == a) as
      have hlt : (as.filter fun b => !b == a).length < n := by
        rw [List.length_cons] at h
        omega
      rw [List.eraseDups_cons, List.length_cons]
      have := ih _ hlt _ rfl
      omega

theorem length_eventRowsByJob_le (db : Database) (createdAt : ℕ → Datetime)
    (runId : Option RunId) : (db.eventRowsByJob createdAt runId).length ≤ db.jobEvents.length := by
  have hids := length_eraseDups_le _ ((db.eventRows createdAt runId).map EventRow.jobId) rfl
  have hfilter := List.length_filter_le (fun e : JobEvent × ℕ => inRun runId e.1.runId)
    db.jobEvents.zipIdx
  rw [List.length_zipIdx] at hfilter
  rw [List.length_map,
    show (db.eventRows createdAt runId).length = _ from List.length_map _] at hids
  unfold Database.eventRowsByJob
  rw [List.length_map]
  exact hids.trans hfilter

theorem retryRate_isSome {retryCount submittedJobs : ℕ} (h : retryCount ≤ 2 ^ 63) :
    ∃ rate, retryRate retryCount submittedJobs = some rate := by
  unfold retryRate
  split
  · exact ⟨0, rfl⟩
  next hsubmitted =>
    have hcount : |(retryCount : ℤ)| ≤ 2 ^ 63 := by
      rw [Nat.abs_cast]
      exact_mod_cast h
    rw [intDiv_eq_some (by exact_mod_cast hsubmitted) hcount]
    exact ⟨_, rfl⟩

/-- The numbers of the tables are there for as many events as `job_events.id` can count. -/
theorem databaseBackpressureMetrics_isSome {db : Database} (createdAt : ℕ → Datetime)
    (runId : Option RunId) (h : db.jobEvents.length ≤ 2 ^ 63) :
    ∃ metrics, databaseBackpressureMetrics db createdAt runId = some metrics := by
  have hgroups := (length_eventRowsByJob_le db createdAt runId).trans h
  obtain ⟨waits, hwaits, hwaitsLength⟩ := durations_isSome (db.eventRowsByJob createdAt runId)
    (firstEventTime · .submitted) (firstEventTime · .running)
  obtain ⟨runs, hruns, hrunsLength⟩ := durations_isSome (db.eventRowsByJob createdAt runId)
    (firstEventTime · .running) firstTerminalEventTime
  obtain ⟨p95Waits, hp95Waits⟩ := truncatedPercentile_isSome (hwaitsLength.trans hgroups)
  obtain ⟨p95Runs, hp95Runs⟩ := truncatedPercentile_isSome (hrunsLength.trans hgroups)
  obtain ⟨rate, hrate⟩ := @retryRate_isSome _
    (db.jobs.rows.countP fun job => inRun runId job.runId)
    ((List.countP_le_length (p := fun e : JobEvent =>
      e.eventType = .retryScheduled && inRun runId e.runId)).trans h)
  unfold databaseBackpressureMetrics
  simp only [Option.bind_eq_bind, hwaits, hruns, hrate, Option.bind_some, Inspection.p95, hp95Waits,
    hp95Runs]
  exact ⟨_, rfl⟩

/-- An idle time as the double of its seconds. -/
def secondsOfMs (ms : ℕ) : ℚ := Binary64.nearest ((ms : ℚ) / 1000)

theorem secondsOfMs_mono {ms ms' : ℕ} (h : ms ≤ ms') : secondsOfMs ms ≤ secondsOfMs ms' := by
  have hcast : (ms : ℚ) ≤ ms' := by exact_mod_cast h
  exact Binary64.nearest_mono (by positivity) (div_le_div_of_nonneg_right hcast (by norm_num))

section Idle
variable {idle : IdleTimes} {entries : List PendingEntry}

theorem le_maxIdle {p : PendingEntry} (h : p ∈ entries) :
    (idle p.entryId : ℕ) ≤ maxIdle idle entries := by
  induction entries with
  | nil => simp at h
  | cons a entries ih =>
    simp only [maxIdle, List.map_cons, List.foldr_cons] at ih ⊢
    rcases List.mem_cons.mp h with rfl | h
    · exact le_max_left _ _
    · exact (ih h).trans (le_max_right _ _)

theorem exists_maxIdle (h : entries ≠ []) :
    ∃ p ∈ entries, (idle p.entryId : ℕ) = maxIdle idle entries := by
  induction entries with
  | nil => exact absurd rfl h
  | cons a entries ih =>
    simp only [maxIdle, List.map_cons, List.foldr_cons] at ih ⊢
    rcases le_total (idle a.entryId : ℕ) ((entries.map fun p => (idle p.entryId : ℕ)).foldr max 0)
      with hle | hle
    · rw [max_eq_right hle]
      rcases eq_or_ne entries [] with rfl | hne
      · exact ⟨a, List.mem_cons_self, by simpa using hle⟩
      · obtain ⟨p, hp, heq⟩ := ih hne
        exact ⟨p, List.mem_cons_of_mem _ hp, heq⟩
    · exact ⟨a, List.mem_cons_self, (max_eq_left hle).symm⟩

theorem maxIdle_lt : maxIdle idle entries < 2 ^ 63 := by
  rcases eq_or_ne entries [] with rfl | hne
  · exact Nat.two_pow_pos 63
  · obtain ⟨p, -, heq⟩ := @exists_maxIdle idle _ hne
    rw [← heq]
    exact (idle p.entryId).isLt

theorem oldestPendingAgeSeconds_eq :
    oldestPendingAgeSeconds idle entries = some (secondsOfMs (maxIdle idle entries)) := by
  unfold oldestPendingAgeSeconds
  split
  next h =>
    rw [h, secondsOfMs, show maxIdle idle [] = 0 from rfl, Nat.cast_zero, zero_div,
      Binary64.nearest_zero]
  · have hlt : |(maxIdle idle entries : ℤ)| ≤ 2 ^ 63 := by
      rw [Nat.abs_cast]
      exact_mod_cast maxIdle_lt.le
    rw [intDiv_eq_some (by decide) hlt]
    rfl

/-- The ages of a sample and of all entries agree when each entry has one in the sample that is
reported no younger. -/
theorem secondsOfMs_maxIdle_eq_iff {sample : List PendingEntry} (hsub : sample ⊆ entries)
    (hempty : sample = [] → entries = []) :
    secondsOfMs (maxIdle idle sample) = secondsOfMs (maxIdle idle entries) ↔
      ∀ p ∈ entries, ∃ p' ∈ sample,
        secondsOfMs (idle p.entryId) ≤ secondsOfMs (idle p'.entryId) := by
  constructor
  · intro heq p hp
    have hne : sample ≠ [] := fun hnil => List.ne_nil_of_mem hp (hempty hnil)
    obtain ⟨p', hp', hmax⟩ := @exists_maxIdle idle _ hne
    refine ⟨p', hp', ?_⟩
    rw [hmax, heq]
    exact secondsOfMs_mono (le_maxIdle hp)
  · intro h
    rcases eq_or_ne entries [] with rfl | hne
    · rw [List.subset_nil.mp hsub]
    obtain ⟨p, hp, hmax⟩ := @exists_maxIdle idle _ hne
    obtain ⟨p', hp', hle⟩ := h p hp
    apply le_antisymm
    · apply secondsOfMs_mono
      obtain ⟨p'', hp'', hmax''⟩ := @exists_maxIdle idle _ (List.ne_nil_of_mem hp')
      rw [← hmax'']
      exact le_maxIdle (hsub hp'')
    · rw [← hmax]
      exact hle.trans (secondsOfMs_mono (le_maxIdle hp'))

end Idle

end AgentRuntimeGrid
