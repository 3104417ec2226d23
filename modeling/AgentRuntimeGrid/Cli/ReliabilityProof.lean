import AgentRuntimeGrid.Cli.Classification
import AgentRuntimeGrid.Cli.ProofCommands
import AgentRuntimeGrid.Lib.Binary64
import Mathlib.Order.Interval.Finset.Nat

/-! The failure plan of the v1 proof: which modes it deals to which jobs, and when a run that ends
as planned shows the evidence that the validator asks for. -/
namespace AgentRuntimeGrid

/-- The modes that `FailurePlan.reliability_proof` deals, in turn. -/
def reliabilityModes (includeTimeouts : Bool) : List FailureMode :=
  [.transient, .permanent, .duplicateSubmission] ++ if includeTimeouts then [.timeout] else []

theorem reliabilityModes_length_pos (includeTimeouts : Bool) :
    0 < (reliabilityModes includeTimeouts).length := by
  cases includeTimeouts <;> decide

def modeAt (includeTimeouts : Bool) (position : ℕ) : FailureMode :=
  (reliabilityModes includeTimeouts).get
    ⟨position % (reliabilityModes includeTimeouts).length,
      Nat.mod_lt _ (reliabilityModes_length_pos includeTimeouts)⟩

theorem turn_transient : ∀ includeTimeouts, ∀ t : Fin (reliabilityModes includeTimeouts).length,
    (reliabilityModes includeTimeouts).get t = .transient ↔ (t : ℕ) = 0 := by
  decide

theorem turn_duplicateSubmission : ∀ includeTimeouts,
    2 < (reliabilityModes includeTimeouts).length ∧
    ∀ t : Fin (reliabilityModes includeTimeouts).length,
      (reliabilityModes includeTimeouts).get t = .duplicateSubmission ↔ (t : ℕ) = 2 := by
  decide

theorem turn_timeout : ∀ includeTimeouts, includeTimeouts = true →
    3 < (reliabilityModes includeTimeouts).length ∧
    ∀ t : Fin (reliabilityModes includeTimeouts).length,
      (reliabilityModes includeTimeouts).get t = .timeout ↔ (t : ℕ) = 3 := by
  decide

/-- `FailurePlan.reliability_proof`, with `random.Random(seed).shuffle` as a parameter. -/
def reliabilityPlan (shuffle : ℤ → List ℕ → List ℕ) (seed : ℤ) (count : ℕ)
    (includeTimeouts : Bool) : List InjectedFailure :=
  let indexes := shuffle seed (List.range count)
  let failures := indexes.mapIdx fun position (index : ℕ) =>
    InjectedFailure.mk index (modeAt includeTimeouts position)
  failures.insertionSort fun a b => a.index ≤ b.index

namespace ReliabilityRun

/-- `jobs * failure_rate`; `none` if it raises or is not finite. -/
def product (run : ReliabilityRun) : Option ℚ :=
  match run.failureRate with
  | .finite q => Binary64.intMul run.jobs q
  | _ => none

/-- The configuration is one that `run_reliability_proof` accepts, and the plan and the number of
replayed submissions are those it makes of it. -/
structure Planned (shuffle : ℤ → List ℕ → List ℕ) (run : ReliabilityRun) : Prop where
  jobs : 1 ≤ run.jobs
  workers : 1 ≤ run.workers
  rate : floatIsRate run.failureRate = true
  failureCount : ∃ p, run.product = some p ∧ run.failureCount = (Binary64.toInt p).toNat
  failures : run.failures =
    reliabilityPlan shuffle run.seed run.failureCount run.includeTimeouts
  replays : run.idempotencyReplayCount = (List.range run.jobs.toNat).countP
    (submitReliabilityBatch run.runId (fun _ => 0) run.jobs run.failures
      run.repeatIdempotencySubmissions).repeats

/-- The status in which a job ends for the failure injected in it. -/
def endStatus : Option FailureMode → JobStatus
  | some .transient | some .permanent => .failed
  | some .timeout => .timedOut
  | _ => .completed

/-- The jobs of the run, `jobId` of each index, end as the plan says: those with a transient
failure after one retry, and the completed ones with a valid artifact. -/
structure EndsAsPlanned (env : EvidenceEnv) (site : Site) (run : ReliabilityRun)
    (jobId : ℕ → JobId) : Prop where
  distinct : Set.InjOn jobId { i | (i : ℤ) < run.jobs }
  jobs : ∀ j, run.db.runOf j = some run.runId ↔ ∃ i : ℕ, (i : ℤ) < run.jobs ∧ jobId i = j
  status : ∀ i : ℕ, (i : ℤ) < run.jobs → ∃ row, run.db.loadJob (jobId i) = some row ∧
    row.status = endStatus (failureAt run.failures i)
  retries : ∀ i : ℕ, (i : ℤ) < run.jobs →
    (run.db.eventsOf (jobId i)).countP (fun e => e.eventType = .retryScheduled) =
      if failureAt run.failures i = some .transient then 1 else 0
  artifacts : ∀ i : ℕ, (i : ℤ) < run.jobs → ∀ e ∈ run.db.eventsOf (jobId i),
    e.eventType = .completed → ∃ record, ReadsAs (env.onSite site).toReportEnv site.files e record

end ReliabilityRun

/-- Of a position and the ones a round of the deal apart, one has an index in range, if the indexes
are no more than a little beyond the range. -/
theorem exists_position {indexes : List ℕ} {count jobs r len : ℕ}
    (hperm : indexes.Perm (List.range count)) (hr : r < count) (hrlen : r < len) (hlen : len ≤ 4)
    (hcount : 2 ^ 51 * (count - jobs) ≤ jobs) :
    ∃ position index, indexes[position]? = some index ∧ position % len = r ∧ index < jobs := by
  have hlength : indexes.length = count := by rw [hperm.length_eq, List.length_range]
  have hnodup : indexes.Nodup := hperm.nodup_iff.mpr List.nodup_range
  have hlt : ∀ k ∈ Finset.range (count - jobs + 1), r + len * k < indexes.length := by
    intro k hk
    have hk := Finset.mem_range.mp hk
    have hmul : len * k ≤ 4 * (count - jobs) := Nat.mul_le_mul hlen (by omega)
    omega
  by_contra hnone
  push Not at hnone
  have hmaps : ∀ k ∈ Finset.range (count - jobs + 1),
      (indexes[r + len * k]?).getD 0 ∈ Finset.Ico jobs count := by
    intro k hk
    have hk := hlt k hk
    have hget : indexes[r + len * k]? = some indexes[r + len * k] := List.getElem?_eq_getElem hk
    have hmod : (r + len * k) % len = r := by rw [Nat.add_mul_mod_self_left, Nat.mod_eq_of_lt hrlen]
    have hmem := hperm.mem_iff.mp (List.getElem_mem hk)
    rw [hget, Option.getD_some, Finset.mem_Ico]
    exact ⟨hnone _ _ hget hmod, List.mem_range.mp hmem⟩
  have hinj : Set.InjOn (fun k => (indexes[r + len * k]?).getD 0)
      (Finset.range (count - jobs + 1)) := by
    intro k hk k' hk' heq
    have hk := hlt k hk
    have hk' := hlt k' hk'
    simp only [List.getElem?_eq_getElem hk, List.getElem?_eq_getElem hk', Option.getD_some] at heq
    have hmul : len * k = len * k' := Nat.add_left_cancel ((hnodup.getElem_inj_iff).mp heq)
    exact Nat.eq_of_mul_eq_mul_left (by omega) hmul
  have hcard := Finset.card_le_card_of_injOn _ hmaps hinj
  rw [Finset.card_range, Nat.card_Ico] at hcard
  omega

section Plan
variable {shuffle : ℤ → List ℕ → List ℕ} {seed : ℤ} {count : ℕ} {includeTimeouts : Bool}

theorem mem_reliabilityPlan {f : InjectedFailure} :
    f ∈ reliabilityPlan shuffle seed count includeTimeouts ↔ ∃ position, ∃ index : ℕ,
      (shuffle seed (List.range count))[position]? = some index ∧
        f = ⟨index, modeAt includeTimeouts position⟩ := by
  unfold reliabilityPlan
  rw [(List.perm_insertionSort _ _).mem_iff, List.mem_iff_getElem?]
  refine exists_congr fun position => ?_
  rw [List.getElem?_mapIdx, Option.map_eq_some_iff]
  exact exists_congr fun index => and_congr_right fun _ => eq_comm

theorem failureAt_eq_some {failures : List InjectedFailure} {index : ℕ} {mode : FailureMode}
    (hone : ∀ f ∈ failures, ∀ g ∈ failures, f.index = g.index → f = g) :
    failureAt failures index = some mode ↔ ⟨index, mode⟩ ∈ failures := by
  unfold failureAt
  rw [Option.map_eq_some_iff]
  constructor
  · rintro ⟨f, hf, rfl⟩
    have hmem := List.mem_reverse.mp (List.mem_of_find?_eq_some hf)
    have hindex : f.index = index := by simpa using List.find?_some hf
    rwa [← hindex]
  · intro hmem
    have hsome : (failures.reverse.find? fun f => f.index = (index : ℤ)).isSome := by
      rw [List.find?_isSome]
      exact ⟨_, List.mem_reverse.mpr hmem, decide_eq_true rfl⟩
    obtain ⟨f, hf⟩ := Option.isSome_iff_exists.mp hsome
    have hfmem := List.mem_reverse.mp (List.mem_of_find?_eq_some hf)
    have hindex : f.index = index := by simpa using List.find?_some hf
    refine ⟨f, hf, ?_⟩
    rw [hone f hfmem _ hmem hindex]

/-- A mode is injected in some job of the batch exactly when its turn comes. -/
theorem exists_failureAt_iff {jobs r : ℕ} {mode : FailureMode}
    (hshuffle : ∀ seed xs, (shuffle seed xs).Perm xs) (hcount : 2 ^ 51 * (count - jobs) ≤ jobs)
    (hr : r < (reliabilityModes includeTimeouts).length)
    (hturn : ∀ position, modeAt includeTimeouts position = mode ↔
      position % (reliabilityModes includeTimeouts).length = r) :
    (∃ i < jobs, failureAt (reliabilityPlan shuffle seed count includeTimeouts) i = some mode) ↔
      r < count := by
  have hperm := hshuffle seed (List.range count)
  have hnodup : (shuffle seed (List.range count)).Nodup :=
    hperm.nodup_iff.mpr List.nodup_range
  have hone : ∀ f ∈ reliabilityPlan shuffle seed count includeTimeouts,
      ∀ g ∈ reliabilityPlan shuffle seed count includeTimeouts, f.index = g.index → f = g := by
    intro f hf g hg heq
    obtain ⟨p, i, hi, rfl⟩ := mem_reliabilityPlan.mp hf
    obtain ⟨q, j, hj, rfl⟩ := mem_reliabilityPlan.mp hg
    have hij : i = j := by simpa using heq
    subst hij
    obtain ⟨hp, hi⟩ := List.getElem?_eq_some_iff.mp hi
    obtain ⟨hq, hj⟩ := List.getElem?_eq_some_iff.mp hj
    rw [(hnodup.getElem_inj_iff).mp (hi.trans hj.symm)]
  simp only [failureAt_eq_some hone, mem_reliabilityPlan]
  constructor
  · rintro ⟨i, -, position, index, hget, heq⟩
    obtain ⟨hlt, -⟩ := List.getElem?_eq_some_iff.mp hget
    rw [hperm.length_eq, List.length_range] at hlt
    have hmod := (hturn position).mp (congrArg InjectedFailure.mode heq).symm
    exact (hmod ▸ Nat.mod_le _ _).trans_lt hlt
  · intro hturned
    have hlen : (reliabilityModes includeTimeouts).length ≤ 4 := by
      cases includeTimeouts <;> decide
    obtain ⟨position, index, hget, hmod, hlt⟩ := exists_position hperm hturned hr hlen hcount
    refine ⟨index, hlt, position, index, hget, ?_⟩
    rw [(hturn position).mpr hmod]

end Plan

namespace ReliabilityRun
open Deployment
variable {cfg : Deployment} {s : State} {env : EvidenceEnv} {site : Site} {run : ReliabilityRun}
  {jobId : ℕ → JobId}

theorem endStatus_terminal (mode : Option FailureMode) : (endStatus mode).terminal = true := by
  rcases mode with _ | mode
  · rfl
  · cases mode <;> rfl

namespace EndsAsPlanned

theorem rows_perm (h : run.EndsAsPlanned env site jobId) :
    ((run.db.jobsOfRun run.runId).map JobRecord.id).Perm
      ((List.range run.jobs.toNat).map jobId) := by
  have hlt : ∀ i : ℕ, i < run.jobs.toNat ↔ (i : ℤ) < run.jobs := fun i => by omega
  have hnodup : ((List.range run.jobs.toNat).map jobId).Nodup := by
    refine List.nodup_range.map_on fun i hi j hj heq => ?_
    rw [List.mem_range, hlt] at hi hj
    exact h.distinct hi hj heq
  refine (List.perm_ext_iff_of_nodup (run.db.nodup_jobsOfRun run.runId) hnodup).mpr fun j => ?_
  rw [Database.mem_jobsOfRun_ids, h.jobs, List.mem_map]
  simp only [List.mem_range, hlt]

theorem countP_status (h : run.EndsAsPlanned env site jobId) (p : JobStatus → Bool) :
    (run.db.jobsOfRun run.runId).countP (fun row => p row.status) =
      (List.range run.jobs.toNat).countP fun i => p (endStatus (failureAt run.failures i)) := by
  have hrow : ∀ row ∈ run.db.jobsOfRun run.runId,
      (p row.status = true ↔ (run.db.loadJob row.id).any (fun row => p row.status) = true) := by
    intro row hrow
    rw [Database.loadJob_of_mem_jobsOfRun hrow]
    rfl
  have hindex : ∀ i ∈ List.range run.jobs.toNat,
      ((run.db.loadJob (jobId i)).any (fun row => p row.status) = true ↔
        p (endStatus (failureAt run.failures i)) = true) := by
    intro i hi
    rw [List.mem_range] at hi
    obtain ⟨row, hload, hstatus⟩ := h.status i (by omega)
    rw [hload, Option.any_some, hstatus]
  calc (run.db.jobsOfRun run.runId).countP (fun row => p row.status)
      = ((run.db.jobsOfRun run.runId).map JobRecord.id).countP
          fun j => (run.db.loadJob j).any fun row => p row.status := by
        rw [List.countP_map]
        exact List.countP_congr hrow
    _ = ((List.range run.jobs.toNat).map jobId).countP
          fun j => (run.db.loadJob j).any fun row => p row.status := h.rows_perm.countP_eq _
    _ = _ := by
        rw [List.countP_map]
        exact List.countP_congr hindex

theorem exists_index (h : run.EndsAsPlanned env site jobId) {row : JobRecord}
    (hrow : row ∈ run.db.jobsOfRun run.runId) : ∃ i : ℕ, (i : ℤ) < run.jobs ∧ jobId i = row.id :=
  (h.jobs row.id).mp (Database.mem_jobsOfRun_ids.mp (List.mem_map_of_mem hrow))

theorem retryCount_eq (h : run.EndsAsPlanned env site jobId)
    (hs : cfg.lts.Reachable Lts.anyStep s) (hdb : s.shared.db = run.db) :
    (run.db.eventsByJob run.runId).flatten.countP (fun e => e.eventType = .retryScheduled) =
      (List.range run.jobs.toNat).countP fun i => failureAt run.failures i = some .transient := by
  have hcount := countP_eventsByJob hs run.runId fun e => e.eventType = .retryScheduled
  rw [hdb] at hcount
  have hids : ((run.db.jobsOfRun run.runId).map fun row =>
      (run.db.eventsOf row.id).countP fun e => e.eventType = .retryScheduled) =
      ((run.db.jobsOfRun run.runId).map JobRecord.id).map fun j =>
        (run.db.eventsOf j).countP fun e => e.eventType = .retryScheduled := by
    rw [List.map_map]
    rfl
  rw [hcount, hids, (h.rows_perm.map _).sum_eq, List.map_map, ← sum_map_ite]
  refine congrArg List.sum (List.map_congr_left fun i hi => ?_)
  rw [List.mem_range] at hi
  rw [Function.comp_apply, h.retries i (by omega)]
  simp only [decide_eq_true_eq]

theorem completedEvents_eq (h : run.EndsAsPlanned env site jobId)
    (hs : cfg.lts.Reachable Lts.anyStep s) (hdb : s.shared.db = run.db) :
    (run.db.eventsByJob run.runId).flatten.countP (fun e => e.eventType = .completed) =
      (run.db.jobsOfRun run.runId).countP fun row => row.status = .completed := by
  have hcount := countP_eventsByJob hs run.runId fun e => e.eventType = .completed
  rw [hdb] at hcount
  rw [hcount, ← sum_map_ite]
  refine congrArg List.sum (List.map_congr_left fun row hrow => ?_)
  have hload := Database.loadJob_of_mem_jobsOfRun hrow
  obtain ⟨i, hi, hid⟩ := h.exists_index hrow
  obtain ⟨row', hload', hstatus⟩ := h.status i hi
  rw [hid, hload] at hload'
  obtain rfl := Option.some.inj hload'
  have hlawful := history_lawful hs row.id
  rw [hdb] at hlawful
  obtain ⟨e, he, htype⟩ := hlawful.terminalEvents_eq hload (hstatus ▸ endStatus_terminal _)
  have hcompleted : ∀ e : JobEvent, decide (e.eventType = .completed) = true →
      e.eventType.status.terminal = true := by
    intro e he
    rw [of_decide_eq_true he]
    rfl
  have hterminal := JobHistory.countP_terminalEvents (run.db.eventsOf row.id) hcompleted
  rw [hterminal, show terminalEvents (run.db.eventsOf row.id) = [e] from he, List.countP_singleton]
  have hiff : e.eventType = .completed ↔ row.status = .completed := by
    rw [← htype]
    exact ⟨fun h => by rw [h]; rfl, EventType.eq_completed⟩
  simp only [decide_eq_true_eq, hiff]

/-- The report of a run that ended as planned is built, and it has the counts of the plan. -/
theorem report_of_run (h : run.EndsAsPlanned env site jobId)
    (hs : cfg.lts.Reachable Lts.anyStep s) (hdb : s.shared.db = run.db) (hjobs : 1 ≤ run.jobs)
    (hdiv : ∀ n, 0 < n → env.trueDiv n n = .finite 1) : ∃ report rows,
    buildSmokeReport (env.onSite site).toReportEnv site.files run.db run.runId
      site.artifactRoot.name run.measured = .ok report ∧
    (report.submittedJobs : ℤ) = run.jobs ∧
    (terminalCount report.lifecycleCounts : ℤ) = run.jobs ∧
    report.duplicateFinalizationCount = 0 ∧ report.artifactCompleteness = .finite 1 ∧
    report.artifactIntegrity = some ⟨report.lifecycleCounts.get "completed",
      report.lifecycleCounts.get "completed", rows⟩ ∧
    report.retryCount = (List.range run.jobs.toNat).countP
      (fun i => failureAt run.failures i = some .transient) ∧
    report.lifecycleCounts.get "timed_out" = (List.range run.jobs.toNat).countP
      fun i => failureAt run.failures i = some .timeout := by
  have hwellFormed := wellFormed_reachable hs
  obtain ⟨ids, -, hids, hgroups⟩ := eventsByJob_eq hs run.runId
  have hduplicates := (first_finalization_wins hs 0).2.2.2.2.2.2 run.runId
  rw [hdb] at hwellFormed hids hgroups hduplicates
  have hevents : ∀ e ∈ (run.db.eventsByJob run.runId).flatten,
      e ∈ run.db.jobEvents ∧ ∃ i : ℕ, (i : ℤ) < run.jobs ∧ e ∈ run.db.eventsOf (jobId i) := by
    intro e he
    rw [hgroups] at he
    obtain ⟨es, hes, he⟩ := List.mem_flatten.mp he
    obtain ⟨j, hj, rfl⟩ := List.mem_map.mp hes
    obtain ⟨i, hi, rfl⟩ := (h.jobs j).mp ((hids j).mp hj)
    exact ⟨List.mem_of_mem_filter he, i, hi, he⟩
  have hread : ∀ e ∈ (run.db.eventsByJob run.runId).flatten,
      ∃ rows, artifactRows (env.onSite site).toReportEnv site.files e = .ok rows := by
    intro e he
    obtain ⟨-, i, hi, he⟩ := hevents e he
    by_cases htype : e.eventType = .completed
    · obtain ⟨record, hrecord⟩ := h.artifacts i hi e he htype
      exact ⟨[record], artifactRows_of_readsAs htype hrecord⟩
    · exact ⟨[], if_pos htype⟩
  obtain ⟨rss, hrss⟩ := exists_mapM_ok hread
  have hrows := (rows_of_mapM (fun e he => hwellFormed.result e (hevents e he).1) hrss).length_eq
  rw [← List.countP_eq_length_filter, h.completedEvents_eq hs hdb,
    ← lifecycleCounts_completed] at hrows
  have hlength := h.rows_perm.length_eq
  rw [List.length_map, List.length_map, List.length_range] at hlength
  refine ⟨_, rss.flatten, by rw [buildSmokeReport, hrss]; rfl, ?_, ?_, hduplicates, ?_, ?_,
    h.retryCount_eq hs hdb, ?_⟩
  · simp only [hlength]
    omega
  · have hall := h.countP_status JobStatus.terminal
    simp only [endStatus_terminal, List.countP_true, List.length_range] at hall
    simp only [terminalCount_lifecycleCounts, hall]
    omega
  · simp only [← hrows]
    split
    next => rfl
    next hne => exact hdiv _ (Nat.pos_of_ne_zero hne)
  · simp only [← hrows]
  · have htimeout := h.countP_status fun status => lifecycleKey status = "timed_out"
    refine Eq.trans (b := _) htimeout (List.countP_congr fun i _ => ?_)
    rcases failureAt run.failures i with _ | mode
    · simp [endStatus, lifecycleKey]
    · cases mode <;> simp [endStatus, lifecycleKey]

end EndsAsPlanned

/-- Some job has the mode injected exactly when the product reaches the mode's turn. -/
theorem Planned.countP_eq_zero_iff {shuffle : ℤ → List ℕ → List ℕ} {p : ℚ} {mode : FailureMode}
    (h : run.Planned shuffle) (hshuffle : ∀ seed xs, (shuffle seed xs).Perm xs)
    (hp : run.product = some p) {r : ℕ} {turn : ℚ} (hrank : turn = r + 1)
    (hr : r < (reliabilityModes run.includeTimeouts).length)
    (hturn : ∀ t, (reliabilityModes run.includeTimeouts).get t = mode ↔ (t : ℕ) = r) :
    (List.range run.jobs.toNat).countP (fun i => failureAt run.failures i = some mode) = 0 ↔
      ¬ turn ≤ p := by
  subst hrank
  obtain ⟨p', hp', hcount⟩ := h.failureCount
  obtain rfl := Option.some.inj (hp.symm.trans hp')
  have hrate := h.rate
  have hproduct := hp
  unfold product at hproduct
  cases hq : run.failureRate with
  | infinity negative => simp [hq] at hproduct
  | nan => simp [hq] at hproduct
  | finite q =>
    simp only [hq] at hproduct hrate
    obtain ⟨hq0, hq1⟩ := Bool.and_eq_true_iff.mp hrate
    have hq0 := of_decide_eq_true hq0
    have hq1 := of_decide_eq_true hq1
    have hbound := Binary64.toInt_intMul_le h.jobs hq0 hq1 hproduct
    have hnonneg := (Binary64.intMul_bound h.jobs hq0 hq1 hproduct).1
    have hcount' : 2 ^ 51 * (run.failureCount - run.jobs.toNat) ≤ run.jobs.toNat := by omega
    have hiff := @exists_failureAt_iff shuffle run.seed run.failureCount run.includeTimeouts
      run.jobs.toNat r mode hshuffle hcount' hr fun position => hturn _
    rw [← h.failures] at hiff
    have hreach : r < run.failureCount ↔ (r + 1 : ℚ) ≤ p := by
      have hle : (r : ℤ) + 1 ≤ Binary64.toInt p ↔ _ := Binary64.le_toInt hnonneg
      push_cast at hle
      rw [← hle, hcount, Int.lt_toNat, Int.add_one_le_iff]
    rw [← hreach, ← hiff, List.countP_eq_zero]
    simp only [List.mem_range, decide_eq_true_eq]
    push Not
    rfl

/-- A run of the v1 proof that ends as planned passes the validation exactly when the number of
failures reaches the place of each mode that the validation asks for. -/
theorem reliability_proof_passes_iff {shuffle : ℤ → List ℕ → List ℕ} {p : ℚ}
    (hs : cfg.lts.Reachable Lts.anyStep s) (hdb : s.shared.db = run.db)
    (hshuffle : ∀ seed xs, (shuffle seed xs).Perm xs)
    (hdiv : ∀ n, 0 < n → env.trueDiv n n = .finite 1) (hplanned : run.Planned shuffle)
    (hends : run.EndsAsPlanned env site jobId) (hp : run.product = some p) :
    ∃ report, buildSmokeReport (env.onSite site).toReportEnv site.files run.db run.runId
        site.artifactRoot.name run.measured = .ok report ∧
      (run.valid (run.report site report) = true ↔
        (floatPositive run.failureRate = true → 1 ≤ p) ∧ (run.includeTimeouts = true → 4 ≤ p) ∧
          (run.repeatIdempotencySubmissions = true → 3 ≤ p)) := by
  obtain ⟨report, rows, hbuild, hsubmitted, hterminal, hduplicates, hcompleteness, hintegrity,
    hretries, htimeouts⟩ := hends.report_of_run hs hdb hplanned.jobs hdiv
  refine ⟨report, hbuild, ?_⟩
  have htransient := @Planned.countP_eq_zero_iff run shuffle p .transient hplanned hshuffle hp
    0 1 (by norm_num) (reliabilityModes_length_pos _) (turn_transient _)
  have hduplicate := @Planned.countP_eq_zero_iff run shuffle p .duplicateSubmission hplanned
    hshuffle hp 2 3 (by norm_num) (turn_duplicateSubmission _).1 (turn_duplicateSubmission _).2
  have htimeout := fun hinclude => @Planned.countP_eq_zero_iff run shuffle p .timeout hplanned
    hshuffle hp 3 4 (by norm_num) (turn_timeout _ hinclude).1 (turn_timeout _ hinclude).2
  have hreplays : run.repeatIdempotencySubmissions = true →
      (run.idempotencyReplayCount = 0 ↔ ¬ 3 ≤ p) := by
    intro hrepeat
    rw [hplanned.replays, ← hduplicate]
    simp only [submitReliabilityBatch, hrepeat, Bool.true_and]
  have hvalid : run.valid (run.report site report) = true ↔
      (floatPositive run.failureRate = true → report.retryCount ≠ 0) ∧
      (run.includeTimeouts = true → report.lifecycleCounts.get "timed_out" ≠ 0) ∧
      (run.repeatIdempotencySubmissions = true → run.idempotencyReplayCount ≠ 0) := by
    have hor : ∀ (b : Bool) (q : Prop), (b = false ∨ q) ↔ (b = true → q) := by
      intro b q
      cases b <;> simp
    simp [valid, ReliabilityRun.report, hsubmitted, hterminal, hduplicates, hcompleteness,
      hintegrity, floatLtOne, hor, and_assoc]
  rw [hvalid, hretries, htimeouts]
  refine and_congr (imp_congr_right fun _ => ?_) (and_congr (imp_congr_right fun hinclude => ?_)
    (imp_congr_right fun hrepeat => ?_))
  · rw [ne_eq, htransient, not_not]
  · rw [ne_eq, htimeout hinclude, not_not]
  · rw [ne_eq, hreplays hrepeat, not_not]

/-- The job of one index meets a transient error at both of its attempts. -/
def transientRun : List (ℕ × Action) :=
  [(0, .createJob stubSubmission), (0, .publishJob 1 1), (1, .processOne), (1, .advance ""),
    (1, .run [] (.transientError "TransientRunnerError")), (1, .advance ""), (1, .advance ""),
    (1, .advance ""), (1, .finish), (1, .processOne), (1, .advance ""),
    (1, .run [] (.transientError "TransientRunnerError")), (1, .advance "")]

/-- One job with a failure rate of one. -/
def transientProof (db : Database) (includeTimeouts : Bool) : ReliabilityRun where
  db := db
  runId := 2
  measured := ⟨.finite 0, .finite 0, none⟩
  origin := ⟨py "2026-06-12T00:00:01+00:00", [], []⟩
  jobs := 1
  workers := 1
  failureRate := .finite 1
  includeTimeouts := includeTimeouts
  repeatIdempotencySubmissions := false
  seed := 42
  failures := [⟨0, .transient⟩]
  failureCount := 1
  idempotencyReplayCount := 0

theorem transientProof_product (db : Database) (includeTimeouts : Bool) :
    (transientProof db includeTimeouts).product = some 1 := by
  simp [product, transientProof, Binary64.intMul, Binary64.round_one]

/-- One index stays where it is in every order. -/
theorem transientProof_planned (db : Database) (includeTimeouts : Bool) :
    (transientProof db includeTimeouts).Planned fun _ xs => xs where
  jobs := le_refl (1 : ℤ)
  workers := le_refl (1 : ℤ)
  rate := by simp [transientProof, floatIsRate]
  failureCount := ⟨1, transientProof_product db includeTimeouts, by
    simp [Binary64.toInt, transientProof]⟩
  failures := by cases includeTimeouts <;> rfl
  replays := by cases includeTimeouts <;> rfl

private def endsTransient (db : Database) : Bool :=
  decide (db.jobs.rows.map (fun row => (row.id, row.runId, row.status)) = [(1, 2, .failed)]) &&
  decide ((db.eventsOf 1).countP (fun e => e.eventType = .retryScheduled) = 1) &&
  (db.eventsOf 1).all fun e => e.eventType ≠ .completed

private theorem ends_of_endsTransient {db : Database} (includeTimeouts : Bool)
    (h : endsTransient db = true) :
    (transientProof db includeTimeouts).EndsAsPlanned env site fun _ => 1 := by
  simp only [endsTransient, Bool.and_eq_true, decide_eq_true_eq] at h
  obtain ⟨⟨hrows, hretries⟩, hcompleted⟩ := h
  obtain ⟨row, hrows, hrow⟩ := List.map_eq_singleton_iff.mp hrows
  obtain ⟨hid, hrunId, hstatus⟩ := by simpa using hrow
  have hload : db.loadJob 1 = some row :=
    KeyedTable.get?_eq_some_iff.mpr ⟨hrows ▸ List.mem_cons_self, hid⟩
  have hzero : ∀ i : ℕ, (i : ℤ) < (transientProof db includeTimeouts).jobs → i = 0 := by
    intro i hi
    have hi : (i : ℤ) < 1 := hi
    omega
  refine ⟨fun i hi j hj _ => (hzero i hi).trans (hzero j hj).symm, fun j => ?_, ?_, ?_, ?_⟩
  · constructor
    · intro hj
      obtain ⟨row', hrow', -⟩ := Option.map_eq_some_iff.mp hj
      obtain ⟨hmem, hid'⟩ := KeyedTable.get?_eq_some_iff.mp hrow'
      rw [show (transientProof db includeTimeouts).db = db from rfl, hrows,
        List.mem_singleton] at hmem
      have hj : j = 1 := hid'.symm.trans ((congrArg JobRecord.id hmem).trans hid)
      exact ⟨0, Int.zero_lt_one, hj.symm⟩
    · rintro ⟨-, -, rfl⟩
      exact Option.map_eq_some_iff.mpr ⟨row, hload, hrunId⟩
  · intro i hi
    rw [hzero i hi]
    exact ⟨row, hload, hstatus⟩
  · intro i hi
    rw [hzero i hi]
    exact hretries
  · intro i _ e he htype
    exact absurd htype (by simpa using List.all_eq_true.mp hcompleted e he)

private theorem exists_endsTransient : ∃ s, stubDeployment.lts.Reachable Lts.anyStep s ∧
    endsTransient s.shared.db = true :=
  Lts.exists_reachable_of_exec stubDeployment.lts transientRun
    (fun s => endsTransient s.shared.db) (by decide +kernel)

private theorem proofEnv_trueDiv (n : ℕ) (hn : 0 < n) : proofEnv.trueDiv n n = .finite 1 := by
  have hne : (n : ℚ) ≠ 0 := Nat.cast_ne_zero.mpr hn.ne'
  simp [proofEnv, reportEnv, hne]

theorem reliability_proof_passes_iff_transient : ∃ s report,
    stubDeployment.lts.Reachable Lts.anyStep s ∧
    (transientProof s.shared.db false).valid
      ((transientProof s.shared.db false).report (siteBelow (py "a")) report) = true := by
  obtain ⟨s, hs, hends⟩ := exists_endsTransient
  obtain ⟨report, -, hiff⟩ := @reliability_proof_passes_iff _ _ proofEnv.toEvidenceEnv
    (siteBelow (py "a")) _ _ _ _ hs rfl (fun _ xs => List.Perm.refl xs) proofEnv_trueDiv
    (transientProof_planned s.shared.db false)
    (ends_of_endsTransient false hends) (transientProof_product s.shared.db false)
  exact ⟨s, report, hs, hiff.mpr ⟨fun _ => le_rfl, nofun, nofun⟩⟩

/-- With timeouts asked for, one job is too few for the plan to deal one. -/
theorem reliability_proof_rejects : ¬ ∀ s, stubDeployment.lts.Reachable Lts.anyStep s →
    ∀ run : ReliabilityRun, s.shared.db = run.db → run.Planned (fun _ xs => xs) →
    run.EndsAsPlanned proofEnv.toEvidenceEnv (siteBelow (py "a")) (fun _ => 1) →
    ∀ report, buildSmokeReport (proofEnv.toEvidenceEnv.onSite (siteBelow (py "a"))).toReportEnv
        (siteBelow (py "a")).files run.db run.runId (siteBelow (py "a")).artifactRoot.name
        run.measured = .ok report →
      run.valid (run.report (siteBelow (py "a")) report) = true := by
  intro claim
  obtain ⟨s, hs, hends⟩ := exists_endsTransient
  have hends : (transientProof s.shared.db true).EndsAsPlanned proofEnv.toEvidenceEnv
    (siteBelow (py "a")) fun _ => 1 := ends_of_endsTransient true hends
  obtain ⟨report, rows, hbuild, -, -, -, -, -, -, htimeouts⟩ :=
    hends.report_of_run hs rfl (transientProof_planned s.shared.db true).jobs proofEnv_trueDiv
  have hvalid := claim s hs (transientProof s.shared.db true) rfl (transientProof_planned _ true)
    hends report hbuild
  have hzero : report.lifecycleCounts.get "timed_out" = 0 := htimeouts.trans (by rfl)
  have hinclude : (transientProof s.shared.db true).includeTimeouts = true := rfl
  simp [valid, ReliabilityRun.report, hzero, hinclude] at hvalid

end ReliabilityRun
end AgentRuntimeGrid
