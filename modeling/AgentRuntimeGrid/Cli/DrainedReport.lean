import AgentRuntimeGrid.Cli.Classification
import AgentRuntimeGrid.Cli.DrainedArtifacts
import AgentRuntimeGrid.Runtime.Quiescence

/-! The report of a batch that the drain loop has left. It depends on the outcomes of the attempts
alone, and its validation accepts the batch exactly when every job ends with a success. -/
namespace AgentRuntimeGrid

variable {env : ReportEnv} {files : FileStore} {p : Pool} {jobs : List JobRecord}
  {job : JobRecord} {n : ℕ}

theorem artifactRows_of_verified {e : JobEvent}
    (h : e.eventType = .completed → ∃ result m, e.eventData.result = some result ∧
      result.artifact = some m ∧ m.Verified env files) :
    ∃ rows, artifactRows env files e = .ok rows := by
  by_cases htype : e.eventType = .completed
  · obtain ⟨result, m, hresult, hartifact, hverified⟩ := h htype
    refine ⟨[m.record env], artifactRows_of_readsAs htype
      ⟨result, m.toDict env, hresult, ?_, hverified.readsBack, hverified.intact⟩⟩
    rw [JobResult.artifactEntry, hartifact]
  · exact ⟨[], if_pos htype⟩

theorem Database.mem_eventsByJob {db : Database} {runId : RunId} {e : JobEvent}
    (h : e ∈ (db.eventsByJob runId).flatten) : e ∈ db.jobEvents ∧ e.runId = runId := by
  obtain ⟨es, hes, he⟩ := List.mem_flatten.mp h
  obtain ⟨j, -, rfl⟩ := List.mem_map.mp hes
  obtain ⟨he, hrun⟩ := List.mem_filter.mp (List.mem_of_mem_filter he)
  exact ⟨he, of_decide_eq_true hrun⟩

theorem Drained.status {h : JobHistory} (hdrained : Drained p job h) (hlawful : h.Lawful) :
    ∃ row, h.row = some row ∧ row.status = (p.verdict job (p.retries job)).status := by
  obtain ⟨row, hrow, -⟩ := hdrained.terminal
  refine ⟨row, hrow, ?_⟩
  have hlog := hdrained.log
  unfold Pool.drainedLog at hlog
  obtain ⟨es, es', hes, -, hlast⟩ := List.map_eq_append_iff.mp hlog
  obtain ⟨e₁, es₁, rfl, -, hlast⟩ := List.map_eq_cons_iff.mp hlast
  obtain ⟨e₂, es₂, rfl, htype, hnil⟩ := List.map_eq_cons_iff.mp hlast
  obtain rfl := List.map_eq_nil_iff.mp hnil
  have hreplay := hlawful.status row hrow
  rw [hes, show es ++ [e₁, e₂] = (es ++ [e₁]) ++ [e₂] by simp, replay_append] at hreplay
  rw [← Option.some.inj hreplay, show e₂.eventType = _ from congrArg Prod.fst htype]
  rfl

theorem Drained.countP_eq {db : Database} (hdrained : Drained p job (db.history job.id))
    (t : EventType) : (db.eventsOf job.id).countP (fun e => e.eventType = t) =
      (p.drainedLog job).countP fun l => l.1 = t := by
  have hlog : (db.eventsOf job.id).map JobEvent.logEntry = p.drainedLog job := hdrained.log
  rw [← hlog, List.countP_map]
  rfl

theorem Drained.retries {db : Database} (hdrained : Drained p job (db.history job.id)) :
    (db.eventsOf job.id).countP (fun e => e.eventType = .retryScheduled) = p.retries job := by
  have hretries : ∀ k, (retriesLog k).countP (fun l => decide (l.1 = .retryScheduled)) = k := by
    intro k
    induction k with
    | zero => rfl
    | succ k ih =>
      rw [retriesLog, List.countP_append, ih]
      rfl
  have hverdict : p.verdict job (p.retries job) ≠ .retryScheduled := by
    intro heq
    have hterminal := p.verdict_terminal job (p.retries job)
    rw [heq] at hterminal
    cases hterminal
  rw [hdrained.countP_eq, Pool.drainedLog, List.countP_append, hretries]
  simp [attemptEntry, hverdict]

theorem Drained.completions {db : Database} (hdrained : Drained p job (db.history job.id)) :
    (db.eventsOf job.id).countP (fun e => e.eventType = .completed) =
      if p.verdict job (p.retries job) = .completed then 1 else 0 := by
  have hnone : ∀ k, (retriesLog k).countP (fun l => decide (l.1 = .completed)) = 0 := by
    intro k
    rw [List.countP_eq_zero]
    intro l hl htype
    refine completed_notMem_retriesLog k l.2 ?_
    rwa [← of_decide_eq_true htype]
  rw [hdrained.countP_eq, Pool.drainedLog, List.countP_append, hnone]
  simp [attemptEntry, List.countP_cons]

theorem exists_buildSmokeReport {db : Database} {runId : RunId} (name : PyStr)
    (measured : Measurements) {rss : List (List ArtifactRecord)}
    (h : (db.eventsByJob runId).flatten.mapM (artifactRows env files) = .ok rss) :
    ∃ report, buildSmokeReport env files db runId name measured = .ok report ∧
      report.submittedJobs = (db.jobsOfRun runId).length ∧
      report.lifecycleCounts = lifecycleCounts (db.jobsOfRun runId) ∧
      report.duplicateFinalizationCount = db.duplicateTerminalEventCount (some runId) ∧
      report.retryCount = (db.eventsByJob runId).flatten.countP
        (fun e => e.eventType = .retryScheduled) ∧
      report.artifactCompleteness = (if (lifecycleCounts (db.jobsOfRun runId)).get "completed" = 0
        then .finite 1 else env.trueDiv rss.flatten.length
          ((lifecycleCounts (db.jobsOfRun runId)).get "completed")) ∧
      report.estimatedCostUsd = "0" ∧
      report.artifactIntegrity = some ⟨rss.flatten.length, rss.flatten.length, rss.flatten⟩ := by
  unfold buildSmokeReport
  simp only [h]
  exact ⟨_, rfl, rfl, rfl, rfl, rfl, rfl, rfl, rfl⟩

namespace Deployment
variable {cfg : Deployment} {s : State} {runId : RunId}

theorem perm_jobsOfRun {ids : List JobId} (hnodup : ids.Nodup)
    (hids : ∀ j, j ∈ ids ↔ s.shared.db.runOf j = some runId) :
    ((s.shared.db.jobsOfRun runId).map JobRecord.id).Perm ids := by
  refine (List.perm_ext_iff_of_nodup ?_ hnodup).mpr fun j => ?_
  · exact s.shared.db.jobs.nodup.sublist (List.filter_sublist.map _)
  · rw [hids, List.mem_map]
    constructor
    · rintro ⟨row, hrow, rfl⟩
      obtain ⟨hmem, hrun⟩ := List.mem_filter.mp hrow
      have hget : s.shared.db.loadJob row.id = some row :=
        KeyedTable.get?_eq_some_iff.mpr ⟨hmem, rfl⟩
      rw [Database.runOf, hget]
      exact congrArg some (of_decide_eq_true hrun)
    · intro hj
      obtain ⟨row, hrow, hrun⟩ := Option.map_eq_some_iff.mp hj
      obtain ⟨hmem, hid⟩ := KeyedTable.get?_eq_some_iff.mp hrow
      exact ⟨row, List.mem_filter.mpr ⟨hmem, decide_eq_true hrun⟩, hid⟩

theorem duplicates_eq_zero (hs : cfg.lts.Reachable Lts.anyStep s) (runId : Option RunId) :
    s.shared.db.duplicateTerminalEventCount runId = 0 := by
  refine Database.duplicateTerminalEventCount_eq_zero (fun j => ?_) runId
  have hterminal := congrArg List.length (history_lawful hs j).terminal
  rw [List.length_map] at hterminal
  refine hterminal.trans_le ?_
  cases (s.shared.db.history j).finalization <;> simp

end Deployment

/-- What the report says of a batch that has been drained: the outcomes of its attempts alone. -/
structure ReliabilityReport.OfDrained (p : Pool) (jobs : List JobRecord)
    (report : ReliabilityReport) : Prop where
  submitted : report.submittedJobs = jobs.length
  terminal : terminalCount report.lifecycleCounts = jobs.length
  completed : report.lifecycleCounts.get "completed" =
    jobs.countP fun job => p.verdict job (p.retries job) = .completed
  duplicates : report.duplicateFinalizationCount = 0
  retries : report.retryCount = (jobs.map p.retries).sum
  completeness : report.artifactCompleteness = .finite 1
  cost : report.estimatedCostUsd = "0"
  integrity : ∃ rows, report.artifactIntegrity =
    some ⟨jobs.countP fun job => p.verdict job (p.retries job) = .completed,
      jobs.countP fun job => p.verdict job (p.retries job) = .completed, rows⟩

/-- The check of a drained batch asks for the success of its jobs and for nothing else. -/
theorem ReliabilityReport.OfDrained.validate_iff {report : ReliabilityReport}
    (h : report.OfDrained p jobs) : validateSmokeReport env report jobs.length = .ok () ↔
      ∀ job ∈ jobs, p.verdict job (p.retries job) = .completed := by
  constructor
  · intro hvalid job hjob
    have hall := (Deployment.validateSmokeReport_eq_ok hvalid).2
    rw [h.completed, Nat.cast_inj, List.countP_eq_length] at hall
    exact of_decide_eq_true (hall job hjob)
  · intro hall
    have hlast : jobs.countP (fun job => p.verdict job (p.retries job) = .completed) =
        jobs.length := List.countP_eq_length.mpr fun job hjob => decide_eq_true (hall job hjob)
    have hcompleted := h.completed.trans (congrArg Nat.cast hlast)
    obtain ⟨rows, hintegrity⟩ := h.integrity
    rw [hlast] at hintegrity
    have hone : floatLtOne (.finite 1) = false := rfl
    have hnone : smokeReportErrors env report jobs.length = [] := by
      unfold smokeReportErrors
      simp [h.submitted, h.terminal, hcompleted, h.duplicates, h.completeness, h.cost, hintegrity,
        hone]
    rw [validateSmokeReport, hnone]

section Batch
variable {s₀ : Deployment.State} {s : Drain n} {runId : RunId}

private theorem runOf_drained (hgrows : s₀.shared.Grows s.grid)
    (hframe : ∀ j, j ∉ jobs.map JobRecord.id → s.grid.db.history j = s₀.shared.db.history j)
    (hrun : ∀ j, s₀.shared.db.runOf j = some runId ↔ j ∈ jobs.map JobRecord.id) (j : JobId) :
    s.grid.db.runOf j = some runId ↔ j ∈ jobs.map JobRecord.id := by
  by_cases hj : j ∈ jobs.map JobRecord.id
  · refine iff_of_true ?_ hj
    obtain ⟨row, hrow, hrunId⟩ := Option.map_eq_some_iff.mp ((hrun j).mpr hj)
    obtain ⟨row', hrow', hsame⟩ := hgrows.loadJob hrow
    rw [Database.runOf, hrow']
    exact congrArg some (hsame.runId_eq.trans hrunId)
  · rw [← hrun j, Database.runOf, Database.runOf,
      show s.grid.db.loadJob j = _ from congrArg JobHistory.row (hframe j hj)]
    rfl

/-- Counts over the rows of the run and over the jobs of the batch. -/
private theorem countP_drained {u : Deployment.State}
    (hu : p.deployment.lts.Reachable Lts.anyStep u)
    (hdrained : ∀ job ∈ jobs, Drained p job (u.shared.db.history job.id))
    (hperm : ((u.shared.db.jobsOfRun runId).map JobRecord.id).Perm (jobs.map JobRecord.id))
    (q : JobStatus → Bool) :
    (u.shared.db.jobsOfRun runId).countP (fun row => q row.status) =
      jobs.countP fun job => q (p.verdict job (p.retries job)).status := by
  let f : JobId → Bool := fun j => (u.shared.db.loadJob j).any fun row => q row.status
  have hrows : (u.shared.db.jobsOfRun runId).countP (fun row => q row.status) =
      ((u.shared.db.jobsOfRun runId).map JobRecord.id).countP f := by
    rw [List.countP_map]
    refine List.countP_congr fun row hrow => ?_
    have hget : u.shared.db.loadJob row.id = some row :=
      KeyedTable.get?_eq_some_iff.mpr ⟨List.mem_of_mem_filter hrow, rfl⟩
    simp only [Function.comp_apply, f, hget, Option.any_some]
  have hjobs : (jobs.map JobRecord.id).countP f =
      jobs.countP fun job => q (p.verdict job (p.retries job)).status := by
    rw [List.countP_map]
    refine List.countP_congr fun job hjob => ?_
    obtain ⟨row, hrow, hstatus⟩ :=
      (hdrained job hjob).status (Deployment.history_lawful hu job.id)
    have hget : u.shared.db.loadJob job.id = some row := hrow
    simp only [Function.comp_apply, f, hget, Option.any_some, hstatus]
  rw [hrows, hperm.countP_eq, hjobs]

/-- Sums over the logs of the run and over the jobs of the batch. -/
private theorem countP_events {db : Database} {ids : List JobId}
    (hperm : ids.Perm (jobs.map JobRecord.id)) (t : EventType) :
    (ids.map db.eventsOf).flatten.countP (fun e => e.eventType = t) =
      (jobs.map fun job => (db.eventsOf job.id).countP fun e => e.eventType = t).sum := by
  rw [List.countP_flatten, List.map_map, (hperm.map _).sum_eq, List.map_map]
  rfl

theorem Pool.exists_drained_report (hs₀ : p.deployment.lts.Reachable Lts.anyStep s₀)
    (hidle : ∀ k, s₀.locals k = .idle) (hbatch : s₀.shared.Batch jobs)
    (hrun : ∀ j, s₀.shared.db.runOf j = some runId ↔ j ∈ jobs.map JobRecord.id) (hn : 0 < n)
    (hrecords : p.Records s₀.shared.files)
    (hdispatch : ∀ job ∈ jobs, p.budgetPolicy.validateJobDispatch job = .ok ())
    (hp : p.Verifiable env jobs)
    (hs : (p.drain n s₀.shared).Reachable (Drain.ClockTexts env) s) (hexited : s.exited = true)
    (name : PyStr) (measured : Measurements) :
    ∃ report, buildSmokeReport env s.grid.files s.grid.db runId name measured = .ok report ∧
      report.OfDrained p jobs := by
  have hstart : (p.drain n s₀.shared).init.toState = s₀ := by
    refine congrArg (Actors.mk s₀.shared) (funext fun k => ?_)
    rw [hidle k]
    exact dite_eq_ite.trans (ite_self _)
  have hrunTo : p.deployment.lts.Run Lts.anyStep s₀ s.toState := by
    have hrunTo := Pool.drain_run (p := p) (n := n) (g := s₀.shared) hs.weaken
    rwa [hstart] at hrunTo
  have hu : p.deployment.lts.Reachable Lts.anyStep s.toState := hs₀.trans hrunTo
  obtain ⟨hinv, hkept⟩ := Drain.kept_reachable hbatch hp hrecords hdispatch hs
  obtain ⟨-, hdrained⟩ := hinv.drained hn hexited
  have hrunOf := runOf_drained (Deployment.grows_of_run hrunTo) hinv.frame hrun
  obtain ⟨ids, hnodup, hids, hgroups⟩ := Deployment.eventsByJob_eq hu runId
  have hperm : ids.Perm (jobs.map JobRecord.id) :=
    (List.perm_ext_iff_of_nodup hnodup hbatch.nodup).mpr fun j => (hids j).trans (hrunOf j)
  have hrows := (Deployment.perm_jobsOfRun hnodup hids).trans hperm
  have hcount := fun q => countP_drained hu hdrained hrows q
  have hlength : (s.grid.db.jobsOfRun runId).length = jobs.length := by
    have := hrows.length_eq
    rwa [List.length_map, List.length_map] at this
  -- every completed event of the run is of a job of the batch, whose artifact is kept
  obtain ⟨rss, hrss⟩ : ∃ rss, (s.grid.db.eventsByJob runId).flatten.mapM
      (artifactRows env s.grid.files) = .ok rss := by
    refine exists_mapM_ok fun e he => artifactRows_of_verified fun htype => ?_
    obtain ⟨hmem, hrunId⟩ := Database.mem_eventsByJob he
    have hjob := ((Deployment.attributed_reachable hu).events e hmem).runOf_eq
    rw [hrunId] at hjob
    obtain ⟨result, hresult, m, hartifact, -, hverified⟩ :=
      hkept.recorded e hmem htype ((hrunOf _).mp hjob)
    exact ⟨result, m, hresult, hartifact, hverified⟩
  obtain ⟨report, hbuild, hsubmitted, hcounts, hduplicates, hretries, hcompleteness, hcost,
    hintegrity⟩ := exists_buildSmokeReport name measured hrss
  have hgroups : s.grid.db.eventsByJob runId = ids.map s.grid.db.eventsOf := hgroups
  have hcompleted : report.lifecycleCounts.get "completed" =
      jobs.countP (fun job => p.verdict job (p.retries job) = .completed) := by
    rw [hcounts, Deployment.lifecycleCounts_completed]
    refine (hcount fun status => decide (status = .completed)).trans
      (List.countP_congr fun job _ => ?_)
    cases p.verdict job (p.retries job) <;> decide
  have hchecked : rss.flatten.length =
      jobs.countP (fun job => p.verdict job (p.retries job) = .completed) := by
    have hshape : ∀ e ∈ (s.grid.db.eventsByJob runId).flatten,
        e.eventType = .completed → e.eventData.result.isSome = true := fun e he =>
      (Deployment.wellFormed_reachable hu).result e (Database.mem_eventsByJob he).1
    rw [← (rows_of_mapM hshape hrss).length_eq, ← List.countP_eq_length_filter, hgroups,
      countP_events hperm, List.map_congr_left fun job hjob => (hdrained job hjob).completions]
    simpa using sum_map_ite (fun job => decide (p.verdict job (p.retries job) = .completed)) jobs
  exact ⟨report, hbuild, {
    submitted := hsubmitted.trans hlength
    terminal := by
      rw [hcounts, terminalCount_lifecycleCounts]
      exact (hcount JobStatus.terminal).trans
        (List.countP_eq_length.mpr fun job _ => p.verdict_terminal job _)
    completed := hcompleted
    duplicates := hduplicates.trans (Deployment.duplicates_eq_zero hu _)
    retries := by
      rw [hretries, hgroups, countP_events hperm]
      exact congrArg List.sum (List.map_congr_left fun job hjob => (hdrained job hjob).retries)
    completeness := by
      rw [hcompleteness]
      split
      next => rfl
      next hne =>
        rw [← hcounts, hcompleted] at hne ⊢
        rw [hchecked]
        exact hp.documented.trueDiv_self _ (Nat.pos_of_ne_zero hne)
    cost := hcost
    integrity := ⟨rss.flatten, by rw [hintegrity, hchecked]⟩ }⟩

/-- Whatever the number of workers and the order of their steps, the report of the run that they
leave is built, its numbers are those the outcomes determine, and its validation accepts it exactly
when the last attempt of every job succeeds. -/
theorem Pool.drained_report_accepted_iff (hs₀ : p.deployment.lts.Reachable Lts.anyStep s₀)
    (hidle : ∀ k, s₀.locals k = .idle) (hbatch : s₀.shared.Batch jobs)
    (hrun : ∀ j, s₀.shared.db.runOf j = some runId ↔ j ∈ jobs.map JobRecord.id) (hn : 0 < n)
    (hrecords : p.Records s₀.shared.files)
    (hdispatch : ∀ job ∈ jobs, p.budgetPolicy.validateJobDispatch job = .ok ())
    (hp : p.Verifiable env jobs)
    (hs : (p.drain n s₀.shared).Reachable (Drain.ClockTexts env) s) (hexited : s.exited = true)
    (name : PyStr) (measured : Measurements) :
    ∃ report, buildSmokeReport env s.grid.files s.grid.db runId name measured = .ok report ∧
      report.lifecycleCounts.get "completed" =
        jobs.countP (fun job => p.verdict job (p.retries job) = .completed) ∧
      report.retryCount = (jobs.map p.retries).sum ∧
      (validateSmokeReport env report jobs.length = .ok () ↔
        ∀ job ∈ jobs, p.verdict job (p.retries job) = .completed) := by
  obtain ⟨report, hbuild, hreport⟩ :=
    Pool.exists_drained_report hs₀ hidle hbatch hrun hn hrecords hdispatch hp hs hexited name
      measured
  exact ⟨report, hbuild, hreport.completed, hreport.retries, hreport.validate_iff⟩

/-- The paths and the digests of the run below. -/
def storingEnv : ReportEnv :=
  { storeEnv with
    sha256 := fun data =>
      if data.length = 335 then "31832a6565b95a36798ac93535c5487d14a7471b4df36b9e006a6f2393d74fb6"
      else storeEnv.sha256 data
    resolve := fun text =>
      if text = py "artifacts/" ++ uuidText 1 ++ py "/attempt-2.json" then .artifact 1 2
      else .other ""
    pathText := fun ref => match ref with
      | .artifact j n => py "artifacts/" ++ uuidText j ++ py "/attempt-" ++ py (toString n) ++
          py ".json"
      | .other path => py path }

/-- A worker that keeps artifacts and whose first attempt at any job meets a transient error. -/
def storingPool : Pool where
  env := storingEnv.toEnv
  workerId i := "proof-worker-" ++ toString (i + 1)
  budgetPolicy := .stub 2
  hasArtifactStore := true
  outcome _ n :=
    if n = 1 then .transientError "TransientRunnerError" else .success Deployment.stubResult
  writes _ _ := []

private def nowText : String := "2026-06-12T00:00:00+00:00"

/-- The two attempts, and the round that finds the stream empty. -/
def storingDrainRun : List (DrainAction 1) :=
  List.replicate 6 (.work 0 nowText) ++ [.gather] ++ List.replicate 6 (.work 0 nowText) ++
    [.gather, .work 0 nowText, .gather]

theorem storingPool_success {j : JobId} {n : ℤ} {result : Dict}
    (h : storingPool.outcome j n = .success result) : result = Deployment.stubResult := by
  change (if n = 1 then JobOutcome.transientError "TransientRunnerError"
    else .success Deployment.stubResult) = _ at h
  split at h
  · cases h
  · cases h
    rfl

theorem storingPool_records (files : FileStore) : storingPool.Records files := by
  refine Pool.records_of_plain (fun j n result h => ?_) files
  rw [storingPool_success h]
  exact ⟨by decide, rfl⟩

theorem objectLoads_of_loads {text : PyStr} {d : Dict}
    (h : Json.loads (fun _ => .nan) text = .ok (.obj d)) : objectLoads text = .ok (.obj d) := by
  unfold objectLoads
  rw [h]

theorem storingPool_retries {row : JobRecord} (hretries : row.maxRetries = 1) :
    storingPool.retries row = 1 := by
  have hlimit : storingPool.retryLimit row = 1 := by
    unfold Pool.retryLimit
    rw [hretries]
    rfl
  unfold Pool.retries
  rw [hlimit]
  rfl

theorem documented_storingEnv : storingEnv.Documented where
  intOf_int _ := rfl
  jsonLoads := ⟨_, fun _ _ => objectLoads_of_loads⟩
  trueDiv_self n hn := by
    have hne : (n : ℚ) ≠ 0 := fun h => hn.ne' (Rat.natCast_eq_zero_iff.mp h)
    change PyFloat.finite ((n : ℚ) / n) = .finite 1
    rw [Rat.div_def, Rat.mul_inv_cancel _ hne]

theorem storingPool_verifiable {row : JobRecord} (hid : row.id = 1)
    (hretries : row.maxRetries = 1) : storingPool.Verifiable storingEnv [row] := by
  have hretried := storingPool_retries hretries
  exact {
    env_eq := rfl
    documented := documented_storingEnv
    hasArtifactStore := rfl
    payload := fun j n result h => by rw [storingPool_success h]; rfl
    summary := fun j n result h => by
      rw [storingPool_success h]
      exact fun _ => unpaired_py "stub job completed"
    writes := fun _ _ _ _ h => by cases h
    finds := fun job hjob => by
      rw [List.mem_singleton.mp hjob, hid, hretried]
      change storingEnv.resolve (storingEnv.pathText (.artifact 1 2)) = .artifact 1 2
      decide
    maxRetries := fun job hjob => by
      rw [List.mem_singleton.mp hjob, integerAccepts, hretries]
      rfl }

private def startsBatch (s : Deployment.State) : Bool :=
  (match s.locals 0 with | .idle => true | _ => false) &&
  (s.shared.db.jobs.rows.all fun row => decide (row.id = 1 ∧ row.runId = 2)) &&
  ((s.shared.db.loadJob 1).any fun row => s.shared.hasOneJob row) &&
  ((storingPool.drain 1 s.shared).exec (fun _ _ => true) (storingPool.drain 1 s.shared).init
    storingDrainRun).any fun t => t.exited

/-- The second attempt succeeds and the batch of one job is accepted. -/
theorem Pool.drained_report_accepted_iff_retry : ∃ g s report,
    (storingPool.drain 1 g).Reachable (Drain.ClockTexts storingEnv) s ∧ s.exited = true ∧
    buildSmokeReport storingEnv s.grid.files s.grid.db 2 (py "artifacts")
      ⟨.finite 0, .finite 0, none⟩ = .ok report ∧
    report.retryCount = 1 ∧ validateSmokeReport storingEnv report 1 = .ok () := by
  obtain ⟨s₀, hs₀, hidle, hp⟩ := Actors.exists_run_of_exec_among (L := storingPool.deployment.lts)
    (C := Lts.anyStep) (c := fun _ _ => true) rfl 1 (fun _ _ _ _ => trivial)
    (s := storingPool.deployment.lts.init) (fun _ _ => rfl)
    [(0, .createJob stubSubmission), (0, .publishJob 1 1)] startsBatch (by decide +kernel)
  simp only [startsBatch, Bool.and_eq_true] at hp
  obtain ⟨⟨⟨hfree, hrows⟩, hjob⟩, hdrain⟩ := hp
  have hidle : ∀ k, s₀.locals k = .idle := by
    intro k
    cases k with
    | zero =>
      generalize s₀.locals 0 = l at hfree
      cases l with
      | idle => rfl
      | _ => cases hfree
    | succ k => exact hidle (k + 1) (Nat.succ_pos k)
  obtain ⟨row, hrow, hone⟩ := (Option.any_eq_true _ _).mp hjob
  simp only [Grid.hasOneJob, Bool.and_eq_true, decide_eq_true_eq] at hone
  obtain ⟨⟨⟨⟨⟨hstatus, htype⟩, hretries⟩, hlog⟩, hdelivered⟩, hlocks⟩ := hone
  have hid : row.id = 1 := Database.id_of_loadJob hrow
  have hof : ∀ row' ∈ s₀.shared.db.jobs.rows, row'.id = 1 ∧ row'.runId = 2 :=
    fun row' hrow' => of_decide_eq_true (List.all_eq_true.mp hrows row' hrow')
  have hbatch : s₀.shared.Batch [row] := Deployment.batch_of_reachable hs₀ (List.nodup_singleton _)
    hlog hdelivered hlocks (by simpa [hid] using hrow) (by simpa using hstatus)
  have hrun : ∀ j, s₀.shared.db.runOf j = some 2 ↔ j ∈ [row].map JobRecord.id := by
    intro j
    rw [List.map_singleton, List.mem_singleton, hid]
    constructor
    · intro hj
      obtain ⟨row', hrow', -⟩ := Option.map_eq_some_iff.mp hj
      obtain ⟨hmem, hkey⟩ := KeyedTable.get?_eq_some_iff.mp hrow'
      exact hkey.symm.trans (hof row' hmem).1
    · rintro rfl
      rw [Database.runOf, hrow]
      exact congrArg some (hof row (KeyedTable.get?_eq_some_iff.mp hrow).1).2
  have hdispatch : ∀ job ∈ [row], storingPool.budgetPolicy.validateJobDispatch job = .ok () := by
    intro job hjob
    rw [List.mem_singleton.mp hjob, BudgetPolicy.validateJobDispatch, htype]
    rfl
  obtain ⟨t, ht, hexited⟩ := Lts.exists_run_of_exec (C := Drain.ClockTexts storingEnv)
    (fun _ _ _ _ _ _ => rfl) _ _ _ hdrain
  have hp := storingPool_verifiable hid hretries
  have hretried := storingPool_retries hretries
  obtain ⟨report, hbuild, -, hcount, hiff⟩ := Pool.drained_report_accepted_iff hs₀ hidle hbatch hrun
    Nat.one_pos (storingPool_records _) hdispatch hp ht hexited (py "artifacts")
    ⟨.finite 0, .finite 0, none⟩
  refine ⟨s₀.shared, t, report, ht, hexited, hbuild, ?_, hiff.mpr fun job hjob => ?_⟩
  · rw [hcount, List.map_singleton, hretried, List.sum_singleton]
  · rw [List.mem_singleton.mp hjob, hretried]
    rfl

end Batch
end AgentRuntimeGrid
