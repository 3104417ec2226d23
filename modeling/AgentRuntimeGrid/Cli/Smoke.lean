import AgentRuntimeGrid.Cli.Benchmark
import AgentRuntimeGrid.Runtime.Attribution
import AgentRuntimeGrid.Runtime.Evidence

/-! The smoke report, which counts statuses in one table and artifacts in another, and what a run
that passes its validation is known to have done. -/
namespace AgentRuntimeGrid

/-- `event_data.get("retryable")`. -/
def EventData.retryable : EventData → Option Bool
  | .retryScheduled _ _ _ _ b => some b
  | .staleLeaseRecovered _ _ _ _ _ _ _ _ b => some b
  | .failed _ _ _ b => some b
  | .budgetBlocked _ _ _ _ _ _ b => some b
  | _ => none

/-- `event_data.get("result")`. -/
def EventData.result : EventData → Option JobResult
  | .completed _ _ result => some result
  | _ => none

/-- `result.get("artifact")` of a result as it is stored. -/
def JobResult.artifactEntry (env : ReportEnv) (result : JobResult) : Option Json :=
  match result.artifact with
  | some m => some (.obj (m.toDict env))
  | none => result.fields.get? (py "artifact")

def lifecycleKey : JobStatus → String
  | .submitted | .queued => "queued"
  | .running => "running"
  | .completed => "completed"
  | .failed => "failed"
  | .timedOut => "timed_out"
  | .cancelled => "cancelled"

def lifecycleCounts (rows : List JobRecord) : Counts :=
  ["queued", "running", "completed", "failed", "timed_out", "cancelled", "dlq"].map fun key =>
    (key, rows.countP fun row => lifecycleKey row.status = key)

namespace Database

def jobsOfRun (db : Database) (runId : RunId) : List JobRecord :=
  db.jobs.rows.filter fun row => row.runId = runId

/-- The events selected by their run, grouped by job, the groups in the order of their first
events. -/
def eventsByJob (db : Database) (runId : RunId) : List (List JobEvent) :=
  let rows := db.jobEvents.filter fun e => e.runId = runId
  (rows.map JobEvent.jobId).eraseDups.map fun j => rows.filter fun e => e.jobId = j

end Database

def failureClass (e : JobEvent) : Option String :=
  match e.eventType with
  | .failed => match e.eventData.retryable with
    | some true => some "transient"
    | some false => some "permanent"
    | none => some "failed"
  | .timedOut => some "timeout"
  | .cancelled => some "cancelled"
  | _ => none

/-- The artifact rows of one event: one, read and checked, for a completed event. -/
def artifactRows (env : ReportEnv) (files : FileStore) (e : JobEvent) :
    Except String (List ArtifactRecord) :=
  if e.eventType ≠ .completed then .ok []
  else match e.eventData.result with
    | none => .ok []
    | some result => match result.artifactEntry env with
      | some (.obj d) => do
          let metadata ← ArtifactRecord.fromDict env d
          metadata.validateIntegrity env.toEnv files
          return [metadata]
      | _ => .error "ArtifactIntegrityError"

/-- What a report takes from the clock columns and from Redis. -/
structure Measurements where
  queueLagSeconds : PyFloat
  p95DurationSeconds : PyFloat
  backpressure : Option QueueBackpressureSnapshot

/-- `build_smoke_report`; `artifactRootName` is `artifact_root.name`. -/
def buildSmokeReport (env : ReportEnv) (files : FileStore) (db : Database) (runId : RunId)
    (artifactRootName : PyStr) (measured : Measurements) : Except String ReliabilityReport := do
  let submittedJobs := (db.jobsOfRun runId).length
  let counts := lifecycleCounts (db.jobsOfRun runId)
  let events := (db.eventsByJob runId).flatten
  let rows := (← events.mapM (artifactRows env files)).flatten
  let completedJobs := counts.get "completed"
  return {
    submittedJobs := submittedJobs
    lifecycleCounts := counts
    completionRate :=
      if submittedJobs = 0 then .finite 0 else env.trueDiv completedJobs submittedJobs
    duplicateFinalizationCount := db.duplicateTerminalEventCount (some runId)
    retryCount := events.countP fun e => e.eventType = .retryScheduled
    queueLagSeconds := measured.queueLagSeconds
    p95DurationSeconds := measured.p95DurationSeconds
    artifactCompleteness :=
      if completedJobs = 0 then .finite 1 else env.trueDiv rows.length completedJobs
    finalizationConflictAttemptCount := db.finalizationConflictAttemptCount (some runId)
    failureClassification := (events.filterMap failureClass).foldl Counts.bump []
    estimatedCostUsd := "0"
    runId := some (uuidText runId)
    source := py "runtime_state:" ++ artifactRootName
    idempotencyReplayCount := 0
    injectedFailureCount := 0
    title := "Load Smoke Report"
    backpressure := measured.backpressure
    artifactIntegrity := some ⟨rows.length, rows.length, rows⟩ }

/-- `x < 1`. -/
def floatLtOne : PyFloat → Bool
  | .finite q => q < 1
  | .infinity negative => negative
  | .nan => false

/-- `sum(report.lifecycle_counts.get(status, 0) for status in TERMINAL_STATUSES)`. -/
def terminalCount (c : Counts) : ℕ :=
  c.get "completed" + c.get "failed" + c.get "timed_out" + c.get "cancelled"

/-- The errors of `validate_smoke_report`, in order. -/
def smokeReportErrors (env : ReportEnv) (report : ReliabilityReport) (expectedJobs : ℤ) :
    List String :=
  let counts := report.lifecycleCounts
  let completed := counts.get "completed"
  (if (report.submittedJobs : ℤ) ≠ expectedJobs then
    [s!"submitted_jobs expected {expectedJobs}, got {report.submittedJobs}"] else []) ++
  (if (terminalCount counts : ℤ) ≠ expectedJobs then
    [s!"terminal jobs expected {expectedJobs}, got {terminalCount counts}"] else []) ++
  (if (completed : ℤ) ≠ expectedJobs then
    [s!"completed jobs expected {expectedJobs}, got {completed}"] else []) ++
  (if report.duplicateFinalizationCount ≠ 0 then
    [s!"duplicate finalizations: {report.duplicateFinalizationCount}"] else []) ++
  (if floatLtOne report.artifactCompleteness then
    [s!"artifact completeness below 100%: {env.percent report.artifactCompleteness}"] else []) ++
  (match report.artifactIntegrity with
    | none => []
    | some integrity =>
      (if integrity.checkedCount ≠ completed then
        [s!"artifact integrity checked {integrity.checkedCount} of {completed} completed jobs"]
        else []) ++
      if integrity.validCount ≠ integrity.checkedCount then
        ["artifact integrity validation did not cover all checked artifacts"] else []) ++
  if report.estimatedCostUsd ≠ "0" then
    [s!"stub mode cost expected $0, got ${report.estimatedCostUsd}"] else []

def validateSmokeReport (env : ReportEnv) (report : ReliabilityReport) (expectedJobs : ℤ) :
    Except (List String) Unit :=
  match smokeReportErrors env report expectedJobs with
  | [] => .ok ()
  | errors => .error errors

/-- What the acceptance of a run says of one of its jobs, whose artifact is the given record. -/
structure Accepted (env : ReportEnv) (files : FileStore) (db : Database) (j : JobId)
    (record : ArtifactRecord) : Prop where
  row : ∃ row, db.loadJob j = some row ∧ row.status = .completed
  finalization : ∃ f, db.jobFinalizations.get? j = some f ∧ f.status = .completed
  event : ∃ e result d, ((db.eventsOf j).filter fun e => e.eventType = .completed) = [e] ∧
    e.eventData.result = some result ∧ result.artifactEntry env = some (.obj d) ∧
    ArtifactRecord.fromDict env d = .ok record
  intact : record.Intact env.toEnv files

/-- The event's artifact is this record, which is intact. -/
def ReadsAs (env : ReportEnv) (files : FileStore) (e : JobEvent) (record : ArtifactRecord) : Prop :=
  ∃ result d, e.eventData.result = some result ∧ result.artifactEntry env = some (.obj d) ∧
    ArtifactRecord.fromDict env d = .ok record ∧ record.Intact env.toEnv files

variable {env : ReportEnv} {files : FileStore}

/-- A completed event that carries a result adds the record it reads as, any other event none. -/
theorem artifactRows_eq_ok {e : JobEvent} {records : List ArtifactRecord}
    (hshape : e.eventType = .completed → e.eventData.result.isSome = true)
    (h : artifactRows env files e = .ok records) :
    if e.eventType = .completed then ∃ record, records = [record] ∧ ReadsAs env files e record
    else records = [] := by
  unfold artifactRows at h
  split at h
  next htype =>
    rw [if_neg htype]
    exact (Except.ok.inj h).symm
  next htype =>
    have htype := not_not.mp htype
    rw [if_pos htype]
    obtain ⟨result, hresult⟩ := Option.isSome_iff_exists.mp (hshape htype)
    simp only [hresult] at h
    split at h
    next d hd =>
      cases hfrom : ArtifactRecord.fromDict env d with
      | error c => simp [hfrom, bind, Except.bind] at h
      | ok record =>
        cases hvalid : record.validateIntegrity env.toEnv files with
        | error c => simp [hfrom, hvalid, bind, Except.bind] at h
        | ok u =>
          simp only [hfrom, hvalid, bind, Except.bind, pure, Except.pure, Except.ok.injEq] at h
          exact ⟨record, h.symm, result, d, hresult, hd, hfrom,
            ArtifactRecord.validateIntegrity_eq_ok.mp hvalid⟩
    next => cases h

theorem artifactRows_of_readsAs {e : JobEvent} {record : ArtifactRecord}
    (htype : e.eventType = .completed) (h : ReadsAs env files e record) :
    artifactRows env files e = .ok [record] := by
  obtain ⟨result, d, hresult, hentry, hrecord, hintact⟩ := h
  unfold artifactRows
  rw [if_neg (not_not.mpr htype)]
  simp only [hresult, hentry, hrecord, bind, Except.bind,
    ArtifactRecord.validateIntegrity_eq_ok.mpr hintact]
  rfl

/-- The rows of a report are the records of the completed events, in order. -/
theorem rows_of_mapM {es : List JobEvent} {rss : List (List ArtifactRecord)}
    (hshape : ∀ e ∈ es, e.eventType = .completed → e.eventData.result.isSome = true)
    (h : es.mapM (artifactRows env files) = .ok rss) :
    List.Forall₂ (ReadsAs env files) (es.filter fun e => e.eventType = .completed) rss.flatten := by
  induction es generalizing rss with
  | nil =>
    cases h
    exact .nil
  | cons e es ih =>
    rw [List.forall_mem_cons] at hshape
    rw [List.mapM_cons] at h
    cases hrs : artifactRows env files e with
    | error c => simp [hrs, bind, Except.bind] at h
    | ok rs =>
      cases hrest : es.mapM (artifactRows env files) with
      | error c => simp [hrs, hrest, bind, Except.bind] at h
      | ok rest =>
        simp only [hrs, hrest, bind, Except.bind, pure, Except.pure, Except.ok.injEq] at h
        subst h
        have hone := artifactRows_eq_ok hshape.1 hrs
        have htail := ih hshape.2 hrest
        rw [List.flatten_cons]
        split at hone
        next htype =>
          obtain ⟨record, rfl, hreads⟩ := hone
          rw [List.filter_cons, if_pos (by simpa using htype)]
          exact .cons hreads htail
        next htype =>
          subst hone
          rw [List.filter_cons, if_neg (by simpa using htype)]
          exact htail

/-- What every write of an event and of a finalization row agrees on. -/
structure Database.WellFormed (db : Database) : Prop where
  result : ∀ e ∈ db.jobEvents, e.eventType = .completed → e.eventData.result.isSome = true
  status : ∀ f ∈ db.jobFinalizations.rows, f.status = f.eventType.status

variable {cfg : Deployment} {i : ℕ} {g : Grid} {l : ActorState} {a : Action}

theorem TerminalEvent.result_isSome {job : JobRecord} {eventType : EventType}
    {eventData : EventData} (h : TerminalEvent cfg i g l a job eventType eventData)
    (htype : eventType = .completed) : eventData.result.isSome = true := by
  cases h with
  | completed => rfl
  | handled hhandles => cases hhandles <;> cases htype
  | _ => cases htype

theorem DbWrite.wellFormed {db : Database} (h : DbWrite cfg i g l a db)
    (hg : g.db.WellFormed) : db.WellFormed := by
  have append : ∀ {e' : JobEvent},
      (e'.eventType = .completed → e'.eventData.result.isSome = true) →
      ∀ e ∈ g.db.jobEvents ++ [e'],
        e.eventType = .completed → e.eventData.result.isSome = true := by
    intro e' hnew e he
    rcases List.mem_append.mp he with he | he
    · exact hg.result e he
    · exact List.mem_singleton.mp he ▸ hnew
  cases h with
  | same => exact hg
  | created hinsert =>
    obtain ⟨jobs, -, rfl⟩ := Database.insertJob_eq_ok hinsert
    exact ⟨append fun htype => (nomatch htype), hg.status⟩
  | lifecycle h hrecord =>
    obtain ⟨-, rfl⟩ := Database.recordStateEvent_eq_some hrecord
    refine ⟨append fun htype => ?_, hg.status⟩
    cases h <;> cases htype
  | finalized h hfinalize =>
    obtain ⟨-, -, ⟨f, -, -, rfl⟩ | ⟨fins, hfins, -, rfl⟩⟩ := Database.finalizeJob_cases hfinalize
    · exact ⟨hg.result, hg.status⟩
    · refine ⟨append h.result_isSome, ?_⟩
      intro f hf
      have hf : f ∈ fins.rows := hf
      rw [KeyedTable.rows_of_insert hfins] at hf
      rcases List.mem_append.mp hf with hf | hf
      · exact hg.status f hf
      · rw [List.mem_singleton.mp hf]

theorem exists_of_replay {es : List JobEvent} {status : JobStatus}
    (h : replay es = some status) : ∃ e ∈ es, e.eventType.status = status := by
  rcases List.eq_nil_or_concat es with rfl | ⟨es, e, rfl⟩
  · cases h
  · rw [List.concat_eq_append, replay_append] at h
    exact ⟨e, by simp, Option.some.inj h⟩

theorem EventType.eq_completed {t : EventType} (h : t.status = .completed) : t = .completed := by
  cases t <;> first | rfl | cases h

/-- A job with status completed has one completed event, no other terminal one, and a row that
says so. -/
theorem JobHistory.Lawful.completed {v : JobHistory} (hv : v.Lawful) {row : JobRecord}
    (hrow : v.row = some row) (hstatus : row.status = .completed) :
    (∃ e, v.events.filter (fun e => e.eventType = .completed) = [e]) ∧
    ∃ f, v.finalization = some f ∧ f.eventType = .completed := by
  have hreplay := hv.status row hrow
  rw [hstatus] at hreplay
  obtain ⟨e, he, htype⟩ := exists_of_replay hreplay
  have htype := EventType.eq_completed htype
  have hterminal := hv.terminal
  have hmem : e ∈ terminalEvents v.events := by
    refine List.mem_filter.mpr ⟨he, ?_⟩
    rw [htype]
    rfl
  cases hf : v.finalization with
  | none =>
    simp only [hf, Option.map_none, Option.toList_none, List.map_eq_nil_iff] at hterminal
    rw [hterminal] at hmem
    cases hmem
  | some f =>
    simp only [hf, Option.map_some, Option.toList_some] at hterminal
    obtain ⟨e', he', hf'⟩ := List.map_eq_singleton_iff.mp hterminal
    rw [he'] at hmem
    obtain rfl := List.mem_singleton.mp hmem
    refine ⟨⟨e, ?_⟩, f, rfl, hf'.symm.trans htype⟩
    have hsub : v.events.filter (fun e => e.eventType = .completed) =
        (terminalEvents v.events).filter fun e => e.eventType = .completed := by
      rw [terminalEvents, List.filter_filter]
      refine List.filter_congr fun e' _ => ?_
      cases e'.eventType <;> rfl
    rw [hsub, he']
    simp [htype]

namespace Deployment
variable {s : State}

theorem wellFormed_reachable (hs : cfg.lts.Reachable Lts.anyStep s) : s.shared.db.WellFormed := by
  refine Lts.Reachable.invariant (P := fun s => s.shared.db.WellFormed)
    ⟨fun _ h => (nomatch h), fun _ h => (nomatch h)⟩ ?_ hs
  intro s a t _ hinv _ h
  obtain ⟨g', l', hlocal, rfl⟩ := Actors.globalStep_eq_some.mp h
  exact (localStep_dbWrite hlocal).wellFormed hinv

private theorem nodup_eraseDups {α : Type*} [DecidableEq α] (as : List α) : as.eraseDups.Nodup := by
  induction hn : as.length using Nat.strong_induction_on generalizing as with
  | _ n ih =>
    cases as with
    | nil => exact List.nodup_nil
    | cons a as =>
      rw [List.eraseDups_cons]
      have hlt : (as.filter fun b => !b == a).length < n := by
        rw [← hn, List.length_cons]
        exact Nat.lt_succ_of_le (List.length_filter_le _ _)
      refine List.nodup_cons.mpr ⟨fun ha => ?_, ih _ hlt _ rfl⟩
      simpa using (List.mem_filter.mp (List.mem_eraseDups.mp ha)).2

/-- The groups of a run's report are the full logs of the jobs of the run. -/
theorem eventsByJob_eq (hs : cfg.lts.Reachable Lts.anyStep s) (runId : RunId) :
    ∃ ids : List JobId, ids.Nodup ∧ (∀ j, j ∈ ids ↔ s.shared.db.runOf j = some runId) ∧
      s.shared.db.eventsByJob runId = ids.map s.shared.db.eventsOf := by
  have hg := attributed_reachable hs
  let rows := s.shared.db.jobEvents.filter fun e => e.runId = runId
  have hmem : ∀ j, j ∈ (rows.map JobEvent.jobId).eraseDups ↔ s.shared.db.runOf j = some runId := by
    intro j
    rw [List.mem_eraseDups, List.mem_map]
    constructor
    · rintro ⟨e, he, rfl⟩
      obtain ⟨he, hrun⟩ := List.mem_filter.mp he
      rw [(hg.events e he).runOf_eq, of_decide_eq_true hrun]
    · intro hj
      obtain ⟨row, hrow, hrun⟩ := Option.map_eq_some_iff.mp hj
      obtain ⟨e, es, hes, -⟩ := (history_lawful hs j).submitted row hrow
      have he : e ∈ s.shared.db.eventsOf j := by
        rw [show s.shared.db.eventsOf j = e :: es from hes]
        exact List.mem_cons_self
      obtain ⟨he, hid⟩ := List.mem_filter.mp he
      have hid : e.jobId = j := of_decide_eq_true hid
      have hrunOf := (hg.events e he).runOf_eq
      rw [hid, hj] at hrunOf
      exact ⟨e, List.mem_filter.mpr ⟨he, decide_eq_true (Option.some.inj hrunOf).symm⟩, hid⟩
  refine ⟨_, nodup_eraseDups (rows.map JobEvent.jobId), hmem, ?_⟩
  refine List.map_congr_left fun j hj => ?_
  have hj := (hmem j).mp hj
  rw [List.filter_filter]
  refine List.filter_congr fun e he => ?_
  by_cases hid : e.jobId = j
  · have hrunOf := (hg.events e he).runOf_eq
    rw [hid, hj] at hrunOf
    simp [hid, (Option.some.inj hrunOf).symm]
  · simp [hid]

/-- One completed event for each job, one row for each completed event: one row for each job. -/
private theorem accepted_of_reads {db : Database} {ids : List JobId} {records : List ArtifactRecord}
    (hrow : ∀ j ∈ ids, ∃ row, db.loadJob j = some row ∧ row.status = .completed)
    (hfinalization : ∀ j ∈ ids, ∃ f, db.jobFinalizations.get? j = some f ∧ f.status = .completed)
    (hone : ∀ j ∈ ids, ∃ e, ((db.eventsOf j).filter fun e => e.eventType = .completed) = [e])
    (h : List.Forall₂ (ReadsAs env files)
      ((ids.map db.eventsOf).flatten.filter fun e => e.eventType = .completed) records) :
    List.Forall₂ (Accepted env files db) ids records := by
  induction ids generalizing records with
  | nil =>
    cases h
    exact .nil
  | cons j ids ih =>
    rw [List.forall_mem_cons] at hrow hfinalization hone
    obtain ⟨e, he⟩ := hone.1
    rw [List.map_cons, List.flatten_cons, List.filter_append, he, List.singleton_append] at h
    cases h with
    | cons hreads hrest =>
      obtain ⟨result, d, hresult, hentry, hrecord, hintact⟩ := hreads
      refine .cons ?_ (ih hrow.2 hfinalization.2 hone.2 hrest)
      exact ⟨hrow.1, hfinalization.1, ⟨e, result, d, he, hresult, hentry, hrecord⟩, hintact⟩

theorem lifecycleCounts_completed (rows : List JobRecord) :
    (lifecycleCounts rows).get "completed" = rows.countP fun row => row.status = .completed := by
  have hkey : ∀ status : JobStatus, lifecycleKey status = "completed" ↔ status = .completed := by
    intro status
    cases status <;> decide
  simp only [← hkey]
  rfl

theorem validateSmokeReport_eq_ok {report : ReliabilityReport} {n : ℤ}
    (h : validateSmokeReport env report n = .ok ()) : (report.submittedJobs : ℤ) = n ∧
      (report.lifecycleCounts.get "completed" : ℤ) = n := by
  unfold validateSmokeReport at h
  split at h
  next herrors =>
    simp only [smokeReportErrors, List.append_eq_nil_iff] at herrors
    obtain ⟨⟨⟨⟨⟨⟨hsubmitted, -⟩, hcompleted⟩, -⟩, -⟩, -⟩, -⟩ := herrors
    simp only [ne_eq, ite_not, ite_eq_left_iff, List.cons_ne_self, imp_false, not_not]
      at hsubmitted hcompleted
    exact ⟨by simpa using hsubmitted, by simpa using hcompleted⟩
  next => cases h

theorem buildSmokeReport_eq_ok {db : Database} {runId : RunId} {name : PyStr}
    {measured : Measurements} {report : ReliabilityReport}
    (h : buildSmokeReport env files db runId name measured = .ok report) :
    report.submittedJobs = (db.jobsOfRun runId).length ∧
    report.lifecycleCounts = lifecycleCounts (db.jobsOfRun runId) ∧
    ∃ rss, (db.eventsByJob runId).flatten.mapM (artifactRows env files) = .ok rss ∧
      report.artifactIntegrity = some ⟨rss.flatten.length, rss.flatten.length, rss.flatten⟩ := by
  unfold buildSmokeReport at h
  cases hrss : (db.eventsByJob runId).flatten.mapM (artifactRows env files) with
  | error c => simp [hrss, bind, Except.bind] at h
  | ok rss =>
    simp only [hrss, bind, Except.bind, pure, Except.pure, Except.ok.injEq] at h
    subst h
    exact ⟨rfl, rfl, rss, rfl, rfl⟩

/-- A run whose report is built and validated for `n` jobs has `n` jobs, all of them completed and
accepted, each with an artifact row of its own. -/
theorem smoke_acceptance_sound (hs : cfg.lts.Reachable Lts.anyStep s) {runId : RunId}
    {name : PyStr} {measured : Measurements} {report : ReliabilityReport} {n : ℤ}
    (hbuild : buildSmokeReport env files s.shared.db runId name measured = .ok report)
    (hvalid : validateSmokeReport env report n = .ok ()) :
    ((s.shared.db.jobsOfRun runId).length : ℤ) = n ∧
    ∃ ids records, ids.Nodup ∧ (∀ j, j ∈ ids ↔ s.shared.db.runOf j = some runId) ∧
      report.artifactIntegrity = some ⟨ids.length, ids.length, records⟩ ∧
      List.Forall₂ (Accepted env files s.shared.db) ids records := by
  obtain ⟨hsubmitted, hcounts, rss, hrss, hintegrity⟩ := buildSmokeReport_eq_ok hbuild
  obtain ⟨hn, hcompleted⟩ := validateSmokeReport_eq_ok hvalid
  rw [hsubmitted] at hn
  rw [hcounts, lifecycleCounts_completed, ← hn, Nat.cast_inj, List.countP_eq_length] at hcompleted
  obtain ⟨ids, hnodup, hids, hgroups⟩ := eventsByJob_eq hs runId
  have hrow : ∀ j ∈ ids, ∃ row, s.shared.db.loadJob j = some row ∧ row.status = .completed := by
    intro j hj
    obtain ⟨row, hrow, hrun⟩ := Option.map_eq_some_iff.mp ((hids j).mp hj)
    have hmem := (KeyedTable.get?_eq_some_iff.mp hrow).1
    exact ⟨row, hrow, of_decide_eq_true
      (hcompleted row (List.mem_filter.mpr ⟨hmem, decide_eq_true hrun⟩))⟩
  have hcompleted : ∀ j ∈ ids,
      (∃ e, ((s.shared.db.eventsOf j).filter fun e => e.eventType = .completed) = [e]) ∧
      ∃ f, s.shared.db.jobFinalizations.get? j = some f ∧ f.eventType = .completed := by
    intro j hj
    obtain ⟨row, hrow, hstatus⟩ := hrow j hj
    exact (history_lawful hs j).completed hrow hstatus
  have hwellFormed := wellFormed_reachable hs
  have hfinalization : ∀ j ∈ ids,
      ∃ f, s.shared.db.jobFinalizations.get? j = some f ∧ f.status = .completed := by
    intro j hj
    obtain ⟨f, hf, htype⟩ := (hcompleted j hj).2
    have hstatus := hwellFormed.status f (KeyedTable.get?_eq_some_iff.mp hf).1
    rw [htype] at hstatus
    exact ⟨f, hf, hstatus⟩
  rw [hgroups] at hrss
  have hshape : ∀ e ∈ (ids.map s.shared.db.eventsOf).flatten,
      e.eventType = .completed → e.eventData.result.isSome = true := by
    intro e he
    obtain ⟨es, hes, he⟩ := List.mem_flatten.mp he
    obtain ⟨j, -, rfl⟩ := List.mem_map.mp hes
    exact hwellFormed.result e (List.mem_of_mem_filter he)
  have haccepted := accepted_of_reads hrow hfinalization (fun j hj => (hcompleted j hj).1)
    (rows_of_mapM hshape hrss)
  refine ⟨hn, ids, rss.flatten, hnodup, hids, ?_, haccepted⟩
  rw [hintegrity, haccepted.length_eq]

/-- The artifact that `recordedRun` writes, as it is read back. -/
def recordedContent : Dict :=
  [(py "attempt_number", .int 1), (py "created_at", .str (py "2026-06-12T00:00:00+00:00")),
    (py "input_digest",
      .str (py "44136fa355b3678a1146ad16f7e8649e94fb4fc21fe77e8310c060f61caaff8a")),
    (py "job_id", .str (uuidText 1)), (py "result_summary", .str (py "stub job completed")),
    (py "run_id", .str (uuidText 2)), (py "worker_id", .str (py "worker-1"))]

def recordedPath : PyStr := py "artifacts/" ++ uuidText 1 ++ py "/attempt-1.json"

def reportEnv : ReportEnv where
  toEnv := { artifactDeployment.env with
    jsonLoads := fun _ => .ok (.obj recordedContent)
    resolve := fun text => if text = recordedPath then .artifact 1 1 else .other ""
    jsonLoads_dumps := fun _ => ⟨recordedContent, rfl⟩ }
  intOf v := match v with
    | .int n => .ok n
    | _ => .error "TypeError"
  isoFormat := .ok
  pathText _ := recordedPath
  trueDiv a b := .finite (a / b)
  percent _ := "100.00%"
  fixed3 _ := "0.000"

private def acceptsOne (s : State) : Bool :=
  match buildSmokeReport reportEnv s.shared.files s.shared.db 2 (py "artifacts")
    ⟨.finite 0, .finite 0, none⟩ with
  | .ok report => (smokeReportErrors reportEnv report 1).isEmpty
  | .error _ => false

private theorem accepts_of_acceptsOne (h : acceptsOne s = true) : ∃ report,
    buildSmokeReport reportEnv s.shared.files s.shared.db 2 (py "artifacts")
      ⟨.finite 0, .finite 0, none⟩ = .ok report ∧
    validateSmokeReport reportEnv report 1 = .ok () := by
  unfold acceptsOne at h
  split at h
  next report hreport =>
    refine ⟨report, hreport, ?_⟩
    rw [validateSmokeReport, List.isEmpty_iff.mp h]
  next => cases h

/-- The run of worker 1 alone is accepted for one job. -/
theorem smoke_acceptance_sound_one : ∃ s report,
    artifactDeployment.lts.Reachable Lts.anyStep s ∧
    validateSmokeReport reportEnv report 1 = .ok () ∧
    ((s.shared.db.jobsOfRun 2).length : ℤ) = 1 := by
  obtain ⟨s, hs, hp⟩ := Lts.exists_reachable_of_exec artifactDeployment.lts recordedRun acceptsOne
    (by decide +kernel)
  obtain ⟨report, hbuild, hvalid⟩ := accepts_of_acceptsOne hp
  exact ⟨s, report, hs, hvalid, (smoke_acceptance_sound hs hbuild hvalid).1⟩

end Deployment
end AgentRuntimeGrid
