import AgentRuntimeGrid.Cli.FullStack
import AgentRuntimeGrid.Lib.CanonicalText

/-! Reports of one run at two sites, which differ in directories outside the working directory. -/
namespace AgentRuntimeGrid

/-- The paths are the same, or absolute ones with the same name, both outside the working
directory. -/
def Relocated (env : EvidenceEnv) (p p' : PyPath) : Prop :=
  p' = p ∨ p.isAbsolute = true ∧ p'.isAbsolute = true ∧ env.relativeToCwd p = none ∧
    env.relativeToCwd p' = none ∧ p'.name = p.name

structure Site.Relocated (env : EvidenceEnv) (site site' : Site) : Prop where
  artifactRoot : AgentRuntimeGrid.Relocated env site.artifactRoot site'.artifactRoot
  reportPath : AgentRuntimeGrid.Relocated env site.reportPath site'.reportPath
  evalLabDatasetPath :
    AgentRuntimeGrid.Relocated env site.evalLabDatasetPath site'.evalLabDatasetPath
  evalLabReportPath : AgentRuntimeGrid.Relocated env site.evalLabReportPath site'.evalLabReportPath
  gdevArtifactPath : AgentRuntimeGrid.Relocated env site.gdevArtifactPath site'.gdevArtifactPath

/-- The records are the same but for the directory of the artifact. -/
def ArtifactRecord.Moved (r r' : ArtifactRecord) : Prop :=
  r' = { r with path := r'.path } ∧ (PyPath.parse r'.path).name = (PyPath.parse r.path).name

/-- The reports are the same but for the directories of the artifacts. -/
def ReliabilityReport.Moved (r r' : ReliabilityReport) : Prop :=
  ∃ rows rows', List.Forall₂ ArtifactRecord.Moved rows rows' ∧
    r.artifactIntegrity = some ⟨rows.length, rows.length, rows⟩ ∧
    r' = { r with artifactIntegrity := some ⟨rows.length, rows.length, rows'⟩ }

section Portable
variable {env : EvidenceEnv} {site site' : Site} {p p' : PyPath}

theorem Relocated.name (h : Relocated env p p') : p'.name = p.name := by
  rcases h with rfl | ⟨-, -, -, -, h⟩
  · rfl
  · exact h

theorem Relocated.portablePath (h : Relocated env p p') (uriNamespace : String) :
    portablePath env p' uriNamespace = portablePath env p uriNamespace := by
  rcases h with rfl | ⟨habs, habs', hcwd, hcwd', hname⟩
  · rfl
  · simp only [AgentRuntimeGrid.portablePath, habs, habs', hcwd, hcwd', hname, not_true_eq_false,
      if_false]

theorem Site.name_pathText (site site' : Site) (f : FileRef) :
    (PyPath.parse (site'.pathText f)).name = (PyPath.parse (site.pathText f)).name := by
  cases f with
  | other path => rfl
  | artifact jobId n =>
    have hmem : 97 ∈ py s!"attempt-{n}.json" := by
      refine List.mem_map.mpr ⟨'a', ?_, rfl⟩
      rw [String.toList_append, String.toList_append]
      exact List.mem_append_left _ (List.mem_append_left _ (by decide))
    have hname : ∀ site : Site, (PyPath.parse (site.pathText (.artifact jobId n))).name =
        (PyPath.parse (py s!"attempt-{n}.json")).name := by
      intro site
      rw [Site.pathText, PyPath.text_concat (by simp)]
      exact PyPath.name_parse_append _ hmem (by decide) (by decide)
    rw [hname site, hname site']

theorem ArtifactRecord.Moved.artifactRow {r r' : ArtifactRecord} (h : r.Moved r') :
    artifactRow env r' = artifactRow env r := by
  obtain ⟨h, hname⟩ := h
  rw [AgentRuntimeGrid.artifactRow, portableRecordPath, hname, h]
  rfl

theorem ArtifactRecord.Moved.artifactLine {r r' : ArtifactRecord} (h : r.Moved r') :
    artifactLine env r' = artifactLine env r := by
  obtain ⟨h, hname⟩ := h
  delta AgentRuntimeGrid.artifactLine
  rw [portableRecordPath, hname, h]
  rfl

theorem map_eq_of_forall₂ {α β : Type*} {R : α → α → Prop} {f : α → β} {l l' : List α}
    (hf : ∀ {a b}, R a b → f b = f a) (h : List.Forall₂ R l l') : l'.map f = l.map f := by
  induction h with
  | nil => rfl
  | cons hab _ ih => rw [List.map_cons, List.map_cons, hf hab, ih]

/-- What is written of a report does not tell the directories of its artifacts. -/
theorem ReliabilityReport.Moved.written (env : EvidenceEnv) {r r' : ReliabilityReport}
    (h : r.Moved r') :
    reportPayload env r' = reportPayload env r ∧
      renderReliabilityReport env r' = renderReliabilityReport env r := by
  obtain ⟨rows, rows', hrows, hr, rfl⟩ := h
  have hjson := map_eq_of_forall₂ (f := artifactRow env) (fun h => h.artifactRow) hrows
  have hlines := map_eq_of_forall₂ (f := artifactLine env) (fun h => h.artifactLine) hrows
  constructor
  · simp only [reportPayload, hr, hjson, Option.map_some, Option.getD_some]
  · simp only [renderReliabilityReport, hr, hlines, Option.map_some, Option.getD_some]

theorem artifactRow_inj {r r' : ArtifactRecord} (h : artifactRow env r' = artifactRow env r) :
    r'.inputDigest = r.inputDigest := by
  simp only [artifactRow, Json.obj.injEq, List.cons.injEq, Prod.mk.injEq, Json.str.injEq] at h
  obtain ⟨-, -, -, -, -, -, hdigest, -⟩ := h
  exact hdigest.2

def ReliabilityReport.rows (r : ReliabilityReport) : List ArtifactRecord :=
  match r.artifactIntegrity with
  | some integrity => integrity.rows
  | none => []

/-- A payload tells the source of its report and what it writes of the artifacts. -/
theorem evidencePayload_inj {made : RunOrigin} {r r' : ReliabilityReport} {command : String}
    {config config' : List (PyStr × ConfigValue)} {seed : Option ℤ}
    (h : evidencePayload env made r' command config' seed =
      evidencePayload env made r command config seed) :
    r'.source = r.source ∧ r'.rows.map (artifactRow env) = r.rows.map (artifactRow env) := by
  have hreport : reportPayload env r' = reportPayload env r :=
    (Prod.mk.inj (Option.some.inj (congrArg List.getLast? h))).2
  have hfields := Json.obj.inj hreport
  have hintegrity := (Prod.mk.inj (Option.some.inj (congrArg List.getLast? hfields))).2
  have hrows := (Prod.mk.inj (Option.some.inj (congrArg List.getLast?
    (Json.obj.inj hintegrity)))).2
  simp only [List.cons.injEq, Prod.mk.injEq, Json.str.injEq] at hfields
  obtain ⟨-, -, ⟨-, hsource⟩, -⟩ := hfields
  exact ⟨hsource, Json.arr.inj hrows⟩

end Portable

section Events
variable {results results' : JobId → Option JobResult} {e : JobEvent}

@[simp] theorem JobEvent.withResult_jobId : (e.withResult results).jobId = e.jobId := by
  unfold withResult
  split <;> rfl

@[simp] theorem JobEvent.withResult_runId : (e.withResult results).runId = e.runId := by
  unfold withResult
  split <;> rfl

@[simp] theorem JobEvent.withResult_eventType :
    (e.withResult results).eventType = e.eventType := by
  unfold withResult
  split <;> rfl

@[simp] theorem JobEvent.withResult_retryable :
    (e.withResult results).eventData.retryable = e.eventData.retryable := by
  unfold withResult
  split
  next h => rw [h]; rfl
  next => rfl

theorem JobEvent.withResult_result : (e.withResult results).eventData.result =
    e.eventData.result.map fun result => (results e.jobId).getD result := by
  unfold withResult
  split
  next h => rw [h]; rfl
  next h => cases hdata : e.eventData <;> first | rfl | exact absurd hdata (h _ _ _)

theorem eventsByJob_withResults (db : Database) (runId : RunId) :
    (db.withResults results).eventsByJob runId =
      (db.eventsByJob runId).map (List.map (JobEvent.withResult results)) := by
  have hfilter : ∀ (p : JobEvent → Bool), (∀ e, p (e.withResult results) = p e) →
      ∀ es : List JobEvent, (es.map (JobEvent.withResult results)).filter p =
        (es.filter p).map (JobEvent.withResult results) := by
    intro p hp es
    rw [List.filter_map]
    congr 2
    funext e
    exact hp e
  simp only [Database.eventsByJob, Database.withResults, List.map_map]
  rw [hfilter _ (fun e => by simp), List.map_map,
    show JobEvent.jobId ∘ JobEvent.withResult results = JobEvent.jobId from
      funext fun e => e.withResult_jobId]
  refine List.map_congr_left fun j _ => ?_
  exact hfilter _ (fun e => by simp) _

end Events

section Reports
variable {env : EvidenceEnv} {site site' : Site} {files files' : FileStore}
  {results results' : JobId → Option JobResult}

/-- The record of one dictionary, or of the metadata of one artifact, at two sites. -/
theorem fromDict_moved {result : JobResult} {d d' : Dict} {r r' : ArtifactRecord}
    (hd : result.artifactEntry (env.onSite site).toReportEnv = some (.obj d))
    (hd' : result.artifactEntry (env.onSite site').toReportEnv = some (.obj d'))
    (h : ArtifactRecord.fromDict (env.onSite site).toReportEnv d = .ok r)
    (h' : ArtifactRecord.fromDict (env.onSite site').toReportEnv d' = .ok r') : r.Moved r' := by
  unfold JobResult.artifactEntry at hd hd'
  cases hartifact : result.artifact with
  | none =>
    simp only [hartifact] at hd hd'
    obtain rfl : d = d' := Json.obj.inj (Option.some.inj (hd.symm.trans hd'))
    obtain rfl : r = r' := Except.ok.inj (h.symm.trans h')
    exact ⟨rfl, rfl⟩
  | some m =>
    simp only [hartifact] at hd hd'
    obtain rfl := Json.obj.inj (Option.some.inj hd)
    obtain rfl := Json.obj.inj (Option.some.inj hd')
    rw [ArtifactRecord.fromDict_toDict] at h h'
    obtain ⟨sizeBytes, hsize, h⟩ := Except.bind_eq_ok.mp h
    obtain ⟨attemptNumber, hattempt, h⟩ := Except.bind_eq_ok.mp h
    obtain ⟨createdAt, hcreated, h⟩ := Except.bind_eq_ok.mp h
    obtain ⟨sizeBytes', hsize', h'⟩ := Except.bind_eq_ok.mp h'
    obtain ⟨attemptNumber', hattempt', h'⟩ := Except.bind_eq_ok.mp h'
    obtain ⟨createdAt', hcreated', h'⟩ := Except.bind_eq_ok.mp h'
    obtain rfl : sizeBytes = sizeBytes' := Except.ok.inj (hsize.symm.trans hsize')
    obtain rfl : attemptNumber = attemptNumber' := Except.ok.inj (hattempt.symm.trans hattempt')
    obtain rfl : createdAt = createdAt' := Except.ok.inj (hcreated.symm.trans hcreated')
    cases h
    cases h'
    exact ⟨rfl, site.name_pathText site' m.path⟩

theorem artifactRows_moved {e e' : JobEvent} {rows rows' : List ArtifactRecord}
    (htype : e'.eventType = e.eventType)
    (hresult : e.eventType = .completed → e'.eventData.result = e.eventData.result)
    (h : artifactRows (env.onSite site).toReportEnv files e = .ok rows)
    (h' : artifactRows (env.onSite site').toReportEnv files' e' = .ok rows') :
    List.Forall₂ ArtifactRecord.Moved rows rows' := by
  unfold artifactRows at h h'
  rw [htype] at h'
  by_cases hcompleted : e.eventType = .completed
  · rw [hresult hcompleted] at h'
    rw [if_neg (not_not.mpr hcompleted)] at h h'
    cases hdata : e.eventData.result with
    | none =>
      simp only [hdata] at h h'
      cases h
      cases h'
      exact .nil
    | some result =>
      simp only [hdata] at h h'
      split at h
      next d hd =>
        split at h'
        next d' hd' =>
          obtain ⟨r, hr, h⟩ := Except.bind_eq_ok.mp h
          obtain ⟨r', hr', h'⟩ := Except.bind_eq_ok.mp h'
          obtain ⟨-, -, h⟩ := Except.bind_eq_ok.mp h
          obtain ⟨-, -, h'⟩ := Except.bind_eq_ok.mp h'
          cases h
          cases h'
          exact .cons (fromDict_moved hd hd' hr hr') .nil
        next => cases h'
      next => cases h
  · rw [if_pos hcompleted] at h h'
    cases h
    cases h'
    exact .nil

theorem rows_moved {es : List JobEvent} {rss rss' : List (List ArtifactRecord)}
    (hresults : ∀ e ∈ es, e.eventType = .completed →
      (e.withResult results').eventData.result = (e.withResult results).eventData.result)
    (h : (es.map (JobEvent.withResult results)).mapM
      (artifactRows (env.onSite site).toReportEnv files) = .ok rss)
    (h' : (es.map (JobEvent.withResult results')).mapM
      (artifactRows (env.onSite site').toReportEnv files') = .ok rss') :
    List.Forall₂ ArtifactRecord.Moved rss.flatten rss'.flatten := by
  induction es generalizing rss rss' with
  | nil =>
    cases h
    cases h'
    exact .nil
  | cons e es ih =>
    rw [List.forall_mem_cons] at hresults
    rw [List.map_cons, List.mapM_cons] at h h'
    obtain ⟨rows, hrows, h⟩ := Except.bind_eq_ok.mp h
    obtain ⟨rest, hrest, h⟩ := Except.bind_eq_ok.mp h
    obtain ⟨rows', hrows', h'⟩ := Except.bind_eq_ok.mp h'
    obtain ⟨rest', hrest', h'⟩ := Except.bind_eq_ok.mp h'
    cases h
    cases h'
    rw [List.flatten_cons, List.flatten_cons]
    refine List.rel_append ?_ (ih hresults.2 hrest hrest')
    refine artifactRows_moved ?_ (fun hcompleted => ?_) hrows hrows'
    · rw [JobEvent.withResult_eventType, JobEvent.withResult_eventType]
    · rw [JobEvent.withResult_eventType] at hcompleted
      exact hresults.1 hcompleted

/-- The report that `build_smoke_report` makes of these artifact rows. -/
def smokeReportOf (env : ReportEnv) (db : Database) (runId : RunId) (artifactRootName : PyStr)
    (measured : Measurements) (rows : List ArtifactRecord) : ReliabilityReport :=
  let submittedJobs := (db.jobsOfRun runId).length
  let counts := lifecycleCounts (db.jobsOfRun runId)
  let events := (db.eventsByJob runId).flatten
  let completedJobs := counts.get "completed"
  { submittedJobs := submittedJobs
    lifecycleCounts := counts
    completionRate :=
      if submittedJobs = 0 then .finite 0 else env.trueDiv completedJobs submittedJobs
    duplicateFinalizationCount := db.duplicateTerminalEventCount (some runId)
    retryCount := events.countP fun e => e.eventType = .retryScheduled
    queueLagSeconds := measured.queueLagSeconds
    p95DurationSeconds := measured.p95DurationSeconds
    artifactCompleteness :=
      if completedJobs = 0 then .finite 1 else env.trueDiv rows.length completedJobs
    finalizationConflictAttemptCount := db.finalizationConflictAttemptCount (some runId)
    failureClassification := (events.filterMap failureClass).foldl Counts.bump []
    estimatedCostUsd := "0"
    runId := some (uuidText runId)
    source := py "runtime_state:" ++ artifactRootName
    idempotencyReplayCount := 0
    injectedFailureCount := 0
    title := "Load Smoke Report"
    backpressure := measured.backpressure
    artifactIntegrity := some ⟨rows.length, rows.length, rows⟩ }

theorem buildSmokeReport_eq_ok {env : ReportEnv} {db : Database} {runId : RunId} {name : PyStr}
    {measured : Measurements} {report : ReliabilityReport} :
    buildSmokeReport env files db runId name measured = .ok report ↔
      ∃ rss, ((db.eventsByJob runId).flatten).mapM (artifactRows env files) = .ok rss ∧
        report = smokeReportOf env db runId name measured rss.flatten := by
  refine Except.bind_eq_ok.trans (exists_congr fun rss => and_congr_right fun _ => ?_)
  exact ⟨fun h => (Except.ok.inj h).symm, fun h => h ▸ rfl⟩

theorem failureClass_withResult (e : JobEvent) :
    failureClass (e.withResult results) = failureClass e := by
  unfold failureClass
  rw [JobEvent.withResult_eventType, JobEvent.withResult_retryable]

/-- Results are read for the artifact rows alone. -/
theorem smokeReportOf_withResults (env : ReportEnv) (db : Database) (runId : RunId) (name : PyStr)
    (measured : Measurements) (rows : List ArtifactRecord) :
    smokeReportOf env (db.withResults results) runId name measured rows =
      smokeReportOf env db runId name measured rows := by
  have hevents : ((db.withResults results).eventsByJob runId).flatten =
      (db.eventsByJob runId).flatten.map (JobEvent.withResult results) := by
    rw [eventsByJob_withResults, List.map_flatten]
  have hduplicates : (db.withResults results).duplicateTerminalEventCount (some runId) =
      db.duplicateTerminalEventCount (some runId) := by
    have hjobIds : JobEvent.jobId ∘ JobEvent.withResult results = JobEvent.jobId :=
      funext fun e => e.withResult_jobId
    unfold Database.duplicateTerminalEventCount Database.withResults
    simp only [List.filter_map, List.map_map, hjobIds, Function.comp_def,
      JobEvent.withResult_eventType, JobEvent.withResult_runId]
  have hretries : ∀ es : List JobEvent, (es.map (JobEvent.withResult results)).countP
      (fun e => e.eventType = .retryScheduled) =
        es.countP fun e => e.eventType = .retryScheduled := by
    intro es
    simp only [List.countP_map, Function.comp_def, JobEvent.withResult_eventType]
  have hclasses : ∀ es : List JobEvent, (es.map (JobEvent.withResult results)).filterMap
      failureClass = es.filterMap failureClass := by
    intro es
    rw [List.filterMap_map]
    exact congrArg (List.filterMap · es) (funext failureClass_withResult)
  have hjobs : (db.withResults results).jobsOfRun runId = db.jobsOfRun runId := rfl
  have hconflicts : (db.withResults results).finalizationConflictAttemptCount (some runId) =
      db.finalizationConflictAttemptCount (some runId) := rfl
  simp only [smokeReportOf, hevents, hduplicates, hretries, hclasses, hjobs, hconflicts]

theorem withResults_none (db : Database) : db.withResults (fun _ => none) = db := by
  have h : ∀ e : JobEvent, e.withResult (fun _ => none) = e := by
    rintro ⟨jobId, runId, eventType, eventData, traceId⟩
    cases eventData <;> rfl
  unfold Database.withResults
  rw [show JobEvent.withResult (fun _ => none) = id from funext h, List.map_id]

theorem buildSmokeReport_moved {db : Database} {runId : RunId} {measured : Measurements}
    {r r' : ReliabilityReport} (hname : site'.artifactRoot.name = site.artifactRoot.name)
    (hresults : ∀ e ∈ (db.eventsByJob runId).flatten, e.eventType = .completed →
      (e.withResult results').eventData.result = (e.withResult results).eventData.result)
    (h : buildSmokeReport (env.onSite site).toReportEnv files (db.withResults results) runId
      site.artifactRoot.name measured = .ok r)
    (h' : buildSmokeReport (env.onSite site').toReportEnv files' (db.withResults results') runId
      site'.artifactRoot.name measured = .ok r') : r.Moved r' := by
  obtain ⟨rss, hrss, rfl⟩ := buildSmokeReport_eq_ok.mp h
  obtain ⟨rss', hrss', rfl⟩ := buildSmokeReport_eq_ok.mp h'
  rw [eventsByJob_withResults, ← List.map_flatten] at hrss hrss'
  have hrows := rows_moved hresults hrss hrss'
  refine ⟨rss.flatten, rss'.flatten, hrows, rfl, ?_⟩
  rw [smokeReportOf_withResults, smokeReportOf_withResults, hname]
  simp only [smokeReportOf, hrows.length_eq]
  rfl

end Reports

end AgentRuntimeGrid
