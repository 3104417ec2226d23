import AgentRuntimeGrid.Cli.Relocation
import AgentRuntimeGrid.Lib.JsonLoads

/-! What the proof commands tell of the site they run at. -/
namespace AgentRuntimeGrid

section Commands
variable {env : EvidenceEnv} {site site' : Site}

theorem SmokeRun.evidence_eq_ok {run : SmokeRun} {ev : Evidence}
    (h : run.evidence env site = .ok ev) : ∃ report,
      buildSmokeReport (env.onSite site).toReportEnv site.files run.db run.runId
        site.artifactRoot.name run.measured = .ok report ∧
      ev = ⟨evidencePayload env run.origin report "smoke" (run.config site) none,
        renderReliabilityReport env report⟩ := by
  unfold evidence at h
  split at h
  · cases h
  obtain ⟨report, hreport, h⟩ := Except.bind_eq_ok.mp h
  split at h
  · cases h
  · exact ⟨report, hreport, (Except.ok.inj h).symm⟩

/-- The smoke command writes the same evidence at every site. -/
theorem SmokeRun.evidence_eq {run : SmokeRun} {ev ev' : Evidence}
    (hsite : site.Relocated env site') (h : run.evidence env site = .ok ev)
    (h' : run.evidence env site' = .ok ev') : ev' = ev := by
  obtain ⟨report, hreport, rfl⟩ := evidence_eq_ok h
  obtain ⟨report', hreport', rfl⟩ := evidence_eq_ok h'
  rw [← withResults_none run.db] at hreport hreport'
  obtain ⟨hpayload, hrendered⟩ := (buildSmokeReport_moved hsite.artifactRoot.name
    (fun _ _ _ => rfl) hreport hreport').written env
  have hconfig : jsonSafeFields env (run.config site') = jsonSafeFields env (run.config site) := by
    simp only [config, jsonSafeFields, jsonSafe, hsite.artifactRoot.portablePath]
  rw [evidencePayload, hpayload, hrendered, hconfig]
  rfl

theorem ReliabilityRun.evidence_eq_ok {run : ReliabilityRun} {ev : Evidence}
    (h : run.evidence env site = .ok ev) : ∃ report,
      buildSmokeReport (env.onSite site).toReportEnv site.files run.db run.runId
        site.artifactRoot.name run.measured = .ok report ∧
      ev = ⟨evidencePayload env run.origin (run.report site report) "benchmark v1-proof"
          (run.config site) (some run.seed),
        renderReliabilityReport env (run.report site report)⟩ := by
  unfold evidence at h
  split at h
  · cases h
  obtain ⟨report, hreport, h⟩ := Except.bind_eq_ok.mp h
  dsimp only at h
  split at h
  · cases h
  · exact ⟨report, hreport, (Except.ok.inj h).symm⟩

/-- The v1 proof names the artifact root, so its evidence tells the roots apart. -/
theorem ReliabilityRun.evidence_eq_iff {run : ReliabilityRun} {ev ev' : Evidence}
    (hsite : site.Relocated env site') (h : run.evidence env site = .ok ev)
    (h' : run.evidence env site' = .ok ev') :
    ev' = ev ↔ site'.artifactRoot.text = site.artifactRoot.text := by
  obtain ⟨report, hreport, rfl⟩ := evidence_eq_ok h
  obtain ⟨report', hreport', rfl⟩ := evidence_eq_ok h'
  rw [← withResults_none run.db] at hreport hreport'
  have hmoved := buildSmokeReport_moved hsite.artifactRoot.name (fun _ _ _ => rfl) hreport hreport'
  constructor
  · intro heq
    obtain ⟨hsource, -⟩ := evidencePayload_inj (Evidence.mk.inj heq).1
    exact List.append_cancel_left hsource
  · intro htext
    have hmoved : (run.report site report).Moved (run.report site' report') := by
      obtain ⟨rows, rows', hrows, hr, rfl⟩ := hmoved
      refine ⟨rows, rows', hrows, hr, ?_⟩
      simp only [ReliabilityRun.report, htext]
    obtain ⟨hpayload, hrendered⟩ := hmoved.written env
    have hconfig :
        jsonSafeFields env (run.config site') = jsonSafeFields env (run.config site) := by
      simp only [config, jsonSafeFields, jsonSafe, hsite.artifactRoot.portablePath]
    rw [evidencePayload, hpayload, hrendered, hconfig]
    rfl

end Commands

section Rows
variable {env : EvidenceEnv} {site site' : Site} {files files' : FileStore}

/-- An event has one row if it is a completed event with a result, and otherwise none. -/
theorem artifactRows_length {env : ReportEnv} {e : JobEvent} {rows : List ArtifactRecord}
    (h : artifactRows env files e = .ok rows) : rows.length =
      if e.eventType = .completed ∧ e.eventData.result.isSome then 1 else 0 := by
  unfold artifactRows at h
  by_cases hcompleted : e.eventType = .completed
  · rw [if_neg (not_not.mpr hcompleted)] at h
    cases hdata : e.eventData.result with
    | none =>
      simp only [hdata] at h
      cases h
      rw [if_neg (by simp), List.length_nil]
    | some result =>
      simp only [hdata] at h
      split at h
      next d hd =>
        obtain ⟨r, -, h⟩ := Except.bind_eq_ok.mp h
        obtain ⟨-, -, h⟩ := Except.bind_eq_ok.mp h
        cases h
        rw [if_pos ⟨hcompleted, rfl⟩, List.length_singleton]
      next => cases h
  · rw [if_pos hcompleted] at h
    cases h
    rw [if_neg fun hc => hcompleted hc.1, List.length_nil]

theorem artifactRows_inputDigest {env : ReportEnv} {e : JobEvent} {rows : List ArtifactRecord}
    {result : Dict} {m : ArtifactMetadata} (hcompleted : e.eventType = .completed)
    (hresult : e.eventData.result = some ⟨result, some m⟩)
    (h : artifactRows env files e = .ok rows) :
    ∃ r : ArtifactRecord, rows = [r] ∧ r.inputDigest = py m.inputDigest := by
  have hentry : (⟨result, some m⟩ : JobResult).artifactEntry env = some (.obj (m.toDict env)) := rfl
  unfold artifactRows at h
  rw [if_neg (not_not.mpr hcompleted)] at h
  simp only [hresult, hentry] at h
  obtain ⟨r, hr, h⟩ := Except.bind_eq_ok.mp h
  obtain ⟨-, -, h⟩ := Except.bind_eq_ok.mp h
  cases h
  rw [ArtifactRecord.fromDict_toDict] at hr
  obtain ⟨sizeBytes, -, hr⟩ := Except.bind_eq_ok.mp hr
  obtain ⟨attemptNumber, -, hr⟩ := Except.bind_eq_ok.mp hr
  obtain ⟨createdAt, -, hr⟩ := Except.bind_eq_ok.mp hr
  cases hr
  exact ⟨_, rfl, rfl⟩

/-- Equal rows of two runs over the same events are equal event by event. -/
theorem rows_eq_of_flatten {results results' : JobId → Option JobResult} {es : List JobEvent}
    {rss rss' : List (List ArtifactRecord)}
    (h : (es.map (JobEvent.withResult results)).mapM
      (artifactRows (env.onSite site).toReportEnv files) = .ok rss)
    (h' : (es.map (JobEvent.withResult results')).mapM
      (artifactRows (env.onSite site').toReportEnv files') = .ok rss')
    (heq : rss'.flatten.map (artifactRow env) = rss.flatten.map (artifactRow env)) :
    ∀ e ∈ es, ∃ rows rows',
      artifactRows (env.onSite site).toReportEnv files (e.withResult results) = .ok rows ∧
      artifactRows (env.onSite site').toReportEnv files' (e.withResult results') = .ok rows' ∧
      rows'.map (artifactRow env) = rows.map (artifactRow env) := by
  induction es generalizing rss rss' with
  | nil => exact fun e he => (List.not_mem_nil he).elim
  | cons e es ih =>
    rw [List.map_cons, List.mapM_cons] at h h'
    obtain ⟨rows, hrows, h⟩ := Except.bind_eq_ok.mp h
    obtain ⟨rest, hrest, h⟩ := Except.bind_eq_ok.mp h
    obtain ⟨rows', hrows', h'⟩ := Except.bind_eq_ok.mp h'
    obtain ⟨rest', hrest', h'⟩ := Except.bind_eq_ok.mp h'
    cases h
    cases h'
    have hlength : rows'.length = rows.length := by
      rw [artifactRows_length hrows, artifactRows_length hrows']
      simp only [JobEvent.withResult_eventType, JobEvent.withResult_result, Option.isSome_map]
    rw [List.flatten_cons, List.flatten_cons, List.map_append, List.map_append] at heq
    obtain ⟨hhead, htail⟩ := List.append_inj heq (by simp only [List.length_map, hlength])
    exact List.forall_mem_cons.mpr ⟨⟨rows, rows', hrows, hrows', hhead⟩, ih hrest hrest' htail⟩

end Rows

namespace FullStackRun
variable {env : FullStackEnv} {run : FullStackRun} {site site' : Site}

def caseOf (run : FullStackRun) (cases : List Dict) (j : JobId) : Option (Dict × CaseExecution) :=
  (cases.zip run.executions).find? fun cx => cx.2.jobId = j

theorem resultOf_eq {cases : List Dict} {results : List (JobId × JobResult)}
    (h : run.results env site cases = .ok results) (j : JobId) :
    (resultOf results j).map Except.ok =
      (run.caseOf cases j).map fun cx => run.caseResult env site cx.1 cx.2 := by
  unfold FullStackRun.results at h
  unfold caseOf
  generalize cases.zip run.executions = cxs at h ⊢
  induction cxs generalizing results with
  | nil =>
    cases h
    rfl
  | cons cx cxs ih =>
    rw [List.mapM_cons] at h
    obtain ⟨r, hr, h⟩ := Except.bind_eq_ok.mp h
    obtain ⟨rest, hrest, h⟩ := Except.bind_eq_ok.mp h
    obtain ⟨result, hresult, hr⟩ := Except.bind_eq_ok.mp hr
    cases h
    cases hr
    by_cases hj : cx.2.jobId = j
    · simp only [resultOf, List.find?_cons, hj, decide_true, Option.map_some, hresult]
    · simp only [resultOf, List.find?_cons, hj, decide_false] at ih ⊢
      exact ih hrest

/-- The payload of the job of a case tells the site by the path of its evaluation result alone. -/
theorem gdevJobPayload_eq {case : Dict} {caseId : PyStr}
    (h : (run.evalResultPath site' caseId).text = (run.evalResultPath site caseId).text) :
    run.gdevJobPayload site' case caseId = run.gdevJobPayload site case caseId := by
  rw [gdevJobPayload, h, gdevJobPayload]

theorem caseResult_eq {case : Dict} {x : CaseExecution}
    (h : ∀ id, caseId env.toEnv case = .ok id →
      (run.evalResultPath site' id).text = (run.evalResultPath site id).text) :
    run.caseResult env site' case x = run.caseResult env site case x := by
  unfold caseResult
  cases hid : caseId env.toEnv case with
  | error e => rfl
  | ok id =>
    have hjob : run.caseJob env site' case id x = run.caseJob env site case id x := by
      simp only [caseJob, gdevJobPayload_eq (h id hid)]
    simp only [bind, Except.bind, hjob]

theorem caseResult_inputDigest {case : Dict} {x : CaseExecution} {r : JobResult}
    (h : run.caseResult env site case x = .ok r) : ∃ id m, caseId env.toEnv case = .ok id ∧
      r.artifact = some m ∧
      payloadSha256 env.toEnv (run.gdevJobPayload site case id) = some m.inputDigest := by
  obtain ⟨id, hid, h⟩ := Except.bind_eq_ok.mp h
  cases hjob : run.caseJob env site case id x with
  | none => simp only [hjob, reduceCtorEq] at h
  | some job =>
    simp only [hjob] at h
    split at h
    next r' _ =>
      obtain ⟨⟨m, bytes⟩, hencode, h⟩ := Except.bind_eq_ok.mp h
      cases h
      have hpayload : job.payload.fields = run.gdevJobPayload site case id := by
        unfold caseJob at hjob
        split at hjob
        · exact Option.some.inj hjob ▸ rfl
        · cases hjob
      exact ⟨id, m, hid, rfl, hpayload ▸ encodeStubJobArtifact_inputDigest hencode⟩
    next => cases h

theorem evidence_eq_ok {ev : Evidence} (h : run.evidence env site = .ok ev) :
    ∃ cases caseIds results report,
      loadEvalLabCases env.toEnv run.evalLabDataset run.jobs = .ok cases ∧
      cases.mapM (caseId env.toEnv) = .ok caseIds ∧ run.results env site cases = .ok results ∧
      buildSmokeReport (env.toEvidenceEnv.onSite site).toReportEnv site.files
        (run.db.withResults (resultOf results)) run.runId site.artifactRoot.name run.measured =
          .ok report ∧
      let titled := { report with title := "Full Stack Runtime Reliability" }
      ev = ⟨evidencePayload env.toEvidenceEnv run.origin titled run.proofMode
        (run.config env site cases.length) none, run.render env site caseIds titled⟩ := by
  unfold evidence at h
  split at h
  · cases h
  obtain ⟨cases, hcases, h⟩ := Except.bind_eq_ok.mp h
  dsimp only at h
  split at h
  · cases h
  obtain ⟨caseIds, hids, h⟩ := Except.bind_eq_ok.mp h
  obtain ⟨results, hresults, h⟩ := Except.bind_eq_ok.mp h
  obtain ⟨titled, htitled, h⟩ := Except.bind_eq_ok.mp h
  cases hreport : buildSmokeReport (env.toEvidenceEnv.onSite site).toReportEnv site.files
      (run.db.withResults (resultOf results)) run.runId site.artifactRoot.name run.measured with
  | error e =>
    rw [report, hreport] at htitled
    cases htitled
  | ok report =>
    rw [FullStackRun.report, hreport] at htitled
    cases htitled
    split at h
    · cases h
    · exact ⟨cases, caseIds, results, report, hcases, hids, hresults, hreport,
        (Except.ok.inj h).symm⟩

/-- The jobs that completed write their evaluation results to the same paths at both sites. -/
def PathsAgree (env : Env) (run : FullStackRun) (site site' : Site) : Prop :=
  ∀ cases, loadEvalLabCases env run.evalLabDataset run.jobs = .ok cases →
    ∀ e ∈ (run.db.eventsByJob run.runId).flatten,
      e.eventType = .completed → e.eventData.result.isSome →
      ∀ cx, run.caseOf cases e.jobId = some cx → ∀ id, caseId env cx.1 = .ok id →
        (run.evalResultPath site' id).text = (run.evalResultPath site id).text

/-- The canonical texts of the payloads of the jobs, in UTF-8. -/
def payloadBytes (env : Env) (run : FullStackRun) (site : Site) : Set PyBytes :=
  {b | ∃ cases, loadEvalLabCases env run.evalLabDataset run.jobs = .ok cases ∧
    ∃ case ∈ cases, ∃ id, caseId env case = .ok id ∧
      PyText.utf8Encode (canonicalPayload env (run.gdevJobPayload site case id)) = some b}

theorem evalResultPath_text_inj {env : Env} {case : Dict} {id : PyStr}
    (h : canonicalPayload env (run.gdevJobPayload site case id) =
      canonicalPayload env (run.gdevJobPayload site' case id)) :
    (run.evalResultPath site id).text = (run.evalResultPath site' id).text := by
  have hdiffer : Json.DifferAt (py "eval_result_path", .str (run.evalResultPath site id).text)
      (py "eval_result_path", .str (run.evalResultPath site' id).text)
      (run.gdevJobPayload site case id) (run.gdevJobPayload site' case id) :=
    ⟨(run.gdevJobPayload site case id).take 4, (run.gdevJobPayload site case id).drop 5, rfl, rfl⟩
  exact Json.dumps_compact_inj hdiffer h

theorem result_eq_of_pathsAgree {cases : List Dict} {results results' : List (JobId × JobResult)}
    (hcases : loadEvalLabCases env.toEnv run.evalLabDataset run.jobs = .ok cases)
    (hresults : run.results env site cases = .ok results)
    (hresults' : run.results env site' cases = .ok results')
    (hpaths : PathsAgree env.toEnv run site site') {e : JobEvent}
    (he : e ∈ (run.db.eventsByJob run.runId).flatten) (hcompleted : e.eventType = .completed) :
    (e.withResult (resultOf results')).eventData.result =
      (e.withResult (resultOf results)).eventData.result := by
  rw [JobEvent.withResult_result, JobEvent.withResult_result]
  cases hdata : e.eventData.result with
  | none => rfl
  | some result =>
    have hof : (resultOf results' e.jobId).map Except.ok =
        ((resultOf results e.jobId).map Except.ok : Option (Except String JobResult)) := by
      rw [resultOf_eq hresults, resultOf_eq hresults']
      refine Option.map_congr fun cx hcx => ?_
      exact caseResult_eq fun id hid => hpaths cases hcases e he hcompleted (by rw [hdata]; rfl) cx
        hcx id hid
    rw [Option.map_injective (fun _ _ => Except.ok.inj) hof]

/-- Where the digests of the payloads are those of their texts alone, equal rows come of equal
paths. -/
theorem pathsAgree_of_rows {cases : List Dict} {results results' : List (JobId × JobResult)}
    {rss rss' : List (List ArtifactRecord)}
    (hcases : loadEvalLabCases env.toEnv run.evalLabDataset run.jobs = .ok cases)
    (hresults : run.results env site cases = .ok results)
    (hresults' : run.results env site' cases = .ok results')
    (hsha : Set.InjOn env.sha256
      (payloadBytes env.toEnv run site ∪ payloadBytes env.toEnv run site'))
    (hrss : ((run.db.eventsByJob run.runId).flatten.map
      (JobEvent.withResult (resultOf results))).mapM
        (artifactRows (env.toEvidenceEnv.onSite site).toReportEnv site.files) = .ok rss)
    (hrss' : ((run.db.eventsByJob run.runId).flatten.map
      (JobEvent.withResult (resultOf results'))).mapM
        (artifactRows (env.toEvidenceEnv.onSite site').toReportEnv site'.files) = .ok rss')
    (heq : rss'.flatten.map (artifactRow env.toEvidenceEnv) =
      rss.flatten.map (artifactRow env.toEvidenceEnv)) : PathsAgree env.toEnv run site site' := by
  intro cases' hcases' e he hcompleted hsome cx hcx id hid
  obtain rfl : cases = cases' := Except.ok.inj (hcases.symm.trans hcases')
  have hcase : cx.1 ∈ cases := (List.of_mem_zip (List.mem_of_find?_eq_some hcx)).1
  have hrow : ∀ {site : Site} {results : List (JobId × JobResult)} {files : FileStore}
      {rows : List ArtifactRecord}, run.results env site cases = .ok results →
      artifactRows (env.toEvidenceEnv.onSite site).toReportEnv files
        (e.withResult (resultOf results)) = .ok rows →
      ∃ r b, rows = [r] ∧ r.inputDigest = py (env.sha256 b) ∧ b ∈ payloadBytes env.toEnv run site ∧
        PyText.utf8Encode (canonicalPayload env.toEnv (run.gdevJobPayload site cx.1 id)) =
          some b := by
    intro site results files rows hresults hrows
    have hof := resultOf_eq hresults e.jobId
    rw [hcx, Option.map_some] at hof
    obtain ⟨result, hresult, hok⟩ := Option.map_eq_some_iff.mp hof
    obtain ⟨id', m, hid', hartifact, hdigest⟩ := caseResult_inputDigest hok.symm
    obtain rfl : id = id' := Except.ok.inj (hid.symm.trans hid')
    obtain ⟨b, hb, hsha256⟩ := Option.map_eq_some_iff.mp hdigest
    obtain ⟨before, hbefore⟩ := Option.isSome_iff_exists.mp hsome
    have hdata : (e.withResult (resultOf results)).eventData.result =
        some ⟨result.fields, some m⟩ := by
      rw [JobEvent.withResult_result, hbefore, hresult, ← hartifact]
      rfl
    obtain ⟨r, hr, hinput⟩ := artifactRows_inputDigest
      (by rw [JobEvent.withResult_eventType, hcompleted]) hdata hrows
    exact ⟨r, b, hr, hsha256 ▸ hinput, ⟨cases, hcases, cx.1, hcase, id, hid, hb⟩, hb⟩
  obtain ⟨rows, rows', hrows, hrows', hmap⟩ := rows_eq_of_flatten hrss hrss' heq e he
  obtain ⟨r, b, rfl, hinput, hmem, hb⟩ := hrow hresults hrows
  obtain ⟨r', b', rfl, hinput', hmem', hb'⟩ := hrow hresults' hrows'
  have hdigest : env.sha256 b' = env.sha256 b := by
    have hrows := artifactRow_inj (List.cons.inj hmap).1
    exact py_inj.mp (hinput' ▸ hinput ▸ hrows)
  obtain rfl := hsha (.inr hmem') (.inl hmem) hdigest
  exact evalResultPath_text_inj (PyText.utf8Encode_inj hb' hb)

theorem render_eq (hsite : site.Relocated env.toEvidenceEnv site') {caseIds : List PyStr}
    {r r' : ReliabilityReport} (h : r.Moved r') :
    run.render env site' caseIds r' = run.render env site caseIds r := by
  have hpaths : inputPaths env.toEvidenceEnv site' = inputPaths env.toEvidenceEnv site := by
    simp only [inputPaths, hsite.evalLabDatasetPath.portablePath,
      hsite.evalLabReportPath.portablePath, hsite.gdevArtifactPath.portablePath,
      hsite.reportPath.portablePath]
  simp only [render, hpaths, (h.written env.toEvidenceEnv).2]

theorem config_eq (hsite : site.Relocated env.toEvidenceEnv site') (jobs : ℕ) :
    jsonSafeFields env.toEvidenceEnv (run.config env site' jobs) =
      jsonSafeFields env.toEvidenceEnv (run.config env site jobs) := by
  have hpaths : inputPaths env.toEvidenceEnv site' = inputPaths env.toEvidenceEnv site := by
    simp only [inputPaths, hsite.evalLabDatasetPath.portablePath,
      hsite.evalLabReportPath.portablePath, hsite.gdevArtifactPath.portablePath,
      hsite.reportPath.portablePath]
  simp only [config, hpaths, jsonSafeFields, jsonSafe, hsite.artifactRoot.portablePath]

/-- The digests of the payloads tell where the evaluation results are written. -/
theorem evidence_eq_iff {ev ev' : Evidence} (hsite : site.Relocated env.toEvidenceEnv site')
    (hsha : Set.InjOn env.sha256
      (payloadBytes env.toEnv run site ∪ payloadBytes env.toEnv run site'))
    (h : run.evidence env site = .ok ev) (h' : run.evidence env site' = .ok ev') :
    ev' = ev ↔ PathsAgree env.toEnv run site site' := by
  obtain ⟨cases, caseIds, results, report, hcases, hids, hresults, hreport, rfl⟩ :=
    evidence_eq_ok h
  obtain ⟨cases', caseIds', results', report', hcases', hids', hresults', hreport', rfl⟩ :=
    evidence_eq_ok h'
  obtain rfl : cases = cases' := Except.ok.inj (hcases.symm.trans hcases')
  obtain rfl : caseIds = caseIds' := Except.ok.inj (hids.symm.trans hids')
  constructor
  · intro heq
    obtain ⟨-, hrows⟩ := evidencePayload_inj (Evidence.mk.inj heq).1
    obtain ⟨rss, hrss, rfl⟩ := buildSmokeReport_eq_ok.mp hreport
    obtain ⟨rss', hrss', rfl⟩ := buildSmokeReport_eq_ok.mp hreport'
    rw [eventsByJob_withResults, ← List.map_flatten] at hrss hrss'
    exact pathsAgree_of_rows hcases hresults hresults' hsha hrss hrss' hrows
  · intro hpaths
    have hmoved := buildSmokeReport_moved hsite.artifactRoot.name
      (fun e he => result_eq_of_pathsAgree hcases hresults hresults' hpaths he) hreport hreport'
    have htitled : ReliabilityReport.Moved
        { report with title := "Full Stack Runtime Reliability" }
        { report' with title := "Full Stack Runtime Reliability" } := by
      obtain ⟨rows, rows', hrows, hr, rfl⟩ := hmoved
      exact ⟨rows, rows', hrows, hr, rfl⟩
    rw [evidencePayload, (htitled.written env.toEvidenceEnv).1, config_eq hsite,
      render_eq hsite htitled]
    rfl

end FullStackRun

inductive ProofRun where
  | smoke (run : SmokeRun)
  | v1Proof (run : ReliabilityRun)
  | fullStack (run : FullStackRun)

namespace ProofRun

def evidence (env : FullStackEnv) (site : Site) : ProofRun → Except String Evidence
  | .smoke run => run.evidence env.toEvidenceEnv site
  | .v1Proof run => run.evidence env.toEvidenceEnv site
  | .fullStack run => run.evidence env site

/-- The payloads of the jobs whose digests the evidence tells. -/
def payloadBytes (env : Env) (site : Site) : ProofRun → Set PyBytes
  | .smoke _ | .v1Proof _ => ∅
  | .fullStack run => run.payloadBytes env site

/-- The evidence names no path by which the sites differ: the smoke command names none, the v1 proof
the artifact root, and the full-stack proof, in its digests, those of the evaluation results. -/
def PathsAgree (env : Env) (site site' : Site) : ProofRun → Prop
  | .smoke _ => True
  | .v1Proof _ => site'.artifactRoot.text = site.artifactRoot.text
  | .fullStack run => run.PathsAgree env site site'

/-- Runs of one command at two sites have the same evidence exactly where it names the same
paths. -/
theorem evidence_portable_iff {env : FullStackEnv} {run : ProofRun} {site site' : Site}
    {ev ev' : Evidence} (hsite : site.Relocated env.toEvidenceEnv site')
    (hsha : Set.InjOn env.sha256
      (run.payloadBytes env.toEnv site ∪ run.payloadBytes env.toEnv site'))
    (h : run.evidence env site = .ok ev) (h' : run.evidence env site' = .ok ev') :
    ev' = ev ↔ run.PathsAgree env.toEnv site site' := by
  cases run with
  | smoke run => exact iff_of_true (run.evidence_eq hsite h h') trivial
  | v1Proof run => exact run.evidence_eq_iff hsite h h'
  | fullStack run => exact run.evidence_eq_iff hsite hsha h h'

end ProofRun

/-- The state that `recordedRun` leaves. -/
def recordedGrid : Grid :=
  ((Deployment.artifactDeployment.lts.exec Lts.unchecked Deployment.artifactDeployment.lts.init
    Deployment.recordedRun).map fun s => s.shared).getD .empty

def recordedData : RunData where
  db := recordedGrid.db
  runId := 2
  measured := ⟨.finite 0, .finite 0, none⟩
  origin := ⟨py "2026-06-12T00:00:01+00:00", [], []⟩

def recordedSmoke : SmokeRun := { recordedData with
  jobs := 1
  workers := 1
  failureRate := .finite 0
  mode := py "stub" }

def recordedProof : ReliabilityRun := { recordedData with
  jobs := 1
  workers := 1
  failureRate := .finite 0
  includeTimeouts := false
  repeatIdempotencySubmissions := false
  seed := 0
  failures := []
  failureCount := 0
  idempotencyReplayCount := 0 }

/-- A site below one directory, with the files of the recorded run. -/
def siteBelow (directory : PyStr) : Site where
  artifactRoot := ⟨py "/", [directory, py "artifacts"]⟩
  reportPath := ⟨py "/", [directory, py "proof.md"]⟩
  evalLabDatasetPath := ⟨py "/", [directory, py "dataset.jsonl"]⟩
  evalLabReportPath := ⟨py "/", [directory, py "report.json"]⟩
  gdevArtifactPath := ⟨py "/", [directory, py "artifact.json"]⟩
  resolve _ := .artifact 1 1
  files := recordedGrid.files

/-- A library whose working directory is none of these sites. -/
def proofEnv : FullStackEnv where
  toReportEnv := Deployment.reportEnv
  relativeToCwd _ := none
  lower s := s
  floatOfInt _ := none
  floatOfText _ := none
  hmacSha256 _ _ := ""
  urlparse _ := none

theorem siteBelow_relocated (directory directory' : PyStr) :
    (siteBelow directory).Relocated proofEnv.toEvidenceEnv (siteBelow directory') := by
  constructor <;> exact .inr ⟨rfl, rfl, rfl, rfl, rfl⟩

private theorem exists_eq_ok {ε α : Type} {x : Except ε α} (h : x.isOk = true) :
    ∃ a, x = .ok a := by
  cases x with
  | error e => cases h
  | ok a => exact ⟨a, rfl⟩

private theorem recorded_isOk : ∀ directory ∈ [py "a", py "b"],
    ((ProofRun.smoke recordedSmoke).evidence proofEnv (siteBelow directory)).isOk = true ∧
    ((ProofRun.v1Proof recordedProof).evidence proofEnv (siteBelow directory)).isOk = true := by
  decide +kernel

private theorem recorded_smoke {directory : PyStr} (h : directory ∈ [py "a", py "b"]) :
    ∃ ev, (ProofRun.smoke recordedSmoke).evidence proofEnv (siteBelow directory) = .ok ev :=
  exists_eq_ok (recorded_isOk directory h).1

private theorem recorded_v1Proof {directory : PyStr} (h : directory ∈ [py "a", py "b"]) :
    ∃ ev, (ProofRun.v1Proof recordedProof).evidence proofEnv (siteBelow directory) = .ok ev :=
  exists_eq_ok (recorded_isOk directory h).2

/-- Reads the text of an object as documented. -/
def readObject (text : PyStr) : Except LoadsError Json :=
  match Json.loads (fun _ => .nan) text with
  | .ok (.obj d) => .ok (.obj d)
  | _ => .ok (.obj [])

theorem readObject_dumps (d : Dict) : ∃ d' : Dict,
    readObject (Json.dumps Json.indentedFormat proofEnv.floatRepr (.obj d)) = .ok (.obj d') := by
  unfold readObject
  split
  · exact ⟨_, rfl⟩
  · exact ⟨[], rfl⟩

/-- The digests of what the full-stack proof of `recordedCase` hashes, by the length. -/
def recordedDigests : List (ℕ × String) := [
  (2, "44136fa355b3678a1146ad16f7e8649e94fb4fc21fe77e8310c060f61caaff8a"),
  (11, "6f580d13632c968264547f9795770f8a9fd34f50448d2699bf273f29780f35a4"),
  (59, "7f4ad76b0e3ac269d3e28343062b7bec4247bee4384c4490dfd82bfb22ddfdeb"),
  (110, "731edf382692807a24b0e3affaa750fdd15c15d5e8e9f3c4ff10d2ca7e72866a"),
  (180, "68f5deccec04df62f3b54a3a9fd5126d7708f52f3627dfa71d0f1ae499e9ec74"),
  (181, "ecc35eeed4a3b558f4c68d3893e303ffedec356ae10763dd5802fe54588ab1c9"),
  (1065, "bcf8d63237ea6ce7ba5de4ed390ef419f8ebab864fe8ef6a1a9a5549f18a1e7e"),
  (1066, "191ae4ab9316f1796f210bbba528cefd2bcd0b3bf152a1b39c00eb682673279d")]

def caseEnv : FullStackEnv := { proofEnv with
  sha256 := fun data => (recordedDigests.lookup data.length).getD ""
  jsonLoads := readObject
  jsonLoads_dumps := readObject_dumps }

def recordedCase : Dict := [(py "id", .str (py "a"))]

/-- The completion of the case by worker 1, without a network. -/
def recordedExecution : CaseExecution where
  jobId := 1
  workerId := "worker-1"
  attemptNumber := 1
  createdAt := "2026-06-12T00:00:00+00:00"
  ctx := {
    files := fun _ => none
    getenv := fun _ => none
    urlopen := fun _ _ _ => .timedOut
    sleep := fun _ => .finished
    measuredLatencyMs := 0
    latencyMs := 0 }

def recordedFullStack : FullStackRun := { recordedData with
  evalLabDataset := py "\x7b\"id\": \"a\"\x7d"
  evalLabReport := py "\x7b\x7d"
  gdevArtifact := py "\x7b\x7d"
  candidateId := py "candidate"
  jobs := 1
  workers := 1
  liveLocalGdev := none
  executions := [recordedExecution] }

def caseArtifact (site : Site) : Option PyBytes := do
  let job ← recordedFullStack.caseJob caseEnv site recordedCase (py "a") recordedExecution
  let r ← (GdevAgent.run caseEnv.toRunnerEnv recordedExecution.ctx job.payload.fields 1).toOption
  let written ← (encodeStubJobArtifact caseEnv.toEnv job recordedExecution.workerId 1
    recordedExecution.createdAt r.result).toOption
  return written.2

def caseSite (directory : PyStr) : Site :=
  { siteBelow directory with files := fun _ => caseArtifact (siteBelow directory) }

theorem caseSite_relocated (directory directory' : PyStr) :
    (caseSite directory).Relocated caseEnv.toEvidenceEnv (caseSite directory') := by
  constructor <;> exact .inr ⟨rfl, rfl, rfl, rfl, rfl⟩

private theorem recordedCase_loads :
    FullStackRun.loadEvalLabCases caseEnv.toEnv recordedFullStack.evalLabDataset
      recordedFullStack.jobs = .ok [recordedCase] := by
  decide +kernel

private theorem recordedCase_id :
    FullStackRun.caseId caseEnv.toEnv recordedCase = .ok (py "a") := rfl

private theorem recorded_fullStack : ∀ directory ∈ [py "a", py "bb"],
    ((ProofRun.fullStack recordedFullStack).evidence caseEnv (caseSite directory)).isOk = true := by
  decide +kernel

/-- The one payload of the run at a site. -/
def recordedPayload (site : Site) : Option PyBytes :=
  PyText.utf8Encode (canonicalPayload caseEnv.toEnv
    (recordedFullStack.gdevJobPayload site recordedCase (py "a")))

private theorem payloadBytes_recorded {site : Site} {b : PyBytes}
    (h : b ∈ recordedFullStack.payloadBytes caseEnv.toEnv site) :
    recordedPayload site = some b := by
  obtain ⟨cases, hcases, case, hcase, id, hid, hb⟩ := h
  obtain rfl := Except.ok.inj (recordedCase_loads.symm.trans hcases)
  obtain rfl := List.mem_singleton.mp hcase
  obtain rfl := Except.ok.inj (recordedCase_id.symm.trans hid)
  exact hb

private theorem sha256_injOn_recorded : Set.InjOn caseEnv.sha256
    (recordedFullStack.payloadBytes caseEnv.toEnv (caseSite (py "a")) ∪
      recordedFullStack.payloadBytes caseEnv.toEnv (caseSite (py "bb"))) := by
  have hdigests : (recordedPayload (caseSite (py "a"))).map caseEnv.sha256 ≠
      (recordedPayload (caseSite (py "bb"))).map caseEnv.sha256 := by
    decide +kernel
  rintro b (hb | hb) b' (hb' | hb') heq
  · exact Option.some.inj ((payloadBytes_recorded hb).symm.trans (payloadBytes_recorded hb'))
  · rw [payloadBytes_recorded hb, payloadBytes_recorded hb'] at hdigests
    exact absurd (congrArg some heq) hdigests
  · rw [payloadBytes_recorded hb, payloadBytes_recorded hb'] at hdigests
    exact absurd (congrArg some heq.symm) hdigests
  · exact Option.some.inj ((payloadBytes_recorded hb).symm.trans (payloadBytes_recorded hb'))

private theorem not_pathsAgree_recorded :
    ¬ recordedFullStack.PathsAgree caseEnv.toEnv (caseSite (py "a")) (caseSite (py "bb")) := by
  intro h
  have hevent : ∃ e ∈ (recordedFullStack.db.eventsByJob recordedFullStack.runId).flatten,
      e.eventType = .completed ∧ e.eventData.result.isSome = true ∧ e.jobId = 1 := by
    decide +kernel
  obtain ⟨e, he, hcompleted, hsome, hjob⟩ := hevent
  have hcase : recordedFullStack.caseOf [recordedCase] e.jobId =
      some (recordedCase, recordedExecution) := by
    rw [hjob]
    rfl
  have htext := h _ recordedCase_loads e he hcompleted hsome _ hcase _ recordedCase_id
  exact absurd htext (by decide)

/-- The smoke command of the recorded run leaves one evidence in two directories, and the full-stack
proof of its case two, told apart by the digest of the payload. -/
theorem evidence_portable_iff_recorded :
    (∃ ev, (ProofRun.smoke recordedSmoke).evidence proofEnv (siteBelow (py "a")) = .ok ev ∧
      (ProofRun.smoke recordedSmoke).evidence proofEnv (siteBelow (py "b")) = .ok ev) ∧
    ∃ ev ev', (ProofRun.fullStack recordedFullStack).evidence caseEnv (caseSite (py "a")) = .ok ev ∧
      (ProofRun.fullStack recordedFullStack).evidence caseEnv (caseSite (py "bb")) = .ok ev' ∧
      ev' ≠ ev := by
  constructor
  · obtain ⟨ev, hev⟩ := recorded_smoke (.head [py "b"])
    obtain ⟨ev', hev'⟩ := recorded_smoke (.tail (py "a") (.head []))
    obtain rfl := (ProofRun.evidence_portable_iff (siteBelow_relocated (py "a") (py "b"))
      (by simp [ProofRun.payloadBytes]) hev hev').mpr trivial
    exact ⟨_, hev, hev'⟩
  · obtain ⟨ev, hev⟩ := exists_eq_ok (recorded_fullStack _ (.head [py "bb"]))
    obtain ⟨ev', hev'⟩ := exists_eq_ok (recorded_fullStack _ (.tail (py "a") (.head [])))
    refine ⟨ev, ev', hev, hev', fun heq => not_pathsAgree_recorded ?_⟩
    exact (@ProofRun.evidence_portable_iff caseEnv (.fullStack recordedFullStack)
      (caseSite (py "a")) (caseSite (py "bb")) ev ev' (caseSite_relocated (py "a") (py "bb"))
      sha256_injOn_recorded hev hev').mp heq

/-- The v1 proof of the recorded run leaves different evidence in two directories. -/
theorem evidence_not_portable : ¬ ∀ (env : FullStackEnv) (run : ProofRun) (site site' : Site)
    (ev ev' : Evidence), site.Relocated env.toEvidenceEnv site' →
      run.evidence env site = .ok ev → run.evidence env site' = .ok ev' → ev' = ev := by
  intro h
  obtain ⟨ev, hev⟩ := recorded_v1Proof (.head [py "b"])
  obtain ⟨ev', hev'⟩ := recorded_v1Proof (.tail (py "a") (.head []))
  have hsite := siteBelow_relocated (py "a") (py "b")
  have heq : ev' = ev := h proofEnv (.v1Proof recordedProof) (siteBelow (py "a"))
    (siteBelow (py "b")) ev ev' hsite hev hev'
  have htext : (siteBelow (py "b")).artifactRoot.text = (siteBelow (py "a")).artifactRoot.text :=
    (@ReliabilityRun.evidence_eq_iff proofEnv.toEvidenceEnv (siteBelow (py "a"))
      (siteBelow (py "b")) recordedProof ev ev' hsite hev hev').mp heq
  exact absurd htext (by decide)

end AgentRuntimeGrid
