import AgentRuntimeGrid.Cli.Batch
import AgentRuntimeGrid.Cli.DrainedReport
import AgentRuntimeGrid.Cli.Rendering
import AgentRuntimeGrid.Jobs.Dispatch

/-! A smoke run from the empty grid to its report: the loop submits the jobs with nothing beside
it, the workers drain them in any order, and the report is built and checked. -/
namespace AgentRuntimeGrid

theorem JobSubmission.exists_row {env : Env} {sub : JobSubmission} {row : JobRecord}
    (h : sub.newRow env = .ok row) : ∃ hash hr, row = sub.row hash hr := by
  unfold newRow at h
  split at h
  · cases h
  next hash hhash =>
    split at h
    · cases h
    next hr =>
      cases h
      exact ⟨hash, hr, rfl⟩

/-- A call for a free key that returns a job has inserted its row. -/
theorem Database.createJob_fresh {db : Database} {env : Env} {sub : JobSubmission}
    {job : JobRecord} (hfree : db.getByIdempotencyKey sub.idempotencyKey = none)
    (h : (db.createJob env sub).1 = .ok job) : sub.newRow env = .ok job ∧
      (db.createJob env sub).2.jobs.rows = db.jobs.rows ++ [job] := by
  unfold createJob at h ⊢
  simp only [hfree] at h ⊢
  cases hrow : sub.newRow env with
  | error e =>
    simp only [hrow] at h
    cases h
  | ok row =>
    simp only [hrow] at h ⊢
    cases hdb : db.insertJob row with
    | error e =>
      simp only [hdb] at h
      cases h
    | ok db' =>
      simp only [hdb] at h ⊢
      cases h
      obtain ⟨jobs, hjobs, rfl⟩ := Database.insertJob_eq_ok hdb
      refine ⟨rfl, ?_⟩
      change jobs.rows = _
      unfold KeyedTable.insert at hjobs
      split at hjobs
      · cases hjobs
      · cases hjobs
        rfl

/-- A call for a key that is there leaves the database as it is. -/
theorem Database.createJob_taken {db : Database} {env : Env} {sub : JobSubmission}
    {existing : JobRecord} (h : db.getByIdempotencyKey sub.idempotencyKey = some existing) :
    (db.createJob env sub).2 = db := by
  unfold createJob
  rw [h]

namespace Batch
open Deployment
variable {cfg : Deployment} {b : Batch} {s t : State} {r r' : BatchRun} {job : JobRecord}

/-- Only the loop takes steps. -/
def Alone (_ : State × BatchRun) (a : BatchAction) : Prop := a = .advance

/-- What the loop has made of an empty grid: the rows are those of its submissions in their order,
and the stream holds the first message of each but the one in progress. -/
structure Made (cfg : Deployment) (b : Batch) (s : State) (r : BatchRun) : Prop where
  rows : s.shared.db.jobs.rows = r.created
  length : r.created.length = r.index + r.phase.unpublished.toList.length
  submission : ∀ i job, r.created[i]? = some job → (b.submission i).newRow cfg.env = .ok job
  published : ∃ done, r.created = done ++ r.phase.unpublished.toList ∧
    s.shared.queue.jobs.log = done.map fun job => ⟨job.message 1, none⟩

/-- Nothing else has happened to the grid. -/
structure Untouched (cfg : Deployment) (s : State) : Prop where
  reachable : cfg.lts.Reachable Lts.anyStep s
  idle : ∀ k, s.locals k = .idle
  delivered : s.shared.queue.jobs.delivered = 0
  rowLocks : s.shared.rowLocks = []
  files : s.shared.files = cfg.lts.init.shared.files

/-- The steps of the loop are those of a client of the deployment. -/
theorem Untouched.create (h : Untouched cfg s) (sub : JobSubmission) :
    Untouched cfg { s with shared := { s.shared with db := (s.shared.db.createJob cfg.env sub).2 } }
    where
  reachable := by
    refine h.reachable.step ⟨(0, .createJob sub), trivial, Actors.globalStep_eq_some.mpr ?_⟩
    refine ⟨_, _, by rw [h.idle 0]; rfl, ?_⟩
    rw [← h.idle 0, Function.update_eq_self]
  idle := h.idle
  delivered := h.delivered
  rowLocks := h.rowLocks
  files := h.files

theorem Untouched.publish (h : Untouched cfg s) (hjob : s.shared.db.loadJob job.id = some job) :
    Untouched cfg { s with shared := { s.shared with
      queue := s.shared.queue.publishJob (job.message 1) none } } where
  reachable := by
    refine h.reachable.step ⟨(0, .publishJob job.id 1), trivial, Actors.globalStep_eq_some.mpr ?_⟩
    refine ⟨_, _, by rw [h.idle 0]; exact Option.map_eq_some_iff.mpr ⟨job, hjob, rfl⟩, ?_⟩
    rw [← h.idle 0, Function.update_eq_self]
  idle := h.idle
  delivered := h.delivered
  rowLocks := h.rowLocks
  files := h.files

theorem Made.free (hkeys : Function.Injective fun i => (b.submission i).idempotencyKey)
    (hs : b.Made cfg s r) (hnone : r.phase.unpublished = none) :
    s.shared.db.getByIdempotencyKey (b.submission r.index).idempotencyKey = none := by
  refine List.find?_eq_none.mpr fun row hrow htaken => ?_
  rw [hs.rows] at hrow
  obtain ⟨i, hi⟩ := List.mem_iff_getElem?.mp hrow
  obtain ⟨-, -, -, -, hkey, -⟩ := JobSubmission.newRow_eq_ok (hs.submission i row hi)
  have hindex : i = r.index := hkeys (hkey.symm.trans (of_decide_eq_true htaken))
  have hlt := (List.getElem?_eq_some_iff.mp hi).1
  rw [hs.length, hnone, Option.toList_none, List.length_nil] at hlt
  omega

/-- The job in progress is the last one, and the submission of its iteration. -/
theorem Made.last (hs : b.Made cfg s r) (hjob : r.phase.unpublished = some job) :
    job ∈ s.shared.db.jobs.rows ∧ (b.submission r.index).newRow cfg.env = .ok job := by
  obtain ⟨done, hcreated, -⟩ := hs.published
  have hlength := hs.length
  rw [hjob, Option.toList_some] at hcreated hlength
  have hdone : done.length = r.index := by
    rw [hcreated, List.length_append] at hlength
    exact Nat.add_right_cancel hlength
  refine ⟨?_, hs.submission r.index job ?_⟩
  · rw [hs.rows, hcreated]
    exact List.mem_append_right _ (List.mem_singleton_self job)
  · rw [hcreated, ← hdone, List.getElem?_concat_length]

theorem Made.repeated (hs : b.Made cfg s r) (hjob : r.phase.unpublished = some job) :
    (s.shared.db.createJob cfg.env (b.submission r.index)).2 = s.shared.db := by
  obtain ⟨hmem, hrow⟩ := hs.last hjob
  obtain ⟨-, -, -, -, hkey, -⟩ := JobSubmission.newRow_eq_ok hrow
  have htaken : (s.shared.db.getByIdempotencyKey (b.submission r.index).idempotencyKey).isSome :=
    List.find?_isSome.mpr ⟨job, hmem, decide_eq_true hkey⟩
  obtain ⟨existing, hexisting⟩ := Option.isSome_iff_exists.mp htaken
  exact Database.createJob_taken hexisting

theorem Made.created (hs : b.Made cfg s r) (hnone : r.phase.unpublished = none)
    (hrow : (b.submission r.index).newRow cfg.env = .ok job) {db : Database}
    (hrows : db.jobs.rows = s.shared.db.jobs.rows ++ [job]) {phase : BatchPhase}
    (hphase : phase.unpublished = some job) :
    b.Made cfg { s with shared := { s.shared with db := db } }
      { r with phase := phase, created := r.created ++ [job] } := by
  have hlength : r.created.length = r.index := by rw [hs.length, hnone]; rfl
  obtain ⟨done, hcreated, hlog⟩ := hs.published
  rw [hnone, Option.toList_none, List.append_nil] at hcreated
  refine ⟨?_, ?_, ?_, r.created, ?_, ?_⟩
  · rw [← hs.rows]
    exact hrows
  · change (r.created ++ [job]).length = r.index + phase.unpublished.toList.length
    rw [hphase, List.length_append, hlength]
    rfl
  · intro i job' hi
    have hi : (r.created ++ [job])[i]? = some job' := hi
    rcases Nat.lt_or_ge i r.created.length with hlt | hge
    · rw [List.getElem?_append_left hlt] at hi
      exact hs.submission i job' hi
    · rw [List.getElem?_append_right hge, List.getElem?_singleton] at hi
      obtain ⟨hzero, heq⟩ := Option.ite_none_right_eq_some.mp hi
      obtain rfl := Option.some.inj heq
      rwa [show i = r.index by omega]
  · change r.created ++ [job] = r.created ++ phase.unpublished.toList
    rw [hphase]
    rfl
  · rw [hcreated]
    exact hlog

theorem Made.publish (hs : b.Made cfg s r) (hjob : r.phase.unpublished = some job) :
    b.Made cfg { s with shared := { s.shared with
      queue := s.shared.queue.publishJob (job.message 1) none } }
      { r with index := r.index + 1, phase := .creating } := by
  obtain ⟨done, hcreated, hlog⟩ := hs.published
  have hlength := hs.length
  rw [hjob, Option.toList_some] at hcreated hlength
  refine ⟨hs.rows, hlength, hs.submission, r.created, (List.append_nil _).symm, ?_⟩
  change s.shared.queue.jobs.log ++ [_] = _
  rw [hlog, hcreated, List.map_append]
  rfl

theorem Made.advance (hkeys : Function.Injective fun i => (b.submission i).idempotencyKey)
    (hs : b.Made cfg s r) (h : b.advance cfg s r = some (t, r')) (hopen : r'.stopped = false) :
    b.Made cfg t r' := by
  unfold Batch.advance at h
  cases hphase : r.phase with
  | creating =>
    have hnone : r.phase.unpublished = none := by rw [hphase]; rfl
    simp only [hphase] at h
    split at h
    next hlt =>
      cases hcreate : (s.shared.db.createJob cfg.env (b.submission r.index)).1 with
      | error e =>
        simp only [hcreate] at h
        cases h
        cases hopen
      | ok job =>
        simp only [hcreate] at h
        cases h
        obtain ⟨hrow, hrows⟩ := Database.createJob_fresh (hs.free hkeys hnone) hcreate
        refine hs.created hnone hrow hrows ?_
        cases b.repeats r.index <;> rfl
    next => cases h
  | repeating job =>
    have hjob : r.phase.unpublished = some job := by rw [hphase]; rfl
    simp only [hphase, hs.repeated hjob] at h
    cases hcreate : (s.shared.db.createJob cfg.env (b.submission r.index)).1 with
    | error e =>
      simp only [hcreate] at h
      cases h
      cases hopen
    | ok replayed =>
      simp only [hcreate] at h
      cases h
      by_cases hid : replayed.id = job.id
      · rw [if_neg (not_not.mpr hid)]
        have hlength := hs.length
        have hpublished := hs.published
        rw [hjob] at hlength hpublished
        exact ⟨hs.rows, hlength, hs.submission, hpublished⟩
      · rw [if_pos hid] at hopen
        cases hopen
  | publishing job =>
    have hjob : r.phase.unpublished = some job := by rw [hphase]; rfl
    simp only [hphase] at h
    cases h
    exact hs.publish hjob

theorem Untouched.advance (h : Untouched cfg s) (hs : b.Made cfg s r)
    (hstep : b.advance cfg s r = some (t, r')) : Untouched cfg t := by
  unfold Batch.advance at hstep
  cases hphase : r.phase with
  | creating =>
    simp only [hphase] at hstep
    split at hstep
    next =>
      cases hstep
      exact h.create _
    next => cases hstep
  | repeating job =>
    simp only [hphase] at hstep
    cases hstep
    exact h.create _
  | publishing job =>
    simp only [hphase] at hstep
    cases hstep
    have hjob : r.phase.unpublished = some job := by rw [hphase]; rfl
    exact h.publish (KeyedTable.get?_eq_some_iff.mpr ⟨(hs.last hjob).1, rfl⟩)

theorem made_reachable (hkeys : Function.Injective fun i => (b.submission i).idempotencyKey)
    {x : State × BatchRun} (hx : (lts cfg b).Reachable Alone x) :
    Untouched cfg x.1 ∧ (x.2.stopped = false → b.Made cfg x.1 x.2) := by
  refine Lts.Reachable.invariant
    (P := fun x => Untouched cfg x.1 ∧ (x.2.stopped = false → b.Made cfg x.1 x.2)) ?_ ?_ hx
  · refine ⟨⟨.init, fun _ => rfl, rfl, rfl, rfl⟩, fun _ => ⟨rfl, rfl, ?_, [], rfl, rfl⟩⟩
    intro i job hi
    cases hi
  · rintro ⟨s, r⟩ a ⟨t, r'⟩ - ⟨huntouched, hmade⟩ rfl hstep
    obtain ⟨hopen, hadvance⟩ := Option.ite_none_left_eq_some.mp hstep
    have hs := hmade (Bool.not_eq_true _ ▸ hopen)
    exact ⟨huntouched.advance hs hadvance, hs.advance hkeys hadvance⟩

theorem Made.batch (h : Untouched cfg s) (hs : b.Made cfg s r) (hreturned : r.Returned b) :
    s.shared.Batch r.created := by
  obtain ⟨done, hcreated, hlog⟩ := hs.published
  rw [hreturned.2.1, Option.toList_none, List.append_nil] at hcreated
  refine Deployment.batch_of_reachable h.reachable ?_ (hcreated ▸ hlog) h.delivered h.rowLocks ?_ ?_
  · exact hs.rows ▸ s.shared.db.jobs.nodup
  · exact fun job hjob => KeyedTable.get?_eq_some_iff.mpr ⟨hs.rows ▸ hjob, rfl⟩
  · intro job hjob
    obtain ⟨i, hi⟩ := List.mem_iff_getElem?.mp hjob
    exact (JobSubmission.newRow_eq_ok (hs.submission i job hi)).2.2.1

end Batch

/-- What the runner returns for a payload of the loop. -/
def smokeResult : Dict :=
  [(py "summary", .str (py "stub job completed")),
    (py "input_keys", .arr [.str (py "index"), .str (py "mode")])]

/-- The workers of `run_smoke`. -/
def smokePool (env : ReportEnv) : Pool where
  env := env.toEnv
  workerId i := "smoke-worker-" ++ toString (i + 1)
  budgetPolicy := .stub 2
  hasArtifactStore := true
  outcome _ _ := .success smokeResult
  writes _ _ := []

/-- A run of `run_smoke` on the empty grid up to its report: the loop that submits the jobs has
returned, and the loop of the workers is left. -/
structure SmokeSession (env : ReportEnv) (n : ℕ) where
  runId : RunId
  jobIds : ℕ → JobId
  jobs : ℤ
  submitted : Deployment.State
  loop : BatchRun
  drained : Drain n
  jobs_pos : 0 < jobs
  workers_pos : 0 < n
  submission : (Batch.lts (smokePool env).deployment (submitSmokeBatch runId jobIds jobs)).Reachable
    Batch.Alone (submitted, loop)
  returned : loop.Returned (submitSmokeBatch runId jobIds jobs)
  drain : ((smokePool env).drain n submitted.shared).Reachable (Drain.ClockTexts env) drained
  exited : drained.exited = true

theorem submitSmokeBatch_keys (runId : RunId) (jobIds : ℕ → JobId) (count : ℤ) :
    Function.Injective fun i => ((submitSmokeBatch runId jobIds count).submission i).idempotencyKey
    := by
  intro i j h
  have h : String.ofList ((uuidText runId).map Char.ofNat) ++ ":" ++ toString i =
    String.ofList ((uuidText runId).map Char.ofNat) ++ ":" ++ toString j := h
  have hdigits := congrArg String.toList h
  have htext : ∀ k : ℕ, (toString k).toList = Nat.toDigits 10 k := by simp [toString, Nat.repr]
  simp only [String.toList_append, List.append_cancel_left_eq, htext] at hdigits
  have hpy : PyText.digits i = PyText.digits j := congrArg (List.map Char.toNat) hdigits
  rw [← PyText.ofDigits_digits i, hpy, PyText.ofDigits_digits]

/-- A row of the loop is a stub job of the run. -/
structure JobRecord.OfSmoke (run : RunId) (jobId : JobId) (index : ℕ) (row : JobRecord) : Prop where
  id_eq : row.id = jobId
  runId_eq : row.runId = run
  jobType_eq : row.jobType = "stub"
  maxRetries_eq : row.maxRetries = 1
  payload_eq : row.payload.fields =
    [(py "index", .int index), (py "mode", .str (py "success"))]

theorem ofSmoke_of_newRow {env : Env} {runId : RunId} {jobIds : ℕ → JobId} {count : ℤ} {i : ℕ}
    {row : JobRecord}
    (h : ((submitSmokeBatch runId jobIds count).submission i).newRow env = .ok row) :
    row.OfSmoke runId (jobIds i) i := by
  obtain ⟨hash, hr, rfl⟩ := JobSubmission.exists_row h
  exact ⟨rfl, rfl, rfl, rfl, rfl⟩

/-- Such a job always ends with a success. -/
theorem JobRecord.OfSmoke.runJob_eq {runId : RunId} {jobId : JobId} {i : ℕ} {row : JobRecord}
    (h : row.OfSmoke runId jobId i) (env : RunnerEnv) (ctx : RunContext) (n : ℤ) :
    runJob env ctx row n = ([], .success smokeResult) := by
  unfold runJob
  rw [h.jobType_eq, h.payload_eq]
  rfl

theorem smokePool_retries (env : ReportEnv) (job : JobRecord) : (smokePool env).retries job = 0 :=
  (smokePool env).retries_eq (Nat.zero_le _) (fun _ hi => absurd hi (Nat.not_lt_zero _)) (.inr rfl)

theorem smokePool_success {env : ReportEnv} {j : JobId} {k : ℤ} {result : Dict}
    (h : (smokePool env).outcome j k = .success result) : result = smokeResult :=
  (JobOutcome.success.inj h).symm

theorem smokePool_records (env : ReportEnv) (files : FileStore) :
    (smokePool env).Records files := by
  refine Pool.records_of_plain (fun j n result h => ?_) files
  rw [smokePool_success h]
  exact ⟨by decide, rfl⟩

namespace SmokeSession
variable {env : ReportEnv} {n : ℕ} (run : SmokeSession env n)

theorem made : Batch.Untouched (smokePool env).deployment run.submitted ∧
    (submitSmokeBatch run.runId run.jobIds run.jobs).Made (smokePool env).deployment run.submitted
      run.loop := by
  obtain ⟨huntouched, hmade⟩ := Batch.made_reachable
    (submitSmokeBatch_keys run.runId run.jobIds run.jobs) run.submission
  exact ⟨huntouched, hmade run.returned.1⟩

theorem length_created : (run.loop.created.length : ℤ) = run.jobs := by
  obtain ⟨-, hmade⟩ := run.made
  have hle := (Batch.accounted_reachable run.submission.weaken).index_le
  have hge := run.returned.2.2
  change (run.loop.index : ℤ) ≤ max run.jobs 0 at hle
  change run.jobs ≤ (run.loop.index : ℤ) at hge
  rw [hmade.length, run.returned.2.1]
  have := run.jobs_pos
  simp only [Option.toList_none, List.length_nil, add_zero]
  omega

theorem exists_index {job : JobRecord} (hjob : job ∈ run.loop.created) :
    ∃ i : ℕ, (i : ℤ) < run.jobs ∧ job.OfSmoke run.runId (run.jobIds i) i := by
  obtain ⟨-, hmade⟩ := run.made
  obtain ⟨i, hi⟩ := List.mem_iff_getElem?.mp hjob
  refine ⟨i, ?_, ofSmoke_of_newRow (hmade.submission i job hi)⟩
  rw [← run.length_created]
  exact Int.ofNat_lt.mpr (List.getElem?_eq_some_iff.mp hi).1

theorem runOf_iff (j : JobId) : run.submitted.shared.db.runOf j = some run.runId ↔
    j ∈ run.loop.created.map JobRecord.id := by
  obtain ⟨-, hmade⟩ := run.made
  rw [List.mem_map, Database.runOf, ← hmade.rows]
  constructor
  · intro hj
    obtain ⟨row, hrow, -⟩ := Option.map_eq_some_iff.mp hj
    exact ⟨row, KeyedTable.get?_eq_some_iff.mp hrow⟩
  · rintro ⟨row, hrow⟩
    obtain ⟨i, -, hsmoke⟩ := run.exists_index (hmade.rows ▸ hrow.1)
    exact Option.map_eq_some_iff.mpr ⟨row, KeyedTable.get?_eq_some_iff.mpr hrow, hsmoke.runId_eq⟩

theorem verifiable (henv : env.Documented)
    (hfinds : ∀ i : ℕ, (i : ℤ) < run.jobs → env.Finds (.artifact (run.jobIds i) 1)) :
    (smokePool env).Verifiable env run.loop.created where
  env_eq := rfl
  documented := henv
  hasArtifactStore := rfl
  payload j k result h := by rw [smokePool_success h]; rfl
  summary j k result h := by
    rw [smokePool_success h]
    exact fun _ => unpaired_py "stub job completed"
  writes _ _ _ _ h := by cases h
  finds job hjob := by
    obtain ⟨i, hi, hsmoke⟩ := run.exists_index hjob
    rw [smokePool_retries, hsmoke.id_eq]
    exact hfinds i hi
  maxRetries job hjob := by
    obtain ⟨i, -, hsmoke⟩ := run.exists_index hjob
    rw [hsmoke.maxRetries_eq]
    rfl

theorem batch : run.submitted.shared.Batch run.loop.created := by
  obtain ⟨huntouched, hmade⟩ := run.made
  exact hmade.batch huntouched run.returned

theorem dispatch : ∀ job ∈ run.loop.created,
    (smokePool env).budgetPolicy.validateJobDispatch job = .ok () := by
  intro job hjob
  obtain ⟨i, -, hsmoke⟩ := run.exists_index hjob
  rw [BudgetPolicy.validateJobDispatch, hsmoke.jobType_eq]
  rfl

/-- The loop of the workers takes at most so many steps that are not renewals of a lease, and can
always take one more until it is left. -/
def Ends : Prop :=
  (∀ as t, ((smokePool env).drain n run.submitted.shared).exec Lts.unchecked
      ((smokePool env).drain n run.submitted.shared).init as = some t →
      as.countP DrainAction.isWork ≤ (smokePool env).workBound n run.jobs.toNat) ∧
  ∀ t, ((smokePool env).drain n run.submitted.shared).Reachable Lts.anyStep t →
    t.exited = false → ∃ a t', a.isWork = true ∧ (smokePool env).step t a = some t'

theorem ends : run.Ends := by
  have hrecords := smokePool_records env run.submitted.shared.files
  constructor
  · intro as t ht
    have hlength := run.length_created
    rw [show run.jobs.toNat = run.loop.created.length by omega]
    exact run.batch.countP_isWork_le hrecords run.dispatch ht
  · intro t ht
    exact (run.batch.drain_invariant hrecords run.dispatch ht).exists_work run.batch.nodup hrecords
      run.dispatch

theorem exists_report (henv : env.Documented)
    (hfinds : ∀ i : ℕ, (i : ℤ) < run.jobs → env.Finds (.artifact (run.jobIds i) 1))
    (name : PyStr) (measured : Measurements) : ∃ report,
    buildSmokeReport env run.drained.grid.files run.drained.grid.db run.runId name measured =
      .ok report ∧ report.OfDrained (smokePool env) run.loop.created := by
  obtain ⟨huntouched, -⟩ := run.made
  exact Pool.exists_drained_report huntouched.reachable huntouched.idle run.batch run.runOf_iff
    run.workers_pos (smokePool_records env _) run.dispatch (run.verifiable henv hfinds) run.drain
    run.exited name measured

/-- What the run leaves for its evidence. -/
def data (measured : Measurements) (origin : RunOrigin) : SmokeRun where
  db := run.drained.grid.db
  runId := run.runId
  measured := measured
  origin := origin
  jobs := run.jobs
  workers := n
  failureRate := .finite 0
  mode := py "stub"

end SmokeSession

section Evidence
variable {env : EvidenceEnv} {site : Site} {n : ℕ}

theorem SmokeRun.evidence_of_report {run : SmokeRun} {report : ReliabilityReport}
    (hjobs : 0 < run.jobs) (hworkers : 0 < run.workers) (hmode : run.mode = py "stub")
    (hrate : run.failureRate = .finite 0)
    (hbuild : buildSmokeReport (env.onSite site).toReportEnv site.files run.db run.runId
      site.artifactRoot.name run.measured = .ok report)
    (hvalid : validateSmokeReport env.toReportEnv report run.jobs = .ok ()) :
    run.evidence env site = .ok ⟨evidencePayload env run.origin report "smoke" (run.config site)
      none, renderReliabilityReport env report⟩ := by
  have hasked : ¬ (run.jobs ≤ 0 ∨ run.workers ≤ 0 ∨ run.mode ≠ py "stub" ∨
      run.failureRate ≠ .finite 0) := by
    rintro (h | h | h | h)
    · omega
    · omega
    · exact h hmode
    · exact h hrate
  unfold evidence
  simp only [hasked, if_false, hbuild, hvalid, bind, Except.bind]
  rfl

/-- A smoke run whose jobs are submitted returns: whatever the number of jobs and of workers and the
order of the workers' steps, their loop ends, each attempt ends as the runner of its job does, and
the evidence of the run is that of a report that counts every job as completed without a retry. -/
theorem SmokeSession.evidence_returned (run : SmokeSession (env.onSite site).toReportEnv n)
    (henv : (env.onSite site).toReportEnv.Documented)
    (hfinds : ∀ i : ℕ, (i : ℤ) < run.jobs →
      (env.onSite site).toReportEnv.Finds (.artifact (run.jobIds i) 1))
    (measured : Measurements) (origin : RunOrigin) :
    run.Ends ∧
    (∀ job ∈ run.loop.created, ∀ renv ctx k, runJob renv ctx job k =
      ([], ((smokePool (env.onSite site).toReportEnv).outcome job.id k).toRun)) ∧
    ∃ report : ReliabilityReport, (report.submittedJobs : ℤ) = run.jobs ∧
      (report.lifecycleCounts.get "completed" : ℤ) = run.jobs ∧ report.retryCount = 0 ∧
      (run.data measured origin).evidence env { site with files := run.drained.grid.files } =
        .ok {
          payload := evidencePayload env origin report "smoke"
            ((run.data measured origin).config site) none
          rendered := renderReliabilityReport env report } := by
  obtain ⟨report, hbuild, hreport⟩ :=
    run.exists_report henv hfinds site.artifactRoot.name measured
  have hcompleted : ∀ job ∈ run.loop.created, Pool.verdict (smokePool (env.onSite site).toReportEnv)
      job (Pool.retries (smokePool (env.onSite site).toReportEnv) job) = .completed :=
    fun _ _ => rfl
  have hall := List.countP_eq_length.mpr fun job hjob => decide_eq_true (hcompleted job hjob)
  refine ⟨run.ends, fun job hjob renv ctx k => ?_, report, ?_, ?_, ?_, ?_⟩
  · obtain ⟨i, -, hsmoke⟩ := run.exists_index hjob
    exact hsmoke.runJob_eq renv ctx k
  · rw [hreport.submitted, run.length_created]
  · rw [hreport.completed, hall, run.length_created]
  · rw [hreport.retries, List.map_congr_left fun job _ => smokePool_retries _ job]
    simp
  · refine SmokeRun.evidence_of_report run.jobs_pos (Int.natCast_pos.mpr run.workers_pos) rfl rfl
      hbuild ?_
    change validateSmokeReport _ report run.jobs = _
    rw [← run.length_created]
    exact hreport.validate_iff.mpr hcompleted

end Evidence

/-- The digests of a run of one job, and the site of the run. -/
def oneJobEnv : EvidenceEnv where
  toReportEnv := { storingEnv with
    sha256 := fun data =>
      if data = py "\x7b\"index\":0,\"mode\":\"success\"\x7d" then
        "b8ba77e15f1334e56bf422a267b71e66d1bd1794964324fc0989ec8d2f2d898c"
      else "ba26cea6ce1805db58e0071ddd8f83ef9dfcb72fb4ec5084369ff9d9ed306ad3" }
  relativeToCwd _ := none

def oneJobSite : Site where
  artifactRoot := ⟨[], [py "artifacts"]⟩
  reportPath := ⟨[], [py "report.md"]⟩
  evalLabDatasetPath := ⟨[], [py "dataset.jsonl"]⟩
  evalLabReportPath := ⟨[], [py "report.json"]⟩
  gdevArtifactPath := ⟨[], [py "artifact.json"]⟩
  resolve text :=
    if text = py "artifacts/" ++ uuidText 1 ++ py "/attempt-1.json" then .artifact 1 1
    else .other ""
  files _ := none

private abbrev oneJobReportEnv : ReportEnv := (oneJobEnv.onSite oneJobSite).toReportEnv

private def clockText : String := "2026-06-12T00:00:00+00:00"

/-- The first worker runs the job while the second finds the stream empty. -/
def oneJobRun : List (DrainAction 2) :=
  let first : Fin 2 := ⟨0, Nat.two_pos⟩
  let second : Fin 2 := ⟨1, Nat.one_lt_two⟩
  List.replicate 6 (.work first clockText) ++
    [.work second clockText, .gather, .work first clockText, .work second clockText, .gather]

private def leavesLoop (x : Deployment.State × BatchRun) : Bool :=
  !x.2.stopped && x.2.phase.unpublished.isNone && decide (1 ≤ x.2.index) &&
  (((smokePool oneJobReportEnv).drain 2 x.1.shared).exec (fun _ _ => true)
    ((smokePool oneJobReportEnv).drain 2 x.1.shared).init oneJobRun).any fun t => t.exited

private def isAdvance : BatchAction → Bool
  | .advance => true
  | _ => false

/-- A run of one job and two workers returns its evidence. -/
theorem SmokeSession.evidence_returned_one : ∃ run : SmokeSession oneJobReportEnv 2, run.jobs = 1 ∧
    ∃ ev, (run.data ⟨.finite 0, .finite 0, none⟩ ⟨py clockText, [], []⟩).evidence oneJobEnv
      { oneJobSite with files := run.drained.grid.files } = .ok ev := by
  obtain ⟨⟨s₀, r⟩, hx, hp⟩ := Lts.exists_run_of_exec
    (L := Batch.lts (smokePool oneJobReportEnv).deployment (submitSmokeBatch 2 (fun i => i + 1) 1))
    (C := Batch.Alone) (c := fun _ a => isAdvance a)
    (fun _ a ha => by cases a <;> first | rfl | cases ha)
    ((smokePool oneJobReportEnv).deployment.lts.init, .start) [.advance, .advance] leavesLoop
    (by decide +kernel)
  simp only [leavesLoop, Bool.and_eq_true, Bool.not_eq_true', Option.isNone_iff_eq_none,
    decide_eq_true_eq] at hp
  obtain ⟨⟨⟨hopen, hnone⟩, hindex⟩, hdrain⟩ := hp
  obtain ⟨t, ht, hexited⟩ := Lts.exists_run_of_exec (C := Drain.ClockTexts oneJobReportEnv)
    (fun _ _ _ _ _ _ => rfl) _ _ _ hdrain
  let run : SmokeSession oneJobReportEnv 2 :=
    { runId := 2, jobIds := fun i => i + 1, jobs := 1, submitted := s₀, loop := r, drained := t
      jobs_pos := Int.one_pos
      workers_pos := Nat.two_pos
      submission := hx
      returned := ⟨hopen, hnone, Int.ofNat_le.mpr hindex⟩
      drain := ht
      exited := hexited }
  have hfinds : ∀ i : ℕ, (i : ℤ) < run.jobs →
      oneJobReportEnv.Finds (.artifact (run.jobIds i) 1) := by
    intro i hi
    have hi : (i : ℤ) < 1 := hi
    obtain rfl : i = 0 := by omega
    change oneJobReportEnv.resolve (oneJobReportEnv.pathText (.artifact 1 1)) = .artifact 1 1
    decide
  obtain ⟨-, -, report, -, -, -, hevidence⟩ := SmokeSession.evidence_returned run
    ⟨documented_storingEnv.intOf_int, documented_storingEnv.jsonLoads,
      documented_storingEnv.trueDiv_self⟩ hfinds ⟨.finite 0, .finite 0, none⟩
    ⟨py clockText, [], []⟩
  exact ⟨run, rfl, _, hevidence⟩

end AgentRuntimeGrid
