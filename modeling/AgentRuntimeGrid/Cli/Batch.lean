import AgentRuntimeGrid.Runtime.Provenance

/-! The three loops that submit a batch: each iteration commits a job row and then publishes the
job's first message. A loop can stop at any point, between any steps of the deployment. -/
namespace AgentRuntimeGrid

inductive FailureMode where
  | transient | permanent | timeout | cancellation | duplicateSubmission
  deriving DecidableEq, Repr

structure InjectedFailure where
  index : ℤ
  mode : FailureMode

def payloadForFailure : FailureMode → Dict
  | .transient => [(py "mode", .str (py "transient_error"))]
  | .permanent => [(py "mode", .str (py "permanent_error"))]
  | .timeout => [(py "mode", .str (py "sleep")), (py "duration_seconds", .int 2)]
  | .cancellation => [(py "mode", .str (py "sleep")), (py "duration_seconds", .int 5)]
  | .duplicateSubmission =>
      [(py "mode", .str (py "success")), (py "duplicate_submission", .bool true)]

/-- `failures_by_index.get(index)`: the last failure of an index counts. -/
def failureAt (failures : List InjectedFailure) (index : ℕ) : Option FailureMode :=
  (failures.reverse.find? fun f => f.index = (index : ℤ)).map InjectedFailure.mode

/-- A submission loop: what it submits for each index of `range(count)`, and whether it submits it
once more. -/
structure Batch where
  count : ℤ
  submission : ℕ → JobSubmission
  repeats : ℕ → Bool

private def uuidString (u : UUID) : String := String.ofList ((uuidText u).map Char.ofNat)

private def batchKey (runId : RunId) (index : ℕ) : String :=
  uuidString runId ++ ":" ++ toString index

private def successPayload (index : ℕ) : Dict :=
  [(py "index", .int index), (py "mode", .str (py "success"))]

/-- The loop of `submit_batch` with the ids it draws. -/
def submitBatch (runId : RunId) (jobIds : ℕ → JobId) (count : ℤ) (jobType : String)
    (timeoutSeconds maxRetries : ℤ) : Batch where
  count := count
  submission index := {
    jobType := jobType
    payload := successPayload index
    idempotencyKey := batchKey runId index
    timeoutSeconds := timeoutSeconds
    maxRetries := maxRetries
    traceId := "trace-" ++ uuidString runId
    budgetCents := none
    jobId := jobIds index
    runId := runId }
  repeats _ := false

/-- The loop of `_submit_smoke_batch`. -/
def submitSmokeBatch (runId : RunId) (jobIds : ℕ → JobId) (count : ℤ) : Batch where
  count := count
  submission index := {
    jobType := "stub"
    payload := successPayload index
    idempotencyKey := batchKey runId index
    timeoutSeconds := 30
    maxRetries := 1
    traceId := "trace-" ++ uuidString runId
    budgetCents := none
    jobId := jobIds index
    runId := runId }
  repeats _ := false

/-- The loop of `_submit_reliability_batch`. -/
def submitReliabilityBatch (runId : RunId) (jobIds : ℕ → JobId) (jobs : ℤ)
    (failures : List InjectedFailure) (repeatIdempotencySubmissions : Bool) : Batch where
  count := jobs
  submission index :=
    let mode := failureAt failures index
    let payload := match mode with
      | some mode => payloadForFailure mode
      | none => successPayload index
    { jobType := "stub"
      payload := Dict.set payload (py "index") (.int index)
      idempotencyKey := batchKey runId index
      timeoutSeconds := if mode = some .timeout then 1 else 30
      maxRetries := if mode = some .transient then 1 else 0
      traceId := "trace-" ++ uuidString runId
      budgetCents := none
      jobId := jobIds index
      runId := runId }
  repeats index :=
    repeatIdempotencySubmissions && failureAt failures index = some .duplicateSubmission

/-- A call of one of the three functions. -/
inductive BatchCall where
  | submitBatch (runId : RunId) (jobIds : ℕ → JobId) (count : ℤ) (jobType : String)
      (timeoutSeconds maxRetries : ℤ)
  | submitSmokeBatch (runId : RunId) (jobIds : ℕ → JobId) (count : ℤ)
  | submitReliabilityBatch (runId : RunId) (jobIds : ℕ → JobId) (jobs : ℤ)
      (failures : List InjectedFailure) (repeatIdempotencySubmissions : Bool)

def BatchCall.batch : BatchCall → Batch
  | .submitBatch runId jobIds count jobType timeoutSeconds maxRetries =>
      AgentRuntimeGrid.submitBatch runId jobIds count jobType timeoutSeconds maxRetries
  | .submitSmokeBatch runId jobIds count => AgentRuntimeGrid.submitSmokeBatch runId jobIds count
  | .submitReliabilityBatch runId jobIds jobs failures repeats =>
      AgentRuntimeGrid.submitReliabilityBatch runId jobIds jobs failures repeats

/-- The await the loop is at. -/
inductive BatchPhase where
  | creating
  | repeating (job : JobRecord)
  | publishing (job : JobRecord)

/-- The job of the iteration that is committed and not published. -/
def BatchPhase.unpublished : BatchPhase → Option JobRecord
  | .creating => none
  | .repeating job | .publishing job => some job

structure BatchRun where
  index : ℕ
  phase : BatchPhase
  /-- The jobs that `create_job` has committed or found, in the order of the iterations. -/
  created : List JobRecord
  stopped : Bool

def BatchRun.start : BatchRun := ⟨0, .creating, [], false⟩

def BatchRun.Returned (b : Batch) (r : BatchRun) : Prop :=
  r.stopped = false ∧ r.phase.unpublished = none ∧ b.count ≤ r.index

inductive BatchAction where
  /-- A step of any actor of the deployment. -/
  | deployment (a : ℕ × Action)
  | advance
  /-- The process dies or the call in progress raises, its effect on the server made or not. -/
  | stop (effect : Bool)

namespace Batch
open Deployment
variable {cfg : Deployment} {b : Batch} {s t : State} {r r' : BatchRun}

def advance (cfg : Deployment) (b : Batch) (s : State) (r : BatchRun) : Option (State × BatchRun) :=
  let create := s.shared.db.createJob cfg.env (b.submission r.index)
  let committed : State := { s with shared := { s.shared with db := create.2 } }
  match r.phase with
  | .creating =>
    if (r.index : ℤ) < b.count then
      some (committed, match create.1 with
        | .error _ => { r with stopped := true }
        | .ok job => { r with
            phase := if b.repeats r.index then .repeating job else .publishing job
            created := r.created ++ [job] })
    else none
  | .repeating job =>
    some (committed, match create.1 with
      | .error _ => { r with stopped := true }
      | .ok replayed =>
        if replayed.id ≠ job.id then { r with stopped := true }
        else { r with phase := .publishing job })
  | .publishing job =>
    some ({ s with shared := { s.shared with
        queue := s.shared.queue.publishJob (job.message 1) none } },
      { r with index := r.index + 1, phase := .creating })

def step (cfg : Deployment) (b : Batch) (s : State × BatchRun) (a : BatchAction) :
    Option (State × BatchRun) :=
  match a with
  | .deployment a => (cfg.lts.step s.1 a).map fun t => (t, s.2)
  | .advance => if s.2.stopped then none else b.advance cfg s.1 s.2
  | .stop effect =>
    if s.2.stopped then none
    else if effect then (b.advance cfg s.1 s.2).map fun t => (t.1, { t.2 with stopped := true })
    else some (s.1, { s.2 with stopped := true })

def lts (cfg : Deployment) (b : Batch) : Lts (State × BatchRun) BatchAction where
  init := (cfg.lts.init, .start)
  step := b.step cfg

theorem advance_cases (h : b.advance cfg s r = some (t, r')) :
    (∃ job, r.phase.unpublished = none ∧ (r.index : ℤ) < b.count ∧
      t.shared.queue = s.shared.queue ∧ r'.index = r.index ∧
      r'.phase.unpublished = some job ∧ r'.created = r.created ++ [job]) ∨
    (t.shared.queue = s.shared.queue ∧ r'.index = r.index ∧
      r'.phase.unpublished = r.phase.unpublished ∧ r'.created = r.created) ∨
    ∃ job, r.phase.unpublished = some job ∧
      t.shared.queue = s.shared.queue.publishJob (job.message 1) none ∧
      r'.index = r.index + 1 ∧ r'.phase.unpublished = none ∧ r'.created = r.created := by
  unfold advance at h
  cases hphase : r.phase with
  | creating =>
    simp only [hphase] at h
    split at h
    next hlt =>
      cases h
      cases hcreate : (s.shared.db.createJob cfg.env (b.submission r.index)).1 with
      | error e => exact .inr (.inl ⟨rfl, rfl, rfl, rfl⟩)
      | ok job =>
        refine .inl ⟨job, rfl, hlt, rfl, rfl, ?_, rfl⟩
        cases b.repeats r.index <;> simp [BatchPhase.unpublished]
    next => cases h
  | repeating job =>
    simp only [hphase] at h
    cases h
    refine .inr (.inl ?_)
    cases hcreate : (s.shared.db.createJob cfg.env (b.submission r.index)).1 with
    | error e => exact ⟨rfl, rfl, rfl, rfl⟩
    | ok replayed =>
      refine ⟨rfl, ?_⟩
      by_cases hid : replayed.id = job.id <;> simp [hid, BatchPhase.unpublished]
  | publishing job =>
    simp only [hphase] at h
    cases h
    exact .inr (.inr ⟨job, rfl, rfl, rfl, rfl, rfl⟩)

/-- Every iteration that is over has its job's first message in the stream; the job of the
iteration in progress is the last one created. -/
structure Accounted (b : Batch) (s : State) (r : BatchRun) : Prop where
  index_le : (r.index : ℤ) ≤ max b.count 0
  index_lt : r.phase.unpublished ≠ none → (r.index : ℤ) < b.count
  published : ∃ done, r.created = done ++ r.phase.unpublished.toList ∧ done.length = r.index ∧
    ∀ job ∈ done, ∃ entry ∈ s.shared.queue.jobs.log, entry.message = job.message 1

theorem Accounted.advance (hs : b.Accounted s r) (h : b.advance cfg s r = some (t, r')) :
    b.Accounted t r' := by
  obtain ⟨done, hcreated, hlength, hdone⟩ := hs.published
  rcases advance_cases h with ⟨job, hnone, hlt, hqueue, hindex, hsome, hnew⟩ |
    ⟨hqueue, hindex, hsame, hnew⟩ | ⟨job, hsome, hqueue, hindex, hnone, hnew⟩
  · refine ⟨hindex ▸ hs.index_le, fun _ => hindex ▸ hlt, done, ?_, hindex ▸ hlength, ?_⟩
    · simpa [hnone, hsome, hcreated] using hnew
    · rwa [hqueue]
  · refine ⟨hindex ▸ hs.index_le, fun hne => ?_, done, ?_, hindex ▸ hlength, ?_⟩
    · rw [hindex]
      exact hs.index_lt (hsame ▸ hne)
    · rw [hnew, hcreated, hsame]
    · rwa [hqueue]
  · have hlt := hs.index_lt (hsome ▸ Option.some_ne_none job)
    refine ⟨?_, fun hne => absurd hnone hne, r.created, ?_, ?_, ?_⟩
    · rw [hindex]
      push_cast
      omega
    · simpa [hnone] using hnew
    · simp [hcreated, hsome, hlength, hindex]
    · intro job' hjob'
      rw [hqueue]
      simp only [hcreated, hsome, Option.toList_some, List.mem_append, List.mem_singleton] at hjob'
      rcases hjob' with hjob' | rfl
      · obtain ⟨entry, hentry, hmessage⟩ := hdone job' hjob'
        exact ⟨entry, List.mem_append_left _ hentry, hmessage⟩
      · exact ⟨⟨job'.message 1, none⟩, by simp [RedisStreamsQueue.publishJob,
          ConsumerGroup.append], rfl⟩

theorem Accounted.stop (hs : b.Accounted s r) : b.Accounted s { r with stopped := true } :=
  ⟨hs.index_le, hs.index_lt, hs.published⟩

theorem Accounted.deployment (hs : b.Accounted s r) {a : ℕ × Action}
    (h : cfg.lts.step s a = some t) : b.Accounted t r := by
  obtain ⟨g', l', ht, rfl⟩ := step_transition h
  obtain ⟨done, hcreated, hlength, hdone⟩ := hs.published
  refine ⟨hs.index_le, hs.index_lt, done, hcreated, hlength, fun job hjob => ?_⟩
  obtain ⟨entry, hentry, hmessage⟩ := hdone job hjob
  exact ⟨entry, ht.grows.queue.log.subset hentry, hmessage⟩

theorem accounted_reachable {x : State × BatchRun} (hx : (lts cfg b).Reachable Lts.anyStep x) :
    b.Accounted x.1 x.2 := by
  refine Lts.Reachable.invariant (P := fun x => b.Accounted x.1 x.2) ?_ ?_ hx
  · exact ⟨le_max_right _ _, fun h => absurd rfl h, [], rfl, rfl, fun _ h => (nomatch h)⟩
  · rintro ⟨s, r⟩ a x - hs - h
    have h : b.step cfg (s, r) a = some x := h
    unfold step at h
    cases a with
    | deployment a =>
      obtain ⟨t, ht, rfl⟩ := Option.map_eq_some_iff.mp h
      exact hs.deployment ht
    | advance =>
      obtain ⟨-, h⟩ := Option.ite_none_left_eq_some.mp h
      exact hs.advance h
    | stop effect =>
      obtain ⟨-, h⟩ := Option.ite_none_left_eq_some.mp h
      cases effect with
      | true =>
        obtain ⟨⟨t, r'⟩, ht, rfl⟩ := Option.map_eq_some_iff.mp h
        exact (hs.advance ht).stop
      | false =>
        cases h
        exact hs.stop

/-- Wherever a submission loop stops, and whatever the deployment does meanwhile: one job was
created for each iteration that is over, each with its first message in the stream, and at most one
more, that of the iteration cut between its commit and its publication. A loop that returns has
published all its jobs. -/
theorem batch_submission_published (call : BatchCall)
    (hx : (lts cfg call.batch).Reachable Lts.anyStep (s, r)) :
    (∃ done, r.created = done ++ r.phase.unpublished.toList ∧ done.length = r.index ∧
      ∀ job ∈ done, ∃ entry ∈ s.shared.queue.jobs.log, entry.message = job.message 1) ∧
    (r.Returned call.batch → r.created.length = call.batch.count.toNat ∧
      ∀ job ∈ r.created, ∃ entry ∈ s.shared.queue.jobs.log, entry.message = job.message 1) := by
  have hs : call.batch.Accounted s r := accounted_reachable hx
  refine ⟨hs.published, ?_⟩
  rintro ⟨-, hnone, hcount⟩
  obtain ⟨done, hcreated, hlength, hdone⟩ := hs.published
  rw [hnone, Option.toList_none, List.append_nil] at hcreated
  have hle := hs.index_le
  refine ⟨?_, hcreated ▸ hdone⟩
  rw [hcreated, hlength]
  omega

/-- A deployment that digests the payloads of the first two iterations. -/
def batchDeployment : Deployment where
  env := { sampleEnv with
    sha256 := fun data => if data = py "\x7b\"index\":0,\"mode\":\"success\"\x7d" then
        "b8ba77e15f1334e56bf422a267b71e66d1bd1794964324fc0989ec8d2f2d898c"
      else "18164623b922b96c6a730a4dff8b2fe71a8d7bc23afc576de947f9a6d2aa5aba" }
  worker := stubDeployment.worker

/-- `submit_batch` of two stub jobs, whose process dies when the second is committed. -/
theorem batch_submission_published_cut : ∃ s r,
    (lts batchDeployment (submitBatch 2 (fun i => i + 3) 2 "stub" 30 1)).Reachable
      Lts.anyStep (s, r) ∧ r.stopped = true ∧ r.created.length = 2 ∧
    ∃ done, r.created = done ++ r.phase.unpublished.toList ∧ done.length = r.index ∧
      ∀ job ∈ done, ∃ entry ∈ s.shared.queue.jobs.log, entry.message = job.message 1 := by
  obtain ⟨⟨s, r⟩, hx, hp⟩ := Lts.exists_reachable_of_exec
    (lts batchDeployment (submitBatch 2 (fun i => i + 3) 2 "stub" 30 1))
    [.advance, .advance, .advance, .stop false]
    (fun x => x.2.stopped && decide (x.2.created.length = 2)) (by decide +kernel)
  rw [Bool.and_eq_true, decide_eq_true_eq] at hp
  exact ⟨s, r, hx, hp.1, hp.2, (batch_submission_published
    (.submitBatch 2 (fun i => i + 3) 2 "stub" 30 1) hx).1⟩

/-- A loop that dies between the commit of a job and its publication leaves the job without a
message. -/
theorem batch_submission_orphan : ¬ ∀ (call : BatchCall) (s : State) (r : BatchRun),
    (lts batchDeployment call.batch).Reachable Lts.anyStep (s, r) → r.stopped = true →
      ∀ job ∈ r.created, ∃ entry ∈ s.shared.queue.jobs.log, entry.message = job.message 1 := by
  intro claim
  obtain ⟨⟨s, r⟩, hx, hp⟩ := Lts.exists_reachable_of_exec
    (lts batchDeployment (submitBatch 2 (fun i => i + 3) 1 "stub" 30 1)) [.advance, .stop false]
    (fun x => x.2.stopped && !x.2.created.isEmpty && x.1.shared.queue.jobs.log.isEmpty)
    (by decide +kernel)
  simp only [Bool.and_eq_true, Bool.not_eq_true', List.isEmpty_iff] at hp
  obtain ⟨⟨hstopped, hcreated⟩, hlog⟩ := hp
  obtain ⟨job, hjob⟩ := List.exists_mem_of_ne_nil r.created (by simpa using hcreated)
  obtain ⟨entry, hentry, -⟩ := claim (.submitBatch 2 (fun i => i + 3) 1 "stub" 30 1) s r hx
    hstopped job hjob
  rw [hlog] at hentry
  cases hentry

end Batch
end AgentRuntimeGrid
