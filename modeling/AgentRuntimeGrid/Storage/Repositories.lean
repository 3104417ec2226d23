import AgentRuntimeGrid.Storage.Models

/-! `JobRepository.create_job`, statement by statement and as one transaction. -/
namespace AgentRuntimeGrid

inductive CreateJobError where
  | idempotencyConflict (idempotencyKey : String)
  | integrityError
  | dataError
  | unicodeEncodeError
  deriving DecidableEq, Repr

/-- A value for a `String(n)` column. -/
def varcharAccepts (n : ℕ) (s : String) : Bool := s.length ≤ n && !s.toList.contains (Char.ofNat 0)

/-- A value for an `Integer` column. -/
def integerAccepts (n : ℤ) : Bool := -2147483648 ≤ n && n ≤ 2147483647

/-- The column types and check constraints of `jobs`, apart from uniqueness: `none` is accepted. -/
def JobSubmission.rejected (s : JobSubmission) : Option CreateJobError :=
  if !(varcharAccepts 64 s.jobType && varcharAccepts 255 s.idempotencyKey &&
      varcharAccepts 128 s.traceId && integerAccepts s.timeoutSeconds &&
      integerAccepts s.maxRetries && s.budgetCents.all integerAccepts &&
      jsonbStorable (.obj s.payload)) then some .dataError
  else if !(0 < s.timeoutSeconds && 0 ≤ s.maxRetries) then some .integrityError
  else none

theorem JobSubmission.storable_of_accepted {s : JobSubmission} (h : s.rejected = none) :
    jsonbStorable (.obj s.payload) = true := by
  unfold rejected at h
  split at h
  · cases h
  next hn =>
    simp only [Bool.not_eq_true', Bool.not_eq_false, Bool.and_eq_true] at hn
    exact hn.2

theorem JobSubmission.maxRetries_nonneg {s : JobSubmission} (h : s.rejected = none) :
    0 ≤ s.maxRetries := by
  unfold rejected at h
  split at h
  · cases h
  · split at h
    · cases h
    next hn =>
      simp only [Bool.not_eq_true', Bool.not_eq_false, Bool.and_eq_true, decide_eq_true_eq] at hn
      exact hn.2

/-- The `jobs` row a submission asks for. -/
def JobSubmission.row (s : JobSubmission) (payloadHash : String) (h : s.rejected = none) :
    JobRecord where
  id := s.jobId
  runId := s.runId
  jobType := s.jobType
  payload := ⟨s.payload, s.storable_of_accepted h⟩
  payloadHash := payloadHash
  idempotencyKey := s.idempotencyKey
  status := .submitted
  timeoutSeconds := s.timeoutSeconds
  maxRetries := s.maxRetries
  traceId := s.traceId
  budgetCents := s.budgetCents

/-- The values of the `INSERT`: the payload hash is computed before the statement is sent. -/
def JobSubmission.newRow (env : Env) (s : JobSubmission) : Except CreateJobError JobRecord :=
  match s.payloadHash env with
  | none => .error .unicodeEncodeError
  | some hash =>
    match h : s.rejected with
    | some e => .error e
    | none => .ok (s.row hash h)

/-- The branch of `create_job` for a key that is already there. -/
def answerExisting (env : Env) (existing : JobRecord) (s : JobSubmission) :
    Except CreateJobError JobRecord :=
  match s.payloadHash env with
  | none => .error .unicodeEncodeError
  | some hash =>
    if existing.payloadHash ≠ hash then .error (.idempotencyConflict s.idempotencyKey)
    else .ok existing

def submittedEvent (job : JobRecord) : JobEvent where
  jobId := job.id
  runId := job.runId
  eventType := .submitted
  eventData := .submitted job.idempotencyKey job.timeoutSeconds job.maxRetries
  traceId := job.traceId

namespace Database

def getByIdempotencyKey (db : Database) (key : String) : Option JobRecord :=
  db.jobs.rows.find? fun j => j.idempotencyKey = key

/-- `INSERT INTO jobs` followed by the submitted event; a taken key or id is an integrity error. -/
def insertJob (db : Database) (row : JobRecord) : Except CreateJobError Database :=
  match db.getByIdempotencyKey row.idempotencyKey with
  | some _ => .error .integrityError
  | none =>
    match db.jobs.insert row with
    | none => .error .integrityError
    | some jobs => .ok (Database.appendEvent { db with jobs := jobs } (submittedEvent row))

/-- `create_job` with no other transaction in between. -/
def createJob (db : Database) (env : Env) (s : JobSubmission) :
    Except CreateJobError JobRecord × Database :=
  match db.getByIdempotencyKey s.idempotencyKey with
  | some existing => (answerExisting env existing s, db)
  | none =>
    match s.newRow env with
    | .error e => (.error e, db)
    | .ok row =>
      match db.insertJob row with
      | .error e => (.error e, db)
      | .ok db' => (.ok row, db')

theorem insertJob_eq_ok {db db' : Database} {row : JobRecord} (h : db.insertJob row = .ok db') :
    ∃ jobs, db.jobs.insert row = some jobs ∧
      db' = Database.appendEvent { db with jobs := jobs } (submittedEvent row) := by
  unfold insertJob at h
  split at h
  · cases h
  · split at h
    · cases h
    next jobs hjobs =>
      cases h
      exact ⟨jobs, hjobs, rfl⟩

end Database

theorem JobSubmission.newRow_eq_ok {env : Env} {s : JobSubmission} {row : JobRecord}
    (h : s.newRow env = .ok row) :
    s.payloadHash env = some row.payloadHash ∧ s.rejected = none ∧ row.status = .submitted ∧
      row.id = s.jobId ∧ row.idempotencyKey = s.idempotencyKey ∧ row.maxRetries = s.maxRetries := by
  unfold newRow at h
  split at h
  · cases h
  next hash hhash =>
    split at h
    · cases h
    next hr =>
      cases h
      exact ⟨hhash, hr, rfl, rfl, rfl, rfl⟩

namespace Database

/-- A `create_job` call leaves the database as it was or adds one submitted row and its event. -/
theorem createJob_cases (db : Database) (env : Env) (s : JobSubmission) :
    (db.createJob env s).2 = db ∨ ∃ row db', db.insertJob row = .ok db' ∧
      row.status = .submitted ∧ 0 ≤ row.maxRetries ∧ db.createJob env s = (.ok row, db') := by
  unfold createJob
  split
  · exact .inl rfl
  · split
    · exact .inl rfl
    next row hrow =>
      split
      · exact .inl rfl
      next db' hdb =>
        obtain ⟨-, hr, hstatus, -, -, hretries⟩ := JobSubmission.newRow_eq_ok hrow
        exact .inr ⟨row, db', hdb, hstatus, hretries ▸ JobSubmission.maxRetries_nonneg hr, rfl⟩

end Database
end AgentRuntimeGrid
