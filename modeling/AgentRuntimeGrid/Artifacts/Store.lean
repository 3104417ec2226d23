import AgentRuntimeGrid.Domain.Jobs

/-! The local artifact store: one JSON file for each attempt of each job, and the metadata that
the completed event records about it. -/
namespace AgentRuntimeGrid

structure ArtifactMetadata where
  path : FileRef
  sizeBytes : ℕ
  sha256 : String
  jobId : JobId
  runId : RunId
  attemptNumber : ℤ
  inputDigest : String
  /-- The ISO text of the time of writing. -/
  createdAt : String
  evalResultPath : Option PyStr
  deriving DecidableEq

/-- The files of the workers' host. -/
abbrev FileStore := FileRef → Option PyBytes

def FileStore.write (files : FileStore) (p : FileRef) (b : PyBytes) : FileStore :=
  fun q => if q = p then some b else files q

@[simp] theorem FileStore.write_self (files : FileStore) (p : FileRef) (b : PyBytes) :
    files.write p b p = some b := if_pos rfl

theorem FileStore.write_of_ne (files : FileStore) {p q : FileRef} (b : PyBytes) (h : q ≠ p) :
    files.write p b q = files q := if_neg h

/-- `artifact_payload` of a runner result: absent or `None`, a dictionary, or a `TypeError`. -/
def artifactPayload (result : Dict) : Except String (Option Dict) :=
  match result.get? (py "artifact_payload") with
  | none | some .null => .ok none
  | some (.obj d) => .ok (some d)
  | some _ => .error "TypeError"

/-- `str(artifact_payload["eval_result_path"])` unless it is absent or `None`. -/
def evalResultPathText (env : Env) (payload : Dict) : Option PyStr :=
  match payload.get? (py "eval_result_path") with
  | none | some .null => none
  | some v => some (env.str v)

def artifactBaseContent (job : JobRecord) (workerId : String) (attemptNumber : ℤ)
    (createdAt inputDigest : String) (result : Dict) : Dict :=
  [(py "job_id", .str (uuidText job.id)),
    (py "run_id", .str (uuidText job.runId)),
    (py "input_digest", .str (py inputDigest)),
    (py "worker_id", .str (py workerId)),
    (py "attempt_number", .int attemptNumber),
    (py "created_at", .str (py createdAt)),
    (py "result_summary", (result.get? (py "summary")).getD (.str []))]

/-- `json.dumps(value, sort_keys=True, indent=2).encode("utf-8")`. -/
def encodeIndented (env : Env) (d : Dict) : Option PyBytes :=
  PyText.utf8Encode (Json.dumps Json.indentedFormat env.floatRepr (.obj d))

/-- The part of `write_stub_job_artifact` before and with `write_bytes`: the metadata to return and
the bytes written to `metadata.path`. -/
def encodeStubJobArtifact (env : Env) (job : JobRecord) (workerId : String) (attemptNumber : ℤ)
    (createdAt : String) (result : Dict) : Except String (ArtifactMetadata × PyBytes) := do
  let some inputDigest := payloadSha256 env job.payload.fields | .error "UnicodeEncodeError"
  let payload ← artifactPayload result
  let evalResultPath := payload.bind fun d => evalResultPathText env d
  let content := (artifactBaseContent job workerId attemptNumber createdAt inputDigest
    result).update (payload.getD [])
  let some encoded := encodeIndented env content | .error "UnicodeEncodeError"
  return ({
    path := .artifact job.id attemptNumber
    sizeBytes := encoded.length
    sha256 := env.sha256 encoded
    jobId := job.id
    runId := job.runId
    attemptNumber := attemptNumber
    inputDigest := inputDigest
    createdAt := createdAt
    evalResultPath := evalResultPath }, encoded)

/-- `portable_artifact_path` of the artifact of one attempt. -/
def portableArtifactPath (jobId : JobId) (attemptNumber : ℤ) : PyStr :=
  py "artifact://" ++ uuidText jobId ++ py "/attempt-" ++ py (toString attemptNumber) ++ py ".json"

/-- `_upsert_eval_result_cross_link`: the new bytes of the evaluation result file. -/
def upsertEvalResultCrossLink (env : Env) (files : FileStore) (evalResultPath : PyStr)
    (m : ArtifactMetadata) (payload : Dict) : Except String PyBytes := do
  let old ← match files (env.resolve evalResultPath) with
    | none => pure []
    | some bytes =>
      match PyText.utf8Decode bytes with
      | none => .error "UnicodeDecodeError"
      | some text =>
        match env.jsonLoads text with
        | .error .decodeError => pure []
        | .error (.other c) => .error c
        | .ok (.obj d) => pure d
        | .ok _ => .error "AttributeError"
  let link : Dict := [
    (py "case_id", (payload.get? (py "case_id")).getD .null),
    (py "quality_status", (payload.get? (py "quality_status")).getD .null),
    (py "runtime_artifact_path", .str (portableArtifactPath m.jobId m.attemptNumber))]
  match encodeIndented env (Dict.update old link) with
  | none => .error "UnicodeEncodeError"
  | some bytes => pure bytes

/-- The expected fields of `validate_artifact_integrity`, in the order they are checked. -/
def expectedFields (m : ArtifactMetadata) : Dict :=
  [(py "job_id", .str (uuidText m.jobId)), (py "run_id", .str (uuidText m.runId)),
    (py "attempt_number", .int m.attemptNumber), (py "input_digest", .str (py m.inputDigest)),
    (py "created_at", .str (py m.createdAt))] ++
  match m.evalResultPath with
  | none => []
  | some p => [(py "eval_result_path", .str p)]

/-- Python's `==` between a decoded field and an expected text or integer. -/
def jsonScalarEq : Json → Json → Bool
  | .str s, .str t => s = t
  | .int m, .int n => m = n
  | .bool b, .int n => n = if b then 1 else 0
  | .float (.finite q), .int n => q = n
  | _, _ => false

/-- `validate_artifact_integrity`; an error is the reason of its `ArtifactIntegrityError`, or the
class of an exception it does not raise itself. -/
def validateArtifactIntegrity (env : Env) (files : FileStore) (m : ArtifactMetadata) :
    Except String Unit := do
  let some bytes := files m.path | .error "missing artifact"
  if bytes.length ≠ m.sizeBytes then .error "artifact size mismatch"
  if env.sha256 bytes ≠ m.sha256 then .error "artifact sha256 mismatch"
  let some text := PyText.utf8Decode bytes | .error "artifact is not valid JSON"
  match env.jsonLoads text with
  | .error .decodeError => .error "artifact is not valid JSON"
  | .error (.other c) => .error c
  | .ok (.obj content) =>
    (expectedFields m).forM fun f =>
      if jsonScalarEq ((Dict.get? content f.1).getD .null) f.2 then .ok ()
      else .error "artifact field"
  | .ok _ => .error "AttributeError"

/-- The check reads the file the metadata names and no other. -/
theorem validateArtifactIntegrity_congr {env : Env} {files files' : FileStore}
    {m : ArtifactMetadata} (h : files' m.path = files m.path) :
    validateArtifactIntegrity env files' m = validateArtifactIntegrity env files m := by
  unfold validateArtifactIntegrity
  rw [h]

/-- The object that `write_stub_job_artifact` writes. -/
def artifactContent (env : Env) (job : JobRecord) (workerId : String) (attemptNumber : ℤ)
    (createdAt : String) (result payload : Dict) : Dict :=
  (artifactBaseContent job workerId attemptNumber createdAt
    ((payloadSha256 env job.payload.fields).getD "") result).update payload

section Encoded
variable {env : Env} {job : JobRecord} {workerId createdAt : String} {n : ℤ} {result : Dict}
  {m : ArtifactMetadata} {bytes : PyBytes}

theorem encodeStubJobArtifact_inv
    (h : encodeStubJobArtifact env job workerId n createdAt result = .ok (m, bytes)) :
    ∃ digest payload, payloadSha256 env job.payload.fields = some digest ∧
      artifactPayload result = .ok payload ∧
      encodeIndented env (artifactContent env job workerId n createdAt result
        (payload.getD [])) = some bytes ∧
      m = ⟨.artifact job.id n, bytes.length, env.sha256 bytes, job.id, job.runId, n, digest,
        createdAt, payload.bind (evalResultPathText env)⟩ := by
  unfold encodeStubJobArtifact at h
  cases hd : payloadSha256 env job.payload.fields with
  | none => simp [hd] at h
  | some digest =>
    cases hp : artifactPayload result with
    | error e => simp [hd, hp, bind, Except.bind] at h
    | ok payload =>
      simp only [hd, hp, bind, Except.bind] at h
      split at h
      next encoded hencoded =>
        cases h
        exact ⟨digest, payload, rfl, rfl, by rwa [artifactContent, hd, Option.getD_some], rfl⟩
      next => cases h

/-- The metadata names the artifact file of the job's attempt and describes the bytes written. -/
theorem encodeStubJobArtifact_spec
    (h : encodeStubJobArtifact env job workerId n createdAt result = .ok (m, bytes)) :
    m.path = .artifact job.id n ∧ m.sizeBytes = bytes.length ∧ m.sha256 = env.sha256 bytes := by
  obtain ⟨digest, payload, -, -, -, rfl⟩ := encodeStubJobArtifact_inv h
  exact ⟨rfl, rfl, rfl⟩

theorem encodeStubJobArtifact_ids
    (h : encodeStubJobArtifact env job workerId n createdAt result = .ok (m, bytes)) :
    m.jobId = job.id ∧ m.runId = job.runId ∧ m.attemptNumber = n := by
  obtain ⟨digest, payload, -, -, -, rfl⟩ := encodeStubJobArtifact_inv h
  exact ⟨rfl, rfl, rfl⟩

theorem encodeStubJobArtifact_content
    (h : encodeStubJobArtifact env job workerId n createdAt result = .ok (m, bytes)) :
    ∃ payload, artifactPayload result = .ok payload ∧
      m.evalResultPath = payload.bind (evalResultPathText env) ∧
      encodeIndented env (artifactContent env job workerId n createdAt result
        (payload.getD [])) = some bytes := by
  obtain ⟨digest, payload, -, hpayload, hbytes, rfl⟩ := encodeStubJobArtifact_inv h
  exact ⟨payload, hpayload, rfl, hbytes⟩

theorem encodeStubJobArtifact_inputDigest
    (h : encodeStubJobArtifact env job workerId n createdAt result = .ok (m, bytes)) :
    payloadSha256 env job.payload.fields = some m.inputDigest := by
  obtain ⟨digest, payload, hdigest, -, -, rfl⟩ := encodeStubJobArtifact_inv h
  exact hdigest

end Encoded

/-- The bytes are UTF-8 text that is a JSON object, or no JSON at all. -/
def Readable (env : Env) (bytes : PyBytes) : Prop :=
  ∃ text, PyText.utf8Decode bytes = some text ∧
    (env.jsonLoads text = .error .decodeError ∨ ∃ d, env.jsonLoads text = .ok (.obj d))

/-- Escaped JSON text always has an encoding, from which it is read back. -/
theorem encodeIndented_readable (env : Env) (d : Dict) :
    ∃ bytes, encodeIndented env d = some bytes ∧ Readable env bytes := by
  have hascii := Json.dumps_indented_ascii env.floatRepr_ascii (.obj d)
  exact ⟨_, PyText.utf8Encode_ascii hascii, _, PyText.utf8Decode_ascii hascii,
    .inr (env.jsonLoads_dumps d)⟩

/-- Writing the artifact fails only for an `artifact_payload` that is not a dictionary. -/
theorem encodeStubJobArtifact_eq_ok (env : Env) (job : JobRecord) (workerId : String) (n : ℤ)
    (createdAt : String) {result : Dict} {payload : Option Dict}
    (h : artifactPayload result = .ok payload) :
    ∃ m bytes, encodeStubJobArtifact env job workerId n createdAt result = .ok (m, bytes) ∧
      m.evalResultPath = payload.bind (evalResultPathText env) ∧ Readable env bytes := by
  obtain ⟨digest, hdigest⟩ := exists_payloadSha256 env job.payload.storable
  obtain ⟨bytes, hbytes, hreadable⟩ := encodeIndented_readable env
    ((artifactBaseContent job workerId n createdAt digest result).update (payload.getD []))
  unfold encodeStubJobArtifact
  simp only [hdigest, h, hbytes, bind, Except.bind]
  exact ⟨_, _, rfl, rfl, hreadable⟩

/-- The cross-link is written over a file that is absent or readable. -/
theorem upsertEvalResultCrossLink_eq_ok {env : Env} {files : FileStore} {p : PyStr}
    (m : ArtifactMetadata) (payload : Dict)
    (h : ∀ bytes, files (env.resolve p) = some bytes → Readable env bytes) :
    ∃ bytes, upsertEvalResultCrossLink env files p m payload = .ok bytes ∧ Readable env bytes := by
  have written : ∀ {d : Dict} {r : Except String PyBytes},
      (match encodeIndented env d with
        | none => .error "UnicodeEncodeError"
        | some bytes => .ok bytes) = r → ∃ bytes, r = .ok bytes ∧ Readable env bytes := by
    rintro d r rfl
    obtain ⟨bytes, hbytes, hreadable⟩ := encodeIndented_readable env d
    exact ⟨bytes, by rw [hbytes], hreadable⟩
  unfold upsertEvalResultCrossLink
  cases hfile : files (env.resolve p) with
  | none =>
    simp only [pure, Except.pure, bind, Except.bind]
    exact written rfl
  | some bytes =>
    obtain ⟨text, htext, hloads | ⟨d, hloads⟩⟩ := h bytes hfile
    · simp only [htext, hloads, pure, Except.pure, bind, Except.bind]
      exact written rfl
    · simp only [htext, hloads, pure, Except.pure, bind, Except.bind]
      exact written rfl

def crossLinkFields (m : ArtifactMetadata) (payload : Dict) : Dict := [
  (py "case_id", (payload.get? (py "case_id")).getD .null),
  (py "quality_status", (payload.get? (py "quality_status")).getD .null),
  (py "runtime_artifact_path", .str (portableArtifactPath m.jobId m.attemptNumber))]

/-- The cross-link of a file that is the text of an object. -/
theorem upsertEvalResultCrossLink_eq {env : Env} {files : FileStore} {p : PyStr}
    (m : ArtifactMetadata) (payload : Dict) {d d' : Dict} {bytes : PyBytes}
    (hencode : encodeIndented env d = some bytes) (hfile : files (env.resolve p) = some bytes)
    (hloads : env.jsonLoads (Json.dumps Json.indentedFormat env.floatRepr (.obj d)) =
      .ok (.obj d')) :
    ∃ linked, encodeIndented env (d'.update (crossLinkFields m payload)) = some linked ∧
      upsertEvalResultCrossLink env files p m payload = .ok linked := by
  have hascii := Json.dumps_indented_ascii env.floatRepr_ascii (.obj d)
  obtain rfl : Json.dumps Json.indentedFormat env.floatRepr (.obj d) = bytes := by
    rw [encodeIndented, PyText.utf8Encode_ascii hascii] at hencode
    exact Option.some.inj hencode
  obtain ⟨linked, hlinked, -⟩ := encodeIndented_readable env
    (d'.update (crossLinkFields m payload))
  refine ⟨linked, hlinked, ?_⟩
  rw [crossLinkFields] at hlinked
  unfold upsertEvalResultCrossLink
  simp only [hfile, PyText.utf8Decode_ascii hascii, hloads, hlinked, pure, Except.pure, bind,
    Except.bind]

end AgentRuntimeGrid
