import AgentRuntimeGrid.Artifacts.Store

/-! The artifact metadata as a report reads it back: a dictionary of the completed event, parsed
into texts and numbers, and checked against the file it names. -/
namespace AgentRuntimeGrid

/-- What the reports use of the interpreter beyond `Env`. -/
structure ReportEnv extends Env where
  /-- `int(v)`; an error is the class of what it raises. -/
  intOf : Json → Except String ℤ
  /-- `datetime.fromisoformat(text).isoformat()`. -/
  isoFormat : PyStr → Except String PyStr
  /-- `str(path)` of a file of the store. -/
  pathText : FileRef → PyStr
  /-- `a / b`. -/
  trueDiv : ℕ → ℕ → PyFloat
  /-- `format(x, ".2%")` and `format(x, ".3f")`. -/
  percent : PyFloat → String
  fixed3 : PyFloat → String

/-- `ArtifactMetadata` as `from_dict` makes it of any dictionary. -/
structure ArtifactRecord where
  path : PyStr
  sizeBytes : ℤ
  sha256 : PyStr
  jobId : PyStr
  runId : PyStr
  attemptNumber : ℤ
  inputDigest : PyStr
  createdAt : PyStr
  evalResultPath : Option PyStr
  deriving DecidableEq

def ArtifactMetadata.toDict (env : ReportEnv) (m : ArtifactMetadata) : Dict :=
  [(py "path", .str (env.pathText m.path)), (py "size_bytes", .int m.sizeBytes),
    (py "sha256", .str (py m.sha256)), (py "job_id", .str (uuidText m.jobId)),
    (py "run_id", .str (uuidText m.runId)), (py "attempt_number", .int m.attemptNumber),
    (py "input_digest", .str (py m.inputDigest)), (py "created_at", .str (py m.createdAt))] ++
  match m.evalResultPath with
  | none => []
  | some p => [(py "eval_result_path", .str p)]

/-- The record a report makes of the store's own metadata. -/
def ArtifactMetadata.record (env : ReportEnv) (m : ArtifactMetadata) : ArtifactRecord where
  path := env.pathText m.path
  sizeBytes := m.sizeBytes
  sha256 := py m.sha256
  jobId := uuidText m.jobId
  runId := uuidText m.runId
  attemptNumber := m.attemptNumber
  inputDigest := py m.inputDigest
  createdAt := py m.createdAt
  evalResultPath := m.evalResultPath

/-- `d[k]`. -/
def Dict.item (d : Dict) (k : PyStr) : Except String Json :=
  match Dict.get? d k with
  | none => .error "KeyError"
  | some v => .ok v

namespace ArtifactRecord

/-- `ArtifactMetadata.from_dict`. -/
def fromDict (env : ReportEnv) (value : Dict) : Except String ArtifactRecord := do
  let path ← Dict.item value (py "path")
  let sizeBytes ← (Dict.item value (py "size_bytes")).bind env.intOf
  let sha256 ← Dict.item value (py "sha256")
  let jobId ← Dict.item value (py "job_id")
  let runId ← Dict.item value (py "run_id")
  let attemptNumber ← (Dict.item value (py "attempt_number")).bind env.intOf
  let inputDigest ← Dict.item value (py "input_digest")
  let createdAt ← (Dict.item value (py "created_at")).bind fun v => env.isoFormat (env.str v)
  return {
    path := env.str path
    sizeBytes := sizeBytes
    sha256 := env.str sha256
    jobId := env.str jobId
    runId := env.str runId
    attemptNumber := attemptNumber
    inputDigest := env.str inputDigest
    createdAt := createdAt
    evalResultPath := evalResultPathText env.toEnv value }

/-- The record that a report reads back from the metadata's own dictionary. -/
theorem fromDict_toDict (env env' : ReportEnv) (m : ArtifactMetadata) :
    fromDict env (m.toDict env') = (do
      let sizeBytes ← env.intOf (.int m.sizeBytes)
      let attemptNumber ← env.intOf (.int m.attemptNumber)
      let createdAt ← env.isoFormat (py m.createdAt)
      return { m.record env' with
        sizeBytes := sizeBytes, attemptNumber := attemptNumber, createdAt := createdAt }) := by
  have hresult : evalResultPathText env.toEnv (m.toDict env') = m.evalResultPath := by
    unfold ArtifactMetadata.toDict
    cases m.evalResultPath with
    | none => rfl
    | some p => rfl
  unfold fromDict
  rw [hresult]
  simp only [
    show Dict.item (m.toDict env') (py "path") = .ok (.str (env'.pathText m.path)) from rfl,
    show Dict.item (m.toDict env') (py "size_bytes") = .ok (.int m.sizeBytes) from rfl,
    show Dict.item (m.toDict env') (py "sha256") = .ok (.str (py m.sha256)) from rfl,
    show Dict.item (m.toDict env') (py "job_id") = .ok (.str (uuidText m.jobId)) from rfl,
    show Dict.item (m.toDict env') (py "run_id") = .ok (.str (uuidText m.runId)) from rfl,
    show Dict.item (m.toDict env') (py "attempt_number") = .ok (.int m.attemptNumber) from rfl,
    show Dict.item (m.toDict env') (py "input_digest") = .ok (.str (py m.inputDigest)) from rfl,
    show Dict.item (m.toDict env') (py "created_at") = .ok (.str (py m.createdAt)) from rfl]
  rfl

def expectedFields (r : ArtifactRecord) : Dict :=
  [(py "job_id", .str r.jobId), (py "run_id", .str r.runId),
    (py "attempt_number", .int r.attemptNumber), (py "input_digest", .str r.inputDigest),
    (py "created_at", .str r.createdAt)] ++
  match r.evalResultPath with
  | none => []
  | some p => [(py "eval_result_path", .str p)]

/-- `validate_artifact_integrity` of a record. -/
def validateIntegrity (env : Env) (files : FileStore) (r : ArtifactRecord) :
    Except String Unit := do
  let some bytes := files (env.resolve r.path) | .error "missing artifact"
  if (bytes.length : ℤ) ≠ r.sizeBytes then .error "artifact size mismatch"
  if py (env.sha256 bytes) ≠ r.sha256 then .error "artifact sha256 mismatch"
  let some text := PyText.utf8Decode bytes | .error "artifact is not valid JSON"
  match env.jsonLoads text with
  | .error .decodeError => .error "artifact is not valid JSON"
  | .error (.other c) => .error c
  | .ok (.obj content) =>
    r.expectedFields.forM fun f =>
      if jsonScalarEq ((Dict.get? content f.1).getD .null) f.2 then .ok ()
      else .error "artifact field"
  | .ok _ => .error "AttributeError"

/-- The file is there with the recorded size and digest, and it is a JSON object that holds the
recorded job, run, attempt, input digest and time of writing. -/
def Intact (env : Env) (files : FileStore) (r : ArtifactRecord) : Prop :=
  ∃ bytes text content, files (env.resolve r.path) = some bytes ∧
    (bytes.length : ℤ) = r.sizeBytes ∧ py (env.sha256 bytes) = r.sha256 ∧
    PyText.utf8Decode bytes = some text ∧ env.jsonLoads text = .ok (.obj content) ∧
    ∀ f ∈ r.expectedFields, jsonScalarEq ((Dict.get? content f.1).getD .null) f.2 = true

private theorem forM_eq_ok {α : Type} {p : α → Bool} {e : String} {as : List α} :
    (forM as fun a => if p a then (.ok () : Except String Unit) else .error e) = .ok () ↔
      ∀ a ∈ as, p a = true := by
  induction as with
  | nil => exact ⟨fun _ _ h => (nomatch h), fun _ => rfl⟩
  | cons a as ih =>
    rw [List.forall_mem_cons, ← ih, List.forM_cons]
    cases p a <;> simp [bind, Except.bind]

/-- The check passes exactly when the file is as recorded. -/
theorem validateIntegrity_eq_ok {env : Env} {files : FileStore} {r : ArtifactRecord} :
    r.validateIntegrity env files = .ok () ↔ r.Intact env files := by
  unfold validateIntegrity Intact
  cases hfile : files (env.resolve r.path) with
  | none => simp
  | some bytes =>
    by_cases hsize : (bytes.length : ℤ) = r.sizeBytes
    · by_cases hsha : py (env.sha256 bytes) = r.sha256
      · cases htext : PyText.utf8Decode bytes with
        | none => simp [hsize, hsha, htext]
        | some text =>
          rcases hloads : env.jsonLoads text with e | v
          · cases e <;> simp [hsize, hsha, htext, hloads]
          · cases v <;> simp [hsize, hsha, htext, hloads, forM_eq_ok]
      · simp [hsize, hsha, bind, Except.bind]
    · simp [hsize, bind, Except.bind]

/-- A record of the store's own metadata is checked as the metadata is. -/
theorem validateIntegrity_record {env : ReportEnv} {files : FileStore} {m : ArtifactMetadata}
    (hpath : env.resolve (env.pathText m.path) = m.path) :
    (m.record env).validateIntegrity env.toEnv files =
      validateArtifactIntegrity env.toEnv files m := by
  have hsha : ∀ bytes, py (env.sha256 bytes) ≠ py m.sha256 ↔ env.sha256 bytes ≠ m.sha256 :=
    fun bytes => not_congr py_inj
  unfold validateIntegrity validateArtifactIntegrity
  simp only [ArtifactMetadata.record, hpath, hsha, ne_eq, Nat.cast_inj]
  rfl

end ArtifactRecord
end AgentRuntimeGrid
