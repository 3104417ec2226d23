import AgentRuntimeGrid.Jobs.Payload

/-! The runner of `eval_lab_case` jobs: one case of a dataset file, looked up line by line. -/
namespace AgentRuntimeGrid.EvalLab

def payloadError : JobException := .policy "EvalLabPayloadError"

structure EvalLabCasePayload where
  datasetPath : PyPath
  caseId : PyStr
  candidateId : PyStr
  mode : PyStr
  evalResultPath : PyPath

/-- `validate_eval_lab_case_payload`. -/
def validatePayload (env : Env) (payload : Dict) : Except JobException EvalLabCasePayload := do
  let datasetPath ← requiredStr env payloadError payload (py "dataset_path")
  let caseId ← requiredStr env payloadError payload (py "case_id")
  let candidate ← candidateId env payloadError payload
  let mode ← requiredStr env payloadError payload (py "mode")
  if mode ∉ [py "stub", py "local", py "stub-or-local-http"] then throw payloadError
  return ⟨PyPath.parse datasetPath, caseId, candidate, mode,
    evalResultPathOf env payload candidate caseId⟩

/-- The loop of `_load_case` over the lines of the dataset. -/
def findCase (env : Env) (caseId : PyStr) : List PyStr → Except JobException Dict
  | [] => .error payloadError
  | line :: lines =>
    if PyText.strip line = [] then findCase env caseId lines
    else match env.jsonLoads line with
      | .error .decodeError => .error payloadError
      | .error (.other c) => .error (.unhandled c)
      | .ok (.obj case) =>
        if ((Dict.get? case (py "id")).getD .null).isText caseId then .ok case
        else findCase env caseId lines
      | .ok _ => .error (.unhandled "AttributeError")

/-- `_load_case`. The line ends that `read_text` translates are line ends of `splitlines`. -/
def loadCase (env : Env) (files : FileStore) (datasetPath : PyPath) (caseId : PyStr) :
    Except JobException Dict :=
  match files (env.resolve datasetPath.text) with
  | none => .error payloadError
  | some bytes => match PyText.utf8Decode bytes with
    | none => .error (.unhandled "UnicodeDecodeError")
    | some text => findCase env caseId (PyText.splitlines text)

def qualityStatus (case : Dict) : Except JobException PyStr :=
  match Dict.get? case (py "expected") with
  | some (.obj expected) =>
    let status := (Dict.get? expected (py "quality_status")).getD .null
    if ¬ status.hashable then .error (.unhandled "TypeError")
    else if status.isText (py "fail") then .ok (py "fail")
    else .ok (py "pass")
  | _ => .ok (py "pass")

/-- `run_eval_lab_case`. -/
def run (env : RunnerEnv) (ctx : RunContext) (payload : Dict) (attemptNumber : ℤ) :
    Except JobException EvalRun := do
  let casePayload ← validatePayload env.toEnv payload
  let case ← loadCase env.toEnv ctx.files casePayload.datasetPath casePayload.caseId
  let quality ← qualityStatus case
  let path := casePayload.evalResultPath.text
  let artifactPayload : Dict := [
    (py "case_id", .str casePayload.caseId),
    (py "candidate_id", .str casePayload.candidateId),
    (py "dataset_path", .str casePayload.datasetPath.text),
    (py "status", .str (py "completed")),
    (py "runtime_status", .str (py "completed")),
    (py "eval_result_path", .str path),
    (py "quality_status", .str quality),
    (py "runtime_attempts", .int attemptNumber),
    (py "attempt_count", .int attemptNumber),
    (py "latency_ms", .int ctx.latencyMs),
    (py "mode", .str casePayload.mode)]
  return {
    result := [
      (py "summary", .str (py "eval_lab_case completed")),
      (py "case_id", .str casePayload.caseId),
      (py "quality_status", .str quality),
      (py "eval_result_path", .str path),
      (py "artifact_payload", .obj artifactPayload)]
    evalResultPath := path
    evalResult := [
      (py "case_id", .str casePayload.caseId),
      (py "candidate_id", .str casePayload.candidateId),
      (py "quality_status", .str quality),
      (py "runtime_status", .str (py "completed")),
      (py "latency_ms", .int ctx.latencyMs)] }

end AgentRuntimeGrid.EvalLab
