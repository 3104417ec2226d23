import AgentRuntimeGrid.Lib.Exceptions
import AgentRuntimeGrid.Lib.PyPath
import AgentRuntimeGrid.Worker.Loop
import Mathlib.Data.List.Lex

/-! What the job runners share: the library behaviour they rely on beside the worker's, what they
find around them, how they end, and how they read a payload. The stub runner comes with it. -/
namespace AgentRuntimeGrid

structure UrlParts where
  scheme : PyStr
  hostname : Option PyStr
  username : Option PyStr
  password : Option PyStr
  path : PyStr

structure RunnerEnv extends Env where
  /-- `text.lower()`. -/
  lower : PyStr → PyStr
  /-- `float(n)`; `none` is an `OverflowError`. -/
  floatOfInt : ℤ → Option PyFloat
  /-- `float(text)`; `none` is a `ValueError`. -/
  floatOfText : PyStr → Option PyFloat
  /-- `hmac.new(key, body, hashlib.sha256).hexdigest()`. -/
  hmacSha256 : PyBytes → PyBytes → String
  /-- `urllib.parse.urlparse(url)`; `none` is a `ValueError`. -/
  urlparse : PyStr → Option UrlParts

/-- How `read()` ends on a response. -/
inductive BodyRead where
  | body (bytes : PyBytes)
  /-- A `TimeoutError`, `HTTPException` or `OSError`, with its text. -/
  | failed (errorClass : String) (text : PyStr)
  | raised (errorClass : String)

/-- How `request.urlopen` ends, and the reading of the response it comes to. -/
inductive HttpOutcome where
  | responded (status : ℤ) (read : BodyRead)
  /-- An `HTTPError`, the response of an error status. -/
  | httpError (code : ℤ) (read : BodyRead)
  /-- Another `URLError`, `TimeoutError`, `HTTPException` or `OSError`, with its text. -/
  | failed (errorClass : String) (text : PyStr)
  | raised (errorClass : String)
  /-- The timeout of the job comes first. -/
  | timedOut

inductive SleepOutcome where
  | finished | timedOut | cancelled
  deriving DecidableEq

/-- What one execution of a job finds: the files, the environment variables, the network and the
clock. -/
structure RunContext where
  files : FileStore
  getenv : PyStr → Option PyStr
  urlopen : PyStr → PyBytes → List (PyStr × PyStr) → HttpOutcome
  sleep : PyFloat → SleepOutcome
  measuredLatencyMs : ℕ
  latencyMs : ℕ

/-- How a runner ends other than by returning. -/
inductive JobException where
  | transient (errorClass : String)
  | policy (errorClass : String)
  | timedOut
  | cancelled
  /-- An exception that no clause of the worker handles. -/
  | unhandled (errorClass : String)
  deriving DecidableEq

def JobException.outcome : JobException → RunOutcome
  | .transient c => .transientError c
  | .policy c => .policyError c
  | .timedOut => .timedOut
  | .cancelled => .cancelled
  | .unhandled c => .raised c

/-- What an evaluation runner returns, and the evaluation result it has written. -/
structure EvalRun where
  result : Dict
  evalResultPath : PyStr
  evalResult : Dict
  deriving DecidableEq

/-- `payload.get(key) or ""`. -/
def Dict.getOr (payload : Dict) (key : PyStr) : Json :=
  match Dict.get? payload key with
  | some v => if v.truthy then v else .str []
  | none => .str []

/-- `_required_str`, which raises its module's own payload error. -/
def requiredStr (env : Env) (e : JobException) (payload : Dict) (key : PyStr) :
    Except JobException PyStr :=
  match PyText.strip (env.str (Dict.getOr payload key)) with
  | [] => .error e
  | value => .ok value

/-- `str(payload.get("candidate_id") or payload.get("candidate") or "").strip()`. -/
def candidateId (env : Env) (e : JobException) (payload : Dict) : Except JobException PyStr :=
  let value := match Dict.get? payload (py "candidate_id") with
    | some v => if v.truthy then v else Dict.getOr payload (py "candidate")
    | none => Dict.getOr payload (py "candidate")
  match PyText.strip (env.str value) with
  | [] => .error e
  | value => .ok value

/-- `Path(str(payload.get("eval_result_path", default)))`. -/
def evalResultPathOf (env : Env) (payload : Dict) (candidate caseId : PyStr) : PyPath :=
  match Dict.get? payload (py "eval_result_path") with
  | some v => PyPath.parse (env.str v)
  | none => (((PyPath.parse (py "reports")).join (py "eval-lab")).join candidate).join
      (caseId ++ py ".json")

/-- `float(v)`; an error is the class of what it raises. -/
def floatOf (env : RunnerEnv) : Json → Except String PyFloat
  | .bool b => .ok (.finite (if b then 1 else 0))
  | .int n => match env.floatOfInt n with
    | some x => .ok x
    | none => .error "OverflowError"
  | .float x => .ok x
  | .str s => match env.floatOfText s with
    | some x => .ok x
    | none => .error "ValueError"
  | .null | .arr _ | .obj _ => .error "TypeError"

namespace StubJobRunner

def sleep (env : RunnerEnv) (ctx : RunContext) (payload : Dict) : Except JobException Unit :=
  match floatOf env ((Dict.get? payload (py "duration_seconds")).getD (.int 1)) with
  | .error c => .error (.unhandled c)
  | .ok duration => match ctx.sleep duration with
    | .finished => .ok ()
    | .timedOut => .error .timedOut
    | .cancelled => .error .cancelled

def run (env : RunnerEnv) (ctx : RunContext) (payload : Dict) : Except JobException Dict := do
  let mode := (Dict.get? payload (py "mode")).getD (.str (py "success"))
  if mode.isText (py "transient_error") then throw (.transient "TransientRunnerError")
  -- the mode is looked up in a set
  if ¬ mode.hashable then throw (.unhandled "TypeError")
  if mode.isText (py "policy_error") ∨ mode.isText (py "permanent_error") then
    throw (.policy "PolicyValidationError")
  if mode.isText (py "sleep") then sleep env ctx payload
  return [(py "summary", .str (py "stub job completed")),
    (py "input_keys", .arr (((payload.map Prod.fst).insertionSort (· ≤ ·)).map Json.str))]

end StubJobRunner
end AgentRuntimeGrid
