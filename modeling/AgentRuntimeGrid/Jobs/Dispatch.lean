import AgentRuntimeGrid.Jobs.EvalLab
import AgentRuntimeGrid.Jobs.GdevAgent
import AgentRuntimeGrid.Runtime.System

/-! The runner of each type of job, and a worker that takes a message to its end while no other
actor moves. -/
namespace AgentRuntimeGrid

/-- `_write_eval_result`, and what the runner returns after it. -/
def EvalRun.finish (env : Env) (r : EvalRun) : List (FileRef × PyBytes) × RunOutcome :=
  match encodeIndented env r.evalResult with
  | none => ([], .raised "UnicodeEncodeError")
  | some bytes => ([(env.resolve r.evalResultPath, bytes)], .success r.result)

def endOfEval (env : Env) : Except JobException EvalRun → List (FileRef × PyBytes) × RunOutcome
  | .error e => ([], e.outcome)
  | .ok r => r.finish env

/-- The coroutine that `_process_message` makes of a job: the files it writes and how it ends. -/
def runJob (env : RunnerEnv) (ctx : RunContext) (job : JobRecord) (attemptNumber : ℤ) :
    List (FileRef × PyBytes) × RunOutcome :=
  if job.jobType = "eval_lab_case" then
    endOfEval env.toEnv (EvalLab.run env ctx job.payload.fields attemptNumber)
  else if job.jobType = "gdev_webhook_eval" then
    endOfEval env.toEnv (GdevAgent.run env ctx job.payload.fields attemptNumber)
  else match StubJobRunner.run env ctx job.payload.fields with
    | .error e => ([], e.outcome)
    | .ok result => ([], .success result)

/-- `artifact_payload or {}` of the result. -/
def EvalRun.artifactPayload (r : EvalRun) : Dict :=
  ((AgentRuntimeGrid.artifactPayload r.result).toOption.bind id).getD []

/-- The result has a payload for the artifact, which tells where the evaluation result is. -/
structure EvalRun.Linked (r : EvalRun) : Prop where
  artifactPayload : AgentRuntimeGrid.artifactPayload r.result = .ok (some r.artifactPayload)
  evalResultPath :
    Dict.get? r.artifactPayload (py "eval_result_path") = some (.str r.evalResultPath)

/-- `json.loads` reads back an object that `json.dumps` wrote as this one. -/
def LoadsAs (env : Env) (d d' : Dict) : Prop :=
  env.jsonLoads (Json.dumps Json.indentedFormat env.floatRepr (.obj d)) = .ok (.obj d')

namespace Worker
variable (w : Worker) (env : RunnerEnv) (ctx : RunContext) (now : String)

/-- The next step of a call to `process_one`, the end of the job's coroutine included. -/
def stepAlone (g : Grid) : WorkerState → Option (Grid × WorkerState)
  | .executing m job =>
    let run := runJob env { ctx with files := g.files } job m.attemptNumber
    some (g.writeFiles run.1, w.afterRun m job run.2)
  | l => w.advance g env.toEnv now l

/-- At most so many steps of the call. -/
def runAlone : ℕ → Grid × WorkerState → Grid × WorkerState
  | 0, s => s
  | steps + 1, s => match w.stepAlone env ctx now s.1 s.2 with
    | none => s
    | some s' => runAlone steps s'

variable {w env ctx now} {g g' : Grid} {l l' : WorkerState}

/-- A worker alone moves as an actor of the deployment. -/
theorem stepAlone_localStep {cfg : Deployment} {i : ℕ} (hw : cfg.worker i = w)
    (henv : cfg.env = env.toEnv) (h : w.stepAlone env ctx now g l = some (g', l')) :
    ∃ a, cfg.localStep i g (.worker l) a = some (g', .worker l') := by
  cases l with
  | executing m job =>
    obtain ⟨rfl, rfl⟩ := Prod.mk.inj (Option.some.inj h)
    refine ⟨.run (runJob env { ctx with files := g.files } job m.attemptNumber).1
      (runJob env { ctx with files := g.files } job m.attemptNumber).2, ?_⟩
    rw [Deployment.localStep, hw]
  | _ =>
    refine ⟨.advance now, ?_⟩
    simp only [stepAlone] at h
    simp only [Deployment.localStep, hw, henv, h, Option.map_some]

section EvaluationRun
variable {m : QueueJobMessage} {job : JobRecord} {r : EvalRun}

variable (env w now m job r) in
/-- The object at the path of the evaluation result when the artifact has been written: the
evaluation result, unless the path leads to the artifact itself. -/
def linkedContent : Dict :=
  if env.resolve r.evalResultPath = .artifact job.id m.attemptNumber then
    artifactContent env.toEnv job w.workerId m.attemptNumber now r.result r.artifactPayload
  else r.evalResult

/-- After an evaluation run the worker writes the artifact and adds the cross-link to what it then
finds at the path of the evaluation result. -/
theorem runAlone_evalRun (hstore : w.hasArtifactStore = true) (hr : r.Linked)
    (hrun : runJob env { ctx with files := g.files } job m.attemptNumber = r.finish env.toEnv)
    {d : Dict} (hloads : LoadsAs env.toEnv (w.linkedContent env now m job r) d) :
    ∃ metadata evalResult artifact linked,
      encodeIndented env.toEnv r.evalResult = some evalResult ∧
      encodeIndented env.toEnv (artifactContent env.toEnv job w.workerId m.attemptNumber now
        r.result r.artifactPayload) = some artifact ∧
      encodeIndented env.toEnv (d.update (crossLinkFields metadata r.artifactPayload)) =
        some linked ∧
      metadata.jobId = job.id ∧ metadata.attemptNumber = m.attemptNumber ∧
      w.runAlone env ctx now 3 (g, .executing m job) =
        (g.writeFiles [(env.resolve r.evalResultPath, evalResult),
          (.artifact job.id m.attemptNumber, artifact), (env.resolve r.evalResultPath, linked)],
        .completing m job ⟨r.result, some metadata⟩) := by
  obtain ⟨evalResult, hevalResult, -⟩ := encodeIndented_readable env.toEnv r.evalResult
  have hfinish : r.finish env.toEnv =
      ([(env.resolve r.evalResultPath, evalResult)], .success r.result) := by
    rw [EvalRun.finish, hevalResult]
  obtain ⟨metadata, artifact, hartifact, hpath, -⟩ := encodeStubJobArtifact_eq_ok env.toEnv job
    w.workerId m.attemptNumber now hr.artifactPayload
  obtain ⟨href, -, -⟩ := encodeStubJobArtifact_spec hartifact
  obtain ⟨hid, -, hattempt⟩ := encodeStubJobArtifact_ids hartifact
  obtain ⟨payload', hpayload', -, hcontent⟩ := encodeStubJobArtifact_content hartifact
  obtain rfl : some r.artifactPayload = payload' :=
    Except.ok.inj (hr.artifactPayload.symm.trans hpayload')
  have hpath : metadata.evalResultPath = some r.evalResultPath := by
    rw [hpath, Option.bind_some, evalResultPathText, hr.evalResultPath]
    rfl
  let g₁ := g.writeFiles [(env.resolve r.evalResultPath, evalResult)]
  let g₂ := g₁.writeFiles [(metadata.path, artifact)]
  -- the cross-link reads the evaluation result, or the artifact that has just replaced it
  have hlinkedBytes : ∃ bytes, encodeIndented env.toEnv (w.linkedContent env now m job r) =
      some bytes ∧ g₂.files (env.resolve r.evalResultPath) = some bytes := by
    unfold linkedContent
    by_cases hself : env.resolve r.evalResultPath = .artifact job.id m.attemptNumber
    · rw [if_pos hself]
      refine ⟨artifact, hcontent, ?_⟩
      rw [hself, ← href]
      exact FileStore.write_self _ _ _
    · rw [if_neg hself]
      refine ⟨evalResult, hevalResult, ?_⟩
      exact (FileStore.write_of_ne _ _ (by rwa [href])).trans (FileStore.write_self _ _ _)
  obtain ⟨bytes, hbytes, hfile⟩ := hlinkedBytes
  obtain ⟨linked, hlinked, hupsert⟩ :=
    upsertEvalResultCrossLink_eq metadata r.artifactPayload hbytes hfile hloads
  refine ⟨metadata, evalResult, artifact, linked, hevalResult, hcontent, hlinked, hid, hattempt, ?_⟩
  have hrunStep : w.stepAlone env ctx now g (.executing m job) =
      some (g₁, .writingArtifact m job r.result) := by
    simp only [stepAlone, hrun, hfinish, afterRun, hstore, if_true]
    rfl
  have hartifactStep : w.stepAlone env ctx now g₁ (.writingArtifact m job r.result) =
      some (g₂, .crossLinking m job r.result metadata r.evalResultPath) := by
    simp only [stepAlone, advance, writeArtifact, hartifact, hpath]
    rfl
  have hlinkStep : w.stepAlone env ctx now g₂
      (.crossLinking m job r.result metadata r.evalResultPath) =
        some (g₂.writeFiles [(env.resolve r.evalResultPath, linked)],
          .completing m job ⟨r.result, some metadata⟩) := by
    simp only [stepAlone, advance, crossLink, hr.artifactPayload, Except.toOption,
      Option.bind_some, id, Option.getD_some, hupsert]
  have hsteps : w.runAlone env ctx now 3 (g, .executing m job) =
      (g₂.writeFiles [(env.resolve r.evalResultPath, linked)],
        .completing m job ⟨r.result, some metadata⟩) := by
    simp only [runAlone, hrunStep, hartifactStep, hlinkStep]
  rw [hsteps, ← href]
  rfl

end EvaluationRun

end Worker
end AgentRuntimeGrid
