import AgentRuntimeGrid.Storage.Models

/-! The guarded terminal write and the two counts reports take of it. -/
namespace AgentRuntimeGrid
namespace Database

/-- `finalize_job` in a transaction that commits; `none` is a call that raises (a status that is
not terminal, or a job without a row to refer to) and leaves nothing behind. -/
def finalizeJob (db : Database) (job : JobRecord) (status : JobStatus) (eventType : EventType)
    (eventData : EventData) : Option (FinalizationResult × Database) :=
  if status.terminal = false then none
  else match db.jobs.get? job.id with
    | none => none
    | some _ =>
      match db.jobFinalizations.insert ⟨job.id, job.runId, status, eventType, job.traceId⟩ with
      | none =>
          let result : FinalizationResult := ⟨false, true⟩
          some (result, (db.appendConflict
            ⟨job.id, job.runId, status, eventType, job.traceId⟩).noteFinalizeCall job.id result)
      | some finalizations =>
          let result : FinalizationResult := ⟨true, false⟩
          some (result, ((Database.updateStatus { db with jobFinalizations := finalizations } job.id
            status).appendEvent ⟨job.id, job.runId, eventType, eventData,
              job.traceId⟩).noteFinalizeCall job.id result)

def finalizationConflictAttemptCount (db : Database) (runId : Option RunId) : ℕ :=
  (db.finalizationConflictAttempts.filter fun c =>
    match runId with
    | none => true
    | some r => c.runId = r).length

/-- `event_type IN TERMINAL_STATUSES`: the four event types named like a terminal status. -/
def isTerminalEventType : EventType → Bool
  | .completed | .failed | .timedOut | .cancelled => true
  | _ => false

/-- `duplicate_terminal_event_count`: the number of jobs with more than one event whose type is a
terminal status, among the events of one run when a run is given. -/
def duplicateTerminalEventCount (db : Database) (runId : Option RunId) : ℕ :=
  let terminal := db.jobEvents.filter fun e => isTerminalEventType e.eventType &&
    match runId with
    | none => true
    | some r => decide (e.runId = r)
  let jobIds := terminal.map JobEvent.jobId
  (jobIds.dedup.filter fun j => 1 < jobIds.count j).length

/-- Everything one committed `finalize_job` call can have done: a second call records a conflict,
a first one writes the row, the status and the event together. -/
theorem finalizeJob_cases {db db' : Database} {job : JobRecord} {status : JobStatus}
    {eventType : EventType} {eventData : EventData} {r : FinalizationResult}
    (h : db.finalizeJob job status eventType eventData = some (r, db')) :
    status.terminal = true ∧ (∃ row, db.jobs.get? job.id = some row) ∧
    ((∃ f, db.jobFinalizations.get? job.id = some f ∧ r = ⟨false, true⟩ ∧
        db' = (db.appendConflict
          ⟨job.id, job.runId, status, eventType, job.traceId⟩).noteFinalizeCall job.id r) ∨
     (∃ fins, db.jobFinalizations.insert ⟨job.id, job.runId, status, eventType, job.traceId⟩ =
        some fins ∧ r = ⟨true, false⟩ ∧
        db' = ((Database.updateStatus { db with jobFinalizations := fins } job.id
          status).appendEvent ⟨job.id, job.runId, eventType, eventData,
            job.traceId⟩).noteFinalizeCall job.id r)) := by
  unfold finalizeJob at h
  split at h
  · cases h
  next hs =>
    split at h
    · cases h
    next row hrow =>
      refine ⟨by simpa using hs, ⟨row, hrow⟩, ?_⟩
      split at h
      next hnone =>
        cases h
        obtain ⟨f, hf⟩ := KeyedTable.insert_eq_none_iff.mp hnone
        exact .inl ⟨f, hf, rfl, rfl⟩
      next fins hfins =>
        cases h
        exact .inr ⟨fins, hfins, rfl, rfl⟩

theorem finalized_of_finalizeJob {db db' : Database} {job : JobRecord} {status : JobStatus}
    {eventType : EventType} {eventData : EventData} {r : FinalizationResult}
    (h : db.finalizeJob job status eventType eventData = some (r, db')) : db'.Finalized job.id := by
  obtain ⟨-, -, ⟨f, hf, -, rfl⟩ | ⟨fins, hfins, -, rfl⟩⟩ := finalizeJob_cases h
  · exact finalized_iff.mpr ⟨f, hf⟩
  · exact finalized_iff.mpr ⟨_, KeyedTable.get?_of_insert_self hfins⟩

theorem jobEvents_of_finalizeJob {db db' : Database} {job : JobRecord} {status : JobStatus}
    {eventType : EventType} {eventData : EventData} {r : FinalizationResult}
    (h : db.finalizeJob job status eventType eventData = some (r, db')) :
    db'.jobEvents = db.jobEvents ∨
      db'.jobEvents = db.jobEvents ++ [⟨job.id, job.runId, eventType, eventData, job.traceId⟩] := by
  obtain ⟨-, -, ⟨f, -, -, rfl⟩ | ⟨fins, -, -, rfl⟩⟩ := finalizeJob_cases h
  · exact .inl rfl
  · exact .inr rfl

/-- A terminal write of an existing job always commits. -/
theorem finalizeJob_isSome {db : Database} {job row : JobRecord} {status : JobStatus}
    (eventType : EventType) (eventData : EventData) (hs : status.terminal = true)
    (hrow : db.jobs.get? job.id = some row) :
    ∃ r db', db.finalizeJob job status eventType eventData = some (r, db') := by
  unfold finalizeJob
  rw [hrow, if_neg (by simp [hs])]
  cases db.jobFinalizations.insert ⟨job.id, job.runId, status, eventType, job.traceId⟩ with
  | none => exact ⟨_, _, rfl⟩
  | some _ => exact ⟨_, _, rfl⟩

end Database
end AgentRuntimeGrid
