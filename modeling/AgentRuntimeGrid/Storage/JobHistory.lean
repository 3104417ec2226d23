import AgentRuntimeGrid.Storage.Repositories
import AgentRuntimeGrid.Worker.StateMachine

/-! What the tables say of one job, as a small machine of its own: the steps a write to the
database can be for one job, and the law its row, its log and its finalization obey. -/
namespace AgentRuntimeGrid

/-- What one transaction does to the database. A lifecycle event is written for a row the
transaction has seen open, except a scheduled retry, about which only `G` is known. -/
inductive DbStep (G : Database → JobId → Prop) (db : Database) : Database → Prop where
  | same : DbStep G db db
  | created {row : JobRecord} {db' : Database} (hdb : db.insertJob row = .ok db')
      (hstatus : row.status = .submitted) (hretries : 0 ≤ row.maxRetries) : DbStep G db db'
  | lifecycle {job row : JobRecord} {eventType : EventType} {eventData : EventData}
      {db' : Database} (hrow : db.jobs.get? job.id = some row)
      (htype : eventType = .running ∨ eventType = .retryScheduled ∨
        eventType = .staleLeaseRecovered)
      (hopen : G db job.id ∨ row.status.terminal = false)
      (hdb : db.recordStateEvent job eventType.status eventType eventData = some db') :
      DbStep G db db'
  | finalized {job : JobRecord} {eventType : EventType} {eventData : EventData}
      {r : FinalizationResult} {db' : Database}
      (hdb : db.finalizeJob job eventType.status eventType eventData = some (r, db')) :
      DbStep G db db'

/-- What the tables say of one job. -/
structure JobHistory where
  row : Option JobRecord
  events : List JobEvent
  finalization : Option JobFinalization
  conflicts : List FinalizationConflictAttempt
  calls : List FinalizationResult

def Database.history (db : Database) (j : JobId) : JobHistory where
  row := db.jobs.get? j
  events := db.eventsOf j
  finalization := db.jobFinalizations.get? j
  conflicts := db.conflictsOf j
  calls := db.callsOf j

/-- The status after the events, in order. -/
def replay (es : List JobEvent) : Option JobStatus :=
  es.foldl (fun _ e => some e.eventType.status) none

@[simp] theorem replay_append (es : List JobEvent) (e : JobEvent) :
    replay (es ++ [e]) = some e.eventType.status := by
  rw [replay, List.foldl_append]
  rfl

def terminalEvents (es : List JobEvent) : List JobEvent :=
  es.filter fun e => e.eventType.status.terminal

@[simp] theorem terminalEvents_append (es : List JobEvent) (e : JobEvent) :
    terminalEvents (es ++ [e]) =
      terminalEvents es ++ if e.eventType.status.terminal then [e] else [] := by
  rw [terminalEvents, List.filter_append]
  cases h : e.eventType.status.terminal <;> simp [terminalEvents, h]

namespace JobHistory

/-- What one transaction does to the history of one job. -/
inductive Step (G : Prop) (v : JobHistory) : JobHistory → Prop where
  | same : Step G v v
  | created {row : JobRecord} (hrow : v.row = none) (hstatus : row.status = .submitted)
      (hretries : 0 ≤ row.maxRetries) :
      Step G v { v with row := some row, events := v.events ++ [submittedEvent row] }
  | lifecycle {row : JobRecord} {e : JobEvent} (hrow : v.row = some row)
      (htype : e.eventType = .running ∨ e.eventType = .retryScheduled ∨
        e.eventType = .staleLeaseRecovered)
      (hopen : G ∨ row.status.terminal = false) :
      Step G v { v with row := some (row.withStatus e.eventType.status), events := v.events ++ [e] }
  | finalized {row : JobRecord} {e : JobEvent} {f : JobFinalization} (hrow : v.row = some row)
      (hterminal : e.eventType.status.terminal = true) (hnew : v.finalization = none)
      (htype : f.eventType = e.eventType) (hstatus : f.status = e.eventType.status) :
      Step G v { v with
        row := some (row.withStatus e.eventType.status)
        events := v.events ++ [e]
        finalization := some f
        calls := v.calls ++ [⟨true, false⟩] }
  | conflict {row : JobRecord} {f : JobFinalization} {c : FinalizationConflictAttempt}
      (hrow : v.row = some row) (hold : v.finalization = some f) :
      Step G v { v with conflicts := v.conflicts ++ [c], calls := v.calls ++ [⟨false, true⟩] }

end JobHistory

namespace Database

theorem history_updateStatus (db : Database) (k : JobId) (s : JobStatus) (j : JobId) :
    (db.updateStatus k s).history j = if j = k then { db.history j with
      row := (db.history j).row.map (·.withStatus s) } else db.history j := by
  have hrow := get?_updateStatus db k j s
  unfold history
  rw [hrow]
  split <;> rfl

theorem history_appendEvent (db : Database) (e : JobEvent) (j : JobId) :
    (db.appendEvent e).history j = if e.jobId = j then { db.history j with
      events := (db.history j).events ++ [e] } else db.history j := by
  unfold history
  rw [eventsOf_appendEvent]
  split
  · rfl
  · rw [List.append_nil]
    rfl

theorem history_appendConflict (db : Database) (c : FinalizationConflictAttempt) (j : JobId) :
    (db.appendConflict c).history j = if c.jobId = j then { db.history j with
      conflicts := (db.history j).conflicts ++ [c] } else db.history j := by
  unfold history
  rw [conflictsOf_appendConflict]
  split
  · rfl
  · rw [List.append_nil]
    rfl

theorem history_noteFinalizeCall (db : Database) (k : JobId) (r : FinalizationResult) (j : JobId) :
    (db.noteFinalizeCall k r).history j = if k = j then { db.history j with
      calls := (db.history j).calls ++ [r] } else db.history j := by
  unfold history
  rw [callsOf_noteFinalizeCall]
  split
  · rfl
  · rw [List.append_nil]
    rfl

variable {db db' : Database} {G : Database → JobId → Prop}

private theorem history_created {row : JobRecord} (hdb : db.insertJob row = .ok db')
    (hstatus : row.status = .submitted) (hretries : 0 ≤ row.maxRetries) (j : JobId) :
    (db.history j).Step (G db j) (db'.history j) := by
  obtain ⟨jobs, hjobs, rfl⟩ := insertJob_eq_ok hdb
  have hrow : Database.history { db with jobs := jobs } j = if row.id = j then { db.history j with
      row := some row } else db.history j := by
    unfold history
    rw [KeyedTable.get?_of_insert hjobs]
    split <;> rfl
  rw [history_appendEvent, hrow]
  by_cases hj : row.id = j
  · rw [if_pos hj, if_pos (show (submittedEvent row).jobId = j from hj)]
    exact .created (hj ▸ KeyedTable.get?_of_insert_none hjobs) hstatus hretries
  · rw [if_neg hj, if_neg (show (submittedEvent row).jobId ≠ j from hj)]
    exact .same

/-- A lifecycle write changes the history of its own job only. -/
theorem history_recordStateEvent {job row : JobRecord} {status : JobStatus}
    {eventType : EventType} {eventData : EventData} (hrow : db.jobs.get? job.id = some row)
    (hdb : db.recordStateEvent job status eventType eventData = some db') (j : JobId) :
    db'.history j = if job.id = j then { db.history j with
      row := some (row.withStatus status)
      events := (db.history j).events ++ [⟨job.id, job.runId, eventType, eventData, job.traceId⟩] }
    else db.history j := by
  obtain ⟨-, rfl⟩ := recordStateEvent_eq_some hdb
  rw [history_appendEvent, history_updateStatus]
  by_cases hj : job.id = j
  · subst hj
    rw [if_pos rfl, if_pos rfl, if_pos rfl, show (db.history job.id).row = some row from hrow]
    rfl
  · rw [if_neg hj, if_neg (Ne.symm hj), if_neg hj]

/-- So does the first terminal write of a job. -/
theorem history_finalizeJob {job row : JobRecord} {status : JobStatus} {eventType : EventType}
    {eventData : EventData} {r : FinalizationResult} (hrow : db.jobs.get? job.id = some row)
    (hnew : db.jobFinalizations.get? job.id = none)
    (hdb : db.finalizeJob job status eventType eventData = some (r, db')) (j : JobId) :
    db'.history j = if job.id = j then { db.history j with
      row := some (row.withStatus status)
      events := (db.history j).events ++ [⟨job.id, job.runId, eventType, eventData, job.traceId⟩]
      finalization := some ⟨job.id, job.runId, status, eventType, job.traceId⟩
      calls := (db.history j).calls ++ [⟨true, false⟩] }
    else db.history j := by
  obtain ⟨-, -, ⟨f, hf, -, -⟩ | ⟨fins, hfins, rfl, rfl⟩⟩ := finalizeJob_cases hdb
  · rw [hnew] at hf
    cases hf
  · have hfin : Database.history { db with jobFinalizations := fins } j =
        if job.id = j then { db.history j with
          finalization := some ⟨job.id, job.runId, status, eventType, job.traceId⟩ }
        else db.history j := by
      unfold history
      rw [KeyedTable.get?_of_insert hfins]
      split <;> rfl
    rw [history_noteFinalizeCall, history_appendEvent, history_updateStatus, hfin]
    by_cases hj : job.id = j
    · subst hj
      simp only [if_pos, show (db.history job.id).row = some row from hrow, Option.map_some]
    · simp only [if_neg hj, if_neg (Ne.symm hj)]

private theorem history_lifecycle {job row : JobRecord} {eventType : EventType}
    {eventData : EventData} (hrow : db.jobs.get? job.id = some row)
    (htype : eventType = .running ∨ eventType = .retryScheduled ∨ eventType = .staleLeaseRecovered)
    (hopen : G db job.id ∨ row.status.terminal = false)
    (hdb : db.recordStateEvent job eventType.status eventType eventData = some db') (j : JobId) :
    (db.history j).Step (G db j) (db'.history j) := by
  rw [history_recordStateEvent hrow hdb]
  by_cases hj : job.id = j
  · subst hj
    rw [if_pos rfl]
    exact .lifecycle (e := ⟨job.id, job.runId, eventType, eventData, job.traceId⟩) hrow htype hopen
  · rw [if_neg hj]
    exact .same

private theorem history_finalized {job : JobRecord} {eventType : EventType}
    {eventData : EventData} {r : FinalizationResult}
    (hdb : db.finalizeJob job eventType.status eventType eventData = some (r, db')) (j : JobId) :
    (db.history j).Step (G db j) (db'.history j) := by
  obtain ⟨hterminal, ⟨row, hrow⟩, ⟨f, hf, rfl, rfl⟩ | ⟨fins, hfins, -, -⟩⟩ :=
    finalizeJob_cases hdb
  · rw [history_noteFinalizeCall, history_appendConflict]
    by_cases hj : job.id = j
    · subst hj
      rw [if_pos rfl, if_pos rfl]
      exact .conflict hrow hf
    · rw [if_neg hj, if_neg hj]
      exact .same
  · have hnew : db.jobFinalizations.get? job.id = none := KeyedTable.get?_of_insert_none hfins
    rw [history_finalizeJob hrow hnew hdb]
    by_cases hj : job.id = j
    · subst hj
      rw [if_pos rfl]
      exact .finalized (e := ⟨job.id, job.runId, eventType, eventData, job.traceId⟩) hrow hterminal
        hnew rfl rfl
    · rw [if_neg hj]
      exact .same

end Database

theorem DbStep.history {G : Database → JobId → Prop} {db db' : Database} (h : DbStep G db db')
    (j : JobId) : (db.history j).Step (G db j) (db'.history j) := by
  cases h with
  | same => exact .same
  | created hdb hstatus hretries => exact Database.history_created hdb hstatus hretries j
  | lifecycle hrow htype hopen hdb => exact Database.history_lifecycle hrow htype hopen hdb j
  | finalized hdb => exact Database.history_finalized hdb j

namespace JobHistory
variable {G : Prop} {v v' : JobHistory}

def empty : JobHistory := ⟨none, [], none, [], []⟩

/-- The law of one job's history, whatever the writers know of the job they write to. -/
structure Lawful (v : JobHistory) : Prop where
  absent : v.row = none → v = empty
  status : ∀ row, v.row = some row → replay v.events = some row.status
  submitted : ∀ row, v.row = some row → ∃ e es, v.events = e :: es ∧ e.eventType = .submitted ∧
    ∀ e' ∈ es, e'.eventType ≠ .submitted
  terminal : (terminalEvents v.events).map JobEvent.eventType =
    (v.finalization.map JobFinalization.eventType).toList
  calls : v.calls.length = v.finalization.toList.length + v.conflicts.length
  wins : (v.calls.filter FinalizationResult.finalized).length = v.finalization.toList.length
  first : v.finalization = none → v.conflicts = []
  settled : ∀ row, v.row = some row → row.status.terminal = true → v.finalization.isSome
  retries : ∀ row, v.row = some row → 0 ≤ row.maxRetries

theorem lawful_empty : Lawful empty where
  absent _ := rfl
  status _ h := nomatch h
  submitted _ h := nomatch h
  terminal := rfl
  calls := rfl
  wins := rfl
  first _ := rfl
  settled _ h := nomatch h
  retries _ h := nomatch h

private theorem submitted_append {es : List JobEvent} {e : JobEvent}
    (h : ∃ e₀ es₀, es = e₀ :: es₀ ∧ e₀.eventType = .submitted ∧
      ∀ e' ∈ es₀, e'.eventType ≠ .submitted) (he : e.eventType ≠ .submitted) :
    ∃ e₀ es₀, es ++ [e] = e₀ :: es₀ ∧ e₀.eventType = .submitted ∧
      ∀ e' ∈ es₀, e'.eventType ≠ .submitted := by
  obtain ⟨e₀, es₀, rfl, h₀, hs⟩ := h
  refine ⟨e₀, es₀ ++ [e], rfl, h₀, fun e' he' => ?_⟩
  rcases List.mem_append.mp he' with h | h
  · exact hs e' h
  · rw [List.mem_singleton.mp h]
    exact he

theorem Lawful.step (h : v.Step G v') (hv : v.Lawful) : v'.Lawful := by
  cases h with
  | same => exact hv
  | created hrow hstatus hretries =>
    rw [hv.absent hrow]
    exact {
      absent := fun h => nomatch h
      status := fun row h => by
        cases h
        exact congrArg some hstatus.symm
      submitted := fun row h => ⟨_, [], rfl, rfl, by simp⟩
      terminal := rfl
      calls := rfl
      wins := rfl
      first := fun _ => rfl
      settled := fun row h hterminal => by
        cases h
        rw [hstatus] at hterminal
        cases hterminal
      retries := fun row h => by
        cases h
        exact hretries }
  | @lifecycle row e hrow htype hopen =>
    have hsub : e.eventType ≠ .submitted := by rcases htype with h | h | h <;> simp [h]
    have hter : e.eventType.status.terminal = false := by
      rcases htype with h | h | h <;> rw [h] <;> rfl
    exact {
      absent := fun h => nomatch h
      status := fun row h => by
        cases h
        exact replay_append v.events e
      submitted := fun _ _ => submitted_append (hv.submitted row hrow) hsub
      terminal := by simpa [hter] using hv.terminal
      calls := hv.calls
      wins := hv.wins
      first := hv.first
      settled := fun row h hterminal => by
        cases h
        rw [JobRecord.withStatus_status, hter] at hterminal
        cases hterminal
      retries := fun row' h => by
        cases h
        exact hv.retries row hrow }
  | @finalized row e f hrow hterminal hnew htype hstatus =>
    have hsub : e.eventType ≠ .submitted := by
      intro h
      rw [h] at hterminal
      cases hterminal
    have hcon := hv.first hnew
    exact {
      absent := fun h => nomatch h
      status := fun row h => by
        cases h
        exact replay_append v.events e
      submitted := fun _ _ => submitted_append (hv.submitted row hrow) hsub
      terminal := by
        have ht := hv.terminal
        rw [hnew] at ht
        simp [hterminal, htype, List.map_eq_nil_iff.mp ht]
      calls := by
        have hc := hv.calls
        rw [hnew] at hc
        simpa [Nat.add_comm] using hc
      wins := by
        have hw := hv.wins
        rw [hnew] at hw
        simpa using hw
      first := fun h => nomatch h
      settled := fun _ _ _ => rfl
      retries := fun row' h => by
        cases h
        exact hv.retries row hrow }
  | @conflict row f c hrow hold =>
    exact {
      absent := fun h => by
        rw [show v.row = none from h] at hrow
        cases hrow
      status := hv.status
      submitted := hv.submitted
      terminal := hv.terminal
      calls := by
        have hc := hv.calls
        simp only [List.length_append, List.length_singleton]
        omega
      wins := by simpa using hv.wins
      first := fun h => by
        rw [show v.finalization = none from h] at hold
        cases hold
      settled := hv.settled
      retries := hv.retries }

/-- The row and the finalization row agree. -/
structure Settled (v : JobHistory) : Prop where
  terminal_iff : ∀ row, v.row = some row → (row.status.terminal = true ↔ v.finalization.isSome)
  status_eq : ∀ row f, v.row = some row → v.finalization = some f → row.status = f.status

theorem settled_empty : Settled empty where
  terminal_iff _ h := nomatch h
  status_eq _ _ h := nomatch h

/-- Writers that only reopen a job without a finalization row keep the two rows in agreement. -/
theorem Settled.step (h : v.Step (v.finalization = none) v') (hl : v.Lawful) (hv : v.Settled) :
    v'.Settled := by
  cases h with
  | same => exact hv
  | created hrow hstatus hretries =>
    rw [hl.absent hrow]
    exact {
      terminal_iff := fun row h => by
        cases h
        rw [hstatus]
        exact ⟨(nomatch ·), (nomatch ·)⟩
      status_eq := fun _ _ _ h => nomatch h }
  | @lifecycle row e hrow htype hopen =>
    have hnone : v.finalization = none := by
      rcases hopen with h | h
      · exact h
      · have := (hv.terminal_iff row hrow).not
        simpa [h] using this
    have hter : e.eventType.status.terminal = false := by
      rcases htype with h | h | h <;> rw [h] <;> rfl
    exact {
      terminal_iff := fun row h => by
        cases h
        simp [hter, hnone]
      status_eq := fun _ f _ h => by
        rw [show v.finalization = some f from h] at hnone
        cases hnone }
  | finalized hrow hterminal hnew htype hstatus =>
    exact {
      terminal_iff := fun row h => by
        cases h
        simp [hterminal]
      status_eq := fun row f h hf => by
        cases h
        cases hf
        exact hstatus.symm }
  | conflict hrow hold => exact ⟨hv.terminal_iff, hv.status_eq⟩

theorem finalization_step (h : v.Step G v') {f : JobFinalization} (hf : v.finalization = some f) :
    v'.finalization = some f := by
  cases h with
  | finalized _ _ hnew => rw [hf] at hnew; cases hnew
  | _ => exact hf

/-- While no writer reopens a finalized job, neither its row nor its log changes. -/
theorem Settled.frozen (h : v.Step (v.finalization = none) v') (hv : v.Settled)
    {row : JobRecord} (hrow : v.row = some row) (hterminal : row.status.terminal = true) :
    v'.row = some row ∧ v'.events = v.events := by
  have hsome := (hv.terminal_iff row hrow).mp hterminal
  cases h with
  | same => exact ⟨hrow, rfl⟩
  | created hnone => rw [hrow] at hnone; cases hnone
  | @lifecycle row' _ hrow' htype hopen =>
    rw [hrow] at hrow'
    obtain rfl := Option.some.inj hrow'
    rcases hopen with h | h
    · rw [h] at hsome
      cases hsome
    · rw [hterminal] at h
      cases h
  | finalized _ _ hnew =>
    rw [hnew] at hsome
    cases hsome
  | conflict => exact ⟨hrow, rfl⟩

/-- What `create_job` leaves of a new job. -/
def ofSubmitted (row : JobRecord) : JobHistory := ⟨some row, [submittedEvent row], none, [], []⟩

/-- A job whose status is still `submitted` is as `create_job` left it. -/
theorem ofSubmitted_step (h : v.Step G v') (hl : v.Lawful)
    (hv : ∀ row, v.row = some row → row.status = .submitted → v = ofSubmitted row) :
    ∀ row, v'.row = some row → row.status = .submitted → v' = ofSubmitted row := by
  intro row hrow' hsub
  cases h with
  | same => exact hv row hrow' hsub
  | created hrow =>
    cases hrow'
    rw [hl.absent hrow]
    rfl
  | @lifecycle row' e hrow htype =>
    cases hrow'
    rw [JobRecord.withStatus_status] at hsub
    rcases htype with h | h | h <;> rw [h] at hsub <;> cases hsub
  | @finalized row' e f hrow hterminal =>
    cases hrow'
    rw [JobRecord.withStatus_status] at hsub
    rw [hsub] at hterminal
    cases hterminal
  | conflict hrow hold =>
    rw [hv row hrow' hsub] at hold
    cases hold

end JobHistory
end AgentRuntimeGrid
