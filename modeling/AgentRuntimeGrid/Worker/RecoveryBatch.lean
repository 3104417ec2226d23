import AgentRuntimeGrid.Storage.JobHistory
import AgentRuntimeGrid.Worker.Recovery

/-! A whole call of `recover_stale_leases` with no other process running: what it does to each job,
whatever the order of its leases among those of the batch. -/
namespace AgentRuntimeGrid

/-- A status is terminal exactly when the job has its finalization row. -/
def Database.Consistent (db : Database) : Prop :=
  ∀ j row, db.loadJob j = some row → (row.status.terminal = true ↔ db.Finalized j)

theorem Database.consistent_iff (db : Database) : db.Consistent ↔
    ∀ row ∈ db.jobs.rows, (row.status.terminal = true ↔ db.Finalized row.id) := by
  constructor
  · intro h row hrow
    exact h row.id row (KeyedTable.get?_eq_some_iff.mpr ⟨hrow, rfl⟩)
  · intro h j row hrow
    obtain ⟨hmem, rfl⟩ := KeyedTable.get?_eq_some_iff.mp hrow
    exact h row hmem

instance (db : Database) : Decidable db.Consistent :=
  decidable_of_iff _ db.consistent_iff.symm

/-- The event is committed and the next message published. -/
def Grid.afterRequeue (g : Grid) (db : Database) (job : JobRecord) (lease : StaleLease) : Grid :=
  { g with
    db := db
    queue := g.queue.publishJob (job.message (lease.message.attemptNumber + 1))
      lease.message.entryId }

/-- The failure is committed and the dead letter added. -/
def Grid.afterDeadLetter (g : Grid) (db : Database) (lease : StaleLease) : Grid :=
  { g with
    db := db
    queue := g.queue.addDeadLetter lease.message Database.staleLeaseExhaustedErrorClass
      lease.message.attemptNumber }

namespace Recovery

/-- The call runs from one state to another, alone. -/
def Steps (recoveryWorkerId : String) : Grid × RecoveryState → Grid × RecoveryState → Prop :=
  Relation.ReflTransGen fun x y => advance recoveryWorkerId x.1 x.2 = some y

/-- What the call does about one lease, in all its steps. -/
inductive LeaseRecovered (recoveryWorkerId : String) (g : Grid) (lease : StaleLease) :
    Grid → RecoveryKind → Prop where
  | missing (hjob : g.db.loadJob lease.message.jobId = none) :
      LeaseRecovered recoveryWorkerId g lease (g.acknowledge lease.message) .ackMissing
  | terminal {job : JobRecord} (hjob : g.db.loadJob lease.message.jobId = some job)
      (hterminal : job.status.terminal = true) :
      LeaseRecovered recoveryWorkerId g lease (g.acknowledge lease.message) .ackTerminal
  | requeue {job : JobRecord} {db : Database}
      (hjob : g.db.loadJob lease.message.jobId = some job) (hopen : job.status.terminal = false)
      (hretries : lease.message.attemptNumber ≤ job.maxRetries)
      (hdb : g.db.recordStaleLeaseRecovered job recoveryWorkerId lease.consumerName
        lease.message.entryId lease.idleMs lease.deliveryCount lease.message.attemptNumber
        (lease.message.attemptNumber + 1) = some db) :
      LeaseRecovered recoveryWorkerId g lease
        ((g.afterRequeue db job lease).acknowledge lease.message) .requeue
  | dlq {job : JobRecord} {r : FinalizationResult} {db : Database}
      (hjob : g.db.loadJob lease.message.jobId = some job) (hopen : job.status.terminal = false)
      (hretries : job.maxRetries < lease.message.attemptNumber)
      (hdb : g.db.recordFailed job recoveryWorkerId lease.message.attemptNumber
        Database.staleLeaseExhaustedErrorClass true = some (r, db)) :
      LeaseRecovered recoveryWorkerId g lease
        ((g.afterDeadLetter db lease).acknowledge lease.message) .dlq

/-- What the call does about leases one after another. -/
inductive BatchRecovered (recoveryWorkerId : String) :
    Grid → List StaleLease → Grid → List RecoveryKind → Prop where
  | nil {g : Grid} : BatchRecovered recoveryWorkerId g [] g []
  | cons {g g' g'' : Grid} {lease : StaleLease} {rest : List StaleLease} {kind : RecoveryKind}
      {kinds : List RecoveryKind} (hfirst : LeaseRecovered recoveryWorkerId g lease g' kind)
      (hrest : BatchRecovered recoveryWorkerId g' rest g'' kinds) :
      BatchRecovered recoveryWorkerId g (lease :: rest) g'' (kind :: kinds)

/-- What the tables and the two streams hold of one job. -/
structure JobView where
  history : JobHistory
  messages : List StreamEntry
  deadLetters : List DeadLetterMessage

def view (g : Grid) (j : JobId) : JobView where
  history := g.db.history j
  messages := g.queue.jobs.log.filter fun e => e.message.jobId = j
  deadLetters := g.queue.dlq.filter fun m => m.jobId = j

section Outcome
variable (recoveryWorkerId : String) (job : JobRecord) (leases : List StaleLease)

/-- The leases of a job before the first one that has no attempt left. -/
def requeued : List StaleLease :=
  leases.takeWhile fun l => l.message.attemptNumber ≤ job.maxRetries

/-- That first one, if there is one, and those after it. -/
def exhausted : List StaleLease :=
  leases.dropWhile fun l => l.message.attemptNumber ≤ job.maxRetries

def recoveredEvent (l : StaleLease) : JobEvent where
  jobId := job.id
  runId := job.runId
  eventType := .staleLeaseRecovered
  eventData := .staleLeaseRecovered recoveryWorkerId l.consumerName l.message.entryId l.idleMs
    l.deliveryCount l.message.attemptNumber (l.message.attemptNumber + 1)
    Database.staleLeaseErrorClass true
  traceId := job.traceId

def exhaustedEvent (l : StaleLease) : JobEvent where
  jobId := job.id
  runId := job.runId
  eventType := .failed
  eventData := .failed recoveryWorkerId l.message.attemptNumber
    Database.staleLeaseExhaustedErrorClass true
  traceId := job.traceId

def requeuedEntry (l : StaleLease) : StreamEntry :=
  ⟨job.message (l.message.attemptNumber + 1), l.message.entryId⟩

def deadLetter (l : StaleLease) : DeadLetterMessage :=
  ⟨l.message.jobId, l.message.runId, l.message.attemptNumber, l.message.traceId,
    Database.staleLeaseExhaustedErrorClass, l.message.attemptNumber, l.message.entryId⟩

/-- The job after a lease that still has an attempt. -/
def JobView.requeue (v : JobView) (l : StaleLease) : JobView where
  history := { v.history with
    row := some (job.withStatus .queued)
    events := v.history.events ++ [recoveredEvent recoveryWorkerId job l] }
  messages := v.messages ++ [requeuedEntry job l]
  deadLetters := v.deadLetters

/-- The job after a lease that has none. -/
def JobView.fail (v : JobView) (l : StaleLease) : JobView where
  history := { v.history with
    row := some (job.withStatus .failed)
    events := v.history.events ++ [exhaustedEvent recoveryWorkerId job l]
    finalization := some ⟨job.id, job.runId, .failed, .failed, job.traceId⟩
    calls := v.history.calls ++ [⟨true, false⟩] }
  messages := v.messages
  deadLetters := v.deadLetters ++ [deadLetter l]

/-- The status the leases of an open job leave it with. -/
def endStatus : JobStatus :=
  match exhausted job leases, requeued job leases with
  | _ :: _, _ => .failed
  | [], _ :: _ => .queued
  | [], [] => job.status

/-- An open job after all its leases, of which only the first one without an attempt fails it. -/
def JobView.recover (v : JobView) : JobView where
  history := { v.history with
    row := some (job.withStatus (endStatus job leases))
    events := v.history.events ++ (requeued job leases).map (recoveredEvent recoveryWorkerId job) ++
      (exhausted job leases).head?.toList.map (exhaustedEvent recoveryWorkerId job)
    finalization := (exhausted job leases).head?.map fun _ =>
      ⟨job.id, job.runId, .failed, .failed, job.traceId⟩
    calls := v.history.calls ++ (exhausted job leases).head?.toList.map fun _ => ⟨true, false⟩ }
  messages := v.messages ++ (requeued job leases).map (requeuedEntry job)
  deadLetters := v.deadLetters ++ (exhausted job leases).head?.toList.map deadLetter

/-- The kinds of the actions for the leases of an open job. -/
def openKinds : List RecoveryKind :=
  (requeued job leases).map (fun _ => .requeue) ++
  match exhausted job leases with
  | [] => []
  | _ :: rest => .dlq :: rest.map fun _ => .ackTerminal

end Outcome

variable {recoveryWorkerId : String} {g g' : Grid} {lease : StaleLease}
  {kind : RecoveryKind}

theorem steps_of_lease (h : LeaseRecovered recoveryWorkerId g lease g' kind)
    (hlocks : g.rowLocks = []) (rest : List StaleLease) (result : StaleLeaseRecoveryResult) :
    Steps recoveryWorkerId (g, .planning (lease :: rest) result)
      (g', .planning rest (result.count kind)) := by
  have hunlocked : g.rowLocked lease.message.jobId = false := by
    simp [Grid.rowLocked, hlocks]
  cases h with
  | missing hjob =>
    refine .head (b := (g, .acknowledging .ackMissing lease rest result)) ?_ (.single rfl)
    simp [advance, plan, hunlocked, hjob]
  | terminal hjob hterminal =>
    refine .head (b := (g, .acknowledging .ackTerminal lease rest result)) ?_ (.single rfl)
    simp [advance, plan, hunlocked, hjob, hterminal]
  | @requeue job db hjob hopen hretries hdb =>
    refine .head (b := ({ g with db := db }, .publishing lease
      (job.message (lease.message.attemptNumber + 1)) rest result)) ?_
      (.head rfl (.single rfl))
    simp [advance, plan, hunlocked, hjob, hopen, hretries, hdb, Grid.commit]
  | @dlq job r db hjob hopen hretries hdb =>
    refine .head (b := ({ g with db := db }, .deadLettering lease rest result)) ?_
      (.head rfl (.single rfl))
    simp [advance, plan, hunlocked, hjob, hopen, not_le.mpr hretries, hdb, Grid.commit]

theorem view_acknowledge (g : Grid) (m : QueueJobMessage) (j : JobId) :
    view (g.acknowledge m) j = view g j := by
  simp only [view, Grid.db_acknowledge, Grid.log_acknowledge, Grid.dlq_acknowledge]

theorem view_afterRequeue {job : JobRecord} {db : Database}
    (hjob : g.db.loadJob lease.message.jobId = some job)
    (hdb : g.db.recordStaleLeaseRecovered job recoveryWorkerId lease.consumerName
      lease.message.entryId lease.idleMs lease.deliveryCount lease.message.attemptNumber
      (lease.message.attemptNumber + 1) = some db) (j : JobId) :
    view (g.afterRequeue db job lease) j =
      if lease.message.jobId = j then (view g j).requeue recoveryWorkerId job lease
      else view g j := by
  have hid := Database.id_of_loadJob hjob
  have hhistory := Database.history_recordStateEvent (hid ▸ hjob) hdb j
  have hmessages : (g.afterRequeue db job lease).queue.jobs.log =
      g.queue.jobs.log ++ [requeuedEntry job lease] := rfl
  have hjobId : (requeuedEntry job lease).message.jobId = job.id := rfl
  simp only [view, hmessages, List.filter_append]
  rw [show (g.afterRequeue db job lease).db.history j = _ from hhistory, ← hid]
  split
  next heq =>
    rw [List.filter_singleton, hjobId, decide_eq_true heq]
    rfl
  next hne =>
    rw [List.filter_singleton, hjobId, decide_eq_false hne]
    simp only [cond_false, List.append_nil]
    rfl

theorem view_afterDeadLetter {job : JobRecord} {r : FinalizationResult} {db : Database}
    (hjob : g.db.loadJob lease.message.jobId = some job)
    (hnew : g.db.jobFinalizations.get? lease.message.jobId = none)
    (hdb : g.db.recordFailed job recoveryWorkerId lease.message.attemptNumber
      Database.staleLeaseExhaustedErrorClass true = some (r, db)) (j : JobId) :
    view (g.afterDeadLetter db lease) j =
      if lease.message.jobId = j then (view g j).fail recoveryWorkerId job lease
      else view g j := by
  have hid := Database.id_of_loadJob hjob
  have hhistory := Database.history_finalizeJob (hid ▸ hjob) (hid ▸ hnew) hdb j
  have hdead : (g.afterDeadLetter db lease).queue.dlq = g.queue.dlq ++ [deadLetter lease] := rfl
  have hjobId : (deadLetter lease).jobId = job.id := hid.symm
  simp only [view, hdead, List.filter_append]
  rw [show (g.afterDeadLetter db lease).db.history j = _ from hhistory, ← hid]
  split
  next heq =>
    rw [List.filter_singleton, hjobId, decide_eq_true heq]
    rfl
  next hne =>
    rw [List.filter_singleton, hjobId, decide_eq_false hne]
    simp only [cond_false, List.append_nil]
    rfl

/-- An open job of consistent tables has no finalization row. -/
theorem finalization_of_open {job : JobRecord} {j : JobId} (h : g.db.Consistent)
    (hjob : g.db.loadJob j = some job) (hopen : job.status.terminal = false) :
    g.db.jobFinalizations.get? j = none := by
  have hiff := h j job hjob
  rw [hopen] at hiff
  simpa [Database.Finalized] using hiff

variable (recoveryWorkerId g) in
theorem exists_leaseRecovered (lease : StaleLease) :
    ∃ g' kind, LeaseRecovered recoveryWorkerId g lease g' kind := by
  cases hjob : g.db.loadJob lease.message.jobId with
  | none => exact ⟨_, _, .missing hjob⟩
  | some job =>
    have hrow : g.db.jobs.get? job.id = some job := Database.id_of_loadJob hjob ▸ hjob
    cases hterminal : job.status.terminal with
    | true => exact ⟨_, _, .terminal hjob hterminal⟩
    | false =>
      by_cases hretries : lease.message.attemptNumber ≤ job.maxRetries
      · obtain ⟨db, hdb⟩ := Database.recordStateEvent_isSome .queued .staleLeaseRecovered _ hrow
        exact ⟨_, _, .requeue hjob hterminal hretries hdb⟩
      · have hfailed : JobStatus.failed.terminal = true := rfl
        obtain ⟨r, db, hdb⟩ := Database.finalizeJob_isSome .failed _ hfailed hrow
        exact ⟨_, _, .dlq hjob hterminal (not_le.mp hretries) hdb⟩

theorem LeaseRecovered.view_eq (h : LeaseRecovered recoveryWorkerId g lease g' kind)
    (hg : g.db.Consistent) :
    (∀ j, lease.message.jobId ≠ j → view g' j = view g j) ∧
    match g.db.loadJob lease.message.jobId with
    | none => kind = .ackMissing ∧ view g' lease.message.jobId = view g lease.message.jobId
    | some job =>
      if job.status.terminal then
        kind = .ackTerminal ∧ view g' lease.message.jobId = view g lease.message.jobId
      else if lease.message.attemptNumber ≤ job.maxRetries then kind = .requeue ∧
        view g' lease.message.jobId =
          (view g lease.message.jobId).requeue recoveryWorkerId job lease
      else kind = .dlq ∧ view g' lease.message.jobId =
        (view g lease.message.jobId).fail recoveryWorkerId job lease := by
  cases h with
  | missing hjob =>
    simp only [hjob, view_acknowledge]
    exact ⟨fun _ _ => trivial, trivial, trivial⟩
  | terminal hjob hterminal =>
    simp only [hjob, hterminal, view_acknowledge, if_true]
    exact ⟨fun _ _ => trivial, trivial, trivial⟩
  | requeue hjob hopen hretries hdb =>
    simp only [hjob, hopen, hretries, view_acknowledge, Bool.false_eq_true, if_false, if_true]
    exact ⟨fun j hne => (view_afterRequeue hjob hdb j).trans (if_neg hne), trivial,
      (view_afterRequeue hjob hdb _).trans (if_pos rfl)⟩
  | dlq hjob hopen hretries hdb =>
    have hnew := finalization_of_open hg hjob hopen
    simp only [hjob, hopen, not_le.mpr hretries, view_acknowledge, Bool.false_eq_true, if_false]
    exact ⟨fun j hne => (view_afterDeadLetter hjob hnew hdb j).trans (if_neg hne), trivial,
      (view_afterDeadLetter hjob hnew hdb _).trans (if_pos rfl)⟩

theorem LeaseRecovered.consistent (h : LeaseRecovered recoveryWorkerId g lease g' kind)
    (hg : g.db.Consistent) : g'.db.Consistent := by
  intro j row hrow
  obtain ⟨hother, hown⟩ := h.view_eq hg
  have hview : ∀ v, view g' j = v → (v.history.row = some row →
      (row.status.terminal = true ↔ v.history.finalization.isSome)) →
      (row.status.terminal = true ↔ g'.db.Finalized j) := by
    rintro v rfl hv
    exact hv hrow
  have hsame : view g' j = view g j → (row.status.terminal = true ↔ g'.db.Finalized j) :=
    fun heq => hview _ heq fun hrow => hg j row hrow
  by_cases hj : lease.message.jobId = j
  · subst hj
    split at hown
    next => exact hsame hown.2
    next job hjob =>
      split_ifs at hown with hterminal hretries
      · exact hsame hown.2
      · have hnone := finalization_of_open hg hjob (by simpa using hterminal)
        refine hview _ hown.2 fun hrow => ?_
        cases hrow
        simp [JobView.requeue, view, Database.history, hnone, JobStatus.terminal]
      · refine hview _ hown.2 fun hrow => ?_
        cases hrow
        simp [JobView.fail, JobStatus.terminal]
  · exact hsame (hother j hj)

/-- The kinds of the actions for the leases of one job, in their order. -/
def kindsOf (leases : List StaleLease) (kinds : List RecoveryKind) (j : JobId) :
    List RecoveryKind :=
  ((leases.zip kinds).filter fun x => x.1.message.jobId = j).map Prod.snd

theorem kindsOf_cons (lease : StaleLease) (leases : List StaleLease) (kind : RecoveryKind)
    (kinds : List RecoveryKind) (j : JobId) :
    kindsOf (lease :: leases) (kind :: kinds) j =
      (if lease.message.jobId = j then [kind] else []) ++ kindsOf leases kinds j := by
  unfold kindsOf
  rw [List.zip_cons_cons, List.filter_cons]
  by_cases hj : lease.message.jobId = j <;> simp [hj]

variable {leases : List StaleLease} {kinds : List RecoveryKind} {j : JobId}

/-- A job that is missing or has ended is left as it is, and its leases are acknowledged. -/
theorem BatchRecovered.closed (h : BatchRecovered recoveryWorkerId g leases g' kinds)
    (hg : g.db.Consistent) {k : RecoveryKind}
    (hclosed : match g.db.loadJob j with
      | none => k = .ackMissing
      | some job => job.status.terminal = true ∧ k = .ackTerminal) :
    view g' j = view g j ∧
      kindsOf leases kinds j = (leases.filter fun l => l.message.jobId = j).map fun _ => k := by
  induction h with
  | nil => exact ⟨rfl, rfl⟩
  | @cons g g₁ g₂ lease rest kind kinds hfirst hrest ih =>
    obtain ⟨hother, hown⟩ := hfirst.view_eq hg
    have hstep : view g₁ j = view g j ∧ (lease.message.jobId = j → kind = k) := by
      by_cases hj : lease.message.jobId = j
      · subst hj
        split at hclosed
        next hjob =>
          simp only [hjob] at hown
          exact ⟨hown.2, fun _ => hown.1.trans hclosed.symm⟩
        next job hjob =>
          simp only [hjob, hclosed.1, if_true] at hown
          exact ⟨hown.2, fun _ => hown.1.trans hclosed.2.symm⟩
      · exact ⟨hother j hj, fun heq => absurd heq hj⟩
    have hload : g₁.db.loadJob j = g.db.loadJob j :=
      congrArg (fun v => v.history.row) hstep.1
    obtain ⟨hview, hkinds⟩ := ih (hfirst.consistent hg) (hload ▸ hclosed)
    refine ⟨hview.trans hstep.1, ?_⟩
    rw [kindsOf_cons, hkinds, List.filter_cons]
    by_cases hj : lease.message.jobId = j
    · simp [hj, hstep.2 hj]
    · simp [hj]

section Cons
variable (job : JobRecord) (lease : StaleLease) (rest : List StaleLease) (v : JobView)

theorem JobView.recover_nil (hrow : v.history.row = some job)
    (hnone : v.history.finalization = none) : v.recover recoveryWorkerId job [] = v := by
  obtain ⟨⟨row, events, finalization, conflicts, calls⟩, messages, deadLetters⟩ := v
  cases hrow
  cases hnone
  simp [recover, requeued, exhausted, endStatus, JobRecord.withStatus]

theorem JobView.recover_requeue (h : lease.message.attemptNumber ≤ job.maxRetries) :
    (v.requeue recoveryWorkerId job lease).recover recoveryWorkerId (job.withStatus .queued) rest =
      v.recover recoveryWorkerId job (lease :: rest) := by
  have hrequeued : requeued job (lease :: rest) = lease :: requeued job rest := by
    simp [requeued, h]
  have hexhausted : exhausted job (lease :: rest) = exhausted job rest := by
    simp [exhausted, h]
  have hstatus : endStatus (job.withStatus .queued) rest = endStatus job (lease :: rest) := by
    unfold endStatus
    rw [hrequeued, hexhausted]
    change (match exhausted job rest, requeued job rest with
      | _ :: _, _ => JobStatus.failed
      | [], _ :: _ => .queued
      | [], [] => .queued) = _
    cases exhausted job rest <;> cases requeued job rest <;> rfl
  unfold recover requeue
  rw [hstatus, hrequeued, hexhausted]
  simp only [List.map_cons, List.append_assoc, List.cons_append, List.nil_append]
  rfl

theorem JobView.recover_fail (h : job.maxRetries < lease.message.attemptNumber) :
    v.fail recoveryWorkerId job lease = v.recover recoveryWorkerId job (lease :: rest) := by
  have hrequeued : requeued job (lease :: rest) = [] := by
    simp [requeued, not_le.mpr h]
  have hexhausted : exhausted job (lease :: rest) = lease :: rest := by
    simp [exhausted, not_le.mpr h]
  simp [recover, fail, hrequeued, hexhausted, endStatus]

theorem openKinds_requeue (h : lease.message.attemptNumber ≤ job.maxRetries) :
    openKinds job (lease :: rest) = .requeue :: openKinds (job.withStatus .queued) rest := by
  have hrequeued : requeued job (lease :: rest) = lease :: requeued job rest := by
    simp [requeued, h]
  have hexhausted : exhausted job (lease :: rest) = exhausted job rest := by
    simp [exhausted, h]
  unfold openKinds
  rw [hrequeued, hexhausted]
  rfl

theorem openKinds_fail (h : job.maxRetries < lease.message.attemptNumber) :
    openKinds job (lease :: rest) = .dlq :: rest.map fun _ => .ackTerminal := by
  simp [openKinds, requeued, exhausted, not_le.mpr h]

end Cons

/-- The leases of an open job one after another, each seeing what the ones before it did. -/
theorem BatchRecovered.opened (h : BatchRecovered recoveryWorkerId g leases g' kinds)
    (hg : g.db.Consistent) {job : JobRecord} (hjob : g.db.loadJob j = some job)
    (hopen : job.status.terminal = false) :
    view g' j =
        (view g j).recover recoveryWorkerId job (leases.filter fun l => l.message.jobId = j) ∧
      kindsOf leases kinds j = openKinds job (leases.filter fun l => l.message.jobId = j) := by
  induction h generalizing job with
  | nil =>
    have hnone := finalization_of_open hg hjob hopen
    exact ⟨(JobView.recover_nil job _ hjob hnone).symm, rfl⟩
  | @cons g g₁ g₂ lease rest kind kinds hfirst hrest ih =>
    obtain ⟨hother, hown⟩ := hfirst.view_eq hg
    have hnext := hfirst.consistent hg
    rw [kindsOf_cons, List.filter_cons]
    by_cases hj : lease.message.jobId = j
    · subst hj
      simp only [hjob, hopen, Bool.false_eq_true, if_false] at hown
      simp only [decide_true, if_true, List.cons_append, List.nil_append]
      by_cases hretries : lease.message.attemptNumber ≤ job.maxRetries
      · rw [if_pos hretries] at hown
        have hqueued : g₁.db.loadJob lease.message.jobId = some (job.withStatus .queued) :=
          congrArg (fun v => v.history.row) hown.2
        obtain ⟨hview, hkinds⟩ := ih hnext hqueued rfl
        refine ⟨?_, ?_⟩
        · rw [hview, hown.2, JobView.recover_requeue _ _ _ _ hretries]
        · rw [hkinds, hown.1, openKinds_requeue _ _ _ hretries]
      · rw [if_neg hretries] at hown
        have hretries := not_le.mp hretries
        have hfailed : g₁.db.loadJob lease.message.jobId = some (job.withStatus .failed) :=
          congrArg (fun v => v.history.row) hown.2
        obtain ⟨hview, hkinds⟩ := hrest.closed (j := lease.message.jobId) hnext
          (k := .ackTerminal) (by rw [hfailed]; exact ⟨rfl, rfl⟩)
        refine ⟨?_, ?_⟩
        · rw [hview, hown.2, JobView.recover_fail _ _ _ _ hretries]
        · rw [hkinds, hown.1, openKinds_fail _ _ _ hretries]
    · have hload : g₁.db.loadJob j = g.db.loadJob j :=
        congrArg (fun v => v.history.row) (hother j hj)
      obtain ⟨hview, hkinds⟩ := ih hnext (hload.trans hjob) hopen
      rw [hview, hkinds, hother j hj]
      simp [hj]

theorem LeaseRecovered.rowLocks_eq (h : LeaseRecovered recoveryWorkerId g lease g' kind) :
    g'.rowLocks = g.rowLocks := by
  cases h <;> exact Grid.rowLocks_acknowledge _ _

theorem LeaseRecovered.pending_eq (h : LeaseRecovered recoveryWorkerId g lease g' kind) :
    g'.queue.jobs.pending =
      g.queue.jobs.pending.filter fun p => lease.message.entryId ≠ some p.entryId := by
  cases h <;> exact Grid.pending_acknowledge _ _

theorem LeaseRecovered.files_eq (h : LeaseRecovered recoveryWorkerId g lease g' kind) :
    g'.files = g.files := by
  cases h <;> exact Grid.files_acknowledge _ _

theorem BatchRecovered.pending_eq (h : BatchRecovered recoveryWorkerId g leases g' kinds) :
    g'.queue.jobs.pending = g.queue.jobs.pending.filter fun p =>
      ∀ l ∈ leases, l.message.entryId ≠ some p.entryId := by
  induction h with
  | nil => simp
  | cons hfirst _ ih =>
    rw [ih, hfirst.pending_eq, List.filter_filter]
    simp [Bool.and_comm]

theorem BatchRecovered.files_eq (h : BatchRecovered recoveryWorkerId g leases g' kinds) :
    g'.files = g.files := by
  induction h with
  | nil => rfl
  | cons hfirst _ ih => exact ih.trans hfirst.files_eq

theorem BatchRecovered.length_eq (h : BatchRecovered recoveryWorkerId g leases g' kinds) :
    kinds.length = leases.length := by
  induction h with
  | nil => rfl
  | cons _ _ ih => simp [ih]

variable (recoveryWorkerId leases) in
/-- A call with no row locked gets through all its leases. -/
theorem exists_batchRecovered (g : Grid) (hlocks : g.rowLocks = [])
    (result : StaleLeaseRecoveryResult) :
    ∃ g' kinds, BatchRecovered recoveryWorkerId g leases g' kinds ∧
      Steps recoveryWorkerId (g, .planning leases result)
        (g', .returned (kinds.foldl StaleLeaseRecoveryResult.count result)) := by
  induction leases generalizing g result with
  | nil => exact ⟨g, [], .nil, .single rfl⟩
  | cons lease rest ih =>
    obtain ⟨g₁, kind, hfirst⟩ := exists_leaseRecovered recoveryWorkerId g lease
    obtain ⟨g', kinds, hrest, hsteps⟩ :=
      ih g₁ (hfirst.rowLocks_eq.trans hlocks) (result.count kind)
    exact ⟨g', kind :: kinds, .cons hfirst hrest,
      (steps_of_lease hfirst hlocks rest result).trans hsteps⟩

/-- The call is deterministic, so any part of it can be continued to where it returns. -/
theorem Steps.continues {x y z : Grid × RecoveryState} (hxz : Steps recoveryWorkerId x z)
    (hend : advance recoveryWorkerId z.1 z.2 = none) (hxy : Steps recoveryWorkerId x y) :
    Steps recoveryWorkerId y z := by
  have hunique : Relator.RightUnique fun x y : Grid × RecoveryState =>
      advance recoveryWorkerId x.1 x.2 = some y := by
    intro a b c hb hc
    exact Option.some.inj (hb.symm.trans hc)
  rcases Relation.ReflTransGen.total_of_right_unique hunique hxy hxz with h | h
  · exact h
  · rcases Relation.ReflTransGen.cases_head h with rfl | ⟨w, hw, -⟩
    · exact .refl
    · rw [hend] at hw
      cases hw

/-- Each action is counted once, under its own kind. -/
theorem foldl_count (result : StaleLeaseRecoveryResult) (kinds : List RecoveryKind) :
    kinds.foldl StaleLeaseRecoveryResult.count result = {
      detectedCount := result.detectedCount
      requeuedCount := result.requeuedCount + kinds.count .requeue
      dlqCount := result.dlqCount + kinds.count .dlq
      acknowledgedTerminalCount := result.acknowledgedTerminalCount + kinds.count .ackTerminal
      acknowledgedMissingCount := result.acknowledgedMissingCount + kinds.count .ackMissing } := by
  induction kinds generalizing result with
  | nil => rfl
  | cons kind kinds ih =>
    rw [List.foldl_cons, ih]
    cases kind <;> simp [StaleLeaseRecoveryResult.count, Nat.add_assoc, Nat.add_comm 1]

theorem sum_count (kinds : List RecoveryKind) :
    kinds.count .requeue + kinds.count .dlq + kinds.count .ackTerminal +
      kinds.count .ackMissing = kinds.length := by
  induction kinds with
  | nil => rfl
  | cons kind kinds ih =>
    cases kind <;> simp only [List.count_cons, List.length_cons] <;> simp <;> omega

/-- What one call does: every lease found is acknowledged and counted once; a job that is missing
or has ended keeps its rows and messages; each other job gets, in the order of its leases, an
event and a message for each lease before the first without an attempt, and that one fails it. -/
theorem recover_stale_leases_effect (recoveryWorkerId : String) (g : Grid)
    (hconsistent : g.db.Consistent) (halone : g.rowLocks = []) (idle : EntryId → ℕ)
    (staleAfterMs count : ℕ) :
    ∃ g' kinds result,
      Steps recoveryWorkerId (g, find g idle staleAfterMs count) (g', .returned result) ∧
      (∀ x, Steps recoveryWorkerId (g, find g idle staleAfterMs count) x →
        Steps recoveryWorkerId x (g', .returned result)) ∧
      g'.queue.jobs.pending = (g.queue.jobs.pending.filter fun p =>
        ∀ l ∈ g.queue.findStaleLeases idle staleAfterMs count,
          l.message.entryId ≠ some p.entryId) ∧
      result.detectedCount = (g.queue.findStaleLeases idle staleAfterMs count).length ∧
      result.requeuedCount + result.dlqCount + result.acknowledgedTerminalCount +
        result.acknowledgedMissingCount = result.detectedCount ∧
      g'.files = g.files ∧
      ∀ j,
        let leases := (g.queue.findStaleLeases idle staleAfterMs count).filter fun l =>
          l.message.jobId = j
        let actions := kindsOf (g.queue.findStaleLeases idle staleAfterMs count) kinds j
        match g.db.loadJob j with
        | none => view g' j = view g j ∧ actions = leases.map fun _ => .ackMissing
        | some job =>
          if job.status.terminal then
            view g' j = view g j ∧ actions = leases.map fun _ => .ackTerminal
          else view g' j = (view g j).recover recoveryWorkerId job leases ∧
            actions = openKinds job leases := by
  obtain ⟨g', kinds, hbatch, hsteps⟩ := exists_batchRecovered recoveryWorkerId
    (g.queue.findStaleLeases idle staleAfterMs count) g halone
    (.start (g.queue.findStaleLeases idle staleAfterMs count).length)
  have hcounts := foldl_count
    (.start (g.queue.findStaleLeases idle staleAfterMs count).length) kinds
  have hsum := sum_count kinds
  have hlength := hbatch.length_eq
  refine ⟨g', kinds, _, hsteps, fun x hx => hsteps.continues rfl hx, hbatch.pending_eq, ?_, ?_,
    hbatch.files_eq, fun j => ?_⟩
  · rw [hcounts]
    rfl
  · rw [hcounts]
    simp only [StaleLeaseRecoveryResult.start]
    omega
  · dsimp only
    split
    next hjob => exact hbatch.closed hconsistent (by rw [hjob])
    next job hjob =>
      split
      next hterminal =>
        exact hbatch.closed hconsistent (by rw [hjob]; exact ⟨hterminal, rfl⟩)
      next hopen => exact hbatch.opened hconsistent hjob (by simpa using hopen)

def mixedJob : JobRecord where
  id := 1
  runId := 2
  jobType := "stub"
  payload := ⟨[], jsonbStorable_nil⟩
  payloadHash := ""
  idempotencyKey := "key"
  status := .running
  timeoutSeconds := 30
  maxRetries := 1
  traceId := "trace"
  budgetCents := none

/-- Three crashed workers hold attempts 1, 2 and 1 of a job with one retry. -/
def mixedGrid : Grid :=
  let queue := [1, 2, 1].foldl (fun q n => q.publishJob (mixedJob.message n) none) .empty
  let leased := ["worker-1", "worker-2", "worker-3"].foldl
    (fun q c => ((q.leaseJobs c).map Prod.snd).getD q) queue
  { Grid.empty with
    db := { Database.empty with jobs := (KeyedTable.empty.insert mixedJob).getD .empty }
    queue := leased }

theorem recover_stale_leases_effect_mixed : ∃ g' result,
    Steps "recovery" (mixedGrid, find mixedGrid (fun _ => 60000) 30000 100)
      (g', .returned result) ∧
    g'.queue.jobs.pending = [] ∧ result.detectedCount = 3 ∧
    (view g' 1).history.events.map JobEvent.eventType = [.staleLeaseRecovered, .failed] ∧
    (view g' 1).messages.map (fun e => e.message.attemptNumber) = [1, 2, 1, 2] ∧
    (view g' 1).deadLetters.map DeadLetterMessage.attemptNumber = [2] := by
  obtain ⟨g', kinds, result, hsteps, -, hpending, hdetected, -, -, hjobs⟩ :=
    recover_stale_leases_effect "recovery" mixedGrid (by decide) rfl (fun _ => 60000) 30000 100
  have hview : view g' 1 = (view mixedGrid 1).recover "recovery" mixedJob
      (mixedGrid.queue.findStaleLeases (fun _ => 60000) 30000 100) := (hjobs 1).1
  refine ⟨g', result, hsteps, hpending.trans (by decide), hdetected.trans (by decide), ?_⟩
  rw [hview]
  decide

end Recovery
end AgentRuntimeGrid
