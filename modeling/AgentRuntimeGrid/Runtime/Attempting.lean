import AgentRuntimeGrid.Runtime.Drain

/-! One attempt of one job in the drain loop: what the worker that holds its message knows, and
everything its next step can do. -/
namespace AgentRuntimeGrid

/-- The job has been retried `k` times and, when `started`, its next attempt is running. -/
structure Attempting (p : Pool) (job : JobRecord) (k : ℕ) (started : Bool) (h : JobHistory) :
    Prop where
  row : ∃ row, h.row = some row ∧ job.SameJob row ∧ row.status.terminal = false
  log : h.events.map JobEvent.logEntry =
    retriesLog k ++ if started then [attemptEntry .running k] else []
  unfinalized : h.finalization = none
  conflicts : h.conflicts = []
  le : k ≤ p.retryLimit job
  transient : ∀ i < k, (p.outcome job.id (i + 1)).isTransient = true

/-- The job is terminal and its log is the one the outcomes determine. -/
structure Drained (p : Pool) (job : JobRecord) (h : JobHistory) : Prop where
  terminal : ∃ row, h.row = some row ∧ row.status.terminal = true
  log : h.events.map JobEvent.logEntry = p.drainedLog job
  conflicts : h.conflicts = []

variable {p : Pool} {job row : JobRecord} {k : ℕ} {e : EntryId} {db db' : Database}

namespace Attempting

private theorem write {started : Bool} {status : JobStatus} {eventType : EventType}
    {eventData : EventData} (h : Attempting p job k started (db.history job.id))
    (hsame : job.SameJob row)
    (hdb : db.recordStateEvent row status eventType eventData = some db') :
    (∃ row, (db'.history job.id).row = some row ∧ job.SameJob row ∧ row.status = status) ∧
    (db'.history job.id).events.map JobEvent.logEntry = (retriesLog k ++
      if started then [attemptEntry .running k] else []) ++ [(eventType, eventData.attemptNumber)] ∧
    (db'.history job.id).finalization = none ∧ (db'.history job.id).conflicts = [] := by
  obtain ⟨row₀, hrow₀, hsame₀, -⟩ := h.row
  have hid := hsame.id_eq
  rw [Database.history_recordStateEvent (hid ▸ hrow₀) hdb, if_pos hid]
  refine ⟨⟨_, rfl, hsame₀.withStatus status, rfl⟩, ?_, h.unfinalized, h.conflicts⟩
  rw [List.map_append, h.log]
  rfl

theorem start (h : Attempting p job k false (db.history job.id)) (hsame : job.SameJob row)
    {workerId : String} (hdb : db.recordRunning row workerId (k + 1) = some db') :
    Attempting p job k true (db'.history job.id) := by
  obtain ⟨⟨row', hrow', hsame', hstatus⟩, hlog, hfin, hconflicts⟩ := h.write hsame hdb
  refine ⟨⟨row', hrow', hsame', by rw [hstatus]; rfl⟩, ?_, hfin, hconflicts, h.le, h.transient⟩
  rw [hlog, if_neg Bool.false_ne_true, List.append_nil]
  rfl

theorem retry (h : Attempting p job k true (db.history job.id)) (hsame : job.SameJob row)
    (hlt : k < p.retryLimit job) (htransient : (p.outcome job.id (k + 1)).isTransient = true)
    {workerId c : String} {next : ℤ}
    (hdb : db.recordRetryScheduled row workerId (k + 1) next c = some db') :
    Attempting p job (k + 1) false (db'.history job.id) := by
  obtain ⟨⟨row', hrow', hsame', hstatus⟩, hlog, hfin, hconflicts⟩ := h.write hsame hdb
  refine ⟨⟨row', hrow', hsame', by rw [hstatus]; rfl⟩, ?_, hfin, hconflicts, hlt, ?_⟩
  · rw [hlog, if_neg Bool.false_ne_true, List.append_nil, if_pos rfl, List.append_assoc]
    rfl
  · intro i hi
    rcases Nat.lt_succ_iff_lt_or_eq.mp hi with hi | rfl
    · exact h.transient i hi
    · exact htransient

theorem finish (h : Attempting p job k true (db.history job.id)) (hsame : job.SameJob row)
    (hlast : k = p.retryLimit job ∨ (p.outcome job.id (k + 1)).isTransient = false)
    {eventType : EventType} {eventData : EventData} {r : FinalizationResult}
    (htype : eventType = p.verdict job k) (hattempt : eventData.attemptNumber = some (k + 1 : ℤ))
    (hdb : db.finalizeJob row eventType.status eventType eventData = some (r, db')) :
    Drained p job (db'.history job.id) := by
  obtain ⟨row₀, hrow₀, -, -⟩ := h.row
  have hid := hsame.id_eq
  have hterminal := (Database.finalizeJob_cases hdb).1
  rw [Database.history_finalizeJob (hid ▸ hrow₀) (hid ▸ h.unfinalized) hdb, if_pos hid]
  refine ⟨⟨_, rfl, hterminal⟩, ?_, h.conflicts⟩
  rw [List.map_append, h.log, if_pos rfl, Pool.drainedLog,
    p.retries_eq h.le h.transient hlast, ← htype, List.append_assoc]
  change _ ++ ([_] ++ [(eventType, eventData.attemptNumber)]) = _
  rw [hattempt]
  rfl

end Attempting

/-- The message of the attempt after `k` retries, as it is leased under entry `e`. -/
def JobRecord.leased (job : JobRecord) (k : ℕ) (e : EntryId) : QueueJobMessage :=
  { job.message (k + 1) with entryId := some e }

/-- The worker state is one in which the attempt after `k` retries of the job is in hand. -/
inductive Holding (p : Pool) (db : Database) (job : JobRecord) (k : ℕ) (e : EntryId) :
    WorkerState → Prop
  | leased (h : Attempting p job k false (db.history job.id)) :
      Holding p db job k e (.leased (job.leased k e))
  | executing {row : JobRecord} (hrow : job.SameJob row)
      (h : Attempting p job k true (db.history job.id)) :
      Holding p db job k e (.executing (job.leased k e) row)
  | handling {row : JobRecord} {error : HandledError} (hrow : job.SameJob row)
      (herror : (p.outcome job.id (k + 1)).error = some error)
      (h : Attempting p job k true (db.history job.id)) :
      Holding p db job k e (.handling (job.leased k e) row error)
  | writingArtifact {row : JobRecord} {result : Dict} (hrow : job.SameJob row)
      (hresult : p.outcome job.id (k + 1) = .success result)
      (h : Attempting p job k true (db.history job.id)) :
      Holding p db job k e (.writingArtifact (job.leased k e) row result)
  | crossLinking {row : JobRecord} {result d : Dict} {metadata : ArtifactMetadata}
      {path : PyStr} (hrow : job.SameJob row)
      (hresult : p.outcome job.id (k + 1) = .success result)
      (hpayload : artifactPayload result = .ok (some d))
      (hpath : evalResultPathText p.env d = some path)
      (h : Attempting p job k true (db.history job.id)) :
      Holding p db job k e (.crossLinking (job.leased k e) row result metadata path)
  | completing {row : JobRecord} {result : JobResult} (hrow : job.SameJob row)
      (hresult : p.outcome job.id (k + 1) = .success result.fields)
      (h : Attempting p job k true (db.history job.id)) :
      Holding p db job k e (.completing (job.leased k e) row result)
  | retryPublish {row : JobRecord} (hrow : job.SameJob row)
      (h : Attempting p job (k + 1) false (db.history job.id)) :
      Holding p db job k e (.retryPublish (job.leased k e) row (k + 1 + 1))

/-- How many steps the worker is at most away from the end of its call. -/
def WorkerState.rank : WorkerState → ℕ
  | .leased _ => 6
  | .executing _ _ => 5
  | .writingArtifact _ _ _ => 4
  | .handling _ _ _ | .crossLinking _ _ _ _ _ => 3
  | .completing _ _ _ | .retryPublish _ _ _ => 2
  | .acknowledging _ => 1
  | _ => 0

private theorem one_lt_rank_handling {m : QueueJobMessage} {error : HandledError} :
    1 < (WorkerState.handling m row error).rank := by
  change 1 < 3
  decide

private theorem one_lt_rank_completing {m : QueueJobMessage} {result : JobResult} :
    1 < (WorkerState.completing m row result).rank := by
  change 1 < 2
  decide

/-- What a step of a worker that holds an attempt does, besides publishing its retry: go on with
the attempt or end the job. -/
inductive Handled (p : Pool) (job : JobRecord) (k : ℕ) (e : EntryId) (st : WorkerState)
    (db : Database) : WorkerState → Prop
  | goesOn {st' : WorkerState} (hold : Holding p db job k e st') (hrank : st'.rank < st.rank) :
      Handled p job k e st db st'
  | ends (hdrained : Drained p job (db.history job.id)) (hrank : 1 < st.rank) :
      Handled p job k e st db (.acknowledging (job.leased k e))

/-- The step changes the history of one job only, leaves the stream and the locks alone, and keeps
the files readable that artifacts link to. -/
structure Confined (p : Pool) (j : JobId) (g g' : Grid) : Prop where
  queue : g'.queue = g.queue
  locks : g'.rowLocks = g.rowLocks
  history : ∀ j', j' ≠ j → g'.db.history j' = g.db.history j'
  files : (∀ ref bytes, p.Linked ref → g.files ref = some bytes → Readable p.env bytes) →
    ∀ ref bytes, p.Linked ref → g'.files ref = some bytes → Readable p.env bytes

theorem Pool.verdict_terminal (p : Pool) (job : JobRecord) (k : ℕ) :
    (p.verdict job k).status.terminal = true := by
  unfold Pool.verdict
  split
  · rfl
  · split <;> rfl
  · rfl
  · rfl

section Steps
variable {w : Worker} {g : Grid} {st : WorkerState} {raised : WorkerState}

private theorem confined_db {db' : Database}
    (h : ∀ j', j' ≠ job.id → db'.history j' = g.db.history j') :
    Confined p job.id g { g with db := db' } := ⟨rfl, rfl, h, fun hfiles => hfiles⟩

/-- A lifecycle write of the job in hand commits. -/
private theorem goesOn_of_record {next : WorkerState} {status : JobStatus} {eventType : EventType}
    {eventData : EventData} {started : Bool} (h : Attempting p job k started (g.db.history job.id))
    (hsame : job.SameJob row) (hrank : next.rank < st.rank)
    (hnext : ∀ db', g.db.recordStateEvent row status eventType eventData = some db' →
      Holding p db' job k e next) :
    ∃ g' st', g.commit (g.db.recordStateEvent row status eventType eventData) raised next =
      (g', st') ∧ Handled p job k e st g'.db st' ∧ Confined p job.id g g' := by
  obtain ⟨row₀, hrow₀, -, -⟩ := h.row
  have hrow : g.db.jobs.get? row.id = some row₀ := hsame.id_eq ▸ hrow₀
  obtain ⟨db', hdb⟩ := Database.recordStateEvent_isSome status eventType eventData hrow
  refine ⟨{ g with db := db' }, next, by rw [hdb]; rfl, .goesOn (hnext db' hdb) hrank, ?_⟩
  refine confined_db fun j' hj' => ?_
  rw [Database.history_recordStateEvent hrow hdb, hsame.id_eq, if_neg hj'.symm]

/-- So does its terminal write. -/
private theorem ends_of_finalize {eventType : EventType} {eventData : EventData}
    (h : Attempting p job k true (g.db.history job.id)) (hsame : job.SameJob row)
    (hrank : 1 < st.rank)
    (hlast : k = p.retryLimit job ∨ (p.outcome job.id (k + 1)).isTransient = false)
    (htype : eventType = p.verdict job k) (hattempt : eventData.attemptNumber = some (k + 1 : ℤ)) :
    ∃ g' st', g.commit ((g.db.finalizeJob row eventType.status eventType eventData).map Prod.snd)
      raised (.acknowledging (job.leased k e)) = (g', st') ∧
      Handled p job k e st g'.db st' ∧ Confined p job.id g g' := by
  obtain ⟨row₀, hrow₀, -, -⟩ := h.row
  have hrow : g.db.jobs.get? row.id = some row₀ := hsame.id_eq ▸ hrow₀
  have hnew : g.db.jobFinalizations.get? row.id = none := hsame.id_eq ▸ h.unfinalized
  obtain ⟨r, db', hdb⟩ := Database.finalizeJob_isSome eventType eventData
    (htype ▸ p.verdict_terminal job k) hrow
  refine ⟨{ g with db := db' }, _, by rw [hdb]; rfl,
    .ends (h.finish hsame hlast htype hattempt hdb) hrank, ?_⟩
  refine confined_db fun j' hj' => ?_
  rw [Database.history_finalizeJob hrow hnew hdb, hsame.id_eq, if_neg hj'.symm]

private theorem dispatch_handled (h : Attempting p job k false (g.db.history job.id))
    (hlocks : g.rowLocks = [])
    (hdispatch : w.budgetPolicy.validateJobDispatch job = .ok ()) :
    ∃ g' st', w.dispatch g (job.leased k e) = some (g', st') ∧
      Handled p job k e (.leased (job.leased k e)) g'.db st' ∧ Confined p job.id g g' := by
  obtain ⟨row, hrow, hsame, hopen⟩ := h.row
  have hload : g.db.loadJob (job.leased k e).jobId = some row := hrow
  have hlocked : g.rowLocked (job.leased k e).jobId = false := by
    simp [Grid.rowLocked, hlocks]
  have hbudget : w.budgetPolicy.validateJobDispatch row = .ok () := by
    rw [hsame]
    exact hdispatch
  have hrank : (WorkerState.executing (job.leased k e) row).rank <
      (WorkerState.leased (job.leased k e)).rank := Nat.lt_succ_self 5
  obtain ⟨g', st', hcommit, hhandled⟩ : ∃ g' st', g.commit
      (g.db.recordStateEvent row .running .running (.running w.workerId (k + 1)))
      (.raised "IntegrityError")
      (.executing (job.leased k e) row) = (g', st') ∧
      Handled p job k e (.leased (job.leased k e)) g'.db st' ∧ Confined p job.id g g' :=
    goesOn_of_record h hsame hrank fun db' hdb => .executing hsame (h.start hsame hdb)
  refine ⟨g', st', ?_, hhandled⟩
  unfold Worker.dispatch
  simp only [hlocked, hload, hopen, hbudget, Bool.false_eq_true, if_false]
  exact congrArg some hcommit

/-- The retry gate lets a transient attempt below the limit pass, and the verdict says which of the
two limits ends the job at the limit. -/
private theorem handleTransient_handled {c : String} (hpolicy : w.budgetPolicy = p.budgetPolicy)
    (hsame : job.SameJob row) (herror : p.outcome job.id (k + 1) = .transientError c)
    (h : Attempting p job k true (g.db.history job.id)) :
    ∃ g' st', w.handleTransientError g (job.leased k e) row c = (g', st') ∧
      Handled p job k e (.handling (job.leased k e) row (.transient c)) g'.db st' ∧
      Confined p job.id g g' := by
  have hretries := hsame.maxRetries_eq
  have htransient : (p.outcome job.id (k + 1)).isTransient = true := by rw [herror]; rfl
  have hlimit := h.le
  unfold Pool.retryLimit at hlimit
  unfold Worker.handleTransientError
  change ∃ g' st', (if (k + 1 : ℤ) ≤ row.maxRetries then _ else _) = (g', st') ∧ _
  rw [hretries]
  by_cases hle : (k + 1 : ℤ) ≤ job.maxRetries
  · rw [if_pos hle, hpolicy]
    by_cases hbudget : (k + 1 : ℤ) ≤ p.budgetPolicy.retryBudget
    · have hok : p.budgetPolicy.validateRetry ((job.leased k e).attemptNumber + 1) = .ok () :=
        BudgetPolicy.validateRetry_ok_iff.mpr (by change (k + 1 + 1 - 1 : ℤ) ≤ _; omega)
      have hlt : k < p.retryLimit job := by
        unfold Pool.retryLimit
        omega
      simp only [hok]
      exact goesOn_of_record h hsame (Nat.lt_succ_self 2)
        fun db' hdb => .retryPublish hsame (h.retry hsame hlt htransient hdb)
    · have hblocked : p.budgetPolicy.validateRetry ((job.leased k e).attemptNumber + 1) =
          .error ⟨"BudgetExceededError", "retry_budget_overrun", 0, 0⟩ :=
        if_pos (by change p.budgetPolicy.retryBudget < (k + 1 + 1 - 1 : ℤ); omega)
      have hverdict : EventType.budgetBlocked = p.verdict job k := by
        simp only [Pool.verdict, herror, if_pos hle]
      have hlast : k = p.retryLimit job := by
        unfold Pool.retryLimit
        omega
      simp only [hblocked]
      exact ends_of_finalize h hsame one_lt_rank_handling (.inl hlast) hverdict rfl
  · have hverdict : EventType.failed = p.verdict job k := by
      simp only [Pool.verdict, herror, if_neg hle]
    have hlast : k = p.retryLimit job := by
      unfold Pool.retryLimit
      omega
    rw [if_neg hle]
    exact ends_of_finalize h hsame one_lt_rank_handling (.inl hlast) hverdict rfl

private theorem handle_handled {error : HandledError} (hpolicy : w.budgetPolicy = p.budgetPolicy)
    (hsame : job.SameJob row) (herror : (p.outcome job.id (k + 1)).error = some error)
    (h : Attempting p job k true (g.db.history job.id)) :
    ∃ g' st', w.handle g (job.leased k e) row error = (g', st') ∧
      Handled p job k e (.handling (job.leased k e) row error) g'.db st' ∧
      Confined p job.id g g' := by
  cases ho : p.outcome job.id (k + 1) with
  | success result =>
    rw [ho] at herror
    cases herror
  | transientError c =>
    rw [ho] at herror
    cases herror
    exact handleTransient_handled hpolicy hsame ho h
  | policyError c =>
    rw [ho] at herror
    cases herror
    have hverdict : EventType.failed = p.verdict job k := by simp only [Pool.verdict, ho]
    exact ends_of_finalize h hsame one_lt_rank_handling (.inr (by rw [ho]; rfl)) hverdict rfl
  | timedOut =>
    rw [ho] at herror
    cases herror
    have hverdict : EventType.timedOut = p.verdict job k := by simp only [Pool.verdict, ho]
    exact ends_of_finalize h hsame one_lt_rank_handling (.inr (by rw [ho]; rfl)) hverdict rfl

private theorem complete_handled {result : JobResult}
    (hstorable : jsonbStorable (.obj result.fields) = true) (hsame : job.SameJob row)
    (hresult : p.outcome job.id (k + 1) = .success result.fields)
    (h : Attempting p job k true (g.db.history job.id)) :
    ∃ g' st', w.complete g (job.leased k e) row result = (g', st') ∧
      Handled p job k e (.completing (job.leased k e) row result) g'.db st' ∧
      Confined p job.id g g' := by
  have hverdict : EventType.completed = p.verdict job k := by simp only [Pool.verdict, hresult]
  unfold Worker.complete
  rw [if_pos hstorable]
  exact ends_of_finalize h hsame one_lt_rank_completing (.inr (by rw [hresult]; rfl)) hverdict rfl

theorem Grid.file_of_writeFiles {g : Grid} {writes : List (FileRef × PyBytes)} {ref : FileRef}
    {bytes : PyBytes} (h : (g.writeFiles writes).files ref = some bytes) :
    g.files ref = some bytes ∨ (ref, bytes) ∈ writes := by
  change (writes.foldl (fun fs w => fs.write w.1 w.2) g.files) ref = some bytes at h
  generalize g.files = files at h ⊢
  induction writes generalizing files with
  | nil => exact .inl h
  | cons w ws ih =>
    rcases ih (files.write w.1 w.2) h with hold | hmem
    · by_cases hw : ref = w.1
      · subst hw
        rw [FileStore.write_self] at hold
        obtain rfl := Option.some.inj hold
        exact .inr List.mem_cons_self
      · rw [FileStore.write_of_ne _ _ hw] at hold
        exact .inl hold
    · exact .inr (List.mem_cons_of_mem _ hmem)

private theorem confined_writeFiles {writes : List (FileRef × PyBytes)}
    (h : ∀ ref bytes, p.Linked ref → (ref, bytes) ∈ writes → Readable p.env bytes) :
    Confined p job.id g (g.writeFiles writes) := by
  refine ⟨rfl, rfl, fun _ _ => rfl, fun hfiles ref bytes hlinked hbytes => ?_⟩
  rcases Grid.file_of_writeFiles hbytes with hold | hnew
  · exact hfiles ref bytes hlinked hold
  · exact h ref bytes hlinked hnew

private theorem writeArtifact_handled (now : String) {result : Dict} {files : FileStore}
    (hrecords : p.Records files) (hsame : job.SameJob row)
    (hresult : p.outcome job.id (k + 1) = .success result)
    (h : Attempting p job k true (g.db.history job.id)) :
    ∃ g' st', w.writeArtifact g p.env now (job.leased k e) row result = (g', st') ∧
      Handled p job k e (.writingArtifact (job.leased k e) row result) g'.db st' ∧
      Confined p job.id g g' := by
  obtain ⟨payload, hpayload⟩ := hrecords.payload _ _ _ hresult
  obtain ⟨metadata, bytes, henc, hpath, hreadable⟩ := encodeStubJobArtifact_eq_ok p.env row
    w.workerId (job.leased k e).attemptNumber now hpayload
  have hwritten : Confined p job.id g (g.writeFiles [(metadata.path, bytes)]) := by
    refine confined_writeFiles fun ref bytes' _ hmem => ?_
    obtain ⟨-, rfl⟩ := Prod.mk.inj (List.mem_singleton.mp hmem)
    exact hreadable
  unfold Worker.writeArtifact
  simp only [henc]
  cases hlink : metadata.evalResultPath with
  | none =>
    exact ⟨_, _, rfl, .goesOn (.completing hsame hresult h) (show 2 < 4 by decide), hwritten⟩
  | some path =>
    rw [hlink] at hpath
    obtain ⟨d, rfl, hd⟩ := Option.bind_eq_some_iff.mp hpath.symm
    exact ⟨_, _, rfl, .goesOn (.crossLinking hsame hresult hpayload hd h) (show 3 < 4 by decide),
      hwritten⟩

private theorem crossLink_handled {result d : Dict} {metadata : ArtifactMetadata} {path : PyStr}
    (hfiles : ∀ ref bytes, p.Linked ref → g.files ref = some bytes → Readable p.env bytes)
    (hsame : job.SameJob row) (hresult : p.outcome job.id (k + 1) = .success result)
    (hpayload : artifactPayload result = .ok (some d))
    (hpath : evalResultPathText p.env d = some path)
    (h : Attempting p job k true (g.db.history job.id)) :
    ∃ g' st', Worker.crossLink g p.env (job.leased k e) row result metadata path = (g', st') ∧
      Handled p job k e (.crossLinking (job.leased k e) row result metadata path) g'.db st' ∧
      Confined p job.id g g' := by
  have hlinked : p.Linked (p.env.resolve path) := ⟨_, _, _, _, _, hresult, hpayload, hpath, rfl⟩
  obtain ⟨bytes, hok, hreadable⟩ := upsertEvalResultCrossLink_eq_ok metadata
    (((artifactPayload result).toOption.bind id).getD []) fun bytes => hfiles _ bytes hlinked
  refine ⟨g.writeFiles [(p.env.resolve path, bytes)],
    .completing (job.leased k e) row ⟨result, some metadata⟩, ?_,
    .goesOn (.completing hsame hresult h) (show 2 < 3 by decide), ?_⟩
  · unfold Worker.crossLink
    simp only [hok]
  · refine confined_writeFiles fun ref bytes' _ hmem => ?_
    obtain ⟨-, rfl⟩ := Prod.mk.inj (List.mem_singleton.mp hmem)
    exact hreadable

private theorem run_handled {files : FileStore} (hrecords : p.Records files)
    (hsame : job.SameJob row) (h : Attempting p job k true (g.db.history job.id)) :
    Handled p job k e (.executing (job.leased k e) row)
        (g.writeFiles (p.writes row.id (job.leased k e).attemptNumber)).db
        (w.afterRun (job.leased k e) row (p.outcome row.id (job.leased k e).attemptNumber).toRun) ∧
      Confined p job.id g (g.writeFiles (p.writes row.id (job.leased k e).attemptNumber)) := by
  refine ⟨?_, confined_writeFiles fun ref bytes => hrecords.writes _ _ ref bytes⟩
  rw [hsame.id_eq]
  change Handled p job k e _ g.db (w.afterRun _ row (p.outcome job.id (k + 1)).toRun)
  cases ho : p.outcome job.id (k + 1) with
  | success result =>
    change Handled p job k e _ g.db (if w.hasArtifactStore then _ else _)
    split
    · exact .goesOn (.writingArtifact hsame ho h) (show 4 < 5 by decide)
    · exact .goesOn (.completing hsame ho h) (show 2 < 5 by decide)
  | transientError c => exact .goesOn (.handling hsame (by rw [ho]; rfl) h) (show 3 < 5 by decide)
  | policyError c => exact .goesOn (.handling hsame (by rw [ho]; rfl) h) (show 3 < 5 by decide)
  | timedOut => exact .goesOn (.handling hsame (by rw [ho]; rfl) h) (show 3 < 5 by decide)

/-- The next step of a worker that holds an attempt goes on with it, ends the job, or publishes the
next attempt. -/
theorem exists_handled (i : ℕ) (now : String) {files : FileStore} (hrecords : p.Records files)
    (hdispatch : p.budgetPolicy.validateJobDispatch job = .ok ()) (hlocks : g.rowLocks = [])
    (hfiles : ∀ ref bytes, p.Linked ref → g.files ref = some bytes → Readable p.env bytes)
    (h : Holding p g.db job k e st) :
    (∃ row, job.SameJob row ∧ st = .retryPublish (job.leased k e) row (k + 1 + 1)) ∨
    ∃ g' st', p.deployment.localStep i g (.worker st) (p.action now (.worker st)) =
        some (g', .worker st') ∧ Handled p job k e st g'.db st' ∧ Confined p job.id g g' := by
  have advanced : ∀ {r : Option (Grid × WorkerState)},
      (∃ g' st', r = some (g', st') ∧ Handled p job k e st g'.db st' ∧ Confined p job.id g g') →
      ∃ g' st', (r.map fun r => (r.1, ActorState.worker r.2)) = some (g', .worker st') ∧
        Handled p job k e st g'.db st' ∧ Confined p job.id g g' := by
    rintro r ⟨g', st', rfl, hspec⟩
    exact ⟨g', st', rfl, hspec⟩
  have unlocked : ∀ j, g.rowLocked j = false := fun j => by simp [Grid.rowLocked, hlocks]
  cases h with
  | leased h => exact .inr (advanced (dispatch_handled h hlocks hdispatch))
  | executing hrow h =>
    obtain ⟨hhandled, hconfined⟩ := run_handled (w := p.deployment.worker i) hrecords hrow h
    exact .inr ⟨_, _, rfl, hhandled, hconfined⟩
  | handling hrow herror h =>
    obtain ⟨g', st', heq, hspec⟩ := handle_handled (w := p.deployment.worker i) rfl hrow herror h
    refine .inr (advanced ⟨g', st', ?_, hspec⟩)
    simp only [Worker.advance, unlocked, Bool.false_eq_true, if_false]
    exact congrArg some heq
  | writingArtifact hrow hresult h =>
    obtain ⟨g', st', heq, hspec⟩ := writeArtifact_handled (w := p.deployment.worker i) now
      hrecords hrow hresult h
    exact .inr (advanced ⟨g', st', congrArg some heq, hspec⟩)
  | crossLinking hrow hresult hpayload hpath h =>
    obtain ⟨g', st', heq, hspec⟩ := crossLink_handled hfiles hrow hresult hpayload hpath h
    exact .inr (advanced ⟨g', st', congrArg some heq, hspec⟩)
  | completing hrow hresult h =>
    obtain ⟨g', st', heq, hspec⟩ := complete_handled (w := p.deployment.worker i)
      (hrecords.storable _ _ _ hresult) hrow hresult h
    refine .inr (advanced ⟨g', st', ?_, hspec⟩)
    simp only [Worker.advance, unlocked, Bool.false_eq_true, if_false]
    exact congrArg some heq
  | retryPublish hrow h => exact .inl ⟨_, hrow, rfl⟩

end Steps

end AgentRuntimeGrid
