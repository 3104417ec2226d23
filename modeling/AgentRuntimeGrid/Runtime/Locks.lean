import AgentRuntimeGrid.Runtime.Provenance

/-! `SELECT ... FOR UPDATE` in the dispatch transaction: a locked row is locked by one open
transaction, and nobody else writes to its job until that transaction ends. -/
namespace AgentRuntimeGrid

def ActorState.awaits : ActorState → Action → Option JobId
  | .idle, .cancelQueuedJob j => some j
  | .worker (.leased m), .advance _ => some m.jobId
  | .worker (.handling _ job _), .advance _ => some job.id
  | .worker (.completing _ job _), .advance _ => some job.id
  | .recovery (.planning (lease :: _) _), .advance _ => some lease.message.jobId
  | _, _ => none

namespace Deployment
variable {cfg : Deployment} {i : ℕ} {g g' : Grid} {l l' : ActorState} {a : Action} {j : JobId}

private theorem not_mem_of_unlocked {α : Type*} {x : Option α} {y : α}
    (h : (if g.rowLocked j then none else x) = some y) : j ∉ g.rowLocks := by
  unfold Grid.rowLocked at h
  split at h
  · cases h
  next hj => simpa using hj

/-- A step that waits for a lock is taken only once the row is free. -/
theorem not_mem_rowLocks_of_awaits (h : cfg.localStep i g l a = some (g', l'))
    (hj : l.awaits a = some j) : j ∉ g.rowLocks := by
  unfold ActorState.awaits at hj
  split at hj
  · obtain rfl := Option.some.inj hj
    obtain ⟨_, hg, -⟩ := Option.map_eq_some_iff.mp h
    exact not_mem_of_unlocked hg
  · obtain rfl := Option.some.inj hj
    obtain ⟨_, hst, -⟩ := Option.map_eq_some_iff.mp h
    exact not_mem_of_unlocked hst
  · obtain rfl := Option.some.inj hj
    obtain ⟨_, hst, -⟩ := Option.map_eq_some_iff.mp h
    exact not_mem_of_unlocked hst
  · obtain rfl := Option.some.inj hj
    obtain ⟨_, hst, -⟩ := Option.map_eq_some_iff.mp h
    exact not_mem_of_unlocked hst
  · obtain rfl := Option.some.inj hj
    obtain ⟨_, hst, -⟩ := Option.map_eq_some_iff.mp h
    exact not_mem_of_unlocked hst
  · cases hj

end Deployment

inductive LockStep (g : Grid) (l : ActorState) (g' : Grid) (l' : ActorState) : Prop where
  | same (hlocks : g'.rowLocks = g.rowLocks) (hl : l'.lockedRow = l.lockedRow)
  | acquired {j : JobId} (hfree : j ∉ g.rowLocks) (hl : l.lockedRow = none)
      (hlocks : g'.rowLocks = j :: g.rowLocks) (hl' : l'.lockedRow = some j)
  | released {j : JobId} (hl : l.lockedRow = some j) (hlocks : g'.rowLocks = g.rowLocks.erase j)
      (hl' : l'.lockedRow = none)

namespace Deployment
variable {cfg : Deployment} {i : ℕ} {g g' : Grid} {l l' : ActorState} {a : Action} {j : JobId}

private theorem lockedRow_afterRun (w : Worker) (m : QueueJobMessage) (job : JobRecord)
    (outcome : RunOutcome) : (w.afterRun m job outcome).lockedRow = none := by
  cases outcome with
  | success result =>
    change WorkerState.lockedRow (if _ then _ else _) = none
    split <;> rfl
  | _ => rfl

theorem lockStep (h : cfg.localStep i g l a = some (g', l')) : LockStep g l g' l' := by
  have hfree : ∀ j, l.awaits a = some j → j ∉ g.rowLocks := fun j =>
    not_mem_rowLocks_of_awaits h
  have ht := localStep_transition h
  clear h
  cases ht with
  | crash =>
    cases hl : l.lockedRow with
    | none =>
      refine .same ?_ hl.symm
      rw [Grid.rollback, hl]
    | some j =>
      refine .released hl ?_ rfl
      rw [Grid.rollback, hl]
      rfl
  | worker h =>
    cases h with
    | @dispatchTerminal m => exact .acquired (hfree m.jobId rfl) rfl rfl rfl
    | @dispatchBlocked m => exact .acquired (hfree m.jobId rfl) rfl rfl rfl
    | @dispatchAck m exit =>
      refine .same (Grid.rowLocks_acknowledge _ _) ?_
      cases exit <;> rfl
    | terminalReturns | blockedCommits | blockedRaises => exact .released rfl rfl rfl
    | artifactWritten _ hnext =>
      obtain rfl | ⟨p, -, rfl⟩ := hnext <;> exact .same rfl rfl
    | acknowledged => exact .same (Grid.rowLocks_acknowledge _ _) rfl
    | _ => exact .same rfl rfl
  | run => exact .same rfl (lockedRow_afterRun _ _ _ _)
  | recovery h =>
    cases h with
    | acknowledged => exact .same (Grid.rowLocks_acknowledge _ _) rfl
    | _ => exact .same rfl rfl
  | finish hl =>
    refine .same rfl ?_
    cases l with
    | idle => rfl
    | worker st =>
      cases st with
      | returned | raised => rfl
      | _ => cases hl
    | recovery st => rfl
  | _ => exact .same rfl rfl

end Deployment

namespace Database
variable {db db' : Database} {job row : JobRecord} {j : JobId}

theorem history_recordStateEvent_of_ne {status : JobStatus} {eventType : EventType}
    {eventData : EventData} (h : db.recordStateEvent job status eventType eventData = some db')
    (hj : job.id ≠ j) : db'.history j = db.history j := by
  obtain ⟨⟨row, hrow⟩, -⟩ := recordStateEvent_eq_some h
  rw [history_recordStateEvent hrow h, if_neg hj]

theorem history_finalizeJob_of_ne {status : JobStatus} {eventType : EventType}
    {eventData : EventData} {r : FinalizationResult}
    (h : db.finalizeJob job status eventType eventData = some (r, db')) (hj : job.id ≠ j) :
    db'.history j = db.history j := by
  obtain ⟨-, ⟨row, hrow⟩, ⟨f, -, rfl, rfl⟩ | ⟨fins, hfins, -, -⟩⟩ := finalizeJob_cases h
  · rw [history_noteFinalizeCall, history_appendConflict, if_neg hj, if_neg hj]
  · rw [history_finalizeJob hrow (KeyedTable.get?_of_insert_none hfins) h, if_neg hj]

theorem history_insertJob_of_ne (h : db.insertJob row = .ok db') (hj : row.id ≠ j) :
    db'.history j = db.history j := by
  obtain ⟨jobs, hjobs, rfl⟩ := insertJob_eq_ok h
  rw [history_appendEvent, if_neg (show (submittedEvent row).jobId ≠ j from hj)]
  unfold history
  rw [KeyedTable.get?_of_insert hjobs, if_neg hj]
  rfl

end Database

/-- A step writes to the job whose lock it waits for or holds, and to new jobs. -/
theorem Transition.history_eq {cfg : Deployment} {i : ℕ} {g g' : Grid} {l l' : ActorState}
    {a : Action} {j : JobId} (h : Transition cfg i g l a g' l') (hl : l.Sound g)
    (hrow : ∃ row, g.db.loadJob j = some row) (hawaits : l.awaits a ≠ some j)
    (hlocked : l.lockedRow ≠ some j) : g'.db.history j = g.db.history j := by
  cases h with
  | crash => rw [Grid.db_rollback]
  | @createJob s =>
    obtain h | ⟨row, db', hdb, -, -, h⟩ := Database.createJob_cases g.db cfg.env s
    · exact congrArg (Database.history · j) h
    · refine (congrArg (fun r => Database.history r.2 j) h).trans
        (Database.history_insertJob_of_ne hdb fun hid => ?_)
      obtain ⟨jobs, hjobs, -⟩ := Database.insertJob_eq_ok hdb
      obtain ⟨row', hrow'⟩ := hrow
      have hnone : g.db.loadJob j = none := hid ▸ KeyedTable.get?_of_insert_none hjobs
      rw [hnone] at hrow'
      cases hrow'
  | @cancelQueuedJob j' job r db hjob hdb =>
    have hid : job.id = j' := Database.id_of_loadJob hjob
    have hdb : g.db.recordCancelled job (cfg.worker i).workerId 0 "queued" = some (r, db) := hdb
    exact Database.history_finalizeJob_of_ne hdb fun h => hawaits (congrArg some (hid ▸ h))
  | worker h =>
    cases h with
    | dispatchRunning hjob _ _ hdb =>
      have hid := Database.id_of_loadJob hjob
      exact Database.history_recordStateEvent_of_ne hdb fun h => hawaits (congrArg some (hid ▸ h))
    | retryScheduled _ _ hdb =>
      exact Database.history_recordStateEvent_of_ne hdb fun h => hawaits (congrArg some h)
    | blockedCommits hdb =>
      obtain ⟨-, hid, -⟩ := hl
      exact Database.history_finalizeJob_of_ne hdb fun h => hlocked (congrArg some (hid ▸ h))
    | handled _ hdb =>
      exact Database.history_finalizeJob_of_ne hdb fun h => hawaits (congrArg some h)
    | completed hdb =>
      exact Database.history_finalizeJob_of_ne hdb fun h => hawaits (congrArg some h)
    | dispatchAck | acknowledged => rw [Grid.db_acknowledge]
    | _ => rfl
  | recovery h =>
    cases h with
    | planRequeue hjob _ _ hdb =>
      have hid := Database.id_of_loadJob hjob
      exact Database.history_recordStateEvent_of_ne hdb fun h => hawaits (congrArg some (hid ▸ h))
    | planDlq hjob _ _ hdb =>
      have hid := Database.id_of_loadJob hjob
      exact Database.history_finalizeJob_of_ne hdb fun h => hawaits (congrArg some (hid ▸ h))
    | acknowledged => rw [Grid.db_acknowledge]
    | _ => rfl
  | _ => rfl

/-- What an open dispatch transaction has read still stands. -/
def WorkerState.Reads (w : Worker) (g : Grid) : WorkerState → Prop
  | .dispatchAck m .terminal | .dispatchCommit m .terminal =>
      ∃ job, g.db.loadJob m.jobId = some job ∧ job.status.terminal = true
  | .dispatchAck m (.budgetBlocked job exc) | .dispatchCommit m (.budgetBlocked job exc) =>
      g.db.loadJob m.jobId = some job ∧ job.status.terminal = false ∧
        w.budgetPolicy.validateJobDispatch job = .error exc
  | _ => True

def ActorState.Reads (w : Worker) (g : Grid) : ActorState → Prop
  | .worker st => st.Reads w g
  | _ => True

theorem ActorState.Reads.exists_row {w : Worker} {g : Grid} {l : ActorState} {j : JobId}
    (h : l.Reads w g) (hj : l.lockedRow = some j) : ∃ row, g.db.loadJob j = some row := by
  cases l with
  | worker st =>
    cases st with
    | dispatchAck m exit | dispatchCommit m exit =>
      cases exit with
      | missing => cases hj
      | terminal =>
        obtain rfl := Option.some.inj hj
        obtain ⟨job, hjob, -⟩ := h
        exact ⟨job, hjob⟩
      | budgetBlocked job exc =>
        obtain rfl := Option.some.inj hj
        exact ⟨job, h.1⟩
    | _ => cases hj
  | _ => cases hj

/-- It does so for as long as the row of the job does not change. -/
theorem ActorState.Reads.congr {w : Worker} {g g' : Grid} {l : ActorState} (h : l.Reads w g)
    (hrow : ∀ j, l.lockedRow = some j → g'.db.loadJob j = g.db.loadJob j) : l.Reads w g' := by
  cases l with
  | worker st =>
    cases st with
    | dispatchAck m exit | dispatchCommit m exit =>
      cases exit with
      | missing => trivial
      | terminal =>
        obtain ⟨job, hjob, hterminal⟩ := h
        exact ⟨job, (hrow m.jobId rfl).trans hjob, hterminal⟩
      | budgetBlocked job exc =>
        obtain ⟨hjob, hopen, hexc⟩ := h
        exact ⟨(hrow m.jobId rfl).trans hjob, hopen, hexc⟩
    | _ => trivial
  | _ => trivial

/-- The step that opens the transaction reads the row, and the acknowledgement inside it leaves
the tables alone. -/
theorem Transition.reads {cfg : Deployment} {i : ℕ} {g g' : Grid} {l l' : ActorState}
    {a : Action} (h : Transition cfg i g l a g' l') (hl : l.Reads (cfg.worker i) g) :
    l'.Reads (cfg.worker i) g' := by
  cases h with
  | worker h =>
    cases h with
    | dispatchTerminal hjob hterminal => exact ⟨_, hjob, hterminal⟩
    | dispatchBlocked hjob hopen hexc => exact ⟨hjob, hopen, hexc⟩
    | @dispatchAck m exit =>
      have hcommit : ActorState.Reads (cfg.worker i) g (.worker (.dispatchCommit m exit)) := by
        cases exit <;> exact hl
      exact hcommit.congr fun j _ => by rw [Grid.db_acknowledge]
    | artifactWritten _ hnext => obtain rfl | ⟨p, -, rfl⟩ := hnext <;> trivial
    | _ => trivial
  | @run m job writes outcome =>
    cases outcome with
    | success result =>
      change WorkerState.Reads _ _ (if _ then _ else _)
      split <;> trivial
    | _ => trivial
  | renewLease he =>
    cases ‹WorkerState› with
    | dispatchAck | dispatchCommit => cases he
    | _ => trivial
  | _ => trivial

namespace Deployment
variable {cfg : Deployment} {s t : State}

/-- Each locked row is locked once, by the one actor that has a transaction open on it, and the
transaction's view of it still stands. -/
structure LocksHeld (cfg : Deployment) (s : State) : Prop where
  nodup : s.shared.rowLocks.Nodup
  holder : ∀ j ∈ s.shared.rowLocks, ∃ k, (s.locals k).lockedRow = some j
  held : ∀ k j, (s.locals k).lockedRow = some j → j ∈ s.shared.rowLocks
  alone : ∀ k k' j, (s.locals k).lockedRow = some j → (s.locals k').lockedRow = some j → k' = k
  reads : ∀ k, (s.locals k).Reads (cfg.worker k) s.shared

/-- A step of one actor leaves the jobs alone that others have locked. -/
private theorem history_of_locked {a : ℕ × Action} (hs : LocksHeld cfg s) (hsound : Sound s)
    (h : cfg.lts.step s a = some t) {k : ℕ} {j : JobId} (hk : (s.locals k).lockedRow = some j)
    (hne : a.1 ≠ k) : t.shared.db.history j = s.shared.db.history j := by
  obtain ⟨g', l', hstep, rfl⟩ := Actors.globalStep_eq_some.mp h
  refine (localStep_transition hstep).history_eq (hsound.2 a.1) ((hs.reads k).exists_row hk)
    (fun hawaits => ?_) fun hlocked => hne (hs.alone k a.1 j hk hlocked)
  exact not_mem_rowLocks_of_awaits hstep hawaits (hs.held k j hk)

private theorem locksHeld_step {a : ℕ × Action} (hs : LocksHeld cfg s) (hsound : Sound s)
    (h : cfg.lts.step s a = some t) : LocksHeld cfg t := by
  have hreads : ∀ k, (t.locals k).Reads (cfg.worker k) t.shared := by
    have hother := fun k j => history_of_locked hs hsound h (k := k) (j := j)
    obtain ⟨g', l', ht, rfl⟩ := step_transition h
    refine Actors.forall_locals_update (P := fun k l => ActorState.Reads (cfg.worker k) g' l)
      (ht.reads (hs.reads a.1)) fun k hk => (hs.reads k).congr fun j hj => ?_
    exact congrArg JobHistory.row (hother k j hj (Ne.symm hk))
  obtain ⟨i, a⟩ := a
  obtain ⟨g', l', hstep, rfl⟩ := Actors.globalStep_eq_some.mp h
  have hrow : ∀ k, ((Function.update s.locals i l') k).lockedRow =
      if k = i then l'.lockedRow else (s.locals k).lockedRow := by
    intro k
    by_cases hk : k = i
    · rw [hk, Function.update_self, if_pos rfl]
    · rw [Function.update_of_ne hk, if_neg hk]
  cases lockStep hstep with
  | same hlocks hl =>
    have hsame : ∀ k, ((Function.update s.locals i l') k).lockedRow = (s.locals k).lockedRow := by
      intro k
      rw [hrow]
      split
      next hk => rw [hk, hl]
      next => rfl
    refine ⟨hlocks ▸ hs.nodup, fun j hj => ?_, fun k j hk => ?_, fun k k' j hk hk' => ?_, hreads⟩
    · obtain ⟨k, hk⟩ := hs.holder j (hlocks ▸ hj)
      exact ⟨k, (hsame k).trans hk⟩
    · exact hlocks ▸ hs.held k j ((hsame k).symm.trans hk)
    · exact hs.alone k k' j ((hsame k).symm.trans hk) ((hsame k').symm.trans hk')
  | @acquired j₀ hfree hl hlocks hl' =>
    have hcases : ∀ k j, ((Function.update s.locals i l') k).lockedRow = some j →
        (k = i ∧ j = j₀) ∨ (k ≠ i ∧ (s.locals k).lockedRow = some j) := by
      intro k j hk
      rw [hrow] at hk
      split at hk
      next hki => exact .inl ⟨hki, Option.some.inj (hk.symm.trans hl')⟩
      next hki => exact .inr ⟨hki, hk⟩
    refine ⟨?_, fun j hj => ?_, fun k j hk => ?_, fun k k' j hk hk' => ?_, hreads⟩
    · change g'.rowLocks.Nodup
      rw [hlocks]
      exact hs.nodup.cons hfree
    · change j ∈ g'.rowLocks at hj
      rw [hlocks] at hj
      rcases List.mem_cons.mp hj with rfl | hj
      · exact ⟨i, by rw [hrow, if_pos rfl, hl']⟩
      · obtain ⟨k, hk⟩ := hs.holder j hj
        refine ⟨k, ?_⟩
        rw [hrow, if_neg, hk]
        rintro rfl
        rw [hl] at hk
        cases hk
    · change j ∈ g'.rowLocks
      rw [hlocks]
      rcases hcases k j hk with ⟨-, rfl⟩ | ⟨-, hk⟩
      · exact List.mem_cons_self
      · exact List.mem_cons_of_mem _ (hs.held k j hk)
    · rcases hcases k j hk with ⟨rfl, rfl⟩ | ⟨-, hold⟩ <;>
        rcases hcases k' j hk' with ⟨rfl, hj⟩ | ⟨-, hold'⟩
      · rfl
      · exact absurd (hs.held k' j hold') hfree
      · exact absurd (hs.held k j hold) (hj ▸ hfree)
      · exact hs.alone k k' j hold hold'
  | @released j₀ hl hlocks hl' =>
    have hcases : ∀ k j, ((Function.update s.locals i l') k).lockedRow = some j →
        k ≠ i ∧ (s.locals k).lockedRow = some j := by
      intro k j hk
      rw [hrow] at hk
      split at hk
      next => rw [hl'] at hk; cases hk
      next hki => exact ⟨hki, hk⟩
    refine ⟨?_, fun j hj => ?_, fun k j hk => ?_, fun k k' j hk hk' => ?_, hreads⟩
    · change g'.rowLocks.Nodup
      rw [hlocks]
      exact hs.nodup.erase _
    · change j ∈ g'.rowLocks at hj
      rw [hlocks, hs.nodup.mem_erase_iff] at hj
      obtain ⟨k, hk⟩ := hs.holder j hj.2
      refine ⟨k, ?_⟩
      rw [hrow, if_neg, hk]
      rintro rfl
      rw [hl] at hk
      exact hj.1 (Option.some.inj hk).symm
    · obtain ⟨hki, hk⟩ := hcases k j hk
      change j ∈ g'.rowLocks
      rw [hlocks, hs.nodup.mem_erase_iff]
      refine ⟨?_, hs.held k j hk⟩
      rintro rfl
      exact hki (hs.alone i k j hl hk)
    · exact hs.alone k k' j (hcases k j hk).2 (hcases k' j hk').2

theorem locksHeld_reachable (hs : cfg.lts.Reachable Lts.anyStep s) : LocksHeld cfg s := by
  refine Lts.Reachable.invariant (P := LocksHeld cfg) ?_ ?_ hs
  · exact ⟨List.nodup_nil, fun _ h => (nomatch h), fun _ _ h => (nomatch h),
      fun _ _ _ h => (nomatch h), fun _ => trivial⟩
  · intro s a t hs hheld _ h
    exact locksHeld_step hheld (sound_reachable hs) h

/-- From the moment a dispatch transaction has locked its row, whatever the others do, and even if
they die, the transaction keeps its lock alone, its job's row, events, finalization and conflicts
stand still, and the row it decided on is the one it will commit to. -/
theorem open_transaction_isolated (hs : cfg.lts.Reachable Lts.anyStep s) {k : ℕ} {j : JobId}
    (hk : (s.locals k).lockedRow = some j) (hst : cfg.lts.Run (fun _ a => a.1 ≠ k) s t) :
    t.locals k = s.locals k ∧ t.shared.db.history j = s.shared.db.history j ∧
      (∀ k', (t.locals k').lockedRow = some j → k' = k) ∧
      (t.locals k).Reads (cfg.worker k) t.shared := by
  have hrun : cfg.lts.Reachable Lts.anyStep t ∧ t.locals k = s.locals k ∧
      t.shared.db.history j = s.shared.db.history j := by
    refine Lts.Run.preserves (P := fun t => cfg.lts.Reachable Lts.anyStep t ∧
      t.locals k = s.locals k ∧ t.shared.db.history j = s.shared.db.history j) ?_ hst
      ⟨hs, rfl, rfl⟩
    rintro u a v ⟨hu, hlocal, hhistory⟩ hne hstep
    have huk : (u.locals k).lockedRow = some j := by rw [hlocal, hk]
    refine ⟨hu.step ⟨a, trivial, hstep⟩, ?_, ?_⟩
    · obtain ⟨g', l', -, rfl⟩ := step_transition hstep
      exact (Function.update_of_ne (Ne.symm hne) l' u.locals).trans hlocal
    · exact (history_of_locked (locksHeld_reachable hu) (sound_reachable hu) hstep huk hne).trans
        hhistory
  obtain ⟨ht, hlocal, hhistory⟩ := hrun
  have hheld := locksHeld_reachable ht
  refine ⟨hlocal, hhistory, fun k' hk' => hheld.alone k k' j ?_ hk', hheld.reads k⟩
  rw [hlocal, hk]

/-- Worker 2 takes a duplicate of the message whose job worker 1 is about to block, and dies. -/
theorem open_transaction_isolated_duplicate : ∃ s t,
    stubDeployment.lts.Reachable Lts.anyStep s ∧ (s.locals 1).lockedRow = some 1 ∧
    stubDeployment.lts.Run (fun _ a => a.1 ≠ 1) s t ∧ t.shared.queue.jobs.delivered = 2 ∧
    t.shared.db.history 1 = s.shared.db.history 1 ∧ (t.locals 2).lockedRow ≠ some 1 := by
  obtain ⟨s, hs, hp⟩ := Lts.exists_reachable_of_exec stubDeployment.lts
    [(0, .createJob { stubSubmission with jobType := "live.completion" }), (0, .publishJob 1 1),
      (1, .processOne), (1, .advance "")]
    (fun s => decide ((s.locals 1).lockedRow = some 1) &&
      (stubDeployment.lts.exec (fun _ a => decide (a.1 ≠ 1)) s [(0, .publishJob 1 1),
        (2, .processOne), (2, .crash)]).any
          fun t : State => decide (t.shared.queue.jobs.delivered = 2))
    (by decide)
  obtain ⟨hk, hrun⟩ := Bool.and_eq_true_iff.mp hp
  have hk : (s.locals 1).lockedRow = some 1 := of_decide_eq_true hk
  obtain ⟨t, ht, hdelivered⟩ := Lts.exists_run_of_exec (L := stubDeployment.lts)
    (C := fun _ a => a.1 ≠ 1) (fun _ _ h => of_decide_eq_true h) s _ _ hrun
  obtain ⟨-, hhistory, halone, -⟩ := open_transaction_isolated hs hk ht
  refine ⟨s, t, hs, hk, ht, of_decide_eq_true hdelivered, hhistory, fun h => ?_⟩
  exact absurd (halone 2 h) (by decide)

end Deployment
end AgentRuntimeGrid
