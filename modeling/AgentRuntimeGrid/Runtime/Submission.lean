import AgentRuntimeGrid.Runtime.Lifecycle

/-! Any number of `create_job` calls, each on a session of its own, cut between their statements.
Sessions read committed rows only; an `INSERT` waits while another open transaction has entered
its key or id in a unique index. -/
namespace AgentRuntimeGrid

/-- The tables name one job for each idempotency key, and each job was submitted once. -/
structure Database.SubmittedOnce (db : Database) : Prop where
  keys : (db.jobs.rows.map JobRecord.idempotencyKey).Nodup
  event : ∀ row ∈ db.jobs.rows,
    ((db.eventsOf row.id).filter fun e => e.eventType = .submitted).length = 1
  orphan : ∀ j, db.jobs.get? j = none → db.eventsOf j = []

namespace Database
variable {db db' : Database} {row : JobRecord}

theorem insertJob_isOk_iff : (∃ db', db.insertJob row = .ok db') ↔
    ∀ row' ∈ db.jobs.rows, row'.idempotencyKey ≠ row.idempotencyKey ∧ row'.id ≠ row.id := by
  constructor
  · rintro ⟨db', h⟩ row' hrow'
    have hkey : db.getByIdempotencyKey row.idempotencyKey = none := by
      unfold insertJob at h
      split at h
      · cases h
      next hkey => exact hkey
    obtain ⟨jobs, hjobs, -⟩ := insertJob_eq_ok h
    have hid := KeyedTable.get?_eq_none_iff.mp (KeyedTable.get?_of_insert_none hjobs) row' hrow'
    exact ⟨by simpa using List.find?_eq_none.mp hkey row' hrow', hid⟩
  · intro h
    have hkey : db.getByIdempotencyKey row.idempotencyKey = none :=
      List.find?_eq_none.mpr fun row' hrow' => by simpa using (h row' hrow').1
    have hid : db.jobs.get? row.id = none :=
      KeyedTable.get?_eq_none_iff.mpr fun row' hrow' => (h row' hrow').2
    unfold insertJob
    rw [hkey]
    cases hjobs : db.jobs.insert row with
    | none =>
      obtain ⟨b, hb⟩ := KeyedTable.insert_eq_none_iff.mp hjobs
      rw [hid] at hb
      cases hb
    | some jobs => exact ⟨_, rfl⟩

theorem insertJob_eq_error {e : CreateJobError} (h : db.insertJob row = .error e) :
    e = .integrityError := by
  unfold insertJob at h
  split at h
  · cases h
    rfl
  · split at h
    · cases h
      rfl
    · cases h

theorem rows_of_insertJob (h : db.insertJob row = .ok db') :
    db'.jobs.rows = db.jobs.rows ++ [row] := by
  obtain ⟨jobs, hjobs, rfl⟩ := insertJob_eq_ok h
  exact KeyedTable.rows_of_insert hjobs

theorem SubmittedOnce.insertJob (hdb : db.SubmittedOnce) (h : db.insertJob row = .ok db') :
    db'.SubmittedOnce := by
  have hnew := insertJob_isOk_iff.mp ⟨db', h⟩
  have hrows := rows_of_insertJob h
  have habsent : db.jobs.get? row.id = none :=
    KeyedTable.get?_eq_none_iff.mpr fun row' hrow' => (hnew row' hrow').2
  obtain ⟨jobs, hjobs, rfl⟩ := insertJob_eq_ok h
  have hevents : ∀ j, Database.eventsOf (Database.appendEvent { db with jobs := jobs }
      (submittedEvent row)) j = db.eventsOf j ++ if row.id = j then [submittedEvent row] else [] :=
    fun j => eventsOf_appendEvent { db with jobs := jobs } (submittedEvent row) j
  refine ⟨?_, ?_, ?_⟩
  · rw [hrows, List.map_append, List.nodup_append]
    refine ⟨hdb.keys, List.nodup_singleton _, ?_⟩
    intro key hkey key' hkey'
    obtain ⟨row', hrow', rfl⟩ := List.mem_map.mp hkey
    rw [List.map_singleton, List.mem_singleton] at hkey'
    exact hkey' ▸ (hnew row' hrow').1
  · intro row' hrow'
    rw [hevents]
    rw [hrows, List.mem_append, List.mem_singleton] at hrow'
    rcases hrow' with hold | rfl
    · rw [if_neg (hnew row' hold).2.symm, List.append_nil]
      exact hdb.event row' hold
    · rw [if_pos rfl, hdb.orphan row'.id habsent]
      rfl
  · intro j hj
    have hne : row.id ≠ j := by
      rintro rfl
      have hself : jobs.get? row.id = some row := KeyedTable.get?_of_insert_self hjobs
      rw [show jobs.get? row.id = none from hj] at hself
      cases hself
    have hold : db.jobs.get? j = none := by
      have := KeyedTable.get?_of_insert hjobs j
      rw [if_neg hne] at this
      exact this.symm.trans hj
    rw [hevents, if_neg hne, List.append_nil]
    exact hdb.orphan j hold

end Database

/-- A row is refused for its values only. -/
theorem JobSubmission.newRow_ne_conflict {env : Env} {s : JobSubmission} {e : CreateJobError}
    (h : s.newRow env = .error e) (key : String) : e ≠ .idempotencyConflict key := by
  unfold newRow at h
  split at h
  · cases h
    exact nofun
  · split at h
    next e' hrejected =>
      cases h
      unfold rejected at hrejected
      split at hrejected
      · cases hrejected
        exact nofun
      · split at hrejected <;> cases hrejected
        exact nofun
    next => cases h

theorem JobSubmission.exists_newRow {env : Env} {s : JobSubmission} {hash : String}
    (hhash : s.payloadHash env = some hash) (hrejected : s.rejected = none) :
    ∃ row, s.newRow env = .ok row := by
  unfold newRow
  rw [hhash]
  simp only
  split
  next e he =>
    rw [hrejected] at he
    cases he
  next h => exact ⟨s.row hash h, rfl⟩

/-- The committed tables, and the ids and keys that rows of open transactions have taken. -/
structure Sessions where
  db : Database
  reserved : List (JobId × String)

inductive CreateJobState where
  /-- Before `_get_by_idempotency_key`. -/
  | calling (s : JobSubmission)
  /-- No row was found; before the `INSERT INTO jobs`. -/
  | inserting (s : JobSubmission)
  /-- Before the `INSERT INTO job_events`. -/
  | recording (s : JobSubmission) (row : JobRecord)
  | committing (s : JobSubmission) (row : JobRecord)
  | returned (job : JobRecord)
  | raised (e : CreateJobError)

namespace CreateJobState

def ended : Except CreateJobError JobRecord → CreateJobState
  | .ok job => .returned job
  | .error e => .raised e

def Done : CreateJobState → Prop
  | .returned _ | .raised _ => True
  | _ => False

instance (l : CreateJobState) : Decidable l.Done := by
  unfold Done
  split <;> infer_instance

/-- The row the open transaction has inserted. -/
def inFlight : CreateJobState → Option JobRecord
  | .recording _ row | .committing _ row => some row
  | _ => none

end CreateJobState

namespace Submission

/-- The next statement of a call; a raised exception rolls its transaction back. -/
def localStep (env : Env) (sh : Sessions) : CreateJobState → Option (Sessions × CreateJobState)
  | .calling s =>
    match sh.db.getByIdempotencyKey s.idempotencyKey with
    | some existing => some (sh, .ended (answerExisting env existing s))
    | none => some (sh, .inserting s)
  | .inserting s =>
    match s.newRow env with
    | .error e => some (sh, .raised e)
    | .ok row =>
      match sh.db.insertJob row with
      | .error e => some (sh, .raised e)
      | .ok _ =>
        if sh.reserved.any fun r => r.1 = row.id || r.2 = row.idempotencyKey then none
        else some ({ sh with reserved := (row.id, row.idempotencyKey) :: sh.reserved },
          .recording s row)
  | .recording s row => some (sh, .committing s row)
  | .committing _ row =>
    match sh.db.insertJob row with
    | .error e => some ({ sh with reserved := sh.reserved.erase (row.id, row.idempotencyKey) },
        .raised e)
    | .ok db => some (⟨db, sh.reserved.erase (row.id, row.idempotencyKey)⟩, .returned row)
  | .returned _ => none
  | .raised _ => none

abbrev State (calls : List JobSubmission) := Actors (Fin calls.length) Sessions CreateJobState

/-- The calls, each at its beginning, on a database no transaction is open on. -/
def lts (env : Env) (calls : List JobSubmission) (db : Database) :
    Lts (State calls) (Fin calls.length × Unit) :=
  Actors.lts (fun _ sh l _ => localStep env sh l) ⟨⟨db, []⟩, fun i => .calling calls[i]⟩

/-- What the law of idempotent submission says of the end of all calls. -/
def Idempotent (env : Env) (calls : List JobSubmission) (s : State calls) : Prop :=
  ∀ i : Fin calls.length, ∃ row : JobRecord,
    (s.shared.db.jobs.rows.filter fun row =>
      row.idempotencyKey = calls[i].idempotencyKey) = [row] ∧
    ((s.shared.db.eventsOf row.id).filter fun e => e.eventType = .submitted).length = 1 ∧
    s.locals i = if calls[i].payloadHash env = some row.payloadHash then .returned row
      else .raised (.idempotencyConflict calls[i].idempotencyKey)

/-- The step is not an `INSERT` of values the columns refuse, or of a key or an id that a row
committed since the check already has; and a payload that is compared has a hash. -/
def Uncontested (env : Env) {calls : List JobSubmission} (s : State calls)
    (a : Fin calls.length × Unit) : Prop :=
  match s.locals a.1 with
  | .calling sub => (s.shared.db.getByIdempotencyKey sub.idempotencyKey).isSome →
      (sub.payloadHash env).isSome
  | .inserting sub => (sub.payloadHash env).isSome ∧ sub.rejected = none ∧
      ∀ row ∈ s.shared.db.jobs.rows,
        row.idempotencyKey ≠ sub.idempotencyKey ∧ row.id ≠ sub.jobId
  | _ => True

instance (env : Env) {calls : List JobSubmission} (s : State calls)
    (a : Fin calls.length × Unit) : Decidable (Uncontested env s a) := by
  unfold Uncontested
  split <;> infer_instance

/-- Everything the next statement of a call can do. -/
inductive CallTransition (env : Env) (sh : Sessions) :
    CreateJobState → Sessions → CreateJobState → Prop where
  | answered {s : JobSubmission} {existing : JobRecord}
      (hkey : sh.db.getByIdempotencyKey s.idempotencyKey = some existing) :
      CallTransition env sh (.calling s) sh (.ended (answerExisting env existing s))
  | absent {s : JobSubmission} (hkey : sh.db.getByIdempotencyKey s.idempotencyKey = none) :
      CallTransition env sh (.calling s) sh (.inserting s)
  | refused {s : JobSubmission} {e : CreateJobError} (hrow : s.newRow env = .error e) :
      CallTransition env sh (.inserting s) sh (.raised e)
  | violates {s : JobSubmission} {row : JobRecord} {e : CreateJobError}
      (hrow : s.newRow env = .ok row) (hdb : sh.db.insertJob row = .error e) :
      CallTransition env sh (.inserting s) sh (.raised e)
  | inserted {s : JobSubmission} {row : JobRecord} {db : Database}
      (hrow : s.newRow env = .ok row) (hdb : sh.db.insertJob row = .ok db)
      (hfree : ∀ r ∈ sh.reserved, r.1 ≠ row.id ∧ r.2 ≠ row.idempotencyKey) :
      CallTransition env sh (.inserting s)
        { sh with reserved := (row.id, row.idempotencyKey) :: sh.reserved } (.recording s row)
  | recorded {s : JobSubmission} {row : JobRecord} :
      CallTransition env sh (.recording s row) sh (.committing s row)
  | commitRaises {s : JobSubmission} {row : JobRecord} {e : CreateJobError}
      (hdb : sh.db.insertJob row = .error e) :
      CallTransition env sh (.committing s row)
        { sh with reserved := sh.reserved.erase (row.id, row.idempotencyKey) } (.raised e)
  | committed {s : JobSubmission} {row : JobRecord} {db : Database}
      (hdb : sh.db.insertJob row = .ok db) :
      CallTransition env sh (.committing s row)
        ⟨db, sh.reserved.erase (row.id, row.idempotencyKey)⟩ (.returned row)

variable {env : Env} {calls : List JobSubmission} {db₀ : Database} {s t : State calls}

theorem localStep_transition {sh sh' : Sessions} {l l' : CreateJobState}
    (h : localStep env sh l = some (sh', l')) : CallTransition env sh l sh' l' := by
  cases l with
  | calling s =>
    simp only [localStep] at h
    split at h
    next existing hkey =>
      cases h
      exact .answered hkey
    next hkey =>
      cases h
      exact .absent hkey
  | inserting s =>
    simp only [localStep] at h
    split at h
    next e hrow =>
      cases h
      exact .refused hrow
    next row hrow =>
      split at h
      next e hdb =>
        cases h
        exact .violates hrow hdb
      next db hdb =>
        split at h
        · cases h
        next hfree =>
          cases h
          refine .inserted hrow hdb fun r hr => ?_
          simp only [List.any_eq_true, Bool.or_eq_true, decide_eq_true_eq, not_exists,
            not_and, not_or] at hfree
          exact hfree r hr
  | recording s row =>
    cases h
    exact .recorded
  | committing s row =>
    simp only [localStep] at h
    split at h
    next e hdb =>
      cases h
      exact .commitRaises hdb
    next db hdb =>
      cases h
      exact .committed hdb
  | returned job => cases h
  | raised e => cases h

theorem step_transition {a : Fin calls.length × Unit}
    (h : (lts env calls db₀).step s a = some t) :
    ∃ sh l, CallTransition env s.shared (s.locals a.1) sh l ∧
      t = ⟨sh, Function.update s.locals a.1 l⟩ := by
  obtain ⟨i, a⟩ := a
  have h : Actors.globalStep (fun _ sh l _ => localStep env sh l) s (i, a) = some t := h
  obtain ⟨sh, l, hl, rfl⟩ := Actors.globalStep_eq_some.mp h
  exact ⟨sh, l, localStep_transition hl, rfl⟩

/-- What a call knows of the tables, given the submission it was made with. -/
def Knows (env : Env) (sh : Sessions) (sub : JobSubmission) : CreateJobState → Prop
  | .calling s | .inserting s => s = sub
  | .recording s row | .committing s row => s = sub ∧ s.newRow env = .ok row ∧
      (row.id, row.idempotencyKey) ∈ sh.reserved ∧ ∃ db, sh.db.insertJob row = .ok db
  | .returned job => job ∈ sh.db.jobs.rows ∧ job.idempotencyKey = sub.idempotencyKey ∧
      sub.payloadHash env = some job.payloadHash
  | .raised (.idempotencyConflict key) => key = sub.idempotencyKey ∧ ∃ row ∈ sh.db.jobs.rows,
      row.idempotencyKey = key ∧ sub.payloadHash env ≠ some row.payloadHash
  | .raised _ => True

/-- The tables are in order, every call knows its part of them, and no two open transactions have
entered the same key or the same id. -/
structure Consistent (env : Env) (s : State calls) : Prop where
  db : s.shared.db.SubmittedOnce
  knows : ∀ i, Knows env s.shared calls[i] (s.locals i)
  apart : ∀ i k row row', (s.locals i).inFlight = some row → (s.locals k).inFlight = some row' →
    i ≠ k → row.id ≠ row'.id ∧ row.idempotencyKey ≠ row'.idempotencyKey

theorem mem_of_getByIdempotencyKey {db : Database} {key : String} {row : JobRecord}
    (h : db.getByIdempotencyKey key = some row) :
    row ∈ db.jobs.rows ∧ row.idempotencyKey = key :=
  ⟨List.mem_of_find?_eq_some h, of_decide_eq_true (List.find?_some h :)⟩

private theorem knows_answer {sh : Sessions} {sub : JobSubmission} {existing : JobRecord}
    (hkey : sh.db.getByIdempotencyKey sub.idempotencyKey = some existing) :
    Knows env sh sub (.ended (answerExisting env existing sub)) := by
  obtain ⟨hmem, heq⟩ := mem_of_getByIdempotencyKey hkey
  unfold answerExisting
  split
  · trivial
  next hash hhash =>
    split
    next hne =>
      refine ⟨rfl, existing, hmem, heq, ?_⟩
      rw [hhash]
      exact fun h => hne (Option.some.inj h).symm
    next hsame =>
      refine ⟨hmem, heq, ?_⟩
      rw [hhash, not_not.mp hsame]

/-- What another call knows outlives a step that keeps its rows and its reservation and commits
nothing in its way. -/
private theorem Knows.mono {sh sh' : Sessions} {sub : JobSubmission} {l : CreateJobState}
    (h : Knows env sh sub l) (hrows : ∀ row ∈ sh.db.jobs.rows, row ∈ sh'.db.jobs.rows)
    (hreserved : ∀ row, l.inFlight = some row → (row.id, row.idempotencyKey) ∈ sh.reserved →
      (row.id, row.idempotencyKey) ∈ sh'.reserved)
    (hfree : ∀ row, l.inFlight = some row → (∃ db, sh.db.insertJob row = .ok db) →
      ∃ db, sh'.db.insertJob row = .ok db) : Knows env sh' sub l := by
  cases l with
  | calling s => exact h
  | inserting s => exact h
  | recording s row =>
    obtain ⟨hs, hrow, hres, hdb⟩ := h
    exact ⟨hs, hrow, hreserved row rfl hres, hfree row rfl hdb⟩
  | committing s row =>
    obtain ⟨hs, hrow, hres, hdb⟩ := h
    exact ⟨hs, hrow, hreserved row rfl hres, hfree row rfl hdb⟩
  | returned job => exact ⟨hrows job h.1, h.2⟩
  | raised e =>
    cases e with
    | idempotencyConflict key =>
      obtain ⟨hkey, row, hrow, hspec⟩ := h
      exact ⟨hkey, row, hrows row hrow, hspec⟩
    | _ => trivial

private theorem Knows.inFlight {sh : Sessions} {sub : JobSubmission} {l : CreateJobState}
    {row : JobRecord} (h : Knows env sh sub l) (hl : l.inFlight = some row) :
    (row.id, row.idempotencyKey) ∈ sh.reserved ∧ ∃ db, sh.db.insertJob row = .ok db := by
  cases l with
  | recording s row' =>
    obtain rfl := Option.some.inj hl
    exact h.2.2
  | committing s row' =>
    obtain rfl := Option.some.inj hl
    exact h.2.2
  | _ => cases hl

private theorem apart_update {i : Fin calls.length} {l : CreateJobState} (hs : Consistent env s)
    (hl : ∀ row, l.inFlight = some row → ∀ k row', k ≠ i → (s.locals k).inFlight = some row' →
      row.id ≠ row'.id ∧ row.idempotencyKey ≠ row'.idempotencyKey) :
    ∀ k k' row row', (Function.update s.locals i l k).inFlight = some row →
      (Function.update s.locals i l k').inFlight = some row' → k ≠ k' →
      row.id ≠ row'.id ∧ row.idempotencyKey ≠ row'.idempotencyKey := by
  intro k k' row row' hk hk' hne
  by_cases hki : k = i
  · subst hki
    rw [Function.update_self] at hk
    rw [Function.update_of_ne hne.symm] at hk'
    exact hl row hk k' row' hne.symm hk'
  · rw [Function.update_of_ne hki] at hk
    by_cases hki' : k' = i
    · subst hki'
      rw [Function.update_self] at hk'
      obtain ⟨hid, hkey⟩ := hl row' hk' k row hki hk
      exact ⟨hid.symm, hkey.symm⟩
    · rw [Function.update_of_ne hki'] at hk'
      exact hs.apart k k' row row' hk hk' hne

/-- A statement that leaves the tables and the reservations alone. -/
private theorem consistent_local {i : Fin calls.length} {l : CreateJobState}
    (hs : Consistent env s) (hl : Knows env s.shared calls[i] l)
    (hflight : ∀ row, l.inFlight = some row → (s.locals i).inFlight = some row) :
    Consistent env ⟨s.shared, Function.update s.locals i l⟩ := by
  refine ⟨hs.db, ?_, ?_⟩
  · exact Actors.forall_locals_update (P := fun k l => Knows env s.shared calls[k] l) hl
      fun k _ => hs.knows k
  · refine apart_update hs fun row hrow k row' hk hk' => ?_
    exact hs.apart i k row row' (hflight row hrow) hk' hk.symm

/-- An insert enters its row beside the rows of the other open transactions. -/
private theorem consistent_inserted {i : Fin calls.length} {sub : JobSubmission}
    {row : JobRecord} {db : Database} (hs : Consistent env s)
    (hsub : sub = calls[i]) (hrow : sub.newRow env = .ok row)
    (hdb : s.shared.db.insertJob row = .ok db)
    (hfree : ∀ r ∈ s.shared.reserved, r.1 ≠ row.id ∧ r.2 ≠ row.idempotencyKey) :
    Consistent env (⟨{ s.shared with
      reserved := (row.id, row.idempotencyKey) :: s.shared.reserved },
      Function.update s.locals i (.recording sub row)⟩ : State calls) := by
  refine ⟨hs.db, ?_, ?_⟩
  · refine Actors.forall_locals_update (P := fun k l => Knows env
      ⟨s.shared.db, (row.id, row.idempotencyKey) :: s.shared.reserved⟩ calls[k] l) ?_ fun k _ => ?_
    · exact ⟨hsub, hrow, List.mem_cons_self, db, hdb⟩
    · exact (hs.knows k).mono (fun _ h => h) (fun _ _ h => List.mem_cons_of_mem _ h)
        fun _ _ h => h
  · refine apart_update hs fun row₀ hrow₀ k row' _ hk => ?_
    obtain rfl := Option.some.inj hrow₀
    obtain ⟨hid, hkey⟩ := hfree _ ((hs.knows k).inFlight hk).1
    exact ⟨hid.symm, hkey.symm⟩

/-- A commit stands in no other open transaction's way. -/
private theorem consistent_committed {i : Fin calls.length} {sub : JobSubmission}
    {row : JobRecord} {db : Database} (hs : Consistent env s)
    (hl : s.locals i = .committing sub row) (hdb : s.shared.db.insertJob row = .ok db) :
    Consistent env (⟨⟨db, s.shared.reserved.erase (row.id, row.idempotencyKey)⟩,
      Function.update s.locals i (.returned row)⟩ : State calls) := by
  have hrows := Database.rows_of_insertJob hdb
  have hknows := hs.knows i
  rw [hl] at hknows
  obtain ⟨hsub, hrow, -, -⟩ := hknows
  obtain ⟨hhash, -, -, -, hkey, -⟩ := JobSubmission.newRow_eq_ok hrow
  have hflight : (s.locals i).inFlight = some row := by rw [hl]; rfl
  refine ⟨hs.db.insertJob hdb, ?_, ?_⟩
  · refine Actors.forall_locals_update (P := fun k l => Knows env _ calls[k] l) ?_ fun k hk => ?_
    · rw [← hsub]
      exact ⟨by rw [hrows]; simp, hkey, hhash⟩
    · refine (hs.knows k).mono ?_ ?_ ?_
      · intro row' hrow'
        rw [hrows]
        exact List.mem_append_left _ hrow'
      · intro row' hrow' hmem
        have hne := hs.apart k i row' row hrow' hflight hk
        exact (List.mem_erase_of_ne fun h => hne.1 (Prod.mk.inj h).1).mpr hmem
      · intro row' hrow' hfree
        obtain ⟨hid, hkey⟩ := hs.apart k i row' row hrow' hflight hk
        rw [Database.insertJob_isOk_iff, hrows] at *
        intro row₀ hrow₀
        rcases List.mem_append.mp hrow₀ with hold | hnew
        · exact hfree row₀ hold
        · rw [List.mem_singleton.mp hnew]
          exact ⟨hkey.symm, hid.symm⟩
  · exact apart_update hs fun row₀ hrow₀ => (nomatch hrow₀)

private theorem consistent_step {a : Fin calls.length × Unit}
    (h : (lts env calls db₀).step s a = some t) (hs : Consistent env s) : Consistent env t := by
  obtain ⟨i, a⟩ := a
  obtain ⟨sh, l, hl, rfl⟩ := step_transition h
  have hknows := hs.knows i
  generalize hli : s.locals i = l₀ at hl hknows
  cases hl with
  | answered hkey =>
    have hsub : _ = calls[i] := hknows
    subst hsub
    refine consistent_local hs (knows_answer hkey) fun row hrow => ?_
    unfold CreateJobState.ended at hrow
    split at hrow <;> cases hrow
  | absent => exact consistent_local hs hknows fun _ hrow => (nomatch hrow)
  | @refused sub e hrow =>
    refine consistent_local hs ?_ fun _ hrow => (nomatch hrow)
    cases e with
    | idempotencyConflict key => exact absurd rfl (JobSubmission.newRow_ne_conflict hrow key)
    | _ => trivial
  | violates hrow hdb =>
    refine consistent_local hs ?_ fun _ hrow => (nomatch hrow)
    rw [Database.insertJob_eq_error hdb]
    trivial
  | inserted hrow hdb hfree => exact consistent_inserted hs hknows hrow hdb hfree
  | recorded =>
    refine consistent_local hs hknows fun row hrow => ?_
    rw [hli]
    exact hrow
  | commitRaises hdb =>
    obtain ⟨-, -, -, db, hok⟩ := hknows
    rw [hok] at hdb
    cases hdb
  | committed hdb => exact consistent_committed hs hli hdb

theorem consistent_reachable (hdb : db₀.SubmittedOnce)
    (hs : (lts env calls db₀).Reachable Lts.anyStep s) : Consistent env s := by
  have hinit : Consistent env (lts env calls db₀).init :=
    ⟨hdb, fun _ => rfl, fun _ _ _ _ hi => (nomatch hi)⟩
  refine Lts.Reachable.invariant (P := Consistent env) hinit ?_ hs
  intro s a t _ hinv _ h
  exact consistent_step h hinv

theorem createJob_of_insertJob {db db' : Database} {sub : JobSubmission} {row : JobRecord}
    (hrow : sub.newRow env = .ok row) (hdb : db.insertJob row = .ok db') :
    db.createJob env sub = (.ok row, db') := by
  obtain ⟨-, -, -, -, hkey, -⟩ := JobSubmission.newRow_eq_ok hrow
  have hnone : db.getByIdempotencyKey sub.idempotencyKey = none := by
    have hfree := Database.insertJob_isOk_iff.mp ⟨db', hdb⟩
    refine List.find?_eq_none.mpr fun row' hrow' => ?_
    simpa [hkey] using (hfree row' hrow').1
  unfold Database.createJob
  simp only [hnone, hrow, hdb]

/-- The tables go through the states of one sequential call after the other: a step leaves them as
they are or is the commit of a call that returns what it would return alone. -/
theorem step_serial (hdb : db₀.SubmittedOnce) (hs : (lts env calls db₀).Reachable Lts.anyStep s)
    {a : Fin calls.length × Unit} (h : (lts env calls db₀).step s a = some t) :
    t.shared.db = s.shared.db ∨ ∃ job, t.locals a.1 = .returned job ∧
      s.shared.db.createJob env calls[a.1] = (.ok job, t.shared.db) := by
  have hknows := (consistent_reachable hdb hs).knows a.1
  obtain ⟨sh, l, hl, rfl⟩ := step_transition h
  generalize s.locals a.1 = l₀ at hl hknows
  cases hl with
  | @committed sub row db hok =>
    obtain ⟨hsub, hrow, -⟩ := hknows
    refine .inr ⟨row, Function.update_self .., ?_⟩
    rw [← hsub]
    exact createJob_of_insertJob hrow hok
  | _ => exact .inl rfl

private theorem step_update {i : Fin calls.length} {locals : Fin calls.length → CreateJobState}
    {sh sh' : Sessions} {l l' : CreateJobState} (hl : localStep env sh l = some (sh', l')) :
    (lts env calls db₀).Step Lts.anyStep ⟨sh, Function.update locals i l⟩
      ⟨sh', Function.update locals i l'⟩ := by
  refine ⟨(i, ()), trivial, ?_⟩
  change Actors.globalStep (fun _ sh l _ => localStep env sh l) _ (i, ()) = _
  refine Actors.globalStep_eq_some.mpr ⟨sh', l', ?_, ?_⟩
  · change localStep env sh (Function.update locals i l i) = _
    rw [Function.update_self]
    exact hl
  · rw [Function.update_idem]

/-- A call with no other transaction open does what the sequential `create_job` does. -/
theorem createJob_run {i : Fin calls.length} {locals : Fin calls.length → CreateJobState}
    (db : Database) (sub : JobSubmission) :
    (lts env calls db₀).Run Lts.anyStep ⟨⟨db, []⟩, Function.update locals i (.calling sub)⟩
      ⟨⟨(db.createJob env sub).2, []⟩,
        Function.update locals i (.ended (db.createJob env sub).1)⟩ := by
  cases hkey : db.getByIdempotencyKey sub.idempotencyKey with
  | some existing =>
    have hcreate : db.createJob env sub = (answerExisting env existing sub, db) := by
      simp only [Database.createJob, hkey]
    rw [hcreate]
    exact .single (step_update (by simp only [localStep, hkey]))
  | none =>
    have hselect : localStep env ⟨db, []⟩ (.calling sub) = some (⟨db, []⟩, .inserting sub) := by
      simp only [localStep, hkey]
    refine .head (step_update hselect) ?_
    cases hrow : sub.newRow env with
    | error e =>
      have hcreate : db.createJob env sub = (.error e, db) := by
        simp only [Database.createJob, hkey, hrow]
      rw [hcreate]
      exact .single (step_update (by simp only [localStep, hrow, CreateJobState.ended]))
    | ok row =>
      cases hdb : db.insertJob row with
      | error e =>
        have hcreate : db.createJob env sub = (.error e, db) := by
          simp only [Database.createJob, hkey, hrow, hdb]
        rw [hcreate]
        exact .single (step_update (by simp only [localStep, hrow, hdb, CreateJobState.ended]))
      | ok db' =>
        have hinsert : localStep env ⟨db, []⟩ (.inserting sub) =
            some (⟨db, [(row.id, row.idempotencyKey)]⟩, .recording sub row) := by
          simp [localStep, hrow, hdb]
        have hrecord : localStep env ⟨db, [(row.id, row.idempotencyKey)]⟩ (.recording sub row) =
            some (⟨db, [(row.id, row.idempotencyKey)]⟩, .committing sub row) := rfl
        have hcommit : localStep env ⟨db, [(row.id, row.idempotencyKey)]⟩ (.committing sub row) =
            some (⟨db', []⟩, .returned row) := by
          simp only [localStep, hdb, List.erase_cons_head]
        rw [createJob_of_insertJob hrow hdb]
        exact .head (step_update hinsert) (.head (step_update hrecord)
          (.single (step_update hcommit)))

/-- A step outside the condition raises, and not for a conflict of keys. -/
private theorem raised_of_contested {a : Fin calls.length × Unit}
    (h : (lts env calls db₀).step s a = some t) (hc : ¬ Uncontested env s a) :
    ∃ e, t.locals a.1 = .raised e ∧ ∀ key, e ≠ .idempotencyConflict key := by
  obtain ⟨sh, l, hl, rfl⟩ := step_transition h
  change ∃ e, Function.update s.locals a.1 l a.1 = _ ∧ _
  rw [Function.update_self]
  unfold Uncontested at hc
  generalize s.locals a.1 = l₀ at hl hc
  cases hl with
  | @answered sub existing hkey =>
    obtain ⟨-, hhash⟩ := Classical.not_imp.mp hc
    have hnone : sub.payloadHash env = none := by simpa using hhash
    refine ⟨.unicodeEncodeError, ?_, nofun⟩
    simp only [answerExisting, hnone, CreateJobState.ended]
  | absent hkey =>
    simp [hkey] at hc
  | refused hrow => exact ⟨_, rfl, JobSubmission.newRow_ne_conflict hrow⟩
  | violates hrow hdb =>
    rw [Database.insertJob_eq_error hdb]
    exact ⟨_, rfl, nofun⟩
  | inserted hrow hdb hfree =>
    obtain ⟨hhash, hrejected, -, hid, hkey, -⟩ := JobSubmission.newRow_eq_ok hrow
    refine absurd ⟨?_, hrejected, ?_⟩ hc
    · rw [hhash]
      rfl
    · rw [← hid, ← hkey]
      exact Database.insertJob_isOk_iff.mp ⟨_, hdb⟩
  | recorded => exact absurd trivial hc
  | commitRaises => exact absurd trivial hc
  | committed => exact absurd trivial hc

theorem done_step {a : Fin calls.length × Unit} (h : (lts env calls db₀).step s a = some t)
    {i : Fin calls.length} (hi : (s.locals i).Done) : t.locals i = s.locals i := by
  obtain ⟨sh, l, hl, rfl⟩ := step_transition h
  by_cases hai : i = a.1
  · subst hai
    generalize s.locals a.1 = l₀ at hl hi
    cases hl <;> cases hi
  · exact Function.update_of_ne hai ..

theorem done_run (h : (lts env calls db₀).Run Lts.anyStep s t) {i : Fin calls.length}
    (hi : (s.locals i).Done) : t.locals i = s.locals i := by
  refine Lts.Run.preserves (P := fun t => t.locals i = s.locals i) ?_ h rfl
  intro u a v hu _ hstep
  exact (done_step hstep (hu ▸ hi)).trans hu

/-- A run either meets the condition throughout or leaves a call that raised for no conflict. -/
private theorem uncontested_or_raised (hs : (lts env calls db₀).Reachable Lts.anyStep s) :
    (lts env calls db₀).Reachable (Uncontested env) s ∨
      ∃ i e, s.locals i = .raised e ∧ ∀ key, e ≠ .idempotencyConflict key := by
  refine Lts.Reachable.invariant (P := fun s => (lts env calls db₀).Reachable (Uncontested env) s ∨
    ∃ i e, s.locals i = .raised e ∧ ∀ key, e ≠ .idempotencyConflict key) (.inl .init) ?_ hs
  rintro s a t - (hs | ⟨i, e, hi, he⟩) - h
  · by_cases hc : Uncontested env s a
    · exact .inl (hs.step ⟨a, hc, h⟩)
    · exact .inr ⟨a.1, raised_of_contested h hc⟩
  · refine .inr ⟨i, e, (done_step h ?_).trans hi, he⟩
    rw [hi]
    trivial

/-- A step within the condition raises only for a conflict of keys. -/
private theorem conflict_of_raised {a : Fin calls.length × Unit}
    (h : (lts env calls db₀).step s a = some t) (hs : Consistent env s)
    (hc : Uncontested env s a) {e : CreateJobError} (he : t.locals a.1 = .raised e) :
    ∃ key, e = .idempotencyConflict key := by
  have hknows := hs.knows a.1
  obtain ⟨sh, l, hl, rfl⟩ := step_transition h
  change Function.update s.locals a.1 l a.1 = _ at he
  rw [Function.update_self] at he
  unfold Uncontested at hc
  generalize s.locals a.1 = l₀ at hl hknows hc
  cases hl with
  | @answered sub existing hkey =>
    obtain ⟨hash, hhash⟩ := Option.isSome_iff_exists.mp (hc (by rw [hkey]; rfl))
    simp only [answerExisting, hhash] at he
    split at he
    · cases he
      exact ⟨_, rfl⟩
    · cases he
  | absent => cases he
  | @refused sub e' hrow =>
    obtain ⟨hhash, hrejected, -⟩ := hc
    obtain ⟨hash, hhash⟩ := Option.isSome_iff_exists.mp hhash
    obtain ⟨row, hok⟩ := JobSubmission.exists_newRow hhash hrejected
    rw [hok] at hrow
    cases hrow
  | @violates sub row e' hrow hdb =>
    obtain ⟨-, -, -, hid, hkey, -⟩ := JobSubmission.newRow_eq_ok hrow
    have hfree := hc.2.2
    rw [← hid, ← hkey] at hfree
    obtain ⟨db, hok⟩ := Database.insertJob_isOk_iff.mpr hfree
    rw [hok] at hdb
    cases hdb
  | inserted => cases he
  | recorded => cases he
  | commitRaises hdb =>
    obtain ⟨-, -, -, db, hok⟩ := hknows
    rw [hok] at hdb
    cases hdb
  | committed => cases he

private theorem raised_reachable (hdb : db₀.SubmittedOnce)
    (hs : (lts env calls db₀).Reachable (Uncontested env) s) {i : Fin calls.length}
    {e : CreateJobError} (hi : s.locals i = .raised e) : ∃ key, e = .idempotencyConflict key := by
  have hinit : ∀ (i : Fin calls.length) (e : CreateJobError), CreateJobState.calling calls[i] =
      .raised e → ∃ key, e = .idempotencyConflict key := fun _ _ hi => (nomatch hi)
  refine Lts.Reachable.invariant (P := fun s => ∀ i e, s.locals i = .raised e →
    ∃ key, e = .idempotencyConflict key) hinit ?_ hs i e hi
  intro s a t hs hinv hc h i e hi
  by_cases hai : i = a.1
  · subst hai
    exact conflict_of_raised h (consistent_reachable hdb hs.weaken) hc hi
  · obtain ⟨sh, l, -, rfl⟩ := step_transition h
    exact hinv i e ((Function.update_of_ne hai ..).symm.trans hi)

private theorem idempotent_of_reachable (hdb : db₀.SubmittedOnce)
    (hs : (lts env calls db₀).Reachable (Uncontested env) s) (hend : ∀ i, (s.locals i).Done) :
    Idempotent env calls s := by
  have hcons := consistent_reachable hdb hs.weaken
  have only : ∀ {row : JobRecord} {key : String}, row ∈ s.shared.db.jobs.rows →
      row.idempotencyKey = key →
      (s.shared.db.jobs.rows.filter fun row => row.idempotencyKey = key) = [row] := by
    rintro row key hrow rfl
    exact KeyedTable.filter_eq_singleton hcons.db.keys hrow
  intro i
  have hknows := hcons.knows i
  have hdone := hend i
  cases hi : s.locals i with
  | returned job =>
    rw [hi] at hknows
    obtain ⟨hmem, hkey, hhash⟩ := hknows
    exact ⟨job, only hmem hkey, hcons.db.event job hmem, by rw [if_pos hhash]⟩
  | raised e =>
    obtain ⟨key, rfl⟩ := raised_reachable hdb hs hi
    rw [hi] at hknows
    obtain ⟨rfl, row, hmem, hkey, hhash⟩ := hknows
    exact ⟨row, only hmem hkey, hcons.db.event row hmem, by rw [if_neg hhash]⟩
  | _ =>
    rw [hi] at hdone
    cases hdone

/-- When all calls have ended, the law holds exactly if no step of the run was a contested insert.
In every run a call that raises has left the database as it was. -/
theorem create_job_idempotent (hdb : db₀.SubmittedOnce)
    (ht : (lts env calls db₀).Reachable Lts.anyStep t) (hend : ∀ i, (t.locals i).Done) :
    (Idempotent env calls t ↔ (lts env calls db₀).Reachable (Uncontested env) t) ∧
    ∀ s a u e, (lts env calls db₀).Reachable Lts.anyStep s →
      (lts env calls db₀).step s a = some u → (lts env calls db₀).Run Lts.anyStep u t →
      t.locals a.1 = .raised e → u.shared.db = s.shared.db := by
  refine ⟨⟨fun hidem => ?_, fun hs => idempotent_of_reachable hdb hs hend⟩, ?_⟩
  · rcases uncontested_or_raised ht with hs | ⟨i, e, hi, he⟩
    · exact hs
    · obtain ⟨row, -, -, hrow⟩ := hidem i
      rw [hi] at hrow
      split at hrow
      · cases hrow
      · exact absurd (CreateJobState.raised.inj hrow) (he _)
  · intro s a u e hs h hu hraised
    rcases step_serial hdb hs h with hsame | ⟨job, hreturned, -⟩
    · exact hsame
    · have hkept := done_run hu (i := a.1) (by rw [hreturned]; trivial)
      rw [hraised, hreturned] at hkept
      cases hkept

theorem submittedOnce_empty : Database.empty.SubmittedOnce :=
  ⟨List.nodup_nil, fun _ h => (nomatch h), fun _ _ => rfl⟩

/-- Two clients submit the same job under the same key. -/
def sameKeyCalls : List JobSubmission := [stubSubmission, { stubSubmission with jobId := 3 }]

private def turn (i : Fin 2) : Fin sameKeyCalls.length × Unit := (i, ())

/-- One after the other: the second call returns the job of the first. -/
theorem create_job_idempotent_inTurn : ∃ t : State sameKeyCalls,
    (lts sampleEnv sameKeyCalls .empty).Reachable (Uncontested sampleEnv) t ∧
    Idempotent sampleEnv sameKeyCalls t ∧ (t.shared.db.jobs.rows.map JobRecord.id) = [1] := by
  obtain ⟨t, ht, hp⟩ := Lts.exists_run_of_exec
    (L := lts sampleEnv sameKeyCalls .empty) (C := Uncontested sampleEnv)
    (c := fun s a => decide (Uncontested sampleEnv s a)) (fun _ _ h => of_decide_eq_true h)
    (lts sampleEnv sameKeyCalls .empty).init
    [turn 0, turn 0, turn 0, turn 0, turn 1]
    (fun t => decide (∀ i, (t.locals i).Done) &&
      decide ((t.shared.db.jobs.rows.map JobRecord.id) = [1])) (by decide +kernel)
  obtain ⟨hend, hrows⟩ := Bool.and_eq_true_iff.mp hp
  have hend := of_decide_eq_true hend
  exact ⟨t, ht, (create_job_idempotent submittedOnce_empty (Lts.Reachable.weaken ht) hend).1.mpr ht,
    of_decide_eq_true hrows⟩

/-- Both past the check before either inserts: the second call raises the integrity error of its
insert although its payload is the one stored. -/
theorem create_job_not_idempotent : ¬ ∀ t : State sameKeyCalls,
    (lts sampleEnv sameKeyCalls .empty).Reachable Lts.anyStep t → (∀ i, (t.locals i).Done) →
      Idempotent sampleEnv sameKeyCalls t := by
  intro claim
  obtain ⟨t, ht, hp⟩ := Lts.exists_reachable_of_exec (lts sampleEnv sameKeyCalls .empty)
    [turn 0, turn 1, turn 0, turn 0, turn 0, turn 1]
    (fun t => decide (∀ i, (t.locals i).Done) &&
      match t.locals (turn 1).1 with | .raised .integrityError => true | _ => false)
    (by decide +kernel)
  obtain ⟨hend, hraised⟩ := Bool.and_eq_true_iff.mp hp
  obtain ⟨row, -, -, hrow⟩ := claim t ht (of_decide_eq_true hend) (turn 1).1
  rw [hrow] at hraised
  by_cases hhash : (sameKeyCalls[(turn 1).1]).payloadHash sampleEnv = some row.payloadHash
  · rw [if_pos hhash] at hraised
    cases hraised
  · rw [if_neg hhash] at hraised
    cases hraised

end Submission

/-- A transaction adds a job under a key that is free or keeps the keys as they are. -/
private theorem keys_of_dbStep {G : Database → JobId → Prop} {db db' : Database}
    (h : DbStep G db db') (hkeys : (db.jobs.rows.map JobRecord.idempotencyKey).Nodup) :
    (db'.jobs.rows.map JobRecord.idempotencyKey).Nodup := by
  have updated : ∀ (db : Database) (j : JobId) (status : JobStatus),
      (db.updateStatus j status).jobs.rows.map JobRecord.idempotencyKey =
        db.jobs.rows.map JobRecord.idempotencyKey := by
    intro db j status
    change (db.jobs.rows.map _).map _ = _
    rw [List.map_map]
    apply List.map_congr_left
    intro row _
    simp only [Function.comp_apply]
    split <;> rfl
  cases h with
  | same => exact hkeys
  | @created row db' hdb =>
    rw [Database.rows_of_insertJob hdb, List.map_append, List.nodup_append]
    refine ⟨hkeys, List.nodup_singleton _, fun key hkey key' hkey' => ?_⟩
    obtain ⟨row', hrow', rfl⟩ := List.mem_map.mp hkey
    rw [List.map_singleton, List.mem_singleton] at hkey'
    exact hkey' ▸ (Database.insertJob_isOk_iff.mp ⟨db', hdb⟩ row' hrow').1
  | lifecycle _ _ _ hdb =>
    obtain ⟨-, rfl⟩ := Database.recordStateEvent_eq_some hdb
    exact (updated db _ _).symm ▸ hkeys
  | finalized hdb =>
    obtain ⟨-, -, ⟨f, -, -, rfl⟩ | ⟨fins, -, -, rfl⟩⟩ := Database.finalizeJob_cases hdb
    · exact hkeys
    · exact (updated { db with jobFinalizations := fins } _ _).symm ▸ hkeys

/-- The databases of a deployment are among those the calls may start on. -/
theorem Deployment.submittedOnce_reachable {cfg : Deployment} {s : Deployment.State}
    (hs : cfg.lts.Reachable Lts.anyStep s) : s.shared.db.SubmittedOnce := by
  have hlaw := Deployment.history_lawful hs
  refine ⟨?_, ?_, ?_⟩
  · refine Lts.Reachable.invariant
      (P := fun s => (s.shared.db.jobs.rows.map JobRecord.idempotencyKey).Nodup)
      List.nodup_nil ?_ hs
    intro s a t _ hkeys _ h
    obtain ⟨g', l', ht, rfl⟩ := step_transition h
    exact keys_of_dbStep (ht.dbStep (G := fun _ _ => True) fun _ _ _ _ _ _ _ _ => trivial) hkeys
  · intro row hrow
    obtain ⟨e, es, hevents, he, hes⟩ := (hlaw row.id).submitted row
      (KeyedTable.get?_eq_some_iff.mpr ⟨hrow, rfl⟩)
    rw [show s.shared.db.eventsOf row.id = e :: es from hevents]
    have hnone : (es.filter fun e => e.eventType = .submitted) = [] :=
      List.filter_eq_nil_iff.mpr fun e' he' => by simpa using hes e' he'
    simp [he, hnone]
  · intro j hj
    exact congrArg JobHistory.events ((hlaw j).absent hj)

end AgentRuntimeGrid
