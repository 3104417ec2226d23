import AgentRuntimeGrid.Artifacts.Verified
import AgentRuntimeGrid.Cli.Smoke
import AgentRuntimeGrid.Runtime.Drained
import AgentRuntimeGrid.Runtime.Journal

/-! The artifacts of a batch in the drain loop. Whatever the order of the workers' steps, the file
that a completed event names stands as it was recorded. -/
namespace AgentRuntimeGrid

/-- The workers keep artifacts, of results without a payload, and no attempt writes into the store
by itself. The libraries behave as documented at what is written. -/
structure Pool.Verifiable (p : Pool) (env : ReportEnv) (jobs : List JobRecord) : Prop where
  env_eq : p.env = env.toEnv
  documented : env.Documented
  hasArtifactStore : p.hasArtifactStore = true
  payload : ∀ j n result, p.outcome j n = .success result → artifactPayload result = .ok none
  summary : ∀ j n result, p.outcome j n = .success result →
    Json.Plain Json.indentedFormat ((Dict.get? result (py "summary")).getD (.str []))
  writes : ∀ j n ref bytes, (ref, bytes) ∈ p.writes j n → ∀ j' n', ref ≠ .artifact j' n'
  finds : ∀ job ∈ jobs, env.Finds (.artifact job.id (p.retries job + 1))
  maxRetries : ∀ job ∈ jobs, integerAccepts job.maxRetries = true

/-- The times that the workers write down are ISO texts. -/
def Drain.ClockTexts {n : ℕ} (env : ReportEnv) (_ : Drain n) (a : DrainAction n) : Prop :=
  ∀ i now, a = .work i now → env.ClockText now

variable {p : Pool} {env : ReportEnv} {jobs : List JobRecord} {job row : JobRecord} {k : ℕ}
  {e : EntryId} {n : ℕ}

theorem intReadable_attempt (hmax : integerAccepts job.maxRetries = true)
    (hk : k ≤ p.retryLimit job) : Json.intReadable (k + 1) := by
  simp only [integerAccepts, Bool.and_eq_true, decide_eq_true_eq] at hmax
  unfold Pool.retryLimit at hk
  have hlt : (k + 1 : ℤ).natAbs < 10 ^ 10 := by omega
  unfold Json.intReadable PyText.digits
  rw [List.length_map]
  exact ((Nat.length_toDigits_le_iff (by decide) (by decide)).mpr hlt).trans (by decide)

/-- What the attempt writes that succeeds is verified at once. -/
theorem Pool.Verifiable.written (hp : p.Verifiable env jobs) (hjob : job ∈ jobs)
    {db : Database} (h : Attempting p job k true (db.history job.id)) (hsame : job.SameJob row)
    {result : Dict} (hresult : p.outcome job.id (k + 1) = .success result) {workerId now : String}
    (hnow : env.ClockText now) {m : ArtifactMetadata} {bytes : PyBytes}
    (henc : encodeStubJobArtifact p.env row workerId (k + 1) now result = .ok (m, bytes))
    (files : FileStore) : m.Verified env (files.write m.path bytes) := by
  have hretries : p.retries job = k := p.retries_eq h.le h.transient (.inr (by rw [hresult]; rfl))
  rw [hp.env_eq] at henc
  refine verified_of_encode hp.documented hnow ?_
    (intReadable_attempt (hp.maxRetries job hjob) h.le) (hp.payload _ _ _ hresult)
    (hp.summary _ _ _ hresult) henc
  have hfinds := hp.finds job hjob
  rwa [hretries, ← hsame.id_eq] at hfinds

theorem completed_notMem_retriesLog (k : ℕ) (a : Option ℤ) :
    (EventType.completed, a) ∉ retriesLog k := by
  induction k with
  | zero =>
    intro h
    cases List.mem_singleton.mp h
  | succ k ih =>
    intro h
    simp only [retriesLog, attemptEntry, List.mem_append, List.mem_cons, List.not_mem_nil,
      or_false, Prod.mk.injEq, reduceCtorEq, false_and] at h
    exact ih h

theorem Attempting.not_completed {db : Database} {started : Bool}
    (h : Attempting p job k started (db.history job.id)) {ev : JobEvent} (hev : ev ∈ db.jobEvents)
    (htype : ev.eventType = .completed) : ev.jobId ≠ job.id := by
  intro hid
  have hmem : ev.logEntry ∈ (db.eventsOf job.id).map JobEvent.logEntry :=
    List.mem_map_of_mem (List.mem_filter.mpr ⟨hev, decide_eq_true hid⟩)
  rw [show (db.eventsOf job.id).map JobEvent.logEntry = _ from h.log, JobEvent.logEntry, htype,
    List.mem_append] at hmem
  rcases hmem with hmem | hmem
  · exact completed_notMem_retriesLog k _ hmem
  · cases started with
    | false => cases hmem
    | true => cases List.mem_singleton.mp hmem

namespace Drain
variable {s t : Drain n} {g₀ g' : Grid} {i : Fin n} {l' : ActorState} {a : Action}

/-- The artifact is that of the job, and verified. -/
def Keeps (env : ReportEnv) (files : FileStore) (j : JobId) (artifact : Option ArtifactMetadata) :
    Prop :=
  ∃ m, artifact = some m ∧ (∃ k, m.path = .artifact j k) ∧ m.Verified env files

theorem Keeps.congr {files files' : FileStore} {j : JobId} {artifact : Option ArtifactMetadata}
    (h : Keeps env files j artifact) (heq : ∀ k, files' (.artifact j k) = files (.artifact j k)) :
    Keeps env files' j artifact := by
  obtain ⟨m, hm, ⟨k, hpath⟩, hverified⟩ := h
  exact ⟨m, hm, ⟨k, hpath⟩, hverified.congr (by rw [hpath, heq k])⟩

/-- Every completed event of the batch, and every one about to be written, has an artifact. -/
structure Kept (env : ReportEnv) (jobs : List JobRecord) (s : Drain n) : Prop where
  recorded : ∀ ev ∈ s.grid.db.jobEvents, ev.eventType = .completed →
    ev.jobId ∈ jobs.map JobRecord.id →
    ∃ result, ev.eventData.result = some result ∧ Keeps env s.grid.files ev.jobId result.artifact
  completing : ∀ i m row result, s.workers i = .worker (.completing m row result) →
    Keeps env s.grid.files row.id result.artifact

theorem Invariant.job_of_completing (hs : s.Invariant p jobs g₀) {m : QueueJobMessage}
    {result : JobResult} (hi : s.workers i = .worker (.completing m row result)) :
    s.Holds (.inr i) row.id := by
  have hpool := hs.pool i
  rw [hi] at hpool
  cases hpool with
  | holding hjob hold =>
    have hid := hold.job_eq
    cases hold with
    | completing hrow =>
      change (s.workers i).job = _
      rw [hi, hid, hrow.id_eq]

private theorem files_eq (hp : p.Verifiable env jobs) (hs : s.Invariant p jobs g₀) {now : String}
    (h : p.deployment.localStep i s.grid (s.workers i) (p.action now (s.workers i)) =
      some (g', l')) {j : JobId}
    (hj : ∀ m row result, s.workers i = .worker (.writingArtifact m row result) → row.id ≠ j)
    (k : ℤ) : g'.files (.artifact j k) = s.grid.files (.artifact j k) := by
  refine (Deployment.localStep_transition h).files_eq ?_
  have hpool := hs.pool i
  generalize hl : s.workers i = l at hpool hj ⊢
  cases hpool with
  | holding hjob hold =>
    cases hold with
    | executing =>
      intro hmem
      obtain ⟨⟨ref, bytes⟩, hwrite, heq⟩ := List.mem_map.mp hmem
      exact hp.writes _ _ ref bytes hwrite j k heq
    | writingArtifact =>
      intro hmem
      cases List.mem_singleton.mp hmem
      exact hj _ _ _ rfl rfl
    | crossLinking hrow hresult hpayload =>
      rw [hp.payload _ _ _ hresult] at hpayload
      cases hpayload
    | _ =>
      intro hmem
      cases hmem
  | _ =>
    intro hmem
    cases hmem

/-- The worker that is about to write an artifact has its job alone, and not completed. -/
private theorem writing_ne (hs : s.Invariant p jobs g₀) {m : QueueJobMessage} {result : Dict}
    (hi : s.workers i = .worker (.writingArtifact m row result)) :
    (∀ ev ∈ s.grid.db.jobEvents, ev.eventType = .completed → row.id ≠ ev.jobId) ∧
    ∀ i' m' row' result', s.workers i' = .worker (.completing m' row' result') →
      row.id ≠ row'.id := by
  have hpool := hs.pool i
  rw [hi] at hpool
  cases hpool with
  | holding hjob hold =>
    have hheld : s.Holds (.inr i) _ := (congrArg ActorState.job hi).trans hold.job_eq
    cases hold with
    | writingArtifact hrow hresult h =>
      rw [hrow.id_eq]
      refine ⟨fun ev hev htype => (h.not_completed hev htype).symm, ?_⟩
      intro i' m' row' result' hi' heq
      have hsame := hs.alone _ _ _ hheld (heq ▸ hs.job_of_completing hi')
      cases hsame
      rw [hi] at hi'
      cases hi'

/-- What a worker is about to complete after its step, it has just written. -/
private theorem keeps_completing (hp : p.Verifiable env jobs) (hs : s.Invariant p jobs g₀)
    {now : String} (hnow : env.ClockText now) {m : QueueJobMessage} {result : JobResult}
    (h : p.deployment.localStep i s.grid (s.workers i) (p.action now (s.workers i)) =
      some (g', .worker (.completing m row result))) :
    Keeps env g'.files row.id result.artifact := by
  have ht := Deployment.localStep_transition h
  have hpool := hs.pool i
  generalize hl : s.workers i = l at h ht hpool
  cases hpool with
  | idle => cases ht
  | acknowledging => cases ht with | worker ht => cases ht
  | returned => cases ht with | worker ht => cases ht
  | holding hjob hold =>
    cases hold with
    | executing =>
      obtain ⟨-, heq⟩ := Prod.mk.inj (Option.some.inj h)
      have heq := ActorState.worker.inj heq
      unfold Worker.afterRun at heq
      split at heq
      · rw [if_pos (show Worker.hasArtifactStore _ = true from hp.hasArtifactStore)] at heq
        cases heq
      all_goals cases heq
    | crossLinking hrow hresult hpayload =>
      rw [hp.payload _ _ _ hresult] at hpayload
      cases hpayload
    | writingArtifact hrow hresult hattempt =>
      obtain ⟨hg, heq⟩ := Prod.mk.inj (Option.some.inj h)
      have heq := ActorState.worker.inj heq
      subst hg
      unfold Worker.writeArtifact at heq ⊢
      split at heq
      next => cases heq
      next metadata bytes henc =>
        split at heq
        next hpath =>
          cases heq
          obtain ⟨href, -, -⟩ := encodeStubJobArtifact_spec henc
          refine ⟨metadata, rfl, ⟨_, href⟩, ?_⟩
          exact hp.written hjob hattempt hrow hresult hnow henc s.grid.files
        next => cases heq
    | _ => cases ht with | worker ht => cases ht

private theorem kept_work (hp : p.Verifiable env jobs) (hs : s.Invariant p jobs g₀)
    (hkept : s.Kept env jobs) {now : String} (hnow : env.ClockText now)
    (h : p.deployment.localStep i s.grid (s.workers i) (p.action now (s.workers i)) =
      some (g', l')) : Kept env jobs ⟨g', Function.update s.workers i l', s.exited⟩ := by
  have hrecorded : ∀ ev ∈ s.grid.db.jobEvents, ev.eventType = .completed →
      ev.jobId ∈ jobs.map JobRecord.id →
      ∃ result, ev.eventData.result = some result ∧
        Keeps env g'.files ev.jobId result.artifact := by
    intro ev hev htype hjob
    obtain ⟨result, hresult, hkeeps⟩ := hkept.recorded ev hev htype hjob
    refine ⟨result, hresult, hkeeps.congr (files_eq hp hs h fun m row result hi => ?_)⟩
    exact (writing_ne hs hi).1 ev hev htype
  have hcompleting : ∀ i' m row result, s.workers i' = .worker (.completing m row result) →
      Keeps env g'.files row.id result.artifact := by
    intro i' m row result hi'
    refine (hkept.completing i' m row result hi').congr (files_eq hp hs h ?_)
    exact fun _ _ _ hi => (writing_ne hs hi).2 i' m row result hi'
  constructor
  · intro ev hev htype hjob
    rcases Deployment.localStep_journaled h with ⟨hdb, -⟩ | ⟨ev', happends, hdb⟩
    · exact hrecorded ev (hdb ▸ hev) htype hjob
    · rcases List.mem_append.mp (show ev ∈ s.grid.db.jobEvents ++ [ev'] from hdb ▸ hev) with
        hold | hnew
      · exact hrecorded ev hold htype hjob
      · obtain rfl := List.mem_singleton.mp hnew
        generalize hl : s.workers i = l at happends
        cases happends with
        | terminal hterminal =>
          cases hterminal with
          | @completed m job result now' =>
            exact ⟨result, rfl, hcompleting i m _ result hl⟩
          | handled hhandles => cases hhandles <;> cases htype
          | _ => cases htype
        | _ => cases htype
  · intro i' m row result hi'
    by_cases hi : i' = i
    · subst hi
      have hi' : Function.update s.workers i' l' i' = _ := hi'
      rw [Function.update_self] at hi'
      subst hi'
      exact keeps_completing hp hs hnow h
    · have hi' : Function.update s.workers i l' i' = _ := hi'
      rw [Function.update_of_ne hi] at hi'
      exact hcompleting i' m row result hi'

theorem kept_reachable {g : Grid} (h : g.Batch jobs) (hp : p.Verifiable env jobs)
    (hrecords : p.Records g.files)
    (hdispatch : ∀ job ∈ jobs, p.budgetPolicy.validateJobDispatch job = .ok ())
    (hs : (p.drain n g).Reachable (ClockTexts env) s) :
    s.Invariant p jobs g ∧ s.Kept env jobs := by
  refine Lts.Reachable.invariant (P := fun s => Drain.Invariant p jobs g s ∧ Kept env jobs s)
    ⟨.start h hrecords, ?_, ?_⟩ ?_ hs
  · -- only their submission has been recorded of the jobs of the batch
    intro ev hev htype hjob
    obtain ⟨job, hjob, hid⟩ := List.mem_map.mp hjob
    have hmem : ev ∈ g.db.eventsOf job.id := List.mem_filter.mpr ⟨hev, decide_eq_true hid.symm⟩
    rw [show g.db.eventsOf job.id = [submittedEvent job] from
      congrArg JobHistory.events (h.history job hjob)] at hmem
    cases List.mem_singleton.mp hmem
    cases htype
  · intro i m row result hi
    cases hi
  · rintro s a t - ⟨hs, hkept⟩ hclock hstep
    have hstep : p.step s a = some t := hstep
    refine ⟨(hs.step h.nodup hrecords hdispatch hstep).1, ?_⟩
    cases a with
    | work i now =>
      simp only [Pool.step] at hstep
      split at hstep
      · cases hstep
      · obtain ⟨⟨g', l'⟩, hlocal, rfl⟩ := Option.map_eq_some_iff.mp hstep
        exact kept_work hp hs hkept (hclock i now rfl) hlocal
    | renewLease i =>
      obtain ⟨⟨g', l'⟩, hlocal, rfl⟩ := Option.map_eq_some_iff.mp hstep
      generalize hi : s.workers i = l at hlocal
      cases l with
      | idle => cases hlocal
      | recovery st => cases hlocal
      | worker st =>
        obtain ⟨e, -, heq⟩ := Option.map_eq_some_iff.mp hlocal
        cases heq
        rw [← hi, Function.update_eq_self]
        exact ⟨hkept.recorded, hkept.completing⟩
    | gather =>
      simp only [Pool.step] at hstep
      split at hstep
      · cases hstep
      · split at hstep
        · split at hstep
          · obtain rfl := Option.some.inj hstep
            refine ⟨hkept.recorded, fun i m row result hi => ?_⟩
            cases hi
          · obtain rfl := Option.some.inj hstep
            exact ⟨hkept.recorded, hkept.completing⟩
        · cases hstep

end Drain
end AgentRuntimeGrid
