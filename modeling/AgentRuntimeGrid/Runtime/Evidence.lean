import AgentRuntimeGrid.Runtime.Provenance

/-! The files behind the recorded artifacts. They stay as recorded as long as no write goes to a
path that a completed event names, or that an actor is about to record. -/
namespace AgentRuntimeGrid

/-- A completed event carries the metadata. -/
def Database.Records (db : Database) (metadata : ArtifactMetadata) : Prop :=
  ∃ e ∈ db.jobEvents, e.eventData.artifact = some metadata

/-- The file at the recorded path has the recorded size and digest. -/
def FileStore.Matches (env : Env) (files : FileStore) (metadata : ArtifactMetadata) : Prop :=
  ∃ bytes, files metadata.path = some bytes ∧ bytes.length = metadata.sizeBytes ∧
    env.sha256 bytes = metadata.sha256

namespace ActorState

/-- The files the next step writes to, given the action. -/
def targets (env : Env) : ActorState → Action → List FileRef
  | .worker (.writingArtifact m job _), .advance _ => [.artifact job.id m.attemptNumber]
  | .worker (.crossLinking _ _ _ _ p), .advance _ => [env.resolve p]
  | .worker (.executing _ _), .run writes _ => writes.map Prod.fst
  | _, _ => []

/-- The artifact that is written and not yet recorded. -/
def inFlight : ActorState → Option ArtifactMetadata
  | .worker (.crossLinking _ _ _ metadata _) => some metadata
  | .worker (.completing _ _ result) => result.artifact
  | _ => none

end ActorState

theorem FileStore.Matches.congr {env : Env} {files files' : FileStore}
    {metadata : ArtifactMetadata} (h : files.Matches env metadata)
    (heq : files' metadata.path = files metadata.path) : files'.Matches env metadata := by
  obtain ⟨bytes, hb, hspec⟩ := h
  exact ⟨bytes, heq.trans hb, hspec⟩

theorem Grid.files_writeFiles (g : Grid) (writes : List (FileRef × PyBytes)) {p : FileRef}
    (hp : p ∉ writes.map Prod.fst) : (g.writeFiles writes).files p = g.files p := by
  change (writes.foldl (fun fs w => fs.write w.1 w.2) g.files) p = g.files p
  generalize g.files = files
  induction writes generalizing files with
  | nil => rfl
  | cons w ws ih =>
    simp only [List.map_cons, List.mem_cons, not_or] at hp
    exact (ih hp.2 _).trans (FileStore.write_of_ne files w.2 hp.1)

theorem Transition.files_eq {cfg : Deployment} {i : ℕ} {g g' : Grid} {l l' : ActorState}
    {a : Action} (h : Transition cfg i g l a g' l') {p : FileRef}
    (hp : p ∉ l.targets cfg.env a) : g'.files p = g.files p := by
  cases h with
  | crash => rw [Grid.files_rollback]
  | worker h =>
    cases h with
    | artifactWritten henc =>
      refine g.files_writeFiles _ ?_
      rwa [List.map_singleton, (encodeStubJobArtifact_spec henc).1]
    | crossLinked => exact g.files_writeFiles _ hp
    | dispatchAck | acknowledged => rw [Grid.files_acknowledge]
    | _ => rfl
  | run => exact g.files_writeFiles _ hp
  | recovery h =>
    cases h with
    | acknowledged => rw [Grid.files_acknowledge]
    | _ => rfl
  | _ => rfl

/-- An artifact comes to be in flight when its file is written. -/
theorem Transition.inFlight {cfg : Deployment} {i : ℕ} {g g' : Grid} {l l' : ActorState}
    {a : Action} (h : Transition cfg i g l a g' l') {metadata : ArtifactMetadata}
    (hl' : l'.inFlight = some metadata) :
    l.inFlight = some metadata ∨ g'.files.Matches cfg.env metadata := by
  cases h with
  | worker h =>
    cases h with
    | artifactWritten henc hnext =>
      have hspec := encodeStubJobArtifact_spec henc
      have hmatches : ∀ md bytes,
          md.sizeBytes = List.length bytes → md.sha256 = cfg.env.sha256 bytes →
          (g.writeFiles [(md.path, bytes)]).files.Matches cfg.env md :=
        fun md bytes hsize hsha => ⟨bytes, FileStore.write_self _ _ _, hsize.symm, hsha.symm⟩
      right
      obtain rfl | ⟨p, -, rfl⟩ := hnext
      · obtain rfl := Option.some.inj hl'
        exact hmatches _ _ hspec.2.1 hspec.2.2
      · obtain rfl := Option.some.inj hl'
        exact hmatches _ _ hspec.2.1 hspec.2.2
    | crossLinked => exact .inl hl'
    | _ => cases hl'
  | @run m job writes outcome =>
    cases outcome with
    | success result =>
      change ActorState.inFlight (.worker (if _ then _ else _)) = _ at hl'
      split at hl' <;> cases hl'
    | _ => cases hl'
  | renewLease => exact .inl hl'
  | _ => cases hl'

namespace Deployment
variable {cfg : Deployment} {s t : State}

/-- The step writes to no path that a completed event names or that an actor between its artifact
write and its completion is about to record. -/
def NoOverwrite (cfg : Deployment) (s : State) (a : ℕ × Action) : Prop :=
  ∀ p ∈ (s.locals a.1).targets cfg.env a.2,
    (∀ metadata, s.shared.db.Records metadata → metadata.path ≠ p) ∧
    ∀ k metadata, (s.locals k).inFlight = some metadata → metadata.path ≠ p

/-- Every recorded artifact, and every one about to be recorded, is on disk as described. -/
def EvidenceIntact (cfg : Deployment) (s : State) : Prop :=
  (∀ metadata, s.shared.db.Records metadata → s.shared.files.Matches cfg.env metadata) ∧
  ∀ k metadata, (s.locals k).inFlight = some metadata → s.shared.files.Matches cfg.env metadata

/-- A new completed event records what its writer had in flight. -/
private theorem records_step {i : ℕ} {g g' : Grid} {l l' : ActorState} {a : Action}
    (h : Transition cfg i g l a g' l') {metadata : ArtifactMetadata}
    (hr : g'.db.Records metadata) : g.db.Records metadata ∨ l.inFlight = some metadata := by
  obtain ⟨e, he, hartifact⟩ := hr
  rcases h.jobEvents with heq | ⟨e', hwrite, heq⟩
  · exact .inl ⟨e, heq ▸ he, hartifact⟩
  · rw [heq, List.mem_append, List.mem_singleton] at he
    rcases he with he | rfl
    · exact .inl ⟨e, he, hartifact⟩
    · cases hwrite with
      | running => cases hartifact
      | completed => exact .inr hartifact
      | other _ hnone =>
        rw [hartifact] at hnone
        cases hnone

private theorem evidenceIntact_step {a : ℕ × Action} (hc : cfg.NoOverwrite s a)
    (h : cfg.lts.step s a = some t) (hs : cfg.EvidenceIntact s) : cfg.EvidenceIntact t := by
  obtain ⟨i, a⟩ := a
  obtain ⟨g', l', ht, rfl⟩ := step_transition h
  have hrecorded : ∀ metadata,
      s.shared.db.Records metadata → g'.files.Matches cfg.env metadata := by
    intro metadata hr
    refine (hs.1 metadata hr).congr (ht.files_eq fun hp => ?_)
    exact (hc metadata.path hp).1 metadata hr rfl
  have hflight : ∀ k metadata, (s.locals k).inFlight = some metadata →
      g'.files.Matches cfg.env metadata := by
    intro k metadata hk
    refine (hs.2 k metadata hk).congr (ht.files_eq fun hp => ?_)
    exact (hc metadata.path hp).2 k metadata hk rfl
  constructor
  · intro metadata hr
    exact (records_step ht hr).elim (hrecorded metadata) (hflight i metadata)
  · refine Actors.forall_locals_update
      (P := fun _ (l : ActorState) => ∀ metadata, l.inFlight = some metadata →
        g'.files.Matches cfg.env metadata)
      (fun metadata hl' => ?_) fun k _ => hflight k
    exact (ht.inFlight hl').elim (hflight i metadata) id

private theorem evidenceIntact_reachable (hs : cfg.lts.Reachable cfg.NoOverwrite s) :
    cfg.EvidenceIntact s := by
  refine Lts.Reachable.invariant (P := cfg.EvidenceIntact) ⟨?_, ?_⟩ ?_ hs
  · rintro metadata ⟨e, he, -⟩
    cases he
  · intro k metadata hk
    cases hk
  · intro s a t _ hinv hc h
    exact evidenceIntact_step hc h hinv

private theorem records_mono {a : ℕ × Action} (h : cfg.lts.step s a = some t)
    {metadata : ArtifactMetadata} (hr : s.shared.db.Records metadata) :
    t.shared.db.Records metadata := by
  obtain ⟨g', l', ht, rfl⟩ := step_transition h
  obtain ⟨e, he, hartifact⟩ := hr
  rcases ht.jobEvents with heq | ⟨e', -, heq⟩
  · exact ⟨e, heq ▸ he, hartifact⟩
  · exact ⟨e, heq ▸ List.mem_append_left _ he, hartifact⟩

/-- In a run that overwrites no evidence, the file of a recorded artifact keeps the recorded size
and digest, and its integrity check keeps its verdict. -/
theorem recorded_artifact_unchanged (hs : cfg.lts.Reachable cfg.NoOverwrite s)
    (hst : cfg.lts.Run cfg.NoOverwrite s t) {metadata : ArtifactMetadata}
    (hr : s.shared.db.Records metadata) :
    t.shared.files.Matches cfg.env metadata ∧
    validateArtifactIntegrity cfg.env t.shared.files metadata =
      validateArtifactIntegrity cfg.env s.shared.files metadata := by
  have keep : t.shared.db.Records metadata ∧
      t.shared.files metadata.path = s.shared.files metadata.path := by
    refine Lts.Run.preserves (P := fun u => u.shared.db.Records metadata ∧
      u.shared.files metadata.path = s.shared.files metadata.path) ?_ hst ⟨hr, rfl⟩
    intro u a v hu hc h
    refine ⟨records_mono h hu.1, Eq.trans ?_ hu.2⟩
    obtain ⟨g', l', ht, rfl⟩ := step_transition h
    exact ht.files_eq fun hp => (hc metadata.path hp).1 metadata hu.1 rfl
  exact ⟨(evidenceIntact_reachable (hs.trans hst)).1 metadata keep.1,
    validateArtifactIntegrity_congr keep.2⟩

/-- Workers with an artifact store. The digests are those of the empty payload and of the two
artifacts that the runs below write. -/
def artifactDeployment : Deployment where
  env := { sampleEnv with
    sha256 := fun data =>
      if data = [123, 125] then sampleEnv.sha256 data
      else if data.length = 329 then
        "fd446ec24c724a58e688b6df7fb01aaf7909d8e62d8f07c34f2b549e953ee834"
      else "2cf2bdce1fa43754d6ab2856db85b159359232c7562bf9c3b8ec476d7326f3f1" }
  worker i := ⟨"worker-" ++ toString i, .stub 2, true⟩

def stubResult : Dict :=
  [(py "summary", .str (py "stub job completed")), (py "input_keys", .arr [])]

/-- A job published twice, of which worker 1 has completed and recorded one attempt while worker
10 is ready to run the duplicate. -/
def recordedRun : List (ℕ × Action) :=
  [(0, .createJob stubSubmission), (0, .publishJob 1 1), (0, .publishJob 1 1), (1, .processOne),
    (1, .advance ""), (10, .processOne), (10, .advance ""), (1, .run [] (.success stubResult)),
    (1, .advance "2026-06-12T00:00:00+00:00"), (1, .advance "")]

private def recordsSome (s : State) : Option ArtifactMetadata :=
  s.shared.db.jobEvents.findSome? fun e => e.eventData.artifact

private theorem records_of_recordsSome {metadata : ArtifactMetadata}
    (h : recordsSome s = some metadata) : s.shared.db.Records metadata :=
  List.exists_of_findSome?_eq_some h

private def checkNoOverwrite (n : ℕ) (env : Env) (s : State) (a : ℕ × Action) : Bool :=
  ((s.locals a.1).targets env a.2).all fun p =>
    (s.shared.db.jobEvents.all fun e => e.eventData.artifact.all fun metadata =>
      metadata.path ≠ p) &&
    (List.range n).all fun k => (s.locals k).inFlight.all fun metadata => metadata.path ≠ p

private theorem noOverwrite_of_check {n : ℕ} (a : ℕ × Action)
    (hidle : ∀ k, n ≤ k → s.locals k = .idle) (h : checkNoOverwrite n cfg.env s a = true) :
    cfg.NoOverwrite s a := by
  intro p hp
  obtain ⟨hevents, hlocals⟩ := Bool.and_eq_true_iff.mp (List.all_eq_true.mp h p hp)
  constructor
  · rintro metadata ⟨e, he, hartifact⟩
    have := List.all_eq_true.mp hevents e he
    rw [hartifact] at this
    exact of_decide_eq_true this
  · intro k metadata hk
    by_cases hlt : k < n
    · have := List.all_eq_true.mp hlocals k (List.mem_range.mpr hlt)
      rw [hk] at this
      exact of_decide_eq_true this
    · rw [hidle k (not_lt.mp hlt)] at hk
      cases hk

/-- The run of worker 10 may fail: nothing is written over the artifact of worker 1. -/
theorem recorded_artifact_unchanged_failure : ∃ s t metadata,
    artifactDeployment.lts.Reachable artifactDeployment.NoOverwrite s ∧
    artifactDeployment.lts.Run artifactDeployment.NoOverwrite s t ∧
    s.shared.db.Records metadata ∧ t.shared.files.Matches artifactDeployment.env metadata := by
  obtain ⟨s, hs, hidle, hp⟩ := Actors.exists_run_of_exec_among (L := artifactDeployment.lts)
    (C := artifactDeployment.NoOverwrite) rfl 11 (fun s a => noOverwrite_of_check a)
    (s := artifactDeployment.lts.init) (fun _ _ => rfl) recordedRun
    (fun s => (recordsSome s).any fun _ => (artifactDeployment.lts.exec (Actors.among 11
      (checkNoOverwrite 11 artifactDeployment.env)) s
      [(10, .run [] .timedOut), (10, .advance ""), (10, .advance "")]).any fun _ => true)
    (by decide +kernel)
  obtain ⟨metadata, hr, hrun⟩ := (Option.any_eq_true _ _).mp hp
  obtain ⟨t, hst, -⟩ := Actors.exists_run_of_exec_among (L := artifactDeployment.lts)
    (C := artifactDeployment.NoOverwrite) rfl 11 (fun s a => noOverwrite_of_check a) hidle _ _ hrun
  have hr := records_of_recordsSome hr
  exact ⟨s, t, metadata, hs, hst, hr, (recorded_artifact_unchanged hs hst hr).1⟩

/-- Without the condition the worker with the duplicate message writes over the evidence. -/
theorem recorded_artifact_overwritten : ¬ ∀ s, artifactDeployment.lts.Reachable Lts.anyStep s →
    ∀ metadata, s.shared.db.Records metadata →
      s.shared.files.Matches artifactDeployment.env metadata := by
  intro claim
  obtain ⟨s, hs, hp⟩ := Lts.exists_reachable_of_exec artifactDeployment.lts
    (recordedRun ++ [(10, .run [] (.success stubResult)),
      (10, .advance "2026-06-12T00:00:01+00:00")])
    (fun s => (recordsSome s).any fun metadata => (s.shared.files metadata.path).all fun bytes =>
      bytes.length ≠ metadata.sizeBytes) (by decide +kernel)
  obtain ⟨metadata, hr, hsize⟩ := (Option.any_eq_true _ _).mp hp
  obtain ⟨bytes, hbytes, hlength, -⟩ := claim s hs metadata (records_of_recordsSome hr)
  rw [hbytes] at hsize
  exact of_decide_eq_true hsize hlength

end Deployment
end AgentRuntimeGrid
