import AgentRuntimeGrid.Artifacts.Agreement
import AgentRuntimeGrid.Lib.FileTree

/-! The cleanup of a run's outputs against the files that the artifact store wrote: the store names
its directories by the job, the cleanup looks for one named by the run. -/
namespace AgentRuntimeGrid

/-- The files of the host, without symbolic links. -/
abbrev HostTree := FileTree PyStr PyBytes

def attemptFileName (attemptNumber : ℤ) : PyStr :=
  py "attempt-" ++ py (toString attemptNumber) ++ py ".json"

/-- `self.root / str(job.id) / f"attempt-{attempt_number}.json"`. -/
def artifactPath (root : List PyStr) (jobId : JobId) (attemptNumber : ℤ) : List PyStr :=
  root ++ [uuidText jobId] ++ [attemptFileName attemptNumber]

/-- The arguments of one call of `write_stub_job_artifact` and the time it reads. -/
structure ArtifactWrite where
  job : JobRecord
  workerId : String
  attemptNumber : ℤ
  createdAt : String
  result : Dict

def ArtifactWrite.path (root : List PyStr) (w : ArtifactWrite) : List PyStr :=
  artifactPath root w.job.id w.attemptNumber

/-- The host's files and, in order, the calls that have written their artifact to them. -/
structure ArtifactTree where
  tree : HostTree
  written : List ArtifactWrite

/-- `_upsert_eval_result_cross_link` at the path that a text leads to. Where it raises, what it did
before stays. -/
def linkEvalResult (env : Env) (locate : PyStr → List PyStr) (tree : HostTree)
    (m : ArtifactMetadata) (payload : Dict) : HostTree :=
  match m.evalResultPath with
  | none => tree
  | some p =>
    match tree.makeDirs (locate p).dropLast with
    | none => tree
    | some made =>
      match upsertEvalResultCrossLink env (fun _ => made.read (locate p)) p m payload with
      | .error _ => made
      | .ok linked => (made.write (locate p) linked).getD made

/-- `write_stub_job_artifact` on the host's files; where it raises, what it did before stays. -/
def ArtifactTree.write (env : Env) (locate : PyStr → List PyStr) (root : List PyStr)
    (s : ArtifactTree) (w : ArtifactWrite) : ArtifactTree :=
  match s.tree.makeDirs (root ++ [uuidText w.job.id]) with
  | none => s
  | some made =>
    match encodeStubJobArtifact env w.job w.workerId w.attemptNumber w.createdAt w.result with
    | .error _ => { s with tree := made }
    | .ok (m, encoded) =>
      match made.write (w.path root) encoded with
      | none => { s with tree := made }
      | some tree =>
        { tree := linkEvalResult env locate tree m (resultPayload w.result)
          written := s.written ++ [w] }

/-- The calls of a store one after another, on any files. -/
def writeArtifacts (env : Env) (locate : PyStr → List PyStr) (root : List PyStr) (tree : HostTree)
    (writes : List ArtifactWrite) : ArtifactTree :=
  writes.foldl (ArtifactTree.write env locate root) ⟨tree, []⟩

/-- One turn of the loop of `cleanup_run_outputs`: the files and the paths removed so far. -/
def removeOutput (s : HostTree × List (List PyStr)) (path : List PyStr) :
    HostTree × List (List PyStr) :=
  if s.1.isDir path then (s.1.remove path, s.2 ++ [path])
  else if (s.1.node path).isSome then (s.1.remove path, s.2 ++ [path])
  else s

def reportPath (reportsRoot : List PyStr) (runId : RunId) : List PyStr :=
  reportsRoot ++ [uuidText runId ++ py ".md"]

def cleanupRunOutputs (tree : HostTree) (runId : RunId) (artifactRoot reportsRoot : List PyStr) :
    HostTree × List (List PyStr) :=
  [artifactRoot ++ [uuidText runId], reportPath reportsRoot runId].foldl removeOutput (tree, [])

section Write
variable {env : Env} {locate : PyStr → List PyStr} {root : List PyStr}

/-- Every file of the one tree is a file of the other. -/
def HostTree.FilesIn (tree tree' : HostTree) : Prop :=
  ∀ q, (tree.read q).isSome = true → (tree'.read q).isSome = true

theorem filesIn_makeDirs {tree made : HostTree} {p : List PyStr} (h : tree.makeDirs p = some made) :
    tree.FilesIn made := by
  intro q hq
  rwa [FileTree.read_makeDirs h]

theorem filesIn_write {tree tree' : HostTree} {p : List PyStr} {content : PyBytes}
    (h : tree.write p content = some tree') : tree.FilesIn tree' := by
  intro q hq
  rw [FileTree.read_write h]
  split
  · rfl
  · exact hq

theorem filesIn_linkEvalResult (tree : HostTree) (m : ArtifactMetadata) (payload : Dict) :
    tree.FilesIn (linkEvalResult env locate tree m payload) := by
  unfold linkEvalResult
  intro q hq
  split
  · exact hq
  · split
    · exact hq
    next made hmade =>
      have hin := filesIn_makeDirs hmade q hq
      split
      · exact hin
      next linked _ =>
        cases hw : made.write (locate _) linked with
        | none => exact hin
        | some tree' => exact filesIn_write hw q hin

/-- A call keeps every file, and if it is counted as written, its artifact is there. -/
theorem ArtifactTree.write_spec (s : ArtifactTree) (w : ArtifactWrite) :
    s.tree.FilesIn (s.write env locate root w).tree ∧
      ((s.write env locate root w).written = s.written ∨
        (s.write env locate root w).written = s.written ++ [w] ∧
          ((s.write env locate root w).tree.read (w.path root)).isSome = true) := by
  unfold ArtifactTree.write
  split
  · exact ⟨fun _ hq => hq, .inl rfl⟩
  next made hmade =>
    have hin := filesIn_makeDirs hmade
    split
    · exact ⟨hin, .inl rfl⟩
    next m encoded _ =>
      split
      · exact ⟨hin, .inl rfl⟩
      next tree hwrite =>
        have hlink := @filesIn_linkEvalResult env locate tree m (resultPayload w.result)
        refine ⟨fun q hq => hlink q (filesIn_write hwrite q (hin q hq)), .inr ⟨rfl, ?_⟩⟩
        apply hlink
        rw [FileTree.read_write hwrite, if_pos rfl]
        rfl

theorem read_writeArtifacts (tree : HostTree) (writes : List ArtifactWrite) :
    ∀ w ∈ (writeArtifacts env locate root tree writes).written,
      ((writeArtifacts env locate root tree writes).tree.read (w.path root)).isSome = true := by
  unfold writeArtifacts
  induction writes using List.reverseRecOn with
  | nil => simp
  | append_singleton writes w ih =>
    rw [List.foldl_concat]
    obtain ⟨hin, hsame | ⟨hmore, hread⟩⟩ := @ArtifactTree.write_spec env locate root
      (writes.foldl (ArtifactTree.write env locate root) ⟨tree, []⟩) w
    · intro w' hw'
      exact hin _ (ih w' (hsame ▸ hw'))
    · intro w' hw'
      rw [hmore, List.mem_append, List.mem_singleton] at hw'
      rcases hw' with hw' | rfl
      · exact hin _ (ih w' hw')
      · exact hread

end Write

section Cleanup
variable {tree : HostTree} {artifactRoot reportsRoot : List PyStr} {runId : RunId}

theorem read_removeOutput (s : HostTree × List (List PyStr)) {path : List PyStr} (hp : path ≠ [])
    (q : List PyStr) :
    (removeOutput s path).1.read q = if path <+: q then none else s.1.read q := by
  unfold removeOutput
  split
  · exact FileTree.read_remove hp q
  · split
    · exact FileTree.read_remove hp q
    next habsent =>
      split
      next hpre =>
        exact FileTree.read_eq_none_of_prefix hpre (Option.not_isSome_iff_eq_none.mp habsent)
      · rfl

/-- The cleanup leaves the files that are neither below the directory named by the run nor the
run's report. -/
theorem read_cleanupRunOutputs (q : List PyStr) :
    (cleanupRunOutputs tree runId artifactRoot reportsRoot).1.read q =
      if artifactRoot ++ [uuidText runId] <+: q ∨ reportPath reportsRoot runId <+: q then none
      else tree.read q := by
  unfold cleanupRunOutputs
  rw [List.foldl_cons, List.foldl_cons, List.foldl_nil, read_removeOutput _ (by simp [reportPath]),
    read_removeOutput _ (by simp)]
  split_ifs <;> simp_all

theorem getLast?_reportName (runId : RunId) : (uuidText runId ++ py ".md").getLast? = some 100 := by
  rw [List.getLast?_append]
  rfl

theorem getLast?_attemptFileName (n : ℤ) : (attemptFileName n).getLast? = some 110 := by
  rw [attemptFileName, List.getLast?_append]
  rfl

/-- An artifact is removed with the directory of a run only if its job has the id of the run, or
with a report whose path leads to the artifacts. -/
theorem artifactPath_removed_iff {jobId : JobId} {n : ℤ} :
    (artifactRoot ++ [uuidText runId] <+: artifactPath artifactRoot jobId n ∨
        reportPath reportsRoot runId <+: artifactPath artifactRoot jobId n) ↔
      jobId = runId ∨ reportPath reportsRoot runId <+: artifactRoot := by
  have hdir : artifactRoot ++ [uuidText runId] <+: artifactPath artifactRoot jobId n ↔
      jobId = runId := by
    rw [artifactPath, List.append_assoc, List.prefix_append_right_inj]
    simp only [List.cons_append, List.nil_append, List.cons_prefix_cons, List.nil_prefix, and_true]
    exact ⟨fun h => (uuidText_injective h).symm, fun h => congrArg uuidText h.symm⟩
  have hreport : reportPath reportsRoot runId <+: artifactPath artifactRoot jobId n ↔
      reportPath reportsRoot runId <+: artifactRoot := by
    rw [artifactPath, List.prefix_concat_iff, List.prefix_concat_iff]
    constructor
    · rintro (heq | heq | h)
      · have hname := List.append_inj_right' heq rfl
        have hlast := congrArg List.getLast? (List.singleton_injective hname)
        rw [getLast?_reportName, getLast?_attemptFileName] at hlast
        exact absurd hlast (by decide)
      · have hname := List.append_inj_right' heq rfl
        have hlength := congrArg List.length (List.singleton_injective hname)
        rw [List.length_append, length_uuidText, length_uuidText] at hlength
        exact absurd hlength (by decide)
      · exact h
    · exact fun h => .inr (.inr h)
  rw [hdir, hreport]

end Cleanup

/-- The cleanup of a run removes every artifact of the run's jobs, and leaves every artifact of
other jobs as it was. -/
def CleansExactly (root : List PyStr) (s : ArtifactTree) (runId : RunId) (after : HostTree) :
    Prop :=
  ∀ w ∈ s.written,
    (w.job.runId = runId → after.read (w.path root) = none) ∧
      (w.job.runId ≠ runId → ∃ bytes, s.tree.read (w.path root) = some bytes ∧
        after.read (w.path root) = some bytes)

/-- The cleanup is exact when the jobs of the run are those whose own id is the run's, or, where the
report's path leads to the artifacts, all of them. -/
theorem cleanupRunOutputs_exact_iff (env : Env) (locate : PyStr → List PyStr)
    (root reportsRoot : List PyStr) (tree : HostTree) (writes : List ArtifactWrite)
    (runId : RunId) :
    let s := writeArtifacts env locate root tree writes
    CleansExactly root s runId (cleanupRunOutputs s.tree runId root reportsRoot).1 ↔
      ∀ w ∈ s.written, w.job.runId = runId ↔
        (w.job.id = runId ∨ reportPath reportsRoot runId <+: root) := by
  intro s
  refine forall₂_congr fun w hw => ?_
  obtain ⟨bytes, hbytes⟩ := Option.isSome_iff_exists.mp (read_writeArtifacts tree writes w hw)
  change s.tree.read (w.path root) = some bytes at hbytes
  rw [read_cleanupRunOutputs, hbytes, ArtifactWrite.path,
    ← @artifactPath_removed_iff root reportsRoot runId w.job.id w.attemptNumber]
  split
  next hremoved =>
    simp [hremoved]
  next hkept =>
    simp [hkept]

theorem written_writeArtifacts_empty (env : Env) (locate : PyStr → List PyStr)
    (root : List PyStr) {w : ArtifactWrite} {payload : Option Dict}
    (h : artifactPayload w.result = .ok payload) :
    (writeArtifacts env locate root .empty [w]).written = [w] := by
  obtain ⟨made, hmade⟩ := FileTree.makeDirs_empty_isSome (β := PyBytes)
    (root ++ [uuidText w.job.id])
  obtain ⟨m, encoded, hencoded, -, -⟩ := encodeStubJobArtifact_eq_ok env w.job w.workerId
    w.attemptNumber w.createdAt h
  have hfree : (FileTree.empty : HostTree).isDir (w.path root) = false := by
    unfold ArtifactWrite.path artifactPath
    cases root <;> rfl
  obtain ⟨tree, htree⟩ : ∃ tree, made.write (w.path root) encoded = some tree :=
    FileTree.write_makeDirs_isSome hmade hfree
  simp only [writeArtifacts, List.foldl_cons, List.foldl_nil, ArtifactTree.write, hmade, hencoded,
    htree, List.nil_append]

/-- The artifact of the only job of run two is still there after the cleanup of run two. -/
theorem cleanupRunOutputs_leaves_artifact :
    let w : ArtifactWrite := ⟨storedJob, "worker-1", 1, storedAt, []⟩
    let s := writeArtifacts storeEnv.toEnv (fun _ => []) [py "artifacts"] .empty [w]
    s.written = [w] ∧ w.job.runId = 2 ∧
      ((cleanupRunOutputs s.tree 2 [py "artifacts"] [py "reports"]).1.read
        (w.path [py "artifacts"])).isSome = true ∧
      ¬CleansExactly [py "artifacts"] s 2
        (cleanupRunOutputs s.tree 2 [py "artifacts"] [py "reports"]).1 := by
  intro w s
  have hwritten : s.written = [w] := written_writeArtifacts_empty storeEnv.toEnv _ _ rfl
  have hmem : w ∈ s.written := by simp [hwritten]
  have hread := read_writeArtifacts .empty [w] w hmem
  have hkept : (cleanupRunOutputs s.tree 2 [py "artifacts"] [py "reports"]).1.read
      (w.path [py "artifacts"]) = s.tree.read (w.path [py "artifacts"]) := by
    rw [read_cleanupRunOutputs, if_neg]
    rw [ArtifactWrite.path, artifactPath_removed_iff]
    rintro (hid | hprefix)
    · exact absurd hid (by decide)
    · exact absurd hprefix.length_le (by simp [reportPath])
  refine ⟨hwritten, rfl, by rw [hkept]; exact hread, fun hclean => ?_⟩
  have hgone := (hclean w hmem).1 rfl
  rw [hkept] at hgone
  exact absurd (hgone ▸ hread) (by decide)

end AgentRuntimeGrid
