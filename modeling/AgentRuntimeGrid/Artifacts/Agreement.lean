import AgentRuntimeGrid.Artifacts.Records
import AgentRuntimeGrid.Lib.JsonEquality
import AgentRuntimeGrid.Worker.Loop

/-! Whether the integrity check accepts what the store wrote. The payload of a result is merged
over the fields that the check reads again, and the result path in it may name the artifact. -/
namespace AgentRuntimeGrid

/-- `artifact_payload or {}`. -/
def resultPayload (result : Dict) : Dict := ((artifactPayload result).toOption.bind id).getD []

/-- `write_stub_job_artifact` with no other writer: the metadata, and the files it leaves. -/
def writeStubJobArtifact (env : Env) (files : FileStore) (job : JobRecord) (workerId : String)
    (attemptNumber : ℤ) (createdAt : String) (result : Dict) :
    Except String (ArtifactMetadata × FileStore) := do
  let (m, encoded) ← encodeStubJobArtifact env job workerId attemptNumber createdAt result
  let files := files.write m.path encoded
  match m.evalResultPath with
  | none => return (m, files)
  | some p =>
    let linked ← upsertEvalResultCrossLink env files p m (resultPayload result)
    return (m, files.write (env.resolve p) linked)

/-- The fields of the content that the check compares, the result path apart. -/
def checkedKeys : List PyStr :=
  [py "job_id", py "run_id", py "attempt_number", py "input_digest", py "created_at"]

/-- `json.loads` reads back what `json.dumps` wrote, in the order of the text. -/
def ReadsSorted (env : Env) (d : Dict) : Prop :=
  env.jsonLoads (Json.dumps Json.indentedFormat env.floatRepr (.obj d)) = .ok (.obj d.sorted)

/-- A write changes nothing when the fields it sets are there already. -/
theorem dumps_update_sorted_iff {env : Env} {d e : Dict} (hd : (d.map Prod.fst).Nodup)
    (he : (e.map Prod.fst).Nodup) (hread : ReadsSorted env d)
    (hread' : ReadsSorted env (d.sorted.update e)) :
    Json.dumps Json.indentedFormat env.floatRepr (.obj (d.sorted.update e)) =
        Json.dumps Json.indentedFormat env.floatRepr (.obj d) ↔
      ∀ kv ∈ e, (Dict.get? d kv.1).map Json.sortKeys = some (Json.sortKeys kv.2) := by
  have hnodup := Json.nodup_update (Json.nodup_sorted hd) e
  have htext : Json.dumps Json.indentedFormat env.floatRepr (.obj (d.sorted.update e)) =
      Json.dumps Json.indentedFormat env.floatRepr (.obj d) ↔
      (d.sorted.update e).sorted = d.sorted := by
    constructor
    · intro heq
      rw [ReadsSorted, heq, hread] at hread'
      simpa [eq_comm] using hread'
    · intro heq
      rw [Json.dumps, Json.dumps, ← Json.dumpsAt_sortKeys 0 (.obj d), ← Json.dumpsAt_sortKeys 0]
      exact congrArg (fun d => Json.dumpsAt _ _ 0 (.obj d)) heq
  rw [htext, Json.sorted_eq_iff_get? hnodup hd]
  constructor
  · intro h kv hkv
    have hk := h kv.1
    rw [Json.get?_update he, (Json.get?_eq_some_iff he).mpr hkv] at hk
    exact hk.symm
  · intro h k
    rw [Json.get?_update he, Json.get?_sorted hd]
    cases hk : Dict.get? e k with
    | some v => exact (h (k, v) ((Json.get?_eq_some_iff he).mp hk)).symm
    | none =>
      rw [Option.none_or, Option.map_map]
      exact congrArg (fun f => (Dict.get? d k).map f) (funext Json.sortKeys_sortKeys)

/-- The payload has the three fields that the link sets, with the portable path of the artifact. -/
structure HoldsLink (job : JobRecord) (attemptNumber : ℤ) (payload : Dict) : Prop where
  caseId : (Dict.get? payload (py "case_id")).isSome = true
  qualityStatus : (Dict.get? payload (py "quality_status")).isSome = true
  runtimeArtifactPath : Dict.get? payload (py "runtime_artifact_path") =
    some (.str (portableArtifactPath job.id attemptNumber))

/-- Where the payload speaks of what the check compares, it says what the store would, its result
path is a text, and the link is not written over the artifact unless it is in there already. -/
structure PayloadAgrees (env : Env) (job : JobRecord) (attemptNumber : ℤ) (own payload : Dict) :
    Prop where
  fields : ∀ k ∈ checkedKeys, ∀ v w, Dict.get? payload k = some v → Dict.get? own k = some w →
    jsonScalarEq v w = true
  evalResultPath : ∀ v, Dict.get? payload (py "eval_result_path") = some v →
    v = .null ∨ ∃ p, v = .str p
  ownFile : ∀ p, Dict.get? payload (py "eval_result_path") = some (.str p) →
    env.resolve p = .artifact job.id attemptNumber → HoldsLink job attemptNumber payload

/-- Documented behaviour of the libraries at the values of one write: an integer is its own
`int`, the ISO text of the time is read and written as it is, the path text names the artifact,
and of the two contents that may stand in it each is read back and has a digest of its own. -/
structure LibraryAt (env : ReportEnv) (job : JobRecord) (attemptNumber : ℤ) (createdAt : String)
    (content linked : Dict) : Prop where
  intOf_int : ∀ n, env.intOf (.int n) = .ok n
  isoFormat_createdAt : env.isoFormat (py createdAt) = .ok (py createdAt)
  resolve_pathText : env.resolve (env.pathText (.artifact job.id attemptNumber)) =
    .artifact job.id attemptNumber
  readsBack_content : ReadsSorted env.toEnv content
  readsBack_linked : ReadsSorted env.toEnv linked
  collisionFree : ∀ a b, encodeIndented env.toEnv content = some a →
    encodeIndented env.toEnv linked = some b → env.sha256 a = env.sha256 b → a = b

theorem jsonScalarEq_sortKeys (v w : Json) :
    jsonScalarEq (Json.sortKeys v) w = jsonScalarEq v w := by
  cases v <;> cases w <;> rfl

section Content
variable {env : Env} {job : JobRecord} {workerId createdAt : String} {n : ℤ} {result : Dict}

theorem nodup_artifactContent (payload : Dict) :
    ((artifactContent env job workerId n createdAt result payload).map Prod.fst).Nodup :=
  Json.nodup_update (show ((artifactBaseContent job workerId n createdAt _ result).map
    Prod.fst).Nodup from by simp only [artifactBaseContent, List.map_cons, List.map_nil]; decide) _

/-- The payload is merged over the store's own fields. -/
theorem get?_artifactContent {payload : Dict} (h : (payload.map Prod.fst).Nodup) (k : PyStr) :
    Dict.get? (artifactContent env job workerId n createdAt result payload) k =
      (Dict.get? payload k).or
        (Dict.get? (artifactContent env job workerId n createdAt result []) k) :=
  Json.get?_update h _ k

theorem get?_artifactContent_link {payload : Dict} (h : (payload.map Prod.fst).Nodup) {k : PyStr}
    (hk : k ∈ [py "case_id", py "quality_status", py "runtime_artifact_path"]) :
    Dict.get? (artifactContent env job workerId n createdAt result payload) k =
      Dict.get? payload k := by
  have hnone : Dict.get? (artifactContent env job workerId n createdAt result []) k = none := by
    simp only [List.mem_cons, List.not_mem_nil, or_false] at hk
    rcases hk with rfl | rfl | rfl <;> rfl
  rw [get?_artifactContent h, hnone, Option.or_none]

theorem holdsLink_iff {m : ArtifactMetadata} (hjob : m.jobId = job.id) (hn : m.attemptNumber = n)
    {payload : Dict} (h : (payload.map Prod.fst).Nodup) :
    (∀ kv ∈ crossLinkFields m payload,
      (Dict.get? (artifactContent env job workerId n createdAt result payload) kv.1).map
        Json.sortKeys = some (Json.sortKeys kv.2)) ↔ HoldsLink job n payload := by
  have hget : ∀ v : Option Json, v.map Json.sortKeys = some (Json.sortKeys (v.getD .null)) ↔
      v.isSome = true := by
    intro v
    cases v <;> simp
  have hpath : ∀ (v : Option Json) (s : PyStr),
      v.map Json.sortKeys = some (Json.sortKeys (.str s)) ↔ v = some (.str s) := by
    intro v s
    constructor
    · intro hv
      obtain ⟨w, rfl, hw⟩ := Option.map_eq_some_iff.mp hv
      cases w <;> simp_all [Json.sortKeys]
    · rintro rfl
      rfl
  simp only [crossLinkFields, List.forall_mem_cons, List.not_mem_nil, false_implies,
    implies_true, and_true, hjob, hn]
  rw [get?_artifactContent_link h (by simp), get?_artifactContent_link h (by simp),
    get?_artifactContent_link h (by simp), hget, hget, hpath]
  constructor
  · rintro ⟨hcase, hquality, hruntime⟩
    exact ⟨hcase, hquality, hruntime⟩
  · intro hholds
    exact ⟨hholds.caseId, hholds.qualityStatus, hholds.runtimeArtifactPath⟩

/-- The store's own values of the fields that are checked are the ones expected. -/
theorem checkedFields_eq {digest : String}
    (hdigest : payloadSha256 env job.payload.fields = some digest) :
    checkedKeys.map (fun k => (k,
      (Dict.get? (artifactContent env job workerId n createdAt result []) k).getD .null)) =
    [(py "job_id", .str (uuidText job.id)), (py "run_id", .str (uuidText job.runId)),
      (py "attempt_number", .int n), (py "input_digest", .str (py digest)),
      (py "created_at", .str (py createdAt))] := by
  rw [artifactContent, hdigest]
  rfl

theorem exists_checked {k : PyStr} (hk : k ∈ checkedKeys) :
    ∃ w, Dict.get? (artifactContent env job workerId n createdAt result []) k = some w ∧
      jsonScalarEq w w = true := by
  simp only [checkedKeys, List.mem_cons, List.not_mem_nil, or_false] at hk
  rcases hk with rfl | rfl | rfl | rfl | rfl <;> exact ⟨_, rfl, by simp [jsonScalarEq]⟩

/-- A field is found as expected when the payload has none of that name or an equal one. -/
theorem checked_iff {payload : Dict} (h : (payload.map Prod.fst).Nodup) {k : PyStr}
    (hk : k ∈ checkedKeys) :
    jsonScalarEq ((Dict.get? (artifactContent env job workerId n createdAt result payload).sorted
        k).getD .null)
      ((Dict.get? (artifactContent env job workerId n createdAt result []) k).getD .null) = true ↔
    ∀ v w, Dict.get? payload k = some v →
      Dict.get? (artifactContent env job workerId n createdAt result []) k = some w →
      jsonScalarEq v w = true := by
  obtain ⟨w, hw, hself⟩ :
      ∃ w, Dict.get? (artifactContent env job workerId n createdAt result []) k = some w ∧
        jsonScalarEq w w = true := exists_checked hk
  rw [Json.get?_sorted (nodup_artifactContent payload), get?_artifactContent h, hw]
  cases Dict.get? payload k with
  | none => simpa [jsonScalarEq_sortKeys] using hself
  | some v => simp [jsonScalarEq_sortKeys]

/-- The result path is found as expected when it is absent, `None` or a text. -/
theorem checkedPath_iff {payload : Dict} (h : (payload.map Prod.fst).Nodup) :
    (∀ p, evalResultPathText env payload = some p →
      jsonScalarEq ((Dict.get? (artifactContent env job workerId n createdAt result payload).sorted
        (py "eval_result_path")).getD .null) (.str p) = true) ↔
    ∀ v, Dict.get? payload (py "eval_result_path") = some v → v = .null ∨ ∃ p, v = .str p := by
  have hown : Dict.get? (artifactContent env job workerId n createdAt result [])
      (py "eval_result_path") = none := rfl
  rw [Json.get?_sorted (nodup_artifactContent payload), get?_artifactContent h, hown,
    Option.or_none, evalResultPathText]
  cases Dict.get? payload (py "eval_result_path") with
  | none => simp
  | some v => cases v <;> simp [jsonScalarEq, Json.sortKeys, Env.str]

/-- The fields of the content are as the metadata says when the payload agrees on them. -/
theorem expectedFields_iff {payload : Dict} (h : (payload.map Prod.fst).Nodup) {digest : String}
    (hdigest : payloadSha256 env job.payload.fields = some digest) {m : ArtifactMetadata}
    {path : FileRef} {size : ℕ} {sha : String}
    (hm : m = ⟨path, size, sha, job.id, job.runId, n, digest, createdAt,
      evalResultPathText env payload⟩) :
    (∀ f ∈ expectedFields m,
      jsonScalarEq ((Dict.get? (artifactContent env job workerId n createdAt result payload).sorted
        f.1).getD .null) f.2 = true) ↔
    (∀ k ∈ checkedKeys, ∀ v w, Dict.get? payload k = some v →
      Dict.get? (artifactContent env job workerId n createdAt result []) k = some w →
      jsonScalarEq v w = true) ∧
    ∀ v, Dict.get? payload (py "eval_result_path") = some v → v = .null ∨ ∃ p, v = .str p := by
  have hexpected : expectedFields m = checkedKeys.map (fun k => (k,
      (Dict.get? (artifactContent env job workerId n createdAt result []) k).getD .null)) ++
      match evalResultPathText env payload with
      | none => []
      | some p => [(py "eval_result_path", .str p)] := by
    rw [checkedFields_eq hdigest, hm]
    rfl
  rw [hexpected, List.forall_mem_append, List.forall_mem_map]
  have hpath := @checkedPath_iff env job workerId createdAt n result payload h
  refine and_congr (forall₂_congr fun k hk => checked_iff h hk) (Iff.trans ?_ hpath)
  cases evalResultPathText env payload <;> simp

end Content

section Write
variable {env : Env} {files files' : FileStore} {job : JobRecord} {workerId createdAt : String}
  {n : ℤ} {result : Dict} {m : ArtifactMetadata}

theorem resultPayload_eq {payload : Option Dict} (h : artifactPayload result = .ok payload) :
    resultPayload result = payload.getD [] := by
  rw [resultPayload, h]
  rfl

theorem evalResultPathText_getD (payload : Option Dict) :
    payload.bind (evalResultPathText env) = evalResultPathText env (payload.getD []) := by
  cases payload <;> rfl

/-- What is returned, the text written first, and the files at the end. -/
theorem writeStubJobArtifact_inv
    (h : writeStubJobArtifact env files job workerId n createdAt result = .ok (m, files')) :
    ∃ digest bytes, payloadSha256 env job.payload.fields = some digest ∧
      encodeIndented env (artifactContent env job workerId n createdAt result
        (resultPayload result)) = some bytes ∧
      m = ⟨.artifact job.id n, bytes.length, env.sha256 bytes, job.id, job.runId, n, digest,
        createdAt, evalResultPathText env (resultPayload result)⟩ ∧
      (m.evalResultPath = none ∧ files' = files.write m.path bytes ∨
        ∃ p linked, m.evalResultPath = some p ∧
          upsertEvalResultCrossLink env (files.write m.path bytes) p m (resultPayload result) =
            .ok linked ∧
          files' = (files.write m.path bytes).write (env.resolve p) linked) := by
  unfold writeStubJobArtifact at h
  cases hencode : encodeStubJobArtifact env job workerId n createdAt result with
  | error e => simp [hencode, bind, Except.bind] at h
  | ok r =>
    obtain ⟨m', bytes⟩ := r
    obtain ⟨digest, payload, hdigest, hpayload, hbytes, hm⟩ := encodeStubJobArtifact_inv hencode
    rw [evalResultPathText_getD, ← resultPayload_eq hpayload] at hm
    rw [← resultPayload_eq hpayload] at hbytes
    simp only [hencode, bind, Except.bind, pure, Except.pure] at h
    cases hpath : m'.evalResultPath with
    | none =>
      simp only [hpath] at h
      cases h
      exact ⟨digest, bytes, hdigest, hbytes, hm, .inl ⟨hpath, rfl⟩⟩
    | some p =>
      simp only [hpath] at h
      cases hlinked : upsertEvalResultCrossLink env (files.write m'.path bytes) p m'
          (resultPayload result) with
      | error e => simp [hlinked] at h
      | ok linked =>
        simp only [hlinked] at h
        cases h
        exact ⟨digest, bytes, hdigest, hbytes, hm, .inr ⟨p, linked, hpath, hlinked, rfl⟩⟩

/-- The two steps of a worker, without another writer between them, are the call. -/
theorem worker_writes {w : Worker} {g : Grid} {q : QueueJobMessage} {now : String}
    (h : writeStubJobArtifact env g.files job w.workerId q.attemptNumber now result =
      .ok (m, files')) :
    w.writeArtifact g env now q job result =
        ({ g with files := files' }, .completing q job ⟨result, some m⟩) ∨
      ∃ g₁ p, w.writeArtifact g env now q job result = (g₁, .crossLinking q job result m p) ∧
        Worker.crossLink g₁ env q job result m p =
          ({ g with files := files' }, .completing q job ⟨result, some m⟩) := by
  unfold writeStubJobArtifact at h
  cases hencode : encodeStubJobArtifact env job w.workerId q.attemptNumber now result with
  | error e => simp [hencode, bind, Except.bind] at h
  | ok r =>
    obtain ⟨m', bytes⟩ := r
    simp only [hencode, bind, Except.bind, pure, Except.pure] at h
    cases hpath : m'.evalResultPath with
    | none =>
      simp only [hpath] at h
      cases h
      left
      simp only [Worker.writeArtifact, hencode, hpath]
      rfl
    | some p =>
      simp only [hpath] at h
      cases hlinked : upsertEvalResultCrossLink env (g.files.write m'.path bytes) p m'
          (resultPayload result) with
      | error e => simp [hlinked] at h
      | ok linked =>
        simp only [hlinked] at h
        cases h
        refine .inr ⟨g.writeFiles [(m.path, bytes)], p, ?_, ?_⟩
        · simp only [Worker.writeArtifact, hencode, hpath]
        · have hupsert : upsertEvalResultCrossLink env (g.writeFiles [(m.path, bytes)]).files p m
              (resultPayload result) = .ok linked := hlinked
          unfold resultPayload at hupsert
          simp only [Worker.crossLink, hupsert]
          rfl

theorem encodeIndented_eq (env : Env) (d : Dict) :
    encodeIndented env d = some (Json.dumps Json.indentedFormat env.floatRepr (.obj d)) :=
  PyText.utf8Encode_ascii (Json.dumps_indented_ascii env.floatRepr_ascii (.obj d))

/-- The text of the artifact with the link in it. -/
def linkedText (env : Env) (job : JobRecord) (workerId : String) (n : ℤ) (createdAt : String)
    (result : Dict) (m : ArtifactMetadata) : PyStr :=
  Json.dumps Json.indentedFormat env.floatRepr (.obj
    ((artifactContent env job workerId n createdAt result (resultPayload result)).sorted.update
      (crossLinkFields m (resultPayload result))))

/-- A link that is written elsewhere leaves the artifact as it was written. -/
theorem stored_of_ne
    (h : writeStubJobArtifact env files job workerId n createdAt result = .ok (m, files'))
    (hne : ∀ p, m.evalResultPath = some p → env.resolve p ≠ m.path) :
    files' m.path = some (Json.dumps Json.indentedFormat env.floatRepr (.obj
      (artifactContent env job workerId n createdAt result (resultPayload result)))) := by
  obtain ⟨digest, bytes, -, hbytes, -, hfiles⟩ := writeStubJobArtifact_inv h
  rw [← encodeIndented_eq, hbytes]
  rcases hfiles with ⟨-, rfl⟩ | ⟨p, linked, hp, -, rfl⟩
  · exact FileStore.write_self _ _ _
  · rw [FileStore.write_of_ne _ _ (Ne.symm (hne p hp)), FileStore.write_self]

/-- A link to the artifact itself replaces it. -/
theorem stored_of_eq
    (h : writeStubJobArtifact env files job workerId n createdAt result = .ok (m, files'))
    (hread : ReadsSorted env
      (artifactContent env job workerId n createdAt result (resultPayload result)))
    {p : PyStr} (hp : m.evalResultPath = some p) (heq : env.resolve p = m.path) :
    files' m.path = some (linkedText env job workerId n createdAt result m) := by
  obtain ⟨digest, bytes, -, hbytes, -, hfiles⟩ := writeStubJobArtifact_inv h
  rcases hfiles with ⟨hnone, -⟩ | ⟨p', linked, hp', hupsert, rfl⟩
  · rw [hp] at hnone
    cases hnone
  · obtain rfl : p = p' := Option.some.inj (hp.symm.trans hp')
    have hfile : files.write m.path bytes (env.resolve p) = some bytes := by
      rw [heq, FileStore.write_self]
    obtain ⟨linked', hlinked', hupsert'⟩ :=
      upsertEvalResultCrossLink_eq m (resultPayload result) hbytes hfile hread
    rw [hupsert] at hupsert'
    cases hupsert'
    rw [heq, FileStore.write_self, ← hlinked', encodeIndented_eq]
    rfl

theorem linkedText_eq_iff (hjob : m.jobId = job.id) (hn : m.attemptNumber = n)
    (hkeys : ((resultPayload result).map Prod.fst).Nodup)
    (hread : ReadsSorted env
      (artifactContent env job workerId n createdAt result (resultPayload result)))
    (hread' : ReadsSorted env ((artifactContent env job workerId n createdAt result
      (resultPayload result)).sorted.update (crossLinkFields m (resultPayload result)))) :
    linkedText env job workerId n createdAt result m =
      Json.dumps Json.indentedFormat env.floatRepr (.obj
        (artifactContent env job workerId n createdAt result (resultPayload result))) ↔
    HoldsLink job n (resultPayload result) :=
  (dumps_update_sorted_iff (nodup_artifactContent _)
    (show ((crossLinkFields m _).map Prod.fst).Nodup from by
      simp only [crossLinkFields, List.map_cons, List.map_nil]; decide) hread hread').trans
    (holdsLink_iff hjob hn hkeys)

theorem evalResultPathText_eq_some {payload : Dict} {p : PyStr}
    (h : evalResultPathText env payload = some p) :
    ∃ v, Dict.get? payload (py "eval_result_path") = some v ∧ v ≠ .null ∧ env.str v = p := by
  unfold evalResultPathText at h
  split at h
  · cases h
  · cases h
  · next v hne hv =>
    cases h
    exact ⟨v, hv, hne, rfl⟩

end Write

section Check
variable {env : ReportEnv} {files : FileStore} {m : ArtifactMetadata}
  (hresolve : env.resolve (m.record env).path = m.path)
include hresolve

theorem sha256_of_intact (h : (m.record env).Intact env.toEnv files) :
    ∃ bytes, files m.path = some bytes ∧ env.sha256 bytes = m.sha256 := by
  obtain ⟨bytes, text, content, hfile, -, hsha, -⟩ := h
  rw [hresolve] at hfile
  exact ⟨bytes, hfile, py_inj.mp hsha⟩

/-- Where the file is the recorded text of an object, the check compares the object's fields. -/
theorem intact_iff_of_stored {d : Dict} {bytes : PyBytes} (hread : ReadsSorted env.toEnv d)
    (hbytes : encodeIndented env.toEnv d = some bytes) (hstored : files m.path = some bytes)
    (hsize : m.sizeBytes = bytes.length) (hsha : m.sha256 = env.sha256 bytes) :
    (m.record env).Intact env.toEnv files ↔ ∀ f ∈ expectedFields m,
      jsonScalarEq ((Dict.get? d.sorted f.1).getD .null) f.2 = true := by
  obtain rfl : Json.dumps Json.indentedFormat env.floatRepr (.obj d) = bytes :=
    Option.some.inj ((encodeIndented_eq env.toEnv d).symm.trans hbytes)
  have hdecode := PyText.utf8Decode_ascii (Json.dumps_indented_ascii env.floatRepr_ascii (.obj d))
  constructor
  · rintro ⟨bytes', text, content, hfile, -, -, htext, hloads, hchecked⟩
    rw [hresolve, hstored] at hfile
    cases hfile
    cases hdecode.symm.trans htext
    cases hread.symm.trans hloads
    exact hchecked
  · intro hchecked
    exact ⟨_, _, d.sorted, by rw [hresolve, hstored], congrArg Nat.cast hsize.symm,
      congrArg py hsha.symm, hdecode, hread, hchecked⟩

end Check

/-- The store's metadata is read back as it is, and the check accepts what was written exactly
when the payload agrees with the store on what the check compares. -/
theorem written_artifact_accepted_iff {env : ReportEnv} {files files' : FileStore}
    {job : JobRecord} {workerId createdAt : String} {n : ℤ} {result : Dict} {m : ArtifactMetadata}
    (hwrite : writeStubJobArtifact env.toEnv files job workerId n createdAt result =
      .ok (m, files'))
    (hkeys : ((resultPayload result).map Prod.fst).Nodup)
    (hlib : LibraryAt env job n createdAt
      (artifactContent env.toEnv job workerId n createdAt result (resultPayload result))
      ((artifactContent env.toEnv job workerId n createdAt result
        (resultPayload result)).sorted.update (crossLinkFields m (resultPayload result)))) :
    ArtifactRecord.fromDict env (m.toDict env) = .ok (m.record env) ∧
    ((m.record env).validateIntegrity env.toEnv files' = .ok () ↔
      PayloadAgrees env.toEnv job n (artifactContent env.toEnv job workerId n createdAt result [])
        (resultPayload result)) := by
  obtain ⟨digest, bytes, hdigest, hbytes, hm, -⟩ := writeStubJobArtifact_inv hwrite
  constructor
  · rw [ArtifactRecord.fromDict_toDict, hlib.intOf_int, hlib.intOf_int,
      show m.createdAt = createdAt by rw [hm], hlib.isoFormat_createdAt, hm]
    rfl
  · have htext := Option.some.inj ((encodeIndented_eq env.toEnv _).symm.trans hbytes)
    have hresolve : env.resolve (m.record env).path = m.path := by
      rw [hm]
      exact hlib.resolve_pathText
    have hkept : (∀ p, m.evalResultPath = some p → env.resolve p ≠ m.path) →
        files' m.path = some bytes := htext ▸ stored_of_ne hwrite
    have hlinked : ∀ p, m.evalResultPath = some p → env.resolve p = m.path →
        files' m.path = some (linkedText env.toEnv job workerId n createdAt result m) :=
      fun p => stored_of_eq hwrite hlib.readsBack_content
    have hlink : linkedText env.toEnv job workerId n createdAt result m = bytes ↔
        HoldsLink job n (resultPayload result) :=
      htext ▸ linkedText_eq_iff (by rw [hm]) (by rw [hm]) hkeys hlib.readsBack_content
        hlib.readsBack_linked
    have hfields := @expectedFields_iff env.toEnv job workerId createdAt n result _ hkeys digest
      hdigest m _ _ _ hm
    have hintact := fun hstored : files' m.path = some bytes =>
      (intact_iff_of_stored hresolve hlib.readsBack_content hbytes hstored (by rw [hm])
        (by rw [hm])).trans hfields
    have hevalPath : ∀ s, Dict.get? (resultPayload result) (py "eval_result_path") =
        some (.str s) → m.evalResultPath = some s := by
      intro s hs
      rw [hm]
      simp only [evalResultPathText, hs]
      rfl
    have hpath : m.path = .artifact job.id n := by rw [hm]
    rw [ArtifactRecord.validateIntegrity_eq_ok]
    by_cases hself : ∀ p, m.evalResultPath = some p → env.resolve p ≠ m.path
    · rw [hintact (hkept hself)]
      constructor
      · intro h
        exact ⟨h.1, h.2, fun s hs heq => absurd (heq.trans hpath.symm) (hself s (hevalPath s hs))⟩
      · intro h
        exact ⟨h.fields, h.evalResultPath⟩
    · -- the link stands over the artifact, and has its digest only when it is the same text
      push Not at hself
      obtain ⟨p, hp, heq⟩ := hself
      have hstored := hlinked p hp heq
      constructor
      · intro h
        obtain ⟨bytes', hfile, hsha⟩ := sha256_of_intact hresolve h
        rw [hstored] at hfile
        cases hfile
        have hrecorded : m.sha256 = env.sha256 bytes := by rw [hm]
        have hsame : bytes = linkedText env.toEnv job workerId n createdAt result m :=
          hlib.collisionFree _ _ hbytes (encodeIndented_eq _ _) (hrecorded.symm.trans hsha.symm)
        have hchecked := (hintact (by rw [hstored, hsame])).mp h
        exact ⟨hchecked.1, hchecked.2, fun _ _ _ => hlink.mp hsame.symm⟩
      · intro h
        have htextPath : evalResultPathText env.toEnv (resultPayload result) = some p := by
          rw [← hp, hm]
        obtain ⟨v, hv, hne, hstr⟩ := evalResultPathText_eq_some htextPath
        obtain ⟨s, rfl⟩ := (h.evalResultPath v hv).resolve_left hne
        obtain rfl : s = p := hstr
        have hholds := h.ownFile s hv (heq.trans hpath)
        exact (hintact (by rw [hstored, hlink.mpr hholds])).mpr ⟨h.fields, h.evalResultPath⟩

/-- Reads what is no object as an empty one. -/
def objectLoads (text : PyStr) : Except LoadsError Json :=
  match Json.loads (fun _ => .nan) text with
  | .ok (.obj d) => .ok (.obj d)
  | _ => .ok (.obj [])

theorem exists_objectLoads (text : PyStr) : ∃ d, objectLoads text = .ok (.obj d) := by
  unfold objectLoads
  split
  · exact ⟨_, rfl⟩
  · exact ⟨_, rfl⟩

/-- The library at the writes of `storedJob`: the digests are those of its texts, told apart by
their lengths. -/
def storeEnv : ReportEnv where
  sha256 data := match data.length with
    | 2 => "44136fa355b3678a1146ad16f7e8649e94fb4fc21fe77e8310c060f61caaff8a"
    | 313 => "880b6100928093023f6a7549d2e4e4918101051aeda0a72d8a0c1f95005a08b6"
    | 374 => "355279ab735cc547dab744b96603cf51cb16f3d6fc5fd06b1eb762a3689a6940"
    | 493 => "0e7a6ea80d8149497149901cc7765e35b10011ff6b7138ebcc77aaa3919633fb"
    | _ => ""
  floatRepr _ := []
  strOther _ := []
  jsonLoads := objectLoads
  resolve text := if text = py "artifacts/1/attempt-1.json" then .artifact 1 1 else .other ""
  floatRepr_ascii := noText_ascii
  strOther_storable := noText_storable
  jsonLoads_dumps _ := exists_objectLoads _
  intOf v := match v with
    | .int n => .ok n
    | _ => .error "TypeError"
  isoFormat := .ok
  pathText _ := py "artifacts/1/attempt-1.json"
  trueDiv a b := .finite (a / b)
  percent _ := "100.00%"
  fixed3 _ := "0.000"

def storedJob : JobRecord where
  id := 1
  runId := 2
  jobType := "stub"
  payload := ⟨[], jsonbStorable_nil⟩
  payloadHash := "44136fa355b3678a1146ad16f7e8649e94fb4fc21fe77e8310c060f61caaff8a"
  idempotencyKey := "key"
  status := .running
  timeoutSeconds := 30
  maxRetries := 1
  traceId := "trace"
  budgetCents := none

def storedAt : String := "2026-01-01T00:00:00+00:00"

/-- A result whose payload is a case and the path of an evaluation result. -/
def linkingResult : Dict :=
  [(py "summary", .str (py "ok")), (py "artifact_payload", .obj [(py "case_id", .str (py "c")),
    (py "eval_result_path", .str (py "reports/eval.json"))])]

def linkingContent : Dict :=
  artifactContent storeEnv.toEnv storedJob "worker-0" 1 storedAt linkingResult
    (resultPayload linkingResult)

def linkingLink : Dict :=
  [(py "case_id", .str (py "c")), (py "quality_status", .null),
    (py "runtime_artifact_path", .str (portableArtifactPath 1 1))]

theorem readsBack_linkingContent : ReadsSorted storeEnv.toEnv linkingContent := by
  unfold ReadsSorted
  decide +kernel

theorem readsBack_linkingLink :
    ReadsSorted storeEnv.toEnv (linkingContent.sorted.update linkingLink) := by
  unfold ReadsSorted
  decide +kernel

/-- An ordinary result is written and accepted. -/
theorem written_artifact_accepted_iff_linking : ∃ m files',
    writeStubJobArtifact storeEnv.toEnv (fun _ => none) storedJob "worker-0" 1 storedAt
      linkingResult = .ok (m, files') ∧
    (m.record storeEnv).validateIntegrity storeEnv.toEnv files' = .ok () := by
  have hok : (writeStubJobArtifact storeEnv.toEnv (fun _ => none) storedJob "worker-0" 1 storedAt
      linkingResult).toOption.isSome = true := by decide +kernel
  cases hwrite : writeStubJobArtifact storeEnv.toEnv (fun _ => none) storedJob "worker-0" 1
      storedAt linkingResult with
  | error e =>
    rw [hwrite] at hok
    cases hok
  | ok r =>
    obtain ⟨m, files'⟩ := r
    refine ⟨m, files', rfl, ?_⟩
    obtain ⟨digest, bytes, -, -, hm, -⟩ := writeStubJobArtifact_inv hwrite
    have hlink : crossLinkFields m (resultPayload linkingResult) = linkingLink := by
      rw [hm]
      rfl
    have hshas : storeEnv.sha256 (Json.dumps Json.indentedFormat storeEnv.floatRepr
        (.obj linkingContent)) ≠ storeEnv.sha256 (Json.dumps Json.indentedFormat storeEnv.floatRepr
          (.obj (linkingContent.sorted.update linkingLink))) := by decide +kernel
    have hlib : LibraryAt storeEnv storedJob 1 storedAt linkingContent
        (linkingContent.sorted.update (crossLinkFields m (resultPayload linkingResult))) := by
      rw [hlink]
      refine ⟨fun _ => rfl, rfl, rfl, readsBack_linkingContent, readsBack_linkingLink, ?_⟩
      intro a b ha hb hsha
      rw [encodeIndented_eq] at ha hb
      cases ha
      cases hb
      exact absurd hsha hshas
    refine (written_artifact_accepted_iff hwrite (by decide) hlib).2.mpr ⟨?_, ?_, ?_⟩
    · have hnone : ∀ k ∈ checkedKeys, Dict.get? (resultPayload linkingResult) k = none := by decide
      intro k hk v w hv
      rw [hnone k hk] at hv
      cases hv
    · intro v hv
      cases hv
      exact .inr ⟨_, rfl⟩
    · intro p hp hself
      cases hp
      cases hself

/-- A result whose payload has an attempt number of its own. -/
def overridingResult : Dict :=
  [(py "summary", .str (py "ok")),
    (py "artifact_payload", .obj [(py "attempt_number", .int 2)])]

/-- The number from the payload is in the file and the number of the attempt in the metadata. -/
theorem written_artifact_rejected : ∃ m files',
    writeStubJobArtifact storeEnv.toEnv (fun _ => none) storedJob "worker-0" 1 storedAt
      overridingResult = .ok (m, files') ∧
    (m.record storeEnv).validateIntegrity storeEnv.toEnv files' = .error "artifact field" := by
  have hrun : (writeStubJobArtifact storeEnv.toEnv (fun _ => none) storedJob "worker-0" 1 storedAt
      overridingResult).map (fun r => (r.1.record storeEnv).validateIntegrity storeEnv.toEnv r.2) =
        .ok (.error "artifact field") := by decide +kernel
  cases hwrite : writeStubJobArtifact storeEnv.toEnv (fun _ => none) storedJob "worker-0" 1
      storedAt overridingResult with
  | error e =>
    rw [hwrite] at hrun
    cases hrun
  | ok r =>
    rw [hwrite] at hrun
    exact ⟨r.1, r.2, rfl, Except.ok.inj hrun⟩

end AgentRuntimeGrid
