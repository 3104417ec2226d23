import AgentRuntimeGrid.Cli.Rendering
import AgentRuntimeGrid.Evidence.CommittedReport
import AgentRuntimeGrid.Evidence.ReleaseGate
import AgentRuntimeGrid.Lib.Erasure

/-! Which directories pass the gate of a committed release: those that hold the release byte for
byte, and those that a command wrote of a clean run. -/
namespace AgentRuntimeGrid

/-- 64 lower-case hexadecimal digits. -/
def hexText (n : ℕ) : PyStr := (List.range 64).map fun i => Json.hexDigit (n / 16 ^ (63 - i) % 16)

theorem isSha256_hexText (n : ℕ) : isSha256 (.str (hexText n)) = true := by
  have hdigit : ∀ d < 16, Json.hexDigit d ∈ py "0123456789abcdef" := by decide
  have hlength : (hexText n).length = 64 := by rw [hexText, List.length_map, List.length_range]
  rw [isSha256, hlength, decide_eq_true rfl, Bool.true_and, List.all_eq_true]
  intro c hc
  obtain ⟨i, -, rfl⟩ := List.mem_map.mp hc
  exact decide_eq_true (hdigit _ (Nat.mod_lt _ (by decide)))

def releaseRun : RunId := 0x6e837e20dc6a4053a5bf709302063939

/-- The record of one of the artifacts of the release: its job, its digest, the digest of its input
and the microseconds of its time of writing. -/
def releaseRecord (jobId : JobId) (sha256 inputDigest microseconds : ℕ) : ArtifactRecord where
  path := PyPath.text ⟨[], [py "artifacts", uuidText jobId, py "attempt-1.json"]⟩
  sizeBytes := 342
  sha256 := hexText sha256
  jobId := uuidText jobId
  runId := uuidText releaseRun
  attemptNumber := 1
  inputDigest := hexText inputDigest
  createdAt := py "2026-07-13T11:16:36." ++
    (List.range 6).map (fun i => 48 + microseconds / 10 ^ (5 - i) % 10) ++ py "+00:00"
  evalResultPath := none

def releaseArtifacts : List (JobId × ℕ × ℕ × ℕ) := [
  (0x60669a067a5f40c38e0cd725621d19f2,
    0xa1886993ac1b765cc70b52946953595d41d0907121495d05a2113f0cbc4d1ce4,
    0xb8ba77e15f1334e56bf422a267b71e66d1bd1794964324fc0989ec8d2f2d898c, 14302),
  (0xa96844a06f614a788b48f1bf5354a775,
    0xc09363763be38ccd753322f3788a74bc03e71805d746eb495528b81ec39b7c55,
    0x18164623b922b96c6a730a4dff8b2fe71a8d7bc23afc576de947f9a6d2aa5aba, 31177),
  (0xda83c6b7a8c541278bb52230ce43a6d8,
    0x3a56f772e063612c832e2551b67a28bdd6025d5fd006b7d85a2127a32025de8a,
    0x45d3f82968a1e539e8e8b0eed22415b3e6c75276758fa9b3cb02932a439d70eb, 40160),
  (0xdba46681146b49a5a48af6baa045bb75,
    0x2b27330fa3bad51a1650d488dd7aa54f3b232fb91b22f7f431f4b5c6e86ca1a2,
    0xeae60959de2ad7c6ca7eb577df7ef41eec4d04ea2d907516b716593342124e94, 43717),
  (0xc9cec405e3db451699907748887c3f51,
    0x87aad93d6096623c2676dc7cc80cc11a9f6c71bbf283d6a117558814819e2bb6,
    0x0cb8b0fd8adf83ef851eb78261ae00953bfe800aee3862880f28485bc16ed0f8, 112278),
  (0x78fed10d4ed847f8a4e63142bcb19d5c,
    0xa0a8feaf71d7e0d59b0157aa56779dfccc05b4869d57aea5208debbd655ca695,
    0xd3b97c22f90d401b30c6389fc5dc224688087b48f694861e7025d5de85f71a13, 115490),
  (0x6363834abdda4ea980a80b33389849a5,
    0x8d31c6061a69d3651ca73825cd3f36d2da3651bf2af5d523df6e88147abe6b0a,
    0x9b3ccdef1a894ffdfcf46f919d9df72fb7570fb271dcf6dc7d6d921e0086686f, 117770),
  (0x231dc03eef80499cbdb60fc5491ccb42,
    0x79c8ec3157b2942f6a8e39478999caa26ba24e6ae8b9e316a640e8d08426de95,
    0x804e12d7dd7d6a78774b6da276785b0ea266644684827a5b2ff612d67107851f, 119681),
  (0x47d76fa6bac24ff3a7d64331d965599c,
    0x90787881e0c3a4dcdcda621bc2d8212fd9db922d581415a40ff89bb463006b00,
    0x265e4b80e912553e7ee58afd2e6664f377800a82b54b12239d38eff8922716c7, 163391),
  (0x9ed86eb18e0747c29212fe211f511e0e,
    0xd9ad95b12322f26adfa0861fdc96ed6d75409383545f2852f4d7394f8dbfb974,
    0x2e623f2c7441ff21054da1ca0159f05d3e1a385ad18238aa2448fb78a7bd120c, 171940),
  (0xfc4fc81855ed40c78a4b3cee2fec6c62,
    0x6fbbc03ac8f8f49b374cdedb313031fcade8fa21c12fc8eca7a4562acf00e48c,
    0x2bedb95b61095d549d089ebb0e11fb2b0240f54548ac7d06e07ffdcdca8b48ee, 166780),
  (0x6287b7da6f9547b19d5dc5ab14d1e91b,
    0xa566e16bd08ae9c258872b41cc65637868019efa39385d6911c572cb786e2aab,
    0xb4bac29723537b1bb0c394766fe5cb165afe7d04a3c2e3162b912df7bd9aa32d, 169596),
  (0xb0ce0f084f4a487593626402df5a1e53,
    0x1f37d3a90b17448a2ffe069df913791e68915aa5246fc1c5f2525878a875ac31,
    0x31d204aeeac45a756cb15b8433ebbd9e5c9c6731e7faf9fe33acdf06e3ea59db, 212911),
  (0xaf4d650cbdd4417da14013d166e5a6a5,
    0x1ffecbdc3bcfe1b3bcaea4386e7fd69366f3c4d05c385a09cc83fa2000724a1b,
    0xde8f5a0d047450d0ecd7e8b9fab9c2bc0cdecdb202943deb0e201bb53c40fad4, 218140),
  (0x09649b86cd4d419aa07861eaf111bb25,
    0x60cd988b96416fe0db29c48070691c9b8d573a03413b061fdf9056da9f9567c6,
    0x7c647808f5ab1af47b058c669b94828a0019cfaa90b92bbef16039c73f4af1a7, 220064),
  (0x4e1ad559af4a4f2ca2ab055fe8ce24b9,
    0x054544fe653605edf4453f8cca9c3e2bc5fcdad80679b15ea52840654b9f6f32,
    0x2d114049e5865ccdec3037a18dac2c7ec9593c3e1bc1fe4c00fd35020d068b6a, 215634),
  (0x7c2ad149003842ffa057d85ebe26e4af,
    0xe6d77e367f86ea5e7d2e4fe7599e8f44329079c163d9c4e3cb2c7e1dc2645ebe,
    0x8fd83d129dc344d196302639870acecfe17a157d73e2853eb7c134858dda45a1, 257454),
  (0x155e9458ef5a486fa18f621eb8f9e970,
    0xf14a48c459ea1c995258a5e3a77830d1caec91029995b0596b96d9e9d901e9ab,
    0x418acf6e054b844a83b004dd9b2af3e35fdea14af6c7759edebb25b9a75b9144, 264788),
  (0x9ba08f74971c4c8fa5c8d5df021d7217,
    0xe305e0b29d6350a8edd5d69a2343f16e620d2cc7fb4b9e9cd8907e0d4ba09648,
    0x91c94b528925951fa8e81972aea1091a343aaaca9d56e53d49c9ec87b4a36817, 268181),
  (0x52670aee57c94e5898506e231f17bbe1,
    0x432a70348a10cf4d0595723503e9084bbf97cba9f6c64a19d008e494d0a1715a,
    0x271ea72788698464c8edc3de23238ffeb69e200ec9306f369d42180f73e10eff, 261011)]

def releaseRecords : List ArtifactRecord :=
  releaseArtifacts.map fun a => releaseRecord a.1 a.2.1 a.2.2.1 a.2.2.2

def releaseWait : PyFloat := .finite (4442107478058379 / 9007199254740992)

def releaseExecution : PyFloat := .finite (5360076190105307 / 36028797018963968)

def releaseReport : ReliabilityReport where
  submittedJobs := 20
  lifecycleCounts := [("queued", 0), ("running", 0), ("completed", 20), ("failed", 0),
    ("timed_out", 0), ("cancelled", 0), ("dlq", 0)]
  completionRate := .finite 1
  duplicateFinalizationCount := 0
  retryCount := 0
  queueLagSeconds := releaseWait
  p95DurationSeconds := releaseExecution
  artifactCompleteness := .finite 1
  finalizationConflictAttemptCount := 0
  failureClassification := []
  estimatedCostUsd := "0"
  runId := some (uuidText releaseRun)
  source := py "runtime_state:artifacts"
  idempotencyReplayCount := 0
  injectedFailureCount := 0
  title := "Load Smoke Report"
  backpressure := some ⟨0, .finite 0, 0, 0, 0, .finite 0, .finite 0, 0, releaseWait,
    releaseExecution⟩
  artifactIntegrity := some ⟨20, 20, releaseRecords⟩

def releaseOrigin : RunOrigin where
  generatedAt := py "2026-07-13T11:16:36.494745+00:00"
  sourceRevision := [(py "commit", .str committedReleaseSourceRevision),
    (py "dirty", .bool false)]
  environment := [(py "python", .str (py "3.12.3")), (py "implementation", .str (py "CPython")),
    (py "platform", .str (py "Linux")), (py "machine", .str (py "x86_64"))]

def releaseConfig : List (PyStr × ConfigValue) := [
  (py "jobs", .plain (.int 20)), (py "workers", .plain (.int 4)),
  (py "failure_rate", .plain (.float (.finite 0))), (py "mode", .plain (.str (py "stub"))),
  (py "artifact_root", .path ⟨[], [py "artifacts"]⟩)]

def releaseFloat (x : PyFloat) : PyStr :=
  if x = .finite 0 then py "0.0" else if x = .finite 1 then py "1.0"
  else if x = releaseWait then py "0.493173" else py "0.148772"

theorem releaseFloat_ascii : ∀ x, ∀ c ∈ releaseFloat x, c < 128 := by
  intro x
  unfold releaseFloat
  repeat' split
  all_goals decide

/-- What the writing of the release relies on, its digests and its reading apart. -/
def releaseWriter : EvidenceEnv where
  sha256 _ := ""
  floatRepr := releaseFloat
  strOther _ := []
  jsonLoads _ := .ok (.obj [])
  resolve _ := .other ""
  floatRepr_ascii := releaseFloat_ascii
  strOther_storable := noText_storable
  jsonLoads_dumps := emptyObject_read
  intOf _ := .error ""
  isoFormat := .ok
  pathText _ := []
  trueDiv _ _ := .finite 1
  percent x := if x = .finite 1 then "100.00%" else "0.00%"
  fixed3 x := if x = .finite 0 then "0.000" else if x = releaseWait then "0.493" else "0.149"
  relativeToCwd := some

def releasePayload : Dict :=
  evidencePayload releaseWriter releaseOrigin releaseReport "smoke" releaseConfig none

def releaseRendered : PyStr := renderReliabilityReport releaseWriter releaseReport

def releaseManifest : Dict := evidenceManifest
  (reportName committedReleaseStem,
    "dd755dd40c660218f8dd59f505d18e3ebbd3d900f75ceee0f9aca033c6289fd2")
  (dataName committedReleaseStem,
    "93863b224f7c07904b83883cd3c8e6a18c8983d2469216dbec87691d5529fbee")

/-- The digests of the three files, and what the two that are JSON read as; they differ in their
sixth character. -/
def releaseEnv : ReleaseEnv where
  sha256 content :=
    if content.getD 5 0 = 102 then committedReleaseManifestSha256
    else if content.getD 5 0 = 99 then
      "93863b224f7c07904b83883cd3c8e6a18c8983d2469216dbec87691d5529fbee"
    else "dd755dd40c660218f8dd59f505d18e3ebbd3d900f75ceee0f9aca033c6289fd2"
  floatRepr := releaseFloat
  strOther _ := []
  jsonLoads text := .ok (.obj (if text.getD 5 0 = 102 then releaseManifest.reverse
    else Dict.sorted releasePayload))
  resolve _ := .other ""
  floatRepr_ascii := releaseFloat_ascii
  strOther_storable := noText_storable
  jsonLoads_dumps _ := ⟨_, rfl⟩
  reprText := id

theorem releaseRendered_sixth : releaseRendered.getD 5 0 = 100 := by rfl

theorem releasePayload_sixth : (evidenceText releaseEnv.toEnv releasePayload).getD 5 0 = 99 := by
  rfl

theorem releaseManifest_sixth : (evidenceText releaseEnv.toEnv releaseManifest).getD 5 0 = 102 := by
  rfl

theorem uuidText_ne_nil (u : UUID) : uuidText u ≠ [] := by
  have hlength := length_uuidText u
  intro h
  rw [h] at hlength
  cases hlength

theorem releaseRecords_committable :
    ∀ r ∈ releaseRecords, CommittableRow (uuidText releaseRun) r := by
  have hname : ∀ a ∈ releaseArtifacts, (PyPath.parse (PyPath.text
      ⟨[], [py "artifacts", uuidText a.1, py "attempt-1.json"]⟩)).name = py "attempt-1.json" := by
    decide +kernel
  intro r hr
  obtain ⟨a, ha, rfl⟩ := List.mem_map.mp hr
  exact {
    job_ne_nil := uuidText_ne_nil a.1
    run := rfl
    name := hname a ha
    attempt := rfl
    evalResult := rfl
    sha256 := isSha256_hexText _
    inputDigest := isSha256_hexText _
    size := show (0 : ℤ) < 342 by decide }

theorem releaseRecords_nodup : (releaseRecords.map ArtifactRecord.jobId).Nodup := by
  have hids : (releaseArtifacts.map Prod.fst).Nodup := by decide +kernel
  have hmap : releaseRecords.map ArtifactRecord.jobId =
      (releaseArtifacts.map Prod.fst).map uuidText := by
    rw [releaseRecords, List.map_map, List.map_map]
    rfl
  rw [hmap]
  exact hids.map uuidText_injective

theorem releaseReport_committable : Committable releaseReport where
  title := rfl
  source := rfl
  submitted := rfl
  counts := by decide +kernel
  completionRate := rfl
  duplicates := rfl
  conflicts := rfl
  retries := rfl
  artifactCompleteness := rfl
  failures := rfl
  cost := rfl
  replays := rfl
  injected := rfl
  idle := ⟨_, rfl, ⟨rfl, rfl, rfl, rfl, rfl, rfl, rfl, rfl⟩, ⟨nofun, rfl⟩, nofun, rfl⟩
  artifacts := ⟨_, _, rfl, rfl, rfl, rfl, rfl, uuidText_ne_nil _, releaseRecords_nodup,
    releaseRecords_committable⟩

theorem releaseOrigin_pinned :
    PinnedOrigin releaseWriter releaseOrigin "smoke" releaseConfig none where
  command := rfl
  seed := rfl
  revision := by decide +kernel
  config := by decide +kernel
  environment := by decide +kernel

def releaseDirectory : Directory :=
  placed releaseEnv.toEnv ∅ committedReleaseStem releaseRendered releasePayload

theorem releaseEnv_sha256 (content : PyBytes) : releaseEnv.sha256 content =
    if content.getD 5 0 = 102 then committedReleaseManifestSha256
    else if content.getD 5 0 = 99 then
      "93863b224f7c07904b83883cd3c8e6a18c8983d2469216dbec87691d5529fbee"
    else "dd755dd40c660218f8dd59f505d18e3ebbd3d900f75ceee0f9aca033c6289fd2" := rfl

theorem releaseRendered_sha256 : releaseEnv.sha256 releaseRendered =
    "dd755dd40c660218f8dd59f505d18e3ebbd3d900f75ceee0f9aca033c6289fd2" := by
  rw [releaseEnv_sha256, releaseRendered_sixth]
  rfl

theorem releasePayload_sha256 :
    releaseEnv.sha256 (evidenceText releaseEnv.toEnv releasePayload) =
      "93863b224f7c07904b83883cd3c8e6a18c8983d2469216dbec87691d5529fbee" := by
  rw [releaseEnv_sha256, releasePayload_sixth]
  rfl

theorem releaseManifest_sha256 :
    releaseEnv.sha256 (evidenceText releaseEnv.toEnv releaseManifest) =
      committedReleaseManifestSha256 := by
  rw [releaseEnv_sha256, releaseManifest_sixth]
  rfl

theorem releaseEnv_digest (content : PyBytes) : (releaseEnv.sha256 content).length = 64 := by
  rw [releaseEnv_sha256]
  split
  · decide
  · split <;> decide

theorem bundleManifest_release :
    bundleManifest releaseEnv.toEnv committedReleaseStem releaseRendered releasePayload =
      releaseManifest := by
  rw [bundleManifest, releaseRendered_sha256, releasePayload_sha256]
  rfl

theorem releaseManifest_loads :
    ReadsBackBundle releaseEnv.toEnv committedReleaseStem releaseRendered releasePayload := by
  rw [ReadsBackBundle, ReadsBack, releaseRendered_sha256, releasePayload_sha256]
  change Except.ok (Json.obj (if List.getD (evidenceText _ releaseManifest) 5 0 = 102
    then _ else _)) = _
  rw [releaseManifest_sixth]
  rfl

theorem releasePayload_loads : releaseEnv.jsonLoads (evidenceText releaseEnv.toEnv releasePayload) =
    .ok (.obj (Dict.sorted releasePayload)) := by
  change Except.ok (Json.obj (if List.getD (evidenceText _ releasePayload) 5 0 = 102
    then _ else _)) = _
  rw [releasePayload_sixth]
  rfl

theorem releasePayload_distinct : Json.Distinct (.obj releasePayload) := by
  refine distinct_evidencePayload ⟨?_, ?_⟩ ⟨?_, trivial⟩ ⟨?_, ?_⟩ ⟨?_, ?_⟩ ⟨?_, ?_⟩
  · decide
  · exact ⟨trivial, trivial, trivial, trivial, trivial, trivial, trivial, trivial⟩
  · decide
  · decide
  · exact ⟨trivial, trivial, trivial, trivial, trivial, trivial⟩
  · decide
  · exact ⟨trivial, trivial, trivial⟩
  · decide
  · exact ⟨trivial, trivial, trivial, trivial, trivial⟩

theorem releaseDirectory_inPlace : InPlace releaseEnv.toEnv releaseDirectory committedReleaseStem
    releaseRendered releasePayload :=
  placed_inPlace ⟨fun _ _ => nofun, fun _ h => (nomatch h)⟩

theorem releaseDirectory_manifest :
    releaseDirectory.lookup (manifestName committedReleaseStem) =
      some (.file (evidenceText releaseEnv.toEnv releaseManifest)) := by
  rw [← bundleManifest_release]
  exact (lookup_placed _ _ _ _ _).2.2

theorem releaseDirectory_passes :
    ∃ r, verifyCommittedReleaseEvidence releaseEnv releaseDirectory ⟨[], []⟩ = .ok r := by
  have hdata : ∃ parts, CommittedData releasePayload parts :=
    (exists_committedData_iff _ _ _ _ _ _).mpr ⟨releaseOrigin_pinned, releaseReport_committable⟩
  obtain ⟨parts, hparts⟩ := (exists_committedData_sorted releasePayload_distinct).mpr hdata
  exact ⟨_, (writtenRelease_eq_ok releaseDirectory_inPlace releaseEnv_digest
    releaseManifest_loads releasePayload_loads).mpr
      ⟨⟨_, releaseDirectory_manifest, releaseManifest_sha256⟩, parts, hparts, rfl⟩⟩

section Release
variable {env : ReleaseEnv} {d d' : Directory} {root root' : PyPath}
  {r r' : CommittedEvidenceVerification}

/-- When one directory passes the gate, another one passes exactly when it has the same three
regular files and no other file is a sidecar of the report, and then with the same receipt. -/
theorem committed_release_pinned (h : verifyCommittedReleaseEvidence env d root = .ok r)
    (hinj : Set.InjOn env.sha256 (releaseContents d d')) :
    verifyCommittedReleaseEvidence env d' root' = .ok r' ↔
      r' = r ∧ (∀ name ∈ bundleNames committedReleaseStem, d'.lookup name = d.lookup name) ∧
      ∀ name e, d'.lookup name = some e → e.isFile = true →
        (committedReleaseStem ++ py ".") <+: name → name ∈ bundleNames committedReleaseStem := by
  constructor
  · intro h'
    obtain ⟨hr, hsame⟩ := same_of_passes h h' hinj
    refine ⟨hr, hsame, fun name e he hfile hprefix => ?_⟩
    obtain ⟨_, _, _, _, _, hverify', -⟩ := verifyCommittedReleaseEvidence_eq_ok.mp h'
    obtain ⟨_, _, _, _, _, _, hmanifest'⟩ := verifyEvidenceManifest_passes.mp hverify'
    exact verifyManifest_sidecars hmanifest' name (Directory.mem_fileNames.mpr
      ⟨⟨e, he, hfile⟩, List.isPrefixOf_iff_prefix.mpr hprefix⟩)
  · rintro ⟨rfl, hsame, hsidecars⟩
    obtain ⟨bytes, payload, parts, hbytes, hsha, hverify, hread, hdata, rfl⟩ :=
      verifyCommittedReleaseEvidence_eq_ok.mp h
    obtain ⟨file, text, manifest, hfile, htext, hloads, hmanifest⟩ :=
      verifyEvidenceManifest_passes.mp hverify
    obtain ⟨content, text', hcontent, htext', hpayload⟩ := readCommittedData_passes.mp hread
    obtain ⟨-, hdataFile, hmanifestFile⟩ := forall_mem_bundleNames.mp hsame
    refine verifyCommittedReleaseEvidence_eq_ok.mpr ⟨bytes, payload, parts,
      hmanifestFile.trans hbytes, hsha, ?_, ?_, hdata, rfl⟩
    · refine verifyEvidenceManifest_passes.mpr ⟨file, text, manifest, ?_, htext, hloads,
        verifyManifest_congr hmanifest hsame fun name hname => ?_⟩
      · rw [Directory.read, hmanifestFile, ← Directory.read, hfile]
      · obtain ⟨⟨e, he, hfile⟩, hprefix⟩ := Directory.mem_fileNames.mp hname
        exact hsidecars name e he hfile (List.isPrefixOf_iff_prefix.mp hprefix)
    · refine readCommittedData_passes.mpr ⟨content, text', ?_, htext', hpayload⟩
      rw [Directory.read, hdataFile, ← Directory.read, hcontent]

theorem releaseContents_injOn (hsame : ∀ name ∈ bundleNames committedReleaseStem,
    d'.lookup name = releaseDirectory.lookup name) :
    Set.InjOn releaseEnv.sha256 (releaseContents releaseDirectory d') := by
  have hreport := releaseDirectory_inPlace.report
  have hdata := releaseDirectory_inPlace.data
  have hcontents : ∀ content ∈ releaseContents releaseDirectory d',
      content = releaseRendered ∨ content = evidenceText releaseEnv.toEnv releasePayload ∨
        content = evidenceText releaseEnv.toEnv releaseManifest := by
    rintro content ⟨name, hname, hread⟩
    have hread : releaseDirectory.read name = some content := by
      rcases hread with hread | hread
      · exact hread
      · rwa [Directory.read, hsame name hname] at hread
    simp only [bundleNames, List.mem_cons, List.not_mem_nil, or_false] at hname
    rcases hname with rfl | rfl | rfl
    · rw [Directory.read_of_lookup hreport] at hread
      exact .inl (Option.some.inj hread).symm
    · rw [Directory.read_of_lookup hdata] at hread
      exact .inr (.inl (Option.some.inj hread).symm)
    · rw [Directory.read_of_lookup releaseDirectory_manifest] at hread
      exact .inr (.inr (Option.some.inj hread).symm)
  have hnodup : ([releaseRendered, evidenceText releaseEnv.toEnv releasePayload,
      evidenceText releaseEnv.toEnv releaseManifest].map releaseEnv.sha256).Nodup := by
    simp only [List.map_cons, List.map_nil, releaseRendered_sha256, releasePayload_sha256,
      releaseManifest_sha256]
    decide
  intro content hcontent content' hcontent' heq
  refine List.inj_on_of_nodup_map hnodup ?_ ?_ heq
  · simpa using hcontents content hcontent
  · simpa using hcontents content' hcontent'

/-- The release passes, and no longer does with a further sidecar of its report. -/
theorem committed_release_pinned_sidecar :
    ∃ r, verifyCommittedReleaseEvidence releaseEnv releaseDirectory ⟨[], []⟩ = .ok r ∧
      ∀ r', verifyCommittedReleaseEvidence releaseEnv
        (releaseDirectory.insert (py "runtime-smoke.txt") (.file [])) ⟨[], []⟩ ≠ .ok r' := by
  have hnames : py "runtime-smoke.txt" ∉ bundleNames committedReleaseStem := by decide
  have hprefix : (committedReleaseStem ++ py ".") <+: py "runtime-smoke.txt" := by decide
  have hsame : ∀ name ∈ bundleNames committedReleaseStem,
      (releaseDirectory.insert (py "runtime-smoke.txt") (.file [])).lookup name =
        releaseDirectory.lookup name := by
    intro name hname
    refine AList.lookup_insert_ne fun h => hnames ?_
    rwa [← h]
  have hinj := releaseContents_injOn hsame
  obtain ⟨r, hr⟩ := releaseDirectory_passes
  refine ⟨r, hr, fun r' hr' => ?_⟩
  obtain ⟨-, -, hsidecars⟩ := (committed_release_pinned hr hinj).mp hr'
  exact hnames (hsidecars _ _ (AList.lookup_insert _) rfl hprefix)

/-- A release as the commands write it passes the gate exactly when its manifest has the fixed
digest, it comes from the pinned revision, machine and command, and its report is of a clean run of
twenty jobs. -/
theorem written_release_passes_iff (writer : EvidenceEnv) {origin : RunOrigin}
    {report : ReliabilityReport} {command : String} {config : List (PyStr × ConfigValue)}
    {seed : Option ℤ} {reportBytes : PyBytes} {payload : Dict}
    (hpayload : payload = evidencePayload writer origin report command config seed)
    (hdistinct : Json.Distinct (.obj payload))
    (hplace : InPlace env.toEnv d committedReleaseStem reportBytes payload)
    (hdigest : ∀ content, (env.sha256 content).length = 64)
    (hmanifest : ReadsBackBundle env.toEnv committedReleaseStem reportBytes payload)
    (hloads : env.jsonLoads (evidenceText env.toEnv payload) = .ok (.obj (Dict.sorted payload))) :
    (∃ r, verifyCommittedReleaseEvidence env d root = .ok r) ↔
      (∃ bytes, d.lookup (manifestName committedReleaseStem) = some (.file bytes) ∧
        env.sha256 bytes = committedReleaseManifestSha256) ∧
      PinnedOrigin writer origin command config seed ∧ Committable report := by
  have hdata := exists_committedData_iff writer origin report command config seed
  rw [← hpayload, ← exists_committedData_sorted hdistinct] at hdata
  rw [← hdata]
  simp only [writtenRelease_eq_ok hplace hdigest hmanifest hloads]
  constructor
  · rintro ⟨r, hfile, parts, hdata, -⟩
    exact ⟨hfile, parts, hdata⟩
  · rintro ⟨hfile, parts, hdata⟩
    exact ⟨_, hfile, parts, hdata, rfl⟩

/-- The release is let through. -/
theorem written_release_passes_iff_release :
    ∃ r, verifyCommittedReleaseEvidence releaseEnv releaseDirectory ⟨[], []⟩ = .ok r :=
  (written_release_passes_iff releaseWriter rfl releasePayload_distinct releaseDirectory_inPlace
    releaseEnv_digest releaseManifest_loads releasePayload_loads).mpr
      ⟨⟨_, releaseDirectory_manifest, releaseManifest_sha256⟩, releaseOrigin_pinned,
        releaseReport_committable⟩

end Release

end AgentRuntimeGrid
