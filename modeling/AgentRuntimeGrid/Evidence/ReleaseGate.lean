import AgentRuntimeGrid.Evidence.Release

/-! The gate of a committed release names one release: whatever else passes has the same bytes in
the same three files. -/
namespace AgentRuntimeGrid

/-- The entry declares the digest of a file beside the manifest. -/
def Declares (entry : Json) (name digest : PyStr) : Prop :=
  ∃ fields, entry = .obj fields ∧ Dict.get? fields (py "path") = some (.str name) ∧
    Dict.get? fields (py "sha256") = some (.str digest)

section Entries
variable {env : Env} {d d' : Directory} {declared declared' declared'' : List PyStr} {entry : Json}

theorem Declares.unique {name name' digest digest' : PyStr} (h : Declares entry name digest)
    (h' : Declares entry name' digest') : name = name' ∧ digest = digest' := by
  obtain ⟨fields, rfl, hname, hdigest⟩ := h
  obtain ⟨fields', heq, hname', hdigest'⟩ := h'
  obtain rfl := Json.obj.inj heq
  rw [hname] at hname'
  rw [hdigest] at hdigest'
  exact ⟨Json.str.inj (Option.some.inj hname'), Json.str.inj (Option.some.inj hdigest')⟩

theorem Directory.lookup_eq_file {name : PyStr} {content : PyBytes} :
    ¬(d.lookup name).any DirEntry.isSymlink = true ∧ d.read name = some content ↔
      d.lookup name = some (.file content) := by
  unfold Directory.read
  cases d.lookup name with
  | none => simp
  | some e => cases e <;> simp [DirEntry.isSymlink, DirEntry.content?]

theorem Directory.read_of_lookup {name : PyStr} {content : PyBytes}
    (h : d.lookup name = some (.file content)) : d.read name = some content :=
  (Directory.lookup_eq_file.mpr h).2

/-- An entry passes when it declares the digest of a regular file that was not declared before. -/
theorem verifyEntry_passes : verifyEntry env d declared entry = .ok declared' ↔
    ∃ name digest content, Declares entry name digest ∧ (PyPath.parse name).name = name ∧
      name ∉ declared ∧ digest.length = 64 ∧ d.lookup name = some (.file content) ∧
      py (env.sha256 content) = digest ∧ declared' = name :: declared := by
  constructor
  · intro h
    unfold verifyEntry at h
    split at h
    next fields =>
      split at h
      next name hname =>
        split at h
        · cases h
        next hparse =>
          split at h
          · cases h
          next hnew =>
            split at h
            next digest hdigest =>
              split at h
              · cases h
              next hlength =>
                split at h
                · cases h
                next hsymlink =>
                  split at h
                  · cases h
                  next content hread =>
                    split at h
                    · cases h
                    next hsha =>
                      exact ⟨name, digest, content, ⟨fields, rfl, hname, hdigest⟩,
                        not_not.mp hparse, hnew, not_not.mp hlength,
                        Directory.lookup_eq_file.mp ⟨hsymlink, hread⟩, not_not.mp hsha,
                        (Except.ok.inj h).symm⟩
            next => cases h
      next => cases h
    next => cases h
  · rintro ⟨name, digest, content, ⟨fields, rfl, hname, hdigest⟩, hparse, hnew, hlength, hlookup,
      hsha, rfl⟩
    obtain ⟨hsymlink, hread⟩ := Directory.lookup_eq_file.mpr hlookup
    unfold verifyEntry
    simp only [hname, hparse, hnew, hdigest, hlength, hsymlink, hread, hsha, ne_eq,
      not_true_eq_false, Bool.false_eq_true, if_false]

/-- Two directories that pass the same entries have files of the same digests under the declared
names. -/
theorem foldlM_verifyEntry_agree {entries : List Json}
    (h : entries.foldlM (verifyEntry env d) declared = .ok declared')
    (h' : entries.foldlM (verifyEntry env d') declared = .ok declared'') :
    declared'' = declared' ∧ ∀ name ∈ declared', name ∉ declared → ∃ content content',
      d.lookup name = some (.file content) ∧ d'.lookup name = some (.file content') ∧
      env.sha256 content = env.sha256 content' := by
  induction entries generalizing declared with
  | nil =>
    obtain rfl := Except.ok.inj h
    exact ⟨(Except.ok.inj h').symm, fun name hmem hnot => absurd hmem hnot⟩
  | cons entry entries ih =>
    rw [List.foldlM_cons] at h h'
    obtain ⟨declared₁, hentry, hrest⟩ := Except.bind_eq_ok.mp h
    obtain ⟨declared₂, hentry', hrest'⟩ := Except.bind_eq_ok.mp h'
    rw [verifyEntry_passes] at hentry hentry'
    obtain ⟨name, digest, content, hdeclares, -, -, -, hlookup, hsha, rfl⟩ := hentry
    obtain ⟨name', digest', content', hdeclares', -, -, -, hlookup', hsha', rfl⟩ := hentry'
    obtain ⟨rfl, rfl⟩ := hdeclares.unique hdeclares'
    obtain ⟨heq, hall⟩ := ih hrest hrest'
    refine ⟨heq, fun n hmem hnot => ?_⟩
    by_cases hn : n = name
    · subst hn
      exact ⟨content, content', hlookup, hlookup', py_inj.mp (hsha.trans hsha'.symm)⟩
    · exact hall n hmem (List.not_mem_cons_of_ne_of_not_mem hn hnot)

theorem subset_of_foldlM_verifyEntry {entries : List Json}
    (h : entries.foldlM (verifyEntry env d) declared = .ok declared') : declared ⊆ declared' := by
  induction entries generalizing declared with
  | nil => exact Except.ok.inj h ▸ List.Subset.refl _
  | cons entry entries ih =>
    rw [List.foldlM_cons] at h
    obtain ⟨declared₁, hentry, hrest⟩ := Except.bind_eq_ok.mp h
    rw [verifyEntry_passes] at hentry
    obtain ⟨name, _, _, _, _, _, _, _, _, rfl⟩ := hentry
    exact fun n hn => ih hrest (List.mem_cons_of_mem _ hn)

/-- What passes in one directory passes in another that has the declared files too. -/
theorem foldlM_verifyEntry_congr {entries : List Json}
    (h : entries.foldlM (verifyEntry env d) declared = .ok declared')
    (hsame : ∀ name ∈ declared', d'.lookup name = d.lookup name) :
    entries.foldlM (verifyEntry env d') declared = .ok declared' := by
  induction entries generalizing declared with
  | nil => exact h
  | cons entry entries ih =>
    rw [List.foldlM_cons] at h ⊢
    obtain ⟨declared₁, hentry, hrest⟩ := Except.bind_eq_ok.mp h
    rw [verifyEntry_passes] at hentry
    obtain ⟨name, digest, content, hdeclares, hparse, hnew, hlength, hlookup, hsha, rfl⟩ := hentry
    have hmem : name ∈ declared' := subset_of_foldlM_verifyEntry hrest List.mem_cons_self
    refine Except.bind_eq_ok.mpr ⟨name :: declared, ?_, ih hrest⟩
    rw [verifyEntry_passes]
    exact ⟨name, digest, content, hdeclares, hparse, hnew, hlength, (hsame name hmem).trans hlookup,
      hsha, rfl⟩

end Entries

section Manifests
variable {env : Env} {d d' : Directory} {stem : PyStr} {manifest : Dict}

/-- A manifest passes when its entries do, declare the report and the data and nothing else, and no
other file is a sidecar of the report. -/
theorem verifyManifest_passes : verifyManifest env d (manifestName stem) manifest = .ok () ↔
    ∃ entries declared, manifestEntries (manifestName stem) manifest = some entries ∧
      entries.foldlM (verifyEntry env d) [] = .ok declared ∧
      (declared ⊆ [reportName stem, dataName stem] ∧ [reportName stem, dataName stem] ⊆ declared) ∧
      ∀ name ∈ d.fileNames (isSidecar stem), name ∈ bundleNames stem := by
  have hsidecars : (d.fileNames (isSidecar stem)).filter
      (· ∉ manifestName stem :: [reportName stem, dataName stem]) = [] ↔
        ∀ name ∈ d.fileNames (isSidecar stem), name ∈ bundleNames stem := by
    rw [List.filter_eq_nil_iff]
    refine forall₂_congr fun name _ => ?_
    simp only [bundleNames, List.mem_cons, List.not_mem_nil, or_false, decide_eq_true_eq, not_not]
    tauto
  have hkeys : d.keys.findSome? noLookupErrors.isFile = none :=
    List.findSome?_eq_none_iff.mpr fun _ _ => rfl
  rw [← verifyManifestOn_noLookupErrors]
  cases hentries : manifestEntries (manifestName stem) manifest with
  | none =>
    obtain ⟨message, hmessage⟩ :=
      @verifyManifestOn_eq_of_none noLookupErrors env d (manifestName stem) manifest hentries
    rw [hmessage]
    refine iff_of_false (fun h => by cases h) ?_
    rintro ⟨_, _, h, -⟩
    cases h
  | some entries =>
    rw [verifyManifestOn_eq_of_some hentries, verifyEntryOn_noLookupErrors]
    simp only [take_manifestName, hkeys]
    constructor
    · intro h
      obtain ⟨declared, hfold, h⟩ := Except.bind_eq_ok.mp h
      split at h
      · cases h
      next hnames =>
        split at h
        next hnone =>
          exact ⟨entries, declared, rfl, hfold, not_not.mp hnames, hsidecars.mp hnone⟩
        next => cases h
    · rintro ⟨_, declared, heq, hfold, hnames, hnone⟩
      obtain rfl := Option.some.inj heq
      refine Except.bind_eq_ok.mpr ⟨declared, hfold, ?_⟩
      simp only [hnames, and_self, not_true_eq_false, if_false, hsidecars.mpr hnone]

theorem forall_mem_bundleNames {P : PyStr → Prop} : (∀ name ∈ bundleNames stem, P name) ↔
    P (reportName stem) ∧ P (dataName stem) ∧ P (manifestName stem) := by
  simp [bundleNames]

/-- Two directories in which one manifest passes have the same report and the same data, as far as
the digests tell contents apart. -/
theorem verifyManifest_agree (h : verifyManifest env d (manifestName stem) manifest = .ok ())
    (h' : verifyManifest env d' (manifestName stem) manifest = .ok ())
    (hinj : Set.InjOn env.sha256 {content | ∃ name ∈ bundleNames stem,
      d.read name = some content ∨ d'.read name = some content}) :
    d'.lookup (reportName stem) = d.lookup (reportName stem) ∧
      d'.lookup (dataName stem) = d.lookup (dataName stem) := by
  rw [verifyManifest_passes] at h h'
  obtain ⟨entries, declared, hentries, hfold, hnames, -⟩ := h
  obtain ⟨entries', declared', hentries', hfold', -, -⟩ := h'
  obtain rfl := Option.some.inj (hentries.symm.trans hentries')
  have hagree := (foldlM_verifyEntry_agree hfold hfold').2
  have hsibling : ∀ name ∈ [reportName stem, dataName stem],
      d'.lookup name = d.lookup name := by
    intro name hname
    have hmem : name ∈ bundleNames stem := List.mem_append_left [manifestName stem] hname
    obtain ⟨content, content', hlookup, hlookup', heq⟩ :=
      hagree name (hnames.2 hname) List.not_mem_nil
    rw [hlookup, hlookup', hinj ⟨name, hmem, .inl (Directory.read_of_lookup hlookup)⟩
      ⟨name, hmem, .inr (Directory.read_of_lookup hlookup')⟩ heq]
  exact ⟨hsibling _ (by simp), hsibling _ (by simp)⟩

/-- A manifest that passes in one directory passes in another that has the same report and data and
no other sidecars. -/
theorem verifyManifest_congr (h : verifyManifest env d (manifestName stem) manifest = .ok ())
    (hsame : ∀ name ∈ bundleNames stem, d'.lookup name = d.lookup name)
    (hsidecars : ∀ name ∈ d'.fileNames (isSidecar stem), name ∈ bundleNames stem) :
    verifyManifest env d' (manifestName stem) manifest = .ok () := by
  rw [verifyManifest_passes] at h ⊢
  obtain ⟨entries, declared, hentries, hfold, hnames, -⟩ := h
  refine ⟨entries, declared, hentries,
    foldlM_verifyEntry_congr hfold fun name hname => ?_, hnames, hsidecars⟩
  exact hsame name (List.mem_append_left [manifestName stem] (hnames.1 hname))

theorem verifyManifest_sidecars (h : verifyManifest env d (manifestName stem) manifest = .ok ()) :
    ∀ name ∈ d.fileNames (isSidecar stem), name ∈ bundleNames stem := by
  rw [verifyManifest_passes] at h
  obtain ⟨_, _, _, _, _, hsidecars⟩ := h
  exact hsidecars

end Manifests

section Pinned
variable {env : ReleaseEnv} {d d' : Directory} {root root' : PyPath} {payload payload' : Dict}
  {r r' : CommittedEvidenceVerification} {parts parts' : CommittedParts}

/-- A file that is read is what its content decodes to. -/
theorem verifyEvidenceManifest_passes {name : PyStr} {parent : PyPath} :
    verifyEvidenceManifest env.toEnv d parent name = .ok () ↔ ∃ bytes text manifest,
      d.read name = some bytes ∧ PyText.utf8Decode bytes = some text ∧
      env.jsonLoads text = .ok (.obj manifest) ∧
      verifyManifest env.toEnv d name manifest = .ok () := by
  unfold verifyEvidenceManifest
  constructor
  · intro h
    split at h
    · cases h
    next bytes hread =>
      split at h
      · cases h
      next text htext =>
        split at h
        · cases h
        · cases h
        next manifest hloads => exact ⟨bytes, text, manifest, hread, htext, hloads, h⟩
        · cases h
  · rintro ⟨bytes, text, manifest, hread, htext, hloads, h⟩
    simp only [hread, htext, hloads, h]

theorem readCommittedData_passes {parent : PyPath} {v : Json} :
    readCommittedData env.toEnv d parent = .ok v ↔ ∃ bytes text,
      d.read (dataName committedReleaseStem) = some bytes ∧
      PyText.utf8Decode bytes = some text ∧ env.jsonLoads text = .ok v := by
  unfold readCommittedData
  constructor
  · intro h
    dsimp only at h
    split at h
    · cases h
    next bytes hread =>
      split at h
      · cases h
      next text htext =>
        split at h
        · cases h
        · cases h
        next payload hloads => exact ⟨bytes, text, hread, htext, Except.ok.inj h ▸ hloads⟩
  · rintro ⟨bytes, text, hread, htext, hloads⟩
    simp only [hread, htext, hloads]

theorem CommittedData.receipt_unique (h : CommittedData payload parts)
    (h' : CommittedData payload parts') : receipt parts = receipt parts' := by
  have hreport : parts.report = parts'.report :=
    Json.obj.inj (Option.some.inj (h.report.symm.trans h'.report))
  have hintegrity : parts.integrity = parts'.integrity := by
    have := h'.integrity
    rw [← hreport, h.integrity] at this
    exact Json.obj.inj (Option.some.inj this)
  unfold receipt
  rw [hreport, hintegrity]

/-- The contents of the three files of the release in the two directories. -/
def releaseContents (d d' : Directory) : Set PyBytes :=
  {content | ∃ name ∈ bundleNames committedReleaseStem,
    d.read name = some content ∨ d'.read name = some content}

/-- Two directories that pass the gate have the same three files. -/
theorem same_of_passes (h : verifyCommittedReleaseEvidence env d root = .ok r)
    (h' : verifyCommittedReleaseEvidence env d' root' = .ok r')
    (hinj : Set.InjOn env.sha256 (releaseContents d d')) :
    r' = r ∧ ∀ name ∈ bundleNames committedReleaseStem, d'.lookup name = d.lookup name := by
  obtain ⟨bytes, payload, parts, hbytes, hsha, hverify, hread, hdata, rfl⟩ :=
    verifyCommittedReleaseEvidence_eq_ok.mp h
  obtain ⟨bytes', payload', parts', hbytes', hsha', hverify', hread', hdata', rfl⟩ :=
    verifyCommittedReleaseEvidence_eq_ok.mp h'
  obtain ⟨_, text, manifest, hfile, htext, hloads, hmanifest⟩ :=
    verifyEvidenceManifest_passes.mp hverify
  obtain ⟨_, text', manifest', hfile', htext', hloads', hmanifest'⟩ :=
    verifyEvidenceManifest_passes.mp hverify'
  obtain rfl := Option.some.inj ((Directory.read_of_lookup hbytes).symm.trans hfile)
  obtain rfl := Option.some.inj ((Directory.read_of_lookup hbytes').symm.trans hfile')
  -- the fixed digest makes the two manifests the same, and the manifest the other two files
  have hmem : manifestName committedReleaseStem ∈ bundleNames committedReleaseStem :=
    List.mem_append_right [_, _] List.mem_cons_self
  obtain rfl : bytes = bytes' :=
    hinj ⟨_, hmem, .inl hfile⟩ ⟨_, hmem, .inr hfile'⟩ (hsha.trans hsha'.symm)
  obtain rfl := Option.some.inj (htext.symm.trans htext')
  obtain rfl := Json.obj.inj (Except.ok.inj (hloads.symm.trans hloads'))
  obtain ⟨hreport, hdataFile⟩ := verifyManifest_agree hmanifest hmanifest' hinj
  refine ⟨?_, forall_mem_bundleNames.mpr ⟨hreport, hdataFile, hbytes'.trans hbytes.symm⟩⟩
  obtain ⟨content, text, hcontent, htext, hpayload⟩ := readCommittedData_passes.mp hread
  obtain ⟨content', text', hcontent', htext', hpayload'⟩ := readCommittedData_passes.mp hread'
  rw [Directory.read, hdataFile, ← Directory.read] at hcontent'
  obtain rfl := Option.some.inj (hcontent.symm.trans hcontent')
  obtain rfl := Option.some.inj (htext.symm.trans htext')
  obtain rfl := Json.obj.inj (Except.ok.inj (hpayload.symm.trans hpayload'))
  exact hdata'.receipt_unique hdata

/-- A release that stands as it was written is let through as its manifest and its data are; the
check reads the data with their keys in order. -/
theorem writtenRelease_eq_ok {reportBytes : PyBytes}
    (hplace : InPlace env.toEnv d committedReleaseStem reportBytes payload)
    (hdigest : ∀ content, (env.sha256 content).length = 64)
    (hmanifest : ReadsBackBundle env.toEnv committedReleaseStem reportBytes payload)
    (hloads : env.jsonLoads (evidenceText env.toEnv payload) = .ok (.obj (Dict.sorted payload))) :
    verifyCommittedReleaseEvidence env d root = .ok r ↔
      (∃ bytes, d.lookup (manifestName committedReleaseStem) = some (.file bytes) ∧
        env.sha256 bytes = committedReleaseManifestSha256) ∧
      ∃ parts, CommittedData (Dict.sorted payload) parts ∧ r = receipt parts := by
  have hread : readCommittedData env.toEnv d (releaseParent root) =
      .ok (.obj (Dict.sorted payload)) := by
    refine readCommittedData_passes.mpr ⟨_, _, Directory.read_of_lookup hplace.data, ?_, hloads⟩
    exact PyText.utf8Decode_ascii (evidenceText_ascii env.toEnv payload)
  have hstem : FileStem committedReleaseStem :=
    ⟨by decide, by decide, by decide, by decide, by decide⟩
  have hverify : verifyEvidenceManifest env.toEnv d (releaseParent root)
      (manifestName committedReleaseStem) = .ok () := hplace.verifies hstem hdigest hmanifest
  rw [verifyCommittedReleaseEvidence_eq_ok]
  constructor
  · rintro ⟨bytes, payload', parts, hbytes, hsha, -, hread', hdata, rfl⟩
    obtain rfl := Json.obj.inj (Except.ok.inj (hread.symm.trans hread'))
    exact ⟨⟨bytes, hbytes, hsha⟩, parts, hdata, rfl⟩
  · rintro ⟨⟨bytes, hbytes, hsha⟩, parts, hdata, rfl⟩
    exact ⟨bytes, _, parts, hbytes, hsha, hverify, hread, hdata, rfl⟩

end Pinned

def rowPath : Json → Json
  | .obj row => getOrNull row (py "path")
  | _ => .null

theorem CommittedRows.nodup_paths {runId : PyStr} {rows : List Json} {jobIds : List PyStr}
    (h : CommittedRows runId rows jobIds) : (rows.map rowPath).Nodup := by
  obtain ⟨hnodup, hrows⟩ := h
  have hpaths : rows.map rowPath =
      jobIds.map fun jobId => .str (py "artifact://" ++ jobId ++ py "/attempt-1.json") := by
    clear hnodup
    induction hrows with
    | nil => rfl
    | cons hrow _ ih =>
      obtain ⟨row, rfl, hrow⟩ := hrow
      rw [List.map_cons, List.map_cons, ih]
      congr 1
      exact hrow.path
  rw [hpaths]
  refine hnodup.map fun jobId jobId' heq => ?_
  exact List.append_cancel_left (List.append_cancel_right (Json.str.inj heq))

/-- The checks of the data raise nothing but errors of the gate. -/
theorem gate_raised {payload : Json} {c : String}
    (h : (verifyCommittedReleaseSemantics env payload >>= fun _ => committedVerification payload) =
      .error (.raised c)) : False := by
  rcases Except.bind_eq_error.mp h with hcheck | ⟨_, hcheck, h⟩
  · have hhandled := @verifyCommittedReleaseSemantics_handled env payload
    rw [hcheck] at hhandled
    obtain ⟨message, heq⟩ := hhandled
    cases heq
  · obtain ⟨fields, parts, rfl, hdata⟩ := verifyCommittedReleaseSemantics_eq_ok.mp hcheck
    cases hdata.verification.symm.trans h

end AgentRuntimeGrid
