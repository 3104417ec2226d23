import AgentRuntimeGrid.Evidence.Manifest

/-! A bundle verifies where it was written, and its manifest tells every later change of it. -/
namespace AgentRuntimeGrid

/-- A name component that the file system takes, and still does with the extension of a manifest
behind it and what the name of a temporary file adds. -/
structure FileStem (stem : PyStr) : Prop where
  ne_nil : stem ≠ []
  slash : 47 ∉ stem
  nul : 0 ∉ stem
  encodable : fsEncodable stem = true
  length : fsLength stem + 24 ≤ nameMax

section Names
variable {stem stem' name : PyStr}

/-- The three names of a stem differ in what follows it. -/
theorem mem_bundleNames : name ∈ bundleNames stem ↔
    ∃ ext ∈ [py ".md", py ".json", py ".manifest.json"], name = stem ++ ext := by
  simp [bundleNames, reportName, dataName, manifestName]

theorem bundleNames_nodup (stem : PyStr) : (bundleNames stem).Nodup := by
  have hnodup : [py ".md", py ".json", py ".manifest.json"].Nodup := by decide
  exact hnodup.map (List.append_right_injective stem)

theorem reportName_ne_dataName (stem : PyStr) : reportName stem ≠ dataName stem :=
  fun h => absurd (List.append_cancel_left h) (by decide)

theorem isSidecar_of_mem (h : name ∈ bundleNames stem) : isSidecar stem name = true := by
  obtain ⟨ext, hext, rfl⟩ := mem_bundleNames.mp h
  have hdot : ∀ ext ∈ [py ".md", py ".json", py ".manifest.json"], py "." <+: ext := by decide
  exact List.isPrefixOf_iff_prefix.mpr ((List.prefix_append_right_inj stem).mpr (hdot ext hext))

theorem take_manifestName (stem : PyStr) :
    (manifestName stem).take ((manifestName stem).length - 14) = stem := by
  have hlength : (py ".manifest.json").length = 14 := by decide
  rw [manifestName, List.length_append, hlength, Nat.add_sub_cancel, List.take_left]

theorem FileStem.name_parse (h : FileStem stem) (hname : name ∈ bundleNames stem) :
    (PyPath.parse name).name = name := by
  obtain ⟨ext, hext, rfl⟩ := mem_bundleNames.mp hname
  have hslash : ∀ ext ∈ [py ".md", py ".json", py ".manifest.json"], 47 ∉ ext := by decide
  refine PyPath.name_parse (by simp [h.ne_nil]) (fun heq => ?_) ?_
  · have hlength := congrArg List.length heq
    have hpos := List.length_pos_iff.mpr h.ne_nil
    have hext : ∀ ext ∈ [py ".md", py ".json", py ".manifest.json"], 0 < ext.length := by decide
    have := hext ext (by assumption)
    rw [List.length_append, List.length_singleton] at hlength
    omega
  · rw [List.mem_append, not_or]
    exact ⟨h.slash, hslash ext hext⟩

theorem fsLength_append (name name' : PyStr) :
    fsLength (name ++ name') = fsLength name + fsLength name' := by
  rw [fsLength, List.map_append, List.sum_append]
  rfl

theorem FileStem.writable (h : FileStem stem) (hname : name ∈ bundleNames stem) :
    fsEncodable name = true ∧ 0 ∉ name ∧ fsLength name + 10 ≤ nameMax := by
  obtain ⟨ext, hext, rfl⟩ := mem_bundleNames.mp hname
  have hplain : ∀ ext ∈ [py ".md", py ".json", py ".manifest.json"],
      fsEncodable ext = true ∧ 0 ∉ ext ∧ fsLength ext ≤ 14 := by decide
  obtain ⟨hencodable, hnul, hext⟩ := hplain ext hext
  refine ⟨?_, ?_, ?_⟩
  · rw [fsEncodable, List.all_append, Bool.and_eq_true]
    exact ⟨h.encodable, hencodable⟩
  · rw [List.mem_append, not_or]
    exact ⟨h.nul, hnul⟩
  · have hlength := h.length
    rw [fsLength_append]
    omega

theorem FileStem.paths (h : FileStem stem) : PyPath.suffix (reportName stem) = py ".md" ∧
    PyPath.withSuffix (reportName stem) (py ".json") = dataName stem ∧
    PyPath.stem (reportName stem) ++ py ".manifest.json" = manifestName stem := by
  have hext : 46 ∉ [109, 100] := by decide
  have hstem : PyPath.stem (reportName stem) = stem := PyPath.stem_append h.ne_nil hext (by decide)
  refine ⟨PyPath.suffix_append h.ne_nil hext (by decide),
    PyPath.withSuffix_append h.ne_nil hext (by decide) _, ?_⟩
  rw [hstem]
  rfl

end Names

section Verification
variable {env : Env} {d : Directory} {parent : PyPath} {stem name : PyStr} {report data : String}

theorem evidenceText_ascii (env : Env) (m : Dict) : ∀ c ∈ evidenceText env m, c < 128 := by
  intro c hc
  rcases List.mem_append.mp hc with hc | hc
  · exact Json.dumps_indented_ascii env.floatRepr_ascii _ c hc
  · exact (show ∀ c ∈ py "\n", c < 128 by decide) c hc

/-- An entry is accepted when it names another sibling, a regular file with its digest. -/
theorem verifyEntry_eq_ok {declared declared' : List PyStr} {digest : String}
    (hparse : (PyPath.parse name).name = name) (hdigest : digest.length = 64) :
    verifyEntry env d declared (manifestEntry (name, digest)) = .ok declared' ↔
      name ∉ declared ∧ declared' = name :: declared ∧
        ∃ content, d.lookup name = some (.file content) ∧ env.sha256 content = digest := by
  have hpath : Dict.get? [(py "path", .str name), (py "sha256", .str (py digest))] (py "path") =
      some (.str name) := rfl
  have hsha : Dict.get? [(py "path", .str name), (py "sha256", .str (py digest))] (py "sha256") =
      some (.str (py digest)) := rfl
  have hlength : (py digest).length = 64 := by
    rw [py, List.length_map, String.length_toList, hdigest]
  simp only [manifestEntry, verifyEntry, hpath, hsha, hparse, hlength, ne_eq, not_true_eq_false,
    if_false]
  by_cases hmem : name ∈ declared
  · simp [hmem]
  · rw [if_neg hmem]
    cases hlookup : d.lookup name with
    | none => simp [Directory.read, hlookup]
    | some e =>
      cases e with
      | file content =>
        by_cases hcontent : env.sha256 content = digest
        · simp [Directory.read, hlookup, DirEntry.isSymlink, DirEntry.content?, hcontent, hmem,
            eq_comm]
        · have hne : py (env.sha256 content) ≠ py digest := fun h => hcontent (py_inj.mp h)
          simp [Directory.read, hlookup, DirEntry.isSymlink, DirEntry.content?, hcontent, hne]
      | symlink target => simp [DirEntry.isSymlink]
      | directory | special =>
        simp [Directory.read, hlookup, DirEntry.isSymlink, DirEntry.content?]

/-- The report and the data are regular files with these digests, and no other file is a sidecar of
the report. -/
structure Attested (env : Env) (d : Directory) (stem : PyStr) (report data : String) : Prop where
  report : ∃ content, d.lookup (reportName stem) = some (.file content) ∧
    env.sha256 content = report
  data : ∃ content, d.lookup (dataName stem) = some (.file content) ∧ env.sha256 content = data
  sidecars : ∀ name ∈ d.fileNames (isSidecar stem), name ∈ bundleNames stem

theorem verifyManifest_eq_ok (hstem : FileStem stem) (hreport : report.length = 64)
    (hdata : data.length = 64) :
    verifyManifest env d (manifestName stem)
        (evidenceManifest (reportName stem, report) (dataName stem, data)).reverse = .ok () ↔
      Attested env d stem report data := by
  have hschema : Dict.get? (evidenceManifest (reportName stem, report)
      (dataName stem, data)).reverse (py "schema_version") = some (.str manifestSchema) := rfl
  have hfiles : Dict.get? (evidenceManifest (reportName stem, report)
      (dataName stem, data)).reverse (py "files") = some (.arr [manifestEntry
        (reportName stem, report), manifestEntry (dataName stem, data)]) := rfl
  have hsuffix : (py ".manifest.json").isSuffixOf (manifestName stem) = true := by
    simp [manifestName]
  have hr := hstem.name_parse (List.mem_cons_self : reportName stem ∈ bundleNames stem)
  have hd := hstem.name_parse (show dataName stem ∈ bundleNames stem by simp [bundleNames])
  have hnames : [dataName stem, reportName stem] ⊆ [reportName stem, dataName stem] ∧
      [reportName stem, dataName stem] ⊆ [dataName stem, reportName stem] := by simp
  have hsidecars : (d.fileNames (isSidecar stem)).filter
      (· ∉ manifestName stem :: [reportName stem, dataName stem]) = [] ↔
        ∀ name ∈ d.fileNames (isSidecar stem), name ∈ bundleNames stem := by
    rw [List.filter_eq_nil_iff]
    refine forall₂_congr fun name _ => ?_
    simp only [bundleNames, List.mem_cons, List.not_mem_nil, or_false, decide_eq_true_eq, not_not]
    tauto
  unfold verifyManifest
  simp only [hschema, hfiles, hsuffix, take_manifestName, List.length_cons, List.length_nil,
    List.foldlM_cons, List.foldlM_nil, ne_eq, not_true_eq_false, if_false]
  constructor
  · intro h
    cases hone : verifyEntry env d [] (manifestEntry (reportName stem, report)) with
    | error e => simp [hone, bind, Except.bind] at h
    | ok declared =>
      obtain ⟨-, rfl, hreportFile⟩ := (verifyEntry_eq_ok hr hreport).mp hone
      cases htwo : verifyEntry env d [reportName stem] (manifestEntry (dataName stem, data)) with
      | error e => simp [hone, htwo, bind, Except.bind] at h
      | ok declared =>
        obtain ⟨-, rfl, hdataFile⟩ := (verifyEntry_eq_ok hd hdata).mp htwo
        refine ⟨hreportFile, hdataFile, hsidecars.mp ?_⟩
        simp only [hone, htwo, bind, Except.bind, pure, Except.pure, hnames, not_true_eq_false,
          if_false, and_self] at h
        split at h
        next heq => exact heq
        next => cases h
  · rintro ⟨hreportFile, hdataFile, hnone⟩
    have hone : verifyEntry env d [] (manifestEntry (reportName stem, report)) =
        .ok [reportName stem] :=
      (verifyEntry_eq_ok hr hreport).mpr ⟨List.not_mem_nil, rfl, hreportFile⟩
    have htwo : verifyEntry env d [reportName stem] (manifestEntry (dataName stem, data)) =
        .ok [dataName stem, reportName stem] :=
      (verifyEntry_eq_ok hd hdata).mpr
        ⟨by simpa using (reportName_ne_dataName stem).symm, rfl, hdataFile⟩
    simp only [hone, htwo, bind, Except.bind, pure, Except.pure, hnames, not_true_eq_false,
      if_false, and_self, hsidecars.mpr hnone]

/-- `json.loads` reads back a manifest that `json.dumps` wrote, its keys in sorted order. -/
def ReadsBack (env : Env) (report data : PyStr × String) : Prop :=
  env.jsonLoads (evidenceText env (evidenceManifest report data)) =
    .ok (.obj (evidenceManifest report data).reverse)

/-- The manifest that the writer leaves behind is checked against these two files alone. -/
theorem verifyEvidenceManifest_eq_ok (hstem : FileStem stem) (hreport : report.length = 64)
    (hdata : data.length = 64)
    (hread : d.read (manifestName stem) = some (evidenceText env
      (evidenceManifest (reportName stem, report) (dataName stem, data))))
    (hloads : ReadsBack env (reportName stem, report) (dataName stem, data)) :
    verifyEvidenceManifest env d parent (manifestName stem) = .ok () ↔
      Attested env d stem report data := by
  have htext := PyText.utf8Decode_ascii (evidenceText_ascii env
    (evidenceManifest (reportName stem, report) (dataName stem, data)))
  unfold verifyEvidenceManifest
  simp only [hread, htext]
  rw [show env.jsonLoads _ = _ from hloads]
  exact verifyManifest_eq_ok hstem hreport hdata

end Verification

section Writing
variable {env : Env} {d d' : Directory} {parent : PyPath} {stem rendered : PyStr}
  {reportBytes : PyBytes} {payload : Dict}

def bundleManifest (env : Env) (stem : PyStr) (reportBytes : PyBytes) (payload : Dict) : Dict :=
  evidenceManifest (reportName stem, env.sha256 reportBytes)
    (dataName stem, env.sha256 (evidenceText env payload))

/-- The directory after the three files of a bundle are written. -/
def placed (env : Env) (d : Directory) (stem : PyStr) (reportBytes : PyBytes) (payload : Dict) :
    Directory :=
  ((d.insert (reportName stem) (.file reportBytes)).insert (dataName stem)
    (.file (evidenceText env payload))).insert (manifestName stem)
      (.file (evidenceText env (bundleManifest env stem reportBytes payload)))

theorem lookup_placed_of_notMem {name : PyStr} (h : name ∉ bundleNames stem) :
    (placed env d stem reportBytes payload).lookup name = d.lookup name := by
  simp only [bundleNames, List.mem_cons, List.not_mem_nil, or_false, not_or] at h
  rw [placed, AList.lookup_insert_ne h.2.2, AList.lookup_insert_ne h.2.1,
    AList.lookup_insert_ne h.1]

variable (env d stem reportBytes payload) in
theorem lookup_placed : (placed env d stem reportBytes payload).lookup (reportName stem) =
      some (.file reportBytes) ∧
    (placed env d stem reportBytes payload).lookup (dataName stem) =
      some (.file (evidenceText env payload)) ∧
    (placed env d stem reportBytes payload).lookup (manifestName stem) =
      some (.file (evidenceText env (bundleManifest env stem reportBytes payload))) := by
  have hnodup := bundleNames_nodup stem
  simp only [bundleNames, List.nodup_cons, List.mem_cons, List.not_mem_nil, or_false,
    not_or] at hnodup
  obtain ⟨⟨hreportData, hreportManifest⟩, hdataManifest, -⟩ := hnodup
  refine ⟨?_, ?_, ?_⟩
  · rw [placed, AList.lookup_insert_ne hreportManifest, AList.lookup_insert_ne hreportData,
      AList.lookup_insert]
  · rw [placed, AList.lookup_insert_ne hdataManifest, AList.lookup_insert]
  · rw [placed, AList.lookup_insert]

theorem exists_file_placed {name : PyStr} (h : name ∈ bundleNames stem) :
    ∃ content, (placed env d stem reportBytes payload).lookup name = some (.file content) := by
  obtain ⟨hreport, hdata, hmanifest⟩ := lookup_placed env d stem reportBytes payload
  simp only [bundleNames, List.mem_cons, List.not_mem_nil, or_false] at h
  rcases h with rfl | rfl | rfl
  · exact ⟨_, hreport⟩
  · exact ⟨_, hdata⟩
  · exact ⟨_, hmanifest⟩

theorem atomicWrite_eq {name : PyStr} {content : PyBytes} (hwritable : fsEncodable name = true ∧
    0 ∉ name ∧ fsLength name + 10 ≤ nameMax) (hdir : d.lookup name ≠ some .directory) :
    atomicWrite name content d = .ok () (d.insert name (.file content)) := by
  obtain ⟨hencodable, hnul, hlength⟩ := hwritable
  simp only [atomicWrite, hencodable, hnul, not_lt.mpr hlength, Directory.replace_eq hdir]
  simp

/-- The writer on a stem: it writes the three files, unless one of the names is a directory or the
text has no encoding, and returns what the check of its manifest says. -/
theorem writeEvidenceBundle_eq (hstem : FileStem stem)
    (hbytes : PyText.utf8Encode rendered = some reportBytes)
    (hdirs : ∀ name ∈ bundleNames stem, d.lookup name ≠ some .directory) :
    writeEvidenceBundle env parent (reportName stem) rendered payload d =
      match verifyEvidenceManifest env (placed env d stem reportBytes payload) parent
        (manifestName stem) with
      | .error e => .error e (placed env d stem reportBytes payload)
      | .ok () => .ok ⟨reportName stem, dataName stem, manifestName stem⟩
          (placed env d stem reportBytes payload) := by
  obtain ⟨hsuffix, hdataName, hmanifestName⟩ := hstem.paths
  have hencode : ∀ m, PyText.utf8Encode (evidenceText env m) = some (evidenceText env m) :=
    fun m => PyText.utf8Encode_ascii (evidenceText_ascii env m)
  have hnodup := bundleNames_nodup stem
  simp only [bundleNames, List.nodup_cons, List.mem_cons, List.not_mem_nil, or_false,
    not_or] at hnodup
  obtain ⟨⟨hreportData, hreportManifest⟩, hdataManifest, -⟩ := hnodup
  simp only [bundleNames, List.forall_mem_cons] at hdirs
  obtain ⟨hreportDir, hdataDir, hmanifestDir, -⟩ := hdirs
  let d₁ : Directory := d.insert (reportName stem) (.file reportBytes)
  let d₂ : Directory := d₁.insert (dataName stem) (.file (evidenceText env payload))
  have hfirst : atomicWrite (reportName stem) reportBytes d = .ok () d₁ :=
    atomicWrite_eq (hstem.writable (by simp [bundleNames])) hreportDir
  have hsecond : atomicWrite (dataName stem) (evidenceText env payload) d₁ = .ok () d₂ := by
    refine atomicWrite_eq (hstem.writable (by simp [bundleNames])) ?_
    rwa [AList.lookup_insert_ne (Ne.symm hreportData)]
  have hreportSha : sha256Of env (reportName stem) d₂ = .ok (env.sha256 reportBytes) d₂ := by
    simp only [sha256Of, Directory.read, d₂, AList.lookup_insert_ne hreportData, d₁,
      AList.lookup_insert]
    rfl
  have hdataSha : sha256Of env (dataName stem) d₂ =
      .ok (env.sha256 (evidenceText env payload)) d₂ := by
    simp only [sha256Of, Directory.read, d₂, AList.lookup_insert]
    rfl
  have hthird : atomicWrite (manifestName stem)
      (evidenceText env (bundleManifest env stem reportBytes payload)) d₂ =
        .ok () (placed env d stem reportBytes payload) := by
    refine atomicWrite_eq (hstem.writable (by simp [bundleNames])) ?_
    rwa [AList.lookup_insert_ne (Ne.symm hdataManifest),
      AList.lookup_insert_ne (Ne.symm hreportManifest)]
  rw [bundleManifest] at hthird
  unfold writeEvidenceBundle
  cases hverify : verifyEvidenceManifest env (placed env d stem reportBytes payload) parent
    (manifestName stem) <;>
    simp only [hsuffix, hdataName, hmanifestName, ne_eq, not_true_eq_false, if_false, bind,
      EStateM.bind, encodeText, hbytes, hencode, hfirst, hsecond, hreportSha, hdataSha, hthird,
      hverify]

/-- The bundle can be written over whatever has its names, and no other file is a sidecar of its
report. -/
structure Clean (d : Directory) (stem : PyStr) : Prop where
  writable : ∀ name ∈ bundleNames stem, d.lookup name ≠ some .directory
  sidecars : ∀ name ∈ d.fileNames (isSidecar stem), name ∈ bundleNames stem

/-- The bundle stands as it was written and no other file is a sidecar of its report. -/
structure InPlace (env : Env) (d : Directory) (stem : PyStr) (reportBytes : PyBytes)
    (payload : Dict) : Prop where
  report : d.lookup (reportName stem) = some (.file reportBytes)
  data : d.lookup (dataName stem) = some (.file (evidenceText env payload))
  manifest : d.read (manifestName stem) =
    some (evidenceText env (bundleManifest env stem reportBytes payload))
  sidecars : ∀ name ∈ d.fileNames (isSidecar stem), name ∈ bundleNames stem

/-- `json.loads` reads back the manifest of the bundle. -/
def ReadsBackBundle (env : Env) (stem : PyStr) (reportBytes : PyBytes) (payload : Dict) : Prop :=
  ReadsBack env (reportName stem, env.sha256 reportBytes)
    (dataName stem, env.sha256 (evidenceText env payload))

theorem placed_inPlace (hclean : Clean d stem) :
    InPlace env (placed env d stem reportBytes payload) stem reportBytes payload := by
  obtain ⟨hreport, hdata, hmanifest⟩ := lookup_placed env d stem reportBytes payload
  refine ⟨hreport, hdata, by rw [Directory.read, hmanifest]; rfl, fun name hname => ?_⟩
  by_contra hnot
  rw [Directory.mem_fileNames, lookup_placed_of_notMem hnot] at hname
  exact hnot (hclean.sidecars name (Directory.mem_fileNames.mpr hname))

theorem InPlace.verifies (h : InPlace env d stem reportBytes payload) (hstem : FileStem stem)
    (hdigest : ∀ content, (env.sha256 content).length = 64)
    (hloads : ReadsBackBundle env stem reportBytes payload) :
    verifyEvidenceManifest env d parent (manifestName stem) = .ok () := by
  refine (verifyEvidenceManifest_eq_ok hstem (hdigest _) (hdigest _) h.manifest hloads).mpr ?_
  exact ⟨⟨_, h.report, rfl⟩, ⟨_, h.data, rfl⟩, h.sidecars⟩

theorem writeEvidenceBundle_eq_ok (hstem : FileStem stem)
    (hbytes : PyText.utf8Encode rendered = some reportBytes) (hclean : Clean d stem)
    (hdigest : ∀ content, (env.sha256 content).length = 64)
    (hloads : ReadsBackBundle env stem reportBytes payload) :
    writeEvidenceBundle env parent (reportName stem) rendered payload d =
      .ok ⟨reportName stem, dataName stem, manifestName stem⟩
        (placed env d stem reportBytes payload) := by
  rw [writeEvidenceBundle_eq hstem hbytes hclean.writable,
    (placed_inPlace hclean).verifies hstem hdigest hloads]

/-- A library that digests the report `x`, its tampered copy `y` and the empty payload, and reads
back the manifest of the first. -/
def bundleEnv : Env where
  sha256 content :=
    if content = py "x" then "2d711642b726b04401627ca9fbac32f5c8530fb1903cc4db02258717921a4881"
    else if content = py "y" then
      "a1fce4363854ff888cff4b8e7875d600c2682390412a8cf79b37d0b11148b0fa"
    else "ca3d163bab055381827226140568f3bef7eaac187cebd76878e0b63e9e442356"
  floatRepr _ := py "1.0"
  strOther _ := py "True"
  jsonLoads _ := .ok (.obj (evidenceManifest
    (py "a.md", "2d711642b726b04401627ca9fbac32f5c8530fb1903cc4db02258717921a4881")
    (py "a.json", "ca3d163bab055381827226140568f3bef7eaac187cebd76878e0b63e9e442356")).reverse)
  resolve _ := .other ""
  floatRepr_ascii _ := by decide
  strOther_storable _ := by decide
  jsonLoads_dumps _ := ⟨_, rfl⟩

end Writing
end AgentRuntimeGrid
