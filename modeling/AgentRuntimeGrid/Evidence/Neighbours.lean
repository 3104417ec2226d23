import AgentRuntimeGrid.Evidence.Bundle

/-! Several bundles in one directory. What belongs to one report is told by the start of its name,
so the stem of one report can make the files of another its sidecars. -/
namespace AgentRuntimeGrid

section Names
variable {stem stem' name : PyStr}

/-- A name of one bundle is a sidecar of another report only if one stem extends the other. -/
theorem stem_cases_of_isSidecar (hmem : name ∈ bundleNames stem')
    (h : isSidecar stem name = true) :
    stem = stem' ∨ stem ++ py "." <+: stem' ∨ stem' ++ py "." <+: stem := by
  obtain ⟨ext, hext, rfl⟩ := mem_bundleNames.mp hmem
  have hprefix := List.isPrefixOf_iff_prefix.mp h
  rcases List.prefix_or_prefix_of_prefix hprefix (List.prefix_append stem' ext) with hle | ⟨u, hu⟩
  · exact .inr (.inl hle)
  · rw [← hu, List.prefix_append_right_inj] at hprefix
    -- what the stem and its dot have beyond the other stem ends in a dot
    have hinits : ∀ ext ∈ [py ".md", py ".json", py ".manifest.json"], ∀ u ∈ ext.inits,
        u = [] ∨ u.getLast? = some 46 → u = [] ∨ u = py "." ∨ u = py ".manifest" ++ py "." := by
      decide
    have hlast : u = [] ∨ u.getLast? = some 46 := by
      rcases List.eq_nil_or_concat u with rfl | ⟨v, c, rfl⟩
      · exact .inl rfl
      · have hend := congrArg List.getLast? hu
        simp [py] at hend
        exact .inr (by simp [hend])
    rcases hinits ext hext u ((List.mem_inits _ _).mpr hprefix) hlast with rfl | rfl | rfl
    · rw [List.append_nil] at hu
      exact .inr (.inl (hu ▸ List.prefix_refl _))
    · exact .inl (List.append_cancel_right hu).symm
    · rw [← List.append_assoc] at hu
      have hstem := List.append_cancel_right hu
      refine .inr (.inr ⟨py "manifest", ?_⟩)
      rw [← hstem, List.append_assoc]
      rfl

theorem reportName_of_extends (h : stem ++ py "." <+: stem') :
    isSidecar stem (reportName stem') = true ∧ reportName stem' ∉ bundleNames stem := by
  obtain ⟨t, rfl⟩ := h
  constructor
  · rw [isSidecar, List.isPrefixOf_iff_prefix, reportName, List.append_assoc]
    exact List.prefix_append _ _
  · intro hmem
    obtain ⟨ext, hext, heq⟩ := mem_bundleNames.mp hmem
    rw [reportName, List.append_assoc, List.append_assoc] at heq
    have heq := List.append_cancel_left heq
    have hmd : ∀ ext ∈ [py ".md", py ".json", py ".manifest.json"],
        py ".md" <:+ ext → ext.length = 3 := by decide
    have hlength := hmd ext hext ⟨py "." ++ t, by rw [← heq, List.append_assoc]⟩
    rw [← heq] at hlength
    simp [py] at hlength

end Names

section Writing
variable {env : Env} {d d' : Directory} {parent : PyPath} {stem rendered name : PyStr}
  {payload : Dict} {bundle : EvidenceBundle}

theorem EvidenceM.bind_eq_ok {α β : Type} {x : EvidenceM α} {f : α → EvidenceM β} {b : β}
    (h : (x >>= f) d = .ok b d') : ∃ a d₁, x d = .ok a d₁ ∧ f a d₁ = .ok b d' := by
  simp only [bind, EStateM.bind] at h
  split at h
  next a d₁ hx => exact ⟨a, d₁, hx, h⟩
  next => cases h

theorem encodeText_eq_ok {bytes : PyBytes} (h : encodeText rendered d = .ok bytes d') :
    PyText.utf8Encode rendered = some bytes ∧ d' = d := by
  unfold encodeText at h
  split at h
  · cases h
  next bytes' hbytes =>
    cases h
    exact ⟨hbytes, rfl⟩

theorem sha256Of_eq_ok {digest : String} (h : sha256Of env name d = .ok digest d') : d' = d := by
  unfold sha256Of at h
  split at h
  · cases h
  · cases h
    rfl

theorem atomicWrite_eq_ok {content : PyBytes} {u : Unit}
    (h : atomicWrite name content d = .ok u d') :
    d.lookup name ≠ some .directory ∧ d' = d.insert name (.file content) := by
  unfold atomicWrite at h
  split at h
  · cases h
  · split at h
    · cases h
    · split at h
      · cases h
      · split at h
        · cases h
        next d₁ hd₁ =>
          cases h
          exact Directory.replace_eq_some hd₁

/-- A write that returns has written the three files, none of them over a directory. -/
theorem writeEvidenceBundle_inv (hstem : FileStem stem)
    (h : writeEvidenceBundle env parent (reportName stem) rendered payload d = .ok bundle d') :
    ∃ reportBytes, PyText.utf8Encode rendered = some reportBytes ∧
      (∀ name ∈ bundleNames stem, d.lookup name ≠ some .directory) ∧
      d' = placed env d stem reportBytes payload := by
  have hwrites : ∃ reportBytes, PyText.utf8Encode rendered = some reportBytes ∧
      ∀ name ∈ bundleNames stem, d.lookup name ≠ some .directory := by
    obtain ⟨hsuffix, hdataName, hmanifestName⟩ := hstem.paths
    have hnodup := bundleNames_nodup stem
    simp only [bundleNames, List.nodup_cons, List.mem_cons, List.not_mem_nil, or_false,
      not_or] at hnodup
    obtain ⟨⟨hreportData, hreportManifest⟩, hdataManifest, -⟩ := hnodup
    unfold writeEvidenceBundle at h
    simp only [hsuffix, hdataName, hmanifestName, ne_eq, not_true_eq_false, if_false] at h
    obtain ⟨reportBytes, d₁, hreport, h₁⟩ := EvidenceM.bind_eq_ok h
    obtain ⟨hbytes, rfl⟩ := encodeText_eq_ok hreport
    obtain ⟨_, d₂, hwrite, h₂⟩ := EvidenceM.bind_eq_ok h₁
    obtain ⟨hreportDir, rfl⟩ := atomicWrite_eq_ok hwrite
    obtain ⟨_, d₃, hdata, h₃⟩ := EvidenceM.bind_eq_ok h₂
    obtain ⟨-, rfl⟩ := encodeText_eq_ok hdata
    obtain ⟨_, d₄, hwrite, h₄⟩ := EvidenceM.bind_eq_ok h₃
    obtain ⟨hdataDir, rfl⟩ := atomicWrite_eq_ok hwrite
    obtain ⟨_, d₅, hsha, h₅⟩ := EvidenceM.bind_eq_ok h₄
    obtain rfl := sha256Of_eq_ok hsha
    obtain ⟨_, d₆, hsha, h₆⟩ := EvidenceM.bind_eq_ok h₅
    obtain rfl := sha256Of_eq_ok hsha
    obtain ⟨_, d₇, hmanifest, h₇⟩ := EvidenceM.bind_eq_ok h₆
    obtain ⟨-, rfl⟩ := encodeText_eq_ok hmanifest
    obtain ⟨_, d₈, hwrite, -⟩ := EvidenceM.bind_eq_ok h₇
    obtain ⟨hmanifestDir, -⟩ := atomicWrite_eq_ok hwrite
    rw [AList.lookup_insert_ne (Ne.symm hreportData)] at hdataDir
    rw [AList.lookup_insert_ne (Ne.symm hdataManifest),
      AList.lookup_insert_ne (Ne.symm hreportManifest)] at hmanifestDir
    refine ⟨reportBytes, hbytes, ?_⟩
    simp only [bundleNames, List.forall_mem_cons, List.not_mem_nil, false_implies, implies_true]
    exact ⟨hreportDir, hdataDir, hmanifestDir, trivial⟩
  obtain ⟨reportBytes, hbytes, hdirs⟩ := hwrites
  refine ⟨reportBytes, hbytes, hdirs, ?_⟩
  rw [writeEvidenceBundle_eq hstem hbytes hdirs] at h
  split at h
  · cases h
  · cases h
    rfl

end Writing

structure BundleCall where
  stem : PyStr
  renderedReport : PyStr
  payload : Dict

/-- One call after the other into one directory. -/
def writeBundles (env : Env) (parent : PyPath) : List BundleCall → EvidenceM Unit
  | [] => pure ()
  | c :: calls => do
    let _ ← writeEvidenceBundle env parent (reportName c.stem) c.renderedReport c.payload
    writeBundles env parent calls

/-- There is a regular file, or a link to one, under the name. -/
def Directory.HasFile (d : Directory) (name : PyStr) : Prop :=
  ∃ e, d.lookup name = some e ∧ e.isFile = true

/-- No file of one bundle is a sidecar of the other's report. -/
def Apart (stem stem' : PyStr) : Prop :=
  (∀ name ∈ bundleNames stem', isSidecar stem name = false) ∧
  ∀ name ∈ bundleNames stem, isSidecar stem' name = false

section Sequences
variable {env : Env} {d d' : Directory} {parent : PyPath} {stem stem' name : PyStr}
  {reportBytes reportBytes' : PyBytes} {payload payload' : Dict} {calls : List BundleCall}

theorem apart_of_not_extends (hne : stem ≠ stem') (h : ¬ stem ++ py "." <+: stem')
    (h' : ¬ stem' ++ py "." <+: stem) : Apart stem stem' := by
  constructor
  · intro name hname
    by_contra hside
    rcases stem_cases_of_isSidecar hname (Bool.not_eq_false _ ▸ hside) with heq | hlt | hgt
    · exact hne heq
    · exact h hlt
    · exact h' hgt
  · intro name hname
    by_contra hside
    rcases stem_cases_of_isSidecar hname (Bool.not_eq_false _ ▸ hside) with heq | hlt | hgt
    · exact hne heq.symm
    · exact h' hlt
    · exact h hgt

/-- A bundle written apart from a report leaves all its sidecars alone. -/
theorem lookup_placed_of_apart (hapart : Apart stem stem') (hname : isSidecar stem name = true) :
    (placed env d stem' reportBytes' payload').lookup name = d.lookup name := by
  refine lookup_placed_of_notMem fun hmem => ?_
  rw [hapart.1 name hmem] at hname
  cases hname

theorem fileNames_placed_of_apart (hapart : Apart stem stem') :
    name ∈ (placed env d stem' reportBytes' payload').fileNames (isSidecar stem) ↔
      name ∈ d.fileNames (isSidecar stem) := by
  rw [Directory.mem_fileNames, Directory.mem_fileNames]
  refine and_congr_left fun hname => ?_
  rw [lookup_placed_of_apart hapart hname]

theorem Clean.placed (hclean : Clean d stem) (hapart : Apart stem stem') :
    Clean (placed env d stem' reportBytes' payload') stem := by
  constructor
  · intro name hname
    rw [lookup_placed_of_apart hapart (isSidecar_of_mem hname)]
    exact hclean.writable name hname
  · intro name hname
    exact hclean.sidecars name ((fileNames_placed_of_apart hapart).mp hname)

theorem InPlace.placed (h : InPlace env d stem reportBytes payload) (hapart : Apart stem stem') :
    InPlace env (placed env d stem' reportBytes' payload') stem reportBytes payload := by
  have hlookup : ∀ name ∈ bundleNames stem,
      (AgentRuntimeGrid.placed env d stem' reportBytes' payload').lookup name = d.lookup name :=
    fun name hname => lookup_placed_of_apart hapart (isSidecar_of_mem hname)
  simp only [bundleNames, List.forall_mem_cons] at hlookup
  obtain ⟨hreport, hdata, hmanifest, -⟩ := hlookup
  refine ⟨hreport.trans h.report, hdata.trans h.data, ?_, fun name hname => ?_⟩
  · rw [Directory.read, hmanifest]
    exact h.manifest
  · exact h.sidecars name ((fileNames_placed_of_apart hapart).mp hname)

/-- Calls that stay apart all return, and leave every bundle in place: their own ones and those
that were there before. -/
theorem writeBundles_eq_ok (hstems : ∀ c ∈ calls, FileStem c.stem)
    (hbytes : ∀ c ∈ calls, (PyText.utf8Encode c.renderedReport).isSome = true)
    (hclean : ∀ c ∈ calls, Clean d c.stem)
    (hapart : calls.Pairwise fun c c' => Apart c.stem c'.stem)
    (hdigest : ∀ content, (env.sha256 content).length = 64)
    (hloads : ∀ c ∈ calls, ∀ reportBytes, PyText.utf8Encode c.renderedReport = some reportBytes →
      ReadsBackBundle env c.stem reportBytes c.payload) :
    ∃ d', writeBundles env parent calls d = .ok () d' ∧
      (∀ c ∈ calls, ∃ reportBytes, PyText.utf8Encode c.renderedReport = some reportBytes ∧
        InPlace env d' c.stem reportBytes c.payload) ∧
      ∀ stem reportBytes payload, InPlace env d stem reportBytes payload →
        (∀ c ∈ calls, Apart stem c.stem) → InPlace env d' stem reportBytes payload := by
  induction calls generalizing d with
  | nil => exact ⟨d, rfl, fun _ h => (nomatch h), fun _ _ _ h _ => h⟩
  | cons c calls ih =>
    rw [List.forall_mem_cons] at hstems hbytes hclean hloads
    obtain ⟨hhead, htail⟩ := List.pairwise_cons.mp hapart
    obtain ⟨reportBytes, hreport⟩ := Option.isSome_iff_exists.mp hbytes.1
    have hwrite : writeEvidenceBundle env parent (reportName c.stem) c.renderedReport c.payload d =
        .ok _ (placed env d c.stem reportBytes c.payload) :=
      writeEvidenceBundle_eq_ok hstems.1 hreport hclean.1 hdigest (hloads.1 reportBytes hreport)
    obtain ⟨d', hrun, hown, hkept⟩ := ih hstems.2 hbytes.2
      (fun c' hc' => (hclean.2 c' hc').placed ⟨(hhead c' hc').2, (hhead c' hc').1⟩) htail hloads.2
    refine ⟨d', ?_, ?_, fun stem bytes payload hin hstem => ?_⟩
    · rw [writeBundles]
      simp only [bind, EStateM.bind, hwrite]
      exact hrun
    · rw [List.forall_mem_cons]
      exact ⟨⟨reportBytes, hreport, hkept _ _ _ (placed_inPlace hclean.1) hhead⟩, hown⟩
    · rw [List.forall_mem_cons] at hstem
      exact hkept _ _ _ (hin.placed hstem.1) hstem.2

theorem hasFile_placed (h : Directory.HasFile d name ∨ name ∈ bundleNames stem) :
    Directory.HasFile (placed env d stem reportBytes payload) name := by
  by_cases hname : name ∈ bundleNames stem
  · obtain ⟨content, hcontent⟩ := exists_file_placed hname
    exact ⟨_, hcontent, rfl⟩
  · obtain ⟨e, he, hfile⟩ := h.resolve_right hname
    exact ⟨e, (lookup_placed_of_notMem hname).trans he, hfile⟩

/-- Calls that all return could write their files, and no file goes away. -/
theorem writeBundles_inv (hstems : ∀ c ∈ calls, FileStem c.stem)
    (h : writeBundles env parent calls d = .ok () d') :
    (∀ c ∈ calls, (PyText.utf8Encode c.renderedReport).isSome = true) ∧
    (∀ c ∈ calls, ∀ name ∈ bundleNames c.stem, d.lookup name ≠ some .directory) ∧
    ∀ name, Directory.HasFile d name ∨ (∃ c ∈ calls, name ∈ bundleNames c.stem) →
      Directory.HasFile d' name := by
  induction calls generalizing d with
  | nil =>
    cases h
    exact ⟨fun _ h => (nomatch h), fun _ h => (nomatch h), fun _ h => h.resolve_right nofun⟩
  | cons c calls ih =>
    rw [List.forall_mem_cons] at hstems
    rw [writeBundles] at h
    obtain ⟨bundle, d₁, hwrite, hrest⟩ := EvidenceM.bind_eq_ok h
    obtain ⟨reportBytes, hbytes, hdirs, rfl⟩ := writeEvidenceBundle_inv hstems.1 hwrite
    obtain ⟨hrestBytes, hrestDirs, hrestFiles⟩ := ih hstems.2 hrest
    refine ⟨?_, ?_, fun name hname => hrestFiles name ?_⟩
    · rw [List.forall_mem_cons]
      exact ⟨Option.isSome_iff_exists.mpr ⟨_, hbytes⟩, hrestBytes⟩
    · rw [List.forall_mem_cons]
      refine ⟨hdirs, fun c' hc' name hname => ?_⟩
      -- a later call found the name as it was before the first one, or written by it
      by_cases hmem : name ∈ bundleNames c.stem
      · exact hdirs name hmem
      · rw [← lookup_placed_of_notMem hmem]
        exact hrestDirs c' hc' name hname
    · rcases hname with hfile | ⟨c', hc', hname⟩
      · exact .inl (hasFile_placed (.inl hfile))
      · rcases List.mem_cons.mp hc' with rfl | hc'
        · exact .inl (hasFile_placed (.inr hname))
        · exact .inr ⟨c', hc', hname⟩

/-- Whatever its manifest says, a verified report has no sidecars but the bundle's. -/
theorem sidecars_of_verified
    (h : verifyEvidenceManifest env d parent (manifestName stem) = .ok ()) :
    ∀ name ∈ d.fileNames (isSidecar stem), name ∈ bundleNames stem := by
  have hmanifest : ∃ m, verifyManifest env d (manifestName stem) m = .ok () := by
    unfold verifyEvidenceManifest at h
    split at h
    · cases h
    · split at h
      · cases h
      · split at h
        · cases h
        · cases h
        next m _ => exact ⟨m, h⟩
        · cases h
  obtain ⟨m, h⟩ := hmanifest
  unfold verifyManifest at h
  simp only [take_manifestName] at h
  split at h
  next schema _ =>
    split at h
    · cases h
    · split at h
      · cases h
      · split at h
        next entries _ =>
          split at h
          · cases h
          · cases hdeclared : entries.foldlM (verifyEntry env d) [] with
            | error e => simp [hdeclared, bind, Except.bind] at h
            | ok declared =>
              simp only [hdeclared, bind, Except.bind] at h
              split at h
              · cases h
              · split at h
                next hnone =>
                  intro name hname
                  have hmem := List.filter_eq_nil_iff.mp hnone name hname
                  simp only [List.mem_cons, List.not_mem_nil, or_false, decide_eq_true_eq,
                    not_not] at hmem
                  simp only [bundleNames, List.mem_cons, List.not_mem_nil, or_false]
                  tauto
                next => cases h
        next => cases h
  next => cases h

/-- The library of `bundleEnv`, reading back the manifests of the report `a` and of another. -/
def neighboursEnv (stem : PyStr) : Env :=
  { bundleEnv with
    jsonLoads := fun text =>
      .ok (.obj (if text = evidenceText bundleEnv (bundleManifest bundleEnv (py "a") (py "x") [])
        then (bundleManifest bundleEnv (py "a") (py "x") []).reverse
        else (bundleManifest bundleEnv stem (py "x") []).reverse))
    jsonLoads_dumps := fun _ => ⟨_, rfl⟩ }

end Sequences
end AgentRuntimeGrid
