import AgentRuntimeGrid.Artifacts.Agreement

/-! What the store writes for a result without a payload passes the check of a report for as long
as the file stands. -/
namespace AgentRuntimeGrid

/-- Documented behaviour of the libraries a report rests on: an integer is its own `int`, objects
are loaded as they are written, and a number over itself is `1.0`. -/
structure ReportEnv.Documented (env : ReportEnv) : Prop where
  intOf_int : ∀ n, env.intOf (.int n) = .ok n
  jsonLoads : ∃ parseFloat, ∀ text d, Json.loads parseFloat text = .ok (.obj d) →
    env.jsonLoads text = .ok (.obj d)
  trueDiv_self : ∀ n, 0 < n → env.trueDiv n n = .finite 1

/-- The text of a time is the ISO text of the time it stands for. -/
def ReportEnv.ClockText (env : ReportEnv) (now : String) : Prop :=
  env.isoFormat (py now) = .ok (py now)

/-- The path of an artifact leads to it from where the report is made. -/
def ReportEnv.Finds (env : ReportEnv) (ref : FileRef) : Prop := env.resolve (env.pathText ref) = ref

/-- A report reads the metadata back as it is, and finds the file as it says. -/
structure ArtifactMetadata.Verified (env : ReportEnv) (files : FileStore) (m : ArtifactMetadata) :
    Prop where
  readsBack : ArtifactRecord.fromDict env (m.toDict env) = .ok (m.record env)
  found : env.Finds m.path
  intact : (m.record env).Intact env.toEnv files

theorem ArtifactMetadata.Verified.congr {env : ReportEnv} {files files' : FileStore}
    {m : ArtifactMetadata} (h : m.Verified env files) (heq : files' m.path = files m.path) :
    m.Verified env files' := by
  refine ⟨h.readsBack, h.found, ?_⟩
  obtain ⟨bytes, text, content, hfile, hspec⟩ := h.intact
  refine ⟨bytes, text, content, Eq.trans ?_ hfile, hspec⟩
  rw [show env.resolve (m.record env).path = m.path from h.found, heq]

theorem readable_indentedFormat : Json.indentedFormat.Readable := by
  refine ⟨⟨[], rfl, ?_⟩, ⟨[32], rfl, by decide⟩⟩
  intro c hc
  cases hc

/-- The characters of a Lean string are no surrogates. -/
theorem unpaired_py (s : String) : Json.Unpaired (py s) := by
  have hvalid : ∀ c ∈ py s, c < 0x110000 ∧ PyText.isSurrogate c = false := by
    intro c hc
    obtain ⟨ch, -, rfl⟩ := List.mem_map.mp hc
    have hch := ch.valid
    change ch.toNat < 0xd800 ∨ 0xdfff < ch.toNat ∧ ch.toNat < 0x110000 at hch
    simp only [PyText.isSurrogate, Bool.and_eq_false_iff, decide_eq_false_iff_not]
    omega
  exact Json.unpaired_of_scalar (fun c hc => (hvalid c hc).1) fun c hc => (hvalid c hc).2

theorem uuidText_lt (u : UUID) : ∀ c ∈ uuidText u, c < 128 := by
  have hdigit : ∀ c ∈ (List.range 32).map (uuidDigit u), c < 128 := by
    intro c hc
    obtain ⟨i, -, rfl⟩ := List.mem_map.mp hc
    unfold uuidDigit
    have := Nat.mod_lt (u.toNat / 16 ^ (31 - i)) (by decide : 0 < 16)
    simp only
    split <;> omega
  have hgroup : ∀ start n, ∀ c ∈ ((((List.range 32).map (uuidDigit u)).drop start).take n),
      c < 128 :=
    fun start n c hc => hdigit c (List.mem_of_mem_drop (List.mem_of_mem_take hc))
  intro c hc
  change c ∈ _ ++ [45] ++ _ ++ [45] ++ _ ++ [45] ++ _ ++ [45] ++ _ at hc
  simp only [List.mem_append, List.mem_singleton] at hc
  rcases hc with (((((((h | rfl) | h) | rfl) | h) | rfl) | h) | rfl) | h
  all_goals first
    | exact hgroup _ _ c h
    | decide

theorem unpaired_uuidText (u : UUID) : Json.Unpaired (uuidText u) := by
  have hlt := uuidText_lt u
  refine Json.unpaired_of_scalar (fun c hc => (hlt c hc).trans (by decide)) fun c hc => ?_
  have := hlt c hc
  simp only [PyText.isSurrogate, Bool.and_eq_false_iff, decide_eq_false_iff_not]
  omega

section Write
variable {env : ReportEnv} {job : JobRecord} {workerId createdAt : String} {n : ℤ} {result : Dict}

/-- The content of an artifact without a payload is written and read back. -/
theorem plain_artifactContent (hn : Json.intReadable n)
    (hsummary : Json.Plain Json.indentedFormat
      ((Dict.get? result (py "summary")).getD (.str []))) :
    Json.Plain Json.indentedFormat
      (.obj (artifactContent env.toEnv job workerId n createdAt result [])) := by
  refine ⟨nodup_artifactContent [], Json.plainFields_iff.mpr ?_⟩
  change ∀ kv ∈ artifactBaseContent job workerId n createdAt _ result, _
  simp only [artifactBaseContent, List.forall_mem_cons, List.not_mem_nil, false_imp_iff,
    implies_true, and_true, Json.Plain, Json.DumpsFormat.Keeps, unpaired_py, unpaired_uuidText,
    true_and]
  exact ⟨hn, hsummary⟩

/-- The artifact of a result without a payload is verified as it is written. -/
theorem verified_of_encode {files : FileStore} {m : ArtifactMetadata} {bytes : PyBytes}
    (henv : env.Documented) (hnow : env.ClockText createdAt)
    (hfinds : env.Finds (.artifact job.id n)) (hn : Json.intReadable n)
    (hpayload : artifactPayload result = .ok none)
    (hsummary : Json.Plain Json.indentedFormat
      ((Dict.get? result (py "summary")).getD (.str [])))
    (h : encodeStubJobArtifact env.toEnv job workerId n createdAt result = .ok (m, bytes)) :
    m.Verified env (files.write m.path bytes) := by
  obtain ⟨digest, payload, hdigest, hpayload', hbytes, hm⟩ := encodeStubJobArtifact_inv h
  obtain rfl : none = payload := Except.ok.inj (hpayload.symm.trans hpayload')
  have hread : ReadsSorted env.toEnv
      (artifactContent env.toEnv job workerId n createdAt result []) := by
    obtain ⟨parseFloat, hloads⟩ := henv.jsonLoads
    exact hloads _ _ (Json.loads_dumps readable_indentedFormat
      (plain_artifactContent hn hsummary))
  have hresolve : env.resolve (m.record env).path = m.path := by
    rw [hm]
    exact hfinds
  refine ⟨?_, hresolve, ?_⟩
  · rw [ArtifactRecord.fromDict_toDict, henv.intOf_int, henv.intOf_int,
      show m.createdAt = createdAt by rw [hm], show env.isoFormat (py createdAt) = _ from hnow, hm]
    rfl
  · have hfields := @expectedFields_iff env.toEnv job workerId createdAt n result [] List.nodup_nil
      digest hdigest m _ _ _ hm
    refine (intact_iff_of_stored hresolve hread hbytes (FileStore.write_self _ _ _)
      (by rw [hm]) (by rw [hm])).mpr (hfields.mpr ⟨?_, ?_⟩)
    · intro k _ v w hv
      cases hv
    · intro v hv
      cases hv

end Write
end AgentRuntimeGrid
