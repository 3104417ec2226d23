import AgentRuntimeGrid.Jobs.Dispatch
import AgentRuntimeGrid.Lib.Exceptions

/-! Which payloads, dataset files and responses a job's runner brings to an end that the worker has
a clause for, with a result that a `jsonb` column keeps. -/
namespace AgentRuntimeGrid

/-- An `except` clause of the worker is for this. -/
def JobException.Handled : JobException → Prop
  | .unhandled _ => False
  | .transient _ | .policy _ | .timedOut | .cancelled => True

/-- The job can be finished from here: the run did not end in an exception without a clause, and a
result that it returned can be kept. -/
def RunOutcome.Classified : RunOutcome → Prop
  | .success result => jsonbStorable (.obj result) = true
  | .raised _ => False
  | .transientError _ | .policyError _ | .timedOut | .cancelled => True

theorem JobException.classified_outcome (e : JobException) : e.outcome.Classified ↔ e.Handled := by
  cases e <;> rfl

/-- The result of a runner is kept, unless it ends in an exception with a clause. -/
def Kept (x : Except JobException Dict) : Prop :=
  x.Ensures JobException.Handled fun result => jsonbStorable (.obj result) = true

/-- `hexdigest()` writes text that a `jsonb` column keeps. -/
def HexDigests (env : Env) : Prop := ∀ data, storableText (py (env.sha256 data)) = true

section Storable

theorem jsonbStorable_fields {d : Dict} (hkeys : (d.all fun kv => storableText kv.1) = true) :
    jsonbStorable (.obj d) = true ↔ ∀ kv ∈ d, jsonbStorable kv.2 = true := by
  rw [jsonbStorable_obj_iff]
  exact forall₂_congr fun kv hkv => and_iff_right (List.all_eq_true.mp hkeys kv hkv)

theorem jsonbStorable_get? {d : Dict} {key : PyStr} {v : Json}
    (h : jsonbStorable (.obj d) = true) (hv : Dict.get? d key = some v) :
    jsonbStorable v = true := by
  obtain ⟨l, r, rfl, -⟩ := List.lookup_eq_some_iff.mp hv
  exact (jsonbStorable_obj_iff.mp h (key, v) (by simp)).2

theorem storableText_keys {d : Dict} (h : jsonbStorable (.obj d) = true) :
    ∀ key ∈ d.map Prod.fst, storableText key = true :=
  List.forall_mem_map.mpr fun kv hkv => (jsonbStorable_obj_iff.mp h kv hkv).1

theorem jsonbStorable_texts {texts : List PyStr} :
    jsonbStorable (.arr (texts.map Json.str)) = true ↔ ∀ s ∈ texts, storableText s = true := by
  induction texts with
  | nil => exact iff_of_true rfl (List.forall_mem_nil _)
  | cons s texts ih =>
    rw [List.map_cons, jsonbStorable_items, Bool.and_eq_true, ih, List.forall_mem_cons]
    rfl

theorem storableText_of_subset {s t : PyStr} (h : ∀ c ∈ s, c ∈ t) (ht : storableText t = true) :
    storableText s = true :=
  List.all_eq_true.mpr fun c hc => List.all_eq_true.mp ht c (h c hc)

theorem storableText_append {s t : PyStr} :
    storableText (s ++ t) = true ↔ storableText s = true ∧ storableText t = true := by
  rw [storableText, List.all_append, Bool.and_eq_true]
  rfl

theorem storableText_intersperse {sep : PyStr} {parts : List PyStr}
    (hsep : storableText sep = true) (hparts : ∀ part ∈ parts, storableText part = true) :
    storableText (parts.intersperse sep).flatten = true := by
  refine List.all_eq_true.mpr fun c hc => ?_
  obtain hc | ⟨part, hpart, hc⟩ := PyPath.mem_of_mem_intersperse hc
  · exact List.all_eq_true.mp hsep c hc
  · exact List.all_eq_true.mp (hparts part hpart) c hc

theorem storableText_strip {s : PyStr} (h : storableText s = true) :
    storableText (PyText.strip s) = true :=
  storableText_of_subset (fun _ => PyText.mem_of_mem_strip) h

theorem storableText_str (env : Env) {v : Json} (h : jsonbStorable v = true) :
    storableText (env.str v) = true := by
  cases v with
  | str s => exact h
  | _ => exact env.strOther_storable _

/-- The parts of the path are kept. -/
def StorablePath (p : PyPath) : Prop :=
  storableText p.root = true ∧ ∀ part ∈ p.parts, storableText part = true

theorem storablePath_parse {text : PyStr} (h : storableText text = true) :
    StorablePath (PyPath.parse text) := by
  constructor
  · unfold PyPath.parse
    dsimp only
    split <;> decide
  · intro part hpart
    have hjoin : ((text.splitOn 47).intersperse [47]).flatten = text := List.intercalate_splitOn 47
    obtain ⟨i, hi⟩ := List.mem_iff_getElem?.mp (List.mem_filter.mp hpart).1
    have hmem : part ∈ (text.splitOn 47).intersperse [47] := by
      refine List.mem_iff_getElem?.mpr ⟨2 * i, ?_⟩
      rw [List.getElem?_intersperse_two_mul, hi]
    refine storableText_of_subset (fun c hc => ?_) h
    rw [← hjoin]
    exact List.mem_flatten.mpr ⟨part, hmem, hc⟩

theorem StorablePath.join {p : PyPath} {segment : PyStr} (hp : StorablePath p)
    (h : storableText segment = true) : StorablePath (p.join segment) := by
  have hsegment := storablePath_parse h
  unfold PyPath.join
  dsimp only
  split
  · exact hsegment
  · refine ⟨hp.1, fun part hpart => ?_⟩
    exact (List.mem_append.mp hpart).elim (hp.2 part) (hsegment.2 part)

theorem StorablePath.text {p : PyPath} (hp : StorablePath p) : storableText p.text = true := by
  unfold PyPath.text
  split
  · decide
  · exact storableText_append.mpr ⟨hp.1, storableText_intersperse (by decide) hp.2⟩

end Storable

section Fields
variable {env : Env} {e : JobException} {payload : Dict} {key : PyStr}

theorem storableText_getOr (h : jsonbStorable (.obj payload) = true) (key : PyStr) :
    storableText (env.str (Dict.getOr payload key)) = true := by
  unfold Dict.getOr
  split
  next v hv =>
    split
    · exact storableText_str env (jsonbStorable_get? h hv)
    · rfl
  next => rfl

theorem ensures_requiredStr (he : e.Handled) {P : PyStr → Prop} :
    (requiredStr env e payload key).Ensures JobException.Handled P ↔
      ∀ s, requiredStr env e payload key = .ok s → P s := by
  refine Except.ensures_iff_of_raises ?_
  unfold requiredStr
  split
  · exact he
  · trivial

theorem storableText_requiredStr {s : PyStr} (h : jsonbStorable (.obj payload) = true)
    (hs : requiredStr env e payload key = .ok s) : storableText s = true := by
  unfold requiredStr at hs
  split at hs
  · cases hs
  · obtain rfl := Except.ok.inj hs
    exact storableText_strip (storableText_getOr h key)

theorem ensures_candidateId (he : e.Handled) {P : PyStr → Prop} :
    (candidateId env e payload).Ensures JobException.Handled P ↔
      ∀ s, candidateId env e payload = .ok s → P s := by
  refine Except.ensures_iff_of_raises ?_
  unfold candidateId
  dsimp only
  split
  · exact he
  · trivial

theorem storableText_candidateId {s : PyStr} (h : jsonbStorable (.obj payload) = true)
    (hs : candidateId env e payload = .ok s) : storableText s = true := by
  unfold candidateId at hs
  dsimp only at hs
  split at hs
  · cases hs
  · obtain rfl := Except.ok.inj hs
    refine storableText_strip ?_
    split
    next v hv =>
      split
      · exact storableText_str env (jsonbStorable_get? h hv)
      · exact storableText_getOr h _
    next => exact storableText_getOr h _

theorem storablePath_evalResultPathOf {candidate caseId : PyStr}
    (h : jsonbStorable (.obj payload) = true) (hcandidate : storableText candidate = true)
    (hcase : storableText caseId = true) :
    StorablePath (evalResultPathOf env payload candidate caseId) := by
  unfold evalResultPathOf
  split
  next v hv => exact storablePath_parse (storableText_str env (jsonbStorable_get? h hv))
  next =>
    refine (StorablePath.join ?_ hcandidate).join (storableText_append.mpr ⟨hcase, by decide⟩)
    exact (storablePath_parse (by decide)).join (by decide)

end Fields

namespace StubJobRunner

/-- The mode can be looked up in a set, and a stub that is to sleep is told for how long. -/
structure Handled (env : RunnerEnv) (payload : Dict) : Prop where
  mode : ((Dict.get? payload (py "mode")).getD (.str (py "success"))).hashable = true
  duration : Dict.get? payload (py "mode") = some (.str (py "sleep")) →
    ∃ x, floatOf env ((Dict.get? payload (py "duration_seconds")).getD (.int 1)) = .ok x

variable {env : RunnerEnv} {ctx : RunContext} {payload : Dict}

theorem ensures_sleep {P : Unit → Prop} (hP : P ()) :
    (sleep env ctx payload).Ensures JobException.Handled P ↔
      ∃ x, floatOf env ((Dict.get? payload (py "duration_seconds")).getD (.int 1)) = .ok x := by
  unfold sleep
  cases floatOf env ((Dict.get? payload (py "duration_seconds")).getD (.int 1)) with
  | error c => simp [JobException.Handled]
  | ok duration =>
    dsimp only
    cases ctx.sleep duration <;> simp [JobException.Handled, hP]

theorem handled_iff : Handled env payload ↔
    ((Dict.get? payload (py "mode")).getD (.str (py "success"))).hashable = true ∧
    (Dict.get? payload (py "mode") = some (.str (py "sleep")) →
      ∃ x, floatOf env ((Dict.get? payload (py "duration_seconds")).getD (.int 1)) = .ok x) :=
  ⟨fun h => ⟨h.mode, h.duration⟩, fun h => ⟨h.1, h.2⟩⟩

theorem kept_run (hpayload : jsonbStorable (.obj payload) = true) :
    Kept (run env ctx payload) ↔ Handled env payload := by
  have hresult : jsonbStorable (.obj [(py "summary", .str (py "stub job completed")),
      (py "input_keys", .arr (((payload.map Prod.fst).insertionSort (· ≤ ·)).map Json.str))]) =
      true := by
    rw [jsonbStorable_fields rfl]
    simp only [List.forall_mem_cons, List.not_mem_nil, IsEmpty.forall_iff, implies_true, and_true]
    refine ⟨by decide, jsonbStorable_texts.mpr ?_⟩
    intro key hkey
    exact storableText_keys hpayload key ((List.mem_insertionSort _).mp hkey)
  have hsleeps : Dict.get? payload (py "mode") = some (.str (py "sleep")) ↔
      (Dict.get? payload (py "mode")).getD (.str (py "success")) = .str (py "sleep") := by
    cases Dict.get? payload (py "mode") with
    | none => exact iff_of_false (by simp) (by decide)
    | some v => simp
  have hne : ∀ s ∈ [py "transient_error", py "policy_error", py "permanent_error"],
      py "sleep" ≠ s := by decide
  unfold Kept run
  rw [handled_iff, hsleeps]
  generalize (Dict.get? payload (py "mode")).getD (.str (py "success")) = mode
  simp only [Except.ensures_ite, Except.ensures_bind, Except.ensures_throw, Except.ensures_pure,
    hresult, ensures_sleep, Json.isText_eq_true, JobException.Handled, implies_true, true_and,
    and_true, imp_false, not_not]
  constructor
  · intro h
    by_cases htransient : mode = .str (py "transient_error")
    · refine ⟨by rw [htransient]; rfl, fun hsleep => ?_⟩
      rw [htransient] at hsleep
      exact absurd (Json.str.inj hsleep).symm (hne _ (by simp))
    · obtain ⟨hhash, hrest⟩ := h htransient
      refine ⟨hhash, fun hsleep => hrest hhash ?_ hsleep⟩
      rw [hsleep]
      simpa using ⟨hne (py "policy_error") (by simp), hne (py "permanent_error") (by simp)⟩
  · exact fun h _ => ⟨h.1, fun _ _ => h.2⟩

end StubJobRunner

namespace EvalLab

/-- The line is blank, or the text of an object that is not the case. -/
def PassedOver (env : Env) (caseId line : PyStr) : Prop :=
  PyText.strip line = [] ∨ ∃ case, env.jsonLoads line = .ok (.obj case) ∧
    Dict.get? case (py "id") ≠ some (.str caseId)

/-- The quality status that a case expects can be looked up in a set. -/
def QualityReadable (case : Dict) : Prop :=
  ∀ expected, Dict.get? case (py "expected") = some (.obj expected) →
    ((Dict.get? expected (py "quality_status")).getD .null).hashable = true

/-- The line is blank, no JSON at all, or the text of an object. -/
def LineReadable (env : Env) (caseId line : PyStr) : Prop :=
  PyText.strip line = [] ∨ env.jsonLoads line = .error .decodeError ∨
    ∃ case, env.jsonLoads line = .ok (.obj case) ∧
      (Dict.get? case (py "id") = some (.str caseId) → QualityReadable case)

/-- Each line of the dataset can be read, up to the first that ends the search. -/
def SearchReadable (env : Env) (caseId : PyStr) (lines : List PyStr) : Prop :=
  ∀ before line after, lines = before ++ line :: after →
    (∀ l ∈ before, PassedOver env caseId l) → LineReadable env caseId line

/-- The dataset of a valid payload, if there is one, is UTF-8 text whose lines can be read. -/
def Handled (env : Env) (files : FileStore) (payload : Dict) : Prop :=
  ∀ p, validatePayload env payload = .ok p →
    ∀ bytes, files (env.resolve p.datasetPath.text) = some bytes →
      ∃ text, PyText.utf8Decode bytes = some text ∧
        SearchReadable env p.caseId (PyText.splitlines text)

variable {env : Env} {caseId : PyStr} {payload : Dict}

theorem ensures_qualityStatus {case : Dict} :
    (qualityStatus case).Ensures JobException.Handled (fun _ => True) ↔ QualityReadable case := by
  unfold qualityStatus QualityReadable
  split
  next expected hexpected =>
    simp only [hexpected, Option.some.injEq, Json.obj.injEq, forall_eq', Except.ensures_ite,
      Except.ensures_error, Except.ensures_ok, JobException.Handled]
    simp
  next hnone =>
    refine iff_of_true trivial fun expected hexpected => ?_
    exact absurd hexpected (hnone expected)

theorem searchReadable_cons {line : PyStr} {lines : List PyStr} :
    SearchReadable env caseId (line :: lines) ↔
      LineReadable env caseId line ∧
        (PassedOver env caseId line → SearchReadable env caseId lines) := by
  constructor
  · intro h
    refine ⟨h [] line lines rfl (List.forall_mem_nil _), ?_⟩
    intro hpassed before l after hl hbefore
    exact h (line :: before) l after (by rw [hl, List.cons_append])
      (List.forall_mem_cons.mpr ⟨hpassed, hbefore⟩)
  · intro h before l after hl hbefore
    cases before with
    | nil =>
      obtain ⟨rfl, -⟩ := List.cons.inj hl
      exact h.1
    | cons l' before =>
      rw [List.cons_append] at hl
      obtain ⟨rfl, htail⟩ := List.cons.inj hl
      rw [List.forall_mem_cons] at hbefore
      exact h.2 hbefore.1 before l after htail hbefore.2

/-- The search and the reading of the case it finds, by induction over the lines. -/
theorem ensures_findCase (lines : List PyStr) :
    (findCase env caseId lines).Ensures JobException.Handled
        (fun case => (qualityStatus case).Ensures JobException.Handled fun _ => True) ↔
      SearchReadable env caseId lines := by
  induction lines with
  | nil =>
    refine iff_of_true trivial fun before line after hl => ?_
    simp at hl
  | cons line lines ih =>
    rw [searchReadable_cons, findCase]
    by_cases hblank : PyText.strip line = []
    · rw [if_pos hblank, ih]
      exact ⟨fun h => ⟨.inl hblank, fun _ => h⟩, fun h => h.2 (.inl hblank)⟩
    rw [if_neg hblank]
    unfold LineReadable PassedOver
    simp only [hblank, false_or]
    cases hloads : env.jsonLoads line with
    | error e => cases e <;> simp [JobException.Handled, payloadError]
    | ok v =>
      cases v with
      | obj case =>
        have hid : ((Dict.get? case (py "id")).getD .null).isText caseId = true ↔
            Dict.get? case (py "id") = some (.str caseId) := by
          rw [Json.isText_eq_true]
          cases Dict.get? case (py "id") <;> simp
        by_cases hcase : Dict.get? case (py "id") = some (.str caseId)
        · simp [hcase, Json.isText_eq_true, ensures_qualityStatus]
        · simp [hid, hcase, ih]
      | _ => simp [JobException.Handled]

theorem payloadError_handled : payloadError.Handled := trivial

theorem ensures_validatePayload {P : EvalLabCasePayload → Prop} :
    (validatePayload env payload).Ensures JobException.Handled P ↔
      ∀ p, validatePayload env payload = .ok p → P p := by
  refine Except.ensures_iff_of_raises ?_
  unfold validatePayload
  simp only [Except.ensures_bind, Except.ensures_ite, Except.ensures_throw, Except.ensures_pure,
    ensures_requiredStr payloadError_handled, ensures_candidateId payloadError_handled,
    payloadError_handled, implies_true, and_self]

/-- The texts of a valid payload are kept. -/
structure Storable (p : EvalLabCasePayload) : Prop where
  datasetPath : storableText p.datasetPath.text = true
  caseId : storableText p.caseId = true
  candidateId : storableText p.candidateId = true
  mode : storableText p.mode = true
  evalResultPath : storableText p.evalResultPath.text = true

theorem storable_of_validatePayload {p : EvalLabCasePayload}
    (h : jsonbStorable (.obj payload) = true) (hp : validatePayload env payload = .ok p) :
    Storable p := by
  obtain ⟨datasetPath, hdataset, hp⟩ := Except.bind_eq_ok.mp hp
  obtain ⟨caseId, hcase, hp⟩ := Except.bind_eq_ok.mp hp
  obtain ⟨candidate, hcandidate, hp⟩ := Except.bind_eq_ok.mp hp
  obtain ⟨mode, hmode, hp⟩ := Except.bind_eq_ok.mp hp
  have hcandidate := storableText_candidateId h hcandidate
  have hcase := storableText_requiredStr h hcase
  dsimp only at hp
  split at hp
  · obtain ⟨_, hp, -⟩ := Except.bind_eq_ok.mp hp
    cases hp
  · obtain rfl := Except.ok.inj hp
    exact {
      datasetPath := (storablePath_parse (storableText_requiredStr h hdataset)).text
      caseId := hcase
      candidateId := hcandidate
      mode := storableText_requiredStr h hmode
      evalResultPath := (storablePath_evalResultPathOf h hcandidate hcase).text }

theorem ensures_loadCase {files : FileStore} {datasetPath : PyPath} :
    (loadCase env files datasetPath caseId).Ensures JobException.Handled
        (fun case => (qualityStatus case).Ensures JobException.Handled fun _ => True) ↔
      ∀ bytes, files (env.resolve datasetPath.text) = some bytes →
        ∃ text, PyText.utf8Decode bytes = some text ∧
          SearchReadable env caseId (PyText.splitlines text) := by
  unfold loadCase
  cases files (env.resolve datasetPath.text) with
  | none => simp [payloadError, JobException.Handled]
  | some bytes =>
    simp only [Option.some.injEq, forall_eq']
    cases PyText.utf8Decode bytes with
    | none => simp [JobException.Handled]
    | some text => simp only [ensures_findCase, Option.some.injEq, exists_eq_left']

theorem qualityStatus_eq_ok {case : Dict} {quality : PyStr} (h : qualityStatus case = .ok quality) :
    quality = py "pass" ∨ quality = py "fail" := by
  unfold qualityStatus at h
  split at h
  · dsimp only at h
    split at h
    · cases h
    split at h
    · exact .inr (Except.ok.inj h).symm
    · exact .inl (Except.ok.inj h).symm
  · exact .inl (Except.ok.inj h).symm

/-- A run is judged by its dataset: its result is kept if it returns one. -/
theorem kept_run {env : RunnerEnv} {ctx : RunContext} {n : ℤ}
    (hpayload : jsonbStorable (.obj payload) = true) :
    Kept ((run env ctx payload n).map EvalRun.result) ↔ Handled env.toEnv ctx.files payload := by
  unfold Kept run Handled
  simp only [Except.ensures_map, Except.ensures_bind, Except.ensures_pure,
    ensures_validatePayload]
  refine forall₂_congr fun p hp => ?_
  have hstorable := storable_of_validatePayload hpayload hp
  rw [← ensures_loadCase]
  refine Except.ensures_congr fun case _ => Except.ensures_congr fun quality hquality => ?_
  refine iff_of_true ?_ trivial
  have hquality : storableText quality = true := by
    rcases qualityStatus_eq_ok hquality with rfl | rfl <;> decide
  simp only [jsonbStorable, Json.all, Json.allFields, Bool.and_eq_true, hquality,
    hstorable.datasetPath, hstorable.caseId, hstorable.candidateId, hstorable.mode,
    hstorable.evalResultPath]
  decide

end EvalLab
end AgentRuntimeGrid
