import AgentRuntimeGrid.Evidence.Bundle

/-! Which contents of a manifest file the check reports as its own error, and which ones end it with
an exception of another class. -/
namespace AgentRuntimeGrid

/-- What a lookup in the directory of the manifest raises instead of answering: `pathlib` takes the
errors of an absent file for a no, and passes on the others, as that of a name too long. -/
structure LookupErrors where
  /-- For `is_symlink()` of the sibling of a declared name. -/
  isSymlink : PyStr → Option String
  /-- For `is_file()` of an entry of the directory. -/
  isFile : PyStr → Option String

/-- The name that a turn of the loop over `manifest["files"]` looks up. -/
def lookedUp (declared : List PyStr) : Json → Option PyStr
  | .obj entry =>
    match Dict.get? entry (py "path"), Dict.get? entry (py "sha256") with
    | some (.str name), some (.str expected) =>
      if (PyPath.parse name).name = name ∧ name ∉ declared ∧ expected.length = 64 then some name
      else none
    | _, _ => none
  | _ => none

/-- One turn of the loop, in which the lookup may raise. -/
def verifyEntryOn (errors : LookupErrors) (env : Env) (d : Directory) (declared : List PyStr)
    (entry : Json) : Except EvidenceError (List PyStr) :=
  match (lookedUp declared entry).bind errors.isSymlink with
  | some c => .error (.raised c)
  | none => verifyEntry env d declared entry

/-- The part of `verify_evidence_manifest` after the manifest is read, where lookups may raise. -/
def verifyManifestOn (errors : LookupErrors) (env : Env) (d : Directory) (name : PyStr)
    (manifest : Dict) : Except EvidenceError Unit :=
  match Dict.get? manifest (py "schema_version") with
  | some (.str schema) =>
    if schema ≠ manifestSchema then
      .error (.verification (py "unsupported evidence manifest schema"))
    else if ¬ (py ".manifest.json").isSuffixOf name then
      .error (.verification (py "manifest name must end in .manifest.json"))
    else
      let stem := name.take (name.length - 14)
      let expectedNames := [reportName stem, dataName stem]
      match Dict.get? manifest (py "files") with
      | some (.arr entries) =>
        if entries.length ≠ 2 then
          .error (.verification (py "manifest must contain the report and JSON data"))
        else do
          let declared ← entries.foldlM (verifyEntryOn errors env d) []
          if ¬ (declared ⊆ expectedNames ∧ expectedNames ⊆ declared) then
            .error (.verification (py "manifest file set does not match its report stem"))
          else match d.keys.findSome? errors.isFile with
            | some c => .error (.raised c)
            | none => match (d.fileNames (isSidecar stem)).filter (· ∉ name :: expectedNames) with
              | [] => .ok ()
              | unexpected => .error (.verification (py "unexpected evidence sidecar(s): " ++
                  ((unexpected.insertionSort (· ≤ ·)).intersperse (py ", ")).flatten))
      | _ => .error (.verification (py "manifest must contain the report and JSON data"))
  | _ => .error (.verification (py "unsupported evidence manifest schema"))

def manifestPath (parent : PyPath) (name : PyStr) : PyStr :=
  PyPath.text { parent with parts := parent.parts ++ [name] }

/-- `verify_evidence_manifest(parent / name)`, where lookups may raise. -/
def verifyEvidenceManifestOn (errors : LookupErrors) (env : Env) (d : Directory)
    (parent : PyPath) (name : PyStr) : Except EvidenceError Unit :=
  match d.read name with
  | none => .error (.verification (py "cannot read manifest: " ++ manifestPath parent name))
  | some bytes => match PyText.utf8Decode bytes with
    | none => .error (.raised "UnicodeDecodeError")
    | some text => match env.jsonLoads text with
      | .error .decodeError =>
          .error (.verification (py "cannot read manifest: " ++ manifestPath parent name))
      | .error (.other c) => .error (.raised c)
      | .ok (.obj manifest) => verifyManifestOn errors env d name manifest
      | .ok _ => .error (.raised "AttributeError")

/-- How the `verify-evidence` command ends. -/
inductive CommandEnd where
  | succeeds (output : PyStr)
  /-- Exit code one, with its own message. -/
  | fails (message : PyStr)
  | raises (errorClass : String)
  deriving DecidableEq

def verifyEvidenceCommand (errors : LookupErrors) (env : Env) (d : Directory) (parent : PyPath)
    (name : PyStr) : CommandEnd :=
  match verifyEvidenceManifestOn errors env d parent name with
  | .ok () => .succeeds (py "verified: " ++ manifestPath parent name)
  | .error (.verification message) => .fails (py "evidence verification failed: " ++ message)
  | .error (.raised c) => .raises c

/-- Where every lookup answers. -/
def noLookupErrors : LookupErrors := ⟨fun _ => none, fun _ => none⟩

section Agree
variable {env : Env} {d : Directory}

theorem verifyEntryOn_noLookupErrors : verifyEntryOn noLookupErrors env d = verifyEntry env d := by
  funext declared entry
  unfold verifyEntryOn
  have hnone : (lookedUp declared entry).bind noLookupErrors.isSymlink = none := by
    cases lookedUp declared entry <;> rfl
  rw [hnone]

theorem verifyManifestOn_noLookupErrors (name : PyStr) (manifest : Dict) :
    verifyManifestOn noLookupErrors env d name manifest = verifyManifest env d name manifest := by
  have hkeys : d.keys.findSome? noLookupErrors.isFile = none :=
    List.findSome?_eq_none_iff.mpr fun _ _ => rfl
  unfold verifyManifestOn
  rw [verifyEntryOn_noLookupErrors, hkeys]
  rfl

/-- Where every lookup answers, the check is the one that the bundles are written for. -/
theorem verifyEvidenceManifestOn_noLookupErrors (parent : PyPath) (name : PyStr) :
    verifyEvidenceManifestOn noLookupErrors env d parent name =
      verifyEvidenceManifest env d parent name := by
  unfold verifyEvidenceManifestOn
  simp only [verifyManifestOn_noLookupErrors]
  rfl

end Agree

section Handled
variable {errors : LookupErrors} {env : Env} {d : Directory} {name : PyStr}

/-- The names that the loop looks up, from those declared so far on, all get an answer. -/
def EntriesAnswer (errors : LookupErrors) (env : Env) (d : Directory) :
    List PyStr → List Json → Prop
  | _, [] => True
  | declared, entry :: entries =>
    (∀ n ∈ lookedUp declared entry, errors.isSymlink n = none) ∧
      ∀ declared', verifyEntry env d declared entry = .ok declared' →
        EntriesAnswer errors env d declared' entries

/-- The two entries of a manifest whose schema, name and number of files are accepted. -/
def manifestEntries (name : PyStr) (manifest : Dict) : Option (List Json) :=
  match Dict.get? manifest (py "schema_version"), Dict.get? manifest (py "files") with
  | some (.str schema), some (.arr entries) =>
    if schema = manifestSchema ∧ (py ".manifest.json").isSuffixOf name = true ∧
      entries.length = 2 then some entries else none
  | _, _ => none

/-- Every lookup that the check of a manifest comes to gets an answer: those of the declared names,
and, if they are the two expected ones, those of the entries of the directory. -/
def LookupsAnswer (errors : LookupErrors) (env : Env) (d : Directory) (name : PyStr)
    (manifest : Dict) : Prop :=
  let stem := name.take (name.length - 14)
  let expectedNames := [reportName stem, dataName stem]
  ∀ entries ∈ manifestEntries name manifest,
    EntriesAnswer errors env d [] entries ∧
      ∀ declared, entries.foldlM (verifyEntry env d) [] = .ok declared →
        declared ⊆ expectedNames ∧ expectedNames ⊆ declared →
          ∀ n ∈ d.keys, errors.isFile n = none

def OwnError (e : EvidenceError) : Prop := ∃ message, e = .verification message

theorem verifyEntry_ownError {declared : List PyStr} {entry : Json} {e : EvidenceError}
    (h : verifyEntry env d declared entry = .error e) : OwnError e := by
  unfold verifyEntry at h
  repeat' split at h
  all_goals first
    | exact ⟨_, (Except.error.inj h).symm⟩
    | cases h

/-- The loop raises another exception exactly when a lookup it comes to does. -/
theorem foldlM_verifyEntryOn (entries : List Json) (declared : List PyStr) :
    (EntriesAnswer errors env d declared entries →
      entries.foldlM (verifyEntryOn errors env d) declared =
        entries.foldlM (verifyEntry env d) declared ∧
      ∀ e, entries.foldlM (verifyEntry env d) declared = .error e → OwnError e) ∧
    (¬EntriesAnswer errors env d declared entries →
      ∃ c, entries.foldlM (verifyEntryOn errors env d) declared = .error (.raised c)) := by
  induction entries generalizing declared with
  | nil =>
    refine ⟨fun _ => ⟨rfl, ?_⟩, fun h => absurd trivial h⟩
    intro e h
    cases h
  | cons entry entries ih =>
    rw [List.foldlM_cons, List.foldlM_cons]
    by_cases hlookup : ∀ n ∈ lookedUp declared entry, errors.isSymlink n = none
    · have hsame : verifyEntryOn errors env d declared entry =
          verifyEntry env d declared entry := by
        unfold verifyEntryOn
        rw [Option.bind_eq_none_iff.mpr hlookup]
      rw [hsame]
      cases hentry : verifyEntry env d declared entry with
      | error e =>
        refine ⟨fun _ => ⟨rfl, ?_⟩, fun hnot => absurd ⟨hlookup, ?_⟩ hnot⟩
        · intro e' h
          rw [← Except.error.inj h]
          exact verifyEntry_ownError hentry
        · intro declared' hok
          rw [hentry] at hok
          cases hok
      | ok declared' =>
        refine ⟨fun h => (ih declared').1 (h.2 declared' hentry), fun hnot => ?_⟩
        refine (ih declared').2 fun hrest => hnot ⟨hlookup, ?_⟩
        intro declared'' hok
        rw [hentry] at hok
        exact Except.ok.inj hok ▸ hrest
    · refine ⟨fun h => absurd h.1 hlookup, fun _ => ?_⟩
      push Not at hlookup
      obtain ⟨n, hn, hraise⟩ := hlookup
      obtain ⟨c, hc⟩ := Option.ne_none_iff_exists'.mp hraise
      refine ⟨c, ?_⟩
      have hraises : verifyEntryOn errors env d declared entry = .error (.raised c) := by
        unfold verifyEntryOn
        rw [Option.mem_def.mp hn, Option.bind_some, hc]
      rw [hraises]
      rfl

theorem verifyManifestOn_eq_of_none {manifest : Dict} (h : manifestEntries name manifest = none) :
    ∃ message, verifyManifestOn errors env d name manifest = .error (.verification message) := by
  unfold manifestEntries at h
  unfold verifyManifestOn
  split
  next schema hschema =>
    split
    · exact ⟨_, rfl⟩
    next hsame =>
      split
      · exact ⟨_, rfl⟩
      next hsuffix =>
        split
        next entries hentries =>
          split
          · exact ⟨_, rfl⟩
          next hlength =>
            have haccepted : schema = manifestSchema ∧
                (py ".manifest.json").isSuffixOf name = true ∧ entries.length = 2 :=
              ⟨not_not.mp hsame, not_not.mp hsuffix, not_not.mp hlength⟩
            simp only [hschema, hentries, if_pos haccepted] at h
            cases h
        · exact ⟨_, rfl⟩
  · exact ⟨_, rfl⟩

/-- Behind an accepted header comes the loop, the comparison of the names and the listing. -/
theorem verifyManifestOn_eq_of_some {manifest : Dict} {entries : List Json}
    (h : manifestEntries name manifest = some entries) :
    verifyManifestOn errors env d name manifest = (do
      let stem := name.take (name.length - 14)
      let expectedNames := [reportName stem, dataName stem]
      let declared ← entries.foldlM (verifyEntryOn errors env d) []
      if ¬ (declared ⊆ expectedNames ∧ expectedNames ⊆ declared) then
        .error (.verification (py "manifest file set does not match its report stem"))
      else match d.keys.findSome? errors.isFile with
        | some c => .error (.raised c)
        | none => match (d.fileNames (isSidecar stem)).filter (· ∉ name :: expectedNames) with
          | [] => .ok ()
          | unexpected => .error (.verification (py "unexpected evidence sidecar(s): " ++
              ((unexpected.insertionSort (· ≤ ·)).intersperse (py ", ")).flatten))) := by
  unfold manifestEntries at h
  split at h
  next schema entries' hschema hentries =>
    obtain ⟨⟨hsame, hsuffix, hlength⟩, heq⟩ := Option.ite_none_right_eq_some.mp h
    obtain rfl := Option.some.inj heq
    unfold verifyManifestOn
    simp only [hschema, hentries, hsame, hsuffix, hlength, ne_eq, not_true_eq_false, ↓reduceIte]
  · cases h

/-- The check of a manifest raises an exception of another class exactly when a lookup that it comes
to does. -/
theorem verifyManifestOn_handled_iff {manifest : Dict} :
    (∀ c, verifyManifestOn errors env d name manifest ≠ .error (.raised c)) ↔
      LookupsAnswer errors env d name manifest := by
  unfold LookupsAnswer
  cases hheader : manifestEntries name manifest with
  | none =>
    obtain ⟨message, hmessage⟩ := @verifyManifestOn_eq_of_none errors env d name manifest hheader
    rw [hmessage]
    simp
  | some entries =>
    rw [verifyManifestOn_eq_of_some hheader]
    simp only [Option.mem_def, Option.some.injEq, forall_eq']
    by_cases hanswer : EntriesAnswer errors env d [] entries
    · obtain ⟨hsame, hown⟩ := (foldlM_verifyEntryOn entries []).1 hanswer
      rw [hsame]
      cases hloop : entries.foldlM (verifyEntry env d) [] with
      | error e =>
        obtain ⟨message, rfl⟩ := hown e hloop
        simp [hanswer, bind, Except.bind]
      | ok declared =>
        simp only [bind, Except.bind, Except.ok.injEq, forall_eq', hanswer, true_and]
        split
        next hnames =>
          exact ⟨fun _ h => absurd h hnames, fun _ c h => by cases h⟩
        next hnames =>
          simp only [not_not.mp hnames, and_self, forall_const]
          rw [← List.findSome?_eq_none_iff]
          split
          next c hraises =>
            rw [hraises]
            exact ⟨fun h => absurd rfl (h c), fun h => by cases h⟩
          next hanswers =>
            refine ⟨fun _ => hanswers, fun _ c h => ?_⟩
            split at h <;> cases h
    · obtain ⟨c, hc⟩ := (foldlM_verifyEntryOn entries []).2 hanswer
      rw [hc]
      simp [hanswer, bind, Except.bind]

theorem verifyEntryOn_raised {declared : List PyStr} {entry : Json} {c : String}
    (h : verifyEntryOn errors env d declared entry = .error (.raised c)) :
    ∃ n, errors.isSymlink n = some c := by
  unfold verifyEntryOn at h
  split at h
  next c' hraises =>
    obtain ⟨n, -, hn⟩ := Option.bind_eq_some_iff.mp hraises
    cases h
    exact ⟨n, hn⟩
  next =>
    obtain ⟨message, heq⟩ := verifyEntry_ownError h
    cases heq

theorem foldlM_verifyEntryOn_raised {entries : List Json} {declared : List PyStr} {c : String}
    (h : entries.foldlM (verifyEntryOn errors env d) declared = .error (.raised c)) :
    ∃ n, errors.isSymlink n = some c := by
  induction entries generalizing declared with
  | nil => cases h
  | cons entry entries ih =>
    rw [List.foldlM_cons] at h
    cases hentry : verifyEntryOn errors env d declared entry with
    | error e =>
      rw [hentry] at h
      cases h
      exact verifyEntryOn_raised hentry
    | ok declared' =>
      rw [hentry] at h
      exact ih h

/-- An exception of another class is that of a lookup. -/
theorem verifyManifestOn_raised {manifest : Dict} {c : String}
    (h : verifyManifestOn errors env d name manifest = .error (.raised c)) :
    ∃ n, errors.isSymlink n = some c ∨ errors.isFile n = some c := by
  cases hheader : manifestEntries name manifest with
  | none =>
    obtain ⟨message, hmessage⟩ := @verifyManifestOn_eq_of_none errors env d name manifest hheader
    rw [hmessage] at h
    cases h
  | some entries =>
    rw [verifyManifestOn_eq_of_some hheader] at h
    cases hloop : entries.foldlM (verifyEntryOn errors env d) [] with
    | error e =>
      simp only [hloop, bind, Except.bind] at h
      cases h
      obtain ⟨n, hn⟩ := foldlM_verifyEntryOn_raised hloop
      exact ⟨n, .inl hn⟩
    | ok declared =>
      simp only [hloop, bind, Except.bind] at h
      split at h
      · cases h
      · split at h
        next c' hraises =>
          obtain ⟨n, -, hn⟩ := List.exists_of_findSome?_eq_some hraises
          cases h
          exact ⟨n, .inr hn⟩
        next => split at h <;> cases h

/-- The manifest as it is read, before it is checked. -/
def readManifest (env : Env) (d : Directory) (parent : PyPath) (name : PyStr) :
    Except EvidenceError Dict :=
  match d.read name with
  | none => .error (.verification (py "cannot read manifest: " ++ manifestPath parent name))
  | some bytes => match PyText.utf8Decode bytes with
    | none => .error (.raised "UnicodeDecodeError")
    | some text => match env.jsonLoads text with
      | .error .decodeError =>
          .error (.verification (py "cannot read manifest: " ++ manifestPath parent name))
      | .error (.other c) => .error (.raised c)
      | .ok (.obj manifest) => .ok manifest
      | .ok _ => .error (.raised "AttributeError")

theorem verifyEvidenceManifestOn_eq (parent : PyPath) :
    verifyEvidenceManifestOn errors env d parent name =
      readManifest env d parent name >>= verifyManifestOn errors env d name := by
  unfold verifyEvidenceManifestOn readManifest
  cases d.read name with
  | none => rfl
  | some bytes =>
    dsimp only
    cases PyText.utf8Decode bytes with
    | none => rfl
    | some text =>
      dsimp only
      cases env.jsonLoads text with
      | error e => cases e <;> rfl
      | ok v => cases v <;> rfl

/-- The manifest file cannot be read, or is UTF-8 text that `json.loads` refuses with its own error,
or an object of which every lookup that the check comes to gets an answer. -/
def ManifestHandled (errors : LookupErrors) (env : Env) (d : Directory) (name : PyStr) : Prop :=
  ∀ bytes ∈ d.read name, ∃ text, PyText.utf8Decode bytes = some text ∧
    (env.jsonLoads text = .error .decodeError ∨
      ∃ manifest, env.jsonLoads text = .ok (.obj manifest) ∧
        LookupsAnswer errors env d name manifest)

theorem verifyEvidenceManifestOn_handled_iff {parent : PyPath} :
    (∀ c, verifyEvidenceManifestOn errors env d parent name ≠ .error (.raised c)) ↔
      ManifestHandled errors env d name := by
  unfold verifyEvidenceManifestOn ManifestHandled
  cases d.read name with
  | none => simp
  | some bytes =>
    simp only [Option.mem_def, Option.some.injEq, forall_eq']
    cases PyText.utf8Decode bytes with
    | none => simp
    | some text =>
      simp only [Option.some.injEq, exists_eq_left']
      cases env.jsonLoads text with
      | error e =>
        cases e with
        | decodeError => simp
        | other c => simp
      | ok v =>
        cases v with
        | obj manifest => simpa using verifyManifestOn_handled_iff
        | null | bool | int | float | str | arr => simp

/-- The check returns or raises its own error, and the command ends with success or its own message,
exactly when the manifest is handled. -/
theorem verifyEvidence_handled_iff (errors : LookupErrors) (env : Env) (d : Directory)
    (parent : PyPath) (name : PyStr) :
    ((∀ c, verifyEvidenceManifestOn errors env d parent name ≠ .error (.raised c)) ↔
        ManifestHandled errors env d name) ∧
      ((∀ c, verifyEvidenceCommand errors env d parent name ≠ .raises c) ↔
        ManifestHandled errors env d name) := by
  have hcommand : (∀ c, verifyEvidenceCommand errors env d parent name ≠ .raises c) ↔
      ∀ c, verifyEvidenceManifestOn errors env d parent name ≠ .error (.raised c) := by
    unfold verifyEvidenceCommand
    cases verifyEvidenceManifestOn errors env d parent name with
    | ok u => simp
    | error e => cases e <;> simp
  rw [hcommand]
  exact ⟨verifyEvidenceManifestOn_handled_iff, verifyEvidenceManifestOn_handled_iff⟩

/-- A manifest file that is no UTF-8 text. -/
def undecodableManifest : Directory :=
  AList.insert (manifestName (py "a")) (.file [255]) ∅

theorem verifyEvidence_of_undecodable :
    verifyEvidenceManifestOn noLookupErrors bundleEnv undecodableManifest ⟨[], []⟩
        (manifestName (py "a")) = .error (.raised "UnicodeDecodeError") ∧
      verifyEvidenceCommand noLookupErrors bundleEnv undecodableManifest ⟨[], []⟩
        (manifestName (py "a")) = .raises "UnicodeDecodeError" := by
  have hread : undecodableManifest.read (manifestName (py "a")) = some [255] := by
    unfold Directory.read undecodableManifest
    rw [AList.lookup_insert]
    rfl
  have hdecode : PyText.utf8Decode [255] = none := by decide
  have hcheck : verifyEvidenceManifestOn noLookupErrors bundleEnv undecodableManifest ⟨[], []⟩
      (manifestName (py "a")) = .error (.raised "UnicodeDecodeError") := by
    unfold verifyEvidenceManifestOn
    rw [hread]
    simp only [hdecode]
  refine ⟨hcheck, ?_⟩
  unfold verifyEvidenceCommand
  rw [hcheck]

end Handled

end AgentRuntimeGrid
