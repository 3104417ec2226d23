import AgentRuntimeGrid.Domain.Jobs
import AgentRuntimeGrid.Lib.Directory
import AgentRuntimeGrid.Lib.PyPath
import Mathlib.Data.List.Lex
import Mathlib.Data.Set.Function

/-! Evidence bundles: a rendered report, its JSON data and a manifest of their digests, written
side by side, and the check of a manifest against the files beside it. -/
namespace AgentRuntimeGrid

inductive EvidenceError where
  /-- `EvidenceVerificationError` with its message. -/
  | verification (message : PyStr)
  | raised (errorClass : String)
  deriving DecidableEq

def manifestSchema : PyStr := py "agent-runtime-grid.evidence-manifest.v1"

def reportName (stem : PyStr) : PyStr := stem ++ py ".md"

def dataName (stem : PyStr) : PyStr := stem ++ py ".json"

def manifestName (stem : PyStr) : PyStr := stem ++ py ".manifest.json"

def bundleNames (stem : PyStr) : List PyStr := [reportName stem, dataName stem, manifestName stem]

/-- `name.startswith(f"{stem}.")`. -/
def isSidecar (stem name : PyStr) : Bool := (stem ++ py ".").isPrefixOf name

def manifestEntry (file : PyStr × String) : Json :=
  .obj [(py "path", .str file.1), (py "sha256", .str (py file.2))]

def evidenceManifest (report data : PyStr × String) : Dict :=
  [(py "schema_version", .str manifestSchema),
    (py "files", .arr [manifestEntry report, manifestEntry data])]

/-- `json.dumps(value, sort_keys=True, indent=2) + "\n"`. -/
def evidenceText (env : Env) (d : Dict) : PyStr :=
  Json.dumps Json.indentedFormat env.floatRepr (.obj d) ++ py "\n"

/-- One turn of the loop over `manifest["files"]`: the names declared so far. -/
def verifyEntry (env : Env) (d : Directory) (declared : List PyStr) :
    Json → Except EvidenceError (List PyStr)
  | .obj entry =>
    match Dict.get? entry (py "path") with
    | some (.str name) =>
      if (PyPath.parse name).name ≠ name then
        .error (.verification (py "manifest paths must be sibling file names"))
      else if name ∈ declared then
        .error (.verification (py "duplicate manifest path: " ++ name))
      else match Dict.get? entry (py "sha256") with
        | some (.str expected) =>
          if expected.length ≠ 64 then .error (.verification (py "invalid sha256 for " ++ name))
          else if (d.lookup name).any DirEntry.isSymlink then
            .error (.verification (py "evidence file must not be a symlink: " ++ name))
          else match d.read name with
            | none => .error (.verification (py "missing evidence file: " ++ name))
            | some content =>
              if py (env.sha256 content) ≠ expected then
                .error (.verification (py "sha256 mismatch: " ++ name))
              else .ok (name :: declared)
        | _ => .error (.verification (py "invalid sha256 for " ++ name))
    | _ => .error (.verification (py "manifest paths must be sibling file names"))
  | _ => .error (.verification (py "invalid manifest file entry"))

/-- The part of `verify_evidence_manifest` after the manifest is read. -/
def verifyManifest (env : Env) (d : Directory) (name : PyStr) (manifest : Dict) :
    Except EvidenceError Unit :=
  match Dict.get? manifest (py "schema_version") with
  | some (.str schema) =>
    if schema ≠ manifestSchema then
      .error (.verification (py "unsupported evidence manifest schema"))
    else if ¬ (py ".manifest.json").isSuffixOf name then
      .error (.verification (py "manifest name must end in .manifest.json"))
    else
      let stem := name.take (name.length - 14)
      let expectedNames := [reportName stem, dataName stem]
      match Dict.get? manifest (py "files") with
      | some (.arr entries) =>
        if entries.length ≠ 2 then
          .error (.verification (py "manifest must contain the report and JSON data"))
        else do
          let declared ← entries.foldlM (verifyEntry env d) []
          if ¬ (declared ⊆ expectedNames ∧ expectedNames ⊆ declared) then
            .error (.verification (py "manifest file set does not match its report stem"))
          else match (d.fileNames (isSidecar stem)).filter (· ∉ name :: expectedNames) with
            | [] => .ok ()
            | unexpected => .error (.verification (py "unexpected evidence sidecar(s): " ++
                ((unexpected.insertionSort (· ≤ ·)).intersperse (py ", ")).flatten))
      | _ => .error (.verification (py "manifest must contain the report and JSON data"))
  | _ => .error (.verification (py "unsupported evidence manifest schema"))

/-- `verify_evidence_manifest(parent / name)`. That `read_text` translates line ends is lost on
`json.loads`, to which both are white space between tokens and an error in a string. -/
def verifyEvidenceManifest (env : Env) (d : Directory) (parent : PyPath) (name : PyStr) :
    Except EvidenceError Unit :=
  let unreadable := EvidenceError.verification
    (py "cannot read manifest: " ++ PyPath.text { parent with parts := parent.parts ++ [name] })
  match d.read name with
  | none => .error unreadable
  | some bytes => match PyText.utf8Decode bytes with
    | none => .error (.raised "UnicodeDecodeError")
    | some text => match env.jsonLoads text with
      | .error .decodeError => .error unreadable
      | .error (.other c) => .error (.raised c)
      | .ok (.obj manifest) => verifyManifest env d name manifest
      | .ok _ => .error (.raised "AttributeError")

/-- The text has an encoding for the file system: its surrogates stand for undecodable bytes. -/
def fsEncodable (name : PyStr) : Bool :=
  name.all fun c => !PyText.isSurrogate c || (0xDC80 ≤ c && c ≤ 0xDCFF)

/-- The bytes of that encoding, in which a surrogate is the one byte it stands for. -/
def fsLength (name : PyStr) : ℕ :=
  (name.map fun c => if c < 0x80 || PyText.isSurrogate c then 1
    else if c < 0x800 then 2 else if c < 0x10000 then 3 else 4).sum

/-- The most bytes that the file system takes in a name. -/
def nameMax : ℕ := 255

abbrev EvidenceM := EStateM EvidenceError Directory

/-- `_atomic_write` beside the other entries of the directory. The name of its temporary file is
the final one between two dots, with eight letters behind. -/
def atomicWrite (name : PyStr) (content : PyBytes) : EvidenceM Unit := fun d =>
  if ¬ fsEncodable name then .error (.raised "UnicodeEncodeError") d
  else if 0 ∈ name then .error (.raised "ValueError") d
  else if nameMax < fsLength name + 10 then .error (.raised "OSError") d
  else match d.replace name content with
    | none => .error (.raised "IsADirectoryError") d
    | some d' => .ok () d'

def encodeText (text : PyStr) : EvidenceM PyBytes := fun d =>
  match PyText.utf8Encode text with
  | none => .error (.raised "UnicodeEncodeError") d
  | some bytes => .ok bytes d

/-- `_sha256`. -/
def sha256Of (env : Env) (name : PyStr) : EvidenceM String := fun d =>
  match d.read name with
  | none => .error (.raised "OSError") d
  | some content => .ok (env.sha256 content) d

structure EvidenceBundle where
  reportPath : PyStr
  dataPath : PyStr
  manifestPath : PyStr
  deriving DecidableEq

/-- `write_evidence_bundle` from the payload on, for the report `name` in the directory `parent`. -/
def writeEvidenceBundle (env : Env) (parent : PyPath) (name renderedReport : PyStr)
    (payload : Dict) : EvidenceM EvidenceBundle := do
  if PyPath.suffix name ≠ py ".md" then throw (.raised "ValueError")
  let dataPath := PyPath.withSuffix name (py ".json")
  let manifestPath := PyPath.stem name ++ py ".manifest.json"
  atomicWrite name (← encodeText renderedReport)
  atomicWrite dataPath (← encodeText (evidenceText env payload))
  let manifest := evidenceManifest (name, ← sha256Of env name) (dataPath, ← sha256Of env dataPath)
  atomicWrite manifestPath (← encodeText (evidenceText env manifest))
  fun d => match verifyEvidenceManifest env d parent manifestPath with
    | .error e => .error e d
    | .ok () => .ok ⟨name, dataPath, manifestPath⟩ d

end AgentRuntimeGrid
