import AgentRuntimeGrid.Cost.Ledger
import AgentRuntimeGrid.Lib.JsonEquality
import AgentRuntimeGrid.Lib.Lines

/-! The cost telemetry file, a record a line: what is appended to it and what is loaded from it. -/
namespace AgentRuntimeGrid

open PyText

/-- `json.dumps(..., sort_keys=True)`. -/
def defaultFormat : Json.DumpsFormat := ⟨py ", ", py ": ", none, true⟩

/-- `to_json_dict`: the fields of the dataclass, the cost as its text. -/
def CostTelemetryRecord.toJsonDict (r : CostTelemetryRecord) : Dict := [
  (py "project", .str r.project),
  (py "run_id", .str r.runId),
  (py "job_id", .str r.jobId),
  (py "job_type", .str r.jobType),
  (py "worker_id", .str r.workerId),
  (py "model", .str r.model),
  (py "provider", .str r.provider),
  (py "input_tokens", .int r.inputTokens),
  (py "output_tokens", .int r.outputTokens),
  (py "estimated_cost_usd", .str r.estimatedCostUsd.text),
  (py "retry_count", .int r.retryCount),
  (py "environment", .str r.environment)]

/-- Conversions the file relies on beside those of text; the errors are class names. -/
structure TelemetryLibrary where
  floatRepr : PyFloat → PyStr
  parseFloat : PyStr → PyFloat
  /-- `int(v)` of a value that is not an integer. -/
  intOther : Json → Except String ℤ
  /-- `Decimal(v)` of a value that is not text. -/
  decimalOther : Json → Except String PyDecimal

/-- `json.dumps(record.to_json_dict(), sort_keys=True)`. -/
def recordLine (lib : TelemetryLibrary) (r : CostTelemetryRecord) : PyStr :=
  Json.dumps defaultFormat lib.floatRepr (.obj r.toJsonDict)

/-- `append_jsonl` on the bytes of the file, if there is one. -/
def appendJsonl (lib : TelemetryLibrary) (file : Option PyBytes) (record : CostTelemetryRecord) :
    Except String (Option PyBytes) :=
  match utf8Encode (recordLine lib record) with
  | none => .error "UnicodeEncodeError"
  | some line => .ok (some (file.getD [] ++ line ++ [10]))

/-- A record as `load_jsonl` builds it: what it does not convert may be any value. -/
structure LoadedRecord where
  project : Json
  runId : Json
  jobId : Json
  jobType : Json
  workerId : Json
  model : Json
  provider : Json
  inputTokens : ℤ
  outputTokens : ℤ
  estimatedCostUsd : PyDecimal
  retryCount : ℤ
  environment : Json
  deriving DecidableEq

/-- The record with its own values. -/
def CostTelemetryRecord.loaded (r : CostTelemetryRecord) : LoadedRecord where
  project := .str r.project
  runId := .str r.runId
  jobId := .str r.jobId
  jobType := .str r.jobType
  workerId := .str r.workerId
  model := .str r.model
  provider := .str r.provider
  inputTokens := r.inputTokens
  outputTokens := r.outputTokens
  estimatedCostUsd := r.estimatedCostUsd
  retryCount := r.retryCount
  environment := .str r.environment

section Load
variable (lib : TelemetryLibrary)

/-- `data[key]`. -/
def fieldOf (data : Json) (key : String) : Except String Json :=
  match data with
  | .obj d => match Dict.get? d (py key) with
    | none => .error "KeyError"
    | some v => .ok v
  | _ => .error "TypeError"

def intField (data : Json) (key : String) : Except String ℤ := do
  match ← fieldOf data key with
  | .int n => return n
  | v => lib.intOther v

def decimalField (data : Json) (key : String) : Except String PyDecimal := do
  match ← fieldOf data key with
  | .str s => match PyDecimal.ofText s with
    | none => throw "InvalidOperation"
    | some d => return d
  | v => lib.decimalOther v

/-- One round of the loop of `load_jsonl`, on the decoded line. -/
def loadRecord (data : Json) : Except String LoadedRecord := do
  let project ← fieldOf data "project"
  let runId ← fieldOf data "run_id"
  let jobId ← fieldOf data "job_id"
  let jobType ← fieldOf data "job_type"
  let workerId ← fieldOf data "worker_id"
  let model ← fieldOf data "model"
  let provider ← fieldOf data "provider"
  let inputTokens ← intField lib data "input_tokens"
  let outputTokens ← intField lib data "output_tokens"
  let estimatedCostUsd ← decimalField lib data "estimated_cost_usd"
  let retryCount ← intField lib data "retry_count"
  let environment ← fieldOf data "environment"
  return ⟨project, runId, jobId, jobType, workerId, model, provider, inputTokens, outputTokens,
    estimatedCostUsd, retryCount, environment⟩

/-- `json.loads(line)`. -/
def loadsLine (line : PyStr) : Except String Json :=
  match Json.loads lib.parseFloat line with
  | .error .decodeError => .error "JSONDecodeError"
  | .error .valueError => .error "ValueError"
  | .error .recursionError => .error "RecursionError"
  | .ok v => .ok v

/-- The loop of `load_jsonl`. -/
def loadLines : List PyStr → Except String (List LoadedRecord)
  | [] => .ok []
  | line :: rest =>
    if strip line = [] then loadLines rest
    else do
      let record ← loadRecord lib (← loadsLine lib line)
      return record :: (← loadLines rest)

/-- `load_jsonl`. The line ends that `read_text` translates are line ends of `splitlines`. -/
def loadJsonl (file : Option PyBytes) : Except String (List LoadedRecord) :=
  match file with
  | none => .error "FileNotFoundError"
  | some bytes => match utf8Decode bytes with
    | none => .error "UnicodeDecodeError"
    | some text => loadLines lib (splitlines text)

end Load

/-- Text fields without surrogates that would be read back as one character, and integers that
`str` writes. -/
structure CostTelemetryRecord.Writable (r : CostTelemetryRecord) : Prop where
  texts : ∀ s ∈ [r.project, r.runId, r.jobId, r.jobType, r.workerId, r.model, r.provider,
    r.environment], Json.Unpaired s
  integers : ∀ n ∈ [r.inputTokens, r.outputTokens, r.retryCount], Json.intReadable n

theorem readable_defaultFormat : defaultFormat.Readable :=
  ⟨⟨[32], rfl, by decide⟩, ⟨[32], rfl, by decide⟩⟩

section Record
variable {lib : TelemetryLibrary} {r : CostTelemetryRecord}

theorem printable_recordLine : ∀ c ∈ recordLine lib r, Json.Printable c := by
  have hnoFloat : (Json.obj r.toJsonDict).all (fun _ => true) (fun _ => false) = true := rfl
  refine Json.dumps_printable ⟨rfl, rfl⟩ (by decide) (by decide) ?_ hnoFloat
  intro x hx
  cases hx

theorem strip_recordLine : strip (recordLine lib r) ≠ [] := by
  obtain ⟨s, hs⟩ := @Json.dumps_object defaultFormat lib.floatRepr r.toJsonDict
  exact strip_ne_nil (c := 123) (by rw [recordLine, hs]; exact List.mem_cons_self) rfl

theorem keys_toJsonDict : (r.toJsonDict.map Prod.fst).Nodup := by
  have hkeys : r.toJsonDict.map Prod.fst = ["project", "run_id", "job_id", "job_type", "worker_id",
      "model", "provider", "input_tokens", "output_tokens", "estimated_cost_usd", "retry_count",
      "environment"].map py := rfl
  rw [hkeys]
  decide

theorem unpaired_of_ascii {s : PyStr} (hs : ∀ c ∈ s, c < 128) : Json.Unpaired s := by
  refine Json.unpaired_of_scalar (fun c hc => (hs c hc).trans (by decide)) fun c hc => ?_
  have := hs c hc
  simp only [isSurrogate, Bool.and_eq_false_iff, decide_eq_false_iff_not]
  omega

theorem plain_toJsonDict (h : r.Writable) : Json.Plain defaultFormat (.obj r.toJsonDict) := by
  have hkeys : ∀ k ∈ r.toJsonDict.map Prod.fst, defaultFormat.Keeps k := by
    intro k hk _
    have hascii : ∀ k ∈ r.toJsonDict.map Prod.fst, ∀ c ∈ k, c < 128 := by
      change ∀ k ∈ ["project", "run_id", "job_id", "job_type", "worker_id", "model", "provider",
        "input_tokens", "output_tokens", "estimated_cost_usd", "retry_count",
        "environment"].map py, ∀ c ∈ k, c < 128
      decide
    exact unpaired_of_ascii (hascii k hk)
  have hcost : Json.Unpaired r.estimatedCostUsd.text := unpaired_of_ascii fun c hc =>
    (r.estimatedCostUsd.text_plain c hc).2.2
  have htexts := h.texts
  have hintegers := h.integers
  simp only [List.forall_mem_cons, List.not_mem_nil, false_imp_iff, implies_true, and_true]
    at htexts hintegers
  refine ⟨keys_toJsonDict, Json.plainFields_iff.mpr fun kv hkv =>
    ⟨hkeys _ (List.mem_map_of_mem hkv), ?_⟩⟩
  revert kv hkv
  simp only [CostTelemetryRecord.toJsonDict, List.forall_mem_cons, List.not_mem_nil,
    false_imp_iff, implies_true, and_true, Json.Plain, Json.DumpsFormat.Keeps]
  simp [htexts, hintegers, hcost]

theorem load_recordLine (h : r.Writable) :
    (loadsLine lib (recordLine lib r) >>= loadRecord lib) = .ok r.loaded := by
  have hloads : Json.loads lib.parseFloat (recordLine lib r) = .ok (.obj r.toJsonDict.sorted) :=
    Json.loads_dumps readable_defaultFormat (plain_toJsonDict h)
  have hfield : ∀ k v, Dict.get? r.toJsonDict (py k) = some v → v.sortKeys = v →
      fieldOf (.obj r.toJsonDict.sorted) k = .ok v := by
    intro k v hv hsort
    simp only [fieldOf, Json.get?_sorted keys_toJsonDict, hv, Option.map_some, hsort]
  have hproject := hfield "project" (.str r.project) rfl rfl
  have hrunId := hfield "run_id" (.str r.runId) rfl rfl
  have hjobId := hfield "job_id" (.str r.jobId) rfl rfl
  have hjobType := hfield "job_type" (.str r.jobType) rfl rfl
  have hworkerId := hfield "worker_id" (.str r.workerId) rfl rfl
  have hmodel := hfield "model" (.str r.model) rfl rfl
  have hprovider := hfield "provider" (.str r.provider) rfl rfl
  have hinput := hfield "input_tokens" (.int r.inputTokens) rfl rfl
  have houtput := hfield "output_tokens" (.int r.outputTokens) rfl rfl
  have hcost := hfield "estimated_cost_usd" (.str r.estimatedCostUsd.text) rfl rfl
  have hretry := hfield "retry_count" (.int r.retryCount) rfl rfl
  have henvironment := hfield "environment" (.str r.environment) rfl rfl
  simp only [loadsLine, hloads, Json.ok_bind, loadRecord, intField, decimalField, hproject, hrunId,
    hjobId, hjobType, hworkerId, hmodel, hprovider, hinput, houtput, hcost, hretry, henvironment,
    PyDecimal.ofText_text]
  rfl

end Record

section File
variable {lib : TelemetryLibrary}

theorem append_records (records : List CostTelemetryRecord) (file : Option PyBytes) :
    records.foldlM (appendJsonl lib) file = .ok (if records = [] then file else
      some (file.getD [] ++ (records.map (recordLine lib)).flatMap fun line => line ++ [10])) := by
  induction records generalizing file with
  | nil => rfl
  | cons r records ih =>
    have hascii : utf8Encode (recordLine lib r) = some (recordLine lib r) :=
      utf8Encode_ascii fun c hc => (printable_recordLine c hc).lt
    have happend : appendJsonl lib file r =
        .ok (some (file.getD [] ++ (recordLine lib r ++ [10]))) := by
      unfold appendJsonl
      generalize recordLine lib r = line at hascii ⊢
      simp only [hascii, List.append_assoc]
    rw [List.foldlM_cons, happend, Json.ok_bind, ih, if_neg (List.cons_ne_nil r records)]
    cases records with
    | nil => simp
    | cons r' records => simp

theorem load_records {records : List CostTelemetryRecord} (h : ∀ r ∈ records, r.Writable) :
    loadLines lib (records.map (recordLine lib)) =
      .ok (records.map CostTelemetryRecord.loaded) := by
  induction records with
  | nil => rfl
  | cons r records ih =>
    rw [List.forall_mem_cons] at h
    have hrecord : (loadsLine lib (recordLine lib r) >>= loadRecord lib) = .ok r.loaded :=
      load_recordLine h.1
    rw [List.map_cons, loadLines, if_neg strip_recordLine, ih h.2, ← bind_assoc, hrecord]
    rfl

/-- Records appended to a new file one by one are loaded as they were, in their order. -/
theorem load_jsonl_of_appended (lib : TelemetryLibrary) (records : List CostTelemetryRecord)
    (hrecords : records ≠ []) (h : ∀ r ∈ records, r.Writable) :
    (records.foldlM (appendJsonl lib) none >>= loadJsonl lib) =
      .ok (records.map CostTelemetryRecord.loaded) := by
  have hprintable : ∀ line ∈ records.map (recordLine lib), ∀ c ∈ line, Json.Printable c := by
    intro line hline
    obtain ⟨r, -, rfl⟩ := List.mem_map.mp hline
    exact printable_recordLine
  have hbreak : ∀ line ∈ records.map (recordLine lib), ∀ c ∈ line, isLineBreak c = false := by
    intro line hline c hc
    obtain ⟨hlow, hhigh⟩ := hprintable line hline c hc
    simp only [isLineBreak, Bool.or_eq_false_iff, Bool.and_eq_false_iff, decide_eq_false_iff_not,
      beq_eq_false_iff_ne]
    omega
  have hascii : ∀ c ∈ (records.map (recordLine lib)).flatMap fun line => line ++ [10], c < 128 := by
    intro c hc
    obtain ⟨line, hline, hc⟩ := List.mem_flatMap.mp hc
    rcases List.mem_append.mp hc with hc | hc
    · exact (hprintable line hline c hc).lt
    · rw [List.mem_singleton.mp hc]
      decide
  rw [append_records, Json.ok_bind, if_neg hrecords]
  simp only [loadJsonl, Option.getD_none, List.nil_append, utf8Decode_ascii hascii]
  rw [splitlines_lines hbreak, load_records h]

/-- Conversions of which the records need none. -/
def bareLibrary : TelemetryLibrary where
  floatRepr _ := []
  parseFloat _ := .nan
  intOther _ := .error "TypeError"
  decimalOther _ := .error "TypeError"

/-- A record with line boundaries, quotes and a trailing zero. -/
def lineBreakRecord : CostTelemetryRecord where
  project := [34, 10, 0x85, 0x2028, 0x1F600]
  runId := []
  jobId := []
  jobType := py "live.eval"
  workerId := []
  model := []
  provider := []
  inputTokens := -1
  outputTokens := 20
  estimatedCostUsd := .finite ⟨false, 1500, -3⟩
  retryCount := 0
  environment := []

/-- Another record in the same file, of a cost too small to be written out. -/
def smallCostRecord : CostTelemetryRecord :=
  { lineBreakRecord with
    project := py "grid"
    estimatedCostUsd := .finite ⟨true, 7, -12⟩ }

theorem load_jsonl_of_appended_lineBreaks :
    ([lineBreakRecord, smallCostRecord].foldlM (appendJsonl bareLibrary) none >>=
      loadJsonl bareLibrary) = .ok [lineBreakRecord.loaded, smallCostRecord.loaded] := by
  refine load_jsonl_of_appended bareLibrary [lineBreakRecord, smallCostRecord] (by decide) ?_
  simp only [List.forall_mem_cons, List.not_mem_nil, false_imp_iff, implies_true, and_true]
  exact ⟨⟨by unfold Json.Unpaired; decide, by unfold Json.intReadable; decide⟩,
    ⟨by unfold Json.Unpaired; decide, by unfold Json.intReadable; decide⟩⟩

/-- Where no record is appended there is no file to load. -/
theorem load_jsonl_of_none : ¬ ∀ records : List CostTelemetryRecord, (∀ r ∈ records, r.Writable) →
    (records.foldlM (appendJsonl bareLibrary) none >>= loadJsonl bareLibrary) =
      .ok (records.map CostTelemetryRecord.loaded) := by
  intro h
  cases h [] nofun

end File

end AgentRuntimeGrid
