import AgentRuntimeGrid.Lib.Json
import Mathlib.Data.BitVec

/-! Job submissions and job records, and the parts of the interpreter and of the standard
library whose behaviour the runtime relies on without implementing it. -/
namespace AgentRuntimeGrid

abbrev UUID := BitVec 128
abbrev JobId := UUID
abbrev RunId := UUID

/-- `str(uuid)`: 32 lower-case hexadecimal digits in groups of 8, 4, 4, 4 and 12. -/
def uuidText (u : UUID) : PyStr :=
  let digits := (List.range 32).map fun i =>
    let d := u.toNat / 16 ^ (31 - i) % 16
    if d < 10 then 48 + d else 87 + d
  let group (start n : ℕ) := (digits.drop start).take n
  group 0 8 ++ [45] ++ group 8 4 ++ [45] ++ group 12 4 ++ [45] ++ group 16 4 ++ [45] ++ group 20 12

/-- The hexadecimal digits of an id are those of its number. -/
def uuidDigit (u : UUID) (i : ℕ) : ℕ :=
  let d := u.toNat / 16 ^ (31 - i) % 16
  if d < 10 then 48 + d else 87 + d

theorem uuidDigit_eq_iff {u v : UUID} {i : ℕ} : uuidDigit u i = uuidDigit v i ↔
    u.toNat / 16 ^ (31 - i) % 16 = v.toNat / 16 ^ (31 - i) % 16 := by
  unfold uuidDigit
  have hu := Nat.mod_lt (u.toNat / 16 ^ (31 - i)) (by decide : 0 < 16)
  have hv := Nat.mod_lt (v.toNat / 16 ^ (31 - i)) (by decide : 0 < 16)
  constructor
  · intro h
    simp only at h
    split_ifs at h <;> omega
  · intro h
    simp only [h]

theorem mod_pow_eq_of_digits {a b : ℕ} (k : ℕ)
    (h : ∀ i < k, a / 16 ^ i % 16 = b / 16 ^ i % 16) : a % 16 ^ k = b % 16 ^ k := by
  induction k with
  | zero => simp [Nat.mod_one]
  | succ k ih =>
    rw [Nat.mod_pow_succ, Nat.mod_pow_succ, h k (Nat.lt_succ_self k),
      ih fun i hi => h i (Nat.lt_succ_of_lt hi)]

/-- Without its dashes the text is the digits. -/
theorem filter_uuidText (u : UUID) :
    (uuidText u).filter (· ≠ 45) = (List.range 32).map (uuidDigit u) := by
  have hdigit : ∀ i, uuidDigit u i ≠ 45 := by
    intro i
    unfold uuidDigit
    simp only
    split_ifs <;> omega
  have hall : ∀ is : List ℕ, (is.map (uuidDigit u)).filter (· ≠ 45) = is.map (uuidDigit u) := by
    intro is
    rw [List.filter_eq_self]
    intro d hd
    obtain ⟨i, -, rfl⟩ := List.mem_map.mp hd
    simpa using hdigit i
  change (((((List.range 32).map (uuidDigit u)).drop 0).take 8 ++ [45] ++
    (((List.range 32).map (uuidDigit u)).drop 8).take 4 ++ [45] ++
    (((List.range 32).map (uuidDigit u)).drop 12).take 4 ++ [45] ++
    (((List.range 32).map (uuidDigit u)).drop 16).take 4 ++ [45] ++
    (((List.range 32).map (uuidDigit u)).drop 20).take 12).filter (· ≠ 45)) = _
  simp only [← List.map_drop, ← List.map_take, List.filter_append, hall, List.filter_cons,
    List.filter_nil, ne_eq, not_true_eq_false, decide_false, Bool.false_eq_true, ↓reduceIte,
    List.append_nil, ← List.map_append]
  rfl

theorem uuidText_injective : Function.Injective uuidText := by
  intro u v h
  have hdigits := (filter_uuidText u).symm.trans ((congrArg _ h).trans (filter_uuidText v))
  rw [List.map_inj_left] at hdigits
  have hmod := mod_pow_eq_of_digits (a := u.toNat) (b := v.toNat) 32 fun i hi => by
    have := uuidDigit_eq_iff.mp (hdigits (31 - i) (List.mem_range.mpr (by omega)))
    rwa [show 31 - (31 - i) = i by omega] at this
  apply BitVec.eq_of_toNat_eq
  have hu := u.isLt
  have hv := v.isLt
  rw [show 2 ^ 128 = 16 ^ 32 by decide] at hu hv
  rwa [Nat.mod_eq_of_lt hu, Nat.mod_eq_of_lt hv] at hmod

theorem length_uuidText (u : UUID) : (uuidText u).length = 36 := by
  simp [uuidText]

/-- The file a path string leads to: the artifact of one attempt of one job under the artifact
root, or any other file. -/
inductive FileRef where
  | artifact (jobId : JobId) (attemptNumber : ℤ)
  | other (path : String)
  deriving DecidableEq, Repr

/-- What `json.loads` raises: its own `JSONDecodeError`, or another exception class (an integer
past the digit limit, nesting past the recursion limit). -/
inductive LoadsError where
  | decodeError
  | other (errorClass : String)
  deriving DecidableEq, Repr

/-- Text that Postgres keeps in a `jsonb` value: no NUL and no lone surrogate. -/
def storableText (s : PyStr) : Bool := s.all fun c => c != 0 && !PyText.isSurrogate c

def storableFloat : PyFloat → Bool
  | .finite _ => true
  | .infinity _ => false
  | .nan => false

/-- The value is one a `jsonb` column accepts. -/
def jsonbStorable (v : Json) : Bool := v.all storableText storableFloat

theorem jsonbStorable_nil : jsonbStorable (.obj []) = true := by decide

theorem jsonbStorable_cons {k : PyStr} {v : Json} {d : Dict} :
    jsonbStorable (.obj ((k, v) :: d)) =
      (storableText k && jsonbStorable v && jsonbStorable (.obj d)) := rfl

theorem jsonbStorable_items {v : Json} {vs : List Json} :
    jsonbStorable (.arr (v :: vs)) = (jsonbStorable v && jsonbStorable (.arr vs)) := rfl

theorem jsonbStorable_obj_iff {d : Dict} : jsonbStorable (.obj d) = true ↔
    ∀ kv ∈ d, storableText kv.1 = true ∧ jsonbStorable kv.2 = true := by
  induction d with
  | nil => exact iff_of_true jsonbStorable_nil (List.forall_mem_nil _)
  | cons kv d ih =>
    rw [jsonbStorable_cons, Bool.and_eq_true, Bool.and_eq_true, ih, List.forall_mem_cons]

/-- An object held by a `jsonb` column. -/
structure JsonbObject where
  fields : Dict
  storable : jsonbStorable (.obj fields) = true

/-- Library behaviour the runtime uses as it finds it. The laws are documented behaviour: `repr`
of a float is ASCII, `str` of a value that is not text escapes what is not printable, and
`json.loads` reads back a `dict` that `json.dumps` wrote. -/
structure Env where
  /-- `hashlib.sha256(data).hexdigest()`. -/
  sha256 : PyBytes → String
  floatRepr : PyFloat → PyStr
  /-- `str(v)` of a value that is not text. -/
  strOther : Json → PyStr
  jsonLoads : PyStr → Except LoadsError Json
  /-- The file a path string names, in the working directory of the workers. -/
  resolve : PyStr → FileRef
  floatRepr_ascii : ∀ x, ∀ c ∈ floatRepr x, c < 128
  strOther_storable : ∀ v, storableText (strOther v) = true
  jsonLoads_dumps : ∀ d : Dict, ∃ d' : Dict,
    jsonLoads (Json.dumps Json.indentedFormat floatRepr (.obj d)) = .ok (.obj d')

/-- The laws of `Env` for a library that writes no text and reads empty objects. -/
theorem noText_ascii (_ : PyFloat) : ∀ c ∈ ([] : PyStr), c < 128 := List.forall_mem_nil _

theorem noText_storable (_ : Json) : storableText [] = true := rfl

theorem emptyObject_read (_ : Dict) :
    ∃ d' : Dict, (.ok (.obj []) : Except LoadsError Json) = .ok (.obj d') := ⟨[], rfl⟩

/-- `json.dumps(payload, sort_keys=True, separators=(",", ":"), ensure_ascii=False)`. -/
def canonicalPayload (env : Env) (payload : Dict) : PyStr :=
  Json.dumps Json.compactFormat env.floatRepr (.obj payload)

/-- `none` is the `UnicodeEncodeError` of a payload with a lone surrogate. -/
def payloadSha256 (env : Env) (payload : Dict) : Option String :=
  (PyText.utf8Encode (canonicalPayload env payload)).map env.sha256

theorem not_isSurrogate_of_storableText {s : PyStr} (h : storableText s = true) :
    ∀ c ∈ s, PyText.isSurrogate c = false := by
  intro c hc
  have := List.all_eq_true.mp h c hc
  simp only [Bool.and_eq_true, Bool.not_eq_true'] at this
  exact this.2

/-- The payload of a job, which a `jsonb` column holds, has a digest. -/
theorem exists_payloadSha256 (env : Env) {payload : Dict}
    (h : jsonbStorable (.obj payload) = true) :
    ∃ digest, payloadSha256 env payload = some digest := by
  have hsome := PyText.utf8Encode_isSome.mpr (Json.dumps_compact_encodable env.floatRepr_ascii
    (fun s hs => not_isSurrogate_of_storableText hs) h)
  obtain ⟨bytes, hbytes⟩ := Option.isSome_iff_exists.mp hsome
  exact ⟨env.sha256 bytes, by rw [payloadSha256, canonicalPayload, hbytes]; rfl⟩

/-- `str(v)`. -/
def Env.str (env : Env) : Json → PyStr
  | .str s => s
  | v => env.strOther v

inductive JobStatus where
  | submitted | queued | running | completed | failed | timedOut | cancelled
  deriving DecidableEq, Repr

/-- `TERMINAL_STATUSES`. -/
def JobStatus.terminal : JobStatus → Bool
  | .completed | .failed | .timedOut | .cancelled => true
  | .submitted | .queued | .running => false

structure JobSubmission where
  jobType : String
  payload : Dict
  idempotencyKey : String
  timeoutSeconds : ℤ
  maxRetries : ℤ
  traceId : String
  budgetCents : Option ℤ
  jobId : JobId
  runId : RunId

def JobSubmission.payloadHash (env : Env) (s : JobSubmission) : Option String :=
  payloadSha256 env s.payload

structure JobRecord where
  id : JobId
  runId : RunId
  jobType : String
  payload : JsonbObject
  payloadHash : String
  idempotencyKey : String
  status : JobStatus
  timeoutSeconds : ℤ
  maxRetries : ℤ
  traceId : String
  budgetCents : Option ℤ

def JobRecord.withStatus (j : JobRecord) (s : JobStatus) : JobRecord := { j with status := s }

@[simp] theorem JobRecord.withStatus_status (j : JobRecord) (s : JobStatus) :
    (j.withStatus s).status = s := rfl

@[simp] theorem JobRecord.withStatus_id (j : JobRecord) (s : JobStatus) :
    (j.withStatus s).id = j.id := rfl

@[simp] theorem JobRecord.withStatus_withStatus (j : JobRecord) (s t : JobStatus) :
    (j.withStatus s).withStatus t = j.withStatus t := rfl

@[simp] theorem JobRecord.withStatus_self (j : JobRecord) : j.withStatus j.status = j := rfl

/-- The two records agree on every column but the status. -/
def JobRecord.SameJob (j j' : JobRecord) : Prop := j' = j.withStatus j'.status

theorem JobRecord.SameJob.refl (j : JobRecord) : j.SameJob j := rfl

theorem JobRecord.SameJob.trans {j j' j'' : JobRecord} (h : j.SameJob j') (h' : j'.SameJob j'') :
    j.SameJob j'' := by
  unfold SameJob at h h' ⊢
  rw [h', h]
  rfl

theorem JobRecord.SameJob.id_eq {j j' : JobRecord} (h : j.SameJob j') : j'.id = j.id := by
  rw [h]
  rfl

theorem JobRecord.SameJob.maxRetries_eq {j j' : JobRecord} (h : j.SameJob j') :
    j'.maxRetries = j.maxRetries := by
  rw [h]
  rfl

theorem JobRecord.SameJob.withStatus {j j' : JobRecord} (h : j.SameJob j') (s : JobStatus) :
    j.SameJob (j'.withStatus s) := by
  unfold SameJob at h ⊢
  rw [h]
  rfl

end AgentRuntimeGrid
