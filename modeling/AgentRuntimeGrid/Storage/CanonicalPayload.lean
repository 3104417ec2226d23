import AgentRuntimeGrid.Lib.CanonicalText
import AgentRuntimeGrid.Lib.JsonEquality
import AgentRuntimeGrid.Storage.Repositories

/-! What the payload hash tells apart: the canonical text of a payload stands for its value, the
order of the keys aside. -/
namespace AgentRuntimeGrid

/-- `canonical_payload` of any JSON value. -/
def canonicalText (env : Env) (v : Json) : PyStr := Json.dumps Json.compactFormat env.floatRepr v

def scalarText (s : PyStr) : Bool := s.all fun c => !PyText.isSurrogate c

/-- A value of nulls, booleans, integers that have a text, strings of Unicode scalar values, lists
and objects, at any depth. -/
structure CanonicalJson (v : Json) : Prop where
  plain : Json.Plain Json.compactFormat v
  scalar : v.all scalarText (fun _ => true) = true

/-- SHA-256 does not collide on the texts of the two payloads. -/
def CollisionFree (env : Env) (p q : Dict) : Prop :=
  ∀ a b, PyText.utf8Encode (canonicalPayload env p) = some a →
    PyText.utf8Encode (canonicalPayload env q) = some b → env.sha256 a = env.sha256 b → a = b

theorem readable_compactFormat : Json.compactFormat.Readable :=
  ⟨⟨[], rfl, nofun⟩, ⟨[], rfl, nofun⟩⟩

variable {env : Env}

theorem canonicalText_eq_iff {v w : Json} (hv : CanonicalJson v) (hw : CanonicalJson w) :
    canonicalText env v = canonicalText env w ↔ v.Equal w :=
  Json.dumps_eq_iff readable_compactFormat hv.plain hw.plain

theorem exists_encoded (env : Env) {payload : Dict} (h : CanonicalJson (.obj payload)) :
    ∃ bytes, PyText.utf8Encode (canonicalPayload env payload) = some bytes := by
  have hscalar : ∀ s, scalarText s = true → ∀ c ∈ s, PyText.isSurrogate c = false := by
    intro s hs c hc
    simpa using List.all_eq_true.mp hs c hc
  exact Option.isSome_iff_exists.mp (PyText.utf8Encode_isSome.mpr
    (Json.dumps_compact_encodable env.floatRepr_ascii hscalar h.scalar))

theorem payloadSha256_congr {p q : Dict} (hp : CanonicalJson (.obj p)) (hq : CanonicalJson (.obj q))
    (h : (Json.obj p).Equal (.obj q)) : payloadSha256 env p = payloadSha256 env q := by
  have htext : canonicalPayload env p = canonicalPayload env q := (canonicalText_eq_iff hp hq).mpr h
  rw [payloadSha256, payloadSha256, htext]

/-- Payloads with one hash are equal as values, where the hash does not collide. -/
theorem payloadSha256_inj {p q : Dict} (hp : CanonicalJson (.obj p)) (hq : CanonicalJson (.obj q))
    (hfree : CollisionFree env p q) (h : payloadSha256 env p = payloadSha256 env q) :
    (Json.obj p).Equal (.obj q) := by
  obtain ⟨a, ha⟩ := exists_encoded env hp
  obtain ⟨b, hb⟩ := exists_encoded env hq
  rw [payloadSha256, payloadSha256, ha, hb, Option.map_some, Option.map_some] at h
  obtain rfl := hfree a b ha hb (Option.some.inj h)
  exact (canonicalText_eq_iff hp hq).mp (PyText.utf8Encode_inj ha hb)

/-- The canonical text is injective on JSON values up to the order of their keys, so a submission
with a key in use is answered with the job exactly when its payload is the value first submitted,
and a payload that comes back in another order has the hash that was stored. -/
theorem canonical_payload_injective (env : Env) :
    (∀ v w : Json, CanonicalJson v → CanonicalJson w →
      (canonicalText env v = canonicalText env w ↔ v.Equal w)) ∧
    (∀ (db : Database) (s : JobSubmission) (existing : JobRecord) (first : Dict),
      db.getByIdempotencyKey s.idempotencyKey = some existing →
      payloadSha256 env first = some existing.payloadHash →
      CanonicalJson (.obj first) → CanonicalJson (.obj s.payload) →
      CollisionFree env s.payload first →
      ((Json.obj s.payload).Equal (.obj first) → db.createJob env s = (.ok existing, db)) ∧
      (¬ (Json.obj s.payload).Equal (.obj first) →
        db.createJob env s = (.error (.idempotencyConflict s.idempotencyKey), db))) ∧
    ∀ p q : Dict, CanonicalJson (.obj p) → CanonicalJson (.obj q) →
      (Json.obj p).Equal (.obj q) → payloadSha256 env p = payloadSha256 env q := by
  refine ⟨fun v w => canonicalText_eq_iff, ?_, fun p q => payloadSha256_congr⟩
  intro db s existing first hexisting hhash hfirst hpayload hfree
  obtain ⟨bytes, hbytes⟩ := exists_encoded env hpayload
  have hsubmitted : payloadSha256 env s.payload = some (env.sha256 bytes) := by
    rw [payloadSha256, hbytes, Option.map_some]
  have hcreate : db.createJob env s = (if payloadSha256 env s.payload = payloadSha256 env first
      then .ok existing else .error (.idempotencyConflict s.idempotencyKey), db) := by
    simp only [Database.createJob, hexisting, answerExisting, JobSubmission.payloadHash, hsubmitted,
      hhash, Option.some.injEq, ne_eq, eq_comm (a := existing.payloadHash), ite_not]
  rw [hcreate]
  refine ⟨fun heq => ?_, fun hne => ?_⟩
  · rw [if_pos (payloadSha256_congr hpayload hfirst heq)]
  · rw [if_neg fun heq => hne (payloadSha256_inj hpayload hfirst hfree heq)]

/-- A library that tells one canonical text from all others. -/
def replayEnv : Env where
  sha256 data := if data = py "\x7b\"a\":[1,true],\"b\":\"x\"\x7d" then "known" else "other"
  floatRepr _ := []
  strOther _ := []
  jsonLoads _ := .ok (.obj [])
  resolve _ := .other ""
  floatRepr_ascii := noText_ascii
  strOther_storable := noText_storable
  jsonLoads_dumps := emptyObject_read

def replayedPayload : Dict :=
  [(py "a", .arr [.int 1, .bool true]), (py "b", .str (py "x"))]

theorem jsonbStorable_replayedPayload : jsonbStorable (.obj replayedPayload) = true := by decide

def replayedJob : JobRecord where
  id := 1
  runId := 2
  jobType := "stub"
  payload := ⟨replayedPayload, jsonbStorable_replayedPayload⟩
  payloadHash := "known"
  idempotencyKey := "key"
  status := .submitted
  timeoutSeconds := 30
  maxRetries := 1
  traceId := "trace"
  budgetCents := none

def replayedDatabase : Database :=
  { Database.empty with jobs := (KeyedTable.empty.insert replayedJob).getD .empty }

/-- The same payload, its keys the other way round. -/
def replayingSubmission : JobSubmission where
  jobType := "stub"
  payload := replayedPayload.reverse
  idempotencyKey := "key"
  timeoutSeconds := 30
  maxRetries := 1
  traceId := "trace"
  budgetCents := none
  jobId := 3
  runId := 2

theorem canonical_payload_injective_reversed :
    replayedDatabase.createJob replayEnv replayingSubmission =
      (.ok replayedJob, replayedDatabase) := by
  have hone : Json.intReadable 1 := by unfold Json.intReadable; decide
  have hkeeps : ∀ s, Json.compactFormat.Keeps s := fun _ => nofun
  have hfirst : CanonicalJson (.obj replayedPayload) :=
    ⟨⟨by decide, hkeeps _, ⟨hone, trivial, trivial⟩, hkeeps _, hkeeps _, trivial⟩, by decide⟩
  have hpayload : CanonicalJson (.obj replayingSubmission.payload) :=
    ⟨⟨by decide, hkeeps _, hkeeps _, hkeeps _, ⟨hone, trivial, trivial⟩, trivial⟩, by decide⟩
  have htexts : canonicalPayload replayEnv replayingSubmission.payload =
      canonicalPayload replayEnv replayedPayload := by decide
  have hfree : CollisionFree replayEnv replayingSubmission.payload replayedPayload := by
    intro a b ha hb _
    rw [htexts, hb] at ha
    exact (Option.some.inj ha).symm
  have hequal : (Json.obj replayingSubmission.payload).Equal (.obj replayedPayload) :=
    ⟨rfl, ⟨_, rfl, rfl⟩, ⟨_, rfl, rfl, rfl, trivial⟩, trivial⟩
  exact ((canonical_payload_injective replayEnv).2.1 replayedDatabase replayingSubmission
    replayedJob replayedPayload rfl (by decide) hfirst hpayload hfree).1 hequal

end AgentRuntimeGrid
