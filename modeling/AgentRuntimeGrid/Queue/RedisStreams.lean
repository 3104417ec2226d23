import AgentRuntimeGrid.Domain.Jobs
import AgentRuntimeGrid.Lib.ConsumerGroup
import Mathlib.Tactic.Common

/-! The job stream with its consumer group, and the dead-letter stream. -/
namespace AgentRuntimeGrid

abbrev EntryId := ℕ

structure QueueJobMessage where
  jobId : JobId
  runId : RunId
  attemptNumber : ℤ
  traceId : String
  entryId : Option EntryId
  deriving DecidableEq, Repr

/-- The field values of a stream entry; ids stand for their canonical text. -/
structure StreamFields where
  jobId : JobId
  runId : RunId
  attemptNumber : String
  traceId : String
  deriving DecidableEq, Repr

def QueueJobMessage.toStreamFields (m : QueueJobMessage) : StreamFields where
  jobId := m.jobId
  runId := m.runId
  attemptNumber := toString m.attemptNumber
  traceId := m.traceId

private def natOfDigits (cs : List Char) : Option ℕ :=
  if cs ≠ [] ∧ cs.all Char.isDigit then some (Nat.ofDigitChars 10 cs 0) else none

/-- `int(text)` on the text of an integer; `none` is a `ValueError`. -/
def intOfText (s : String) : Option ℤ :=
  match s.toList with
  | '-' :: cs => (natOfDigits cs).map fun n => -(n : ℤ)
  | cs => (natOfDigits cs).map fun n => (n : ℤ)

private theorem natOfDigits_toDigits (n : ℕ) : natOfDigits (Nat.toDigits 10 n) = some n := by
  unfold natOfDigits
  rw [if_pos, Nat.ofDigitChars_ten_toDigits]
  refine ⟨Nat.toDigits_ne_nil, List.all_eq_true.mpr fun c hc => ?_⟩
  exact Nat.isDigit_of_mem_toDigits (by decide) (by decide) hc

theorem intOfText_toString (n : ℤ) : intOfText (toString n) = some n := by
  cases n with
  | ofNat n =>
    have ht : (toString (Int.ofNat n)).toList = Nat.toDigits 10 n := by
      simp [toString, Int.repr, Nat.repr]
    unfold intOfText
    rw [ht]
    split
    next cs h =>
      have hd := Nat.isDigit_of_mem_toDigits (b := 10) (n := n) (c := '-') (by decide) (by decide)
        (by rw [h]; simp)
      simp at hd
    next => simp [natOfDigits_toDigits]
  | negSucc n =>
    have ht : (toString (Int.negSucc n)).toList = '-' :: Nat.toDigits 10 (n + 1) := by
      simp [toString, Int.repr, Nat.repr]
    unfold intOfText
    rw [ht]
    change (natOfDigits (Nat.toDigits 10 (n + 1))).map (fun n => -(n : ℤ)) = _
    rw [natOfDigits_toDigits]
    rfl

def queueMessageFromStreamEntry (entryId : EntryId) (f : StreamFields) :
    Option QueueJobMessage :=
  (intOfText f.attemptNumber).map fun n => ⟨f.jobId, f.runId, n, f.traceId, some entryId⟩

/-- The attempt number travels as text and comes back as it was sent. -/
theorem queueMessageFromStreamEntry_toStreamFields (entryId : EntryId) (m : QueueJobMessage) :
    queueMessageFromStreamEntry entryId m.toStreamFields =
      some { m with entryId := some entryId } := by
  unfold queueMessageFromStreamEntry QueueJobMessage.toStreamFields
  simp only [intOfText_toString, Option.map_some]

/-- An entry of the job stream: the message it was made from and, as history that no code reads,
the delivered entry whose handling published it. -/
structure StreamEntry where
  message : QueueJobMessage
  cause : Option EntryId
  deriving DecidableEq, Repr

structure DeadLetterMessage where
  jobId : JobId
  runId : RunId
  attemptNumber : ℤ
  traceId : String
  finalErrorClass : String
  attemptCount : ℤ
  entryId : Option EntryId
  deriving DecidableEq, Repr

structure StaleLease where
  message : QueueJobMessage
  consumerName : String
  idleMs : ℕ
  deliveryCount : ℕ
  deriving DecidableEq, Repr

structure RedisStreamsQueue where
  jobs : ConsumerGroup StreamEntry
  dlq : List DeadLetterMessage

namespace RedisStreamsQueue

def empty : RedisStreamsQueue := ⟨.empty, []⟩

/-- `XADD` on the job stream. -/
def publishJob (q : RedisStreamsQueue) (m : QueueJobMessage) (cause : Option EntryId) :
    RedisStreamsQueue :=
  { q with jobs := q.jobs.append ⟨m, cause⟩ }

/-- `lease_jobs` with `count=1`: the next undelivered entry, read back from its fields. The inner
`none` is the `ValueError` of fields that are not a message. -/
def leaseJobs (q : RedisStreamsQueue) (consumerName : String) :
    Option (Option QueueJobMessage × RedisStreamsQueue) :=
  (q.jobs.deliver consumerName).map fun d =>
    (queueMessageFromStreamEntry d.1 d.2.1.message.toStreamFields, { q with jobs := d.2.2 })

/-- `XACK`. -/
def acknowledge (q : RedisStreamsQueue) (e : EntryId) : RedisStreamsQueue :=
  { q with jobs := q.jobs.ack e }

/-- `XCLAIM ... JUSTID` on an entry that is still pending. -/
def renewPendingLease (q : RedisStreamsQueue) (e : EntryId) (consumerName : String) :
    RedisStreamsQueue :=
  { q with jobs := q.jobs.claim e consumerName }

def staleLease (q : RedisStreamsQueue) (idle : EntryId → ℕ) (p : PendingEntry) :
    Option StaleLease := do
  let entry ← q.jobs.log[p.entryId]?
  let message ← queueMessageFromStreamEntry p.entryId entry.message.toStreamFields
  return ⟨message, p.consumer, idle p.entryId, p.timesDelivered⟩

/-- `find_stale_leases`: the first `count` pending entries idle for at least `staleAfterMs`, in id
order. The idle times are the server's, so they are an argument. -/
def findStaleLeases (q : RedisStreamsQueue) (idle : EntryId → ℕ) (staleAfterMs count : ℕ) :
    List StaleLease :=
  (((q.jobs.pending.insertionSort fun p p' => p.entryId ≤ p'.entryId).filter fun p =>
    staleAfterMs ≤ idle p.entryId).take count).filterMap (q.staleLease idle)

/-- The `XADD` of `move_to_dead_letter`. -/
def addDeadLetter (q : RedisStreamsQueue) (m : QueueJobMessage) (finalErrorClass : String)
    (attemptCount : ℤ) : RedisStreamsQueue :=
  { q with dlq := q.dlq ++ [⟨m.jobId, m.runId, m.attemptNumber, m.traceId, finalErrorClass,
      attemptCount, m.entryId⟩] }

@[simp] theorem jobs_publishJob (q : RedisStreamsQueue) (m : QueueJobMessage)
    (cause : Option EntryId) : (q.publishJob m cause).jobs = q.jobs.append ⟨m, cause⟩ := rfl

@[simp] theorem jobs_acknowledge (q : RedisStreamsQueue) (e : EntryId) :
    (q.acknowledge e).jobs = q.jobs.ack e := rfl

@[simp] theorem jobs_renewPendingLease (q : RedisStreamsQueue) (e : EntryId) (c : String) :
    (q.renewPendingLease e c).jobs = q.jobs.claim e c := rfl

@[simp] theorem jobs_addDeadLetter (q : RedisStreamsQueue) (m : QueueJobMessage) (c : String)
    (n : ℤ) : (q.addDeadLetter m c n).jobs = q.jobs := rfl

/-- A lease hands out the first undelivered entry with its id. -/
theorem leaseJobs_spec {q q' : RedisStreamsQueue} {c : String} {r : Option QueueJobMessage}
    (h : q.leaseJobs c = some (r, q')) :
    ∃ entry g, q.jobs.deliver c = some (q.jobs.delivered, entry, g) ∧ q' = { q with jobs := g } ∧
      r = some { entry.message with entryId := some q.jobs.delivered } := by
  obtain ⟨⟨e, entry, g⟩, hd, heq⟩ := Option.map_eq_some_iff.mp h
  obtain rfl := (ConsumerGroup.deliver_spec hd).1
  rw [queueMessageFromStreamEntry_toStreamFields] at heq
  cases heq
  exact ⟨entry, g, hd, rfl, rfl⟩

theorem leaseJobs_eq_none_iff {q : RedisStreamsQueue} {c : String} :
    q.leaseJobs c = none ↔ q.jobs.log.length ≤ q.jobs.delivered := by
  rw [leaseJobs, Option.map_eq_none_iff, ConsumerGroup.deliver_eq_none_iff]

/-- Every lease found belongs to an entry that is pending at that moment. -/
theorem mem_findStaleLeases {q : RedisStreamsQueue} {idle : EntryId → ℕ} {after count : ℕ}
    {l : StaleLease} (h : l ∈ q.findStaleLeases idle after count) :
    ∃ e entry, q.jobs.Pending e ∧ q.jobs.log[e]? = some entry ∧
      l.message = { entry.message with entryId := some e } := by
  obtain ⟨p, hp, hl⟩ := List.mem_filterMap.mp h
  have hp := List.mem_of_mem_filter (List.mem_of_mem_take hp)
  have hp : p ∈ q.jobs.pending := (List.mem_insertionSort _).mp hp
  unfold staleLease at hl
  cases he : q.jobs.log[p.entryId]? with
  | none => simp [he] at hl
  | some entry =>
    simp only [he, queueMessageFromStreamEntry_toStreamFields, Option.bind_eq_bind,
      Option.bind_some, Option.pure_def, Option.some.injEq] at hl
    subst hl
    exact ⟨p.entryId, entry, ⟨p, hp, rfl⟩, he, rfl⟩

/-- The leases found name the pending entries they were made of, in order. -/
theorem entryIds_findStaleLeases (q : RedisStreamsQueue) (idle : EntryId → ℕ) (after count : ℕ) :
    (q.findStaleLeases idle after count).filterMap (fun l => l.message.entryId) =
      (((q.jobs.pending.insertionSort fun p p' => p.entryId ≤ p'.entryId).filter fun p =>
        after ≤ idle p.entryId).take count).map PendingEntry.entryId := by
  unfold findStaleLeases
  rw [List.filterMap_filterMap, ← List.filterMap_eq_map]
  apply List.filterMap_congr
  intro p hp
  have hp := List.mem_of_mem_filter (List.mem_of_mem_take hp)
  have hp : p ∈ q.jobs.pending := (List.mem_insertionSort _).mp hp
  have hlt := (q.jobs.pending_lt p hp).trans_le q.jobs.delivered_le
  simp [staleLease, List.getElem?_eq_getElem hlt, queueMessageFromStreamEntry_toStreamFields]

theorem nodup_entryIds_findStaleLeases (q : RedisStreamsQueue) (idle : EntryId → ℕ)
    (after count : ℕ) :
    ((q.findStaleLeases idle after count).filterMap fun l => l.message.entryId).Nodup := by
  rw [entryIds_findStaleLeases]
  have hids := (List.perm_insertionSort (fun p p' : PendingEntry => p.entryId ≤ p'.entryId)
    q.jobs.pending).map PendingEntry.entryId
  refine (hids.nodup_iff.mpr q.jobs.pending_nodup).sublist ?_
  exact ((List.take_sublist _ _).trans List.filter_sublist).map _

/-- An entry found stale is pending, and has been idle for at least that long. -/
theorem mem_entryIds_findStaleLeases {q : RedisStreamsQueue} {idle : EntryId → ℕ}
    {after count : ℕ} {e : EntryId}
    (h : e ∈ (q.findStaleLeases idle after count).filterMap fun l => l.message.entryId) :
    q.jobs.Pending e ∧ after ≤ idle e := by
  rw [entryIds_findStaleLeases] at h
  obtain ⟨p, hp, rfl⟩ := List.mem_map.mp h
  obtain ⟨hp, hidle⟩ := List.mem_filter.mp (List.mem_of_mem_take hp)
  exact ⟨⟨p, (List.mem_insertionSort _).mp hp, rfl⟩, of_decide_eq_true hidle⟩

/-- When everything pending has been idle for long enough, something pending is found. -/
theorem exists_found {q : RedisStreamsQueue} (after : ℕ) {count : ℕ}
    (hpending : q.jobs.pending ≠ []) (hcount : 0 < count) : ∃ p ∈ q.jobs.pending, p.entryId ∈
      (q.findStaleLeases (fun _ => after) after count).filterMap fun l => l.message.entryId := by
  have hperm := List.perm_insertionSort (fun p p' : PendingEntry => p.entryId ≤ p'.entryId)
    q.jobs.pending
  rw [entryIds_findStaleLeases]
  cases hsorted : q.jobs.pending.insertionSort fun p p' => p.entryId ≤ p'.entryId with
  | nil =>
    rw [hsorted] at hperm
    exact absurd hperm.symm.eq_nil hpending
  | cons p ps =>
    obtain ⟨n, rfl⟩ := Nat.exists_eq_succ_of_ne_zero hcount.ne'
    rw [hsorted] at hperm
    refine ⟨p, hperm.mem_iff.mp List.mem_cons_self, ?_⟩
    simp

end RedisStreamsQueue
end AgentRuntimeGrid
