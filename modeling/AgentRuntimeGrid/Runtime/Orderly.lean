import AgentRuntimeGrid.Runtime.Heartbeat
import AgentRuntimeGrid.Runtime.Writes

/-! Runs in which nothing overtakes a worker. While leases are renewed in time, recoveries take
turns, nobody dies between publishing an entry's successor and acknowledging it, and clients
publish each job once, the worker that has a job in hand is the only one that can finalize it: no
retry comes late, and the finalization guard never has to refuse a writer. -/
namespace AgentRuntimeGrid

namespace ActorState

/-- The message of a worker that has seen its job open and has yet to finalize or requeue it. -/
def undecided : ActorState → Option QueueJobMessage
  | .worker (.dispatchAck m (.budgetBlocked _ _)) | .worker (.dispatchCommit m (.budgetBlocked _ _))
  | .worker (.executing m _) | .worker (.handling m _ _) | .worker (.writingArtifact m _ _)
  | .worker (.crossLinking m _ _ _ _) | .worker (.completing m _ _) => some m
  | _ => none

/-- The entry a dispatch transaction that is still open has acknowledged. -/
def released : ActorState → Option EntryId
  | .worker (.dispatchCommit m _) => m.entryId
  | _ => none

end ActorState

variable {cfg : Deployment} {i : ℕ} {g g' : Grid} {l l' : ActorState} {a : Action} {e : EntryId}
  {m : QueueJobMessage}

theorem Worker.undecided_afterRun {w : Worker} {m' : QueueJobMessage} {job : JobRecord}
    {outcome : RunOutcome}
    (h : (ActorState.worker (w.afterRun m' job outcome)).undecided = some m) :
    m' = m := by
  cases outcome with
  | success result =>
    change ActorState.undecided (.worker (if _ then _ else _)) = _ at h
    split at h <;> exact Option.some.inj h
  | raised c => cases h
  | _ => exact Option.some.inj h

/-- A worker comes to be undecided on a job when its dispatch finds the job open, and as long as it
is undecided it writes nothing of it. -/
theorem Transition.undecided (h : Transition cfg i g l a g' l') (hl' : l'.undecided = some m) :
    (l.undecided = some m ∧ g'.db = g.db) ∨
    ∃ job, g.db.loadJob m.jobId = some job ∧ job.status.terminal = false ∧
      g'.db.jobFinalizations = g.db.jobFinalizations ∧ l.held = m.entryId := by
  cases h with
  | worker h =>
    cases h with
    | @dispatchBlocked m' job exc hjob hopen =>
      obtain rfl := Option.some.inj hl'
      exact .inr ⟨job, hjob, hopen, rfl, rfl⟩
    | @dispatchRunning m' job db hjob hopen hbudget hdb =>
      obtain rfl := Option.some.inj hl'
      obtain ⟨-, rfl⟩ := Database.recordStateEvent_eq_some hdb
      exact .inr ⟨job, hjob, hopen, rfl, rfl⟩
    | @dispatchAck m' exit =>
      left
      refine ⟨?_, Grid.db_acknowledge _ _⟩
      cases exit with
      | budgetBlocked job exc => exact hl'
      | missing => cases hl'
      | terminal => cases hl'
    | artifactWritten _ hnext => obtain rfl | ⟨p, -, rfl⟩ := hnext <;> exact .inl ⟨hl', rfl⟩
    | crossLinked => exact .inl ⟨hl', rfl⟩
    | _ => cases hl'
  | run => exact .inl ⟨congrArg some (Worker.undecided_afterRun hl'), rfl⟩
  | renewLease => exact .inl ⟨hl', rfl⟩
  | _ => cases hl'

/-- A worker releases an entry it holds, and the entry is pending no more. -/
theorem Transition.released (h : Transition cfg i g l a g' l') (hl' : l'.released = some e) :
    (l.released = some e ∧ g'.queue = g.queue) ∨
    l.held = some e ∧ l.closing = none ∧ ¬ g'.queue.jobs.Pending e ∧
      g'.queue.jobs.log = g.queue.jobs.log := by
  cases h with
  | worker h =>
    cases h with
    | @dispatchAck m exit =>
      have hm : m.entryId = some e := hl'
      have hack : g.acknowledge m = { g with queue := g.queue.acknowledge e } := by
        rw [Grid.acknowledge, hm]
      rw [hack]
      exact .inr ⟨hm, rfl, fun h => ((ConsumerGroup.pending_ack _ _ _).mp h).2 rfl, rfl⟩
    | artifactWritten _ hnext => obtain rfl | ⟨p, -, rfl⟩ := hnext <;> cases hl'
    | _ => cases hl'
  | @run m job writes outcome =>
    cases outcome with
    | success result =>
      change ActorState.released (.worker (if _ then _ else _)) = _ at hl'
      split at hl' <;> cases hl'
    | _ => cases hl'
  | @renewLease st e' he =>
    cases st with
    | dispatchCommit m exit => cases he
    | _ => cases hl'
  | _ => cases hl'

/-- The last attempt of a job is the only one of its entries without a successor. -/
theorem Grid.AttemptChain.last_unique (hg : g.AttemptChain)
    (hunique : ∀ (x y : EntryId) (ex ey : StreamEntry), g.queue.jobs.log[x]? = some ex →
      g.queue.jobs.log[y]? = some ey → ex.message.jobId = ey.message.jobId →
      ex.message.attemptNumber = ey.message.attemptNumber → x = y)
    {x y : EntryId} {ex ey : StreamEntry} (hx : g.queue.jobs.log[x]? = some ex)
    (hy : g.queue.jobs.log[y]? = some ey) (hj : ex.message.jobId = ey.message.jobId)
    (hlastx : ¬ g.Succeeded x) (hlasty : ¬ g.Succeeded y) : x = y := by
  -- from a later attempt the chain of causes leads down to the successor of an earlier one
  have succeeded : ∀ (n : ℕ) {x y : EntryId} {ex ey : StreamEntry},
      g.queue.jobs.log[x]? = some ex → g.queue.jobs.log[y]? = some ey →
      ex.message.jobId = ey.message.jobId →
      ey.message.attemptNumber = ex.message.attemptNumber + (n + 1 : ℕ) → g.Succeeded x := by
    intro n
    induction n with
    | zero =>
      intro x y ex ey hx hy hj hn
      cases hcause : ey.cause with
      | none =>
        have := hg.first y ey hy hcause
        have := (hg.bound x ex hx).1
        omega
      | some e =>
        obtain ⟨-, ee, hee, hje, hattempt⟩ := hg.caused y e ey hy hcause
        have hxe : x = e := by
          refine hunique x e ex ee hx hee (hj.trans hje.symm) ?_
          omega
        exact ⟨y, ey, hy, hxe ▸ hcause⟩
    | succ n ih =>
      intro x y ex ey hx hy hj hn
      cases hcause : ey.cause with
      | none =>
        have := hg.first y ey hy hcause
        have := (hg.bound x ex hx).1
        omega
      | some e =>
        obtain ⟨-, ee, hee, hje, hattempt⟩ := hg.caused y e ey hy hcause
        refine ih hx hee (hj.trans hje.symm) ?_
        omega
  rcases lt_trichotomy ex.message.attemptNumber ey.message.attemptNumber with hlt | heq | hlt
  · refine absurd (succeeded (ey.message.attemptNumber - ex.message.attemptNumber - 1).toNat
      hx hy hj ?_) hlastx
    omega
  · exact hunique x y ex ey hx hy hj heq
  · refine absurd (succeeded (ex.message.attemptNumber - ey.message.attemptNumber - 1).toNat
      hy hx hj.symm ?_) hlasty
    omega

namespace DbWrite
variable {db : Database}

/-- A job becomes finalized by a terminal event proposed for it. -/
theorem finalized_cases (h : DbWrite cfg i g l a db) {j : JobId} (hj : db.Finalized j) :
    g.db.Finalized j ∨ ∃ job eventType eventData,
      TerminalEvent cfg i g l a job eventType eventData ∧ job.id = j := by
  cases h with
  | same => exact .inl hj
  | created hdb =>
    obtain ⟨jobs, -, rfl⟩ := Database.insertJob_eq_ok hdb
    exact .inl hj
  | lifecycle h hdb =>
    obtain ⟨-, rfl⟩ := Database.recordStateEvent_eq_some hdb
    exact .inl hj
  | @finalized job eventType eventData r db h hdb =>
    by_cases hid : job.id = j
    · exact .inr ⟨job, eventType, eventData, h, hid⟩
    · left
      obtain ⟨-, -, ⟨f, -, -, rfl⟩ | ⟨fins, hfins, -, rfl⟩⟩ := Database.finalizeJob_cases hdb
      · exact hj
      · obtain ⟨f, hf⟩ := Database.finalized_iff.mp hj
        change fins.get? j = some f at hf
        rw [KeyedTable.get?_of_insert hfins, if_neg hid] at hf
        exact Database.finalized_iff.mpr ⟨f, hf⟩

/-- A conflict is recorded when a terminal event is proposed for a job that is finalized. -/
theorem conflicts_cases (h : DbWrite cfg i g l a db) :
    db.finalizationConflictAttempts = g.db.finalizationConflictAttempts ∨
    ∃ job eventType eventData, TerminalEvent cfg i g l a job eventType eventData ∧
      g.db.Finalized job.id := by
  cases h with
  | same => exact .inl rfl
  | created hdb =>
    obtain ⟨jobs, -, rfl⟩ := Database.insertJob_eq_ok hdb
    exact .inl rfl
  | lifecycle h hdb =>
    obtain ⟨-, rfl⟩ := Database.recordStateEvent_eq_some hdb
    exact .inl rfl
  | @finalized job eventType eventData r db h hdb =>
    obtain ⟨-, -, ⟨f, hf, -, rfl⟩ | ⟨fins, -, -, rfl⟩⟩ := Database.finalizeJob_cases hdb
    · exact .inr ⟨job, eventType, eventData, h, Database.finalized_iff.mpr ⟨f, hf⟩⟩
    · exact .inl rfl

end DbWrite

/-- Who proposes a terminal event for a job: the worker that has it in hand, a recovery that has
listed one of its entries and found it open, or a client that cancels it. -/
theorem TerminalEvent.author {job : JobRecord} {eventType : EventType} {eventData : EventData}
    (h : TerminalEvent cfg i g l a job eventType eventData) (hl : l.Sound g) :
    (∃ m, l.undecided = some m ∧ m.jobId = job.id) ∨
    (∃ lease rest result, l = .recovery (.planning (lease :: rest) result) ∧
      lease.message.jobId = job.id ∧ g.db.loadJob job.id = some job ∧
      job.status.terminal = false) ∨ a = .cancelQueuedJob job.id := by
  cases h with
  | cancelledQueued hjob => exact .inr (.inr (by rw [Database.id_of_loadJob hjob]))
  | @blocked m job exc now =>
    have hl : g.Holds m ∧ g.Carries m job := hl
    exact .inl ⟨m, rfl, hl.2.1.symm⟩
  | @handled m job error now eventType eventData h =>
    have hl : g.Holds m ∧ g.Carries m job := hl
    exact .inl ⟨m, rfl, hl.2.1.symm⟩
  | @completed m job result now =>
    have hl : g.Holds m ∧ g.Carries m job := hl
    exact .inl ⟨m, rfl, hl.2.1.symm⟩
  | @leaseExhausted lease rest result job now hjob hopen hretries =>
    have hid := Database.id_of_loadJob hjob
    exact .inr (.inl ⟨lease, rest, result, rfl, hid.symm, hid ▸ hjob, hopen⟩)

theorem ActorState.undecided_cases (h : l.undecided = some m) :
    l.closing = none ∧ (l.held = m.entryId ∨ l.released = m.entryId) := by
  cases l with
  | worker st =>
    cases st with
    | dispatchAck m' exit =>
      cases exit with
      | budgetBlocked job exc =>
        exact ⟨rfl, .inl (congrArg QueueJobMessage.entryId (Option.some.inj h))⟩
      | missing => cases h
      | terminal => cases h
    | dispatchCommit m' exit =>
      cases exit with
      | budgetBlocked job exc =>
        exact ⟨rfl, .inr (congrArg QueueJobMessage.entryId (Option.some.inj h))⟩
      | missing => cases h
      | terminal => cases h
    | executing m' job | handling m' job error | writingArtifact m' job result
    | crossLinking m' job result metadata p | completing m' job result =>
      exact ⟨rfl, .inl (congrArg QueueJobMessage.entryId (Option.some.inj h))⟩
    | _ => cases h
  | _ => cases h

theorem ActorState.Sound.undecided (hl : l.Sound g) (h : l.undecided = some m) : g.Holds m := by
  cases l with
  | worker st =>
    cases st with
    | dispatchAck m' exit | dispatchCommit m' exit =>
      cases exit with
      | budgetBlocked job exc => exact Option.some.inj h ▸ hl.1
      | missing => cases h
      | terminal => cases h
    | executing m' job | handling m' job error | writingArtifact m' job result
    | crossLinking m' job result metadata p | completing m' job result =>
      exact Option.some.inj h ▸ hl.1
    | _ => cases h
  | _ => cases h

namespace Deployment
variable {s t : State}

/-- An entry released inside a dispatch transaction is gone, one worker released it, and it has no
successor. -/
structure Released (s : State) : Prop where
  acked : ∀ k e, (s.locals k).released = some e →
    e < s.shared.queue.jobs.delivered ∧ ¬ s.shared.queue.jobs.Pending e
  alone : ∀ k k' e, (s.locals k).released = some e → (s.locals k').released = some e → k = k'
  last : ∀ k e, (s.locals k).released = some e → ¬ s.shared.Succeeded e

/-- The invariants of leases and successors that a disciplined run keeps. -/
structure Serial (s : State) : Prop where
  sound : Sound s
  exclusive : Exclusive s
  recoveries : OneRecovery s
  successors : OneSuccessor s
  released : Released s

/-- An entry in the hands of an actor that is not about to acknowledge it has no successor. -/
theorem not_succeeded (hs : Serial s) {k : ℕ} (hk : (s.locals k).Has e)
    (hclosing : (s.locals k).closing = none) : ¬ s.shared.Succeeded e := by
  intro hsucc
  obtain ⟨k', hk'⟩ := hs.successors.held e hsucc (pending_of_has hs.exclusive hs.recoveries hk)
  obtain rfl := has_unique hs.exclusive hs.recoveries (ActorState.has_of_closing hk') hk
  rw [hclosing] at hk'
  cases hk'

private theorem released_step {a : ℕ × Action} (h : cfg.lts.step s a = some t) (hs : Serial s) :
    Released t := by
  obtain ⟨i, a⟩ := a
  obtain ⟨g', l', ht, rfl⟩ := step_transition h
  have before : ∀ k e, (Function.update s.locals i l' k).released = some e →
      (s.locals k).released = some e ∨ k = i ∧ (s.locals i).held = some e ∧
        (s.locals i).closing = none ∧ ¬ g'.queue.jobs.Pending e ∧
        g'.queue.jobs.log = s.shared.queue.jobs.log := by
    intro k e hk
    by_cases hki : k = i
    · subst hki
      rw [Function.update_self] at hk
      exact (ht.released hk).imp And.left fun h => ⟨rfl, h⟩
    · rw [Function.update_of_ne hki] at hk
      exact .inl hk
  refine ⟨?_, ?_, ?_⟩
  · intro k e hk
    rcases before k e hk with hold | ⟨-, hheld, -, hp, -⟩
    · obtain ⟨hlt, hp⟩ := hs.released.acked k e hold
      exact ⟨hlt.trans_le ht.grows.queue.delivered, fun h => hp (ht.grows.queue.pending e hlt h)⟩
    · exact ⟨((hs.sound.2 i).held_lt hheld).trans_le ht.grows.queue.delivered, hp⟩
  · intro k k' e hk hk'
    rcases before k e hk with hold | ⟨hki, hheld, -⟩ <;>
      rcases before k' e hk' with hold' | ⟨hki', hheld', -⟩
    · exact hs.released.alone k k' e hold hold'
    · exact absurd (hs.exclusive.pending i e hheld') (hs.released.acked k e hold).2
    · exact absurd (hs.exclusive.pending i e hheld) (hs.released.acked k' e hold').2
    · exact hki.trans hki'.symm
  · intro k e hk hsucc
    rcases before k e hk with hold | ⟨-, hheld, hclosing, -, hlog⟩
    · rcases succeeded_step ht hsucc with hsucc | ⟨hdeciding, -⟩
      · exact hs.released.last k e hold hsucc
      · have hhas := ActorState.has_of_deciding hdeciding
        exact (hs.released.acked k e hold).2 (pending_of_has hs.exclusive hs.recoveries hhas)
    · refine not_succeeded hs (.inl hheld) hclosing ?_
      obtain ⟨x, entry, hx, hcause⟩ := hsucc
      exact ⟨x, entry, hlog ▸ hx, hcause⟩

/-- A worker that is undecided on a job carries the last of the job's entries. -/
private theorem undecided_entry (hs : Serial s) {k : ℕ} {m : QueueJobMessage}
    (hk : (s.locals k).undecided = some m) :
    ∃ (e : EntryId) (entry : StreamEntry), s.shared.queue.jobs.log[e]? = some entry ∧
      entry.message.jobId = m.jobId ∧ ¬ s.shared.Succeeded e ∧
      ((s.locals k).held = some e ∨ (s.locals k).released = some e) := by
  obtain ⟨e, entry, hentry, -, rfl⟩ := (hs.sound.2 k).undecided hk
  obtain ⟨hclosing, hcases⟩ := ActorState.undecided_cases hk
  refine ⟨e, entry, hentry, rfl, ?_, hcases⟩
  rcases hcases with hheld | hreleased
  · exact not_succeeded hs (.inl hheld) hclosing
  · exact hs.released.last k e hreleased

private theorem undecided_unique (hs : Serial s) (hchain : s.shared.AttemptChain)
    (hinj : ∀ (x y : EntryId) (ex ey : StreamEntry), s.shared.queue.jobs.log[x]? = some ex →
      s.shared.queue.jobs.log[y]? = some ey → ex.message.jobId = ey.message.jobId →
      ex.message.attemptNumber = ey.message.attemptNumber → x = y)
    {k k' : ℕ} {m m' : QueueJobMessage} (hk : (s.locals k).undecided = some m)
    (hk' : (s.locals k').undecided = some m') (hj : m.jobId = m'.jobId) : k = k' := by
  obtain ⟨e, entry, hentry, hje, hlast, hcases⟩ := undecided_entry hs hk
  obtain ⟨e', entry', hentry', hje', hlast', hcases'⟩ := undecided_entry hs hk'
  obtain rfl := hchain.last_unique hinj hentry hentry' (hje.trans (hj.trans hje'.symm)) hlast
    hlast'
  rcases hcases with h | h <;> rcases hcases' with h' | h'
  · exact hs.exclusive.alone k k' e h h'
  · exact absurd (hs.exclusive.pending k e h) (hs.released.acked k' e h').2
  · exact absurd (hs.exclusive.pending k' e h') (hs.released.acked k e h).2
  · exact hs.released.alone k k' e h h'

/-- No recovery is about to decide on a job that a worker has in hand. -/
private theorem undecided_not_listed (hs : Serial s) (hchain : s.shared.AttemptChain)
    (hinj : ∀ (x y : EntryId) (ex ey : StreamEntry), s.shared.queue.jobs.log[x]? = some ex →
      s.shared.queue.jobs.log[y]? = some ey → ex.message.jobId = ey.message.jobId →
      ex.message.attemptNumber = ey.message.attemptNumber → x = y)
    {k k' : ℕ} {m : QueueJobMessage} (hk : (s.locals k).undecided = some m) {lease : StaleLease}
    {rest : List StaleLease} {result : StaleLeaseRecoveryResult}
    (hk' : s.locals k' = .recovery (.planning (lease :: rest) result)) :
    lease.message.jobId ≠ m.jobId := by
  intro hj
  obtain ⟨e, entry, hentry, hje, hlast, hcases⟩ := undecided_entry hs hk
  have hheld := hs.sound.2 k'
  rw [hk'] at hheld
  obtain ⟨e', entry', hentry', -, hm⟩ := hheld lease List.mem_cons_self
  have hid : lease.message.entryId = some e' := by rw [hm]
  have hlisted : e' ∈ (s.locals k').listed := by
    rw [hk']
    exact RecoveryState.head_listed hid
  have hclosing : (s.locals k').closing = none := by rw [hk']; rfl
  have hje' : entry'.message.jobId = lease.message.jobId := by rw [hm]
  obtain rfl := hchain.last_unique hinj hentry hentry' (hje.trans (hj.symm.trans hje'.symm)) hlast
    (not_succeeded hs (.inr hlisted) hclosing)
  rcases hcases with h | h
  · exact hs.exclusive.free k k' e h hlisted
  · exact (hs.released.acked k e h).2 (hs.recoveries.pending k' e hlisted)

/-- A client cancels a job that is open and that no worker has in hand. -/
def CancelsQueued (s : State) (a : ℕ × Action) : Prop :=
  ∀ j, a.2 = .cancelQueuedJob j → ¬ s.shared.db.Finalized j ∧
    ∀ k m, (s.locals k).undecided = some m → m.jobId ≠ j

/-- The job of a worker at work is open, and no writer has been refused. -/
structure Undisturbed (s : State) : Prop where
  opened : ∀ k m, (s.locals k).undecided = some m → ¬ s.shared.db.Finalized m.jobId
  conflicts : s.shared.db.finalizationConflictAttempts = []

private theorem undisturbed_step {a : ℕ × Action} (h : cfg.lts.step s a = some t) (hs : Serial s)
    (hchain : s.shared.AttemptChain)
    (hinj : ∀ (x y : EntryId) (ex ey : StreamEntry), s.shared.queue.jobs.log[x]? = some ex →
      s.shared.queue.jobs.log[y]? = some ey → ex.message.jobId = ey.message.jobId →
      ex.message.attemptNumber = ey.message.attemptNumber → x = y)
    (hsettled : ∀ j, (s.shared.db.history j).Settled) (hc : CancelsQueued s a)
    (hu : Undisturbed s) : Undisturbed t := by
  obtain ⟨i, a⟩ := a
  obtain ⟨g', l', hstep, rfl⟩ := Actors.globalStep_eq_some.mp h
  have ht := localStep_transition hstep
  have hwrite := localStep_dbWrite hstep
  have open_of_status : ∀ {j : JobId} {job : JobRecord}, s.shared.db.loadJob j = some job →
      job.status.terminal = false → ¬ s.shared.db.Finalized j := by
    intro j job hjob hopen hfin
    rw [((hsettled j).terminal_iff job hjob).mpr hfin] at hopen
    cases hopen
  have sole : ∀ {job : JobRecord} {eventType : EventType} {eventData : EventData},
      TerminalEvent cfg i s.shared (s.locals i) a job eventType eventData →
      ¬ s.shared.db.Finalized job.id ∧
        ∀ k m, k ≠ i → (s.locals k).undecided = some m → m.jobId ≠ job.id := by
    intro job eventType eventData hevent
    rcases hevent.author (hs.sound.2 i) with ⟨m', hi, hj⟩ |
      ⟨lease, rest, result, hi, hj, hjob, hopen⟩ | ha
    · refine ⟨hj ▸ hu.opened i m' hi, fun k m hki hk hm => hki ?_⟩
      exact undecided_unique hs hchain hinj hk hi (hm.trans hj.symm)
    · refine ⟨open_of_status hjob hopen, fun k m _ hk hm => ?_⟩
      exact undecided_not_listed hs hchain hinj hk hi (hj.trans hm.symm)
    · exact ⟨(hc job.id ha).1, fun k m _ => (hc job.id ha).2 k m⟩
  constructor
  · intro k m hk hfin
    by_cases hki : k = i
    · subst hki
      change (Function.update s.locals k l' k).undecided = some m at hk
      rw [Function.update_self] at hk
      rcases ht.undecided hk with ⟨hold, hdb⟩ | ⟨job, hjob, hopen, hfins, -⟩
      · exact hu.opened k m hold (hdb ▸ hfin)
      · obtain ⟨f, hf⟩ := Database.finalized_iff.mp hfin
        exact open_of_status hjob hopen (Database.finalized_iff.mpr ⟨f, hfins ▸ hf⟩)
    · change (Function.update s.locals i l' k).undecided = some m at hk
      rw [Function.update_of_ne hki] at hk
      rcases hwrite.finalized_cases hfin with hold | ⟨job, eventType, eventData, hevent, hid⟩
      · exact hu.opened k m hk hold
      · exact (sole hevent).2 k m hki hk hid.symm
  · rcases hwrite.conflicts_cases with heq | ⟨job, eventType, eventData, hevent, hfin⟩
    · exact heq.trans hu.conflicts
    · exact absurd hfin (sole hevent).1

variable {ms : ℕ} {C : Clocked State EntryId → ClockedAction (ℕ × Action) → Prop}

private theorem serial_of_released (hC : ∀ s a, C s a → Disciplined ms s a)
    {s : Clocked State EntryId} (hs : cfg.timed.Reachable C s) (hreleased : Released s.state) :
    Serial s.state := by
  have hone := oneDecider_of_timed (D := fun _ _ => True) hC (fun _ _ _ _ _ => trivial) hs
  exact {
    sound := sound_reachable (Lts.clocked_reachable hs)
    exclusive := exclusive_reachable (fun s a h => (hC s a h).timely) hs
    recoveries := oneRecovery_reachable hC hs
    successors := oneSuccessor_reachable (Lts.Run.mono (fun _ _ h => h.1) hone)
    released := hreleased }

theorem serial_reachable (hC : ∀ s a, C s a → Disciplined ms s a) {s : Clocked State EntryId}
    (hs : cfg.timed.Reachable C s) : Serial s.state := by
  have hinit : Released cfg.timed.init.state :=
    ⟨fun _ _ h => (nomatch h), fun _ _ _ h => (nomatch h), fun _ _ h => (nomatch h)⟩
  refine serial_of_released hC hs (Lts.Reachable.invariant (P := fun s => Released s.state) hinit
    ?_ hs)
  intro s a t hs hinv _ h
  cases a with
  | tick d =>
    obtain rfl := Option.some.inj h
    exact hinv
  | act b =>
    obtain ⟨u, hstep, rfl⟩ := Lts.clocked_act_eq_some.mp h
    exact released_step hstep (serial_of_released hC hs hinv)

/-- The discipline under which the messages of a job form one chain. -/
def Chained (ms : ℕ) (s : Clocked State EntryId) (a : ClockedAction (ℕ × Action)) : Prop :=
  Disciplined ms s a ∧ OnClock FirstPublishOnce s a

theorem chain_reachable (hC : ∀ s a, C s a → Chained ms s a) {s : Clocked State EntryId}
    (hs : cfg.timed.Reachable C s) : cfg.lts.Reachable cfg.SingleChain s.state :=
  oneDecider_of_timed (fun s a h => (hC s a h).1) (fun s a h => (hC s a h).2) hs

/-- While leases are renewed in time, recoveries take turns, nobody dies between publishing an
entry's successor and acknowledging it, and each job is first published once, a job is in one
worker's hands at a time, and no recovery is about to decide on it meanwhile. -/
theorem one_worker_per_job {s : Clocked State EntryId} (hs : cfg.timed.Reachable (Chained ms) s)
    {k : ℕ} {m : QueueJobMessage} (hk : (s.state.locals k).undecided = some m) :
    (∀ k' m', (s.state.locals k').undecided = some m' → m'.jobId = m.jobId → k' = k) ∧
    ∀ k' lease rest result, s.state.locals k' = .recovery (.planning (lease :: rest) result) →
      lease.message.jobId ≠ m.jobId := by
  have hserial := serial_reachable (fun _ _ h => h.1) hs
  have hchain := chain_reachable (fun _ _ h => h) hs
  constructor
  · intro k' m' hk' hj
    exact undecided_unique hserial (attemptChain_reachable hchain) (attempts_injective hchain) hk'
      hk hj
  · intro k' lease rest result hk'
    exact undecided_not_listed hserial (attemptChain_reachable hchain) (attempts_injective hchain)
      hk hk'

theorem one_worker_per_job_renewed : ∃ s m m',
    stubDeployment.timed.Reachable (Chained 25000) s ∧
    (s.state.locals 1).undecided = some m ∧ (s.state.locals 3).undecided = some m' ∧
    m'.jobId ≠ m.jobId := by
  obtain ⟨s, hs, -, hp⟩ := exists_timed_run stubDeployment 4 25000
    (fun s a hidle h => disciplined_of_check hidle a h) (fun _ _ => rfl)
    (renewedRun ++
      [.act (0, .createJob { stubSubmission with idempotencyKey := "other", jobId := 2 }),
        .act (0, .publishJob 2 1), .act (3, .processOne), .act (3, .advance "")])
    (fun s => (s.state.locals 1).undecided.isSome && (s.state.locals 3).undecided.isSome)
    (s := stubDeployment.timed.init) (by decide)
  obtain ⟨hone, hthree⟩ := Bool.and_eq_true_iff.mp hp
  obtain ⟨m, hm⟩ := Option.isSome_iff_exists.mp hone
  obtain ⟨m', hm'⟩ := Option.isSome_iff_exists.mp hthree
  refine ⟨s, m, m', hs, hm, hm', fun hj => ?_⟩
  have := (one_worker_per_job hs hm).1 3 m' hm' hj
  omega

/-- Besides, clients cancel only jobs that wait. -/
def Orderly (ms : ℕ) (s : Clocked State EntryId) (a : ClockedAction (ℕ × Action)) : Prop :=
  Chained ms s a ∧ OnClock CancelsQueued s a

/-- The worker that handles an error of a job has the job in hand. -/
private theorem noLateRetry_of_undisturbed {a : ℕ × Action} (hsound : Sound s)
    (hu : Undisturbed s) : cfg.NoLateRetry s a := by
  intro m job c now hl _ _ _ hfin
  have hjob := hsound.2 a.1
  rw [hl] at hjob
  have hopen := hu.opened a.1 m (by rw [hl]; rfl)
  rw [← hjob.2.1] at hopen
  exact hopen hfin

theorem undisturbed_reachable {s : Clocked State EntryId}
    (hs : cfg.timed.Reachable (Orderly ms) s) :
    Undisturbed s.state ∧ cfg.lts.Reachable cfg.NoLateRetry s.state := by
  have hinit : Undisturbed cfg.timed.init.state ∧
      cfg.lts.Reachable cfg.NoLateRetry cfg.timed.init.state :=
    ⟨⟨fun _ _ h => (nomatch h), rfl⟩, .init⟩
  refine Lts.Reachable.invariant (P := fun s => Undisturbed s.state ∧
    cfg.lts.Reachable cfg.NoLateRetry s.state) hinit ?_ hs
  rintro s a t hs ⟨hu, hreach⟩ hc h
  cases a with
  | tick d =>
    obtain rfl := Option.some.inj h
    exact ⟨hu, hreach⟩
  | act b =>
    obtain ⟨u, hstep, rfl⟩ := Lts.clocked_act_eq_some.mp h
    have hserial := serial_reachable (fun _ _ h => h.1.1) hs
    have hchain := chain_reachable (fun _ _ h => h.1) hs
    refine ⟨?_, hreach.step ⟨_, noLateRetry_of_undisturbed hserial.sound hu, hstep⟩⟩
    exact undisturbed_step hstep hserial (attemptChain_reachable hchain)
      (attempts_injective hchain) (fun j => (history_settled hreach j).2) (hc.2 b rfl) hu

private theorem frozen_run {t : State} (hs : cfg.lts.Reachable cfg.NoLateRetry s)
    (hst : cfg.lts.Run cfg.NoLateRetry s t) {j : JobId} {row : JobRecord}
    (hrow : s.shared.db.jobs.get? j = some row) (hterminal : row.status.terminal = true) :
    t.shared.db.jobs.get? j = some row ∧ t.shared.db.eventsOf j = s.shared.db.eventsOf j := by
  have both : cfg.lts.Reachable cfg.NoLateRetry t ∧ t.shared.db.jobs.get? j = some row ∧
      t.shared.db.eventsOf j = s.shared.db.eventsOf j := by
    refine Lts.Run.preserves (P := fun u => cfg.lts.Reachable cfg.NoLateRetry u ∧
      u.shared.db.jobs.get? j = some row ∧ u.shared.db.eventsOf j = s.shared.db.eventsOf j) ?_ hst
      ⟨hs, hrow, rfl⟩
    intro u a v hu hc h
    have hv := (history_settled hu.1 j).2.frozen (noLateRetry_step hc h j) hu.2.1 hterminal
    exact ⟨hu.1.step ⟨a, hc, h⟩, hv.1, hv.2.trans hu.2.2⟩
  exact both.2

/-- While leases are renewed in time, recoveries take turns, nobody dies between publishing an
entry's successor and acknowledging it, and clients publish once and cancel only waiting jobs, no
writer is ever refused: a job has a terminal status exactly when it has a finalization row, the two
statuses are equal, and from then on neither the row nor the log changes. -/
theorem timely_run_undisturbed {s t : Clocked State EntryId}
    (hs : cfg.timed.Reachable (Orderly ms) s) (hst : cfg.timed.Run (Orderly ms) s t) {j : JobId}
    {row : JobRecord} (hrow : s.state.shared.db.jobs.get? j = some row) :
    (∀ runId, s.state.shared.db.finalizationConflictAttemptCount runId = 0) ∧
    (row.status.terminal = true ↔ s.state.shared.db.Finalized j) ∧
    (∀ f, s.state.shared.db.jobFinalizations.get? j = some f → row.status = f.status) ∧
    (row.status.terminal = true → t.state.shared.db.jobs.get? j = some row ∧
      t.state.shared.db.eventsOf j = s.state.shared.db.eventsOf j) := by
  obtain ⟨hu, hreach⟩ := undisturbed_reachable hs
  have settled := (history_settled hreach j).2
  refine ⟨?_, settled.terminal_iff row hrow, fun f hf => settled.status_eq row f hrow hf, ?_⟩
  · intro runId
    unfold Database.finalizationConflictAttemptCount
    rw [hu.conflicts]
    rfl
  · apply frozen_run hreach ?_ hrow
    refine Lts.clocked_run (I := cfg.timed.Reachable (Orderly ms)) ?_ ?_ hst hs
    · exact fun s a t hs hc h => hs.step ⟨a, hc, h⟩
    · intro s b hs _
      have hserial := serial_reachable (fun _ _ h => h.1.1) hs
      exact noLateRetry_of_undisturbed hserial.sound (undisturbed_reachable hs).1

theorem orderly_of_check {n : ℕ} (s : Clocked State EntryId)
    (a : ClockedAction (ℕ × Action)) (hidle : ∀ k, n ≤ k → s.state.locals k = .idle)
    (h : checkTimed n ms s a = true) : Orderly ms s a := by
  refine ⟨disciplined_of_check hidle a h, ?_⟩
  rintro ⟨i, b⟩ rfl j hb
  cases b with
  | cancelQueuedJob j' => simp [checkTimed] at h
  | _ => cases hb

/-- The lease of worker 1 runs out and a recovery requeues its job; the second attempt completes,
and a later recovery changes nothing of the job. -/
theorem timely_run_undisturbed_requeued : ∃ s t row,
    stubDeployment.timed.Reachable (Orderly 25000) s ∧
    stubDeployment.timed.Run (Orderly 25000) s t ∧
    s.state.shared.db.jobs.get? 1 = some row ∧ row.status = .completed ∧
    s.state.shared.db.Finalized 1 ∧ t.state.shared.db.jobs.get? 1 = some row := by
  obtain ⟨s, hs, hidle, hp⟩ := exists_timed_run stubDeployment 4 25000 orderly_of_check
    (fun _ _ => rfl)
    [.act (0, .createJob stubSubmission), .act (0, .publishJob 1 1), .act (1, .processOne),
      .act (1, .advance ""), .act (1, .run [] (.raised "SystemExit")), .tick 40000,
      .act (2, .recoverStaleLeases (fun _ => 0) 30000 10), .act (2, .advance ""),
      .act (2, .advance ""), .act (2, .advance ""), .act (3, .processOne), .act (3, .advance ""),
      .act (3, .run [] (.success [])), .act (3, .advance "")]
    (fun s => (s.state.shared.db.jobs.get? 1).any (·.status = .completed) &&
      (stubDeployment.timed.exec (checkTimed 4 25000) s [.act (3, .advance ""), .tick 40000,
        .act (2, .advance ""), .act (2, .finish),
        .act (2, .recoverStaleLeases (fun _ => 0) 30000 10)]).any fun _ => true)
    (s := stubDeployment.timed.init) (by decide)
  obtain ⟨hrow, hrun⟩ := Bool.and_eq_true_iff.mp hp
  obtain ⟨row, hrow, hstatus⟩ := (Option.any_eq_true _ _).mp hrow
  have hstatus : row.status = .completed := of_decide_eq_true hstatus
  obtain ⟨t, hst, -⟩ := exists_timed_run stubDeployment 4 25000 orderly_of_check hidle _ _ hrun
  have hterminal : row.status.terminal = true := by rw [hstatus]; rfl
  obtain ⟨-, hiff, -, hfrozen⟩ := timely_run_undisturbed hs hst hrow
  exact ⟨s, t, row, hs, hst, hrow, hstatus, hiff.mp hterminal, (hfrozen hterminal).1⟩

end Deployment
end AgentRuntimeGrid
