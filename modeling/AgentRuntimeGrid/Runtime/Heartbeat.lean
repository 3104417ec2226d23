import AgentRuntimeGrid.Lib.Clocked
import AgentRuntimeGrid.Runtime.Attempts
import AgentRuntimeGrid.Runtime.DrainInvariant
import AgentRuntimeGrid.Runtime.NoLoss

/-! The lease heartbeat on the server's clock. A delivery and a renewal set an entry's idle time
back to zero, and a recovery lists the entries by these idle times: while every worker renews in
time, no recovery gets hold of the lease of a live worker. -/
namespace AgentRuntimeGrid

/-- The leases a recovery has found and not yet dealt with. -/
def RecoveryState.leases : RecoveryState → List StaleLease
  | .planning leases _ => leases
  | .publishing lease _ rest _ | .deadLettering lease rest _ | .acknowledging _ lease rest _ =>
      lease :: rest
  | .returned _ | .raised _ => []

namespace ActorState

/-- The entry the worker was handed and has not acknowledged. -/
def held : ActorState → Option EntryId
  | .worker (.dispatchAck m _) => m.entryId
  | l => l.entry

/-- The entries a recovery has found stale and not acknowledged. -/
def listed : ActorState → List EntryId
  | .recovery st => st.leases.filterMap fun lease => lease.message.entryId
  | _ => []

end ActorState

variable {cfg : Deployment} {i : ℕ} {g g' : Grid} {l l' : ActorState} {a : Action} {e : EntryId}

theorem Worker.held_afterRun {w : Worker} {m : QueueJobMessage} {job : JobRecord}
    {outcome : RunOutcome} (h : (ActorState.worker (w.afterRun m job outcome)).held = some e) :
    m.entryId = some e := by
  cases outcome with
  | success result =>
    change ActorState.held (.worker (if _ then _ else _)) = _ at h
    split at h <;> exact h
  | raised c => cases h
  | _ => exact h

/-- A worker comes to hold an entry when it is delivered to it. -/
theorem Transition.held (h : Transition cfg i g l a g' l') (hl' : l'.held = some e) :
    l.held = some e ∨ l = .idle ∧ a = .processOne ∧ e = g.queue.jobs.delivered ∧
      g.queue.jobs.delivered < g.queue.jobs.log.length ∧ g'.queue.jobs.Pending e := by
  cases h with
  | lease hdeliver =>
    obtain ⟨-, hentry, -, -, hpending⟩ := ConsumerGroup.deliver_spec hdeliver
    obtain rfl := Option.some.inj hl'
    exact .inr ⟨rfl, rfl, rfl, (List.getElem?_eq_some_iff.mp hentry).1,
      (hpending _).mpr (.inr rfl)⟩
  | worker h =>
    cases h with
    | artifactWritten _ hnext => obtain rfl | ⟨p, -, rfl⟩ := hnext <;> exact .inl hl'
    | dispatchMissing | dispatchTerminal | dispatchBlocked | dispatchRunning | retryScheduled
    | handled | retryPublish | crossLinked | completed => exact .inl hl'
    | dispatchAck | missingReturns | terminalReturns | blockedCommits | blockedRaises
    | handlingRaises | artifactRaises | crossLinkRaises | completingRaises | acknowledged =>
      cases hl'
  | run => exact .inl (Worker.held_afterRun hl')
  | renewLease => exact .inl hl'
  | recovery h => cases h <;> cases hl'
  | _ => cases hl'

/-- A recovery works its list off from the front; the list is what it found stale. -/
theorem Transition.listed (h : Transition cfg i g l a g' l') :
    l'.listed <:+ l.listed ∨ ∃ idle staleAfterMs count, l = .idle ∧
      a = .recoverStaleLeases idle staleAfterMs count ∧
      l'.listed = (g.queue.findStaleLeases idle staleAfterMs count).filterMap
        fun lease => lease.message.entryId := by
  cases h with
  | recover => exact .inr ⟨_, _, _, rfl, rfl, rfl⟩
  | recovery h =>
    cases h with
    | @acknowledged kind lease rest result =>
      exact .inl ((List.suffix_cons lease rest).filterMap _)
    | returned | planMissing | planTerminal | planRequeue | planDlq | published | deadLettered =>
      exact .inl List.suffix_rfl
  | _ => exact .inl List.nil_suffix

/-- An actor that acknowledges an entry has it in hand, and no longer after the step. -/
theorem Transition.acknowledges {now : String} (h : Transition cfg i g l (.advance now) g' l')
    (he : l.acknowledges = some e) :
    (l.held = some e ∧ l'.held = none) ∨ l.listed = e :: l'.listed := by
  rcases ActorState.acknowledges_eq_some he with ⟨m, exit, rfl, hm⟩ | ⟨m, rfl, hm⟩ |
    ⟨kind, lease, rest, result, rfl, hm⟩
  · left
    refine ⟨hm, ?_⟩
    cases h with
    | worker h =>
      cases h
      rfl
  · left
    refine ⟨hm, ?_⟩
    cases h with
    | worker h =>
      cases h
      rfl
  · right
    cases h with
    | recovery h =>
      cases h
      exact List.filterMap_cons_some (f := fun lease : StaleLease => lease.message.entryId) hm

/-- An entry leaves the pending list only when it is acknowledged. -/
theorem Transition.pending (h : Transition cfg i g l a g' l') (he : g.queue.jobs.Pending e) :
    g'.queue.jobs.Pending e ∨ (l.held = some e ∧ l'.held = none) ∨ l.listed = e :: l'.listed := by
  rcases h.live he.live with hlive | ⟨hacks, now, rfl⟩
  · refine .inl (hlive.2.resolve_left ?_)
    exact not_le.mpr (he.lt_delivered.trans_le h.grows.queue.delivered)
  · exact .inr (h.acknowledges hacks)

theorem Grid.Holds.entryId_lt {m : QueueJobMessage} (hm : g.Holds m) (he : m.entryId = some e) :
    e < g.queue.jobs.delivered := by
  obtain ⟨e₀, entry, -, hlt, rfl⟩ := hm
  exact Option.some.inj he ▸ hlt

theorem ActorState.Sound.held_lt (hl : l.Sound g) (he : l.held = some e) :
    e < g.queue.jobs.delivered := by
  cases l with
  | idle => cases he
  | worker st =>
    cases st with
    | leased m | acknowledging m => exact Grid.Holds.entryId_lt hl he
    | dispatchAck m exit => exact hl.1.entryId_lt he
    | executing m job | handling m job error | retryPublish m job n | writingArtifact m job result
    | crossLinking m job result metadata p | completing m job result => exact hl.1.entryId_lt he
    | _ => cases he
  | recovery st => cases he

theorem ActorState.Sound.listed_lt (hl : l.Sound g) (he : e ∈ l.listed) :
    e < g.queue.jobs.delivered := by
  cases l with
  | idle => cases he
  | worker st => cases he
  | recovery st =>
    obtain ⟨lease, hlease, hid⟩ := List.mem_filterMap.mp he
    cases st with
    | planning leases result => exact (hl lease hlease).entryId_lt hid
    | publishing lease' m rest result => exact (hl.2 lease hlease).entryId_lt hid
    | deadLettering lease' rest result => exact (hl lease hlease).entryId_lt hid
    | acknowledging kind lease' rest result => exact (hl.2 lease hlease).entryId_lt hid
    | returned result => cases hlease
    | raised c => cases hlease

namespace Deployment
variable {s t : State}

/-- The recovery that the step starts finds no entry that a worker holds. -/
def FindsNoHeld (s : State) (a : ℕ × Action) : Prop :=
  ∀ idle staleAfterMs count, a.2 = .recoverStaleLeases idle staleAfterMs count →
    ∀ k e, (s.locals k).held = some e → idle e < staleAfterMs

/-- An entry a worker holds is pending, no other worker holds it and no recovery has listed it. -/
structure Exclusive (s : State) : Prop where
  pending : ∀ k e, (s.locals k).held = some e → s.shared.queue.jobs.Pending e
  alone : ∀ k k' e, (s.locals k).held = some e → (s.locals k').held = some e → k = k'
  free : ∀ k k' e, (s.locals k).held = some e → e ∉ (s.locals k').listed

/-- Whoever holds an entry after a step held it before, or the acting actor was just handed it. -/
private theorem held_before (h : Transition cfg i s.shared (s.locals i) a g' l') {k : ℕ}
    (hk : (Function.update s.locals i l' k).held = some e) :
    (s.locals k).held = some e ∨ k = i ∧ e = s.shared.queue.jobs.delivered ∧
      s.locals i = .idle ∧ a = .processOne ∧ g'.queue.jobs.Pending e := by
  by_cases hki : k = i
  · subst hki
    rw [Function.update_self] at hk
    exact (h.held hk).imp id fun ⟨hl, ha, he, _, hp⟩ => ⟨rfl, he, hl, ha, hp⟩
  · rw [Function.update_of_ne hki] at hk
    exact .inl hk

/-- Whoever has listed an entry after a step had done so before, or has just found it stale. -/
private theorem listed_before (h : Transition cfg i s.shared (s.locals i) a g' l') {k : ℕ}
    (hk : e ∈ (Function.update s.locals i l' k).listed) :
    e ∈ (s.locals k).listed ∨ k = i ∧ ∃ idle staleAfterMs count,
      a = .recoverStaleLeases idle staleAfterMs count ∧
        s.shared.queue.jobs.Pending e ∧ staleAfterMs ≤ idle e := by
  by_cases hki : k = i
  · subst hki
    rw [Function.update_self] at hk
    rcases h.listed with hsuffix | ⟨idle, after, count, -, ha, hlist⟩
    · exact .inl (hsuffix.subset hk)
    · rw [hlist] at hk
      exact .inr ⟨rfl, idle, after, count, ha, RedisStreamsQueue.mem_entryIds_findStaleLeases hk⟩
  · rw [Function.update_of_ne hki] at hk
    exact .inl hk

private theorem exclusive_step {a : ℕ × Action} (hsound : Sound s) (hc : FindsNoHeld s a)
    (h : cfg.lts.step s a = some t) (hs : Exclusive s) : Exclusive t := by
  obtain ⟨i, a⟩ := a
  obtain ⟨g', l', ht, rfl⟩ := step_transition h
  have hlt : ∀ k e, (s.locals k).held = some e → e < s.shared.queue.jobs.delivered :=
    fun k e he => (hsound.2 k).held_lt he
  refine ⟨?_, ?_, ?_⟩
  · intro k e hk
    rcases held_before ht hk with hold | ⟨-, -, -, -, hp⟩
    · rcases ht.pending (hs.pending k e hold) with hp | ⟨hi, hnone⟩ | hlisted
      · exact hp
      · obtain rfl := hs.alone k i e hold hi
        change (Function.update s.locals k l' k).held = some e at hk
        rw [Function.update_self, hnone] at hk
        cases hk
      · exact absurd (hlisted ▸ List.mem_cons_self) (hs.free k i e hold)
    · exact hp
  · intro k k' e hk hk'
    rcases held_before ht hk with hold | ⟨hki, he, -⟩ <;>
      rcases held_before ht hk' with hold' | ⟨hki', he', -⟩
    · exact hs.alone k k' e hold hold'
    · exact absurd he' (hlt k e hold).ne
    · exact absurd he (hlt k' e hold').ne
    · exact hki.trans hki'.symm
  · intro k k' e hk hk'
    rcases held_before ht hk with hold | ⟨hki, he, -, ha, -⟩ <;>
      rcases listed_before ht hk' with hlist | ⟨hki', idle, after, count, ha', -, hidle⟩
    · exact hs.free k k' e hold hlist
    · exact absurd hidle (not_le.mpr (hc idle after count ha' k e hold))
    · exact absurd he ((hsound.2 k').listed_lt hlist).ne
    · rw [ha] at ha'
      cases ha'

/-- Which entries the recoveries have listed: pending ones, each once, and by one recovery. -/
structure OneRecovery (s : State) : Prop where
  pending : ∀ k, ∀ e ∈ (s.locals k).listed, s.shared.queue.jobs.Pending e
  nodup : ∀ k, (s.locals k).listed.Nodup
  alone : ∀ k k', (s.locals k).listed ≠ [] → (s.locals k').listed ≠ [] → k = k'

/-- A recovery starts only when no other one is at work on its list. -/
def RecoveriesInTurn (s : State) (a : ℕ × Action) : Prop :=
  ∀ idle staleAfterMs count, a.2 = .recoverStaleLeases idle staleAfterMs count →
    ∀ k, (s.locals k).listed = []

private theorem oneRecovery_step {a : ℕ × Action} (hc : RecoveriesInTurn s a)
    (h : cfg.lts.step s a = some t) (hex : Exclusive s) (hs : OneRecovery s) :
    OneRecovery t := by
  obtain ⟨i, a⟩ := a
  obtain ⟨g', l', ht, rfl⟩ := step_transition h
  -- an entry listed after the step stays pending: nobody else has it in hand
  have hkeep : ∀ k e, e ∈ (s.locals k).listed → (k = i → e ∈ l'.listed) →
      g'.queue.jobs.Pending e := by
    intro k e hk hki
    rcases ht.pending (hs.pending k e hk) with hp | ⟨hi, -⟩ | hlisted
    · exact hp
    · exact absurd hk (hex.free i k e hi)
    · have hik : k = i := by
        refine hs.alone k i (List.ne_nil_of_mem hk) ?_
        rw [hlisted]
        exact List.cons_ne_nil _ _
      have hnodup := hs.nodup i
      rw [hlisted, List.nodup_cons] at hnodup
      exact absurd (hki hik) hnodup.1
  have hempty : ∀ k, (Function.update s.locals i l' k).listed ≠ [] →
      (s.locals k).listed ≠ [] ∨ k = i ∧ ∀ k, (s.locals k).listed = [] := by
    intro k hk
    by_cases hki : k = i
    · subst hki
      rw [Function.update_self] at hk
      rcases ht.listed with hsuffix | ⟨idle, after, count, -, ha, -⟩
      · exact .inl fun hnil => hk (List.suffix_nil.mp (hnil ▸ hsuffix))
      · exact .inr ⟨rfl, hc idle after count ha⟩
    · rw [Function.update_of_ne hki] at hk
      exact .inl hk
  refine ⟨?_, ?_, ?_⟩
  · intro k e hk
    by_cases hki : k = i
    · subst hki
      change e ∈ (Function.update s.locals k l' k).listed at hk
      rw [Function.update_self] at hk
      rcases ht.listed with hsuffix | ⟨idle, after, count, hl, ha, hlist⟩
      · exact hkeep k e (hsuffix.subset hk) fun _ => hk
      · rw [hlist] at hk
        have hp := (RedisStreamsQueue.mem_entryIds_findStaleLeases hk).1
        rcases ht.pending hp with hp | ⟨hi, -⟩ | hlisted
        · exact hp
        · rw [hl] at hi
          cases hi
        · rw [hl] at hlisted
          cases hlisted
    · have hk' := hk
      change e ∈ (Function.update s.locals i l' k).listed at hk'
      rw [Function.update_of_ne hki] at hk'
      exact hkeep k e hk' fun h => absurd h hki
  · refine Actors.forall_locals_update (P := fun _ (l : ActorState) => l.listed.Nodup) ?_
      fun k _ => hs.nodup k
    rcases ht.listed with hsuffix | ⟨idle, after, count, -, -, hlist⟩
    · exact (hs.nodup i).sublist hsuffix.sublist
    · rw [hlist]
      exact RedisStreamsQueue.nodup_entryIds_findStaleLeases _ _ _ _
  · intro k k' hk hk'
    rcases hempty k hk with hold | ⟨hki, hnone⟩ <;> rcases hempty k' hk' with hold' | ⟨hki', hnone'⟩
    · exact hs.alone k k' hold hold'
    · exact absurd (hnone' k) hold
    · exact absurd (hnone k') hold'
    · exact hki.trans hki'.symm

end Deployment

/-- The actor has the entry in hand, as the worker that holds it or as a recovery that lists it. -/
def ActorState.Has (l : ActorState) (e : EntryId) : Prop := l.held = some e ∨ e ∈ l.listed

theorem RecoveryState.head_listed {lease : StaleLease} {rest : List StaleLease}
    (he : lease.message.entryId = some e) :
    e ∈ (lease :: rest).filterMap fun lease => lease.message.entryId :=
  List.mem_filterMap.mpr ⟨lease, List.mem_cons_self, he⟩

theorem ActorState.has_of_deciding (h : l.deciding = some e) : l.Has e := by
  cases l with
  | idle => cases h
  | worker st =>
    cases st with
    | retryPublish m job n => exact .inl h
    | _ => cases h
  | recovery st =>
    cases st with
    | publishing lease m rest result => exact .inr (RecoveryState.head_listed h)
    | _ => cases h

theorem ActorState.has_of_closing (h : l.closing = some e) : l.Has e := by
  cases l with
  | idle => cases h
  | worker st =>
    cases st with
    | acknowledging m => exact .inl h
    | _ => cases h
  | recovery st =>
    cases st with
    | acknowledging kind lease rest result => exact .inr (RecoveryState.head_listed h)
    | _ => cases h

theorem ActorState.Decides.has {w : Worker} (h : l.Decides w g e a) : l.Has e := by
  unfold ActorState.Decides at h
  split at h
  · exact .inl h.1
  · exact .inr (RecoveryState.head_listed h.1)
  · cases h

namespace Deployment
variable {s t : State}

theorem pending_of_has (hex : Exclusive s) (hone : OneRecovery s) {k : ℕ}
    (hk : (s.locals k).Has e) : s.shared.queue.jobs.Pending e :=
  hk.elim (hex.pending k e) (hone.pending k e)

theorem has_unique (hex : Exclusive s) (hone : OneRecovery s) {k k' : ℕ}
    (hk : (s.locals k).Has e) (hk' : (s.locals k').Has e) : k = k' := by
  rcases hk with hk | hk <;> rcases hk' with hk' | hk'
  · exact hex.alone k k' e hk hk'
  · exact absurd hk' (hex.free k k' e hk)
  · exact absurd hk (hex.free k' k e hk')
  · exact hone.alone k k' (List.ne_nil_of_mem hk) (List.ne_nil_of_mem hk')

/-- No process dies between publishing the successor of an entry and acknowledging the entry. -/
def NoCrashAfterPublish (s : State) (a : ℕ × Action) : Prop :=
  a.2 = .crash → ∀ e, (s.locals a.1).closing = some e → ¬ s.shared.Succeeded e

theorem oneDecider_of_exclusive {a : ℕ × Action} (hex : Exclusive s) (hone : OneRecovery s)
    (hc : NoCrashAfterPublish s a) : cfg.OneDecider s a := by
  refine ⟨fun e he => ⟨pending_of_has hex hone he.has, fun k hk => ⟨?_, ?_⟩⟩, hc⟩
  · exact fun h => hk (has_unique hex hone (ActorState.has_of_deciding h) he.has)
  · exact fun h => hk (has_unique hex hone (ActorState.has_of_closing h) he.has)

end Deployment

/-- A recovery reads the idle times off the server. -/
def Action.timed (idle : EntryId → ℕ) : Action → Action
  | .recoverStaleLeases _ staleAfterMs count => .recoverStaleLeases idle staleAfterMs count
  | a => a

theorem Action.timed_recover {idle idle' : EntryId → ℕ} {staleAfterMs count : ℕ}
    (h : a.timed idle = .recoverStaleLeases idle' staleAfterMs count) : idle' = idle := by
  cases a with
  | recoverStaleLeases _ after n =>
    cases h
    rfl
  | _ => cases h

namespace Deployment

/-- The entry whose idle time a step sets back: the one delivered, or the pending one renewed. -/
def touches (s : State) (a : ℕ × Action) : Option EntryId :=
  match s.locals a.1, a.2 with
  | .idle, .processOne =>
      if s.shared.queue.jobs.delivered < s.shared.queue.jobs.log.length then
        some s.shared.queue.jobs.delivered
      else none
  | .worker st, .renewLease =>
      st.heartbeat.filter fun e => decide (s.shared.queue.jobs.Pending e)
  | _, _ => none

def clocking : Clocking State (ℕ × Action) EntryId where
  timed idle a := (a.1, a.2.timed idle)
  touches := touches

/-- The deployment beside the clock of the server, in milliseconds. -/
def timed (cfg : Deployment) : Lts (Clocked State EntryId) (ClockedAction (ℕ × Action)) :=
  cfg.lts.clocked clocking

/-- The condition on the action that is taken, its idle times read off the clock. -/
def OnClock (D : State → ℕ × Action → Prop) (s : Clocked State EntryId)
    (a : ClockedAction (ℕ × Action)) : Prop :=
  ∀ b, a = .act b → D s.state (clocking.timed s.idle b)

/-- The recovery looks for entries that have been idle for longer than `ms`. -/
def LooksPast (ms : ℕ) (_ : State) (a : ℕ × Action) : Prop :=
  ∀ idle staleAfterMs count, a.2 = .recoverStaleLeases idle staleAfterMs count → ms < staleAfterMs

def Held (s : State) (e : EntryId) : Prop := ∃ k, (s.locals k).held = some e

/-- Time passes only while every entry in a worker's hands was delivered or renewed at most `ms`
ago, and recoveries look for entries that have been idle for longer. -/
def Timely (ms : ℕ) (s : Clocked State EntryId) (a : ClockedAction (ℕ × Action)) : Prop :=
  Lts.Punctual Held ms s a ∧ OnClock (LooksPast ms) s a

private theorem held_touches {s t : State} {a : ℕ × Action} (h : cfg.lts.step s a = some t)
    (ht : Held t e) : Held s e ∨ clocking.touches s a = some e := by
  obtain ⟨i, a⟩ := a
  obtain ⟨g', l', ht', rfl⟩ := step_transition h
  obtain ⟨k, hk⟩ := ht
  by_cases hki : k = i
  · subst hki
    change (Function.update s.locals k l' k).held = some e at hk
    rw [Function.update_self] at hk
    rcases ht'.held hk with hold | ⟨hl, rfl, rfl, hlt, -⟩
    · exact .inl ⟨k, hold⟩
    · right
      change touches s (k, .processOne) = _
      unfold touches
      simp only [hl, hlt, if_true]
  · change (Function.update s.locals i l' k).held = some e at hk
    rw [Function.update_of_ne hki] at hk
    exact .inl ⟨k, hk⟩

variable {ms : ℕ} {s t : Clocked State EntryId}
  {C : Clocked State EntryId → ClockedAction (ℕ × Action) → Prop}

theorem idle_le_of_held (hC : ∀ s a, C s a → Timely ms s a) (hs : cfg.timed.Reachable C s)
    (he : Held s.state e) : s.idle e ≤ ms :=
  Lts.clocked_idle_le (fun _ ⟨_, hk⟩ => (nomatch hk)) (fun _ _ _ _ _ h ht => held_touches h ht)
    (fun s a h => (hC s a h).1) hs he

private theorem findsNoHeld (hC : ∀ s a, C s a → Timely ms s a) (hs : cfg.timed.Reachable C s)
    {b : ℕ × Action} (hc : C s (.act b)) : FindsNoHeld s.state (clocking.timed s.idle b) := by
  intro idle after count ha k e hk
  have hlt := (hC s _ hc).2 b rfl idle after count ha
  rw [Action.timed_recover ha]
  exact (idle_le_of_held hC hs ⟨k, hk⟩).trans_lt hlt

theorem exclusive_reachable (hC : ∀ s a, C s a → Timely ms s a)
    (hs : cfg.timed.Reachable C s) : Exclusive s.state := by
  have hinit : Exclusive cfg.timed.init.state :=
    ⟨fun _ _ h => (nomatch h), fun _ _ _ h => (nomatch h), fun _ _ _ h => (nomatch h)⟩
  refine Lts.Reachable.invariant (P := fun s => Exclusive s.state) hinit ?_ hs
  intro s a t hs hinv hc h
  cases a with
  | tick d =>
    obtain rfl := Option.some.inj h
    exact hinv
  | act b =>
    obtain ⟨u, hu, rfl⟩ := Lts.clocked_act_eq_some.mp h
    exact exclusive_step (sound_reachable (Lts.clocked_reachable hs)) (findsNoHeld hC hs hc) hu hinv

/-- A check for the runs below: the actors under `n` hold their leases in time, recoveries take
turns, nobody dies, jobs are published once and none is cancelled. -/
def checkTimed (n ms : ℕ) (s : Clocked State EntryId) : ClockedAction (ℕ × Action) → Bool
  | .tick d => (List.range n).all fun k => (s.state.locals k).held.all fun e =>
      decide (s.clock + d ≤ s.touched e + ms)
  | .act (i, a) => decide (i < n) &&
      match a with
      | .recoverStaleLeases _ staleAfterMs _ => decide (ms < staleAfterMs) &&
          (List.range n).all fun k => (s.state.locals k).listed.isEmpty
      | .publishJob j m => decide (m = 1) &&
          s.state.shared.queue.jobs.log.all fun entry => decide (entry.message.jobId ≠ j)
      | .crash | .cancelQueuedJob _ => false
      | _ => true

section
variable {s : Clocked State EntryId}

theorem timely_of_check {n ms : ℕ} (hidle : ∀ k, n ≤ k → s.state.locals k = .idle)
    (a : ClockedAction (ℕ × Action)) (h : checkTimed n ms s a = true) : Timely ms s a := by
  constructor
  · rintro d rfl e ⟨k, hk⟩
    have hlt : k < n := by
      apply lt_of_not_ge
      intro hge
      rw [hidle k hge] at hk
      cases hk
    have hall := List.all_eq_true.mp h k (List.mem_range.mpr hlt)
    rw [hk] at hall
    exact of_decide_eq_true hall
  · rintro ⟨i, b⟩ rfl idle after count hb
    cases b with
    | recoverStaleLeases idle' after' count' =>
      cases hb
      obtain ⟨-, h⟩ := Bool.and_eq_true_iff.mp h
      exact of_decide_eq_true (Bool.and_eq_true_iff.mp h).1
    | _ => cases hb

variable (cfg) in
/-- A checked execution is a run under every condition that the check implies. -/
theorem exists_timed_run (n ms : ℕ)
    {C : Clocked State EntryId → ClockedAction (ℕ × Action) → Prop}
    (hC : ∀ s a, (∀ k, n ≤ k → s.state.locals k = .idle) → checkTimed n ms s a = true → C s a)
    (hs : ∀ k, n ≤ k → s.state.locals k = .idle) (as : List (ClockedAction (ℕ × Action)))
    (p : Clocked State EntryId → Bool)
    (h : (cfg.timed.exec (checkTimed n ms) s as).any p = true) :
    ∃ t, cfg.timed.Run C s t ∧ (∀ k, n ≤ k → t.state.locals k = .idle) ∧ p t = true := by
  have hkeep : ∀ s a t, (∀ k, n ≤ k → s.state.locals k = .idle) → checkTimed n ms s a = true →
      cfg.timed.step s a = some t → ∀ k, n ≤ k → t.state.locals k = .idle := by
    intro s a t hs hc hstep k hk
    cases a with
    | tick d =>
      obtain rfl := Option.some.inj hstep
      exact hs k hk
    | act b =>
      obtain ⟨i, a⟩ := b
      obtain ⟨u, hu, rfl⟩ := Lts.clocked_act_eq_some.mp hstep
      obtain ⟨g', l', -, rfl⟩ := step_transition hu
      have hlt : i < n := of_decide_eq_true (Bool.and_eq_true_iff.mp hc).1
      exact (Function.update_of_ne (Nat.ne_of_gt (hlt.trans_le hk)) l' s.state.locals).trans
        (hs k hk)
  obtain ⟨t, ht, hp⟩ := (Option.any_eq_true _ _).mp h
  refine ⟨t, Lts.exec_run_of_invariant hkeep hC hs ht, ?_, hp⟩
  have hrun : cfg.timed.Run (fun s a => checkTimed n ms s a = true) s t :=
    Lts.exec_run_of_invariant hkeep (fun _ _ _ h => h) hs ht
  exact Lts.Run.preserves (P := fun s => ∀ k, n ≤ k → s.state.locals k = .idle)
    (fun s a t hs hc => hkeep s a t hs hc) hrun hs

end

/-- Worker 1 works on its job for 40 seconds and renews its lease once, while a recovery runs. -/
def renewedRun : List (ClockedAction (ℕ × Action)) :=
  [.act (0, .createJob stubSubmission), .act (0, .publishJob 1 1), .act (1, .processOne),
    .act (1, .advance ""), .tick 20000, .act (1, .renewLease), .tick 20000,
    .act (2, .recoverStaleLeases (fun _ => 0) 30000 10)]

/-- While every worker renews its lease in time, the entry it holds is pending and never idle for
longer than `ms`, no other worker holds it, and no recovery has it on its list. -/
theorem live_lease_not_stale (hs : cfg.timed.Reachable (Timely ms) s) {k : ℕ}
    (hk : (s.state.locals k).held = some e) :
    s.idle e ≤ ms ∧ s.state.shared.queue.jobs.Pending e ∧
    (∀ k', (s.state.locals k').held = some e → k' = k) ∧
    ∀ k', e ∉ (s.state.locals k').listed := by
  have hex := exclusive_reachable (fun _ _ h => h) hs
  exact ⟨idle_le_of_held (fun _ _ h => h) hs ⟨k, hk⟩, hex.pending k e hk,
    fun k' hk' => hex.alone k' k e hk' hk, fun k' => hex.free k k' e hk⟩

theorem live_lease_not_stale_renewed : ∃ s, stubDeployment.timed.Reachable (Timely 25000) s ∧
    s.clock = 40000 ∧ (s.state.locals 1).held = some 0 ∧
    s.idle 0 ≤ 25000 ∧ s.state.shared.queue.jobs.Pending 0 ∧ 0 ∉ (s.state.locals 2).listed := by
  obtain ⟨s, hs, -, hp⟩ := exists_timed_run stubDeployment 3 25000
    (fun s a hidle h => timely_of_check hidle a h) (fun _ _ => rfl) renewedRun
    (fun s => decide (s.clock = 40000) && decide ((s.state.locals 1).held = some 0))
    (s := stubDeployment.timed.init) (by decide)
  obtain ⟨hclock, hheld⟩ := Bool.and_eq_true_iff.mp hp
  have hheld : (s.state.locals 1).held = some 0 := of_decide_eq_true hheld
  obtain ⟨hidle, hpending, -, hfree⟩ := live_lease_not_stale hs hheld
  exact ⟨s, hs, of_decide_eq_true hclock, hheld, hidle, hpending, hfree 2⟩

/-- Besides, one recovery works at a time, and no process dies between the publication of an
entry's successor and the acknowledgement of the entry. -/
structure Disciplined (ms : ℕ) (s : Clocked State EntryId) (a : ClockedAction (ℕ × Action)) :
    Prop where
  timely : Timely ms s a
  inTurn : OnClock RecoveriesInTurn s a
  noCrash : OnClock NoCrashAfterPublish s a

theorem disciplined_of_check {n : ℕ} (hidle : ∀ k, n ≤ k → s.state.locals k = .idle)
    (a : ClockedAction (ℕ × Action)) (h : checkTimed n ms s a = true) :
    Disciplined ms s a ∧ OnClock FirstPublishOnce s a := by
  refine ⟨⟨timely_of_check hidle a h, ?_, ?_⟩, ?_⟩ <;> rintro ⟨i, b⟩ rfl
  · intro idle after count hb k
    cases b with
    | recoverStaleLeases idle' after' count' =>
      obtain ⟨-, h⟩ := Bool.and_eq_true_iff.mp h
      have hall := List.all_eq_true.mp (Bool.and_eq_true_iff.mp h).2
      by_cases hlt : k < n
      · exact List.isEmpty_iff.mp (hall k (List.mem_range.mpr hlt))
      · rw [hidle k (not_lt.mp hlt)]
        rfl
    | _ => cases hb
  · intro hb
    cases b with
    | crash => simp [checkTimed] at h
    | _ => cases hb
  · intro j m hb
    cases b with
    | publishJob j' m' =>
      cases hb
      obtain ⟨-, h⟩ := Bool.and_eq_true_iff.mp h
      obtain ⟨hm, hall⟩ := Bool.and_eq_true_iff.mp h
      refine ⟨of_decide_eq_true hm, fun x ex hx => ?_⟩
      exact of_decide_eq_true (List.all_eq_true.mp hall ex (List.mem_of_getElem? hx))
    | _ => cases hb

theorem oneRecovery_reachable (hC : ∀ s a, C s a → Disciplined ms s a)
    (hs : cfg.timed.Reachable C s) : OneRecovery s.state := by
  have hinit : OneRecovery cfg.timed.init.state :=
    ⟨fun _ _ h => (nomatch h), fun _ => List.nodup_nil, fun _ _ h => absurd rfl h⟩
  refine Lts.Reachable.invariant (P := fun s => OneRecovery s.state) hinit ?_ hs
  intro s a t hs hinv hc h
  cases a with
  | tick d =>
    obtain rfl := Option.some.inj h
    exact hinv
  | act b =>
    obtain ⟨u, hu, rfl⟩ := Lts.clocked_act_eq_some.mp h
    have hex := exclusive_reachable (fun s a h => (hC s a h).timely) hs
    exact oneRecovery_step ((hC _ _ hc).inTurn b rfl) hu hex hinv

/-- A disciplined run beside the clock is a run of the deployment with one decider for each entry,
and keeps any further condition on its actions. -/
theorem oneDecider_of_timed {D : State → ℕ × Action → Prop}
    (hC : ∀ s a, C s a → Disciplined ms s a) (hD : ∀ s a, C s a → OnClock D s a)
    (hs : cfg.timed.Reachable C s) :
    cfg.lts.Reachable (fun s a => cfg.OneDecider s a ∧ D s a) s.state := by
  refine Lts.clocked_run (I := fun s => cfg.timed.Reachable C s) ?_ ?_ hs .init
  · exact fun s a t hs hc h => hs.step ⟨a, hc, h⟩
  · intro s b hs hc
    have hex := exclusive_reachable (fun s a h => (hC s a h).timely) hs
    have hone := oneRecovery_reachable hC hs
    exact ⟨oneDecider_of_exclusive hex hone ((hC _ _ hc).noCrash b rfl), hD _ _ hc b rfl⟩

/-- While every worker renews its lease in time, recoveries take turns and nobody dies between
publishing an entry's successor and acknowledging it, each entry has at most one successor. When
besides each job is first published once and with attempt 1, no two messages of a job carry the
same attempt number, and the job is started at most once more than it may be retried. -/
theorem timely_leases_one_successor (hs : cfg.timed.Reachable (Disciplined ms) s) :
    (∀ (e x y : EntryId) (ex ey : StreamEntry), s.state.shared.queue.jobs.log[x]? = some ex →
      s.state.shared.queue.jobs.log[y]? = some ey → ex.cause = some e → ey.cause = some e →
      x = y) ∧
    (cfg.timed.Reachable (fun s a => Disciplined ms s a ∧ OnClock FirstPublishOnce s a) s →
      (∀ (x y : EntryId) (ex ey : StreamEntry), s.state.shared.queue.jobs.log[x]? = some ex →
        s.state.shared.queue.jobs.log[y]? = some ey → ex.message.jobId = ey.message.jobId →
        ex.message.attemptNumber = ey.message.attemptNumber → x = y) ∧
      ∀ j row, s.state.shared.db.loadJob j = some row →
        ((s.state.shared.db.starts j).length : ℤ) ≤ row.maxRetries + 1) := by
  constructor
  · have hdecider := oneDecider_of_timed (D := fun _ _ => True) (fun _ _ h => h)
      (fun _ _ _ _ _ => trivial) hs
    exact (oneSuccessor_reachable (Lts.Run.mono (fun _ _ h => h.1) hdecider)).unique
  · intro hs
    have hchain : cfg.lts.Reachable cfg.SingleChain s.state :=
      oneDecider_of_timed (fun _ _ h => h.1) (fun _ _ h => h.2) hs
    exact ⟨attempts_injective hchain, fun _ _ hrow => starts_length_le hchain hrow⟩

/-- An error that worker 1 does not handle ends its work, a recovery requeues the job when the
lease has run out, and worker 3 takes the second attempt. -/
theorem timely_leases_one_successor_requeued :
    ∃ s, stubDeployment.timed.Reachable (Disciplined 25000) s ∧
    s.state.shared.queue.jobs.log.map StreamEntry.cause = [none, some 0] ∧
    (∀ (e x y : EntryId) (ex ey : StreamEntry), s.state.shared.queue.jobs.log[x]? = some ex →
      s.state.shared.queue.jobs.log[y]? = some ey → ex.cause = some e → ey.cause = some e →
      x = y) ∧
    ∃ row, s.state.shared.db.loadJob 1 = some row ∧
      ((s.state.shared.db.starts 1).length : ℤ) ≤ row.maxRetries + 1 := by
  obtain ⟨s, hs, -, hp⟩ := exists_timed_run stubDeployment 4 25000
    (fun s a hidle h => disciplined_of_check hidle a h) (fun _ _ => rfl)
    [.act (0, .createJob stubSubmission), .act (0, .publishJob 1 1), .act (1, .processOne),
      .act (1, .advance ""), .act (1, .run [] (.raised "SystemExit")), .tick 40000,
      .act (2, .recoverStaleLeases (fun _ => 0) 30000 10), .act (2, .advance ""),
      .act (2, .advance ""), .act (2, .advance ""), .act (3, .processOne), .act (3, .advance "")]
    (fun s => decide (s.state.shared.queue.jobs.log.map StreamEntry.cause = [none, some 0]) &&
      (s.state.shared.db.loadJob 1).isSome)
    (s := stubDeployment.timed.init) (by decide)
  obtain ⟨hcauses, hrow⟩ := Bool.and_eq_true_iff.mp hp
  obtain ⟨row, hrow⟩ := Option.isSome_iff_exists.mp hrow
  have hdisciplined : stubDeployment.timed.Reachable (Disciplined 25000) s :=
    Lts.Run.mono (fun _ _ h => h.1) hs
  obtain ⟨hunique, hchained⟩ := timely_leases_one_successor hdisciplined
  exact ⟨s, hdisciplined, of_decide_eq_true hcauses, hunique, row, hrow,
    (hchained hs).2 1 row hrow⟩

end Deployment
end AgentRuntimeGrid
