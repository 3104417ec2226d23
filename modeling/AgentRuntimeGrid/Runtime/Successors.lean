import AgentRuntimeGrid.Runtime.Provenance

/-! Who may publish the successor of a stream entry. When only one actor at a time decides it, and
only while the entry is pending, every entry has at most one. -/
namespace AgentRuntimeGrid

/-- Some entry of the stream was published in place of entry `e`. -/
def Grid.Succeeded (g : Grid) (e : EntryId) : Prop :=
  ∃ (x : EntryId) (entry : StreamEntry), g.queue.jobs.log[x]? = some entry ∧ entry.cause = some e

namespace ActorState

/-- The entry whose successor the actor has decided on and not yet published. -/
def deciding : ActorState → Option EntryId
  | .worker (.retryPublish m _ _) => m.entryId
  | .recovery (.publishing lease _ _ _) => lease.message.entryId
  | _ => none

/-- The entry the actor is done with and about to acknowledge. -/
def closing : ActorState → Option EntryId
  | .worker (.acknowledging m) => m.entryId
  | .recovery (.acknowledging _ lease _ _) => lease.message.entryId
  | _ => none

/-- The step commits the decision to publish a successor of entry `e`. -/
def Decides (w : Worker) (g : Grid) (e : EntryId) : ActorState → Action → Prop
  | .worker (.handling m job (.transient _)), .advance _ =>
      m.entryId = some e ∧ m.attemptNumber ≤ job.maxRetries ∧
        w.budgetPolicy.validateRetry (m.attemptNumber + 1) = .ok ()
  | .recovery (.planning (lease :: _) _), .advance _ =>
      lease.message.entryId = some e ∧ ∃ job, g.db.loadJob lease.message.jobId = some job ∧
        job.status.terminal = false ∧ lease.message.attemptNumber ≤ job.maxRetries
  | _, _ => False

/-- An actor that takes the decision is not yet done with the entry. -/
theorem Decides.closing_eq_none {w : Worker} {g : Grid} {e : EntryId} {l : ActorState} {a : Action}
    (h : l.Decides w g e a) : l.closing = none := by
  cases l with
  | idle => cases h
  | worker st =>
    cases st with
    | handling m job error => rfl
    | _ => cases h
  | recovery st =>
    cases st with
    | planning leases result => rfl
    | _ => cases h

end ActorState

variable {cfg : Deployment} {i : ℕ} {g g' : Grid} {l l' : ActorState} {a : Action} {e : EntryId}

theorem Transition.deciding (h : Transition cfg i g l a g' l') (hl' : l'.deciding = some e) :
    l.deciding = some e ∨ l.Decides (cfg.worker i) g e a := by
  cases h with
  | worker h =>
    cases h with
    | retryScheduled hretries hbudget => exact .inr ⟨hl', hretries, hbudget⟩
    | artifactWritten _ hnext => obtain rfl | ⟨p, -, rfl⟩ := hnext <;> cases hl'
    | _ => cases hl'
  | @run m job writes outcome =>
    cases outcome with
    | success result =>
      change ActorState.deciding (.worker (if _ then _ else _)) = _ at hl'
      split at hl' <;> cases hl'
    | _ => cases hl'
  | renewLease => exact .inl hl'
  | recovery h =>
    cases h with
    | planRequeue hjob hopen hretries => exact .inr ⟨hl', _, hjob, hopen, hretries⟩
    | _ => cases hl'
  | _ => cases hl'

private theorem not_pending_acknowledge {m : QueueJobMessage} (hm : m.entryId = some e) :
    ¬ (g.acknowledge m).queue.jobs.Pending e := by
  unfold Grid.acknowledge
  rw [hm]
  exact fun h => ((ConsumerGroup.pending_ack _ _ _).mp h).2 rfl

/-- An actor that is done with an entry stays so until it has acknowledged it or dies. -/
theorem Transition.closing (h : Transition cfg i g l a g' l') (hl : l.closing = some e) :
    l'.closing = some e ∨ ¬ g'.queue.jobs.Pending e ∨ a = .crash := by
  cases h with
  | crash => exact .inr (.inr rfl)
  | worker h =>
    cases h with
    | acknowledged => exact .inr (.inl (not_pending_acknowledge hl))
    | _ => cases hl
  | renewLease => exact .inl hl
  | recovery h =>
    cases h with
    | acknowledged => exact .inr (.inl (not_pending_acknowledge hl))
    | _ => cases hl
  | finish hfinished =>
    cases l with
    | idle => cases hl
    | worker st => cases st <;> first | cases hl | cases hfinished
    | recovery st => cases st <;> first | cases hl | cases hfinished
  | _ => cases hl

theorem Publishes.caused {entry : StreamEntry} (h : Publishes g l a l' entry)
    (he : entry.cause = some e) :
    l.deciding = some e ∧ l'.closing = some e ∧ l'.deciding = none := by
  cases h with
  | client => cases he
  | retry => exact ⟨he, he, rfl⟩
  | requeue => exact ⟨he, he, rfl⟩

theorem ActorState.Sound.deciding_lt (hl : l.Sound g) (he : l.deciding = some e) :
    e < g.queue.jobs.delivered := by
  have holds : ∀ {m : QueueJobMessage}, g.Holds m → m.entryId = some e →
      e < g.queue.jobs.delivered := by
    rintro m ⟨e₀, entry, -, hlt, rfl⟩ he
    exact Option.some.inj he ▸ hlt
  cases l with
  | idle => cases he
  | worker st =>
    cases st with
    | retryPublish m job n => exact holds hl.1 he
    | _ => cases he
  | recovery st =>
    cases st with
    | publishing lease message rest result => exact holds (hl.2 lease List.mem_cons_self) he
    | _ => cases he

namespace Deployment
variable {s t : State}

/-- The step commits no second decision on an entry: it decides only while the entry is pending
and no other actor has decided on it or is about to acknowledge it, and no actor dies between
publishing the entry's successor and acknowledging the entry. -/
def OneDecider (cfg : Deployment) (s : State) (a : ℕ × Action) : Prop :=
  (∀ e, (s.locals a.1).Decides (cfg.worker a.1) s.shared e a.2 →
    s.shared.queue.jobs.Pending e ∧
    ∀ k, k ≠ a.1 → (s.locals k).deciding ≠ some e ∧ (s.locals k).closing ≠ some e) ∧
  (a.2 = .crash → ∀ e, (s.locals a.1).closing = some e → ¬ s.shared.Succeeded e)

/-- Each entry has at most one successor, whose publisher is the one actor that decided on it, and
which is published before the entry leaves the pending list. -/
structure OneSuccessor (s : State) : Prop where
  unique : ∀ (e x y : EntryId) (ex ey : StreamEntry), s.shared.queue.jobs.log[x]? = some ex →
    s.shared.queue.jobs.log[y]? = some ey → ex.cause = some e → ey.cause = some e → x = y
  deciding : ∀ k e, (s.locals k).deciding = some e →
    ¬ s.shared.Succeeded e ∧ ∀ k', (s.locals k').deciding = some e → k' = k
  held : ∀ e, s.shared.Succeeded e → s.shared.queue.jobs.Pending e →
    ∃ k, (s.locals k).closing = some e
  delivered : ∀ e, s.shared.Succeeded e → e < s.shared.queue.jobs.delivered

/-- A new successor is published by the actor that decided on the entry. -/
theorem succeeded_step (h : Transition cfg i g l a g' l') (he : g'.Succeeded e) :
    g.Succeeded e ∨ (l.deciding = some e ∧ l'.closing = some e ∧ l'.deciding = none) := by
  obtain ⟨x, entry, hx, hcause⟩ := he
  rcases h.log with heq | ⟨entry', hpub, heq⟩
  · exact .inl ⟨x, entry, heq ▸ hx, hcause⟩
  · rw [heq] at hx
    rcases getElem?_append_singleton hx with hx | ⟨-, rfl⟩
    · exact .inl ⟨x, entry, hx, hcause⟩
    · exact .inr (hpub.caused hcause)

private theorem unique_step (h : Transition cfg i g l a g' l')
    (hunique : ∀ (e x y : EntryId) (ex ey : StreamEntry), g.queue.jobs.log[x]? = some ex →
      g.queue.jobs.log[y]? = some ey → ex.cause = some e → ey.cause = some e → x = y)
    (hnew : ∀ e, l.deciding = some e → ¬ g.Succeeded e) :
    ∀ (e x y : EntryId) (ex ey : StreamEntry), g'.queue.jobs.log[x]? = some ex →
      g'.queue.jobs.log[y]? = some ey → ex.cause = some e → ey.cause = some e → x = y := by
  intro e x y ex ey hx hy hcx hcy
  rcases h.log with heq | ⟨entry, hpub, heq⟩
  · exact hunique e x y ex ey (heq ▸ hx) (heq ▸ hy) hcx hcy
  · rw [heq] at hx hy
    rcases getElem?_append_singleton hx with hx' | ⟨hx', hex⟩
    · rcases getElem?_append_singleton hy with hy' | ⟨-, hey⟩
      · exact hunique e x y ex ey hx' hy' hcx hcy
      · exact absurd ⟨x, ex, hx', hcx⟩ (hnew e (hpub.caused (hey ▸ hcy)).1)
    · rcases getElem?_append_singleton hy with hy' | ⟨hy', -⟩
      · exact absurd ⟨y, ey, hy', hcy⟩ (hnew e (hpub.caused (hex ▸ hcx)).1)
      · exact hx'.trans hy'.symm

private theorem deciding_step (h : Transition cfg i s.shared (s.locals i) a g' l')
    (hs : OneSuccessor s)
    (hc : ∀ e, (s.locals i).Decides (cfg.worker i) s.shared e a → s.shared.queue.jobs.Pending e ∧
      ∀ k, k ≠ i → (s.locals k).deciding ≠ some e ∧ (s.locals k).closing ≠ some e)
    (hdecides : ∀ e, (s.locals i).Decides (cfg.worker i) s.shared e a → ¬ s.shared.Succeeded e) :
    ∀ k e, (Function.update s.locals i l' k).deciding = some e →
      ¬ g'.Succeeded e ∧ ∀ k', (Function.update s.locals i l' k').deciding = some e → k' = k := by
  -- whoever has decided after the step had decided before it, or the acting actor decides now
  have before : ∀ k e, (Function.update s.locals i l' k).deciding = some e →
      (s.locals k).deciding = some e ∨
        k = i ∧ (s.locals i).Decides (cfg.worker i) s.shared e a := by
    intro k e hk
    by_cases hki : k = i
    · subst hki
      rw [Function.update_self] at hk
      exact (h.deciding hk).imp id fun hd => ⟨rfl, hd⟩
    · rw [Function.update_of_ne hki] at hk
      exact .inl hk
  intro k e hk
  constructor
  · intro hsucc
    rcases succeeded_step h hsucc with hold | ⟨hdeciding, -, hnone⟩
    · rcases before k e hk with hk' | ⟨-, hd⟩
      · exact (hs.deciding k e hk').1 hold
      · exact hdecides e hd hold
    · by_cases hki : k = i
      · subst hki
        rw [Function.update_self, hnone] at hk
        cases hk
      · rw [Function.update_of_ne hki] at hk
        exact hki ((hs.deciding i e hdeciding).2 k hk)
  · intro k' hk'
    rcases before k e hk with hold | ⟨rfl, hd⟩ <;> rcases before k' e hk' with hold' | ⟨rfl, hd'⟩
    · exact (hs.deciding k e hold).2 k' hold'
    · by_contra hne
      exact ((hc e hd').2 k (Ne.symm hne)).1 hold
    · by_contra hne
      exact ((hc e hd).2 k' hne).1 hold'
    · rfl

private theorem oneSuccessor_step {a : ℕ × Action} (hsound : Sound s) (hc : cfg.OneDecider s a)
    (h : cfg.lts.step s a = some t) (hs : OneSuccessor s) : OneSuccessor t := by
  obtain ⟨i, a⟩ := a
  obtain ⟨g', l', ht, rfl⟩ := step_transition h
  have hnew : ∀ e, (s.locals i).deciding = some e → ¬ s.shared.Succeeded e :=
    fun e he => (hs.deciding i e he).1
  -- the actor that decides meets no successor: one would be held by another actor
  have hdecides : ∀ e, (s.locals i).Decides (cfg.worker i) s.shared e a →
      ¬ s.shared.Succeeded e := by
    intro e he hsucc
    obtain ⟨hpending, hothers⟩ := hc.1 e he
    obtain ⟨k, hk⟩ := hs.held e hsucc hpending
    by_cases hki : k = i
    · subst hki
      rw [he.closing_eq_none] at hk
      cases hk
    · exact (hothers k hki).2 hk
  refine ⟨unique_step ht hs.unique hnew, ?_, ?_, ?_⟩
  · exact deciding_step ht hs hc.1 hdecides
  · intro e hsucc hpending
    change ∃ k, (Function.update s.locals i l' k).closing = some e
    rcases succeeded_step ht hsucc with hold | ⟨-, hclosing, -⟩
    · obtain ⟨k, hk⟩ := hs.held e hold (ht.grows.queue.pending e (hs.delivered e hold) hpending)
      by_cases hki : k = i
      · subst hki
        rcases ht.closing hk with hk' | hacked | hcrash
        · exact ⟨k, by rwa [Function.update_self]⟩
        · exact absurd hpending hacked
        · exact absurd hold (hc.2 hcrash e hk)
      · exact ⟨k, by rwa [Function.update_of_ne hki]⟩
    · exact ⟨i, by rwa [Function.update_self]⟩
  · intro e hsucc
    refine lt_of_lt_of_le ?_ ht.grows.queue.delivered
    rcases succeeded_step ht hsucc with hold | ⟨hdeciding, -, -⟩
    · exact hs.delivered e hold
    · exact (hsound.2 i).deciding_lt hdeciding

theorem oneSuccessor_reachable (hs : cfg.lts.Reachable cfg.OneDecider s) :
    OneSuccessor s := by
  refine Lts.Reachable.invariant (P := OneSuccessor) ⟨?_, ?_, ?_, ?_⟩ ?_ hs
  · intro e x y ex ey hx
    cases hx
  · intro k e he
    cases he
  · rintro e ⟨x, entry, hx, -⟩
    cases hx
  · rintro e ⟨x, entry, hx, -⟩
    cases hx
  · intro s a t hs hinv hc h
    exact oneSuccessor_step (sound_reachable hs.weaken) hc h hinv

end Deployment
end AgentRuntimeGrid
