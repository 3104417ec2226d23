import AgentRuntimeGrid.Runtime.Successors
import Mathlib.Data.Int.Interval

/-! The attempt numbers of a job. With one successor for each entry and one first message for each
job they form a single chain, so a job is started at most once for each number up to the retry
limit plus one. -/
namespace AgentRuntimeGrid

/-- What an actor publishes in place of an entry is the next attempt of its job, within the retry
limit. -/
theorem Publishes.succeeds {g : Grid} {l l' : ActorState} {a : Action} {entry : StreamEntry}
    {e : EntryId} (h : Publishes g l a l' entry) (hl : l.Sound g) (he : entry.cause = some e) :
    e < g.queue.jobs.delivered ∧ ∃ entry₀ : StreamEntry, g.queue.jobs.log[e]? = some entry₀ ∧
      entry₀.message.jobId = entry.message.jobId ∧
      entry.message.attemptNumber = entry₀.message.attemptNumber + 1 ∧
      ∃ row, g.db.loadJob entry.message.jobId = some row ∧
        entry₀.message.attemptNumber ≤ row.maxRetries := by
  have carried : ∀ {m : QueueJobMessage} {job : JobRecord}, g.Holds m → g.Carries m job →
      m.entryId = some e → m.attemptNumber ≤ job.maxRetries →
      e < g.queue.jobs.delivered ∧ ∃ entry₀ : StreamEntry, g.queue.jobs.log[e]? = some entry₀ ∧
        entry₀.message.jobId = job.id ∧
        m.attemptNumber + 1 = entry₀.message.attemptNumber + 1 ∧
        ∃ row, g.db.loadJob job.id = some row ∧
          entry₀.message.attemptNumber ≤ row.maxRetries := by
    rintro m job ⟨e₀, entry₀, hentry₀, hlt, rfl⟩ ⟨hid, row, hrow, hsame⟩ hm hretries
    obtain rfl := Option.some.inj hm
    refine ⟨hlt, entry₀, hentry₀, hid.symm, rfl, row, hid ▸ hrow, ?_⟩
    rw [hsame]
    exact hretries
  cases h with
  | client => cases he
  | retry =>
    obtain ⟨hm, hjob, rfl, hretries⟩ := hl
    exact carried hm hjob he hretries
  | requeue =>
    obtain ⟨⟨job, hjob, rfl, hretries⟩, hm⟩ := hl
    exact carried (hm _ List.mem_cons_self) hjob he hretries

theorem Publishes.client_of_cause_eq_none {g : Grid} {l l' : ActorState} {a : Action}
    {entry : StreamEntry} (h : Publishes g l a l' entry) (hl : l.Sound g)
    (he : entry.cause = none) : ∃ j n job, a = .publishJob j n ∧ g.db.loadJob j = some job ∧
      entry = ⟨job.message n, none⟩ := by
  have held : ∀ {m : QueueJobMessage}, g.Holds m → m.entryId ≠ none := by
    rintro m ⟨e, entry, -, -, rfl⟩ hm
    cases hm
  cases h with
  | @client j n job hjob => exact ⟨j, n, job, rfl, hjob, rfl⟩
  | retry => exact absurd he (held hl.1)
  | requeue => exact absurd he (held (hl.2 _ List.mem_cons_self))

/-- The attempts of each job form chains that start at 1 and stay within the retry limit. -/
structure Grid.AttemptChain (g : Grid) : Prop where
  root : ∀ (x y : EntryId) (ex ey : StreamEntry), g.queue.jobs.log[x]? = some ex →
    g.queue.jobs.log[y]? = some ey → ex.cause = none → ey.cause = none →
    ex.message.jobId = ey.message.jobId → x = y
  first : ∀ (x : EntryId) (ex : StreamEntry), g.queue.jobs.log[x]? = some ex →
    ex.cause = none → ex.message.attemptNumber = 1
  caused : ∀ (x e : EntryId) (ex : StreamEntry), g.queue.jobs.log[x]? = some ex →
    ex.cause = some e → e < x ∧ ∃ ee : StreamEntry, g.queue.jobs.log[e]? = some ee ∧
      ee.message.jobId = ex.message.jobId ∧
      ex.message.attemptNumber = ee.message.attemptNumber + 1
  bound : ∀ (x : EntryId) (ex : StreamEntry), g.queue.jobs.log[x]? = some ex →
    1 ≤ ex.message.attemptNumber ∧ ∃ row, g.db.loadJob ex.message.jobId = some row ∧
      ex.message.attemptNumber ≤ row.maxRetries + 1

/-- With at most one successor for each entry, an entry is known by its job and attempt. -/
theorem Grid.AttemptChain.injective {g : Grid} (hg : g.AttemptChain)
    (hunique : ∀ (e x y : EntryId) (ex ey : StreamEntry), g.queue.jobs.log[x]? = some ex →
      g.queue.jobs.log[y]? = some ey → ex.cause = some e → ey.cause = some e → x = y)
    {x y : EntryId} {ex ey : StreamEntry} (hx : g.queue.jobs.log[x]? = some ex)
    (hy : g.queue.jobs.log[y]? = some ey) (hj : ex.message.jobId = ey.message.jobId)
    (hn : ex.message.attemptNumber = ey.message.attemptNumber) : x = y := by
  induction x using Nat.strong_induction_on generalizing y ex ey with
  | _ x ih =>
    cases hcx : ex.cause with
    | none =>
      cases hcy : ey.cause with
      | none => exact hg.root x y ex ey hx hy hcx hcy hj
      | some e =>
        obtain ⟨-, ee, hee, -, hattempt⟩ := hg.caused y e ey hy hcy
        have := hg.first x ex hx hcx
        have := (hg.bound e ee hee).1
        omega
    | some e =>
      obtain ⟨hlt, ee, hee, hje, hattempt⟩ := hg.caused x e ex hx hcx
      cases hcy : ey.cause with
      | none =>
        have := hg.first y ey hy hcy
        have := (hg.bound e ee hee).1
        omega
      | some e' =>
        obtain ⟨-, ee', hee', hje', hattempt'⟩ := hg.caused y e' ey hy hcy
        have hsame : e = e' := by
          refine ih e hlt hee hee' (hje.trans (hj.trans hje'.symm)) ?_
          omega
        subst hsame
        exact hunique e x y ex ey hx hy hcx hcy

namespace Deployment
variable {cfg : Deployment} {s t : State}

/-- A client publishes a job's first attempt, once. -/
def FirstPublishOnce (s : State) (a : ℕ × Action) : Prop :=
  ∀ j n, a.2 = .publishJob j n → n = 1 ∧
    ∀ (x : EntryId) (ex : StreamEntry), s.shared.queue.jobs.log[x]? = some ex →
      ex.message.jobId ≠ j

/-- The condition of the whole chain: one decider for each entry, one first message for each
job. -/
def SingleChain (cfg : Deployment) (s : State) (a : ℕ × Action) : Prop :=
  cfg.OneDecider s a ∧ FirstPublishOnce s a

private theorem bound_grow {g g' : Grid} (hgrows : g.Grows g') {m : QueueJobMessage}
    (h : 1 ≤ m.attemptNumber ∧ ∃ row, g.db.loadJob m.jobId = some row ∧
      m.attemptNumber ≤ row.maxRetries + 1) :
    1 ≤ m.attemptNumber ∧ ∃ row, g'.db.loadJob m.jobId = some row ∧
      m.attemptNumber ≤ row.maxRetries + 1 := by
  obtain ⟨hpos, row, hrow, hle⟩ := h
  obtain ⟨row', hrow', hsame⟩ := hgrows.loadJob hrow
  refine ⟨hpos, row', hrow', ?_⟩
  rw [hsame]
  exact hle

private theorem attemptChain_append {g g' : Grid} {entry : StreamEntry} (hgrows : g.Grows g')
    (heq : g'.queue.jobs.log = g.queue.jobs.log ++ [entry]) (hg : g.AttemptChain)
    (hroot : entry.cause = none → entry.message.attemptNumber = 1 ∧
      ∀ (x : EntryId) (ex : StreamEntry), g.queue.jobs.log[x]? = some ex →
        ex.message.jobId ≠ entry.message.jobId)
    (hcaused : ∀ e, entry.cause = some e → e < g.queue.jobs.log.length ∧
      ∃ ee : StreamEntry, g.queue.jobs.log[e]? = some ee ∧
        ee.message.jobId = entry.message.jobId ∧
        entry.message.attemptNumber = ee.message.attemptNumber + 1)
    (hbound : 1 ≤ entry.message.attemptNumber ∧ ∃ row,
      g.db.loadJob entry.message.jobId = some row ∧
        entry.message.attemptNumber ≤ row.maxRetries + 1) : g'.AttemptChain := by
  have split : ∀ {x : EntryId} {ex : StreamEntry}, g'.queue.jobs.log[x]? = some ex →
      g.queue.jobs.log[x]? = some ex ∨ x = g.queue.jobs.log.length ∧ ex = entry :=
    fun hx => getElem?_append_singleton (heq ▸ hx)
  refine ⟨?_, ?_, ?_, ?_⟩
  · intro x y ex ey hx hy hcx hcy hj
    rcases split hx with hx' | ⟨hx', rfl⟩
    · rcases split hy with hy' | ⟨-, rfl⟩
      · exact hg.root x y ex ey hx' hy' hcx hcy hj
      · exact absurd hj ((hroot hcy).2 x ex hx')
    · rcases split hy with hy' | ⟨hy', -⟩
      · exact absurd hj.symm ((hroot hcx).2 y ey hy')
      · exact hx'.trans hy'.symm
  · intro x ex hx hcx
    rcases split hx with hx' | ⟨-, rfl⟩
    · exact hg.first x ex hx' hcx
    · exact (hroot hcx).1
  · intro x e ex hx hcx
    rcases split hx with hx' | ⟨hx', rfl⟩
    · obtain ⟨hlt, ee, hee, hspec⟩ := hg.caused x e ex hx' hcx
      exact ⟨hlt, ee, hgrows.log hee, hspec⟩
    · obtain ⟨hlt, ee, hee, hspec⟩ := hcaused e hcx
      exact ⟨hx' ▸ hlt, ee, hgrows.log hee, hspec⟩
  · intro x ex hx
    rcases split hx with hx' | ⟨-, rfl⟩
    · exact bound_grow hgrows (hg.bound x ex hx')
    · exact bound_grow hgrows hbound

private theorem attemptChain_keep {g g' : Grid} (hgrows : g.Grows g')
    (heq : g'.queue.jobs.log = g.queue.jobs.log) (hg : g.AttemptChain) : g'.AttemptChain := by
  refine ⟨?_, ?_, ?_, ?_⟩
  · rw [heq]
    exact hg.root
  · rw [heq]
    exact hg.first
  · rw [heq]
    exact hg.caused
  · rw [heq]
    exact fun x ex hx => bound_grow hgrows (hg.bound x ex hx)

private theorem attemptChain_step {a : ℕ × Action} (hsound : Sound s)
    (hlaw : ∀ j, (s.shared.db.history j).Lawful) (hc : FirstPublishOnce s a)
    (h : cfg.lts.step s a = some t) (hs : s.shared.AttemptChain) : t.shared.AttemptChain := by
  obtain ⟨i, a⟩ := a
  obtain ⟨g', l', ht, rfl⟩ := step_transition h
  rcases ht.log with heq | ⟨entry, hpub, heq⟩
  · exact attemptChain_keep ht.grows heq hs
  · cases hcause : entry.cause with
    | none =>
      obtain ⟨j, n, job, rfl, hjob, rfl⟩ := hpub.client_of_cause_eq_none (hsound.2 i) hcause
      obtain ⟨rfl, hfirst⟩ := hc j n rfl
      have hid := Database.id_of_loadJob hjob
      have hretries := (hlaw j).retries job hjob
      refine attemptChain_append ht.grows heq hs (fun _ => ⟨rfl, fun x ex hx => ?_⟩)
        (fun e he => (nomatch he)) ⟨le_refl 1, job, ?_, ?_⟩
      · exact fun hj => hfirst x ex hx (hj.trans hid)
      · subst hid
        exact hjob
      · exact le_add_of_nonneg_left hretries
    | some e =>
      obtain ⟨hlt, ee, hee, hj, hn, row, hrow, hle⟩ := hpub.succeeds (hsound.2 i) hcause
      have hpos := (hs.bound e ee hee).1
      refine attemptChain_append ht.grows heq hs (fun hnone => ?_) (fun e' he' => ?_)
        ⟨?_, row, hrow, ?_⟩
      · rw [hcause] at hnone
        cases hnone
      · rw [hcause] at he'
        obtain rfl := Option.some.inj he'
        exact ⟨hlt.trans_le s.shared.queue.jobs.delivered_le, ee, hee, hj, hn⟩
      · omega
      · omega

theorem attemptChain_reachable
    (hs : cfg.lts.Reachable cfg.SingleChain s) :
    s.shared.AttemptChain := by
  have hinit : cfg.lts.init.shared.AttemptChain :=
    ⟨fun _ _ _ _ hx => (nomatch hx), fun _ _ hx => (nomatch hx), fun _ _ _ hx => (nomatch hx),
      fun _ _ hx => (nomatch hx)⟩
  refine Lts.Reachable.invariant (P := fun s => s.shared.AttemptChain) hinit ?_ hs
  intro s a t hs hinv hc h
  exact attemptChain_step (sound_reachable hs.weaken) (history_lawful hs.weaken) hc.2 h hinv

end Deployment

def Database.starts (db : Database) (j : JobId) : List JobEvent :=
  (db.eventsOf j).filter fun e => e.eventType = .running

/-- The entry the actor has leased and not yet dispatched. -/
def ActorState.leasing : ActorState → Option EntryId
  | .worker (.leased m) => m.entryId
  | _ => none

variable {cfg : Deployment} {i : ℕ} {g g' : Grid} {l l' : ActorState} {a : Action} {e : EntryId}

/-- An actor comes to lease an entry when it is delivered. -/
theorem Transition.leasing (h : Transition cfg i g l a g' l') (hl' : l'.leasing = some e) :
    e = g.queue.jobs.delivered := by
  cases h with
  | lease => exact (Option.some.inj hl').symm
  | worker h =>
    cases h with
    | artifactWritten _ hnext => obtain rfl | ⟨p, -, rfl⟩ := hnext <;> cases hl'
    | _ => cases hl'
  | @run m job writes outcome =>
    cases outcome with
    | success result =>
      change ActorState.leasing (.worker (if _ then _ else _)) = _ at hl'
      split at hl' <;> cases hl'
    | _ => cases hl'
  | @renewLease st _ he =>
    cases st with
    | leased m => cases he
    | _ => cases hl'
  | _ => cases hl'

theorem ActorState.Sound.leasing_lt (hl : l.Sound g) (he : l.leasing = some e) :
    e < g.queue.jobs.delivered := by
  cases l with
  | worker st =>
    cases st with
    | leased m =>
      obtain ⟨e₀, entry, -, hlt, rfl⟩ := hl
      exact Option.some.inj he ▸ hlt
    | _ => cases he
  | _ => cases he

/-- A step adds at most one running event to a job, for the entry the actor has leased. -/
theorem Transition.starts (h : Transition cfg i g l a g' l') (j : JobId) :
    g'.db.starts j = g.db.starts j ∨ ∃ m ev, l = .worker (.leased m) ∧ m.jobId = j ∧
      ev.eventData.attemptNumber = some m.attemptNumber ∧
      g'.db.starts j = g.db.starts j ++ [ev] := by
  rcases h.jobEvents with heq | ⟨ev, hwrite, heq⟩
  · left
    unfold Database.starts Database.eventsOf
    rw [heq]
  · have happend : g'.db.starts j = g.db.starts j ++
        ([ev].filter fun e => e.jobId = j).filter fun e => e.eventType = .running := by
      unfold Database.starts Database.eventsOf
      rw [heq, List.filter_append, List.filter_append]
    have other : ev.eventType ≠ .running → g'.db.starts j = g.db.starts j := by
      intro hne
      rw [happend]
      by_cases hj : ev.jobId = j <;> simp [hj, hne]
    cases hwrite with
    | @running m job hjob =>
      by_cases hj : job.id = j
      · refine .inr ⟨m, ⟨job.id, job.runId, .running,
          .running (cfg.worker i).workerId m.attemptNumber, job.traceId⟩, rfl,
          (Database.id_of_loadJob hjob).symm.trans hj, rfl, happend.trans ?_⟩
        simp [hj]
      · left
        rw [happend]
        simp [hj]
    | completed => exact .inl (other (by simp))
    | other htype => exact .inl (other htype)

namespace Deployment
variable {s t : State}

/-- The attempt numbers of the running events of a job. -/
def startedAttempts (db : Database) (j : JobId) : List (Option ℤ) :=
  (db.starts j).map fun e => e.eventData.attemptNumber

/-- Each start of a job is the one start of a delivered entry that nobody leases any more, and an
entry is leased by one actor at most. -/
structure StartedOnce (s : State) : Prop where
  nodup : ∀ j, (startedAttempts s.shared.db j).Nodup
  entry : ∀ j, ∀ n ∈ startedAttempts s.shared.db j,
    ∃ (e : EntryId) (entry : StreamEntry), s.shared.queue.jobs.log[e]? = some entry ∧
      entry.message.jobId = j ∧ n = some entry.message.attemptNumber ∧
      e < s.shared.queue.jobs.delivered ∧ ∀ k, (s.locals k).leasing ≠ some e
  leased : ∀ k k' e, (s.locals k).leasing = some e → (s.locals k').leasing = some e → k = k'

/-- No delivered entry that the acting actor does not lease comes to be leased. -/
private theorem leasing_step (h : Transition cfg i s.shared (s.locals i) a g' l')
    (he : e < s.shared.queue.jobs.delivered) {k : ℕ} (hk : k ≠ i → (s.locals k).leasing ≠ some e) :
    (Function.update s.locals i l' k).leasing ≠ some e := by
  by_cases hki : k = i
  · subst hki
    rw [Function.update_self]
    intro hl'
    exact absurd (h.leasing hl') he.ne
  · rw [Function.update_of_ne hki]
    exact hk hki

private theorem startedOnce_step {a : ℕ × Action} (hsound : Sound s)
    (hinj : ∀ (x y : EntryId) (ex ey : StreamEntry), s.shared.queue.jobs.log[x]? = some ex →
      s.shared.queue.jobs.log[y]? = some ey → ex.message.jobId = ey.message.jobId →
      ex.message.attemptNumber = ey.message.attemptNumber → x = y)
    (h : cfg.lts.step s a = some t) (hs : StartedOnce s) : StartedOnce t := by
  obtain ⟨i, a⟩ := a
  obtain ⟨g', l', ht, rfl⟩ := step_transition h
  have hgrows := ht.grows
  have hlt : ∀ k e, (s.locals k).leasing = some e → e < s.shared.queue.jobs.delivered :=
    fun k e he => (hsound.2 k).leasing_lt he
  have leased : ∀ m, s.locals i = .worker (.leased m) →
      ∃ (e : EntryId) (entry : StreamEntry), s.shared.queue.jobs.log[e]? = some entry ∧
        entry.message.jobId = m.jobId ∧ entry.message.attemptNumber = m.attemptNumber ∧
        e < s.shared.queue.jobs.delivered ∧ (s.locals i).leasing = some e := by
    intro m hl
    have hm := hsound.2 i
    rw [hl] at hm ⊢
    obtain ⟨e, entry, hentry, he, rfl⟩ := hm
    exact ⟨e, entry, hentry, rfl, rfl, he, rfl⟩
  refine ⟨?_, ?_, ?_⟩
  · intro j
    change ((g'.db.starts j).map _).Nodup
    rcases ht.starts j with heq | ⟨m, ev, hl, hj, hev, heq⟩
    · rw [heq]
      exact hs.nodup j
    · rw [heq, List.map_append, List.nodup_append]
      refine ⟨hs.nodup j, List.nodup_singleton _, fun n hn n' hn' heq => ?_⟩
      rw [List.map_singleton, List.mem_singleton, hev] at hn'
      obtain ⟨e₀, entry₀, hentry₀, hj₀, hattempt₀, -, hleasing⟩ := leased m hl
      obtain ⟨e, entry, hentry, hje, hattempt, -, hfree⟩ := hs.entry j n hn
      have hnumber : entry.message.attemptNumber = entry₀.message.attemptNumber := by
        rw [hattempt₀]
        exact Option.some.inj (hattempt.symm.trans (heq.trans hn'))
      have hsame := hinj e e₀ entry entry₀ hentry hentry₀ (hje.trans (hj.symm.trans hj₀.symm))
        hnumber
      exact hfree i (hsame ▸ hleasing)
  · intro j n hn
    change n ∈ (g'.db.starts j).map _ at hn
    rcases ht.starts j with heq | ⟨m, ev, hl, hj, hev, heq⟩
    · rw [heq] at hn
      obtain ⟨e, entry, hentry, hje, hattempt, he, hfree⟩ := hs.entry j n hn
      exact ⟨e, entry, hgrows.log hentry, hje, hattempt, he.trans_le hgrows.queue.delivered,
        fun k => leasing_step ht he fun _ => hfree k⟩
    · rw [heq, List.map_append, List.mem_append] at hn
      rcases hn with hn | hn
      · obtain ⟨e, entry, hentry, hje, hattempt, he, hfree⟩ := hs.entry j n hn
        exact ⟨e, entry, hgrows.log hentry, hje, hattempt, he.trans_le hgrows.queue.delivered,
          fun k => leasing_step ht he fun _ => hfree k⟩
      · rw [List.map_singleton, List.mem_singleton, hev] at hn
        obtain ⟨e₀, entry₀, hentry₀, hj₀, hattempt₀, he₀, hleasing⟩ := leased m hl
        refine ⟨e₀, entry₀, hgrows.log hentry₀, hj₀.trans hj, hattempt₀ ▸ hn,
          he₀.trans_le hgrows.queue.delivered, fun k => leasing_step ht he₀ fun hki hk => ?_⟩
        exact hki (hs.leased k i e₀ hk hleasing)
  · intro k k' e hk hk'
    -- an entry leased before the step is not the one just delivered
    have before : ∀ k, (Function.update s.locals i l' k).leasing = some e →
        k = i ∧ e = s.shared.queue.jobs.delivered ∨ k ≠ i ∧ (s.locals k).leasing = some e := by
      intro k hk
      by_cases hki : k = i
      · subst hki
        rw [Function.update_self] at hk
        exact .inl ⟨rfl, ht.leasing hk⟩
      · rw [Function.update_of_ne hki] at hk
        exact .inr ⟨hki, hk⟩
    rcases before k hk with ⟨hki, he⟩ | ⟨-, hold⟩ <;>
      rcases before k' hk' with ⟨hki', he'⟩ | ⟨-, hold'⟩
    · exact hki.trans hki'.symm
    · exact absurd he (hlt k' e hold').ne
    · exact absurd he' (hlt k e hold).ne
    · exact hs.leased k k' e hold hold'

theorem attempts_injective (hs : cfg.lts.Reachable cfg.SingleChain s) :
    ∀ (x y : EntryId) (ex ey : StreamEntry), s.shared.queue.jobs.log[x]? = some ex →
      s.shared.queue.jobs.log[y]? = some ey → ex.message.jobId = ey.message.jobId →
      ex.message.attemptNumber = ey.message.attemptNumber → x = y := by
  have hone := oneSuccessor_reachable (Lts.Run.mono (fun _ _ h => h.1) hs)
  intro x y ex ey hx hy hj hn
  exact (attemptChain_reachable hs).injective hone.unique hx hy hj hn

private theorem startedOnce_reachable (hs : cfg.lts.Reachable cfg.SingleChain s) :
    StartedOnce s := by
  have hinit : StartedOnce cfg.lts.init :=
    ⟨fun _ => List.nodup_nil, fun _ _ hn => (nomatch hn), fun _ _ _ hk => (nomatch hk)⟩
  refine Lts.Reachable.invariant (P := StartedOnce) hinit ?_ hs
  intro s a t hs hinv _ h
  exact startedOnce_step (sound_reachable hs.weaken) (attempts_injective hs) h hinv

/-- Starts with distinct numbers between 1 and the retry limit plus one are at most that many. -/
theorem starts_length_le (hs : cfg.lts.Reachable cfg.SingleChain s) {j : JobId}
    {row : JobRecord} (hrow : s.shared.db.loadJob j = some row) :
    ((s.shared.db.starts j).length : ℤ) ≤ row.maxRetries + 1 := by
  have hstarted := startedOnce_reachable hs
  have hchain := attemptChain_reachable hs
  have hmem : ∀ n ∈ startedAttempts s.shared.db j,
      n ∈ (Finset.Icc 1 (row.maxRetries + 1)).image some := by
    intro n hn
    obtain ⟨e, entry, hentry, hj, rfl, -⟩ := hstarted.entry j n hn
    obtain ⟨hpos, row', hrow', hle⟩ := hchain.bound e entry hentry
    rw [hj, hrow] at hrow'
    obtain rfl := Option.some.inj hrow'
    exact Finset.mem_image_of_mem some (Finset.mem_Icc.mpr ⟨hpos, hle⟩)
  have hcard : (startedAttempts s.shared.db j).length ≤
      ((Finset.Icc 1 (row.maxRetries + 1)).image some).card := by
    rw [← List.toFinset_card_of_nodup (hstarted.nodup j)]
    exact Finset.card_le_card fun n hn => hmem n (List.mem_toFinset.mp hn)
  have hretries := (history_lawful hs.weaken j).retries row hrow
  rw [startedAttempts, List.length_map] at hcard
  have hle := hcard.trans Finset.card_image_le
  rw [Int.card_Icc] at hle
  omega

/-- With one decider for each entry, an entry has at most one successor. When besides each job is
first published once and with attempt 1, no two messages of a job carry the same attempt number,
and the job is started at most once more than it may be retried. -/
theorem at_most_one_successor (hs : cfg.lts.Reachable cfg.OneDecider s) :
    (∀ (e x y : EntryId) (ex ey : StreamEntry), s.shared.queue.jobs.log[x]? = some ex →
      s.shared.queue.jobs.log[y]? = some ey → ex.cause = some e → ey.cause = some e → x = y) ∧
    (cfg.lts.Reachable cfg.SingleChain s →
      (∀ (x y : EntryId) (ex ey : StreamEntry), s.shared.queue.jobs.log[x]? = some ex →
        s.shared.queue.jobs.log[y]? = some ey → ex.message.jobId = ey.message.jobId →
        ex.message.attemptNumber = ey.message.attemptNumber → x = y) ∧
      ∀ j row, s.shared.db.loadJob j = some row →
        ((s.shared.db.starts j).length : ℤ) ≤ row.maxRetries + 1) :=
  ⟨(oneSuccessor_reachable hs).unique,
    fun hs => ⟨attempts_injective hs, fun _ _ hrow => starts_length_le hs hrow⟩⟩

/-- The entry on which the next step of the actor may decide. -/
private def contending : ActorState → Option EntryId
  | .worker (.handling m _ _) => m.entryId
  | .recovery (.planning (lease :: _) _) => lease.message.entryId
  | _ => none

private theorem contending_of_decides {w : Worker} {g : Grid} {l : ActorState} {a : Action}
    {e : EntryId} (h : l.Decides w g e a) : contending l = some e := by
  unfold ActorState.Decides at h
  split at h
  · exact h.1
  · exact h.1
  · cases h

private def checkOneDecider (n : ℕ) (s : State) (a : ℕ × Action) : Bool :=
  (match a.2 with | .crash => false | _ => true) &&
    (contending (s.locals a.1)).all fun e => decide (s.shared.queue.jobs.Pending e) &&
      (List.range n).all fun k => k == a.1 ||
        (decide ((s.locals k).deciding ≠ some e) && decide ((s.locals k).closing ≠ some e))

private theorem oneDecider_of_check {n : ℕ} (a : ℕ × Action)
    (hidle : ∀ k, n ≤ k → s.locals k = .idle) (h : checkOneDecider n s a = true) :
    cfg.OneDecider s a := by
  obtain ⟨hcrash, hall⟩ := Bool.and_eq_true_iff.mp h
  constructor
  · intro e he
    rw [contending_of_decides he] at hall
    obtain ⟨hpending, hothers⟩ := Bool.and_eq_true_iff.mp hall
    refine ⟨of_decide_eq_true hpending, fun k hk => ?_⟩
    by_cases hlt : k < n
    · have := List.all_eq_true.mp hothers k (List.mem_range.mpr hlt)
      simpa [hk] using this
    · rw [hidle k (not_lt.mp hlt)]
      exact ⟨nofun, nofun⟩
  · intro ha
    rw [ha] at hcrash
    cases hcrash

private def checkFirstPublish (s : State) (a : ℕ × Action) : Bool :=
  match a.2 with
  | .publishJob j n => decide (n = 1) &&
      s.shared.queue.jobs.log.all fun entry => decide (entry.message.jobId ≠ j)
  | _ => true

private theorem firstPublish_of_check (a : ℕ × Action) (h : checkFirstPublish s a = true) :
    FirstPublishOnce s a := by
  intro j n ha
  unfold checkFirstPublish at h
  rw [ha] at h
  obtain ⟨hn, hall⟩ := Bool.and_eq_true_iff.mp h
  refine ⟨of_decide_eq_true hn, fun x ex hx => ?_⟩
  exact of_decide_eq_true (List.all_eq_true.mp hall ex (List.mem_of_getElem? hx))

/-- A transient error on the first attempt: the retry is the one successor of entry 0, and the
job, which may be retried once, is started twice. -/
theorem at_most_one_successor_retry :
    ∃ s, stubDeployment.lts.Reachable stubDeployment.OneDecider s ∧
    stubDeployment.lts.Reachable stubDeployment.SingleChain s ∧
    (s.shared.queue.jobs.log.map StreamEntry.cause = [none, some 0]) ∧
    (∀ (e x y : EntryId) (ex ey : StreamEntry), s.shared.queue.jobs.log[x]? = some ex →
      s.shared.queue.jobs.log[y]? = some ey → ex.cause = some e → ey.cause = some e → x = y) ∧
    ((s.shared.db.starts 1).length : ℤ) = 2 ∧
    ∃ row, s.shared.db.loadJob 1 = some row ∧
      ((s.shared.db.starts 1).length : ℤ) ≤ row.maxRetries + 1 := by
  obtain ⟨s, hs, -, hp⟩ := Actors.exists_run_of_exec_among (L := stubDeployment.lts)
    (C := stubDeployment.SingleChain)
    (c := fun s a => checkOneDecider 2 s a && checkFirstPublish s a) rfl 2
    (fun s a hidle h => ⟨oneDecider_of_check a hidle (Bool.and_eq_true_iff.mp h).1,
      firstPublish_of_check a (Bool.and_eq_true_iff.mp h).2⟩)
    (s := stubDeployment.lts.init) (fun _ _ => rfl)
    [(0, .createJob stubSubmission), (0, .publishJob 1 1), (1, .processOne), (1, .advance ""),
      (1, .run [] (.transientError "TransientRunnerError")), (1, .advance ""), (1, .advance ""),
      (1, .advance ""), (1, .finish), (1, .processOne), (1, .advance "")]
    (fun s => decide (s.shared.queue.jobs.log.map StreamEntry.cause = [none, some 0]) &&
      decide ((s.shared.db.starts 1).length = 2) && (s.shared.db.loadJob 1).isSome) (by decide)
  simp only [Bool.and_eq_true, decide_eq_true_eq] at hp
  obtain ⟨⟨hcauses, hlength⟩, hrow⟩ := hp
  obtain ⟨row, hrow⟩ := Option.isSome_iff_exists.mp hrow
  have hone : stubDeployment.lts.Reachable stubDeployment.OneDecider s :=
    Lts.Run.mono (fun _ _ h => h.1) hs
  exact ⟨s, hone, hs, hcauses, (at_most_one_successor hone).1, congrArg _ hlength, row, hrow,
    ((at_most_one_successor hone).2 hs).2 1 row hrow⟩

private def checkNoCrash (_ : State) (a : ℕ × Action) : Bool :=
  match a.2 with | .crash => false | _ => true

/-- Without the condition two recoveries that list the same pending entry both requeue it, and no
process has to die for it. -/
theorem two_successors_of_one_entry :
    ¬ ∀ s, stubDeployment.lts.Reachable (fun _ a => a.2 ≠ .crash) s →
      ∀ (e x y : EntryId) (ex ey : StreamEntry), s.shared.queue.jobs.log[x]? = some ex →
        s.shared.queue.jobs.log[y]? = some ey → ex.cause = some e → ey.cause = some e → x = y := by
  intro claim
  obtain ⟨s, hs, hp⟩ := Lts.exists_run_of_exec (L := stubDeployment.lts)
    (C := fun _ a => a.2 ≠ .crash) (c := checkNoCrash)
    (fun s a h ha => by simp [checkNoCrash, ha] at h) stubDeployment.lts.init
    [(0, .createJob stubSubmission), (0, .publishJob 1 1), (1, .processOne), (1, .advance ""),
      (2, .recoverStaleLeases (fun _ => 60000) 30000 10),
      (3, .recoverStaleLeases (fun _ => 60000) 30000 10), (2, .advance ""), (3, .advance ""),
      (2, .advance ""), (3, .advance "")]
    (fun s => decide (s.shared.queue.jobs.log.map StreamEntry.cause = [none, some 0, some 0]))
    (by decide)
  have hcauses : s.shared.queue.jobs.log.map StreamEntry.cause = [none, some 0, some 0] :=
    of_decide_eq_true hp
  have caused : ∀ x : EntryId, (s.shared.queue.jobs.log.map StreamEntry.cause)[x]? =
      some (some 0) → ∃ entry : StreamEntry, s.shared.queue.jobs.log[x]? = some entry ∧
        entry.cause = some 0 := by
    intro x hx
    rw [List.getElem?_map] at hx
    exact Option.map_eq_some_iff.mp hx
  obtain ⟨entry, hentry, hcause⟩ := caused 1 (by rw [hcauses]; rfl)
  obtain ⟨entry', hentry', hcause'⟩ := caused 2 (by rw [hcauses]; rfl)
  have hsame := claim s hs 0 1 2 entry entry' hentry hentry' hcause hcause'
  cases hsame

end Deployment
end AgentRuntimeGrid
