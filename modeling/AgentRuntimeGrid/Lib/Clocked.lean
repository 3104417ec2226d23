import AgentRuntimeGrid.Lib.Lts
import Mathlib.Logic.Function.Basic

/-! A transition system run beside a clock. Some steps touch a resource, and a step may read how
long ago each resource was last touched. -/

/-- A state, the time of day and when each resource was last touched. -/
structure Clocked (σ κ : Type*) where
  state : σ
  clock : ℕ
  touched : κ → ℕ

inductive ClockedAction (α : Type*) where
  | tick (d : ℕ)
  | act (a : α)

/-- How the actions of a system meet the clock: what an action becomes when it reads the idle
times, and which resource a step touches. -/
structure Clocking (σ α κ : Type*) where
  timed : (κ → ℕ) → α → α
  touches : σ → α → Option κ

variable {σ α κ : Type*} [DecidableEq κ]

namespace Clocked

/-- The time since the resource was last touched. -/
def idle (s : Clocked σ κ) (k : κ) : ℕ := s.clock - s.touched k

/-- The state after a step that touches the resource, if any. -/
def next (s : Clocked σ κ) (t : σ) (k : Option κ) : Clocked σ κ :=
  ⟨t, s.clock, k.elim s.touched fun k => Function.update s.touched k s.clock⟩

theorem clock_le_next_touched {s : Clocked σ κ} {t : σ} {k : Option κ} {e : κ} {ms : ℕ}
    (h : k = some e ∨ s.clock ≤ s.touched e + ms) : s.clock ≤ (s.next t k).touched e + ms := by
  cases k with
  | none => exact h.resolve_left (by simp)
  | some k =>
    change s.clock ≤ Function.update s.touched k s.clock e + ms
    by_cases he : e = k
    · subst he
      rw [Function.update_self]
      omega
    · rw [Function.update_of_ne he]
      exact h.resolve_left fun heq => he (Option.some.inj heq).symm

end Clocked

namespace Lts
variable {L : Lts σ α} {c : Clocking σ α κ} {C : Clocked σ κ → ClockedAction α → Prop}

/-- The system beside its clock: time passes or an action is taken. -/
def clocked (L : Lts σ α) (c : Clocking σ α κ) : Lts (Clocked σ κ) (ClockedAction α) where
  init := ⟨L.init, 0, fun _ => 0⟩
  step s
    | .tick d => some { s with clock := s.clock + d }
    | .act a => (L.step s.state (c.timed s.idle a)).map fun t =>
        s.next t (c.touches s.state (c.timed s.idle a))

theorem clocked_act_eq_some {s t : Clocked σ κ} {a : α} :
    (L.clocked c).step s (.act a) = some t ↔ ∃ u, L.step s.state (c.timed s.idle a) = some u ∧
      t = s.next u (c.touches s.state (c.timed s.idle a)) := by
  simp only [clocked, Option.map_eq_some_iff]
  constructor
  · rintro ⟨u, hu, rfl⟩
    exact ⟨u, hu, rfl⟩
  · rintro ⟨u, hu, rfl⟩
    exact ⟨u, hu, rfl⟩

/-- A run beside the clock is a run of the system, under any condition its actions meet. -/
theorem clocked_run {D : σ → α → Prop} {I : Clocked σ κ → Prop}
    (hI : ∀ s a t, I s → C s a → (L.clocked c).step s a = some t → I t)
    (hD : ∀ s a, I s → C s (.act a) → D s.state (c.timed s.idle a)) {s t : Clocked σ κ}
    (h : (L.clocked c).Run C s t) (hs : I s) : L.Run D s.state t.state := by
  have both : I t ∧ L.Run D s.state t.state := by
    induction h with
    | refl => exact ⟨hs, .refl⟩
    | tail _ hlast ih =>
      obtain ⟨a, hc, ht⟩ := hlast
      refine ⟨hI _ a _ ih.1 hc ht, ?_⟩
      cases a with
      | tick d =>
        obtain rfl := Option.some.inj ht
        exact ih.2
      | act a =>
        obtain ⟨u, hu, rfl⟩ := clocked_act_eq_some.mp ht
        exact ih.2.trans (.single ⟨_, hD _ a ih.1 hc, hu⟩)
  exact both.2

theorem clocked_reachable {s : Clocked σ κ} (h : (L.clocked c).Reachable C s) :
    L.Reachable anyStep s.state :=
  clocked_run (I := fun _ => True) (fun _ _ _ _ _ _ => trivial) (fun _ _ _ _ => trivial) h trivial

/-- Time passes only while every held resource was touched at most `ms` ago. -/
def Punctual (held : σ → κ → Prop) (ms : ℕ) (s : Clocked σ κ) (a : ClockedAction α) : Prop :=
  ∀ d, a = .tick d → ∀ k, held s.state k → s.clock + d ≤ s.touched k + ms

/-- When whoever comes to hold a resource touches it in the same step, a punctual system never
leaves a held resource idle for longer than `ms`. -/
theorem clocked_idle_le {held : σ → κ → Prop} {ms : ℕ} (hinit : ∀ k, ¬ held L.init k)
    (hheld : ∀ s a t k, L.Reachable anyStep s → L.step s a = some t → held t k →
      held s k ∨ c.touches s a = some k)
    (hC : ∀ s a, C s a → Punctual held ms s a) {s : Clocked σ κ}
    (h : (L.clocked c).Reachable C s) {k : κ} (hk : held s.state k) : s.idle k ≤ ms := by
  have hfresh : ∀ k, held s.state k → s.clock ≤ s.touched k + ms := by
    refine Reachable.invariant (P := fun s => ∀ k, held s.state k → s.clock ≤ s.touched k + ms)
      (fun k hk => absurd hk (hinit k)) ?_ h
    intro s a t hs hfresh hc ht k hk
    cases a with
    | tick d =>
      obtain rfl := Option.some.inj ht
      exact hC _ _ hc d rfl k hk
    | act a =>
      obtain ⟨u, hu, rfl⟩ := clocked_act_eq_some.mp ht
      have htouched := hheld _ _ _ k (clocked_reachable hs) hu hk
      exact Clocked.clock_le_next_touched (s := s) (t := u) (htouched.symm.imp id (hfresh k))
  unfold Clocked.idle
  have := hfresh k hk
  omega

end Lts
