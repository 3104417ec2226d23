import AgentRuntimeGrid.Lib.Lts
import Mathlib.Logic.Function.Basic

/-! Actors with local states taking turns on one shared state. A step of one actor reads and
writes the shared state and its own local state only. -/

structure Actors (ι σ l : Type*) where
  shared : σ
  locals : ι → l

namespace Actors
variable {ι σ l α : Type*} [DecidableEq ι]

/-- One step of actor `a.1`; every other local state is left as it is. -/
def globalStep (step : ι → σ → l → α → Option (σ × l)) (s : Actors ι σ l) (a : ι × α) :
    Option (Actors ι σ l) :=
  (step a.1 s.shared (s.locals a.1) a.2).map fun r =>
    ⟨r.1, Function.update s.locals a.1 r.2⟩

def lts (step : ι → σ → l → α → Option (σ × l)) (init : Actors ι σ l) :
    Lts (Actors ι σ l) (ι × α) := ⟨init, globalStep step⟩

variable {step : ι → σ → l → α → Option (σ × l)} {s t : Actors ι σ l} {i : ι} {a : α}

theorem globalStep_eq_some :
    globalStep step s (i, a) = some t ↔ ∃ sh x, step i s.shared (s.locals i) a = some (sh, x) ∧
      t = ⟨sh, Function.update s.locals i x⟩ := by
  simp only [globalStep, Option.map_eq_some_iff, Prod.exists]
  constructor
  · rintro ⟨sh, x, hs, rfl⟩
    exact ⟨sh, x, hs, rfl⟩
  · rintro ⟨sh, x, hs, rfl⟩
    exact ⟨sh, x, hs, rfl⟩

/-- Local assertions survive a step when the acting actor re-establishes its own and no other
actor's assertion is disturbed by the change of the shared state. -/
theorem forall_locals_update {P : ι → l → Prop} {x : l} (hown : P i x)
    (hother : ∀ k, k ≠ i → P k (s.locals k)) : ∀ k, P k (Function.update s.locals i x k) := by
  intro k
  by_cases hk : k = i
  · subst hk
    rw [Function.update_self]
    exact hown
  · rw [Function.update_of_ne hk]
    exact hother k hk

/-- One actor is in the given local state and all others are at rest. -/
def alone (rest : l) (i : ι) (sh : σ) (x : l) : Actors ι σ l :=
  ⟨sh, Function.update (fun _ => rest) i x⟩

@[simp] theorem locals_alone (rest : l) (i : ι) (sh : σ) (x : l) :
    (alone rest i sh x).locals i = x := by
  simp only [alone, Function.update_self]

theorem alone_rest (rest : l) (i : ι) (sh : σ) : alone rest i sh rest = ⟨sh, fun _ => rest⟩ := by
  rw [alone, Function.update_eq_self i (fun _ => rest)]

/-- What one actor does alone, in steps that meet a condition on its own state, is a run. -/
theorem run_alone {L : Lts (Actors ι σ l) (ι × α)} (hL : L.step = globalStep step)
    {C : Actors ι σ l → ι × α → Prop} {rest : l} {c : σ × l → α → Prop}
    (hC : ∀ sh x a, c (sh, x) a → C (alone rest i sh x) (i, a)) {x y : σ × l}
    (h : Relation.ReflTransGen
      (fun x y => ∃ a, c x a ∧ step i x.1 x.2 a = some y) x y) :
    L.Run C (alone rest i x.1 x.2) (alone rest i y.1 y.2) := by
  refine h.lift (fun z : σ × l => alone rest i z.1 z.2) ?_
  rintro u v ⟨a, ha, hstep⟩
  refine ⟨(i, a), hC u.1 u.2 a ha, ?_⟩
  rw [hL]
  refine globalStep_eq_some.mpr ⟨v.1, v.2, ?_, ?_⟩
  · rw [locals_alone]
    exact hstep
  · simp only [alone, Function.update_idem]

/-- The check lets only the actors below `n` act, each of them when `c` agrees. -/
def among (n : ℕ) (c : Actors ℕ σ l → ℕ × α → Bool) (s : Actors ℕ σ l) (a : ℕ × α) : Bool :=
  decide (a.1 < n) && c s a

/-- An execution by the actors below `n` leaves the others as they are, so a check may assume
that they are idle. -/
theorem exists_run_of_exec_among {L : Lts (Actors ℕ σ l) (ℕ × α)}
    {step : ℕ → σ → l → α → Option (σ × l)} (hL : L.step = globalStep step) {idle : l}
    {C : Actors ℕ σ l → ℕ × α → Prop} {c : Actors ℕ σ l → ℕ × α → Bool} (n : ℕ)
    (hc : ∀ s a, (∀ k, n ≤ k → s.locals k = idle) → c s a = true → C s a) {s : Actors ℕ σ l}
    (hs : ∀ k, n ≤ k → s.locals k = idle) (as : List (ℕ × α)) (p : Actors ℕ σ l → Bool)
    (h : (L.exec (among n c) s as).any p = true) :
    ∃ t, L.Run C s t ∧ (∀ k, n ≤ k → t.locals k = idle) ∧ p t = true := by
  have hkeep : ∀ s a t, (∀ k, n ≤ k → s.locals k = idle) → among n c s a = true →
      L.step s a = some t → ∀ k, n ≤ k → t.locals k = idle := by
    intro s a t hs ha hstep k hk
    rw [hL] at hstep
    obtain ⟨sh, x, -, rfl⟩ := globalStep_eq_some.mp hstep
    have hlt : a.1 < n := of_decide_eq_true (Bool.and_eq_true_iff.mp ha).1
    exact (Function.update_of_ne (Nat.ne_of_gt (Nat.lt_of_lt_of_le hlt hk)) x s.locals).trans
      (hs k hk)
  have hcheck : ∀ s a, (∀ k, n ≤ k → s.locals k = idle) → among n c s a = true → C s a :=
    fun s a hs ha => hc s a hs (Bool.and_eq_true_iff.mp ha).2
  cases ht : L.exec (among n c) s as with
  | none => simp [ht] at h
  | some t =>
    refine ⟨t, Lts.exec_run_of_invariant hkeep hcheck hs ht, ?_, by simpa [ht] using h⟩
    exact Lts.Run.preserves (C := fun s a => among n c s a = true)
      (fun s a t hs ha => hkeep s a t hs ha)
      (Lts.exec_run_of_invariant (I := fun _ => True) (fun _ _ _ _ _ _ => trivial)
        (fun _ _ _ ha => ha) trivial ht) hs

end Actors
