import AgentRuntimeGrid.Lib.Interleaving
import Mathlib.Data.Set.Card

/-! Accounts of promises. An actor makes a promise on the shared state, holds it in its local state
and keeps it on the shared state again. Where every step balances the account, so does every run;
where a step may drop a promise, no run keeps more than was made. -/

namespace Actors
variable {ι σ l α : Type*}

noncomputable def holders (p : ι → l → Bool) (s : Actors ι σ l) : ℕ :=
  {i | p i (s.locals i) = true}.ncard

def FewHolders (p : ι → l → Bool) (s : Actors ι σ l) : Prop := {i | p i (s.locals i) = true}.Finite

variable {p : ι → l → Bool} {s : Actors ι σ l} {i : ι} {x : l} {sh : σ}

/-- The holders are the acting actor, if it is one, and the others. -/
private theorem holders_eq (hfew : FewHolders p s) (i : ι) :
    holders p s = {k | k ≠ i ∧ p k (s.locals k) = true}.ncard + (p i (s.locals i)).toNat := by
  have hothers : {k | k ≠ i ∧ p k (s.locals k) = true}.Finite := hfew.subset fun k hk => hk.2
  unfold holders
  cases hi : p i (s.locals i) with
  | false =>
    have hsame : {k | p k (s.locals k) = true} = {k | k ≠ i ∧ p k (s.locals k) = true} := by
      ext k
      refine ⟨fun hk => ⟨?_, hk⟩, And.right⟩
      rintro rfl
      exact Bool.false_ne_true (hi.symm.trans hk)
    rw [hsame, Bool.toNat_false, Nat.add_zero]
  | true =>
    have hinsert : {k | p k (s.locals k) = true} =
        insert i {k | k ≠ i ∧ p k (s.locals k) = true} := by
      ext k
      by_cases hk : k = i
      · subst hk
        simp [hi]
      · simp [hk]
    rw [hinsert, Set.ncard_insert_of_notMem (fun h => h.1 rfl) hothers, Bool.toNat_true]

private theorem holders_init (hinit : ∀ i, p i (s.locals i) = false) : holders p s = 0 := by
  unfold holders
  simp only [hinit, Bool.false_eq_true, Set.ofPred_false, Set.ncard_empty]

variable [DecidableEq ι]

theorem FewHolders.update (hfew : FewHolders p s) :
    FewHolders p ⟨sh, Function.update s.locals i x⟩ := by
  refine (hfew.insert i).subset fun k hk => ?_
  by_cases hki : k = i
  · exact .inl hki
  · have hk : p k (Function.update s.locals i x k) = true := hk
    rw [Function.update_of_ne hki] at hk
    exact .inr hk

/-- Only the acting actor can come to hold the promise or cease to. -/
theorem holders_update (hfew : FewHolders p s) :
    holders p ⟨sh, Function.update s.locals i x⟩ + (p i (s.locals i)).toNat =
      holders p s + (p i x).toNat := by
  have hupdated : FewHolders p ⟨sh, Function.update s.locals i x⟩ := hfew.update
  have hafter := holders_eq hupdated i
  have hbefore := holders_eq hfew i
  have hsame : {k | k ≠ i ∧ p k (Function.update s.locals i x k) = true} =
      {k | k ≠ i ∧ p k (s.locals k) = true} := by
    ext k
    refine and_congr_right fun hk => ?_
    rw [Function.update_of_ne hk]
  simp only [Function.update_self, hsame] at hafter
  omega

variable {step : ι → σ → l → α → Option (σ × l)} {L : Lts (Actors ι σ l) (ι × α)}
  {C : Actors ι σ l → ι × α → Prop}

theorem fewHolders_reachable (hL : L.step = globalStep step) (hinit : ∀ i, p i (L.init.locals i) =
    false) (hs : L.Reachable C s) : FewHolders p s := by
  refine Lts.Reachable.invariant (P := FewHolders p) ?_ ?_ hs
  · refine Set.finite_empty.subset fun i hi => ?_
    exact Bool.false_ne_true ((hinit i).symm.trans hi)
  · intro s a t _ hfew _ hstep
    rw [hL] at hstep
    obtain ⟨sh, x, -, rfl⟩ := globalStep_eq_some.mp hstep
    exact hfew.update

private theorem holders_step (hL : L.step = globalStep step) (hfew : FewHolders p s) {a : α}
    {t : Actors ι σ l} (h : L.step s (i, a) = some t) :
    ∃ x, step i s.shared (s.locals i) a = some (t.shared, x) ∧
      holders p t + (p i (s.locals i)).toNat = holders p s + (p i x).toNat := by
  rw [hL] at h
  obtain ⟨sh, x, hstep, rfl⟩ := globalStep_eq_some.mp h
  exact ⟨x, hstep, holders_update hfew⟩

/-- No run keeps more promises than were made, those that are held counted in. -/
theorem promises_le (p : ι → l → Bool) (made kept : σ → ℕ) (hL : L.step = globalStep step)
    (hinit : ∀ i, p i (L.init.locals i) = false) (hkept : kept L.init.shared = 0)
    (hstep : ∀ s i a sh x, L.Reachable C s → C s (i, a) →
      step i s.shared (s.locals i) a = some (sh, x) →
      kept sh + (p i x).toNat + made s.shared ≤
        made sh + (kept s.shared + (p i (s.locals i)).toNat))
    (hs : L.Reachable C s) : kept s.shared + holders p s ≤ made s.shared := by
  refine Lts.Reachable.invariant (P := fun s => kept s.shared + holders p s ≤ made s.shared)
    ?_ ?_ hs
  · rw [hkept, holders_init hinit]
    exact Nat.zero_le _
  · rintro s ⟨i, a⟩ t hs ih hc h
    obtain ⟨x, ht, hupdate⟩ := holders_step hL (fewHolders_reachable hL hinit hs) h
    have hbalance := hstep s i a t.shared x hs hc ht
    omega

/-- Where no step drops a promise, those that were made are kept or held. -/
theorem promises_eq (p : ι → l → Bool) (made kept : σ → ℕ) (hL : L.step = globalStep step)
    (hinit : ∀ i, p i (L.init.locals i) = false) (hkept : kept L.init.shared = made L.init.shared)
    (hstep : ∀ s i a sh x, L.Reachable C s → C s (i, a) →
      step i s.shared (s.locals i) a = some (sh, x) →
      kept sh + (p i x).toNat + made s.shared =
        made sh + (kept s.shared + (p i (s.locals i)).toNat))
    (hs : L.Reachable C s) : kept s.shared + holders p s = made s.shared := by
  refine Lts.Reachable.invariant (P := fun s => kept s.shared + holders p s = made s.shared)
    ?_ ?_ hs
  · rw [hkept, holders_init hinit, Nat.add_zero]
  · rintro s ⟨i, a⟩ t hs ih hc h
    obtain ⟨x, ht, hupdate⟩ := holders_step hL (fewHolders_reachable hL hinit hs) h
    have hbalance := hstep s i a t.shared x hs hc ht
    omega

end Actors
