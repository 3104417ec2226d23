import Mathlib.Logic.Relation
import Mathlib.Order.Basic

/-! Labelled transition systems given by a partial step function, their runs under a
condition on the steps taken, and the induction rules for invariants of those runs. -/

structure Lts (σ α : Type*) where
  init : σ
  step : σ → α → Option σ

namespace Lts
variable {σ α : Type*} (L : Lts σ α) (C : σ → α → Prop)

/-- A condition that every step meets. -/
def anyStep : σ → α → Prop := fun _ _ => True

def Step (s t : σ) : Prop := ∃ a, C s a ∧ L.step s a = some t

/-- A finite run each of whose steps meets `C` in the state it is taken from. -/
def Run : σ → σ → Prop := Relation.ReflTransGen (L.Step C)

def Reachable (s : σ) : Prop := L.Run C L.init s

variable {L C}

theorem Run.trans {s t u : σ} (h : L.Run C s t) (h' : L.Run C t u) : L.Run C s u :=
  Relation.ReflTransGen.trans h h'

theorem Run.single {s t : σ} (h : L.Step C s t) : L.Run C s t := Relation.ReflTransGen.single h

theorem Reachable.trans {s t : σ} (h : L.Reachable C s) (h' : L.Run C s t) : L.Reachable C t :=
  Relation.ReflTransGen.trans h h'

theorem Reachable.init : L.Reachable C L.init := Relation.ReflTransGen.refl

theorem Reachable.step {s t : σ} (h : L.Reachable C s) (h' : L.Step C s t) : L.Reachable C t :=
  Relation.ReflTransGen.tail h h'

theorem Run.mono {D : σ → α → Prop} (hCD : ∀ s a, C s a → D s a) {s t : σ} (h : L.Run C s t) :
    L.Run D s t :=
  Relation.ReflTransGen.mono (fun _ _ ⟨a, hc, hs⟩ => ⟨a, hCD _ _ hc, hs⟩) _ _ h

theorem Reachable.weaken {s : σ} (h : L.Reachable C s) : L.Reachable anyStep s :=
  Run.mono (fun _ _ _ => trivial) h

/-- A predicate kept by every step that meets the condition is kept by every such run. -/
theorem Run.preserves {P : σ → Prop} (hstep : ∀ s a t, P s → C s a → L.step s a = some t → P t)
    {s t : σ} (h : L.Run C s t) (hs : P s) : P t := by
  induction h with
  | refl => exact hs
  | tail _ hlast ih =>
    obtain ⟨a, hc, ht⟩ := hlast
    exact hstep _ a _ ih hc ht

/-- What is not at its goal and can always be brought closer to it is brought there. -/
theorem exists_goal {R : σ → σ → Prop} (hrefl : ∀ s, R s s)
    (htrans : ∀ s t u, R s t → R t u → R s u) (measure : σ → ℕ) {P Q : σ → Prop}
    (hstep : ∀ s, P s → Q s ∨ ∃ t, R s t ∧ P t ∧ measure t < measure s) {s : σ} (hs : P s) :
    ∃ t, R s t ∧ P t ∧ Q t := by
  induction hn : measure s using Nat.strongRecOn generalizing s with
  | ind n ih =>
    rcases hstep s hs with hgoal | ⟨t, hst, ht, hless⟩
    · exact ⟨s, hrefl s, hs, hgoal⟩
    · obtain ⟨u, htu, hu⟩ := ih _ (hn ▸ hless) ht rfl
      exact ⟨u, htrans s t u hst htu, hu⟩

theorem Reachable.invariant {P : σ → Prop} (hinit : P L.init)
    (hstep : ∀ s a t, L.Reachable C s → P s → C s a → L.step s a = some t → P t) {s : σ}
    (h : L.Reachable C s) : P s := by
  have both : L.Reachable C s ∧ P s := by
    refine Run.preserves (P := fun s => L.Reachable C s ∧ P s) ?_ h ⟨.init, hinit⟩
    intro s a t hs hc ht
    exact ⟨hs.1.step ⟨a, hc, ht⟩, hstep s a t hs.1 hs.2 hc ht⟩
  exact both.2

/-- Execute a list of actions, each checked by `c` first; `none` when one of them fails its check
or is not enabled. -/
def exec (L : Lts σ α) (c : σ → α → Bool) : σ → List α → Option σ
  | s, [] => some s
  | s, a :: as => if c s a then (L.step s a).bind fun t => L.exec c t as else none

/-- The check may rely on an invariant that the checked actions keep. -/
theorem exec_run_of_invariant {c : σ → α → Bool} {I : σ → Prop}
    (hI : ∀ s a t, I s → c s a = true → L.step s a = some t → I t)
    (hc : ∀ s a, I s → c s a = true → C s a) {s t : σ} {as : List α} (hs : I s)
    (h : L.exec c s as = some t) : L.Run C s t := by
  induction as generalizing s with
  | nil =>
    cases Option.some.inj h
    exact Relation.ReflTransGen.refl
  | cons a as ih =>
    unfold exec at h
    split at h
    next ha =>
      obtain ⟨u, hu, ht⟩ := Option.bind_eq_some_iff.mp h
      exact Relation.ReflTransGen.head ⟨a, hc s a hs ha, hu⟩ (ih (hI s a u hs ha hu) ht)
    next => cases h

/-- An execution that passes a test ends in a state with that property, reached by a run. -/
theorem exists_run_of_exec {c : σ → α → Bool} (hc : ∀ s a, c s a = true → C s a) (s : σ)
    (as : List α) (p : σ → Bool) (h : (L.exec c s as).any p = true) :
    ∃ t, L.Run C s t ∧ p t = true := by
  cases ht : L.exec c s as with
  | none => simp [ht] at h
  | some t =>
    refine ⟨t, ?_, by simpa [ht] using h⟩
    exact exec_run_of_invariant (I := fun _ => True) (fun _ _ _ _ _ _ => trivial)
      (fun s a _ => hc s a) trivial ht

/-- A measure that every step keeps and the counted actions decrease bounds their number. -/
theorem countP_le_of_exec {c : σ → α → Bool} {I : σ → Prop} {μ : σ → ℕ} {counted : α → Bool}
    (hstep : ∀ s a t, I s → L.step s a = some t →
      I t ∧ μ t + (if counted a then 1 else 0) ≤ μ s) {s t : σ} {as : List α} (hs : I s)
    (h : L.exec c s as = some t) : as.countP counted + μ t ≤ μ s := by
  induction as generalizing s with
  | nil =>
    cases Option.some.inj h
    simp
  | cons a as ih =>
    unfold exec at h
    split at h
    next =>
      obtain ⟨u, hu, ht⟩ := Option.bind_eq_some_iff.mp h
      obtain ⟨hI, hμ⟩ := hstep s a u hs hu
      have := ih hI ht
      rw [List.countP_cons]
      omega
    next => cases h

/-- The check that lets every action through. -/
def unchecked : σ → α → Bool := fun _ _ => true

theorem exists_reachable_of_exec (L : Lts σ α) (as : List α) (p : σ → Bool)
    (h : (L.exec unchecked L.init as).any p = true) : ∃ s, L.Reachable anyStep s ∧ p s = true :=
  exists_run_of_exec (fun _ _ _ => trivial) L.init as p h

end Lts
