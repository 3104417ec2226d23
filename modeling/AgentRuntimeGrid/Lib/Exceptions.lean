import Mathlib.Tactic.Common

/-! What a computation that may raise ensures: a predicate of the value it returns, beside one of
the exception it raises instead. -/
namespace Except
universe u v
variable {ε : Type u} {α β : Type v} {H : ε → Prop} {P Q : α → Prop} {x : Except ε α}

theorem bind_eq_ok {f : α → Except ε β} {b : β} :
    x >>= f = .ok b ↔ ∃ a, x = .ok a ∧ f a = .ok b := by
  cases x with
  | error e => exact ⟨fun h => (nomatch h), fun ⟨_, h, _⟩ => (nomatch h)⟩
  | ok a => exact ⟨fun h => ⟨a, rfl, h⟩, fun ⟨_, h, hf⟩ => by cases h; exact hf⟩

theorem bind_eq_error {f : α → Except ε β} {e : ε} :
    x >>= f = .error e ↔ x = .error e ∨ ∃ a, x = .ok a ∧ f a = .error e := by
  cases x with
  | error e' =>
    constructor
    · intro h
      cases h
      exact .inl rfl
    · rintro (h | ⟨a, h, -⟩)
      · cases h
        rfl
      · cases h
  | ok a =>
    constructor
    · exact fun h => .inr ⟨a, rfl, h⟩
    · rintro (h | ⟨a', h, hf⟩)
      · cases h
      · cases h
        exact hf

/-- The computation returns a value with `P`, or raises an exception with `H`. -/
def Ensures (H : ε → Prop) (P : α → Prop) : Except ε α → Prop
  | .error e => H e
  | .ok a => P a

@[simp] theorem ensures_error {e : ε} : (error e : Except ε α).Ensures H P ↔ H e := Iff.rfl

@[simp] theorem ensures_throw {e : ε} : (throw e : Except ε α).Ensures H P ↔ H e := Iff.rfl

@[simp] theorem ensures_ok {a : α} : (ok a : Except ε α).Ensures H P ↔ P a := Iff.rfl

@[simp] theorem ensures_pure {a : α} : (pure a : Except ε α).Ensures H P ↔ P a := Iff.rfl

@[simp] theorem ensures_bind {f : α → Except ε β} {Q : β → Prop} :
    (x >>= f).Ensures H Q ↔ x.Ensures H fun a => (f a).Ensures H Q := by
  cases x with
  | error e => rfl
  | ok a => rfl

@[simp] theorem ensures_map {f : α → β} {Q : β → Prop} :
    (x.map f).Ensures H Q ↔ x.Ensures H fun a => Q (f a) := by
  cases x with
  | error e => rfl
  | ok a => rfl

@[simp] theorem ensures_ite {c : Prop} [Decidable c] {y : Except ε α} :
    (if c then x else y).Ensures H P ↔ (c → x.Ensures H P) ∧ (¬c → y.Ensures H P) := by
  by_cases h : c <;> simp [h]

theorem Ensures.mono (h : x.Ensures H P) (hPQ : ∀ a, x = .ok a → P a → Q a) : x.Ensures H Q := by
  cases x with
  | error e => exact h
  | ok a => exact hPQ a rfl h

/-- Of partial correctness: any exception may be raised. -/
theorem ensures_of_forall (hP : ∀ a, P a) : x.Ensures (fun _ => True) P := by
  cases x with
  | error e => trivial
  | ok a => exact hP a

theorem Ensures.of_ok {a : α} (h : x.Ensures H P) (hx : x = .ok a) : P a := by
  rw [hx] at h
  exact h

theorem ensures_congr (hPQ : ∀ a, x = .ok a → (P a ↔ Q a)) : x.Ensures H P ↔ x.Ensures H Q :=
  ⟨fun h => h.mono fun a ha => (hPQ a ha).mp, fun h => h.mono fun a ha => (hPQ a ha).mpr⟩

/-- The exceptions and the value can be looked at one after the other. -/
theorem ensures_iff :
    x.Ensures H P ↔ x.Ensures H (fun _ => True) ∧ ∀ a, x = .ok a → P a := by
  cases x with
  | error e => simp
  | ok a => simp

/-- A computation that raises only what it may is judged by what it returns. -/
theorem ensures_iff_of_raises (h : x.Ensures H fun _ => True) :
    x.Ensures H P ↔ ∀ a, x = .ok a → P a := by
  rw [ensures_iff]
  exact and_iff_right h

/-- One that raises nothing it may has to return. -/
theorem ensures_iff_exists (hx : ∀ e, x = .error e → ¬H e) :
    x.Ensures H P ↔ ∃ a, x = .ok a ∧ P a := by
  cases x with
  | error e => simpa using hx e rfl
  | ok a => simp

/-- What does not depend on the value is ensured beside it, unless an exception hides it. -/
theorem ensures_and_left {A : Prop} (hx : ∀ e, x = .error e → ¬H e) :
    (x.Ensures H fun a => A ∧ P a) ↔ A ∧ x.Ensures H P := by
  cases x with
  | error e => exact iff_of_false (hx e rfl) fun h => hx e rfl h.2
  | ok a => rfl

end Except
