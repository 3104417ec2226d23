import AgentRuntimeGrid.Lib.PyText
import Mathlib.Data.List.TakeWhile

/-! Decimal digits: the text of a number, its value, and where a run of digits ends. -/
namespace PyText

def isDigit (c : ℕ) : Bool := 48 ≤ c && c ≤ 57

/-- `str(n)`. -/
def digits (n : ℕ) : PyStr := (Nat.toDigits 10 n).map Char.toNat

/-- `int(s)` of a text of digits. -/
def ofDigits (s : PyStr) : ℕ := s.foldl (fun n c => 10 * n + (c - 48)) 0

theorem isDigit_iff {c : ℕ} : isDigit c = true ↔ 48 ≤ c ∧ c ≤ 57 := by
  simp [isDigit]

theorem ofDigits_digits (n : ℕ) : ofDigits (digits n) = n := by
  have h : Nat.ofDigitChars 10 (Nat.toDigits 10 n) 0 = n :=
    Nat.ofDigitChars_toDigits (by decide) (by decide)
  rw [Nat.ofDigitChars_eq_foldl] at h
  rw [ofDigits, digits, List.foldl_map]
  exact h

theorem isDigit_of_mem_digits {n c : ℕ} (h : c ∈ digits n) : isDigit c = true := by
  obtain ⟨d, hd, rfl⟩ := List.mem_map.mp h
  have hdigit := Char.isDigit_iff_toNat.mp
    (Nat.isDigit_of_mem_toDigits (by decide) (by decide) hd)
  have h0 : '0'.toNat = 48 := rfl
  have h9 : '9'.toNat = 57 := rfl
  rw [isDigit_iff]
  omega

theorem digits_ne_nil (n : ℕ) : digits n ≠ [] := by
  rw [digits, ne_eq, List.map_eq_nil_iff]
  exact Nat.toDigits_ne_nil

private theorem toNat_digitChar : ∀ n < 10, n.digitChar.toNat = 48 + n := by
  decide

/-- Only the text of 0 starts with a zero. -/
theorem digits_eq (n : ℕ) :
    digits n = [48] ∨ ∃ c s, digits n = c :: s ∧ 49 ≤ c ∧ c ≤ 57 ∧ ∀ d ∈ s, isDigit d = true := by
  induction n using Nat.strong_induction_on with
  | _ n ih =>
    by_cases hn : n < 10
    · rcases Nat.eq_zero_or_pos n with rfl | hpos
      · exact .inl rfl
      · refine .inr ⟨48 + n, [], ?_, by omega, by omega, nofun⟩
        rw [digits, Nat.toDigits_of_lt_base hn, List.map_singleton, toNat_digitChar n hn]
    · have hstep : digits n = digits (n / 10) ++ digits (n % 10) := by
        have hlt : n % 10 < 10 := Nat.mod_lt n (by omega)
        rw [digits, Nat.toDigits_of_base_le (by omega) (by omega), List.map_append,
          digits, digits, Nat.toDigits_of_lt_base hlt]
      have hpos : digits (n / 10) ≠ [48] := by
        intro h
        have := ofDigits_digits (n / 10)
        rw [h] at this
        have : n / 10 = 0 := this.symm
        omega
      obtain ⟨c, s, h, hlow, hhigh, hs⟩ := (ih (n / 10) (by omega)).resolve_left hpos
      refine .inr ⟨c, s ++ digits (n % 10), by rw [hstep, h]; rfl, hlow, hhigh, fun d hd => ?_⟩
      exact (List.mem_append.mp hd).elim (hs d) isDigit_of_mem_digits

theorem ofDigits_zeros (n : ℕ) (s : PyStr) : ofDigits (List.replicate n 48 ++ s) = ofDigits s := by
  induction n with
  | zero => rfl
  | succ n ih =>
    rw [List.replicate_succ, List.cons_append, ofDigits, List.foldl_cons]
    exact ih

theorem py_toString_int (n : ℤ) :
    py (toString n) = if n < 0 then 45 :: digits n.natAbs else digits n.natAbs := by
  cases n with
  | ofNat n =>
    have h : (toString (Int.ofNat n)).toList = Nat.toDigits 10 n := by
      simp [toString, Int.repr, Nat.repr]
    have hn : ¬ Int.ofNat n < 0 := by simp
    rw [py, h, if_neg hn]
    rfl
  | negSucc n =>
    have h : (toString (Int.negSucc n)).toList = '-' :: Nat.toDigits 10 (n + 1) := by
      simp [toString, Int.repr, Nat.repr]
    rw [py, h, if_pos (Int.negSucc_lt_zero n)]
    rfl

/-- The text does not go on with what the test accepts. -/
def Ends (p : ℕ → Bool) (rest : PyStr) : Prop := ∀ c s, rest = c :: s → p c = false

theorem ends_nil (p : ℕ → Bool) : Ends p [] := nofun

theorem ends_cons {p : ℕ → Bool} {c : ℕ} {s : PyStr} (h : p c = false) : Ends p (c :: s) := by
  intro d t heq
  obtain ⟨rfl, -⟩ := List.cons.inj heq
  exact h

theorem takeWhile_run {p : ℕ → Bool} {s rest : PyStr} (hs : ∀ c ∈ s, p c = true)
    (hrest : Ends p rest) :
    (s ++ rest).takeWhile p = s ∧ (s ++ rest).dropWhile p = rest := by
  induction s with
  | nil =>
    cases rest with
    | nil => exact ⟨rfl, rfl⟩
    | cons c rest =>
      have hc := hrest c rest rfl
      exact ⟨List.takeWhile_cons_of_neg (by simp [hc]), List.dropWhile_cons_of_neg (by simp [hc])⟩
  | cons c s ih =>
    rw [List.forall_mem_cons] at hs
    obtain ⟨htake, hdrop⟩ := ih hs.2
    rw [List.cons_append, List.takeWhile_cons_of_pos hs.1, List.dropWhile_cons_of_pos hs.1, htake,
      hdrop]
    exact ⟨rfl, rfl⟩

theorem strip_eq_self {s : PyStr} (h : ∀ c ∈ s, isSpace c = false) : strip s = s := by
  have keep : ∀ t : PyStr, (∀ c ∈ t, isSpace c = false) → t.dropWhile isSpace = t := by
    intro t ht
    cases t with
    | nil => rfl
    | cons c t => exact List.dropWhile_cons_of_neg (by simp [ht c List.mem_cons_self])
  rw [strip, keep s h, keep s.reverse fun c hc => h c (List.mem_reverse.mp hc),
    List.reverse_reverse]

end PyText
