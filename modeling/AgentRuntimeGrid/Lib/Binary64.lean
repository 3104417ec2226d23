import Mathlib.Data.Int.Log
import Mathlib.Data.Rat.Floor
import Mathlib.Tactic.Linarith
import Mathlib.Tactic.Positivity
import Mathlib.Tactic.Ring

/-! Products of an integer and a double, rounded to nearest with ties to even, as values. -/
namespace Binary64

/-- The nearest integer, of two the even one. -/
def roundHalfEven (q : ℚ) : ℤ :=
  if q - ⌊q⌋ < 1 / 2 ∨ (q - ⌊q⌋ = 1 / 2 ∧ ⌊q⌋ % 2 = 0) then ⌊q⌋ else ⌊q⌋ + 1

/-- The exponent of the last place of the doubles about `q`. -/
def lastPlace (q : ℚ) : ℤ := max (Int.log 2 |q| - 52) (-1074)

/-- The nearest double; `none` if it is not finite. -/
def round (q : ℚ) : Option ℚ :=
  let x : ℚ := roundHalfEven (q / 2 ^ lastPlace q) * 2 ^ lastPlace q
  if |x| < 2 ^ 1024 then some x else none

/-- `n * x` of an `int` and a `float`; `none` if one of the two roundings is not finite. -/
def intMul (n : ℤ) (x : ℚ) : Option ℚ := (round n).bind fun a => round (a * x)

/-- `int(x)`. -/
def toInt (x : ℚ) : ℤ := if 0 ≤ x then ⌊x⌋ else ⌈x⌉

theorem roundHalfEven_le (q : ℚ) : (roundHalfEven q : ℚ) ≤ q + 1 / 2 := by
  have hfloor := Int.floor_le q
  unfold roundHalfEven
  split_ifs with h
  · linarith
  · push_cast
    have hhalf := not_lt.mp fun hlt => h (.inl hlt)
    linarith

theorem roundHalfEven_nonneg {q : ℚ} (h : 0 ≤ q) : 0 ≤ roundHalfEven q := by
  have hfloor := Int.floor_nonneg.mpr h
  unfold roundHalfEven
  split_ifs <;> omega

theorem round_nonneg {q x : ℚ} (hq : 0 ≤ q) (h : round q = some x) : 0 ≤ x := by
  obtain rfl := Option.some.inj (Option.ite_none_right_eq_some.mp h).2
  have hpos : (0 : ℚ) < 2 ^ lastPlace q := zpow_pos two_pos _
  have hround := roundHalfEven_nonneg (div_nonneg hq hpos.le)
  exact mul_nonneg (by exact_mod_cast hround) hpos.le

/-- Rounding adds half a unit of the last place at most. -/
theorem round_le_add {q x : ℚ} (h : round q = some x) : x ≤ q + 2 ^ lastPlace q / 2 := by
  obtain rfl := Option.some.inj (Option.ite_none_right_eq_some.mp h).2
  have hpos : (0 : ℚ) < 2 ^ lastPlace q := zpow_pos two_pos _
  have hle := mul_le_mul_of_nonneg_right (roundHalfEven_le (q / 2 ^ lastPlace q)) hpos.le
  rw [add_mul, div_mul_cancel₀ _ hpos.ne'] at hle
  linarith

/-- From one on, the last place is a small part of the number. -/
theorem round_le {q x : ℚ} (hq : 1 ≤ q) (h : round q = some x) : x ≤ q + q / 2 ^ 53 := by
  have hlog : 0 ≤ Int.log 2 |q| := by
    rw [abs_of_pos (by linarith), Int.log_of_one_le_right _ hq]
    exact Int.natCast_nonneg _
  have hplace : lastPlace q = Int.log 2 |q| - 52 := by
    unfold lastPlace
    omega
  have hself := Int.zpow_log_le_self (b := 2) one_lt_two (abs_pos.mpr (by linarith : q ≠ 0))
  rw [abs_of_pos (by linarith : 0 < q)] at hself hplace
  have hle := round_le_add h
  rw [hplace, zpow_sub₀ two_ne_zero] at hle
  have hscaled : (2 : ℚ) ^ Int.log 2 q / 2 ^ (52 : ℤ) / 2 ≤ q / 2 ^ 53 := by
    rw [div_div, show (2 : ℚ) ^ (52 : ℤ) * 2 = 2 ^ 53 by norm_num]
    gcongr
    exact_mod_cast hself
  linarith

theorem round_lt_two {q x : ℚ} (hnonneg : 0 ≤ q) (hq : q < 1) (h : round q = some x) : x < 2 := by
  have hlog : Int.log 2 |q| ≤ 0 := by
    rw [abs_of_nonneg hnonneg, Int.log_of_right_le_one _ hq.le]
    omega
  have hplace : lastPlace q ≤ 0 := by
    unfold lastPlace
    omega
  have hunit : (2 : ℚ) ^ lastPlace q ≤ 1 := zpow_le_one_of_nonpos₀ one_le_two hplace
  have hle := round_le_add h
  linarith

/-- The product with a rate is no more than a little above the integer. -/
theorem intMul_bound {n : ℤ} {x p : ℚ} (hn : 1 ≤ n) (hx : 0 ≤ x) (hx' : x ≤ 1)
    (h : intMul n x = some p) : 0 ≤ p ∧ (p < 2 ∨ p ≤ n + n / 2 ^ 51) := by
  obtain ⟨a, ha, hp⟩ := Option.bind_eq_some_iff.mp h
  have hn : (1 : ℚ) ≤ n := by exact_mod_cast hn
  have ha0 := round_nonneg (by linarith) ha
  have haLe := round_le hn ha
  have hax : a * x ≤ a := mul_le_of_le_one_right ha0 hx'
  have hax0 := mul_nonneg ha0 hx
  refine ⟨round_nonneg hax0 hp, ?_⟩
  rcases lt_or_ge (a * x) 1 with hlt | hge
  · exact .inl (round_lt_two hax0 hlt hp)
  · right
    have hple := round_le hge hp
    linarith

theorem round_one : round 1 = some 1 := by
  have hplace : lastPlace 1 = -52 := by
    rw [lastPlace, abs_one, Int.log_one_right]
    rfl
  have hscaled : (1 : ℚ) / 2 ^ (-52 : ℤ) = (2 ^ 52 : ℤ) := by norm_num
  have hround : roundHalfEven ((2 ^ 52 : ℤ) : ℚ) = 2 ^ 52 := by
    rw [roundHalfEven, Int.floor_intCast, sub_self, if_pos (.inl (by norm_num))]
  have hone : ((2 ^ 52 : ℤ) : ℚ) * 2 ^ (-52 : ℤ) = 1 := by norm_num
  simp only [round, hplace, hscaled, hround, hone, abs_one]
  exact if_pos (one_lt_pow₀ one_lt_two (by decide))

theorem le_toInt {k : ℤ} {x : ℚ} (h : 0 ≤ x) : k ≤ toInt x ↔ (k : ℚ) ≤ x := by
  rw [toInt, if_pos h, Int.le_floor]

/-- As an integer, it exceeds the other by a small part of it. -/
theorem toInt_intMul_le {n : ℤ} {x p : ℚ} (hn : 1 ≤ n) (hx : 0 ≤ x) (hx' : x ≤ 1)
    (h : intMul n x = some p) : 2 ^ 51 * (toInt p - n) ≤ n := by
  obtain ⟨hp, hbound⟩ := intMul_bound hn hx hx' h
  have hle : (toInt p : ℚ) ≤ p := (le_toInt hp).mp le_rfl
  rcases hbound with hlt | hbound
  · have hone : toInt p < 2 := by exact_mod_cast hle.trans_lt hlt
    omega
  · have hcast : (2 : ℚ) ^ 51 * (toInt p - n) ≤ n := by linarith
    exact_mod_cast hcast

theorem le_roundHalfEven (q : ℚ) : q - 1 / 2 ≤ roundHalfEven q := by
  have hfloor := Int.lt_floor_add_one q
  unfold roundHalfEven
  split_ifs with h
  · rcases h with hlt | ⟨heq, -⟩ <;> linarith
  · push_cast
    linarith

/-- An integer below a number stays below it, and one above stays above. -/
theorem intCast_le_roundHalfEven {k : ℤ} {q : ℚ} (h : (k : ℚ) ≤ q) : k ≤ roundHalfEven q := by
  have hk := Int.le_floor.mpr h
  unfold roundHalfEven
  split_ifs <;> omega

theorem roundHalfEven_le_intCast {k : ℤ} {q : ℚ} (h : q ≤ k) : roundHalfEven q ≤ k := by
  have hfloor := Int.floor_le q
  have hk : ⌊q⌋ ≤ k := by exact_mod_cast hfloor.trans h
  unfold roundHalfEven
  split_ifs with hdown
  · exact hk
  · have hne : ⌊q⌋ ≠ k := by
      intro heq
      have hq : q = ⌊q⌋ := le_antisymm (heq ▸ h) hfloor
      exact hdown (.inl (by linarith))
    omega

theorem roundHalfEven_intCast (k : ℤ) : roundHalfEven k = k :=
  le_antisymm (roundHalfEven_le_intCast le_rfl) (intCast_le_roundHalfEven le_rfl)

theorem roundHalfEven_mono {q q' : ℚ} (h : q ≤ q') : roundHalfEven q ≤ roundHalfEven q' := by
  rcases (Int.floor_mono h).lt_or_eq with hlt | heq
  · calc roundHalfEven q ≤ ⌊q⌋ + 1 := by
          apply roundHalfEven_le_intCast
          push_cast
          exact (Int.lt_floor_add_one q).le
      _ ≤ ⌊q'⌋ := hlt
      _ ≤ roundHalfEven q' := intCast_le_roundHalfEven (Int.floor_le q')
  · unfold roundHalfEven
    rw [← heq]
    split_ifs with hdown hdown' hdown'
    · exact le_rfl
    · omega
    · -- the smaller of the two fractions cannot be the one that goes up
      exfalso
      apply hdown
      rcases hdown' with hlt | ⟨hhalf, heven⟩
      · exact .inl (by linarith)
      · rcases h.lt_or_eq with hlt | rfl
        · exact .inl (by linarith)
        · exact .inr ⟨hhalf, heven⟩
    · exact le_rfl

/-- The nearest double, with no bound on its exponent. -/
def nearest (q : ℚ) : ℚ := roundHalfEven (q / 2 ^ lastPlace q) * 2 ^ lastPlace q

theorem round_eq (q : ℚ) : round q = if |nearest q| < 2 ^ 1024 then some (nearest q) else none :=
  rfl

theorem nearest_nonneg {q : ℚ} (h : 0 ≤ q) : 0 ≤ nearest q := by
  have hpos : (0 : ℚ) < 2 ^ lastPlace q := zpow_pos two_pos _
  have hround := roundHalfEven_nonneg (div_nonneg h hpos.le)
  exact mul_nonneg (by exact_mod_cast hround) hpos.le

/-- A multiple of the last place is a double itself. -/
theorem nearest_of_multiple {q : ℚ} (k : ℤ) (h : q = k * 2 ^ lastPlace q) : nearest q = q := by
  have hpos : (0 : ℚ) < 2 ^ lastPlace q := zpow_pos two_pos _
  have hscaled : q / 2 ^ lastPlace q = k := (div_eq_iff hpos.ne').mpr h
  unfold nearest
  rw [hscaled, roundHalfEven_intCast]
  exact h.symm

theorem nearest_zero : nearest 0 = 0 := nearest_of_multiple 0 (by simp)

/-- The naturals below `2 ^ 53` are doubles. -/
theorem nearest_natCast {n : ℕ} (h : n < 2 ^ 53) : nearest n = n := by
  rcases Nat.eq_zero_or_pos n with rfl | hpos
  · exact_mod_cast nearest_zero
  have hlog : Int.log 2 |(n : ℚ)| < 53 := by
    have hn : (0 : ℚ) < n := by exact_mod_cast hpos
    rw [abs_of_pos hn, ← Int.lt_zpow_iff_log_lt (by decide) hn]
    exact_mod_cast h
  obtain ⟨t, ht⟩ : ∃ t : ℕ, lastPlace n = -t := by
    refine ⟨(-lastPlace n).toNat, ?_⟩
    unfold lastPlace
    omega
  apply nearest_of_multiple (n * 2 ^ t)
  rw [ht]
  push_cast
  rw [mul_assoc, zpow_neg, zpow_natCast, mul_inv_cancel₀ (by positivity), mul_one]

theorem lastPlace_mono {q q' : ℚ} (hq : 0 < q) (h : q ≤ q') : lastPlace q ≤ lastPlace q' := by
  unfold lastPlace
  rw [abs_of_pos hq, abs_of_pos (hq.trans_le h)]
  have := Int.log_mono_right (b := 2) hq h
  omega

/-- Rounding keeps the order: within one binade because the scaled numbers do, across binades
because a power of two lies between. -/
theorem nearest_mono {q q' : ℚ} (hq : 0 ≤ q) (h : q ≤ q') : nearest q ≤ nearest q' := by
  rcases hq.eq_or_lt with rfl | hq
  · rw [nearest_zero]
    exact nearest_nonneg h
  have hpos : (0 : ℚ) < 2 ^ lastPlace q := zpow_pos two_pos _
  have hpos' : (0 : ℚ) < 2 ^ lastPlace q' := zpow_pos two_pos _
  rcases (lastPlace_mono hq h).eq_or_lt with heq | hlt
  · unfold nearest
    rw [← heq]
    have hround := roundHalfEven_mono (div_le_div_of_nonneg_right h hpos.le)
    exact mul_le_mul_of_nonneg_right (by exact_mod_cast hround) hpos.le
  · have hq' := hq.trans_le h
    have hplace : lastPlace q' = Int.log 2 q' - 52 := by
      unfold lastPlace at hlt ⊢
      rw [abs_of_pos hq'] at hlt ⊢
      omega
    have hlog : Int.log 2 q < Int.log 2 q' := by
      unfold lastPlace at hlt
      rw [abs_of_pos hq, abs_of_pos hq'] at hlt
      omega
    have hbelow : q ≤ 2 ^ Int.log 2 q' := by
      have hlt := Int.lt_zpow_succ_log_self (R := ℚ) (b := 2) (by decide) q
      refine hlt.le.trans ?_
      exact_mod_cast zpow_le_zpow_right₀ (a := (2 : ℚ)) one_le_two (by omega)
    have habove : (2 : ℚ) ^ Int.log 2 q' ≤ q' := by
      exact_mod_cast Int.zpow_log_le_self (b := 2) (by decide) hq'
    obtain ⟨t, ht⟩ : ∃ t : ℕ, Int.log 2 q' = t + lastPlace q :=
      ⟨(Int.log 2 q' - lastPlace q).toNat, by omega⟩
    have hpower : (2 : ℚ) ^ Int.log 2 q' = ((2 ^ t : ℤ) : ℚ) * 2 ^ lastPlace q := by
      rw [ht, zpow_add₀ two_ne_zero, zpow_natCast]
      push_cast
      rfl
    have hpower' : (2 : ℚ) ^ Int.log 2 q' = ((2 ^ 52 : ℤ) : ℚ) * 2 ^ lastPlace q' := by
      rw [hplace, zpow_sub₀ two_ne_zero]
      push_cast
      field_simp
    have hle : roundHalfEven (q / 2 ^ lastPlace q) ≤ 2 ^ t := by
      apply roundHalfEven_le_intCast
      rw [div_le_iff₀ hpos, ← hpower]
      exact hbelow
    have hge : (2 : ℤ) ^ 52 ≤ roundHalfEven (q' / 2 ^ lastPlace q') := by
      apply intCast_le_roundHalfEven
      rw [le_div_iff₀ hpos', ← hpower']
      exact habove
    calc nearest q ≤ ((2 ^ t : ℤ) : ℚ) * 2 ^ lastPlace q :=
          mul_le_mul_of_nonneg_right (by exact_mod_cast hle) hpos.le
      _ = ((2 ^ 52 : ℤ) : ℚ) * 2 ^ lastPlace q' := by rw [← hpower, hpower']
      _ ≤ nearest q' := mul_le_mul_of_nonneg_right (by exact_mod_cast hge) hpos'.le

theorem abs_nearest_le (q : ℚ) : |nearest q| ≤ |q| + 2 ^ lastPlace q / 2 := by
  have hpos : (0 : ℚ) < 2 ^ lastPlace q := zpow_pos two_pos _
  have hup := mul_le_mul_of_nonneg_right (roundHalfEven_le (q / 2 ^ lastPlace q)) hpos.le
  have hdown := mul_le_mul_of_nonneg_right (le_roundHalfEven (q / 2 ^ lastPlace q)) hpos.le
  rw [add_mul, div_mul_cancel₀ _ hpos.ne'] at hup
  rw [sub_mul, div_mul_cancel₀ _ hpos.ne'] at hdown
  have hself := le_abs_self q
  have hneg := neg_abs_le q
  unfold nearest
  rw [abs_le]
  exact ⟨by linarith, by linarith⟩

/-- A number of an ordinary size has a nearest double. -/
theorem round_eq_some {q : ℚ} {k : ℕ} (hk : k < 1023) (h : |q| ≤ 2 ^ k) :
    round q = some (nearest q) := by
  have hlog : Int.log 2 |q| ≤ k := by
    rcases (abs_nonneg q).eq_or_lt with hzero | hpos
    · rw [← hzero, Int.log_zero_right]
      omega
    · have hmono := Int.log_mono_right (b := 2) hpos h
      have hpow : Int.log 2 ((2 : ℚ) ^ k) = k := by
        exact_mod_cast Int.log_zpow (R := ℚ) (b := 2) (by decide) k
      omega
  have hplace : lastPlace q ≤ k := by
    unfold lastPlace
    omega
  have hunit : (2 : ℚ) ^ lastPlace q ≤ 2 ^ k := by
    exact_mod_cast zpow_le_zpow_right₀ (a := (2 : ℚ)) one_le_two hplace
  have hnearest := abs_nearest_le q
  have hpos : (0 : ℚ) < 2 ^ k := by positivity
  have hle : |nearest q| ≤ 2 ^ (k + 1) := by
    rw [pow_succ]
    linarith
  rw [round_eq, if_pos]
  exact hle.trans_lt (pow_lt_pow_right₀ one_lt_two (by omega))

/-- The last place of a positive number below `2 ^ k`. -/
theorem lastPlace_le {q : ℚ} {k : ℤ} (hk : -1021 ≤ k) (hq : 0 < q) (h : q < 2 ^ k) :
    lastPlace q ≤ k - 53 := by
  have hlog : Int.log 2 q < k := by
    rw [← Int.lt_zpow_iff_log_lt (by decide) hq]
    exact_mod_cast h
  unfold lastPlace
  rw [abs_of_pos hq]
  omega

/-- A positive number is below `2 ^ 53` of its last places. -/
theorem lt_mul_lastPlace {q : ℚ} (hq : 0 < q) : q < 2 ^ 53 * 2 ^ lastPlace q := by
  have hlt : q < 2 ^ (Int.log 2 q + 1) := by
    exact_mod_cast Int.lt_zpow_succ_log_self (R := ℚ) (b := 2) (by decide) q
  have hplace : Int.log 2 q + 1 ≤ 53 + lastPlace q := by
    unfold lastPlace
    rw [abs_of_pos hq]
    omega
  refine hlt.trans_le ((zpow_le_zpow_right₀ one_le_two hplace).trans (le_of_eq ?_))
  rw [zpow_add₀ two_ne_zero]
  rfl

/-- The integer part survives rounding when the number is more than half of the last place away
from the next integer, and no further than that below its own. -/
theorem floor_nearest {q : ℚ} {m : ℤ} (hplace : lastPlace q ≤ 0)
    (hlow : m - 2 ^ lastPlace q / 2 < q) (hhigh : q + 2 ^ lastPlace q / 2 < m + 1) :
    ⌊nearest q⌋ = m := by
  obtain ⟨t, ht⟩ : ∃ t : ℕ, lastPlace q = -t := ⟨(-lastPlace q).toNat, by omega⟩
  have hpos : (0 : ℚ) < 2 ^ t := by positivity
  have hunit : (2 : ℚ) ^ lastPlace q = 1 / 2 ^ t := by
    rw [ht, zpow_neg, zpow_natCast, one_div]
  have hscaled : q / 2 ^ lastPlace q = q * 2 ^ t := by rw [hunit, div_div_eq_mul_div, div_one]
  have hlow' : (m : ℚ) * 2 ^ t - 1 / 2 < q * 2 ^ t := by
    have := mul_lt_mul_of_pos_right hlow hpos
    rw [hunit] at this
    field_simp at this ⊢
    linarith
  have hhigh' : q * 2 ^ t + 1 / 2 < (m + 1 : ℚ) * 2 ^ t := by
    have := mul_lt_mul_of_pos_right hhigh hpos
    rw [hunit] at this
    field_simp at this ⊢
    linarith
  have hge : m * 2 ^ t ≤ roundHalfEven (q * 2 ^ t) := by
    have hround := le_roundHalfEven (q * 2 ^ t)
    have hlt : ((m * 2 ^ t - 1 : ℤ) : ℚ) < roundHalfEven (q * 2 ^ t) := by
      push_cast
      linarith
    have := Int.cast_lt.mp hlt
    omega
  have hlt : roundHalfEven (q * 2 ^ t) < (m + 1) * 2 ^ t := by
    have hround := roundHalfEven_le (q * 2 ^ t)
    have hlt : (roundHalfEven (q * 2 ^ t) : ℚ) < ((m + 1) * 2 ^ t : ℤ) := by
      push_cast
      linarith
    exact Int.cast_lt.mp hlt
  unfold nearest
  rw [hscaled, hunit, Int.floor_eq_iff, ← mul_div_assoc, mul_one, le_div_iff₀ hpos,
    div_lt_iff₀ hpos]
  exact ⟨by exact_mod_cast hge, by exact_mod_cast hlt⟩

end Binary64
