import AgentRuntimeGrid.Lib.Binary64
import AgentRuntimeGrid.Lib.OrderStatistics
import Mathlib.Tactic.IntervalCases

/-! The percentile that the queue inspection and the smoke report take of their durations: the
entry at a truncated index of the sorted list. -/
namespace AgentRuntimeGrid

/-- The literal `0.95`. -/
def p95Fraction : ℚ := 4278419646001971 / 2 ^ 52

/-- `int((n - 1) * fraction)` for the length of a non-empty list. -/
def truncatedIndex (fraction : ℚ) (n : ℕ) : Option ℕ :=
  (Binary64.intMul ((n : ℤ) - 1) fraction).map fun x => (Binary64.toInt x).toNat

/-- The entry of a list at the truncated index of its sorted copy, zero for an empty list; `none`
if it raises. -/
def truncatedPercentile (fraction : ℚ) (values : List ℚ) : Option ℚ :=
  if values = [] then some 0
  else do
    let sortedValues := values.insertionSort (· ≤ ·)
    let index ← truncatedIndex fraction sortedValues.length
    sortedValues[index]?

/-- `_p95` of `queue/inspection.py`. -/
def Inspection.p95 : List ℚ → Option ℚ := truncatedPercentile p95Fraction

/-- `_p95` of `cli/smoke.py`. -/
def Smoke.p95 : List ℚ → Option ℚ := truncatedPercentile p95Fraction

/-- `(n - 1) * 0.95` falls short of nineteen twentieths by less than half of the last place. -/
theorem floor_nearest_p95 {N : ℕ} (hN : N < 2 ^ 49) :
    ⌊Binary64.nearest (N * p95Fraction)⌋ = ((19 * N / 20 : ℕ) : ℤ) := by
  rcases Nat.eq_zero_or_pos N with rfl | hpos
  · rw [Nat.cast_zero, zero_mul, Binary64.nearest_zero]
    rfl
  have hpos : (0 : ℚ) < N := by exact_mod_cast hpos
  have hlt : (N : ℚ) < 2 ^ 49 := by exact_mod_cast hN
  have hproduct : N * p95Fraction = 19 / 20 * N - 2 / 5 * N / 2 ^ 53 := by
    unfold p95Fraction
    ring
  have hproduct0 : 0 < N * p95Fraction := mul_pos hpos (by norm_num [p95Fraction])
  have hproduct1 : N * p95Fraction < 2 ^ (49 : ℤ) := by
    refine (mul_le_of_le_one_right hpos.le ?_).trans_lt hlt
    norm_num [p95Fraction]
  have hplace := Binary64.lastPlace_le (by decide) hproduct0 hproduct1
  have hunit : (2 : ℚ) ^ Binary64.lastPlace (N * p95Fraction) ≤ 1 / 16 := by
    refine (zpow_le_zpow_right₀ one_le_two hplace).trans (le_of_eq ?_)
    norm_num
  have hshort := Binary64.lt_mul_lastPlace hproduct0
  obtain ⟨m, hm⟩ : ∃ m, m = 19 * N / 20 := ⟨_, rfl⟩
  rw [← hm]
  have hlow : (20 : ℚ) * m ≤ 19 * N := by exact_mod_cast (by omega : 20 * m ≤ 19 * N)
  have hhigh : (19 : ℚ) * N + 1 ≤ 20 * m + 20 := by
    exact_mod_cast (by omega : 19 * N + 1 ≤ 20 * m + 20)
  apply Binary64.floor_nearest (by omega)
  · rw [Int.cast_natCast]
    linarith
  · rw [Int.cast_natCast]
    linarith

/-- Up to this length the truncated product is the integer part of nineteen twentieths. -/
theorem truncatedIndex_p95 {n : ℕ} (hpos : 0 < n) (hn : n ≤ 2 ^ 49) :
    truncatedIndex p95Fraction n = some (19 * (n - 1) / 20) := by
  obtain ⟨N, rfl⟩ : ∃ N, n = N + 1 := ⟨n - 1, by omega⟩
  have hN0 : (0 : ℚ) ≤ N := N.cast_nonneg
  have hN : (N : ℚ) ≤ 2 ^ 49 := by exact_mod_cast (by omega : N ≤ 2 ^ 49)
  have hfraction : 0 ≤ p95Fraction ∧ p95Fraction ≤ 1 := by norm_num [p95Fraction]
  have hproduct0 : 0 ≤ N * p95Fraction := mul_nonneg hN0 hfraction.1
  have hproduct : |N * p95Fraction| ≤ 2 ^ 49 := by
    rw [abs_of_nonneg hproduct0]
    exact (mul_le_of_le_one_right hN0 hfraction.2).trans hN
  have hlength : Binary64.round ((N + 1 : ℕ) - 1 : ℤ) = some (N : ℚ) := by
    push_cast
    rw [add_sub_cancel_right,
      Binary64.round_eq_some (by decide : 49 < 1023) (by rwa [abs_of_nonneg hN0]),
      Binary64.nearest_natCast (by omega)]
  unfold truncatedIndex Binary64.intMul
  rw [hlength, Option.bind_some, Binary64.round_eq_some (by decide : 49 < 1023) hproduct,
    Option.map_some, Binary64.toInt, if_pos (Binary64.nearest_nonneg hproduct0),
    floor_nearest_p95 (by omega), Int.toNat_natCast]
  rfl

theorem truncatedPercentile_eq {fraction : ℚ} {values : List ℚ} (hne : values ≠ []) :
    truncatedPercentile fraction values =
      (truncatedIndex fraction values.length).bind fun index =>
        (values.insertionSort (· ≤ ·))[index]? := by
  unfold truncatedPercentile
  rw [if_neg hne]
  simp only [List.length_insertionSort]
  rfl

/-- The product stays below the length, so the index is one of the list's. -/
theorem truncatedIndex_p95_lt {n : ℕ} (hpos : 0 < n) (hn : n ≤ 2 ^ 63) :
    ∃ index, truncatedIndex p95Fraction n = some index ∧ index < n := by
  obtain ⟨N, rfl⟩ : ∃ N, n = N + 1 := ⟨n - 1, by omega⟩
  have hN0 : (0 : ℚ) ≤ N := N.cast_nonneg
  have hN : (N : ℚ) ≤ 2 ^ 63 := by exact_mod_cast (by omega : N ≤ 2 ^ 63)
  have hlength : Binary64.round ((N + 1 : ℕ) - 1 : ℤ) = some (Binary64.nearest N) := by
    push_cast
    rw [add_sub_cancel_right,
      Binary64.round_eq_some (by decide : 63 < 1023) (by rwa [abs_of_nonneg hN0])]
  set a := Binary64.nearest N with ha
  have ha0 : 0 ≤ a := Binary64.nearest_nonneg hN0
  have haLe : a ≤ N + N / 2 ^ 53 := by
    rcases Nat.eq_zero_or_pos N with rfl | hpos
    · rw [ha, Nat.cast_zero, Binary64.nearest_zero]
      norm_num
    · refine Binary64.round_le (by exact_mod_cast hpos) ?_
      rw [Binary64.round_eq_some (by decide : 63 < 1023) (by rwa [abs_of_nonneg hN0])]
  have hproduct0 : 0 ≤ a * p95Fraction := mul_nonneg ha0 (by norm_num [p95Fraction])
  have hproduct : a * p95Fraction ≤ 19 / 20 * (N + N / 2 ^ 53) := by
    unfold p95Fraction
    linarith
  have hround : Binary64.round (a * p95Fraction) = some (Binary64.nearest (a * p95Fraction)) := by
    apply Binary64.round_eq_some (by decide : 64 < 1023)
    rw [abs_of_nonneg hproduct0]
    linarith
  have hx0 := Binary64.nearest_nonneg hproduct0
  set x := Binary64.nearest (a * p95Fraction) with hx
  have hxlt : x < N + 1 := by
    rcases Nat.eq_zero_or_pos N with rfl | hpos
    · rw [hx, ha, Nat.cast_zero, Binary64.nearest_zero, zero_mul, Binary64.nearest_zero]
      norm_num
    · have hN1 : (1 : ℚ) ≤ N := by exact_mod_cast hpos
      rcases lt_or_ge (a * p95Fraction) 1 with hlt | hge
      · have := Binary64.round_lt_two hproduct0 hlt hround
        linarith
      · have := Binary64.round_le hge hround
        linarith
  have hfloor : Binary64.toInt x < N + 1 := by
    rw [Binary64.toInt, if_pos hx0, Int.floor_lt]
    exact_mod_cast hxlt
  refine ⟨(Binary64.toInt x).toNat, ?_, by omega⟩
  unfold truncatedIndex Binary64.intMul
  rw [hlength, Option.bind_some, hround, Option.map_some]

/-- A value is reported for every list of a length that a machine can hold. -/
theorem truncatedPercentile_isSome {values : List ℚ} (h : values.length ≤ 2 ^ 63) :
    ∃ v, truncatedPercentile p95Fraction values = some v := by
  rcases eq_or_ne values [] with rfl | hne
  · exact ⟨0, rfl⟩
  · obtain ⟨index, hindex, hlt⟩ := truncatedIndex_p95_lt (List.length_pos_iff.mpr hne) h
    rw [← List.length_insertionSort (· ≤ ·) values] at hlt
    rw [truncatedPercentile_eq hne, hindex, Option.bind_some, List.getElem?_eq_getElem hlt]
    exact ⟨_, rfl⟩

/-- The value reported for the list is a 95th percentile of it: an entry, whatever the order of
the list, that at least 95 percent of the entries do not exceed. -/
def ReportsPercentile (p95 : List ℚ → Option ℚ) (values : List ℚ) : Prop :=
  ∃ v, p95 values = some v ∧ v ∈ values ∧
    (∀ values' : List ℚ, values'.Perm values → p95 values' = some v) ∧
    95 * values.length ≤ 100 * values.countP (· ≤ v)

/-- When the truncated rank reaches far enough: the length leaves a remainder of zero or one by
twenty, or the next rank holds an equal entry. In lists so long that the product with `0.95` is
itself rounded, when the entry at the rounded product is no smaller than the one required. -/
def RankSuffices (values : List ℚ) : Prop :=
  let sorted := values.insertionSort (· ≤ ·)
  if values.length ≤ 2 ^ 49 then
    values.length % 20 ≤ 1 ∨
      sorted[19 * (values.length - 1) / 20]? = sorted[19 * (values.length - 1) / 20 + 1]?
  else
    ∃ product, Binary64.intMul ((values.length : ℤ) - 1) p95Fraction = some product ∧
      ∃ v ∈ sorted[(Binary64.toInt product).toNat]?,
        ∃ required ∈ sorted[(19 * values.length + 19) / 20 - 1]?, required ≤ v

/-- Only the multiset of the values counts. -/
theorem truncatedPercentile_perm {fraction : ℚ} {values values' : List ℚ}
    (h : values'.Perm values) :
    truncatedPercentile fraction values' = truncatedPercentile fraction values := by
  rcases eq_or_ne values [] with rfl | hne
  · rw [h.eq_nil]
  · have hne' : values' ≠ [] := fun hnil => hne (h.symm.trans (hnil ▸ List.Perm.refl _)).eq_nil
    rw [truncatedPercentile_eq hne, truncatedPercentile_eq hne', h.length_eq,
      OrderStatistics.insertionSort_eq_of_perm h]

/-- At least 95 percent of the entries do not exceed `v` when the entry of the required rank does
not. -/
theorem covered_iff {values : List ℚ} (hne : values ≠ []) (v : ℚ) :
    95 * values.length ≤ 100 * values.countP (· ≤ v) ↔
      ∃ required ∈ (values.insertionSort (· ≤ ·))[(19 * values.length + 19) / 20 - 1]?,
        required ≤ v := by
  have hpos := List.length_pos_iff.mpr hne
  have hlength := List.length_insertionSort (· ≤ ·) values
  have hk : (19 * values.length + 19) / 20 - 1 < (values.insertionSort (· ≤ ·)).length := by omega
  have hcount := OrderStatistics.lt_countP_le_iff (List.pairwise_insertionSort (· ≤ ·) values) hk v
  rw [(List.perm_insertionSort (· ≤ ·) values).countP_eq] at hcount
  rw [List.getElem?_eq_getElem hk]
  simp only [Option.mem_def, Option.some.injEq, exists_eq_left', ← hcount]
  omega

/-- The helper reports a percentile when its entry is no smaller than the required one. -/
theorem reportsPercentile_iff {values : List ℚ} (hne : values ≠ []) :
    ReportsPercentile (truncatedPercentile p95Fraction) values ↔
      ∃ v ∈ truncatedPercentile p95Fraction values,
        ∃ required ∈ (values.insertionSort (· ≤ ·))[(19 * values.length + 19) / 20 - 1]?,
          required ≤ v := by
  unfold ReportsPercentile
  simp only [covered_iff hne, Option.mem_def]
  constructor
  · rintro ⟨v, hv, -, -, hcovered⟩
    exact ⟨v, hv, hcovered⟩
  · rintro ⟨v, hv, hcovered⟩
    refine ⟨v, hv, ?_, fun values' h => (truncatedPercentile_perm h).trans hv, hcovered⟩
    rw [truncatedPercentile_eq hne] at hv
    obtain ⟨index, -, hindex⟩ := Option.bind_eq_some_iff.mp hv
    exact (List.mem_insertionSort _).mp (List.mem_of_getElem? hindex)

/-- The truncated rank is the required one or the one before it. -/
theorem required_rank {n : ℕ} (hpos : 0 < n) :
    (19 * n + 19) / 20 - 1 = 19 * (n - 1) / 20 + if n % 20 ≤ 1 then 0 else 1 := by
  obtain ⟨a, r, hr, rfl⟩ : ∃ a r, r < 20 ∧ n = 20 * a + r :=
    ⟨n / 20, n % 20, Nat.mod_lt _ (by decide), (Nat.div_add_mod n 20).symm⟩
  rw [Nat.mul_add_mod, Nat.mod_eq_of_lt hr]
  split <;> interval_cases r <;> omega

/-- The helper reports a percentile exactly when its rank suffices. -/
theorem rankSuffices_iff {values : List ℚ} (hne : values ≠ []) :
    ReportsPercentile (truncatedPercentile p95Fraction) values ↔ RankSuffices values := by
  have hpos := List.length_pos_iff.mpr hne
  have hlength := List.length_insertionSort (· ≤ ·) values
  have hsorted := List.pairwise_insertionSort (· ≤ ·) values
  rw [reportsPercentile_iff hne, truncatedPercentile_eq hne]
  unfold RankSuffices
  set sorted := values.insertionSort (· ≤ ·) with hdef
  simp only
  split
  next hshort =>
    rw [truncatedIndex_p95 hpos hshort, Option.bind_some]
    have hi : 19 * (values.length - 1) / 20 < sorted.length := by omega
    have hj : (19 * values.length + 19) / 20 - 1 < sorted.length := by omega
    simp only [List.getElem?_eq_getElem hi, List.getElem?_eq_getElem hj, Option.mem_def,
      Option.some.injEq, exists_eq_left']
    rcases le_or_gt (values.length % 20) 1 with hmod | hmod
    · have heq := required_rank hpos
      simp only [if_pos hmod, Nat.add_zero] at heq
      simp only [heq, le_refl, hmod, true_or]
    · have heq := required_rank hpos
      rw [if_neg (not_le.mpr hmod)] at heq
      have hnext : 19 * (values.length - 1) / 20 + 1 < sorted.length := by omega
      have hle := OrderStatistics.getElem_le_getElem hsorted (Nat.le_succ _) hnext
      simp only [heq, List.getElem?_eq_getElem hnext, Option.some.injEq, not_le.mpr hmod, false_or]
      exact ⟨fun hge => le_antisymm hle hge, fun h => h.ge⟩
  next hlong =>
    unfold truncatedIndex
    simp only [Option.bind_map, Option.mem_def, Option.bind_eq_some_iff, Function.comp_apply]
    constructor
    · rintro ⟨v, ⟨product, hproduct, hv⟩, hrequired⟩
      exact ⟨product, hproduct, v, hv, hrequired⟩
    · rintro ⟨product, hproduct, v, hv, hrequired⟩
      exact ⟨v, ⟨product, hproduct, hv⟩, hrequired⟩

/-- Both helpers report a 95th percentile of a list exactly when the truncated rank suffices. -/
theorem p95_reportsPercentile_iff {values : List ℚ} (hne : values ≠ []) :
    (ReportsPercentile Inspection.p95 values ↔ RankSuffices values) ∧
      (ReportsPercentile Smoke.p95 values ↔ RankSuffices values) :=
  ⟨rankSuffices_iff hne, rankSuffices_iff hne⟩

theorem p95_reportsPercentile_of_three :
    ReportsPercentile Inspection.p95 [9, 1, 9] ∧ ReportsPercentile Smoke.p95 [9, 1, 9] := by
  have hranks : RankSuffices [9, 1, 9] := by
    norm_num [RankSuffices]
  have h := p95_reportsPercentile_iff (List.cons_ne_nil (9 : ℚ) [1, 9])
  exact ⟨h.1.mpr hranks, h.2.mpr hranks⟩

/-- Of two durations the smaller one is reported. -/
theorem p95_of_two :
    Inspection.p95 [1, 100] = some 1 ∧ ¬ReportsPercentile Inspection.p95 [1, 100] ∧
      ¬ReportsPercentile Smoke.p95 [1, 100] := by
  have hsort : [(1 : ℚ), 100].insertionSort (· ≤ ·) = [1, 100] := by norm_num
  have hvalue : truncatedPercentile p95Fraction [1, 100] = some 1 := by
    rw [truncatedPercentile_eq (List.cons_ne_nil _ _), hsort,
      truncatedIndex_p95 (by decide) (by decide)]
    rfl
  have hnot : ¬ReportsPercentile (truncatedPercentile p95Fraction) [1, 100] := by
    rintro ⟨v, hv, -, -, hcovered⟩
    obtain rfl := Option.some.inj (hvalue.symm.trans hv)
    norm_num at hcovered
  exact ⟨hvalue, hnot, hnot⟩

end AgentRuntimeGrid
