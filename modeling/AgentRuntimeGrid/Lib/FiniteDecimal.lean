import AgentRuntimeGrid.Lib.Digits
import Mathlib.Algebra.Order.Field.Power
import Mathlib.Algebra.Order.Field.Rat
import Mathlib.Tactic.Ring

/-! Finite values of `decimal.Decimal`, with addition taken as exact. Two of them can be equal as
numbers and differ in their digits. -/

structure FiniteDecimal where
  negative : Bool
  coefficient : ℕ
  exponent : ℤ
  deriving DecidableEq

namespace FiniteDecimal

/-- `Decimal("0")`. -/
def zero : FiniteDecimal := ⟨false, 0, 0⟩

/-- The value in units of `10 ^ e`, for an exponent `e` no larger than that of the value. -/
def units (d : FiniteDecimal) (e : ℤ) : ℤ :=
  (if d.negative then -1 else 1) * d.coefficient * 10 ^ (d.exponent - e).toNat

def toRat (d : FiniteDecimal) : ℚ :=
  (if d.negative then -1 else 1) * d.coefficient * 10 ^ d.exponent

/-- `a + b`, in units of the smaller exponent; a zero is negative if both summands are. -/
def add (a b : FiniteDecimal) : FiniteDecimal :=
  let e := min a.exponent b.exponent
  let n := a.units e + b.units e
  ⟨if n = 0 then a.negative && b.negative else n < 0, n.natAbs, e⟩

/-- `a < b`. -/
def lt (a b : FiniteDecimal) : Bool :=
  let e := min a.exponent b.exponent
  a.units e < b.units e

theorem toRat_eq_units (d : FiniteDecimal) {e : ℤ} (h : e ≤ d.exponent) :
    d.toRat = d.units e * 10 ^ e := by
  have hexponent : d.exponent = (d.exponent - e).toNat + e := by omega
  have hpow : (10 : ℚ) ^ d.exponent = 10 ^ (d.exponent - e).toNat * 10 ^ e := by
    conv_lhs => rw [hexponent]
    rw [zpow_add₀ (by norm_num), zpow_natCast]
  rw [toRat, units, hpow]
  push_cast
  ring

theorem toRat_nonneg {d : FiniteDecimal} (h : d.negative = false) : 0 ≤ d.toRat := by
  have hpow : (0 : ℚ) ≤ 10 ^ d.exponent := zpow_nonneg (by norm_num) _
  simp only [toRat, h, Bool.false_eq_true, if_false, one_mul]
  exact mul_nonneg (Nat.cast_nonneg _) hpow

@[simp] theorem toRat_zero : zero.toRat = 0 := by simp [toRat, zero]

@[simp] theorem toRat_add (a b : FiniteDecimal) : (a.add b).toRat = a.toRat + b.toRat := by
  have ha := a.toRat_eq_units (min_le_left a.exponent b.exponent)
  have hb := b.toRat_eq_units (min_le_right a.exponent b.exponent)
  rw [ha, hb, ← add_mul, ← Int.cast_add]
  rw [toRat, add]
  generalize a.units (min a.exponent b.exponent) + b.units (min a.exponent b.exponent) = n
  congr 1
  by_cases hn : n < 0
  · have hne : n ≠ 0 := by omega
    have habs : (n.natAbs : ℤ) = -n := by omega
    simp only [hne, hn, if_false, decide_true, if_true]
    rw [← Int.cast_natCast n.natAbs, habs]
    push_cast
    ring
  · have habs : (n.natAbs : ℤ) = n := by omega
    by_cases hzero : n = 0
    · simp [hzero]
    · simp only [hzero, hn, if_false, decide_false, Bool.false_eq_true]
      rw [← Int.cast_natCast n.natAbs, habs, one_mul]

theorem lt_iff {a b : FiniteDecimal} : a.lt b = true ↔ a.toRat < b.toRat := by
  have ha := a.toRat_eq_units (min_le_left a.exponent b.exponent)
  have hb := b.toRat_eq_units (min_le_right a.exponent b.exponent)
  have hpos : (0 : ℚ) < 10 ^ min a.exponent b.exponent := by positivity
  rw [ha, hb, mul_lt_mul_iff_of_pos_right hpos, Int.cast_lt, lt, decide_eq_true_eq]

section Text
open PyText

/-- The digits with the point after so many of them, zeros filled in on either side. -/
def mantissa (ds : PyStr) (dotPlace : ℤ) : PyStr :=
  if dotPlace ≤ 0 then [48, 46] ++ List.replicate (-dotPlace).toNat 48 ++ ds
  else if ds.length ≤ dotPlace then ds ++ List.replicate (dotPlace - ds.length).toNat 48
  else ds.take dotPlace.toNat ++ [46] ++ ds.drop dotPlace.toNat

/-- `"E%+d" % n`. -/
def exponentText (n : ℤ) : PyStr := 69 :: (if n < 0 then 45 else 43) :: digits n.natAbs

/-- What `str(d)` writes behind the sign. -/
def magnitudeText (d : FiniteDecimal) : PyStr :=
  let ds := digits d.coefficient
  let leftDigits := d.exponent + ds.length
  let dotPlace := if d.exponent ≤ 0 ∧ -6 < leftDigits then leftDigits else 1
  mantissa ds dotPlace ++
    if leftDigits = dotPlace then [] else exponentText (leftDigits - dotPlace)

/-- The digits after an exponent's sign. -/
def readDigits (s : PyStr) : Option ℕ :=
  if s ≠ [] ∧ s.all isDigit then some (ofDigits s) else none

def readExponent : PyStr → Option ℤ
  | [] => some 0
  | c :: s =>
    if c ≠ 69 ∧ c ≠ 101 then none
    else match s with
      | 45 :: s => (readDigits s).map fun n : ℕ => -(n : ℤ)
      | 43 :: s => (readDigits s).map Nat.cast
      | s => (readDigits s).map Nat.cast

/-- The digits after a point, and what comes after them. -/
def readFraction : PyStr → PyStr × PyStr
  | 46 :: s => (s.takeWhile isDigit, s.dropWhile isDigit)
  | s => ([], s)

def readUnsigned (negative : Bool) (s : PyStr) : Option FiniteDecimal :=
  let whole := s.takeWhile isDigit
  let fraction := (readFraction (s.dropWhile isDigit)).1
  if whole = [] ∧ fraction = [] then none
  else (readExponent (readFraction (s.dropWhile isDigit)).2).map fun e =>
    ⟨negative, ofDigits (whole ++ fraction), e - fraction.length⟩

theorem readDigits_digits (n : ℕ) : readDigits (digits n) = some n := by
  have hall : (digits n).all isDigit = true := List.all_eq_true.mpr fun _ => isDigit_of_mem_digits
  rw [readDigits, if_pos ⟨digits_ne_nil n, hall⟩, ofDigits_digits]

theorem readExponent_exponentText (n : ℤ) : readExponent (exponentText n) = some n := by
  have hminus : ∀ k, readExponent (69 :: 45 :: digits k) =
      (readDigits (digits k)).map fun n : ℕ => -(n : ℤ) := fun _ => rfl
  have hplus : ∀ k, readExponent (69 :: 43 :: digits k) =
      (readDigits (digits k)).map Nat.cast := fun _ => rfl
  unfold exponentText
  by_cases hn : n < 0
  · rw [if_pos hn, hminus, readDigits_digits, Option.map_some, Int.ofNat_natAbs_of_nonpos hn.le,
      neg_neg]
  · rw [if_neg hn, hplus, readDigits_digits, Option.map_some, Int.natAbs_of_nonneg (not_lt.mp hn)]

/-- Digits before and after a point, and then the exponent. -/
def pointed (whole fraction : PyStr) : PyStr :=
  whole ++ if fraction = [] then [] else 46 :: fraction

theorem readUnsigned_pointed {negative : Bool} {whole fraction rest : PyStr} {e : ℤ}
    (hne : whole ≠ []) (hwhole : ∀ c ∈ whole, isDigit c = true)
    (hfraction : ∀ c ∈ fraction, isDigit c = true) (hrest : Ends isDigit rest)
    (hpoint : ∀ s, rest ≠ 46 :: s) (he : readExponent rest = some e) :
    readUnsigned negative (pointed whole fraction ++ rest) =
      some ⟨negative, ofDigits (whole ++ fraction), e - fraction.length⟩ := by
  unfold pointed readUnsigned
  by_cases hnil : fraction = []
  · subst hnil
    obtain ⟨htake, hdrop⟩ := takeWhile_run hwhole hrest
    have hnone : readFraction rest = ([], rest) := by
      unfold readFraction
      split
      next s => exact absurd rfl (hpoint s)
      next => rfl
    simp only [if_true, List.append_nil, htake, hdrop, hnone, hne, false_and, if_false, he,
      Option.map_some]
  · have hends : Ends isDigit (46 :: (fraction ++ rest)) := ends_cons rfl
    obtain ⟨htake, hdrop⟩ := takeWhile_run hwhole hends
    obtain ⟨htake', hdrop'⟩ := takeWhile_run hfraction hrest
    rw [if_neg hnil, List.append_assoc, List.cons_append, htake, hdrop]
    simp only [readFraction, htake', hdrop', hne, false_and, if_false, he, Option.map_some]

/-- The mantissa has the digits of the number, and after the point those it is told to. -/
theorem mantissa_eq {ds : PyStr} {dotPlace : ℤ} (hne : ds ≠ [])
    (hds : ∀ c ∈ ds, isDigit c = true) (hdot : dotPlace ≤ ds.length) :
    ∃ whole fraction, mantissa ds dotPlace = pointed whole fraction ∧ whole ≠ [] ∧
      (∀ c ∈ whole, isDigit c = true) ∧ (∀ c ∈ fraction, isDigit c = true) ∧
      ofDigits (whole ++ fraction) = ofDigits ds ∧
      (fraction.length : ℤ) = ds.length - dotPlace := by
  have hlength : ds.length ≠ 0 := fun h => hne (List.length_eq_zero_iff.mp h)
  unfold mantissa pointed
  by_cases hzero : dotPlace ≤ 0
  · refine ⟨[48], List.replicate (-dotPlace).toNat 48 ++ ds, ?_, List.cons_ne_nil _ _, ?_, ?_, ?_,
      ?_⟩
    · have hfraction : List.replicate (-dotPlace).toNat 48 ++ ds ≠ [] := by simp [hne]
      rw [if_pos hzero, if_neg hfraction, List.append_assoc]
      rfl
    · exact fun c hc => (List.mem_singleton.mp hc) ▸ rfl
    · intro c hc
      rcases List.mem_append.mp hc with hc | hc
      · rw [List.eq_of_mem_replicate hc]
        rfl
      · exact hds c hc
    · rw [show [48] = List.replicate 1 48 from rfl, ofDigits_zeros, ofDigits_zeros]
    · rw [List.length_append, List.length_replicate]
      omega
  · by_cases hall : (ds.length : ℤ) ≤ dotPlace
    · have hfill : (dotPlace - ds.length).toNat = 0 := by omega
      refine ⟨ds, [], ?_, hne, hds, nofun, by rw [List.append_nil], ?_⟩
      · rw [if_neg hzero, if_pos hall, hfill]
        rfl
      · rw [List.length_nil]
        omega
    · refine ⟨ds.take dotPlace.toNat, ds.drop dotPlace.toNat, ?_, ?_, ?_, ?_, ?_, ?_⟩
      · have hfraction : ds.drop dotPlace.toNat ≠ [] := by
          rw [ne_eq, List.drop_eq_nil_iff]
          omega
        rw [if_neg hzero, if_neg hall, if_neg hfraction, List.append_assoc]
        rfl
      · rw [ne_eq, List.take_eq_nil_iff]
        rintro (h | h)
        · omega
        · exact hne h
      · exact fun c hc => hds c (List.mem_of_mem_take hc)
      · exact fun c hc => hds c (List.mem_of_mem_drop hc)
      · rw [List.take_append_drop]
      · rw [List.length_drop]
        omega

theorem magnitudeText_plain (d : FiniteDecimal) : ∀ c ∈ d.magnitudeText, 43 ≤ c ∧ c ≤ 69 := by
  have digit : ∀ {c}, isDigit c = true → 43 ≤ c ∧ c ≤ 69 := by
    intro c hc
    rw [isDigit_iff] at hc
    omega
  have zeros : ∀ {n c}, c ∈ List.replicate n 48 → 43 ≤ c ∧ c ≤ 69 := by
    intro n c hc
    rw [List.eq_of_mem_replicate hc]
    decide
  have hds : ∀ {n c}, c ∈ digits n → 43 ≤ c ∧ c ≤ 69 := fun hc => digit (isDigit_of_mem_digits hc)
  have hmantissa : ∀ place, ∀ c ∈ mantissa (digits d.coefficient) place, 43 ≤ c ∧ c ≤ 69 := by
    intro place c hc
    unfold mantissa at hc
    split_ifs at hc <;> simp only [List.mem_append, List.mem_cons, List.not_mem_nil, or_false] at hc
    · rcases hc with ((rfl | rfl) | hc) | hc
      · decide
      · decide
      · exact zeros hc
      · exact hds hc
    · exact hc.elim hds zeros
    · rcases hc with (hc | rfl) | hc
      · exact hds (List.mem_of_mem_take hc)
      · decide
      · exact hds (List.mem_of_mem_drop hc)
  have hexponent : ∀ left place : ℤ, ∀ c ∈ if left = place then [] else exponentText (left - place),
      43 ≤ c ∧ c ≤ 69 := by
    intro left place c hc
    split at hc
    · exact (List.not_mem_nil hc).elim
    · simp only [exponentText, List.mem_cons] at hc
      rcases hc with rfl | rfl | hc
      · decide
      · split <;> decide
      · exact hds hc
  intro c hc
  simp only [magnitudeText, List.mem_append] at hc
  exact hc.elim (hmantissa _ c) (hexponent _ _ c)

/-- The text behind the sign starts with a digit and has the digits and the exponent of the
number. -/
theorem readUnsigned_magnitudeText (d : FiniteDecimal) :
    (∃ c s, d.magnitudeText = c :: s ∧ isDigit c = true) ∧
      ∀ negative, readUnsigned negative d.magnitudeText =
        some ⟨negative, d.coefficient, d.exponent⟩ := by
  have hne := digits_ne_nil d.coefficient
  have hlength : (digits d.coefficient).length ≠ 0 := fun h => hne (List.length_eq_zero_iff.mp h)
  have hdot : (if d.exponent ≤ 0 ∧ -6 < d.exponent + (digits d.coefficient).length then
      d.exponent + (digits d.coefficient).length else 1) ≤ ((digits d.coefficient).length : ℤ) := by
    split <;> omega
  obtain ⟨whole, fraction, hmantissa, hwhole, hwholeDigits, hfraction, hvalue, hplaces⟩ :=
    mantissa_eq hne (fun c => isDigit_of_mem_digits) hdot
  rw [magnitudeText, hmantissa]
  generalize (if d.exponent ≤ 0 ∧ -6 < d.exponent + (digits d.coefficient).length then
      d.exponent + (digits d.coefficient).length else 1) = dotPlace at hplaces ⊢
  constructor
  · obtain ⟨c, s, rfl⟩ := List.exists_cons_of_ne_nil hwhole
    exact ⟨c, _, rfl, hwholeDigits c List.mem_cons_self⟩
  · intro negative
    have hpoint : ∀ n s, exponentText n ≠ 46 :: s :=
      fun n s h => absurd (List.cons.inj h).1 (by decide)
    split
    next heq =>
      rw [readUnsigned_pointed hwhole hwholeDigits hfraction (ends_nil _) nofun rfl, hvalue,
        ofDigits_digits, show (0 : ℤ) - fraction.length = d.exponent by omega]
    next =>
      have hends : ∀ n, Ends isDigit (exponentText n) := fun n => ends_cons rfl
      rw [readUnsigned_pointed hwhole hwholeDigits hfraction (hends _) (hpoint _)
        (readExponent_exponentText _), hvalue, ofDigits_digits]
      congr 2
      omega

end Text

end FiniteDecimal
