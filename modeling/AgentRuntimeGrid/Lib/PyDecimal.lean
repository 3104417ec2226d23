import AgentRuntimeGrid.Lib.FiniteDecimal
import Mathlib.Algebra.Order.Monoid.WithTop
import Mathlib.Algebra.Order.Ring.Rat

/-! `decimal.Decimal` in its default context, in which an invalid operation raises, with the
addition of finite values taken as exact. -/

inductive PyDecimal where
  | finite (d : FiniteDecimal)
  | infinity (negative : Bool)
  /-- A quiet or signaling NaN, with the number that may stand behind it. -/
  | nan (negative signaling : Bool) (payload : ℕ)
  deriving DecidableEq

namespace PyDecimal

/-- `Decimal("0")`. -/
def zero : PyDecimal := .finite .zero

def isNan : PyDecimal → Bool
  | .nan .. => true
  | _ => false

def isSignaling : PyDecimal → Bool
  | .nan _ signaling _ => signaling
  | _ => false

/-- `a + b`. -/
def add : PyDecimal → PyDecimal → Except String PyDecimal
  | .nan negative signaling payload, b =>
      if signaling || b.isSignaling then .error "InvalidOperation"
      else .ok (.nan negative false payload)
  | _, .nan negative signaling payload =>
      if signaling then .error "InvalidOperation" else .ok (.nan negative false payload)
  | .infinity negative, .infinity negative' =>
      if negative = negative' then .ok (.infinity negative) else .error "InvalidOperation"
  | .infinity negative, .finite _ => .ok (.infinity negative)
  | .finite _, .infinity negative => .ok (.infinity negative)
  | .finite a, .finite b => .ok (.finite (a.add b))

/-- The order of the values that are numbers. -/
def lt : PyDecimal → PyDecimal → Bool
  | .finite a, .finite b => a.lt b
  | .finite _, .infinity negative => !negative
  | .infinity negative, .finite _ => negative
  | .infinity negative, .infinity negative' => negative && !negative'
  | _, _ => false

/-- `a > b`. -/
def gt (a b : PyDecimal) : Except String Bool :=
  if a.isNan || b.isNan then .error "InvalidOperation" else .ok (b.lt a)

/-- `sum(ds, Decimal("0"))`. -/
def sum (ds : List PyDecimal) : Except String PyDecimal := ds.foldlM add zero

/-- The number that a value stands for. -/
def value : PyDecimal → WithBot (WithTop ℚ)
  | .finite d => ((d.toRat : WithTop ℚ) : WithBot (WithTop ℚ))
  | .infinity true => ⊥
  | .infinity false => ((⊤ : WithTop ℚ) : WithBot (WithTop ℚ))
  | .nan .. => 0

@[simp] theorem value_zero : zero.value = 0 := by
  rw [zero, value, FiniteDecimal.toRat_zero]
  rfl

theorem lt_iff {a b : PyDecimal} (ha : a.isNan = false) (hb : b.isNan = false) :
    a.lt b = true ↔ a.value < b.value := by
  cases a with
  | nan => cases ha
  | finite a =>
    cases b with
    | nan => cases hb
    | finite b => simp [lt, value, FiniteDecimal.lt_iff]
    | infinity negative =>
      cases negative with
      | true => simp [lt, value]
      | false => exact iff_of_true rfl (WithBot.coe_lt_coe.mpr (WithTop.coe_lt_top _))
  | infinity negative =>
    cases b with
    | nan => cases hb
    | finite b => cases negative <;> simp [lt, value]
    | infinity negative' => cases negative <;> cases negative' <;> simp [lt, value]

theorem gt_eq_ok {a b : PyDecimal} (ha : a.isNan = false) (hb : b.isNan = false) :
    a.gt b = .ok (decide (b.value < a.value)) := by
  rw [gt, ha, hb]
  refine congrArg Except.ok ?_
  rw [Bool.eq_iff_iff, lt_iff hb ha, decide_eq_true_eq]

/-- A number that is not the infinity of the given sign. -/
structure Addend (negative : Bool) (d : PyDecimal) : Prop where
  number : d.isNan = false
  side : d ≠ .infinity negative

theorem addend_zero (negative : Bool) : zero.Addend negative := ⟨rfl, nofun⟩

/-- Numbers that are not opposite infinities are added. -/
theorem Addend.add {negative : Bool} {a b : PyDecimal} (ha : a.Addend negative)
    (hb : b.Addend negative) :
    ∃ c, a.add b = .ok c ∧ c.Addend negative ∧ c.value = a.value + b.value := by
  cases a with
  | nan => cases ha.number
  | finite a =>
    cases b with
    | nan => cases hb.number
    | finite b =>
      refine ⟨.finite (a.add b), rfl, ⟨rfl, nofun⟩, ?_⟩
      rw [value, FiniteDecimal.toRat_add]
      rfl
    | infinity sign =>
      refine ⟨.infinity sign, rfl, hb, ?_⟩
      cases sign <;> rfl
  | infinity sign =>
    cases b with
    | nan => cases hb.number
    | finite b =>
      refine ⟨.infinity sign, rfl, ha, ?_⟩
      cases sign <;> rfl
    | infinity sign' =>
      have hsame : sign = sign' := by
        have hside := ha.side
        have hside' := hb.side
        cases sign <;> cases sign' <;> cases negative <;> simp_all
      subst hsame
      refine ⟨.infinity sign, if_pos rfl, ha, ?_⟩
      cases sign <;> rfl

section Text
open PyText

def signText (negative : Bool) : PyStr := if negative then [45] else []

/-- `str(d)`. -/
def text : PyDecimal → PyStr
  | .finite d => signText d.negative ++ d.magnitudeText
  | .infinity negative => signText negative ++ py "Infinity"
  | .nan negative signaling payload => signText negative ++
      (if signaling then py "sNaN" else py "NaN") ++ if payload = 0 then [] else digits payload

/-- The name of an infinity or of a NaN, in letters of any case. -/
def readSpecial (negative : Bool) (s : PyStr) : Option PyDecimal :=
  let s := s.map asciiLower
  if s = py "inf" ∨ s = py "infinity" then some (.infinity negative)
  else
    let signaling := (py "s").isPrefixOf s
    let s := if signaling then s.drop 1 else s
    if (py "nan").isPrefixOf s ∧ (s.drop 3).all isDigit then
      some (.nan negative signaling (ofDigits (s.drop 3)))
    else none

def readMagnitude (negative : Bool) (s : PyStr) : Option PyDecimal :=
  match FiniteDecimal.readUnsigned negative s with
  | some d => some (.finite d)
  | none => readSpecial negative s

/-- `Decimal(s)` of a text of ASCII characters. -/
def ofText (s : PyStr) : Option PyDecimal :=
  match (strip s).filter (· ≠ 95) with
  | 45 :: s => readMagnitude true s
  | 43 :: s => readMagnitude false s
  | s => readMagnitude false s

/-- Neither white space nor an underscore. -/
def Plain (c : ℕ) : Prop := isSpace c = false ∧ c ≠ 95 ∧ c < 128

theorem plain_of_isDigit {c : ℕ} (h : isDigit c = true) : Plain c := by
  rw [isDigit_iff] at h
  refine ⟨?_, by omega, by omega⟩
  simp only [isSpace, Bool.or_eq_false_iff, Bool.and_eq_false_iff, decide_eq_false_iff_not,
    beq_eq_false_iff_ne]
  omega

theorem plain_of_mem {s : PyStr} (h : s.all (fun c => !isSpace c && c ≠ 95 && c < 128) = true) :
    ∀ c ∈ s, Plain c := by
  intro c hc
  have h := List.all_eq_true.mp h c hc
  simp only [Bool.and_eq_true, Bool.not_eq_true', decide_eq_true_eq] at h
  exact ⟨h.1.1, h.1.2, h.2⟩

theorem plain_signText (negative : Bool) : ∀ c ∈ signText negative, Plain c := by
  cases negative
  · exact fun c hc => (List.not_mem_nil hc).elim
  · exact plain_of_mem (by decide)

/-- The text of a value has no white space and no underscore. -/
theorem text_plain (d : PyDecimal) : ∀ c ∈ d.text, Plain c := by
  cases d with
  | finite d =>
    refine List.forall_mem_append.mpr ⟨plain_signText _, fun c hc => ?_⟩
    have hbounds := d.magnitudeText_plain c hc
    refine ⟨?_, by omega, by omega⟩
    simp only [isSpace, Bool.or_eq_false_iff, Bool.and_eq_false_iff, decide_eq_false_iff_not,
      beq_eq_false_iff_ne]
    omega
  | infinity negative =>
    exact List.forall_mem_append.mpr ⟨plain_signText _, plain_of_mem (by decide)⟩
  | nan negative signaling payload =>
    refine List.forall_mem_append.mpr ⟨List.forall_mem_append.mpr ⟨plain_signText _, ?_⟩, ?_⟩
    · cases signaling
      · exact plain_of_mem (by decide)
      · exact plain_of_mem (by decide)
    · split
      · exact fun c hc => (List.not_mem_nil hc).elim
      · exact fun c hc => plain_of_isDigit (isDigit_of_mem_digits hc)

theorem ofText_signed {negative : Bool} {s : PyStr} (hplain : ∀ c ∈ signText negative ++ s, Plain c)
    {c : ℕ} {rest : PyStr} (hs : s = c :: rest) (hminus : c ≠ 45) (hplus : c ≠ 43) :
    ofText (signText negative ++ s) = readMagnitude negative s := by
  have hstrip : (strip (signText negative ++ s)).filter (· ≠ 95) = signText negative ++ s := by
    rw [strip_eq_self fun c hc => (hplain c hc).1, List.filter_eq_self]
    exact fun c hc => decide_eq_true (hplain c hc).2.1
  rw [ofText, hstrip]
  cases negative with
  | true => rfl
  | false =>
    subst hs
    change (match c :: rest with | 45 :: s => _ | 43 :: s => _ | s => _ : Option PyDecimal) = _
    split
    next heq => exact absurd (List.cons.inj heq).1 hminus
    next heq => exact absurd (List.cons.inj heq).1 hplus
    next => rfl

theorem readMagnitude_of_letter {negative : Bool} {c : ℕ} {s : PyStr} (hdigit : isDigit c = false)
    (hpoint : c ≠ 46) : readMagnitude negative (c :: s) = readSpecial negative (c :: s) := by
  have hwhole : (c :: s).takeWhile isDigit = [] := List.takeWhile_cons_of_neg (by simp [hdigit])
  have hrest : (c :: s).dropWhile isDigit = c :: s := List.dropWhile_cons_of_neg (by simp [hdigit])
  have hfraction : FiniteDecimal.readFraction (c :: s) = ([], c :: s) := by
    unfold FiniteDecimal.readFraction
    split
    next heq => exact absurd (List.cons.inj heq).1 hpoint
    next => rfl
  have hnone : FiniteDecimal.readUnsigned negative (c :: s) = none := by
    simp only [FiniteDecimal.readUnsigned, hwhole, hrest, hfraction, and_self, if_true]
  rw [readMagnitude, hnone]

theorem map_asciiLower_digits {s : PyStr} (h : ∀ c ∈ s, isDigit c = true) :
    s.map asciiLower = s := by
  refine (List.map_congr_left fun c hc => ?_).trans (List.map_id s)
  have hdigit := isDigit_iff.mp (h c hc)
  have hupper : ¬ (decide (65 ≤ c) && decide (c ≤ 90)) = true := by
    simp only [Bool.and_eq_true, decide_eq_true_eq]
    omega
  exact if_neg hupper

theorem readSpecial_nan (negative signaling : Bool) {s : PyStr}
    (h : ∀ c ∈ s, isDigit c = true) :
    readSpecial negative ((if signaling then py "sNaN" else py "NaN") ++ s) =
      some (.nan negative signaling (ofDigits s)) := by
  have hnan : py "nan" = [110, 97, 110] := by decide
  have hall : s.all isDigit = true := List.all_eq_true.mpr h
  have hlower : (py "NaN").map asciiLower = [110, 97, 110] ∧
      (py "sNaN").map asciiLower = [115, 110, 97, 110] := by decide
  have hinf : py "inf" = [105, 110, 102] ∧
      py "infinity" = [105, 110, 102, 105, 110, 105, 116, 121] ∧ py "s" = [115] := by decide
  unfold readSpecial
  cases signaling <;>
    simp [List.map_append, map_asciiLower_digits h, hlower, hinf, hnan, hall, List.isPrefixOf]

/-- `Decimal(str(d))` is `d` with its digits and its exponent, or the payload of its NaN. -/
theorem ofText_text (d : PyDecimal) : ofText d.text = some d := by
  have hplain := d.text_plain
  cases d with
  | finite d =>
    obtain ⟨⟨c, s, hs, hdigit⟩, hread⟩ := d.readUnsigned_magnitudeText
    have hbounds := isDigit_iff.mp hdigit
    rw [text, ofText_signed hplain hs (by omega) (by omega), readMagnitude, hread]
  | infinity negative =>
    have hletters : py "Infinity" = 73 :: py "nfinity" := by decide
    rw [text, ofText_signed hplain hletters (by decide) (by decide), hletters,
      readMagnitude_of_letter rfl (by decide)]
    cases negative <;> decide
  | nan negative signaling payload =>
    have hpayload : ∀ c ∈ if payload = 0 then [] else digits payload, isDigit c = true := by
      split
      · exact fun c hc => (List.not_mem_nil hc).elim
      · exact fun c hc => isDigit_of_mem_digits hc
    have hvalue : ofDigits (if payload = 0 then [] else digits payload) = payload := by
      split
      next hzero => exact hzero.symm
      next => exact ofDigits_digits payload
    have hread := readSpecial_nan negative signaling hpayload
    rw [hvalue] at hread
    have hletter : ∃ c s, (if signaling then py "sNaN" else py "NaN") ++
        (if payload = 0 then [] else digits payload) = c :: s ∧ isDigit c = false ∧ 69 < c := by
      cases signaling
      · exact ⟨78, py "aN" ++ _, rfl, rfl, by decide⟩
      · exact ⟨115, py "NaN" ++ _, rfl, rfl, by decide⟩
    obtain ⟨c, s, hs, hdigit, hhigh⟩ := hletter
    rw [text, List.append_assoc] at hplain ⊢
    rw [ofText_signed hplain hs (by omega) (by omega), hs,
      readMagnitude_of_letter hdigit (by omega), ← hs, hread]

end Text

end PyDecimal
