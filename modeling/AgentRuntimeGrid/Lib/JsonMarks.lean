import AgentRuntimeGrid.Lib.Exceptions
import AgentRuntimeGrid.Lib.JsonLoads

/-! What the limits of an interpreter do to `json.loads`: the integers and brackets of a text are
found by a reader that knows strings from the rest and nothing of the grammar. -/
namespace Json

/-- Where the reader stands: in a string, maybe after a backslash, or outside of strings, after the
characters of what may be a number. -/
inductive LexState where
  | text (escaped : Bool)
  | outside (number : PyStr)

/-- An integer has digits alone, after its sign. -/
def numberMarks (number : PyStr) : List Mark :=
  let digits := if number.head? = some 45 then number.tail else number
  if digits ≠ [] ∧ digits.all PyText.isDigit then [.integer digits.length] else []

/-- The marks of a text in their order, with `depth` lists and objects open. -/
def marksFrom : LexState → ℕ → PyStr → List Mark
  | .text _, _, [] => []
  | .outside number, _, [] => numberMarks number
  | .text true, depth, _ :: rest => marksFrom (.text false) depth rest
  | .text false, depth, c :: rest =>
    if c = 34 then marksFrom (.outside []) depth rest
    else marksFrom (.text (c = 92)) depth rest
  | .outside number, depth, c :: rest =>
    if isNumberChar c then marksFrom (.outside (number ++ [c])) depth rest
    else numberMarks number ++
      if c = 34 then marksFrom (.text false) depth rest
      else if c = 91 ∨ c = 123 then .opening (depth + 1) :: marksFrom (.outside []) (depth + 1) rest
      else if c = 93 ∨ c = 125 then marksFrom (.outside []) (depth - 1) rest
      else marksFrom (.outside []) depth rest

theorem marksFrom_text_nil (escaped : Bool) (depth : ℕ) :
    marksFrom (.text escaped) depth [] = [] := by
  cases escaped <;> rfl

theorem marksFrom_outside_nil (number : PyStr) (depth : ℕ) :
    marksFrom (.outside number) depth [] = numberMarks number := rfl

theorem marksFrom_escaped (depth c : ℕ) (rest : PyStr) :
    marksFrom (.text true) depth (c :: rest) = marksFrom (.text false) depth rest := rfl

theorem marksFrom_text (depth c : ℕ) (rest : PyStr) :
    marksFrom (.text false) depth (c :: rest) =
      if c = 34 then marksFrom (.outside []) depth rest
      else marksFrom (.text (c = 92)) depth rest := rfl

theorem marksFrom_outside (number : PyStr) (depth c : ℕ) (rest : PyStr) :
    marksFrom (.outside number) depth (c :: rest) =
      if isNumberChar c then marksFrom (.outside (number ++ [c])) depth rest
      else numberMarks number ++
        if c = 34 then marksFrom (.text false) depth rest
        else if c = 91 ∨ c = 123 then
          .opening (depth + 1) :: marksFrom (.outside []) (depth + 1) rest
        else if c = 93 ∨ c = 125 then marksFrom (.outside []) (depth - 1) rest
        else marksFrom (.outside []) depth rest := rfl

def marks (text : PyStr) : List Mark := marksFrom (.outside []) 0 text

example : marks (py "\x7b\"1\": [-23, 4.5], \"\\\"[\": 6\x7d") =
    [.opening 1, .opening 2, .integer 2, .integer 1] := by decide +kernel

namespace Limits
variable (limits : Limits) {α β : Type}

/-- What comes of a result when these marks are met on the way to it. -/
def apply (marks : List Mark) (r : Except ScanError α) : Except ScanError α :=
  (marks.findSome? limits.refusal).elim r .error

theorem apply_append (ms ms' : List Mark) (r : Except ScanError α) :
    limits.apply (ms ++ ms') r = limits.apply ms (limits.apply ms' r) := by
  unfold apply
  rw [List.findSome?_append]
  cases ms.findSome? limits.refusal <;> rfl

theorem apply_cons (mark : Mark) (ms : List Mark) (r : Except ScanError α) :
    limits.apply (mark :: ms) r = limits.check mark >>= fun _ => limits.apply ms r := by
  unfold apply check
  rw [List.findSome?_cons]
  cases limits.refusal mark <;> rfl

theorem apply_bind (ms : List Mark) (r : Except ScanError α) (f : α → Except ScanError β) :
    limits.apply ms r >>= f = limits.apply ms (r >>= f) := by
  unfold apply
  cases ms.findSome? limits.refusal <;> rfl

theorem check_unlimited (mark : Mark) : unlimited.check mark = .ok () := by
  cases mark <;> rfl

end Limits

section Lexing
variable (depth : ℕ)

theorem marksFrom_stops {number r : PyStr} (hr : Stops r) :
    marksFrom (.outside number) depth r =
      numberMarks number ++ marksFrom (.outside []) depth r := by
  cases r with
  | nil => simp [marksFrom_outside_nil, numberMarks]
  | cons c r =>
    have hc : isNumberChar c = false := hr c r rfl
    have hempty : numberMarks [] = [] := rfl
    simp only [marksFrom_outside, hc, hempty, List.nil_append]
    rfl

section Punctuation
variable (rest : PyStr)

theorem marksFrom_quote :
    marksFrom (.outside []) depth (34 :: rest) = marksFrom (.text false) depth rest := by
  simp [marksFrom_outside, isNumberChar, PyText.isDigit, numberMarks]

theorem marksFrom_separator {c : ℕ} (hc : c = 44 ∨ c = 58) :
    marksFrom (.outside []) depth (c :: rest) = marksFrom (.outside []) depth rest := by
  rcases hc with rfl | rfl <;> simp [marksFrom_outside, isNumberChar, PyText.isDigit, numberMarks]

theorem marksFrom_opening {c : ℕ} (hc : c = 91 ∨ c = 123) :
    marksFrom (.outside []) depth (c :: rest) =
      .opening (depth + 1) :: marksFrom (.outside []) (depth + 1) rest := by
  rcases hc with rfl | rfl <;> simp [marksFrom_outside, isNumberChar, PyText.isDigit, numberMarks]

theorem marksFrom_closing {c : ℕ} (hc : c = 93 ∨ c = 125) :
    marksFrom (.outside []) (depth + 1) (c :: rest) = marksFrom (.outside []) depth rest := by
  rcases hc with rfl | rfl <;> simp [marksFrom_outside, isNumberChar, PyText.isDigit, numberMarks]

end Punctuation

theorem marksFrom_number {p r : PyStr} (hp : ∀ c ∈ p, isNumberChar c = true) (hr : Stops r)
    (number : PyStr) :
    marksFrom (.outside number) depth (p ++ r) =
      numberMarks (number ++ p) ++ marksFrom (.outside []) depth r := by
  induction p generalizing number with
  | nil => rw [List.nil_append, List.append_nil, marksFrom_stops depth hr]
  | cons c p ih =>
    rw [List.forall_mem_cons] at hp
    rw [List.cons_append, marksFrom_outside, if_pos hp.1, ih hp.2, List.append_assoc]
    rfl

theorem marksFrom_whitespace {w : PyStr} (hw : ∀ c ∈ w, isWhitespace c = true) (s : PyStr) :
    marksFrom (.outside []) depth (w ++ s) = marksFrom (.outside []) depth s := by
  induction w with
  | nil => rfl
  | cons c w ih =>
    rw [List.forall_mem_cons] at hw
    have hnumber := isNumberChar_whitespace hw.1
    have hother : ¬ c = 34 ∧ ¬ c = 91 ∧ ¬ c = 123 ∧ ¬ c = 93 ∧ ¬ c = 125 := by
      have := hw.1
      simp only [isWhitespace, Bool.or_eq_true, decide_eq_true_eq] at this
      omega
    simp [marksFrom_outside, hnumber, hother, numberMarks, ih hw.2]

/-- A reader that is in a string finds nothing in white space. -/
theorem marksFrom_text_whitespace {w : PyStr} (hw : ∀ c ∈ w, isWhitespace c = true)
    (escaped : Bool) : marksFrom (.text escaped) depth w = [] := by
  induction w generalizing escaped with
  | nil => exact marksFrom_text_nil escaped depth
  | cons c w ih =>
    rw [List.forall_mem_cons] at hw
    cases escaped with
    | true => rw [marksFrom_escaped, ih hw.2]
    | false =>
      have hquote : c ≠ 34 := by
        rintro rfl
        cases hw.1
      rw [marksFrom_text, if_neg hquote, ih hw.2]

theorem marksFrom_append_whitespace {w : PyStr} (hw : ∀ c ∈ w, isWhitespace c = true) (s : PyStr)
    (state : LexState) : marksFrom state depth (s ++ w) = marksFrom state depth s := by
  induction s generalizing state depth with
  | nil =>
    cases state with
    | text escaped => simp [marksFrom_text_nil, marksFrom_text_whitespace depth hw]
    | outside number =>
      have hblank := marksFrom_whitespace depth hw []
      rw [List.append_nil] at hblank
      rw [List.nil_append, marksFrom_stops depth (stops_whitespace hw), hblank]
      simp [marksFrom_outside_nil, numberMarks]
  | cons c s ih =>
    cases state with
    | text escaped =>
      cases escaped <;> simp only [List.cons_append, marksFrom_text, marksFrom_escaped, ih]
    | outside number => simp only [List.cons_append, marksFrom_outside, ih]

theorem nextChar_eq_ok {s r : PyStr} {c : ℕ} (h : nextChar s = .ok (c, r)) :
    ∃ w, s = w ++ c :: r ∧ (∀ d ∈ w, isWhitespace d = true) ∧ isWhitespace c = false := by
  have hsplit := List.takeWhile_append_dropWhile (p := isWhitespace) (l := s)
  have hhead := List.head_dropWhile_not isWhitespace (l := s)
  unfold nextChar skipWhitespace at h
  cases hskip : s.dropWhile isWhitespace with
  | nil =>
    rw [hskip] at h
    cases h
  | cons d rest =>
    rw [hskip] at h hsplit
    cases h
    refine ⟨s.takeWhile isWhitespace, hsplit.symm, fun d hd => List.mem_takeWhile_imp hd, ?_⟩
    simpa [hskip] using hhead

/-- The next character of a text that goes on is that of the text, or the text is blank. -/
theorem nextChar_append_cases {s q R : PyStr} {c : ℕ} (h : nextChar (s ++ q) = .ok (c, R)) :
    (∃ rest, nextChar s = .ok (c, rest) ∧ R = rest ++ q) ∨
      q ≠ [] ∧ nextChar s = .error .decodeError ∧ ∀ d ∈ s, isWhitespace d = true := by
  cases hskip : skipWhitespace s with
  | nil =>
    have hs : nextChar s = .error .decodeError := by rw [nextChar, hskip]
    refine .inr ⟨?_, hs, skipWhitespace_eq_nil_iff.mp hskip⟩
    rintro rfl
    rw [List.append_nil, hs] at h
    cases h
  | cons d rest =>
    refine .inl ?_
    have hs : nextChar s = .ok (d, rest) := by rw [nextChar, hskip]
    have hextends := nextChar_extends (q := q) s d rest hs
    rw [h] at hextends
    cases hextends
    exact ⟨rest, hs, rfl⟩

theorem marksFrom_nextChar {s r : PyStr} {c : ℕ} (h : nextChar s = .ok (c, r)) :
    marksFrom (.outside []) depth s = marksFrom (.outside []) depth (c :: r) := by
  obtain ⟨w, rfl, hw, -⟩ := nextChar_eq_ok h
  exact marksFrom_whitespace depth hw _

theorem length_of_nextChar {s r : PyStr} {c : ℕ} (h : nextChar s = .ok (c, r)) :
    r.length < s.length := by
  obtain ⟨w, rfl, -, -⟩ := nextChar_eq_ok h
  simp only [List.length_append, List.length_cons]
  omega

theorem numberMarks_eq_nil {number : PyStr} (h : ∀ c ∈ number, PyText.isDigit c = false) :
    numberMarks number = [] := by
  unfold numberMarks
  refine if_neg fun hdigits => ?_
  obtain ⟨c, hc⟩ := List.exists_mem_of_ne_nil _ hdigits.1
  have hmem : c ∈ number := by
    split at hc
    · exact List.mem_of_mem_tail hc
    · exact hc
  have := List.all_eq_true.mp hdigits.2 c hc
  rw [h c hmem] at this
  cases this

/-- The characters of a literal. -/
def isLetter (c : ℕ) : Bool := !PyText.isDigit c && c ∉ [34, 91, 93, 123, 125]

theorem marksFrom_letters {p r : PyStr} (hp : ∀ c ∈ p, isLetter c = true) (hr : Stops r)
    {number : PyStr} (hnumber : ∀ c ∈ number, PyText.isDigit c = false) :
    marksFrom (.outside number) depth (p ++ r) = marksFrom (.outside []) depth r := by
  induction p generalizing number with
  | nil => rw [List.nil_append, marksFrom_stops depth hr, numberMarks_eq_nil hnumber,
      List.nil_append]
  | cons c p ih =>
    rw [List.forall_mem_cons] at hp
    have hc := hp.1
    simp only [isLetter, Bool.and_eq_true, Bool.not_eq_true', decide_eq_true_eq, List.mem_cons,
      List.not_mem_nil, or_false, not_or] at hc
    rw [List.cons_append, marksFrom_outside]
    cases isNumberChar c with
    | true =>
      refine ih hp.2 fun d hd => ?_
      rcases List.mem_append.mp hd with hd | hd
      · exact hnumber d hd
      · rw [List.mem_singleton.mp hd]
        exact hc.1
    | false => simp [hc, numberMarks_eq_nil hnumber, ih hp.2]

end Lexing

/-- Where the text goes on, it is with no printable character of ASCII. -/
def Cut (q : PyStr) : Prop := PyText.Ends (fun c => 33 ≤ c && c ≤ 126) q

theorem Cut.stops {q : PyStr} (hq : Cut q) : Stops q := by
  intro c rest h
  have := hq c rest h
  simp only [Bool.and_eq_false_iff, decide_eq_false_iff_not] at this
  simp only [isNumberChar, PyText.isDigit, Bool.or_eq_false_iff, Bool.and_eq_false_iff,
    decide_eq_false_iff_not, List.mem_cons, List.not_mem_nil, or_false]
  omega

theorem stops_of_append {r q : PyStr} (h : Stops (r ++ q)) : Stops r := by
  cases r with
  | nil => exact PyText.ends_nil _
  | cons c r => exact PyText.ends_cons (h c (r ++ q) rfl)

def StringState.escaped : StringState → Bool
  | .escape => true
  | _ => false

section Tokens
variable {q : PyStr} (depth : ℕ)

/-- A string is read to its end, or the text breaks off in it. -/
theorem scanUnits_append_cases {state : StringState} {s R : PyStr} {units : List (Bool × ℕ)}
    (h : scanUnits state (s ++ q) = some (units, R)) :
    (∃ rest, scanUnits state s = some (units, rest) ∧ R = rest ++ q ∧ rest.length < s.length ∧
        marksFrom (.text state.escaped) depth s = marksFrom (.outside []) depth rest) ∨
      q ≠ [] ∧ scanUnits state s = none ∧ marksFrom (.text state.escaped) depth s = [] := by
  induction s generalizing state units with
  | nil =>
    refine .inr ⟨?_, by simp [scanUnits], marksFrom_text_nil _ depth⟩
    rintro rfl
    simp [scanUnits] at h
  | cons c s ih =>
    have hmap : ∀ {f : List (Bool × ℕ) → List (Bool × ℕ)},
        ((scanUnits .plain (s ++ q)).map fun r => (f r.1, r.2)) = some (units, R) →
        (∃ rest, ((scanUnits .plain s).map fun r => (f r.1, r.2)) = some (units, rest) ∧
            R = rest ++ q ∧ rest.length < (c :: s).length ∧
            marksFrom (.text false) depth s = marksFrom (.outside []) depth rest) ∨
          q ≠ [] ∧ ((scanUnits .plain s).map fun r => (f r.1, r.2)) = none ∧
            marksFrom (.text false) depth s = [] := by
      intro f h
      obtain ⟨⟨us, r⟩, hs, heq⟩ := Option.map_eq_some_iff.mp h
      cases heq
      rcases ih hs with ⟨rest, hscan, hR, hlength, hmarks⟩ | ⟨hq, hscan, hmarks⟩
      · exact .inl ⟨rest, by rw [hscan]; rfl, hR, Nat.lt_succ_of_lt hlength, hmarks⟩
      · exact .inr ⟨hq, by rw [hscan]; rfl, hmarks⟩
    have hstep : ∀ {state' : StringState}, scanUnits state' (s ++ q) = some (units, R) →
        (∃ rest, scanUnits state' s = some (units, rest) ∧ R = rest ++ q ∧
            rest.length < (c :: s).length ∧ marksFrom (.text state'.escaped) depth s =
              marksFrom (.outside []) depth rest) ∨
          q ≠ [] ∧ scanUnits state' s = none ∧
            marksFrom (.text state'.escaped) depth s = [] := by
      intro state' h
      rcases ih h with ⟨rest, hscan, hR, hlength, hmarks⟩ | hbroken
      · exact .inl ⟨rest, hscan, hR, Nat.lt_succ_of_lt hlength, hmarks⟩
      · exact .inr hbroken
    cases state with
    | plain =>
      simp only [scanUnits, List.cons_append, StringState.escaped, marksFrom_text] at h ⊢
      by_cases hquote : c = 34
      · rw [if_pos hquote] at h
        cases h
        exact .inl ⟨s, by simp [hquote], rfl, by simp, by simp [hquote]⟩
      by_cases hescape : c = 92
      · simp only [hescape, if_true] at h ⊢
        exact hstep h
      · simp only [hquote, hescape, if_false, decide_false] at h ⊢
        split_ifs at h ⊢ with hcontrol
        exact hmap h
    | escape =>
      simp only [scanUnits, List.cons_append, StringState.escaped, marksFrom_escaped] at h ⊢
      by_cases hu : c = 117
      · simp only [hu, if_true] at h ⊢
        exact hstep h
      · simp only [hu, if_false] at h ⊢
        cases hsimple : simpleEscape c with
        | none => simp [hsimple] at h
        | some d =>
          simp only [hsimple] at h ⊢
          exact hmap h
    | unicode digits value =>
      simp only [scanUnits, List.cons_append, StringState.escaped, marksFrom_text] at h ⊢
      cases hhex : hexValue c with
      | none => simp [hhex] at h
      | some d =>
        have hne : c ≠ 34 ∧ c ≠ 92 := by
          constructor <;> (rintro rfl; cases hhex)
        simp only [hhex, hne, if_false, decide_false] at h ⊢
        split_ifs at h ⊢ with hdigits
        · exact hmap h
        · exact hstep h

theorem scanString_append_cases {s R text : PyStr} (h : scanString (s ++ q) = .ok (text, R)) :
    (∃ rest, scanString s = .ok (text, rest) ∧ R = rest ++ q ∧ rest.length < s.length ∧
        marksFrom (.text false) depth s = marksFrom (.outside []) depth rest) ∨
      q ≠ [] ∧ scanString s = .error .decodeError ∧
        marksFrom (.text false) depth s = [] := by
  unfold scanString at h ⊢
  cases hunits : scanUnits .plain (s ++ q) with
  | none =>
    rw [hunits] at h
    cases h
  | some r =>
    rw [hunits] at h
    cases h
    rcases scanUnits_append_cases depth hunits with
      ⟨rest, hscan, hR, hlength, hmarks⟩ | ⟨hq, hscan, hmarks⟩
    · exact .inl ⟨rest, by rw [hscan], hR, hlength, hmarks⟩
    · exact .inr ⟨hq, by rw [hscan], hmarks⟩

theorem literal_append {text s R : PyStr} {v v' : Json} (hq : Cut q)
    (htext : ∀ c ∈ text, 33 ≤ c ∧ c ≤ 126) (h : literal text v (s ++ q) = .ok (v', R)) :
    ∃ rest, s = text ++ rest ∧ R = rest ++ q ∧ literal text v s = .ok (v', rest) := by
  unfold literal at h ⊢
  split_ifs at h with hprefix
  cases h
  have hs : text <+: s := by
    rcases List.prefix_or_prefix_of_prefix hprefix (List.prefix_append s q) with hs | ⟨t, rfl⟩
    · exact hs
    · cases t with
      | nil => simp
      | cons c t =>
        obtain ⟨q', rfl⟩ := (List.prefix_append_right_inj s).mp hprefix
        have hc := hq c (t ++ q') rfl
        have := htext c (by simp)
        simp only [Bool.and_eq_false_iff, decide_eq_false_iff_not] at hc
        omega
  obtain ⟨rest, rfl⟩ := hs
  exact ⟨rest, rfl, by simp, by simp⟩

/-- A fraction or an exponent: none, or characters of a number that are not digits alone. -/
structure NumberPart (s p rest : PyStr) : Prop where
  eq : p ++ rest = s
  number : ∀ c ∈ p, isNumberChar c = true
  notInteger : p ≠ [] → ∃ c ∈ p, PyText.isDigit c = false

theorem isNumberChar_of_isDigit {c : ℕ} (hc : PyText.isDigit c = true) : isNumberChar c = true := by
  simp [isNumberChar, hc]

theorem digitsAfter_part {before s rest : PyStr} (hrest : rest = before ++ s)
    (hbefore : ∀ c ∈ before, isNumberChar c = true)
    (hsome : ∃ c ∈ before, PyText.isDigit c = false) :
    NumberPart rest (digitsAfter before s rest).1 (digitsAfter before s rest).2 := by
  unfold digitsAfter
  split_ifs with hdigits
  · exact ⟨rfl, by simp, by simp⟩
  · refine ⟨by rw [hrest, List.append_assoc, List.takeWhile_append_dropWhile], fun c hc => ?_, ?_⟩
    · rcases List.mem_append.mp hc with hc | hc
      · exact hbefore c hc
      · exact isNumberChar_of_isDigit (List.mem_takeWhile_imp hc)
    · obtain ⟨c, hc, hdigit⟩ := hsome
      exact fun _ => ⟨c, List.mem_append_left _ hc, hdigit⟩

theorem scanFraction_part (s : PyStr) : NumberPart s (scanFraction s).1 (scanFraction s).2 := by
  unfold scanFraction
  split_ifs with hpoint
  · obtain ⟨t, rfl⟩ := List.head?_eq_some_iff.mp hpoint
    exact digitsAfter_part rfl (by decide) (by decide)
  · exact ⟨rfl, by simp, by simp⟩

theorem scanExponent_part (s : PyStr) : NumberPart s (scanExponent s).1 (scanExponent s).2 := by
  unfold scanExponent
  by_cases hletter : s.head? = some 101 ∨ s.head? = some 69
  · rw [if_pos hletter]
    obtain ⟨e, t, rfl, he, hdigit⟩ :
        ∃ e t, s = e :: t ∧ isNumberChar e = true ∧ PyText.isDigit e = false := by
      rcases hletter with hs | hs <;> obtain ⟨t, rfl⟩ := List.head?_eq_some_iff.mp hs <;>
        exact ⟨_, t, rfl, by decide, by decide⟩
    rw [List.tail_cons]
    by_cases hsign : t.head? = some 43 ∨ t.head? = some 45
    · obtain ⟨sign, t, rfl, hs⟩ : ∃ sign t', t = sign :: t' ∧ isNumberChar sign = true := by
        rcases hsign with hs | hs <;> obtain ⟨t, rfl⟩ := List.head?_eq_some_iff.mp hs <;>
          exact ⟨_, t, rfl, by decide⟩
      rw [if_pos hsign]
      exact @digitsAfter_part [e, sign] t _ rfl (by simp [he, hs]) ⟨e, by simp, hdigit⟩
    · rw [if_neg hsign]
      exact @digitsAfter_part [e] t _ rfl (by simp [he]) ⟨e, by simp, hdigit⟩
  · rw [if_neg hletter]
    exact ⟨rfl, by simp, by simp⟩

theorem scanDigits_spec (s : PyStr) :
    (scanDigits s).1 ++ (scanDigits s).2 = s ∧
      ∀ c ∈ (scanDigits s).1, PyText.isDigit c = true := by
  unfold scanDigits
  split_ifs with hzero
  · obtain ⟨t, rfl⟩ := List.head?_eq_some_iff.mp hzero
    exact ⟨rfl, by simp [PyText.isDigit]⟩
  · exact ⟨List.takeWhile_append_dropWhile, fun c hc => List.mem_takeWhile_imp hc⟩

/-- The sign that has been read. -/
def signText (negative : Bool) : PyStr := if negative then [45] else []

theorem numberMarks_digits (negative : Bool) {digits p : PyStr} (hne : digits ≠ [])
    (hdigits : ∀ c ∈ digits, PyText.isDigit c = true)
    (hp : p ≠ [] → ∃ c ∈ p, PyText.isDigit c = false) :
    numberMarks (signText negative ++ (digits ++ p)) =
      if p = [] then [.integer digits.length] else [] := by
  have hunsigned : (if (signText negative ++ (digits ++ p)).head? = some 45
      then (signText negative ++ (digits ++ p)).tail else signText negative ++ (digits ++ p)) =
        digits ++ p := by
    cases negative with
    | true => rfl
    | false =>
      obtain ⟨c, t, rfl⟩ := List.exists_cons_of_ne_nil hne
      refine if_neg fun hc => ?_
      cases hc
      exact absurd (hdigits 45 (by simp)) (by decide)
  have hall : (digits ++ p).all PyText.isDigit = true ↔ p = [] := by
    constructor
    · intro h
      by_contra hp'
      obtain ⟨c, hc, hdigit⟩ := hp hp'
      have := List.all_eq_true.mp h c (List.mem_append_right _ hc)
      rw [hdigit] at this
      cases this
    · rintro rfl
      simpa using hdigits
  simp only [numberMarks, hunsigned, hall]
  by_cases hp' : p = []
  · simp [hp', hne]
  · simp [hp']

theorem scanUnsigned_append (limits : Limits) {parseFloat : PyStr → PyFloat} {negative : Bool}
    {s R : PyStr} {v : Json} (hq : Stops q)
    (h : scanUnsigned Limits.unlimited parseFloat negative (s ++ q) = .ok (v, R)) (hR : Stops R) :
    ∃ ms rest, R = rest ++ q ∧ rest.length < s.length ∧
      marksFrom (.outside (signText negative)) depth s =
        ms ++ marksFrom (.outside []) depth rest ∧
      scanUnsigned limits parseFloat negative s = limits.apply ms (.ok (v, rest)) := by
  simp only [scanUnsigned, scanDigits_append hq, scanFraction_append hq, scanExponent_append hq]
    at h ⊢
  obtain ⟨hwhole, hdigits⟩ := scanDigits_spec s
  have hfraction := scanFraction_part (scanDigits s).2
  have hexponent := scanExponent_part (scanFraction (scanDigits s).2).2
  generalize (scanDigits s).1 = whole, (scanDigits s).2 = s₁ at *
  generalize (scanFraction s₁).1 = fraction, (scanFraction s₁).2 = s₂ at *
  generalize (scanExponent s₂).1 = exponent, (scanExponent s₂).2 = rest at *
  rcases eq_or_ne whole [] with rfl | hne
  · cases h
  have hsplit : s = whole ++ (fraction ++ exponent) ++ rest := by
    rw [← hwhole, ← hfraction.eq, ← hexponent.eq]
    simp
  have hpart : fraction ++ exponent ≠ [] →
      ∃ c ∈ fraction ++ exponent, PyText.isDigit c = false := by
    intro hsome
    rcases eq_or_ne fraction [] with rfl | hf
    · exact hexponent.notInteger hsome
    · obtain ⟨c, hc, hdigit⟩ := hfraction.notInteger hf
      exact ⟨c, List.mem_append_left _ hc, hdigit⟩
  have hnumber : ∀ c ∈ whole ++ (fraction ++ exponent), isNumberChar c = true := by
    intro c hc
    rcases List.mem_append.mp hc with hc | hc
    · exact isNumberChar_of_isDigit (hdigits c hc)
    · exact (List.mem_append.mp hc).elim (hfraction.number c) (hexponent.number c)
  have hlength : rest.length < s.length := by
    have := List.length_pos_iff.mpr hne
    rw [hsplit, List.length_append, List.length_append]
    omega
  have hmarks := fun hrest : Stops rest => marksFrom_number depth hnumber hrest (signText negative)
  rw [numberMarks_digits negative hne hdigits hpart, ← hsplit] at hmarks
  rw [if_neg hne] at h ⊢
  by_cases hinteger : fraction = [] ∧ exponent = []
  · rw [if_pos hinteger, Limits.check_unlimited, ok_bind] at h
    cases h
    rw [if_pos (List.append_eq_nil_iff.mpr hinteger)] at hmarks
    refine ⟨_, rest, rfl, hlength, hmarks (stops_of_append hR), ?_⟩
    rw [if_pos hinteger, Limits.apply_cons]
    rfl
  · rw [if_neg hinteger] at h
    cases h
    rw [if_neg (mt List.append_eq_nil_iff.mp hinteger)] at hmarks
    exact ⟨_, rest, rfl, hlength, hmarks (stops_of_append hR), by rw [if_neg hinteger]; rfl⟩

/-- What is read of a text as if nothing were limited and the text went on, against what is read of
it within the limits: it is read up to the same place if its marks allow it, and where the text
breaks off before, there is no value. -/
def Agrees (limits : Limits) (q s : PyStr) (found : List Mark) (depth : ℕ) {α : Type}
    (r whole : Except ScanError (α × PyStr)) : Prop :=
  ∀ v R, whole = .ok (v, R) → Stops R →
    (∃ ms rest, R = rest ++ q ∧ rest.length < s.length ∧
        found = ms ++ marksFrom (.outside []) depth rest ∧ r = limits.apply ms (.ok (v, rest))) ∨
      q ≠ [] ∧ r = limits.apply found (.error .decodeError)

theorem agrees_literal (limits : Limits) {text s : PyStr} (v : Json) (hq : Cut q)
    (hne : text ≠ []) (htext : ∀ c ∈ text, (33 ≤ c ∧ c ≤ 126) ∧ isLetter c = true) :
    Agrees limits q s (marksFrom (.outside []) depth s) depth (literal text v s)
      (literal text v (s ++ q)) := by
  intro v' R h hR
  obtain ⟨rest, rfl, rfl, hread⟩ := literal_append hq (fun c hc => (htext c hc).1) h
  refine .inl ⟨[], rest, rfl, ?_, ?_, hread⟩
  · have := List.length_pos_iff.mpr hne
    rw [List.length_append]
    omega
  · exact marksFrom_letters depth (fun c hc => (htext c hc).2) (stops_of_append hR) (by simp)

theorem agrees_atom (limits : Limits) (parseFloat : PyStr → PyFloat) (hq : Cut q) (c : ℕ)
    (s : PyStr) :
    Agrees limits q (c :: s) (marksFrom (.outside []) depth (c :: s)) depth
      (scanAtom limits parseFloat (c :: s))
      (scanAtom Limits.unlimited parseFloat (c :: s ++ q)) := by
  simp only [scanAtom, List.cons_append]
  split_ifs with h110 h116 h102 h78 h73 h45 hinf hinf' hinf'
  · exact agrees_literal depth limits _ hq (by decide) (by decide)
  · exact agrees_literal depth limits _ hq (by decide) (by decide)
  · exact agrees_literal depth limits _ hq (by decide) (by decide)
  · exact agrees_literal depth limits _ hq (by decide) (by decide)
  · exact agrees_literal depth limits _ hq (by decide) (by decide)
  · exact agrees_literal depth limits _ hq (by decide) (by decide)
  · cases s with
    | nil => cases hinf
    | cons d s => exact absurd hinf hinf'
  · -- the text breaks off before the infinity
    cases s with
    | nil =>
      cases q with
      | nil => cases hinf'
      | cons d q =>
        cases hinf'
        exact absurd (hq 73 q rfl) (by decide)
    | cons d s => exact absurd hinf' hinf
  · intro v R h hR
    obtain ⟨ms, rest, hrest, hlength, hmarks, hread⟩ :=
      scanUnsigned_append depth limits hq.stops h hR
    refine .inl ⟨ms, rest, hrest, Nat.lt_succ_of_lt hlength, ?_, hread⟩
    rw [← hmarks, h45]
    rfl
  · intro v R h hR
    exact .inl (scanUnsigned_append depth limits hq.stops (s := c :: s) h hR)

end Tokens

section Agreement
variable {limits : Limits} {parseFloat : PyStr → PyFloat} {q s : PyStr} {found : List Mark}
  {depth depth' : ℕ} {α β : Type}

theorem Agrees.ok (v : α) {rest : PyStr} (hrest : rest.length < s.length)
    (hfound : found = marksFrom (.outside []) depth rest) :
    Agrees limits q s found depth (.ok (v, rest)) (.ok (v, rest ++ q)) := by
  intro v' R h _
  cases h
  exact .inl ⟨[], rest, rfl, hrest, hfound, rfl⟩

theorem Agrees.error (e : ScanError) (r : Except ScanError (α × PyStr)) :
    Agrees limits q s found depth r (.error e) := by
  intro v R h
  cases h

theorem Agrees.bind {r whole : Except ScanError (α × PyStr)}
    {f g : α × PyStr → Except ScanError (β × PyStr)} (h : Agrees limits q s found depth r whole)
    (hstops : ∀ v R b R', g (v, R) = .ok (b, R') → Stops R' → Stops R)
    (hf : ∀ v rest, rest.length < s.length →
      Agrees limits q rest (marksFrom (.outside []) depth rest) depth' (f (v, rest))
        (g (v, rest ++ q))) :
    Agrees limits q s found depth' (r >>= f) (whole >>= g) := by
  intro b R' hb hR'
  obtain ⟨⟨v, R⟩, hv, hg⟩ := Except.bind_eq_ok.mp hb
  rcases h v R hv (hstops v R b R' hg hR') with ⟨ms, rest, rfl, hrest, rfl, rfl⟩ | ⟨hq, rfl⟩
  · rw [Limits.apply_bind, ok_bind]
    rcases hf v rest hrest b R' hg hR' with ⟨ms', rest', hR, hlength, hmarks, hread⟩ | ⟨hq, hread⟩
    · exact .inl ⟨ms ++ ms', rest', hR, hlength.trans hrest,
        by rw [hmarks, List.append_assoc], by rw [hread, Limits.apply_append]⟩
    · exact .inr ⟨hq, by rw [hread, Limits.apply_append]⟩
  · exact .inr ⟨hq, Limits.apply_bind _ _ _ _⟩

theorem Agrees.map (f : α → β) {r whole : Except ScanError (α × PyStr)}
    (h : Agrees limits q s found depth r whole) :
    Agrees limits q s found depth (r >>= fun x => .ok (f x.1, x.2))
      (whole >>= fun x => .ok (f x.1, x.2)) := by
  intro b R hb hR
  obtain ⟨⟨v, R'⟩, hv, hb⟩ := Except.bind_eq_ok.mp hb
  cases hb
  rcases h v R' hv hR with ⟨ms, rest, hrest, hlength, hfound, rfl⟩ | ⟨hq, rfl⟩
  · exact .inl ⟨ms, rest, hrest, hlength, hfound, Limits.apply_bind _ _ _ _⟩
  · exact .inr ⟨hq, Limits.apply_bind _ _ _ _⟩

theorem Agrees.next {f g : ℕ × PyStr → Except ScanError (β × PyStr)}
    (hf : ∀ c rest, isWhitespace c = false → rest.length < s.length →
      Agrees limits q (c :: rest) (marksFrom (.outside []) depth (c :: rest)) depth' (f (c, rest))
        (g (c, rest ++ q))) :
    Agrees limits q s (marksFrom (.outside []) depth s) depth' (nextChar s >>= f)
      (nextChar (s ++ q) >>= g) := by
  intro b R' hb hR'
  obtain ⟨⟨c, R⟩, hc, hg⟩ := Except.bind_eq_ok.mp hb
  rcases nextChar_append_cases hc with ⟨rest, hs, rfl⟩ | ⟨hq, hs, hblank⟩
  · obtain ⟨w, -, -, hspace⟩ := nextChar_eq_ok hs
    have hlength := length_of_nextChar hs
    rw [hs, ok_bind, marksFrom_nextChar depth hs]
    exact (hf c rest hspace hlength b R' hg hR').imp_left fun ⟨ms, rest', hR, hrest, hread⟩ =>
      ⟨ms, rest', hR, lt_of_lt_of_le hrest hlength, hread⟩
  · have hmarks := marksFrom_whitespace depth hblank []
    rw [List.append_nil] at hmarks
    rw [hs, hmarks]
    exact .inr ⟨hq, rfl⟩

theorem Agrees.check (mark : Mark) {r whole : Except ScanError (α × PyStr)}
    (h : Agrees limits q s found depth r whole) :
    Agrees limits q s (mark :: found) depth (limits.check mark >>= fun _ => r)
      (Limits.unlimited.check mark >>= fun _ => whole) := by
  intro v R hv hR
  rw [Limits.check_unlimited, ok_bind] at hv
  rcases h v R hv hR with ⟨ms, rest, hrest, hlength, rfl, rfl⟩ | ⟨hq, rfl⟩
  · exact .inl ⟨mark :: ms, rest, hrest, hlength, rfl, (limits.apply_cons _ _ _).symm⟩
  · exact .inr ⟨hq, (limits.apply_cons _ _ _).symm⟩

/-- After an opening bracket: the closing one, or what stands between them. -/
theorem Agrees.bracket (v : α) {closing : ℕ} (hclosing : closing = 93 ∨ closing = 125)
    {r whole : Except ScanError (α × PyStr)}
    (h : Agrees limits q s (marksFrom (.outside []) (depth + 1) s) depth r whole) :
    Agrees limits q s (marksFrom (.outside []) (depth + 1) s) depth
      (nextChar s >>= fun y => if y.1 = closing then .ok (v, y.2) else r)
      (nextChar (s ++ q) >>= fun y => if y.1 = closing then .ok (v, y.2) else whole) := by
  intro b R' hb hR'
  obtain ⟨⟨c, R⟩, hc, hg⟩ := Except.bind_eq_ok.mp hb
  dsimp only at hg
  rcases nextChar_append_cases hc with ⟨rest, hs, rfl⟩ | ⟨hq, hs, hblank⟩
  · rw [hs, ok_bind]
    dsimp only
    by_cases hclose : c = closing
    · rw [if_pos hclose] at hg ⊢
      cases hg
      refine .inl ⟨[], rest, rfl, length_of_nextChar hs, ?_, rfl⟩
      rw [marksFrom_nextChar _ hs, hclose, marksFrom_closing depth rest hclosing]
      rfl
    · rw [if_neg hclose] at hg ⊢
      exact h b R' hg hR'
  · have hmarks := marksFrom_whitespace (depth + 1) hblank []
    rw [List.append_nil] at hmarks
    rw [hs, hmarks]
    exact .inr ⟨hq, rfl⟩

theorem Agrees.of_rest {rest : PyStr} {r whole : Except ScanError (α × PyStr)}
    (h : Agrees limits q rest found depth r whole) (hrest : rest.length ≤ s.length) :
    Agrees limits q s found depth r whole := fun v R hv hR =>
  (h v R hv hR).imp_left fun ⟨ms, rest', hR, hlength, hread⟩ =>
    ⟨ms, rest', hR, hlength.trans_le hrest, hread⟩

theorem agrees_string : Agrees limits q s (marksFrom (.text false) depth s) depth (scanString s)
    (scanString (s ++ q)) := by
  intro text R h _
  rcases scanString_append_cases depth h with
    ⟨rest, hread, hR, hlength, hmarks⟩ | ⟨hq, hread, hmarks⟩
  · exact .inl ⟨[], rest, hR, hlength, hmarks, hread⟩
  · exact .inr ⟨hq, by rw [hmarks, hread]; rfl⟩

theorem stops_of_nextChar {R r : PyStr} {c : ℕ} (h : nextChar R = .ok (c, r))
    (hc : isNumberChar c = false) : Stops R := by
  obtain ⟨w, rfl, hw, -⟩ := nextChar_eq_ok h
  exact stops_append hw hc

theorem stops_of_items {R : PyStr} {closing : ℕ} (hclosing : isNumberChar closing = false)
    {f g : ℕ × PyStr → Except ScanError α} {x : α}
    (h : nextChar R >>= (fun y => if y.1 = closing then f y else if y.1 = 44 then g y
      else .error .decodeError) = .ok x) : Stops R := by
  obtain ⟨⟨c, r⟩, hc, hx⟩ := Except.bind_eq_ok.mp h
  refine stops_of_nextChar hc ?_
  by_cases hclose : c = closing
  · rw [hclose, hclosing]
  · by_cases hcomma : c = 44
    · rw [hcomma]
      rfl
    · simp [hclose, hcomma] at hx

theorem stops_of_colon {R : PyStr} {f : ℕ × PyStr → Except ScanError α} {x : α}
    (h : nextChar R >>= (fun y => if y.1 ≠ 58 then .error .decodeError else f y) = .ok x) :
    Stops R := by
  obtain ⟨⟨colon, r⟩, hcolon, hx⟩ := Except.bind_eq_ok.mp h
  dsimp only at hx
  split_ifs at hx with hne
  exact stops_of_nextChar hcolon (by rw [not_not.mp hne]; rfl)

/-- The scanner within the limits against the one without, which reads on. -/
theorem scan_agrees (limits : Limits) (parseFloat : PyStr → PyFloat) (hq : Cut q) (m : ℕ) :
    (∀ n depth s, 2 * s.length + 1 ≤ n →
      Agrees limits q s (marksFrom (.outside []) depth s) depth
        (scanValue limits parseFloat n depth s)
        (scanValue Limits.unlimited parseFloat m depth (s ++ q))) ∧
    (∀ n depth s, 2 * s.length + 2 ≤ n →
      Agrees limits q s (marksFrom (.outside []) (depth + 1) s) depth
        (scanItems limits parseFloat n (depth + 1) s)
        (scanItems Limits.unlimited parseFloat m (depth + 1) (s ++ q))) ∧
    ∀ n depth s, 2 * s.length + 2 ≤ n →
      Agrees limits q s (marksFrom (.outside []) (depth + 1) s) depth
        (scanFields limits parseFloat n (depth + 1) s)
        (scanFields Limits.unlimited parseFloat m (depth + 1) (s ++ q)) := by
  induction m with
  | zero => exact ⟨fun _ _ _ _ => .error _ _, fun _ _ _ _ => .error _ _, fun _ _ _ _ => .error _ _⟩
  | succ m ih =>
    obtain ⟨hvalue, hitems, hfields⟩ := ih
    refine ⟨fun n depth s hn => ?_, fun n depth s hn => ?_, fun n depth s hn => ?_⟩
    · obtain ⟨n, rfl⟩ : ∃ k, n = k + 1 := ⟨n - 1, by omega⟩
      rw [scanValue, scanValue]
      refine .next fun c rest hspace hrest => ?_
      dsimp only
      split_ifs with hstring hlist hobject
      · rw [hstring, marksFrom_quote]
        exact (agrees_string.map Json.str).of_rest (Nat.le_succ rest.length)
      · rw [hlist, marksFrom_opening depth rest (.inl rfl)]
        exact (Agrees.check _ (Agrees.bracket (.arr []) (.inl rfl)
          ((hitems n depth rest (by omega)).map Json.arr))).of_rest (s := 91 :: rest)
            (Nat.le_succ rest.length)
      · rw [hobject, marksFrom_opening depth rest (.inr rfl)]
        exact (Agrees.check _ (Agrees.bracket (.obj []) (.inr rfl)
          ((hfields n depth rest (by omega)).map fun d => Json.obj (Dict.update [] d)))).of_rest
            (s := 123 :: rest) (Nat.le_succ rest.length)
      · exact agrees_atom depth limits parseFloat hq c rest
    · obtain ⟨n, rfl⟩ : ∃ k, n = k + 1 := ⟨n - 1, by omega⟩
      rw [scanItems_succ, scanItems_succ]
      refine (hvalue n (depth + 1) s (by omega)).bind
        (fun v R b R' h _ => stops_of_items (by decide) h) fun v rest hrest =>
          .next fun c rest' hspace hrest' => ?_
      dsimp only
      split_ifs with hclose hcomma
      · rw [hclose, marksFrom_closing depth rest' (.inl rfl)]
        exact .ok _ (Nat.lt_succ_self rest'.length) rfl
      · rw [hcomma, marksFrom_separator _ rest' (.inl rfl)]
        exact ((hitems n depth rest' (by omega)).map (v :: ·)).of_rest (Nat.le_succ rest'.length)
      · exact .error _ _
    · obtain ⟨n, rfl⟩ : ∃ k, n = k + 1 := ⟨n - 1, by omega⟩
      rw [scanFields, scanFields]
      refine .next fun quote rest _ hrest => ?_
      dsimp only
      split_ifs with hquote
      · exact .error _ _
      rw [not_not.mp hquote, marksFrom_quote]
      refine (agrees_string.bind (fun k R b R' h _ => stops_of_colon h) fun k rest₁ hrest₁ =>
        .next fun colon rest₂ _ hrest₂ => ?_).of_rest (Nat.le_succ rest.length)
      dsimp only
      split_ifs with hcolon
      · exact .error _ _
      rw [not_not.mp hcolon, marksFrom_separator _ rest₂ (.inr rfl)]
      refine ((hvalue n (depth + 1) rest₂ (by omega)).bind
        (fun v R b R' h _ => @stops_of_items _ R 125 (by decide) _ _ _ h) fun v rest₃ hrest₃ =>
          .next fun c rest₄ _ hrest₄ => ?_).of_rest (Nat.le_succ rest₂.length)
      dsimp only
      split_ifs with hclose hcomma
      · rw [hclose, marksFrom_closing depth rest₄ (.inr rfl)]
        exact .ok _ (Nat.lt_succ_self rest₄.length) rfl
      · rw [hcomma, marksFrom_separator _ rest₄ (.inl rfl)]
        exact ((hfields n depth rest₄ (by omega)).map ((k, v) :: ·)).of_rest
          (Nat.le_succ rest₄.length)
      · exact .error _ _

/-- A text of the grammar is read unless its marks are refused. -/
theorem loadsWithin_of_grammar {v : Json}
    (h : loadsWithin Limits.unlimited parseFloat s = .ok v) :
    loadsWithin limits parseFloat s = limits.apply (marks s) (.ok v) := by
  obtain ⟨R, hscan, hspace⟩ := loadsWithin_eq_ok_iff.mp h
  have hagrees := (scan_agrees limits parseFloat (PyText.ends_nil _) (2 * s.length + 2)).1
    (2 * s.length + 2) 0 s (by omega)
  rw [List.append_nil] at hagrees
  rcases hagrees v R hscan (stops_whitespace hspace) with
    ⟨ms, rest, rfl, -, hmarks, hread⟩ | ⟨hq, -⟩
  · rw [List.append_nil] at hspace
    have hrest := marksFrom_whitespace 0 hspace []
    rw [List.append_nil] at hrest
    have hempty : marksFrom (.outside []) 0 [] = [] := rfl
    rw [marks, hmarks, hrest, hempty, List.append_nil, loadsWithin, hread, Limits.apply_bind,
      ok_bind]
    dsimp only
    rw [if_pos (skipWhitespace_eq_nil_iff.mpr hspace)]
    rfl
  · exact absurd rfl hq

/-- A text of the grammar that is cut before something other than white space is not read. -/
theorem loadsWithin_cut {p : PyStr} {v : Json} {c : ℕ} (hq : Cut q) (hc : c ∈ q)
    (hspace : isWhitespace c = false)
    (h : loadsWithin Limits.unlimited parseFloat (p ++ q) = .ok v) :
    loadsWithin limits parseFloat p = limits.apply (marks p) (.error .decodeError) := by
  obtain ⟨R, hscan, hR⟩ := loadsWithin_eq_ok_iff.mp h
  have hagrees := (scan_agrees limits parseFloat hq (2 * (p ++ q).length + 2)).1
    (2 * p.length + 2) 0 p (by omega)
  rcases hagrees v R hscan (stops_whitespace hR) with ⟨ms, rest, rfl, -⟩ | ⟨-, hread⟩
  · have := hR c (List.mem_append_right _ hc)
    rw [hspace] at this
    cases this
  · rw [loadsWithin, hread, Limits.apply_bind]
    rfl

theorem marks_whitespace {w w' : PyStr} (hw : ∀ c ∈ w, isWhitespace c = true)
    (hw' : ∀ c ∈ w', isWhitespace c = true) (s : PyStr) : marks (w ++ (s ++ w')) = marks s := by
  rw [marks, marksFrom_whitespace 0 hw, marksFrom_append_whitespace 0 hw']
  rfl

end Agreement

end Json
