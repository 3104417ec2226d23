import AgentRuntimeGrid.Lib.Erasure
import AgentRuntimeGrid.Lib.JsonLoads
import Mathlib.Data.List.Chain

/-! What `json.dumps` writes, `json.loads` reads back, with the keys in sorted order. -/
namespace Json

section Strings

/-- A high surrogate directly before a low one, which are read back as one character. -/
def Paired (a b : ℕ) : Prop := isHighSurrogate a = true ∧ isLowSurrogate b = true

instance (a b : ℕ) : Decidable (Paired a b) := inferInstanceAs (Decidable (_ ∧ _))

/-- The text is of code points, and no two of its surrogates pair up. -/
def Unpaired (s : PyStr) : Prop := (∀ c ∈ s, c < 0x110000) ∧ s.IsChain fun a b => ¬ Paired a b

/-- The text of Unicode characters alone. -/
theorem unpaired_of_scalar {s : PyStr} (hs : ∀ c ∈ s, c < 0x110000)
    (hscalar : ∀ c ∈ s, PyText.isSurrogate c = false) : Unpaired s := by
  refine ⟨hs, ?_⟩
  induction s with
  | nil => exact .nil
  | cons a s ih =>
    rw [List.forall_mem_cons] at hs hscalar
    refine List.isChain_cons.mpr ⟨fun b _ hpair => ?_, ih hs.2 hscalar.2⟩
    have ha := hscalar.1
    simp only [PyText.isSurrogate, Paired, isHighSurrogate, isLowSurrogate, Bool.and_eq_true,
      decide_eq_true_eq, Bool.and_eq_false_iff, decide_eq_false_iff_not] at ha hpair
    omega

/-- How the character is read back, as what `json.dumps` wrote for it. -/
def unitsOf (ensureAscii : Bool) (c : ℕ) : List (Bool × ℕ) :=
  if c ∈ [34, 92, 10, 13, 9, 12, 8] then [(false, c)]
  else if c < 32 then [(true, c)]
  else if ensureAscii && 127 ≤ c then
    if c < 0x10000 then [(true, c)]
    else [(true, 0xD800 + (c - 0x10000) / 1024), (true, 0xDC00 + (c - 0x10000) % 1024)]
  else [(false, c)]

def prepend (units : List (Bool × ℕ)) (r : Option (List (Bool × ℕ) × PyStr)) :
    Option (List (Bool × ℕ) × PyStr) := r.map fun r => (units ++ r.1, r.2)

theorem hexValue_hexDigit {d : ℕ} (hd : d < 16) : hexValue (hexDigit d) = some d := by
  revert d
  decide

theorem scanUnits_unicodeEscape {c : ℕ} (hc : c < 65536) (q : PyStr) :
    scanUnits .plain (unicodeEscape c ++ q) = prepend [(true, c)] (scanUnits .plain q) := by
  have h3 : c / 4096 % 16 < 16 := Nat.mod_lt _ (by decide)
  have h2 : c / 256 % 16 < 16 := Nat.mod_lt _ (by decide)
  have h1 : c / 16 % 16 < 16 := Nat.mod_lt _ (by decide)
  have h0 : c % 16 < 16 := Nat.mod_lt _ (by decide)
  have hvalue : 16 * (16 * (16 * (c / 4096 % 16) + c / 256 % 16) + c / 16 % 16) + c % 16 = c := by
    omega
  have hu : py "\\u" = [92, 117] := by decide
  rw [unicodeEscape, hu]
  simp [scanUnits, hexValue_hexDigit h3, hexValue_hexDigit h2, hexValue_hexDigit h1,
    hexValue_hexDigit h0, hvalue, prepend]

theorem scanUnits_escapeChar {ensureAscii : Bool} {c : ℕ}
    (hc : ensureAscii = true → c < 0x110000) (q : PyStr) :
    scanUnits .plain (escapeChar ensureAscii c ++ q) =
      prepend (unitsOf ensureAscii c) (scanUnits .plain q) := by
  by_cases hsimple : c ∈ [34, 92, 10, 13, 9, 12, 8]
  · rw [unitsOf, if_pos hsimple]
    simp only [List.mem_cons, List.not_mem_nil, or_false] at hsimple
    rcases hsimple with rfl | rfl | rfl | rfl | rfl | rfl | rfl <;>
      simp [escapeChar, py, scanUnits, simpleEscape, prepend]
  · rw [unitsOf, if_neg hsimple]
    simp only [List.mem_cons, List.not_mem_nil, or_false, not_or] at hsimple
    simp only [escapeChar, hsimple, if_false]
    split_ifs with h32 hascii hbasic
    · exact scanUnits_unicodeEscape (by omega) q
    · exact scanUnits_unicodeEscape (by omega) q
    · have hbound := hc (by simp_all)
      rw [List.append_assoc, scanUnits_unicodeEscape (by omega), scanUnits_unicodeEscape (by omega)]
      cases scanUnits .plain q <;> rfl
    · simp [scanUnits, hsimple, h32, prepend]

theorem scanUnits_quote {ensureAscii : Bool} {s : PyStr}
    (hs : ensureAscii = true → ∀ c ∈ s, c < 0x110000) (q : PyStr) :
    scanUnits .plain (s.flatMap (escapeChar ensureAscii) ++ 34 :: q) =
      some (s.flatMap (unitsOf ensureAscii), q) := by
  induction s with
  | nil => simp [scanUnits]
  | cons c s ih =>
    rw [List.flatMap_cons, List.append_assoc, scanUnits_escapeChar fun h => hs h c (by simp),
      ih fun h d hd => hs h d (by simp [hd])]
    rfl

/-- A character is one unit, or the two surrogates of an escape. -/
theorem unitsOf_cases (ensureAscii : Bool) (c : ℕ) :
    (∃ escaped, unitsOf ensureAscii c = [(escaped, c)] ∧
      (escaped = true → ensureAscii = true ∨ c < 32)) ∨
    ensureAscii = true ∧ 0x10000 ≤ c ∧ unitsOf ensureAscii c =
      [(true, 0xD800 + (c - 0x10000) / 1024), (true, 0xDC00 + (c - 0x10000) % 1024)] := by
  unfold unitsOf
  split_ifs with hsimple h32 hascii hbasic
  · exact .inl ⟨false, rfl, nofun⟩
  · exact .inl ⟨true, rfl, fun _ => .inr h32⟩
  · exact .inl ⟨true, rfl, fun _ => .inl (by simp_all)⟩
  · exact .inr ⟨by simp_all, by omega, rfl⟩
  · exact .inl ⟨false, rfl, nofun⟩

theorem joinSurrogates_single {c : ℕ} {escaped : Bool} {units : List (Bool × ℕ)}
    (h : ∀ u us, units = u :: us → escaped = true → u.1 = true → ¬ Paired c u.2) :
    joinSurrogates ((escaped, c) :: units) = c :: joinSurrogates units := by
  cases units with
  | nil => rfl
  | cons u us =>
    rw [joinSurrogates, if_neg]
    intro hjoin
    simp only [Bool.and_eq_true] at hjoin
    exact h u us rfl hjoin.1.1.1 hjoin.1.1.2 ⟨hjoin.1.2, hjoin.2⟩

theorem joinSurrogates_unitsOf {ensureAscii : Bool} {s : PyStr}
    (hs : ensureAscii = true → Unpaired s) :
    joinSurrogates (s.flatMap (unitsOf ensureAscii)) = s := by
  induction s with
  | nil => rfl
  | cons c s ih =>
    have htail : ensureAscii = true → Unpaired s := fun h =>
      ⟨fun d hd => (hs h).1 d (List.mem_cons_of_mem _ hd), (List.isChain_cons.mp (hs h).2).2⟩
    rw [List.flatMap_cons]
    rcases unitsOf_cases ensureAscii c with ⟨escaped, hunits, hescaped⟩ | ⟨hascii, hlow, hunits⟩
    · rw [hunits, List.singleton_append, joinSurrogates_single, ih htail]
      intro u us hus hflag hu hpair
      cases s with
      | nil => cases hus
      | cons d s =>
        rcases hescaped hflag with hascii | h32
        · -- the next unit is the next character, or the first half of one
          have hbound := (hs hascii).1 d (by simp)
          have hchain := (List.isChain_cons_cons.mp (hs hascii).2).1
          rw [List.flatMap_cons] at hus
          rcases unitsOf_cases ensureAscii d with ⟨_, hd, -⟩ | ⟨-, hd, hunits'⟩
          · rw [hd] at hus
            cases hus
            exact hchain hpair
          · rw [hunits'] at hus
            cases hus
            simp only [Paired, isLowSurrogate, Bool.and_eq_true, decide_eq_true_eq] at hpair
            omega
        · simp only [Paired, isHighSurrogate, Bool.and_eq_true, decide_eq_true_eq] at hpair
          omega
    · have hbound := (hs hascii).1 c (by simp)
      have hjoin : (isHighSurrogate (0xD800 + (c - 0x10000) / 1024) &&
          isLowSurrogate (0xDC00 + (c - 0x10000) % 1024)) = true := by
        simp only [isHighSurrogate, isLowSurrogate, Bool.and_eq_true, decide_eq_true_eq]
        omega
      rw [Bool.and_eq_true] at hjoin
      rw [hunits, List.cons_append, List.cons_append, joinSurrogates, if_pos (by simp [hjoin]),
        List.nil_append, ih htail]
      simp only [List.cons.injEq, and_true]
      omega

/-- The text of a string in this format is that of no other. -/
def DumpsFormat.Keeps (f : DumpsFormat) (s : PyStr) : Prop := f.ensureAscii = true → Unpaired s

theorem scanString_quote {f : DumpsFormat} {s : PyStr} (hs : f.Keeps s) (q : PyStr) :
    scanString (s.flatMap (escapeChar f.ensureAscii) ++ 34 :: q) = .ok (s, q) := by
  rw [scanString, scanUnits_quote fun h => (hs h).1]
  simp only [joinSurrogates_unitsOf hs]

end Strings
variable {parseFloat : PyStr → PyFloat} {f : DumpsFormat} {floatRepr : PyFloat → PyStr}

/-- Wherever the text stands in front of something that ends it, it is read as the value. -/
def Reads (parseFloat : PyStr → PyFloat) (text : PyStr) (v : Json) : Prop :=
  ∀ n depth q, 2 * text.length ≤ n → Stops q →
    scanValue digitLimit parseFloat n depth (text ++ q) = .ok (v, q)

theorem check_opening (depth : ℕ) : digitLimit.check (.opening depth) = .ok () := rfl

theorem check_integer {digits : ℕ} (h : digits ≤ maxStrDigits) :
    digitLimit.check (.integer digits) = .ok () := by
  simp [Limits.check, Limits.refusal, digitLimit, not_lt.mpr h]

section Numbers

/-- An integer that `str` writes and `int` reads. -/
def intReadable (n : ℤ) : Prop := (PyText.digits n.natAbs).length ≤ maxStrDigits

theorem scanUnsigned_digits {n : ℕ} (hn : (PyText.digits n).length ≤ maxStrDigits)
    (negative : Bool) {q : PyStr} (hq : Stops q) :
    scanUnsigned digitLimit parseFloat negative (PyText.digits n ++ q) =
      .ok (.int (if negative then -(n : ℤ) else n), q) := by
  have hhead : ∀ c, isNumberChar c = true → q.head? ≠ some c := by
    intro c hc hhead
    have := (head?_append_iff hq hc []).mp hhead
    cases this
  have hdigit : PyText.Ends PyText.isDigit q := by
    intro c rest hc
    have := hq c rest hc
    simp only [isNumberChar, Bool.or_eq_false_iff] at this
    exact this.1
  have hdigits : scanDigits (PyText.digits n ++ q) = (PyText.digits n, q) := by
    rcases PyText.digits_eq n with hzero | ⟨c, s, hn, hlow, -⟩
    · rw [hzero]
      rfl
    · obtain ⟨htake, hdrop⟩ := PyText.takeWhile_run (s := PyText.digits n)
        (fun c hc => PyText.isDigit_of_mem_digits hc) hdigit
      have hne : (PyText.digits n ++ q).head? ≠ some 48 := by
        rw [hn]
        simp only [List.cons_append, List.head?_cons, ne_eq, Option.some.injEq]
        omega
      rw [scanDigits, if_neg hne, htake, hdrop]
  have hfraction : scanFraction q = ([], q) := if_neg (hhead 46 (by decide))
  have hexponent : scanExponent q = ([], q) :=
    if_neg (not_or.mpr ⟨hhead 101 (by decide), hhead 69 (by decide)⟩)
  simp only [scanUnsigned, hdigits, hfraction, hexponent, PyText.digits_ne_nil, if_false,
    and_self, if_true, check_integer hn, ok_bind, PyText.ofDigits_digits]
  rfl

theorem reads_int {n : ℤ} (hn : intReadable n) : Reads parseFloat (py (toString n)) (.int n) := by
  intro m depth q hm hq
  obtain ⟨c, s, hdigits, hc⟩ :
      ∃ c s, PyText.digits n.natAbs = c :: s ∧ PyText.isDigit c = true := by
    obtain ⟨c, s, h⟩ := List.exists_cons_of_ne_nil (PyText.digits_ne_nil n.natAbs)
    exact ⟨c, s, h, PyText.isDigit_of_mem_digits (h ▸ List.mem_cons_self)⟩
  rw [PyText.isDigit_iff] at hc
  have hscan := fun negative => @scanUnsigned_digits parseFloat _ hn negative q hq
  rw [PyText.py_toString_int] at hm ⊢
  rw [hdigits] at hm hscan ⊢
  obtain ⟨m, rfl⟩ : ∃ k, m = k + 1 := by
    refine ⟨m - 1, ?_⟩
    split_ifs at hm <;> simp only [List.length_cons] at hm <;> omega
  split_ifs with hneg
  · have hnext : c ≠ 73 := by omega
    rw [List.cons_append, scanValue_atom (by decide)]
    simp only [scanAtom, List.cons_append, List.head?_cons, Option.some.injEq, hnext]
    refine (hscan true).trans ?_
    simp only [if_true]
    congr 3
    omega
  · have hatom : c ∉ [32, 9, 10, 13, 34, 91, 123] := by
      simp only [List.mem_cons, List.not_mem_nil, or_false]
      omega
    rw [List.cons_append, scanValue_atom hatom]
    have hletters : ¬ c = 110 ∧ ¬ c = 116 ∧ ¬ c = 102 ∧ ¬ c = 78 ∧ ¬ c = 73 ∧ ¬ c = 45 := by omega
    simp only [scanAtom, hletters, if_false]
    refine (hscan false).trans ?_
    simp only [Bool.false_eq_true, if_false]
    congr 3
    omega

end Numbers

theorem reads_literal {c : ℕ} {t : PyStr} {v : Json} (hc : c ∈ [110, 116, 102])
    (hatom : ∀ s, scanAtom digitLimit parseFloat (c :: s) = literal (c :: t) v (c :: s)) :
    Reads parseFloat (c :: t) v := by
  intro n depth q hn hq
  obtain ⟨n, rfl⟩ : ∃ k, n = k + 1 := ⟨n - 1, by simp only [List.length_cons] at hn; omega⟩
  have hother : c ∉ [32, 9, 10, 13, 34, 91, 123] := by
    simp only [List.mem_cons, List.not_mem_nil, or_false] at hc ⊢
    omega
  have hprefix : c :: t <+: c :: (t ++ q) := List.prefix_append (c :: t) q
  rw [List.cons_append, scanValue_atom hother, hatom, literal, if_pos hprefix]
  simp

theorem reads_null : Reads parseFloat (py "null") .null :=
  reads_literal (c := 110) (t := py "ull") (by decide) fun _ => rfl

theorem reads_true : Reads parseFloat (py "true") (.bool true) :=
  reads_literal (c := 116) (t := py "rue") (by decide) fun _ => rfl

theorem reads_false : Reads parseFloat (py "false") (.bool false) :=
  reads_literal (c := 102) (t := py "alse") (by decide) fun _ => rfl

theorem reads_quote {s : PyStr} (hs : f.Keeps s) :
    Reads parseFloat (quote f.ensureAscii s) (.str s) := by
  intro n depth q hn hq
  obtain ⟨n, rfl⟩ : ∃ k, n = k + 1 := ⟨n - 1, by simp [quote, py] at hn; omega⟩
  have hquote : quote f.ensureAscii s ++ q =
      34 :: (s.flatMap (escapeChar f.ensureAscii) ++ 34 :: q) := by
    simp [quote, py]
  rw [hquote, scanValue_string, scanString_quote hs, ok_bind]

section Containers

/-- Nothing that is read as a value begins with a closing bracket. -/
theorem next_of_scanValue {n depth : ℕ} {s : PyStr} {r : Json × PyStr}
    (h : scanValue digitLimit parseFloat n depth s = .ok r) :
    ∃ c rest, nextChar s = .ok (c, rest) ∧ c ≠ 93 := by
  cases n with
  | zero => cases h
  | succ n =>
    rw [scanValue] at h
    cases hnext : nextChar s with
    | error e => rw [hnext] at h; cases h
    | ok x =>
      refine ⟨x.1, x.2, rfl, fun hclose => ?_⟩
      obtain ⟨c, rest⟩ := x
      obtain rfl : c = 93 := hclose
      have herror : scanAtom digitLimit parseFloat (93 :: rest) = .error .decodeError := by
        simp [scanAtom, scanUnsigned, scanDigits, PyText.isDigit]
      rw [hnext] at h
      cases herror.symm.trans h

/-- The texts of the items with separators between them, up to the closing bracket. -/
theorem scanItems_texts {sep w : PyStr} (hsep : ∀ c ∈ sep, isWhitespace c = true)
    (hw : ∀ c ∈ w, isWhitespace c = true) {texts : List PyStr} {vs : List Json}
    (h : List.Forall₂ (Reads parseFloat) texts vs) (hne : texts ≠ []) {n : ℕ} (depth : ℕ)
    (hn : 2 * (texts.intersperse (44 :: sep)).flatten.length + 1 ≤ n) (q : PyStr) :
    scanItems digitLimit parseFloat n depth
        ((texts.intersperse (44 :: sep)).flatten ++ (w ++ 93 :: q)) =
      .ok (vs, q) := by
  induction h generalizing n with
  | nil => exact absurd rfl hne
  | @cons text v texts vs htext hrest ih =>
    obtain ⟨n, rfl⟩ : ∃ k, n = k + 1 := ⟨n - 1, by omega⟩
    cases hrest with
    | nil =>
      simp only [List.intersperse_singleton, List.flatten_cons, List.flatten_nil, List.append_nil]
        at hn ⊢
      rw [scanItems_succ, htext n _ _ (by omega) (stops_append hw (by decide)), ok_bind,
        nextChar_append hw, nextChar_cons (by decide), ok_bind, if_pos rfl]
    | @cons text' v' texts vs htext' hrest =>
      have hcons : ((text :: text' :: texts).intersperse (44 :: sep)).flatten =
          text ++ 44 :: (sep ++ ((text' :: texts).intersperse (44 :: sep)).flatten) := by
        rw [List.intersperse_cons_cons, List.flatten_cons, List.flatten_cons, List.cons_append]
      rw [hcons] at hn ⊢
      simp only [List.length_append, List.length_cons] at hn
      rw [scanItems_succ, List.append_assoc, List.cons_append,
        htext n _ _ (by omega) (PyText.ends_cons (by decide)), ok_bind,
        nextChar_cons (by decide), ok_bind, if_neg (show ¬ 44 = 93 by decide), if_pos rfl,
        List.append_assoc, scanItems_append _ _ hsep, ih (by simp) (by omega), ok_bind]

/-- The separators are a comma and a colon with white space after them. -/
structure DumpsFormat.Readable (f : DumpsFormat) : Prop where
  item : ∃ w, f.itemSeparator = 44 :: w ∧ ∀ c ∈ w, isWhitespace c = true
  key : ∃ w, f.keySeparator = 58 :: w ∧ ∀ c ∈ w, isWhitespace c = true

/-- The text of a field, which stands with its key, is read as the field. -/
structure ReadsField (parseFloat : PyStr → PyFloat) (f : DumpsFormat) (kt : PyStr × PyStr)
    (kv : PyStr × Json) : Prop where
  key : kt.1 = kv.1
  keeps : f.Keeps kv.1
  text : ∃ t, kt.2 = quote f.ensureAscii kv.1 ++ f.keySeparator ++ t ∧ Reads parseFloat t kv.2

theorem scanFields_field (hf : f.Readable) {kt : PyStr × PyStr} {kv : PyStr × Json}
    (h : ReadsField parseFloat f kt kv) {n depth : ℕ} (hn : 2 * kt.2.length ≤ n) {q : PyStr}
    (hq : Stops q) :
    scanFields digitLimit parseFloat (n + 1) depth (kt.2 ++ q) = nextChar q >>= fun y =>
      if y.1 = 125 then .ok ([kv], y.2)
      else if y.1 = 44 then
        scanFields digitLimit parseFloat n depth y.2 >>= fun z => .ok (kv :: z.1, z.2)
      else .error .decodeError := by
  obtain ⟨t, htext, hreads⟩ := h.text
  obtain ⟨w, hkey, hw⟩ := hf.key
  have hquote : kt.2 ++ q =
      34 :: (kv.1.flatMap (escapeChar f.ensureAscii) ++ 34 :: (58 :: (w ++ (t ++ q)))) := by
    rw [htext, hkey]
    simp [quote, py]
  have hlength : 2 * t.length ≤ n := by
    rw [htext, List.length_append] at hn
    omega
  rw [hquote, scanFields_quote, scanString_quote h.keeps, ok_bind, nextChar_cons (by decide),
    ok_bind, if_neg (not_not.mpr rfl), scanValue_append hw, hreads n _ q hlength hq, ok_bind]

/-- The texts of the fields with separators between them, up to the closing brace. -/
theorem scanFields_texts (hf : f.Readable) {sep w : PyStr}
    (hsep : ∀ c ∈ sep, isWhitespace c = true) (hw : ∀ c ∈ w, isWhitespace c = true)
    {texts : List (PyStr × PyStr)} {d : Dict}
    (h : List.Forall₂ (ReadsField parseFloat f) texts d) (hne : texts ≠ []) {n : ℕ} (depth : ℕ)
    (hn : 2 * ((texts.map Prod.snd).intersperse (44 :: sep)).flatten.length + 1 ≤ n) (q : PyStr) :
    scanFields digitLimit parseFloat n depth
        (((texts.map Prod.snd).intersperse (44 :: sep)).flatten ++ (w ++ 125 :: q)) =
      .ok (d, q) := by
  induction h generalizing n with
  | nil => exact absurd rfl hne
  | @cons text kv texts d htext hrest ih =>
    obtain ⟨n, rfl⟩ : ∃ k, n = k + 1 := ⟨n - 1, by omega⟩
    cases hrest with
    | nil =>
      simp only [List.map_cons, List.map_nil, List.intersperse_singleton, List.flatten_cons,
        List.flatten_nil, List.append_nil] at hn ⊢
      rw [scanFields_field hf htext (by omega) (stops_append hw (by decide)), nextChar_append hw,
        nextChar_cons (by decide), ok_bind, if_pos rfl]
    | @cons text' kv' texts d htext' hrest =>
      have hcons : (((text :: text' :: texts).map Prod.snd).intersperse (44 :: sep)).flatten =
          text.2 ++ 44 :: (sep ++ (((text' :: texts).map Prod.snd).intersperse
            (44 :: sep)).flatten) := by
        rw [List.map_cons, List.map_cons, List.intersperse_cons_cons, List.flatten_cons,
          List.flatten_cons, List.cons_append]
      rw [hcons] at hn ⊢
      simp only [List.length_append, List.length_cons] at hn
      rw [List.append_assoc, List.cons_append,
        scanFields_field hf htext (by omega) (PyText.ends_cons (by decide)),
        nextChar_cons (by decide), ok_bind, if_neg (show ¬ 44 = 125 by decide), if_pos rfl,
        List.append_assoc, scanFields_append _ _ hsep, ih (by simp) (by omega), ok_bind]

theorem isWhitespace_newline (f : DumpsFormat) (level : ℕ) :
    ∀ c ∈ newline f level, isWhitespace c = true := by
  intro c hc
  unfold newline at hc
  split at hc
  · cases hc
  · rcases List.mem_append.mp hc with hc | hc
    · obtain rfl : c = 10 := by simpa [py] using hc
      rfl
    · rw [List.eq_of_mem_replicate hc]
      rfl

theorem next_of_scanItems {n depth : ℕ} {s : PyStr} {r : List Json × PyStr}
    (h : scanItems digitLimit parseFloat n depth s = .ok r) :
    ∃ c rest, nextChar s = .ok (c, rest) ∧ c ≠ 93 := by
  cases n with
  | zero => cases h
  | succ n =>
    cases hvalue : scanValue digitLimit parseFloat n depth s with
    | error e => rw [scanItems_succ, hvalue] at h; cases h
    | ok x => exact next_of_scanValue hvalue

theorem next_of_scanFields {n depth : ℕ} {s : PyStr} {r : Dict × PyStr}
    (h : scanFields digitLimit parseFloat n depth s = .ok r) :
    ∃ rest, nextChar s = .ok (34, rest) := by
  cases n with
  | zero => cases h
  | succ n =>
    rw [scanFields] at h
    cases hnext : nextChar s with
    | error e => rw [hnext] at h; cases h
    | ok x =>
      by_cases hquote : x.1 = 34
      · exact ⟨x.2, by rw [← hquote]⟩
      · rw [hnext, ok_bind] at h
        simp only [ne_eq, hquote, not_false_eq_true, if_true] at h
        cases h

/-- A list or an object is its brackets around lines of its own. -/
theorem bracket_append {opening closing : ℕ} {w : PyStr} (hw : f.itemSeparator = 44 :: w)
    (level : ℕ) {items : List PyStr} (hne : items ≠ []) (q : PyStr) :
    bracket f level [opening] [closing] items ++ q =
      opening :: (newline f (level + 1) ++
        ((items.intersperse (44 :: (w ++ newline f (level + 1)))).flatten ++
          (newline f level ++ closing :: q))) := by
  rw [bracket, if_neg (by simpa using hne), hw]
  simp

theorem reads_list (hf : f.Readable) (level : ℕ) {texts : List PyStr} {vs : List Json}
    (h : List.Forall₂ (Reads parseFloat) texts vs) :
    Reads parseFloat (bracket f level (py "[") (py "]") texts) (.arr vs) := by
  intro n depth q hn hq
  obtain ⟨w, hitem, hw⟩ := hf.item
  have hsep : ∀ c ∈ w ++ newline f (level + 1), isWhitespace c = true := fun c hc =>
    (List.mem_append.mp hc).elim (hw c) (isWhitespace_newline f _ c)
  have hopen : py "[" = [91] := by decide
  have hclose : py "]" = [93] := by decide
  rw [hopen, hclose] at hn ⊢
  by_cases hne : texts = []
  · subst hne
    cases h
    obtain ⟨n, rfl⟩ : ∃ k, n = k + 1 := ⟨n - 1, by simp [bracket] at hn; omega⟩
    change scanValue digitLimit parseFloat (n + 1) depth (91 :: 93 :: q) = _
    rw [scanValue_list, check_opening, ok_bind, nextChar_cons (by decide), ok_bind, if_pos rfl]
  · have hlength := congrArg List.length (@bracket_append f 91 93 w hitem level texts hne [])
    simp only [List.append_nil, List.length_cons, List.length_append] at hlength
    obtain ⟨n, rfl⟩ : ∃ k, n = k + 1 := ⟨n - 1, by omega⟩
    have hscan := scanItems_texts (n := n) hsep (isWhitespace_newline f level) h hne (depth + 1)
      (by omega) q
    obtain ⟨c, rest, hnext, hc⟩ := next_of_scanItems hscan
    rw [bracket_append hitem level hne, scanValue_list, check_opening, ok_bind,
      nextChar_append (isWhitespace_newline f _),
      hnext, ok_bind, if_neg hc, scanItems_append _ _ (isWhitespace_newline f _), hscan, ok_bind]

/-- Assigning the fields one by one to an empty `dict` gives them back. -/
theorem update_of_nodup {d : Dict} (h : (d.map Prod.fst).Nodup) : Dict.update [] d = d := by
  have happend : ∀ (d e : Dict), ((e ++ d).map Prod.fst).Nodup → Dict.update e d = e ++ d := by
    intro d
    induction d with
    | nil => intro e _; simp [Dict.update]
    | cons kv d ih =>
      intro e hnodup
      have hset : ∀ (e : Dict), kv.1 ∉ e.map Prod.fst → e.set kv.1 kv.2 = e ++ [kv] := by
        intro e he
        induction e with
        | nil => rfl
        | cons x e ihe =>
          rw [List.map_cons, List.mem_cons, not_or] at he
          rw [Dict.set, if_neg (Ne.symm he.1), ihe he.2]
          rfl
      have hnotMem : kv.1 ∉ e.map Prod.fst := by
        rw [List.map_append, List.nodup_append] at hnodup
        intro hmem
        exact hnodup.2.2 _ hmem _ (by simp) rfl
      rw [Dict.update, List.foldl_cons, hset e hnotMem]
      have hstep := ih (e ++ [kv]) (by simpa using hnodup)
      rw [Dict.update] at hstep
      rw [hstep, List.append_assoc, List.singleton_append]
  exact happend d [] (by simpa using h)

theorem reads_object (hf : f.Readable) (level : ℕ) {texts : List (PyStr × PyStr)} {d : Dict}
    (h : List.Forall₂ (ReadsField parseFloat f) texts d) (hnodup : (d.map Prod.fst).Nodup) :
    Reads parseFloat (bracket f level (py "\x7b") (py "\x7d") (texts.map Prod.snd)) (.obj d) := by
  intro n depth q hn hq
  obtain ⟨w, hitem, hw⟩ := hf.item
  have hsep : ∀ c ∈ w ++ newline f (level + 1), isWhitespace c = true := fun c hc =>
    (List.mem_append.mp hc).elim (hw c) (isWhitespace_newline f _ c)
  have hopen : py "\x7b" = [123] := by decide
  have hclose : py "\x7d" = [125] := by decide
  rw [hopen, hclose] at hn ⊢
  by_cases hne : texts = []
  · subst hne
    cases h
    obtain ⟨n, rfl⟩ : ∃ k, n = k + 1 := ⟨n - 1, by simp [bracket] at hn; omega⟩
    change scanValue digitLimit parseFloat (n + 1) depth (123 :: 125 :: q) = _
    rw [scanValue_object, check_opening, ok_bind, nextChar_cons (by decide), ok_bind, if_pos rfl]
  · have hne' : texts.map Prod.snd ≠ [] := by simpa using hne
    have hlength := congrArg List.length (@bracket_append f 123 125 w hitem level _ hne' [])
    simp only [List.append_nil, List.length_cons, List.length_append] at hlength
    obtain ⟨n, rfl⟩ : ∃ k, n = k + 1 := ⟨n - 1, by omega⟩
    have hscan := scanFields_texts (n := n) hf hsep (isWhitespace_newline f level) h hne
      (depth + 1) (by omega) q
    obtain ⟨rest, hnext⟩ := next_of_scanFields hscan
    rw [bracket_append hitem level hne', scanValue_object, check_opening, ok_bind,
      nextChar_append (isWhitespace_newline f _), hnext, ok_bind,
      if_neg (show ¬ 34 = 125 by decide),
      scanFields_append _ _ (isWhitespace_newline f _), hscan, ok_bind, update_of_nodup hnodup]

end Containers

section Sorting
variable {α β : Type} {r : α → α → Prop} {s : β → β → Prop} [DecidableRel r] [DecidableRel s]
  {R : α → β → Prop}

/-- Sorting both sides by what the relation preserves preserves the relation. -/
theorem forall₂_orderedInsert (hrs : ∀ a a' b b', R a b → R a' b' → (r a a' ↔ s b b')) {a : α}
    {b : β} (hab : R a b) {l : List α} {l' : List β} (h : List.Forall₂ R l l') :
    List.Forall₂ R (l.orderedInsert r a) (l'.orderedInsert s b) := by
  induction h with
  | nil => exact .cons hab .nil
  | @cons x y l l' hxy hl ih =>
    rw [List.orderedInsert_cons, List.orderedInsert_cons]
    by_cases hax : r a x
    · rw [if_pos hax, if_pos ((hrs _ _ _ _ hab hxy).mp hax)]
      exact .cons hab (.cons hxy hl)
    · rw [if_neg hax, if_neg (mt (hrs _ _ _ _ hab hxy).mpr hax)]
      exact .cons hxy ih

theorem forall₂_insertionSort (hrs : ∀ a a' b b', R a b → R a' b' → (r a a' ↔ s b b'))
    {l : List α} {l' : List β} (h : List.Forall₂ R l l') :
    List.Forall₂ R (l.insertionSort r) (l'.insertionSort s) := by
  induction h with
  | nil => exact .nil
  | cons hab _ ih => exact forall₂_orderedInsert hrs hab ih

end Sorting

mutual
/-- A value that is written and read back: no floats, no integer too long for a text, strings the
format keeps, and objects whose keys are different. -/
def Plain (f : DumpsFormat) : Json → Prop
  | .null => True
  | .bool _ => True
  | .int n => intReadable n
  | .float _ => False
  | .str s => f.Keeps s
  | .arr xs => PlainItems f xs
  | .obj d => (d.map Prod.fst).Nodup ∧ PlainFields f d

def PlainItems (f : DumpsFormat) : List Json → Prop
  | [] => True
  | v :: vs => Plain f v ∧ PlainItems f vs

def PlainFields (f : DumpsFormat) : Dict → Prop
  | [] => True
  | (k, v) :: d => f.Keeps k ∧ Plain f v ∧ PlainFields f d
end

theorem plainFields_iff {d : Dict} :
    PlainFields f d ↔ ∀ kv ∈ d, f.Keeps kv.1 ∧ Plain f kv.2 := by
  induction d with
  | nil => simp [PlainFields]
  | cons kv d ih => rw [PlainFields, List.forall_mem_cons, ih, and_assoc]

theorem dumps_object (d : Dict) : ∃ s, dumps f floatRepr (.obj d) = 123 :: s := by
  have hopen : py "\x7b" = [123] := by decide
  rw [dumps, dumpsAt, bracket, hopen]
  split
  · exact ⟨_, rfl⟩
  · exact ⟨_, rfl⟩

theorem keys_sortValues (d : Dict) : (sortValues d).map Prod.fst = d.map Prod.fst := by
  induction d with
  | nil => rfl
  | cons kv d ih => rw [sortValues, List.map_cons, List.map_cons, ih]

theorem nodup_sorted {d : Dict} (h : (d.map Prod.fst).Nodup) :
    ((Dict.sorted d).map Prod.fst).Nodup := by
  have hperm := ((sortValues d).perm_insertionSort keyOrder).map Prod.fst
  rw [keys_sortValues] at hperm
  exact hperm.nodup_iff.mpr h

mutual
theorem reads_dumpsAt (hf : f.Readable) (level : ℕ) :
    ∀ v : Json, Plain f v → Reads parseFloat (dumpsAt f floatRepr level v) (sortKeys v)
  | .null, _ => reads_null
  | .bool true, _ => reads_true
  | .bool false, _ => reads_false
  | .int _, h => reads_int h
  | .str _, h => reads_quote h
  | .arr xs, h => reads_list hf level (reads_dumpsItems hf (level + 1) xs h)
  | .obj d, h => by
    have hfields : List.Forall₂ (ReadsField parseFloat f)
        (dumpsFields f floatRepr (level + 1) d) (sortValues d) :=
      reads_dumpsFields hf (level + 1) d h.2
    have hsorted := forall₂_insertionSort (r := fun a b : PyStr × PyStr => a.1 ≤ b.1)
      (s := keyOrder) (fun _ _ _ _ h h' => by rw [keyOrder, h.key, h'.key]) hfields
    exact reads_object hf level hsorted (nodup_sorted h.1)

theorem reads_dumpsItems (hf : f.Readable) (level : ℕ) :
    ∀ vs : List Json, PlainItems f vs →
      List.Forall₂ (Reads parseFloat) (dumpsItems f floatRepr level vs) (sortItems vs)
  | [], _ => .nil
  | v :: vs, h => .cons (reads_dumpsAt hf level v h.1) (reads_dumpsItems hf level vs h.2)

theorem reads_dumpsFields (hf : f.Readable) (level : ℕ) :
    ∀ d : Dict, PlainFields f d →
      List.Forall₂ (ReadsField parseFloat f) (dumpsFields f floatRepr level d) (sortValues d)
  | [], _ => .nil
  | (_, v) :: d, h =>
    .cons ⟨rfl, h.1, _, rfl, reads_dumpsAt hf level v h.2.1⟩ (reads_dumpsFields hf level d h.2.2)
end

/-- What was written is read back with sorted keys. -/
theorem loads_dumps (hf : f.Readable) {v : Json} (h : Plain f v) :
    loads parseFloat (dumps f floatRepr v) = .ok (sortKeys v) := by
  have hreads : Reads parseFloat (dumps f floatRepr v) (sortKeys v) := reads_dumpsAt hf 0 v h
  have hscan := hreads (2 * (dumps f floatRepr v).length + 2) 0 [] (by omega) (PyText.ends_nil _)
  rw [List.append_nil] at hscan
  rw [loads, loadsWithin, hscan, ok_bind]
  rfl

end Json
