import AgentRuntimeGrid.Lib.Digits
import AgentRuntimeGrid.Lib.Json

/-! `json.loads` with its default arguments: the scanner of values, with what is left of the text
after each. A number with a fraction or an exponent is read by a parameter. -/
namespace Json

/-- What `json.loads` raises: its own error, or one of the interpreter's. -/
inductive ScanError where
  | decodeError | valueError | recursionError
  deriving DecidableEq, Repr

/-- What the interpreter limits: the digits of an integer, and how many lists and objects are open
with the one that a bracket opens. -/
inductive Mark where
  | integer (digits : ℕ)
  | opening (depth : ℕ)
  deriving DecidableEq, Repr

/-- Up to where the interpreter reads; `none` is no limit. -/
structure Limits where
  digits : Option ℕ
  depth : Option ℕ

namespace Limits

def refusal (limits : Limits) : Mark → Option ScanError
  | .integer digits => if limits.digits.any (· < digits) then some .valueError else none
  | .opening depth => if limits.depth.any (· < depth) then some .recursionError else none

def check (limits : Limits) (mark : Mark) : Except ScanError Unit :=
  (limits.refusal mark).elim (.ok ()) .error

/-- The grammar alone. -/
def unlimited : Limits := ⟨none, none⟩

end Limits

/-- `sys.get_int_max_str_digits()`. -/
def maxStrDigits : ℕ := 4300

def isWhitespace (c : ℕ) : Bool := c = 32 || c = 9 || c = 10 || c = 13

def skipWhitespace (s : PyStr) : PyStr := s.dropWhile isWhitespace

def hexValue (c : ℕ) : Option ℕ :=
  if 48 ≤ c && c ≤ 57 then some (c - 48)
  else if 97 ≤ c && c ≤ 102 then some (c - 87)
  else if 65 ≤ c && c ≤ 70 then some (c - 55)
  else none

/-- The characters after a backslash, `u` apart. -/
def simpleEscape (c : ℕ) : Option ℕ :=
  if c = 34 || c = 92 || c = 47 then some c
  else if c = 98 then some 8
  else if c = 102 then some 12
  else if c = 110 then some 10
  else if c = 114 then some 13
  else if c = 116 then some 9
  else none

/-- Where in a string the scanner stands; `digits` have been read after `\u`. -/
inductive StringState where
  | plain
  | escape
  | unicode (digits value : ℕ)

/-- The characters of a string up to its closing quote, each with whether it was written
`\uXXXX`. -/
def scanUnits : StringState → PyStr → Option (List (Bool × ℕ) × PyStr)
  | _, [] => none
  | .plain, c :: rest =>
    if c = 34 then some ([], rest)
    else if c = 92 then scanUnits .escape rest
    else if c < 32 then none
    else (scanUnits .plain rest).map fun r => ((false, c) :: r.1, r.2)
  | .escape, c :: rest =>
    if c = 117 then scanUnits (.unicode 0 0) rest
    else match simpleEscape c with
      | none => none
      | some d => (scanUnits .plain rest).map fun r => ((false, d) :: r.1, r.2)
  | .unicode digits value, c :: rest =>
    match hexValue c with
    | none => none
    | some h =>
      if digits = 3 then
        (scanUnits .plain rest).map fun r => ((true, 16 * value + h) :: r.1, r.2)
      else scanUnits (.unicode (digits + 1) (16 * value + h)) rest

def isHighSurrogate (c : ℕ) : Bool := 0xD800 ≤ c && c ≤ 0xDBFF

def isLowSurrogate (c : ℕ) : Bool := 0xDC00 ≤ c && c ≤ 0xDFFF

/-- Two surrogates written one after the other are one character. -/
def joinSurrogates : List (Bool × ℕ) → PyStr
  | [] => []
  | [u] => [u.2]
  | u :: v :: units =>
    if u.1 && v.1 && isHighSurrogate u.2 && isLowSurrogate v.2 then
      (0x10000 + (u.2 - 0xD800) * 1024 + (v.2 - 0xDC00)) :: joinSurrogates units
    else u.2 :: joinSurrogates (v :: units)

/-- `scanstring` after the opening quote. -/
def scanString (s : PyStr) : Except ScanError (PyStr × PyStr) :=
  match scanUnits .plain s with
  | none => .error .decodeError
  | some (units, rest) => .ok (joinSurrogates units, rest)

/-- The integer part of a number: a zero, or digits that do not start with one. -/
def scanDigits (s : PyStr) : PyStr × PyStr :=
  if s.head? = some 48 then ([48], s.tail)
  else (s.takeWhile PyText.isDigit, s.dropWhile PyText.isDigit)

/-- `before` with the digits after it, if there are any. -/
def digitsAfter (before s rest : PyStr) : PyStr × PyStr :=
  if s.takeWhile PyText.isDigit = [] then ([], rest)
  else (before ++ s.takeWhile PyText.isDigit, s.dropWhile PyText.isDigit)

def scanFraction (s : PyStr) : PyStr × PyStr :=
  if s.head? = some 46 then digitsAfter [46] s.tail s else ([], s)

def scanExponent (s : PyStr) : PyStr × PyStr :=
  if s.head? = some 101 ∨ s.head? = some 69 then
    if s.tail.head? = some 43 ∨ s.tail.head? = some 45 then digitsAfter (s.take 2) (s.drop 2) s
    else digitsAfter (s.take 1) (s.drop 1) s
  else ([], s)

variable (limits : Limits) (parseFloat : PyStr → PyFloat)

/-- A number without its sign. -/
def scanUnsigned (negative : Bool) (s : PyStr) : Except ScanError (Json × PyStr) :=
  let (whole, afterWhole) := scanDigits s
  let (fraction, afterFraction) := scanFraction afterWhole
  let (exponent, rest) := scanExponent afterFraction
  if whole = [] then .error .decodeError
  else if fraction = [] ∧ exponent = [] then do
    limits.check (.integer whole.length)
    return (.int (if negative then -(PyText.ofDigits whole : ℤ) else PyText.ofDigits whole), rest)
  else
    let sign := if negative then [45] else []
    .ok (.float (parseFloat (sign ++ whole ++ fraction ++ exponent)), rest)

def literal (text : PyStr) (v : Json) (s : PyStr) : Except ScanError (Json × PyStr) :=
  if text <+: s then .ok (v, s.drop text.length) else .error .decodeError

/-- `scan_once` of what is neither a string nor a list nor an object. -/
def scanAtom (s : PyStr) : Except ScanError (Json × PyStr) :=
  match s with
  | [] => .error .decodeError
  | c :: rest =>
    if c = 110 then literal (py "null") .null s
    else if c = 116 then literal (py "true") (.bool true) s
    else if c = 102 then literal (py "false") (.bool false) s
    else if c = 78 then literal (py "NaN") (.float .nan) s
    else if c = 73 then literal (py "Infinity") (.float (.infinity false)) s
    else if c = 45 then
      if rest.head? = some 73 then literal (py "-Infinity") (.float (.infinity true)) s
      else scanUnsigned limits parseFloat true rest
    else scanUnsigned limits parseFloat false s

def nextChar (s : PyStr) : Except ScanError (ℕ × PyStr) :=
  match skipWhitespace s with
  | [] => .error .decodeError
  | c :: rest => .ok (c, rest)

mutual
/-- `scan_once` after white space, with `depth` lists and objects open; the first number bounds the
nested calls. -/
def scanValue : ℕ → ℕ → PyStr → Except ScanError (Json × PyStr)
  | 0, _, _ => .error .decodeError
  | n + 1, depth, s => do
    let (c, rest) ← nextChar s
    if c = 34 then
      let (text, rest) ← scanString rest
      return (.str text, rest)
    else if c = 91 then
      limits.check (.opening (depth + 1))
      let (d, afterBracket) ← nextChar rest
      if d = 93 then return (.arr [], afterBracket)
      else
        let (xs, rest) ← scanItems n (depth + 1) rest
        return (.arr xs, rest)
    else if c = 123 then
      limits.check (.opening (depth + 1))
      let (d, afterBrace) ← nextChar rest
      if d = 125 then return (.obj [], afterBrace)
      else
        let (d, rest) ← scanFields n (depth + 1) rest
        return (.obj (Dict.update [] d), rest)
    else scanAtom limits parseFloat (c :: rest)

/-- The values of a list that has one. -/
def scanItems : ℕ → ℕ → PyStr → Except ScanError (List Json × PyStr)
  | 0, _, _ => .error .decodeError
  | n + 1, depth, s => do
    let (v, rest) ← scanValue n depth s
    let (c, rest) ← nextChar rest
    if c = 93 then return ([v], rest)
    else if c = 44 then
      let (vs, rest) ← scanItems n depth rest
      return (v :: vs, rest)
    else .error .decodeError

/-- The fields of an object that has one, in the order of the text. -/
def scanFields : ℕ → ℕ → PyStr → Except ScanError (Dict × PyStr)
  | 0, _, _ => .error .decodeError
  | n + 1, depth, s => do
    let (c, rest) ← nextChar s
    if c ≠ 34 then .error .decodeError
    else
      let (k, rest) ← scanString rest
      let (c, rest) ← nextChar rest
      if c ≠ 58 then .error .decodeError
      else
        let (v, rest) ← scanValue n depth rest
        let (c, rest) ← nextChar rest
        if c = 125 then return ([(k, v)], rest)
        else if c = 44 then
          let (d, rest) ← scanFields n depth rest
          return ((k, v) :: d, rest)
        else .error .decodeError
end

/-- `json.loads(text)` in an interpreter with these limits. -/
def loadsWithin (text : PyStr) : Except ScanError Json := do
  let (v, rest) ← scanValue limits parseFloat (2 * text.length + 2) 0 text
  if skipWhitespace rest = [] then return v
  else .error .decodeError

/-- The limit of integers alone. -/
def digitLimit : Limits := ⟨some maxStrDigits, none⟩

/-- `json.loads(text)`, but for a text that is nested too deep. -/
def loads (text : PyStr) : Except ScanError Json := loadsWithin digitLimit parseFloat text

example : loads (fun _ => .nan) (py " \x7b\"a\": [1, -20], \"a\": \"\\ud83d\\ude00\"\x7d ") =
    .ok (.obj [(py "a", .str [0x1F600])]) := by decide +kernel

section Extends
variable {α β : Type} {q : PyStr}

/-- What is read of a text is read of one that goes on, and more is left. -/
def Extends (q : PyStr) (r r' : Except ScanError (α × PyStr)) : Prop :=
  ∀ v rest, r = .ok (v, rest) → r' = .ok (v, rest ++ q)

theorem Extends.ok (v : α) (rest : PyStr) : Extends q (.ok (v, rest)) (.ok (v, rest ++ q)) := by
  intro v' rest' h
  cases h
  rfl

theorem Extends.error (e : ScanError) (r : Except ScanError (α × PyStr)) :
    Extends q (.error e) r := by
  intro v rest h
  cases h

/-- What may follow the text of a number within it. -/
def isNumberChar (c : ℕ) : Bool := PyText.isDigit c || c ∈ [46, 101, 69, 43, 45]

/-- The text is not the rest of a number. -/
def Stops (q : PyStr) : Prop := PyText.Ends isNumberChar q

theorem Extends.bind {r r' : Except ScanError (α × PyStr)}
    {f f' : α × PyStr → Except ScanError (β × PyStr)} (h : Extends q r r')
    (hf : ∀ v rest, Extends q (f (v, rest)) (f' (v, rest ++ q))) :
    Extends q (r >>= f) (r' >>= f') := by
  cases r with
  | error e => exact .error e _
  | ok x =>
    rw [h x.1 x.2 rfl]
    exact hf x.1 x.2

theorem Extends.check {limits : Limits} {mark : Mark}
    {f f' : Unit → Except ScanError (α × PyStr)} (hf : ∀ u, Extends q (f u) (f' u)) :
    Extends q (limits.check mark >>= f) (limits.check mark >>= f') := by
  cases limits.check mark with
  | error e => exact .error e _
  | ok u => exact hf u

theorem skipWhitespace_append {s : PyStr} (h : skipWhitespace s ≠ []) (q : PyStr) :
    skipWhitespace (s ++ q) = skipWhitespace s ++ q := by
  unfold skipWhitespace at h ⊢
  induction s with
  | nil => exact absurd rfl h
  | cons c s ih =>
    cases hc : isWhitespace c with
    | true =>
      rw [List.dropWhile_cons_of_pos hc] at h ⊢
      rw [List.cons_append, List.dropWhile_cons_of_pos hc, ih h]
    | false => simp [hc]

theorem scanUnits_append {state : StringState} {s rest : PyStr} {units : List (Bool × ℕ)}
    (h : scanUnits state s = some (units, rest)) (q : PyStr) :
    scanUnits state (s ++ q) = some (units, rest ++ q) := by
  induction s generalizing state units with
  | nil => cases state <;> cases h
  | cons c s ih =>
    have hmap : ∀ {f : List (Bool × ℕ) → List (Bool × ℕ)},
        ((scanUnits .plain s).map fun r => (f r.1, r.2)) = some (units, rest) →
        ((scanUnits .plain (s ++ q)).map fun r => (f r.1, r.2)) = some (units, rest ++ q) := by
      intro f h
      obtain ⟨⟨us, r⟩, hs, heq⟩ := Option.map_eq_some_iff.mp h
      cases heq
      rw [ih hs]
      rfl
    cases state with
    | plain =>
      simp only [scanUnits, List.cons_append] at h ⊢
      split_ifs at h ⊢ with h34 h92 h32
      · cases h
        rfl
      · exact ih h
      · exact hmap h
    | escape =>
      simp only [scanUnits, List.cons_append] at h ⊢
      split_ifs at h ⊢ with h117
      · exact ih h
      · cases hc : simpleEscape c with
        | none => simp [hc] at h
        | some d =>
          simp only [hc] at h ⊢
          exact hmap h
    | unicode digits value =>
      simp only [scanUnits, List.cons_append] at h ⊢
      cases hc : hexValue c with
      | none => simp [hc] at h
      | some d =>
        simp only [hc] at h ⊢
        split_ifs at h ⊢ with hdigits
        · exact hmap h
        · exact ih h

theorem scanString_extends (s : PyStr) : Extends q (scanString s) (scanString (s ++ q)) := by
  unfold scanString
  cases h : scanUnits .plain s with
  | none => exact .error _ _
  | some r =>
    rw [scanUnits_append h q]
    exact .ok _ _

theorem Extends.literal (text : PyStr) (v : Json) (s : PyStr) :
    Extends q (Json.literal text v s) (Json.literal text v (s ++ q)) := by
  unfold Json.literal
  split_ifs with h h'
  · rw [List.drop_append_of_le_length h.length_le]
    exact .ok _ _
  · exact absurd (h.trans (List.prefix_append s q)) h'
  · exact .error _ _
  · exact .error _ _

theorem tail_append_of_head {c : ℕ} {s : PyStr} (h : s.head? = some c) (q : PyStr) :
    (s ++ q).tail = s.tail ++ q := by
  cases s with
  | nil => cases h
  | cons d s => rfl

section Stops
variable (hq : Stops q)
include hq

theorem span_isDigit_append (s : PyStr) :
    (s ++ q).takeWhile PyText.isDigit = s.takeWhile PyText.isDigit ∧
    (s ++ q).dropWhile PyText.isDigit = s.dropWhile PyText.isDigit ++ q := by
  induction s with
  | nil =>
    have hdigit : PyText.Ends PyText.isDigit q := by
      intro c rest hc
      have := hq c rest hc
      simp only [isNumberChar, Bool.or_eq_false_iff] at this
      exact this.1
    exact PyText.takeWhile_run (s := []) nofun hdigit
  | cons c s ih =>
    cases hc : PyText.isDigit c with
    | true => simp [hc, ih]
    | false => simp [hc]

theorem head?_append_iff {c : ℕ} (hc : isNumberChar c = true) (s : PyStr) :
    (s ++ q).head? = some c ↔ s.head? = some c := by
  cases s with
  | cons d s => rfl
  | nil =>
    cases q with
    | nil => rfl
    | cons d q =>
      have hd := hq d q rfl
      simp only [List.nil_append, List.head?_cons, Option.some.injEq, List.head?_nil, reduceCtorEq,
        iff_false]
      rintro rfl
      rw [hc] at hd
      cases hd

theorem scanDigits_append (s : PyStr) :
    scanDigits (s ++ q) = ((scanDigits s).1, (scanDigits s).2 ++ q) := by
  obtain ⟨htake, hdrop⟩ := span_isDigit_append hq s
  unfold scanDigits
  rw [if_congr (head?_append_iff hq (c := 48) (by decide) s) rfl rfl]
  split_ifs with h
  · rw [tail_append_of_head h]
  · rw [htake, hdrop]

theorem digitsAfter_append (before s rest : PyStr) :
    digitsAfter before (s ++ q) (rest ++ q) =
      ((digitsAfter before s rest).1, (digitsAfter before s rest).2 ++ q) := by
  obtain ⟨htake, hdrop⟩ := span_isDigit_append hq s
  unfold digitsAfter
  rw [htake, hdrop]
  split_ifs <;> rfl

theorem scanFraction_append (s : PyStr) :
    scanFraction (s ++ q) = ((scanFraction s).1, (scanFraction s).2 ++ q) := by
  unfold scanFraction
  rw [if_congr (head?_append_iff hq (c := 46) (by decide) s) rfl rfl]
  split_ifs with h
  · rw [tail_append_of_head h, digitsAfter_append hq]
  · rfl

theorem scanExponent_append (s : PyStr) :
    scanExponent (s ++ q) = ((scanExponent s).1, (scanExponent s).2 ++ q) := by
  have hhead := fun c hc => head?_append_iff hq (c := c) hc s
  unfold scanExponent
  rw [if_congr (or_congr (hhead 101 (by decide)) (hhead 69 (by decide))) rfl rfl]
  by_cases h : s.head? = some 101 ∨ s.head? = some 69
  · rw [if_pos h, if_pos h]
    obtain ⟨e, t, rfl⟩ : ∃ e t, s = e :: t := by
      cases s with
      | nil => simp at h
      | cons e t => exact ⟨e, t, rfl⟩
    have hsign : ((e :: t ++ q).tail.head? = some 43 ∨ (e :: t ++ q).tail.head? = some 45) ↔
        ((e :: t).tail.head? = some 43 ∨ (e :: t).tail.head? = some 45) :=
      or_congr (head?_append_iff hq (by decide) t) (head?_append_iff hq (by decide) t)
    by_cases ht : (e :: t).tail.head? = some 43 ∨ (e :: t).tail.head? = some 45
    · rw [if_pos (hsign.mpr ht), if_pos ht]
      cases t with
      | nil => simp at ht
      | cons sign t => exact digitsAfter_append hq [e, sign] t (e :: sign :: t)
    · rw [if_neg (mt hsign.mp ht), if_neg ht]
      exact digitsAfter_append hq [e] t (e :: t)
  · rw [if_neg h, if_neg h]

variable (limits : Limits) (parseFloat : PyStr → PyFloat)

theorem scanUnsigned_extends (negative : Bool) (s : PyStr) :
    Extends q (scanUnsigned limits parseFloat negative s)
      (scanUnsigned limits parseFloat negative (s ++ q)) := by
  simp only [scanUnsigned, scanDigits_append hq, scanFraction_append hq, scanExponent_append hq]
  split
  · exact .error _ _
  split
  · exact .check fun _ => .ok _ _
  · exact .ok _ _

theorem scanAtom_extends {s : PyStr} (hs : s ≠ []) :
    Extends q (scanAtom limits parseFloat s) (scanAtom limits parseFloat (s ++ q)) := by
  obtain ⟨c, rest, rfl⟩ := List.exists_cons_of_ne_nil hs
  have hnumber := scanUnsigned_extends hq limits parseFloat false (c :: rest)
  have hnegative := scanUnsigned_extends hq limits parseFloat true rest
  simp only [scanAtom, List.cons_append] at hnumber ⊢
  split_ifs with h110 h116 h102 h78 h73 h45 hinf hinf' hinf'
  · exact .literal (py "null") .null (c :: rest)
  · exact .literal (py "true") (.bool true) (c :: rest)
  · exact .literal (py "false") (.bool false) (c :: rest)
  · exact .literal (py "NaN") (.float .nan) (c :: rest)
  · exact .literal (py "Infinity") (.float (.infinity false)) (c :: rest)
  · exact .literal (py "-Infinity") (.float (.infinity true)) (c :: rest)
  · cases rest with
    | nil => cases hinf
    | cons d rest => exact absurd hinf hinf'
  · -- the sign is all there is of the number
    cases rest with
    | nil => exact .error _ _
    | cons d rest => exact absurd hinf' hinf
  · exact hnegative
  · exact hnumber

end Stops

theorem nextChar_extends (s : PyStr) : Extends q (nextChar s) (nextChar (s ++ q)) := by
  unfold nextChar
  cases h : skipWhitespace s with
  | nil => exact .error _ _
  | cons c rest =>
    rw [skipWhitespace_append (by simp [h]), h]
    exact .ok _ _

theorem scan_extends (hq : Stops q) (limits : Limits) (parseFloat : PyStr → PyFloat) {n m : ℕ}
    (hn : n ≤ m) :
    (∀ depth s, Extends q (scanValue limits parseFloat n depth s)
      (scanValue limits parseFloat m depth (s ++ q))) ∧
    (∀ depth s, Extends q (scanItems limits parseFloat n depth s)
      (scanItems limits parseFloat m depth (s ++ q))) ∧
    ∀ depth s, Extends q (scanFields limits parseFloat n depth s)
      (scanFields limits parseFloat m depth (s ++ q)) := by
  induction n generalizing m with
  | zero => exact ⟨fun _ _ => .error _ _, fun _ _ => .error _ _, fun _ _ => .error _ _⟩
  | succ n ih =>
    obtain ⟨m, rfl⟩ : ∃ k, m = k + 1 := ⟨m - 1, by omega⟩
    obtain ⟨hvalue, hitems, hfields⟩ := ih (Nat.le_of_succ_le_succ hn)
    refine ⟨fun depth s => ?_, fun depth s => ?_, fun depth s => ?_⟩
    · rw [scanValue, scanValue]
      refine (nextChar_extends s).bind fun c rest => ?_
      dsimp only
      split_ifs
      · exact (scanString_extends rest).bind fun _ _ => .ok _ _
      · refine .check fun _ => (nextChar_extends rest).bind fun d _ => ?_
        dsimp only
        split_ifs
        · exact .ok _ _
        · exact (hitems _ rest).bind fun _ _ => .ok _ _
      · refine .check fun _ => (nextChar_extends rest).bind fun d _ => ?_
        dsimp only
        split_ifs
        · exact .ok _ _
        · exact (hfields _ rest).bind fun _ _ => .ok _ _
      · exact scanAtom_extends hq limits parseFloat (s := c :: rest) (List.cons_ne_nil c rest)
    · rw [scanItems, scanItems]
      refine (hvalue depth s).bind fun v rest => (nextChar_extends rest).bind fun c rest => ?_
      dsimp only
      split_ifs
      · exact .ok _ _
      · exact (hitems depth rest).bind fun _ _ => .ok _ _
      · exact .error _ _
    · rw [scanFields, scanFields]
      refine (nextChar_extends s).bind fun quote rest => ?_
      dsimp only
      split_ifs
      · exact .error _ _
      refine (scanString_extends rest).bind fun k rest =>
        (nextChar_extends rest).bind fun colon rest => ?_
      dsimp only
      split_ifs
      · exact .error _ _
      refine (hvalue depth rest).bind fun v rest => (nextChar_extends rest).bind fun c rest => ?_
      dsimp only
      split_ifs
      · exact .ok _ _
      · exact (hfields depth rest).bind fun _ _ => .ok _ _
      · exact .error _ _

end Extends

variable {limits parseFloat}

theorem ok_bind {ε α β : Type} (x : α) (f : α → Except ε β) : (Except.ok x >>= f) = f x := rfl

theorem nextChar_cons {c : ℕ} (hc : isWhitespace c = false) (q : PyStr) :
    nextChar (c :: q) = .ok (c, q) := by
  rw [nextChar, skipWhitespace, List.dropWhile_cons_of_neg (by simp [hc])]

theorem nextChar_append {w : PyStr} (hw : ∀ c ∈ w, isWhitespace c = true) (q : PyStr) :
    nextChar (w ++ q) = nextChar q := by
  rw [nextChar, nextChar, skipWhitespace, List.dropWhile_append_of_pos hw, skipWhitespace]

theorem scanValue_append {w : PyStr} (hw : ∀ c ∈ w, isWhitespace c = true) (n depth : ℕ)
    (q : PyStr) :
    scanValue limits parseFloat n depth (w ++ q) = scanValue limits parseFloat n depth q := by
  cases n with
  | zero => rfl
  | succ n => rw [scanValue, scanValue, nextChar_append hw]

section Steps
variable (n depth : ℕ) (q : PyStr)

theorem scanValue_string : scanValue limits parseFloat (n + 1) depth (34 :: q) =
    scanString q >>= fun x => .ok (.str x.1, x.2) := by
  rw [scanValue, nextChar_cons (by decide)]
  rfl

theorem scanValue_list : scanValue limits parseFloat (n + 1) depth (91 :: q) =
    limits.check (.opening (depth + 1)) >>= fun _ => nextChar q >>= fun x =>
      if x.1 = 93 then .ok (.arr [], x.2)
      else scanItems limits parseFloat n (depth + 1) q >>= fun y => .ok (.arr y.1, y.2) := by
  rw [scanValue, nextChar_cons (by decide)]
  rfl

theorem scanValue_object : scanValue limits parseFloat (n + 1) depth (123 :: q) =
    limits.check (.opening (depth + 1)) >>= fun _ => nextChar q >>= fun x =>
      if x.1 = 125 then .ok (.obj [], x.2)
      else scanFields limits parseFloat n (depth + 1) q >>= fun y =>
        .ok (.obj (Dict.update [] y.1), y.2) := by
  rw [scanValue, nextChar_cons (by decide)]
  rfl

theorem scanItems_succ : scanItems limits parseFloat (n + 1) depth q =
    scanValue limits parseFloat n depth q >>= fun x => nextChar x.2 >>= fun y =>
      if y.1 = 93 then .ok ([x.1], y.2)
      else if y.1 = 44 then
        scanItems limits parseFloat n depth y.2 >>= fun z => .ok (x.1 :: z.1, z.2)
      else .error .decodeError := by
  rw [scanItems]
  rfl

theorem scanFields_quote : scanFields limits parseFloat (n + 1) depth (34 :: q) =
    scanString q >>= fun k => nextChar k.2 >>= fun colon =>
      if colon.1 ≠ 58 then .error .decodeError
      else scanValue limits parseFloat n depth colon.2 >>= fun x => nextChar x.2 >>= fun y =>
        if y.1 = 125 then .ok ([(k.1, x.1)], y.2)
        else if y.1 = 44 then
          scanFields limits parseFloat n depth y.2 >>= fun z => .ok ((k.1, x.1) :: z.1, z.2)
        else .error .decodeError := by
  rw [scanFields, nextChar_cons (by decide)]
  rfl

variable {q} {w : PyStr}

theorem scanItems_append (hw : ∀ c ∈ w, isWhitespace c = true) :
    scanItems limits parseFloat n depth (w ++ q) = scanItems limits parseFloat n depth q := by
  cases n with
  | zero => rfl
  | succ n => rw [scanItems, scanItems, scanValue_append hw]

theorem scanFields_append (hw : ∀ c ∈ w, isWhitespace c = true) :
    scanFields limits parseFloat n depth (w ++ q) = scanFields limits parseFloat n depth q := by
  cases n with
  | zero => rfl
  | succ n => rw [scanFields, scanFields, nextChar_append hw]

end Steps

theorem scanValue_atom {c : ℕ} (hc : c ∉ [32, 9, 10, 13, 34, 91, 123]) (n depth : ℕ)
    (q : PyStr) :
    scanValue limits parseFloat (n + 1) depth (c :: q) = scanAtom limits parseFloat (c :: q) := by
  simp only [List.mem_cons, List.not_mem_nil, or_false, not_or] at hc
  rw [scanValue, nextChar_cons (by simp [isWhitespace, hc])]
  change (if c = 34 then _ else _) = _
  simp only [hc, if_false]

theorem isNumberChar_whitespace {c : ℕ} (hc : isWhitespace c = true) : isNumberChar c = false := by
  simp only [isWhitespace, Bool.or_eq_true, decide_eq_true_eq] at hc
  rcases hc with ((rfl | rfl) | rfl) | rfl <;> rfl

/-- White space and then one of these characters ends a number. -/
theorem stops_append {w q : PyStr} {c : ℕ} (hw : ∀ c ∈ w, isWhitespace c = true)
    (hc : isNumberChar c = false) : Stops (w ++ c :: q) := by
  cases w with
  | nil => exact PyText.ends_cons hc
  | cons d w => exact PyText.ends_cons (isNumberChar_whitespace (hw d (by simp)))

theorem stops_whitespace {w : PyStr} (hw : ∀ c ∈ w, isWhitespace c = true) : Stops w := by
  cases w with
  | nil => exact PyText.ends_nil _
  | cons d w => exact PyText.ends_cons (isNumberChar_whitespace (hw d (by simp)))

theorem skipWhitespace_eq_nil_iff {s : PyStr} :
    skipWhitespace s = [] ↔ ∀ c ∈ s, isWhitespace c = true := List.dropWhile_eq_nil_iff

theorem loadsWithin_eq_ok_iff {text : PyStr} {v : Json} :
    loadsWithin limits parseFloat text = .ok v ↔
      ∃ rest, scanValue limits parseFloat (2 * text.length + 2) 0 text = .ok (v, rest) ∧
        ∀ c ∈ rest, isWhitespace c = true := by
  unfold loadsWithin
  cases scanValue limits parseFloat (2 * text.length + 2) 0 text with
  | error e => exact ⟨fun h => (nomatch h), fun ⟨_, h, _⟩ => (nomatch h)⟩
  | ok r =>
    rw [ok_bind]
    dsimp only
    split
    next h =>
      rw [skipWhitespace_eq_nil_iff] at h
      constructor
      · intro heq
        cases heq
        exact ⟨r.2, rfl, h⟩
      · rintro ⟨rest, heq, -⟩
        cases heq
        rfl
    next h =>
      rw [skipWhitespace_eq_nil_iff] at h
      constructor
      · intro heq
        cases heq
      · rintro ⟨rest, heq, hrest⟩
        cases heq
        exact absurd hrest h

theorem loadsWithin_append {w t w' : PyStr} {v : Json} (hw : ∀ c ∈ w, isWhitespace c = true)
    (hw' : ∀ c ∈ w', isWhitespace c = true) (h : loadsWithin limits parseFloat t = .ok v) :
    loadsWithin limits parseFloat (w ++ (t ++ w')) = .ok v := by
  obtain ⟨rest, hscan, hrest⟩ := loadsWithin_eq_ok_iff.mp h
  have hlength : 2 * t.length + 2 ≤ 2 * (w ++ (t ++ w')).length + 2 := by
    simp only [List.length_append]
    omega
  have hextends := (scan_extends (stops_whitespace hw') limits parseFloat hlength).1 0 t _ _ hscan
  refine loadsWithin_eq_ok_iff.mpr ⟨rest ++ w', ?_, fun c hc => ?_⟩
  · rw [scanValue_append hw]
    exact hextends
  · exact (List.mem_append.mp hc).elim (hrest c) (hw' c)

end Json
