import AgentRuntimeGrid.Lib.PyText
import Mathlib.Data.Rat.Defs
import Mathlib.Data.List.Lex
import Mathlib.Data.List.Sort

/-! Decoded JSON values as Python sees them, and `json.dumps` with sorted keys. A float is an
exact rational, an infinity or not a number; its text is a parameter of the format. -/

inductive PyFloat where
  | finite (q : ℚ)
  | infinity (negative : Bool)
  | nan
  deriving DecidableEq

inductive Json where
  | null
  | bool (b : Bool)
  | int (n : ℤ)
  | float (x : PyFloat)
  | str (s : PyStr)
  | arr (xs : List Json)
  | obj (fields : List (PyStr × Json))

/-- A `dict` with string keys, in insertion order. -/
abbrev Dict := List (PyStr × Json)

namespace Dict

def get? (d : Dict) (k : PyStr) : Option Json := d.lookup k

/-- `d[k] = v`. -/
def set : Dict → PyStr → Json → Dict
  | [], k, v => [(k, v)]
  | (k', v') :: d, k, v => if k' = k then (k, v) :: d else (k', v') :: set d k v

/-- `d.update(e)`. -/
def update (d e : Dict) : Dict := e.foldl (fun d kv => d.set kv.1 kv.2) d

end Dict

namespace Json

/-- `bool(v)`. -/
def truthy : Json → Bool
  | null => false
  | bool b => b
  | int n => n ≠ 0
  | float x => x ≠ .finite 0
  | str s => s ≠ []
  | arr xs => !xs.isEmpty
  | obj d => !d.isEmpty

/-- `v == text`. -/
def isText : Json → PyStr → Bool
  | str s, t => s = t
  | _, _ => false

theorem isText_eq_true {v : Json} {s : PyStr} : v.isText s = true ↔ v = .str s := by
  cases v <;> simp [isText]

/-- Whether `v in {...}` is evaluated at all: a list or a `dict` raises a `TypeError`. -/
def hashable : Json → Bool
  | arr _ | obj _ => false
  | _ => true

mutual
/-- Equality of decoded values, which holds only of the same value. -/
def same : Json → Json → Bool
  | .null, .null => true
  | .bool a, .bool b => a = b
  | .int a, .int b => a = b
  | .float a, .float b => a = b
  | .str a, .str b => a = b
  | .arr a, .arr b => sameItems a b
  | .obj a, .obj b => sameFields a b
  | _, _ => false

def sameItems : List Json → List Json → Bool
  | [], [] => true
  | v :: vs, w :: ws => same v w && sameItems vs ws
  | _, _ => false

def sameFields : Dict → Dict → Bool
  | [], [] => true
  | (k, v) :: d, (l, w) :: e => k = l && same v w && sameFields d e
  | _, _ => false
end

mutual
theorem same_iff : ∀ v w : Json, same v w = true ↔ v = w
  | .null, w => by cases w <;> simp [same]
  | .bool _, w => by cases w <;> simp [same]
  | .int _, w => by cases w <;> simp [same]
  | .float _, w => by cases w <;> simp [same]
  | .str _, w => by cases w <;> simp [same]
  | .arr a, w => by cases w <;> simp [same, sameItems_iff a]
  | .obj a, w => by cases w <;> simp [same, sameFields_iff a]

theorem sameItems_iff : ∀ vs ws : List Json, sameItems vs ws = true ↔ vs = ws
  | [], ws => by cases ws <;> simp [sameItems]
  | v :: vs, ws => by cases ws <;> simp [sameItems, same_iff v, sameItems_iff vs]

theorem sameFields_iff : ∀ d e : Dict, sameFields d e = true ↔ d = e
  | [], e => by cases e <;> simp [sameFields]
  | (k, v) :: d, e => by
    cases e <;> simp [sameFields, same_iff v, sameFields_iff d, Prod.ext_iff]
end

instance : DecidableEq Json := fun v w => decidable_of_iff _ (same_iff v w)

mutual
/-- Every string and key satisfies `ps`, every float `pf`. -/
def all (ps : PyStr → Bool) (pf : PyFloat → Bool) : Json → Bool
  | .null => true
  | .bool _ => true
  | .int _ => true
  | .float x => pf x
  | .str s => ps s
  | .arr xs => allItems ps pf xs
  | .obj d => allFields ps pf d

def allItems (ps : PyStr → Bool) (pf : PyFloat → Bool) : List Json → Bool
  | [] => true
  | x :: xs => all ps pf x && allItems ps pf xs

def allFields (ps : PyStr → Bool) (pf : PyFloat → Bool) : Dict → Bool
  | [] => true
  | (k, v) :: d => ps k && all ps pf v && allFields ps pf d
end

/-- The arguments of `json.dumps` this repository varies. -/
structure DumpsFormat where
  itemSeparator : PyStr
  keySeparator : PyStr
  indent : Option ℕ
  ensureAscii : Bool

def hexDigit (n : ℕ) : ℕ := if n < 10 then 48 + n else 87 + n

def unicodeEscape (c : ℕ) : PyStr :=
  py "\\u" ++ [hexDigit (c / 4096 % 16), hexDigit (c / 256 % 16), hexDigit (c / 16 % 16),
    hexDigit (c % 16)]

def escapeChar (ensureAscii : Bool) (c : ℕ) : PyStr :=
  if c = 34 then py "\\\""
  else if c = 92 then py "\\\\"
  else if c = 10 then py "\\n"
  else if c = 13 then py "\\r"
  else if c = 9 then py "\\t"
  else if c = 12 then py "\\f"
  else if c = 8 then py "\\b"
  else if c < 32 then unicodeEscape c
  else if ensureAscii && 127 ≤ c then
    if c < 0x10000 then unicodeEscape c
    else unicodeEscape (0xD800 + (c - 0x10000) / 1024) ++
      unicodeEscape (0xDC00 + (c - 0x10000) % 1024)
  else [c]

def quote (ensureAscii : Bool) (s : PyStr) : PyStr :=
  py "\"" ++ s.flatMap (escapeChar ensureAscii) ++ py "\""

def newline (f : DumpsFormat) (level : ℕ) : PyStr :=
  match f.indent with
  | none => []
  | some n => py "\n" ++ List.replicate (n * level) 32

def bracket (f : DumpsFormat) (level : ℕ) (opening closing : PyStr) (items : List PyStr) :
    PyStr :=
  if items.isEmpty then opening ++ closing
  else opening ++ newline f (level + 1) ++
    (items.intersperse (f.itemSeparator ++ newline f (level + 1))).flatten ++
    newline f level ++ closing

mutual
/-- `json.dumps(v, sort_keys=True, ...)` at a nesting level. -/
def dumpsAt (f : DumpsFormat) (floatRepr : PyFloat → PyStr) (level : ℕ) : Json → PyStr
  | .null => py "null"
  | .bool true => py "true"
  | .bool false => py "false"
  | .int n => py (toString n)
  | .float x => floatRepr x
  | .str s => quote f.ensureAscii s
  | .arr xs => bracket f level (py "[") (py "]") (dumpsItems f floatRepr (level + 1) xs)
  | .obj d => bracket f level (py "\x7b") (py "\x7d")
      (((dumpsFields f floatRepr (level + 1) d).insertionSort fun a b => a.1 ≤ b.1).map Prod.snd)

def dumpsItems (f : DumpsFormat) (floatRepr : PyFloat → PyStr) (level : ℕ) :
    List Json → List PyStr
  | [] => []
  | x :: xs => dumpsAt f floatRepr level x :: dumpsItems f floatRepr level xs

def dumpsFields (f : DumpsFormat) (floatRepr : PyFloat → PyStr) (level : ℕ) :
    Dict → List (PyStr × PyStr)
  | [] => []
  | (k, v) :: d =>
      (k, quote f.ensureAscii k ++ f.keySeparator ++ dumpsAt f floatRepr level v) ::
        dumpsFields f floatRepr level d
end

def dumps (f : DumpsFormat) (floatRepr : PyFloat → PyStr) (v : Json) : PyStr :=
  dumpsAt f floatRepr 0 v

/-- `separators=(",", ":"), ensure_ascii=False`. -/
def compactFormat : DumpsFormat := ⟨py ",", py ":", none, false⟩

theorem dumps_compact_obj {floatRepr : PyFloat → PyStr} {d : Dict} (h : d ≠ []) :
    dumps compactFormat floatRepr (.obj d) = py "\x7b" ++
      ((((dumpsFields compactFormat floatRepr 1 d).insertionSort fun a b => a.1 ≤ b.1).map
        Prod.snd).intersperse (py ",")).flatten ++ py "\x7d" := by
  obtain ⟨⟨k, v⟩, d, rfl⟩ := List.exists_cons_of_ne_nil h
  have hitems : (((dumpsFields compactFormat floatRepr 1 ((k, v) :: d)).insertionSort
      fun a b => a.1 ≤ b.1).map Prod.snd).isEmpty = false := by
    rw [List.isEmpty_eq_false_iff, ← List.length_pos_iff, List.length_map,
      List.length_insertionSort, dumpsFields, List.length_cons]
    exact Nat.succ_pos _
  rw [dumps, dumpsAt, bracket, if_neg (by rw [hitems]; decide)]
  simp only [newline, compactFormat, List.append_nil]

/-- `indent=2`. -/
def indentedFormat : DumpsFormat := ⟨py ",", py ": ", some 2, true⟩

/-- An ASCII character that is neither a control character nor DEL. -/
def Printable (c : ℕ) : Prop := 32 ≤ c ∧ c < 127

instance (c : ℕ) : Decidable (Printable c) := inferInstanceAs (Decidable (_ ∧ _))

theorem Printable.lt {c : ℕ} (h : Printable c) : c < 128 := h.2.trans (by decide)

section CodePoints
variable {f : DumpsFormat} {floatRepr : PyFloat → PyStr} {P : ℕ → Prop}

private theorem forall_intersperse {sep : PyStr} {items : List PyStr} (hsep : ∀ c ∈ sep, P c)
    (hitems : ∀ x ∈ items, ∀ c ∈ x, P c) : ∀ c ∈ (items.intersperse sep).flatten, P c := by
  induction items with
  | nil => simp
  | cons x rest ih =>
    cases rest with
    | nil => simpa using hitems
    | cons y rest =>
      intro c hc
      simp only [List.intersperse_cons_cons, List.flatten_cons, List.mem_append] at hc
      rcases hc with hc | hc | hc
      · exact hitems x List.mem_cons_self c hc
      · exact hsep c hc
      · refine ih (fun x hx => hitems x (List.mem_cons_of_mem _ hx)) c ?_
        simpa using hc

private theorem forall_newline (hascii : ∀ c, Printable c → P c) (hline : f.indent = none ∨ P 10)
    (level : ℕ) : ∀ c ∈ newline f level, P c := by
  unfold newline
  split
  · simp
  next n hn =>
    intro c hc
    rcases List.mem_append.mp hc with hc | hc
    · obtain rfl : c = 10 := by simpa [py] using hc
      exact hline.resolve_left (by simp [hn])
    · rw [List.eq_of_mem_replicate hc]
      exact hascii 32 (by decide)

private theorem forall_bracket {opening closing : PyStr} {items : List PyStr} {level : ℕ}
    (hascii : ∀ c, Printable c → P c) (hline : f.indent = none ∨ P 10)
    (hsep : ∀ c ∈ f.itemSeparator, P c) (hopen : ∀ c ∈ opening, P c)
    (hclose : ∀ c ∈ closing, P c) (hitems : ∀ x ∈ items, ∀ c ∈ x, P c) :
    ∀ c ∈ bracket f level opening closing items, P c := by
  have hlines := forall_newline (f := f) hascii hline
  have happend : ∀ {s t : PyStr}, (∀ c ∈ s, P c) → (∀ c ∈ t, P c) → ∀ c ∈ s ++ t, P c :=
    fun hs ht c hc => (List.mem_append.mp hc).elim (hs c) (ht c)
  unfold bracket
  split
  · exact happend hopen hclose
  · refine happend (happend (happend (happend hopen (hlines _)) ?_) (hlines _)) hclose
    exact forall_intersperse (happend hsep (hlines _)) hitems

private theorem toString_ascii (n : ℤ) : ∀ c ∈ py (toString n), Printable c := by
  have digits : ∀ n : ℕ, ∀ c ∈ (Nat.toDigits 10 n).map Char.toNat, Printable c := by
    intro n c hc
    obtain ⟨d, hd, rfl⟩ := List.mem_map.mp hc
    have := Char.isDigit_iff_toNat.mp (Nat.isDigit_of_mem_toDigits (by decide) (by decide) hd)
    have h0 : '0'.toNat = 48 := rfl
    have h9 : '9'.toNat = 57 := rfl
    unfold Printable
    omega
  intro c hc
  cases n with
  | ofNat n =>
    have ht : (toString (Int.ofNat n)).toList = Nat.toDigits 10 n := by
      simp [toString, Int.repr, Nat.repr]
    rw [py, ht] at hc
    exact digits n c hc
  | negSucc n =>
    have ht : (toString (Int.negSucc n)).toList = '-' :: Nat.toDigits 10 (n + 1) := by
      simp [toString, Int.repr, Nat.repr]
    rw [py, ht, List.map_cons, List.mem_cons] at hc
    rcases hc with rfl | hc
    · decide
    · exact digits (n + 1) c hc

variable {ps : PyStr → Bool} {pf : PyFloat → Bool}

mutual
/-- What holds of every ASCII character, of the separators, of the text of the floats and of every
quoted string of the value holds of every code point of its text. -/
private theorem forall_dumpsAt (hascii : ∀ c, Printable c → P c)
    (hline : f.indent = none ∨ P 10) (hitem : ∀ c ∈ f.itemSeparator, P c)
    (hkey : ∀ c ∈ f.keySeparator, P c) (hfloat : ∀ x, pf x = true → ∀ c ∈ floatRepr x, P c)
    (hstr : ∀ s, ps s = true → ∀ c ∈ quote f.ensureAscii s, P c) (level : ℕ) :
    ∀ v : Json, v.all ps pf = true → ∀ c ∈ dumpsAt f floatRepr level v, P c
  | .null, _ => fun c hc => hascii c ((show ∀ c ∈ py "null", Printable c by decide) c hc)
  | .bool true, _ => fun c hc => hascii c ((show ∀ c ∈ py "true", Printable c by decide) c hc)
  | .bool false, _ => fun c hc => hascii c ((show ∀ c ∈ py "false", Printable c by decide) c hc)
  | .int n, _ => fun c hc => hascii c (toString_ascii n c hc)
  | .float x, h => hfloat x h
  | .str s, h => hstr s h
  | .arr xs, h => forall_bracket hascii hline hitem
      (fun c hc => hascii c ((show ∀ c ∈ py "[", Printable c by decide) c hc))
      (fun c hc => hascii c ((show ∀ c ∈ py "]", Printable c by decide) c hc))
      (forall_dumpsItems hascii hline hitem hkey hfloat hstr (level + 1) xs h)
  | .obj d, h => by
      refine forall_bracket hascii hline hitem
        (fun c hc => hascii c ((show ∀ c ∈ py "\x7b", Printable c by decide) c hc))
        (fun c hc => hascii c ((show ∀ c ∈ py "\x7d", Printable c by decide) c hc)) ?_
      intro x hx
      obtain ⟨kx, hkx, rfl⟩ := List.mem_map.mp hx
      exact forall_dumpsFields hascii hline hitem hkey hfloat hstr (level + 1) d h kx
        ((List.mem_insertionSort _).mp hkx)

private theorem forall_dumpsItems (hascii : ∀ c, Printable c → P c)
    (hline : f.indent = none ∨ P 10) (hitem : ∀ c ∈ f.itemSeparator, P c)
    (hkey : ∀ c ∈ f.keySeparator, P c) (hfloat : ∀ x, pf x = true → ∀ c ∈ floatRepr x, P c)
    (hstr : ∀ s, ps s = true → ∀ c ∈ quote f.ensureAscii s, P c) (level : ℕ) :
    ∀ xs : List Json, allItems ps pf xs = true →
      ∀ x ∈ dumpsItems f floatRepr level xs, ∀ c ∈ x, P c
  | [], _ => fun _ hx => (nomatch hx)
  | v :: vs, h => by
      obtain ⟨hv, hvs⟩ := Bool.and_eq_true_iff.mp h
      intro x hx
      rcases List.mem_cons.mp hx with rfl | hx
      · exact forall_dumpsAt hascii hline hitem hkey hfloat hstr level v hv
      · exact forall_dumpsItems hascii hline hitem hkey hfloat hstr level vs hvs x hx

private theorem forall_dumpsFields (hascii : ∀ c, Printable c → P c)
    (hline : f.indent = none ∨ P 10) (hitem : ∀ c ∈ f.itemSeparator, P c)
    (hkey : ∀ c ∈ f.keySeparator, P c) (hfloat : ∀ x, pf x = true → ∀ c ∈ floatRepr x, P c)
    (hstr : ∀ s, ps s = true → ∀ c ∈ quote f.ensureAscii s, P c) (level : ℕ) :
    ∀ d : Dict, allFields ps pf d = true →
      ∀ kx ∈ dumpsFields f floatRepr level d, ∀ c ∈ kx.2, P c
  | [], _ => fun _ hx => (nomatch hx)
  | (k, v) :: d, h => by
      simp only [allFields, Bool.and_eq_true] at h
      obtain ⟨⟨hk, hv⟩, hd⟩ := h
      intro kx hkx
      rcases List.mem_cons.mp hkx with rfl | hkx
      · intro c hc
        simp only [List.mem_append] at hc
        rcases hc with (hc | hc) | hc
        · exact hstr k hk c hc
        · exact hkey c hc
        · exact forall_dumpsAt hascii hline hitem hkey hfloat hstr level v hv c hc
      · exact forall_dumpsFields hascii hline hitem hkey hfloat hstr level d hd kx hkx
end

mutual
private theorem all_true : ∀ v : Json, v.all (fun _ => true) (fun _ => true) = true
  | .null | .bool _ | .int _ | .float _ | .str _ => rfl
  | .arr xs => allItems_true xs
  | .obj d => allFields_true d

private theorem allItems_true :
    ∀ xs : List Json, allItems (fun _ => true) (fun _ => true) xs = true
  | [] => rfl
  | v :: vs => by rw [allItems, all_true v, allItems_true vs, Bool.and_self]

private theorem allFields_true :
    ∀ d : Dict, allFields (fun _ => true) (fun _ => true) d = true
  | [] => rfl
  | (_, v) :: d => by rw [allFields, all_true v, allFields_true d, Bool.true_and, Bool.and_self]
end

private theorem printable_hexDigit (n : ℕ) : Printable (hexDigit (n % 16)) := by
  unfold hexDigit Printable
  split <;> omega

private theorem unicodeEscape_ascii (n : ℕ) : ∀ c ∈ unicodeEscape n, Printable c := by
  intro c hc
  have hpy : ∀ c ∈ py "\\u", Printable c := by decide
  simp only [unicodeEscape, List.mem_append, List.mem_cons, List.not_mem_nil, or_false] at hc
  rcases hc with hc | rfl | rfl | rfl | rfl
  · exact hpy c hc
  all_goals exact printable_hexDigit _

/-- The code point is quoted by ASCII text, or as itself. -/
private def Quoted (ensureAscii : Bool) (n : ℕ) (t : PyStr) : Prop :=
  (∀ c ∈ t, Printable c) ∨ t = [n] ∧ (ensureAscii = true → Printable n)

private theorem quoted_ite {ensureAscii : Bool} {n : ℕ} {p : Prop} [Decidable p] {t u : PyStr}
    (ht : p → ∀ c ∈ t, Printable c) (hu : ¬ p → Quoted ensureAscii n u) :
    Quoted ensureAscii n (if p then t else u) :=
  iteInduction (motive := Quoted ensureAscii n) (fun h => .inl (ht h)) hu

private theorem quoted_escapeChar (ensureAscii : Bool) (n : ℕ) :
    Quoted ensureAscii n (escapeChar ensureAscii n) := by
  unfold escapeChar
  refine quoted_ite (fun _ => by decide) fun _ => ?_
  refine quoted_ite (fun _ => by decide) fun _ => ?_
  refine quoted_ite (fun _ => by decide) fun _ => ?_
  refine quoted_ite (fun _ => by decide) fun _ => ?_
  refine quoted_ite (fun _ => by decide) fun _ => ?_
  refine quoted_ite (fun _ => by decide) fun _ => ?_
  refine quoted_ite (fun _ => by decide) fun _ => ?_
  refine quoted_ite (fun _ => unicodeEscape_ascii n) fun h32 => ?_
  refine quoted_ite (fun _ => ?_) fun h => .inr ⟨rfl, fun he => ?_⟩
  · split
    · exact unicodeEscape_ascii n
    · intro c hc
      exact (List.mem_append.mp hc).elim (unicodeEscape_ascii _ c) (unicodeEscape_ascii _ c)
  · subst he
    exact ⟨by omega, by simpa using h⟩

private theorem forall_quote {ensureAscii : Bool} {s : PyStr}
    (hascii : ∀ c, Printable c → P c) (hs : ensureAscii = true ∨ ∀ c ∈ s, P c) :
    ∀ c ∈ quote ensureAscii s, P c := by
  have hmark : ∀ c ∈ py "\"", Printable c := by decide
  intro c hc
  simp only [quote, List.mem_append, List.mem_flatMap] at hc
  rcases hc with (hc | ⟨n, hn, hc⟩) | hc
  · exact hascii c (hmark c hc)
  · rcases quoted_escapeChar ensureAscii n with h | ⟨h, hlt⟩
    · exact hascii c (h c hc)
    · rw [h, List.mem_singleton] at hc
      subst hc
      rcases hs with he | hs
      · exact hascii c (hlt he)
      · exact hs c hn
  · exact hascii c (hmark c hc)

theorem dumps_ascii (hf : f.ensureAscii = true) (hitem : ∀ c ∈ f.itemSeparator, c < 128)
    (hkey : ∀ c ∈ f.keySeparator, c < 128) (hfloat : ∀ x, ∀ c ∈ floatRepr x, c < 128) (v : Json) :
    ∀ c ∈ dumps f floatRepr v, c < 128 :=
  forall_dumpsAt (P := (· < 128)) (fun _ h => h.lt) (.inr (by decide)) hitem hkey
    (fun x _ => hfloat x) (fun _ _ => forall_quote (fun _ h => h.lt) (.inl hf)) 0 v (all_true v)

theorem dumps_indented_ascii (hfloat : ∀ x, ∀ c ∈ floatRepr x, c < 128) (v : Json) :
    ∀ c ∈ dumps indentedFormat floatRepr v, c < 128 :=
  dumps_ascii rfl (by decide) (by decide) hfloat v

/-- Escaped JSON text on one line is printable. -/
theorem dumps_printable (hf : f.indent = none ∧ f.ensureAscii = true)
    (hitem : ∀ c ∈ f.itemSeparator, Printable c) (hkey : ∀ c ∈ f.keySeparator, Printable c)
    (hfloat : ∀ x, pf x = true → ∀ c ∈ floatRepr x, Printable c) {v : Json}
    (hv : v.all (fun _ => true) pf = true) : ∀ c ∈ dumps f floatRepr v, Printable c :=
  forall_dumpsAt (fun _ h => h) (.inl hf.1) hitem hkey hfloat
    (fun _ _ => forall_quote (fun _ h => h) (.inl hf.2)) 0 v hv

/-- Compact JSON text has a lone surrogate only where a string of the value has one. -/
theorem dumps_compact_encodable (hfloat : ∀ x, ∀ c ∈ floatRepr x, c < 128) {v : Json}
    (hps : ∀ s, ps s = true → ∀ c ∈ s, PyText.isSurrogate c = false)
    (hv : v.all ps pf = true) :
    ∀ c ∈ dumps compactFormat floatRepr v, PyText.isSurrogate c = false := by
  have hascii : ∀ c < 128, PyText.isSurrogate c = false := by
    intro c hc
    have : ¬ 0xD800 ≤ c := by omega
    simp [PyText.isSurrogate, this]
  have hprintable : ∀ c, Printable c → PyText.isSurrogate c = false := fun c h => hascii c h.lt
  exact forall_dumpsAt hprintable (.inl rfl) (by decide) (by decide)
    (fun x _ c hc => hascii c (hfloat x c hc))
    (fun s hs => forall_quote hprintable (.inr (hps s hs))) 0 v hv

end CodePoints

example : dumps compactFormat (fun _ => []) (.obj [(py "b", .arr [.int (-1), .null]),
    (py "a", .str (py "x\n"))]) = py "\x7b\"a\":\"x\\n\",\"b\":[-1,null]\x7d" := by decide

end Json
