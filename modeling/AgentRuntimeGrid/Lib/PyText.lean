import Mathlib.Data.List.Basic
import Mathlib.Data.Nat.Notation

/-! Python text. A `str` is a list of code points, lone surrogates included; the functions below
follow the documented behaviour of `str.strip`, `str.splitlines` and the strict UTF-8 codec. -/

abbrev PyStr := List ℕ

instance : LawfulBEq PyStr := inferInstanceAs (LawfulBEq (List ℕ))

/-- Bytes of a file or of an HTTP body. -/
abbrev PyBytes := List ℕ

/-- The code points of a literal. -/
def py (s : String) : PyStr := s.toList.map Char.toNat

theorem py_inj {s t : String} : py s = py t ↔ s = t := by
  have htoNat : Function.Injective Char.toNat := fun _ _ => Char.toNat_inj.mp
  exact ⟨fun h => String.toList_injective (List.map_injective_iff.mpr htoNat h), congrArg py⟩

namespace PyText

def isSurrogate (c : ℕ) : Bool := 0xD800 ≤ c && c ≤ 0xDFFF

def asciiLower (c : ℕ) : ℕ := if 65 ≤ c && c ≤ 90 then c + 32 else c

/-- White space in the sense of `str.isspace`. -/
def isSpace (c : ℕ) : Bool :=
  (9 ≤ c && c ≤ 13) || (28 ≤ c && c ≤ 32) || c == 0x85 || c == 0xA0 || c == 0x1680 ||
    (0x2000 ≤ c && c ≤ 0x200A) || c == 0x2028 || c == 0x2029 || c == 0x202F || c == 0x205F ||
    c == 0x3000

def strip (s : PyStr) : PyStr := ((s.dropWhile isSpace).reverse.dropWhile isSpace).reverse

/-- The line boundaries of `str.splitlines`. -/
def isLineBreak (c : ℕ) : Bool :=
  (10 ≤ c && c ≤ 13) || (28 ≤ c && c ≤ 30) || c == 0x85 || c == 0x2028 || c == 0x2029

/-- `cur` holds the current line reversed. -/
def splitlinesFrom : PyStr → PyStr → List PyStr
  | [], [] => []
  | [], cur => [cur.reverse]
  | 13 :: 10 :: rest, cur => cur.reverse :: splitlinesFrom rest []
  | c :: rest, cur =>
      if isLineBreak c then cur.reverse :: splitlinesFrom rest []
      else splitlinesFrom rest (c :: cur)

def splitlines (s : PyStr) : List PyStr := splitlinesFrom s []

/-- One code point in UTF-8; `none` is the `UnicodeEncodeError` of a lone surrogate. -/
def utf8EncodeChar (c : ℕ) : Option PyBytes :=
  if isSurrogate c then none
  else if c < 0x80 then some [c]
  else if c < 0x800 then some [0xC0 + c / 64, 0x80 + c % 64]
  else if c < 0x10000 then some [0xE0 + c / 4096, 0x80 + c / 64 % 64, 0x80 + c % 64]
  else some [0xF0 + c / 262144, 0x80 + c / 4096 % 64, 0x80 + c / 64 % 64, 0x80 + c % 64]

def utf8Encode : PyStr → Option PyBytes
  | [] => some []
  | c :: s => (utf8EncodeChar c).bind fun b => (utf8Encode s).map (b ++ ·)

private def isCont (b : ℕ) : Bool := 0x80 ≤ b && b ≤ 0xBF

/-- Strict UTF-8; `none` is a `UnicodeDecodeError`. Overlong forms, surrogates and code points
past `0x10FFFF` are refused. -/
def utf8Decode : PyBytes → Option PyStr
  | [] => some []
  | a :: r =>
      if a < 0x80 then (utf8Decode r).map (a :: ·)
      else match r with
        | [] => none
        | b :: r₂ =>
          if 0xC2 ≤ a && a ≤ 0xDF && isCont b then
            (utf8Decode r₂).map (((a - 0xC0) * 64 + (b - 0x80)) :: ·)
          else match r₂ with
            | [] => none
            | c :: r₃ =>
              if 0xE0 ≤ a && a ≤ 0xEF && isCont b && isCont c && (a != 0xE0 || 0xA0 ≤ b) &&
                  (a != 0xED || b ≤ 0x9F) then
                (utf8Decode r₃).map
                  (((a - 0xE0) * 4096 + (b - 0x80) * 64 + (c - 0x80)) :: ·)
              else match r₃ with
                | [] => none
                | d :: r₄ =>
                  if 0xF0 ≤ a && a ≤ 0xF4 && isCont b && isCont c && isCont d &&
                      (a != 0xF0 || 0x90 ≤ b) && (a != 0xF4 || b ≤ 0x8F) then
                    (utf8Decode r₄).map (((a - 0xF0) * 262144 + (b - 0x80) * 4096 +
                      (c - 0x80) * 64 + (d - 0x80)) :: ·)
                  else none

theorem utf8Encode_isSome {s : PyStr} :
    (utf8Encode s).isSome = true ↔ ∀ c ∈ s, isSurrogate c = false := by
  induction s with
  | nil => simp [utf8Encode]
  | cons c s ih =>
    have hc : (utf8EncodeChar c).isSome = true ↔ isSurrogate c = false := by
      unfold utf8EncodeChar
      split
      next h => simp [h]
      next h =>
        simp only [Bool.not_eq_true] at h
        simp only [h, iff_true]
        split
        · rfl
        split
        · rfl
        split <;> rfl
    rw [List.forall_mem_cons, ← ih, ← hc]
    simp only [utf8Encode]
    cases utf8EncodeChar c <;> cases utf8Encode s <;> simp

theorem utf8Encode_ascii {s : PyStr} (h : ∀ c ∈ s, c < 128) : utf8Encode s = some s := by
  induction s with
  | nil => rfl
  | cons c s ih =>
    rw [List.forall_mem_cons] at h
    have hsurrogate : isSurrogate c = false := by
      have : ¬ 0xD800 ≤ c := by omega
      simp [isSurrogate, this]
    rw [utf8Encode, ih h.2, utf8EncodeChar, if_neg (by simp [hsurrogate]), if_pos h.1]
    rfl

theorem utf8Decode_ascii {b : PyBytes} (h : ∀ c ∈ b, c < 128) : utf8Decode b = some b := by
  induction b with
  | nil => rfl
  | cons c b ih =>
    rw [List.forall_mem_cons] at h
    unfold utf8Decode
    rw [if_pos h.1, ih h.2]
    rfl

theorem mem_of_mem_strip {s : PyStr} {c : ℕ} (h : c ∈ strip s) : c ∈ s := by
  have h := List.mem_reverse.mp h
  have h := (List.dropWhile_sublist isSpace).subset h
  exact (List.dropWhile_sublist isSpace).subset (List.mem_reverse.mp h)

example : splitlines (py "a\r\nb\n\nc") = [py "a", py "b", [], py "c"] := by decide

example : utf8Encode [0xE9, 0x20AC] = some [0xC3, 0xA9, 0xE2, 0x82, 0xAC] := by decide

end PyText
