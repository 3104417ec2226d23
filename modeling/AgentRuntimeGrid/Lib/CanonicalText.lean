import AgentRuntimeGrid.Lib.Json
import Mathlib.Data.List.Lex

/-! Encodings that can be told apart: UTF-8, quoted text, and the canonical text of two objects
that differ in one text field. -/

namespace PyText

theorem utf8EncodeChar_inj {c c' : ℕ} {b b' x y : PyBytes} (h : utf8EncodeChar c = some b)
    (h' : utf8EncodeChar c' = some b') (heq : b ++ x = b' ++ y) : c = c' ∧ x = y := by
  -- the first byte tells the length, the others are digits to the base 64
  unfold utf8EncodeChar at h h'
  split at h
  · cases h
  split at h'
  · cases h'
  split_ifs at h h' <;> cases h <;> cases h' <;>
    simp only [List.cons_append, List.nil_append, List.cons.injEq] at heq <;> grind

theorem utf8Encode_inj {s t : PyStr} {b : PyBytes} (hs : utf8Encode s = some b)
    (ht : utf8Encode t = some b) : s = t := by
  have cons : ∀ {c : ℕ} {s : PyStr} {b : PyBytes}, utf8Encode (c :: s) = some b →
      ∃ x y, utf8EncodeChar c = some x ∧ utf8Encode s = some y ∧ x ++ y = b ∧ x ≠ [] := by
    intro c s b h
    obtain ⟨x, hx, h⟩ := Option.bind_eq_some_iff.mp h
    obtain ⟨y, hy, h⟩ := Option.map_eq_some_iff.mp h
    refine ⟨x, y, hx, hy, h, ?_⟩
    rintro rfl
    unfold utf8EncodeChar at hx
    split_ifs at hx <;> cases hx
  induction s generalizing t b with
  | nil =>
    cases hs
    cases t with
    | nil => rfl
    | cons c t =>
      obtain ⟨x, y, -, -, h, hne⟩ := cons ht
      exact absurd (List.append_eq_nil_iff.mp h).1 hne
  | cons c s ih =>
    obtain ⟨x, y, hx, hy, h, hne⟩ := cons hs
    cases t with
    | nil =>
      cases ht
      exact absurd (List.append_eq_nil_iff.mp h).1 hne
    | cons c' t =>
      obtain ⟨x', y', hx', hy', h', -⟩ := cons ht
      obtain ⟨rfl, rfl⟩ := utf8EncodeChar_inj hx hx' (h.trans h'.symm)
      rw [ih hy hy']

end PyText

namespace Json

/-- The escapes of a text are told apart by their first characters. -/
theorem escapeChar_inj {c c' : ℕ} {x y : PyStr}
    (h : escapeChar false c ++ x = escapeChar false c' ++ y) : c = c' ∧ x = y := by
  let escaped : List ℕ := 34 :: 92 :: List.range 32
  have hplain : ∀ n, n ∉ escaped → escapeChar false n = [n] := by
    intro n hn
    simp only [escaped, List.mem_cons, List.mem_range, not_or] at hn
    obtain ⟨hquote, hbackslash, hcontrol⟩ := hn
    have hne : ∀ k < 32, n ≠ k := fun k hk h => hcontrol (h ▸ hk)
    simp [escapeChar, hquote, hbackslash, hcontrol, hne 10, hne 13, hne 9, hne 12, hne 8]
  have hescaped : ∀ n ∈ escaped, ∀ n' ∈ escaped, escapeChar false n <+: escapeChar false n' →
      n = n' := by
    decide
  have hhead : ∀ n ∈ escaped, ∀ z, (escapeChar false n ++ z).head? = some 92 := by
    intro n hn z
    have h : ∀ n ∈ escaped, (escapeChar false n).head? = some 92 := by decide
    rw [List.head?_append, h n hn]
    rfl
  have h92 : (92 : ℕ) ∈ escaped := by decide
  by_cases hc : c ∈ escaped
  · by_cases hc' : c' ∈ escaped
    · have hcc : c = c' := by
        rcases List.prefix_or_prefix_of_prefix (List.prefix_append _ x)
          (h ▸ List.prefix_append _ y) with hp | hp
        · exact hescaped c hc c' hc' hp
        · exact (hescaped c' hc' c hc hp).symm
      subst hcc
      exact ⟨rfl, List.append_cancel_left h⟩
    · have hhd := hhead c hc x
      rw [h, hplain c' hc', List.cons_append, List.head?_cons] at hhd
      exact absurd (Option.some.inj hhd ▸ h92) hc'
  · by_cases hc' : c' ∈ escaped
    · have hhd := hhead c' hc' y
      rw [← h, hplain c hc, List.cons_append, List.head?_cons] at hhd
      exact absurd (Option.some.inj hhd ▸ h92) hc
    · rw [hplain c hc, hplain c' hc'] at h
      exact List.cons.inj h

theorem escapeChar_ne_nil (c : ℕ) : escapeChar false c ≠ [] := by
  intro h
  -- an empty escape would leave the next character's escape to be read for it
  have hread : escapeChar false c ++ escapeChar false (c + 1) = escapeChar false (c + 1) ++ [] := by
    rw [h, List.nil_append, List.append_nil]
  have := (escapeChar_inj hread).1
  omega

theorem flatMap_escapeChar_inj {s t : PyStr}
    (h : s.flatMap (escapeChar false) = t.flatMap (escapeChar false)) : s = t := by
  induction s generalizing t with
  | nil =>
    cases t with
    | nil => rfl
    | cons c t => exact absurd (List.append_eq_nil_iff.mp h.symm).1 (escapeChar_ne_nil c)
  | cons c s ih =>
    cases t with
    | nil => exact absurd (List.append_eq_nil_iff.mp h).1 (escapeChar_ne_nil c)
    | cons c' t =>
      rw [List.flatMap_cons, List.flatMap_cons] at h
      obtain ⟨rfl, htail⟩ := escapeChar_inj h
      rw [ih htail]

theorem quote_inj {s t : PyStr} (h : quote false s = quote false t) : s = t :=
  flatMap_escapeChar_inj (List.append_cancel_left (List.append_cancel_right h))

section OneField
variable {α β : Type*}

/-- The lists are equal but for the element at one place. -/
def DifferAt (a b : α) (l l' : List α) : Prop :=
  ∃ before after, l = before ++ a :: after ∧ l' = before ++ b :: after

variable {r : α → α → Prop} [DecidableRel r] {a b : α} {l l' : List α}

/-- Insertion looks at the order alone, which does not tell the two elements apart. -/
theorem DifferAt.orderedInsert (hr : ∀ x, r x a ↔ r x b) (x : α) (h : DifferAt a b l l') :
    DifferAt a b (l.orderedInsert r x) (l'.orderedInsert r x) := by
  obtain ⟨before, after, rfl, rfl⟩ := h
  induction before with
  | nil =>
    by_cases hx : r x a
    · exact ⟨[x], after, by simp [hx], by simp [(hr x).mp hx]⟩
    · exact ⟨[], after.orderedInsert r x, by simp [hx], by simp [mt (hr x).mpr hx]⟩
  | cons y before ih =>
    by_cases hx : r x y
    · exact ⟨x :: y :: before, after, by simp [hx], by simp [hx]⟩
    · obtain ⟨before', after', h, h'⟩ := ih
      exact ⟨y :: before', after', by simp [hx, h], by simp [hx, h']⟩

theorem differAt_orderedInsert (hr : ∀ x, r a x ↔ r b x) (l : List α) :
    DifferAt a b (l.orderedInsert r a) (l.orderedInsert r b) := by
  induction l with
  | nil => exact ⟨[], [], rfl, rfl⟩
  | cons y l ih =>
    by_cases hx : r a y
    · exact ⟨[], y :: l, by simp [hx], by simp [(hr y).mp hx]⟩
    · obtain ⟨before, after, h, h'⟩ := ih
      exact ⟨y :: before, after, by simp [hx, h], by simp [mt (hr y).mpr hx, h']⟩

theorem DifferAt.insertionSort (hr : ∀ x, r x a ↔ r x b) (hr' : ∀ x, r a x ↔ r b x)
    (h : DifferAt a b l l') : DifferAt a b (l.insertionSort r) (l'.insertionSort r) := by
  obtain ⟨before, after, rfl, rfl⟩ := h
  induction before with
  | nil => exact differAt_orderedInsert hr' _
  | cons x before ih => exact ih.orderedInsert hr x

theorem DifferAt.map (f : α → β) (h : DifferAt a b l l') :
    DifferAt (f a) (f b) (l.map f) (l'.map f) := by
  obtain ⟨before, after, rfl, rfl⟩ := h
  exact ⟨before.map f, after.map f, by simp, by simp⟩

/-- Joined texts that differ in one part are told apart by it. -/
theorem DifferAt.eq_of_intersperse {a b : List β} {l l' : List (List β)} (sep : List β)
    (h : DifferAt a b l l')
    (heq : (l.intersperse sep).flatten = (l'.intersperse sep).flatten) : a = b := by
  have around : ∀ before after : List (List β), ∃ x y, ∀ part : List β,
      ((before ++ part :: after).intersperse sep).flatten = x ++ part ++ y := by
    intro before after
    induction before with
    | nil =>
      cases after with
      | nil => exact ⟨[], [], by simp⟩
      | cons z after =>
        exact ⟨[], sep ++ ((z :: after).intersperse sep).flatten, by simp⟩
    | cons z before ih =>
      obtain ⟨x, y, h⟩ := ih
      refine ⟨z ++ sep ++ x, y, fun part => ?_⟩
      have hcons : ((z :: before ++ part :: after).intersperse sep).flatten =
          z ++ (sep ++ ((before ++ part :: after).intersperse sep).flatten) := by
        cases before <;> rfl
      rw [hcons, h part]
      simp only [List.append_assoc]
  obtain ⟨before, after, rfl, rfl⟩ := h
  obtain ⟨x, y, hparts⟩ := around before after
  rw [hparts, hparts] at heq
  exact List.append_cancel_left (List.append_cancel_right heq)

end OneField

/-- Fields that differ in the text of one key come out of the sort as they went in. -/
theorem DifferAt.sortFields {k a b : PyStr} {l l' : List (PyStr × PyStr)}
    (h : DifferAt (k, a) (k, b) l l') :
    DifferAt (k, a) (k, b) (l.insertionSort fun a b => a.1 ≤ b.1)
      (l'.insertionSort fun a b => a.1 ≤ b.1) :=
  h.insertionSort (fun _ => Iff.rfl) fun _ => Iff.rfl

theorem differAt_dumpsFields {f : DumpsFormat} {floatRepr : PyFloat → PyStr} {level : ℕ}
    {k : PyStr} {v w : Json} {d d' : Dict} (h : DifferAt (k, v) (k, w) d d') :
    DifferAt (k, quote f.ensureAscii k ++ f.keySeparator ++ dumpsAt f floatRepr level v)
      (k, quote f.ensureAscii k ++ f.keySeparator ++ dumpsAt f floatRepr level w)
      (dumpsFields f floatRepr level d) (dumpsFields f floatRepr level d') := by
  obtain ⟨before, after, rfl, rfl⟩ := h
  induction before with
  | nil => exact ⟨[], dumpsFields f floatRepr level after, rfl, rfl⟩
  | cons kv before ih =>
    obtain ⟨texts, texts', h, h'⟩ := ih
    exact ⟨_ :: texts, texts', by rw [List.cons_append, dumpsFields, h]; rfl,
      by rw [List.cons_append, dumpsFields, h']; rfl⟩

/-- The canonical texts of two objects that differ in one text differ. -/
theorem dumps_compact_inj {floatRepr : PyFloat → PyStr} {k s t : PyStr} {d d' : Dict}
    (h : DifferAt (k, .str s) (k, .str t) d d')
    (heq : dumps compactFormat floatRepr (.obj d) = dumps compactFormat floatRepr (.obj d')) :
    s = t := by
  have hne : d ≠ [] ∧ d' ≠ [] := by
    obtain ⟨before, after, rfl, rfl⟩ := h
    simp
  have hfields : DifferAt (k, quote compactFormat.ensureAscii k ++ compactFormat.keySeparator ++
        dumpsAt compactFormat floatRepr 1 (.str s))
      (k, quote compactFormat.ensureAscii k ++ compactFormat.keySeparator ++
        dumpsAt compactFormat floatRepr 1 (.str t))
      (dumpsFields compactFormat floatRepr 1 d) (dumpsFields compactFormat floatRepr 1 d') :=
    differAt_dumpsFields h
  simp only [dumpsAt] at hfields
  have hsorted := hfields.sortFields.map Prod.snd
  rw [dumps_compact_obj hne.1, dumps_compact_obj hne.2] at heq
  have htexts := List.append_cancel_left (List.append_cancel_right heq)
  exact quote_inj (List.append_cancel_left (hsorted.eq_of_intersperse _ htexts))

end Json
