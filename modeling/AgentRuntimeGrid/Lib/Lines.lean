import AgentRuntimeGrid.Lib.Digits

/-! Lines: what `str.splitlines` and `str.strip` make of text written line by line. -/
namespace PyText

/-- A character that does not begin a CRLF. -/
theorem splitlinesFrom_cons {c : ℕ} {rest : PyStr} (h : c = 13 → rest.head? ≠ some 10)
    (cur : PyStr) :
    splitlinesFrom (c :: rest) cur =
      if isLineBreak c then cur.reverse :: splitlinesFrom rest []
      else splitlinesFrom rest (c :: cur) :=
  splitlinesFrom.eq_4 _ _ _ fun _ hc hrest => h hc (by rw [hrest]; rfl)

theorem splitlinesFrom_newline (rest cur : PyStr) :
    splitlinesFrom (10 :: rest) cur = cur.reverse :: splitlinesFrom rest [] := rfl

theorem splitlinesFrom_append {line : PyStr} (h : ∀ c ∈ line, isLineBreak c = false)
    (rest cur : PyStr) :
    splitlinesFrom (line ++ rest) cur = splitlinesFrom rest (line.reverse ++ cur) := by
  induction line generalizing cur with
  | nil => rfl
  | cons c line ih =>
    rw [List.forall_mem_cons] at h
    have hne : c = 13 → (line ++ rest).head? ≠ some 10 := by
      rintro rfl
      cases h.1
    rw [List.cons_append, splitlinesFrom_cons hne, h.1, if_neg (by simp), ih h.2]
    simp

theorem splitlines_lines {lines : List PyStr}
    (h : ∀ line ∈ lines, ∀ c ∈ line, isLineBreak c = false) :
    splitlines (lines.flatMap fun line => line ++ [10]) = lines := by
  induction lines with
  | nil => rfl
  | cons line lines ih =>
    rw [List.forall_mem_cons] at h
    have hrest := ih h.2
    unfold splitlines at hrest ⊢
    rw [List.flatMap_cons, List.append_assoc, splitlinesFrom_append h.1, List.singleton_append,
      splitlinesFrom_newline, hrest]
    simp

theorem strip_ne_nil {s : PyStr} {c : ℕ} (hc : c ∈ s) (hspace : isSpace c = false) :
    strip s ≠ [] := by
  have keep : ∀ t : PyStr, c ∈ t → c ∈ t.dropWhile isSpace := by
    intro t ht
    rw [← List.takeWhile_append_dropWhile (p := isSpace) (l := t), List.mem_append] at ht
    refine ht.resolve_left fun hmem => ?_
    have := List.mem_takeWhile_imp hmem
    rw [hspace] at this
    cases this
  unfold strip
  rw [ne_eq, List.reverse_eq_nil_iff]
  exact List.ne_nil_of_mem (keep _ (List.mem_reverse.mpr (keep s hc)))

theorem strip_eq_nil_iff {s : PyStr} : strip s = [] ↔ ∀ c ∈ s, isSpace c = true := by
  constructor
  · intro h c hc
    by_contra hspace
    exact strip_ne_nil hc (by simpa using hspace) h
  · intro h
    have hdrop : s.dropWhile isSpace = [] := List.dropWhile_eq_nil_iff.mpr h
    rw [strip, hdrop]
    rfl

/-- A line boundary ends the current line, whatever comes after it. -/
theorem splitlinesFrom_break {c : ℕ} (hc : isLineBreak c = true) (rest cur : PyStr) :
    ∃ lines, splitlinesFrom (c :: rest) cur = cur.reverse :: lines := by
  by_cases h : c = 13
  · subst h
    cases rest with
    | nil => exact ⟨_, rfl⟩
    | cons d rest =>
      by_cases hd : d = 10
      · subst hd
        exact ⟨_, rfl⟩
      · exact ⟨_, by rw [splitlinesFrom_cons (by simp [hd]), hc, if_pos rfl]⟩
  · exact ⟨_, by rw [splitlinesFrom_cons (absurd · h), hc, if_pos rfl]⟩

/-- What stands before a text without a newline in front makes lines of its own and the beginning
of the next one. -/
theorem splitlinesFrom_before {before : PyStr} (hbefore : 10 ∉ before) {rest : PyStr}
    (hrest : rest.head? ≠ some 10) (cur : PyStr) :
    ∃ lines cur', splitlinesFrom (before ++ rest) cur = lines ++ splitlinesFrom rest cur' ∧
      (∀ line ∈ lines, ∀ c ∈ line, c ∈ before ∨ c ∈ cur) ∧ ∀ c ∈ cur', c ∈ before ∨ c ∈ cur := by
  induction before generalizing cur with
  | nil => exact ⟨[], cur, rfl, nofun, fun c hc => .inr hc⟩
  | cons d before ih =>
    rw [List.mem_cons, not_or] at hbefore
    have hnext : (before ++ rest).head? ≠ some 10 := by
      cases before with
      | nil => exact hrest
      | cons e before => simpa using Ne.symm (fun h => hbefore.2 (by simp [h]) : 10 ≠ e)
    have hcons : splitlinesFrom (d :: (before ++ rest)) cur =
        if isLineBreak d then cur.reverse :: splitlinesFrom (before ++ rest) []
        else splitlinesFrom (before ++ rest) (d :: cur) :=
      splitlinesFrom_cons (fun _ => hnext) cur
    rw [List.cons_append, hcons]
    cases hd : isLineBreak d with
    | true =>
      obtain ⟨lines, cur', heq, hlines, hcur⟩ := ih hbefore.2 []
      refine ⟨cur.reverse :: lines, cur', by rw [if_pos rfl, heq]; rfl, ?_, ?_⟩
      · rw [List.forall_mem_cons]
        exact ⟨fun c hc => .inr (List.mem_reverse.mp hc), fun line hline c hc =>
          .inl (List.mem_cons_of_mem _ ((hlines line hline c hc).resolve_right nofun))⟩
      · exact fun c hc => .inl (List.mem_cons_of_mem _ ((hcur c hc).resolve_right nofun))
    | false =>
      obtain ⟨lines, cur', heq, hlines, hcur⟩ := ih hbefore.2 (d :: cur)
      have hmove : ∀ c, c ∈ before ∨ c ∈ d :: cur → c ∈ d :: before ∨ c ∈ cur := by
        intro c hc
        simp only [List.mem_cons] at hc ⊢
        tauto
      exact ⟨lines, cur', by rw [if_neg (by simp), heq],
        fun line hline c hc => hmove c (hlines line hline c hc), fun c hc => hmove c (hcur c hc)⟩

/-- What stands between a text and its newline ends its line and makes lines of its own. -/
theorem splitlinesFrom_after {after : PyStr} (hafter : 10 ∉ after) (rest cur : PyStr) :
    ∃ kept lines, splitlinesFrom (after ++ 10 :: rest) cur =
        (cur.reverse ++ kept) :: lines ++ splitlinesFrom rest [] ∧
      (∀ c ∈ kept, c ∈ after) ∧ ∀ line ∈ lines, ∀ c ∈ line, c ∈ after := by
  induction after generalizing cur with
  | nil =>
    refine ⟨[], [], ?_, nofun, nofun⟩
    rw [List.nil_append, splitlinesFrom_newline, List.append_nil]
    rfl
  | cons d after ih =>
    rw [List.mem_cons, not_or] at hafter
    by_cases hcrlf : d = 13 ∧ after = []
    · obtain ⟨rfl, rfl⟩ := hcrlf
      refine ⟨[], [], ?_, nofun, nofun⟩
      rw [List.append_nil]
      rfl
    have hcons : splitlinesFrom (d :: (after ++ 10 :: rest)) cur =
        if isLineBreak d then cur.reverse :: splitlinesFrom (after ++ 10 :: rest) []
        else splitlinesFrom (after ++ 10 :: rest) (d :: cur) := by
      refine splitlinesFrom_cons (fun hd h => ?_) cur
      cases after with
      | nil => exact hcrlf ⟨hd, rfl⟩
      | cons e after => exact hafter.2 (by simp [Option.some.inj h])
    rw [List.cons_append, hcons]
    cases hd : isLineBreak d with
    | true =>
      obtain ⟨kept, lines, heq, hkept, hlines⟩ := ih hafter.2 []
      refine ⟨[], kept :: lines, by rw [if_pos rfl, heq]; simp, nofun, ?_⟩
      rw [List.forall_mem_cons]
      exact ⟨fun c hc => List.mem_cons_of_mem _ (hkept c hc),
        fun line hline c hc => List.mem_cons_of_mem _ (hlines line hline c hc)⟩
    | false =>
      obtain ⟨kept, lines, heq, hkept, hlines⟩ := ih hafter.2 (d :: cur)
      refine ⟨d :: kept, lines, by rw [if_neg (by simp), heq]; simp, ?_, fun line hline c hc =>
        List.mem_cons_of_mem _ (hlines line hline c hc)⟩
      rw [List.forall_mem_cons]
      exact ⟨List.mem_cons_self, fun c hc => List.mem_cons_of_mem _ (hkept c hc)⟩

end PyText
