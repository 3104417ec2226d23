import AgentRuntimeGrid.Cli.FullStack
import AgentRuntimeGrid.Jobs.EvalLab
import AgentRuntimeGrid.Lib.JsonMarks
import AgentRuntimeGrid.Lib.Lines

/-! The two loaders of a dataset of JSON Lines: which files they read as the format means them. -/
namespace AgentRuntimeGrid

/-- An interpreter that lets a loader nest its calls so deep. -/
def interpreter (depth : ℕ) : Json.Limits := ⟨some Json.maxStrDigits, some depth⟩

/-- `json.loads` as documented, with the exceptions of the runtime. -/
def pyLoads (limits : Json.Limits) (parseFloat : PyStr → PyFloat) (text : PyStr) :
    Except LoadsError Json :=
  match Json.loadsWithin limits parseFloat text with
  | .error .decodeError => .error .decodeError
  | .error .valueError => .error (.other "ValueError")
  | .error .recursionError => .error (.other "RecursionError")
  | .ok v => .ok v

variable {parseFloat : PyStr → PyFloat}

/-- The text of an object, from its brace to its brace, without a raw newline. Its integers may be
of any length, and its values nested to any depth. -/
structure ObjectText (parseFloat : PyStr → PyFloat) where
  text : PyStr
  value : Dict
  opening : text.head? = some 123
  closing : text.getLast? = some 125
  oneLine : 10 ∉ text
  loads_eq : Json.loadsWithin Json.Limits.unlimited parseFloat text = .ok (.obj value)

inductive DatasetLine (parseFloat : PyStr → PyFloat) where
  | blank (text : PyStr) (hblank : PyText.strip text = []) (oneLine : 10 ∉ text)
  /-- An object with white space around it. -/
  | object (before : PyStr) (value : ObjectText parseFloat) (after : PyStr)
      (hbefore : ∀ c ∈ before, Json.isWhitespace c = true ∧ c ≠ 10)
      (hafter : ∀ c ∈ after, Json.isWhitespace c = true ∧ c ≠ 10)

namespace DatasetLine

def text : DatasetLine parseFloat → PyStr
  | blank text _ _ => text
  | object before value after _ _ => before ++ (value.text ++ after)

def value : DatasetLine parseFloat → Option Dict
  | blank _ _ _ => none
  | object _ value _ _ _ => some value.value

/-- No line boundary of `splitlines` stands in the object. -/
def unbroken : DatasetLine parseFloat → Bool
  | blank _ _ _ => true
  | object _ value _ _ _ => value.text.all fun c => !PyText.isLineBreak c

/-- The object up to the first line boundary of `splitlines` in it. -/
def front : DatasetLine parseFloat → PyStr
  | blank _ _ _ => []
  | object _ value _ _ _ => value.text.takeWhile fun c => !PyText.isLineBreak c

/-- No integer of it has more digits than an interpreter reads, and nothing of it is nested deeper
than this one reads. -/
def readable (depth : ℕ) (line : DatasetLine parseFloat) : Bool :=
  (Json.marks line.front).all fun
    | .integer digits => digits ≤ Json.maxStrDigits
    | .opening n => n ≤ depth

end DatasetLine

/-- The text of a file of these lines. -/
def datasetText (lines : List (DatasetLine parseFloat)) : PyStr :=
  lines.flatMap fun line => line.text ++ [10]

def datasetObjects (lines : List (DatasetLine parseFloat)) : List Dict :=
  lines.filterMap DatasetLine.value

/-- `case.get("id") == case_id`. -/
def isCase (caseId : PyStr) (case : Dict) : Bool :=
  ((Dict.get? case (py "id")).getD .null).isText caseId

/-- The lines up to the first object with the id, or all. -/
def linesToCase (caseId : PyStr) :
    List (DatasetLine parseFloat) → List (DatasetLine parseFloat)
  | [] => []
  | line :: lines =>
    line :: if line.value.any (isCase caseId) then [] else linesToCase caseId lines

/-- The lines up to the first one with a broken object, or all. -/
def linesToBreak : List (DatasetLine parseFloat) → List (DatasetLine parseFloat)
  | [] => []
  | line :: lines => line :: if line.unbroken then linesToBreak lines else []

/-- The lines up to the object that makes them `limit`, or all. -/
def linesToLimit : ℕ → List (DatasetLine parseFloat) → List (DatasetLine parseFloat)
  | 0, _ => []
  | _, [] => []
  | limit + 1, line :: lines =>
    line :: linesToLimit (if line.value.isSome then limit else limit + 1) lines

/-- The pieces `splitlines` makes of a line. -/
inductive Pieces : DatasetLine parseFloat → List PyStr → Prop where
  | blank {text : PyStr} {hblank : PyText.strip text = []} {oneLine : 10 ∉ text}
      {pieces : List PyStr} (h : ∀ piece ∈ pieces, PyText.strip piece = []) :
      Pieces (.blank text hblank oneLine) pieces
  /-- One piece is the object with white space around it, the others are blank. -/
  | whole {line : DatasetLine parseFloat} {case : Dict} {before after : List PyStr} {piece : PyStr}
      (hcase : line.value = some case) (hunbroken : line.unbroken = true)
      (hbefore : ∀ piece ∈ before, PyText.strip piece = [])
      (hafter : ∀ piece ∈ after, PyText.strip piece = []) (hpiece : PyText.strip piece ≠ [])
      (hloads : ∀ limits : Json.Limits, Json.loadsWithin limits parseFloat piece =
        limits.apply (Json.marks line.front) (.ok (.obj case))) :
      Pieces line (before ++ piece :: after)
  /-- The first piece that is not blank is the beginning of an object. -/
  | broken {line : DatasetLine parseFloat} {case : Dict} {before after : List PyStr} {piece : PyStr}
      (hcase : line.value = some case) (hunbroken : line.unbroken = false)
      (hbefore : ∀ piece ∈ before, PyText.strip piece = []) (hpiece : PyText.strip piece ≠ [])
      (hloads : ∀ limits : Json.Limits, Json.loadsWithin limits parseFloat piece =
        limits.apply (Json.marks line.front) (.error .decodeError)) :
      Pieces line (before ++ piece :: after)

theorem isSpace_of_whitespace {c : ℕ} (hc : Json.isWhitespace c = true) :
    PyText.isSpace c = true := by
  simp only [Json.isWhitespace, Bool.or_eq_true, decide_eq_true_eq] at hc
  rcases hc with ((rfl | rfl) | rfl) | rfl <;> rfl

theorem cut_lineBreak {b : ℕ} (hb : PyText.isLineBreak b = true) (q : PyStr) :
    Json.Cut (b :: q) := by
  refine PyText.ends_cons ?_
  simp only [PyText.isLineBreak, Bool.or_eq_true, Bool.and_eq_true, decide_eq_true_eq,
    beq_iff_eq] at hb
  simp only [Bool.and_eq_false_iff, decide_eq_false_iff_not]
  omega

namespace ObjectText
variable (value : ObjectText parseFloat)

theorem eq_cons : ∃ tail, value.text = 123 :: tail := by
  have hopening := value.opening
  cases htext : value.text with
  | nil => simp [htext] at hopening
  | cons c tail =>
    rw [htext, List.head?_cons, Option.some.injEq] at hopening
    exact ⟨tail, by rw [hopening]⟩

theorem strip_ne_nil {w p : PyStr} (hp : p.head? = some 123) : PyText.strip (w ++ p) ≠ [] :=
  PyText.strip_ne_nil (c := 123)
    (List.mem_append_right _ (List.mem_of_mem_head? hp)) (by decide)

/-- An object with white space around it is read unless its marks are refused. -/
theorem loads_whole {w w' : PyStr} (hw : ∀ c ∈ w, Json.isWhitespace c = true)
    (hw' : ∀ c ∈ w', Json.isWhitespace c = true) (limits : Json.Limits) :
    Json.loadsWithin limits parseFloat (w ++ (value.text ++ w')) =
      limits.apply (Json.marks value.text) (.ok (.obj value.value)) := by
  rw [Json.loadsWithin_of_grammar (Json.loadsWithin_append hw hw' value.loads_eq),
    Json.marks_whitespace hw hw']

/-- An object that is cut at a line boundary is not read. -/
theorem loads_cut {w p q : PyStr} {b : ℕ} (hw : ∀ c ∈ w, Json.isWhitespace c = true)
    (htext : value.text = p ++ b :: q) (hb : PyText.isLineBreak b = true) (limits : Json.Limits) :
    Json.loadsWithin limits parseFloat (w ++ p) =
      limits.apply (Json.marks p) (.error .decodeError) := by
  have hclosing := value.closing
  rw [htext, List.getLast?_append_cons] at hclosing
  have hempty : ∀ c ∈ ([] : PyStr), Json.isWhitespace c = true := by simp
  have hwhole := Json.loadsWithin_append hw hempty value.loads_eq
  rw [List.append_nil, htext, ← List.append_assoc] at hwhole
  have hmarks := Json.marks_whitespace hw hempty p
  rw [List.append_nil] at hmarks
  rw [Json.loadsWithin_cut (cut_lineBreak hb q) (List.mem_of_mem_getLast? hclosing) (by decide)
    hwhole, hmarks]

end ObjectText

theorem exists_pieces (line : DatasetLine parseFloat) (rest : PyStr) :
    ∃ pieces, Pieces line pieces ∧
      PyText.splitlines (line.text ++ 10 :: rest) = pieces ++ PyText.splitlines rest := by
  cases line with
  | blank text hblank oneLine =>
    obtain ⟨kept, lines, heq, hkept, hlines⟩ := PyText.splitlinesFrom_after oneLine rest []
    refine ⟨kept :: lines, .blank ?_, heq⟩
    rw [PyText.strip_eq_nil_iff] at hblank
    rw [List.forall_mem_cons]
    exact ⟨PyText.strip_eq_nil_iff.mpr fun c hc => hblank c (hkept c hc), fun piece hpiece =>
      PyText.strip_eq_nil_iff.mpr fun c hc => hblank c (hlines piece hpiece c hc)⟩
  | object before value after hbefore hafter =>
    obtain ⟨tail, hopening⟩ := value.eq_cons
    obtain ⟨blanks, cur, hsplit, hblanks, hcur⟩ :=
      @PyText.splitlinesFrom_before before (fun h => (hbefore 10 h).2 rfl)
        (value.text ++ (after ++ 10 :: rest)) (by rw [hopening]; simp) []
    have hblank : ∀ piece ∈ blanks, PyText.strip piece = [] := fun piece hpiece =>
      PyText.strip_eq_nil_iff.mpr fun c hc =>
        isSpace_of_whitespace
          (hbefore c ((hblanks piece hpiece c hc).resolve_right List.not_mem_nil)).1
    have hspace : ∀ c ∈ cur.reverse, Json.isWhitespace c = true := fun c hc =>
      (hbefore c ((hcur c (List.mem_reverse.mp hc)).resolve_right List.not_mem_nil)).1
    have hnewline : 10 ∉ after := fun h => (hafter 10 h).2 rfl
    have htext : (DatasetLine.object before value after hbefore hafter).text ++ 10 :: rest =
        before ++ (value.text ++ (after ++ 10 :: rest)) := by
      simp only [DatasetLine.text, List.append_assoc]
    rw [htext, PyText.splitlines, hsplit]
    by_cases hunbroken : ∀ c ∈ value.text, PyText.isLineBreak c = false
    · obtain ⟨kept, lines, heq, hkept, hlines⟩ :=
        PyText.splitlinesFrom_after hnewline rest (value.text.reverse ++ cur)
      rw [PyText.splitlinesFrom_append hunbroken, heq, List.reverse_append, List.reverse_reverse,
        List.append_assoc cur.reverse]
      refine ⟨blanks ++ (cur.reverse ++ (value.text ++ kept)) :: lines,
        .whole rfl ?_ hblank ?_ (ObjectText.strip_ne_nil (by rw [hopening]; rfl)) ?_, ?_⟩
      · simpa [DatasetLine.unbroken] using hunbroken
      · exact fun piece hpiece => PyText.strip_eq_nil_iff.mpr fun c hc =>
          isSpace_of_whitespace (hafter c (hlines piece hpiece c hc)).1
      · intro limits
        have hfront : (DatasetLine.object before value after hbefore hafter).front = value.text :=
          List.takeWhile_eq_self_iff.mpr (by simpa using hunbroken)
        rw [hfront]
        exact value.loads_whole hspace (fun c hc => (hafter c (hkept c hc)).1) limits
      · rw [List.append_assoc]
        rfl
    · -- The first boundary in the object ends the piece that its brace opens.
      obtain ⟨b, hfind⟩ := Option.isSome_iff_exists.mp
        (List.find?_isSome (p := PyText.isLineBreak).mpr (by simpa using hunbroken))
      obtain ⟨hb, p, q, htext, hp⟩ := List.find?_eq_some_iff_append.mp hfind
      have hhead : p.head? = some 123 := by
        cases p with
        | nil =>
          rw [hopening] at htext
          cases htext
          cases hb
        | cons c p =>
          rw [hopening, List.cons_append] at htext
          rw [← (List.cons.inj htext).1]
          rfl
      have hq : 10 ∉ b :: q ++ after := by
        rw [List.mem_append, not_or]
        refine ⟨fun h => value.oneLine ?_, hnewline⟩
        rw [htext]
        exact List.mem_append_right _ h
      obtain ⟨kept, lines, heq, -, -⟩ := PyText.splitlinesFrom_after hq rest (p.reverse ++ cur)
      obtain ⟨lines', hbreak⟩ :=
        PyText.splitlinesFrom_break hb (q ++ (after ++ 10 :: rest)) (p.reverse ++ cur)
      have hpiece : (p.reverse ++ cur).reverse ++ kept = cur.reverse ++ p := by
        rw [List.append_assoc, List.cons_append, hbreak] at heq
        rw [← (List.cons.inj heq).1, List.reverse_append, List.reverse_reverse]
      have hfront : (DatasetLine.object before value after hbefore hafter).front = p := by
        rw [DatasetLine.front, htext, List.takeWhile_append_of_pos hp,
          List.takeWhile_cons_of_neg (by simp [hb]), List.append_nil]
      refine ⟨blanks ++ (cur.reverse ++ p) :: lines, .broken rfl ?_ hblank
        (ObjectText.strip_ne_nil hhead) ?_, ?_⟩
      · simpa [DatasetLine.unbroken] using hunbroken
      · rw [hfront]
        exact value.loads_cut hspace htext hb
      · rw [htext, List.append_assoc, PyText.splitlinesFrom_append (by simpa using hp),
          List.cons_append, ← List.append_assoc q, ← List.cons_append, ← List.cons_append, heq,
          hpiece, List.append_assoc]
        rfl

theorem pyLoads_readable {line : DatasetLine parseFloat} {piece : PyStr} {depth : ℕ}
    {r : Except Json.ScanError Json} (hread : line.readable depth = true)
    (hloads : ∀ limits : Json.Limits,
      Json.loadsWithin limits parseFloat piece = limits.apply (Json.marks line.front) r) :
    Json.loadsWithin (interpreter depth) parseFloat piece = r := by
  have hnone : (Json.marks line.front).findSome? (interpreter depth).refusal = none := by
    rw [List.findSome?_eq_none_iff]
    intro mark hmark
    have := List.all_eq_true.mp hread mark hmark
    cases mark with
    | integer digits => simpa [Json.Limits.refusal, interpreter] using this
    | opening n => simpa [Json.Limits.refusal, interpreter] using this
  rw [hloads, Json.Limits.apply, hnone]
  rfl

theorem pyLoads_refused {line : DatasetLine parseFloat} {piece : PyStr} {depth : ℕ}
    {r : Except Json.ScanError Json} (hread : line.readable depth = false)
    (hloads : ∀ limits : Json.Limits,
      Json.loadsWithin limits parseFloat piece = limits.apply (Json.marks line.front) r) :
    ∃ errorClass, pyLoads (interpreter depth) parseFloat piece = .error (.other errorClass) := by
  obtain ⟨mark, hmark, hlimit⟩ := List.all_eq_false.mp hread
  cases hfirst : (Json.marks line.front).findSome? (interpreter depth).refusal with
  | none =>
    have hnone := List.findSome?_eq_none_iff.mp hfirst mark hmark
    cases mark with
    | integer digits => simp_all [Json.Limits.refusal, interpreter]
    | opening n => simp_all [Json.Limits.refusal, interpreter]
  | some e =>
    have hscan : Json.loadsWithin (interpreter depth) parseFloat piece = .error e := by
      rw [hloads, Json.Limits.apply, hfirst]
      rfl
    obtain ⟨mark, -, hrefusal⟩ := List.exists_of_findSome?_eq_some hfirst
    cases mark with
    | integer digits =>
      simp only [Json.Limits.refusal] at hrefusal
      split_ifs at hrefusal
      cases hrefusal
      exact ⟨"ValueError", by rw [pyLoads, hscan]⟩
    | opening n =>
      simp only [Json.Limits.refusal] at hrefusal
      split_ifs at hrefusal
      cases hrefusal
      exact ⟨"RecursionError", by rw [pyLoads, hscan]⟩

/-- A line that is not read has blank pieces and then one that raises. -/
theorem Pieces.exists_refused {line : DatasetLine parseFloat} {pieces : List PyStr} {depth : ℕ}
    (hpieces : Pieces line pieces) (hread : line.readable depth = false) :
    ∃ before piece after errorClass, pieces = before ++ piece :: after ∧
      (∀ blank ∈ before, PyText.strip blank = []) ∧ PyText.strip piece ≠ [] ∧
      pyLoads (interpreter depth) parseFloat piece = .error (.other errorClass) := by
  cases hpieces with
  | blank h => cases hread
  | whole hcase hunbroken hbefore hafter hpiece hmarks =>
    obtain ⟨errorClass, hpy⟩ := pyLoads_refused hread hmarks
    exact ⟨_, _, _, errorClass, rfl, hbefore, hpiece, hpy⟩
  | broken hcase hunbroken hbefore hpiece hmarks =>
    obtain ⟨errorClass, hpy⟩ := pyLoads_refused hread hmarks
    exact ⟨_, _, _, errorClass, rfl, hbefore, hpiece, hpy⟩

theorem datasetText_cons (line : DatasetLine parseFloat) (lines : List (DatasetLine parseFloat)) :
    datasetText (line :: lines) = line.text ++ 10 :: datasetText lines := by
  simp only [datasetText, List.flatMap_cons, List.append_assoc, List.singleton_append]

theorem datasetObjects_cons {line : DatasetLine parseFloat} {case : Dict}
    (h : line.value = some case) (lines : List (DatasetLine parseFloat)) :
    datasetObjects (line :: lines) = case :: datasetObjects lines := List.filterMap_cons_some h

namespace EvalLab
variable {env : Env} {caseId : PyStr}

theorem findCase_blank {blanks : List PyStr} (h : ∀ piece ∈ blanks, PyText.strip piece = [])
    (rest : List PyStr) : findCase env caseId (blanks ++ rest) = findCase env caseId rest := by
  induction blanks with
  | nil => rfl
  | cons piece blanks ih =>
    rw [List.forall_mem_cons] at h
    rw [List.cons_append, findCase, if_pos h.1, ih h.2]

variable {depth : ℕ} {line : DatasetLine parseFloat} {pieces : List PyStr}

/-- What one line of the file contributes to the search. -/
theorem findCase_pieces (hpieces : Pieces line pieces) (hread : line.readable depth = true)
    (hloads : ∀ piece ∈ pieces,
      env.jsonLoads piece = pyLoads (interpreter depth) parseFloat piece)
    (rest : List PyStr) :
    findCase env caseId (pieces ++ rest) =
      if line.unbroken then
        match line.value with
        | some case => if isCase caseId case then .ok case else findCase env caseId rest
        | none => findCase env caseId rest
      else .error payloadError := by
  cases hpieces with
  | blank h => exact findCase_blank h rest
  | @whole line case before after piece hcase hunbroken hbefore hafter hpiece hmarks =>
    have hjson : env.jsonLoads piece = .ok (.obj case) := by
      rw [hloads piece (by simp), pyLoads, pyLoads_readable hread hmarks]
    rw [List.append_assoc, findCase_blank hbefore, List.cons_append, findCase, if_neg hpiece,
      hjson, if_pos hunbroken, hcase]
    simp only [findCase_blank hafter, isCase]
    rfl
  | @broken line case before after piece hcase hunbroken hbefore hpiece hmarks =>
    have hjson : env.jsonLoads piece = .error .decodeError := by
      rw [hloads piece (by simp), pyLoads, pyLoads_readable hread hmarks]
    rw [List.append_assoc, findCase_blank hbefore, List.cons_append, findCase, if_neg hpiece,
      hjson, hunbroken]
    rfl

theorem findCase_refused (hpieces : Pieces line pieces) (hread : line.readable depth = false)
    (hloads : ∀ piece ∈ pieces,
      env.jsonLoads piece = pyLoads (interpreter depth) parseFloat piece)
    (rest : List PyStr) :
    ∃ errorClass, findCase env caseId (pieces ++ rest) = .error (.unhandled errorClass) := by
  obtain ⟨before, piece, after, errorClass, rfl, hbefore, hpiece, hpy⟩ :=
    hpieces.exists_refused hread
  refine ⟨errorClass, ?_⟩
  rw [List.append_assoc, findCase_blank hbefore, List.cons_append, findCase, if_neg hpiece,
    hloads piece (by simp), hpy]

/-- The search goes through the objects in file order, unless it comes to one that is broken or not
read. -/
theorem findCase_lines {lines : List (DatasetLine parseFloat)}
    (hloads : ∀ piece ∈ PyText.splitlines (datasetText lines),
      env.jsonLoads piece = pyLoads (interpreter depth) parseFloat piece) :
    findCase env caseId (PyText.splitlines (datasetText lines)) =
        ((datasetObjects lines).find? (isCase caseId)).elim (.error payloadError) .ok ↔
      ((∀ case ∈ datasetObjects lines, ¬ isCase caseId case) ∧
          ∀ line ∈ linesToBreak lines, line.readable depth) ∨
        ∀ line ∈ linesToCase caseId lines, line.unbroken ∧ line.readable depth := by
  induction lines with
  | nil => simp [datasetText, datasetObjects, linesToCase, PyText.splitlines, PyText.splitlinesFrom,
      findCase]
  | cons line lines ih =>
    obtain ⟨pieces, hpieces, hsplit⟩ := exists_pieces line (datasetText lines)
    rw [datasetText_cons, hsplit] at hloads ⊢
    rw [List.forall_mem_append] at hloads
    have hnext := ih hloads.2
    rw [linesToBreak, linesToCase, List.forall_mem_cons, List.forall_mem_cons]
    cases hread : line.readable depth with
    | false =>
      obtain ⟨errorClass, hfind⟩ := @findCase_refused _ env caseId _ _ _ hpieces hread hloads.1
        (PyText.splitlines (datasetText lines))
      rw [hfind]
      cases (datasetObjects (line :: lines)).find? (isCase caseId) <;> simp [payloadError]
    | true =>
      rw [findCase_pieces hpieces hread hloads.1]
      cases hunbroken : line.unbroken with
      | false =>
        cases hfind : (datasetObjects (line :: lines)).find? (isCase caseId) with
        | none => simpa using List.find?_eq_none.mp hfind
        | some case =>
          have := List.find?_some hfind
          have hmem := List.mem_of_find?_eq_some hfind
          simp
          exact ⟨case, hmem, this⟩
      | true =>
        cases hcase : line.value with
        | none => simpa [datasetObjects, hcase] using hnext
        | some case =>
          cases his : isCase caseId case with
          | true => simp [datasetObjects, hcase, his]
          | false => simpa [datasetObjects, hcase, his] using hnext

end EvalLab

namespace FullStackRun
variable {env : Env}

theorem loadCases_blank {blanks : List PyStr} (h : ∀ piece ∈ blanks, PyText.strip piece = [])
    (limit : ℕ) (rest : List PyStr) :
    loadCases env limit (blanks ++ rest) = loadCases env limit rest := by
  induction blanks with
  | nil => rfl
  | cons piece blanks ih =>
    rw [List.forall_mem_cons] at h
    cases limit with
    | zero => rw [loadCases, loadCases]
    | succ limit => rw [List.cons_append, loadCases, if_pos h.1, ih h.2]

variable {depth : ℕ} {line : DatasetLine parseFloat} {pieces : List PyStr}

/-- What one line of the file contributes to the cases. -/
theorem loadCases_pieces (hpieces : Pieces line pieces) (hread : line.readable depth = true)
    (hloads : ∀ piece ∈ pieces,
      env.jsonLoads piece = pyLoads (interpreter depth) parseFloat piece)
    (limit : ℕ) (rest : List PyStr) :
    loadCases env (limit + 1) (pieces ++ rest) =
      if line.unbroken then
        match line.value with
        | some case => (loadCases env limit rest).map (case :: ·)
        | none => loadCases env (limit + 1) rest
      else .error proofError := by
  cases hpieces with
  | blank h => exact loadCases_blank h _ rest
  | @whole line case before after piece hcase hunbroken hbefore hafter hpiece hmarks =>
    have hjson : env.jsonLoads piece = .ok (.obj case) := by
      rw [hloads piece (by simp), pyLoads, pyLoads_readable hread hmarks]
    rw [List.append_assoc, loadCases_blank hbefore, List.cons_append, loadCases, if_neg hpiece,
      hjson, if_pos hunbroken, hcase]
    simp only [loadCases_blank hafter]
  | @broken line case before after piece hcase hunbroken hbefore hpiece hmarks =>
    have hjson : env.jsonLoads piece = .error .decodeError := by
      rw [hloads piece (by simp), pyLoads, pyLoads_readable hread hmarks]
    rw [List.append_assoc, loadCases_blank hbefore, List.cons_append, loadCases, if_neg hpiece,
      hjson, hunbroken]
    rfl

theorem loadCases_refused (hpieces : Pieces line pieces) (hread : line.readable depth = false)
    (hloads : ∀ piece ∈ pieces,
      env.jsonLoads piece = pyLoads (interpreter depth) parseFloat piece)
    (limit : ℕ) (rest : List PyStr) :
    ∃ errorClass, loadCases env (limit + 1) (pieces ++ rest) = .error errorClass := by
  obtain ⟨before, piece, after, errorClass, rfl, hbefore, hpiece, hpy⟩ :=
    hpieces.exists_refused hread
  refine ⟨errorClass, ?_⟩
  rw [List.append_assoc, loadCases_blank hbefore, List.cons_append, loadCases, if_neg hpiece,
    hloads piece (by simp), hpy]

/-- The loader takes the first objects in file order, unless it comes to one that is broken or not
read. -/
theorem loadCases_lines {lines : List (DatasetLine parseFloat)}
    (hloads : ∀ piece ∈ PyText.splitlines (datasetText lines),
      env.jsonLoads piece = pyLoads (interpreter depth) parseFloat piece) (limit : ℕ) :
    loadCases env limit (PyText.splitlines (datasetText lines)) =
        .ok ((datasetObjects lines).take limit) ↔
      ∀ line ∈ linesToLimit limit lines, line.unbroken ∧ line.readable depth := by
  induction lines generalizing limit with
  | nil => cases limit <;> simp [datasetText, datasetObjects, linesToLimit, PyText.splitlines,
      PyText.splitlinesFrom, loadCases]
  | cons line lines ih =>
    cases limit with
    | zero => simp [loadCases, linesToLimit]
    | succ limit =>
      obtain ⟨pieces, hpieces, hsplit⟩ := exists_pieces line (datasetText lines)
      rw [datasetText_cons, hsplit] at hloads ⊢
      rw [List.forall_mem_append] at hloads
      rw [linesToLimit, List.forall_mem_cons]
      cases hread : line.readable depth with
      | false =>
        obtain ⟨errorClass, hload⟩ := loadCases_refused hpieces hread hloads.1 limit
          (PyText.splitlines (datasetText lines))
        simp [hload]
      | true =>
        rw [loadCases_pieces hpieces hread hloads.1]
        cases hunbroken : line.unbroken with
        | false => simp
        | true =>
          cases hcase : line.value with
          | none => simpa [datasetObjects, hcase] using ih hloads.2 (limit + 1)
          | some case =>
            rw [datasetObjects_cons hcase, List.take_succ_cons, Option.isSome_some]
            simp only [and_self, true_and, if_true, ← ih hloads.2 limit]
            cases loadCases env limit (PyText.splitlines (datasetText lines)) <;>
              simp [Except.map]

end FullStackRun

/-- A dataset of valid lines is read as the format means it just when each object up to the one
that is looked for, or the last one that is taken, has no line boundary of `splitlines` in it and
is within the limits of the interpreter; where no object is the one that is looked for, each line up
to the first that is broken has to be within them. -/
theorem dataset_loaders_iff (env : Env) (files : FileStore) (path : PyPath) {bytes : PyBytes}
    {lines : List (DatasetLine parseFloat)} (hfile : files (env.resolve path.text) = some bytes)
    (hbytes : PyText.utf8Decode bytes = some (datasetText lines)) (depth : ℕ)
    (hloads : ∀ piece ∈ PyText.splitlines (datasetText lines),
      env.jsonLoads piece = pyLoads (interpreter depth) parseFloat piece)
    (caseId : PyStr) {limit : ℤ} (hlimit : 1 ≤ limit) :
    (EvalLab.loadCase env files path caseId =
        ((datasetObjects lines).find? (isCase caseId)).elim (.error EvalLab.payloadError) .ok ↔
      ((∀ case ∈ datasetObjects lines, ¬ isCase caseId case) ∧
          ∀ line ∈ linesToBreak lines, line.readable depth) ∨
        ∀ line ∈ linesToCase caseId lines, line.unbroken ∧ line.readable depth) ∧
    (FullStackRun.loadEvalLabCases env bytes limit =
        .ok ((datasetObjects lines).take limit.toNat) ↔
      ∀ line ∈ linesToLimit limit.toNat lines, line.unbroken ∧ line.readable depth) := by
  constructor
  · rw [EvalLab.loadCase, hfile]
    simp only [hbytes]
    exact EvalLab.findCase_lines hloads
  · rw [FullStackRun.loadEvalLabCases, if_neg (by omega)]
    simp only [hbytes]
    exact FullStackRun.loadCases_lines hloads limit.toNat

/-- The beginnings of the texts that `indent=2` writes. -/
def indentedHeads : List PyStr := [[123, 125], [123, 10]]

theorem take_dumps_indented (floatRepr : PyFloat → PyStr) (d : Dict) :
    (Json.dumps Json.indentedFormat floatRepr (.obj d)).take 2 ∈ indentedHeads := by
  have hopen : py "\x7b" = [123] := by decide
  have hclose : py "\x7d" = [125] := by decide
  have hnewline : py "\n" = [10] := by decide
  rw [Json.dumps, Json.dumpsAt, Json.bracket, hopen, hclose, Json.newline]
  simp only [Json.indentedFormat, hnewline]
  split <;> simp [indentedHeads]

/-- Reads the indented texts as empty objects and all others as documented, a thousand brackets
deep. -/
def datasetEnv : Env :=
  { sampleEnv with
    jsonLoads := fun text =>
      if text.take 2 ∈ indentedHeads then .ok (.obj [])
      else pyLoads (interpreter 1000) (fun _ => .nan) text
    jsonLoads_dumps := fun d => ⟨[], if_pos (take_dumps_indented _ d)⟩ }

def plainText : PyStr := py "\x7b\"id\": \"a\"\x7d"

def plainValue : Dict := [(py "id", .str (py "a"))]

theorem plainText_oneLine : 10 ∉ plainText := by decide

theorem plainText_loads : Json.loadsWithin Json.Limits.unlimited (fun _ => .nan) plainText =
    .ok (.obj plainValue) := by decide +kernel

/-- A string with a line separator in it. -/
def separatorText : PyStr := py "\x7b\"id\": \"b\", \"text\": \"x\u2028y\"\x7d"

def separatorValue : Dict := [(py "id", .str (py "b")), (py "text", .str (py "x\u2028y"))]

theorem separatorText_oneLine : 10 ∉ separatorText := by decide

theorem separatorText_loads :
    Json.loadsWithin Json.Limits.unlimited (fun _ => .nan) separatorText =
      .ok (.obj separatorValue) := by decide +kernel

/-- An object and then an object with a line separator in a string. -/
def separatorDataset : List (DatasetLine fun _ => .nan) :=
  [.object [] ⟨plainText, plainValue, rfl, rfl, plainText_oneLine, plainText_loads⟩ [] nofun nofun,
    .object [] ⟨separatorText, separatorValue, rfl, rfl, separatorText_oneLine,
      separatorText_loads⟩ [] nofun nofun]

def separatorBytes : PyBytes := (PyText.utf8Encode (datasetText separatorDataset)).getD []

theorem separatorBytes_decoded :
    PyText.utf8Decode separatorBytes = some (datasetText separatorDataset) ∧
      ∀ piece ∈ PyText.splitlines (datasetText separatorDataset),
        piece.take 2 ∉ indentedHeads := by decide +kernel

theorem splitlines_separatorDataset :
    ∀ piece ∈ PyText.splitlines (datasetText separatorDataset),
      datasetEnv.jsonLoads piece = pyLoads (interpreter 1000) (fun _ => .nan) piece :=
  fun piece hpiece => if_neg (separatorBytes_decoded.2 piece hpiece)

/-- The object before the one with the separator is found, and taken alone. -/
theorem dataset_loaders_iff_before :
    EvalLab.loadCase datasetEnv (fun _ => some separatorBytes) (PyPath.parse (py "cases"))
        (py "a") = .ok plainValue ∧
      FullStackRun.loadEvalLabCases datasetEnv separatorBytes 1 = .ok [plainValue] := by
  have h := dataset_loaders_iff datasetEnv (fun _ => some separatorBytes)
    (PyPath.parse (py "cases")) rfl separatorBytes_decoded.1 1000 splitlines_separatorDataset
    (py "a") (show (1 : ℤ) ≤ 1 from le_rfl)
  refine ⟨h.1.mpr (.inr ?_), h.2.mpr ?_⟩
  · decide +kernel
  · decide +kernel

/-- The object with the separator is in the file, and neither loader gets past its line. -/
theorem dataset_loaders_at_separator :
    (datasetObjects separatorDataset).find? (isCase (py "b")) = some separatorValue ∧
      EvalLab.loadCase datasetEnv (fun _ => some separatorBytes) (PyPath.parse (py "cases"))
        (py "b") = .error EvalLab.payloadError ∧
      FullStackRun.loadEvalLabCases datasetEnv separatorBytes 2 =
        .error FullStackRun.proofError := by
  decide +kernel

end AgentRuntimeGrid
