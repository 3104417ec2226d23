import AgentRuntimeGrid.Lib.PyText
import Mathlib.Data.List.Infix
import Mathlib.Tactic.Common

/-! Pure POSIX paths as `pathlib` parses and takes them apart. -/

structure PyPath where
  /-- `""`, `"/"` or `"//"`. -/
  root : PyStr
  parts : List PyStr
  deriving DecidableEq

namespace PyPath

/-- `PurePosixPath(text)`: empty parts and `"."` are dropped. -/
def parse (text : PyStr) : PyPath where
  root := match text with
    | 47 :: 47 :: 47 :: _ => [47]
    | 47 :: 47 :: _ => [47, 47]
    | 47 :: _ => [47]
    | _ => []
  parts := (text.splitOn 47).filter fun part => part ≠ [] ∧ part ≠ [46]

def isAbsolute (p : PyPath) : Bool := !p.root.isEmpty

/-- `path.name`. -/
def name (p : PyPath) : PyStr := p.parts.getLast?.getD []

/-- `str(path)`, which on POSIX is `path.as_posix()`. -/
def text (p : PyPath) : PyStr :=
  if p.root = [] ∧ p.parts = [] then [46] else p.root ++ (p.parts.intersperse [47]).flatten

/-- `path / segment`: an absolute segment starts anew. -/
def join (p : PyPath) (segment : PyStr) : PyPath :=
  let q := parse segment
  if q.isAbsolute then q else ⟨p.root, p.parts ++ q.parts⟩

/-- `path.parent`. -/
def parent (p : PyPath) : PyPath := ⟨p.root, p.parts.dropLast⟩

/-- `name.rfind(".")`; `none` is -1. -/
def rfindDot (name : PyStr) : Option ℕ :=
  if 46 ∈ name then some (name.length - 1 - name.reverse.idxOf 46) else none

/-- `path.suffix` of a path with this name. -/
def suffix (name : PyStr) : PyStr :=
  match rfindDot name with
  | some i => if 0 < i ∧ i < name.length - 1 then name.drop i else []
  | none => []

/-- `path.stem` of a path with this name. -/
def stem (name : PyStr) : PyStr :=
  match rfindDot name with
  | some i => if 0 < i ∧ i < name.length - 1 then name.take i else name
  | none => name

/-- The name of `path.with_suffix(suffix)`. -/
def withSuffix (name newSuffix : PyStr) : PyStr :=
  if suffix name = [] then name ++ newSuffix
  else name.take (name.length - (suffix name).length) ++ newSuffix

/-- The text is the name of its own path: a single part, neither empty nor the current directory. -/
theorem name_parse {s : PyStr} (hne : s ≠ []) (hdot : s ≠ [46]) (hslash : 47 ∉ s) :
    (parse s).name = s := by
  have hsplit : s.splitOn 47 = [s] := List.splitOn_eq_singleton hslash
  simp [name, parse, hsplit, hne, hdot]

theorem mem_of_mem_intersperse {α : Type*} {c : α} {sep : List α} {parts : List (List α)}
    (h : c ∈ (parts.intersperse sep).flatten) : c ∈ sep ∨ ∃ part ∈ parts, c ∈ part := by
  induction parts with
  | nil => exact (List.not_mem_nil h).elim
  | cons part rest ih =>
    cases rest with
    | nil => exact .inr ⟨part, List.mem_cons_self, by simpa using h⟩
    | cons next rest =>
      rw [List.intersperse_cons_cons, List.flatten_cons, List.flatten_cons, List.mem_append,
        List.mem_append] at h
      rcases h with h | h | h
      · exact .inr ⟨part, List.mem_cons_self, h⟩
      · exact .inl h
      · obtain h | ⟨part, hpart, h⟩ := ih h
        · exact .inl h
        · exact .inr ⟨part, List.mem_cons_of_mem _ hpart, h⟩

theorem flatten_intersperse_concat {α : Type*} {parts : List (List α)} (h : parts ≠ [])
    (sep part : List α) : ((parts ++ [part]).intersperse sep).flatten =
      (parts.intersperse sep).flatten ++ (sep ++ part) := by
  induction parts with
  | nil => exact absurd rfl h
  | cons first rest ih =>
    cases rest with
    | nil => simp
    | cons next rest =>
      have ih := ih (List.cons_ne_nil _ _)
      simp only [List.cons_append, List.intersperse_cons_cons, List.flatten_cons] at ih ⊢
      rw [ih]
      simp only [List.append_assoc]

theorem text_concat {root : PyStr} {parts : List PyStr} (h : parts ≠ []) (part : PyStr) :
    text ⟨root, parts ++ [part]⟩ = root ++ (parts.intersperse [47]).flatten ++ 47 :: part := by
  have hne : ¬ (root = [] ∧ parts ++ [part] = []) := by simp
  rw [text, if_neg hne, flatten_intersperse_concat h, List.append_assoc]
  rfl

/-- What stands before a slash does not matter to the name, unless only slashes and dots follow. -/
theorem name_parse_append (before : PyStr) {after : PyStr} {c : ℕ} (hc : c ∈ after)
    (hslash : c ≠ 47) (hdot : c ≠ 46) :
    (parse (before ++ 47 :: after)).name = (parse after).name := by
  have hparts : (after.splitOn 47).filter (fun part => part ≠ [] ∧ part ≠ [46]) ≠ [] := by
    have hmem : c ∈ ((after.splitOn 47).intersperse [47]).flatten := by
      have hjoin : ((after.splitOn 47).intersperse [47]).flatten = after :=
        List.intercalate_splitOn 47
      rwa [hjoin]
    obtain h | ⟨part, hpart, h⟩ := mem_of_mem_intersperse hmem
    · exact absurd (List.mem_singleton.mp h) hslash
    · intro hnil
      refine absurd (List.filter_eq_nil_iff.mp hnil part hpart) (not_not.mpr ?_)
      simp only [decide_eq_true_eq]
      constructor
      · rintro rfl
        exact (List.not_mem_nil h).elim
      · rintro rfl
        exact hdot (List.mem_singleton.mp h)
  have hsplit := List.splitOn_append_cons_self (a := 47) before after
  simp only [name, parse, hsplit, List.filter_append]
  rw [List.getLast?_append_of_ne_nil _ hparts]

section Suffix
variable {base ext : PyStr}

/-- The last dot is the one in front of an extension without dots. -/
theorem rfindDot_append (hext : 46 ∉ ext) :
    rfindDot (base ++ 46 :: ext) = some base.length := by
  have hidx : (base ++ 46 :: ext).reverse.idxOf 46 = ext.length := by
    rw [List.reverse_append, List.reverse_cons, List.append_assoc, List.idxOf_append_of_notMem
      (by simpa using hext)]
    simp
  unfold rfindDot
  rw [if_pos (by simp), hidx]
  simp

theorem suffix_append (hbase : base ≠ []) (hext : 46 ∉ ext) (hne : ext ≠ []) :
    suffix (base ++ 46 :: ext) = 46 :: ext := by
  have hb := List.length_pos_iff.mpr hbase
  have he := List.length_pos_iff.mpr hne
  unfold suffix
  rw [rfindDot_append hext]
  simp only [List.length_append, List.length_cons]
  rw [if_pos (by omega), List.drop_left]

theorem stem_append (hbase : base ≠ []) (hext : 46 ∉ ext) (hne : ext ≠ []) :
    stem (base ++ 46 :: ext) = base := by
  have hb := List.length_pos_iff.mpr hbase
  have he := List.length_pos_iff.mpr hne
  unfold stem
  rw [rfindDot_append hext]
  simp only [List.length_append, List.length_cons]
  rw [if_pos (by omega), List.take_left]

theorem withSuffix_append (hbase : base ≠ []) (hext : 46 ∉ ext) (hne : ext ≠ []) (t : PyStr) :
    withSuffix (base ++ 46 :: ext) t = base ++ t := by
  unfold withSuffix
  rw [suffix_append hbase hext hne, if_neg (List.cons_ne_nil _ _), List.length_append,
    Nat.add_sub_cancel, List.take_left]

end Suffix

example : suffix (py ".md") = [] ∧ suffix (py "a.b.md") = py ".md" ∧ stem (py "...md") = py ".." ∧
    (parse (py "/srv//runs/./a.md")).text = py "/srv/runs/a.md" := by decide

end PyPath
